import NetlinkHub.Concurrent.Trace
import NetlinkHub.Sharing.Machine

/-! # What a claim and a revocation have done before

A claim writes to the memberships only with a pass that it has read by the hash of its token and then
used up itself, and to the allocations only for the member that it has written. The revocation of a member
bars the member and then drops its open windows. -/

namespace Sharing

open Api (Date HttpException RequestContext Token)
open Concurrent (Config Log Machine Move Outline Prog Step)
open Table (Op)

variable {P : Type}

/-! ## What is known of the statements of a thread -/

/-- The conditional update of a claim, which found the pass open. -/
structure Won (user : Token) (id : String) (step : SharingStep P) : Prop where
  write : ∃ now, step.write = .invitations (.update (InvitationRow.Open id) (InvitationRow.claimed user now))
  found : ∃ i ∈ step.before.invitations, InvitationRow.Open id i

/-- A claim with this token has read the pass and used it up. -/
structure Consumed (D : Deployment P) (user : Token) (token : String) (i : InvitationRow)
    (own : List (SharingStep P)) : Prop where
  hash : i.tokenHash = D.hashSecret token
  read : ∃ s ∈ own, i ∈ s.before.invitations
  won : ∃ s ∈ own, Won user i.id s

/-- The upsert of a claim, and the membership that it leaves. -/
structure Joined (D : Deployment P) (user : Token) (i : InvitationRow) (m : MemberRow)
    (step : SharingStep P) : Prop where
  write : ∃ id now, step.write = .upsertMember (newMember user i id now) (rejoined i)
  left : m ∈ (exec D.provider step.write step.before).members
  user : m.user = user
  space : m.spaceId = i.spaceId

/-- A claim has used up a pass and written a membership. -/
structure Entered (D : Deployment P) (user : Token) (token : String) (i : InvitationRow) (m : MemberRow)
    (own : List (SharingStep P)) : Prop where
  consumed : Consumed D user token i own
  joined : ∃ s ∈ own, Joined D user i m s

/-- The provider has taken the order of a claim. -/
structure Ordered (D : Deployment P) (input : OpenAllocation) (a : ProviderAllocation)
    (step : SharingStep P) : Prop where
  write : ∃ ref, step.write = .provider (.createAllocation (input.forProvider ref)) ∧
    D.provider.createAllocation (input.forProvider ref) step.before.provider = .ok a

/-- The read of a revocation, and the member that it found. -/
structure FoundMember (spaceId memberId : String) (m : MemberRow) (step : SharingStep P) : Prop where
  mem : m ∈ step.before.members
  id : m.id = memberId
  space : m.spaceId = spaceId
  role : m.role ≠ "owner"

/-- What is known of a statement of a claim. -/
def ToldClaim (D : Deployment P) (user : Token) (token : String) (own : List (SharingStep P)) :
    Write → Prop
  | .upsertMember row data => ∃ i id now, row = newMember user i id now ∧ data = rejoined i ∧
      Consumed D user token i own
  | .upsertAllocation row data => ∃ i m total poolId id a,
      row = newAllocation (i.allocation user m.id total) poolId id ∧
      data = reopened (i.allocation user m.id total) ∧ i.totalDataBytes = some total ∧
      Entered D user token i m own ∧ ∃ s ∈ own, Ordered D (i.allocation user m.id total) a s
  | .grantSpaceAccess userId spaceId => ∃ i m, userId = user.text ∧ spaceId = i.spaceId ∧
      Entered D user token i m own
  | _ => True

/-- What is known of a statement of a revocation. -/
def ToldRevocation (spaceId memberId : String) (own : List (SharingStep P)) : Write → Prop
  | .members _ => ∃ m, ∃ s ∈ own, FoundMember spaceId memberId m s
  | .revokeSpaceAccess userId spaceId' => ∃ m, userId = m.user.text ∧ spaceId' = spaceId ∧
      ∃ s ∈ own, FoundMember spaceId memberId m s
  | _ => True

/-- What is known of a statement, by the earlier ones of its thread. -/
def Told (D : Deployment P) (step : SharingStep P) (own : List (SharingStep P)) : Prop :=
  Does step.request step.write ∧ match step.request with
    | .claimPass user token _ => ToldClaim D user token own step.write
    | .revokeAccess _ spaceId memberId _ => ToldRevocation spaceId memberId own step.write
    | _ => True

/-- What is known of an answer. -/
def Told.Answer (D : Deployment P) : Request → Except HttpException Response → List (SharingStep P) → Prop
  | .claimPass user token _, .ok _, own => ∃ i m, Entered D user token i m own
  | .revokePass _ _ passId _, .ok _, own => ∃ now, ∃ s ∈ own,
      s.write = .invitations (.update (·.id = passId) (InvitationRow.revoked now)) ∧
      s.before.invitations.any (·.id = passId)
  | .revokeAccess _ spaceId memberId _, .ok _, own => ∃ m, (∃ s ∈ own, FoundMember spaceId memberId m s) ∧
      (∃ s ∈ own, s.write = .members (.update (·.id = memberId) MemberRow.barred)) ∧
      ∃ s ∈ own, s.write = .revokeSpaceAccess m.user.text spaceId
  | _, _, _ => True

variable {D : Deployment P} {k : Nat} {q : Request} {own : List (SharingStep P)} {α : Type}

/-- The statement says nothing about a claim or a revocation. -/
def Write.Aside : Write → Prop
  | .members _ => False
  | .upsertMember .. => False
  | .upsertAllocation .. => False
  | .grantSpaceAccess .. => False
  | .revokeSpaceAccess .. => False
  | _ => True

theorem Does.told {w : Write} (h : Does q w) (hw : w.Aside) (s : World P) : Told D ⟨k, q, w, s⟩ own := by
  refine ⟨h, ?_⟩
  cases q with
  | claimPass user token context =>
    cases w with
    | upsertMember row data => cases hw
    | upsertAllocation row data => cases hw
    | grantSpaceAccess userId spaceId => cases hw
    | _ => trivial
  | revokeAccess user spaceId memberId context =>
    cases w with
    | members op => cases hw
    | revokeSpaceAccess userId spaceId => cases hw
    | _ => trivial
  | _ => trivial

theorem Write.Bland.aside {w : Write} (h : w.Bland) : w.Aside := by
  cases w with
  | account w => trivial
  | select table => trivial
  | _ => exact h.elim

theorem traces_bland {p : Service P α} (h : p.Only Write.Bland) :
    p.Traces (Told D) k q (fun _ _ => True) own :=
  .of_only h (fun _ s _ hw _ => ⟨hw.does.told hw.aside s, trivial⟩) trivial

/-- What a thread has done, it has done later, too. -/
theorem done_later {R : SharingStep P → Prop} {step : SharingStep P} (h : ∃ s ∈ own, R s) :
    ∃ s ∈ step :: own, R s := by
  obtain ⟨s, hs, hR⟩ := h
  exact ⟨s, List.mem_cons_of_mem _ hs, hR⟩

theorem Consumed.later {user : Token} {token : String} {i : InvitationRow} {step : SharingStep P}
    (h : Consumed D user token i own) : Consumed D user token i (step :: own) :=
  ⟨h.hash, done_later h.read, done_later h.won⟩

theorem Entered.later {user : Token} {token : String} {i : InvitationRow} {m : MemberRow}
    {step : SharingStep P} (h : Entered D user token i m own) : Entered D user token i m (step :: own) :=
  ⟨h.consumed.later, done_later h.joined⟩

/-! ## Claims -/

section Claims

variable {user : Token} {token : String} {context : RequestContext} {i : InvitationRow} {m : MemberRow}

theorem upsertMember_bind (row : MemberRow) (data : MemberRow → MemberRow) (f : MemberRow → Service P α) :
    (upsertMember row data >>= f) = .stmt (.upsertMember row data) fun w =>
      match w.members.find? (·.Of row.user row.spaceId) with
      | some m => f (data m)
      | none => if w.members.any (·.id = row.id) then .raise Api.databaseFault else f row := by
  unfold upsertMember
  rw [Prog.stmt_bind]
  congr 1
  funext w
  cases w.members.find? (·.Of row.user row.spaceId) with
  | some m => rfl
  | none =>
    show (if _ then _ else _) >>= f = _
    split <;> rfl

theorem ask_bind {β : Type} (call : ProviderCall) (answer : P → Except HttpException β)
    (f : β → Service P α) : (ask call answer >>= f) = .stmt (.provider call) fun w =>
      match answer w.provider with
      | .error e => .raise e
      | .ok b => f b := by
  unfold ask
  rw [Prog.stmt_bind]
  congr 1
  funext w
  cases answer w.provider with
  | error e => rfl
  | ok b => rfl

/-- What an upsert leaves for the user of its row. -/
theorem mem_upsert_of_find {sel clash : MemberRow → Bool} {row : MemberRow} {data : MemberRow → MemberRow}
    {rows : List MemberRow} (h : rows.find? sel = some m) : data m ∈ upsert sel clash row data rows := by
  have hsel := List.find?_some h
  have hmem := List.mem_of_find?_eq_some h
  unfold upsert
  rw [if_pos (List.any_eq_true.mpr ⟨m, hmem, hsel⟩)]
  exact Table.mem_update.mpr ⟨m, hmem, by rw [if_pos hsel]⟩

/-- A new row is inserted if no row is there and its identifier is free. -/
theorem mem_upsert_of_free {R : Type} {sel clash : R → Bool} {row : R} {data : R → R} {rows : List R}
    (hnone : ¬ rows.any sel) (hfree : ¬ rows.any clash) : row ∈ upsert sel clash row data rows := by
  unfold upsert
  rw [if_neg hnone, Table.apply_insert, if_neg hfree]
  exact List.mem_append_right _ List.mem_cons_self

/-- The allocation of a claim is opened for the member that it has written. -/
theorem traces_openFor (h : Entered D user token i m own) :
    (openFor D.provider user i m.id).Traces (Told D) k (.claimPass user token context)
      (fun _ => Entered D user token i m) own := by
  unfold openFor openAllocation
  split
  · exact h
  rename_i total htotal
  rw [select_bind]
  refine .stmt (fun s => Does.told (.reads ..) trivial s) fun s => ?_
  split
  · exact h.later
  rename_i pool _
  rw [ask_bind]
  refine .stmt (fun s => Does.told (.orders ..) trivial s) fun s' => ?_
  split
  · exact h.later.later
  rename_i a ha
  rw [randomUUID_bind]
  refine .stmt (fun s => Does.told does_randomUUID trivial s) fun s'' => ?_
  refine Prog.Traces.bind (K := fun _ => Entered D user token i m) ?_ (fun _ own hown => ?_) fun _ _ h => h
  · refine .stmt (fun s => ⟨.opens .., i, m, total, pool.id, _, a, rfl, rfl, htotal, h.later.later.later,
      done_later ⟨_, List.mem_cons_self, ⟨⟨_, rfl, ha⟩⟩⟩⟩) fun s => ?_
    split
    · exact h.later.later.later.later
    · exact h.later.later.later.later
  · exact .stmt (fun s => Does.told (does_audit (by simp)) trivial s) fun s => hown.later

/-- What is known of the answer of a claim. -/
def ClaimAnswer (D : Deployment P) (user : Token) (token : String) :
    Except HttpException ClaimedPass → List (SharingStep P) → Prop
  | .ok _, own => ∃ i m, Entered D user token i m own
  | .error _, _ => True

theorem traces_join (spaceName : String) (hconsumed : Consumed D user token i own) :
    (join D.provider user i spaceName context).Traces (Told D) k (.claimPass user token context)
      (ClaimAnswer D user token) own := by
  unfold join
  simp only [randomUUID_bind, newDate_bind]
  refine .stmt (fun s => Does.told does_randomUUID trivial s) fun s₁ =>
    .stmt (fun s => Does.told does_newDate trivial s) fun s₂ => ?_
  rw [upsertMember_bind]
  refine .stmt (fun s => ⟨.joins .., i, _, _, rfl, rfl, hconsumed.later.later⟩) fun s => ?_
  -- Once the membership is there, the rest is the same for a new and an old member.
  have hrest : ∀ m own, Entered D user token i m own →
      (openFor D.provider user i m.id >>= fun _ => do
        record ⟨"invitation.claimed", "success", some user.text, none, none, some i.spaceId,
          some context, [("permissions", .text (joined i.permissions))]⟩
        Prog.perform (.grantSpaceAccess user.text i.spaceId) fun _ => ()
        .done ⟨i.spaceId, spaceName, i.permissions⟩ : Service P ClaimedPass).Traces (Told D) k
          (.claimPass user token context) (ClaimAnswer D user token) own := by
    intro m own hown
    refine (traces_openFor hown).bind (fun _ own hown => ?_) fun _ _ _ => trivial
    rw [record_bind]
    refine .stmt (fun s => Does.told (does_audit (by simp)) trivial s) fun s => ?_
    rw [Prog.perform_bind]
    refine .stmt (fun s => ⟨.grants .., i, m, rfl, rfl, hown.later⟩) fun s => ?_
    exact ⟨i, m, hown.later.later⟩
  split
  · rename_i m hm
    have hOf := MemberRow.of_iff.mp (List.find?_some hm)
    exact hrest (rejoined i m) _ ⟨hconsumed.later.later.later, _, List.mem_cons_self,
      ⟨⟨_, _, rfl⟩, mem_upsert_of_find hm, hOf.2, hOf.1⟩⟩
  · rename_i hnone
    split
    · trivial
    · rename_i hfree
      refine hrest (newMember user i _ _) _ ⟨hconsumed.later.later.later, _, List.mem_cons_self,
        ⟨⟨_, _, rfl⟩, mem_upsert_of_free ?_ hfree, rfl, rfl⟩⟩
      simpa using hnone

theorem traces_redeem (spaceName : String) (hhash : i.tokenHash = D.hashSecret token)
    (hread : ∃ s ∈ own, i ∈ s.before.invitations) :
    (redeem D.provider user i spaceName context).Traces (Told D) k (.claimPass user token context)
      (ClaimAnswer D user token) own := by
  unfold redeem
  simp only [newDate_bind, Prog.perform_bind]
  refine .stmt (fun s => Does.told does_newDate trivial s) fun s₁ =>
    .stmt (fun s => Does.told (.redeems ..) trivial s) fun s₂ => ?_
  split
  · trivial
  · rename_i hcount
    refine traces_join spaceName ⟨hhash, done_later (done_later hread), _, List.mem_cons_self,
      ⟨⟨_, rfl⟩, ?_⟩⟩
    obtain ⟨i', hi'⟩ := List.exists_mem_of_length_pos (Nat.pos_of_ne_zero hcount)
    exact ⟨i', List.mem_filter.mp hi'⟩

theorem traces_claimOpen (space : SpaceRow) (hhash : i.tokenHash = D.hashSecret token)
    (hread : ∃ s ∈ own, i ∈ s.before.invitations) :
    (claimOpen D.provider user i space context).Traces (Told D) k (.claimPass user token context)
      (ClaimAnswer D user token) own := by
  unfold claimOpen
  rw [select_bind]
  refine .stmt (fun s => Does.told (.reads ..) trivial s) fun s => ?_
  split
  · trivial
  split
  · exact .stmt (fun s => Does.told (does_audit (by simp)) trivial s) fun s => trivial
  split
  · trivial
  · exact traces_redeem _ hhash (done_later hread)

/-- **A claim.** -/
theorem traces_claimPass : (claimPass D user token context).Traces (Told D) k
    (.claimPass user token context) (ClaimAnswer D user token) [] := by
  unfold claimPass
  rw [select_bind]
  refine .stmt (fun s => Does.told (.reads ..) trivial s) fun s => ?_
  split
  · trivial
  rename_i i space hfound
  obtain ⟨i', hi', heq⟩ := Option.bind_eq_some_iff.mp hfound
  obtain ⟨space', -, heq⟩ := Option.map_eq_some_iff.mp heq
  obtain ⟨rfl, rfl⟩ := Prod.mk.inj heq
  have hhash := List.find?_some hi'
  replace hhash := of_decide_eq_true hhash
  split
  · trivial
  rw [dateNow_bind]
  refine .stmt (fun s => Does.told does_dateNow trivial s) fun s' => ?_
  split
  · trivial
  · exact traces_claimOpen _ hhash (done_later ⟨_, List.mem_cons_self, List.mem_of_find?_eq_some hi'⟩)

end Claims

/-! ## Revocations -/

theorem traces_revokePass (user : Token) (spaceId passId : String) (context : RequestContext) :
    (revokePass user spaceId passId context : Service P Unit).Traces (Told D) k
      (.revokePass user spaceId passId context) (fun r own => Told.Answer D
        (.revokePass user spaceId passId context) ((fun _ => .revoked) <$> r) own) [] := by
  unfold revokePass
  refine (traces_bland (bland_requirePermission ..)).bind (fun _ own _ => ?_) fun _ _ _ => trivial
  rw [select_bind]
  refine .stmt (fun s => Does.told (.reads ..) trivial s) fun s => ?_
  split
  · trivial
  rw [newDate_bind]
  refine .stmt (fun s => Does.told does_newDate trivial s) fun s' => ?_
  unfold updateInvitation
  rw [Prog.stmt_bind]
  refine .stmt (fun s => Does.told (.revokesPass ..) trivial s) fun s'' => ?_
  split
  · rename_i hthere
    rw [Prog.done_bind]
    refine .stmt (fun s => Does.told (does_audit (by simp)) trivial s) fun s => ?_
    exact ⟨_, done_later ⟨_, List.mem_cons_self, rfl, hthere⟩⟩
  · trivial

theorem updateAllocationRow_bind (id : String) (data : AllocationRow → AllocationRow)
    (f : AllocationRow → Service P α) : (updateAllocationRow id data >>= f) =
      .stmt (.updateAllocation id data) fun w => match findAllocation id w with
        | none => .raise Api.databaseFault
        | some a => f (touch w.clock data a) := by
  unfold updateAllocationRow
  rw [Prog.stmt_bind]
  congr 1
  funext w
  cases findAllocation id w with
  | none => rfl
  | some a => rfl

section Revocation

variable {user : Token} {spaceId memberId : String} {context : RequestContext} {m : MemberRow}

theorem traces_revokeAllocation (allocation : Option AllocationRow)
    (h : ∃ s ∈ own, FoundMember spaceId memberId m s) :
    (revokeAllocation allocation).Traces (Told D) k (.revokeAccess user spaceId memberId context)
      (fun _ own => ∃ s ∈ own, FoundMember spaceId memberId m s) own := by
  unfold revokeAllocation
  split
  · exact h
  rw [newDate_bind]
  refine .stmt (fun s => Does.told does_newDate trivial s) fun s => ?_
  rw [updateAllocationRow_bind]
  refine .stmt (fun s => Does.told (.revokes ..) trivial s) fun s => ?_
  split
  · exact done_later (done_later h)
  · exact done_later (done_later h)

/-- **A revocation.** -/
theorem traces_revokeAccess : (revokeAccess user spaceId memberId context : Service P Unit).Traces (Told D) k
    (.revokeAccess user spaceId memberId context) (fun r own => Told.Answer D
      (.revokeAccess user spaceId memberId context) ((fun _ => .revoked) <$> r) own) [] := by
  unfold revokeAccess
  refine (traces_bland (bland_requirePermission ..)).bind (fun _ own _ => ?_) fun _ _ _ => trivial
  rw [select_bind]
  refine .stmt (fun s => Does.told (.reads ..) trivial s) fun s => ?_
  split
  · trivial
  rename_i m allocation hfound
  obtain ⟨m', hm', heq⟩ := Option.map_eq_some_iff.mp hfound
  obtain ⟨rfl, rfl⟩ := Prod.mk.inj heq
  split
  · trivial
  rename_i hspace
  split
  · trivial
  rename_i hrole
  have hid := List.find?_some hm'
  have hread : FoundMember spaceId memberId m' ⟨k, .revokeAccess user spaceId memberId context,
      .select .members, s⟩ :=
    ⟨List.mem_of_find?_eq_some hm', of_decide_eq_true hid, not_not.mp hspace, hrole⟩
  unfold bar
  refine (traces_revokeAllocation (m := m') _ ⟨_, List.mem_cons_self, hread⟩).bind
    (fun _ own hown => ?_) fun _ _ _ => trivial
  unfold updateMember
  rw [Prog.stmt_bind]
  refine .stmt (fun s => ⟨.bars .., m', hown⟩) fun s' => ?_
  split
  · rw [Prog.done_bind, Prog.perform_bind]
    refine .stmt (fun s => ⟨.drops .., m', rfl, rfl, done_later hown⟩) fun s'' => ?_
    refine .stmt (fun s => Does.told (does_audit (by simp)) trivial s) fun s => ?_
    exact ⟨m', done_later (done_later (done_later hown)),
      done_later (done_later ⟨_, List.mem_cons_self, rfl⟩), done_later ⟨_, List.mem_cons_self, rfl⟩⟩
  · trivial

end Revocation

/-! ## Every request -/

/-- The requests whose statements nothing more is known of. -/
def Request.Other : Request → Prop
  | .claimPass .. => False
  | .revokePass .. => False
  | .revokeAccess .. => False
  | _ => True

theorem Request.Other.told (hq : q.Other) {w : Write} (h : Does q w) (s : World P) :
    Told D ⟨k, q, w, s⟩ own := by
  refine ⟨h, ?_⟩
  cases q with
  | claimPass user token context => cases hq
  | revokeAccess user spaceId memberId context => cases hq
  | _ => trivial

theorem Request.Other.answer (hq : q.Other) (r : Except HttpException Response) :
    Told.Answer D q r own := by
  cases q with
  | claimPass user token context => cases hq
  | revokePass user spaceId passId context => cases hq
  | revokeAccess user spaceId memberId context => cases hq
  | _ => trivial

theorem traces_handler (D : Deployment P) (F : Account.Platform) (k : Nat) (q : Request) :
    (handler D F q).Traces (Told D) k q (Told.Answer D q) [] := by
  have hother : q.Other → (handler D F q).Traces (Told D) k q (Told.Answer D q) [] := by
    intro hq
    have hkeep : (handler D F q).Traces (Told D) k q (fun _ _ => True) [] :=
      .of_only (only_handler D F q) (fun _ s _ hw _ => ⟨hq.told hw s, trivial⟩) trivial
    exact hkeep.mono fun r _ _ => hq.answer r
  cases q with
  | claimPass user token context =>
    exact Prog.Traces.map _ traces_claimPass (fun _ _ h => h) fun _ _ _ => trivial
  | revokePass user spaceId passId context =>
    exact Prog.Traces.map _ (traces_revokePass user spaceId passId context) (fun _ _ h => h) fun _ _ h => h
  | revokeAccess user spaceId memberId context =>
    exact Prog.Traces.map _ traces_revokeAccess (fun _ _ h => h) fun _ _ h => h
  | _ => exact hother trivial

/-- **What is known along every run.** -/
theorem told_run (D : Deployment P) (F : Account.Platform) (w : World P)
    (moves : List (Move Request (Outside P))) :
    (run D F w moves).log.Traced (Told D) ∧ ∀ k q r, (run D F w moves).Answered k q r →
      Told.Answer D q (.ok r) ((run D F w moves).log.own k) :=
  Concurrent.traced_run (traces_handler D F) w moves

end Sharing
