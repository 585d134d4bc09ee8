import NetlinkHub.Sharing.Passes

/-! # What a claim promises

A claim that fails should change nothing, and one that succeeds should deliver what the pass says. The
pass is used up before the membership and the allocation are written, so what can still fail there must
not fail: `claim_honest` says exactly when a claim keeps its promise. -/

namespace Sharing

open Api (Date HttpException RequestContext Token)
open Concurrent (Prog)
open Table (Op)

variable {P : Type}

/-! ## The promise -/

/-- The tables that a claim writes, and the provider, are as they were. -/
structure Untouched (w w' : World P) : Prop where
  invitations : w'.invitations = w.invitations
  members : w'.members = w.members
  allocations : w'.allocations = w.allocations
  provider : w'.provider = w.provider

/-- An allocation is what a pass says. -/
structure AllocationRow.Delivers (i : InvitationRow) (totalBytes : Nat) (a : AllocationRow) : Prop where
  status : a.status = .active
  total : a.totalBytes = totalBytes
  daily : a.dailyBytes = i.dailyDataBytes
  expiry : a.expiresAt = i.expiresAt
  resharing : a.allowResharing = i.allowResharing

/-- The user is a member of the Space, with the allocation that the pass says. -/
def Delivered (user : Token) (i : InvitationRow) (totalBytes : Nat) (w : World P) : Prop :=
  ∃ m a, findMember user i.spaceId w = some m ∧ allocationFor m.id w = some a ∧ a.Delivers i totalBytes

/-- A claim that fails leaves everything as it was; one that succeeds delivers the data of its pass. -/
def Honest (D : Deployment P) (user : Token) (token : String) (w : World P)
    (r : Except HttpException ClaimedPass) (w' : World P) : Prop :=
  match r with
  | .error _ => Untouched w w'
  | .ok _ => ∀ i space, findPass (D.hashSecret token) w = some (i, space) →
    ∀ totalBytes, i.totalDataBytes = some totalBytes → Delivered user i totalBytes w'

/-! ## The condition -/

/-- The pass is there, and it is this user's to claim. -/
structure Admits (D : Deployment P) (user : Token) (token : String) (i : InvitationRow) (space : SpaceRow)
    (w : World P) : Prop where
  found : findPass (D.hashSecret token) w = some (i, space)
  pending : i.status = .pending
  ahead : w.clock < i.expiresAt
  account : ∃ u, w.account.users.find? (·.id = user.text) = some u ∧ ¬ i.Elsewhere u.email
  guest : space.ownerId ≠ user.text

/-- The identifier that a new row gets. -/
def World.newId (w : World P) : String := w.account.api.uuid.text

/-- The membership that a claim writes. -/
def memberIdFor (user : Token) (spaceId : String) (w : World P) : String :=
  ((findMember user spaceId w).map (·.id)).getD w.newId

/-- Without a pool the member has what the pass says already; with one the provider takes the order, and
the member has an allocation with the resharing flag of the pass, or none and the new identifier is
free. -/
def CanOpen (D : Deployment P) (user : Token) (i : InvitationRow) (totalBytes : Nat) (memberId : String)
    (w : World P) : Prop :=
  match findPool i.spaceId w with
  | none => ∃ a, allocationFor memberId w = some a ∧ a.Delivers i totalBytes
  | some pool =>
    (∃ b, D.provider.createAllocation ((i.allocation user memberId totalBytes).forProvider pool.accountRef)
      w.provider = .ok b) ∧
    match allocationFor memberId w with
    | some a => a.allowResharing = i.allowResharing
    | none => ¬ w.allocations.any (·.id = w.newId)

/-- The membership can be written, and the allocation opened. -/
def CanDeliver (D : Deployment P) (user : Token) (i : InvitationRow) (w : World P) : Prop :=
  (findMember user i.spaceId w = none → ¬ w.members.any (·.id = w.newId)) ∧
    ∀ totalBytes, i.totalDataBytes = some totalBytes →
      CanOpen D user i totalBytes (memberIdFor user i.spaceId w) w

/-! ## The rest of a claim -/

variable {D : Deployment P} {user : Token} {token : String} {context : RequestContext} {i : InvitationRow}
  {space : SpaceRow} {m : MemberRow} {w t : World P} {α : Type}

/-- The pass is used up and the membership written; everything else is as it was. -/
structure Midway (user : Token) (i : InvitationRow) (m : MemberRow) (w t : World P) : Prop where
  invitations : t.invitations ≠ w.invitations
  member : findMember user i.spaceId t = some m
  allocations : t.allocations = w.allocations
  pools : t.pools = w.pools
  provider : t.provider = w.provider
  newId : t.newId = w.newId

/-- What is left once the allocation is open. -/
theorem ends_claimed (hfound : findPass (D.hashSecret token) w = some (i, space)) (spaceName : String) :
    ((do
      record ⟨"invitation.claimed", "success", some user.text, none, none, some i.spaceId, some context,
        [("permissions", .text (joined i.permissions))]⟩
      Prog.perform (.grantSpaceAccess user.text i.spaceId) fun _ => ()
      .done ⟨i.spaceId, spaceName, i.permissions⟩) : Service P ClaimedPass).Ends (exec D.provider)
        (Honest D user token w) t ↔
      ∀ totalBytes, i.totalDataBytes = some totalBytes → Delivered user i totalBytes t := by
  rw [record_bind, Prog.ends_stmt, Prog.perform_bind, Prog.ends_stmt, Prog.ends_done]
  constructor
  · exact fun h => h i space hfound
  · intro h i' space' hfound'
    obtain ⟨rfl, rfl⟩ := Prod.mk.inj (Option.some.inj (hfound.symm.trans hfound'))
    exact h

theorem not_honest_error {e : HttpException} (h : t.invitations ≠ w.invitations) :
    ¬ Honest D user token w (.error e) t := fun hfailed => h hfailed.invitations

theorem upsertAllocation_bind (row : AllocationRow) (data : AllocationRow → AllocationRow)
    (f : Unit → Service P α) : (upsertAllocation row data >>= f) = .stmt (.upsertAllocation row data) fun w =>
      if ¬ w.allocations.any (·.memberId = row.memberId) ∧ w.allocations.any (·.id = row.id) then
        .raise Api.databaseFault
      else f () := by
  unfold upsertAllocation
  rw [Prog.stmt_bind]
  congr 1
  funext w
  split <;> rfl

/-- What is found after an upsert of the rows that are looked for. -/
theorem find?_upsert {R : Type} {p clash : R → Bool} {row : R} {data : R → R} {rows : List R}
    (hdata : ∀ r, p (data r) = p r) (hrow : p row) (hfree : rows.find? p = none → ¬ rows.any clash) :
    (upsert p clash row data rows).find? p = some (((rows.find? p).map data).getD row) := by
  unfold upsert
  by_cases hany : rows.any p
  · rw [if_pos hany]
    have hsame : (p ∘ fun r => if p r then data r else r) = p := by
      funext r
      simp only [Function.comp_apply]
      split
      · exact hdata r
      · rfl
    obtain ⟨r, hr⟩ : ∃ r, rows.find? p = some r := Option.isSome_iff_exists.mp (by simpa using hany)
    show (rows.map fun r => if p r then data r else r).find? p = _
    rw [List.find?_map, hsame, hr, Option.map_some, if_pos (List.find?_some hr)]
    rfl
  · have hnone : rows.find? p = none := by simpa using hany
    rw [if_neg hany, Table.apply_insert, if_neg (hfree hnone), List.find?_append, hnone, Option.none_or]
    simp [hrow]

/-- A member has an allocation if there is a row of it. -/
theorem allocationFor_eq_none {memberId : String} :
    allocationFor memberId w = none ↔ ¬ w.allocations.any (·.memberId = memberId) := by
  unfold allocationFor
  simp

/-- Once the allocation is written, the member has what the pass says if the resharing flag is that of the
pass, which only a new row gets. -/
theorem delivered_opened {totalBytes : Nat} {poolId id : String} {now : Date}
    (hmember : findMember user i.spaceId t = some m)
    (hrows : t.allocations = upsert (·.memberId = m.id) (·.id = id)
      (touch now (fun a => a) (newAllocation (i.allocation user m.id totalBytes) poolId id))
      (touch now (reopened (i.allocation user m.id totalBytes))) w.allocations)
    (hfree : allocationFor m.id w = none → ¬ w.allocations.any (·.id = id)) :
    Delivered user i totalBytes t ↔ ∀ a, allocationFor m.id w = some a → a.allowResharing = i.allowResharing := by
  have hrow : allocationFor m.id t = some (((allocationFor m.id w).map
      (touch now (reopened (i.allocation user m.id totalBytes)))).getD
      (touch now (fun a => a) (newAllocation (i.allocation user m.id totalBytes) poolId id))) := by
    unfold allocationFor at hfree ⊢
    rw [hrows]
    exact find?_upsert (fun _ => rfl) (decide_eq_true rfl) hfree
  constructor
  · rintro ⟨m', b, hm', hb, hdelivers⟩ a ha
    obtain rfl := Option.some.inj (hm'.symm.trans hmember)
    rw [hb, ha] at hrow
    obtain rfl := Option.some.inj hrow
    exact hdelivers.resharing
  · intro hresharing
    refine ⟨m, _, hmember, hrow, ?_⟩
    cases ha : allocationFor m.id w with
    | none => exact ⟨rfl, rfl, rfl, rfl, rfl⟩
    | some a => exact ⟨rfl, rfl, rfl, rfl, hresharing a ha⟩

/-- The upsert of the allocation, and what follows. -/
theorem ends_upsertAllocation (hfound : findPass (D.hashSecret token) w = some (i, space)) {totalBytes : Nat}
    (htotal : i.totalDataBytes = some totalBytes) (hinvitations : t.invitations ≠ w.invitations)
    (hmember : findMember user i.spaceId t = some m) (hrows : t.allocations = w.allocations)
    (spaceName poolId id : String) :
    (upsertAllocation (newAllocation (i.allocation user m.id totalBytes) poolId id)
        (reopened (i.allocation user m.id totalBytes)) >>= fun _ => do
      record ⟨"data.allocation.created", "success", none, none, none, some i.spaceId, none,
        [("totalBytes", .text (toString totalBytes)), ("dailyBytes", .text (bytesOr "none" i.dailyDataBytes))]⟩
      record ⟨"invitation.claimed", "success", some user.text, none, none, some i.spaceId, some context,
        [("permissions", .text (joined i.permissions))]⟩
      Prog.perform (.grantSpaceAccess user.text i.spaceId) fun _ => ()
      .done ⟨i.spaceId, spaceName, i.permissions⟩ : Service P ClaimedPass).Ends (exec D.provider)
        (Honest D user token w) t ↔
      match allocationFor m.id w with
      | some a => a.allowResharing = i.allowResharing
      | none => ¬ w.allocations.any (·.id = id) := by
  have hrow : allocationFor m.id t = allocationFor m.id w := congrArg (List.find? _) hrows
  have hone : ∀ q : Nat → Prop, (∀ n, some totalBytes = some n → q n) ↔ q totalBytes :=
    fun q => ⟨fun h => h _ rfl, fun h n hn => Option.some.inj hn ▸ h⟩
  rw [upsertAllocation_bind, Prog.ends_stmt]
  have hnone : allocationFor m.id t = none ↔ ¬ t.allocations.any (·.memberId = m.id) := allocationFor_eq_none
  split
  · rename_i hclash
    refine iff_of_false (not_honest_error hinvitations) ?_
    rw [← hrow, hnone.mpr hclash.1, ← hrows]
    exact not_not.mpr hclash.2
  · rename_i hfree
    rw [record_bind, Prog.ends_stmt, ends_claimed hfound, htotal, hone]
    have hfree' : allocationFor m.id t = none → ¬ t.allocations.any (·.id = id) :=
      fun h h' => hfree ⟨hnone.mp h, h'⟩
    generalize hafter : exec D.provider (.account _) _ = u
    have hmember' : findMember user i.spaceId u = some m := by
      rw [← hafter]
      exact hmember
    have hrows' : u.allocations = upsert (·.memberId = m.id) (·.id = id)
        (touch t.clock (fun a => a) (newAllocation (i.allocation user m.id totalBytes) poolId id))
        (touch t.clock (reopened (i.allocation user m.id totalBytes))) t.allocations := by
      rw [← hafter]
      rfl
    refine (delivered_opened hmember' hrows' hfree').trans ?_
    rw [← hrow, ← hrows]
    cases ha : allocationFor m.id t with
    | none => exact iff_of_true (fun _ h => nomatch h) (hfree' ha)
    | some a => exact ⟨fun h => h a rfl, fun h a' ha' => Option.some.inj ha' ▸ h⟩

/-- **The allocation.** -/
theorem ends_openFor (hfound : findPass (D.hashSecret token) w = some (i, space)) (h : Midway user i m w t)
    (spaceName : String) :
    (openFor D.provider user i m.id >>= fun _ => do
      record ⟨"invitation.claimed", "success", some user.text, none, none, some i.spaceId, some context,
        [("permissions", .text (joined i.permissions))]⟩
      Prog.perform (.grantSpaceAccess user.text i.spaceId) fun _ => ()
      .done ⟨i.spaceId, spaceName, i.permissions⟩ : Service P ClaimedPass).Ends (exec D.provider)
        (Honest D user token w) t ↔
      ∀ totalBytes, i.totalDataBytes = some totalBytes → CanOpen D user i totalBytes m.id w := by
  unfold openFor
  cases htotal : i.totalDataBytes with
  | none =>
    simp only [Prog.done_bind, ends_claimed hfound, htotal]
    exact iff_of_true (fun _ h => nomatch h) fun _ h => nomatch h
  | some totalBytes =>
    have hpool : findPool i.spaceId t = findPool i.spaceId w := congrArg (List.find? _) h.pools
    have hone : ∀ q : Nat → Prop, (∀ n, some totalBytes = some n → q n) ↔ q totalBytes :=
      fun q => ⟨fun h => h _ rfl, fun h n hn => Option.some.inj hn ▸ h⟩
    rw [hone]
    unfold openAllocation CanOpen
    simp only [select_bind]
    rw [Prog.stmt_bind, Prog.ends_stmt]
    have hpool' : findPool (i.allocation user m.id totalBytes).spaceId t = findPool i.spaceId w := hpool
    rw [hpool']
    cases findPool i.spaceId w with
    | none =>
      simp only [Prog.done_bind]
      rw [ends_claimed hfound, htotal, hone]
      have hrow : allocationFor m.id t = allocationFor m.id w := congrArg (List.find? _) h.allocations
      constructor
      · rintro ⟨m', a, hm', ha, hdelivers⟩
        obtain rfl := Option.some.inj (hm'.symm.trans h.member)
        exact ⟨a, hrow.symm.trans ha, hdelivers⟩
      · rintro ⟨a, ha, hdelivers⟩
        exact ⟨m, a, h.member, hrow.trans ha, hdelivers⟩
    | some pool =>
      simp only [Prog.bind_assoc]
      rw [ask_bind, Prog.ends_stmt]
      have hanswer : D.provider.createAllocation ((i.allocation user m.id totalBytes).forProvider pool.accountRef)
          (exec D.provider (.select .pools) t).provider = D.provider.createAllocation
            ((i.allocation user m.id totalBytes).forProvider pool.accountRef) w.provider :=
        congrArg _ h.provider
      rw [hanswer]
      cases D.provider.createAllocation ((i.allocation user m.id totalBytes).forProvider pool.accountRef)
        w.provider with
      | error e =>
        refine iff_of_false (not_honest_error h.invitations) ?_
        rintro ⟨⟨b, hb⟩, -⟩
        cases hb
      | ok b =>
        simp only [randomUUID_bind]
        rw [Prog.ends_stmt]
        have hid : t.account.api.uuid.text = w.newId := h.newId
        generalize hbefore : exec D.provider (.account (.api .random)) _ = u
        have hinvitations : u.invitations ≠ w.invitations := by
          rw [← hbefore]
          exact h.invitations
        have hmember : findMember user i.spaceId u = some m := by
          rw [← hbefore]
          exact h.member
        have hrows : u.allocations = w.allocations := by
          rw [← hbefore]
          exact h.allocations
        refine (ends_upsertAllocation hfound htotal hinvitations hmember hrows spaceName pool.id _).trans ?_
        change (match allocationFor m.id w with
          | some a => a.allowResharing = i.allowResharing
          | none => ¬ w.allocations.any (·.id = t.account.api.uuid.text)) ↔ _
        rw [hid]
        exact (and_iff_right ⟨b, rfl⟩).symm

/-! ## The whole claim -/

/-- The pass is used up; everything else is as it was. -/
structure UsedUp (w t : World P) : Prop where
  invitations : t.invitations ≠ w.invitations
  members : t.members = w.members
  allocations : t.allocations = w.allocations
  pools : t.pools = w.pools
  provider : t.provider = w.provider
  newId : t.newId = w.newId

/-- The membership after its upsert. -/
theorem UsedUp.midway (h : UsedUp w t) (D : Deployment P) (user : Token) (i : InvitationRow) (id : String)
    (now : Date) (hfree : findMember user i.spaceId w = none → ¬ w.members.any (·.id = id)) :
    Midway user i (((findMember user i.spaceId w).map (rejoined i)).getD (newMember user i id now)) w
      (exec D.provider (.upsertMember (newMember user i id now) (rejoined i)) t) where
  invitations := h.invitations
  member := by
    rw [← h.members] at hfree
    have hfind : findMember user i.spaceId t = findMember user i.spaceId w := congrArg (List.find? _) h.members
    rw [← hfind]
    exact find?_upsert (fun _ => rfl) (decide_eq_true ⟨rfl, rfl⟩) fun hnone => hfree (hfind.symm.trans hnone)
  allocations := h.allocations
  pools := h.pools
  provider := h.provider
  newId := h.newId

theorem ends_join (hfound : findPass (D.hashSecret token) w = some (i, space)) (h : UsedUp w t)
    (spaceName : String) : (join D.provider user i spaceName context).Ends (exec D.provider)
      (Honest D user token w) t ↔ CanDeliver D user i w := by
  unfold join
  simp only [randomUUID_bind, newDate_bind]
  rw [Prog.ends_stmt, Prog.ends_stmt, upsertMember_bind, Prog.ends_stmt]
  generalize hbefore : exec D.provider (.account (.api .clock)) _ = u
  have hid : t.account.api.uuid.text = w.newId := h.newId
  have hused : UsedUp w u := by
    rw [← hbefore]
    exact ⟨h.invitations, h.members, h.allocations, h.pools, h.provider, h.newId⟩
  let row := newMember user i w.newId t.clock
  have hfind : u.members.find? (·.Of row.user row.spaceId) = findMember user i.spaceId w :=
    congrArg (List.find? _) hused.members
  have hany : u.members.any (·.id = row.id) = w.members.any (·.id = w.newId) :=
    congrArg (List.any · _) hused.members
  -- The identifier that was drawn.
  have hdrawn : (exec D.provider (.account (.api .random)) t).clock = t.clock := rfl
  rw [hdrawn, hid]
  rw [hfind, hany]
  unfold CanDeliver memberIdFor
  cases hm : findMember user i.spaceId w with
  | some m =>
    have hmidway := hused.midway D user i w.newId t.clock fun hnone => absurd (hm.symm.trans hnone) (by simp)
    rw [hm] at hmidway
    refine (ends_openFor hfound hmidway spaceName).trans ?_
    exact (and_iff_right fun h => nomatch h).symm
  | none =>
    by_cases htaken : w.members.any (·.id = w.newId)
    · simp only [if_pos htaken]
      exact iff_of_false (not_honest_error hused.invitations) fun hcan => hcan.1 trivial htaken
    · simp only [if_neg htaken]
      have hmidway := hused.midway D user i w.newId t.clock fun _ => htaken
      rw [hm] at hmidway
      refine (ends_openFor hfound hmidway spaceName).trans ?_
      exact (and_iff_right fun _ => htaken).symm

/-- Nothing that a claim reads or writes has changed. -/
structure Alike (w t : World P) : Prop where
  invitations : t.invitations = w.invitations
  members : t.members = w.members
  allocations : t.allocations = w.allocations
  pools : t.pools = w.pools
  provider : t.provider = w.provider
  newId : t.newId = w.newId

/-- What a token finds was there. -/
theorem mem_of_findPass {tokenHash : String} (h : findPass tokenHash w = some (i, space)) :
    i ∈ w.invitations := by
  obtain ⟨i', hi', heq⟩ := Option.bind_eq_some_iff.mp h
  obtain ⟨space', -, heq⟩ := Option.map_eq_some_iff.mp heq
  obtain ⟨rfl, rfl⟩ := Prod.mk.inj heq
  exact List.mem_of_find?_eq_some hi'

/-- The conditional update of a claim changes the pass. -/
theorem Alike.usedUp (h : Alike w t) (hi : i ∈ w.invitations) (hpending : i.status = .pending) (now : Date) :
    UsedUp w (exec D.provider
      (.invitations (.update (InvitationRow.Open i.id) (InvitationRow.claimed user now))) t) where
  invitations := by
    intro heq
    have hmap : (w.invitations.map fun r => if InvitationRow.Open i.id r then r.claimed user now else r) =
        w.invitations.map fun r => r := by
      rw [List.map_id', ← h.invitations]
      exact heq.trans h.invitations.symm
    have hsame := List.map_inj_left.mp hmap i hi
    rw [if_pos (InvitationRow.open_iff.mpr ⟨rfl, hpending⟩)] at hsame
    have hstatus := congrArg InvitationRow.status hsame
    rw [hpending] at hstatus
    cases hstatus
  members := h.members
  allocations := h.allocations
  pools := h.pools
  provider := h.provider
  newId := h.newId

/-- The conditional update finds the pass open. -/
theorem ends_redeem (hfound : findPass (D.hashSecret token) w = some (i, space)) (hpending : i.status = .pending)
    (h : Alike w t) (spaceName : String) : (redeem D.provider user i spaceName context).Ends
      (exec D.provider) (Honest D user token w) t ↔ CanDeliver D user i w := by
  have hi := mem_of_findPass hfound
  unfold redeem
  rw [newDate_bind, Prog.ends_stmt, Prog.perform_bind, Prog.ends_stmt]
  generalize hbefore : exec D.provider (.account (.api .clock)) t = u
  have halike : Alike w u := by
    rw [← hbefore]
    exact ⟨h.invitations, h.members, h.allocations, h.pools, h.provider, h.newId⟩
  have hopen : (u.invitations.filter (InvitationRow.Open i.id)).length ≠ 0 := by
    rw [halike.invitations]
    have hmem := List.mem_filter.mpr ⟨hi, InvitationRow.open_iff.mpr ⟨rfl, hpending⟩⟩
    exact (List.length_pos_of_mem hmem).ne'
  rw [if_neg hopen]
  exact ends_join hfound (halike.usedUp hi hpending _) spaceName

/-- A claim that is refused before the pass is used up has changed nothing. -/
theorem ends_refused {e : HttpException} (huntouched : Untouched w t)
    (hnot : ∀ i space, ¬ Admits D user token i space w) :
    (Prog.raise e : Service P ClaimedPass).Ends (exec D.provider) (Honest D user token w) t ↔
      ∀ i space, Admits D user token i space w → CanDeliver D user i w :=
  iff_of_true huntouched fun i space h => absurd h (hnot i space)

/-- A token is for one pass. -/
theorem Admits.eq {i' : InvitationRow} {space' : SpaceRow} (h : Admits D user token i' space' w)
    (hfound : findPass (D.hashSecret token) w = some (i, space)) : i' = i ∧ space' = space :=
  Prod.mk.inj (Option.some.inj (h.found.symm.trans hfound))

theorem ends_claimOpen (hfound : findPass (D.hashSecret token) w = some (i, space))
    (hpending : i.status = .pending) (hahead : w.clock < i.expiresAt) (h : Alike w t)
    (husers : t.account.users = w.account.users) :
    (claimOpen D.provider user i space context).Ends (exec D.provider) (Honest D user token w) t ↔
      ∀ i space, Admits D user token i space w → CanDeliver D user i w := by
  have huntouched : Untouched w t := ⟨h.invitations, h.members, h.allocations, h.provider⟩
  have huser : t.account.users.find? (·.id = user.text) = w.account.users.find? (·.id = user.text) :=
    congrArg (List.find? _) husers
  unfold claimOpen
  rw [select_bind, Prog.ends_stmt, huser]
  cases haccount : w.account.users.find? (·.id = user.text) with
  | none =>
    refine ends_refused huntouched fun i' space' h' => ?_
    obtain ⟨u, hu, -⟩ := h'.account
    exact absurd (haccount.symm.trans hu) (by simp)
  | some u =>
    by_cases helsewhere : i.Elsewhere u.email
    · simp only [helsewhere, if_true]
      rw [record_bind, Prog.ends_stmt]
      refine ends_refused ⟨h.invitations, h.members, h.allocations, h.provider⟩ fun i' space' h' => ?_
      obtain ⟨u', hu', hhere⟩ := h'.account
      obtain ⟨rfl, -⟩ := h'.eq hfound
      obtain rfl := Option.some.inj (haccount.symm.trans hu')
      exact hhere helsewhere
    · simp only [helsewhere, Bool.false_eq_true, if_false]
      by_cases howner : space.ownerId = user.text
      · rw [if_pos howner]
        refine ends_refused huntouched fun i' space' h' => ?_
        obtain ⟨-, rfl⟩ := h'.eq hfound
        exact h'.guest howner
      · rw [if_neg howner]
        refine (ends_redeem hfound hpending ⟨h.invitations, h.members, h.allocations, h.pools, h.provider,
          h.newId⟩ _).trans ?_
        constructor
        · intro hcan i' space' h'
          obtain ⟨rfl, -⟩ := h'.eq hfound
          exact hcan
        · exact fun hall => hall i space ⟨hfound, hpending, hahead, ⟨u, haccount, helsewhere⟩, howner⟩

/-- **A claim**, undisturbed, keeps its promise exactly if what is written after the pass is used up can be
written. -/
theorem claim_honest (D : Deployment P) (user : Token) (token : String) (context : RequestContext)
    (w : World P) : (claimPass D user token context).Ends (exec D.provider) (Honest D user token w) w ↔
      ∀ i space, Admits D user token i space w → CanDeliver D user i w := by
  unfold claimPass
  rw [select_bind, Prog.ends_stmt]
  cases hfound : findPass (D.hashSecret token) w with
  | none => exact ends_refused ⟨rfl, rfl, rfl, rfl⟩ fun i space h => nomatch hfound.symm.trans h.found
  | some found =>
    obtain ⟨i, space⟩ := found
    by_cases hpending : i.status = .pending
    · simp only [hpending, ne_eq, not_true_eq_false, if_false]
      rw [dateNow_bind, Prog.ends_stmt]
      have hclock : (exec D.provider (.select .invitations) w).clock = w.clock := rfl
      rw [hclock]
      by_cases hpast : i.expiresAt ≤ w.clock
      · rw [if_pos hpast]
        refine ends_refused ⟨rfl, rfl, rfl, rfl⟩ fun i' space' h => ?_
        obtain ⟨rfl, -⟩ := h.eq hfound
        exact not_le_of_gt h.ahead hpast
      · rw [if_neg hpast]
        exact ends_claimOpen hfound hpending (not_le.mp hpast) ⟨rfl, rfl, rfl, rfl, rfl, rfl⟩ rfl
    · simp only [ne_eq, hpending, not_false_eq_true, if_true]
      refine ends_refused ⟨rfl, rfl, rfl, rfl⟩ fun i' space' h => ?_
      obtain ⟨rfl, -⟩ := h.eq hfound
      exact hpending h.pending

/-- The services with a provider that takes no orders. -/
def closed : Deployment Unit := { home with
  provider := { quietProvider with createAllocation := fun _ _ => .error ⟨503, "Try again later."⟩ } }

/-- A Space with a pass for 40 bytes. -/
def withDataPass : World Unit := { quietSpace with invitations := [passOf "p1" "token-1" (some 40)] }

/-- The provider refuses: the claim fails, but the pass is used up and the user a member. Without a pool the
claim succeeds and there is no allocation. -/
theorem claim_dishonest :
    ¬ (claimPass closed ben "token-1" noContext).Ends (exec closed.provider)
        (Honest closed ben "token-1" withDataPass) withDataPass ∧
      ((claimPass closed ben "token-1" noContext).runAlone (exec closed.provider) withDataPass).1 =
        .error ⟨503, "Try again later."⟩ ∧
      ((claimPass closed ben "token-1" noContext).runAlone (exec closed.provider)
        withDataPass).2.invitations.map (·.status) = [.claimed] ∧
      ((claimPass home ben "token-1" noContext).runAlone (exec home.provider)
        { withDataPass with pools := [] }).1 = .ok ⟨"space", "My Home", ["data.use"]⟩ ∧
      ((claimPass home ben "token-1" noContext).runAlone (exec home.provider)
        { withDataPass with pools := [] }).2.allocations = [] := by
  refine ⟨fun h => ?_, rfl, rfl, rfl, rfl⟩
  have hfailed : Untouched withDataPass _ := h
  have hstatus := congrArg (List.map (·.status)) hfailed.invitations
  cases hstatus

end Sharing
