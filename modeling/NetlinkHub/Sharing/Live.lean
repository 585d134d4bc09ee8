import NetlinkHub.Sharing.Lifecycle

/-! # Who hears live events

The gateway keeps the Spaces of each open socket in its memory. They are read when the socket is opened,
and changed when a pass is claimed or access is revoked; expiry does not touch them. In a run in which the
copy does not miss a revocation, and no membership that has expired is listened with, events reach only
members (`live_reaches_members`). -/

namespace Sharing

open Api (Date HttpException RequestContext Token)
open Concurrent (Config Kept Log Machine Move Prog Step Upholds)
open Table (Evolves Op)

variable {P : Type}

/-! ## Sockets and memberships -/

/-- The sockets that an event for a Space is sent to. -/
def receivers (spaceId : String) (w : World P) : List Account.Subscriber :=
  w.account.subscribers.filter (spaceId ∈ ·.spaceIds)

/-- The user is a member of the Space who is not suspended. -/
def Stands (userId spaceId : String) (w : World P) : Prop :=
  ∃ m ∈ w.members, m.user.text = userId ∧ m.spaceId = spaceId ∧ m.suspended = false

/-- The user is a member of the Space who is neither suspended nor past the expiry. -/
def Entitled (userId spaceId : String) (w : World P) : Prop :=
  ∃ m ∈ w.members, m.user.text = userId ∧ m.spaceId = spaceId ∧ m.suspended = false ∧
    m.expiresAt.all (w.clock < ·)

/-- The statement sends an event for a Space. -/
def Write.Publishes (spaceId : String) : Write → Prop
  | .publish notice => notice.spaceId = spaceId
  | .account (.publishStatus spaceId' _) => spaceId' = spaceId
  | .account (.api (.publish spaceId' _)) => spaceId' = spaceId
  | _ => False

/-- The statement lets the sockets of a user listen to a Space. -/
def Write.Enters (userId spaceId : String) : Write → Prop
  | .account (.subscribe s) => s.userId = userId ∧ spaceId ∈ s.spaceIds
  | .grantSpaceAccess userId' spaceId' => userId' = userId ∧ spaceId' = spaceId
  | _ => False

/-- The statement suspends the membership of a user in a Space. -/
structure Bars (userId spaceId : String) (step : SharingStep P) : Prop where
  request : ∃ user spaceId' memberId context, step.request = .revokeAccess user spaceId' memberId context ∧
    ∃ m ∈ step.before.members, m.id = memberId ∧ m.user.text = userId ∧ m.spaceId = spaceId
  write : ∃ op, step.write = .members op

/-- A revocation has suspended the membership, and has still to drop the sockets. -/
def Pending (userId spaceId : String) (history : List (SharingStep P)) : Prop :=
  ∃ later bar earlier, history = later ++ bar :: earlier ∧ Bars userId spaceId bar ∧
    ∀ s ∈ later, s.thread = bar.thread → ∀ u spaceId', s.write ≠ .revokeSpaceAccess u spaceId'

/-- Whoever listens is a member, or will be dropped. -/
def Covered (userId spaceId : String) (w : World P) (history : List (SharingStep P)) : Prop :=
  Stands userId spaceId w ∨ Pending userId spaceId history

/-- The memory of the gateway keeps track: a membership that a connection has read, or a claim written, is
not suspended meanwhile without the sockets being dropped later; and no event is sent between a suspension
and the drop, or while a socket is open of a user whose membership of the Space has expired. -/
structure Tracks (step : SharingStep P) (earlier : List (SharingStep P)) : Prop where
  enters : ∀ userId spaceId, step.write.Enters userId spaceId → Covered userId spaceId step.before earlier
  settled : ∀ userId spaceId, step.write.Publishes spaceId → ¬ Pending userId spaceId earlier
  ahead : ∀ spaceId, step.write.Publishes spaceId → ∀ s ∈ step.before.account.subscribers,
    ∀ m ∈ step.before.members, m.user.text = s.userId → m.spaceId = spaceId →
      m.expiresAt.all (step.before.clock < ·)

/-! ## Members -/

variable {D : Deployment P} {F : Account.Platform} {A : DataProviderAdapter P} {q : Request} {w : Write}
  {s t : World P} {k : Nat} {userId spaceId : String}

/-- Identifiers of members are unique. -/
def MembersKeyed (w : World P) : Prop := (w.members.map (·.id)).Nodup

theorem membersKeyed_step (h : Does q w) (hkeyed : MembersKeyed s) : MembersKeyed (exec A w s) := by
  unfold MembersKeyed
  by_cases hw : w.OnMembers
  · cases h with
    | opensSpace hq id memberId name now =>
      simp only [exec]
      split
      · exact hkeyed
      · rename_i hfree
        rw [List.map_append, List.map_singleton]
        refine List.Nodup.append hkeyed (by simp) fun i hi hnew => hfree (.inr ?_)
        obtain ⟨m, hm, rfl⟩ := List.mem_map.mp hi
        exact List.any_eq_true.mpr ⟨m, hm, decide_eq_true (.inl (by simpa using hnew))⟩
    | joins user token context i id now =>
      exact nodup_upsert (fun _ => rfl) (fun m hm => decide_eq_true (show m.id = id from hm)) hkeyed
    | bars user spaceId memberId context =>
      simp only [exec]
      rw [Table.map_update fun m => show (MemberRow.barred m).id = m.id from rfl]
      exact hkeyed
    | _ => exact absurd hw (by simp [Write.OnMembers])
  · rw [members_exec hw]
    exact hkeyed

/-- What every statement keeps. -/
theorem kept_members (D : Deployment P) (F : Account.Platform) :
    Kept (machine D F) (fun step => Does step.request step.write) MembersKeyed MembersStay where
  refl _ := Evolves.refl MemberStays.refl _
  trans h h' := Evolves.trans MemberStays.trans h h'
  step _ hC hkeyed := ⟨members_step hC, membersKeyed_step hC hkeyed⟩
  env e s hkeyed := by
    have heq : (outside e s).members = s.members := by cases e <;> rfl
    refine ⟨.of_eq heq, ?_⟩
    unfold MembersKeyed
    exact heq ▸ hkeyed

/-- A membership stands after a statement that does not bar it. -/
theorem Stands.step (h : Stands userId spaceId s) (hdoes : Does q w) :
    Stands userId spaceId (exec A w s) ∨ Bars userId spaceId (⟨k, q, w, s⟩ : SharingStep P) := by
  obtain ⟨m, hm, huser, hspace, hsuspended⟩ := h
  by_cases hw : w.OnMembers
  · cases hdoes with
    | opensSpace hq id memberId name now =>
      refine .inl ⟨m, ?_, huser, hspace, hsuspended⟩
      simp only [exec]
      split
      · exact hm
      · exact List.mem_append_left _ hm
    | joins user token context i id now =>
      have hevolves : Evolves (fun m m' : MemberRow => m'.user = m.user ∧ m'.spaceId = m.spaceId ∧
          (m.suspended = false → m'.suspended = false)) s.members
          (exec A (.upsertMember (newMember user i id now) (rejoined i)) s).members :=
        evolves_upsert (fun _ => ⟨rfl, rfl, fun h => h⟩) fun _ _ _ => ⟨rfl, rfl, fun _ => rfl⟩
      obtain ⟨m', hm', huser', hspace', hkeeps⟩ := hevolves m hm
      exact .inl ⟨m', hm', huser' ▸ huser, hspace'.trans hspace, hkeeps hsuspended⟩
    | bars user spaceId' memberId context =>
      by_cases hid : m.id = memberId
      · exact .inr ⟨⟨user, spaceId', memberId, context, rfl, m, hm, hid, huser, hspace⟩, _, rfl⟩
      · refine .inl ⟨m, Table.mem_update.mpr ⟨m, hm, ?_⟩, huser, hspace, hsuspended⟩
        rw [if_neg (by simpa using hid)]
    | _ => exact absurd hw (by simp [Write.OnMembers])
  · refine .inl ⟨m, ?_, huser, hspace, hsuspended⟩
    rw [members_exec hw]
    exact hm

/-! ## What a statement does to the sockets -/

/-- The statement takes a Space from the sockets of a user. -/
def Write.Drops (userId spaceId : String) (w : Write) : Prop := w = .revokeSpaceAccess userId spaceId

/-- **Sockets**, by one statement: a socket that listens had listened before, and its user is not dropped
from the Space, or the statement lets it listen. -/
theorem listens_step {sub : Account.Subscriber} (hsub : sub ∈ (exec A w s).account.subscribers)
    (hlistens : spaceId ∈ sub.spaceIds) : w.Enters sub.userId spaceId ∨
      ¬ w.Drops sub.userId spaceId ∧ ∃ sub₀ ∈ s.account.subscribers, sub₀.userId = sub.userId ∧
        spaceId ∈ sub₀.spaceIds := by
  have hkept : (exec A w s).account.subscribers = s.account.subscribers → ¬ w.Drops sub.userId spaceId →
      ¬ w.Drops sub.userId spaceId ∧ ∃ sub₀ ∈ s.account.subscribers, sub₀.userId = sub.userId ∧
        spaceId ∈ sub₀.spaceIds := fun heq hnot => ⟨hnot, sub, heq ▸ hsub, rfl, hlistens⟩
  unfold Write.Drops at hkept ⊢
  cases w with
  | account write =>
    by_cases hsockets : write.OnSockets
    · cases write with
      | subscribe new =>
        rcases List.mem_append.mp hsub with hold | hnew
        · exact .inr ⟨by rintro ⟨⟩, sub, (List.mem_filter.mp hold).1, rfl, hlistens⟩
        · obtain rfl := List.mem_singleton.mp hnew
          exact .inl ⟨rfl, hlistens⟩
      | disconnectDevice deviceId => exact .inr ⟨by rintro ⟨⟩, sub, (List.mem_filter.mp hsub).1, rfl, hlistens⟩
      | _ => exact hsockets.elim
    · exact .inr (hkept (Account.subscribers_exec hsockets s.view) fun h => by cases h)
  | grantSpaceAccess userId spaceId' =>
    obtain ⟨sub₀, hsub₀, rfl⟩ := List.mem_map.mp hsub
    by_cases hnew : sub₀.userId = userId ∧ spaceId' ∉ sub₀.spaceIds
    · rw [if_pos hnew] at hlistens ⊢
      rcases List.mem_append.mp hlistens with hold | hspace
      · exact .inr ⟨by rintro ⟨⟩, sub₀, hsub₀, rfl, hold⟩
      · exact .inl ⟨hnew.1.symm, (List.mem_singleton.mp hspace).symm⟩
    · rw [if_neg hnew] at hlistens ⊢
      exact .inr ⟨by rintro ⟨⟩, sub₀, hsub₀, rfl, hlistens⟩
  | revokeSpaceAccess userId spaceId' =>
    obtain ⟨sub₀, hsub₀, rfl⟩ := List.mem_map.mp hsub
    by_cases huser : sub₀.userId = userId
    · rw [if_pos huser] at hlistens ⊢
      obtain ⟨hold, hother⟩ := List.mem_filter.mp hlistens
      refine .inr ⟨fun heq => ?_, sub₀, hsub₀, rfl, hold⟩
      obtain ⟨-, rfl⟩ := Write.revokeSpaceAccess.inj heq
      exact (of_decide_eq_true hother) rfl
    · rw [if_neg huser] at hlistens ⊢
      refine .inr ⟨fun heq => ?_, sub₀, hsub₀, rfl, hlistens⟩
      exact huser (Write.revokeSpaceAccess.inj heq).1.symm
  | disconnect socket => exact .inr ⟨by rintro ⟨⟩, sub, (List.mem_filter.mp hsub).1, rfl, hlistens⟩
  | createSpace space owner =>
    refine .inr (hkept ?_ fun h => by cases h)
    simp only [exec]
    split <;> rfl
  | updateTotals id data =>
    refine .inr (hkept ?_ fun h => by cases h)
    simp only [exec]
    split <;> rfl
  | _ => exact .inr (hkept rfl fun h => by cases h)

/-! ## The invariant -/

/-- What is known of a statement, by everything before it. -/
structure Known (D : Deployment P) (step : SharingStep P) (earlier : List (SharingStep P)) : Prop where
  told : Told D step (earlier.filter (·.thread = step.thread))
  request : ∀ s ∈ earlier.filter (·.thread = step.thread), s.request = step.request
  tracks : Tracks step earlier

/-- Whoever listens is a member, or will be dropped; members stay. -/
structure Tracked (D : Deployment P) (σ : SharingLog P) : Prop where
  chained : σ.Chained (exec D.provider) MembersKeyed MembersStay
  listeners : ∀ sub ∈ σ.shared.account.subscribers, ∀ spaceId ∈ sub.spaceIds,
    Covered sub.userId spaceId σ.shared σ.history

variable {σ : SharingLog P}

/-- A member of an earlier moment, now. -/
theorem Tracked.since (h : Tracked D σ) {step : SharingStep P} (hstep : step ∈ σ.history) :
    MembersStay step.before σ.shared :=
  Evolves.trans MemberStays.trans (h.chained.before step hstep).2 (h.chained.since step hstep)

/-- The drop of a revocation is for the membership that it has suspended. -/
theorem Bars.drops {bar : SharingStep P} (h : Bars userId spaceId bar) (hσ : Tracked D σ)
    (hbar : bar ∈ σ.history) {u spaceId' : String}
    (hknown : Known D ⟨k, q, .revokeSpaceAccess u spaceId', σ.shared⟩ σ.history) (hthread : bar.thread = k) :
    u = userId ∧ spaceId' = spaceId := by
  obtain ⟨user, spaceId₀, memberId, context, hrequest, m, hm, hid, huser, hspace⟩ := h.request
  have hown : bar ∈ σ.history.filter (·.thread = k) := List.mem_filter.mpr ⟨hbar, decide_eq_true hthread⟩
  obtain rfl : q = _ := (hknown.request bar hown).symm.trans hrequest
  obtain ⟨-, m', rfl, rfl, read, hread, hfound⟩ := hknown.told
  -- Both have become the row that has their identifier now.
  obtain ⟨n, hn, hstays⟩ := hσ.since hbar m hm
  obtain ⟨n', hn', hstays'⟩ := hσ.since (List.mem_filter.mp hread).1 m' hfound.mem
  have hsame : n = n' := Table.eq_of_key hσ.chained.now hn hn'
    (hstays.id.trans (hid.trans (hfound.id.symm.trans hstays'.id.symm)))
  subst hsame
  constructor
  · rw [← hstays'.user, hstays.user, huser]
  · exact hfound.space.symm.trans (hstays'.space.symm.trans (hstays.space.trans hspace))

/-- Who is covered stays so, unless it is dropped. -/
theorem Covered.step (h : Covered userId spaceId σ.shared σ.history) (hσ : Tracked D σ)
    (hknown : Known D ⟨k, q, w, σ.shared⟩ σ.history) (hdrop : ¬ w.Drops userId spaceId) :
    Covered userId spaceId (exec D.provider w σ.shared) (⟨k, q, w, σ.shared⟩ :: σ.history) := by
  rcases h with hstands | ⟨later, bar, earlier, hhistory, hbars, hstill⟩
  · rcases hstands.step hknown.told.1 with hstands | hbars
    · exact .inl hstands
    · exact .inr ⟨[], _, σ.history, rfl, hbars, by simp⟩
  · refine .inr ⟨⟨k, q, w, σ.shared⟩ :: later, bar, earlier, by rw [hhistory]; rfl, hbars, fun s hs => ?_⟩
    rcases List.mem_cons.mp hs with rfl | hs
    · rintro hthread u spaceId' rfl
      have hbar : bar ∈ σ.history := by simp [hhistory]
      obtain ⟨rfl, rfl⟩ := hbars.drops hσ hbar hknown hthread.symm
      exact hdrop rfl
    · exact hstill s hs

/-- Sockets are opened and closed by requests. -/
theorem subscribers_outside (e : Outside P) (s : World P) :
    (outside e s).account.subscribers = s.account.subscribers := by
  cases e with
  | account o =>
    obtain ⟨o, ho⟩ := o
    cases o with
    | disconnect socket => exact ho.elim
    | spaceAccess userId spaceIds => exact ho.elim
    | issueCode row =>
      simp only [outside, Account.outside]
      split <;> rfl
    | _ => rfl
  | provider p => rfl
  | refusesTotals refuses => rfl

/-- What the statements keep of a run that keeps track. -/
theorem upholds_tracked (D : Deployment P) (F : Account.Platform) :
    Upholds (machine D F) (Known D) (Tracked D) where
  step k q w σ hσ hknown := by
    refine ⟨((kept_members D F).chained_perform hσ.chained hknown.told.1).2, fun sub hsub spaceId hlistens => ?_⟩
    rcases listens_step hsub hlistens with henters | ⟨hdrop, sub₀, hsub₀, huser, hlistened⟩
    · have hcovered : Covered sub.userId spaceId σ.shared σ.history :=
        hknown.tracks.enters _ _ henters
      refine hcovered.step hσ hknown fun hdrops => ?_
      unfold Write.Drops at hdrops
      subst hdrops
      exact henters
    · have hcovered := hσ.listeners sub₀ hsub₀ spaceId hlistened
      rw [huser] at hcovered
      exact hcovered.step hσ hknown hdrop
  env e σ hσ := by
    refine ⟨(kept_members D F).chained_change hσ.chained e, fun sub hsub spaceId hlistens => ?_⟩
    have hmembers : (outside e σ.shared).members = σ.shared.members := by cases e <;> rfl
    have hold : sub ∈ σ.shared.account.subscribers := subscribers_outside e σ.shared ▸ hsub
    refine (hσ.listeners sub hold spaceId hlistens).imp (fun hstands => ?_) id
    obtain ⟨m, hm, hstands⟩ := hstands
    exact ⟨m, hmembers ▸ hm, hstands⟩

/-- **Live events reach members.** In a run in which the memory of the gateway keeps track, each event for a
Space is sent only to sockets whose user is a member of it at that moment, not suspended and not past the
expiry. -/
theorem live_reaches_members (D : Deployment P) (F : Account.Platform) {w : World P} (hkeyed : MembersKeyed w)
    (hstart : ∀ sub ∈ w.account.subscribers, ∀ spaceId ∈ sub.spaceIds, Stands sub.userId spaceId w)
    (moves : List (Move Request (Outside P)))
    (hcond : ∀ step earlier, step :: earlier <:+ (run D F w moves).log.history → Tracks step earlier) :
    ∀ step ∈ (run D F w moves).log.history, ∀ spaceId, step.write.Publishes spaceId →
      ∀ sub ∈ receivers spaceId step.before, Entitled sub.userId spaceId step.before := by
  obtain ⟨htold, -⟩ := told_run D F w moves
  have hrequests := Concurrent.requests_run (machine D F) w moves
  have hinitial : Tracked D (⟨w, []⟩ : SharingLog P) :=
    ⟨⟨hkeyed, by simp, by simp, by simp⟩, fun sub hsub spaceId hlistens => .inl (hstart sub hsub spaceId hlistens)⟩
  obtain ⟨-, halways⟩ := (upholds_tracked D F).run hinitial moves fun step earlier hsuffix =>
    ⟨htold step earlier hsuffix, hrequests step earlier hsuffix, hcond step earlier hsuffix⟩
  intro step hstep spaceId hpublishes sub hsub
  obtain ⟨earlier, hsuffix, -⟩ := htold.of_mem hstep
  obtain ⟨hopen, hlistens⟩ := List.mem_filter.mp hsub
  have htracks := hcond step earlier hsuffix
  have hcovered := (halways step earlier hsuffix).listeners sub hopen spaceId (of_decide_eq_true hlistens)
  obtain ⟨m, hm, huser, hspace, hsuspended⟩ :=
    hcovered.resolve_right (htracks.settled sub.userId spaceId hpublishes)
  exact ⟨m, hm, huser, hspace, hsuspended, htracks.ahead spaceId hpublishes sub hopen m hm huser hspace⟩

/-! ## A membership that expires while a socket is open -/

/-- A Space with a guest whose membership expires at 1500 and who has a socket open. -/
def listening : World Unit := { quietSpace with
  members := quietSpace.members ++ [⟨"m2", "space", ben, "invited_member", dataOnlyPermissions, false, some 1500, 0⟩]
  allocations := [allocationOf .active]
  account := { quietSpace.account with subscribers := [⟨1, "ben", "d2", ["space"]⟩] } }

/-- The owner opens the Member Access page. -/
def adaLooks : List (Move Request (Outside Unit)) := served 0 (.memberAccess ada "space") 14

/-- The owner opens it later. -/
def adaLooksLater : List (Move Request (Outside Unit)) := .env (.account ⟨.tick 600, trivial⟩) :: adaLooks

theorem stands_listening : ∀ sub ∈ listening.account.subscribers, ∀ spaceId ∈ sub.spaceIds,
    Stands sub.userId spaceId listening := by
  unfold Stands
  decide

/-- Only a connection and a claim let a socket listen. -/
theorem Does.enters (h : Does q w) (henters : w.Enters userId spaceId) :
    (∃ q', q = .account q') ∨ ∃ user token context, q = .claimPass user token context := by
  cases h with
  | serves q' h => exact .inl ⟨q', rfl⟩
  | grants user token context spaceId => exact .inr ⟨user, token, context, rfl⟩
  | notes q h =>
    rename_i w
    cases w with
    | subscribe s => exact h.elim
    | _ => exact henters.elim
  | _ => exact henters.elim

/-- While the membership lasts, the event is for a member. -/
theorem live_reaches_members_adaLooks : ∃ step ∈ (run home frontDesk listening adaLooks).log.history,
    step.write.Publishes "space" ∧ ∃ sub ∈ receivers "space" step.before,
      Entitled sub.userId "space" step.before := by
  have hkeyed : MembersKeyed listening := by
    unfold MembersKeyed
    decide
  have hrequest : ∀ step ∈ (run home frontDesk listening adaLooks).log.history,
      step.request = .memberAccess ada "space" := by decide
  have hahead : ∀ step ∈ (run home frontDesk listening adaLooks).log.history,
      ∀ m ∈ step.before.members, m.expiresAt.all (step.before.clock < ·) := by decide
  obtain ⟨htold, -⟩ := told_run home frontDesk listening adaLooks
  have hcond : ∀ step earlier, step :: earlier <:+ (run home frontDesk listening adaLooks).log.history →
      Tracks step earlier := by
    intro step earlier hsuffix
    have hstep := hsuffix.subset List.mem_cons_self
    refine ⟨fun u spaceId henters => ?_, fun u spaceId _ hpending => ?_, fun _ _ _ _ m hm _ _ =>
      hahead step hstep m hm⟩
    · have hdoes := (htold step earlier hsuffix).1
      rw [hrequest step hstep] at hdoes
      rcases hdoes.enters henters with ⟨_, h⟩ | ⟨_, _, _, h⟩ <;> cases h
    · obtain ⟨later, bar, rest, hearlier, hbars, -⟩ := hpending
      have hbar : bar ∈ earlier := by simp [hearlier]
      obtain ⟨_, _, _, _, hbarred, -⟩ := hbars.request
      rw [hrequest bar (hsuffix.subset (List.mem_cons_of_mem _ hbar))] at hbarred
      cases hbarred
  have hstep : (run home frontDesk listening adaLooks).log.history[0]? = some _ := rfl
  have hmem := List.mem_of_getElem? hstep
  exact ⟨_, hmem, rfl, _, List.mem_cons_self,
    live_reaches_members home frontDesk hkeyed stands_listening adaLooks hcond _ hmem "space" rfl _
      List.mem_cons_self⟩

/-- Once it has expired, the event is still sent to the socket of the guest. -/
theorem expired_listener : ∃ step ∈ (run home frontDesk listening adaLooksLater).log.history,
    step.write.Publishes "space" ∧ ∃ sub ∈ receivers "space" step.before,
      sub.userId = "ben" ∧ ¬ Entitled "ben" "space" step.before := by
  have hstep : (run home frontDesk listening adaLooksLater).log.history[0]? = some _ := rfl
  refine ⟨_, List.mem_of_getElem? hstep, rfl, _, List.mem_cons_self, rfl, ?_⟩
  unfold Entitled
  decide

end Sharing
