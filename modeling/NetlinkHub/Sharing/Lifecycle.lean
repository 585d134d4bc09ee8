import NetlinkHub.Sharing.Traces

/-! # The lifecycle of an allocation

Five operations write the status of an allocation. Where those that should not touch it find it neither
revoked nor expired, an allocation leaves these statuses only by a new pass of its member
(`allocation_lifecycle`). A second refresh finds nothing left to do (`refresh_settles`). -/

namespace Sharing

open Api (Date HttpException RequestContext Token)
open Concurrent (Config Kept Log Machine Move Outline Prog Step)
open Table (Evolves Op)

variable {P : Type}

/-! ## Members and allocations -/

/-- What a membership may become. -/
structure MemberStays (m m' : MemberRow) : Prop where
  id : m'.id = m.id
  user : m'.user = m.user
  space : m'.spaceId = m.spaceId

theorem MemberStays.refl (m : MemberRow) : MemberStays m m := ⟨rfl, rfl, rfl⟩

theorem MemberStays.trans {m m' m'' : MemberRow} (h : MemberStays m m') (h' : MemberStays m' m'') :
    MemberStays m m'' := ⟨h'.id.trans h.id, h'.user.trans h.user, h'.space.trans h.space⟩

/-- Every member is still there. -/
def MembersStay (s t : World P) : Prop := Evolves MemberStays s.members t.members

/-- Identifiers of allocations are unique. -/
def AllocationsKeyed (w : World P) : Prop := (w.allocations.map (·.id)).Nodup

variable {D : Deployment P} {F : Account.Platform} {s t : World P}

theorem MembersStay.of_eq (h : t.members = s.members) : MembersStay s t := by
  unfold MembersStay
  rw [h]
  exact Evolves.refl MemberStays.refl _

theorem evolves_upsert {R : Type} {rel : R → R → Prop} {sel clash : R → Bool} {row : R} {data : R → R}
    {rows : List R} (hrel : ∀ r, rel r r) (h : ∀ r ∈ rows, sel r → rel r (data r)) :
    Evolves rel rows (upsert sel clash row data rows) := by
  unfold upsert
  split
  · exact Table.evolves_update hrel h
  · exact Table.evolves_insert hrel

theorem nodup_upsert {R K : Type} {key : R → K} {sel clash : R → Bool} {row : R} {data : R → R}
    {rows : List R} (hdata : ∀ r, key (data r) = key r) (hclash : ∀ r, key r = key row → clash r)
    (h : (rows.map key).Nodup) : ((upsert sel clash row data rows).map key).Nodup := by
  unfold upsert
  split
  · rw [Table.map_update hdata]
    exact h
  · exact Table.nodup_insert hclash h

/-- **Members**, by one statement. -/
theorem members_step {q : Request} {w : Write} (h : Does q w) : MembersStay s (exec D.provider w s) := by
  by_cases hw : w.OnMembers
  · cases h with
    | opensSpace hq id memberId name now =>
      unfold MembersStay
      simp only [exec]
      split
      · exact Evolves.refl MemberStays.refl _
      · exact fun m hm => ⟨m, List.mem_append_left _ hm, MemberStays.refl m⟩
    | joins user token context i id now =>
      exact evolves_upsert MemberStays.refl fun m _ _ => ⟨rfl, rfl, rfl⟩
    | bars user spaceId memberId context =>
      exact Table.evolves_update MemberStays.refl fun m _ _ => ⟨rfl, rfl, rfl⟩
    | _ => exact absurd hw (by simp [Write.OnMembers])
  · exact .of_eq (members_exec hw)

/-- What an update of an allocation leaves alone. -/
structure KeepsAllocation (data : AllocationRow → AllocationRow) : Prop where
  id : ∀ a, (data a).id = a.id
  pool : ∀ a, (data a).poolId = a.poolId
  member : ∀ a, (data a).memberId = a.memberId

/-- **Allocations**, by one statement: nothing, an update of one of them, or the upsert of a claim. -/
theorem allocations_step {A : DataProviderAdapter P} {q : Request} {w : Write} (h : Does q w) (s : World P) :
    (exec A w s).allocations = s.allocations ∨
      (∃ id data, (w = .updateAllocation id data ∨ w = .updateTotals id data) ∧ KeepsAllocation data ∧
        (exec A w s).allocations = (Op.update (·.id = id) (touch s.clock data)).apply s.allocations) ∨
      ∃ user token context input poolId id, q = .claimPass user token context ∧
        w = .upsertAllocation (newAllocation input poolId id) (reopened input) ∧
        (exec A w s).allocations = upsert (·.memberId = input.memberId) (·.id = id)
          (touch s.clock (fun a => a) (newAllocation input poolId id)) (touch s.clock (reopened input))
          s.allocations := by
  by_cases hw : w.OnAllocations
  · cases h with
    | opens user token context i memberId poolId id total =>
      exact .inr (.inr ⟨user, token, context, _, poolId, id, rfl, rfl, rfl⟩)
    | lapses hq id => exact .inr (.inl ⟨id, _, .inl rfl, ⟨fun _ => rfl, fun _ => rfl, fun _ => rfl⟩, rfl⟩)
    | counts hq id used today =>
      by_cases hrefuses : s.refusesTotals
      · exact .inl (by simp only [exec, if_pos hrefuses])
      · exact .inr (.inl ⟨id, _, .inr rfl, ⟨fun _ => rfl, fun _ => rfl, fun _ => rfl⟩,
          by simp only [exec, if_neg hrefuses]⟩)
    | stops hq id used today now =>
      by_cases hrefuses : s.refusesTotals
      · exact .inl (by simp only [exec, if_pos hrefuses])
      · exact .inr (.inl ⟨id, _, .inr rfl, ⟨fun _ => rfl, fun _ => rfl, fun _ => rfl⟩,
          by simp only [exec, if_neg hrefuses]⟩)
    | pauses user spaceId memberId paused context id pausedAt =>
      exact .inr (.inl ⟨id, _, .inl rfl, ⟨fun _ => rfl, fun _ => rfl, fun _ => rfl⟩, rfl⟩)
    | limits user spaceId memberId input context id =>
      exact .inr (.inl ⟨id, _, .inl rfl, ⟨fun _ => rfl, fun _ => rfl, fun _ => rfl⟩, rfl⟩)
    | revokes user spaceId memberId context id now =>
      exact .inr (.inl ⟨id, _, .inl rfl, ⟨fun _ => rfl, fun _ => rfl, fun _ => rfl⟩, rfl⟩)
    | _ => exact absurd hw (by simp [Write.OnAllocations])
  · exact .inl (allocations_exec hw)

theorem keyed_step {q : Request} {w : Write} (h : Does q w) (hkeyed : AllocationsKeyed s) :
    AllocationsKeyed (exec D.provider w s) := by
  unfold AllocationsKeyed
  rcases allocations_step h s with heq | ⟨id, data, -, hdata, heq⟩ | ⟨_, _, _, input, poolId, id, -, -, heq⟩
  · rw [heq]
    exact hkeyed
  · rw [heq, Table.map_update fun a => show (touch s.clock data a).id = a.id from hdata.id a]
    exact hkeyed
  · rw [heq]
    exact nodup_upsert (fun _ => rfl) (fun a ha => decide_eq_true (show a.id = id from ha)) hkeyed

/-- What every statement keeps. -/
theorem kept_allocations (D : Deployment P) (F : Account.Platform) :
    Kept (machine D F) (fun step => Does step.request step.write) AllocationsKeyed MembersStay where
  refl _ := Evolves.refl MemberStays.refl _
  trans h h' := Evolves.trans MemberStays.trans h h'
  step _ hC hkeyed := ⟨members_step hC, keyed_step hC hkeyed⟩
  env e s hkeyed := by
    have heq : (outside e s).members = s.members ∧ (outside e s).allocations = s.allocations := by
      cases e <;> exact ⟨rfl, rfl⟩
    refine ⟨.of_eq heq.1, ?_⟩
    unfold AllocationsKeyed
    exact heq.2 ▸ hkeyed

/-! ## Leaving a status -/

/-- The statement takes an allocation out of a status. -/
structure Leaves (A : DataProviderAdapter P) (status : AllocationStatus) (step : SharingStep P)
    (a b : AllocationRow) : Prop where
  before : a ∈ step.before.allocations
  after : b ∈ (exec A step.write step.before).allocations
  same : b.id = a.id
  was : a.status = status
  left : b.status ≠ status

/-- The statement opens an allocation by a new pass of its member. -/
structure NewPass (step : SharingStep P) (a : AllocationRow) : Prop where
  request : ∃ m ∈ step.before.members, m.id = a.memberId ∧
    ∃ token context, step.request = .claimPass m.user token context
  write : ∃ row data, step.write = .upsertAllocation row data

/-- The allocation was revoked, or it has expired and its expiry still lies behind. -/
def AllocationRow.Over (now : Date) (a : AllocationRow) : Prop :=
  a.status = .revoked ∨ a.status = .expired ∧ a.expiresAt ≤ now

instance (now : Date) : DecidablePred (AllocationRow.Over now) := fun _ => inferInstanceAs (Decidable (_ ∨ _))

/-- The statement writes a status over one that it should respect: a pause, a resumption or a limit that is
reached over an allocation that is over, the end by expiry over a revocation, a revocation over the end by
expiry. -/
def Overrides (step : SharingStep P) : Prop :=
  match step.request, step.write with
  | .pauseAllocation .., .updateAllocation id _ =>
    ∃ a ∈ step.before.allocations, a.id = id ∧ a.Over step.before.clock
  | .revokeAccess .., .updateAllocation id _ =>
    ∃ a ∈ step.before.allocations, a.id = id ∧ a.status = .expired ∧ a.expiresAt ≤ step.before.clock
  | .updateAllocation .., _ => False
  | _, .updateAllocation id _ => ∃ a ∈ step.before.allocations, a.id = id ∧ a.status = .revoked
  | _, .updateTotals id data =>
    ∃ a ∈ step.before.allocations, a.id = id ∧ a.Over step.before.clock ∧ (data a).status = .paused
  | _, _ => False

instance : DecidablePred (Overrides (P := P)) := fun step => by
  unfold Overrides
  split <;> infer_instance

/-- A row after an update, by the row of its identifier before. -/
theorem eq_of_update {data : AllocationRow → AllocationRow} {rows : List AllocationRow}
    (hdata : ∀ a, (data a).id = a.id) (hkeyed : (rows.map (·.id)).Nodup) {a b : AllocationRow}
    {sel : AllocationRow → Bool} (ha : a ∈ rows) (hb : b ∈ (Op.update sel data).apply rows)
    (hid : b.id = a.id) : b = if sel a then data a else a := by
  obtain ⟨a₀, ha₀, rfl⟩ := Table.mem_update.mp hb
  have hid₀ : a₀.id = a.id := by
    split at hid
    · exact (hdata a₀).symm.trans hid
    · exact hid
  rw [Table.eq_of_key hkeyed ha₀ ha hid₀]

/-- Only what overrides takes an allocation that is over out of its status by an update. -/
theorem Leaves.not_update {q : Request} {k : Nat} {w : Write} {A : DataProviderAdapter P}
    {status : AllocationStatus} {a b : AllocationRow} {id : String} {data : AllocationRow → AllocationRow}
    (h : Leaves A status ⟨k, q, w, s⟩ a b) (hdoes : Does q w) (hover : ¬ Overrides (P := P) ⟨k, q, w, s⟩)
    (ha : a.Over s.clock) (hw : w = .updateAllocation id data ∨ w = .updateTotals id data) (hid : a.id = id)
    (hb : b = touch s.clock data a) : False := by
  have hleft : (data a).status ≠ a.status := by
    have := h.left
    rwa [hb, ← h.was] at this
  rcases hw with rfl | rfl
  · cases hdoes with
    | lapses hq id =>
      rcases ha with hrevoked | hexpired
      · have hfound : ∃ a ∈ s.allocations, a.id = id ∧ a.status = .revoked := ⟨a, h.before, hid, hrevoked⟩
        cases q with
        | myAllocation user spaceId => exact hover hfound
        | memberAccess user spaceId => exact hover hfound
        | _ => exact hq
      · exact hleft hexpired.1.symm
    | pauses user spaceId memberId paused context id pausedAt => exact hover ⟨a, h.before, hid, ha⟩
    | limits user spaceId memberId input context id => exact hleft rfl
    | revokes user spaceId memberId context id now =>
      rcases ha with hrevoked | hexpired
      · exact hleft hrevoked.symm
      · exact hover ⟨a, h.before, hid, hexpired⟩
  · cases hdoes with
    | counts hq id used today => exact hleft rfl
    | stops hq id used today now =>
      have hfound : ∃ a ∈ s.allocations, a.id = id ∧ a.Over s.clock ∧
          ((a.withUsage used today).pausedAtDate now).status = .paused := ⟨a, h.before, hid, ha, rfl⟩
      cases q with
      | myAllocation user spaceId => exact hover hfound
      | memberAccess user spaceId => exact hover hfound
      | _ => exact hq

/-- **One statement.** -/
theorem Leaves.newPass {step : SharingStep P} {own : List (SharingStep P)} {status : AllocationStatus}
    {a b : AllocationRow} (h : Leaves D.provider status step a b) (htold : Told D step own)
    (hover : ¬ Overrides step) (ha : a.Over step.before.clock) (hkeyed : AllocationsKeyed step.before)
    (hstay : ∀ s ∈ own, MembersStay (exec D.provider s.write s.before) step.before) : NewPass step a := by
  have hsame : ∀ b ∈ step.before.allocations, b.id = a.id → b.status = status := by
    intro b hb hid
    rw [Table.eq_of_key hkeyed hb h.before hid]
    exact h.was
  obtain ⟨k, q, w, s⟩ := step
  have hb := h.after
  rcases allocations_step htold.1 s with heq | ⟨id, data, hw, hdata, heq⟩ |
    ⟨user, token, context, input, poolId, id, hq, hw, heq⟩
  · rw [heq] at hb
    exact absurd (hsame b hb h.same) h.left
  · rw [heq] at hb
    have hupdated := eq_of_update (fun a => show (touch s.clock data a).id = a.id from hdata.id a)
      hkeyed h.before hb h.same
    by_cases hid : a.id = id
    · rw [if_pos (decide_eq_true hid)] at hupdated
      exact (h.not_update htold.1 hover ha hw hid hupdated).elim
    · rw [if_neg (by simpa using hid)] at hupdated
      exact absurd (hupdated ▸ h.was) h.left
  · subst hq hw
    obtain ⟨i, m, total, poolId', id', _, hrow, -, -, hentered, -⟩ := htold.2
    have hmember : input.memberId = m.id := congrArg AllocationRow.memberId hrow
    rw [heq] at hb
    unfold upsert at hb
    split at hb
    · have hupdated := eq_of_update (fun a => show (touch s.clock (reopened input) a).id = a.id from rfl)
        hkeyed h.before hb h.same
      by_cases hid : a.memberId = input.memberId
      · obtain ⟨earlier, hearlier, hjoined⟩ := hentered.joined
        obtain ⟨m', hm', hstays⟩ := hstay earlier hearlier m hjoined.left
        refine ⟨⟨m', hm', hstays.id.trans (hmember.symm.trans hid.symm), token, context, ?_⟩, _, _, rfl⟩
        rw [hstays.user, hjoined.user]
      · rw [if_neg (by simpa using hid)] at hupdated
        exact absurd (hupdated ▸ h.was) h.left
    · -- A new row has an identifier that no other has.
      by_cases hold : b ∈ s.allocations
      · exact absurd (hsame b hold h.same) h.left
      · obtain ⟨rfl, hfree⟩ := Table.new_of_mem_insert hb hold
        exact absurd (List.any_eq_true.mpr ⟨a, h.before, decide_eq_true h.same.symm⟩) hfree

/-! ## A second refresh -/

section Refresh

variable {A : DataProviderAdapter P} {C : Calendar} {id : String} {today : Date} {a : AllocationRow}
  {w : World P} {α : Type}

/-- The row of an identifier after an update of one. -/
theorem findAllocation_updateOf {data : AllocationRow → AllocationRow} (hdata : ∀ a, (data a).id = a.id)
    (hfound : findAllocation id w = some a) {updated : String} (ht : t.allocations =
      (Op.update (·.id = updated) data).apply w.allocations) :
    findAllocation id t = some (if a.id = updated then data a else a) := by
  have hfind : ((Op.update (·.id = updated) data).apply w.allocations).find? (·.id = id) =
      (w.allocations.find? (·.id = id)).map fun r => if decide (r.id = updated) then data r else r :=
    Table.find?_update hdata id
  unfold findAllocation at hfound ⊢
  rw [ht, hfind, hfound, Option.map_some]
  simp only [decide_eq_true_eq]

/-- The row of an identifier after an update of it. -/
theorem findAllocation_update {data : AllocationRow → AllocationRow} (hdata : ∀ a, (data a).id = a.id)
    (hfound : findAllocation id w = some a) (ht : t.allocations =
      (Op.update (·.id = id) data).apply w.allocations) : findAllocation id t = some (data a) := by
  have hid : a.id = id := by simpa using List.find?_some hfound
  rw [findAllocation_updateOf hdata hfound ht, if_pos hid]

/-- The events that are stored when these are reported: those that are not stored yet, each once. -/
def newEvents (id : String) : List UsageEventRow → List ProviderUsageEvent → List ProviderUsageEvent
  | _, [] => []
  | rows, e :: rest =>
    if rows.any (e.row id).Clashes then newEvents id rows rest
    else e :: newEvents id (rows ++ [e.row id]) rest

theorem newEvents_eq_nil {rows : List UsageEventRow} {events : List ProviderUsageEvent}
    (h : ∀ e ∈ events, rows.any (e.row id).Clashes) : newEvents id rows events = [] := by
  induction events with
  | nil => rfl
  | cons e events ih =>
    rw [newEvents, if_pos (h e List.mem_cons_self)]
    exact ih fun e he => h e (List.mem_cons_of_mem _ he)

/-- **The loop** counts what it stores, and does nothing else. -/
theorem ends_storeEvents (events : List ProviderUsageEvent) (used : Usage) (w : World P) :
    (storeEvents C id today events used).Ends (exec A) (fun r t =>
      r = .ok ((newEvents id w.usageEvents events).foldl (fun u e => u.add C today e) used) ∧
        t = { w with usageEvents := w.usageEvents ++ (newEvents id w.usageEvents events).map (·.row id) }) w := by
  induction events generalizing used w with
  | nil =>
    refine ⟨rfl, ?_⟩
    rw [newEvents, List.map_nil, List.append_nil]
    rfl
  | cons event events ih =>
    unfold storeEvents createUsageEvent
    rw [Prog.perform_bind, Prog.ends_stmt]
    by_cases hknown : w.usageEvents.any (event.row id).Clashes
    · have hsame : exec A (.createUsageEvent (event.row id)) w = w := by
        simp only [exec, Table.apply_insert, if_pos hknown]
      rw [newEvents, if_pos hknown, hsame]
      simpa [hknown] using ih used w
    · have hadded : exec A (.createUsageEvent (event.row id)) w =
          { w with usageEvents := w.usageEvents ++ [event.row id] } := by
        simp only [exec, Table.apply_insert, if_neg hknown]
      rw [newEvents, if_neg hknown, hadded]
      simpa [hknown] using ih (used.add C today event) { w with usageEvents := w.usageEvents ++ [event.row id] }

/-- What the update at the end of a refresh makes of an allocation. -/
def AllocationRow.refreshed (used : Usage) (today pausedAt : Date) (a : AllocationRow) : AllocationRow :=
  if a.Reached used then (a.withUsage used today).pausedAtDate pausedAt else a.withUsage used today

theorem refreshed_of_reached {used : Usage} (h : a.Reached used) (t pausedAt : Date) :
    touch t (AllocationRow.refreshed used today pausedAt) a =
      touch t (fun a => (a.withUsage used today).pausedAtDate pausedAt) a := by
  simp only [touch, AllocationRow.refreshed, if_pos h]

theorem refreshed_of_not_reached {used : Usage} (h : ¬ a.Reached used) (t pausedAt : Date) :
    touch t (AllocationRow.refreshed used today pausedAt) a = touch t (fun a => a.withUsage used today) a := by
  simp only [touch, AllocationRow.refreshed, if_neg h]

/-- Whatever the provider reports now is stored already. -/
def EventsKnown (D : Deployment P) (id : String) (a : AllocationRow) (w : World P) : Prop :=
  ∀ events, D.provider.getUsage id a.updatedAt w.provider = .ok events →
    ∀ e ∈ events, w.usageEvents.any (e.row id).Clashes

/-- What the provider reports to a refresh: nothing, unless the allocation is active. -/
def reported (D : Deployment P) (id : String) (a : AllocationRow) (w : World P) :
    Except HttpException (List ProviderUsageEvent) :=
  if a.status = .active then D.provider.getUsage id a.updatedAt w.provider else .ok []

/-- The usage after the new ones of some events were counted. -/
def AllocationRow.countedWith (C : Calendar) (today : Date) (a : AllocationRow) (w : World P)
    (events : List ProviderUsageEvent) : Usage :=
  (newEvents a.id w.usageEvents events).foldl (fun u e => u.add C today e) (a.counted C today)

/-- A refresh counts what it is told, if it is told anything. -/
theorem ends_pullUsage (today : Date) (w : World P) (hid : a.id = id) :
    (pullUsage D id a today).Ends (exec D.provider) (fun r t =>
      t.allocations = w.allocations ∧ t.clock = w.clock ∧ t.refusesTotals = w.refusesTotals ∧
        ((∃ e, reported D id a w = .error e ∧ r = .error e) ∨ ∃ events, reported D id a w = .ok events ∧
          r = .ok (a.countedWith D.calendar today w events) ∧
          t.usageEvents = w.usageEvents ++ (newEvents id w.usageEvents events).map (·.row id))) w := by
  subst hid
  unfold pullUsage reported
  split
  · rw [ask_bind, Prog.ends_stmt]
    cases D.provider.getUsage a.id a.updatedAt w.provider with
    | error e => exact ⟨rfl, rfl, rfl, .inl ⟨e, rfl, rfl⟩⟩
    | ok events =>
      refine (ends_storeEvents _ _ _).mono fun r t ⟨hr, ht⟩ => ?_
      subst ht
      exact ⟨rfl, rfl, rfl, .inr ⟨events, rfl, hr, rfl⟩⟩
  · exact ⟨rfl, rfl, rfl, .inr ⟨[], rfl, rfl, (List.append_nil _).symm⟩⟩

theorem updateTotals_bind (id : String) (data : AllocationRow → AllocationRow)
    (f : AllocationRow → Service P α) : (updateTotals id data >>= f) = .stmt (.updateTotals id data) fun w =>
      if w.refusesTotals then .raise Api.databaseFault
      else match findAllocation id w with
        | none => .raise Api.databaseFault
        | some a => f (touch w.clock data a) := by
  unfold updateTotals
  rw [Prog.stmt_bind]
  congr 1
  funext w
  split
  · rfl
  · cases findAllocation id w with
    | none => rfl
    | some a => rfl

/-- A call answers the row of an allocation that it leaves, or fails and leaves it as it was. -/
def LeavesRow (id : String) (a : AllocationRow) (becomes : AllocationRow → Prop)
    (r : Except HttpException AllocationRow) (w : World P) : Prop :=
  match r with
  | .ok b => becomes b ∧ findAllocation id w = some b
  | .error _ => findAllocation id w = some a

theorem LeavesRow.mono {becomes becomes' : AllocationRow → Prop} {r : Except HttpException AllocationRow}
    (h : LeavesRow id a becomes r w) (himp : ∀ b, becomes b → becomes' b) : LeavesRow id a becomes' r w := by
  cases r with
  | ok b => exact ⟨himp b h.1, h.2⟩
  | error e => exact h

theorem ends_updateAllocationRow (data : AllocationRow → AllocationRow) (hdata : ∀ a, (data a).id = a.id)
    (hfound : findAllocation id w = some a) : (updateAllocationRow id data).Ends (exec A)
      (LeavesRow id a (· = touch w.clock data a)) w := by
  unfold updateAllocationRow
  rw [Prog.ends_stmt, hfound]
  have hkeeps : ∀ a, (touch w.clock data a).id = a.id := hdata
  exact ⟨rfl, findAllocation_update hkeeps hfound rfl⟩

/-- The update of the counters succeeds unless the database refuses it. -/
theorem ends_updateTotals (data : AllocationRow → AllocationRow) (hdata : ∀ a, (data a).id = a.id)
    (hfound : findAllocation id w = some a) (notice : UsageNotice) :
    (updateTotals id data >>= fun updated => do
      Prog.perform (.publish notice) fun _ => ()
      .done updated : Service P AllocationRow).Ends (exec A) (fun r t =>
        LeavesRow id a (· = touch w.clock data a) r t ∧ ((∃ b, r = .ok b) ↔ w.refusesTotals = false) ∧
          t.usageEvents = w.usageEvents) w := by
  rw [updateTotals_bind, Prog.ends_stmt]
  by_cases hrefuses : w.refusesTotals
  · have hsame : exec A (.updateTotals id data) w = w := by simp only [exec, if_pos hrefuses]
    rw [if_pos hrefuses, hsame]
    refine ⟨hfound, iff_of_false ?_ (by simp [hrefuses]), rfl⟩
    rintro ⟨b, h⟩
    cases h
  · rw [if_neg hrefuses, hfound]
    have hexec : exec A (.updateTotals id data) w =
        { w with allocations := (Op.update (·.id = id) (touch w.clock data)).apply w.allocations } := by
      simp only [exec, if_neg hrefuses]
    have hkeeps : ∀ a, (touch w.clock data a).id = a.id := hdata
    rw [hexec]
    exact ⟨⟨rfl, findAllocation_update hkeeps hfound rfl⟩, iff_of_true ⟨_, rfl⟩ (by simpa using hrefuses), rfl⟩

/-- The end of a refresh. -/
theorem ends_saveUsage (hfound : findAllocation id w = some a) (used : Usage) (today : Date) :
    (saveUsage id a used today).Ends (exec A) (fun r t =>
      LeavesRow id a (fun b => ∃ now pausedAt, b = touch now (AllocationRow.refreshed used today pausedAt) a) r t ∧
        ((∃ b, r = .ok b) ↔ w.refusesTotals = false) ∧ t.usageEvents = w.usageEvents) w := by
  unfold saveUsage totalsOf
  by_cases hreached : a.Reached used
  · rw [if_pos hreached, newDate_bind, Prog.stmt_bind, Prog.ends_stmt]
    have hfound' : findAllocation id (exec A (.account (.api .clock)) w) = some a := hfound
    refine (ends_updateTotals (fun a => (a.withUsage used today).pausedAtDate w.clock) (fun _ => rfl)
      hfound' _).mono fun r t ⟨hrow, hrest⟩ => ⟨hrow.mono fun b hb => ⟨w.clock, w.clock, hb.trans ?_⟩, hrest⟩
    exact (refreshed_of_reached hreached _ _).symm
  · rw [if_neg hreached, Prog.done_bind]
    refine (ends_updateTotals (fun a => a.withUsage used today) (fun _ => rfl) hfound _).mono
      fun r t ⟨hrow, hrest⟩ => ⟨hrow.mono fun b hb => ⟨w.clock, w.clock, hb.trans ?_⟩, hrest⟩
    exact (refreshed_of_not_reached hreached _ _).symm

/-- What a refresh makes of an allocation. -/
def AllocationRow.RefreshedTo (C : Calendar) (now : Date) (known : Prop) (a b : AllocationRow) : Prop :=
  if a.status = .revoked then b = a
  else if a.expiresAt ≤ now ∧ a.status ≠ .expired then ∃ t, b = touch t AllocationRow.lapsed a
  else ∃ used t pausedAt, (a.status ≠ .active ∨ known → used = a.counted C (C.startOfDay now)) ∧
    b = touch t (AllocationRow.refreshed used (C.startOfDay now) pausedAt) a

/-- What a refresh comes to that counts: nothing if the provider fails, or else the row that it leaves, with
the new events stored, unless the database refuses it. -/
structure Counts (D : Deployment P) (id : String) (a : AllocationRow) (w : World P)
    (events : List ProviderUsageEvent) (r : Except HttpException AllocationRow) (t : World P) : Prop where
  told : reported D id a w = .ok events
  stored : t.usageEvents = w.usageEvents ++ (newEvents id w.usageEvents events).map (·.row id)
  leaves : LeavesRow id a (fun b => ∃ now pausedAt, b = touch now (AllocationRow.refreshed
    (a.countedWith D.calendar (D.calendar.startOfDay w.clock) w events)
    (D.calendar.startOfDay w.clock) pausedAt) a) r t
  succeeds : (∃ b, r = .ok b) ↔ w.refusesTotals = false

/-- A refresh of an allocation that is neither revoked nor to be marked as expired. -/
theorem ends_refreshUsage_counts (hfound : findAllocation id w = some a) (hrevoked : a.status ≠ .revoked)
    (hlapses : ¬ (a.expiresAt ≤ w.clock ∧ a.status ≠ .expired)) :
    (refreshUsage D id).Ends (exec D.provider) (fun r t =>
      (∃ e, reported D id a w = .error e ∧ r = .error e ∧ findAllocation id t = some a) ∨
        ∃ events, Counts D id a w events r t) w := by
  have hid : a.id = id := by simpa using List.find?_some hfound
  unfold refreshUsage
  rw [select_bind, Prog.ends_stmt, hfound]
  have hlapses' : ¬ (a.expiresAt ≤ (exec D.provider (.select .allocations) w).clock ∧ a.status ≠ .expired) :=
    hlapses
  simp only [if_neg hrevoked]
  rw [dateNow_bind, Prog.ends_stmt]
  simp only [if_neg hlapses']
  rw [newDate_bind, Prog.ends_stmt]
  have hkept : ∀ t : World P, t.allocations = w.allocations → findAllocation id t = some a := by
    intro t ht
    unfold findAllocation
    rw [ht]
    exact hfound
  refine (ends_pullUsage _ _ hid).bind (fun used t ⟨hrows, _, hrefuses, htold⟩ => ?_)
    fun e t ⟨hrows, _, _, htold⟩ => ?_
  · rcases htold with ⟨e, -, h⟩ | ⟨events, htold, hused, hstored⟩
    · cases h
    · refine (ends_saveUsage (hkept t hrows) used _).mono fun r t' ⟨hrow, hok, hevents⟩ => .inr ⟨events, htold, ?_, ?_, ?_⟩
      · exact hevents.trans hstored
      · obtain rfl := Except.ok.inj hused
        exact hrow
      · rw [hok, hrefuses]
        rfl
  · rcases htold with ⟨e', htold, h⟩ | ⟨events, -, h, -⟩
    · cases h
      exact .inl ⟨e, htold, rfl, hkept t hrows⟩
    · cases h

/-- **A refresh.** -/
theorem ends_refreshUsage (hfound : findAllocation id w = some a) :
    (refreshUsage D id).Ends (exec D.provider)
      (LeavesRow id a (a.RefreshedTo D.calendar w.clock (EventsKnown D id a w))) w := by
  unfold AllocationRow.RefreshedTo
  by_cases hrevoked : a.status = .revoked
  · unfold refreshUsage
    rw [select_bind, Prog.ends_stmt, hfound]
    simp only [if_pos hrevoked]
    exact ⟨rfl, hfound⟩
  simp only [if_neg hrevoked]
  by_cases hlapses : a.expiresAt ≤ w.clock ∧ a.status ≠ .expired
  · unfold refreshUsage
    rw [select_bind, Prog.ends_stmt, hfound]
    have hlapses' : a.expiresAt ≤ (exec D.provider (.select .allocations) w).clock ∧ a.status ≠ .expired :=
      hlapses
    simp only [if_neg hrevoked]
    rw [dateNow_bind, Prog.ends_stmt]
    simp only [if_pos hlapses, if_pos hlapses']
    refine (ends_updateAllocationRow AllocationRow.lapsed (fun _ => rfl) ?_).mono
      fun r w' hrow => hrow.mono fun b hb => ⟨_, hb⟩
    exact hfound
  · simp only [if_neg hlapses]
    have hid : a.id = id := by simpa using List.find?_some hfound
    refine (ends_refreshUsage_counts hfound hrevoked hlapses).mono fun r t hends => ?_
    rcases hends with ⟨e, -, rfl, hrow⟩ | ⟨events, hcounts⟩
    · exact hrow
    · refine hcounts.leaves.mono fun b ⟨now, pausedAt, hb⟩ => ⟨_, now, pausedAt, fun hknown => ?_, hb⟩
      -- nothing is new
      have hnew : newEvents id w.usageEvents events = [] := by
        have htold := hcounts.told
        unfold reported at htold
        split at htold
        · rename_i hactive
          exact newEvents_eq_nil (hknown.resolve_left (not_not.mpr hactive) events htold)
        · cases htold
          rfl
      rw [AllocationRow.countedWith, hid, hnew]
      rfl

/-- A second refresh has nothing to do after one that finds the allocation like this: it was revoked, or
its expiry lies ahead, or it has no limit to reach and no day to begin. -/
def AllocationRow.Steady (C : Calendar) (now : Date) (a : AllocationRow) : Prop :=
  a.status = .revoked ∨ now < a.expiresAt ∨ ¬ a.Reached (a.counted C (C.startOfDay now)) ∧
    (a.status = .expired ∨ a.usageDay = some (C.startOfDay now))

/-- Status, totals and usage day are the same. -/
structure SameFigures (a b : AllocationRow) : Prop where
  status : b.status = a.status
  usedBytes : b.usedBytes = a.usedBytes
  usedTodayBytes : b.usedTodayBytes = a.usedTodayBytes
  usageDay : b.usageDay = a.usageDay

/-- Nothing is reset on the counted day. -/
theorem AllocationRow.counted_of_usageDay (hday : a.usageDay = some (C.startOfDay today)) :
    a.counted C (C.startOfDay today) = ⟨a.usedBytes, a.usedTodayBytes⟩ := by
  have hsame : ¬ a.DayChanged C (C.startOfDay today) := by
    unfold AllocationRow.DayChanged
    rw [hday]
    simp [C.idem]
  unfold AllocationRow.counted
  rw [if_neg hsame]

/-- What is counted again is left as it is, unless a limit is reached that had not been. -/
theorem sameFigures_refreshed {t pausedAt : Date} : SameFigures a (touch t (AllocationRow.refreshed
    (a.counted C (C.startOfDay today)) (C.startOfDay today) pausedAt) a) ↔
      (a.Reached (a.counted C (C.startOfDay today)) → a.status = .paused) ∧
        a.usageDay = some (C.startOfDay today) := by
  by_cases hreached : a.Reached (a.counted C (C.startOfDay today))
  · rw [refreshed_of_reached hreached]
    constructor
    · exact fun h => ⟨fun _ => h.status.symm, h.usageDay.symm⟩
    · rintro ⟨hpaused, hday⟩
      have hcounted := AllocationRow.counted_of_usageDay hday
      exact ⟨(hpaused hreached).symm, congrArg Usage.total hcounted, congrArg Usage.today hcounted, hday.symm⟩
  · rw [refreshed_of_not_reached hreached]
    constructor
    · exact fun h => ⟨fun h' => absurd h' hreached, h.usageDay.symm⟩
    · rintro ⟨-, hday⟩
      have hcounted := AllocationRow.counted_of_usageDay hday
      exact ⟨rfl, congrArg Usage.total hcounted, congrArg Usage.today hcounted, hday.symm⟩

/-- **Two refreshes of one row.** -/
theorem AllocationRow.RefreshedTo.again {now now' : Date} {known : Prop} {b c : AllocationRow}
    (hfirst : a.RefreshedTo C now known b) (hsecond : b.RefreshedTo C now' True c)
    (hday : C.startOfDay now' = C.startOfDay now) (hlater : now ≤ now')
    (hexpiry : b.expiresAt ≤ now' → b.expiresAt ≤ now) : SameFigures b c ↔ a.Steady C now := by
  unfold AllocationRow.RefreshedTo at hfirst
  split at hfirst
  · rename_i hrevoked
    subst hfirst
    unfold AllocationRow.RefreshedTo at hsecond
    rw [if_pos hrevoked] at hsecond
    subst hsecond
    exact iff_of_true ⟨rfl, rfl, rfl, rfl⟩ (.inl hrevoked)
  rename_i hrevoked
  split at hfirst
  · -- The first refresh marks it expired; the second counts it all the same.
    rename_i hlapses
    obtain ⟨t, rfl⟩ := hfirst
    unfold AllocationRow.RefreshedTo at hsecond
    rw [if_neg (by simp [touch, AllocationRow.lapsed]), if_neg (by simp [touch, AllocationRow.lapsed])] at hsecond
    obtain ⟨used, t', pausedAt, hused, rfl⟩ := hsecond
    rw [hused (.inr trivial), hday, sameFigures_refreshed]
    have hstatus : (touch t AllocationRow.lapsed a).status ≠ .paused := by simp [touch, AllocationRow.lapsed]
    constructor
    · exact fun ⟨hreached, hday⟩ => .inr (.inr ⟨fun h => hstatus (hreached h), .inr hday⟩)
    · rintro (h | h | ⟨hreached, hday⟩)
      · exact absurd h hrevoked
      · exact absurd hlapses.1 (not_le_of_gt h)
      · exact ⟨fun h => absurd h hreached, hday.resolve_left hlapses.2⟩
  · rename_i hlapses
    obtain ⟨used, t, pausedAt, hused, rfl⟩ := hfirst
    by_cases hreached : a.Reached used
    · -- The first refresh pauses it; the second marks it expired if it is past its expiry.
      rw [refreshed_of_reached hreached] at hsecond hexpiry ⊢
      unfold AllocationRow.RefreshedTo at hsecond
      rw [if_neg (by simp [touch, AllocationRow.pausedAtDate])] at hsecond
      split at hsecond
      · rename_i hlapses'
        obtain ⟨t', rfl⟩ := hsecond
        have hpast : a.expiresAt ≤ now := hexpiry hlapses'.1
        have hexpired : a.status = .expired := by
          by_contra hnot
          exact hlapses ⟨hpast, hnot⟩
        refine iff_of_false (fun h => nomatch h.status) ?_
        rintro (h | h | ⟨h, -⟩)
        · exact hrevoked h
        · exact absurd hpast (not_le_of_gt h)
        · exact h (hused (.inl (by simp [hexpired])) ▸ hreached)
      · rename_i hlapses'
        obtain ⟨used', t', pausedAt', hused', rfl⟩ := hsecond
        rw [hused' (.inr trivial), hday, sameFigures_refreshed]
        refine iff_of_true ⟨fun _ => rfl, rfl⟩ (.inr (.inl ?_))
        by_contra hpast
        exact hlapses' ⟨show a.expiresAt ≤ now' from (not_lt.mp hpast).trans hlater,
          by simp [touch, AllocationRow.pausedAtDate]⟩
    · rw [refreshed_of_not_reached hreached] at hsecond hexpiry ⊢
      unfold AllocationRow.RefreshedTo at hsecond
      split at hsecond
      · rename_i hrevoked'
        exact absurd hrevoked' hrevoked
      split at hsecond
      · rename_i hlapses'
        exact absurd ⟨hexpiry hlapses'.1, hlapses'.2⟩ hlapses
      · obtain ⟨used', t', pausedAt', hused', rfl⟩ := hsecond
        rw [hused' (.inr trivial), hday, sameFigures_refreshed]
        refine iff_of_true ⟨fun h => absurd ?_ hreached, rfl⟩ ?_
        · rw [AllocationRow.counted_of_usageDay (by rfl)] at h
          exact h
        · by_cases hpast : a.expiresAt ≤ now
          · have hexpired : a.status = .expired := by
              by_contra hnot
              exact hlapses ⟨hpast, hnot⟩
            exact .inr (.inr ⟨hused (.inl (by simp [hexpired])) ▸ hreached, .inl hexpired⟩)
          · exact .inr (.inl (not_le.mp hpast))

/-- After a refresh that answered an allocation nothing has happened to it: it is as it was left, on the
same day, its expiry has not passed in between, and the provider reports nothing new. -/
structure NothingNew (D : Deployment P) (id : String) (w w' : World P) (b : AllocationRow) : Prop where
  first : ((refreshUsage D id).runAlone (exec D.provider) w).1 = .ok b
  row : findAllocation id w' = some b
  later : w.clock ≤ w'.clock
  day : D.calendar.startOfDay w'.clock = D.calendar.startOfDay w.clock
  expiry : b.expiresAt ≤ w'.clock → b.expiresAt ≤ w.clock
  events : EventsKnown D id b w'

/-- **A second refresh.** -/
theorem NothingNew.settles {w' : World P} {b : AllocationRow} (h : NothingNew D id w w' b)
    (hfound : findAllocation id w = some a) :
    ∃ c, findAllocation id ((refreshUsage D id).runAlone (exec D.provider) w').2 = some c ∧
      (a.Steady D.calendar w.clock → SameFigures b c) ∧
      ((refreshUsage D id).Succeeds (exec D.provider) w' → SameFigures b c → a.Steady D.calendar w.clock) := by
  have hfirst : LeavesRow id a _ _ _ := ends_refreshUsage (D := D) hfound
  rw [h.first] at hfirst
  have hsecond : LeavesRow id b _ _ _ := ends_refreshUsage (D := D) h.row
  unfold Prog.Succeeds
  cases hr : ((refreshUsage D id).runAlone (exec D.provider) w').1 with
  | error e =>
    rw [hr] at hsecond
    exact ⟨b, hsecond, fun _ => ⟨rfl, rfl, rfl, rfl⟩, fun ⟨c, hc⟩ => nomatch hc⟩
  | ok c =>
    rw [hr] at hsecond
    have hknown : b.RefreshedTo D.calendar w'.clock True c := by
      have hto := hsecond.1
      rwa [eq_true h.events] at hto
    have hagain := hfirst.1.again hknown h.day h.later h.expiry
    exact ⟨c, hsecond.2, hagain.mpr, fun _ => hagain.mp⟩

end Refresh

/-- **The lifecycle of an allocation.** In a run in which nothing overrides a status, an allocation leaves
`revoked` only by a new pass of its member, and `expired` only by a new pass or with its expiry ahead. A
second refresh leaves status, totals and usage day alone, exactly when the first finds the allocation
steady. -/
theorem allocation_lifecycle (D : Deployment P) (F : Account.Platform) :
    (∀ w moves, AllocationsKeyed w → (∀ step ∈ (run D F w moves).log.history, ¬ Overrides step) →
      ∀ step ∈ (run D F w moves).log.history, ∀ a b,
        (Leaves D.provider .revoked step a b → NewPass step a) ∧
        (Leaves D.provider .expired step a b → NewPass step a ∨ step.before.clock < a.expiresAt)) ∧
    (∀ id a b w w', findAllocation id w = some a → NothingNew D id w w' b →
      ∃ c, findAllocation id ((refreshUsage D id).runAlone (exec D.provider) w').2 = some c ∧
        (a.Steady D.calendar w.clock → SameFigures b c) ∧
        ((refreshUsage D id).Succeeds (exec D.provider) w' → SameFigures b c →
          a.Steady D.calendar w.clock)) := by
  refine ⟨fun w moves hkeyed hcond step hstep a b => ?_, fun id a b w w' hfound h => h.settles hfound⟩
  obtain ⟨htold, -⟩ := told_run D F w moves
  have hdoes : ∀ step ∈ (run D F w moves).log.history, Does step.request step.write := by
    intro step hstep
    obtain ⟨_, -, htold⟩ := htold.of_mem hstep
    exact htold.1
  have hkept := (kept_allocations D F).run hkeyed [] moves
  rw [List.nil_append] at hkept
  obtain ⟨-, hchain⟩ := hkept hdoes
  obtain ⟨earlier, hsuffix, htoldstep⟩ := htold.of_mem hstep
  -- What the thread left in the members is still there.
  have hstay : ∀ s ∈ earlier.filter (·.thread = step.thread),
      MembersStay (exec D.provider s.write s.before) step.before := by
    intro s hs
    exact (List.pairwise_cons.mp (hchain.between.sublist hsuffix.sublist)).1 s (List.mem_filter.mp hs).1
  have hone : ∀ status, Leaves D.provider status step a b → a.Over step.before.clock → NewPass step a :=
    fun status hleaves ha =>
      hleaves.newPass htoldstep (hcond step hstep) ha (hchain.before step hstep).1 hstay
  constructor
  · exact fun hleaves => hone _ hleaves (.inl hleaves.was)
  · intro hleaves
    by_cases hahead : step.before.clock < a.expiresAt
    · exact .inr hahead
    · exact .inl (hone _ hleaves (.inr ⟨hleaves.was, not_lt.mp hahead⟩))

/-! ## A revoked allocation that is resumed -/

/-- An allocation of the guest. -/
def allocationOf (status : AllocationStatus) : AllocationRow :=
  { id := "a1"
    poolId := "pool"
    spaceId := "space"
    memberId := "m2"
    status := status
    totalBytes := 40
    dailyBytes := none
    usedBytes := 0
    usedTodayBytes := 0
    usageDay := none
    expiresAt := 2000
    allowResharing := false
    updatedAt := 0
    pausedAt := none
    revokedAt := none }

/-- The allocation of the guest after a new pass. -/
def renewed : AllocationRow := { allocationOf .active with totalBytes := 30, updatedAt := 1000 }

/-- A Space with the guest, an allocation and a pass. -/
def withGuest (status : AllocationStatus) : World Unit := { quietSpace with
  members := quietSpace.members ++ [⟨"m2", "space", ben, "invited_member", dataOnlyPermissions, false, some 2000, 0⟩]
  allocations := [allocationOf status]
  invitations := [passOf "p1" "token-1" (some 30)] }

/-- The guest claims a new pass. -/
def benClaimsAgain : List (Move Request (Outside Unit)) := served 0 (.claimPass ben "token-1" noContext) 16

/-- The owner resumes the data of the guest. -/
def adaResumes : List (Move Request (Outside Unit)) :=
  served 0 (.pauseAllocation ada "space" "m2" false noContext) 12

/-- A new pass takes a revoked allocation out of its status, and a second refresh changes nothing. -/
theorem allocation_lifecycle_benClaimsAgain :
    (∃ step ∈ (run home frontDesk (withGuest .revoked) benClaimsAgain).log.history, ∃ a b,
      Leaves quietProvider .revoked step a b ∧ NewPass step a) ∧
    ∃ c, findAllocation "a1" ((refreshUsage home "a1").runAlone (exec quietProvider)
        ((refreshUsage home "a1").runAlone (exec quietProvider) (withGuest .active)).2).2 = some c ∧
      SameFigures (touch 1000 (fun a => a.withUsage ⟨0, 0⟩ 0) (allocationOf .active)) c := by
  have hkeyed : AllocationsKeyed (withGuest .revoked) := by
    unfold AllocationsKeyed
    decide
  constructor
  · have hstep : (run home frontDesk (withGuest .revoked) benClaimsAgain).log.history[3]? = some _ := rfl
    have hmem := List.mem_of_getElem? hstep
    have hleft : AllocationStatus.active ≠ .revoked := by decide
    have hone := ((allocation_lifecycle home frontDesk).1 _ _ hkeyed (by decide) _ hmem
      (allocationOf .revoked) renewed).1
    refine ⟨_, hmem, allocationOf .revoked, renewed, ?_, hone ?_⟩
    · exact ⟨List.mem_cons_self, List.mem_cons_self, rfl, rfl, hleft⟩
    · exact ⟨List.mem_cons_self, List.mem_cons_self, rfl, rfl, hleft⟩
  · have hnew : NothingNew home "a1" (withGuest .active)
        ((refreshUsage home "a1").runAlone (exec quietProvider) (withGuest .active)).2
        (touch 1000 (fun a => a.withUsage ⟨0, 0⟩ 0) (allocationOf .active)) :=
      ⟨rfl, rfl, le_refl _, rfl, fun h => h, fun events h e he => by
        rw [← Except.ok.inj h] at he
        exact absurd he List.not_mem_nil⟩
    obtain ⟨c, hc, hsame, -⟩ := (allocation_lifecycle home frontDesk).2 "a1" _ _ _ _ rfl hnew
    exact ⟨c, hc, hsame (.inr (.inl (by decide)))⟩

/-- A revoked allocation is active again, though its member claims nothing. -/
theorem revoked_resumed :
    (run home frontDesk (withGuest .revoked) adaResumes).Answered 0
        (.pauseAllocation ada "space" "m2" false noContext) (.status .active) ∧
      ∃ step ∈ (run home frontDesk (withGuest .revoked) adaResumes).log.history, ∃ a b,
        Leaves quietProvider .revoked step a b ∧ b.status = .active ∧ ¬ NewPass step a := by
  refine ⟨rfl, ?_⟩
  have hstep : (run home frontDesk (withGuest .revoked) adaResumes).log.history[1]? = some _ := rfl
  have hleft : AllocationStatus.active ≠ .revoked := by decide
  refine ⟨_, List.mem_of_getElem? hstep, allocationOf .revoked,
    { allocationOf .active with updatedAt := 1000 },
    ⟨List.mem_cons_self, List.mem_cons_self, rfl, rfl, hleft⟩, rfl, fun h => ?_⟩
  obtain ⟨_, -, -, _, _, hrequest⟩ := h.request
  cases hrequest

end Sharing
