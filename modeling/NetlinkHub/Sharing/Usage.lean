import NetlinkHub.Sharing.Lifecycle

/-! # Usage is conserved

`refreshUsage` stores what the provider reports event by event, each at most once, and then sets the
counters of the allocation to what it has read plus what it has stored. In a run in which each refresh finds
the counters that it has read, finds no event of a new day counted before, and is not refused the update
after it has stored bytes, nothing is counted twice and nothing stored is left uncounted
(`usage_conserved`). -/

namespace Sharing

open Api (Date HttpException RequestContext Token)
open Concurrent (Config Kept Log Machine Move Prog Step Upholds)
open Table (Op)

variable {P : Type}

/-! ## Refreshes -/

/-- Any number of `refreshUsage` calls, statement by statement; a request is the allocation. -/
def usageMachine (D : Deployment P) :
    Machine (World P) Write HttpException String (Outside P) AllocationRow :=
  ⟨refreshUsage D, exec D.provider, outside⟩

/-- The control plane after such a run. -/
abbrev usageRun (D : Deployment P) (w : World P) (moves : List (Move String (Outside P))) :
    Config (World P) Write HttpException String AllocationRow :=
  Run.run (usageMachine D).step moves (Config.initial w)

/-- The log of such a run. -/
abbrev UsageLog (P : Type) := Log (World P) Write String

/-- A statement of such a run. -/
abbrev UsageStep (P : Type) := Step (World P) Write String

/-! ## Bytes -/

/-- The bytes of some events. -/
def bytesOf (p : UsageEventRow → Bool) (rows : List UsageEventRow) : Nat :=
  ((rows.filter p).map (·.bytes)).sum

/-- The event is of the allocation. -/
def UsageEventRow.For (id : String) (e : UsageEventRow) : Bool := e.allocationId = id

/-- The event is of the allocation and of the day. -/
def UsageEventRow.On (C : Calendar) (id : String) (day : Option Date) (e : UsageEventRow) : Bool :=
  e.allocationId = id ∧ day.any fun d => C.startOfDay d = C.startOfDay e.occurredAt

/-- The counters of an allocation are those of the distinct events that are stored for it. -/
structure Conserved (C : Calendar) (id : String) (w : World P) : Prop where
  distinct : (w.usageEvents.map (·.providerRef)).Nodup
  used : ∀ a ∈ w.allocations, a.id = id → a.usedBytes = bytesOf (·.For id) w.usageEvents
  today : ∀ a ∈ w.allocations, a.id = id → a.usedTodayBytes = bytesOf (·.On C id a.usageDay) w.usageEvents

variable {p : UsageEventRow → Bool} {rows rows' : List UsageEventRow}

@[simp] theorem bytesOf_nil : bytesOf p [] = 0 := rfl

theorem bytesOf_append : bytesOf p (rows ++ rows') = bytesOf p rows + bytesOf p rows' := by
  simp [bytesOf]

theorem bytesOf_cons (e : UsageEventRow) :
    bytesOf p (e :: rows) = (if p e then e.bytes else 0) + bytesOf p rows := by
  by_cases h : p e <;> simp [bytesOf, h]

theorem bytesOf_perm (h : rows.Perm rows') : bytesOf p rows = bytesOf p rows' :=
  ((h.filter p).map _).sum_eq

/-- Events without bytes do not count. -/
theorem bytesOf_eq_zero (h : ∀ e ∈ rows, p e → e.bytes = 0) : bytesOf p rows = 0 := by
  refine List.sum_eq_zero fun n hn => ?_
  obtain ⟨e, he, rfl⟩ := List.mem_map.mp hn
  obtain ⟨he, hp⟩ := List.mem_filter.mp he
  exact h e he hp

theorem bytesOf_pos : bytesOf p rows = bytesOf (fun e => p e ∧ e.bytes ≠ 0) rows := by
  induction rows with
  | nil => rfl
  | cons e rows ih =>
    rw [bytesOf_cons, bytesOf_cons, ih]
    by_cases hp : p e <;> by_cases hbytes : e.bytes = 0 <;> simp [hp, hbytes]

/-- Two lists without repetitions have the same bytes if they have the same events that count. -/
theorem bytesOf_eq (h : rows.Nodup) (h' : rows'.Nodup)
    (hmem : ∀ e, p e → e.bytes ≠ 0 → (e ∈ rows ↔ e ∈ rows')) : bytesOf p rows = bytesOf p rows' := by
  have hpos : bytesOf p rows' = bytesOf (fun e => p e ∧ e.bytes ≠ 0) rows' := bytesOf_pos
  rw [bytesOf_pos, hpos]
  have hperm : (rows.filter fun e => p e ∧ e.bytes ≠ 0).Perm (rows'.filter fun e => p e ∧ e.bytes ≠ 0) := by
    refine (List.perm_ext_iff_of_nodup (h.filter _) (h'.filter _)).mpr fun e => ?_
    simp only [List.mem_filter, decide_eq_true_eq]
    constructor
    · rintro ⟨he, hp, hbytes⟩
      exact ⟨(hmem e hp hbytes).mp he, hp, hbytes⟩
    · rintro ⟨he, hp, hbytes⟩
      exact ⟨(hmem e hp hbytes).mpr he, hp, hbytes⟩
  exact (hperm.map _).sum_eq

/-! ## What has been stored, and what has been counted -/

/-- The event that a statement has stored. -/
def stored (step : UsageStep P) : Option UsageEventRow :=
  match step.write with
  | .createUsageEvent row => if step.before.usageEvents.any row.Clashes then none else some row
  | _ => none

/-- The events that some statements have stored. -/
def storedBy (steps : List (UsageStep P)) : List UsageEventRow := steps.filterMap stored

/-- The statement is the update of the counters. -/
def Write.SetsTotals : Write → Bool
  | .updateTotals .. => true
  | _ => false

/-- A thread has come to its update of the counters. -/
def Tallied (k : Nat) (history : List (UsageStep P)) : Bool :=
  history.any fun s => s.thread = k ∧ s.write.SetsTotals

/-- The events of refreshes that have still to count them. -/
def pending (history : List (UsageStep P)) : List UsageEventRow :=
  storedBy (history.filter fun s => ¬ Tallied s.thread history)

/-- The first statements of a refresh: it has read the allocation, and which day it is. -/
def Began (C : Calendar) (id : String) (a₀ : AllocationRow) (today : Date) (own : List (UsageStep P)) : Prop :=
  ∃ rest clock now read, own = rest ++ [clock, now, read] ∧ findAllocation id read.before = some a₀ ∧
    today = C.startOfDay clock.before.clock

/-- The update of the counters of an allocation comes in time. If the database takes it, the row says of
the day what the refresh has read of it, and where the day is new to the row, its events are of refreshes
that have still to count them. If the database refuses it, the refresh has stored no bytes. -/
structure InTime (C : Calendar) (id : String) (step : UsageStep P) (earlier : List (UsageStep P)) : Prop where
  kept : ∀ data, step.write = .updateTotals id data → step.before.refusesTotals = false →
    ∀ a₀ today, Began C id a₀ today (earlier.filter (·.thread = step.thread)) →
      ∀ a ∈ step.before.allocations, a.id = id → a.counted C today = a₀.counted C today
  fresh : ∀ data, step.write = .updateTotals id data → step.before.refusesTotals = false →
    ∀ a₀ today, Began C id a₀ today (earlier.filter (·.thread = step.thread)) →
      ∀ a ∈ step.before.allocations, a.id = id → a.DayChanged C today →
        ∀ e ∈ step.before.usageEvents, e.On C id (some today) → e.bytes ≠ 0 → e ∈ pending earlier
  spared : ∀ data, step.write = .updateTotals id data → step.before.refusesTotals = true →
    ∀ e ∈ storedBy (earlier.filter (·.thread = step.thread)), e.bytes = 0

variable {step : UsageStep P} {history own : List (UsageStep P)} {k : Nat} {A : DataProviderAdapter P}

theorem storedBy_append (l l' : List (UsageStep P)) : storedBy (l ++ l') = storedBy l ++ storedBy l' :=
  List.filterMap_append ..

theorem storedBy_cons (step : UsageStep P) (l : List (UsageStep P)) :
    storedBy (step :: l) = (stored step).toList ++ storedBy l := by
  unfold storedBy
  rw [List.filterMap_cons]
  cases stored step <;> rfl

theorem tallied_iff : Tallied k history ↔ ∃ s ∈ history, s.thread = k ∧ s.write.SetsTotals := by
  unfold Tallied
  rw [List.any_eq_true]
  simp only [decide_eq_true_eq]

/-- A statement that does not set the counters settles nothing. -/
theorem tallied_cons (h : step.write.SetsTotals = false) : Tallied k (step :: history) = Tallied k history := by
  unfold Tallied
  simp [h]

/-- What is still to be counted after a statement that does not set the counters. -/
theorem pending_cons (h : step.write.SetsTotals = false) (hopen : Tallied step.thread history = false) :
    pending (step :: history) = (stored step).toList ++ pending history := by
  unfold pending
  simp only [tallied_cons h]
  rw [List.filter_cons_of_pos (by simp [hopen]), storedBy_cons]

/-- What a statement that stores nothing leaves to be counted. -/
theorem pending_other (h : step.write.SetsTotals = false) (hstored : stored step = none) :
    pending (step :: history) = pending history := by
  unfold pending
  simp only [tallied_cons h, List.filter_cons]
  split
  · rw [storedBy_cons, hstored]
    rfl
  · rfl

/-- The update of the counters takes what its thread has stored out of what is still to be counted. -/
theorem pending_settles (h : step.write.SetsTotals = true) (hopen : Tallied step.thread history = false) :
    bytesOf p (pending history) = bytesOf p (pending (step :: history)) +
      bytesOf p (storedBy (history.filter (·.thread = step.thread))) := by
  have hsettles : ∀ s : UsageStep P, Tallied s.thread (step :: history) =
      (decide (step.thread = s.thread) || Tallied s.thread history) := by
    intro s
    unfold Tallied
    simp [h]
  have hlater : pending (step :: history) =
      storedBy (history.filter fun s => ¬ Tallied s.thread history ∧ s.thread ≠ step.thread) := by
    unfold pending
    rw [List.filter_cons_of_neg (by simp [hsettles])]
    congr 1
    refine List.filter_congr fun s _ => ?_
    rw [hsettles]
    by_cases hthread : s.thread = step.thread
    · simp [hthread]
    · simp [hthread, Ne.symm hthread]
  have hsplit := List.filter_append_perm (fun s : UsageStep P => decide (s.thread ≠ step.thread))
    (history.filter fun s => ¬ Tallied s.thread history)
  rw [List.filter_filter, List.filter_filter] at hsplit
  rw [hlater, ← bytesOf_append, ← storedBy_append]
  refine bytesOf_perm (List.Perm.filterMap stored ?_)
  refine hsplit.symm.trans (List.Perm.append (.of_eq ?_) (.of_eq ?_))
  · refine List.filter_congr fun s _ => ?_
    simp [and_comm]
  · refine List.filter_congr fun s hs => ?_
    by_cases hthread : s.thread = step.thread
    · simp [hthread, hopen]
    · simp [hthread]

/-- **The table of events** grows by what a statement stores. -/
theorem usageEvents_exec (step : UsageStep P) : (exec A step.write step.before).usageEvents =
    step.before.usageEvents ++ (stored step).toList := by
  obtain ⟨k, q, w, s⟩ := step
  cases w with
  | createUsageEvent row =>
    simp only [exec, stored, Table.apply_insert]
    split
    · simp
    · rfl
  | createSpace space owner =>
    simp only [exec, stored, Option.toList_none, List.append_nil]
    split <;> rfl
  | updateTotals id data =>
    simp only [exec, stored, Option.toList_none, List.append_nil]
    split <;> rfl
  | _ => exact (List.append_nil _).symm

theorem pending_sublist : (pending history).Sublist (storedBy history) :=
  List.Sublist.filterMap stored List.filter_sublist

/-! ## What a refresh has done before -/

/-- What a refresh has counted: what it has read, and what it has stored. -/
structure Counting (C : Calendar) (id : String) (a₀ : AllocationRow) (today : Date)
    (own : List (UsageStep P)) (used : Usage) : Prop where
  began : Began C id a₀ today own
  still : ∀ s ∈ own, s.write.SetsTotals = false
  rows : ∀ e ∈ storedBy own, e.allocationId = id
  total : used.total = (a₀.counted C today).total + bytesOf (·.For id) (storedBy own)
  today : used.today = (a₀.counted C today).today + bytesOf (·.On C id (some today)) (storedBy own)

/-- The update sets the counters. -/
structure SetsTo (used : Usage) (date : Date) (data : AllocationRow → AllocationRow) : Prop where
  id : ∀ a, (data a).id = a.id
  total : ∀ a, (data a).usedBytes = used.total
  today : ∀ a, (data a).usedTodayBytes = used.today
  day : ∀ a, (data a).usageDay = some date

/-- What is known of a statement, by the earlier ones of its thread. -/
def ToldUsage (C : Calendar) (step : UsageStep P) (own : List (UsageStep P)) : Prop :=
  match step.write with
  | .updateTotals id data => ∃ a₀ today used, Counting C id a₀ today own used ∧ SetsTo used today data
  | .createUsageEvent _ => ∀ s ∈ own, s.write.SetsTotals = false
  | .updateAllocation _ data => data = AllocationRow.lapsed
  | .upsertAllocation .. => False
  | _ => True

/-- Who has stored something has come to the update of the counters. -/
def Accounted (own : List (UsageStep P)) : Prop :=
  storedBy own = [] ∨ ∃ s ∈ own, s.write.SetsTotals

variable {C : Calendar} {id : String} {a₀ : AllocationRow} {today : Date} {used : Usage} {q : String}
  {s : World P} {D : Deployment P}

theorem Began.later (h : Began C id a₀ today own) : Began C id a₀ today (step :: own) := by
  obtain ⟨rest, clock, now, read, rfl, hread⟩ := h
  exact ⟨step :: rest, clock, now, read, rfl, hread⟩

/-- A statement that neither stores nor sets counters. -/
theorem Counting.later (h : Counting C id a₀ today own used) (hsets : step.write.SetsTotals = false)
    (hstored : stored step = none) : Counting C id a₀ today (step :: own) used := by
  have hrows : storedBy (step :: own) = storedBy own := by rw [storedBy_cons, hstored]; rfl
  refine ⟨h.began.later, fun s hs => ?_, hrows ▸ h.rows, hrows ▸ h.total, hrows ▸ h.today⟩
  rcases List.mem_cons.mp hs with rfl | hs
  · exact hsets
  · exact h.still s hs

theorem ProviderUsageEvent.for_row (event : ProviderUsageEvent) : (event.row id).For id = true := by
  simp [UsageEventRow.For, ProviderUsageEvent.row]

theorem ProviderUsageEvent.on_row (hday : C.startOfDay today = today) (event : ProviderUsageEvent) :
    (event.row id).On C id (some today) = true ↔ C.startOfDay event.occurredAt = today := by
  simp [UsageEventRow.On, ProviderUsageEvent.row, hday, eq_comm]

/-- An event is counted if it has been stored. -/
theorem Counting.store (h : Counting C id a₀ today own used) (hday : C.startOfDay today = today)
    (event : ProviderUsageEvent) : Counting C id a₀ today
      (⟨k, q, .createUsageEvent (event.row id), s⟩ :: own)
      (if ¬ s.usageEvents.any (event.row id).Clashes then used.add C today event else used) := by
  have hstored : stored (⟨k, q, .createUsageEvent (event.row id), s⟩ : UsageStep P) =
      if s.usageEvents.any (event.row id).Clashes then none else some (event.row id) := rfl
  by_cases hclash : s.usageEvents.any (event.row id).Clashes
  · rw [if_neg (by simpa using hclash)]
    exact h.later rfl (by rw [hstored, if_pos hclash])
  · rw [if_pos hclash]
    have hrows : storedBy (⟨k, q, .createUsageEvent (event.row id), s⟩ :: own) =
        event.row id :: storedBy own := by rw [storedBy_cons, hstored, if_neg hclash]; rfl
    refine ⟨h.began.later, fun s hs => ?_, ?_, ?_, ?_⟩
    · rcases List.mem_cons.mp hs with rfl | hs
      · rfl
      · exact h.still s hs
    · rw [hrows]
      intro e he
      rcases List.mem_cons.mp he with rfl | he
      · rfl
      · exact h.rows e he
    · rw [hrows, bytesOf_cons, if_pos event.for_row, Usage.add, h.total]
      show _ + event.bytes = _ + (event.bytes + _)
      omega
    · rw [hrows, bytesOf_cons, Usage.add, h.today]
      simp only [event.on_row hday]
      split
      · show _ + event.bytes = _ + (event.bytes + _)
        omega
      · omega

/-- What is known when the counting is over. -/
def Counted (C : Calendar) (id : String) (a₀ : AllocationRow) (today : Date) :
    Except HttpException Usage → List (UsageStep P) → Prop
  | .ok used, own => Counting C id a₀ today own used
  | .error _, own => storedBy own = []

theorem traces_storeEvents (hday : C.startOfDay today = today) (events : List ProviderUsageEvent)
    (h : Counting C id a₀ today own used) :
    (storeEvents C id today events used : Service P Usage).Traces (ToldUsage C) k q
      (Counted C id a₀ today) own := by
  induction events generalizing own used with
  | nil => exact h
  | cons event events ih => exact .stmt (fun s => h.still) fun s => ih (by simpa using h.store hday event)

theorem traces_pullUsage (hday : D.calendar.startOfDay today = today)
    (h : Counting D.calendar id a₀ today own (a₀.counted D.calendar today)) (hnone : storedBy own = []) :
    (pullUsage D id a₀ today).Traces (ToldUsage D.calendar) k q (Counted D.calendar id a₀ today) own := by
  unfold pullUsage
  split
  · rw [ask_bind]
    refine .stmt (fun s => trivial) fun s => ?_
    split
    · show storedBy _ = []
      rw [storedBy_cons, hnone]
      rfl
    · exact traces_storeEvents hday _ (h.later rfl rfl)
  · exact h

theorem traces_saveUsage (h : Counting C id a₀ today own used) :
    (saveUsage id a₀ used today : Service P AllocationRow).Traces (ToldUsage C) k q (fun _ => Accounted)
      own := by
  have hupdate : ∀ data (own : List (UsageStep P)), SetsTo used today data → Counting C id a₀ today own used →
      (updateTotals id data >>= fun updated => do
        Prog.perform (.publish ⟨a₀.spaceId, a₀.memberId, used.total⟩) fun _ => ()
        .done updated : Service P AllocationRow).Traces (ToldUsage C) k q (fun _ => Accounted) own := by
    intro data own hdata h
    have hsettled : ∀ s s' : World P, Accounted (⟨k, q, .publish ⟨a₀.spaceId, a₀.memberId, used.total⟩, s'⟩ ::
        ⟨k, q, .updateTotals id data, s⟩ :: own) := fun s s' =>
      .inr ⟨_, List.mem_cons_of_mem _ List.mem_cons_self, rfl⟩
    unfold updateTotals
    rw [Prog.stmt_bind]
    refine .stmt (fun s => ⟨a₀, today, used, h, hdata⟩) fun s => ?_
    split
    · exact .inr ⟨_, List.mem_cons_self, rfl⟩
    · split
      · exact .inr ⟨_, List.mem_cons_self, rfl⟩
      · exact .stmt (fun s => trivial) fun s' => hsettled s s'
  unfold saveUsage totalsOf
  split
  · exact .stmt (fun s => trivial) fun s =>
      hupdate _ _ ⟨fun _ => rfl, fun _ => rfl, fun _ => rfl, fun _ => rfl⟩ (h.later rfl rfl)
  · exact hupdate _ _ ⟨fun _ => rfl, fun _ => rfl, fun _ => rfl, fun _ => rfl⟩ h

/-- **A refresh.** -/
theorem traces_refreshUsage (D : Deployment P) (k : Nat) (id : String) :
    (refreshUsage D id).Traces (ToldUsage D.calendar) k id (fun _ => Accounted) [] := by
  unfold refreshUsage
  rw [select_bind]
  refine .stmt (fun s => trivial) fun s => ?_
  split
  · exact .inl rfl
  rename_i a₀ hread
  split
  · exact .inl rfl
  rw [dateNow_bind]
  refine .stmt (fun s => trivial) fun s' => ?_
  split
  · refine .stmt (fun s => rfl) fun s'' => ?_
    split <;> exact .inl rfl
  rw [newDate_bind]
  refine .stmt (fun s => trivial) fun s'' => ?_
  have hcounting : Counting D.calendar id a₀ (D.calendar.startOfDay s''.clock)
      [⟨k, id, .account (.api .clock), s''⟩, ⟨k, id, .account .dateNow, s'⟩,
        ⟨k, id, .select .allocations, s⟩] (a₀.counted D.calendar (D.calendar.startOfDay s''.clock)) :=
    ⟨⟨[], _, _, _, rfl, hread, rfl⟩, by simp [Write.SetsTotals], by simp [storedBy, stored], rfl, rfl⟩
  exact (traces_pullUsage (D.calendar.idem _) hcounting rfl).bind (fun used own h => traces_saveUsage h)
    fun e own h => .inl h

/-! ## The invariant -/

/-- The counters of a row are those of the stored events, but for those that are still to be counted. -/
structure Fits (C : Calendar) (id : String) (rows still : List UsageEventRow) (a : AllocationRow) : Prop where
  used : bytesOf (·.For id) rows = a.usedBytes + bytesOf (·.For id) still
  today : bytesOf (·.On C id a.usageDay) rows = a.usedTodayBytes + bytesOf (·.On C id a.usageDay) still

/-- So are those of the allocation, along a run. -/
structure Balanced (C : Calendar) (id : String) (w₀ : World P) (σ : UsageLog P) : Prop where
  events : σ.shared.usageEvents = w₀.usageEvents ++ (storedBy σ.history).reverse
  distinct : (σ.shared.usageEvents.map (·.providerRef)).Nodup
  fits : ∀ a ∈ σ.shared.allocations, a.id = id → Fits C id σ.shared.usageEvents (pending σ.history) a

variable {σ : UsageLog P} {w : Write} {w₀ : World P} {a : AllocationRow} {still still' : List UsageEventRow}

/-! ### One row -/

/-- What is stored is still to be counted. -/
theorem Fits.store (h : Fits C id rows still a) (new : List UsageEventRow)
    (hstill : ∀ p, bytesOf p still' = bytesOf p new + bytesOf p still) : Fits C id (rows ++ new) still' a := by
  have hused := h.used
  have htoday := h.today
  constructor
  · rw [bytesOf_append, hstill]
    omega
  · rw [bytesOf_append, hstill]
    omega

/-- What has no bytes for the allocation need not be counted. -/
theorem Fits.drop (h : Fits C id rows still a) {mine : List UsageEventRow}
    (hstill : ∀ p, bytesOf p still = bytesOf p still' + bytesOf p mine)
    (hnone : ∀ e ∈ mine, e.allocationId = id → e.bytes = 0) : Fits C id rows still' a := by
  have hfor : bytesOf (·.For id) mine = 0 :=
    bytesOf_eq_zero fun e he hp => hnone e he (of_decide_eq_true hp)
  have hon : bytesOf (·.On C id a.usageDay) mine = 0 :=
    bytesOf_eq_zero fun e he hp => hnone e he (of_decide_eq_true hp).1
  constructor
  · rw [h.used, hstill, hfor, Nat.add_zero]
  · rw [h.today, hstill, hon, Nat.add_zero]

/-- A day that is not over is the day of the row. -/
theorem on_of_same_day (hday : C.startOfDay today = today) (h : ¬ a.DayChanged C today) :
    (fun e : UsageEventRow => e.On C id a.usageDay) = fun e => e.On C id (some today) := by
  unfold AllocationRow.DayChanged at h
  cases hu : a.usageDay with
  | none => simp [hu] at h
  | some day =>
    simp only [hu, Option.all_some, decide_eq_true_eq, ne_eq, not_not] at h
    funext e
    simp [UsageEventRow.On, h, hday]

/-- **The update of the counters** counts what its refresh has stored. -/
theorem Fits.count (h : Fits C id rows still a) (hday : C.startOfDay today = today)
    (hcounting : Counting C id a₀ today own used) (hkept : a.counted C today = a₀.counted C today)
    (hstill : ∀ p, bytesOf p still = bytesOf p still' + bytesOf p (storedBy own))
    (hnew : a.DayChanged C today →
      bytesOf (·.On C id (some today)) rows = bytesOf (·.On C id (some today)) still)
    {a' : AllocationRow} (hused : a'.usedBytes = used.total) (htoday : a'.usedTodayBytes = used.today)
    (hsets : a'.usageDay = some today) : Fits C id rows still' a' := by
  have htotal := hcounting.total
  have hthen := hcounting.today
  rw [← hkept] at htotal hthen
  constructor
  · rw [h.used, hstill, hused, htotal]
    show a.usedBytes + _ = a.usedBytes + _ + _
    omega
  · rw [hsets, htoday, hthen]
    by_cases hchanged : a.DayChanged C today
    · have hzero : (a.counted C today).today = 0 := if_pos hchanged
      rw [hnew hchanged, hstill, hzero]
      omega
    · have hsame : (a.counted C today).today = a.usedTodayBytes := if_neg hchanged
      have hold := h.today
      rw [on_of_same_day hday hchanged, hstill] at hold
      rw [hold, hsame]
      omega

/-! ### One statement -/

theorem distinct_exec (h : (s.usageEvents.map (·.providerRef)).Nodup) :
    ((exec A w s).usageEvents.map (·.providerRef)).Nodup := by
  cases w with
  | createUsageEvent row => exact Table.nodup_insert (fun e he => by simp [UsageEventRow.Clashes, he]) h
  | createSpace space owner =>
    simp only [exec]
    split <;> exact h
  | updateTotals id data =>
    simp only [exec]
    split <;> exact h
  | _ => exact h

theorem Balanced.events_perform (h : Balanced C id w₀ σ) :
    (σ.perform (exec A) k q w).shared.usageEvents =
      w₀.usageEvents ++ (storedBy (σ.perform (exec A) k q w).history).reverse := by
  have htable : (exec A w σ.shared).usageEvents = _ :=
    usageEvents_exec (⟨k, q, w, σ.shared⟩ : UsageStep P)
  show (exec A w σ.shared).usageEvents = w₀.usageEvents ++ (storedBy (⟨k, q, w, σ.shared⟩ :: σ.history)).reverse
  rw [htable, h.events, storedBy_cons]
  cases stored (⟨k, q, w, σ.shared⟩ : UsageStep P) <;> simp

/-- Who has not come to its update of the counters has not settled. -/
theorem open_of_still (h : ∀ s ∈ σ.own k, s.write.SetsTotals = false) : Tallied k σ.history = false := by
  refine Bool.eq_false_iff.mpr fun hsettled => ?_
  obtain ⟨s, hs, hthread, hset⟩ := tallied_iff.mp hsettled
  rw [h s (List.mem_filter.mpr ⟨hs, decide_eq_true hthread⟩)] at hset
  cases hset

/-- A row that an update of statuses, or nothing, has touched. -/
theorem counters_kept (htold : ToldUsage C ⟨k, q, w, s⟩ own) (hsets : w.SetsTotals = false) {a' : AllocationRow}
    (ha' : a' ∈ (exec A w s).allocations) : ∃ a ∈ s.allocations, a'.id = a.id ∧
      ∀ rows still, Fits C id rows still a → Fits C id rows still a' := by
  by_cases hw : w.OnAllocations
  · cases w with
    | updateAllocation id data =>
      obtain rfl : data = AllocationRow.lapsed := htold
      obtain ⟨a, ha, rfl⟩ := Table.mem_update.mp ha'
      refine ⟨a, ha, ?_⟩
      split
      · exact ⟨rfl, fun _ _ h => ⟨h.used, h.today⟩⟩
      · exact ⟨rfl, fun _ _ h => h⟩
    | updateTotals id data => cases hsets
    | upsertAllocation row data => exact htold.elim
    | _ => exact hw.elim
  · rw [allocations_exec hw] at ha'
    exact ⟨a', ha', rfl, fun _ _ h => h⟩

/-- A statement that does not set counters adds what it stores to both sides. -/
theorem Balanced.other (h : Balanced C id w₀ σ) (hsets : w.SetsTotals = false)
    (htold : ToldUsage C ⟨k, q, w, σ.shared⟩ (σ.own k)) :
    Balanced C id w₀ (σ.perform (exec A) k q w) := by
  have htable : (exec A w σ.shared).usageEvents = _ :=
    usageEvents_exec (⟨k, q, w, σ.shared⟩ : UsageStep P)
  have hstill : ∀ p, bytesOf p (pending (⟨k, q, w, σ.shared⟩ :: σ.history)) =
      bytesOf p (stored (⟨k, q, w, σ.shared⟩ : UsageStep P)).toList + bytesOf p (pending σ.history) := by
    intro p
    by_cases hstored : stored (⟨k, q, w, σ.shared⟩ : UsageStep P) = none
    · rw [pending_other hsets hstored, hstored]
      simp
    · have hopen : Tallied k σ.history = false := by
        cases w with
        | createUsageEvent row => exact open_of_still htold
        | _ => exact absurd rfl hstored
      rw [pending_cons hsets hopen, bytesOf_append]
  refine ⟨h.events_perform, distinct_exec h.distinct, fun a' ha' hid => ?_⟩
  obtain ⟨a, ha, hid', hkept⟩ := counters_kept htold hsets ha'
  show Fits C id (exec A w σ.shared).usageEvents _ a'
  rw [htable]
  exact hkept _ _ ((h.fits a ha (hid'.symm.trans hid)).store _ hstill)

/-- The events of a new day that count are those that are still to be counted. -/
theorem Balanced.fresh (h : Balanced C id w₀ σ)
    (hfresh : ∀ e ∈ σ.shared.usageEvents, e.On C id (some today) → e.bytes ≠ 0 → e ∈ pending σ.history) :
    bytesOf (·.On C id (some today)) σ.shared.usageEvents =
      bytesOf (·.On C id (some today)) (pending σ.history) := by
  have hdistinct := List.Nodup.of_map _ h.distinct
  have hparts := hdistinct
  rw [h.events] at hparts
  have hstored : (storedBy σ.history).Nodup := List.nodup_reverse.mp (List.nodup_append.mp hparts).2.1
  have hsubset : pending σ.history ⊆ σ.shared.usageEvents := by
    intro e he
    rw [h.events]
    exact List.mem_append_right _ (List.mem_reverse.mpr (pending_sublist.subset he))
  exact bytesOf_eq hdistinct (hstored.sublist pending_sublist) fun e hp hbytes =>
    ⟨fun he => hfresh e he hp hbytes, fun he => hsubset he⟩

/-- The update of counters that comes in time. -/
theorem Balanced.settles {id' : String} {data : AllocationRow → AllocationRow} (h : Balanced C id w₀ σ)
    (hcounting : Counting C id' a₀ today (σ.own k) used) (hdata : SetsTo used today data)
    (htime : InTime C id ⟨k, q, .updateTotals id' data, σ.shared⟩ σ.history) :
    Balanced C id w₀ (σ.perform (exec A) k q (.updateTotals id' data)) := by
  have hstill : ∀ p, bytesOf p (pending σ.history) =
      bytesOf p (pending (⟨k, q, .updateTotals id' data, σ.shared⟩ :: σ.history)) +
        bytesOf p (storedBy (σ.own k)) := fun p => pending_settles rfl (open_of_still hcounting.still)
  have htable : (exec A (.updateTotals id' data) σ.shared).usageEvents = σ.shared.usageEvents := by
    simp only [exec]
    split <;> rfl
  refine ⟨h.events_perform, distinct_exec h.distinct, fun a' ha' hid => ?_⟩
  show Fits C id (exec A (.updateTotals id' data) σ.shared).usageEvents _ a'
  rw [htable]
  have hrow : a' ∈ σ.shared.allocations → (∀ e ∈ storedBy (σ.own k), e.allocationId = id → e.bytes = 0) →
      Fits C id σ.shared.usageEvents (pending (⟨k, q, .updateTotals id' data, σ.shared⟩ :: σ.history)) a' :=
    fun ha hnone => (h.fits a' ha hid).drop hstill hnone
  by_cases hrefused : σ.shared.refusesTotals
  · have ha : a' ∈ σ.shared.allocations := by
      simpa only [Log.perform, exec, hrefused, if_true] using ha'
    refine hrow ha fun e he hfor => ?_
    obtain rfl : id' = id := (hcounting.rows e he).symm.trans hfor
    exact htime.spared data rfl hrefused e he
  · have hupdate : a' ∈ (Op.update (·.id = id') (touch σ.shared.clock data)).apply σ.shared.allocations := by
      simpa only [Log.perform, exec, hrefused, if_false, Bool.false_eq_true] using ha'
    obtain ⟨a, ha, rfl⟩ := Table.mem_update.mp hupdate
    by_cases hsel : a.id = id'
    · rw [if_pos (decide_eq_true hsel)] at hid ⊢
      have haid : a.id = id := (hdata.id a).symm.trans hid
      obtain rfl : id' = id := hsel.symm.trans haid
      have hday : C.startOfDay today = today := by
        obtain ⟨_, clock, _, _, -, -, rfl⟩ := hcounting.began
        exact C.idem _
      have hrefuses : σ.shared.refusesTotals = false := by simpa using hrefused
      exact (h.fits a ha haid).count hday hcounting
        (htime.kept data rfl hrefuses a₀ today hcounting.began a ha haid) hstill
        (fun hchanged => h.fresh (htime.fresh data rfl hrefuses a₀ today hcounting.began a ha haid hchanged))
        (hdata.total a) (hdata.today a) (hdata.day a)
    · rw [if_neg (by simpa using hsel)] at hid hrow ⊢
      exact hrow ha fun e he hfor =>
        absurd (hid.trans (hfor.symm.trans (hcounting.rows e he))) hsel

/-! ### Runs -/

/-- What the statements of a run keep whose updates of the counters come in time. -/
theorem upholds_balanced (D : Deployment P) (id : String) (w₀ : World P) :
    Upholds (usageMachine D) (fun step earlier =>
      ToldUsage D.calendar step (earlier.filter (·.thread = step.thread)) ∧ InTime D.calendar id step earlier)
      (Balanced D.calendar id w₀) where
  step k q w σ hσ hC := by
    obtain ⟨htold, htime⟩ := hC
    by_cases hsets : w.SetsTotals
    · cases w with
      | updateTotals id' data =>
        obtain ⟨a₀, today, used, hcounting, hdata⟩ := htold
        exact hσ.settles hcounting hdata htime
      | _ => cases hsets
    · exact hσ.other (by simpa using hsets) htold
  env e σ hσ := by
    have hallocations : (outside e σ.shared).allocations = σ.shared.allocations := by cases e <;> rfl
    have hevents : (outside e σ.shared).usageEvents = σ.shared.usageEvents := by cases e <;> rfl
    refine ⟨hevents.trans hσ.events, ?_, fun a ha hid => ?_⟩
    · show ((outside e σ.shared).usageEvents.map _).Nodup
      rw [hevents]
      exact hσ.distinct
    · show Fits _ _ (outside e σ.shared).usageEvents _ a
      rw [hevents]
      exact hσ.fits a (hallocations ▸ ha) hid

/-- When all calls have come to an end, nothing is left to be counted. -/
theorem pending_finished (D : Deployment P) (w : World P) (moves : List (Move String (Outside P)))
    (hfinished : (usageRun D w moves).Finished) : pending (usageRun D w moves).log.history = [] := by
  refine List.eq_nil_iff_forall_not_mem.mpr fun e he => ?_
  obtain ⟨step, hstep, hstored⟩ := List.mem_filterMap.mp he
  obtain ⟨hstep, hopen⟩ := List.mem_filter.mp hstep
  have hmine : step ∈ (usageRun D w moves).log.own step.thread :=
    List.mem_filter.mpr ⟨hstep, decide_eq_true rfl⟩
  obtain ⟨_, _, haccounted⟩ := Concurrent.finished_run (M := usageMachine D)
    (fun k id => traces_refreshUsage D k id) w moves hfinished hstep
  rcases haccounted with hnone | ⟨s, hs, hsets⟩
  · have hmem : e ∈ storedBy ((usageRun D w moves).log.own step.thread) :=
      List.mem_filterMap.mpr ⟨step, hmine, hstored⟩
    rw [hnone] at hmem
    cases hmem
  · obtain ⟨hs, hthread⟩ := List.mem_filter.mp hs
    exact of_decide_eq_true hopen (tallied_iff.mpr ⟨s, hs, of_decide_eq_true hthread, hsets⟩)

/-- **Usage is conserved** in a run whose updates of the counters of the allocation come in time: once all
calls have finished, its counters are those of the events that are stored for it. -/
theorem usage_conserved (D : Deployment P) (id : String) {w : World P} (hw : Conserved D.calendar id w)
    (moves : List (Move String (Outside P)))
    (hcond : ∀ step earlier, step :: earlier <:+ (usageRun D w moves).log.history →
      InTime D.calendar id step earlier)
    (hfinished : (usageRun D w moves).Finished) :
    Conserved D.calendar id (usageRun D w moves).log.shared := by
  have htold := (Concurrent.traced_run (M := usageMachine D) (fun k id => traces_refreshUsage D k id) w moves).1
  have hinitial : Balanced D.calendar id w (⟨w, []⟩ : UsageLog P) := by
    refine ⟨(List.append_nil _).symm, hw.distinct, fun a ha hid => ⟨?_, ?_⟩⟩
    · exact (hw.used a ha hid).symm
    · exact (hw.today a ha hid).symm
  have hbalanced := ((upholds_balanced D id w).run hinitial moves fun step earlier hsuffix =>
    ⟨htold step earlier hsuffix, hcond step earlier hsuffix⟩).1
  have hfits := hbalanced.fits
  rw [pending_finished D w moves hfinished] at hfits
  exact ⟨hbalanced.distinct, fun a ha hid => (hfits a ha hid).used.symm,
    fun a ha hid => (hfits a ha hid).today.symm⟩

/-! ## Two refreshes at once -/

/-- Five bytes were used. -/
def fiveBytes : ProviderUsageEvent := ⟨"ref-1", 5, 60, 1200⟩

/-- The services, with a provider that reports them. -/
def meteredHome : Deployment Unit :=
  { home with provider := { quietProvider with getUsage := fun _ _ _ => .ok [fiveBytes] } }

/-- One refresh. -/
def refreshOnce : List (Move String (Outside Unit)) := .call "a1" :: List.replicate 7 (.step 0)

/-- Two refreshes, both of which read the allocation before either stores the event. -/
def refreshTwice : List (Move String (Outside Unit)) :=
  [Move.call "a1", Move.call "a1", Move.step 0, Move.step 1] ++ List.replicate 6 (Move.step 0) ++
    List.replicate 6 (Move.step 1)

theorem conserved_withGuest (status : AllocationStatus) : Conserved utc "a1" (withGuest status) := by
  refine ⟨List.nodup_nil, fun a ha _ => ?_, fun a ha _ => ?_⟩
  · rw [List.mem_singleton.mp ha]
    rfl
  · rw [List.mem_singleton.mp ha]
    rfl

/-- What a refresh has read stands at the end of its statements. -/
theorem Began.eq (h : Began C id a₀ today own) :
    own.reverse[0]?.bind (fun s => findAllocation id s.before) = some a₀ ∧
      own.reverse[2]?.map (fun s => C.startOfDay s.before.clock) = some today := by
  obtain ⟨rest, clock, now, read, rfl, hread, rfl⟩ := h
  simp [hread]

theorem finished_refreshOnce : (usageRun meteredHome (withGuest .active) refreshOnce).Finished := by
  intro t ht
  rw [List.mem_singleton.mp ht]
  exact .inl ⟨_, rfl⟩

theorem finished_refreshTwice : (usageRun meteredHome (withGuest .active) refreshTwice).Finished := by
  intro t ht
  rcases List.mem_cons.mp ht with rfl | ht
  · exact .inl ⟨_, rfl⟩
  · rw [List.mem_singleton.mp ht]
    exact .inl ⟨_, rfl⟩

/-- A refresh that is alone counts the event. -/
theorem usage_conserved_refreshOnce :
    Conserved utc "a1" (usageRun meteredHome (withGuest .active) refreshOnce).log.shared ∧
      (usageRun meteredHome (withGuest .active) refreshOnce).log.shared.allocations.map (·.usedBytes) = [5] := by
  have hread : ∀ l ∈ (usageRun meteredHome (withGuest .active) refreshOnce).log.history.tails,
      ∀ step ∈ l.head?, step.write.SetsTotals = true →
        (l.tail.filter (·.thread = step.thread)).reverse[0]?.bind (fun s => findAllocation "a1" s.before) =
            some (allocationOf .active) ∧
          (l.tail.filter (·.thread = step.thread)).reverse[2]?.map (fun s => utc.startOfDay s.before.clock) =
            some 0 ∧
          step.before.allocations = [allocationOf .active] ∧ step.before.refusesTotals = false ∧
          ∀ e ∈ step.before.usageEvents, e ∈ pending l.tail := by decide
  refine ⟨usage_conserved meteredHome "a1" (conserved_withGuest .active) refreshOnce
    (fun step earlier hsuffix => ?_) finished_refreshOnce, rfl⟩
  have hat := hread _ ((List.mem_tails _ _).mpr hsuffix) step rfl
  refine ⟨fun data hw _ a₀ today hbegan a ha _ => ?_, fun data hw _ a₀ today hbegan a ha _ _ e he _ _ => ?_,
    fun data hw hrefused => ?_⟩
  · obtain ⟨hrow, -, hrows, -⟩ := hat (by rw [hw]; rfl)
    rw [hrows] at ha
    obtain rfl : a₀ = allocationOf .active := Option.some.inj (hbegan.eq.1.symm.trans hrow)
    rw [List.mem_singleton.mp ha]
  · exact (hat (by rw [hw]; rfl)).2.2.2.2 e he
  · rw [(hat (by rw [hw]; rfl)).2.2.2.1] at hrefused
    cases hrefused

/-- The event is stored once, and the second refresh takes it out of the counters again. -/
theorem usage_lost : Conserved utc "a1" (withGuest .active) ∧
    (usageRun meteredHome (withGuest .active) refreshTwice).Finished ∧
      ¬ Conserved utc "a1" (usageRun meteredHome (withGuest .active) refreshTwice).log.shared := by
  refine ⟨conserved_withGuest .active, finished_refreshTwice, fun h => ?_⟩
  have hused := h.used _ List.mem_cons_self rfl
  exact absurd hused (by decide)

end Sharing
