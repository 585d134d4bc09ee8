import NetlinkHub.Run.FixedWindow
import Mathlib.Data.List.Pairwise
import Mathlib.Logic.Function.Basic

/-! # The rate-limit stores

One store counts in memory, the other in a table that several instances share. Each forgets counters whose
window is over, at moments of its own; a forgotten counter and one that is over are answered alike
(`consumeBucket_live`), so the stores answer every call alike (`stores_interchangeable`). What they count
are fixed windows. -/

namespace RateLimit

/-- `RateLimitResult`. -/
structure RateLimitResult where
  allowed : Bool
  remaining : Int
  retryAfterSeconds : Int
  deriving DecidableEq, Repr

/-- `Math.max(1, Math.ceil((resetAt - now) / 1000))`. -/
def retryAfter (resetAt now : Int) : Int := max 1 (-(-(resetAt - now) / 1000))

/-- `RateLimitStore`. Besides its two methods, a store may lose counters whose window is over: by the sweep
of another instance, say. -/
structure RateLimitStore (σ : Type) where
  consume : σ → String → Nat → Nat → Int → RateLimitResult × σ
  reset : σ → String → σ
  sweepSome : σ → Int → (String → Bool) → σ

/-! ## In memory -/

/-- A counter. Times are milliseconds. -/
structure Bucket where
  count : Nat
  resetAt : Int
  deriving DecidableEq, Repr

/-- `MemoryRateLimitStore`. -/
structure MemoryRateLimitStore where
  buckets : String → Option Bucket
  lastSweep : Int

/-- `sweep`. -/
def MemoryRateLimitStore.sweep (s : MemoryRateLimitStore) (now : Int) : MemoryRateLimitStore :=
  if now - s.lastSweep < 60000 then s
  else ⟨fun key => (s.buckets key).filter fun bucket => ¬ bucket.resetAt ≤ now, now⟩

/-- `consume`. -/
def MemoryRateLimitStore.consume (s : MemoryRateLimitStore) (key : String) (limit windowSeconds : Nat) (now : Int) :
    RateLimitResult × MemoryRateLimitStore :=
  let s := s.sweep now
  let fresh : RateLimitResult × MemoryRateLimitStore :=
    (⟨true, limit - 1, 0⟩,
      { s with buckets := Function.update s.buckets key (some ⟨1, now + windowSeconds * 1000⟩) })
  match s.buckets key with
  | none => fresh
  | some bucket =>
    if bucket.resetAt ≤ now then fresh
    else
      let count := bucket.count + 1
      let s := { s with buckets := Function.update s.buckets key (some ⟨count, bucket.resetAt⟩) }
      if count > limit then (⟨false, 0, retryAfter bucket.resetAt now⟩, s)
      else (⟨true, limit - count, 0⟩, s)

/-- `MemoryRateLimitStore`, with any of what is over deleted at any time. -/
def memory : RateLimitStore MemoryRateLimitStore where
  consume := MemoryRateLimitStore.consume
  reset s key := { s with buckets := Function.update s.buckets key none }
  sweepSome s now gone :=
    { s with buckets := fun key => if gone key then (s.buckets key).filter fun b => ¬ b.resetAt ≤ now else s.buckets key }

/-! ## In PostgreSQL -/

/-- A row of `rate_limit_buckets`; its key stands beside it. `count` has no upper end here. -/
structure Row where
  count : Nat
  resetAt : Int
  updatedAt : Int
  deriving DecidableEq, Repr

/-- `PostgresRateLimitStore` over the table, which other instances write to as well. -/
structure PostgresRateLimitStore where
  rows : String → Option Row
  lastSweep : Int

/-- `deleteMany({ where: { resetAt: { lte: now } } })`, for some of the keys. -/
def deleteExpired (rows : String → Option Row) (now : Int) (gone : String → Bool) : String → Option Row :=
  fun key => if gone key then (rows key).filter fun row => ¬ row.resetAt ≤ now else rows key

/-- `sweep`. -/
def PostgresRateLimitStore.sweep (s : PostgresRateLimitStore) (now : Int) : PostgresRateLimitStore :=
  if now - s.lastSweep < 60000 then s else ⟨deleteExpired s.rows now fun _ => true, now⟩

/-- `INSERT … ON CONFLICT ("key") DO UPDATE … RETURNING`. -/
def upsert (rows : String → Option Row) (key : String) (resetAt now : Int) : Row × (String → Option Row) :=
  let row : Row := match rows key with
    | none => ⟨1, resetAt, now⟩
    | some row =>
      { count := if row.resetAt ≤ now then 1 else row.count + 1
        resetAt := if row.resetAt ≤ now then resetAt else row.resetAt
        updatedAt := now }
  (row, Function.update rows key (some row))

/-- `consume`. The statement always returns a row. -/
def PostgresRateLimitStore.consume (s : PostgresRateLimitStore) (key : String) (limit windowSeconds : Nat) (now : Int) :
    RateLimitResult × PostgresRateLimitStore :=
  let s := s.sweep now
  let (row, rows) := upsert s.rows key (now + windowSeconds * 1000) now
  if row.count > limit then (⟨false, 0, retryAfter row.resetAt now⟩, { s with rows := rows })
  else (⟨true, limit - row.count, 0⟩, { s with rows := rows })

/-- `PostgresRateLimitStore`, with any of what is over deleted at any time. -/
def postgres : RateLimitStore PostgresRateLimitStore where
  consume := PostgresRateLimitStore.consume
  reset s key := { s with rows := Function.update s.rows key none }
  sweepSome s now gone := { s with rows := deleteExpired s.rows now gone }

/-! ## Calls -/

/-- A call of a store. -/
inductive Call where
  | consume (key : String) (now : Int)
  | reset (key : String)
  deriving DecidableEq, Repr

/-- What happens to a store. -/
inductive Event where
  | call (c : Call)
  /-- What is over at some time is deleted, where it is of these keys. -/
  | swept (now : Int) (gone : String → Bool)

/-- A call, and the answer to it. -/
inductive Answer where
  | consumed (key : String) (now : Int) (result : RateLimitResult)
  | reset (key : String)
  deriving DecidableEq, Repr

/-- Who calls with what limit and window: both are fixed for each key. -/
structure Limits where
  limit : String → Nat
  windowSeconds : String → Nat
  limit_pos : ∀ key, 1 ≤ limit key
  windowSeconds_pos : ∀ key, 0 < windowSeconds key

variable {σ : Type}

/-- The answers to the calls among some events. -/
def RateLimitStore.serve (store : RateLimitStore σ) (L : Limits) : σ → List Event → List Answer
  | _, [] => []
  | s, .call (.consume key now) :: events =>
    let (result, s) := store.consume s key (L.limit key) (L.windowSeconds key) now
    .consumed key now result :: store.serve L s events
  | s, .call (.reset key) :: events => .reset key :: store.serve L (store.reset s key) events
  | s, .swept now gone :: events => store.serve L (store.sweepSome s now gone) events

theorem serve_consume (store : RateLimitStore σ) (L : Limits) (s : σ) (key : String) (now : Int) (events : List Event) :
    store.serve L s (.call (.consume key now) :: events) =
      .consumed key now (store.consume s key (L.limit key) (L.windowSeconds key) now).1 ::
        store.serve L (store.consume s key (L.limit key) (L.windowSeconds key) now).2 events := rfl

theorem serve_reset (store : RateLimitStore σ) (L : Limits) (s : σ) (key : String) (events : List Event) :
    store.serve L s (.call (.reset key) :: events) = .reset key :: store.serve L (store.reset s key) events := rfl

/-- The calls among some events. -/
def calls (events : List Event) : List Call := events.filterMap fun
  | .call c => some c
  | .swept .. => none

/-- The time of an event that has one. -/
def Event.time? : Event → Option Int
  | .call (.consume _ now) => some now
  | .call (.reset _) => none
  | .swept now _ => some now

/-- Time does not go back. -/
def Ordered (events : List Event) : Prop := (events.filterMap Event.time?).Pairwise (· ≤ ·)

/-! ## Counters that are over -/

/-- A counter whose window is not over. -/
def live (now : Int) (b : Option Bucket) : Option Bucket := b.filter fun b => ¬ b.resetAt ≤ now

/-- One call, on the counter of its key. -/
def consumeBucket (limit windowSeconds : Nat) (now : Int) (b : Option Bucket) : RateLimitResult × Bucket :=
  match b with
  | none => (⟨true, limit - 1, 0⟩, ⟨1, now + windowSeconds * 1000⟩)
  | some b =>
    if b.resetAt ≤ now then (⟨true, limit - 1, 0⟩, ⟨1, now + windowSeconds * 1000⟩)
    else if b.count + 1 > limit then (⟨false, 0, retryAfter b.resetAt now⟩, ⟨b.count + 1, b.resetAt⟩)
    else (⟨true, limit - (b.count + 1 : Nat), 0⟩, ⟨b.count + 1, b.resetAt⟩)

variable {now t : Int} {b b' : Option Bucket} {limit windowSeconds : Nat}

/-- **A counter that is over** is answered like none. -/
theorem consumeBucket_live (limit windowSeconds : Nat) (now : Int) (b : Option Bucket) :
    consumeBucket limit windowSeconds now (live now b) = consumeBucket limit windowSeconds now b := by
  cases b with
  | none => rfl
  | some b =>
    by_cases h : b.resetAt ≤ now
    · have hnone : live now (some b) = none := by simp [live, Option.filter, h]
      rw [hnone, consumeBucket, consumeBucket, if_pos h]
    · have hsome : live now (some b) = some b := by simp [live, Option.filter, h]
      rw [hsome]

/-- A call opens a window, or is counted in the one there is. -/
theorem consumeBucket_cases (limit windowSeconds : Nat) (now : Int) (b : Option Bucket) :
    consumeBucket limit windowSeconds now b = (⟨true, limit - 1, 0⟩, ⟨1, now + windowSeconds * 1000⟩) ∨
      ∃ b₀, b = some b₀ ∧ now < b₀.resetAt ∧
        (consumeBucket limit windowSeconds now b).2 = ⟨b₀.count + 1, b₀.resetAt⟩ ∧
        (consumeBucket limit windowSeconds now b).1.allowed = decide (b₀.count + 1 ≤ limit) := by
  cases b with
  | none => exact .inl rfl
  | some b =>
    rw [consumeBucket]
    by_cases hover : b.resetAt ≤ now
    · rw [if_pos hover]
      exact .inl rfl
    · rw [if_neg hover]
      refine .inr ⟨b, rfl, not_le.mp hover, ?_⟩
      by_cases hfull : b.count + 1 > limit
      · rw [if_pos hfull]
        exact ⟨rfl, (decide_eq_false (by omega)).symm⟩
      · rw [if_neg hfull]
        exact ⟨rfl, (decide_eq_true (by omega)).symm⟩

theorem counter_consumeBucket (b : Bucket) : (consumeBucket limit windowSeconds now (some b)).2 =
    if b.resetAt ≤ now then ⟨1, now + windowSeconds * 1000⟩ else ⟨b.count + 1, b.resetAt⟩ := by
  rw [consumeBucket]
  split
  · rfl
  · split <;> rfl

theorem live_live (h : t ≤ now) (b : Option Bucket) : live now (live t b) = live now b := by
  cases b with
  | none => rfl
  | some b =>
    by_cases hover : b.resetAt ≤ t
    · have hnow : b.resetAt ≤ now := hover.trans h
      simp [live, Option.filter, hover, hnow]
    · simp [live, Option.filter, hover]

/-- What is alike at one time is alike later. -/
theorem live_eq_of_le (h : t ≤ now) (heq : live t b = live t b') : live now b = live now b' := by
  rw [← live_live h b, heq, live_live h]

/-! ## What a store does to its counters -/

/-- A store counts in buckets, and loses none that is not over. -/
structure Lawful (store : RateLimitStore σ) (view : σ → String → Option Bucket) : Prop where
  result : ∀ s key limit windowSeconds now, 1 ≤ limit → (store.consume s key limit windowSeconds now).1 =
    (consumeBucket limit windowSeconds now (view s key)).1
  counted : ∀ s key limit windowSeconds now, view (store.consume s key limit windowSeconds now).2 key =
    some (consumeBucket limit windowSeconds now (view s key)).2
  others : ∀ s key limit windowSeconds now k, k ≠ key →
    live now (view (store.consume s key limit windowSeconds now).2 k) = live now (view s k)
  reset : ∀ s key, view (store.reset s key) = Function.update (view s) key none
  swept : ∀ s now gone k, live now (view (store.sweepSome s now gone) k) = live now (view s k)

theorem memory_consume : memory.consume = MemoryRateLimitStore.consume := rfl

theorem postgres_consume : postgres.consume = PostgresRateLimitStore.consume := rfl

theorem live_sweep_memory (s : MemoryRateLimitStore) (now : Int) (k : String) :
    live now ((s.sweep now).buckets k) = live now (s.buckets k) := by
  rw [MemoryRateLimitStore.sweep]
  split
  · rfl
  · exact live_live le_rfl _

theorem consume_memory (s : MemoryRateLimitStore) (key : String) (limit windowSeconds : Nat) (now : Int) :
    s.consume key limit windowSeconds now =
      ((consumeBucket limit windowSeconds now (s.buckets key)).1,
        { s.sweep now with
          buckets := Function.update (s.sweep now).buckets key
            (some (consumeBucket limit windowSeconds now (s.buckets key)).2) }) := by
  rw [← consumeBucket_live _ _ _ (s.buckets key), ← live_sweep_memory, consumeBucket_live, MemoryRateLimitStore.consume]
  simp only
  cases (s.sweep now).buckets key with
  | none => rfl
  | some b =>
    rw [consumeBucket]
    by_cases hover : b.resetAt ≤ now
    · simp only [if_pos hover]
    · simp only [if_neg hover]
      split <;> rfl

theorem lawful_memory : Lawful memory MemoryRateLimitStore.buckets where
  result s key limit windowSeconds now _ := by rw [memory_consume, consume_memory]
  counted s key limit windowSeconds now := by
    rw [memory_consume, consume_memory]
    exact Function.update_self ..
  others s key limit windowSeconds now k hk := by
    rw [memory_consume, consume_memory, ← live_sweep_memory s]
    exact congrArg _ (Function.update_of_ne hk ..)
  reset _ _ := rfl
  swept s now gone k := by
    simp only [memory]
    split
    · exact live_live le_rfl _
    · rfl

/-- A row is a counter. -/
def Row.bucket (row : Row) : Bucket := ⟨row.count, row.resetAt⟩

theorem live_deleteExpired (rows : String → Option Row) (now : Int) (gone : String → Bool) (k : String) :
    live now ((deleteExpired rows now gone k).map Row.bucket) = live now ((rows k).map Row.bucket) := by
  rw [deleteExpired]
  split
  · have hfilter : ((rows k).filter fun row => ¬ row.resetAt ≤ now).map Row.bucket =
        live now ((rows k).map Row.bucket) := by
      cases rows k with
      | none => rfl
      | some row =>
        by_cases hover : row.resetAt ≤ now <;> simp [live, Option.filter, Row.bucket, hover]
    rw [hfilter, live_live le_rfl]
  · rfl

theorem live_sweep_postgres (s : PostgresRateLimitStore) (now : Int) (k : String) :
    live now (((s.sweep now).rows k).map Row.bucket) = live now ((s.rows k).map Row.bucket) := by
  rw [PostgresRateLimitStore.sweep]
  split
  · rfl
  · exact live_deleteExpired s.rows now (fun _ => true) k

/-- What the statement returns. -/
theorem bucket_upsert (rows : String → Option Row) (key : String) (limit windowSeconds : Nat) (now : Int) :
    (upsert rows key (now + windowSeconds * 1000) now).1.bucket =
      (consumeBucket limit windowSeconds now ((rows key).map Row.bucket)).2 := by
  rw [upsert]
  cases rows key with
  | none => rfl
  | some row =>
    rw [Option.map_some, counter_consumeBucket]
    by_cases hover : row.resetAt ≤ now <;> simp [Row.bucket, hover]

/-- The answer is read off the counter as it is after the call. -/
theorem result_consumeBucket (hlimit : 1 ≤ limit) (windowSeconds : Nat) (now : Int) (b : Option Bucket) :
    (consumeBucket limit windowSeconds now b).1 =
      if (consumeBucket limit windowSeconds now b).2.count > limit
      then ⟨false, 0, retryAfter (consumeBucket limit windowSeconds now b).2.resetAt now⟩
      else ⟨true, limit - (consumeBucket limit windowSeconds now b).2.count, 0⟩ := by
  have hfresh : ¬ 1 > limit := by omega
  cases b with
  | none => simp [consumeBucket, hfresh]
  | some b =>
    rw [consumeBucket]
    by_cases hover : b.resetAt ≤ now
    · simp only [if_pos hover, if_neg hfresh]
      rfl
    · simp only [if_neg hover]
      split <;> simp only

theorem consume_postgres (s : PostgresRateLimitStore) (key : String) (limit windowSeconds : Nat) (now : Int)
    (hlimit : 1 ≤ limit) : (s.consume key limit windowSeconds now).1 =
      (consumeBucket limit windowSeconds now ((s.rows key).map Row.bucket)).1 := by
  rw [result_consumeBucket hlimit, ← consumeBucket_live _ _ _ ((s.rows key).map Row.bucket), ← live_sweep_postgres,
    consumeBucket_live, ← bucket_upsert, PostgresRateLimitStore.consume]
  simp only [Row.bucket]
  rw [apply_ite Prod.fst]
  rfl

theorem rows_consume (s : PostgresRateLimitStore) (key : String) (limit windowSeconds : Nat) (now : Int) :
    (s.consume key limit windowSeconds now).2.rows =
      (upsert (s.sweep now).rows key (now + windowSeconds * 1000) now).2 := by
  rw [PostgresRateLimitStore.consume]
  simp only
  split <;> rfl

theorem lawful_postgres : Lawful postgres fun s key => (s.rows key).map Row.bucket where
  result s key limit windowSeconds now hlimit := consume_postgres s key limit windowSeconds now hlimit
  counted s key limit windowSeconds now := by
    have hrow : (upsert (s.sweep now).rows key (now + windowSeconds * 1000) now).2 key =
        some (upsert (s.sweep now).rows key (now + windowSeconds * 1000) now).1 := Function.update_self ..
    rw [postgres_consume, rows_consume, hrow, Option.map_some, bucket_upsert _ _ limit, ← consumeBucket_live,
      live_sweep_postgres, consumeBucket_live]
  others s key limit windowSeconds now k hk := by
    have hrow : (upsert (s.sweep now).rows key (now + windowSeconds * 1000) now).2 k = (s.sweep now).rows k :=
      Function.update_of_ne hk ..
    rw [postgres_consume, rows_consume, hrow, live_sweep_postgres]
  reset s key := by
    funext k
    by_cases hk : k = key
    · subst hk
      simp [postgres]
    · simp [postgres, hk]
  swept s now gone k := live_deleteExpired ..

/-- A store that never loses a counter. -/
def ideal : RateLimitStore (String → Option Bucket) where
  consume buckets key limit windowSeconds now :=
    let r := consumeBucket limit windowSeconds now (buckets key)
    (r.1, Function.update buckets key (some r.2))
  reset buckets key := Function.update buckets key none
  sweepSome buckets _ _ := buckets

variable {store : RateLimitStore σ} {view : σ → String → Option Bucket} {L : Limits} {s : σ}
  {buckets : String → Option Bucket} {events events' : List Event}

/-- **A store answers as the ideal one**, whatever it loses that is over. -/
theorem Lawful.serve_eq (hlaw : Lawful store view) (hordered : Ordered events)
    (hfrom : ∀ x ∈ events.filterMap Event.time?, t ≤ x) (h : ∀ k, live t (view s k) = live t (buckets k)) :
    store.serve L s events = ideal.serve L buckets events := by
  induction events generalizing s buckets t with
  | nil => rfl
  | cons e events ih =>
    cases e with
    | call c =>
      cases c with
      | consume key now =>
        obtain ⟨hlater, hordered⟩ := List.pairwise_cons.mp hordered
        have hnow : t ≤ now := hfrom now List.mem_cons_self
        have hsame : consumeBucket (L.limit key) (L.windowSeconds key) now (view s key) =
            consumeBucket (L.limit key) (L.windowSeconds key) now (buckets key) := by
          rw [← consumeBucket_live, live_eq_of_le hnow (h key), consumeBucket_live]
        have hnext : ∀ k, live now (view (store.consume s key (L.limit key) (L.windowSeconds key) now).2 k) =
            live now ((ideal.consume buckets key (L.limit key) (L.windowSeconds key) now).2 k) := fun k => by
          by_cases hk : k = key
          · subst hk
            rw [hlaw.counted, hsame]
            simp [ideal]
          · rw [hlaw.others _ _ _ _ _ k hk, live_eq_of_le hnow (h k)]
            simp [ideal, hk]
        have hrest := ih hordered hlater hnext
        have hresult := hlaw.result s key (L.limit key) (L.windowSeconds key) now (L.limit_pos key)
        rw [hsame] at hresult
        rw [serve_consume, serve_consume, hrest, hresult]
        rfl
      | reset key =>
        have hnext : ∀ k, live t (view (store.reset s key) k) = live t (ideal.reset buckets key k) := fun k => by
          rw [hlaw.reset]
          by_cases hk : k = key
          · subst hk
            simp [ideal]
          · simp [ideal, hk, h k]
        rw [serve_reset, serve_reset, ih hordered hfrom hnext]
    | swept now gone =>
      obtain ⟨hlater, hordered⟩ := List.pairwise_cons.mp hordered
      have hnow : t ≤ now := hfrom now List.mem_cons_self
      have hnext : ∀ k, live now (view (store.sweepSome s now gone) k) = live now (buckets k) := fun k => by
        rw [hlaw.swept, live_eq_of_le hnow (h k)]
      exact ih hordered hlater hnext

theorem serve_ideal (events : List Event) :
    ideal.serve L buckets events = ideal.serve L buckets ((calls events).map .call) := by
  induction events generalizing buckets with
  | nil => rfl
  | cons e events ih =>
    cases e with
    | call c =>
      cases c with
      | consume key now => exact congrArg (_ :: ·) ih
      | reset key => exact congrArg (_ :: ·) ih
    | swept now gone => exact ih

/-! ## Windows -/

/-- The window of a counter: what is counted beyond the limit was not admitted. -/
def Bucket.window (limit windowSeconds : Nat) (b : Bucket) : FixedWindow.Window :=
  ⟨b.resetAt - windowSeconds * 1000, min b.count limit⟩

/-- **A counter is a fixed window.** -/
theorem window_consumeBucket (hlimit : 1 ≤ limit) (windowSeconds : Nat) (now : Int) (b : Option Bucket) :
    FixedWindow.call limit (windowSeconds * 1000) (b.map (Bucket.window limit windowSeconds)) now =
      ((consumeBucket limit windowSeconds now b).2.window limit windowSeconds,
        (consumeBucket limit windowSeconds now b).1.allowed) := by
  have hfresh : (⟨now, 1⟩ : FixedWindow.Window) =
      Bucket.window limit windowSeconds ⟨1, now + windowSeconds * 1000⟩ := by
    simp only [Bucket.window, FixedWindow.Window.mk.injEq]
    omega
  cases b with
  | none =>
    have hcur : FixedWindow.current (windowSeconds * 1000) (Option.map (Bucket.window limit windowSeconds) none) now =
        ⟨now, 0⟩ := rfl
    rw [FixedWindow.call_of_current hcur, if_pos (Nat.lt_of_lt_of_le Nat.zero_lt_one hlimit), Nat.zero_add, hfresh,
      consumeBucket]
  | some b =>
    have hstart : (b.window limit windowSeconds).start + windowSeconds * 1000 = b.resetAt := by
      simp only [Bucket.window]
      omega
    rw [Option.map_some, consumeBucket]
    by_cases hover : b.resetAt ≤ now
    · have hcur : FixedWindow.current (windowSeconds * 1000) (some (b.window limit windowSeconds)) now = ⟨now, 0⟩ :=
        if_pos (hstart.symm ▸ hover)
      rw [FixedWindow.call_of_current hcur, if_pos (Nat.lt_of_lt_of_le Nat.zero_lt_one hlimit), Nat.zero_add, hfresh,
        if_pos hover]
    · have hcur : FixedWindow.current (windowSeconds * 1000) (some (b.window limit windowSeconds)) now =
          b.window limit windowSeconds := if_neg (hstart.symm ▸ hover)
      rw [FixedWindow.call_of_current hcur, if_neg hover]
      by_cases hfull : b.count + 1 > limit
      · have hadmitted : ¬ (b.window limit windowSeconds).admitted < limit := by
          simp only [Bucket.window]
          omega
        rw [if_pos hfull, if_neg hadmitted]
        simp only [Bucket.window, Prod.mk.injEq, FixedWindow.Window.mk.injEq, true_and, and_true]
        omega
      · have hadmitted : (b.window limit windowSeconds).admitted < limit := by
          simp only [Bucket.window]
          omega
        rw [if_neg hfull, if_pos hadmitted]
        simp only [Bucket.window, Prod.mk.injEq, FixedWindow.Window.mk.injEq, true_and, and_true]
        omega

/-! ## Answers of the ideal store -/

/-- The answers of the ideal store. -/
def answers (L : Limits) (buckets : String → Option Bucket) (cs : List Call) : List Answer :=
  ideal.serve L buckets (cs.map .call)

/-- The ideal store after one call, and after some. -/
def next (L : Limits) (buckets : String → Option Bucket) : Call → String → Option Bucket
  | .consume key now => (ideal.consume buckets key (L.limit key) (L.windowSeconds key) now).2
  | .reset key => ideal.reset buckets key

def after (L : Limits) (buckets : String → Option Bucket) (cs : List Call) : String → Option Bucket :=
  cs.foldl (next L) buckets

/-- The answer to one call. -/
def answer (L : Limits) (buckets : String → Option Bucket) : Call → Answer
  | .consume key now => .consumed key now (consumeBucket (L.limit key) (L.windowSeconds key) now (buckets key)).1
  | .reset key => .reset key

variable {cs : List Call} {c : Call} {key : String}

theorem answers_cons (L : Limits) (buckets : String → Option Bucket) (c : Call) (cs : List Call) :
    answers L buckets (c :: cs) = answer L buckets c :: answers L (next L buckets c) cs := by
  cases c <;> rfl

theorem answers_append (buckets : String → Option Bucket) (cs cs' : List Call) :
    answers L buckets (cs ++ cs') = answers L buckets cs ++ answers L (after L buckets cs) cs' := by
  induction cs generalizing buckets with
  | nil => rfl
  | cons c cs ih => rw [List.cons_append, answers_cons, answers_cons, ih]; rfl

theorem answers_singleton (buckets : String → Option Bucket) (c : Call) :
    answers L buckets [c] = [answer L buckets c] := answers_cons L buckets c []

theorem after_append (buckets : String → Option Bucket) (cs cs' : List Call) :
    after L buckets (cs ++ cs') = after L (after L buckets cs) cs' := List.foldl_append

theorem exists_answer_mem (buckets : String → Option Bucket) (h : c ∈ cs) :
    ∃ buckets', answer L buckets' c ∈ answers L buckets cs := by
  induction cs generalizing buckets with
  | nil => cases h
  | cons d cs ih =>
    rw [answers_cons]
    rcases List.mem_cons.mp h with rfl | h
    · exact ⟨buckets, List.mem_cons_self⟩
    · obtain ⟨buckets', hmem⟩ := ih (next L buckets d) h
      exact ⟨buckets', List.mem_cons_of_mem _ hmem⟩

/-- Some of the answers are the answers to some of the calls. -/
theorem exists_of_answers_eq_append {as as' : List Answer} (h : answers L buckets cs = as ++ as') :
    ∃ cs₁ cs₂, cs = cs₁ ++ cs₂ ∧ as = answers L buckets cs₁ ∧ as' = answers L (after L buckets cs₁) cs₂ := by
  induction as generalizing buckets cs with
  | nil => exact ⟨[], cs, rfl, rfl, h.symm⟩
  | cons a as ih =>
    cases cs with
    | nil => cases h
    | cons c cs =>
      rw [answers_cons, List.cons_append, List.cons.injEq] at h
      obtain ⟨rfl, hrest⟩ := h
      obtain ⟨cs₁, cs₂, rfl, rfl, rfl⟩ := ih hrest
      exact ⟨c :: cs₁, cs₂, rfl, (answers_cons ..).symm, rfl⟩

/-- Whether a key was asked for and allowed. -/
def Answer.allows (key : String) : Answer → Bool
  | .consumed k _ result => k = key && result.allowed
  | .reset _ => false

/-! ## What a counter stands for -/

/-- Where a counter comes from: a call has opened its window, and what was allowed since is counted. -/
def Opened (L : Limits) (key : String) (b : Bucket) (as : List Answer) : Prop :=
  ∃ earlier since, as = earlier ++
      .consumed key (b.resetAt - L.windowSeconds key * 1000) ⟨true, L.limit key - 1, 0⟩ :: since ∧
    .reset key ∉ since ∧ (∀ now result, .consumed key now result ∈ since → now < b.resetAt) ∧
    since.countP (·.allows key) + 1 = min b.count (L.limit key)

/-- An answer about another key. -/
theorem Opened.other {b : Bucket} {as : List Answer} (h : Opened L key b as) {a : Answer} (hreset : a ≠ .reset key)
    (hconsumed : ∀ now result, a ≠ .consumed key now result) : Opened L key b (as ++ [a]) := by
  obtain ⟨earlier, since, rfl, hno, hbefore, hcount⟩ := h
  have hallows : a.allows key = false := by
    cases a with
    | consumed k now result =>
      have hk : k ≠ key := fun hk => hconsumed now result (hk ▸ rfl)
      simp [Answer.allows, hk]
    | reset k => rfl
  refine ⟨earlier, since ++ [a], by rw [List.append_assoc, List.cons_append], ?_, ?_, ?_⟩
  · simp only [List.mem_append, List.mem_singleton, not_or]
    exact ⟨hno, fun h => hreset h.symm⟩
  · intro now result hmem
    rcases List.mem_append.mp hmem with hmem | hmem
    · exact hbefore now result hmem
    · exact absurd (List.mem_singleton.mp hmem).symm (hconsumed now result)
  · rw [List.countP_append, List.countP_singleton, hallows]
    simpa using hcount

/-- **Every counter was opened**, after any calls. -/
theorem opened_after (L : Limits) (cs : List Call) (key : String) (b : Bucket)
    (h : after L (fun _ => none) cs key = some b) : Opened L key b (answers L (fun _ => none) cs) := by
  induction cs using List.reverseRecOn generalizing b with
  | nil => cases h
  | append_singleton cs c ih =>
    rw [after_append] at h
    rw [answers_append, answers_singleton]
    cases c with
    | reset k =>
      by_cases hk : key = k
      · subst hk
        simp [after, next, ideal] at h
      · have hsame : after L (fun _ => none) cs key = some b := by
          rw [← h]
          exact (Function.update_of_ne hk ..).symm
        exact (ih b hsame).other (by simpa [answer] using Ne.symm hk) (by simp [answer])
    | consume k now =>
      by_cases hk : key = k
      · subst hk
        have hb : (consumeBucket (L.limit key) (L.windowSeconds key) now (after L (fun _ => none) cs key)).2 = b := by
          have hself : after L (after L (fun _ => none) cs) [.consume key now] key =
            some (consumeBucket (L.limit key) (L.windowSeconds key) now (after L (fun _ => none) cs key)).2 :=
              Function.update_self ..
          exact Option.some.inj (hself.symm.trans h)
        rcases consumeBucket_cases (L.limit key) (L.windowSeconds key) now (after L (fun _ => none) cs key) with
          hopens | ⟨b₀, hb₀, hin, hcounter, hallowed⟩
        · -- The call opens a window.
          rw [hopens] at hb
          subst hb
          refine ⟨answers L (fun _ => none) cs, [], ?_, List.not_mem_nil, fun _ _ h => absurd h List.not_mem_nil, ?_⟩
          · rw [answer, hopens]
            simp
          · exact (min_eq_left (L.limit_pos key)).symm
        · -- It is counted, and allowed where there is room.
          obtain ⟨earlier, since, hsplit, hno, hbefore, hcount⟩ := ih b₀ hb₀
          rw [hcounter] at hb
          subst hb
          refine ⟨earlier, since ++ [answer L (after L (fun _ => none) cs) (.consume key now)], ?_, ?_, ?_, ?_⟩
          · rw [hsplit, List.append_assoc, List.cons_append]
          · simpa [answer] using hno
          · intro now' result hmem
            rcases List.mem_append.mp hmem with hmem | hmem
            · exact hbefore now' result hmem
            · simp only [answer, List.mem_singleton, Answer.consumed.injEq, true_and] at hmem
              rw [hmem.1]
              exact hin
          · rw [List.countP_append, List.countP_singleton, answer, Answer.allows, hallowed]
            simp only [decide_true, Bool.true_and, decide_eq_true_eq]
            split <;> omega
      · have hsame : after L (fun _ => none) cs key = some b := by
          rw [← h]
          exact (Function.update_of_ne hk ..).symm
        exact (ih b hsame).other (by simp [answer]) fun now' result => by
          simp only [answer, ne_eq, Answer.consumed.injEq, not_and]
          exact fun heq => absurd heq.symm hk

/-- A call that is refused finds a window that has allowed its number. -/
theorem full_of_refused {before later : List Answer} {result : RateLimitResult}
    (h : answers L (fun _ => none) cs = before ++ .consumed key now result :: later) (hrefused : ¬ result.allowed) :
    ∃ earlier since opened, before = earlier ++ .consumed key opened ⟨true, L.limit key - 1, 0⟩ :: since ∧
      now < opened + L.windowSeconds key * 1000 ∧ .reset key ∉ since ∧
      (∀ t r, .consumed key t r ∈ since → t < opened + L.windowSeconds key * 1000) ∧
      since.countP (·.allows key) + 1 = L.limit key := by
  obtain ⟨cs₁, cs₂, -, rfl, hrest⟩ := exists_of_answers_eq_append h
  cases cs₂ with
  | nil => cases hrest
  | cons c cs₂ =>
    rw [answers_cons, List.cons.injEq] at hrest
    cases c with
    | reset k => cases hrest.1
    | consume k now' =>
      obtain ⟨rfl, rfl, rfl⟩ := Answer.consumed.inj hrest.1
      rcases consumeBucket_cases (L.limit key) (L.windowSeconds key) now (after L (fun _ => none) cs₁ key) with
        hopens | ⟨b, hb, hin, -, hallowed⟩
      · rw [hopens] at hrefused
        exact absurd rfl hrefused
      · obtain ⟨earlier, since, hsplit, hno, hbefore, hcount⟩ := opened_after L cs₁ key b hb
        have hfull : ¬ b.count + 1 ≤ L.limit key := by simpa [hallowed] using hrefused
        refine ⟨earlier, since, _, hsplit, by omega, hno, fun t r ht => ?_, by omega⟩
        have := hbefore t r ht
        omega

/-! ## The bound -/

/-- The times at which a key is asked for. -/
def times (key : String) (cs : List Call) : List Int := cs.filterMap fun
  | .consume k now => if k = key then some now else none
  | .reset _ => none

/-- **Without a reset** the answers about a key are those of a fixed window. -/
theorem countP_answers (L : Limits) {cs : List Call} (hno : .reset key ∉ cs) {a d : Int}
    (hin : ∀ t ∈ times key cs, a ≤ t ∧ t ≤ d) (buckets : String → Option Bucket) :
    (answers L buckets cs).countP (·.allows key) =
      FixedWindow.admittedIn a d (FixedWindow.calls (L.limit key) (L.windowSeconds key * 1000)
        ((buckets key).map (Bucket.window (L.limit key) (L.windowSeconds key))) (times key cs)) := by
  induction cs generalizing buckets with
  | nil => rfl
  | cons c cs ih =>
    simp only [List.mem_cons, not_or] at hno
    rw [answers_cons, List.countP_cons]
    cases c with
    | reset k =>
      have hk : key ≠ k := fun hk => hno.1 (hk ▸ rfl)
      have hsame : next L buckets (.reset k) key = buckets key := Function.update_of_ne hk ..
      rw [ih hno.2 hin, hsame]
      simp [times, answer, Answer.allows]
    | consume k now =>
      by_cases hk : k = key
      · subst hk
        have htimes : times k (.consume k now :: cs) = now :: times k cs := by simp [times]
        have hcounter : next L buckets (.consume k now) k =
          some (consumeBucket (L.limit k) (L.windowSeconds k) now (buckets k)).2 := Function.update_self ..
        rw [htimes] at hin ⊢
        rw [FixedWindow.admittedIn_cons, window_consumeBucket (L.limit_pos k),
          ih hno.2 (fun t ht => hin t (List.mem_cons_of_mem _ ht)), hcounter]
        have hnow := hin now List.mem_cons_self
        simp [answer, Answer.allows, hnow.1, hnow.2]
      · have hsame : next L buckets (.consume k now) key = buckets key := Function.update_of_ne (Ne.symm hk) ..
        have htimes : times key (.consume k now :: cs) = times key cs := by simp [times, hk]
        rw [htimes] at hin ⊢
        rw [ih hno.2 hin, hsame]
        simp [answer, Answer.allows, hk]

/-! ## The stores -/

theorem mem_times {t : Int} : t ∈ times key cs ↔ .consume key t ∈ cs := by
  rw [times, List.mem_filterMap]
  constructor
  · rintro ⟨c, hc, hsome⟩
    cases c with
    | reset k => cases hsome
    | consume k now =>
      obtain ⟨rfl, hnow⟩ := Option.ite_none_right_eq_some.mp hsome
      exact Option.some.inj hnow ▸ hc
  · exact fun hmem => ⟨_, hmem, if_pos rfl⟩

theorem times_append (key : String) (cs cs' : List Call) : times key (cs ++ cs') = times key cs ++ times key cs' :=
  List.filterMap_append

/-- The times of one key go no way back either. -/
theorem pairwise_times (h : Ordered events) (key : String) : (times key (calls events)).Pairwise (· ≤ ·) := by
  refine h.sublist ?_
  clear h
  induction events with
  | nil => exact .slnil
  | cons e events ih =>
    cases e with
    | call c =>
      cases c with
      | consume k now =>
        by_cases hk : k = key
        · simpa [times, calls, Event.time?, hk] using ih
        · simpa [times, calls, Event.time?, hk] using ih.cons _
      | reset k => exact ih
    | swept now gone => simpa [times, calls, Event.time?] using ih.cons _

/-- A store that starts without counters answers as the ideal one. -/
theorem Lawful.serve_eq_answers (hlaw : Lawful store view) (hempty : ∀ k, view s k = none) (h : Ordered events) :
    store.serve L s events = answers L (fun _ => none) (calls events) := by
  obtain ⟨t, ht⟩ : ∃ t, ∀ x ∈ events.filterMap Event.time?, t ≤ x := by
    rw [Ordered] at h
    cases htimes : events.filterMap Event.time? with
    | nil => exact ⟨0, fun x hx => absurd hx List.not_mem_nil⟩
    | cons x xs =>
      rw [htimes] at h
      exact ⟨x, List.forall_mem_cons.mpr ⟨le_rfl, (List.pairwise_cons.mp h).1⟩⟩
  rw [hlaw.serve_eq h ht fun k => by rw [hempty], serve_ideal, answers]

/-- **The stores are interchangeable**, whatever each of them deletes that is over, and when: they give the same
answers to the same calls. Without a reset at most twice the limit is allowed in the length of a window; and a
call is refused only when its limit was allowed since the call that opened the window, and none was reset. -/
theorem stores_interchangeable (L : Limits) (events events' : List Event) (m p : Int) (h : Ordered events)
    (h' : Ordered events') (hcalls : calls events = calls events') :
    memory.serve L ⟨fun _ => none, m⟩ events = postgres.serve L ⟨fun _ => none, p⟩ events' ∧
    (∀ before mid later, memory.serve L ⟨fun _ => none, m⟩ events = before ++ mid ++ later → ∀ key (a : Int),
      .reset key ∉ mid → (∀ (t : Int) r, .consumed key t r ∈ mid → a ≤ t ∧ t ≤ a + L.windowSeconds key * 1000) →
        mid.countP (·.allows key) ≤ 2 * L.limit key) ∧
    ∀ before later key (now : Int) result,
      memory.serve L ⟨fun _ => none, m⟩ events = before ++ .consumed key now result :: later → ¬ result.allowed →
        ∃ earlier since, ∃ opened : Int,
          before = earlier ++ .consumed key opened ⟨true, L.limit key - 1, 0⟩ :: since ∧
          now < opened + L.windowSeconds key * 1000 ∧ .reset key ∉ since ∧
          (∀ (t : Int) r, .consumed key t r ∈ since → t < opened + L.windowSeconds key * 1000) ∧
          since.countP (·.allows key) + 1 = L.limit key := by
  have hmemory := lawful_memory.serve_eq_answers (L := L) (s := ⟨fun _ => none, m⟩) (fun _ => rfl) h
  have hpostgres := lawful_postgres.serve_eq_answers (L := L) (s := ⟨fun _ => none, p⟩) (fun _ => rfl) h'
  refine ⟨by rw [hmemory, hpostgres, hcalls], fun before mid later hsplit key a hno hin => ?_,
    fun before later key now result hsplit hrefused => ?_⟩
  · rw [hmemory, List.append_assoc] at hsplit
    obtain ⟨cs₁, rest, hrest, -, hafter⟩ := exists_of_answers_eq_append hsplit
    obtain ⟨cs₂, cs₃, rfl, rfl, -⟩ := exists_of_answers_eq_append hafter.symm
    have hsorted := pairwise_times h key
    rw [hrest, times_append, times_append] at hsorted
    have hmid := (List.pairwise_append.mp (List.pairwise_append.mp hsorted).2.1).1
    have hkeep : .reset key ∉ cs₂ := fun hreset => by
      obtain ⟨buckets, hmem⟩ := exists_answer_mem (L := L) (after L (fun _ => none) cs₁) hreset
      exact hno hmem
    have htimes : ∀ t ∈ times key cs₂, a ≤ t ∧ t ≤ a + L.windowSeconds key * 1000 := fun t ht => by
      obtain ⟨buckets, hmem⟩ := exists_answer_mem (L := L) (after L (fun _ => none) cs₁) (mem_times.mp ht)
      exact hin t _ hmem
    rw [countP_answers L hkeep htimes]
    have hpos := L.windowSeconds_pos key
    refine FixedWindow.admittedIn_le (by omega) hmid (fun v hv => ?_) a
    obtain ⟨b, -, rfl⟩ := Option.map_eq_some_iff.mp hv
    exact min_le_right ..
  · rw [hmemory] at hsplit
    exact full_of_refused hsplit hrefused

/-- One call a second, for every key. -/
def onceASecond : Limits := ⟨fun _ => 1, fun _ => 1, fun _ => le_rfl, fun _ => Nat.zero_lt_one⟩

/-- Three calls; the second comes too early. -/
def visits : List Event :=
  [.call (.consume "ada" 0), .call (.consume "ada" 999), .call (.consume "ada" 1000)]

/-- The row of the first call is deleted before the third. -/
def visitsSwept : List Event :=
  [.call (.consume "ada" 0), .call (.consume "ada" 999), .swept 1000 fun _ => true, .call (.consume "ada" 1000)]

theorem stores_interchangeable_visits : memory.serve onceASecond ⟨fun _ => none, 0⟩ visits =
    postgres.serve onceASecond ⟨fun _ => none, 0⟩ visitsSwept :=
  (stores_interchangeable onceASecond visits visitsSwept 0 0 (by simp [Ordered, visits, Event.time?])
    (by simp [Ordered, visitsSwept, Event.time?]) rfl).1

example : (memory.serve onceASecond ⟨fun _ => none, 0⟩ visits).map (·.allows "ada") = [true, false, true] := by
  decide

end RateLimit
