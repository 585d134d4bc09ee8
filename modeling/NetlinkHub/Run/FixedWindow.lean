import Mathlib.Data.List.Induction
import Mathlib.Data.Int.Order.Basic
import Mathlib.Order.Lattice

/-! # Fixed windows

A counter that starts again with the first call after its window has lapsed, and refuses what comes when
the window has admitted its number. Windows drift with the calls: the next one starts whenever a call
happens to come. In any interval of one length at most two of them admit anything
(`admittedIn_le`), and a call is refused only when the window it falls into is full
(`full_of_refused`, `le_of_refused`). -/

namespace FixedWindow

/-- A window: when it started, and what it has admitted. -/
structure Window where
  start : Int
  admitted : Nat
  deriving DecidableEq, Repr

/-- A call, the window it fell into, and what it was answered. -/
structure Call where
  time : Int
  window : Int
  allowed : Bool
  deriving DecidableEq, Repr

variable (limit : Nat) (length : Int)

/-- The window a call falls into. -/
def current (w : Option Window) (t : Int) : Window :=
  match w with
  | none => ⟨t, 0⟩
  | some w => if w.start + length ≤ t then ⟨t, 0⟩ else w

/-- One call: the window after it, and whether it is allowed. -/
def call (w : Option Window) (t : Int) : Window × Bool :=
  let w := current length w t
  if w.admitted < limit then (⟨w.start, w.admitted + 1⟩, true) else (w, false)

/-- A list of calls. -/
def calls : Option Window → List Int → List Call
  | _, [] => []
  | w, t :: ts =>
    let r := call limit length w t
    ⟨t, r.1.start, r.2⟩ :: calls (some r.1) ts

/-- The window after them. -/
def after : Option Window → List Int → Option Window
  | w, [] => w
  | w, t :: ts => after (some (call limit length w t).1) ts

variable {limit length} {w : Option Window} {v : Window} {t a : Int} {ts : List Int}

/-! ## One call -/

/-- A call falls into the window there is, or starts one. -/
theorem current_cases (length : Int) (w : Option Window) (t : Int) :
    (∃ v, w = some v ∧ t < v.start + length ∧ current length w t = v) ∨
      (∀ v ∈ w, v.start + length ≤ t) ∧ current length w t = ⟨t, 0⟩ := by
  cases w with
  | none => exact .inr ⟨fun _ hv => (Option.not_mem_none _ hv).elim, rfl⟩
  | some v =>
    rw [current]
    by_cases h : v.start + length ≤ t
    · rw [if_pos h]
      exact .inr ⟨fun u hu => Option.some.inj hu ▸ h, rfl⟩
    · rw [if_neg h]
      exact .inl ⟨v, rfl, not_le.mp h, rfl⟩

theorem call_of_current (h : current length w t = v) :
    call limit length w t = if v.admitted < limit then (⟨v.start, v.admitted + 1⟩, true) else (v, false) := by
  rw [← h]
  rfl

@[simp] theorem start_call (limit : Nat) (length : Int) (w : Option Window) (t : Int) :
    (call limit length w t).1.start = (current length w t).start := by
  rw [call]
  split <;> rfl

/-- What a call adds to its window is whether it was allowed. -/
theorem admitted_call (limit : Nat) (length : Int) (w : Option Window) (t : Int) :
    (call limit length w t).1.admitted = (current length w t).admitted + (call limit length w t).2.toNat := by
  rw [call]
  split <;> rfl

theorem allowed_call : (call limit length w t).2 = true ↔ (current length w t).admitted < limit := by
  rw [call]
  split <;> rename_i h <;> simp [h]

theorem admitted_call_le (h : (current length w t).admitted ≤ limit) : (call limit length w t).1.admitted ≤ limit := by
  rw [call]
  split
  · assumption
  · exact h

theorem admitted_current_le (length t : Int) (h : ∀ v ∈ w, v.admitted ≤ limit) : (current length w t).admitted ≤ limit := by
  rcases current_cases length w t with ⟨v, rfl, -, hv⟩ | ⟨-, hv⟩
  · rw [hv]
    exact h v rfl
  · rw [hv]
    exact Nat.zero_le _

/-! ## One window -/

/-- How many of some calls a window has admitted. -/
def admittedBy (start : Int) (cs : List Call) : Nat := cs.countP fun c => c.allowed ∧ c.window = start

theorem admittedBy_cons (start : Int) (w : Option Window) (t : Int) (ts : List Int) :
    admittedBy start (calls limit length w (t :: ts)) =
      admittedBy start (calls limit length (some (call limit length w t).1) ts) +
        if (call limit length w t).2 ∧ (current length w t).start = start then 1 else 0 := by
  rw [calls, admittedBy, List.countP_cons]
  simp only [start_call, decide_eq_true_eq]
  rfl

theorem admittedBy_cons_le (limit : Nat) (length start : Int) (w : Option Window) (t : Int) (ts : List Int) :
    admittedBy start (calls limit length w (t :: ts)) ≤
      admittedBy start (calls limit length (some (call limit length w t).1) ts) + (call limit length w t).2.toNat := by
  rw [admittedBy_cons]
  cases (call limit length w t).2
  · simp
  · simp only [true_and, Bool.toNat_true]
    split <;> omega

/-- A window that is over admits nothing any more. -/
theorem admittedBy_eq_zero (hpos : 0 < length) {start : Int} (h : start < v.start) :
    admittedBy start (calls limit length (some v) ts) = 0 := by
  induction ts generalizing v with
  | nil => rfl
  | cons t ts ih =>
    have hlater : start < (current length (some v) t).start := by
      rcases current_cases length (some v) t with ⟨u, hu, -, hcur⟩ | ⟨hlapsed, hcur⟩
      · rw [hcur, ← Option.some.inj hu]
        exact h
      · have := hlapsed v rfl
        rw [hcur]
        simp only
        omega
    rw [admittedBy_cons, ih (by rwa [start_call]), if_neg fun hin => absurd hin.2 (by omega)]

/-- The window there is admits what is left of its number. -/
theorem admittedBy_current (hpos : 0 < length) (h : v.admitted ≤ limit) (ts : List Int) :
    admittedBy v.start (calls limit length (some v) ts) + v.admitted ≤ limit := by
  induction ts generalizing v with
  | nil => simpa [calls, admittedBy] using h
  | cons t ts ih =>
    have hhead := admittedBy_cons_le limit length v.start (some v) t ts
    have hadmitted := admitted_call limit length (some v) t
    have hstart := start_call limit length (some v) t
    rcases current_cases length (some v) t with ⟨u, hu, -, hcur⟩ | ⟨hlapsed, hcur⟩
    · cases hu
      have hnext := ih (v := (call limit length (some v) t).1) (admitted_call_le (by rwa [hcur]))
      rw [hstart, hcur] at hnext
      rw [hcur] at hadmitted
      omega
    · -- The call starts the next window.
      have hlater := hlapsed v rfl
      have hzero : admittedBy v.start (calls limit length (some (call limit length (some v) t).1) ts) = 0 := by
        refine admittedBy_eq_zero hpos ?_
        rw [hstart, hcur]
        simp only
        omega
      rw [admittedBy_cons, hzero, if_neg fun hin => absurd hin.2 (by rw [hcur]; simp only; omega)]
      omega

/-- **A window admits at most its number.** -/
theorem admittedBy_le (hpos : 0 < length) (h : ∀ v ∈ w, v.admitted ≤ limit) (start : Int) :
    admittedBy start (calls limit length w ts) ≤ limit := by
  induction ts generalizing w with
  | nil => exact Nat.zero_le _
  | cons t ts ih =>
    by_cases hstart : (current length w t).start = start
    · have hcur := admitted_current_le length t h
      have hrest := admittedBy_current hpos (admitted_call_le hcur) ts
      have hadmitted := admitted_call limit length w t
      have hhead := admittedBy_cons_le limit length start w t ts
      rw [start_call, hstart] at hrest
      omega
    · rw [admittedBy_cons, if_neg fun hin => hstart hin.2]
      exact ih fun v hv => Option.some.inj hv ▸ admitted_call_le (admitted_current_le length t h)

/-! ## An interval of one length -/

/-- How many of some calls were allowed in an interval, its ends included. -/
def admittedIn (a b : Int) (cs : List Call) : Nat := cs.countP fun c => c.allowed ∧ a ≤ c.time ∧ c.time ≤ b

theorem admittedIn_cons (a b : Int) (w : Option Window) (t : Int) (ts : List Int) :
    admittedIn a b (calls limit length w (t :: ts)) =
      admittedIn a b (calls limit length (some (call limit length w t).1) ts) +
        if (call limit length w t).2 ∧ a ≤ t ∧ t ≤ b then 1 else 0 := by
  rw [calls, admittedIn, List.countP_cons]
  simp only [decide_eq_true_eq]
  rfl

theorem admittedIn_cons_le (limit : Nat) (length a b : Int) (w : Option Window) (t : Int) (ts : List Int) :
    admittedIn a b (calls limit length w (t :: ts)) ≤
      admittedIn a b (calls limit length (some (call limit length w t).1) ts) + (call limit length w t).2.toNat := by
  rw [admittedIn_cons]
  cases (call limit length w t).2
  · simp
  · simp only [true_and, Bool.toNat_true]
    split <;> omega

theorem admittedIn_eq_zero {b : Int} (h : ∀ t ∈ ts, b < t) : admittedIn a b (calls limit length w ts) = 0 := by
  induction ts generalizing w with
  | nil => rfl
  | cons t ts ih =>
    have ht := h t List.mem_cons_self
    rw [admittedIn_cons, ih fun t ht => h t (List.mem_cons_of_mem _ ht), if_neg fun hin => absurd hin.2.2 (by omega)]

/-- A window that starts within the interval outlasts it. -/
theorem admittedIn_current (length : Int) (hsorted : ts.Pairwise (· ≤ ·)) (hstart : a < v.start) (h : v.admitted ≤ limit) :
    admittedIn a (a + length) (calls limit length (some v) ts) + v.admitted ≤ limit := by
  induction ts generalizing v with
  | nil => simpa [calls, admittedIn] using h
  | cons t ts ih =>
    obtain ⟨hlater, hsorted⟩ := List.pairwise_cons.mp hsorted
    by_cases hin : t ≤ a + length
    · have hcur : current length (some v) t = v := if_neg (by omega)
      have hadmitted := admitted_call limit length (some v) t
      have hrest := ih (v := (call limit length (some v) t).1) hsorted (by rwa [start_call, hcur])
        (admitted_call_le (by rwa [hcur]))
      have hhead := admittedIn_cons_le limit length a (a + length) (some v) t ts
      rw [hcur] at hadmitted
      omega
    · have hzero : admittedIn a (a + length) (calls limit length (some v) (t :: ts)) = 0 :=
        admittedIn_eq_zero
          (List.forall_mem_cons.mpr ⟨not_le.mp hin, fun u hu => (not_le.mp hin).trans_le (hlater u hu)⟩)
      omega

/-- The window that the interval begins in, and one more. -/
theorem admittedIn_current_next (length : Int) (hsorted : ts.Pairwise (· ≤ ·)) (hlasts : a < v.start + length)
    (h : v.admitted ≤ limit) : admittedIn a (a + length) (calls limit length (some v) ts) + v.admitted ≤ 2 * limit := by
  induction ts generalizing v with
  | nil =>
    simp only [calls, admittedIn, List.countP_nil]
    omega
  | cons t ts ih =>
    obtain ⟨-, hsorted⟩ := List.pairwise_cons.mp hsorted
    have hcur := admitted_current_le (w := some v) length t fun u hu => Option.some.inj hu ▸ h
    have hadmitted := admitted_call limit length (some v) t
    have hhead := admittedIn_cons_le limit length a (a + length) (some v) t ts
    rcases current_cases length (some v) t with ⟨u, hu, -, hv⟩ | ⟨hlapsed, hv⟩
    · cases hu
      have hrest := ih (v := (call limit length (some v) t).1) hsorted (by rwa [start_call, hv]) (admitted_call_le hcur)
      rw [hv] at hadmitted
      omega
    · -- The next window starts after the interval has begun.
      have hstart := hlapsed v rfl
      have hrest := admittedIn_current length (a := a) (v := (call limit length (some v) t).1) hsorted
        (by rw [start_call, hv]; simp only; omega) (admitted_call_le hcur)
      rw [hv] at hadmitted
      simp only at hadmitted
      omega

/-- **In any interval of one length** at most two windows admit anything. -/
theorem admittedIn_le (hpos : 0 < length) (hsorted : ts.Pairwise (· ≤ ·)) (h : ∀ v ∈ w, v.admitted ≤ limit) (a : Int) :
    admittedIn a (a + length) (calls limit length w ts) ≤ 2 * limit := by
  induction ts generalizing w with
  | nil => exact Nat.zero_le _
  | cons t ts ih =>
    obtain ⟨-, hrest⟩ := List.pairwise_cons.mp hsorted
    have hcur := admitted_current_le length t h
    by_cases hat : a ≤ t
    · have hadmitted := admitted_call limit length w t
      have hhead := admittedIn_cons_le limit length a (a + length) w t ts
      have hnext := admittedIn_current_next length (a := a) (v := (call limit length w t).1) hrest (by
        rcases current_cases length w t with ⟨v, -, hin, hv⟩ | ⟨-, hv⟩
        · rw [start_call, hv]
          omega
        · rw [start_call, hv]
          simp only
          omega) (admitted_call_le hcur)
      omega
    · rw [admittedIn_cons, if_neg fun hin => hat hin.2.1]
      exact ih hrest fun v hv => Option.some.inj hv ▸ admitted_call_le hcur

/-! ## Refusals -/

theorem calls_append (w : Option Window) (ts us : List Int) : calls limit length w (ts ++ us) =
    calls limit length w ts ++ calls limit length (after limit length w ts) us := by
  induction ts generalizing w with
  | nil => rfl
  | cons t ts ih => rw [List.cons_append, calls, calls, ih]; rfl

theorem after_append (w : Option Window) (ts us : List Int) :
    after limit length w (ts ++ us) = after limit length (after limit length w ts) us := by
  induction ts generalizing w with
  | nil => rfl
  | cons t ts ih => exact ih _

/-- How many of some calls were allowed. -/
def admitted (cs : List Call) : Nat := cs.countP (·.allowed)

/-- Where the window comes from that a list of calls has led to: it is the first one still, or one of the
calls has started it. All the calls since then fell into it. -/
theorem window_of_after (h : after limit length w ts = some v) :
    (∃ u, w = some u ∧ v.start = u.start ∧ (∀ t ∈ ts, t < v.start + length) ∧
      v.admitted = u.admitted + admitted (calls limit length w ts)) ∨
    ∃ us vs, ts = us ++ v.start :: vs ∧ (∀ t ∈ vs, t < v.start + length) ∧
      v.admitted = admitted (calls limit length (after limit length w us) (v.start :: vs)) := by
  induction ts using List.reverseRecOn generalizing v with
  | nil => exact .inl ⟨v, h, rfl, fun t ht => absurd ht List.not_mem_nil, rfl⟩
  | append_singleton ts t ih =>
    rw [after_append] at h
    obtain rfl := Option.some.inj h
    have hcount := admitted_call limit length (after limit length w ts) t
    have hone (u : Option Window) : admitted (calls limit length u [t]) = (call limit length u t).2.toNat := by
      rw [calls, admitted, List.countP_cons]
      cases (call limit length u t).2 <;> rfl
    have hsum (cs ds : List Call) : admitted (cs ++ ds) = admitted cs + admitted ds := List.countP_append
    rw [start_call, hcount]
    rcases current_cases length (after limit length w ts) t with ⟨u, hu, hin, hcur⟩ | ⟨-, hcur⟩
    · -- The call falls into the window there is.
      rw [hcur]
      rcases ih hu with ⟨u', hw, hstart, hall, hadmitted⟩ | ⟨us, vs, hsplit, hall, hadmitted⟩
      · refine .inl ⟨u', hw, hstart, ?_, ?_⟩
        · intro x hx
          rcases List.mem_append.mp hx with hx | hx
          · exact hall x hx
          · exact List.mem_singleton.mp hx ▸ hin
        · rw [calls_append, hsum, hone, hadmitted]
          omega
      · refine .inr ⟨us, vs ++ [t], by rw [hsplit, List.append_assoc, List.cons_append], ?_, ?_⟩
        · intro x hx
          rcases List.mem_append.mp hx with hx | hx
          · exact hall x hx
          · exact List.mem_singleton.mp hx ▸ hin
        · rw [← List.cons_append, calls_append, hsum, ← after_append, ← hsplit, hone, hadmitted]
    · -- It starts the next one.
      rw [hcur]
      refine .inr ⟨ts, [], rfl, fun x hx => absurd hx List.not_mem_nil, ?_⟩
      rw [hone, Nat.zero_add]

/-- **A call is refused** only when the window it falls into is full. -/
theorem full_of_refused (hlimit : 0 < limit) (h : (call limit length w t).2 = false) :
    ∃ v, w = some v ∧ t < v.start + length ∧ limit ≤ v.admitted := by
  have hfull : limit ≤ (current length w t).admitted := by
    rw [← not_lt, ← allowed_call, h]
    decide
  rcases current_cases length w t with ⟨v, hw, hin, hcur⟩ | ⟨-, hcur⟩
  · exact ⟨v, hw, hin, hcur ▸ hfull⟩
  · rw [hcur] at hfull
    exact absurd hfull (by simp only; omega)

theorem time_mem_of_mem_calls {c : Call} (h : c ∈ calls limit length w ts) : c.time ∈ ts := by
  induction ts generalizing w with
  | nil => cases h
  | cons t ts ih =>
    rcases List.mem_cons.mp h with rfl | h
    · exact List.mem_cons_self
    · exact List.mem_cons_of_mem _ (ih h)

/-- **A call is refused** only when a full number of calls was allowed in the length of a window before it. -/
theorem le_of_refused (hlimit : 0 < limit) (hsorted : (ts ++ [t]).Pairwise (· ≤ ·))
    (hfirst : ∀ u ∈ w, u.admitted = 0 ∧ ∀ x ∈ ts, u.start ≤ x)
    (h : (call limit length (after limit length w ts) t).2 = false) :
    limit ≤ (calls limit length w ts).countP fun c => c.allowed ∧ t < c.time + length ∧ c.time ≤ t := by
  obtain ⟨v, hv, hin, hfull⟩ := full_of_refused hlimit h
  obtain ⟨hordered, -, hlast⟩ := List.pairwise_append.mp hsorted
  have hbefore : ∀ x ∈ ts, x ≤ t := fun x hx => hlast x hx t List.mem_cons_self
  have hcount (w : Option Window) (us : List Int) (hus : ∀ x ∈ us, v.start ≤ x ∧ x ≤ t) :
      admitted (calls limit length w us) ≤
        (calls limit length w us).countP fun c => c.allowed ∧ t < c.time + length ∧ c.time ≤ t := by
    refine List.countP_mono_left fun c hc hallowed => ?_
    have htime := hus _ (time_mem_of_mem_calls hc)
    exact decide_eq_true ⟨hallowed, by omega, htime.2⟩
  rcases window_of_after hv with ⟨u, hu, hstart, -, hadmitted⟩ | ⟨us, vs, rfl, -, hadmitted⟩
  · obtain ⟨hzero, hfrom⟩ := hfirst u hu
    have := hcount w ts fun x hx => ⟨hstart ▸ hfrom x hx, hbefore x hx⟩
    omega
  · obtain ⟨-, hsince, -⟩ := List.pairwise_append.mp hordered
    have := hcount (after limit length w us) (v.start :: vs) fun x hx =>
      ⟨(List.mem_cons.mp hx).elim (fun heq => heq.ge) ((List.pairwise_cons.mp hsince).1 x),
        hbefore x (List.mem_append_right _ hx)⟩
    rw [calls_append, List.countP_append]
    omega

/-- What a call was answered, in the middle of others. -/
theorem calls_eq_append_cons {before later : List Call} {c : Call}
    (h : calls limit length w ts = before ++ c :: later) :
    ∃ us vs, ts = us ++ c.time :: vs ∧ before = calls limit length w us ∧
      c.allowed = (call limit length (after limit length w us) c.time).2 := by
  induction before generalizing w ts with
  | nil =>
    cases ts with
    | nil => cases h
    | cons t ts =>
      rw [calls, List.nil_append, List.cons.injEq] at h
      obtain ⟨rfl, -⟩ := h
      exact ⟨[], ts, rfl, rfl, rfl⟩
  | cons b before ih =>
    cases ts with
    | nil => cases h
    | cons t ts =>
      rw [calls, List.cons_append, List.cons.injEq] at h
      obtain ⟨rfl, hrest⟩ := h
      obtain ⟨us, vs, rfl, rfl, hallowed⟩ := ih hrest
      exact ⟨t :: us, vs, rfl, rfl, hallowed⟩

end FixedWindow
