import Mathlib.Data.List.Basic

/-! # Runs of a step function

A system that takes one step for each event. A property of events and states that holds along a run
carries an invariant to its end (`Along.invariant`). -/

namespace Run

variable {E S : Type*} (step : E → S → S)

/-- The state after a list of events. -/
def run (events : List E) (s : S) : S := events.foldl (fun s e => step e s) s

/-- A property that each event has in the state it finds. -/
def Along (P : E → S → Prop) : List E → S → Prop
  | [], _ => True
  | e :: events, s => P e s ∧ Along P events (step e s)

variable {step} {P : E → S → Prop} {Inv : S → Prop} {events : List E} {s : S}

@[simp] theorem run_nil (s : S) : run step [] s = s := rfl

@[simp] theorem run_cons (e : E) (events : List E) (s : S) :
    run step (e :: events) s = run step events (step e s) := rfl

theorem run_append (events events' : List E) (s : S) :
    run step (events ++ events') s = run step events' (run step events s) :=
  List.foldl_append

instance decidableAlong [∀ e s, Decidable (P e s)] : ∀ events s, Decidable (Along step P events s)
  | [], _ => .isTrue trivial
  | e :: events, s =>
    have := decidableAlong events (step e s)
    inferInstanceAs (Decidable (P e s ∧ Along step P events (step e s)))

/-- A property along two runs, one after the other. -/
theorem along_append {events events' : List E} {s : S} : Along step P (events ++ events') s ↔
    Along step P events s ∧ Along step P events' (run step events s) := by
  induction events generalizing s with
  | nil => exact (true_and _).to_iff.symm
  | cons e events ih => simp only [List.cons_append, Along, ih, run_cons, and_assoc]

theorem Along.mono {Q : E → S → Prop} (himp : ∀ e s, P e s → Q e s) (h : Along step P events s) :
    Along step Q events s := by
  induction events generalizing s with
  | nil => trivial
  | cons e events ih => exact ⟨himp e s h.1, ih h.2⟩

theorem Along.and {Q : E → S → Prop} (h : Along step P events s) (h' : Along step Q events s) :
    Along step (fun e s => P e s ∧ Q e s) events s := by
  induction events generalizing s with
  | nil => trivial
  | cons e events ih => exact ⟨⟨h.1, h'.1⟩, ih h.2 h'.2⟩

/-- What holds after each part of a run from its start. -/
theorem forall_prefix_append_singleton {K : List E → Prop} {events : List E} {e : E} :
    (∀ before after, events ++ [e] = before ++ after → K before) ↔
      (∀ before after, events = before ++ after → K before) ∧ K (events ++ [e]) := by
  constructor
  · intro hall
    refine ⟨fun before after heq => hall before (after ++ [e]) ?_, hall _ [] (List.append_nil _).symm⟩
    rw [heq, List.append_assoc]
  · rintro ⟨hearlier, hlast⟩ before after heq
    rcases List.eq_nil_or_concat after with rfl | ⟨after, e', rfl⟩
    · rw [List.append_nil] at heq
      exact heq ▸ hlast
    · rw [List.concat_eq_append, ← List.append_assoc] at heq
      exact hearlier before after (List.append_inj_left' heq rfl)

/-- What every step keeps, a run keeps. -/
theorem invariant (hstep : ∀ e s, Inv s → Inv (step e s)) (events : List E) (hinv : Inv s) :
    Inv (run step events s) := by
  induction events generalizing s with
  | nil => exact hinv
  | cons e events ih => exact ih (hstep e s hinv)

/-- What the steps of some events keep, a run of them keeps. -/
theorem invariant_of_mem (events : List E) (hstep : ∀ e ∈ events, ∀ s, Inv s → Inv (step e s))
    (hinv : Inv s) : Inv (run step events s) := by
  induction events generalizing s with
  | nil => exact hinv
  | cons e events ih =>
    exact ih (fun e' he' => hstep e' (List.mem_cons_of_mem e he')) (hstep e List.mem_cons_self s hinv)

/-- **The invariant rule.** What one step keeps, given the property, a run keeps. -/
theorem Along.invariant (hstep : ∀ e s, P e s → Inv s → Inv (step e s))
    (h : Along step P events s) (hinv : Inv s) : Inv (run step events s) := by
  induction events generalizing s with
  | nil => exact hinv
  | cons e events ih => exact ih h.2 (hstep e s h.1 hinv)

end Run
