import NetlinkHub.Concurrent.Program
import NetlinkHub.Run.Steps
import Mathlib.Algebra.BigOperators.Group.Finset.Piecewise
import Mathlib.Algebra.Order.BigOperators.Group.Finset
import Mathlib.Data.List.Infix

/-! # Threads over a shared state

A machine runs one thread for each request. In each move a request comes in, one thread carries out
its next statement, or the environment changes the state. The log keeps every statement that was
carried out, with the thread and the state before it.

An outline proves something about every interleaving: an invariant of the log, and a relation that
every move keeps between the log before and after. A program is safe when each of its statements keeps
both from any state the others may have left, and what it answers has its postcondition. Safe programs
compose (`Safe.bind`), and a machine whose handlers are safe keeps the outline along every run
(`Outline.sound`). -/

namespace Concurrent

/-- What each request runs, what each effect does, and what the environment does. -/
structure Machine (S W ε Q I A : Type) where
  handler : Q → Prog S W ε A
  exec : W → S → S
  env : I → S → S

/-- One statement that was carried out. -/
structure Step (S W Q : Type) where
  thread : Nat
  request : Q
  write : W
  before : S

/-- The shared state, and every statement so far, newest first. -/
structure Log (S W Q : Type) where
  shared : S
  history : List (Step S W Q)

/-- A request and what is left of its program. -/
structure Thread (S W ε Q A : Type) where
  request : Q
  prog : Prog S W ε A

/-- The log and the threads, in the order of their requests. -/
structure Config (S W ε Q A : Type) where
  log : Log S W Q
  threads : List (Thread S W ε Q A)

/-- What happens next. -/
inductive Move (Q I : Type) where
  | call (q : Q)
  | step (i : Nat)
  | env (e : I)

variable {S W ε Q I A α β : Type}

/-- The statements of one thread. -/
def Log.own (σ : Log S W Q) (i : Nat) : List (Step S W Q) := σ.history.filter (·.thread = i)

/-- A thread carries out an effect. -/
def Log.perform (σ : Log S W Q) (exec : W → S → S) (i : Nat) (q : Q) (w : W) : Log S W Q :=
  ⟨exec w σ.shared, ⟨i, q, w, σ.shared⟩ :: σ.history⟩

/-- The environment changes the state. -/
def Log.change (σ : Log S W Q) (f : S → S) : Log S W Q := { σ with shared := f σ.shared }

/-- A thread carries out its next statement, if it has one. -/
def Config.advance (exec : W → S → S) (i : Nat) (c : Config S W ε Q A) : Config S W ε Q A :=
  match c.threads[i]? with
  | some ⟨q, .stmt w next⟩ => ⟨c.log.perform exec i q w, c.threads.set i ⟨q, next c.log.shared⟩⟩
  | _ => c

/-- One move of a machine. -/
def Machine.step (M : Machine S W ε Q I A) : Move Q I → Config S W ε Q A → Config S W ε Q A
  | .call q, c => { c with threads := c.threads ++ [⟨q, M.handler q⟩] }
  | .step i, c => c.advance M.exec i
  | .env e, c => { c with log := c.log.change (M.env e) }

/-- No thread has started. -/
def Config.initial (s : S) : Config S W ε Q A := ⟨⟨s, []⟩, []⟩

/-- Every thread has come to an end. -/
def Config.Finished (c : Config S W ε Q A) : Prop :=
  ∀ t ∈ c.threads, (∃ a, t.prog = .done a) ∨ ∃ e, t.prog = .raise e

/-- A thread has answered its request. -/
def Config.Answered (c : Config S W ε Q A) (i : Nat) (q : Q) (a : A) : Prop :=
  c.threads[i]? = some ⟨q, .done a⟩

@[simp] theorem Log.own_perform_self (σ : Log S W Q) (exec : W → S → S) (i : Nat) (q : Q) (w : W) :
    (σ.perform exec i q w).own i = ⟨i, q, w, σ.shared⟩ :: σ.own i := by
  simp [Log.own, Log.perform]

theorem Log.own_perform_of_ne (σ : Log S W Q) (exec : W → S → S) {i j : Nat} (q : Q) (w : W)
    (h : i ≠ j) : (σ.perform exec i q w).own j = σ.own j := by
  simp [Log.own, Log.perform, h]

/-- A longer history has the statements of each thread. -/
theorem Log.own_subset {σ τ : Log S W Q} {i : Nat} (h : σ.history <:+ τ.history) :
    σ.own i ⊆ τ.own i := by
  intro step hstep
  obtain ⟨hmem, hi⟩ := List.mem_filter.mp hstep
  exact List.mem_filter.mpr ⟨h.subset hmem, hi⟩

/-- Of the statements of two threads, one is the later one. -/
theorem Log.rel_of_pairwise {σ : Log S W Q} {R : Step S W Q → Step S W Q → Prop}
    (h : σ.history.Pairwise R) {i j : Nat} (hij : i ≠ j) {a b : Step S W Q} (ha : a ∈ σ.own i)
    (hb : b ∈ σ.own j) : R a b ∨ R b a := by
  obtain ⟨hamem, hai⟩ := List.mem_filter.mp ha
  obtain ⟨hbmem, hbj⟩ := List.mem_filter.mp hb
  obtain ⟨m, hm, rfl⟩ := List.getElem_of_mem hamem
  obtain ⟨n, hn, rfl⟩ := List.getElem_of_mem hbmem
  rcases lt_trichotomy m n with hlt | rfl | hlt
  · exact .inl (List.pairwise_iff_getElem.mp h m n hm hn hlt)
  · exact absurd ((of_decide_eq_true hai).symm.trans (of_decide_eq_true hbj)) hij
  · exact .inr (List.pairwise_iff_getElem.mp h n m hn hm hlt)

/-- A property of the log, now and before each of its statements. -/
def Log.Always (I : Log S W Q → Prop) (σ : Log S W Q) : Prop :=
  I σ ∧ ∀ step earlier, step :: earlier <:+ σ.history → I ⟨step.before, earlier⟩

theorem Log.Always.perform {I : Log S W Q → Prop} {σ : Log S W Q} {exec : W → S → S} {i : Nat} {q : Q}
    {w : W} (h : σ.Always I) (hnow : I (σ.perform exec i q w)) : (σ.perform exec i q w).Always I := by
  refine ⟨hnow, fun step earlier hsuffix => ?_⟩
  rcases List.suffix_cons_iff.mp hsuffix with heq | hsuffix
  · obtain ⟨rfl, rfl⟩ := List.cons.inj heq
    exact h.1
  · exact h.2 step earlier hsuffix

theorem Log.always_initial {I : Log S W Q → Prop} {s : S} (h : I ⟨s, []⟩) :
    (⟨s, []⟩ : Log S W Q).Always I :=
  ⟨h, fun step earlier hsuffix => by simp at hsuffix⟩

/-- **Counting by threads.** -/
theorem Log.countP_history (σ : Log S W Q) (p : Step S W Q → Bool) {n : Nat}
    (h : ∀ step ∈ σ.history, step.thread < n) :
    σ.history.countP p = ∑ i ∈ Finset.range n, (σ.own i).countP p := by
  obtain ⟨shared, history⟩ := σ
  induction history with
  | nil => simp [Log.own]
  | cons step history ih =>
    have hstep : step.thread < n := h step List.mem_cons_self
    have hcons : ∀ i, ((step :: history).filter (·.thread = i)).countP p =
        (history.filter (·.thread = i)).countP p +
          if step.thread = i then (if p step then 1 else 0) else 0 := by
      intro i
      rw [List.filter_cons]
      by_cases hi : step.thread = i
      · simp [hi, List.countP_cons]
      · simp [hi]
    show (step :: history).countP p =
      ∑ i ∈ Finset.range n, ((step :: history).filter (·.thread = i)).countP p
    rw [Finset.sum_congr rfl fun i _ => hcons i, Finset.sum_add_distrib, Finset.sum_ite_eq,
      if_pos (Finset.mem_range.mpr hstep), List.countP_cons]
    exact congrArg (· + _) (ih fun s hs => h s (List.mem_cons_of_mem _ hs))

/-- Two threads together. -/
theorem Log.countP_own_add_le (σ : Log S W Q) (p : Step S W Q → Bool) {i j : Nat} (h : i ≠ j) :
    (σ.own i).countP p + (σ.own j).countP p ≤ σ.history.countP p := by
  obtain ⟨shared, history⟩ := σ
  simp only [Log.own, List.countP_filter]
  induction history with
  | nil => simp
  | cons step history ih =>
    simp only [List.countP_cons]
    have hone : (if p step && decide (step.thread = i) then 1 else 0) +
        (if p step && decide (step.thread = j) then 1 else 0) ≤ if p step then 1 else 0 := by
      cases p step with
      | false => simp
      | true =>
        by_cases hi : step.thread = i
        · simp [hi, h]
        · simp only [hi, decide_false, Bool.and_false, Bool.false_eq_true, if_false, if_true]
          split <;> omega
    omega

/-- What each thread has done at most as often as something else, all have together. -/
theorem Log.countP_history_le (σ : Log S W Q) {p p' : Step S W Q → Bool} {n : Nat}
    (h : ∀ step ∈ σ.history, step.thread < n)
    (hle : ∀ i, i < n → (σ.own i).countP p ≤ (σ.own i).countP p') :
    σ.history.countP p ≤ σ.history.countP p' := by
  rw [σ.countP_history p h, σ.countP_history p' h]
  exact Finset.sum_le_sum fun i hi => hle i (Finset.mem_range.mp hi)

/-! ## Outlines -/

/-- What every move keeps: an invariant, and a relation between earlier and later logs. A condition on
the statements of a run is put before either as a condition on the history. -/
structure Outline (M : Machine S W ε Q I A) where
  inv : Log S W Q → Prop
  rely : Log S W Q → Log S W Q → Prop
  refl : ∀ σ, rely σ σ
  trans : ∀ {σ τ υ}, rely σ τ → rely τ υ → rely σ υ
  env : ∀ e σ, inv σ → inv (σ.change (M.env e)) ∧ rely σ (σ.change (M.env e))

namespace Outline

variable {M : Machine S W ε Q I A} (O : Outline M)

/-- What the others may do between two statements of a thread. -/
def Later (i : Nat) (σ τ : Log S W Q) : Prop := O.rely σ τ ∧ τ.own i = σ.own i

/-- A program is safe at a log: every statement keeps the outline, and every answer its
postcondition. -/
def Safe (i : Nat) (q : Q) (post : Except ε α → Log S W Q → Prop) :
    Prog S W ε α → Log S W Q → Prop
  | .done a, σ => post (.ok a) σ
  | .raise e, σ => post (.error e) σ
  | .stmt w next, σ => ∀ τ, O.Later i σ τ → O.inv τ →
    O.rely τ (τ.perform M.exec i q w) ∧ O.inv (τ.perform M.exec i q w) ∧
      Safe i q post (next τ.shared) (τ.perform M.exec i q w)

/-- A postcondition that the others cannot take away. -/
def Stable (i : Nat) (post : Except ε α → Log S W Q → Prop) : Prop :=
  ∀ r σ τ, O.Later i σ τ → post r σ → post r τ

variable {O} {i : Nat} {q : Q} {σ τ : Log S W Q} {post : Except ε α → Log S W Q → Prop}
  {goal : Except ε β → Log S W Q → Prop}

theorem Later.trans {υ : Log S W Q} (h : O.Later i σ τ) (h' : O.Later i τ υ) : O.Later i σ υ :=
  ⟨O.trans h.1 h'.1, h'.2.trans h.2⟩

/-- A safe program stays safe whatever the others do. -/
theorem Safe.later {p : Prog S W ε α} (hstable : O.Stable i post) (h : O.Safe i q post p σ)
    (hlater : O.Later i σ τ) : O.Safe i q post p τ := by
  cases p with
  | done a => exact hstable _ _ _ hlater h
  | raise e => exact hstable _ _ _ hlater h
  | stmt w next => exact fun υ hυ => h υ (hlater.trans hυ)

/-- **Sequencing.** What is known before the first program may be used after it, by the relation. -/
theorem Safe.bind {p : Prog S W ε α} {f : α → Prog S W ε β} (h : O.Safe i q post p σ)
    (hinv : O.inv σ)
    (hdone : ∀ a τ, O.rely σ τ → O.inv τ → post (.ok a) τ → O.Safe i q goal (f a) τ)
    (hraise : ∀ e τ, O.rely σ τ → O.inv τ → post (.error e) τ → goal (.error e) τ) :
    O.Safe i q goal (p >>= f) σ := by
  induction p generalizing σ with
  | done a => exact hdone a σ (O.refl σ) hinv h
  | raise e => exact hraise e σ (O.refl σ) hinv h
  | stmt w next ih =>
    intro τ hlater hτ
    obtain ⟨hrely, hkept, hsafe⟩ := h τ hlater hτ
    have hfrom : O.rely σ (τ.perform M.exec i q w) := O.trans hlater.1 hrely
    exact ⟨hrely, hkept, ih τ.shared hsafe hkept
      (fun a υ hυ => hdone a υ (O.trans hfrom hυ)) (fun e υ hυ => hraise e υ (O.trans hfrom hυ))⟩

/-- A program is safe for a weaker postcondition, by the relation. -/
theorem Safe.mono {p : Prog S W ε α} {post' : Except ε α → Log S W Q → Prop}
    (h : O.Safe i q post p σ) (hinv : O.inv σ)
    (himp : ∀ r τ, O.rely σ τ → O.inv τ → post r τ → post' r τ) : O.Safe i q post' p σ := by
  induction p generalizing σ with
  | done a => exact himp _ σ (O.refl σ) hinv h
  | raise e => exact himp _ σ (O.refl σ) hinv h
  | stmt w next ih =>
    intro τ hlater hτ
    obtain ⟨hrely, hkept, hsafe⟩ := h τ hlater hτ
    exact ⟨hrely, hkept, ih τ.shared hsafe hkept
      fun r υ hυ => himp r υ (O.trans (O.trans hlater.1 hrely) hυ)⟩

/-- What a program answers, whatever the others do, may be added to its postcondition. -/
theorem Safe.answers {p : Prog S W ε α} {R : α → Prop} (h : O.Safe i q post p σ) (hanswers : p.Answers R) :
    O.Safe i q (fun r τ => post r τ ∧ ∀ a, r = .ok a → R a) p σ := by
  induction p generalizing σ with
  | done a => exact ⟨h, fun _ ha => Except.ok.inj ha ▸ hanswers⟩
  | raise e => exact ⟨h, nofun⟩
  | stmt w next ih =>
    intro τ hlater hτ
    obtain ⟨hrely, hkept, hsafe⟩ := h τ hlater hτ
    exact ⟨hrely, hkept, ih τ.shared hsafe (hanswers τ.shared)⟩

/-- What a program raises, whatever the others do, may be added to its postcondition. -/
theorem Safe.raises {p : Prog S W ε α} {R : ε → Prop} (h : O.Safe i q post p σ) (hraises : p.Raises R) :
    O.Safe i q (fun r τ => post r τ ∧ ∀ e, r = .error e → R e) p σ := by
  induction p generalizing σ with
  | done a => exact ⟨h, nofun⟩
  | raise e => exact ⟨h, fun _ he => Except.error.inj he ▸ hraises⟩
  | stmt w next ih =>
    intro τ hlater hτ
    obtain ⟨hrely, hkept, hsafe⟩ := h τ hlater hτ
    exact ⟨hrely, hkept, ih τ.shared hsafe (hraises τ.shared)⟩

/-- **Programs with harmless effects.** If each effect keeps the outline from any log that has the
invariant, then the program does. -/
theorem Safe.of_only {P : W → Prop} {p : Prog S W ε α} (h : p.Only P)
    (hkeep : ∀ w σ, P w → O.inv σ →
      O.rely σ (σ.perform M.exec i q w) ∧ O.inv (σ.perform M.exec i q w)) :
    O.Safe i q (fun _ _ => True) p σ := by
  induction p generalizing σ with
  | done a => trivial
  | raise e => trivial
  | stmt w next ih =>
    intro τ _ hτ
    obtain ⟨hrely, hkept⟩ := hkeep w τ h.1 hτ
    exact ⟨hrely, hkept, ih τ.shared (h.2 τ.shared)⟩

/-- An outline with something more in its invariant that is never lost. -/
def under (O : Outline M) (K : Log S W Q → Prop) (hkeep : ∀ σ τ, O.rely σ τ → K σ → K τ) : Outline M where
  inv σ := O.inv σ ∧ K σ
  rely := O.rely
  refl := O.refl
  trans := O.trans
  env e σ h := by
    obtain ⟨hinv, hrely⟩ := O.env e σ h.1
    exact ⟨⟨hinv, hkeep _ _ hrely h.2⟩, hrely⟩

/-- What is safe stays safe with it. -/
theorem Safe.under {K : Log S W Q → Prop} {hkeep : ∀ σ τ, O.rely σ τ → K σ → K τ} {p : Prog S W ε α}
    (h : O.Safe i q post p σ) : (O.under K hkeep).Safe i q post p σ := by
  induction p generalizing σ with
  | done a => exact h
  | raise e => exact h
  | stmt w next ih =>
    intro τ hlater hτ
    obtain ⟨hrely, hkept, hsafe⟩ := h τ hlater hτ.1
    exact ⟨hrely, ⟨hkept, hkeep _ _ hrely hτ.2⟩, ih τ.shared hsafe⟩

/-! ## What a thread keeps about its own statements -/

/-- From one property of its own statements a program leads to another, and keeps the outline. -/
structure Leads (O : Outline M) (i : Nat) (q : Q) (P K : List (Step S W Q) → Prop)
    (p : Prog S W ε α) : Prop where
  safe : ∀ σ, O.inv σ → P (σ.own i) → O.Safe i q (fun _ τ => K (τ.own i)) p σ

/-- A program keeps a property of its own statements, and the outline. -/
abbrev Keeps (O : Outline M) (i : Nat) (q : Q) (P : List (Step S W Q) → Prop) (p : Prog S W ε α) :
    Prop := O.Leads i q P P p

variable {P K : List (Step S W Q) → Prop}

theorem keeps_done (a : α) : O.Keeps i q P (.done a : Prog S W ε α) := ⟨fun _ _ h => h⟩

theorem keeps_raise (e : ε) : O.Keeps i q P (.raise e : Prog S W ε α) := ⟨fun _ _ h => h⟩

/-- An effect, and then a program that goes on from what the effect found. -/
theorem Leads.stmt {w : W} {next : S → Prog S W ε α} {R : S → List (Step S W Q) → Prop}
    (hkeep : ∀ σ, O.inv σ → P (σ.own i) → O.rely σ (σ.perform M.exec i q w) ∧
      O.inv (σ.perform M.exec i q w) ∧ R σ.shared (⟨i, q, w, σ.shared⟩ :: σ.own i))
    (hnext : ∀ s, O.Leads i q (R s) K (next s)) : O.Leads i q P K (.stmt w next) := by
  refine ⟨fun σ _ hP τ hlater hτ => ?_⟩
  rw [← hlater.2] at hP
  obtain ⟨hrely, hkept, hown⟩ := hkeep τ hτ hP
  refine ⟨hrely, hkept, (hnext τ.shared).safe _ hkept ?_⟩
  rw [Log.own_perform_self]
  exact hown

/-- A program, and then one that keeps what the first leads to. -/
theorem Leads.bind {p : Prog S W ε α} {f : α → Prog S W ε β} (h : O.Leads i q P K p)
    (hf : ∀ a, O.Keeps i q K (f a)) : O.Leads i q P K (p >>= f) :=
  ⟨fun σ hinv hP => (h.safe σ hinv hP).bind hinv (fun a τ _ hτ hown => (hf a).safe τ hτ hown)
    fun _ _ _ _ hown => hown⟩

/-- A program keeps what each of its effects keeps. -/
theorem keeps_of_only {R : W → Prop} {p : Prog S W ε α} (h : p.Only R)
    (hkeep : ∀ w σ, R w → O.inv σ → P (σ.own i) →
      O.rely σ (σ.perform M.exec i q w) ∧ O.inv (σ.perform M.exec i q w) ∧
        P (⟨i, q, w, σ.shared⟩ :: σ.own i)) : O.Keeps i q P p := by
  induction p with
  | done a => exact keeps_done a
  | raise e => exact keeps_raise e
  | stmt w next ih => exact .stmt (fun σ hσ hP => hkeep w σ h.1 hσ hP) fun s => ih s (h.2 s)

/-! ## Soundness -/

/-- The invariant holds and every thread is safe. -/
structure Good (O : Outline M) (post : Nat → Q → Except ε A → Log S W Q → Prop)
    (c : Config S W ε Q A) : Prop where
  inv : O.inv c.log
  threads : ∀ step ∈ c.log.history, step.thread < c.threads.length
  safe : ∀ i t, c.threads[i]? = some t → O.Safe i t.request (post i t.request) t.prog c.log

variable {post : Nat → Q → Except ε A → Log S W Q → Prop}

theorem own_eq_nil {c : Config S W ε Q A} (h : ∀ step ∈ c.log.history, step.thread < c.threads.length) :
    c.log.own c.threads.length = [] := by
  refine List.filter_eq_nil_iff.mpr fun step hstep => ?_
  have := h step hstep
  simpa using by omega

/-- **What one move keeps.** -/
theorem Good.step (hstable : ∀ i q, O.Stable i (post i q))
    (hstart : ∀ i q σ, O.inv σ → σ.own i = [] → O.Safe i q (post i q) (M.handler q) σ)
    {c : Config S W ε Q A} (m : Move Q I) (h : O.Good post c) :
    O.Good post (M.step m c) ∧ O.rely c.log (M.step m c).log := by
  cases m with
  | call q =>
    refine ⟨⟨h.inv, fun step hstep => ?_, fun i t ht => ?_⟩, O.refl _⟩
    · have := h.threads step hstep
      simp only [Machine.step, List.length_append, List.length_singleton]
      omega
    · rcases lt_or_ge i c.threads.length with hi | hi
      · exact h.safe i t (by simpa [Machine.step, List.getElem?_append_left hi] using ht)
      · simp only [Machine.step, List.getElem?_append_right hi] at ht
        obtain ⟨hlt, rfl⟩ := List.getElem?_eq_some_iff.mp ht
        have hlast : i = c.threads.length := by
          simp only [List.length_singleton] at hlt
          omega
        subst hlast
        simp only [Nat.sub_self, List.getElem_cons_zero]
        exact hstart _ q c.log h.inv (own_eq_nil h.threads)
  | env e =>
    obtain ⟨hinv, hrely⟩ := O.env e c.log h.inv
    exact ⟨⟨hinv, h.threads, fun i t ht => (h.safe i t ht).later (hstable i t.request) ⟨hrely, rfl⟩⟩,
      hrely⟩
  | step i =>
    show O.Good post (c.advance M.exec i) ∧ O.rely c.log (c.advance M.exec i).log
    unfold Config.advance
    split
    · rename_i q w next hi
      obtain ⟨hrely, hinv, hsafe⟩ :=
        h.safe i _ hi c.log ⟨O.refl _, rfl⟩ h.inv
      refine ⟨⟨hinv, fun step hstep => ?_, fun j t ht => ?_⟩, hrely⟩
      · rw [List.length_set]
        rcases List.mem_cons.mp hstep with rfl | hstep
        · exact (List.getElem?_eq_some_iff.mp hi).1
        · exact h.threads step hstep
      · rcases eq_or_ne i j with rfl | hij
        · rw [List.getElem?_set_self (List.getElem?_eq_some_iff.mp hi).1] at ht
          obtain rfl := Option.some.inj ht
          exact hsafe
        · -- Another thread: its own statements are the same as before.
          rw [List.getElem?_set_ne hij] at ht
          exact (h.safe j t ht).later (hstable j t.request)
            ⟨hrely, Log.own_perform_of_ne _ _ _ _ hij⟩
    · exact ⟨h, O.refl _⟩

/-- **Soundness.** Along every run the outline is kept, and the log at the end is related to the log
at the start. -/
theorem sound (hstable : ∀ i q, O.Stable i (post i q))
    (hstart : ∀ i q σ, O.inv σ → σ.own i = [] → O.Safe i q (post i q) (M.handler q) σ)
    (moves : List (Move Q I)) {c : Config S W ε Q A} (h : O.Good post c) :
    O.Good post (Run.run M.step moves c) ∧ O.rely c.log (Run.run M.step moves c).log := by
  induction moves generalizing c with
  | nil => exact ⟨h, O.refl _⟩
  | cons m moves ih =>
    obtain ⟨hgood, hrely⟩ := h.step hstable hstart m
    obtain ⟨hgood', hrely'⟩ := ih hgood
    exact ⟨hgood', O.trans hrely hrely'⟩

/-- A run starts with no thread. -/
theorem good_initial {s : S} (h : O.inv ⟨s, []⟩) : O.Good post (Config.initial s) :=
  ⟨h, by simp [Config.initial], by simp [Config.initial]⟩

/-- An answer has its postcondition. -/
theorem Good.answered {c : Config S W ε Q A} (h : O.Good post c) {a : A}
    (ha : c.Answered i q a) : post i q (.ok a) c.log :=
  h.safe i _ ha

/-- What a finished thread has come to has its postcondition. -/
theorem Good.finished {c : Config S W ε Q A} (h : O.Good post c) (hfinished : c.Finished)
    (hi : i < c.threads.length) : ∃ q r, post i q r c.log := by
  have hsafe := h.safe i c.threads[i] (List.getElem?_eq_getElem hi)
  rcases hfinished _ (List.getElem_mem hi) with ⟨a, ha⟩ | ⟨e, he⟩
  · rw [ha] at hsafe
    exact ⟨_, _, hsafe⟩
  · rw [he] at hsafe
    exact ⟨_, _, hsafe⟩

/-- **Invariants of the effects alone.** Where every effect that a handler may have keeps the outline,
every run does, and any two of its moments are related. -/
theorem of_only {P : Q → W → Prop} (hhandler : ∀ q, (M.handler q).Only (P q))
    (hkeep : ∀ i q w σ, P q w → O.inv σ →
      O.rely σ (σ.perform M.exec i q w) ∧ O.inv (σ.perform M.exec i q w))
    {s : S} (hs : O.inv ⟨s, []⟩) (before after : List (Move Q I)) :
    O.inv (Run.run M.step after (Run.run M.step before (Config.initial s))).log ∧
      O.rely (Run.run M.step before (Config.initial s)).log
        (Run.run M.step after (Run.run M.step before (Config.initial s))).log := by
  have hstable : ∀ (i : Nat) (_ : Q), O.Stable i fun (_ : Except ε A) _ => True :=
    fun _ _ _ _ _ _ _ => trivial
  have hstart : ∀ i q σ, O.inv σ → σ.own i = [] →
      O.Safe i q (fun _ _ => True) (M.handler q) σ := fun i q σ _ _ =>
    Safe.of_only (hhandler q) fun w σ hw hσ => hkeep i q w σ hw hσ
  have hinitial : O.Good (fun _ _ _ _ => True) (Config.initial s : Config S W ε Q A) := good_initial hs
  obtain ⟨hbefore, -⟩ := sound hstable hstart before hinitial
  obtain ⟨hafter, hrely⟩ := sound hstable hstart after hbefore
  exact ⟨hafter.inv, hrely⟩

end Outline

end Concurrent
