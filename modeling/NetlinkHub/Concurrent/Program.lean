import Mathlib.Tactic.TypeStar

/-! # Programs of atomic statements

A program over a shared state. Each statement carries out one effect atomically, and what follows
depends on the state it was carried out on; a program may also raise an exception. Effects are data,
so that what a program may do can be read off without running it (`Prog.Only`). -/

namespace Concurrent

/-- A program over the shared state `S` with effects `W` and exceptions `ε`. -/
inductive Prog (S W ε α : Type) where
  | done (a : α)
  | raise (e : ε)
  | stmt (w : W) (next : S → Prog S W ε α)

namespace Prog

variable {S W ε α β γ : Type}

/-- One program after the other. -/
protected def bind : Prog S W ε α → (α → Prog S W ε β) → Prog S W ε β
  | done a, f => f a
  | raise e, _ => raise e
  | stmt w next, f => stmt w fun s => (next s).bind f

instance : Monad (Prog S W ε) where
  pure := done
  bind := Prog.bind

/-- Carry out an effect and answer from the state before it. -/
def perform (w : W) (answer : S → α) : Prog S W ε α := stmt w fun s => done (answer s)

/-- Raise an exception under a condition. -/
def raiseIf (c : Prop) [Decidable c] (e : ε) : Prog S W ε Unit := if c then raise e else done ()

/-- Go on from an exception. -/
protected def tryCatch : Prog S W ε α → (ε → Prog S W ε α) → Prog S W ε α
  | done a, _ => done a
  | raise e, handle => handle e
  | stmt w next, handle => stmt w fun s => (next s).tryCatch handle

/-- A program in a larger state, with its effects among more. -/
def lift {S' W' : Type} (part : S' → S) (inj : W → W') : Prog S W ε α → Prog S' W' ε α
  | done a => done a
  | raise e => raise e
  | stmt w next => stmt (inj w) fun s => (next (part s)).lift part inj

@[simp] theorem pure_eq (a : α) : (pure a : Prog S W ε α) = done a := rfl

@[simp] theorem done_bind (a : α) (f : α → Prog S W ε β) : (done a >>= f) = f a := rfl

@[simp] theorem raise_bind (e : ε) (f : α → Prog S W ε β) : (raise e >>= f) = raise e := rfl

@[simp] theorem stmt_bind (w : W) (next : S → Prog S W ε α) (f : α → Prog S W ε β) :
    (stmt w next >>= f) = stmt w fun s => next s >>= f := rfl

@[simp] theorem perform_bind (w : W) (answer : S → α) (f : α → Prog S W ε β) :
    (perform w answer >>= f) = stmt w fun s => f (answer s) := rfl

@[simp] theorem map_eq (f : α → β) (p : Prog S W ε α) : (f <$> p) = p >>= fun a => done (f a) := rfl

theorem raiseIf_bind (c : Prop) [Decidable c] (e : ε) (f : Unit → Prog S W ε β) :
    (raiseIf c e >>= f) = if c then raise e else f () := by
  unfold raiseIf
  split <;> rfl

@[simp] theorem bind_assoc (p : Prog S W ε α) (f : α → Prog S W ε β) (g : β → Prog S W ε γ) :
    (p >>= f >>= g) = p >>= fun a => f a >>= g := by
  induction p with
  | done a => rfl
  | raise e => rfl
  | stmt w next ih =>
    simp only [stmt_bind]
    congr 1
    funext s
    exact ih s

/-- A sequence in a larger state is one of programs there. -/
theorem lift_bind {S' W' : Type} (part : S' → S) (inj : W → W') (p : Prog S W ε α)
    (f : α → Prog S W ε β) :
    (p >>= f).lift part inj = p.lift part inj >>= fun a => (f a).lift part inj := by
  induction p with
  | done a => rfl
  | raise e => rfl
  | stmt w next ih =>
    simp only [stmt_bind, lift]
    congr 1
    funext s
    exact ih (part s)

/-- A program that is lifted twice is lifted once. -/
theorem lift_lift {S' W' S'' W'' : Type} (part : S' → S) (inj : W → W') (part' : S'' → S') (inj' : W' → W'')
    (p : Prog S W ε α) : (p.lift part inj).lift part' inj' = p.lift (fun s => part (part' s)) fun w => inj' (inj w) := by
  induction p with
  | done a => rfl
  | raise e => rfl
  | stmt w next ih =>
    simp only [lift]
    congr 1
    funext s
    exact ih (part (part' s))

/-- Every effect of the program has a property. -/
def Only (P : W → Prop) : Prog S W ε α → Prop
  | done _ => True
  | raise _ => True
  | stmt w next => P w ∧ ∀ s, (next s).Only P

variable {P : W → Prop}

@[simp] theorem only_done (a : α) : (done a : Prog S W ε α).Only P := trivial

@[simp] theorem only_raise (e : ε) : (raise e : Prog S W ε α).Only P := trivial

theorem Only.stmt {w : W} {next : S → Prog S W ε α} (h : P w) (hnext : ∀ s, (next s).Only P) :
    (stmt w next).Only P := ⟨h, hnext⟩

@[simp] theorem only_perform (w : W) (answer : S → α) :
    (perform w answer : Prog S W ε α).Only P ↔ P w :=
  ⟨fun h => h.1, fun h => ⟨h, fun _ => trivial⟩⟩

@[simp] theorem only_raiseIf (c : Prop) [Decidable c] (e : ε) :
    (raiseIf c e : Prog S W ε Unit).Only P := by
  unfold raiseIf
  split <;> trivial

theorem Only.mono {P' : W → Prop} {p : Prog S W ε α} (h : p.Only P) (himp : ∀ w, P w → P' w) :
    p.Only P' := by
  induction p with
  | done a => trivial
  | raise e => trivial
  | stmt w next ih => exact ⟨himp w h.1, fun s => ih s (h.2 s)⟩

theorem Only.and {P' : W → Prop} {p : Prog S W ε α} (h : p.Only P) (h' : p.Only P') :
    p.Only fun w => P w ∧ P' w := by
  induction p with
  | done a => trivial
  | raise e => trivial
  | stmt w next ih => exact ⟨⟨h.1, h'.1⟩, fun s => ih s (h.2 s) (h'.2 s)⟩

theorem only_true (p : Prog S W ε α) : p.Only fun _ => True := by
  induction p with
  | done a => trivial
  | raise e => trivial
  | stmt w next ih => exact ⟨trivial, ih⟩

/-- Effects of a sequence are effects of its parts. -/
theorem Only.bind {p : Prog S W ε α} {f : α → Prog S W ε β} (h : p.Only P) (hf : ∀ a, (f a).Only P) :
    (p >>= f).Only P := by
  induction p with
  | done a => exact hf a
  | raise e => trivial
  | stmt w next ih => exact ⟨h.1, fun s => ih s (h.2 s)⟩

/-- Effects of a program that goes on from its exceptions. -/
theorem Only.tryCatch {p : Prog S W ε α} {handle : ε → Prog S W ε α} (h : p.Only P)
    (hhandle : ∀ e, (handle e).Only P) : (p.tryCatch handle).Only P := by
  induction p with
  | done a => trivial
  | raise e => exact hhandle e
  | stmt w next ih => exact ⟨h.1, fun s => ih s (h.2 s)⟩

theorem Only.map {p : Prog S W ε α} (h : p.Only P) (f : α → β) : (f <$> p).Only P :=
  h.bind fun _ => trivial

theorem Only.lift {S' W' : Type} {part : S' → S} {inj : W → W'} {R : W' → Prop} {p : Prog S W ε α}
    (h : p.Only P) (himp : ∀ w, P w → R (inj w)) : (p.lift part inj).Only R := by
  induction p with
  | done a => trivial
  | raise e => trivial
  | stmt w next ih => exact ⟨himp w h.1, fun s => ih (part s) (h.2 (part s))⟩

/-- Every answer of the program has a property. -/
def Answers (R : α → Prop) : Prog S W ε α → Prop
  | done a => R a
  | raise _ => True
  | stmt _ next => ∀ s, (next s).Answers R

variable {R : α → Prop} {R' : β → Prop}

/-- Effects of a sequence, by what its first part answers. -/
theorem Only.bind_answers {p : Prog S W ε α} {f : α → Prog S W ε β} (h : p.Only P)
    (hanswers : p.Answers R) (hf : ∀ a, R a → (f a).Only P) : (p >>= f).Only P := by
  induction p with
  | done a => exact hf a hanswers
  | raise e => trivial
  | stmt w next ih => exact ⟨h.1, fun s => ih s (h.2 s) (hanswers s)⟩

theorem Answers.bind {p : Prog S W ε α} {f : α → Prog S W ε β} (h : p.Answers R)
    (hf : ∀ a, R a → (f a).Answers R') : (p >>= f).Answers R' := by
  induction p with
  | done a => exact hf a h
  | raise e => trivial
  | stmt w next ih => exact fun s => ih s (h s)

theorem Answers.mono {K : α → Prop} {p : Prog S W ε α} (h : p.Answers R) (himp : ∀ a, R a → K a) :
    p.Answers K := by
  induction p with
  | done a => exact himp a h
  | raise e => trivial
  | stmt w next ih => exact fun s => ih s (h s)

theorem Answers.lift {S' W' : Type} {part : S' → S} {inj : W → W'} {p : Prog S W ε α} (h : p.Answers R) :
    (p.lift part inj).Answers R := by
  induction p with
  | done a => exact h
  | raise e => trivial
  | stmt w next ih => exact fun s => ih (part s) (h (part s))

theorem answers_true (p : Prog S W ε α) : p.Answers fun _ => True := by
  induction p with
  | done a => trivial
  | raise e => trivial
  | stmt w next ih => exact ih

/-- Every exception of the program has a property. -/
def Raises (R : ε → Prop) : Prog S W ε α → Prop
  | done _ => True
  | raise e => R e
  | stmt _ next => ∀ s, (next s).Raises R

variable {E : ε → Prop}

@[simp] theorem raises_done (a : α) : (done a : Prog S W ε α).Raises E := trivial

/-- Exceptions of a sequence are exceptions of its parts. -/
theorem Raises.bind {p : Prog S W ε α} {f : α → Prog S W ε β} (h : p.Raises E)
    (hf : ∀ a, (f a).Raises E) : (p >>= f).Raises E := by
  induction p with
  | done a => exact hf a
  | raise e => exact h
  | stmt w next ih => exact fun s => ih s (h s)

theorem Raises.map {p : Prog S W ε α} (h : p.Raises E) (f : α → β) : (f <$> p).Raises E :=
  h.bind fun _ => trivial

theorem Raises.lift {S' W' : Type} {part : S' → S} {inj : W → W'} {p : Prog S W ε α}
    (h : p.Raises E) : (p.lift part inj).Raises E := by
  induction p with
  | done a => trivial
  | raise e => exact h
  | stmt w next ih => exact fun s => ih (part s) (h (part s))

/-- Once its first statement finds this state, the program raises nothing, whatever its later ones find. -/
def SureAt (s : S) : Prog S W ε α → Prop
  | done _ => True
  | raise _ => False
  | stmt _ next => (next s).Raises fun _ => False

theorem sureAt_stmt {w : W} {next : S → Prog S W ε α} {s : S} :
    (stmt w next).SureAt s ↔ (next s).Raises fun _ => False := Iff.rfl

theorem SureAt.map {s : S} {p : Prog S W ε α} (h : p.SureAt s) (f : α → β) : (f <$> p).SureAt s := by
  cases p with
  | done a => trivial
  | raise e => exact h
  | stmt w next => exact Raises.map h f

theorem SureAt.lift {S' W' : Type} {part : S' → S} {inj : W → W'} {s : S'} {p : Prog S W ε α}
    (h : p.SureAt (part s)) : (p.lift part inj).SureAt s := by
  cases p with
  | done a => trivial
  | raise e => exact h
  | stmt w next => exact Raises.lift h

/-! ## Undisturbed runs -/

/-- What the program comes to when nothing else happens, and the state after it. -/
def runAlone (exec : W → S → S) : Prog S W ε α → S → Except ε α × S
  | done a, s => (.ok a, s)
  | raise e, s => (.error e, s)
  | stmt w next, s => (next s).runAlone exec (exec w s)

/-- What the program comes to, and the state after it, have a property. -/
def Ends (exec : W → S → S) (post : Except ε α → S → Prop) (p : Prog S W ε α) (s : S) : Prop :=
  post (p.runAlone exec s).1 (p.runAlone exec s).2

variable {exec : W → S → S} {post : Except ε α → S → Prop} {goal : Except ε β → S → Prop}

theorem ends_done {a : α} {s : S} : (done a : Prog S W ε α).Ends exec post s ↔ post (.ok a) s := Iff.rfl

theorem ends_stmt {w : W} {next : S → Prog S W ε α} {s : S} :
    (stmt w next).Ends exec post s ↔ (next s).Ends exec post (exec w s) := Iff.rfl

theorem Ends.mono {post' : Except ε α → S → Prop} {p : Prog S W ε α} {s : S} (h : p.Ends exec post s)
    (himp : ∀ r t, post r t → post' r t) : p.Ends exec post' s := himp _ _ h

/-- What no effect of the program changes is as it was. -/
theorem Only.runAlone_eq {p : Prog S W ε α} {part : S → γ} (h : p.Only P)
    (hkeep : ∀ w s, P w → part (exec w s) = part s) (s : S) : part (p.runAlone exec s).2 = part s := by
  induction p generalizing s with
  | done a => rfl
  | raise e => rfl
  | stmt w next ih => exact (ih s (h.2 s) (exec w s)).trans (hkeep w s h.1)

/-- What every answer has, the answer of the program has. -/
theorem Answers.of_runAlone {p : Prog S W ε α} {a : α} {s t : S} (h : p.Answers R)
    (hrun : p.runAlone exec s = (.ok a, t)) : R a := by
  induction p generalizing s with
  | done b => exact Except.ok.inj (congrArg Prod.fst hrun) ▸ h
  | raise e => cases congrArg Prod.fst hrun
  | stmt w next ih => exact ih s (h s) hrun

theorem runAlone_map (f : α → β) (p : Prog S W ε α) (s : S) :
    (f <$> p).runAlone exec s = ((p.runAlone exec s).1.map f, (p.runAlone exec s).2) := by
  rw [map_eq]
  induction p generalizing s with
  | done a => rfl
  | raise e => rfl
  | stmt w next ih => exact ih s (exec w s)

/-- **Sequencing.** -/
theorem Ends.bind {p : Prog S W ε α} {f : α → Prog S W ε β} {s : S} (h : p.Ends exec post s)
    (hdone : ∀ a t, post (.ok a) t → (f a).Ends exec goal t)
    (hraise : ∀ e t, post (.error e) t → goal (.error e) t) : (p >>= f).Ends exec goal s := by
  induction p generalizing s with
  | done a => exact hdone a s h
  | raise e => exact hraise e s h
  | stmt w next ih => exact ih s h

/-- What every answer and every exception of the program has. -/
theorem Ends.of_answers {p : Prog S W ε α} (h : p.Answers R) (h' : p.Raises E) (s : S) :
    p.Ends exec (fun r _ => (∀ a, r = .ok a → R a) ∧ ∀ e, r = .error e → E e) s := by
  induction p generalizing s with
  | done a => exact ⟨fun _ heq => Except.ok.inj heq ▸ h, fun _ heq => nomatch heq⟩
  | raise e => exact ⟨fun _ heq => (nomatch heq), fun _ heq => Except.error.inj heq ▸ h'⟩
  | stmt w next ih => exact ih s (h s) (h' s) (exec w s)

/-- Undisturbed, the program comes to an answer. -/
def Succeeds (exec : W → S → S) (p : Prog S W ε α) (s : S) : Prop := ∃ a, (p.runAlone exec s).1 = .ok a

theorem succeeds_done {a : α} {s : S} : (done a : Prog S W ε α).Succeeds exec s := ⟨a, rfl⟩

theorem not_succeeds_raise {e : ε} {s : S} : ¬ (raise e : Prog S W ε α).Succeeds exec s :=
  fun h => nomatch h.choose_spec

theorem succeeds_stmt {w : W} {next : S → Prog S W ε α} {s : S} :
    (stmt w next).Succeeds exec s ↔ (next s).Succeeds exec (exec w s) := Iff.rfl

theorem succeeds_raiseIf_bind {c : Prop} [Decidable c] {e : ε} {f : Unit → Prog S W ε β} {s : S} :
    (raiseIf c e >>= f).Succeeds exec s ↔ ¬ c ∧ (f ()).Succeeds exec s := by
  rw [raiseIf_bind]
  split
  · rename_i h
    exact iff_of_false not_succeeds_raise fun h' => h'.1 h
  · rename_i h
    exact (and_iff_right h).symm

theorem runAlone_stmt (w : W) (next : S → Prog S W ε α) (s : S) :
    (stmt w next).runAlone exec s = (next s).runAlone exec (exec w s) := rfl

theorem runAlone_bind (p : Prog S W ε α) (f : α → Prog S W ε β) (s : S) :
    (p >>= f).runAlone exec s = match p.runAlone exec s with
      | (.ok a, t) => (f a).runAlone exec t
      | (.error e, t) => (.error e, t) := by
  induction p generalizing s with
  | done a => rfl
  | raise e => rfl
  | stmt w next ih => exact ih s (exec w s)

theorem runAlone_tryCatch (p : Prog S W ε α) (handle : ε → Prog S W ε α) (s : S) :
    (p.tryCatch handle).runAlone exec s = match p.runAlone exec s with
      | (.ok a, t) => (.ok a, t)
      | (.error e, t) => (handle e).runAlone exec t := by
  induction p generalizing s with
  | done a => rfl
  | raise e => rfl
  | stmt w next ih => exact ih s (exec w s)

/-- A sequence whose first part comes to an answer. -/
theorem succeeds_bind_ok {p : Prog S W ε α} {f : α → Prog S W ε β} {s t : S} {a : α}
    (h : p.runAlone exec s = (.ok a, t)) : (p >>= f).Succeeds exec s ↔ (f a).Succeeds exec t := by
  unfold Succeeds
  rw [runAlone_bind, h]

/-- A sequence whose first part does not come to an answer. -/
theorem not_succeeds_bind {p : Prog S W ε α} {f : α → Prog S W ε β} {s : S}
    (h : ¬ p.Succeeds exec s) : ¬ (p >>= f).Succeeds exec s := by
  rintro ⟨b, hb⟩
  rw [runAlone_bind] at hb
  cases hp : p.runAlone exec s with
  | mk r t =>
    cases r with
    | ok a => exact h ⟨a, by rw [hp]⟩
    | error e =>
      rw [hp] at hb
      nomatch hb

end Prog

end Concurrent
