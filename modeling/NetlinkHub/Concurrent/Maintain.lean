import NetlinkHub.Concurrent.Trace

/-! # Invariants of the state

A program maintains an invariant of the state if each of its statements does, in whatever state with the
invariant it is carried out; and what the program reads in such states decides what it may come to. A run of
programs that maintain the invariant has it at every moment, and every thread comes to what its program may come
to (`maintained_run`). -/

namespace Concurrent

variable {S W ε Q I A α β : Type} {exec : W → S → S} {inv : S → Prop}

namespace Prog

/-- Every statement keeps the invariant, and what the program comes to has a property. -/
def Maintains (exec : W → S → S) (inv : S → Prop) (K : Except ε α → Prop) : Prog S W ε α → Prop
  | done a => K (.ok a)
  | raise e => K (.error e)
  | stmt w next => ∀ s, inv s → inv (exec w s) ∧ (next s).Maintains exec inv K

variable {K K' : Except ε α → Prop} {G : Except ε β → Prop}

theorem Maintains.stmt {w : W} {next : S → Prog S W ε α} (h : ∀ s, inv s → inv (exec w s))
    (hnext : ∀ s, inv s → (next s).Maintains exec inv K) : (Prog.stmt w next).Maintains exec inv K :=
  fun s hs => ⟨h s hs, hnext s hs⟩

theorem Maintains.mono {p : Prog S W ε α} (h : p.Maintains exec inv K) (himp : ∀ r, K r → K' r) :
    p.Maintains exec inv K' := by
  induction p with
  | done a => exact himp _ h
  | raise e => exact himp _ h
  | stmt w next ih => exact fun s hs => ⟨(h s hs).1, ih s (h s hs).2⟩

/-- **Sequencing.** -/
theorem Maintains.bind {p : Prog S W ε α} {f : α → Prog S W ε β} (h : p.Maintains exec inv K)
    (hdone : ∀ a, K (.ok a) → (f a).Maintains exec inv G) (hraise : ∀ e, K (.error e) → G (.error e)) :
    (p >>= f).Maintains exec inv G := by
  induction p with
  | done a => exact hdone a h
  | raise e => exact hraise e h
  | stmt w next ih => exact fun s hs => ⟨(h s hs).1, ih s (h s hs).2⟩

theorem Maintains.map {p : Prog S W ε α} (f : α → β) (h : p.Maintains exec inv K)
    (himp : ∀ a, K (.ok a) → G (.ok (f a))) (hraise : ∀ e, K (.error e) → G (.error e)) :
    (f <$> p).Maintains exec inv G :=
  h.bind himp hraise

/-- A program maintains what each of its effects keeps. -/
theorem Maintains.of_only {R : W → Prop} {p : Prog S W ε α} (h : p.Only R)
    (hkeep : ∀ w s, R w → inv s → inv (exec w s)) : p.Maintains exec inv fun _ => True := by
  induction p with
  | done a => trivial
  | raise e => trivial
  | stmt w next ih => exact fun s hs => ⟨hkeep w s h.1 hs, ih s (h.2 s)⟩

end Prog

/-- The state has the invariant, and every thread maintains it. -/
structure Config.Sound (exec : W → S → S) (inv : S → Prop) (K : Q → Except ε A → Prop)
    (c : Config S W ε Q A) : Prop where
  shared : inv c.log.shared
  threads : ∀ t ∈ c.threads, t.prog.Maintains exec inv (K t.request)

variable {M : Machine S W ε Q I A} {K : Q → Except ε A → Prop} {c : Config S W ε Q A}

/-- **What one move keeps.** -/
theorem Config.Sound.step (hhandler : ∀ q, (M.handler q).Maintains M.exec inv (K q)) {m : Move Q I}
    (henv : ∀ e, m = .env e → ∀ s, inv s → inv (M.env e s)) (h : c.Sound M.exec inv K) :
    (M.step m c).Sound M.exec inv K := by
  cases m with
  | call q =>
    refine ⟨h.shared, fun t ht => ?_⟩
    rcases List.mem_append.mp ht with ht | ht
    · exact h.threads t ht
    · obtain rfl := List.mem_singleton.mp ht
      exact hhandler q
  | env e => exact ⟨henv e rfl _ h.shared, h.threads⟩
  | step i =>
    show (c.advance M.exec i).Sound M.exec inv K
    unfold Config.advance
    split
    · rename_i q w next hi
      obtain ⟨hkept, hnext⟩ := h.threads _ (List.mem_of_getElem? hi) c.log.shared h.shared
      refine ⟨hkept, fun t ht => ?_⟩
      rcases List.mem_or_eq_of_mem_set ht with ht | rfl
      · exact h.threads t ht
      · exact hnext
    · exact h

/-- **Invariants along a run.** -/
theorem maintained_run (hhandler : ∀ q, (M.handler q).Maintains M.exec inv (K q)) {s : S} (hs : inv s)
    (moves : List (Move Q I)) (henv : ∀ e, .env e ∈ moves → ∀ s, inv s → inv (M.env e s)) :
    (Run.run M.step moves (Config.initial s)).Sound M.exec inv K := by
  have hgo : ∀ (moves : List (Move Q I)) (c : Config S W ε Q A), c.Sound M.exec inv K →
      (∀ e, .env e ∈ moves → ∀ s, inv s → inv (M.env e s)) → (Run.run M.step moves c).Sound M.exec inv K := by
    intro moves
    induction moves with
    | nil => exact fun c h _ => h
    | cons m moves ih =>
      intro c h henv
      exact ih _ (h.step hhandler fun e he => henv e (he ▸ List.mem_cons_self))
        fun e he => henv e (List.mem_cons_of_mem _ he)
  exact hgo moves _ ⟨hs, fun t ht => nomatch ht⟩ henv

/-- What a thread has come to is what its program may come to. -/
theorem Config.Sound.ended (h : c.Sound M.exec inv K) {i : ℕ} {q : Q} {r : Except ε A} (hr : c.Ended i q r) :
    K q r := by
  cases r with
  | ok a => exact h.threads _ (List.mem_of_getElem? hr)
  | error e => exact h.threads _ (List.mem_of_getElem? hr)

end Concurrent
