import NetlinkHub.Concurrent.Machine
import Mathlib.Data.List.Pairwise

/-! # Traces of threads

What a statement of a thread has by the earlier statements of the same thread can be read off its program,
whatever the others do: `Prog.Traces` follows the program through every state that its statements may
find. Along every run of a machine each statement has it (`traced_run`). -/

namespace Concurrent

variable {S W ε Q I A α β : Type}

/-- Every statement has a property, by the earlier ones of its thread, newest first. -/
def Log.Traced (T : Step S W Q → List (Step S W Q) → Prop) (σ : Log S W Q) : Prop :=
  ∀ step earlier, step :: earlier <:+ σ.history → T step (earlier.filter (·.thread = step.thread))

variable {T : Step S W Q → List (Step S W Q) → Prop} {i : Nat} {q : Q} {σ : Log S W Q}
  {own : List (Step S W Q)}

theorem Log.Traced.perform {exec : W → S → S} {w : W} (h : σ.Traced T)
    (hstep : T ⟨i, q, w, σ.shared⟩ (σ.own i)) : (σ.perform exec i q w).Traced T := by
  intro step earlier hsuffix
  rcases List.suffix_cons_iff.mp hsuffix with heq | hsuffix
  · obtain ⟨rfl, rfl⟩ := List.cons.inj heq
    exact hstep
  · exact h step earlier hsuffix

/-- A statement of the history, and what its thread had done before. -/
theorem Log.Traced.of_mem (h : σ.Traced T) {step : Step S W Q} (hstep : step ∈ σ.history) :
    ∃ earlier, step :: earlier <:+ σ.history ∧ T step (earlier.filter (·.thread = step.thread)) := by
  obtain ⟨later, earlier, heq⟩ := List.append_of_mem hstep
  exact ⟨earlier, ⟨later, heq.symm⟩, h step earlier ⟨later, heq.symm⟩⟩

namespace Prog

/-- Each statement of the program has a property by the earlier ones of its thread, and what the program
comes to has one by all of them. -/
def Traces (T : Step S W Q → List (Step S W Q) → Prop) (i : Nat) (q : Q)
    (K : Except ε α → List (Step S W Q) → Prop) : Prog S W ε α → List (Step S W Q) → Prop
  | done a, own => K (.ok a) own
  | raise e, own => K (.error e) own
  | stmt w next, own => ∀ s, T ⟨i, q, w, s⟩ own ∧ (next s).Traces T i q K (⟨i, q, w, s⟩ :: own)

variable {K : Except ε α → List (Step S W Q) → Prop} {G : Except ε β → List (Step S W Q) → Prop}

theorem Traces.stmt {w : W} {next : S → Prog S W ε α} (h : ∀ s, T ⟨i, q, w, s⟩ own)
    (hnext : ∀ s, (next s).Traces T i q K (⟨i, q, w, s⟩ :: own)) : (stmt w next).Traces T i q K own :=
  fun s => ⟨h s, hnext s⟩

/-- **Sequencing.** -/
theorem Traces.bind {p : Prog S W ε α} {f : α → Prog S W ε β} (h : p.Traces T i q K own)
    (hdone : ∀ a own, K (.ok a) own → (f a).Traces T i q G own)
    (hraise : ∀ e own, K (.error e) own → G (.error e) own) : (p >>= f).Traces T i q G own := by
  induction p generalizing own with
  | done a => exact hdone a own h
  | raise e => exact hraise e own h
  | stmt w next ih => exact fun s => ⟨(h s).1, ih s (h s).2⟩

theorem Traces.mono {K' : Except ε α → List (Step S W Q) → Prop} {p : Prog S W ε α}
    (h : p.Traces T i q K own) (himp : ∀ r own, K r own → K' r own) : p.Traces T i q K' own := by
  induction p generalizing own with
  | done a => exact himp _ _ h
  | raise e => exact himp _ _ h
  | stmt w next ih => exact fun s => ⟨(h s).1, ih s (h s).2⟩

/-- A weaker property, by what the thread had done before the program. -/
theorem Traces.weaken {T' : Step S W Q → List (Step S W Q) → Prop} {K' : Except ε α → List (Step S W Q) → Prop}
    {p : Prog S W ε α} (h : p.Traces T i q K own)
    (hT : ∀ w s mid, own <:+ mid → T ⟨i, q, w, s⟩ mid → T' ⟨i, q, w, s⟩ mid)
    (hK : ∀ r final, own <:+ final → K r final → K' r final) : p.Traces T' i q K' own := by
  have hgo : ∀ {mid : List (Step S W Q)}, own <:+ mid → p.Traces T i q K mid → p.Traces T' i q K' mid := by
    clear h
    intro mid hsuffix h
    induction p generalizing mid with
    | done a => exact hK _ _ hsuffix h
    | raise e => exact hK _ _ hsuffix h
    | stmt w next ih =>
      exact fun s => ⟨hT w s mid hsuffix (h s).1, ih s (hsuffix.trans (List.suffix_cons _ _)) (h s).2⟩
  exact hgo (List.suffix_refl _) h

/-- A program keeps what each of its effects keeps. -/
theorem Traces.of_only {R : W → Prop} {J : List (Step S W Q) → Prop} {p : Prog S W ε α} (h : p.Only R)
    (hkeep : ∀ w s own, R w → J own → T ⟨i, q, w, s⟩ own ∧ J (⟨i, q, w, s⟩ :: own)) (hown : J own) :
    p.Traces T i q (fun _ => J) own := by
  induction p generalizing own with
  | done a => exact hown
  | raise e => exact hown
  | stmt w next ih =>
    intro s
    obtain ⟨hstep, hnext⟩ := hkeep w s own h.1 hown
    exact ⟨hstep, ih s (h.2 s) hnext⟩

/-- What a thread has done stays done. -/
theorem traces_suffix (p : Prog S W ε α) :
    p.Traces (fun _ _ => True) i q (fun _ final => own <:+ final) own :=
  .of_only (only_true p) (fun _ _ _ _ hown => ⟨trivial, hown.trans (List.suffix_cons _ _)⟩)
    (List.suffix_refl _)

/-- What each statement is by itself may be added. -/
theorem Traces.and_only {R : W → Prop} {p : Prog S W ε α} (h : p.Traces T i q K own) (honly : p.Only R) :
    p.Traces (fun step own => T step own ∧ R step.write) i q K own := by
  induction p generalizing own with
  | done a => exact h
  | raise e => exact h
  | stmt w next ih => exact fun s => ⟨⟨(h s).1, honly.1⟩, ih s (h s).2 (honly.2 s)⟩

theorem Traces.map {p : Prog S W ε α} (f : α → β) (h : p.Traces T i q K own)
    (himp : ∀ a own, K (.ok a) own → G (.ok (f a)) own)
    (hraise : ∀ e own, K (.error e) own → G (.error e) own) : (f <$> p).Traces T i q G own :=
  h.bind himp hraise

/-! ### Licences -/

section Licences

variable {E : W → Prop} {L : List (Step S W Q) → Prop}

/-- A program without effects of a kind needs no licence for them. -/
theorem Traces.idle {R : α → Prop} {p : Prog S W ε α} (h : p.Only fun w => ¬ E w) (hanswers : p.Answers R) :
    p.Traces (fun step own => E step.write → L own) i q
      (fun r final => own <:+ final ∧ ∀ a, r = .ok a → R a) own := by
  induction p generalizing own with
  | done a => exact ⟨List.suffix_refl _, fun b hb => Except.ok.inj hb ▸ hanswers⟩
  | raise e => exact ⟨List.suffix_refl _, fun b hb => nomatch hb⟩
  | stmt w next ih =>
    refine .stmt (fun s hE => absurd hE h.1) fun s => ?_
    refine (ih s (h.2 s) (hanswers s)).mono fun r final hfinal => ?_
    exact ⟨(List.suffix_cons _ _).trans hfinal.1, hfinal.2⟩

/-- Once a thread has the licence for a kind of effect, it keeps it. -/
theorem Traces.licensed (hmono : ∀ s final, L final → L (s :: final)) (hL : L own) (p : Prog S W ε α) :
    p.Traces (fun step own => E step.write → L own) i q (fun _ final => L final) own :=
  .of_only (only_true p) (fun _ _ _ _ hfinal => ⟨fun _ => hfinal, hmono _ _ hfinal⟩) hL

/-- What follows a part that comes to an answer only with the licence. -/
theorem Traces.andThen (hmono : ∀ s final, L final → L (s :: final)) {p : Prog S W ε α}
    (h : p.Traces (fun step own => E step.write → L own) i q (fun r final => ∀ a, r = .ok a → L final) own)
    (f : α → Prog S W ε β) :
    (p >>= f).Traces (fun step own => E step.write → L own) i q (fun r final => ∀ b, r = .ok b → L final) own :=
  h.bind (fun a _ hL => (Traces.licensed hmono (hL a rfl) (f a)).mono fun _ _ hfinal _ _ => hfinal)
    fun _ _ _ _ hb => nomatch hb

end Licences

end Prog

/-- The outline that says no more than that. -/
def traceOutline (M : Machine S W ε Q I A) (T : Step S W Q → List (Step S W Q) → Prop) : Outline M where
  inv := Log.Traced T
  rely _ _ := True
  refl _ := trivial
  trans _ _ := trivial
  env _ _ h := ⟨h, trivial⟩

theorem Prog.Traces.safe {M : Machine S W ε Q I A} {K : Except ε α → List (Step S W Q) → Prop}
    {p : Prog S W ε α} (h : p.Traces T i q K (σ.own i)) :
    (traceOutline M T).Safe i q (fun r τ => K r (τ.own i)) p σ := by
  induction p generalizing σ with
  | done a => exact h
  | raise e => exact h
  | stmt w next ih =>
    intro τ hlater hτ
    rw [← hlater.2] at h
    obtain ⟨hstep, hnext⟩ := h τ.shared
    refine ⟨trivial, Log.Traced.perform hτ hstep, ih τ.shared ?_⟩
    rw [Log.own_perform_self]
    exact hnext

theorem good_trace {M : Machine S W ε Q I A} {K : Q → Except ε A → List (Step S W Q) → Prop}
    (h : ∀ i q, (M.handler q).Traces T i q (K q) []) (s : S) (moves : List (Move Q I)) :
    (traceOutline M T).Good (fun i q r τ => K q r (τ.own i)) (Run.run M.step moves (Config.initial s)) := by
  have hstable : ∀ (i : Nat) (q : Q), (traceOutline M T).Stable i fun (r : Except ε A) τ =>
      K q r (τ.own i) := by
    intro i q r σ τ hlater hK
    rw [hlater.2]
    exact hK
  have hstart : ∀ i q σ, (traceOutline M T).inv σ → σ.own i = [] →
      (traceOutline M T).Safe i q (fun r τ => K q r (τ.own i)) (M.handler q) σ := by
    intro i q σ _ hown
    exact Prog.Traces.safe (hown ▸ h i q)
  have hinitial : (traceOutline M T).Good (fun i q r τ => K q r (τ.own i)) (Config.initial s) :=
    Outline.good_initial fun step earlier hsuffix => by simp at hsuffix
  exact (Outline.sound hstable hstart moves hinitial).1

/-- **Traces along a run.** Every statement has the property, and every answer the postcondition. -/
theorem traced_run {M : Machine S W ε Q I A} {K : Q → Except ε A → List (Step S W Q) → Prop}
    (h : ∀ i q, (M.handler q).Traces T i q (K q) []) (s : S) (moves : List (Move Q I)) :
    (Run.run M.step moves (Config.initial s)).log.Traced T ∧
      ∀ i q a, (Run.run M.step moves (Config.initial s)).Answered i q a →
        K q (.ok a) ((Run.run M.step moves (Config.initial s)).log.own i) :=
  ⟨(good_trace h s moves).inv, fun _ _ _ ha => (good_trace h s moves).answered ha⟩

/-- A thread has come to an end. -/
def Config.Ended (c : Config S W ε Q A) (i : Nat) (q : Q) : Except ε A → Prop
  | .ok a => c.threads[i]? = some ⟨q, .done a⟩
  | .error e => c.threads[i]? = some ⟨q, .raise e⟩

/-- Whatever a thread has come to, it has the postcondition. -/
theorem ended_run {M : Machine S W ε Q I A} {K : Q → Except ε A → List (Step S W Q) → Prop}
    (h : ∀ i q, (M.handler q).Traces T i q (K q) []) (s : S) (moves : List (Move Q I)) {r : Except ε A}
    (hr : (Run.run M.step moves (Config.initial s)).Ended i q r) :
    K q r ((Run.run M.step moves (Config.initial s)).log.own i) := by
  cases r with
  | ok a => exact (good_trace h s moves).safe i _ hr
  | error e => exact (good_trace h s moves).safe i _ hr

/-- When everything has come to an end, each thread has the postcondition. -/
theorem finished_run {M : Machine S W ε Q I A} {K : Q → Except ε A → List (Step S W Q) → Prop}
    (h : ∀ i q, (M.handler q).Traces T i q (K q) []) (s : S) (moves : List (Move Q I))
    (hfinished : (Run.run M.step moves (Config.initial s)).Finished) {step : Step S W Q}
    (hstep : step ∈ (Run.run M.step moves (Config.initial s)).log.history) :
    ∃ q r, K q r ((Run.run M.step moves (Config.initial s)).log.own step.thread) :=
  (good_trace h s moves).finished hfinished ((good_trace h s moves).threads step hstep)

/-! ## What the statements of a run keep -/

/-- An invariant and a relation of states that all statements of some kind keep, and the environment. -/
structure Kept (M : Machine S W ε Q I A) (C : Step S W Q → Prop) (inv : S → Prop) (rel : S → S → Prop) :
    Prop where
  refl : ∀ s, rel s s
  trans : ∀ {s t u}, rel s t → rel t u → rel s u
  step : ∀ step, C step → inv step.before →
    rel step.before (M.exec step.write step.before) ∧ inv (M.exec step.write step.before)
  env : ∀ e s, inv s → rel s (M.env e s) ∧ inv (M.env e s)

/-- The state now and the states that the statements found have the invariant, and whichever is later is
related to the earlier one. -/
structure Log.Chained (exec : W → S → S) (inv : S → Prop) (rel : S → S → Prop) (σ : Log S W Q) : Prop where
  now : inv σ.shared
  before : ∀ step ∈ σ.history, inv step.before ∧ rel step.before (exec step.write step.before)
  since : ∀ step ∈ σ.history, rel (exec step.write step.before) σ.shared
  between : σ.history.Pairwise fun step earlier => rel (exec earlier.write earlier.before) step.before

variable {M : Machine S W ε Q I A} {C : Step S W Q → Prop} {inv : S → Prop} {rel : S → S → Prop}

theorem Log.Chained.suffix {exec : W → S → S} {τ : Log S W Q} (hσ : σ.Chained exec inv rel)
    (hsuffix : τ.history <:+ σ.history) (hnow : inv τ.shared)
    (hsince : ∀ step ∈ τ.history, rel (exec step.write step.before) τ.shared) : τ.Chained exec inv rel :=
  ⟨hnow, fun step hstep => hσ.before step (hsuffix.subset hstep), hsince,
    hσ.between.sublist hsuffix.sublist⟩

/-- Of two statements one has found what came of the other. -/
theorem Log.Chained.apart {exec : W → S → S} (h : σ.Chained exec inv rel) {a b : Step S W Q}
    (ha : a ∈ σ.history) (hb : b ∈ σ.history) (hne : a ≠ b) :
    rel (exec a.write a.before) b.before ∨ rel (exec b.write b.before) a.before := by
  let R : Step S W Q → Step S W Q → Prop := fun a b =>
    rel (exec a.write a.before) b.before ∨ rel (exec b.write b.before) a.before
  have hsymm : Std.Symm R := ⟨fun _ _ => Or.symm⟩
  have hpairs : σ.history.Pairwise R := h.between.imp fun hrel => Or.inr hrel
  exact hpairs.forall ha hb hne

/-- A statement of the kind keeps the chain. -/
theorem Kept.chained_perform (h : Kept M C inv rel) {w : W} (hσ : σ.Chained M.exec inv rel)
    (hC : C ⟨i, q, w, σ.shared⟩) :
    rel σ.shared (M.exec w σ.shared) ∧ (σ.perform M.exec i q w).Chained M.exec inv rel := by
  obtain ⟨hrel, hinv⟩ := h.step ⟨i, q, w, σ.shared⟩ hC hσ.now
  refine ⟨hrel, hinv, fun step hstep => ?_, fun step hstep => ?_, ?_⟩
  · rcases List.mem_cons.mp hstep with rfl | hstep
    · exact ⟨hσ.now, hrel⟩
    · exact hσ.before step hstep
  · rcases List.mem_cons.mp hstep with rfl | hstep
    · exact h.refl _
    · exact h.trans (hσ.since step hstep) hrel
  · exact List.pairwise_cons.mpr ⟨fun step hstep => hσ.since step hstep, hσ.between⟩

/-- The environment keeps the chain. -/
theorem Kept.chained_change (h : Kept M C inv rel) (hσ : σ.Chained M.exec inv rel) (e : I) :
    (σ.change (M.env e)).Chained M.exec inv rel := by
  obtain ⟨hrel, hinv⟩ := h.env e σ.shared hσ.now
  exact hσ.suffix (List.suffix_refl _) hinv fun step hstep => h.trans (hσ.since step hstep) hrel

/-- The outline of a run whose statements are all of the kind. -/
def Kept.outline (h : Kept M C inv rel) : Outline M where
  inv σ := (∀ step ∈ σ.history, C step) → σ.Chained M.exec inv rel
  rely σ τ := σ.history <:+ τ.history ∧ ((∀ step ∈ τ.history, C step) → rel σ.shared τ.shared)
  refl σ := ⟨List.suffix_refl _, fun _ => h.refl _⟩
  trans := by
    rintro σ τ υ ⟨hsuffix, hrel⟩ ⟨hsuffix', hrel'⟩
    exact ⟨hsuffix.trans hsuffix', fun hC =>
      h.trans (hrel fun step hstep => hC step (hsuffix'.subset hstep)) (hrel' hC)⟩
  env e σ hσ := by
    exact ⟨fun hC => h.chained_change (hσ hC) e, List.suffix_refl _, fun hC => (h.env e σ.shared (hσ hC).now).1⟩

/-- **What statements of a kind keep, a run of such statements keeps.** -/
theorem Kept.run (h : Kept M C inv rel) {s : S} (hs : inv s) (before after : List (Move Q I))
    (hC : ∀ step ∈ (Run.run M.step (before ++ after) (Config.initial s)).log.history, C step) :
    rel (Run.run M.step before (Config.initial s)).log.shared
        (Run.run M.step (before ++ after) (Config.initial s)).log.shared ∧
      (Run.run M.step (before ++ after) (Config.initial s)).log.Chained M.exec inv rel := by
  have hinitial : h.outline.inv (⟨s, []⟩ : Log S W Q) := fun _ => ⟨hs, by simp, by simp, by simp⟩
  have hkeep : ∀ i q w σ, True → h.outline.inv σ →
      h.outline.rely σ (σ.perform M.exec i q w) ∧ h.outline.inv (σ.perform M.exec i q w) := by
    intro i q w σ _ hσ
    have hperform := fun hC : ∀ step ∈ (σ.perform M.exec i q w).history, C step =>
      h.chained_perform (hσ fun step hstep => hC step (List.mem_cons_of_mem _ hstep))
        (hC _ List.mem_cons_self)
    exact ⟨⟨List.suffix_cons _ _, fun hC => (hperform hC).1⟩, fun hC => (hperform hC).2⟩
  obtain ⟨hinv, -, hrel⟩ := Outline.of_only (O := h.outline) (P := fun _ _ => True)
    (fun q => Prog.only_true _) hkeep hinitial before after
  rw [← Run.run_append] at hinv hrel
  exact ⟨hrel hC, hinv hC⟩

/-! ## Invariants of the log -/

/-- An invariant of the log that statements of some kind keep, by what came before them, and the
environment. -/
structure Upholds (M : Machine S W ε Q I A) (C : Step S W Q → List (Step S W Q) → Prop)
    (inv : Log S W Q → Prop) : Prop where
  step : ∀ i q w σ, inv σ → C ⟨i, q, w, σ.shared⟩ σ.history → inv (σ.perform M.exec i q w)
  env : ∀ e σ, inv σ → inv (σ.change (M.env e))

/-- **Invariants along a run** whose statements are all of the kind: now and before each of them. -/
theorem Upholds.run {C : Step S W Q → List (Step S W Q) → Prop} {inv : Log S W Q → Prop}
    (h : Upholds M C inv) {s : S} (hs : inv ⟨s, []⟩) (moves : List (Move Q I))
    (hC : ∀ step earlier, step :: earlier <:+ (Run.run M.step moves (Config.initial s)).log.history →
      C step earlier) : (Run.run M.step moves (Config.initial s)).log.Always inv := by
  let O : Outline M :=
    { inv := fun σ => (∀ step earlier, step :: earlier <:+ σ.history → C step earlier) → σ.Always inv
      rely := fun _ _ => True
      refl := fun _ => trivial
      trans := fun _ _ => trivial
      env := fun e σ hσ => ⟨fun hC => ⟨h.env e σ (hσ hC).1, (hσ hC).2⟩, trivial⟩ }
  have hkeep : ∀ i q w σ, True → O.inv σ →
      O.rely σ (σ.perform M.exec i q w) ∧ O.inv (σ.perform M.exec i q w) := by
    intro i q w σ _ hσ
    refine ⟨trivial, fun hC => ?_⟩
    have hbefore := hσ fun step earlier hsuffix => hC step earlier (hsuffix.trans (List.suffix_cons _ _))
    exact hbefore.perform (h.step i q w σ hbefore.1 (hC _ _ (List.suffix_refl _)))
  have hinitial : O.inv ⟨s, []⟩ := fun _ => Log.always_initial hs
  have hrun := Outline.of_only (O := O) (P := fun _ _ => True) (fun q => Prog.only_true _) hkeep hinitial
    [] moves
  exact hrun.1 hC

theorem traces_requests (M : Machine S W ε Q I A) (i : Nat) (q : Q) :
    (M.handler q).Traces (fun step own => ∀ s ∈ own, s.request = step.request) i q
      (fun _ own => ∀ s ∈ own, s.request = q) [] := by
  refine .of_only (Prog.only_true _) (fun w s own _ hown => ⟨hown, fun s' hs' => ?_⟩) (by simp)
  rcases List.mem_cons.mp hs' with rfl | hs'
  · rfl
  · exact hown s' hs'

/-- The statements of a thread are all of one request. -/
theorem requests_run (M : Machine S W ε Q I A) (s : S) (moves : List (Move Q I)) :
    (Run.run M.step moves (Config.initial s)).log.Traced fun step own =>
      ∀ s ∈ own, s.request = step.request :=
  (traced_run (K := fun q _ own => ∀ s ∈ own, s.request = q) (traces_requests M) s moves).1

/-- They are all of the request that is answered. -/
theorem request_of_answered {M : Machine S W ε Q I A} {s : S} {moves : List (Move Q I)} {a : A}
    (h : (Run.run M.step moves (Config.initial s)).Answered i q a) {step : Step S W Q}
    (hstep : step ∈ (Run.run M.step moves (Config.initial s)).log.own i) : step.request = q :=
  (traced_run (K := fun q _ own => ∀ s ∈ own, s.request = q) (traces_requests M) s moves).2 i q a h step hstep

/-- What a move does to the log. -/
theorem Machine.log_step (M : Machine S W ε Q I A) (m : Move Q I) (c : Config S W ε Q A) :
    (M.step m c).log = c.log ∨ (∃ e, (M.step m c).log = c.log.change (M.env e)) ∨
      ∃ i q w, (M.step m c).log = c.log.perform M.exec i q w := by
  cases m with
  | call q => exact .inl rfl
  | env e => exact .inr (.inl ⟨e, rfl⟩)
  | step i =>
    simp only [Machine.step, Config.advance]
    split
    · exact .inr (.inr ⟨i, _, _, rfl⟩)
    · exact .inl rfl

/-- A run goes on from the statements that were carried out before it. -/
theorem history_suffix (M : Machine S W ε Q I A) (moves : List (Move Q I)) (c : Config S W ε Q A) :
    c.log.history <:+ (Run.run M.step moves c).log.history := by
  have hstep : ∀ (m : Move Q I) (c' : Config S W ε Q A), c.log.history <:+ c'.log.history →
      c.log.history <:+ (M.step m c').log.history := by
    intro m c' hsuffix
    rcases M.log_step m c' with hlog | ⟨e, hlog⟩ | ⟨i, q, w, hlog⟩
    · exact hlog ▸ hsuffix
    · rw [hlog]
      exact hsuffix
    · rw [hlog]
      exact hsuffix.trans (List.suffix_cons _ _)
  exact Run.invariant hstep moves (List.suffix_refl _)

/-- So does a run from the start. -/
theorem history_suffix_append (M : Machine S W ε Q I A) (s : S) (before after : List (Move Q I)) :
    (Run.run M.step before (Config.initial s)).log.history <:+
      (Run.run M.step (before ++ after) (Config.initial s)).log.history := by
  rw [Run.run_append]
  exact history_suffix M after _

/-- A statement of a run was carried out in one of its moves. -/
theorem reached_of_suffix {M : Machine S W ε Q I A} {s : S} {moves : List (Move Q I)} {step : Step S W Q}
    {earlier : List (Step S W Q)}
    (h : step :: earlier <:+ (Run.run M.step moves (Config.initial s)).log.history) :
    ∃ before m after, moves = before ++ m :: after ∧
      (Run.run M.step before (Config.initial s)).log = ⟨step.before, earlier⟩ ∧
      (Run.run M.step (before ++ [m]) (Config.initial s)).log.history = step :: earlier := by
  induction moves using List.reverseRecOn with
  | nil => exact absurd h (by simp [Config.initial])
  | append_singleton moves m ih =>
    have hearlier : step :: earlier <:+ (Run.run M.step moves (Config.initial s)).log.history →
        ∃ before m' after, moves ++ [m] = before ++ m' :: after ∧
          (Run.run M.step before (Config.initial s)).log = ⟨step.before, earlier⟩ ∧
          (Run.run M.step (before ++ [m']) (Config.initial s)).log.history = step :: earlier := by
      intro hsuffix
      obtain ⟨before, m', after, rfl, hlog⟩ := ih hsuffix
      exact ⟨before, m', after ++ [m], by rw [List.append_assoc, List.cons_append], hlog⟩
    rw [Run.run_append, Run.run_cons, Run.run_nil] at h
    rcases M.log_step m (Run.run M.step moves (Config.initial s)) with hlog | ⟨e, hlog⟩ | ⟨i, q, w, hlog⟩
    · exact hearlier (hlog ▸ h)
    · rw [hlog] at h
      exact hearlier h
    · rw [hlog] at h
      rcases List.suffix_cons_iff.mp h with heq | hsuffix
      · obtain ⟨rfl, rfl⟩ := List.cons.inj heq
        refine ⟨moves, m, [], rfl, rfl, ?_⟩
        rw [Run.run_append, Run.run_cons, Run.run_nil, hlog]
        rfl
      · exact hearlier hsuffix

/-- The effects of a run are effects of its programs. -/
theorem only_run {M : Machine S W ε Q I A} {P : Q → W → Prop} (h : ∀ q, (M.handler q).Only (P q)) (s : S)
    (moves : List (Move Q I)) :
    ∀ step ∈ (Run.run M.step moves (Config.initial s)).log.history, P step.request step.write := by
  have htraces : ∀ i q, (M.handler q).Traces (fun step _ => P step.request step.write) i q
      (fun _ _ => True) [] := fun i q =>
    .of_only (h q) (fun _ _ _ hw _ => ⟨hw, trivial⟩) trivial
  intro step hstep
  exact ((traced_run (K := fun _ _ _ => True) htraces s moves).1.of_mem hstep).choose_spec.2

/-- The statements of a run are of threads that have started. -/
theorem thread_lt_run (M : Machine S W ε Q I A) (s : S) (moves : List (Move Q I)) :
    ∀ step ∈ (Run.run M.step moves (Config.initial s)).log.history,
      step.thread < (Run.run M.step moves (Config.initial s)).threads.length :=
  (good_trace (K := fun q _ own => ∀ s ∈ own, s.request = q) (traces_requests M) s moves).threads

/-- What statements of a kind keep from a moment on, a thread that starts later finds. -/
theorem Kept.found_later (h : Kept M C inv rel) {s : S} (hs : inv s) (before after : List (Move Q I))
    (hC : ∀ step ∈ (Run.run M.step (before ++ after) (Config.initial s)).log.history, C step)
    {step : Step S W Q} (hstep : step ∈ (Run.run M.step (before ++ after) (Config.initial s)).log.history)
    (hthread : (Run.run M.step before (Config.initial s)).threads.length ≤ step.thread) :
    rel (Run.run M.step before (Config.initial s)).log.shared step.before := by
  obtain ⟨later, earlier, heq⟩ := List.append_of_mem hstep
  obtain ⟨before', m, after', hmoves, hlog, hhistory⟩ := reached_of_suffix ⟨later, heq.symm⟩
  have hshared : (Run.run M.step before' (Config.initial s)).log.shared = step.before := by rw [hlog]
  rcases List.append_eq_append_iff.mp hmoves with ⟨rest, rfl, rfl⟩ | ⟨rest, rfl, hrest⟩
  · have hsuffix : (Run.run M.step (before ++ rest) (Config.initial s)).log.history <:+
        (Run.run M.step (before ++ (rest ++ m :: after')) (Config.initial s)).log.history := by
      rw [← List.append_assoc]
      exact history_suffix_append M s _ _
    rw [← hshared]
    exact (h.run hs before rest fun step' hstep' => hC step' (hsuffix.subset hstep')).1
  cases rest with
  | nil =>
    rw [List.append_nil, hshared]
    exact h.refl _
  | cons m' rest =>
    -- The statement was carried out before, so its thread had started.
    obtain ⟨rfl, -⟩ := List.cons.inj hrest
    have hsuffix : (Run.run M.step (before' ++ [m]) (Config.initial s)).log.history <:+
        (Run.run M.step (before' ++ m :: rest) (Config.initial s)).log.history := by
      rw [List.append_cons before' m rest]
      exact history_suffix_append M s _ _
    rw [hhistory] at hsuffix
    have hlt := thread_lt_run M s _ step (hsuffix.subset List.mem_cons_self)
    omega

/-! ## Moments of a run -/

/-- Statements of some kind keep an invariant of the log exactly under a condition, by what came before
them; the environment keeps it. -/
structure Decides (M : Machine S W ε Q I A) (K : Step S W Q → Prop) (inv : Log S W Q → Prop)
    (C : Step S W Q → List (Step S W Q) → Prop) : Prop where
  step : ∀ i q w σ, K ⟨i, q, w, σ.shared⟩ → inv σ →
    (inv (σ.perform M.exec i q w) ↔ C ⟨i, q, w, σ.shared⟩ σ.history)
  env : ∀ e σ, inv σ → inv (σ.change (M.env e))

/-- **The invariant holds at every moment of a run exactly when each statement meets the condition.** -/
theorem Decides.forall_reached_iff {K : Step S W Q → Prop} {inv : Log S W Q → Prop}
    {C : Step S W Q → List (Step S W Q) → Prop} (h : Decides M K inv C) {s : S} (hs : inv ⟨s, []⟩)
    (moves : List (Move Q I)) (hK : ∀ step ∈ (Run.run M.step moves (Config.initial s)).log.history, K step) :
    (∀ before after, moves = before ++ after → inv (Run.run M.step before (Config.initial s)).log) ↔
      ∀ step earlier, step :: earlier <:+ (Run.run M.step moves (Config.initial s)).log.history →
        C step earlier := by
  induction moves using List.reverseRecOn with
  | nil =>
    refine iff_of_true ?_ fun step earlier hsuffix => by simp [Config.initial] at hsuffix
    rintro before after heq
    obtain ⟨rfl, -⟩ := List.append_eq_nil_iff.mp heq.symm
    exact hs
  | append_singleton moves m ih =>
    have hsuffix := history_suffix_append M s moves [m]
    rw [Run.forall_prefix_append_singleton, ih fun step hstep => hK step (hsuffix.subset hstep)]
    have hlast := fun hall => (ih fun step hstep => hK step (hsuffix.subset hstep)).mpr hall moves []
      (List.append_nil _).symm
    rw [Run.run_append, Run.run_cons, Run.run_nil] at hK ⊢
    generalize Run.run M.step moves (Config.initial s) = c at *
    rcases M.log_step m c with hlog | ⟨e, hlog⟩ | ⟨i, q, w, hlog⟩
    · rw [hlog]
      exact and_iff_left_of_imp hlast
    · rw [hlog]
      exact and_iff_left_of_imp fun hall => h.env e c.log (hlast hall)
    · rw [hlog] at hK ⊢
      constructor
      · rintro ⟨hall, hnow⟩ step earlier hsuffix
        rcases List.suffix_cons_iff.mp hsuffix with heq | hsuffix
        · obtain ⟨rfl, rfl⟩ := List.cons.inj heq
          exact (h.step i q w c.log (hK _ List.mem_cons_self) (hlast hall)).mp hnow
        · exact hall step earlier hsuffix
      · intro hall
        have hearlier := fun step earlier hsuffix =>
          hall step earlier (List.IsSuffix.trans hsuffix (List.suffix_cons _ _))
        exact ⟨hearlier, (h.step i q w c.log (hK _ List.mem_cons_self) (hlast hearlier)).mpr
          (hall _ _ (List.suffix_refl _))⟩

/-! ## States that no statement breaks -/

/-- Effects and the environment keep an invariant, and by it what breaks a good state is known. -/
structure Breaking (M : Machine S W ε Q I A) (P : W → Prop) (inv good : S → Prop)
    (breaks : W → S → Prop) : Prop where
  handler : ∀ q, (M.handler q).Only P
  exec : ∀ w s, P w → inv s → inv (M.exec w s)
  env : ∀ e s, inv s → inv (M.env e s) ∧ (good s → good (M.env e s))
  good_exec_iff : ∀ w s, P w → inv s → good s → (good (M.exec w s) ↔ ¬ breaks w s)

variable {P : W → Prop} {good : S → Prop} {breaks : W → S → Prop}

theorem Breaking.inv_run (h : Breaking M P inv good breaks) {s : S} (hs : inv s)
    (moves : List (Move Q I)) : inv (Run.run M.step moves (Config.initial s)).log.shared ∧
      ∀ step ∈ (Run.run M.step moves (Config.initial s)).log.history, P step.write := by
  let O : Outline M :=
    { inv := fun σ => inv σ.shared ∧ ∀ step ∈ σ.history, P step.write
      rely := fun _ _ => True
      refl := fun _ => trivial
      trans := fun _ _ => trivial
      env := fun e σ hσ => ⟨⟨(h.env e σ.shared hσ.1).1, hσ.2⟩, trivial⟩ }
  have hkeep : ∀ i q w σ, P w → O.inv σ →
      O.rely σ (σ.perform M.exec i q w) ∧ O.inv (σ.perform M.exec i q w) := by
    intro i q w σ hw hσ
    refine ⟨trivial, h.exec w σ.shared hw hσ.1, fun step hstep => ?_⟩
    rcases List.mem_cons.mp hstep with rfl | hstep
    · exact hw
    · exact hσ.2 step hstep
  exact (Outline.of_only (O := O) h.handler hkeep (s := s) ⟨hs, by simp⟩ [] moves).1

/-- **Every state of a run is good exactly when none of its statements breaks one.** -/
theorem Breaking.forall_reached_iff (h : Breaking M P inv good breaks) {s : S} (hs : inv s)
    (hgood : good s) (moves : List (Move Q I)) :
    (∀ before after, moves = before ++ after →
        good (Run.run M.step before (Config.initial s)).log.shared) ↔
      ∀ step ∈ (Run.run M.step moves (Config.initial s)).log.history,
        ¬ breaks step.write step.before := by
  have hdecides : Decides M (fun step => P step.write) (fun σ => inv σ.shared ∧ good σ.shared)
      fun step _ => ¬ breaks step.write step.before :=
    { step := fun i q w σ hw hσ => (and_iff_right (h.exec w σ.shared hw hσ.1)).trans
        (h.good_exec_iff w σ.shared hw hσ.1 hσ.2)
      env := fun e σ hσ => ⟨(h.env e σ.shared hσ.1).1, (h.env e σ.shared hσ.1).2 hσ.2⟩ }
  refine Iff.trans ?_ ((hdecides.forall_reached_iff (s := s) ⟨hs, hgood⟩ moves (h.inv_run hs moves).2).trans ?_)
  · exact forall₃_congr fun before _ _ => (and_iff_right (h.inv_run hs before).1).symm
  · constructor
    · intro hall step hstep
      obtain ⟨later, earlier, heq⟩ := List.append_of_mem hstep
      exact hall step earlier ⟨later, heq.symm⟩
    · exact fun hall step earlier hsuffix => hall step (hsuffix.subset List.mem_cons_self)

/-! ## What an answer has seen -/

namespace Prog

/-- Every answer has a property, or stands in a relation to a state that one of the statements found. -/
def Saw (R : α → S → Prop) : (α → Prop) → Prog S W ε α → Prop
  | K, done a => K a
  | _, raise _ => True
  | K, stmt _ next => ∀ s, (next s).Saw R fun a => K a ∨ R a s

variable {R : α → S → Prop} {K : α → Prop}

theorem Saw.stmt {w : W} {next : S → Prog S W ε α} (h : ∀ s, (next s).Saw R fun a => K a ∨ R a s) :
    (stmt w next).Saw R K := h

theorem Saw.mono {K' : α → Prop} {p : Prog S W ε α} (h : p.Saw R K) (himp : ∀ a, K a → K' a) :
    p.Saw R K' := by
  induction p generalizing K K' with
  | done a => exact himp a h
  | raise e => trivial
  | stmt w next ih => exact fun s => ih s (h s) fun a => Or.imp_left (himp a)

theorem Saw.of_answers {p : Prog S W ε α} (h : p.Answers K) : p.Saw R K := by
  induction p generalizing K with
  | done a => exact h
  | raise e => trivial
  | stmt w next ih => exact fun s => ih s ((h s).mono fun a => Or.inl)

/-- What the later part of a sequence has seen. -/
theorem Saw.bind {R : β → S → Prop} {K : β → Prop} {p : Prog S W ε α} {f : α → Prog S W ε β}
    (h : ∀ a, (f a).Saw R K) : (p >>= f).Saw R K := by
  induction p generalizing K with
  | done a => exact h a
  | raise e => trivial
  | stmt w next ih => exact fun s => ih s fun a => (h a).mono fun b => Or.inl

/-- What an answer has by what the first part of a sequence has seen. -/
theorem Saw.andThen {R' : β → S → Prop} {K' : β → Prop} {L : α → β → Prop} {p : Prog S W ε α}
    {f : α → Prog S W ε β} (h : p.Saw R K) (hf : ∀ a, (f a).Answers (L a))
    (hR : ∀ a b s, L a b → R a s → R' b s) (hK : ∀ a b, L a b → K a → K' b) : (p >>= f).Saw R' K' := by
  induction p generalizing K K' with
  | done a => exact .of_answers ((hf a).mono fun b hb => hK a b hb h)
  | raise e => trivial
  | stmt w next ih => exact fun s => ih s (h s) fun a b hb => Or.imp (hK a b hb) (hR a b s hb)

/-- What an answer has seen, seen through a constructor. -/
theorem Saw.map {p : Prog S W ε α} (h : p.Saw R K) (f : α → β) :
    (f <$> p).Saw (fun b s => ∃ a, b = f a ∧ R a s) fun b => ∃ a, b = f a ∧ K a :=
  h.andThen (L := fun a b => b = f a) (fun _ => rfl) (fun a _ _ hb hseen => ⟨a, hb, hseen⟩)
    fun a _ hb hK => ⟨a, hb, hK⟩

theorem Saw.lift {S' W' : Type} {p : Prog S W ε α} (h : p.Saw R K) (part : S' → S) (inj : W → W') :
    (p.lift part inj).Saw (fun a s => R a (part s)) K := by
  induction p generalizing K with
  | done a => exact h
  | raise e => trivial
  | stmt w next ih => exact fun s => ih (part s) (h (part s))

/-- The statements of the thread are those that have found the state. -/
theorem Saw.traces {p : Prog S W ε α} (h : p.Saw R K) : p.Traces (fun _ _ => True) i q
    (fun r final => own ⊆ final ∧ ∀ a, r = .ok a → K a ∨ ∃ step ∈ final, R a step.before) own := by
  induction p generalizing K own with
  | done a => exact ⟨List.Subset.refl _, fun b hb => .inl (Except.ok.inj hb ▸ h)⟩
  | raise e => exact ⟨List.Subset.refl _, fun b hb => nomatch hb⟩
  | stmt w next ih =>
    refine fun s => ⟨trivial, (ih s (h s)).mono ?_⟩
    rintro r final ⟨hsubset, hfinal⟩
    refine ⟨fun step hstep => hsubset (List.mem_cons_of_mem _ hstep), fun a ha => ?_⟩
    rcases hfinal a ha with (hK | hR) | hseen
    · exact .inl hK
    · exact .inr ⟨_, hsubset List.mem_cons_self, hR⟩
    · exact .inr hseen

end Prog

/-- **What an answer of a run has seen.** A statement of its thread has found a state that the answer
stands in the relation to. -/
theorem saw_run {M : Machine S W ε Q I A} {R : A → S → Prop} {K : A → Prop} (h : (M.handler q).Saw R K)
    (s : S) (moves : List (Move Q I)) {a : A} (ha : (Run.run M.step moves (Config.initial s)).Answered i q a) :
    K a ∨ ∃ step ∈ (Run.run M.step moves (Config.initial s)).log.own i, R a step.before := by
  have htraces : ∀ i q', (M.handler q').Traces (fun _ _ => True) i q'
      (fun r own => q' = q → ∀ a, r = .ok a → K a ∨ ∃ step ∈ own, R a step.before) [] := by
    intro i q'
    by_cases hq : q' = q
    · subst hq
      exact h.traces.mono fun r own hown _ => hown.2
    · have htrivial : (M.handler q').Traces (fun _ _ => True) i q' (fun _ _ => True) [] :=
        .of_only (Prog.only_true _) (fun _ _ _ _ _ => ⟨trivial, trivial⟩) trivial
      exact htrivial.mono fun _ _ _ heq => absurd heq hq
  exact (traced_run (K := fun q' r own => q' = q → ∀ a, r = .ok a → K a ∨ ∃ step ∈ own, R a step.before)
    htraces s moves).2 i q a ha rfl a rfl

end Concurrent
