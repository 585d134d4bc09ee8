import NetlinkHub.Concurrent.Trace

/-! # Threads by what they have found

What is left of a thread is its program, taken through the states that the statements of the thread have
found, one after the other (`prog_run`), and its statements are those of the program on the way
(`carried_run`). So what a thread has come to can be read off its statements. -/

namespace Concurrent

variable {S W ε Q I A α β : Type}

namespace Prog

/-- What is left of a program after its first statements have found these states. -/
def after : Prog S W ε α → List S → Prog S W ε α
  | .stmt _ next, s :: states => (next s).after states
  | p, _ => p

/-- The statements of a program on this way, each with the state that it has found. -/
def carried : Prog S W ε α → List S → List (W × S)
  | .stmt w next, s :: states => (w, s) :: (next s).carried states
  | _, _ => []

@[simp] theorem after_nil (p : Prog S W ε α) : p.after [] = p := by
  cases p <;> rfl

@[simp] theorem after_done (a : α) (states : List S) : (done a : Prog S W ε α).after states = done a := by
  cases states <;> rfl

@[simp] theorem after_stmt (w : W) (next : S → Prog S W ε α) (s : S) (states : List S) :
    (stmt w next).after (s :: states) = (next s).after states := rfl

@[simp] theorem carried_nil (p : Prog S W ε α) : p.carried [] = [] := by
  cases p <;> rfl

@[simp] theorem carried_done (a : α) (states : List S) : (done a : Prog S W ε α).carried states = [] := by
  cases states <;> rfl

@[simp] theorem carried_raise (e : ε) (states : List S) : (raise e : Prog S W ε α).carried states = [] := by
  cases states <;> rfl

@[simp] theorem carried_stmt (w : W) (next : S → Prog S W ε α) (s : S) (states : List S) :
    (stmt w next).carried (s :: states) = (w, s) :: (next s).carried states := rfl

theorem after_concat {p : Prog S W ε α} {states : List S} {w : W} {next : S → Prog S W ε α} (s : S)
    (h : p.after states = stmt w next) : p.after (states ++ [s]) = next s := by
  induction states generalizing p with
  | nil =>
    rw [after_nil] at h
    rw [h]
    exact after_nil _
  | cons s' states ih =>
    cases p with
    | done a => cases h
    | raise e => cases h
    | stmt w' next' => exact ih h

theorem carried_concat {p : Prog S W ε α} {states : List S} {w : W} {next : S → Prog S W ε α} (s : S)
    (h : p.after states = stmt w next) : p.carried (states ++ [s]) = p.carried states ++ [(w, s)] := by
  induction states generalizing p with
  | nil =>
    rw [after_nil] at h
    rw [h, List.nil_append, carried_stmt, carried_nil, carried_nil, List.nil_append]
  | cons s' states ih =>
    cases p with
    | done a => cases h
    | raise e => cases h
    | stmt w' next' => exact congrArg ((w', s') :: ·) (ih h)

/-- What a sequence comes to once its first part has come to an answer. -/
theorem after_bind {p : Prog S W ε α} {f : α → Prog S W ε β} {a : α} {states : List S}
    (h : p.after states = done a) : ∃ rest, (p >>= f).after states = (f a).after rest := by
  induction states generalizing p with
  | nil =>
    rw [after_nil] at h
    exact ⟨[], by rw [h, done_bind]⟩
  | cons s states ih =>
    cases p with
    | done a' =>
      obtain rfl : a' = a := done.inj h
      exact ⟨s :: states, rfl⟩
    | raise e => cases h
    | stmt w next => exact ih h

/-- The statements of a sequence whose second part has none. -/
theorem carried_bind {p : Prog S W ε α} {f : α → Prog S W ε β} (h : ∀ a states, (f a).carried states = [])
    (states : List S) : (p >>= f).carried states = p.carried states := by
  induction states generalizing p with
  | nil => rw [carried_nil, carried_nil]
  | cons s states ih =>
    cases p with
    | done a => rw [done_bind, h, carried_done]
    | raise e => rw [raise_bind, carried_raise, carried_raise]
    | stmt w next => rw [stmt_bind, carried_stmt, carried_stmt, ih]

end Prog

/-- The states that the statements of a thread have found, the oldest first. -/
def Log.found (σ : Log S W Q) (i : Nat) : List S := ((σ.own i).map (·.before)).reverse

/-- The statements of a thread with these states, the oldest first. -/
def Log.carried (σ : Log S W Q) (i : Nat) : List (W × S) :=
  ((σ.own i).map fun step => (step.write, step.before)).reverse

/-- Every thread has come as far as its statements have taken it. -/
structure Replayed (M : Machine S W ε Q I A) (c : Config S W ε Q A) : Prop where
  threads : ∀ step ∈ c.log.history, step.thread < c.threads.length
  prog : ∀ i t, c.threads[i]? = some t → t.prog = (M.handler t.request).after (c.log.found i)
  carried : ∀ i t, c.threads[i]? = some t → c.log.carried i = (M.handler t.request).carried (c.log.found i)
  requests : ∀ step ∈ c.log.history, ∀ t, c.threads[step.thread]? = some t → step.request = t.request

variable {M : Machine S W ε Q I A}

/-- What one move keeps. -/
theorem Replayed.step {c : Config S W ε Q A} (m : Move Q I) (h : Replayed M c) : Replayed M (M.step m c) := by
  cases m with
  | env e => exact ⟨h.threads, h.prog, h.carried, h.requests⟩
  | call q =>
    -- The new thread has carried out no statement.
    have hown := Outline.own_eq_nil h.threads
    have hold : ∀ i t, (c.threads ++ [⟨q, M.handler q⟩])[i]? = some t →
        c.threads[i]? = some t ∨ i = c.threads.length ∧ t = ⟨q, M.handler q⟩ := by
      intro i t ht
      rcases lt_or_ge i c.threads.length with hi | hi
      · exact .inl (by rwa [List.getElem?_append_left hi] at ht)
      · rw [List.getElem?_append_right hi] at ht
        obtain ⟨hlt, rfl⟩ := List.getElem?_eq_some_iff.mp ht
        rw [List.length_singleton] at hlt
        exact .inr ⟨by omega, by simp⟩
    refine ⟨fun step hstep => ?_, fun i t ht => ?_, fun i t ht => ?_, fun step hstep t ht => ?_⟩
    · have hlt := h.threads step hstep
      simp only [Machine.step, List.length_append, List.length_singleton]
      omega
    · rcases hold i t ht with ht | ⟨rfl, rfl⟩
      · exact h.prog i t ht
      · simp [Machine.step, Log.found, hown]
    · rcases hold i t ht with ht | ⟨rfl, rfl⟩
      · exact h.carried i t ht
      · simp [Machine.step, Log.found, Log.carried, hown]
    · rcases hold step.thread t ht with ht | ⟨hthread, -⟩
      · exact h.requests step hstep t ht
      · have hlt := h.threads step hstep
        omega
  | step i =>
    show Replayed M (c.advance M.exec i)
    unfold Config.advance
    split
    · rename_i q w next hi
      have hprog := (h.prog i _ hi).symm
      have hset := (List.getElem?_eq_some_iff.mp hi).1
      have hfound : (c.log.perform M.exec i q w).found i = c.log.found i ++ [c.log.shared] := by
        simp [Log.found]
      have hcarried : (c.log.perform M.exec i q w).carried i = c.log.carried i ++ [(w, c.log.shared)] := by
        simp [Log.carried]
      have hother : ∀ j, i ≠ j → (c.log.perform M.exec i q w).own j = c.log.own j := fun j hij =>
        Log.own_perform_of_ne _ _ _ _ hij
      refine ⟨fun step hstep => ?_, fun j t ht => ?_, fun j t ht => ?_, fun step hstep t ht => ?_⟩
      · rw [List.length_set]
        rcases List.mem_cons.mp hstep with rfl | hstep
        · exact hset
        · exact h.threads step hstep
      · rcases eq_or_ne i j with rfl | hij
        · rw [List.getElem?_set_self hset] at ht
          obtain rfl := Option.some.inj ht
          rw [hfound]
          exact (Prog.after_concat _ hprog).symm
        · rw [List.getElem?_set_ne hij] at ht
          rw [Log.found, hother j hij]
          exact h.prog j t ht
      · rcases eq_or_ne i j with rfl | hij
        · rw [List.getElem?_set_self hset] at ht
          obtain rfl := Option.some.inj ht
          rw [hfound, hcarried, h.carried i _ hi]
          exact (Prog.carried_concat _ hprog).symm
        · rw [List.getElem?_set_ne hij] at ht
          rw [Log.found, Log.carried, hother j hij]
          exact h.carried j t ht
      · rcases List.mem_cons.mp hstep with rfl | hstep
        · rw [List.getElem?_set_self hset] at ht
          rw [← Option.some.inj ht]
        · rcases eq_or_ne i step.thread with heq | hne
          · rw [← heq, List.getElem?_set_self hset] at ht
            obtain rfl := Option.some.inj ht
            exact h.requests step hstep ⟨q, .stmt w next⟩ (heq ▸ hi)
          · rw [List.getElem?_set_ne hne] at ht
            exact h.requests step hstep t ht
    · exact h

theorem replayed_run (M : Machine S W ε Q I A) (s : S) (moves : List (Move Q I)) :
    Replayed M (Run.run M.step moves (Config.initial s)) :=
  Run.invariant (fun m _ hc => hc.step m) moves
    ⟨by simp [Config.initial], by simp [Config.initial], by simp [Config.initial], by simp [Config.initial]⟩

variable {s : S} {moves : List (Move Q I)} {i : Nat} {t : Thread S W ε Q A}

/-- **What is left of a thread.** -/
theorem prog_run (h : (Run.run M.step moves (Config.initial s)).threads[i]? = some t) :
    t.prog = (M.handler t.request).after ((Run.run M.step moves (Config.initial s)).log.found i) :=
  (replayed_run M s moves).prog i t h

/-- **What a thread has done.** -/
theorem carried_run (h : (Run.run M.step moves (Config.initial s)).threads[i]? = some t) :
    (Run.run M.step moves (Config.initial s)).log.carried i =
      (M.handler t.request).carried ((Run.run M.step moves (Config.initial s)).log.found i) :=
  (replayed_run M s moves).carried i t h

/-- The statement of a thread is one of its program. -/
theorem carried_of_mem {step : Step S W Q} (hstep : step ∈ (Run.run M.step moves (Config.initial s)).log.history) :
    ∃ t, (Run.run M.step moves (Config.initial s)).threads[step.thread]? = some t ∧ t.request = step.request ∧
      (step.write, step.before) ∈ (M.handler t.request).carried
        ((Run.run M.step moves (Config.initial s)).log.found step.thread) := by
  have hreplayed := replayed_run M s moves
  have hthread := List.getElem?_eq_getElem (hreplayed.threads step hstep)
  refine ⟨_, hthread, (hreplayed.requests step hstep _ hthread).symm, ?_⟩
  rw [← carried_run hthread, Log.carried, List.mem_reverse]
  exact List.mem_map_of_mem (List.mem_filter.mpr ⟨hstep, by simp⟩)

/-- The move that has carried out a statement leaves what the statement makes of the state that it has found. -/
theorem shared_of_history {c : Config S W ε Q A} {m : Move Q I} {step : Step S W Q} {earlier : List (Step S W Q)}
    (hlog : c.log = ⟨step.before, earlier⟩) (h : (M.step m c).log.history = step :: earlier) :
    (M.step m c).log.shared = M.exec step.write step.before := by
  rcases M.log_step m c with hkept | ⟨e, hchanged⟩ | ⟨i, q, w, hperformed⟩
  · rw [hkept, hlog] at h
    exact absurd h.symm (List.cons_ne_self _ _)
  · rw [hchanged, hlog] at h
    exact absurd h.symm (List.cons_ne_self _ _)
  · rw [hperformed, hlog] at h
    have hwrite : step.write = w := congrArg Step.write (List.cons.inj h).1.symm
    rw [hperformed, hlog, hwrite]
    rfl

end Concurrent
