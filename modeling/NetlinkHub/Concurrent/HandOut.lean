import NetlinkHub.Concurrent.Table
import NetlinkHub.Concurrent.Trace

/-! # Rows that are handed out

A thread takes note of rows that wait, and marks them in a later statement, so that they wait no longer. Two
threads take note of different rows if none does so between these two statements of another (`HandOut.once`). -/

namespace Concurrent

open Table (Evolves)

variable {S W Q R K α : Type}

/-- Of two members of a list, one comes earlier: it stands in what follows the other. -/
theorem pairwise_suffix (l : List α) : l.Pairwise fun a b => ∃ earlier, a :: earlier <:+ l ∧ b ∈ earlier := by
  induction l with
  | nil => exact .nil
  | cons a l ih =>
    refine List.pairwise_cons.mpr ⟨fun b hb => ⟨l, List.suffix_refl _, hb⟩, ih.imp ?_⟩
    rintro b c ⟨earlier, hsuffix, hc⟩
    exact ⟨earlier, hsuffix.trans (List.suffix_cons a l), hc⟩

theorem forall_suffix_cons {C : α → List α → Prop} {a : α} {l : List α} :
    (∀ b earlier, b :: earlier <:+ a :: l → C b earlier) ↔
      C a l ∧ ∀ b earlier, b :: earlier <:+ l → C b earlier := by
  constructor
  · intro h
    exact ⟨h a l (List.suffix_refl _), fun b earlier hsuffix => h b earlier (hsuffix.trans (List.suffix_cons a l))⟩
  · rintro ⟨hhead, htail⟩ b earlier hsuffix
    rcases List.suffix_cons_iff.mp hsuffix with heq | hsuffix
    · obtain ⟨rfl, rfl⟩ := List.cons.inj heq
      exact hhead
    · exact htail b earlier hsuffix

instance decidableForallSuffix {C : α → List α → Prop} [∀ a l, Decidable (C a l)] :
    ∀ l : List α, Decidable (∀ b earlier, b :: earlier <:+ l → C b earlier)
  | [] => .isTrue fun b earlier hsuffix => by simp at hsuffix
  | a :: l =>
    have := decidableForallSuffix (C := C) l
    decidable_of_iff _ forall_suffix_cons.symm

/-- A table whose rows wait to be handed out: which rows a statement takes note of, and which it marks. -/
structure HandOut (S W Q R K : Type) (exec : W → S → S) where
  rows : S → List R
  key : R → K
  Waits : R → Prop
  looked : Step S W Q → List K
  marked : Step S W Q → List K
  finds : ∀ step, ∀ k ∈ looked step, ∃ r ∈ rows step.before, key r = k ∧ Waits r
  marks : ∀ step, ∀ k ∈ marked step, ∀ r ∈ rows (exec step.write step.before), key r = k → ¬ Waits r

namespace HandOut

variable {exec : W → S → S} (H : HandOut S W Q R K exec)

/-- The statement takes note of no row that another thread has taken note of and not marked. -/
def Undisturbed (step : Step S W Q) (earlier : List (Step S W Q)) : Prop :=
  ∀ look ∈ earlier, look.thread ≠ step.thread → ∀ k ∈ H.looked look, k ∈ H.looked step →
    ∃ mark ∈ earlier, mark.thread = look.thread ∧ k ∈ H.marked mark

instance [DecidableEq K] (step : Step S W Q) (earlier : List (Step S W Q)) :
    Decidable (H.Undisturbed step earlier) :=
  inferInstanceAs (Decidable (∀ look ∈ earlier, look.thread ≠ step.thread → ∀ k ∈ H.looked look,
    k ∈ H.looked step → ∃ mark ∈ earlier, mark.thread = look.thread ∧ k ∈ H.marked mark))

/-- A thread marks what it has taken note of. -/
def MarksOwn (step : Step S W Q) (own : List (Step S W Q)) : Prop :=
  ∀ k ∈ H.marked step, ∃ look ∈ own, k ∈ H.looked look

/-- What a row may become: it does not come to wait again. -/
structure Keeps (r r' : R) : Prop where
  key : H.key r' = H.key r
  waits : ¬ H.Waits r → ¬ H.Waits r'

variable {H} {inv : S → Prop} {rel : S → S → Prop} {σ : Log S W Q} {a b : Step S W Q} {i j : Nat} {k : K}

theorem Keeps.trans {r r' r'' : R} (h : H.Keeps r r') (h' : H.Keeps r' r'') : H.Keeps r r'' :=
  ⟨h'.key.trans h.key, h'.waits ∘ h.waits⟩

/-- Of two threads, the later one takes note of other rows. -/
theorem not_looked_later (hchained : σ.Chained exec inv rel)
    (hkeys : ∀ s, inv s → ((H.rows s).map H.key).Nodup)
    (hrel : ∀ s t, rel s t → Evolves H.Keeps (H.rows s) (H.rows t)) (hmarks : σ.Traced H.MarksOwn)
    {earlier : List (Step S W Q)} (hsuffix : a :: earlier <:+ σ.history) (hund : H.Undisturbed a earlier)
    (hb : b ∈ earlier) (hthread : b.thread ≠ a.thread) (hlooked : k ∈ H.looked b) : k ∉ H.looked a := by
  intro ha
  obtain ⟨mark, hmark, -, hmarked⟩ := hund b hb hthread k hlooked ha
  -- The thread that marks the row has taken note of it before, so it was there.
  obtain ⟨between, before, rfl⟩ := List.append_of_mem hmark
  have hmarkSuffix : mark :: before <:+ σ.history :=
    ((List.suffix_append between _).trans (List.suffix_cons a _)).trans hsuffix
  obtain ⟨look, hlook, hfound⟩ := hmarks mark before hmarkSuffix k hmarked
  replace hlook : look ∈ before := (List.mem_filter.mp hlook).1
  obtain ⟨r, hr, hkey, -⟩ := H.finds look k hfound
  have hlookMem : look ∈ σ.history := hmarkSuffix.subset (List.mem_cons_of_mem _ hlook)
  have hmarkMem : mark ∈ σ.history := hmarkSuffix.subset List.mem_cons_self
  have hbetween := hchained.between.sublist hmarkSuffix.sublist
  have hlater := hchained.between.sublist hsuffix.sublist
  have hpath := (((hrel _ _ (hchained.before look hlookMem).2).trans Keeps.trans
    (hrel _ _ ((List.pairwise_cons.mp hbetween).1 look hlook))).trans Keeps.trans
      (hrel _ _ (hchained.before mark hmarkMem).2))
  obtain ⟨r₁, hr₁, hkeeps₁⟩ := hpath r hr
  have hnot : ¬ H.Waits r₁ := H.marks mark k hmarked r₁ hr₁ (hkeeps₁.key.trans hkey)
  obtain ⟨r₂, hr₂, hkeeps₂⟩ := hrel _ _ ((List.pairwise_cons.mp hlater).1 mark hmark) r₁ hr₁
  -- It waits no longer, but is taken note of.
  obtain ⟨r₃, hr₃, hkey₃, hwaits⟩ := H.finds a k ha
  have hkey₂ : H.key r₂ = k := hkeeps₂.key.trans (hkeeps₁.key.trans hkey)
  have haMem : a ∈ σ.history := hsuffix.subset List.mem_cons_self
  have hsame : r₂ = r₃ :=
    Table.eq_of_key (hkeys _ (hchained.before a haMem).1) hr₂ hr₃ (hkey₂.trans hkey₃.symm)
  exact hkeeps₂.waits hnot (hsame ▸ hwaits)

/-- **Rows are handed out once.** -/
theorem once (hchained : σ.Chained exec inv rel) (hkeys : ∀ s, inv s → ((H.rows s).map H.key).Nodup)
    (hrel : ∀ s t, rel s t → Evolves H.Keeps (H.rows s) (H.rows t)) (hmarks : σ.Traced H.MarksOwn)
    (hund : ∀ step earlier, step :: earlier <:+ σ.history → H.Undisturbed step earlier)
    (hij : i ≠ j) (ha : a ∈ σ.own i) (hb : b ∈ σ.own j) (hlooked : k ∈ H.looked a) : k ∉ H.looked b := by
  have hai : a.thread = i := of_decide_eq_true (List.mem_filter.mp ha).2
  have hbj : b.thread = j := of_decide_eq_true (List.mem_filter.mp hb).2
  intro hlooked'
  rcases Log.rel_of_pairwise (pairwise_suffix σ.history) hij ha hb with
    ⟨earlier, hsuffix, hmem⟩ | ⟨earlier, hsuffix, hmem⟩
  · refine not_looked_later hchained hkeys hrel hmarks hsuffix (hund a earlier hsuffix) hmem ?_ hlooked' hlooked
    rw [hai, hbj]
    exact hij.symm
  · refine not_looked_later hchained hkeys hrel hmarks hsuffix (hund b earlier hsuffix) hmem ?_ hlooked hlooked'
    rw [hai, hbj]
    exact hij

end HandOut

end Concurrent
