import NetlinkHub.Api.PowerSteps

/-! # A power command is handed out once

Handing out is the one statement that takes a command from due to 'sent'. As no call makes a command
due again, there is at most one such statement for each command in any interleaving
(`HandOutInv.perform`): the conditional update of `collectFor` is where the race is decided. -/

namespace Api

open Concurrent (Log)
open Table (Evolves)

/-- One statement of a power call. -/
abbrev PowerStep := Concurrent.Step World Write PowerRequest

/-- The commands and all statements so far. -/
abbrev PowerLog := Log World Write PowerRequest

/-- The statement takes the command from due to 'sent'. -/
def HandsOut (id : String) (step : PowerStep) : Prop :=
  ∃ r ∈ step.before.powerCommands, r.id = id ∧ r.state.Due ∧
    ∃ r' ∈ (exec step.write step.before).powerCommands, r'.id = id ∧ r'.state = .sent

instance (id : String) : DecidablePred (HandsOut id) := fun step =>
  inferInstanceAs (Decidable (∃ r ∈ step.before.powerCommands, _))

/-- How often the command has been handed out. -/
def handOuts (id : String) (steps : List PowerStep) : Nat := steps.countP (HandsOut id ·)

/-- The command has not become due by the step. -/
structure Settles (r r' : PowerCommandRow) : Prop where
  content : r'.content = r.content
  due : r'.state.Due → r.state.Due

theorem Settles.refl (r : PowerCommandRow) : Settles r r := ⟨rfl, id⟩

theorem Settles.trans {a b c : PowerCommandRow} (h : Settles a b) (h' : Settles b c) : Settles a c :=
  ⟨h'.content.trans h.content, h.due ∘ h'.due⟩

theorem RowStep.settles {q : PowerRequest} {w : Write} {r r' : PowerCommandRow}
    (h : RowStep q w r r') : Settles r r' :=
  ⟨h.content, h.due⟩

/-- At most one statement has handed a command out, and a command that was handed out is not due. -/
structure HandOutInv (σ : PowerLog) : Prop where
  ids : (σ.shared.powerCommands.map (·.id)).Nodup
  once : ∀ id, handOuts id σ.history ≤ 1
  handed : ∀ id, 0 < handOuts id σ.history →
    ∃ r ∈ σ.shared.powerCommands, r.id = id ∧ ¬ r.state.Due

variable {σ τ : PowerLog} {i : Nat} {q : PowerRequest} {w : Write} {id : String}

theorem handOuts_cons (id : String) (step : PowerStep) (steps : List PowerStep) :
    handOuts id (step :: steps) = handOuts id steps + if HandsOut id step then 1 else 0 := by
  simp [handOuts, List.countP_cons]

theorem handOuts_pos {steps : List PowerStep} :
    0 < handOuts id steps ↔ ∃ step ∈ steps, HandsOut id step := by
  simp [handOuts, List.countP_pos_iff]

/-- A command that is not due cannot be handed out. -/
theorem not_handsOut_of_not_due (hids : (σ.shared.powerCommands.map (·.id)).Nodup)
    {r : PowerCommandRow} (hr : r ∈ σ.shared.powerCommands) (hdue : ¬ r.state.Due) (hid : r.id = id) :
    ¬ HandsOut id ⟨i, q, w, σ.shared⟩ := by
  rintro ⟨r', hr', hid', hdue', -⟩
  obtain rfl : r' = r := Table.eq_of_key hids hr' hr (hid'.trans hid.symm)
  exact hdue hdue'

theorem settles_perform (h : PowerWrite q w) (σ : PowerLog) :
    Evolves Settles σ.shared.powerCommands (σ.perform exec i q w).shared.powerCommands := by
  intro r hr
  obtain ⟨r', hr', hstep⟩ := rowStep_exec h σ.shared r hr
  exact ⟨r', hr', hstep.settles⟩

/-- **What each statement keeps.** -/
theorem HandOutInv.perform (h : HandOutInv σ) (hw : PowerWrite q w) :
    HandOutInv (σ.perform exec i q w) := by
  have hids : ((σ.perform exec i q w).shared.powerCommands.map (·.id)).Nodup := ids_exec hw h.ids
  -- Handing out a second time would need a due row beside the one that is not due.
  have hnew : ∀ id, 0 < handOuts id σ.history → ¬ HandsOut id ⟨i, q, w, σ.shared⟩ := by
    intro id hpos
    obtain ⟨r, hr, hid, hdue⟩ := h.handed id hpos
    exact not_handsOut_of_not_due h.ids hr hdue hid
  refine ⟨hids, fun id => ?_, fun id hpos => ?_⟩
  · show handOuts id (_ :: σ.history) ≤ 1
    rw [handOuts_cons]
    have honce := h.once id
    split
    · rename_i hout
      have : ¬ 0 < handOuts id σ.history := fun hpos => hnew id hpos hout
      omega
    · omega
  · replace hpos : 0 < handOuts id (_ :: σ.history) := hpos
    rw [handOuts_cons] at hpos
    split at hpos
    · rename_i hout
      obtain ⟨-, -, -, -, r', hr', hid, hsent⟩ := hout
      exact ⟨r', hr', hid, by rw [hsent]; decide⟩
    · obtain ⟨r, hr, hid, hdue⟩ := h.handed id (by omega)
      obtain ⟨r', hr', hstep⟩ := settles_perform (i := i) hw σ r hr
      exact ⟨r', hr', (id_of_content hstep.content).trans hid, fun hd => hdue (hstep.due hd)⟩

/-- The environment hands nothing out. -/
theorem HandOutInv.change (h : HandOutInv σ) (e : Outside) : HandOutInv (σ.change (outside e)) :=
  ⟨by simpa [Log.change] using h.ids, h.once, fun id hpos => by simpa [Log.change] using h.handed id hpos⟩

/-- Two statements that hand one command out are one statement. -/
theorem HandOutInv.unique (h : HandOutInv σ) {a b : PowerStep} (ha : a ∈ σ.history)
    (hb : b ∈ σ.history) (hoa : HandsOut id a) (hob : HandsOut id b) : a = b := by
  have hlen : (σ.history.filter (HandsOut id ·)).length ≤ 1 := by
    rw [← List.countP_eq_length_filter]
    exact h.once id
  have hfa : a ∈ σ.history.filter (HandsOut id ·) := List.mem_filter.mpr ⟨ha, by simpa using hoa⟩
  have hfb : b ∈ σ.history.filter (HandsOut id ·) := List.mem_filter.mpr ⟨hb, by simpa using hob⟩
  match hf : σ.history.filter (HandsOut id ·), hlen with
  | [], _ => rw [hf] at hfa; cases hfa
  | [c], _ =>
    rw [hf, List.mem_singleton] at hfa hfb
    rw [hfa, hfb]
  | _ :: _ :: _, hlen => simp at hlen

end Api
