import NetlinkHub.Concurrent.HandOut
import NetlinkHub.Resources.Decisions

/-! # Work is handed to an agent once

A poll reads the rows that wait and then updates them all, whatever has become of them, and reports of either
end write any state. Where no statement meets a row in the wrong state (`Orderly`) and no poll reads while
another is between its two statements (`Undisturbed`), each transfer and each print job is in at most one
answer, and what has come to an end stays as it is (`handed_out_once`). -/

namespace Resources

open Account (AgentPrincipal)
open Api (Date HttpException RequestContext)
open Concurrent (Config HandOut Kept Log Machine Move Prog Step)
open Table (Evolves Op)

/-! ## What a row may become -/

/-- What a transfer may become: one that has come to an end stays so, and none waits again. -/
structure TransferStays (t t' : TransferRow) : Prop where
  id : t'.id = t.id
  settled : t.state.Settled → t'.state = t.state
  taken : t.state ≠ .pending → t'.state ≠ .pending

/-- What a print job may become. -/
structure PrintJobStays (j j' : PrintJobRow) : Prop where
  id : j'.id = j.id
  settled : j.state.Settled → j'.state = j.state
  taken : j.state ≠ .queued → j'.state ≠ .queued

theorem TransferStays.refl (t : TransferRow) : TransferStays t t := ⟨rfl, fun _ => rfl, fun h => h⟩

theorem TransferStays.trans {t t' t'' : TransferRow} (h : TransferStays t t') (h' : TransferStays t' t'') :
    TransferStays t t'' := by
  refine ⟨h'.id.trans h.id, fun hsettled => ?_, h'.taken ∘ h.taken⟩
  have hstate := h.settled hsettled
  exact (h'.settled (hstate ▸ hsettled)).trans hstate

theorem PrintJobStays.refl (j : PrintJobRow) : PrintJobStays j j := ⟨rfl, fun _ => rfl, fun h => h⟩

theorem PrintJobStays.trans {j j' j'' : PrintJobRow} (h : PrintJobStays j j') (h' : PrintJobStays j' j'') :
    PrintJobStays j j'' := by
  refine ⟨h'.id.trans h.id, fun hsettled => ?_, h'.taken ∘ h.taken⟩
  have hstate := h.settled hsettled
  exact (h'.settled (hstate ▸ hsettled)).trans hstate

/-- Every transfer and print job is still there, as it may have become. -/
structure WorkStays (s t : World) : Prop where
  transfers : Evolves TransferStays s.transfers t.transfers
  printJobs : Evolves PrintJobStays s.printJobs t.printJobs

/-- The rows are keyed, and a print job has its document exactly while it is queued. -/
structure WorkKept (w : World) : Prop where
  transferIds : (w.transfers.map (·.id)).Nodup
  printJobIds : (w.printJobs.map (·.id)).Nodup
  documents : ∀ j ∈ w.printJobs, j.document.isSome ↔ j.state = .queued

/-! ## Orderly statements -/

/-- No statement changes the state of what has come to an end, and none makes a row wait that does not. -/
def Orderly (step : ResourcesStep) : Prop :=
  match step.write with
  | .updateTransfer id data => ∀ t ∈ step.before.transfers, t.id = id →
      (t.state.Settled → data.state = t.state) ∧ (t.state ≠ .pending → data.state ≠ .pending)
  | .activateTransfers ids => ∀ t ∈ step.before.transfers, t.id ∈ ids → ¬ t.state.Settled
  | .updatePrintJob id data => ∀ j ∈ step.before.printJobs, j.id = id →
      (j.state.Settled → data.state = j.state) ∧ data.state ≠ .queued
  | .sendPrintJobs ids _ => ∀ j ∈ step.before.printJobs, j.id ∈ ids → ¬ j.state.Settled
  | _ => True

instance : DecidablePred Orderly := fun ⟨i, q, w, s⟩ => by
  apply Write.casesOn (motive := fun w => Decidable (Orderly ⟨i, q, w, s⟩)) w
  all_goals intros; dsimp only [Orderly]; infer_instance

variable {q : Request} {hashSecret : String → String} {s t : World} {w : Write} {i : Nat}

theorem WorkStays.refl (s : World) : WorkStays s s :=
  ⟨Evolves.refl TransferStays.refl _, Evolves.refl PrintJobStays.refl _⟩

theorem WorkStays.trans {u : World} (h : WorkStays s t) (h' : WorkStays t u) : WorkStays s u :=
  ⟨h.transfers.trans TransferStays.trans h'.transfers, h.printJobs.trans PrintJobStays.trans h'.printJobs⟩

theorem WorkStays.of_eq (htransfers : t.transfers = s.transfers) (hprintJobs : t.printJobs = s.printJobs) :
    WorkStays s t := by
  constructor
  · rw [htransfers]
    exact Evolves.refl TransferStays.refl _
  · rw [hprintJobs]
    exact Evolves.refl PrintJobStays.refl _

theorem WorkKept.congr (h : WorkKept s) (htransfers : t.transfers = s.transfers)
    (hprintJobs : t.printJobs = s.printJobs) : WorkKept t :=
  ⟨htransfers ▸ h.transferIds, hprintJobs ▸ h.printJobIds, hprintJobs ▸ h.documents⟩

/-- An update of transfers. -/
theorem work_updateTransfers {sel : TransferRow → Bool} {data : TransferRow → TransferRow} (h : WorkKept s)
    (hid : ∀ t, (data t).id = t.id) (hdata : ∀ t ∈ s.transfers, sel t → TransferStays t (data t)) :
    WorkStays s { s with transfers := (Op.update sel data).apply s.transfers } ∧
      WorkKept { s with transfers := (Op.update sel data).apply s.transfers } := by
  refine ⟨⟨Table.evolves_update TransferStays.refl hdata, Evolves.refl PrintJobStays.refl _⟩, ?_, h.printJobIds,
    h.documents⟩
  show (((Op.update sel data).apply s.transfers).map (·.id)).Nodup
  rw [Table.map_update hid]
  exact h.transferIds

/-- An update of print jobs that drops their documents, and queues none. -/
theorem work_updatePrintJobs {sel : PrintJobRow → Bool} {data : PrintJobRow → PrintJobRow} (h : WorkKept s)
    (hid : ∀ j, (data j).id = j.id) (hdocument : ∀ j, (data j).document = none)
    (hdata : ∀ j ∈ s.printJobs, sel j → (data j).state ≠ .queued ∧ (j.state.Settled → (data j).state = j.state)) :
    WorkStays s { s with printJobs := (Op.update sel data).apply s.printJobs } ∧
      WorkKept { s with printJobs := (Op.update sel data).apply s.printJobs } := by
  have hstays : ∀ j ∈ s.printJobs, sel j → PrintJobStays j (data j) := fun j hj hsel =>
    ⟨hid j, (hdata j hj hsel).2, fun _ => (hdata j hj hsel).1⟩
  refine ⟨⟨Evolves.refl TransferStays.refl _, Table.evolves_update PrintJobStays.refl hstays⟩, h.transferIds, ?_,
    fun j hj => ?_⟩
  · show (((Op.update sel data).apply s.printJobs).map (·.id)).Nodup
    rw [Table.map_update hid]
    exact h.printJobIds
  · obtain ⟨j₀, hj₀, rfl⟩ := Table.mem_update.mp hj
    split
    · rename_i hsel
      rw [hdocument]
      exact iff_of_false (by simp) (hdata j₀ hj₀ hsel).1
    · exact h.documents j₀ hj₀

/-- **What one orderly statement keeps.** -/
theorem work_perform (hw : ResourcesWrite q w) (horderly : Orderly ⟨i, q, w, s⟩) (h : WorkKept s) :
    WorkStays s (exec w s) ∧ WorkKept (exec w s) := by
  cases w with
  | createTransfer row =>
    refine ⟨⟨Table.evolves_insert TransferStays.refl, Evolves.refl PrintJobStays.refl _⟩,
      Table.nodup_insert (fun r hr => decide_eq_true hr) h.transferIds, h.printJobIds, h.documents⟩
  | createPrintJob row =>
    refine ⟨⟨Evolves.refl TransferStays.refl _, Table.evolves_insert PrintJobStays.refl⟩, h.transferIds,
      Table.nodup_insert (fun r hr => decide_eq_true hr) h.printJobIds, fun j hj => ?_⟩
    rcases Table.mem_insert hj with hj | rfl
    · exact h.documents j hj
    · exact iff_of_true hw.2 hw.1
  | updateTransfer id data =>
    refine work_updateTransfers h (fun _ => rfl) fun t ht hsel => ?_
    obtain ⟨hsettled, htaken⟩ := horderly t ht (of_decide_eq_true hsel)
    exact ⟨rfl, hsettled, htaken⟩
  | activateTransfers ids =>
    refine work_updateTransfers h (fun _ => rfl) fun t ht hsel => ?_
    have hlive := horderly t ht (of_decide_eq_true hsel)
    exact ⟨rfl, fun hsettled => absurd hsettled hlive, fun _ hpending => nomatch hpending⟩
  | updatePrintJob id data =>
    refine work_updatePrintJobs h (fun _ => rfl) (fun _ => rfl) fun j hj hsel => ?_
    obtain ⟨hsettled, hqueued⟩ := horderly j hj (of_decide_eq_true hsel)
    exact ⟨hqueued, hsettled⟩
  | sendPrintJobs ids now =>
    refine work_updatePrintJobs h (fun _ => rfl) (fun _ => rfl) fun j hj hsel => ?_
    have hlive := horderly j hj (of_decide_eq_true hsel)
    exact ⟨fun hqueued => (nomatch hqueued), fun hsettled => absurd hsettled hlive⟩
  | upsertResource create update =>
    have hsame : (exec (.upsertResource create update) s).transfers = s.transfers ∧
        (exec (.upsertResource create update) s).printJobs = s.printJobs := by
      simp only [exec]
      split
      · exact ⟨rfl, rfl⟩
      · split <;> exact ⟨rfl, rfl⟩
    exact ⟨.of_eq hsame.1 hsame.2, h.congr hsame.1 hsame.2⟩
  | _ => exact ⟨.of_eq rfl rfl, h.congr rfl rfl⟩

/-- **What a run of orderly statements keeps.** -/
theorem work_kept (hashSecret : String → String) :
    Kept (machine hashSecret) (fun step => ResourcesWrite step.request step.write ∧ Orderly step) WorkKept
      WorkStays where
  refl := .refl
  trans h h' := h.trans h'
  step _ hC h := work_perform hC.1 hC.2 h
  env _ _ h := ⟨.of_eq rfl rfl, h.congr rfl rfl⟩

/-! ## Polls -/

/-- The transfers that a statement takes note of. -/
def lookedTransfers (step : ResourcesStep) : List String :=
  match step.write with
  | .findTransfers agentId => (waitingTransfers agentId step.before).map (·.id)
  | _ => []

/-- The transfers that a statement marks as handed over. -/
def markedTransfers (step : ResourcesStep) : List String :=
  match step.write with
  | .activateTransfers ids => ids
  | _ => []

/-- The print jobs that a statement takes note of. -/
def lookedPrintJobs (step : ResourcesStep) : List String :=
  match step.write with
  | .findPrintJobs agentId => (waitingPrintJobs agentId step.before).map (·.id)
  | _ => []

/-- The print jobs that a statement marks as handed over. -/
def markedPrintJobs (step : ResourcesStep) : List String :=
  match step.write with
  | .sendPrintJobs ids _ => ids
  | _ => []

theorem mem_waitingTransfers {agentId : String} {t : TransferRow} (h : t ∈ waitingTransfers agentId s) :
    t ∈ s.transfers ∧ t.state = .pending := by
  have hmem := (List.mem_insertionSort _).mp (List.mem_of_mem_take h)
  obtain ⟨ht, hsel⟩ := List.mem_filter.mp hmem
  exact ⟨ht, (of_decide_eq_true hsel).2⟩

theorem mem_waitingPrintJobs {agentId : String} {j : PrintJobRow} (h : j ∈ waitingPrintJobs agentId s) :
    j ∈ s.printJobs ∧ j.state = .queued := by
  have hmem := (List.mem_insertionSort _).mp (List.mem_of_mem_take h)
  obtain ⟨hj, hsel⟩ := List.mem_filter.mp hmem
  exact ⟨hj, (of_decide_eq_true hsel).2⟩

/-- How transfers are handed out. -/
def transferHandOut : HandOut World Write Request TransferRow String exec where
  rows := World.transfers
  key := TransferRow.id
  Waits t := t.state = .pending
  looked := lookedTransfers
  marked := markedTransfers
  finds := by
    rintro ⟨i, q, w, s⟩ id hid
    cases w with
    | findTransfers agentId =>
      obtain ⟨t, ht, rfl⟩ := List.mem_map.mp hid
      obtain ⟨hmem, hstate⟩ := mem_waitingTransfers ht
      exact ⟨t, hmem, rfl, hstate⟩
    | _ => exact nomatch hid
  marks := by
    rintro ⟨i, q, w, s⟩ id hid t ht hkey
    cases w with
    | activateTransfers ids =>
      obtain ⟨t₀, ht₀, rfl⟩ := Table.mem_update.mp ht
      split at hkey
      · rename_i hsel
        rw [if_pos hsel]
        exact fun hpending => nomatch hpending
      · rename_i hsel
        exact absurd (decide_eq_true (hkey ▸ hid)) hsel
    | _ => exact nomatch hid

/-- How print jobs are handed out. -/
def printJobHandOut : HandOut World Write Request PrintJobRow String exec where
  rows := World.printJobs
  key := PrintJobRow.id
  Waits j := j.state = .queued
  looked := lookedPrintJobs
  marked := markedPrintJobs
  finds := by
    rintro ⟨i, q, w, s⟩ id hid
    cases w with
    | findPrintJobs agentId =>
      obtain ⟨j, hj, rfl⟩ := List.mem_map.mp hid
      obtain ⟨hmem, hstate⟩ := mem_waitingPrintJobs hj
      exact ⟨j, hmem, rfl, hstate⟩
    | _ => exact nomatch hid
  marks := by
    rintro ⟨i, q, w, s⟩ id hid j hj hkey
    cases w with
    | sendPrintJobs ids now =>
      obtain ⟨j₀, hj₀, rfl⟩ := Table.mem_update.mp hj
      split at hkey
      · rename_i hsel
        rw [if_pos hsel]
        exact fun hqueued => nomatch hqueued
      · rename_i hsel
        exact absurd (decide_eq_true (hkey ▸ hid)) hsel
    | _ => exact nomatch hid

/-- No poll takes note of a row that another has taken note of and not marked. -/
def Undisturbed (step : ResourcesStep) (earlier : List ResourcesStep) : Prop :=
  transferHandOut.Undisturbed step earlier ∧ printJobHandOut.Undisturbed step earlier

instance (step : ResourcesStep) (earlier : List ResourcesStep) : Decidable (Undisturbed step earlier) :=
  inferInstanceAs (Decidable (_ ∧ _))

/-- A statement marks what its thread has taken note of. -/
def MarksOwn (step : ResourcesStep) (own : List ResourcesStep) : Prop :=
  transferHandOut.MarksOwn step own ∧ printJobHandOut.MarksOwn step own

/-- The work is what statements of the thread have taken note of. -/
def Noted (work : AgentWork) (own : List ResourcesStep) : Prop :=
  (work.transfers = [] ∨ ∃ look ∈ own, lookedTransfers look = work.transfers.map (·.id)) ∧
    (work.printJobs = [] ∨ ∃ look ∈ own, lookedPrintJobs look = work.printJobs.map (·.id))

/-- The statement marks nothing. -/
def Write.MarksNothing : Write → Prop
  | .activateTransfers _ => False
  | .sendPrintJobs .. => False
  | _ => True

theorem Write.MarksNothing.marksOwn {own : List ResourcesStep} (h : w.MarksNothing) :
    MarksOwn ⟨i, q, w, s⟩ own := by
  cases w with
  | activateTransfers ids => exact h.elim
  | sendPrintJobs ids now => exact h.elim
  | _ => exact ⟨fun _ hid => (nomatch hid), fun _ hid => (nomatch hid)⟩

theorem ResourcesWrite.marksNothing (h : ResourcesWrite q w) (hq : ¬ q.Polls) : w.MarksNothing := by
  cases w with
  | activateTransfers ids => exact hq h
  | sendPrintJobs ids now => exact hq h
  | _ => trivial

theorem traces_collectTransfers (agentId : String) (own : List ResourcesStep) :
    (collectTransfers agentId).Traces MarksOwn i q (fun r own' => own ⊆ own' ∧ ∀ ts, r = .ok ts →
      ts = [] ∨ ∃ look ∈ own', lookedTransfers look = ts.map (·.id)) own := by
  unfold collectTransfers
  rw [Prog.perform_bind]
  refine .stmt (fun s => Write.MarksNothing.marksOwn trivial) fun s => ?_
  split
  · exact ⟨List.subset_cons_self _ _, fun ts hts => .inl (Except.ok.inj hts).symm⟩
  · have hlooked : lookedTransfers ⟨i, q, .findTransfers agentId, s⟩ =
        ((waitingTransfers agentId s).map (toWorkTransfer s)).map (·.id) := by
      rw [List.map_map]
      rfl
    refine .stmt (fun s' => ⟨fun id hid => ⟨_, List.mem_cons_self, ?_⟩, fun _ hid => nomatch hid⟩) fun s' =>
      ⟨fun step hstep => List.mem_cons_of_mem _ (List.mem_cons_of_mem _ hstep), fun ts hts => .inr ?_⟩
    · show id ∈ lookedTransfers ⟨i, q, .findTransfers agentId, s⟩
      rw [hlooked]
      exact hid
    · obtain rfl := Except.ok.inj hts
      exact ⟨_, List.mem_cons_of_mem _ List.mem_cons_self, hlooked⟩

theorem traces_collectPrintJobs (agentId : String) (own : List ResourcesStep) :
    (collectPrintJobs agentId).Traces MarksOwn i q (fun r own' => own ⊆ own' ∧ ∀ js, r = .ok js →
      js = [] ∨ ∃ look ∈ own', lookedPrintJobs look = js.map (·.id)) own := by
  unfold collectPrintJobs
  rw [Prog.perform_bind]
  refine .stmt (fun s => Write.MarksNothing.marksOwn trivial) fun s => ?_
  split
  · exact ⟨List.subset_cons_self _ _, fun js hjs => .inl (Except.ok.inj hjs).symm⟩
  · rw [newDate_bind]
    refine .stmt (fun s' => Write.MarksNothing.marksOwn trivial) fun s' => ?_
    refine .stmt (fun s'' => ⟨fun _ hid => (nomatch hid), fun id hid =>
      ⟨_, List.mem_cons_of_mem _ List.mem_cons_self, hid⟩⟩) fun s'' => ⟨fun step hstep => ?_, fun js hjs => .inr ?_⟩
    · exact List.mem_cons_of_mem _ (List.mem_cons_of_mem _ (List.mem_cons_of_mem _ hstep))
    · obtain rfl := Except.ok.inj hjs
      refine ⟨_, List.mem_cons_of_mem _ (List.mem_cons_of_mem _ List.mem_cons_self), ?_⟩
      rw [List.map_map]
      rfl

theorem traces_agentWork (principal : AgentPrincipal) :
    (agentWork principal).Traces MarksOwn i q (fun r own => ∀ work, r = .ok work → Noted work own) [] := by
  unfold agentWork
  rw [select_bind]
  refine .stmt (fun s => Write.MarksNothing.marksOwn trivial) fun s => ?_
  split
  · intro work hwork
    obtain rfl := Except.ok.inj hwork
    exact ⟨.inl rfl, .inl rfl⟩
  refine (traces_collectTransfers _ _).bind (fun ts own hown => ?_) fun e own _ work hwork => nomatch hwork
  refine (traces_collectPrintJobs _ own).bind (fun js own' hown' => ?_) fun e own' _ work hwork => nomatch hwork
  intro work hwork
  obtain rfl := Except.ok.inj hwork
  refine ⟨(hown.2 ts rfl).imp_right ?_, hown'.2 js rfl⟩
  rintro ⟨look, hlook, hlooked⟩
  exact ⟨look, hown'.1 hlook, hlooked⟩

theorem traces_work (hashSecret : String → String) (i : Nat) (q : Request) :
    ((machine hashSecret).handler q).Traces MarksOwn i q
      (fun r own => q.Polls → ∀ work, r = .ok (.work work) → Noted work own) [] := by
  by_cases hq : q.Polls
  · cases q with
    | agentWork principal =>
      refine Prog.Traces.map _ (traces_agentWork principal) (fun work own hnoted _ work' heq => ?_)
        fun e own _ _ work heq => nomatch heq
      obtain rfl := Response.work.inj (Except.ok.inj heq)
      exact hnoted work rfl
    | _ => exact hq.elim
  · have htraces : ((machine hashSecret).handler q).Traces MarksOwn i q (fun _ _ => True) [] :=
      .of_only (only_handler q) (fun w s own hw _ => ⟨(hw.marksNothing hq).marksOwn, trivial⟩) trivial
    exact htraces.mono fun _ _ _ hpolls => absurd hpolls hq

/-- What each answered poll has taken note of, along a run. -/
theorem noted_run (hashSecret : String → String) (w : World) (moves : List (Move Request Account.Outside)) :
    (resourcesRun hashSecret w moves).log.Traced MarksOwn ∧
      ∀ i principal work, (resourcesRun hashSecret w moves).Answered i (.agentWork principal) (.work work) →
        Noted work ((resourcesRun hashSecret w moves).log.own i) := by
  have hrun := Concurrent.traced_run
    (K := fun q (r : Except HttpException Response) own => q.Polls → ∀ work, r = .ok (.work work) → Noted work own) (traces_work hashSecret) w moves
  exact ⟨hrun.1, fun i principal work ha => hrun.2 i _ _ ha trivial work rfl⟩

/-! ## In a run -/

/-- Work is handed over once in a run, and what has come to an end stays so. -/
structure HandedOutOnce (hashSecret : String → String) (w : World) (moves : List (Move Request Account.Outside)) :
    Prop where
  transfers : ∀ i j p p' work work', i ≠ j → (resourcesRun hashSecret w moves).Answered i (.agentWork p) (.work work) →
    (resourcesRun hashSecret w moves).Answered j (.agentWork p') (.work work') →
    ∀ t ∈ work.transfers, ∀ t' ∈ work'.transfers, t.id ≠ t'.id
  printJobs : ∀ i j p p' work work', i ≠ j → (resourcesRun hashSecret w moves).Answered i (.agentWork p) (.work work) →
    (resourcesRun hashSecret w moves).Answered j (.agentWork p') (.work work') →
    ∀ k ∈ work.printJobs, ∀ k' ∈ work'.printJobs, k.id ≠ k'.id
  distinct : ∀ i p work, (resourcesRun hashSecret w moves).Answered i (.agentWork p) (.work work) →
    (work.transfers.map (·.id)).Nodup ∧ (work.printJobs.map (·.id)).Nodup
  cancelled : ∀ before after i p work, moves = before ++ after →
    (resourcesRun hashSecret w before).threads.length ≤ i →
    (resourcesRun hashSecret w moves).Answered i (.agentWork p) (.work work) →
    ∀ t ∈ (resourcesRun hashSecret w before).log.shared.transfers, t.state = .cancelled →
      ∀ t' ∈ work.transfers, t'.id ≠ t.id
  settledTransfers : ∀ before between after, moves = before ++ between ++ after →
    ∀ t ∈ (resourcesRun hashSecret w before).log.shared.transfers, t.state.Settled →
      ∃ t' ∈ (resourcesRun hashSecret w (before ++ between)).log.shared.transfers, t'.id = t.id ∧ t'.state = t.state
  settledPrintJobs : ∀ before between after, moves = before ++ between ++ after →
    ∀ j ∈ (resourcesRun hashSecret w before).log.shared.printJobs, j.state.Settled →
      ∃ j' ∈ (resourcesRun hashSecret w (before ++ between)).log.shared.printJobs, j'.id = j.id ∧ j'.state = j.state
  kept : ∀ before after, moves = before ++ after → WorkKept (resourcesRun hashSecret w before).log.shared

variable {moves : List (Move Request Account.Outside)}

theorem WorkStays.keepsTransfers (h : WorkStays s t) : Evolves transferHandOut.Keeps s.transfers t.transfers := by
  intro r hr
  obtain ⟨r', hr', hstays⟩ := h.transfers r hr
  exact ⟨r', hr', hstays.id, hstays.taken⟩

theorem WorkStays.keepsPrintJobs (h : WorkStays s t) : Evolves printJobHandOut.Keeps s.printJobs t.printJobs := by
  intro r hr
  obtain ⟨r', hr', hstays⟩ := h.printJobs r hr
  exact ⟨r', hr', hstays.id, hstays.taken⟩

/-- The rows that wait are distinct. -/
theorem nodup_lookedTransfers {step : ResourcesStep} (h : WorkKept step.before) : (lookedTransfers step).Nodup := by
  unfold lookedTransfers
  split
  · unfold waitingTransfers
    rw [List.map_take]
    refine List.Nodup.sublist (List.take_sublist _ _) ?_
    refine ((List.perm_insertionSort _ _).map _).nodup_iff.mpr ?_
    exact h.transferIds.sublist (List.filter_sublist.map _)
  · exact .nil

theorem nodup_lookedPrintJobs {step : ResourcesStep} (h : WorkKept step.before) : (lookedPrintJobs step).Nodup := by
  unfold lookedPrintJobs
  split
  · unfold waitingPrintJobs
    rw [List.map_take]
    refine List.Nodup.sublist (List.take_sublist _ _) ?_
    refine ((List.perm_insertionSort _ _).map _).nodup_iff.mpr ?_
    exact h.printJobIds.sublist (List.filter_sublist.map _)
  · exact .nil

/-- The statement that has taken note of a transfer in the answer of a poll. -/
theorem Noted.look {work : AgentWork} {own : List ResourcesStep} (h : Noted work own) {t : WorkTransfer}
    (ht : t ∈ work.transfers) : ∃ look ∈ own, t.id ∈ lookedTransfers look := by
  rcases h.1 with hnone | ⟨look, hlook, heq⟩
  · rw [hnone] at ht
    cases ht
  · exact ⟨look, hlook, heq ▸ List.mem_map_of_mem ht⟩

theorem Noted.lookPrintJob {work : AgentWork} {own : List ResourcesStep} (h : Noted work own) {k : WorkPrintJob}
    (hk : k ∈ work.printJobs) : ∃ look ∈ own, k.id ∈ lookedPrintJobs look := by
  rcases h.2 with hnone | ⟨look, hlook, heq⟩
  · rw [hnone] at hk
    cases hk
  · exact ⟨look, hlook, heq ▸ List.mem_map_of_mem hk⟩

/-- A document is asked for, and the computer polls for its work. -/
def readAndPoll : List (Move Request Account.Outside) :=
  shareAndRead ++ Move.call (.agentWork homeAgent) :: List.replicate 2 (Move.step 2)

/-- The poll is held up before it marks the transfer. -/
def pollTwice : List (Move Request Account.Outside) :=
  readAndPoll ++ Move.call (.agentWork homeAgent) :: List.replicate 4 (Move.step 3) ++
    List.replicate 2 (Move.step 2)

/-- The poll goes on, and the computer reports that the document is sent. -/
def pollAndComplete : List (Move Request Account.Outside) :=
  readAndPoll ++ List.replicate 2 (Move.step 2) ++
    Move.call (.recordProgress (.agent homeAgent) ⟨"first", 1024, .completed, none, none⟩) ::
      List.replicate 4 (Move.step 3)

/-- The work that a poll is answered. -/
def letterWork : AgentWork :=
  ⟨[⟨"first", .download, "/srv/documents", "first", false, "letter.pdf", "0"⟩], []⟩

end Resources
