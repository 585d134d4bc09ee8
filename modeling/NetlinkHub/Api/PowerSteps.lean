import NetlinkHub.Api.Power

/-! # What a statement can do to a power command

Every statement of the power service leaves the content of each command as it is, and moves its state
only as its call may (`StateStep`). This is read off the programs once (`only_powerHandler`) and carried
to the table (`rowStep_exec`); what holds over whole runs is derived from it. -/

namespace Api

open Concurrent (Prog Log)
open Table (Op Evolves)

/-- A command without its state and what comes with it. -/
def PowerCommandRow.content (c : PowerCommandRow) : PowerCommandRow :=
  { c with state := .pending, deliveredAt := none, acknowledgedAt := none, completedAt := none,
           cancelledAt := none, detail := none }

/-- How a call may move the state of a command. -/
def StateStep : PowerRequest → PowerCommandState → PowerCommandState → Prop
  | .requestCommand _ _ _ input _, _, b => input.action = .cancel ∧ b = .cancelled
  | .collectFor _, a, b => a.Due ∧ b = .sent ∨ a.Open ∧ b = .expired
  | .recordResult _ _, _, b => b = .succeeded ∨ b = .failed

/-- The time of delivery is kept, and a command that becomes 'sent' has one. -/
def KeepsDelivery (r r' : PowerCommandRow) : Prop :=
  (r.deliveredAt ≠ none → r'.deliveredAt ≠ none) ∧ (r'.state = .sent → r'.deliveredAt ≠ none)

/-- What a call may do to the table of commands. A new command has not been delivered. -/
def PowerWrite (q : PowerRequest) : Write → Prop
  | .powerCommands (.insert clash row) => (∀ r, r.id = row.id → clash r) ∧ row.state.Due
  | .powerCommands (.update sel data) => ∀ r, (data r).content = r.content ∧
    (sel r → StateStep q r.state (data r).state) ∧ KeepsDelivery r (data r)
  | .powerCommands (.delete _) => False
  | .insertSession _ => False
  | _ => True

/-- The statement updates the command. -/
def Write.Updates : Write → PowerCommandRow → Prop
  | .powerCommands (.update sel _), r => sel r
  | _, _ => False

/-! ## The programs -/

theorem Write.Quiet.powerWrite {w : Write} (q : PowerRequest) (h : w.Quiet) : PowerWrite q w := by
  cases w <;> trivial

theorem Write.OnlyCodes.powerWrite {w : Write} (q : PowerRequest) (h : w.OnlyCodes) :
    PowerWrite q w := by
  cases w <;> trivial

variable {signer : Signer} {hashSecret : String → String} {q : PowerRequest}

theorem only_verifyPowerStepUp (userId spaceId : String) (input : PowerCommandRequest)
    (context : RequestContext) :
    (verifyPowerStepUp hashSecret userId spaceId input context).Only (PowerWrite q) := by
  unfold verifyPowerStepUp
  split
  · refine ((only_consume _ _ _ _).mono fun w hw => hw.powerWrite q).bind fun result => ?_
    split
    · trivial
    · exact .stmt trivial fun _ => trivial
  · trivial

theorem only_updateCommand {id : String} {data : PowerCommandRow → PowerCommandRow}
    (h : ∀ r, (data r).content = r.content ∧ StateStep q r.state (data r).state ∧
      KeepsDelivery r (data r)) :
    (updateCommand id data).Only (PowerWrite q) := by
  refine .stmt (fun r => ⟨(h r).1, fun _ => (h r).2.1, (h r).2.2⟩) fun w => ?_
  split <;> trivial

theorem only_cancelPending {userId spaceId agentId deviceId : String} {input : PowerCommandRequest}
    {context : RequestContext} (h : input.action = .cancel) :
    (cancelPending userId spaceId agentId context).Only
      (PowerWrite (.requestCommand userId deviceId spaceId input context)) := by
  unfold cancelPending
  simp only [select_bind, newDate_bind, record_bind]
  refine .stmt trivial fun w => ?_
  split
  · trivial
  · refine (Prog.only_raiseIf _ _).bind fun _ => .stmt trivial fun now => ?_
    refine Prog.Only.bind (only_updateCommand ?_) fun _ => .stmt trivial fun _ => trivial
    exact fun r => ⟨rfl, ⟨h, rfl⟩, id, fun hsent => by cases hsent⟩

theorem only_chooseHelper (action : PowerAction) (spaceId : String) (agent : AgentRow)
    (isOnline : Bool) : (chooseHelper action spaceId agent isOnline).Only (PowerWrite q) := by
  unfold chooseHelper wakeHelper
  split
  swap
  · trivial
  simp only [select_bind, newDate_bind]
  refine (Prog.only_raiseIf _ _).bind fun _ => .stmt trivial fun w => .stmt trivial fun w => ?_
  exact (Prog.only_raiseIf _ _).bind fun _ => trivial

theorem due_newCommand (userId deviceId spaceId : String) (agent : AgentRow) (action : PowerAction)
    (helperId : Option String) (id nonce : String) (now created : Date) :
    (newCommand userId deviceId spaceId agent action helperId id nonce now created).state.Due := by
  show (if action.destructive then PowerCommandState.countdown else .pending).Due
  split <;> decide

theorem only_createCommand {row : PowerCommandRow} (h : row.state.Due) :
    (createCommand row).Only (PowerWrite q) := by
  refine .stmt ⟨fun r hr => by simp [hr], h⟩ fun w => ?_
  split <;> trivial

theorem only_insertCommand (userId deviceId spaceId : String) (input : PowerCommandRequest)
    (context : RequestContext) (agent : AgentRow) (helperId : Option String) :
    (insertCommand userId deviceId spaceId input context agent helperId).Only (PowerWrite q) := by
  unfold insertCommand pendingCommand
  simp only [newDate_bind, Prog.stmt_bind, select_bind, randomNonce_bind, randomUUID_bind]
  refine .stmt trivial fun w => .stmt trivial fun w => ?_
  split
  · trivial
  · refine .stmt trivial fun w => .stmt trivial fun w => .stmt trivial fun w => .stmt trivial fun w => ?_
    exact (only_createCommand (due_newCommand ..)).bind fun _ => .stmt trivial fun _ => trivial

theorem only_issueCommand (userId deviceId spaceId : String) (input : PowerCommandRequest)
    (context : RequestContext) (agent : AgentRow) :
    (issueCommand hashSecret userId deviceId spaceId input context agent).Only (PowerWrite q) := by
  have hrest : (do
      let seen ← newDate
      Prog.raiseIf (input.action.requiresTargetOnline ∧ ¬ online agent.lastHeartbeatAt seen)
        (conflict "That computer is not online. Turn it on first, then try again.")
      let helperId ← chooseHelper input.action spaceId agent (online agent.lastHeartbeatAt seen)
      insertCommand userId deviceId spaceId input context agent helperId :
      Service PowerCommandSummary).Only (PowerWrite q) :=
    .stmt trivial fun w => (Prog.only_raiseIf _ _).bind fun _ =>
      (only_chooseHelper ..).bind fun helperId => only_insertCommand ..
  unfold issueCommand
  split
  · exact (only_verifyPowerStepUp ..).bind fun _ => hrest
  · exact hrest

/-- **Asking for a command** inserts one, or calls one off. -/
theorem only_requestCommand (userId deviceId spaceId : String) (input : PowerCommandRequest)
    (context : RequestContext) : (requestCommand hashSecret userId deviceId spaceId input context).Only
      (PowerWrite (.requestCommand userId deviceId spaceId input context)) := by
  unfold requestCommand
  refine ((only_requirePermission ..).mono fun w hw => hw.powerWrite _).bind fun _ => ?_
  rw [select_bind]
  refine .stmt trivial fun w => ?_
  split
  · trivial
  split
  · trivial
  split
  · rename_i hcancel
    exact only_cancelPending hcancel
  · exact only_issueCommand ..

theorem only_claimEach (principal : AgentPrincipal) (now : Date) (due : List PowerCommandRow) :
    (claimEach signer principal.deviceId now due).Only (PowerWrite (.collectFor principal)) := by
  induction due with
  | nil => trivial
  | cons c due ih =>
    unfold claimEach
    rw [Prog.perform_bind]
    refine .stmt (fun r => ⟨rfl, fun hsel => .inl ⟨(of_decide_eq_true hsel).2, rfl⟩, ?_⟩) fun w => ?_
    · exact ⟨fun _ => Option.some_ne_none _, fun _ => Option.some_ne_none _⟩
    refine Prog.Only.bind ih fun signed => ?_
    split <;> trivial

/-- **Collecting** claims what is due and lets the rest expire. -/
theorem only_collectFor (principal : AgentPrincipal) :
    (collectFor signer principal).Only (PowerWrite (.collectFor principal)) := by
  unfold collectFor
  simp only [select_bind, newDate_bind, Prog.perform_bind]
  refine .stmt trivial fun w => ?_
  split
  · trivial
  · refine .stmt trivial fun w => .stmt (fun r => ⟨rfl, fun hsel => .inr ⟨?_, rfl⟩, id, ?_⟩) fun w =>
      .stmt trivial fun w => only_claimEach ..
    · exact (of_decide_eq_true hsel).2
    · intro hsent
      cases hsent

/-- **Reporting** moves a command to success or failure, whatever its state is. -/
theorem only_recordResult (principal : AgentPrincipal) (input : PowerResult) :
    (recordResult principal input).Only (PowerWrite (.recordResult principal input)) := by
  unfold recordResult
  simp only [select_bind, newDate_bind, record_bind, publishToSpace_bind]
  refine (Prog.only_raiseIf _ _).bind fun _ => .stmt trivial fun w => ?_
  split
  · trivial
  · refine .stmt trivial fun w => (Prog.only_raiseIf _ _).bind fun _ => .stmt trivial fun w =>
      .stmt trivial fun w => ?_
    refine Prog.Only.bind (only_updateCommand fun r => ⟨rfl, ?_, id, ?_⟩) fun _ => .stmt trivial
      fun _ => .stmt trivial fun _ => trivial
    · show _ = PowerCommandState.succeeded ∨ _ = PowerCommandState.failed
      cases input.succeeded
      · exact .inr rfl
      · exact .inl rfl
    · cases input.succeeded <;> exact nofun

/-- **What each call may do.** -/
theorem only_powerHandler (q : PowerRequest) :
    (powerHandler signer hashSecret q).Only (PowerWrite q) := by
  cases q with
  | requestCommand userId deviceId spaceId input context => exact (only_requestCommand ..).map _
  | collectFor principal => exact (only_collectFor principal).map _
  | recordResult principal input => exact (only_recordResult principal input).map _

/-! ## The table -/

/-- What a statement of a call makes of a command. -/
structure RowStep (q : PowerRequest) (w : Write) (r r' : PowerCommandRow) : Prop where
  content : r'.content = r.content
  updated : w.Updates r → StateStep q r.state r'.state ∧ KeepsDelivery r r'
  same : ¬ w.Updates r → r' = r

theorem RowStep.of_not_updates {w : Write} {r : PowerCommandRow} (q : PowerRequest)
    (h : ¬ w.Updates r) : RowStep q w r r :=
  ⟨rfl, fun hup => absurd hup h, fun _ => rfl⟩

theorem RowStep.state {q : PowerRequest} {w : Write} {r r' : PowerCommandRow} (h : RowStep q w r r') :
    r'.state = r.state ∨ w.Updates r ∧ StateStep q r.state r'.state := by
  by_cases hup : w.Updates r
  · exact .inr ⟨hup, (h.updated hup).1⟩
  · exact .inl (by rw [h.same hup])

theorem RowStep.delivered {q : PowerRequest} {w : Write} {r r' : PowerCommandRow}
    (h : RowStep q w r r') (hr : r.deliveredAt ≠ none) : r'.deliveredAt ≠ none := by
  by_cases hup : w.Updates r
  · exact (h.updated hup).2.1 hr
  · rwa [h.same hup]

/-- A command that becomes 'sent' has a time of delivery. -/
theorem RowStep.sent {q : PowerRequest} {w : Write} {r r' : PowerCommandRow} (h : RowStep q w r r')
    (hr : r.state ≠ .sent) (hr' : r'.state = .sent) : r'.deliveredAt ≠ none := by
  by_cases hup : w.Updates r
  · exact (h.updated hup).2.2 hr'
  · rw [h.same hup] at hr'
    exact absurd hr' hr

/-- A command keeps its identifier. -/
theorem id_of_content {r r' : PowerCommandRow} (h : r'.content = r.content) : r'.id = r.id := by
  show r'.content.id = r.content.id
  rw [h]

/-- No call makes a command due again. -/
theorem StateStep.not_due {a b : PowerCommandState} (h : StateStep q a b) : ¬ b.Due := by
  unfold StateStep at h
  split at h
  · rw [h.2]
    decide
  · rcases h with ⟨-, rfl⟩ | ⟨-, rfl⟩ <;> decide
  · rcases h with rfl | rfl <;> decide

theorem RowStep.due {w : Write} {r r' : PowerCommandRow} (h : RowStep q w r r')
    (hdue : r'.state.Due) : r.state.Due := by
  rcases h.state with heq | ⟨-, hstep⟩
  · exact heq ▸ hdue
  · exact absurd hdue hstep.not_due

theorem rowStep_update {sel : PowerCommandRow → Bool} {data : PowerCommandRow → PowerCommandRow}
    (h : PowerWrite q (.powerCommands (.update sel data))) (r : PowerCommandRow) :
    RowStep q (.powerCommands (.update sel data)) r (if sel r then data r else r) := by
  split
  · rename_i hsel
    obtain ⟨hcontent, hstate, hkept⟩ := h r
    exact ⟨hcontent, fun _ => ⟨hstate hsel, hkept⟩, fun hup => absurd hsel hup⟩
  · rename_i hsel
    exact RowStep.of_not_updates q hsel

/-- **Each command in the table** becomes what the statement makes of it. -/
theorem rowStep_exec {w : Write} (h : PowerWrite q w) (s : World) :
    Evolves (RowStep q w) s.powerCommands (exec w s).powerCommands := by
  intro r hr
  cases w with
  | powerCommands op =>
    cases op with
    | insert clash row =>
      exact Table.evolves_insert (fun r => RowStep.of_not_updates q id) r hr
    | update sel data => exact ⟨_, Table.mem_update.mpr ⟨r, hr, rfl⟩, rowStep_update h r⟩
    | delete sel => cases h
  | _ => exact ⟨r, hr, RowStep.of_not_updates q id⟩

/-- **Each command in the table afterwards** was there before, or was inserted. -/
theorem rowStep_or_inserted {w : Write} (h : PowerWrite q w) (s : World) {r' : PowerCommandRow}
    (hr' : r' ∈ (exec w s).powerCommands) :
    (∃ r ∈ s.powerCommands, RowStep q w r r') ∨ ∃ clash, w = .powerCommands (.insert clash r') := by
  cases w with
  | powerCommands op =>
    cases op with
    | insert clash row =>
      rcases Table.mem_insert hr' with hr' | rfl
      · exact .inl ⟨r', hr', RowStep.of_not_updates q id⟩
      · exact .inr ⟨clash, rfl⟩
    | update sel data =>
      obtain ⟨r, hr, rfl⟩ := Table.mem_update.mp hr'
      exact .inl ⟨r, hr, rowStep_update h r⟩
    | delete sel => cases h
  | _ => exact .inl ⟨r', hr', RowStep.of_not_updates q id⟩

/-- A command that is new is due. -/
theorem rowStep_of_exec {w : Write} (h : PowerWrite q w) (s : World) {r' : PowerCommandRow}
    (hr' : r' ∈ (exec w s).powerCommands) :
    (∃ r ∈ s.powerCommands, RowStep q w r r') ∨ r'.state.Due := by
  refine (rowStep_or_inserted h s hr').imp_right fun hinserted => ?_
  obtain ⟨clash, rfl⟩ := hinserted
  exact h.2

/-- Identifiers stay distinct. -/
theorem ids_exec {w : Write} (h : PowerWrite q w) {s : World}
    (hids : (s.powerCommands.map (·.id)).Nodup) :
    ((exec w s).powerCommands.map (·.id)).Nodup := by
  cases w with
  | powerCommands op =>
    cases op with
    | insert clash row => exact Table.nodup_insert h.1 hids
    | update sel data =>
      show (((Op.update sel data).apply s.powerCommands).map (·.id)).Nodup
      rwa [Table.map_update fun r => id_of_content (h r).1]
    | delete sel => cases h
  | _ => exact hids

/-- Nothing from outside touches the commands. -/
@[simp] theorem powerCommands_outside (e : Outside) (s : World) :
    (outside e s).powerCommands = s.powerCommands := by
  cases e <;> rfl

end Api
