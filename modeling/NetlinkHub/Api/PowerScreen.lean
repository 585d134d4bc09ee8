import NetlinkHub.Api.Delivery

/-! # What the power screen offers

`spacePowerState` tells for every computer of a Space which actions can be attempted, and `requestCommand`
carries an action out or refuses it. The two look at different things: the screen offers an action while
another command is outstanding, and it offers a cancellation by the time of the newest command and by the
heartbeat of the computer, where `cancelPending` goes by its state (`offered_and_refused`).
`offered_iff_accepted` says where the two agree. -/

namespace Api

open Concurrent (Prog)

/-! ## The screen -/

/-- `AgentPowerState['actions'][number]`. -/
structure ActionState where
  action : PowerAction
  allowed : Bool
  requiresStepUp : Bool
  reason : Option String
  deriving DecidableEq, Repr

/-- `AgentPowerState`. -/
structure AgentPowerState where
  agentId : String
  agentName : String
  online : Bool
  isWakeHelper : Bool
  actions : List ActionState
  wake : WakeReadiness
  pending : Option PowerCommandSummary
  deriving DecidableEq, Repr

/-- `Object.keys(POWER_ACTION_PERMISSIONS)`. -/
def powerActions : List PowerAction := [.wake, .restart, .shutdown, .lock, .sleep, .cancel]

/-- Why an action cannot be attempted, if it cannot. -/
def screenReason (grant : MemberRow) (isOnline : Bool) (wake : WakeReadiness)
    (pending : Option PowerCommandSummary) (action : PowerAction) : Option String :=
  if action.permission ∉ grant.permissions then some "You do not have permission for this action"
  else if action.requiresTargetOnline ∧ ¬ isOnline then some "This computer is not online"
  else if action = .wake ∧ isOnline then some "This computer is already on"
  else if action = .wake ∧ ¬ wake.ready then some (wake.blockers.head?.getD "Not ready to wake")
  else if action = .cancel ∧ pending.isNone then some "Nothing is pending"
  else none

/-- One action on the screen. -/
def actionState (grant : MemberRow) (isOnline : Bool) (wake : WakeReadiness)
    (pending : Option PowerCommandSummary) (action : PowerAction) : ActionState :=
  let reason := screenReason grant isOnline wake pending action
  ⟨action, reason = none, action.destructive, reason⟩

/-- One computer on the screen. -/
def agentState (grant : MemberRow) (onlineHelpers : List AgentRow) (now : Date) (agent : AgentRow)
    (pending : Option PowerCommandSummary) : AgentPowerState :=
  let isOnline := online agent.lastHeartbeatAt now
  let helper := onlineHelpers.find? fun candidate =>
    candidate.id ≠ agent.id ∧ sameLocalNetwork candidate.localIpAddress agent.localIpAddress
  let wake := wakeReadiness agent helper
  { agentId := agent.id
    agentName := agent.deviceName
    online := isOnline
    isWakeHelper := agent.isWakeHelper
    actions := powerActions.map (actionState grant isOnline wake pending)
    wake := wake
    pending := pending }

/-- The loop of `spacePowerState`. -/
def agentStates (grant : MemberRow) (onlineHelpers : List AgentRow) (now : Date) :
    List AgentRow → Service (List AgentPowerState)
  | [] => .done []
  | agent :: live => do
    let pending ← pendingCommand agent.id
    let states ← agentStates grant onlineHelpers now live
    .done (agentState grant onlineHelpers now agent pending :: states)

/-- `spacePowerState`. -/
def spacePowerState (userId spaceId : String) : Service (List AgentPowerState) := do
  let grant ← requirePermission userId spaceId "devices.view" none
  let agents ← select .agents fun w => w.directory.agents.filter (·.spaceId = spaceId)
  let now ← newDate
  let live := agents.filter (·.deviceRevokedAt = none)
  let onlineHelpers := live.filter fun agent => agent.isWakeHelper ∧ online agent.lastHeartbeatAt now
  agentStates grant onlineHelpers now live

/-! ## Where screen and server agree -/

/-- The helper that a wake would go through. -/
def helperFor (spaceId : String) (agent : AgentRow) (w : World) : Option AgentRow :=
  w.directory.agents.find? fun a => (a.spaceId = spaceId ∧ a.isWakeHelper ∧ a.id ≠ agent.id) ∧
    a.deviceRevokedAt = none ∧ online a.lastHeartbeatAt w.clock ∧
      sameLocalNetwork a.localIpAddress agent.localIpAddress

/-- The computer is in a state for the action. -/
def Attemptable (spaceId : String) (agent : AgentRow) (action : PowerAction) (w : World) : Prop :=
  if action = .wake then
    ¬ online agent.lastHeartbeatAt w.clock ∧ (wakeReadiness agent (helperFor spaceId agent w)).ready
  else online agent.lastHeartbeatAt w.clock

/-- A command of the computer is open and not past its time. -/
def Outstanding (agentId : String) (w : World) : Prop :=
  ∃ c ∈ w.powerCommands, c.targetAgentId = agentId ∧ c.state.Open ∧ w.clock < c.expiresAt

/-- The newest open command of the computer has not been handed out. -/
def Recallable (agentId : String) (w : World) : Prop :=
  ∃ c, newest (w.powerCommands.filter fun c => c.targetAgentId = agentId ∧ c.state.Open) = some c ∧
    c.state ≠ .sent

/-- The screen tells what the server would do: nothing is outstanding on a computer that is in a state for
the action; and a command can be called off just when the computer is online and has one outstanding. -/
def ScreenTells (spaceId : String) (agent : AgentRow) (action : PowerAction) (w : World) : Prop :=
  if action = .cancel then
    Recallable agent.id w ↔ online agent.lastHeartbeatAt w.clock ∧ Outstanding agent.id w
  else Attemptable spaceId agent action w → ¬ Outstanding agent.id w

/-- A code that confirms an action of a user. -/
def ConfirmedBy (hashSecret : String → String) (userId : String) (input : PowerCommandRequest)
    (w : World) : Prop :=
  ∃ id code c, input.stepUpChallengeId = some id ∧ input.stepUpCode = some code ∧
    findChallenge id w = some c ∧ c.userId = userId ∧ c.purpose = "step_up" ∧ c.consumedAt = none ∧
      w.clock < c.expiresAt ∧ c.attempts < c.maxAttempts ∧ hashSecret code = c.codeHash

/-! ## The screen, undisturbed -/

variable {w : World} {userId spaceId : String}

theorem exec_clock (w : World) : exec .clock w = w := rfl

theorem exec_random (w : World) : exec .random w = w := rfl

theorem exec_select (table : TableName) (w : World) : exec (.select table) w = w := rfl

/-- The command that `pendingCommand` finds. -/
def pendingOf (agentId : String) (w : World) : Option PowerCommandSummary :=
  (newest (w.powerCommands.filter fun c =>
    c.targetAgentId = agentId ∧ c.state.Open ∧ w.clock < c.expiresAt)).map (toSummary w)

theorem runAlone_pendingCommand (agentId : String) :
    (pendingCommand agentId).runAlone exec w = (.ok (pendingOf agentId w), w) := rfl

theorem newest_isSome {cs : List PowerCommandRow} : (newest cs).isSome ↔ ∃ c, c ∈ cs := by
  cases cs with
  | nil => simp [newest]
  | cons c cs =>
    refine iff_of_true ?_ ⟨c, List.mem_cons_self⟩
    unfold newest
    split
    · rfl
    · split <;> rfl

theorem newest_mem {cs : List PowerCommandRow} {c : PowerCommandRow} (h : newest cs = some c) : c ∈ cs := by
  induction cs with
  | nil => nomatch h
  | cons d cs ih =>
    unfold newest at h
    split at h
    · exact Option.some.inj h ▸ List.mem_cons_self
    · rename_i e he
      split at h
      · exact List.mem_cons_of_mem _ (ih (he.trans h))
      · exact Option.some.inj h ▸ List.mem_cons_self

theorem pendingOf_isSome {agentId : String} : (pendingOf agentId w).isSome ↔ Outstanding agentId w := by
  unfold pendingOf Outstanding
  rw [Option.isSome_map, newest_isSome]
  simp only [List.mem_filter, decide_eq_true_eq]

theorem runAlone_agentStates (grant : MemberRow) (onlineHelpers : List AgentRow) (now : Date)
    (live : List AgentRow) : (agentStates grant onlineHelpers now live).runAlone exec w =
      (.ok (live.map fun agent => agentState grant onlineHelpers now agent (pendingOf agent.id w)), w) := by
  induction live with
  | nil => rfl
  | cons agent live ih =>
    unfold agentStates
    rw [Prog.runAlone_bind, runAlone_pendingCommand]
    dsimp only
    rw [Prog.runAlone_bind, ih]
    rfl

/-- A member who passes the check of a permission. -/
def Passes (userId spaceId permission : String) (member : MemberRow) (w : World) : Prop :=
  findMember userId spaceId w = some member ∧ evaluatePermission member permission w.clock = none

theorem runAlone_requirePermission {permission : String} {context : Option RequestContext}
    {member : MemberRow} (h : Passes userId spaceId permission member w) :
    (requirePermission userId spaceId permission context).runAlone exec w = (.ok member, w) := by
  unfold requirePermission
  rw [select_bind, Prog.runAlone_stmt, exec_select, h.1]
  dsimp only
  rw [newDate_bind, Prog.runAlone_stmt, exec_clock, h.2]
  rfl

theorem succeeds_requirePermission {permission : String} {context : Option RequestContext} :
    (requirePermission userId spaceId permission context).Succeeds exec w ↔
      ∃ member, Passes userId spaceId permission member w := by
  refine ⟨fun h => ?_, fun ⟨member, h⟩ => ⟨member, by rw [runAlone_requirePermission h]⟩⟩
  unfold requirePermission at h
  rw [select_bind, Prog.succeeds_stmt] at h
  cases hfound : findMember userId spaceId w with
  | none =>
    rw [hfound] at h
    exact absurd h Prog.not_succeeds_raise
  | some member =>
    rw [hfound] at h
    dsimp only at h
    rw [newDate_bind, Prog.succeeds_stmt] at h
    refine ⟨member, hfound, ?_⟩
    cases hdecision : evaluatePermission member permission w.clock with
    | none => rfl
    | some reason =>
      have hclock : (exec (.select .members) w).clock = w.clock := rfl
      rw [hclock, hdecision] at h
      dsimp only at h
      rw [record_bind, Prog.succeeds_stmt] at h
      exact absurd h Prog.not_succeeds_raise

/-- A member who may look may do what the permissions say. -/
theorem passes_iff {member member' : MemberRow} {permission : String}
    (h : Passes userId spaceId "devices.view" member w) :
    Passes userId spaceId permission member' w ↔ member' = member ∧ permission ∈ member.permissions := by
  obtain ⟨hfound, hdecision⟩ := h
  unfold Passes
  rw [hfound, Option.some.injEq, eq_comm]
  refine and_congr_right fun heq => ?_
  subst heq
  unfold evaluatePermission at hdecision ⊢
  split at hdecision
  · nomatch hdecision
  rename_i hactive
  split at hdecision
  · nomatch hdecision
  rename_i hcurrent
  rw [if_neg hactive, if_neg hcurrent]
  split
  · rename_i hmissing
    exact iff_of_false (fun h => nomatch h) hmissing
  · rename_i hheld
    exact iff_of_true rfl (not_not.mp hheld)

/-! ## The two sides -/

/-- The helper on the screen is the one that a wake would go through. -/
theorem find?_onlineHelpers (agent : AgentRow) :
    (((w.directory.agents.filter (·.spaceId = spaceId)).filter (·.deviceRevokedAt = none)).filter
        fun a => a.isWakeHelper ∧ online a.lastHeartbeatAt w.clock).find? (fun candidate =>
          candidate.id ≠ agent.id ∧ sameLocalNetwork candidate.localIpAddress agent.localIpAddress) =
      helperFor spaceId agent w := by
  unfold helperFor
  rw [List.filter_filter, List.filter_filter, List.find?_filter]
  congr 1
  funext a
  rw [Bool.eq_iff_iff]
  simp only [Bool.and_eq_true, decide_eq_true_eq]
  constructor
  · rintro ⟨⟨⟨⟨hhelper, honline⟩, hrevoked⟩, hspace⟩, hother, hlocal⟩
    exact ⟨⟨hspace, hhelper, hother⟩, hrevoked, honline, hlocal⟩
  · rintro ⟨⟨hspace, hhelper, hother⟩, hrevoked, honline, hlocal⟩
    exact ⟨⟨⟨⟨hhelper, honline⟩, hrevoked⟩, hspace⟩, hother, hlocal⟩

/-- What the screen says about an action. -/
theorem allowed_iff {grant : MemberRow} {agent : AgentRow} {action : PowerAction} :
    (actionState grant (online agent.lastHeartbeatAt w.clock)
        (wakeReadiness agent (helperFor spaceId agent w)) (pendingOf agent.id w) action).allowed ↔
      action.permission ∈ grant.permissions ∧ if action = .cancel then
        online agent.lastHeartbeatAt w.clock ∧ Outstanding agent.id w
      else Attemptable spaceId agent action w := by
  unfold actionState screenReason Attemptable
  rw [decide_eq_true_iff, ← pendingOf_isSome]
  by_cases hheld : action.permission ∈ grant.permissions
  swap
  · rw [if_pos hheld]
    exact iff_of_false (fun h => nomatch h) fun h => hheld h.1
  rw [if_neg (not_not.mpr hheld), and_iff_right hheld]
  have hcancel : PowerAction.wake ≠ .cancel := by decide
  by_cases honline : online agent.lastHeartbeatAt w.clock
  · -- A computer that is on can be asked for anything but a wake.
    cases action with
    | wake => simp [PowerAction.requiresTargetOnline, honline]
    | cancel => simp [PowerAction.requiresTargetOnline, honline, Option.isSome_iff_ne_none]
    | restart | shutdown | lock | sleep => simp [PowerAction.requiresTargetOnline, honline]
  · cases action with
    | wake | cancel | restart | shutdown | lock | sleep =>
      simp [PowerAction.requiresTargetOnline, honline]

/-- The end of a request: the new command is inserted unless one is outstanding. -/
theorem succeeds_insertCommand {userId deviceId spaceId : String} {input : PowerCommandRequest}
    {context : RequestContext} {agent : AgentRow} {helperId : Option String}
    (hfresh : ∀ c ∈ w.powerCommands, c.id ≠ w.uuid.text ∧ c.nonce ≠ w.random.text) :
    (insertCommand userId deviceId spaceId input context agent helperId).Succeeds exec w ↔
      ¬ Outstanding agent.id w := by
  unfold insertCommand
  rw [Prog.succeeds_bind_ok (runAlone_pendingCommand agent.id), ← pendingOf_isSome]
  cases hpending : pendingOf agent.id w with
  | some pending => exact iff_of_false Prog.not_succeeds_raise fun h => h rfl
  | none =>
    refine iff_of_true ?_ Bool.false_ne_true
    have hfree : ¬ w.powerCommands.any fun c => c.id = w.uuid.text ∨ c.nonce = w.random.text := by
      simpa using hfresh
    simp only [newDate_bind, randomNonce_bind, randomUUID_bind, Prog.succeeds_stmt, exec_clock, exec_random]
    unfold createCommand newCommand
    simp only [Prog.stmt_bind, Prog.succeeds_stmt, if_neg hfree, Prog.done_bind, record_bind]
    exact Prog.succeeds_done

/-- The helper is chosen for a wake that is ready. -/
theorem succeeds_wakeHelper_bind {α : Type} {agent : AgentRow} {f : Option String → Service α} :
    (wakeHelper spaceId agent (online agent.lastHeartbeatAt w.clock) >>= f).Succeeds exec w ↔
      Attemptable spaceId agent .wake w ∧
        (f ((helperFor spaceId agent w).map (·.id))).Succeeds exec w := by
  have hhelper : (w.directory.agents.filter fun a => a.spaceId = spaceId ∧ a.isWakeHelper ∧
      a.id ≠ agent.id).find? (fun a => a.deviceRevokedAt = none ∧ online a.lastHeartbeatAt w.clock ∧
        sameLocalNetwork a.localIpAddress agent.localIpAddress) = helperFor spaceId agent w := by
    unfold helperFor
    rw [List.find?_filter]
    congr 1
    funext a
    simp only [decide_eq_true_eq]
  unfold wakeHelper Attemptable
  simp only [Prog.bind_assoc, Prog.succeeds_raiseIf_bind, select_bind, newDate_bind, Prog.stmt_bind,
    Prog.succeeds_stmt, exec_select, exec_clock, hhelper, Prog.done_bind, if_true, not_not, and_assoc]

/-- A request that is no cancellation, once it is confirmed. -/
theorem succeeds_confirmed {deviceId : String} {input : PowerCommandRequest} {context : RequestContext}
    {agent : AgentRow}
    (hfresh : ∀ c ∈ w.powerCommands, c.id ≠ w.uuid.text ∧ c.nonce ≠ w.random.text) :
    (do
      let seen ← newDate
      let isOnline := online agent.lastHeartbeatAt seen
      Prog.raiseIf (input.action.requiresTargetOnline ∧ ¬ isOnline)
        (conflict "That computer is not online. Turn it on first, then try again.")
      let helperId ← chooseHelper input.action spaceId agent isOnline
      insertCommand userId deviceId spaceId input context agent helperId :
      Service PowerCommandSummary).Succeeds exec w ↔
        Attemptable spaceId agent input.action w ∧ ¬ Outstanding agent.id w := by
  rw [newDate_bind, Prog.succeeds_stmt, exec_clock]
  dsimp only
  rw [Prog.succeeds_raiseIf_bind]
  unfold chooseHelper
  by_cases hwake : input.action = .wake
  · rw [hwake, if_pos rfl, succeeds_wakeHelper_bind, succeeds_insertCommand hfresh]
    exact and_iff_right fun h => nomatch h.1
  · have honline : Attemptable spaceId agent input.action w ↔ online agent.lastHeartbeatAt w.clock := by
      unfold Attemptable
      rw [if_neg hwake]
    have hrequires : input.action.requiresTargetOnline := decide_eq_true hwake
    rw [if_neg hwake, Prog.done_bind, succeeds_insertCommand hfresh, honline]
    simp only [hrequires, true_and, not_not]

theorem findChallenge_eq_some {id : String} {c : ChallengeRow} (h : findChallenge id w = some c) :
    c ∈ w.challenges ∧ c.id = id := by
  have hid := List.find?_some h
  exact ⟨List.mem_of_find?_eq_some h, of_decide_eq_true hid⟩

/-- A code that confirms is used up. -/
theorem runAlone_verifyPowerStepUp {hashSecret : String → String} {input : PowerCommandRequest}
    {context : RequestContext} (h : ConfirmedBy hashSecret userId input w) : ∃ challenges,
    (verifyPowerStepUp hashSecret userId spaceId input context).runAlone exec w =
      (.ok (), { w with challenges := challenges }) := by
  obtain ⟨id, code, c, hid, hcode, hfound, huser, hpurpose, hlive, hexpires, hattempts, hhash⟩ := h
  have hcount : (w.challenges.filter fun c' => c'.id = c.id ∧ c'.consumedAt = none).length ≠ 0 := by
    refine Nat.ne_of_gt (List.length_pos_of_mem (List.mem_filter.mpr ⟨(findChallenge_eq_some hfound).1, ?_⟩))
    exact decide_eq_true ⟨rfl, hlive⟩
  have hconsume : ∃ challenges, (consume hashSecret id code "step_up").runAlone exec w =
      (.ok (.ok c), { w with challenges := challenges }) := by
    unfold consume
    simp only [select_bind, Prog.runAlone_stmt, exec_select, hfound]
    rw [if_neg (not_not.mpr hpurpose), if_neg (by rw [hlive]; exact Bool.false_ne_true)]
    simp only [newDate_bind, Prog.runAlone_stmt, exec_clock]
    rw [if_neg (not_le.mpr hexpires), if_neg (not_le.mpr hattempts), if_neg (not_not.mpr hhash)]
    simp only [Prog.perform_bind, Prog.runAlone_stmt, exec_clock]
    rw [if_neg hcount]
    exact ⟨_, rfl⟩
  obtain ⟨challenges, hconsume⟩ := hconsume
  refine ⟨challenges, ?_⟩
  unfold verifyPowerStepUp
  rw [hid, hcode]
  dsimp only
  rw [Prog.runAlone_bind, hconsume]
  dsimp only
  have hmine : (Except.ok c : Except ConsumeFault ChallengeRow).toOption.any (·.userId = userId) :=
    decide_eq_true huser
  rw [if_pos hmine]
  rfl

/-- A request of a command that is no cancellation. -/
theorem succeeds_issueCommand {hashSecret : String → String} {deviceId : String}
    {input : PowerCommandRequest} {context : RequestContext} {agent : AgentRow}
    (hconfirmed : input.action.destructive → ConfirmedBy hashSecret userId input w)
    (hfresh : ∀ c ∈ w.powerCommands, c.id ≠ w.uuid.text ∧ c.nonce ≠ w.random.text) :
    (issueCommand hashSecret userId deviceId spaceId input context agent).Succeeds exec w ↔
      Attemptable spaceId agent input.action w ∧ ¬ Outstanding agent.id w := by
  unfold issueCommand
  split
  · rename_i hdestructive
    obtain ⟨challenges, hverified⟩ := runAlone_verifyPowerStepUp (hconfirmed hdestructive)
    rw [Prog.succeeds_bind_ok hverified]
    exact succeeds_confirmed hfresh
  · exact succeeds_confirmed hfresh

/-- The end of a cancellation goes through while the command is there. -/
theorem succeeds_callOff {context : RequestContext} {pending : PowerCommandRow} (hpending : pending ∈ w.powerCommands)
    (now : Date) : (do
        let (w, cancelled) ← updateCommand pending.id fun c => { c with
          state := .cancelled, cancelledAt := some now, detail := some "Cancelled before it was sent" }
        record ⟨"power.command.result", "success", some userId, none, none, some spaceId, some context,
          [("powerAction", .text pending.action.text), ("result", .text "cancelled")]⟩
        .done (toSummary w cancelled) : Service PowerCommandSummary).Succeeds exec w := by
  unfold updateCommand
  rw [Prog.stmt_bind, Prog.succeeds_stmt]
  cases hfound : findCommand pending.id w with
  | none =>
    have hnone := List.find?_eq_none.mp hfound pending hpending
    exact absurd (decide_eq_true rfl) hnone
  | some row => exact ⟨_, rfl⟩

/-- A cancellation calls off the newest open command, unless it was handed out. -/
theorem succeeds_cancelPending {context : RequestContext} {agentId : String} :
    (cancelPending userId spaceId agentId context).Succeeds exec w ↔ Recallable agentId w := by
  unfold cancelPending Recallable
  rw [select_bind, Prog.succeeds_stmt, exec_select]
  cases hnewest : newest (w.powerCommands.filter fun c => c.targetAgentId = agentId ∧ c.state.Open) with
  | none =>
    refine iff_of_false Prog.not_succeeds_raise ?_
    rintro ⟨c, hc, -⟩
    cases hc
  | some pending =>
    have hpending : pending ∈ w.powerCommands := List.mem_of_mem_filter (newest_mem hnewest)
    dsimp only
    rw [Prog.succeeds_raiseIf_bind, newDate_bind, Prog.succeeds_stmt, exec_clock]
    constructor
    · exact fun h => ⟨pending, rfl, h.1⟩
    · rintro ⟨c, hc, hunsent⟩
      obtain rfl := Option.some.inj hc
      exact ⟨hunsent, succeeds_callOff hpending w.clock⟩

/-- **What the server accepts.** -/
theorem succeeds_requestCommand {hashSecret : String → String} {deviceId : String}
    {input : PowerCommandRequest} {context : RequestContext} {member : MemberRow} {agent : AgentRow}
    (hmember : Passes userId spaceId "devices.view" member w)
    (hagent : findAgent input.targetAgentId w = some agent) (hspace : agent.spaceId = spaceId)
    (hrevoked : agent.deviceRevokedAt = none)
    (hconfirmed : input.action.destructive → ConfirmedBy hashSecret userId input w)
    (hfresh : ∀ c ∈ w.powerCommands, c.id ≠ w.uuid.text ∧ c.nonce ≠ w.random.text) :
    (requestCommand hashSecret userId deviceId spaceId input context).Succeeds exec w ↔
      input.action.permission ∈ member.permissions ∧ if input.action = .cancel then
        Recallable agent.id w
      else Attemptable spaceId agent input.action w ∧ ¬ Outstanding agent.id w := by
  unfold requestCommand
  by_cases hheld : input.action.permission ∈ member.permissions
  · have hpasses : Passes userId spaceId input.action.permission member w :=
      (passes_iff hmember).mpr ⟨rfl, hheld⟩
    rw [Prog.succeeds_bind_ok (runAlone_requirePermission hpasses), select_bind, Prog.succeeds_stmt,
      exec_select, hagent, and_iff_right hheld]
    dsimp only
    rw [if_neg (by rw [hrevoked]; simp [hspace])]
    split
    · exact succeeds_cancelPending
    · exact succeeds_issueCommand hconfirmed hfresh
  · refine iff_of_false (Prog.not_succeeds_bind ?_) fun h => hheld h.1
    rw [succeeds_requirePermission]
    rintro ⟨member', hpasses⟩
    exact hheld ((passes_iff hmember).mp hpasses).2

/-- The screen offers the action. -/
def Offers (states : List AgentPowerState) (agentId : String) (action : PowerAction) : Prop :=
  ∃ s ∈ states, s.agentId = agentId ∧ ∃ a ∈ s.actions, a.action = action ∧ a.allowed

instance (states : List AgentPowerState) (agentId : String) (action : PowerAction) :
    Decidable (Offers states agentId action) :=
  inferInstanceAs (Decidable (∃ s ∈ states, _))

theorem runAlone_spacePowerState {member : MemberRow} (h : Passes userId spaceId "devices.view" member w) :
    (spacePowerState userId spaceId).runAlone exec w = (.ok (((w.directory.agents.filter
      (·.spaceId = spaceId)).filter (·.deviceRevokedAt = none)).map fun agent => agentState member
        (((w.directory.agents.filter (·.spaceId = spaceId)).filter (·.deviceRevokedAt = none)).filter
          fun a => a.isWakeHelper ∧ online a.lastHeartbeatAt w.clock) w.clock agent (pendingOf agent.id w)),
      w) := by
  unfold spacePowerState
  rw [Prog.runAlone_bind, runAlone_requirePermission h]
  dsimp only
  rw [select_bind, Prog.runAlone_stmt, exec_select, newDate_bind, Prog.runAlone_stmt, exec_clock]
  exact runAlone_agentStates ..

/-- **What the screen offers.** -/
theorem offers_iff {member : MemberRow} {agent : AgentRow} {action : PowerAction}
    {states : List AgentPowerState} (hmember : Passes userId spaceId "devices.view" member w)
    (hids : (w.directory.agents.map (·.id)).Nodup) (hagent : agent ∈ w.directory.agents)
    (hspace : agent.spaceId = spaceId) (hrevoked : agent.deviceRevokedAt = none)
    (hscreen : ((spacePowerState userId spaceId).runAlone exec w).1 = .ok states) :
    Offers states agent.id action ↔ action.permission ∈ member.permissions ∧ if action = .cancel then
        online agent.lastHeartbeatAt w.clock ∧ Outstanding agent.id w
      else Attemptable spaceId agent action w := by
  rw [runAlone_spacePowerState hmember] at hscreen
  obtain rfl := Except.ok.inj hscreen
  rw [← allowed_iff, ← find?_onlineHelpers agent]
  have hall : ∀ action, action ∈ powerActions := by
    intro action
    cases action <;> decide
  constructor
  · rintro ⟨s, hs, hid, a, ha, haction, hallowed⟩
    obtain ⟨agent', hagent', rfl⟩ := List.mem_map.mp hs
    have hmem : agent' ∈ w.directory.agents := List.mem_of_mem_filter (List.mem_of_mem_filter hagent')
    obtain rfl := Table.eq_of_key hids hmem hagent hid
    obtain ⟨action', -, rfl⟩ := List.mem_map.mp ha
    obtain rfl : action' = action := haction
    exact hallowed
  · intro hallowed
    refine ⟨_, List.mem_map.mpr ⟨agent, ?_, rfl⟩, rfl, _, List.mem_map.mpr ⟨action, hall action, rfl⟩, rfl,
      hallowed⟩
    exact List.mem_filter.mpr ⟨List.mem_filter.mpr ⟨hagent, decide_eq_true hspace⟩, decide_eq_true hrevoked⟩

/-- A member holds a permission. -/
def Holds (userId spaceId permission : String) (w : World) : Prop :=
  ∃ member, findMember userId spaceId w = some member ∧ permission ∈ member.permissions

/-- **What the screen offers is what the server accepts**, for a member who can open the screen and a
computer on it: an action is offered just when a request for it would succeed, if and only if the screen
tells what the server looks at, or the member does not hold the permission of the action anyway. -/
theorem offered_iff_accepted (hashSecret : String → String) {deviceId : String}
    {input : PowerCommandRequest} {context : RequestContext} {agent : AgentRow}
    {states : List AgentPowerState}
    (hscreen : ((spacePowerState userId spaceId).runAlone exec w).1 = .ok states)
    (hids : (w.directory.agents.map (·.id)).Nodup) (hagent : agent ∈ w.directory.agents)
    (hspace : agent.spaceId = spaceId) (hrevoked : agent.deviceRevokedAt = none)
    (htarget : input.targetAgentId = agent.id)
    (hconfirmed : input.action.destructive → ConfirmedBy hashSecret userId input w)
    (hfresh : ∀ c ∈ w.powerCommands, c.id ≠ w.uuid.text ∧ c.nonce ≠ w.random.text) :
    (Offers states agent.id input.action ↔
        (requestCommand hashSecret userId deviceId spaceId input context).Succeeds exec w) ↔
      (Holds userId spaceId input.action.permission w → ScreenTells spaceId agent input.action w) := by
  have hopens : (requirePermission userId spaceId "devices.view" none).Succeeds exec w := by
    by_contra hnot
    exact Prog.not_succeeds_bind hnot ⟨states, hscreen⟩
  obtain ⟨member, hmember⟩ := succeeds_requirePermission.mp hopens
  have hfound : findAgent input.targetAgentId w = some agent := by
    unfold findAgent
    rw [htarget]
    cases hfind : w.directory.agents.find? (·.id = agent.id) with
    | none => exact absurd (decide_eq_true rfl) (List.find?_eq_none.mp hfind agent hagent)
    | some agent' =>
      have hid := List.find?_some hfind
      rw [Table.eq_of_key hids (List.mem_of_find?_eq_some hfind) hagent (of_decide_eq_true hid)]
  rw [offers_iff hmember hids hagent hspace hrevoked hscreen,
    succeeds_requestCommand hmember hfound hspace hrevoked hconfirmed hfresh]
  have hholds : Holds userId spaceId input.action.permission w ↔
      input.action.permission ∈ member.permissions := by
    unfold Holds
    rw [hmember.1]
    simp only [Option.some.injEq, exists_eq_left']
  rw [hholds]
  unfold ScreenTells
  by_cases hheld : input.action.permission ∈ member.permissions
  · split <;> tauto
  · tauto

/-! ## A computer that its owner looks at -/

/-- The computer of `viewedWorld`. -/
def viewedAgent : AgentRow :=
  ⟨"agent", "space", "device", "Study", none, some 900, none, none, false, false⟩

/-- A computer that is online, with the power commands that are given, and its owner. -/
def viewedWorld (commands : List PowerCommandRow) : World :=
  { lockWorld .pending with
    directory :=
      { agents := [viewedAgent]
        members := [⟨"space", "user", "owner", ["devices.view", "power.wake", "power.lock"], false, none⟩]
        spaces := [⟨"space", "user"⟩]
        users := [⟨"user", "Ada"⟩]
        agentIds := by decide
        memberIds := by decide }
    powerCommands := commands }

/-- The owner asks for a lock. -/
def wantsLock : PowerCommandRequest := ⟨.lock, "agent", none, none⟩

instance {α : Type} (p : Service α) (w : World) : Decidable (p.Succeeds exec w) :=
  match h : (p.runAlone exec w).1 with
  | .ok a => isTrue ⟨a, h⟩
  | .error _ => isFalse fun ⟨_, ha⟩ => nomatch h.symm.trans ha

/-- Nothing is outstanding: the lock is offered, and accepted. -/
theorem offered_iff_accepted_idle : ∃ states,
    ((spacePowerState "user" "space").runAlone exec (viewedWorld [])).1 = .ok states ∧
      Offers states "agent" .lock ∧ (Offers states "agent" .lock ↔
        (requestCommand id "user" "phone" "space" wantsLock ⟨none, none, none⟩).Succeeds exec
          (viewedWorld [])) := by
  refine ⟨_, rfl, by decide, ?_⟩
  have hconfirmed : wantsLock.action.destructive → ConfirmedBy id "user" wantsLock (viewedWorld []) :=
    fun h => nomatch h
  have hlisted : viewedAgent ∈ (viewedWorld []).directory.agents := List.mem_cons_self
  refine (offered_iff_accepted id rfl (by decide) hlisted rfl rfl rfl hconfirmed
    fun c hc => absurd hc List.not_mem_nil).mpr fun _ => ?_
  rintro - ⟨c, hc, -⟩
  exact absurd hc List.not_mem_nil

/-- A lock is outstanding: another one is offered, and refused. -/
theorem offered_and_refused : ∃ states,
    ((spacePowerState "user" "space").runAlone exec (viewedWorld (lockWorld .pending).powerCommands)).1 =
        .ok states ∧
      Offers states "agent" .lock ∧
      ¬ (requestCommand id "user" "phone" "space" wantsLock ⟨none, none, none⟩).Succeeds exec
          (viewedWorld (lockWorld .pending).powerCommands) := by
  refine ⟨_, rfl, by decide, by decide⟩

end Api
