import NetlinkHub.Api.Spaces
import Mathlib.Data.List.Sort

/-! # The power service

`power.service.ts`, call by call: asking for a power command, calling one off, handing commands to the
agents that poll for them, and recording what an agent reports. The machine at the end runs these calls
in any interleaving of their statements. -/

namespace Api

open Concurrent (Prog Machine)

/-! ## The contract -/

/-- `POWER_ACTION_PERMISSIONS`. Wake and cancel share one permission. -/
def PowerAction.permission : PowerAction → String
  | wake => "power.wake"
  | restart => "power.restart"
  | shutdown => "power.shutdown"
  | lock => "power.lock"
  | sleep => "power.sleep"
  | cancel => "power.wake"

/-- `isDestructivePowerAction`. -/
def PowerAction.destructive (action : PowerAction) : Bool := action = .restart ∨ action = .shutdown

/-- `requiresTargetOnline`. -/
def PowerAction.requiresTargetOnline (action : PowerAction) : Bool := action ≠ .wake

/-- `POWER_COUNTDOWN_SECONDS`. -/
def powerCountdownSeconds : Int := 10

/-- `POWER_COMMAND_TTL_SECONDS`. -/
def powerCommandTtlSeconds : Int := 120

/-- `PowerCommandRequest`. -/
structure PowerCommandRequest where
  action : PowerAction
  targetAgentId : String
  stepUpChallengeId : Option String
  stepUpCode : Option String
  deriving DecidableEq, Repr

/-- `PowerCommandSummary`. -/
structure PowerCommandSummary where
  id : String
  spaceId : String
  action : PowerAction
  state : PowerCommandState
  targetAgentId : String
  targetAgentName : String
  helperAgentId : Option String
  helperAgentName : Option String
  requestedAt : String
  executeAt : Option String
  expiresAt : String
  detail : Option String
  cancellable : Bool
  deriving DecidableEq, Repr

/-- `PowerResult`. -/
structure PowerResult where
  deviceId : String
  commandId : String
  succeeded : Bool
  detail : Option String
  deriving DecidableEq, Repr

/-- `SignedCommand['command']`. -/
structure CommandPayload where
  id : String
  action : String
  deviceId : String
  spaceId : String
  issuedAt : String
  expiresAt : String
  nonce : String
  requestedBy : String
  deriving DecidableEq, Repr

/-- `SignedCommand`. -/
structure SignedCommand where
  command : CommandPayload
  signature : String
  keyId : String
  deriving DecidableEq, Repr

/-- The signing key: its identifier, and the signature it puts on a text. -/
structure Signer where
  keyId : String
  signText : List Char → String

/-- `buildSigningInput`. -/
def buildSigningInput (c : CommandPayload) : List Char :=
  ['\n'].intercalate ["netlink.power.v1".toList, c.id.toList, c.action.toList, c.deviceId.toList,
    c.spaceId.toList, c.issuedAt.toList, c.expiresAt.toList, c.nonce.toList, c.requestedBy.toList]

/-- `CommandSigner.sign`. -/
def Signer.sign (signer : Signer) (command : CommandPayload) : SignedCommand :=
  ⟨command, signer.signText (buildSigningInput command), signer.keyId⟩

/-! ## Looking at commands -/

/-- The command can still be handed out. -/
def PowerCommandState.Due (state : PowerCommandState) : Prop :=
  state = .pending ∨ state = .countdown

instance : DecidablePred PowerCommandState.Due := fun _ => inferInstanceAs (Decidable (_ ∨ _))

theorem PowerCommandState.not_due_sent : ¬ PowerCommandState.sent.Due := by decide

/-- The command is outstanding. -/
def PowerCommandState.Open (state : PowerCommandState) : Prop := state.Due ∨ state = .sent

instance : DecidablePred PowerCommandState.Open := fun _ => inferInstanceAs (Decidable (_ ∨ _))

/-- `toSummary`, with the names that are included. -/
def toSummary (w : World) (c : PowerCommandRow) : PowerCommandSummary :=
  { id := c.id
    spaceId := c.spaceId
    action := c.action
    state := c.state
    targetAgentId := c.targetAgentId
    targetAgentName := deviceName c.targetAgentId w
    helperAgentId := c.helperAgentId
    helperAgentName := c.helperAgentId.map (deviceName · w)
    requestedAt := toISOString c.createdAt
    executeAt := c.executeAt.map toISOString
    expiresAt := toISOString c.expiresAt
    detail := c.detail
    cancellable := c.state.Due }

/-- The newest row: `findFirst` with `orderBy: { createdAt: 'desc' }`. -/
def newest : List PowerCommandRow → Option PowerCommandRow
  | [] => none
  | c :: cs => match newest cs with
    | none => some c
    | some d => if c.createdAt < d.createdAt then some d else some c

/-- `powerCommand.findUnique`. -/
def findCommand (id : String) (w : World) : Option PowerCommandRow :=
  w.powerCommands.find? (·.id = id)

/-- `powerCommand.update`: the row after the update. -/
def updateCommand (id : String) (data : PowerCommandRow → PowerCommandRow) :
    Service (World × PowerCommandRow) :=
  .stmt (.powerCommands (.update (·.id = id) data)) fun w => match findCommand id w with
    | none => .raise databaseFault
    | some row => .done (w, data row)

/-- `pendingCommand`. -/
def pendingCommand (agentId : String) : Service (Option PowerCommandSummary) := do
  let now ← newDate
  select .powerCommands fun w => (newest (w.powerCommands.filter fun c =>
    c.targetAgentId = agentId ∧ c.state.Open ∧ now < c.expiresAt)).map (toSummary w)

/-! ## Waking -/

/-- `sameLocalNetwork`. -/
def sameLocalNetwork (a b : Option String) : Bool :=
  match a, b with
  | some a, some b =>
    match a.toList.splitOn '.', b.toList.splitOn '.' with
    | [a₀, a₁, a₂, _], [b₀, b₁, b₂, _] => a₀ = b₀ ∧ a₁ = b₁ ∧ a₂ = b₂
    | _, _ => false
  | _, _ => false

/-- `WakeReadiness`. -/
structure WakeReadiness where
  wakeOnLanEnabled : Bool
  networkAdapterFound : Bool
  wakeHelperOnline : Bool
  wakeCapableLink : Bool
  targetMacRegistered : Bool
  ready : Bool
  blockers : List String
  helperAgentId : Option String
  helperAgentName : Option String
  deriving DecidableEq, Repr

/-- `wakeReadiness`. -/
def wakeReadiness (agent : AgentRow) (helper : Option AgentRow) : WakeReadiness :=
  let registered : Bool := agent.macAddress.any (· ≠ "")
  let helperOnline : Bool := helper.isSome
  { wakeOnLanEnabled := agent.wakeOnLanReady
    networkAdapterFound := registered
    wakeHelperOnline := helperOnline
    wakeCapableLink := registered
    targetMacRegistered := registered
    ready := agent.wakeOnLanReady && registered && helperOnline
    blockers :=
      (if agent.wakeOnLanReady then [] else
        ["Wake-on-LAN is turned off in the BIOS or network adapter settings"]) ++
      (if registered then [] else
        ["No wake-capable network adapter was found",
          "This computer is not on Ethernet or a supported wake-capable connection",
          "This computer's network address has not been registered yet"]) ++
      (if helperOnline then [] else ["No Wake Helper is online on the same local network"])
    helperAgentId := helper.map (·.id)
    helperAgentName := helper.map (·.deviceName) }

/-- The wake branch of `requestCommand`: the helper that will send the packet. -/
def wakeHelper (spaceId : String) (agent : AgentRow) (isOnline : Bool) : Service (Option String) := do
  Prog.raiseIf isOnline (conflict "That computer is already on.")
  let helpers ← select .agents fun w => w.directory.agents.filter fun a =>
    a.spaceId = spaceId ∧ a.isWakeHelper ∧ a.id ≠ agent.id
  let now ← newDate
  let helper := helpers.find? fun a => a.deviceRevokedAt = none ∧ online a.lastHeartbeatAt now ∧
    sameLocalNetwork a.localIpAddress agent.localIpAddress
  let readiness := wakeReadiness agent helper
  Prog.raiseIf (¬ readiness.ready)
    (conflict (readiness.blockers.head?.getD "This computer cannot be woken yet."))
  .done (helper.map (·.id))

/-- The helper of a command: none, but for a wake. -/
def chooseHelper (action : PowerAction) (spaceId : String) (agent : AgentRow) (isOnline : Bool) :
    Service (Option String) :=
  if action = .wake then wakeHelper spaceId agent isOnline else .done none

/-! ## The calls -/

section Calls

variable (signer : Signer) (hashSecret : String → String)

/-- `verifyStepUp`. -/
def verifyPowerStepUp (userId spaceId : String) (input : PowerCommandRequest)
    (context : RequestContext) : Service Unit :=
  match input.stepUpChallengeId, input.stepUpCode with
  | some challengeId, some code => do
    let result ← consume hashSecret challengeId code "step_up"
    if result.toOption.any (·.userId = userId) then .done ()
    else do
      record ⟨"power.command.requested", "denied", some userId, none, none, some spaceId, some context,
        [("powerAction", .text input.action.text), ("reason", .text "step_up_failed")]⟩
      .raise (forbidden "That confirmation code is not correct.")
  | _, _ => .raise
    (forbidden "Confirm this action with the six-digit code we sent to your email.")

/-- `cancelPending`. -/
def cancelPending (userId spaceId agentId : String) (context : RequestContext) :
    Service PowerCommandSummary := do
  let pending ← select .powerCommands fun w =>
    newest (w.powerCommands.filter fun c => c.targetAgentId = agentId ∧ c.state.Open)
  match pending with
  | none => .raise (notFound "Nothing is pending on that computer.")
  | some pending => do
    Prog.raiseIf (pending.state = .sent) (conflict
      "That command has already reached the computer and cannot be called back.")
    let now ← newDate
    let (w, cancelled) ← updateCommand pending.id fun c => { c with
      state := .cancelled, cancelledAt := some now, detail := some "Cancelled before it was sent" }
    record ⟨"power.command.result", "success", some userId, none, none, some spaceId, some context,
      [("powerAction", .text pending.action.text), ("result", .text "cancelled")]⟩
    .done (toSummary w cancelled)

/-- The row that `requestCommand` inserts. -/
def newCommand (userId deviceId spaceId : String) (agent : AgentRow) (action : PowerAction)
    (helperId : Option String) (id nonce : String) (now created : Date) : PowerCommandRow :=
  let countdown := action.destructive
  { id := id
    spaceId := spaceId
    targetAgentId := agent.id
    helperAgentId := helperId
    action := action
    state := if countdown then .countdown else .pending
    requestedById := userId
    requestedByDeviceId := deviceId
    nonce := nonce
    issuedAt := created
    expiresAt :=
      now + (powerCommandTtlSeconds + if countdown then powerCountdownSeconds else 0) * 1000
    executeAt := some (if countdown then now + powerCountdownSeconds * 1000 else now)
    deliveredAt := none
    acknowledgedAt := none
    completedAt := none
    cancelledAt := none
    detail := none
    createdAt := created }

/-- `powerCommand.create`: identifiers and nonces are unique. -/
def createCommand (row : PowerCommandRow) : Service PowerCommandSummary :=
  .stmt (.powerCommands (.insert (fun c => c.id = row.id ∨ c.nonce = row.nonce) row)) fun w =>
    if w.powerCommands.any fun c => c.id = row.id ∨ c.nonce = row.nonce then .raise databaseFault
    else .done (toSummary w row)

/-- The end of `requestCommand`: one outstanding command per machine, and the new one. -/
def insertCommand (userId deviceId spaceId : String) (input : PowerCommandRequest)
    (context : RequestContext) (agent : AgentRow) (helperId : Option String) :
    Service PowerCommandSummary := do
  let existing ← pendingCommand agent.id
  match existing with
  | some existing => .raise (conflict
      ("A " ++ String.ofList (existing.action.text.toList.drop 6) ++
        " is already pending on that computer."))
  | none => do
    let now ← newDate
    let nonce ← randomNonce
    let id ← randomUUID
    let created ← newDate
    let summary ← createCommand
      (newCommand userId deviceId spaceId agent input.action helperId id nonce now created)
    record ⟨"power.command.requested", "success", some userId, some deviceId, some agent.deviceId,
      some spaceId, some context, [("powerAction", .text input.action.text),
        ("helper", .text (helperId.getD "none")),
        ("countdownSeconds", .number (if input.action.destructive then powerCountdownSeconds else 0))]⟩
    .done summary

/-- `requestCommand` once the computer is found and the action is no cancellation. -/
def issueCommand (userId deviceId spaceId : String) (input : PowerCommandRequest)
    (context : RequestContext) (agent : AgentRow) : Service PowerCommandSummary := do
  if input.action.destructive then verifyPowerStepUp hashSecret userId spaceId input context
  let seen ← newDate
  let isOnline := online agent.lastHeartbeatAt seen
  Prog.raiseIf (input.action.requiresTargetOnline ∧ ¬ isOnline)
    (conflict "That computer is not online. Turn it on first, then try again.")
  let helperId ← chooseHelper input.action spaceId agent isOnline
  insertCommand userId deviceId spaceId input context agent helperId

/-- `requestCommand`. -/
def requestCommand (userId deviceId spaceId : String) (input : PowerCommandRequest)
    (context : RequestContext) : Service PowerCommandSummary := do
  let _ ← requirePermission userId spaceId input.action.permission (some context)
  let agent ← select .agents (findAgent input.targetAgentId)
  match agent with
  | none => .raise (notFound "That computer was not found in this Space.")
  | some agent =>
    if agent.spaceId ≠ spaceId ∨ agent.deviceRevokedAt.isSome then
      .raise (notFound "That computer was not found in this Space.")
    else if input.action = .cancel then cancelPending userId spaceId agent.id context
    else issueCommand hashSecret userId deviceId spaceId input context agent

/-- The command is for an agent to collect at a time. -/
def DueFor (agentId : String) (now : Date) (c : PowerCommandRow) : Prop :=
  c.state.Due ∧ now < c.expiresAt ∧
    (c.helperAgentId = some agentId ∨ c.targetAgentId = agentId ∧ c.helperAgentId = none) ∧
    (c.executeAt = none ∨ ∃ t, c.executeAt = some t ∧ t ≤ now)

instance (agentId : String) (now : Date) : DecidablePred (DueFor agentId now) := fun c =>
  have : Decidable (∃ t, c.executeAt = some t ∧ t ≤ now) := match h : c.executeAt with
    | none => .isFalse (by simp)
    | some t => decidable_of_iff (t ≤ now) (by simp)
  inferInstanceAs (Decidable (_ ∧ _ ∧ _ ∧ _))

/-- The payload of a command for a device. -/
def payload (deviceId : String) (c : PowerCommandRow) : CommandPayload :=
  { id := c.id
    action := c.action.text
    deviceId := deviceId
    spaceId := c.spaceId
    issuedAt := toISOString c.issuedAt
    expiresAt := toISOString c.expiresAt
    nonce := c.nonce
    requestedBy := c.requestedById }

/-- The loop of `collectFor`: each command is claimed before it is signed. -/
def claimEach (deviceId : String) (now : Date) : List PowerCommandRow → Service (List SignedCommand)
  | [] => .done []
  | c :: due => do
    let count ← Prog.perform (.powerCommands (.update (fun r => r.id = c.id ∧ r.state.Due)
        fun r => { r with state := .sent, deliveredAt := some now }))
      fun w => (w.powerCommands.filter fun r => r.id = c.id ∧ r.state.Due).length
    let signed ← claimEach deviceId now due
    if count = 0 then .done signed else .done (signer.sign (payload deviceId c) :: signed)

/-- `collectFor`. -/
def collectFor (principal : AgentPrincipal) : Service (List SignedCommand) := do
  let agent ← select .agents (findAgentByDevice principal.deviceId)
  match agent with
  | none => .done []
  | some agent => do
    let now ← newDate
    Prog.perform (.powerCommands (.update (fun c => c.expiresAt < now ∧ c.state.Open)
      fun c => { c with state := .expired, detail := some "Expired before it was carried out" }))
      fun _ => ()
    let due ← select .powerCommands fun w =>
      (List.insertionSort (fun c d => c.createdAt ≤ d.createdAt)
        (w.powerCommands.filter (DueFor agent.id now))).take 10
    claimEach signer principal.deviceId now due

/-- `recordResult`. -/
def recordResult (principal : AgentPrincipal) (input : PowerResult) : Service Unit := do
  Prog.raiseIf (input.deviceId ≠ principal.deviceId)
    (badRequest "This result does not match the signing device.")
  let command ← select .powerCommands fun w =>
    (findCommand input.commandId w).map fun c => (c, findAgent c.targetAgentId w)
  match command with
  | none => .raise (notFound "That command was not found.")
  | some (command, targetAgent) => do
    let agent ← select .agents (findAgentByDevice principal.deviceId)
    Prog.raiseIf (¬ agent.any fun a =>
        command.targetAgentId = a.id ∨ command.helperAgentId = some a.id)
      (forbidden "That command was not addressed to this computer.")
    let acknowledged ← newDate
    let completed ← newDate
    let _ ← updateCommand command.id fun c => { c with
      state := if input.succeeded then .succeeded else .failed
      acknowledgedAt := some acknowledged
      completedAt := some completed
      detail := input.detail }
    record ⟨"power.command.result", if input.succeeded then "success" else "failure",
      some command.requestedById, none, targetAgent.map (·.deviceId), some command.spaceId, none,
      [("powerAction", .text command.action.text), ("succeeded", .flag input.succeeded),
        ("detail", (input.detail.map fun d => Meta.text (slice 200 d)).getD .null)]⟩
    publishToSpace command.spaceId
      (.powerResult command.spaceId command.targetAgentId command.id input.succeeded)
    .done ()

end Calls

/-! ## The machine -/

/-- A call of the power service. -/
inductive PowerRequest where
  | requestCommand (userId deviceId spaceId : String) (input : PowerCommandRequest)
    (context : RequestContext)
  | collectFor (principal : AgentPrincipal)
  | recordResult (principal : AgentPrincipal) (input : PowerResult)
  deriving DecidableEq, Repr

/-- What a call answers. -/
inductive PowerResponse where
  | summary (s : PowerCommandSummary)
  | commands (cs : List SignedCommand)
  | recorded
  deriving DecidableEq, Repr

/-- What each call runs. -/
def powerHandler (signer : Signer) (hashSecret : String → String) :
    PowerRequest → Service PowerResponse
  | .requestCommand userId deviceId spaceId input context =>
    .summary <$> Api.requestCommand hashSecret userId deviceId spaceId input context
  | .collectFor principal => .commands <$> Api.collectFor signer principal
  | .recordResult principal input => (fun _ => .recorded) <$> Api.recordResult principal input

/-- Any number of calls of the power service, statement by statement. -/
def powerMachine (signer : Signer) (hashSecret : String → String) :
    Machine World Write HttpException PowerRequest Outside PowerResponse :=
  ⟨powerHandler signer hashSecret, exec, outside⟩

end Api

example : Api.sameLocalNetwork (some "10.0.0.7") (some "10.0.0.200") = true := by decide
