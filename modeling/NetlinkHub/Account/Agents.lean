import NetlinkHub.Account.Guard

/-! # Enrolling an agent

`AgentsService.enroll` and the device row behind it, and the heartbeat. The handler of an enrollment
takes the body alone: what the guard has found in the headers does not reach it. -/

namespace Account

open Api (Date HttpException RequestContext badRequest notFound)
open Concurrent (Prog)

/-- `AgentEnrollRequest`. -/
structure AgentEnrollRequest where
  installationId : String
  publicKey : String
  name : String
  platform : String
  osVersion : Option String
  appVersion : Option String
  enrollmentToken : String
  deriving DecidableEq, Repr

/-- `AGENT_HEARTBEAT_INTERVAL_SECONDS`. -/
def agentHeartbeatIntervalSeconds : Nat := 30

/-- `AgentEnrollResponse`. -/
structure AgentEnrollResponse where
  deviceId : String
  agentId : String
  spaceId : String
  spaceName : String
  heartbeatIntervalSeconds : Nat
  deriving DecidableEq, Repr

/-- `device.findUnique` by user and installation. -/
def findInstallation (userId installationId : String) (w : World) : Option DeviceRow :=
  w.devices.find? fun d => d.userId = userId ∧ d.installationId = installationId

/-- `device.findUnique` by public key. -/
def findKey (publicKey : String) (w : World) : Option DeviceRow :=
  w.devices.find? (·.publicKey = publicKey)

/-- The row of an agent's device at its first enrollment. -/
def newAgentDevice (userId : String) (input : AgentEnrollRequest) (context : RequestContext)
    (id : String) (trustedAt lastSeenAt : Date) : DeviceRow where
  id := id
  userId := userId
  installationId := input.installationId
  name := input.name
  platform := input.platform
  kind := "agent"
  osVersion := input.osVersion
  appVersion := input.appVersion
  publicKey := input.publicKey
  trusted := true
  trustedAt := some trustedAt
  createdAt := lastSeenAt
  lastSeenAt := some lastSeenAt
  revokedAt := none
  approximateLocation := none
  lastIpAddress := context.ipAddress

/-- The row of an agent's device at a later enrollment. -/
def reenrolled (existing : DeviceRow) (input : AgentEnrollRequest) (context : RequestContext)
    (now : Date) (d : DeviceRow) : DeviceRow :=
  { d with
    name := input.name
    osVersion := input.osVersion <|> existing.osVersion
    appVersion := input.appVersion <|> existing.appVersion
    lastSeenAt := some now
    lastIpAddress := context.ipAddress }

/-- `upsertAgentDevice`. -/
def upsertAgentDevice (userId : String) (input : AgentEnrollRequest) (context : RequestContext) :
    Service DeviceRow := do
  let existing ← select .devices (findInstallation userId input.installationId)
  match existing with
  | some existing =>
    if existing.publicKey ≠ input.publicKey then
      .raise (badRequest "This installation no longer matches its registered device identity.")
    else if existing.revokedAt.isSome then
      .raise (badRequest
        "This device was removed from your account. Reinstall NetLink to enroll it again.")
    else do
      let now ← newDate
      updateDevice existing.id (reenrolled existing input context now)
  | none => do
    let keyOwner ← select .devices (findKey input.publicKey)
    match keyOwner with
    | some _ => .raise (badRequest "This device identity is already registered.")
    | none => do
      let id ← randomUUID
      let trustedAt ← newDate
      let lastSeenAt ← newDate
      createDevice (newAgentDevice userId input context id trustedAt lastSeenAt)

/-- The row of an agent at its first enrollment. -/
def newAgent (id spaceId deviceId : String) (now : Date) : AgentRow :=
  ⟨id, spaceId, deviceId, "online", some now, none, none, false, false⟩

/-- `agent.upsert`: the identifier of the agent. -/
def upsertAgent (spaceId deviceId : String) : Service String := do
  let id ← randomUUID
  let created ← newDate
  let updated ← newDate
  Prog.perform (.upsertAgent (newAgent id spaceId deviceId created) updated) fun w =>
    ((w.agents.find? (·.deviceId = deviceId)).map (·.id)).getD id

/-- "This enrollment link is no longer valid." -/
def linkNotValid : HttpException :=
  badRequest "This enrollment link is no longer valid. Start again from the NetLink window."

/-- The end of `enroll`, once the token has been claimed. -/
def enrollClaimed (enrollment : EnrollmentTokenRow) (input : AgentEnrollRequest)
    (context : RequestContext) : Service AgentEnrollResponse := do
  let device ← upsertAgentDevice enrollment.userId input context
  let agentId ← upsertAgent enrollment.spaceId device.id
  record ⟨"device.registered", "success", some enrollment.userId, some device.id, none,
    some enrollment.spaceId, some context, [("kind", .text "agent"), ("name", .text input.name)]⟩
  Prog.perform (.publishStatus enrollment.spaceId agentId) fun _ => ()
  .done ⟨device.id, agentId, enrollment.spaceId, enrollment.spaceName, agentHeartbeatIntervalSeconds⟩

/-- `enroll`. -/
def enroll (hashSecret : String → String) (input : AgentEnrollRequest) (context : RequestContext) :
    Service AgentEnrollResponse := do
  let enrollment ← select .enrollmentTokens fun w =>
    w.enrollmentTokens.find? (·.tokenHash = hashSecret input.enrollmentToken)
  match enrollment with
  | none => .raise linkNotValid
  | some enrollment =>
    if enrollment.usedAt.isSome then .raise linkNotValid
    else do
      let now ← dateNow
      if enrollment.expiresAt ≤ now then .raise linkNotValid
      else do
        let used ← newDate
        let count ← Prog.perform (.enrollmentTokens (.update
            (fun t => t.id = enrollment.id ∧ t.usedAt = none) fun t => { t with usedAt := some used }))
          fun w => (w.enrollmentTokens.filter fun t => t.id = enrollment.id ∧ t.usedAt = none).length
        if count = 0 then .raise (badRequest "This enrollment link has already been used.")
        else enrollClaimed enrollment input context

/-- `POST /agent/enroll`: the guard, the body as the schema reads it, and the service. -/
def enrollRoute (crypto : Crypto) (hashSecret : String → String) (parse : Posix.Bytes → Option AgentEnrollRequest)
    (q : SignedRequest) (context : RequestContext) : Service AgentEnrollResponse := do
  let _ ← canActivate crypto true q
  match parse q.body with
  | none => .raise (badRequest "The request could not be processed.")
  | some input => enroll hashSecret input context

/-! ## Heartbeats -/

/-- `AgentHeartbeatRequest`. -/
structure AgentHeartbeatRequest where
  deviceId : String
  status : String
  localIpAddress : Option String
  macAddress : Option String
  wakeOnLanReady : Bool
  isWakeHelper : Bool
  appVersion : Option String
  deriving DecidableEq, Repr

/-- `AgentHeartbeatResponse`. -/
structure AgentHeartbeatResponse where
  acknowledged : Bool
  revoked : Bool
  message : Option String
  agentId : Option String
  heartbeatIntervalSeconds : Nat
  deriving DecidableEq, Repr

/-- The row of an agent after a heartbeat. -/
def beaten (agent : AgentRow) (input : AgentHeartbeatRequest) (now : Date) (a : AgentRow) : AgentRow :=
  { a with
    status := if input.status = "online" then "online" else "unreachable"
    lastHeartbeatAt := some now
    localIpAddress := input.localIpAddress <|> agent.localIpAddress
    macAddress := input.macAddress <|> agent.macAddress
    wakeOnLanReady := input.wakeOnLanReady
    isWakeHelper := input.isWakeHelper }

/-- `agent.update`. -/
def updateAgent (id : String) (data : AgentRow → AgentRow) : Service Unit :=
  .stmt (.agents (.update (·.id = id) data)) fun w =>
    if w.agents.any (·.id = id) then .done () else .raise Api.databaseFault

/-- The answer to an agent that is not enrolled in a Space, or whose device is revoked. -/
def notAcknowledged (revoked : Bool) (message : String) : AgentHeartbeatResponse :=
  ⟨false, revoked, some message, none, agentHeartbeatIntervalSeconds⟩

/-- The record that a computer has come online, if it was offline. -/
def recordOnline (principal : AgentPrincipal) (agent : AgentRow) : Service Unit :=
  if agent.status = "online" then .done ()
  else do
    Prog.perform (.publishStatus agent.spaceId agent.id) fun _ => ()
    record ⟨"device.heartbeat", "success", some principal.userId, some principal.deviceId, none,
      some agent.spaceId, none, [("transition", .text "offline_to_online")]⟩

/-- `heartbeat`. -/
def heartbeat (principal : AgentPrincipal) (input : AgentHeartbeatRequest) :
    Service AgentHeartbeatResponse :=
  if input.deviceId ≠ principal.deviceId then
    .raise (badRequest "This heartbeat does not match the signing device.")
  else do
    let found ← select .agents fun w =>
      (w.agents.find? (·.deviceId = principal.deviceId)).map fun a =>
        (a, (w.devices.find? (·.id = a.deviceId)).bind (·.revokedAt))
    match found with
    | none => .done (notAcknowledged false "This installation is not enrolled in a Space yet.")
    | some (_, some _) => .done (notAcknowledged true "This device was revoked by its owner.")
    | some (agent, none) => do
      let now ← newDate
      updateAgent agent.id (beaten agent input now)
      let _ ← updateDevice principal.deviceId fun d =>
        { d with lastSeenAt := some now, appVersion := input.appVersion <|> d.appVersion }
      recordOnline principal agent
      .done ⟨true, false, none, some agent.id, agentHeartbeatIntervalSeconds⟩

end Account
