import NetlinkHub.Account.Agents
import NetlinkHub.Account.Sessions
import NetlinkHub.Api.Power
import NetlinkHub.Api.RemoteSteps

/-! # The control plane

Every request of the account, power and remote services behind the guard of its route, as one machine:
signed requests of agents, requests with a bearer token, and the public ones. What sign-in, the other
services, the clock and the random source do in between is the environment's. A device keeps its identity
for good, and one that was revoked stays revoked (`devicesStay_run`). -/

namespace Account

open Api (Date HttpException RequestContext badRequest)
open Concurrent (Config Log Machine Move Outline Prog Step)
open Posix (Bytes)
open Table (Evolves Op)

/-! ## Requests -/

/-- What an agent reports of a connection. -/
structure Connected where
  sessionId : String
  localCandidateType : Option String
  remoteCandidateType : Option String
  deriving DecidableEq, Repr

/-- What an agent reports of refused input. -/
structure Violation where
  sessionId : String
  count : Nat
  deriving DecidableEq, Repr

/-- The bodies of the signed requests, as their schemas read them. -/
structure Schemas where
  enroll : Bytes → Option AgentEnrollRequest
  heartbeat : Bytes → Option AgentHeartbeatRequest
  powerResult : Bytes → Option Api.PowerResult
  remoteSignal : Bytes → Option Api.RemoteSignalRequest
  remoteConnected : Bytes → Option Connected
  remoteViolation : Bytes → Option Violation

/-- What the platform and the configuration give to the services. -/
structure Platform where
  crypto : Crypto
  jwt : Jwt
  config : SessionConfig
  hashSecret : String → String
  signer : Api.Signer
  ice : Api.Ice
  schemas : Schemas

/-- The routes of the agent's controllers, but for the enrollment. -/
inductive AgentRoute where
  | heartbeat
  | collect
  | result
  | grants
  | signal (sessionId : String)
  | signals (sessionId : String)
  | connected
  | violation
  deriving DecidableEq, Repr

/-- The calls behind the bearer token. -/
inductive ViewerCall where
  | createSession (spaceId : String) (input : Api.CreateRemoteSessionRequest) (context : RequestContext)
  | listSessions (spaceId : String) (limit : Int)
  | getSession (sessionId : String)
  | heartbeat (sessionId : String)
  | signal (sessionId : String) (input : Api.RemoteSignalRequest)
  | signals (sessionId : String)
  | endSession (sessionId : String) (reason : Api.RemoteEndReason) (context : RequestContext)
  | requestCommand (spaceId : String) (input : Api.PowerCommandRequest) (context : RequestContext)
  | revoke (deviceId : String) (context : RequestContext)
  deriving DecidableEq, Repr

/-- A request to the control plane. -/
inductive Request where
  | enroll (signed : SignedRequest) (context : RequestContext)
  | agent (route : AgentRoute) (signed : SignedRequest)
  | viewer (token : Option String) (call : ViewerCall)
  | verifyDevice (input : VerifyDeviceRequest) (context : RequestContext)
  | refresh (refreshToken : String) (context : RequestContext)
  | connect (socket : Nat) (token : Option String)
  deriving DecidableEq, Repr

/-- What a request is answered. -/
inductive Response where
  | enrolled (r : AgentEnrollResponse)
  | beat (r : AgentHeartbeatResponse)
  | power (r : Api.PowerResponse)
  | remote (r : Api.RemoteResponse)
  | authenticated (r : AuthSuccess)
  | tokens (r : SessionTokens)
  | connected (accepted : Bool)
  | device (d : AuthenticatedDevice)
  deriving DecidableEq, Repr

/-- The agent as the power and remote services know it. -/
def AgentPrincipal.toApi (p : AgentPrincipal) : Api.AgentPrincipal := ⟨p.userId, p.deviceId⟩

/-- A body that has passed its schema. -/
def withBody {α β : Type} (input : Option α) (f : α → Service β) : Service β :=
  match input with
  | none => .raise (badRequest "The request could not be processed.")
  | some input => f input

/-- A call of the power service. -/
def powerCall (P : Platform) (q : Api.PowerRequest) : Service Response :=
  .power <$> lift (Api.powerHandler P.signer P.hashSecret q)

/-- A call of the remote service. -/
def remoteCall (P : Platform) (q : Api.RemoteRequest) : Service Response :=
  .remote <$> lift (Api.remoteHandler P.signer P.hashSecret P.ice q)

/-- What a route of an agent does for the agent that the guard has found. -/
def AgentRoute.serve (P : Platform) (principal : AgentPrincipal) (body : Bytes) :
    AgentRoute → Service Response
  | heartbeat => withBody (P.schemas.heartbeat body) fun input =>
    .beat <$> Account.heartbeat principal input
  | collect => powerCall P (.collectFor principal.toApi)
  | result => withBody (P.schemas.powerResult body) fun input =>
    powerCall P (.recordResult principal.toApi input)
  | grants => remoteCall P (.grants principal.toApi)
  | signal sessionId => withBody (P.schemas.remoteSignal body) fun input =>
    remoteCall P (.hostSignal principal.toApi sessionId input)
  | signals sessionId => remoteCall P (.hostSignals principal.toApi sessionId)
  | connected => withBody (P.schemas.remoteConnected body) fun input =>
    remoteCall P (.connected principal.toApi input.sessionId input.localCandidateType
      input.remoteCandidateType)
  | violation => withBody (P.schemas.remoteViolation body) fun input =>
    remoteCall P (.violation principal.toApi input.sessionId input.count)

/-- What a call does for the user that the guard has found. -/
def ViewerCall.serve (P : Platform) (principal : AuthenticatedPrincipal) : ViewerCall → Service Response
  | createSession spaceId input context =>
    remoteCall P (.createSession principal.userId principal.deviceId spaceId input context)
  | listSessions spaceId limit => remoteCall P (.listSessions principal.userId spaceId limit)
  | getSession sessionId => remoteCall P (.getSession principal.userId sessionId)
  | heartbeat sessionId => remoteCall P (.heartbeat principal.userId sessionId)
  | signal sessionId input => remoteCall P (.signal principal.userId sessionId input)
  | signals sessionId => remoteCall P (.signals principal.userId sessionId)
  | endSession sessionId reason context =>
    remoteCall P (.endSession principal.userId sessionId reason (some context))
  | requestCommand spaceId input context =>
    powerCall P (.requestCommand principal.userId principal.deviceId spaceId input context)
  | revoke deviceId context => .device <$> Account.revoke principal.userId deviceId context

/-- What each request runs. -/
def handler (P : Platform) : Request → Service Response
  | .enroll signed context =>
    .enrolled <$> enrollRoute P.crypto P.hashSecret P.schemas.enroll signed context
  | .agent route signed => do
    let principal ← canActivate P.crypto false signed
    route.serve P principal signed.body
  | .viewer token call => do
    let principal ← accessTokenGuard P.jwt token
    call.serve P principal
  | .verifyDevice input context =>
    .authenticated <$> verifyDevice P.jwt P.config P.hashSecret input context
  | .refresh refreshToken context => .tokens <$> refresh P.jwt P.config P.hashSecret refreshToken context
  | .connect socket token => .connected <$> handleConnection P.jwt socket token

/-! ## The environment -/

/-- What a sign-in or its owner notes about a device. -/
structure DeviceDetails where
  name : String
  osVersion : Option String
  appVersion : Option String
  lastSeenAt : Option Date
  approximateLocation : Option String
  lastIpAddress : Option String
  deriving DecidableEq, Repr

/-- A device with other details. -/
def DeviceRow.withDetails (x : DeviceDetails) (d : DeviceRow) : DeviceRow :=
  { d with
    name := x.name
    osVersion := x.osVersion
    appVersion := x.appVersion
    lastSeenAt := x.lastSeenAt
    approximateLocation := x.approximateLocation
    lastIpAddress := x.lastIpAddress }

/-- What is drawn from the random source and the configuration next. -/
structure Draw where
  uuid : Api.Token
  random : Api.Token
  secret : String
  family : String
  lucky : Bool
  throttled : Bool
  refusesNonce : Bool

/-- What happens between two statements. -/
inductive Outside where
  | tick (ms : Nat)
  | draw (d : Draw)
  | users (rows : List UserRow)
  /-- The tables that the power and remote services only read. -/
  | directory (d : Api.Directory)
  /-- The step-up codes. -/
  | stepUps (rows : List Api.ChallengeRow)
  /-- A sign-in registers an installation. -/
  | register (row : DeviceRow)
  | describe (deviceId : String) (x : DeviceDetails)
  /-- A sign-in issues a code for a device, unless the device is revoked. -/
  | issueCode (row : ChallengeRow)
  | issueToken (row : EnrollmentTokenRow)
  /-- A session is signed out. -/
  | signOut (familyId reason : String) (now : Date)
  /-- `handleDisconnect`. -/
  | disconnect (socket : Nat)
  /-- `grantSpaceAccess` and `revokeSpaceAccess`. -/
  | spaceAccess (userId : String) (spaceIds : List String)

/-- The device of a code is not revoked. -/
def ChallengeRow.Issuable (c : ChallengeRow) (w : World) : Prop :=
  ∀ d ∈ w.devices, c.deviceId = some d.id → d.revokedAt = none

instance (c : ChallengeRow) : DecidablePred c.Issuable := fun w =>
  inferInstanceAs (Decidable (∀ d ∈ w.devices, _))

/-- The world after it. -/
def outside : Outside → World → World
  | .tick ms, w => { w with api := { w.api with clock := w.api.clock + ms } }
  | .draw d, w =>
    { w with
      api := { w.api with uuid := d.uuid, random := d.random }
      secret := d.secret
      family := d.family
      lucky := d.lucky
      throttled := d.throttled
      refusesNonce := d.refusesNonce }
  | .users rows, w => { w with users := rows }
  | .directory d, w => { w with api := { w.api with directory := d } }
  | .stepUps rows, w => { w with api := { w.api with challenges := rows } }
  | .register row, w => { w with devices := (Op.insert row.Clashes row).apply w.devices }
  | .describe deviceId x, w =>
    { w with devices := (Op.update (·.id = deviceId) (DeviceRow.withDetails x)).apply w.devices }
  | .issueCode row, w =>
    if row.Issuable w then
      { w with challenges := (Op.insert (fun c => c.id = row.id) row).apply w.challenges }
    else w
  | .issueToken row, w =>
    { w with enrollmentTokens := (Op.insert (fun t => t.id = row.id) row).apply w.enrollmentTokens }
  | .signOut familyId reason now, w =>
    { w with refreshTokens := (Op.update (fun t => t.familyId = familyId ∧ t.revokedAt = none)
        (RefreshTokenRow.revoked reason now)).apply w.refreshTokens }
  | .disconnect socket, w => { w with subscribers := w.subscribers.filter (·.socket ≠ socket) }
  | .spaceAccess userId spaceIds, w =>
    { w with subscribers := w.subscribers.map fun s =>
        if s.userId = userId then { s with spaceIds := spaceIds } else s }

/-- Any number of requests, statement by statement. -/
def machine (P : Platform) : Machine World Write HttpException Request Outside Response :=
  ⟨handler P, exec, outside⟩

/-- The control plane after a run. -/
abbrev accountRun (P : Platform) (w : World) (moves : List (Move Request Outside)) :
    Config World Write HttpException Request Response :=
  Run.run (machine P).step moves (Config.initial w)

/-- The log of such a run. -/
abbrev AccountLog := Log World Write Request

/-- A statement of such a run. -/
abbrev AccountStep := Step World Write Request

end Account
