import NetlinkHub.Api.Power

/-! # The remote service

`remote.service.ts`, call by call: creating a session, the signalling between its two parties, what the
agent reports, and the ways in which a session ends. The machine at the end runs these calls in any
interleaving of their statements. -/

namespace Api

open Concurrent (Prog Machine)

/-! ## The contract -/

/-- `REMOTE_MODE_PERMISSIONS`. -/
def RemoteSessionMode.permissions : RemoteSessionMode → List String
  | view => ["devices.observe"]
  | control => ["devices.observe", "devices.control"]

/-- `REMOTE_GRANT_TTL_SECONDS`. -/
def remoteGrantTtlSeconds : Int := 120

/-- `REMOTE_CONNECT_TIMEOUT_SECONDS`. -/
def remoteConnectTimeoutSeconds : Int := 45

/-- `REMOTE_IDLE_TIMEOUT_SECONDS`. -/
def remoteIdleTimeoutSeconds : Int := 300

/-- `REMOTE_MAX_DURATION_SECONDS`. -/
def remoteMaxDurationSeconds : Int := 14400

/-- `CreateRemoteSessionRequest`. -/
structure CreateRemoteSessionRequest where
  agentId : String
  mode : RemoteSessionMode
  stepUpChallengeId : Option String
  stepUpCode : Option String
  deriving DecidableEq, Repr

/-- `SIGNAL_KINDS`. -/
inductive SignalKind where
  | offer
  | answer
  | candidate
  | bye
  deriving DecidableEq, Repr

/-- The text of a kind. -/
def SignalKind.text : SignalKind → String
  | offer => "offer"
  | answer => "answer"
  | candidate => "candidate"
  | bye => "bye"

/-- `RemoteSignalRequest`. -/
structure RemoteSignalRequest where
  kind : SignalKind
  payload : String
  deriving DecidableEq, Repr

/-- `RemoteSignal`. -/
structure RemoteSignal where
  seq : Nat
  sessionId : String
  sender : SignalRole
  kind : String
  payload : String
  createdAt : String
  deriving DecidableEq, Repr

/-- `RemoteSessionSummary`. -/
structure RemoteSessionSummary where
  id : String
  spaceId : String
  agentId : String
  agentName : String
  mode : RemoteSessionMode
  state : RemoteSessionState
  viewerName : String
  isMine : Bool
  strategy : String
  startedAt : String
  connectedAt : Option String
  endedAt : Option String
  endReason : Option RemoteEndReason
  expiresAt : String
  deriving DecidableEq, Repr

/-- `IceServer`. -/
structure IceServer where
  urls : List String
  username : Option String
  credential : Option String
  deriving DecidableEq, Repr

/-- `IceService`: what its configuration makes of a session. -/
structure Ice where
  serversFor : String → Date → List IceServer
  relayAvailable : Bool

/-- `RemoteSessionTicket`. -/
structure RemoteSessionTicket where
  session : RemoteSessionSummary
  iceServers : List IceServer
  relayAvailable : Bool
  deriving DecidableEq, Repr

/-- `RemoteGrant`. -/
structure GrantPayload where
  sessionId : String
  spaceId : String
  agentId : String
  mode : String
  requestedBy : String
  issuedAt : String
  expiresAt : String
  nonce : String
  deriving DecidableEq, Repr

/-- `RemoteGrantEnvelope`. -/
structure SignedGrant where
  grant : GrantPayload
  signature : String
  keyId : String
  deriving DecidableEq, Repr

/-- The fields that `buildGrantSigningInput` joins. -/
def GrantPayload.signedFields (g : GrantPayload) : List (List Char) :=
  ["netlink.remote.v1".toList, g.sessionId.toList, g.spaceId.toList, g.agentId.toList, g.mode.toList,
    g.requestedBy.toList, g.issuedAt.toList, g.expiresAt.toList, g.nonce.toList]

/-- `buildGrantSigningInput`. -/
def buildGrantSigningInput (g : GrantPayload) : List Char := ['\n'].intercalate g.signedFields

/-- `GrantSigner.sign`: the key that signs power commands. -/
def Signer.signGrant (signer : Signer) (grant : GrantPayload) : SignedGrant :=
  ⟨grant, signer.signText (buildGrantSigningInput grant), signer.keyId⟩

/-- `strategyFromCandidateTypes`. An empty type counts as none. -/
def strategyFromCandidateTypes (localType remoteType : Option String) : String :=
  match localType.filter (· ≠ ""), remoteType.filter (· ≠ "") with
  | some l, some r => if l = "relay" ∨ r = "relay" then "relayed" else "direct"
  | _, _ => "unknown"

/-! ## Looking at sessions -/

/-- The session can still be used. -/
def RemoteSessionState.Live (state : RemoteSessionState) : Prop := state ≠ .ended

instance : DecidablePred RemoteSessionState.Live := fun _ => inferInstanceAs (Decidable (_ ≠ _))

/-- A row with `SESSION_INCLUDE`. -/
structure SessionView where
  row : RemoteSessionRow
  agentName : String
  viewerName : String
  deriving DecidableEq, Repr

/-- A row as it is read. -/
def viewOf (w : World) (row : RemoteSessionRow) : SessionView :=
  ⟨row, deviceName row.agentId w,
    ((w.directory.users.find? (·.id = row.viewerId)).map (·.name)).getD ""⟩

/-- `toSummary`. -/
def SessionView.summary (s : SessionView) (viewerId : String) : RemoteSessionSummary :=
  { id := s.row.id
    spaceId := s.row.spaceId
    agentId := s.row.agentId
    agentName := s.agentName
    mode := s.row.mode
    state := s.row.state
    viewerName := s.viewerName
    isMine := s.row.viewerId = viewerId
    strategy := s.row.strategy
    startedAt := toISOString s.row.issuedAt
    connectedAt := s.row.connectedAt.map toISOString
    endedAt := s.row.endedAt.map toISOString
    endReason := s.row.endReason
    expiresAt := toISOString s.row.expiresAt }

/-- `remoteSession.findUnique`. -/
def findSession (id : String) (w : World) : Option RemoteSessionRow :=
  w.remoteSessions.find? (·.id = id)

/-- `remoteSession.findUnique` with `SESSION_INCLUDE`. -/
def selectSession (id : String) : Service (Option SessionView) :=
  select .remoteSessions fun w => (findSession id w).map (viewOf w)

/-- `remoteSession.update`: the row after the update. -/
def updateSession (id : String) (change : SessionChange) : Service SessionView :=
  .stmt (.updateSession id change) fun w => match findSession id w with
    | none => .raise databaseFault
    | some row => .done (viewOf w (change.apply row))

/-- What every look-up that fails says. -/
def sessionNotFound : HttpException := notFound "That session was not found."

/-- `requireViewerSession`. -/
def requireViewerSession (userId sessionId : String) : Service SessionView := do
  let session ← selectSession sessionId
  match session with
  | none => .raise sessionNotFound
  | some session => if session.row.viewerId ≠ userId then .raise sessionNotFound else .done session

/-- `requireHostSession`. Without a device, the Space's owner may act for the host. -/
def requireHostSession (userId sessionId : String) (deviceId : Option String) : Service SessionView := do
  let session ← selectSession sessionId
  match session with
  | none => .raise sessionNotFound
  | some session => match deviceId.filter (· ≠ "") with
    | some deviceId => do
      let agent ← select .agents (findAgentByDevice deviceId)
      if agent.any (·.id = session.row.agentId) then .done session else .raise sessionNotFound
    | none => do
      requireOwner userId session.row.spaceId none
      .done session

/-! ## Ending -/

/-- How long a session was connected, to the second: `Math.round`. -/
def connectedSeconds (connectedAt : Option Date) : Service Int :=
  match connectedAt with
  | none => .done 0
  | some connectedAt => do
    let now ← newDate
    .done ((2 * (now - connectedAt) + 1000) / 2000)

/-- The end of `close`, once the row is updated. -/
def closeRest (current : RemoteSessionRow) (reason : RemoteEndReason) (actorUserId : Option String)
    (context : Option RequestContext) : Service Unit := do
  Prog.perform (.deleteSignals current.id) fun _ => ()
  let seconds ← connectedSeconds current.connectedAt
  record ⟨"remote.session.ended", "success", some (actorUserId.getD current.viewerId), none, none,
    some current.spaceId, context, [("sessionId", .text current.id), ("reason", .text reason.text),
      ("mode", .text current.mode.text), ("agentId", .text current.agentId), ("seconds", .number seconds)]⟩
  publishToSpace current.spaceId
    (.remoteSession current.spaceId current.id current.agentId .ended)

/-- `close`. -/
def close (sessionId : String) (reason : RemoteEndReason) (actorUserId : Option String)
    (context : Option RequestContext) : Service SessionView := do
  let current ← selectSession sessionId
  match current with
  | none => .raise sessionNotFound
  | some current =>
    if current.row.state = .ended then .done current
    else do
      let now ← newDate
      let ended ← updateSession sessionId (.ended now reason)
      closeRest current.row reason actorUserId context
      .done ended

/-- Why `expireStale` closes a session. -/
def staleReason (session : RemoteSessionRow) (lastHeartbeatAt : Option Date) (now : Date) :
    Option RemoteEndReason :=
  if session.state ≠ .active ∧ session.expiresAt ≤ now then some .connectTimeout
  else if session.state = .connecting ∧ now - session.issuedAt > remoteConnectTimeoutSeconds * 1000 then
    some .connectTimeout
  else if now - session.lastSeenAt > remoteIdleTimeoutSeconds * 1000 then some .idleTimeout
  else if session.connectedAt.any (now - · > remoteMaxDurationSeconds * 1000) then some .maxDuration
  else if ¬ online lastHeartbeatAt now then some .hostOffline
  else none

/-- The loop of `expireStale`. -/
def closeEach (now : Date) : List (RemoteSessionRow × Option Date) → Service Nat
  | [] => .done 0
  | (session, lastHeartbeatAt) :: rest => match staleReason session lastHeartbeatAt now with
    | none => closeEach now rest
    | some reason => do
      let _ ← close session.id reason none none
      let closed ← closeEach now rest
      .done (closed + 1)

/-- `expireStale`. -/
def expireStale : Service Nat := do
  let now ← newDate
  let candidates ← select .remoteSessions fun w =>
    ((w.remoteSessions.filter fun s => s.state.Live).take 200).map fun s =>
      (s, (findAgent s.agentId w).bind (·.lastHeartbeatAt))
  closeEach now candidates

/-- The loop of `endSessionsForDevice`. -/
def revokeEach : List String → Service Unit
  | [] => .done ()
  | id :: rest => do
    let _ ← close id .permissionRevoked none none
    revokeEach rest

/-- `endSessionsForDevice`. -/
def endSessionsForDevice (deviceId : String) : Service Nat := do
  let ids ← select .remoteSessions fun w =>
    (w.remoteSessions.filter fun s => s.viewerDeviceId = some deviceId ∧ s.state.Live).map (·.id)
  revokeEach ids
  .done ids.length

/-- Whoever ends a session and is not its viewer has to be the Space's owner. -/
def requireEnder (userId : String) (session : RemoteSessionRow) : Service Unit :=
  if session.viewerId = userId then .done () else requireOwner userId session.spaceId none

/-- `endSession`. -/
def endSession (userId sessionId : String) (reason : RemoteEndReason)
    (context : Option RequestContext) : Service RemoteSessionSummary := do
  let session ← selectSession sessionId
  match session with
  | none => .raise sessionNotFound
  | some session => do
    requireEnder userId session.row
    let ended ← close session.row.id reason (some session.row.viewerId) context
    .done (ended.summary userId)

/-! ## Starting a session -/

/-- Every permission that a mode needs, one after the other. -/
def requirePermissions (userId spaceId : String) (context : RequestContext) :
    List String → Service Unit
  | [] => .done ()
  | permission :: rest => do
    let _ ← requirePermission userId spaceId permission (some context)
    requirePermissions userId spaceId context rest

/-- `verifyStepUp`. -/
def verifyStepUp (hashSecret : String → String) (userId spaceId : String)
    (input : CreateRemoteSessionRequest) (context : RequestContext) : Service Unit :=
  match input.stepUpChallengeId, input.stepUpCode with
  | some challengeId, some code => do
    let result ← consume hashSecret challengeId code "step_up"
    if result.toOption.any (·.userId = userId) then .done ()
    else do
      record ⟨"remote.session.denied", "denied", some userId, none, none, some spaceId, some context,
        [("reason", .text "step_up_failed"), ("mode", .text input.mode.text)]⟩
      .raise (forbidden "That confirmation code is not correct.")
  | _, _ => .raise (forbidden
    "Confirm this with the six-digit code we sent to your email before taking control.")

/-- The step-up that only a control session needs. -/
def stepUpFor (hashSecret : String → String) (userId spaceId : String)
    (input : CreateRemoteSessionRequest) (context : RequestContext) : Service Unit :=
  if input.mode = .control then verifyStepUp hashSecret userId spaceId input context else .done ()

/-- What `createSession` does with the session that it finds. -/
def replaceExisting (userId deviceId spaceId : String) (context : RequestContext) :
    Option RemoteSessionRow → Service Unit
  | none => .done ()
  | some existing =>
    if existing.viewerId ≠ userId then do
      record ⟨"remote.session.denied", "denied", some userId, some deviceId, none, some spaceId,
        some context, [("reason", .text "already_in_use")]⟩
      .raise (conflict "Someone else is already connected to that computer.")
    else do
      let _ ← close existing.id .viewerLeft none none
      .done ()

/-- The row that `createSession` inserts. -/
def newRemoteSession (userId deviceId spaceId : String) (input : CreateRemoteSessionRequest)
    (agentId id nonce : String) (now created : Date) : RemoteSessionRow :=
  { id := id
    spaceId := spaceId
    agentId := agentId
    viewerId := userId
    viewerDeviceId := some deviceId
    mode := input.mode
    state := .pending
    nonce := nonce
    issuedAt := now
    expiresAt := now + remoteGrantTtlSeconds * 1000
    connectedAt := none
    endedAt := none
    endReason := none
    strategy := "unknown"
    lastSeenAt := now
    refusedInputs := 0
    createdAt := created }

/-- `remoteSession.create`. -/
def insertSession (row : RemoteSessionRow) : Service SessionView :=
  .stmt (.insertSession row) fun w =>
    if w.remoteSessions.any fun s => s.id = row.id ∨ s.nonce = row.nonce then .raise databaseFault
    else .done (viewOf w row)

/-- The end of `createSession`: the new row. -/
def startSession (ice : Ice) (userId deviceId spaceId : String) (input : CreateRemoteSessionRequest)
    (context : RequestContext) (agentId : String) : Service RemoteSessionTicket := do
  let now ← newDate
  let nonce ← randomNonce
  let id ← randomUUID
  let created ← newDate
  let session ← insertSession
    (newRemoteSession userId deviceId spaceId input agentId id nonce now created)
  record ⟨"remote.session.started", "success", some userId, some deviceId, none, some spaceId,
    some context, [("mode", .text input.mode.text), ("agentId", .text agentId), ("sessionId", .text id)]⟩
  publishToSpace spaceId (.remoteSession spaceId id agentId .pending)
  .done ⟨session.summary userId, ice.serversFor id now, ice.relayAvailable⟩

/-- `createSession`. -/
def createSession (hashSecret : String → String) (ice : Ice) (userId deviceId spaceId : String)
    (input : CreateRemoteSessionRequest) (context : RequestContext) : Service RemoteSessionTicket := do
  requirePermissions userId spaceId context input.mode.permissions
  let agent ← select .agents (findAgent input.agentId)
  match agent with
  | none => .raise (notFound "That computer was not found in this Space.")
  | some agent =>
    if agent.spaceId ≠ spaceId ∨ agent.deviceRevokedAt.isSome then
      .raise (notFound "That computer was not found in this Space.")
    else do
      let seen ← newDate
      Prog.raiseIf (¬ online agent.lastHeartbeatAt seen)
        (conflict "That computer is not online. Turn it on from Device Power and Wake first.")
      stepUpFor hashSecret userId spaceId input context
      let _ ← expireStale
      let existing ← select .remoteSessions fun w =>
        w.remoteSessions.find? fun s => s.agentId = agent.id ∧ s.state.Live
      replaceExisting userId deviceId spaceId context existing
      startSession ice userId deviceId spaceId input context agent.id

/-! ## Reading sessions -/

/-- `listSessions`. -/
def listSessions (userId spaceId : String) (limit : Int) : Service (List RemoteSessionSummary) := do
  let _ ← requirePermission userId spaceId "devices.observe" none
  let _ ← expireStale
  let rows ← select .remoteSessions fun w =>
    ((List.insertionSort (fun s t => t.createdAt ≤ s.createdAt)
      (w.remoteSessions.filter (·.spaceId = spaceId))).take (min (max limit 1) 100).toNat).map (viewOf w)
  .done (rows.map (·.summary userId))

/-- `getSession`. -/
def getSession (userId sessionId : String) : Service RemoteSessionSummary := do
  let session ← requireViewerSession userId sessionId
  .done (session.summary userId)

/-- `heartbeat`. -/
def heartbeat (userId sessionId : String) : Service RemoteSessionSummary := do
  let session ← requireViewerSession userId sessionId
  if session.row.state = .ended then .done (session.summary userId)
  else do
    let now ← newDate
    let updated ← updateSession sessionId (.seen now)
    .done (updated.summary userId)

/-! ## Signalling -/

/-- The session of a call, for the party that makes it. -/
def requirePartySession (sender : SignalRole) (ownerId sessionId : String) : Service SessionView :=
  match sender with
  | .viewer => requireViewerSession ownerId sessionId
  | .host => requireHostSession ownerId sessionId none

/-- The session moves on when the peers talk. -/
def markConnecting (session : RemoteSessionRow) (kind : SignalKind) : Service Unit :=
  if session.state = .pending ∧ (kind = .offer ∨ kind = .answer) then do
    let _ ← updateSession session.id .connecting
    .done ()
  else .done ()

/-- `appendSignal`. -/
def appendSignal (sessionId : String) (sender : SignalRole) (kind payload : String) : Service Nat := do
  let id ← randomUUID
  let now ← newDate
  .stmt (.appendSignal id sessionId sender kind payload now) fun w =>
    if w.remoteSignals.any (·.id = id) then .raise databaseFault
    else .done (nextSeq sessionId w.remoteSignals)

/-- `postSignal` once the session is found to be live. -/
def postToSession (sender : SignalRole) (session : RemoteSessionRow) (input : RemoteSignalRequest) :
    Service Nat :=
  if input.kind = .bye then do
    let _ ← close session.id (if sender = .viewer then .viewerLeft else .hostEnded) none none
    .done 0
  else do
    markConnecting session input.kind
    let seq ← appendSignal session.id sender input.kind.text input.payload
    publishToSpace session.spaceId (.remoteSignal session.spaceId session.id sender seq)
    .done seq

/-- `postSignal`. -/
def postSignal (sender : SignalRole) (sessionId : String) (input : RemoteSignalRequest)
    (ownerId : String) : Service Nat := do
  let session ← requirePartySession sender ownerId sessionId
  if session.row.state = .ended then .raise (conflict "That session has ended.")
  else do
    let now ← newDate
    if session.row.expiresAt ≤ now ∧ session.row.state = .pending then do
      let _ ← close session.row.id .connectTimeout none none
      .raise (conflict "That session expired before it connected.")
    else postToSession sender session.row input

/-- The other party. -/
def SignalRole.other : SignalRole → SignalRole
  | viewer => host
  | host => viewer

/-- The messages that a party has not collected yet, in order. -/
def waiting (sessionId : String) (sender : SignalRole) (w : World) : List RemoteSignalRow :=
  (List.insertionSort (fun s t => s.seq ≤ t.seq) (w.remoteSignals.filter fun s =>
    s.sessionId = sessionId ∧ s.sender = sender ∧ s.deliveredAt = none)).take 200

/-- A message as it is answered. -/
def RemoteSignalRow.answer (s : RemoteSignalRow) : RemoteSignal :=
  ⟨s.seq, s.sessionId, s.sender, s.kind, s.payload, toISOString s.createdAt⟩

/-- Mark messages as delivered, if there are any. -/
def markDelivered (rows : List RemoteSignalRow) : Service Unit :=
  if rows = [] then .done ()
  else do
    let now ← newDate
    Prog.perform (.markDelivered (rows.map (·.id)) now) fun _ => ()

/-- `collectSignals`. -/
def collectSignals (forRole : SignalRole) (sessionId ownerId : String) :
    Service (List RemoteSignal) := do
  let session ← requirePartySession forRole ownerId sessionId
  let rows ← select .remoteSignals (waiting session.row.id forRole.other)
  markDelivered rows
  .done (rows.map (·.answer))

/-! ## The agent side -/

/-- The grant of a session. -/
def grantFor (s : RemoteSessionRow) : GrantPayload :=
  { sessionId := s.id
    spaceId := s.spaceId
    agentId := s.agentId
    mode := s.mode.text
    requestedBy := s.viewerId
    issuedAt := toISOString s.issuedAt
    expiresAt := toISOString s.expiresAt
    nonce := s.nonce }

/-- `pendingGrantsFor`. -/
def pendingGrantsFor (signer : Signer) (principal : AgentPrincipal) : Service (List SignedGrant) := do
  let agent ← select .agents (findAgentByDevice principal.deviceId)
  match agent with
  | none => .done []
  | some agent => do
    let _ ← expireStale
    let sessions ← select .remoteSessions fun w =>
      (List.insertionSort (fun s t => s.createdAt ≤ t.createdAt) (w.remoteSessions.filter fun s =>
        s.agentId = agent.id ∧ (s.state = .pending ∨ s.state = .connecting))).take 5
    .done (sessions.map fun s => signer.signGrant (grantFor s))

/-- `markConnected`. -/
def markConnected (principal : AgentPrincipal) (sessionId : String)
    (localType remoteType : Option String) : Service Unit := do
  let session ← requireHostSession principal.userId sessionId (some principal.deviceId)
  Prog.raiseIf (session.row.state = .ended) (conflict "That session has ended.")
  let now ← newDate
  let _ ← updateSession session.row.id (.active now (session.row.connectedAt.getD now)
    (strategyFromCandidateTypes localType remoteType))
  publishToSpace session.row.spaceId
    (.remoteSession session.row.spaceId session.row.id session.row.agentId .active)

/-- `reportViolation`. -/
def reportViolation (principal : AgentPrincipal) (sessionId : String) (count : Nat) : Service Unit := do
  let session ← requireHostSession principal.userId sessionId (some principal.deviceId)
  let _ ← updateSession session.row.id (.refused count)
  record ⟨"remote.input.refused", "denied", some session.row.viewerId, none, none,
    some session.row.spaceId, none, [("sessionId", .text session.row.id),
      ("agentId", .text session.row.agentId), ("count", .number count)]⟩

/-! ## The machine -/

/-- A call of the remote service: those of the viewer's controller, of the agent's controller, and of
a device revocation. -/
inductive RemoteRequest where
  | createSession (userId deviceId spaceId : String) (input : CreateRemoteSessionRequest)
    (context : RequestContext)
  | listSessions (userId spaceId : String) (limit : Int)
  | getSession (userId sessionId : String)
  | heartbeat (userId sessionId : String)
  | signal (userId sessionId : String) (input : RemoteSignalRequest)
  | signals (userId sessionId : String)
  | endSession (userId sessionId : String) (reason : RemoteEndReason) (context : Option RequestContext)
  | grants (principal : AgentPrincipal)
  | hostSignal (principal : AgentPrincipal) (sessionId : String) (input : RemoteSignalRequest)
  | hostSignals (principal : AgentPrincipal) (sessionId : String)
  | connected (principal : AgentPrincipal) (sessionId : String) (localType remoteType : Option String)
  | violation (principal : AgentPrincipal) (sessionId : String) (count : Nat)
  | revoke (deviceId : String)
  deriving DecidableEq, Repr

/-- What a call answers. -/
inductive RemoteResponse where
  | ticket (t : RemoteSessionTicket)
  | summaries (ss : List RemoteSessionSummary)
  | summary (s : RemoteSessionSummary)
  | posted (seq : Nat)
  | signals (ss : List RemoteSignal)
  | grants (gs : List SignedGrant)
  | ok
  | ended (count : Nat)
  deriving DecidableEq, Repr

/-- What each call runs. -/
def remoteHandler (signer : Signer) (hashSecret : String → String) (ice : Ice) :
    RemoteRequest → Service RemoteResponse
  | .createSession userId deviceId spaceId input context =>
    .ticket <$> Api.createSession hashSecret ice userId deviceId spaceId input context
  | .listSessions userId spaceId limit => .summaries <$> Api.listSessions userId spaceId limit
  | .getSession userId sessionId => .summary <$> Api.getSession userId sessionId
  | .heartbeat userId sessionId => .summary <$> Api.heartbeat userId sessionId
  | .signal userId sessionId input => .posted <$> postSignal .viewer sessionId input userId
  | .signals userId sessionId => .signals <$> collectSignals .viewer sessionId userId
  | .endSession userId sessionId reason context =>
    .summary <$> Api.endSession userId sessionId reason context
  | .grants principal => .grants <$> pendingGrantsFor signer principal
  | .hostSignal principal sessionId input =>
    .posted <$> postSignal .host sessionId input principal.userId
  | .hostSignals principal sessionId => .signals <$> collectSignals .host sessionId principal.userId
  | .connected principal sessionId localType remoteType =>
    (fun _ => .ok) <$> markConnected principal sessionId localType remoteType
  | .violation principal sessionId count =>
    (fun _ => .ok) <$> reportViolation principal sessionId count
  | .revoke deviceId => .ended <$> endSessionsForDevice deviceId

/-- Any number of calls of the remote service, statement by statement. -/
def remoteMachine (signer : Signer) (hashSecret : String → String) (ice : Ice) :
    Machine World Write HttpException RemoteRequest Outside RemoteResponse :=
  ⟨remoteHandler signer hashSecret ice, exec, outside⟩

end Api
