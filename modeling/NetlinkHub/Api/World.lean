import NetlinkHub.Concurrent.Machine
import NetlinkHub.Concurrent.Table
import NetlinkHub.Go.Time

/-! # The control plane's database

The tables the power and remote services work on, and the statements they are made of. A service call
is a program of such statements; each is atomic, and other calls may run between any two. The tables
these services only read are one directory, which the environment may replace at any time; the
identifiers in it are generated texts of one line. -/

namespace Api

open Concurrent (Prog)
open Table (Op)

/-- A JavaScript `Date`: milliseconds since 1970. -/
abbrev Date := Int

/-- `toISOString`. Years beyond four digits carry a sign and have six. -/
def toISOString (d : Date) : String :=
  let (year, month, day) := Time.civil (d / 86400000)
  let ofDay := d % 86400000
  let years := if 0 ≤ year ∧ year ≤ 9999 then Time.appendInt year 4
    else (if year < 0 then '-' else '+') :: Time.appendInt year.natAbs 6
  String.ofList (years ++ '-' :: Time.appendInt month 2 ++ '-' :: Time.appendInt day 2 ++
    'T' :: Time.appendInt (ofDay / 3600000) 2 ++ ':' :: Time.appendInt (ofDay / 60000 % 60) 2 ++
    ':' :: Time.appendInt (ofDay / 1000 % 60) 2 ++ '.' :: Time.appendInt (ofDay % 1000) 3 ++ ['Z'])

/-- A text of one line. -/
def OneLine (s : String) : Prop := '\n' ∉ s.toList

instance : DecidablePred OneLine := fun s => inferInstanceAs (Decidable ('\n' ∉ s.toList))

/-- A generated text: an identifier or a nonce. -/
structure Token where
  text : String
  oneLine : OneLine text

/-! ## Rows -/

/-- `POWER_ACTIONS`. -/
inductive PowerAction where
  | wake
  | restart
  | shutdown
  | lock
  | sleep
  | cancel
  deriving DecidableEq, Repr

/-- The text of an action. -/
def PowerAction.text : PowerAction → String
  | wake => "power.wake"
  | restart => "power.restart"
  | shutdown => "power.shutdown"
  | lock => "power.lock"
  | sleep => "power.sleep"
  | cancel => "power.cancel"

/-- `PowerCommandState`. -/
inductive PowerCommandState where
  | pending
  | countdown
  | sent
  | acknowledged
  | succeeded
  | failed
  | cancelled
  | expired
  deriving DecidableEq, Repr

/-- An agent with its device. -/
structure AgentRow where
  id : String
  spaceId : String
  deviceId : String
  deviceName : String
  deviceRevokedAt : Option Date
  lastHeartbeatAt : Option Date
  macAddress : Option String
  localIpAddress : Option String
  isWakeHelper : Bool
  wakeOnLanReady : Bool
  deriving DecidableEq, Repr

/-- A membership. -/
structure MemberRow where
  spaceId : String
  userId : String
  role : String
  permissions : List String
  suspended : Bool
  expiresAt : Option Date
  deriving DecidableEq, Repr

/-- A Space and its owner. -/
structure SpaceRow where
  id : String
  ownerId : String
  deriving DecidableEq, Repr

/-- A user and the name others see. -/
structure UserRow where
  id : String
  name : String
  deriving DecidableEq, Repr

/-- A six-digit code, stored as a hash. -/
structure ChallengeRow where
  id : String
  userId : String
  purpose : String
  codeHash : String
  expiresAt : Date
  consumedAt : Option Date
  attempts : Nat
  maxAttempts : Nat
  deriving DecidableEq, Repr

/-- A power command. -/
structure PowerCommandRow where
  id : String
  spaceId : String
  targetAgentId : String
  helperAgentId : Option String
  action : PowerAction
  state : PowerCommandState
  requestedById : String
  requestedByDeviceId : String
  nonce : String
  issuedAt : Date
  expiresAt : Date
  executeAt : Option Date
  deliveredAt : Option Date
  acknowledgedAt : Option Date
  completedAt : Option Date
  cancelledAt : Option Date
  detail : Option String
  createdAt : Date
  deriving DecidableEq, Repr

/-- `RemoteSessionMode`. -/
inductive RemoteSessionMode where
  | view
  | control
  deriving DecidableEq, Repr

/-- The text of a mode. -/
def RemoteSessionMode.text : RemoteSessionMode → String
  | view => "view"
  | control => "control"

/-- `RemoteSessionState`. -/
inductive RemoteSessionState where
  | pending
  | connecting
  | active
  | ended
  deriving DecidableEq, Repr

/-- `RemoteEndReason`. -/
inductive RemoteEndReason where
  | viewerLeft
  | hostEnded
  | hostOffline
  | idleTimeout
  | maxDuration
  | connectTimeout
  | permissionRevoked
  | failed
  deriving DecidableEq, Repr

/-- The text of a reason. -/
def RemoteEndReason.text : RemoteEndReason → String
  | viewerLeft => "viewer_left"
  | hostEnded => "host_ended"
  | hostOffline => "host_offline"
  | idleTimeout => "idle_timeout"
  | maxDuration => "max_duration"
  | connectTimeout => "connect_timeout"
  | permissionRevoked => "permission_revoked"
  | failed => "failed"

/-- A remote session. -/
structure RemoteSessionRow where
  id : String
  spaceId : String
  agentId : String
  viewerId : String
  viewerDeviceId : Option String
  mode : RemoteSessionMode
  state : RemoteSessionState
  nonce : String
  issuedAt : Date
  expiresAt : Date
  connectedAt : Option Date
  endedAt : Option Date
  endReason : Option RemoteEndReason
  strategy : String
  lastSeenAt : Date
  refusedInputs : Nat
  createdAt : Date
  deriving DecidableEq, Repr

/-- `SignalRole`. -/
inductive SignalRole where
  | viewer
  | host
  deriving DecidableEq, Repr

/-- A signalling message. -/
structure RemoteSignalRow where
  id : String
  sessionId : String
  seq : Nat
  sender : SignalRole
  kind : String
  payload : String
  createdAt : Date
  deliveredAt : Option Date
  deriving DecidableEq, Repr

/-- A value in the metadata of an audit record. -/
inductive Meta where
  | text (s : String)
  | number (n : Int)
  | flag (b : Bool)
  | null
  deriving DecidableEq, Repr

/-- `RequestContext`. -/
structure RequestContext where
  ipAddress : Option String
  userAgent : Option String
  approximateLocation : Option String
  deriving DecidableEq, Repr

/-- An audit record. -/
structure AuditRow where
  action : String
  outcome : String
  actorUserId : Option String
  actorDeviceId : Option String
  targetDeviceId : Option String
  spaceId : Option String
  context : Option RequestContext
  metadata : List (String × Meta)
  deriving DecidableEq, Repr

/-- The live events of the two services. -/
inductive LiveEvent where
  | powerResult (spaceId agentId commandId : String) (succeeded : Bool)
  | remoteSignal (spaceId sessionId : String) (sender : SignalRole) (seq : Nat)
  | remoteSession (spaceId sessionId agentId : String) (state : RemoteSessionState)
  deriving DecidableEq, Repr

/-! ## Audit -/

/-- `FORBIDDEN_METADATA_KEYS`. -/
def forbiddenMetadataKeys : List String :=
  ["password", "code", "otp", "token", "secret", "privatekey", "private_key", "authorization",
    "cookie", "content", "body"]

/-- The UTF-16 units of a character. -/
def utf16Units (c : Char) : Nat := if c.toNat < 0x10000 then 1 else 2

/-- The first `n` UTF-16 units of a text. A pair cut in half is left out. -/
def sliceUnits (n : Nat) : List Char → List Char
  | [] => []
  | c :: cs => if utf16Units c ≤ n then c :: sliceUnits (n - utf16Units c) cs else []

/-- `slice(0, n)`. -/
def slice (n : Nat) (s : String) : String := String.ofList (sliceUnits n s.toList)

/-- `scrubMetadata`. -/
def scrubMetadata (metadata : List (String × Meta)) : List (String × Meta) :=
  metadata.filterMap fun (key, value) =>
    if forbiddenMetadataKeys.any fun forbidden =>
        forbidden.toList <:+: key.toList.map Char.toLower then none
    else match value with
      | .text s => some (key, .text (slice 256 s))
      | value => some (key, value)

/-! ## The database and its statements -/

/-- The tables that these services only read. -/
structure Directory where
  agents : List AgentRow
  members : List MemberRow
  spaces : List SpaceRow
  users : List UserRow
  agentIds : ∀ a ∈ agents, OneLine a.id ∧ OneLine a.spaceId ∧ OneLine a.deviceId
  memberIds : ∀ m ∈ members, OneLine m.userId

/-- Everything a statement can read or write. -/
structure World where
  directory : Directory
  challenges : List ChallengeRow
  powerCommands : List PowerCommandRow
  remoteSessions : List RemoteSessionRow
  remoteSignals : List RemoteSignalRow
  audit : List AuditRow
  /-- `publishToSpace`: the events and their Spaces. -/
  published : List (String × LiveEvent)
  clock : Date
  /-- The next `randomUUID()`. -/
  uuid : Token
  /-- The next `randomBytes(18)`. -/
  random : Token

/-- The tables, for statements that only read. -/
inductive TableName where
  | agents
  | members
  | spaces
  | challenges
  | powerCommands
  | remoteSessions
  | remoteSignals
  deriving DecidableEq, Repr

/-- An update of a remote session. -/
inductive SessionChange where
  | ended (now : Date) (reason : RemoteEndReason)
  | connecting
  | active (now connectedAt : Date) (strategy : String)
  | seen (now : Date)
  | refused (count : Nat)
  deriving DecidableEq, Repr

/-- The row after an update. -/
def SessionChange.apply : SessionChange → RemoteSessionRow → RemoteSessionRow
  | ended now reason, s => { s with state := .ended, endedAt := some now, endReason := some reason }
  | connecting, s => { s with state := .connecting }
  | active now connectedAt strategy, s =>
    { s with state := .active, connectedAt := some connectedAt, lastSeenAt := now, strategy := strategy }
  | seen now, s => { s with lastSeenAt := now }
  | refused count, s => { s with refusedInputs := s.refusedInputs + count }

/-- What a statement does to the database. -/
inductive Write where
  /-- A read, also one with `include`. -/
  | select (table : TableName)
  /-- A reading of the clock. -/
  | clock
  /-- A reading of the random source. -/
  | random
  | challenges (op : Op ChallengeRow)
  | powerCommands (op : Op PowerCommandRow)
  /-- Identifiers and nonces are unique. -/
  | insertSession (row : RemoteSessionRow)
  | updateSession (id : String) (change : SessionChange)
  | deleteSignals (sessionId : String)
  | markDelivered (ids : List String) (now : Date)
  /-- The transaction of `appendSignal`: it holds the lock on the session's row. -/
  | appendSignal (id sessionId : String) (sender : SignalRole) (kind payload : String) (now : Date)
  /-- An audit record, before it is scrubbed. -/
  | audit (row : AuditRow)
  | publish (spaceId : String) (event : LiveEvent)

/-- `(last?.seq ?? 0) + 1`. -/
def nextSeq (sessionId : String) (signals : List RemoteSignalRow) : Nat :=
  ((signals.filter (·.sessionId = sessionId)).map (·.seq)).foldr max 0 + 1

/-- The database after a statement. -/
def exec : Write → World → World
  | .select _, w => w
  | .clock, w => w
  | .random, w => w
  | .challenges op, w => { w with challenges := op.apply w.challenges }
  | .powerCommands op, w => { w with powerCommands := op.apply w.powerCommands }
  | .insertSession row, w => { w with remoteSessions :=
      (Op.insert (fun s => s.id = row.id ∨ s.nonce = row.nonce) row).apply w.remoteSessions }
  | .updateSession id change, w => { w with remoteSessions :=
      (Op.update (·.id = id) change.apply).apply w.remoteSessions }
  | .deleteSignals sessionId, w => { w with remoteSignals :=
      (Op.delete (·.sessionId = sessionId)).apply w.remoteSignals }
  | .markDelivered ids now, w => { w with remoteSignals :=
      (Op.update (·.id ∈ ids) fun s => { s with deliveredAt := some now }).apply w.remoteSignals }
  | .appendSignal id sessionId sender kind payload now, w =>
    let seq := nextSeq sessionId w.remoteSignals
    { w with remoteSignals := (Op.insert (·.id = id)
        ⟨id, sessionId, seq, sender, kind, payload, now, none⟩).apply w.remoteSignals }
  | .audit row, w => { w with audit := w.audit ++ [{ row with metadata := scrubMetadata row.metadata }] }
  | .publish spaceId event, w => { w with published := w.published ++ [(spaceId, event)] }

/-- What the rest of the control plane, the clock and the random source do in between. -/
inductive Outside where
  | directory (d : Directory)
  | challenges (rows : List ChallengeRow)
  | clock (now : Date)
  | draw (uuid random : Token)

/-- The database after a change from outside. -/
def outside : Outside → World → World
  | .directory d, w => { w with directory := d }
  | .challenges rows, w => { w with challenges := rows }
  | .clock now, w => { w with clock := now }
  | .draw uuid random, w => { w with uuid := uuid, random := random }

/-- An exception with its HTTP status. -/
structure HttpException where
  status : Nat
  message : String
  deriving DecidableEq, Repr

/-- `NotFoundException`. -/
def notFound (message : String) : HttpException := ⟨404, message⟩

/-- `ConflictException`. -/
def conflict (message : String) : HttpException := ⟨409, message⟩

/-- `ForbiddenException`. -/
def forbidden (message : String) : HttpException := ⟨403, message⟩

/-- `BadRequestException`. -/
def badRequest (message : String) : HttpException := ⟨400, message⟩

/-- What a fault of the database becomes. -/
def databaseFault : HttpException := ⟨500, "Internal server error"⟩

/-- A call of a service. -/
abbrev Service (α : Type) := Prog World Write HttpException α

/-- A `SELECT`. -/
def select {α : Type} (table : TableName) (answer : World → α) : Service α :=
  .perform (.select table) answer

/-- `new Date()`. -/
def newDate : Service Date := .perform .clock World.clock

/-- `randomUUID()`. -/
def randomUUID : Service String := .perform .random fun w => w.uuid.text

/-- `randomBytes(18).toString('base64url')`. -/
def randomNonce : Service String := .perform .random fun w => w.random.text

/-- `publishToSpace`. -/
def publishToSpace (spaceId : String) (event : LiveEvent) : Service Unit :=
  .perform (.publish spaceId event) fun _ => ()

@[simp] theorem select_bind {α β : Type} (table : TableName) (answer : World → α) (f : α → Service β) :
    (select table answer >>= f) = .stmt (.select table) fun w => f (answer w) := rfl

@[simp] theorem newDate_bind {β : Type} (f : Date → Service β) :
    (newDate >>= f) = .stmt .clock fun w => f w.clock := rfl

@[simp] theorem randomUUID_bind {β : Type} (f : String → Service β) :
    (randomUUID >>= f) = .stmt .random fun w => f w.uuid.text := rfl

@[simp] theorem randomNonce_bind {β : Type} (f : String → Service β) :
    (randomNonce >>= f) = .stmt .random fun w => f w.random.text := rfl

@[simp] theorem publishToSpace_bind {β : Type} (spaceId : String) (event : LiveEvent)
    (f : Unit → Service β) :
    (publishToSpace spaceId event >>= f) = .stmt (.publish spaceId event) fun _ => f () := rfl

/-- The statement reads a table. -/
def Write.Reads (table : TableName) : Write → Prop
  | .select table' => table' = table
  | _ => False

instance (table : TableName) : DecidablePred (Write.Reads table) := fun w => by
  unfold Write.Reads
  split <;> infer_instance

/-- The statement leaves every table as it is, but for the audit log and the live events. It does not
record the end of a session. -/
def Write.Quiet : Write → Prop
  | .select _ => True
  | .clock => True
  | .random => True
  | .audit row => row.action ≠ "remote.session.ended"
  | .publish _ _ => True
  | _ => False

theorem quiet_audit {row : AuditRow} (h : row.action ≠ "remote.session.ended") :
    (Write.audit row).Quiet := h

end Api

example : Api.toISOString 1709164800123 = "2024-02-29T00:00:00.123Z" := by decide

example : Api.scrubMetadata [("stepUpCode", .text "123456"), ("reason", .text "x")] =
    [("reason", .text "x")] := by decide
