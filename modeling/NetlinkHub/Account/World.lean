import NetlinkHub.Api.Spaces

/-! # Devices, sessions and agents

The tables of the account services: users and their failed sign-ins, devices, refresh tokens, codes,
enrollment tokens, agents, the nonces of signed requests, and the open sockets of the live gateway. They
stand beside the tables of the power and remote services, whose programs run in this world unchanged
(`lift`). The clock does not go back. -/

namespace Account

open Api (AuditRow Date HttpException RequestContext Token)
open Concurrent (Prog)
open Table (Op)

/-! ## Rows -/

/-- A user. -/
structure UserRow where
  id : String
  name : String
  email : String
  passwordHash : String
  emailVerified : Bool
  createdAt : Date
  disabledAt : Option Date
  deriving DecidableEq, Repr

/-- A device. -/
structure DeviceRow where
  id : String
  userId : String
  installationId : String
  name : String
  platform : String
  kind : String
  osVersion : Option String
  appVersion : Option String
  publicKey : String
  trusted : Bool
  trustedAt : Option Date
  createdAt : Date
  lastSeenAt : Option Date
  revokedAt : Option Date
  approximateLocation : Option String
  lastIpAddress : Option String
  deriving DecidableEq, Repr

/-- A refresh token, stored as a hash. -/
structure RefreshTokenRow where
  id : String
  userId : String
  deviceId : String
  tokenHash : String
  familyId : String
  expiresAt : Date
  rotatedAt : Option Date
  revokedAt : Option Date
  revokedReason : Option String
  replacedById : Option String
  deriving DecidableEq, Repr

/-- A six-digit code for a user, and for the device that it signs in, stored as a hash. -/
structure ChallengeRow where
  id : String
  userId : String
  deviceId : Option String
  purpose : String
  codeHash : String
  expiresAt : Date
  consumedAt : Option Date
  attempts : Nat
  maxAttempts : Nat
  resendCount : Nat
  lastSentAt : Date
  pendingDeviceName : Option String
  deriving DecidableEq, Repr

/-- The failed sign-ins of a user. -/
structure AccountGuardRow where
  userId : String
  failures : Nat
  firstFailure : Date
  lastFailure : Date
  lockedUntil : Option Date
  deriving DecidableEq, Repr

/-- What `sendVerificationCode` is given. -/
structure VerificationMail where
  /-- `to`. -/
  recipient : String
  name : String
  code : String
  purpose : String
  deviceName : Option String
  approximateLocation : Option String
  expiresInMinutes : Nat
  deriving DecidableEq, Repr

/-- An enrollment token, stored as a hash, with the name of its Space. -/
structure EnrollmentTokenRow where
  id : String
  spaceId : String
  spaceName : String
  userId : String
  tokenHash : String
  expiresAt : Date
  usedAt : Option Date
  deriving DecidableEq, Repr

/-- An agent. -/
structure AgentRow where
  id : String
  spaceId : String
  deviceId : String
  status : String
  lastHeartbeatAt : Option Date
  macAddress : Option String
  localIpAddress : Option String
  isWakeHelper : Bool
  wakeOnLanReady : Bool
  deriving DecidableEq, Repr

/-- The nonce of a signed request. -/
structure RequestNonceRow where
  nonce : String
  scope : String
  expiresAt : Date
  deriving DecidableEq, Repr

/-- `Subscriber`: an open connection of the live gateway. -/
structure Subscriber where
  socket : Nat
  userId : String
  deviceId : String
  spaceIds : List String
  deriving DecidableEq, Repr

/-! ## The database and its statements -/

/-- Everything a statement can read or write. -/
structure World where
  /-- The tables of the power and remote services, the audit log, and the clock. -/
  api : Api.World
  users : List UserRow
  accountGuards : List AccountGuardRow
  devices : List DeviceRow
  refreshTokens : List RefreshTokenRow
  challenges : List ChallengeRow
  enrollmentTokens : List EnrollmentTokenRow
  agents : List AgentRow
  requestNonces : List RequestNonceRow
  /-- `subscribers`, in the memory of the gateway. -/
  subscribers : List Subscriber
  /-- `agent.status` events and their Spaces, each with the agent. -/
  statuses : List (String × String)
  /-- The messages that the mail transport has taken. -/
  outbox : List VerificationMail
  /-- The next `generateOtp()`. -/
  otp : String
  /-- The next `generateOpaqueToken()`. -/
  secret : String
  /-- The next `generateFamilyId()`. -/
  family : String
  /-- The next `Math.random()` is below 0.02. -/
  lucky : Bool
  /-- The rate limiter refuses the next hit. -/
  throttled : Bool
  /-- The database refuses the next nonce, whatever it is. -/
  refusesNonce : Bool
  /-- The mail transport refuses the next message. -/
  refusesMail : Bool

/-- The tables, for statements that only read. -/
inductive TableName where
  | users
  | accountGuards
  | devices
  | members
  | refreshTokens
  | challenges
  | enrollmentTokens
  | agents
  deriving DecidableEq, Repr

/-- What a statement does to the database. -/
inductive Write where
  /-- A statement of the power or remote service. -/
  | api (w : Api.Write)
  /-- A read, also one with `include`. -/
  | select (table : TableName)
  /-- `Date.now()`. -/
  | dateNow
  /-- A reading of the random source. -/
  | random
  | users (op : Op UserRow)
  /-- `accountGuard.upsert`: by the user, with what to create and what to update. -/
  | upsertGuard (row : AccountGuardRow) (data : AccountGuardRow → AccountGuardRow)
  /-- `accountGuard.deleteMany`: by the user. -/
  | deleteGuard (userId : String)
  /-- A password is compared with the hash of a user, if there is one. -/
  | verifyPassword (userId : Option String) (storedHash password : String)
  | sendMail (mail : VerificationMail)
  | devices (op : Op DeviceRow)
  | refreshTokens (op : Op RefreshTokenRow)
  | challenges (op : Op ChallengeRow)
  | enrollmentTokens (op : Op EnrollmentTokenRow)
  | agents (op : Op AgentRow)
  /-- `agent.upsert` at an enrollment: by the device, with what to create and when to update. -/
  | upsertAgent (row : AgentRow) (now : Date)
  /-- `requestNonce.create`. -/
  | createNonce (row : RequestNonceRow)
  /-- The sweep of old nonces. -/
  | sweepNonces (now : Date)
  | subscribe (subscriber : Subscriber)
  /-- `disconnectDevice`. -/
  | disconnectDevice (deviceId : String)
  | publishStatus (spaceId agentId : String)

/-- The database lets a nonce in: its primary key is not taken. -/
def World.admitsNonce (w : World) (nonce : String) : Bool :=
  ¬ w.refusesNonce ∧ ¬ w.requestNonces.any (·.nonce = nonce)

/-- The database after a statement. -/
def exec : Write → World → World
  | .api write, w => { w with api := Api.exec write w.api }
  | .select _, w => w
  | .dateNow, w => w
  | .random, w => w
  | .users op, w => { w with users := op.apply w.users }
  | .upsertGuard row data, w =>
    { w with accountGuards :=
        if w.accountGuards.any (·.userId = row.userId) then
          (Op.update (·.userId = row.userId) data).apply w.accountGuards
        else w.accountGuards ++ [row] }
  | .deleteGuard userId, w =>
    { w with accountGuards := (Op.delete (·.userId = userId)).apply w.accountGuards }
  | .verifyPassword .., w => w
  | .sendMail mail, w => { w with outbox := if w.refusesMail then w.outbox else w.outbox ++ [mail] }
  | .devices op, w => { w with devices := op.apply w.devices }
  | .refreshTokens op, w => { w with refreshTokens := op.apply w.refreshTokens }
  | .challenges op, w => { w with challenges := op.apply w.challenges }
  | .enrollmentTokens op, w => { w with enrollmentTokens := op.apply w.enrollmentTokens }
  | .agents op, w => { w with agents := op.apply w.agents }
  | .upsertAgent row now, w =>
    if w.agents.any (·.deviceId = row.deviceId) then
      { w with agents := (Op.update (·.deviceId = row.deviceId) fun a =>
          { a with spaceId := row.spaceId, status := row.status, lastHeartbeatAt := some now }).apply w.agents }
    else { w with agents := w.agents ++ [row] }
  | .createNonce row, w =>
    if w.admitsNonce row.nonce then { w with requestNonces := w.requestNonces ++ [row] } else w
  | .sweepNonces now, w =>
    { w with requestNonces := (Op.delete (·.expiresAt < now)).apply w.requestNonces }
  | .subscribe subscriber, w =>
    { w with subscribers := w.subscribers.filter (·.socket ≠ subscriber.socket) ++ [subscriber] }
  | .disconnectDevice deviceId, w =>
    { w with subscribers := w.subscribers.filter (·.deviceId ≠ deviceId) }
  | .publishStatus spaceId agentId, w => { w with statuses := w.statuses ++ [(spaceId, agentId)] }

/-- A statement on one table leaves the others as they are. -/
theorem exec_frame (w : Write) (s : World) :
    ((∀ op, w ≠ .users op) → (exec w s).users = s.users) ∧
      ((∀ op, w ≠ .devices op) → (exec w s).devices = s.devices) ∧
        ((∀ op, w ≠ .refreshTokens op) → (exec w s).refreshTokens = s.refreshTokens) ∧
          ((∀ op, w ≠ .challenges op) → (exec w s).challenges = s.challenges) := by
  cases w with
  | users op => exact ⟨fun h => absurd rfl (h op), fun _ => rfl, fun _ => rfl, fun _ => rfl⟩
  | devices op => exact ⟨fun _ => rfl, fun h => absurd rfl (h op), fun _ => rfl, fun _ => rfl⟩
  | refreshTokens op => exact ⟨fun _ => rfl, fun _ => rfl, fun h => absurd rfl (h op), fun _ => rfl⟩
  | challenges op => exact ⟨fun _ => rfl, fun _ => rfl, fun _ => rfl, fun h => absurd rfl (h op)⟩
  | upsertAgent row now =>
    simp only [exec]
    split <;> exact ⟨fun _ => rfl, fun _ => rfl, fun _ => rfl, fun _ => rfl⟩
  | createNonce row =>
    simp only [exec]
    split <;> exact ⟨fun _ => rfl, fun _ => rfl, fun _ => rfl, fun _ => rfl⟩
  | _ => exact ⟨fun _ => rfl, fun _ => rfl, fun _ => rfl, fun _ => rfl⟩

/-- Only a statement on the users touches them. -/
theorem users_exec {w : Write} (h : ∀ op, w ≠ .users op) (s : World) : (exec w s).users = s.users :=
  (exec_frame w s).1 h

/-- Only a statement on the devices touches them. -/
theorem devices_exec {w : Write} (h : ∀ op, w ≠ .devices op) (s : World) :
    (exec w s).devices = s.devices := (exec_frame w s).2.1 h

/-- Only a statement on the refresh tokens touches them. -/
theorem refreshTokens_exec {w : Write} (h : ∀ op, w ≠ .refreshTokens op) (s : World) :
    (exec w s).refreshTokens = s.refreshTokens := (exec_frame w s).2.2.1 h

/-- Only a statement on the codes touches them. -/
theorem challenges_exec {w : Write} (h : ∀ op, w ≠ .challenges op) (s : World) :
    (exec w s).challenges = s.challenges := (exec_frame w s).2.2.2 h

/-- The statement changes what sockets there are. -/
def Write.OnSockets : Write → Prop
  | .subscribe _ => True
  | .disconnectDevice _ => True
  | _ => False

/-- Only a statement on the sockets touches them. -/
theorem subscribers_exec {w : Write} (h : ¬ w.OnSockets) (s : World) :
    (exec w s).subscribers = s.subscribers := by
  cases w with
  | subscribe subscriber => exact absurd trivial h
  | disconnectDevice deviceId => exact absurd trivial h
  | upsertAgent row now =>
    simp only [exec]
    split <;> rfl
  | createNonce row =>
    simp only [exec]
    split <;> rfl
  | _ => rfl

/-- Only a statement of the power or remote service touches its tables. -/
theorem api_exec {w : Write} (h : ∀ w', w ≠ .api w') (s : World) : (exec w s).api = s.api := by
  cases w with
  | api w' => exact absurd rfl (h w')
  | upsertAgent row now =>
    simp only [exec]
    split <;> rfl
  | createNonce row =>
    simp only [exec]
    split <;> rfl
  | _ => rfl

/-- No statement makes the random source go on. -/
theorem uuid_exec (w : Write) (s : World) : (exec w s).api.uuid = s.api.uuid := by
  cases w with
  | api write => cases write <;> rfl
  | upsertAgent row now =>
    simp only [exec]
    split <;> rfl
  | createNonce row =>
    simp only [exec]
    split <;> rfl
  | _ => rfl

/-- A call of an account service. -/
abbrev Service (α : Type) := Prog World Write HttpException α

/-- A `SELECT`. -/
def select {α : Type} (table : TableName) (answer : World → α) : Service α :=
  .perform (.select table) answer

/-- `Date.now()`. -/
def dateNow : Service Date := .perform .dateNow fun w => w.api.clock

/-- A program of the power or remote service. -/
def lift {α : Type} (p : Api.Service α) : Service α := p.lift World.api .api

/-- `new Date()`. -/
def newDate : Service Date := lift Api.newDate

/-- `randomUUID()`. -/
def randomUUID : Service String := lift Api.randomUUID

/-- `AuditService.record`. -/
def record (row : AuditRow) : Service Unit := lift (Api.record row)

/-- `device.update`: the row after the update. -/
def updateDevice (id : String) (data : DeviceRow → DeviceRow) : Service DeviceRow :=
  .stmt (.devices (.update (·.id = id) data)) fun w => match w.devices.find? (·.id = id) with
    | none => .raise Api.databaseFault
    | some row => .done (data row)

theorem updateDevice_bind {α : Type} (id : String) (data : DeviceRow → DeviceRow) (f : DeviceRow → Service α) :
    (updateDevice id data >>= f) = .stmt (.devices (.update (·.id = id) data)) fun w =>
      match w.devices.find? (·.id = id) with
      | none => .raise Api.databaseFault
      | some row => f (data row) := by
  unfold updateDevice
  rw [Prog.stmt_bind]
  congr 1
  funext w
  cases w.devices.find? (·.id = id) with
  | none => rfl
  | some row => rfl

/-- Rows that cannot stand beside a device: identifiers, keys, and installations of a user are unique. -/
def DeviceRow.Clashes (row d : DeviceRow) : Bool :=
  d.id = row.id ∨ d.publicKey = row.publicKey ∨
    d.userId = row.userId ∧ d.installationId = row.installationId

/-- `device.create`. -/
def createDevice (row : DeviceRow) : Service DeviceRow :=
  .stmt (.devices (.insert row.Clashes row)) fun w =>
    if w.devices.any row.Clashes then .raise Api.databaseFault else .done row

/-- The exception of a request that is not authenticated. -/
def unauthorized (message : String) : HttpException := ⟨401, message⟩

/-- The exception of too many requests. -/
def tooManyRequests (message : String) : HttpException := ⟨429, message⟩

@[simp] theorem select_bind {α β : Type} (table : TableName) (answer : World → α)
    (f : α → Service β) :
    (select table answer >>= f) = .stmt (.select table) fun w => f (answer w) := rfl

@[simp] theorem dateNow_bind {β : Type} (f : Date → Service β) :
    (dateNow >>= f) = .stmt .dateNow fun w => f w.api.clock := rfl

@[simp] theorem newDate_bind {β : Type} (f : Date → Service β) :
    (newDate >>= f) = .stmt (.api .clock) fun w => f w.api.clock := rfl

@[simp] theorem randomUUID_bind {β : Type} (f : String → Service β) :
    (randomUUID >>= f) = .stmt (.api .random) fun w => f w.api.uuid.text := rfl

@[simp] theorem record_bind {β : Type} (row : AuditRow) (f : Unit → Service β) :
    (record row >>= f) = .stmt (.api (.audit row)) fun _ => f () := rfl

end Account
