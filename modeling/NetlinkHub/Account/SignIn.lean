import NetlinkHub.Account.Agents
import NetlinkHub.Account.Challenges

/-! # Signing in

`AuthService` and the guard of accounts: a registration that is confirmed by an emailed code, a sign-in by
password that is bound to a device, and a count of failed sign-ins that cools an account off. -/

namespace Account

open Api (Date HttpException RequestContext badRequest)
open Concurrent (Prog)

/-- Argon2id: hashing with a salt, comparing, and telling a hash below the current policy. -/
structure Passwords where
  hash : String → String → String
  verify : String → String → Bool
  needsRehash : String → Bool

/-- What `AuthService` takes from the platform and the configuration. -/
structure AuthService where
  passwords : Passwords
  jwt : Jwt
  sessions : SessionConfig
  hashSecret : String → String
  /-- `EXPOSE_DEV_OTP`. -/
  exposeDevCode : Bool

/-! ## The guard of accounts -/

namespace AccountGuardService

/-- `THRESHOLD`. -/
def threshold : Nat := 5

/-- `BASE_LOCK_SECONDS`. -/
def baseLockSeconds : Nat := 30

/-- `MAX_LOCK_SECONDS`. -/
def maxLockSeconds : Nat := 15 * 60

/-- `DECAY_SECONDS`. -/
def decaySeconds : Nat := 60 * 60

/-- `accountGuard.findUnique`. -/
def findGuard (userId : String) (w : World) : Option AccountGuardRow :=
  w.accountGuards.find? (·.userId = userId)

/-- The whole seconds until a lock ends, or zero. -/
def remainingSeconds (lockedUntil now : Date) : Nat := (-(-(lockedUntil - now) / 1000)).toNat

/-- `lockedForSeconds`. -/
def lockedForSeconds (userId : String) : Service Nat := do
  let now ← newDate
  let found ← select .accountGuards (findGuard userId)
  match found.bind (·.lockedUntil) with
  | none => .done 0
  | some lockedUntil => .done (remainingSeconds lockedUntil now)

/-- The failures before were a long time ago. -/
def decayed (row : AccountGuardRow) (now : Date) : Bool := now - row.lastFailure > decaySeconds * 1000

/-- The failures with the one at hand. -/
def countFailure (existing : Option AccountGuardRow) (now : Date) : Nat :=
  match existing with
  | none => 1
  | some row => if decayed row now then 1 else row.failures + 1

/-- How long an account cools off after so many failures. -/
def lockSeconds (failures : Nat) : Nat := min (baseLockSeconds * 2 ^ (failures - threshold)) maxLockSeconds

/-- Until when an account cools off. -/
def lockUntil (failures : Nat) (now : Date) : Option Date :=
  if failures ≥ threshold then some (now + lockSeconds failures * 1000) else none

/-- `recordFailure`. -/
def recordFailure (userId : String) : Service Nat := do
  let now ← newDate
  let existing ← select .accountGuards (findGuard userId)
  let failures := countFailure existing now
  let lockedUntil := lockUntil failures now
  Prog.perform (.upsertGuard ⟨userId, failures, now, now, lockedUntil⟩ fun row =>
    { row with
      failures := failures
      firstFailure := if existing.any (decayed · now) then now else row.firstFailure
      lastFailure := now
      lockedUntil := lockedUntil }) fun _ => ()
  .done (match lockedUntil with
    | none => 0
    | some lockedUntil => remainingSeconds lockedUntil now)

/-- `recordSuccess`. -/
def recordSuccess (userId : String) : Service Unit :=
  Prog.perform (.deleteGuard userId) fun _ => ()

end AccountGuardService

/-! ## Registration -/

/-- `RegisterRequest`. -/
structure RegisterRequest where
  name : String
  email : String
  password : String
  deriving DecidableEq, Repr

/-- `VerifyEmailRequest`. -/
structure VerifyEmailRequest where
  challengeId : String
  code : String
  deriving DecidableEq, Repr

/-- `user.findUnique` by email. -/
def findEmail (email : String) (w : World) : Option UserRow := w.users.find? (·.email = email)

/-- `user.findUnique` by identifier. -/
def findUser (id : String) (w : World) : Option UserRow := w.users.find? (·.id = id)

/-- `user.update`. -/
def updateUser (id : String) (data : UserRow → UserRow) : Service Unit :=
  .stmt (.users (.update (·.id = id) data)) fun w =>
    if w.users.any (·.id = id) then .done () else .raise Api.databaseFault

/-- `user.create`: identifiers and addresses are unique. -/
def createUser (row : UserRow) : Service Unit :=
  .stmt (.users (.insert (fun u => u.id = row.id ∨ u.email = row.email) row)) fun w =>
    if w.users.any fun u => u.id = row.id ∨ u.email = row.email then .raise Api.databaseFault else .done ()

/-- `decoyChallenge`. -/
def decoyChallenge (email : String) : Service ChallengeResponse := do
  let now ← dateNow
  let id ← randomUUID
  .done (toResponse id "email_verification" (now + 10 * 60000) now 0 5 0 email none)

namespace AuthService

/-- A code for a user that confirms the address. -/
def confirmation (A : AuthService) (user : UserRow) (context : RequestContext) : IssueInput where
  userId := user.id
  userEmail := user.email
  userName := user.name
  purpose := "email_verification"
  deviceId := none
  pendingDeviceName := none
  approximateLocation := context.approximateLocation
  exposeDevCode := A.exposeDevCode

/-- `register`, for an address that has an account. -/
def registerAgain (A : AuthService) (existing : UserRow) (input : RegisterRequest)
    (context : RequestContext) : Service ChallengeResponse := do
  record ⟨"auth.register.started", "failure", some existing.id, none, none, none, some context,
    [("reason", .text "email_already_registered")]⟩
  if existing.emailVerified then decoyChallenge input.email
  else do
    let issued ← ChallengeService.issue A.hashSecret (A.confirmation existing context)
    .done issued.response

/-- `register`, for an address that has none. -/
def registerNew (A : AuthService) (input : RegisterRequest) (context : RequestContext) :
    Service ChallengeResponse := do
  let salt ← Prog.perform .random World.secret
  let id ← randomUUID
  let createdAt ← newDate
  let user : UserRow :=
    ⟨id, input.name, input.email, A.passwords.hash salt input.password, false, createdAt, none⟩
  createUser user
  record ⟨"auth.register.started", "success", some user.id, none, none, none, some context, []⟩
  let issued ← ChallengeService.issue A.hashSecret (A.confirmation user context)
  record ⟨"auth.email.verification.sent", "success", some user.id, none, none, none, some context, []⟩
  .done issued.response

/-- `register`. -/
def register (A : AuthService) (input : RegisterRequest) (context : RequestContext) :
    Service ChallengeResponse := do
  enforceLimit "Too many accounts created from this network. Please try again later."
  let existing ← select .users (findEmail input.email)
  match existing with
  | some existing => A.registerAgain existing input context
  | none => A.registerNew input context

/-- `verifyEmail`. -/
def verifyEmail (A : AuthService) (input : VerifyEmailRequest) (context : RequestContext) :
    Service Unit := do
  enforceLimit "Too many verification attempts. Please wait a moment."
  let result ← consume A.hashSecret input.challengeId input.code "email_verification"
  match result with
  | .error (reason, attemptsRemaining) => do
    record ⟨"auth.email.verification.failed", "failure", none, none, none, none, some context,
      [("reason", .text (reasonText reason)), ("attemptsRemaining", .number attemptsRemaining)]⟩
    .raise (badRequest (describeChallengeFailure reason attemptsRemaining))
  | .ok challenge => do
    updateUser challenge.userId fun u => { u with emailVerified := true }
    record ⟨"auth.register.completed", "success", some challenge.userId, none, none, none, some context, []⟩

/-- `resendCode`. -/
def resendCode (A : AuthService) (challengeId : String) : Service ChallengeResponse := do
  enforceLimit "Too many code requests. Please wait a moment."
  ChallengeService.resend A.hashSecret challengeId A.exposeDevCode

end AuthService

/-! ## Sign-in -/

/-- `DeviceIdentity`, as a sign-in presents it. -/
structure PresentedDevice where
  installationId : String
  publicKey : String
  name : String
  platform : String
  osVersion : Option String
  appVersion : Option String
  kind : String
  deriving DecidableEq, Repr

/-- `LoginRequest`. -/
structure LoginRequest where
  email : String
  password : String
  device : PresentedDevice
  deriving DecidableEq, Repr

/-- `LoginResponse`. -/
inductive LoginResponse where
  | authenticated (success : AuthSuccess)
  | challengeRequired (challenge : ChallengeResponse)
  deriving DecidableEq, Repr

/-- `DUMMY_ARGON2_HASH`. -/
def dummyArgon2Hash : String :=
  "$argon2id$v=19$m=19456,t=2,p=1$c29tZXNhbHR2YWx1ZXh4$8xN2xW9ZTgOSs0pQqjOa1cO3LmZ0m6zW4cVJ0jVYFbo"

/-- `DEFAULT_TRUSTED_DEVICE_PERMISSIONS`, as it is recorded. -/
def defaultPermissions : String := "devices.view"

/-- The row of a device at its first sign-in. -/
def newDevice (userId : String) (identity : PresentedDevice) (context : RequestContext) (id : String)
    (createdAt : Date) : DeviceRow where
  id := id
  userId := userId
  installationId := identity.installationId
  name := identity.name
  platform := identity.platform
  kind := identity.kind
  osVersion := identity.osVersion
  appVersion := identity.appVersion
  publicKey := identity.publicKey
  trusted := false
  trustedAt := none
  createdAt := createdAt
  lastSeenAt := none
  revokedAt := none
  approximateLocation := context.approximateLocation
  lastIpAddress := context.ipAddress

/-- The row of a device at a later sign-in. -/
def signedInAgain (existing : DeviceRow) (identity : PresentedDevice) (context : RequestContext)
    (d : DeviceRow) : DeviceRow :=
  { d with
    osVersion := identity.osVersion <|> existing.osVersion
    appVersion := identity.appVersion <|> existing.appVersion
    approximateLocation := context.approximateLocation
    lastIpAddress := context.ipAddress }

/-- `upsertDevice`. -/
def upsertDevice (userId : String) (identity : PresentedDevice) (context : RequestContext) :
    Service DeviceRow := do
  let existing ← select .devices (findInstallation userId identity.installationId)
  match existing with
  | some existing =>
    if existing.publicKey ≠ identity.publicKey then do
      record ⟨"auth.login.failed", "denied", some userId, some existing.id, none, none, some context,
        [("reason", .text "device_key_mismatch")]⟩
      .raise (unauthorized ("This installation no longer matches its registered device identity. " ++
        "Reinstall NetLink to enroll it again."))
    else updateDevice existing.id (signedInAgain existing identity context)
  | none => do
    let keyOwner ← select .devices (findKey identity.publicKey)
    match keyOwner with
    | some _ => .raise (badRequest
        "This device identity is already registered. Reinstall NetLink to generate a new one.")
    | none => do
      let id ← randomUUID
      let createdAt ← newDate
      let device ← createDevice (newDevice userId identity context id createdAt)
      record ⟨"device.registered", "success", some userId, some device.id, none, none, some context,
        [("deviceName", .text device.name), ("platform", .text identity.platform),
          ("defaultPermissions", .text defaultPermissions)]⟩
      .done device

namespace AuthService

/-- `passwords.verify`, as a statement of its own, with the user whose hash it is. -/
def verifyPassword (A : AuthService) (userId : Option String) (storedHash password : String) :
    Service Bool :=
  Prog.perform (.verifyPassword userId storedHash password) fun _ => A.passwords.verify storedHash password

/-- The record of a sign-in that has failed, and its exception. -/
def refuseLogin (outcome : String) (userId : Option String) (reason : String) (context : RequestContext) :
    Service LoginResponse := do
  record ⟨"auth.login.failed", outcome, userId, none, none, none, some context, [("reason", .text reason)]⟩
  .raise genericLoginFailure

/-- A hash that predates the current parameters is upgraded. -/
def upgradeHash (A : AuthService) (user : UserRow) (password : String) : Service Unit :=
  if A.passwords.needsRehash user.passwordHash then do
    let salt ← Prog.perform .random World.secret
    updateUser user.id fun u => { u with passwordHash := A.passwords.hash salt password }
  else .done ()

/-- The end of `login` on a trusted device. -/
def loginTrusted (A : AuthService) (user : UserRow) (device : DeviceRow) (context : RequestContext) :
    Service LoginResponse := do
  let tokens ← startSession A.jwt A.sessions A.hashSecret user.id device.id true
  let now ← newDate
  let _ ← updateDevice device.id fun d => { d with lastSeenAt := some now }
  record ⟨"auth.login.succeeded", "success", some user.id, some device.id, none, none, some context,
    [("trustedDevice", .flag true)]⟩
  .done (.authenticated ⟨toAuthenticatedUser user, toAuthenticatedDevice device true, tokens⟩)

/-- The code that a sign-in on another device asks for. -/
def deviceVerification (A : AuthService) (user : UserRow) (device : DeviceRow) (context : RequestContext) :
    IssueInput where
  userId := user.id
  userEmail := user.email
  userName := user.name
  purpose := "device_verification"
  deviceId := some device.id
  pendingDeviceName := some device.name
  approximateLocation := context.approximateLocation
  exposeDevCode := A.exposeDevCode

/-- The end of `login` on another device. -/
def loginUntrusted (A : AuthService) (user : UserRow) (device : DeviceRow) (context : RequestContext) :
    Service LoginResponse := do
  let issued ← ChallengeService.issue A.hashSecret (A.deviceVerification user device context)
  record ⟨"auth.login.challenge.issued", "success", some user.id, some device.id, none, none, some context, []⟩
  .done (.challengeRequired issued.response)

/-- The end of `login`, once the account is known to be good. -/
def loginWithDevice (A : AuthService) (user : UserRow) (input : LoginRequest) (context : RequestContext) :
    Service LoginResponse := do
  AccountGuardService.recordSuccess user.id
  A.upgradeHash user input.password
  let device ← upsertDevice user.id input.device context
  if device.revokedAt.isSome then do
    record ⟨"auth.login.failed", "denied", some user.id, some device.id, none, none, some context,
      [("reason", .text "device_revoked")]⟩
    .raise (unauthorized "This device was removed from your account. Reinstall NetLink to enroll it again.")
  else if device.trusted then A.loginTrusted user device context
  else A.loginUntrusted user device context

/-- The middle of `login`, for a user whose account is not cooling off. -/
def loginUser (A : AuthService) (user : UserRow) (input : LoginRequest) (context : RequestContext) :
    Service LoginResponse := do
  let passwordMatches ← A.verifyPassword (some user.id) user.passwordHash input.password
  if ¬ passwordMatches then do
    let _ ← AccountGuardService.recordFailure user.id
    refuseLogin "failure" (some user.id) (if user.disabledAt.isSome then "disabled" else "bad_password") context
  else if user.disabledAt.isSome then refuseLogin "failure" (some user.id) "disabled" context
  else if ¬ user.emailVerified then do
    let issued ← ChallengeService.issue A.hashSecret (A.confirmation user context)
    .done (.challengeRequired issued.response)
  else A.loginWithDevice user input context

/-- `login`. -/
def login (A : AuthService) (input : LoginRequest) (context : RequestContext) : Service LoginResponse := do
  enforceLimit "Too many sign-in attempts. Please wait a minute and try again."
  let user ← select .users (findEmail input.email)
  match user with
  | none => do
    let _ ← A.verifyPassword none dummyArgon2Hash input.password
    refuseLogin "failure" none "unknown_email" context
  | some user => do
    let locked ← AccountGuardService.lockedForSeconds user.id
    if locked > 0 then refuseLogin "denied" (some user.id) "account_cooling_off" context
    else A.loginUser user input context

/-- `logout`. -/
def logout (A : AuthService) (refreshToken : String) (context : RequestContext) : Service Unit := do
  let _ ← revokeByToken A.hashSecret refreshToken "user_signed_out"
  record ⟨"auth.logout", "success", none, none, none, none, some context, []⟩

end AuthService

/-! ## What a sign-in does -/

/-- What `startSession` does: a refresh token of the user and the device is created. -/
def StartWrite (userId deviceId : String) : Write → Prop
  | .refreshTokens (.insert _ row) => row.userId = userId ∧ row.deviceId = deviceId
  | w => w.Bland

/-- What `upsertDevice` does: the installation is described, or registered as one that is not trusted. -/
def PresentWrite (userId : String) (identity : PresentedDevice) : Write → Prop
  | .devices (.update sel data) => ∃ existing context,
      sel = (fun d => decide (d.id = existing.id)) ∧ data = signedInAgain existing identity context
  | .devices (.insert clash row) => clash = row.Clashes ∧
      ∃ context id createdAt, row = newDevice userId identity context id createdAt
  | w => w.Bland

theorem only_createToken {P : Write → Prop} (row : RefreshTokenRow)
    (h : ∀ clash, P (.refreshTokens (.insert clash row))) : (createRefreshToken row).Only P := by
  unfold createRefreshToken
  refine .stmt (h _) fun w => ?_
  split <;> trivial

theorem only_startSession (jwt : Jwt) (config : SessionConfig) (hashSecret : String → String)
    (userId deviceId : String) (trusted : Bool) :
    (startSession jwt config hashSecret userId deviceId trusted).Only (StartWrite userId deviceId) := by
  unfold startSession issue
  rw [Prog.perform_bind]
  refine .stmt trivial fun w => ?_
  rw [dateNow_bind]
  refine .stmt trivial fun w => ?_
  rw [dateNow_bind]
  refine .stmt trivial fun w => ?_
  rw [Prog.perform_bind]
  refine .stmt trivial fun w => ?_
  rw [randomUUID_bind]
  exact .stmt trivial fun w => (only_createToken _ fun _ => ⟨rfl, rfl⟩).bind fun _ => trivial

theorem only_upsertDevice (userId : String) (identity : PresentedDevice) (context : RequestContext) :
    (upsertDevice userId identity context).Only (PresentWrite userId identity) := by
  unfold upsertDevice
  rw [select_bind]
  refine .stmt trivial fun w => ?_
  split
  · split
    · rw [record_bind]
      exact .stmt trivial fun _ => trivial
    · refine .stmt ⟨_, _, rfl, rfl⟩ fun w => ?_
      split <;> trivial
  rw [select_bind]
  refine .stmt trivial fun w => ?_
  split
  · trivial
  rw [randomUUID_bind]
  refine .stmt trivial fun w => ?_
  rw [newDate_bind]
  refine .stmt trivial fun w => Prog.Only.bind (.stmt ⟨rfl, _, _, _, rfl⟩ fun w => ?_) fun device => ?_
  · split <;> trivial
  · rw [record_bind]
    exact .stmt trivial fun _ => trivial

@[simp] theorem enforceLimit_bind {α : Type} (message : String) (f : Unit → Service α) :
    (enforceLimit message >>= f) = .stmt .random fun w =>
      if w.throttled then .raise (tooManyRequests message) else f () := by
  unfold enforceLimit
  rw [Prog.stmt_bind]
  congr 1
  funext w
  split <;> rfl

end Account
