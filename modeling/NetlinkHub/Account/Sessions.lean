import NetlinkHub.Account.Guard
import NetlinkHub.Api.Remote

/-! # Sessions of a device

Access tokens, refresh tokens and open sockets, each bound to a device: the guard of the bearer token,
`SessionService`, the verification of a device by an emailed code, the handshake of the live gateway, and
the revocation of a device, which reaches all of them one after the other. -/

namespace Account

open Api (Date HttpException RequestContext badRequest forbidden notFound)
open Concurrent (Prog)

/-- `AccessTokenClaims`. -/
structure Claims where
  /-- User id. -/
  sub : String
  /-- Device id. -/
  did : String
  trusted : Bool
  deriving DecidableEq, Repr

/-- Access tokens are signed at a time, for a number of seconds, and verified at a time. -/
structure Jwt where
  sign : Claims → Date → Nat → String
  verify : String → Date → Option Claims

/-- The lifetimes of tokens. -/
structure SessionConfig where
  accessTtlSeconds : Nat
  refreshDays : Nat
  untrustedRefreshDays : Nat
  deriving DecidableEq, Repr

/-! ## Access tokens -/

/-- `AuthenticatedPrincipal`. -/
structure AuthenticatedPrincipal where
  userId : String
  deviceId : String
  deviceTrusted : Bool
  deriving DecidableEq, Repr

/-- `device.findUnique` by identifier. -/
def findDevice (id : String) (w : World) : Option DeviceRow := w.devices.find? (·.id = id)

/-- The device of a token may still use it. -/
def DeviceRow.Serves (device : DeviceRow) (claims : Claims) : Prop :=
  device.revokedAt = none ∧ device.userId = claims.sub

instance (device : DeviceRow) (claims : Claims) : Decidable (device.Serves claims) :=
  inferInstanceAs (Decidable (_ ∧ _))

/-- `verifyAccessToken`. -/
def verifyAccessToken (jwt : Jwt) (token : String) : Service Claims := do
  let now ← dateNow
  match jwt.verify token now with
  | none => .raise (unauthorized "Your session has expired. Please sign in again.")
  | some claims => .done claims

/-- The guard of the bearer token, from the token that `extractBearerToken` finds. -/
def accessTokenGuard (jwt : Jwt) (token : Option String) : Service AuthenticatedPrincipal :=
  match token with
  | none => .raise (unauthorized "Sign in to continue.")
  | some token => do
    let claims ← verifyAccessToken jwt token
    let device ← select .devices (findDevice claims.did)
    match device with
    | none => .raise (unauthorized "This device no longer has access. Please sign in again.")
    | some device =>
      if ¬ device.Serves claims then
        .raise (unauthorized "This device no longer has access. Please sign in again.")
      else do
        let user ← select .users fun w => w.users.find? (·.id = claims.sub)
        if user.all (·.disabledAt.isSome) then
          .raise (unauthorized "Your session is no longer valid.")
        else .done ⟨claims.sub, device.id, device.trusted⟩

/-! ## Refresh tokens -/

/-- `SessionTokens`. -/
structure SessionTokens where
  accessToken : String
  refreshToken : String
  accessTokenExpiresAt : String
  refreshTokenExpiresAt : String
  deriving DecidableEq, Repr

/-- `refreshToken.create`: identifiers and hashes are unique. -/
def createRefreshToken (row : RefreshTokenRow) : Service Unit :=
  .stmt (.refreshTokens (.insert (fun t => t.id = row.id ∨ t.tokenHash = row.tokenHash) row)) fun w =>
    if w.refreshTokens.any fun t => t.id = row.id ∨ t.tokenHash = row.tokenHash then
      .raise Api.databaseFault
    else .done ()

/-- The token that a new one replaces is told so. -/
def markReplaced (replacesId : Option String) (replacedById : String) : Service Unit :=
  match replacesId with
  | none => .done ()
  | some id =>
    .stmt (.refreshTokens (.update (·.id = id) fun t => { t with replacedById := some replacedById }))
      fun w => if w.refreshTokens.any (·.id = id) then .done () else .raise Api.databaseFault

/-- `issue`. -/
def issue (jwt : Jwt) (config : SessionConfig) (hashSecret : String → String) (userId deviceId : String)
    (trusted : Bool) (familyId : String) (replacesId : Option String) : Service SessionTokens := do
  let refreshDays := if trusted then config.refreshDays else config.untrustedRefreshDays
  let now ← dateNow
  let signedAt ← dateNow
  let accessToken := jwt.sign ⟨userId, deviceId, trusted⟩ signedAt config.accessTtlSeconds
  let refreshToken ← Prog.perform .random World.secret
  let id ← randomUUID
  let expiresAt : Date := now + refreshDays * 24 * 60 * 60 * 1000
  createRefreshToken
    ⟨id, userId, deviceId, hashSecret refreshToken, familyId, expiresAt, none, none, none, none⟩
  markReplaced replacesId id
  .done ⟨accessToken, refreshToken, Api.toISOString (now + config.accessTtlSeconds * 1000),
    Api.toISOString expiresAt⟩

/-- `startSession`. -/
def startSession (jwt : Jwt) (config : SessionConfig) (hashSecret : String → String)
    (userId deviceId : String) (trusted : Bool) : Service SessionTokens := do
  let familyId ← Prog.perform .random World.family
  issue jwt config hashSecret userId deviceId trusted familyId none

/-- A refresh token after it was revoked. -/
def RefreshTokenRow.revoked (reason : String) (now : Date) (t : RefreshTokenRow) : RefreshTokenRow :=
  { t with revokedAt := some now, revokedReason := some reason }

/-- `revokeFamily`. -/
def revokeFamily (familyId reason : String) : Service Unit := do
  let now ← newDate
  Prog.perform (.refreshTokens (.update (fun t => t.familyId = familyId ∧ t.revokedAt = none)
    (·.revoked reason now))) fun _ => ()

/-- `revokeByToken`. -/
def revokeByToken (hashSecret : String → String) (presentedToken reason : String) : Service Bool := do
  let existing ← select .refreshTokens fun w =>
    w.refreshTokens.find? (·.tokenHash = hashSecret presentedToken)
  match existing with
  | none => .done false
  | some existing => do
    revokeFamily existing.familyId reason
    .done true

/-- `revokeDeviceSessions`. -/
def revokeDeviceSessions (deviceId reason : String) : Service Nat := do
  let now ← newDate
  Prog.perform (.refreshTokens (.update (fun t => t.deviceId = deviceId ∧ t.revokedAt = none)
    (·.revoked reason now)))
    fun w => (w.refreshTokens.filter fun t => t.deviceId = deviceId ∧ t.revokedAt = none).length

/-- Why a refresh token is not exchanged. -/
inductive RotationFault where
  | invalid
  | expired
  | revoked
  | reuseDetected
  deriving DecidableEq, Repr

/-- `RotationOutcome`: the new tokens with their user and device, or a reason with the user, if known. -/
abbrev RotationOutcome := Except (RotationFault × Option String) (SessionTokens × String × String)

/-- The end of `rotate`, once the token and its device have been looked at. -/
def exchange (jwt : Jwt) (config : SessionConfig) (hashSecret : String → String)
    (existing : RefreshTokenRow) (device : DeviceRow) : Service RotationOutcome := do
  let rotated ← newDate
  let count ← Prog.perform (.refreshTokens (.update
      (fun t => t.id = existing.id ∧ t.rotatedAt = none ∧ t.revokedAt = none)
      fun t => { t with rotatedAt := some rotated }))
    fun w => (w.refreshTokens.filter fun t =>
      t.id = existing.id ∧ t.rotatedAt = none ∧ t.revokedAt = none).length
  if count = 0 then do
    revokeFamily existing.familyId "refresh_token_reuse_detected"
    .done (.error (.reuseDetected, some existing.userId))
  else do
    let tokens ← issue jwt config hashSecret existing.userId existing.deviceId device.trusted
      existing.familyId (some existing.id)
    .done (.ok (tokens, existing.userId, existing.deviceId))

/-- `rotate`. -/
def rotate (jwt : Jwt) (config : SessionConfig) (hashSecret : String → String)
    (presentedToken : String) : Service RotationOutcome := do
  let existing ← select .refreshTokens fun w =>
    (w.refreshTokens.find? (·.tokenHash = hashSecret presentedToken)).bind fun t =>
      (findDevice t.deviceId w).map (t, ·)
  match existing with
  | none => .done (.error (.invalid, none))
  | some (existing, device) =>
    if existing.rotatedAt.isSome ∨ existing.revokedAt.isSome then do
      revokeFamily existing.familyId "refresh_token_reuse_detected"
      .done (.error (.reuseDetected, some existing.userId))
    else do
      let now ← dateNow
      if existing.expiresAt ≤ now then .done (.error (.expired, some existing.userId))
      else if device.revokedAt.isSome then do
        revokeFamily existing.familyId "device_revoked"
        .done (.error (.revoked, some existing.userId))
      else exchange jwt config hashSecret existing device

/-- `refresh`. -/
def refresh (jwt : Jwt) (config : SessionConfig) (hashSecret : String → String)
    (refreshToken : String) (context : RequestContext) : Service SessionTokens := do
  let outcome ← rotate jwt config hashSecret refreshToken
  match outcome with
  | .error (.reuseDetected, userId) => do
    record ⟨"auth.token.reuse_detected", "denied", userId, none, none, none, some context, []⟩
    .raise (unauthorized "This session was ended for your security. Please sign in again.")
  | .error _ => .raise (unauthorized "Your session has expired. Please sign in again.")
  | .ok (tokens, userId, deviceId) => do
    let now ← newDate
    let _ ← updateDevice deviceId fun d =>
      { d with lastSeenAt := some now, lastIpAddress := context.ipAddress }
    record ⟨"auth.token.refreshed", "success", some userId, some deviceId, none, none, some context, []⟩
    .done tokens

/-! ## Verifying a device -/

/-- `VerifyDeviceRequest`. -/
structure VerifyDeviceRequest where
  challengeId : String
  code : String
  trustDevice : Bool
  deriving DecidableEq, Repr

/-- `AuthenticatedUser`. -/
structure AuthenticatedUser where
  id : String
  name : String
  email : String
  emailVerified : Bool
  createdAt : String
  deriving DecidableEq, Repr

/-- `AuthenticatedDevice`. -/
structure AuthenticatedDevice where
  id : String
  name : String
  platform : String
  kind : String
  trusted : Bool
  lastSeenAt : Option String
  createdAt : String
  revokedAt : Option String
  approximateLocation : Option String
  current : Bool
  deriving DecidableEq, Repr

/-- `toAuthenticatedUser`. -/
def toAuthenticatedUser (user : UserRow) : AuthenticatedUser :=
  ⟨user.id, user.name, user.email, user.emailVerified, Api.toISOString user.createdAt⟩

/-- `toAuthenticatedDevice`. -/
def toAuthenticatedDevice (device : DeviceRow) (current : Bool) : AuthenticatedDevice :=
  ⟨device.id, device.name, device.platform, device.kind, device.trusted,
    device.lastSeenAt.map Api.toISOString, Api.toISOString device.createdAt,
    device.revokedAt.map Api.toISOString, device.approximateLocation, current⟩

/-- `AuthSuccessResponse`. -/
structure AuthSuccess where
  user : AuthenticatedUser
  device : AuthenticatedDevice
  tokens : SessionTokens
  deriving DecidableEq, Repr

/-- `enforceLimit`: the store of hits lets the request through or not. -/
def enforceLimit (message : String) : Service Unit :=
  .stmt .random fun w => if w.throttled then .raise (tooManyRequests message) else .done ()

/-- `challenge.findUnique`. -/
def findChallenge (id : String) (w : World) : Option ChallengeRow := w.challenges.find? (·.id = id)

/-- `challenge.update`: the row after the update. -/
def updateChallenge (id : String) (data : ChallengeRow → ChallengeRow) : Service ChallengeRow :=
  .stmt (.challenges (.update (·.id = id) data)) fun w => match findChallenge id w with
    | none => .raise Api.databaseFault
    | some row => .done (data row)

/-- `consume`: the challenge that was used up, or a reason with the attempts that remain. -/
def consume (hashSecret : String → String) (challengeId code purpose : String) :
    Service (Except (Api.ConsumeFault × Nat) ChallengeRow) := do
  let challenge ← select .challenges (findChallenge challengeId)
  match challenge with
  | none => .done (.error (.notFound, 0))
  | some challenge =>
    if challenge.purpose ≠ purpose then .done (.error (.notFound, 0))
    else if challenge.consumedAt.isSome then .done (.error (.alreadyUsed, 0))
    else do
      let now ← dateNow
      if challenge.expiresAt ≤ now then .done (.error (.expired, 0))
      else if challenge.attempts ≥ challenge.maxAttempts then .done (.error (.tooManyAttempts, 0))
      else if hashSecret code ≠ challenge.codeHash then do
        let updated ← updateChallenge challenge.id fun c => { c with attempts := c.attempts + 1 }
        let remaining := updated.maxAttempts - updated.attempts
        if remaining = 0 then do
          let burned ← newDate
          let _ ← updateChallenge challenge.id fun c => { c with consumedAt := some burned }
          .done (.error (.invalidCode, 0))
        else .done (.error (.invalidCode, remaining))
      else do
        let used ← newDate
        let count ← Prog.perform (.challenges (.update
            (fun c => c.id = challenge.id ∧ c.consumedAt = none)
            fun c => { c with consumedAt := some used }))
          fun w => (w.challenges.filter fun c => c.id = challenge.id ∧ c.consumedAt = none).length
        if count = 0 then .done (.error (.alreadyUsed, 0)) else .done (.ok challenge)

/-- The reason as it is recorded. -/
def reasonText : Api.ConsumeFault → String
  | .notFound => "not_found"
  | .expired => "expired"
  | .alreadyUsed => "already_used"
  | .tooManyAttempts => "too_many_attempts"
  | .invalidCode => "invalid_code"

/-- `describeChallengeFailure`. -/
def describeChallengeFailure (reason : Api.ConsumeFault) (attemptsRemaining : Nat) : String :=
  match reason with
  | .expired => "That code has expired. Request a new one."
  | .alreadyUsed => "That code has already been used. Request a new one."
  | .tooManyAttempts => "Too many incorrect codes. Request a new one."
  | .notFound => "That code is not correct."
  | .invalidCode =>
    if attemptsRemaining > 0 then
      "That code is not correct. " ++ toString attemptsRemaining ++
        (if attemptsRemaining = 1 then " attempt remaining." else " attempts remaining.")
    else "Too many incorrect codes. Request a new one."

/-- `GENERIC_LOGIN_FAILURE`. -/
def genericLoginFailure : HttpException :=
  unauthorized "That email and password combination did not match."

/-- A device after its verification. -/
def verifiedDevice (trust : Bool) (trustedAt : Option Date) (lastSeenAt : Date) (context : RequestContext)
    (d : DeviceRow) : DeviceRow :=
  { d with
    trusted := trust
    trustedAt := trustedAt
    lastSeenAt := some lastSeenAt
    approximateLocation := context.approximateLocation
    lastIpAddress := context.ipAddress }

/-- `input.trustDevice ? new Date() : null`. -/
def trustedSince (trust : Bool) : Service (Option Date) :=
  if trust then some <$> newDate else .done none

/-- The audit records at the end of a verification. -/
def recordVerified (userId : String) (device : DeviceRow) (context : RequestContext) : Service Unit := do
  record ⟨"auth.device.verification.succeeded", "success", some userId, some device.id, none, none,
    some context, [("trusted", .flag device.trusted)]⟩
  if device.trusted then
    record ⟨"device.trusted", "success", some userId, some device.id, none, none, some context,
      [("deviceName", .text device.name)]⟩
  else .done ()
  record ⟨"auth.login.succeeded", "success", some userId, some device.id, none, none, some context,
    [("trustedDevice", .flag device.trusted)]⟩

/-- The end of `verifyDevice`, once the code has been used up. -/
def trustDevice (jwt : Jwt) (config : SessionConfig) (hashSecret : String → String)
    (userId deviceId : String) (trust : Bool) (context : RequestContext) : Service AuthSuccess := do
  let user ← select .users fun w => w.users.find? (·.id = userId)
  match user with
  | none => .raise genericLoginFailure
  | some user =>
    if user.disabledAt.isSome then .raise genericLoginFailure
    else do
      let trustedAt ← trustedSince trust
      let lastSeenAt ← newDate
      let device ← updateDevice deviceId (verifiedDevice trust trustedAt lastSeenAt context)
      let tokens ← startSession jwt config hashSecret user.id device.id device.trusted
      recordVerified user.id device context
      .done ⟨toAuthenticatedUser user, toAuthenticatedDevice device true, tokens⟩

/-- `verifyDevice`. -/
def verifyDevice (jwt : Jwt) (config : SessionConfig) (hashSecret : String → String)
    (input : VerifyDeviceRequest) (context : RequestContext) : Service AuthSuccess := do
  enforceLimit "Too many verification attempts. Please wait a moment."
  let result ← consume hashSecret input.challengeId input.code "device_verification"
  match result with
  | .error (reason, attemptsRemaining) => do
    record ⟨"auth.device.verification.failed", "failure", none, none, none, none, some context,
      [("reason", .text (reasonText reason)), ("attemptsRemaining", .number attemptsRemaining)]⟩
    .raise (badRequest (describeChallengeFailure reason attemptsRemaining))
  | .ok challenge => match challenge.deviceId with
    | none => .raise (badRequest "This verification request is no longer valid.")
    | some deviceId =>
      trustDevice jwt config hashSecret challenge.userId deviceId input.trustDevice context

/-! ## The live gateway -/

/-- `handleConnection`, from the token that `extractToken` finds: whether the socket stays open. -/
def handleConnection (jwt : Jwt) (socket : Nat) (token : Option String) : Service Bool :=
  match token with
  | none => .done false
  | some token => do
    let now ← dateNow
    match jwt.verify token now with
    | none => .done false
    | some claims => do
      let device ← select .devices (findDevice claims.did)
      match device with
      | none => .done false
      | some device =>
        if ¬ device.Serves claims then .done false
        else do
          let spaceIds ← select .members fun w =>
            (w.api.directory.members.filter fun m => m.userId = claims.sub ∧ ¬ m.suspended).map
              (·.spaceId)
          Prog.perform (.subscribe ⟨socket, claims.sub, device.id, spaceIds⟩) fun _ => ()
          .done true

/-! ## Revoking a device -/

/-- `requireOwnDevice`. -/
def requireOwnDevice (userId deviceId : String) : Service DeviceRow := do
  let device ← select .devices (findDevice deviceId)
  match device with
  | none => .raise (notFound "That device was not found.")
  | some device =>
    if device.userId ≠ userId then
      .raise (forbidden "That device does not belong to your account.")
    else .done device

/-- A device after it was revoked. -/
def DeviceRow.revoked (now : Date) (d : DeviceRow) : DeviceRow :=
  { d with revokedAt := some now, trusted := false, trustedAt := none }

/-- The pending codes of a device are used up. -/
def consumeChallenges (deviceId : String) : Service Unit := do
  let now ← newDate
  Prog.perform (.challenges (.update (fun c => c.deviceId = some deviceId ∧ c.consumedAt = none)
    fun c => { c with consumedAt := some now })) fun _ => ()

/-- The end of `revoke`, once the device is marked: its refresh tokens, its sockets, its remote
sessions, and its codes. -/
def sweepDevice (userId : String) (device : DeviceRow) (context : RequestContext) : Service Unit := do
  let killedSessions ← revokeDeviceSessions device.id "device_revoked"
  Prog.perform (.disconnectDevice device.id) fun _ => ()
  let endedRemote ← lift (Api.endSessionsForDevice device.id)
  consumeChallenges device.id
  record ⟨"device.revoked", "success", some userId, some device.id, some device.id, none, some context,
    [("deviceName", .text device.name), ("sessionsEnded", .number killedSessions),
      ("remoteSessionsEnded", .number endedRemote)]⟩

/-- `revoke`. -/
def revoke (userId deviceId : String) (context : RequestContext) : Service AuthenticatedDevice := do
  let device ← requireOwnDevice userId deviceId
  if device.revokedAt.isSome then .done (toAuthenticatedDevice device false)
  else do
    let now ← newDate
    let revoked ← updateDevice device.id (DeviceRow.revoked now)
    sweepDevice userId device context
    .done (toAuthenticatedDevice revoked false)

end Account
