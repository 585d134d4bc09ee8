import NetlinkHub.Account.World
import NetlinkHub.Go.Signature

/-! # The guard of signed requests

`AgentSignatureGuard`: an agent proves who it is by signing each request with its device key. A request
is refused for its headers, its timestamp, its signature or its device before its nonce is recorded,
which is the last check. -/

namespace Account

open Api (Date HttpException)
open Concurrent (Prog)
open Posix (Bytes)

/-- What the guard takes from the platform: dates are read, base64url is decoded, SHA-256 is printed in
base64url, and Ed25519 is checked. -/
structure Crypto where
  parseDate : String → Option Date
  base64url : String → Bytes
  digest : Bytes → String
  scheme : Signature.Scheme

/-- What the guard reads of an HTTP request. -/
structure SignedRequest where
  /-- `x-netlink-installation`. -/
  installation : Option String
  /-- `x-netlink-public-key`. -/
  publicKey : Option String
  /-- `x-netlink-timestamp`. -/
  timestamp : Option String
  /-- `x-netlink-nonce`. -/
  nonce : Option String
  /-- `x-netlink-signature`. -/
  signature : Option String
  method : String
  originalUrl : String
  /-- The body as it came in. -/
  body : Bytes
  deriving DecidableEq, Repr

/-- The headers of a signed request. -/
structure Headers where
  installationId : String
  publicKey : String
  timestamp : String
  nonce : String
  signature : String
  deriving DecidableEq, Repr

/-- `header`: an empty header counts as absent. -/
def header (value : Option String) : Option String := value.filter (· ≠ "")

/-- All the headers that a signed request needs. -/
def SignedRequest.headers (q : SignedRequest) : Option Headers := do
  let installationId ← header q.installation
  let publicKey ← header q.publicKey
  let timestamp ← header q.timestamp
  let nonce ← header q.nonce
  let signature ← header q.signature
  some ⟨installationId, publicKey, timestamp, nonce, signature⟩

/-- `signedPath`: the path without its query and without the prefix `/api`. -/
def signedPath (originalUrl : String) : List Char :=
  let path := originalUrl.toList.takeWhile (· ≠ '?')
  if "/api".toList <+: path then path.drop 4 else path

/-- `buildSigningInput`. -/
def buildSigningInput (crypto : Crypto) (method : String) (path : List Char)
    (timestamp nonce : String) (body : Bytes) : List Char :=
  ['\n'].intercalate ["netlink.agent.v1".toList, method.toUpper.toList, path, timestamp.toList,
    nonce.toList, (crypto.digest body).toList]

/-- `verifyEd25519`. -/
def verifyEd25519 (crypto : Crypto) (publicKey : String) (message : List Char) (signature : String) :
    Bool :=
  let key := crypto.base64url publicKey
  let sig := crypto.base64url signature
  if key.length ≠ 32 then false
  else if sig.length ≠ 64 then false
  else crypto.scheme key message sig

/-- The signature of a request verifies under the key it presents. -/
def SignedRequest.verifies (crypto : Crypto) (q : SignedRequest) (h : Headers) : Bool :=
  verifyEd25519 crypto h.publicKey
    (buildSigningInput crypto q.method (signedPath q.originalUrl) h.timestamp h.nonce q.body)
    h.signature

/-- `AgentPrincipal`. -/
structure AgentPrincipal where
  deviceId : String
  userId : String
  installationId : String
  publicKey : String
  deriving DecidableEq, Repr

/-- `MAX_TIMESTAMP_SKEW_SECONDS`. -/
def maxTimestampSkewSeconds : Int := 300

/-- "This request is not signed." -/
def notSigned : HttpException := unauthorized "This request is not signed."

/-- "This request has an invalid timestamp." -/
def invalidTimestamp : HttpException := unauthorized "This request has an invalid timestamp."

/-- "This request is too old or too far in the future." -/
def outOfTime : HttpException := unauthorized "This request is too old or too far in the future."

/-- "This request signature is not valid." -/
def badSignature : HttpException := unauthorized "This request signature is not valid."

/-- "This device is not enrolled." -/
def notEnrolled : HttpException := unauthorized "This device is not enrolled."

/-- "This device was revoked by its owner." -/
def deviceRevoked : HttpException := unauthorized "This device was revoked by its owner."

/-- "This request has already been used." -/
def alreadyUsed : HttpException := unauthorized "This request has already been used."

/-- The timestamp is too far from the clock. -/
def Skewed (now sentAt : Date) : Prop := (now - sentAt).natAbs > maxTimestampSkewSeconds * 1000

instance (now sentAt : Date) : Decidable (Skewed now sentAt) :=
  inferInstanceAs (Decidable ((now - sentAt).natAbs > maxTimestampSkewSeconds * 1000))

/-- When the nonce of a request may be forgotten. -/
def nonceExpiresAt (sentAt : Date) : Date := sentAt + maxTimestampSkewSeconds * 2 * 1000

/-- The checks of the device that has the presented key. -/
def admitDevice (allowsUnenrolled : Bool) (h : Headers) :
    Option DeviceRow → Except HttpException AgentPrincipal
  | some device =>
    if device.installationId ≠ h.installationId then .error notEnrolled
    else if device.revokedAt.isSome then .error deviceRevoked
    else .ok ⟨device.id, device.userId, device.installationId, device.publicKey⟩
  | none =>
    if allowsUnenrolled then .ok ⟨"", "", h.installationId, h.publicKey⟩ else .error notEnrolled

/-- `consumeNonce`. -/
def consumeNonce (nonce : String) (sentAt : Date) : Service Bool := do
  let created ← Prog.perform (.createNonce ⟨nonce, "agent", nonceExpiresAt sentAt⟩)
    fun w => w.admitsNonce nonce
  if ¬ created then .done false
  else do
    let lucky ← Prog.perform .random World.lucky
    if lucky then do
      let now ← newDate
      Prog.perform (.sweepNonces now) fun _ => ()
      .done true
    else .done true

/-- The end of `canActivate`, once the signature has been checked. -/
def admitRequest (allowsUnenrolled : Bool) (h : Headers) (sentAt : Date) : Service AgentPrincipal := do
  let device ← select .devices fun w => w.devices.find? (·.publicKey = h.publicKey)
  match admitDevice allowsUnenrolled h device with
  | .error e => .raise e
  | .ok principal => do
    let consumed ← consumeNonce h.nonce sentAt
    if ¬ consumed then .raise alreadyUsed else .done principal

/-- `canActivate`. -/
def canActivate (crypto : Crypto) (allowsUnenrolled : Bool) (q : SignedRequest) :
    Service AgentPrincipal :=
  match q.headers with
  | none => .raise notSigned
  | some h => match crypto.parseDate h.timestamp with
    | none => .raise invalidTimestamp
    | some sentAt => do
      let now ← dateNow
      if Skewed now sentAt then .raise outOfTime
      else if ¬ q.verifies crypto h then .raise badSignature
      else admitRequest allowsUnenrolled h sentAt

end Account
