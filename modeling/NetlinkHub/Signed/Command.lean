import NetlinkHub.Go.Signature
import NetlinkHub.Go.Time
import NetlinkHub.Signed.ReplayGuard

/-! # Signed power commands

The `command` package: the envelope every power command travels in, the text that is signed, and the
checks an agent makes before it acts. The in-process nonce store is a replay guard over Go times. -/

namespace PowerCommand

open Posix (Bytes)

/-- `Actions`: the complete allow-list. -/
def actions : List String :=
  ["power.wake", "power.restart", "power.shutdown", "power.lock", "power.sleep", "power.cancel"]

/-- `Action.Valid`. -/
def validAction (action : String) : Bool := action ∈ actions

/-- The payload the control plane signs. -/
structure Command where
  id : String
  action : String
  deviceID : String
  spaceID : String
  issuedAt : Time
  expiresAt : Time
  nonce : String
  requestedBy : String
  deriving DecidableEq, Repr

/-- A command with its detached signature. -/
structure Envelope where
  command : Command
  signature : String
  keyID : String
  deriving DecidableEq, Repr

/-- Why a command is refused. -/
inductive Error where
  /-- "command signature is not valid" -/
  | badSignature
  /-- "command was signed by an unrecognised key" -/
  | unknownKey
  /-- "command was issued for a different device" -/
  | wrongDevice
  /-- "command has expired" -/
  | expired
  /-- "command is not valid yet" -/
  | notYetValid
  /-- "command has already been used" -/
  | replayed
  /-- "command action is not recognised" -/
  | unknownAction
  /-- "command is malformed" -/
  | malformed
  deriving DecidableEq, Repr

/-- `Error`: the text of a refusal. -/
def Error.text : Error → String
  | .badSignature => "netlink: command signature is not valid"
  | .unknownKey => "netlink: command was signed by an unrecognised key"
  | .wrongDevice => "netlink: command was issued for a different device"
  | .expired => "netlink: command has expired"
  | .notYetValid => "netlink: command is not valid yet"
  | .replayed => "netlink: command has already been used"
  | .unknownAction => "netlink: command action is not recognised"
  | .malformed => "netlink: command is malformed"

/-- The signed fields, in their order. -/
def Command.signedFields (c : Command) : List (List Char) :=
  ["netlink.power.v1".toList, c.id.toList, c.action.toList, c.deviceID.toList, c.spaceID.toList,
    c.issuedAt.format, c.expiresAt.format, c.nonce.toList, c.requestedBy.toList]

/-- `SigningInput`: the fields joined by line ends. -/
def signingInput (c : Command) : List Char := ['\n'].intercalate c.signedFields

/-- `MemoryNonceStore`: the spent nonces, each with the expiry of its command. -/
abbrev NonceStore := List (String × Time)

/-- This device's identity and what it trusts. -/
structure Verifier where
  deviceID : String
  trustedKeys : Signature.Keys
  skew : Time.Duration

/-- `NewVerifier`. -/
def newVerifier (deviceID : String) (trusted : Signature.Keys) : Verifier :=
  ⟨deviceID, trusted, 30 * Time.second⟩

/-- Everything `Verify` checks before it spends the nonce. -/
def Verifier.checks (v : Verifier) (scheme : Signature.Scheme) (env : Envelope) (now : Time) :
    Except Error Command :=
  let c := env.command
  if c.id = "" ∨ c.nonce = "" ∨ c.deviceID = "" then .error .malformed
  else if ¬ validAction c.action then .error .unknownAction
  else if c.deviceID ≠ v.deviceID then .error .wrongDevice
  else match Signature.check scheme v.trustedKeys env.keyID (signingInput c) env.signature with
    | .error .unknownKey => .error .unknownKey
    | .error .badSignature => .error .badSignature
    | .ok () =>
      if c.expiresAt.isZero ∨ ¬ now.before c.expiresAt then .error .expired
      else if c.issuedAt.after (now.add v.skew) then .error .notYetValid
      else .ok c

/-- `Verify`: the checks, and last the nonce. The clock is read at `call.now`, and again by the nonce
store at `call.reading`. -/
def Verifier.verify (v : Verifier) (scheme : Signature.Scheme)
    (call : ReplayGuard.Call Envelope Time) (seen : NonceStore) : Except Error Command × NonceStore :=
  ReplayGuard.pass (v.checks scheme) Command.nonce Command.expiresAt .replayed call seen

variable {v : Verifier} {scheme : Signature.Scheme} {env : Envelope} {now : Time} {c : Command}

/-- **What a command has passed** before its nonce is spent. -/
theorem checks_ok (h : v.checks scheme env now = .ok c) :
    c = env.command ∧ c.deviceID = v.deviceID ∧ validAction c.action ∧
      Signature.check scheme v.trustedKeys env.keyID (signingInput c) env.signature = .ok () ∧
      now < c.expiresAt := by
  unfold Verifier.checks at h
  simp only at h
  split at h
  · cases h
  split at h
  · cases h
  rename_i haction
  split at h
  · cases h
  rename_i hdevice
  split at h
  · cases h
  · cases h
  rename_i hcheck
  split at h
  · cases h
  rename_i hexp
  split at h
  · cases h
  cases h
  rw [not_or, not_not] at hexp
  exact ⟨rfl, not_not.mp hdevice, not_not.mp haction, hcheck, of_decide_eq_true hexp.2⟩

end PowerCommand
