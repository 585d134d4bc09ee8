import NetlinkHub.Go.Signature
import NetlinkHub.Go.Time
import NetlinkHub.Signed.ReplayGuard

/-! # Signed session grants

The `remotegrant` package: the permission slip that lets a computer accept a remote desktop session.
The mode is inside the signature. The checks are those of a power command, made on the fields of a
grant. -/

namespace RemoteGrant

open Posix (Bytes)

/-- `Mode.Valid`. -/
def validMode (mode : String) : Bool := mode = "view" ∨ mode = "control"

/-- `Mode.AllowsInput`: the view-only boundary. -/
def allowsInput (mode : String) : Bool := mode = "control"

/-- The payload the control plane signs. -/
structure Grant where
  sessionID : String
  spaceID : String
  agentID : String
  mode : String
  requestedBy : String
  issuedAt : Time
  expiresAt : Time
  nonce : String
  deriving DecidableEq, Repr

/-- A grant with its detached signature. -/
structure Envelope where
  grant : Grant
  signature : String
  keyID : String
  deriving DecidableEq, Repr

/-- Why a grant is refused. -/
inductive Error where
  /-- "session grant signature is not valid" -/
  | badSignature
  /-- "session grant was signed by an unrecognised key" -/
  | unknownKey
  /-- "session grant was issued for a different computer" -/
  | wrongAgent
  /-- "session grant has expired" -/
  | expired
  /-- "session grant is not valid yet" -/
  | notYetValid
  /-- "session grant has already been used" -/
  | replayed
  /-- "session grant mode is not recognised" -/
  | unknownMode
  /-- "session grant is malformed" -/
  | malformed
  deriving DecidableEq, Repr

/-- The signed fields, in their order. -/
def Grant.signedFields (g : Grant) : List (List Char) :=
  ["netlink.remote.v1".toList, g.sessionID.toList, g.spaceID.toList, g.agentID.toList,
    g.mode.toList, g.requestedBy.toList, g.issuedAt.format, g.expiresAt.format, g.nonce.toList]

/-- `SigningInput`: the fields joined by line ends. -/
def signingInput (g : Grant) : List Char := ['\n'].intercalate g.signedFields

/-- The spent nonces, each with the expiry of its grant. -/
abbrev NonceStore := List (String × Time)

/-- This agent's identity and what it trusts. -/
structure Verifier where
  agentID : String
  trustedKeys : Signature.Keys
  skew : Time.Duration

/-- `NewVerifier`. -/
def newVerifier (agentID : String) (trusted : Signature.Keys) : Verifier :=
  ⟨agentID, trusted, 30 * Time.second⟩

/-- Everything `Verify` checks before it spends the nonce. -/
def Verifier.checks (v : Verifier) (scheme : Signature.Scheme) (env : Envelope) (now : Time) :
    Except Error Grant :=
  let g := env.grant
  if g.sessionID = "" ∨ g.nonce = "" ∨ g.agentID = "" ∨ g.spaceID = "" then .error .malformed
  else if ¬ validMode g.mode then .error .unknownMode
  else if g.agentID ≠ v.agentID then .error .wrongAgent
  else match Signature.check scheme v.trustedKeys env.keyID (signingInput g) env.signature with
    | .error .unknownKey => .error .unknownKey
    | .error .badSignature => .error .badSignature
    | .ok () =>
      if g.expiresAt.isZero ∨ ¬ now.before g.expiresAt then .error .expired
      else if g.issuedAt.after (now.add v.skew) then .error .notYetValid
      else .ok g

/-- `Verify`: the checks, and last the nonce. The clock is read at `call.now`, and again by the nonce
store at `call.reading`. The agent always hands the verifier a store. -/
def Verifier.verify (v : Verifier) (scheme : Signature.Scheme)
    (call : ReplayGuard.Call Envelope Time) (seen : NonceStore) : Except Error Grant × NonceStore :=
  ReplayGuard.pass (v.checks scheme) Grant.nonce Grant.expiresAt .replayed call seen

variable {v : Verifier} {scheme : Signature.Scheme} {env : Envelope} {now : Time} {g : Grant}

/-- **What a grant has passed** before its nonce is spent. -/
theorem checks_ok (h : v.checks scheme env now = .ok g) :
    g = env.grant ∧ g.agentID = v.agentID ∧ validMode g.mode ∧
      Signature.check scheme v.trustedKeys env.keyID (signingInput g) env.signature = .ok () ∧
      now < g.expiresAt := by
  unfold Verifier.checks at h
  simp only at h
  split at h
  · cases h
  split at h
  · cases h
  rename_i hmode
  split at h
  · cases h
  rename_i hagent
  split at h
  · cases h
  · cases h
  rename_i hcheck
  split at h
  · cases h
  rename_i hexp
  split at h
  · cases h
  cases h
  rw [not_or, not_not] at hexp
  exact ⟨rfl, not_not.mp hagent, not_not.mp hmode, hcheck, of_decide_eq_true hexp.2⟩

end RemoteGrant
