import NetlinkHub.Account.Guard
import NetlinkHub.Agent.Agent
import Mathlib.Data.List.TakeWhile

/-! # The agent's client

`postSigned`: a request is signed with the key of the device, and what comes back is sorted by its status
alone. A refusal with 401 or 403 counts as a rejection of the device, whatever the reason for it. -/

namespace Client

open Account (SignedRequest)
open Agent (Answer)
open Posix (Bytes)

/-- `identity.Identity`; the signature is in base64url. -/
structure Identity where
  installationID : String
  publicKey : String
  sign : List Char → String
  hasInstallationID : installationID ≠ ""
  hasPublicKey : publicKey ≠ ""
  hasSignature : ∀ message, sign message ≠ ""

/-- `SigningInput`; the digest of a body is printed in base64url. -/
def signingInput (digest : Bytes → String) (method : String) (path timestamp nonce : List Char)
    (body : Bytes) : List Char :=
  "netlink.agent.v1\n".toList ++ method.toUpper.toList ++ "\n".toList ++ path ++ "\n".toList ++
    timestamp ++ "\n".toList ++ nonce ++ "\n".toList ++ (digest body).toList

/-- What a call of `postSigned` puts into its request: the reading of the clock, a random nonce, and the
payload. -/
structure Sending where
  time : Time
  nonce : String
  body : Bytes
  hasNonce : nonce ≠ ""

/-- The timestamp of a request. -/
def Sending.timestamp (x : Sending) : String := String.ofList x.time.rfc3339Nano

/-- `postSigned` up to the request; the control plane is served under `/api`. -/
def postSigned (digest : Bytes → String) (ident : Identity) (path : String) (x : Sending) :
    SignedRequest where
  installation := some ident.installationID
  publicKey := some ident.publicKey
  timestamp := some x.timestamp
  nonce := some x.nonce
  signature := some (ident.sign
    (signingInput digest "POST" path.toList x.timestamp.toList x.nonce.toList x.body))
  method := "POST"
  originalUrl := "/api" ++ path
  body := x.body

/-- `postSigned` from the response on: its status, and what can be decoded of it. -/
def sortResponse {α : Type} (status : Nat) (decoded : Option α) : Answer α :=
  if status = 401 ∨ status = 403 then .rejected
  else if status < 200 ∨ status ≥ 300 then .failed
  else match decoded with
    | none => .failed
    | some a => .ok a

/-- The text that the client signs is the text that the guard checks. -/
theorem signingInput_eq (crypto : Account.Crypto) (method : String) (path : List Char)
    (timestamp nonce : String) (body : Bytes) :
    signingInput crypto.digest method path timestamp.toList nonce.toList body =
      Account.buildSigningInput crypto method path timestamp nonce body := by
  have hdomain : "netlink.agent.v1\n".toList = "netlink.agent.v1".toList ++ ['\n'] := by decide
  have hline : "\n".toList = ['\n'] := rfl
  have hjoin : ∀ a b c d e f : List Char, ['\n'].intercalate [a, b, c, d, e, f] =
      a ++ ['\n'] ++ b ++ ['\n'] ++ c ++ ['\n'] ++ d ++ ['\n'] ++ e ++ ['\n'] ++ f := by
    intro a b c d e f
    simp [List.intercalate, List.intersperse]
  unfold signingInput Account.buildSigningInput
  rw [hdomain, hline, hjoin]

/-- A path without a query is signed as it is. -/
theorem signedPath_api {path : String} (h : '?' ∉ path.toList) :
    Account.signedPath ("/api" ++ path) = path.toList := by
  have hapi : '?' ∉ "/api".toList := by decide
  have hall : ∀ c ∈ "/api".toList ++ path.toList, (decide (c ≠ '?')) = true := by
    intro c hc
    refine decide_eq_true ?_
    rintro rfl
    exact (List.mem_append.mp hc).elim hapi h
  have htake : ("/api" ++ path).toList.takeWhile (· ≠ '?') = "/api".toList ++ path.toList := by
    rw [String.toList_append, List.takeWhile_eq_self_iff.mpr hall]
  have hdrop : ("/api".toList ++ path.toList).drop 4 = path.toList := rfl
  simp only [Account.signedPath, htake]
  rw [if_pos (List.prefix_append _ _), hdrop]

/-- The headers of a request are complete. -/
theorem headers_postSigned (digest : Bytes → String) (ident : Identity) (path : String) (x : Sending) :
    (postSigned digest ident path x).headers =
      some ⟨ident.installationID, ident.publicKey, x.timestamp, x.nonce, ident.sign
        (signingInput digest "POST" path.toList x.timestamp.toList x.nonce.toList x.body)⟩ := by
  have htimestamp : x.timestamp ≠ "" := by
    intro h
    have hlist : x.time.rfc3339Nano = [] := by simpa [Sending.timestamp] using congrArg String.toList h
    simp [Time.rfc3339Nano] at hlist
  have hheader : ∀ {value : String}, value ≠ "" → Account.header (some value) = some value :=
    fun h => by simp [Account.header, h]
  simp only [SignedRequest.headers, postSigned, hheader ident.hasInstallationID,
    hheader ident.hasPublicKey, hheader htimestamp, hheader x.hasNonce, hheader (ident.hasSignature _)]
  rfl

end Client
