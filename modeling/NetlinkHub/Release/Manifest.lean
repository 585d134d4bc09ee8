import NetlinkHub.Go.Signature
import NetlinkHub.Go.Time

/-! # Signed release manifests

The `release` package: a manifest, the text that is signed, the order of versions, and the checks an
agent makes before it replaces its own binary. Lower case beyond ASCII (`beyond`) and the signature
scheme are parameters. -/

namespace Release

open Posix (Bytes)

/-- One downloadable file in a release. -/
structure Artifact where
  component : String
  platform : String
  url : String
  sha256 : String
  bytes : Int
  deriving DecidableEq, Repr

/-- What gets signed. -/
structure Manifest where
  version : String
  channel : String
  releasedAt : Time
  expiresAt : Time
  minimum : String
  notes : String
  artifacts : List Artifact
  deriving DecidableEq, Repr

/-- A manifest with its detached signature. -/
structure Envelope where
  manifest : Manifest
  signature : String
  keyID : String
  deriving DecidableEq, Repr

/-- Why a manifest is refused. -/
inductive Error where
  /-- "update manifest signature is not valid" -/
  | badSignature
  /-- "update manifest was signed by an unrecognised key" -/
  | unknownKey
  /-- "update manifest has expired" -/
  | expired
  /-- "update manifest is for a different channel" -/
  | wrongChannel
  /-- "update manifest offers an older version" -/
  | downgrade
  /-- "this version must update to an intermediate release first" -/
  | tooOldToJump
  /-- "update manifest has nothing for this platform" -/
  | noArtifact
  /-- "update manifest is malformed" -/
  | malformed
  /-- "update artifact must be served over HTTPS" -/
  | unsafeURL
  deriving DecidableEq, Repr

/-- `Channel.Valid`. -/
def validChannel (channel : String) : Bool := channel = "stable" ∨ channel = "beta"

/-! ## The signed text -/

/-- The signed fields of an artifact. -/
def Artifact.signedFields (beyond : Char → Char) (a : Artifact) : List (List Char) :=
  [a.component.toList, a.platform.toList, a.url.toList, Text.toLower beyond a.sha256.toList,
    a.bytes.repr.toList]

/-- `SigningInput`: all fields, one after the other, joined by line ends. -/
def signingInput (beyond : Char → Char) (m : Manifest) : List Char :=
  ['\n'].intercalate
    (["netlink.release.v1".toList, m.version.toList, m.channel.toList, m.releasedAt.format,
      m.expiresAt.format, m.minimum.toList] ++ m.artifacts.flatMap (·.signedFields beyond))

/-! ## Versions -/

/-- The value of a field of a version: malformed and negative fields count as zero. -/
def fieldValue (field : List Char) : Int :=
  match Text.atoi field with
  | some value => if value < 0 then 0 else value
  | none => 0

/-- `splitVersion`: three numbers and the suffix after the first `-` or `+`. -/
def splitVersion (version : String) : List Int × List Char :=
  let version := Text.trimPrefix 'v' (Text.trimSpace version.toList)
  let core := version.takeWhile fun c => c ≠ '-' ∧ c ≠ '+'
  let pre := (version.dropWhile fun c => c ≠ '-' ∧ c ≠ '+').drop 1
  (((Text.splitN '.' 3 core).map fieldValue ++ [0, 0, 0]).take 3, pre)

/-- The first difference decides. -/
def compareCore : List Int → List Int → Int
  | a :: as, b :: bs => if a ≠ b then (if a < b then -1 else 1) else compareCore as bs
  | _, _ => 0

/-- A suffix is older than none; two suffixes are compared as text. -/
def comparePre (a b : List Char) : Int :=
  if a = [] ∧ b = [] then 0
  else if a = [] then 1
  else if b = [] then -1
  else if a < b then -1
  else if b < a then 1
  else 0

/-- `CompareVersions`: -1 if `a` is older, 0 if equal, 1 if `a` is newer. -/
def compareVersions (a b : String) : Int :=
  let (aCore, aPre) := splitVersion a
  let (bCore, bPre) := splitVersion b
  if compareCore aCore bCore ≠ 0 then compareCore aCore bCore else comparePre aPre bPre

/-! ## Verification -/

/-- What an installation trusts and runs. -/
structure Verifier where
  trustedKeys : Signature.Keys
  current : String
  channel : String

/-- The checks on the files of a manifest, the first failing file first. -/
def checkArtifacts : List Artifact → Except Error Unit
  | [] => .ok ()
  | a :: rest =>
    if ¬ "https://".toList <+: a.url.toList then .error .unsafeURL
    else if a.sha256.utf8ByteSize ≠ 64 then .error .malformed
    else if ¬ a.sha256.toList.all Text.isHexDigit then .error .malformed
    else checkArtifacts rest

/-- `Verify`. -/
def Verifier.verify (v : Verifier) (scheme : Signature.Scheme) (beyond : Char → Char) (now : Time)
    (env : Envelope) : Except Error Manifest :=
  let m := env.manifest
  if m.version = "" ∨ m.artifacts = [] then .error .malformed
  else if ¬ validChannel m.channel then .error .malformed
  else if m.channel ≠ v.channel then .error .wrongChannel
  else match Signature.check scheme v.trustedKeys env.keyID (signingInput beyond m) env.signature with
    | .error .unknownKey => .error .unknownKey
    | .error .badSignature => .error .badSignature
    | .ok () =>
      if m.expiresAt.isZero ∨ ¬ now.before m.expiresAt then .error .expired
      else if compareVersions m.version v.current ≤ 0 then .error .downgrade
      else if m.minimum ≠ "" ∧ compareVersions v.current m.minimum < 0 then .error .tooOldToJump
      else match checkArtifacts m.artifacts with
        | .error e => .error e
        | .ok () => .ok m

/-- `ArtifactFor`: the first file for a component on a platform. -/
def Manifest.artifactFor (m : Manifest) (component platform : String) : Except Error Artifact :=
  match m.artifacts.find? fun a => a.component = component ∧ a.platform = platform with
  | some a => .ok a
  | none => .error .noArtifact

/-! ## What verification has checked -/

variable {v : Verifier} {scheme : Signature.Scheme} {beyond : Char → Char} {now : Time}
  {env : Envelope} {m : Manifest}

theorem checkArtifacts_ok {as : List Artifact} (h : checkArtifacts as = .ok ()) :
    ∀ a ∈ as, "https://".toList <+: a.url.toList ∧ a.sha256.utf8ByteSize = 64 ∧
      a.sha256.toList.all Text.isHexDigit := by
  induction as with
  | nil => simp
  | cons a as ih =>
    rw [checkArtifacts] at h
    split at h
    · cases h
    · rename_i hurl
      split at h
      · cases h
      · rename_i hsize
        split at h
        · cases h
        · rename_i hhex
          rw [List.forall_mem_cons]
          exact ⟨⟨not_not.mp hurl, not_not.mp hsize, by simpa using hhex⟩, ih h⟩

/-- **What an accepted manifest has passed.** -/
theorem verify_ok (h : v.verify scheme beyond now env = .ok m) :
    m = env.manifest ∧ validChannel m.channel ∧ m.channel = v.channel ∧
      Signature.check scheme v.trustedKeys env.keyID (signingInput beyond m) env.signature = .ok () ∧
      now.before m.expiresAt ∧ 0 < compareVersions m.version v.current ∧
      ∀ a ∈ m.artifacts, "https://".toList <+: a.url.toList ∧ a.sha256.utf8ByteSize = 64 ∧
        a.sha256.toList.all Text.isHexDigit := by
  unfold Verifier.verify at h
  simp only at h
  split at h
  · cases h
  split at h
  · cases h
  rename_i hchannel
  split at h
  · cases h
  rename_i hsame
  split at h
  · cases h
  · cases h
  rename_i hcheck
  split at h
  · cases h
  rename_i hexp
  split at h
  · cases h
  rename_i hnewer
  split at h
  · cases h
  split at h
  · cases h
  rename_i hfiles
  cases h
  rw [not_or] at hexp
  exact ⟨rfl, not_not.mp hchannel, not_not.mp hsame, hcheck, not_not.mp hexp.2, by omega,
    checkArtifacts_ok hfiles⟩

theorem artifactFor_ok {component platform : String} {a : Artifact}
    (h : m.artifactFor component platform = .ok a) :
    a ∈ m.artifacts ∧ a.component = component ∧ a.platform = platform := by
  unfold Manifest.artifactFor at h
  split at h
  · rename_i found hfind
    cases h
    have hpred := List.find?_some hfind
    simp only [decide_eq_true_eq] at hpred
    exact ⟨List.mem_of_find?_eq_some hfind, hpred⟩
  · cases h

end Release
