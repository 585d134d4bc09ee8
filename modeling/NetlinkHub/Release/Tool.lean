import NetlinkHub.Release.Envelope
import NetlinkHub.Release.Versions

/-! # The release tool

The `netlink-release` command: it makes a key (`keygen`), signs a manifest that passes its own checks (`sign`), and
checks a signed one as an agent would (`verify`). An envelope that it has written is accepted by an agent that
trusts the key exactly where `Eligible` says so (`published`), and its checks let through what some agent can
install, up to the digits of the checksums and the order of two versions (`check_ok_iff`). -/

namespace Release.Tool

open Posix (Bytes)

/-! ## Keys -/

/-- Why a command fails. -/
inductive Fault where
  /-- "already exists — refusing to overwrite a release key" -/
  | keyExists
  /-- "reading the manifest" -/
  | readingManifest
  /-- "the key file does not contain a base64url Ed25519 seed" -/
  | noSeed
  /-- "--key is not a base64url Ed25519 public key" -/
  | noPublicKey
  /-- "the manifest has no version" -/
  | noVersion
  /-- "channel %q is not stable or beta" -/
  | channel (channel : String)
  /-- "the manifest has no artifacts" -/
  | noArtifacts
  /-- "the manifest expires in the past — no agent would accept it" -/
  | expired
  /-- "artifact %s is not served over https" -/
  | notHTTPS (component : String)
  /-- "artifact %s has no SHA-256" -/
  | noSHA256 (component : String)
  /-- "artifact %s has no size" -/
  | noSize (component : String)
  /-- An error of `json.MarshalIndent`. -/
  | marshal
  /-- An error of `UnmarshalEnvelope`. -/
  | malformed (cause : Error)
  /-- "this manifest would be REFUSED" -/
  | refused (cause : Error)
  deriving DecidableEq, Repr

/-- `ed25519.SeedSize` bytes. -/
structure Seed where
  bytes : Bytes
  length_bytes : bytes.length = 32

/-- The public key of a seed, as `base64.RawURLEncoding` writes it. -/
def publicText (rt : Runtime) (seed : Seed) : String := Text.rawURLEncode (rt.ed25519.publicKey seed.bytes)

/-- `keyID`. -/
def keyID (rt : Runtime) (seed : Seed) : String :=
  String.ofList ("rel-".toList ++ (publicText rt seed).toList.take 12)

/-- What `keygen` writes to the file, and what it prints. -/
structure Generated where
  file : List Char
  publicKey : String
  keyID : String

/-- `keygen`, with the seed that is drawn. -/
def keygen (rt : Runtime) (fileExists : Bool) (seed : Seed) : Except Fault Generated :=
  if fileExists then .error .keyExists
  else .ok ⟨(Text.rawURLEncode seed.bytes).toList ++ ['\n'], publicText rt seed, keyID rt seed⟩

/-- `loadKey`. -/
def loadKey (raw : List Char) : Except Fault Seed :=
  match Text.rawURLDecode (String.ofList (Text.trimSpace raw)) with
  | none => .error .noSeed
  | some bytes => if h : bytes.length = 32 then .ok ⟨bytes, h⟩ else .error .noSeed

/-! ## Signing -/

/-- The checks on the artifacts, the first failing one first. -/
def checkArtifacts : List Artifact → Except Fault Unit
  | [] => .ok ()
  | a :: rest =>
    if ¬ "https://".toList <+: a.url.toList then .error (.notHTTPS a.component)
    else if a.sha256.utf8ByteSize ≠ 64 then .error (.noSHA256 a.component)
    else if a.bytes ≤ 0 then .error (.noSize a.component)
    else checkArtifacts rest

/-- `check`. -/
def check (now : Time) (m : Manifest) : Except Fault Unit :=
  if m.version = "" then .error .noVersion
  else if ¬ validChannel m.channel then .error (.channel m.channel)
  else if m.artifacts = [] then .error .noArtifacts
  else if m.expiresAt.isZero ∨ ¬ m.expiresAt.after now then .error .expired
  else checkArtifacts m.artifacts

/-- `sign`: what is written for a manifest whose times are in the given zones. -/
def sign (rt : Runtime) (released expires : Int) (now : Time) (raw key : List Char) : Except Fault (List Char) :=
  match unmarshalManifest rt raw with
  | none => .error .readingManifest
  | some m => do
    let seed ← loadKey key
    check now m
    match marshalIndent released expires (Release.sign rt seed.bytes (keyID rt seed) m) with
    | none => .error .marshal
    | some encoded => .ok (encoded ++ ['\n'])

/-! ## Checking -/

/-- `verify`, for an agent that runs a version on a channel. -/
def verify (rt : Runtime) (now : Time) (current channel key : String) (raw : List Char) : Except Fault Manifest :=
  match unmarshalEnvelope rt raw with
  | .error e => .error (.malformed e)
  | .ok env => match Text.rawURLDecode (String.ofList (Text.trimSpace key.toList)) with
    | none => .error .noPublicKey
    | some decoded =>
      if decoded.length ≠ Signature.publicKeySize then .error .noPublicKey
      else match Verifier.verify ⟨[(env.keyID, decoded)], current, channel⟩ rt.ed25519.verify rt.beyond now env with
        | .error e => .error (.refused e)
        | .ok m => .ok m

/-- What an agent makes of a text off the wire. -/
def receive (rt : Runtime) (v : Verifier) (now : Time) (raw : List Char) : Except Error Manifest := do
  let env ← unmarshalEnvelope rt raw
  v.verify rt.ed25519.verify rt.beyond now env

/-! ## What verification says of a signed manifest -/

/-- A manifest that an agent may install, once it trusts the signature. -/
structure Eligible (m : Manifest) (current channel : String) (now : Time) : Prop where
  channel : m.channel = channel
  expires : now.before m.expiresAt
  newer : 0 < compareVersions m.version current
  minimum : m.minimum = "" ∨ 0 ≤ compareVersions current m.minimum
  digits : ∀ a ∈ m.artifacts, a.sha256.toList.all Text.isHexDigit

/-- A manifest that every agent takes for a manifest. -/
structure WellFormed (m : Manifest) : Prop where
  version : m.version ≠ ""
  channel : validChannel m.channel
  artifacts : m.artifacts ≠ []
  expires : m.expiresAt.isZero = false
  urls : ∀ a ∈ m.artifacts, "https://".toList <+: a.url.toList
  hashes : ∀ a ∈ m.artifacts, a.sha256.utf8ByteSize = 64

variable {rt : Runtime} {m m' : Manifest} {now later : Time} {seed : Seed} {v : Verifier} {raw key text : List Char}
  {released expires : Int} {made : Generated}

theorem verifyArtifacts_ok_iff {artifacts : List Artifact} : Release.checkArtifacts artifacts = .ok () ↔
    ∀ a ∈ artifacts, "https://".toList <+: a.url.toList ∧ a.sha256.utf8ByteSize = 64 ∧
      a.sha256.toList.all Text.isHexDigit := by
  refine ⟨checkArtifacts_ok, fun h => ?_⟩
  induction artifacts with
  | nil => rfl
  | cons a artifacts ih =>
    obtain ⟨⟨hurl, hsize, hdigits⟩, hrest⟩ := List.forall_mem_cons.mp h
    rw [Release.checkArtifacts, if_neg (not_not.mpr hurl), if_neg (not_not.mpr hsize), if_neg (by simp [hdigits])]
    exact ih hrest

theorem checkArtifacts_ok_iff {artifacts : List Artifact} : checkArtifacts artifacts = .ok () ↔
    ∀ a ∈ artifacts, "https://".toList <+: a.url.toList ∧ a.sha256.utf8ByteSize = 64 ∧ 0 < a.bytes := by
  induction artifacts with
  | nil => simp [checkArtifacts]
  | cons a artifacts ih =>
    rw [List.forall_mem_cons, checkArtifacts]
    by_cases hurl : "https://".toList <+: a.url.toList
    · rw [if_neg (not_not.mpr hurl)]
      by_cases hsize : a.sha256.utf8ByteSize = 64
      · rw [if_neg (not_not.mpr hsize)]
        by_cases hbytes : a.bytes ≤ 0
        · rw [if_pos hbytes]
          exact iff_of_false nofun fun h => absurd h.1.2.2 (Int.not_lt.mpr hbytes)
        · rw [if_neg hbytes, ih]
          exact ⟨fun h => ⟨⟨hurl, hsize, Int.not_le.mp hbytes⟩, h⟩, fun h => h.2⟩
      · rw [if_pos hsize]
        exact iff_of_false nofun fun h => hsize h.1.2.1
    · rw [if_pos hurl]
      exact iff_of_false nofun fun h => hurl h.1.1

/-- **What an agent makes of a signed manifest**, check by check. -/
theorem verify_sign_iff {id : String} {bytes : Bytes}
    (hkey : v.trustedKeys.lookup id = some (rt.ed25519.publicKey bytes)) :
    v.verify rt.ed25519.verify rt.beyond now (Release.sign rt bytes id m) = .ok m' ↔
      m' = m ∧ WellFormed m ∧ Eligible m v.current v.channel now := by
  have hcheck : Signature.check rt.ed25519.verify v.trustedKeys id (signingInput rt.beyond m)
      (Text.rawURLEncode (rt.ed25519.sign bytes (signingInput rt.beyond m))) = .ok () := by
    simp only [Signature.check, hkey, rt.ed25519.length_publicKey, Text.rawURLDecode_encode, rt.ed25519.verify_sign,
      ne_eq, not_true_eq_false, if_false, if_true]
  show v.verify rt.ed25519.verify rt.beyond now
    ⟨m, Text.rawURLEncode (rt.ed25519.sign bytes (signingInput rt.beyond m)), id⟩ = .ok m' ↔ _
  simp only [Verifier.verify, hcheck]
  by_cases hempty : m.version = "" ∨ m.artifacts = []
  · rw [if_pos hempty]
    exact iff_of_false nofun fun h => hempty.elim h.2.1.version h.2.1.artifacts
  rw [if_neg hempty]
  by_cases hvalid : validChannel m.channel
  swap
  · rw [if_pos hvalid]
    exact iff_of_false nofun fun h => hvalid h.2.1.channel
  rw [if_neg (not_not.mpr hvalid)]
  by_cases hchannel : m.channel = v.channel
  swap
  · rw [if_pos hchannel]
    exact iff_of_false nofun fun h => hchannel h.2.2.channel
  rw [if_neg (not_not.mpr hchannel)]
  by_cases hexpired : m.expiresAt.isZero ∨ ¬ now.before m.expiresAt
  · rw [if_pos hexpired]
    exact iff_of_false nofun fun h => hexpired.elim (by simp [h.2.1.expires]) fun hnot => hnot h.2.2.expires
  rw [if_neg hexpired]
  rw [not_or] at hempty hexpired
  by_cases hnewer : compareVersions m.version v.current ≤ 0
  · rw [if_pos hnewer]
    exact iff_of_false nofun fun h => absurd h.2.2.newer (Int.not_lt.mpr hnewer)
  rw [if_neg hnewer]
  by_cases hminimum : m.minimum ≠ "" ∧ compareVersions v.current m.minimum < 0
  · rw [if_pos hminimum]
    exact iff_of_false nofun fun h =>
      h.2.2.minimum.elim hminimum.1 fun hle => absurd hminimum.2 (Int.not_lt.mpr hle)
  rw [if_neg hminimum]
  cases hfiles : Release.checkArtifacts m.artifacts with
  | error e =>
    refine iff_of_false nofun fun h => ?_
    have hok := verifyArtifacts_ok_iff.mpr fun a ha => ⟨h.2.1.urls a ha, h.2.1.hashes a ha, h.2.2.digits a ha⟩
    rw [hfiles] at hok
    cases hok
  | ok _ =>
    have hok := verifyArtifacts_ok_iff.mp hfiles
    refine ⟨fun h => ?_, fun h => by rw [h.1]⟩
    cases h
    refine ⟨rfl, ⟨hempty.1, hvalid, hempty.2, by simpa using hexpired.1, fun a ha => (hok a ha).1,
      fun a ha => (hok a ha).2.1⟩, ⟨hchannel, not_not.mp hexpired.2, Int.not_le.mp hnewer, ?_,
      fun a ha => (hok a ha).2.2⟩⟩
    rw [not_and_or] at hminimum
    exact hminimum.imp not_not.mp Int.not_lt.mp

/-- **What the checks of the tool ask for.** -/
theorem check_ok : check now m = .ok () ↔
    WellFormed m ∧ now.before m.expiresAt ∧ ∀ a ∈ m.artifacts, 0 < a.bytes := by
  rw [check]
  by_cases hversion : m.version = ""
  · rw [if_pos hversion]
    exact iff_of_false nofun fun h => h.1.version hversion
  rw [if_neg hversion]
  by_cases hvalid : validChannel m.channel
  swap
  · rw [if_pos hvalid]
    exact iff_of_false nofun fun h => hvalid h.1.channel
  rw [if_neg (not_not.mpr hvalid)]
  by_cases hartifacts : m.artifacts = []
  · rw [if_pos hartifacts]
    exact iff_of_false nofun fun h => h.1.artifacts hartifacts
  rw [if_neg hartifacts]
  by_cases hexpired : m.expiresAt.isZero ∨ ¬ m.expiresAt.after now
  · rw [if_pos hexpired]
    exact iff_of_false nofun fun h => hexpired.elim (by simp [h.1.expires]) fun hnot => hnot h.2.1
  rw [if_neg hexpired, checkArtifacts_ok_iff]
  rw [not_or] at hexpired
  exact ⟨fun h => ⟨⟨hversion, hvalid, hartifacts, by simpa using hexpired.1, fun a ha => (h a ha).1,
      fun a ha => (h a ha).2.1⟩, not_not.mp hexpired.2, fun a ha => (h a ha).2.2⟩,
    fun h a ha => ⟨h.1.urls a ha, h.1.hashes a ha, h.2.2 a ha⟩⟩

/-! ## The key -/

/-- What `keygen` has written is the seed. -/
theorem loadKey_keygen {fileExists : Bool} (h : keygen rt fileExists seed = .ok made) :
    loadKey made.file = .ok seed := by
  unfold keygen at h
  split at h
  · cases h
  · cases h
    have hspace : ∀ c ∈ (Text.rawURLEncode seed.bytes).toList, Text.isSpace c = false := fun c hc =>
      Text.isSpace_rawURLEncode hc
    obtain ⟨bytes, hlength⟩ := seed
    simp only [loadKey, Text.trimSpace_line hspace, String.ofList_toList, Text.rawURLDecode_encode, hlength, dite_true]

/-- What `keygen` prints is the public key of the seed, and its name. -/
theorem keygen_printed {fileExists : Bool} (h : keygen rt fileExists seed = .ok made) :
    made.keyID = keyID rt seed ∧ made.publicKey = publicText rt seed := by
  unfold keygen at h
  split at h
  · cases h
  · cases h
    exact ⟨rfl, rfl⟩

theorem publicText_decode (rt : Runtime) (seed : Seed) : Text.rawURLDecode (publicText rt seed) =
    some (rt.ed25519.publicKey seed.bytes) := Text.rawURLDecode_encode _

theorem publicText_argument (rt : Runtime) (seed : Seed) :
    Text.rawURLDecode (String.ofList (Text.trimSpace (publicText rt seed).toList)) =
      some (rt.ed25519.publicKey seed.bytes) := by
  have hplain : ∀ c ∈ (publicText rt seed).toList, Text.isSpace c = false := fun c hc => Text.isSpace_rawURLEncode hc
  rw [Text.trimSpace_of_plain hplain, String.ofList_toList, publicText_decode]

/-! ## From the manifest to the agents -/

/-- What `sign` has done where it wrote a text. -/
theorem sign_ok (hkey : loadKey key = .ok seed) (h : sign rt released expires now raw key = .ok text) :
    ∃ m, unmarshalManifest rt raw = some m ∧ check now m = .ok () ∧
      unmarshalEnvelope rt text = .ok (Release.sign rt seed.bytes (keyID rt seed) m) := by
  unfold sign at h
  split at h
  · cases h
  · rename_i m hm
    rw [hkey] at h
    simp only [bind, Except.bind] at h
    split at h
    · cases h
    · rename_i hcheck
      split at h
      · cases h
      · rename_i encoded hencoded
        cases h
        exact ⟨m, hm, hcheck, unmarshalEnvelope_marshalIndent hencoded (fits_of_unmarshalManifest hm)⟩

/-- **A published release.** The manifest that was signed with a generated key is what agents that trust the printed
key install, exactly where it is eligible, and the tool says so beforehand. -/
theorem published {fileExists : Bool} (hmade : keygen rt fileExists seed = .ok made)
    (hsign : sign rt released expires now raw made.file = .ok text) :
    ∃ m, unmarshalManifest rt raw = some m ∧
      (∀ v later m', v.trustedKeys.lookup made.keyID = Text.rawURLDecode made.publicKey →
        (receive rt v later text = .ok m' ↔ m' = m ∧ Eligible m v.current v.channel later)) ∧
      ∀ later current channel m',
        verify rt later current channel made.publicKey text = .ok m' ↔ m' = m ∧ Eligible m current channel later := by
  obtain ⟨m, hm, hcheck, htext⟩ := sign_ok (loadKey_keygen hmade) hsign
  obtain ⟨hid, hpublic⟩ := keygen_printed hmade
  have hformed := (check_ok.mp hcheck).1
  refine ⟨m, hm, fun v later m' htrusted => ?_, fun later current channel m' => ?_⟩
  · rw [hid, hpublic, publicText_decode] at htrusted
    simp only [receive, htext, bind, Except.bind]
    rw [verify_sign_iff htrusted]
    exact and_congr_right fun _ => and_iff_right hformed
  · have htrusted : (⟨[(keyID rt seed, rt.ed25519.publicKey seed.bytes)], current, channel⟩ :
        Verifier).trustedKeys.lookup (keyID rt seed) = some (rt.ed25519.publicKey seed.bytes) := List.lookup_cons_self
    have hagent := @verify_sign_iff _ m m' later _ _ _ htrusted
    simp only [verify, htext, hpublic, publicText_argument, rt.ed25519.length_publicKey, ne_eq, not_true_eq_false,
      if_false]
    rw [and_iff_right hformed] at hagent
    rw [← hagent]
    split
    · rename_i heq
      rw [show (Release.sign rt seed.bytes (keyID rt seed) m).keyID = keyID rt seed from rfl] at heq
      rw [heq]
      exact iff_of_false nofun nofun
    · rename_i heq
      rw [show (Release.sign rt seed.bytes (keyID rt seed) m).keyID = keyID rt seed from rfl] at heq
      rw [heq, Except.ok.injEq, Except.ok.injEq]

/-- A seed. -/
def firstSeed : Seed :=
  ⟨[157, 97, 177, 157, 239, 253, 90, 96, 186, 132, 74, 244, 146, 236, 44, 196, 68, 73, 197, 105, 123, 50, 105, 25,
    112, 59, 172, 3, 28, 174, 127, 96], rfl⟩

/-- Its public key. -/
def firstKey : Bytes :=
  [215, 90, 152, 1, 130, 177, 10, 183, 213, 75, 254, 211, 201, 100, 7, 58, 14, 225, 114, 243, 218, 166, 35, 37, 175,
    2, 26, 104, 247, 7, 81, 26]

/-- A release that updates versions from 1.2.0 on. -/
def firstManifest : Manifest :=
  ⟨"1.3.0", "stable", ⟨1767225600 * 1000000000⟩, ⟨1769904000 * 1000000000⟩, "1.2.0", "",
    [⟨"agent", "darwin/arm64", "https://r.example/a",
      "ba7816bf8f01cfea414140de5dae2223b00361a396177a9cb410ff61f20015ad", 3⟩]⟩

/-- The signature of the key on the release; no other message is signed with anything. -/
def firstSignature (key : Bytes) (message : List Char) : Bytes :=
  if key = firstKey ∧ message = signingInput id firstManifest then
    [148, 144, 237, 30, 29, 242, 213, 41, 144, 65, 221, 90, 135, 118, 98, 170, 108, 26, 78, 127, 70, 116, 120, 25, 188,
      142, 58, 182, 23, 78, 147, 150, 253, 240, 243, 31, 56, 209, 251, 241, 44, 183, 49, 122, 251, 199, 57, 236, 208,
      122, 53, 99, 23, 101, 79, 239, 4, 215, 198, 173, 168, 51, 230, 4]
  else []

/-- Ed25519 as far as the release goes. -/
def firstEd25519 : Ed25519 where
  publicKey seed := if seed = firstSeed.bytes then firstKey else List.replicate 32 0
  sign seed := firstSignature (if seed = firstSeed.bytes then firstKey else List.replicate 32 0)
  verify key message sig := sig = firstSignature key message
  length_publicKey seed := by split <;> rfl
  verify_sign seed message := decide_eq_true rfl

/-- The runtime of the release. -/
def firstRuntime : Runtime := ⟨firstEd25519, id, id, fun _ => none⟩

/-- The manifest as it is handed to the tool. -/
def firstRaw : List Char :=
  Json.indent 0 (.object (firstManifest.members (.string "2026-01-01T00:00:00Z".toList)
    (.string "2026-02-01T02:00:00+02:00".toList)))

/-- The release is signed, and an agent that runs 1.2.5 installs it. -/
theorem published_firstManifest : ∃ text m, receive firstRuntime
    ⟨[(keyID firstRuntime firstSeed, firstKey)], "1.2.5", "stable"⟩ ⟨1768000000 * 1000000000⟩ text = .ok m := by
  have hread : unmarshalManifest firstRuntime firstRaw = some firstManifest :=
    @unmarshalManifest_indent _ _ 0 120 _ _ rfl rfl (by decide)
  have hcheck : check ⟨1767300000 * 1000000000⟩ firstManifest = .ok () := by decide
  obtain ⟨made, hmade⟩ : ∃ made, keygen firstRuntime false firstSeed = .ok made := ⟨_, rfl⟩
  obtain ⟨text, htext⟩ : ∃ text, sign firstRuntime 0 120 ⟨1767300000 * 1000000000⟩ firstRaw made.file = .ok text := by
    simp only [sign, hread, loadKey_keygen hmade, hcheck, bind, Except.bind]
    exact ⟨_, rfl⟩
  obtain ⟨m, hm, hagents, -⟩ := published hmade htext
  rw [hread, Option.some.injEq] at hm
  obtain ⟨hid, hpublic⟩ := keygen_printed hmade
  refine ⟨text, m, (hagents _ _ m ?_).mpr ⟨rfl, ?_⟩⟩
  · rw [hid, hpublic, publicText_decode]
    exact List.lookup_cons_self
  · rw [← hm]
    exact ⟨rfl, by decide, by decide, .inr (by decide), by decide⟩

/-! ## What the checks are worth -/

/-- No version is older. -/
def lowest : String := "0.0.0-\x00"

/-- The oldest version that may update to a manifest's. -/
def oldest (m : Manifest) : String := if m.minimum = "" then lowest else m.minimum

theorem fieldValue_nonneg (field : List Char) : 0 ≤ fieldValue field := by
  unfold fieldValue
  split
  · split <;> omega
  · exact le_rfl

theorem splitVersion_nonneg (version : String) : ∀ x ∈ (splitVersion version).1, 0 ≤ x := by
  intro x hx
  rcases List.mem_append.mp (List.mem_of_mem_take hx) with hx | hx
  · obtain ⟨field, -, rfl⟩ := List.mem_map.mp hx
    exact fieldValue_nonneg field
  · simp only [List.mem_cons, List.not_mem_nil, or_false, or_self] at hx
    rw [hx]

/-- Numbers that are not negative come after zeros. -/
theorem zeros_le {numbers : List Int} (h : ∀ x ∈ numbers, 0 ≤ x) :
    List.replicate numbers.length (0 : Int) ≤ numbers := by
  induction numbers with
  | nil => exact le_rfl
  | cons x numbers ih =>
    obtain ⟨hx, hrest⟩ := List.forall_mem_cons.mp h
    rw [List.length_cons, List.replicate_succ]
    rcases hx.eq_or_lt with rfl | hlt
    · exact List.cons_le_cons _ (ih hrest)
    · exact (List.cons_lt_cons_iff.mpr (.inl hlt)).le

theorem suffixRank_le (pre : List Char) : suffixRank ['\x00'] ≤ suffixRank pre := by
  unfold suffixRank
  rw [if_neg (List.cons_ne_nil _ _)]
  split
  · exact le_top
  · rename_i hpre
    obtain ⟨c, pre, rfl⟩ := List.exists_cons_of_ne_nil hpre
    refine WithTop.coe_le_coe.mpr ?_
    have hc : '\x00' ≤ c := UInt32.le_iff_toNat_le.mpr (Nat.zero_le _)
    rcases hc.eq_or_lt with rfl | hlt
    · exact List.cons_le_cons _ (not_lt.mp (List.not_lt_nil pre))
    · exact (List.cons_lt_cons_iff.mpr (.inl hlt)).le

theorem lowest_le (version : String) : versionRank lowest ≤ versionRank version := by
  have hlowest : splitVersion lowest = ([0, 0, 0], ['\x00']) := by decide
  have hcore := zeros_le (splitVersion_nonneg version)
  rw [length_splitVersion] at hcore
  rw [versionRank, versionRank, hlowest, Prod.Lex.toLex_le_toLex]
  rcases hcore.eq_or_lt with heq | hlt
  · exact .inr ⟨heq, suffixRank_le _⟩
  · exact .inl hlt

/-- **What the checks are worth.** A manifest passes them where some agent that trusts the key installs it now, and
every file has a size; but they do not look at the digits of the hashes, nor whether any version may update to it. -/
theorem check_ok_iff : check now m = .ok () ∧ (∀ a ∈ m.artifacts, a.sha256.toList.all Text.isHexDigit) ∧
      0 < compareVersions m.version (oldest m) ↔
    (∀ a ∈ m.artifacts, 0 < a.bytes) ∧ ∃ v : Verifier,
      v.trustedKeys.lookup (keyID rt seed) = some (rt.ed25519.publicKey seed.bytes) ∧
        v.verify rt.ed25519.verify rt.beyond now (Release.sign rt seed.bytes (keyID rt seed) m) = .ok m := by
  rw [check_ok]
  constructor
  · rintro ⟨⟨hformed, hexpires, hbytes⟩, hdigits, hnewer⟩
    have htrusted : List.lookup (keyID rt seed) [(keyID rt seed, rt.ed25519.publicKey seed.bytes)] =
        some (rt.ed25519.publicKey seed.bytes) := List.lookup_cons_self
    refine ⟨hbytes, ⟨[(keyID rt seed, rt.ed25519.publicKey seed.bytes)], oldest m, m.channel⟩, htrusted,
      (verify_sign_iff htrusted).mpr ⟨rfl, hformed, rfl, hexpires, hnewer, ?_, hdigits⟩⟩
    rw [oldest]
    split
    · exact .inl ‹_›
    · rw [compareVersions_eq, threeWay_nonneg]
      exact .inr le_rfl
  · rintro ⟨hbytes, v, htrusted, haccepted⟩
    obtain ⟨-, hformed, heligible⟩ := (verify_sign_iff htrusted).mp haccepted
    refine ⟨⟨hformed, heligible.expires, hbytes⟩, heligible.digits, ?_⟩
    have hnewer := heligible.newer
    rw [compareVersions_eq, threeWay_pos] at hnewer ⊢
    rw [oldest]
    split
    · exact (lowest_le v.current).trans_lt hnewer
    · rename_i hminimum
      have hold := heligible.minimum.resolve_left hminimum
      rw [compareVersions_eq, threeWay_nonneg] at hold
      exact hold.trans_lt hnewer

end Release.Tool
