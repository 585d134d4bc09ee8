import NetlinkHub.Go.Base64
import NetlinkHub.Go.Json
import NetlinkHub.Release.Manifest

/-! # Envelopes as JSON

How a signed manifest is made (`sign`), written and read (`unmarshalEnvelope`), and how a downloaded file is
checked against it (`verifyFile`). An envelope is read back as it was written, in whatever zones its times are
(`unmarshalEnvelope_marshalIndent`). -/

namespace Release

open Posix (Bytes)

/-! ## The parts that are not in the package -/

/-- Ed25519, with the seed of a key for the key. Public keys are whole, and what is signed verifies. -/
structure Ed25519 where
  publicKey : Bytes → Bytes
  sign : Bytes → List Char → Bytes
  verify : Signature.Scheme
  length_publicKey : ∀ seed, (publicKey seed).length = Signature.publicKeySize
  verify_sign : ∀ seed message, verify (publicKey seed) message (sign seed message) = true

/-- The signature scheme, lower case beyond ASCII, how letter case is folded in JSON, and `time.Parse`. -/
structure Runtime where
  ed25519 : Ed25519
  beyond : Char → Char
  fold : String → String
  parseTime : List Char → Option Time

/-! ## Reading -/

/-- The zero value. -/
def Artifact.zero : Artifact := ⟨"", "", "", "", 0⟩

/-- The zero value. -/
def Manifest.zero : Manifest := ⟨"", "", Time.zero, Time.zero, "", "", []⟩

/-- The fields of an artifact in its text. -/
def Artifact.fields : List (Unmarshal.Field Artifact) :=
  [Unmarshal.stringField "component" fun text a => { a with component := text },
    Unmarshal.stringField "platform" fun text a => { a with platform := text },
    Unmarshal.stringField "url" fun text a => { a with url := text },
    Unmarshal.stringField "sha256" fun text a => { a with sha256 := text },
    Unmarshal.intField "bytes" fun x a => { a with bytes := x }]

/-- A manifest that is being read, and the artifacts in the memory behind its slice. -/
structure Draft where
  manifest : Manifest
  spare : List Artifact

/-- The zero value. -/
def Draft.zero : Draft := ⟨.zero, []⟩

/-- The fields of a manifest in its text. -/
def Draft.fields (rt : Runtime) : List (Unmarshal.Field Draft) :=
  let put (f : Manifest → Manifest) (d : Draft) : Draft := { d with manifest := f d.manifest }
  [Unmarshal.stringField "version" fun text => put fun m => { m with version := text },
    Unmarshal.stringField "channel" fun text => put fun m => { m with channel := text },
    Unmarshal.timeField rt.parseTime "releasedAt" fun time => put fun m => { m with releasedAt := time },
    Unmarshal.timeField rt.parseTime "expiresAt" fun time => put fun m => { m with expiresAt := time },
    Unmarshal.stringField "minimumVersion" fun text => put fun m => { m with minimum := text },
    Unmarshal.stringField "notes" fun text => put fun m => { m with notes := text },
    Unmarshal.sliceField (Unmarshal.struct rt.fold Artifact.fields) .zero "artifacts"
      (fun d => d.manifest.artifacts ++ d.spare)
      fun artifacts spare d => ⟨{ d.manifest with artifacts := artifacts }, spare⟩]

/-- `json.Unmarshal` of a manifest. -/
def unmarshalManifest (rt : Runtime) (raw : List Char) : Option Manifest :=
  (Json.parse raw).bind fun value =>
    (Unmarshal.struct rt.fold (Draft.fields rt) value .zero).map (·.manifest)

/-- An envelope that is being read. -/
structure EnvelopeDraft where
  manifest : Draft
  signature : String
  keyID : String

/-- The fields of an envelope in its text. -/
def EnvelopeDraft.fields (rt : Runtime) : List (Unmarshal.Field EnvelopeDraft) :=
  [Unmarshal.structField rt.fold (Draft.fields rt) "manifest" (·.manifest) fun m e => { e with manifest := m },
    Unmarshal.stringField "signature" fun text e => { e with signature := text },
    Unmarshal.stringField "keyId" fun text e => { e with keyID := text }]

/-- `UnmarshalEnvelope`. -/
def unmarshalEnvelope (rt : Runtime) (raw : List Char) : Except Error Envelope :=
  match (Json.parse raw).bind fun value =>
    Unmarshal.struct rt.fold (EnvelopeDraft.fields rt) value ⟨.zero, "", ""⟩ with
  | some e => .ok ⟨e.manifest.manifest, e.signature, e.keyID⟩
  | none => .error .malformed

/-! ## Writing -/

/-- A member that is a string. -/
def stringMember (name text : String) : List Char × Json := (Json.quote name, .string (Marshal.quote text))

/-- A member with `omitempty`. -/
def omitEmpty (name text : String) : List (List Char × Json) := if text = "" then [] else [stringMember name text]

/-- An artifact. -/
def Artifact.json (a : Artifact) : Json :=
  .object [stringMember "component" a.component, stringMember "platform" a.platform, stringMember "url" a.url,
    stringMember "sha256" a.sha256, (Json.quote "bytes", Marshal.int a.bytes)]

/-- The members of a manifest. -/
def Manifest.members (m : Manifest) (releasedAt expiresAt : Json) : List (List Char × Json) :=
  stringMember "version" m.version :: stringMember "channel" m.channel :: (Json.quote "releasedAt", releasedAt) ::
    (Json.quote "expiresAt", expiresAt) :: (omitEmpty "minimumVersion" m.minimum ++ (omitEmpty "notes" m.notes ++
      [(Json.quote "artifacts", .array (m.artifacts.map (·.json)))]))

/-- `json.MarshalIndent` of an envelope whose times are in the given zones, in minutes east of UTC. -/
def marshalIndent (released expires : Int) (env : Envelope) : Option (List Char) := do
  let releasedAt ← Marshal.timeIn released env.manifest.releasedAt
  let expiresAt ← Marshal.timeIn expires env.manifest.expiresAt
  some (Json.indent 0 (.object [(Json.quote "manifest", .object (env.manifest.members releasedAt expiresAt)),
    stringMember "signature" env.signature, stringMember "keyId" env.keyID]))

/-! ## Signing, and checking files -/

/-- `Sign`. -/
def sign (rt : Runtime) (seed : Bytes) (keyID : String) (m : Manifest) : Envelope where
  manifest := m
  signature := Text.rawURLEncode (rt.ed25519.sign seed (signingInput rt.beyond m))
  keyID := keyID

/-- Why a file is refused. -/
inductive FileError where
  | stat
  | open
  /-- "the downloaded file does not match the signed checksum" -/
  | checksum
  deriving DecidableEq, Repr

/-- `VerifyFile`: the size as `Stat` reports it, and then what is read of the file, up to the signed size. -/
def verifyFile (beyond : Char → Char) (sha256 : Bytes → Bytes) (size : Option Int) (content : Option Bytes)
    (a : Artifact) : Except FileError Unit :=
  match size with
  | none => .error .stat
  | some size =>
    if size ≠ a.bytes then .error .checksum
    else match content with
      | none => .error .open
      | some content =>
        if Text.hexEncode (sha256 (content.take a.bytes.toNat)) ≠ Text.toLower beyond a.sha256.toList then
          .error .checksum
        else .ok ()

/-! ## What is written is read back -/

/-- An integer of 64 bits. -/
def Artifact.Fits (a : Artifact) : Prop := -2 ^ 63 ≤ a.bytes ∧ a.bytes < 2 ^ 63

instance (a : Artifact) : Decidable a.Fits := inferInstanceAs (Decidable (-2 ^ 63 ≤ a.bytes ∧ a.bytes < 2 ^ 63))

variable {rt : Runtime} {raw text : List Char} {m : Manifest} {env : Envelope}

theorem struct_artifact {fold : String → String} {a : Artifact} (h : a.Fits) :
    Unmarshal.struct fold Artifact.fields a.json .zero = some a := by
  have hmember : ∀ key {field}, Artifact.fields.find? (·.name = key) = some field →
      ∀ value rest s, Unmarshal.members fold Artifact.fields ((Json.quote key, value) :: rest) s =
        (field.set value s).bind (Unmarshal.members fold Artifact.fields rest) :=
    fun key _ h value rest s => Unmarshal.members_cons h
  simp only [Artifact.json, stringMember]
  rw [Unmarshal.struct_object, hmember "component" rfl, Marshal.set_stringField, Option.bind_some,
    hmember "platform" rfl, Marshal.set_stringField, Option.bind_some,
    hmember "url" rfl, Marshal.set_stringField, Option.bind_some,
    hmember "sha256" rfl, Marshal.set_stringField, Option.bind_some,
    hmember "bytes" rfl, Marshal.set_intField _ _ _ h.1 h.2, Option.bind_some]
  rfl

/-- A member with `omitempty` is read back: where it is left out, the field is empty from the start. -/
theorem members_omitEmpty {σ : Type} {fold : String → String} {fields : List (Unmarshal.Field σ)}
    {name text : String} {put : String → σ → σ} {s : σ} (rest : List (List Char × Json))
    (hfield : fields.find? (·.name = name) = some (Unmarshal.stringField name put)) (hempty : put "" s = s) :
    Unmarshal.members fold fields (omitEmpty name text ++ rest) s =
      Unmarshal.members fold fields rest (put text s) := by
  unfold omitEmpty
  split
  · rename_i htext
    rw [List.nil_append, htext, hempty]
  · rw [List.singleton_append, stringMember, Unmarshal.members_cons hfield, Marshal.set_stringField, Option.bind_some]

theorem members_manifest {released expires : Int} {releasedAt expiresAt : Json}
    (hreleased : Marshal.timeIn released m.releasedAt = some releasedAt)
    (hexpires : Marshal.timeIn expires m.expiresAt = some expiresAt) (hfits : ∀ a ∈ m.artifacts, a.Fits) :
    Unmarshal.members rt.fold (Draft.fields rt) (m.members releasedAt expiresAt) .zero = some ⟨m, []⟩ := by
  have hmember : ∀ key {field}, (Draft.fields rt).find? (·.name = key) = some field →
      ∀ value rest s, Unmarshal.members rt.fold (Draft.fields rt) ((Json.quote key, value) :: rest) s =
        (field.set value s).bind (Unmarshal.members rt.fold (Draft.fields rt) rest) :=
    fun key _ h value rest s => Unmarshal.members_cons h
  have hartifacts := fun s hmemory => @Unmarshal.set_sliceField _ _ _ _ _ m.artifacts
    (fun d : Draft => d.manifest.artifacts ++ d.spare) s "artifacts"
    (fun artifacts spare d => ⟨{ d.manifest with artifacts := artifacts }, spare⟩) hmemory
    fun a ha => @struct_artifact rt.fold _ (hfits a ha)
  simp only [Manifest.members, stringMember]
  rw [hmember "version" rfl, Marshal.set_stringField, Option.bind_some,
    hmember "channel" rfl, Marshal.set_stringField, Option.bind_some,
    hmember "releasedAt" rfl, Marshal.set_timeField _ _ _ hreleased, Option.bind_some,
    hmember "expiresAt" rfl, Marshal.set_timeField _ _ _ hexpires, Option.bind_some,
    members_omitEmpty _ rfl rfl, members_omitEmpty _ rfl rfl,
    hmember "artifacts" rfl, hartifacts _ rfl, Option.bind_some]
  rfl

theorem readable_artifact (a : Artifact) : a.json.Readable := by
  have hkey := Json.isRaw_quote
  have hvalue := Marshal.isRaw_quote
  have hint := Marshal.readable_int
  simp [Artifact.json, stringMember, Json.Readable, Json.ReadableMembers, hkey, hvalue, hint]

theorem readableItems_artifacts (artifacts : List Artifact) : Json.ReadableItems (artifacts.map (·.json)) := by
  induction artifacts with
  | nil => trivial
  | cons a artifacts ih => exact ⟨readable_artifact a, ih⟩

theorem readableMembers_append {ms ms' : List (List Char × Json)} (h : Json.ReadableMembers ms)
    (h' : Json.ReadableMembers ms') : Json.ReadableMembers (ms ++ ms') := by
  induction ms with
  | nil => exact h'
  | cons member ms ih => exact ⟨h.1, h.2.1, ih h.2.2⟩

theorem readableMembers_omitEmpty (name text : String) : Json.ReadableMembers (omitEmpty name text) := by
  unfold omitEmpty
  split
  · trivial
  · exact ⟨Json.isRaw_quote _, Marshal.isRaw_quote _, trivial⟩

theorem readable_manifest {releasedAt expiresAt : Json} (hreleased : releasedAt.Readable)
    (hexpires : expiresAt.Readable) (m : Manifest) : Json.ReadableMembers (m.members releasedAt expiresAt) := by
  have hkey := Json.isRaw_quote
  have hvalue := Marshal.isRaw_quote
  exact ⟨hkey _, hvalue _, hkey _, hvalue _, hkey _, hreleased, hkey _, hexpires,
    readableMembers_append (readableMembers_omitEmpty _ _) (readableMembers_append (readableMembers_omitEmpty _ _)
      ⟨hkey _, readableItems_artifacts _, trivial⟩)⟩

/-- A manifest comes back. -/
theorem unmarshalManifest_indent {released expires : Int} {releasedAt expiresAt : Json}
    (hreleased : Marshal.timeIn released m.releasedAt = some releasedAt)
    (hexpires : Marshal.timeIn expires m.expiresAt = some expiresAt) (hfits : ∀ a ∈ m.artifacts, a.Fits) :
    unmarshalManifest rt (Json.indent 0 (.object (m.members releasedAt expiresAt))) = some m := by
  have hreadable : (Json.object (m.members releasedAt expiresAt)).Readable :=
    readable_manifest (Marshal.readable_timeIn hreleased) (Marshal.readable_timeIn hexpires) m
  rw [unmarshalManifest, Json.parse_indent 0 hreadable, Option.bind_some, Unmarshal.struct_object,
    members_manifest hreleased hexpires hfits]
  rfl

/-- **An envelope comes back.** -/
theorem unmarshalEnvelope_marshalIndent {released expires : Int} (h : marshalIndent released expires env = some text)
    (hfits : ∀ a ∈ env.manifest.artifacts, a.Fits) : unmarshalEnvelope rt (text ++ ['\n']) = .ok env := by
  obtain ⟨releasedAt, hreleased, h⟩ := Option.bind_eq_some_iff.mp h
  obtain ⟨expiresAt, hexpires, h⟩ := Option.bind_eq_some_iff.mp h
  cases h
  have hreadable : (Json.object [(Json.quote "manifest", .object (env.manifest.members releasedAt expiresAt)),
      stringMember "signature" env.signature, stringMember "keyId" env.keyID]).Readable :=
    ⟨Json.isRaw_quote _, readable_manifest (Marshal.readable_timeIn hreleased) (Marshal.readable_timeIn hexpires) _,
      Json.isRaw_quote _, Marshal.isRaw_quote _, Json.isRaw_quote _, Marshal.isRaw_quote _, trivial⟩
  have hparse := Json.parse_indent_append 0 hreadable (t := ['\n']) rfl
  simp only [stringMember] at hparse
  have hmember : ∀ key {field}, (EnvelopeDraft.fields rt).find? (·.name = key) = some field →
      ∀ value rest s, Unmarshal.members rt.fold (EnvelopeDraft.fields rt) ((Json.quote key, value) :: rest) s =
        (field.set value s).bind (Unmarshal.members rt.fold (EnvelopeDraft.fields rt) rest) :=
    fun key _ h value rest s => Unmarshal.members_cons h
  have hmanifest : ∀ s : EnvelopeDraft, s.manifest = .zero →
      (Unmarshal.structField rt.fold (Draft.fields rt) "manifest" (·.manifest)
        fun m (e : EnvelopeDraft) => { e with manifest := m }).set
        (.object (env.manifest.members releasedAt expiresAt)) s = some { s with manifest := ⟨env.manifest, []⟩ } := by
    intro s hs
    simp only [Unmarshal.structField, hs, Unmarshal.struct_object, members_manifest hreleased hexpires hfits,
      Option.map_some]
  simp only [unmarshalEnvelope, stringMember, hparse, Option.bind_some, Unmarshal.struct_object]
  rw [hmember "manifest" rfl, hmanifest _ rfl, Option.bind_some,
    hmember "signature" rfl, Marshal.set_stringField, Option.bind_some,
    hmember "keyId" rfl, Marshal.set_stringField, Option.bind_some]
  rfl

/-- The sizes of a manifest that was read have 64 bits. -/
theorem fits_of_unmarshalManifest (h : unmarshalManifest rt raw = some m) : ∀ a ∈ m.artifacts, a.Fits := by
  have hartifact : Unmarshal.Keeps (Unmarshal.struct rt.fold Artifact.fields) Artifact.Fits := by
    refine Unmarshal.keeps_struct fun field hfield => ?_
    simp only [Artifact.fields, List.mem_cons, List.not_mem_nil, or_false] at hfield
    rcases hfield with rfl | rfl | rfl | rfl | rfl
    iterate 4 exact Unmarshal.keeps_stringField fun _ _ h => h
    exact Unmarshal.keeps_intField fun x s hlow hhigh _ => ⟨hlow, hhigh⟩
  have hdraft : Unmarshal.Keeps (Unmarshal.struct rt.fold (Draft.fields rt)) fun d =>
      ∀ a ∈ d.manifest.artifacts ++ d.spare, a.Fits := by
    refine Unmarshal.keeps_struct fun field hfield => ?_
    simp only [Draft.fields, List.mem_cons, List.not_mem_nil, or_false] at hfield
    rcases hfield with rfl | rfl | rfl | rfl | rfl | rfl | rfl
    · exact Unmarshal.keeps_stringField fun _ _ h => h
    · exact Unmarshal.keeps_stringField fun _ _ h => h
    · exact Unmarshal.keeps_timeField fun _ _ h => h
    · exact Unmarshal.keeps_timeField fun _ _ h => h
    · exact Unmarshal.keeps_stringField fun _ _ h => h
    · exact Unmarshal.keeps_stringField fun _ _ h => h
    · exact Unmarshal.keeps_sliceField hartifact ⟨by decide, by decide⟩ fun _ _ _ => rfl
  obtain ⟨value, -, hstruct⟩ := Option.bind_eq_some_iff.mp h
  obtain ⟨d, hd, rfl⟩ := Option.map_eq_some_iff.mp hstruct
  intro a ha
  exact hdraft value _ d hd (fun a ha => nomatch ha) a (List.mem_append_left _ ha)

/-! ## Checking a file -/

variable {beyond : Char → Char} {sha256 : Bytes → Bytes} {a : Artifact} {published : Bytes}

/-- **What `VerifyFile` accepts** of an artifact that names the size and the hash of a published file: a file that
had the size and begins with the published bytes. -/
theorem verifyFile_ok_iff (hbytes : a.bytes = published.length)
    (hsha256 : Text.toLower beyond a.sha256.toList = Text.hexEncode (sha256 published))
    (hcollide : ∀ other, sha256 other = sha256 published → other = published) (size : Option Int)
    (content : Option Bytes) : verifyFile beyond sha256 size content a = .ok () ↔
      size = some (published.length : Int) ∧ ∃ bytes, content = some bytes ∧ published <+: bytes := by
  cases size with
  | none => simp [verifyFile]
  | some size =>
    simp only [verifyFile, hbytes, Int.toNat_natCast, hsha256]
    by_cases hsize : size = published.length
    · rw [if_neg (not_not.mpr hsize)]
      cases content with
      | none => simp
      | some bytes =>
        have hsame : Text.hexEncode (sha256 (bytes.take published.length)) = Text.hexEncode (sha256 published) ↔
            published <+: bytes := by
          rw [List.prefix_iff_eq_take]
          exact ⟨fun heq => (hcollide _ (Text.hexEncode_inj heq)).symm, fun heq => by rw [← heq]⟩
        by_cases hprefix : published <+: bytes
        · simp [hsize, hsame, hprefix]
        · simp [hsize, hsame, hprefix]
    · rw [if_pos hsize]
      simp [hsize]

/-- SHA-256 as far as the text "abc" goes. -/
def digestOfAbc (bytes : Bytes) : Bytes :=
  if bytes = [97, 98, 99] then
    [0xba, 0x78, 0x16, 0xbf, 0x8f, 0x01, 0xcf, 0xea, 0x41, 0x41, 0x40, 0xde, 0x5d, 0xae, 0x22, 0x23,
      0xb0, 0x03, 0x61, 0xa3, 0x96, 0x17, 0x7a, 0x9c, 0xb4, 0x10, 0xff, 0x61, 0xf2, 0x00, 0x15, 0xad]
  else []

/-- A file of three bytes. -/
def abc : Artifact :=
  ⟨"agent", "darwin/arm64", "https://r.example/a",
    "BA7816BF8F01CFEA414140DE5DAE2223B00361A396177A9CB410FF61F20015AD", 3⟩

/-- The file may have grown after its size was asked for. -/
theorem verifyFile_ok_iff_abc : verifyFile id digestOfAbc (some 3) (some [97, 98, 99, 100]) abc = .ok () := by
  have hbytes : abc.bytes = ([97, 98, 99] : Bytes).length := rfl
  refine (verifyFile_ok_iff hbytes (by decide) (fun other h => ?_) _ _).mpr ⟨rfl, _, rfl, by decide⟩
  by_contra hne
  rw [digestOfAbc, if_neg hne] at h
  exact absurd h (by decide)

end Release
