import NetlinkHub.Release.Manifest
import NetlinkHub.Run.Steps
import NetlinkHub.Text.Delimited
import NetlinkHub.Text.SemVer

/-! # Updates and the precedence of versions

What `CompareVersions` makes of well-formed versions: it reads numbers of 64 bits, and compares whatever
stands behind them as text, build metadata included. An accepted version is therefore higher than the one
it replaces except where it only looks so (`Deceptive`), and a chain of updates without such an offer
climbs (`updates_ascend`). -/

namespace Release

open SemVer (Version)

/-! ## What is read of a version -/

/-- A number that does not fit into 64 bits counts as zero. -/
def readNumber (n : ℕ) : ℕ := if n < 2 ^ 63 then n else 0

/-- The numbers as they are read. -/
def readNumbers (v : Version) : ℕ ×ₗ ℕ ×ₗ ℕ :=
  toLex (readNumber v.major, toLex (readNumber v.minor, readNumber v.patch))

/-- What stands behind the first sign after the numbers. -/
def suffix (v : Version) : List Char := v.rest.drop 1

/-- A suffix that looks newer than another, where the numbers are the same. -/
def SuffixNewer (v w : Version) : Prop :=
  suffix v = [] ∧ suffix w ≠ [] ∨ suffix v ≠ [] ∧ suffix w ≠ [] ∧ suffix w < suffix v

/-- An offered version that looks newer than the running one and is not. -/
inductive Deceptive (offered running : Version) : Prop where
  /-- A number that is read as zero makes the running version look older. -/
  | overflow (looks : readNumbers running < readNumbers offered) (numbers : offered.numbers < running.numbers)
  /-- It makes the two look the same up to their suffixes. -/
  | overflowSame (looks : readNumbers running = readNumbers offered)
      (suffix : SuffixNewer offered running) (numbers : offered.numbers < running.numbers)
  /-- The running version has build metadata and no pre-release, and the offered one has neither. -/
  | build (numbers : offered.numbers = running.numbers) (none : suffix offered = [])
      (release : running.pre = []) (metadata : running.build ≠ [])
  /-- As text its suffix comes later, but its pre-release does not. -/
  | text (numbers : offered.numbers = running.numbers) (some : suffix offered ≠ [])
      (some' : suffix running ≠ []) (looks : suffix running < suffix offered)
      (pre : offered.preRank ≤ running.preRank)

variable {v w : Version}

/-! ## Splitting a version -/

theorem dot_notMem_digits (n : ℕ) : '.' ∉ SemVer.digits n :=
  fun h => absurd (SemVer.isDigit_of_mem_digits h) (by decide)

theorem fieldValue_digits (n : ℕ) : fieldValue (SemVer.digits n) = readNumber n := by
  have hall : (SemVer.digits n).all Char.isDigit :=
    List.all_eq_true.mpr fun c hc => SemVer.isDigit_of_mem_digits hc
  have hvalue : (SemVer.digits n).foldl (fun n c => 10 * n + (c.toNat - 48)) 0 = n := by
    have := Nat.ofDigitChars_ten_toDigits (n := n)
    rwa [Nat.ofDigitChars_eq_foldl] at this
  obtain ⟨c, letters, htext⟩ := List.exists_cons_of_ne_nil
    (show SemVer.digits n ≠ [] from Nat.toDigits_ne_nil)
  have hc : c.isDigit := SemVer.isDigit_of_mem_digits (htext ▸ List.mem_cons_self)
  have hminus : c ≠ '-' := by
    rintro rfl
    exact absurd hc (by decide)
  have hplus : c ≠ '+' := by
    rintro rfl
    exact absurd hc (by decide)
  have hdigits : Text.digits (SemVer.digits n) = some n := by
    rw [htext] at hall hvalue ⊢
    rw [Text.digits, if_pos hall, hvalue]
    simp
  have hatoi : Text.atoi (SemVer.digits n) = if n < 2 ^ 63 then some (n : Int) else none := by
    rw [htext] at hdigits ⊢
    unfold Text.atoi
    split
    · rename_i heq
      exact absurd (List.cons.inj heq).1 hminus
    · rename_i heq
      exact absurd (List.cons.inj heq).1 hplus
    · rw [hdigits]
      rfl
  rw [fieldValue, hatoi, readNumber]
  split
  · rename_i value heq
    split at heq
    · cases heq
      rw [if_neg (by omega), if_pos ‹_›]
    · cases heq
  · rename_i heq
    split at heq
    · cases heq
    · rw [if_neg ‹_›]
      rfl

/-- A letter of a version. -/
theorem letter_of_mem {c : Char} (h : c ∈ v.core ++ v.rest) : SemVer.isLetter c ∨ c = '.' ∨ c = '+' := by
  have hparts : ∀ parts : List (List Char), (∀ part ∈ parts, ∀ c ∈ part, SemVer.isLetter c) →
      c ∈ SemVer.dotted parts → SemVer.isLetter c ∨ c = '.' := by
    intro parts hletters hc
    rcases Delimited.mem_of_mem_intercalate hc with hdot | ⟨part, hpart, hc⟩
    · exact .inr (List.mem_singleton.mp hdot)
    · exact .inl (hletters part hpart c hc)
  have hminus : SemVer.isLetter '-' := by decide
  simp only [Version.rest, List.mem_append] at h
  rcases h with h | h | h
  · have hdigits : ∀ part ∈ [SemVer.digits v.major, SemVer.digits v.minor, SemVer.digits v.patch],
        ∀ c ∈ part, SemVer.isLetter c := by
      simp only [List.mem_cons, List.not_mem_nil, or_false]
      rintro part (rfl | rfl | rfl) c hc <;>
        exact SemVer.isLetter_of_isDigit (SemVer.isDigit_of_mem_digits hc)
    exact (hparts _ hdigits h).imp_right .inl
  · split at h
    · cases h
    · rcases List.mem_cons.mp h with rfl | h
      · exact .inl hminus
      · refine (hparts _ ?_ h).imp_right .inl
        simp only [List.mem_map, forall_exists_index, and_imp, forall_apply_eq_imp_iff₂]
        exact fun i _ c hc => SemVer.isLetter_of_mem_text hc
  · split at h
    · cases h
    · rcases List.mem_cons.mp h with rfl | h
      · exact .inr (.inr rfl)
      · refine (hparts _ ?_ h).imp_right .inl
        simp only [List.mem_map, forall_exists_index, and_imp, forall_apply_eq_imp_iff₂]
        exact fun i _ c hc => i.letters c hc

/-- A letter of a version is no space. -/
theorem not_isSpace_of_mem {c : Char} (h : c ∈ v.core ++ v.rest) : Text.isSpace c = false := by
  have hlow : ∀ n : Fin 128, (SemVer.isLetter (Char.ofNat n) ∨ Char.ofNat n = '.' ∨ Char.ofNat n = '+') →
      Text.isSpace (Char.ofNat n) = false := by decide
  have hascii : ∀ c, SemVer.isLetter c → c.toNat < 128 := by
    intro c hc
    have halpha : c.isAlpha = (c.isUpper || c.isLower) := rfl
    have hupper : c.isUpper = decide (c.val ≥ 'A'.val ∧ c.val ≤ 'Z'.val) := rfl
    have hlower : c.isLower = (c.val ≥ 'a'.val && c.val ≤ 'z'.val) := rfl
    simp only [SemVer.isLetter, Char.isAlphanum, halpha, hupper, hlower, Char.isDigit,
      Bool.or_eq_true, Bool.and_eq_true, decide_eq_true_eq, ge_iff_le, UInt32.le_iff_toNat_le] at hc
    have hval : c.toNat = c.val.toNat := rfl
    have hZ : ('Z').val.toNat = 90 := rfl
    have hz : ('z').val.toNat = 122 := rfl
    have h9 : ('9').val.toNat = 57 := rfl
    rcases hc with hc | rfl
    · omega
    · decide
  have hletter := letter_of_mem h
  have hlt : c.toNat < 128 := by
    rcases hletter with hc | rfl | rfl
    · exact hascii c hc
    · decide
    · decide
  have := hlow ⟨c.toNat, hlt⟩
  rw [Char.ofNat_toNat] at this
  exact this hletter

theorem dropWhile_eq_self {p : Char → Bool} {s : List Char} (h : ∀ c ∈ s, p c = false) :
    s.dropWhile p = s := by
  cases s with
  | nil => rfl
  | cons c s => simp [h c List.mem_cons_self]

/-- A version has no space around it. -/
theorem trimSpace_text (v : Version) : Text.trimSpace v.text.toList = v.core ++ v.rest := by
  have hfront : ∀ c ∈ v.core ++ v.rest, Text.isSpace c = false := fun c hc => not_isSpace_of_mem hc
  have hback : ∀ c ∈ (v.core ++ v.rest).reverse, Text.isSpace c = false :=
    fun c hc => hfront c (List.mem_reverse.mp hc)
  rw [Version.text, String.toList_ofList, Text.trimSpace, dropWhile_eq_self hfront,
    dropWhile_eq_self hback, List.reverse_reverse]

/-- A version begins with a digit. -/
theorem core_cons (v : Version) : ∃ c letters, v.core = c :: letters ∧ c.isDigit := by
  obtain ⟨c, letters, h⟩ := List.exists_cons_of_ne_nil
    (show SemVer.digits v.major ≠ [] from Nat.toDigits_ne_nil)
  have hc : c ∈ SemVer.digits v.major := h ▸ List.mem_cons_self
  have hcore : v.core = SemVer.digits v.major ++ ['.'] ++
      SemVer.dotted [SemVer.digits v.minor, SemVer.digits v.patch] := List.intercalate_cons_cons
  exact ⟨c, _, by rw [hcore, h]; rfl, SemVer.isDigit_of_mem_digits hc⟩

theorem trimPrefix_text (v : Version) : Text.trimPrefix 'v' (v.core ++ v.rest) = v.core ++ v.rest := by
  obtain ⟨c, letters, h, hc⟩ := core_cons v
  rw [h, List.cons_append, Text.trimPrefix, if_neg]
  rintro rfl
  exact absurd hc (by decide)

/-- A sign that ends the numbers. -/
def noSign (c : Char) : Bool := c ≠ '-' ∧ c ≠ '+'

theorem noSign_of_mem_core {c : Char} (h : c ∈ v.core) : noSign c := by
  have hdigit : ∀ n, c ∈ SemVer.digits n → noSign c := by
    intro n hc
    have := SemVer.isDigit_of_mem_digits hc
    refine decide_eq_true ⟨?_, ?_⟩
    · rintro rfl
      exact absurd this (by decide)
    · rintro rfl
      exact absurd this (by decide)
  rcases Delimited.mem_of_mem_intercalate h with hdot | ⟨part, hpart, hc⟩
  · rw [List.mem_singleton.mp hdot]
    decide
  · simp only [List.mem_cons, List.not_mem_nil, or_false] at hpart
    rcases hpart with rfl | rfl | rfl <;> exact hdigit _ hc

/-- What stands behind the numbers begins with a sign. -/
theorem rest_cases (v : Version) : v.rest = [] ∨ ∃ c letters, v.rest = c :: letters ∧ noSign c = false := by
  unfold Version.rest
  by_cases hpre : v.pre = []
  · by_cases hbuild : v.build = []
    · exact .inl (by simp [hpre, hbuild])
    · exact .inr ⟨'+', v.buildText, by simp [hpre, hbuild], by decide⟩
  · exact .inr ⟨'-', _, by rw [if_neg hpre]; rfl, by decide⟩

theorem cut_text (v : Version) : (v.core ++ v.rest).takeWhile noSign = v.core ∧
    (v.core ++ v.rest).dropWhile noSign = v.rest := by
  have hcore : ∀ c ∈ v.core, noSign c := fun c hc => noSign_of_mem_core hc
  rw [List.takeWhile_append_of_pos hcore, List.dropWhile_append_of_pos hcore]
  rcases rest_cases v with h | ⟨c, letters, h, hc⟩
  · simp [h]
  · simp [h, hc]

theorem splitN_core (v : Version) : Text.splitN '.' 3 v.core =
    [SemVer.digits v.major, SemVer.digits v.minor, SemVer.digits v.patch] := by
  have hnoDot : ∀ n, ∀ c ∈ SemVer.digits n, decide (c ≠ '.') = true := by
    intro n c hc
    refine decide_eq_true ?_
    rintro rfl
    exact dot_notMem_digits n hc
  have htake : ∀ (n : ℕ) (rest : List Char),
      (SemVer.digits n ++ '.' :: rest).takeWhile (· ≠ '.') = SemVer.digits n := by
    intro n rest
    rw [List.takeWhile_append_of_pos (hnoDot n)]
    simp
  have hdrop : ∀ (n : ℕ) (rest : List Char),
      ((SemVer.digits n ++ '.' :: rest).dropWhile (· ≠ '.')).drop 1 = rest := by
    intro n rest
    rw [List.dropWhile_append_of_pos (hnoDot n)]
    simp
  have hcore : v.core = SemVer.digits v.major ++ '.' :: (SemVer.digits v.minor ++ '.' ::
      SemVer.digits v.patch) := by
    simp [Version.core, SemVer.dotted, List.intercalate_cons_cons]
  rw [hcore, Text.splitN, if_pos (by simp), htake, hdrop, Text.splitN, if_pos (by simp), htake, hdrop,
    Text.splitN]

/-- **What is read of a version.** -/
theorem splitVersion_text (v : Version) : splitVersion v.text =
    ([(readNumber v.major : Int), (readNumber v.minor : Int), (readNumber v.patch : Int)], suffix v) := by
  obtain ⟨hcore, hrest⟩ := cut_text v
  have hcore' : (v.core ++ v.rest).takeWhile (fun c => c ≠ '-' ∧ c ≠ '+') = v.core := hcore
  have hrest' : (v.core ++ v.rest).dropWhile (fun c => c ≠ '-' ∧ c ≠ '+') = v.rest := hrest
  simp only [splitVersion, trimSpace_text, trimPrefix_text, hcore', hrest', splitN_core, List.map_cons,
    List.map_nil, fieldValue_digits]
  rfl

/-! ## Comparing two versions -/

theorem compareCore_read (v w : Version) :
    compareCore [(readNumber v.major : Int), (readNumber v.minor : Int), (readNumber v.patch : Int)]
        [(readNumber w.major : Int), (readNumber w.minor : Int), (readNumber w.patch : Int)] =
      if readNumbers v < readNumbers w then -1 else if readNumbers w < readNumbers v then 1 else 0 := by
  simp only [compareCore, readNumbers, Prod.Lex.toLex_lt_toLex, ne_eq, Int.natCast_inj, Int.ofNat_lt]
  generalize readNumber v.major = a, readNumber v.minor = b, readNumber v.patch = c,
    readNumber w.major = a', readNumber w.minor = b', readNumber w.patch = c'
  by_cases ha : a = a'
  · by_cases hb : b = b'
    · by_cases hc : c = c'
      · simp [ha, hb, hc]
      · rcases Nat.lt_or_gt_of_ne hc with hlt | hlt
        · simp [ha, hb, hc, hlt]
        · simp [ha, hb, hc, hlt, not_lt.mpr hlt.le]
    · rcases Nat.lt_or_gt_of_ne hb with hlt | hlt
      · simp [ha, hb, hlt]
      · simp [ha, hb, hlt, not_lt.mpr hlt.le, Ne.symm hb]
  · rcases Nat.lt_or_gt_of_ne ha with hlt | hlt
    · simp [ha, hlt]
    · simp [ha, hlt, not_lt.mpr hlt.le, Ne.symm ha]

theorem comparePre_pos (v w : Version) : 0 < comparePre (suffix v) (suffix w) ↔ SuffixNewer v w := by
  unfold comparePre SuffixNewer
  by_cases hv : suffix v = []
  · by_cases hw : suffix w = [] <;> simp [hv, hw]
  · by_cases hw : suffix w = []
    · simp [hv, hw]
    · by_cases hlt : suffix v < suffix w
      · simp [hv, hw, hlt, le_of_lt hlt]
      · by_cases hgt : suffix w < suffix v <;> simp [hv, hw, hlt, hgt]

/-- **When an offered version looks newer.** -/
theorem looks_newer_iff (v w : Version) : 0 < compareVersions v.text w.text ↔
    readNumbers w < readNumbers v ∨ readNumbers v = readNumbers w ∧ SuffixNewer v w := by
  simp only [compareVersions, splitVersion_text, compareCore_read]
  rcases lt_trichotomy (readNumbers v) (readNumbers w) with hlt | heq | hgt
  · simp [hlt, not_lt.mpr hlt.le, hlt.ne]
  · simp [heq, comparePre_pos]
  · simp [hgt, not_lt.mpr hgt.le, hgt.ne']

theorem dotted_ne_nil {parts : List (List Char)} (hsome : parts ≠ []) (h : ∀ part ∈ parts, part ≠ []) :
    SemVer.dotted parts ≠ [] := by
  obtain ⟨part, rest, rfl⟩ := List.exists_cons_of_ne_nil hsome
  have hpart := h part List.mem_cons_self
  cases rest with
  | nil => simpa [SemVer.dotted] using hpart
  | cons next rest => simp [SemVer.dotted, List.intercalate_cons_cons]

/-- Without a suffix there is neither a pre-release nor build metadata. -/
theorem suffix_eq_nil : suffix v = [] ↔ v.pre = [] ∧ v.build = [] := by
  have hpre : v.pre ≠ [] → v.preText ≠ [] := by
    intro h
    refine dotted_ne_nil (by simpa using h) ?_
    simp only [List.mem_map, forall_exists_index, and_imp, forall_apply_eq_imp_iff₂]
    exact fun i _ => SemVer.text_ne_nil i
  have hbuild : v.build ≠ [] → v.buildText ≠ [] := by
    intro h
    refine dotted_ne_nil (by simpa using h) ?_
    simp only [List.mem_map, forall_exists_index, and_imp, forall_apply_eq_imp_iff₂]
    exact fun i _ => i.some
  unfold suffix Version.rest
  by_cases hv : v.pre = []
  · by_cases hb : v.build = []
    · simp [hv, hb]
    · simp [hv, hb, hbuild hb]
  · simp [hv, hpre hv]

theorem preRank_eq_top : v.preRank = ⊤ ↔ v.pre = [] := by
  unfold Version.preRank
  split
  · rename_i h
    exact iff_of_true rfl h
  · rename_i h
    exact iff_of_false (WithTop.coe_ne_top) h

theorem readNumbers_congr (h : v.numbers = w.numbers) : readNumbers v = readNumbers w := by
  simp only [Version.numbers, EmbeddingLike.apply_eq_iff_eq, Prod.mk.injEq] at h
  obtain ⟨hmajor, hminor, hpatch⟩ := h
  rw [readNumbers, readNumbers, hmajor, hminor, hpatch]

/-- **Where looks deceive.** A version that looks newer has higher precedence unless it is deceptive. -/
theorem deceptive_iff (h : 0 < compareVersions v.text w.text) : Deceptive v w ↔ ¬ w.Precedes v := by
  rw [looks_newer_iff] at h
  have hbelow : ¬ w.Precedes v ↔
      v.numbers < w.numbers ∨ v.numbers = w.numbers ∧ v.preRank ≤ w.preRank := by
    rw [SemVer.precedes_iff]
    rcases lt_trichotomy v.numbers w.numbers with hlt | heq | hgt
    · simp [hlt, not_lt.mpr hlt.le, hlt.ne']
    · simp [heq]
    · simp [hgt, not_lt.mpr hgt.le, hgt.ne']
  rw [hbelow]
  constructor
  · rintro (⟨-, hnumbers⟩ | ⟨-, -, hnumbers⟩ | ⟨hnumbers, hnone, hrelease, -⟩ | ⟨hnumbers, -, -, -, hpre⟩)
    · exact .inl hnumbers
    · exact .inl hnumbers
    · refine .inr ⟨hnumbers, ?_⟩
      rw [preRank_eq_top.mpr hrelease]
      exact le_top
    · exact .inr ⟨hnumbers, hpre⟩
  · rintro (hnumbers | ⟨hnumbers, hpre⟩)
    · rcases h with hread | ⟨hread, hsuffix⟩
      · exact .overflow hread hnumbers
      · exact .overflowSame hread.symm hsuffix hnumbers
    · have hread := readNumbers_congr hnumbers
      rcases h with hless | ⟨-, ⟨hnone, hsome⟩ | ⟨hsome, hsome', hlooks⟩⟩
      · exact absurd hread hless.ne'
      · -- The running version has a suffix but comes no earlier than a release.
        have htop : w.preRank = ⊤ := by
          rw [preRank_eq_top.mpr (suffix_eq_nil.mp hnone).1] at hpre
          exact top_le_iff.mp hpre
        have hrelease := preRank_eq_top.mp htop
        exact .build hnumbers hnone hrelease fun hbuild => hsome (suffix_eq_nil.mpr ⟨hrelease, hbuild⟩)
      · exact .text hnumbers hsome hsome' hlooks hpre

/-! ## Chains of updates -/

/-- An offered envelope, looked at at some time; its version is well-formed. -/
structure Offer where
  now : Time
  env : Envelope
  version : Version
  isVersion : env.manifest.version = version.text

/-- An installation that runs a well-formed version. -/
structure Installation where
  verifier : Verifier
  version : Version
  runs : verifier.current = version.text

variable (scheme : Signature.Scheme) (beyond : Char → Char)

/-- The offer passes `Verify`. -/
def Installation.Accepts (i : Installation) (offer : Offer) : Prop :=
  (i.verifier.verify scheme beyond offer.now offer.env).isOk

instance (i : Installation) (offer : Offer) : Decidable (i.Accepts scheme beyond offer) :=
  inferInstanceAs (Decidable (_ = true))

/-- What is accepted runs from then on. -/
def Installation.update (offer : Offer) (i : Installation) : Installation :=
  if i.Accepts scheme beyond offer then
    ⟨{ i.verifier with current := offer.env.manifest.version }, offer.version, offer.isVersion⟩
  else i

/-- The installation after a list of offers. -/
def Installation.updates (offers : List Offer) (i : Installation) : Installation :=
  Run.run (Installation.update scheme beyond) offers i

variable {scheme beyond} {i : Installation} {offer : Offer}

theorem looks_newer_of_accepts (h : i.Accepts scheme beyond offer) :
    0 < compareVersions offer.version.text i.version.text := by
  unfold Installation.Accepts at h
  cases hverify : i.verifier.verify scheme beyond offer.now offer.env with
  | error e =>
    rw [hverify] at h
    cases h
  | ok m =>
    obtain ⟨hm, -, -, -, -, hnewer, -⟩ := verify_ok hverify
    rwa [hm, offer.isVersion, i.runs] at hnewer

/-- **One update.** An accepted version is higher than the one it replaces, unless it is deceptive. -/
theorem ascends_iff (h : i.Accepts scheme beyond offer) :
    i.version.Precedes offer.version ↔ ¬ Deceptive offer.version i.version := by
  rw [deceptive_iff (looks_newer_of_accepts h), not_not]

/-- Along offers that do not deceive, the version never gets lower. -/
theorem rank_le_updates {offers : List Offer}
    (h : Run.Along (Installation.update scheme beyond)
      (fun offer i => ¬ Deceptive offer.version i.version) offers i) :
    i.version.rank ≤ (i.updates scheme beyond offers).version.rank := by
  have hstep (offer : Offer) (j : Installation) (hhonest : ¬ Deceptive offer.version j.version)
      (hle : i.version.rank ≤ j.version.rank) :
      i.version.rank ≤ (j.update scheme beyond offer).version.rank := by
    unfold Installation.update
    split
    · rename_i haccepts
      exact hle.trans ((ascends_iff haccepts).mpr hhonest).le
    · exact hle
  exact h.invariant hstep le_rfl

/-- **Updates ascend.** An accepted version is higher than the one it replaces exactly when it is not
deceptive. Along offers that do not deceive every accepted version is higher than the one it replaces, and
what runs after an update stays higher than what ran before it. -/
theorem updates_ascend (scheme : Signature.Scheme) (beyond : Char → Char) :
    (∀ (i : Installation) (offer : Offer), i.Accepts scheme beyond offer →
        (i.version.Precedes offer.version ↔ ¬ Deceptive offer.version i.version)) ∧
      ∀ (start : Installation) (offers : List Offer),
        Run.Along (Installation.update scheme beyond)
          (fun offer i => ¬ Deceptive offer.version i.version) offers start →
        Run.Along (Installation.update scheme beyond)
            (fun offer i => i.Accepts scheme beyond offer → i.version.Precedes offer.version) offers start ∧
          ∀ before offer after, offers = before ++ offer :: after →
            (start.updates scheme beyond before).Accepts scheme beyond offer →
            (start.updates scheme beyond before).version.Precedes
              (start.updates scheme beyond offers).version := by
  refine ⟨fun i offer => ascends_iff, fun start offers hhonest => ⟨?_, ?_⟩⟩
  · exact hhonest.mono fun offer i h haccepts => (ascends_iff haccepts).mpr h
  · rintro before offer after rfl haccepts
    obtain ⟨-, hthis, hafter⟩ := Run.along_append.mp hhonest
    have hupdate : ((start.updates scheme beyond before).update scheme beyond offer).version =
        offer.version := by
      rw [Installation.update, if_pos haccepts]
    calc (start.updates scheme beyond before).version.rank
        < offer.version.rank := (ascends_iff haccepts).mpr hthis
      _ = ((start.updates scheme beyond before).update scheme beyond offer).version.rank := by
        rw [hupdate]
      _ ≤ (start.updates scheme beyond (before ++ offer :: after)).version.rank := by
        have hrest := rank_le_updates hafter
        unfold Installation.updates at hrest ⊢
        rw [Run.run_append, Run.run_cons]
        exact hrest

/-! ## A chain that goes down -/

/-- An envelope that offers a version. -/
def offering (version : String) : Envelope where
  manifest :=
    { version := version
      channel := "stable"
      releasedAt := ⟨0⟩
      expiresAt := ⟨1000000000⟩
      minimum := ""
      notes := ""
      artifacts := [⟨"agent", "linux/amd64", "https://a",
        "00112233445566778899aabbccddeeff00112233445566778899aabbccddeeff", 1⟩] }
  signature := "AAAA"
  keyID := "release"

/-- The word of a beta. -/
def betaWord : SemVer.Identifier :=
  .alphanumeric "beta".toList (List.all_eq_true.mp (by decide)) ⟨'b', by decide, by decide⟩

/-- A numbered beta of one release. -/
def beta (n : ℕ) : Version := ⟨1, 0, 0, [betaWord, .numeric n], []⟩

/-- An installation of the tenth beta. -/
def tenth : Installation where
  verifier := ⟨[("release", List.replicate 32 7)], (beta 10).text, "stable"⟩
  version := beta 10
  runs := rfl

/-- An offer of the second beta. -/
def offerSecond : Offer := ⟨⟨0⟩, offering (beta 2).text, beta 2, rfl⟩

/-- A scheme that accepts every signature of three zero bytes. -/
def zeroScheme : Signature.Scheme := fun _ _ sig => sig = [0, 0, 0]

/-- **From the tenth beta to the second.** As text `beta.2` comes after `beta.10`. -/
theorem updates_descend : tenth.Accepts zeroScheme id offerSecond ∧
    ¬ Run.Along (Installation.update zeroScheme id)
      (fun offer i => i.Accepts zeroScheme id offer → i.version.Precedes offer.version)
      [offerSecond] tenth ∧
    (tenth.updates zeroScheme id [offerSecond]).version.Precedes tenth.version := by
  have haccepts : tenth.Accepts zeroScheme id offerSecond := by decide +kernel
  have hbelow : (beta 2).Precedes (beta 10) := by
    rw [SemVer.precedes_iff]
    refine .inr ⟨rfl, WithTop.coe_lt_coe.mpr ?_⟩
    exact List.Lex.cons (List.Lex.rel (Sum.Lex.inl (by decide)))
  refine ⟨haccepts, fun h => ?_, ?_⟩
  · exact absurd (h.1 haccepts) (not_lt.mpr hbelow.le)
  · show ((tenth.update zeroScheme id offerSecond).version).Precedes (beta 10)
    rw [Installation.update, if_pos haccepts]
    exact hbelow

end Release
