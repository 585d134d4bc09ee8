import NetlinkHub.Account.WakeSettings
import NetlinkHub.Power.MagicPacket

/-! # From a registered address to the magic packet

The control plane checks an address with a schema and stores it in one spelling; the agent reads it with a
parser of its own. What the schema accepts, the parser reads as the octets that were spelled
(`registered_address`), and it reads twelve hexadecimal digits whatever separates them
(`parseMACBytes_ok_iff`). -/

namespace Wol

open Account (formatMac hexDigit pairs)
open Posix (Bytes)

/-! ## The schema -/

/-- What JavaScript's `trim` takes away. -/
def isBlank (c : Char) : Bool :=
  c.toNat ∈ [9, 10, 11, 12, 13, 32, 0xA0, 0x1680, 0x2028, 0x2029, 0x202F, 0x205F, 0x3000, 0xFEFF] ∨
    0x2000 ≤ c.toNat ∧ c.toNat ≤ 0x200A

/-- `trim`. -/
def trim (s : List Char) : List Char := ((s.dropWhile (isBlank ·)).reverse.dropWhile (isBlank ·)).reverse

/-- `/^(?:[0-9A-Fa-f]{2}[:-]){n}[0-9A-Fa-f]{2}$/`. -/
def separated : Nat → List Char → Bool
  | 0, [a, b] => hexDigit a && hexDigit b
  | n + 1, a :: b :: sep :: rest => hexDigit a && hexDigit b && (sep = ':' ∨ sep = '-') && separated n rest
  | _, _ => false

/-- `registerMacRequestSchema`: the address as it is handed on. -/
def registerMacRequestSchema (macAddress : String) : Except String String :=
  let trimmed := trim macAddress.toList
  if separated 5 trimmed ∨ (trimmed.length = 12 ∧ trimmed.all hexDigit) then .ok (.ofList trimmed)
  else .error "Enter a MAC address like 00:1A:2B:3C:4D:5E"

example : registerMacRequestSchema " 00-1a:2B-3c-4d-5e\n" = .ok "00-1a:2B-3c-4d-5e" := by decide

/-! ## The parser on bytes -/

/-- What is left of a text without blanks around it and separators within. -/
def cleaned (value : String) : List Char := (Text.trimSpace value.toList).filter fun c => c ∉ [':', '-', '.', ' ']

/-- The bytes of a text. -/
def utf8 (s : List Char) : Bytes := s.flatMap String.utf8EncodeChar

/-- The `switch` of `ParseMAC`. -/
def nibbleByte (c : UInt8) : Option UInt8 :=
  if 48 ≤ c ∧ c ≤ 57 then some (c - 48)
  else if 97 ≤ c ∧ c ≤ 102 then some (c - 97 + 10)
  else if 65 ≤ c ∧ c ≤ 70 then some (c - 65 + 10)
  else none

/-- The loops of `ParseMAC`, two bytes a turn. -/
def octetsOfBytes : Bytes → Option Bytes
  | c :: d :: rest => do
    let hi ← nibbleByte c
    let lo ← nibbleByte d
    let bytes ← octetsOfBytes rest
    pure ((((0 : UInt8) <<< 4 ||| hi) <<< 4 ||| lo) :: bytes)
  | [] => some []
  | [_] => none

/-- `ParseMAC` as Go runs it: `len` and the index count bytes. -/
def parseMACBytes (value : String) : Except String Bytes :=
  if (utf8 (cleaned value)).length ≠ 12 then .error errBadMAC
  else match octetsOfBytes (utf8 (cleaned value)) with
    | none => .error errBadMAC
    | some mac => .ok mac

/-! ## Characters -/

/-- What holds of every ASCII character, and of the others, holds of every character. -/
theorem char_cases {P : Char → Prop} (hascii : ∀ n : Fin 128, P (.ofNat n)) (hbeyond : ∀ c, 128 ≤ c.toNat → P c)
    (c : Char) : P c := by
  by_cases h : c.toNat < 128
  · have hc := hascii ⟨c.toNat, h⟩
    rwa [Char.ofNat_toNat] at hc
  · exact hbeyond c (by omega)

/-- A letter beyond ASCII is no digit, no separator, and has no other case. -/
theorem beyond {c : Char} (h : 128 ≤ c.toNat) : nibble c = none ∧ hexDigit c = false ∧ c.toLower = c := by
  have hval : c.toNat = c.val.toNat := rfl
  have hle {n : UInt32} (hn : n.toNat < 128) : ¬ c.val ≤ n := fun hle => by
    have := UInt32.le_iff_toNat_le.mp hle
    omega
  have h9 : ¬ c ≤ '9' := hle (by decide)
  have hF : ¬ c ≤ 'F' := hle (by decide)
  have hf : ¬ c ≤ 'f' := hle (by decide)
  have hZ : ¬ c ≤ 'Z' := hle (by decide)
  have hdigit : c.isDigit = false := by
    simp only [Char.isDigit, Bool.and_eq_false_imp, decide_eq_true_eq, decide_eq_false_iff_not]
    exact fun _ => h9
  refine ⟨?_, ?_, ?_⟩
  · rw [nibble, hdigit, if_neg (by decide), if_neg fun h => hf h.2, if_neg fun h => hF h.2]
  · simp [hexDigit, hdigit, hf, hF]
  · exact dif_neg fun h => hZ h.2

/-- A digit, the nibble it stands for, and the digit that this is written with. -/
theorem nibble_spec (c : Char) : (hexDigit c = (nibble c).isSome) ∧
    ∀ n ∈ nibble c, n < 16 ∧ Nat.digitChar n = c.toLower := by
  revert c
  refine char_cases (by decide) fun c hc => ?_
  obtain ⟨hnibble, hhex, -⟩ := beyond hc
  simp [hnibble, hhex]

theorem hexDigit_eq (c : Char) : hexDigit c = (nibble c).isSome := (nibble_spec c).1

theorem nibble_toLower (c : Char) : nibble c.toLower = nibble c := by
  revert c
  refine char_cases (by decide) fun c hc => ?_
  rw [(beyond hc).2.2]

theorem isSpace_toLower (c : Char) : Text.isSpace c.toLower = Text.isSpace c := by
  revert c
  refine char_cases (by decide) fun c hc => ?_
  rw [(beyond hc).2.2]

theorem separator_toLower (c : Char) : c.toLower ∈ [':', '-', '.', ' '] ↔ c ∈ [':', '-', '.', ' '] := by
  revert c
  refine char_cases (by decide) fun c hc => ?_
  rw [(beyond hc).2.2]

/-- Digits and colons are no blanks, and digits are no separators. -/
theorem of_hexDigit (c : Char) : hexDigit c → isBlank c = false ∧ Text.isSpace c = false ∧
    c ∉ [':', '-', '.', ' '] ∧ hexDigit c.toUpper ∧ c.toUpper.toLower = c.toLower := by
  revert c
  refine char_cases (by decide) fun c hc h => ?_
  rw [(beyond hc).2.1] at h
  cases h

/-! ## Bytes and characters -/

theorem utf8_cons (c : Char) (cs : List Char) : utf8 (c :: cs) = String.utf8EncodeChar c ++ utf8 cs := rfl

theorem utf8EncodeChar_ascii {c : Char} (h : c.toNat < 128) : String.utf8EncodeChar c = [.ofNat c.toNat] := by
  have hsize : c.utf8Size = 1 := Char.utf8Size_eq_one_iff.mpr (UInt32.le_iff_toNat_le.mpr (Nat.le_of_lt_succ h))
  rw [String.utf8EncodeChar_eq_singleton hsize]
  rfl

theorem nibbleByte_eq_none {b : UInt8} (h : 128 ≤ b.toNat) : nibbleByte b = none := by
  have hle {n : UInt8} (hn : n.toNat < 128) : ¬ b ≤ n := fun hle => by
    have := UInt8.le_iff_toNat_le.mp hle
    omega
  rw [nibbleByte, if_neg fun h => hle (by decide) h.2, if_neg fun h => hle (by decide) h.2,
    if_neg fun h => hle (by decide) h.2]

/-- The first byte of a letter beyond ASCII is no digit. -/
theorem exists_byte_beyond {c : Char} (h : 128 ≤ c.toNat) : ∃ b ∈ String.utf8EncodeChar c, nibbleByte b = none := by
  have hor (x y : UInt8) (hy : 128 ≤ y.toNat) : 128 ≤ (x ||| y).toNat := by
    rw [UInt8.toNat_or]
    exact hy.trans Nat.right_le_or
  obtain h1 | h2 | h3 | h4 := Char.utf8Size_eq c
  · have hsmall := UInt32.le_iff_toNat_le.mp (Char.utf8Size_eq_one_iff.mp h1)
    exact absurd hsmall (by
      have : c.val.toNat = c.toNat := rfl
      have : (127 : UInt32).toNat = 127 := rfl
      omega)
  · exact ⟨_, by rw [String.utf8EncodeChar_eq_cons_cons h2]; exact List.mem_cons_self, nibbleByte_eq_none (hor _ _ (by decide))⟩
  · exact ⟨_, by rw [String.utf8EncodeChar_eq_cons_cons_cons h3]; exact List.mem_cons_self, nibbleByte_eq_none (hor _ _ (by decide))⟩
  · exact ⟨_, by rw [String.utf8EncodeChar_eq_cons_cons_cons_cons h4]; exact List.mem_cons_self, nibbleByte_eq_none (hor _ _ (by decide))⟩

theorem octetsOfBytes_eq_none {bytes : Bytes} {b : UInt8} (hb : b ∈ bytes) (h : nibbleByte b = none) :
    octetsOfBytes bytes = none := by
  induction bytes using octetsOfBytes.induct with
  | case1 c d rest ih =>
    rw [octetsOfBytes]
    rcases List.mem_cons.mp hb with rfl | hb
    · rw [h]
      rfl
    rcases List.mem_cons.mp hb with rfl | hb
    · rw [h]
      cases nibbleByte c <;> rfl
    · rw [ih hb]
      cases nibbleByte c <;> cases nibbleByte d <;> rfl
  | case2 => cases hb
  | case3 c => rfl

/-- What the loops make of two ASCII digits. -/
theorem nibbleByte_ascii : ∀ n : Fin 128, nibbleByte (.ofNat n) = (nibble (.ofNat n)).map UInt8.ofNat := by decide

theorem octet_eq : ∀ hi lo : Fin 16, ((0 : UInt8) <<< 4 ||| .ofNat hi) <<< 4 ||| .ofNat lo = .ofNat (16 * hi + lo) := by
  decide

theorem octets_isSome_iff (cs : List Char) :
    (octets cs).isSome ↔ cs.length % 2 = 0 ∧ ∀ c ∈ cs, (nibble c).isSome := by
  induction cs using octets.induct with
  | case1 c d rest ih =>
    have hlength : (c :: d :: rest).length % 2 = rest.length % 2 := by
      rw [List.length_cons, List.length_cons]
      omega
    rw [octets, hlength, List.forall_mem_cons, List.forall_mem_cons]
    cases nibble c with
    | none => simp
    | some hi =>
      cases nibble d with
      | none => simp
      | some lo =>
        simp only [Option.bind_eq_bind, Option.bind_some, Option.isSome_some, true_and, ← ih]
        cases octets rest <;> rfl
  | case2 => simp [octets]
  | case3 c => simp [octets]

/-- **Counting letters instead of bytes** makes no difference to the loops. -/
theorem octetsOfBytes_utf8 {cs : List Char} (h : ∀ c ∈ cs, c.toNat < 128) : octetsOfBytes (utf8 cs) = octets cs := by
  induction cs using octets.induct with
  | case1 c d rest ih =>
    have hc := h c List.mem_cons_self
    have hd := h d (List.mem_cons_of_mem _ List.mem_cons_self)
    have hnibble {c : Char} (hc : c.toNat < 128) : nibbleByte (.ofNat c.toNat) = (nibble c).map UInt8.ofNat := by
      have := nibbleByte_ascii ⟨c.toNat, hc⟩
      rwa [Char.ofNat_toNat] at this
    rw [utf8_cons, utf8_cons, utf8EncodeChar_ascii hc, utf8EncodeChar_ascii hd, List.singleton_append,
      List.singleton_append, octetsOfBytes, octets, hnibble hc, hnibble hd,
      ih fun c hc => h c (List.mem_cons_of_mem _ (List.mem_cons_of_mem _ hc))]
    cases hhi : nibble c with
    | none => rfl
    | some hi =>
      cases hlo : nibble d with
      | none => rfl
      | some lo =>
        have hoctet := octet_eq ⟨hi, ((nibble_spec c).2 hi hhi).1⟩ ⟨lo, ((nibble_spec d).2 lo hlo).1⟩
        simp only [Option.map_some, Option.bind_eq_bind, Option.bind_some, hoctet]
  | case2 => rfl
  | case3 c =>
    rw [utf8_cons, utf8EncodeChar_ascii (h c List.mem_cons_self)]
    rfl

theorem length_utf8 {cs : List Char} (h : ∀ c ∈ cs, c.toNat < 128) : (utf8 cs).length = cs.length := by
  induction cs with
  | nil => rfl
  | cons c cs ih =>
    rw [utf8_cons, utf8EncodeChar_ascii (h c List.mem_cons_self), List.length_append,
      ih fun c hc => h c (List.mem_cons_of_mem _ hc), List.length_singleton, List.length_cons, Nat.add_comm]

theorem parseMAC_eq (value : String) : parseMAC value =
    if (cleaned value).length ≠ 12 then .error errBadMAC
    else match octets (cleaned value) with
      | none => .error errBadMAC
      | some mac => .ok mac := rfl

theorem parseMACBytes_eq (value : String) : parseMACBytes value = parseMAC value := by
  rw [parseMAC_eq, parseMACBytes]
  by_cases hall : ∀ c ∈ cleaned value, c.toNat < 128
  · rw [length_utf8 hall, octetsOfBytes_utf8 hall]
  · -- A letter beyond ASCII: both refuse, whichever check comes first.
    obtain ⟨c, hc, hbeyond⟩ : ∃ c ∈ cleaned value, 128 ≤ c.toNat := by
      simpa only [not_forall, Nat.not_lt, exists_prop] using hall
    obtain ⟨b, hb, hnone⟩ := exists_byte_beyond hbeyond
    have hbytes : octetsOfBytes (utf8 (cleaned value)) = none :=
      octetsOfBytes_eq_none (List.mem_flatMap.mpr ⟨c, hc, hb⟩) hnone
    have hletters : octets (cleaned value) = none := by
      rw [← Option.not_isSome_iff_eq_none, octets_isSome_iff]
      intro h
      have := h.2 c hc
      rw [(beyond hbeyond).1] at this
      cases this
    rw [hbytes, hletters]
    simp only [ite_self]

/-! ## What the parser accepts -/

/-- **Twelve digits.** -/
theorem parseMACBytes_ok_iff (value : String) : (∃ mac, parseMACBytes value = .ok mac) ↔
    (cleaned value).length = 12 ∧ ∀ c ∈ cleaned value, hexDigit c := by
  have hdigits : (octets (cleaned value)).isSome ↔
      (cleaned value).length % 2 = 0 ∧ ∀ c ∈ cleaned value, hexDigit c := by
    rw [octets_isSome_iff]
    simp only [hexDigit_eq]
  rw [parseMACBytes_eq, parseMAC_eq]
  by_cases hlength : (cleaned value).length = 12
  · rw [hlength] at hdigits
    rw [if_neg (not_not.mpr hlength)]
    cases hoctets : octets (cleaned value) with
    | none =>
      rw [hoctets] at hdigits
      simp only [reduceCtorEq, exists_false, hlength, true_and, false_iff]
      exact fun hall => absurd (hdigits.mpr ⟨rfl, hall⟩) (by decide)
    | some mac =>
      rw [hoctets] at hdigits
      simp only [Except.ok.injEq, exists_eq', hlength, true_and, true_iff]
      exact (hdigits.mp rfl).2
  · simp [hlength]

theorem trimSpace_map (f : Char → Char) (hf : ∀ c, Text.isSpace (f c) = Text.isSpace c) (s : List Char) :
    Text.trimSpace (s.map f) = (Text.trimSpace s).map f := by
  have hdrop (s : List Char) : (s.map f).dropWhile (Text.isSpace ·) = (s.dropWhile (Text.isSpace ·)).map f := by
    rw [List.dropWhile_map]
    congr 2
    exact funext hf
  rw [Text.trimSpace, hdrop, ← List.map_reverse, hdrop, ← List.map_reverse, Text.trimSpace]

theorem trimSpace_eq_self {s : List Char} (h : ∀ c ∈ s, Text.isSpace c = false) : Text.trimSpace s = s := by
  have hdrop {s : List Char} (h : ∀ c ∈ s, Text.isSpace c = false) : s.dropWhile (Text.isSpace ·) = s := by
    cases s with
    | nil => rfl
    | cons c s => rw [List.dropWhile_cons_of_neg (by simp [h c List.mem_cons_self])]
  rw [Text.trimSpace, hdrop h, hdrop fun c hc => h c (List.mem_reverse.mp hc), List.reverse_reverse]

theorem octets_map_toLower (cs : List Char) : octets (cs.map Char.toLower) = octets cs := by
  induction cs using octets.induct with
  | case1 c d rest ih =>
    rw [List.map_cons, List.map_cons, octets, octets, nibble_toLower, nibble_toLower, ih]
  | case2 => rfl
  | case3 c => rfl

/-- **Letter case** does not matter. -/
theorem parseMACBytes_congr {s t : String} (h : s.toList.map Char.toLower = t.toList.map Char.toLower) :
    parseMACBytes s = parseMACBytes t := by
  have hcleaned (s : String) : (cleaned s).map Char.toLower =
      (Text.trimSpace (s.toList.map Char.toLower)).filter fun c => c ∉ [':', '-', '.', ' '] := by
    rw [trimSpace_map _ isSpace_toLower, List.filter_map, cleaned]
    refine congrArg _ (List.filter_congr fun c _ => ?_)
    simp only [Function.comp_apply, decide_eq_decide]
    exact not_congr (separator_toLower c).symm
  have hsame : (cleaned s).map Char.toLower = (cleaned t).map Char.toLower := by rw [hcleaned, hcleaned, h]
  have hlength : (cleaned s).length = (cleaned t).length := by
    have := congrArg List.length hsame
    rwa [List.length_map, List.length_map] at this
  have hoctets : octets (cleaned s) = octets (cleaned t) := by
    rw [← octets_map_toLower, hsame, octets_map_toLower]
  rw [parseMACBytes_eq, parseMACBytes_eq, parseMAC_eq, parseMAC_eq, hlength, hoctets]

/-! ## An address on its way -/

/-- A byte in hexadecimal. -/
def hex (b : UInt8) : List Char := [Nat.digitChar (b.toNat / 16), Nat.digitChar (b.toNat % 16)]

/-- **What the octets are**: written in hexadecimal they are the digits that were read. -/
theorem flatMap_hex_octets {cs : List Char} {mac : Bytes} (h : octets cs = some mac) :
    mac.flatMap hex = cs.map Char.toLower := by
  induction cs using octets.induct generalizing mac with
  | case1 c d rest ih =>
    rw [octets] at h
    simp only [Option.bind_eq_bind, Option.bind_eq_some_iff, Option.pure_def, Option.some.injEq] at h
    obtain ⟨hi, hc, lo, hd, bytes, hbytes, rfl⟩ := h
    obtain ⟨hhi, hcdigit⟩ := (nibble_spec c).2 hi hc
    obtain ⟨hlo, hddigit⟩ := (nibble_spec d).2 lo hd
    have hbyte : (UInt8.ofNat (16 * hi + lo)).toNat = 16 * hi + lo := by
      rw [UInt8.toNat_ofNat']
      omega
    have hupper : (16 * hi + lo) / 16 = hi := by omega
    have hlower : (16 * hi + lo) % 16 = lo := by omega
    rw [List.flatMap_cons, ih hbytes, hex, hbyte, hupper, hlower, hcdigit, hddigit]
    rfl
  | case2 =>
    cases h
    rfl
  | case3 c => cases h

/-- The digits of an address. -/
def digits (macAddress : String) : List Char := macAddress.toList.filter hexDigit

theorem filter_trim (s : List Char) : (trim s).filter hexDigit = s.filter hexDigit := by
  have hdrop (s : List Char) : (s.dropWhile (isBlank ·)).filter hexDigit = s.filter hexDigit := by
    induction s with
    | nil => rfl
    | cons c s ih =>
      by_cases hblank : isBlank c
      · have hdigit : ¬ hexDigit c := fun hc => by
          rw [(of_hexDigit c hc).1] at hblank
          cases hblank
        rw [List.dropWhile_cons_of_pos hblank, ih, List.filter_cons_of_neg hdigit]
      · rw [List.dropWhile_cons_of_neg hblank]
  rw [trim, List.filter_reverse, hdrop, List.filter_reverse, hdrop, List.reverse_reverse]

/-- `n + 1` pairs of digits. -/
theorem length_filter_separated {n : Nat} {s : List Char} (h : separated n s) :
    (s.filter hexDigit).length = 2 * (n + 1) := by
  induction n, s using separated.induct with
  | case1 a b =>
    rw [separated, Bool.and_eq_true] at h
    simp [h.1, h.2]
  | case2 n a b sep rest ih =>
    simp only [separated, Bool.and_eq_true, decide_eq_true_eq] at h
    obtain ⟨⟨⟨ha, hb⟩, hsep⟩, hrest⟩ := h
    have hskip : ¬ hexDigit sep := by rcases hsep with rfl | rfl <;> decide
    rw [List.filter_cons_of_pos ha, List.filter_cons_of_pos hb, List.filter_cons_of_neg hskip, List.length_cons,
      List.length_cons, ih hrest]
    omega
  | case3 n s hpair hmore =>
    rw [separated] at h
    · cases h
    · exact hpair
    · exact hmore

/-- The schema accepts twelve digits. -/
theorem length_digits {macAddress accepted : String} (h : registerMacRequestSchema macAddress = .ok accepted) :
    digits accepted = digits macAddress ∧ (digits macAddress).length = 12 := by
  rw [registerMacRequestSchema] at h
  split at h
  · rename_i hmac
    obtain rfl := Except.ok.inj h
    rw [digits, String.toList_ofList, digits, filter_trim]
    refine ⟨rfl, ?_⟩
    rw [← filter_trim]
    rcases hmac with hpairs | ⟨hlength, hall⟩
    · exact length_filter_separated hpairs
    · rw [List.filter_eq_self.mpr (List.all_eq_true.mp hall), hlength]
  · cases h

theorem filter_intercalate {sep : List Char} {p : Char → Bool} (hsep : ∀ c ∈ sep, ¬ p c) (fields : List (List Char)) :
    (sep.intercalate fields).filter p = fields.flatten.filter p := by
  induction fields with
  | nil => rfl
  | cons field fields ih =>
    cases fields with
    | nil => rw [List.intercalate_singleton, List.flatten_cons, List.flatten_nil, List.append_nil]
    | cons next fields =>
      rw [List.intercalate_cons_cons, List.append_assoc, List.filter_append, List.filter_append, ih,
        List.filter_eq_nil_iff.mpr hsep, List.nil_append, ← List.filter_append, ← List.flatten_cons]

theorem flatten_pairs : ∀ {cs : List Char}, cs.length % 2 = 0 → ((pairs cs).map String.toList).flatten = cs
  | [], _ => rfl
  | [_], h => by cases h
  | a :: b :: rest, h => by
    have hrest : rest.length % 2 = 0 := by
      simp only [List.length_cons] at h
      omega
    rw [pairs, List.map_cons, List.flatten_cons, String.toList_ofList, flatten_pairs hrest]
    rfl

/-- **The spelling that is stored** is cleaned to the digits alone. -/
theorem cleaned_formatMac {macAddress : String} (h : (digits macAddress).length = 12) :
    cleaned (formatMac macAddress) = (digits macAddress).map Char.toUpper := by
  have hflat : ((pairs ((digits macAddress).map Char.toUpper)).map String.toList).flatten =
      (digits macAddress).map Char.toUpper := flatten_pairs (by rw [List.length_map, h])
  have hdigit : ∀ c ∈ (digits macAddress).map Char.toUpper, hexDigit c := fun c hc => by
    obtain ⟨d, hd, rfl⟩ := List.mem_map.mp hc
    exact (of_hexDigit d (List.mem_filter.mp hd).2).2.2.2.1
  have htext : (formatMac macAddress).toList =
      [':'].intercalate ((pairs ((digits macAddress).map Char.toUpper)).map String.toList) :=
    String.toList_intercalate
  -- There is nothing to trim: a digit is no blank, and neither is a colon.
  have hspace : ∀ c ∈ (formatMac macAddress).toList, Text.isSpace c = false := fun c hc => by
    by_cases hcolon : c = ':'
    · rw [hcolon]
      decide
    · have hmem : c ∈ (formatMac macAddress).toList.filter (· ≠ ':') := List.mem_filter.mpr ⟨hc, by simpa using hcolon⟩
      rw [htext, filter_intercalate (by simp), hflat] at hmem
      exact (of_hexDigit c (hdigit c (List.mem_filter.mp hmem).1)).2.1
  rw [cleaned, trimSpace_eq_self hspace, htext, filter_intercalate (by simp), hflat, List.filter_eq_self]
  exact fun c hc => decide_eq_true (of_hexDigit c (hdigit c hc)).2.2.1

/-- **A registered address**: the agent reads it as the octets that were spelled, and builds the packet. -/
theorem registered_address {macAddress accepted : String} (h : registerMacRequestSchema macAddress = .ok accepted) :
    ∃ mac payload, parseMACBytes (formatMac accepted) = .ok mac ∧ mac.length = 6 ∧
      mac.flatMap hex = (digits macAddress).map Char.toLower ∧ buildMagicPacket mac = .ok payload ∧
      payload = List.replicate 6 0xFF ++ (List.replicate 16 mac).flatten ∧ payload.length = 102 := by
  obtain ⟨hsame, hlength⟩ := length_digits h
  have hcleaned := cleaned_formatMac (hsame ▸ hlength)
  rw [hsame] at hcleaned
  obtain ⟨mac, hmac⟩ : ∃ mac, parseMACBytes (formatMac accepted) = .ok mac := by
    rw [parseMACBytes_ok_iff, hcleaned, List.length_map]
    refine ⟨hlength, fun c hc => ?_⟩
    obtain ⟨d, hd, rfl⟩ := List.mem_map.mp hc
    exact (of_hexDigit d (List.mem_filter.mp hd).2).2.2.2.1
  have hparse := hmac
  rw [parseMACBytes_eq] at hparse
  have hsix := parseMAC_length hparse
  refine ⟨mac, _, hmac, hsix, ?_, buildMagicPacket_parseMAC hparse, rfl, ?_⟩
  · have hoctets : octets (cleaned (formatMac accepted)) = some mac := by
      rw [parseMAC_eq] at hparse
      split at hparse
      · cases hparse
      split at hparse
      · cases hparse
      rename_i octs hoctets
      rw [hoctets, Except.ok.inj hparse]
    rw [flatMap_hex_octets hoctets, hcleaned, List.map_map]
    exact List.map_congr_left fun c hc => (of_hexDigit c (List.mem_filter.mp hc).2).2.2.2.2
  · simp [hsix]

/-- **From schema to packet**, and what the parser accepts. -/
theorem mac_address :
    (∀ macAddress accepted, registerMacRequestSchema macAddress = .ok accepted →
      ∃ mac payload, parseMACBytes (formatMac accepted) = .ok mac ∧ mac.length = 6 ∧
        mac.flatMap hex = (digits macAddress).map Char.toLower ∧ buildMagicPacket mac = .ok payload ∧
        payload = List.replicate 6 0xFF ++ (List.replicate 16 mac).flatten ∧ payload.length = 102) ∧
    (∀ value, (∃ mac, parseMACBytes value = .ok mac) ↔
      (cleaned value).length = 12 ∧ ∀ c ∈ cleaned value, hexDigit c) ∧
    ∀ s t : String, s.toList.map Char.toLower = t.toList.map Char.toLower → parseMACBytes s = parseMACBytes t :=
  ⟨fun _ _ => registered_address, parseMACBytes_ok_iff, fun _ _ => parseMACBytes_congr⟩

end Wol
