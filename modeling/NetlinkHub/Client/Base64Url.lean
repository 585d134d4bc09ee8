import NetlinkHub.Go.Base64
import NetlinkHub.Text.Bits

/-! # The mobile app's base64url

The app has a codec of its own. It writes what RFC 4648 prescribes (`toBase64Url_eq`), and reads the
digits of a text whatever stands between them (`fromBase64Url_eq`). The decoder never masks its buffer:
after the first few digits the buffer holds the last 32 bits of all the digits together, and the eight bits
that are emitted are always among them (`emit_ofNat`). -/

namespace Base64Url

open Bits (bits groups value)
open Posix (Bytes)

/-! ## The two functions -/

/-- `ALPHABET`. -/
def alphabet : List Char := "ABCDEFGHIJKLMNOPQRSTUVWXYZabcdefghijklmnopqrstuvwxyz0123456789-_".toList

/-- What `out += ALPHABET[n]` adds. -/
def alphabetAt (n : Nat) : List Char :=
  match alphabet[n]? with
  | some c => [c]
  | none => "undefined".toList

/-- The loop of `toBase64Url`. Behind the last byte, `bytes[index]` is `undefined`. -/
def encodeLoop : Bytes → List Char
  | [] => []
  | [a] => alphabetAt (a.toNat >>> 2) ++ alphabetAt ((a.toNat &&& 3) <<< 4 ||| 0 >>> 4)
  | [a, b] =>
    alphabetAt (a.toNat >>> 2) ++ (alphabetAt ((a.toNat &&& 3) <<< 4 ||| b.toNat >>> 4) ++
      alphabetAt ((b.toNat &&& 15) <<< 2 ||| 0 >>> 6))
  | a :: b :: c :: rest =>
    alphabetAt (a.toNat >>> 2) ++ (alphabetAt ((a.toNat &&& 3) <<< 4 ||| b.toNat >>> 4) ++
      (alphabetAt ((b.toNat &&& 15) <<< 2 ||| c.toNat >>> 6) ++ (alphabetAt (c.toNat &&& 63) ++ encodeLoop rest)))

/-- `toBase64Url`. -/
def toBase64Url (bytes : Bytes) : String := .ofList (encodeLoop bytes)

/-- The UTF-16 code units of a text. -/
def utf16 (s : String) : List UInt16 :=
  s.toList.flatMap fun c =>
    if c.toNat < 0x10000 then [.ofNat c.toNat]
    else [.ofNat (0xD800 + (c.toNat - 0x10000) / 0x400), .ofNat (0xDC00 + (c.toNat - 0x10000) % 0x400)]

/-- What `for (const character of value)` goes through, as code points. A surrogate without its partner
stands for itself. -/
def codePoints : List UInt16 → List Nat
  | high :: low :: rest =>
    if (0xD800 ≤ high.toNat ∧ high.toNat < 0xDC00) ∧ (0xDC00 ≤ low.toNat ∧ low.toNat < 0xE000) then
      (0x10000 + (high.toNat - 0xD800) * 0x400 + (low.toNat - 0xDC00)) :: codePoints rest
    else high.toNat :: codePoints (low :: rest)
  | [unit] => [unit.toNat]
  | [] => []

/-- `lookup.get`. -/
def lookup (character : Nat) : Option Nat := alphabet.findIdx? fun c => c.toNat = character

/-- What the decoder has at hand, with a buffer of some kind. -/
structure Decoder (β : Type) where
  bytes : Bytes
  buffer : β
  bits : Nat
  deriving DecidableEq, Repr

section
variable {β : Type} (shift : β → Nat → β) (emit : β → Nat → UInt8)

/-- One digit. -/
def Decoder.push (d : Decoder β) (digit : Nat) : Decoder β :=
  let buffer := shift d.buffer digit
  let bits := d.bits + 6
  if bits ≥ 8 then ⟨d.bytes ++ [emit buffer (bits - 8)], buffer, bits - 8⟩ else ⟨d.bytes, buffer, bits⟩

/-- The loop of `fromBase64Url`. -/
def decodeLoop (zero : β) (value : List UInt16) : Bytes :=
  (((codePoints value).filterMap lookup).foldl (Decoder.push shift emit) ⟨[], zero, 0⟩).bytes

end

/-- `(buffer << 6) | digit`. -/
def shift (buffer : BitVec 32) (digit : Nat) : BitVec 32 := buffer <<< 6 ||| .ofNat 32 digit

/-- `(buffer >> bits) & 0xff`. -/
def emit (buffer : BitVec 32) (bits : Nat) : UInt8 := .ofNat (buffer.sshiftRight bits &&& 0xff).toNat

/-- `fromBase64Url`. -/
def fromBase64Url (value : List UInt16) : Bytes := decodeLoop shift emit 0 value

example : fromBase64Url (utf16 "TW Fu😀_w\n") = [77, 97, 110, 255] := by decide +kernel

/-! ## The same with whole numbers -/

/-- `(buffer << 6) | digit` without an end. -/
def shiftWhole (buffer digit : Nat) : Nat := buffer <<< 6 ||| digit

/-- `(buffer >> bits) & 0xff` of a whole number. -/
def emitWhole (buffer bits : Nat) : UInt8 := .ofNat (buffer >>> bits &&& 0xff)

/-- `fromBase64Url` with a buffer that never wraps around. -/
def fromBase64UrlWhole (value : List UInt16) : Bytes := decodeLoop shiftWhole emitWhole 0 value

/-! ## What RFC 4648 says -/

/-- The bits of a list of bytes. -/
def stream (bytes : Bytes) : List Bool := bytes.flatMap fun b => bits 8 b.toNat

/-- The zeros that fill up the last group of six. -/
def zeros (bytes : Bytes) : List Bool := List.replicate ((6 - (stream bytes).length % 6) % 6) false

/-- Section 5 without padding: a letter for each group of six. -/
def rfcEncode (bytes : Bytes) : String :=
  .ofList ((groups 6 (stream bytes ++ zeros bytes)).map fun group => Text.letter (value group))

/-- The whole bytes among the bits of some digits. -/
def rfcDecode (digits : List Nat) : Bytes :=
  (groups 8 (digits.flatMap (bits 6))).map fun group => .ofNat (value group)

/-! ## The encoder -/

theorem alphabetAt_eq : ∀ n : Fin 64, alphabetAt n = [Text.letter n] := by decide

/-- Six bits are written as their letter. -/
theorem alphabetAt_mod (n : Nat) : alphabetAt (n % 2 ^ 6) = [Text.letter (n % 2 ^ 6)] :=
  alphabetAt_eq ⟨n % 2 ^ 6, Nat.mod_lt _ (by decide)⟩

theorem alphabetAt_shift {a : Nat} (ha : a < 256) : alphabetAt (a >>> 2) = [Text.letter (a / 2 ^ 2 % 2 ^ 6)] := by
  have hquarter : a >>> 2 = a / 2 ^ 2 % 2 ^ 6 := by
    rw [Nat.shiftRight_eq_div_pow]
    omega
  rw [hquarter, alphabetAt_mod]

theorem alphabetAt_mask (c : Nat) : alphabetAt (c &&& 63) = [Text.letter (c % 2 ^ 6)] := by
  have hmask : c &&& 63 = c % 2 ^ 6 := Nat.and_two_pow_sub_one_eq_mod c 6
  rw [hmask, alphabetAt_mod]

/-- Two bits of one byte and four of the next. -/
theorem alphabetAt_two_four (a : Nat) {b : Nat} (hb : b < 256) : alphabetAt ((a &&& 3) <<< 4 ||| b >>> 4) =
    [Text.letter ((a * 2 ^ 4 + b / 2 ^ 4 % 2 ^ 4) % 2 ^ 6)] := by
  have hmask : a &&& 3 = a % 2 ^ 2 := Nat.and_two_pow_sub_one_eq_mod a 2
  have hjoin : (a &&& 3) <<< 4 ||| b >>> 4 = (a * 2 ^ 4 + b / 2 ^ 4 % 2 ^ 4) % 2 ^ 6 := by
    rw [hmask, Nat.shiftRight_eq_div_pow, ← Nat.shiftLeft_add_eq_or_of_lt (by omega), Nat.shiftLeft_eq]
    omega
  rw [hjoin, alphabetAt_mod]

/-- Four bits of one byte and two of the next. -/
theorem alphabetAt_four_two (b : Nat) {c : Nat} (hc : c < 256) : alphabetAt ((b &&& 15) <<< 2 ||| c >>> 6) =
    [Text.letter ((b * 2 ^ 2 + c / 2 ^ 6 % 2 ^ 2) % 2 ^ 6)] := by
  have hmask : b &&& 15 = b % 2 ^ 4 := Nat.and_two_pow_sub_one_eq_mod b 4
  have hjoin : (b &&& 15) <<< 2 ||| c >>> 6 = (b * 2 ^ 2 + c / 2 ^ 6 % 2 ^ 2) % 2 ^ 6 := by
    rw [hmask, Nat.shiftRight_eq_div_pow, ← Nat.shiftLeft_add_eq_or_of_lt (by omega), Nat.shiftLeft_eq]
    omega
  rw [hjoin, alphabetAt_mod]

/-- The letter of the first group. -/
theorem letters_bits (n : Nat) (bs : List Bool) :
    (groups 6 (bits 6 n ++ bs)).map (fun group => Text.letter (value group)) =
      Text.letter (n % 2 ^ 6) :: (groups 6 bs).map fun group => Text.letter (value group) := by
  rw [Bits.groups_append (Bits.length_bits 6 n) (by decide), List.map_cons, Bits.value_bits]

/-- Three bytes are four groups. -/
theorem bits_three (a b c : Nat) (rest : List Bool) : bits 8 a ++ (bits 8 b ++ (bits 8 c ++ rest)) =
    bits 6 (a / 2 ^ 2) ++ (bits 6 (a * 2 ^ 4 + b / 2 ^ 4 % 2 ^ 4) ++
      (bits 6 (b * 2 ^ 2 + c / 2 ^ 6 % 2 ^ 2) ++ (bits 6 c ++ rest))) := by
  have ha : bits 8 a = bits 6 (a / 2 ^ 2) ++ bits 2 a := Bits.bits_add 6 2 a
  have hb : bits 8 b = bits 4 (b / 2 ^ 4) ++ bits 4 b := Bits.bits_add 4 4 b
  have hc : bits 8 c = bits 2 (c / 2 ^ 6) ++ bits 6 c := Bits.bits_add 2 6 c
  rw [ha, hb, hc, ← Bits.bits_append_bits 2 4, ← Bits.bits_append_bits 4 2]
  simp only [List.append_assoc]

/-- Three bytes in front need no other zeros. -/
theorem zeros_three (a b c : UInt8) (rest : Bytes) : zeros (a :: b :: c :: rest) = zeros rest := by
  have hlength : (stream (a :: b :: c :: rest)).length = (stream rest).length + 6 * 4 := by
    simp only [stream, List.flatMap_cons, List.length_append, Bits.length_bits]
    omega
  rw [zeros, hlength, Nat.add_mul_mod_self_left, zeros]

/-- What the encoder writes is the letters of the groups of six. -/
theorem encodeLoop_eq (bytes : Bytes) :
    encodeLoop bytes = (groups 6 (stream bytes ++ zeros bytes)).map fun group => Text.letter (value group) := by
  induction bytes using encodeLoop.induct with
  | case1 => rfl
  | case2 a =>
    -- Four zeros fill the second group.
    have hbits : stream [a] ++ zeros [a] = bits 6 (a.toNat / 2 ^ 2) ++ (bits 6 (a.toNat * 2 ^ 4 + 0 / 2 ^ 4 % 2 ^ 4) ++ []) := by
      have hzeros : zeros [a] = bits 4 0 := by
        simp [zeros, stream, Bits.bits_zero]
      have ha : bits 8 a.toNat = bits 6 (a.toNat / 2 ^ 2) ++ bits 2 a.toNat := Bits.bits_add 6 2 _
      rw [hzeros, ← Bits.bits_append_bits 2 4, stream, List.flatMap_cons, List.flatMap_nil, ha]
      simp
    rw [hbits, letters_bits, letters_bits, encodeLoop, alphabetAt_shift a.toNat_lt,
      alphabetAt_two_four a.toNat (b := 0) (by decide)]
    rfl
  | case3 a b =>
    -- Two zeros fill the third group.
    have hbits : stream [a, b] ++ zeros [a, b] = bits 6 (a.toNat / 2 ^ 2) ++
        (bits 6 (a.toNat * 2 ^ 4 + b.toNat / 2 ^ 4 % 2 ^ 4) ++
          (bits 6 (b.toNat * 2 ^ 2 + 0 / 2 ^ 6 % 2 ^ 2) ++ [])) := by
      have hzeros : zeros [a, b] = bits 2 0 := by
        simp [zeros, stream, Bits.bits_zero]
      have ha : bits 8 a.toNat = bits 6 (a.toNat / 2 ^ 2) ++ bits 2 a.toNat := Bits.bits_add 6 2 _
      have hb : bits 8 b.toNat = bits 4 (b.toNat / 2 ^ 4) ++ bits 4 b.toNat := Bits.bits_add 4 4 _
      rw [hzeros, ← Bits.bits_append_bits 2 4, ← Bits.bits_append_bits 4 2, stream, List.flatMap_cons,
        List.flatMap_cons, List.flatMap_nil, ha, hb]
      simp
    rw [hbits, letters_bits, letters_bits, letters_bits, encodeLoop, alphabetAt_shift a.toNat_lt,
      alphabetAt_two_four a.toNat b.toNat_lt, alphabetAt_four_two b.toNat (c := 0) (by decide)]
    rfl
  | case4 a b c rest ih =>
    have hbits : stream (a :: b :: c :: rest) ++ zeros rest = bits 6 (a.toNat / 2 ^ 2) ++
        (bits 6 (a.toNat * 2 ^ 4 + b.toNat / 2 ^ 4 % 2 ^ 4) ++
          (bits 6 (b.toNat * 2 ^ 2 + c.toNat / 2 ^ 6 % 2 ^ 2) ++
            (bits 6 c.toNat ++ (stream rest ++ zeros rest)))) := by
      rw [← bits_three]
      simp only [stream, List.flatMap_cons, List.append_assoc]
    rw [zeros_three, hbits, letters_bits, letters_bits, letters_bits, letters_bits, ← ih, encodeLoop,
      alphabetAt_shift a.toNat_lt, alphabetAt_two_four a.toNat b.toNat_lt, alphabetAt_four_two b.toNat c.toNat_lt,
      alphabetAt_mask]
    rfl

/-- **The encoder** writes what RFC 4648 prescribes. -/
theorem toBase64Url_eq (bytes : Bytes) : toBase64Url bytes = rfcEncode bytes :=
  congrArg String.ofList (encodeLoop_eq bytes)

/-! ## The decoder -/

/-- The bits of some digits. -/
def digitBits (digits : List Nat) : List Bool := digits.flatMap (bits 6)

theorem digitBits_append (digits : List Nat) (d : Nat) : digitBits (digits ++ [d]) = digitBits digits ++ bits 6 d := by
  simp [digitBits]

theorem rfcDecode_eq (digits : List Nat) :
    rfcDecode digits = ((groups 8 (digitBits digits)).map value).map UInt8.ofNat := by
  rw [List.map_map]
  rfl

theorem lookup_lt {character digit : Nat} (h : lookup character = some digit) : digit < 64 := by
  obtain ⟨hlt, -⟩ := List.findIdx?_eq_some_iff_getElem.mp h
  exact hlt

/-- A digit that fills a byte. -/
theorem rfcDecode_append_of_le {digits : List Nat} {d : Nat} (h : 8 ≤ (digitBits digits).length % 8 + 6) :
    rfcDecode (digits ++ [d]) = rfcDecode digits ++
      [emitWhole (value (digitBits (digits ++ [d]))) ((digitBits digits).length % 8 + 6 - 8)] := by
  have hfills : 8 ≤ (digitBits digits).length % 8 + (bits 6 d).length := by rwa [Bits.length_bits]
  have hgroups := Bits.groups_append_of_le (by decide) hfills (by simp)
  have hmask (n : Nat) : n &&& 0xff = n % 2 ^ 8 := Nat.and_two_pow_sub_one_eq_mod n 8
  rw [rfcDecode_eq, rfcDecode_eq, digitBits_append, hgroups, List.map_append, List.map_singleton, emitWhole, hmask,
    Nat.shiftRight_eq_div_pow, Bits.length_bits]

/-- A digit that fills none. -/
theorem rfcDecode_append_of_lt {digits : List Nat} {d : Nat} (h : (digitBits digits).length % 8 + 6 < 8) :
    rfcDecode (digits ++ [d]) = rfcDecode digits := by
  rw [rfcDecode_eq, rfcDecode_eq, digitBits_append, Bits.groups_append_of_lt (by rwa [Bits.length_bits])]

/-- The decoder on whole numbers, after any number of digits. -/
theorem foldl_pushWhole {digits : List Nat} (h : ∀ d ∈ digits, d < 64) :
    digits.foldl (Decoder.push shiftWhole emitWhole) ⟨[], 0, 0⟩ =
      ⟨rfcDecode digits, value (digitBits digits), (digitBits digits).length % 8⟩ := by
  induction digits using List.reverseRecOn with
  | nil => rfl
  | append_singleton digits d ih =>
    have hd : d < 64 := h d (by simp)
    have hbuffer : shiftWhole (value (digitBits digits)) d = value (digitBits (digits ++ [d])) := by
      rw [shiftWhole, ← Nat.shiftLeft_add_eq_or_of_lt hd, Nat.shiftLeft_eq, digitBits_append, Bits.value_append, Bits.value_bits,
        Bits.length_bits, Nat.mod_eq_of_lt (show d < 2 ^ 6 from hd)]
    have hlength : (digitBits (digits ++ [d])).length = (digitBits digits).length + 6 := by
      rw [digitBits_append, List.length_append, Bits.length_bits]
    rw [List.foldl_append, ih fun d hd => h d (by simp [hd]), List.foldl_cons, List.foldl_nil, Decoder.push]
    simp only [hbuffer, hlength]
    by_cases hfull : (digitBits digits).length % 8 + 6 ≥ 8
    · rw [if_pos hfull, rfcDecode_append_of_le hfull]
      congr 1
      omega
    · rw [if_neg hfull, rfcDecode_append_of_lt (by omega)]
      congr 1
      omega

theorem fromBase64UrlWhole_eq (text : List UInt16) :
    fromBase64UrlWhole text = rfcDecode ((codePoints text).filterMap lookup) := by
  rw [fromBase64UrlWhole, decodeLoop, foldl_pushWhole fun d hd => ?_]
  obtain ⟨character, -, hlookup⟩ := List.mem_filterMap.mp hd
  exact lookup_lt hlookup

/-! ## The wrap-around -/

/-- The buffer holds the last 32 bits. -/
theorem shift_ofNat (n digit : Nat) : shift (.ofNat 32 n) digit = .ofNat 32 (shiftWhole n digit) := by
  refine BitVec.eq_of_toNat_eq ?_
  simp [shift, shiftWhole, Nat.shiftLeft_eq, Nat.mod_mul_mod]

/-- **A byte that is emitted** lies in the last 32 bits, and the sign does not reach it. -/
theorem emit_ofNat (n : Nat) {k : Nat} (hk : k + 8 ≤ 32) : emit (.ofNat 32 n) k = emitWhole n k := by
  refine congrArg UInt8.ofNat (Nat.eq_of_testBit_eq fun i => ?_)
  have hmask : (0xff : Nat).testBit i = decide (i < 8) := Nat.testBit_two_pow_sub_one 8 i
  have hmask32 : (0xff : BitVec 32).getLsbD i = (decide (i < 32) && decide (i < 8)) := by
    rw [← hmask]
    exact BitVec.getLsbD_ofNat 32 0xff i
  rw [BitVec.testBit_toNat, BitVec.getLsbD_and, BitVec.getLsbD_sshiftRight, Nat.testBit_and, Nat.testBit_shiftRight,
    hmask, hmask32, BitVec.getLsbD_ofNat]
  by_cases hi : i < 8
  · have hin : k + i < 32 := by omega
    have hword : i < 32 := by omega
    simp [hi, hin, hword]
  · simp [hi]

/-- A decoder whose buffer is the last 32 bits of the other's. -/
structure Decoder.Wraps (d : Decoder (BitVec 32)) (whole : Decoder Nat) : Prop where
  bytes : d.bytes = whole.bytes
  buffer : d.buffer = .ofNat 32 whole.buffer
  bits : d.bits = whole.bits
  few : d.bits < 8

/-- One digit. -/
theorem Decoder.Wraps.push {d : Decoder (BitVec 32)} {whole : Decoder Nat} (h : d.Wraps whole) (digit : Nat) :
    (d.push shift emit digit).Wraps (whole.push shiftWhole emitWhole digit) := by
  have hfew := h.few
  have hbuffer : shift d.buffer digit = .ofNat 32 (shiftWhole whole.buffer digit) := by rw [h.buffer, shift_ofNat]
  rw [Decoder.push, Decoder.push, ← h.bits, hbuffer, h.bytes]
  by_cases hfull : d.bits + 6 ≥ 8
  · simp only [if_pos hfull]
    rw [emit_ofNat _ (by omega)]
    exact ⟨rfl, rfl, rfl, by simp only; omega⟩
  · simp only [if_neg hfull]
    exact ⟨rfl, rfl, rfl, by simp only; omega⟩

theorem Decoder.Wraps.foldl {d : Decoder (BitVec 32)} {whole : Decoder Nat} (h : d.Wraps whole) (digits : List Nat) :
    (digits.foldl (Decoder.push shift emit) d).Wraps (digits.foldl (Decoder.push shiftWhole emitWhole) whole) := by
  induction digits generalizing d whole with
  | nil => exact h
  | cons digit digits ih => exact ih (h.push digit)

/-- **The wrap-around** changes no byte. -/
theorem fromBase64Url_eq_whole (text : List UInt16) : fromBase64Url text = fromBase64UrlWhole text := by
  have hstart : Decoder.Wraps ⟨[], 0, 0⟩ ⟨[], 0, 0⟩ := ⟨rfl, rfl, rfl, by decide⟩
  exact (hstart.foldl _).bytes

/-- **The decoder** reads the digits, and nothing between them. -/
theorem fromBase64Url_eq (text : List UInt16) :
    fromBase64Url text = rfcDecode ((codePoints text).filterMap lookup) := by
  rw [fromBase64Url_eq_whole, fromBase64UrlWhole_eq]

/-! ## There and back -/

theorem lookup_letter : ∀ n : Fin 64, (Text.letter n).toNat < 0xD800 ∧ lookup (Text.letter n).toNat = some n.val := by
  decide

theorem codePoints_cons {unit : UInt16} (h : unit.toNat < 0xD800) (text : List UInt16) :
    codePoints (unit :: text) = unit.toNat :: codePoints text := by
  cases text with
  | nil => rfl
  | cons low text => rw [codePoints, if_neg (by omega)]

/-- Letters are read as their digits. -/
theorem filterMap_lookup_letters {digits : List Nat} (h : ∀ d ∈ digits, d < 64) :
    (codePoints (utf16 (.ofList (digits.map Text.letter)))).filterMap lookup = digits := by
  rw [utf16, String.toList_ofList]
  induction digits with
  | nil => rfl
  | cons d digits ih =>
    obtain ⟨hplain, hlookup⟩ := lookup_letter ⟨d, h d List.mem_cons_self⟩
    have hunit : (UInt16.ofNat (Text.letter d).toNat).toNat = (Text.letter d).toNat := by
      rw [UInt16.toNat_ofNat']
      exact Nat.mod_eq_of_lt (hplain.trans (by decide))
    rw [List.map_cons, List.flatMap_cons, if_pos (hplain.trans (by decide)), List.singleton_append,
      codePoints_cons (by rwa [hunit]), hunit, List.filterMap_cons, hlookup]
    exact congrArg _ (ih fun d hd => h d (List.mem_cons_of_mem _ hd))

/-- Whole bytes, and fewer than eight bits behind them. -/
theorem groups_stream (bytes : Bytes) {rest : List Bool} (h : rest.length < 8) :
    (groups 8 (stream bytes ++ rest)).map (fun group => UInt8.ofNat (value group)) = bytes := by
  induction bytes with
  | nil => rw [stream, List.flatMap_nil, List.nil_append, Bits.groups_of_length_lt h, List.map_nil]
  | cons b bytes ih =>
    have hbyte : UInt8.ofNat (b.toNat % 2 ^ 8) = b := by
      rw [Nat.mod_eq_of_lt b.toNat_lt, UInt8.ofNat_toNat]
    rw [stream, List.flatMap_cons, List.append_assoc, Bits.groups_append (Bits.length_bits 8 _) (by decide),
      List.map_cons, Bits.value_bits, hbyte]
    exact congrArg _ ih

theorem rfcDecode_groups (bytes : Bytes) :
    rfcDecode ((groups 6 (stream bytes ++ zeros bytes)).map value) = bytes := by
  have hwhole : 6 ∣ (stream bytes ++ zeros bytes).length := by
    rw [List.length_append, zeros, List.length_replicate]
    omega
  rw [rfcDecode, Bits.flatMap_bits_value (by decide) hwhole, groups_stream bytes]
  rw [zeros, List.length_replicate]
  omega

/-- **The round trip.** -/
theorem fromBase64Url_toBase64Url (bytes : Bytes) : fromBase64Url (utf16 (toBase64Url bytes)) = bytes := by
  have hletters : toBase64Url bytes =
      .ofList (((groups 6 (stream bytes ++ zeros bytes)).map value).map Text.letter) := by
    rw [toBase64Url_eq, rfcEncode, List.map_map]
    rfl
  rw [fromBase64Url_eq, hletters, filterMap_lookup_letters, rfcDecode_groups]
  intro d hd
  obtain ⟨group, hgroup, rfl⟩ := List.mem_map.mp hd
  have hlt := Bits.value_lt group
  rwa [Bits.length_of_mem_groups hgroup] at hlt

/-- **The codec.** -/
theorem base64url_codec :
    (∀ bytes, toBase64Url bytes = rfcEncode bytes) ∧
      (∀ bytes, fromBase64Url (utf16 (toBase64Url bytes)) = bytes) ∧
      (∀ text, fromBase64Url text = rfcDecode ((codePoints text).filterMap lookup)) ∧
      ∀ text, fromBase64Url text = fromBase64UrlWhole text :=
  ⟨toBase64Url_eq, fromBase64Url_toBase64Url, fromBase64Url_eq, fromBase64Url_eq_whole⟩


end Base64Url
