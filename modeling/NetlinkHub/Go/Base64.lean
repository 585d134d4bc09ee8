import NetlinkHub.Go.Text

/-! # Writing `base64.RawURLEncoding`

What `EncodeToString` writes is what `Text.rawURLDecode` reads. The standard encoding, with its padding,
follows. -/

namespace Text

open Posix (Bytes)

/-- The character of six bits in the URL alphabet. -/
def letter (n : Nat) : Char :=
  if n < 26 then .ofNat (n + 65)
  else if n < 52 then .ofNat (n + 71)
  else if n < 62 then .ofNat (n - 4)
  else if n = 62 then '-'
  else '_'

/-- The sextets of a list of bytes, three at a time. -/
def sextets : Bytes → List Nat
  | [] => []
  | [x] => [x.toNat / 4, x.toNat % 4 * 16]
  | [x, y] => [x.toNat / 4, x.toNat % 4 * 16 + y.toNat / 16, y.toNat % 16 * 4]
  | x :: y :: z :: rest =>
    x.toNat / 4 :: (x.toNat % 4 * 16 + y.toNat / 16) :: (y.toNat % 16 * 4 + z.toNat / 64) ::
      z.toNat % 64 :: sextets rest

/-- `base64.RawURLEncoding.EncodeToString`. -/
def rawURLEncode (bytes : Bytes) : String := .ofList ((sextets bytes).map letter)

/-- A letter is read as its sextet, and is no line end. -/
theorem sextet_letter : ∀ n : Fin 64, sextet (letter n) = some n.val ∧ letter n ≠ '\r' ∧ letter n ≠ '\n' := by
  decide

theorem sextets_lt : ∀ (bytes : Bytes), ∀ n ∈ sextets bytes, n < 64
  | [], _, h => by simp [sextets] at h
  | [x], n, h => by
    have := x.toNat_lt
    simp only [sextets, List.mem_cons, List.not_mem_nil, or_false] at h
    omega
  | [x, y], n, h => by
    have := x.toNat_lt
    have := y.toNat_lt
    simp only [sextets, List.mem_cons, List.not_mem_nil, or_false] at h
    omega
  | x :: y :: z :: rest, n, h => by
    have := x.toNat_lt
    have := y.toNat_lt
    have := z.toNat_lt
    simp only [sextets, List.mem_cons] at h
    rcases h with h | h | h | h | h
    · omega
    · omega
    · omega
    · omega
    · exact sextets_lt rest n h

/-- A byte put together from its parts. -/
theorem ofNat_eq {x : UInt8} {n : Nat} (h : n = x.toNat) : UInt8.ofNat n = x := by
  rw [h, UInt8.ofNat_toNat]

theorem quanta_sextets : ∀ bytes : Bytes, quanta (sextets bytes) = some bytes
  | [] => rfl
  | [x] => by
    rw [sextets, quanta, ofNat_eq (x := x) (by omega)]
  | [x, y] => by
    have := y.toNat_lt
    rw [sextets, quanta, ofNat_eq (x := x) (by omega), ofNat_eq (x := y) (by omega)]
  | x :: y :: z :: rest => by
    have := y.toNat_lt
    have := z.toNat_lt
    rw [sextets, quanta, quanta_sextets rest, Option.map_some, ofNat_eq (x := x) (by omega),
      ofNat_eq (x := y) (by omega), ofNat_eq (x := z) (by omega)]

theorem mapM_sextet_letter {sextets : List Nat} (h : ∀ n ∈ sextets, n < 64) :
    (sextets.map letter).mapM sextet = some sextets := by
  induction sextets with
  | nil => rfl
  | cons n sextets ih =>
    have hletter : sextet (letter n) = some n := (sextet_letter ⟨n, h n List.mem_cons_self⟩).1
    rw [List.map_cons, List.mapM_cons, hletter, ih fun m hm => h m (List.mem_cons_of_mem n hm)]
    rfl

/-- **The round trip.** -/
theorem rawURLDecode_encode (bytes : Bytes) : rawURLDecode (rawURLEncode bytes) = some bytes := by
  have hplain : ((sextets bytes).map letter).filter (fun c => c ≠ '\r' ∧ c ≠ '\n') =
      (sextets bytes).map letter := by
    refine List.filter_eq_self.mpr fun c hc => ?_
    obtain ⟨n, hn, rfl⟩ := List.mem_map.mp hc
    obtain ⟨-, hr, hl⟩ := sextet_letter ⟨n, sextets_lt bytes n hn⟩
    exact decide_eq_true ⟨hr, hl⟩
  rw [rawURLDecode, rawURLEncode, String.toList_ofList, hplain, mapM_sextet_letter (sextets_lt bytes),
    Option.bind_some, quanta_sextets]

/-- No letter is space. -/
theorem isSpace_letter : ∀ n : Fin 64, isSpace (letter n) = false := by decide

theorem isSpace_rawURLEncode {bytes : Bytes} {c : Char} (h : c ∈ (rawURLEncode bytes).toList) : isSpace c = false := by
  rw [rawURLEncode, String.toList_ofList] at h
  obtain ⟨n, hn, rfl⟩ := List.mem_map.mp h
  exact isSpace_letter ⟨n, sextets_lt bytes n hn⟩

/-! ## `base64.StdEncoding` -/

/-- The six bits of a character of the standard alphabet. -/
def stdSextet (c : Char) : Option Nat :=
  if c.isUpper then some (c.toNat - 65)
  else if c.isLower then some (c.toNat - 71)
  else if c.isDigit then some (c.toNat + 4)
  else if c = '+' then some 62
  else if c = '/' then some 63
  else none

/-- The character of six bits in the standard alphabet. -/
def stdLetter (n : Nat) : Char := if n = 62 then '+' else if n = 63 then '/' else letter n

/-- The padding after that many characters. -/
def padding (n : Nat) : List Char := List.replicate ((4 - n % 4) % 4) '='

/-- `base64.StdEncoding.EncodeToString`. -/
def stdEncode (bytes : Bytes) : List Char := (sextets bytes).map stdLetter ++ padding (sextets bytes).length

/-- `base64.StdEncoding.DecodeString`: line ends are skipped, and the padding has to be whole. -/
def stdDecode (s : List Char) : Option Bytes :=
  let plain := s.filter fun c => c ≠ '\r' ∧ c ≠ '\n'
  let body := plain.takeWhile (· ≠ '=')
  if plain.dropWhile (· ≠ '=') = padding body.length then (body.mapM stdSextet).bind quanta else none

/-- A letter is read as its sextet, and is neither padding nor space. -/
theorem stdSextet_stdLetter : ∀ n : Fin 64, stdSextet (stdLetter n) = some n.val ∧ stdLetter n ≠ '=' ∧
    isSpace (stdLetter n) = false := by
  decide

theorem mapM_stdSextet {sextets : List Nat} (h : ∀ n ∈ sextets, n < 64) :
    (sextets.map stdLetter).mapM stdSextet = some sextets := by
  induction sextets with
  | nil => rfl
  | cons n sextets ih =>
    have hletter : stdSextet (stdLetter n) = some n := (stdSextet_stdLetter ⟨n, h n List.mem_cons_self⟩).1
    rw [List.map_cons, List.mapM_cons, hletter, ih fun m hm => h m (List.mem_cons_of_mem n hm)]
    rfl

/-- No character of an encoding is space. -/
theorem isSpace_stdEncode {bytes : Bytes} {c : Char} (h : c ∈ stdEncode bytes) : isSpace c = false := by
  rcases List.mem_append.mp h with h | h
  · obtain ⟨n, hn, rfl⟩ := List.mem_map.mp h
    exact (stdSextet_stdLetter ⟨n, sextets_lt bytes n hn⟩).2.2
  · obtain rfl := List.eq_of_mem_replicate h
    decide

/-- **The round trip** of the standard encoding. -/
theorem stdDecode_encode (bytes : Bytes) : stdDecode (stdEncode bytes) = some bytes := by
  have hplain : (stdEncode bytes).filter (fun c => c ≠ '\r' ∧ c ≠ '\n') = stdEncode bytes := by
    refine List.filter_eq_self.mpr fun c hc => decide_eq_true ?_
    have hspace := isSpace_stdEncode hc
    exact ⟨fun heq => by rw [heq] at hspace; exact absurd hspace (by decide),
      fun heq => by rw [heq] at hspace; exact absurd hspace (by decide)⟩
  have hbody : ∀ c ∈ (sextets bytes).map stdLetter, (decide (c ≠ '=')) = true := by
    intro c hc
    obtain ⟨n, hn, rfl⟩ := List.mem_map.mp hc
    exact decide_eq_true (stdSextet_stdLetter ⟨n, sextets_lt bytes n hn⟩).2.1
  have hpadding : ∀ c rest, padding (sextets bytes).length = c :: rest → c = '=' := fun c rest heq =>
    List.eq_of_mem_replicate (heq ▸ List.mem_cons_self : c ∈ padding (sextets bytes).length)
  have htake : (stdEncode bytes).takeWhile (· ≠ '=') = (sextets bytes).map stdLetter := by
    rw [stdEncode, List.takeWhile_append_of_pos hbody]
    cases hcase : padding (sextets bytes).length with
    | nil => simp
    | cons c rest => simp [hpadding c rest hcase]
  have hdrop : (stdEncode bytes).dropWhile (· ≠ '=') = padding (sextets bytes).length := by
    rw [stdEncode, List.dropWhile_append_of_pos hbody]
    cases hcase : padding (sextets bytes).length with
    | nil => rfl
    | cons c rest => simp [hpadding c rest hcase]
  rw [stdDecode, hplain]
  simp only [htake, hdrop, List.length_map, if_true, mapM_stdSextet (sextets_lt bytes), Option.bind_some,
    quanta_sextets]

theorem dropWhile_isSpace {s : List Char} (h : ∀ c ∈ s, isSpace c = false) : s.dropWhile (isSpace ·) = s := by
  cases s with
  | nil => rfl
  | cons c s => rw [List.dropWhile_cons_of_neg (by simp [h c List.mem_cons_self])]

/-- A text without space stays as it is. -/
theorem trimSpace_of_plain {s : List Char} (h : ∀ c ∈ s, isSpace c = false) : trimSpace s = s := by
  rw [trimSpace, dropWhile_isSpace h, dropWhile_isSpace fun c hc => h c (List.mem_reverse.mp hc), List.reverse_reverse]

/-- It does so when the end of its line is trimmed. -/
theorem trimSpace_line {s : List Char} (h : ∀ c ∈ s, isSpace c = false) : trimSpace (s ++ ['\n']) = s := by
  cases s with
  | nil => rfl
  | cons c s =>
    have hfront : ((c :: s) ++ ['\n']).dropWhile (isSpace ·) = (c :: s) ++ ['\n'] := by
      rw [List.cons_append, List.dropWhile_cons_of_neg (by simp [h c List.mem_cons_self])]
    have hend : ('\n' :: (c :: s).reverse).dropWhile (isSpace ·) = (c :: s).reverse := by
      rw [List.dropWhile_cons_of_pos (by decide)]
      exact dropWhile_isSpace fun d hd => h d (List.mem_reverse.mp hd)
    rw [trimSpace, hfront, List.reverse_append, List.reverse_singleton, List.singleton_append, hend,
      List.reverse_reverse]

end Text
