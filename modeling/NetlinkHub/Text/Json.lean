import Mathlib.Data.List.Basic
import Mathlib.Data.List.TakeWhile

/-! # JSON text

A JSON text as a tree, how it is written without white space, and how it is read. Strings are kept as they
are written between their quotes, since a reader may look at them before they are unquoted. What is
written is read back (`parse_print`), and a string that was quoted comes back when it is unquoted
(`unquote_quote`). -/

/-- A JSON text. -/
inductive Json where
  | null
  | bool (b : Bool)
  | number (text : List Char)
  | string (raw : List Char)
  | array (items : List Json)
  | object (members : List (List Char × Json))

namespace Json

/-! ## Writing -/

mutual

/-- The text of a tree, without white space. -/
def print : Json → List Char
  | .null => "null".toList
  | .bool b => if b then "true".toList else "false".toList
  | .number text => text
  | .string raw => '"' :: raw ++ ['"']
  | .array items => '[' :: printItems items ++ [']']
  | .object members => '{' :: printMembers members ++ ['}']

def printItems : List Json → List Char
  | [] => []
  | item :: items => print item ++ if items.isEmpty then [] else ',' :: printItems items

def printMembers : List (List Char × Json) → List Char
  | [] => []
  | (key, value) :: members =>
    '"' :: key ++ '"' :: ':' :: print value ++
      if members.isEmpty then [] else ',' :: printMembers members

end

/-- The letter that stands for a letter after a backslash, if there is one. -/
def short (c : Char) : Option Char :=
  if c = '"' then some '"'
  else if c = '\\' then some '\\'
  else if c.toNat = 8 then some 'b'
  else if c.toNat = 12 then some 'f'
  else if c = '\n' then some 'n'
  else if c = '\r' then some 'r'
  else if c = '\t' then some 't'
  else none

/-- How one letter of a string is written. -/
def escape (c : Char) : List Char :=
  match short c with
  | some e => ['\\', e]
  | none =>
    if c.toNat < 32 then
      ['\\', 'u', '0', '0', Nat.digitChar (c.toNat / 16), Nat.digitChar (c.toNat % 16)]
    else [c]

/-- How a string is written between its quotes. -/
def quote (s : String) : List Char := s.toList.flatMap escape

/-! ## Reading -/

def isSpace (c : Char) : Bool := c = ' ' ∨ c = '\t' ∨ c = '\n' ∨ c = '\r'

def skipSpace (s : List Char) : List Char := s.dropWhile isSpace

/-- The value of a hexadecimal digit. -/
def hexValue (c : Char) : Option Nat :=
  if c.isDigit then some (c.toNat - 48)
  else if 'a' ≤ c ∧ c ≤ 'f' then some (c.toNat - 87)
  else if 'A' ≤ c ∧ c ≤ 'F' then some (c.toNat - 55)
  else none

/-- The value of four hexadecimal digits. -/
def codeUnit (a b c d : Char) : Option Nat := do
  let a ← hexValue a
  let b ← hexValue b
  let c ← hexValue c
  let d ← hexValue d
  some (4096 * a + 256 * b + 16 * c + d)

/-- A string up to its closing quote, as it is written, and what follows. -/
def scanString : List Char → Option (List Char × List Char)
  | '"' :: rest => some ([], rest)
  | '\\' :: 'u' :: a :: b :: c :: d :: rest =>
    if (codeUnit a b c d).isSome then
      (scanString rest).map fun (raw, rest) => ('\\' :: 'u' :: a :: b :: c :: d :: raw, rest)
    else none
  | '\\' :: c :: rest =>
    if c ∈ ['"', '\\', '/', 'b', 'f', 'n', 'r', 't'] then
      (scanString rest).map fun (raw, rest) => ('\\' :: c :: raw, rest)
    else none
  | c :: rest =>
    if c = '\\' ∨ c.toNat < 32 then none
    else (scanString rest).map fun (raw, rest) => (c :: raw, rest)
  | [] => none

/-- The letter that a backslash and a letter stand for. -/
def unescape (c : Char) : Char :=
  if c = 'b' then Char.ofNat 8
  else if c = 'f' then Char.ofNat 12
  else if c = 'n' then '\n'
  else if c = 'r' then '\r'
  else if c = 't' then '\t'
  else c

/-- Half of a letter beyond the first plane. -/
def isSurrogate (unit : Nat) : Bool := 55296 ≤ unit ∧ unit < 57344

/-- The letter that two halves make, if they do. -/
def decodePair (high low : Nat) : Option Char :=
  if 55296 ≤ high ∧ high < 56320 ∧ 56320 ≤ low ∧ low < 57344 then
    some (Char.ofNat (65536 + 1024 * (high - 55296) + (low - 56320)))
  else none

/-- What a half of a letter is replaced by when the other half does not follow. -/
def lost : Option Nat → List Char
  | none => []
  | some _ => ['\uFFFD']

/-- The letters of a string as it is written, after the first half of a letter or not. -/
def unquoteAfter : Option Nat → List Char → List Char
  | half, '\\' :: 'u' :: a :: b :: c :: d :: rest =>
    let unit := (codeUnit a b c d).getD 0
    match half.bind (decodePair · unit) with
    | some letter => letter :: unquoteAfter none rest
    | none =>
      if isSurrogate unit then lost half ++ unquoteAfter (some unit) rest
      else lost half ++ Char.ofNat unit :: unquoteAfter none rest
  | half, '\\' :: c :: rest => lost half ++ unescape c :: unquoteAfter none rest
  | half, c :: rest => lost half ++ c :: unquoteAfter none rest
  | half, [] => lost half

/-- The letters of a string as it is written. -/
def unquote (raw : List Char) : List Char := unquoteAfter none raw

/-- A letter of a number. -/
def isNumeric (c : Char) : Bool := c.isDigit ∨ c ∈ ['+', '-', '.', 'e', 'E']

/-- An exponent, or nothing. -/
def isExponent : List Char → Bool
  | [] => true
  | e :: sign :: digits =>
    (e = 'e' ∨ e = 'E') ∧
      let digits := if sign = '+' ∨ sign = '-' then digits else sign :: digits
      digits ≠ [] ∧ digits.all Char.isDigit
  | _ => false

/-- A number as JSON writes it. -/
def isNumber (text : List Char) : Bool :=
  let unsigned := if text.head? = some '-' then text.drop 1 else text
  let whole := unsigned.takeWhile Char.isDigit
  (whole ≠ [] ∧ (whole.head? = some '0' → whole.length = 1)) &&
    match unsigned.dropWhile Char.isDigit with
    | '.' :: fraction =>
      fraction.takeWhile Char.isDigit ≠ [] ∧ isExponent (fraction.dropWhile Char.isDigit)
    | exponent => isExponent exponent

mutual

/-- A value at the front of a text, and what follows. -/
def parseValue : Nat → List Char → Option (Json × List Char)
  | 0, _ => none
  | fuel + 1, s => match skipSpace s with
    | '"' :: s => (scanString s).map fun (raw, s) => (.string raw, s)
    | '{' :: s => match skipSpace s with
      | '}' :: s => some (.object [], s)
      | s => (parseMembers fuel s).map fun (members, s) => (.object members, s)
    | '[' :: s => match skipSpace s with
      | ']' :: s => some (.array [], s)
      | s => (parseItems fuel s).map fun (items, s) => (.array items, s)
    | 't' :: 'r' :: 'u' :: 'e' :: s => some (.bool true, s)
    | 'f' :: 'a' :: 'l' :: 's' :: 'e' :: s => some (.bool false, s)
    | 'n' :: 'u' :: 'l' :: 'l' :: s => some (.null, s)
    | s =>
      if isNumber (s.takeWhile isNumeric) then
        some (.number (s.takeWhile isNumeric), s.dropWhile isNumeric)
      else none

/-- The items of an array up to its closing bracket, and what follows. -/
def parseItems : Nat → List Char → Option (List Json × List Char)
  | 0, _ => none
  | fuel + 1, s => do
    let (item, s) ← parseValue fuel s
    match skipSpace s with
    | ',' :: s => (parseItems fuel s).map fun (items, s) => (item :: items, s)
    | ']' :: s => some ([item], s)
    | _ => none

/-- The members of an object up to its closing brace, and what follows. -/
def parseMembers : Nat → List Char → Option (List (List Char × Json) × List Char)
  | 0, _ => none
  | fuel + 1, s => match skipSpace s with
    | '"' :: s => do
      let (key, s) ← scanString s
      match skipSpace s with
      | ':' :: s => do
        let (value, s) ← parseValue fuel s
        match skipSpace s with
        | ',' :: s => (parseMembers fuel s).map fun (members, s) => ((key, value) :: members, s)
        | '}' :: s => some ([(key, value)], s)
        | _ => none
      | _ => none
    | _ => none

end

/-- The tree of a text. -/
def parse (s : List Char) : Option Json :=
  match parseValue (s.length + 1) s with
  | some (value, rest) => if skipSpace rest = [] then some value else none
  | none => none

/-! ## Strings -/

variable {c : Char} {rest : List Char}

theorem hexValue_digitChar : ∀ n < 16, hexValue (Nat.digitChar n) = some n := by decide

theorem codeUnit_control {n : Nat} (h : n < 32) :
    codeUnit '0' '0' (Nat.digitChar (n / 16)) (Nat.digitChar (n % 16)) = some n := by
  have hzero : hexValue '0' = some 0 := by decide
  unfold codeUnit
  rw [hzero, hexValue_digitChar _ (by omega), hexValue_digitChar _ (by omega)]
  simp only [Option.bind_eq_bind, Option.bind_some]
  congr 1
  omega

theorem unescape_short {e : Char} (h : short c = some e) :
    unescape e = c ∧ e ∈ ['"', '\\', '/', 'b', 'f', 'n', 'r', 't'] := by
  have hof : ∀ n, c.toNat = n → Char.ofNat n = c := fun n hn => hn ▸ Char.ofNat_toNat c
  unfold short at h
  repeat' split at h
  all_goals cases h
  all_goals rename_i hc
  · exact ⟨by rw [hc]; decide, by decide⟩
  · exact ⟨by rw [hc]; decide, by decide⟩
  · exact ⟨hof 8 hc, by decide⟩
  · exact ⟨hof 12 hc, by decide⟩
  · exact ⟨by rw [hc]; decide, by decide⟩
  · exact ⟨by rw [hc]; decide, by decide⟩
  · exact ⟨by rw [hc]; decide, by decide⟩

theorem ne_of_short (h : short c = none) : c ≠ '"' ∧ c ≠ '\\' := by
  constructor
  · rintro rfl
    exact absurd h (by decide)
  · rintro rfl
    exact absurd h (by decide)

/-- **One letter comes back.** -/
theorem unquote_escape (c : Char) (rest : List Char) : unquote (escape c ++ rest) = c :: unquote rest := by
  unfold escape unquote
  split
  · rename_i e h
    obtain ⟨hback, hletter⟩ := unescape_short h
    have hplain : e ≠ 'u' := by
      rintro rfl
      exact absurd hletter (by decide)
    simp [unquoteAfter, hplain, hback, lost]
  · rename_i h
    split
    · rename_i hcontrol
      have hunit := codeUnit_control hcontrol
      have hwhole : isSurrogate c.toNat = false := by
        simp only [isSurrogate, decide_eq_false_iff_not]
        omega
      simp [unquoteAfter, hunit, hwhole, lost]
    · simp [unquoteAfter, (ne_of_short h).2, lost]

/-- **A quoted string comes back.** -/
theorem unquote_quote (s : String) : unquote (quote s) = s.toList := by
  unfold quote
  induction s.toList with
  | nil => rfl
  | cons c letters ih => rw [List.flatMap_cons, unquote_escape, ih]

/-- A letter that is written as it is. -/
def IsPlain (c : Char) : Prop := c ≠ '"' ∧ c ≠ '\\' ∧ 32 ≤ c.toNat

/-- A string of such letters is written as it is. -/
theorem quote_of_plain {s : String} (h : ∀ c ∈ s.toList, IsPlain c) : quote s = s.toList := by
  have hletter : ∀ c, IsPlain c → escape c = [c] := by
    rintro c ⟨hquote, hslash, hcontrol⟩
    have hshort : short c = none := by
      have hbelow : ∀ d : Char, d.toNat < 32 → c ≠ d := by
        rintro d hd rfl
        omega
      simp [short, hquote, hslash, hbelow '\n' (by decide), hbelow '\r' (by decide),
        hbelow '\t' (by decide), show c.toNat ≠ 8 by omega, show c.toNat ≠ 12 by omega]
    simp only [escape, hshort]
    rw [if_neg (by omega)]
  unfold quote
  rw [List.flatMap_congr fun c hc => hletter c (h c hc)]
  exact List.flatMap_singleton' _

/-- A letter is read as it was written. -/
theorem scanString_escape (c : Char) (rest : List Char) : scanString (escape c ++ rest) =
    (scanString rest).map fun (raw, rest) => (escape c ++ raw, rest) := by
  unfold escape
  split
  · rename_i e h
    have hletter := (unescape_short h).2
    have hplain : e ≠ 'u' := by
      rintro rfl
      exact absurd hletter (by decide)
    simp [scanString, hplain, hletter]
  · rename_i h
    obtain ⟨hquote, hslash⟩ := ne_of_short h
    split
    · rename_i hcontrol
      simp [scanString, codeUnit_control hcontrol]
    · rename_i hcontrol
      rw [List.singleton_append, scanString.eq_4 c rest hquote (fun _ _ _ _ _ hc => absurd hc hslash)
        fun _ _ hc => absurd hc hslash]
      simp [hslash, hcontrol]

/-- A string is read as it was written. -/
theorem scanString_quote (s : String) (rest : List Char) :
    scanString (quote s ++ '"' :: rest) = some (quote s, rest) := by
  unfold quote
  induction s.toList with
  | nil => rfl
  | cons c letters ih => rw [List.flatMap_cons, List.append_assoc, scanString_escape, ih]; rfl

/-! ## Trees -/

/-- A string as it is written. -/
def IsRaw (raw : List Char) : Prop := ∀ rest, scanString (raw ++ '"' :: rest) = some (raw, rest)

theorem isRaw_quote (s : String) : IsRaw (quote s) := scanString_quote s

mutual

/-- A tree whose strings and numbers are written as JSON has it. -/
def Readable : Json → Prop
  | .null => True
  | .bool _ => True
  | .number text => isNumber text ∧ ∀ c ∈ text, isNumeric c
  | .string raw => IsRaw raw
  | .array items => ReadableItems items
  | .object members => ReadableMembers members

def ReadableItems : List Json → Prop
  | [] => True
  | item :: items => Readable item ∧ ReadableItems items

def ReadableMembers : List (List Char × Json) → Prop
  | [] => True
  | (key, value) :: members => IsRaw key ∧ Readable value ∧ ReadableMembers members

end

mutual

/-- How often reading a tree calls itself in depth. -/
def depth : Json → Nat
  | .array items => depthItems items + 1
  | .object members => depthMembers members + 1
  | _ => 1

def depthItems : List Json → Nat
  | [] => 0
  | item :: items => max (depth item) (depthItems items) + 1

def depthMembers : List (List Char × Json) → Nat
  | [] => 0
  | (_, value) :: members => max (depth value) (depthMembers members) + 1

end

/-- A text that a number does not go on into. -/
def Breaks (rest : List Char) : Prop := ∀ c ∈ rest.head?, isNumeric c = false

theorem breaks_cons (h : isNumeric c = false) : Breaks (c :: rest) := by
  intro d hd
  cases hd
  exact h

theorem skipSpace_cons (h : isSpace c = false) : skipSpace (c :: rest) = c :: rest := by
  simp [skipSpace, h]

theorem ne_nil_of_isNumber {text : List Char} (h : isNumber text) : text ≠ [] := by
  rintro rfl
  exact absurd h (by decide)

theorem not_isSpace_of_isNumeric (h : isNumeric c) : isSpace c = false := by
  cases hspace : isSpace c with
  | false => rfl
  | true =>
    have hcases : c = ' ' ∨ c = '\t' ∨ c = '\n' ∨ c = '\r' := by simpa [isSpace] using hspace
    rcases hcases with rfl | rfl | rfl | rfl <;> exact absurd h (by decide)

/-- A number is read as it was written. -/
theorem parseValue_number {text : List Char} (h : isNumber text) (hall : ∀ c ∈ text, isNumeric c)
    (hrest : Breaks rest) (fuel : Nat) :
    parseValue (fuel + 1) (text ++ rest) = some (.number text, rest) := by
  have htake : (text ++ rest).takeWhile isNumeric = text := by
    rw [List.takeWhile_append_of_pos hall]
    cases rest with
    | nil => simp
    | cons c rest => simp [hrest c rfl]
  have hdrop : (text ++ rest).dropWhile isNumeric = rest := by
    rw [List.dropWhile_append_of_pos hall]
    cases rest with
    | nil => rfl
    | cons c rest => simp [hrest c rfl]
  obtain ⟨c, letters, rfl⟩ := List.exists_cons_of_ne_nil (ne_nil_of_isNumber h)
  have hc : isNumeric c := hall c List.mem_cons_self
  have hskip : skipSpace (c :: letters ++ rest) = c :: letters ++ rest :=
    skipSpace_cons (not_isSpace_of_isNumeric hc)
  -- No other value begins with a letter of a number.
  have hother : ∀ d, isNumeric d = false → c ≠ d := by
    rintro d hd rfl
    rw [hd] at hc
    cases hc
  unfold parseValue
  rw [hskip]
  split
  all_goals first
    | (rename_i heq; exact absurd (List.cons.inj heq).1 (hother _ (by decide)))
    | skip
  rw [htake, hdrop, if_pos h]

/-- A tree is written without a space in front. -/
theorem skipSpace_print {v : Json} (h : Readable v) (rest : List Char) :
    skipSpace (print v ++ rest) = print v ++ rest := by
  cases v with
  | null => rfl
  | bool b => cases b <;> rfl
  | number text =>
    obtain ⟨hnumber, hall⟩ := h
    obtain ⟨c, letters, rfl⟩ := List.exists_cons_of_ne_nil (ne_nil_of_isNumber hnumber)
    exact skipSpace_cons (not_isSpace_of_isNumeric (hall c List.mem_cons_self))
  | string raw => rfl
  | array items => rfl
  | object members => rfl

theorem print_ne {v : Json} (h : Readable v) (rest : List Char) :
    ∃ c letters, print v ++ rest = c :: letters ∧ c ≠ ']' := by
  cases v with
  | null => exact ⟨_, _, rfl, by decide⟩
  | bool b => cases b <;> exact ⟨_, _, rfl, by decide⟩
  | number text =>
    obtain ⟨hnumber, hall⟩ := h
    obtain ⟨c, letters, rfl⟩ := List.exists_cons_of_ne_nil (ne_nil_of_isNumber hnumber)
    refine ⟨c, letters ++ rest, rfl, ?_⟩
    rintro rfl
    exact absurd (hall _ List.mem_cons_self) (by decide)
  | string raw => exact ⟨_, _, rfl, by decide⟩
  | array items => exact ⟨_, _, rfl, by decide⟩
  | object members => exact ⟨_, _, rfl, by decide⟩

mutual

/-- A tree at the front of a text is read as it was written. -/
theorem parseValue_print : ∀ (v : Json), Readable v → ∀ fuel, depth v ≤ fuel → ∀ rest, Breaks rest →
    parseValue fuel (print v ++ rest) = some (v, rest)
  | .null, _, fuel + 1, _, rest, _ => rfl
  | .bool true, _, fuel + 1, _, rest, _ => rfl
  | .bool false, _, fuel + 1, _, rest, _ => rfl
  | .number text, h, fuel + 1, _, rest, hrest => parseValue_number h.1 h.2 hrest fuel
  | .string raw, h, fuel + 1, _, rest, _ => by
    have hraw : scanString (raw ++ '"' :: rest) = some (raw, rest) := h rest
    show (scanString ((raw ++ ['"']) ++ rest)).map _ = _
    rw [List.append_assoc, List.singleton_append, hraw]
    rfl
  | .array [], _, fuel + 1, _, rest, _ => rfl
  | .array (item :: items), h, fuel + 1, hfuel, rest, _ => by
    have hitems := parseItems_print item items h.1 h.2 fuel (Nat.le_of_succ_le_succ hfuel) rest
    have htext : print (.array (item :: items)) ++ rest =
        '[' :: (printItems (item :: items) ++ ']' :: rest) := by
      simp [print]
    have hskip : skipSpace (printItems (item :: items) ++ ']' :: rest) =
        printItems (item :: items) ++ ']' :: rest := by
      rw [printItems, List.append_assoc]
      exact skipSpace_print h.1 _
    obtain ⟨c, letters, heq, hne⟩ : ∃ c letters,
        printItems (item :: items) ++ ']' :: rest = c :: letters ∧ c ≠ ']' := by
      rw [printItems, List.append_assoc]
      exact print_ne h.1 _
    rw [heq] at hskip hitems
    rw [htext, parseValue, skipSpace_cons (by decide), heq]
    simp only [hskip]
    split
    · rename_i heq'
      exact absurd (List.cons.inj heq').1 hne
    · rw [hitems]
      rfl
  | .object [], _, fuel + 1, _, rest, _ => rfl
  | .object ((key, value) :: members), h, fuel + 1, hfuel, rest, _ => by
    have hmembers := parseMembers_print key value members h.1 h.2.1 h.2.2 fuel
      (Nat.le_of_succ_le_succ hfuel) rest
    have htext : print (.object ((key, value) :: members)) ++ rest =
        '{' :: (printMembers ((key, value) :: members) ++ '}' :: rest) := by
      simp [print]
    obtain ⟨letters, heq⟩ : ∃ letters,
        printMembers ((key, value) :: members) ++ '}' :: rest = '"' :: letters := ⟨_, rfl⟩
    rw [htext, parseValue, skipSpace_cons (by decide)]
    simp only [heq, skipSpace_cons (c := '"') (by decide)] at hmembers ⊢
    show (parseMembers fuel ('"' :: letters)).map _ = _
    rw [hmembers]
    rfl

theorem parseItems_print : ∀ (item : Json) (items : List Json), Readable item → ReadableItems items →
    ∀ fuel, depthItems (item :: items) ≤ fuel → ∀ rest,
      parseItems fuel (printItems (item :: items) ++ ']' :: rest) = some (item :: items, rest)
  | item, [], hitem, _, fuel + 1, hfuel, rest => by
    have hvalue := parseValue_print item hitem fuel (by simp only [depthItems] at hfuel; omega) (']' :: rest)
      (breaks_cons (by decide))
    have htext : printItems [item] ++ ']' :: rest = print item ++ ']' :: rest := by simp [printItems]
    rw [htext, parseItems, hvalue]
    rfl
  | item, next :: items, hitem, hitems, fuel + 1, hfuel, rest => by
    have hrest := parseItems_print next items hitems.1 hitems.2 fuel
      (by simp only [depthItems] at hfuel ⊢; omega) rest
    have hvalue := parseValue_print item hitem fuel (by simp only [depthItems] at hfuel; omega)
      (',' :: (printItems (next :: items) ++ ']' :: rest)) (breaks_cons (by decide))
    have htext : printItems (item :: next :: items) ++ ']' :: rest =
        print item ++ ',' :: (printItems (next :: items) ++ ']' :: rest) := by
      rw [printItems]
      simp
    rw [htext, parseItems, hvalue]
    show (parseItems fuel (printItems (next :: items) ++ ']' :: rest)).map _ = _
    rw [hrest]
    rfl

theorem parseMembers_print : ∀ (key : List Char) (value : Json) (members : List (List Char × Json)),
    IsRaw key → Readable value → ReadableMembers members →
    ∀ fuel, depthMembers ((key, value) :: members) ≤ fuel → ∀ rest,
      parseMembers fuel (printMembers ((key, value) :: members) ++ '}' :: rest) =
        some ((key, value) :: members, rest)
  | key, value, [], hkey, hvalue, _, fuel + 1, hfuel, rest => by
    have hparse := parseValue_print value hvalue fuel (by simp only [depthMembers] at hfuel; omega)
      ('}' :: rest) (breaks_cons (by decide))
    have htext : printMembers [(key, value)] ++ '}' :: rest =
        '"' :: (key ++ '"' :: ':' :: (print value ++ '}' :: rest)) := by
      simp [printMembers]
    rw [htext, parseMembers, skipSpace_cons (by decide)]
    simp only [hkey _, Option.bind_eq_bind, Option.bind_some, skipSpace_cons (c := ':') (by decide), hparse,
      skipSpace_cons (c := '}') (by decide)]
  | key, value, (key', value') :: members, hkey, hvalue, hmembers, fuel + 1, hfuel, rest => by
    have hrest := parseMembers_print key' value' members hmembers.1 hmembers.2.1 hmembers.2.2 fuel
      (by simp only [depthMembers] at hfuel ⊢; omega) rest
    have hparse := parseValue_print value hvalue fuel (by simp only [depthMembers] at hfuel; omega)
      (',' :: (printMembers ((key', value') :: members) ++ '}' :: rest)) (breaks_cons (by decide))
    have htext : printMembers ((key, value) :: (key', value') :: members) ++ '}' :: rest =
        '"' :: (key ++ '"' :: ':' ::
          (print value ++ ',' :: (printMembers ((key', value') :: members) ++ '}' :: rest))) := by
      rw [printMembers]
      simp
    rw [htext, parseMembers, skipSpace_cons (by decide)]
    simp only [hkey _, Option.bind_eq_bind, Option.bind_some, skipSpace_cons (c := ':') (by decide), hparse,
      skipSpace_cons (c := ',') (by decide), hrest, Option.map_some]

end

mutual

theorem depth_le : ∀ (v : Json), Readable v → depth v ≤ (print v).length
  | .null, _ => by simp [depth, print]
  | .bool b, _ => by cases b <;> simp [depth, print]
  | .number text, h => List.length_pos_iff.mpr (ne_nil_of_isNumber h.1)
  | .string raw, _ => by simp [depth, print]
  | .array items, h => by
    have := depthItems_le items h
    simp only [depth, print, List.length_append, List.length_cons, List.length_nil]
    omega
  | .object members, h => by
    have := depthMembers_le members h
    simp only [depth, print, List.length_append, List.length_cons, List.length_nil]
    omega

theorem depthItems_le : ∀ (items : List Json), ReadableItems items →
    depthItems items ≤ (printItems items).length + 1
  | [], _ => Nat.zero_le _
  | [item], h => by
    have := depth_le item h.1
    simp only [depthItems, printItems, List.isEmpty_nil, if_true, List.append_nil]
    omega
  | item :: next :: items, h => by
    have := depth_le item h.1
    have := depthItems_le (next :: items) h.2
    rw [depthItems, printItems]
    simp only [List.isEmpty_cons, Bool.false_eq_true, if_false, List.length_append, List.length_cons]
    omega

theorem depthMembers_le : ∀ (members : List (List Char × Json)), ReadableMembers members →
    depthMembers members ≤ (printMembers members).length + 1
  | [], _ => Nat.zero_le _
  | [(key, value)], h => by
    have := depth_le value h.2.1
    simp only [depthMembers, printMembers, List.isEmpty_nil, if_true, List.append_nil, List.length_append,
      List.length_cons]
    omega
  | (key, value) :: (key', value') :: members, h => by
    have := depth_le value h.2.1
    have := depthMembers_le ((key', value') :: members) h.2.2
    rw [depthMembers, printMembers]
    simp only [List.isEmpty_cons, Bool.false_eq_true, if_false, List.length_append, List.length_cons]
    omega

end

/-- **What is written is read back.** -/
theorem parse_print {v : Json} (h : Readable v) : parse (print v) = some v := by
  have hparse := parseValue_print v h ((print v).length + 1) (Nat.le_succ_of_le (depth_le v h)) []
    (fun c hc => nomatch hc)
  rw [List.append_nil] at hparse
  rw [parse, hparse]
  rfl

end Json
