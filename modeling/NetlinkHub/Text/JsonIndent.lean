import Mathlib.Data.List.DropRight
import NetlinkHub.Text.Json

/-! # Indented JSON text

How `encoding/json` writes a tree with two spaces a level, and what becomes of a text that is cut off or has
other text behind it. An indented text is read back (`parse_indent`). Behind an object there may only be white
space (`parse_append`), and no part of its text is a text (`parse_cut`). -/

namespace Json

/-! ## Writing on several lines -/

/-- The start of a line. -/
def newline (level : ℕ) : List Char := '\n' :: List.replicate (2 * level) ' '

mutual

/-- The text of a tree, two spaces a level. -/
def indent (level : ℕ) : Json → List Char
  | .array items =>
    '[' :: (if items.isEmpty then [] else newline (level + 1) ++ indentItems (level + 1) items ++ newline level) ++
      [']']
  | .object members =>
    '{' :: (if members.isEmpty then []
      else newline (level + 1) ++ indentMembers (level + 1) members ++ newline level) ++ ['}']
  | .null => "null".toList
  | .bool b => if b then "true".toList else "false".toList
  | .number text => text
  | .string raw => '"' :: raw ++ ['"']

def indentItems (level : ℕ) : List Json → List Char
  | [] => []
  | item :: items => indent level item ++ if items.isEmpty then [] else ',' :: newline level ++ indentItems level items

def indentMembers (level : ℕ) : List (List Char × Json) → List Char
  | [] => []
  | (key, value) :: members =>
    '"' :: key ++ '"' :: ':' :: ' ' :: indent level value ++
      if members.isEmpty then [] else ',' :: newline level ++ indentMembers level members

end

variable {c : Char} {s t rest : List Char} {v : Json} {fuel : ℕ}

/-! ## Reading indented text -/

/-- White space in front does not matter. -/
theorem skipSpace_append_of_blank {blank : List Char} (h : ∀ c ∈ blank, isSpace c) (rest : List Char) :
    skipSpace (blank ++ rest) = skipSpace rest :=
  List.dropWhile_append_of_pos h

theorem isSpace_newline (level : ℕ) : ∀ c ∈ newline level, isSpace c := by
  intro c hc
  rcases List.mem_cons.mp hc with rfl | hc
  · rfl
  · rw [(List.mem_replicate.mp hc).2]
    rfl

@[simp] theorem skipSpace_newline (level : ℕ) (rest : List Char) :
    skipSpace (newline level ++ rest) = skipSpace rest :=
  skipSpace_append_of_blank (isSpace_newline level) rest

theorem skipSpace_skipSpace (s : List Char) : skipSpace (skipSpace s) = skipSpace s := List.dropWhile_idempotent _ _

/-- Reading a value skips the white space in front of it. -/
theorem parseValue_skipSpace (fuel : ℕ) (s : List Char) : parseValue fuel (skipSpace s) = parseValue fuel s := by
  cases fuel with
  | zero => rfl
  | succ fuel => rw [parseValue, parseValue, skipSpace_skipSpace]

theorem parseValue_newline (fuel level : ℕ) (rest : List Char) :
    parseValue fuel (newline level ++ rest) = parseValue fuel rest := by
  rw [← parseValue_skipSpace, skipSpace_newline, parseValue_skipSpace]

theorem parseItems_newline (fuel level : ℕ) (rest : List Char) :
    parseItems fuel (newline level ++ rest) = parseItems fuel rest := by
  cases fuel with
  | zero => rfl
  | succ fuel => rw [parseItems, parseItems, parseValue_newline]

theorem parseMembers_newline (fuel level : ℕ) (rest : List Char) :
    parseMembers fuel (newline level ++ rest) = parseMembers fuel rest := by
  cases fuel with
  | zero => rfl
  | succ fuel => rw [parseMembers, parseMembers, skipSpace_newline]

theorem breaks_newline (level : ℕ) (rest : List Char) : Breaks (newline level ++ rest) := breaks_cons (by decide)

/-- A tree is written without a space in front, and does not begin with the end of a list. -/
theorem indent_ne (level : ℕ) (h : Readable v) (rest : List Char) :
    ∃ c letters, indent level v ++ rest = c :: letters ∧ isSpace c = false ∧ c ≠ ']' := by
  cases v with
  | null => exact ⟨_, _, rfl, by decide, by decide⟩
  | bool b => cases b <;> exact ⟨_, _, rfl, by decide, by decide⟩
  | number text =>
    obtain ⟨hnumber, hall⟩ := h
    obtain ⟨c, letters, rfl⟩ := List.exists_cons_of_ne_nil (ne_nil_of_isNumber hnumber)
    refine ⟨c, letters ++ rest, rfl, not_isSpace_of_isNumeric (hall c List.mem_cons_self), ?_⟩
    rintro rfl
    exact absurd (hall _ List.mem_cons_self) (by decide)
  | string raw => exact ⟨_, _, rfl, by decide, by decide⟩
  | array items => exact ⟨_, _, rfl, by decide, by decide⟩
  | object members => exact ⟨_, _, rfl, by decide, by decide⟩

mutual

/-- An indented tree at the front of a text is read as it was written. -/
theorem parseValue_indent : ∀ (v : Json), Readable v → ∀ level fuel, depth v ≤ fuel → ∀ rest, Breaks rest →
    parseValue fuel (indent level v ++ rest) = some (v, rest)
  | .null, _, level, fuel + 1, _, rest, _ => by rw [indent]; rfl
  | .bool true, _, level, fuel + 1, _, rest, _ => by rw [indent]; rfl
  | .bool false, _, level, fuel + 1, _, rest, _ => by rw [indent]; rfl
  | .number text, h, level, fuel + 1, _, rest, hrest => by
    rw [indent]
    exact parseValue_number h.1 h.2 hrest fuel
  | .string raw, h, level, fuel + 1, _, rest, _ => by
    have hraw : scanString (raw ++ '"' :: rest) = some (raw, rest) := h rest
    rw [indent]
    show (scanString ((raw ++ ['"']) ++ rest)).map _ = _
    rw [List.append_assoc, List.singleton_append, hraw]
    rfl
  | .array [], _, level, fuel + 1, _, rest, _ => by rw [indent]; rfl
  | .array (item :: items), h, level, fuel + 1, hfuel, rest, _ => by
    have hitems := parseItems_indent item items h.1 h.2 (level + 1) fuel (Nat.le_of_succ_le_succ hfuel) level rest
    have htext : indent level (.array (item :: items)) ++ rest =
        '[' :: (newline (level + 1) ++
          (indentItems (level + 1) (item :: items) ++ (newline level ++ ']' :: rest))) := by
      simp [indent]
    obtain ⟨c, letters, heq, hspace, hne⟩ : ∃ c letters,
        indentItems (level + 1) (item :: items) ++ (newline level ++ ']' :: rest) = c :: letters ∧
          isSpace c = false ∧ c ≠ ']' := by
      rw [indentItems, List.append_assoc]
      exact indent_ne (level + 1) h.1 _
    rw [heq] at hitems
    rw [htext, parseValue, skipSpace_cons (by decide), heq]
    simp only [skipSpace_newline, skipSpace_cons hspace]
    split
    · rename_i heq'
      exact absurd (List.cons.inj heq').1 hne
    · rw [hitems]
      rfl
  | .object [], _, level, fuel + 1, _, rest, _ => by rw [indent]; rfl
  | .object ((key, value) :: members), h, level, fuel + 1, hfuel, rest, _ => by
    have hmembers := parseMembers_indent key value members h.1 h.2.1 h.2.2 (level + 1) fuel
      (Nat.le_of_succ_le_succ hfuel) level rest
    have htext : indent level (.object ((key, value) :: members)) ++ rest = '{' ::
        (newline (level + 1) ++
          (indentMembers (level + 1) ((key, value) :: members) ++ (newline level ++ '}' :: rest))) := by
      simp [indent]
    obtain ⟨letters, heq⟩ : ∃ letters, indentMembers (level + 1) ((key, value) :: members) ++
        (newline level ++ '}' :: rest) = '"' :: letters := ⟨_, rfl⟩
    rw [htext, parseValue, skipSpace_cons (by decide)]
    simp only [heq, skipSpace_newline, skipSpace_cons (c := '"') (by decide)] at hmembers ⊢
    show (parseMembers fuel ('"' :: letters)).map _ = _
    rw [hmembers]
    rfl
termination_by structural _ _ _ fuel => fuel

theorem parseItems_indent : ∀ (item : Json) (items : List Json), Readable item → ReadableItems items →
    ∀ level fuel, depthItems (item :: items) ≤ fuel → ∀ outer rest,
      parseItems fuel (indentItems level (item :: items) ++ (newline outer ++ ']' :: rest)) =
        some (item :: items, rest)
  | item, [], hitem, _, level, fuel + 1, hfuel, outer, rest => by
    have hvalue := parseValue_indent item hitem level fuel (by simp only [depthItems] at hfuel; omega)
      (newline outer ++ ']' :: rest) (breaks_newline outer _)
    have htext : indentItems level [item] = indent level item := by simp [indentItems]
    rw [htext, parseItems, hvalue]
    simp only [Option.bind_eq_bind, Option.bind_some, skipSpace_newline, skipSpace_cons (c := ']') (by decide)]
  | item, next :: items, hitem, hitems, level, fuel + 1, hfuel, outer, rest => by
    have hrest := parseItems_indent next items hitems.1 hitems.2 level fuel
      (by simp only [depthItems] at hfuel ⊢; omega) outer rest
    have hvalue := parseValue_indent item hitem level fuel (by simp only [depthItems] at hfuel; omega)
      (',' :: (newline level ++ (indentItems level (next :: items) ++ (newline outer ++ ']' :: rest))))
      (breaks_cons (by decide))
    have htext : indentItems level (item :: next :: items) ++ (newline outer ++ ']' :: rest) = indent level item ++
        ',' :: (newline level ++ (indentItems level (next :: items) ++ (newline outer ++ ']' :: rest))) := by
      rw [indentItems]
      simp
    rw [htext, parseItems, hvalue]
    simp only [Option.bind_eq_bind, Option.bind_some, skipSpace_cons (c := ',') (by decide), parseItems_newline, hrest,
      Option.map_some]
termination_by structural _ _ _ _ _ fuel => fuel

theorem parseMembers_indent : ∀ (key : List Char) (value : Json) (members : List (List Char × Json)),
    IsRaw key → Readable value → ReadableMembers members →
    ∀ level fuel, depthMembers ((key, value) :: members) ≤ fuel → ∀ outer rest,
      parseMembers fuel (indentMembers level ((key, value) :: members) ++ (newline outer ++ '}' :: rest)) =
        some ((key, value) :: members, rest)
  | key, value, [], hkey, hvalue, _, level, fuel + 1, hfuel, outer, rest => by
    have hparse := parseValue_indent value hvalue level fuel (by simp only [depthMembers] at hfuel; omega)
      (newline outer ++ '}' :: rest) (breaks_newline outer _)
    rw [← parseValue_skipSpace] at hparse
    have htext : indentMembers level [(key, value)] ++ (newline outer ++ '}' :: rest) =
        '"' :: (key ++ '"' :: ':' :: ' ' :: (indent level value ++ (newline outer ++ '}' :: rest))) := by
      simp [indentMembers]
    rw [htext, parseMembers, skipSpace_cons (by decide)]
    simp only [hkey _, Option.bind_eq_bind, Option.bind_some, skipSpace_cons (c := ':') (by decide)]
    rw [← parseValue_skipSpace, show skipSpace (' ' :: (indent level value ++ (newline outer ++ '}' :: rest))) =
      skipSpace (indent level value ++ (newline outer ++ '}' :: rest)) from rfl, hparse]
    simp only [Option.bind_some, skipSpace_newline, skipSpace_cons (c := '}') (by decide)]
  | key, value, (key', value') :: members, hkey, hvalue, hmembers, level, fuel + 1, hfuel, outer, rest => by
    have hrest := parseMembers_indent key' value' members hmembers.1 hmembers.2.1 hmembers.2.2 level fuel
      (by simp only [depthMembers] at hfuel ⊢; omega) outer rest
    have hparse := parseValue_indent value hvalue level fuel (by simp only [depthMembers] at hfuel; omega)
      (',' :: (newline level ++ (indentMembers level ((key', value') :: members) ++ (newline outer ++ '}' :: rest))))
      (breaks_cons (by decide))
    rw [← parseValue_skipSpace] at hparse
    have htext : indentMembers level ((key, value) :: (key', value') :: members) ++ (newline outer ++ '}' :: rest) =
        '"' :: (key ++ '"' :: ':' :: ' ' :: (indent level value ++ ',' :: (newline level ++
          (indentMembers level ((key', value') :: members) ++ (newline outer ++ '}' :: rest))))) := by
      rw [indentMembers]
      simp
    rw [htext, parseMembers, skipSpace_cons (by decide)]
    simp only [hkey _, Option.bind_eq_bind, Option.bind_some, skipSpace_cons (c := ':') (by decide)]
    rw [← parseValue_skipSpace, show ∀ s, skipSpace (' ' :: s) = skipSpace s from fun _ => rfl, hparse]
    simp only [Option.bind_some, skipSpace_cons (c := ',') (by decide), parseMembers_newline, hrest, Option.map_some]
termination_by structural _ _ _ _ _ _ _ fuel => fuel

end

mutual

/-- Indenting makes no text shorter. -/
theorem length_print_le : ∀ (v : Json) (level : ℕ), (print v).length ≤ (indent level v).length
  | .null, _ | .bool _, _ | .number _, _ | .string _, _ => by rw [print, indent]
  | .array items, level => by
    have := length_printItems_le items (level + 1)
    cases items with
    | nil => simp [print, printItems, indent]
    | cons item items =>
      simp only [print, indent, List.isEmpty_cons, Bool.false_eq_true, if_false, List.length_cons, List.length_append]
      omega
  | .object members, level => by
    have := length_printMembers_le members (level + 1)
    cases members with
    | nil => simp [print, printMembers, indent]
    | cons member members =>
      simp only [print, indent, List.isEmpty_cons, Bool.false_eq_true, if_false, List.length_cons, List.length_append]
      omega

theorem length_printItems_le : ∀ (items : List Json) (level : ℕ),
    (printItems items).length ≤ (indentItems level items).length
  | [], _ => Nat.le_refl _
  | item :: items, level => by
    have := length_print_le item level
    have := length_printItems_le items level
    rw [printItems, indentItems]
    split <;> simp only [List.length_append, List.length_cons, List.length_nil] <;> omega

theorem length_printMembers_le : ∀ (members : List (List Char × Json)) (level : ℕ),
    (printMembers members).length ≤ (indentMembers level members).length
  | [], _ => Nat.le_refl _
  | (key, value) :: members, level => by
    have := length_print_le value level
    have := length_printMembers_le members level
    rw [printMembers, indentMembers]
    split <;> simp only [List.length_append, List.length_cons, List.length_nil] <;> omega

end

/-- **Indented text is read back.** -/
theorem parse_indent (level : ℕ) (h : Readable v) : parse (indent level v) = some v := by
  have hdepth : depth v ≤ (indent level v).length + 1 :=
    Nat.le_succ_of_le ((depth_le v h).trans (length_print_le v level))
  have hparse := parseValue_indent v h level _ hdepth [] (fun c hc => nomatch hc)
  rw [List.append_nil] at hparse
  rw [parse, hparse]
  rfl

/-! ## Text that goes on -/

theorem skipSpace_append (h : skipSpace s ≠ []) (t : List Char) : skipSpace (s ++ t) = skipSpace s ++ t := by
  unfold skipSpace at h ⊢
  rw [List.dropWhile_append, if_neg (by simpa using h)]

theorem skipSpace_cons_append (h : skipSpace s = c :: rest) (t : List Char) :
    skipSpace (s ++ t) = c :: (rest ++ t) := by
  rw [skipSpace_append (by rw [h]; exact List.cons_ne_nil _ _), h, List.cons_append]

/-- A string that is closed is read no further. -/
theorem scanString_append {raw : List Char} (h : scanString s = some (raw, rest)) (t : List Char) :
    scanString (s ++ t) = some (raw, rest ++ t) := by
  fun_induction scanString s generalizing raw rest with
  | case1 rest' =>
    cases h
    rfl
  | case2 a b c d rest' hunit ih =>
    obtain ⟨⟨raw', rest''⟩, hscan, heq⟩ := Option.map_eq_some_iff.mp h
    cases heq
    simp [scanString, hunit, ih hscan]
  | case3 a b c d rest' hunit => cases h
  | case4 c rest' _ hletter ih =>
    obtain ⟨⟨raw', rest''⟩, hscan, heq⟩ := Option.map_eq_some_iff.mp h
    cases heq
    have hplain : c ≠ 'u' := by
      rintro rfl
      exact absurd hletter (by decide)
    simp [scanString, hplain, hletter, ih hscan]
  | case5 c rest' _ hletter => cases h
  | case6 c rest' _ _ _ hcontrol => cases h
  | case7 c rest' hquote _ _ hcontrol ih =>
    obtain ⟨⟨raw', rest''⟩, hscan, heq⟩ := Option.map_eq_some_iff.mp h
    cases heq
    obtain ⟨hslash, hcontrol⟩ := not_or.mp hcontrol
    rw [List.cons_append, scanString.eq_4 c _ hquote (fun _ _ _ _ _ hc => absurd hc hslash)
      fun _ _ hc => absurd hc hslash, if_neg (not_or.mpr ⟨hslash, hcontrol⟩), ih hscan]
    rfl
  | case8 => cases h

theorem ne_nil_of_parseValue {r : Json × List Char} (h : parseValue fuel s = some r) : s ≠ [] := by
  rintro rfl
  cases fuel <;> cases h

theorem ne_nil_of_parseItems {r : List Json × List Char} (h : parseItems fuel s = some r) : s ≠ [] := by
  cases fuel with
  | zero => cases h
  | succ fuel =>
    obtain ⟨r', hvalue, -⟩ := Option.bind_eq_some_iff.mp h
    exact ne_nil_of_parseValue hvalue

theorem ne_nil_of_parseMembers {r : List (List Char × Json) × List Char} (h : parseMembers fuel s = some r) :
    s ≠ [] := by
  rintro rfl
  cases fuel <;> cases h

mutual

/-- **What was read is read again** when other text follows, unless it is a number that goes on. -/
theorem parseValue_append : ∀ (fuel more : ℕ) (s t rest : List Char) (v : Json), parseValue fuel s = some (v, rest) →
    (rest = [] → ∀ text, v ≠ .number text) → parseValue (fuel + more) (s ++ t) = some (v, rest ++ t)
  | fuel + 1, more, s, t, rest, v, h, hclosed => by
    rw [Nat.add_right_comm]
    unfold parseValue at h
    split at h
    · rename_i s' heq
      obtain ⟨⟨raw, rest'⟩, hscan, heq'⟩ := Option.map_eq_some_iff.mp h
      cases heq'
      rw [parseValue, skipSpace_cons_append heq]
      simp [scanString_append hscan]
    · rename_i s' heq
      rw [parseValue, skipSpace_cons_append heq]
      split at h
      · rename_i s'' hbrace
        cases h
        simp [skipSpace_cons_append hbrace]
      · rename_i hbrace
        obtain ⟨⟨members, rest'⟩, hmembers, heq'⟩ := Option.map_eq_some_iff.mp h
        cases heq'
        have hnext := parseMembers_append fuel more _ t _ _ hmembers
        obtain ⟨c, s'', hs⟩ := List.exists_cons_of_ne_nil (ne_nil_of_parseMembers hmembers)
        rw [hs, List.cons_append] at hnext
        simp only [skipSpace_cons_append hs]
        split
        · rename_i s''' hs'
          exact absurd (hs.trans (by rw [(List.cons.inj hs').1])) (hbrace s'')
        · rw [hnext]
          rfl
    · rename_i s' heq
      rw [parseValue, skipSpace_cons_append heq]
      split at h
      · rename_i s'' hbracket
        cases h
        simp [skipSpace_cons_append hbracket]
      · rename_i hbracket
        obtain ⟨⟨items, rest'⟩, hitems, heq'⟩ := Option.map_eq_some_iff.mp h
        cases heq'
        have hnext := parseItems_append fuel more _ t _ _ hitems
        obtain ⟨c, s'', hs⟩ := List.exists_cons_of_ne_nil (ne_nil_of_parseItems hitems)
        rw [hs, List.cons_append] at hnext
        simp only [skipSpace_cons_append hs]
        split
        · rename_i s''' hs'
          exact absurd (hs.trans (by rw [(List.cons.inj hs').1])) (hbracket s'')
        · rw [hnext]
          rfl
    · rename_i s' heq
      cases h
      rw [parseValue, skipSpace_cons_append heq]
      rfl
    · rename_i s' heq
      cases h
      rw [parseValue, skipSpace_cons_append heq]
      rfl
    · rename_i s' heq
      cases h
      rw [parseValue, skipSpace_cons_append heq]
      rfl
    · split at h
      · rename_i hnumber
        cases h
        have hrest : (skipSpace s).dropWhile isNumeric ≠ [] := fun hnil => hclosed hnil _ rfl
        have hne : skipSpace s ≠ [] := by
          intro hnil
          rw [hnil] at hrest
          exact hrest rfl
        have htext : skipSpace s ++ t =
            (skipSpace s).takeWhile isNumeric ++ ((skipSpace s).dropWhile isNumeric ++ t) := by
          rw [← List.append_assoc, List.takeWhile_append_dropWhile]
        have hbreaks : Breaks ((skipSpace s).dropWhile isNumeric ++ t) := by
          intro c hc
          rw [List.head?_append_of_ne_nil _ hrest] at hc
          simpa [Option.mem_def.mp hc] using List.head?_dropWhile_not isNumeric (skipSpace s)
        rw [← parseValue_skipSpace, skipSpace_append hne, htext]
        exact parseValue_number hnumber (fun c hc => List.mem_takeWhile_imp hc) hbreaks _
      · cases h

theorem parseItems_append : ∀ (fuel more : ℕ) (s t rest : List Char) (items : List Json),
    parseItems fuel s = some (items, rest) → parseItems (fuel + more) (s ++ t) = some (items, rest ++ t)
  | fuel + 1, more, s, t, rest, items, h => by
    rw [Nat.add_right_comm]
    unfold parseItems at h ⊢
    obtain ⟨⟨item, s'⟩, hvalue, h⟩ := Option.bind_eq_some_iff.mp h
    simp only at h
    split at h
    · rename_i s'' heq
      obtain ⟨⟨items', rest'⟩, hitems, heq'⟩ := Option.map_eq_some_iff.mp h
      cases heq'
      rw [parseValue_append fuel more s t s' item hvalue (by rintro rfl; cases heq)]
      simp [skipSpace_cons_append heq, parseItems_append fuel more _ t _ _ hitems]
    · rename_i s'' heq
      cases h
      rw [parseValue_append fuel more s t s' item hvalue (by rintro rfl; cases heq)]
      simp [skipSpace_cons_append heq]
    · cases h

theorem parseMembers_append : ∀ (fuel more : ℕ) (s t rest : List Char) (members : List (List Char × Json)),
    parseMembers fuel s = some (members, rest) → parseMembers (fuel + more) (s ++ t) = some (members, rest ++ t)
  | fuel + 1, more, s, t, rest, members, h => by
    rw [Nat.add_right_comm]
    unfold parseMembers at h ⊢
    split at h
    · rename_i s₁ hquote
      obtain ⟨⟨key, s₂⟩, hscan, h⟩ := Option.bind_eq_some_iff.mp h
      simp only at h
      split at h
      · rename_i s₃ hcolon
        obtain ⟨⟨value, s₄⟩, hvalue, h⟩ := Option.bind_eq_some_iff.mp h
        simp only at h
        split at h
        · rename_i s₅ hcomma
          obtain ⟨⟨members', rest'⟩, hmembers, heq'⟩ := Option.map_eq_some_iff.mp h
          cases heq'
          have hnext := parseValue_append fuel more s₃ t s₄ value hvalue (by rintro rfl; cases hcomma)
          simp [skipSpace_cons_append hquote, scanString_append hscan, skipSpace_cons_append hcolon, hnext,
            skipSpace_cons_append hcomma, parseMembers_append fuel more _ t _ _ hmembers]
        · rename_i s₅ hbrace
          cases h
          have hnext := parseValue_append fuel more s₃ t s₄ value hvalue (by rintro rfl; cases hbrace)
          simp [skipSpace_cons_append hquote, scanString_append hscan, skipSpace_cons_append hcolon, hnext,
            skipSpace_cons_append hbrace]
        · cases h
      · cases h
    · cases h

end

/-- An object's text begins with its brace. -/
theorem exists_object {r : Json × List Char} (h : parseValue fuel ('{' :: s) = some r) :
    ∃ members, r.1 = .object members := by
  cases fuel with
  | zero => cases h
  | succ fuel =>
    rw [parseValue, skipSpace_cons (by decide)] at h
    simp only at h
    split at h
    · cases h
      exact ⟨_, rfl⟩
    · obtain ⟨⟨members, rest⟩, -, rfl⟩ := Option.map_eq_some_iff.mp h
      exact ⟨members, rfl⟩

/-- **Behind an object** there may only be white space. -/
theorem parse_append (h : parse ('{' :: s) = some v) (t : List Char) :
    parse ('{' :: s ++ t) = if skipSpace t = [] then some v else none := by
  unfold parse at h ⊢
  split at h
  · rename_i value rest hvalue
    split at h
    · rename_i hrest
      cases h
      obtain ⟨members, rfl⟩ := exists_object hvalue
      have hlength : ('{' :: s ++ t).length + 1 = ('{' :: s).length + 1 + t.length := by
        rw [List.length_append]
        omega
      rw [hlength, parseValue_append _ t.length _ t _ _ hvalue (fun _ _ => nofun)]
      have hskip : skipSpace (rest ++ t) = skipSpace t := by
        unfold skipSpace at hrest ⊢
        rw [List.dropWhile_append, hrest]
        rfl
      simp only [hskip]
    · cases h
  · cases h

/-- An indented object is read back with white space behind it. -/
theorem parse_indent_append {members : List (List Char × Json)} (level : ℕ) (h : Readable (.object members))
    {t : List Char} (ht : skipSpace t = []) : parse (indent level (.object members) ++ t) = some (.object members) := by
  have hparse := parse_indent level h
  rw [indent, List.cons_append] at hparse ⊢
  rw [parse_append hparse, if_pos ht]

/-- **A text that is cut off** is none. -/
theorem parse_cut (h : parse ('{' :: s ++ t) = some v) (ht : skipSpace t ≠ []) :
    parse ('{' :: s) = none := by
  cases hcut : parse ('{' :: s) with
  | none => rfl
  | some w =>
    rw [parse_append hcut, if_neg ht] at h
    cases h

end Json
