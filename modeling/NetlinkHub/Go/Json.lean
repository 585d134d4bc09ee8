import Mathlib.Data.Bool.AllAny
import NetlinkHub.Go.Text
import NetlinkHub.Go.Timestamp
import NetlinkHub.Text.JsonIndent

/-! # `encoding/json`

What `json.Unmarshal` makes of a JSON text for a struct: a member goes to the field of its name, unknown
members are skipped, and a value of the wrong kind is an error. Letter case is only looked at where no
field has the name itself; how it is folded (`fold`) is a parameter. How `json.Marshal` writes a string is read
back by any reader of JSON (`Marshal.unquote_quote`). -/

namespace Unmarshal

/-- A field of a struct: its name in the text, and what a value makes of the struct. -/
structure Field (σ : Type) where
  name : String
  set : Json → σ → Option σ

variable {σ τ : Type}

/-- A field of type `string`; `null` leaves it alone. -/
def stringField (name : String) (put : String → σ → σ) : Field σ where
  name := name
  set
    | .string raw, s => some (put (String.ofList (Json.unquote raw)) s)
    | .null, s => some s
    | _, _ => none

/-- A field of type `time.Time`. `UnmarshalJSON` sees the string as it is written; what the strict reader
does not take is left to `time.Parse`. -/
def timeField (parse : List Char → Option Time) (name : String) (put : Time → σ → σ) : Field σ where
  name := name
  set
    | .string raw, s => ((Time.parseRFC3339 raw).orElse fun _ => parse raw).map (put · s)
    | .null, s => some s
    | _, _ => none

/-- A field of type `int64`. -/
def intField (name : String) (put : Int → σ → σ) : Field σ where
  name := name
  set
    | .number text, s => (Text.atoi text).map (put · s)
    | .null, s => some s
    | _, _ => none

/-- The items of an array. An item is decoded onto what the memory of the slice holds in its place; the memory
behind the last item is kept. -/
def items (decode : Json → τ → Option τ) (zero : τ) : List Json → List τ → Option (List τ × List τ)
  | [], held => some ([], held)
  | value :: values, held => do
    let item ← decode value (held.headD zero)
    let (rest, spare) ← items decode zero values held.tail
    some (item :: rest, spare)

/-- A field that is a slice. `null` and an empty array give it no memory. -/
def sliceField (decode : Json → τ → Option τ) (zero : τ) (name : String) (memory : σ → List τ)
    (put : List τ → List τ → σ → σ) : Field σ where
  name := name
  set
    | .array [], s => some (put [] [] s)
    | .array (value :: values), s =>
      (items decode zero (value :: values) (memory s)).map fun (slice, spare) => put slice spare s
    | .null, s => some (put [] [] s)
    | _, _ => none

/-- The field that a member is for. -/
def findField (fold : String → String) (fields : List (Field σ)) (key : String) : Option (Field σ) :=
  (fields.find? (·.name = key)).orElse fun _ => fields.find? fun field => fold field.name = fold key

/-- The members of an object, one after the other. -/
def members (fold : String → String) (fields : List (Field σ)) :
    List (List Char × Json) → σ → Option σ
  | [], s => some s
  | (key, value) :: rest, s =>
    match findField fold fields (String.ofList (Json.unquote key)) with
    | none => members fold fields rest s
    | some field => (field.set value s).bind (members fold fields rest)

/-- A struct. -/
def struct (fold : String → String) (fields : List (Field σ)) : Json → σ → Option σ
  | .object ms, s => members fold fields ms s
  | .null, s => some s
  | _, _ => none

/-- A field that is a struct itself. -/
def structField (fold : String → String) (fields : List (Field τ)) (name : String) (get : σ → τ)
    (put : τ → σ → σ) : Field σ where
  name := name
  set value s := (struct fold fields value (get s)).map (put · s)

variable {fold : String → String} {fields : List (Field σ)} {field : Field σ} {key : String}
  {value : Json} {rest : List (List Char × Json)} {s : σ}

@[simp] theorem set_stringField (name text : String) (put : String → σ → σ) (s : σ) :
    (stringField name put).set (.string (Json.quote text)) s = some (put text s) := by
  simp [stringField, Json.unquote_quote]

theorem set_timeField {parse : List Char → Option Time} {raw : List Char} {time : Time} (name : String)
    (put : Time → σ → σ) (s : σ) (h : Time.parseRFC3339 raw = some time) :
    (timeField parse name put).set (.string raw) s = some (put time s) := by
  simp [timeField, h]

theorem items_map {decode : Json → τ → Option τ} {zero : τ} {encode : τ → Json} {slice : List τ}
    (h : ∀ item ∈ slice, decode (encode item) zero = some item) :
    items decode zero (slice.map encode) [] = some (slice, []) := by
  induction slice with
  | nil => rfl
  | cons item slice ih =>
    rw [List.map_cons, items, List.headD_nil, List.tail_nil, h item List.mem_cons_self,
      ih fun other hother => h other (List.mem_cons_of_mem item hother)]
    rfl

/-- **A list comes back** into a slice that had no memory. -/
theorem set_sliceField {decode : Json → τ → Option τ} {zero : τ} {encode : τ → Json} {slice : List τ}
    {memory : σ → List τ} {s : σ} (name : String) (put : List τ → List τ → σ → σ) (hmemory : memory s = [])
    (h : ∀ item ∈ slice, decode (encode item) zero = some item) :
    (sliceField decode zero name memory put).set (.array (slice.map encode)) s = some (put slice [] s) := by
  cases slice with
  | nil => rfl
  | cons item slice =>
    have hitems := items_map h
    rw [List.map_cons] at hitems ⊢
    simp only [sliceField, hmemory, hitems, Option.map_some]

theorem struct_object (ms : List (List Char × Json)) :
    struct fold fields (.object ms) s = members fold fields ms s := rfl

/-- **A member goes to the field of its name.** -/
theorem members_cons (hfield : fields.find? (·.name = key) = some field) :
    members fold fields ((Json.quote key, value) :: rest) s =
      (field.set value s).bind (members fold fields rest) := by
  have hkey : String.ofList (Json.unquote (Json.quote key)) = key := by
    rw [Json.unquote_quote, String.ofList_toList]
  rw [members, hkey, findField, hfield]
  rfl

/-! ## What decoding keeps -/

/-- What holds of a struct still holds after a value was decoded onto it. -/
def Keeps (decode : Json → σ → Option σ) (P : σ → Prop) : Prop := ∀ value s s', decode value s = some s' → P s → P s'

theorem mem_of_findField (h : findField fold fields key = some field) : field ∈ fields := by
  unfold findField at h
  cases hfind : fields.find? (·.name = key) with
  | some found =>
    rw [hfind] at h
    cases h
    exact List.mem_of_find?_eq_some hfind
  | none =>
    rw [hfind] at h
    exact List.mem_of_find?_eq_some h

/-- **What every field keeps**, a struct keeps. -/
theorem keeps_struct {P : σ → Prop} (h : ∀ field ∈ fields, Keeps field.set P) : Keeps (struct fold fields) P := by
  have hmembers : ∀ ms s s', members fold fields ms s = some s' → P s → P s' := by
    intro ms
    induction ms with
    | nil =>
      rintro s s' ⟨⟩ hs
      exact hs
    | cons member ms ih =>
      intro s s' hset hs
      rw [members] at hset
      split at hset
      · exact ih s s' hset hs
      · rename_i field hfield
        obtain ⟨s₁, hvalue, hrest⟩ := Option.bind_eq_some_iff.mp hset
        exact ih s₁ s' hrest (h field (mem_of_findField hfield) _ s s₁ hvalue hs)
  intro value s s' hset hs
  unfold struct at hset
  split at hset
  · exact hmembers _ s s' hset hs
  · cases hset
    exact hs
  · cases hset

/-- What decoding keeps of one item holds of all, in the slice and in the memory behind it. -/
theorem forall_of_items {decode : Json → τ → Option τ} {zero : τ} {P : τ → Prop} (h : Keeps decode P)
    (hzero : P zero) {values : List Json} {held slice spare : List τ}
    (hitems : items decode zero values held = some (slice, spare)) (hheld : ∀ item ∈ held, P item) :
    ∀ item ∈ slice ++ spare, P item := by
  induction values generalizing held slice with
  | nil =>
    cases hitems
    exact hheld
  | cons value values ih =>
    obtain ⟨item, hitem, hrest⟩ := Option.bind_eq_some_iff.mp hitems
    obtain ⟨⟨rest, spare'⟩, hvalues, heq⟩ := Option.bind_eq_some_iff.mp hrest
    cases heq
    have hfirst : P item := by
      refine h value _ item hitem ?_
      cases held with
      | nil => exact hzero
      | cons first held => exact hheld first List.mem_cons_self
    rw [List.cons_append, List.forall_mem_cons]
    exact ⟨hfirst, ih hvalues fun other hother => hheld other (List.mem_of_mem_tail hother)⟩

/-- A list of items that decoding keeps. -/
theorem keeps_sliceField {decode : Json → τ → Option τ} {zero : τ} {P : τ → Prop} (h : Keeps decode P)
    (hzero : P zero) {name : String} {memory : σ → List τ} {put : List τ → List τ → σ → σ}
    (hput : ∀ slice spare s, memory (put slice spare s) = slice ++ spare) :
    Keeps (sliceField decode zero name memory put).set fun s => ∀ item ∈ memory s, P item := by
  intro value s s' hset hs
  unfold sliceField at hset
  simp only at hset
  split at hset
  · cases hset
    simp [hput]
  · obtain ⟨⟨slice, spare⟩, hitems, rfl⟩ := Option.map_eq_some_iff.mp hset
    rw [hput]
    exact forall_of_items h hzero hitems hs
  · cases hset
    simp [hput]
  · cases hset

theorem keeps_stringField {P : σ → Prop} {name : String} {put : String → σ → σ} (h : ∀ text s, P s → P (put text s)) :
    Keeps (stringField name put).set P := by
  intro value s s' hset hs
  unfold stringField at hset
  simp only at hset
  split at hset <;> cases hset
  · exact h _ s hs
  · exact hs

theorem keeps_timeField {P : σ → Prop} {parse : List Char → Option Time} {name : String} {put : Time → σ → σ}
    (h : ∀ time s, P s → P (put time s)) : Keeps (timeField parse name put).set P := by
  intro value s s' hset hs
  unfold timeField at hset
  simp only at hset
  split at hset
  · obtain ⟨time, -, rfl⟩ := Option.map_eq_some_iff.mp hset
    exact h time s hs
  · cases hset
    exact hs
  · cases hset

theorem keeps_intField {P : σ → Prop} {name : String} {put : Int → σ → σ}
    (h : ∀ x s, -2 ^ 63 ≤ x → x < 2 ^ 63 → P s → P (put x s)) : Keeps (intField name put).set P := by
  intro value s s' hset hs
  unfold intField at hset
  simp only at hset
  split at hset
  · obtain ⟨x, hx, rfl⟩ := Option.map_eq_some_iff.mp hset
    obtain ⟨hlow, hhigh⟩ := Text.atoi_range hx
    exact h x s hlow hhigh hs
  · cases hset
    exact hs
  · cases hset

end Unmarshal

namespace Marshal

/-- How a letter of a string is written: those that mean something in HTML or JavaScript by their number. -/
def escape (c : Char) : List Char :=
  if c ∈ ['<', '>', '&'] then ['\\', 'u', '0', '0', Nat.digitChar (c.toNat / 16), Nat.digitChar (c.toNat % 16)]
  else if c ∈ ['\u2028', '\u2029'] then ['\\', 'u', '2', '0', '2', Nat.digitChar (c.toNat % 16)]
  else Json.escape c

/-- How a string is written between its quotes. -/
def quote (s : String) : List Char := s.toList.flatMap escape

/-- A letter is read as it was written. -/
theorem scanString_escape (c : Char) (rest : List Char) : Json.scanString (escape c ++ rest) =
    (Json.scanString rest).map fun (raw, rest) => (escape c ++ raw, rest) := by
  by_cases hhtml : c ∈ ['<', '>', '&']
  · rw [escape, if_pos hhtml]
    simp only [List.mem_cons, List.not_mem_nil, or_false] at hhtml
    rcases hhtml with rfl | rfl | rfl <;> rfl
  · by_cases hline : c ∈ ['\u2028', '\u2029']
    · rw [escape, if_neg hhtml, if_pos hline]
      simp only [List.mem_cons, List.not_mem_nil, or_false] at hline
      rcases hline with rfl | rfl <;> rfl
    · rw [escape, if_neg hhtml, if_neg hline, Json.scanString_escape]

/-- One letter comes back. -/
theorem unquote_escape (c : Char) (rest : List Char) : Json.unquote (escape c ++ rest) = c :: Json.unquote rest := by
  by_cases hhtml : c ∈ ['<', '>', '&']
  · rw [escape, if_pos hhtml]
    simp only [List.mem_cons, List.not_mem_nil, or_false] at hhtml
    rcases hhtml with rfl | rfl | rfl <;> rfl
  · by_cases hline : c ∈ ['\u2028', '\u2029']
    · rw [escape, if_neg hhtml, if_pos hline]
      simp only [List.mem_cons, List.not_mem_nil, or_false] at hline
      rcases hline with rfl | rfl <;> rfl
    · rw [escape, if_neg hhtml, if_neg hline, Json.unquote_escape]

theorem isRaw_quote (s : String) : Json.IsRaw (quote s) := by
  intro rest
  unfold quote
  induction s.toList with
  | nil => rfl
  | cons c letters ih => rw [List.flatMap_cons, List.append_assoc, scanString_escape, ih]; rfl

/-- **A marshalled string comes back.** -/
theorem unquote_quote (s : String) : Json.unquote (quote s) = s.toList := by
  unfold quote
  induction s.toList with
  | nil => rfl
  | cons c letters ih => rw [List.flatMap_cons, unquote_escape, ih]

@[simp] theorem set_stringField {σ : Type} (name text : String) (put : String → σ → σ) (s : σ) :
    (Unmarshal.stringField name put).set (.string (quote text)) s = some (put text s) := by
  simp [Unmarshal.stringField, unquote_quote]

/-! ## Numbers -/

/-- A number of type `int64`. -/
def int (x : Int) : Json := .number (Text.formatInt x)

/-- **A marshalled number comes back.** -/
theorem set_intField {σ : Type} {x : Int} (name : String) (put : Int → σ → σ) (s : σ) (hlow : -2 ^ 63 ≤ x)
    (hhigh : x < 2 ^ 63) : (Unmarshal.intField name put).set (int x) s = some (put x s) := by
  simp only [Unmarshal.intField, int, Text.atoi_formatInt hlow hhigh, Option.map_some]

/-- No number is written with a zero in front. -/
theorem head_toDigits {n : ℕ} (h : n ≠ 0) : (Nat.toDigits 10 n).head? ≠ some '0' := by
  induction n using Nat.strong_induction_on with
  | _ n ih =>
    rw [Nat.toDigits_eq_if (by decide)]
    split
    · rename_i hlt
      have hdigit : ∀ n : Fin 10, n.val ≠ 0 → Nat.digitChar n.val ≠ '0' := by decide
      simpa using hdigit ⟨n, hlt⟩ h
    · have hne : (Nat.toDigits 10 (n / 10)).head? ≠ some '0' := ih (n / 10) (by omega) (by omega)
      rwa [List.head?_append_of_ne_nil _ Nat.toDigits_ne_nil]

/-- A whole number is written as JSON has it. -/
theorem readable_int (x : Int) : (int x).Readable := by
  have hdigits : ∀ c ∈ Nat.toDigits 10 x.natAbs, c.isDigit := fun c hc =>
    Nat.isDigit_of_mem_toDigits (by decide) (by decide) hc
  have hunsigned : (if (Text.formatInt x).head? = some '-' then (Text.formatInt x).drop 1 else Text.formatInt x) =
      Nat.toDigits 10 x.natAbs := by
    rw [Text.formatInt]
    split
    · rfl
    · rw [List.nil_append, if_neg]
      intro hhead
      exact absurd (hdigits _ (List.mem_of_mem_head? hhead)) (by decide)
  have htake : (Nat.toDigits 10 x.natAbs).takeWhile Char.isDigit = Nat.toDigits 10 x.natAbs :=
    List.takeWhile_eq_self_iff.mpr hdigits
  have hdrop : (Nat.toDigits 10 x.natAbs).dropWhile Char.isDigit = [] := List.dropWhile_eq_nil_iff.mpr hdigits
  have hzero : (Nat.toDigits 10 x.natAbs).head? = some '0' → (Nat.toDigits 10 x.natAbs).length = 1 := by
    intro hhead
    by_cases h : x.natAbs = 0
    · rw [h, Nat.toDigits_zero]
      rfl
    · exact absurd hhead (head_toDigits h)
  refine ⟨?_, fun c hc => ?_⟩
  · rw [Json.isNumber]
    simp only [hunsigned, htake, hdrop]
    simp only [Json.isExponent, Bool.and_true, decide_eq_true_eq]
    exact ⟨Nat.toDigits_ne_nil, hzero⟩
  · rcases List.mem_append.mp hc with hc | hc
    · split at hc
      · rw [List.mem_singleton.mp hc]
        rfl
      · cases hc
    · simp [Json.isNumeric, hdigits c hc]

/-! ## Times -/

/-- `MarshalJSON` of a time in a zone: its year must have four digits, and its zone two digits of hours. -/
def timeIn (zone : Int) (t : Time) : Option Json :=
  let year := (Time.civil ((t.unixNano / 1000000000 + zone * 60) / 86400)).1
  if zone.natAbs < 1440 ∧ 0 ≤ year ∧ year ≤ 9999 then some (.string (t.rfc3339NanoIn zone)) else none

/-- `MarshalJSON` of a time in UTC. -/
def time (t : Time) : Option Json := timeIn 0 t

theorem isPlain_of_isDigit {c : Char} (h : c.isDigit) : Json.IsPlain c := by
  have hle : 48 ≤ c.toNat := (by simpa [Char.isDigit, UInt32.le_iff_toNat_le] using h : _ ∧ _).1
  refine ⟨?_, ?_, by omega⟩ <;> (rintro rfl; exact absurd h (by decide))

theorem isPlain_mark {c : Char} (h : c ∈ ['-', ':', 'T', 'Z', '.', '+']) : Json.IsPlain c := by
  have hall : ['-', ':', 'T', 'Z', '.', '+'].all (fun c => c ≠ '"' ∧ c ≠ '\\' ∧ 32 ≤ c.toNat) := by decide
  exact List.all_iff_forall_prop.mp hall c h

theorem isPlain_appendInt (x : Int) (width : ℕ) : ∀ c ∈ Time.appendInt x width, Json.IsPlain c := by
  intro c hc
  rw [Time.appendInt, List.append_assoc] at hc
  rcases List.mem_append.mp hc with hc | hc
  · split at hc
    · rw [List.mem_singleton.mp hc]
      exact isPlain_mark (by decide)
    · cases hc
  · exact isPlain_of_isDigit (Time.isDigit_padded _ _ c hc)

theorem isPlain_zoneText (zone : Int) : ∀ c ∈ Time.zoneText zone, Json.IsPlain c := by
  intro c hc
  unfold Time.zoneText at hc
  split at hc
  · rw [List.mem_singleton.mp hc]
    exact isPlain_mark (by decide)
  · rw [List.cons_append, List.mem_cons, List.mem_append, List.mem_cons] at hc
    rcases hc with rfl | hc | rfl | hc
    · split <;> exact isPlain_mark (by decide)
    · exact isPlain_appendInt _ _ c hc
    · exact isPlain_mark (by decide)
    · exact isPlain_appendInt _ _ c hc

theorem isPlain_rfc3339NanoIn (zone : Int) (t : Time) : ∀ c ∈ t.rfc3339NanoIn zone, Json.IsPlain c := by
  have hnumber := isPlain_appendInt
  have htrimmed : ∀ c ∈ ((Time.appendInt (t.unixNano % 1000000000) 9).reverse.dropWhile (· = '0')).reverse,
      Json.IsPlain c := fun c hc =>
    hnumber _ _ c (List.mem_reverse.mp ((List.dropWhile_sublist _).mem (List.mem_reverse.mp hc)))
  have hfraction : ∀ digits : List Char, (∀ c ∈ digits, Json.IsPlain c) →
      ∀ c ∈ (if digits = [] then [] else '.' :: digits), Json.IsPlain c := by
    intro digits hdigits c hc
    split at hc
    · cases hc
    · rcases List.mem_cons.mp hc with rfl | hc
      · exact isPlain_mark (by decide)
      · exact hdigits c hc
  intro c hc
  unfold Time.rfc3339NanoIn Time.stamp at hc
  simp only [List.mem_append, List.mem_cons] at hc
  rcases hc with (((((((hc | rfl | hc) | rfl | hc) | rfl | hc) | rfl | hc) | rfl | hc) | hc) | hc)
  all_goals first
    | exact hnumber _ _ c hc
    | exact hfraction _ htrimmed c hc
    | exact isPlain_zoneText zone c hc
    | exact isPlain_mark (by decide)

theorem isRaw_rfc3339NanoIn (zone : Int) (t : Time) : Json.IsRaw (t.rfc3339NanoIn zone) := by
  have hraw := Json.isRaw_quote (String.ofList (t.rfc3339NanoIn zone))
  rwa [Json.quote_of_plain (by rw [String.toList_ofList]; exact isPlain_rfc3339NanoIn zone t),
    String.toList_ofList] at hraw

/-- **A marshalled time comes back.** -/
theorem set_timeField {σ : Type} {parse : List Char → Option Time} {zone : Int} {t : Time} {value : Json}
    (name : String) (put : Time → σ → σ) (s : σ) (h : timeIn zone t = some value) :
    (Unmarshal.timeField parse name put).set value s = some (put t s) := by
  unfold timeIn at h
  simp only at h
  split at h
  · rename_i hzone
    cases h
    exact Unmarshal.set_timeField name put s (Time.parseRFC3339_rfc3339NanoIn hzone.1 hzone.2.1 hzone.2.2)
  · cases h

theorem readable_timeIn {zone : Int} {t : Time} {value : Json} (h : timeIn zone t = some value) :
    value.Readable := by
  unfold timeIn at h
  simp only at h
  split at h
  · cases h
    exact isRaw_rfc3339NanoIn zone t
  · cases h

end Marshal
