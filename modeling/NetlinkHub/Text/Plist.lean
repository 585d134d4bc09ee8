import NetlinkHub.Go.Text
import NetlinkHub.Text.Xml

/-! # XML property lists

Property lists of texts, natural numbers, truth values, arrays and dictionaries, read from XML with a stack of open
elements. What is written with two spaces a level is read back (`read_write`). -/

/-- A property list. -/
inductive Plist where
  | string (s : List Char)
  | integer (n : ℕ)
  | bool (b : Bool)
  | array (items : List Plist)
  | dict (entries : List (List Char × Plist))

namespace Plist

open Xml (Event IsText Lexical Token)

/-! ## Reading -/

/-- The elements. -/
inductive Element where
  | plist
  | dict
  | array
  | key
  | string
  | integer
  | true
  | false
  deriving DecidableEq, Repr

/-- Their names. -/
def Element.name : Element → List Char
  | plist => ['p', 'l', 'i', 's', 't']
  | dict => ['d', 'i', 'c', 't']
  | array => ['a', 'r', 'r', 'a', 'y']
  | key => ['k', 'e', 'y']
  | string => ['s', 't', 'r', 'i', 'n', 'g']
  | integer => ['i', 'n', 't', 'e', 'g', 'e', 'r']
  | true => ['t', 'r', 'u', 'e']
  | false => ['f', 'a', 'l', 's', 'e']

/-- The element of a name. -/
def Element.ofName (name : List Char) : Option Element :=
  [plist, dict, array, key, string, integer, true, false].find? (·.name = name)

/-- An open element with what it has so far. The root is around the `plist` element. -/
inductive Frame where
  | root (value : Option Plist)
  | plist (value : Option Plist)
  | array (items : List Plist)
  | dict (entries : List (List Char × Plist)) (key : Option (List Char))
  | text (element : Element) (s : List Char)

/-- An element that has just been opened. -/
def Frame.opened : Element → Frame
  | .plist => .plist none
  | .dict => .dict [] none
  | .array => .array []
  | element => .text element []

/-- The name of the element. -/
def Frame.name : Frame → List Char
  | .root _ => []
  | .plist _ => Element.plist.name
  | .array _ => Element.array.name
  | .dict _ _ => Element.dict.name
  | .text element _ => element.name

/-- Whether an element may stand here. -/
def Frame.takes : Frame → Element → Bool
  | .root none, .plist => true
  | .dict _ none, .key => true
  | .plist none, element => element ≠ .plist ∧ element ≠ .key
  | .array _, element => element ≠ .plist ∧ element ≠ .key
  | .dict _ (some _), element => element ≠ .plist ∧ element ≠ .key
  | _, _ => false

/-- What a closed element stands for. -/
def Frame.value : Frame → Option Plist
  | .array items => some (.array items)
  | .dict entries none => some (.dict entries)
  | .text .string s => some (.string s)
  | .text .integer s => (Text.digits s).map .integer
  | .text .true [] => some (.bool true)
  | .text .false [] => some (.bool false)
  | _ => none

/-- A value is put where it stands. -/
def Frame.put (value : Plist) : Frame → Option Frame
  | .plist none => some (.plist (some value))
  | .array items => some (.array (items ++ [value]))
  | .dict entries (some key) => some (.dict (entries ++ [(key, value)]) none)
  | _ => none

/-- The innermost element ends. -/
def close : List Frame → Option (List Frame)
  | [.plist (some value), .root none] => some [.root (some value)]
  | .text .key s :: .dict entries none :: stack => some (.dict entries (some s) :: stack)
  | frame :: outer :: stack => frame.value.bind fun value => (outer.put value).map (· :: stack)
  | _ => none

/-- One event. -/
def step : List Frame → Event → Option (List Frame)
  | .text element t :: stack, .text s => some (.text element (t ++ s) :: stack)
  | stack, .text s => if s.all (·.isWhitespace) then some stack else none
  | frame :: stack, .start name =>
    (Element.ofName name).bind fun element =>
      if frame.takes element then some (.opened element :: frame :: stack) else none
  | frame :: stack, .stop name => if frame.name = name then close (frame :: stack) else none
  | [], _ => none

/-- A text as a property list. -/
def read (s : List Char) : Option Plist := do
  let events ← Xml.read s
  match ← events.foldlM step [.root none] with
  | [.root (some value)] => some value
  | _ => none

/-! ## Writing -/

/-- The start of a line. -/
def line (level : ℕ) : Token := .text ('\n' :: List.replicate (2 * level) ' ')

/-- An element with text. -/
def leaf (element : Element) (s : List Char) : List Token :=
  .tag element.name :: (if s = [] then [] else [.text s]) ++ [.tag ('/' :: element.name)]

mutual

/-- A property list, two spaces a level. -/
def tokens (level : ℕ) : Plist → List Token
  | .string s => leaf .string s
  | .integer n => leaf .integer (Nat.toDigits 10 n)
  | .bool b => [.tag ((if b then Element.true.name else Element.false.name) ++ ['/'])]
  | .array items =>
    .tag Element.array.name :: (itemTokens (level + 1) items ++ [line level, .tag ('/' :: Element.array.name)])
  | .dict entries =>
    .tag Element.dict.name :: (entryTokens (level + 1) entries ++ [line level, .tag ('/' :: Element.dict.name)])

def itemTokens (level : ℕ) : List Plist → List Token
  | [] => []
  | item :: items => line level :: (tokens level item ++ itemTokens level items)

def entryTokens (level : ℕ) : List (List Char × Plist) → List Token
  | [] => []
  | (key, value) :: entries =>
    line level :: (leaf .key key ++ line level :: (tokens level value ++ entryTokens level entries))

end

/-- The document type. -/
def doctype : List Char :=
  "!DOCTYPE plist PUBLIC \"-//Apple//DTD PLIST 1.0//EN\" \"http://www.apple.com/DTDs/PropertyList-1.0.dtd\"".toList

/-- What stands before the property list. -/
def prologue : List Token :=
  [.tag "?xml version=\"1.0\" encoding=\"UTF-8\"?".toList, line 0, .tag doctype, line 0,
    .tag "plist version=\"1.0\"".toList, line 0]

/-- What stands after it. -/
def epilogue : List Token := [line 0, .tag ('/' :: Element.plist.name), line 0]

/-- A whole document. -/
def document (value : Plist) : List Token := prologue ++ (tokens 0 value ++ epilogue)

/-- Its text. -/
def write (value : Plist) : List Char := Xml.render (document value)

mutual

/-- All texts are the same in every XML document. -/
def Plain : Plist → Prop
  | .string s => IsText s
  | .integer _ => True
  | .bool _ => True
  | .array items => PlainItems items
  | .dict entries => PlainEntries entries

def PlainItems : List Plist → Prop
  | [] => True
  | item :: items => Plain item ∧ PlainItems items

def PlainEntries : List (List Char × Plist) → Prop
  | [] => True
  | (key, value) :: entries => IsText key ∧ Plain value ∧ PlainEntries entries

end

variable {s : List Char} {v : Plist} {frame : Frame} {element : Element} {stack : List Frame} {rest : List Token}

/-! ## The tokens of a property list -/

theorem closes_name (element : Element) : Xml.closes none element.name ∧
    Xml.closes none ('/' :: element.name) ∧ Xml.closes none (element.name ++ ['/']) := by
  cases element <;> decide

theorem tagEvents_name (element : Element) : Xml.tagEvents element.name = some [.start element.name] ∧
    Xml.tagEvents ('/' :: element.name) = some [.stop element.name] ∧
    Xml.tagEvents (element.name ++ ['/']) = some [.start element.name, .stop element.name] := by
  cases element <;> decide

theorem isText_name (element : Element) : IsText element.name := by cases element <;> decide

@[simp] theorem ofName_name (element : Element) : Element.ofName element.name = some element := by
  cases element <;> decide

/-- Tokens from a tag to a tag can stand before anything. -/
def Closed (first : List Token) : Prop := ∀ rest, Lexical rest →
  Lexical (first ++ rest) ∧ ∀ t ∈ (first ++ rest).head?, ∃ inside, t = .tag inside

/-- A tag is the first token. -/
theorem head_tag {inside : List Char} {rest : List Token} :
    ∀ t ∈ (Token.tag inside :: rest).head?, ∃ inside, t = .tag inside :=
  fun _ ht => ⟨_, (Option.some.inj ht).symm⟩

theorem lexical_line (level : ℕ) (h : Lexical rest ∧ ∀ t ∈ rest.head?, ∃ inside, t = .tag inside) :
    Lexical (line level :: rest) := ⟨List.cons_ne_nil _ _, h.2, h.1⟩

theorem lexical_start (element : Element) (h : Lexical rest) : Lexical (.tag element.name :: rest) :=
  ⟨(closes_name element).1, by rw [(tagEvents_name element).1]; rfl, h⟩

theorem lexical_stop (element : Element) (h : Lexical rest) : Lexical (.tag ('/' :: element.name) :: rest) :=
  ⟨(closes_name element).2.1, by rw [(tagEvents_name element).2.1]; rfl, h⟩

theorem lexical_empty (element : Element) (h : Lexical rest) : Lexical (.tag (element.name ++ ['/']) :: rest) :=
  ⟨(closes_name element).2.2, by rw [(tagEvents_name element).2.2]; rfl, h⟩

theorem closed_leaf (element : Element) (s : List Char) : Closed (leaf element s) := by
  intro rest h
  have hmiddle : Lexical ((if s = [] then [] else [.text s]) ++ .tag ('/' :: element.name) :: rest) := by
    split
    · exact lexical_stop element h
    · rename_i hne
      exact ⟨hne, head_tag, lexical_stop element h⟩
  rw [leaf, List.append_assoc, List.singleton_append]
  exact ⟨lexical_start element hmiddle, head_tag⟩

mutual

theorem closed_tokens : ∀ (v : Plist) (level : ℕ), Closed (tokens level v)
  | .string s, level => by
    rw [tokens]
    exact closed_leaf _ s
  | .integer n, level => by
    rw [tokens]
    exact closed_leaf _ _
  | .bool b, level => by
    intro rest h
    rw [tokens, List.singleton_append]
    cases b
    · exact ⟨lexical_empty .false h, head_tag⟩
    · exact ⟨lexical_empty .true h, head_tag⟩
  | .array items, level => by
    intro rest h
    have hstop := lexical_line level ⟨lexical_stop .array h, head_tag⟩
    rw [tokens, List.cons_append, List.append_assoc]
    exact ⟨lexical_start .array (lexical_itemTokens items (level + 1) _ hstop), head_tag⟩
  | .dict entries, level => by
    intro rest h
    have hstop := lexical_line level ⟨lexical_stop .dict h, head_tag⟩
    rw [tokens, List.cons_append, List.append_assoc]
    exact ⟨lexical_start .dict (lexical_entryTokens entries (level + 1) _ hstop), head_tag⟩

theorem lexical_itemTokens : ∀ (items : List Plist) (level : ℕ) (rest : List Token), Lexical rest →
    Lexical (itemTokens level items ++ rest)
  | [], level, rest, h => by
    rw [itemTokens]
    exact h
  | item :: items, level, rest, h => by
    rw [itemTokens, List.cons_append, List.append_assoc]
    exact lexical_line level (closed_tokens item level _ (lexical_itemTokens items level rest h))

theorem lexical_entryTokens : ∀ (entries : List (List Char × Plist)) (level : ℕ) (rest : List Token), Lexical rest →
    Lexical (entryTokens level entries ++ rest)
  | [], level, rest, h => by
    rw [entryTokens]
    exact h
  | (key, value) :: entries, level, rest, h => by
    have hvalue := lexical_line level (closed_tokens value level _ (lexical_entryTokens entries level rest h))
    rw [entryTokens, List.cons_append, List.append_assoc, List.cons_append, List.append_assoc]
    exact lexical_line level (closed_leaf .key key _ hvalue)

end

theorem isText_line (level : ℕ) : (line level).IsText := by
  intro c hc
  rcases List.mem_cons.mp hc with rfl | hc
  · decide
  · rw [(List.mem_replicate.mp hc).2]
    decide

theorem isText_stop (element : Element) : IsText ('/' :: element.name) ∧ IsText (element.name ++ ['/']) := by
  cases element <;> decide

theorem isText_leaf (element : Element) (h : IsText s) : ∀ token ∈ leaf element s, token.IsText := by
  intro token htoken
  rcases List.mem_append.mp htoken with htoken | htoken
  · rcases List.mem_cons.mp htoken with rfl | htoken
    · exact isText_name element
    · split at htoken
      · cases htoken
      · rw [List.mem_singleton.mp htoken]
        exact h
  · rw [List.mem_singleton.mp htoken]
    exact (isText_stop element).1

theorem isText_toDigits (n : ℕ) : IsText (Nat.toDigits 10 n) := by
  intro c hc
  have hdigit := Nat.isDigit_of_mem_toDigits (by decide) le_rfl hc
  have hlow : 48 ≤ c.toNat ∧ c.toNat ≤ 57 := by
    rw [Char.isDigit, Bool.and_eq_true, decide_eq_true_eq, decide_eq_true_eq] at hdigit
    exact hdigit
  refine ⟨decide_eq_true (.inr (.inr (.inr ⟨by omega, by omega, by omega⟩))), ?_⟩
  rintro rfl
  exact absurd hdigit (by decide)

mutual

theorem isText_tokens : ∀ (v : Plist) (level : ℕ), Plain v → ∀ token ∈ tokens level v, token.IsText
  | .string s, level, h => by
    rw [tokens]
    exact isText_leaf _ h
  | .integer n, level, _ => by
    rw [tokens]
    exact isText_leaf _ (isText_toDigits n)
  | .bool b, level, _ => by
    rw [tokens]
    intro token htoken
    rw [List.mem_singleton.mp htoken]
    cases b
    · exact (isText_stop .false).2
    · exact (isText_stop .true).2
  | .array items, level, h => by
    rw [tokens]
    intro token htoken
    rcases List.mem_cons.mp htoken with rfl | htoken
    · exact isText_name .array
    rcases List.mem_append.mp htoken with htoken | htoken
    · exact isText_itemTokens items (level + 1) h token htoken
    rcases List.mem_cons.mp htoken with rfl | htoken
    · exact isText_line level
    · rw [List.mem_singleton.mp htoken]
      exact (isText_stop .array).1
  | .dict entries, level, h => by
    rw [tokens]
    intro token htoken
    rcases List.mem_cons.mp htoken with rfl | htoken
    · exact isText_name .dict
    rcases List.mem_append.mp htoken with htoken | htoken
    · exact isText_entryTokens entries (level + 1) h token htoken
    rcases List.mem_cons.mp htoken with rfl | htoken
    · exact isText_line level
    · rw [List.mem_singleton.mp htoken]
      exact (isText_stop .dict).1

theorem isText_itemTokens : ∀ (items : List Plist) (level : ℕ), PlainItems items →
    ∀ token ∈ itemTokens level items, token.IsText
  | [], level, _ => by
    rw [itemTokens]
    exact fun _ h => absurd h List.not_mem_nil
  | item :: items, level, h => by
    rw [itemTokens]
    intro token htoken
    rcases List.mem_cons.mp htoken with rfl | htoken
    · exact isText_line level
    rcases List.mem_append.mp htoken with htoken | htoken
    · exact isText_tokens item level h.1 token htoken
    · exact isText_itemTokens items level h.2 token htoken

theorem isText_entryTokens : ∀ (entries : List (List Char × Plist)) (level : ℕ), PlainEntries entries →
    ∀ token ∈ entryTokens level entries, token.IsText
  | [], level, _ => by
    rw [entryTokens]
    exact fun _ h => absurd h List.not_mem_nil
  | (key, value) :: entries, level, h => by
    rw [entryTokens]
    intro token htoken
    rcases List.mem_cons.mp htoken with rfl | htoken
    · exact isText_line level
    rcases List.mem_append.mp htoken with htoken | htoken
    · exact isText_leaf .key h.1 token htoken
    rcases List.mem_cons.mp htoken with rfl | htoken
    · exact isText_line level
    rcases List.mem_append.mp htoken with htoken | htoken
    · exact isText_tokens value level h.2.1 token htoken
    · exact isText_entryTokens entries level h.2.2 token htoken

end

/-! ## What is written is read back -/

/-- Events one after the other. -/
abbrev run (stack : List Frame) (tokens : List Token) : Option (List Frame) :=
  (tokens.flatMap (·.events)).foldlM step stack

theorem run_append (stack : List Frame) (first rest : List Token) :
    run stack (first ++ rest) = (run stack first).bind (run · rest) := by
  rw [run, List.flatMap_append, List.foldlM_append]
  rfl

theorem run_cons (stack : List Frame) (token : Token) (rest : List Token) :
    run stack (token :: rest) = (run stack [token]).bind (run · rest) := run_append stack [token] rest

/-- A frame in which a value is missing takes every value. -/
theorem takes_of_put {frame' : Frame} (h : frame.put v = some frame') {element : Element}
    (hplist : element ≠ .plist) (hkey : element ≠ .key) : frame.takes element := by
  have helement := decide_eq_true (And.intro hplist hkey)
  match frame, h with
  | .plist none, _ => exact helement
  | .array _, _ => exact helement
  | .dict _ (some _), _ => exact helement

theorem run_line (h : ∀ element t, frame ≠ .text element t) (level : ℕ) :
    run (frame :: stack) [line level] = some (frame :: stack) := by
  have hblank : ('\n' :: List.replicate (2 * level) ' ').all (·.isWhitespace) := by simp
  have hstep : step (frame :: stack) (.text ('\n' :: List.replicate (2 * level) ' ')) =
      if ('\n' :: List.replicate (2 * level) ' ').all (·.isWhitespace) then some (frame :: stack) else none := by
    cases frame with
    | text element t => exact absurd rfl (h element t)
    | _ => rfl
  rw [if_pos hblank] at hstep
  simp only [run, line, List.flatMap_singleton, Token.events, List.foldlM_cons, hstep]
  rfl

theorem step_start (element : Element) (h : frame.takes element) :
    step (frame :: stack) (.start element.name) = some (.opened element :: frame :: stack) := by
  have hstep : step (frame :: stack) (.start element.name) = (Element.ofName element.name).bind fun element =>
      if frame.takes element then some (.opened element :: frame :: stack) else none := by
    cases frame <;> rfl
  rw [hstep, ofName_name, Option.bind_some, if_pos h]

theorem step_stop (frame : Frame) (stack : List Frame) :
    step (frame :: stack) (.stop frame.name) = close (frame :: stack) := by
  have hstep : step (frame :: stack) (.stop frame.name) =
      if frame.name = frame.name then close (frame :: stack) else none := by
    cases frame <;> rfl
  rw [hstep, if_pos rfl]

theorem run_start (element : Element) (h : frame.takes element) :
    run (frame :: stack) [.tag element.name] = some (.opened element :: frame :: stack) := by
  simp only [run, List.flatMap_singleton, Token.events, (tagEvents_name element).1, Option.getD_some, List.foldlM_cons,
    step_start element h]
  rfl

theorem run_stop (h : frame.name = element.name) :
    run (frame :: stack) [.tag ('/' :: element.name)] = close (frame :: stack) := by
  have hstop : step (frame :: stack) (.stop element.name) = close (frame :: stack) := h ▸ step_stop frame stack
  simp only [run, List.flatMap_singleton, Token.events, (tagEvents_name element).2.1, Option.getD_some,
    List.foldlM_cons, hstop]
  cases close (frame :: stack) <;> rfl

/-- The text of an element is what is between its tags. -/
theorem run_leaf (htakes : frame.takes element) (hopened : Frame.opened element = .text element []) (s : List Char) :
    run (frame :: stack) (leaf element s) = close (.text element s :: frame :: stack) := by
  have hmiddle : run (.text element [] :: frame :: stack) (if s = [] then [] else [.text s]) =
      some (.text element s :: frame :: stack) := by
    split
    · rename_i heq
      rw [heq]
      rfl
    · rfl
  rw [leaf, run_append, run_cons, run_start element htakes, hopened, Option.bind_some, hmiddle, Option.bind_some,
    run_stop rfl]

mutual

/-- A property list is put where it stands. -/
theorem run_tokens : ∀ (v : Plist) (level : ℕ) {frame frame' : Frame} (stack : List Frame), frame.put v = some frame' →
    run (frame :: stack) (tokens level v) = some (frame' :: stack)
  | .string s, level, frame, frame', stack, h => by
    have hclose : close (.text .string s :: frame :: stack) = (frame.put (.string s)).map (· :: stack) := rfl
    rw [tokens, run_leaf (takes_of_put h (by decide) (by decide)) rfl, hclose, h, Option.map_some]
  | .integer n, level, frame, frame', stack, h => by
    have hclose : close (.text .integer (Nat.toDigits 10 n) :: frame :: stack) =
        ((Text.digits (Nat.toDigits 10 n)).map Plist.integer).bind fun v => (frame.put v).map (· :: stack) := rfl
    rw [tokens, run_leaf (takes_of_put h (by decide) (by decide)) rfl, hclose, Text.digits_toDigits, Option.map_some,
      Option.bind_some, h, Option.map_some]
  | .bool b, level, frame, frame', stack, h => by
    have hevents (element : Element) : (Token.tag (element.name ++ ['/'])).events =
        [.start element.name, .stop element.name] := by
      rw [Token.events, (tagEvents_name element).2.2, Option.getD_some]
    cases b with
    | false =>
      have hclose : close (.text .false [] :: frame :: stack) = (frame.put (.bool false)).map (· :: stack) := rfl
      have hstop : step (.text .false [] :: frame :: stack) (.stop Element.false.name) = _ := step_stop _ _
      rw [tokens]
      simp only [run, Bool.false_eq_true, if_false, List.flatMap_singleton, hevents, List.foldlM_cons,
        step_start .false (takes_of_put h (by decide) (by decide)), Frame.opened, Option.bind_eq_bind, Option.bind_some,
        hstop, hclose, h, Option.map_some]
      rfl
    | true =>
      have hclose : close (.text .true [] :: frame :: stack) = (frame.put (.bool true)).map (· :: stack) := rfl
      have hstop : step (.text .true [] :: frame :: stack) (.stop Element.true.name) = _ := step_stop _ _
      rw [tokens]
      simp only [run, if_true, List.flatMap_singleton, hevents, List.foldlM_cons,
        step_start .true (takes_of_put h (by decide) (by decide)), Frame.opened, Option.bind_eq_bind, Option.bind_some,
        hstop, hclose, h, Option.map_some]
      rfl
  | .array items, level, frame, frame', stack, h => by
    have hclose : close (.array items :: frame :: stack) = (frame.put (.array items)).map (· :: stack) := rfl
    rw [tokens, run_cons, run_start .array (takes_of_put h (by decide) (by decide)), Option.bind_some, run_append,
      Frame.opened, run_itemTokens items, List.nil_append, Option.bind_some, run_cons, run_line (by simp),
      Option.bind_some, run_stop rfl, hclose, h, Option.map_some]
  | .dict entries, level, frame, frame', stack, h => by
    have hclose : close (.dict entries none :: frame :: stack) = (frame.put (.dict entries)).map (· :: stack) := rfl
    rw [tokens, run_cons, run_start .dict (takes_of_put h (by decide) (by decide)), Option.bind_some, run_append,
      Frame.opened, run_entryTokens entries, List.nil_append, Option.bind_some, run_cons, run_line (by simp),
      Option.bind_some, run_stop rfl, hclose, h, Option.map_some]

theorem run_itemTokens : ∀ (items : List Plist) (level : ℕ) (done : List Plist) (stack : List Frame),
    run (.array done :: stack) (itemTokens level items) = some (.array (done ++ items) :: stack)
  | [], level, done, stack => by
    rw [itemTokens, List.append_nil]
    rfl
  | item :: items, level, done, stack => by
    rw [itemTokens, run_cons, run_line (by simp), Option.bind_some, run_append, run_tokens item level stack rfl,
      Option.bind_some, run_itemTokens items, List.append_assoc, List.singleton_append]

theorem run_entryTokens : ∀ (entries : List (List Char × Plist)) (level : ℕ) (done : List (List Char × Plist))
    (stack : List Frame), run (.dict done none :: stack) (entryTokens level entries) =
      some (.dict (done ++ entries) none :: stack)
  | [], level, done, stack => by
    rw [entryTokens, List.append_nil]
    rfl
  | (key, value) :: entries, level, done, stack => by
    have hclose : close (.text .key key :: .dict done none :: stack) = some (.dict done (some key) :: stack) := rfl
    rw [entryTokens, run_cons, run_line (by simp), Option.bind_some, run_append, run_leaf rfl rfl, hclose,
      Option.bind_some, run_cons, run_line (by simp), Option.bind_some, run_append, run_tokens value level stack rfl,
      Option.bind_some, run_entryTokens entries, List.append_assoc, List.singleton_append]

end

theorem lexical_document (v : Plist) : Lexical (document v) := by
  have hend : Lexical epilogue := lexical_line 0 ⟨lexical_stop .plist (lexical_line 0 ⟨trivial, nofun⟩), head_tag⟩
  have hvalue := lexical_line 0 (closed_tokens v 0 _ hend)
  exact ⟨by decide, by decide, lexical_line 0 ⟨⟨by decide, by decide, lexical_line 0
    ⟨⟨by decide, by decide, hvalue⟩, head_tag⟩⟩, head_tag⟩⟩

theorem isText_prologue : ∀ token ∈ prologue, token.IsText := by
  have htags : IsText "?xml version=\"1.0\" encoding=\"UTF-8\"?".toList ∧ IsText doctype ∧
      IsText "plist version=\"1.0\"".toList := by decide
  simp only [prologue, List.forall_mem_cons]
  exact ⟨htags.1, isText_line 0, htags.2.1, isText_line 0, htags.2.2, isText_line 0, nofun⟩

theorem isText_epilogue : ∀ token ∈ epilogue, token.IsText := by
  simp only [epilogue, List.forall_mem_cons]
  exact ⟨isText_line 0, (isText_stop .plist).1, isText_line 0, nofun⟩

theorem isText_document (h : Plain v) : ∀ token ∈ document v, token.IsText := by
  intro token htoken
  rcases List.mem_append.mp htoken with htoken | htoken
  · exact isText_prologue token htoken
  rcases List.mem_append.mp htoken with htoken | htoken
  · exact isText_tokens v 0 h token htoken
  · exact isText_epilogue token htoken

/-- **A property list is read as it was written.** -/
theorem read_write (h : Plain v) : read (write v) = some v := by
  have hprologue : run [.root none] prologue = some [.plist none, .root none] := rfl
  have hepilogue : run [.plist (some v), .root none] epilogue = some [.root (some v)] := rfl
  have hrun : run [.root none] (document v) = some [.root (some v)] := by
    rw [document, run_append, hprologue, Option.bind_some, run_append, run_tokens v 0 _ rfl, Option.bind_some,
      hepilogue]
  rw [read, write, Xml.read_render (lexical_document v) (isText_document h)]
  simp only [Option.bind_eq_bind, Option.bind_some, hrun]

/-! ## The written text -/

theorem render_append (first rest : List Token) : Xml.render (first ++ rest) = Xml.render first ++ Xml.render rest :=
  List.flatMap_append

theorem render_tag (inside : List Char) (rest : List Token) :
    Xml.render (.tag inside :: rest) = '<' :: (inside ++ '>' :: Xml.render rest) := by
  simp [Xml.render, Token.render]

theorem render_leaf (element : Element) (s : List Char) : Xml.render (leaf element s) =
    '<' :: (element.name ++ '>' :: (s.flatMap Xml.escape ++ '<' :: '/' :: (element.name ++ ['>']))) := by
  unfold leaf
  split
  · rename_i heq
    rw [heq]
    simp [Xml.render, Token.render]
  · simp [Xml.render, Token.render]

theorem render_line (level : ℕ) (rest : List Token) :
    Xml.render (line level :: rest) = '\n' :: (List.replicate (2 * level) ' ' ++ Xml.render rest) := by
  have hreplicate (n : ℕ) : (List.replicate n ' ').flatMap Xml.escape = List.replicate n ' ' := by
    induction n with
    | zero => rfl
    | succ n ih =>
      rw [List.replicate_succ, List.flatMap_cons, ih]
      rfl
  have hcons : Xml.render (line level :: rest) =
      '\n' :: (List.replicate (2 * level) ' ').flatMap Xml.escape ++ Xml.render rest := rfl
  rw [hcons, hreplicate, List.cons_append]

end Plist
