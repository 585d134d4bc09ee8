import Mathlib.Data.Bool.AllAny
import Mathlib.Data.List.Basic
import Mathlib.Data.List.TakeWhile

/-! # XML text

A reader of XML text without CDATA sections, comments and internal subsets: it takes line ends as one, refuses the
characters that XML does not have, and cuts the rest into tags and character data (`read`). Text whose markup is
escaped is read back, tag by tag (`read_render`). -/

namespace Xml

/-! ## Characters -/

/-- A character that XML has. -/
def isChar (c : Char) : Bool := c = '\t' ∨ c = '\n' ∨ c = '\r' ∨ 32 ≤ c.toNat ∧ c.toNat ≠ 0xFFFE ∧ c.toNat ≠ 0xFFFF

/-- Line ends are read as one character. -/
def lineEnds : List Char → List Char
  | '\r' :: '\n' :: s => '\n' :: lineEnds s
  | '\r' :: s => '\n' :: lineEnds s
  | c :: s => c :: lineEnds s
  | [] => []

/-- The five characters that have a name. -/
def escape (c : Char) : List Char :=
  match c with
  | '&' => "&amp;".toList
  | '<' => "&lt;".toList
  | '>' => "&gt;".toList
  | '"' => "&quot;".toList
  | '\'' => "&apos;".toList
  | c => [c]

/-- The value of a hexadecimal digit. -/
def hexValue (c : Char) : Option Nat :=
  if c.isDigit then some (c.toNat - 48)
  else if 'a' ≤ c ∧ c ≤ 'f' then some (c.toNat - 87)
  else if 'A' ≤ c ∧ c ≤ 'F' then some (c.toNat - 55)
  else none

/-- The value of the digits of a number. -/
def number (base : Nat) (digits : List Char) : Option Nat :=
  if digits = [] then none
  else digits.foldlM (fun n c => (hexValue c).bind fun d => if d < base then some (base * n + d) else none) 0

/-- What a reference stands for, without its `&` and `;`. -/
def reference : List Char → Option Char
  | ['a', 'm', 'p'] => some '&'
  | ['l', 't'] => some '<'
  | ['g', 't'] => some '>'
  | ['q', 'u', 'o', 't'] => some '"'
  | ['a', 'p', 'o', 's'] => some '\''
  | '#' :: 'x' :: digits => (number 16 digits).bind fun n => if n.isValidChar then some (.ofNat n) else none
  | '#' :: digits => (number 10 digits).bind fun n => if n.isValidChar then some (.ofNat n) else none
  | _ => none

/-- Character data, after the start of a reference if there is one. -/
def unescapeFrom : Option (List Char) → List Char → Option (List Char)
  | none, [] => some []
  | some _, [] => none
  | none, c :: s => if c = '&' then unescapeFrom (some []) s else (unescapeFrom none s).map (c :: ·)
  | some name, c :: s =>
    if c = ';' then (reference name).bind fun d => (unescapeFrom none s).map (d :: ·)
    else unescapeFrom (some (name ++ [c])) s

/-- Character data. -/
def unescape (s : List Char) : Option (List Char) := unescapeFrom none s

/-! ## Tags -/

/-- What a document is cut into. -/
inductive Event where
  | start (name : List Char)
  | stop (name : List Char)
  | text (s : List Char)
  deriving DecidableEq, Repr

/-- A character of a name. -/
def isNameChar (c : Char) : Bool := c.isAlphanum ∨ c ∈ ['_', ':', '-', '.'] ∨ 128 ≤ c.toNat

/-- The inside of a tag up to its `>`, and what follows. Within quotes there may be anything. -/
def tagEnd : Option Char → List Char → Option (List Char × List Char)
  | _, [] => none
  | none, c :: s =>
    if c = '>' then some ([], s)
    else (tagEnd (if c = '"' ∨ c = '\'' then some c else none) s).map fun (inside, s) => (c :: inside, s)
  | some quote, c :: s =>
    (tagEnd (if c = quote then none else some quote) s).map fun (inside, s) => (c :: inside, s)

/-- What a tag says. Declarations say nothing, and attributes are passed over. -/
def tagEvents : List Char → Option (List Event)
  | '?' :: _ => some []
  | '!' :: _ => some []
  | '/' :: inside =>
    let name := inside.takeWhile isNameChar
    if name ≠ [] ∧ (inside.dropWhile isNameChar).all (·.isWhitespace) then some [.stop name] else none
  | inside =>
    let name := inside.takeWhile isNameChar
    if name = [] then none
    else if inside.getLast? = some '/' then some [.start name, .stop name]
    else some [.start name]

/-- Tags and the character data between them. -/
def events : Nat → List Char → Option (List Event)
  | _, [] => some []
  | 0, _ :: _ => none
  | fuel + 1, c :: s =>
    if c = '<' then do
      let (inside, s) ← tagEnd none s
      let first ← tagEvents inside
      let rest ← events fuel s
      some (first ++ rest)
    else do
      let text ← unescape ((c :: s).takeWhile (· ≠ '<'))
      let rest ← events fuel ((c :: s).dropWhile (· ≠ '<'))
      some (.text text :: rest)

/-- A document. -/
def read (s : List Char) : Option (List Event) :=
  if s.all isChar then events (lineEnds s).length (lineEnds s) else none

/-! ## Writing -/

/-- A tag by what is inside, or character data. -/
inductive Token where
  | tag (inside : List Char)
  | text (s : List Char)
  deriving DecidableEq, Repr

/-- How it is written. -/
def Token.render : Token → List Char
  | .tag inside => '<' :: inside ++ ['>']
  | .text s => s.flatMap escape

/-- How a document is written. -/
def render (tokens : List Token) : List Char := tokens.flatMap (·.render)

/-- What is to be read of it. -/
def Token.events : Token → List Event
  | .tag inside => (tagEvents inside).getD []
  | .text s => [.text s]

/-- The quotes inside a tag are closed, and it does not end within it. -/
def closes : Option Char → List Char → Bool
  | quote, [] => quote.isNone
  | none, c :: s => c ≠ '>' && closes (if c = '"' ∨ c = '\'' then some c else none) s
  | some quote, c :: s => closes (if c = quote then none else some quote) s

/-- Tags that are closed, and character data only between tags. -/
def Lexical : List Token → Prop
  | [] => True
  | .tag inside :: tokens => closes none inside ∧ (tagEvents inside).isSome ∧ Lexical tokens
  | .text s :: tokens => s ≠ [] ∧ (∀ t ∈ tokens.head?, ∃ inside, t = .tag inside) ∧ Lexical tokens

variable {c : Char} {s rest : List Char} {tokens : List Token}

/-! ## What is written is read back -/

theorem unescapeFrom_escape (c : Char) (s : List Char) :
    unescapeFrom none (escape c ++ s) = (unescapeFrom none s).map (c :: ·) := by
  unfold escape
  split
  · rfl
  · rfl
  · rfl
  · rfl
  · rfl
  · rename_i hamp _ _ _ _
    rw [List.singleton_append, unescapeFrom, if_neg hamp]

/-- **Escaped text comes back.** -/
theorem unescape_flatMap (s : List Char) : unescape (s.flatMap escape) = some s := by
  induction s with
  | nil => rfl
  | cons c s ih =>
    unfold unescape at ih ⊢
    rw [List.flatMap_cons, unescapeFrom_escape, ih]
    rfl

/-- No tag starts in escaped text. -/
theorem escape_ne (c : Char) : ∀ d ∈ escape c, d ≠ '<' := by
  have hall : (escape c).all (· ≠ '<') := by
    unfold escape
    split
    · decide
    · decide
    · decide
    · decide
    · decide
    · rename_i _ hlt _ _ _
      have hne : c ≠ '<' := hlt
      rw [List.all_cons, decide_eq_true hne]
      rfl
  exact List.all_iff_forall_prop.mp hall

theorem flatMap_escape_ne (s : List Char) : ∀ d ∈ s.flatMap escape, d ≠ '<' := by
  intro d hd
  obtain ⟨c, -, hd⟩ := List.mem_flatMap.mp hd
  exact escape_ne c d hd

theorem escape_ne_nil (c : Char) : escape c ≠ [] := by
  unfold escape
  split
  · decide
  · decide
  · decide
  · decide
  · decide
  · exact List.cons_ne_nil _ _

theorem tagEnd_of_closes {quote : Option Char} (h : closes quote s) (rest : List Char) :
    tagEnd quote (s ++ '>' :: rest) = some (s, rest) := by
  induction s generalizing quote with
  | nil =>
    rw [closes, Option.isNone_iff_eq_none] at h
    subst h
    rfl
  | cons c s ih =>
    cases quote with
    | none =>
      rw [closes, Bool.and_eq_true, decide_eq_true_eq] at h
      rw [List.cons_append, tagEnd, if_neg h.1, ih h.2]
      rfl
    | some quote =>
      rw [closes] at h
      rw [List.cons_append, tagEnd, ih h]
      rfl

theorem length_render_pos (token : Token) : token.render ≠ [] ∨ token = .text [] := by
  cases token with
  | tag inside => exact .inl (List.cons_ne_nil _ _)
  | text s =>
    cases s with
    | nil => exact .inr rfl
    | cons c s =>
      refine .inl fun h => escape_ne_nil c ?_
      rw [Token.render, List.flatMap_cons] at h
      exact (List.append_eq_nil_iff.mp h).1

/-- **A document is cut as it was written.** -/
theorem events_render (h : Lexical tokens) :
    ∀ fuel, (render tokens).length ≤ fuel → events fuel (render tokens) = some (tokens.flatMap (·.events)) := by
  induction tokens with
  | nil =>
    intro fuel _
    cases fuel <;> rfl
  | cons token tokens ih =>
    intro fuel hfuel
    have hcons : render (token :: tokens) = token.render ++ render tokens := rfl
    rw [hcons, List.length_append] at hfuel
    rw [hcons, List.flatMap_cons]
    cases token with
    | tag inside =>
      obtain ⟨hcloses, hsome, hrest⟩ := h
      obtain ⟨first, hfirst⟩ := Option.isSome_iff_exists.mp hsome
      have htext : (Token.tag inside).render ++ render tokens = '<' :: (inside ++ '>' :: render tokens) := by
        simp [Token.render]
      have hevents : (Token.tag inside).events = first := by rw [Token.events, hfirst, Option.getD_some]
      cases fuel with
      | zero => simp [Token.render] at hfuel
      | succ fuel =>
        have hlen : (render tokens).length ≤ fuel := by
          simp only [Token.render, List.length_append, List.length_cons] at hfuel
          omega
        rw [htext, events, if_pos rfl, tagEnd_of_closes hcloses, hevents]
        simp only [Option.bind_eq_bind, Option.bind_some, hfirst, ih hrest fuel hlen]
    | text s =>
      obtain ⟨hne, hhead, hrest⟩ := h
      have hstop : (render tokens).takeWhile (· ≠ '<') = [] ∧ (render tokens).dropWhile (· ≠ '<') = render tokens := by
        cases tokens with
        | nil => exact ⟨rfl, rfl⟩
        | cons token tokens =>
          obtain ⟨inside, rfl⟩ := hhead token rfl
          exact ⟨rfl, rfl⟩
      have hplain : ∀ d ∈ s.flatMap escape, decide (d ≠ '<') = true := fun d hd =>
        decide_eq_true (flatMap_escape_ne s d hd)
      have htake : (s.flatMap escape ++ render tokens).takeWhile (· ≠ '<') = s.flatMap escape := by
        rw [List.takeWhile_append_of_pos hplain, hstop.1, List.append_nil]
      have hdrop : (s.flatMap escape ++ render tokens).dropWhile (· ≠ '<') = render tokens := by
        rw [List.dropWhile_append_of_pos hplain, hstop.2]
      have hsome : (Token.text s).render ≠ [] := (length_render_pos _).resolve_right fun h => hne (Token.text.inj h)
      obtain ⟨d, letters, heq⟩ := List.exists_cons_of_ne_nil hsome
      rw [Token.render] at heq
      have hd : d ≠ '<' := flatMap_escape_ne s d (heq ▸ List.mem_cons_self)
      cases fuel with
      | zero => simp [Token.render, heq] at hfuel
      | succ fuel =>
        have hlen : (render tokens).length ≤ fuel := by
          rw [Token.render, heq, List.length_cons] at hfuel
          omega
        rw [Token.render]
        rw [heq, List.cons_append] at htake hdrop ⊢
        rw [events, if_neg hd, htake, hdrop, ← heq, unescape_flatMap]
        simp only [Option.bind_eq_bind, Option.bind_some, ih hrest fuel hlen]
        rfl

theorem lineEnds_of_plain (h : '\r' ∉ s) : lineEnds s = s := by
  induction s with
  | nil => rfl
  | cons c s ih =>
    have hc : c ≠ '\r' := fun heq => h (heq ▸ List.mem_cons_self)
    have hs := ih fun hmem => h (List.mem_cons_of_mem c hmem)
    unfold lineEnds
    split
    · rename_i heq
      exact absurd (List.cons.inj heq).1 hc
    · rename_i heq
      exact absurd (List.cons.inj heq).1 hc
    · rename_i heq
      obtain ⟨rfl, rfl⟩ := List.cons.inj heq
      rw [hs]
    · rename_i heq
      cases heq

/-- Text that is the same in every XML document. -/
def IsText (s : List Char) : Prop := ∀ c ∈ s, isChar c ∧ c ≠ '\r'

instance : DecidablePred IsText := fun s => List.decidableBAll (fun c => isChar c ∧ c ≠ '\r') s

theorem isText_escape (h : isChar c ∧ c ≠ '\r') : IsText (escape c) := by
  unfold escape
  split
  · decide
  · decide
  · decide
  · decide
  · decide
  · intro d hd
    rw [List.mem_singleton.mp hd]
    exact h

/-- The characters of a token are. -/
def Token.IsText : Token → Prop
  | .tag inside => Xml.IsText inside
  | .text s => Xml.IsText s

theorem isText_render (h : ∀ token ∈ tokens, token.IsText) : IsText (render tokens) := by
  intro c hc
  obtain ⟨token, htoken, hc⟩ := List.mem_flatMap.mp hc
  have htext := h token htoken
  cases token with
  | tag inside =>
    have hbrackets : IsText ['<'] ∧ IsText ['>'] := by decide
    rcases List.mem_append.mp hc with hc | hc
    · rcases List.mem_cons.mp hc with rfl | hc
      · exact hbrackets.1 _ List.mem_cons_self
      · exact htext c hc
    · exact hbrackets.2 c hc
  | text s =>
    obtain ⟨d, hd, hc⟩ := List.mem_flatMap.mp hc
    exact isText_escape (htext d hd) c hc

/-- **A document is read as it was written.** -/
theorem read_render (h : Lexical tokens) (htext : ∀ token ∈ tokens, token.IsText) :
    read (render tokens) = some (tokens.flatMap (·.events)) := by
  have hall := isText_render htext
  rw [read, if_pos (List.all_eq_true.mpr fun c hc => (hall c hc).1),
    lineEnds_of_plain fun hmem => (hall _ hmem).2 rfl, events_render h _ le_rfl]

end Xml
