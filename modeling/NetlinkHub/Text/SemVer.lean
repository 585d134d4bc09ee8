import Mathlib.Data.Char
import Mathlib.Data.List.Lex
import Mathlib.Data.Prod.Lex
import Mathlib.Data.Sum.Order
import Mathlib.Order.WithBot

/-! # Semantic versions

Versions as Semantic Versioning 2.0.0 has them: three numbers, the identifiers of a pre-release, and build
metadata. A version can only be built from well-formed parts. Precedence is the order of a rank in which
build metadata does not occur (`Version.rank`). -/

namespace SemVer

/-- A letter of an identifier: ASCII letters, digits and the hyphen. -/
def isLetter (c : Char) : Bool := c.isAlphanum || c = '-'

/-- An identifier of a pre-release. Numbers are written without leading zeros; what is not a number has a
letter that is no digit. -/
inductive Identifier where
  | numeric (n : ℕ)
  | alphanumeric (text : List Char) (letters : ∀ c ∈ text, isLetter c)
      (word : ∃ c ∈ text, c.isDigit = false)

/-- An identifier of build metadata. -/
structure BuildIdentifier where
  text : List Char
  letters : ∀ c ∈ text, isLetter c
  some : text ≠ []

/-- A version. -/
structure Version where
  major : ℕ
  minor : ℕ
  patch : ℕ
  pre : List Identifier
  build : List BuildIdentifier

/-! ## Text -/

/-- How a number is written. -/
def digits (n : ℕ) : List Char := Nat.toDigits 10 n

/-- How an identifier is written. -/
def Identifier.text : Identifier → List Char
  | .numeric n => digits n
  | .alphanumeric text _ _ => text

/-- Parts with dots between them. -/
def dotted (parts : List (List Char)) : List Char := ['.'].intercalate parts

/-- The three numbers of a version. -/
def Version.core (v : Version) : List Char := dotted [digits v.major, digits v.minor, digits v.patch]

/-- The pre-release of a version. -/
def Version.preText (v : Version) : List Char := dotted (v.pre.map Identifier.text)

/-- The build metadata of a version. -/
def Version.buildText (v : Version) : List Char := dotted (v.build.map BuildIdentifier.text)

/-- What stands behind the numbers, with the sign in front. -/
def Version.rest (v : Version) : List Char :=
  (if v.pre = [] then [] else '-' :: v.preText) ++ if v.build = [] then [] else '+' :: v.buildText

/-- How a version is written. -/
def Version.text (v : Version) : String := String.ofList (v.core ++ v.rest)

/-! ## Precedence -/

/-- Numbers come before words; numbers are compared as numbers, and words letter by letter. -/
def Identifier.rank : Identifier → ℕ ⊕ₗ List Char
  | .numeric n => toLex (.inl n)
  | .alphanumeric text _ _ => toLex (.inr text)

/-- The numbers of a version, the first one deciding first. -/
def Version.numbers (v : Version) : ℕ ×ₗ ℕ ×ₗ ℕ := toLex (v.major, toLex (v.minor, v.patch))

/-- The place of a pre-release before its release: identifier by identifier, a longer list after the lists
it continues. -/
def Version.preRank (v : Version) : WithTop (List (ℕ ⊕ₗ List Char)) :=
  if v.pre = [] then ⊤ else (v.pre.map Identifier.rank : List (ℕ ⊕ₗ List Char))

/-- The rank of a version. -/
def Version.rank (v : Version) : (ℕ ×ₗ ℕ ×ₗ ℕ) ×ₗ WithTop (List (ℕ ⊕ₗ List Char)) :=
  toLex (v.numbers, v.preRank)

/-- A version has lower precedence than another. -/
def Version.Precedes (v w : Version) : Prop := v.rank < w.rank

variable {v w : Version}

theorem precedes_iff : v.Precedes w ↔
    v.numbers < w.numbers ∨ v.numbers = w.numbers ∧ v.preRank < w.preRank :=
  Prod.Lex.toLex_lt_toLex

/-! ## Letters -/

theorem isLetter_of_isDigit {c : Char} (h : c.isDigit) : isLetter c := by
  simp [isLetter, Char.isAlphanum, h]

theorem isDigit_of_mem_digits {n : ℕ} {c : Char} (h : c ∈ digits n) : c.isDigit :=
  Nat.isDigit_of_mem_toDigits (by decide) (by decide) h

theorem isLetter_of_mem_text {i : Identifier} {c : Char} (h : c ∈ i.text) : isLetter c := by
  cases i with
  | numeric n => exact isLetter_of_isDigit (isDigit_of_mem_digits h)
  | alphanumeric text letters word => exact letters c h

theorem text_ne_nil (i : Identifier) : i.text ≠ [] := by
  cases i with
  | numeric n => exact Nat.toDigits_ne_nil
  | alphanumeric text letters word =>
    obtain ⟨c, hc, -⟩ := word
    exact List.ne_nil_of_mem hc

end SemVer
