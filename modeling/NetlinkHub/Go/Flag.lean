import Mathlib.Data.List.Basic

/-! # Go command-line flags

The part of the `flag` package that the agent uses: flags before the first operand are set one by one, a truth value
without an argument, every other from `=` on or from the next argument. -/

namespace Flag

/-- A flag of the command line, and what setting it does. -/
structure Spec (α : Type) where
  name : List Char
  isBool : Bool
  set : List Char → α → Option α

/-- Why a command line is refused. -/
inductive Failure where
  | help
  | badSyntax (arg : List Char)
  | notDefined (name : List Char)
  | needsArgument (name : List Char)
  | invalidValue (name value : List Char)
  deriving DecidableEq, Repr

/-- What an argument is. -/
inductive Word where
  | operand
  | terminator
  | flag (name : List Char)
  deriving DecidableEq, Repr

/-- One or two dashes begin a flag, two dashes end the flags. -/
def word : List Char → Word
  | ['-'] => .operand
  | ['-', '-'] => .terminator
  | '-' :: '-' :: name => .flag name
  | '-' :: name => .flag name
  | _ => .operand

/-- A name up to its `=`, and the value behind it. -/
def splitValue (name : List Char) : List Char × Option (List Char) :=
  match name.dropWhile (· ≠ '=') with
  | [] => (name, none)
  | _ :: value => (name.takeWhile (· ≠ '='), some value)

/-- `strconv.ParseBool`. -/
def parseBool (value : List Char) : Option Bool :=
  if value ∈ ["1", "t", "T", "TRUE", "true", "True"].map String.toList then some true
  else if value ∈ ["0", "f", "F", "FALSE", "false", "False"].map String.toList then some false
  else none

variable {α : Type}

/-- A flag is set. -/
def assign (flag : Spec α) (value : List Char) (a : α) : Except Failure α :=
  match flag.set value a with
  | some a => .ok a
  | none => .error (.invalidValue flag.name value)

/-- `FlagSet.Parse`: what the flags set, and the operands. -/
def parse (flags : List (Spec α)) (a : α) : List (List Char) → Except Failure (α × List (List Char))
  | [] => .ok (a, [])
  | arg :: args =>
    match word arg with
    | .operand => .ok (a, arg :: args)
    | .terminator => .ok (a, args)
    | .flag text =>
      -- an equals sign cannot be first
      if text.head? ∈ [none, some '-', some '='] then .error (.badSyntax arg)
      else
        match flags.find? (·.name = (splitValue text).1) with
        | none =>
          .error (if (splitValue text).1 ∈ ["help".toList, "h".toList] then .help else .notDefined (splitValue text).1)
        | some flag =>
          match flag.isBool, (splitValue text).2, args with
          | true, value, args => (assign flag (value.getD "true".toList) a).bind (parse flags · args)
          | false, some value, args => (assign flag value a).bind (parse flags · args)
          | false, none, value :: args => (assign flag value a).bind (parse flags · args)
          | false, none, [] => .error (.needsArgument flag.name)

/-- An argument that names a flag and has no value of its own. -/
def Names (flags : List (Spec α)) (arg : List Char) (flag : Spec α) : Prop :=
  ∃ text, word arg = .flag text ∧ text.head? ∉ [none, some '-', some '='] ∧ splitValue text = (text, none) ∧
    flags.find? (·.name = text) = some flag

variable {flags : List (Spec α)} {arg : List Char} {flag : Spec α}

/-- The value of a flag is the next argument, whatever that looks like. -/
theorem parse_next (h : Names flags arg flag) (hbool : flag.isBool = false) (a : α) (value : List Char)
    (args : List (List Char)) :
    parse flags a (arg :: value :: args) = (assign flag value a).bind (parse flags · args) := by
  obtain ⟨text, hword, hhead, hsplit, hfind⟩ := h
  rw [parse, hword]
  simp only [hhead, if_false, hsplit, hfind, hbool]

/-- A truth value needs none. -/
theorem parse_true (h : Names flags arg flag) (hbool : flag.isBool = true) (a : α) (args : List (List Char)) :
    parse flags a (arg :: args) = (assign flag "true".toList a).bind (parse flags · args) := by
  obtain ⟨text, hword, hhead, hsplit, hfind⟩ := h
  rw [parse, hword]
  simp only [hhead, if_false, hsplit, hfind, hbool, Option.getD_none]

end Flag
