import FactCube.Text.Split

/-!
# Command-line arguments

A command has options, each with a long name and some with a letter. An option with a value takes it
from the same argument (`--name=value`, `-nvalue`, `-n=value`) or from the next one, which then must
not start with a dash; a single dash is a value. Two dashes end the options, and nothing may follow
them.
-/

namespace FactCube.Cli

/-! ## Words -/

/-- What an argument looks like. -/
inductive Word
  /-- Two dashes. -/
  | ending
  /-- Two dashes and a name, perhaps with a value behind an equals sign. -/
  | long (name : String) (attached? : Option String)
  /-- A dash, a letter and whatever follows the letter. -/
  | letter (letter : Char) (rest : List Char)
  /-- Anything else. -/
  | plain (text : String)
deriving DecidableEq

/-- The name and the attached value after two dashes. -/
def Word.ofLongName (s : List Char) : Word :=
  match Text.splitFirst '=' s with
  | some (name, value) => .long (String.ofList name) (some (String.ofList value))
  | none => .long (String.ofList s) none

/-- The word an argument is. -/
def Word.ofText (s : String) : Word :=
  match s.toList with
  | ['-', '-'] => .ending
  | '-' :: '-' :: rest => .ofLongName rest
  | '-' :: c :: rest => .letter c rest
  | _ => .plain s

/-! ## Options -/

/-- How often an option may be given, and whether a value comes with it. -/
inductive OptionUse
  /-- No value, at most once. -/
  | flag
  /-- A value, at most once. -/
  | single
  /-- A value each time. -/
  | repeated
deriving DecidableEq

/-- An option of a command. -/
structure OptionRule where
  name : String
  letter? : Option Char
  use : OptionUse
deriving DecidableEq

/-- An option as it was given: its name and its value, empty for a flag. -/
structure Given where
  name : String
  value : String
deriving DecidableEq

/-- The value in the rest of an argument, after the letter of an option. -/
def attachedValue? : List Char → Option String
  | [] => none
  | '=' :: value => some (String.ofList value)
  | value => some (String.ofList value)

/-- The option a word asks for, and the value attached to it. -/
def askedBy (rules : List OptionRule) : Word → Option (OptionRule × Option String)
  | .long name attached? => (rules.find? fun r => r.name == name).map fun r => (r, attached?)
  | .letter c rest =>
    (rules.find? fun r => r.letter? == some c).map fun r => (r, attachedValue? rest)
  | .ending | .plain _ => none

/-- Whether an argument can be the value of the option before it. -/
def isValue (s : String) : Bool :=
  match Word.ofText s with
  | .plain _ => true
  | _ => false

/-- The options in some arguments, in their order. -/
def scanOptions (rules : List OptionRule) : List String → Option (List Given)
  | [] => some []
  | argument :: arguments =>
    if Word.ofText argument == .ending then
      if arguments.isEmpty then some [] else none
    else
      match askedBy rules (Word.ofText argument) with
      | none => none
      | some (rule, attached?) =>
        match rule.use, attached? with
        | .flag, none => (scanOptions rules arguments).map (⟨rule.name, ""⟩ :: ·)
        | .flag, some _ => none
        | _, some value => (scanOptions rules arguments).map (⟨rule.name, value⟩ :: ·)
        | _, none =>
          match arguments with
          | [] => none
          | value :: arguments =>
            if isValue value then (scanOptions rules arguments).map (⟨rule.name, value⟩ :: ·)
            else none

/-- How often a name was given. -/
def timesGiven (given : List Given) (name : String) : Nat :=
  (given.filter fun g => g.name == name).length

/-- Whether an option was given as often as it may be. -/
def OptionRule.permits (rule : OptionRule) (given : List Given) : Bool :=
  rule.use == .repeated || timesGiven given rule.name ≤ 1

/-- The options in some arguments, none of them given too often. -/
def readOptions (rules : List OptionRule) (arguments : List String) : Option (List Given) :=
  (scanOptions rules arguments).filter fun given => rules.all fun rule => rule.permits given

/-! ## Values -/

/-- The values given for a name, in their order. -/
def valuesOf (given : List Given) (name : String) : List String :=
  (given.filter fun g => g.name == name).map Given.value

/-- Whether a name was given. -/
def isGiven (given : List Given) (name : String) : Bool := given.any fun g => g.name == name

/-- The value of an option that must be given, read by `read?`. -/
def required? {α : Type} (given : List Given) (name : String) (read? : String → Option α) :
    Option α :=
  (valuesOf given name).head?.bind read?

/-- The value of an option that may be missing, read by `read?`. -/
def optional? {α : Type} (given : List Given) (name : String) (read? : String → Option α) :
    Option (Option α) :=
  match (valuesOf given name).head? with
  | none => some none
  | some value => (read? value).map some

end FactCube.Cli
