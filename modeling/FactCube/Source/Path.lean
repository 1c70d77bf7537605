import FactCube.Text.Split

/-!
# File names

What the name of a file says about it: the single dash that stands for the standard streams, and the
extension that chooses a format. Repeated slashes, a slash at the end and components of one dot do
not count, except a dot at the very start.
-/

namespace FactCube.Path

/-! ## Components -/

/-- The components of a path: whether it starts at the root or with a dot, and the names after
that. -/
structure Components where
  atRoot : Bool
  atDot : Bool
  names : List String
deriving DecidableEq

/-- Splits a path at its slashes. -/
def components (path : String) : Components :=
  let parts := (Text.splitAll '/' path.toList).map String.ofList
  let atRoot := path.toList.head? == some '/'
  { atRoot := atRoot
    atDot := !atRoot && parts.head? == some "."
    names := parts.filter fun part => part != "" && part != "." }

/-- Whether a path stands for a standard stream. -/
def isDash (path : String) : Bool := components path == ⟨false, false, ["-"]⟩

/-- The text after the last point of the last name; a point at the start of a name does not
count. -/
def extension? (path : String) : Option String :=
  match (components path).names.getLast? with
  | none => none
  | some name =>
    if name == ".." then none
    else match Text.splitLast '.' name.toList with
      | some (_ :: _, after) => some (String.ofList after)
      | _ => none

/-- Whether the extension is the given word, in any letter case. -/
def hasExtension (path word : String) : Bool :=
  match extension? path with
  | some extension => Text.sameLetters extension word
  | none => false

end FactCube.Path
