import FactCube.Source.Path

/-!
# Delimiters

The byte between the cells of a file. It can be given by name or as a single ASCII character, and
otherwise follows from the extension of the file.
-/

namespace FactCube

/-- Why a text names no delimiter. -/
inductive DelimiterFault
  | empty
  | tooLong
  | notAscii
deriving DecidableEq

/-- The wording of a fault. -/
def DelimiterFault.message : DelimiterFault → String
  | .empty => "Delimiter cannot be empty"
  | .tooLong => "Delimiter must be a single character"
  | .notAscii => "Delimiter must be ASCII"

namespace Delimiter

/-- The delimiter a text names. -/
def ofText (s : String) : Except DelimiterFault UInt8 :=
  if s == "tab" then .ok 9
  else if s == "comma" then .ok 44
  else if s == "pipe" then .ok 124
  else if s == "semicolon" then .ok 59
  else match s.toList with
    | [] => .error .empty
    | [c] => if c.toNat < 128 then .ok (UInt8.ofNat c.toNat) else .error .notAscii
    | _ => .error .tooLong

/-- The delimiter of a file: the one given, else a tab for tab-separated files and a comma for all
others. -/
def ofFile (path : String) (given : Option UInt8) : UInt8 :=
  match given with
  | some delimiter => delimiter
  | none => if Path.hasExtension path "tsv" then 9 else 44

end Delimiter

end FactCube
