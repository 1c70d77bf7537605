/-!
# Shapes of documents

A model document has a fixed shape: records with named fields, tables keyed by names of the author's
choice, lists and scalars. The shape is written down once as a value and serves every notation a
document can be written in. Data of a shape keep the order of keyed entries and repeated keys.
-/

namespace FactCube

/-! ## Scalars -/

/-- A scalar as a document writes it; it keeps its notation until its type is known. -/
inductive Literal
  | text (text : String)
  | integer (number : Int)
  | float (number : Float)
  | boolean (truth : Bool)

/-! ## Shapes -/

/-- What becomes of a field that a record does not write. -/
inductive Presence
  /-- The record is refused. -/
  | required
  /-- The field is empty. -/
  | defaulted
  /-- The field is absent, and may be written as absent. -/
  | optional
deriving DecidableEq, Repr

/-- What a document, or a part of one, has to look like. -/
inductive Shape
  | text
  | flag
  | literal
  /-- Fields with the given names, in this order where they are written without names. -/
  | record (fields : List (String × Presence × Shape))
  /-- Entries of one shape under names of any kind, in order and possibly repeated. -/
  | keyed (entry : Shape)
  /-- Items of one shape. -/
  | listed (item : Shape)

/-- A document, or a part of one, that has some shape. Fields of a record stand in the order in
which they were written, and those not written are left out. -/
inductive Datum
  | absent
  | text (text : String)
  | flag (truth : Bool)
  | literal (literal : Literal)
  | record (fields : List (String × Datum))
  | keyed (entries : List (String × Datum))
  | listed (items : List Datum)

/-! ## Access -/

namespace Datum

/-- The value of a field, absent if it was not written. -/
def field (name : String) : Datum → Datum
  | .record fields => match fields.find? fun f => f.1 == name with
    | some f => f.2
    | none => .absent
  | _ => .absent

/-- The text, if there is one. -/
def text? : Datum → Option String
  | .text s => some s
  | _ => none

/-- The text, empty by default. -/
def textOrEmpty (d : Datum) : String := d.text?.getD ""

/-- The flag, unset by default. -/
def isSet : Datum → Bool
  | .flag b => b
  | _ => false

/-- The literal, if there is one. -/
def literal? : Datum → Option Literal
  | .literal l => some l
  | _ => none

/-- The keyed entries, none by default. -/
def entries : Datum → List (String × Datum)
  | .keyed entries => entries
  | _ => []

/-- The items, none by default. -/
def items : Datum → List Datum
  | .listed items => items
  | _ => []

end Datum

/-! ## Fields -/

/-- The field of a name in a list of fields. -/
def findField (fields : List (String × Presence × Shape)) (name : String) :
    Option (Presence × Shape) :=
  (fields.find? fun f => f.1 == name).map Prod.snd

/-- Whether every required field was written. -/
def hasRequired (fields : List (String × Presence × Shape)) (written : List (String × Datum)) :
    Bool :=
  fields.all fun (name, presence, _) =>
    presence != .required || written.any fun w => w.1 == name

end FactCube
