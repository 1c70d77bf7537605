import FactCube.Json.Reader
import FactCube.Model.Shape

/-!
# JSON of a shape

A node is matched against a shape in the order of the text. Unknown fields of a record are skipped
but have to be JSON; a field may not be written twice; a record may also be written as the array of
its fields. A value of the wrong kind is refused when its kind is seen, except that strings, numbers
and words are read to their end first.
-/

namespace FactCube.Json

/-! ## Skipping -/

/-- Raises the fault a value stopped with, if any. -/
def checkStop : Option JsonFault → Except JsonFault Unit
  | none => .ok ()
  | some fault => .error fault

mutual

/-- Finds the first fault of a value that nobody wants. Its numbers may be out of range, and its
strings may hold half pairs of surrogates and bytes that are part of no character. -/
def skip : Node → Except JsonFault Unit
  | .null | .boolean _ | .number _ => .ok ()
  | .text raw => checkStop raw.stop
  | .list items stop => skipItems stop items
  | .table members stop => skipMembers stop members
  | .broken _ skipped => .error skipped

/-- Skips the items of an array. -/
def skipItems (stop : Option JsonFault) : List Node → Except JsonFault Unit
  | [] => checkStop stop
  | item :: items => do skip item; skipItems stop items

/-- Skips the members of an object. -/
def skipMembers (stop : Option JsonFault) : List (RawText × Node) → Except JsonFault Unit
  | [] => checkStop stop
  | (name, value) :: members => do checkStop name.stop; skip value; skipMembers stop members

end

mutual

/-- Finds the first fault of a value that is wanted whatever it is. `room` bounds how deep it may
nest. -/
def inspect (room : Nat) : Node → Except JsonFault Unit
  | .null | .boolean _ => .ok ()
  | .number n => n.value.map fun _ => ()
  | .text raw => raw.text.map fun _ => ()
  | .list items stop => if room ≤ 1 then .error .malformed else inspectItems (room - 1) stop items
  | .table members stop =>
    if room ≤ 1 then .error .malformed else inspectMembers (room - 1) stop members
  | .broken wanted _ => .error wanted

/-- Inspects the items of an array. -/
def inspectItems (room : Nat) (stop : Option JsonFault) : List Node → Except JsonFault Unit
  | [] => checkStop stop
  | item :: items => do inspect room item; inspectItems room stop items

/-- Inspects the members of an object. -/
def inspectMembers (room : Nat) (stop : Option JsonFault) :
    List (RawText × Node) → Except JsonFault Unit
  | [] => checkStop stop
  | (name, value) :: members => do
    let _ ← name.text
    inspect room value
    inspectMembers room stop members

end

/-! ## Scalars -/

/-- Refuses a value of the wrong kind. -/
def refuse {α : Type} : Node → Except JsonFault α
  | .number n => match n.value with
    | .ok _ => .error .unfit
    | .error fault => .error fault
  | .text raw => match raw.text with
    | .ok _ => .error .unfit
    | .error fault => .error fault
  | .broken wanted _ => .error wanted
  | _ => .error .unfit

/-- The literal of a value: a string, an integer, a float or a boolean. -/
def literal (room : Nat) (node : Node) : Except JsonFault Literal :=
  match node with
  | .text raw => raw.text.map .text
  | .number n => n.value.map fun
    | .integer n => .integer n
    | .float x => .float x
  | .boolean b => .ok (.boolean b)
  | node => match inspect room node with
    | .ok _ => .error .unfit
    | .error fault => .error fault

/-- Whether a value is the word for nothing. -/
def isNull : Node → Bool
  | .null => true
  | _ => false

/-! ## Shapes -/

/-- The data of a record once all of it is read. -/
def closeRecord (fields : List (String × Presence × Shape)) (stop : Option JsonFault)
    (written : List (String × Datum)) : Except JsonFault Datum := do
  checkStop stop
  if hasRequired fields written then .ok (.record written) else .error .unfit

mutual

/-- The data of a value that has to have a shape; `room` bounds how deep it may nest. -/
def datum (room : Nat) : Shape → Node → Except JsonFault Datum
  | .text, .text raw => raw.text.map .text
  | .flag, .boolean b => .ok (.flag b)
  | .literal, node => (literal room node).map .literal
  | .record fields, .table members stop =>
    if room ≤ 1 then .error .malformed
    else do
      let written ← readFields (room - 1) fields [] members
      closeRecord fields stop written
  | .record fields, .list items stop =>
    if room ≤ 1 then .error .malformed
    else do
      let written ← readPositions (room - 1) stop fields items
      if hasRequired fields written then .ok (.record written) else .error .unfit
  | .keyed entry, .table members stop =>
    if room ≤ 1 then .error .malformed
    else do
      let entries ← readEntries (room - 1) entry members
      checkStop stop
      .ok (.keyed entries)
  | .listed item, .list items stop =>
    if room ≤ 1 then .error .malformed
    else do
      let items ← readItemData (room - 1) item items
      checkStop stop
      .ok (.listed items)
  | _, node => refuse node

/-- The fields of a record after those already written. -/
def readFields (room : Nat) (fields : List (String × Presence × Shape))
    (written : List (String × Datum)) :
    List (RawText × Node) → Except JsonFault (List (String × Datum))
  | [] => .ok written
  | (key, node) :: members => do
    let name ← key.text
    match findField fields name with
    | none =>
      skip node
      readFields room fields written members
    | some (presence, shape) =>
      if written.any fun w => w.1 == name then .error .unfit
      else if presence == .optional && isNull node then
        readFields room fields (written ++ [(name, .absent)]) members
      else
        let value ← datum room shape node
        readFields room fields (written ++ [(name, value)]) members

/-- The fields of a record written as an array. Items beyond the last field are malformed. -/
def readPositions (room : Nat) (stop : Option JsonFault) :
    List (String × Presence × Shape) → List Node → Except JsonFault (List (String × Datum))
  | _, [] => do
    checkStop stop
    .ok []
  | [], _ :: _ => .error .malformed
  | (name, presence, shape) :: fields, node :: items => do
    let value ← if presence == .optional && isNull node then .ok .absent else datum room shape node
    let rest ← readPositions room stop fields items
    .ok ((name, value) :: rest)

/-- The entries of a keyed table. -/
def readEntries (room : Nat) (entry : Shape) :
    List (RawText × Node) → Except JsonFault (List (String × Datum))
  | [] => .ok []
  | (key, node) :: members => do
    let name ← key.text
    let value ← datum room entry node
    let rest ← readEntries room entry members
    .ok ((name, value) :: rest)

/-- The items of a list. -/
def readItemData (room : Nat) (item : Shape) : List Node → Except JsonFault (List Datum)
  | [] => .ok []
  | node :: items => do
    let value ← datum room item node
    let rest ← readItemData room item items
    .ok (value :: rest)

end

/-- How deep values may nest, the value itself included. -/
def depthLimit : Nat := 128

/-- The data in a text that has to be one value of a shape and nothing else. -/
def readShape (shape : Shape) (s : List Utf8.Symbol) : Except JsonFault Datum := do
  let (node, rest) := read s
  let value ← datum depthLimit shape node
  match skipSpace (rest.getD []) with
  | [] => .ok value
  | _ => .error .malformed

end FactCube.Json
