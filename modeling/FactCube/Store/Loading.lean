import FactCube.Fact.Mapping
import FactCube.Store.Basic

/-!
# Loading rows

All rows of a batch are mapped before the store changes. Large batches are cut into chunks that are
mapped side by side and put together in the order of the rows. In strict mode the first row that
cannot be mapped stops the batch; in lenient mode such rows are skipped and reported.
-/

namespace FactCube

/-! ## Mapping a batch -/

/-- Batches shorter than this are mapped in one piece. -/
def parallelThreshold : Nat := 1024

/-- The quotient rounded up. -/
def ceilDiv (n d : Nat) : Nat := (n + d - 1) / d

/-- Cuts a list into pieces of a length, the last one possibly shorter; `pieces` bounds their
count. -/
def chunks {α : Type} (length : Nat) : Nat → List α → List (List α)
  | 0, items => if items.isEmpty then [] else [items]
  | pieces + 1, items =>
    if items.isEmpty then []
    else items.take length :: chunks length pieces (items.drop length)

/-- The facts or faults of a batch, in the order of the rows. -/
def mapRows (schema : Schema) (rows : List Row) (workers : Nat) : List (Except RowFault Record) :=
  if workers ≤ 1 ∨ rows.length < parallelThreshold then rows.map (mapRow schema)
  else
    let tasks := (chunks (ceilDiv rows.length workers) workers rows).map fun chunk =>
      Task.spawn fun _ => chunk.map (mapRow schema)
    tasks.flatMap Task.get

/-! ## Reports -/

/-- What happens to rows that cannot be mapped. -/
inductive LoadMode
  | strict
  | lenient
deriving DecidableEq, Repr

/-- The name of a mode. -/
def LoadMode.name : LoadMode → String
  | .strict => "strict"
  | .lenient => "lenient"

/-- The mode of a name. -/
def LoadMode.ofName? (s : String) : Option LoadMode :=
  [LoadMode.strict, .lenient].find? fun mode => mode.name == s

/-- A row that was skipped, by its number from 1 on. -/
structure SkippedRow where
  row : Nat
  fault : RowFault
deriving DecidableEq

/-- What a load did: how many records it put into the store, how many of them replaced others, and
the rows it skipped. -/
structure LoadReport where
  loaded : Nat
  replaced : Nat
  skipped : List SkippedRow
deriving DecidableEq

/-- The first row of a strict load that could not be mapped. -/
structure LoadFault where
  row : Nat
  fault : RowFault
deriving DecidableEq

/-- The wording of a load fault. -/
def LoadFault.message (f : LoadFault) : String :=
  "row " ++ Decimal.integerText f.row ++ ": " ++ f.fault.message

/-- The wording of a load fault and of the faults behind it. -/
def LoadFault.parts (f : LoadFault) : List String :=
  f.message :: f.fault.message :: f.fault.causes

/-! ## Loading -/

/-- Splits the outcomes of a batch, the first of them numbered `number`, into facts and skipped
rows, or stops at the first fault in strict mode. -/
def sortOutcomes (mode : LoadMode) :
    Nat → List (Except RowFault Record) → Except LoadFault (List Record × List SkippedRow)
  | _, [] => .ok ([], [])
  | number, .ok record :: outcomes =>
    (sortOutcomes mode (number + 1) outcomes).map fun (records, skipped) =>
      (record :: records, skipped)
  | number, .error fault :: outcomes =>
    match mode with
    | .strict => .error ⟨number, fault⟩
    | .lenient =>
      (sortOutcomes mode (number + 1) outcomes).map fun (records, skipped) =>
        (records, ⟨number, fault⟩ :: skipped)

/-- The record under the id it gets in a store of a size. Where a dataset has no keys, the size keeps
it apart from all others. -/
def stamp (keyed : Bool) (size : Nat) (record : Record) : Record :=
  if keyed then record else record.withOrdinal size

/-- Puts one fact into the store; says whether another was replaced. -/
def insertFact (keyed : Bool) (record : Record) : StateM Store Bool := fun store =>
  store.upsert (stamp keyed store.size record)

/-- Puts facts into the store one after the other and counts the replaced ones. -/
def insertFacts (keyed : Bool) (records : List Record) : StateM Store Nat :=
  records.foldlM
    (fun replaced record => do
      let hit ← insertFact keyed record
      return if hit then replaced + 1 else replaced)
    0

/-- Loads a batch of rows into the store. A fault stops the load before the first fact is put in. -/
def loadRows (schema : Schema) (mode : LoadMode) (workers : Nat) (rows : List Row) :
    ExceptT LoadFault (StateM Store) LoadReport := do
  let (records, skipped) ← ExceptT.mk (pure (sortOutcomes mode 1 (mapRows schema rows workers)))
  let replaced ← insertFacts (!schema.keys.isEmpty) records
  return ⟨records.length, replaced, skipped⟩

/-- Loads a batch of rows: the report and the store after it, or the fault. -/
def Store.load (store : Store) (schema : Schema) (mode : LoadMode) (workers : Nat)
    (rows : List Row) : Except LoadFault (LoadReport × Store) :=
  match (loadRows schema mode workers rows).run store with
  | (.ok report, store) => .ok (report, store)
  | (.error fault, _) => .error fault

end FactCube
