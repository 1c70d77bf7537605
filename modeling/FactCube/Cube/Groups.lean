import FactCube.Cube.Arithmetic
import FactCube.Store.Loading

/-!
# Groups

Facts are grouped by a list of values. A group counts its facts and sums their amounts from the
left, starting at zero. A large store is cut into pieces that are grouped apart; their groups are
merged, in the order of the pieces, by adding the sums of equal keys.
-/

namespace FactCube

/-! ## Tallies -/

/-- The sums and the count of a group. -/
structure Tally (σ : Type) where
  sums : List σ
  count : Nat

namespace Tally

/-- The tally of no facts. -/
def empty {σ : Type} : Tally σ := ⟨[], 0⟩

/-- The tally with one more fact. -/
def add {σ : Type} (arith : Arithmetic σ) (t : Tally σ) (amounts : List σ) : Tally σ :=
  ⟨arith.addSums t.sums amounts, t.count + 1⟩

/-- The tally of the facts of two. -/
def merge {σ : Type} (arith : Arithmetic σ) (t other : Tally σ) : Tally σ :=
  ⟨arith.addSums t.sums other.sums, t.count + other.count⟩

end Tally

/-! ## Groups -/

/-- The order of group keys: by the first value that differs. -/
def compareKeys : List Value → List Value → Ordering
  | [], [] => .eq
  | [], _ :: _ => .lt
  | _ :: _, [] => .gt
  | a :: as, b :: bs => (a.groupOrder b).then (compareKeys as bs)

/-- Tallies by group key, in ascending order of the keys. -/
abbrev Groups (σ : Type) := Std.TreeMap (List Value) (Tally σ) compareKeys

/-- What a fact brings to a grouping: its key and its amounts. -/
structure Contribution (σ : Type) where
  key : List Value
  amounts : List σ

namespace Groups

/-- The groups with one more fact. -/
def add {σ : Type} (arith : Arithmetic σ) (groups : Groups σ) (c : Contribution σ) : Groups σ :=
  groups.alter c.key fun tally? => some ((tally?.getD .empty).add arith c.amounts)

/-- The groups of some facts, taken in order. -/
def ofList {σ : Type} (arith : Arithmetic σ) (contributions : List (Contribution σ)) : Groups σ :=
  contributions.foldl (add arith) ∅

/-- The groups of the facts of two groupings. -/
def merge {σ : Type} (arith : Arithmetic σ) (groups other : Groups σ) : Groups σ :=
  other.foldl
    (fun groups key tally =>
      groups.alter key fun tally? => some ((tally?.getD .empty).merge arith tally))
    groups

/-- The groups of facts in pieces: each piece is grouped on its own and the pieces are merged in
order. -/
def ofPieces {σ : Type} (arith : Arithmetic σ) (pieces : List (List (Contribution σ))) : Groups σ :=
  pieces.foldl (fun groups piece => groups.merge arith (ofList arith piece)) ∅

end Groups

/-! ## Facts of a plan -/

/-- Whether an id is in a set of members, where there is one. -/
def isMember (members? : Option (Std.TreeSet String)) (id : String) : Bool :=
  match members? with
  | some members => members.contains id
  | none => true

/-- What a record brings to the grouping of a plan: nothing if it is no member, not selected or
blank in a drilldown. -/
def contribution? {σ : Type} (arith : Arithmetic σ) (plan : Plan)
    (members? : Option (Std.TreeSet String)) (record : Record) : Option (Contribution σ) :=
  if isMember members? record.id && plan.selects record.contents then
    (plan.groupKey record.contents).map fun key => ⟨key, arith.amounts plan record.contents⟩
  else none

/-- The least length of a piece of a store. -/
def leastPiece : Nat := 4096

/-- The pieces in which `workers` go through some items: equally long ones of at least
`leastPiece`. -/
def pieces {α : Type} (workers : Nat) (items : List α) : List (List α) :=
  chunks (Nat.max (ceilDiv items.length workers) leastPiece) items.length items

/-- The groups of the records that a plan selects. Few records are grouped in one go. -/
def groupRecords {σ : Type} (arith : Arithmetic σ) (plan : Plan)
    (members? : Option (Std.TreeSet String)) (workers : Nat) (records : List Record) : Groups σ :=
  let contributions := List.filterMap (contribution? arith plan members?)
  if workers ≤ 1 ∨ records.length < 2 * leastPiece then Groups.ofList arith (contributions records)
  else Groups.ofPieces arith ((pieces workers records).map contributions)

end FactCube
