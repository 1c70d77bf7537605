import FactCube.Query.Plan

/-!
# The numbers that are summed

Aggregation works with any kind of number that has a zero, an addition and an order, and that the
numeric values can be read as. Results shown to users are sums of binary64 numbers, taken in a fixed
order since their addition depends on it.
-/

namespace FactCube

/-- A kind of number to sum. -/
structure Arithmetic (σ : Type) where
  zero : σ
  add : σ → σ → σ
  compare : σ → σ → Ordering
  /-- The number of a numeric value. -/
  ofValue? : Value → Option σ

namespace Arithmetic

/-- Sums of binary64 numbers, ordered by their place among all patterns. -/
def binary64 : Arithmetic Float where
  zero := Binary64.make false 0
  add := Float.add
  compare := fun x y => Ord.compare (Binary64.place x) (Binary64.place y)
  ofValue? := Value.number?

/-- Adds amounts to sums position by position; a missing sum is zero. -/
def addSums {σ : Type} (arith : Arithmetic σ) : List σ → List σ → List σ
  | sums, [] => sums
  | [], amount :: amounts => arith.add arith.zero amount :: addSums arith [] amounts
  | sum :: sums, amount :: amounts => arith.add sum amount :: addSums arith sums amounts

/-- As many sums as asked for: missing ones are zero, surplus ones are dropped. -/
def resize {σ : Type} (arith : Arithmetic σ) : Nat → List σ → List σ
  | 0, _ => []
  | n + 1, [] => arith.zero :: resize arith n []
  | n + 1, sum :: sums => sum :: resize arith n sums

/-- The numbers a record brings to the measures of a plan; what is no number counts as zero. -/
def amounts {σ : Type} (arith : Arithmetic σ) (plan : Plan) (contents : Contents) : List σ :=
  plan.measures.map fun (dimension, _) =>
    ((valueAt contents (.scalar dimension)).bind arith.ofValue?).getD arith.zero

end Arithmetic

end FactCube
