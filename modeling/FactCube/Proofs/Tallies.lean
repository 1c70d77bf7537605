import FactCube.Cube.Groups
import Mathlib

/-!
# Tallies

The tally of some facts sums each measure from the left, starting at zero. Tallies are merged by
adding their sums and their counts. Where the addition is exact, neither the order of the facts nor
the places where they are split matter.

Results:
* `Tally.sums_ofList_map`: the sums of some facts, measure by measure.
* `Tally.ofList_append`: with an exact addition, the tallies of two lists merge to that of both.
* `Tally.ofList_perm`: with an exact addition, the order of the facts does not matter.
-/

namespace FactCube

variable {σ : Type} {arith : Arithmetic σ}

/-! ## Sums -/

namespace Arithmetic

theorem addSums_nil_right (sums : List σ) : arith.addSums sums [] = sums := by
  cases sums <;> rfl

theorem length_addSums (sums amounts : List σ) :
    (arith.addSums sums amounts).length = max sums.length amounts.length := by
  induction amounts generalizing sums with
  | nil => rw [addSums_nil_right, List.length_nil, Nat.max_zero]
  | cons amount amounts ih =>
    cases sums with
    | nil => rw [addSums, List.length_cons, ih]; simp
    | cons sum sums => rw [addSums, List.length_cons, ih]; simp

theorem addSums_nil_map {μ : Type} (g : μ → σ) (ms : List μ) :
    arith.addSums [] (ms.map g) = ms.map fun m => arith.add arith.zero (g m) := by
  induction ms with
  | nil => rfl
  | cons m ms ih => rw [List.map_cons, addSums, ih, List.map_cons]

theorem addSums_map_map {μ : Type} (f g : μ → σ) (ms : List μ) :
    arith.addSums (ms.map f) (ms.map g) = ms.map fun m => arith.add (f m) (g m) := by
  induction ms with
  | nil => rfl
  | cons m ms ih => rw [List.map_cons, List.map_cons, addSums, ih, List.map_cons]

theorem resize_of_length {n : Nat} {sums : List σ} (h : sums.length = n) :
    arith.resize n sums = sums := by
  induction sums generalizing n with
  | nil => subst h; rfl
  | cons sum sums ih => subst h; rw [List.length_cons, resize, ih rfl]

theorem resize_nil (n : Nat) : arith.resize n [] = List.replicate n arith.zero := by
  induction n with
  | zero => rfl
  | succ n ih => rw [resize, ih, List.replicate_succ]

/-- Whether sums do not depend on the order of their amounts. -/
structure IsExact (arith : Arithmetic σ) : Prop where
  zero_add : ∀ x, arith.add arith.zero x = x
  add_comm : ∀ x y, arith.add x y = arith.add y x
  add_assoc : ∀ x y z, arith.add (arith.add x y) z = arith.add x (arith.add y z)

theorem IsExact.addSums_nil_left (h : arith.IsExact) (amounts : List σ) :
    arith.addSums [] amounts = amounts := by
  induction amounts with
  | nil => rfl
  | cons amount amounts ih => rw [addSums, h.zero_add, ih]

theorem IsExact.addSums_comm (h : arith.IsExact) (as bs : List σ) :
    arith.addSums as bs = arith.addSums bs as := by
  induction as generalizing bs with
  | nil => rw [h.addSums_nil_left, addSums_nil_right]
  | cons a as ih =>
    cases bs with
    | nil => rw [h.addSums_nil_left, addSums_nil_right]
    | cons b bs => rw [addSums, addSums, h.add_comm, ih]

theorem IsExact.addSums_assoc (h : arith.IsExact) (as bs cs : List σ) :
    arith.addSums (arith.addSums as bs) cs = arith.addSums as (arith.addSums bs cs) := by
  induction as generalizing bs cs with
  | nil => rw [h.addSums_nil_left, h.addSums_nil_left]
  | cons a as ih =>
    cases bs with
    | nil => rw [addSums_nil_right, h.addSums_nil_left]
    | cons b bs =>
      cases cs with
      | nil => rw [addSums_nil_right, addSums_nil_right]
      | cons c cs => simp only [addSums, h.add_assoc, ih]

/-- The rational a finite binary64 number stands for. -/
def rationalOf (x : Float) : ℚ :=
  let ratio := Binary64.magnitudeRatio (Binary64.magnitude x)
  if Binary64.negative x then -(ratio.1 / ratio.2) else ratio.1 / ratio.2

/-- Exact sums of the numbers that are otherwise summed in binary64 arithmetic. -/
def rational : Arithmetic ℚ where
  zero := 0
  add := fun x y => x + y
  compare := fun x y => Ord.compare x y
  ofValue? := fun value => value.number?.map rationalOf

theorem isExact_rational : rational.IsExact where
  zero_add := zero_add
  add_comm := add_comm
  add_assoc := add_assoc

end Arithmetic

/-! ## Tallies of lists -/

namespace Tally

/-- The tally of some facts, added in order. -/
def ofList (arith : Arithmetic σ) (facts : List (List σ)) : Tally σ :=
  facts.foldl (add arith) empty

theorem ofList_nil : ofList arith [] = empty := rfl

theorem ofList_concat (facts : List (List σ)) (amounts : List σ) :
    ofList arith (facts ++ [amounts]) = (ofList arith facts).add arith amounts := by
  rw [ofList, List.foldl_append, List.foldl_cons, List.foldl_nil, ofList]

/-- Every fact counts once. -/
theorem count_ofList (facts : List (List σ)) : (ofList arith facts).count = facts.length := by
  induction facts using List.reverseRecOn with
  | nil => rfl
  | append_singleton facts amounts ih =>
    rw [ofList_concat, add, ih, List.length_append, List.length_singleton]

theorem foldl_add_map {μ ρ : Type} (ms : List μ) (amount : ρ → μ → σ) (facts : List ρ)
    (start : μ → σ) (n : Nat) :
    ((facts.map fun r => ms.map (amount r)).foldl (add arith) ⟨ms.map start, n⟩).sums =
      ms.map fun m => facts.foldl (fun sum r => arith.add sum (amount r m)) (start m) := by
  induction facts generalizing start n with
  | nil => rfl
  | cons r facts ih =>
    rw [List.map_cons, List.foldl_cons, add, Arithmetic.addSums_map_map, ih]
    rfl

/-- The sums of some facts, measure by measure: each is taken from the left and starts at zero. -/
theorem sums_ofList_map {μ ρ : Type} (ms : List μ) (amount : ρ → μ → σ) {facts : List ρ}
    (h : facts ≠ []) :
    (ofList arith (facts.map fun r => ms.map (amount r))).sums =
      ms.map fun m => facts.foldl (fun sum r => arith.add sum (amount r m)) arith.zero := by
  cases facts with
  | nil => exact absurd rfl h
  | cons r facts =>
    rw [ofList, List.map_cons, List.foldl_cons, add, empty, Arithmetic.addSums_nil_map,
      foldl_add_map]
    rfl

/-- The tally of some tallies, merged in order. -/
def mergeAll (arith : Arithmetic σ) (tallies : List (Tally σ)) : Tally σ :=
  tallies.foldl (merge arith) empty

theorem mergeAll_concat (tallies : List (Tally σ)) (t : Tally σ) :
    mergeAll arith (tallies ++ [t]) = (mergeAll arith tallies).merge arith t := by
  rw [mergeAll, List.foldl_append, List.foldl_cons, List.foldl_nil, mergeAll]

/-! ## Exact sums -/

theorem merge_empty (t : Tally σ) : t.merge arith empty = t := by
  rw [merge, empty, Arithmetic.addSums_nil_right, Nat.add_zero]

theorem merge_add (h : arith.IsExact) (t u : Tally σ) (amounts : List σ) :
    t.merge arith (u.add arith amounts) = (t.merge arith u).add arith amounts := by
  simp only [merge, add, h.addSums_assoc, Nat.add_assoc]

/-- With an exact addition, the tallies of two lists merge to that of both. -/
theorem ofList_append (h : arith.IsExact) (as bs : List (List σ)) :
    ofList arith (as ++ bs) = (ofList arith as).merge arith (ofList arith bs) := by
  induction bs using List.reverseRecOn with
  | nil => rw [List.append_nil, ofList_nil, merge_empty]
  | append_singleton bs amounts ih =>
    rw [← List.append_assoc, ofList_concat, ofList_concat, ih, merge_add h]

theorem add_right_comm (h : arith.IsExact) (t : Tally σ) (as bs : List σ) :
    (t.add arith as).add arith bs = (t.add arith bs).add arith as := by
  simp only [add, h.addSums_assoc, h.addSums_comm as bs]

/-- With an exact addition, the order of the facts does not matter. -/
theorem ofList_perm (h : arith.IsExact) {as bs : List (List σ)} (hperm : as.Perm bs) :
    ofList arith as = ofList arith bs :=
  have : RightCommutative (add arith) := ⟨fun t as bs => add_right_comm h t as bs⟩
  hperm.foldl_eq empty

end Tally

end FactCube
