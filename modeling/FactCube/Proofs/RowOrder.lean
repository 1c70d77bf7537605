import FactCube.Proofs.Paging

/-!
# The order of rows

The rows of an answer are those of the answer without order keys, sorted so that rows stay as they
were where no order key tells them apart. The comparison of two rows goes from order key to order
key. It is lawful on rows of one shape: the values in a column of keys are of one type, and a
comparison that is turned round keeps its laws. Without order keys the rows ascend strictly by their
keys. So of two rows the first is the one that the first order key that tells them apart puts first,
or, where there is none, the one with the smaller keys; and only one order of the rows is like this.

Results:
* `filter_mergeSort`: sorting keeps the order of the items that compare as equal to one.
* `GroupRow.transCmp_compare`: the comparison is lawful on rows of one shape.
* `GroupRow.precedes_iff`: what the comparison says, in terms of the names in the order keys.
* `IsTable.eq_orderRows`: the rows of groups have one order in which each precedes the next.
* `Store.aggregate_ordered`: the rows of an answer are in the order that was asked for.
-/

namespace FactCube

variable {σ : Type} {arith : Arithmetic σ}

/-! ## The order that is asked for -/

/-- What an order key looks at in a row: a value, a total or the count. -/
inductive Cell (σ : Type)
  | value (v : Value)
  | total (sum : σ)
  | count (n : Nat)

/-- Compares cells of one kind. -/
def Cell.compare (arith : Arithmetic σ) : Cell σ → Cell σ → Ordering
  | .value a, .value b => a.compare b
  | .total a, .total b => arith.compare a b
  | .count a, .count b => Ord.compare a b
  | _, _ => .eq

/-- The cell of a row that a name stands for: the value at the drilldown of the name, else the total
of the measure of the name, else the count. -/
def GroupRow.cell? (drilldowns measures : List String) (row : GroupRow σ) (name : String) :
    Option (Cell σ) :=
  match (drilldowns.zip row.keys).lookup name with
  | some v => some (.value v)
  | none =>
    match (measures.zip row.totals).lookup name with
    | some sum => some (.total sum)
    | none => if name = "num_entries" then some (.count row.count) else none

/-- How the cells of two rows compare if a direction puts the first row first. -/
def Direction.first : Direction → Ordering
  | .ascending => .lt
  | .descending => .gt

/-- Whether of two rows the first comes first: the first order key that tells them apart has them in
its direction, or no order key tells them apart and the keys of the first are smaller. -/
inductive Precedes (arith : Arithmetic σ) (drilldowns measures : List String) :
    List OrderKey → GroupRow σ → GroupRow σ → Prop
  | told {key : OrderKey} {order : List OrderKey} {a b : GroupRow σ} {x y : Cell σ} :
    a.cell? drilldowns measures key.field = some x →
    b.cell? drilldowns measures key.field = some y →
    x.compare arith y = key.direction.first →
    Precedes arith drilldowns measures (key :: order) a b
  | tied {key : OrderKey} {order : List OrderKey} {a b : GroupRow σ} {x y : Cell σ} :
    a.cell? drilldowns measures key.field = some x →
    b.cell? drilldowns measures key.field = some y →
    x.compare arith y = .eq →
    Precedes arith drilldowns measures order a b →
    Precedes arith drilldowns measures (key :: order) a b
  | keys {a b : GroupRow σ} : Value.compareLists a.keys b.keys = .lt →
    Precedes arith drilldowns measures [] a b

/-- Whether an answer has the rows of another one in the order of some order keys. -/
structure Aggregate.IsOrderedAs (arith : Arithmetic σ) (order : List OrderKey)
    (answer groups : Aggregate σ) : Prop where
  drilldowns_eq : answer.drilldowns = groups.drilldowns
  measures_eq : answer.measures = groups.measures
  summary_eq : answer.summary = groups.summary
  ascending : groups.rows.Pairwise fun a b => Value.compareLists a.keys b.keys = .lt
  /-- No row is lost, repeated or changed. -/
  perm : answer.rows.Perm groups.rows
  /-- Every order key stands for a cell in every row. -/
  named : ∀ key ∈ order, ∀ row ∈ groups.rows, ∃ cell,
    row.cell? groups.drilldowns groups.measures key.field = some cell
  precedes :
    answer.rows.Pairwise (Precedes arith groups.drilldowns groups.measures order)
  /-- No other order of the rows has each of them before the next. -/
  unique : ∀ rows : List (GroupRow σ), rows.Perm groups.rows →
    rows.IsChain (Precedes arith groups.drilldowns groups.measures order) → rows = answer.rows

/-! ## Stable sorting -/

section Sorting

variable {α : Type} {cmp : α → α → Ordering}

theorem ne_gt_eq_isLE (o : Ordering) : (o != .gt) = o.isLE := by cases o <;> rfl

theorem isLE_or_isLE [Std.OrientedCmp cmp] (a b : α) :
    ((cmp a b).isLE || (cmp b a).isLE) = true := by
  rw [@Std.OrientedCmp.eq_swap _ cmp _ b a]
  cases cmp a b <;> rfl

/-- Sorting keeps the order of the items that compare as equal to one. -/
theorem filter_mergeSort [Std.TransCmp cmp] (items : List α) (a : α) :
    (items.mergeSort fun x y => (cmp x y).isLE).filter (fun x => cmp a x == .eq) =
      items.filter fun x => cmp a x == .eq := by
  -- The items tied with `a` are in order as they are, so the sorted list has them as a sublist, and
  -- it has no others.
  have htied : (items.filter fun x => cmp a x == .eq).Pairwise
      fun x y => (cmp x y).isLE = true := by
    rw [List.pairwise_filter]
    refine List.pairwise_of_forall fun x y hx hy => ?_
    rw [Std.TransCmp.eq_trans (Std.OrientedCmp.eq_symm (beq_iff_eq.1 hx)) (beq_iff_eq.1 hy)]
    rfl
  have hsublist := List.sublist_mergeSort (fun _ _ _ => Std.TransCmp.isLE_trans)
    isLE_or_isLE htied List.filter_sublist
  have hfilter := hsublist.filter fun x => cmp a x == .eq
  rw [List.filter_filter] at hfilter
  simp only [Bool.and_self] at hfilter
  exact (hfilter.eq_of_length ((List.mergeSort_perm _ _).filter _).length_eq.symm).symm

/-- Of two sorted items the first is less, or both are tied and it came first. -/
theorem pairwise_mergeSort_tied [Std.TransCmp cmp] {R : α → α → Prop} {items : List α}
    (h : items.Pairwise R) :
    (items.mergeSort fun x y => (cmp x y).isLE).Pairwise
      fun a b => cmp a b = .lt ∨ cmp a b = .eq ∧ R a b := by
  rw [List.pairwise_iff_forall_sublist]
  intro a b hsublist
  have hle := List.pairwise_iff_forall_sublist.1
    (List.pairwise_mergeSort (fun _ _ _ => Std.TransCmp.isLE_trans) isLE_or_isLE items) hsublist
  refine (Ordering.isLE_iff_eq_lt_or_eq_eq.1 hle).imp_right fun htied => ⟨htied, ?_⟩
  -- Both are tied with `a`, so they are a sublist of the tied items as they were.
  have hfilter := hsublist.filter fun x => cmp a x == .eq
  rw [filter_mergeSort] at hfilter
  have hpair : [a, b].filter (fun x => cmp a x == .eq) = [a, b] := by
    simp [htied, @Std.ReflCmp.compare_self _ cmp]
  rw [hpair] at hfilter
  exact List.pairwise_iff_forall_sublist.1 h (hfilter.trans List.filter_sublist)

/-- A comparison of the items that have a property. -/
def compareAmong (P : α → Prop) (cmp : α → α → Ordering) (a b : {a // P a}) : Ordering :=
  cmp a.1 b.1

/-- The same where the comparison is lawful on the items only. -/
theorem pairwise_mergeSort_tied_of_forall {P : α → Prop} [Std.TransCmp (compareAmong P cmp)]
    {R : α → α → Prop} {items : List α} (hitems : ∀ a ∈ items, P a) (h : items.Pairwise R) :
    (items.mergeSort fun x y => (cmp x y).isLE).Pairwise
      fun a b => cmp a b = .lt ∨ cmp a b = .eq ∧ R a b := by
  have hval : (items.attachWith P hitems).map Subtype.val = items :=
    List.attachWith_map_subtype_val hitems
  have hsort : ((items.attachWith P hitems).mergeSort
      fun a b => (compareAmong P cmp a b).isLE).map Subtype.val =
        items.mergeSort fun x y => (cmp x y).isLE :=
    (List.map_mergeSort (s := fun x y => (cmp x y).isLE) fun _ _ _ _ => rfl).trans (by rw [hval])
  rw [← hval, List.pairwise_map] at h
  rw [← hsort, List.pairwise_map]
  exact @pairwise_mergeSort_tied _ (compareAmong P cmp) _ _ _ h

/-- Items that are in order from one to the next are in the one strict order that they have. -/
theorem eq_of_isChain {P : α → Prop} [Std.TransCmp (compareAmong P cmp)] {items other : List α}
    (hitems : ∀ a ∈ items, P a) (hchain : items.IsChain fun a b => cmp a b = .lt)
    (hother : other.Pairwise fun a b => cmp a b = .lt) (hperm : items.Perm other) :
    items = other := by
  have hval : (items.attachWith P hitems).map Subtype.val = items :=
    List.attachWith_map_subtype_val hitems
  have hpairwise : items.Pairwise fun a b => cmp a b = .lt := by
    have : Trans (fun a b => compareAmong P cmp a b = .lt) (fun a b => compareAmong P cmp a b = .lt)
        (fun a b => compareAmong P cmp a b = .lt) := ⟨Std.TransCmp.lt_trans⟩
    rw [← hval, List.isChain_map] at hchain
    rw [← hval, List.pairwise_map]
    exact List.IsChain.pairwise (R := fun a b => compareAmong P cmp a b = .lt) hchain
  refine List.Perm.eq_of_pairwise (fun a b ha hb hab hba => ?_) hpairwise hother hperm
  exact absurd hba (@Std.OrientedCmp.not_lt_of_lt _ (compareAmong P cmp) _
    ⟨a, hitems a ha⟩ ⟨b, hitems b (hperm.mem_iff.2 hb)⟩ hab)

end Sorting

/-! ## Lawful comparisons of rows -/

namespace GroupRow

instance {α : Type} {cmp : α → α → Ordering} [Std.TransCmp cmp] :
    Std.TransCmp (compareOptions cmp) where
  eq_swap {a b} := by
    cases a <;> cases b
    case some.some x y => exact @Std.OrientedCmp.eq_swap _ cmp _ x y
    all_goals rfl
  isLE_trans {a b c} hab hbc := by
    cases a <;> cases b <;> cases c
    case some.some.some => exact @Std.TransCmp.isLE_trans _ cmp _ _ _ _ hab hbc
    all_goals first | rfl | cases hab | cases hbc

/-- A comparison that is turned round keeps its laws. -/
theorem transCmp_directed {α : Type} (cmp : α → α → Ordering) [Std.TransCmp cmp]
    (direction : Direction) : Std.TransCmp fun a b => directed direction (cmp a b) := by
  cases direction with
  | ascending => exact inferInstanceAs (Std.TransCmp cmp)
  | descending =>
    have hswap : (fun a b => directed .descending (cmp a b)) = fun a b => cmp b a := by
      funext a b
      exact (@Std.OrientedCmp.eq_swap _ cmp _ b a).symm
    rw [hswap]
    exact Std.TransCmp.opposite

/-- Whether the keys of a row have some types. -/
def HasTypes (types : List DataType) (row : GroupRow σ) : Prop :=
  row.keys.map Value.dataType = types

section Typed

variable {types : List DataType}

theorem HasTypes.dataType_eq {a b : GroupRow σ} (ha : a.HasTypes types) (hb : b.HasTypes types)
    {column : Nat} {v w : Value} (hv : a.keys[column]? = some v) (hw : b.keys[column]? = some w) :
    v.dataType = w.dataType := by
  have hcolumn := congrArg (fun ts : List DataType => ts[column]?) (ha.trans hb.symm)
  simp only [List.getElem?_map, hv, hw, Option.map_some, Option.some.injEq] at hcolumn
  exact hcolumn

/-- The values in one column are compared as by the order of groups. -/
theorem compareBy_drilldown {a b : GroupRow σ} (ha : a.HasTypes types) (hb : b.HasTypes types)
    (column : Nat) :
    compareBy arith a b (.drilldown column) =
      compareOptions Value.groupOrder a.keys[column]? b.keys[column]? := by
  rw [compareBy]
  cases hv : a.keys[column]? with
  | none => cases b.keys[column]? <;> rfl
  | some v =>
    cases hw : b.keys[column]? with
    | none => rfl
    | some w => exact (Value.groupOrder_eq_compare (ha.dataType_eq hb hv hw)).symm

/-- Rows of one shape are compared lawfully by a target. -/
theorem transCmp_compareBy [Std.TransCmp arith.compare] (target : OrderTarget) :
    Std.TransCmp (compareAmong (HasTypes types) fun a b : GroupRow σ =>
      compareBy arith a b target) := by
  cases target with
  | drilldown column =>
    have heq : (compareAmong (HasTypes types) fun a b : GroupRow σ =>
        compareBy arith a b (.drilldown column)) =
          fun a b => compareOptions Value.groupOrder a.1.keys[column]? b.1.keys[column]? := by
      funext a b
      exact @compareBy_drilldown _ arith _ _ _ a.2 b.2 column
    rw [heq]
    exact transCmp_comap fun a : {row : GroupRow σ // row.HasTypes types} => a.1.keys[column]?
  | measure column =>
    exact @transCmp_comap _ _ (compareOptions arith.compare) _
      fun a : {row : GroupRow σ // row.HasTypes types} => a.1.totals[column]?
  | count =>
    exact @transCmp_comap _ _ Ord.compare _
      fun a : {row : GroupRow σ // row.HasTypes types} => a.1.count

/-- Rows of one shape are compared lawfully by any order keys. -/
theorem transCmp_compare [Std.TransCmp arith.compare] (order : List (OrderTarget × Direction)) :
    Std.TransCmp (compareAmong (HasTypes types) fun a b : GroupRow σ =>
      a.compare arith b order) := by
  induction order with
  | nil => exact { eq_swap := rfl, isLE_trans := fun _ _ => rfl }
  | cons key order ih =>
    obtain ⟨target, direction⟩ := key
    have htarget := @transCmp_compareBy _ arith types _ target
    have hdirected := transCmp_directed (compareAmong (HasTypes types) fun a b : GroupRow σ =>
      compareBy arith a b target) direction
    exact inferInstanceAs (Std.TransCmp (compareLex
      (fun a b => directed direction (compareAmong (HasTypes types)
        (fun a b : GroupRow σ => compareBy arith a b target) a b))
      (compareAmong (HasTypes types) fun a b : GroupRow σ => a.compare arith b order)))

/-- Compares two rows by the order keys, and by their keys where no order key tells them apart. -/
def compareAll (arith : Arithmetic σ) (order : List (OrderTarget × Direction))
    (a b : GroupRow σ) : Ordering :=
  (a.compare arith b order).then (Value.compareLists a.keys b.keys)

/-- Rows of one shape are compared lawfully by order keys and keys. -/
theorem transCmp_compareAll [Std.TransCmp arith.compare]
    (order : List (OrderTarget × Direction)) :
    Std.TransCmp (compareAmong (HasTypes types) (@compareAll σ arith order)) := by
  have horder := @transCmp_compare _ arith types _ order
  have hkeys : (compareAmong (HasTypes types) fun a b : GroupRow σ =>
      Value.compareLists a.keys b.keys) = fun a b => compareKeys a.1.keys b.1.keys := by
    funext a b
    exact (compareKeys_eq_compareLists (a.2.trans b.2.symm)).symm
  have hlists : Std.TransCmp (compareAmong (HasTypes types) fun a b : GroupRow σ =>
      Value.compareLists a.keys b.keys) := by
    rw [hkeys]
    exact transCmp_comap fun a : {row : GroupRow σ // row.HasTypes types} => a.1.keys
  exact inferInstanceAs (Std.TransCmp (compareLex
    (compareAmong (HasTypes types) fun a b : GroupRow σ => a.compare arith b order)
    (compareAmong (HasTypes types) fun a b : GroupRow σ => Value.compareLists a.keys b.keys)))

/-- Ascending rows of one shape are put into strict order. -/
theorem pairwise_orderRows [Std.TransCmp arith.compare] (order : List (OrderTarget × Direction))
    {rows : List (GroupRow σ)} (hrows : ∀ row ∈ rows, row.HasTypes types)
    (h : rows.Pairwise fun a b => Value.compareLists a.keys b.keys = .lt) :
    (orderRows arith order rows).Pairwise fun a b => compareAll arith order a b = .lt := by
  have horder := @transCmp_compare _ arith types _ order
  have hsort : orderRows arith order rows =
      rows.mergeSort fun a b => (a.compare arith b order).isLE := by
    simp only [orderRows, ne_gt_eq_isLE]
  rw [hsort]
  refine (pairwise_mergeSort_tied_of_forall hrows h).imp fun {a b} hab => ?_
  exact Ordering.then_eq_lt.2 hab

end Typed

end GroupRow

/-! ## Named cells -/

namespace GroupRow

/-- The cell that a target stands for. -/
def cellAt? (row : GroupRow σ) : OrderTarget → Option (Cell σ)
  | .drilldown column => row.keys[column]?.map .value
  | .measure column => row.totals[column]?.map .total
  | .count => some (.count row.count)

/-- Rows are compared by the cells of a target. -/
theorem compareBy_eq {a b : GroupRow σ} {target : OrderTarget} {x y : Cell σ}
    (hx : a.cellAt? target = some x) (hy : b.cellAt? target = some y) :
    compareBy arith a b target = x.compare arith y := by
  cases target with
  | drilldown column =>
    obtain ⟨v, hv, rfl⟩ := Option.map_eq_some_iff.1 hx
    obtain ⟨w, hw, rfl⟩ := Option.map_eq_some_iff.1 hy
    rw [compareBy, hv, hw]
    rfl
  | measure column =>
    obtain ⟨v, hv, rfl⟩ := Option.map_eq_some_iff.1 hx
    obtain ⟨w, hw, rfl⟩ := Option.map_eq_some_iff.1 hy
    rw [compareBy, hv, hw]
    rfl
  | count =>
    cases hx
    cases hy
    rfl

/-- The first item whose name is looked up. -/
theorem lookup_zip {α : Type} {names : List String} {items : List α}
    (h : items.length = names.length) (name : String) :
    (names.zip items).lookup name =
      (names.findIdx? fun n => n == name).bind fun position => items[position]? := by
  induction names generalizing items with
  | nil => rfl
  | cons first names ih =>
    cases items with
    | nil => cases h
    | cons item items =>
      rw [List.zip_cons_cons, List.lookup_cons, List.findIdx?_cons]
      by_cases heq : first = name
      · simp [heq]
      · have hne : (name == first) = false := beq_eq_false_iff_ne.2 (Ne.symm heq)
        rw [hne, ih (Nat.succ.inj h)]
        simp only [beq_iff_eq, heq, if_false, Option.bind_map]
        rfl

theorem exists_of_findIdx? {α β : Type} {names : List β} {p : β → Bool} {position : Nat}
    (h : names.findIdx? p = some position) {items : List α}
    (hlength : items.length = names.length) :
    ∃ item, items[position]? = some item := by
  obtain ⟨hlt, -⟩ := List.findIdx?_eq_some_iff_getElem.1 h
  exact ⟨_, List.getElem?_eq_getElem (hlength ▸ hlt)⟩

/-- Whether a row has a value for each drilldown and a total for each measure. -/
structure IsFilled (drilldowns measures : List String) (row : GroupRow σ) : Prop where
  keys : row.keys.length = drilldowns.length
  totals : row.totals.length = measures.length

section Planned

variable {drilldowns : List String} {measures : List (Nat × String)}

/-- A planned order key keeps its direction, and its target is the cell that its name stands for. -/
theorem cell?_of_planOrder {key : OrderKey} {target : OrderTarget} {direction : Direction}
    (h : Query.planOrder drilldowns measures key = .ok (target, direction)) :
    direction = key.direction ∧ ∀ row : GroupRow σ,
      row.IsFilled drilldowns (measures.map Prod.snd) →
        ∃ cell, row.cell? drilldowns (measures.map Prod.snd) key.field = some cell ∧
          row.cellAt? target = some cell := by
  rw [Query.planOrder] at h
  split at h
  · rename_i column hcolumn
    cases h
    refine ⟨rfl, fun row hrow => ?_⟩
    obtain ⟨v, hv⟩ := exists_of_findIdx? hcolumn hrow.keys
    refine ⟨.value v, ?_, ?_⟩
    · rw [cell?, lookup_zip hrow.keys, hcolumn, Option.bind_some, hv]
    · rw [cellAt?, hv, Option.map_some]
  rename_i hdrilldown
  have hmeasures : ((measures.map Prod.snd).findIdx? fun m => m == key.field) =
      measures.findIdx? fun m => m.2 == key.field := List.findIdx?_map
  split at h
  · rename_i column hcolumn
    cases h
    rw [← hmeasures] at hcolumn
    refine ⟨rfl, fun row hrow => ?_⟩
    obtain ⟨sum, hsum⟩ := exists_of_findIdx? hcolumn hrow.totals
    refine ⟨.total sum, ?_, ?_⟩
    · rw [cell?, lookup_zip hrow.keys, hdrilldown, Option.bind_none]
      simp only
      rw [lookup_zip hrow.totals, hcolumn, Option.bind_some, hsum]
    · rw [cellAt?, hsum, Option.map_some]
  rename_i hmeasure
  split at h
  · rename_i hcount
    cases h
    rw [← hmeasures] at hmeasure
    refine ⟨rfl, fun row hrow => ⟨.count row.count, ?_, rfl⟩⟩
    rw [cell?, lookup_zip hrow.keys, hdrilldown, Option.bind_none]
    simp only
    rw [lookup_zip hrow.totals, hmeasure, Option.bind_none]
    simp only
    rw [if_pos (eq_of_beq hcount)]
  · cases h

theorem directed_eq_lt_iff {direction : Direction} {o : Ordering} :
    directed direction o = .lt ↔ o = direction.first := by
  cases direction with
  | ascending => exact Iff.rfl
  | descending => exact Ordering.swap_eq_lt

theorem directed_eq_eq_iff {direction : Direction} {o : Ordering} :
    directed direction o = .eq ↔ o = .eq := by
  cases direction with
  | ascending => exact Iff.rfl
  | descending => exact Ordering.swap_eq_eq

/-- A row precedes another one iff it is less by the planned order keys and then by its keys. -/
theorem precedes_iff {order : List OrderKey} {planned : List (OrderTarget × Direction)}
    (h : order.mapM (Query.planOrder drilldowns measures) = .ok planned) {a b : GroupRow σ}
    (ha : a.IsFilled drilldowns (measures.map Prod.snd))
    (hb : b.IsFilled drilldowns (measures.map Prod.snd)) :
    Precedes arith drilldowns (measures.map Prod.snd) order a b ↔
      compareAll arith planned a b = .lt := by
  rw [Outcome.mapM_eq_ok_iff] at h
  induction h with
  | nil =>
    constructor
    · rintro ⟨⟩
      assumption
    · exact .keys
  | @cons key first order planned hkey _ ih =>
    obtain ⟨target, direction⟩ := first
    obtain ⟨rfl, hcell⟩ := @cell?_of_planOrder σ _ _ _ _ _ hkey
    obtain ⟨x, hx, hxt⟩ := hcell a ha
    obtain ⟨y, hy, hyt⟩ := hcell b hb
    have hstep : compareAll arith ((target, key.direction) :: planned) a b = .lt ↔
        x.compare arith y = key.direction.first ∨
          x.compare arith y = .eq ∧ compareAll arith planned a b = .lt := by
      rw [compareAll, compare, Ordering.then_assoc, Ordering.then_eq_lt, directed_eq_lt_iff,
        directed_eq_eq_iff, compareBy_eq hxt hyt]
      rfl
    rw [hstep, ← ih]
    constructor
    · rintro (⟨hx', hy', htold⟩ | ⟨hx', hy', htied, hrest⟩)
      · cases hx.symm.trans hx'
        cases hy.symm.trans hy'
        exact .inl htold
      · cases hx.symm.trans hx'
        cases hy.symm.trans hy'
        exact .inr ⟨htied, hrest⟩
    · rintro (htold | ⟨htied, hrest⟩)
      · exact .told hx hy htold
      · exact .tied hx hy htied hrest

end Planned

end GroupRow

/-! ## Tables -/

/-- Whether rows are a table: they have values of some types at the drilldowns and totals for the
measures, and they ascend strictly by their keys. -/
structure IsTable (types : List DataType) (drilldowns measures : List String)
    (rows : List (GroupRow σ)) : Prop where
  types : ∀ row ∈ rows, row.HasTypes types
  filled : ∀ row ∈ rows, row.IsFilled drilldowns measures
  ascending : rows.Pairwise fun a b => Value.compareLists a.keys b.keys = .lt

namespace IsTable

variable {types : List DataType} {drilldowns : List String} {measures : List (Nat × String)}
  {rows : List (GroupRow σ)} {order : List OrderKey} {planned : List (OrderTarget × Direction)}

/-- Every order key stands for a cell in every row. -/
theorem exists_cell (h : IsTable types drilldowns (measures.map Prod.snd) rows)
    (horder : order.mapM (Query.planOrder drilldowns measures) = .ok planned) {key : OrderKey}
    (hkey : key ∈ order) {row : GroupRow σ} (hrow : row ∈ rows) :
    ∃ cell, row.cell? drilldowns (measures.map Prod.snd) key.field = some cell := by
  obtain ⟨⟨target, direction⟩, htarget⟩ :=
    Outcome.exists_mapM_eq_ok_iff.1 ⟨_, horder⟩ key hkey
  obtain ⟨cell, hcell, -⟩ := (GroupRow.cell?_of_planOrder htarget).2 row (h.filled row hrow)
  exact ⟨cell, hcell⟩

/-- Of two rows in the order of the order keys, the first comes first. -/
theorem pairwise_precedes [Std.TransCmp arith.compare]
    (h : IsTable types drilldowns (measures.map Prod.snd) rows)
    (horder : order.mapM (Query.planOrder drilldowns measures) = .ok planned) :
    (orderRows arith planned rows).Pairwise
      (Precedes arith drilldowns (measures.map Prod.snd) order) := by
  have hmem : ∀ row ∈ orderRows arith planned rows, row ∈ rows :=
    fun row hrow => (List.mergeSort_perm _ _).mem_iff.1 hrow
  refine (GroupRow.pairwise_orderRows planned h.types h.ascending).imp_of_mem fun {a b} ha hb => ?_
  exact (GroupRow.precedes_iff horder (h.filled a (hmem a ha)) (h.filled b (hmem b hb))).2

/-- The rows have no other order in which each comes before the next. -/
theorem eq_orderRows [Std.TransCmp arith.compare]
    (h : IsTable types drilldowns (measures.map Prod.snd) rows)
    (horder : order.mapM (Query.planOrder drilldowns measures) = .ok planned)
    {other : List (GroupRow σ)} (hperm : other.Perm rows)
    (hchain : other.IsChain (Precedes arith drilldowns (measures.map Prod.snd) order)) :
    other = orderRows arith planned rows := by
  have hlawful := @GroupRow.transCmp_compareAll _ arith types _ planned
  have hmem : ∀ row ∈ other, row ∈ rows := fun row => hperm.mem_iff.1
  have hstrict : other.IsChain fun a b => GroupRow.compareAll arith planned a b = .lt := by
    refine hchain.imp_of_mem_imp fun a b ha hb => ?_
    exact (GroupRow.precedes_iff horder (h.filled a (hmem a ha)) (h.filled b (hmem b hb))).1
  exact eq_of_isChain (fun row hrow => h.types row (hmem row hrow)) hstrict
    (GroupRow.pairwise_orderRows planned h.types h.ascending)
    (hperm.trans (List.mergeSort_perm _ _).symm)

end IsTable

/-- The keys in the rows of any number of workers have the types of the drilldowns. -/
theorem hasTypes_groupRecords {schema : Schema} (hschema : schema.WellFormed) {plan : Plan}
    (hfields : ∀ field ∈ plan.drilldowns, schema.HasField field)
    (members? : Option (Std.TreeSet String)) {records : List Record}
    (hrecords : ∀ record ∈ records, schema.IsFact record) (workers : Nat) :
    ∀ row ∈ groupRows arith plan.measures.length
        (groupRecords arith plan members? workers records),
      row.HasTypes (plan.drilldowns.map schema.typeOf) := by
  obtain ⟨rows, hrows, houtline⟩ :=
    @exists_isGroupBy_groupRecords _ arith _ hschema _ hfields members? _ hrecords workers
  intro row hrow
  obtain ⟨fact, hfact, hkeys, -⟩ := hrows.exists_fact houtline hrow
  rw [GroupRow.HasTypes, hkeys]
  exact map_dataType_of_fits (fits_of_mem_grouped hschema hfields hrecords hfact)

/-- The rows of a plan are a table. -/
theorem isTable_groupRows {schema : Schema} (hschema : schema.WellFormed) {query : Query}
    {plan : Plan} (hplan : query.plan schema = .ok plan) (members? : Option (Std.TreeSet String))
    {records : List Record} (hrecords : ∀ record ∈ records, schema.IsFact record)
    (workers : Nat) :
    IsTable (plan.drilldowns.map schema.typeOf) plan.drilldownNames plan.measureNames
      (groupRows arith plan.measureNames.length
        (groupRecords arith plan members? workers records)) := by
  have hresolved := Query.resolved_of_plan hplan
  have hfields : ∀ field ∈ plan.drilldowns, schema.HasField field := fun _ => hresolved.hasField
  have htypes := @hasTypes_groupRecords _ arith _ hschema _ hfields members? _ hrecords workers
  rw [← plan.length_measureNames] at htypes
  refine ⟨htypes, fun row hrow => ⟨?_, ?_⟩, ?_⟩
  · have hnames := (Outcome.mapM_eq_ok_iff.1 hresolved.drilldowns).length_eq
    have hlength := congrArg List.length (htypes row hrow)
    rw [List.length_map, List.length_map] at hlength
    rw [hlength, ← hnames, hresolved.drilldownNames]
  · obtain ⟨keyed, -, rfl⟩ := List.mem_map.1 hrow
    exact Arithmetic.length_resize _ _
  · rw [plan.length_measureNames]
    exact pairwise_groupRecords hschema hfields members? hrecords workers

/-! ## Answers -/

/-- The query without its order keys. -/
def Query.unordered (query : Query) : Query := { query with order := [] }

/-- The plan without its order keys. -/
def Plan.unordered (plan : Plan) : Plan := { plan with order := [] }

theorem Query.plan_unordered {schema : Schema} {query : Query} {plan : Plan}
    (h : query.plan schema = .ok plan) : query.unordered.plan schema = .ok plan.unordered := by
  have hresolved := resolved_of_plan h
  exact IsResolved.plan_eq { hresolved with order := rfl }

/-- The rows of a table are put into the order of the order keys. -/
theorem Aggregate.isOrderedAs_ofGroups [Std.TransCmp arith.compare] {schema : Schema}
    {query : Query} {plan : Plan} (hplan : query.plan schema = .ok plan) {groups : Groups σ}
    {types : List DataType}
    (h : IsTable types plan.drilldownNames plan.measureNames
      (groupRows arith plan.measureNames.length groups)) :
    (ofGroups arith (plan.paged 1 none) groups).IsOrderedAs arith query.order
      (ofGroups arith (plan.unordered.paged 1 none) groups) := by
  have hresolved := Query.resolved_of_plan hplan
  have horder := hresolved.order
  rw [← hresolved.drilldownNames] at horder
  have hrows : (ofGroups arith (plan.paged 1 none) groups).rows =
      orderRows arith plan.order (groupRows arith plan.measureNames.length groups) :=
    rows_ofGroups_whole
  have hgroups : (ofGroups arith (plan.unordered.paged 1 none) groups).rows =
      groupRows arith plan.measureNames.length groups :=
    rows_ofGroups_whole.trans (orderRows_nil _)
  constructor
  · rfl
  · rfl
  · rfl
  · rw [hgroups]
    exact h.ascending
  · rw [hrows, hgroups]
    exact List.mergeSort_perm _ _
  · rw [hgroups]
    exact fun key hkey row hrow => h.exists_cell horder hkey hrow
  · rw [hrows]
    exact h.pairwise_precedes horder
  · rw [hrows, hgroups]
    exact fun rows hperm hchain => h.eq_orderRows horder hperm hchain

instance : Std.TransCmp Arithmetic.binary64.compare :=
  inferInstanceAs (Std.TransCmp (compareOn Binary64.place))

namespace Store

/-- The rows of a query are the rows of the query without order keys, in the order of its order
keys: where none of them tells two rows apart, their keys ascend. -/
theorem aggregate_ordered {doc : Document} {schema : Schema} (hvalid : doc.validate = .ok schema)
    {query : Query} {plan : Plan} (hplan : query.plan schema = .ok plan) {store : Store}
    (hfacts : ∀ record ∈ store.toList, schema.IsFact record)
    (hcollection : ∀ name, query.collection? = some name →
      (store.collection? name).isSome = true) (workers : Nat) :
    ∃ answer groups, store.aggregate schema workers (query.paged 1 none) = .ok answer ∧
      store.aggregate schema workers (query.unordered.paged 1 none) = .ok groups ∧
      answer.IsOrderedAs .binary64 query.order groups := by
  have hschema := Document.wellFormed_of_validate hvalid
  rw [← (Query.resolved_of_plan hplan).collection?] at hcollection
  obtain ⟨members?, hmembers, -⟩ := exists_membersFor hcollection
  refine ⟨_, _, ?_, ?_, Aggregate.isOrderedAs_ofGroups hplan
    (isTable_groupRows hschema hplan members? hfacts workers)⟩
  · have hsame : store.membersFor (plan.paged 1 none) = .ok members? := hmembers
    rw [aggregate, aggregateWith_of_plan (Query.plan_paged hplan 1 none), hsame]
    rfl
  · have hsame : store.membersFor (plan.unordered.paged 1 none) = .ok members? := hmembers
    rw [aggregate, aggregateWith_of_plan
      (Query.plan_paged (Query.plan_unordered hplan) 1 none), hsame]
    rfl

end Store

namespace Sample

/-- The query for the amounts by region, the largest first and of equal ones the last region. -/
def orderedQuery : Query :=
  { query with
    order := [⟨"amount", .descending⟩, ⟨"num_entries", .ascending⟩, ⟨"region", .descending⟩] }

/-- The plan of the query. -/
def orderedPlan : Plan :=
  { plan with
    order := [(.measure 0, .descending), (.count, .ascending), (.drilldown 0, .descending)] }

end Sample

namespace Store

/-- A total, the count and a region decide the order. -/
theorem aggregate_ordered_sample :
    (Sample.document true).validate = .ok (Sample.schema true) ∧
      Sample.orderedQuery.plan (Sample.schema true) = .ok Sample.orderedPlan ∧
      (∀ record ∈ (Sample.store true).toList, (Sample.schema true).IsFact record) ∧
      ∃ answer groups,
        (Sample.store true).aggregate (Sample.schema true) 1 (Sample.orderedQuery.paged 1 none) =
          .ok answer ∧
        (Sample.store true).aggregate (Sample.schema true) 1
          (Sample.orderedQuery.unordered.paged 1 none) = .ok groups ∧
        answer.IsOrderedAs .binary64 Sample.orderedQuery.order groups :=
  ⟨Sample.validate true, rfl, Sample.isFact_store true,
    aggregate_ordered (Sample.validate true) rfl (Sample.isFact_store true)
      (Query.isSome_collection? rfl _) 1⟩

end Store

end FactCube
