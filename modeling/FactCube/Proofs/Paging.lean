import FactCube.Proofs.Collections

/-!
# Paging

The rows of an answer are cut into pages of one size: a page leaves out the rows of the pages before
it and takes as many as fit. The count of pages is the count of groups divided by the size, rounded
up, so the pages from the first to the last make up all rows, and every later page is empty.

Page numbers and sizes are machine words. The number of the page is at least 1 before 1 is taken
away, the size is at least 1 before it divides, and the product that says how many rows to leave out
stops at the greatest word, which no list of rows is longer than.

Results:
* `flatMap_pageOf`: the first pages of a list are the items at its start.
* `exists_window`: with machine words no step fails, and the page is that of unbounded numbers.
* `Store.aggregateWith_paged`: the pages of a query partition its answer.
-/

namespace FactCube

/-! ## Pages of a list -/

section Pages

variable {α : Type}

theorem pageOf_sublist (page size : Nat) (rows : List α) : (pageOf page size rows).Sublist rows :=
  (List.take_sublist _ _).trans (List.drop_sublist _ _)

theorem length_pageOf (page size : Nat) (rows : List α) :
    (pageOf page size rows).length = min size (rows.length - (page - 1) * size) := by
  rw [pageOf, List.length_take, List.length_drop]

/-- The first pages of a list are the items at its start. -/
theorem flatMap_pageOf (pages size : Nat) (rows : List α) :
    (List.range' 1 pages).flatMap (fun page => pageOf page size rows) =
      rows.take (pages * size) := by
  induction pages with
  | zero => simp
  | succ pages ih =>
    rw [List.range'_concat, List.flatMap_append, ih, List.flatMap_singleton, pageOf, Nat.one_mul,
      Nat.add_sub_cancel_left, Nat.succ_mul, List.take_add]

/-- All pages together are the list. -/
theorem flatMap_pageOf_ceilDiv {size : Nat} (hsize : 0 < size) (rows : List α) :
    (List.range' 1 (ceilDiv rows.length size)).flatMap (fun page => pageOf page size rows) =
      rows := by
  rw [flatMap_pageOf, List.take_of_length_le (le_ceilDiv_mul _ hsize)]

/-- Every page but the last is full. -/
theorem length_pageOf_of_lt {page size : Nat} (hsize : 0 < size) {rows : List α}
    (hpage : 1 ≤ page) (h : page < ceilDiv rows.length size) :
    (pageOf page size rows).length = size := by
  have hlt := (lt_ceilDiv_iff hsize).1 h
  have hmul : page * size = (page - 1) * size + size := by
    rw [← Nat.succ_mul, Nat.succ_eq_add_one, Nat.sub_add_cancel hpage]
  rw [length_pageOf]
  omega

/-- The last page is not empty and holds no more than fits. -/
theorem length_pageOf_last {size : Nat} (hsize : 0 < size) {rows : List α}
    (h : 0 < ceilDiv rows.length size) :
    0 < (pageOf (ceilDiv rows.length size) size rows).length ∧
      (pageOf (ceilDiv rows.length size) size rows).length ≤ size := by
  have hlt : (ceilDiv rows.length size - 1) * size < rows.length :=
    (lt_ceilDiv_iff hsize).1 (Nat.sub_lt h Nat.one_pos)
  rw [length_pageOf]
  omega

/-- A page beyond the last is empty. -/
theorem pageOf_eq_nil {page size : Nat} (hsize : 0 < size) {rows : List α}
    (h : ceilDiv rows.length size < page) : pageOf page size rows = [] := by
  have hle : rows.length ≤ (page - 1) * size :=
    (le_ceilDiv_mul _ hsize).trans (Nat.mul_le_mul_right _ (Nat.le_sub_one_of_lt h))
  rw [pageOf, List.drop_eq_nil_of_le hle, List.take_nil]

end Pages

/-! ## Machine words -/

namespace Word

/-- The sum of two words, unless it is too large for a word. -/
def add? (a b : UInt64) : Option UInt64 :=
  if a.toNat + b.toNat < UInt64.size then some (a + b) else none

/-- The difference of two words, unless it is negative. -/
def sub? (a b : UInt64) : Option UInt64 := if b ≤ a then some (a - b) else none

/-- The product of two words, or the greatest word where the product is too large. -/
def saturatingMul (a b : UInt64) : UInt64 :=
  if a.toNat * b.toNat < UInt64.size then a * b else UInt64.ofNat (UInt64.size - 1)

/-- The quotient of two words rounded up, unless the divisor is zero or the result too large. -/
def ceilDiv? (a b : UInt64) : Option UInt64 :=
  if b = 0 then none else if a % b = 0 then some (a / b) else add? (a / b) 1

theorem exists_sub? {a b : UInt64} (h : b.toNat ≤ a.toNat) :
    ∃ c, sub? a b = some c ∧ c.toNat = a.toNat - b.toNat := by
  have hle : b ≤ a := UInt64.le_iff_toNat_le.2 h
  exact ⟨a - b, if_pos hle, UInt64.toNat_sub_of_le a b hle⟩

theorem exists_add? {a b : UInt64} (h : a.toNat + b.toNat < UInt64.size) :
    ∃ c, add? a b = some c ∧ c.toNat = a.toNat + b.toNat :=
  ⟨a + b, if_pos h, by rw [UInt64.toNat_add, Nat.mod_eq_of_lt h]⟩

theorem toNat_saturatingMul (a b : UInt64) :
    (saturatingMul a b).toNat = min (a.toNat * b.toNat) (UInt64.size - 1) := by
  rw [saturatingMul]
  split
  · rename_i h
    rw [UInt64.toNat_mul, Nat.mod_eq_of_lt h]
    omega
  · rename_i h
    rw [UInt64.toNat_ofNat_of_lt' (by decide)]
    omega

/-- No word but zero fails to divide another: the quotient is too large for one more only where
nothing remains. -/
theorem exists_ceilDiv? (a : UInt64) {b : UInt64} (h : 0 < b.toNat) :
    ∃ c, ceilDiv? a b = some c ∧ c.toNat = ceilDiv a.toNat b.toNat := by
  have hne : b ≠ 0 := by
    rintro rfl
    exact Nat.lt_irrefl 0 h
  rw [ceilDiv?, if_neg hne, ceilDiv_eq _ h]
  have hzero : a % b = 0 ↔ a.toNat % b.toNat = 0 := by
    rw [← UInt64.toNat_inj, UInt64.toNat_mod]
    rfl
  by_cases hmod : a % b = 0
  · rw [if_pos hmod, if_pos (hzero.1 hmod)]
    exact ⟨a / b, rfl, UInt64.toNat_div a b⟩
  · have hrest := (not_congr hzero).1 hmod
    rw [if_neg hmod, if_neg hrest]
    have hlt : (a / b).toNat + (1 : UInt64).toNat < UInt64.size := by
      have htwo : 2 ≤ b.toNat := by
        have hmod := Nat.mod_lt a.toNat h
        omega
      have hquotient : a.toNat / b.toNat ≤ a.toNat / 2 := Nat.div_le_div_left htwo Nat.two_pos
      have hword := a.toNat_lt
      rw [UInt64.toNat_div]
      show a.toNat / b.toNat + 1 < 2 ^ 64
      omega
    obtain ⟨c, hc, hvalue⟩ := exists_add? hlt
    refine ⟨c, hc, hvalue.trans ?_⟩
    rw [UInt64.toNat_div]
    rfl

end Word

/-- The bounds of a page in machine words: its number, its size, the count of pages and how many
rows are left out before it. -/
structure Window where
  page : UInt64
  pageSize : UInt64
  pages : UInt64
  skipped : UInt64

/-- The bounds of a page of some groups, unless a step of the arithmetic fails. -/
def window? (page : UInt64) (pageSize? : Option UInt64) (groups : UInt64) : Option Window := do
  let page := max page 1
  let pageSize := max (pageSize?.getD groups) 1
  let pages ← Word.ceilDiv? groups pageSize
  let before ← Word.sub? page 1
  some ⟨page, pageSize, pages, Word.saturatingMul before pageSize⟩

/-- The bounds of a page are those of unbounded numbers. -/
structure Window.IsFor (w : Window) (page : Nat) (pageSize? : Option Nat) (groups : Nat) :
    Prop where
  page_eq : w.page.toNat = Nat.max page 1
  pageSize_eq : w.pageSize.toNat = Nat.max (pageSize?.getD groups) 1
  pages_eq : w.pages.toNat = ceilDiv groups (Nat.max (pageSize?.getD groups) 1)
  /-- The rows before the page are left out, though only so many as a word can say. -/
  skipped_eq : w.skipped.toNat =
    min ((Nat.max page 1 - 1) * Nat.max (pageSize?.getD groups) 1) (UInt64.size - 1)

/-- No page number and no page size makes a step of the arithmetic fail. -/
theorem exists_window (page : UInt64) (pageSize? : Option UInt64) (groups : UInt64) :
    ∃ w, window? page pageSize? groups = some w ∧
      w.IsFor page.toNat (pageSize?.map UInt64.toNat) groups.toNat := by
  have hpage : (max page 1).toNat = Nat.max page.toNat 1 := UInt64.toNat_max page 1
  have hsize : (max (pageSize?.getD groups) 1).toNat =
      Nat.max ((pageSize?.map UInt64.toNat).getD groups.toNat) 1 := by
    rw [UInt64.toNat_max]
    cases pageSize? <;> rfl
  obtain ⟨pages, hpages, hpagesEq⟩ :=
    Word.exists_ceilDiv? groups (b := max (pageSize?.getD groups) 1) (by
      rw [hsize]
      exact Nat.lt_of_lt_of_le Nat.one_pos (Nat.le_max_right _ _))
  obtain ⟨before, hbefore, hbeforeEq⟩ := Word.exists_sub? (a := max page 1) (b := 1) (by
    rw [hpage]
    exact Nat.le_max_right _ _)
  refine ⟨⟨max page 1, max (pageSize?.getD groups) 1, pages,
    Word.saturatingMul before (max (pageSize?.getD groups) 1)⟩, ?_, hpage, hsize, ?_, ?_⟩
  · simp only [window?, hpages, hbefore, Option.bind_eq_bind, Option.bind_some]
  · rw [hpagesEq, hsize]
  · rw [Word.toNat_saturatingMul, hbeforeEq, hpage, hsize]
    rfl

/-- No list of rows is longer than a word can say, so the bounds cut out the page. -/
theorem Window.IsFor.pageOf_eq {α : Type} {w : Window} {page groups : Nat} {pageSize? : Option Nat}
    (h : w.IsFor page pageSize? groups) {rows : List α} (hrows : rows.length < UInt64.size) :
    (rows.drop w.skipped.toNat).take w.pageSize.toNat =
      pageOf (Nat.max page 1) (Nat.max (pageSize?.getD groups) 1) rows := by
  have hdrop : ∀ k, rows.drop (min k (UInt64.size - 1)) = rows.drop k := by
    intro k
    rcases Nat.le_total k (UInt64.size - 1) with hle | hle
    · rw [Nat.min_eq_left hle]
    · rw [Nat.min_eq_right hle, List.drop_eq_nil_of_le (Nat.le_sub_one_of_lt hrows),
        List.drop_eq_nil_of_le ((Nat.le_sub_one_of_lt hrows).trans hle)]
  rw [pageOf, h.pageSize_eq, h.skipped_eq, hdrop]

/-! ## Pages of an answer -/

/-- The query with the given page and page size. -/
def Query.paged (query : Query) (page : Nat) (pageSize? : Option Nat) : Query :=
  { query with page := page, pageSize? := pageSize? }

/-- The plan with the given page and page size. -/
def Plan.paged (plan : Plan) (page : Nat) (pageSize? : Option Nat) : Plan :=
  { plan with page := Nat.max page 1, pageSize? := pageSize? }

/-- The page of a query does not matter to the rest of its plan. -/
theorem Query.plan_paged {schema : Schema} {query : Query} {plan : Plan}
    (h : query.plan schema = .ok plan) (page : Nat) (pageSize? : Option Nat) :
    (query.paged page pageSize?).plan schema = .ok (plan.paged page pageSize?) := by
  have hresolved := resolved_of_plan h
  exact IsResolved.plan_eq { hresolved with page := rfl, pageSize? := rfl }

variable {σ : Type} {arith : Arithmetic σ}

/-- Whether the answers, by page number, are the pages of a whole answer in a size. -/
structure Aggregate.IsPaging (whole : Aggregate σ) (size : Nat) (answer : Nat → Aggregate σ) :
    Prop where
  drilldowns_eq : ∀ page, (answer page).drilldowns = whole.drilldowns
  measures_eq : ∀ page, (answer page).measures = whole.measures
  /-- The summary is about all groups, and only the number of the page tells it from another. -/
  summary_eq : ∀ page, (answer page).summary =
    { whole.summary with
      page := Nat.max page 1
      pages := ceilDiv whole.rows.length (Nat.max size 1)
      pageSize := Nat.max size 1 }
  groups_eq : whole.summary.groups = whole.rows.length
  /-- No row is lost or repeated. -/
  flatMap_eq :
    (List.range' 1 (answer 1).summary.pages).flatMap (fun page => (answer page).rows) = whole.rows
  full : ∀ page, 1 ≤ page → page < (answer 1).summary.pages →
    (answer page).rows.length = Nat.max size 1
  last : 0 < (answer 1).summary.pages →
    0 < (answer (answer 1).summary.pages).rows.length ∧
      (answer (answer 1).summary.pages).rows.length ≤ Nat.max size 1
  beyond : ∀ page, (answer 1).summary.pages < page → (answer page).rows = []
  zero : answer 0 = answer 1

/-- Whether an answer is what the bounds of its page cut out of a whole answer. -/
structure Aggregate.IsCutBy (answer whole : Aggregate σ) (w : Window) : Prop where
  rows_eq : answer.rows = (whole.rows.drop w.skipped.toNat).take w.pageSize.toNat
  page_eq : answer.summary.page = w.page.toNat
  pageSize_eq : answer.summary.pageSize = w.pageSize.toNat
  pages_eq : answer.summary.pages = w.pages.toNat

namespace Aggregate

variable {plan : Plan} {groups : Groups σ}

/-- All rows of an answer, in the order of the plan. -/
def orderedRows (arith : Arithmetic σ) (plan : Plan) (groups : Groups σ) : List (GroupRow σ) :=
  orderRows arith plan.order (groupRows arith plan.measureNames.length groups)

theorem length_orderedRows :
    (orderedRows arith plan groups).length =
      (groupRows arith plan.measureNames.length groups).length :=
  List.length_mergeSort _

theorem rows_ofGroups_paged (page : Nat) (pageSize? : Option Nat) :
    (ofGroups arith (plan.paged page pageSize?) groups).rows =
      pageOf (Nat.max page 1)
        (Nat.max (pageSize?.getD (orderedRows arith plan groups).length) 1)
        (orderedRows arith plan groups) := by
  rw [length_orderedRows]
  rfl

theorem summary_ofGroups_paged (page : Nat) (pageSize? : Option Nat) :
    (ofGroups arith (plan.paged page pageSize?) groups).summary =
      { (ofGroups arith plan groups).summary with
        page := Nat.max page 1
        pages := ceilDiv (orderedRows arith plan groups).length
          (Nat.max (pageSize?.getD (orderedRows arith plan groups).length) 1)
        pageSize := Nat.max (pageSize?.getD (orderedRows arith plan groups).length) 1 } := by
  rw [length_orderedRows]
  rfl

/-- Without a page size, the first page holds all rows. -/
theorem rows_ofGroups_whole :
    (ofGroups arith (plan.paged 1 none) groups).rows = orderedRows arith plan groups := by
  rw [rows_ofGroups_paged, pageOf, Option.getD_none]
  simp

/-- The answers to the pages of a plan are the pages of its answer without a page size. -/
theorem isPaging_ofGroups (size : Nat) :
    (ofGroups arith (plan.paged 1 none) groups).IsPaging size fun page =>
      ofGroups arith (plan.paged page (some size)) groups := by
  have hsize : 0 < Nat.max size 1 := Nat.lt_of_lt_of_le Nat.one_pos (Nat.le_max_right _ _)
  have hrows : ∀ page, 1 ≤ page → (ofGroups arith (plan.paged page (some size)) groups).rows =
      pageOf page (Nat.max size 1) (orderedRows arith plan groups) := by
    intro page hpage
    have hmax : Nat.max page 1 = page := Nat.max_eq_left hpage
    rw [rows_ofGroups_paged, Option.getD_some, hmax]
  have hpages : (ofGroups arith (plan.paged 1 (some size)) groups).summary.pages =
      ceilDiv (orderedRows arith plan groups).length (Nat.max size 1) := by
    rw [summary_ofGroups_paged, Option.getD_some]
  constructor
  · exact fun _ => rfl
  · exact fun _ => rfl
  · intro page
    rw [summary_ofGroups_paged, summary_ofGroups_paged, rows_ofGroups_whole]
    rfl
  · rw [summary_ofGroups_paged, rows_ofGroups_whole, length_orderedRows]
    rfl
  · rw [hpages, rows_ofGroups_whole]
    refine Eq.trans (List.flatMap_congr fun page hpage => ?_)
      (flatMap_pageOf_ceilDiv hsize (orderedRows arith plan groups))
    exact hrows page (List.mem_range'_1.1 hpage).1
  · intro page hpage hlt
    rw [hrows page hpage]
    rw [hpages] at hlt
    exact length_pageOf_of_lt hsize hpage hlt
  · intro hpos
    rw [hpages] at hpos ⊢
    rw [hrows _ hpos]
    exact length_pageOf_last hsize hpos
  · intro page hlt
    rw [hpages] at hlt
    rw [hrows page (Nat.lt_of_le_of_lt (Nat.zero_le _) hlt)]
    exact pageOf_eq_nil hsize hlt
  · rfl

/-- The bounds of a page in machine words cut its rows out of all rows. -/
theorem isCutBy_ofGroups {page : Nat} {pageSize? : Option Nat} {w : Window}
    (h : w.IsFor page pageSize? (orderedRows arith plan groups).length)
    (hword : (orderedRows arith plan groups).length < UInt64.size) :
    (ofGroups arith (plan.paged page pageSize?) groups).IsCutBy
      (ofGroups arith (plan.paged 1 none) groups) w := by
  constructor
  · rw [rows_ofGroups_paged, rows_ofGroups_whole, h.pageOf_eq hword]
  · rw [summary_ofGroups_paged, h.page_eq]
  · rw [summary_ofGroups_paged, h.pageSize_eq]
  · rw [summary_ofGroups_paged, h.pages_eq]

end Aggregate

namespace Store

/-- The pages of a query partition its answer. Every page and page size has an answer; for each size
the answers are the pages of the answer without a size; and where page, size and the count of groups
are machine words, no step of the arithmetic fails and its bounds cut out the page. -/
theorem aggregateWith_paged {schema : Schema} {query : Query} {plan : Plan}
    (hplan : query.plan schema = .ok plan) {store : Store}
    (hcollection : ∀ own, query.collection? = some own → (store.collection? own).isSome = true)
    (arith : Arithmetic σ) (workers : Nat) :
    ∃ answer : Nat → Option Nat → Aggregate σ,
      (∀ page pageSize?, store.aggregateWith arith schema workers (query.paged page pageSize?) =
        .ok (answer page pageSize?)) ∧
      (∀ size, (answer 1 none).IsPaging size fun page => answer page (some size)) ∧
      ∀ (page : UInt64) (pageSize? : Option UInt64) (groups : UInt64),
        groups.toNat = (answer 1 none).summary.groups →
        ∃ w, window? page pageSize? groups = some w ∧
          (answer page.toNat (pageSize?.map UInt64.toNat)).IsCutBy (answer 1 none) w := by
  rw [← (Query.resolved_of_plan hplan).collection?] at hcollection
  obtain ⟨members?, hmembers, -⟩ := exists_membersFor hcollection
  have hgroups : ∀ page pageSize?,
      groupRecords arith (plan.paged page pageSize?) members? workers store.toList =
        groupRecords arith plan members? workers store.toList := fun _ _ => rfl
  refine ⟨fun page pageSize? => .ofGroups arith (plan.paged page pageSize?)
    (groupRecords arith plan members? workers store.toList), fun page pageSize? => ?_,
    fun size => Aggregate.isPaging_ofGroups size, fun page pageSize? groups hword => ?_⟩
  · have hsame : store.membersFor (plan.paged page pageSize?) = .ok members? := hmembers
    rw [aggregateWith_of_plan (Query.plan_paged hplan page pageSize?), hsame, Except.map, hgroups]
  · rw [(Aggregate.isPaging_ofGroups 1).groups_eq, Aggregate.rows_ofGroups_whole] at hword
    obtain ⟨w, hw, hbounds⟩ := exists_window page pageSize? groups
    rw [hword] at hbounds
    exact ⟨w, hw, Aggregate.isCutBy_ofGroups hbounds (hword ▸ groups.toNat_lt)⟩

/-- The regions of a store, in pages. -/
theorem aggregateWith_paged_sample :
    Sample.query.plan (Sample.schema true) = .ok Sample.plan ∧
      ∃ answer : Nat → Option Nat → Aggregate Float,
        (∀ page pageSize?, (Sample.store true).aggregateWith .binary64 (Sample.schema true) 1
          (Sample.query.paged page pageSize?) = .ok (answer page pageSize?)) ∧
        (∀ size, (answer 1 none).IsPaging size fun page => answer page (some size)) ∧
        ∀ (page : UInt64) (pageSize? : Option UInt64) (groups : UInt64),
          groups.toNat = (answer 1 none).summary.groups →
          ∃ w, window? page pageSize? groups = some w ∧
            (answer page.toNat (pageSize?.map UInt64.toNat)).IsCutBy (answer 1 none) w :=
  ⟨rfl, aggregateWith_paged rfl (Query.isSome_collection? rfl _) .binary64 1⟩

end Store

end FactCube
