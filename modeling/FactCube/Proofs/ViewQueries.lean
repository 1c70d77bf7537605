import FactCube.Proofs.Collections
import FactCube.Proofs.ReadFacts
import FactCube.Proofs.TypedFacts
import FactCube.Proofs.Views

/-!
# Views as queries

A view compares the displayed texts of a fact with texts, a query compares values with the values it
reads from its literals. Facts hold values that were read, so the two select the same facts wherever
the texts of the view are canonical. Nothing else tells a view from the query that drills down on its
breakdown: the measures are all measures, the rows stand in the order of their keys, and there is one
page of them. So both have the same rows, sum by sum, even where sums are rounded.

Results:
* `View.IsAskedBy.exists_plan`: the plan of the query for the facts of a view.
* `groupRecords_congr`: plans to which all records bring the same have the same groups.
* `Store.viewWith_rows`: a view and the query for its facts have the same rows.
-/

namespace FactCube

/-! ## The query for the facts of a view -/

/-- Whether a condition is that a field equals a text. -/
structure Condition.Equates (schema : Schema) (c : Condition) (compared : Field × String) : Prop where
  field : schema.resolve? c.field = some compared.1
  operator : c.operator = .equal
  literal : c.literal = compared.2

namespace View

/-- Whether a query drills down on the breakdown of a view, has a single group of conditions, that
the compared fields equal their texts, and asks for nothing else. -/
structure IsAskedBy (schema : Schema) (view : View) (member? : Option String) (query : Query) :
    Prop where
  drilldown : ∃ path, query.drilldowns = [path] ∧ schema.resolve? path = some view.breakdown
  slice : ∃ group, query.slice = [group] ∧
    List.Forall₂ (Condition.Equates schema) group (view.comparisons schema member?)
  cuts : query.cuts = []
  measures : query.measures = []
  order : query.order = []
  page : query.page ≤ 1
  pageSize? : query.pageSize? = none
  collection? : query.collection? = none

/-- The query for the facts of a view by the paths of the compared fields. -/
def query (schema : Schema) (view : View) (member? : Option String) : Query :=
  { Query.all with
    drilldowns := [view.breakdownName]
    slice := [(view.comparisons schema member?).map fun compared =>
      ⟨schema.pathOf compared.1, .equal, compared.2⟩] }

/-- The query by the paths of the compared fields is one for the facts of the view. -/
theorem WellFormed.isAskedBy_query {schema : Schema}
    (hnames : (schema.dimensions.map Dimension.name).Nodup) {view : View}
    (h : view.WellFormed schema) (hpoint : '.' ∉ view.dimension.toList)
    (member? : Option String) : view.IsAskedBy schema member? (view.query schema member?) where
  drilldown := ⟨view.breakdownName, rfl, h.breakdown⟩
  slice := by
    refine ⟨_, rfl, ?_⟩
    rw [List.forall₂_map_left_iff, List.forall₂_same]
    exact fun compared hcompared => ⟨h.resolve?_pathOf hnames hpoint hcompared, rfl, rfl⟩
  cuts := rfl
  measures := rfl
  order := rfl
  page := le_rfl
  pageSize? := rfl
  collection? := rfl

end View

/-! ## Plans that select the same -/

/-- Whether a predicate compares a field with the value that is read from a canonical text. -/
def FieldPredicate.Compares (schema : Schema) (p : FieldPredicate) (compared : Field × String) :
    Prop :=
  ∃ v, Value.ofText (schema.typeOf compared.1) compared.2 = .ok v ∧ v.display = compared.2 ∧
    p = ⟨compared.1, .compare .equal v⟩

/-- Conditions on resolved fields with canonical literals have predicates. -/
theorem exists_planConditions {schema : Schema} {group : List Condition}
    {compared : List (Field × String)}
    (hgroup : List.Forall₂ (Condition.Equates schema) group compared)
    (hcanonical : ∀ c ∈ compared, schema.IsCanonical c.1 c.2) :
    ∃ predicates, group.mapM (Query.planCondition schema) = .ok predicates ∧
      List.Forall₂ (FieldPredicate.Compares schema) predicates compared := by
  induction hgroup with
  | nil => exact ⟨[], rfl, .nil⟩
  | @cons c first group compared hfirst _ ih =>
    rw [List.forall_mem_cons] at hcanonical
    obtain ⟨predicates, hplanned, hcompares⟩ := ih hcanonical.2
    obtain ⟨hfield, hoperator, hliteral⟩ := hfirst
    obtain ⟨v, hread, hdisplay⟩ := hcanonical.1
    have hcondition : Query.planCondition schema c = .ok ⟨first.1, .compare .equal v⟩ := by
      rw [Query.planCondition, Query.resolve, hfield, hoperator, hliteral]
      show (Query.literalFor schema c.field first.1 first.2 >>= _) = _
      rw [Query.literalFor, hread]
      rfl
    refine ⟨_ :: predicates, ?_, .cons ⟨v, hread, hdisplay, rfl⟩ hcompares⟩
    rw [Outcome.mapM_cons, hcondition, hplanned]
    rfl

namespace View

/-- The plan of the query for the facts of a view. -/
theorem IsAskedBy.exists_plan {schema : Schema} {view : View} {member? : Option String}
    {query : Query} (h : view.IsAskedBy schema member? query)
    (hcanonical : ∀ c ∈ view.comparisons schema member?, schema.IsCanonical c.1 c.2) :
    ∃ predicates, List.Forall₂ (FieldPredicate.Compares schema) predicates
        (view.comparisons schema member?) ∧
      query.plan schema = .ok
        { view.planOf schema [] with
          drilldownNames := query.drilldowns
          slice := [predicates] } := by
  obtain ⟨path, hdrilldowns, hpath⟩ := h.drilldown
  obtain ⟨group, hslice, hgroup⟩ := h.slice
  obtain ⟨predicates, hplanned, hcompares⟩ := exists_planConditions hgroup hcanonical
  have hresolved : query.IsResolved schema
      { view.planOf schema [] with
        drilldownNames := query.drilldowns
        slice := [predicates] } :=
    { drilldowns := by
        rw [hdrilldowns, Outcome.mapM_cons, Query.resolve, hpath]
        rfl
      cuts := by
        rw [h.cuts]
        rfl
      slice := by
        rw [hslice, Outcome.mapM_cons, hplanned]
        rfl
      measures := by
        rw [h.measures]
        rfl
      order := by
        rw [h.order]
        rfl
      drilldownNames := rfl
      filters := rfl
      page := (Nat.max_eq_right h.page).symm
      pageSize? := h.pageSize?.symm
      collection? := h.collection?.symm }
  exact ⟨predicates, hcompares, hresolved.plan_eq⟩

end View

section Selection

variable {σ : Type} {arith : Arithmetic σ} {doc : Document} {schema : Schema} {view : View}

/-- Comparing the values of a fact accepts it iff comparing its texts does. -/
theorem all_accepts_eq (hvalid : doc.validate = .ok schema) {record : Record}
    (hrecord : schema.IsFact record) {predicates : List FieldPredicate}
    {compared : List (Field × String)}
    (h : List.Forall₂ (FieldPredicate.Compares schema) predicates compared) :
    (predicates.all fun p => p.accepts record.contents) =
      ((compared.map fun c => (⟨c.1, .text c.2⟩ : FieldPredicate)).all fun p =>
        p.accepts record.contents) := by
  induction h with
  | nil => rfl
  | cons hfirst _ ih =>
    obtain ⟨v, hread, hdisplay, rfl⟩ := hfirst
    rw [List.map_cons, List.all_cons, List.all_cons, ih,
      FieldPredicate.accepts_equal hvalid hrecord hread hdisplay]

/-- A fact brings the same to the query for the facts of a view as to the view. -/
theorem contribution?_asked (hvalid : doc.validate = .ok schema) {record : Record}
    (hrecord : schema.IsFact record) {predicates : List FieldPredicate}
    {compared : List (Field × String)} (drilldownNames : List String)
    (h : List.Forall₂ (FieldPredicate.Compares schema) predicates compared) :
    contribution? arith
        { view.planOf schema [] with drilldownNames := drilldownNames, slice := [predicates] }
        none record =
      contribution? arith (view.planOf schema compared) none record := by
  have hselects : Plan.selects
        { view.planOf schema [] with drilldownNames := drilldownNames, slice := [predicates] }
        record.contents =
      (view.planOf schema compared).selects record.contents := by
    simp only [Plan.selects, View.planOf, List.map_nil, List.all_nil, Bool.true_and,
      List.isEmpty_cons, Bool.false_or, List.any_cons, List.any_nil, Bool.or_false,
      List.isEmpty_nil, Bool.and_true]
    exact all_accepts_eq hvalid hrecord h
  rw [contribution?, contribution?, hselects]
  rfl

/-- Plans to which all records bring the same have the same groups. -/
theorem groupRecords_congr {plan other : Plan} {members? : Option (Std.TreeSet String)}
    {records : List Record}
    (h : ∀ record ∈ records,
      contribution? arith plan members? record = contribution? arith other members? record)
    (workers : Nat) :
    groupRecords arith plan members? workers records =
      groupRecords arith other members? workers records := by
  by_cases hfew : workers ≤ 1 ∨ records.length < 2 * leastPiece
  · rw [groupRecords_of_few hfew, groupRecords_of_few hfew, foldRecords, foldRecords,
      List.filterMap_congr h]
  · rw [groupRecords_of_many hfew, groupRecords_of_many hfew]
    congr 1
    refine List.map_congr_left fun piece hpiece => List.filterMap_congr fun record hrecord => ?_
    refine h record ?_
    rw [← (isCut_pieces workers records).flatten_eq]
    exact List.mem_flatten_of_mem hpiece hrecord

/-- The query for the facts of a view has an answer with the rows of all facts of the view. -/
theorem View.IsAskedBy.exists_aggregate (hvalid : doc.validate = .ok schema)
    {member? : Option String} {query : Query} (h : view.IsAskedBy schema member? query)
    (hcanonical : ∀ c ∈ view.comparisons schema member?, schema.IsCanonical c.1 c.2) {store : Store}
    (hstore : ∀ record ∈ store.toList, schema.IsFact record) (workers : Nat) :
    ∃ answer, store.aggregateWith arith schema workers query = .ok answer ∧
      answer.measures = (Query.allMeasures schema).map Prod.snd ∧
      answer.rows = groupRows arith (Query.allMeasures schema).length
        (groupRecords arith (view.planOf schema (view.comparisons schema member?)) none workers
          store.toList) := by
  obtain ⟨predicates, hcompares, hplan⟩ := h.exists_plan hcanonical
  refine ⟨_, Store.aggregateWith_of_plan hplan arith workers, rfl, ?_⟩
  rw [← groupRecords_congr (fun record hrecord =>
    contribution?_asked hvalid (hstore record hrecord) query.drilldowns hcompares) workers]
  exact Aggregate.rows_ofGroups rfl rfl rfl _

end Selection

/-! ## Views and queries -/

/-- What running a view gives, for a member or for all facts, and how its rows compare with those of
the query for the same facts. -/
structure View.RunsAsQuery {σ : Type} (schema : Schema) (store : Store) (view : View)
    (member? : Option String) (arith : Arithmetic σ) (workers : Nat)
    (outcome : Except ViewFault (ViewResult σ)) : Prop where
  /-- Only a view about the dataset cannot be run for a member. -/
  outcome_eq_error : view.scope = .dataset → member?.isSome = true →
    outcome = .error (.unsuitable view.name "dataset views have no members")
  exists_answer : (view.scope = .dataset → member? = none) → ∃ answer, outcome = .ok answer
  /-- The view is empty if it is restricted to another scope. -/
  rows_eq_nil : ¬view.MatchesScope schema → ∀ answer, outcome = .ok answer → answer.rows = []
  /-- Otherwise every query for the facts of the view has the same rows, if the texts that the view
  compares are canonical. -/
  rows_eq : view.MatchesScope schema →
    (∀ c ∈ view.comparisons schema member?, schema.IsCanonical c.1 c.2) →
    ∀ query, view.IsAskedBy schema member? query →
    ∀ answer, outcome = .ok answer →
      ∃ asked, store.aggregateWith arith schema workers query = .ok asked ∧
        asked.measures = answer.measures ∧ asked.rows = answer.rows
  /-- The texts for fields of strings always are. -/
  isCanonical_of_string : ∀ c ∈ view.comparisons schema member?,
    schema.typeOf c.1 = .string → schema.IsCanonical c.1 c.2
  /-- There is such a query if a path can name the dimension of the view. -/
  isAskedBy_query : '.' ∉ view.dimension.toList →
    view.IsAskedBy schema member? (view.query schema member?)

/-- Every view of a validated schema with a measure can be run on the facts of a store, and it has
the rows of the query for its facts: the same keys, sums and counts in the same order. -/
theorem Store.viewWith_rows {σ : Type} {doc : Document} {schema : Schema}
    (hvalid : doc.validate = .ok schema) (hmeasures : schema.measures ≠ []) {store : Store}
    (hstore : ∀ record ∈ store.toList, schema.IsFact record) {view : View}
    (hview : view ∈ schema.views) (member? : Option String) (arith : Arithmetic σ)
    (workers : Nat) :
    schema.view? view.scope.name view.name (some view.dimension) = some view ∧
      ∀ entity name dimension?, schema.view? entity name dimension? = some view →
        view.RunsAsQuery schema store member? arith workers
          (store.viewWith arith schema workers entity name dimension? member?) := by
  refine ⟨Document.view?_of_mem hvalid hview, fun entity name dimension? hfound => ?_⟩
  have hwell := Document.wellFormed_view hvalid hview
  have hnames := (Document.wellFormed_of_validate hvalid).names_nodup
  set plan := view.planOf schema (view.comparisons schema member?) with hplan
  have hrun : store.viewWith arith schema workers entity name dimension? member? =
      if view.scope = .dataset ∧ member?.isSome = true then
        .error (.unsuitable view.name "dataset views have no members")
      else .ok (view.answer arith schema plan
        (groupRecords arith plan none workers store.toList)) := by
    rw [viewWith_eq, hfound]
    simp only [hwell.plan_eq hmeasures member?]
    split <;> rfl
  rw [hrun]
  refine ⟨fun hscope hmember => if_pos ⟨hscope, hmember⟩, fun hnone => ⟨_, if_neg ?_⟩,
    fun hscope answer hanswer => ?_, fun hscope hcanonical query hquery answer hanswer => ?_,
    fun c _ hstring => Schema.isCanonical_of_string hstring c.2,
    fun hpoint => hwell.isAskedBy_query hnames hpoint member?⟩
  · rintro ⟨hscope, hmember⟩
    rw [hnone hscope] at hmember
    cases hmember
  · split at hanswer
    · cases hanswer
    · cases hanswer
      exact if_neg (View.scopeMatches_iff.not.2 hscope)
  · split at hanswer
    · cases hanswer
    · cases hanswer
      obtain ⟨asked, hasked, hmeasures, hrows⟩ :=
        @View.IsAskedBy.exists_aggregate _ arith _ _ _ hvalid _ _ hquery hcanonical _ hstore workers
      refine ⟨asked, hasked, hmeasures, hrows.trans ?_⟩
      exact (if_pos (View.scopeMatches_iff.2 hscope)).symm

/-! ## A sample -/

namespace Sample

/-- A document with a view on the paid amounts of each recipient, stage by stage, and two views on
those of all recipients, one in its own currency and one in another. -/
def paymentsDocument : Document where
  dataset := ⟨"payments", "", "", "GBP"⟩
  mapping := [("to.name", "to"), ("stage", "stage"), ("paid", "paid"), ("amount", "amount")]
  dimensions :=
    [("to", ⟨"entity", "", "", none, [("name", ⟨"string", none⟩)], none, false, false, none, none,
      none⟩),
     ("stage", ⟨"value", "", "", some "integer", [], none, false, false, none, none, none⟩),
     ("paid", ⟨"value", "", "", some "boolean", [], none, false, false, none, none, none⟩),
     ("amount", ⟨"measure", "", "", some "float", [], none, false, false, none, none, none⟩)]
  views :=
    [⟨"entity", "", "stages", "to", "stage", [("paid", .boolean true)]⟩,
     ⟨"dataset", "", "pounds", "dataset", "stage",
      [("currency", .text "GBP"), ("paid", .boolean true)]⟩,
     ⟨"dataset", "", "euros", "dataset", "stage", [("currency", .text "EUR")]⟩]

/-- The view for a recipient. -/
def stagesView : View where
  scope := .entity
  name := "stages"
  label := ""
  subject? := some 0
  dimension := "to"
  breakdown := .scalar 1
  breakdownName := "stage"
  filters := [.fact "paid" (.scalar 2) "true"]

/-- The view in the currency of the document. -/
def poundsView : View where
  scope := .dataset
  name := "pounds"
  label := ""
  subject? := none
  dimension := "dataset"
  breakdown := .scalar 1
  breakdownName := "stage"
  filters := [.scope "currency" .datasetCurrency "GBP", .fact "paid" (.scalar 2) "true"]

/-- The view in another currency. -/
def eurosView : View where
  scope := .dataset
  name := "euros"
  label := ""
  subject? := none
  dimension := "dataset"
  breakdown := .scalar 1
  breakdownName := "stage"
  filters := [.scope "currency" .datasetCurrency "EUR"]

/-- The schema of the document. -/
def paymentsSchema : Schema where
  dataset := ⟨"payments", "", "", "GBP"⟩
  dimensions :=
    [⟨"to", .entity, "", "", false, false, none, none, none,
      .compound [⟨"name", .string, none⟩]⟩,
     ⟨"stage", .value, "", "", false, false, none, none, none, .scalar .integer none⟩,
     ⟨"paid", .value, "", "", false, false, none, none, none, .scalar .boolean none⟩,
     ⟨"amount", .measure, "", "", false, false, none, none, none, .scalar .float none⟩]
  fields :=
    [⟨"to.name", "to", .component 0 0, .string, none, true⟩,
     ⟨"stage", "stage", .scalar 1, .integer, none, false⟩,
     ⟨"paid", "paid", .scalar 2, .boolean, none, false⟩,
     ⟨"amount", "amount", .scalar 3, .float, none, false⟩]
  taxonomies := []
  views := [stagesView, poundsView, eurosView]

theorem validate_payments : paymentsDocument.validate = .ok paymentsSchema := rfl

/-- A row of the document. -/
def paymentRow (recipient stage paid amount : String) : Row :=
  Row.ofList [("to", recipient), ("stage", stage), ("paid", paid), ("amount", amount)]

/-- A store with payments to two recipients. -/
def paymentsStore : Store :=
  ((loadRows paymentsSchema .strict 1
    [paymentRow "Acme" "1" "yes" "5", paymentRow "Acme" "02" "true" "7",
     paymentRow "Bolt" "1" "true" "9", paymentRow "Acme" "1" "no" "11"]).run .empty).2

theorem isFact_paymentsStore : ∀ record ∈ paymentsStore.toList, paymentsSchema.IsFact record :=
  Store.Built.isFact (.load .strict 1 _ .empty)

/-- The query for the paid amounts of a recipient. -/
def paymentsQuery (member : String) : Query :=
  { Query.all with
    drilldowns := ["stage"]
    slice := [[⟨"paid", .equal, "true"⟩, ⟨"to", .equal, member⟩]] }

theorem comparisons_stagesView (member : String) :
    stagesView.comparisons paymentsSchema (some member) =
      [(.scalar 2, "true"), (.component 0 0, member)] := rfl

theorem isAskedBy_paymentsQuery (member : String) :
    stagesView.IsAskedBy paymentsSchema (some member) (paymentsQuery member) where
  drilldown := ⟨"stage", rfl, rfl⟩
  slice := by
    rw [comparisons_stagesView]
    have hrecipient : paymentsSchema.resolve? "to" = some (.component 0 0) := by decide
    exact ⟨_, rfl, .cons ⟨rfl, rfl, rfl⟩ (.cons ⟨hrecipient, rfl, rfl⟩ .nil)⟩
  cuts := rfl
  measures := rfl
  order := rfl
  page := le_rfl
  pageSize? := rfl
  collection? := rfl

theorem isCanonical_stagesView (member : String) :
    ∀ c ∈ stagesView.comparisons paymentsSchema (some member),
      paymentsSchema.IsCanonical c.1 c.2 := by
  rw [comparisons_stagesView]
  exact List.forall_mem_cons.2 ⟨⟨.boolean true, rfl, rfl⟩,
    List.forall_mem_singleton.2 ⟨.string member, rfl, rfl⟩⟩

/-- The query for the paid amounts of all recipients. -/
def paidQuery : Query :=
  { Query.all with
    drilldowns := ["stage"]
    slice := [[⟨"paid", .equal, "true"⟩]] }

theorem comparisons_poundsView :
    poundsView.comparisons paymentsSchema none = [(.scalar 2, "true")] := rfl

theorem isAskedBy_paidQuery : poundsView.IsAskedBy paymentsSchema none paidQuery where
  drilldown := ⟨"stage", rfl, rfl⟩
  slice := by
    rw [comparisons_poundsView]
    exact ⟨_, rfl, .cons ⟨rfl, rfl, rfl⟩ .nil⟩
  cuts := rfl
  measures := rfl
  order := rfl
  page := le_rfl
  pageSize? := rfl
  collection? := rfl

theorem isCanonical_poundsView :
    ∀ c ∈ poundsView.comparisons paymentsSchema none, paymentsSchema.IsCanonical c.1 c.2 := by
  rw [comparisons_poundsView]
  exact List.forall_mem_singleton.2 ⟨.boolean true, rfl, rfl⟩

theorem matchesScope_stagesView : stagesView.MatchesScope paymentsSchema :=
  View.scopeMatches_iff.1 rfl

theorem matchesScope_poundsView : poundsView.MatchesScope paymentsSchema :=
  View.scopeMatches_iff.1 (by decide)

theorem not_matchesScope_eurosView : ¬eurosView.MatchesScope paymentsSchema := by
  intro h
  have hcurrency : "GBP" = "EUR" := h.currency "EUR" ⟨"currency", List.mem_singleton_self _⟩
  exact absurd hcurrency (by decide)

end Sample

/-- The view for a recipient has the rows of the query, also for one without payments; so has the
view in the currency of the document, and the view in another currency is empty. -/
theorem Store.viewWith_rows_sample :
    Sample.paymentsDocument.validate = .ok Sample.paymentsSchema ∧
      Sample.paymentsSchema.measures ≠ [] ∧
      (∀ record ∈ Sample.paymentsStore.toList, Sample.paymentsSchema.IsFact record) ∧
      Sample.paymentsSchema.views = [Sample.stagesView, Sample.poundsView, Sample.eurosView] ∧
      (∀ member ∈ ["Acme", "Nobody"], ∃ answer asked,
        Sample.paymentsStore.viewWith .binary64 Sample.paymentsSchema 1 "entity" "stages" none
          (some member) = .ok answer ∧
        Sample.paymentsStore.aggregateWith .binary64 Sample.paymentsSchema 1
          (Sample.paymentsQuery member) = .ok asked ∧ asked.rows = answer.rows) ∧
      (Sample.poundsView.MatchesScope Sample.paymentsSchema ∧ ∃ answer asked,
        Sample.paymentsStore.viewWith .binary64 Sample.paymentsSchema 1 "dataset" "pounds" none
          none = .ok answer ∧
        Sample.paymentsStore.aggregateWith .binary64 Sample.paymentsSchema 1 Sample.paidQuery =
          .ok asked ∧ asked.rows = answer.rows) ∧
      ¬Sample.eurosView.MatchesScope Sample.paymentsSchema ∧ ∃ answer,
        Sample.paymentsStore.viewWith .binary64 Sample.paymentsSchema 1 "dataset" "euros" none
          none = .ok answer ∧ answer.rows = [] := by
  have hmeasures : Sample.paymentsSchema.measures ≠ [] := List.cons_ne_nil (3, _) []
  have hruns := fun {view} (hview : view ∈ Sample.paymentsSchema.views) member? =>
    viewWith_rows Sample.validate_payments hmeasures Sample.isFact_paymentsStore hview member?
      .binary64 1
  refine ⟨Sample.validate_payments, hmeasures, Sample.isFact_paymentsStore, rfl,
    fun member _ => ?_, ⟨Sample.matchesScope_poundsView, ?_⟩,
    Sample.not_matchesScope_eurosView, ?_⟩
  · have hstages := (hruns (.head _) (some member)).2 "entity" "stages" none rfl
    obtain ⟨answer, hanswer⟩ := hstages.exists_answer nofun
    obtain ⟨asked, hasked, -, hrows⟩ :=
      hstages.rows_eq Sample.matchesScope_stagesView (Sample.isCanonical_stagesView member) _
        (Sample.isAskedBy_paymentsQuery member) _ hanswer
    exact ⟨answer, asked, hanswer, hasked, hrows⟩
  · have hpounds := (hruns (.tail _ (.head _)) none).2 "dataset" "pounds" none rfl
    obtain ⟨answer, hanswer⟩ := hpounds.exists_answer fun _ => rfl
    obtain ⟨asked, hasked, -, hrows⟩ :=
      hpounds.rows_eq Sample.matchesScope_poundsView Sample.isCanonical_poundsView _
        Sample.isAskedBy_paidQuery _ hanswer
    exact ⟨answer, asked, hanswer, hasked, hrows⟩
  · have heuros := (hruns (.tail _ (.tail _ (.head _))) none).2 "dataset" "euros" none rfl
    obtain ⟨answer, hanswer⟩ := heuros.exists_answer fun _ => rfl
    exact ⟨answer, hanswer, heuros.rows_eq_nil Sample.not_matchesScope_eurosView _ hanswer⟩

end FactCube
