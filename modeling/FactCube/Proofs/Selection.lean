import FactCube.Proofs.Paths
import FactCube.Proofs.PlannedFacts

/-!
# Selection

A plan keeps its cuts in a table of fields and values, which is filled cut by cut: a field that is
there takes one more value, another field comes last. Whatever the order of the cuts, the table
holds every field once and under it the values of all cuts to that field, so cuts to one field are
alternatives and cuts to several fields must all be met. A slice is met by any of its groups, and a
group by all of its conditions.

Results:
* `Operator.accepts_iff`: the orders that an operator accepts are those of which it is true.
* `Query.isCutTable_of_planCuts`: the fields and values of the table are those of the cuts.
* `Query.selects_iff_of_plan`: what a plan selects, said in terms of its query.
* `Query.isSelection_of_plan`: the same, and the ways of writing the query between which selection
  does not tell: other orders, repetitions and paths, and cuts as a slice.
-/

namespace FactCube

/-! ## Meaning -/

/-- Whether the value at a field equals the literal of a cut. -/
def Cut.IsMetAt (schema : Schema) (contents : Contents) (field : Field) (cut : Cut) : Prop :=
  ∃ literal value, Value.ofText (schema.typeOf field) cut.value = .ok literal ∧
    valueAt contents field = some value ∧ value.compare literal = .eq

/-- Whether an operator is true of a value and a literal in an order. -/
def Operator.Holds (order : Ordering) : Operator → Prop
  | .equal => order = .eq
  | .notEqual => order = .lt ∨ order = .gt
  | .greater => order = .gt
  | .greaterOrEqual => order = .gt ∨ order = .eq
  | .less => order = .lt
  | .lessOrEqual => order = .lt ∨ order = .eq

/-- Whether a condition is true: its operator is true of the value at its field and its literal. -/
def Condition.IsMet (schema : Schema) (contents : Contents) (c : Condition) : Prop :=
  ∃ field literal value, schema.resolve? c.field = some field ∧
    Value.ofText (schema.typeOf field) c.literal = .ok literal ∧
    valueAt contents field = some value ∧ c.operator.Holds (value.compare literal)

/-- Whether contents meet the restrictions of a query. -/
structure Query.IsMet (schema : Schema) (contents : Contents) (query : Query) : Prop where
  /-- For every field that is cut to some values, one of the cuts to this field is met. -/
  cuts : ∀ field, (∃ cut ∈ query.cuts, schema.resolve? cut.field = some field) →
    ∃ cut ∈ query.cuts, schema.resolve? cut.field = some field ∧ cut.IsMetAt schema contents field
  /-- There is no slice, or all conditions of one of its groups are true. -/
  slice : query.slice = [] ∨ ∃ group ∈ query.slice, ∀ c ∈ group, c.IsMet schema contents

/-- An operator accepts the orders of which it is true. -/
theorem Operator.accepts_iff {operator : Operator} {order : Ordering} :
    operator.accepts order = true ↔ operator.Holds order := by
  cases operator <;> cases order <;> simp [accepts, Holds]

namespace Query

variable {schema : Schema}

/-! ## Planned cuts and conditions -/

/-- A cut with its path as a field and its text as a value. -/
def planCut (schema : Schema) (cut : Cut) : Except QueryFault (Field × Value) := do
  let field ← resolve schema cut.field
  let value ← literalFor schema cut.field field cut.value
  .ok (field, value)

theorem resolve_eq_ok_iff {path : String} {field : Field} :
    resolve schema path = .ok field ↔ schema.resolve? path = some field := by
  rw [resolve]
  cases schema.resolve? path <;> simp

theorem literalFor_eq_ok_iff {path text : String} {field : Field} {value : Value} :
    literalFor schema path field text = .ok value ↔
      Value.ofText (schema.typeOf field) text = .ok value := by
  rw [literalFor]
  cases Value.ofText (schema.typeOf field) text <;> simp

theorem planCut_eq_ok_iff {cut : Cut} {field : Field} {value : Value} :
    planCut schema cut = .ok (field, value) ↔
      schema.resolve? cut.field = some field ∧
        Value.ofText (schema.typeOf field) cut.value = .ok value := by
  simp only [planCut, Outcome.bind_eq_ok_iff, resolve_eq_ok_iff, literalFor_eq_ok_iff,
    Except.ok.injEq, Prod.mk.injEq]
  constructor
  · rintro ⟨_, hfield, _, hvalue, rfl, rfl⟩
    exact ⟨hfield, hvalue⟩
  · exact fun ⟨hfield, hvalue⟩ => ⟨field, hfield, value, hvalue, rfl, rfl⟩

theorem planCondition_eq_ok_iff {c : Condition} {p : FieldPredicate} :
    planCondition schema c = .ok p ↔
      ∃ field literal, schema.resolve? c.field = some field ∧
        Value.ofText (schema.typeOf field) c.literal = .ok literal ∧
        p = ⟨field, .compare c.operator literal⟩ := by
  simp only [planCondition, Outcome.bind_eq_ok_iff, resolve_eq_ok_iff, literalFor_eq_ok_iff,
    Except.ok.injEq]
  constructor
  · rintro ⟨field, hfield, literal, hliteral, rfl⟩
    exact ⟨field, literal, hfield, hliteral, rfl⟩
  · rintro ⟨field, literal, hfield, hliteral, rfl⟩
    exact ⟨field, hfield, literal, hliteral, rfl⟩

/-- A planned condition accepts the contents for which the condition is true. -/
theorem accepts_iff_of_planCondition {c : Condition} {p : FieldPredicate}
    (h : planCondition schema c = .ok p) (contents : Contents) :
    p.accepts contents = true ↔ c.IsMet schema contents := by
  obtain ⟨field, literal, hfield, hliteral, rfl⟩ := planCondition_eq_ok_iff.1 h
  simp only [FieldPredicate.accepts, Condition.IsMet, hfield, Option.some.injEq, exists_and_left,
    exists_eq_left', hliteral, Except.ok.injEq]
  cases valueAt contents field with
  | none => simp
  | some value => simp [Predicate.accepts, Operator.accepts_iff]

/-! ## The table of cuts -/

/-- Planning cuts is reading them one by one and adding each to the table. -/
theorem planCuts_eq (planned : List (Field × List Value)) (cuts : List Cut) :
    planCuts schema planned cuts =
      (cuts.mapM (planCut schema)).map
        (List.foldl (fun planned pair => addCut pair.1 pair.2 planned) planned) := by
  induction cuts generalizing planned with
  | nil => rfl
  | cons cut cuts ih =>
    rw [planCuts, Outcome.mapM_cons, planCut]
    cases resolve schema cut.field with
    | error fault => rfl
    | ok field =>
      dsimp only [bind, Except.bind]
      cases literalFor schema cut.field field cut.value with
      | error fault => rfl
      | ok value =>
        dsimp only
        rw [ih, Outcome.map_map]
        rfl

/-- Cuts have a table iff each of them can be planned. -/
theorem exists_planCuts_iff {cuts : List Cut} :
    (∃ table, planCuts schema [] cuts = .ok table) ↔
      ∀ cut ∈ cuts, ∃ pair, planCut schema cut = .ok pair := by
  rw [← Outcome.exists_mapM_eq_ok_iff]
  simp only [planCuts_eq, Outcome.map_eq_ok_iff]
  exact ⟨fun ⟨_, pairs, hpairs, _⟩ => ⟨pairs, hpairs⟩,
    fun ⟨pairs, hpairs⟩ => ⟨_, pairs, hpairs, rfl⟩⟩

/-- A table of cuts: every field once, and under it the values it is cut to. -/
structure IsCutTable (pairs : List (Field × Value)) (table : List (Field × List Value)) : Prop where
  nodup : (table.map Prod.fst).Nodup
  mem_iff : ∀ field value,
    (field, value) ∈ pairs ↔ ∃ values, (field, values) ∈ table ∧ value ∈ values
  ne_nil : ∀ entry ∈ table, entry.2 ≠ []

/-- A field that is in the table keeps its place, another one comes last. -/
theorem map_fst_addCut (field : Field) (value : Value) (table : List (Field × List Value)) :
    (addCut field value table).map Prod.fst =
      if field ∈ table.map Prod.fst then table.map Prod.fst
      else table.map Prod.fst ++ [field] := by
  induction table with
  | nil => rfl
  | cons entry table ih =>
    obtain ⟨other, values⟩ := entry
    rw [addCut]
    by_cases heq : other = field
    · simp [heq]
    · have hne : field ≠ other := Ne.symm heq
      simp only [beq_iff_eq, heq, if_false, List.map_cons, ih, List.mem_cons, hne, false_or]
      split <;> rfl

theorem nodup_addCut {field : Field} {value : Value} {table : List (Field × List Value)}
    (h : (table.map Prod.fst).Nodup) : ((addCut field value table).map Prod.fst).Nodup := by
  rw [map_fst_addCut]
  split
  · exact h
  · rename_i hnew
    rw [← List.concat_eq_append]
    exact h.concat hnew

/-- Adding a cut to the table gives one more value to its field and none to any other. -/
theorem exists_mem_addCut_iff {field other : Field} {value literal : Value}
    {table : List (Field × List Value)} :
    (∃ values, (other, values) ∈ addCut field value table ∧ literal ∈ values) ↔
      (∃ values, (other, values) ∈ table ∧ literal ∈ values) ∨
        other = field ∧ literal = value := by
  induction table with
  | nil => simp [addCut]
  | cons entry table ih =>
    obtain ⟨first, values⟩ := entry
    rw [addCut]
    by_cases heq : first = field
    · subst heq
      simp only [beq_self_eq_true, if_true, List.mem_cons, Prod.mk.injEq]
      constructor
      · rintro ⟨_, ⟨rfl, rfl⟩ | hmem, hliteral⟩
        · rcases List.mem_append.1 hliteral with hliteral | hliteral
          · exact .inl ⟨values, .inl ⟨rfl, rfl⟩, hliteral⟩
          · exact .inr ⟨rfl, List.mem_singleton.1 hliteral⟩
        · exact .inl ⟨_, .inr hmem, hliteral⟩
      · rintro (⟨_, ⟨rfl, rfl⟩ | hmem, hliteral⟩ | ⟨rfl, rfl⟩)
        · exact ⟨_, .inl ⟨rfl, rfl⟩, List.mem_append_left _ hliteral⟩
        · exact ⟨_, .inr hmem, hliteral⟩
        · exact ⟨_, .inl ⟨rfl, rfl⟩, List.mem_append_right _ List.mem_cons_self⟩
    · simp only [beq_iff_eq, heq, if_false, List.mem_cons, or_and_right, exists_or, ih, or_assoc]

theorem ne_nil_of_mem_addCut {field : Field} {value : Value} {table : List (Field × List Value)}
    (h : ∀ entry ∈ table, entry.2 ≠ []) : ∀ entry ∈ addCut field value table, entry.2 ≠ [] := by
  induction table with
  | nil => simp [addCut]
  | cons entry table ih =>
    rw [List.forall_mem_cons] at h
    rw [addCut]
    split
    · exact List.forall_mem_cons.2 ⟨by simp, h.2⟩
    · exact List.forall_mem_cons.2 ⟨h.1, ih h.2⟩

/-- One more cut keeps the table. -/
theorem IsCutTable.add {pairs : List (Field × Value)} {table : List (Field × List Value)}
    (h : IsCutTable pairs table) (pair : Field × Value) :
    IsCutTable (pairs ++ [pair]) (addCut pair.1 pair.2 table) := by
  refine ⟨nodup_addCut h.nodup, fun field value => ?_, ne_nil_of_mem_addCut h.ne_nil⟩
  rw [exists_mem_addCut_iff, ← h.mem_iff, List.mem_append, List.mem_singleton, Prod.ext_iff]

/-- All cuts make up the table, in any order. -/
theorem isCutTable_foldl (pairs : List (Field × Value)) :
    IsCutTable pairs (pairs.foldl (fun table pair => addCut pair.1 pair.2 table) []) := by
  induction pairs using List.reverseRecOn with
  | nil => exact ⟨.nil, by simp, by simp⟩
  | append_singleton pairs pair ih =>
    rw [List.foldl_append]
    exact ih.add pair

/-- The fields and values of a planned table are those of the cuts. -/
theorem isCutTable_of_planCuts {cuts : List Cut} {table : List (Field × List Value)}
    (h : planCuts schema [] cuts = .ok table) :
    ∃ pairs, cuts.mapM (planCut schema) = .ok pairs ∧ IsCutTable pairs table := by
  rw [planCuts_eq, Outcome.map_eq_ok_iff] at h
  obtain ⟨pairs, hpairs, rfl⟩ := h
  exact ⟨pairs, hpairs, isCutTable_foldl pairs⟩

/-- A table accepts contents iff for every field of it the value equals one of those it is cut
to. -/
theorem IsCutTable.all_acceptsCut_iff {pairs : List (Field × Value)}
    {table : List (Field × List Value)} (h : IsCutTable pairs table) (contents : Contents) :
    table.all (Plan.acceptsCut contents) = true ↔
      ∀ field, (∃ value, (field, value) ∈ pairs) →
        ∃ literal value, (field, literal) ∈ pairs ∧ valueAt contents field = some value ∧
          value.compare literal = .eq := by
  rw [List.all_eq_true]
  constructor
  · rintro haccepts field ⟨value, hpair⟩
    obtain ⟨values, hentry, -⟩ := (h.mem_iff field value).1 hpair
    have haccepted := haccepts _ hentry
    rw [Plan.acceptsCut] at haccepted
    split at haccepted
    · rename_i found hfound
      obtain ⟨literal, hliteral, hsame⟩ := List.any_eq_true.1 haccepted
      exact ⟨literal, found, (h.mem_iff field literal).2 ⟨values, hentry, hliteral⟩, hfound,
        beq_iff_eq.1 hsame⟩
    · cases haccepted
  · rintro hmet ⟨field, values⟩ hentry
    obtain ⟨value, hvalue⟩ := List.exists_mem_of_ne_nil _ (h.ne_nil _ hentry)
    obtain ⟨literal, found, hpair, hfound, hsame⟩ :=
      hmet field ⟨value, (h.mem_iff field value).2 ⟨values, hentry, hvalue⟩⟩
    obtain ⟨others, hother, hliteral⟩ := (h.mem_iff field literal).1 hpair
    -- the field is in the table once, so the literal is among its values
    have heq := List.inj_on_of_nodup_map h.nodup hother hentry rfl
    cases heq
    rw [Plan.acceptsCut, hfound]
    exact List.any_eq_true.2 ⟨literal, hliteral, beq_iff_eq.2 hsame⟩

/-! ## What a plan selects -/

/-- The restrictions of a query are met iff those of its plan are. -/
theorem all_acceptsCut_iff_of_planCuts {cuts : List Cut} {table : List (Field × List Value)}
    (h : planCuts schema [] cuts = .ok table) (contents : Contents) :
    table.all (Plan.acceptsCut contents) = true ↔
      ∀ field, (∃ cut ∈ cuts, schema.resolve? cut.field = some field) →
        ∃ cut ∈ cuts, schema.resolve? cut.field = some field ∧
          cut.IsMetAt schema contents field := by
  obtain ⟨pairs, hpairs, htable⟩ := isCutTable_of_planCuts h
  rw [htable.all_acceptsCut_iff]
  simp only [Outcome.mem_iff_of_mapM hpairs, planCut_eq_ok_iff]
  constructor
  · rintro hmet field ⟨cut, hcut, hfield⟩
    obtain ⟨⟨other, value⟩, hplanned⟩ := Outcome.exists_mapM_eq_ok_iff.1 ⟨pairs, hpairs⟩ cut hcut
    obtain ⟨hother, hvalue⟩ := planCut_eq_ok_iff.1 hplanned
    obtain rfl : other = field := Option.some.inj (hother.symm.trans hfield)
    obtain ⟨literal, found, ⟨cut', hcut', hfield', hliteral⟩, hfound, hsame⟩ :=
      hmet other ⟨value, cut, hcut, hfield, hvalue⟩
    exact ⟨cut', hcut', hfield', literal, found, hliteral, hfound, hsame⟩
  · rintro hmet field ⟨value, cut, hcut, hfield, hvalue⟩
    obtain ⟨cut', hcut', hfield', literal, found, hliteral, hfound, hsame⟩ :=
      hmet field ⟨cut, hcut, hfield⟩
    exact ⟨literal, found, ⟨cut', hcut', hfield', hliteral⟩, hfound, hsame⟩

/-- A planned group accepts the contents for which all its conditions are true. -/
theorem all_accepts_iff_of_mapM {group : List Condition} {planned : List FieldPredicate}
    (h : group.mapM (planCondition schema) = .ok planned) (contents : Contents) :
    (planned.all fun p => p.accepts contents) = true ↔
      ∀ c ∈ group, c.IsMet schema contents := by
  rw [List.all_eq_true]
  exact (Validation.forall_mem_iff_of_forall₂ (Outcome.mapM_eq_ok_iff.1 h) fun _ _ hc =>
    (accepts_iff_of_planCondition hc contents).symm).symm

theorem slice_iff_of_mapM {slice : List (List Condition)} {planned : List (List FieldPredicate)}
    (h : (slice.mapM fun group => group.mapM (planCondition schema)) = .ok planned)
    (contents : Contents) :
    (planned.isEmpty || planned.any fun group => group.all fun p => p.accepts contents) = true ↔
      slice = [] ∨ ∃ group ∈ slice, ∀ c ∈ group, c.IsMet schema contents := by
  rw [Bool.or_eq_true, List.isEmpty_iff, List.any_eq_true]
  refine or_congr ?_ ?_
  · rw [← List.length_eq_zero_iff, ← List.length_eq_zero_iff,
      (Outcome.mapM_eq_ok_iff.1 h).length_eq]
  · simp only [Outcome.mem_iff_of_mapM h]
    constructor
    · rintro ⟨planned, ⟨group, hgroup, hplanned⟩, haccepts⟩
      exact ⟨group, hgroup, (all_accepts_iff_of_mapM hplanned contents).1 haccepts⟩
    · rintro ⟨group, hgroup, hmet⟩
      obtain ⟨planned, hplanned⟩ := Outcome.exists_mapM_eq_ok_iff.1 ⟨_, h⟩ group hgroup
      exact ⟨planned, ⟨group, hgroup, hplanned⟩,
        (all_accepts_iff_of_mapM hplanned contents).2 hmet⟩

/-- A plan selects the contents that meet the restrictions of its query. -/
theorem selects_iff_of_plan {query : Query} {plan : Plan} (h : query.plan schema = .ok plan)
    (contents : Contents) : plan.selects contents = true ↔ query.IsMet schema contents := by
  have hresolved := resolved_of_plan h
  rw [Plan.selects, hresolved.filters, List.all_nil, Bool.true_and, Bool.and_eq_true,
    all_acceptsCut_iff_of_planCuts hresolved.cuts, slice_iff_of_mapM hresolved.slice]
  exact ⟨fun ⟨hcuts, hslice⟩ => ⟨hcuts, hslice⟩, fun hmet => ⟨hmet.cuts, hmet.slice⟩⟩

/-! ## Other ways of writing a query -/

/-- Whether another query has a plan that selects the same as a plan. -/
def SelectsAs (schema : Schema) (plan : Plan) (other : Query) : Prop :=
  ∃ otherPlan, other.plan schema = .ok otherPlan ∧
    ∀ contents, otherPlan.selects contents = plan.selects contents

/-- A query with other restrictions that have a plan and are met by the same contents selects the
same. -/
theorem selectsAs_of_isMet_iff {query : Query} {plan : Plan} (h : query.plan schema = .ok plan)
    {cuts : List Cut} {slice : List (List Condition)}
    (hcuts : ∀ cut ∈ cuts, ∃ pair, planCut schema cut = .ok pair)
    (hslice : ∀ group ∈ slice, ∀ c ∈ group, ∃ p, planCondition schema c = .ok p)
    (hmet : ∀ contents,
      ({ query with cuts := cuts, slice := slice } : Query).IsMet schema contents ↔
        query.IsMet schema contents) :
    SelectsAs schema plan { query with cuts := cuts, slice := slice } := by
  have hresolved := resolved_of_plan h
  obtain ⟨table, htable⟩ := exists_planCuts_iff.2 hcuts
  have hgroups : ∀ group ∈ slice, ∃ planned, group.mapM (planCondition schema) = .ok planned :=
    fun group hgroup => Outcome.exists_mapM_eq_ok_iff.2 (hslice group hgroup)
  obtain ⟨groups, hgroups⟩ := Outcome.exists_mapM_eq_ok_iff.2 hgroups
  have hother : ({ query with cuts := cuts, slice := slice } : Query).plan schema =
      .ok { plan with cuts := table, slice := groups } :=
    IsResolved.plan_eq { hresolved with cuts := htable, slice := hgroups }
  refine ⟨_, hother, fun contents => ?_⟩
  rw [Bool.eq_iff_iff, selects_iff_of_plan hother, hmet, selects_iff_of_plan h]

end Query

/-! ## Order, repetition and paths -/

/-- Whether each item of one list has a counterpart in the other, whatever their order and
number. -/
def Counterparts {α : Type} (r : α → α → Prop) (as bs : List α) : Prop :=
  (∀ a ∈ as, ∃ b ∈ bs, r a b) ∧ ∀ b ∈ bs, ∃ a ∈ as, r a b

/-- Lists with the same members, such as permutations and repetitions, are counterparts. -/
theorem Counterparts.of_subset {α : Type} {r : α → α → Prop} (hr : ∀ a, r a a) {as bs : List α}
    (h : as ⊆ bs) (h' : bs ⊆ as) : Counterparts r as bs :=
  ⟨fun a ha => ⟨a, h ha, hr a⟩, fun b hb => ⟨b, h' hb, hr b⟩⟩

theorem Counterparts.symm {α : Type} {r : α → α → Prop} (hr : ∀ a b, r a b → r b a)
    {as bs : List α} (h : Counterparts r as bs) : Counterparts r bs as :=
  ⟨fun b hb => (h.2 b hb).imp fun _ ha => ⟨ha.1, hr _ _ ha.2⟩,
    fun a ha => (h.1 a ha).imp fun _ hb => ⟨hb.1, hr _ _ hb.2⟩⟩

theorem Counterparts.refl {α : Type} {r : α → α → Prop} (hr : ∀ a, r a a) (as : List α) :
    Counterparts r as as :=
  .of_subset hr (List.Subset.refl as) (List.Subset.refl as)

/-- Whether two cuts name the same field, by any path, and the same text. -/
structure Cut.Alike (schema : Schema) (a b : Cut) : Prop where
  field : schema.resolve? a.field = schema.resolve? b.field
  value : a.value = b.value

/-- Whether two conditions name the same field, by any path, and compare it with the same text in
the same way. -/
structure Condition.Alike (schema : Schema) (a b : Condition) : Prop where
  field : schema.resolve? a.field = schema.resolve? b.field
  operator : a.operator = b.operator
  literal : a.literal = b.literal

section Alike

variable {schema : Schema}

theorem Cut.Alike.refl (a : Cut) : a.Alike schema a := ⟨rfl, rfl⟩

theorem Condition.Alike.refl (a : Condition) : a.Alike schema a := ⟨rfl, rfl, rfl⟩

theorem Cut.Alike.symm {a b : Cut} (h : a.Alike schema b) : b.Alike schema a :=
  ⟨h.field.symm, h.value.symm⟩

theorem Condition.Alike.symm {a b : Condition} (h : a.Alike schema b) : b.Alike schema a :=
  ⟨h.field.symm, h.operator.symm, h.literal.symm⟩

theorem Cut.Alike.planCut {a b : Cut} (h : a.Alike schema b) {pair : Field × Value}
    (ha : Query.planCut schema a = .ok pair) : Query.planCut schema b = .ok pair := by
  obtain ⟨field, value⟩ := pair
  rw [Query.planCut_eq_ok_iff, h.field, h.value] at ha
  exact Query.planCut_eq_ok_iff.2 ha

theorem Condition.Alike.planCondition {a b : Condition} (h : a.Alike schema b)
    {p : FieldPredicate} (ha : Query.planCondition schema a = .ok p) :
    Query.planCondition schema b = .ok p := by
  rw [Query.planCondition_eq_ok_iff, h.field, h.operator, h.literal] at ha
  exact Query.planCondition_eq_ok_iff.2 ha

theorem Condition.Alike.isMet {a b : Condition} (h : a.Alike schema b) {contents : Contents}
    (ha : a.IsMet schema contents) : b.IsMet schema contents := by
  rw [Condition.IsMet, h.field, h.operator, h.literal] at ha
  exact ha

/-- Restrictions with counterparts are met by the same contents. -/
theorem Query.IsMet.of_counterparts {query other : Query} {contents : Contents}
    (hcuts : Counterparts (Cut.Alike schema) query.cuts other.cuts)
    (hslice : Counterparts (Counterparts (Condition.Alike schema)) query.slice other.slice)
    (h : query.IsMet schema contents) : other.IsMet schema contents := by
  constructor
  · rintro field ⟨cut, hcut, hfield⟩
    obtain ⟨cut₁, hcut₁, halike₁⟩ := hcuts.2 cut hcut
    obtain ⟨cut₂, hcut₂, hfield₂, hmet⟩ := h.cuts field ⟨cut₁, hcut₁, halike₁.field.trans hfield⟩
    obtain ⟨cut₃, hcut₃, halike₃⟩ := hcuts.1 cut₂ hcut₂
    refine ⟨cut₃, hcut₃, halike₃.field.symm.trans hfield₂, ?_⟩
    rwa [Cut.IsMetAt, halike₃.value] at hmet
  · rcases h.slice with hnil | ⟨group, hgroup, hmet⟩
    · refine .inl (List.eq_nil_iff_forall_not_mem.2 fun group hgroup => ?_)
      obtain ⟨_, hmem, -⟩ := hslice.2 group hgroup
      rw [hnil] at hmem
      cases hmem
    · obtain ⟨group', hgroup', halike⟩ := hslice.1 group hgroup
      refine .inr ⟨group', hgroup', fun c hc => ?_⟩
      obtain ⟨c', hc', halike'⟩ := halike.2 c hc
      exact halike'.isMet (hmet c' hc')

/-- A query whose cuts, groups and conditions have counterparts selects the same. -/
theorem Query.selectsAs_of_counterparts {query : Query} {plan : Plan}
    (h : query.plan schema = .ok plan) {cuts : List Cut} {slice : List (List Condition)}
    (hcuts : Counterparts (Cut.Alike schema) query.cuts cuts)
    (hslice : Counterparts (Counterparts (Condition.Alike schema)) query.slice slice) :
    SelectsAs schema plan { query with cuts := cuts, slice := slice } := by
  have hresolved := resolved_of_plan h
  refine selectsAs_of_isMet_iff h ?_ ?_ fun contents => ⟨?_, ?_⟩
  · intro cut hcut
    obtain ⟨cut', hcut', halike⟩ := hcuts.2 cut hcut
    have hplanned := exists_planCuts_iff.1 ⟨_, hresolved.cuts⟩
    exact (hplanned cut' hcut').imp fun _ => halike.planCut
  · intro group hgroup c hc
    obtain ⟨group', hgroup', halike⟩ := hslice.2 group hgroup
    obtain ⟨c', hc', halike'⟩ := halike.2 c hc
    have hplanned := Outcome.exists_mapM_eq_ok_iff.1 ⟨_, hresolved.slice⟩ group' hgroup'
    exact (Outcome.exists_mapM_eq_ok_iff.1 hplanned c' hc').imp fun _ => halike'.planCondition
  · exact IsMet.of_counterparts (hcuts.symm fun _ _ => Cut.Alike.symm)
      (hslice.symm fun _ _ hgroup => hgroup.symm fun _ _ => Condition.Alike.symm)
  · exact IsMet.of_counterparts hcuts hslice

end Alike

/-! ## Cuts as a slice -/

/-- The condition that says the same as a cut. -/
def Cut.condition (cut : Cut) : Condition := ⟨cut.field, .equal, cut.value⟩

/-- The cuts by field: for each field the cuts to it. -/
def cutGroups (schema : Schema) (cuts : List Cut) : List (List Cut) :=
  (cuts.map fun cut => schema.resolve? cut.field).dedup.map fun field? =>
    cuts.filter fun cut => schema.resolve? cut.field = field?

/-- The groups of a slice; no slice is one group without conditions. -/
def Query.groups (query : Query) : List (List Condition) :=
  if query.slice.isEmpty then [[]] else query.slice

/-- A query without cuts whose slice says the same: a group for each choice of one cut for every
field, together with the conditions of each group there was before. -/
def Query.sliced (schema : Schema) (query : Query) : Query :=
  { query with
    cuts := []
    slice := (cutGroups schema query.cuts).sections.flatMap fun chosen =>
      query.groups.map fun group => chosen.map Cut.condition ++ group }

/-- Some choice of one item of each list has a property throughout iff each list has such an
item. -/
theorem exists_mem_sections_iff {α : Type} {P : α → Prop} {lists : List (List α)} :
    (∃ chosen ∈ lists.sections, ∀ a ∈ chosen, P a) ↔ ∀ list ∈ lists, ∃ a ∈ list, P a := by
  simp only [List.mem_sections]
  induction lists with
  | nil => simp
  | cons list lists ih =>
    rw [List.forall_mem_cons, ← ih]
    constructor
    · rintro ⟨_, hchosen, hall⟩
      obtain ⟨a, rest, ha, hrest, rfl⟩ := List.forall₂_cons_right_iff.1 hchosen
      rw [List.forall_mem_cons] at hall
      exact ⟨⟨a, ha, hall.1⟩, rest, hrest, hall.2⟩
    · rintro ⟨⟨a, ha, hmet⟩, rest, hrest, hall⟩
      exact ⟨a :: rest, .cons ha hrest, List.forall_mem_cons.2 ⟨hmet, hall⟩⟩

/-- What is chosen comes from the lists. -/
theorem exists_of_mem_sections {α : Type} {lists : List (List α)} {chosen : List α}
    (h : chosen ∈ lists.sections) {a : α} (ha : a ∈ chosen) : ∃ list ∈ lists, a ∈ list := by
  rw [List.mem_sections] at h
  induction h with
  | nil => cases ha
  | cons hfirst _ ih =>
    rcases List.mem_cons.1 ha with rfl | ha
    · exact ⟨_, List.mem_cons_self, hfirst⟩
    · exact (ih ha).imp fun _ hlist => ⟨List.mem_cons_of_mem _ hlist.1, hlist.2⟩

section Sliced

variable {schema : Schema} {query : Query} {cuts : List Cut}

/-- The groups are made of the cuts. -/
theorem mem_cutGroups_iff {group : List Cut} :
    group ∈ cutGroups schema cuts ↔
      ∃ cut ∈ cuts, group = cuts.filter fun other =>
        schema.resolve? other.field = schema.resolve? cut.field := by
  simp only [cutGroups, List.mem_map, List.mem_dedup]
  constructor
  · rintro ⟨_, ⟨cut, hcut, rfl⟩, rfl⟩
    exact ⟨cut, hcut, rfl⟩
  · rintro ⟨cut, hcut, rfl⟩
    exact ⟨_, ⟨cut, hcut, rfl⟩, rfl⟩

theorem mem_of_mem_sections {chosen : List Cut} (h : chosen ∈ (cutGroups schema cuts).sections)
    {cut : Cut} (hcut : cut ∈ chosen) : cut ∈ cuts := by
  obtain ⟨group, hgroup, hmem⟩ := exists_of_mem_sections h hcut
  obtain ⟨_, -, rfl⟩ := mem_cutGroups_iff.1 hgroup
  exact List.mem_of_mem_filter hmem

/-- The condition of a cut is true iff the cut is met. -/
theorem Cut.isMet_condition_iff {contents : Contents} {cut : Cut} :
    cut.condition.IsMet schema contents ↔
      ∃ field, schema.resolve? cut.field = some field ∧ cut.IsMetAt schema contents field := by
  simp only [Condition.IsMet, Cut.IsMetAt, Cut.condition, Operator.Holds, exists_and_left]

/-- The cuts are met iff in each group of them one condition is true. -/
theorem forall_isMetAt_iff (hcuts : ∀ cut ∈ cuts, ∃ field, schema.resolve? cut.field = some field)
    (contents : Contents) :
    (∀ field, (∃ cut ∈ cuts, schema.resolve? cut.field = some field) →
      ∃ cut ∈ cuts, schema.resolve? cut.field = some field ∧ cut.IsMetAt schema contents field) ↔
    ∀ group ∈ cutGroups schema cuts, ∃ cut ∈ group, cut.condition.IsMet schema contents := by
  constructor
  · intro hmet group hgroup
    obtain ⟨cut, hcut, rfl⟩ := mem_cutGroups_iff.1 hgroup
    obtain ⟨field, hfield⟩ := hcuts cut hcut
    obtain ⟨cut', hcut', hfield', hmet'⟩ := hmet field ⟨cut, hcut, hfield⟩
    refine ⟨cut', ?_, Cut.isMet_condition_iff.2 ⟨field, hfield', hmet'⟩⟩
    rw [List.mem_filter, decide_eq_true_eq]
    exact ⟨hcut', hfield'.trans hfield.symm⟩
  · rintro hmet field ⟨cut, hcut, hfield⟩
    obtain ⟨cut', hcut', hmet'⟩ := hmet _ (mem_cutGroups_iff.2 ⟨cut, hcut, rfl⟩)
    rw [List.mem_filter, decide_eq_true_eq, hfield] at hcut'
    obtain ⟨field', hfield', hmet'⟩ := Cut.isMet_condition_iff.1 hmet'
    obtain rfl : field' = field := Option.some.inj (hfield'.symm.trans hcut'.2)
    exact ⟨cut', hcut'.1, hfield', hmet'⟩

namespace Query

theorem mem_slice_sliced {group : List Condition} :
    group ∈ (query.sliced schema).slice ↔
      ∃ chosen ∈ (cutGroups schema query.cuts).sections, ∃ given ∈ query.groups,
        chosen.map Cut.condition ++ given = group := by
  simp only [sliced, List.mem_flatMap, List.mem_map]

/-- Some group is met iff there is no slice or some group of it is met. -/
theorem exists_mem_groups_iff {P : List Condition → Prop} (hnil : P []) :
    (∃ group ∈ query.groups, P group) ↔ query.slice = [] ∨ ∃ group ∈ query.slice, P group := by
  rw [groups]
  cases query.slice with
  | nil => simp [hnil]
  | cons group slice => simp

/-- A sliced query has a group, since there is a choice of cuts. -/
theorem slice_sliced_ne_nil : (query.sliced schema).slice ≠ [] := by
  have hchosen : ∃ chosen ∈ (cutGroups schema query.cuts).sections, ∀ cut ∈ chosen, True := by
    refine exists_mem_sections_iff.2 fun group hgroup => ?_
    obtain ⟨cut, hcut, rfl⟩ := mem_cutGroups_iff.1 hgroup
    exact ⟨cut, by simp [hcut], trivial⟩
  obtain ⟨chosen, hchosen, -⟩ := hchosen
  have hgiven : ∃ given ∈ query.groups, True := by
    refine (exists_mem_groups_iff trivial).2 ?_
    cases query.slice <;> simp
  obtain ⟨given, hgiven, -⟩ := hgiven
  exact List.ne_nil_of_mem (mem_slice_sliced.2 ⟨chosen, hchosen, given, hgiven, rfl⟩)

/-- A group of a sliced query is met iff both its cuts and its conditions are. -/
theorem exists_mem_slice_sliced_iff {P : Condition → Prop} :
    (∃ group ∈ (query.sliced schema).slice, ∀ c ∈ group, P c) ↔
      (∃ chosen ∈ (cutGroups schema query.cuts).sections, ∀ cut ∈ chosen, P cut.condition) ∧
        ∃ given ∈ query.groups, ∀ c ∈ given, P c := by
  constructor
  · rintro ⟨group, hgroup, hmet⟩
    obtain ⟨chosen, hchosen, given, hgiven, rfl⟩ := mem_slice_sliced.1 hgroup
    rw [List.forall_mem_append, List.forall_mem_map] at hmet
    exact ⟨⟨chosen, hchosen, hmet.1⟩, given, hgiven, hmet.2⟩
  · rintro ⟨⟨chosen, hchosen, hmet⟩, given, hgiven, hmet'⟩
    refine ⟨_, mem_slice_sliced.2 ⟨chosen, hchosen, given, hgiven, rfl⟩, ?_⟩
    rw [List.forall_mem_append, List.forall_mem_map]
    exact ⟨hmet, hmet'⟩

/-- A sliced query is met by the same contents. -/
theorem isMet_sliced_iff
    (hcuts : ∀ cut ∈ query.cuts, ∃ field, schema.resolve? cut.field = some field)
    (contents : Contents) :
    (query.sliced schema).IsMet schema contents ↔ query.IsMet schema contents := by
  have hslice := @exists_mem_slice_sliced_iff schema query (Condition.IsMet schema contents)
  rw [exists_mem_sections_iff, ← forall_isMetAt_iff hcuts,
    exists_mem_groups_iff (List.forall_mem_nil _)] at hslice
  constructor
  · intro hmet
    obtain ⟨hmet, hmet'⟩ := hslice.1 (hmet.slice.resolve_left slice_sliced_ne_nil)
    exact ⟨hmet, hmet'⟩
  · intro hmet
    refine ⟨fun _ hcut => ?_, .inr (hslice.2 ⟨hmet.cuts, hmet.slice⟩)⟩
    obtain ⟨_, hcut, -⟩ := hcut
    cases hcut

/-- A query with its cuts as a slice selects the same. -/
theorem selectsAs_sliced {plan : Plan} (h : query.plan schema = .ok plan) :
    SelectsAs schema plan (query.sliced schema) := by
  have hresolved := resolved_of_plan h
  have hcuts := exists_planCuts_iff.1 ⟨_, hresolved.cuts⟩
  refine selectsAs_of_isMet_iff h (List.forall_mem_nil _) (fun group hgroup => ?_)
    (isMet_sliced_iff fun cut hcut => ?_)
  · obtain ⟨chosen, hchosen, given, hgiven, rfl⟩ := mem_slice_sliced.1 hgroup
    refine List.forall_mem_append.2 ⟨List.forall_mem_map.2 fun cut hcut => ?_, ?_⟩
    · obtain ⟨⟨field, value⟩, hpair⟩ := hcuts cut (mem_of_mem_sections hchosen hcut)
      obtain ⟨hfield, hvalue⟩ := planCut_eq_ok_iff.1 hpair
      exact ⟨_, planCondition_eq_ok_iff.2 ⟨field, value, hfield, hvalue, rfl⟩⟩
    · have hgroups := Outcome.exists_mapM_eq_ok_iff.1 ⟨_, hresolved.slice⟩
      rw [groups] at hgiven
      split at hgiven
      · rw [List.mem_singleton] at hgiven
        exact hgiven ▸ List.forall_mem_nil _
      · exact Outcome.exists_mapM_eq_ok_iff.1 (hgroups given hgiven)
  · obtain ⟨⟨field, value⟩, hpair⟩ := hcuts cut hcut
    exact ⟨field, (planCut_eq_ok_iff.1 hpair).1⟩

end Query

end Sliced

/-! ## Other paths -/

/-- A compound dimension without a further name means its name. -/
theorem Dimension.fieldOf?_name {d : Dimension} {index position : Nat}
    (h : d.fieldOf? index none = some (.component index position)) :
    d.fieldOf? index (some "name") = some (.component index position) := by
  unfold fieldOf? at h ⊢
  cases hcontent : d.content with
  | scalar datatype default? => simp [hcontent] at h
  | compound attributes =>
    rw [hcontent] at h
    exact h

/-- The month of a date has two names. -/
theorem Dimension.fieldOf?_yearmonth {d : Dimension} {index : Nat}
    (h : d.fieldOf? index (some "month") = some (.datePart index .month)) :
    d.fieldOf? index (some "yearmonth") = some (.datePart index .month) := by
  unfold fieldOf? at h ⊢
  cases hcontent : d.content with
  | scalar datatype default? =>
    rw [hcontent] at h
    exact h
  | compound attributes => simp [hcontent] at h

namespace Schema

variable {schema : Schema} {path : String} {index : Nat}

/-- A path without a point and the same path with one more name lead to the same dimension. -/
theorem resolve?_append (hpoint : '.' ∉ path.toList) (name : String) :
    schema.resolve? (path ++ "." ++ name) =
      (schema.dimensionIndex? path).bind fun index =>
        (schema.dimensions[index]?).bind fun d => d.fieldOf? index (some name) := by
  rw [resolve?_eq, splitPath_append hpoint]

/-- The path of a compound dimension leads to its name, as the path of the name does. -/
theorem resolve?_name (hpoint : '.' ∉ path.toList) {position : Nat}
    (h : schema.resolve? path = some (.component index position)) :
    schema.resolve? (path ++ "." ++ "name") = some (.component index position) := by
  rw [resolve?_eq, splitPath_of_notMem hpoint] at h
  rw [resolve?_append hpoint]
  simp only [Option.bind_eq_some_iff] at h ⊢
  obtain ⟨index', hindex, d, hd, hfield⟩ := h
  obtain rfl : index = index' := Dimension.dimension_of_fieldOf? hfield
  exact ⟨index, hindex, d, hd, Dimension.fieldOf?_name hfield⟩

/-- The month of a date has two paths. -/
theorem resolve?_yearmonth (hpoint : '.' ∉ path.toList)
    (h : schema.resolve? (path ++ "." ++ "month") = some (.datePart index .month)) :
    schema.resolve? (path ++ "." ++ "yearmonth") = some (.datePart index .month) := by
  rw [resolve?_append hpoint] at h ⊢
  simp only [Option.bind_eq_some_iff] at h ⊢
  obtain ⟨index', hindex, d, hd, hfield⟩ := h
  obtain rfl : index = index' := Dimension.dimension_of_fieldOf? hfield
  exact ⟨index, hindex, d, hd, Dimension.fieldOf?_yearmonth hfield⟩

end Schema

/-! ## Selection by a query -/

/-- What it means that a plan selects by its query. -/
structure Query.IsSelection (schema : Schema) (query : Query) (plan : Plan) : Prop where
  selects_iff : ∀ contents, plan.selects contents = true ↔ query.IsMet schema contents
  /-- Cuts and groups may be reordered and repeated. -/
  same_members : ∀ cuts slice, query.cuts ⊆ cuts → cuts ⊆ query.cuts → query.slice ⊆ slice →
    slice ⊆ query.slice → SelectsAs schema plan { query with cuts := cuts, slice := slice }
  /-- The conditions of a group may be reordered and repeated too, and a field may be named by any
  path that leads to it. -/
  counterparts : ∀ cuts slice, Counterparts (Cut.Alike schema) query.cuts cuts →
    Counterparts (Counterparts (Condition.Alike schema)) query.slice slice →
    SelectsAs schema plan { query with cuts := cuts, slice := slice }
  /-- The cuts may be written as a slice. -/
  sliced : SelectsAs schema plan (query.sliced schema)
  /-- The path of a compound dimension leads to its name. -/
  name_path : ∀ path index position, '.' ∉ path.toList →
    schema.resolve? path = some (.component index position) →
    schema.resolve? (path ++ "." ++ "name") = some (.component index position)
  /-- The month of a date has two paths. -/
  month_path : ∀ path index, '.' ∉ path.toList →
    schema.resolve? (path ++ "." ++ "month") = some (.datePart index .month) →
    schema.resolve? (path ++ "." ++ "yearmonth") = some (.datePart index .month)

/-- Every plan selects by its query. -/
theorem Query.isSelection_of_plan {schema : Schema} {query : Query} {plan : Plan}
    (h : query.plan schema = .ok plan) : query.IsSelection schema plan := by
  constructor
  · exact selects_iff_of_plan h
  · intro cuts slice hcuts hcuts' hslice hslice'
    exact selectsAs_of_counterparts h (.of_subset Cut.Alike.refl hcuts hcuts')
      (.of_subset (Counterparts.refl Condition.Alike.refl) hslice hslice')
  · exact fun _ _ => selectsAs_of_counterparts h
  · exact selectsAs_sliced h
  · exact fun _ _ _ hpoint => Schema.resolve?_name hpoint
  · exact fun _ _ hpoint => Schema.resolve?_yearmonth hpoint

namespace Sample

/-- A query that cuts one field by two paths, with a cut to another field in between, and has a slice
with three operators. -/
def aliasQuery : Query :=
  { Query.all with
    cuts := [⟨"to", "Council"⟩, ⟨"to.label", "x"⟩, ⟨"to.name", "Trust"⟩]
    slice :=
      [[⟨"to.label", .notEqual, "y"⟩],
       [⟨"to.name", .greaterOrEqual, "A"⟩, ⟨"to.name", .less, "D"⟩]] }

/-- The plan of the query. -/
def aliasPlan : Plan where
  drilldownNames := []
  drilldowns := []
  cuts := [(.component 0 0, [.string "Council", .string "Trust"]), (.component 0 1, [.string "x"])]
  filters := []
  slice :=
    [[⟨.component 0 1, .compare .notEqual (.string "y")⟩],
     [⟨.component 0 0, .compare .greaterOrEqual (.string "A")⟩,
      ⟨.component 0 0, .compare .less (.string "D")⟩]]
  measures := []
  order := []
  page := 1
  pageSize? := none
  collection? := none

end Sample

/-- The two paths count as one field. -/
theorem Query.isSelection_of_plan_sample :
    Sample.aliasQuery.plan Sample.repeatedSchema = .ok Sample.aliasPlan ∧
      Sample.aliasQuery.IsSelection Sample.repeatedSchema Sample.aliasPlan :=
  ⟨rfl, isSelection_of_plan rfl⟩

end FactCube
