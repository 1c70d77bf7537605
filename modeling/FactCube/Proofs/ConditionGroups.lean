import FactCube.Proofs.Conditions
import FactCube.Proofs.Outcome

/-!
# Groups of conditions

A group is cut at every semicolon before its conditions are read. So conditions that are written one
after the other, with quotes around their literals, come back as they are iff no literal holds a
semicolon: quotes protect a literal from everything but the cuts of the group. A literal that is cut
leaves an open quote in front of the cut, and with it a condition that was not written.

Results:
* `Condition.piecesOf_append`: the pieces on both sides of a semicolon.
* `Condition.groupOfText_quoted_iff`: when written conditions are read back from their group.
* `Condition.not_forall_groupOfText_quoted`: a quoted semicolon makes a group unreadable.
-/

namespace FactCube

/-! ## Cutting a text -/

namespace Text

theorem splitAll_of_notMem {sep : Char} {s : List Char} (h : sep ∉ s) : splitAll sep s = [s] := by
  induction s with
  | nil => rfl
  | cons c s ih =>
    simp only [List.mem_cons, not_or] at h
    rw [splitAll, if_neg (by simpa using Ne.symm h.1), ih h.2]

theorem splitAll_ne_nil (sep : Char) (s : List Char) : splitAll sep s ≠ [] := by
  cases s with
  | nil => exact List.cons_ne_nil _ _
  | cons c s =>
    rw [splitAll]
    split
    · exact List.cons_ne_nil _ _
    · split <;> exact List.cons_ne_nil _ _

/-- A text is cut on both sides of a separator apart. -/
theorem splitAll_append (sep : Char) (s t : List Char) :
    splitAll sep (s ++ sep :: t) = splitAll sep s ++ splitAll sep t := by
  induction s with
  | nil => exact if_pos (beq_self_eq_true sep)
  | cons c s ih =>
    rw [List.cons_append, splitAll, ih, splitAll]
    split
    · rfl
    · obtain ⟨piece, pieces, hpieces⟩ := List.exists_cons_of_ne_nil (splitAll_ne_nil sep s)
      rw [hpieces]
      rfl

theorem trim_trim (s : List Char) : trim (trim s) = trim s := by
  have hleft : trimLeft (trimLeft s) = trimLeft s := List.dropWhile_idempotent isBlank s
  calc trim (trim s) = trim (trimLeft s) := trim_trimRight (trimLeft s)
    _ = trimRight (trimLeft (trimLeft s)) := rfl
    _ = trim s := by rw [hleft, trim]

end Text

namespace Condition

/-! ## Pieces of a group -/

/-- The pieces between the semicolons of a text that are not blank, without blanks at their ends. -/
def piecesOf (s : List Char) : List (List Char) :=
  ((Text.splitAll ';' s).map Text.trim).filter fun piece => !piece.isEmpty

theorem groupOfText_eq (s : String) :
    groupOfText s = (piecesOf s.toList).mapM fun piece => ofText (String.ofList piece) := rfl

/-- The pieces of a text are those on both sides of a semicolon. -/
theorem piecesOf_append (s t : List Char) :
    piecesOf (s ++ ';' :: t) = piecesOf s ++ piecesOf t := by
  rw [piecesOf, Text.splitAll_append, List.map_append, List.filter_append]
  rfl

/-- A text without semicolons that is a condition is its only piece, and the piece is the same
condition. -/
theorem piecesOf_of_ofText {s : List Char} (hs : ';' ∉ s) {c : Condition}
    (hc : ofText (String.ofList s) = .ok c) :
    piecesOf s = [Text.trim s] ∧ ofText (String.ofList (Text.trim s)) = .ok c := by
  rw [ofText_eq_ok_iff, String.toList_ofList] at hc ⊢
  rw [Text.trim_trim]
  refine ⟨?_, hc⟩
  have hne : Text.trim s ≠ [] := fun hempty => hc.named (by rw [hempty]; rfl)
  rw [piecesOf, Text.splitAll_of_notMem hs]
  simpa using hne

theorem piecesOf_joined_cons (s : String) {texts : List String} (h : texts ≠ []) :
    piecesOf (Text.joined ";" (s :: texts)).toList =
      piecesOf s.toList ++ piecesOf (Text.joined ";" texts).toList := by
  obtain ⟨t, rest, rfl⟩ := List.exists_cons_of_ne_nil h
  rw [← piecesOf_append, Text.joined, String.toList_append, String.toList_append, List.append_assoc]
  · rfl
  · exact List.cons_ne_nil t rest

/-- The pieces of joined texts are the pieces of each. -/
theorem piecesOf_joined (texts : List String) :
    piecesOf (Text.joined ";" texts).toList = texts.flatMap fun text => piecesOf text.toList := by
  induction texts with
  | nil => rfl
  | cons s texts ih =>
    cases texts with
    | nil => rw [List.flatMap_singleton]; rfl
    | cons t rest =>
      rw [piecesOf_joined_cons s (List.cons_ne_nil t rest), ih]
      rfl

/-! ## Groups of written conditions -/

/-- Whether a condition can be written as part of a group: its field is plain and holds no semicolon
and no quote, and its literal holds no quote. -/
structure IsQuotable (c : Condition) : Prop where
  plain : c.HasPlainField
  field_semicolon : ';' ∉ c.field.toList
  field_quotes : ∀ ch ∈ c.field.toList, ch ∉ quotes
  literal_quotes : ∀ ch ∈ c.literal.toList, ch ∉ quotes

/-- Some conditions, each written in its own way with quotes around its literal, with semicolons
between them. -/
def groupText (items : List (Condition × Quoting)) : String :=
  Text.joined ";" (items.map fun item => String.ofList (item.1.quoted item.2))

end Condition

/-- The way to write an operator by its symbol, without blanks. -/
def Quoting.tight (operator : Operator) (quote : Char) : Quoting :=
  ⟨operator.symbol.toList, quote, [], [], [], []⟩

theorem Quoting.tight_fits (operator : Operator) {quote : Char} (h : quote ∈ quotes) :
    (Quoting.tight operator quote).Fits operator where
  spelling := by
    have hsymbol : (operator.symbol.toList, operator) ∈ Operator.spellings := by
      cases operator <;> decide
    exact hsymbol
  quote := h
  front := List.forall_mem_nil _
  behindField := List.forall_mem_nil _
  behindOperator := List.forall_mem_nil _
  back := List.forall_mem_nil _

namespace Condition

theorem notMem_semicolon_of_blank {b : List Char} (h : ∀ ch ∈ b, Text.isBlank ch = true) :
    ';' ∉ b := fun hmem => absurd (h ';' hmem) (by decide)

theorem ne_semicolon_of_mem_quotes {quote : Char} (h : quote ∈ quotes) : ';' ≠ quote := by
  rintro rfl
  exact absurd h (by decide)

/-- What is written up to some place in a literal holds no semicolon, if that part of the literal
holds none. -/
theorem notMem_semicolon {c : Condition} (hc : c.IsQuotable) {q : Quoting}
    (hq : q.Fits c.operator) {s : List Char} (hs : ';' ∉ s) :
    ';' ∉ q.front ++ (c.field.toList ++ (q.behindField ++ (q.spelling ++
      (q.behindOperator ++ q.quote :: s)))) := by
  have hspelling : ';' ∉ q.spelling := fun hmem =>
    absurd (Operator.mem_signs_of_mem _ hq.spelling ';' hmem) (by decide)
  simp only [List.mem_append, List.mem_cons, not_or]
  exact ⟨notMem_semicolon_of_blank hq.front, hc.field_semicolon,
    notMem_semicolon_of_blank hq.behindField, hspelling,
    notMem_semicolon_of_blank hq.behindOperator, ne_semicolon_of_mem_quotes hq.quote, hs⟩

/-- A quote that is not closed stays in the literal. -/
theorem mem_unquote_trim_open {quote : Char} (h : quote ∈ quotes) {front s : List Char}
    (hfront : ∀ ch ∈ front, Text.isBlank ch = true) (hs : ∀ ch ∈ s, ch ∉ quotes) :
    quote ∈ unquote (Text.trim (front ++ quote :: s)) := by
  have hquote := isBlank_of_mem_quotes quote h
  have hright : Text.trimRight (quote :: s) = quote :: Text.trimRight s :=
    Text.trimRight_append hquote [] s
  obtain ⟨b, -, hb⟩ := Text.exists_trimRight_append s
  have hkeep : unquote (quote :: Text.trimRight s) = quote :: Text.trimRight s := by
    refine unquote_of_forall fun other hother inner heq => ?_
    have hmem : other ∈ Text.trimRight s := by
      rw [(List.cons.inj heq).2]
      exact List.mem_append_right _ List.mem_cons_self
    exact hs other (hb ▸ List.mem_append_left b hmem) hother
  rw [Text.trim_blank_append hfront, Text.trim, Text.trimLeft_cons hquote, hright, hkeep]
  exact List.mem_cons_self

/-- A literal that is cut at a semicolon leaves a condition with a quote in its literal. -/
theorem exists_piece_of_semicolon {c : Condition} (hc : c.IsQuotable) {q : Quoting}
    (hq : q.Fits c.operator) (h : ';' ∈ c.literal.toList) :
    ∃ piece ∈ piecesOf (c.quoted q), ∃ c', ofText (String.ofList piece) = .ok c' ∧
      ∃ ch ∈ c'.literal.toList, ch ∈ quotes := by
  obtain ⟨before, after, hsplit, hbefore⟩ := List.eq_append_cons_of_mem h
  set first := q.front ++ (c.field.toList ++ (q.behindField ++ (q.spelling ++
    (q.behindOperator ++ q.quote :: before)))) with hfirst
  have hcut : c.quoted q = first ++ ';' :: (after ++ [q.quote] ++ q.back) := by
    rw [quoted, hsplit, hfirst]
    simp only [List.append_assoc, List.cons_append]
  have hread := ofText_parts hc.plain hq.front hq.behindField hq.spelling
    (notMem_signs_of_head hq before)
  rw [← hfirst] at hread
  obtain ⟨hpieces, hpiece⟩ := piecesOf_of_ofText (notMem_semicolon hc hq hbefore) hread
  refine ⟨Text.trim first, ?_, _, hpiece, q.quote, ?_, hq.quote⟩
  · rw [hcut, piecesOf_append, hpieces]
    exact List.mem_cons_self
  · rw [String.toList_ofList]
    refine mem_unquote_trim_open hq.quote hq.behindOperator fun ch hch => ?_
    exact hc.literal_quotes ch (hsplit ▸ List.mem_append_left _ hch)

/-- A written condition without a semicolon is the only piece of its text. -/
theorem exists_piecesOf_quoted {c : Condition} (hc : c.IsQuotable) {q : Quoting}
    (hq : q.Fits c.operator) (h : ';' ∉ c.literal.toList) :
    ∃ piece, piecesOf (c.quoted q) = [piece] ∧ ofText (String.ofList piece) = .ok c := by
  have hend : ';' ∉ c.literal.toList ++ [q.quote] ++ q.back := by
    simp only [List.mem_append, List.mem_singleton, not_or]
    exact ⟨⟨h, ne_semicolon_of_mem_quotes hq.quote⟩, notMem_semicolon_of_blank hq.back⟩
  have hnone : ';' ∉ c.quoted q := notMem_semicolon hc hq hend
  exact ⟨_, piecesOf_of_ofText hnone (ofText_quoted hc.plain hq)⟩

/-- Written conditions are read back from their group iff no literal holds a semicolon. -/
theorem groupOfText_quoted_iff {items : List (Condition × Quoting)}
    (h : ∀ item ∈ items, item.1.IsQuotable ∧ item.2.Fits item.1.operator) :
    groupOfText (groupText items) = .ok (items.map Prod.fst) ↔
      ∀ item ∈ items, ';' ∉ item.1.literal.toList := by
  have hpieces : piecesOf (groupText items).toList =
      items.flatMap fun item => piecesOf (item.1.quoted item.2) := by
    rw [groupText, piecesOf_joined, List.flatMap_map]
    simp only [String.toList_ofList]
  rw [groupOfText_eq, hpieces]
  constructor
  · intro hread item hitem hsemicolon
    obtain ⟨hc, hq⟩ := h item hitem
    obtain ⟨piece, hpiece, c, hc', ch, hch, hquote⟩ := exists_piece_of_semicolon hc hq hsemicolon
    have hmem : c ∈ items.map Prod.fst :=
      (Outcome.mem_iff_of_mapM hread).2 ⟨piece, List.mem_flatMap.2 ⟨item, hitem, hpiece⟩, hc'⟩
    obtain ⟨other, hother, rfl⟩ := List.mem_map.1 hmem
    exact (h other hother).1.literal_quotes ch hch hquote
  · intro hnone
    clear hpieces
    rw [Outcome.mapM_eq_ok_iff]
    induction items with
    | nil => exact .nil
    | cons item items ih =>
      rw [List.forall_mem_cons] at h hnone
      obtain ⟨piece, hpiece, hread⟩ := exists_piecesOf_quoted h.1.1 h.1.2 hnone.1
      rw [List.flatMap_cons, hpiece]
      exact .cons hread (ih h.2 hnone.2)

end Condition

/-! ## Samples -/

namespace Sample

theorem isQuotable_of_forall {c : Condition} (hne : c.field.toList ≠ [])
    (hfield : ∀ ch ∈ c.field.toList, Text.isBlank ch = false ∧ ch ∉ Operator.signs ∧ ch ≠ ';' ∧
      ch ∉ quotes) (hliteral : ∀ ch ∈ c.literal.toList, ch ∉ quotes) : c.IsQuotable where
  plain := ⟨hne, Text.trim_of_forall fun ch hch => (hfield ch hch).1, fun ch hch =>
    (hfield ch hch).2.1⟩
  field_semicolon hmem := (hfield ';' hmem).2.2.1 rfl
  field_quotes ch hch := (hfield ch hch).2.2.2
  literal_quotes := hliteral

/-- Two conditions, the literal of the second with blanks and a sign. -/
def writtenItems : List (Condition × Quoting) :=
  [(⟨"amount", .greaterOrEqual, "1000"⟩, ⟨['>', ':'], '"', [' '], [' '], [' '], []⟩),
   (⟨"region", .notEqual, " a = b "⟩, Quoting.tight .notEqual '\x27')]

theorem isQuotable_writtenItems :
    ∀ item ∈ writtenItems, item.1.IsQuotable ∧ item.2.Fits item.1.operator := by
  refine List.forall_mem_cons.2 ⟨⟨?_, ?_⟩, List.forall_mem_singleton.2 ⟨?_, ?_⟩⟩
  · exact isQuotable_of_forall (by simp) (by simp [Text.isBlank, Operator.signs, quotes])
      (by simp [quotes])
  · exact ⟨by decide, by decide, by simp [Text.isBlank], by simp [Text.isBlank],
      by simp [Text.isBlank], by simp⟩
  · exact isQuotable_of_forall (by simp) (by simp [Text.isBlank, Operator.signs, quotes])
      (by simp [quotes])
  · exact Quoting.tight_fits .notEqual (by decide)

/-- A condition with a semicolon in its literal. -/
def cutCondition : Condition := ⟨"region", .equal, "a;b"⟩

theorem isQuotable_cutCondition : cutCondition.IsQuotable :=
  isQuotable_of_forall (by simp [cutCondition])
    (by simp [cutCondition, Text.isBlank, Operator.signs, quotes])
    (by simp [cutCondition, quotes])

end Sample

theorem Condition.groupOfText_quoted_iff_sample :
    (∀ item ∈ Sample.writtenItems, item.1.IsQuotable ∧ item.2.Fits item.1.operator) ∧
      groupOfText " amount >: \"1000\";region!=' a = b '" =
        .ok [⟨"amount", .greaterOrEqual, "1000"⟩, ⟨"region", .notEqual, " a = b "⟩] :=
  ⟨Sample.isQuotable_writtenItems,
    (Condition.groupOfText_quoted_iff Sample.isQuotable_writtenItems).2 (by decide)⟩

/-- The group of a single condition is not read back, as its quoted literal holds a semicolon. -/
theorem Condition.not_forall_groupOfText_quoted :
    ¬ ∀ items : List (Condition × Char),
      (∀ item ∈ items, item.1.IsQuotable ∧ item.2 ∈ quotes) →
        groupOfText (groupText (items.map fun item =>
          (item.1, Quoting.tight item.1.operator item.2))) = .ok (items.map Prod.fst) := by
  intro h
  have hread := h [(Sample.cutCondition, '\x27')]
    (List.forall_mem_singleton.2 ⟨Sample.isQuotable_cutCondition, by decide⟩)
  have hrefused : groupOfText "region='a;b'" = .error ⟨"b'"⟩ := by decide +kernel
  exact nomatch hrefused.symm.trans hread

end FactCube
