import FactCube.Source.Csv
import Mathlib.Data.List.Basic

/-!
# Delimited records, written and read

Cells that hold no separator and no quote can be written without quotes, with a delimiter between
two cells and a line break between two records. The splitter finds these records again, except those
that are written as an empty line.

Whatever comes behind it, a cell that is complete stays a cell of a record. So what is in a file can
be told from a part of it.

Results:
* `Splitter.finish_foldl_records`: written records are found again.
* `Splitter.exists_record_of_cell`: a cell between two separators is a cell of a record.
-/

namespace FactCube.Csv

variable {delimiter : UInt8}

/-! ## Written records -/

/-- Whether a byte can separate cells: it is neither a quote nor a line break. -/
structure IsDelimiter (delimiter : UInt8) : Prop where
  ne_quote : delimiter ≠ 34
  ne_feed : delimiter ≠ 10
  ne_return : delimiter ≠ 13

/-- Whether a byte stands behind a cell. -/
def IsSeparator (delimiter b : UInt8) : Prop := b = delimiter ∨ b = 10 ∨ b = 13

/-- Whether a cell can stand without quotes. -/
def IsPlain (delimiter : UInt8) (cell : List UInt8) : Prop :=
  ∀ b ∈ cell, ¬ IsSeparator delimiter b ∧ b ≠ 34

/-- The line breaks. -/
def breaks : List (List UInt8) := [[10], [13], [13, 10]]

/-- The bytes of some records without quotes; the last of them may end in a line break too. -/
def written (delimiter : UInt8) (lineBreak : List UInt8) (closed : Bool)
    (records : List (List (List UInt8))) : List UInt8 :=
  lineBreak.intercalate (records.map [delimiter].intercalate) ++ if closed then lineBreak else []

theorem intercalate_cons_flatMap {α : Type} (separator piece : List α) (pieces : List (List α)) :
    separator.intercalate (piece :: pieces) =
      piece ++ pieces.flatMap fun next => separator ++ next := by
  induction pieces generalizing piece with
  | nil => simp
  | cons next pieces ih => simp [ih]

/-- Written records start with their first cell. -/
theorem written_cons (lineBreak : List UInt8) (closed : Bool) (cell : List UInt8)
    (cells : List (List UInt8)) (records : List (List (List UInt8))) :
    written delimiter lineBreak closed ((cell :: cells) :: records) =
      cell ++ written delimiter lineBreak closed (([] :: cells) :: records) := by
  simp only [written, List.map_cons, intercalate_cons_flatMap, List.nil_append, List.append_assoc]

namespace Splitter

variable {s : Splitter} {b : UInt8} {cell : List UInt8}

/-- Whether a splitter is outside quotes. -/
def IsOutside (s : Splitter) : Prop := s.place ≠ .quoted ∧ s.place ≠ .afterQuote

/-! ## Steps outside quotes -/

theorem step_plain (hs : s.IsOutside) (hb : ¬ IsSeparator delimiter b ∧ b ≠ 34) :
    s.step delimiter b = s.push .open b := by
  obtain ⟨hseparator, hquote⟩ := hb
  simp only [IsSeparator, not_or] at hseparator
  obtain ⟨hdelimiter, hfeed, hreturn⟩ := hseparator
  have houtside : s.outside delimiter b = s.push .open b := by
    simp [outside, hdelimiter, hfeed, hreturn]
  rw [step]
  cases hplace : s.place with
  | recordStart => simp [hfeed, hreturn, atCellStart, hquote, houtside]
  | cellStart => simp [atCellStart, hquote, houtside]
  | «open» => exact houtside
  | quoted => exact absurd hplace hs.1
  | afterQuote => exact absurd hplace hs.2

theorem step_delimiter (h : IsDelimiter delimiter) (hs : s.IsOutside) :
    s.step delimiter delimiter = s.endCell := by
  have houtside : s.outside delimiter delimiter = s.endCell := by simp [outside]
  rw [step]
  cases hplace : s.place with
  | recordStart => simp [h.ne_feed, h.ne_return, atCellStart, h.ne_quote, houtside]
  | cellStart => simp [atCellStart, h.ne_quote, houtside]
  | «open» => exact houtside
  | quoted => exact absurd hplace hs.1
  | afterQuote => exact absurd hplace hs.2

theorem step_break (h : IsDelimiter delimiter) (hb : b = 10 ∨ b = 13) (hs : s.IsOutside)
    (hplace : s.place ≠ .recordStart) : s.step delimiter b = s.endRecord := by
  have hdelimiter : b ≠ delimiter := by
    rcases hb with rfl | rfl
    · exact h.ne_feed.symm
    · exact h.ne_return.symm
  have hquote : b ≠ 34 := by
    rcases hb with rfl | rfl <;> decide
  have houtside : s.outside delimiter b = s.endRecord := by
    simp [outside, hdelimiter, hb]
  rw [step]
  cases hs' : s.place with
  | recordStart => exact absurd hs' hplace
  | cellStart => simp [atCellStart, hquote, houtside]
  | «open» => exact houtside
  | quoted => exact absurd hs' hs.1
  | afterQuote => exact absurd hs' hs.2

theorem step_break_of_recordStart (hb : b = 10 ∨ b = 13) (hplace : s.place = .recordStart) :
    s.step delimiter b = s := by
  rw [step, hplace]
  simp [hb]

/-! ## Runs over written records -/

theorem foldl_plain (hs : s.IsOutside) (hcell : IsPlain delimiter cell) :
    cell.foldl (step delimiter) s =
      { s with
        place := if cell = [] then s.place else .open
        cell := cell.reverse ++ s.cell } := by
  induction cell generalizing s with
  | nil => rfl
  | cons b cell ih =>
    rw [IsPlain, List.forall_mem_cons] at hcell
    have hpush : (s.push .open b).IsOutside := by
      constructor <;> exact fun h => Place.noConfusion h
    rw [List.foldl_cons, step_plain hs hcell.1, ih hpush hcell.2]
    simp [push]

/-- The state before the first cell of a record or of the rest of one. -/
def IsAtCell (s : Splitter) : Prop :=
  (s.place = .recordStart ∨ s.place = .cellStart) ∧ s.cell = []

theorem IsAtCell.isOutside (hs : s.IsAtCell) : s.IsOutside := by
  rcases hs.1 with h | h <;> constructor <;> rw [h] <;> decide

/-- The cells of a line join the record; its last cell and the record are still open. -/
theorem foldl_cells (h : IsDelimiter delimiter) {cells : List (List UInt8)}
    (hcells : ∀ cell ∈ cells, IsPlain delimiter cell) (hne : cells ≠ []) (hs : s.IsAtCell) :
    ∃ t, ([delimiter].intercalate cells).foldl (step delimiter) s = t ∧ t.IsOutside ∧
      t.endRecord = ⟨.recordStart, (s.cells.reverse ++ cells) :: s.records, [], []⟩ ∧
      (t.place = .recordStart ↔ s.place = .recordStart ∧ cells = [[]]) := by
  induction cells generalizing s with
  | nil => exact absurd rfl hne
  | cons cell cells ih =>
    rw [List.forall_mem_cons] at hcells
    have hfold := foldl_plain hs.isOutside hcells.1
    cases cells with
    | nil =>
      rw [List.intercalate_singleton, hfold]
      refine ⟨_, rfl, ?_, ?_, ?_⟩
      · by_cases hcell : cell = []
        · simpa [hcell] using hs.isOutside
        · simp [hcell, IsOutside]
      · simp [endRecord, hs.2]
      · by_cases hcell : cell = [] <;> simp [hcell]
    | cons next cells =>
      have hs' : (Splitter.endCell { s with
          place := if cell = [] then s.place else .open
          cell := cell.reverse ++ s.cell }).IsAtCell := ⟨.inr rfl, rfl⟩
      have houtside : (Splitter.mk (if cell = [] then s.place else .open) s.records s.cells
          (cell.reverse ++ s.cell)).IsOutside := by
        by_cases hcell : cell = []
        · simpa [hcell] using hs.isOutside
        · simp [hcell, IsOutside]
      obtain ⟨t, ht, hout, hend, hplace⟩ := ih hcells.2 (List.cons_ne_nil _ _) hs'
      refine ⟨t, ?_, hout, ?_, ?_⟩
      · rw [List.intercalate_cons_cons, List.foldl_append, List.foldl_append, hfold,
          List.foldl_cons, List.foldl_nil, step_delimiter h houtside, ht]
      · rw [hend]
        simp [endCell, hs.2]
      · rw [hplace]
        simp [endCell]

theorem foldl_break {lineBreak : List UInt8} (hbreak : lineBreak ∈ breaks)
    (hs : s.place = .recordStart) : lineBreak.foldl (step delimiter) s = s := by
  simp only [breaks, List.mem_cons, List.not_mem_nil, or_false] at hbreak
  rcases hbreak with rfl | rfl | rfl <;>
    simp only [List.foldl_cons, List.foldl_nil, step_break_of_recordStart (.inl rfl) hs,
      step_break_of_recordStart (.inr rfl) hs]

theorem foldl_break_of_ne (h : IsDelimiter delimiter) {lineBreak : List UInt8}
    (hbreak : lineBreak ∈ breaks) (hs : s.IsOutside) (hplace : s.place ≠ .recordStart) :
    lineBreak.foldl (step delimiter) s = s.endRecord := by
  simp only [breaks, List.mem_cons, List.not_mem_nil, or_false] at hbreak
  rcases hbreak with rfl | rfl | rfl
  · rw [List.foldl_cons, List.foldl_nil, step_break h (.inl rfl) hs hplace]
  · rw [List.foldl_cons, List.foldl_nil, step_break h (.inr rfl) hs hplace]
  · rw [List.foldl_cons, List.foldl_cons, List.foldl_nil, step_break h (.inr rfl) hs hplace,
      step_break_of_recordStart (.inl rfl) rfl]

/-- A line and its break add a record, unless the line is empty. -/
theorem foldl_record (h : IsDelimiter delimiter) {lineBreak : List UInt8}
    (hbreak : lineBreak ∈ breaks) {read : List (List (List UInt8))} {record : List (List UInt8)}
    (hcells : ∀ cell ∈ record, IsPlain delimiter cell) (hne : record ≠ []) :
    ∃ t, ([delimiter].intercalate record).foldl (step delimiter) ⟨.recordStart, read, [], []⟩ = t ∧
      t.finish = read.reverse ++ [record].filter (· != [[]]) ∧
      lineBreak.foldl (step delimiter) t =
        ⟨.recordStart, ([record].filter (· != [[]])).reverse ++ read, [], []⟩ := by
  obtain ⟨t, ht, hout, hend, hplace⟩ :=
    foldl_cells h hcells hne (s := ⟨.recordStart, read, [], []⟩) ⟨.inl rfl, rfl⟩
  refine ⟨t, ht, ?_⟩
  by_cases hempty : record = [[]]
  · subst hempty
    have hsame : t = ⟨.recordStart, read, [], []⟩ := ht.symm
    rw [foldl_break hbreak (hplace.2 ⟨rfl, rfl⟩), hsame]
    simp [finish]
  · have hne : t.place ≠ .recordStart := fun hstart => hempty (hplace.1 hstart).2
    have hfinish : t.finish = t.endRecord.records.reverse := by
      rw [finish]
      cases hs : t.place with
      | recordStart => exact absurd hs hne
      | _ => rfl
    rw [foldl_break_of_ne h hbreak hout hne, hfinish, hend]
    simp [hempty]

/-- Written records are found again, except for empty lines. -/
theorem finish_foldl_records (h : IsDelimiter delimiter) {lineBreak : List UInt8}
    (hbreak : lineBreak ∈ breaks) (closed : Bool) {records : List (List (List UInt8))}
    (hrecords : ∀ record ∈ records, record ≠ [] ∧ ∀ cell ∈ record, IsPlain delimiter cell)
    (read : List (List (List UInt8))) :
    ((written delimiter lineBreak closed records).foldl (step delimiter)
      ⟨.recordStart, read, [], []⟩).finish = read.reverse ++ records.filter (· != [[]]) := by
  induction records generalizing read with
  | nil =>
    have hstart : ∀ {bytes : List UInt8}, bytes = lineBreak ∨ bytes = [] →
        (bytes.foldl (step delimiter) ⟨.recordStart, read, [], []⟩).finish = read.reverse := by
      rintro bytes (rfl | rfl)
      · rw [foldl_break hbreak rfl, finish]
      · rfl
    rw [written, List.map_nil, List.intercalate_nil, List.nil_append, List.filter_nil,
      List.append_nil]
    cases closed with
    | true => exact hstart (.inl rfl)
    | false => exact hstart (.inr rfl)
  | cons record records ih =>
    rw [List.forall_mem_cons] at hrecords
    obtain ⟨t, ht, hfinish, hread⟩ := @foldl_record _ h _ hbreak read _ hrecords.1.2 hrecords.1.1
    cases records with
    | nil =>
      rw [written, List.map_singleton, List.intercalate_singleton, List.foldl_append, ht]
      cases closed with
      | true =>
        rw [if_pos rfl, hread, finish, List.reverse_append, List.reverse_reverse]
      | false => rw [if_neg Bool.false_ne_true, List.foldl_nil, hfinish]
    | cons next records =>
      have hwritten : written delimiter lineBreak closed (record :: next :: records) =
          [delimiter].intercalate record ++ (lineBreak ++
            written delimiter lineBreak closed (next :: records)) := by
        simp only [written, List.map_cons, List.intercalate_cons_cons, List.append_assoc]
      rw [hwritten, List.foldl_append, ht, List.foldl_append, hread, ih hrecords.2,
        List.reverse_append, List.reverse_reverse, List.append_assoc, ← List.filter_append,
        List.singleton_append]

/-! ## Cells that stay -/

/-- Whether a splitter has completed a cell. -/
def Has (s : Splitter) (cell : List UInt8) : Prop :=
  s.place ≠ .recordStart ∧ cell ∈ s.cells ∨ ∃ record ∈ s.records, cell ∈ record

theorem Has.push {place : Place} (hplace : place ≠ .recordStart) (h : s.Has cell) :
    (s.push place b).Has cell :=
  h.imp_left fun hcells => ⟨hplace, hcells.2⟩

theorem Has.endCell (h : s.Has cell) : s.endCell.Has cell :=
  h.imp_left fun hcells => ⟨Place.noConfusion, List.mem_cons_of_mem _ hcells.2⟩

theorem Has.endRecord (h : s.Has cell) : s.endRecord.Has cell := by
  right
  rcases h with ⟨-, hcells⟩ | ⟨record, hrecord, hcell⟩
  · exact ⟨_, List.mem_cons_self, List.mem_reverse.2 (List.mem_cons_of_mem _ hcells)⟩
  · exact ⟨record, List.mem_cons_of_mem _ hrecord, hcell⟩

theorem Has.outside (h : s.Has cell) : (s.outside delimiter b).Has cell := by
  rw [Splitter.outside]
  split
  · exact h.endCell
  split
  · exact h.endRecord
  · exact h.push Place.noConfusion

theorem Has.atCellStart (h : s.Has cell) : (s.atCellStart delimiter b).Has cell := by
  rw [Splitter.atCellStart]
  split
  · exact h.imp_left fun hcells => ⟨Place.noConfusion, hcells.2⟩
  · exact h.outside

/-- What is completed stays so. -/
theorem Has.step (h : s.Has cell) : (s.step delimiter b).Has cell := by
  rw [Splitter.step]
  split
  · split
    · exact h
    · exact h.atCellStart
  · exact h.atCellStart
  · exact h.outside
  · split
    · exact h.imp_left fun hcells => ⟨Place.noConfusion, hcells.2⟩
    · exact h.push Place.noConfusion
  · split
    · exact h.push Place.noConfusion
    · exact h.outside

theorem Has.foldl {bytes : List UInt8} (h : s.Has cell) :
    (bytes.foldl (Splitter.step delimiter) s).Has cell := by
  induction bytes generalizing s with
  | nil => exact h
  | cons b bytes ih => exact ih h.step

theorem Has.finish (h : s.Has cell) : ∃ record ∈ s.finish, cell ∈ record := by
  rw [Splitter.finish]
  split
  · rename_i hstart
    obtain ⟨record, hrecord, hcell⟩ := h.resolve_left fun hcells => hcells.1 hstart
    exact ⟨record, List.mem_reverse.2 hrecord, hcell⟩
  · obtain ⟨record, hrecord, hcell⟩ := h.endRecord.resolve_left fun hcells => hcells.1 rfl
    exact ⟨record, List.mem_reverse.2 hrecord, hcell⟩

/-- Behind a separator the next cell starts. -/
theorem isAtCell_of_separator (h : IsDelimiter delimiter) (hs : s.IsAtCell)
    (hcell : IsPlain delimiter cell) (hb : IsSeparator delimiter b) :
    ((cell ++ [b]).foldl (step delimiter) s).IsAtCell := by
  rw [List.foldl_append, foldl_plain hs.isOutside hcell, List.foldl_cons, List.foldl_nil, hs.2,
    List.append_nil]
  by_cases hempty : cell = []
  · subst hempty
    rw [if_pos rfl, List.reverse_nil, ← hs.2]
    rcases hb with rfl | hbreak
    · rw [step_delimiter h hs.isOutside]
      exact ⟨.inr rfl, rfl⟩
    · by_cases hplace : s.place = .recordStart
      · rw [step_break_of_recordStart hbreak hplace]
        exact hs
      · rw [step_break h hbreak hs.isOutside hplace]
        exact ⟨.inl rfl, rfl⟩
  · rw [if_neg hempty]
    have houtside : (Splitter.mk .open s.records s.cells cell.reverse).IsOutside :=
      ⟨Place.noConfusion, Place.noConfusion⟩
    rcases hb with rfl | hbreak
    · rw [step_delimiter h houtside]
      exact ⟨.inr rfl, rfl⟩
    · rw [step_break h hbreak houtside Place.noConfusion]
      exact ⟨.inl rfl, rfl⟩

/-- A cell between separators, or one with nothing behind it, is a cell of a record. -/
theorem exists_record_of_cell (h : IsDelimiter delimiter) (hs : s.IsAtCell) (hne : cell ≠ [])
    (hcell : IsPlain delimiter cell) {after : List UInt8}
    (hafter : ∀ b ∈ after.head?, IsSeparator delimiter b) :
    ∃ record ∈ ((cell ++ after).foldl (step delimiter) s).finish, cell ∈ record := by
  rw [List.foldl_append, foldl_plain hs.isOutside hcell, if_neg hne, hs.2, List.append_nil]
  set t : Splitter := ⟨.open, s.records, s.cells, cell.reverse⟩
  have hrecord : t.endRecord.Has cell :=
    .inr ⟨_, List.mem_cons_self, by simp [t]⟩
  cases after with
  | nil =>
    obtain ⟨record, hmem, hcell⟩ := hrecord.finish
    exact ⟨record, hmem, hcell⟩
  | cons b after =>
    have houtside : t.IsOutside := ⟨Place.noConfusion, Place.noConfusion⟩
    have hstep : (t.step delimiter b).Has cell := by
      rcases hafter b rfl with rfl | hbreak
      · rw [step_delimiter h houtside]
        exact .inl ⟨Place.noConfusion, by simp [t, endCell]⟩
      · rw [step_break h hbreak houtside Place.noConfusion]
        exact hrecord
    exact hstep.foldl.finish

end Splitter

end FactCube.Csv
