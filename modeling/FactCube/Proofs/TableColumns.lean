import FactCube.Proofs.ConditionGroups
import FactCube.Table.Layout

/-!
# Columns of text tables

A table has a line for its headers, one for the dashes under them and one for each row. In every
line the cells stand at the starts of their columns, and the rest of the line is blank. A column
starts two blanks behind the one before it, which is as wide as its widest header or cell.

But the dashes have a least width of three that the other lines do not keep. So the dashes line up
with the other lines iff each column with another one behind it has a header or a cell of three
characters: under the headers `a` and `b`, the second dashes do not start under the `b`.

Results:
* `Shows.start_eq`: a line tells where its cells start.
* `shows_line`: a line shows its cells at the starts of the columns.
* `isLaidOut_lines`: the headers, the rows and the dashes of a table, each at their own starts.
* `lines_spec`: the lines of a table, and when all of them have the same starts.
* `not_forall_isLaidOut`: a table whose dashes do not line up.
-/

namespace FactCube

namespace Text

theorem trimRight_eq (s : List Char) : trimRight s = s.rdropWhile isBlank := rfl

/-- A character that is not blank stays where blanks are cut behind it. -/
theorem lt_length_trimRight {s : List Char} {i : Nat} {c : Char} (h : s[i]? = some c)
    (hc : isBlank c = false) : i < (trimRight s).length := by
  obtain ⟨b, hb, hs⟩ := exists_trimRight_append s
  by_contra hle
  rw [hs, List.getElem?_append_right (Nat.le_of_not_lt hle)] at h
  rw [hb c (List.mem_of_getElem? h)] at hc
  cases hc

theorem getElem?_trimRight {s : List Char} {i : Nat} (h : i < (trimRight s).length) :
    (trimRight s)[i]? = s[i]? := by
  obtain ⟨b, -, hs⟩ := exists_trimRight_append s
  conv_rhs => rw [hs]
  exact (List.getElem?_append_left h).symm

/-- What is left of a text ends with a character that is not blank. -/
theorem exists_last {s : List Char} (h : trimRight s ≠ []) :
    ∃ init c, trimRight s = init ++ [c] ∧ isBlank c = false := by
  obtain ⟨init, c, hc⟩ := List.eq_nil_or_concat' (trimRight s) |>.resolve_left h
  refine ⟨init, c, hc, ?_⟩
  have hlast := List.rdropWhile_last_not isBlank s h
  simp only [← trimRight_eq, hc, List.getLast_append_singleton] at hlast
  simpa using hlast

/-- A text that is not blank has a first character that is not. -/
theorem exists_first {s : List Char} (h : trimRight s ≠ []) :
    ∃ (i : Nat) (c : Char), s[i]? = some c ∧ isBlank c = false ∧
      ∀ j < i, ∀ d, s[j]? = some d → isBlank d = true := by
  obtain ⟨init, last, hlast, hvisible⟩ := exists_last h
  have hmem : last ∈ s :=
    (List.rdropWhile_prefix isBlank s).subset (by rw [← trimRight_eq, hlast]; simp)
  have hsome : (s.findIdx? fun c => !isBlank c).isSome = true := by
    rw [List.findIdx?_isSome, List.any_eq_true]
    exact ⟨last, hmem, by rw [hvisible]; rfl⟩
  obtain ⟨i, hi⟩ := Option.isSome_iff_exists.1 hsome
  obtain ⟨hlt, hfirst, hbefore⟩ := List.findIdx?_eq_some_iff_getElem.1 hi
  refine ⟨i, s[i], List.getElem?_eq_getElem hlt, by simpa using hfirst, fun j hj d hd => ?_⟩
  obtain ⟨hlt', rfl⟩ := List.getElem?_eq_some_iff.1 hd
  simpa using hbefore j hj

/-- Where two texts differ in blanks at their ends only, so do they behind the same text. -/
theorem trimRight_append_congr {s t : List Char} (before : List Char)
    (h : trimRight s = trimRight t) : trimRight (before ++ s) = trimRight (before ++ t) := by
  obtain ⟨b, hb, hs⟩ := exists_trimRight_append s
  obtain ⟨b', hb', ht⟩ := exists_trimRight_append t
  rw [hs, ht, ← List.append_assoc, ← List.append_assoc, trimRight_append_blank _ hb,
    trimRight_append_blank _ hb', h]

end Text

namespace Table

/-! ## The specification -/

/-- The length of the cell in a column, zero where there is none. -/
def lengthAt (column : Nat) (cells : List String) : Nat :=
  (cells[column]?.map fun cell => cell.toList.length).getD 0

/-- The length of the widest header or cell of a column. -/
def widest (headers : List String) (rows : List (List String)) (column : Nat) : Nat :=
  ((headers :: rows).map (lengthAt column)).foldr max 0

/-- The place where a column starts if two blanks stand between columns and each is as wide as its
widest header or cell, but no narrower than the least width. -/
def start (least : Nat) (headers : List String) (rows : List (List String)) (column : Nat) : Nat :=
  ∑ before ∈ Finset.range column, (max (widest headers rows before) least + 2)

/-- The cells that a line has to show: those up to the last header. -/
def texts (headers cells : List String) : List (List Char) :=
  (cells.take headers.length).map flatten

/-- The dashes under the headers. -/
def dashes (headers : List String) (rows : List (List String)) : List (List Char) :=
  (List.range headers.length).map fun column =>
    List.replicate (max (widest headers rows column) 3) '-'

/-- Whether a line shows some texts from their starts on, and is blank besides. Blanks at the end of
a text may be cut. -/
structure Shows (written : List Char) (start : Nat → Nat) (texts : List (List Char)) : Prop where
  stands : ∀ column text, texts[column]? = some text →
    Text.trimRight text <+: written.drop (start column)
  blank_besides : ∀ k c, written[k]? = some c → Text.isBlank c = false →
    ∃ column text, texts[column]? = some text ∧ start column ≤ k ∧
      k < start column + (Text.trimRight text).length

/-- Whether some lines are those of a table: its headers and its rows from the starts of the columns
on, with the dashes between them from starts of their own on. -/
inductive IsLaidOut (start dashStart : Nat → Nat) (headers : List String)
    (rows : List (List String)) : List (List Char) → Prop
  | intro {header rule : List Char} {shown : List (List Char)} :
    Shows header start (texts headers headers) →
    Shows rule dashStart (dashes headers rows) →
    List.Forall₂ (fun cells written => Shows written start (texts headers cells)) rows shown →
    IsLaidOut start dashStart headers rows (header :: rule :: shown)

/-! ## Lines that show texts -/

namespace Shows

variable {written : List Char} {texts : List (List Char)} {start start' : Nat → Nat}

theorem nil (start : Nat → Nat) : Shows [] start [] where
  stands := fun _ _ h => nomatch h
  blank_besides := fun _ _ h => nomatch h

/-- A block in front of a line shows one more text, and moves the others. -/
theorem cons (h : Shows written start texts) {block text : List Char}
    (hblock : Text.trimRight block = Text.trimRight text) (hzero : start' 0 = 0)
    (hsucc : ∀ column, start' (column + 1) = block.length + start column) :
    Shows (block ++ written) start' (text :: texts) where
  stands := by
    rintro (_ | column) shown hshown
    · cases hshown
      rw [hzero, List.drop_zero, ← hblock]
      exact (List.rdropWhile_prefix _ _).trans (List.prefix_append _ _)
    · rw [hsucc, List.drop_append, List.drop_eq_nil_of_le (Nat.le_add_right _ _), List.nil_append,
        Nat.add_sub_cancel_left]
      exact h.stands column shown hshown
  blank_besides := by
    intro k c hk hc
    rcases Nat.lt_or_ge k block.length with hlt | hle
    · rw [List.getElem?_append_left hlt] at hk
      refine ⟨0, text, rfl, by rw [hzero]; exact Nat.zero_le k, ?_⟩
      rw [hzero, Nat.zero_add, ← hblock]
      exact Text.lt_length_trimRight hk hc
    · rw [List.getElem?_append_right hle] at hk
      obtain ⟨column, shown, hshown, hfrom, hto⟩ := h.blank_besides _ c hk hc
      refine ⟨column + 1, shown, hshown, ?_, ?_⟩ <;> rw [hsucc] <;> omega

/-- Cutting blanks at the end of a line cuts none of its texts. -/
theorem trimRight (h : Shows written start texts) :
    Shows (Text.trimRight written) start texts where
  stands := by
    intro column text htext
    by_cases hblank : Text.trimRight text = []
    · rw [hblank]
      exact List.nil_prefix
    obtain ⟨rest, hrest⟩ := h.stands column text htext
    obtain ⟨init, last, hlast, hvisible⟩ := Text.exists_last hblank
    have hget : written[start column + init.length]? = some last := by
      rw [← List.getElem?_drop, ← hrest, hlast, List.append_assoc, List.getElem?_append_right le_rfl,
        Nat.sub_self]
      rfl
    have hlt := Text.lt_length_trimRight hget hvisible
    have hprefix : (Text.trimRight written).drop (start column) <+: written.drop (start column) :=
      (List.rdropWhile_prefix Text.isBlank written).drop _
    refine List.prefix_of_prefix_length_le ⟨rest, hrest⟩ hprefix ?_
    rw [hlast, List.length_append, List.length_singleton, List.length_drop]
    omega
  blank_besides := by
    intro k c hk hc
    have hlt := (List.getElem?_eq_some_iff.1 hk).1
    rw [Text.getElem?_trimRight hlt] at hk
    exact h.blank_besides k c hk hc

/-- Where a text is blank, it does not matter where it starts. -/
theorem congr (h : Shows written start texts)
    (heq : ∀ column text, texts[column]? = some text → Text.trimRight text ≠ [] →
      start column = start' column) : Shows written start' texts where
  stands := by
    intro column text htext
    by_cases hblank : Text.trimRight text = []
    · rw [hblank]
      exact List.nil_prefix
    · rw [← heq column text htext hblank]
      exact h.stands column text htext
  blank_besides := by
    intro k c hk hc
    obtain ⟨column, text, htext, hfrom, hto⟩ := h.blank_besides k c hk hc
    have hne : Text.trimRight text ≠ [] := by
      intro hnil
      rw [hnil, List.length_nil] at hto
      omega
    rw [heq column text htext hne] at hfrom hto
    exact ⟨column, text, htext, hfrom, hto⟩

/-! ## The starts that a line tells -/

/-- The characters of a text, blanks aside, stand in the line. -/
theorem getElem?_written (h : Shows written start texts) {column i : Nat} {text : List Char}
    (htext : texts[column]? = some text) {c : Char} (hi : text[i]? = some c)
    (hc : Text.isBlank c = false) : written[start column + i]? = some c := by
  obtain ⟨rest, hrest⟩ := h.stands column text htext
  have hlt := Text.lt_length_trimRight hi hc
  rw [← List.getElem?_drop, ← hrest, List.getElem?_append_left hlt, Text.getElem?_trimRight hlt, hi]

/-- The characters of a line, blanks aside, are those of its texts. -/
theorem exists_text (h : Shows written start texts) {k : Nat} {c : Char} (hk : written[k]? = some c)
    (hc : Text.isBlank c = false) :
    ∃ column text i, texts[column]? = some text ∧ k = start column + i ∧ text[i]? = some c := by
  obtain ⟨column, text, htext, hfrom, hto⟩ := h.blank_besides k c hk hc
  obtain ⟨i, rfl⟩ := Nat.exists_eq_add_of_le hfrom
  have hlt : i < (Text.trimRight text).length := Nat.lt_of_add_lt_add_left hto
  obtain ⟨rest, hrest⟩ := h.stands column text htext
  refine ⟨column, text, i, htext, rfl, ?_⟩
  rw [← Text.getElem?_trimRight hlt, ← hk, ← List.getElem?_drop, ← hrest,
    List.getElem?_append_left hlt]

/-- Whether every text ends before those behind it start. -/
def IsApart (start : Nat → Nat) (texts : List (List Char)) : Prop :=
  ∀ before column text, before < column → texts[before]? = some text →
    start before + text.length ≤ start column

/-- Where the texts before agree, a text does not start earlier by one reading of a line. -/
theorem not_start_lt (hs : Shows written start texts) (ht : Shows written start' texts)
    (hapart : IsApart start texts) (hapart' : IsApart start' texts) {column : Nat}
    {text : List Char} (htext : texts[column]? = some text) (hne : Text.trimRight text ≠ [])
    (ih : ∀ before < column, ∀ other, texts[before]? = some other → Text.trimRight other ≠ [] →
      start before = start' before) : ¬ start column < start' column := by
  intro hlt
  obtain ⟨i, c, hi, hc, hfirst⟩ := Text.exists_first hne
  have hlength := (List.getElem?_eq_some_iff.1 hi).1
  -- the first character of the text that is not blank, by one reading, is a character of some text
  -- by the other one
  obtain ⟨found, other, i', hother, hplace, hi'⟩ :=
    ht.exists_text (hs.getElem?_written htext hi hc) hc
  have hlength' := (List.getElem?_eq_some_iff.1 hi').1
  rcases Nat.lt_trichotomy found column with hbefore | rfl | hafter
  · have hne' : Text.trimRight other ≠ [] := by
      have hpos := Text.lt_length_trimRight hi' hc
      exact List.ne_nil_of_length_pos (by omega)
    have hsame := ih found hbefore other hother hne'
    have hend := hapart found column other hbefore hother
    omega
  · cases hother.symm.trans htext
    rw [hfirst i' (by omega) c hi'] at hc
    cases hc
  · have hend := hapart' column found text hafter htext
    omega

/-- A line tells where its texts start, as far as they are not blank. -/
theorem start_eq (hs : Shows written start texts) (ht : Shows written start' texts)
    (hapart : IsApart start texts) (hapart' : IsApart start' texts) {column : Nat}
    {text : List Char} (htext : texts[column]? = some text) (hne : Text.trimRight text ≠ []) :
    start column = start' column := by
  induction column using Nat.strongRecOn generalizing text with
  | ind column ih =>
    have hforth := not_start_lt hs ht hapart hapart' htext hne
      fun before hlt other hother hne' => ih before hlt hother hne'
    have hback := not_start_lt ht hs hapart' hapart htext hne
      fun before hlt other hother hne' => (ih before hlt hother hne').symm
    omega

end Shows

/-! ## Widths of columns -/

variable {headers : List String} {rows : List (List String)}

theorem length_flatten (cell : String) : (flatten cell).length = cell.toList.length :=
  List.length_map _

theorem getElem?_widen (widths : List Nat) (cells : List String) (column : Nat) :
    (widen widths cells)[column]? = widths[column]?.map fun width =>
      max width (lengthAt column cells) := by
  induction widths generalizing cells column with
  | nil => cases cells <;> rfl
  | cons width widths ih =>
    cases cells with
    | nil =>
      have hzero : lengthAt column [] = 0 := rfl
      simp only [widen, hzero, Nat.max_zero, Option.map_id']
    | cons cell cells =>
      cases column with
      | zero =>
        simp only [widen, List.getElem?_cons_zero, Option.map_some, lengthAt, Option.getD_some,
          length_flatten]
      | succ column => exact ih cells column

theorem getElem?_foldl_widen (widths : List Nat) (column : Nat) :
    (rows.foldl widen widths)[column]? = widths[column]?.map fun width =>
      max width ((rows.map (lengthAt column)).foldr max 0) := by
  induction rows generalizing widths with
  | nil => simp
  | cons cells rows ih =>
    rw [List.foldl_cons, ih, getElem?_widen, Option.map_map, List.map_cons, List.foldr_cons]
    refine congrArg (Option.map · _) (funext fun width => ?_)
    exact Nat.max_assoc _ _ _

/-- A column is as wide as its widest header or cell, and no narrower than one character. -/
theorem getElem?_widths {column : Nat} (h : column < headers.length) :
    (widths headers rows)[column]? = some (max (widest headers rows column) 1) := by
  rw [widths, getElem?_foldl_widen, List.getElem?_map, List.getElem?_eq_getElem h, Option.map_some,
    Option.map_some, widest, List.map_cons, List.foldr_cons, lengthAt, List.getElem?_eq_getElem h,
    Option.map_some, Option.getD_some]
  exact congrArg some (Nat.max_right_comm _ _ _)

theorem length_widen (widths : List Nat) (cells : List String) :
    (widen widths cells).length = widths.length := by
  induction widths generalizing cells with
  | nil => cases cells <;> rfl
  | cons width widths ih =>
    cases cells with
    | nil => rfl
    | cons cell cells => rw [widen, List.length_cons, List.length_cons, ih]

theorem length_widths (headers : List String) (rows : List (List String)) :
    (widths headers rows).length = headers.length := by
  have hfold : ∀ widths : List Nat, (rows.foldl widen widths).length = widths.length := by
    induction rows with
    | nil => exact fun _ => rfl
    | cons cells rows ih => exact fun widths => (ih _).trans (length_widen widths cells)
  rw [widths, hfold, List.length_map]

/-- No header and no cell is wider than its column. -/
theorem length_le_widest {cells : List String} (h : cells ∈ headers :: rows) {column : Nat}
    {cell : String} (hcell : cells[column]? = some cell) :
    cell.toList.length ≤ widest headers rows column := by
  have hlength : cell.toList.length = lengthAt column cells := by
    rw [lengthAt, hcell, Option.map_some, Option.getD_some]
  have hle : ∀ lengths : List Nat, ∀ n ∈ lengths, n ≤ lengths.foldr max 0 := by
    intro lengths
    induction lengths with
    | nil => exact fun n hn => nomatch hn
    | cons m lengths ih =>
      rw [List.forall_mem_cons]
      exact ⟨Nat.le_max_left _ _, fun n hn => (ih n hn).trans (Nat.le_max_right _ _)⟩
  rw [hlength]
  exact hle _ _ (List.mem_map_of_mem h)

/-! ## Lines of a table -/

/-- The place where a column starts behind columns of some widths. -/
def startBehind (widths : List Nat) (column : Nat) : Nat :=
  ((widths.take column).map (· + 2)).sum

theorem startBehind_eq {widths : List Nat} {least : Nat}
    (h : ∀ column < headers.length,
      widths[column]? = some (max (widest headers rows column) least))
    {column : Nat} (hcolumn : column ≤ headers.length) :
    startBehind widths column = start least headers rows column := by
  induction column with
  | zero => rfl
  | succ column ih =>
    have hstep : startBehind widths (column + 1) =
        startBehind widths column + (max (widest headers rows column) least + 2) := by
      rw [startBehind, List.take_add_one, h column hcolumn, List.map_append, List.sum_append]
      rfl
    rw [hstep, ih (Nat.le_of_succ_le hcolumn), start, start, Finset.sum_range_succ]

/-- The blanks between two columns. -/
def gap : List Char := [' ', ' ']

theorem isBlank_of_mem_gap : ∀ c ∈ gap, Text.isBlank c = true :=
  List.forall_mem_cons.2 ⟨rfl, List.forall_mem_singleton.2 rfl⟩

/-- Blanks at the end of a line are cut, so a gap may stand behind the last cell as well. -/
theorem trimRight_spaced (cells : List (List Char)) :
    Text.trimRight (spaced cells) = Text.trimRight (cells.flatMap (· ++ gap)) := by
  induction cells with
  | nil => rfl
  | cons cell cells ih =>
    rw [List.flatMap_cons]
    cases cells with
    | nil =>
      rw [List.flatMap_nil, List.append_nil, Text.trimRight_append_blank cell isBlank_of_mem_gap]
      rfl
    | cons next cells =>
      have hspaced : spaced (cell :: next :: cells) =
          (cell ++ gap) ++ spaced (next :: cells) := by
        rw [List.append_assoc]
        rfl
      rw [hspaced]
      exact Text.trimRight_append_congr _ ih

/-- Whether every column has room for its cell. -/
def HasRoom (widths : List Nat) (cells : List String) : Prop :=
  ∀ (column : Nat) (cell : String) (width : Nat), cells[column]? = some cell →
    widths[column]? = some width → (flatten cell).length ≤ width

/-- A padded cell with a gap behind it is as the cell, up to blanks at its end. -/
theorem trimRight_pad (width : Nat) (text : List Char) :
    Text.trimRight (pad width text ++ gap) = Text.trimRight text := by
  rw [pad, List.append_assoc]
  refine Text.trimRight_append_blank _ fun c hc => ?_
  rcases List.mem_append.1 hc with hc | hc
  · rw [List.eq_of_mem_replicate hc]
    rfl
  · exact isBlank_of_mem_gap c hc

theorem length_pad {width : Nat} {text : List Char} (h : text.length ≤ width) :
    (pad width text ++ gap).length = width + 2 := by
  rw [pad, List.length_append, List.length_append, List.length_replicate, Nat.add_sub_cancel' h]
  rfl

/-- Padded cells with gaps behind them show the cells from the starts of the columns on. -/
theorem shows_flatMap {widths : List Nat} {cells : List String} (h : HasRoom widths cells) :
    Shows (((cells.zip widths).map fun (cell, width) => pad width (flatten cell)).flatMap
        (· ++ gap)) (startBehind widths) ((cells.take widths.length).map flatten) := by
  induction widths generalizing cells with
  | nil =>
    rw [List.zip_nil_right, List.length_nil, List.take_zero]
    exact Shows.nil _
  | cons width widths ih =>
    cases cells with
    | nil =>
      rw [List.zip_nil_left, List.take_nil]
      exact Shows.nil _
    | cons cell cells =>
      have hwidth : (flatten cell).length ≤ width := h 0 cell width rfl rfl
      rw [List.zip_cons_cons, List.map_cons, List.flatMap_cons, List.length_cons,
        List.take_succ_cons, List.map_cons]
      refine (ih fun column cell width hcell hw => h (column + 1) cell width hcell hw).cons
        (trimRight_pad width _) rfl fun column => ?_
      rw [length_pad hwidth, startBehind, List.take_succ_cons, List.map_cons, List.sum_cons,
        startBehind]

/-- A line shows its cells from the starts of the columns on. -/
theorem shows_line {widths : List Nat} {cells : List String} (h : HasRoom widths cells) :
    Shows (line widths cells) (startBehind widths) ((cells.take widths.length).map flatten) := by
  rw [line, trimRight_spaced]
  exact (shows_flatMap h).trimRight

/-- The line of the headers or of a row. -/
theorem shows_line_widths {cells : List String} (h : cells ∈ headers :: rows) :
    Shows (line (widths headers rows) cells) (start 1 headers rows) (texts headers cells) := by
  have hshows : Shows (line (widths headers rows) cells) (startBehind (widths headers rows))
      (texts headers cells) := by
    rw [texts, ← length_widths headers rows]
    refine shows_line fun column cell width hcell hwidth => ?_
    have hlt := (List.getElem?_eq_some_iff.1 hwidth).1
    rw [length_widths] at hlt
    rw [getElem?_widths hlt, Option.some.injEq] at hwidth
    rw [← hwidth, length_flatten]
    exact (length_le_widest h hcell).trans (Nat.le_max_left _ _)
  refine hshows.congr fun column text htext _ => ?_
  have hlt : column < headers.length := by
    have hlt := (List.getElem?_eq_some_iff.1 htext).1
    rw [texts, List.length_map, List.length_take] at hlt
    omega
  exact startBehind_eq (fun _ => getElem?_widths) hlt.le

/-- The widths of the dashes. -/
def dashWidths (headers : List String) (rows : List (List String)) : List Nat :=
  (widths headers rows).map (Nat.max · 3)

theorem length_dashWidths (headers : List String) (rows : List (List String)) :
    (dashWidths headers rows).length = headers.length := by
  rw [dashWidths, List.length_map, length_widths]

/-- There are as many dashes under a header as its column is wide, and at least three. -/
theorem getElem?_dashWidths {column : Nat} (h : column < headers.length) :
    (dashWidths headers rows)[column]? = some (max (widest headers rows column) 3) := by
  rw [dashWidths, List.getElem?_map, getElem?_widths h, Option.map_some, Option.some.injEq]
  exact (Nat.max_assoc _ _ _).trans (congrArg _ (by decide))

theorem map_flatten_dashWidths (headers : List String) (rows : List (List String)) :
    (dashWidths headers rows).map
        (flatten ∘ fun width => String.ofList (List.replicate width '-')) =
      dashes headers rows := by
  refine List.ext_getElem? fun column => ?_
  rw [List.getElem?_map, dashes, List.getElem?_map]
  rcases Nat.lt_or_ge column headers.length with hlt | hle
  · rw [getElem?_dashWidths hlt, List.getElem?_range hlt, Option.map_some, Option.map_some,
      Function.comp_apply, flatten, String.toList_ofList, List.map_replicate]
    rfl
  · rw [List.getElem?_eq_none ((length_dashWidths headers rows).le.trans hle),
      List.getElem?_eq_none (List.length_range.le.trans hle)]
    rfl

/-- The line of the dashes. -/
theorem shows_rule (headers : List String) (rows : List (List String)) :
    Shows (rule (widths headers rows)) (start 3 headers rows) (dashes headers rows) := by
  have hroom : HasRoom (dashWidths headers rows)
      ((dashWidths headers rows).map fun width => String.ofList (List.replicate width '-')) := by
    intro column cell width hcell hwidth
    rw [List.getElem?_map, hwidth, Option.map_some, Option.some.injEq] at hcell
    rw [← hcell, length_flatten, String.toList_ofList, List.length_replicate]
  have hshows := shows_line hroom
  rw [List.take_of_length_le (List.length_map _).le, List.map_map, map_flatten_dashWidths] at hshows
  refine hshows.congr fun column text htext _ => startBehind_eq (fun _ => getElem?_dashWidths) ?_
  have hlt := (List.getElem?_eq_some_iff.1 htext).1
  rw [dashes, List.length_map, List.length_range] at hlt
  exact hlt.le

/-- The lines of a table: its headers and rows, and the dashes, which have a least width of their
own. -/
theorem isLaidOut_lines (headers : List String) (rows : List (List String)) :
    IsLaidOut (start 1 headers rows) (start 3 headers rows) headers rows (lines headers rows) := by
  refine .intro (shows_line_widths List.mem_cons_self) (shows_rule headers rows) ?_
  rw [List.forall₂_map_right_iff, List.forall₂_same]
  exact fun cells hcells => shows_line_widths (List.mem_cons_of_mem _ hcells)

/-! ## Dashes that line up -/

theorem startsApart {least : Nat} {cells : List String} (h : cells ∈ headers :: rows) :
    Shows.IsApart (start least headers rows) (texts headers cells) := by
  intro before column text hlt htext
  have hlength : text.length ≤ widest headers rows before := by
    rw [texts, List.getElem?_map, Option.map_eq_some_iff] at htext
    obtain ⟨cell, hcell, rfl⟩ := htext
    rw [List.getElem?_take] at hcell
    split at hcell
    · exact (length_flatten cell).le.trans (length_le_widest h hcell)
    · cases hcell
  have hsubset : Finset.range (before + 1) ⊆ Finset.range column := Finset.range_subset_range.2 hlt
  have hle : start least headers rows (before + 1) ≤ start least headers rows column :=
    Finset.sum_le_sum_of_subset hsubset
  rw [start, Finset.sum_range_succ, ← start] at hle
  have hmax := Nat.le_max_left (widest headers rows before) least
  omega

/-- The dashes of a column start under its header iff every column before it is at least as wide as
three dashes. -/
theorem start_one_eq_start_three_iff {column : Nat} :
    start 1 headers rows column = start 3 headers rows column ↔
      ∀ before < column, 3 ≤ widest headers rows before := by
  rw [start, start, Finset.sum_eq_sum_iff_of_le fun before _ => by omega]
  refine forall_congr' fun before => ?_
  rw [Finset.mem_range]
  refine imp_congr_right fun _ => ?_
  omega

/-- Whether a column has a header or a cell that is not blank. -/
def IsVisible (headers : List String) (rows : List (List String)) (column : Nat) : Prop :=
  ∃ cells ∈ headers :: rows, ∃ text, (texts headers cells)[column]? = some text ∧
    Text.trimRight text ≠ []

/-- All lines of a table have the starts of the dashes iff every column before one with a text is at
least as wide as three dashes. -/
theorem isLaidOut_three_iff :
    IsLaidOut (start 3 headers rows) (start 3 headers rows) headers rows (lines headers rows) ↔
      ∀ column, IsVisible headers rows column →
        ∀ before < column, 3 ≤ widest headers rows before := by
  constructor
  · rintro (⟨hheader, -, hrows⟩)
    rw [List.forall₂_map_right_iff, List.forall₂_same] at hrows
    rintro column ⟨cells, hcells, text, htext, hne⟩
    have hline : Shows (line (widths headers rows) cells) (start 3 headers rows)
        (texts headers cells) := by
      rcases List.mem_cons.1 hcells with rfl | hrow
      · exact hheader
      · exact hrows cells hrow
    exact start_one_eq_start_three_iff.1 ((shows_line_widths hcells).start_eq hline
      (startsApart hcells) (startsApart hcells) htext hne)
  · intro h
    have hline : ∀ cells ∈ headers :: rows, Shows (line (widths headers rows) cells)
        (start 3 headers rows) (texts headers cells) := fun cells hcells =>
      (shows_line_widths hcells).congr fun column text htext hne =>
        start_one_eq_start_three_iff.2 (h column ⟨cells, hcells, text, htext, hne⟩)
    refine .intro (hline headers List.mem_cons_self) (shows_rule headers rows) ?_
    rw [List.forall₂_map_right_iff, List.forall₂_same]
    exact fun cells hcells => hline cells (List.mem_cons_of_mem _ hcells)

/-! ## The text of a table -/

theorem mem_spaced {cells : List (List Char)} {c : Char} (h : c ∈ spaced cells) :
    c = ' ' ∨ ∃ cell ∈ cells, c ∈ cell := by
  induction cells with
  | nil => cases h
  | cons cell cells ih =>
    cases cells with
    | nil => exact .inr ⟨cell, List.mem_cons_self, h⟩
    | cons next cells =>
      have hspaced : c ∈ cell ++ ' ' :: ' ' :: spaced (next :: cells) := h
      rw [List.mem_append, List.mem_cons, List.mem_cons] at hspaced
      rcases hspaced with hcell | rfl | rfl | hrest
      · exact .inr ⟨cell, List.mem_cons_self, hcell⟩
      · exact .inl rfl
      · exact .inl rfl
      · refine (ih hrest).imp_right ?_
        rintro ⟨other, hother, hc⟩
        exact ⟨other, List.mem_cons_of_mem _ hother, hc⟩

/-- No line holds a line break. -/
theorem notMem_line (widths : List Nat) (cells : List String) : '\n' ∉ line widths cells := by
  intro h
  have hspaced := (List.rdropWhile_prefix _ _).subset h
  rcases mem_spaced hspaced with hblank | ⟨padded, hpadded, hc⟩
  · exact absurd hblank (by decide)
  obtain ⟨⟨cell, width⟩, -, rfl⟩ := List.mem_map.1 hpadded
  rcases List.mem_append.1 hc with hflat | hpad
  · obtain ⟨c, -, hc⟩ := List.mem_map.1 hflat
    split at hc
    · exact absurd hc (by decide)
    · rename_i hnot
      rw [hc] at hnot
      exact hnot rfl
  · exact absurd (List.eq_of_mem_replicate hpad) (by decide)

/-- A text of lines that end in line breaks is cut into these lines. -/
theorem splitAll_flatMap {lines : List (List Char)} (h : ∀ written ∈ lines, '\n' ∉ written) :
    Text.splitAll '\n' (lines.flatMap fun written => written ++ ['\n']) = lines ++ [[]] := by
  induction lines with
  | nil => rfl
  | cons written lines ih =>
    rw [List.forall_mem_cons] at h
    rw [List.flatMap_cons, List.append_assoc, List.singleton_append, Text.splitAll_append,
      Text.splitAll_of_notMem h.1, ih h.2]
    rfl

/-- The lines of a table, two more than it has rows, and the starts of its columns: headers and rows
have their columns in one place, and the dashes have theirs in the same place iff every column before
one with a text has a header or a cell of three characters. -/
theorem lines_spec (headers : List String) (rows : List (List String)) :
    Text.splitAll '\n' (render headers rows).toList = lines headers rows ++ [[]] ∧
      (lines headers rows).length = rows.length + 2 ∧
      IsLaidOut (start 1 headers rows) (start 3 headers rows) headers rows (lines headers rows) ∧
      (IsLaidOut (start 3 headers rows) (start 3 headers rows) headers rows (lines headers rows) ↔
        ∀ column, IsVisible headers rows column →
          ∀ before < column, 3 ≤ widest headers rows before) := by
  refine ⟨?_, ?_, isLaidOut_lines headers rows, isLaidOut_three_iff⟩
  · rw [render, String.toList_ofList]
    refine splitAll_flatMap fun written hwritten => ?_
    simp only [lines, List.mem_cons, List.mem_map] at hwritten
    rcases hwritten with rfl | rfl | ⟨cells, -, rfl⟩
    · exact notMem_line _ _
    · exact notMem_line _ _
    · exact notMem_line _ _
  · rw [lines, List.length_cons, List.length_cons, List.length_map]

/-- Under the headers `a` and `b`, the second dashes start two characters behind the `b`. -/
theorem not_forall_isLaidOut :
    ¬ ∀ (headers : List String) (rows : List (List String)),
      IsLaidOut (start 3 headers rows) (start 3 headers rows) headers rows
        (lines headers rows) := by
  intro h
  have hlaid := h ["a", "b"] [["1", "2"]]
  rcases hlaid with ⟨hheader, -, -⟩
  have hstands := hheader.stands 1 ['b'] rfl
  revert hstands
  decide

end Table

end FactCube
