import FactCube.Proofs.DelimitedRecords
import FactCube.Proofs.Encodings

/-!
# Encoded tables

A table of texts is written with a delimiter between cells and a line break between lines, and then
in some encoding. A file is split at single bytes before anything is decoded. Where ASCII characters
are single bytes, the delimiter and the line breaks are such bytes and no byte of a cell looks like
them, so the splitter finds the cells again, each in its own bytes.

Results:
* `Table.exists_text_eq`, `exists_cell_of_mem_text`: cells and separators take turns.
* `Table.bytes_eq_written`, `IsPlain.isPlain_encode`: the bytes of a table and of its cells.
* `Table.IsPlain.records_bytes`: the raw records of a file.
-/

namespace FactCube

/-! ## Tables -/

/-- Headers and records of texts. -/
structure Table where
  headers : List String
  records : List (List String)

/-- How a file separates cells and lines: by a character of ASCII that is neither a quote nor a line
break, and by one of the line breaks, which may stand behind the last line too. -/
structure Layout where
  delimiter : Char
  lineBreak : List Char
  closed : Bool
  ascii : delimiter.toNat < 0x80
  ne_quote : delimiter ≠ '"'
  ne_feed : delimiter ≠ '\n'
  ne_return : delimiter ≠ '\r'
  isBreak : lineBreak ∈ [['\n'], ['\r'], ['\r', '\n']]

/-- The byte of the delimiter. -/
def Layout.byte (layout : Layout) : UInt8 := UInt8.ofNat layout.delimiter.toNat

/-- Whether a character stands behind a cell. -/
def Layout.IsSeparator (layout : Layout) (c : Char) : Prop :=
  c = layout.delimiter ∨ c = '\n' ∨ c = '\r'

instance (layout : Layout) : DecidablePred layout.IsSeparator := fun c =>
  inferInstanceAs (Decidable (c = layout.delimiter ∨ c = '\n' ∨ c = '\r'))

namespace Table

/-- All texts of a table. -/
def cells (table : Table) : List String := (table.headers :: table.records).flatten

/-- The text of a table, without quotes. -/
def text (table : Table) (layout : Layout) : List Char :=
  layout.lineBreak.intercalate ((table.headers :: table.records).map fun cells =>
    [layout.delimiter].intercalate (cells.map String.toList)) ++
      if layout.closed then layout.lineBreak else []

/-- The bytes of a table in an encoding. -/
def bytes (table : Table) (layout : Layout) (encoding : Encoding) : List UInt8 :=
  encoding.encode (table.text layout)

/-- Whether a table can be written without quotes: it has distinct headers and no empty record, and
no cell holds what ends or opens one, or the character of a byte order mark. -/
structure IsPlain (table : Table) (layout : Layout) : Prop where
  headers_nodup : table.headers.Nodup
  headers_nonempty : "" ∉ table.headers
  lengths : ∀ record ∈ table.records, record.length = table.headers.length
  records_nonempty : ∀ record ∈ table.records, ∃ cell ∈ record, cell ≠ ""
  plain : ∀ cell ∈ table.cells, ∀ c ∈ cell.toList,
    ¬ layout.IsSeparator c ∧ c ≠ '"' ∧ c ≠ '\uFEFF'

end Table

/-! ## Separators -/

namespace Layout

variable (layout : Layout)

theorem toNat_byte : layout.byte.toNat = layout.delimiter.toNat := by
  have hascii := layout.ascii
  rw [byte, UInt8.toNat_ofNat', Nat.mod_eq_of_lt (by omega)]

theorem byte_lt : layout.byte < 0x80 := by
  rw [UInt8.lt_iff_toNat_lt, toNat_byte]
  exact layout.ascii

theorem ofNat_byte : Char.ofNat layout.byte.toNat = layout.delimiter := by
  rw [toNat_byte, Char.ofNat_toNat]

theorem isDelimiter_byte : Csv.IsDelimiter layout.byte := by
  have hne : ∀ {b : UInt8}, layout.delimiter ≠ Char.ofNat b.toNat → layout.byte ≠ b := by
    rintro b hne rfl
    exact hne layout.ofNat_byte.symm
  exact ⟨hne layout.ne_quote, hne layout.ne_feed, hne layout.ne_return⟩

theorem isSeparator_of_mem_lineBreak : ∀ c ∈ layout.lineBreak, layout.IsSeparator c := by
  have hbreak := layout.isBreak
  simp only [List.mem_cons, List.not_mem_nil, or_false] at hbreak
  rcases hbreak with h | h | h <;> simp [h, IsSeparator]

theorem lineBreak_ne_nil : layout.lineBreak ≠ [] := by
  intro hempty
  have hbreak := layout.isBreak
  simp [hempty] at hbreak

variable {layout}

theorem toNat_lt_of_isSeparator {c : Char} (hc : layout.IsSeparator c) : c.toNat < 0x80 := by
  rcases hc with rfl | rfl | rfl
  · exact layout.ascii
  · decide
  · decide

theorem isSeparator_byte {c : Char} (hc : layout.IsSeparator c) :
    Csv.IsSeparator layout.byte (UInt8.ofNat c.toNat) := by
  rcases hc with rfl | rfl | rfl
  · exact .inl rfl
  · exact .inr (.inl rfl)
  · exact .inr (.inr rfl)

theorem isPlain_zero (hnul : layout.byte ≠ 0) :
    ¬ Csv.IsSeparator layout.byte 0 ∧ (0 : UInt8) ≠ 34 := by
  refine ⟨?_, by decide⟩
  rintro (hzero | hzero | hzero)
  · exact hnul hzero.symm
  · cases hzero
  · cases hzero

end Layout

/-! ## Texts of tables -/

theorem mem_of_mem_intercalate {α : Type} {separator : List α} {pieces : List (List α)} {a : α}
    (h : a ∈ separator.intercalate pieces) : a ∈ separator ∨ ∃ piece ∈ pieces, a ∈ piece := by
  cases pieces with
  | nil => cases h
  | cons piece pieces =>
    rw [Csv.intercalate_cons_flatMap, List.mem_append, List.mem_flatMap] at h
    rcases h with h | ⟨next, hnext, h⟩
    · exact .inr ⟨piece, List.mem_cons_self, h⟩
    · rcases List.mem_append.1 h with h | h
      · exact .inl h
      · exact .inr ⟨next, List.mem_cons_of_mem _ hnext, h⟩

namespace Table

variable {table : Table} {layout : Layout} {encoding : Encoding}

theorem mem_cells {cells : List String} (hcells : cells ∈ table.headers :: table.records)
    {cell : String} (hcell : cell ∈ cells) : cell ∈ table.cells :=
  List.mem_flatten.2 ⟨cells, hcells, hcell⟩

theorem IsPlain.records_eq_nil (h : table.IsPlain layout) (hheaders : table.headers = []) :
    table.records = [] := by
  rw [List.eq_nil_iff_forall_not_mem]
  intro record hrecord
  obtain ⟨cell, hcell, -⟩ := h.records_nonempty record hrecord
  have hlength := h.lengths record hrecord
  rw [hheaders, List.length_nil, List.length_eq_zero_iff] at hlength
  rw [hlength] at hcell
  cases hcell

/-- The text of a table starts with its first header, and a separator follows if there are
records. -/
theorem exists_text_eq {header : String} {headers : List String}
    (hheaders : table.headers = header :: headers) :
    ∃ after, table.text layout = header.toList ++ after ∧
      (∀ c ∈ after.head?, layout.IsSeparator c) ∧ (table.records ≠ [] → after ≠ []) := by
  have hbreak : ∀ {c : Char} {more : List Char}, c ∈ (layout.lineBreak ++ more).head? →
      layout.IsSeparator c := by
    intro c more hc
    obtain ⟨first, rest, hfirst⟩ := List.exists_cons_of_ne_nil layout.lineBreak_ne_nil
    rw [hfirst] at hc
    refine layout.isSeparator_of_mem_lineBreak c ?_
    rw [hfirst]
    exact Option.some.inj hc ▸ List.mem_cons_self
  rw [text, List.map_cons, hheaders, List.map_cons, Csv.intercalate_cons_flatMap,
    Csv.intercalate_cons_flatMap, List.append_assoc, List.append_assoc]
  refine ⟨_, rfl, ?_, ?_⟩
  · cases headers with
    | cons next headers =>
      intro c hc
      exact .inl (Option.some.inj hc).symm
    | nil =>
      cases table.records with
      | cons record records =>
        intro c hc
        simp only [List.map_nil, List.flatMap_nil, List.nil_append, List.map_cons,
          List.flatMap_cons, List.append_assoc] at hc
        exact hbreak hc
      | nil =>
        intro c hc
        simp only [List.map_nil, List.flatMap_nil, List.nil_append] at hc
        split at hc
        · exact @hbreak c [] (by rwa [List.append_nil])
        · cases hc
  · intro hrecords hempty
    simp only [List.append_eq_nil_iff, List.flatMap_eq_nil_iff, List.forall_mem_map] at hempty
    obtain ⟨record, hrecord⟩ := List.exists_mem_of_ne_nil _ hrecords
    exact layout.lineBreak_ne_nil (hempty.2.1 record hrecord).1

/-- What is not a separator in the text of a table belongs to a cell. -/
theorem exists_cell_of_mem_text {c : Char} (hc : c ∈ table.text layout)
    (hnot : ¬ layout.IsSeparator c) : ∃ cell ∈ table.cells, c ∈ cell.toList := by
  have hbreak : c ∉ layout.lineBreak := fun h => hnot (layout.isSeparator_of_mem_lineBreak c h)
  have hclosed : c ∉ (if layout.closed then layout.lineBreak else []) := by
    split
    · exact hbreak
    · exact List.not_mem_nil
  have hlines := (List.mem_append.1 hc).resolve_right hclosed
  obtain ⟨line, hline, hc⟩ := (mem_of_mem_intercalate hlines).resolve_left hbreak
  obtain ⟨cells, hcells, rfl⟩ := List.mem_map.1 hline
  obtain ⟨piece, hpiece, hc⟩ := (mem_of_mem_intercalate hc).resolve_left fun h =>
    hnot (.inl (List.mem_singleton.1 h))
  obtain ⟨cell, hcell, rfl⟩ := List.mem_map.1 hpiece
  exact ⟨cell, mem_cells hcells hcell, hc⟩

/-! ## Bytes of tables -/

/-- The raw record of some texts. -/
def raw (encoding : Encoding) (cells : List String) : List (List UInt8) :=
  cells.map fun cell => encoding.encode cell.toList

/-- Where ASCII characters are single bytes, a table is written like its raw records. -/
theorem bytes_eq_written (he : encoding.extendsAscii = true) :
    table.bytes layout encoding =
      Csv.written layout.byte (encoding.encode layout.lineBreak) layout.closed
        ((table.headers :: table.records).map (raw encoding)) := by
  have hdelimiter : encoding.encode [layout.delimiter] = [layout.byte] := by
    rw [Encoding.encode, List.flatMap_singleton, Encoding.encodeChar_ascii he layout.ascii,
      Layout.byte]
  have hline : ∀ cells : List String, encoding.encode ([layout.delimiter].intercalate
      (cells.map String.toList)) = [layout.byte].intercalate (raw encoding cells) := by
    intro cells
    rw [Encoding.encode_intercalate, hdelimiter, List.map_map, raw]
    rfl
  have hclosed : encoding.encode (if layout.closed then layout.lineBreak else []) =
      if layout.closed then encoding.encode layout.lineBreak else [] := by
    cases layout.closed <;> rfl
  rw [bytes, text, Encoding.encode_append, Encoding.encode_intercalate, hclosed, Csv.written,
    List.map_map, List.map_map]
  simp only [Function.comp_def, hline]

theorem encode_lineBreak (he : encoding.extendsAscii = true) :
    encoding.encode layout.lineBreak ∈ Csv.breaks := by
  have hfeed : encoding.encodeChar '\n' = [10] := Encoding.encodeChar_ascii he (by decide)
  have hreturn : encoding.encodeChar '\r' = [13] := Encoding.encodeChar_ascii he (by decide)
  have hbreak := layout.isBreak
  simp only [List.mem_cons, List.not_mem_nil, or_false] at hbreak
  rcases hbreak with h | h | h <;> simp [h, Encoding.encode, hfeed, hreturn, Csv.breaks]

/-- Where ASCII characters are single bytes, no byte of a cell is taken for a separator. -/
theorem IsPlain.isPlain_encode (h : table.IsPlain layout) (he : encoding.extendsAscii = true)
    {cell : String} (hcell : cell ∈ table.cells) :
    Csv.IsPlain layout.byte (encoding.encode cell.toList) := by
  intro b hb
  obtain ⟨c, hc, hb⟩ := List.mem_flatMap.1 hb
  obtain ⟨hseparator, hquote, -⟩ := h.plain cell hcell c hc
  have hchar : b < 0x80 → c = Char.ofNat b.toNat := Encoding.eq_ofNat_of_mem_encodeChar he hb
  refine ⟨?_, ?_⟩
  · rintro (rfl | rfl | rfl)
    · exact hseparator (.inl ((hchar layout.byte_lt).trans layout.ofNat_byte))
    · exact hseparator (.inr (.inl (hchar (by decide))))
    · exact hseparator (.inr (.inr (hchar (by decide))))
  · rintro rfl
    exact hquote (hchar (by decide))

/-- No line of a table with headers is empty. -/
theorem IsPlain.raw_ne (h : table.IsPlain layout) (hheaders : table.headers ≠ [])
    (hwrites : ∀ cell ∈ table.cells, encoding.Writes cell.toList) {cells : List String}
    (hcells : cells ∈ table.headers :: table.records) :
    raw encoding cells ≠ [] ∧ raw encoding cells ≠ [[]] := by
  obtain ⟨cell, hcell, hne⟩ : ∃ cell ∈ cells, cell ≠ "" := by
    rcases List.mem_cons.1 hcells with rfl | hrecord
    · obtain ⟨header, hheader⟩ := List.exists_mem_of_ne_nil _ hheaders
      exact ⟨header, hheader, fun hempty => h.headers_nonempty (hempty ▸ hheader)⟩
    · exact h.records_nonempty cells hrecord
  have hraw : encoding.encode cell.toList ∈ raw encoding cells := List.mem_map_of_mem hcell
  refine ⟨List.ne_nil_of_mem hraw, fun hempty => ?_⟩
  rw [hempty, List.mem_singleton,
    Encoding.encode_eq_nil_iff (hwrites cell (mem_cells hcells hcell)),
    String.toList_eq_nil_iff] at hraw
  exact hne hraw

/-- A file starts with a byte order mark only if its first header does. -/
theorem ofMark?_bytes_eq_none {header : String} {headers : List String}
    (hheaders : table.headers = header :: headers)
    (hmark : ¬ encoding.StartsWithMark header.toList) :
    Encoding.ofMark? (table.bytes layout encoding) = none := by
  obtain ⟨after, htext, hafter, -⟩ := @exists_text_eq table layout _ _ hheaders
  rw [bytes, htext, Encoding.encode_append]
  rw [Encoding.StartsWithMark, not_not] at hmark
  refine Encoding.ofMark?_append_eq_none hmark ?_
  cases after with
  | nil => exact fun b hb => (Option.not_mem_none b hb).elim
  | cons c after =>
    exact Encoding.head_encode_lt encoding (Layout.toNat_lt_of_isSeparator (hafter c rfl)) after

theorem withoutMark_eq {bytes : List UInt8} (h : Encoding.ofMark? bytes = none) :
    Csv.withoutMark bytes = bytes := by
  rw [Csv.withoutMark.eq_def]
  split
  · cases h
  · rfl

/-- The bytes of a table behind those of its first header. -/
def bytesBehind (table : Table) (layout : Layout) (encoding : Encoding) (headers : List String) :
    List UInt8 :=
  Csv.written layout.byte (encoding.encode layout.lineBreak) layout.closed
    (([] :: raw encoding headers) :: table.records.map (raw encoding))

theorem bytes_eq_append (he : encoding.extendsAscii = true) {header : String}
    {headers : List String} (hheaders : table.headers = header :: headers) :
    table.bytes layout encoding =
      encoding.encode header.toList ++ table.bytesBehind layout encoding headers := by
  rw [bytes_eq_written he, List.map_cons, hheaders, raw, List.map_cons, Csv.written_cons,
    bytesBehind]
  rfl

/-- The raw records of a table, whatever part of the first header is taken for a mark. -/
theorem IsPlain.records_of_withoutMark (h : table.IsPlain layout)
    (he : encoding.extendsAscii = true)
    (hwrites : ∀ cell ∈ table.cells, encoding.Writes cell.toList) {header : String}
    {headers : List String} (hheaders : table.headers = header :: headers) {start : List UInt8}
    (hstart : ∀ b ∈ start, b ∈ encoding.encode header.toList)
    (hbytes : Csv.withoutMark (table.bytes layout encoding) =
      start ++ table.bytesBehind layout encoding headers) :
    Csv.records layout.byte (table.bytes layout encoding) =
      [start :: raw encoding headers].filter (· != [[]]) ++ table.records.map (raw encoding) := by
  have hne : table.headers ≠ [] := by rw [hheaders]; exact List.cons_ne_nil _ _
  have hcells : ∀ cells ∈ table.headers :: table.records, ∀ cell ∈ raw encoding cells,
      Csv.IsPlain layout.byte cell := by
    intro cells hcells
    rw [raw, List.forall_mem_map]
    exact fun cell hcell => h.isPlain_encode he (mem_cells hcells hcell)
  rw [List.forall_mem_cons, hheaders, raw, List.map_cons, List.forall_mem_cons] at hcells
  have hfirst : ∀ cell ∈ start :: raw encoding headers, Csv.IsPlain layout.byte cell :=
    List.forall_mem_cons.2 ⟨fun b hb => hcells.1.1 b (hstart b hb), hcells.1.2⟩
  have hkept : (table.records.map (raw encoding)).filter (· != [[]]) =
      table.records.map (raw encoding) := by
    rw [List.filter_eq_self, List.forall_mem_map]
    exact fun cells hmem => bne_iff_ne.2 (h.raw_ne hne hwrites (List.mem_cons_of_mem _ hmem)).2
  rw [Csv.records, hbytes, bytesBehind, ← Csv.written_cons, Csv.Splitter.start,
    Csv.Splitter.finish_foldl_records layout.isDelimiter_byte (encode_lineBreak he),
    List.reverse_nil, List.nil_append]
  · refine (List.filter_append [start :: raw encoding headers] _).trans ?_
    rw [hkept]
  refine List.forall_mem_cons.2 ⟨⟨List.cons_ne_nil _ _, hfirst⟩, List.forall_mem_map.2 ?_⟩
  exact fun cells hmem =>
    ⟨(h.raw_ne hne hwrites (List.mem_cons_of_mem _ hmem)).1, hcells.2 cells hmem⟩

/-- Where ASCII characters are single bytes, a table is split into its raw records unless the file
starts with the mark of UTF-8. -/
theorem IsPlain.records_bytes (h : table.IsPlain layout) (he : encoding.extendsAscii = true)
    (hwrites : ∀ cell ∈ table.cells, encoding.Writes cell.toList) (hheaders : table.headers ≠ [])
    (hmark : Csv.withoutMark (table.bytes layout encoding) = table.bytes layout encoding) :
    Csv.records layout.byte (table.bytes layout encoding) =
      raw encoding table.headers :: table.records.map (raw encoding) := by
  obtain ⟨header, headers, heq⟩ := List.exists_cons_of_ne_nil hheaders
  have hraw : encoding.encode header.toList :: raw encoding headers =
      raw encoding table.headers := by
    rw [heq, raw, raw, List.map_cons]
  rw [h.records_of_withoutMark he hwrites heq (fun _ hb => hb)
    (hmark.trans (bytes_eq_append he heq)), hraw, List.filter_cons_of_pos, List.filter_nil,
    List.singleton_append]
  exact bne_iff_ne.2 (h.raw_ne hheaders hwrites List.mem_cons_self).2

end Table

end FactCube
