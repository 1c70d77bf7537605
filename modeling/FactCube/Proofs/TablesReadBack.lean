import FactCube.Proofs.DecodedSheets
import FactCube.Proofs.EncodedTables

/-!
# Tables read back

Cells are decoded one by one, so a byte order mark counts at the start of every cell, and a file is
split without regard to its encoding. So reading undoes writing under conditions only.

In UTF-8 every table is read back. In windows-1252 and ISO-8859-15 a table is read back iff no cell
is written like one with a mark at its start; `ÿþab` is, and is read as one character of UTF-16. In
UTF-16 the delimiter and the line breaks are two bytes, of which the splitter takes one and leaves
the other in the cell before or behind. So a file of two lines is not read at all, unless a byte of
a cell is taken for a separator or a quote.

Results:
* `Table.IsPlain.ofBytes_eq_ok`, `isUnmarked_of_records`, `not_holds_of_withoutMark`: where ASCII
  characters are single bytes, the tables without marks are read back, and no others.
* `Table.IsPlain.exists_error`: where they are two bytes, files are not read.
* `Table.IsPlain.isRead`: all encodings together.
* `not_forall_read`: a file of UTF-16 that is not read.
-/

namespace FactCube

/-- Whether a sheet has the content of a table: its headers, and a row for each record with the
cells under the headers. -/
structure Sheet.Holds (sheet : Sheet) (table : Table) : Prop where
  headers_eq : sheet.headers = table.headers
  rows : List.Forall₂ (fun row record => ∀ (i : Nat) header cell,
    table.headers[i]? = some header → record[i]? = some cell → row.get? header = some cell)
    sheet.rows table.records

namespace Table

variable {table : Table} {layout : Layout} {encoding : Encoding}

/-! ## Tables without marks -/

/-- The sheet of a table. -/
def sheet (table : Table) : Sheet :=
  ⟨table.headers, table.records.map (Row.ofRecord table.headers)⟩

theorem IsPlain.holds_sheet (h : table.IsPlain layout) : table.sheet.Holds table where
  headers_eq := rfl
  rows := by
    rw [sheet, List.forall₂_map_left_iff]
    refine List.forall₂_same.2 fun record _ i header cell hheader hcell => ?_
    exact Row.get?_ofRecord h.headers_nodup hheader hcell

/-- Whether no text of a table is written like one that starts with a byte order mark. -/
def IsUnmarked (table : Table) (encoding : Encoding) : Prop :=
  ∀ cell ∈ table.cells, ¬ encoding.StartsWithMark cell.toList

/-- A file without headers has no records. -/
theorem ofBytes_of_headers_eq_nil (he : encoding.extendsAscii = true)
    (hheaders : table.headers = []) (hrecords : table.records = []) :
    Sheet.ofBytes layout.byte encoding (table.bytes layout encoding) = .ok table.sheet := by
  have hnone : Csv.records layout.byte (table.bytes layout encoding) = [] := by
    rw [bytes_eq_written he, hheaders, hrecords, Csv.written, List.map_singleton,
      List.map_singleton, List.intercalate_singleton]
    have hbreak := @encode_lineBreak layout encoding he
    simp only [Csv.breaks, List.mem_cons, List.not_mem_nil, or_false] at hbreak
    cases layout.closed with
    | true => rcases hbreak with h | h | h <;> rw [h] <;> rfl
    | false => rfl
  rw [Sheet.ofBytes, hnone, sheet, hheaders, hrecords]
  rfl

/-- Where ASCII characters are single bytes, a table without marks is read back. -/
theorem IsPlain.ofBytes_eq_ok (h : table.IsPlain layout) (he : encoding.extendsAscii = true)
    (hwrites : ∀ cell ∈ table.cells, encoding.Writes cell.toList)
    (hmarks : table.IsUnmarked encoding) :
    Sheet.ofBytes layout.byte encoding (table.bytes layout encoding) = .ok table.sheet := by
  cases hheaders : table.headers with
  | nil => exact ofBytes_of_headers_eq_nil he hheaders (h.records_eq_nil hheaders)
  | cons header headers =>
    have hheader : header ∈ table.cells :=
      mem_cells List.mem_cons_self (by rw [hheaders]; exact List.mem_cons_self)
    have hfound := h.records_bytes he hwrites (by simp [hheaders])
      (withoutMark_eq (ofMark?_bytes_eq_none hheaders (hmarks header hheader)))
    have hdecoded : ∀ cells ∈ table.headers :: table.records,
        decodeRecord encoding (raw encoding cells) = some cells := by
      intro cells hcells
      rw [decodeRecord_eq_some_iff, raw, List.forall₂_map_left_iff, List.forall₂_same]
      intro cell hcell
      have hmem := mem_cells hcells hcell
      rw [Encoding.decode_encode (hwrites cell hmem) (hmarks cell hmem), String.ofList_toList]
    rw [List.forall_mem_cons] at hdecoded
    rw [Sheet.ofBytes_eq_ok_iff hfound]
    refine ⟨hdecoded.1, ?_⟩
    rw [sheet, List.forall₂_map_left_iff, List.forall₂_map_right_iff, List.forall₂_same]
    exact fun record hrecord => ⟨record, hdecoded.2 record hrecord, rfl⟩

/-! ## Tables with marks -/

/-- A record that is read back has no marks. -/
theorem IsPlain.unmarked_of_decodeRecord (h : table.IsPlain layout)
    (he : encoding.extendsAscii = true)
    (hwrites : ∀ cell ∈ table.cells, encoding.Writes cell.toList) {cells : List String}
    (hcells : cells ∈ table.headers :: table.records)
    (hread : decodeRecord encoding (raw encoding cells) = some cells) :
    ∀ cell ∈ cells, ¬ encoding.StartsWithMark cell.toList := by
  rw [decodeRecord_eq_some_iff, raw, List.forall₂_map_left_iff, List.forall₂_same] at hread
  intro cell hcell
  have hmem := mem_cells hcells hcell
  rw [← Encoding.decode_encode_iff he (hwrites cell hmem) fun hc =>
    (h.plain cell hmem _ hc).2.2 rfl, String.ofList_toList]
  exact hread cell hcell

/-- A row that has the cells of a record is the row of that record only. -/
theorem eq_of_get?_ofRecord {headers record cells : List String} (hnodup : headers.Nodup)
    (hrecord : record.length = headers.length) (hcells : cells.length = record.length)
    (hget : ∀ (i : Nat) header cell, headers[i]? = some header → record[i]? = some cell →
      (Row.ofRecord headers cells).get? header = some cell) : cells = record := by
  refine List.ext_getElem hcells fun i hi hi' => ?_
  have hlt : i < headers.length := hrecord ▸ hi'
  have hcell := Row.get?_ofRecord hnodup (List.getElem?_eq_getElem hlt)
    (List.getElem?_eq_getElem hi)
  have hsame := hget i _ _ (List.getElem?_eq_getElem hlt) (List.getElem?_eq_getElem hi')
  exact Option.some.inj (hcell.symm.trans hsame)

/-- Where ASCII characters are single bytes, a table that is read back has no marks. -/
theorem IsPlain.isUnmarked_of_records (h : table.IsPlain layout)
    (he : encoding.extendsAscii = true)
    (hwrites : ∀ cell ∈ table.cells, encoding.Writes cell.toList)
    (hfound : Csv.records layout.byte (table.bytes layout encoding) =
      raw encoding table.headers :: table.records.map (raw encoding)) {sheet : Sheet}
    (hread : Sheet.ofBytes layout.byte encoding (table.bytes layout encoding) = .ok sheet)
    (hholds : sheet.Holds table) : table.IsUnmarked encoding := by
  rw [Sheet.ofBytes_eq_ok_iff hfound, hholds.headers_eq, List.forall₂_map_left_iff] at hread
  obtain ⟨hheaders, hrows⟩ := hread
  have hall : ∀ cells ∈ table.headers :: table.records,
      decodeRecord encoding (raw encoding cells) = some cells := by
    refine List.forall_mem_cons.2 ⟨hheaders, fun record hrecord => ?_⟩
    obtain ⟨i, hi⟩ := List.mem_iff_getElem?.1 hrecord
    obtain ⟨row, hrow, cells, hcells, rfl⟩ := Validation.exists_getElem?_of_forall₂ hrows.flip hi
    obtain ⟨row', hrow', hget⟩ := Validation.exists_getElem?_of_forall₂ hholds.rows hi
    obtain rfl := Option.some.inj (hrow.symm.trans hrow')
    have hlength : cells.length = record.length := by
      rw [← (decodeRecord_eq_some_iff.1 hcells).length_eq, raw, List.length_map]
    rw [eq_of_get?_ofRecord h.headers_nodup (h.lengths record hrecord) hlength hget] at hcells
    exact hcells
  intro cell hcell
  obtain ⟨cells, hcells, hcell⟩ := List.mem_flatten.1 hcell
  exact h.unmarked_of_decodeRecord he hwrites hcells (hall cells hcells) cell hcell

/-- A mark of UTF-8 at the start of a file is that of its first cell. -/
theorem exists_of_withoutMark_ne {cell after : List UInt8} (hcell : Encoding.ofMark? cell ≠ none)
    (hne : Csv.withoutMark (cell ++ after) ≠ cell ++ after) :
    ∃ rest, Csv.withoutMark (cell ++ after) = rest ++ after ∧ rest.length < cell.length ∧
      ∀ b ∈ rest, b ∈ cell := by
  rw [Encoding.ofMark?.eq_def] at hcell
  split at hcell
  · rename_i rest
    refine ⟨rest, rfl, by simp only [List.length_cons]; omega, fun b hb => ?_⟩
    exact List.mem_cons_of_mem _ (List.mem_cons_of_mem _ (List.mem_cons_of_mem _ hb))
  · exact absurd rfl hne
  · exact absurd rfl hne
  · exact absurd rfl hcell

/-- If a file starts with the mark of UTF-8, which then is no part of the first cell, the table is
not read back. -/
theorem IsPlain.not_holds_of_withoutMark (h : table.IsPlain layout)
    (he : encoding.extendsAscii = true)
    (hwrites : ∀ cell ∈ table.cells, encoding.Writes cell.toList) {header : String}
    {headers : List String} (hheaders : table.headers = header :: headers)
    (hmark : Csv.withoutMark (table.bytes layout encoding) ≠ table.bytes layout encoding)
    {sheet : Sheet}
    (hread : Sheet.ofBytes layout.byte encoding (table.bytes layout encoding) = .ok sheet) :
    ¬ sheet.Holds table := by
  intro hholds
  have hheader : header ∈ table.cells :=
    mem_cells List.mem_cons_self (by rw [hheaders]; exact List.mem_cons_self)
  have hstart : encoding.StartsWithMark header.toList := by
    by_contra hnone
    exact hmark (withoutMark_eq (ofMark?_bytes_eq_none hheaders hnone))
  have hlength := Encoding.length_encode_of_startsWithMark he (hwrites header hheader)
    (fun hc => (h.plain header hheader _ hc).2.2 rfl) hstart
  have hbytes := @bytes_eq_append table layout encoding he _ _ hheaders
  rw [hbytes] at hmark
  obtain ⟨rest, hrest, hlt, hsub⟩ := exists_of_withoutMark_ne hstart hmark
  have hfound := h.records_of_withoutMark he hwrites hheaders hsub (hbytes ▸ hrest)
  by_cases hempty : rest :: raw encoding headers = [[]]
  · -- the line of the headers is empty, so the first record is taken for them
    rw [hempty, List.filter_cons_of_neg (by simp), List.filter_nil, List.nil_append] at hfound
    have hrows := hholds.rows.length_eq
    cases hrecords : table.records with
    | nil =>
      rw [hrecords, List.map_nil] at hfound
      rw [Sheet.ofBytes, hfound] at hread
      cases hread
      exact List.cons_ne_nil _ _ (hheaders.symm.trans hholds.headers_eq.symm)
    | cons record records =>
      rw [hrecords, List.map_cons] at hfound
      have hread := ((Sheet.ofBytes_eq_ok_iff hfound).1 hread).2.length_eq
      rw [hrecords, List.length_cons] at hrows
      rw [List.length_map] at hread
      omega
  · -- the first header has lost three bytes
    rw [List.filter_cons_of_pos (by simpa using hempty), List.filter_nil,
      List.singleton_append] at hfound
    have hread := ((Sheet.ofBytes_eq_ok_iff hfound).1 hread).1
    rw [hholds.headers_eq, hheaders, decodeRecord_eq_some_iff, List.forall₂_cons] at hread
    have hle := (Encoding.length_le_of_decode hread.1).1
    omega

/-! ## Sixteen-bit units -/

/-- Up to the next separator there are characters of cells only. -/
theorem exists_piece_of_text {before rest : List Char}
    (htext : table.text layout = before ++ rest) :
    ∃ piece tail, rest = piece ++ tail ∧
      (∀ c ∈ piece, ∃ cell ∈ table.cells, c ∈ cell.toList) ∧
        ∀ c ∈ tail.head?, layout.IsSeparator c := by
  refine ⟨rest.takeWhile fun c => ¬ layout.IsSeparator c,
    rest.dropWhile fun c => ¬ layout.IsSeparator c, List.takeWhile_append_dropWhile.symm, ?_, ?_⟩
  · intro c hc
    refine @exists_cell_of_mem_text table layout c ?_ ?_
    · rw [htext]
      exact List.mem_append_right _ (List.takeWhile_subset _ hc)
    · simpa using List.mem_takeWhile_imp hc
  · intro c hc
    have hhead := List.head?_dropWhile_not (fun c => decide ¬ layout.IsSeparator c) rest
    rw [Option.mem_def.1 hc] at hhead
    simpa using hhead

/-- A file with a raw cell of an odd number of bytes is not read. -/
theorem exists_error_of_odd (he : encoding.extendsAscii = false)
    {bytes before cell after : List UInt8} (hbytes : bytes = before ++ (cell ++ after))
    (hmark : Csv.withoutMark bytes = bytes)
    (hbefore : (before.foldl (Csv.Splitter.step layout.byte) .start).IsAtCell)
    (hplain : Csv.IsPlain layout.byte cell) (hodd : cell.length % 2 = 1)
    (hcell : Encoding.ofMark? cell = none)
    (hafter : ∀ b ∈ after.head?, Csv.IsSeparator layout.byte b) :
    ∃ fault, Sheet.ofBytes layout.byte encoding bytes = .error fault := by
  have hne : cell ≠ [] := by
    rintro rfl
    cases hodd
  obtain ⟨record, hrecord, hmem⟩ := Csv.Splitter.exists_record_of_cell layout.isDelimiter_byte
    hbefore hne hplain hafter
  refine Sheet.exists_error_of_mem ?_ hmem (Encoding.decode_eq_none_of_odd he hcell hodd)
  rw [Csv.records, hmark, hbytes, List.foldl_append]
  exact hrecord

/-- If the high byte of a separator comes first, the first header has it behind it. -/
theorem exists_error_utf16be {header : String} (hheader : header ∈ table.cells) {c : Char}
    {rest : List Char} (htext : table.text layout = header.toList ++ c :: rest)
    (hc : layout.IsSeparator c) (hwrites : Encoding.utf16be.Writes header.toList)
    (hheaderMark : ¬ Encoding.utf16be.StartsWithMark header.toList) (hnul : layout.byte ≠ 0)
    (hplain : ∀ cell ∈ table.cells, Csv.IsPlain layout.byte (Encoding.utf16be.encode cell.toList))
    (hmark : Csv.withoutMark (table.bytes layout .utf16be) = table.bytes layout .utf16be) :
    ∃ fault, Sheet.ofBytes layout.byte .utf16be (table.bytes layout .utf16be) = .error fault := by
  have hbytes : table.bytes layout .utf16be = [] ++ ((Encoding.utf16be.encode header.toList ++
      [0]) ++ UInt8.ofNat c.toNat :: Encoding.utf16be.encode rest) := by
    rw [bytes, htext, Encoding.encode_append, Encoding.encode_cons,
      Encoding.encodeChar_utf16be_ascii (Layout.toNat_lt_of_isSeparator hc)]
    simp
  refine exists_error_of_odd rfl hbytes hmark ⟨.inl rfl, rfl⟩ ?_ ?_ ?_ ?_
  · refine List.forall_mem_append.2 ⟨hplain header hheader, ?_⟩
    exact List.forall_mem_singleton.2 (Layout.isPlain_zero hnul)
  · have heven := Encoding.even_encode rfl hwrites
    rw [List.length_append, List.length_singleton]
    omega
  · rw [Encoding.StartsWithMark, not_not] at hheaderMark
    exact Encoding.ofMark?_append_eq_none hheaderMark fun b hb => Option.some.inj hb ▸ (by decide)
  · exact fun b hb => Option.some.inj hb ▸ Layout.isSeparator_byte hc

/-- If the high byte of a separator comes last, the next cell has it before it. -/
theorem exists_error_utf16le {header : String} (hheader : header ∈ table.cells) {c : Char}
    {rest : List Char} (htext : table.text layout = header.toList ++ c :: rest)
    (hc : layout.IsSeparator c) (hnul : layout.byte ≠ 0)
    (hwrites : ∀ cell ∈ table.cells, Encoding.utf16le.Writes cell.toList)
    (hplain : ∀ cell ∈ table.cells, Csv.IsPlain layout.byte (Encoding.utf16le.encode cell.toList))
    (hmark : Csv.withoutMark (table.bytes layout .utf16le) = table.bytes layout .utf16le) :
    ∃ fault, Sheet.ofBytes layout.byte .utf16le (table.bytes layout .utf16le) = .error fault := by
  obtain ⟨piece, tail, rfl, hpiece, htail⟩ :=
    @exists_piece_of_text table layout (header.toList ++ [c]) rest (by simp [htext])
  have hbytes : table.bytes layout .utf16le = (Encoding.utf16le.encode header.toList ++
      [UInt8.ofNat c.toNat]) ++ ((0 :: Encoding.utf16le.encode piece) ++
        Encoding.utf16le.encode tail) := by
    rw [bytes, htext, Encoding.encode_append, Encoding.encode_cons, Encoding.encode_append,
      Encoding.encodeChar_utf16le_ascii (Layout.toNat_lt_of_isSeparator hc)]
    simp
  refine exists_error_of_odd rfl hbytes hmark ?_ ?_ ?_ rfl ?_
  · exact Csv.Splitter.isAtCell_of_separator layout.isDelimiter_byte ⟨.inl rfl, rfl⟩
      (hplain header hheader) (Layout.isSeparator_byte hc)
  · refine List.forall_mem_cons.2 ⟨Layout.isPlain_zero hnul, fun b hb => ?_⟩
    obtain ⟨d, hd, hb⟩ := List.mem_flatMap.1 hb
    obtain ⟨cell, hcell, hd⟩ := hpiece d hd
    exact hplain cell hcell b (List.mem_flatMap.2 ⟨d, hd, hb⟩)
  · have hwritesPiece : Encoding.utf16le.Writes piece := fun d hd => by
      obtain ⟨cell, hcell, hd⟩ := hpiece d hd
      exact hwrites cell hcell d hd
    have heven := Encoding.even_encode rfl hwritesPiece
    rw [List.length_cons]
    omega
  · cases tail with
    | nil => exact fun b hb => (Option.not_mem_none b hb).elim
    | cons d tail =>
      have hd := htail d rfl
      rw [Encoding.encode_cons,
        Encoding.encodeChar_utf16le_ascii (Layout.toNat_lt_of_isSeparator hd)]
      exact fun b hb => Option.some.inj hb ▸ Layout.isSeparator_byte hd

/-- Where ASCII characters are two bytes, a file of two lines is not read if no byte of its cells is
a separator or a quote. -/
theorem IsPlain.exists_error (h : table.IsPlain layout) (he : encoding.extendsAscii = false)
    (hwrites : ∀ cell ∈ table.cells, encoding.Writes cell.toList)
    (hmarks : table.IsUnmarked encoding) (hnul : layout.byte ≠ 0)
    (hplain : ∀ cell ∈ table.cells, Csv.IsPlain layout.byte (encoding.encode cell.toList))
    (hrecords : table.records ≠ []) :
    ∃ fault, Sheet.ofBytes layout.byte encoding (table.bytes layout encoding) = .error fault := by
  obtain ⟨header, headers, hheaders⟩ :=
    List.exists_cons_of_ne_nil fun hnone => hrecords (h.records_eq_nil hnone)
  have hheader : header ∈ table.cells :=
    mem_cells List.mem_cons_self (by rw [hheaders]; exact List.mem_cons_self)
  obtain ⟨after, htext, hafter, hne⟩ := @exists_text_eq table layout _ _ hheaders
  obtain ⟨c, rest, rfl⟩ := List.exists_cons_of_ne_nil (hne hrecords)
  have hmark : Csv.withoutMark (table.bytes layout encoding) = table.bytes layout encoding :=
    withoutMark_eq (ofMark?_bytes_eq_none hheaders (hmarks header hheader))
  cases encoding with
  | utf16be =>
    exact exists_error_utf16be hheader htext (hafter c rfl) (hwrites header hheader)
      (hmarks header hheader) hnul hplain hmark
  | utf16le => exact exists_error_utf16le hheader htext (hafter c rfl) hnul hwrites hplain hmark
  | _ => cases he

/-! ## All encodings -/

/-- What comes of a table that is written in an encoding. -/
structure IsRead (table : Table) (layout : Layout) (encoding : Encoding) : Prop where
  utf8 : ∃ sheet, Sheet.ofBytes layout.byte .utf8 (table.bytes layout .utf8) = .ok sheet ∧
    sheet.Holds table
  iff_unmarked : encoding.extendsAscii = true →
    ((∃ sheet, Sheet.ofBytes layout.byte encoding (table.bytes layout encoding) = .ok sheet ∧
      sheet.Holds table) ↔ table.IsUnmarked encoding)
  same_as_utf8 : encoding.extendsAscii = true → table.IsUnmarked encoding →
    Sheet.ofBytes layout.byte encoding (table.bytes layout encoding) =
      Sheet.ofBytes layout.byte .utf8 (table.bytes layout .utf8)
  error : encoding.extendsAscii = false → table.IsUnmarked encoding → layout.byte ≠ 0 →
    (∀ cell ∈ table.cells, Csv.IsPlain layout.byte (encoding.encode cell.toList)) →
    table.records ≠ [] →
    ∃ fault, Sheet.ofBytes layout.byte encoding (table.bytes layout encoding) = .error fault

/-- A table is read back from UTF-8. From windows-1252 and ISO-8859-15 it is read back, with the
same outcome, iff no cell is written like one that starts with a byte order mark. From UTF-16 a
table with records is not read, unless the delimiter is NUL or a cell has such a start or a byte of
a separator or of a quote. -/
theorem IsPlain.isRead (h : table.IsPlain layout)
    (hwrites : ∀ cell ∈ table.cells, encoding.Writes cell.toList) :
    table.IsRead layout encoding := by
  have hutf8 : Sheet.ofBytes layout.byte .utf8 (table.bytes layout .utf8) = .ok table.sheet := by
    refine h.ofBytes_eq_ok rfl (fun cell _ => Encoding.writes_utf8 cell.toList) fun cell hcell => ?_
    exact Encoding.not_startsWithMark_utf8 fun hc => (h.plain cell hcell _ hc).2.2 rfl
  refine ⟨⟨_, hutf8, h.holds_sheet⟩, fun he => ⟨?_, fun hmarks => ?_⟩, fun he hmarks => ?_,
    fun he hmarks hnul hplain => h.exists_error he hwrites hmarks hnul hplain⟩
  · rintro ⟨sheet, hread, hholds⟩
    by_cases hheaders : table.headers = []
    · intro cell hcell
      simp [cells, hheaders, h.records_eq_nil hheaders] at hcell
    by_cases hmark : Csv.withoutMark (table.bytes layout encoding) = table.bytes layout encoding
    · exact h.isUnmarked_of_records he hwrites (h.records_bytes he hwrites hheaders hmark) hread
        hholds
    · obtain ⟨header, headers, hheaders⟩ := List.exists_cons_of_ne_nil hheaders
      exact absurd hholds (h.not_holds_of_withoutMark he hwrites hheaders hmark hread)
  · exact ⟨_, h.ofBytes_eq_ok he hwrites hmarks, h.holds_sheet⟩
  · rw [h.ofBytes_eq_ok he hwrites hmarks, hutf8]

end Table

/-! ## Samples -/

namespace Sample

/-- Cells between semicolons and lines that end in both line breaks. -/
def layout : Layout :=
  ⟨';', ['\r', '\n'], true, by decide, by decide, by decide, by decide, by decide⟩

/-- A table with characters that have other bytes in each encoding. -/
def chargesTable : Table := ⟨["town", "charge"], [["Évora", "12 €"], ["", "3"]]⟩

/-- What holds of all characters of a table can be computed. -/
theorem forall_mem_cells_of_all {table : Table} {p : Char → Prop} [DecidablePred p]
    (h : (table.cells.all fun cell => cell.toList.all fun c => p c) = true) :
    ∀ cell ∈ table.cells, ∀ c ∈ cell.toList, p c := by
  simpa only [List.all_eq_true, decide_eq_true_eq] using h

theorem isPlain_charges : chargesTable.IsPlain layout where
  headers_nodup := by decide
  headers_nonempty := by decide
  lengths := by decide
  records_nonempty := by decide
  plain := forall_mem_cells_of_all (by decide +kernel)

theorem writes_charges :
    ∀ cell ∈ chargesTable.cells, Encoding.iso885915.Writes cell.toList :=
  forall_mem_cells_of_all (by decide +kernel)

/-- Cells between commas and lines that end in a line feed. -/
def commaLayout : Layout :=
  ⟨',', ['\n'], true, by decide, by decide, by decide, by decide, by decide⟩

/-- A table of ASCII characters. -/
def asciiTable : Table := ⟨["a", "b"], [["1", "2"]]⟩

theorem isPlain_ascii : asciiTable.IsPlain commaLayout where
  headers_nodup := by decide
  headers_nonempty := by decide
  lengths := by decide
  records_nonempty := by decide
  plain := forall_mem_cells_of_all (by decide +kernel)

end Sample

theorem Table.IsPlain.isRead_sample :
    Sample.chargesTable.IsPlain Sample.layout ∧
      (∀ cell ∈ Sample.chargesTable.cells, Encoding.iso885915.Writes cell.toList) ∧
      Sample.chargesTable.IsRead Sample.layout .iso885915 :=
  ⟨Sample.isPlain_charges, Sample.writes_charges,
    Table.IsPlain.isRead Sample.isPlain_charges Sample.writes_charges⟩

/-- Tables are not read back from every encoding that has their characters: in UTF-16, the second
header of a file has the high byte of the comma before it. -/
theorem not_forall_read :
    ¬ ∀ (table : Table) (layout : Layout) (encoding : Encoding), table.IsPlain layout →
      (∀ cell ∈ table.cells, encoding.Writes cell.toList) →
      ∃ sheet, Sheet.ofBytes layout.byte encoding (table.bytes layout encoding) = .ok sheet ∧
        sheet.Holds table := by
  intro h
  have hwrites : ∀ cell ∈ Sample.asciiTable.cells, Encoding.utf16le.Writes cell.toList :=
    Sample.forall_mem_cells_of_all (by decide +kernel)
  obtain ⟨sheet, hread, -⟩ := h Sample.asciiTable Sample.commaLayout .utf16le Sample.isPlain_ascii
    hwrites
  have herror : Sheet.ofBytes Sample.commaLayout.byte .utf16le
      (Sample.asciiTable.bytes Sample.commaLayout .utf16le) = .error (.headers .utf16le) := rfl
  rw [herror] at hread
  cases hread

end FactCube
