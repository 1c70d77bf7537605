import FactCube.Proofs.Declarations
import FactCube.Proofs.Facts
import FactCube.Source.Rows

/-!
# Decoded sheets

A file is split into raw records first, and then every cell is decoded on its own. So a sheet is
read iff every raw cell is a text, and its rows have the decoded cells under the decoded headers.

Results:
* `Row.get?_ofRecord`: a row has the cells of its record under distinct headers.
* `Sheet.ofBytes_eq_ok_iff`: a file is read iff all its records are.
* `Sheet.exists_error_of_mem`: one cell that is no text is enough for a fault.
-/

namespace FactCube

/-! ## Rows -/

namespace Row

theorem get?_foldl_of_notMem {headers : List String} {header : String} (h : header ∉ headers)
    (cells : List String) (row : Row) :
    ((headers.zip cells).foldl (fun row entry => row.insert entry.1 entry.2) row).get? header =
      row.get? header := by
  induction headers generalizing cells row with
  | nil => rfl
  | cons other headers ih =>
    cases cells with
    | nil => rfl
    | cons cell cells =>
      rw [List.mem_cons, not_or] at h
      rw [List.zip_cons_cons, List.foldl_cons, ih h.2, get?_insert,
        if_neg (by simpa using Ne.symm h.1)]

/-- A row has the cells of its record under their headers, if these are distinct. -/
theorem get?_ofRecord {headers cells : List String} (hnodup : headers.Nodup) {i : Nat}
    {header cell : String} (hheader : headers[i]? = some header) (hcell : cells[i]? = some cell) :
    (ofRecord headers cells).get? header = some cell := by
  have hrow : ∀ row : Row, ((headers.zip cells).foldl
      (fun row entry => row.insert entry.1 entry.2) row).get? header = some cell := by
    induction headers generalizing cells i with
    | nil => cases hheader
    | cons first headers ih =>
      intro row
      cases cells with
      | nil => cases hcell
      | cons firstCell cells =>
        rw [List.nodup_cons] at hnodup
        rw [List.zip_cons_cons, List.foldl_cons]
        cases i with
        | zero =>
          cases hheader
          cases hcell
          rw [get?_foldl_of_notMem hnodup.1, get?_insert, if_pos (beq_self_eq_true _)]
        | succ i => exact ih hnodup.2 hheader hcell _
  exact hrow empty

end Row

/-! ## Split records -/

theorem decodeRecord_eq_some_iff {encoding : Encoding} {record : List (List UInt8)}
    {cells : List String} : decodeRecord encoding record = some cells ↔
      List.Forall₂ (fun bytes cell => encoding.decode bytes = some cell) record cells := by
  rw [decodeRecord]
  induction record generalizing cells with
  | nil => simp [eq_comm]
  | cons bytes record ih =>
    cases cells with
    | nil => simp [Option.bind_eq_some_iff]
    | cons cell cells => simp [Option.bind_eq_some_iff, ih]

/-- Whether a row is that of a record under some headers. -/
def IsRowOf (encoding : Encoding) (headers : List String) (record : List (List UInt8)) (row : Row) :
    Prop :=
  ∃ cells, decodeRecord encoding record = some cells ∧ row = Row.ofRecord headers cells

theorem rowsOnto_eq_ok_iff {encoding : Encoding} {headers : List String} {read : List Row}
    {number : Nat} {records : List (List (List UInt8))} {rows : List Row} :
    rowsOnto encoding headers read number records = .ok rows ↔
      ∃ more, rows = read.reverse ++ more ∧
        List.Forall₂ (IsRowOf encoding headers) records more := by
  induction records generalizing read number with
  | nil =>
    rw [rowsOnto, Except.ok.injEq]
    simp [eq_comm]
  | cons record records ih =>
    rw [rowsOnto]
    cases hcells : decodeRecord encoding record with
    | none =>
      refine iff_of_false (fun h => nomatch h) ?_
      rintro ⟨more, -, hall⟩
      cases hall with
      | cons hrow _ =>
        obtain ⟨cells, hsome, -⟩ := hrow
        rw [hcells] at hsome
        cases hsome
    | some cells =>
      simp only [ih, List.reverse_cons, List.append_assoc, List.singleton_append]
      constructor
      · rintro ⟨more, rfl, hall⟩
        exact ⟨_, rfl, .cons ⟨cells, hcells, rfl⟩ hall⟩
      · rintro ⟨more, rfl, hall⟩
        cases hall with
        | cons hrow hall =>
          obtain ⟨cells', hsome, rfl⟩ := hrow
          obtain rfl := Option.some.inj (hcells.symm.trans hsome)
          exact ⟨_, rfl, hall⟩

/-- A file is read iff all its records are. -/
theorem Sheet.ofBytes_eq_ok_iff {delimiter : UInt8} {encoding : Encoding} {bytes : List UInt8}
    {first : List (List UInt8)} {records : List (List (List UInt8))}
    (h : Csv.records delimiter bytes = first :: records) {sheet : Sheet} :
    Sheet.ofBytes delimiter encoding bytes = .ok sheet ↔
      decodeRecord encoding first = some sheet.headers ∧
        List.Forall₂ (IsRowOf encoding sheet.headers) records sheet.rows := by
  rw [ofBytes, h]
  obtain ⟨headers, rows⟩ := sheet
  cases hheaders : decodeRecord encoding first with
  | none => simp [hheaders]
  | some found =>
    simp only [hheaders, Outcome.map_eq_ok_iff, rowsOnto_eq_ok_iff, Option.some.injEq]
    constructor
    · rintro ⟨_, ⟨more, rfl, hall⟩, heq⟩
      cases heq
      exact ⟨rfl, hall⟩
    · rintro ⟨rfl, hall⟩
      exact ⟨rows, ⟨rows, rfl, hall⟩, rfl⟩

/-- A file with a cell that is no text is not read. -/
theorem Sheet.exists_error_of_mem {delimiter : UInt8} {encoding : Encoding} {bytes : List UInt8}
    {record : List (List UInt8)} (hrecord : record ∈ Csv.records delimiter bytes)
    {cell : List UInt8} (hcell : cell ∈ record) (hnone : encoding.decode cell = none) :
    ∃ fault, Sheet.ofBytes delimiter encoding bytes = .error fault := by
  cases hread : Sheet.ofBytes delimiter encoding bytes with
  | error fault => exact ⟨fault, rfl⟩
  | ok sheet =>
    exfalso
    cases hrecords : Csv.records delimiter bytes with
    | nil =>
      rw [hrecords] at hrecord
      cases hrecord
    | cons first records =>
      rw [ofBytes_eq_ok_iff hrecords] at hread
      have hdecoded : ∃ cells, decodeRecord encoding record = some cells := by
        rw [hrecords, List.mem_cons] at hrecord
        rcases hrecord with rfl | hrecord
        · exact ⟨_, hread.1⟩
        · obtain ⟨i, hi⟩ := List.mem_iff_getElem?.1 hrecord
          obtain ⟨row, -, cells, hcells, -⟩ :=
            Validation.exists_getElem?_of_forall₂ hread.2.flip hi
          exact ⟨cells, hcells⟩
      obtain ⟨cells, hcells⟩ := hdecoded
      obtain ⟨i, hi⟩ := List.mem_iff_getElem?.1 hcell
      obtain ⟨text, -, htext⟩ :=
        Validation.exists_getElem?_of_forall₂ (decodeRecord_eq_some_iff.1 hcells).flip hi
      have htext : encoding.decode cell = some text := htext
      rw [hnone] at htext
      cases htext

end FactCube
