import HuntDraw.Blob.Store
import HuntDraw.Draw.Document
import HuntDraw.Draw.Metrics
import HuntDraw.Proofs.Csv.Text
import HuntDraw.Proofs.Data.Fields
import HuntDraw.Proofs.Text.Stream

/-! Tables that are exported, and read again from a blob or a file. -/

namespace HuntDraw

open Csv

namespace Csv

variable {header cells : List String} {rows : List (List String)}

namespace Row

def holding (header cells : List String) : Row := ⟨header.zip (cells.map some), []⟩

theorem keys_zipCells (header cells : List String) : Fields.keys (zipCells header cells) = header := by
  induction header generalizing cells with
  | nil => rfl
  | cons h header ih => cases cells <;> simp [zipCells, ih]

theorem zipCells_eq_zip (h : cells.length = header.length) : zipCells header cells = header.zip (cells.map some) := by
  induction header generalizing cells with
  | nil => rfl
  | cons title header ih =>
    rcases cells with _ | ⟨c, cells⟩
    · cases h
    · rw [zipCells, ih (Nat.succ.inj h)]
      rfl

theorem zipCells_inj {texts : List String} (hcells : cells.length ≤ header.length)
    (htexts : texts.length = header.length) (h : zipCells header cells = header.zip (texts.map some)) :
    cells = texts := by
  induction header generalizing cells texts with
  | nil => rw [List.length_eq_zero_iff.1 htexts, List.length_eq_zero_iff.1 (Nat.le_zero.1 hcells)]
  | cons title header ih =>
    rcases texts with _ | ⟨t, texts⟩
    · cases htexts
    rcases cells with _ | ⟨c, cells⟩
    · cases h
    · rw [zipCells, List.map_cons, List.zip_cons_cons, List.cons.injEq, Prod.mk.injEq, Option.some.injEq] at h
      rw [h.1.2, ih (Nat.le_of_succ_le_succ hcells) (Nat.succ.inj htexts) h.2]

/-- Columns with different names hold what is in the record, and only such a record is read as that row. -/
theorem ofCells_eq_holding {texts : List String} (hheader : header.Nodup) (htexts : texts.length = header.length) :
    ofCells header cells = holding header texts ↔ cells = texts := by
  have hpairs : Fields.ofPairs (zipCells header cells) = zipCells header cells :=
    Fields.ofPairs_eq_self (by rwa [keys_zipCells])
  rw [ofCells, hpairs, holding, mk.injEq, List.drop_eq_nil_iff]
  constructor
  · rintro ⟨hcells, hshort⟩
    exact zipCells_inj hshort htexts hcells
  · rintro rfl
    exact ⟨zipCells_eq_zip htexts, htexts.le⟩

end Row

/-- A header that is read back as it is, and whose columns are told apart. -/
structure IsHeader (header : List String) : Prop where
  nodup : header.Nodup
  filled : header ≠ []
  bare : ∀ title ∈ header, ¬HasBareReturn title.toList
  unmarked : (writeRecord (header.map String.toList)).head? ≠ some '\uFEFF'

def exported : List (List String) := [Document.huntCodeHeader, Document.applicantHeader, Metric.header]

theorem isHeader_of_exported (h : header ∈ exported) : IsHeader header := by
  rw [exported, List.mem_cons, List.mem_cons, List.mem_singleton] at h
  rcases h with rfl | rfl | rfl
  · exact ⟨by decide, by decide, by decide, by decide⟩
  · exact ⟨by decide, by decide, by decide, by decide⟩
  · exact ⟨by decide, by decide, by decide, by decide⟩

/-- No cell of a table has a bare carriage return. -/
def Sound (rows : List (List String)) : Prop := ∀ row ∈ rows, ∀ cell ∈ row, ¬HasBareReturn cell.toList

theorem textRow_toList (row : List String) : textRow (row.map String.toList) = row := by
  rw [textRow, List.map_map]
  exact (List.map_congr_left fun s _ => String.ofList_toList).trans (List.map_id row)

theorem toList_textRow (cells : List (List Char)) : (textRow cells).map String.toList = cells := by
  rw [textRow, List.map_map]
  exact (List.map_congr_left fun cs _ => String.toList_ofList).trans (List.map_id cells)

/-- The rows of an exported table are the records below its header. -/
theorem readRows_table (h : IsHeader header) (rows : List (List String)) :
    let read := ((records (write (rows.map (·.map String.toList)))).filter (!·.isEmpty)).map fun cells =>
      Row.ofCells header (textRow cells)
    readRows (Text.utf8 (table header rows)) = .ok read ∧
      (Content.ofText (table header rows)).fileRows = .ok read := by
  intro read
  have hheader : ∀ cell ∈ header.map String.toList, ¬HasBareReturn cell := List.forall_mem_map.2 h.bare
  have hrows : Csv.rows (table header rows).toList = read := by
    rw [table, String.toList_ofList, List.map_cons, Csv.rows, records_write_cons hheader]
    simp only [textRow_toList]
    rfl
  have hhead : (table header rows).toList.head? ≠ some '\uFEFF' := by
    have hwritten : writeRecord (header.map String.toList) ≠ [] := by
      rw [writeRecord_eq]
      exact List.append_ne_nil_of_right_ne_nil _ (List.cons_ne_nil _ _)
    rw [table, String.toList_ofList, List.map_cons, write_cons, List.head?_append_of_ne_nil _ hwritten]
    exact h.unmarked
  have hdocument := Text.decodeDocument_encodeUtf8 hhead
  constructor
  · rw [readRows, Text.utf8, hdocument, ← hrows]
    rfl
  · rw [Content.ofText, Content.fileRows, Text.utf8, Text.decodeMarkedFile_eq_ok hdocument, ← hrows]
    rfl

theorem returnsIn_filter (rows : List (List (List Char))) : returnsIn (rows.filter (!·.isEmpty)) = returnsIn rows := by
  rw [returnsIn, List.flatten_filter_not_isEmpty, ← returnsIn]

theorem map_ofCells_eq_iff (h : header.Nodup) (hrows : ∀ row ∈ rows, row.length = header.length)
    (read : List (List (List Char))) :
    (read.map fun cells => Row.ofCells header (textRow cells)) = rows.map (Row.holding header) ↔
      read = rows.map (·.map String.toList) := by
  induction rows generalizing read with
  | nil => simp
  | cons row rows ih =>
    obtain ⟨hrow, hrest⟩ := List.forall_mem_cons.1 hrows
    rcases read with _ | ⟨cells, read⟩
    · simp
    · have hcells : textRow cells = row ↔ cells = row.map String.toList :=
        ⟨fun hc => by rw [← hc, toList_textRow], fun hc => by rw [hc, textRow_toList]⟩
      rw [List.map_cons, List.map_cons, List.map_cons, List.cons.injEq, List.cons.injEq, ih hrest,
        Row.ofCells_eq_holding h hrow, hcells]

/-- What is read of an exported table is what was written, unless there is a bare carriage return. -/
theorem read_eq_written_iff (h : IsHeader header) (hrows : ∀ row ∈ rows, row.length = header.length) :
    (((records (write (rows.map (·.map String.toList)))).filter (!·.isEmpty)).map fun cells =>
      Row.ofCells header (textRow cells)) = rows.map (Row.holding header) ↔ Sound rows := by
  rw [map_ofCells_eq_iff h.nodup hrows]
  constructor
  · intro hread
    by_contra hbare
    have hlost : returnsIn (records (write (rows.map (·.map String.toList)))) < _ :=
      returnsIn_records_lt (by simpa [Sound] using hbare)
    rw [← returnsIn_filter (records _), hread] at hlost
    exact Nat.lt_irrefl _ hlost
  · intro hsound
    rw [records_write (by simpa [Sound] using hsound), List.filter_eq_self]
    -- no written record is empty, since the header has columns
    refine List.forall_mem_map.2 fun row hrow => ?_
    have hfilled : row ≠ [] := fun hnone =>
      h.filled (List.length_eq_zero_iff.1 (by rw [← hrows row hrow, hnone]; rfl))
    simpa using hfilled

variable {grid : List (List Cell)}

def written (header : List String) (grid : List (List Cell)) : List Row :=
  grid.map fun cells => Row.holding header (cells.map Cell.render)

theorem cellTable_read_iff (h : IsHeader header) (hrows : ∀ cells ∈ grid, cells.length = header.length) :
    let sound := ∀ cells ∈ grid, ∀ c ∈ cells, ¬HasBareReturn c.render.toList
    (readRows (Text.utf8 (cellTable header grid)) = .ok (written header grid) ↔ sound) ∧
      ((Content.ofText (cellTable header grid)).fileRows = .ok (written header grid) ↔ sound) := by
  intro sound
  obtain ⟨hblob, hfile⟩ := readRows_table h (grid.map (·.map Cell.render))
  have hlength : ∀ row ∈ grid.map (·.map Cell.render), row.length = header.length :=
    List.forall_mem_map.2 fun cells hcells => (List.length_map _).trans (hrows cells hcells)
  have hwritten : written header grid = (grid.map (·.map Cell.render)).map (Row.holding header) := by
    rw [written, List.map_map]
    rfl
  have hsound : Sound (grid.map (·.map Cell.render)) ↔ sound := by
    simp only [sound, Sound, List.forall_mem_map]
  rw [cellTable, hblob, hfile, Except.ok.injEq, hwritten, read_eq_written_iff h hlength, hsound]
  exact ⟨Iff.rfl, Iff.rfl⟩

/-- An exported table is read back, row by row and cell by cell, if and only if each cell with a carriage return has a
comma, a quote or a line feed as well. That is so of a blob and of a file. -/
theorem exported_read_back_iff (hheader : header ∈ exported)
    (hrows : ∀ cells ∈ grid, cells.length = header.length) :
    (readRows (Text.utf8 (cellTable header grid)) = .ok (written header grid) ↔
        ∀ cells ∈ grid, ∀ c ∈ cells, ¬HasBareReturn c.render.toList) ∧
      ((Content.ofText (cellTable header grid)).fileRows = .ok (written header grid) ↔
        ∀ cells ∈ grid, ∀ c ∈ cells, ¬HasBareReturn c.render.toList) :=
  cellTable_read_iff (isHeader_of_exported hheader) hrows

/-- A carriage return before a line feed is quoted with it. -/
theorem exported_read_back_quoted :
    Metric.header ∈ exported ∧
      readRows (Text.utf8 (cellTable Metric.header [[.text "a\r\nb", .text ""]])) =
        .ok [⟨[("metric", some "a\r\nb"), ("value", some "")], []⟩] := by
  have hheader : Metric.header ∈ exported := by decide
  have hrows : ∀ cells ∈ [[Cell.text "a\r\nb", .text ""]], cells.length = Metric.header.length := by decide
  exact ⟨hheader, (exported_read_back_iff hheader hrows).1.2 (by decide)⟩

/-- A carriage return alone ends the record that its cell is in. -/
theorem not_exported_read_back : ¬∀ header ∈ exported, ∀ grid : List (List Cell),
    (∀ cells ∈ grid, cells.length = header.length) →
      readRows (Text.utf8 (cellTable header grid)) = .ok (written header grid) := by
  intro hall
  have hheader : Metric.header ∈ exported := by decide
  have hrows : ∀ cells ∈ [[Cell.text "a\rb", .text "1"]], cells.length = Metric.header.length := by decide
  have hsound := (cellTable_read_iff (isHeader_of_exported hheader) hrows).1.1 (hall _ hheader _ hrows)
  exact hsound _ (List.mem_singleton_self _) _ List.mem_cons_self (by decide)

end Csv
end HuntDraw
