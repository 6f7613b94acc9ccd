import HuntDraw.Csv.Text
import Mathlib.Order.Nat

/-! What is written as comma-separated text and read again. Cells come back as they were, unless a carriage return
stands in a cell that was not quoted: the reader ends the record there. That nothing else can go wrong is shown by
reading what is written record by record; that this does go wrong, by counting the carriage returns that are kept. -/

namespace HuntDraw.Csv

variable {cell read : List Char} {cells row : List (List Char)} {rows before : List (List (List Char))}

/-- A carriage return that is written without quotes around it. -/
def HasBareReturn (cell : List Char) : Prop := '\r' ∈ cell ∧ ¬needsQuotes cell

instance (cell : List Char) : Decidable (HasBareReturn cell) := inferInstanceAs (Decidable (_ ∧ _))

theorem not_needsQuotes : ¬needsQuotes cell ↔ ',' ∉ cell ∧ '"' ∉ cell ∧ '\n' ∉ cell := by
  simp only [needsQuotes, List.any_eq_true, Bool.or_eq_true, decide_eq_true_eq, not_exists, not_and, not_or]
  constructor
  · intro h
    exact ⟨fun hc => (h _ hc).1.1 rfl, fun hc => (h _ hc).1.2 rfl, fun hc => (h _ hc).2 rfl⟩
  · rintro ⟨hcomma, hquote, hfeed⟩ c hc
    exact ⟨⟨fun h => hcomma (h ▸ hc), fun h => hquote (h ▸ hc)⟩, fun h => hfeed (h ▸ hc)⟩

def line (cells : List (List Char)) : List Char := ((cells.map writeCell).intersperse [',']).flatten

theorem line_singleton (cell : List Char) : line [cell] = writeCell cell := by
  simp [line]

theorem line_cons_cons (cell next : List Char) (cells : List (List Char)) :
    line (cell :: next :: cells) = writeCell cell ++ ',' :: line (next :: cells) := by
  simp [line]

theorem writeRecord_eq : writeRecord cells = (if cells = [[]] then quoteCell [] else line cells) ++ ['\n'] := rfl

theorem write_cons : write (cells :: rows) = writeRecord cells ++ write rows := List.flatMap_cons

namespace Reader

def AtEnd (mode : Mode) : Prop := mode = .cell ∨ mode = .plain ∨ mode = .quote

theorem step_comma {mode : Mode} (h : AtEnd mode) :
    step ⟨mode, cell, row, rows⟩ ',' = ⟨.cell, [], row ++ [cell], rows⟩ := by
  rcases h with rfl | rfl | rfl <;> rfl

theorem step_feed {mode : Mode} (h : AtEnd mode) :
    step ⟨mode, cell, row, rows⟩ '\n' = ⟨.record, [], [], rows ++ [row ++ [cell]]⟩ := by
  rcases h with rfl | rfl | rfl <;> rfl

theorem foldl_plain (h : ∀ c ∈ cell, c ≠ ',' ∧ ¬isBreak c) :
    cell.foldl step ⟨.plain, read, row, rows⟩ = ⟨.plain, read ++ cell, row, rows⟩ := by
  induction cell generalizing read with
  | nil => rw [List.append_nil, List.foldl_nil]
  | cons c cell ih =>
    obtain ⟨⟨hcomma, hbreak⟩, hcell⟩ := List.forall_mem_cons.1 h
    have hstep : step ⟨.plain, read, row, rows⟩ c = ⟨.plain, read ++ [c], row, rows⟩ := by
      simp [step, hcomma, hbreak, keep]
    rw [List.foldl_cons, hstep, ih hcell, List.append_assoc, List.singleton_append]

theorem foldl_quoted (cell : List Char) :
    (cell.flatMap fun c => if c = '"' then ['"', '"'] else [c]).foldl step ⟨.quoted, read, row, rows⟩ =
      ⟨.quoted, read ++ cell, row, rows⟩ := by
  induction cell generalizing read with
  | nil => rw [List.append_nil, List.flatMap_nil, List.foldl_nil]
  | cons c cell ih =>
    have hkeep : (if c = '"' then ['"', '"'] else [c]).foldl step ⟨.quoted, read, row, rows⟩ =
        ⟨.quoted, read ++ [c], row, rows⟩ := by
      by_cases hc : c = '"' <;> simp [hc, step, keep]
    rw [List.flatMap_cons, List.foldl_append, hkeep, ih, List.append_assoc, List.singleton_append]

theorem foldl_quoteCell (cell : List Char) :
    (quoteCell cell).foldl step ⟨.cell, [], row, rows⟩ = ⟨.quote, cell, row, rows⟩ := by
  have hopen : step ⟨.cell, [], row, rows⟩ '"' = ⟨.quoted, [], row, rows⟩ := rfl
  rw [quoteCell, List.foldl_cons, hopen, List.foldl_append, foldl_quoted]
  rfl

theorem foldl_writeCell (h : ¬HasBareReturn cell) (row : List (List Char)) (rows : List (List (List Char))) :
    ∃ mode, AtEnd mode ∧ (writeCell cell).foldl step ⟨.cell, [], row, rows⟩ = ⟨mode, cell, row, rows⟩ := by
  rw [writeCell]
  split
  · exact ⟨.quote, .inr (.inr rfl), foldl_quoteCell cell⟩
  · rename_i hquotes
    obtain ⟨hcomma, hquote, hfeed⟩ := not_needsQuotes.1 hquotes
    have hreturn : '\r' ∉ cell := fun hc => h ⟨hc, hquotes⟩
    have hplain : ∀ c ∈ cell, c ≠ ',' ∧ ¬isBreak c := by
      refine fun c hc => ⟨fun hc' => hcomma (hc' ▸ hc), fun hbreak => ?_⟩
      rw [isBreak, Bool.or_eq_true, decide_eq_true_eq, decide_eq_true_eq] at hbreak
      rcases hbreak with rfl | rfl
      · exact hfeed hc
      · exact hreturn hc
    rcases cell with _ | ⟨c, cell⟩
    · exact ⟨.cell, .inl rfl, rfl⟩
    · obtain ⟨⟨hc, hbreak⟩, hrest⟩ := List.forall_mem_cons.1 hplain
      have hfirst : c ≠ '"' := fun h => hquote (h ▸ List.mem_cons_self)
      have hopen : step ⟨.cell, [], row, rows⟩ c = ⟨.plain, [c], row, rows⟩ := by
        simp [step, openCell, hbreak, hfirst, hc, keep]
      refine ⟨.plain, .inr (.inl rfl), ?_⟩
      rw [List.foldl_cons, hopen, foldl_plain hrest]
      rfl

theorem foldl_line (h : ∀ cell ∈ cells, ¬HasBareReturn cell) (hcells : cells ≠ []) (row : List (List Char))
    (rows : List (List (List Char))) :
    (line cells ++ ['\n']).foldl step ⟨.cell, [], row, rows⟩ = ⟨.record, [], [], rows ++ [row ++ cells]⟩ := by
  induction cells generalizing row with
  | nil => exact absurd rfl hcells
  | cons cell cells ih =>
    obtain ⟨hcell, hrest⟩ := List.forall_mem_cons.1 h
    obtain ⟨mode, hmode, hread⟩ := foldl_writeCell hcell row rows
    rcases cells with _ | ⟨next, cells⟩
    · rw [line_singleton, List.foldl_append, hread, List.foldl_cons, step_feed hmode, List.foldl_nil]
    · rw [line_cons_cons, List.append_assoc, List.foldl_append, hread, List.cons_append, List.foldl_cons,
        step_comma hmode, ih hrest (List.cons_ne_nil _ _) _, List.append_assoc, List.singleton_append]

theorem step_record {c : Char} (h : ¬isBreak c) :
    step ⟨.record, read, row, rows⟩ c = step ⟨.cell, read, row, rows⟩ c := by
  simp [step, openRow, openCell, h, endCell, keep]

theorem not_isBreak_of_writeCell {c : Char} {text : List Char} (h : ¬HasBareReturn cell)
    (hwritten : writeCell cell = c :: text) : ¬isBreak c := by
  rw [writeCell] at hwritten
  split at hwritten
  · obtain rfl : '"' = c := (List.cons.inj hwritten).1
    decide
  · rename_i hquotes
    have hmem : c ∈ cell := hwritten ▸ List.mem_cons_self
    obtain ⟨-, -, hfeed⟩ := not_needsQuotes.1 hquotes
    intro hbreak
    rw [isBreak, Bool.or_eq_true, decide_eq_true_eq, decide_eq_true_eq] at hbreak
    rcases hbreak with rfl | rfl
    · exact hfeed hmem
    · exact h ⟨hmem, hquotes⟩

theorem writeCell_eq_nil (h : writeCell cell = []) : cell = [] := by
  rw [writeCell] at h
  split at h
  · cases h
  · exact h

theorem line_starts (h : ¬HasBareReturn cell) (hcells : cell :: cells ≠ [[]]) :
    ∃ c text, line (cell :: cells) ++ ['\n'] = c :: text ∧ ¬isBreak c := by
  rcases cells with _ | ⟨next, cells⟩
  · rw [line_singleton]
    cases hwritten : writeCell cell with
    | nil => exact absurd (writeCell_eq_nil hwritten ▸ rfl) hcells
    | cons c text => exact ⟨c, text ++ ['\n'], rfl, not_isBreak_of_writeCell h hwritten⟩
  · rw [line_cons_cons]
    cases hwritten : writeCell cell with
    | nil => exact ⟨',', line (next :: cells) ++ ['\n'], rfl, by decide⟩
    | cons c text =>
      exact ⟨c, text ++ ',' :: line (next :: cells) ++ ['\n'], rfl, not_isBreak_of_writeCell h hwritten⟩

theorem foldl_writeRecord (h : ∀ cell ∈ cells, ¬HasBareReturn cell) :
    (writeRecord cells).foldl step ⟨.record, [], [], rows⟩ = ⟨.record, [], [], rows ++ [cells]⟩ := by
  rw [writeRecord_eq]
  split
  · rename_i hcells
    subst hcells
    rfl
  · rename_i hcells
    rcases cells with _ | ⟨cell, cells⟩
    · rfl
    · have hread := foldl_line h (List.cons_ne_nil _ _) [] rows
      obtain ⟨c, text, htext, hc⟩ := line_starts (List.forall_mem_cons.1 h).1 hcells
      rw [htext, List.foldl_cons, List.nil_append] at hread
      rw [htext, List.foldl_cons, step_record hc, hread]

def behind (before : List (List (List Char))) (r : Reader) : Reader := { r with rows := before ++ r.rows }

theorem step_behind (r : Reader) (c : Char) : step (behind before r) c = behind before (step r c) := by
  obtain ⟨mode, read, row, rows⟩ := r
  cases mode <;> simp only [step, openRow, openCell, endRow, endCell, keep, behind] <;> split_ifs <;>
    simp only [List.append_assoc]

theorem foldl_behind (r : Reader) (cs : List Char) :
    cs.foldl step (behind before r) = behind before (cs.foldl step r) := by
  induction cs generalizing r with
  | nil => rfl
  | cons c cs ih => rw [List.foldl_cons, List.foldl_cons, step_behind, ih]

theorem finish_behind (r : Reader) : (behind before r).finish = before ++ r.finish := by
  obtain ⟨mode, read, row, rows⟩ := r
  cases mode <;> simp [finish, behind]

end Reader

theorem records_write_cons (h : ∀ cell ∈ cells, ¬HasBareReturn cell) (rows : List (List (List Char))) :
    records (write (cells :: rows)) = cells :: records (write rows) := by
  have hfirst : (writeRecord cells).foldl Reader.step {} = Reader.behind [cells] {} := Reader.foldl_writeRecord h
  rw [records, write_cons, List.foldl_append, hfirst, Reader.foldl_behind, Reader.finish_behind]
  rfl

theorem records_write (h : ∀ row ∈ rows, ∀ cell ∈ row, ¬HasBareReturn cell) : records (write rows) = rows := by
  induction rows with
  | nil => rfl
  | cons cells rows ih =>
    obtain ⟨hcells, hrows⟩ := List.forall_mem_cons.1 h
    rw [records_write_cons hcells, ih hrows]

def returnsOf (cs : List Char) : Nat := cs.count '\r'

@[simp] theorem returnsOf_nil : returnsOf [] = 0 := rfl

@[simp] theorem returnsOf_append (cs ds : List Char) : returnsOf (cs ++ ds) = returnsOf cs + returnsOf ds :=
  List.count_append

theorem returnsOf_cons (c : Char) (cs : List Char) :
    returnsOf (c :: cs) = returnsOf cs + if c = '\r' then 1 else 0 := by
  simp [returnsOf, List.count_cons]

def returnsIn (rows : List (List (List Char))) : Nat := returnsOf rows.flatten.flatten

@[simp] theorem returnsIn_append (rows rows' : List (List (List Char))) :
    returnsIn (rows ++ rows') = returnsIn rows + returnsIn rows' := by
  rw [returnsIn, List.flatten_append, List.flatten_append, returnsOf_append, ← returnsIn, ← returnsIn]

@[simp] theorem returnsIn_singleton (cells : List (List Char)) : returnsIn [cells] = returnsOf cells.flatten := by
  rw [returnsIn, List.flatten_singleton]

theorem returnsIn_cons (cells : List (List Char)) (rows : List (List (List Char))) :
    returnsIn (cells :: rows) = returnsOf cells.flatten + returnsIn rows := by
  rw [← List.singleton_append, returnsIn_append, returnsIn_singleton]

theorem returnsOf_writeCell (cell : List Char) : returnsOf (writeCell cell) = returnsOf cell := by
  have hdoubled : returnsOf (cell.flatMap fun c => if c = '"' then ['"', '"'] else [c]) = returnsOf cell := by
    induction cell with
    | nil => rfl
    | cons c cell ih =>
      rw [List.flatMap_cons, returnsOf_append, ih, returnsOf_cons, Nat.add_comm]
      by_cases hc : c = '"'
      · rw [hc]
        rfl
      · rw [if_neg hc, returnsOf_cons, returnsOf_nil, Nat.zero_add]
  rw [writeCell]
  split
  · rw [quoteCell, returnsOf_cons, returnsOf_append, hdoubled]
    rfl
  · rfl

theorem returnsOf_line (cells : List (List Char)) : returnsOf (line cells) = returnsOf cells.flatten := by
  induction cells with
  | nil => rfl
  | cons cell cells ih =>
    rcases cells with _ | ⟨next, cells⟩
    · rw [line_singleton, returnsOf_writeCell, List.flatten_singleton]
    · rw [line_cons_cons, returnsOf_append, returnsOf_writeCell, returnsOf_cons, ih, List.flatten_cons (l := cell),
        returnsOf_append]
      rfl

theorem returnsOf_writeRecord (cells : List (List Char)) : returnsOf (writeRecord cells) = returnsOf cells.flatten := by
  rw [writeRecord_eq, returnsOf_append]
  split
  · rename_i hcells
    subst hcells
    rfl
  · rw [returnsOf_line]
    rfl

theorem returnsOf_write (rows : List (List (List Char))) : returnsOf (write rows) = returnsIn rows := by
  induction rows with
  | nil => rfl
  | cons cells rows ih => rw [write_cons, returnsOf_append, returnsOf_writeRecord, ih, returnsIn_cons]

namespace Reader

variable {r : Reader} {c : Char}

def returns (r : Reader) : Nat := returnsIn r.rows + returnsOf r.row.flatten + returnsOf r.cell

theorem ne_return (h : ¬isBreak c) : c ≠ '\r' := fun hc => h (by rw [hc]; rfl)

theorem returns_endCell (r : Reader) (mode : Mode) : (endCell r mode).returns = r.returns := by
  simp [endCell, returns, Nat.add_assoc]

theorem returns_endRow_le (r : Reader) (c : Char) : (endRow r c).returns ≤ r.returns := by
  rw [endRow, returns, returnsIn_append, returnsIn_singleton, returns]
  exact Nat.le_add_right _ _

theorem returns_keep (r : Reader) (mode : Mode) (c : Char) :
    (keep r mode c).returns = r.returns + if c = '\r' then 1 else 0 := by
  simp [keep, returns, returnsOf_cons, Nat.add_assoc]

theorem returns_keep_of_ne (r : Reader) (mode : Mode) (hc : c ≠ '\r') : (keep r mode c).returns = r.returns := by
  rw [returns_keep, if_neg hc, Nat.add_zero]

theorem returns_openCell_le (r : Reader) (c : Char) : (openCell r c).returns ≤ r.returns := by
  rw [openCell]
  split_ifs with hbreak hquote hcomma
  · exact (returns_endRow_le _ _).trans (returns_endCell _ _).le
  · exact Nat.le_refl _
  · exact (returns_endCell _ _).le
  · exact (returns_keep_of_ne _ _ (ne_return hbreak)).le

theorem returns_openRow_le (r : Reader) (c : Char) : (openRow r c).returns ≤ r.returns := by
  rw [openRow]
  split
  · exact returns_endRow_le _ _
  · exact returns_openCell_le _ _

theorem returns_step_le (h : r.mode ≠ .quoted) (c : Char) : (step r c).returns ≤ r.returns := by
  have hend : (endRow (endCell r .record) c).returns ≤ r.returns :=
    (returns_endRow_le _ _).trans (returns_endCell _ _).le
  rw [step.eq_def]
  split <;> rename_i hmode
  · exact returns_openRow_le _ _
  · split
    · exact Nat.le_refl _
    · exact returns_openRow_le _ _
  · exact returns_openCell_le _ _
  · split_ifs with hbreak hcomma
    · exact hend
    · exact (returns_endCell _ _).le
    · exact (returns_keep_of_ne _ _ (ne_return hbreak)).le
  · exact absurd hmode h
  · split_ifs with hquote hbreak hcomma
    · exact (returns_keep_of_ne _ _ fun hc => absurd (hquote.symm.trans hc) (by decide)).le
    · exact hend
    · exact (returns_endCell _ _).le
    · exact (returns_keep_of_ne _ _ (ne_return hbreak)).le

theorem returns_foldl_le (r : Reader) (cs : List Char) : (cs.foldl step r).returns ≤ r.returns + returnsOf cs := by
  induction cs generalizing r with
  | nil => exact Nat.le_refl _
  | cons c cs ih =>
    have hstep : (step r c).returns ≤ r.returns + if c = '\r' then 1 else 0 := by
      by_cases hmode : r.mode = .quoted
      · simp only [step, hmode]
        split
        · exact Nat.le_add_right _ _
        · exact (returns_keep _ _ _).le
      · exact (returns_step_le hmode c).trans (Nat.le_add_right _ _)
    have hrest := ih (step r c)
    rw [List.foldl_cons, returnsOf_cons]
    omega

theorem returns_finish_le (r : Reader) : returnsIn r.finish ≤ r.returns := by
  obtain ⟨mode, read, row, rows⟩ := r
  have hopen : returnsIn (rows ++ [row ++ [read]]) = returns ⟨mode, read, row, rows⟩ := by
    simp [returns, Nat.add_assoc]
  have hdone : returnsIn rows ≤ returns ⟨mode, read, row, rows⟩ :=
    (Nat.le_add_right _ _).trans (Nat.le_add_right _ _)
  rw [finish]
  split
  · exact hdone
  · exact hdone
  · exact hopen.le

theorem mode_step (hc : c ≠ '"') (hmode : r.mode ≠ .quoted) : (step r c).mode ≠ .quoted := by
  have hend (r : Reader) : (endRow r c).mode ≠ .quoted := by
    rw [endRow]
    split <;> exact nofun
  have hopen : (openCell r c).mode ≠ .quoted := by
    rw [openCell, if_neg hc]
    split_ifs
    · exact hend _
    · exact nofun
    · exact nofun
  have hrow : (openRow r c).mode ≠ .quoted := by
    rw [openRow]
    split
    · exact hend _
    · exact hopen
  rw [step.eq_def]
  split <;> rename_i hat
  · exact hrow
  · split
    · exact nofun
    · exact hrow
  · exact hopen
  · split_ifs
    · exact hend _
    · exact nofun
    · exact nofun
  · exact absurd hat hmode
  · rw [if_neg hc]
    split_ifs
    · exact hend _
    · exact nofun
    · exact nofun

theorem mode_foldl {cs : List Char} (h : '"' ∉ cs) (hmode : r.mode ≠ .quoted) :
    (cs.foldl step r).mode ≠ .quoted := by
  induction cs generalizing r with
  | nil => exact hmode
  | cons c cs ih =>
    rw [List.mem_cons, not_or] at h
    exact ih h.2 (mode_step (Ne.symm h.1) hmode)

theorem returns_foldl_writeCell_lt (h : HasBareReturn cell) (hmode : r.mode ≠ .quoted) :
    ((writeCell cell).foldl step r).returns < r.returns + returnsOf cell := by
  obtain ⟨hreturn, hquotes⟩ := h
  obtain ⟨-, hquote, -⟩ := not_needsQuotes.1 hquotes
  rw [writeCell, if_neg hquotes]
  obtain ⟨first, rest, rfl⟩ := List.append_of_mem hreturn
  have hfirst := returns_foldl_le r first
  have hlost := returns_step_le (mode_foldl (fun hmem => hquote (List.mem_append_left _ hmem)) hmode) '\r'
  have hrest := returns_foldl_le (step (first.foldl step r) '\r') rest
  rw [List.foldl_append, List.foldl_cons, returnsOf_append, returnsOf_cons, if_pos rfl]
  omega

/-- What is written for some cells is what is written for the first and some text with the carriage returns of the
others. -/
theorem line_split (cell : List Char) (cells : List (List Char)) :
    ∃ text, line (cell :: cells) = writeCell cell ++ text ∧ returnsOf text = returnsOf cells.flatten := by
  rcases cells with _ | ⟨next, cells⟩
  · exact ⟨[], by rw [line_singleton, List.append_nil], rfl⟩
  · refine ⟨',' :: line (next :: cells), line_cons_cons _ _ _, ?_⟩
    rw [returnsOf_cons, returnsOf_line]
    rfl

theorem returns_foldl_first_lt (h : HasBareReturn cell) {r : Reader} (hmode : r.mode ≠ .quoted)
    (cells : List (List Char)) :
    ((line (cell :: cells) ++ ['\n']).foldl step r).returns < r.returns + returnsOf (cell :: cells).flatten := by
  obtain ⟨text, htext, hreturns⟩ := line_split cell cells
  have hcell := returns_foldl_writeCell_lt h hmode
  have hrest := returns_foldl_le ((writeCell cell).foldl step r) (text ++ ['\n'])
  rw [returnsOf_append, hreturns, returnsOf_cons, returnsOf_nil, if_neg (by decide)] at hrest
  rw [htext, List.append_assoc, List.foldl_append, List.flatten_cons, returnsOf_append]
  omega

theorem returns_foldl_line_lt (h : ∃ cell ∈ cells, HasBareReturn cell) (row : List (List Char))
    (rows : List (List (List Char))) :
    ((line cells ++ ['\n']).foldl step ⟨.cell, [], row, rows⟩).returns <
      returns ⟨.cell, [], row, rows⟩ + returnsOf cells.flatten := by
  induction cells generalizing row with
  | nil => simp at h
  | cons cell cells ih =>
    by_cases hcell : HasBareReturn cell
    · exact returns_foldl_first_lt hcell (show Mode.cell ≠ .quoted by decide) cells
    · have hlater : ∃ cell ∈ cells, HasBareReturn cell := by simpa [hcell] using h
      rcases cells with _ | ⟨next, cells⟩
      · simp at hlater
      · obtain ⟨mode, hmode, hread⟩ := foldl_writeCell hcell row rows
        have hrest := ih hlater (row ++ [cell])
        have hkept : returns ⟨.cell, [], row ++ [cell], rows⟩ = returns ⟨.cell, [], row, rows⟩ + returnsOf cell := by
          simp [returns, Nat.add_assoc]
        rw [line_cons_cons, List.append_assoc, List.foldl_append, hread, List.cons_append, List.foldl_cons,
          step_comma hmode, List.flatten_cons, returnsOf_append]
        omega

theorem returns_foldl_writeRecord_lt (h : ∃ cell ∈ cells, HasBareReturn cell) :
    ((writeRecord cells).foldl step {}).returns < returnsOf cells.flatten := by
  rcases cells with _ | ⟨cell, cells⟩
  · simp at h
  have hcells : cell :: cells ≠ [[]] := fun hnone => by
    rw [hnone] at h
    simp [HasBareReturn] at h
  rw [writeRecord_eq, if_neg hcells]
  by_cases hcell : HasBareReturn cell
  · exact (returns_foldl_first_lt hcell (show Mode.record ≠ .quoted by decide) cells).trans_eq (Nat.zero_add _)
  · obtain ⟨c, text, htext, hc⟩ := line_starts hcell hcells
    have hline := returns_foldl_line_lt h [] []
    rw [htext, List.foldl_cons, ← step_record hc] at hline
    rw [htext]
    exact hline.trans_eq (Nat.zero_add _)

end Reader

theorem returnsIn_records_lt (h : ∃ row ∈ rows, ∃ cell ∈ row, HasBareReturn cell) :
    returnsIn (records (write rows)) < returnsIn rows := by
  induction rows with
  | nil => simp at h
  | cons cells rows ih =>
    rw [returnsIn_cons]
    by_cases hcells : ∃ cell ∈ cells, HasBareReturn cell
    · have hfirst := Reader.returns_foldl_writeRecord_lt hcells
      have hrest := Reader.returns_foldl_le ((writeRecord cells).foldl Reader.step {}) (write rows)
      have hfinish :=
        Reader.returns_finish_le ((write rows).foldl Reader.step ((writeRecord cells).foldl Reader.step {}))
      rw [returnsOf_write] at hrest
      rw [records, write_cons, List.foldl_append]
      omega
    · have hlater : ∃ row ∈ rows, ∃ cell ∈ row, HasBareReturn cell := by
        obtain ⟨row, hrow, hbare⟩ := h
        rcases List.mem_cons.1 hrow with rfl | hrow
        · exact absurd hbare hcells
        · exact ⟨row, hrow, hbare⟩
      have hrest := ih hlater
      rw [records_write_cons (by simpa using hcells), returnsIn_cons]
      omega

end HuntDraw.Csv
