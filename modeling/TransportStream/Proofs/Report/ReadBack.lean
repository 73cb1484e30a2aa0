import Mathlib.Data.List.Forall2
import TransportStream.Proofs.Text.Fields
import TransportStream.Report.Rendering

/-!
# The table read back

The columns stand side by side with nothing between them. A line is read back just
when the unit starts have at most six digits and the gaps at most nine
(`PidRow.Fits`).
-/
namespace TransportStream
open Text Columns

/-- Neither the unit starts nor the gaps take the whole of their columns. -/
structure PidRow.Fits (row : PidRow) : Prop where
  unitStarts : row.unitStarts < 10 ^ 6
  gaps : row.gaps < 10 ^ 9

namespace Report

/-- The row that the fields of a line stand for. -/
def rowOf? : List (List Char) → Option PidRow
  | ['0' :: 'x' :: pid, packets, unitStarts, gaps] => do
    let pid ← number? 16 pid
    let packets ← number? 10 packets
    let unitStarts ← number? 10 unitStarts
    let gaps ← number? 10 gaps
    if h : pid < 65536 then some ⟨⟨pid, h⟩, packets, unitStarts, gaps⟩ else none
  | _ => none

/-- The lines of a table below its heading. -/
def pidLines (table : String) : List (List Char) := ((lines table.toList).drop 3).dropLast

def readTable (table : String) : Option (List PidRow) :=
  (pidLines table).mapM fun line => rowOf? (fields line)

def pidText (pid : WidePid) : List Char := '0' :: 'x' :: Hexadecimal.digits .small 4 pid.val

/-- A number at the right edge of its column, with `spare` blanks before the column. -/
def countCell (spare width count : Nat) : Cell where
  gap := width - (Nat.toDigits 10 count).length + spare
  text := Nat.toDigits 10 count

def countCells (row : PidRow) : List Cell :=
  [countCell 2 9 row.packets, countCell 0 7 row.unitStarts, countCell 0 10 row.gaps]

/-- A line of the table, without its end. -/
def pidCells (row : PidRow) : List Char :=
  pidText row.pid ++ (countCells row).flatMap Cell.shown

/-- The labels above the columns. -/
def labels : String :=
  left 8 "PID" ++ right 9 "Packets" ++ right 7 "PUSI" ++ right 10 "CC gaps"

theorem digits_small (width value : Nat) :
    Hexadecimal.digits .small width value =
      List.replicate (width - (Nat.toDigits 16 value).length) '0' ++ Nat.toDigits 16 value := by
  have hid : Hexadecimal.Letters.small.apply = id := rfl
  rw [Hexadecimal.digits, hid, List.map_id]

theorem length_pidText (pid : WidePid) : (pidText pid).length = 6 := by
  have hlen : (Nat.toDigits 16 pid.val).length ≤ 4 :=
    (Nat.length_toDigits_le_iff (by decide) (by decide)).mpr pid.isLt
  rw [pidText, digits_small, List.length_cons, List.length_cons, List.length_append,
    List.length_replicate]
  omega

theorem toList_pidLine (row : PidRow) : (pidLine row).toList = pidCells row ++ ['\n'] := by
  have hpid : (Hexadecimal.marked .small 4 row.pid.val).toList = pidText row.pid := by
    simp [Hexadecimal.marked, pidText]
  simp [pidLine, tableLine, toList_left, toList_right, hpid, length_pidText, pidCells,
    countCells, countCell, Cell.shown, List.replicate_succ]

theorem solid_pidText (pid : WidePid) : Solid (pidText pid) := by
  have hdigits : Solid (Nat.toDigits 16 pid.val) := solid_toDigits (by decide) _
  have hmark : ∀ c ∈ '0' :: 'x' :: List.replicate (4 - (Nat.toDigits 16 pid.val).length) '0',
      c.isWhitespace = false := by
    intro c hc
    simp only [List.mem_cons, List.mem_replicate] at hc
    obtain rfl | rfl | ⟨-, rfl⟩ := hc <;> rfl
  rw [pidText, digits_small]
  exact hdigits.after hmark

theorem solid_countCells (row : PidRow) : ∀ cell ∈ countCells row, Solid cell.text := by
  intro cell hcell
  simp only [countCells, List.mem_cons, List.not_mem_nil, or_false] at hcell
  obtain rfl | rfl | rfl := hcell <;> exact solid_toDigits (by decide) _

theorem fields_pidCells (row : PidRow) :
    fields (pidCells row) = joined (pidText row.pid) (countCells row) :=
  fields_cells (solid_pidText row.pid) (solid_countCells row)

theorem gap_countCell_zero {width : Nat} (hwidth : 0 < width) (count : Nat) :
    0 < (countCell 0 (width + 1) count).gap ↔ count < 10 ^ width := by
  rw [← Nat.length_toDigits_le_iff (by decide) hwidth, countCell]
  dsimp only
  omega

theorem gaps_countCells (row : PidRow) :
    (∀ cell ∈ countCells row, 0 < cell.gap) ↔ row.Fits := by
  have hstarts := gap_countCell_zero (by decide : 0 < 6) row.unitStarts
  have hgaps := gap_countCell_zero (by decide : 0 < 9) row.gaps
  have hpackets : 0 < (countCell 2 9 row.packets).gap := Nat.succ_pos _
  simp only [countCells, List.forall_mem_cons, List.not_mem_nil, false_implies, implies_true,
    and_true, hpackets, true_and, hstarts, hgaps]
  exact ⟨fun ⟨h, h'⟩ => ⟨h, h'⟩, fun h => ⟨h.unitStarts, h.gaps⟩⟩

theorem length_fields_pidCells (row : PidRow) :
    (fields (pidCells row)).length = 4 ↔ row.Fits := by
  have hcount : (countCells row).countP (0 < ·.gap) = (countCells row).length ↔
      ∀ cell ∈ countCells row, 0 < cell.gap := by
    simp only [List.countP_eq_length, decide_eq_true_iff]
  have hlength : (countCells row).length = 3 := rfl
  rw [fields_pidCells, length_joined, ← gaps_countCells, ← hcount, hlength]
  exact Nat.succ_inj

theorem length_of_row? {texts : List (List Char)} {row : PidRow} (h : rowOf? texts = some row) :
    texts.length = 4 := by
  unfold rowOf? at h
  split at h
  · rfl
  · cases h

theorem rowOf?_of_fits {row : PidRow} (h : row.Fits) :
    rowOf? (fields (pidCells row)) = some row := by
  have hpid : number? 16 (Hexadecimal.digits .small 4 row.pid.val) = some row.pid.val := by
    rw [digits_small, number?_digits (by decide) (by decide)]
  have hcount (count : Nat) : number? 10 (Nat.toDigits 10 count) = some count :=
    number?_digits (by decide) (by decide) 0 count
  rw [fields_pidCells, joined_of_gaps ((gaps_countCells row).mpr h)]
  simp [countCells, countCell, pidText, rowOf?, hpid, hcount]

/-- A line stands for its row if, and only if, its counts fit. -/
theorem rowOf?_pidCells (row : PidRow) : rowOf? (fields (pidCells row)) = some row ↔ row.Fits :=
  ⟨fun h => (length_fields_pidCells row).mp (length_of_row? h), rowOf?_of_fits⟩

theorem newline_notMem_pidCells (row : PidRow) : '\n' ∉ pidCells row :=
  newline_notMem_cells (solid_pidText row.pid) (solid_countCells row)

theorem lines_join (rows : List PidRow) :
    lines (String.join (rows.map pidLine)).toList = rows.map pidCells ++ [[]] := by
  induction rows with
  | nil => rfl
  | cons row rows ih =>
    have hjoin : (String.join ((row :: rows).map pidLine)).toList =
        pidCells row ++ '\n' :: (String.join (rows.map pidLine)).toList := by
      simp [String.toList_join, toList_pidLine]
    rw [hjoin, lines_line (newline_notMem_pidCells row), ih]
    rfl

theorem lines_heading {labels rule : List Char} (hlabels : '\n' ∉ labels) (hrule : '\n' ∉ rule)
    (below : List Char) :
    lines ('\n' :: (labels ++ '\n' :: (rule ++ '\n' :: below))) =
      [] :: labels :: rule :: lines below := by
  rw [← List.nil_append ('\n' :: _), lines_line List.not_mem_nil, lines_line hlabels,
    lines_line hrule]

theorem toList_rule : rule.toList = List.replicate 34 '─' ++ ['\n'] := by
  unfold rule
  rw [String.toList_append, String.toList_ofList]
  rfl

theorem lines_pidTable {rows : List PidRow} (h : rows ≠ []) :
    lines (pidTable rows).toList =
      [] :: labels.toList :: List.replicate 34 '─' :: (rows.map pidCells ++ [[]]) := by
  have hlabels : '\n' ∉ labels.toList := by simp [labels, toList_left, toList_right]
  have hrule : '\n' ∉ List.replicate 34 '─' := by simp
  have htable : (pidTable rows).toList =
      '\n' :: (labels.toList ++ '\n' :: (List.replicate 34 '─' ++ '\n' ::
        (String.join (rows.map pidLine)).toList)) := by
    simp [pidTable, h, tableLine, toList_rule, labels]
  rw [htable, lines_heading hlabels hrule, lines_join]

theorem pidLines_pidTable (rows : List PidRow) : pidLines (pidTable rows) = rows.map pidCells := by
  by_cases h : rows = []
  · subst h
    rfl
  · rw [pidLines, lines_pidTable h]
    exact List.dropLast_concat

theorem eq_of_row? {row row' : PidRow} (h : rowOf? (fields (pidCells row)) = some row') :
    row' = row := by
  have hfits : row.Fits := (length_fields_pidCells row).mp (length_of_row? h)
  exact Option.some.inj (h.symm.trans (rowOf?_of_fits hfits))

theorem mapM_eq_some_self {α : Type} {f : α → Option α} (l : List α) :
    l.mapM f = some l ↔ ∀ a ∈ l, f a = some a := by
  induction l with
  | nil => simp
  | cons a l ih => simp [List.mapM_cons, Option.bind_eq_some_iff, ih]

theorem eq_of_mapM {α : Type} {f : α → Option α} (hf : ∀ a b, f a = some b → b = a)
    {l l' : List α} (h : l.mapM f = some l') : l' = l := by
  induction l generalizing l' with
  | nil => simpa using h.symm
  | cons a l ih =>
    simp only [List.mapM_cons, Option.bind_eq_bind, Option.bind_eq_some_iff, Option.pure_def,
      Option.some.injEq] at h
    obtain ⟨b, hb, later, hlater, rfl⟩ := h
    rw [hf a b hb, ih hlater]

theorem readTable_pidTable (rows : List PidRow) :
    readTable (pidTable rows) = some rows ↔ ∀ row ∈ rows, row.Fits := by
  rw [readTable, pidLines_pidTable, List.mapM_map, mapM_eq_some_self]
  exact forall₂_congr fun row _ => rowOf?_pidCells row

theorem eq_of_readTable {rows rows' : List PidRow} (h : readTable (pidTable rows) = some rows') :
    rows' = rows := by
  rw [readTable, pidLines_pidTable, List.mapM_map] at h
  exact eq_of_mapM (fun _ _ => eq_of_row?) h

/-- A line has four fields, and they stand for its row, if and only if the counts of
the row fit. So the rows of a report whose counts fit are read off its table, and no
other rows, whether they fit or not, give this table. -/
theorem pidTable_reads_back (r : Report) :
    r.render = r.totals ++ pidTable r.pids ++ r.errorList ∧
      List.Forall₂
        (fun line row =>
          ((fields line).length = 4 ↔ row.Fits) ∧ (rowOf? (fields line) = some row ↔ row.Fits))
        (pidLines (pidTable r.pids)) r.pids ∧
      (readTable (pidTable r.pids) = some r.pids ↔ ∀ row ∈ r.pids, row.Fits) ∧
      ∀ r' : Report, (∀ row ∈ r.pids, row.Fits) → r'.pids ≠ r.pids →
        pidTable r'.pids ≠ pidTable r.pids := by
  refine ⟨rfl, ?_, readTable_pidTable r.pids, fun r' hfits hne htable => ?_⟩
  · rw [pidLines_pidTable, List.forall₂_map_left_iff, List.forall₂_same]
    exact fun row _ => ⟨length_fields_pidCells row, rowOf?_pidCells row⟩
  · have hread : readTable (pidTable r'.pids) = some r.pids :=
      htable ▸ (readTable_pidTable r.pids).mpr hfits
    exact hne (eq_of_readTable hread).symm

/-- The widest counts that fit, told apart from some that do not. -/
theorem pidTable_reads_back_of_widest :
    (∀ row ∈ [⟨256, 10 ^ 16, 999999, 999999999⟩], PidRow.Fits row) ∧
      ([⟨256, 10 ^ 16, 1000000, 999999999⟩] : List PidRow) ≠
        [⟨256, 10 ^ 16, 999999, 999999999⟩] ∧
      readTable (pidTable [⟨256, 10 ^ 16, 999999, 999999999⟩]) =
        some [⟨256, 10 ^ 16, 999999, 999999999⟩] ∧
      pidTable [⟨256, 10 ^ 16, 1000000, 999999999⟩] ≠
        pidTable [⟨256, 10 ^ 16, 999999, 999999999⟩] := by
  let report (row : PidRow) : Report :=
    ⟨"wide.ts", 188, false, 10 ^ 16, 188 * 10 ^ 16, 0, [], [row]⟩
  have hfits : ∀ row ∈ [⟨256, 10 ^ 16, 999999, 999999999⟩], PidRow.Fits row := by
    intro row hrow
    obtain rfl := List.mem_singleton.mp hrow
    exact ⟨by decide, by decide⟩
  have hne : ([⟨256, 10 ^ 16, 1000000, 999999999⟩] : List PidRow) ≠
      [⟨256, 10 ^ 16, 999999, 999999999⟩] := by
    decide
  obtain ⟨-, -, hread, hapart⟩ := pidTable_reads_back (report ⟨256, 10 ^ 16, 999999, 999999999⟩)
  exact ⟨hfits, hne, hread.mpr hfits,
    hapart (report ⟨256, 10 ^ 16, 1000000, 999999999⟩) hfits hne⟩

/-- A million unit starts run into the count of packets, and where the two have run
together the place at which they met is lost. -/
theorem counts_run_together :
    (pidLines (pidTable [⟨256, 1000000, 1000000, 0⟩])).map fields =
        [["0x0100".toList, "10000001000000".toList, "0".toList]] ∧
      readTable (pidTable [⟨256, 1000000, 1000000, 0⟩]) = none ∧
      pidTable [⟨256, 1234567891, 1234567, 0⟩] = pidTable [⟨256, 123456789, 11234567, 0⟩] := by
  have hfields : fields (pidCells ⟨256, 1000000, 1000000, 0⟩) =
      ["0x0100".toList, "10000001000000".toList, "0".toList] := by
    rw [fields_pidCells]
    decide
  have hcells :
      pidCells ⟨256, 1234567891, 1234567, 0⟩ = pidCells ⟨256, 123456789, 11234567, 0⟩ := by
    decide
  refine ⟨?_, ?_, ?_⟩
  · rw [pidLines_pidTable, List.map_singleton, List.map_singleton, hfields]
  · rw [readTable, pidLines_pidTable, List.map_singleton, List.mapM_cons, hfields]
    rfl
  · have hline :
        pidLine ⟨256, 1234567891, 1234567, 0⟩ = pidLine ⟨256, 123456789, 11234567, 0⟩ := by
      rw [← String.toList_inj, toList_pidLine, toList_pidLine, hcells]
    simp only [pidTable, List.map_singleton, hline]
    rfl

end Report
end TransportStream
