import Mathlib.Algebra.Ring.Nat

/-!
# Reading columns back

The fields of a line are what stands between its blanks. A cell as wide as its column
runs into the cell on its left (`length_joined`).
-/
namespace TransportStream.Text

/-- What stands between the blanks of a line. -/
def fields (line : List Char) : List (List Char) :=
  (line.splitOnP Char.isWhitespace).filter (· ≠ [])

/-- What stands before, between and behind the line ends of a text. -/
def lines (text : List Char) : List (List Char) := text.splitOnP (· == '\n')

/-- The number that a digit stands for. -/
def digit? (base : Nat) (c : Char) : Option Nat := (List.range base).find? (·.digitChar == c)

/-- The number that is read when one more digit follows. -/
def oneMore (base value : Nat) (c : Char) : Option Nat :=
  (digit? base c).map (value * base + ·)

/-- The number that some digits stand for, the highest first. -/
def number? (base : Nat) (digits : List Char) : Option Nat :=
  if digits = [] then none else digits.foldlM (oneMore base) 0

/-- A text of one field. -/
structure Solid (word : List Char) : Prop where
  some : word ≠ []
  unbroken : ∀ c ∈ word, c.isWhitespace = false

section
variable {word more rest : List Char}

theorem Solid.after (h : Solid word) (hmore : ∀ c ∈ more, c.isWhitespace = false) :
    Solid (more ++ word) where
  some := List.append_ne_nil_of_right_ne_nil more h.some
  unbroken := by
    intro c hc
    rcases List.mem_append.mp hc with hc | hc
    · exact hmore c hc
    · exact h.unbroken c hc

theorem Solid.append (h : Solid word) (h' : Solid more) : Solid (word ++ more) :=
  h'.after h.unbroken

theorem fields_blank {c : Char} (hc : c.isWhitespace = true) :
    fields (c :: rest) = fields rest := by
  have hsplit := List.splitOnP_append_cons [] rest hc
  rw [List.nil_append, List.splitOnP_nil] at hsplit
  rw [fields, hsplit]
  rfl

theorem fields_blanks (count : Nat) : fields (List.replicate count ' ' ++ rest) = fields rest := by
  induction count with
  | zero => rfl
  | succ count ih =>
    rw [List.replicate_succ, List.cons_append, fields_blank rfl, ih]

theorem fields_word (h : Solid word) {c : Char} (hc : c.isWhitespace = true) :
    fields (word ++ c :: rest) = word :: fields rest := by
  rw [fields, List.splitOnP_append_cons_of_forall_mem h.unbroken c hc, List.filter_cons_of_pos]
  · rfl
  · simp [h.some]

theorem fields_solid (h : Solid word) : fields word = [word] := by
  rw [fields, List.splitOnP_eq_singleton h.unbroken, List.filter_cons_of_pos]
  · rfl
  · simp [h.some]

theorem lines_line (h : '\n' ∉ word) : lines (word ++ '\n' :: rest) = word :: lines rest := by
  refine List.splitOnP_append_cons_of_forall_mem (fun c hc => ?_) '\n' rfl rest
  exact beq_eq_false_iff_ne.mpr fun heq => h (heq ▸ hc)

end

/-- A text and the number of blanks before it. -/
structure Cell where
  gap : Nat
  text : List Char

def Cell.shown (cell : Cell) : List Char := List.replicate cell.gap ' ' ++ cell.text

/-- The fields of a line, given a word and the cells that follow it. -/
def joined (word : List Char) : List Cell → List (List Char)
  | [] => [word]
  | cell :: cells =>
    if cell.gap = 0 then joined (word ++ cell.text) cells else word :: joined cell.text cells

section
variable {word : List Char} {cells : List Cell}

theorem fields_cells (hword : Solid word) (hcells : ∀ cell ∈ cells, Solid cell.text) :
    fields (word ++ cells.flatMap Cell.shown) = joined word cells := by
  induction cells generalizing word with
  | nil => rw [List.flatMap_nil, List.append_nil, fields_solid hword, joined]
  | cons cell cells ih =>
    obtain ⟨hcell, hcells⟩ := List.forall_mem_cons.mp hcells
    rw [List.flatMap_cons, Cell.shown, List.append_assoc, joined]
    cases hgap : cell.gap with
    | zero =>
      rw [if_pos rfl, List.replicate_zero, List.nil_append, ← List.append_assoc]
      exact ih (hword.append hcell) hcells
    | succ gap =>
      rw [if_neg (Nat.succ_ne_zero gap), List.replicate_succ, List.cons_append,
        fields_word hword rfl, fields_blanks, ih hcell hcells]

theorem newline_notMem_cells (hword : Solid word) (hcells : ∀ cell ∈ cells, Solid cell.text) :
    '\n' ∉ word ++ cells.flatMap Cell.shown := by
  have hsolid {text : List Char} (h : Solid text) : '\n' ∉ text := fun hmem =>
    Bool.noConfusion (h.unbroken _ hmem)
  simp only [List.mem_append, List.mem_flatMap, Cell.shown, List.mem_replicate, not_or,
    not_exists, not_and]
  refine ⟨hsolid hword, fun cell hcell => ⟨fun _ => by decide, hsolid (hcells cell hcell)⟩⟩

/-- A cell with a blank before it is a field of its own. -/
theorem length_joined (word : List Char) (cells : List Cell) :
    (joined word cells).length = cells.countP (0 < ·.gap) + 1 := by
  induction cells generalizing word with
  | nil => rfl
  | cons cell cells ih =>
    rw [joined, List.countP_cons]
    split
    · rename_i hgap
      simp [ih, hgap]
    · rename_i hgap
      simp [ih, Nat.pos_of_ne_zero hgap]

theorem joined_of_gaps (hgaps : ∀ cell ∈ cells, 0 < cell.gap) :
    joined word cells = word :: cells.map (·.text) := by
  induction cells generalizing word with
  | nil => rfl
  | cons cell cells ih =>
    obtain ⟨hgap, hgaps⟩ := List.forall_mem_cons.mp hgaps
    rw [joined, if_neg (Nat.ne_of_gt hgap), ih hgaps, List.map_cons]

end

section
variable {base : Nat}

theorem exists_of_mem_toDigits (hb : 1 < base) (value : Nat) :
    ∀ c ∈ base.toDigits value, ∃ d, c = Nat.digitChar d := by
  induction value using Nat.strongRecOn with
  | ind value ih =>
    intro c hc
    rw [Nat.toDigits_eq_if hb] at hc
    split at hc
    · exact ⟨value, List.mem_singleton.mp hc⟩
    · rcases List.mem_append.mp hc with hc | hc
      · exact ih _ (Nat.div_lt_self (by omega) hb) c hc
      · exact ⟨_, List.mem_singleton.mp hc⟩

theorem solid_toDigits (hb : 1 < base) (value : Nat) : Solid (base.toDigits value) where
  some := Nat.toDigits_ne_nil
  unbroken := by
    intro c hc
    obtain ⟨d, rfl⟩ := exists_of_mem_toDigits hb value c hc
    simp [Char.isWhitespace, Nat.digitChar_ne]

theorem digitChar_ne : ∀ d < 16, ∀ d' < d, Nat.digitChar d' ≠ Nat.digitChar d := by decide

theorem digit?_digitChar (hb : base ≤ 16) {d : Nat} (hd : d < base) :
    digit? base d.digitChar = some d := by
  rw [digit?, List.find?_range_eq_some]
  refine ⟨beq_self_eq_true _, List.mem_range.mpr hd, fun d' hlt => ?_⟩
  simpa using digitChar_ne d (by omega) d' hlt

theorem oneMore_digitChar (hb : base ≤ 16) {d : Nat} (hd : d < base) (value : Nat) :
    oneMore base value d.digitChar = some (value * base + d) := by
  rw [oneMore, digit?_digitChar hb hd, Option.map_some]

theorem foldlM_zeros (hb : 0 < base) (hb' : base ≤ 16) (zeros : Nat) :
    (List.replicate zeros '0').foldlM (oneMore base) 0 = some 0 := by
  induction zeros with
  | zero => rfl
  | succ zeros ih =>
    have hzero : oneMore base 0 '0' = some (0 * base + 0) := oneMore_digitChar hb' hb 0
    rw [List.replicate_succ, List.foldlM_cons, hzero, Nat.zero_mul]
    exact ih

theorem foldlM_toDigits (hb : 1 < base) (hb' : base ≤ 16) (value before : Nat) :
    (base.toDigits value).foldlM (oneMore base) before =
      some (before * base ^ (base.toDigits value).length + value) := by
  induction value using Nat.strongRecOn generalizing before with
  | ind value ih =>
    rw [Nat.toDigits_eq_if hb]
    split
    · rename_i hlt
      rw [List.foldlM_cons, oneMore_digitChar hb' hlt, List.length_singleton, Nat.pow_one]
      rfl
    · have hlow : value % base < base := Nat.mod_lt value (by omega)
      have hvalue : value / base * base + value % base = value := Nat.div_add_mod' value base
      rw [List.foldlM_append, ih _ (Nat.div_lt_self (by omega) hb), Option.bind_eq_bind,
        Option.bind_some, List.foldlM_cons, oneMore_digitChar hb' hlow, List.length_append,
        List.length_singleton, Nat.pow_succ, ← Nat.mul_assoc, Nat.add_mul, Nat.add_assoc, hvalue]
      rfl

theorem number?_digits (hb : 1 < base) (hb' : base ≤ 16) (zeros value : Nat) :
    number? base (List.replicate zeros '0' ++ base.toDigits value) = some value := by
  have hsome : List.replicate zeros '0' ++ base.toDigits value ≠ [] :=
    List.append_ne_nil_of_right_ne_nil _ Nat.toDigits_ne_nil
  rw [number?, if_neg hsome, List.foldlM_append, foldlM_zeros (by omega) hb',
    Option.bind_eq_bind, Option.bind_some, foldlM_toDigits hb hb', Nat.zero_mul, Nat.zero_add]

end

end TransportStream.Text
