import Awen.Library.Unicode

/-!
# Previews of delimited files

`parseDelimitedPreview` reads the table of a text with commas or tabs between its cells. A preview
has at most 100 rows of at most 30 cells of at most 2000 code units, and says so if it leaves out
something. `tableOf` is the whole table that a text holds, without these bounds.
-/

namespace Awen.DelimitedPreview

inductive Delimiter where
  | comma
  | tab
  deriving DecidableEq

def Delimiter.unit : Delimiter → UInt16
  | comma => 0x2c
  | tab => 0x9

def quoteUnit : UInt16 := 0x22

def lineFeed : UInt16 := 0xa

def carriageReturn : UInt16 := 0xd

def byteOrderMark : UInt16 := 0xfeff

/-- The text behind a byte-order mark. -/
def dropByteOrderMark (text : CodeUnits) : CodeUnits :=
  if text.head? = some byteOrderMark then text.tail else text

variable (delimiter : Delimiter)

/-! ## The preview -/

structure Preview where
  rows : List (List CodeUnits)
  truncated : Bool
  deriving DecidableEq

/-- The variables of the loop. -/
structure PreviewScan where
  rows : List (List CodeUnits) := []
  row : List CodeUnits := []
  cell : CodeUnits := []
  quoted : Bool := false
  truncated : Bool := false

namespace PreviewScan

variable (s : PreviewScan)

def endCell : PreviewScan :=
  if s.row.length < 30 then { s with row := s.row ++ [s.cell], cell := [] }
  else { s with truncated := true, cell := [] }

def endRow : PreviewScan :=
  let s := s.endCell
  { s with rows := s.rows ++ [s.row], row := [] }

def addUnit (u : UInt16) : PreviewScan :=
  if s.cell.length < 2000 then { s with cell := s.cell ++ [u] } else { s with truncated := true }

/-- Behind the loop. -/
def finish : Preview :=
  let s := if s.cell ≠ [] ∨ s.row ≠ [] then s.endRow else s
  { rows := s.rows, truncated := s.truncated || s.quoted }

end PreviewScan

/-- **The loop** over the code units of the text; `skip` is set where it steps over one. -/
def parseUnits : CodeUnits → Bool → PreviewScan → Preview
  | [], _, s => s.finish
  | _ :: text, true, s => parseUnits text false s
  | char :: text, false, s =>
    if char = quoteUnit ∧ s.quoted = true ∧ text.head? = some quoteUnit then
      parseUnits text true (s.addUnit quoteUnit)
    else if char = quoteUnit ∧ (s.quoted = true ∨ s.cell = []) then
      parseUnits text false { s with quoted := !s.quoted }
    else if s.quoted = false ∧ char = delimiter.unit then parseUnits text false s.endCell
    else if s.quoted = false ∧ (char = lineFeed ∨ char = carriageReturn) then
      let s := s.endRow
      let skip := decide (char = carriageReturn ∧ text.head? = some lineFeed)
      if s.rows.length = 100 then
        { rows := s.rows
          truncated := s.truncated || decide ((if skip then text.tail else text) ≠ []) }
      else parseUnits text skip s
    else parseUnits text false (s.addUnit char)

/-- **The preview of a text.** -/
def parseDelimitedPreview (text : CodeUnits) : Preview :=
  parseUnits delimiter (dropByteOrderMark text) false {}

/-! ## The table -/

/-- A table as far as it is read. -/
structure TableScan where
  rows : List (List CodeUnits) := []
  row : List CodeUnits := []
  cell : CodeUnits := []
  quoted : Bool := false
  /-- Something stands behind the last end of a row. -/
  started : Bool := false

namespace TableScan

variable (t : TableScan)

def endCell : TableScan := { t with row := t.row ++ [t.cell], cell := [], started := true }

def endRow : TableScan :=
  { rows := t.rows ++ [t.row ++ [t.cell]], quoted := t.quoted }

def addUnit (u : UInt16) : TableScan := { t with cell := t.cell ++ [u], started := true }

def toggle : TableScan := { t with quoted := !t.quoted, started := true }

/-- The rows, with one that has no end. -/
def allRows : List (List CodeUnits) :=
  if t.started then t.rows ++ [t.row ++ [t.cell]] else t.rows

/-- Behind the last end of a row stands an empty cell in quotes, and nothing else. -/
def EndsInEmptyQuotes : Prop :=
  t.started = true ∧ t.row = [] ∧ t.cell = [] ∧ t.quoted = false

instance : Decidable t.EndsInEmptyQuotes := inferInstanceAs (Decidable (_ ∧ _))

end TableScan

/-- The table of the code units of a text. -/
def scanUnits : CodeUnits → Bool → TableScan → TableScan
  | [], _, t => t
  | _ :: text, true, t => scanUnits text false t
  | char :: text, false, t =>
    if char = quoteUnit ∧ t.quoted = true ∧ text.head? = some quoteUnit then
      scanUnits text true (t.addUnit quoteUnit)
    else if char = quoteUnit ∧ (t.quoted = true ∨ t.cell = []) then scanUnits text false t.toggle
    else if t.quoted = false ∧ char = delimiter.unit then scanUnits text false t.endCell
    else if t.quoted = false ∧ (char = lineFeed ∨ char = carriageReturn) then
      scanUnits text (decide (char = carriageReturn ∧ text.head? = some lineFeed)) t.endRow
    else scanUnits text false (t.addUnit char)

/-- **The table that a text holds**, whatever its size. -/
def tableOf (text : CodeUnits) : TableScan := scanUnits delimiter (dropByteOrderMark text) false {}

/-! ## The bounds -/

/-- The row and its cells are in the bounds. -/
def RowInBounds (row : List CodeUnits) : Prop :=
  row.length ≤ 30 ∧ ∀ cell ∈ row, cell.length ≤ 2000

structure PreviewScan.InBounds (s : PreviewScan) : Prop where
  rows : ∀ row ∈ s.rows, RowInBounds row
  count : s.rows.length < 100
  row : RowInBounds s.row
  cell : s.cell.length ≤ 2000

namespace PreviewScan.InBounds

variable {s : PreviewScan} (h : s.InBounds)

include h

theorem endCell : s.endCell.InBounds := by
  rw [PreviewScan.endCell]
  split
  next hlt =>
    refine ⟨h.rows, h.count, ⟨?_, ?_⟩, Nat.zero_le _⟩
    · rw [List.length_append, List.length_singleton]
      exact hlt
    · intro cell hcell
      rcases List.mem_append.mp hcell with hcell | hcell
      · exact h.row.2 cell hcell
      · rw [List.mem_singleton.mp hcell]
        exact h.cell
  next => exact ⟨h.rows, h.count, h.row, Nat.zero_le _⟩

theorem rows_endRow : ∀ row ∈ s.endRow.rows, RowInBounds row := by
  intro row hrow
  rcases List.mem_append.mp hrow with hrow | hrow
  · exact h.endCell.rows row hrow
  · rw [List.mem_singleton.mp hrow]
    exact h.endCell.row

theorem length_rows_endRow : s.endRow.rows.length ≤ 100 := by
  have hrows : s.endCell.rows = s.rows := by
    rw [PreviewScan.endCell]
    split <;> rfl
  rw [PreviewScan.endRow, List.length_append, hrows]
  exact h.count

theorem endRow (hcount : s.endRow.rows.length ≠ 100) : s.endRow.InBounds where
  rows := h.rows_endRow
  count := Nat.lt_of_le_of_ne h.length_rows_endRow hcount
  row := ⟨Nat.zero_le _, List.forall_mem_nil _⟩
  cell := h.endCell.cell

theorem addUnit (u : UInt16) : (s.addUnit u).InBounds := by
  rw [PreviewScan.addUnit]
  split
  next hlt =>
    refine ⟨h.rows, h.count, h.row, ?_⟩
    rw [List.length_append, List.length_singleton]
    exact hlt
  next => exact ⟨h.rows, h.count, h.row, h.cell⟩

end PreviewScan.InBounds

/-- A preview is in the bounds. -/
def Preview.InBounds (preview : Preview) : Prop :=
  preview.rows.length ≤ 100 ∧ ∀ row ∈ preview.rows, RowInBounds row

theorem inBounds_parseUnits (text : CodeUnits) (skip : Bool) {s : PreviewScan} (h : s.InBounds) :
    (parseUnits delimiter text skip s).InBounds := by
  induction text generalizing skip s with
  | nil =>
    rw [parseUnits, PreviewScan.finish]
    split
    next => exact ⟨h.length_rows_endRow, h.rows_endRow⟩
    next => exact ⟨Nat.le_of_lt h.count, h.rows⟩
  | cons char text ih =>
    cases skip with
    | true => exact ih false h
    | false =>
      rw [parseUnits]
      split
      next => exact ih true (h.addUnit _)
      next =>
        split
        next => exact ih false ⟨h.rows, h.count, h.row, h.cell⟩
        next =>
          split
          next => exact ih false h.endCell
          next =>
            split
            next =>
              simp only
              split
              next => exact ⟨h.length_rows_endRow, h.rows_endRow⟩
              next hcount => exact ih _ (h.endRow hcount)
            next => exact ih false (h.addUnit _)

/-- **A preview is in the bounds.** -/
theorem inBounds_parseDelimitedPreview (text : CodeUnits) :
    (parseDelimitedPreview delimiter text).InBounds :=
  inBounds_parseUnits delimiter _ false
    ⟨List.forall_mem_nil _, by decide, ⟨Nat.zero_le _, List.forall_mem_nil _⟩, Nat.zero_le _⟩

end Awen.DelimitedPreview
