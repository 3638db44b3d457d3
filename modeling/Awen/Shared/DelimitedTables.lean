import Awen.Shared.DelimitedPreview

/-!
# Tables and their previews

A preview that is not marked as truncated is the table of its text (`rows_eq_of_not_truncated`), and
the preview of a table that a writer has written is that table (`parseDelimitedPreview_text`).
-/

namespace Awen.DelimitedPreview

variable (delimiter : Delimiter)

/-! ## What is not truncated is complete -/

/-- The preview keeps up with the table: it knows whether it is in quotes, and as long as nothing is
left out it has what the table has. -/
structure KeepsUp (s : PreviewScan) (t : TableScan) : Prop where
  quoted : s.quoted = t.quoted
  cell_eq_nil : s.cell = [] ↔ t.cell = []
  whole : s.truncated = false → s.rows = t.rows ∧ s.row = t.row ∧ s.cell = t.cell
  started : t.started = false → t.row = [] ∧ t.cell = [] ∧ t.quoted = false

namespace KeepsUp

variable {s : PreviewScan} {t : TableScan} (h : KeepsUp s t)

include h

theorem endCell : KeepsUp s.endCell t.endCell := by
  rw [PreviewScan.endCell]
  split
  next =>
    refine ⟨h.quoted, Iff.rfl, fun hwhole ↦ ?_, fun hstarted ↦ by cases hstarted⟩
    obtain ⟨hrows, hrow, hcell⟩ := h.whole hwhole
    exact ⟨hrows, by rw [hrow, hcell]; rfl, rfl⟩
  next =>
    exact ⟨h.quoted, Iff.rfl, fun hwhole ↦ (by cases hwhole), fun hstarted ↦ by cases hstarted⟩

theorem endRow (hquoted : t.quoted = false) : KeepsUp s.endRow t.endRow where
  quoted := h.endCell.quoted
  cell_eq_nil := h.endCell.cell_eq_nil
  whole hwhole := by
    obtain ⟨hrows, hrow, hcell⟩ := h.endCell.whole hwhole
    exact ⟨by rw [PreviewScan.endRow, hrows, hrow]; rfl, rfl, hcell⟩
  started _ := ⟨rfl, rfl, hquoted⟩

theorem toggle : KeepsUp { s with quoted := !s.quoted } t.toggle :=
  ⟨congrArg (!·) h.quoted, h.cell_eq_nil, h.whole, fun hstarted ↦ by cases hstarted⟩

theorem addUnit (u : UInt16) : KeepsUp (s.addUnit u) (t.addUnit u) := by
  have hne : t.cell ++ [u] ≠ [] := List.append_ne_nil_of_right_ne_nil _ (List.cons_ne_nil _ _)
  rw [PreviewScan.addUnit]
  split
  next =>
    refine ⟨h.quoted, ?_, fun hwhole ↦ ?_, fun hstarted ↦ by cases hstarted⟩
    · exact iff_of_false (List.append_ne_nil_of_right_ne_nil _ (List.cons_ne_nil _ _)) hne
    · obtain ⟨hrows, hrow, hcell⟩ := h.whole hwhole
      exact ⟨hrows, hrow, congrArg (· ++ [u]) hcell⟩
  next hfull =>
    refine ⟨h.quoted, iff_of_false ?_ hne, fun hwhole ↦ (by cases hwhole),
      fun hstarted ↦ by cases hstarted⟩
    intro hnil
    rw [hnil] at hfull
    exact hfull (by decide)

/-- **At the end of the text** nothing is left out but a row of an empty cell in quotes. -/
theorem finish (hends : ¬t.EndsInEmptyQuotes) (hwhole : s.finish.truncated = false) :
    s.finish.rows = t.allRows ∧ t.quoted = false := by
  rw [PreviewScan.finish] at hwhole ⊢
  by_cases hcontent : s.cell ≠ [] ∨ s.row ≠ []
  · rw [if_pos hcontent] at hwhole ⊢
    obtain ⟨htruncated, hquoted⟩ := Bool.or_eq_false_iff.mp hwhole
    have hquoted : t.quoted = false := h.endCell.quoted.symm.trans hquoted
    refine ⟨?_, hquoted⟩
    have htruncated' : s.truncated = false := by
      rw [PreviewScan.endRow, PreviewScan.endCell] at htruncated
      split at htruncated
      next => exact htruncated
      next => cases htruncated
    obtain ⟨-, hrow, hcell⟩ := h.whole htruncated'
    have hstarted : t.started = true := by
      by_contra hnot
      obtain ⟨hrow', hcell', -⟩ := h.started (Bool.not_eq_true _ ▸ hnot)
      rw [hrow, hrow', hcell, hcell'] at hcontent
      exact hcontent.elim (· rfl) (· rfl)
    rw [TableScan.allRows, if_pos hstarted]
    exact ((h.endRow hquoted).whole htruncated).1
  · rw [if_neg hcontent] at hwhole ⊢
    obtain ⟨htruncated, hquoted⟩ := Bool.or_eq_false_iff.mp hwhole
    have hquoted : t.quoted = false := h.quoted.symm.trans hquoted
    refine ⟨?_, hquoted⟩
    rw [not_or, not_not, not_not] at hcontent
    obtain ⟨hrows, hrow, hcell⟩ := h.whole htruncated
    have hstarted : t.started = false := by
      by_contra hnot
      exact hends ⟨Bool.not_eq_false _ ▸ hnot, hrow ▸ hcontent.2, hcell ▸ hcontent.1, hquoted⟩
    rw [TableScan.allRows, if_neg (by rw [hstarted]; exact Bool.false_ne_true)]
    exact hrows

end KeepsUp

/-- Where nothing is left of the text, nothing comes up. -/
theorem scanUnits_of_rest_eq_nil {text : CodeUnits} {skip : Bool} (t : TableScan)
    (h : (if skip = true then text.tail else text) = []) : scanUnits delimiter text skip t = t := by
  cases text with
  | nil => rfl
  | cons char text =>
    cases skip with
    | true =>
      have htext : text = [] := h
      rw [htext]
      rfl
    | false => exact nomatch h

theorem keepsUp_parseUnits (text : CodeUnits) (skip : Bool) {s : PreviewScan} {t : TableScan}
    (h : KeepsUp s t) (hends : ¬(scanUnits delimiter text skip t).EndsInEmptyQuotes)
    (hwhole : (parseUnits delimiter text skip s).truncated = false) :
    (parseUnits delimiter text skip s).rows = (scanUnits delimiter text skip t).allRows ∧
      (scanUnits delimiter text skip t).quoted = false := by
  induction text generalizing skip s t with
  | nil => exact h.finish hends hwhole
  | cons char text ih =>
    cases skip with
    | true => exact ih false h hends hwhole
    | false =>
      rw [parseUnits] at hwhole ⊢
      rw [scanUnits] at hends ⊢
      simp only [← h.quoted, ← h.cell_eq_nil] at hends ⊢
      by_cases hescaped : char = quoteUnit ∧ s.quoted = true ∧ text.head? = some quoteUnit
      · rw [if_pos hescaped] at hwhole hends ⊢
        rw [if_pos hescaped]
        exact ih true (h.addUnit quoteUnit) hends hwhole
      rw [if_neg hescaped] at hwhole hends ⊢
      rw [if_neg hescaped]
      by_cases htoggle : char = quoteUnit ∧ (s.quoted = true ∨ s.cell = [])
      · rw [if_pos htoggle] at hwhole hends ⊢
        rw [if_pos htoggle]
        exact ih false h.toggle hends hwhole
      rw [if_neg htoggle] at hwhole hends ⊢
      rw [if_neg htoggle]
      by_cases hcell : s.quoted = false ∧ char = delimiter.unit
      · rw [if_pos hcell] at hwhole hends ⊢
        rw [if_pos hcell]
        exact ih false h.endCell hends hwhole
      rw [if_neg hcell] at hwhole hends ⊢
      rw [if_neg hcell]
      by_cases hrow : s.quoted = false ∧ (char = lineFeed ∨ char = carriageReturn)
      · rw [if_pos hrow] at hwhole hends ⊢
        rw [if_pos hrow]
        have hnext := h.endRow (h.quoted.symm.trans hrow.1)
        simp only at hwhole ⊢
        by_cases hfull : s.endRow.rows.length = 100
        · rw [if_pos hfull] at hwhole ⊢
          obtain ⟨htruncated, hrest⟩ := Bool.or_eq_false_iff.mp hwhole
          have hrest := not_not.mp (of_decide_eq_false hrest)
          rw [scanUnits_of_rest_eq_nil delimiter _ hrest]
          exact ⟨(hnext.whole htruncated).1, h.quoted.symm.trans hrow.1⟩
        · rw [if_neg hfull] at hwhole ⊢
          exact ih _ hnext hends hwhole
      · rw [if_neg hrow] at hwhole hends ⊢
        rw [if_neg hrow]
        exact ih false (h.addUnit char) hends hwhole

/-- **A preview that is not truncated is the whole table**, and no quote is left open. Nothing is
said of a text that ends in a row of its own that is an empty cell in quotes, without a line end. -/
theorem rows_eq_of_not_truncated (text : CodeUnits)
    (hends : ¬(tableOf delimiter text).EndsInEmptyQuotes)
    (h : (parseDelimitedPreview delimiter text).truncated = false) :
    (parseDelimitedPreview delimiter text).rows = (tableOf delimiter text).allRows ∧
      (tableOf delimiter text).quoted = false :=
  keepsUp_parseUnits delimiter _ false
    ⟨rfl, Iff.rfl, fun _ ↦ ⟨rfl, rfl, rfl⟩, fun _ ↦ ⟨rfl, rfl, rfl⟩⟩ hends h

/-! ## Written tables -/

/-- The code unit has a meaning in a table. -/
def IsSpecial (u : UInt16) : Prop :=
  u = delimiter.unit ∨ u = quoteUnit ∨ u = lineFeed ∨ u = carriageReturn

instance (u : UInt16) : Decidable (IsSpecial delimiter u) :=
  inferInstanceAs (Decidable (_ ∨ _))

/-- A cell as it is written: in quotes, or bare if nothing in it is special. -/
structure WrittenCell where
  content : CodeUnits
  quoted : Bool
  bare : quoted = false → ∀ u ∈ content, ¬IsSpecial delimiter u

structure WrittenRow where
  cells : List (WrittenCell delimiter)
  /-- The row ends in CR LF, and not in LF alone. -/
  crlf : Bool

structure WrittenTable where
  rows : List (WrittenRow delimiter)
  byteOrderMark : Bool

variable {delimiter}

/-- Inner quotes are doubled. -/
def doubleQuotes (content : CodeUnits) : CodeUnits :=
  content.flatMap fun u ↦ if u = quoteUnit then [quoteUnit, quoteUnit] else [u]

def WrittenCell.text (cell : WrittenCell delimiter) : CodeUnits :=
  if cell.quoted then quoteUnit :: (doubleQuotes cell.content ++ [quoteUnit]) else cell.content

namespace WrittenRow

variable (row : WrittenRow delimiter)

def lineEnd : CodeUnits := if row.crlf then [carriageReturn, lineFeed] else [lineFeed]

def text : CodeUnits := [delimiter.unit].intercalate (row.cells.map (·.text)) ++ row.lineEnd

def contents : List CodeUnits := row.cells.map (·.content)

end WrittenRow

namespace WrittenTable

variable (table : WrittenTable delimiter)

def text : CodeUnits :=
  (if table.byteOrderMark then [DelimitedPreview.byteOrderMark] else []) ++
    table.rows.flatMap (·.text)

def contents : List (List CodeUnits) := table.rows.map (·.contents)

/-- The table is in the bounds of a preview. -/
structure InBounds : Prop where
  rows : table.rows.length ≤ 100
  cells : ∀ row ∈ table.rows, row.cells ≠ [] ∧ row.cells.length ≤ 30
  units : ∀ row ∈ table.rows, ∀ cell ∈ row.cells, cell.content.length ≤ 2000

/-- The text begins with a byte-order mark that is none: the first cell is bare, it begins with this
character, and no mark is written before it. -/
def BeginsWithMark : Prop :=
  table.byteOrderMark = false ∧ ∃ row ∈ table.rows.head?, ∃ cell ∈ row.cells.head?,
    cell.quoted = false ∧ cell.content.head? = some DelimitedPreview.byteOrderMark

end WrittenTable

/-! ## Reading a written table -/

/-- The scan is at the start of a cell, and nothing is left out so far. -/
structure AtCell (s : PreviewScan) : Prop where
  cell : s.cell = []
  quoted : s.quoted = false
  truncated : s.truncated = false

/-- What stands behind a cell. -/
def EndsCell (delimiter : Delimiter) (rest : CodeUnits) : Prop :=
  ∃ u ∈ rest.head?, u = delimiter.unit ∨ u = lineFeed ∨ u = carriageReturn

section

variable {s : PreviewScan} {rest : CodeUnits}

theorem parseUnits_quoted_content (content : CodeUnits) (hquoted : s.quoted = true)
    (hlength : s.cell.length + content.length ≤ 2000) :
    parseUnits delimiter (doubleQuotes content ++ quoteUnit :: rest) false s =
      parseUnits delimiter (quoteUnit :: rest) false { s with cell := s.cell ++ content } := by
  induction content generalizing s with
  | nil => simp [doubleQuotes]
  | cons u content ih =>
    rw [List.length_cons] at hlength
    have hadd : s.addUnit u = { s with cell := s.cell ++ [u] } := by
      rw [PreviewScan.addUnit, if_pos (by omega)]
    have hnext := ih (s := { s with cell := s.cell ++ [u] }) hquoted
      (by rw [List.length_append, List.length_singleton]; omega)
    rw [List.append_assoc, List.singleton_append] at hnext
    rw [← hnext]
    by_cases hu : u = quoteUnit
    · subst hu
      rw [doubleQuotes, List.flatMap_cons, if_pos rfl, ← doubleQuotes]
      simp [parseUnits, hquoted, hadd]
    · rw [doubleQuotes, List.flatMap_cons, if_neg hu, ← doubleQuotes]
      simp [parseUnits, hquoted, hadd, hu]

theorem not_isSpecial_iff {u : UInt16} : ¬IsSpecial delimiter u ↔
    u ≠ delimiter.unit ∧ u ≠ quoteUnit ∧ u ≠ lineFeed ∧ u ≠ carriageReturn := by
  simp only [IsSpecial, not_or]

theorem parseUnits_bare_content (content : CodeUnits)
    (hbare : ∀ u ∈ content, ¬IsSpecial delimiter u) (hquoted : s.quoted = false)
    (hlength : s.cell.length + content.length ≤ 2000) :
    parseUnits delimiter (content ++ rest) false s =
      parseUnits delimiter rest false { s with cell := s.cell ++ content } := by
  induction content generalizing s with
  | nil => simp
  | cons u content ih =>
    obtain ⟨hu, hcontent⟩ := List.forall_mem_cons.mp hbare
    obtain ⟨hdelimiter, hquote, hfeed, hreturn⟩ := not_isSpecial_iff.mp hu
    rw [List.length_cons] at hlength
    have hadd : s.addUnit u = { s with cell := s.cell ++ [u] } := by
      rw [PreviewScan.addUnit, if_pos (by omega)]
    have hnext := ih (s := { s with cell := s.cell ++ [u] }) hcontent hquoted
      (by rw [List.length_append, List.length_singleton]; omega)
    rw [List.append_assoc, List.singleton_append] at hnext
    rw [← hnext]
    simp [parseUnits, hadd, hdelimiter, hquote, hfeed, hreturn]

theorem delimiter_ne_quoteUnit : delimiter.unit ≠ quoteUnit := by cases delimiter <;> decide

/-- **A written cell is read.** -/
theorem parseUnits_cell (cell : WrittenCell delimiter) (hs : AtCell s)
    (hlength : cell.content.length ≤ 2000) (hrest : EndsCell delimiter rest) :
    parseUnits delimiter (cell.text ++ rest) false s =
      parseUnits delimiter rest false { s with cell := cell.content } := by
  have hlength : s.cell.length + cell.content.length ≤ 2000 := by
    rw [hs.cell, List.length_nil]
    omega
  have hcell : s.cell ++ cell.content = cell.content := by rw [hs.cell, List.nil_append]
  rw [WrittenCell.text]
  split
  next =>
    -- the quote behind the content is not doubled
    have hclose : rest.head? ≠ some quoteUnit := by
      obtain ⟨u, hu, hends⟩ := hrest
      rw [Option.mem_def] at hu
      rw [hu]
      rintro hquote
      obtain rfl := Option.some.inj hquote
      rcases hends with h | h | h
      · exact delimiter_ne_quoteUnit h.symm
      · exact absurd h (by decide)
      · exact absurd h (by decide)
    have hcontent : parseUnits delimiter (doubleQuotes cell.content ++ quoteUnit :: rest) false
        { s with quoted := true } = parseUnits delimiter (quoteUnit :: rest) false
          { s with quoted := true, cell := s.cell ++ cell.content } :=
      parseUnits_quoted_content cell.content rfl hlength
    have hopen : parseUnits delimiter
        (quoteUnit :: (doubleQuotes cell.content ++ quoteUnit :: rest)) false s =
        parseUnits delimiter (doubleQuotes cell.content ++ quoteUnit :: rest) false
          { s with quoted := true } := by
      simp [parseUnits, hs.quoted, hs.cell]
    rw [List.cons_append, List.append_assoc, List.singleton_append, hopen, hcontent]
    simp [parseUnits, hclose, hs.quoted, hs.cell]
  next hbare =>
    rw [parseUnits_bare_content cell.content (cell.bare (Bool.not_eq_true _ ▸ hbare)) hs.quoted
      hlength, hcell]

/-- Behind a row the next one is read, or the preview is full. -/
def afterRow (delimiter : Delimiter) (rest : CodeUnits) (s : PreviewScan) : Preview :=
  if s.rows.length = 100 then { rows := s.rows, truncated := s.truncated || decide (rest ≠ []) }
  else parseUnits delimiter rest false s

theorem endsCell_lineEnd (row : WrittenRow delimiter) (rest : CodeUnits) :
    EndsCell delimiter (row.lineEnd ++ rest) := by
  rw [WrittenRow.lineEnd]
  split
  next => exact ⟨_, rfl, .inr (.inr rfl)⟩
  next => exact ⟨_, rfl, .inr (.inl rfl)⟩

theorem parseUnits_lineEnd (row : WrittenRow delimiter) (hquoted : s.quoted = false) :
    parseUnits delimiter (row.lineEnd ++ rest) false s = afterRow delimiter rest s.endRow := by
  have hfeed : lineFeed ≠ delimiter.unit := by cases delimiter <;> decide
  have hreturn : carriageReturn ≠ delimiter.unit := by cases delimiter <;> decide
  have hfeedQuote : lineFeed ≠ quoteUnit := by decide
  have hreturnQuote : carriageReturn ≠ quoteUnit := by decide
  have hne : lineFeed ≠ carriageReturn := by decide
  rw [WrittenRow.lineEnd, afterRow]
  split
  next => simp [parseUnits, hquoted, hreturn, hreturnQuote]
  next => simp [parseUnits, hquoted, hfeed, hfeedQuote, hne]

/-- **A written row is read.** -/
theorem parseUnits_row (row : WrittenRow delimiter) (cells : List (WrittenCell delimiter))
    (hne : cells ≠ []) (hs : AtCell s) (hlength : s.row.length + cells.length ≤ 30)
    (hunits : ∀ cell ∈ cells, cell.content.length ≤ 2000) :
    parseUnits delimiter
        ([delimiter.unit].intercalate (cells.map (·.text)) ++ (row.lineEnd ++ rest)) false s =
      afterRow delimiter rest
        { s with rows := s.rows ++ [s.row ++ cells.map (·.content)], row := [], cell := [] } := by
  induction cells generalizing s with
  | nil => exact absurd rfl hne
  | cons cell cells ih =>
    obtain ⟨hcell, hcells⟩ := List.forall_mem_cons.mp hunits
    rw [List.length_cons] at hlength
    have hend : ({ s with cell := cell.content } : PreviewScan).endCell =
        { s with row := s.row ++ [cell.content], cell := [] } := by
      rw [PreviewScan.endCell, if_pos (by simp only; omega)]
    cases cells with
    | nil =>
      rw [List.map_singleton, List.intercalate_singleton,
        parseUnits_cell cell hs hcell (endsCell_lineEnd row rest)]
      have hline : parseUnits delimiter (row.lineEnd ++ rest) false
          { s with cell := cell.content } =
            afterRow delimiter rest ({ s with cell := cell.content } : PreviewScan).endRow :=
        parseUnits_lineEnd row hs.quoted
      rw [hline, PreviewScan.endRow, hend]
      rfl
    | cons next cells =>
      have hdelimiter : EndsCell delimiter (delimiter.unit ::
          ([delimiter.unit].intercalate ((next :: cells).map (·.text)) ++ (row.lineEnd ++ rest))) :=
        ⟨_, rfl, .inl rfl⟩
      have hstep : ∀ text, parseUnits delimiter (delimiter.unit :: text) false
          { s with cell := cell.content } = parseUnits delimiter text false
            { s with row := s.row ++ [cell.content], cell := [] } := by
        intro text
        rw [← hend]
        simp [parseUnits, hs.quoted, delimiter_ne_quoteUnit]
      have hnext := ih (s := { s with row := s.row ++ [cell.content], cell := [] })
        (List.cons_ne_nil _ _) ⟨rfl, hs.quoted, hs.truncated⟩
        (by rw [List.length_append, List.length_singleton]; omega) hcells
      rw [List.map_cons, List.map_cons, List.intercalate_cons_cons, ← List.map_cons,
        List.append_assoc, List.append_assoc, List.singleton_append,
        parseUnits_cell cell hs hcell hdelimiter, hstep, hnext, List.map_cons, List.append_assoc]
      rfl

/-- **Written rows are read.** -/
theorem parseUnits_rows (rows : List (WrittenRow delimiter)) (hs : AtCell s) (hrow : s.row = [])
    (hcount : s.rows.length < 100) (hlength : s.rows.length + rows.length ≤ 100)
    (hcells : ∀ row ∈ rows, row.cells ≠ [] ∧ row.cells.length ≤ 30)
    (hunits : ∀ row ∈ rows, ∀ cell ∈ row.cells, cell.content.length ≤ 2000) :
    parseUnits delimiter (rows.flatMap (·.text)) false s =
      { rows := s.rows ++ rows.map (·.contents), truncated := false } := by
  induction rows generalizing s with
  | nil =>
    simp [parseUnits, PreviewScan.finish, hs.cell, hrow, hs.truncated, hs.quoted]
  | cons row rows ih =>
    obtain ⟨⟨hne, hwidth⟩, hcells⟩ := List.forall_mem_cons.mp hcells
    obtain ⟨hunit, hunits⟩ := List.forall_mem_cons.mp hunits
    rw [List.length_cons] at hlength
    rw [List.flatMap_cons, WrittenRow.text, List.append_assoc,
      parseUnits_row row row.cells hne hs (by rw [hrow, List.length_nil]; omega) hunit, hrow,
      List.nil_append, afterRow]
    have hconcat : (s.rows ++ [row.cells.map (·.content)]).length = s.rows.length + 1 := by
      rw [List.length_append, List.length_singleton]
    split
    next hfull =>
      have hnil : rows = [] := List.eq_nil_of_length_eq_zero (by simp only at hfull; omega)
      subst hnil
      simp [hs.truncated, WrittenRow.contents]
    next hmore =>
      rw [hconcat] at hmore
      have hnext := ih
        (s := { s with rows := s.rows ++ [row.cells.map (·.content)], row := [], cell := [] })
        ⟨rfl, hs.quoted, hs.truncated⟩ rfl (by rw [hconcat]; omega) (by rw [hconcat]; omega) hcells
        hunits
      rw [hnext, List.map_cons, List.append_assoc]
      rfl

/-- A written row begins with its first cell. -/
theorem exists_text_eq {row : WrittenRow delimiter} (hne : row.cells ≠ []) :
    ∃ cell rest, row.cells.head? = some cell ∧ row.text = cell.text ++ rest ∧
      EndsCell delimiter rest := by
  rw [WrittenRow.text]
  match hcells : row.cells with
  | [] => exact absurd hcells hne
  | [cell] =>
    refine ⟨cell, row.lineEnd, rfl, ?_, ?_⟩
    · rw [List.map_singleton, List.intercalate_singleton]
    · simpa using endsCell_lineEnd row []
  | cell :: next :: cells =>
    refine ⟨cell, delimiter.unit :: ([delimiter.unit].intercalate
      ((next :: cells).map (·.text)) ++ row.lineEnd), rfl, ?_, ⟨_, rfl, .inl rfl⟩⟩
    rw [List.map_cons, List.map_cons, List.intercalate_cons_cons, ← List.map_cons,
      List.append_assoc, List.append_assoc]
    rfl

/-- Where no mark is written, none is read. -/
theorem dropByteOrderMark_text {table : WrittenTable delimiter} (h : table.InBounds)
    (hmark : ¬table.BeginsWithMark) :
    dropByteOrderMark table.text = table.rows.flatMap (·.text) := by
  rw [WrittenTable.text, dropByteOrderMark]
  cases hbom : table.byteOrderMark with
  | true => rfl
  | false =>
    rw [if_neg Bool.false_ne_true, List.nil_append, if_neg]
    intro hhead
    match hrows : table.rows with
    | [] => exact nomatch hrows ▸ hhead
    | row :: rows =>
      have hrow : row ∈ table.rows := hrows ▸ List.mem_cons_self
      obtain ⟨cell, rest, hcell, htext, u, hu, hends⟩ := exists_text_eq (h.cells row hrow).1
      rw [Option.mem_def] at hu
      rw [hrows, List.flatMap_cons, htext, List.append_assoc, WrittenCell.text] at hhead
      have hu' : u ≠ byteOrderMark := by
        rintro rfl
        rcases hends with hends | hends | hends
        · revert hends
          cases delimiter <;> decide
        · exact absurd hends (by decide)
        · exact absurd hends (by decide)
      cases hquoted : cell.quoted with
      | true =>
        rw [hquoted, if_pos rfl, List.cons_append, List.head?_cons] at hhead
        exact absurd (Option.some.inj hhead) (by decide)
      | false =>
        rw [hquoted, if_neg Bool.false_ne_true] at hhead
        cases hcontent : cell.content with
        | nil =>
          rw [hcontent, List.nil_append, List.head?_append, hu] at hhead
          exact hu' (Option.some.inj hhead)
        | cons v content =>
          rw [hcontent, List.cons_append, List.head?_cons] at hhead
          refine hmark ⟨hbom, row, ?_, cell, hcell, hquoted, ?_⟩
          · rw [hrows]
            rfl
          · rw [hcontent]
            exact hhead

/-- **A written table is read**: the preview of its text is the table. -/
theorem parseDelimitedPreview_text {table : WrittenTable delimiter} (h : table.InBounds)
    (hmark : ¬table.BeginsWithMark) :
    parseDelimitedPreview delimiter table.text =
      { rows := table.contents, truncated := false } := by
  rw [parseDelimitedPreview, dropByteOrderMark_text h hmark,
    parseUnits_rows table.rows ⟨rfl, rfl, rfl⟩ rfl (by decide)
      (by rw [List.length_nil, Nat.zero_add]; exact h.rows) h.cells h.units]
  rfl

end

/-! ## Faithful previews -/

variable (delimiter)

/-- **What a preview promises**: it is the table of every written table in its bounds, it is always
in its bounds, and what it leaves out it says. -/
structure PreviewsFaithfully : Prop where
  /-- A first cell that is bare may not begin with what would be a byte-order mark. -/
  written : ∀ table : WrittenTable delimiter, table.InBounds → ¬table.BeginsWithMark →
    parseDelimitedPreview delimiter table.text = { rows := table.contents, truncated := false }
  bounds : ∀ text, (parseDelimitedPreview delimiter text).InBounds
  complete : ∀ text, ¬(tableOf delimiter text).EndsInEmptyQuotes →
    (parseDelimitedPreview delimiter text).truncated = false →
      (parseDelimitedPreview delimiter text).rows = (tableOf delimiter text).allRows ∧
        (tableOf delimiter text).quoted = false

/-- **Previews are faithful.** -/
theorem previewsFaithfully : PreviewsFaithfully delimiter where
  written _ h hmark := parseDelimitedPreview_text h hmark
  bounds := inBounds_parseDelimitedPreview delimiter
  complete := rows_eq_of_not_truncated delimiter

/-- A table of one bare cell, which begins with U+FEFF. -/
def markTable : WrittenTable .comma where
  rows := [⟨[⟨[0xfeff], false, fun _ u hu ↦ List.mem_singleton.mp hu ▸ by decide⟩], false⟩]
  byteOrderMark := false

/-- **A preview is not its table** where the text of the table begins with U+FEFF, and it does not
say that it leaves out a last row of an empty cell in quotes. -/
theorem not_previewsFaithfully_everywhere :
    (markTable.InBounds ∧ parseDelimitedPreview .comma markTable.text ≠
      { rows := markTable.contents, truncated := false }) ∧
    (parseDelimitedPreview .comma (unitsOf "\"\"") = { rows := [], truncated := false } ∧
      (tableOf .comma (unitsOf "\"\"")).allRows = [[[]]]) := by
  refine ⟨⟨⟨by decide, by decide, by decide⟩, by decide⟩, by decide, by decide⟩

end Awen.DelimitedPreview
