import Mathlib.Data.List.Infix

/-!
# The lines of a text

A text is cut into lines behind each separator. `terminatedLines` are the lines whose separator has
come, and `partialLine` is what stands behind the last of them. The texts grow at their ends:
`terminatedLines_append` says what more text does to the lines, and `foldLines` reads the terminated
lines one after the other.
-/

namespace Awen

variable {α σ : Type*} (separator : α)

/-- The text of terminated lines. -/
def unlines (lines : List (List α)) : List α := lines.flatMap (· ++ [separator])

@[simp] theorem unlines_nil : unlines separator ([] : List (List α)) = [] := rfl

@[simp] theorem unlines_cons (line : List α) (lines : List (List α)) :
    unlines separator (line :: lines) = line ++ separator :: unlines separator lines := by
  rw [unlines, List.flatMap_cons, List.append_assoc]
  rfl

@[simp] theorem unlines_append (lines more : List (List α)) :
    unlines separator (lines ++ more) = unlines separator lines ++ unlines separator more :=
  List.flatMap_append

/-- The first line goes on where the text before stops. -/
def continueLine (start : List α) : List (List α) → List (List α)
  | [] => []
  | line :: lines => (start ++ line) :: lines

@[simp] theorem continueLine_nil (lines : List (List α)) : continueLine [] lines = lines := by
  cases lines <;> rfl

variable [DecidableEq α]

/-- The lines whose separator has come, without it. -/
def terminatedLines (text : List α) : List (List α) := (text.splitOn separator).dropLast

/-- What stands behind the last separator. -/
def partialLine (text : List α) : List α := (text.splitOn separator).getLastD []

/-- Read the terminated lines one after the other. -/
def foldLines (step : σ → List α → σ) (s : σ) (text : List α) : σ :=
  (terminatedLines separator text).foldl step s

theorem splitOn_eq (text : List α) :
    text.splitOn separator = terminatedLines separator text ++ [partialLine separator text] := by
  rw [terminatedLines, partialLine, List.getLastD_eq_getLast?,
    List.getLast?_eq_some_getLast (List.splitOn_ne_nil separator text)]
  exact (List.dropLast_append_getLast (List.splitOn_ne_nil separator text)).symm

variable {separator}

/-- **The lines of a text are determined by their text.** -/
theorem splitOn_unlines_append {lines : List (List α)} (h : ∀ line ∈ lines, separator ∉ line)
    {rest : List α} (hrest : separator ∉ rest) :
    (unlines separator lines ++ rest).splitOn separator = lines ++ [rest] := by
  induction lines with
  | nil => exact List.splitOn_eq_singleton hrest
  | cons line lines ih =>
    obtain ⟨hline, hlines⟩ := List.forall_mem_cons.mp h
    rw [unlines_cons, List.append_assoc, List.cons_append, List.splitOn_append_cons_self,
      List.splitOn_eq_singleton hline, ih hlines]
    rfl

theorem terminatedLines_unlines_append {lines : List (List α)}
    (h : ∀ line ∈ lines, separator ∉ line) {rest : List α} (hrest : separator ∉ rest) :
    terminatedLines separator (unlines separator lines ++ rest) = lines := by
  rw [terminatedLines, splitOn_unlines_append h hrest, List.dropLast_concat]

theorem partialLine_unlines_append {lines : List (List α)}
    (h : ∀ line ∈ lines, separator ∉ line) {rest : List α} (hrest : separator ∉ rest) :
    partialLine separator (unlines separator lines ++ rest) = rest := by
  rw [partialLine, splitOn_unlines_append h hrest, List.getLastD_concat]

variable (separator)

/-- **A text is its lines**, and no line has a separator in it. -/
theorem exists_lines (text : List α) : ∃ lines rest, (∀ line ∈ lines, separator ∉ line) ∧
    separator ∉ rest ∧ text = unlines separator lines ++ rest := by
  induction text with
  | nil => exact ⟨[], [], by simp⟩
  | cons a text ih =>
    obtain ⟨lines, rest, hlines, hrest, rfl⟩ := ih
    by_cases ha : a = separator
    · exact ⟨[] :: lines, rest, List.forall_mem_cons.mpr ⟨List.not_mem_nil, hlines⟩, hrest, by
        rw [ha, unlines_cons, List.nil_append, List.cons_append]⟩
    · have hne : separator ≠ a := fun h ↦ ha h.symm
      cases lines with
      | nil => exact ⟨[], a :: rest, by simp, by simp [hne, hrest], rfl⟩
      | cons line lines =>
        obtain ⟨hline, hlines⟩ := List.forall_mem_cons.mp hlines
        refine ⟨(a :: line) :: lines, rest, ?_, hrest, ?_⟩
        · exact List.forall_mem_cons.mpr ⟨by simp [hne, hline], hlines⟩
        · rw [unlines_cons, unlines_cons, List.cons_append, List.cons_append]

theorem not_mem_of_mem_terminatedLines {text line : List α}
    (h : line ∈ terminatedLines separator text) : separator ∉ line := by
  obtain ⟨lines, rest, hlines, hrest, rfl⟩ := exists_lines separator text
  rw [terminatedLines_unlines_append hlines hrest] at h
  exact hlines line h

theorem not_mem_partialLine (text : List α) : separator ∉ partialLine separator text := by
  obtain ⟨lines, rest, hlines, hrest, rfl⟩ := exists_lines separator text
  rwa [partialLine_unlines_append hlines hrest]

theorem unlines_terminatedLines (text : List α) :
    unlines separator (terminatedLines separator text) ++ partialLine separator text = text := by
  obtain ⟨lines, rest, hlines, hrest, rfl⟩ := exists_lines separator text
  rw [terminatedLines_unlines_append hlines hrest, partialLine_unlines_append hlines hrest]

/-- Terminated lines behind which nothing stands. -/
theorem terminatedLines_unlines {lines : List (List α)} (h : ∀ line ∈ lines, separator ∉ line) :
    terminatedLines separator (unlines separator lines) = lines := by
  simpa using terminatedLines_unlines_append h (List.not_mem_nil (a := separator))

theorem partialLine_unlines {lines : List (List α)} (h : ∀ line ∈ lines, separator ∉ line) :
    partialLine separator (unlines separator lines) = [] := by
  simpa using partialLine_unlines_append h (List.not_mem_nil (a := separator))

/-! ## A text that grows -/

/-- **The lines of a text and of what comes behind it.** -/
theorem terminatedLines_append (text more : List α) :
    terminatedLines separator (text ++ more) = terminatedLines separator text ++
      continueLine (partialLine separator text) (terminatedLines separator more) := by
  obtain ⟨lines, start, hlines, hstart, rfl⟩ := exists_lines separator text
  obtain ⟨added, rest, hadded, hrest, rfl⟩ := exists_lines separator more
  rw [terminatedLines_unlines_append hlines hstart, partialLine_unlines_append hlines hstart,
    terminatedLines_unlines_append hadded hrest]
  cases added with
  | nil =>
    rw [unlines_nil, List.nil_append, List.append_assoc, continueLine, List.append_nil]
    exact terminatedLines_unlines_append hlines (by simp [hstart, hrest])
  | cons line added =>
    obtain ⟨hline, hadded⟩ := List.forall_mem_cons.mp hadded
    have htext : unlines separator lines ++ start ++ (unlines separator (line :: added) ++ rest) =
        unlines separator (lines ++ (start ++ line) :: added) ++ rest := by
      simp only [unlines_append, unlines_cons, List.append_assoc, List.cons_append]
    rw [htext, continueLine]
    refine terminatedLines_unlines_append (fun l hl ↦ ?_) hrest
    obtain hl | hl := List.mem_append.mp hl
    · exact hlines l hl
    · obtain rfl | hl := List.mem_cons.mp hl
      · simp [hstart, hline]
      · exact hadded l hl

/-- Behind the end of a line a text is read from its beginning. -/
theorem partialLine_append {text : List α} (h : partialLine separator text = []) (more : List α) :
    partialLine separator (text ++ more) = partialLine separator more := by
  obtain ⟨lines, start, hlines, hstart, rfl⟩ := exists_lines separator text
  rw [partialLine_unlines_append hlines hstart] at h
  obtain ⟨added, rest, hadded, hrest, rfl⟩ := exists_lines separator more
  rw [h, List.append_nil, ← List.append_assoc, ← unlines_append,
    partialLine_unlines_append (by simpa [or_imp, forall_and] using ⟨hlines, hadded⟩) hrest,
    partialLine_unlines_append hadded hrest]

theorem terminatedLines_isPrefix {text whole : List α} (h : text <+: whole) :
    terminatedLines separator text <+: terminatedLines separator whole := by
  obtain ⟨more, rfl⟩ := h
  rw [terminatedLines_append]
  exact List.prefix_append _ _

/-- Behind the end of a line the reading goes on with the lines of what comes. -/
theorem foldLines_append (step : σ → List α → σ) (s : σ) {text : List α}
    (h : partialLine separator text = []) (more : List α) :
    foldLines separator step s (text ++ more) =
      foldLines separator step (foldLines separator step s text) more := by
  rw [foldLines, terminatedLines_append, h, continueLine_nil, List.foldl_append, foldLines,
    foldLines]

end Awen
