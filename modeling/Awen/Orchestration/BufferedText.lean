import Awen.Composer.ContextReferences
import Awen.Library.TextLines

/-!
# Buffered assistant text

Assistant text comes in deltas. It is buffered for each message, and delivered at the boundaries
that `splitBufferedAssistantText` finds: behind a blank line, behind a fenced code block, before a
list item, always outside an open fence. Where no boundary comes, the buffer is flushed as it is
once it is longer than `maxBufferedAssistantChars`. Strings are lists of UTF-16 code units.
-/

namespace Awen.Orchestration

open Composer (trim isDigitUnit)

/-! ## Lines of Markdown -/

def maxBufferedAssistantChars : ℕ := 24000

def minAssistantDeliveryIntervalMs : ℤ := 400

def hasRenderableAssistantText (text : CodeUnits) : Bool := decide (0 < (trim text).length)

/-- `\n` -/
def lineBreak : UInt16 := 0xa

/-- A space or a tab. -/
def isBlankUnit (u : UInt16) : Bool := u == 0x20 || u == 0x9

/-- A fence: its run of backticks or tildes, and the spaces before it. -/
structure Fence where
  marker : CodeUnits
  indent : ℕ
  deriving DecidableEq

/-- ``/^( *)(`{3,}|~{3,})/`` -/
def markdownFence (line : CodeUnits) : Option Fence :=
  match line.dropWhile (· == 0x20) with
  | [] => none
  | u :: rest =>
    let marker := u :: rest.takeWhile (· == u)
    if (u = 0x60 ∨ u = 0x7e) ∧ 3 ≤ marker.length then
      some ⟨marker, (line.takeWhile (· == 0x20)).length⟩
    else none

/-- `/^[ \t]*$/` -/
def isBlankLine (line : CodeUnits) : Bool := line.all isBlankUnit

/-- One of some code units, and a space or a tab behind it. -/
def isMarkerAnd (p : UInt16 → Bool) : CodeUnits → Bool
  | u :: v :: _ => p u && isBlankUnit v
  | _ => false

/-- `/^[ \t]*(?:[-*+]|\d{1,9}[.)])[ \t]/` -/
def isListItemStart (line : CodeUnits) : Bool :=
  let rest := line.dropWhile isBlankUnit
  let digits := rest.takeWhile isDigitUnit
  isMarkerAnd (fun u ↦ u == 0x2d || u == 0x2a || u == 0x2b) rest ||
    (decide (1 ≤ digits.length ∧ digits.length ≤ 9) &&
      isMarkerAnd (fun u ↦ u == 0x2e || u == 0x29) (rest.dropWhile isDigitUnit))

/-- `line.replace(/[ \t\r]+$/, "")` -/
def trimLine (line : CodeUnits) : CodeUnits := line.rdropWhile fun u ↦ isBlankUnit u || u == 0xd

/-- A closing fence has the character of its opener, at least as often, is indented by at most three
spaces more, and carries no info string. -/
def Fence.closes (fence openFence : Fence) (line : CodeUnits) : Bool :=
  fence.marker.head? == openFence.marker.head? &&
    decide (openFence.marker.length ≤ fence.marker.length) &&
    decide (fence.indent ≤ openFence.indent + 3) &&
    decide (line.length = fence.indent + fence.marker.length)

/-! ## Where a text may be split -/

/-- What the loop over the lines of a text keeps. -/
structure LineScan where
  openFence : Option Fence := none
  boundary : Option ℕ := none
  lineStart : ℕ := 0

/-- The start of a list item is a boundary, also on a line that has not ended. -/
def LineScan.listItem (scan : LineScan) (line : CodeUnits) : LineScan :=
  if scan.openFence = none ∧ 0 < scan.lineStart ∧ isListItemStart line then
    { scan with boundary := some scan.lineStart }
  else scan

/-- What a terminated line does, once its white space at the end is gone. -/
def LineScan.terminatedLine (scan : LineScan) (line : CodeUnits) (newline : ℕ) : LineScan :=
  match markdownFence line, scan.openFence with
  | some fence, none => { scan with openFence := some fence }
  | some fence, some openFence =>
    if fence.closes openFence line then
      { scan with openFence := none, boundary := some (newline + 1) }
    else scan
  | none, openFence =>
    if openFence = none ∧ isBlankLine line ∧ 0 < scan.lineStart then
      { scan with boundary := some (newline + 1) }
    else scan

/-- One turn of the loop on a line that has ended. -/
def LineScan.next (scan : LineScan) (line : CodeUnits) : LineScan :=
  let newline := scan.lineStart + line.length
  { (scan.listItem (trimLine line)).terminatedLine (trimLine line) newline with
    lineStart := newline + 1 }

def scanBufferedAssistantText (text : CodeUnits) : LineScan :=
  (foldLines lineBreak LineScan.next {} text).listItem (trimLine (partialLine lineBreak text))

structure SplitText where
  ready : CodeUnits
  rest : CodeUnits
  deriving DecidableEq

def splitBufferedAssistantText (text : CodeUnits) : SplitText :=
  match (scanBufferedAssistantText text).boundary with
  | none => ⟨[], text⟩
  | some boundary => ⟨text.take boundary, text.drop boundary⟩

/-! ## Open fences -/

/-- What a terminated line does to the open fence. -/
def fenceStep (openFence : Option Fence) (line : CodeUnits) : Option Fence :=
  match markdownFence (trimLine line), openFence with
  | some fence, none => some fence
  | some fence, some openFence =>
    if fence.closes openFence (trimLine line) then none else some openFence
  | none, openFence => openFence

/-- The fence that is open at the end of a text. -/
def openFenceOf (text : CodeUnits) : Option Fence := foldLines lineBreak fenceStep none text

/-- A position of a text is inside an open fenced code block. -/
def InsideFence (text : CodeUnits) (position : ℕ) : Prop :=
  (openFenceOf (text.take position)).isSome

instance (text : CodeUnits) (position : ℕ) : Decidable (InsideFence text position) :=
  inferInstanceAs (Decidable (_ = true))

/-- A line that is no fence leaves the open fence as it is. -/
theorem fenceStep_of_none {line : CodeUnits} (h : markdownFence (trimLine line) = none)
    (openFence : Option Fence) : fenceStep openFence line = openFence := by
  simp only [fenceStep, h]

theorem fenceStep_of_closes {line : CodeUnits} {fence openFence : Fence}
    (h : markdownFence (trimLine line) = some fence)
    (hcloses : fence.closes openFence (trimLine line) = true) :
    fenceStep (some openFence) line = none := by
  simp only [fenceStep, h, hcloses, if_true]

@[simp] theorem LineScan.openFence_listItem (scan : LineScan) (line : CodeUnits) :
    (scan.listItem line).openFence = scan.openFence := by
  rw [listItem]
  split <;> rfl

theorem LineScan.openFence_terminatedLine (scan : LineScan) (line : CodeUnits) (newline : ℕ) :
    (scan.terminatedLine (trimLine line) newline).openFence = fenceStep scan.openFence line := by
  unfold terminatedLine
  split
  next hfence hopen => simp only [fenceStep, hfence, hopen]
  next fence openFence hfence hopen =>
    simp only [fenceStep, hfence, hopen]
    split
    · rfl
    · exact hopen
  next hfence =>
    rw [fenceStep_of_none hfence]
    split <;> rfl

@[simp] theorem LineScan.lineStart_next (scan : LineScan) (line : CodeUnits) :
    (scan.next line).lineStart = scan.lineStart + line.length + 1 := rfl

/-- **The loop keeps the open fence.** -/
theorem LineScan.openFence_next (scan : LineScan) (line : CodeUnits) :
    (scan.next line).openFence = fenceStep scan.openFence line := by
  rw [← openFence_listItem scan (trimLine line)]
  exact openFence_terminatedLine _ line _

/-- A boundary that the lookahead finds is at the start of the line, and outside a fence. -/
theorem LineScan.boundary_listItem {scan : LineScan} {line : CodeUnits} {b : ℕ}
    (h : (scan.listItem line).boundary = some b) :
    scan.boundary = some b ∨ (b = scan.lineStart ∧ scan.openFence = none) := by
  rw [listItem] at h
  split at h
  next hitem => exact .inr ⟨(Option.some.inj h).symm, hitem.1⟩
  next => exact .inl h

/-- A boundary that a terminated line brings is at its end, and outside a fence. -/
theorem LineScan.boundary_terminatedLine {scan : LineScan} {line : CodeUnits} {newline b : ℕ}
    (h : (scan.terminatedLine (trimLine line) newline).boundary = some b) :
    scan.boundary = some b ∨ (b = newline + 1 ∧ fenceStep scan.openFence line = none) := by
  unfold terminatedLine at h
  split at h
  · exact .inl h
  next fence openFence hfence hopen =>
    split at h
    next hcloses =>
      exact .inr ⟨(Option.some.inj h).symm, hopen ▸ fenceStep_of_closes hfence hcloses⟩
    next => exact .inl h
  next hfence =>
    split at h
    next hblank => exact .inr ⟨(Option.some.inj h).symm, fenceStep_of_none hfence _ ▸ hblank.1⟩
    next => exact .inl h

/-- There is no lookahead inside a fence. -/
theorem LineScan.boundary_listItem_of_open {scan : LineScan} (hopen : scan.openFence ≠ none)
    (line : CodeUnits) : (scan.listItem line).boundary = scan.boundary := by
  rw [listItem, if_neg fun h ↦ hopen h.1]

/-- A line that leaves a fence open brings no boundary. -/
theorem LineScan.boundary_next_of_open {scan : LineScan} {line : CodeUnits}
    (hopen : scan.openFence ≠ none) (hnext : (scan.next line).openFence ≠ none)
    (hboundary : scan.boundary = none) : (scan.next line).boundary = none := by
  refine Option.eq_none_iff_forall_not_mem.mpr fun b hb ↦ ?_
  obtain hb | ⟨-, hclosed⟩ := boundary_terminatedLine hb
  · rw [boundary_listItem_of_open hopen, hboundary] at hb
    exact nomatch hb
  · rw [openFence_listItem, ← openFence_next] at hclosed
    exact hnext hclosed

/-! ## The split -/

/-- The loop has read these lines: it has their open fence, and its boundary is at the end of some
of them, where no fence is open. -/
structure LineScan.Reads (scan : LineScan) (lines : List CodeUnits) : Prop where
  openFence_eq : scan.openFence = lines.foldl fenceStep none
  lineStart_eq : scan.lineStart = (unlines lineBreak lines).length
  boundary_eq : ∀ b, scan.boundary = some b → ∃ before, before <+: lines ∧
    b = (unlines lineBreak before).length ∧ before.foldl fenceStep none = none

namespace LineScan.Reads

variable {scan : LineScan} {lines : List CodeUnits}

theorem init : ({} : LineScan).Reads [] where
  openFence_eq := rfl
  lineStart_eq := rfl
  boundary_eq _ h := nomatch h

theorem listItem (h : scan.Reads lines) (line : CodeUnits) : (scan.listItem line).Reads lines where
  openFence_eq := (openFence_listItem scan line).trans h.openFence_eq
  lineStart_eq := by
    rw [LineScan.listItem, ← h.lineStart_eq]
    split <;> rfl
  boundary_eq b hb := by
    obtain hb | ⟨rfl, hopen⟩ := boundary_listItem hb
    · exact h.boundary_eq b hb
    · exact ⟨lines, List.prefix_rfl, h.lineStart_eq, h.openFence_eq ▸ hopen⟩

theorem next (h : scan.Reads lines) (line : CodeUnits) :
    (scan.next line).Reads (lines ++ [line]) where
  openFence_eq := by
    rw [openFence_next, h.openFence_eq, List.foldl_append]
    rfl
  lineStart_eq := by
    rw [lineStart_next, h.lineStart_eq, unlines_append, List.length_append, unlines_cons,
      List.length_append]
    rfl
  boundary_eq b hb := by
    obtain hb | ⟨rfl, hopen⟩ := boundary_terminatedLine hb
    · obtain ⟨before, hbefore, hb⟩ := (h.listItem _).boundary_eq b hb
      exact ⟨before, hbefore.trans (List.prefix_append _ _), hb⟩
    · refine ⟨lines ++ [line], List.prefix_rfl, ?_, ?_⟩
      · rw [h.lineStart_eq, unlines_append, List.length_append, unlines_cons, List.length_append]
        rfl
      · rw [List.foldl_append, ← h.openFence_eq]
        rwa [openFence_listItem] at hopen

theorem foldl (more : List CodeUnits) (h : scan.Reads lines) :
    (more.foldl LineScan.next scan).Reads (lines ++ more) := by
  induction more generalizing scan lines with
  | nil => rwa [List.append_nil]
  | cons line more ih => simpa using ih (h.next line)

end LineScan.Reads

theorem scanBufferedAssistantText_reads (text : CodeUnits) :
    (scanBufferedAssistantText text).Reads (terminatedLines lineBreak text) :=
  (LineScan.Reads.init.foldl _).listItem _

/-- **The split loses nothing.** -/
theorem ready_append_rest (text : CodeUnits) :
    (splitBufferedAssistantText text).ready ++ (splitBufferedAssistantText text).rest = text := by
  rw [splitBufferedAssistantText]
  split
  · rfl
  · exact List.take_append_drop _ _

/-- **The split is at a line start outside open fences.** -/
theorem ready_spec (text : CodeUnits) :
    openFenceOf (splitBufferedAssistantText text).ready = none ∧
      partialLine lineBreak (splitBufferedAssistantText text).ready = [] := by
  rw [splitBufferedAssistantText]
  split
  · exact ⟨rfl, rfl⟩
  next b hb =>
    obtain ⟨before, ⟨after, hafter⟩, rfl, hopen⟩ :=
      (scanBufferedAssistantText_reads text).boundary_eq b hb
    have hbefore : ∀ line ∈ before, lineBreak ∉ line := fun line hline ↦
      not_mem_of_mem_terminatedLines lineBreak (hafter ▸ List.mem_append_left after hline)
    have htake : text.take (unlines lineBreak before).length = unlines lineBreak before := by
      conv_lhs => rw [← unlines_terminatedLines lineBreak text, ← hafter, unlines_append,
        List.append_assoc]
      exact List.take_left
    dsimp only
    rw [htake, openFenceOf, foldLines, terminatedLines_unlines lineBreak hbefore]
    exact ⟨hopen, partialLine_unlines lineBreak hbefore⟩

end Awen.Orchestration
