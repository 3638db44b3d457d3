import Awen.Terminal.HistoryLimits
import Awen.Terminal.HistorySanitizer

/-!
# The history of a terminal session

The output of a process goes through the sanitizer and then into the bounded history. What a history
holds is told by the whole output alone, in whatever chunks it came and whenever it was read
(`history_of_chunks`).
-/

namespace Awen.Terminal

open BoundedTerminalHistory

/-- The part of a terminal session that its output goes into. -/
structure SessionHistory where
  history : BoundedTerminalHistory
  pendingHistoryControlSequence : CodeUnits := []
  deriving DecidableEq

namespace SessionHistory

/-- A session that begins with a text. -/
def start (maxLines maxBytes : ℕ) (initial : CodeUnits) : SessionHistory where
  history := create maxLines initial maxBytes

/-- What `drainProcessEvents` does with a chunk of output. -/
def output (session : SessionHistory) (data : CodeUnits) : SessionHistory :=
  let sanitized := sanitizeTerminalHistoryChunk session.pendingHistoryControlSequence data
  { history :=
      if 0 < sanitized.visibleText.length then session.history.append sanitized.visibleText
      else session.history
    pendingHistoryControlSequence := sanitized.pendingControlSequence }

/-- Ask for the text of the history. -/
def read (session : SessionHistory) : SessionHistory :=
  { session with history := session.history.rememberValue }

/-- What happens to the history of a session while its process runs. -/
inductive Step
  | output (data : CodeUnits)
  | read

def step (session : SessionHistory) : Step → SessionHistory
  | .output data => session.output data
  | .read => session.read

/-- All the output of some steps. -/
def outputs (steps : List Step) : CodeUnits :=
  steps.flatMap fun
    | .output data => data
    | .read => []

/-- The longest end of a text, from a code point on, within the limits. -/
structure IsLongestEnd (maxLines maxBytes : ℕ) (text value : CodeUnits) : Prop where
  suffix : codePoints value <:+ codePoints text
  lines_le : lineCount (codePoints value) ≤ maxLines
  bytes_le : byteLength value ≤ maxBytes
  longest : ∀ ps, ps <:+ codePoints text → lineCount ps ≤ maxLines → utf8Length ps ≤ maxBytes →
    ps.length ≤ (codePoints value).length

end SessionHistory

namespace BoundedTerminalHistory.Holds

variable {history : BoundedTerminalHistory} {maxLines maxBytes : ℕ} {whole : CodeUnits}

/-- The text of a history. -/
theorem codePoints_value (h : history.Holds maxLines maxBytes whole) :
    codePoints history.value = longestSuffix (Fits maxLines maxBytes) (codePoints whole) := by
  rw [h.value_eq]
  exact h.points_eq

theorem isLongestEnd (h : history.Holds maxLines maxBytes whole) :
    SessionHistory.IsLongestEnd maxLines maxBytes whole history.value where
  suffix := by
    rw [h.codePoints_value]
    exact longestSuffix_suffix _
  lines_le := by
    rw [h.codePoints_value]
    exact (longestSuffix_spec fits_nil _).1
  bytes_le := by
    rw [← utf8Length_codePoints, h.codePoints_value]
    exact (longestSuffix_spec fits_nil _).2
  longest ps hsuffix hlines hbytes := by
    rw [h.codePoints_value]
    exact (suffix_longestSuffix hsuffix ⟨hlines, hbytes⟩).length_le

end BoundedTerminalHistory.Holds

namespace SessionHistory

variable {maxLines maxBytes : ℕ}

theorem output_eq (session : SessionHistory) (data : CodeUnits) :
    session.output data =
      ⟨session.history.append
        (sequenceScanner.scan (session.pendingHistoryControlSequence ++ data)).1,
        (sequenceScanner.scan (session.pendingHistoryControlSequence ++ data)).2⟩ := by
  have hvisible (visible : CodeUnits) :
      (if 0 < visible.length then session.history.append visible else session.history) =
        session.history.append visible := by
    cases visible with
    | nil => rfl
    | cons first rest => exact if_pos (Nat.succ_pos _)
  exact congrArg (SessionHistory.mk · _) (hvisible _)

/-- **What a session holds of its output**: the end of what the sanitizer leaves, and the sequence
that the sanitizer waits with. -/
structure HoldsOutput (session : SessionHistory) (maxLines maxBytes : ℕ) (whole : CodeUnits) :
    Prop where
  holds : session.history.Holds maxLines maxBytes (sequenceScanner.scan whole).1
  pending_eq : session.pendingHistoryControlSequence = (sequenceScanner.scan whole).2

theorem holdsOutput_start (maxLines maxBytes : ℕ) :
    HoldsOutput (start maxLines maxBytes []) maxLines maxBytes [] := by
  refine ⟨?_, ?_⟩
  · rw [Scanner.scan_nil]
    exact holds_nil maxLines maxBytes
  · rw [Scanner.scan_nil]
    rfl

theorem HoldsOutput.output {session : SessionHistory} {whole : CodeUnits}
    (h : session.HoldsOutput maxLines maxBytes whole) (hlines : 1 ≤ maxLines)
    (hbytes : 1 ≤ maxBytes) (data : CodeUnits) :
    (session.output data).HoldsOutput maxLines maxBytes (whole ++ data) := by
  have hscan := Scanner.scan_append (S := sequenceScanner) whole data
  rw [← h.pending_eq] at hscan
  rw [output_eq]
  refine ⟨?_, ?_⟩
  · rw [hscan]
    exact h.holds.append hlines hbytes _
  · rw [hscan]

/-- Along a run, a session holds all of the output so far. -/
theorem holdsOutput_foldl (hlines : 1 ≤ maxLines) (hbytes : 1 ≤ maxBytes) (steps : List Step)
    {session : SessionHistory} {whole : CodeUnits}
    (h : session.HoldsOutput maxLines maxBytes whole) :
    (steps.foldl step session).HoldsOutput maxLines maxBytes (whole ++ outputs steps) := by
  induction steps generalizing session whole with
  | nil =>
    rw [outputs, List.flatMap_nil, List.append_nil]
    exact h
  | cons next steps ih =>
    cases next with
    | output data =>
      have hrest := ih (h.output hlines hbytes data)
      rw [List.append_assoc] at hrest
      exact hrest
    | read => exact ih ⟨h.holds.rememberValue, h.pending_eq⟩

/-- **The history does not depend on how the output is chunked.** After any chunks, and any reads in
between, its text and the sequence that the sanitizer waits with are those of the whole output at
once, and the text is the longest end of the sanitized output within the limits. -/
theorem history_of_chunks (hlines : 1 ≤ maxLines) (hbytes : 1 ≤ maxBytes) (steps : List Step) :
    let session := steps.foldl step (start maxLines maxBytes [])
    let whole := (start maxLines maxBytes []).output (outputs steps)
    session.history.value = whole.history.value ∧
      session.pendingHistoryControlSequence = whole.pendingHistoryControlSequence ∧
      IsLongestEnd maxLines maxBytes
        (sanitizeTerminalHistoryChunk [] (outputs steps)).visibleText session.history.value := by
  have hsession := holdsOutput_foldl hlines hbytes steps (holdsOutput_start maxLines maxBytes)
  have hwhole := (holdsOutput_start maxLines maxBytes).output hlines hbytes (outputs steps)
  rw [List.nil_append] at hsession hwhole
  refine ⟨codePoints_injective ?_, ?_, hsession.holds.isLongestEnd⟩
  · rw [hsession.holds.codePoints_value, hwhole.holds.codePoints_value]
  · rw [hsession.pending_eq, hwhole.pending_eq]

/-- A smile that comes in two halves, a query that comes in two halves, and a limit of one line. -/
theorem history_of_chunks_halves :
    let steps : List Step := [.output [0x61, 0x0a, 0x62, 0xd83d], .read,
      .output [0xde00, 0x1b, 0x5b], .output [0x36, 0x6e, 0x63, 0x1b]]
    (steps.foldl step (start 1 6 [])).history.value = [0x62, 0xd83d, 0xde00, 0x63] ∧
      (steps.foldl step (start 1 6 [])).history.value =
        ((start 1 6 []).output (outputs steps)).history.value ∧
      (steps.foldl step (start 1 6 [])).pendingHistoryControlSequence = [0x1b] :=
  have h := @history_of_chunks 1 6 (by decide) (by decide)
    [.output [0x61, 0x0a, 0x62, 0xd83d], .read, .output [0xde00, 0x1b, 0x5b],
      .output [0x36, 0x6e, 0x63, 0x1b]]
  ⟨by decide +kernel, h.1, h.2.1.trans (by decide +kernel)⟩

end SessionHistory

end Awen.Terminal
