import Awen.Library.TextDecoder

/-!
# Capturing the output of git

`collectOutput` of `GitVcsDriverCore.ts`: it decodes the chunks of a stream up to a limit of bytes,
and hands the lines of the text to a callback. Past the limit it fails, or it truncates the text and
may go on with the lines.
-/

namespace Awen.Vcs

/-! ## Errors -/

structure ExecuteGitInput where
  operation : String
  cwd : String
  args : List String
  deriving DecidableEq

structure GitCommandError where
  operation : String
  command : String
  cwd : String
  argumentCount : ℕ
  detail : String
  outputLength : Option ℕ := none
  deriving DecidableEq

/-- `gitCommandContext` with a detail. -/
def gitCommandError (input : ExecuteGitInput) (detail : String) (outputLength : Option ℕ) :
    GitCommandError where
  operation := input.operation
  command := "git"
  cwd := input.cwd
  argumentCount := input.args.length
  detail := detail
  outputLength := outputLength

/-! ## Lines -/

def carriageReturn : UInt16 := 0xd

def lineFeed : UInt16 := 0xa

/-- `OUTPUT_LINE_SEPARATOR.exec`: the index and the length of the first match of `/\r\n|\r|\n/`. -/
def execSeparator : CodeUnits → Option (ℕ × ℕ)
  | [] => none
  | u :: rest =>
    if u = carriageReturn then some (0, if rest.head? = some lineFeed then 2 else 1)
    else if u = lineFeed then some (0, 1)
    else (execSeparator rest).map fun found ↦ (found.1 + 1, found.2)

theorem execSeparator_bound {text : CodeUnits} {found : ℕ × ℕ}
    (h : execSeparator text = some found) : 0 < found.1 + found.2 ∧ text ≠ [] := by
  induction text generalizing found with
  | nil => exact nomatch h
  | cons u rest ih =>
    refine ⟨?_, List.cons_ne_nil u rest⟩
    rw [execSeparator] at h
    split_ifs at h
    · cases h
      decide
    · cases h
      decide
    · cases h
      decide
    · obtain ⟨inner, hinner, rfl⟩ := Option.map_eq_some_iff.mp h
      have := (ih hinner).1
      dsimp only
      omega

theorem length_sub_lt_of_execSeparator {text : CodeUnits} {found : ℕ × ℕ}
    (h : execSeparator text = some found) :
    text.length - (found.1 + found.2) < text.length := by
  obtain ⟨hpos, hne⟩ := execSeparator_bound h
  have := List.length_pos_iff.mpr hne
  omega

/-- The lines of a buffer that its separators end, and what stands behind them: the loop of
`emitCompleteLines`. -/
def completeLines (lineBuffer : CodeUnits) : List CodeUnits × CodeUnits :=
  match h : execSeparator lineBuffer with
  | none => ([], lineBuffer)
  | some separator =>
    have := length_sub_lt_of_execSeparator h
    let line := lineBuffer.take separator.1
    let later := completeLines (lineBuffer.drop (separator.1 + separator.2))
    (if line.length > 0 then line :: later.1 else later.1, later.2)
termination_by lineBuffer.length

/-! ## Capturing -/

structure CaptureOptions where
  maxOutputBytes : ℕ
  appendTruncationMarker : Bool
  /-- There is a callback for lines. -/
  onLine : Bool
  keepLineCallbacksAfterTruncation : Bool
  deriving DecidableEq

/-- Lines are decoded on their own. -/
def CaptureOptions.decodesLines (options : CaptureOptions) : Bool :=
  options.keepLineCallbacksAfterTruncation && options.onLine

def maxPendingLineBytes : ℕ := 64 * 1024

/-- The variables of `collectOutput`, and the lines that its callback has been given. -/
structure OutputCapture where
  decoder : TextDecoder := {}
  lineDecoder : Option TextDecoder
  bytes : ℕ := 0
  text : CodeUnits := []
  lineBuffer : CodeUnits := []
  truncated : Bool := false
  lines : List CodeUnits := []
  deriving DecidableEq

structure CollectedOutput where
  text : CodeUnits
  truncated : Bool
  /-- The lines that the callback has been given. -/
  lines : List CodeUnits
  deriving DecidableEq

variable (input : ExecuteGitInput) (options : CaptureOptions)

def OutputCapture.start : OutputCapture where
  lineDecoder := if options.decodesLines then some {} else none

/-- `onLine(line)` for some lines. -/
def OutputCapture.handLines (s : OutputCapture) (lines : List CodeUnits) : OutputCapture :=
  if options.onLine then { s with lines := s.lines ++ lines } else s

def OutputCapture.emitCompleteLines (s : OutputCapture) (flush : Bool) : OutputCapture :=
  let complete := completeLines s.lineBuffer
  let emitted := { s with lineBuffer := complete.2 }.handLines options complete.1
  if flush then
    let trailing := emitted.lineBuffer
    let flushed := { emitted with lineBuffer := [] }
    if trailing.length > 0 then flushed.handLines options [trailing] else flushed
  else emitted

def OutputCapture.processChunk (s : OutputCapture) (chunk : List ℕ) :
    Except GitCommandError OutputCapture :=
  if options.appendTruncationMarker && s.truncated then
    match s.lineDecoder with
    | some lineDecoder =>
      let decoded := lineDecoder.decode chunk true
      let lineBuffer := s.lineBuffer ++ decoded.1
      let emitted := { s with lineDecoder := some decoded.2, lineBuffer }.emitCompleteLines options
        false
      .ok (if emitted.lineBuffer.length > maxPendingLineBytes then { emitted with lineBuffer := [] }
        else emitted)
    | none => .ok s
  else
    let nextBytes := s.bytes + chunk.length
    if !options.appendTruncationMarker && decide (nextBytes > options.maxOutputBytes) then
      .error (gitCommandError input
        s!"Git output exceeded {options.maxOutputBytes} bytes and was truncated." (some nextBytes))
    else
      let truncated :=
        options.appendTruncationMarker && decide (nextBytes > options.maxOutputBytes)
      let chunkToDecode :=
        if truncated then chunk.take (options.maxOutputBytes - s.bytes) else chunk
      let decoded := s.decoder.decode chunkToDecode !truncated
      let lineDecoded := s.lineDecoder.map fun lineDecoder ↦ lineDecoder.decode chunk true
      let lineBuffer := s.lineBuffer ++ (lineDecoded.map Prod.fst).getD decoded.1
      .ok ({ s with
        decoder := decoded.2
        lineDecoder := lineDecoded.map Prod.snd
        bytes := s.bytes + chunkToDecode.length
        text := s.text ++ decoded.1
        lineBuffer
        truncated }.emitCompleteLines options false)

/-- What comes behind the last chunk. -/
def OutputCapture.finish (s : OutputCapture) : CollectedOutput :=
  let remainder := if s.truncated then [] else (s.decoder.decode [] false).1
  let lineRemainder := (s.lineDecoder.map fun lineDecoder ↦ (lineDecoder.decode [] false).1).getD []
  let lineBuffer := s.lineBuffer ++ remainder ++ lineRemainder
  let flushed := { s with text := s.text ++ remainder, lineBuffer }.emitCompleteLines options true
  { text := flushed.text, truncated := flushed.truncated, lines := flushed.lines }

/-- `collectOutput` of a stream of chunks that ends or fails. -/
def collectOutput (chunks : List (List ℕ)) (fails : Bool) :
    Except GitCommandError CollectedOutput := do
  let s ← chunks.foldlM (OutputCapture.processChunk input options) (OutputCapture.start options)
  if fails then throw (gitCommandError input "Failed to read Git process output." none)
  return s.finish options

end Awen.Vcs

/-!
## Captured output and its chunks

What `collectOutput` returns depends on the bytes of the stream and not on its chunks. Both decoders
and the line buffer are transducers, so each chunk extends what they have read (`Captured`), and the
flags depend on how many bytes there are.

The lines are an exception at the end of the stream. When lines are decoded on their own, the
remainder of the text decoder is put behind them too, so a stream that is not truncated and stops
inside a character ends its last line with U+FFFD twice (`capturesStream_iff`).
-/

namespace Awen.Vcs

/-! ## Lines -/

def isLineBreak (u : UInt16) : Bool := u = carriageReturn || u = lineFeed

/-- `text.split(OUTPUT_LINE_SEPARATOR)`. -/
def separatedPieces (text : CodeUnits) : List CodeUnits :=
  match h : execSeparator text with
  | none => [text]
  | some separator =>
    have := length_sub_lt_of_execSeparator h
    text.take separator.1 :: separatedPieces (text.drop (separator.1 + separator.2))
termination_by text.length

/-- The non-empty pieces of a text between its separators. -/
def outputLines (text : CodeUnits) : List CodeUnits :=
  (separatedPieces text).filter fun piece ↦ piece.length > 0

theorem execSeparator_eq_none {text : CodeUnits} (h : execSeparator text = none) :
    ∀ u ∈ text, isLineBreak u = false := by
  induction text with
  | nil => exact List.forall_mem_nil _
  | cons u rest ih =>
    rw [execSeparator] at h
    split_ifs at h with hcr hlf
    rw [Option.map_eq_none_iff] at h
    exact List.forall_mem_cons.mpr ⟨by simp [isLineBreak, hcr, hlf], ih h⟩

/-- A text is cut at its first separator. -/
theorem execSeparator_eq_some {text : CodeUnits} {found : ℕ × ℕ}
    (h : execSeparator text = some found) :
    (∀ u ∈ text.take found.1, isLineBreak u = false) ∧
      ∃ u, isLineBreak u = true ∧
        (text = text.take found.1 ++ u :: text.drop (found.1 + found.2) ∨
          text = text.take found.1 ++ u :: lineFeed :: text.drop (found.1 + found.2)) := by
  induction text generalizing found with
  | nil => exact nomatch h
  | cons u rest ih =>
    rw [execSeparator] at h
    split_ifs at h with hcr hlf hu
    · cases h
      obtain ⟨later, rfl⟩ := List.head?_eq_some_iff.mp hlf
      exact ⟨List.forall_mem_nil _, u, by simp [isLineBreak, hcr], .inr rfl⟩
    · cases h
      exact ⟨List.forall_mem_nil _, u, by simp [isLineBreak, hcr], .inl rfl⟩
    · cases h
      exact ⟨List.forall_mem_nil _, u, by simp [isLineBreak, hu], .inl rfl⟩
    · obtain ⟨inner, hinner, rfl⟩ := Option.map_eq_some_iff.mp h
      obtain ⟨hline, v, hv, hrest⟩ := ih hinner
      have hdrop : (u :: rest).drop (inner.1 + 1 + inner.2) = rest.drop (inner.1 + inner.2) := by
        rw [Nat.add_right_comm, List.drop_succ_cons]
      rw [List.take_succ_cons, hdrop]
      refine ⟨List.forall_mem_cons.mpr ⟨by simp [isLineBreak, hcr, hu], hline⟩, v, hv, ?_⟩
      exact hrest.imp (congrArg (u :: ·)) (congrArg (u :: ·))

/-- Reading up to the first separator, and what stands behind it. -/
theorem feed_lineReader_of_execSeparator {text : CodeUnits} {found : ℕ × ℕ}
    (h : execSeparator text = some found) :
    (lineReader isLineBreak).feed [] text =
      (nonemptyLine (text.take found.1) ++
          ((lineReader isLineBreak).feed [] (text.drop (found.1 + found.2))).1,
        ((lineReader isLineBreak).feed [] (text.drop (found.1 + found.2))).2) := by
  obtain ⟨hline, u, hu, htext⟩ := execSeparator_eq_some h
  have hlf : isLineBreak lineFeed = true := by decide
  rcases htext with htext | htext
  · conv_lhs => rw [htext, Transducer.feed_append, feed_lineReader_of_forall _ hline,
      feed_lineReader_cons_of_isBreak _ hu, List.nil_append, List.nil_append]
  · conv_lhs => rw [htext, Transducer.feed_append, feed_lineReader_of_forall _ hline,
      feed_lineReader_cons_of_isBreak _ hu, feed_lineReader_cons_of_isBreak _ hlf, List.nil_append,
      List.nil_append]
    rfl

theorem completeLines_of_eq_none {text : CodeUnits} (h : execSeparator text = none) :
    completeLines text = ([], text) := by
  rw [completeLines]
  split
  next => rfl
  next separator hsome => exact absurd (h.symm.trans hsome) (Option.some_ne_none _).symm

theorem completeLines_of_eq_some {text : CodeUnits} {found : ℕ × ℕ}
    (h : execSeparator text = some found) :
    completeLines text =
      (nonemptyLine (text.take found.1) ++ (completeLines (text.drop (found.1 + found.2))).1,
        (completeLines (text.drop (found.1 + found.2))).2) := by
  rw [completeLines]
  split
  next hnone => exact absurd (hnone.symm.trans h) (Option.some_ne_none _).symm
  next separator hsome =>
    obtain rfl := Option.some.inj (h.symm.trans hsome)
    dsimp only
    refine congrArg (·, _) ?_
    rw [nonemptyLine]
    split
    next hpos => rw [if_neg (Nat.pos_iff_ne_zero.mp hpos)]; rfl
    next hpos => rw [if_pos (Nat.eq_zero_of_not_pos hpos)]; rfl

/-- **The loop reads the lines of the buffer.** -/
theorem completeLines_eq (text : CodeUnits) :
    completeLines text = (lineReader isLineBreak).feed [] text := by
  induction text using completeLines.induct with
  | case1 text h =>
    rw [completeLines_of_eq_none h, feed_lineReader_of_forall _ (execSeparator_eq_none h),
      List.nil_append]
  | case2 text found h hlt ih =>
    rw [completeLines_of_eq_some h, feed_lineReader_of_execSeparator h, ih]

theorem filter_singleton_piece (piece : CodeUnits) :
    [piece].filter (fun piece ↦ piece.length > 0) = nonemptyLine piece := by
  cases piece <;> rfl

theorem outputLines_of_eq_none {text : CodeUnits} (h : execSeparator text = none) :
    outputLines text = nonemptyLine text := by
  rw [outputLines, separatedPieces]
  split
  next => exact filter_singleton_piece text
  next separator hsome => exact absurd (h.symm.trans hsome) (Option.some_ne_none _).symm

theorem outputLines_of_eq_some {text : CodeUnits} {found : ℕ × ℕ}
    (h : execSeparator text = some found) :
    outputLines text =
      nonemptyLine (text.take found.1) ++ outputLines (text.drop (found.1 + found.2)) := by
  rw [outputLines, separatedPieces]
  split
  next hnone => exact absurd (hnone.symm.trans h) (Option.some_ne_none _).symm
  next separator hsome =>
    obtain rfl := Option.some.inj (h.symm.trans hsome)
    rw [← List.singleton_append, List.filter_append, filter_singleton_piece]
    rfl

/-- **The pieces are what the reader of lines writes.** -/
theorem outputLines_eq (text : CodeUnits) :
    outputLines text = (lineReader isLineBreak).run text := by
  induction text using separatedPieces.induct with
  | case1 text h =>
    rw [outputLines_of_eq_none h, Transducer.run]
    change _ = ((lineReader isLineBreak).feed [] text).1 ++
      nonemptyLine ((lineReader isLineBreak).feed [] text).2
    rw [feed_lineReader_of_forall _ (execSeparator_eq_none h), List.nil_append, List.nil_append]
  | case2 text found h hlt ih =>
    rw [outputLines_of_eq_some h, ih, Transducer.run, Transducer.run]
    change _ ++ (((lineReader isLineBreak).feed [] _).1 ++ _) =
      ((lineReader isLineBreak).feed [] text).1 ++
        nonemptyLine ((lineReader isLineBreak).feed [] text).2
    rw [feed_lineReader_of_execSeparator h, List.append_assoc]
    rfl

/-! ## The run -/

variable {input : ExecuteGitInput} {options : CaptureOptions}

/-- The lines of a text have been read: those that are complete are handed, and the line that has
begun is in the buffer. -/
structure HasRead (options : CaptureOptions) (s : OutputCapture) (text : CodeUnits) : Prop where
  lineBuffer : s.lineBuffer = ((lineReader isLineBreak).feed [] text).2
  lines : s.lines =
    if options.onLine then ((lineReader isLineBreak).feed [] text).1 else []

/-- Handing lines changes nothing else. -/
theorem handLines_eq (s : OutputCapture) (lines : List CodeUnits) :
    s.handLines options lines =
      { s with lines := s.lines ++ if options.onLine then lines else [] } := by
  rw [OutputCapture.handLines]
  split
  · rfl
  · rw [List.append_nil]

/-- **More text behind the text that has been read.** -/
theorem HasRead.emitCompleteLines {s : OutputCapture} {text : CodeUnits}
    (h : HasRead options s text) (more : CodeUnits) {r : OutputCapture}
    (hlineBuffer : r.lineBuffer = s.lineBuffer ++ more)
    (hlines : r.lines = s.lines) :
    HasRead options (r.emitCompleteLines options false) (text ++ more) ∧
      r.emitCompleteLines options false =
        { r with
          lineBuffer := (r.emitCompleteLines options false).lineBuffer
          lines := (r.emitCompleteLines options false).lines } := by
  have hemit : r.emitCompleteLines options false =
      { r with lineBuffer := (completeLines r.lineBuffer).2 }.handLines options
        (completeLines r.lineBuffer).1 := rfl
  have hcomplete : completeLines r.lineBuffer =
      (lineReader isLineBreak).feed ((lineReader isLineBreak).feed [] text).2 more := by
    rw [hlineBuffer, completeLines_eq, h.lineBuffer, feed_lineReader_resume]
  rw [hemit, handLines_eq]
  refine ⟨⟨?_, ?_⟩, rfl⟩
  · rw [Transducer.feed_append_snd, ← hcomplete]
  · change r.lines ++ _ = _
    rw [Transducer.feed_append_fst, ← hcomplete, hlines, h.lines]
    split <;> rfl

/-- At the end of the text its lines have been handed. -/
theorem HasRead.flush {s : OutputCapture} {text : CodeUnits}
    (h : HasRead options s text) (more : CodeUnits) {r : OutputCapture}
    (hlineBuffer : r.lineBuffer = s.lineBuffer ++ more)
    (hlines : r.lines = s.lines) :
    (r.emitCompleteLines options true).lines =
      if options.onLine then outputLines (text ++ more) else [] := by
  obtain ⟨hread, -⟩ := h.emitCompleteLines more hlineBuffer hlines
  have hemit : r.emitCompleteLines options true =
      if (r.emitCompleteLines options false).lineBuffer.length > 0 then
        { r.emitCompleteLines options false with lineBuffer := [] }.handLines options
          [(r.emitCompleteLines options false).lineBuffer]
      else { r.emitCompleteLines options false with lineBuffer := [] } := rfl
  have hrun : outputLines (text ++ more) =
      ((lineReader isLineBreak).feed [] (text ++ more)).1 ++
        nonemptyLine (r.emitCompleteLines options false).lineBuffer := by
    rw [outputLines_eq, hread.lineBuffer]
    rfl
  rw [hemit, hrun]
  split
  next hpos =>
    rw [handLines_eq, nonemptyLine, if_neg (Nat.pos_iff_ne_zero.mp hpos)]
    change (r.emitCompleteLines options false).lines ++ _ = _
    rw [hread.lines]
    split <;> rfl
  next hpos =>
    rw [nonemptyLine, if_pos (Nat.eq_zero_of_not_pos hpos), List.append_nil]
    exact hread.lines

/-- What the text decoder has made of some bytes. -/
abbrev decoded (bytes : List ℕ) : CodeUnits × TextDecoder :=
  textDecoder.feed textDecoder.start bytes

theorem run_textDecoder_eq (bytes : List ℕ) :
    textDecoder.run bytes = (decoded bytes).1 ++ textDecoder.flush (decoded bytes).2 := rfl

/-- No line of the stream is longer than what a line buffer may hold, where this matters. -/
def ShortLines (options : CaptureOptions) (stream : List ℕ) : Prop :=
  options.decodesLines = true →
    ∀ line ∈ outputLines (textDecoder.run stream), line.length ≤ maxPendingLineBytes

/-- A line that has begun is no longer than the line that it becomes. -/
theorem ShortLines.length_le {seen stream : List ℕ} (h : ShortLines options stream)
    (hlines : options.decodesLines = true) (hseen : seen <+: stream) :
    ((lineReader isLineBreak).feed [] (decoded seen).1).2.length ≤ maxPendingLineBytes := by
  obtain ⟨rest, rfl⟩ := hseen
  refine @length_feed_lineReader_le _ isLineBreak maxPendingLineBytes _
    ((textDecoder.feed (decoded seen).2 rest).1 ++ textDecoder.flush (decoded (seen ++ rest)).2)
    fun line hline ↦ h hlines line ?_
  rw [outputLines_eq, run_textDecoder_eq, decoded, Transducer.feed_append_fst, List.append_assoc,
    Transducer.run_append]
  exact List.mem_append_right _ hline

/-- **What has been captured** of a stream after some of its bytes. -/
structure Captured (options : CaptureOptions) (stream seen : List ℕ) (s : OutputCapture) :
    Prop where
  truncated : s.truncated =
    (options.appendTruncationMarker && decide (options.maxOutputBytes < seen.length))
  fits : options.appendTruncationMarker = false → seen.length ≤ options.maxOutputBytes
  text : s.text = if s.truncated then textDecoder.run (seen.take options.maxOutputBytes)
    else (decoded seen).1
  bytes : s.truncated = false → s.bytes = seen.length
  decoder : s.truncated = false → s.decoder = (decoded seen).2
  lineDecoder : s.lineDecoder = if options.decodesLines then some (decoded seen).2 else none
  hasRead : ShortLines options stream →
    HasRead options s (if options.decodesLines then (decoded seen).1 else s.text)

theorem captured_start (stream : List ℕ) :
    Captured options stream [] (OutputCapture.start options) where
  truncated := by simp [OutputCapture.start]
  fits _ := Nat.zero_le _
  text := rfl
  bytes _ := rfl
  decoder _ := rfl
  lineDecoder := rfl
  hasRead _ := by
    have hread : HasRead options (OutputCapture.start options) [] :=
      ⟨rfl, by split <;> rfl⟩
    split <;> exact hread

/-- A chunk behind the limit, where the text is truncated. -/
theorem Captured.processChunk_of_truncated {stream seen chunk : List ℕ} {s : OutputCapture}
    (h : Captured options stream seen s) (hmark : options.appendTruncationMarker = true)
    (htruncated : s.truncated = true) (hchunk : seen ++ chunk <+: stream) :
    ∃ s', s.processChunk input options chunk = .ok s' ∧
      Captured options stream (seen ++ chunk) s' := by
  have hlt : options.maxOutputBytes < seen.length := by
    have := h.truncated
    rw [htruncated, hmark, Bool.true_and] at this
    exact of_decide_eq_true this.symm
  have htext : s.text = textDecoder.run ((seen ++ chunk).take options.maxOutputBytes) := by
    rw [h.text, if_pos htruncated, List.take_append_of_le_length (Nat.le_of_lt hlt)]
  have hflag : true = (options.appendTruncationMarker &&
      decide (options.maxOutputBytes < (seen ++ chunk).length)) := by
    rw [hmark, Bool.true_and, List.length_append]
    exact (decide_eq_true (by omega)).symm
  cases hdecodes : options.decodesLines with
  | false =>
    have hdecoder : s.lineDecoder = none := by rw [h.lineDecoder, hdecodes]; rfl
    refine ⟨s, by rw [OutputCapture.processChunk, hmark, htruncated, hdecoder]; rfl, ?_⟩
    exact {
      truncated := htruncated.trans hflag
      fits := fun hfalse ↦ absurd (hmark.symm.trans hfalse) Bool.true_eq_false.mp
      text := by rw [htext, if_pos htruncated]
      bytes := fun hfalse ↦ absurd (htruncated.symm.trans hfalse) Bool.true_eq_false.mp
      decoder := fun hfalse ↦ absurd (htruncated.symm.trans hfalse) Bool.true_eq_false.mp
      lineDecoder := by rw [hdecoder, hdecodes]; rfl
      hasRead := fun hshort ↦ by simpa [hdecodes] using h.hasRead hshort }
  | true =>
    obtain ⟨-, -, -, -, -, hdecoder, hread⟩ := h
    rw [hdecodes, if_pos rfl] at hdecoder
    let next := textDecoder.feed (decoded seen).2 chunk
    let read : OutputCapture :=
      { s with lineDecoder := some next.2, lineBuffer := s.lineBuffer ++ next.1 }
    let emitted := read.emitCompleteLines options false
    have hnext : decoded (seen ++ chunk) = ((decoded seen).1 ++ next.1, next.2) :=
      Transducer.feed_append ..
    have hstep : s.processChunk input options chunk = .ok
        (if emitted.lineBuffer.length > maxPendingLineBytes then { emitted with lineBuffer := [] }
          else emitted) := by
      rw [OutputCapture.processChunk, if_pos (by rw [hmark, htruncated]; rfl), hdecoder]
      rfl
    -- the line that has begun is not dropped, since it is short
    have hkept (hshort : ShortLines options stream) :
        HasRead options emitted (decoded (seen ++ chunk)).1 ∧
          ¬emitted.lineBuffer.length > maxPendingLineBytes := by
      have hseen := hread hshort
      rw [hdecodes, if_pos rfl] at hseen
      have hemitted := (hseen.emitCompleteLines next.1 (r := read) rfl rfl).1
      rw [hnext]
      refine ⟨hemitted, ?_⟩
      have hle := hshort.length_le hdecodes hchunk
      rw [hnext] at hle
      rw [hemitted.lineBuffer]
      exact Nat.not_lt.mpr hle
    have hemitted : ∀ s', s' = (if emitted.lineBuffer.length > maxPendingLineBytes then
        { emitted with lineBuffer := [] } else emitted) →
        s'.truncated = s.truncated ∧ s'.text = s.text ∧ s'.lineDecoder = some next.2 := by
      have heq : emitted = { read with lineBuffer := _, lines := _ } := handLines_eq ..
      rintro s' rfl
      split <;> rw [heq] <;> exact ⟨rfl, rfl, rfl⟩
    obtain ⟨htruncated', htext', hdecoder'⟩ := hemitted _ rfl
    refine ⟨_, hstep, ?_⟩
    exact {
      truncated := htruncated'.trans (htruncated.trans hflag)
      fits := fun hfalse ↦ absurd (hmark.symm.trans hfalse) Bool.true_eq_false.mp
      text := by rw [htext', htruncated', htext, if_pos htruncated]
      bytes := fun hfalse ↦
        absurd (htruncated.symm.trans (htruncated'.symm.trans hfalse)) Bool.true_eq_false.mp
      decoder := fun hfalse ↦
        absurd (htruncated.symm.trans (htruncated'.symm.trans hfalse)) Bool.true_eq_false.mp
      lineDecoder := by rw [hdecoder', hdecodes, hnext]; rfl
      hasRead := fun hshort ↦ by
        rw [if_neg (hkept hshort).2, hdecodes]
        exact (hkept hshort).1 }

/-- **A chunk before the limit was reached.** -/
theorem Captured.processChunk_of_not_truncated {stream seen chunk : List ℕ} {s : OutputCapture}
    (h : Captured options stream seen s) (htruncated : s.truncated = false)
    (hfits : options.appendTruncationMarker = false →
      (seen ++ chunk).length ≤ options.maxOutputBytes) :
    ∃ s', s.processChunk input options chunk = .ok s' ∧
      Captured options stream (seen ++ chunk) s' := by
  have hbytes := h.bytes htruncated
  have hdecoder := h.decoder htruncated
  have htext := h.text
  rw [htruncated, if_neg Bool.false_ne_true] at htext
  let truncated :=
    options.appendTruncationMarker && decide (options.maxOutputBytes < (seen ++ chunk).length)
  let chunkToDecode :=
    if truncated then chunk.take (options.maxOutputBytes - seen.length) else chunk
  let next := (decoded seen).2.decode chunkToDecode !truncated
  let lineNext := textDecoder.feed (decoded seen).2 chunk
  let added := if options.decodesLines then lineNext.1 else next.1
  let read : OutputCapture :=
    { s with
      decoder := next.2
      lineDecoder := if options.decodesLines then some lineNext.2 else none
      bytes := seen.length + chunkToDecode.length
      text := s.text ++ next.1
      lineBuffer := s.lineBuffer ++ added
      truncated }
  have hlength : s.bytes + chunk.length = (seen ++ chunk).length := by
    rw [hbytes, List.length_append]
  have hstep : s.processChunk input options chunk =
      .ok (read.emitCompleteLines options false) := by
    have hlimit : ¬(!options.appendTruncationMarker &&
        decide (s.bytes + chunk.length > options.maxOutputBytes)) = true := by
      rw [hlength, Bool.and_eq_true, Bool.not_eq_true', decide_eq_true_eq]
      exact fun hover ↦ Nat.not_lt.mpr (hfits hover.1) hover.2
    rw [OutputCapture.processChunk, if_neg (by rw [htruncated, Bool.and_false]; decide)]
    dsimp only
    rw [if_neg hlimit, h.lineDecoder, hdecoder, hlength, hbytes]
    simp only [read, added]
    cases options.decodesLines <;> rfl
  -- what the text decoder has made of the bytes up to the limit
  have hnext : (truncated = false → next = (lineNext.1, lineNext.2)) ∧
      (truncated = true → s.text ++ next.1 =
        textDecoder.run ((seen ++ chunk).take options.maxOutputBytes)) := by
    refine ⟨fun hfalse ↦ ?_, fun htrue ↦ ?_⟩
    · simp only [next, chunkToDecode, hfalse]
      rfl
    · have hseen : seen.length ≤ options.maxOutputBytes := by
        have hflag := h.truncated
        rw [htruncated] at hflag
        rw [Bool.and_eq_true] at htrue
        rw [htrue.1, Bool.true_and] at hflag
        exact Nat.not_lt.mp (of_decide_eq_false hflag.symm)
      simp only [next, chunkToDecode, htrue]
      rw [List.take_append, List.take_of_length_le hseen, Transducer.run_append, htext]
      rfl
  have hlineNext : decoded (seen ++ chunk) = ((decoded seen).1 ++ lineNext.1, lineNext.2) :=
    Transducer.feed_append ..
  have hread : read.text = if truncated then
      textDecoder.run ((seen ++ chunk).take options.maxOutputBytes)
      else (decoded (seen ++ chunk)).1 := by
    split
    next htrue => exact hnext.2 htrue
    next hfalse =>
      change s.text ++ next.1 = _
      rw [hnext.1 (Bool.not_eq_true _ ▸ hfalse), hlineNext, htext]
  have hemitted : read.emitCompleteLines options false =
      { read with lineBuffer := _, lines := _ } := handLines_eq ..
  refine ⟨_, hstep, ?_⟩
  exact {
    truncated := by rw [hemitted]
    fits := hfits
    text := by
      rw [hemitted]
      exact hread
    bytes := fun hfalse ↦ by
      rw [hemitted] at hfalse ⊢
      change seen.length + chunkToDecode.length = _
      simp only [chunkToDecode, show truncated = false from hfalse]
      exact List.length_append.symm
    decoder := fun hfalse ↦ by
      rw [hemitted] at hfalse ⊢
      change next.2 = _
      rw [hnext.1 hfalse, hlineNext]
    lineDecoder := by
      rw [hemitted, hlineNext]
    hasRead := fun hshort ↦ by
      have hseen := (h.hasRead hshort).emitCompleteLines added (r := read) rfl rfl
      rw [htext, ite_self] at hseen
      have htext' : (read.emitCompleteLines options false).text = s.text ++ next.1 := by
        rw [hemitted]
      have hadded : (decoded seen).1 ++ added = if options.decodesLines
          then (decoded seen).1 ++ lineNext.1 else s.text ++ next.1 := by
        simp only [added]
        split
        · rfl
        · rw [htext]
      rw [hlineNext, htext', ← hadded]
      exact hseen.1 }

variable (input) in
/-- **A chunk that fits, or may be cut, is captured.** -/
theorem Captured.processChunk {stream seen chunk : List ℕ} {s : OutputCapture}
    (h : Captured options stream seen s) (hchunk : seen ++ chunk <+: stream)
    (hfits : options.appendTruncationMarker = false →
      (seen ++ chunk).length ≤ options.maxOutputBytes) :
    ∃ s', s.processChunk input options chunk = .ok s' ∧
      Captured options stream (seen ++ chunk) s' := by
  cases htruncated : s.truncated with
  | false => exact h.processChunk_of_not_truncated htruncated hfits
  | true =>
    have hmark := h.truncated
    rw [htruncated] at hmark
    exact h.processChunk_of_truncated (Bool.and_eq_true_iff.mp hmark.symm).1 htruncated hchunk

variable (input) in
/-- A chunk that does not fit and may not be cut is refused. -/
theorem Captured.processChunk_eq_error {stream seen chunk : List ℕ} {s : OutputCapture}
    (h : Captured options stream seen s) (hmark : options.appendTruncationMarker = false)
    (hlt : options.maxOutputBytes < (seen ++ chunk).length) :
    s.processChunk input options chunk = .error (gitCommandError input
      s!"Git output exceeded {options.maxOutputBytes} bytes and was truncated."
      (some (seen ++ chunk).length)) := by
  have hbytes : s.bytes = seen.length := h.bytes (by rw [h.truncated, hmark, Bool.false_and])
  have hlength : s.bytes + chunk.length = (seen ++ chunk).length := by
    rw [hbytes, List.length_append]
  rw [OutputCapture.processChunk, if_neg (by rw [hmark, Bool.false_and]; decide), hlength]
  dsimp only
  rw [if_pos (by rw [hmark]; simpa using hlt)]

variable (input) in
/-- **The run.** Chunks that fit, or may be cut, are captured. -/
theorem Captured.foldlM {stream seen : List ℕ} {chunks : List (List ℕ)} {s : OutputCapture}
    (h : Captured options stream seen s) (hchunks : seen ++ chunks.flatten = stream)
    (hfits : options.appendTruncationMarker = false → stream.length ≤ options.maxOutputBytes) :
    ∃ s', chunks.foldlM (OutputCapture.processChunk input options) s = .ok s' ∧
      Captured options stream stream s' := by
  induction chunks generalizing seen s with
  | nil =>
    rw [List.flatten_nil, List.append_nil] at hchunks
    exact ⟨s, rfl, hchunks ▸ h⟩
  | cons chunk chunks ih =>
    rw [List.flatten_cons, ← List.append_assoc] at hchunks
    have hpre : seen ++ chunk <+: stream := ⟨_, hchunks⟩
    obtain ⟨s₁, hs₁, hcaptured⟩ := h.processChunk input hpre fun hmark ↦
      Nat.le_trans hpre.length_le (hfits hmark)
    obtain ⟨s₂, hs₂, hend⟩ := ih hcaptured hchunks
    exact ⟨s₂, by rw [List.foldlM_cons, hs₁]; exact hs₂, hend⟩

variable (input) in
/-- Chunks that do not fit and may not be cut are refused. -/
theorem Captured.foldlM_eq_error {stream seen : List ℕ} {chunks : List (List ℕ)}
    {s : OutputCapture} (h : Captured options stream seen s)
    (hchunks : seen ++ chunks.flatten = stream) (hmark : options.appendTruncationMarker = false)
    (hlt : options.maxOutputBytes < stream.length) :
    ∃ error, chunks.foldlM (OutputCapture.processChunk input options) s = .error error := by
  induction chunks generalizing seen s with
  | nil =>
    rw [List.flatten_nil, List.append_nil] at hchunks
    exact absurd (h.fits hmark) (hchunks ▸ Nat.not_le.mpr hlt)
  | cons chunk chunks ih =>
    rw [List.flatten_cons, ← List.append_assoc] at hchunks
    by_cases hfits : (seen ++ chunk).length ≤ options.maxOutputBytes
    · obtain ⟨s₁, hs₁, hcaptured⟩ := h.processChunk input ⟨_, hchunks⟩ fun _ ↦ hfits
      obtain ⟨error, herror⟩ := ih hcaptured hchunks
      exact ⟨error, by rw [List.foldlM_cons, hs₁]; exact herror⟩
    · have herror := h.processChunk_eq_error input hmark (Nat.not_le.mp hfits)
      exact ⟨_, by rw [List.foldlM_cons, herror]; rfl⟩

/-! ## The end of the stream -/

/-- The text whose lines have been handed at the end. -/
def handedText (options : CaptureOptions) (stream : List ℕ) : CodeUnits :=
  if options.decodesLines then
    if stream.length ≤ options.maxOutputBytes then
      textDecoder.run stream ++ textDecoder.flush (decoded stream).2
    else textDecoder.run stream
  else textDecoder.run (stream.take options.maxOutputBytes)

/-- **What is returned at the end.** -/
theorem Captured.finish {stream : List ℕ} {s : OutputCapture}
    (h : Captured options stream stream s) :
    (s.finish options).text = textDecoder.run (stream.take options.maxOutputBytes) ∧
      (s.finish options).truncated =
        (options.appendTruncationMarker && decide (options.maxOutputBytes < stream.length)) ∧
      (ShortLines options stream → (s.finish options).lines =
        if options.onLine then outputLines (handedText options stream) else []) := by
  let remainder := if s.truncated then [] else (s.decoder.decode [] false).1
  let lineRemainder := (s.lineDecoder.map fun decoder ↦ (decoder.decode [] false).1).getD []
  let read : OutputCapture :=
    { s with text := s.text ++ remainder, lineBuffer := s.lineBuffer ++ remainder ++ lineRemainder }
  have hfinish : s.finish options =
      { text := (read.emitCompleteLines options true).text
        truncated := (read.emitCompleteLines options true).truncated
        lines := (read.emitCompleteLines options true).lines } := rfl
  have hflushed : (read.emitCompleteLines options true).text = read.text ∧
      (read.emitCompleteLines options true).truncated = read.truncated := by
    rw [OutputCapture.emitCompleteLines]
    simp only [handLines_eq]
    split_ifs <;> exact ⟨rfl, rfl⟩
  have hremainder : remainder =
      if s.truncated then [] else textDecoder.flush (decoded stream).2 := by
    cases htruncated : s.truncated with
    | false => simp only [remainder, htruncated, h.decoder htruncated]; rfl
    | true => simp only [remainder, htruncated]; rfl
  have hshort : s.truncated = false → stream.length ≤ options.maxOutputBytes := by
    intro htruncated
    have hflag := h.truncated
    rw [htruncated] at hflag
    cases hmark : options.appendTruncationMarker with
    | false => exact h.fits hmark
    | true =>
      rw [hmark, Bool.true_and] at hflag
      exact Nat.not_lt.mp (of_decide_eq_false hflag.symm)
  have hlong : s.truncated = true → options.maxOutputBytes < stream.length := by
    intro htruncated
    have hflag := h.truncated
    rw [htruncated] at hflag
    exact of_decide_eq_true (Bool.and_eq_true_iff.mp hflag.symm).2
  have htext : s.text ++ remainder = textDecoder.run (stream.take options.maxOutputBytes) := by
    rw [hremainder, h.text]
    cases htruncated : s.truncated with
    | false => rw [List.take_of_length_le (hshort htruncated)]; rfl
    | true => exact List.append_nil _
  refine ⟨by rw [hfinish, ← htext]; exact hflushed.1,
    by rw [hfinish, ← h.truncated]; exact hflushed.2, fun hlines ↦ ?_⟩
  have hread := (h.hasRead hlines).flush (remainder ++ lineRemainder) (r := read)
    (List.append_assoc ..) rfl
  rw [hfinish]
  refine hread.trans ?_
  suffices hhanded : (if options.decodesLines then (decoded stream).1 else s.text) ++
      (remainder ++ lineRemainder) = handedText options stream by rw [hhanded]
  simp only [lineRemainder, h.lineDecoder]
  rw [handedText]
  cases hdecodes : options.decodesLines with
  | false => rw [← htext]; simp
  | true =>
    rw [hremainder]
    cases htruncated : s.truncated with
    | false =>
      rw [if_pos rfl, if_pos rfl, if_pos (hshort htruncated), run_textDecoder_eq,
        List.append_assoc]
      rfl
    | true =>
      rw [if_pos rfl, if_pos rfl, if_neg (Nat.not_le.mpr (hlong htruncated))]
      rfl

variable (input) in
/-- Output that fits, or may be cut, is returned. -/
theorem collectOutput_eq_ok {stream : List ℕ} {chunks : List (List ℕ)}
    (hchunks : chunks.flatten = stream)
    (hfits : options.appendTruncationMarker = false → stream.length ≤ options.maxOutputBytes) :
    ∃ output, collectOutput input options chunks false = .ok output ∧
      output.text = textDecoder.run (stream.take options.maxOutputBytes) ∧
      output.truncated =
        (options.appendTruncationMarker && decide (options.maxOutputBytes < stream.length)) ∧
      (ShortLines options stream → output.lines =
        if options.onLine then outputLines (handedText options stream) else []) := by
  obtain ⟨s, hs, hcaptured⟩ :=
    (@captured_start options stream).foldlM input hchunks hfits
  exact ⟨s.finish options, by rw [collectOutput, hs]; rfl, hcaptured.finish⟩

variable (input) in
/-- Output that does not fit and may not be cut is refused. -/
theorem collectOutput_eq_error {stream : List ℕ} {chunks : List (List ℕ)}
    (hchunks : chunks.flatten = stream) (hmark : options.appendTruncationMarker = false)
    (hlt : options.maxOutputBytes < stream.length) :
    ∃ error, collectOutput input options chunks false = .error error := by
  obtain ⟨error, herror⟩ :=
    (@captured_start options stream).foldlM_eq_error input hchunks hmark hlt
  exact ⟨error, by rw [collectOutput, herror]; rfl⟩

/-- **The capture of a stream does not depend on its chunks**, and the lines that are handed to a
callback are the lines of the text, or of the whole stream where callbacks go on. -/
structure CapturesStream (input : ExecuteGitInput) (options : CaptureOptions)
    (stream : List ℕ) : Prop where
  fails_iff : ∀ chunks : List (List ℕ), chunks.flatten = stream →
    ((∃ error, collectOutput input options chunks false = .error error) ↔
      options.appendTruncationMarker = false ∧ options.maxOutputBytes < stream.length)
  text : ∀ chunks : List (List ℕ), chunks.flatten = stream → ∀ output,
    collectOutput input options chunks false = .ok output →
    output.text = textDecoder.run (stream.take (min stream.length options.maxOutputBytes))
  truncated_iff : ∀ chunks : List (List ℕ), chunks.flatten = stream → ∀ output,
    collectOutput input options chunks false = .ok output →
    (output.truncated = true ↔
      options.maxOutputBytes < stream.length ∧ options.appendTruncationMarker = true)
  lines : options.onLine = true → ∀ chunks : List (List ℕ), chunks.flatten = stream → ∀ output,
    collectOutput input options chunks false = .ok output →
    let text := if options.keepLineCallbacksAfterTruncation then textDecoder.run stream
      else output.text
    (∀ line ∈ outputLines text, line.length ≤ 64 * 1024) → output.lines = outputLines text

/-- The streams that stop inside a character, where lines are decoded on their own and nothing is
cut off. -/
structure RepeatsRemainder (options : CaptureOptions) (stream : List ℕ) : Prop where
  onLine : options.onLine = true
  keeps : options.keepLineCallbacksAfterTruncation = true
  fits : stream.length ≤ options.maxOutputBytes
  endsInside : EndsInsideCharacter stream
  short : ∀ line ∈ outputLines (textDecoder.run stream), line.length ≤ 64 * 1024

/-- One more character behind a text that ends with a begun line makes that line longer. -/
theorem outputLines_append_ne (text : CodeUnits) {u : UInt16} (hu : isLineBreak u = false) :
    outputLines (text ++ [u] ++ [u]) ≠ outputLines (text ++ [u]) := by
  obtain ⟨lines, line, hread⟩ :
      ∃ lines line, (lineReader isLineBreak).feed [] text = (lines, line) := ⟨_, _, rfl⟩
  have hlines (more : CodeUnits) (hmore : ∀ v ∈ more, isLineBreak v = false) (hne : more ≠ []) :
      outputLines (text ++ more) = lines ++ [line ++ more] := by
    rw [outputLines_eq, Transducer.run_append]
    change ((lineReader isLineBreak).feed [] text).1 ++
      (((lineReader isLineBreak).feed ((lineReader isLineBreak).feed [] text).2 more).1 ++
        nonemptyLine
          ((lineReader isLineBreak).feed ((lineReader isLineBreak).feed [] text).2 more).2) = _
    rw [hread, feed_lineReader_of_forall _ hmore, List.nil_append, nonemptyLine,
      if_neg (mt List.eq_nil_of_length_eq_zero (List.append_ne_nil_of_right_ne_nil _ hne))]
  rw [List.append_assoc, hlines _ (by simp [hu]) (by simp), hlines _ (by simp [hu]) (by simp)]
  intro heq
  have hlength := congrArg List.length (List.cons.inj (List.append_cancel_left heq)).1
  simp at hlength

/-- A stream that repeats its remainder hands another last line. -/
theorem RepeatsRemainder.not_capturesStream {stream : List ℕ}
    (h : RepeatsRemainder options stream) : ¬CapturesStream input options stream := by
  intro hcaptures
  have hdecodes : options.decodesLines = true := by
    rw [CaptureOptions.decodesLines, h.keeps, h.onLine]
    rfl
  obtain ⟨output, houtput, -, -, hlines⟩ := @collectOutput_eq_ok input options stream
    [stream] List.flatten_singleton fun _ ↦ h.fits
  have hexpected := hcaptures.lines h.onLine [stream] List.flatten_singleton output houtput
  rw [h.keeps, if_pos rfl] at hexpected
  rw [hlines fun _ ↦ h.short, h.onLine, if_pos rfl, handedText, hdecodes, if_pos rfl,
    if_pos h.fits] at hexpected
  have hremainder := flush_textDecoder_of_endsInside h.endsInside
  refine outputLines_append_ne (decoded stream).1 (u := 0xfffd) (by decide) ?_
  rw [run_textDecoder_eq, decoded, hremainder] at hexpected
  refine hexpected ?_
  have hshort := h.short
  rwa [run_textDecoder_eq, decoded, hremainder] at hshort

/-- **The capture of a stream does not depend on its chunks** unless the stream repeats its
remainder. -/
theorem capturesStream_iff (input : ExecuteGitInput) (options : CaptureOptions)
    (stream : List ℕ) :
    CapturesStream input options stream ↔ ¬RepeatsRemainder options stream := by
  refine ⟨fun h hrepeats ↦ hrepeats.not_capturesStream h, fun hrepeats ↦ ?_⟩
  have hok {chunks : List (List ℕ)} (hchunks : chunks.flatten = stream) {output : CollectedOutput}
      (houtput : collectOutput input options chunks false = .ok output) :
      output.text = textDecoder.run (stream.take options.maxOutputBytes) ∧
      output.truncated =
        (options.appendTruncationMarker && decide (options.maxOutputBytes < stream.length)) ∧
      (ShortLines options stream → output.lines =
        if options.onLine then outputLines (handedText options stream) else []) := by
    have hfits (hmark : options.appendTruncationMarker = false) :
        stream.length ≤ options.maxOutputBytes := by
      by_contra hlt
      obtain ⟨error, herror⟩ :=
        collectOutput_eq_error input hchunks hmark (Nat.not_le.mp hlt)
      rw [herror] at houtput
      cases houtput
    obtain ⟨output', houtput', hspec⟩ := collectOutput_eq_ok input hchunks hfits
    rw [houtput'] at houtput
    cases houtput
    exact hspec
  constructor
  case fails_iff =>
    intro chunks hchunks
    refine ⟨fun ⟨error, herror⟩ ↦ ?_, fun h ↦ collectOutput_eq_error _ hchunks h.1 h.2⟩
    by_contra hfits
    obtain ⟨output, houtput, -⟩ := collectOutput_eq_ok input hchunks
      fun hmark ↦ Nat.not_lt.mp fun hlt ↦ hfits ⟨hmark, hlt⟩
    rw [houtput] at herror
    cases herror
  case text =>
    intro chunks hchunks output houtput
    have htake : stream.take options.maxOutputBytes =
        stream.take (min stream.length options.maxOutputBytes) :=
      List.take_eq_take_iff.mpr (by omega)
    rw [(hok hchunks houtput).1, htake]
  case truncated_iff =>
    intro chunks hchunks output houtput
    rw [(hok hchunks houtput).2.1, Bool.and_eq_true, decide_eq_true_eq]
    exact And.comm
  case lines =>
    intro honLine chunks hchunks output houtput text hshort
    obtain ⟨htext, -, hlines⟩ := hok hchunks houtput
    cases hkeeps : options.keepLineCallbacksAfterTruncation with
    | false =>
      have hdecodes : options.decodesLines = false := by
        rw [CaptureOptions.decodesLines, hkeeps, Bool.false_and]
      have htext' : text = handedText options stream := by
        simp only [text, hkeeps, handedText, hdecodes]
        exact htext
      rw [hlines fun htrue ↦ absurd (hdecodes.symm.trans htrue) Bool.false_ne_true, honLine,
        if_pos rfl, htext']
    | true =>
      have hdecodes : options.decodesLines = true := by
        rw [CaptureOptions.decodesLines, hkeeps, honLine]
        rfl
      have htext' : text = textDecoder.run stream := by
        simp only [text, hkeeps, if_true]
      rw [htext'] at hshort ⊢
      rw [hlines fun _ ↦ hshort, honLine, if_pos rfl, handedText, hdecodes, if_pos rfl]
      split
      next hfits =>
        have hends : ¬EndsInsideCharacter stream := fun hends ↦
          hrepeats ⟨honLine, hkeeps, hfits, hends, hshort⟩
        rw [decoded, flush_textDecoder_eq_nil.mpr hends, List.append_nil]
      next => rfl

/-- The first byte of a character of three bytes, alone. -/
theorem not_capturesStream_cut :
    ¬CapturesStream { operation := "checkout", cwd := "/repo", args := ["checkout", "main"] }
      { maxOutputBytes := 1000, appendTruncationMarker := true, onLine := true,
        keepLineCallbacksAfterTruncation := true } [0xe2] :=
  RepeatsRemainder.not_capturesStream {
    onLine := rfl
    keeps := rfl
    fits := by decide
    endsInside := by decide
    short := by
      have hrun : textDecoder.run [0xe2] = [0xfffd] := by decide
      rw [hrun, outputLines_of_eq_none (by decide)]
      decide }

end Awen.Vcs
