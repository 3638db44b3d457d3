import Awen.Library.Unicode

/-!
# The bounded history of a terminal

`BoundedTerminalHistory` keeps the end of a text within a number of lines and a number of bytes. It
counts both as the text comes in, holds the text in chunks, and drops chunks, or the beginning of
one, when a limit is exceeded. Chunks that are dropped leave empty slots in the array of the source;
the model has the chunks from `start` on.
-/

namespace Awen.Terminal

structure TerminalHistoryChunk where
  data : CodeUnits
  byteLength : ℕ
  lineBreaks : ℕ
  deriving DecidableEq

structure BoundedTerminalHistory where
  maxLines : ℕ
  maxBytes : ℕ
  chunks : List TerminalHistoryChunk := []
  byteLength : ℕ := 0
  lineBreaks : ℕ := 0
  lastCodeUnit : Option UInt16 := none
  cachedValue : Option CodeUnits := some []
  deriving DecidableEq

def maxHistoryChunkLength : ℕ := 16 * 1024

/-- `\n` -/
def newline : UInt16 := 10

namespace BoundedTerminalHistory

def clear (history : BoundedTerminalHistory) : BoundedTerminalHistory :=
  { maxLines := history.maxLines, maxBytes := history.maxBytes }

/-- The number of line breaks in a text. -/
def countLineBreaks (data : CodeUnits) : ℕ := data.count newline

def appendChunk (history : BoundedTerminalHistory) (data : CodeUnits) : BoundedTerminalHistory :=
  let byteLength := Awen.byteLength data
  let lineBreaks := countLineBreaks data
  { history with
    chunks := match history.chunks.getLast? with
      | some previous =>
        if previous.data.length + data.length ≤ maxHistoryChunkLength then
          history.chunks.dropLast ++ [⟨previous.data ++ data, previous.byteLength + byteLength,
            previous.lineBreaks + lineBreaks⟩]
        else history.chunks ++ [⟨data, byteLength, lineBreaks⟩]
      | none => history.chunks ++ [⟨data, byteLength, lineBreaks⟩]
    byteLength := history.byteLength + byteLength
    lineBreaks := history.lineBreaks + lineBreaks
    lastCodeUnit := data.getLast?
    cachedValue := none }

/-! ## Trimming -/

/-- Drop the first chunk. -/
def discardChunk (history : BoundedTerminalHistory) : BoundedTerminalHistory :=
  match history.chunks with
  | [] => history
  | first :: chunks =>
    { history with
      chunks
      byteLength := history.byteLength - first.byteLength
      lineBreaks := history.lineBreaks - first.lineBreaks }

/-- Drop the beginning of the first chunk. -/
def trimChunk (history : BoundedTerminalHistory) (offset byteLength lineBreaks : ℕ) :
    BoundedTerminalHistory :=
  match history.chunks with
  | [] => history
  | first :: chunks =>
    if offset = first.data.length then history.discardChunk
    else
      { history with
        chunks := ⟨first.data.drop offset, first.byteLength - byteLength,
          first.lineBreaks - lineBreaks⟩ :: chunks
        byteLength := history.byteLength - byteLength
        lineBreaks := history.lineBreaks - lineBreaks }

/-- The position behind some line breaks of a text. -/
def offsetAfterLines (data : CodeUnits) : ℕ → ℕ
  | 0 => 0
  | lines + 1 =>
    let offset := offsetAfterLines data lines
    match (data.drop offset).findIdx? (· = newline) with
    | some index => offset + index + 1
    | none => 0

/-- The loop that drops lines. Every step but the last drops a chunk. -/
def dropLines : ℕ → BoundedTerminalHistory → ℕ → BoundedTerminalHistory
  | 0, history, _ => history
  | fuel + 1, history, linesToDrop =>
    if 0 < linesToDrop then
      match history.chunks with
      | [] => history
      | first :: _ =>
        if first.lineBreaks < linesToDrop then
          dropLines fuel history.discardChunk (linesToDrop - first.lineBreaks)
        else
          let offset := offsetAfterLines first.data linesToDrop
          history.trimChunk offset (Awen.byteLength (first.data.take offset)) linesToDrop
    else history

/-- How much of a text to drop for some bytes: the position, the bytes and the line breaks. A code
point has at least one code unit, so that as many steps as there are code units are enough. -/
def scanBytes (data : CodeUnits) (bytesToDrop : ℕ) : ℕ → ℕ × ℕ × ℕ → ℕ × ℕ × ℕ
  | 0, scanned => scanned
  | fuel + 1, (offset, bytes, lineBreaks) =>
    if bytes < bytesToDrop then
      match headCodePoint (data.drop offset) with
      | none => (offset, bytes, lineBreaks)
      | some codePoint =>
        scanBytes data bytesToDrop fuel (offset + utf16Size codePoint, bytes + utf8Size codePoint,
          if codePoint = 10 then lineBreaks + 1 else lineBreaks)
    else (offset, bytes, lineBreaks)

/-- The loop that drops bytes. Every step but the last drops a chunk. -/
def dropBytes : ℕ → BoundedTerminalHistory → BoundedTerminalHistory
  | 0, history => history
  | fuel + 1, history =>
    if history.maxBytes < history.byteLength then
      match history.chunks with
      | [] => history
      | first :: _ =>
        let bytesToDrop := history.byteLength - history.maxBytes
        if first.byteLength ≤ bytesToDrop then dropBytes fuel history.discardChunk
        else if first.byteLength = first.data.length ∧ first.lineBreaks = 0 then
          -- ASCII needs no scan
          dropBytes fuel (history.trimChunk bytesToDrop bytesToDrop 0)
        else
          let (offset, bytes, lineBreaks) :=
            scanBytes first.data bytesToDrop first.data.length (0, 0, 0)
          dropBytes fuel (history.trimChunk offset bytes lineBreaks)
    else history

/-- Keep to the limits. -/
def trim (history : BoundedTerminalHistory) : BoundedTerminalHistory :=
  let lines := history.lineBreaks + if history.lastCodeUnit = some newline then 0 else 1
  let history := dropLines history.chunks.length history (lines - history.maxLines)
  let history := dropBytes (history.chunks.length + 1) history
  if history.chunks = [] then { history with lastCodeUnit := none } else history

/-! ## Appending -/

/-- How many code units the next chunk has, which does not cut a surrogate pair. -/
def nextChunkEnd (text : CodeUnits) : ℕ :=
  let stop := min maxHistoryChunkLength text.length
  if text[stop - 1]?.any isHighSurrogate && text[stop]?.any isLowSurrogate then stop - 1
  else stop

/-- The loop that appends chunks. A chunk is not empty, so that as many steps as the text is long
are enough. -/
def appendChunks : ℕ → BoundedTerminalHistory → CodeUnits → BoundedTerminalHistory
  | 0, history, _ => history
  | _, history, [] => history
  | fuel + 1, history, text =>
    appendChunks fuel (history.appendChunk (text.take (nextChunkEnd text))).trim
      (text.drop (nextChunkEnd text))

/-- Append the second half of a surrogate pair to the last chunk. The pair has one byte more than
its first half had by itself. -/
def joinSurrogate (history : BoundedTerminalHistory) (low : UInt16) : BoundedTerminalHistory :=
  match history.chunks.getLast? with
  | none => history
  | some previous =>
    { history with
      chunks := history.chunks.dropLast ++
        [{ previous with
          data := previous.data ++ [low], byteLength := previous.byteLength + 1 }]
      byteLength := history.byteLength + 1
      lastCodeUnit := some low }

/-- **Append a text.** -/
def append (history : BoundedTerminalHistory) (text : CodeUnits) : BoundedTerminalHistory :=
  match text with
  | [] => history
  | first :: rest =>
    let history := { history with cachedValue := none }
    if history.maxBytes = 0 ∨ history.maxLines = 0 then
      if 0 < history.maxBytes ∧ text.getLast? = some newline then
        history.clear.appendChunk [newline]
      else history.clear
    else if history.chunks.getLast?.isSome && history.lastCodeUnit.any isHighSurrogate &&
        isLowSurrogate first then
      appendChunks rest.length (history.joinSurrogate first).trim rest
    else appendChunks text.length history text

/-- The text, which is joined when it is asked for, -/
def value (history : BoundedTerminalHistory) : CodeUnits :=
  history.cachedValue.getD (history.chunks.flatMap (·.data))

/-- and remembered. -/
def rememberValue (history : BoundedTerminalHistory) : BoundedTerminalHistory :=
  { history with cachedValue := some history.value }

/-- A history that begins with a text. -/
def create (maxLines : ℕ) (initial : CodeUnits) (maxBytes : ℕ) : BoundedTerminalHistory :=
  append { maxLines, maxBytes } initial

end BoundedTerminalHistory

end Awen.Terminal
