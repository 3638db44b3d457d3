import Awen.Library.Unicode

/-!
# The output of a terminal at a client

A client retains the last output of a terminal in chunks, each with its UTF-16 offset in the stream
since the last reset and with its length in UTF-8. Readers follow the stream with cursors and are
told to start over where what they lack is not retained any more.
-/

namespace Awen.Terminal

/-! ## State -/

structure TerminalOutputChunk where
  /-- The UTF-16 offset within this generation and reset. -/
  startOffset : ℕ
  data : CodeUnits
  byteLength : ℕ
  deriving DecidableEq

structure TerminalOutputState where
  generation : ℤ
  chunks : List TerminalOutputChunk
  retainedBytes : ℕ
  resetVersion : ℤ
  nextOffset : ℕ
  deriving DecidableEq

structure TerminalOutputCursor where
  generation : ℤ
  resetVersion : ℤ
  offset : ℕ
  deriving DecidableEq

/-- The cursor of a reader that has read nothing, which forces a reset. -/
def initialTerminalOutputCursor : TerminalOutputCursor := ⟨-1, -1, 0⟩

inductive TerminalOutputUpdate
  | none (cursor : TerminalOutputCursor)
  | reset (cursor : TerminalOutputCursor) (data : CodeUnits)
  | append (cursor : TerminalOutputCursor) (data : CodeUnits)
  deriving DecidableEq

def defaultTerminalChunkBytes : ℕ := 16 * 1024
def maxTerminalOutputChunks : ℕ := 1024

def emptyTerminalOutputState : TerminalOutputState := ⟨0, [], 0, 0, 0⟩

/-! ## Splitting and trimming -/

structure Utf8Chunk where
  data : CodeUnits
  byteLength : ℕ

/-- Step back from a position to a byte that begins a code point. -/
def backToCodePoint (encoded : List ℕ) : ℕ → ℕ
  | 0 => 0
  | position + 1 =>
    if encoded[position + 1]?.any isContinuation then backToCodePoint encoded position
    else position + 1

/-- Step forward from a position to a byte that begins a code point. -/
def forwardToCodePoint (encoded : List ℕ) (position : ℕ) : ℕ :=
  position + ((encoded.drop position).takeWhile isContinuation).length

/-- How many of the remaining bytes the next chunk has. -/
def nextChunkLength (remaining : List ℕ) (maxBytes : ℕ) : ℕ :=
  let limit := min maxBytes remaining.length
  match backToCodePoint remaining limit with
  -- a budget smaller than one code point takes the whole code point
  | 0 => forwardToCodePoint remaining limit
  | length + 1 => length + 1

/-- The loop of `splitStringByUtf8Bytes` over the bytes from its offset on. A chunk has at least one
byte, so that as many steps as there are bytes are enough. -/
def splitUtf8Bytes (maxBytes : ℕ) : ℕ → List ℕ → List Utf8Chunk
  | 0, _ => []
  | _, [] => []
  | fuel + 1, remaining =>
    let bytes := remaining.take (nextChunkLength remaining maxBytes)
    ⟨decodeUtf8 bytes, bytes.length⟩ ::
      splitUtf8Bytes maxBytes fuel (remaining.drop (nextChunkLength remaining maxBytes))

/-- Split a string into chunks of at most `maxBytes` bytes, without cutting a code point. -/
def splitStringByUtf8Bytes (data : CodeUnits) (maxBytes : ℕ) : List Utf8Chunk :=
  if data.length = 0 then []
  else
    let encoded := encodeUtf8 data
    if encoded.length ≤ maxBytes then [⟨data, encoded.length⟩]
    else splitUtf8Bytes maxBytes encoded.length encoded

/-- The end of a string that fits into a budget. -/
def trimBufferToBytes (buffer : CodeUnits) (maxBufferBytes : ℕ) : CodeUnits :=
  if maxBufferBytes = 0 then []
  else
    let encoded := encodeUtf8 buffer
    if encoded.length ≤ maxBufferBytes then buffer
    else decodeUtf8 (encoded.drop (forwardToCodePoint encoded (encoded.length - maxBufferBytes)))

/-- Place chunks one after the other from an offset on. -/
def placeChunks : ℕ → List Utf8Chunk → List TerminalOutputChunk
  | _, [] => []
  | nextOffset, chunk :: chunks =>
    ⟨nextOffset, chunk.data, chunk.byteLength⟩ ::
      placeChunks (nextOffset + chunk.data.length) chunks

structure SplitOutput where
  chunks : List TerminalOutputChunk
  nextOffset : ℕ
  byteLength : ℕ

def splitOutputChunks (data : CodeUnits) (firstOffset maxChunkBytes : ℕ) : SplitOutput :=
  let split := splitStringByUtf8Bytes data maxChunkBytes
  { chunks := placeChunks firstOffset split
    nextOffset := firstOffset + (split.map (·.data.length)).sum
    byteLength := (split.map (·.byteLength)).sum }

/-- One step of `compactRetainedChunks`. -/
def compactChunk (compacted : List TerminalOutputChunk) (chunk : TerminalOutputChunk) :
    List TerminalOutputChunk :=
  match compacted.getLast? with
  | none => compacted ++ [chunk]
  | some previous =>
    if previous.startOffset + previous.data.length = chunk.startOffset ∧
        previous.byteLength + chunk.byteLength ≤ defaultTerminalChunkBytes then
      compacted.dropLast ++ [{
        startOffset := previous.startOffset
        data := previous.data ++ chunk.data
        byteLength := previous.byteLength + chunk.byteLength }]
    else compacted ++ [chunk]

/-- Merge adjacent chunks without changing their positions. -/
def compactRetainedChunks (chunks : List TerminalOutputChunk) : List TerminalOutputChunk :=
  chunks.foldl compactChunk []

/-- The loop of `trimOutputChunkStart`: the offset and the bytes of the code points it drops. A code
point has at least one code unit, so that as many steps as there are code units are enough. -/
def scanDropped (data : CodeUnits) (bytesToDrop : ℕ) : ℕ → ℕ → ℕ → ℕ × ℕ
  | 0, offset, droppedBytes => (offset, droppedBytes)
  | fuel + 1, offset, droppedBytes =>
    if droppedBytes < bytesToDrop then
      match headCodePoint (data.drop offset) with
      | none => (offset, droppedBytes)
      | some codePoint =>
        scanDropped data bytesToDrop fuel (offset + utf16Size codePoint)
          (droppedBytes + utf8Size codePoint)
    else (offset, droppedBytes)

def trimOutputChunkStart (chunk : TerminalOutputChunk) (bytesToDrop : ℕ) : TerminalOutputChunk :=
  let dropped := scanDropped chunk.data bytesToDrop chunk.data.length 0 0
  { startOffset := chunk.startOffset + dropped.1
    data := chunk.data.drop dropped.1
    byteLength := chunk.byteLength - dropped.2 }

/-! ## Operations -/

/-- The loop of `appendOutput` that drops chunks, and trims one, until the rest fits. -/
def dropExcess (maxBufferBytes : ℕ) : ℕ → List TerminalOutputChunk → ℕ × List TerminalOutputChunk
  | retainedBytes, [] => (retainedBytes, [])
  | retainedBytes, first :: chunks =>
    if maxBufferBytes < retainedBytes then
      let bytesToDrop := retainedBytes - maxBufferBytes
      if bytesToDrop < first.byteLength then
        let trimmed := trimOutputChunkStart first bytesToDrop
        (retainedBytes - (first.byteLength - trimmed.byteLength),
          if 0 < trimmed.byteLength then trimmed :: chunks else chunks)
      else dropExcess maxBufferBytes (retainedBytes - first.byteLength) chunks
    else (retainedBytes, first :: chunks)

/-- Merge the chunks if there are too many, and drop the first if there still are. -/
def limitChunks (retainedBytes : ℕ) (chunks : List TerminalOutputChunk) :
    ℕ × List TerminalOutputChunk :=
  if maxTerminalOutputChunks < chunks.length then
    let compacted := compactRetainedChunks chunks
    let excessChunks := compacted.length - maxTerminalOutputChunks
    (retainedBytes - ((compacted.take excessChunks).map (·.byteLength)).sum,
      compacted.drop excessChunks)
  else (retainedBytes, chunks)

/-- **New output.** -/
def appendOutput (current : TerminalOutputState) (data : CodeUnits) (maxBufferBytes : ℕ) :
    TerminalOutputState :=
  if data.length = 0 then current
  else if maxBufferBytes = 0 then
    { current with
      chunks := []
      retainedBytes := 0
      resetVersion := current.resetVersion + 1
      nextOffset := current.nextOffset + data.length }
  else
    let appended := splitOutputChunks data current.nextOffset
      (min defaultTerminalChunkBytes (max 1 maxBufferBytes))
    let kept := dropExcess maxBufferBytes (current.retainedBytes + appended.byteLength)
      (current.chunks ++ appended.chunks)
    let limited := limitChunks kept.1 kept.2
    { current with
      chunks := limited.2
      retainedBytes := limited.1
      nextOffset := appended.nextOffset }

/-- **Output that takes the place of all there was.** -/
def resetOutput (current : TerminalOutputState) (data : CodeUnits) (maxBufferBytes : ℕ) :
    TerminalOutputState :=
  let reset := splitOutputChunks (trimBufferToBytes data maxBufferBytes) 0
    (min defaultTerminalChunkBytes (max 1 maxBufferBytes))
  { generation := current.generation
    chunks := reset.chunks
    retainedBytes := reset.byteLength
    resetVersion := current.resetVersion + 1
    nextOffset := reset.nextOffset }

/-- The text that is retained. -/
def terminalOutputText (output : TerminalOutputState) : CodeUnits :=
  output.chunks.flatMap (·.data)

/-- The offset of the first code unit that is retained. -/
def firstOffset (output : TerminalOutputState) : ℕ :=
  (output.chunks.head?.map (·.startOffset)).getD output.nextOffset

/-- **What a reader is told.** -/
def readTerminalOutputUpdate (output : TerminalOutputState) (cursor : TerminalOutputCursor) :
    TerminalOutputUpdate :=
  let nextCursor : TerminalOutputCursor :=
    ⟨output.generation, output.resetVersion, output.nextOffset⟩
  if cursor.generation ≠ output.generation ∨ cursor.resetVersion ≠ output.resetVersion ∨
      cursor.offset < firstOffset output then
    .reset nextCursor (terminalOutputText output)
  else
    let appended := output.chunks.filter fun chunk ↦
      cursor.offset < chunk.startOffset + chunk.data.length
    if appended = [] then .none nextCursor
    else .append nextCursor
      (appended.flatMap fun chunk ↦ chunk.data.drop (cursor.offset - chunk.startOffset))

end Awen.Terminal
