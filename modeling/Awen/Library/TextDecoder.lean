import Awen.Library.Transducers
import Awen.Library.Unicode

/-!
# The streaming text decoder

`new TextDecoder()` of the web platform, fed with pieces: the UTF-8 decoder, which takes a byte
order mark off the start. With `stream: true` a piece is fed, without it the decoder is flushed
behind the piece and starts over.
-/

namespace Awen

/-- A text decoder between two bytes. -/
structure TextDecoder where
  utf8 : Utf8Decoder := {}
  /-- Some code point has been read. -/
  markSeen : Bool := false
  deriving DecidableEq

/-- Take a byte order mark off the first code point. -/
def skipMark (markSeen : Bool) : List ℕ → List ℕ × Bool
  | [] => ([], markSeen)
  | p :: ps => if !markSeen && p == 0xfeff then (ps, true) else (p :: ps, true)

/-- The decoder as a transducer from bytes to code units. -/
def textDecoder : Transducer TextDecoder ℕ UInt16 where
  start := {}
  step decoder byte :=
    let decoded := decoder.utf8.step byte
    let marked := skipMark decoder.markSeen decoded.1
    (marked.1.flatMap utf16, { utf8 := decoded.2, markSeen := marked.2 })
  flush decoder := if decoder.utf8.needed = 0 then [] else utf16 0xfffd

/-- `decoder.decode(bytes, { stream })`. -/
def TextDecoder.decode (decoder : TextDecoder) (bytes : List ℕ) (stream : Bool) :
    CodeUnits × TextDecoder :=
  let fed := textDecoder.feed decoder bytes
  if stream then fed else (fed.1 ++ textDecoder.flush fed.2, {})

/-- The bytes stop inside a code point. -/
def EndsInsideCharacter (bytes : List ℕ) : Prop :=
  (textDecoder.feed textDecoder.start bytes).2.utf8.needed ≠ 0

instance (bytes : List ℕ) : Decidable (EndsInsideCharacter bytes) :=
  inferInstanceAs (Decidable (_ ≠ _))

theorem flush_textDecoder_eq_nil {bytes : List ℕ} :
    textDecoder.flush (textDecoder.feed textDecoder.start bytes).2 = [] ↔
      ¬EndsInsideCharacter bytes := by
  rw [EndsInsideCharacter, not_not]
  change (if _ then _ else _) = _ ↔ _
  split
  next h => exact iff_of_true rfl h
  next h => exact iff_of_false (by decide) h

theorem flush_textDecoder_of_endsInside {bytes : List ℕ} (h : EndsInsideCharacter bytes) :
    textDecoder.flush (textDecoder.feed textDecoder.start bytes).2 = [0xfffd] :=
  (if_neg h).trans (by decide)

end Awen
