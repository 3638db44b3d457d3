import Awen.Library.Scanner
import Awen.Library.Unicode

/-!
# What of a terminal's output its history keeps

`sanitizeTerminalHistoryChunk` takes out of the output the queries, and the replies to them, that a
terminal would answer again if they were replayed. It scans the output by control sequences and
holds back one that is cut at the end of a chunk. The scanner is an instance of `Scanner`: what it
has decided about a sequence, more output does not change.
-/

namespace Awen.Terminal

/-! ## Which sequences are stripped -/

def isDigit (u : UInt16) : Bool := decide (0x30 ≤ u ∧ u ≤ 0x39)

/-- `[0-9;?]` -/
def isCsiParameter (u : UInt16) : Bool := isDigit u || u == 0x3b || u == 0x3f

def isCsiFinalByte (u : UInt16) : Bool := decide (0x40 ≤ u ∧ u ≤ 0x7e)

/-- Reports, and queries of the device, of modes, of the version and of the keyboard. -/
def shouldStripCsiSequence (body : CodeUnits) (finalByte : UInt16) : Bool :=
  -- n
  finalByte == 0x6e ||
  -- R, and c with a `>`
  (finalByte == 0x52 && body.all isCsiParameter) ||
  (finalByte == 0x63 && body.all fun u ↦ u == 0x3e || isCsiParameter u) ||
  -- `$p` and `$y`
  ((finalByte == 0x70 || finalByte == 0x79) && body.getLast? == some 0x24 &&
    body.dropLast.all isCsiParameter) ||
  -- `>q`
  (finalByte == 0x71 && body.head? == some 0x3e &&
    body.tail.all fun u ↦ isDigit u || u == 0x3b) ||
  -- `?u`
  (finalByte == 0x75 && body.head? == some 0x3f)

/-- `/^[01]?[$+][qr]/` -/
def shouldStripDcsSequence (content : CodeUnits) : Bool :=
  let request (s : CodeUnits) : Bool :=
    match s with
    | u :: v :: _ => (u == 0x24 || u == 0x2b) && (v == 0x71 || v == 0x72)
    | _ => false
  request content || ((content.head? == some 0x30 || content.head? == some 0x31) &&
    request content.tail)

/-- `/^(10|11|12);(?:\?|rgb:)/` -/
def shouldStripOscSequence (content : CodeUnits) : Bool :=
  match content with
  | 0x31 :: u :: 0x3b :: rest =>
    (u == 0x30 || u == 0x31 || u == 0x32) &&
      (rest.head? == some 0x3f || decide ([0x72, 0x67, 0x62, 0x3a] <+: rest))
  | _ => false

/-- Take the terminator off a string sequence: `ESC \`, a bell or the C1 terminator. -/
def stripStringTerminator (value : CodeUnits) : CodeUnits :=
  if [0x1b, 0x5c] <:+ value then value.take (value.length - 2)
  else if value.getLast? = some 0x07 ∨ value.getLast? = some 0x9c then value.dropLast
  else value

/-! ## Where sequences end -/

/-- The position behind the first terminator of a string. -/
def findStringTerminatorIndex : CodeUnits → Option ℕ
  | [] => none
  | u :: input =>
    if u = 0x07 ∨ u = 0x9c then some 1
    else if u = 0x1b ∧ input.head? = some 0x5c then some 2
    else (findStringTerminatorIndex input).map (· + 1)

def isEscapeIntermediateByte (u : UInt16) : Bool := decide (0x20 ≤ u ∧ u ≤ 0x2f)

def isEscapeFinalByte (u : UInt16) : Bool := decide (0x30 ≤ u ∧ u ≤ 0x7e)

/-- The position behind an escape sequence without its `ESC`, or behind its first code unit if it is
none. -/
def findEscapeSequenceEndIndex (input : CodeUnits) : Option ℕ :=
  let cursor := (input.takeWhile isEscapeIntermediateByte).length
  input[cursor]?.map fun u ↦ if isEscapeFinalByte u then cursor + 1 else 1

/-- A control sequence, given its body behind an introducer of some length. -/
def nextCsi (introducer : ℕ) (body : CodeUnits) : Option (ℕ × Bool) := do
  let cursor ← body.findIdx? isCsiFinalByte
  let finalByte ← body[cursor]?
  return (introducer + cursor + 1, !shouldStripCsiSequence (body.take cursor) finalByte)

/-- The kinds of sequence that have a string in them. -/
inductive StringSequence
  | osc
  | dcs
  | other
  deriving DecidableEq

def StringSequence.strips (kind : StringSequence) (content : CodeUnits) : Bool :=
  match kind with
  | .osc => shouldStripOscSequence content
  | .dcs => shouldStripDcsSequence content
  | .other => false

/-- A string sequence, given what is behind its introducer. -/
def nextString (kind : StringSequence) (introducer : ℕ) (body : CodeUnits) : Option (ℕ × Bool) := do
  let terminatorIndex ← findStringTerminatorIndex body
  return (introducer + terminatorIndex,
    !kind.strips (stripStringTerminator (body.take terminatorIndex)))

/-- The kind of string sequence that a code unit behind `ESC` introduces. -/
def escapeStringKind (u : UInt16) : Option StringSequence :=
  if u = 0x5d then some .osc else if u = 0x50 then some .dcs
  else if u = 0x5e ∨ u = 0x5f then some .other else none

/-- The kind of string sequence that a C1 control introduces. -/
def c1StringKind (u : UInt16) : Option StringSequence :=
  if u = 0x9d then some .osc else if u = 0x90 then some .dcs
  else if u = 0x9e ∨ u = 0x9f then some .other else none

/-- **The loop body of `sanitizeTerminalHistoryChunk`**: how long the sequence at the start of the
input is and whether it is kept, if the input has all of it. -/
def nextSequence : CodeUnits → Option (ℕ × Bool)
  | [] => none
  | u :: input =>
    if u = 0x1b then
      match input with
      | [] => none
      | v :: body =>
        if v = 0x5b then nextCsi 2 body
        else match escapeStringKind v with
          | some kind => nextString kind 2 body
          | none => (findEscapeSequenceEndIndex (v :: body)).map fun length ↦ (length + 1, true)
    else if u = 0x9b then nextCsi 1 input
    else match c1StringKind u with
      | some kind => nextString kind 1 input
      | none => some (1, true)

/-! ## The scanner -/

theorem findStringTerminatorIndex_spec {input : CodeUnits} {n : ℕ}
    (h : findStringTerminatorIndex input = some n) :
    0 < n ∧ n ≤ input.length ∧ ∀ rest, findStringTerminatorIndex (input ++ rest) = some n := by
  induction input generalizing n with
  | nil => cases h
  | cons u input ih =>
    rw [findStringTerminatorIndex] at h
    split_ifs at h with hshort hlong
    · obtain rfl := Option.some_inj.mp h
      refine ⟨Nat.one_pos, by simp, fun rest ↦ ?_⟩
      rw [List.cons_append, findStringTerminatorIndex, if_pos hshort]
    · obtain rfl := Option.some_inj.mp h
      obtain ⟨tail, rfl⟩ := List.head?_eq_some_iff.mp hlong.2
      refine ⟨Nat.two_pos, by simp, fun rest ↦ ?_⟩
      rw [List.cons_append, findStringTerminatorIndex, if_neg hshort, if_pos ⟨hlong.1, rfl⟩]
    · obtain ⟨m, hm, rfl⟩ := Option.map_eq_some_iff.mp h
      obtain ⟨-, hle, happend⟩ := ih hm
      refine ⟨Nat.succ_pos m, Nat.succ_le_succ hle, fun rest ↦ ?_⟩
      have hnext : ¬(u = 0x1b ∧ (input ++ rest).head? = some 0x5c) := by
        -- the input goes on behind an `ESC`, because a terminator is in it
        cases input with
        | nil => cases hm
        | cons v input => exact hlong
      rw [List.cons_append, findStringTerminatorIndex, if_neg hshort, if_neg hnext, happend]
      rfl

theorem findEscapeSequenceEndIndex_spec {input : CodeUnits} {n : ℕ}
    (h : findEscapeSequenceEndIndex input = some n) :
    0 < n ∧ n ≤ input.length ∧ ∀ rest, findEscapeSequenceEndIndex (input ++ rest) = some n := by
  obtain ⟨u, hu, rfl⟩ := Option.map_eq_some_iff.mp h
  obtain ⟨hlt, -⟩ := List.getElem?_eq_some_iff.mp hu
  have htake (rest : CodeUnits) : (input ++ rest).takeWhile isEscapeIntermediateByte =
      input.takeWhile isEscapeIntermediateByte := by
    rw [List.takeWhile_append, if_neg (Nat.ne_of_lt hlt)]
  refine ⟨?_, ?_, fun rest ↦ ?_⟩
  · split <;> omega
  · split <;> omega
  · rw [findEscapeSequenceEndIndex, htake, List.getElem?_append_left hlt, hu]
    rfl

theorem nextCsi_spec {introducer : ℕ} {body : CodeUnits} {token : ℕ × Bool}
    (h : nextCsi introducer body = some token) :
    introducer < token.1 ∧ token.1 ≤ introducer + body.length ∧
      ∀ rest, nextCsi introducer (body ++ rest) = some token := by
  simp only [nextCsi, Option.bind_eq_bind, Option.bind_eq_some_iff] at h
  obtain ⟨cursor, hcursor, finalByte, hfinal, h⟩ := h
  obtain rfl := Option.some_inj.mp h
  obtain ⟨hlt, -⟩ := List.getElem?_eq_some_iff.mp hfinal
  refine ⟨by omega, by omega, fun rest ↦ ?_⟩
  simp only [nextCsi, List.findIdx?_append, hcursor, Option.bind_eq_bind, Option.some_or,
    Option.bind_some, List.getElem?_append_left hlt, hfinal,
    List.take_append_of_le_length (Nat.le_of_lt hlt)]
  rfl

theorem nextString_spec {kind : StringSequence} {introducer : ℕ} {body : CodeUnits}
    {token : ℕ × Bool} (h : nextString kind introducer body = some token) :
    introducer < token.1 ∧ token.1 ≤ introducer + body.length ∧
      ∀ rest, nextString kind introducer (body ++ rest) = some token := by
  simp only [nextString, Option.bind_eq_bind, Option.bind_eq_some_iff] at h
  obtain ⟨n, hn, h⟩ := h
  obtain rfl := Option.some_inj.mp h
  obtain ⟨hpos, hle, happend⟩ := findStringTerminatorIndex_spec hn
  refine ⟨by omega, by omega, fun rest ↦ ?_⟩
  simp only [nextString, happend, Option.bind_eq_bind, Option.bind_some,
    List.take_append_of_le_length hle]
  rfl

theorem nextSequence_spec {input : CodeUnits} {token : ℕ × Bool}
    (h : nextSequence input = some token) :
    0 < token.1 ∧ token.1 ≤ input.length ∧
      ∀ rest, nextSequence (input ++ rest) = some token := by
  cases input with
  | nil => cases h
  | cons u input =>
    rw [nextSequence.eq_def] at h
    dsimp only at h
    split_ifs at h with hescape hc1
    · cases input with
      | nil => cases h
      | cons v body =>
        dsimp only at h
        split_ifs at h with hcsi
        · obtain ⟨hlt, hle, happend⟩ := nextCsi_spec h
          refine ⟨by omega, by simp only [List.length_cons]; omega, fun rest ↦ ?_⟩
          rw [List.cons_append, List.cons_append, nextSequence.eq_def]
          dsimp only
          rw [if_pos hescape, if_pos hcsi]
          exact happend rest
        · split at h
          · rename_i kind hkind
            obtain ⟨hlt, hle, happend⟩ := nextString_spec h
            refine ⟨by omega, by simp only [List.length_cons]; omega, fun rest ↦ ?_⟩
            rw [List.cons_append, List.cons_append, nextSequence.eq_def]
            dsimp only
            rw [if_pos hescape, if_neg hcsi, hkind]
            exact happend rest
          · rename_i hkind
            obtain ⟨n, hn, rfl⟩ := Option.map_eq_some_iff.mp h
            obtain ⟨hpos, hle, happend⟩ := findEscapeSequenceEndIndex_spec hn
            refine ⟨Nat.succ_pos n, Nat.succ_le_succ hle, fun rest ↦ ?_⟩
            rw [List.cons_append, List.cons_append, nextSequence.eq_def]
            dsimp only
            rw [if_pos hescape, if_neg hcsi, hkind]
            dsimp only
            rw [← List.cons_append, happend]
            rfl
    · obtain ⟨hlt, hle, happend⟩ := nextCsi_spec h
      refine ⟨by omega, by simp only [List.length_cons]; omega, fun rest ↦ ?_⟩
      rw [List.cons_append, nextSequence.eq_def]
      dsimp only
      rw [if_neg hescape, if_pos hc1]
      exact happend rest
    · split at h
      · rename_i kind hkind
        obtain ⟨hlt, hle, happend⟩ := nextString_spec h
        refine ⟨by omega, by simp only [List.length_cons]; omega, fun rest ↦ ?_⟩
        rw [List.cons_append, nextSequence.eq_def]
        dsimp only
        rw [if_neg hescape, if_neg hc1, hkind]
        exact happend rest
      · rename_i hkind
        obtain rfl := Option.some_inj.mp h
        refine ⟨Nat.one_pos, by simp, fun rest ↦ ?_⟩
        rw [List.cons_append, nextSequence.eq_def]
        dsimp only
        rw [if_neg hescape, if_neg hc1, hkind]

/-- **The scanner of control sequences.** -/
def sequenceScanner : Scanner UInt16 where
  next := nextSequence
  next_pos h := (nextSequence_spec h).1
  next_le h := (nextSequence_spec h).2.1
  next_append rest h := (nextSequence_spec h).2.2 rest

/-- What a chunk of output leaves. -/
structure SanitizedChunk where
  visibleText : CodeUnits
  pendingControlSequence : CodeUnits
  deriving DecidableEq

/-- **Strip queries from a chunk of output**, behind a sequence that was cut. -/
def sanitizeTerminalHistoryChunk (pendingControlSequence data : CodeUnits) : SanitizedChunk :=
  let (visibleText, pending) := sequenceScanner.scan (pendingControlSequence ++ data)
  ⟨visibleText, pending⟩

end Awen.Terminal
