import Awen.Library.Runs
import Awen.Terminal.KeptSequences
import Awen.Terminal.SessionHistory

/-!
# Replaying a stored history

A history is written to a file and read back, and a client replays its text. The sanitizer strips
queries so that a terminal does not answer them again. A run keeps the text free of them as long as
the limits cut it between sequences (`replays_of_run`); a cut inside a kept string can bring out a
query that the string had hidden (`replays_of_run_fails`).
-/

namespace Awen.Terminal

open BoundedTerminalHistory

/-- A terminal session and the file of its history. -/
structure StoredSession where
  session : SessionHistory
  historyFile : Option (List ℕ) := none
  deriving DecidableEq

namespace StoredSession

/-- The end of a history file, and whether it is longer. -/
def readHistoryTail (historyByteLimit : ℕ) (bytes : List ℕ) : CodeUnits × Bool :=
  let offset := bytes.length - historyByteLimit
  let tail := bytes.drop offset
  (decodeUtf8 (if 0 < offset then tail.dropWhile isContinuation else tail), decide (0 < offset))

/-- Read a history back. A file that has more than the limits allow is written anew. -/
def readHistory (maxLines maxBytes : ℕ) (historyFile : Option (List ℕ)) :
    BoundedTerminalHistory × Option (List ℕ) :=
  match historyFile with
  | none => (create maxLines [] maxBytes, none)
  | some bytes =>
    let (raw, truncated) := readHistoryTail maxBytes bytes
    let history := create maxLines raw maxBytes
    let capped := history.value
    (history.rememberValue,
      if truncated ∨ capped ≠ raw then some (encodeUtf8 capped) else some bytes)

/-- What happens to a stored session. -/
inductive Step
  | output (data : CodeUnits)
  /-- A clear, or a restart that clears. -/
  | clear
  /-- The process exits or is stopped. -/
  | endProcess
  /-- The history is written to its file. -/
  | persist
  /-- The manager is started anew and reads the file. -/
  | restore

def step (maxLines maxBytes : ℕ) (stored : StoredSession) : Step → StoredSession
  | .output data => { stored with session := stored.session.output data }
  | .clear =>
    { stored with
      session := { history := stored.session.history.clear, pendingHistoryControlSequence := [] } }
  | .endProcess =>
    { stored with session := { stored.session with pendingHistoryControlSequence := [] } }
  | .persist =>
    { session := stored.session.read
      historyFile := some (encodeUtf8 stored.session.history.value) }
  | .restore =>
    let (history, historyFile) := readHistory maxLines maxBytes stored.historyFile
    { session := { history }, historyFile }

/-- A new session without a file. -/
def start (maxLines maxBytes : ℕ) : StoredSession where
  session := SessionHistory.start maxLines maxBytes []

/-- A text that loses nothing when it is replayed. -/
def Replays (value : CodeUnits) : Prop :=
  let sanitized := sanitizeTerminalHistoryChunk [] value
  sanitized.visibleText ++ sanitized.pendingControlSequence = value

instance (value : CodeUnits) : Decidable (Replays value) :=
  inferInstanceAs (Decidable (_ = value))

/-- The limits cut a text where a sequence begins, or at its end: from there on it fits, and from
one code point before it does not. -/
def CutsBetweenSequences (maxLines maxBytes : ℕ) (text : CodeUnits) : Prop :=
  ∃ n ∈ List.range ((codePoints text).length + 1),
    (codePoints text).drop n ∈ (sequenceScanner.rests text ++ [[]]).map codePoints ∧
      Fits maxLines maxBytes ((codePoints text).drop n) ∧
        (n = 0 ∨ ¬Fits maxLines maxBytes ((codePoints text).drop (n - 1)))

instance (maxLines maxBytes : ℕ) (text : CodeUnits) :
    Decidable (CutsBetweenSequences maxLines maxBytes text) :=
  inferInstanceAs (Decidable (∃ _ ∈ _, _))

/-- The text before a step and what a chunk of output adds to it are cut between sequences. -/
def CutsNoSequence (maxLines maxBytes : ℕ) (stored : StoredSession) : Step → Prop
  | .output data => CutsBetweenSequences maxLines maxBytes (stored.session.history.value ++
      (sanitizeTerminalHistoryChunk stored.session.pendingHistoryControlSequence data).visibleText)
  | _ => True

instance (maxLines maxBytes : ℕ) (stored : StoredSession) :
    (next : Step) → Decidable (CutsNoSequence maxLines maxBytes stored next)
  | .output _ => inferInstanceAs (Decidable (CutsBetweenSequences _ _ _))
  | .clear | .endProcess | .persist | .restore => .isTrue trivial

theorem replays_of_kept {value : CodeUnits} (h : Kept value) : Replays value := by
  rw [Replays, sanitizeTerminalHistoryChunk, List.nil_append]
  exact h.scan_append

variable {maxLines maxBytes : ℕ}

/-! ## What a cut leaves -/

/-- What the limits leave of a text that they cut between sequences. -/
theorem CutsBetweenSequences.longestSuffix_eq {text : CodeUnits}
    (h : CutsBetweenSequences maxLines maxBytes text) :
    ∃ rest, (rest ∈ sequenceScanner.rests text ∨ rest = []) ∧
      longestSuffix (Fits maxLines maxBytes) (codePoints text) = codePoints rest := by
  obtain ⟨n, hn, hmem, hfits, hbefore⟩ := h
  obtain ⟨rest, hrest, heq⟩ := List.mem_map.mp hmem
  refine ⟨rest, ?_, ?_⟩
  · rcases List.mem_append.mp hrest with hrest | hrest
    · exact .inl hrest
    · exact .inr (List.mem_singleton.mp hrest)
  · have hlt : n ≤ (codePoints text).length := Nat.le_of_lt_succ (List.mem_range.mp hn)
    have hsplit := List.take_append_drop n (codePoints text)
    rw [heq]
    conv => lhs; rw [← hsplit]
    refine eq_longestSuffix Fits.of_suffix hfits fun p hp hmore ↦ ?_
    rcases hbefore with rfl | hbefore
    · cases hp
    · cases n with
      | zero => cases hp
      | succ n =>
        refine hbefore ?_
        rw [Nat.succ_sub_one, List.drop_eq_getElem_cons hlt]
        rw [List.getLast?_take] at hp
        simp only [Nat.succ_ne_zero, if_false, Nat.succ_sub_one, List.getElem?_eq_getElem hlt,
          Option.some_or, Option.some_inj] at hp
        rw [hp]
        exact hmore

/-! ## Files -/

theorem toWellFormed_of_mem {s : CodeUnits} {p : ℕ} (hp : p ∈ codePoints s) :
    utf8Size (toWellFormed p) = utf8Size p ∧ (toWellFormed p = 10 ↔ p = 10) ∧
      (utf16 (toWellFormed p)).map blur = (utf16 p).map blur := by
  unfold toWellFormed
  split
  · exact ⟨rfl, Iff.rfl, rfl⟩
  · rename_i hnot
    rcases isScalar_or_surrogate s p hp with hscalar | ⟨hlow, hhigh⟩
    · exact absurd hscalar hnot
    · refine ⟨?_, by omega, ?_⟩
      · unfold utf8Size
        split_ifs <;> omega
      · have hblur : blur (UInt16.ofNat p) = 0xd800 := by
          rw [blur, if_neg]
          rw [UInt16.toNat_ofNat', Nat.mod_eq_of_lt (by omega)]
          omega
        have hunit : utf16 p = [UInt16.ofNat p] := if_pos (by omega)
        rw [hunit, List.map_singleton, hblur]
        decide

/-- A text that is written and read back is the same to the scanner. -/
theorem kept_decodeUtf8_encodeUtf8 {s : CodeUnits} (h : Kept s) :
    Kept (decodeUtf8 (encodeUtf8 s)) := by
  refine h.of_blur ?_
  rw [decodeUtf8_encodeUtf8_eq]
  conv => rhs; rw [← flatMap_codePoints s]
  rw [List.flatMap_map, List.map_flatMap, List.map_flatMap]
  exact List.flatMap_congr fun p hp ↦ (toWellFormed_of_mem hp).2.2

/-- A text that is written and read back is as long and has as many lines. -/
theorem limits_decodeUtf8_encodeUtf8 (s : CodeUnits) :
    utf8Length (codePoints (decodeUtf8 (encodeUtf8 s))) = utf8Length (codePoints s) ∧
      lineCount (codePoints (decodeUtf8 (encodeUtf8 s))) = lineCount (codePoints s) := by
  have hmem := fun p (hp : p ∈ codePoints s) ↦ toWellFormed_of_mem hp
  rw [codePoints_decodeUtf8_encodeUtf8]
  generalize codePoints s = ps at hmem
  constructor
  · rw [utf8Length, utf8Length, List.map_map]
    exact congrArg List.sum (List.map_congr_left fun p hp ↦ (hmem p hp).1)
  · have hcount : (ps.map toWellFormed).count 10 = ps.count 10 := by
      rw [List.count, List.countP_map]
      refine List.countP_congr fun p hp ↦ ?_
      simpa using (hmem p hp).2.1
    have hlast : (ps.map toWellFormed).getLast?.all (· = 10) = ps.getLast?.all (· = 10) := by
      rw [List.getLast?_map]
      cases hlast : ps.getLast? with
      | none => rfl
      | some p => simpa using (hmem p (List.mem_of_getLast? hlast)).2.1
    rw [lineCount, lineCount, hcount, hlast]

theorem length_encodeUtf8_eq (s : CodeUnits) :
    (encodeUtf8 s).length = utf8Length (codePoints s) := by
  rw [encodeUtf8, List.length_flatMap, utf8Length]
  refine congrArg List.sum (List.map_congr_left fun p hp ↦ ?_)
  rw [← (toWellFormed_of_mem hp).1]
  exact length_scalarUtf8 _

/-! ## The invariant -/

/-- **A history that may be written and replayed.** -/
structure Storable (maxLines maxBytes : ℕ) (history : BoundedTerminalHistory) : Prop where
  maxLines_eq : history.maxLines = maxLines
  maxBytes_eq : history.maxBytes = maxBytes
  kept : Kept history.value
  bytes_le : utf8Length (codePoints history.value) ≤ maxBytes
  holds : 1 ≤ maxLines → 1 ≤ maxBytes → history.Holds maxLines maxBytes history.value

/-- A text that a file may have. -/
structure StorableText (maxLines maxBytes : ℕ) (value : CodeUnits) : Prop where
  kept : Kept value
  bytes_le : utf8Length (codePoints value) ≤ maxBytes
  fits : 1 ≤ maxLines → 1 ≤ maxBytes → Fits maxLines maxBytes (codePoints value)

section Storable

variable {history : BoundedTerminalHistory} {whole visible : CodeUnits}

theorem holds_value (h : history.Holds maxLines maxBytes whole) :
    Fits maxLines maxBytes (codePoints history.value) ∧
      history.Holds maxLines maxBytes history.value := by
  have hfits : Fits maxLines maxBytes (codePoints history.value) := by
    rw [h.codePoints_value]
    exact longestSuffix_spec fits_nil _
  refine ⟨hfits, h.counts, h.lastCodeUnit_eq, ?_, h.maxLines_eq, h.maxBytes_eq, h.value_eq⟩
  rw [longestSuffix_of_pos hfits, h.value_eq]
  rfl

theorem storable_of_holds (h : history.Holds maxLines maxBytes whole)
    (hkept : Kept history.value) : Storable maxLines maxBytes history :=
  ⟨h.maxLines_eq, h.maxBytes_eq, hkept, (holds_value h).1.2, fun _ _ ↦ (holds_value h).2⟩

theorem Storable.storableText (h : Storable maxLines maxBytes history) :
    StorableText maxLines maxBytes history.value :=
  ⟨h.kept, h.bytes_le, fun hlines hbytes ↦ (holds_value (h.holds hlines hbytes)).1⟩

theorem storable_empty (maxLines maxBytes : ℕ) :
    Storable maxLines maxBytes { maxLines, maxBytes } :=
  storable_of_holds (holds_nil maxLines maxBytes) .nil

theorem kept_newline : Kept [newline] :=
  @Kept.token [newline] [] (nextSequence_of_isPlain (by decide) []) .nil

/-- Without lines or bytes, a history has no text, or a line break. -/
theorem storable_append_zero (hlines : history.maxLines = maxLines)
    (hbytes : history.maxBytes = maxBytes) (hzero : maxLines = 0 ∨ maxBytes = 0) {text : CodeUnits}
    (htext : text ≠ []) : Storable maxLines maxBytes (history.append text) := by
  subst hlines hbytes
  obtain ⟨first, rest, rfl⟩ := List.exists_cons_of_ne_nil htext
  rw [append]
  dsimp only
  rw [if_pos hzero.symm]
  split
  · rename_i hnewline
    refine ⟨rfl, rfl, kept_newline, ?_, fun hlines hbytes ↦ by omega⟩
    exact hnewline.1
  · exact storable_empty _ _

/-- **Appending** what the sanitizer leaves, if the limits cut no sequence. -/
theorem Storable.append (h : Storable maxLines maxBytes history) (hvisible : Kept visible)
    (hcut : CutsBetweenSequences maxLines maxBytes (history.value ++ visible)) :
    Storable maxLines maxBytes (history.append visible) := by
  by_cases hzero : maxLines = 0 ∨ maxBytes = 0
  · by_cases hnil : visible = []
    · subst hnil
      exact h
    · exact storable_append_zero h.maxLines_eq h.maxBytes_eq hzero hnil
  · have hholds := (h.holds (by omega) (by omega)).append (by omega) (by omega) visible
    obtain ⟨rest, hrest, heq⟩ := hcut.longestSuffix_eq
    rw [← hholds.codePoints_value] at heq
    refine storable_of_holds hholds (codePoints_injective heq ▸ ?_)
    rcases hrest with hmem | rfl
    · exact (h.kept.append hvisible).rests rest hmem
    · exact .nil

theorem Storable.rememberValue (h : Storable maxLines maxBytes history) :
    Storable maxLines maxBytes history.rememberValue :=
  ⟨h.maxLines_eq, h.maxBytes_eq, h.kept, h.bytes_le, fun hlines hbytes ↦
    (h.holds hlines hbytes).rememberValue⟩

/-- **Reading a history back** neither cuts nor changes what the scanner sees. -/
theorem storable_readHistory {historyFile : Option (List ℕ)}
    (h : ∀ bytes, historyFile = some bytes →
      ∃ value, bytes = encodeUtf8 value ∧ StorableText maxLines maxBytes value) :
    Storable maxLines maxBytes (readHistory maxLines maxBytes historyFile).1 ∧
      ∀ bytes, (readHistory maxLines maxBytes historyFile).2 = some bytes →
        ∃ value, bytes = encodeUtf8 value ∧ StorableText maxLines maxBytes value := by
  cases historyFile with
  | none => exact ⟨storable_empty maxLines maxBytes, nofun⟩
  | some bytes =>
    obtain ⟨value, rfl, hvalue⟩ := h bytes rfl
    have htail : readHistoryTail maxBytes (encodeUtf8 value) =
        (decodeUtf8 (encodeUtf8 value), false) := by
      have hzero : (encodeUtf8 value).length - maxBytes = 0 := by
        rw [length_encodeUtf8_eq]
        exact Nat.sub_eq_zero_of_le hvalue.bytes_le
      rw [readHistoryTail, hzero]
      rfl
    obtain ⟨hlength, hcount⟩ := limits_decodeUtf8_encodeUtf8 value
    have hkept := kept_decodeUtf8_encodeUtf8 hvalue.kept
    have hcreate : Storable maxLines maxBytes
        (create maxLines (decodeUtf8 (encodeUtf8 value)) maxBytes) := by
      by_cases hzero : maxLines = 0 ∨ maxBytes = 0
      · by_cases hnil : decodeUtf8 (encodeUtf8 value) = []
        · rw [hnil]
          exact storable_empty maxLines maxBytes
        · exact storable_append_zero (storable_empty maxLines maxBytes).maxLines_eq
            (storable_empty maxLines maxBytes).maxBytes_eq hzero hnil
      · have hholds := @holds_create maxLines maxBytes (by omega) (by omega)
          (decodeUtf8 (encodeUtf8 value))
        have hfits := hvalue.fits (by omega) (by omega)
        rw [Fits, ← hlength, ← hcount] at hfits
        have heq := hholds.codePoints_value
        rw [longestSuffix_of_pos hfits] at heq
        refine storable_of_holds hholds ?_
        rw [codePoints_injective heq]
        exact hkept
    simp only [readHistory, htail]
    refine ⟨hcreate.rememberValue, fun bytes hbytes ↦ ?_⟩
    split at hbytes
    · exact ⟨_, (Option.some_inj.mp hbytes).symm, hcreate.storableText⟩
    · exact ⟨value, (Option.some_inj.mp hbytes).symm, hvalue⟩

end Storable

/-- **A session that may be written, read back and replayed.** -/
structure Ok (maxLines maxBytes : ℕ) (stored : StoredSession) : Prop where
  history : Storable maxLines maxBytes stored.session.history
  historyFile : ∀ bytes, stored.historyFile = some bytes →
    ∃ value, bytes = encodeUtf8 value ∧ StorableText maxLines maxBytes value

theorem ok_start (maxLines maxBytes : ℕ) : Ok maxLines maxBytes (start maxLines maxBytes) :=
  ⟨storable_empty maxLines maxBytes, nofun⟩

/-- **One step.** -/
theorem Ok.step {stored : StoredSession} (h : Ok maxLines maxBytes stored) {next : Step}
    (hnext : CutsNoSequence maxLines maxBytes stored next) :
    Ok maxLines maxBytes (stored.step maxLines maxBytes next) := by
  cases next with
  | output data =>
    refine ⟨?_, h.historyFile⟩
    rw [StoredSession.step, SessionHistory.output_eq]
    exact h.history.append (kept_scan _) hnext
  | clear =>
    refine ⟨?_, h.historyFile⟩
    have hempty := storable_empty maxLines maxBytes
    rw [← h.history.maxLines_eq, ← h.history.maxBytes_eq] at hempty ⊢
    exact hempty
  | endProcess => exact ⟨h.history, h.historyFile⟩
  | persist =>
    refine ⟨h.history.rememberValue, fun bytes hbytes ↦ ?_⟩
    exact ⟨_, (Option.some_inj.mp hbytes).symm, h.history.storableText⟩
  | restore =>
    obtain ⟨hhistory, hfile⟩ := storable_readHistory h.historyFile
    exact ⟨hhistory, hfile⟩

/-- **A stored history is safe to replay** as long as the limits cut no sequence: in every run of
output, clears, ends of processes, writes and restores, the text of the history loses nothing when
it is scanned again. -/
theorem replays_of_run {steps : List Step}
    (h : EveryStep (step maxLines maxBytes) (CutsNoSequence maxLines maxBytes)
      (start maxLines maxBytes) steps) :
    Replays
      (steps.foldl (step maxLines maxBytes) (start maxLines maxBytes)).session.history.value := by
  have hok := h.foldl_invariant (fun _ _ hok ↦ hok.step) (ok_start maxLines maxBytes)
  exact replays_of_kept hok.history.kept

/-- A red line and a query, a title, a restore, and more lines than the limit. -/
theorem replays_of_run_restored :
    let steps : List Step := [.output [0x1b, 0x5b, 0x33, 0x31, 0x6d, 0x61, 0x0a, 0x1b, 0x5b],
      .output [0x36, 0x6e, 0x62], .persist, .restore, .output [0x0a, 0xd83d], .clear,
      .output [0x1b, 0x5d, 0x30, 0x3b, 0x63, 0x07], .endProcess]
    Replays (steps.foldl (step 2 16) (start 2 16)).session.history.value :=
  replays_of_run (by decide +kernel)

/-- A title with a line break and a query in it, and a limit of one line. -/
theorem replays_of_run_fails :
    ¬∀ maxLines maxBytes (steps : List Step), Replays
      (steps.foldl (step maxLines maxBytes) (start maxLines maxBytes)).session.history.value := by
  intro h
  exact absurd (h 1 16 [.output [0x1b, 0x5d, 0x30, 0x3b, 0x0a, 0x1b, 0x5b, 0x36, 0x6e, 0x07]])
    (by decide +kernel)

end StoredSession

end Awen.Terminal
