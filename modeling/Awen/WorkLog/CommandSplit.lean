import Awen.Composer.ContextReferences
import Awen.Library.IndexLoop

/-!
# The first command of a command line

A command line is cut behind its first command: `splitFirstShellCommand` looks for the first
operator or line end that is not inside quotes, substitutions, comments and here-strings. The lines
of a here-document do not separate commands; what stands behind the first operator and what follows
the here-documents make up the rest then.

`shortens_splitFirstShellCommand` says that the rest is always shorter than the command line.
-/

namespace Awen.WorkLog

open Composer (isSpaceUnit trimEnd)

/-! ## Texts -/

def trimStart (s : CodeUnits) : CodeUnits := s.dropWhile isSpaceUnit

/-- `s.slice(start, end)` for positions of the text. -/
def slice (s : CodeUnits) (start stop : ℕ) : CodeUnits := (s.take stop).drop start

/-- `text || null` -/
def nonempty? (text : CodeUnits) : Option CodeUnits := if text = [] then none else some text

/-- `"` or `'` -/
def isQuoteUnit (u : UInt16) : Bool := u == 0x22 || u == 0x27

theorem length_trim_le (s : CodeUnits) : (Composer.trim s).length ≤ s.length := by
  rw [Composer.trim, trimEnd]
  exact (List.rdropWhile_prefix _ _).length_le.trans (List.dropWhile_suffix _).length_le

theorem length_slice (s : CodeUnits) (start stop : ℕ) :
    (slice s start stop).length ≤ stop - start := by
  rw [slice, List.length_drop, List.length_take]
  omega

/-! ## Comments -/

structure ShellCommentRange where
  start : ℕ
  stop : ℕ

/-- The command up to a position, without the comments in it. -/
def commandWithoutShellComments (command : CodeUnits) (stop : ℕ) :
    List ShellCommentRange → ℕ → CodeUnits
  | [], cursor => slice command cursor stop
  | comment :: comments, cursor =>
    if stop ≤ comment.start then slice command cursor stop
    else slice command cursor comment.start ++
      commandWithoutShellComments command stop comments (min comment.stop stop)

/-! ## Here-documents -/

structure Heredoc where
  delimiter : CodeUnits
  stripTabs : Bool

/-- What has been read of a delimiter. -/
structure DelimiterState where
  delimiter : CodeUnits := []
  quote : Option UInt16 := none
  escaping : Bool := false

/-- One unit of a delimiter, at a position. -/
def readDelimiterUnit (index : ℕ) (character : UInt16) (s : DelimiterState) :
    LoopStep DelimiterState (DelimiterState × ℕ) :=
  if s.escaping then
    .next { s with delimiter := s.delimiter ++ [character], escaping := false } 0
  else if character = 0x5c ∧ s.quote ≠ some 0x27 then .next { s with escaping := true } 0
  else if s.quote ≠ none then
    if s.quote = some character then .next { s with quote := none } 0
    else .next { s with delimiter := s.delimiter ++ [character] } 0
  else if isQuoteUnit character then .next { s with quote := some character } 0
  else if isSpaceUnit character || (unitsOf ";&|<>()").contains character then .stop (s, index)
  else .next { s with delimiter := s.delimiter ++ [character] } 0

/-- The delimiter of a here-document from a position on, and the position behind it. -/
def readHeredocDelimiter (command : CodeUnits) (start : ℕ) (stripTabs : Bool) :
    Option (Heredoc × ℕ) :=
  let blanks := ((command.drop start).takeWhile fun u ↦ u == 0x20 || u == 0x09).length
  let (s, stop) := indexLoop readDelimiterUnit (fun s ↦ (s, command.length)) 0 (start + blanks) {}
    (command.drop (start + blanks))
  if s.delimiter = [] ∨ s.quote ≠ none ∨ s.escaping = true then none
  else some ({ delimiter := s.delimiter, stripTabs }, stop)

/-- A line is the delimiter of a here-document. -/
def Heredoc.endsAt (heredoc : Heredoc) (line : CodeUnits) : Bool :=
  let line := if line.getLast? = some 0x0d then line.dropLast else line
  (if heredoc.stripTabs then line.dropWhile (· == 0x09) else line) == heredoc.delimiter

/-- What follows a here-document, in what is left of a command whose present line is `line` so far;
`none` if the here-document does not end. -/
def afterHeredoc (heredoc : Heredoc) : CodeUnits → CodeUnits → Option CodeUnits
  | line, [] => if heredoc.endsAt line then some [] else none
  | line, character :: rest =>
    if character = 0x0a then
      if heredoc.endsAt line then some rest else afterHeredoc heredoc [] rest
    else afterHeredoc heredoc (line ++ [character]) rest

/-- What follows the here-documents of a command. -/
def commandAfterHeredocs (command : CodeUnits) (start : ℕ) (heredocs : List Heredoc) :
    Option CodeUnits :=
  (heredocs.foldlM (fun rest heredoc ↦ afterHeredoc heredoc [] rest) (command.drop start)).bind
    fun rest ↦ nonempty? (Composer.trim rest)

/-! ## The split -/

structure ShellCommandSplit where
  firstCommand : CodeUnits
  remainingCommand : Option CodeUnits
  separator : Option CodeUnits
  deriving DecidableEq

structure ShellSeparator where
  index : ℕ
  length : ℕ

/-- What the split knows at a position. -/
structure SplitState where
  quote : Option UInt16 := none
  powerShellHereStringQuote : Option UInt16 := none
  escaping : Bool := false
  inBackticks : Bool := false
  inComment : Bool := false
  substitutionDepth : ℕ := 0
  parameterExpansionDepth : ℕ := 0
  heredocs : List Heredoc := []
  comments : List ShellCommentRange := []
  commentStart : ℕ := 0
  separatorBeforeHeredocs : Option ShellSeparator := none

abbrev SplitStep := LoopStep SplitState ShellCommandSplit

section

variable (command : CodeUnits) (index : ℕ) (character : UInt16) (s : SplitState)

/-- `command[index - 1]` -/
def before? : Option UInt16 := if index = 0 then none else command[index - 1]?

/-- The split at the line end behind the operators that here-documents follow. -/
def splitAtHeredocs : ShellCommandSplit :=
  let stop := (s.separatorBeforeHeredocs.map (·.index)).getD index
  let commandBeforeHeredocs := match s.separatorBeforeHeredocs with
    | some separator => Composer.trim (slice command (separator.index + separator.length) index)
    | none => []
  let remaining := match nonempty? commandBeforeHeredocs,
      commandAfterHeredocs command (index + 1) s.heredocs with
    | some before, some after => before ++ [0x0a] ++ after
    | some before, none => before
    | none, after => after.getD []
  { firstCommand := trimStart (commandWithoutShellComments command stop s.comments 0)
    remainingCommand := nonempty? remaining
    separator := match s.separatorBeforeHeredocs with
      | some separator => some (slice command separator.index (separator.index + separator.length))
      | none => some [0x0a] }

/-- The split at an operator. -/
def splitAtOperator (length : ℕ) : ShellCommandSplit where
  firstCommand := trimStart (commandWithoutShellComments command index s.comments 0)
  remainingCommand := nonempty? (Composer.trim (trimStart (command.drop (index + length))))
  separator := some (slice command index (index + length))

/-- A unit that may separate commands. -/
def splitAtUnit : SplitStep :=
  let next := command[index + 1]?
  if character = 0x3c ∧ next = some 0x3c ∧ command[index + 2]? ≠ some 0x3c then
    let stripTabs := command[index + 2]? == some 0x2d
    match readHeredocDelimiter command (index + if stripTabs then 3 else 2) stripTabs with
    | none => .stop ⟨Composer.trim command, none, none⟩
    | some (heredoc, stop) =>
      .next { s with heredocs := s.heredocs ++ [heredoc] } (stop - 1 - index)
  else
    let isDoubleOperator := (character == 0x26 && next == some 0x26) ||
      (character == 0x7c && (next == some 0x7c || next == some 0x26))
    let isRedirectionAmpersand := character == 0x26 && (before? command index == some 0x3e ||
      before? command index == some 0x3c || next == some 0x3e)
    if (!isDoubleOperator && !(unitsOf ";&|\n").contains character) || isRedirectionAmpersand then
      .next s 0
    else if character = 0x0a ∧ s.heredocs ≠ [] then .stop (splitAtHeredocs command index s)
    else
      let length := if isDoubleOperator then 2 else 1
      if s.heredocs ≠ [] then
        .next { s with
          separatorBeforeHeredocs := s.separatorBeforeHeredocs.or (some ⟨index, length⟩) }
          (if isDoubleOperator then 1 else 0)
      else .stop (splitAtOperator command index s length)

/-- A unit outside quotes, comments and here-strings. -/
def splitAtPlainUnit : SplitStep :=
  let next := command[index + 1]?
  if character = 0x40 ∧ (next = some 0x22 ∨ next = some 0x27) ∧
      (command[index + 2]? = some 0x0a ∨
        (command[index + 2]? = some 0x0d ∧ command[index + 3]? = some 0x0a)) then
    .next { s with powerShellHereStringQuote := next } 1
  else if isQuoteUnit character then .next { s with quote := some character } 0
  else if character = 0x60 then .next { s with inBackticks := true } 0
  else if character = 0x23 ∧ (before? command index).all
      (fun u ↦ isSpaceUnit u || (unitsOf ";&|(").contains u) then
    .next { s with inComment := true, commentStart := index } 0
  else if character = 0x24 ∧ next = some 0x7b then
    .next { s with parameterExpansionDepth := s.parameterExpansionDepth + 1 } 1
  else if character = 0x7b ∧ 0 < s.parameterExpansionDepth then
    .next { s with parameterExpansionDepth := s.parameterExpansionDepth + 1 } 0
  else if character = 0x7d ∧ 0 < s.parameterExpansionDepth then
    .next { s with parameterExpansionDepth := s.parameterExpansionDepth - 1 } 0
  else if character = 0x28 then
    .next { s with substitutionDepth := s.substitutionDepth + 1 } 0
  else if character = 0x29 ∧ 0 < s.substitutionDepth then
    .next { s with substitutionDepth := s.substitutionDepth - 1 } 0
  else if 0 < s.substitutionDepth ∨ 0 < s.parameterExpansionDepth then .next s 0
  else splitAtUnit command index character s

/-- A unit outside comments and here-strings. -/
def splitAtCommandUnit : SplitStep :=
  if s.escaping then .next { s with escaping := false } 0
  else if character = 0x5c ∧ s.quote ≠ some 0x27 then .next { s with escaping := true } 0
  else if s.inBackticks then
    .next (if character = 0x60 then { s with inBackticks := false } else s) 0
  else if s.quote ≠ none then
    .next (if s.quote = some character then { s with quote := none } else s) 0
  else splitAtPlainUnit command index character s

/-- One position of the split. -/
def splitStep : SplitStep :=
  if s.powerShellHereStringQuote ≠ none then
    if s.powerShellHereStringQuote = some character ∧ command[index + 1]? = some 0x40 ∧
        (before? command index).all (· == 0x0a) then
      .next { s with powerShellHereStringQuote := none } 1
    else .next s 0
  else if s.inComment then
    -- the line end that ends a comment is read on
    if character ≠ 0x0a then .next s 0
    else splitAtCommandUnit command index character
      { s with inComment := false, comments := s.comments ++ [⟨s.commentStart, index⟩] }
  else splitAtCommandUnit command index character s

/-- The split of a command line that is one command. -/
def splitAtEnd : ShellCommandSplit where
  firstCommand := Composer.trim (commandWithoutShellComments command command.length
    (if s.inComment then s.comments ++ [⟨s.commentStart, command.length⟩] else s.comments) 0)
  remainingCommand := none
  separator := none

end

/-- **The first command of a command line**, and the rest. -/
def splitFirstShellCommand (command : CodeUnits) : ShellCommandSplit :=
  indexLoop (splitStep command) (splitAtEnd command) 0 0 {} command

/-! ## The rest is shorter -/

/-- What is left of a split is shorter than the command line. -/
def ShellCommandSplit.Shortens (split : ShellCommandSplit) (command : CodeUnits) : Prop :=
  ∀ remaining ∈ split.remainingCommand, remaining.length < command.length

/-- The operator before the here-documents, if there is one, is behind the start and before a
position. -/
def SplitState.Behind (s : SplitState) (index : ℕ) : Prop :=
  ∀ separator ∈ s.separatorBeforeHeredocs,
    1 ≤ separator.length ∧ separator.index + separator.length ≤ index

theorem mem_nonempty? {text part : CodeUnits} (h : part ∈ nonempty? text) : part = text := by
  rw [nonempty?] at h
  split at h
  next => exact nomatch h
  next => exact (Option.some.inj h).symm

theorem length_afterHeredoc {heredoc : Heredoc} {line rest after : CodeUnits}
    (h : afterHeredoc heredoc line rest = some after) : after.length ≤ rest.length := by
  induction rest generalizing line with
  | nil =>
    rw [afterHeredoc] at h
    split at h
    next => exact (Option.some.inj h ▸ Nat.le_refl _)
    next => exact nomatch h
  | cons character rest ih =>
    rw [afterHeredoc] at h
    rw [List.length_cons]
    split at h
    next =>
      split at h
      next => exact Option.some.inj h ▸ Nat.le_succ _
      next => exact Nat.le_succ_of_le (ih h)
    next => exact Nat.le_succ_of_le (ih h)

/-- The here-documents of a command are taken off what follows it. -/
theorem length_afterHeredocs {heredocs : List Heredoc} {rest after : CodeUnits}
    (h : heredocs.foldlM (fun rest heredoc ↦ afterHeredoc heredoc [] rest) rest = some after) :
    after.length ≤ rest.length := by
  induction heredocs generalizing rest with
  | nil => exact Option.some.inj h ▸ Nat.le_refl _
  | cons heredoc heredocs ih =>
    obtain ⟨next, hnext, hafter⟩ := Option.bind_eq_some_iff.mp h
    exact (ih hafter).trans (length_afterHeredoc hnext)

variable {command : CodeUnits} {index : ℕ} {character : UInt16} {s s' : SplitState}

theorem length_commandAfterHeredocs {start : ℕ} {heredocs : List Heredoc} {after : CodeUnits}
    (h : commandAfterHeredocs command start heredocs = some after) :
    after.length ≤ command.length - start := by
  obtain ⟨rest, hrest, hafter⟩ := Option.bind_eq_some_iff.mp h
  have hlength := length_afterHeredocs hrest
  rw [List.length_drop] at hlength
  rw [mem_nonempty? hafter]
  exact (length_trim_le rest).trans hlength

theorem shortens_splitAtHeredocs (hindex : index < command.length) (h : s.Behind index) :
    (splitAtHeredocs command index s).Shortens command := by
  intro remaining hremaining
  have hafter : ∀ after ∈ commandAfterHeredocs command (index + 1) s.heredocs,
      after.length ≤ command.length - (index + 1) := fun after ↦ length_commandAfterHeredocs
  rw [splitAtHeredocs] at hremaining
  rw [mem_nonempty? hremaining]
  cases hseparator : s.separatorBeforeHeredocs with
  | none =>
    simp only [nonempty?, if_pos]
    cases hrest : commandAfterHeredocs command (index + 1) s.heredocs with
    | none => exact Nat.zero_lt_of_lt hindex
    | some after =>
      have := hafter after hrest
      simp only [Option.getD_some]
      omega
  | some separator =>
    obtain ⟨hlength, hbehind⟩ := h separator hseparator
    have hbefore : (Composer.trim
        (slice command (separator.index + separator.length) index)).length ≤
        index - (separator.index + separator.length) :=
      (length_trim_le _).trans (length_slice ..)
    cases hfirst : nonempty?
        (Composer.trim (slice command (separator.index + separator.length) index)) with
    | none =>
      cases hrest : commandAfterHeredocs command (index + 1) s.heredocs with
      | none => exact Nat.zero_lt_of_lt hindex
      | some after =>
        have := hafter after hrest
        simp only [Option.getD_some]
        omega
    | some before =>
      rw [← mem_nonempty? hfirst] at hbefore
      cases hrest : commandAfterHeredocs command (index + 1) s.heredocs with
      | none =>
        simp only
        omega
      | some after =>
        have := hafter after hrest
        simp only [List.length_append, List.length_singleton]
        omega

theorem shortens_splitAtOperator (hindex : index < command.length) {length : ℕ}
    (hlength : 1 ≤ length) : (splitAtOperator command index s length).Shortens command := by
  intro remaining hremaining
  rw [mem_nonempty? hremaining]
  have hle := (length_trim_le (trimStart (command.drop (index + length)))).trans
    (List.dropWhile_suffix _).length_le
  rw [List.length_drop] at hle
  omega

/-- A step keeps the operator before the here-documents behind the position, or it splits off a rest
that is shorter. -/
def Fits (command : CodeUnits) (index : ℕ) : SplitStep → Prop
  | .next s skip => s.Behind (index + 1 + skip)
  | .stop split => split.Shortens command

/-- A step that leaves the operator alone. -/
theorem fits_next (h : s.Behind index) (skip : ℕ)
    (hsame : s'.separatorBeforeHeredocs = s.separatorBeforeHeredocs) :
    Fits command index (.next s' skip) := by
  intro separator hseparator
  obtain ⟨hlength, hbehind⟩ := h separator (hsame ▸ hseparator)
  exact ⟨hlength, by omega⟩

theorem fits_splitAtUnit (hindex : index < command.length) (h : s.Behind index) :
    Fits command index (splitAtUnit command index character s) := by
  rw [splitAtUnit]
  simp only
  split
  next =>
    split
    next => exact nofun
    next => exact fits_next h _ rfl
  next =>
  split
  next => exact fits_next h _ rfl
  next =>
  split
  next => exact shortens_splitAtHeredocs hindex h
  next =>
  split
  next =>
    -- the first operator behind a here-document is the one that is kept
    intro separator hseparator
    cases hknown : s.separatorBeforeHeredocs with
    | some known =>
      rw [hknown, Option.some_or] at hseparator
      obtain rfl := Option.some.inj hseparator
      obtain ⟨hlength, hbehind⟩ := h known hknown
      exact ⟨hlength, by omega⟩
    | none =>
      rw [hknown, Option.none_or] at hseparator
      obtain rfl := Option.some.inj hseparator
      simp only
      split <;> exact ⟨by decide, by omega⟩
  next => exact shortens_splitAtOperator hindex (by split <;> decide)

theorem fits_splitAtPlainUnit (hindex : index < command.length) (h : s.Behind index) :
    Fits command index (splitAtPlainUnit command index character s) := by
  rw [splitAtPlainUnit]
  repeat' split
  all_goals first
    | exact fits_next h _ rfl
    | exact fits_splitAtUnit hindex h

theorem fits_splitAtCommandUnit (hindex : index < command.length) (h : s.Behind index) :
    Fits command index (splitAtCommandUnit command index character s) := by
  rw [splitAtCommandUnit]
  repeat' split
  all_goals first
    | exact fits_next h _ rfl
    | exact fits_splitAtPlainUnit hindex h

theorem fits_splitStep (hindex : index < command.length) (h : s.Behind index) :
    Fits command index (splitStep command index character s) := by
  rw [splitStep]
  repeat' split
  all_goals first
    | exact fits_next h _ rfl
    | exact fits_splitAtCommandUnit hindex h

/-- **The rest of a command line is shorter than the command line.** -/
theorem shortens_splitFirstShellCommand (command : CodeUnits) :
    (splitFirstShellCommand command).Shortens command := by
  refine indexLoop_rule (P := fun index s ↦ SplitState.Behind s index)
    (Q := fun split ↦ ShellCommandSplit.Shortens split command) (fun hindex h hstep ↦ ?_)
    (@fun index _ _ _ hindex h hstep ↦ ?_) (fun _ ↦ ?_) (Nat.zero_add _).ge (Nat.zero_add _).le ?_
  · change Fits command _ (.next _ _)
    exact hstep ▸ fits_splitStep hindex h
  · change Fits command index (.stop _)
    exact hstep ▸ fits_splitStep hindex h
  · intro remaining hnone
    exact nomatch hnone
  · intro separator hnone
    exact nomatch hnone

end Awen.WorkLog
