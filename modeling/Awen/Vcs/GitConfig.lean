import Awen.Library.Matches
import Awen.Vcs.GitStatus

/-!
# Reading the remote URL off a git configuration

`parseOriginUrlFromGitConfig` of `git.ts` reads the text of `.git/config` without git: continued
lines are joined, each line is trimmed and told apart, and the values of `url` in the sections of
remotes are unquoted. The first URL of `origin` is kept beside the first URL of the other remotes.
-/

namespace Awen.Vcs

open Composer (isSpaceUnit lowerUnit after?)

/-! ## Continued lines -/

/-- `[ \t]` -/
def isBlankUnit (u : UInt16) : Bool := u == 0x20 || u == 0x9

/-- The line break that a text starts with: `/^\r?\n/`. -/
def leadingBreak (text : CodeUnits) : CodeUnits :=
  if text.head? = some 0xa then [0xa] else if text.take 2 = [0xd, 0xa] then [0xd, 0xa] else []

/-- `/\\\r?\n[ \t]*/`: what is matched behind the backslash. -/
def matchContinuation (text : CodeUnits) : Option CodeUnits :=
  match after? [0x5c] text with
  | some behind =>
    let lineBreak := leadingBreak behind
    if lineBreak = [] then none
    else some (lineBreak ++ (behind.drop lineBreak.length).takeWhile isBlankUnit)
  | none => none

/-- A trailing backslash continues the value on the next line. -/
def joinContinuations (configText : CodeUnits) : CodeUnits :=
  substituteFrom matchContinuation (0x5c :: ·) (fun _ ↦ []) 0 configText

/-! ## Values -/

/-- What starts a comment. -/
def isCommentMark (u : UInt16) : Bool := u == 0x23 || u == 0x3b

/-- The loop of `parseGitConfigValue`. `escaped` says that the unit before was a backslash. -/
def unquoteFrom (quoted escaped : Bool) : CodeUnits → CodeUnits
  | [] => []
  | u :: raw =>
    if escaped then u :: unquoteFrom quoted false raw
    else if u = 0x5c ∧ raw ≠ [] then unquoteFrom quoted true raw
    else if u = 0x22 then unquoteFrom (!quoted) false raw
    else if !quoted && isCommentMark u then []
    else u :: unquoteFrom quoted false raw

/-- Unquote a git config value: strip an inline `#` or `;` comment outside quotes, then drop
surrounding quotes and backslash escapes. -/
def parseGitConfigValue (raw : CodeUnits) : CodeUnits := Composer.trim (unquoteFrom false false raw)

/-! ## Lines -/

/-- What `.` does not match. -/
def isLineTerminator (u : UInt16) : Bool := u == 0xa || u == 0xd || u == 0x2028 || u == 0x2029

/-- What stands behind a start that is compared without regard to case. -/
def afterIgnoringCase? (start text : CodeUnits) : Option CodeUnits :=
  if start.isPrefixOf (text.map lowerUnit) then some (text.drop start.length) else none

/-- `\s+"([^"]+)"`, and what stands behind it. -/
def quotedSubsection (text : CodeUnits) : Option (CodeUnits × CodeUnits) :=
  if text.head?.any isSpaceUnit then
    match after? [0x22] (text.dropWhile isSpaceUnit) with
    | some rest =>
      let name := rest.takeWhile (· != 0x22)
      if name = [] then none
      else (after? [0x22] (rest.drop name.length)).map fun behind ↦ (name, behind)
    | none => none
  else none

/-- `\.([^\]\s]+)`, and what stands behind it. -/
def dottedSubsection (text : CodeUnits) : Option (CodeUnits × CodeUnits) :=
  match after? [0x2e] text with
  | some rest =>
    let name := rest.takeWhile fun u ↦ u != 0x5d && !isSpaceUnit u
    if name = [] then none else some (name, rest.drop name.length)
  | none => none

/-- `\s*\](?:\s*[#;].*)?$` -/
def endsHeader (text : CodeUnits) : Bool :=
  match after? [0x5d] (text.dropWhile isSpaceUnit) with
  | some [] => true
  | some behind =>
    match behind.dropWhile isSpaceUnit with
    | [] => false
    | mark :: comment => isCommentMark mark && !comment.any isLineTerminator
  | none => false

variable (toLowerCase : CodeUnits → CodeUnits)

/-- The remote of `[remote "name"]` or of the legacy `[remote.name]`. Git keeps quoted subsections
case-sensitive but folds the dotted form to lowercase. -/
def remoteOfHeader (line : CodeUnits) : Option CodeUnits :=
  match after? [0x5b] line with
  | some inside =>
    match afterIgnoringCase? (unitsOf "remote") (inside.dropWhile isSpaceUnit) with
    | some rest =>
      match quotedSubsection rest with
      | some (name, behind) => if endsHeader behind then some name else none
      | none =>
        match dottedSubsection rest with
        | some (name, behind) => if endsHeader behind then some (toLowerCase name) else none
        | none => none
    | none => none
  | none => none

/-- The value of `/^url\s*=\s*(.*)$/i`. -/
def urlValue (line : CodeUnits) : Option CodeUnits :=
  match afterIgnoringCase? (unitsOf "url") line with
  | some rest =>
    match after? [0x3d] (rest.dropWhile isSpaceUnit) with
    | some behind =>
      let value := behind.dropWhile isSpaceUnit
      if value.any isLineTerminator then none else some value
    | none => none
  | none => none

/-- What the lines have said so far. -/
structure ConfigReading where
  remote : Option CodeUnits := none
  originUrl : Option CodeUnits := none
  firstRemoteUrl : Option CodeUnits := none
  deriving DecidableEq

def originName : CodeUnits := unitsOf "origin"

def ConfigReading.readUrl (s : ConfigReading) (remote value : CodeUnits) : ConfigReading :=
  let url := parseGitConfigValue value
  if url = [] then s
  else if remote = originName then { s with originUrl := s.originUrl <|> some url }
  else { s with firstRemoteUrl := s.firstRemoteUrl <|> some url }

def ConfigReading.readLine (s : ConfigReading) (rawLine : CodeUnits) : ConfigReading :=
  let line := Composer.trim rawLine
  if line = [] ∨ line.head?.any isCommentMark then s
  else
    match remoteOfHeader toLowerCase line with
    | some name => { s with remote := some name }
    | none =>
      if line.head? = some 0x5b then { s with remote := none }
      else
        match s.remote, urlValue line with
        | some remote, some value => s.readUrl remote value
        | _, _ => s

/-- The primary remote URL of a raw configuration: `remote.origin.url`, or else the first URL of
another remote. -/
def parseOriginUrlFromGitConfig (configText : CodeUnits) : Option CodeUnits :=
  let s := (splitTextLines (joinContinuations configText)).foldl
    (ConfigReading.readLine toLowerCase) {}
  s.originUrl <|> s.firstRemoteUrl

end Awen.Vcs

/-!
## The lines that git writes into a configuration

The lines of a configuration with its remotes, and their text as git writes it: values with their
backslashes and double quotes escaped, and in double quotes where they hold a comment mark or outer
spaces. A line whose text ends in a backslash is joined with the next one, whatever the backslash
means, so that the parser reads *logical* lines (`splitTextLines_joinContinuations`).
-/

namespace Awen.Vcs

open Composer (isSpaceUnit isLowerUnit isUpperUnit isDigitUnit lowerUnit)

/-! ## Lines -/

/-- A line of a configuration. -/
inductive ConfigLine where
  | remoteHeader (name : CodeUnits)
  | header (name : CodeUnits) (subsection : Option CodeUnits)
  | setting (key value : CodeUnits)
  | comment (text : CodeUnits)
  deriving DecidableEq

/-- A backslash before each double quote and each backslash. -/
def escapeValue (value : CodeUnits) : CodeUnits :=
  value.flatMap fun u ↦ if u = 0x22 ∨ u = 0x5c then [0x5c, u] else [u]

/-- A value that git puts into double quotes. -/
def needsQuotes (value : CodeUnits) : Bool :=
  value.any isCommentMark || value.head? == some 0x20 || value.getLast? == some 0x20

def quoteValue (value : CodeUnits) : CodeUnits :=
  if needsQuotes value then 0x22 :: (escapeValue value ++ [0x22]) else escapeValue value

/-- The text of a line. -/
def ConfigLine.text : ConfigLine → CodeUnits
  | .remoteHeader name => 0x5b :: (unitsOf "remote" ++ 0x20 :: 0x22 :: (name ++ [0x22, 0x5d]))
  | .header name none => 0x5b :: (name ++ [0x5d])
  | .header name (some subsection) =>
    0x5b :: (name ++ 0x20 :: 0x22 :: (escapeValue subsection ++ [0x22, 0x5d]))
  | .setting key value => 0x9 :: (key ++ 0x20 :: 0x3d :: 0x20 :: quoteValue value)
  | .comment text => text

/-- The end of a line, CRLF or LF. -/
def lineEnd (crlf : Bool) : CodeUnits := if crlf then [0xd, 0xa] else [0xa]

/-- The text of a configuration. -/
def configText (lines : List (ConfigLine × Bool)) : CodeUnits :=
  lines.flatMap fun line ↦ line.1.text ++ lineEnd line.2

def isLetterUnit (u : UInt16) : Bool := isLowerUnit u || isUpperUnit u

/-- What the names of sections and of settings are made of. -/
def isNameUnit (u : UInt16) : Bool := isLetterUnit u || isDigitUnit u || u == 0x2d

def isLineBreakUnit (u : UInt16) : Bool := u == 0xa || u == 0xd

def isControlUnit (u : UInt16) : Bool := decide (u < 0x20 ∨ 0x7f ≤ u ∧ u < 0xa0)

/-- The setting of a URL, in any case. -/
def isUrlKey (key : CodeUnits) : Bool := key.map lowerUnit == unitsOf "url"

/-- **A line as git writes it.** The sections that are no remotes are told apart from those of
remotes, whose name git compares without regard to case, and from their legacy form. -/
def ConfigLine.IsWritten : ConfigLine → Prop
  | .remoteHeader name => ∀ u ∈ name, u ≠ 0x22 ∧ u ≠ 0x5c ∧ isLineBreakUnit u = false
  | .header name none => name ≠ [] ∧ (∀ u ∈ name, isNameUnit u = true ∨ u = 0x2e) ∧
      ¬unitsOf "remote." <+: name.map lowerUnit
  | .header name (some subsection) => name ≠ [] ∧ (∀ u ∈ name, isNameUnit u = true ∨ u = 0x2e) ∧
      name.map lowerUnit ≠ unitsOf "remote" ∧ ∀ u ∈ subsection, isLineBreakUnit u = false
  | .setting key value => key ≠ [] ∧ (∀ u ∈ key, isNameUnit u = true) ∧
      (∀ u ∈ value, isLineBreakUnit u = false) ∧
      (isUrlKey key = true → ∀ u ∈ value, isControlUnit u = false)
  | .comment text => (∀ u ∈ text, isLineBreakUnit u = false) ∧
      (text.dropWhile isBlankUnit).head?.any isCommentMark = true

/-! ## Remotes -/

/-- A remote with its URLs. -/
structure Remote where
  name : CodeUnits
  urls : List CodeUnits
  deriving DecidableEq

/-- The URLs that are set before the next section. -/
def sectionUrls : List ConfigLine → List CodeUnits
  | [] => []
  | .setting key value :: lines =>
    if isUrlKey key then value :: sectionUrls lines else sectionUrls lines
  | .comment _ :: lines => sectionUrls lines
  | .remoteHeader _ :: _ => []
  | .header _ _ :: _ => []

/-- The remotes of a configuration, in their order. -/
def remotesOf : List ConfigLine → List Remote
  | [] => []
  | .remoteHeader name :: lines => { name, urls := sectionUrls lines } :: remotesOf lines
  | .header _ _ :: lines => remotesOf lines
  | .setting _ _ :: lines => remotesOf lines
  | .comment _ :: lines => remotesOf lines

/-- The first URL of `origin` if there is such a remote, otherwise the first URL of the first remote
that has one. -/
def originUrlOf (remotes : List Remote) : Option CodeUnits :=
  match remotes.find? (·.name = originName) with
  | some remote => remote.urls.head?
  | none => remotes.findSome? (·.urls.head?)

/-- **A configuration as git writes it**, with remotes that have distinct names and URLs. -/
structure IsWrittenConfig (lines : List (ConfigLine × Bool)) : Prop where
  written : ∀ line ∈ lines, line.1.IsWritten
  nodup_names : ((remotesOf (lines.map Prod.fst)).map (·.name)).Nodup
  urls_ne_nil : ∀ remote ∈ remotesOf (lines.map Prod.fst), remote.urls ≠ []

/-! ## Logical lines -/

/-- The text of the line ends in a backslash. -/
def ConfigLine.continues (line : ConfigLine) : Bool := line.text.getLast? == some 0x5c

/-- The text of a line with what it is joined to. -/
def ConfigLine.joined (line : ConfigLine) (more : CodeUnits) : CodeUnits :=
  if line.continues then line.text.dropLast ++ more else line.text

/-- The lines that are read, each with the text that it is joined to: the line behind a line whose
text ends in a backslash is not read as a line. -/
def logicalLines : List ConfigLine → List (ConfigLine × CodeUnits)
  | [] => []
  | line :: lines =>
    if line.continues then
      match logicalLines lines with
      | [] => [(line, [])]
      | (next, more) :: others => (line, (next.joined more).dropWhile isBlankUnit) :: others
    else (line, []) :: logicalLines lines

theorem logicalLines_cons (line : ConfigLine) (lines : List ConfigLine) :
    logicalLines (line :: lines) =
      if line.continues then
        match logicalLines lines with
        | [] => [(line, [])]
        | (next, more) :: others => (line, (next.joined more).dropWhile isBlankUnit) :: others
      else (line, []) :: logicalLines lines := rfl

theorem exists_logicalLines_cons (line : ConfigLine) (lines : List ConfigLine) :
    ∃ more others, logicalLines (line :: lines) = (line, more) :: others := by
  rw [logicalLines_cons]
  split
  · split
    · exact ⟨_, _, rfl⟩
    · exact ⟨_, _, rfl⟩
  · exact ⟨_, _, rfl⟩

/-! ## Texts of lines -/

/-- A text that has no line break, and whose first unit that is no blank is no backslash. -/
structure IsLineText (text : CodeUnits) : Prop where
  not_break : ∀ u ∈ text, isLineBreakUnit u = false
  starts : ∃ blanks u rest, text = blanks ++ u :: rest ∧
    (∀ v ∈ blanks, isBlankUnit v = true) ∧ isBlankUnit u = false ∧ u ≠ 0x5c

theorem forall_mem_escapeValue {value : CodeUnits} {p : UInt16 → Prop}
    (h : ∀ u ∈ value, p u) (hescape : p 0x5c) : ∀ u ∈ escapeValue value, p u := by
  intro u hu
  obtain ⟨v, hv, hmem⟩ := List.mem_flatMap.mp hu
  split at hmem
  · rcases List.mem_pair.mp hmem with rfl | rfl
    · exact hescape
    · exact h _ hv
  · exact List.mem_singleton.mp hmem ▸ h v hv

theorem not_break_quoteValue {value : CodeUnits}
    (h : ∀ u ∈ value, isLineBreakUnit u = false) :
    ∀ u ∈ quoteValue value, isLineBreakUnit u = false := by
  have hescaped := forall_mem_escapeValue h rfl
  intro u hu
  rw [quoteValue] at hu
  split at hu
  · rcases List.mem_cons.mp hu with rfl | hu
    · rfl
    rcases List.mem_append.mp hu with hu | hu
    · exact hescaped u hu
    · exact List.mem_singleton.mp hu ▸ rfl
  · exact hescaped u hu

/-- What a name is made of means nothing else. -/
theorem isNameUnit_spec {u : UInt16} (h : isNameUnit u = true) :
    isLineBreakUnit u = false ∧ isBlankUnit u = false ∧ isSpaceUnit u = false ∧
      isCommentMark u = false ∧ u ≠ 0x5c ∧ u ≠ 0x5b ∧ u ≠ 0x5d ∧ u ≠ 0x3d ∧ u ≠ 0x22 ∧
      u ≠ 0x2e := by
  simp only [isNameUnit, isLetterUnit, isLowerUnit, isUpperUnit, isDigitUnit, isLineBreakUnit,
    isBlankUnit, isSpaceUnit, isCommentMark, Bool.or_eq_true, Bool.or_eq_false_iff,
    decide_eq_true_eq, beq_iff_eq, beq_eq_false_iff_ne, decide_eq_false_iff_not,
    UInt16.le_iff_toNat_le, ne_eq, ← UInt16.toNat_inj] at h ⊢
  simp at h ⊢
  omega

theorem ConfigLine.IsWritten.isLineText {line : ConfigLine} (h : line.IsWritten) :
    IsLineText line.text := by
  cases line with
  | remoteHeader name =>
    refine ⟨fun u hu ↦ ?_, [], 0x5b, _, rfl, List.forall_mem_nil _, rfl, by decide⟩
    rcases List.mem_cons.mp hu with rfl | hu
    · rfl
    rcases List.mem_append.mp hu with hu | hu
    · exact (by decide : ∀ u ∈ unitsOf "remote", isLineBreakUnit u = false) u hu
    rcases List.mem_cons.mp hu with rfl | hu
    · rfl
    rcases List.mem_cons.mp hu with rfl | hu
    · rfl
    rcases List.mem_append.mp hu with hu | hu
    · exact (h u hu).2.2
    · exact (by decide : ∀ u ∈ ([0x22, 0x5d] : CodeUnits), isLineBreakUnit u = false) u hu
  | header name subsection =>
    have hname {u : UInt16} (hu : isNameUnit u = true ∨ u = 0x2e) : isLineBreakUnit u = false :=
      hu.elim (fun hu ↦ (isNameUnit_spec hu).1) (fun hu ↦ hu ▸ rfl)
    cases subsection with
    | none =>
      refine ⟨fun u hu ↦ ?_, [], 0x5b, _, rfl, List.forall_mem_nil _, rfl, by decide⟩
      rcases List.mem_cons.mp hu with rfl | hu
      · rfl
      rcases List.mem_append.mp hu with hu | hu
      · exact hname (h.2.1 u hu)
      · exact List.mem_singleton.mp hu ▸ rfl
    | some subsection =>
      refine ⟨fun u hu ↦ ?_, [], 0x5b, _, rfl, List.forall_mem_nil _, rfl, by decide⟩
      rcases List.mem_cons.mp hu with rfl | hu
      · rfl
      rcases List.mem_append.mp hu with hu | hu
      · exact hname (h.2.1 u hu)
      rcases List.mem_cons.mp hu with rfl | hu
      · rfl
      rcases List.mem_cons.mp hu with rfl | hu
      · rfl
      rcases List.mem_append.mp hu with hu | hu
      · exact forall_mem_escapeValue h.2.2.2 rfl u hu
      · exact (by decide : ∀ u ∈ ([0x22, 0x5d] : CodeUnits), isLineBreakUnit u = false) u hu
  | setting key value =>
    obtain ⟨hne, hkey, hvalue, -⟩ := h
    obtain ⟨u, rest, rfl⟩ := List.exists_cons_of_ne_nil hne
    have hu := isNameUnit_spec (hkey u List.mem_cons_self)
    refine ⟨fun v hv ↦ ?_, [0x9], u, _, rfl, by decide, hu.2.1, hu.2.2.2.2.1⟩
    rcases List.mem_cons.mp hv with rfl | hv
    · rfl
    rcases List.mem_append.mp hv with hv | hv
    · exact (isNameUnit_spec (hkey v hv)).1
    rcases List.mem_cons.mp hv with rfl | hv
    · rfl
    rcases List.mem_cons.mp hv with rfl | hv
    · rfl
    rcases List.mem_cons.mp hv with rfl | hv
    · rfl
    exact not_break_quoteValue hvalue v hv
  | comment text =>
    refine ⟨h.1, text.takeWhile isBlankUnit, ?_⟩
    obtain ⟨u, hu, hmark⟩ := (Option.any_eq_true _ _).mp h.2
    obtain ⟨rest, hrest⟩ := List.head?_eq_some_iff.mp hu
    have hne : isBlankUnit u = false ∧ u ≠ 0x5c := by
      rw [isCommentMark, Bool.or_eq_true, beq_iff_eq, beq_iff_eq] at hmark
      rcases hmark with rfl | rfl
      · exact ⟨rfl, by decide⟩
      · exact ⟨rfl, by decide⟩
    refine ⟨u, rest, ?_, fun v hv ↦ List.mem_takeWhile_imp hv, hne⟩
    rw [← hrest, List.takeWhile_append_dropWhile]
    rfl

/-! ## Joining continued lines -/

theorem leadingBreak_append_drop (text : CodeUnits) :
    leadingBreak text ++ text.drop (leadingBreak text).length = text := by
  rw [leadingBreak]
  split
  next h =>
    obtain ⟨rest, rfl⟩ := List.head?_eq_some_iff.mp h
    rfl
  next =>
    split
    next h =>
      conv_rhs => rw [← List.take_append_drop 2 text]
      exact congrArg (· ++ text.drop 2) h.symm
    next => rfl

theorem matchContinuation_cons (text : CodeUnits) : matchContinuation (0x5c :: text) =
    if leadingBreak text = [] then none
    else some (leadingBreak text ++
      (text.drop (leadingBreak text).length).takeWhile isBlankUnit) := rfl

theorem matchContinuation_cons_of_ne {u : UInt16} (hu : u ≠ 0x5c) (text : CodeUnits) :
    matchContinuation (u :: text) = none := by
  have hpre : ([0x5c] : CodeUnits).isPrefixOf (u :: text) = false := by
    rw [Bool.eq_false_iff, ne_eq, List.isPrefixOf_iff_prefix, List.cons_prefix_cons]
    exact fun h ↦ hu h.1.symm
  rw [matchContinuation, Composer.after?, if_neg (by rw [hpre]; exact Bool.false_ne_true)]

theorem recognisesSources_matchContinuation :
    RecognisesSources matchContinuation (0x5c :: ·) where
  prefix_of {text found} hfound := by
    rcases text with _ | ⟨u, text⟩
    · cases hfound
    by_cases hu : u = 0x5c
    · subst hu
      rw [matchContinuation_cons] at hfound
      split at hfound
      · cases hfound
      · cases hfound
        refine (List.prefix_cons_inj _).mpr ?_
        conv_rhs => rw [← leadingBreak_append_drop text]
        exact (List.prefix_append_right_inj _).mpr (List.takeWhile_prefix _)
    · rw [matchContinuation_cons_of_ne hu] at hfound
      cases hfound
  ne_nil _ := List.cons_ne_nil _ _

theorem leadingBreak_eq_nil {u : UInt16} (hu : isLineBreakUnit u = false) (text : CodeUnits) :
    leadingBreak (u :: text) = [] := by
  rw [isLineBreakUnit, Bool.or_eq_false_iff, beq_eq_false_iff_ne, beq_eq_false_iff_ne] at hu
  rw [leadingBreak, List.head?_cons, if_neg fun h ↦ hu.1 (Option.some.inj h), if_neg]
  exact fun h ↦ hu.2 (List.cons.inj (List.take_succ_cons ▸ h)).1

/-- The text of a line is kept, unless a backslash stands at its end and a line break behind it. -/
theorem joinContinuations_append {text after : CodeUnits}
    (htext : ∀ u ∈ text, isLineBreakUnit u = false)
    (hlast : text.getLast? = some 0x5c → leadingBreak after = []) :
    joinContinuations (text ++ after) = text ++ joinContinuations after := by
  induction text with
  | nil => rfl
  | cons u text ih =>
    have htail := (List.forall_mem_cons.mp htext).2
    have hnone : matchContinuation (u :: (text ++ after)) = none := by
      by_cases hu : u = 0x5c
      · subst hu
        rw [matchContinuation_cons, if_pos]
        rcases text with _ | ⟨v, text⟩
        · exact hlast rfl
        · exact leadingBreak_eq_nil (htail v List.mem_cons_self) _
      · exact matchContinuation_cons_of_ne hu _
    have hcopy : joinContinuations (u :: (text ++ after)) =
        u :: joinContinuations (text ++ after) := by
      rw [joinContinuations, substituteFrom, hnone]
      rfl
    rw [List.cons_append, hcopy, ih htail fun h ↦ hlast ?_]
    · rfl
    · rw [List.getLast?_cons, h]
      rfl

/-- A backslash at the end of a line goes, with the blanks of the next line. -/
theorem joinContinuations_backslash (crlf : Bool) (after : CodeUnits) :
    joinContinuations (0x5c :: (lineEnd crlf ++ after)) =
      joinContinuations (after.dropWhile isBlankUnit) := by
  have hbreak : leadingBreak (lineEnd crlf ++ after) = lineEnd crlf := by
    cases crlf <;> rfl
  have hmatch : matchContinuation (0x5c :: (lineEnd crlf ++ after)) =
      some (lineEnd crlf ++ after.takeWhile isBlankUnit) := by
    rw [matchContinuation_cons, hbreak, List.drop_left, if_neg]
    cases crlf <;> exact List.cons_ne_nil _ _
  have hsplit : 0x5c :: (lineEnd crlf ++ after) =
      (0x5c :: (lineEnd crlf ++ after.takeWhile isBlankUnit)) ++ after.dropWhile isBlankUnit := by
    rw [List.cons_append, List.append_assoc, List.takeWhile_append_dropWhile]
  rw [hsplit] at hmatch ⊢
  exact recognisesSources_matchContinuation.substituteFrom_source hmatch _

/-! ## Splitting lines -/

/-- `\r` belongs to the line break behind it. -/
def dropReturn (line : CodeUnits) : CodeUnits :=
  if line.getLast? = some 0xd then line.dropLast else line

theorem splitTextLines_of_not_mem {text : CodeUnits} (h : (0xa : UInt16) ∉ text) :
    splitTextLines text = [text] := by
  have hterminated := @terminatedLines_unlines_append _ (0xa : UInt16) _ [] (List.forall_mem_nil _)
    text h
  have hpartial := @partialLine_unlines_append _ (0xa : UInt16) _ [] (List.forall_mem_nil _) text h
  rw [unlines_nil, List.nil_append] at hterminated hpartial
  rw [splitTextLines, hterminated, hpartial]
  rfl

theorem splitTextLines_append_cons {line : CodeUnits} (h : (0xa : UInt16) ∉ line)
    (rest : CodeUnits) :
    splitTextLines (line ++ 0xa :: rest) = dropReturn line :: splitTextLines rest := by
  obtain ⟨lines, last, hlines, hlast, rfl⟩ := exists_lines (0xa : UInt16) rest
  have hall : ∀ l ∈ line :: lines, (0xa : UInt16) ∉ l := List.forall_mem_cons.mpr ⟨h, hlines⟩
  have hjoin : line ++ 0xa :: (unlines 0xa lines ++ last) =
      unlines 0xa (line :: lines) ++ last := by
    rw [unlines_cons, List.append_assoc, List.cons_append]
  rw [hjoin, splitTextLines, splitTextLines, terminatedLines_unlines_append hall hlast,
    partialLine_unlines_append hall hlast, terminatedLines_unlines_append hlines hlast,
    partialLine_unlines_append hlines hlast]
  rfl

/-- A text stops at its first line feed. -/
theorem eq_append_lineFeed (text : CodeUnits) : (0xa : UInt16) ∉ text ∨
    ∃ line rest, (0xa : UInt16) ∉ line ∧ text = line ++ 0xa :: rest := by
  by_cases h : (0xa : UInt16) ∈ text
  · obtain ⟨line, rest, htext, hline⟩ := List.eq_append_cons_of_mem h
    exact .inr ⟨line, rest, hline, htext⟩
  · exact .inl h

theorem dropReturn_append {start : CodeUnits} (h : ∀ u ∈ start, isLineBreakUnit u = false)
    (line : CodeUnits) : dropReturn (start ++ line) = start ++ dropReturn line := by
  rcases List.eq_nil_or_concat' line with rfl | ⟨line, u, rfl⟩
  · rw [List.append_nil, dropReturn, if_neg fun hlast ↦ ?_]
    · exact (List.append_nil _).symm
    · cases h _ (List.mem_of_getLast? hlast)
  · rw [dropReturn, dropReturn, ← List.append_assoc, List.getLast?_concat, List.getLast?_concat,
      List.dropLast_concat, List.dropLast_concat]
    split
    · rfl
    · exact List.append_assoc ..

theorem dropReturn_dropWhile (line : CodeUnits) :
    dropReturn (line.dropWhile isBlankUnit) = (dropReturn line).dropWhile isBlankUnit := by
  have hblanks : ∀ u ∈ line.takeWhile isBlankUnit, isLineBreakUnit u = false := by
    intro u hu
    have hblank := List.mem_takeWhile_imp hu
    rw [isBlankUnit, Bool.or_eq_true, beq_iff_eq, beq_iff_eq] at hblank
    rcases hblank with rfl | rfl <;> rfl
  have hsplit := dropReturn_append hblanks (line.dropWhile isBlankUnit)
  rw [List.takeWhile_append_dropWhile] at hsplit
  rw [hsplit, List.dropWhile_append_of_pos fun u hu ↦ List.mem_takeWhile_imp hu]
  cases hrest : line.dropWhile isBlankUnit with
  | nil => rfl
  | cons u rest =>
    have hu : isBlankUnit u = false := by
      have hnot := List.head?_dropWhile_not isBlankUnit line
      rwa [hrest] at hnot
    rw [dropReturn]
    split
    · cases rest with
      | nil => rfl
      | cons v rest => exact (List.dropWhile_cons_of_neg (by rw [hu]; exact nofun)).symm
    · exact (List.dropWhile_cons_of_neg (by rw [hu]; exact nofun)).symm

/-- The first line goes on where a text without line breaks stops. -/
theorem splitTextLines_append {start : CodeUnits} (h : ∀ u ∈ start, isLineBreakUnit u = false)
    {text line : CodeUnits} {lines : List CodeUnits}
    (hsplit : splitTextLines text = line :: lines) :
    splitTextLines (start ++ text) = (start ++ line) :: lines := by
  have hstart : (0xa : UInt16) ∉ start := fun hmem ↦ by cases h _ hmem
  rcases eq_append_lineFeed text with htext | ⟨first, rest, hfirst, rfl⟩
  · rw [splitTextLines_of_not_mem htext] at hsplit
    cases hsplit
    exact splitTextLines_of_not_mem fun hmem ↦ (List.mem_append.mp hmem).elim hstart htext
  · rw [splitTextLines_append_cons hfirst] at hsplit
    cases hsplit
    rw [← List.append_assoc, splitTextLines_append_cons fun hmem ↦
      (List.mem_append.mp hmem).elim hstart hfirst, dropReturn_append h]

theorem splitTextLines_dropWhile {text line : CodeUnits} {lines : List CodeUnits}
    (hsplit : splitTextLines text = line :: lines) :
    splitTextLines (text.dropWhile isBlankUnit) = line.dropWhile isBlankUnit :: lines := by
  have hsub {l : CodeUnits} (h : (0xa : UInt16) ∉ l) : (0xa : UInt16) ∉ l.dropWhile isBlankUnit :=
    fun hmem ↦ h ((List.dropWhile_sublist _).mem hmem)
  rcases eq_append_lineFeed text with htext | ⟨first, rest, hfirst, rfl⟩
  · rw [splitTextLines_of_not_mem htext] at hsplit
    cases hsplit
    exact splitTextLines_of_not_mem (hsub htext)
  · rw [splitTextLines_append_cons hfirst] at hsplit
    cases hsplit
    have hdrop : (first ++ 0xa :: rest).dropWhile isBlankUnit =
        first.dropWhile isBlankUnit ++ 0xa :: rest := by
      rw [List.dropWhile_append]
      split
      next hempty =>
        rw [List.isEmpty_iff.mp hempty]
        exact List.dropWhile_cons_of_neg (by decide)
      next => rfl
    rw [hdrop, splitTextLines_append_cons (hsub hfirst), dropReturn_dropWhile]

/-! ## The lines that are read -/

/-- Blanks before a text of a line go before or after continued lines are joined. -/
theorem joinContinuations_dropWhile {text : CodeUnits} (h : IsLineText text) (after : CodeUnits) :
    joinContinuations ((text ++ after).dropWhile isBlankUnit) =
      (joinContinuations (text ++ after)).dropWhile isBlankUnit := by
  obtain ⟨blanks, u, rest, rfl, hblanks, hu, hne⟩ := h.starts
  have hbreaks : ∀ v ∈ blanks, isLineBreakUnit v = false :=
    fun v hv ↦ h.not_break v (List.mem_append_left _ hv)
  have hfirst (behind : CodeUnits) : (u :: behind).dropWhile isBlankUnit = u :: behind :=
    List.dropWhile_cons_of_neg (by rw [hu]; exact nofun)
  have hjoin : joinContinuations (u :: (rest ++ after)) =
      u :: joinContinuations (rest ++ after) := by
    rw [joinContinuations, substituteFrom, matchContinuation_cons_of_ne hne]
    rfl
  have hlast : blanks.getLast? = some 0x5c → leadingBreak (u :: (rest ++ after)) = [] :=
    fun hlast ↦ by cases hblanks _ (List.mem_of_getLast? hlast)
  rw [List.append_assoc, List.cons_append, joinContinuations_append hbreaks hlast,
    List.dropWhile_append_of_pos hblanks, List.dropWhile_append_of_pos hblanks, hjoin, hfirst,
    hfirst, hjoin]

/-- What stands behind the last line break of a configuration. -/
def lastText (lines : List ConfigLine) : List CodeUnits :=
  if (lines.getLast?.map (·.continues)).getD false then [] else [[]]

theorem splitTextLines_lineEnd {text : CodeUnits} (h : ∀ u ∈ text, isLineBreakUnit u = false)
    (crlf : Bool) (after : CodeUnits) :
    splitTextLines (text ++ (lineEnd crlf ++ after)) = text :: splitTextLines after := by
  have htext : (0xa : UInt16) ∉ text := fun hmem ↦ by cases h _ hmem
  have hkept : dropReturn text = text :=
    if_neg fun hlast ↦ by cases h _ (List.mem_of_getLast? hlast)
  cases crlf with
  | false =>
    rw [lineEnd, if_neg Bool.false_ne_true, List.singleton_append,
      splitTextLines_append_cons htext, hkept]
  | true =>
    have hjoin : text ++ (lineEnd true ++ after) = (text ++ [0xd]) ++ 0xa :: after := by
      rw [List.append_assoc]
      rfl
    have hreturn : (0xa : UInt16) ∉ text ++ [0xd] := fun hmem ↦
      (List.mem_append.mp hmem).elim htext (by decide)
    rw [hjoin, splitTextLines_append_cons hreturn, dropReturn_append h]
    exact congrArg (· :: _) (List.append_nil text)

/-- **The lines that are read** are the logical lines. -/
theorem splitTextLines_joinContinuations {lines : List (ConfigLine × Bool)}
    (h : ∀ line ∈ lines, line.1.IsWritten) :
    splitTextLines (joinContinuations (configText lines)) =
      (logicalLines (lines.map Prod.fst)).map (fun line ↦ line.1.joined line.2) ++
        lastText (lines.map Prod.fst) := by
  induction lines with
  | nil => rfl
  | cons line lines ih =>
    obtain ⟨line, crlf⟩ := line
    obtain ⟨hline, hlines⟩ := List.forall_mem_cons.mp h
    have htext := hline.isLineText
    have hconfig : configText ((line, crlf) :: lines) =
        line.text ++ (lineEnd crlf ++ configText lines) := by
      rw [configText, List.flatMap_cons, List.append_assoc]
      rfl
    rw [hconfig, List.map_cons, logicalLines_cons]
    by_cases hcont : line.continues = true
    · have hinit : line.text.dropLast ++ [0x5c] = line.text :=
        List.dropLast_append_getLast? _ (eq_of_beq hcont)
      have hbreaks : ∀ u ∈ line.text.dropLast, isLineBreakUnit u = false :=
        fun u hu ↦ htext.not_break u (List.mem_of_mem_dropLast hu)
      have hjoin : joinContinuations (line.text ++ (lineEnd crlf ++ configText lines)) =
          line.text.dropLast ++ joinContinuations ((configText lines).dropWhile isBlankUnit) := by
        conv_lhs => rw [← hinit]
        rw [List.append_assoc, joinContinuations_append hbreaks fun _ ↦ rfl]
        exact congrArg _ (joinContinuations_backslash crlf _)
      rw [hjoin, if_pos hcont]
      cases lines with
      | nil =>
        have hempty : splitTextLines (joinContinuations (List.dropWhile isBlankUnit [])) = [[]] :=
          rfl
        rw [configText, List.flatMap_nil, splitTextLines_append hbreaks hempty]
        simp [logicalLines, ConfigLine.joined, lastText, hcont]
      | cons next rest =>
        obtain ⟨next, nextEnd⟩ := next
        have hnext := (hlines _ List.mem_cons_self).isLineText
        obtain ⟨more, others, hlogical⟩ := exists_logicalLines_cons next (rest.map Prod.fst)
        have hsplit := ih hlines
        rw [List.map_cons, hlogical, List.map_cons, List.cons_append] at hsplit
        have hdrop : joinContinuations
            ((configText ((next, nextEnd) :: rest)).dropWhile isBlankUnit) =
            (joinContinuations (configText ((next, nextEnd) :: rest))).dropWhile isBlankUnit := by
          rw [configText, List.flatMap_cons, List.append_assoc]
          exact joinContinuations_dropWhile hnext _
        rw [hdrop, splitTextLines_append hbreaks (splitTextLines_dropWhile hsplit), List.map_cons,
          hlogical]
        simp [ConfigLine.joined, lastText, hcont, List.getLast?_cons_cons]
    · have hlast (hlast : line.text.getLast? = some 0x5c) :
          leadingBreak (lineEnd crlf ++ configText lines) = [] :=
        absurd (beq_iff_eq.mpr hlast) hcont
      have hend : joinContinuations (lineEnd crlf ++ configText lines) =
          lineEnd crlf ++ joinContinuations (configText lines) := by
        cases crlf <;> rfl
      rw [joinContinuations_append htext.not_break hlast, hend,
        splitTextLines_lineEnd htext.not_break, ih hlines, if_neg hcont, List.map_cons,
        ConfigLine.joined, if_neg hcont]
      cases lines with
      | nil => simp [lastText, logicalLines, hcont]
      | cons next rest => simp [lastText, List.getLast?_cons_cons]

end Awen.Vcs
