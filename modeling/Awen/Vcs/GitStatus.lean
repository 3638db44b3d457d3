import Awen.Composer.ContextReferences
import Awen.Library.Decimals
import Awen.Library.StableSort
import Awen.Library.TextLines

/-!
# Reading git status

What `readStatusDetailsLocal` of `GitVcsDriverCore.ts` makes of the texts of
`git status --porcelain=2 --branch` and `git diff HEAD --numstat`: the branch headers, the paths of
the changed files and the counts of their lines. The two texts are read by line parsers of their
own, and joined on the path.
-/

namespace Awen.Vcs

open Composer (isSpaceUnit isDigitUnit after?)

/-! ## Texts -/

/-- `text.split(/\r?\n/g)` -/
def splitTextLines (text : CodeUnits) : List CodeUnits :=
  (terminatedLines 0xa text).map
      (fun line ↦ if line.getLast? = some 0xd then line.dropLast else line) ++
    [partialLine 0xa text]

/-- `text.split(/\s+/g)` -/
def splitWhiteSpace (text : CodeUnits) : List CodeUnits :=
  match h : text.dropWhile (!isSpaceUnit ·) with
  | [] => [text]
  | _ :: rest =>
    have : rest.length < text.length := by
      have := (List.dropWhile_suffix (!isSpaceUnit ·) (l := text)).length_le
      rw [h, List.length_cons] at this
      omega
    have := (List.dropWhile_suffix isSpaceUnit (l := rest)).length_le
    text.takeWhile (!isSpaceUnit ·) :: splitWhiteSpace (rest.dropWhile isSpaceUnit)
termination_by text.length

/-- `text.indexOf(part)` -/
def indexOf (part : CodeUnits) : CodeUnits → Option ℕ
  | [] => if part = [] then some 0 else none
  | u :: text =>
    if part.isPrefixOf (u :: text) then some 0 else (indexOf part text).map (· + 1)

/-- `Number.parseInt(text, 10)`; `none` stands for `NaN`. -/
def parseInt (text : CodeUnits) : Option ℤ :=
  let text := text.dropWhile isSpaceUnit
  let unsigned := if text.head? = some 0x2d ∨ text.head? = some 0x2b then text.tail else text
  let digits := unsigned.takeWhile isDigitUnit
  if digits = [] then none
  else some (if text.head? = some 0x2d then -(decimalValue digits : ℤ) else decimalValue digits)

def startsWith (text start : CodeUnits) : Bool := start.isPrefixOf text

/-! ## Numstat -/

structure NumstatEntry where
  path : CodeUnits
  insertions : ℤ
  deletions : ℤ
  deriving DecidableEq

def renameArrow : CodeUnits := unitsOf " => "

/-- `pathParts.length > 1 ? pathParts.at(-1) : pathParts.join("\t")`, trimmed. -/
def numstatPath (pathParts : List CodeUnits) : CodeUnits :=
  if pathParts.length > 1 then Composer.trim (pathParts.getLast?.getD [])
  else Composer.trim ([0x9].intercalate pathParts)

/-- What stands behind the first arrow of a path, if it has one. -/
def normalizedPath (rawPath : CodeUnits) : CodeUnits :=
  match indexOf renameArrow rawPath with
  | some renameArrowIndex => Composer.trim (rawPath.drop (renameArrowIndex + renameArrow.length))
  | none => rawPath

def parseNumstatLine (line : CodeUnits) : Option NumstatEntry :=
  if (Composer.trim line).length = 0 then none
  else
    let fields := line.splitOn 0x9
    let rawPath := numstatPath (fields.drop 2)
    if rawPath.length = 0 then none
    else
      let added := parseInt (fields[0]?.getD (unitsOf "0"))
      let deleted := parseInt (fields[1]?.getD (unitsOf "0"))
      let normalized := normalizedPath rawPath
      some {
        path := if normalized.length > 0 then normalized else rawPath
        insertions := added.getD 0
        deletions := deleted.getD 0 }

def parseNumstatEntries (stdout : CodeUnits) : List NumstatEntry :=
  (splitTextLines stdout).filterMap parseNumstatLine

/-! ## Porcelain -/

/-- The path behind a tab. -/
def readTabbed (fromTab : CodeUnits) : Option CodeUnits :=
  let filePath := (fromTab.splitOn 0x9).head?.getD []
  if (Composer.trim filePath).length > 0 then some (Composer.trim filePath) else none

/-- The last word of a line without a tab. -/
def readWords (line : CodeUnits) : Option CodeUnits :=
  let filePath := (splitWhiteSpace (Composer.trim line)).getLast?.getD []
  if filePath.length > 0 then some filePath else none

def parsePorcelainPath (line : CodeUnits) : Option CodeUnits :=
  if startsWith line (unitsOf "? ") || startsWith line (unitsOf "! ") then
    let simple := Composer.trim (line.drop 2)
    if simple.length > 0 then some simple else none
  else if !(startsWith line (unitsOf "1 ") || startsWith line (unitsOf "2 ") ||
      startsWith line (unitsOf "u ")) then none
  else
    match indexOf [0x9] line with
    | some tabIndex => readTabbed (line.drop (tabIndex + 1))
    | none => readWords line

/-- `/^\+(\d+)\s+-(\d+)$/` -/
def parseBranchAb (value : CodeUnits) : ℕ × ℕ :=
  match after? (unitsOf "+") value with
  | none => (0, 0)
  | some rest =>
    let ahead := rest.takeWhile isDigitUnit
    let gap := rest.dropWhile isDigitUnit
    match after? (unitsOf "-") (gap.dropWhile isSpaceUnit) with
    | none => (0, 0)
    | some behind =>
      if ahead ≠ [] ∧ gap.head?.any isSpaceUnit ∧ behind ≠ [] ∧ behind.all isDigitUnit then
        (decimalValue ahead, decimalValue behind)
      else (0, 0)

/-- What the lines of the status say. -/
structure StatusReading where
  refName : Option CodeUnits := none
  headCommit : Option CodeUnits := none
  upstreamRef : Option CodeUnits := none
  aheadCount : ℕ := 0
  behindCount : ℕ := 0
  hasWorkingTreeChanges : Bool := false
  /-- The paths of the lines, in the order of a set. -/
  changedFilesWithoutNumstat : List CodeUnits := []
  deriving DecidableEq

/-- A set that keeps the order in which its items came. -/
def addToSet (paths : List CodeUnits) (path : CodeUnits) : List CodeUnits :=
  if path ∈ paths then paths else paths ++ [path]

def StatusReading.readLine (s : StatusReading) (line : CodeUnits) : StatusReading :=
  match after? (unitsOf "# branch.head ") line with
  | some rest =>
    let value := Composer.trim rest
    { s with refName := if startsWith value (unitsOf "(") then none else some value }
  | none =>
    match after? (unitsOf "# branch.oid ") line with
    | some rest =>
      let value := Composer.trim rest
      { s with headCommit :=
          if value.length > 0 ∧ !startsWith value (unitsOf "(") then some value else none }
    | none =>
      match after? (unitsOf "# branch.upstream ") line with
      | some rest =>
        let value := Composer.trim rest
        { s with upstreamRef := if value.length > 0 then some value else none }
      | none =>
        match after? (unitsOf "# branch.ab ") line with
        | some rest =>
          let parsed := parseBranchAb (Composer.trim rest)
          { s with aheadCount := parsed.1, behindCount := parsed.2 }
        | none =>
          if (Composer.trim line).length > 0 ∧ !startsWith line (unitsOf "#") then
            match parsePorcelainPath line with
            | some pathValue =>
              { s with
                hasWorkingTreeChanges := true
                changedFilesWithoutNumstat := addToSet s.changedFilesWithoutNumstat pathValue }
            | none => { s with hasWorkingTreeChanges := true }
          else s

def readStatus (statusStdout : CodeUnits) : StatusReading :=
  (splitTextLines statusStdout).foldl StatusReading.readLine {}

/-! ## The working tree -/

structure FileStat where
  insertions : ℤ
  deletions : ℤ
  deriving DecidableEq

structure WorkingTreeFile where
  path : CodeUnits
  insertions : ℤ
  deletions : ℤ
  deriving DecidableEq

structure WorkingTree where
  files : List WorkingTreeFile
  insertions : ℤ
  deletions : ℤ
  deriving DecidableEq

def fileStatMap (entries : List NumstatEntry) : OrderedMap CodeUnits FileStat :=
  entries.foldl (fun stats entry ↦ stats.set entry.path
    { insertions := entry.insertions, deletions := entry.deletions }) .empty

variable (localeCompare : CodeUnits → CodeUnits → Ordering)

/-- `files.sort((a, b) => a.path.localeCompare(b.path))` -/
def sortFiles (files : List WorkingTreeFile) : List WorkingTreeFile :=
  stableSort (fun a b ↦ (localeCompare a.path b.path).isLE) files

/-- The working tree, from what the two texts say. -/
def workingTree (stats : OrderedMap CodeUnits FileStat)
    (changedFilesWithoutNumstat : List CodeUnits) : WorkingTree :=
  let counted : List WorkingTreeFile := stats.entries.map fun entry ↦
    { path := entry.1, insertions := entry.2.insertions, deletions := entry.2.deletions }
  let others : List WorkingTreeFile :=
    (changedFilesWithoutNumstat.filter fun filePath ↦ !stats.has filePath).map fun filePath ↦
      { path := filePath, insertions := 0, deletions := 0 }
  { files := sortFiles localeCompare (sortFiles localeCompare counted ++ others)
    insertions := (counted.map (·.insertions)).sum
    deletions := (counted.map (·.deletions)).sum }

/-- The working tree of `readStatusDetailsLocal`. -/
def readWorkingTree (statusStdout numstatStdout : CodeUnits) : WorkingTree :=
  workingTree localeCompare (fileStatMap (parseNumstatEntries numstatStdout))
    (readStatus statusStdout).changedFilesWithoutNumstat

end Awen.Vcs

/-!
## The records that git prints

The lines of `git status --porcelain=2` and of `git diff --numstat` for a change, and the path that
the parsers read off each: the last word of a path of an ordinary or an unmerged change, the old
path of a rename, and what stands behind the first arrow of a numstat path.
-/

namespace Awen.Vcs

open Composer (isSpaceUnit isDigitUnit trim_eq_self_iff exists_trim after?)

/-! ## Texts -/

theorem splitTextLines_unlines {lines : List CodeUnits} (hlines : ∀ line ∈ lines, 0xa ∉ line)
    (hends : ∀ line ∈ lines, line.getLast? ≠ some 0xd) :
    splitTextLines (unlines 0xa lines) = lines ++ [[]] := by
  rw [splitTextLines, terminatedLines_unlines 0xa hlines, partialLine_unlines 0xa hlines]
  refine congrArg (· ++ _) ((List.map_congr_left fun line hline ↦ ?_).trans (List.map_id _))
  exact if_neg (hends line hline)

theorem after?_cons_of_ne {u v : UInt16} (h : v ≠ u) (start text : CodeUnits) :
    after? (u :: start) (v :: text) = none := by
  rw [after?, if_neg]
  rw [List.isPrefixOf_iff_prefix, List.cons_prefix_cons]
  exact fun hpre ↦ h hpre.1.symm

/-- A text that starts with something else than white space is not trimmed away. -/
theorem length_trim_cons_pos {u : UInt16} (hu : isSpaceUnit u = false) (rest : CodeUnits) :
    0 < (Composer.trim (u :: rest)).length := by
  refine Nat.pos_of_ne_zero fun hzero ↦ ?_
  obtain ⟨before, after, hsplit, hbefore, hafter⟩ := exists_trim (u :: rest)
  rw [List.eq_nil_of_length_eq_zero hzero, List.append_nil] at hsplit
  have hmem : u ∈ before ++ after := hsplit ▸ List.mem_cons_self
  have hspace := (List.mem_append.mp hmem).elim (hbefore u) (hafter u)
  rw [hu] at hspace
  cases hspace

/-- The last word of a text. -/
def lastWord (text : CodeUnits) : CodeUnits := text.rtakeWhile (!isSpaceUnit ·)

theorem lastWord_append_cons {u : UInt16} (hu : isSpaceUnit u = true) (before after : CodeUnits) :
    lastWord (before ++ u :: after) = lastWord after := by
  rw [lastWord, lastWord, List.rtakeWhile, List.rtakeWhile, List.reverse_append,
    List.reverse_cons, List.append_assoc, List.takeWhile_append]
  split
  next h => simp [hu, (List.takeWhile_prefix _).eq_of_length h]
  next => rfl

theorem lastWord_append_of_forall {blanks : CodeUnits} (h : ∀ u ∈ blanks, isSpaceUnit u = true)
    (text : CodeUnits) : lastWord (blanks ++ text) = lastWord text := by
  induction blanks with
  | nil => rfl
  | cons u blanks ih =>
    obtain ⟨hu, hblanks⟩ := List.forall_mem_cons.mp h
    exact (lastWord_append_cons hu [] (blanks ++ text)).trans (ih hblanks)

theorem lastWord_of_forall {text : CodeUnits} (h : ∀ u ∈ text, isSpaceUnit u = false) :
    lastWord text = text := by
  rw [lastWord, List.rtakeWhile, List.takeWhile_eq_self_iff.mpr fun u hu ↦ by
    rw [h u (List.mem_reverse.mp hu)]; rfl, List.reverse_reverse]

/-- The last of the words of a text. -/
theorem getLast?_splitWhiteSpace (text : CodeUnits) :
    (splitWhiteSpace text).getLast? = some (lastWord text) := by
  fun_induction splitWhiteSpace text with
  | case1 text h =>
    rw [lastWord_of_forall]
    · rfl
    · exact fun u hu ↦ by simpa using List.dropWhile_eq_nil_iff.mp h u hu
  | case2 text u rest h hlt hle ih =>
    have hu : isSpaceUnit u = true := by
      have := List.head?_dropWhile_not (!isSpaceUnit ·) text
      rw [h] at this
      simpa using this
    have htext : text = text.takeWhile (!isSpaceUnit ·) ++ u :: rest := by
      rw [← h, List.takeWhile_append_dropWhile]
    have hrest : lastWord rest = lastWord (rest.dropWhile isSpaceUnit) := by
      conv_lhs => rw [← List.takeWhile_append_dropWhile (p := isSpaceUnit) (l := rest)]
      exact lastWord_append_of_forall (fun v hv ↦ List.mem_takeWhile_imp hv) _
    have hne : splitWhiteSpace (rest.dropWhile isSpaceUnit) ≠ [] := by
      intro hnil
      rw [hnil] at ih
      cases ih
    rw [List.getLast?_cons_of_ne_nil hne, ih, ← hrest]
    conv_rhs => rw [htext, lastWord_append_cons hu]

/-! ## Finding a part -/

theorem indexOf_cons (part : CodeUnits) (u : UInt16) (text : CodeUnits) :
    indexOf part (u :: text) =
      if part.isPrefixOf (u :: text) then some 0 else (indexOf part text).map (· + 1) := rfl

theorem indexOf_eq_none {part text : CodeUnits} (h : ¬part <:+: text) :
    indexOf part text = none := by
  induction text with
  | nil =>
    rw [indexOf, if_neg]
    rintro rfl
    exact h (List.nil_infix)
  | cons u text ih =>
    rw [indexOf_cons, if_neg, ih fun hinf ↦ h (hinf.trans (List.suffix_cons u text).isInfix)]
    · rfl
    · exact fun hpre ↦ h (List.isPrefixOf_iff_prefix.mp hpre).isInfix

/-- **The first place of a part** behind a text. -/
theorem indexOf_append {part before after : CodeUnits} (hpart : part <+: after)
    (hfirst : ∀ i < before.length, ¬part <+: (before ++ after).drop i) :
    indexOf part (before ++ after) = some before.length := by
  induction before with
  | nil =>
    cases after with
    | nil =>
      obtain rfl := List.prefix_nil.mp hpart
      rfl
    | cons u after =>
      rw [List.nil_append, indexOf_cons, if_pos (List.isPrefixOf_iff_prefix.mpr hpart)]
      rfl
  | cons u before ih =>
    rw [List.cons_append, indexOf_cons, if_neg, ih]
    · rfl
    · exact fun i hi ↦ hfirst (i + 1) (Nat.succ_lt_succ hi)
    · exact fun hpre ↦ hfirst 0 (Nat.zero_lt_succ _) (List.isPrefixOf_iff_prefix.mp hpre)

/-- A part that comes up is found no later. -/
theorem exists_indexOf_le {part before after : CodeUnits} (hpart : part <+: after) :
    ∃ i ≤ before.length, indexOf part (before ++ after) = some i := by
  induction before with
  | nil => exact ⟨0, Nat.le_refl 0, indexOf_append hpart (by simp)⟩
  | cons u before ih =>
    obtain ⟨i, hi, hindex⟩ := ih
    rw [List.cons_append, indexOf_cons, hindex]
    split
    · exact ⟨0, Nat.zero_le _, rfl⟩
    · exact ⟨i + 1, Nat.succ_le_succ hi, rfl⟩

theorem indexOf_singleton {u : UInt16} {before : CodeUnits} (h : u ∉ before) (after : CodeUnits) :
    indexOf [u] (before ++ u :: after) = some before.length := by
  refine indexOf_append (List.prefix_iff_eq_append.mpr rfl) fun i hi hpre ↦ ?_
  rw [List.drop_append_of_le_length hi.le, List.drop_eq_getElem_cons hi, List.cons_append,
    List.cons_prefix_cons] at hpre
  exact h (hpre.1 ▸ List.getElem_mem hi)

/-! ## Changes -/

/-- A unit of a path that is printed without quotes. -/
def IsPathUnit (u : UInt16) : Prop :=
  0x20 ≤ u.toNat ∧ u ≠ 0x7f ∧ u ≠ 0x22 ∧ u ≠ 0x5c ∧ u ≠ 0x7b ∧ u ≠ 0x7d

instance (u : UInt16) : Decidable (IsPathUnit u) := inferInstanceAs (Decidable (_ ∧ _))

/-- A path that is printed without quotes, and has no white space at its ends and no arrow in it. -/
structure IsPathName (path : CodeUnits) : Prop where
  ne_nil : path ≠ []
  units : ∀ u ∈ path, IsPathUnit u
  trim_eq : Composer.trim path = path
  arrow : ¬renameArrow <:+: path

/-- A field of a record: a mode, an object name, a score. -/
def IsField (field : CodeUnits) : Prop := ∀ u ∈ field, isSpaceUnit u = false

instance (field : CodeUnits) : Decidable (IsField field) := inferInstanceAs (Decidable (∀ u ∈ _, _))

inductive ChangeKind
  | ordinary (fields : List CodeUnits)
  | renamed (fields : List CodeUnits) (origPath : CodeUnits)
  | unmerged (fields : List CodeUnits)
  | untracked
  deriving DecidableEq

/-- A changed path. -/
structure Change where
  path : CodeUnits
  kind : ChangeKind
  deriving DecidableEq

def ChangeKind.fields : ChangeKind → List CodeUnits
  | ordinary fields => fields
  | renamed fields _ => fields
  | unmerged fields => fields
  | untracked => []

structure Change.IsPrinted (change : Change) : Prop where
  path : IsPathName change.path
  origPath : ∀ fields origPath, change.kind = .renamed fields origPath → IsPathName origPath
  fields : ∀ field ∈ change.kind.fields, IsField field

/-- Fields, each with a space behind it. -/
def fieldsText (fields : List CodeUnits) : CodeUnits := fields.flatMap (· ++ [0x20])

/-- The line of a change in the status. -/
def Change.statusLine (change : Change) : CodeUnits :=
  match change.kind with
  | .ordinary fields => unitsOf "1 " ++ (fieldsText fields ++ change.path)
  | .renamed fields origPath =>
    unitsOf "2 " ++ (fieldsText fields ++ change.path ++ 0x9 :: origPath)
  | .unmerged fields => unitsOf "u " ++ (fieldsText fields ++ change.path)
  | .untracked => unitsOf "? " ++ change.path

/-- The path that the status parser reads off the line of a change. -/
def Change.statusName (change : Change) : CodeUnits :=
  match change.kind with
  | .ordinary _ => lastWord change.path
  | .renamed _ origPath => origPath
  | .unmerged _ => lastWord change.path
  | .untracked => change.path

theorem IsPathName.head_last {path : CodeUnits} (h : IsPathName path) :
    (∀ u, path.head? = some u → isSpaceUnit u = false) ∧
      ∀ u, path.getLast? = some u → isSpaceUnit u = false := trim_eq_self_iff.mp h.trim_eq

theorem IsPathName.not_mem {path : CodeUnits} (h : IsPathName path) {u : UInt16}
    (hu : ¬IsPathUnit u) : u ∉ path := fun hmem ↦ hu (h.units u hmem)

theorem not_mem_fieldsText {fields : List CodeUnits} (h : ∀ field ∈ fields, IsField field)
    {u : UInt16} (hu : isSpaceUnit u = true) (hne : u ≠ 0x20) : u ∉ fieldsText fields := by
  intro hmem
  obtain ⟨field, hfield, hmem⟩ := List.mem_flatMap.mp hmem
  obtain hmem | hmem := List.mem_append.mp hmem
  · rw [h field hfield u hmem] at hu
    cases hu
  · exact hne (List.mem_singleton.mp hmem)

theorem lastWord_fieldsText_append (fields : List CodeUnits) (path : CodeUnits) :
    lastWord (fieldsText fields ++ path) = lastWord path := by
  induction fields with
  | nil => rfl
  | cons field fields ih =>
    rw [fieldsText, List.flatMap_cons, List.append_assoc, List.append_assoc, List.singleton_append,
      lastWord_append_cons (by decide)]
    exact ih

/-- A path that ends with a word has a last word. -/
theorem lastWord_ne_nil {path : CodeUnits} (hne : path ≠ [])
    (hlast : ∀ u, path.getLast? = some u → isSpaceUnit u = false) : lastWord path ≠ [] := by
  obtain ⟨before, u, rfl⟩ := (List.eq_nil_or_concat' path).resolve_left hne
  have hu := hlast u List.getLast?_concat
  rw [lastWord, List.rtakeWhile_concat_pos _ _ _ (by rw [hu]; rfl)]
  exact List.append_ne_nil_of_right_ne_nil _ (List.cons_ne_nil _ _)

/-- The path that is read off a record without a tab. -/
theorem parsePorcelainPath_record {mark : UInt16} (hmark : mark = 0x31 ∨ mark = 0x75)
    {fields : List CodeUnits} (hfields : ∀ field ∈ fields, IsField field) {path : CodeUnits}
    (hpath : IsPathName path) :
    parsePorcelainPath (mark :: 0x20 :: (fieldsText fields ++ path)) = some (lastWord path) := by
  obtain ⟨-, hlast⟩ := hpath.head_last
  have htab : indexOf [0x9] (mark :: 0x20 :: (fieldsText fields ++ path)) = none := by
    refine indexOf_eq_none fun hinf ↦ ?_
    have hmem := hinf.subset (List.mem_singleton_self _)
    simp only [List.mem_cons, List.mem_append] at hmem
    obtain h | h | h | h := hmem
    · rcases hmark with rfl | rfl <;> cases h
    · cases h
    · exact not_mem_fieldsText hfields (by decide) (by decide) h
    · exact hpath.not_mem (by decide) h
  have htrim : Composer.trim (mark :: 0x20 :: (fieldsText fields ++ path)) =
      mark :: 0x20 :: (fieldsText fields ++ path) := by
    refine trim_eq_self_iff.mpr ⟨fun u hu ↦ ?_, fun u hu ↦ hlast u ?_⟩
    · cases hu
      rcases hmark with rfl | rfl <;> rfl
    · rw [← hu, ← List.cons_append, ← List.cons_append,
        List.getLast?_append_of_ne_nil _ hpath.ne_nil]
  have hword : lastWord (mark :: 0x20 :: (fieldsText fields ++ path)) = lastWord path :=
    (lastWord_append_cons (by decide) [mark] _).trans (lastWord_fieldsText_append fields path)
  have hstart : (startsWith (mark :: 0x20 :: (fieldsText fields ++ path)) (unitsOf "? ") ||
      startsWith (mark :: 0x20 :: (fieldsText fields ++ path)) (unitsOf "! ")) = false ∧
      (startsWith (mark :: 0x20 :: (fieldsText fields ++ path)) (unitsOf "1 ") ||
        startsWith (mark :: 0x20 :: (fieldsText fields ++ path)) (unitsOf "2 ") ||
        startsWith (mark :: 0x20 :: (fieldsText fields ++ path)) (unitsOf "u ")) = true := by
    rcases hmark with rfl | rfl <;> exact ⟨rfl, rfl⟩
  rw [parsePorcelainPath, hstart.1, hstart.2, htab]
  dsimp only
  rw [readWords, htrim, getLast?_splitWhiteSpace, hword]
  exact if_pos (List.length_pos_iff.mpr (lastWord_ne_nil hpath.ne_nil hlast))

theorem drop_length_succ (before : CodeUnits) (u : UInt16) (after : CodeUnits) :
    (before ++ u :: after).drop (before.length + 1) = after := by
  rw [← List.singleton_append, ← List.append_assoc]
  exact List.drop_left' (by rw [List.length_append]; rfl)

/-- **The path that is read off the line of a change.** -/
theorem parsePorcelainPath_statusLine {change : Change} (h : change.IsPrinted) :
    parsePorcelainPath change.statusLine = some change.statusName := by
  obtain ⟨path, kind⟩ := change
  obtain ⟨hpath, horig, hfields⟩ := h
  cases kind with
  | ordinary fields => exact parsePorcelainPath_record (.inl rfl) hfields hpath
  | renamed fields origPath =>
    have horig := horig fields origPath rfl
    have htab : (0x9 : UInt16) ∉ 0x32 :: 0x20 :: (fieldsText fields ++ path) := by
      simp only [List.mem_cons, List.mem_append, not_or]
      exact ⟨by decide, by decide, not_mem_fieldsText hfields (by decide) (by decide),
        hpath.not_mem (by decide)⟩
    have hline :
        parsePorcelainPath (0x32 :: 0x20 :: (fieldsText fields ++ path ++ 0x9 :: origPath)) =
        match indexOf [0x9] ((0x32 :: 0x20 :: (fieldsText fields ++ path)) ++ 0x9 :: origPath) with
        | some tabIndex => readTabbed
            (((0x32 :: 0x20 :: (fieldsText fields ++ path)) ++ 0x9 :: origPath).drop (tabIndex + 1))
        | none => readWords (0x32 :: 0x20 :: (fieldsText fields ++ path ++ 0x9 :: origPath)) := rfl
    refine hline.trans ?_
    rw [indexOf_singleton htab origPath]
    dsimp only
    rw [drop_length_succ, readTabbed, List.splitOn_eq_singleton (horig.not_mem (by decide))]
    change (if (Composer.trim origPath).length > 0 then some (Composer.trim origPath) else none) =
      some origPath
    rw [horig.trim_eq, if_pos (List.length_pos_iff.mpr horig.ne_nil)]
  | unmerged fields => exact parsePorcelainPath_record (.inr rfl) hfields hpath
  | untracked =>
    have hline : parsePorcelainPath (0x3f :: 0x20 :: path) =
        if (Composer.trim path).length > 0 then some (Composer.trim path) else none := rfl
    exact hline.trans (by rw [hpath.trim_eq, if_pos (List.length_pos_iff.mpr hpath.ne_nil)]; rfl)

/-- The line of a change is a line. -/
theorem not_mem_statusLine {change : Change} (h : change.IsPrinted) {u : UInt16}
    (hu : isSpaceUnit u = true) (hlt : u.toNat < 0x20) (htab : u ≠ 0x9) :
    u ∉ change.statusLine := by
  obtain ⟨path, kind⟩ := change
  obtain ⟨hpath, horig, hfields⟩ := h
  have hname {path : CodeUnits} (h : IsPathName path) : u ∉ path :=
    h.not_mem fun hunit ↦ Nat.not_le.mpr hlt hunit.1
  have hmark (text : String) (h : ∀ v ∈ unitsOf text, 0x20 ≤ v.toNat) : u ∉ unitsOf text :=
    fun hmem ↦ Nat.not_le.mpr hlt (h u hmem)
  have hfields := not_mem_fieldsText hfields hu (by rintro rfl; exact absurd hlt (by decide))
  cases kind with
  | ordinary fields =>
    rw [Change.statusLine, List.mem_append, List.mem_append]
    exact not_or.mpr ⟨hmark _ (by decide), not_or.mpr ⟨hfields, hname hpath⟩⟩
  | renamed fields origPath =>
    rw [Change.statusLine, List.mem_append, List.mem_append, List.mem_append, List.mem_cons]
    exact not_or.mpr ⟨hmark _ (by decide), not_or.mpr ⟨not_or.mpr ⟨hfields, hname hpath⟩,
      not_or.mpr ⟨htab, hname (horig fields origPath rfl)⟩⟩⟩
  | unmerged fields =>
    rw [Change.statusLine, List.mem_append, List.mem_append]
    exact not_or.mpr ⟨hmark _ (by decide), not_or.mpr ⟨hfields, hname hpath⟩⟩
  | untracked =>
    rw [Change.statusLine, List.mem_append]
    exact not_or.mpr ⟨hmark _ (by decide), hname hpath⟩

/-! ## Numstat records -/

/-- `prefix{old => new}suffix` -/
structure BraceSpelling where
  pre : CodeUnits
  old : CodeUnits
  new : CodeUnits
  suf : CodeUnits
  deriving DecidableEq

/-- A line of the numstat: a change, the counts of its lines unless it is binary, and whether a
rename is spelled with braces. -/
structure NumstatRecord where
  change : Change
  insertions : Option ℕ
  deletions : Option ℕ
  braces : Option BraceSpelling
  deriving DecidableEq

/-- The path of a numstat line. -/
def NumstatRecord.pathText (record : NumstatRecord) : CodeUnits :=
  match record.change.kind, record.braces with
  | .renamed _ _, some braces => braces.pre ++ (0x7b :: (braces.old ++ (renameArrow ++
      (braces.new ++ 0x7d :: braces.suf))))
  | .renamed _ origPath, none => origPath ++ (renameArrow ++ record.change.path)
  | _, _ => record.change.path

def countText (count : Option ℕ) : CodeUnits :=
  match count with
  | some n => unitsOf (toString n)
  | none => unitsOf "-"

def NumstatRecord.line (record : NumstatRecord) : CodeUnits :=
  countText record.insertions ++ 0x9 :: (countText record.deletions ++ 0x9 :: record.pathText)

structure NumstatRecord.IsPrinted (record : NumstatRecord) : Prop where
  change : record.change.IsPrinted
  /-- Braces are written around what differs in the two paths. -/
  braces : ∀ fields origPath braces, record.change.kind = .renamed fields origPath →
    record.braces = some braces → braces.pre <+: record.change.path ∧
      braces.suf <:+ record.change.path ∧ braces.old <:+: origPath ∧
      braces.new <:+: record.change.path

/-- The path that the numstat parser reads off a line, if it is not one with a brace. An old path
that ends with ` =>` moves the first arrow to the front. -/
def NumstatRecord.readName (record : NumstatRecord) : Option CodeUnits :=
  match record.change.kind, record.braces with
  | .renamed _ _, some _ => none
  | .renamed _ origPath, none =>
    if (unitsOf " =>").isSuffixOf origPath then some (unitsOf "=> " ++ record.change.path)
    else some record.change.path
  | _, _ => some record.change.path

/-- Where an arrow behind a text begins. -/
theorem arrow_prefix_cases {text rest : CodeUnits} (hne : text ≠ [])
    (h : renameArrow <+: text ++ (renameArrow ++ rest)) :
    renameArrow <+: text ∨ text = unitsOf " =>" := by
  have harrow : renameArrow = [0x20, 0x3d, 0x3e, 0x20] := by decide
  rw [harrow] at h ⊢
  match text, hne with
  | [a], _ => simp at h
  | [a, b], _ => simp at h
  | [a, b, c], _ =>
    simp only [List.cons_append, List.nil_append, List.cons_prefix_cons] at h
    refine .inr ?_
    rw [← h.1, ← h.2.1, ← h.2.2.1]
    decide
  | a :: b :: c :: d :: text, _ =>
    simp only [List.cons_append, List.cons_prefix_cons] at h ⊢
    exact .inl ⟨h.1, h.2.1, h.2.2.1, h.2.2.2.1, List.nil_prefix⟩

theorem drop_append_arrow (origPath rest : CodeUnits) {i : ℕ} (hi : i < origPath.length)
    (horig : ¬renameArrow <:+: origPath)
    (h : renameArrow <+: (origPath ++ (renameArrow ++ rest)).drop i) :
    origPath.drop i = unitsOf " =>" := by
  rw [List.drop_append_of_le_length hi.le] at h
  have hne : origPath.drop i ≠ [] := by
    rw [Ne, List.drop_eq_nil_iff]
    omega
  exact (arrow_prefix_cases hne h).resolve_left fun hpre ↦
    horig (hpre.isInfix.trans (List.drop_suffix i origPath).isInfix)

/-- **What stands behind the first arrow of a rename.** -/
theorem normalizedPath_arrow {origPath path : CodeUnits} (horig : ¬renameArrow <:+: origPath)
    (hpath : IsPathName path) :
    normalizedPath (origPath ++ (renameArrow ++ path)) =
      if (unitsOf " =>").isSuffixOf origPath then unitsOf "=> " ++ path else path := by
  have harrow : renameArrow = [0x20, 0x3d, 0x3e, 0x20] := by decide
  by_cases hsuffix : unitsOf " =>" <:+ origPath
  · obtain ⟨before, rfl⟩ := hsuffix
    have hindex : indexOf renameArrow (before ++ (unitsOf " =>" ++ (renameArrow ++ path))) =
        some before.length := by
      refine indexOf_append ⟨unitsOf "=> " ++ path, ?_⟩ fun i hi hpre ↦ ?_
      · rw [← List.append_assoc, ← List.append_assoc]
        exact congrArg (· ++ path) (by decide)
      · rw [← List.append_assoc] at hpre
        have hdrop := congrArg List.length (drop_append_arrow (before ++ unitsOf " =>") path
          (by rw [List.length_append]; omega) horig hpre)
        rw [List.length_drop, List.length_append] at hdrop
        omega
    have hdrop : (before ++ (unitsOf " =>" ++ (renameArrow ++ path))).drop
        (before.length + renameArrow.length) = unitsOf "=> " ++ path := by
      rw [List.drop_append, List.drop_of_length_le (by omega), Nat.add_sub_cancel_left]
      exact congrArg (· ++ path) (show (unitsOf " =>" ++ renameArrow).drop renameArrow.length =
        unitsOf "=> " by decide)
    have htrim : Composer.trim (unitsOf "=> " ++ path) = unitsOf "=> " ++ path := by
      refine trim_eq_self_iff.mpr ⟨fun u hu ↦ ?_, fun u hu ↦ hpath.head_last.2 u ?_⟩
      · cases hu
        rfl
      · rwa [List.getLast?_append_of_ne_nil _ hpath.ne_nil] at hu
    rw [normalizedPath, List.append_assoc, hindex]
    dsimp only
    rw [hdrop, htrim, if_pos (List.isSuffixOf_iff_suffix.mpr (List.suffix_append _ _))]
  · have hindex : indexOf renameArrow (origPath ++ (renameArrow ++ path)) =
        some origPath.length := by
      refine indexOf_append (List.prefix_append _ _) fun i hi hpre ↦ hsuffix ?_
      exact drop_append_arrow origPath path hi horig hpre ▸ List.drop_suffix i origPath
    have hdrop : (origPath ++ (renameArrow ++ path)).drop
        (origPath.length + renameArrow.length) = path := by
      rw [← List.append_assoc]
      exact List.drop_left' List.length_append
    rw [normalizedPath, hindex]
    dsimp only
    rw [hdrop, hpath.trim_eq, if_neg (mt List.isSuffixOf_iff_suffix.mp hsuffix)]

/-- **What stands behind an arrow in braces** has a brace in it. -/
theorem mem_normalizedPath_braces (before after suf : CodeUnits) :
    (0x7d : UInt16) ∈ normalizedPath (before ++ (renameArrow ++ (after ++ 0x7d :: suf))) := by
  obtain ⟨i, hi, hindex⟩ := @exists_indexOf_le _ before _
    (List.prefix_append renameArrow (after ++ 0x7d :: suf))
  have hmem : (0x7d : UInt16) ∈ (before ++ (renameArrow ++ (after ++ 0x7d :: suf))).drop
      (i + renameArrow.length) := by
    rw [← List.append_assoc, List.drop_append_of_le_length (by rw [List.length_append]; omega)]
    exact List.mem_append_right _ (List.mem_append_right _ List.mem_cons_self)
  rw [normalizedPath, hindex]
  dsimp only
  obtain ⟨blanks, blanks', hsplit, hblanks, hblanks'⟩ := exists_trim
    ((before ++ (renameArrow ++ (after ++ 0x7d :: suf))).drop (i + renameArrow.length))
  rw [hsplit] at hmem
  obtain hmem | hmem := List.mem_append.mp hmem
  · obtain hmem | hmem := List.mem_append.mp hmem
    · exact absurd (hblanks _ hmem) (by decide)
    · exact hmem
  · exact absurd (hblanks' _ hmem) (by decide)

theorem digit_of_mem {n : ℕ} {u : UInt16} (h : u ∈ unitsOf (toString n)) :
    isDigitUnit u = true ∧ isSpaceUnit u = false ∧ u ≠ 0x2d ∧ u ≠ 0x2b ∧ u ≠ 0x9 ∧ u ≠ 0xa ∧
      u ≠ 0xd := by
  have hbounds := bounds_of_mem_unitsOf_toString h
  refine ⟨?_, ?_, ?_, ?_, ?_, ?_, ?_⟩
  · rw [isDigitUnit, decide_eq_true_iff, UInt16.le_iff_toNat_le, UInt16.le_iff_toNat_le]
    exact hbounds
  · simp only [isSpaceUnit, Bool.or_eq_false_iff, decide_eq_false_iff_not, beq_eq_false_iff_ne, Ne,
      UInt16.le_iff_toNat_le, ← UInt16.toNat_inj]
    refine ⟨⟨⟨⟨⟨⟨⟨⟨⟨⟨?_, ?_⟩, ?_⟩, ?_⟩, ?_⟩, ?_⟩, ?_⟩, ?_⟩, ?_⟩, ?_⟩, ?_⟩ <;> simp <;> omega
  all_goals
    rintro rfl
    revert hbounds
    decide

/-- **A count is read back**, and a binary file has none. -/
theorem parseInt_countText (count : Option ℕ) :
    parseInt (countText count) = count.map fun n ↦ (n : ℤ) := by
  cases count with
  | none => decide
  | some n =>
    have hdigits : ∀ u ∈ unitsOf (toString n), isDigitUnit u = true :=
      fun u hu ↦ (digit_of_mem hu).1
    obtain ⟨u, rest, hunits⟩ := List.exists_cons_of_ne_nil (unitsOf_toString_ne_nil n)
    have hu := digit_of_mem (hunits ▸ List.mem_cons_self : u ∈ unitsOf (toString n))
    have hdrop : (unitsOf (toString n)).dropWhile isSpaceUnit = unitsOf (toString n) := by
      rw [hunits, List.dropWhile_cons_of_neg (by rw [hu.2.1]; exact nofun)]
    have htake : (unitsOf (toString n)).takeWhile isDigitUnit = unitsOf (toString n) :=
      List.takeWhile_eq_self_iff.mpr hdigits
    have hsign : (unitsOf (toString n)).head? ≠ some 0x2d ∧
        (unitsOf (toString n)).head? ≠ some 0x2b := by
      rw [hunits]
      exact ⟨fun h ↦ hu.2.2.1 (Option.some.inj h), fun h ↦ hu.2.2.2.1 (Option.some.inj h)⟩
    rw [countText, parseInt, hdrop, if_neg (not_or.mpr hsign), htake,
      if_neg (unitsOf_toString_ne_nil n), if_neg hsign.1, decimalValue_unitsOf_toString]
    rfl

/-- A count is text without white space that is not empty. -/
theorem countText_units (count : Option ℕ) :
    countText count ≠ [] ∧ ∀ u ∈ countText count, isSpaceUnit u = false ∧ u ≠ 0x9 ∧ u ≠ 0xa := by
  cases count with
  | none => decide
  | some n =>
    refine ⟨unitsOf_toString_ne_nil n, fun u hu ↦ ?_⟩
    obtain ⟨-, hspace, -, -, htab, hbreak, -⟩ := digit_of_mem hu
    exact ⟨hspace, htab, hbreak⟩

/-- What the path of a numstat line is made of. -/
structure IsPathText (text : CodeUnits) : Prop where
  ne_nil : text ≠ []
  units : ∀ u ∈ text, 0x20 ≤ u.toNat
  trim_eq : Composer.trim text = text

theorem IsPathName.isPathText {path : CodeUnits} (h : IsPathName path) : IsPathText path where
  ne_nil := h.ne_nil
  units u hu := (h.units u hu).1
  trim_eq := h.trim_eq

/-- **The path that is read off the path of a numstat line.** -/
theorem NumstatRecord.pathText_spec {record : NumstatRecord} (h : record.IsPrinted) :
    IsPathText record.pathText ∧ normalizedPath record.pathText ≠ [] ∧
      (∀ name, record.readName = some name → normalizedPath record.pathText = name) ∧
      (record.readName = none → (0x7d : UInt16) ∈ normalizedPath record.pathText) := by
  obtain ⟨⟨path, kind⟩, insertions, deletions, braces⟩ := record
  obtain ⟨hchange, hbraces⟩ := h
  have hpath := hchange.path
  have hwhole : normalizedPath path = path := by
    rw [normalizedPath, indexOf_eq_none hpath.arrow]
  cases kind with
  | renamed fields origPath =>
    have horig := hchange.origPath fields origPath rfl
    have harrow : ∀ u ∈ renameArrow, 0x20 ≤ u.toNat := by decide
    cases braces with
    | none =>
      have hnormalized := normalizedPath_arrow horig.arrow hpath
      have htext : NumstatRecord.pathText ⟨⟨path, .renamed fields origPath⟩, insertions, deletions,
          none⟩ = origPath ++ (renameArrow ++ path) := rfl
      refine ⟨⟨List.append_ne_nil_of_left_ne_nil horig.ne_nil _, fun u hu ↦ ?_, ?_⟩, ?_, ?_, ?_⟩
      · obtain hu | hu := List.mem_append.mp hu
        · exact (horig.units u hu).1
        · obtain hu | hu := List.mem_append.mp hu
          · exact harrow u hu
          · exact (hpath.units u hu).1
      · refine trim_eq_self_iff.mpr ⟨fun u hu ↦ horig.head_last.1 u ?_,
          fun u hu ↦ hpath.head_last.2 u ?_⟩
        · rwa [htext, List.head?_append_of_ne_nil _ horig.ne_nil] at hu
        · rwa [htext, ← List.append_assoc, List.getLast?_append_of_ne_nil _ hpath.ne_nil] at hu
      · change normalizedPath (origPath ++ (renameArrow ++ path)) ≠ []
        rw [hnormalized]
        split
        · exact List.append_ne_nil_of_right_ne_nil _ hpath.ne_nil
        · exact hpath.ne_nil
      · intro name hname
        refine hnormalized.trans (Option.some.inj ?_)
        rw [← hname, NumstatRecord.readName]
        dsimp only
        split <;> rfl
      · intro hnone
        rw [NumstatRecord.readName] at hnone
        dsimp only at hnone
        split at hnone <;> cases hnone
    | some spelled =>
      obtain ⟨hpre, hsuf, hold, hnew⟩ := hbraces fields origPath spelled rfl rfl
      have htext : NumstatRecord.pathText ⟨⟨path, .renamed fields origPath⟩, insertions, deletions,
          some spelled⟩ = (spelled.pre ++ 0x7b :: spelled.old) ++
            (renameArrow ++ (spelled.new ++ 0x7d :: spelled.suf)) := by
        rw [NumstatRecord.pathText, List.append_assoc]
        rfl
      have hmem := mem_normalizedPath_braces (spelled.pre ++ 0x7b :: spelled.old) spelled.new
        spelled.suf
      rw [htext]
      refine ⟨⟨by simp, fun u hu ↦ ?_, ?_⟩, List.ne_nil_of_mem hmem, fun name hname ↦ ?_,
        fun _ ↦ hmem⟩
      · simp only [List.mem_append, List.mem_cons] at hu
        obtain (hu | rfl | hu) | hu | hu | rfl | hu := hu
        · exact (hpath.units u (hpre.subset hu)).1
        · decide
        · exact (horig.units u (hold.subset hu)).1
        · exact harrow u hu
        · exact (hpath.units u (hnew.subset hu)).1
        · decide
        · exact (hpath.units u (hsuf.subset hu)).1
      · refine trim_eq_self_iff.mpr ⟨fun u hu ↦ ?_, fun u hu ↦ ?_⟩
        · cases hcase : spelled.pre with
          | nil =>
            rw [hcase] at hu
            cases hu
            rfl
          | cons v pre =>
            obtain ⟨rest, hrest⟩ := hpre
            rw [hcase] at hu hrest
            cases hu
            exact hpath.head_last.1 _ (by rw [← hrest]; rfl)
        · rcases List.eq_nil_or_concat' spelled.suf with hcase | ⟨suf, v, hcase⟩
          · have hlast : ((spelled.pre ++ 0x7b :: spelled.old) ++
                (renameArrow ++ (spelled.new ++ 0x7d :: spelled.suf))).getLast? = some 0x7d := by
              rw [hcase, ← List.append_assoc, ← List.append_assoc]
              exact List.getLast?_concat
            rw [hlast] at hu
            cases hu
            rfl
          · obtain ⟨rest, hrest⟩ := hsuf
            have hlast : ((spelled.pre ++ 0x7b :: spelled.old) ++
                (renameArrow ++ (spelled.new ++ 0x7d :: spelled.suf))).getLast? = some v := by
              rw [hcase, ← List.cons_append, ← List.append_assoc, ← List.append_assoc,
                ← List.append_assoc]
              exact List.getLast?_concat
            rw [hlast] at hu
            cases hu
            refine hpath.head_last.2 _ ?_
            rw [← hrest, hcase, ← List.append_assoc]
            exact List.getLast?_concat
      · cases hname
  | ordinary fields =>
    exact ⟨hpath.isPathText, hwhole.symm ▸ hpath.ne_nil, fun name hname ↦ hwhole.trans
      (Option.some.inj hname), fun hnone ↦ nomatch hnone⟩
  | unmerged fields =>
    exact ⟨hpath.isPathText, hwhole.symm ▸ hpath.ne_nil, fun name hname ↦ hwhole.trans
      (Option.some.inj hname), fun hnone ↦ nomatch hnone⟩
  | untracked =>
    exact ⟨hpath.isPathText, hwhole.symm ▸ hpath.ne_nil, fun name hname ↦ hwhole.trans
      (Option.some.inj hname), fun hnone ↦ nomatch hnone⟩

/-- **What is read off a numstat line.** -/
theorem parseNumstatLine_line {record : NumstatRecord} (h : record.IsPrinted) :
    parseNumstatLine record.line = some {
      path := normalizedPath record.pathText
      insertions := (record.insertions.getD 0 : ℕ)
      deletions := (record.deletions.getD 0 : ℕ) } := by
  obtain ⟨htext, hnormalized, -, -⟩ := NumstatRecord.pathText_spec h
  have htab {text : CodeUnits} (h : ∀ u ∈ text, u ≠ 0x9) : (0x9 : UInt16) ∉ text :=
    fun hmem ↦ h _ hmem rfl
  have hfields : record.line.splitOn 0x9 =
      [countText record.insertions, countText record.deletions, record.pathText] := by
    rw [NumstatRecord.line, List.splitOn_append_cons_self, List.splitOn_append_cons_self,
      List.splitOn_eq_singleton (htab fun u hu ↦ ((countText_units _).2 u hu).2.1),
      List.splitOn_eq_singleton (htab fun u hu ↦ ((countText_units _).2 u hu).2.1),
      List.splitOn_eq_singleton fun hmem ↦ absurd (htext.units _ hmem) (by decide)]
    rfl
  have hline : ¬(Composer.trim record.line).length = 0 := by
    obtain ⟨u, rest, hcount⟩ := List.exists_cons_of_ne_nil (countText_units record.insertions).1
    have hu := (countText_units record.insertions).2 u (hcount ▸ List.mem_cons_self)
    rw [NumstatRecord.line, hcount, List.cons_append]
    exact Nat.ne_of_gt (length_trim_cons_pos hu.1 _)
  have hpath : numstatPath [record.pathText] = record.pathText := by
    rw [numstatPath, if_neg (by simp), List.intercalate_singleton, htext.trim_eq]
  have hcount (count : Option ℕ) : (parseInt (countText count)).getD 0 = (count.getD 0 : ℕ) := by
    rw [parseInt_countText]
    cases count <;> rfl
  rw [parseNumstatLine, if_neg hline]
  dsimp only
  rw [hfields]
  change (if (numstatPath [record.pathText]).length = 0 then none else _) = _
  rw [hpath, if_neg (mt List.eq_nil_of_length_eq_zero htext.ne_nil)]
  refine congrArg some ?_
  change NumstatEntry.mk (if _ then _ else _) ((parseInt (countText record.insertions)).getD 0)
    ((parseInt (countText record.deletions)).getD 0) = _
  have hdrop : numstatPath ([countText record.insertions, countText record.deletions,
      record.pathText].drop 2) = record.pathText := hpath
  rw [hcount, hcount, hdrop, if_pos (List.length_pos_iff.mpr hnormalized)]

/-- The line of a numstat record is a line. -/
theorem NumstatRecord.IsPrinted.not_mem_line {record : NumstatRecord} (h : record.IsPrinted)
    {u : UInt16} (hu : isSpaceUnit u = true) (hlt : u.toNat < 0x20) (htab : u ≠ 0x9) :
    u ∉ record.line := by
  have hcount (count : Option ℕ) : u ∉ countText count := fun hmem ↦ by
    have hunits := ((countText_units count).2 u hmem).1
    rw [hu] at hunits
    cases hunits
  rw [NumstatRecord.line, List.mem_append, List.mem_cons, List.mem_append, List.mem_cons]
  exact not_or.mpr ⟨hcount _, not_or.mpr ⟨htab, not_or.mpr ⟨hcount _, not_or.mpr ⟨htab,
    fun hmem ↦ Nat.not_le.mpr hlt ((NumstatRecord.pathText_spec h).1.units u hmem)⟩⟩⟩⟩

end Awen.Vcs
