import Awen.Vcs.GitStatus

/-!
# Which changed paths the status recovers

The working tree that is read from the texts that git prints for some changes. The status parser
reads the last word of a path, or the old path of a rename, and the numstat parser reads what stands
behind the first arrow of a path. The working tree lists the changed paths with their counts if and
only if these names do (`recoversStatus_iff`).
-/

namespace Awen.Vcs

open Composer (isSpaceUnit after?)

/-! ## The output of git -/

/-- What git prints about some changes. -/
structure GitOutput where
  /-- The lines about the branch. -/
  headers : List CodeUnits
  changes : List Change
  numstat : List NumstatRecord
  deriving DecidableEq

namespace GitOutput

def statusStdout (output : GitOutput) : CodeUnits :=
  unlines 0xa (output.headers ++ output.changes.map Change.statusLine)

def numstatStdout (output : GitOutput) : CodeUnits :=
  unlines 0xa (output.numstat.map NumstatRecord.line)

/-- The changed paths: the new path of a rename. -/
def paths (output : GitOutput) : List CodeUnits := output.changes.map (·.path)

structure IsPrinted (output : GitOutput) : Prop where
  headers : ∀ header ∈ output.headers, header.head? = some 0x23 ∧ 0xa ∉ header ∧ 0xd ∉ header
  changes : ∀ change ∈ output.changes, change.IsPrinted
  numstat : ∀ record ∈ output.numstat, record.IsPrinted ∧ record.change ∈ output.changes
  nodup_numstat : (output.numstat.map (·.change.path)).Nodup

/-- The counts that the numstat gives for a path: 0 if it gives none. -/
def countsOf (output : GitOutput) (path : CodeUnits) : ℕ × ℕ :=
  match output.numstat.find? fun record ↦ record.change.path = path with
  | some record => (record.insertions.getD 0, record.deletions.getD 0)
  | none => (0, 0)

/-- The counts of the last numstat line that is read as a path. -/
def countsRead (output : GitOutput) (path : CodeUnits) : ℕ × ℕ :=
  match output.numstat.reverse.find? fun record ↦ record.readName = some path with
  | some record => (record.insertions.getD 0, record.deletions.getD 0)
  | none => (0, 0)

/-- **The names that are read are the changed paths**, with their counts. -/
structure NamesRead (output : GitOutput) : Prop where
  statusName : ∀ change ∈ output.changes, change.statusName ∈ output.paths
  readName : ∀ record ∈ output.numstat, ∃ name ∈ output.paths, record.readName = some name
  covered : ∀ path ∈ output.paths, (∃ change ∈ output.changes, change.statusName = path) ∨
    ∃ record ∈ output.numstat, record.readName = some path
  counts : ∀ path ∈ output.paths, output.countsRead path = output.countsOf path

end GitOutput

/-- **A working tree recovers the changes** that git prints: it has one entry for each changed path,
with the counts of the numstat, and their totals. -/
structure RecoversStatus (output : GitOutput) (tree : WorkingTree) : Prop where
  nodup_paths : (tree.files.map (·.path)).Nodup
  mem_paths : ∀ path, path ∈ tree.files.map (·.path) ↔ path ∈ output.paths
  counts : ∀ file ∈ tree.files, file.insertions = (output.countsOf file.path).1 ∧
    file.deletions = (output.countsOf file.path).2
  insertions : tree.insertions = (tree.files.map (·.insertions)).sum
  deletions : tree.deletions = (tree.files.map (·.deletions)).sum

/-! ## Reading the status -/

theorem mem_addToSet {paths : List CodeUnits} {path other : CodeUnits} :
    other ∈ addToSet paths path ↔ other ∈ paths ∨ other = path := by
  unfold addToSet
  split
  next h => exact ⟨.inl, fun hor ↦ hor.elim id (· ▸ h)⟩
  next => simp

theorem nodup_addToSet {paths : List CodeUnits} (h : paths.Nodup) (path : CodeUnits) :
    (addToSet paths path).Nodup := by
  unfold addToSet
  split
  next => exact h
  next hnot => exact List.nodup_append.mpr ⟨h, List.nodup_singleton path, fun a ha b hb ↦ by
    rintro rfl; exact hnot (List.mem_singleton.mp hb ▸ ha)⟩

theorem mem_foldl_addToSet {α : Type*} (name : α → CodeUnits) (items : List α)
    (paths : List CodeUnits) (path : CodeUnits) :
    path ∈ items.foldl (fun paths item ↦ addToSet paths (name item)) paths ↔
      path ∈ paths ∨ ∃ item ∈ items, name item = path := by
  induction items generalizing paths with
  | nil => simp
  | cons item items ih =>
    rw [List.foldl_cons, ih, mem_addToSet, List.exists_mem_cons_iff, or_assoc]
    exact or_congr_right (or_congr_left eq_comm)

theorem nodup_foldl_addToSet {α : Type*} (name : α → CodeUnits) (items : List α)
    {paths : List CodeUnits} (h : paths.Nodup) :
    (items.foldl (fun paths item ↦ addToSet paths (name item)) paths).Nodup := by
  induction items generalizing paths with
  | nil => exact h
  | cons item items ih => exact ih (nodup_addToSet h _)

/-- The lines about the branch start with `#`. -/
theorem after?_branch (field : String) {v : UInt16} (h : v ≠ 0x23) (text : CodeUnits)
    (hfield : (unitsOf field).head? = some 0x23) : after? (unitsOf field) (v :: text) = none := by
  obtain ⟨start, hstart⟩ := List.head?_eq_some_iff.mp hfield
  rw [hstart]
  exact after?_cons_of_ne h start text

/-- A line about the branch changes no path. -/
theorem readLine_header {header : CodeUnits} (h : header.head? = some 0x23) (s : StatusReading) :
    (s.readLine header).changedFilesWithoutNumstat = s.changedFilesWithoutNumstat := by
  obtain ⟨rest, rfl⟩ := List.head?_eq_some_iff.mp h
  have hstart : startsWith (0x23 :: rest) (unitsOf "#") = true := by
    rw [startsWith, List.isPrefixOf_iff_prefix]
    exact ⟨rest, rfl⟩
  unfold StatusReading.readLine
  split
  · rfl
  · split
    · rfl
    · split
      · rfl
      · split
        · rfl
        · rw [if_neg]
          rw [hstart]
          exact fun hnot ↦ Bool.false_ne_true hnot.2

/-- A line of a change adds its path. -/
theorem readLine_change {change : Change} (h : change.IsPrinted) (s : StatusReading) :
    (s.readLine change.statusLine).changedFilesWithoutNumstat =
      addToSet s.changedFilesWithoutNumstat change.statusName := by
  obtain ⟨mark, rest, hline, hmark, hspace⟩ : ∃ mark rest, change.statusLine = mark :: rest ∧
      mark ≠ 0x23 ∧ isSpaceUnit mark = false := by
    unfold Change.statusLine
    split
    · exact ⟨0x31, _, rfl, by decide, by decide⟩
    · exact ⟨0x32, _, rfl, by decide, by decide⟩
    · exact ⟨0x75, _, rfl, by decide, by decide⟩
    · exact ⟨0x3f, _, rfl, by decide, by decide⟩
  have hchange : (Composer.trim change.statusLine).length > 0 ∧
      !startsWith change.statusLine (unitsOf "#") := by
    rw [hline]
    refine ⟨length_trim_cons_pos hspace rest, ?_⟩
    rw [Bool.not_eq_true', Bool.eq_false_iff, startsWith, Ne, List.isPrefixOf_iff_prefix]
    exact fun hpre ↦ hmark (List.cons_prefix_cons.mp hpre).1.symm
  rw [StatusReading.readLine, hline, after?_branch _ hmark _ (by decide),
    after?_branch _ hmark _ (by decide), after?_branch _ hmark _ (by decide),
    after?_branch _ hmark _ (by decide), ← hline]
  dsimp only
  rw [if_pos hchange, parsePorcelainPath_statusLine h]

/-- **The paths that are read off the status.** -/
theorem changedFiles_readStatus {output : GitOutput} (h : output.IsPrinted) :
    (readStatus output.statusStdout).changedFilesWithoutNumstat =
      output.changes.foldl (fun paths change ↦ addToSet paths change.statusName) [] := by
  have hlines : ∀ line ∈ output.headers ++ output.changes.map Change.statusLine,
      (0xa : UInt16) ∉ line ∧ (0xd : UInt16) ∉ line := by
    intro line hline
    obtain hline | hline := List.mem_append.mp hline
    · exact (h.headers line hline).2
    · obtain ⟨change, hchange, rfl⟩ := List.mem_map.mp hline
      have hprinted := h.changes change hchange
      exact ⟨not_mem_statusLine hprinted (by decide) (by decide) (by decide),
        not_mem_statusLine hprinted (by decide) (by decide) (by decide)⟩
  rw [readStatus, GitOutput.statusStdout,
    splitTextLines_unlines (fun line hline ↦ (hlines line hline).1)
      fun line hline hlast ↦ (hlines line hline).2 (List.mem_of_getLast? hlast), List.foldl_append,
    List.foldl_append, List.foldl_map]
  have hheaders : ∀ (headers : List CodeUnits) (s : StatusReading),
      (∀ header ∈ headers, header.head? = some 0x23) →
      (headers.foldl StatusReading.readLine s).changedFilesWithoutNumstat =
        s.changedFilesWithoutNumstat := by
    intro headers
    induction headers with
    | nil => exact fun _ _ ↦ rfl
    | cons header headers ih =>
      intro s hall
      obtain ⟨hheader, hall⟩ := List.forall_mem_cons.mp hall
      rw [List.foldl_cons, ih _ hall, readLine_header hheader]
  have hchanges : ∀ (changes : List Change) (s : StatusReading),
      (∀ change ∈ changes, change.IsPrinted) →
      (changes.foldl (fun s change ↦ s.readLine change.statusLine) s).changedFilesWithoutNumstat =
        changes.foldl (fun paths change ↦ addToSet paths change.statusName)
          s.changedFilesWithoutNumstat := by
    intro changes
    induction changes with
    | nil => exact fun _ _ ↦ rfl
    | cons change changes ih =>
      intro s hall
      obtain ⟨hchange, hall⟩ := List.forall_mem_cons.mp hall
      rw [List.foldl_cons, ih _ hall, readLine_change hchange, List.foldl_cons]
  have hlast (s : StatusReading) : [[]].foldl StatusReading.readLine s = s := by
    rfl
  rw [hlast, hchanges _ _ h.changes, hheaders _ _ fun header hheader ↦ (h.headers header hheader).1]

/-- What is read off a numstat line. -/
def NumstatRecord.entry (record : NumstatRecord) : NumstatEntry where
  path := normalizedPath record.pathText
  insertions := (record.insertions.getD 0 : ℕ)
  deletions := (record.deletions.getD 0 : ℕ)

/-- **The entries of the numstat.** -/
theorem parseNumstatEntries_numstatStdout {output : GitOutput} (h : output.IsPrinted) :
    parseNumstatEntries output.numstatStdout = output.numstat.map NumstatRecord.entry := by
  have hlines : ∀ line ∈ output.numstat.map NumstatRecord.line,
      (0xa : UInt16) ∉ line ∧ (0xd : UInt16) ∉ line := by
    intro line hline
    obtain ⟨record, hrecord, rfl⟩ := List.mem_map.mp hline
    have hprinted := (h.numstat record hrecord).1
    exact ⟨hprinted.not_mem_line (by decide) (by decide) (by decide),
      hprinted.not_mem_line (by decide) (by decide) (by decide)⟩
  rw [parseNumstatEntries, GitOutput.numstatStdout,
    splitTextLines_unlines (fun line hline ↦ (hlines line hline).1)
      fun line hline hlast ↦ (hlines line hline).2 (List.mem_of_getLast? hlast),
    List.filterMap_append, List.filterMap_map]
  have hlast : [[]].filterMap parseNumstatLine = [] := by rfl
  rw [hlast, List.append_nil, ← List.filterMap_eq_map]
  exact List.filterMap_congr fun record hrecord ↦
    parseNumstatLine_line (h.numstat record hrecord).1

/-! ## The working tree -/

/-- The last entry of a path counts. -/
theorem get_fileStatMap (entries : List NumstatEntry) (path : CodeUnits) :
    (fileStatMap entries).get path =
      (entries.reverse.find? fun entry ↦ entry.path = path).map fun entry ↦
        { insertions := entry.insertions, deletions := entry.deletions } := by
  induction entries using List.reverseRecOn with
  | nil => rfl
  | append_singleton entries entry ih =>
    rw [fileStatMap, List.foldl_append, ← fileStatMap, List.foldl_cons, List.foldl_nil,
      List.reverse_append, List.reverse_singleton, List.singleton_append, List.find?_cons]
    by_cases hpath : entry.path = path
    · rw [hpath, OrderedMap.get_set_self, decide_eq_true rfl]
      rfl
    · rw [OrderedMap.get_set_of_ne (Ne.symm hpath), ih, decide_eq_false hpath]

/-- **What a working tree lists**: the paths that are counted and the others, each once. -/
theorem workingTree_spec (localeCompare : CodeUnits → CodeUnits → Ordering)
    (stats : OrderedMap CodeUnits FileStat) {changed : List CodeUnits} (hchanged : changed.Nodup) :
    ((workingTree localeCompare stats changed).files.map (·.path)).Nodup ∧
      (∀ path, path ∈ (workingTree localeCompare stats changed).files.map (·.path) ↔
        path ∈ stats.keys ∨ path ∈ changed) ∧
      (∀ file ∈ (workingTree localeCompare stats changed).files,
        file.insertions = ((stats.get file.path).map (·.insertions)).getD 0 ∧
          file.deletions = ((stats.get file.path).map (·.deletions)).getD 0) ∧
      (workingTree localeCompare stats changed).insertions =
        ((workingTree localeCompare stats changed).files.map (·.insertions)).sum ∧
      (workingTree localeCompare stats changed).deletions =
        ((workingTree localeCompare stats changed).files.map (·.deletions)).sum := by
  let counted : List WorkingTreeFile := stats.entries.map fun entry ↦
    { path := entry.1, insertions := entry.2.insertions, deletions := entry.2.deletions }
  let others : List WorkingTreeFile :=
    (changed.filter fun filePath ↦ !stats.has filePath).map fun filePath ↦
      { path := filePath, insertions := 0, deletions := 0 }
  have hfiles : (workingTree localeCompare stats changed).files.Perm (counted ++ others) :=
    (stableSort_perm _ _).trans ((stableSort_perm _ _).append_right _)
  have hcounted : counted.map (·.path) = stats.keys := List.map_map ..
  have hothers : others.map (·.path) = changed.filter fun filePath ↦ !stats.has filePath :=
    (List.map_map ..).trans (List.map_id _)
  have hpaths : ((workingTree localeCompare stats changed).files.map (·.path)).Perm
      (stats.keys ++ changed.filter fun filePath ↦ !stats.has filePath) := by
    rw [← hcounted, ← hothers, ← List.map_append]
    exact hfiles.map _
  have hzero (f : WorkingTreeFile → ℤ) (hf : ∀ path, f ⟨path, 0, 0⟩ = 0) :
      (others.map f).sum = 0 := by
    refine List.sum_eq_zero fun n hn ↦ ?_
    obtain ⟨file, hfile, rfl⟩ := List.mem_map.mp hn
    obtain ⟨path, -, rfl⟩ := List.mem_map.mp hfile
    exact hf path
  refine ⟨?_, fun path ↦ ?_, fun file hfile ↦ ?_, ?_, ?_⟩
  · refine hpaths.nodup_iff.mpr (List.nodup_append.mpr ⟨stats.nodup, hchanged.filter _, ?_⟩)
    rintro a ha b hb rfl
    have hhas := (List.mem_filter.mp hb).2
    rw [OrderedMap.has_eq_true.mpr ha] at hhas
    cases hhas
  · rw [hpaths.mem_iff, List.mem_append, List.mem_filter]
    refine or_congr_right' fun hnot ↦ and_iff_left ?_
    rw [Bool.not_eq_true', Bool.eq_false_iff]
    exact mt OrderedMap.has_eq_true.mp hnot
  · obtain hfile | hfile := List.mem_append.mp (hfiles.mem_iff.mp hfile)
    · obtain ⟨⟨path, stat⟩, hentry, rfl⟩ := List.mem_map.mp hfile
      rw [OrderedMap.get_eq_some.mpr hentry]
      exact ⟨rfl, rfl⟩
    · obtain ⟨path, hpath, rfl⟩ := List.mem_map.mp hfile
      have hhas := (List.mem_filter.mp hpath).2
      have hget : stats.get path = none := by
        rw [OrderedMap.get_eq_none]
        intro hkey
        rw [OrderedMap.has_eq_true.mpr hkey] at hhas
        cases hhas
      rw [hget]
      exact ⟨rfl, rfl⟩
  · rw [(hfiles.map _).sum_eq, List.map_append, List.sum_append, hzero _ fun _ ↦ rfl, add_zero]
    rfl
  · rw [(hfiles.map _).sum_eq, List.map_append, List.sum_append, hzero _ fun _ ↦ rfl, add_zero]
    rfl

/-- **What the working tree of the output of git lists.** -/
theorem readWorkingTree_spec (localeCompare : CodeUnits → CodeUnits → Ordering)
    {output : GitOutput} (h : output.IsPrinted) :
    let tree := readWorkingTree localeCompare output.statusStdout output.numstatStdout
    (tree.files.map (·.path)).Nodup ∧
      (∀ path, path ∈ tree.files.map (·.path) ↔
        (∃ record ∈ output.numstat, record.entry.path = path) ∨
          ∃ change ∈ output.changes, change.statusName = path) ∧
      (∀ file ∈ tree.files,
        let record := output.numstat.reverse.find? fun record ↦ record.entry.path = file.path
        file.insertions = (record.map (·.entry.insertions)).getD 0 ∧
          file.deletions = (record.map (·.entry.deletions)).getD 0) ∧
      tree.insertions = (tree.files.map (·.insertions)).sum ∧
      tree.deletions = (tree.files.map (·.deletions)).sum := by
  intro tree
  have hchanged : (readStatus output.statusStdout).changedFilesWithoutNumstat.Nodup := by
    rw [changedFiles_readStatus h]
    exact nodup_foldl_addToSet _ _ List.nodup_nil
  have hget (path : CodeUnits) :
      (fileStatMap (parseNumstatEntries output.numstatStdout)).get path =
        (output.numstat.reverse.find? fun record ↦ record.entry.path = path).map fun record ↦
          { insertions := record.entry.insertions, deletions := record.entry.deletions } := by
    rw [parseNumstatEntries_numstatStdout h, get_fileStatMap, ← List.map_reverse, List.find?_map,
      Option.map_map]
    rfl
  obtain ⟨hnodup, hmem, hcounts, hinsertions, hdeletions⟩ := workingTree_spec localeCompare
    (fileStatMap (parseNumstatEntries output.numstatStdout)) hchanged
  refine ⟨hnodup, fun path ↦ (hmem path).trans (or_congr ?_ ?_), fun file hfile ↦ ?_, hinsertions,
    hdeletions⟩
  · rw [OrderedMap.mem_keys, hget]
    constructor
    · rintro ⟨stat, hstat⟩
      obtain ⟨record, hrecord, -⟩ := Option.map_eq_some_iff.mp hstat
      exact ⟨record, List.mem_reverse.mp (List.mem_of_find?_eq_some hrecord),
        by simpa using List.find?_some hrecord⟩
    · rintro ⟨record, hrecord, hpath⟩
      have hsome : (output.numstat.reverse.find? fun record ↦ record.entry.path = path).isSome :=
        List.find?_isSome.mpr ⟨record, List.mem_reverse.mpr hrecord, decide_eq_true hpath⟩
      obtain ⟨found, hfound⟩ := Option.isSome_iff_exists.mp hsome
      exact ⟨_, by rw [hfound]; rfl⟩
  · rw [changedFiles_readStatus h, mem_foldl_addToSet]
    simp
  · have hcount := hcounts file hfile
    rw [hget, Option.map_map, Option.map_map] at hcount
    exact hcount

/-- The counts of a path are those of the last line that is read as the path. -/
theorem countsRead_eq {output : GitOutput}
    (hnames : ∀ record ∈ output.numstat, record.readName = some record.entry.path)
    (path : CodeUnits) :
    let record := output.numstat.reverse.find? fun record ↦ record.entry.path = path
    (record.map (·.entry.insertions)).getD 0 = (output.countsRead path).1 ∧
      (record.map (·.entry.deletions)).getD 0 = (output.countsRead path).2 := by
  intro record
  have hfind : (output.numstat.reverse.find? fun record ↦ record.readName = some path) =
      record := by
    rw [← List.head?_filter]
    refine (congrArg _ (List.filter_congr fun record hrecord ↦ decide_eq_decide.mpr ?_)).trans
      List.head?_filter
    rw [hnames record (List.mem_reverse.mp hrecord), Option.some_inj]
  rw [GitOutput.countsRead, hfind]
  cases record <;> exact ⟨rfl, rfl⟩

theorem NumstatRecord.entry_path_eq {record : NumstatRecord} (h : record.IsPrinted)
    {name : CodeUnits} (hname : record.readName = some name) :
    record.readName = some record.entry.path :=
  hname.trans (congrArg some ((pathText_spec h).2.2.1 name hname).symm)

/-- **A working tree that recovers the changes** was read from their names. -/
theorem RecoversStatus.namesRead {localeCompare : CodeUnits → CodeUnits → Ordering}
    {output : GitOutput} (h : output.IsPrinted)
    (hrecovers : RecoversStatus output
      (readWorkingTree localeCompare output.statusStdout output.numstatStdout)) :
    output.NamesRead := by
  obtain ⟨-, hmem, hcounts, -, -⟩ := readWorkingTree_spec localeCompare h
  have hpath {path : CodeUnits} (hpath : path ∈ output.paths) : IsPathName path := by
    obtain ⟨change, hchange, rfl⟩ := List.mem_map.mp hpath
    exact (h.changes change hchange).path
  have hentry : ∀ record ∈ output.numstat, record.entry.path ∈ output.paths := fun record hrecord ↦
    (hrecovers.mem_paths _).mp ((hmem _).mpr (.inl ⟨record, hrecord, rfl⟩))
  -- a name that is a path has no brace in it
  have hnames : ∀ record ∈ output.numstat, record.readName = some record.entry.path := by
    intro record hrecord
    have hprinted := (h.numstat record hrecord).1
    cases hname : record.readName with
    | none =>
      exact absurd ((NumstatRecord.pathText_spec hprinted).2.2.2 hname)
        ((hpath (hentry record hrecord)).not_mem (by decide))
    | some name => exact hname.symm.trans (record.entry_path_eq hprinted hname)
  constructor
  case statusName =>
    exact fun change hchange ↦
      (hrecovers.mem_paths _).mp ((hmem _).mpr (.inr ⟨change, hchange, rfl⟩))
  case readName =>
    exact fun record hrecord ↦ ⟨_, hentry record hrecord, hnames record hrecord⟩
  case covered =>
    intro path hpath
    obtain ⟨record, hrecord, rfl⟩ | hchange := (hmem _).mp ((hrecovers.mem_paths _).mpr hpath)
    · exact .inr ⟨record, hrecord, hnames record hrecord⟩
    · exact .inl hchange
  case counts =>
    intro path hpath
    obtain ⟨file, hfile, rfl⟩ := List.mem_map.mp ((hrecovers.mem_paths _).mpr hpath)
    obtain ⟨hread, hread'⟩ := hcounts file hfile
    obtain ⟨hcount, hcount'⟩ := countsRead_eq hnames file.path
    obtain ⟨hof, hof'⟩ := hrecovers.counts file hfile
    exact Prod.ext (Int.ofNat_inj.mp (hcount.symm.trans (hread.symm.trans hof)))
      (Int.ofNat_inj.mp (hcount'.symm.trans (hread'.symm.trans hof')))

/-- Names that are the changed paths recover the changes. -/
theorem GitOutput.NamesRead.recoversStatus (localeCompare : CodeUnits → CodeUnits → Ordering)
    {output : GitOutput} (h : output.IsPrinted) (hread : output.NamesRead) :
    RecoversStatus output
      (readWorkingTree localeCompare output.statusStdout output.numstatStdout) := by
  obtain ⟨hnodup, hmem, hcounts, hinsertions, hdeletions⟩ := readWorkingTree_spec localeCompare h
  have hnames : ∀ record ∈ output.numstat, record.readName = some record.entry.path := by
    intro record hrecord
    obtain ⟨name, -, hname⟩ := hread.readName record hrecord
    exact record.entry_path_eq (h.numstat record hrecord).1 hname
  have hpaths : ∀ path, path ∈ (readWorkingTree localeCompare output.statusStdout
      output.numstatStdout).files.map (·.path) ↔ path ∈ output.paths := by
    intro path
    rw [hmem]
    constructor
    · rintro (⟨record, hrecord, rfl⟩ | ⟨change, hchange, rfl⟩)
      · obtain ⟨name, hname, heq⟩ := hread.readName record hrecord
        rw [hnames record hrecord] at heq
        exact Option.some.inj heq ▸ hname
      · exact hread.statusName change hchange
    · intro hpath
      obtain hchange | ⟨record, hrecord, hname⟩ := hread.covered path hpath
      · exact .inr hchange
      · exact .inl ⟨record, hrecord, Option.some.inj ((hnames record hrecord).symm.trans hname)⟩
  constructor
  case nodup_paths => exact hnodup
  case mem_paths => exact hpaths
  case counts =>
    intro file hfile
    have hpath := (hpaths file.path).mp (List.mem_map_of_mem hfile)
    obtain ⟨hfile, hfile'⟩ := hcounts file hfile
    obtain ⟨hcount, hcount'⟩ := countsRead_eq hnames file.path
    rw [← hread.counts file.path hpath]
    exact ⟨hfile.trans hcount, hfile'.trans hcount'⟩
  case insertions => exact hinsertions
  case deletions => exact hdeletions

/-- **The working tree recovers the changes** that git prints if and only if the names that are read
are the changed paths. -/
theorem recoversStatus_iff (localeCompare : CodeUnits → CodeUnits → Ordering) {output : GitOutput}
    (h : output.IsPrinted) :
    RecoversStatus output
      (readWorkingTree localeCompare output.statusStdout output.numstatStdout) ↔
        output.NamesRead :=
  ⟨RecoversStatus.namesRead h, GitOutput.NamesRead.recoversStatus localeCompare h⟩

/-! ## A path with a space -/

/-- One changed file with a space in its name. -/
def spacedOutput : GitOutput where
  headers := [unitsOf "# branch.head main"]
  changes := [{ path := unitsOf "my file", kind := .ordinary (["M.", "N..."].map unitsOf) }]
  numstat := [{
    change := { path := unitsOf "my file", kind := .ordinary (["M.", "N..."].map unitsOf) }
    insertions := some 1
    deletions := some 0
    braces := none }]

theorem isPrinted_spacedOutput : spacedOutput.IsPrinted := by
  have hpath : IsPathName (unitsOf "my file") := ⟨by decide, by decide, by decide, by decide⟩
  have hchange : Change.IsPrinted
      { path := unitsOf "my file", kind := .ordinary (["M.", "N..."].map unitsOf) } :=
    ⟨hpath, fun _ _ h ↦ (nomatch h), by decide⟩
  refine ⟨by decide, List.forall_mem_singleton.mpr hchange, List.forall_mem_singleton.mpr
    ⟨⟨hchange, fun _ _ _ h ↦ (nomatch h)⟩, List.mem_singleton_self _⟩, List.nodup_singleton _⟩

/-- The last word of the name is listed as a file. -/
theorem not_recoversStatus_spacedOutput : spacedOutput.IsPrinted ∧
    ¬RecoversStatus spacedOutput (readWorkingTree (fun _ _ ↦ .eq) spacedOutput.statusStdout
      spacedOutput.numstatStdout) := by
  refine ⟨isPrinted_spacedOutput, fun h ↦ ?_⟩
  have hname := (h.namesRead isPrinted_spacedOutput).statusName _ (List.mem_singleton_self _)
  revert hname
  decide

theorem recoversStatus_iff_spacedOutput :
    RecoversStatus spacedOutput (readWorkingTree (fun _ _ ↦ .eq) spacedOutput.statusStdout
      spacedOutput.numstatStdout) ↔ spacedOutput.NamesRead :=
  recoversStatus_iff _ isPrinted_spacedOutput

end Awen.Vcs
