import Awen.Library.TextLines
import Awen.Timeline.TurnDiffTreeFiles

/-!
# Paths and names in the tree of changed files

Where each node of the tree stands (`wellPlaced_treeOf`), that the paths of the directories are
distinct (`nodup_directoryPathsOf_treeOf`), and that the tree of files whose names differ does not
depend on their order (`treeOf_perm`).
-/

namespace Awen.Timeline

open MutableDirectoryNode

variable {compareNames : CodeUnits → CodeUnits → Ordering}

/-! ## Counts -/

/-- The counts that a list of optional counts adds up to. -/
theorem foldl_add_eq (stat : TurnDiffStat) (counts : List (Option TurnDiffStat)) :
    counts.foldl TurnDiffStat.add stat =
      { additions :=
          stat.additions + (counts.map fun stat ↦ (stat.map (·.additions)).getD 0).sum
        deletions :=
          stat.deletions + (counts.map fun stat ↦ (stat.map (·.deletions)).getD 0).sum } := by
  induction counts generalizing stat with
  | nil => rfl
  | cons count counts ih =>
    rw [List.foldl_cons, ih]
    cases count with
    | none => simp [TurnDiffStat.add]
    | some count => simp [TurnDiffStat.add, Nat.add_assoc]

/-- What some optional counts add up to. -/
def sumStats (counts : List (Option TurnDiffStat)) : TurnDiffStat :=
  counts.foldl TurnDiffStat.add { additions := 0, deletions := 0 }

theorem sumStats_perm {counts others : List (Option TurnDiffStat)} (h : counts.Perm others) :
    sumStats counts = sumStats others := by
  rw [sumStats, sumStats, foldl_add_eq, foldl_add_eq, (h.map _).sum_eq, (h.map _).sum_eq]

theorem sumStats_append (counts others : List (Option TurnDiffStat)) :
    sumStats (counts ++ others) = (sumStats counts).add (some (sumStats others)) := by
  rw [sumStats, List.foldl_append, foldl_add_eq, ← sumStats, sumStats, foldl_add_eq, sumStats,
    foldl_add_eq, TurnDiffStat.add]
  simp only [Nat.zero_add]

theorem total_eq (files : List TurnDiffTreeFileNode) :
    total files = sumStats (files.map (·.stat)) := (List.foldl_map ..).symm

theorem total_perm {files others : List TurnDiffTreeFileNode} (h : files.Perm others) :
    total files = total others := by
  rw [total_eq, total_eq, sumStats_perm (h.map _)]

/-! ## Places -/

theorem nextPath_of_ne_nil {path : CodeUnits} (h : path ≠ []) (name : CodeUnits) :
    nextPath path name = path ++ slash :: name := if_pos (List.length_pos_iff.mpr h)

theorem nextPath_ne_nil (path : CodeUnits) {name : CodeUnits} (h : name ≠ []) :
    nextPath path name ≠ [] := by
  unfold nextPath
  split
  · exact List.append_ne_nil_of_right_ne_nil _ (List.cons_ne_nil _ _)
  · exact h

/-- Entering two directories is entering one with the joined name. -/
theorem nextPath_nextPath (path : CodeUnits) {name : CodeUnits} (h : name ≠ [])
    (childName : CodeUnits) :
    nextPath (nextPath path name) childName = nextPath path (name ++ slash :: childName) := by
  rw [nextPath_of_ne_nil (nextPath_ne_nil path h)]
  unfold nextPath
  split
  · rw [List.append_assoc, List.cons_append]
  · rfl

/-- The files have the paths that their directories give them. -/
def Located (path : CodeUnits) (entries : List FileEntry) : Prop :=
  ∀ entry ∈ entries, (∀ segment ∈ entry.1, segment ≠ []) ∧
    entry.2.path = nextPath (entry.1.foldl nextPath path) entry.2.name

theorem Located.entriesBelow {path : CodeUnits} {entries : List FileEntry}
    (h : Located path entries) (name : CodeUnits) :
    Located (nextPath path name) (entriesBelow name entries) := fun entry hentry ↦ by
  obtain ⟨hsegments, hpath⟩ := h _ (mem_entriesBelow.mp hentry)
  exact ⟨(List.forall_mem_cons.mp hsegments).2, hpath⟩

theorem Located.ne_nil {path : CodeUnits} {entries : List FileEntry} (h : Located path entries)
    {name : CodeUnits} (hname : name ∈ levelNames entries) : name ≠ [] := by
  obtain ⟨segments, file, hentry⟩ := mem_levelNames.mp hname
  exact (h _ hentry).1 name List.mem_cons_self

/-- A node has the path that the names of its directories and its own name make up, and a directory
counts its files. -/
def WellPlaced (path : CodeUnits) (names : List CodeUnits) : TurnDiffTreeNode → Prop
  | .directory name ownPath stat children =>
    name ≠ [] ∧ ownPath = nextPath (names.foldl nextPath path) name ∧
      stat = total (leavesOf children)
  | .file node => node.path = nextPath (names.foldl nextPath path) node.name

/-- **Every node of the tree has its place.** -/
theorem wellPlaced_treeOf {path : CodeUnits} {entries : List FileEntry}
    (hlocated : Located path entries) {names : List CodeUnits} {node : TurnDiffTreeNode}
    (hat : At (treeOf compareNames path entries) names node) : WellPlaced path names node := by
  induction path, entries using level_induction generalizing names node with
  | step path entries ih =>
    have hbelow {name : CodeUnits} (hname : name ∈ levelNames entries) {names : List CodeUnits}
        {node : TurnDiffTreeNode}
        (hat : At (nodesBelow compareNames path entries name) names node) :
        WellPlaced (nextPath path name) names node :=
      ih name hname (hlocated.entriesBelow name) hat
    cases hat with
    | here hnode =>
      obtain ⟨name, hname, rfl⟩ | ⟨file, hfile, rfl⟩ := mem_treeOf.mp hnode
      · have hne := hlocated.ne_nil hname
        obtain ⟨childName, childPath, childStat, children, hnodes, hmerged⟩ | ⟨-, hkept⟩ :=
          directoryNode_cases (@allCompact_treeOf compareNames (nextPath path name)
            (entriesBelow name entries))
        · obtain ⟨-, hpath, hstat⟩ := hbelow hname (.here (hnodes ▸ List.mem_singleton_self _))
          rw [hmerged]
          exact ⟨List.append_ne_nil_of_left_ne_nil hne _,
            hpath.trans (nextPath_nextPath path hne childName), hstat⟩
        · rw [hkept]
          exact ⟨hne, rfl, total_perm (leavesOf_treeOf _ _).symm⟩
      · exact (hlocated _ hfile).2
    | @inside _ dirName dirPath dirStat dirChildren names node hdirectory hnode =>
      obtain ⟨name, hname, heq⟩ | ⟨file, -, heq⟩ := mem_treeOf.mp hdirectory
      · have hne := hlocated.ne_nil hname
        obtain ⟨childName, childPath, childStat, children, hnodes, hmerged⟩ | ⟨-, hkept⟩ :=
          directoryNode_cases (@allCompact_treeOf compareNames (nextPath path name)
            (entriesBelow name entries))
        · rw [hmerged] at heq
          cases heq
          have hplaced := hbelow hname (.inside (hnodes ▸ List.mem_singleton_self _) hnode)
          unfold WellPlaced at hplaced ⊢
          rw [List.foldl_cons, nextPath_nextPath path hne] at hplaced
          exact hplaced
        · rw [hkept] at heq
          cases heq
          exact hbelow hname hnode
      · cases heq

/-! ## Distinct paths -/

/-- A segment of a path. -/
def IsSegment (segment : CodeUnits) : Prop := segment ≠ [] ∧ slash ∉ segment

theorem joinSegments_singleton (segment : CodeUnits) : joinSegments [segment] = segment := by
  simp [joinSegments]

theorem joinSegments_cons (segment : CodeUnits) {segments : List CodeUnits} (h : segments ≠ []) :
    joinSegments (segment :: segments) = segment ++ slash :: joinSegments segments := by
  rw [joinSegments, List.intercalate_cons_of_ne_nil h, List.append_assoc]
  rfl

theorem joinSegments_concat {segments : List CodeUnits} (h : ∀ segment ∈ segments, segment ≠ [])
    (name : CodeUnits) :
    joinSegments (segments ++ [name]) = nextPath (joinSegments segments) name := by
  cases segments with
  | nil => exact joinSegments_singleton name
  | cons segment segments =>
    have hne : joinSegments (segment :: segments) ≠ [] := by
      cases segments with
      | nil =>
        rw [joinSegments_singleton]
        exact h segment List.mem_cons_self
      | cons other segments =>
        rw [joinSegments_cons _ (List.cons_ne_nil _ _)]
        exact List.append_ne_nil_of_right_ne_nil _ (List.cons_ne_nil _ _)
    rw [nextPath_of_ne_nil hne]
    clear hne h
    induction segments generalizing segment with
    | nil =>
      rw [List.singleton_append, joinSegments_cons _ (List.cons_ne_nil _ _),
        joinSegments_singleton, joinSegments_singleton]
    | cons other segments ih =>
      rw [List.cons_append, joinSegments_cons _ (by simp), ih,
        joinSegments_cons _ (List.cons_ne_nil _ _), List.append_assoc, List.cons_append]

theorem foldl_nextPath {segments : List CodeUnits} (h : ∀ segment ∈ segments, segment ≠ [])
    {more : List CodeUnits} (hmore : ∀ segment ∈ more, segment ≠ []) :
    more.foldl nextPath (joinSegments segments) = joinSegments (segments ++ more) := by
  induction more generalizing segments with
  | nil => rw [List.append_nil, List.foldl_nil]
  | cons name more ih =>
    obtain ⟨hname, hmore⟩ := List.forall_mem_cons.mp hmore
    rw [List.foldl_cons, ← joinSegments_concat h, ih (fun segment hsegment ↦ ?_) hmore,
      List.append_assoc]
    · rfl
    · obtain hsegment | hsegment := List.mem_append.mp hsegment
      · exact h segment hsegment
      · exact List.mem_singleton.mp hsegment ▸ hname

/-- **The segments of a path are determined by the path.** -/
theorem joinSegments_injective {segments others : List CodeUnits}
    (hsegments : ∀ segment ∈ segments, IsSegment segment) (hne : segments ≠ [])
    (hothers : ∀ segment ∈ others, IsSegment segment) (hne' : others ≠ [])
    (h : joinSegments segments = joinSegments others) : segments = others := by
  rw [← List.splitOn_intercalate slash (fun segment hsegment ↦ (hsegments segment hsegment).2) hne,
    ← List.splitOn_intercalate slash (fun segment hsegment ↦ (hothers segment hsegment).2) hne']
  exact congrArg _ h

/-- The directories of the files are segments. -/
def HasSegments (entries : List FileEntry) : Prop :=
  ∀ entry ∈ entries, ∀ segment ∈ entry.1, IsSegment segment

theorem HasSegments.entriesBelow {entries : List FileEntry} (h : HasSegments entries)
    (name : CodeUnits) : HasSegments (entriesBelow name entries) := fun _ hentry segment hsegment ↦
  h _ (mem_entriesBelow.mp hentry) segment (List.mem_cons_of_mem name hsegment)

theorem HasSegments.isSegment {entries : List FileEntry} (h : HasSegments entries)
    {name : CodeUnits} (hname : name ∈ levelNames entries) : IsSegment name := by
  obtain ⟨segments, file, hentry⟩ := mem_levelNames.mp hname
  exact h _ hentry name List.mem_cons_self

/-- The paths below a directory of a level, and its own. -/
abbrev pathsUnder (compareNames : CodeUnits → CodeUnits → Ordering) (path : CodeUnits)
    (entries : List FileEntry) (name : CodeUnits) : List CodeUnits :=
  nextPath path name :: directoryPathsOf (nodesBelow compareNames path entries name)

theorem directoryPaths_sublist (path : CodeUnits) (entries : List FileEntry) (name : CodeUnits) :
    (directoryNode compareNames path entries name).directoryPaths.Sublist
      (pathsUnder compareNames path entries name) := by
  obtain ⟨childName, childPath, childStat, children, hnodes, hmerged⟩ | ⟨-, hkept⟩ :=
    directoryNode_cases (@allCompact_treeOf compareNames (nextPath path name)
      (entriesBelow name entries))
  · rw [hmerged, pathsUnder, hnodes]
    rw [directoryPathsOf, directoryPathsOf, List.append_nil]
    exact .cons _ (.refl _)
  · rw [hkept]
    exact .refl _

theorem directoryPathsOf_treeOf (path : CodeUnits) (entries : List FileEntry) :
    directoryPathsOf (treeOf compareNames path entries) =
      (sortedNames compareNames entries).flatMap fun name ↦
        (directoryNode compareNames path entries name).directoryPaths := by
  rw [treeOf_eq, directoryPathsOf_eq, List.flatMap_append, List.flatMap_map, List.flatMap_map]
  exact (congrArg _ (List.flatMap_eq_nil_iff.mpr fun file _ ↦ rfl)).trans (List.append_nil _)

/-- **The directories of the tree have distinct paths**, which start with the path of the level. -/
theorem directoryPathsOf_treeOf_spec {path : CodeUnits} {entries : List FileEntry}
    (hentries : HasSegments entries) {segments : List CodeUnits}
    (hpath : path = joinSegments segments)
    (hsegments : ∀ segment ∈ segments, IsSegment segment) :
    (directoryPathsOf (treeOf compareNames path entries)).Nodup ∧
      ∀ other ∈ directoryPathsOf (treeOf compareNames path entries), ∃ name more,
        name ∈ levelNames entries ∧ (∀ segment ∈ more, IsSegment segment) ∧
          other = joinSegments (segments ++ name :: more) := by
  induction path, entries using level_induction generalizing segments with
  | step path entries ih =>
    have hbelow {name : CodeUnits} (hname : name ∈ levelNames entries) :
        (pathsUnder compareNames path entries name).Nodup ∧
          ∀ other ∈ pathsUnder compareNames path entries name, ∃ more,
            (∀ segment ∈ more, IsSegment segment) ∧
              other = joinSegments (segments ++ name :: more) := by
      have hsegment := hentries.isSegment hname
      have hall : ∀ segment ∈ segments ++ [name], IsSegment segment := fun segment h ↦
        (List.mem_append.mp h).elim (hsegments segment) fun h ↦ List.mem_singleton.mp h ▸ hsegment
      have hown : nextPath path name = joinSegments (segments ++ [name]) := by
        rw [joinSegments_concat fun segment h ↦ (hsegments segment h).1, hpath]
      obtain ⟨hnodup, hpaths⟩ := ih name hname (hentries.entriesBelow name) hown hall
      refine ⟨List.nodup_cons.mpr ⟨fun hmem ↦ ?_, hnodup⟩, List.forall_mem_cons.mpr
        ⟨⟨[], List.forall_mem_nil _, hown⟩, fun other hother ↦ ?_⟩⟩
      · -- a path below has more segments
        obtain ⟨child, more, hchild, hmore, heq⟩ := hpaths _ hmem
        have hchild := (hentries.entriesBelow name).isSegment hchild
        have hlength := congrArg List.length (joinSegments_injective hall (by simp)
          (fun segment h ↦ (List.mem_append.mp h).elim (hall segment) fun h ↦
            (List.mem_cons.mp h).elim (fun h ↦ h ▸ hchild) (hmore segment)) (by simp)
          (hown.symm.trans heq))
        simp at hlength
      · obtain ⟨child, more, hchild, hmore, rfl⟩ := hpaths other hother
        have hchild := (hentries.entriesBelow name).isSegment hchild
        exact ⟨child :: more, List.forall_mem_cons.mpr ⟨hchild, hmore⟩, by simp⟩
    rw [directoryPathsOf_treeOf]
    constructor
    · refine List.nodup_flatMap.mpr ⟨fun name hname ↦ (hbelow (mem_sortedNames.mp hname)).1.sublist
        (directoryPaths_sublist ..), ?_⟩
      have hnodup : (sortedNames compareNames entries).Nodup :=
        (stableSort_perm _ _).nodup_iff.mpr (nodup_eraseDups _)
      refine hnodup.imp_of_mem fun {name name'} hname hname' hne other hother hother' ↦ hne ?_
      have hname := mem_sortedNames.mp hname
      have hname' := mem_sortedNames.mp hname'
      obtain ⟨more, hmore, heq⟩ :=
        (hbelow hname).2 other ((directoryPaths_sublist ..).subset hother)
      obtain ⟨more', hmore', heq'⟩ :=
        (hbelow hname').2 other ((directoryPaths_sublist ..).subset hother')
      have hall {name : CodeUnits} (hname : name ∈ levelNames entries) {more : List CodeUnits}
          (hmore : ∀ segment ∈ more, IsSegment segment) :
          ∀ segment ∈ segments ++ name :: more, IsSegment segment := fun segment h ↦
        (List.mem_append.mp h).elim (hsegments segment) fun h ↦
          (List.mem_cons.mp h).elim (fun h ↦ h ▸ hentries.isSegment hname) (hmore segment)
      have hsame := joinSegments_injective (hall hname hmore) (by simp) (hall hname' hmore')
        (by simp) (heq.symm.trans heq')
      exact (List.cons.inj (List.append_cancel_left hsame)).1
    · intro other hother
      obtain ⟨name, hname, hother⟩ := List.mem_flatMap.mp hother
      have hname := mem_sortedNames.mp hname
      obtain ⟨more, hmore, heq⟩ :=
        (hbelow hname).2 other ((directoryPaths_sublist ..).subset hother)
      exact ⟨name, more, hname, hmore, heq⟩

/-! ## The order of the files -/

/-- Two files whose names, and the names of whose directories, can be told apart where they stand
beside each other. -/
def Apart (compareNames : CodeUnits → CodeUnits → Ordering) (entry other : FileEntry) : Prop :=
  (entry.1 = other.1 → compareNames entry.2.name other.2.name ≠ .eq) ∧
    ∀ common name name', common ++ [name] <+: entry.1 → common ++ [name'] <+: other.1 →
      name ≠ name' → compareNames name name' ≠ .eq

theorem Apart.symm [Std.TransCmp compareNames] {entry other : FileEntry}
    (h : Apart compareNames entry other) : Apart compareNames other entry := by
  have hswap {left right : CodeUnits} (hne : compareNames left right ≠ .eq) :
      compareNames right left ≠ .eq := fun heq ↦ hne (Std.OrientedCmp.eq_symm heq)
  exact ⟨fun heq ↦ hswap (h.1 heq.symm), fun common name name' hname hname' hne ↦
    hswap (h.2 common name' name hname' hname (Ne.symm hne))⟩

theorem not_ties_of_ne_eq [Std.TransCmp compareNames] {left right : CodeUnits}
    (h : compareNames left right ≠ .eq) :
    ¬ties (fun a b ↦ (compareNames a b).isLE) left right = true := by
  intro hties
  obtain ⟨hle, hge⟩ := ties_eq_true.mp hties
  have hswap : compareNames right left = (compareNames left right).swap := Std.OrientedCmp.eq_swap
  rw [hswap] at hge
  cases hcompare : compareNames left right with
  | lt =>
    rw [hcompare] at hge
    cases hge
  | eq => exact h hcompare
  | gt =>
    rw [hcompare] at hle
    cases hle

theorem entriesBelow_perm {entries others : List FileEntry} (h : entries.Perm others)
    (name : CodeUnits) : (entriesBelow name entries).Perm (entriesBelow name others) :=
  ((h.filterMap _).filter _).map _

theorem Apart.entriesBelow {entries : List FileEntry} (h : entries.Pairwise (Apart compareNames))
    (name : CodeUnits) : (entriesBelow name entries).Pairwise (Apart compareNames) := by
  refine List.pairwise_map.mpr ?_
  have hentered : (entries.filterMap FileEntry.enter).Pairwise fun entered entered' ↦
      entered.1 = entered'.1 → Apart compareNames entered.2 entered'.2 := by
    refine List.pairwise_filterMap.mpr (h.imp fun {entry other} hapart entered henter entered'
      henter' hname ↦ ?_)
    rw [enter_eq_some.mp henter, enter_eq_some.mp henter', hname] at hapart
    refine ⟨fun heq ↦ hapart.1 (congrArg (entered'.1 :: ·) heq),
      fun common name name' hcommon hcommon' ↦ ?_⟩
    exact hapart.2 (entered'.1 :: common) name name' (List.cons_prefix_cons.mpr ⟨rfl, hcommon⟩)
      (List.cons_prefix_cons.mpr ⟨rfl, hcommon'⟩)
  refine (hentered.sublist List.filter_sublist).imp_of_mem fun hmem hmem' hapart ↦ hapart ?_
  exact (of_decide_eq_true (List.mem_filter.mp hmem).2).trans
    (of_decide_eq_true (List.mem_filter.mp hmem').2).symm

theorem sortedNames_perm [Std.TransCmp compareNames] {entries others : List FileEntry}
    (hapart : entries.Pairwise (Apart compareNames)) (hperm : entries.Perm others) :
    sortedNames compareNames entries = sortedNames compareNames others := by
  refine (consistentLe_isLE compareNames).stableSort_eq_of_perm ?_ ?_
  · refine (List.perm_ext_iff_of_nodup (nodup_eraseDups _) (nodup_eraseDups _)).mpr fun name ↦ ?_
    exact mem_levelNames.trans ((exists_congr fun segments ↦ exists_congr fun file ↦
      hperm.mem_iff).trans mem_levelNames.symm)
  · have hsymm : Std.Symm (Apart compareNames) := ⟨fun _ _ h ↦ h.symm⟩
    have hnodup : (levelNames entries).Nodup := nodup_eraseDups _
    refine hnodup.imp_of_mem fun {name name'} hname hname' hne ↦ not_ties_of_ne_eq ?_
    obtain ⟨segments, file, hentry⟩ := mem_levelNames.mp hname
    obtain ⟨segments', file', hentry'⟩ := mem_levelNames.mp hname'
    have hentries : ((name :: segments, file) : FileEntry) ≠ (name' :: segments', file') :=
      fun h ↦ hne (List.cons.inj (Prod.mk.inj h).1).1
    exact (hapart.forall hentry hentry' hentries).2 [] name name' ⟨segments, rfl⟩
      ⟨segments', rfl⟩ hne

theorem sortedFiles_perm [Std.TransCmp compareNames] {entries others : List FileEntry}
    (hapart : entries.Pairwise (Apart compareNames)) (hperm : entries.Perm others) :
    sortedFiles compareNames entries = sortedFiles compareNames others := by
  have := transCmp_comap compareNames TurnDiffTreeFileNode.name
  refine (consistentLe_isLE fun a b : TurnDiffTreeFileNode ↦
    compareNames a.name b.name).stableSort_eq_of_perm ((hperm.filter _).map _) ?_
  refine List.pairwise_map.mpr ((hapart.sublist List.filter_sublist).imp_of_mem
    fun {entry other} hmem hmem' hapart hties ↦ ?_)
  have hdirectories : entry.1 = other.1 := (of_decide_eq_true (List.mem_filter.mp hmem).2).trans
    (of_decide_eq_true (List.mem_filter.mp hmem').2).symm
  exact not_ties_of_ne_eq (hapart.1 hdirectories) hties

/-- **The tree of files whose names can be told apart** does not depend on their order. -/
theorem treeOf_perm [Std.TransCmp compareNames] {path : CodeUnits} {entries others : List FileEntry}
    (hapart : entries.Pairwise (Apart compareNames)) (hperm : entries.Perm others) :
    treeOf compareNames path entries = treeOf compareNames path others := by
  induction path, entries using level_induction generalizing others with
  | step path entries ih =>
    rw [treeOf_eq, treeOf_eq, sortedNames_perm hapart hperm, sortedFiles_perm hapart hperm]
    refine congrArg (· ++ _) (List.map_congr_left fun name hname ↦ ?_)
    have hname : name ∈ levelNames entries := by
      rw [← @mem_sortedNames compareNames, sortedNames_perm hapart hperm]
      exact hname
    have hbelow := entriesBelow_perm hperm name
    rw [directoryNode, directoryNode, total_perm (hbelow.map Prod.snd),
      ih name hname (Apart.entriesBelow hapart name) hbelow]

/-! ## The tree -/

theorem isSegment_of_mem_normalizePathSegments {pathValue segment : CodeUnits}
    (h : segment ∈ normalizePathSegments pathValue) : IsSegment segment := by
  obtain ⟨hmem, hpos⟩ := List.mem_filter.mp h
  refine ⟨List.ne_nil_of_length_pos (of_decide_eq_true hpos), ?_⟩
  rw [splitOn_eq] at hmem
  obtain hmem | hmem := List.mem_append.mp hmem
  · exact not_mem_of_mem_terminatedLines slash hmem
  · exact List.mem_singleton.mp hmem ▸ not_mem_partialLine slash _

/-- The files that have a path. -/
def keptFiles (files : List TurnDiffFileChange) : List TurnDiffFileChange :=
  files.filter fun file ↦ normalizePathSegments file.path ≠ []

theorem fileEntry_eq_some {file : TurnDiffFileChange} {entry : FileEntry} :
    fileEntry file = some entry ↔
      normalizePathSegments file.path = entry.1 ++ [entry.2.name] ∧
        entry.2.path = joinSegments (normalizePathSegments file.path) ∧
        entry.2.stat = readStat file := by
  obtain ⟨segments, name, path, stat⟩ := entry
  constructor
  · intro h
    obtain ⟨fileName, hlast, heq⟩ := Option.map_eq_some_iff.mp h
    cases heq
    exact ⟨(List.dropLast_append_getLast? _ hlast).symm, rfl, rfl⟩
  · rintro ⟨hsegments, hpath, hstat⟩
    dsimp only at hsegments hpath hstat
    rw [fileEntry, hsegments, List.getLast?_concat, Option.map_some, List.dropLast_concat, hpath,
      hstat, hsegments]

theorem fileEntry_eq_none {file : TurnDiffFileChange} :
    fileEntry file = none ↔ normalizePathSegments file.path = [] := by
  rw [fileEntry, Option.map_eq_none_iff, List.getLast?_eq_none_iff]

/-- What is filed are the files that have a path. -/
theorem map_filterMap_fileEntry (files : List TurnDiffFileChange) :
    (files.filterMap fileEntry).map (fun entry ↦ (entry.2.path, entry.2.stat)) =
      (keptFiles files).map fun file ↦
        (joinSegments (normalizePathSegments file.path), readStat file) := by
  induction files with
  | nil => rfl
  | cons file files ih =>
    cases hentry : fileEntry file with
    | none =>
      rw [List.filterMap_cons_none hentry, ih, keptFiles, keptFiles,
        List.filter_cons_of_neg (by simp [fileEntry_eq_none.mp hentry])]
    | some entry =>
      obtain ⟨hsegments, hpath, hstat⟩ := fileEntry_eq_some.mp hentry
      rw [List.filterMap_cons_some hentry, List.map_cons, ih, keptFiles, keptFiles,
        List.filter_cons_of_pos (by simp [hsegments]), List.map_cons, hpath, hstat]

theorem buildTurnDiffTree_eq (files : List TurnDiffFileChange) :
    buildTurnDiffTree compareNames files =
      treeOf compareNames [] (files.filterMap fileEntry) := by
  rw [buildTurnDiffTree, treeOf, build, addFiles, List.foldl_filterMap]
  refine congrArg _ (congrArg (fun step ↦ files.foldl step (created [] [])) ?_)
  funext root file
  cases fileEntry file <;> rfl

theorem located_filterMap_fileEntry (files : List TurnDiffFileChange) :
    Located [] (files.filterMap fileEntry) := by
  intro entry hentry
  obtain ⟨file, -, hfile⟩ := List.mem_filterMap.mp hentry
  obtain ⟨hsegments, hpath, -⟩ := fileEntry_eq_some.mp hfile
  have hne : ∀ segment ∈ entry.1, segment ≠ [] := fun segment h ↦
    (isSegment_of_mem_normalizePathSegments (hsegments ▸ List.mem_append_left _ h)).1
  have hjoin := @foldl_nextPath [] (List.forall_mem_nil _) _ hne
  refine ⟨hne, ?_⟩
  rw [hpath, hsegments, joinSegments_concat hne]
  exact congrArg (nextPath · _) hjoin.symm

theorem hasSegments_filterMap_fileEntry (files : List TurnDiffFileChange) :
    HasSegments (files.filterMap fileEntry) := by
  intro entry hentry segment hsegment
  obtain ⟨file, -, hfile⟩ := List.mem_filterMap.mp hentry
  exact isSegment_of_mem_normalizePathSegments
    ((fileEntry_eq_some.mp hfile).1 ▸ List.mem_append_left _ hsegment)

/-- The counts that a node shows. -/
def TurnDiffTreeNode.shownStat : TurnDiffTreeNode → Option TurnDiffStat
  | .directory _ _ stat _ => some stat
  | .file node => node.stat

/-- Nodes whose directories count their files show the counts of their files. -/
theorem sumStats_shownStat {nodes : List TurnDiffTreeNode}
    (h : ∀ name path stat children, .directory name path stat children ∈ nodes →
      stat = total (leavesOf children)) :
    sumStats (nodes.map (·.shownStat)) = total (leavesOf nodes) := by
  induction nodes with
  | nil => rfl
  | cons node nodes ih =>
    have hnode : sumStats [node.shownStat] = total node.leaves := by
      cases node with
      | directory name path stat children =>
        rw [TurnDiffTreeNode.leaves, ← h name path stat children List.mem_cons_self,
          TurnDiffTreeNode.shownStat]
        simp [sumStats, TurnDiffStat.add]
      | file node => rfl
    rw [List.map_cons, ← List.singleton_append, sumStats_append, hnode,
      ih fun name path stat children hmem ↦
        h name path stat children (List.mem_cons_of_mem _ hmem),
      leavesOf, total_eq, total_eq, ← sumStats_append, ← List.map_append, ← total_eq]

/-- **A tree accounts for some files.** -/
structure AccountsFor (files : List TurnDiffFileChange) (tree : List TurnDiffTreeNode) :
    Prop where
  /-- The files of the tree are the files that have a path, with their counts. -/
  leaves : ((leavesOf tree).map fun file ↦ (file.path, file.stat)).Perm
    ((keptFiles files).map fun file ↦
      (joinSegments (normalizePathSegments file.path), readStat file))
  /-- A directory counts the files below it. -/
  stat_eq : ∀ {names name path stat children},
    At tree names (.directory name path stat children) → stat = total (leavesOf children)
  rootStat_eq : sumStats (tree.map (·.shownStat)) = summarizeTurnDiffStats (keptFiles files)
  prefix_path : ∀ {names name path stat children file},
    At tree names (.directory name path stat children) → .file file ∈ children →
      path ++ [slash] <+: file.path
  path_eq : ∀ {names file}, At tree names (.file file) →
    file.path = joinSegments (names ++ [file.name])
  not_onlyDirectory : ∀ {names name path stat children},
    At tree names (.directory name path stat children) → ¬OnlyDirectory children
  nodup_paths : (directoryPathsOf tree).Nodup

/-- A node of a compact tree is compact. -/
theorem At.isCompact {tree : List TurnDiffTreeNode} {names : List CodeUnits}
    {node : TurnDiffTreeNode} (hat : At tree names node) (h : AllCompact tree) :
    node.IsCompact := by
  induction hat with
  | here hnode => exact allCompact_iff.mp h _ hnode
  | inside hdirectory _ ih => exact ih (allCompact_iff.mp h _ hdirectory).2

/-- The directories down to a node are nodes. -/
theorem At.ne_nil_of_mem {tree : List TurnDiffTreeNode} {names : List CodeUnits}
    {node : TurnDiffTreeNode} (hat : At tree names node) {path : CodeUnits}
    (h : ∀ {names node}, At tree names node → WellPlaced path names node) :
    ∀ name ∈ names, name ≠ [] := by
  induction hat generalizing path with
  | here => exact List.forall_mem_nil _
  | inside hdirectory hnode ih =>
    refine List.forall_mem_cons.mpr ⟨(h (.here hdirectory)).1, ?_⟩
    exact @ih (nextPath path _) fun hat ↦ by
      have := h (.inside hdirectory hat)
      unfold WellPlaced at this ⊢
      exact this

/-- A file in a directory. -/
theorem At.file {tree : List TurnDiffTreeNode} {names : List CodeUnits} {name path : CodeUnits}
    {stat : TurnDiffStat} {children : List TurnDiffTreeNode} {node : TurnDiffTreeNode}
    (hat : At tree names (.directory name path stat children)) (hnode : node ∈ children) :
    At tree (names ++ [name]) node := by
  generalize hdirectory : TurnDiffTreeNode.directory name path stat children = directory at hat
  induction hat with
  | here hmem => exact .inside (hdirectory ▸ hmem) (.here hnode)
  | inside hmem _ ih => exact .inside hmem (ih hdirectory)

/-- **The tree of changed files accounts for every file**, and where names can be told apart, it
does not depend on the order of the files. -/
theorem buildTurnDiffTree_spec (compareNames : CodeUnits → CodeUnits → Ordering)
    [Std.TransCmp compareNames] (files : List TurnDiffFileChange) :
    AccountsFor files (buildTurnDiffTree compareNames files) ∧
      ∀ others, files.Perm others →
        (files.filterMap fileEntry).Pairwise (Apart compareNames) →
        buildTurnDiffTree compareNames others = buildTurnDiffTree compareNames files := by
  have hplaced {names : List CodeUnits} {node : TurnDiffTreeNode}
      (hat : At (treeOf compareNames [] (files.filterMap fileEntry)) names node) :
      WellPlaced [] names node := wellPlaced_treeOf (located_filterMap_fileEntry files) hat
  have hleaves := @leavesOf_treeOf compareNames [] (files.filterMap fileEntry)
  have hkept := map_filterMap_fileEntry files
  rw [buildTurnDiffTree_eq]
  refine ⟨?_, fun others hperm hapart ↦ ?_⟩
  · constructor
    case leaves =>
      rw [← hkept]
      exact (hleaves.map _).trans (.of_eq (List.map_map ..))
    case stat_eq => exact fun hat ↦ (hplaced hat).2.2
    case rootStat_eq =>
      have hstats : (keptFiles files).map readStat =
          ((files.filterMap fileEntry).map Prod.snd).map (·.stat) := by
        have := congrArg (List.map Prod.snd) hkept
        rw [List.map_map, List.map_map] at this
        rw [List.map_map]
        exact this.symm
      rw [sumStats_shownStat fun name path stat children hmem ↦ (hplaced (.here hmem)).2.2,
        total_perm hleaves, total_eq, ← hstats, sumStats, List.foldl_map]
      rfl
    case prefix_path =>
      intro names name path stat children file hat hfile
      obtain ⟨hne, hpath, -⟩ := hplaced hat
      have hfile := hplaced (hat.file hfile)
      rw [WellPlaced, List.foldl_append, List.foldl_cons, List.foldl_nil, ← hpath,
        nextPath_of_ne_nil (hpath ▸ nextPath_ne_nil _ hne)] at hfile
      exact ⟨file.name, by rw [hfile, List.append_assoc]; rfl⟩
    case path_eq =>
      intro names file hat
      have hnames := hat.ne_nil_of_mem hplaced
      have hfile := hplaced hat
      have hjoin := @foldl_nextPath [] (List.forall_mem_nil _) _ hnames
      rw [WellPlaced] at hfile
      rw [hfile, joinSegments_concat hnames]
      exact congrArg (nextPath · _) hjoin
    case not_onlyDirectory => exact fun hat ↦ (hat.isCompact (allCompact_treeOf _ _)).1
    case nodup_paths =>
      exact (@directoryPathsOf_treeOf_spec _ _ _ (hasSegments_filterMap_fileEntry files) []
        rfl (List.forall_mem_nil _)).1
  · rw [buildTurnDiffTree_eq]
    exact (treeOf_perm hapart (hperm.filterMap _)).symm

/-- A comparison of texts by their code units. -/
def compareUnits (left right : CodeUnits) : Ordering :=
  compare (left.map UInt16.toNat) (right.map UInt16.toNat)

instance : Std.TransCmp compareUnits :=
  transCmp_comap (compare : List ℕ → List ℕ → Ordering) (List.map UInt16.toNat)

/-- Two files of one directory, listed both ways. -/
theorem buildTurnDiffTree_spec_twoFiles :
    let first : TurnDiffFileChange :=
      { path := unitsOf "src\\b", additions := some 2, deletions := some 1 }
    let second : TurnDiffFileChange :=
      { path := unitsOf "src/a", additions := none, deletions := none }
    AccountsFor [first, second] (buildTurnDiffTree compareUnits [first, second]) ∧
      buildTurnDiffTree compareUnits [second, first] =
        buildTurnDiffTree compareUnits [first, second] := by
  intro first second
  obtain ⟨haccounts, hperm⟩ := buildTurnDiffTree_spec compareUnits [first, second]
  refine ⟨haccounts, hperm [second, first] (List.Perm.swap ..) ?_⟩
  have hentries : [first, second].filterMap fileEntry =
      [([unitsOf "src"], { name := unitsOf "b", path := unitsOf "src/b", stat := readStat first }),
        ([unitsOf "src"], { name := unitsOf "a", path := unitsOf "src/a", stat := none })] := by
    decide
  rw [hentries]
  refine List.pairwise_pair.mpr ⟨fun _ ↦ by decide, fun common name name' hname hname' hne ↦ ?_⟩
  have hsegments {name : CodeUnits} (h : common ++ [name] <+: [unitsOf "src"]) :
      name = unitsOf "src" := by
    cases common with
    | nil => exact List.cons_prefix_cons.mp h |>.1
    | cons segment common =>
      have := h.length_le
      simp at this
  exact absurd ((hsegments hname).trans (hsegments hname').symm) hne

end Awen.Timeline
