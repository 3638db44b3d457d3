import Awen.Timeline.TurnDiffTree

/-!
# What the tree of changed files accounts for

The files of the tree are the changed files, and each directory counts the files below it. A file is
placed by the names of the directories down to it (`WellPlaced`), no directory has a directory as
its only child (`IsCompact`), and no path comes up twice. Where names that stand beside each other
differ under the comparison, the order of the changed files does not matter.
-/

namespace Awen.Timeline

open MutableDirectoryNode

/-! ## Levels -/

theorem enter_eq_some {entry : FileEntry} {name : CodeUnits} {below : FileEntry} :
    entry.enter = some (name, below) ↔ entry = (name :: below.1, below.2) := by
  obtain ⟨segments, file⟩ := entry
  obtain ⟨segments', file'⟩ := below
  cases segments with
  | nil => simp [FileEntry.enter]
  | cons segment segments => simp [FileEntry.enter, and_assoc]

theorem mem_entriesBelow {name : CodeUnits} {entries : List FileEntry} {entry : FileEntry} :
    entry ∈ entriesBelow name entries ↔ (name :: entry.1, entry.2) ∈ entries := by
  constructor
  · intro h
    obtain ⟨⟨name', below⟩, hbelow, rfl⟩ := List.mem_map.mp h
    obtain ⟨hmem, hname⟩ := List.mem_filter.mp hbelow
    obtain rfl := of_decide_eq_true hname
    obtain ⟨entry, hentry, henter⟩ := List.mem_filterMap.mp hmem
    exact enter_eq_some.mp henter ▸ hentry
  · intro h
    exact List.mem_map.mpr ⟨(name, entry), List.mem_filter.mpr
      ⟨List.mem_filterMap.mpr ⟨_, h, rfl⟩, decide_eq_true rfl⟩, rfl⟩

theorem entriesBelow_nil_cons (name : CodeUnits) (file : TurnDiffTreeFileNode)
    (entries : List FileEntry) :
    entriesBelow name (([], file) :: entries) = entriesBelow name entries := rfl

theorem entriesBelow_cons_cons (name segment : CodeUnits) (segments : List CodeUnits)
    (file : TurnDiffTreeFileNode) (entries : List FileEntry) :
    entriesBelow name ((segment :: segments, file) :: entries) =
      if segment = name then (segments, file) :: entriesBelow name entries
      else entriesBelow name entries := by
  by_cases hname : segment = name <;> simp [entriesBelow, FileEntry.enter, hname]

theorem mem_levelNames {name : CodeUnits} {entries : List FileEntry} :
    name ∈ levelNames entries ↔ ∃ segments file, (name :: segments, file) ∈ entries := by
  rw [levelNames, List.mem_eraseDups]
  constructor
  · intro h
    obtain ⟨⟨name', below⟩, hbelow, rfl⟩ := List.mem_map.mp h
    obtain ⟨entry, hentry, henter⟩ := List.mem_filterMap.mp hbelow
    exact ⟨_, _, enter_eq_some.mp henter ▸ hentry⟩
  · rintro ⟨segments, file, h⟩
    exact List.mem_map.mpr ⟨(name, segments, file), List.mem_filterMap.mpr ⟨_, h, rfl⟩, rfl⟩

theorem mem_levelFiles {entries : List FileEntry} {file : TurnDiffTreeFileNode} :
    file ∈ levelFiles entries ↔ ([], file) ∈ entries := by
  rw [levelFiles, List.mem_map]
  constructor
  · rintro ⟨⟨segments, file'⟩, hentry, rfl⟩
    obtain ⟨hmem, hnil⟩ := List.mem_filter.mp hentry
    obtain rfl : segments = [] := of_decide_eq_true hnil
    exact hmem
  · exact fun h ↦ ⟨_, List.mem_filter.mpr ⟨h, decide_eq_true rfl⟩, rfl⟩

/-- **The files of a level and those below its directories** are the files. -/
theorem levelFiles_append_perm (entries : List FileEntry) :
    ((levelNames entries).flatMap (fun name ↦ (entriesBelow name entries).map Prod.snd) ++
      levelFiles entries).Perm (entries.map Prod.snd) := by
  have hgroups : ((levelNames entries).flatMap fun name ↦
      (entries.filterMap FileEntry.enter).filter fun entered ↦ entered.1 = name).Perm
      (entries.filterMap FileEntry.enter) := by
    refine (flatMap_filter_perm Prod.fst (nodup_eraseDups _) _).trans (.of_eq ?_)
    exact List.filter_eq_self.mpr fun entered hentered ↦
      @decide_eq_true _ (_) (List.mem_eraseDups.mpr (List.mem_map_of_mem hentered))
  have hsplit : ∀ entries : List FileEntry, ((entries.filterMap FileEntry.enter).map (·.2.2) ++
      levelFiles entries).Perm (entries.map Prod.snd) := by
    intro entries
    induction entries with
    | nil => exact .refl _
    | cons entry entries ih =>
      obtain ⟨segments, file⟩ := entry
      cases segments with
      | nil => exact List.perm_middle.trans (ih.cons file)
      | cons segment segments => exact ih.cons file
  have hbelow : (levelNames entries).flatMap (fun name ↦ (entriesBelow name entries).map Prod.snd)
      = ((levelNames entries).flatMap fun name ↦
        (entries.filterMap FileEntry.enter).filter fun entered ↦ entered.1 = name).map
          (·.2.2) := by
    rw [List.map_flatMap]
    exact List.flatMap_congr fun name _ ↦ by rw [entriesBelow, List.map_map]; rfl
  rw [hbelow]
  exact ((hgroups.map _).append_right _).trans (hsplit entries)

/-- How many directories there are in all paths. -/
def depth (entries : List FileEntry) : ℕ := (entries.map fun entry ↦ entry.1.length).sum

theorem depth_entriesBelow_lt {name : CodeUnits} {entries : List FileEntry}
    (h : name ∈ levelNames entries) : depth (entriesBelow name entries) < depth entries := by
  have hle : ∀ entries : List FileEntry,
      depth (entriesBelow name entries) + (entriesBelow name entries).length ≤ depth entries := by
    intro entries
    induction entries with
    | nil => exact Nat.le_refl 0
    | cons entry entries ih =>
      obtain ⟨segments, file⟩ := entry
      cases segments with
      | nil =>
        rw [entriesBelow_nil_cons]
        exact Nat.le_trans ih (Nat.le_add_left _ _)
      | cons segment segments =>
        rw [entriesBelow_cons_cons]
        simp only [depth, List.map_cons, List.sum_cons, List.length_cons] at ih ⊢
        split
        · simp only [List.map_cons, List.sum_cons, List.length_cons]
          omega
        · omega
  obtain ⟨segments, file, hentry⟩ := mem_levelNames.mp h
  have hpos : 0 < (entriesBelow name entries).length :=
    List.length_pos_of_mem ((@mem_entriesBelow _ _ (segments, file)).mpr hentry)
  have := hle entries
  omega

/-- **The induction over the levels of a tree.** -/
theorem level_induction {motive : CodeUnits → List FileEntry → Prop}
    (step : ∀ path entries, (∀ name ∈ levelNames entries,
      motive (nextPath path name) (entriesBelow name entries)) → motive path entries)
    (path : CodeUnits) (entries : List FileEntry) : motive path entries := by
  induction hdepth : depth entries using Nat.strong_induction_on generalizing path entries with
  | _ n ih =>
    refine step path entries fun name hname ↦ ih _ ?_ _ _ rfl
    exact hdepth ▸ depth_entriesBelow_lt hname

/-! ## Trees -/

mutual
/-- The files of a node. -/
def TurnDiffTreeNode.leaves : TurnDiffTreeNode → List TurnDiffTreeFileNode
  | .directory _ _ _ children => leavesOf children
  | .file node => [node]

def leavesOf : List TurnDiffTreeNode → List TurnDiffTreeFileNode
  | [] => []
  | node :: nodes => node.leaves ++ leavesOf nodes
end

mutual
/-- The paths of the directories of a node. -/
def TurnDiffTreeNode.directoryPaths : TurnDiffTreeNode → List CodeUnits
  | .directory _ path _ children => path :: directoryPathsOf children
  | .file _ => []

def directoryPathsOf : List TurnDiffTreeNode → List CodeUnits
  | [] => []
  | node :: nodes => node.directoryPaths ++ directoryPathsOf nodes
end

/-- The only child is a directory. -/
def OnlyDirectory : List TurnDiffTreeNode → Prop
  | [.directory _ _ _ _] => True
  | _ => False

mutual
/-- No directory has a directory as its only child. -/
def TurnDiffTreeNode.IsCompact : TurnDiffTreeNode → Prop
  | .directory _ _ _ children => ¬OnlyDirectory children ∧ AllCompact children
  | .file _ => True

def AllCompact : List TurnDiffTreeNode → Prop
  | [] => True
  | node :: nodes => node.IsCompact ∧ AllCompact nodes
end

/-- A node of a tree, with the names of the directories down to it. -/
inductive At : List TurnDiffTreeNode → List CodeUnits → TurnDiffTreeNode → Prop
  | here {nodes node} (h : node ∈ nodes) : At nodes [] node
  | inside {nodes name path stat children names node}
    (h : .directory name path stat children ∈ nodes) (hnode : At children names node) :
    At nodes (name :: names) node

theorem leavesOf_eq (nodes : List TurnDiffTreeNode) :
    leavesOf nodes = nodes.flatMap TurnDiffTreeNode.leaves := by
  induction nodes with
  | nil => rfl
  | cons node nodes ih => rw [leavesOf, ih, List.flatMap_cons]

theorem directoryPathsOf_eq (nodes : List TurnDiffTreeNode) :
    directoryPathsOf nodes = nodes.flatMap TurnDiffTreeNode.directoryPaths := by
  induction nodes with
  | nil => rfl
  | cons node nodes ih => rw [directoryPathsOf, ih, List.flatMap_cons]

theorem allCompact_iff {nodes : List TurnDiffTreeNode} :
    AllCompact nodes ↔ ∀ node ∈ nodes, node.IsCompact := by
  induction nodes with
  | nil => exact iff_of_true trivial (List.forall_mem_nil _)
  | cons node nodes ih => rw [AllCompact, ih, List.forall_mem_cons]

theorem OnlyDirectory.exists_eq {nodes : List TurnDiffTreeNode} (h : OnlyDirectory nodes) :
    ∃ name path stat children, nodes = [.directory name path stat children] :=
  match nodes, h with
  | [.directory name path stat children], _ => ⟨name, path, stat, children, rfl⟩

theorem mergeOnlyChild_of_not {nodes : List TurnDiffTreeNode} (h : ¬OnlyDirectory nodes)
    (name path : CodeUnits) (stat : TurnDiffStat) :
    mergeOnlyChild name path stat nodes = .directory name path stat nodes := by
  fun_cases mergeOnlyChild name path stat nodes with
  | case1 => exact absurd trivial h
  | case2 => rfl

theorem leaves_mergeOnlyChild (name path : CodeUnits) (stat : TurnDiffStat)
    (nodes : List TurnDiffTreeNode) :
    (mergeOnlyChild name path stat nodes).leaves = leavesOf nodes := by
  fun_induction mergeOnlyChild name path stat nodes with
  | case1 name path stat childName childPath childStat children ih =>
    rw [ih, leavesOf, leavesOf, List.append_nil, TurnDiffTreeNode.leaves]
  | case2 => rfl

mutual
theorem leaves_compactDirectoryNode :
    ∀ node : TurnDiffTreeNode, (compactDirectoryNode node).leaves = node.leaves
  | .directory name path stat children => by
    rw [compactDirectoryNode, leaves_mergeOnlyChild, TurnDiffTreeNode.leaves,
      leavesOf_compactDirectoryNodes children]
  | .file _ => rfl

theorem leavesOf_compactDirectoryNodes :
    ∀ nodes : List TurnDiffTreeNode, leavesOf (compactDirectoryNodes nodes) = leavesOf nodes
  | [] => rfl
  | node :: nodes => by
    rw [compactDirectoryNodes, leavesOf, leavesOf, leaves_compactDirectoryNode node,
      leavesOf_compactDirectoryNodes nodes]
end

mutual
/-- A compact node stays as it is. -/
theorem compactDirectoryNode_of_isCompact :
    ∀ {node : TurnDiffTreeNode}, node.IsCompact → compactDirectoryNode node = node
  | .directory name path stat children, h => by
    rw [compactDirectoryNode, compactDirectoryNodes_of_allCompact h.2, mergeOnlyChild_of_not h.1]
  | .file _, _ => rfl

theorem compactDirectoryNodes_of_allCompact :
    ∀ {nodes : List TurnDiffTreeNode}, AllCompact nodes → compactDirectoryNodes nodes = nodes
  | [], _ => rfl
  | node :: nodes, h => by
    rw [compactDirectoryNodes, compactDirectoryNode_of_isCompact h.1,
      compactDirectoryNodes_of_allCompact h.2]
end

/-! ## The nodes of a level -/

variable {compareNames : CodeUnits → CodeUnits → Ordering}

theorem mem_sortedNames {name : CodeUnits} {entries : List FileEntry} :
    name ∈ sortedNames compareNames entries ↔ name ∈ levelNames entries := mem_stableSort

theorem mem_treeOf {path : CodeUnits} {entries : List FileEntry} {node : TurnDiffTreeNode} :
    node ∈ treeOf compareNames path entries ↔
      (∃ name ∈ levelNames entries, directoryNode compareNames path entries name = node) ∨
        ∃ file, ([], file) ∈ entries ∧ .file file = node := by
  rw [treeOf_eq, List.mem_append, List.mem_map, List.mem_map]
  refine or_congr (exists_congr fun name ↦ and_congr_left' mem_sortedNames)
    (exists_congr fun file ↦ and_congr_left' ?_)
  exact mem_stableSort.trans mem_levelFiles

/-- The names below a directory. -/
abbrev nodesBelow (compareNames : CodeUnits → CodeUnits → Ordering) (path : CodeUnits)
    (entries : List FileEntry) (name : CodeUnits) : List TurnDiffTreeNode :=
  treeOf compareNames (nextPath path name) (entriesBelow name entries)

/-- **The node of a directory**: it is merged with its only child if this is a directory. -/
theorem directoryNode_cases {path : CodeUnits} {entries : List FileEntry} {name : CodeUnits}
    (hcompact : AllCompact (nodesBelow compareNames path entries name)) :
    (∃ childName childPath childStat children,
      nodesBelow compareNames path entries name =
        [.directory childName childPath childStat children] ∧
      directoryNode compareNames path entries name =
        .directory (name ++ slash :: childName) childPath childStat children) ∨
    ¬OnlyDirectory (nodesBelow compareNames path entries name) ∧
      directoryNode compareNames path entries name =
        .directory name (nextPath path name) (total ((entriesBelow name entries).map Prod.snd))
          (nodesBelow compareNames path entries name) := by
  have hnode : directoryNode compareNames path entries name =
      mergeOnlyChild name (nextPath path name) (total ((entriesBelow name entries).map Prod.snd))
        (nodesBelow compareNames path entries name) := by
    rw [directoryNode, compactDirectoryNode, compactDirectoryNodes_of_allCompact hcompact]
  by_cases honly : OnlyDirectory (nodesBelow compareNames path entries name)
  · refine .inl ?_
    obtain ⟨childName, childPath, childStat, children, hnodes⟩ := honly.exists_eq
    rw [hnodes] at hcompact hnode
    refine ⟨childName, childPath, childStat, children, hnodes, hnode.trans ?_⟩
    rw [mergeOnlyChild, mergeOnlyChild_of_not hcompact.1.1]
  · exact .inr ⟨honly, hnode.trans (mergeOnlyChild_of_not honly ..)⟩

/-- **No directory has a directory as its only child.** -/
theorem allCompact_treeOf (path : CodeUnits) (entries : List FileEntry) :
    AllCompact (treeOf compareNames path entries) := by
  induction path, entries using level_induction with
  | step path entries ih =>
    refine allCompact_iff.mpr fun node hnode ↦ ?_
    obtain ⟨name, hname, rfl⟩ | ⟨file, -, rfl⟩ := mem_treeOf.mp hnode
    · have hbelow := ih name hname
      obtain ⟨childName, childPath, childStat, children, hnodes, hmerged⟩ | ⟨hnot, hkept⟩ :=
        directoryNode_cases hbelow
      · rw [hmerged]
        rw [nodesBelow] at hnodes
        rw [hnodes] at hbelow
        exact hbelow.1
      · rw [hkept]
        exact ⟨hnot, hbelow⟩
    · trivial

/-- **The files of the tree are the files.** -/
theorem leavesOf_treeOf (path : CodeUnits) (entries : List FileEntry) :
    (leavesOf (treeOf compareNames path entries)).Perm (entries.map Prod.snd) := by
  induction path, entries using level_induction with
  | step path entries ih =>
    rw [treeOf_eq, leavesOf_eq, List.flatMap_append, List.flatMap_map, List.flatMap_map]
    refine (List.Perm.append ?_ ?_).trans (levelFiles_append_perm entries)
    · refine (List.Perm.flatMap_right _ (stableSort_perm _ _)).trans
        (List.Perm.flatMap_left _ fun name hname ↦ ?_)
      rw [directoryNode, leaves_compactDirectoryNode]
      exact ih name hname
    · change ((sortedFiles compareNames entries).flatMap fun file ↦ [file]).Perm _
      rw [List.flatMap_singleton']
      exact stableSort_perm _ _

end Awen.Timeline
