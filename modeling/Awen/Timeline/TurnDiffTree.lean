import Awen.Library.Groups
import Awen.Library.StableSort
import Awen.Library.Unicode

/-!
# The tree of changed files

`turnDiffTree.ts`: the changed files of a turn are filed in a tree of directories, whose counts are
kept as files come in. The tree is then sorted and copied, and a directory with a directory as its
only child is merged with it.
-/

namespace Awen.Timeline

/-! ## Files -/

structure TurnDiffStat where
  additions : ℕ
  deletions : ℕ
  deriving DecidableEq

structure TurnDiffFileChange where
  path : CodeUnits
  additions : Option ℕ
  deletions : Option ℕ
  deriving DecidableEq

structure TurnDiffTreeFileNode where
  name : CodeUnits
  path : CodeUnits
  stat : Option TurnDiffStat
  deriving DecidableEq

def slash : UInt16 := 0x2f

def backslash : UInt16 := 0x5c

def normalizePathSegments (pathValue : CodeUnits) : List CodeUnits :=
  ((pathValue.map fun u ↦ if u = backslash then slash else u).splitOn slash).filter
    fun segment ↦ segment.length > 0

/-- `segments.join("/")`. -/
def joinSegments (segments : List CodeUnits) : CodeUnits := [slash].intercalate segments

def readStat (file : TurnDiffFileChange) : Option TurnDiffStat :=
  match file.additions, file.deletions with
  | some additions, some deletions => some { additions, deletions }
  | _, _ => none

/-- Add the counts of a file, if it has them. -/
def TurnDiffStat.add (stat : TurnDiffStat) : Option TurnDiffStat → TurnDiffStat
  | none => stat
  | some counts =>
    { additions := stat.additions + counts.additions
      deletions := stat.deletions + counts.deletions }

def summarizeTurnDiffStats (files : List TurnDiffFileChange) : TurnDiffStat :=
  files.foldl (fun acc file ↦ acc.add (readStat file)) { additions := 0, deletions := 0 }

/-! ## Filing the files -/

structure MutableDirectoryNode where
  name : CodeUnits
  path : CodeUnits
  stat : TurnDiffStat
  directories : List (CodeUnits × MutableDirectoryNode)
  files : List TurnDiffTreeFileNode

namespace MutableDirectoryNode

/-- A directory without files. -/
def created (name path : CodeUnits) : MutableDirectoryNode where
  name := name
  path := path
  stat := { additions := 0, deletions := 0 }
  directories := []
  files := []

/-- The path of an entry of a directory. -/
def nextPath (path segment : CodeUnits) : CodeUnits :=
  if path.length > 0 then path ++ slash :: segment else segment

/-- File a file below a directory, and count it in each directory on the way. -/
def addFile : MutableDirectoryNode → List CodeUnits → TurnDiffTreeFileNode → MutableDirectoryNode
  | directory, [], file =>
    { directory with files := directory.files ++ [file], stat := directory.stat.add file.stat }
  | directory, segment :: segments, file =>
    let child := (directory.directories.lookup segment).getD
      (created segment (nextPath directory.path segment))
    { directory with
      directories :=
        OrderedMap.setEntries segment (child.addFile segments file) directory.directories
      stat := directory.stat.add file.stat }

end MutableDirectoryNode

/-! ## The tree -/

inductive TurnDiffTreeNode
  | directory (name path : CodeUnits) (stat : TurnDiffStat) (children : List TurnDiffTreeNode)
  | file (node : TurnDiffTreeFileNode)

/-- Merge a directory with its only child as long as this is a directory. -/
def mergeOnlyChild (name path : CodeUnits) (stat : TurnDiffStat) :
    List TurnDiffTreeNode → TurnDiffTreeNode
  | [.directory childName childPath childStat children] =>
    mergeOnlyChild (name ++ slash :: childName) childPath childStat children
  | children => .directory name path stat children

mutual
def compactDirectoryNode : TurnDiffTreeNode → TurnDiffTreeNode
  | .directory name path stat children =>
    mergeOnlyChild name path stat (compactDirectoryNodes children)
  | .file node => .file node

def compactDirectoryNodes : List TurnDiffTreeNode → List TurnDiffTreeNode
  | [] => []
  | child :: children => compactDirectoryNode child :: compactDirectoryNodes children
end

theorem MutableDirectoryNode.sizeOf_lt_of_mem {directory subdirectory : MutableDirectoryNode}
    (h : subdirectory ∈ directory.directories.map Prod.snd) :
    sizeOf subdirectory < sizeOf directory := by
  obtain ⟨entry, hentry, rfl⟩ := List.mem_map.mp h
  have hlt := List.sizeOf_lt_of_mem hentry
  obtain ⟨segment, subdirectory⟩ := entry
  cases directory
  simp only [MutableDirectoryNode.mk.sizeOf_spec, Prod.mk.sizeOf_spec] at hlt ⊢
  omega

variable (compareNames : CodeUnits → CodeUnits → Ordering)

/-- `Array.from(directory.directories.values()).toSorted(compareByName)`. -/
def MutableDirectoryNode.sortedDirectories (directory : MutableDirectoryNode) :
    List MutableDirectoryNode :=
  stableSort (fun a b ↦ (compareNames a.name b.name).isLE) (directory.directories.map Prod.snd)

def toTreeNodes (directory : MutableDirectoryNode) : List TurnDiffTreeNode :=
  let nodes := (directory.sortedDirectories compareNames).attach.map fun subdirectory ↦
    TurnDiffTreeNode.directory subdirectory.1.name subdirectory.1.path subdirectory.1.stat
      (toTreeNodes subdirectory.1)
  let files := stableSort (fun a b ↦ (compareNames a.name b.name).isLE) directory.files
  nodes.map compactDirectoryNode ++ files.map TurnDiffTreeNode.file
termination_by directory
decreasing_by exact MutableDirectoryNode.sizeOf_lt_of_mem (mem_stableSort.mp subdirectory.2)

/-- The directories that a file is in, and its node. -/
def fileEntry (file : TurnDiffFileChange) : Option (List CodeUnits × TurnDiffTreeFileNode) :=
  let segments := normalizePathSegments file.path
  segments.getLast?.map fun fileName ↦
    (segments.dropLast, { name := fileName, path := joinSegments segments, stat := readStat file })

def buildTurnDiffTree (files : List TurnDiffFileChange) : List TurnDiffTreeNode :=
  toTreeNodes compareNames <| files.foldl (fun root file ↦
    match fileEntry file with
    | none => root
    | some entry => root.addFile entry.1 entry.2) (.created [] [])

end Awen.Timeline

/-!
## The tree of changed files, level by level

A directory in which some files have been filed is determined by them: its own files, its counts,
and for each of the first segments the directory of the files below it (`build_eq`). The nodes of
its tree follow (`treeOf_eq`).
-/

namespace Awen.Timeline

/-- A file, and the directories that it is in. -/
abbrev FileEntry := List CodeUnits × TurnDiffTreeFileNode

/-- The first directory of an entry, and the entry in it. -/
def FileEntry.enter : FileEntry → Option (CodeUnits × FileEntry)
  | ([], _) => none
  | (segment :: segments, file) => some (segment, segments, file)

/-- The directories of a level. -/
def levelNames (entries : List FileEntry) : List CodeUnits :=
  ((entries.filterMap FileEntry.enter).map Prod.fst).eraseDups

/-- The entries below a directory. -/
def entriesBelow (name : CodeUnits) (entries : List FileEntry) : List FileEntry :=
  ((entries.filterMap FileEntry.enter).filter fun entered ↦ entered.1 = name).map Prod.snd

/-- The files of a level. -/
def levelFiles (entries : List FileEntry) : List TurnDiffTreeFileNode :=
  (entries.filter fun entry ↦ entry.1 = []).map Prod.snd

/-- The counts of some files. -/
def total (files : List TurnDiffTreeFileNode) : TurnDiffStat :=
  files.foldl (fun stat file ↦ stat.add file.stat) { additions := 0, deletions := 0 }

namespace MutableDirectoryNode

/-- File some files below a directory. -/
def addFiles (directory : MutableDirectoryNode) (entries : List FileEntry) :
    MutableDirectoryNode :=
  entries.foldl (fun directory entry ↦ directory.addFile entry.1 entry.2) directory

/-- A directory with some files. -/
def build (name path : CodeUnits) (entries : List FileEntry) : MutableDirectoryNode :=
  (created name path).addFiles entries

@[simp] theorem name_addFile (directory : MutableDirectoryNode) (segments : List CodeUnits)
    (file : TurnDiffTreeFileNode) : (directory.addFile segments file).name = directory.name := by
  cases segments <;> rfl

@[simp] theorem path_addFile (directory : MutableDirectoryNode) (segments : List CodeUnits)
    (file : TurnDiffTreeFileNode) : (directory.addFile segments file).path = directory.path := by
  cases segments <;> rfl

theorem stat_addFile (directory : MutableDirectoryNode) (segments : List CodeUnits)
    (file : TurnDiffTreeFileNode) :
    (directory.addFile segments file).stat = directory.stat.add file.stat := by
  cases segments <;> rfl

theorem name_addFiles (directory : MutableDirectoryNode) (entries : List FileEntry) :
    (directory.addFiles entries).name = directory.name := by
  induction entries generalizing directory with
  | nil => rfl
  | cons entry entries ih => exact (ih _).trans (name_addFile ..)

theorem path_addFiles (directory : MutableDirectoryNode) (entries : List FileEntry) :
    (directory.addFiles entries).path = directory.path := by
  induction entries generalizing directory with
  | nil => rfl
  | cons entry entries ih => exact (ih _).trans (path_addFile ..)

theorem stat_addFiles (directory : MutableDirectoryNode) (entries : List FileEntry) :
    (directory.addFiles entries).stat =
      (entries.map Prod.snd).foldl (fun stat file ↦ stat.add file.stat) directory.stat := by
  induction entries generalizing directory with
  | nil => rfl
  | cons entry entries ih =>
    rw [List.map_cons, List.foldl_cons, ← stat_addFile directory entry.1]
    exact ih _

theorem files_addFiles (directory : MutableDirectoryNode) (entries : List FileEntry) :
    (directory.addFiles entries).files = directory.files ++ levelFiles entries := by
  induction entries generalizing directory with
  | nil => exact (List.append_nil _).symm
  | cons entry entries ih =>
    refine (ih _).trans ?_
    obtain ⟨segments, file⟩ := entry
    cases segments with
    | nil => exact List.append_assoc ..
    | cons segment segments => rfl

theorem directories_addFiles (directory : MutableDirectoryNode) (entries : List FileEntry) :
    (directory.addFiles entries).directories =
      (entries.filterMap FileEntry.enter).foldl (fun directories entered ↦
        OrderedMap.setEntries entered.1
          (((directories.lookup entered.1).getD
            (created entered.1 (nextPath directory.path entered.1))).addFile
              entered.2.1 entered.2.2) directories) directory.directories := by
  induction entries generalizing directory with
  | nil => rfl
  | cons entry entries ih =>
    refine (ih _).trans ?_
    rw [path_addFile]
    obtain ⟨segments, file⟩ := entry
    cases segments with
    | nil => rfl
    | cons segment segments => rfl

/-- **A directory is determined by its files**, level by level. -/
theorem directories_build (name path : CodeUnits) (entries : List FileEntry) :
    (build name path entries).directories = (levelNames entries).map fun segment ↦
      (segment, build segment (nextPath path segment) (entriesBelow segment entries)) := by
  refine (directories_addFiles _ _).trans ((foldl_setEntries (α := CodeUnits × FileEntry) Prod.fst
    (fun segment ↦ created segment (nextPath path segment))
    (fun directory entered ↦ directory.addFile entered.2.1 entered.2.2) _).trans ?_)
  refine List.map_congr_left fun segment _ ↦ ?_
  rw [build, addFiles, entriesBelow, List.foldl_map]

end MutableDirectoryNode

open MutableDirectoryNode

/-! ## The nodes of a level -/

variable (compareNames : CodeUnits → CodeUnits → Ordering)

/-- The nodes of the tree of some files. -/
def treeOf (path : CodeUnits) (entries : List FileEntry) : List TurnDiffTreeNode :=
  toTreeNodes compareNames (build [] path entries)

/-- The node of a directory of a level. -/
def directoryNode (path : CodeUnits) (entries : List FileEntry) (name : CodeUnits) :
    TurnDiffTreeNode :=
  compactDirectoryNode (.directory name (nextPath path name)
    (total ((entriesBelow name entries).map Prod.snd))
    (treeOf compareNames (nextPath path name) (entriesBelow name entries)))

/-- The names of a level, sorted. -/
def sortedNames (entries : List FileEntry) : List CodeUnits :=
  stableSort (fun a b ↦ (compareNames a b).isLE) (levelNames entries)

/-- The files of a level, sorted. -/
def sortedFiles (entries : List FileEntry) : List TurnDiffTreeFileNode :=
  stableSort (fun a b ↦ (compareNames a.name b.name).isLE) (levelFiles entries)

theorem toTreeNodes_eq (directory : MutableDirectoryNode) :
    toTreeNodes compareNames directory =
      (directory.sortedDirectories compareNames).map (fun subdirectory ↦
        compactDirectoryNode (.directory subdirectory.name subdirectory.path subdirectory.stat
          (toTreeNodes compareNames subdirectory))) ++
        (stableSort (fun a b ↦ (compareNames a.name b.name).isLE) directory.files).map .file := by
  rw [toTreeNodes, List.map_map]
  exact congrArg (· ++ _) (List.attach_map_val (f := fun subdirectory ↦ compactDirectoryNode
    (.directory subdirectory.name subdirectory.path subdirectory.stat
      (toTreeNodes compareNames subdirectory))))

/-- The name of a directory is not read below it. -/
theorem toTreeNodes_build (name path : CodeUnits) (entries : List FileEntry) :
    toTreeNodes compareNames (build name path entries) = treeOf compareNames path entries := by
  have hdirectories : (build name path entries).directories =
      (build [] path entries).directories := by
    rw [directories_build, directories_build]
  have hfiles : (build name path entries).files = (build [] path entries).files := by
    rw [build, build, files_addFiles, files_addFiles]
    rfl
  rw [treeOf, toTreeNodes_eq, toTreeNodes_eq, sortedDirectories, sortedDirectories, hdirectories,
    hfiles]

/-- **The nodes of a level**: its directories by name, and then its files. -/
theorem treeOf_eq (path : CodeUnits) (entries : List FileEntry) :
    treeOf compareNames path entries =
      (sortedNames compareNames entries).map (directoryNode compareNames path entries) ++
        (sortedFiles compareNames entries).map .file := by
  have hname (segment : CodeUnits) :
      (build segment (nextPath path segment) (entriesBelow segment entries)).name = segment :=
    name_addFiles _ _
  have hsorted : (build [] path entries).sortedDirectories compareNames =
      (sortedNames compareNames entries).map fun segment ↦
        build segment (nextPath path segment) (entriesBelow segment entries) := by
    rw [sortedDirectories, directories_build, List.map_map, sortedNames]
    refine (List.map_insertionSort _ _ _ (levelNames entries) fun a _ b _ ↦ ?_).symm
    simp only [Function.comp_apply, hname]
  have hfiles : (build [] path entries).files = levelFiles entries :=
    (files_addFiles _ _).trans (List.nil_append _)
  rw [treeOf, toTreeNodes_eq, hfiles, hsorted, List.map_map]
  refine congrArg (· ++ _) (List.map_congr_left fun segment _ ↦ ?_)
  rw [Function.comp_apply, hname, toTreeNodes_build, directoryNode, build, path_addFiles,
    stat_addFiles]
  rfl

end Awen.Timeline
