import Mathlib
import Awen.Library.Groups
import Awen.Shared.Path
import Awen.Library.FirstGreatest
import Awen.Shared.PlainRuntime
import Awen.Shared.StringUnits

/-!
# Groups of projects

`buildProjectGroups` groups the projects of all environments. Projects of one environment and one
workspace root are one *physical* project, and the freshest of them stands for it; the *logical* key
of a physical project, which says what group it is in, comes from the settings of that project and
from its repository identity, or that of another one in its place.
-/

namespace Awen.Project

inductive ProjectGroupingMode where
  | repository
  | repositoryPath
  | separate
  deriving DecidableEq

structure ProjectGroupingSettings where
  sidebarProjectGroupingMode : ProjectGroupingMode
  sidebarProjectGroupingOverrides : OrderedMap String ProjectGroupingMode

structure RepositoryIdentity where
  canonicalKey : String
  rootPath : Option String := none
  displayName : Option String := none
  name : Option String := none
  deriving DecidableEq

/-- A project of an environment. `details` is what the grouping does not read. -/
structure EnvironmentProject (δ : Type*) where
  environmentId : String
  id : String
  title : String
  workspaceRoot : String
  repositoryIdentity : Option RepositoryIdentity
  createdAt : String
  updatedAt : String
  details : δ
  deriving DecidableEq

structure ScopedProjectRef where
  environmentId : String
  projectId : String
  deriving DecidableEq

def scopedProjectKey (ref : ScopedProjectRef) : String := ref.environmentId ++ ":" ++ ref.projectId

variable {δ : Type*} (js : JsRuntime)

namespace EnvironmentProject

def ref (project : EnvironmentProject δ) : ScopedProjectRef :=
  ⟨project.environmentId, project.id⟩

end EnvironmentProject

/-! ## Keys -/

/-- The value without white space around it, if there is something else. -/
def nonEmptyTrimmed (value : Option String) : Option String :=
  (value.map trim).filter (· ≠ "")

def uniqueNonEmptyValues (values : List (Option String)) : List String :=
  firstsBy id [] (values.filterMap nonEmptyTrimmed)

def deriveRepositoryRelativeProjectPath (project : EnvironmentProject δ) : Option String := do
  let rootPath ← nonEmptyTrimmed (project.repositoryIdentity.bind (·.rootPath))
  let projectPath := normalizeProjectPathForComparison js project.workspaceRoot
  let rootPath := normalizeProjectPathForComparison js rootPath
  if projectPath = "" ∨ rootPath = "" then none
  else if projectPath = rootPath then some ""
  else
    let rootPrefix := rootPath.toList ++ [if '\\' ∈ rootPath.toList then '\\' else '/']
    if rootPrefix <+: projectPath.toList then
      some (String.ofList ((projectPath.toList.drop rootPrefix.length).map fun c ↦
        if c = '\\' then '/' else c))
    else none

def derivePhysicalProjectKey (project : EnvironmentProject δ) : String :=
  project.environmentId ++ ":" ++ normalizeProjectPathForComparison js project.workspaceRoot

def deriveProjectGroupingOverrideKey (project : EnvironmentProject δ) : String :=
  derivePhysicalProjectKey js project

def resolveProjectGroupingMode (project : EnvironmentProject δ)
    (settings : ProjectGroupingSettings) : ProjectGroupingMode :=
  (settings.sidebarProjectGroupingOverrides.get (deriveProjectGroupingOverrideKey js project)).getD
    settings.sidebarProjectGroupingMode

def deriveRepositoryScopedKey (project : EnvironmentProject δ)
    (groupingMode : ProjectGroupingMode) : Option String := do
  let canonicalKey ← (project.repositoryIdentity.map (·.canonicalKey)).filter (· ≠ "")
  if groupingMode = .repository then return canonicalKey
  match deriveRepositoryRelativeProjectPath js project with
  | none => return canonicalKey
  | some relativeProjectPath =>
    return if relativeProjectPath = "" then canonicalKey
      else canonicalKey ++ "::" ++ relativeProjectPath

/-- **The logical key of a project.** -/
def deriveLogicalProjectKey (project : EnvironmentProject δ)
    (groupingMode : ProjectGroupingMode := .repository) : String :=
  if groupingMode = .separate then derivePhysicalProjectKey js project
  else
    (deriveRepositoryScopedKey js project groupingMode).getD (derivePhysicalProjectKey js project)

def deriveLogicalProjectKeyFromSettings (project : EnvironmentProject δ)
    (settings : ProjectGroupingSettings) : String :=
  deriveLogicalProjectKey js project (resolveProjectGroupingMode js project settings)

/-! ## Physical projects -/

def projectFreshnessTime (project : EnvironmentProject δ) : ℤ :=
  ((js.dateParse project.updatedAt).or (js.dateParse project.createdAt)).getD 0

def shouldReplacePhysicalProjectWinner (existing candidate : EnvironmentProject δ) : Bool :=
  decide (projectFreshnessTime js existing < projectFreshnessTime js candidate) ||
    (decide (projectFreshnessTime js existing = projectFreshnessTime js candidate) &&
      stringLt existing.id candidate.id)

/-- The project that stands for a physical project. -/
def physicalProjectWinner : List (EnvironmentProject δ) → Option (EnvironmentProject δ)
  | [] => none
  | project :: projects =>
    some (projects.foldl (fun current candidate ↦
      if shouldReplacePhysicalProjectWinner js current candidate then candidate else current)
        project)

/-- The project whose repository identity counts. -/
def selectProjectIdentitySource (projects : List (EnvironmentProject δ))
    (winner : EnvironmentProject δ) : EnvironmentProject δ :=
  if winner.repositoryIdentity.isSome then winner
  else
    let freshestIdentifiedProject :=
      projects.foldl (fun freshest? project ↦
        if project.repositoryIdentity.isNone then freshest?
        else
          match freshest? with
          | none => some project
          | some freshest =>
            if shouldReplacePhysicalProjectWinner js freshest project then some project
            else some freshest) none
    freshestIdentifiedProject.getD winner

/-! ## Groups -/

structure ProjectGroupMember (δ : Type*) where
  physicalProjectKey : String
  project : EnvironmentProject δ
  deriving DecidableEq

structure ProjectGroup (δ : Type*) where
  key : String
  label : String
  representative : EnvironmentProject δ
  members : List (ProjectGroupMember δ)
  memberProjectRefs : List ScopedProjectRef

/-- The one value, if there is one. -/
def onlyValue? : List String → Option String
  | [value] => some value
  | _ => none

def deriveProjectGroupLabel (representative : EnvironmentProject δ)
    (members : List (EnvironmentProject δ)) : String :=
  let sharedTitles := uniqueNonEmptyValues (members.map fun member ↦ some member.title)
  let sharedDisplayNames :=
    uniqueNonEmptyValues (members.map (·.repositoryIdentity.bind (·.displayName)))
  let sharedRepositoryNames :=
    uniqueNonEmptyValues (members.map (·.repositoryIdentity.bind (·.name)))
  let sharedTitle := (onlyValue? sharedTitles).filter fun title ↦
    title ∉ sharedDisplayNames ∧ title ∉ sharedRepositoryNames
  ((sharedTitle.or (onlyValue? sharedDisplayNames)).or (onlyValue? sharedRepositoryNames)).getD
    representative.title

/-- A physical project and the group it is in. -/
structure PhysicalPlacement (δ : Type*) where
  member : ProjectGroupMember δ
  logicalKey : String

/-- The place of the projects of one physical key. -/
def placePhysicalProject (settings : ProjectGroupingSettings) (physicalProjectKey : String)
    (projects : List (EnvironmentProject δ)) : Option (PhysicalPlacement δ) :=
  (physicalProjectWinner js projects).map fun winner ↦
    { member := { physicalProjectKey, project := winner }
      logicalKey := deriveLogicalProjectKey js (selectProjectIdentitySource js projects winner)
        (resolveProjectGroupingMode js winner settings) }

/-- The places of all physical projects. -/
def physicalPlacements (settings : ProjectGroupingSettings)
    (projects : List (EnvironmentProject δ)) : List (PhysicalPlacement δ) :=
  (collectBy (derivePhysicalProjectKey js) id projects).entries.filterMap fun (key, projects) ↦
    placePhysicalProject js settings key projects

/-- The logical key of a project by its physical key. -/
def logicalKeyOf (settings : ProjectGroupingSettings) (placements : List (PhysicalPlacement δ))
    (project : EnvironmentProject δ) : String :=
  let logicalKeyByPhysicalKey : OrderedMap String String :=
    placements.foldl (fun keys placement ↦
      keys.set placement.member.physicalProjectKey placement.logicalKey) .empty
  (logicalKeyByPhysicalKey.get (derivePhysicalProjectKey js project)).getD
    (deriveLogicalProjectKeyFromSettings js project settings)

/-- **The groups of a list of projects.** A reference that is listed again is passed over. -/
def buildProjectGroups (projects : List (EnvironmentProject δ)) (settings : ProjectGroupingSettings)
    (preferredEnvironmentId : Option String := none) : List (ProjectGroup δ) :=
  let placements := physicalPlacements js settings projects
  let groupedMembers := collectBy PhysicalPlacement.logicalKey PhysicalPlacement.member placements
  let projectRefsByLogicalKey :=
    collectBy (logicalKeyOf js settings placements) EnvironmentProject.ref
      (firstsBy (fun project ↦ scopedProjectKey project.ref) [] projects)
  groupedMembers.entries.filterMap fun (key, members) ↦
    members.head?.map fun first ↦
      let preferred := (preferredEnvironmentId.filter (· ≠ "")).bind fun environmentId ↦
        members.find? fun member ↦ member.project.environmentId = environmentId
      let representative := (preferred.getD first).project
      { key
        label :=
          if 1 < members.length then
            deriveProjectGroupLabel representative (members.map (·.project))
          else representative.title
        representative
        members
        memberProjectRefs := (projectRefsByLogicalKey.get key).getD [] }

end Awen.Project

/-!
## Project groups are a partition

The groups of a list of projects divide the physical projects and the references among them, and the
order of the list does not matter where there is one freshest project to each physical key.
-/

namespace Awen.Project

variable {δ : Type*} (js : JsRuntime)

/-! ## The freshest project -/

/-- How fresh a project is, with its id to decide between projects that are equally fresh. -/
def freshnessRank (project : EnvironmentProject δ) : ℤ ×ₗ List ℕ :=
  toLex (projectFreshnessTime js project, project.id.toList.flatMap utf16Units)

theorem shouldReplacePhysicalProjectWinner_eq (existing candidate : EnvironmentProject δ) :
    shouldReplacePhysicalProjectWinner js existing candidate =
      decide (freshnessRank js existing < freshnessRank js candidate) := by
  rw [shouldReplacePhysicalProjectWinner, stringLt, ← Bool.decide_and, ← Bool.decide_or]
  refine decide_eq_decide.mpr ?_
  rw [freshnessRank, freshnessRank, Prod.Lex.toLex_lt_toLex]

theorem freshnessRank_inj {a b : EnvironmentProject δ}
    (h : freshnessRank js a = freshnessRank js b) :
    projectFreshnessTime js a = projectFreshnessTime js b ∧ a.id = b.id := by
  obtain ⟨htime, hid⟩ := Prod.ext_iff.mp (toLex.injective h)
  exact ⟨htime, String.toList_injective (flatMap_utf16Units_inj hid)⟩

/-- **The first of the freshest projects** stands for a physical project. -/
theorem physicalProjectWinner_eq (projects : List (EnvironmentProject δ)) :
    physicalProjectWinner js projects = projects.argmax (freshnessRank js) := by
  cases projects with
  | nil => rfl
  | cons project projects =>
    rw [physicalProjectWinner, ← foldl_greater_eq_argmax]
    simp only [shouldReplacePhysicalProjectWinner_eq, decide_eq_true_eq]

/-- **The first of the freshest identified projects** gives its identity. -/
theorem selectProjectIdentitySource_eq (projects : List (EnvironmentProject δ))
    (winner : EnvironmentProject δ) : selectProjectIdentitySource js projects winner =
      if winner.repositoryIdentity.isSome then winner
      else ((projects.filter (·.repositoryIdentity.isSome)).argmax (freshnessRank js)).getD
        winner := by
  rw [selectProjectIdentitySource, ← foldl_greater?_eq_argmax, List.foldl_filter]
  simp only [shouldReplacePhysicalProjectWinner_eq, decide_eq_true_eq]
  congr 3
  funext freshest? project
  cases project.repositoryIdentity <;> cases freshest? <;> rfl

/-- Of the projects of one physical key, those of one freshness and one id are one. -/
def TiesAreOne (projects : List (EnvironmentProject δ)) : Prop :=
  ∀ a ∈ projects, ∀ b ∈ projects, derivePhysicalProjectKey js a = derivePhysicalProjectKey js b →
    projectFreshnessTime js a = projectFreshnessTime js b → a.id = b.id → a = b

variable (settings : ProjectGroupingSettings)

/-- **The place of a physical project** does not depend on the order of its projects. -/
theorem placePhysicalProject_perm (key : String) {projects others : List (EnvironmentProject δ)}
    (hperm : projects.Perm others)
    (hties : ∀ a ∈ projects, ∀ b ∈ projects, freshnessRank js a = freshnessRank js b → a = b) :
    placePhysicalProject js settings key projects =
      placePhysicalProject js settings key others := by
  have hidentified : (projects.filter (·.repositoryIdentity.isSome)).argmax (freshnessRank js) =
      (others.filter (·.repositoryIdentity.isSome)).argmax (freshnessRank js) :=
    argmax_eq_of_perm (hperm.filter _) fun a ha b hb ↦
      hties a (List.mem_of_mem_filter ha) b (List.mem_of_mem_filter hb)
  simp only [placePhysicalProject, physicalProjectWinner_eq, selectProjectIdentitySource_eq,
    hidentified, argmax_eq_of_perm hperm hties]

/-! ## The places of the physical projects -/

/-- The projects of one physical key. -/
def physicalProjects (projects : List (EnvironmentProject δ)) (key : String) :
    List (EnvironmentProject δ) :=
  projects.filter fun project ↦ derivePhysicalProjectKey js project = key

theorem mem_physicalProjects {projects : List (EnvironmentProject δ)} {key : String}
    {project : EnvironmentProject δ} : project ∈ physicalProjects js projects key ↔
      project ∈ projects ∧ derivePhysicalProjectKey js project = key := by
  simp [physicalProjects]

variable {js settings}

theorem placePhysicalProject_spec {key : String} {projects : List (EnvironmentProject δ)}
    {placement : PhysicalPlacement δ}
    (h : placePhysicalProject js settings key projects = some placement) :
    placement.member.physicalProjectKey = key ∧ placement.member.project ∈ projects := by
  obtain ⟨winner, hwinner, rfl⟩ := Option.map_eq_some_iff.mp h
  rw [physicalProjectWinner_eq] at hwinner
  exact ⟨rfl, List.argmax_mem hwinner⟩

theorem exists_placePhysicalProject (js : JsRuntime) (settings : ProjectGroupingSettings)
    (key : String) {projects : List (EnvironmentProject δ)} (hne : projects ≠ []) :
    ∃ placement, placePhysicalProject js settings key projects = some placement := by
  obtain ⟨project, projects, rfl⟩ := List.exists_cons_of_ne_nil hne
  exact ⟨_, rfl⟩

theorem mem_physicalPlacements {projects : List (EnvironmentProject δ)}
    {placement : PhysicalPlacement δ} :
    placement ∈ physicalPlacements js settings projects ↔
      ∃ key, (∃ project ∈ projects, derivePhysicalProjectKey js project = key) ∧
        placePhysicalProject js settings key (physicalProjects js projects key) =
          some placement := by
  rw [physicalPlacements, List.mem_filterMap]
  constructor
  · rintro ⟨⟨key, values⟩, hentry, hplace⟩
    obtain ⟨hkey, rfl⟩ := mem_entries_collectBy.mp hentry
    rw [List.map_id] at hplace
    exact ⟨key, hkey, hplace⟩
  · rintro ⟨key, hkey, hplace⟩
    refine ⟨(key, physicalProjects js projects key), ?_, hplace⟩
    exact mem_entries_collectBy.mpr ⟨hkey, (List.map_id _).symm⟩

/-- **Each physical key has one place.** -/
theorem map_key_physicalPlacements (projects : List (EnvironmentProject δ)) :
    (physicalPlacements js settings projects).map (·.member.physicalProjectKey) =
      (collectBy (derivePhysicalProjectKey js) id projects).keys := by
  rw [physicalPlacements, List.map_filterMap, OrderedMap.keys]
  refine (List.filterMap_congr fun entry hentry ↦ ?_).trans (congrFun List.filterMap_eq_map' _)
  obtain ⟨key, values⟩ := entry
  obtain ⟨⟨project, hproject, hkey⟩, hvalues⟩ := mem_entries_collectBy.mp hentry
  have hne : values ≠ [] := by
    rw [hvalues, List.map_id]
    exact List.ne_nil_of_mem (List.mem_filter.mpr ⟨hproject, decide_eq_true hkey⟩)
  obtain ⟨placement, hplacement⟩ := exists_placePhysicalProject js settings key hne
  simp only [hplacement, Option.map_some, (placePhysicalProject_spec hplacement).1]

theorem nodup_key_physicalPlacements (projects : List (EnvironmentProject δ)) :
    ((physicalPlacements js settings projects).map (·.member.physicalProjectKey)).Nodup := by
  rw [map_key_physicalPlacements]
  exact OrderedMap.nodup _

theorem exists_placement (js : JsRuntime) (settings : ProjectGroupingSettings)
    {projects : List (EnvironmentProject δ)} {project : EnvironmentProject δ}
    (h : project ∈ projects) : ∃ placement ∈ physicalPlacements js settings projects,
      placement.member.physicalProjectKey = derivePhysicalProjectKey js project := by
  have hmem : derivePhysicalProjectKey js project ∈
      (physicalPlacements js settings projects).map (·.member.physicalProjectKey) := by
    rw [map_key_physicalPlacements, mem_keys_collectBy]
    exact ⟨project, h, rfl⟩
  exact List.mem_map.mp hmem

/-- The value that was set last for a key that is set once. -/
private theorem get_foldl_set {κ α β : Type*} [DecidableEq κ] {key : α → κ} (value : α → β)
    {items : List α} (hnodup : (items.map key).Nodup) {x : α} (hx : x ∈ items) :
    (items.foldl (fun m y ↦ m.set (key y) (value y)) OrderedMap.empty).get (key x) =
      some (value x) := by
  induction items using List.reverseRecOn with
  | nil => exact absurd hx List.not_mem_nil
  | append_singleton items y ih =>
    rw [List.map_append, List.map_singleton] at hnodup
    obtain ⟨hitems, -, hdisjoint⟩ := List.nodup_append.mp hnodup
    rw [List.foldl_append, List.foldl_cons, List.foldl_nil]
    rcases List.mem_append.mp hx with hx | hx
    · have hne : key x ≠ key y :=
        hdisjoint _ (List.mem_map_of_mem hx) _ List.mem_cons_self
      rw [OrderedMap.get_set_of_ne hne, ih hitems hx]
    · rw [List.mem_singleton.mp hx, OrderedMap.get_set_self]

/-- **The logical key of a project** is that of its physical project. -/
theorem logicalKeyOf_eq {projects : List (EnvironmentProject δ)} {project : EnvironmentProject δ}
    {placement : PhysicalPlacement δ}
    (hplacement : placement ∈ physicalPlacements js settings projects)
    (hkey : placement.member.physicalProjectKey = derivePhysicalProjectKey js project) :
    logicalKeyOf js settings (physicalPlacements js settings projects) project =
      placement.logicalKey := by
  have hget := get_foldl_set PhysicalPlacement.logicalKey (nodup_key_physicalPlacements projects)
    hplacement
  rw [logicalKeyOf, ← hkey]
  simp only [hget, Option.getD_some]

/-! ## The groups -/

variable {preferred : Option String}

/-- What a group is made of. -/
theorem mem_buildProjectGroups {projects : List (EnvironmentProject δ)} {group : ProjectGroup δ}
    (h : group ∈ buildProjectGroups js projects settings preferred) :
    group.members = ((physicalPlacements js settings projects).filter
        fun placement ↦ placement.logicalKey = group.key).map (·.member) ∧
      group.memberProjectRefs =
        ((firstsBy (fun project ↦ scopedProjectKey project.ref) [] projects).filter fun project ↦
          logicalKeyOf js settings (physicalPlacements js settings projects) project =
            group.key).map (·.ref) := by
  obtain ⟨⟨key, members⟩, hentry, hgroup⟩ := List.mem_filterMap.mp h
  obtain ⟨first, -, rfl⟩ := Option.map_eq_some_iff.mp hgroup
  exact ⟨(mem_entries_collectBy.mp hentry).2, getD_get_collectBy _ _ _ _⟩

/-- What is collected of the groups, entry by entry. -/
private theorem filterMap_groups {ε : Type*} (projects : List (EnvironmentProject δ))
    (part : ProjectGroup δ → ε) (entryPart : String × List (ProjectGroupMember δ) → ε)
    (hpart : ∀ group : ProjectGroup δ, part group = entryPart (group.key, group.members)) :
    (buildProjectGroups js projects settings preferred).map part =
      (collectBy PhysicalPlacement.logicalKey PhysicalPlacement.member
        (physicalPlacements js settings projects)).entries.map entryPart := by
  rw [buildProjectGroups, List.map_filterMap]
  refine (List.filterMap_congr fun entry hentry ↦ ?_).trans (congrFun List.filterMap_eq_map' _)
  obtain ⟨⟨placement, hplacement, hkey⟩, hvalues⟩ := mem_entries_collectBy.mp hentry
  have hne : entry.2 ≠ [] := by
    rw [hvalues]
    exact List.ne_nil_of_mem
      (List.mem_map_of_mem (List.mem_filter.mpr ⟨hplacement, decide_eq_true hkey⟩))
  obtain ⟨first, members, hmembers⟩ := List.exists_cons_of_ne_nil hne
  obtain ⟨key, values⟩ := entry
  obtain rfl := hmembers
  simp [hpart]

theorem map_key_buildProjectGroups (projects : List (EnvironmentProject δ)) :
    (buildProjectGroups js projects settings preferred).map (·.key) =
      (collectBy PhysicalPlacement.logicalKey PhysicalPlacement.member
        (physicalPlacements js settings projects)).keys :=
  filterMap_groups projects _ Prod.fst fun _ ↦ rfl

/-- **The members of all groups** are the physical projects. -/
theorem flatMap_members_perm (projects : List (EnvironmentProject δ)) :
    ((buildProjectGroups js projects settings preferred).flatMap (·.members)).Perm
      ((physicalPlacements js settings projects).map (·.member)) := by
  rw [List.flatMap_def, filterMap_groups projects _ Prod.snd fun _ ↦ rfl, ← List.flatMap_def]
  exact flatMap_entries_collectBy_perm _ _ _

/-- **The references of all groups** are the references of the projects that come first. -/
theorem flatMap_memberProjectRefs_perm (projects : List (EnvironmentProject δ)) :
    ((buildProjectGroups js projects settings preferred).flatMap (·.memberProjectRefs)).Perm
      ((firstsBy (fun project ↦ scopedProjectKey project.ref) [] projects).map (·.ref)) := by
  set firsts := firstsBy (fun project ↦ scopedProjectKey project.ref) [] projects with hfirsts
  set placements := physicalPlacements js settings projects with hplacements
  set groups := buildProjectGroups js projects settings preferred with hgroups
  have hrefs : groups.flatMap (·.memberProjectRefs) =
      ((groups.map (·.key)).flatMap fun key ↦
        firsts.filter fun project ↦ logicalKeyOf js settings placements project = key).map
          (·.ref) := by
    rw [List.map_flatMap, List.flatMap_map]
    exact List.flatMap_congr fun group hgroup ↦ (mem_buildProjectGroups hgroup).2
  have hkeys : (groups.map (·.key)).Nodup := by
    rw [hgroups, map_key_buildProjectGroups]
    exact OrderedMap.nodup _
  rw [hrefs]
  refine ((flatMap_filter_perm _ hkeys firsts).trans (.of_eq ?_)).map _
  refine List.filter_eq_self.mpr fun project hproject ↦ decide_eq_true ?_
  obtain ⟨placement, hplacement, hkey⟩ :=
    exists_placement js settings ((firstsBy_sublist _ _ _).subset hproject)
  rw [logicalKeyOf_eq hplacement hkey, hgroups, map_key_buildProjectGroups, mem_keys_collectBy]
  exact ⟨placement, hplacement, rfl⟩

/-! ## A partition -/

variable (js settings)

/-- The logical key of a project in a list. -/
def groupKeyOf (projects : List (EnvironmentProject δ)) (project : EnvironmentProject δ) : String :=
  logicalKeyOf js settings (physicalPlacements js settings projects) project

/-- Two references of the list are one if their keys are. -/
def RefKeysApart (projects : List (EnvironmentProject δ)) : Prop :=
  ∀ a ∈ projects, ∀ b ∈ projects, scopedProjectKey a.ref = scopedProjectKey b.ref → a.ref = b.ref

/-- The projects of one reference are in one group. -/
def RefsTogether (projects : List (EnvironmentProject δ)) : Prop :=
  ∀ a ∈ projects, ∀ b ∈ projects, a.ref = b.ref →
    groupKeyOf js settings projects a = groupKeyOf js settings projects b

/-- The groups are the same, but for their order, their labels and who represents them. -/
def SameGroups (groups others : List (ProjectGroup δ)) : Prop :=
  ∀ group ∈ groups, ∃ other ∈ others, other.key = group.key ∧
    group.members.Perm other.members ∧ group.memberProjectRefs.Perm other.memberProjectRefs

/-- **The groups are a partition** of the physical projects and of the references, and they do not
depend on the order of the list. -/
structure GroupsArePartition (preferred : Option String) (projects : List (EnvironmentProject δ)) :
    Prop where
  /-- Every physical key is in one group, as one member. -/
  physical_once : (((buildProjectGroups js projects settings preferred).flatMap (·.members)).map
    (·.physicalProjectKey)).Nodup
  physical_all : ∀ key, key ∈ ((buildProjectGroups js projects settings preferred).flatMap
    (·.members)).map (·.physicalProjectKey) ↔
      ∃ project ∈ projects, derivePhysicalProjectKey js project = key
  member : ∀ group ∈ buildProjectGroups js projects settings preferred, ∀ member ∈ group.members,
    member.project ∈ projects ∧
      derivePhysicalProjectKey js member.project = member.physicalProjectKey
  /-- Every reference is in one group. -/
  ref_once : ((buildProjectGroups js projects settings preferred).flatMap
    (·.memberProjectRefs)).Nodup
  ref_all : RefKeysApart projects → ∀ ref,
    ref ∈ (buildProjectGroups js projects settings preferred).flatMap (·.memberProjectRefs) ↔
      ∃ project ∈ projects, project.ref = ref
  keys : ((buildProjectGroups js projects settings preferred).map (·.key)).Nodup
  separate : ∀ a ∈ projects, ∀ b ∈ projects,
    resolveProjectGroupingMode js a settings = .separate →
    resolveProjectGroupingMode js b settings = .separate →
    ∀ group ∈ buildProjectGroups js projects settings preferred,
      derivePhysicalProjectKey js a ∈ group.members.map (·.physicalProjectKey) →
      derivePhysicalProjectKey js b ∈ group.members.map (·.physicalProjectKey) →
        derivePhysicalProjectKey js a = derivePhysicalProjectKey js b
  permutation : RefKeysApart projects → RefsTogether js settings projects →
    TiesAreOne js projects → ∀ others, projects.Perm others →
      SameGroups (buildProjectGroups js projects settings preferred)
        (buildProjectGroups js others settings preferred) ∧
      SameGroups (buildProjectGroups js others settings preferred)
        (buildProjectGroups js projects settings preferred)

instance [DecidableEq δ] (groups others : List (ProjectGroup δ)) :
    Decidable (SameGroups groups others) :=
  inferInstanceAs (Decidable (∀ group ∈ groups, ∃ other ∈ others, _))

variable {js settings} {projects : List (EnvironmentProject δ)}

theorem member_of_mem {group : ProjectGroup δ}
    (hgroup : group ∈ buildProjectGroups js projects settings preferred)
    {member : ProjectGroupMember δ} (hmember : member ∈ group.members) :
    member.project ∈ projects ∧
      derivePhysicalProjectKey js member.project = member.physicalProjectKey := by
  rw [(mem_buildProjectGroups hgroup).1] at hmember
  obtain ⟨placement, hplacement, rfl⟩ := List.mem_map.mp hmember
  obtain ⟨key, -, hplace⟩ := mem_physicalPlacements.mp (List.mem_of_mem_filter hplacement)
  obtain ⟨hkey, hproject⟩ := placePhysicalProject_spec hplace
  obtain ⟨hmem, hphysical⟩ := (mem_physicalProjects js).mp hproject
  exact ⟨hmem, hphysical.trans hkey.symm⟩

/-- The physical project of a project that is to be separate is a group of its own. -/
theorem logicalKey_of_separate {placement : PhysicalPlacement δ}
    (hplacement : placement ∈ physicalPlacements js settings projects) {a : EnvironmentProject δ}
    (hkey : placement.member.physicalProjectKey = derivePhysicalProjectKey js a)
    (hmode : resolveProjectGroupingMode js a settings = .separate) :
    placement.logicalKey = derivePhysicalProjectKey js a := by
  obtain ⟨key, -, hplace⟩ := mem_physicalPlacements.mp hplacement
  obtain ⟨hkey', -⟩ := placePhysicalProject_spec hplace
  obtain rfl : key = derivePhysicalProjectKey js a := hkey'.symm.trans hkey
  obtain ⟨winner, hwinner, rfl⟩ := Option.map_eq_some_iff.mp hplace
  rw [physicalProjectWinner_eq] at hwinner
  have hwinnerKey := ((mem_physicalProjects js).mp (List.argmax_mem hwinner)).2
  have hwinnerMode : resolveProjectGroupingMode js winner settings = .separate := by
    rw [resolveProjectGroupingMode, deriveProjectGroupingOverrideKey] at hmode ⊢
    rw [hwinnerKey, hmode]
  have hsource : derivePhysicalProjectKey js (selectProjectIdentitySource js
      (physicalProjects js projects (derivePhysicalProjectKey js a)) winner) =
        derivePhysicalProjectKey js a := by
    rw [selectProjectIdentitySource_eq]
    split
    next => exact hwinnerKey
    next =>
      cases hidentified : ((physicalProjects js projects (derivePhysicalProjectKey js a)).filter
          (·.repositoryIdentity.isSome)).argmax (freshnessRank js) with
      | none => exact hwinnerKey
      | some project =>
        exact ((mem_physicalProjects js).mp
          (List.mem_of_mem_filter (List.argmax_mem hidentified))).2
  simp only [hwinnerMode, deriveLogicalProjectKey, if_true, hsource]

/-- The places do not depend on the order of the projects. -/
theorem physicalPlacements_perm (settings : ProjectGroupingSettings)
    (hties : TiesAreOne js projects) {others : List (EnvironmentProject δ)}
    (hperm : projects.Perm others) :
    (physicalPlacements js settings projects).Perm (physicalPlacements js settings others) := by
  refine (List.perm_ext_iff_of_nodup ?_ ?_).mpr fun placement ↦ ?_
  · exact (nodup_key_physicalPlacements projects).of_map
  · exact (nodup_key_physicalPlacements others).of_map
  · rw [mem_physicalPlacements, mem_physicalPlacements]
    refine exists_congr fun key ↦ and_congr ?_ ?_
    · simp only [hperm.mem_iff]
    · have hplace := placePhysicalProject_perm js settings key
        (hperm.filter fun project ↦ derivePhysicalProjectKey js project = key)
        fun a ha b hb hrank ↦ by
          obtain ⟨hamem, hakey⟩ := (mem_physicalProjects js).mp ha
          obtain ⟨hbmem, hbkey⟩ := (mem_physicalProjects js).mp hb
          obtain ⟨htime, hid⟩ := freshnessRank_inj js hrank
          exact hties a hamem b hbmem (hakey.trans hbkey.symm) htime hid
      rw [physicalProjects, physicalProjects, hplace]

/-- The logical keys do not depend on the order of the projects. -/
theorem groupKeyOf_perm (hties : TiesAreOne js projects) {others : List (EnvironmentProject δ)}
    (hperm : projects.Perm others) {project : EnvironmentProject δ} (h : project ∈ projects) :
    groupKeyOf js settings projects project = groupKeyOf js settings others project := by
  obtain ⟨placement, hplacement, hkey⟩ := exists_placement js settings h
  rw [groupKeyOf, groupKeyOf, logicalKeyOf_eq hplacement hkey,
    logicalKeyOf_eq ((physicalPlacements_perm settings hties hperm).mem_iff.mp hplacement) hkey]

theorem nodup_ref_firsts (projects : List (EnvironmentProject δ)) :
    ((firstsBy (fun project ↦ scopedProjectKey project.ref) [] projects).map (·.ref)).Nodup := by
  have hkeys := nodup_map_firstsBy
    (fun project : EnvironmentProject δ ↦ scopedProjectKey project.ref) [] projects
  rw [← Function.comp_def scopedProjectKey EnvironmentProject.ref, ← List.map_map] at hkeys
  exact hkeys.of_map

/-- **The references of a group** are those of the projects with its key. -/
theorem mem_memberProjectRefs (hapart : RefKeysApart projects)
    (htogether : RefsTogether js settings projects) {group : ProjectGroup δ}
    (hgroup : group ∈ buildProjectGroups js projects settings preferred) {ref : ScopedProjectRef} :
    ref ∈ group.memberProjectRefs ↔
      ∃ project ∈ projects, groupKeyOf js settings projects project = group.key ∧
        project.ref = ref := by
  rw [(mem_buildProjectGroups hgroup).2, List.mem_map]
  constructor
  · rintro ⟨project, hproject, rfl⟩
    obtain ⟨hfirst, hkey⟩ := List.mem_filter.mp hproject
    exact ⟨project, (firstsBy_sublist _ _ _).subset hfirst, of_decide_eq_true hkey, rfl⟩
  · rintro ⟨project, hproject, hkey, rfl⟩
    obtain ⟨first, hfirst, hsame⟩ := exists_mem_firstsBy
      (fun project : EnvironmentProject δ ↦ scopedProjectKey project.ref) hproject
      List.not_mem_nil
    have hmem := (firstsBy_sublist _ _ _).subset hfirst
    have href := hapart first hmem project hproject hsame
    refine ⟨first, List.mem_filter.mpr ⟨hfirst, decide_eq_true ?_⟩, href⟩
    exact (htogether first hmem project hproject href).trans hkey

theorem sameGroups_of_perm (hapart : RefKeysApart projects)
    (htogether : RefsTogether js settings projects) (hties : TiesAreOne js projects)
    {others : List (EnvironmentProject δ)} (hperm : projects.Perm others)
    (hapart' : RefKeysApart others) (htogether' : RefsTogether js settings others) :
    SameGroups (buildProjectGroups js projects settings preferred)
      (buildProjectGroups js others settings preferred) := by
  intro group hgroup
  have hplacements := physicalPlacements_perm settings hties hperm
  have hkey : group.key ∈ (buildProjectGroups js others settings preferred).map (·.key) := by
    have hmem := List.mem_map_of_mem (f := ProjectGroup.key) hgroup
    rw [map_key_buildProjectGroups, mem_keys_collectBy] at hmem ⊢
    simpa only [hplacements.mem_iff] using hmem
  obtain ⟨other, hother, hsame⟩ := List.mem_map.mp hkey
  refine ⟨other, hother, hsame, ?_, ?_⟩
  · rw [(mem_buildProjectGroups hgroup).1, (mem_buildProjectGroups hother).1, hsame]
    exact (hplacements.filter _).map _
  · have hnodup : ∀ {projects : List (EnvironmentProject δ)} {group : ProjectGroup δ},
        group ∈ buildProjectGroups js projects settings preferred →
          group.memberProjectRefs.Nodup := fun hgroup ↦ by
      rw [(mem_buildProjectGroups hgroup).2]
      exact (nodup_ref_firsts _).sublist (List.filter_sublist.map _)
    refine (List.perm_ext_iff_of_nodup (hnodup hgroup) (hnodup hother)).mpr fun ref ↦ ?_
    rw [mem_memberProjectRefs hapart htogether hgroup,
      mem_memberProjectRefs hapart' htogether' hother, hsame]
    refine exists_congr fun project ↦ ?_
    rw [← hperm.mem_iff]
    exact and_congr_right fun hproject ↦ by rw [groupKeyOf_perm hties hperm hproject]

/-- **Project groups are a partition.** -/
theorem groupsArePartition (js : JsRuntime) (settings : ProjectGroupingSettings)
    (preferred : Option String) (projects : List (EnvironmentProject δ)) :
    GroupsArePartition js settings preferred projects where
  physical_once := by
    rw [((flatMap_members_perm projects).map _).nodup_iff, List.map_map]
    exact nodup_key_physicalPlacements projects
  physical_all key := by
    rw [((flatMap_members_perm projects).map _).mem_iff, List.map_map]
    have hkeys : (physicalPlacements js settings projects).map
        ((·.physicalProjectKey) ∘ (·.member)) = _ := map_key_physicalPlacements projects
    rw [hkeys, mem_keys_collectBy]
  member _ hgroup _ hmember := member_of_mem hgroup hmember
  ref_once := (flatMap_memberProjectRefs_perm projects).nodup_iff.mpr (nodup_ref_firsts projects)
  ref_all hapart ref := by
    rw [(flatMap_memberProjectRefs_perm projects).mem_iff, List.mem_map]
    constructor
    · rintro ⟨project, hproject, rfl⟩
      exact ⟨project, (firstsBy_sublist _ _ _).subset hproject, rfl⟩
    · rintro ⟨project, hproject, rfl⟩
      obtain ⟨first, hfirst, hsame⟩ := exists_mem_firstsBy
        (fun project : EnvironmentProject δ ↦ scopedProjectKey project.ref) hproject
        List.not_mem_nil
      exact ⟨first, hfirst,
        hapart first ((firstsBy_sublist _ _ _).subset hfirst) project hproject hsame⟩
  keys := by
    rw [map_key_buildProjectGroups]
    exact OrderedMap.nodup _
  separate a ha b hb hamode hbmode group hgroup hamem hbmem := by
    have hkey : ∀ project : EnvironmentProject δ,
        resolveProjectGroupingMode js project settings = .separate →
          derivePhysicalProjectKey js project ∈ group.members.map (·.physicalProjectKey) →
            group.key = derivePhysicalProjectKey js project := by
      intro project hmode hmem
      rw [(mem_buildProjectGroups hgroup).1, List.map_map] at hmem
      obtain ⟨placement, hplacement, hphysical⟩ := List.mem_map.mp hmem
      obtain ⟨hplacement, hlogical⟩ := List.mem_filter.mp hplacement
      exact (of_decide_eq_true hlogical).symm.trans
        (logicalKey_of_separate hplacement hphysical hmode)
    exact (hkey a hamode hamem).symm.trans (hkey b hbmode hbmem)
  permutation hapart htogether hties others hperm := by
    have hapart' : RefKeysApart others := fun a ha b hb ↦
      hapart a (hperm.mem_iff.mpr ha) b (hperm.mem_iff.mpr hb)
    have hties' : TiesAreOne js others := fun a ha b hb ↦
      hties a (hperm.mem_iff.mpr ha) b (hperm.mem_iff.mpr hb)
    have htogether' : RefsTogether js settings others := by
      intro a ha b hb href
      have ha' := hperm.mem_iff.mpr ha
      have hb' := hperm.mem_iff.mpr hb
      rw [← groupKeyOf_perm hties hperm ha', ← groupKeyOf_perm hties hperm hb']
      exact htogether a ha' b hb' href
    exact ⟨sameGroups_of_perm hapart htogether hties hperm hapart' htogether',
      sameGroups_of_perm hapart' htogether' hties' hperm.symm hapart htogether⟩

/-! ## Where the order counts -/

/-- A project of an environment. -/
def plainProject (environmentId id workspaceRoot title : String) : EnvironmentProject Unit where
  environmentId
  id
  title
  workspaceRoot
  repositoryIdentity := none
  createdAt := "2026-07-01T00:00:00.000Z"
  updatedAt := "2026-07-01T00:00:00.000Z"
  details := ()

def plainSettings : ProjectGroupingSettings where
  sidebarProjectGroupingMode := .repository
  sidebarProjectGroupingOverrides := .empty

/-- **The order counts** where one reference is listed under two roots, and where two projects of a
root are equally fresh and have one id. **A reference is left out** where it has the key of
another. -/
theorem not_groupsArePartition_everywhere :
    ¬SameGroups
      (buildProjectGroups plainRuntime
        [plainProject "env" "p" "/a" "A", plainProject "env" "p" "/b" "A"] plainSettings)
      (buildProjectGroups plainRuntime
        [plainProject "env" "p" "/b" "A", plainProject "env" "p" "/a" "A"] plainSettings) ∧
    ¬SameGroups
      (buildProjectGroups plainRuntime
        [plainProject "env" "p" "/a" "A", plainProject "env" "p" "/a" "B"] plainSettings)
      (buildProjectGroups plainRuntime
        [plainProject "env" "p" "/a" "B", plainProject "env" "p" "/a" "A"] plainSettings) ∧
    (⟨"a:b", "c"⟩ : ScopedProjectRef) ∉ (buildProjectGroups plainRuntime
      [plainProject "a" "b:c" "/a" "A", plainProject "a:b" "c" "/b" "B"] plainSettings).flatMap
        (·.memberProjectRefs) := by
  decide +kernel

end Awen.Project
