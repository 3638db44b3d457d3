import Awen.Subagents.FoldRuns
import Awen.Library.Groups
import Mathlib.Data.List.Count
import Awen.Shared.PlainRuntime

/-!
# The agents' panel

`deriveAgentPanelModel` places the agents of a thread: a workflow coordinates a group, whose members
stand in their phases or, if they have no known phase, next to them; every other agent stands by
itself. The phases of a group are those its workflow has reported; if it has reported none, they
are the phases that its members name.
-/

namespace Awen.Subagents

/-! ## The panel -/

inductive AgentPanelPhaseState where
  | pending
  | running
  | done
  deriving DecidableEq

structure AgentPanelPhase where
  index : ℚ
  title : String
  members : List RuntimeSubagent
  /-- Done: every member settled (success or error). Running: any active. -/
  state : AgentPanelPhaseState
  activeCount : ℕ
  settledCount : ℕ
  deriving DecidableEq

structure AgentPanelWorkflowGroup where
  workflow : RuntimeSubagent
  phases : List AgentPanelPhase
  /-- Members with no resolvable phase. -/
  unphasedMembers : List RuntimeSubagent
  deriving DecidableEq

structure AgentPanelModel where
  workflows : List AgentPanelWorkflowGroup
  directAgents : List RuntimeSubagent
  runningCount : ℕ
  waitingCount : ℕ
  idleCount : ℕ
  settledCount : ℕ
  totalTokens : ℚ
  hasAgents : Bool
  liveCount : ℕ
  deriving DecidableEq

def emptyAgentPanelModel : AgentPanelModel where
  workflows := []
  directAgents := []
  runningCount := 0
  waitingCount := 0
  idleCount := 0
  settledCount := 0
  totalTokens := 0
  hasAgents := false
  liveCount := 0

/-- The order of the panel's rows: by the first sight of the agent, then by its id. -/
def compareFirstSeen (js : JsRuntime) (a b : RuntimeSubagent) : Ordering :=
  (js.localeCompare a.firstSeenAt b.firstSeenAt).then (js.localeCompare a.id b.id)

def sortFirstSeen (js : JsRuntime) (agents : List RuntimeSubagent) : List RuntimeSubagent :=
  stableSort (fun a b ↦ (compareFirstSeen js a b).isLE) agents

def sortAgentIndex (agents : List RuntimeSubagent) : List RuntimeSubagent :=
  stableSort (fun a b ↦ decide (a.agentIndex.getD 0 ≤ b.agentIndex.getD 0)) agents

/-- The members of each workflow and the direct agents. Members whose coordinator has aged out are
direct agents. -/
def splitMembers (workflowIds : List String) (source : List RuntimeSubagent) :
    OrderedMap String (List RuntimeSubagent) × List RuntimeSubagent :=
  source.foldl (fun (members, direct) agent ↦
    if agent.kind = .workflow then (members, direct)
    else
      match agent.parentAgentId with
      | some parent =>
        if parent ∈ workflowIds then
          (members.set parent ((members.get parent).getD [] ++ [agent]), direct)
        else (members, direct ++ [agent])
      | none => (members, direct ++ [agent])) (.empty, [])

/-- The titles of the phases that members name, under the index of the phase; the first member that
names a phase titles it. `numberText` is how a number reads in a text. -/
def derivedPhaseTitles (numberText : ℚ → String) (members : List RuntimeSubagent) :
    OrderedMap ℚ String :=
  members.foldl (fun derived member ↦
    match member.phaseIndex with
    | some index =>
      if derived.has index then derived
      else derived.set index (member.phaseTitle.getD ("Phase " ++ numberText (index + 1)))
    | none => derived) .empty

/-- The phases of a group. -/
def knownPhases (numberText : ℚ → String) (workflow : RuntimeSubagent)
    (members : List RuntimeSubagent) : List SubagentWorkflowPhase :=
  if workflow.phases ≠ [] then workflow.phases
  else
    stableSort (fun a b ↦ decide (a.index ≤ b.index))
      ((derivedPhaseTitles numberText members).entries.map fun (index, title) ↦ ⟨index, title⟩)

/-- A phase with its members. -/
def panelPhase (workflowMembers : List RuntimeSubagent) (phase : SubagentWorkflowPhase) :
    AgentPanelPhase :=
  let members := sortAgentIndex (workflowMembers.filter (·.phaseIndex = some phase.index))
  -- a member that is idle can be resumed, so that it has not finished the phase
  let activeCount :=
    members.countP fun member ↦
      isActiveSubagentStatus member.status || decide (member.status = .idle)
  let settledCount := members.countP fun member ↦ isTerminalSubagentStatus member.status
  { index := phase.index
    title := phase.title
    members
    state :=
      if members.length = 0 then .pending
      else if 0 < activeCount then .running
      else if settledCount = members.length then .done
      else .pending
    activeCount
    settledCount }

/-- A workflow with its members. Unknown phase indices count as none: a member must never vanish
just because its phase row was lost. -/
def panelGroup (numberText : ℚ → String) (members : OrderedMap String (List RuntimeSubagent))
    (workflow : RuntimeSubagent) : AgentPanelWorkflowGroup :=
  let workflowMembers := (members.get workflow.id).getD []
  let phases := knownPhases numberText workflow workflowMembers
  { workflow
    phases := phases.map (panelPhase workflowMembers)
    unphasedMembers :=
      sortAgentIndex (workflowMembers.filter fun member ↦
        member.phaseIndex.all fun index ↦ decide (index ∉ phases.map (·.index))) }

/-- A coordinator with members is a container for them, not work of its own. -/
def isContainer (members : OrderedMap String (List RuntimeSubagent)) (agent : RuntimeSubagent) :
    Bool :=
  decide (agent.kind = .workflow) && !((members.get agent.id).getD []).isEmpty

/-- One agent more in the totals. -/
def countAgent (members : OrderedMap String (List RuntimeSubagent)) (model : AgentPanelModel)
    (agent : RuntimeSubagent) : AgentPanelModel :=
  if isContainer members agent then model
  else
    let model :=
      match agent.status with
      | .running | .pending => { model with runningCount := model.runningCount + 1 }
      | .waiting => { model with waitingCount := model.waitingCount + 1 }
      | .idle => { model with idleCount := model.idleCount + 1 }
      | _ => { model with settledCount := model.settledCount + 1 }
    { model with totalTokens := model.totalTokens + (agent.usage.map (·.totalTokens)).getD 0 }

/-- **The panel of a list of agents.** A projection of the newer source wins outright: the two
sources are never merged. -/
def deriveAgentPanelModel (js : JsRuntime) (numberText : ℚ → String) (agents : List RuntimeSubagent)
    (v2Projection : Option (List RuntimeSubagent) := none) : AgentPanelModel :=
  let source := v2Projection.getD agents
  if source.length = 0 then emptyAgentPanelModel
  else
    let workflows := sortFirstSeen js (source.filter (·.kind = .workflow))
    let (members, direct) := splitMembers (workflows.map (·.id)) source
    let counted := source.foldl (countAgent members) emptyAgentPanelModel
    { counted with
      workflows := workflows.map (panelGroup numberText members)
      directAgents := sortFirstSeen js direct
      hasAgents := true
      liveCount := counted.runningCount + counted.waitingCount }

/-!
## Every agent in one position

Where the panel places the agents, and what its totals are. The filters that place the agents are a
partition of them, but for one case: phases that a workflow has reported twice under one index each
show the members of that index (`count_members_panelGroup`).
-/

variable (js : JsRuntime) (numberText : ℚ → String)

/-! ## The ids of the agents -/

namespace SubagentRoster

theorem map_id_cascade (agents : List RuntimeSubagent) (index : ℕ) :
    (cascade agents index).map (·.id) = agents.map (·.id) := by
  rw [cascade]
  split
  next => rfl
  next coordinator _ =>
    split
    next => rfl
    next =>
      rw [List.map_map]
      refine List.map_congr_left fun member _ ↦ ?_
      rw [Function.comp_apply, settleMember]
      split
      next => rfl
      next => split <;> rfl

theorem id_interruptActive (agent : RuntimeSubagent) : (interruptActive agent).id = agent.id := by
  rw [interruptActive]
  split <;> rfl

theorem map_id_values_foldRows (activities : List Orchestration.OrchestrationThreadActivity) :
    (foldRows activities).values.map (·.id) = (foldRows activities).keys := by
  rw [OrderedMap.values, OrderedMap.keys, List.map_map]
  refine List.map_congr_left fun entry hentry ↦ ?_
  exact (roster_foldRows activities entry.1 entry.2 (OrderedMap.get_eq_some.mpr hentry)).1

end SubagentRoster

open SubagentRoster in
/-- **The agents of a thread have distinct ids.** -/
theorem nodup_ids_foldSubagentActivities
    (activities : List Orchestration.OrchestrationThreadActivity) (sessionLive : Bool) :
    ((foldSubagentActivities js activities sessionLive).map (·.id)).Nodup := by
  rw [foldSubagentActivities]
  set cascaded := (List.range (foldRows activities).values.length).foldl cascade
    (foldRows activities).values with hcascaded
  set agents := if sessionLive = true then cascaded else cascaded.map interruptActive with hagents
  have hids : agents.map (·.id) = (foldRows activities).keys := by
    have hcascade : cascaded.map (·.id) = (foldRows activities).keys := by
      rw [hcascaded, ← map_id_values_foldRows]
      induction List.range (foldRows activities).values.length using List.reverseRecOn with
      | nil => rfl
      | append_singleton indices index ih => rw [List.foldl_concat, map_id_cascade, ih]
    rw [hagents]
    split
    next => exact hcascade
    next =>
      rw [List.map_map, ← hcascade]
      exact List.map_congr_left fun agent _ ↦ id_interruptActive agent
  have hnodup : (agents.map (·.id)).Nodup := hids ▸ (foldRows activities).nodup
  split
  next =>
    refine List.Nodup.sublist ((List.take_sublist _ _).map _) ?_
    exact ((stableSort_perm _ _).map _).nodup_iff.mpr hnodup
  next => exact hnodup

/-! ## What the panel is for -/

/-- The agent works for the workflow. -/
def IsMemberOf (workflow member : RuntimeSubagent) : Prop :=
  member.kind ≠ .workflow ∧ member.parentAgentId = some workflow.id

instance (workflow member : RuntimeSubagent) : Decidable (IsMemberOf workflow member) :=
  inferInstanceAs (Decidable (_ ∧ _))

/-- The agent is a coordinator with at least one member. -/
def Coordinates (agents : List RuntimeSubagent) (agent : RuntimeSubagent) : Prop :=
  agent.kind = .workflow ∧ ∃ member ∈ agents, IsMemberOf agent member

instance (agents : List RuntimeSubagent) (agent : RuntimeSubagent) :
    Decidable (Coordinates agents agent) :=
  inferInstanceAs (Decidable (_ ∧ _))

/-- The members of a group: in its phases, then those without a phase. -/
def AgentPanelWorkflowGroup.members (group : AgentPanelWorkflowGroup) : List RuntimeSubagent :=
  group.phases.flatMap (·.members) ++ group.unphasedMembers

/-- The agents in all the positions of the panel. -/
def AgentPanelModel.positions (model : AgentPanelModel) : List RuntimeSubagent :=
  model.workflows.flatMap (fun group ↦ group.workflow :: group.members) ++ model.directAgents

/-- The tokens an agent has used. -/
def tokensOf (agent : RuntimeSubagent) : ℚ := (agent.usage.map (·.totalTokens)).getD 0

/-- **The panel shows every agent once, and its totals add up.** -/
structure PanelAddsUp (agents : List RuntimeSubagent) : Prop where
  /-- Every agent has exactly one position. -/
  once : (deriveAgentPanelModel js numberText agents).positions.Perm agents
  group : ∀ group ∈ (deriveAgentPanelModel js numberText agents).workflows,
    group.workflow.kind = .workflow ∧ ∀ member ∈ group.members, IsMemberOf group.workflow member
  phase : ∀ group ∈ (deriveAgentPanelModel js numberText agents).workflows,
    ∀ phase ∈ group.phases, ∀ member ∈ phase.members, member.phaseIndex = some phase.index
  direct : ∀ agent ∈ (deriveAgentPanelModel js numberText agents).directAgents,
    agent.kind ≠ .workflow ∧
      ∀ workflow ∈ agents, workflow.kind = .workflow → ¬IsMemberOf workflow agent
  counts :
    (deriveAgentPanelModel js numberText agents).runningCount +
      (deriveAgentPanelModel js numberText agents).waitingCount +
      (deriveAgentPanelModel js numberText agents).idleCount +
      (deriveAgentPanelModel js numberText agents).settledCount =
        (agents.filter fun agent ↦ ¬Coordinates agents agent).length
  tokens : (deriveAgentPanelModel js numberText agents).totalTokens =
    ((agents.filter fun agent ↦ ¬Coordinates agents agent).map tokensOf).sum
  done : ∀ group ∈ (deriveAgentPanelModel js numberText agents).workflows,
    ∀ phase ∈ group.phases, phase.state = .done ↔
      phase.members ≠ [] ∧ ∀ member ∈ phase.members, member.isTerminal = true
  /-- Agents that are removed leave the other direct agents in their order. -/
  order : ∀ kept, kept.Sublist agents →
    ((deriveAgentPanelModel js numberText agents).directAgents.filter (· ∈ kept)).Sublist
      (deriveAgentPanelModel js numberText kept).directAgents

/-! ## Members and direct agents -/

/-- The agent is neither a workflow nor the member of one of the workflows. -/
def isDirect (workflowIds : List String) (agent : RuntimeSubagent) : Bool :=
  decide (agent.kind ≠ .workflow) &&
    agent.parentAgentId.all fun parent ↦ decide (parent ∉ workflowIds)

/-- **How the agents split**: each workflow gets its members, in order; the rest is direct. -/
theorem splitMembers_spec (workflowIds : List String) (source : List RuntimeSubagent) :
    (∀ id, (((splitMembers workflowIds source).1.get id).getD []) =
      source.filter fun agent ↦ agent.kind ≠ .workflow ∧ agent.parentAgentId = some id ∧
        id ∈ workflowIds) ∧
    (splitMembers workflowIds source).2 = source.filter (isDirect workflowIds) := by
  induction source using List.reverseRecOn with
  | nil => exact ⟨fun _ ↦ rfl, rfl⟩
  | append_singleton source agent ih =>
    obtain ⟨ihmembers, ihdirect⟩ := ih
    rw [splitMembers, List.foldl_append, ← splitMembers]
    simp only [List.foldl_cons, List.foldl_nil, List.filter_append]
    by_cases hkind : agent.kind = .workflow
    · simp [hkind, ihmembers, ihdirect, isDirect]
    · cases hparent : agent.parentAgentId with
      | none => simp [hkind, hparent, ihmembers, ihdirect, isDirect]
      | some parent =>
        by_cases hmem : parent ∈ workflowIds
        · refine ⟨fun id ↦ ?_, by simp [hkind, hparent, hmem, ihdirect, isDirect]⟩
          by_cases hid : id = parent
          · subst hid
            simp [hkind, hparent, hmem, ihmembers]
          · simp [hkind, hparent, hmem, ihmembers, OrderedMap.get_set_of_ne hid, Ne.symm hid]
        · refine ⟨fun id ↦ ?_, by simp [hkind, hparent, hmem, ihdirect, isDirect]⟩
          by_cases hid : id = parent
          · subst hid
            simp [hkind, hmem, ihmembers]
          · simp [hkind, hparent, hmem, ihmembers, Ne.symm hid]

/-! ## The positions in a group -/

theorem nodup_index_knownPhases {workflow : RuntimeSubagent} (h : workflow.phases = [])
    (members : List RuntimeSubagent) :
    ((knownPhases numberText workflow members).map (·.index)).Nodup := by
  rw [knownPhases, if_neg (not_not_intro h)]
  refine ((stableSort_perm _ _).map _).nodup_iff.mpr ?_
  rw [List.map_map]
  exact (derivedPhaseTitles numberText members).nodup

section

variable (groups : OrderedMap String (List RuntimeSubagent)) (workflow : RuntimeSubagent)

/-- **How often a member is shown in its group**: once for each time its phase is listed, and once
if its phase is not known. -/
theorem count_members_panelGroup (member : RuntimeSubagent) :
    (panelGroup numberText groups workflow).members.count member =
      ((groups.get workflow.id).getD []).count member *
        ((member.phaseIndex.map fun index ↦ max 1 (((knownPhases numberText workflow
          ((groups.get workflow.id).getD [])).map (·.index)).count index)).getD 1) := by
  set members := (groups.get workflow.id).getD [] with hmembers
  set phases := knownPhases numberText workflow members with hphases
  have hphased : ((phases.map (panelPhase members)).flatMap (·.members)).Perm
      ((phases.map fun phase ↦ some phase.index).flatMap fun k ↦
        members.filter fun member ↦ member.phaseIndex = k) := by
    rw [List.flatMap_map, List.flatMap_map]
    exact List.Perm.flatMap_left phases fun _ _ ↦ stableSort_perm _ _
  have hunphased : (panelGroup numberText groups workflow).unphasedMembers.Perm
      (members.filter fun member ↦
        member.phaseIndex.all fun index ↦ decide (index ∉ phases.map (·.index))) :=
    stableSort_perm _ _
  have hgroup : (panelGroup numberText groups workflow).phases = phases.map (panelPhase members) :=
    rfl
  rw [AgentPanelWorkflowGroup.members, hgroup, List.count_append, hphased.count_eq,
    hunphased.count_eq, count_flatMap_filter]
  have hlabels : phases.map (fun phase ↦ some phase.index) =
      (phases.map (·.index)).map some := by
    rw [List.map_map]
    rfl
  cases hindex : member.phaseIndex with
  | none =>
    rw [List.count_filter (by rw [hindex]; rfl), hlabels, List.count_eq_zero_of_not_mem (by simp),
      Nat.zero_mul, Nat.zero_add, Option.map_none, Option.getD_none, Nat.mul_one]
  | some index =>
    rw [hlabels, List.count_map_of_injective _ _ (Option.some_injective ℚ), Option.map_some,
      Option.getD_some, Nat.mul_comm]
    by_cases hknown : index ∈ phases.map (·.index)
    · have hnot : member ∉ members.filter fun member ↦
          member.phaseIndex.all fun index ↦ decide (index ∉ phases.map (·.index)) := by
        simp [hindex, -List.mem_map, hknown]
      rw [List.count_eq_zero_of_not_mem hnot, Nat.add_zero,
        Nat.max_eq_right (List.count_pos_iff.mpr hknown)]
    · rw [List.count_filter (by rw [hindex]; exact decide_eq_true hknown),
        List.count_eq_zero_of_not_mem hknown, Nat.mul_zero, Nat.zero_add, Nat.max_eq_left (by simp),
        Nat.mul_one]

/-- **A group shows each of its members once**, if no phase of a member is reported twice. -/
theorem members_panelGroup_perm
    (h : ∀ member ∈ (groups.get workflow.id).getD [], ∀ index, member.phaseIndex = some index →
      (workflow.phases.map (·.index)).count index ≤ 1) :
    (panelGroup numberText groups workflow).members.Perm ((groups.get workflow.id).getD []) := by
  refine List.perm_iff_count.mpr fun member ↦ ?_
  rw [count_members_panelGroup]
  by_cases hmember : member ∈ (groups.get workflow.id).getD []
  · suffices hone : (member.phaseIndex.map fun index ↦ max 1 (((knownPhases numberText workflow
        ((groups.get workflow.id).getD [])).map (·.index)).count index)).getD 1 = 1 by
      rw [hone, Nat.mul_one]
    cases hindex : member.phaseIndex with
    | none => rfl
    | some index =>
      rw [Option.map_some, Option.getD_some]
      refine Nat.max_eq_left ?_
      by_cases hphases : workflow.phases = []
      · exact List.nodup_iff_count_le_one.mp (nodup_index_knownPhases numberText hphases _) index
      · rw [knownPhases, if_pos hphases]
        exact h member hmember index hindex
  · rw [List.count_eq_zero_of_not_mem hmember, Nat.zero_mul]

end

/-! ## The totals -/

variable (groups : OrderedMap String (List RuntimeSubagent))

/-- **One agent more counts once**, unless it is a container. -/
theorem countAgent_cases (model : AgentPanelModel) (agent : RuntimeSubagent) :
    (isContainer groups agent = true ∧ countAgent groups model agent = model) ∨
    (isContainer groups agent = false ∧
      (countAgent groups model agent).runningCount + (countAgent groups model agent).waitingCount +
        (countAgent groups model agent).idleCount + (countAgent groups model agent).settledCount =
          model.runningCount + model.waitingCount + model.idleCount + model.settledCount + 1 ∧
      (countAgent groups model agent).totalTokens = model.totalTokens + tokensOf agent) := by
  cases hcontainer : isContainer groups agent with
  | true => exact .inl ⟨rfl, by rw [countAgent, if_pos hcontainer]⟩
  | false =>
    refine .inr ⟨rfl, ?_⟩
    rw [countAgent, if_neg (by rw [hcontainer]; exact Bool.false_ne_true)]
    cases agent.status
    all_goals exact ⟨by simp only; omega, rfl⟩

theorem foldl_countAgent (agents : List RuntimeSubagent) (model : AgentPanelModel) :
    (agents.foldl (countAgent groups) model).runningCount +
      (agents.foldl (countAgent groups) model).waitingCount +
      (agents.foldl (countAgent groups) model).idleCount +
      (agents.foldl (countAgent groups) model).settledCount =
        model.runningCount + model.waitingCount + model.idleCount + model.settledCount +
          (agents.filter fun agent ↦ isContainer groups agent = false).length ∧
    (agents.foldl (countAgent groups) model).totalTokens = model.totalTokens +
      ((agents.filter fun agent ↦ isContainer groups agent = false).map tokensOf).sum := by
  induction agents generalizing model with
  | nil => exact ⟨rfl, (add_zero _).symm⟩
  | cons agent agents ih =>
    obtain ⟨hcounts, htokens⟩ := ih (countAgent groups model agent)
    rw [List.foldl_cons, hcounts, htokens]
    obtain ⟨hcontainer, hsame⟩ | ⟨hcontainer, hone, hmore⟩ := countAgent_cases groups model agent
    · rw [hsame, List.filter_cons_of_neg (by simp [hcontainer])]
      exact ⟨rfl, rfl⟩
    · rw [List.filter_cons_of_pos (by simp [hcontainer]), hone, hmore, List.length_cons,
        List.map_cons, List.sum_cons]
      exact ⟨by omega, add_assoc _ _ _⟩

/-! ## The panel of a list -/

variable (agents : List RuntimeSubagent)

/-- The workflows of a list, in the order of the panel. -/
def panelWorkflows : List RuntimeSubagent :=
  sortFirstSeen js (agents.filter (·.kind = .workflow))

/-- The members of each workflow of a list. -/
def panelMembers : OrderedMap String (List RuntimeSubagent) :=
  (splitMembers ((panelWorkflows js agents).map (·.id)) agents).1

variable {agents}

@[simp] theorem mem_panelWorkflows {agent : RuntimeSubagent} :
    agent ∈ panelWorkflows js agents ↔ agent ∈ agents ∧ agent.kind = .workflow := by
  simp [panelWorkflows, sortFirstSeen]

theorem workflows_deriveAgentPanelModel (agents : List RuntimeSubagent) :
    (deriveAgentPanelModel js numberText agents).workflows =
      (panelWorkflows js agents).map (panelGroup numberText (panelMembers js agents)) := by
  cases agents <;> rfl

theorem directAgents_deriveAgentPanelModel (agents : List RuntimeSubagent) :
    (deriveAgentPanelModel js numberText agents).directAgents = sortFirstSeen js
      (agents.filter (isDirect ((panelWorkflows js agents).map (·.id)))) := by
  rw [← (splitMembers_spec _ agents).2]
  cases agents <;> rfl

/-- The members of a workflow of the list. -/
theorem getD_get_panelMembers {workflow : RuntimeSubagent} (h : workflow ∈ agents)
    (hkind : workflow.kind = .workflow) :
    ((panelMembers js agents).get workflow.id).getD [] = agents.filter (IsMemberOf workflow) := by
  have hid : workflow.id ∈ (panelWorkflows js agents).map (·.id) :=
    List.mem_map_of_mem ((mem_panelWorkflows js).mpr ⟨h, hkind⟩)
  rw [panelMembers, (splitMembers_spec _ agents).1]
  exact List.filter_congr fun agent _ ↦ decide_eq_decide.mpr
    ⟨fun h ↦ ⟨h.1, h.2.1⟩, fun h ↦ ⟨h.1, h.2, hid⟩⟩

theorem isContainer_eq_true {agent : RuntimeSubagent} (h : agent ∈ agents) :
    isContainer (panelMembers js agents) agent = true ↔ Coordinates agents agent := by
  rw [isContainer, Bool.and_eq_true, decide_eq_true_iff, Coordinates]
  refine and_congr_right fun hkind ↦ ?_
  rw [getD_get_panelMembers js h hkind]
  simp

theorem filter_isContainer (agents : List RuntimeSubagent) :
    (agents.filter fun agent ↦ isContainer (panelMembers js agents) agent = false) =
      agents.filter fun agent ↦ ¬Coordinates agents agent := by
  refine List.filter_congr fun agent hagent ↦ ?_
  rw [decide_eq_decide, ← isContainer_eq_true js hagent, Bool.not_eq_true]

/-- An agent is direct if it is no workflow and the member of none. -/
theorem isDirect_panelWorkflows {agent : RuntimeSubagent} :
    isDirect ((panelWorkflows js agents).map (·.id)) agent = true ↔ agent.kind ≠ .workflow ∧
      ∀ workflow ∈ agents, workflow.kind = .workflow → ¬IsMemberOf workflow agent := by
  rw [isDirect, Bool.and_eq_true, decide_eq_true_iff]
  refine and_congr_right fun hkind ↦ ?_
  cases hparent : agent.parentAgentId with
  | none => simp [IsMemberOf, hparent]
  | some parent =>
    simp only [Option.all_some, decide_eq_true_eq, List.mem_map, mem_panelWorkflows, not_exists,
      not_and, IsMemberOf, hparent, Option.some.injEq, and_imp]
    exact ⟨fun h workflow hw hwkind _ heq ↦ h workflow hw hwkind heq.symm,
      fun h workflow hw hwkind heq ↦ h workflow hw hwkind hkind heq.symm⟩

section

variable (hids : (agents.map (·.id)).Nodup)

include hids

theorem nodup_ids_panelWorkflows : ((panelWorkflows js agents).map (·.id)).Nodup :=
  ((stableSort_perm _ _).map _).nodup_iff.mpr (hids.sublist (List.filter_sublist.map _))

/-- The members of all workflows are the agents that are members. -/
theorem flatMap_members_perm :
    ((panelWorkflows js agents).flatMap fun workflow ↦ agents.filter (IsMemberOf workflow)).Perm
      ((agents.filter (·.kind ≠ .workflow)).filter fun agent ↦
        !isDirect ((panelWorkflows js agents).map (·.id)) agent) := by
  set ids := (panelWorkflows js agents).map (·.id) with hidsof
  have hmembers : ((panelWorkflows js agents).flatMap fun workflow ↦
      agents.filter (IsMemberOf workflow)) = (ids.map some).flatMap fun parent ↦
        (agents.filter (·.kind ≠ .workflow)).filter (·.parentAgentId = parent) := by
    rw [List.flatMap_map, hidsof, List.flatMap_map]
    refine List.flatMap_congr fun workflow _ ↦ ?_
    rw [List.filter_filter]
    refine List.filter_congr fun agent _ ↦ ?_
    rw [Bool.and_comm, ← Bool.decide_and]
    rfl
  have hnodup : (ids.map some).Nodup :=
    (nodup_ids_panelWorkflows js hids).map (Option.some_injective String)
  rw [hmembers]
  refine (flatMap_filter_perm _ hnodup _).trans (.of_eq (List.filter_congr fun agent hagent ↦ ?_))
  have hkind : agent.kind ≠ .workflow := by simpa using (List.mem_filter.mp hagent).2
  cases hparent : agent.parentAgentId with
  | none => simp [isDirect, hkind, hparent]
  | some parent =>
    have hparents : some parent ∈ ids.map some ↔ parent ∈ ids :=
      List.mem_map_of_injective (Option.some_injective String)
    simp [isDirect, hkind, hparent, hparents, -List.mem_map]

/-- **The agents are the workflows, the members and the direct agents.** -/
theorem workflows_members_direct_perm :
    (panelWorkflows js agents ++
      ((panelWorkflows js agents).flatMap fun workflow ↦ agents.filter (IsMemberOf workflow)) ++
      agents.filter (isDirect ((panelWorkflows js agents).map (·.id)))).Perm agents := by
  set ids := (panelWorkflows js agents).map (·.id)
  have hdirect : agents.filter (isDirect ids) =
      (agents.filter (·.kind ≠ .workflow)).filter (isDirect ids) := by
    rw [List.filter_filter]
    refine List.filter_congr fun agent _ ↦ ?_
    cases hd : isDirect ids agent with
    | false => rfl
    | true => simp [(isDirect_panelWorkflows js).mp hd]
  have hrest : (((panelWorkflows js agents).flatMap fun workflow ↦
      agents.filter (IsMemberOf workflow)) ++ agents.filter (isDirect ids)).Perm
        (agents.filter (·.kind ≠ .workflow)) := by
    rw [hdirect]
    refine ((flatMap_members_perm js hids).append_right _).trans (List.perm_append_comm.trans ?_)
    simpa using List.filter_append_perm (isDirect ids) (agents.filter (·.kind ≠ .workflow))
  rw [List.append_assoc]
  refine (((stableSort_perm _ _).append_right _).trans (hrest.append_left _)).trans ?_
  simpa using List.filter_append_perm (fun agent ↦ decide (agent.kind = .workflow)) agents

end

/-- No workflow has reported two phases of one index that one of its members has. -/
def NoPhaseTwice (agents : List RuntimeSubagent) : Prop :=
  ∀ workflow ∈ agents, workflow.kind = .workflow → ∀ member ∈ agents, IsMemberOf workflow member →
    ∀ index, member.phaseIndex = some index → (workflow.phases.map (·.index)).count index ≤ 1

/-- **Every agent has one position**, if no phase of a member is reported twice. -/
theorem positions_perm (hids : (agents.map (·.id)).Nodup) (h : NoPhaseTwice agents) :
    (deriveAgentPanelModel js numberText agents).positions.Perm agents := by
  refine .trans ?_ (workflows_members_direct_perm js hids)
  rw [AgentPanelModel.positions, workflows_deriveAgentPanelModel, List.flatMap_map,
    directAgents_deriveAgentPanelModel]
  refine .append ?_ (stableSort_perm _ _)
  refine (List.map_append_flatMap_perm _ id _).symm.trans ?_
  rw [List.map_id]
  refine .append_left _ (List.Perm.flatMap_left _ fun workflow hworkflow ↦ ?_)
  obtain ⟨hmem, hkind⟩ := (mem_panelWorkflows js).mp hworkflow
  have hmembers := getD_get_panelMembers js hmem hkind
  refine (members_panelGroup_perm numberText _ workflow fun member hmember index hindex ↦ ?_).trans
    (.of_eq hmembers)
  rw [hmembers] at hmember
  obtain ⟨hmember, hof⟩ := List.mem_filter.mp hmember
  exact h workflow hmem hkind member hmember (of_decide_eq_true hof) index hindex

/-- **An agent in one position** has no phase that is reported twice. -/
theorem noPhaseTwice_of_positions_perm (hids : (agents.map (·.id)).Nodup)
    (h : (deriveAgentPanelModel js numberText agents).positions.Perm agents) :
    NoPhaseTwice agents := by
  intro workflow hworkflow hkind member hmember hof index hindex
  have hnodup : agents.Nodup := hids.of_map
  have hmembers := getD_get_panelMembers js hworkflow hkind
  have hsub : (panelGroup numberText (panelMembers js agents) workflow).members.Sublist
      (deriveAgentPanelModel js numberText agents).positions := by
    rw [AgentPanelModel.positions, workflows_deriveAgentPanelModel, List.flatMap_map]
    refine .trans ?_ (List.sublist_append_left _ _)
    exact .trans (List.sublist_cons_self workflow _) (List.sublist_flatten_of_mem
      (List.mem_map_of_mem ((mem_panelWorkflows js).mpr ⟨hworkflow, hkind⟩)))
  have honce := List.nodup_iff_count_le_one.mp (h.nodup_iff.mpr hnodup) member
  have hcount := (hsub.count_le member).trans honce
  rw [count_members_panelGroup, hmembers, hindex, Option.map_some, Option.getD_some,
    List.count_filter (by exact decide_eq_true hof), List.count_eq_one_of_mem hnodup hmember,
    Nat.one_mul] at hcount
  by_cases hphases : workflow.phases = []
  · rw [hphases]
    exact Nat.zero_le _
  · rw [knownPhases, if_pos hphases] at hcount
    exact (le_max_right _ _).trans hcount

/-! ## The panel adds up -/

/-- The parts of a group are what they are called. -/
theorem isMemberOf_of_mem_members {group : AgentPanelWorkflowGroup}
    (hgroup : group ∈ (deriveAgentPanelModel js numberText agents).workflows) :
    group.workflow.kind = .workflow ∧
      ∀ member ∈ group.members, IsMemberOf group.workflow member := by
  rw [workflows_deriveAgentPanelModel] at hgroup
  obtain ⟨workflow, hworkflow, rfl⟩ := List.mem_map.mp hgroup
  obtain ⟨hmem, hkind⟩ := (mem_panelWorkflows js).mp hworkflow
  refine ⟨hkind, fun member hmember ↦ ?_⟩
  have hcount := List.count_pos_iff.mpr hmember
  rw [count_members_panelGroup, getD_get_panelMembers js hmem hkind] at hcount
  exact of_decide_eq_true (List.mem_filter.mp
    (List.count_pos_iff.mp (Nat.pos_of_mul_pos_right hcount))).2

theorem phase_of_mem {group : AgentPanelWorkflowGroup} {phase : AgentPanelPhase}
    (hgroup : group ∈ (deriveAgentPanelModel js numberText agents).workflows)
    (hphase : phase ∈ group.phases) : ∃ members known, phase = panelPhase members known := by
  rw [workflows_deriveAgentPanelModel] at hgroup
  obtain ⟨workflow, -, rfl⟩ := List.mem_map.mp hgroup
  obtain ⟨known, -, rfl⟩ := List.mem_map.mp hphase
  exact ⟨_, known, rfl⟩

/-- **A phase is done** if it has members and all of them are settled. -/
theorem state_panelPhase_eq_done (members : List RuntimeSubagent) (known : SubagentWorkflowPhase) :
    (panelPhase members known).state = .done ↔ (panelPhase members known).members ≠ [] ∧
      ∀ member ∈ (panelPhase members known).members, member.isTerminal = true := by
  generalize hphase : panelPhase members known = phase
  have hstate : phase.state =
      if phase.members.length = 0 then .pending
      else if 0 < phase.members.countP fun member ↦
        isActiveSubagentStatus member.status || decide (member.status = .idle) then .running
      else if (phase.members.countP fun member ↦ isTerminalSubagentStatus member.status) =
        phase.members.length then .done
      else .pending := hphase ▸ rfl
  rw [hstate]
  split
  next hnone => simp [List.length_eq_zero_iff.mp hnone]
  next hsome =>
    have hne : phase.members ≠ [] := fun h ↦ hsome (List.length_eq_zero_iff.mpr h)
    split
    next hactive =>
      refine iff_of_false (by decide) fun ⟨_, hall⟩ ↦ ?_
      obtain ⟨member, hmember, hstatus⟩ := List.countP_pos_iff.mp hactive
      have hterminal : isTerminalSubagentStatus member.status = true := hall member hmember
      revert hstatus hterminal
      cases member.status <;> decide
    next =>
      split
      next hsettled => exact iff_of_true rfl ⟨hne, List.countP_eq_length.mp hsettled⟩
      next hsettled =>
        refine iff_of_false (by decide) fun h ↦ hsettled ?_
        exact List.countP_eq_length.mpr h.2

theorem consistentLe_compareFirstSeen :
    ConsistentLe fun a b ↦ (compareFirstSeen js a b).isLE :=
  have := transCmp_comap js.localeCompare RuntimeSubagent.firstSeenAt
  have := transCmp_comap js.localeCompare RuntimeSubagent.id
  have : Std.TransCmp (compareFirstSeen js) := inferInstanceAs (Std.TransCmp (compareLex _ _))
  consistentLe_isLE (compareFirstSeen js)

/-- What is left of a list without repetitions are the items that are left. -/
private theorem filter_mem_of_sublist {kept items : List RuntimeSubagent}
    (hkept : kept.Sublist items) (hitems : items.Nodup) : items.filter (· ∈ kept) = kept := by
  have hself : kept.filter (· ∈ kept) = kept := List.filter_eq_self.mpr fun a ha ↦ by simpa using ha
  have hsub : kept.Sublist (items.filter (· ∈ kept)) := by
    simpa only [hself] using hkept.filter (· ∈ kept)
  have hsubset : items.filter (· ∈ kept) ⊆ kept := fun a ha ↦ by
    simpa using (List.mem_filter.mp ha).2
  exact (hsub.eq_of_length_le (List.subperm_of_subset (hitems.filter _) hsubset).length_le).symm

/-- **Agents that are removed** leave the other direct agents in their order. -/
theorem directAgents_sublist {kept : List RuntimeSubagent} (hkept : kept.Sublist agents)
    (hids : (agents.map (·.id)).Nodup) :
    ((deriveAgentPanelModel js numberText agents).directAgents.filter (· ∈ kept)).Sublist
      (deriveAgentPanelModel js numberText kept).directAgents := by
  rw [directAgents_deriveAgentPanelModel, directAgents_deriveAgentPanelModel, sortFirstSeen,
    sortFirstSeen, ← (consistentLe_compareFirstSeen js).stableSort_filter]
  -- what is direct stays direct when other agents are removed
  set direct := isDirect ((panelWorkflows js agents).map (·.id)) with hdirect
  set direct' := isDirect ((panelWorkflows js kept).map (·.id)) with hdirect'
  have hmore : ∀ agent, direct agent = true → direct' agent = true := by
    intro agent hagent
    rw [hdirect, isDirect_panelWorkflows] at hagent
    rw [hdirect', isDirect_panelWorkflows]
    exact ⟨hagent.1, fun workflow hworkflow ↦ hagent.2 workflow (hkept.subset hworkflow)⟩
  have hkeep : (agents.filter direct).filter (· ∈ kept) = (kept.filter direct').filter direct :=
    calc (agents.filter direct).filter (· ∈ kept) = (agents.filter (· ∈ kept)).filter direct := by
          rw [List.filter_filter, List.filter_filter]
          exact List.filter_congr fun _ _ ↦ Bool.and_comm _ _
      _ = kept.filter direct := by rw [filter_mem_of_sublist hkept hids.of_map]
      _ = (kept.filter direct').filter direct := by
          rw [List.filter_filter]
          refine List.filter_congr fun agent _ ↦ ?_
          cases hd : direct agent with
          | false => rfl
          | true => rw [hmore agent hd, Bool.and_self]
  rw [hkeep, (consistentLe_compareFirstSeen js).stableSort_filter]
  exact List.filter_sublist

/-- **When the panel adds up.** The totals, the phases' states and the order always do; every agent
has exactly one position if and only if no workflow has reported two phases of one index that one of
its members has. -/
theorem panelAddsUp_iff (hids : (agents.map (·.id)).Nodup) :
    PanelAddsUp js numberText agents ↔ NoPhaseTwice agents := by
  refine ⟨fun h ↦ noPhaseTwice_of_positions_perm js numberText hids h.once, fun h ↦ ?_⟩
  obtain ⟨hcounts, htokens⟩ :=
    foldl_countAgent (panelMembers js agents) agents emptyAgentPanelModel
  rw [filter_isContainer] at hcounts htokens
  constructor
  case once => exact positions_perm js numberText hids h
  case group => exact fun group hgroup ↦ isMemberOf_of_mem_members js numberText hgroup
  case phase =>
    intro group hgroup phase hphase member hmember
    obtain ⟨members, known, rfl⟩ := phase_of_mem js numberText hgroup hphase
    exact of_decide_eq_true (List.mem_filter.mp (mem_stableSort.mp hmember)).2
  case direct =>
    intro agent hagent
    rw [directAgents_deriveAgentPanelModel, sortFirstSeen, mem_stableSort] at hagent
    exact (isDirect_panelWorkflows js).mp (List.mem_filter.mp hagent).2
  case counts =>
    refine .trans ?_ (hcounts.trans (Nat.zero_add _))
    cases agents <;> rfl
  case tokens =>
    refine .trans ?_ (htokens.trans (zero_add _))
    cases agents <;> rfl
  case done =>
    intro group hgroup phase hphase
    obtain ⟨members, known, rfl⟩ := phase_of_mem js numberText hgroup hphase
    exact state_panelPhase_eq_done members known
  case order => exact fun kept hkept ↦ directAgents_sublist js numberText hkept hids

/-! ## A phase that is reported twice -/

/-- The start of an agent. -/
def panelRow (taskId : String) (fields : List (String × Json)) :
    Orchestration.OrchestrationThreadActivity where
  id := taskId
  tone := .info
  kind := "task.started"
  summary := ""
  payload := .obj ([("taskId", .str taskId), ("agentKind", .str "agent")] ++ fields)
  turnId := none
  createdAt := "2026-01-01T00:00:00.000Z"

def panelPhaseRow (index : ℚ) (title : String) : Json :=
  .obj [("index", .num index), ("title", .str title)]

/-- A workflow of two phases with a member in the second, and an agent of its own. -/
def phasedAgents : List RuntimeSubagent :=
  foldSubagentActivities plainRuntime [
    panelRow "run" [("taskType", .str "local_workflow"),
      ("phases", .arr [panelPhaseRow 0 "Plan", panelPhaseRow 1 "Build"])],
    panelRow "builder" [("parentAgentId", .str "run"), ("phaseIndex", .num 1)],
    panelRow "reviewer" []] true

theorem panelAddsUp_phasedAgents : PanelAddsUp plainRuntime toString phasedAgents :=
  (panelAddsUp_iff plainRuntime toString (nodup_ids_foldSubagentActivities _ _ _)).mpr (by
    have hphases : ∀ workflow ∈ phasedAgents, ∀ member ∈ phasedAgents,
        (workflow.phases.map (·.index)).count (member.phaseIndex.getD 0) ≤ 1 := by decide +kernel
    intro workflow hworkflow _ member hmember _ index hindex
    have hcount := hphases workflow hworkflow member hmember
    rwa [hindex] at hcount)

/-- The workflow reports both of its phases under one index. -/
def twicePhasedAgents : List RuntimeSubagent :=
  foldSubagentActivities plainRuntime [
    panelRow "run" [("taskType", .str "local_workflow"),
      ("phases", .arr [panelPhaseRow 0 "Plan", panelPhaseRow 0 "Build"])],
    panelRow "builder" [("parentAgentId", .str "run"), ("phaseIndex", .num 0)]] true

/-- **A member may be shown twice**: in both of the phases that have its index. -/
theorem not_panelAddsUp_twicePhasedAgents :
    (twicePhasedAgents.map (·.id)).Nodup ∧
      ¬PanelAddsUp plainRuntime toString twicePhasedAgents := by
  refine ⟨nodup_ids_foldSubagentActivities _ _ _, fun h ↦ ?_⟩
  have hlength := h.once.length_eq
  revert hlength
  decide +kernel

end Awen.Subagents
