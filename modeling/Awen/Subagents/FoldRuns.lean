import Awen.Subagents.Lifecycle

/-!
# The agents on the roster

The runs of the fold. A row gives an agent to its task, changes the agent its task has, or changes
nothing (`get_foldRow_cases`); the runs follow by induction. An agent has the id of its task and has
been active after all rows. That it is settled, and that its usage is what all rows of its task
carry, takes rows that are `OrderlyRow`.
-/

namespace Awen.Subagents

open Orchestration (OrchestrationThreadActivity IsoDateTime)

/-! ## Usage -/

/-- The fields of a usage. -/
inductive UsageField where
  | totalTokens
  | inputTokens
  | cachedInputTokens
  | outputTokens
  | reasoningOutputTokens
  | toolUses
  | durationMs

def SubagentUsage.get (usage : SubagentUsage) : UsageField → Option ℚ
  | .totalTokens => some usage.totalTokens
  | .inputTokens => usage.inputTokens
  | .cachedInputTokens => usage.cachedInputTokens
  | .outputTokens => usage.outputTokens
  | .reasoningOutputTokens => usage.reasoningOutputTokens
  | .toolUses => usage.toolUses
  | .durationMs => usage.durationMs

/-- Usages merged one after the other. -/
def mergedUsage (usages : List SubagentUsage) : Option SubagentUsage :=
  usages.foldl (fun merged usage ↦ mergeUsageMax merged (some usage)) none

theorem get_mergeUsageMax (field : UsageField) (current incoming : Option SubagentUsage) :
    (mergeUsageMax current incoming).bind (·.get field) =
      pickCount (current.bind (·.get field)) (incoming.bind (·.get field)) := by
  cases incoming with
  | none => cases h : current.bind (·.get field) <;> simp [mergeUsageMax, pickCount, h]
  | some incoming =>
    cases current with
    | none => rfl
    | some current => cases field <;> rfl

theorem mergedUsage_concat (usages : List SubagentUsage) (usage : Option SubagentUsage) :
    mergedUsage (usages ++ usage.toList) = mergeUsageMax (mergedUsage usages) usage := by
  cases usage with
  | none =>
    rw [Option.toList_none, List.append_nil]
    cases mergedUsage usages <;> rfl
  | some usage =>
    rw [Option.toList_some, mergedUsage, List.foldl_append]
    rfl

theorem pickCount_max? (count : Option ℚ) (counts : List ℚ) :
    pickCount counts.max? count = (counts ++ count.toList).max? := by
  cases count with
  | none => cases h : counts.max? <;> simp [pickCount, h]
  | some count =>
    cases counts with
    | nil => rfl
    | cons first counts =>
      rw [List.max?_cons', Option.toList_some, List.cons_append, List.max?_cons', pickCount,
        List.foldl_append]
      rfl

/-- **A merged field is the largest of the counts that were given for it.** -/
theorem get_mergedUsage (field : UsageField) (usages : List SubagentUsage) :
    (mergedUsage usages).bind (·.get field) = (usages.filterMap (·.get field)).max? := by
  induction usages using List.reverseRecOn with
  | nil => rfl
  | append_singleton usages usage ih =>
    have hconcat := mergedUsage_concat usages (some usage)
    rw [Option.toList_some] at hconcat
    rw [hconcat, get_mergeUsageMax, ih, pickCount_max?, List.filterMap_append, Option.bind_some]
    cases h : usage.get field <;> simp [h]

/-! ## Rows on the roster -/

namespace SubagentRoster

/-- A row of a task. -/
structure IsRow (activity : OrchestrationThreadActivity) (kind : SubagentRowKind)
    (taskId : String) : Prop where
  kind : subagentRowKind? activity.kind = some kind
  taskId : asString (activity.payload.field "taskId") = some taskId

theorem IsRow.unique {activity : OrchestrationThreadActivity} {kind kind' : SubagentRowKind}
    {taskId taskId' : String} (h : IsRow activity kind taskId) (h' : IsRow activity kind' taskId') :
    kind = kind' ∧ taskId = taskId' :=
  ⟨Option.some.inj (h.kind.symm.trans h'.kind), Option.some.inj (h.taskId.symm.trans h'.taskId)⟩

variable {agents : SubagentRoster} {activity : OrchestrationThreadActivity}

/-- **What a row does to the roster**: it is taken for its task, or changes nothing. -/
theorem foldRow_cases (agents : SubagentRoster) (activity : OrchestrationThreadActivity) :
    (∃ kind taskId, IsRow activity kind taskId ∧
      agents.takes kind taskId activity.payload = true ∧
      agents.foldRow activity = agents.set taskId
        (((agents.get taskId).getD
          (createAgent taskId activity.payload activity.createdAt)).applyRow
            kind activity.payload activity.createdAt (agents.has taskId))) ∨
    (agents.foldRow activity = agents ∧ ∀ kind taskId, IsRow activity kind taskId →
      agents.takes kind taskId activity.payload = false) := by
  rw [foldRow]
  cases hkind : subagentRowKind? activity.kind with
  | none => exact .inr ⟨rfl, fun kind taskId h ↦ nomatch hkind.symm.trans h.kind⟩
  | some kind =>
    cases htask : asString (activity.payload.field "taskId") with
    | none => exact .inr ⟨rfl, fun kind taskId h ↦ nomatch htask.symm.trans h.taskId⟩
    | some taskId =>
      simp only
      split
      next htakes => exact .inl ⟨kind, taskId, ⟨hkind, htask⟩, htakes, rfl⟩
      next htakes =>
        refine .inr ⟨rfl, fun kind' taskId' h ↦ ?_⟩
        obtain ⟨rfl, rfl⟩ := IsRow.unique ⟨hkind, htask⟩ h
        exact Bool.not_eq_true _ ▸ htakes

/-- A task that is taken for the first time does not begin with a heartbeat. -/
theorem ne_toolProgress_of_takes {kind : SubagentRowKind} {taskId : String} {payload : Json}
    (htakes : agents.takes kind taskId payload = true) (hnone : agents.get taskId = none) :
    kind ≠ .toolProgress := by
  rintro rfl
  rw [takes, OrderedMap.has_eq_isSome_get, hnone] at htakes
  exact nomatch htakes

/-- **What a row makes of the agent of a task.** -/
theorem get_foldRow_cases (agents : SubagentRoster) (activity : OrchestrationThreadActivity)
    (taskId : String) :
    ((agents.foldRow activity).get taskId = agents.get taskId ∧
      ∀ kind, IsRow activity kind taskId → agents.takes kind taskId activity.payload = false) ∨
    (∃ kind, IsRow activity kind taskId ∧ kind ≠ .toolProgress ∧ agents.get taskId = none ∧
      (agents.foldRow activity).get taskId = some ((createAgent taskId activity.payload
        activity.createdAt).applyRow kind activity.payload activity.createdAt false)) ∨
    (∃ kind agent, IsRow activity kind taskId ∧ agents.get taskId = some agent ∧
      (agents.foldRow activity).get taskId =
        some (agent.applyRow kind activity.payload activity.createdAt true)) := by
  obtain ⟨kind, taken, hrow, htakes, hfold⟩ | ⟨hfold, hnot⟩ := foldRow_cases agents activity
  · rw [hfold]
    by_cases htask : taskId = taken
    · subst htask
      rw [OrderedMap.get_set_self, OrderedMap.has_eq_isSome_get]
      cases hget : agents.get taskId with
      | none => exact .inr (.inl ⟨kind, hrow, ne_toolProgress_of_takes htakes hget, rfl, rfl⟩)
      | some agent => exact .inr (.inr ⟨kind, agent, hrow, rfl, rfl⟩)
    · rw [OrderedMap.get_set_of_ne htask]
      exact .inl ⟨rfl, fun kind' hrow' ↦ absurd (hrow'.unique hrow).2 htask⟩
  · rw [hfold]
    exact .inl ⟨rfl, fun kind hrow ↦ hnot kind taskId hrow⟩

/-! ## Runs -/

/-- **What every list of rows keeps**: the agent of a task has its id, and has been active. -/
theorem roster_foldRows (activities : List OrchestrationThreadActivity) :
    ∀ taskId agent, (foldRows activities).get taskId = some agent →
      agent.id = taskId ∧ 1 ≤ agent.activationCount := by
  refine foldl_invariant (P := fun agents : SubagentRoster ↦ ∀ taskId agent,
    agents.get taskId = some agent → agent.id = taskId ∧ 1 ≤ agent.activationCount)
    (fun agents activity ih taskId agent hagent ↦ ?_) ?_ activities
  case refine_2 =>
    intro taskId agent hagent
    exact nomatch hagent
  obtain ⟨hsame, -⟩ | ⟨kind, hrow, hkind, -, hfirst⟩ | ⟨kind, known, hrow, hknown, hnext⟩ :=
    get_foldRow_cases agents activity taskId
  · exact ih taskId agent (hsame.symm.trans hagent)
  · obtain rfl := Option.some.inj (hfirst.symm.trans hagent)
    obtain ⟨-, hcount, -, hid⟩ := RuntimeSubagent.applyRow_createAgent activity.payload
      activity.createdAt false taskId hkind
    exact ⟨hid, hcount.ge⟩
  · obtain rfl := Option.some.inj (hnext.symm.trans hagent)
    obtain ⟨hid, hcount⟩ := ih taskId known hknown
    refine ⟨(RuntimeSubagent.id_applyRow activity.payload activity.createdAt true
      fun _ ↦ hcount).trans hid, ?_⟩
    rw [RuntimeSubagent.activationCount_applyRow activity.payload activity.createdAt true
      (fun _ ↦ hcount) hcount]
    exact Nat.le_add_right_of_le hcount

/-- The usage that a row of a task carries. -/
def usageOf? (taskId : String) (activity : OrchestrationThreadActivity) : Option SubagentUsage := do
  let kind ← subagentRowKind? activity.kind
  if asString (activity.payload.field "taskId") = some taskId then rowUsage kind activity.payload
  else none

/-- The usages that the rows of a task carry. -/
def taskUsages (activities : List OrchestrationThreadActivity) (taskId : String) :
    List SubagentUsage :=
  activities.filterMap (usageOf? taskId)

/-- **A row that keeps the lifecycles consistent**: it is an orderly row of its agent, and if it
carries a usage and its task is on the roster in the end, then it is taken. -/
def OrderlyRow (roster agents : SubagentRoster) (activity : OrchestrationThreadActivity) : Prop :=
  ∀ kind ∈ subagentRowKind? activity.kind,
    ∀ taskId ∈ asString (activity.payload.field "taskId"),
      (∀ agent ∈ agents.get taskId, agent.Orderly kind activity.payload) ∧
      (roster.has taskId = true → (rowUsage kind activity.payload).isSome = true →
        agents.takes kind taskId activity.payload = true)

instance (roster agents : SubagentRoster) (activity : OrchestrationThreadActivity) :
    Decidable (OrderlyRow roster agents activity) :=
  inferInstanceAs (Decidable (∀ kind ∈ subagentRowKind? activity.kind,
    ∀ taskId ∈ asString (activity.payload.field "taskId"), _ ∧ _))

theorem usageOf?_of_isRow {kind : SubagentRowKind} {taskId : String}
    (hrow : IsRow activity kind taskId) :
    usageOf? taskId activity = rowUsage kind activity.payload := by
  rw [usageOf?, hrow.kind, Option.bind_eq_bind, Option.bind_some, if_pos hrow.taskId]

theorem isRow_of_usageOf? {taskId : String} {usage : SubagentUsage}
    (h : usageOf? taskId activity = some usage) : ∃ kind, IsRow activity kind taskId := by
  rw [usageOf?] at h
  obtain ⟨kind, hkind, htask⟩ := Option.bind_eq_some_iff.mp h
  split at htask
  next hid => exact ⟨kind, hkind, hid⟩
  next => exact nomatch htask

theorem taskUsages_concat (activities : List OrchestrationThreadActivity)
    (activity : OrchestrationThreadActivity) (taskId : String) :
    taskUsages (activities ++ [activity]) taskId =
      taskUsages activities taskId ++ (usageOf? taskId activity).toList := by
  rw [taskUsages, List.filterMap_append, taskUsages]
  cases h : usageOf? taskId activity <;> simp [h]

theorem foldRows_concat (activities : List OrchestrationThreadActivity)
    (activity : OrchestrationThreadActivity) :
    foldRows (activities ++ [activity]) = (foldRows activities).foldRow activity := by
  rw [foldRows, List.foldl_append]
  rfl

variable {roster : SubagentRoster} {activities : List OrchestrationThreadActivity}

/-- **The usage of an agent** is what the rows of its task carry, merged. -/
theorem mergedUsage_taskUsages
    (h : EveryStep foldRow (OrderlyRow roster) .empty activities) {taskId : String}
    (htask : roster.has taskId = true) :
    mergedUsage (taskUsages activities taskId) =
      ((foldRows activities).get taskId).bind (·.usage) := by
  induction activities using List.reverseRecOn with
  | nil => rfl
  | append_singleton before activity ih =>
    have horderly : OrderlyRow roster (foldRows before) activity := h.append_cons
    rw [taskUsages_concat, mergedUsage_concat, ih h.append_left, foldRows_concat]
    obtain ⟨hsame, hnot⟩ | ⟨kind, hrow, hkind, hnone, hfirst⟩ |
      ⟨kind, agent, hrow, hagent, hnext⟩ :=
      get_foldRow_cases (foldRows before) activity taskId
    · have hnone : usageOf? taskId activity = none := by
        by_contra hsome
        obtain ⟨usage, husage⟩ := Option.ne_none_iff_exists'.mp hsome
        obtain ⟨kind, hrow⟩ := isRow_of_usageOf? husage
        rw [usageOf?_of_isRow hrow] at husage
        have htaken := (horderly kind hrow.kind taskId hrow.taskId).2 htask
          (Option.isSome_iff_exists.mpr ⟨usage, husage⟩)
        exact nomatch (hnot kind hrow).symm.trans htaken
      rw [hsame, hnone, RuntimeSubagent.mergeUsageMax_none]
    · rw [hfirst, hnone, usageOf?_of_isRow hrow, Option.bind_none, Option.bind_some,
        (RuntimeSubagent.applyRow_createAgent activity.payload activity.createdAt false taskId
          hkind).2.2.1]
      cases rowUsage kind activity.payload <;> rfl
    · rw [hnext, hagent, usageOf?_of_isRow hrow, Option.bind_some, Option.bind_some,
        RuntimeSubagent.usage_applyRow activity.payload activity.createdAt true
          fun _ ↦ (roster_foldRows before taskId agent hagent).2]

/-- **Orderly rows keep the agents settled.** -/
theorem settled_foldRows (h : EveryStep foldRow (OrderlyRow roster) .empty activities)
    {taskId : String} {agent : RuntimeSubagent}
    (hagent : (foldRows activities).get taskId = some agent) : agent.Settled := by
  induction activities using List.reverseRecOn generalizing agent with
  | nil => exact nomatch hagent
  | append_singleton before activity ih =>
    have horderly : OrderlyRow roster (foldRows before) activity := h.append_cons
    rw [foldRows_concat] at hagent
    obtain ⟨hsame, -⟩ | ⟨kind, hrow, hkind, -, hfirst⟩ | ⟨kind, known, hrow, hknown, hnext⟩ :=
      get_foldRow_cases (foldRows before) activity taskId
    · exact ih h.append_left (hsame.symm.trans hagent)
    · obtain rfl := Option.some.inj (hfirst.symm.trans hagent)
      exact (RuntimeSubagent.applyRow_createAgent activity.payload activity.createdAt false taskId
        hkind).1
    · obtain rfl := Option.some.inj (hnext.symm.trans hagent)
      exact RuntimeSubagent.settled_applyRow activity.payload activity.createdAt true
        (fun _ ↦ (roster_foldRows before taskId known hknown).2) (ih h.append_left hknown)
        ((horderly kind hrow.kind taskId hrow.taskId).1 known hknown)

end SubagentRoster

end Awen.Subagents
