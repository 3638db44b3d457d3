import Awen.Shared.PlainRuntime
import Awen.Subagents.FoldRuns

/-!
# The agents of a list of activities

What the fold says of the agents that it returns: `lifecyclesConsistent` says that their lifecycles
are consistent if the rows are orderly. The rows need not be: a row of a later attempt clears the
completion time of an agent that is done, an agent that is done can be told to wait and keeps its
completion time, and a failure that is reported again replaces the error.
-/

namespace Awen.Subagents

open Orchestration (OrchestrationThreadActivity IsoDateTime)

/-! ## The last passes -/

/-- What the last passes make of an agent: one that is done stays as it is, one that is settled
stays settled, and the run it is in ends at most. -/
structure Finished (folded agent : RuntimeSubagent) : Prop where
  id : agent.id = folded.id
  activationCount : agent.activationCount = folded.activationCount
  usage : agent.usage = folded.usage
  result : agent.result = folded.result
  error : agent.error = folded.error
  status : agent.status = folded.status ∨ agent.isTerminal = true
  eq_of_terminal : folded.isTerminal = true → agent = folded
  settled : folded.Settled → agent.Settled

namespace Finished

theorem refl (agent : RuntimeSubagent) : Finished agent agent :=
  ⟨rfl, rfl, rfl, rfl, rfl, .inl rfl, fun _ ↦ rfl, fun h ↦ h⟩

theorem trans {folded agent agent' : RuntimeSubagent} (h : Finished folded agent)
    (h' : Finished agent agent') : Finished folded agent' where
  id := h'.id.trans h.id
  activationCount := h'.activationCount.trans h.activationCount
  usage := h'.usage.trans h.usage
  result := h'.result.trans h.result
  error := h'.error.trans h.error
  status := by
    obtain hstatus | hdone := h.status
    · exact h'.status.imp_left fun hsame ↦ hsame.trans hstatus
    · rw [h'.eq_of_terminal hdone]
      exact .inr hdone
  eq_of_terminal hdone := by
    obtain rfl := h.eq_of_terminal hdone
    exact h'.eq_of_terminal hdone
  settled hsettled := h'.settled (h.settled hsettled)

end Finished

namespace SubagentRoster

theorem finished_settleMember (coordinator member : RuntimeSubagent) :
    Finished member (settleMember coordinator member) := by
  rw [settleMember]
  split
  next => exact .refl member
  next =>
    split
    next => exact .refl member
    next hactive =>
      rw [Bool.not_eq_true, Bool.or_eq_false_iff] at hactive
      have hdone : isTerminalSubagentStatus
          (if coordinator.status = .completed then .completed else .interrupted) = true := by
        split <;> rfl
      refine ⟨rfl, rfl, rfl, rfl, rfl, .inr hdone, fun h ↦ ?_, fun _ ↦ ?_⟩
      · exact nomatch hactive.1.symm.trans h
      · exact (Option.isSome_or ..).trans ((Bool.or_true _).trans hdone.symm)

theorem not_isActive_of_isTerminal {status : RuntimeSubagentStatus}
    (h : isTerminalSubagentStatus status = true) : ¬isActiveSubagentStatus status = true := by
  revert h
  cases status <;> decide

theorem finished_interruptActive (agent : RuntimeSubagent) :
    Finished agent (interruptActive agent) := by
  rw [interruptActive]
  split
  next hactive =>
    refine ⟨rfl, rfl, rfl, rfl, rfl, .inr rfl, fun h ↦ ?_, fun _ ↦ ?_⟩
    · rw [RuntimeSubagent.isTerminal] at h
      exact absurd hactive (not_isActive_of_isTerminal h)
    · exact (Option.isSome_or ..).trans (Bool.or_true _)
  next => exact .refl agent

/-- Every agent is one of those that were folded, finished. -/
def AllFinished (folded agents : List RuntimeSubagent) : Prop :=
  ∀ agent ∈ agents, ∃ known ∈ folded, Finished known agent

variable {folded agents : List RuntimeSubagent}

theorem AllFinished.map {f : RuntimeSubagent → RuntimeSubagent}
    (hf : ∀ agent, Finished agent (f agent)) (h : AllFinished folded agents) :
    AllFinished folded (agents.map f) := by
  intro agent' hagent'
  obtain ⟨agent, hagent, rfl⟩ := List.mem_map.mp hagent'
  obtain ⟨known, hknown, hfinished⟩ := h agent hagent
  exact ⟨known, hknown, hfinished.trans (hf agent)⟩

theorem AllFinished.cascade (h : AllFinished folded agents) (index : ℕ) :
    AllFinished folded (cascade agents index) := by
  rw [SubagentRoster.cascade]
  split
  next => exact h
  next coordinator _ =>
    split
    next => exact h
    next => exact h.map (finished_settleMember coordinator)

theorem AllFinished.limit (js : JsRuntime) (h : AllFinished folded agents) :
    AllFinished folded (if rosterLimit < agents.length then
      (stableSort (rosterLe js) agents).take rosterLimit else agents) := by
  split
  next => exact fun agent hagent ↦ h agent (mem_stableSort.mp (List.mem_of_mem_take hagent))
  next => exact h

/-- **The agents returned are agents of the roster** that the last passes have finished. -/
theorem exists_finished {js : JsRuntime} {activities : List OrchestrationThreadActivity}
    {sessionLive : Bool} {agent : RuntimeSubagent}
    (hagent : agent ∈ foldSubagentActivities js activities sessionLive) :
    ∃ folded, (foldRows activities).get agent.id = some folded ∧ Finished folded agent := by
  have hcascade : AllFinished (foldRows activities).values
      ((List.range (foldRows activities).values.length).foldl SubagentRoster.cascade
        (foldRows activities).values) :=
    foldl_invariant (P := AllFinished (foldRows activities).values)
      (fun _ index h ↦ h.cascade index) (fun agent h ↦ ⟨agent, h, .refl agent⟩) _
  have hpasses : AllFinished (foldRows activities).values (if sessionLive then
      (List.range (foldRows activities).values.length).foldl SubagentRoster.cascade
        (foldRows activities).values
      else ((List.range (foldRows activities).values.length).foldl SubagentRoster.cascade
        (foldRows activities).values).map interruptActive) := by
    split
    next => exact hcascade
    next => exact hcascade.map finished_interruptActive
  obtain ⟨folded, hfolded, hfinished⟩ := hpasses.limit js agent hagent
  obtain ⟨taskId, hentry⟩ := OrderedMap.mem_values.mp hfolded
  have hget := OrderedMap.get_eq_some.mpr hentry
  refine ⟨folded, ?_, hfinished⟩
  rw [hfinished.id, (roster_foldRows activities taskId folded hget).1, hget]

end SubagentRoster

/-! ## Lifecycles -/

open SubagentRoster

/-- What a row keeps of the lifecycle of an agent. -/
structure KeepsLifecycle (activity : OrchestrationThreadActivity) (agent agent' : RuntimeSubagent) :
    Prop where
  /-- A terminal status is left only by a row of the task that names another one. -/
  left : agent.isTerminal = true → agent'.isTerminal = false →
    ∃ kind, IsRow activity kind agent.id ∧ ∃ status,
      explicitStatus kind activity.payload = some status ∧ isTerminalSubagentStatus status = false
  counted : agent'.activationCount =
    agent.activationCount + if agent.Departs agent'.status then 1 else 0
  /-- Another terminal row replaces nothing of a run that is over. -/
  detail : agent.isTerminal = true →
    (∃ kind, IsRow activity kind agent.id ∧ IsTerminalRow kind activity.payload) →
    agent'.completedAt = agent.completedAt ∧
      (∀ result, agent.result = some result → agent'.result = some result) ∧
      (agent.status = .failed → ∀ error, agent.error = some error → agent'.error = some error)

/-- **The lifecycles of the agents of a list of activities are consistent.** -/
structure LifecyclesConsistent (js : JsRuntime) (activities : List OrchestrationThreadActivity)
    (sessionLive : Bool) : Prop where
  settled : ∀ agent ∈ foldSubagentActivities js activities sessionLive, agent.Settled
  activated : ∀ agent ∈ foldSubagentActivities js activities sessionLive,
    1 ≤ agent.activationCount
  usage : ∀ agent ∈ foldSubagentActivities js activities sessionLive, ∀ field : UsageField,
    agent.usage.bind (·.get field) =
      ((taskUsages activities agent.id).filterMap (·.get field)).max?
  /-- A row that gives an agent to its task starts the first activation. -/
  first : ∀ before activity after, activities = before ++ activity :: after →
    ∀ taskId, (foldRows before).get taskId = none →
      ∀ agent, (foldRows (before ++ [activity])).get taskId = some agent →
        agent.activationCount = 1
  /-- Every row keeps the lifecycle of every agent on the roster. -/
  rows : ∀ before activity after, activities = before ++ activity :: after →
    ∀ taskId agent, (foldRows before).get taskId = some agent →
      ∃ agent', (foldRows (before ++ [activity])).get taskId = some agent' ∧
        KeepsLifecycle activity agent agent'
  /-- The agents returned are those that the rows have left on the roster, finished. -/
  finished : ∀ agent ∈ foldSubagentActivities js activities sessionLive,
    ∃ folded, (foldRows activities).get agent.id = some folded ∧ Finished folded agent

theorem KeepsLifecycle.refl (activity : OrchestrationThreadActivity) (agent : RuntimeSubagent) :
    KeepsLifecycle activity agent agent where
  left h h' := nomatch h.symm.trans h'
  counted := by rw [if_neg agent.not_departs_self, Nat.add_zero]
  detail _ _ := ⟨rfl, fun _ h ↦ h, fun _ _ h ↦ h⟩

/-- An orderly row keeps the lifecycle of its agent. -/
theorem keepsLifecycle_applyRow {activity : OrchestrationThreadActivity} {kind : SubagentRowKind}
    {agent : RuntimeSubagent} (hrow : IsRow activity kind agent.id)
    (hcount : 1 ≤ agent.activationCount) (horderly : agent.Orderly kind activity.payload) :
    KeepsLifecycle activity agent
      (agent.applyRow kind activity.payload activity.createdAt true) where
  left h h' := ⟨kind, hrow, RuntimeSubagent.exists_explicitStatus_of_left activity.payload
    activity.createdAt true (fun _ ↦ hcount) h h'⟩
  counted := RuntimeSubagent.activationCount_applyRow activity.payload activity.createdAt true
    (fun _ ↦ hcount) hcount
  detail h := by
    rintro ⟨kind', hrow', hterminal⟩
    obtain ⟨rfl, -⟩ := hrow.unique hrow'
    exact RuntimeSubagent.detail_applyRow activity.payload activity.createdAt true
      (fun _ ↦ hcount) horderly h hterminal

/-- The rows of a list are orderly. -/
def OrderlyActivities (activities : List OrchestrationThreadActivity) : Prop :=
  EveryStep foldRow (OrderlyRow (foldRows activities)) .empty activities

instance (activities : List OrchestrationThreadActivity) :
    Decidable (OrderlyActivities activities) :=
  inferInstanceAs (Decidable (EveryStep _ _ _ _))

/-- **Orderly rows keep the lifecycles of all agents consistent**, with a live session and without
one. -/
theorem lifecyclesConsistent {activities : List OrchestrationThreadActivity}
    (h : OrderlyActivities activities) (js : JsRuntime) (sessionLive : Bool) :
    LifecyclesConsistent js activities sessionLive where
  settled agent hagent := by
    obtain ⟨folded, hfolded, hfinished⟩ := exists_finished hagent
    exact hfinished.settled (settled_foldRows h hfolded)
  activated agent hagent := by
    obtain ⟨folded, hfolded, hfinished⟩ := exists_finished hagent
    rw [hfinished.activationCount]
    exact (roster_foldRows activities agent.id folded hfolded).2
  usage agent hagent field := by
    obtain ⟨folded, hfolded, hfinished⟩ := exists_finished hagent
    have hhas : (foldRows activities).has agent.id = true := by
      rw [OrderedMap.has_eq_isSome_get, hfolded]
      rfl
    have hmerged := mergedUsage_taskUsages h hhas
    rw [hfolded, Option.bind_some] at hmerged
    rw [hfinished.usage, ← hmerged, get_mergedUsage]
  first before activity after hsplit taskId hnone agent hagent := by
    rw [foldRows_concat] at hagent
    obtain ⟨hsame, -⟩ | ⟨kind, hrow, hkind, -, hfirst⟩ | ⟨kind, known, hrow, hknown, -⟩ :=
      get_foldRow_cases (foldRows before) activity taskId
    · exact nomatch (hnone.symm.trans hsame.symm).trans hagent
    · obtain rfl := Option.some.inj (hfirst.symm.trans hagent)
      exact (RuntimeSubagent.applyRow_createAgent activity.payload activity.createdAt false taskId
        hkind).2.1
    · exact nomatch hnone.symm.trans hknown
  rows before activity after hsplit taskId agent hagent := by
    rw [foldRows_concat]
    obtain ⟨hid, hcount⟩ := roster_foldRows before taskId agent hagent
    obtain ⟨hsame, -⟩ | ⟨kind, -, -, hnone, -⟩ | ⟨kind, known, hrow, hknown, hnext⟩ :=
      get_foldRow_cases (foldRows before) activity taskId
    · exact ⟨agent, hsame.trans hagent, .refl activity agent⟩
    · exact nomatch hnone.symm.trans hagent
    · obtain rfl := Option.some.inj (hagent.symm.trans hknown)
      subst hid
      have horderly : OrderlyRow (foldRows activities) (foldRows before) activity := by
        rw [OrderlyActivities, hsplit] at h
        exact hsplit ▸ h.append_cons
      exact ⟨_, hnext, keepsLifecycle_applyRow hrow hcount
        ((horderly kind hrow.kind agent.id hrow.taskId).1 agent hagent)⟩
  finished agent hagent := exists_finished hagent

/-! ## Rows that are orderly, and rows that are not -/

/-- A row of an agent. -/
def agentRow (kind createdAt : String) (fields : List (String × Json)) :
    OrchestrationThreadActivity where
  id := kind ++ createdAt
  tone := .info
  kind
  summary := ""
  payload := .obj ([("taskId", .str "task-1"), ("agentKind", .str "agent")] ++ fields)
  turnId := none
  createdAt

/-- An agent completes a run, and the one it is started again for. -/
def resumedRows : List OrchestrationThreadActivity :=
  [agentRow "task.started" "2026-01-01T00:00:00.000Z" [],
    agentRow "task.completed" "2026-01-01T00:01:00.000Z"
      [("summary", .str "done"), ("typedUsage", .obj [("totalTokens", .num 10)])],
    agentRow "task.updated" "2026-01-01T00:02:00.000Z" [("status", .str "running")],
    agentRow "task.completed" "2026-01-01T00:03:00.000Z"
      [("summary", .str "done again"), ("typedUsage", .obj [("totalTokens", .num 7)])]]

theorem lifecyclesConsistent_resumedRows : LifecyclesConsistent plainRuntime resumedRows true :=
  lifecyclesConsistent (by decide +kernel) plainRuntime true

/-- An agent that has completed is told to wait. -/
def parkedRows : List OrchestrationThreadActivity :=
  [agentRow "task.updated" "2026-01-01T00:00:00.000Z" [("status", .str "completed")],
    agentRow "task.updated" "2026-01-01T00:01:00.000Z" [("status", .str "waiting")]]

/-- A slot that has failed reports on its next attempt. -/
def retriedRows : List OrchestrationThreadActivity :=
  [agentRow "task.updated" "2026-01-01T00:00:00.000Z"
      [("status", .str "failed"), ("attempt", .num 1)],
    agentRow "task.progress" "2026-01-01T00:01:00.000Z" [("attempt", .num 2)]]

/-- A failure is reported twice, with two errors. -/
def failedTwiceRows : List OrchestrationThreadActivity :=
  [agentRow "task.completed" "2026-01-01T00:00:00.000Z"
      [("status", .str "failed"), ("summary", .str "out of memory")],
    agentRow "task.updated" "2026-01-01T00:01:00.000Z"
      [("status", .str "failed"), ("error", .str "session closed")]]

/-- **The fold lets lifecycles go inconsistent**: an agent waits with a completion time, has failed
without one, and loses the error of its completion to a second report of the failure. -/
theorem not_lifecyclesConsistent_rows : ¬LifecyclesConsistent plainRuntime parkedRows true ∧
    ¬LifecyclesConsistent plainRuntime retriedRows true ∧
    ¬LifecyclesConsistent plainRuntime failedTwiceRows true := by
  refine ⟨fun h ↦ ?_, fun h ↦ ?_, fun h ↦ ?_⟩
  · have hunsettled : ∃ agent ∈ foldSubagentActivities plainRuntime parkedRows true,
        ¬agent.Settled := by decide +kernel
    obtain ⟨agent, hagent, hnot⟩ := hunsettled
    exact hnot (h.settled agent hagent)
  · have hunsettled : ∃ agent ∈ foldSubagentActivities plainRuntime retriedRows true,
        ¬agent.Settled := by decide +kernel
    obtain ⟨agent, hagent, hnot⟩ := hunsettled
    exact hnot (h.settled agent hagent)
  · have hfirst : ∃ agent ∈ (foldRows (failedTwiceRows.take 1)).get "task-1",
        agent.id = "task-1" ∧ agent.status = .failed ∧
          agent.error = some (unitsOf "out of memory") := by decide +kernel
    have hsecond : ((foldRows failedTwiceRows).get "task-1").bind (·.error) =
        some (unitsOf "session closed") := by decide +kernel
    obtain ⟨agent, hagent, hid, hfailed, herror⟩ := hfirst
    obtain ⟨agent', hagent', hkept⟩ := h.rows (failedTwiceRows.take 1)
      (failedTwiceRows[1]) [] rfl "task-1" agent hagent
    have hrow : IsRow failedTwiceRows[1] .taskUpdated agent.id := hid ▸ ⟨rfl, by decide +kernel⟩
    have hterminal : IsTerminalRow .taskUpdated (failedTwiceRows[1]).payload :=
      .inr (by decide +kernel)
    have hsame := (hkept.detail (by rw [RuntimeSubagent.isTerminal, hfailed]; rfl)
      ⟨_, hrow, hterminal⟩).2.2 hfailed _ herror
    rw [show failedTwiceRows.take 1 ++ [failedTwiceRows[1]] = failedTwiceRows from rfl] at hagent'
    rw [hagent', Option.bind_some, hsame] at hsecond
    revert hsecond
    decide

end Awen.Subagents
