import Awen.Library.OrderedMap
import Awen.Library.StableSort
import Awen.Library.Unicode
import Awen.Orchestration.OpenRequests

/-!
# The subagents of a thread

`foldSubagentActivities` reads the activities of a thread as the agents that work for it: five kinds
of rows start an agent, report on it, change its status, complete it and name the tool it uses. Rows
may be missing, late or repeated. A row is taken if its task is on the roster already, or if it is
marked as the row of an agent.

`applyStatus` is the transition of an agent's status; `fillMetadata` takes what any row says of the
agent. When the rows are read, the members of a workflow that is over are settled with it, and
without a live session everything that is active is interrupted.
-/

namespace Awen.Subagents

open Orchestration (OrchestrationThreadActivity IsoDateTime trimmedNonEmpty?)

/-! ## Agents -/

inductive RuntimeSubagentStatus where
  | pending
  | running
  | waiting
  | idle
  | completed
  | failed
  | cancelled
  | interrupted
  deriving DecidableEq

def isTerminalSubagentStatus : RuntimeSubagentStatus → Bool
  | .completed | .failed | .cancelled | .interrupted => true
  | .pending | .running | .waiting | .idle => false

/-- Active = the user may still need to care while it runs. -/
def isActiveSubagentStatus : RuntimeSubagentStatus → Bool
  | .pending | .running | .waiting => true
  | _ => false

structure SubagentUsage where
  totalTokens : ℚ
  inputTokens : Option ℚ := none
  cachedInputTokens : Option ℚ := none
  outputTokens : Option ℚ := none
  reasoningOutputTokens : Option ℚ := none
  toolUses : Option ℚ := none
  durationMs : Option ℚ := none
  deriving DecidableEq

structure SubagentActivityEntry where
  time : IsoDateTime
  summary : CodeUnits
  deriving DecidableEq

structure SubagentWorkflowPhase where
  index : ℚ
  title : String
  deriving DecidableEq

structure SubagentRunHandles where
  runId : Option String
  scriptPath : Option String
  transcriptDir : Option String
  sessionUrl : Option String
  deriving DecidableEq

inductive SubagentKind where
  | subagent
  | subagentBatch
  | workflow
  | workflowAgent
  deriving DecidableEq

/-- An agent. What is bounded in its length is a list of code units. -/
structure RuntimeSubagent where
  id : String
  kind : SubagentKind
  title : String
  role : Option String
  model : Option String
  effort : Option String
  status : RuntimeSubagentStatus
  activationCount : ℕ
  usage : Option SubagentUsage
  progress : Option CodeUnits
  lastToolName : Option String
  result : Option CodeUnits
  error : Option CodeUnits
  outputFile : Option String
  parentAgentId : Option String
  agentIndex : Option ℚ
  phaseIndex : Option ℚ
  phaseTitle : Option String
  attempt : Option ℚ
  workflowName : Option String
  phases : List SubagentWorkflowPhase
  runHandles : Option SubagentRunHandles
  recentActivity : List SubagentActivityEntry
  firstSeenAt : IsoDateTime
  startedAt : Option IsoDateTime
  completedAt : Option IsoDateTime
  updatedAt : IsoDateTime
  deriving DecidableEq

def recentActivityLimit : ℕ := 6

def summaryCharLimit : ℕ := 180

def rosterLimit : ℕ := 100

/-! ## Reading payloads -/

/-- A row without the stamp is background by definition. -/
def isBackgroundTaskActivity (payload : Json) : Bool :=
  decide ((payload.field "agentKind").bind Json.string? ≠ some "agent")

def bounded (value : String) : CodeUnits :=
  let units := unitsOf value
  if units.length ≤ summaryCharLimit then units
  else units.take (summaryCharLimit - 1) ++ unitsOf "…"

/-- Append to the recent activity, without an entry that says what the last one says. -/
def appendActivity (entries : List SubagentActivityEntry) (time : IsoDateTime) (summary : String) :
    List SubagentActivityEntry :=
  let boundedSummary := bounded summary
  if (entries.getLast?.map (·.summary)) = some boundedSummary then entries
  else
    let next := entries ++ [⟨time, boundedSummary⟩]
    next.drop (next.length - recentActivityLimit)

def asString (value : Option Json) : Option String := trimmedNonEmpty? value

def asCount (value : Option Json) : Option ℚ := (value.bind Json.number?).filter (0 ≤ ·)

def asUsage (value : Option Json) : Option SubagentUsage := do
  let record ← value
  let totalTokens ← asCount (record.field "totalTokens")
  return {
    totalTokens
    inputTokens := asCount (record.field "inputTokens")
    cachedInputTokens := asCount (record.field "cachedInputTokens")
    outputTokens := asCount (record.field "outputTokens")
    reasoningOutputTokens := asCount (record.field "reasoningOutputTokens")
    toolUses := asCount (record.field "toolUses")
    durationMs := asCount (record.field "durationMs") }

/-- The larger of two counts, where a missing one is none. -/
def pickCount : Option ℚ → Option ℚ → Option ℚ
  | none, b => b
  | some a, none => some a
  | some a, some b => some (max a b)

/-- Field-wise maximum: a frame that is late or repeated changes nothing. -/
def mergeUsageMax : Option SubagentUsage → Option SubagentUsage → Option SubagentUsage
  | current, none => current
  | none, some incoming => some incoming
  | some current, some incoming =>
    some {
      totalTokens := max current.totalTokens incoming.totalTokens
      inputTokens := pickCount current.inputTokens incoming.inputTokens
      cachedInputTokens := pickCount current.cachedInputTokens incoming.cachedInputTokens
      outputTokens := pickCount current.outputTokens incoming.outputTokens
      reasoningOutputTokens :=
        pickCount current.reasoningOutputTokens incoming.reasoningOutputTokens
      toolUses := pickCount current.toolUses incoming.toolUses
      durationMs := pickCount current.durationMs incoming.durationMs }

def asRuntimeStatus (value : Option Json) : Option RuntimeSubagentStatus :=
  match value.bind Json.string? with
  | some "pending" => some .pending
  | some "running" => some .running
  | some "waiting" => some .waiting
  | some "idle" => some .idle
  | some "completed" => some .completed
  | some "failed" => some .failed
  | some "cancelled" => some .cancelled
  | some "interrupted" => some .interrupted
  | _ => none

def taskCompletedStatus (value : Option String) : RuntimeSubagentStatus :=
  match value with
  | some "failed" => .failed
  | some "stopped" => .interrupted
  | _ => .completed

/-! ## Metadata -/

def kindFromPayload (payload : Json) (agentId : String) : SubagentKind :=
  if (payload.field "taskType").bind Json.string? = some "subagent_batch" then .subagentBatch
  else if asString (payload.field "taskType") = some "local_workflow" then .workflow
  else if (payload.field "parentAgentId").isSome || decide (":wf:".toList <:+: agentId.toList) then
    .workflowAgent
  else .subagent

/-- Completion can create an agent (its start may have aged out of retention). -/
def createAgent (id : String) (payload : Json) (time : IsoDateTime) : RuntimeSubagent where
  id
  kind := kindFromPayload payload id
  title := ((asString (payload.field "title")).or (asString (payload.field "detail"))).getD id
  role := asString (payload.field "role")
  model := asString (payload.field "model")
  effort := asString (payload.field "effort")
  status := .pending
  activationCount := 0
  usage := none
  progress := none
  lastToolName := none
  result := none
  error := none
  outputFile := none
  parentAgentId := asString (payload.field "parentAgentId")
  agentIndex := asCount (payload.field "agentIndex")
  phaseIndex := asCount (payload.field "phaseIndex")
  phaseTitle := asString (payload.field "phaseTitle")
  attempt := asCount (payload.field "attempt")
  workflowName := asString (payload.field "workflowName")
  phases := []
  runHandles := none
  recentActivity := []
  firstSeenAt := time
  startedAt := none
  completedAt := none
  updatedAt := time

/-- The kind of an agent as a row adds to it. -/
def filledKind (kind : SubagentKind) (payload : Json) : SubagentKind :=
  let kind :=
    if (payload.field "taskType").bind Json.string? = some "subagent_batch" then .subagentBatch
    else kind
  let kind :=
    if (asString (payload.field "parentAgentId")).isSome ∧ kind = .subagent then .workflowAgent
    else kind
  if asString (payload.field "taskType") = some "local_workflow" then .workflow else kind

def payloadPhases (payload : Json) : List SubagentWorkflowPhase :=
  stableSort (fun a b ↦ decide (a.index ≤ b.index))
    ((((payload.field "phases").bind Json.array?).getD []).filterMap fun entry ↦ do
      let index ← asCount (entry.field "index")
      let title ← asString (entry.field "title")
      return { index, title })

/-- `/^https?:\/\//i` -/
def isWebUrl (url : String) : Bool :=
  let start := url.toList.map Char.toLower
  decide ("http://".toList <+: start) || decide ("https://".toList <+: start)

/-- The handles of a row over those that are known. -/
def filledRunHandles (handles : Option SubagentRunHandles) (payload : Json) :
    Option SubagentRunHandles :=
  let handle (name : String) := asString ((payload.field "runHandles").bind (Json.field name))
  let runId := handle "runId"
  let scriptPath := handle "scriptPath"
  let transcriptDir := handle "transcriptDir"
  let sessionUrl := (handle "sessionUrl").filter isWebUrl
  if runId.isSome || scriptPath.isSome || transcriptDir.isSome || sessionUrl.isSome then
    some {
      runId := runId.or (handles.bind (·.runId))
      scriptPath := scriptPath.or (handles.bind (·.scriptPath))
      transcriptDir := transcriptDir.or (handles.bind (·.transcriptDir))
      sessionUrl := sessionUrl.or (handles.bind (·.sessionUrl)) }
  else handles

namespace RuntimeSubagent

variable (agent : RuntimeSubagent) (payload : Json) (time : IsoDateTime)

/-- What a row says of an agent, but for the attempt. -/
def fillDescription : RuntimeSubagent :=
  { agent with
    kind := filledKind agent.kind payload
    title := (asString (payload.field "title")).getD agent.title
    role := (asString (payload.field "role")).or agent.role
    model := (asString (payload.field "model")).or agent.model
    effort := (asString (payload.field "effort")).or agent.effort
    parentAgentId := (asString (payload.field "parentAgentId")).or agent.parentAgentId
    workflowName := (asString (payload.field "workflowName")).or agent.workflowName
    agentIndex := (asCount (payload.field "agentIndex")).or agent.agentIndex
    phaseIndex := (asCount (payload.field "phaseIndex")).or agent.phaseIndex
    phaseTitle := (asString (payload.field "phaseTitle")).or agent.phaseTitle
    outputFile := (asString (payload.field "outputFile")).or agent.outputFile
    phases := if payloadPhases payload = [] then agent.phases else payloadPhases payload
    runHandles := filledRunHandles agent.runHandles payload }

/-- The row is of a later attempt than the agent's. -/
def RaisesAttempt : Prop :=
  ∃ known attempt, agent.attempt = some known ∧ asCount (payload.field "attempt") = some attempt ∧
    known < attempt

instance : Decidable (agent.RaisesAttempt payload) :=
  match hknown : agent.attempt, hattempt : asCount (payload.field "attempt") with
  | none, _ => .isFalse fun ⟨_, _, h, _⟩ ↦ nomatch hknown.symm.trans h
  | some _, none => .isFalse fun ⟨_, _, _, h, _⟩ ↦ nomatch hattempt.symm.trans h
  | some known, some attempt =>
    if hlt : known < attempt then .isTrue ⟨known, attempt, hknown, hattempt, hlt⟩
    else .isFalse fun ⟨_, _, hk, ha, h⟩ ↦ by
      obtain rfl := Option.some.inj (hknown.symm.trans hk)
      obtain rfl := Option.some.inj (hattempt.symm.trans ha)
      exact hlt h

/-- A new attempt on a workflow slot clears the terminal detail of the attempt before. -/
def fillAttempt : RuntimeSubagent :=
  let attempt := (asCount (payload.field "attempt")).or agent.attempt
  if agent.RaisesAttempt payload then
    { agent with attempt, result := none, error := none, completedAt := none }
  else { agent with attempt }

/-- Metadata fill from any payload: never downgrades known values to null. -/
def fillMetadata : RuntimeSubagent := (agent.fillDescription payload).fillAttempt payload

/-! ## The status -/

abbrev isTerminal : Bool := isTerminalSubagentStatus agent.status

/-- The status reactivates the agent: same identity, new run. -/
def Reactivates (status : RuntimeSubagentStatus) : Prop :=
  (agent.isTerminal = true ∨ agent.status = .idle) ∧ (status = .running ∨ status = .pending)

instance (status : RuntimeSubagentStatus) : Decidable (agent.Reactivates status) :=
  inferInstanceAs (Decidable (_ ∧ _))

/-- Clear the previous run's terminal detail. -/
def reactivate (status : RuntimeSubagentStatus) : RuntimeSubagent :=
  { agent with
    activationCount := agent.activationCount + 1
    result := none
    error := none
    completedAt := none
    startedAt := if status = .running then some time else agent.startedAt }

def applyStatus (status : RuntimeSubagentStatus) : RuntimeSubagent :=
  if agent.isTerminal && isTerminalSubagentStatus status then agent
  else
    let agent := if agent.Reactivates status then agent.reactivate time status else agent
    { agent with
      startedAt := if status = .running then agent.startedAt.or (some time) else agent.startedAt
      completedAt :=
        if isTerminalSubagentStatus status then agent.completedAt.or (some time)
        else agent.completedAt
      status }

/-- An agent that is seen has run at least once. -/
def counted : RuntimeSubagent :=
  { agent with activationCount := if agent.activationCount = 0 then 1 else agent.activationCount }

/-! ## Rows -/

def taskStarted : RuntimeSubagent :=
  let agent := agent.fillMetadata payload
  -- a start that comes late only fills metadata
  let agent :=
    if agent.activationCount = 0 ∧ agent.isTerminal = false then
      { agent with
        activationCount := 1
        startedAt := agent.startedAt.or (some time)
        status := .running }
    else if agent.status = .idle then agent.applyStatus time .running
    else agent
  { agent with
    title :=
      if agent.title = agent.id then (asString (payload.field "detail")).getD agent.title
      else agent.title
    updatedAt := time }

def taskProgress (existed : Bool) : RuntimeSubagent :=
  let agent := (agent.fillMetadata payload).counted
  let usageSnapshot := payload.field "usageSnapshot" matches some (.bool true)
  let agent :=
    match asRuntimeStatus (payload.field "status") with
    | some status => agent.applyStatus time status
    | none =>
      if (usageSnapshot = false ∨ existed = false) ∧ agent.isTerminal = false ∧
          agent.status ≠ RuntimeSubagentStatus.idle then agent.applyStatus time .running
      else agent
  let summary := asString (payload.field "summary")
  let lastToolName := asString (payload.field "lastToolName")
  { agent with
    progress := (summary.map bounded).or agent.progress
    recentActivity :=
      match summary, lastToolName with
      | some summary, _ => appendActivity agent.recentActivity time summary
      | none, some name => appendActivity agent.recentActivity time ("▸ " ++ name)
      | none, none => agent.recentActivity
    lastToolName := lastToolName.or agent.lastToolName
    error := ((asString (payload.field "error")).map bounded).or agent.error
    usage := mergeUsageMax agent.usage (asUsage (payload.field "typedUsage"))
    updatedAt := time }

def taskUpdated : RuntimeSubagent :=
  let agent := agent.fillMetadata payload
  let agent :=
    { agent with progress := ((asString (payload.field "detail")).map bounded).or agent.progress }
  let before := agent.counted
  let agent :=
    match asRuntimeStatus (payload.field "status") with
    | some status => before.applyStatus time status
    | none => before
  { agent with
    error := ((asString (payload.field "error")).map bounded).or agent.error
    -- the time of the provider counts for the transition that settles the run
    completedAt :=
      if before.isTerminal = false ∧ agent.isTerminal = true then
        (asString (payload.field "endedAt")).or agent.completedAt
      else agent.completedAt
    updatedAt := time }

/-- What a completion says, where nothing is known yet. -/
def enrich : RuntimeSubagent :=
  let summary := (asString (payload.field "summary")).or (asString (payload.field "detail"))
  { agent with
    error := if agent.status = .failed then agent.error.or (summary.map bounded) else agent.error
    result := if agent.status = .failed then agent.result else agent.result.or (summary.map bounded)
    usage := mergeUsageMax agent.usage (asUsage (payload.field "typedUsage")) }

def taskCompleted : RuntimeSubagent :=
  let agent := (agent.fillMetadata payload).counted
  let summary := (asString (payload.field "summary")).or (asString (payload.field "detail"))
  -- a completion of a settled agent still enriches it
  if agent.isTerminal then agent.enrich payload
  else
    let status := taskCompletedStatus (asString (payload.field "status"))
    let agent := agent.applyStatus time status
    { agent with
      error := if status = .failed then agent.error.or (summary.map bounded) else agent.error
      result := if status = .failed then agent.result else (summary.map bounded).or agent.result
      usage := mergeUsageMax agent.usage (asUsage (payload.field "typedUsage"))
      updatedAt := time }

/-- Agent-owned heartbeat: "what it's doing right now". -/
def toolProgress : RuntimeSubagent :=
  let toolName := asString (payload.field "toolName")
  { agent with
    lastToolName := toolName.or agent.lastToolName
    recentActivity :=
      match toolName with
      | some name => appendActivity agent.recentActivity time ("▸ " ++ name)
      | none => agent.recentActivity
    updatedAt := time }

end RuntimeSubagent

/-! ## The fold -/

inductive SubagentRowKind where
  | taskStarted
  | taskProgress
  | taskUpdated
  | taskCompleted
  | toolProgress
  deriving DecidableEq

def subagentRowKind? (kind : String) : Option SubagentRowKind :=
  match kind with
  | "task.started" => some .taskStarted
  | "task.progress" => some .taskProgress
  | "task.updated" => some .taskUpdated
  | "task.completed" => some .taskCompleted
  | "tool.progress" => some .toolProgress
  | _ => none

/-- What a row makes of its agent. -/
def RuntimeSubagent.applyRow (agent : RuntimeSubagent) (kind : SubagentRowKind) (payload : Json)
    (time : IsoDateTime) (existed : Bool) : RuntimeSubagent :=
  match kind with
  | .taskStarted => agent.taskStarted payload time
  | .taskProgress => agent.taskProgress payload time existed
  | .taskUpdated => agent.taskUpdated payload time
  | .taskCompleted => agent.taskCompleted payload time
  | .toolProgress => agent.toolProgress payload time

abbrev SubagentRoster := OrderedMap String RuntimeSubagent

namespace SubagentRoster

/-- A row is taken: a start if it is marked as an agent's, a heartbeat of an agent on the roster,
and every other row of either kind. -/
def takes (agents : SubagentRoster) (kind : SubagentRowKind) (taskId : String) (payload : Json) :
    Bool :=
  match kind with
  | .taskStarted => !isBackgroundTaskActivity payload
  | .toolProgress => agents.has taskId
  | _ => agents.has taskId || !isBackgroundTaskActivity payload

/-- A row of the fold. A payload that is no object has no task. -/
def foldRow (agents : SubagentRoster) (activity : OrchestrationThreadActivity) : SubagentRoster :=
  match subagentRowKind? activity.kind, asString (activity.payload.field "taskId") with
  | some kind, some taskId =>
    if agents.takes kind taskId activity.payload then
      let agent := (agents.get taskId).getD (createAgent taskId activity.payload activity.createdAt)
      agents.set taskId
        (agent.applyRow kind activity.payload activity.createdAt (agents.has taskId))
    else agents
  | _, _ => agents

/-- The agents that the rows make. -/
def foldRows (activities : List OrchestrationThreadActivity) : SubagentRoster :=
  activities.foldl foldRow .empty

/-- A member of a workflow that is over. -/
def settleMember (coordinator member : RuntimeSubagent) : RuntimeSubagent :=
  if member.parentAgentId ≠ some coordinator.id then member
  else if member.isTerminal || decide (member.status = .idle) then member
  else
    { member with
      status := if coordinator.status = .completed then .completed else .interrupted
      completedAt := (member.completedAt.or coordinator.completedAt).or (some coordinator.updatedAt)
      updatedAt := coordinator.updatedAt }

/-- The agents with one of them read as it is by then: if it is a workflow that is over, its members
are settled. -/
def cascade (agents : List RuntimeSubagent) (index : ℕ) : List RuntimeSubagent :=
  match agents[index]? with
  | none => agents
  | some agent =>
    if agent.kind ≠ .workflow ∨ agent.isTerminal = false then agents
    else agents.map (settleMember agent)

/-- Without a live session nothing is left to finish an active agent. -/
def interruptActive (agent : RuntimeSubagent) : RuntimeSubagent :=
  if isActiveSubagentStatus agent.status then
    { agent with
      status := .interrupted
      completedAt := agent.completedAt.or (some agent.updatedAt) }
  else agent

def rosterRank (agent : RuntimeSubagent) : ℕ :=
  if isActiveSubagentStatus agent.status then 0 else if agent.status = .idle then 1 else 2

/-- Prefer live, then idle, then newest settled. -/
def rosterLe (js : JsRuntime) (a b : RuntimeSubagent) : Bool :=
  if rosterRank a = rosterRank b then (js.localeCompare b.updatedAt a.updatedAt).isLE
  else decide (rosterRank a < rosterRank b)

end SubagentRoster

open SubagentRoster in
/-- **The subagents of a list of activities.** -/
def foldSubagentActivities (js : JsRuntime) (activities : List OrchestrationThreadActivity)
    (sessionLive : Bool) : List RuntimeSubagent :=
  let agents := (foldRows activities).values
  let agents := (List.range agents.length).foldl cascade agents
  let agents := if sessionLive then agents else agents.map interruptActive
  if rosterLimit < agents.length then (stableSort (rosterLe js) agents).take rosterLimit else agents

end Awen.Subagents
