import Awen.Library.Runs
import Awen.Subagents.Fold

/-!
# The life of an agent

What one row does to an agent, whichever kind it is: it may fill metadata, and it may apply a
status. `rowStatus` is the status a row applies and `described` the agent it applies it to; the
lemmas `*_applyRow` read the lifecycle of the agent off them. An agent is settled when it has a
completion time exactly in a terminal status, which `Orderly` rows keep.
-/

namespace Awen.Subagents

open Orchestration (OrchestrationThreadActivity IsoDateTime)

/-! ## What a row says -/

/-- The status that a row names itself. -/
def explicitStatus (kind : SubagentRowKind) (payload : Json) : Option RuntimeSubagentStatus :=
  match kind with
  | .taskProgress | .taskUpdated => asRuntimeStatus (payload.field "status")
  | .taskStarted | .taskCompleted | .toolProgress => none

/-- The usage that a progress or completion row carries. -/
def rowUsage (kind : SubagentRowKind) (payload : Json) : Option SubagentUsage :=
  match kind with
  | .taskProgress | .taskCompleted => asUsage (payload.field "typedUsage")
  | .taskStarted | .taskUpdated | .toolProgress => none

/-- The row says that the agent is done. -/
def IsTerminalRow (kind : SubagentRowKind) (payload : Json) : Prop :=
  kind = .taskCompleted ∨ (explicitStatus kind payload).any isTerminalSubagentStatus = true

namespace RuntimeSubagent

variable (agent : RuntimeSubagent) (kind : SubagentRowKind) (payload : Json) (time : IsoDateTime)
  (existed : Bool)

/-- The agent with what a row says of it. A heartbeat says nothing. -/
def described : RuntimeSubagent :=
  match kind with
  | .toolProgress => agent
  | _ => agent.fillMetadata payload

/-- The status that a row applies to an agent that was seen before. -/
def rowStatus : Option RuntimeSubagentStatus :=
  match kind with
  | .taskStarted => if agent.status = .idle then some .running else none
  | .taskProgress =>
    match asRuntimeStatus (payload.field "status") with
    | some status => some status
    | none =>
      if ((payload.field "usageSnapshot" matches some (.bool true)) = false ∨ existed = false) ∧
          agent.isTerminal = false ∧ agent.status ≠ .idle then some .running
      else none
  | .taskUpdated => asRuntimeStatus (payload.field "status")
  | .taskCompleted =>
    if agent.isTerminal then none
    else some (taskCompletedStatus (asString (payload.field "status")))
  | .toolProgress => none

/-- The agent with a status applied to it, if there is one. -/
def transition : Option RuntimeSubagentStatus → RuntimeSubagent
  | none => agent
  | some status => agent.applyStatus time status

/-! ## Metadata -/

/-- **Metadata leaves the lifecycle alone**, but for the detail of an attempt that is over. -/
theorem lifecycle_described : (agent.described kind payload).id = agent.id ∧
    (agent.described kind payload).status = agent.status ∧
    (agent.described kind payload).activationCount = agent.activationCount ∧
    (agent.described kind payload).usage = agent.usage := by
  have hfill : (agent.fillMetadata payload).id = agent.id ∧
      (agent.fillMetadata payload).status = agent.status ∧
      (agent.fillMetadata payload).activationCount = agent.activationCount ∧
      (agent.fillMetadata payload).usage = agent.usage := by
    rw [fillMetadata, fillAttempt]
    split <;> exact ⟨rfl, rfl, rfl, rfl⟩
  cases kind with
  | toolProgress => exact ⟨rfl, rfl, rfl, rfl⟩
  | taskStarted | taskProgress | taskUpdated | taskCompleted => exact hfill

@[simp] theorem id_described : (agent.described kind payload).id = agent.id :=
  (agent.lifecycle_described kind payload).1

@[simp] theorem status_described : (agent.described kind payload).status = agent.status :=
  (agent.lifecycle_described kind payload).2.1

@[simp] theorem activationCount_described :
    (agent.described kind payload).activationCount = agent.activationCount :=
  (agent.lifecycle_described kind payload).2.2.1

@[simp] theorem usage_described : (agent.described kind payload).usage = agent.usage :=
  (agent.lifecycle_described kind payload).2.2.2

/-- The detail that a new attempt clears. -/
theorem detail_described : (kind ≠ .toolProgress ∧ agent.RaisesAttempt payload ∧
      (agent.described kind payload).completedAt = none) ∨
    (¬(kind ≠ .toolProgress ∧ agent.RaisesAttempt payload) ∧
      (agent.described kind payload).completedAt = agent.completedAt ∧
      (agent.described kind payload).result = agent.result ∧
      (agent.described kind payload).error = agent.error) := by
  by_cases hkind : kind = .toolProgress
  · subst hkind
    exact .inr ⟨fun h ↦ h.1 rfl, rfl, rfl, rfl⟩
  have hfill : agent.described kind payload = agent.fillMetadata payload := by
    cases kind <;> first | rfl | exact absurd rfl hkind
  have hraises : (agent.fillDescription payload).RaisesAttempt payload ↔
      agent.RaisesAttempt payload := Iff.rfl
  rw [hfill, fillMetadata, fillAttempt]
  split
  next h => exact .inl ⟨hkind, hraises.mp h, rfl⟩
  next h => exact .inr ⟨fun hboth ↦ h (hraises.mpr hboth.2), rfl, rfl, rfl⟩

variable {agent} in
theorem counted_of_pos (h : 1 ≤ agent.activationCount) : agent.counted = agent := by
  rw [counted, if_neg (Nat.one_le_iff_ne_zero.mp h)]

/-! ## Statuses -/

theorem not_reactivates_terminal {status : RuntimeSubagentStatus}
    (h : isTerminalSubagentStatus status = true) : ¬agent.Reactivates status := by
  rintro ⟨-, rfl | rfl⟩ <;> exact nomatch h

theorem status_applyStatus (status : RuntimeSubagentStatus) :
    (agent.applyStatus time status).status =
      if agent.isTerminal && isTerminalSubagentStatus status then agent.status else status := by
  rw [applyStatus]
  split <;> rfl

theorem activationCount_applyStatus (status : RuntimeSubagentStatus) :
    (agent.applyStatus time status).activationCount =
      agent.activationCount + if agent.Reactivates status then 1 else 0 := by
  rw [applyStatus]
  split
  next h =>
    rw [if_neg (agent.not_reactivates_terminal (Bool.and_eq_true_iff.mp h).2)]
    rfl
  next h => split <;> rfl

/-- What is left of the detail of a run. -/
theorem detail_applyStatus (status : RuntimeSubagentStatus) :
    (agent.applyStatus time status).completedAt =
      (if agent.isTerminal && isTerminalSubagentStatus status then agent.completedAt
      else if isTerminalSubagentStatus status then agent.completedAt.or (some time)
      else if agent.Reactivates status then none else agent.completedAt) ∧
    (agent.applyStatus time status).result =
      (if agent.Reactivates status then none else agent.result) ∧
    (agent.applyStatus time status).error =
      (if agent.Reactivates status then none else agent.error) ∧
    (agent.applyStatus time status).usage = agent.usage ∧
    (agent.applyStatus time status).id = agent.id := by
  rw [applyStatus]
  split
  next h =>
    have hnot := agent.not_reactivates_terminal (Bool.and_eq_true_iff.mp h).2
    rw [if_neg hnot, if_neg hnot]
    exact ⟨rfl, rfl, rfl, rfl, rfl⟩
  next h =>
    by_cases hterminal : isTerminalSubagentStatus status = true
    · simp only [if_neg (agent.not_reactivates_terminal hterminal), if_pos hterminal, and_self]
    · by_cases hreactivates : agent.Reactivates status
      · simp only [if_pos hreactivates, if_neg hterminal, reactivate, and_self]
      · simp only [if_neg hreactivates, if_neg hterminal, and_self]

/-! ## Rows -/

/-- The agent that a row applies its status to, with the status applied. -/
def settledBy : RuntimeSubagent :=
  (agent.described kind payload).counted.transition time (agent.rowStatus kind payload existed)

/-- What a row does once its status is applied. Where the agent was done before, its detail stays,
but for an error that a progress or update row names. -/
structure RowEffect (next agent' : RuntimeSubagent) : Prop where
  id : agent'.id = next.id
  status : agent'.status = next.status
  activationCount : agent'.activationCount = next.activationCount
  usage : agent'.usage = mergeUsageMax next.usage (rowUsage kind payload)
  isSome_completedAt : agent'.completedAt.isSome = next.completedAt.isSome
  completedAt : agent.isTerminal = true → agent'.completedAt = next.completedAt
  result : agent.isTerminal = true → ∀ result, next.result = some result →
    agent'.result = some result
  error : agent.isTerminal = true → ∀ error, next.error = some error →
    agent'.error = some error ∨ ((kind = .taskProgress ∨ kind = .taskUpdated) ∧
      ∃ text, asString (payload.field "error") = some text ∧ agent'.error = some (bounded text))

theorem mergeUsageMax_none (usage : Option SubagentUsage) : mergeUsageMax usage none = usage := by
  cases usage <;> rfl

variable {agent kind}

theorem error_or {error : CodeUnits} (text : Option String) (h : agent.error = some error) :
    (text.map bounded).or agent.error = some error ∨
      ∃ text', text = some text' ∧ (text.map bounded).or agent.error = some (bounded text') := by
  cases text with
  | none => exact .inl h
  | some text => exact .inr ⟨text, rfl, rfl⟩

theorem rowEffect_toolProgress (hcount : 1 ≤ agent.activationCount) :
    agent.RowEffect .toolProgress payload (agent.settledBy .toolProgress payload time existed)
      (agent.applyRow .toolProgress payload time existed) := by
  have hnext : agent.settledBy .toolProgress payload time existed = agent :=
    @counted_of_pos agent hcount
  rw [hnext]
  exact ⟨rfl, rfl, rfl, (mergeUsageMax_none _).symm, rfl, fun _ ↦ rfl, fun _ _ h ↦ h,
    fun _ _ h ↦ .inl h⟩

theorem rowEffect_taskStarted (hcount : 1 ≤ agent.activationCount) :
    agent.RowEffect .taskStarted payload (agent.settledBy .taskStarted payload time existed)
      (agent.applyRow .taskStarted payload time existed) := by
  have hdescribed : (agent.fillMetadata payload).counted = agent.fillMetadata payload :=
    counted_of_pos (hcount.trans_eq (agent.activationCount_described .taskStarted payload).symm)
  have hstatus : (agent.fillMetadata payload).status = agent.status :=
    agent.status_described .taskStarted payload
  have hpos : ¬((agent.fillMetadata payload).activationCount = 0 ∧
      (agent.fillMetadata payload).isTerminal = false) := fun h ↦ by
    have hsame : (agent.fillMetadata payload).activationCount = agent.activationCount :=
      agent.activationCount_described .taskStarted payload
    omega
  have hnext : agent.settledBy .taskStarted payload time existed =
      if (agent.fillMetadata payload).status = .idle then
        (agent.fillMetadata payload).applyStatus time .running else agent.fillMetadata payload := by
    rw [settledBy, show agent.described .taskStarted payload = agent.fillMetadata payload from rfl,
      hdescribed, rowStatus, hstatus]
    split <;> rfl
  rw [hnext, applyRow, taskStarted]
  simp only [if_neg hpos]
  exact ⟨rfl, rfl, rfl, (mergeUsageMax_none _).symm, rfl, fun _ ↦ rfl, fun _ _ h ↦ h,
    fun _ _ h ↦ .inl h⟩

theorem rowEffect_taskProgress :
    agent.RowEffect .taskProgress payload (agent.settledBy .taskProgress payload time existed)
      (agent.applyRow .taskProgress payload time existed) := by
  have hstatus : (agent.fillMetadata payload).counted.status = agent.status :=
    agent.status_described .taskProgress payload
  have hnext : agent.settledBy .taskProgress payload time existed =
      match asRuntimeStatus (payload.field "status") with
      | some status => (agent.fillMetadata payload).counted.applyStatus time status
      | none =>
        if ((payload.field "usageSnapshot" matches some (.bool true)) = false ∨ existed = false) ∧
            (agent.fillMetadata payload).counted.isTerminal = false ∧
            (agent.fillMetadata payload).counted.status ≠ RuntimeSubagentStatus.idle then
          (agent.fillMetadata payload).counted.applyStatus time .running
        else (agent.fillMetadata payload).counted := by
    rw [settledBy, rowStatus, isTerminal, isTerminal, hstatus]
    cases asRuntimeStatus (payload.field "status") with
    | some status => rfl
    | none =>
      simp only
      split <;> split <;> rfl
  rw [hnext, applyRow, taskProgress]
  exact ⟨rfl, rfl, rfl, rfl, rfl, fun _ ↦ rfl, fun _ _ h ↦ h,
    fun _ _ h ↦ (error_or _ h).imp_right fun herror ↦ ⟨.inl rfl, herror⟩⟩

/-- An agent that a status settles has a completion time. -/
theorem isSome_completedAt_applyStatus {status : RuntimeSubagentStatus}
    (hbefore : agent.isTerminal = false)
    (hafter : (agent.applyStatus time status).isTerminal = true) :
    (agent.applyStatus time status).completedAt.isSome = true := by
  rw [isTerminal, status_applyStatus, hbefore, Bool.false_and] at hafter
  simp only [Bool.false_eq_true, if_false] at hafter
  rw [(agent.detail_applyStatus time status).1, hbefore, hafter]
  cases agent.completedAt <;> rfl

theorem applyStatus_progress (progress : Option CodeUnits) (status : RuntimeSubagentStatus) :
    { agent with progress }.applyStatus time status =
      { agent.applyStatus time status with progress } := by
  by_cases hterminal : (agent.isTerminal && isTerminalSubagentStatus status) = true
  · rw [applyStatus, if_pos hterminal, applyStatus, if_pos hterminal]
  · by_cases hreactivates : agent.Reactivates status
    · have hboth : { agent with progress }.Reactivates status := hreactivates
      rw [applyStatus, if_neg hterminal, applyStatus, if_neg hterminal]
      simp only [if_pos hreactivates, if_pos hboth]
      rfl
    · have hboth : ¬{ agent with progress }.Reactivates status := hreactivates
      rw [applyStatus, if_neg hterminal, applyStatus, if_neg hterminal]
      simp only [if_neg hreactivates, if_neg hboth]

theorem rowEffect_taskUpdated :
    agent.RowEffect .taskUpdated payload (agent.settledBy .taskUpdated payload time existed)
      (agent.applyRow .taskUpdated payload time existed) := by
  have hstatus : (agent.fillMetadata payload).counted.status = agent.status :=
    agent.status_described .taskUpdated payload
  have hterminal : (agent.fillMetadata payload).counted.isTerminal = agent.isTerminal :=
    congrArg isTerminalSubagentStatus hstatus
  rw [settledBy, show agent.described .taskUpdated payload = agent.fillMetadata payload from rfl,
    rowStatus, applyRow, taskUpdated]
  set progress := ((asString (payload.field "detail")).map bounded).or
    (agent.fillMetadata payload).progress with hprogress
  have hcounted : ({ agent.fillMetadata payload with progress } : RuntimeSubagent).counted =
      { (agent.fillMetadata payload).counted with progress } := rfl
  simp only [hcounted]
  cases asRuntimeStatus (payload.field "status") with
  | none =>
    have hsame : ¬((agent.fillMetadata payload).counted.isTerminal = false ∧
        (agent.fillMetadata payload).counted.isTerminal = true) :=
      fun h ↦ absurd (h.1.symm.trans h.2) Bool.false_ne_true
    have hcompleted : (if (agent.fillMetadata payload).counted.isTerminal = false ∧
          (agent.fillMetadata payload).counted.isTerminal = true then
        (asString (payload.field "endedAt")).or (agent.fillMetadata payload).counted.completedAt
        else (agent.fillMetadata payload).counted.completedAt) =
        (agent.fillMetadata payload).counted.completedAt := if_neg hsame
    exact ⟨rfl, rfl, rfl, (mergeUsageMax_none _).symm, congrArg Option.isSome hcompleted,
      fun _ ↦ hcompleted, fun _ _ h ↦ h,
      fun _ _ h ↦ (error_or _ h).imp_right fun herror ↦ ⟨.inr rfl, herror⟩⟩
  | some status =>
    simp only [applyStatus_progress]
    refine ⟨rfl, rfl, rfl, (mergeUsageMax_none _).symm, ?_, fun h ↦ if_neg fun hsettles ↦ ?_,
      fun _ _ h ↦ h, fun _ _ h ↦ (error_or _ h).imp_right fun herror ↦ ⟨.inr rfl, herror⟩⟩
    · rw [transition]
      split
      next hsettles =>
        have hsome := @isSome_completedAt_applyStatus (agent.fillMetadata payload).counted
          time _ hsettles.1 hsettles.2
        exact (Option.isSome_or ..).trans ((congrArg _ hsome).trans
          ((Bool.or_true _).trans hsome.symm))
      next => rfl
    · cases (hterminal.symm.trans hsettles.1).symm.trans h

theorem rowEffect_taskCompleted :
    agent.RowEffect .taskCompleted payload (agent.settledBy .taskCompleted payload time existed)
      (agent.applyRow .taskCompleted payload time existed) := by
  have hstatus : (agent.fillMetadata payload).counted.status = agent.status :=
    agent.status_described .taskCompleted payload
  have hisTerminal : (agent.fillMetadata payload).counted.isTerminal = agent.isTerminal :=
    congrArg isTerminalSubagentStatus hstatus
  rw [settledBy, show agent.described .taskCompleted payload = agent.fillMetadata payload from rfl,
    rowStatus, applyRow, taskCompleted, hisTerminal]
  cases hterminal : agent.isTerminal with
  | true =>
    simp only [if_true]
    refine ⟨rfl, rfl, rfl, rfl, rfl, fun _ ↦ rfl, fun _ result h ↦ ?_, fun _ error h ↦ .inl ?_⟩
    · rw [transition] at h
      simp only [enrich, h]
      split <;> rfl
    · rw [transition] at h
      simp only [enrich, h]
      split <;> rfl
  | false =>
    simp only [Bool.false_eq_true, if_false]
    refine ⟨rfl, rfl, rfl, rfl, rfl, fun _ ↦ rfl, fun h ↦ ?_, fun h ↦ ?_⟩
    · cases hterminal.symm.trans h
    · cases hterminal.symm.trans h

/-- **What a row does.** -/
theorem rowEffect
    (hcount : kind = .taskStarted ∨ kind = .toolProgress → 1 ≤ agent.activationCount) :
    agent.RowEffect kind payload (agent.settledBy kind payload time existed)
      (agent.applyRow kind payload time existed) := by
  cases kind with
  | taskStarted => exact rowEffect_taskStarted payload time existed (hcount (.inl rfl))
  | taskProgress => exact rowEffect_taskProgress payload time existed
  | taskUpdated => exact rowEffect_taskUpdated payload time existed
  | taskCompleted => exact rowEffect_taskCompleted payload time existed
  | toolProgress => exact rowEffect_toolProgress payload time existed (hcount (.inr rfl))

end RuntimeSubagent

end Awen.Subagents
