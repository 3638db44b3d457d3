import Awen.Library.Table
import Awen.Orchestration.Projector

/-!
# The table of turns

The database has a row for each turn of a thread and a row for a turn that was requested and has not
started. The columns of a checkpoint belong to the row of its turn, so a turn has at most one.
`applyThreadTurnsProjection` is what the projector of turns does with an event; `checkpointOf` reads
the columns, and of all events only a checkpoint, a revert and the creation of the thread change
them.
-/

namespace Awen.Orchestration

/-! ## Rows -/

/-- The columns of a checkpoint. -/
structure CheckpointColumns where
  turnCount : ℕ
  ref : CheckpointRef
  status : OrchestrationCheckpointStatus
  deriving DecidableEq

/-- **The row of a turn.** A turn with a checkpoint has a time of completion, which its checkpoint
is listed with. -/
structure ProjectionTurn where
  turnId : TurnId
  pendingMessageId : Option MessageId := none
  sourceProposedPlan : Option SourceProposedPlanReference := none
  assistantMessageId : Option MessageId := none
  state : OrchestrationLatestTurnState
  requestedAt : IsoDateTime
  startedAt : Option IsoDateTime
  completedAt : Option IsoDateTime
  checkpoint : Option CheckpointColumns := none
  completed : checkpoint.isSome → completedAt.isSome := by exact fun h ↦ absurd h Bool.false_ne_true
  deriving DecidableEq

/-- The row of a turn that was requested and has not started. -/
structure ProjectionPendingTurnStart where
  messageId : MessageId
  sourceProposedPlan : Option SourceProposedPlanReference
  requestedAt : IsoDateTime
  deriving DecidableEq

/-- **The rows of a thread in the table of turns.** A turn start that is inserted takes the place of
the one before it. -/
structure TurnTable where
  turns : Table ProjectionTurn.turnId := .empty
  pending : Option ProjectionPendingTurnStart := none

/-- What the other tables hold when an event is projected. -/
structure TurnReads where
  session : Option OrchestrationSession := none
  message : MessageId → Option OrchestrationMessage := fun _ ↦ none
  /-- Whether the command of the event sets the session for the server. -/
  fromServer : Bool := false

namespace TurnTable

variable (js : JsRuntime)

def upsert (table : TurnTable) (row : ProjectionTurn) : TurnTable :=
  { table with turns := table.turns.upsert row }

/-- `clearCheckpointTurnConflict`: no other turn keeps the count. -/
def clearCheckpointTurnConflict (table : TurnTable) (turnId : TurnId) (turnCount : ℕ) :
    TurnTable :=
  { table with
    turns := table.turns.mapRows
      (fun row ↦
        if (row.checkpoint.any (·.turnCount = turnCount)) ∧ row.turnId ≠ turnId then
          { row with checkpoint := none, completed := nofun }
        else row)
      (fun row ↦ by split <;> rfl) }

/-- Whether the turn start that waits is a command to compact the conversation. -/
def pendingCompacts (table : TurnTable) (reads : TurnReads) : Bool :=
  (table.pending.bind fun pending ↦ reads.message pending.messageId).any fun message ↦
    message.role = .user ∧ (message.attachments.getD []).length = 0 ∧
      js.toLowerCase (trim message.text) = "/compact"

/-- Settle the running turns that meet a condition. -/
def settleRunning (table : TurnTable) (p : TurnId → Bool) (state : OrchestrationLatestTurnState)
    (completedAt : IsoDateTime) : TurnTable :=
  { table with
    turns := table.turns.mapRows
      (fun row ↦
        if row.state = .running ∧ p row.turnId then
          { row with state, completedAt := some completedAt, completed := fun _ ↦ rfl }
        else row)
      (fun row ↦ by split <;> rfl) }

/-- The session is set to a status that is not running, or to no turn. -/
def afterIdleSession (table : TurnTable) (reads : TurnReads) (session : OrchestrationSession) :
    TurnTable :=
  let table :=
    if session.status = .ready ∧ reads.fromServer ∨ session.status = .error ∨
        session.status = .stopped ∨ session.status = .interrupted then
      { table with pending := none }
    else table
  match settledTurnStateForSessionStatus session.status with
  | none => table
  | some state => table.settleRunning (fun _ ↦ true) state session.updatedAt

/-- The session runs a turn. -/
def afterRunningSession (table : TurnTable) (occurredAt : IsoDateTime)
    (session : OrchestrationSession) (turnId : TurnId) : TurnTable :=
  -- a new active turn supersedes the turns that still run
  let table := table.settleRunning (· ≠ turnId) .completed session.updatedAt
  let row := match table.turns.get turnId with
    | some turn =>
      { turn with
        state := if turn.state = .completed ∨ turn.state = .error then turn.state else .running
        pendingMessageId := turn.pendingMessageId.or (table.pending.map (·.messageId))
        sourceProposedPlan := turn.sourceProposedPlan.or (table.pending.bind (·.sourceProposedPlan))
        startedAt :=
          turn.startedAt.or (some ((table.pending.map (·.requestedAt)).getD occurredAt)) }
    | none =>
      { turnId
        pendingMessageId := table.pending.map (·.messageId)
        sourceProposedPlan := table.pending.bind (·.sourceProposedPlan)
        state := .running
        requestedAt := (table.pending.map (·.requestedAt)).getD occurredAt
        startedAt := some ((table.pending.map (·.requestedAt)).getD occurredAt)
        completedAt := none }
  { table.upsert row with pending := none }

/-- An assistant message of a turn. -/
def afterAssistantMessage (table : TurnTable) (reads : TurnReads)
    (payload : ThreadMessageSentPayload) (turnId : TurnId) : TurnTable :=
  let settlesTurn := !payload.streaming && !turnStillRunning reads.session turnId
  table.upsert <| match table.turns.get turnId with
    | some turn =>
      { turn with
        assistantMessageId := some payload.messageId
        state :=
          if settlesTurn then
            if turn.state = .interrupted ∨ turn.state = .error then turn.state else .completed
          else turn.state
        completedAt :=
          if settlesTurn then turn.completedAt.or (some payload.updatedAt) else turn.completedAt
        startedAt := turn.startedAt.or (some payload.createdAt)
        completed := fun h ↦ by split <;> simp [turn.completed h] }
    | none =>
      { turnId
        assistantMessageId := some payload.messageId
        state := if settlesTurn then .completed else .running
        requestedAt := payload.createdAt
        startedAt := some payload.createdAt
        completedAt := if settlesTurn then some payload.updatedAt else none }

def afterInterrupt (table : TurnTable) (turnId : TurnId) (createdAt : IsoDateTime) : TurnTable :=
  table.upsert <| match table.turns.get turnId with
    | some turn =>
      { turn with
        state := .interrupted
        completedAt := turn.completedAt.or (some createdAt)
        startedAt := turn.startedAt.or (some createdAt)
        completed := fun _ ↦ by simp }
    | none =>
      { turnId
        state := .interrupted
        requestedAt := createdAt
        startedAt := some createdAt
        completedAt := some createdAt }

/-- The columns of a checkpoint that an event reports. -/
def columnsOf (checkpoint : OrchestrationCheckpointSummary) : CheckpointColumns where
  turnCount := checkpoint.checkpointTurnCount
  ref := checkpoint.checkpointRef
  status := checkpoint.status

/-- A checkpoint of a turn. Unlike the read model, the table lets a placeholder overwrite a
checkpoint that was captured. -/
def afterDiff (table : TurnTable) (reads : TurnReads)
    (checkpoint : OrchestrationCheckpointSummary) : TurnTable :=
  let running := turnStillRunning reads.session checkpoint.turnId
  let nextState : OrchestrationLatestTurnState :=
    if checkpoint.status = .error then .error else .completed
  let existing := table.turns.get checkpoint.turnId
  let table :=
    table.clearCheckpointTurnConflict checkpoint.turnId checkpoint.checkpointTurnCount
  table.upsert <| match existing with
    | some turn =>
      { turn with
        assistantMessageId := checkpoint.assistantMessageId
        state := if running ∨ turn.state = .interrupted then turn.state else nextState
        checkpoint := some (columnsOf checkpoint)
        startedAt := turn.startedAt.or (some checkpoint.completedAt)
        completedAt := some checkpoint.completedAt
        completed := fun _ ↦ rfl }
    | none =>
      { turnId := checkpoint.turnId
        assistantMessageId := checkpoint.assistantMessageId
        state := if running then .running else nextState
        requestedAt := checkpoint.completedAt
        startedAt := some checkpoint.completedAt
        completedAt := some checkpoint.completedAt
        checkpoint := some (columnsOf checkpoint)
        completed := fun _ ↦ rfl }

/-- A revert keeps the turns whose checkpoints are counted up to it. -/
def afterRevert (table : TurnTable) (turnCount : ℕ) : TurnTable where
  turns := table.turns.deleteWhere fun row ↦ !row.checkpoint.any (·.turnCount ≤ turnCount)
  pending := none

/-- **What the projector of turns does with an event.** -/
def applyThreadTurnsProjection (reads : TurnReads) (occurredAt : IsoDateTime) (table : TurnTable) :
    ThreadEventPayload → TurnTable
  | .created _ => {}
  | .turnStartRequested payload =>
    if table.pendingCompacts js reads then table
    else
      { table with
        pending := some
          { messageId := payload.messageId
            sourceProposedPlan := payload.sourceProposedPlan
            requestedAt := payload.createdAt } }
  | .activityAppended activity =>
    if (activity.kind = "context-compaction" ∨ activity.kind = "provider.turn.start.failed") ∧
        table.pending.any (fun pending ↦ activity.requestId? = some pending.messageId) then
      { table with pending := none }
    else table
  | .sessionSet session =>
    match session.status, session.activeTurnId with
    | .running, some turnId => table.afterRunningSession occurredAt session turnId
    | _, _ => table.afterIdleSession reads session
  | .messageSent payload =>
    match payload.role, payload.turnId with
    | .assistant, some turnId => table.afterAssistantMessage reads payload turnId
    | _, _ => table
  | .turnInterruptRequested (some turnId) createdAt => table.afterInterrupt turnId createdAt
  | .turnDiffCompleted checkpoint => table.afterDiff reads checkpoint
  | .reverted turnCount => table.afterRevert turnCount
  | _ => table

/-! ## The checkpoint of a turn -/

/-- The checkpoint that a row is listed as. -/
def summaryOf (row : ProjectionTurn) : Option OrchestrationCheckpointSummary := do
  let columns ← row.checkpoint
  let completedAt ← row.completedAt
  some
    { turnId := row.turnId
      checkpointTurnCount := columns.turnCount
      checkpointRef := columns.ref
      status := columns.status
      assistantMessageId := row.assistantMessageId
      completedAt }

/-- `listCheckpointRowsByThread`: the checkpoints in the order of their counts. -/
def listCheckpoints (table : TurnTable) : List OrchestrationCheckpointSummary :=
  sortCheckpoints (table.turns.rows.filterMap summaryOf)

/-- The columns of the checkpoint of a turn. -/
def checkpointOf (table : TurnTable) (turnId : TurnId) : Option CheckpointColumns :=
  (table.turns.get turnId).bind (·.checkpoint)

/-- What an event leaves in the columns of the checkpoint of a turn. -/
def columnsAfter (payload : ThreadEventPayload) (turnId : TurnId)
    (columns : Option CheckpointColumns) : Option CheckpointColumns :=
  match payload with
  | .created _ => none
  | .turnDiffCompleted checkpoint =>
    if turnId = checkpoint.turnId then some (columnsOf checkpoint)
    else columns.filter (·.turnCount ≠ checkpoint.checkpointTurnCount)
  | .reverted turnCount => columns.filter (·.turnCount ≤ turnCount)
  | _ => columns

variable {js} {table : TurnTable} {turnId : TurnId}

private theorem checkpointOf_upsert (table : TurnTable) (row : ProjectionTurn) (turnId : TurnId) :
    (table.upsert row).checkpointOf turnId
      = if turnId = row.turnId then row.checkpoint else table.checkpointOf turnId := by
  rw [checkpointOf, upsert, Table.get_upsert]
  split <;> rfl

private theorem checkpointOf_settleRunning (table : TurnTable) (p : TurnId → Bool)
    (state : OrchestrationLatestTurnState) (completedAt : IsoDateTime) (turnId : TurnId) :
    (table.settleRunning p state completedAt).checkpointOf turnId = table.checkpointOf turnId := by
  rw [checkpointOf, settleRunning, Table.get_mapRows, checkpointOf]
  rcases table.turns.get turnId with _ | row
  · rfl
  · rw [Option.map_some, Option.bind_some, Option.bind_some]
    split <;> rfl

/-- A row that is written over the one of its turn and keeps its checkpoint changes none. -/
private theorem checkpointOf_upsert_of_kept {row : ProjectionTurn}
    (h : row.checkpoint = table.checkpointOf row.turnId) (turnId : TurnId) :
    (table.upsert row).checkpointOf turnId = table.checkpointOf turnId := by
  rw [checkpointOf_upsert]
  split
  · rename_i heq
    rw [h, heq]
  · rfl

private theorem turnId_of_get {row : ProjectionTurn} (h : table.turns.get turnId = some row) :
    row.turnId = turnId := (Table.get_eq_some.mp h).2

private theorem checkpointOf_afterIdleSession (reads : TurnReads) (session : OrchestrationSession) :
    (table.afterIdleSession reads session).checkpointOf turnId = table.checkpointOf turnId := by
  rw [afterIdleSession]
  have hpending (q : Prop) [Decidable q] :
      (if q then { table with pending := none } else table : TurnTable).checkpointOf turnId
        = table.checkpointOf turnId := by
    split <;> rfl
  rcases settledTurnStateForSessionStatus session.status with _ | state
  · exact hpending _
  · exact (checkpointOf_settleRunning _ _ _ _ _).trans (hpending _)

private theorem checkpointOf_afterRunningSession (occurredAt : IsoDateTime)
    (session : OrchestrationSession) (active : TurnId) :
    (table.afterRunningSession occurredAt session active).checkpointOf turnId
      = table.checkpointOf turnId := by
  rw [← checkpointOf_settleRunning table (· ≠ active) .completed session.updatedAt turnId,
    afterRunningSession]
  set settled := table.settleRunning (· ≠ active) .completed session.updatedAt
  refine checkpointOf_upsert_of_kept ?_ turnId
  rcases h : settled.turns.get active with _ | row
  · simp [checkpointOf, h]
  · simp [checkpointOf, h, turnId_of_get h]

private theorem checkpointOf_afterAssistantMessage (reads : TurnReads)
    (payload : ThreadMessageSentPayload) (answered : TurnId) :
    (table.afterAssistantMessage reads payload answered).checkpointOf turnId
      = table.checkpointOf turnId := by
  refine checkpointOf_upsert_of_kept ?_ turnId
  rcases h : table.turns.get answered with _ | row
  · simp [checkpointOf, h]
  · simp [checkpointOf, h, turnId_of_get h]

private theorem checkpointOf_afterInterrupt (interrupted : TurnId) (createdAt : IsoDateTime) :
    (table.afterInterrupt interrupted createdAt).checkpointOf turnId
      = table.checkpointOf turnId := by
  refine checkpointOf_upsert_of_kept ?_ turnId
  rcases h : table.turns.get interrupted with _ | row
  · simp [checkpointOf, h]
  · simp [checkpointOf, h, turnId_of_get h]

private theorem checkpointOf_clearConflict (cleared : TurnId) (turnCount : ℕ)
    (h : turnId ≠ cleared) :
    (table.clearCheckpointTurnConflict cleared turnCount).checkpointOf turnId
      = (table.checkpointOf turnId).filter (·.turnCount ≠ turnCount) := by
  rw [checkpointOf, clearCheckpointTurnConflict, Table.get_mapRows, checkpointOf]
  rcases hrow : table.turns.get turnId with _ | row
  · rfl
  · have hne : row.turnId ≠ cleared := turnId_of_get hrow ▸ h
    rw [Option.map_some, Option.bind_some, Option.bind_some]
    rcases hcolumns : row.checkpoint with _ | columns
    · simp [hcolumns]
    · by_cases hcount : columns.turnCount = turnCount <;>
        simp [hcolumns, hcount, hne, Option.filter]

private theorem checkpointOf_afterDiff (reads : TurnReads)
    (checkpoint : OrchestrationCheckpointSummary) :
    (table.afterDiff reads checkpoint).checkpointOf turnId
      = columnsAfter (.turnDiffCompleted checkpoint) turnId (table.checkpointOf turnId) := by
  rw [afterDiff, checkpointOf_upsert, columnsAfter]
  rcases hrow : table.turns.get checkpoint.turnId with _ | row
  · by_cases h : turnId = checkpoint.turnId
    · simp [h]
    · simpa [h] using checkpointOf_clearConflict checkpoint.turnId checkpoint.checkpointTurnCount h
  · by_cases h : turnId = checkpoint.turnId
    · simp [h, turnId_of_get hrow]
    · simpa [h, turnId_of_get hrow] using
        checkpointOf_clearConflict checkpoint.turnId checkpoint.checkpointTurnCount h

private theorem checkpointOf_afterRevert (turnCount : ℕ) :
    (table.afterRevert turnCount).checkpointOf turnId
      = (table.checkpointOf turnId).filter (·.turnCount ≤ turnCount) := by
  rw [checkpointOf, afterRevert, Table.get_deleteWhere, checkpointOf]
  rcases table.turns.get turnId with _ | row
  · rfl
  · rw [Option.bind_some]
    rcases hcolumns : row.checkpoint with _ | columns
    · simp [hcolumns]
    · by_cases hcount : columns.turnCount ≤ turnCount <;>
        simp [hcolumns, hcount, Option.filter]

/-- **Only a checkpoint, a revert and the creation of the thread change a checkpoint.** -/
theorem checkpointOf_apply (reads : TurnReads) (occurredAt : IsoDateTime) (table : TurnTable)
    (payload : ThreadEventPayload) (turnId : TurnId) :
    (applyThreadTurnsProjection js reads occurredAt table payload).checkpointOf turnId
      = columnsAfter payload turnId (table.checkpointOf turnId) := by
  match payload with
  | .created _ => rfl
  | .turnDiffCompleted checkpoint => exact checkpointOf_afterDiff reads checkpoint
  | .reverted turnCount => exact checkpointOf_afterRevert turnCount
  | .turnStartRequested _ =>
    simp only [applyThreadTurnsProjection, columnsAfter]
    split <;> rfl
  | .activityAppended _ =>
    simp only [applyThreadTurnsProjection, columnsAfter]
    split <;> rfl
  | .sessionSet session =>
    simp only [applyThreadTurnsProjection, columnsAfter]
    split
    · exact checkpointOf_afterRunningSession occurredAt session _
    · exact checkpointOf_afterIdleSession reads session
  | .messageSent payload =>
    simp only [applyThreadTurnsProjection, columnsAfter]
    split
    · exact checkpointOf_afterAssistantMessage reads payload _
    · rfl
  | .turnInterruptRequested (some interrupted) createdAt =>
    exact checkpointOf_afterInterrupt interrupted createdAt
  | .turnInterruptRequested none _ => rfl
  | .deleted _ | .archived .. | .unarchived _ | .settled .. | .unsettled .. | .snoozed ..
  | .unsnoozed .. | .pinned .. | .unpinned _ | .pinReordered .. | .metaUpdated _
  | .pullRequestLinked .. | .pullRequestUnlinked .. | .pullRequestSynced .. | .runtimeModeSet ..
  | .interactionModeSet .. | .approvalResponseRequested .. | .userInputResponseRequested ..
  | .checkpointRevertRequested .. | .sessionStopRequested _ | .proposedPlanUpserted _ => rfl

theorem summaryOf_eq_some {row : ProjectionTurn} {checkpoint : OrchestrationCheckpointSummary}
    (h : summaryOf row = some checkpoint) :
    row.turnId = checkpoint.turnId ∧ row.checkpoint = some (columnsOf checkpoint) := by
  simp only [summaryOf, Option.bind_eq_bind, Option.bind_eq_some_iff] at h
  obtain ⟨columns, hcolumns, completedAt, -, h⟩ := h
  obtain rfl := Option.some.inj h
  exact ⟨rfl, hcolumns⟩

/-- A listed checkpoint is the one of its turn. -/
theorem checkpointOf_of_mem {checkpoint : OrchestrationCheckpointSummary}
    (h : checkpoint ∈ table.listCheckpoints) :
    table.checkpointOf checkpoint.turnId = some (columnsOf checkpoint) := by
  rw [listCheckpoints, sortCheckpoints, mem_stableSort, List.mem_filterMap] at h
  obtain ⟨row, hrow, hsummary⟩ := h
  obtain ⟨hturn, hcolumns⟩ := summaryOf_eq_some hsummary
  rw [checkpointOf, Table.get_eq_some.mpr ⟨hrow, hturn⟩, Option.bind_some, hcolumns]

/-- The checkpoint of a turn is listed. -/
theorem exists_mem_of_checkpointOf {columns : CheckpointColumns}
    (h : table.checkpointOf turnId = some columns) :
    ∃ checkpoint ∈ table.listCheckpoints,
      checkpoint.turnId = turnId ∧ columnsOf checkpoint = columns := by
  obtain ⟨row, hrow, hcolumns⟩ := Option.bind_eq_some_iff.mp h
  obtain ⟨hmem, hturn⟩ := Table.get_eq_some.mp hrow
  obtain ⟨completedAt, hcompleted⟩ :=
    Option.isSome_iff_exists.mp (row.completed (by rw [hcolumns]; rfl))
  refine ⟨{ turnId := row.turnId, checkpointTurnCount := columns.turnCount
            checkpointRef := columns.ref, status := columns.status
            assistantMessageId := row.assistantMessageId, completedAt }, ?_, hturn, rfl⟩
  rw [listCheckpoints, sortCheckpoints, mem_stableSort, List.mem_filterMap]
  exact ⟨row, hmem, by simp [summaryOf, hcolumns, hcompleted]⟩

private theorem map_filterMap_summaryOf_sublist (rows : List ProjectionTurn) :
    ((rows.filterMap summaryOf).map (·.turnId)).Sublist (rows.map (·.turnId)) := by
  induction rows with
  | nil => exact List.Sublist.slnil
  | cons row rows ih =>
    rcases h : summaryOf row with _ | checkpoint
    · rw [List.filterMap_cons_none h]
      exact ih.cons row.turnId
    · rw [List.filterMap_cons_some h, List.map_cons, List.map_cons, (summaryOf_eq_some h).1]
      exact ih.cons_cons checkpoint.turnId

/-- **No two listed checkpoints are of one turn.** -/
theorem nodup_turnIds (table : TurnTable) : (table.listCheckpoints.map (·.turnId)).Nodup := by
  have hperm := (stableSort_perm (fun left right : OrchestrationCheckpointSummary ↦
    decide (left.checkpointTurnCount ≤ right.checkpointTurnCount))
    (table.turns.rows.filterMap summaryOf)).map (·.turnId)
  exact hperm.nodup_iff.mpr
    (table.turns.nodup_keys.sublist (map_filterMap_summaryOf_sublist table.turns.rows))

end TurnTable

end Awen.Orchestration
