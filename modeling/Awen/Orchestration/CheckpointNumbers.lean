import Awen.Orchestration.CheckpointWorkers
import Awen.Orchestration.ThreadFold
import Awen.Shared.PlainRuntime

/-!
# Every turn has its own checkpoint number

Two turns share no number and a captured checkpoint stays, as long as what a worker dispatches still
fits when it is committed: no other turn has got the number in the meantime, and the turn of a
placeholder has not been captured (`Fits`). A placeholder that comes too late replaces the captured
checkpoint of its turn in the table (`not_ownNumbers_lateSteps`).
-/

namespace Awen.Orchestration

variable {js : JsRuntime} {encode : String → String}

/-! ## The claim -/

/-- The checkpoints of a thread have turns and numbers of their own, and captured ones the ref of
their number. -/
structure OwnNumbers (encode : String → String) (threadId : ThreadId)
    (checkpoints : List OrchestrationCheckpointSummary) : Prop where
  turnIds : (checkpoints.map (·.turnId)).Nodup
  turnCounts : (checkpoints.map (·.checkpointTurnCount)).Nodup
  refs : ∀ checkpoint ∈ checkpoints, checkpoint.status ≠ .missing →
    checkpoint.checkpointRef
      = checkpointRefForThreadTurn encode threadId checkpoint.checkpointTurnCount

/-- Every captured checkpoint is there still, with its number, ref and status. -/
def KeepsCaptures (before after : List OrchestrationCheckpointSummary) : Prop :=
  ∀ checkpoint ∈ before, checkpoint.status ≠ .missing →
    ∃ kept ∈ after, kept.turnId = checkpoint.turnId ∧
      TurnTable.columnsOf kept = TurnTable.columnsOf checkpoint

instance (before after : List OrchestrationCheckpointSummary) :
    Decidable (KeepsCaptures before after) :=
  inferInstanceAs (Decidable (∀ checkpoint ∈ before, _ → _))

namespace CheckpointWorkers

/-- **Each turn has its own checkpoint number** throughout a run, in the table and in the read
model, and only a revert takes a captured checkpoint out of the table. -/
structure EachTurnItsNumber (js : JsRuntime) (encode : String → String) (s : CheckpointWorkers)
    (run : List WorkerStep) : Prop where
  projected : ∀ steps, steps <+: run →
    OwnNumbers encode s.thread.id (s.after js encode steps).checkpoints
  held : ∀ steps, steps <+: run →
    OwnNumbers encode s.thread.id (s.after js encode steps).thread.checkpoints
  kept : ∀ steps step, steps ++ [step] <+: run →
    (s.after js encode steps).completesRevert step = false →
    KeepsCaptures (s.after js encode steps).checkpoints
      (s.after js encode (steps ++ [step])).checkpoints

/-- Whether no other turn has the number of a checkpoint. -/
def Unclaimed (s : CheckpointWorkers) (checkpoint : OrchestrationCheckpointSummary) : Prop :=
  ∀ other ∈ s.checkpoints,
    other.checkpointTurnCount = checkpoint.checkpointTurnCount → other.turnId = checkpoint.turnId

/-- Whether the turn of a checkpoint is not captured. -/
def Uncaptured (s : CheckpointWorkers) (checkpoint : OrchestrationCheckpointSummary) : Prop :=
  ∀ other ∈ s.checkpoints, other.turnId = checkpoint.turnId → other.status = .missing

instance (s : CheckpointWorkers) (checkpoint : OrchestrationCheckpointSummary) :
    Decidable (s.Unclaimed checkpoint) :=
  inferInstanceAs (Decidable (∀ other ∈ s.checkpoints, _ → _))

instance (s : CheckpointWorkers) (checkpoint : OrchestrationCheckpointSummary) :
    Decidable (s.Uncaptured checkpoint) :=
  inferInstanceAs (Decidable (∀ other ∈ s.checkpoints, _ → _))

/-- **What a worker dispatches still fits**: its number is still free, and a placeholder's turn is
not captured. -/
def Fits (s : CheckpointWorkers) : WorkerStep → Prop
  | .placeholderDispatched _ =>
    ∀ checkpoint ∈ s.placeholder, s.Unclaimed checkpoint ∧ s.Uncaptured checkpoint
  | .reactorDispatched _ =>
    ∀ checkpoint ∈ s.reactor.bind ReactorDispatch.captured?, s.Unclaimed checkpoint
  | _ => True

instance (s : CheckpointWorkers) : (step : WorkerStep) → Decidable (s.Fits step)
  | .placeholderDispatched _ => inferInstanceAs (Decidable (∀ checkpoint ∈ s.placeholder, _ ∧ _))
  | .reactorDispatched _ =>
    inferInstanceAs (Decidable (∀ checkpoint ∈ s.reactor.bind ReactorDispatch.captured?, _))
  | .diffUpdated .. | .ingestionFailed | .turnEnded .. | .revertRequested _ | .reactorFailed
  | .committed .. => .isTrue trivial

/-- A placeholder for a turn that is asked for before the turn ends and dispatched after its
capture. -/
def lateSteps : List WorkerStep :=
  [.diffUpdated "t" "e" "m" "now", .turnEnded "t" .ready "m" "now", .reactorDispatched {},
    .placeholderDispatched {}]

/-- The payload of a thread that the runs on fixed inputs are about. -/
def plainThread : ThreadCreatedPayload where
  projectId := "p"
  title := "T"
  modelSelection := .null
  runtimeMode := .fullAccess
  interactionMode := .default
  branch := none
  worktreePath := none
  createdAt := "now"
  updatedAt := "now"

/-- **A late placeholder replaces the capture of its turn.** -/
theorem not_eachTurnItsNumber_lateSteps :
    ¬EachTurnItsNumber plainRuntime (fun s ↦ s) (start "thread" plainThread) lateSteps := by
  intro h
  have hkept := h.kept (lateSteps.take 3) (.placeholderDispatched {}) (List.prefix_refl _) rfl
  revert hkept
  decide

end CheckpointWorkers

/-! ## The invariant -/

/-- What the read model holds of checkpoints after an event. -/
def heldAfter (payload : ThreadEventPayload) (held : List OrchestrationCheckpointSummary) :
    List OrchestrationCheckpointSummary :=
  match payload with
  | .turnDiffCompleted checkpoint =>
    if (held.find? (·.turnId = checkpoint.turnId)).any (·.status ≠ .missing)
        ∧ checkpoint.status = .missing then held
    else lastItems maxThreadCheckpoints (sortCheckpoints
      (held.filter (·.turnId ≠ checkpoint.turnId) ++ [checkpoint]))
  | .reverted turnCount => checkpointsAfterRevert held turnCount
  | _ => held

theorem threadPatch_checkpoints (projects : List OrchestrationProject) (occurredAt : IsoDateTime)
    (thread : OrchestrationThread) (payload : ThreadEventPayload) :
    (threadPatch js projects occurredAt thread payload thread).checkpoints
      = heldAfter payload thread.checkpoints := by
  cases payload
  case metaUpdated payload =>
    change _ = thread.checkpoints
    simp only [threadPatch]
    split <;> rfl
  case pullRequestSynced key snapshot stack updatedAt =>
    change _ = thread.checkpoints
    simp only [threadPatch]
    split <;> rfl
  case turnDiffCompleted checkpoint =>
    simp only [threadPatch, heldAfter, apply_ite OrchestrationThread.checkpoints]
  case reverted turnCount => simp only [threadPatch, heldAfter]
  all_goals rfl

/-- **The numbers of a thread**: the checkpoint of each turn in the table, and the checkpoints that
the read model holds. -/
structure Numbered (encode : String → String) (threadId : ThreadId)
    (columnsOfTurn : TurnId → Option CheckpointColumns)
    (held : List OrchestrationCheckpointSummary) : Prop where
  counts : ∀ turnId turnId' columns columns', columnsOfTurn turnId = some columns →
    columnsOfTurn turnId' = some columns' → columns.turnCount = columns'.turnCount →
    turnId = turnId'
  refs : ∀ turnId columns, columnsOfTurn turnId = some columns → columns.status ≠ .missing →
    columns.ref = checkpointRefForThreadTurn encode threadId columns.turnCount
  agrees : ∀ checkpoint ∈ held,
    columnsOfTurn checkpoint.turnId = some (TurnTable.columnsOf checkpoint)
  heldTurns : (held.map (·.turnId)).Nodup

theorem numbered_nil (encode : String → String) (threadId : ThreadId) :
    Numbered encode threadId (fun _ ↦ none) [] where
  counts := fun _ _ _ _ h ↦ absurd h (by simp)
  refs := fun _ _ h ↦ absurd h (by simp)
  agrees := fun _ h ↦ absurd h List.not_mem_nil
  heldTurns := List.nodup_nil

section

variable {threadId : ThreadId} {columnsOfTurn : TurnId → Option CheckpointColumns}
  {held : List OrchestrationCheckpointSummary} {checkpoint : OrchestrationCheckpointSummary}

theorem mem_of_mem_lastItems {α : Type*} {n : ℕ} {items : List α} {a : α}
    (h : a ∈ lastItems n items) : a ∈ items := List.mem_of_mem_drop h

private theorem nodup_map_lastItems_sort {checkpoints : List OrchestrationCheckpointSummary}
    (h : (checkpoints.map (·.turnId)).Nodup) (n : ℕ) :
    ((lastItems n (sortCheckpoints checkpoints)).map (·.turnId)).Nodup := by
  have hsorted : ((sortCheckpoints checkpoints).map (·.turnId)).Nodup :=
    ((stableSort_perm _ checkpoints).map (·.turnId)).nodup_iff.mpr h
  exact hsorted.sublist ((List.drop_sublist _ _).map _)

private theorem mem_lastItems_sort {checkpoints : List OrchestrationCheckpointSummary} {n : ℕ}
    (h : checkpoint ∈ lastItems n (sortCheckpoints checkpoints)) : checkpoint ∈ checkpoints := by
  rw [sortCheckpoints] at h
  exact mem_stableSort.mp (mem_of_mem_lastItems h)

/-- What the table has after a checkpoint whose number no other turn has. -/
private theorem columnsAfter_diff
    (hfree : ∀ turnId columns, columnsOfTurn turnId = some columns →
      columns.turnCount = checkpoint.checkpointTurnCount → turnId = checkpoint.turnId)
    (turnId : TurnId) :
    TurnTable.columnsAfter (.turnDiffCompleted checkpoint) turnId (columnsOfTurn turnId)
      = if turnId = checkpoint.turnId then some (TurnTable.columnsOf checkpoint)
        else columnsOfTurn turnId := by
  rw [TurnTable.columnsAfter]
  by_cases h : turnId = checkpoint.turnId
  · rw [if_pos h, if_pos h]
  · rw [if_neg h, if_neg h]
    rcases hcolumns : columnsOfTurn turnId with _ | columns
    · rfl
    · have hne : columns.turnCount ≠ checkpoint.checkpointTurnCount :=
        fun heq ↦ h (hfree turnId columns hcolumns heq)
      simp [Option.filter, hne]

/-- **A checkpoint whose number is free and whose turn is not captured.** -/
theorem Numbered.diff (h : Numbered encode threadId columnsOfTurn held)
    (hfree : ∀ turnId columns, columnsOfTurn turnId = some columns →
      columns.turnCount = checkpoint.checkpointTurnCount → turnId = checkpoint.turnId)
    (hmissing : ∀ columns, columnsOfTurn checkpoint.turnId = some columns →
      columns.status = .missing)
    (href : checkpoint.status ≠ .missing → checkpoint.checkpointRef
      = checkpointRefForThreadTurn encode threadId checkpoint.checkpointTurnCount) :
    Numbered encode threadId
      (fun turnId ↦
        TurnTable.columnsAfter (.turnDiffCompleted checkpoint) turnId (columnsOfTurn turnId))
      (heldAfter (.turnDiffCompleted checkpoint) held) := by
  have hheld : heldAfter (.turnDiffCompleted checkpoint) held
      = lastItems maxThreadCheckpoints (sortCheckpoints
        (held.filter (·.turnId ≠ checkpoint.turnId) ++ [checkpoint])) := by
    rw [heldAfter, if_neg]
    rintro ⟨hcaptured, -⟩
    rcases hfound : held.find? (·.turnId = checkpoint.turnId) with _ | found
    · rw [hfound] at hcaptured
      exact absurd hcaptured Bool.false_ne_true
    · rw [hfound, Option.any_some, decide_eq_true_eq] at hcaptured
      have hturn : found.turnId = checkpoint.turnId := by simpa using List.find?_some hfound
      have hcolumns := h.agrees found (List.mem_of_find?_eq_some hfound)
      exact hcaptured (hmissing _ (hturn ▸ hcolumns))
  simp only [columnsAfter_diff hfree, hheld]
  refine ⟨?_, ?_, ?_, ?_⟩
  · intro turnId turnId' columns columns' hcolumns hcolumns' hcount
    by_cases ht : turnId = checkpoint.turnId
    · by_cases ht' : turnId' = checkpoint.turnId
      · rw [ht, ht']
      · rw [if_pos ht, Option.some.injEq] at hcolumns
        rw [if_neg ht'] at hcolumns'
        exact absurd (hfree turnId' columns' hcolumns' (hcount ▸ hcolumns ▸ rfl)) ht'
    · by_cases ht' : turnId' = checkpoint.turnId
      · rw [if_neg ht] at hcolumns
        rw [if_pos ht', Option.some.injEq] at hcolumns'
        exact absurd (hfree turnId columns hcolumns (hcount.trans (hcolumns' ▸ rfl))) ht
      · rw [if_neg ht] at hcolumns
        rw [if_neg ht'] at hcolumns'
        exact h.counts turnId turnId' columns columns' hcolumns hcolumns' hcount
  · intro turnId columns hcolumns hstatus
    by_cases ht : turnId = checkpoint.turnId
    · rw [if_pos ht, Option.some.injEq] at hcolumns
      subst hcolumns
      exact href hstatus
    · rw [if_neg ht] at hcolumns
      exact h.refs turnId columns hcolumns hstatus
  · intro entry hentry
    rcases List.mem_append.mp (mem_lastItems_sort hentry) with hentry | hentry
    · obtain ⟨hmem, hne⟩ := List.mem_filter.mp hentry
      rw [if_neg (by simpa using hne)]
      exact h.agrees entry hmem
    · obtain rfl := List.mem_singleton.mp hentry
      rw [if_pos rfl]
  · refine nodup_map_lastItems_sort ?_ _
    rw [List.map_append, List.map_singleton]
    refine List.Nodup.append (h.heldTurns.sublist (List.filter_sublist.map _))
      (List.nodup_singleton _) ?_
    rintro turnId hmem hlast
    obtain rfl := List.mem_singleton.mp hlast
    obtain ⟨entry, hentry, hturn⟩ := List.mem_map.mp hmem
    exact absurd hturn (by simpa using (List.mem_filter.mp hentry).2)

/-- A revert keeps checkpoints and changes none. -/
theorem Numbered.revert (h : Numbered encode threadId columnsOfTurn held) (turnCount : ℕ) :
    Numbered encode threadId
      (fun turnId ↦ TurnTable.columnsAfter (.reverted turnCount) turnId (columnsOfTurn turnId))
      (heldAfter (.reverted turnCount) held) := by
  have hkept {turnId : TurnId} {columns : CheckpointColumns}
      (hcolumns : (columnsOfTurn turnId).filter (·.turnCount ≤ turnCount) = some columns) :
      columnsOfTurn turnId = some columns := (Option.filter_eq_some_iff.mp hcolumns).1
  refine ⟨?_, ?_, ?_, ?_⟩
  · intro turnId turnId' columns columns' hcolumns hcolumns' hcount
    exact h.counts turnId turnId' columns columns' (hkept hcolumns) (hkept hcolumns') hcount
  · intro turnId columns hcolumns hstatus
    exact h.refs turnId columns (hkept hcolumns) hstatus
  · intro entry hentry
    obtain ⟨hmem, hcount⟩ := List.mem_filter.mp (mem_lastItems_sort hentry)
    rw [TurnTable.columnsAfter, h.agrees entry hmem]
    exact Option.filter_eq_some_iff.mpr ⟨rfl, hcount⟩
  · exact nodup_map_lastItems_sort (h.heldTurns.sublist (List.filter_sublist.map _)) _

theorem columnsAfter_of_isOther {payload : ThreadEventPayload} (h : payload.isOther = true)
    (turnId : TurnId) (columns : Option CheckpointColumns) :
    TurnTable.columnsAfter payload turnId columns = columns := by
  cases payload
  case created => exact absurd h Bool.false_ne_true
  case turnDiffCompleted => exact absurd h Bool.false_ne_true
  case reverted => exact absurd h Bool.false_ne_true
  all_goals rfl

theorem heldAfter_of_isOther {payload : ThreadEventPayload} (h : payload.isOther = true)
    (held : List OrchestrationCheckpointSummary) : heldAfter payload held = held := by
  cases payload
  case turnDiffCompleted => exact absurd h Bool.false_ne_true
  case reverted => exact absurd h Bool.false_ne_true
  all_goals rfl

/-- Any other event leaves the checkpoints as they are. -/
theorem Numbered.other (h : Numbered encode threadId columnsOfTurn held)
    {payload : ThreadEventPayload} (hother : payload.isOther = true) :
    Numbered encode threadId
      (fun turnId ↦ TurnTable.columnsAfter payload turnId (columnsOfTurn turnId))
      (heldAfter payload held) := by
  simpa only [columnsAfter_of_isOther hother, heldAfter_of_isOther hother] using h

/-- The held checkpoints have numbers of their own. -/
theorem Numbered.ownNumbers_held (h : Numbered encode threadId columnsOfTurn held) :
    OwnNumbers encode threadId held where
  turnIds := h.heldTurns
  turnCounts := by
    refine List.Nodup.map_on (fun entry hentry entry' hentry' hcount ↦ ?_) h.heldTurns.of_map
    have hturn : entry.turnId = entry'.turnId :=
      h.counts _ _ _ _ (h.agrees entry hentry) (h.agrees entry' hentry') hcount
    exact List.inj_on_of_nodup_map h.heldTurns hentry hentry' hturn
  refs := fun entry hentry hstatus ↦ h.refs entry.turnId _ (h.agrees entry hentry) hstatus

/-- The checkpoints of the table have numbers of their own. -/
theorem Numbered.ownNumbers_listed {table : TurnTable}
    (h : Numbered encode threadId table.checkpointOf held) :
    OwnNumbers encode threadId table.listCheckpoints where
  turnIds := table.nodup_turnIds
  turnCounts := by
    have hturns := table.nodup_turnIds
    refine List.Nodup.map_on (fun entry hentry entry' hentry' hcount ↦ ?_) hturns.of_map
    have hturn : entry.turnId = entry'.turnId :=
      h.counts _ _ _ _ (TurnTable.checkpointOf_of_mem hentry)
        (TurnTable.checkpointOf_of_mem hentry') hcount
    exact List.inj_on_of_nodup_map hturns hentry hentry' hturn
  refs := fun entry hentry hstatus ↦
    h.refs entry.turnId _ (TurnTable.checkpointOf_of_mem hentry) hstatus

end

/-! ## Steps -/

theorem status_placeholderFor {checkpoints : List OrchestrationCheckpointSummary}
    {turnId : TurnId} {eventId : EventId} {assistantMessageId : MessageId} {now : IsoDateTime}
    {checkpoint : OrchestrationCheckpointSummary}
    (h : placeholderFor checkpoints turnId eventId assistantMessageId now = some checkpoint) :
    checkpoint.status = .missing := by
  rw [placeholderFor] at h
  split at h
  · exact absurd h (by simp)
  · rw [← Option.some.inj h]

/-- What the reactor is about to dispatch has the ref of its number, and its turn was not captured
when it was read. -/
theorem captureFor_spec {threadId : ThreadId} {session : Option OrchestrationSession}
    {checkpoints : List OrchestrationCheckpointSummary} {turnId : TurnId}
    {status : OrchestrationCheckpointStatus} {lastMessageId : MessageId} {createdAt : IsoDateTime}
    {checkpoint : OrchestrationCheckpointSummary}
    (h : captureFor encode threadId session checkpoints turnId status lastMessageId createdAt
      = some checkpoint) :
    checkpoint.checkpointRef
        = checkpointRefForThreadTurn encode threadId checkpoint.checkpointTurnCount ∧
      ∀ other ∈ checkpoints, other.turnId = checkpoint.turnId → other.status = .missing := by
  rw [captureFor] at h
  split at h
  · exact absurd h (by simp)
  · split at h
    · exact absurd h (by simp)
    · rename_i huncaptured
      rw [← Option.some.inj h]
      refine ⟨rfl, fun other hother hturn ↦ ?_⟩
      by_contra hstatus
      exact huncaptured (List.any_eq_true.mpr ⟨other, hother, by simpa using ⟨hturn, hstatus⟩⟩)

namespace CheckpointWorkers

variable {s : CheckpointWorkers} {threadId : ThreadId}

/-- **The invariant of a thread and its workers.** -/
structure Inv (encode : String → String) (threadId : ThreadId) (s : CheckpointWorkers) : Prop where
  id : s.thread.id = threadId
  numbered : Numbered encode threadId s.turns.checkpointOf s.thread.checkpoints
  placeholder : ∀ checkpoint, s.placeholder = some checkpoint → checkpoint.status = .missing
  capture : ∀ checkpoint, s.reactor = some (.capture checkpoint) →
    checkpoint.checkpointRef
        = checkpointRefForThreadTurn encode threadId checkpoint.checkpointTurnCount ∧
      ∀ columns, s.turns.checkpointOf checkpoint.turnId = some columns → columns.status = .missing

theorem inv_start (encode : String → String) (threadId : ThreadId)
    (payload : ThreadCreatedPayload) : (start threadId payload).Inv encode threadId where
  id := rfl
  numbered := numbered_nil encode threadId
  placeholder := fun _ h ↦ absurd h (by simp [start])
  capture := fun _ h ↦ absurd h (by simp [start])

theorem checkpointOf_commit (s : CheckpointWorkers) (context : CommitContext)
    (payload : ThreadEventPayload) :
    (s.commit js context payload).turns.checkpointOf
      = fun turnId ↦ TurnTable.columnsAfter payload turnId (s.turns.checkpointOf turnId) :=
  funext fun turnId ↦ TurnTable.checkpointOf_apply _ _ _ payload turnId

theorem checkpoints_commit (s : CheckpointWorkers) (context : CommitContext)
    (payload : ThreadEventPayload) :
    (s.commit js context payload).thread.checkpoints = heldAfter payload s.thread.checkpoints :=
  threadPatch_checkpoints context.projects context.occurredAt s.thread payload

theorem id_commit (s : CheckpointWorkers) (context : CommitContext)
    (payload : ThreadEventPayload) : (s.commit js context payload).thread.id = s.thread.id :=
  threadPatch_id context.projects context.occurredAt s.thread s.thread payload

theorem placeholder_commit (s : CheckpointWorkers) (context : CommitContext)
    (payload : ThreadEventPayload) : (s.commit js context payload).placeholder = s.placeholder :=
  rfl

/-- No other turn has the number, read off the table. -/
theorem Unclaimed.turnId_eq {checkpoint : OrchestrationCheckpointSummary}
    (h : s.Unclaimed checkpoint) (turnId : TurnId) (columns : CheckpointColumns)
    (hcolumns : s.turns.checkpointOf turnId = some columns)
    (hcount : columns.turnCount = checkpoint.checkpointTurnCount) :
    turnId = checkpoint.turnId := by
  obtain ⟨other, hother, rfl, rfl⟩ := TurnTable.exists_mem_of_checkpointOf hcolumns
  exact h other hother hcount

theorem Uncaptured.status_eq {checkpoint : OrchestrationCheckpointSummary}
    (h : s.Uncaptured checkpoint) (columns : CheckpointColumns)
    (hcolumns : s.turns.checkpointOf checkpoint.turnId = some columns) :
    columns.status = .missing := by
  obtain ⟨other, hother, hturn, rfl⟩ := TurnTable.exists_mem_of_checkpointOf hcolumns
  exact h other hother hturn

/-- What the workers have on the way stays as it was when a placeholder is committed. -/
private theorem Inv.placeholderDispatched (h : s.Inv encode threadId) (context : CommitContext)
    {checkpoint : OrchestrationCheckpointSummary} (hplaceholder : s.placeholder = some checkpoint)
    (hfree : s.Unclaimed checkpoint) (huncaptured : s.Uncaptured checkpoint) :
    Inv encode threadId
      { s.commit js context (.turnDiffCompleted checkpoint) with placeholder := none } where
  id := (id_commit s context _).trans h.id
  numbered := by
    rw [checkpointOf_commit, checkpoints_commit]
    exact h.numbered.diff hfree.turnId_eq huncaptured.status_eq
      fun hstatus ↦ absurd (h.placeholder checkpoint hplaceholder) hstatus
  placeholder := fun _ hnone ↦ nomatch hnone
  capture := by
    intro capture hcapture
    obtain ⟨href, hmissing⟩ := h.capture capture hcapture
    refine ⟨href, fun columns hcolumns ↦ ?_⟩
    simp only [checkpointOf_commit, TurnTable.columnsAfter] at hcolumns
    by_cases hturn : capture.turnId = checkpoint.turnId
    · rw [if_pos hturn, Option.some.injEq] at hcolumns
      exact hcolumns ▸ h.placeholder checkpoint hplaceholder
    · rw [if_neg hturn] at hcolumns
      exact hmissing columns (Option.filter_eq_some_iff.mp hcolumns).1

/-- The reactor has dispatched. -/
private theorem inv_of_dispatched {s' : CheckpointWorkers} (hid : s'.thread.id = threadId)
    (hnumbered : Numbered encode threadId s'.turns.checkpointOf s'.thread.checkpoints)
    (hplaceholder : ∀ checkpoint, s'.placeholder = some checkpoint → checkpoint.status = .missing) :
    Inv encode threadId { s' with reactor := none } :=
  ⟨hid, hnumbered, hplaceholder, fun _ ↦ nofun⟩

private theorem Inv.captureDispatched (h : s.Inv encode threadId) (context : CommitContext)
    {checkpoint : OrchestrationCheckpointSummary}
    (hcapture : s.reactor = some (.capture checkpoint)) (hfree : s.Unclaimed checkpoint) :
    Inv encode threadId
      { s.commit js context (.turnDiffCompleted checkpoint) with reactor := none } := by
  obtain ⟨href, hmissing⟩ := h.capture checkpoint hcapture
  refine inv_of_dispatched ((id_commit s context _).trans h.id) ?_ fun placeholder hplaceholder ↦
    h.placeholder placeholder ((placeholder_commit s context _).symm.trans hplaceholder)
  rw [checkpointOf_commit, checkpoints_commit]
  exact h.numbered.diff hfree.turnId_eq hmissing fun _ ↦ href

private theorem Inv.revertDispatched (h : s.Inv encode threadId) (context : CommitContext)
    (turnCount : ℕ) :
    Inv encode threadId { s.commit js context (.reverted turnCount) with reactor := none } := by
  refine inv_of_dispatched ((id_commit s context _).trans h.id) ?_ fun placeholder hplaceholder ↦
    h.placeholder placeholder ((placeholder_commit s context _).symm.trans hplaceholder)
  rw [checkpointOf_commit, checkpoints_commit]
  exact h.numbered.revert turnCount

private theorem Inv.committed (h : s.Inv encode threadId) (context : CommitContext)
    {payload : ThreadEventPayload} (hother : payload.isOther = true) :
    Inv encode threadId (s.commit js context payload) where
  id := (id_commit s context payload).trans h.id
  numbered := by
    rw [checkpointOf_commit, checkpoints_commit]
    exact h.numbered.other hother
  placeholder := h.placeholder
  capture := by
    intro checkpoint hcapture
    obtain ⟨href, hmissing⟩ := h.capture checkpoint hcapture
    refine ⟨href, fun columns hcolumns ↦ hmissing columns ?_⟩
    simpa only [checkpointOf_commit, columnsAfter_of_isOther hother] using hcolumns

/-- **A step that fits keeps the invariant.** -/
theorem Inv.step (h : s.Inv encode threadId) {step : WorkerStep} (hfits : s.Fits step) :
    (s.step js encode step).Inv encode threadId := by
  match step with
  | .diffUpdated turnId eventId assistantMessageId now =>
    rw [CheckpointWorkers.step]
    split
    · exact h
    · exact ⟨h.id, h.numbered, fun _ ↦ status_placeholderFor, h.capture⟩
  | .placeholderDispatched context =>
    rw [CheckpointWorkers.step]
    rcases hplaceholder : s.placeholder with _ | checkpoint
    · exact h
    · obtain ⟨hfree, huncaptured⟩ := hfits checkpoint hplaceholder
      exact h.placeholderDispatched context hplaceholder hfree huncaptured
  | .ingestionFailed => exact ⟨h.id, h.numbered, fun _ ↦ nofun, h.capture⟩
  | .turnEnded turnId status lastMessageId createdAt =>
    rw [CheckpointWorkers.step]
    split
    · exact h
    · refine ⟨h.id, h.numbered, h.placeholder, fun checkpoint hcapture ↦ ?_⟩
      obtain ⟨found, hfound, heq⟩ := Option.map_eq_some_iff.mp hcapture
      obtain rfl := ReactorDispatch.capture.inj heq
      obtain ⟨href, hmissing⟩ := captureFor_spec hfound
      refine ⟨h.id ▸ href, fun columns hcolumns ↦ ?_⟩
      obtain ⟨other, hother, hturn, rfl⟩ := TurnTable.exists_mem_of_checkpointOf hcolumns
      exact hmissing other hother hturn
  | .revertRequested turnCount =>
    rw [CheckpointWorkers.step]
    split
    · exact h
    · exact ⟨h.id, h.numbered, h.placeholder, fun _ hrevert ↦ nomatch hrevert⟩
  | .reactorDispatched context =>
    rw [CheckpointWorkers.step]
    rcases hreactor : s.reactor with _ | ⟨checkpoint | turnCount⟩
    · exact h
    · have hfree : s.Unclaimed checkpoint := hfits checkpoint (by rw [hreactor]; rfl)
      exact h.captureDispatched context hreactor hfree
    · exact h.revertDispatched context turnCount
  | .reactorFailed => exact ⟨h.id, h.numbered, h.placeholder, fun _ hnone ↦ nomatch hnone⟩
  | .committed context payload =>
    rw [CheckpointWorkers.step]
    split
    · rename_i hother
      exact h.committed context hother
    · exact h

/-- A checkpoint of another turn, with a number of its own, leaves the columns of a turn. -/
private theorem checkpointOf_commit_diff (js : JsRuntime)
    {checkpoint : OrchestrationCheckpointSummary}
    (hfree : s.Unclaimed checkpoint) (context : CommitContext) {turnId : TurnId}
    {columns : CheckpointColumns} (hcolumns : s.turns.checkpointOf turnId = some columns)
    (hne : turnId ≠ checkpoint.turnId) :
    (s.commit js context (.turnDiffCompleted checkpoint)).turns.checkpointOf turnId
      = some columns := by
  simp only [checkpointOf_commit]
  rw [columnsAfter_diff hfree.turnId_eq, if_neg hne, hcolumns]

/-- **A step that fits and completes no revert keeps the captured checkpoints.** -/
theorem Inv.keepsCaptures (h : s.Inv encode threadId) {step : WorkerStep} (hfits : s.Fits step)
    (hrevert : s.completesRevert step = false) :
    KeepsCaptures s.checkpoints (s.step js encode step).checkpoints := by
  suffices hkept : ∀ turnId columns, s.turns.checkpointOf turnId = some columns →
      columns.status ≠ .missing →
      (s.step js encode step).turns.checkpointOf turnId = some columns by
    intro checkpoint hcheckpoint hstatus
    exact TurnTable.exists_mem_of_checkpointOf
      (hkept _ _ (TurnTable.checkpointOf_of_mem hcheckpoint) hstatus)
  intro turnId columns hcolumns hstatus
  match step with
  | .diffUpdated .. | .turnEnded .. | .revertRequested _ =>
    rw [CheckpointWorkers.step]
    split <;> exact hcolumns
  | .ingestionFailed | .reactorFailed => exact hcolumns
  | .placeholderDispatched context =>
    rw [CheckpointWorkers.step]
    rcases hplaceholder : s.placeholder with _ | checkpoint
    · exact hcolumns
    · obtain ⟨hfree, huncaptured⟩ := hfits checkpoint hplaceholder
      refine checkpointOf_commit_diff js hfree context hcolumns ?_
      rintro rfl
      exact hstatus (huncaptured.status_eq columns hcolumns)
  | .reactorDispatched context =>
    rw [CheckpointWorkers.step]
    rcases hreactor : s.reactor with _ | ⟨checkpoint | turnCount⟩
    · exact hcolumns
    · have hfree : s.Unclaimed checkpoint := hfits checkpoint (by rw [hreactor]; rfl)
      refine checkpointOf_commit_diff js hfree context hcolumns ?_
      rintro rfl
      exact hstatus ((h.capture checkpoint hreactor).2 columns hcolumns)
    · simp [completesRevert, hreactor] at hrevert
  | .committed context payload =>
    rw [CheckpointWorkers.step]
    split
    · rename_i hother
      simpa only [checkpointOf_commit, columnsAfter_of_isOther hother] using hcolumns
    · exact hcolumns

/-- The invariant throughout a run whose dispatches fit. -/
theorem inv_after {run : List WorkerStep} {payload : ThreadCreatedPayload}
    (h : EveryStep (step js encode) Fits (start threadId payload) run) :
    ((start threadId payload).after js encode run).Inv encode threadId :=
  h.foldl_invariant (P := Inv encode threadId) (fun _ _ hinv hfits ↦ hinv.step hfits)
    (inv_start encode threadId payload)

/-- **Each turn has its own checkpoint number**, in every run in which what is dispatched still
fits. -/
theorem eachTurnItsNumber_of_fits (js : JsRuntime) (encode : String → String)
    (threadId : ThreadId) (payload : ThreadCreatedPayload) (run : List WorkerStep)
    (h : EveryStep (step js encode) Fits (start threadId payload) run) :
    EachTurnItsNumber js encode (start threadId payload) run := by
  have hinv : ∀ steps, steps <+: run →
      ((start threadId payload).after js encode steps).Inv encode threadId := by
    rintro steps ⟨rest, rfl⟩
    have hsteps := h.take steps.length
    rw [List.take_left] at hsteps
    exact inv_after hsteps
  refine ⟨fun steps hsteps ↦ (hinv steps hsteps).numbered.ownNumbers_listed,
    fun steps hsteps ↦ (hinv steps hsteps).numbered.ownNumbers_held, ?_⟩
  rintro steps step ⟨rest, rfl⟩ hrevert
  have hfits : ((start threadId payload).after js encode steps).Fits step := by
    rw [List.append_assoc] at h
    exact h.append_cons
  have hstep : (start threadId payload).after js encode (steps ++ [step])
      = ((start threadId payload).after js encode steps).step js encode step := by
    simp only [after, List.foldl_append, List.foldl_cons, List.foldl_nil]
  rw [hstep]
  exact (hinv steps ⟨[step] ++ rest, by rw [List.append_assoc]⟩).keepsCaptures hfits hrevert

/-- A turn with a placeholder that is captured, and the placeholder of the next turn. -/
def timelySteps : List WorkerStep :=
  [.diffUpdated "t" "e" "m" "now", .placeholderDispatched {}, .turnEnded "t" .ready "m" "now",
    .reactorDispatched {}, .diffUpdated "u" "f" "n" "now", .placeholderDispatched {},
    .revertRequested 1, .reactorDispatched {}]

theorem eachTurnItsNumber_timelySteps :
    EachTurnItsNumber plainRuntime (fun s ↦ s) (start "thread" plainThread) timelySteps :=
  eachTurnItsNumber_of_fits plainRuntime (fun s ↦ s) "thread" plainThread timelySteps (by decide)

end CheckpointWorkers

end Awen.Orchestration
