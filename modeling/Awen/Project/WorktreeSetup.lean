import Awen.Library.Unicode
import Awen.Orchestration.Contracts

/-!
# Snapshots of a worktree setup

The snapshot that clients render while the first turn of a thread waits for its worktree, and the
changes that a setup makes to it. Texts are kept inside the limits of the contract.
-/

namespace Awen.Project

open Orchestration (ThreadId IsoDateTime)

def worktreeSetupDetailMaxLength : ℕ := 200

def worktreeSetupTailLineMaxLength : ℕ := 400

def worktreeSetupErrorMaxLength : ℕ := 1000

def tailLineLimit : ℕ := 4

inductive WorktreeSetupStageId
  | fetch
  | checkout
  | submodules
  | setupScript
  | agent
  deriving DecidableEq

inductive WorktreeSetupStageStatus
  | pending
  | running
  | done
  | skipped
  | warning
  | failed
  deriving DecidableEq

structure WorktreeSetupStage where
  id : WorktreeSetupStageId
  status : WorktreeSetupStageStatus
  startedAt : Option IsoDateTime
  endedAt : Option IsoDateTime
  percent : Option ℕ
  detail : Option CodeUnits
  tail : List CodeUnits
  deriving DecidableEq

inductive WorktreeSetupPhase
  | running
  | done
  | failed
  | cancelled
  deriving DecidableEq

structure WorktreeSetupScript where
  name : String
  command : String
  terminalId : String
  deriving DecidableEq

structure WorktreeSetupSnapshot where
  threadId : ThreadId
  phase : WorktreeSetupPhase
  startedAt : IsoDateTime
  endedAt : Option IsoDateTime
  branch : Option String
  baseRef : Option String
  worktreePath : Option String
  setupScript : Option WorktreeSetupScript
  stages : List WorktreeSetupStage
  error : Option CodeUnits
  sequence : ℕ
  deriving DecidableEq

/-- `WORKTREE_SETUP_STAGE_ORDER`. -/
def worktreeSetupStageOrder : List WorktreeSetupStageId :=
  [.fetch, .checkout, .submodules, .setupScript, .agent]

/-- Keeps a text inside a limit, ending in an ellipsis when cut. -/
def clampText (text : CodeUnits) (maxLength : ℕ) : CodeUnits :=
  if text.length ≤ maxLength then text else text.take (maxLength - 1) ++ [0x2026]

def clampDetail (detail : Option CodeUnits) : Option CodeUnits :=
  detail.map (clampText · worktreeSetupDetailMaxLength)

def emptyStage (id : WorktreeSetupStageId) : WorktreeSetupStage where
  id
  status := .pending
  startedAt := none
  endedAt := none
  percent := none
  detail := none
  tail := []

/-! ## The changes that a setup makes -/

/-- The fields of a stage that a caller sets; those it leaves out stay. -/
structure StagePatch where
  status : Option WorktreeSetupStageStatus := none
  startedAt : Option (Option IsoDateTime) := none
  endedAt : Option (Option IsoDateTime) := none
  percent : Option (Option ℕ) := none
  detail : Option (Option CodeUnits) := none
  tail : Option (List CodeUnits) := none

def WorktreeSetupStage.patch (entry : WorktreeSetupStage) (patch : StagePatch) :
    WorktreeSetupStage where
  id := entry.id
  status := patch.status.getD entry.status
  startedAt := patch.startedAt.getD entry.startedAt
  endedAt := patch.endedAt.getD entry.endedAt
  percent := patch.percent.getD entry.percent
  detail := (patch.detail.map clampDetail).getD entry.detail
  tail := patch.tail.getD entry.tail

def WorktreeSetupStage.withStatus (entry : WorktreeSetupStage) (status : WorktreeSetupStageStatus)
    (detail : Option (Option CodeUnits)) (at' : IsoDateTime) : WorktreeSetupStage :=
  { entry with
    status
    startedAt := entry.startedAt.or (if status = .pending then none else some at')
    endedAt :=
      if status = .running ∨ status = .pending then none else some (entry.endedAt.getD at')
    detail := (detail.map clampDetail).getD entry.detail }

def WorktreeSetupStage.appendTail (entry : WorktreeSetupStage) (line : CodeUnits) :
    WorktreeSetupStage :=
  let tail := entry.tail ++ [clampText line worktreeSetupTailLineMaxLength]
  { entry with tail := tail.drop (tail.length - tailLineLimit) }

/-- A stage of a setup that ends. -/
def WorktreeSetupStage.finish (entry : WorktreeSetupStage) (phase : WorktreeSetupPhase)
    (endedAt : IsoDateTime) : WorktreeSetupStage :=
  if entry.status = .running then
    { entry with
      status :=
        if phase = .done then .done else if phase = .cancelled then .skipped else .failed
      endedAt := some endedAt }
  else entry

def WorktreeSetupSnapshot.mapStage (snapshot : WorktreeSetupSnapshot)
    (stageId : WorktreeSetupStageId) (f : WorktreeSetupStage → WorktreeSetupStage) :
    WorktreeSetupSnapshot :=
  { snapshot with
    stages := snapshot.stages.map fun entry ↦ if entry.id = stageId then f entry else entry }

/-- What callers ask the tracker to change. -/
inductive SetupUpdate
  | update (mutate : WorktreeSetupSnapshot → WorktreeSetupSnapshot)
  | stage (stageId : WorktreeSetupStageId) (patch : StagePatch)
  | stageStatus (stageId : WorktreeSetupStageId) (status : WorktreeSetupStageStatus)
      (detail : Option (Option CodeUnits)) (at' : IsoDateTime)
  | appendTail (stageId : WorktreeSetupStageId) (line : CodeUnits)

def SetupUpdate.mutate : SetupUpdate → WorktreeSetupSnapshot → WorktreeSetupSnapshot
  | update mutate, snapshot => mutate snapshot
  | stage stageId patch, snapshot => snapshot.mapStage stageId (·.patch patch)
  | stageStatus stageId status detail at', snapshot =>
    snapshot.mapStage stageId (·.withStatus status detail at')
  | appendTail stageId line, snapshot => snapshot.mapStage stageId (·.appendTail line)

/-- How a setup ends. -/
structure SetupOutcome where
  phase : WorktreeSetupPhase
  error : Option CodeUnits := none
  endedAt : IsoDateTime

/-- The snapshot of a setup that has ended. -/
def WorktreeSetupSnapshot.finish (snapshot : WorktreeSetupSnapshot) (outcome : SetupOutcome) :
    WorktreeSetupSnapshot :=
  { snapshot with
    phase := outcome.phase
    endedAt := some outcome.endedAt
    error := outcome.error.map (clampText · worktreeSetupErrorMaxLength)
    stages := snapshot.stages.map (·.finish outcome.phase outcome.endedAt) }

/-- What `begin` is given, and the time at which it is called. -/
structure SetupInput where
  threadId : ThreadId
  branch : Option String
  baseRef : Option String
  stages : List WorktreeSetupStageId
  /-- The fiber whose interruption cancels the setup. -/
  fiber : Option ℕ
  startedAt : IsoDateTime

/-- The first snapshot of a setup. -/
def SetupInput.snapshot (input : SetupInput) (sequence : ℕ) : WorktreeSetupSnapshot where
  threadId := input.threadId
  phase := .running
  startedAt := input.startedAt
  endedAt := none
  branch := input.branch
  baseRef := input.baseRef
  worktreePath := none
  setupScript := none
  stages := (worktreeSetupStageOrder.filter (· ∈ input.stages)).map emptyStage
  error := none
  sequence

end Awen.Project
