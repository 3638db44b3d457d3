import Awen.Orchestration.Contracts

/-!
# The reads behind the shell stream

For an event the shell stream refetches the aggregate that it is about, and tells the clients that
the aggregate is there or gone. A read is tried twice. `retryShellProjectionRead` keeps apart a read
that has failed and a read that has found nothing, but its callers flatten the two before they look,
so that an aggregate whose read fails twice is told to be gone.
-/

namespace Awen.Orchestration

/-! ## Reads -/

/-- What an attempt of a read comes to. -/
inductive ReadOutcome (α : Type) where
  | succeeded (value : α)
  | failed
  | died
  deriving DecidableEq

/-- A read, by its first attempt and the one that follows a failure. -/
structure ProjectionRead (α : Type) where
  first : ReadOutcome α
  second : ReadOutcome α

def ReadOutcome.map {α β : Type} (f : α → β) : ReadOutcome α → ReadOutcome β
  | .succeeded value => .succeeded (f value)
  | .failed => .failed
  | .died => .died

def ProjectionRead.map {α β : Type} (f : α → β) (read : ProjectionRead α) : ProjectionRead β :=
  ⟨read.first.map f, read.second.map f⟩

/-- `Effect.succeed` -/
def ProjectionRead.succeed {α : Type} (value : α) : ProjectionRead α :=
  ⟨.succeeded value, .succeeded value⟩

/-- A failure is retried once and a defect is not; what is left of either is no value. -/
def retryShellProjectionRead {α : Type} (read : ProjectionRead α) : Option α :=
  match read.first with
  | .succeeded value => some value
  | .died => none
  | .failed =>
    match read.second with
    | .succeeded value => some value
    | .failed | .died => none

/-- The read has come to a value, in either attempt. -/
def ProjectionRead.Succeeds {α : Type} (read : ProjectionRead α) (value : α) : Prop :=
  read.first = .succeeded value ∨ read.first = .failed ∧ read.second = .succeeded value

theorem retryShellProjectionRead_eq_some {α : Type} {read : ProjectionRead α} {value : α} :
    retryShellProjectionRead read = some value ↔ read.Succeeds value := by
  obtain ⟨first, second⟩ := read
  cases first with
  | succeeded found => simp [retryShellProjectionRead, ProjectionRead.Succeeds]
  | died => simp [retryShellProjectionRead, ProjectionRead.Succeeds]
  | failed => cases second <;> simp [retryShellProjectionRead, ProjectionRead.Succeeds]

theorem ProjectionRead.succeeds_map {α β : Type} {f : α → β} {read : ProjectionRead α} {b : β} :
    (read.map f).Succeeds b ↔ ∃ value, read.Succeeds value ∧ f value = b := by
  obtain ⟨first, second⟩ := read
  cases first with
  | succeeded found => simp [Succeeds, map, ReadOutcome.map]
  | died => simp [Succeeds, map, ReadOutcome.map]
  | failed => cases second <;> simp [Succeeds, map, ReadOutcome.map]

/-- **What is left of a read that is flattened**: a row, or that there is none, or that it has
failed. -/
theorem join_retry_eq_none {α : Type} {read : ProjectionRead (Option α)} :
    (retryShellProjectionRead read).join = none ↔ ∀ row, ¬read.Succeeds (some row) := by
  rw [Option.eq_none_iff_forall_not_mem]
  refine forall_congr' fun row ↦ not_congr ?_
  rw [Option.mem_def, Option.join_eq_some_iff, retryShellProjectionRead_eq_some]

/-- It is the same for a read that has found no row and for one that has found nothing out. -/
theorem join_retry_eq_none_iff {α : Type} {read : ProjectionRead (Option α)} :
    (retryShellProjectionRead read).join = none ↔ ¬(read.map Option.isSome).Succeeds true := by
  rw [join_retry_eq_none, ProjectionRead.succeeds_map]
  constructor
  · rintro h ⟨value, hread, hsome⟩
    obtain ⟨row, rfl⟩ := Option.isSome_iff_exists.mp hsome
    exact h row hread
  · intro h row hread
    exact h ⟨some row, hread, rfl⟩

/-! ## Shell items -/

variable {Project Thread AwenProject : Type}

/-- The reads of `ProjectionSnapshotQuery` that the shell stream makes for an event. A service need
not have those that find the Awen project. -/
structure ShellQuery (Project Thread AwenProject : Type) where
  projectId : Thread → ProjectId
  getProjectShellById : ProjectId → ProjectionRead (Option Project)
  getThreadShellById : ThreadId → ProjectionRead (Option Thread)
  getAwenProjectByAwenProjectId : Option (ProjectId → ProjectionRead (Option AwenProject))
  getAwenProjectByThreadId : Option (ThreadId → ProjectionRead (Option AwenProject))

inductive ShellEventType where
  | projectCreated
  | projectMetaUpdated
  | projectDeleted
  | threadDeleted
  | threadArchived
  | threadUnarchived
  | other
  deriving DecidableEq

inductive AggregateKind where
  | project
  | thread
  deriving DecidableEq

structure ShellEvent where
  type : ShellEventType
  aggregateKind : AggregateKind
  aggregateId : String
  sequence : ℕ

inductive OrchestrationShellStreamEvent (Project Thread AwenProject : Type) where
  | projectUpserted (sequence : ℕ) (project : Project) (awenProject : Option AwenProject)
  | projectRemoved (sequence : ℕ) (projectId : ProjectId) (awenProjectId : Option String)
      (awenProject : Option AwenProject)
  | threadUpserted (sequence : ℕ) (thread : Thread) (awenProject : Option AwenProject)
  | threadRemoved (sequence : ℕ) (threadId : ThreadId) (awenProject : Option AwenProject)

namespace OrchestrationShellStreamEvent

/-- The item takes something out of a shell. -/
def IsRemoval : OrchestrationShellStreamEvent Project Thread AwenProject → Prop
  | projectRemoved .. | threadRemoved .. => True
  | projectUpserted .. | threadUpserted .. => False

end OrchestrationShellStreamEvent

def awenProjectIdForAwenProject (projectId : ProjectId) : String := "awen-project:" ++ projectId

namespace ShellQuery

variable (query : ShellQuery Project Thread AwenProject)

def awenProjectOfProject (projectId : ProjectId) : Option AwenProject :=
  (retryShellProjectionRead
    ((query.getAwenProjectByAwenProjectId.map fun read ↦ read projectId).getD (.succeed none))).join

def awenProjectOfThread (threadId : ThreadId) : Option AwenProject :=
  (retryShellProjectionRead
    ((query.getAwenProjectByThreadId.map fun read ↦ read threadId).getD (.succeed none))).join

def projectUpsertOrRemove (projectId : ProjectId) (sequence : ℕ) :
    Option (OrchestrationShellStreamEvent Project Thread AwenProject) :=
  -- a failed read and a missing row are the same from here on
  match (retryShellProjectionRead (query.getProjectShellById projectId)).join with
  | none => some (.projectRemoved sequence projectId (awenProjectIdForAwenProject projectId) none)
  | some nextProject =>
    some (.projectUpserted sequence nextProject (query.awenProjectOfProject projectId))

def threadUpsertOrRemove (threadId : ThreadId) (sequence : ℕ) :
    Option (OrchestrationShellStreamEvent Project Thread AwenProject) :=
  match (retryShellProjectionRead (query.getThreadShellById threadId)).join with
  | none => some (.threadRemoved sequence threadId (query.awenProjectOfThread threadId))
  | some nextThread =>
    some (.threadUpserted sequence nextThread
      (query.awenProjectOfProject (query.projectId nextThread)))

/-- **The shell item of an event.** -/
def toShellStreamEvent (event : ShellEvent) :
    Option (OrchestrationShellStreamEvent Project Thread AwenProject) :=
  match event.type with
  | .projectCreated | .projectMetaUpdated =>
    query.projectUpsertOrRemove event.aggregateId event.sequence
  | .projectDeleted =>
    match query.awenProjectOfProject event.aggregateId with
    | some awenProject =>
      some (.projectRemoved event.sequence event.aggregateId none (some awenProject))
    | none =>
      some (.projectRemoved event.sequence event.aggregateId
        (awenProjectIdForAwenProject event.aggregateId) none)
  | .threadDeleted | .threadArchived | .threadUnarchived =>
    query.threadUpsertOrRemove event.aggregateId event.sequence
  | .other =>
    if event.aggregateKind ≠ .thread then none
    else query.threadUpsertOrRemove event.aggregateId event.sequence

/-! ## What a removal says -/

/-- The read of the aggregate of an event, and whether it finds a row. Of a deleted project and for
the other events of a project nothing is read. -/
def presence (event : ShellEvent) : Option (ProjectionRead Bool) :=
  let project := (query.getProjectShellById event.aggregateId).map Option.isSome
  let thread := (query.getThreadShellById event.aggregateId).map Option.isSome
  match event.type with
  | .projectCreated | .projectMetaUpdated => some project
  | .projectDeleted => none
  | .threadDeleted | .threadArchived | .threadUnarchived => some thread
  | .other => if event.aggregateKind = .thread then some thread else none

/-- **Nothing is removed on a failed read**: a removal is told only where a read of the aggregate
has succeeded and found no row, and nothing is told where both attempts have failed. -/
def RemovesOnlyAbsent (event : ShellEvent) : Prop :=
  ∀ read ∈ query.presence event,
    (∀ item ∈ query.toShellStreamEvent event, item.IsRemoval → read.Succeeds false) ∧
      (read = ⟨.failed, .failed⟩ → query.toShellStreamEvent event = none)

variable {query}

open OrchestrationShellStreamEvent (IsRemoval)

theorem isRemoval_projectUpsertOrRemove (projectId : ProjectId) (sequence : ℕ) :
    ∃ item, query.projectUpsertOrRemove projectId sequence = some item ∧
      (item.IsRemoval ↔
        ¬((query.getProjectShellById projectId).map Option.isSome).Succeeds true) := by
  rw [← join_retry_eq_none_iff]
  cases hread : (retryShellProjectionRead (query.getProjectShellById projectId)).join with
  | none => exact ⟨_, by rw [projectUpsertOrRemove, hread], by simp [IsRemoval]⟩
  | some project => exact ⟨_, by rw [projectUpsertOrRemove, hread], by simp [IsRemoval]⟩

theorem isRemoval_threadUpsertOrRemove (threadId : ThreadId) (sequence : ℕ) :
    ∃ item, query.threadUpsertOrRemove threadId sequence = some item ∧
      (item.IsRemoval ↔
        ¬((query.getThreadShellById threadId).map Option.isSome).Succeeds true) := by
  rw [← join_retry_eq_none_iff]
  cases hread : (retryShellProjectionRead (query.getThreadShellById threadId)).join with
  | none => exact ⟨_, by rw [threadUpsertOrRemove, hread], by simp [IsRemoval]⟩
  | some thread => exact ⟨_, by rw [threadUpsertOrRemove, hread], by simp [IsRemoval]⟩

/-- **What is told of an aggregate that is read**: that it is gone, exactly when no attempt has
found a row. -/
theorem isRemoval_toShellStreamEvent {event : ShellEvent} {read : ProjectionRead Bool}
    (hread : read ∈ query.presence event) :
    ∃ item, query.toShellStreamEvent event = some item ∧
      (item.IsRemoval ↔ ¬read.Succeeds true) := by
  obtain ⟨type, aggregateKind, aggregateId, sequence⟩ := event
  cases type with
  | projectCreated | projectMetaUpdated =>
    obtain rfl := Option.some.inj hread
    exact isRemoval_projectUpsertOrRemove aggregateId sequence
  | projectDeleted => exact nomatch hread
  | threadDeleted | threadArchived | threadUnarchived =>
    obtain rfl := Option.some.inj hread
    exact isRemoval_threadUpsertOrRemove aggregateId sequence
  | other =>
    cases aggregateKind with
    | project => exact nomatch hread
    | thread =>
      obtain rfl := Option.some.inj hread
      exact isRemoval_threadUpsertOrRemove aggregateId sequence

/-- **Nothing is removed on a failed read exactly where no read fails**: where an aggregate is read,
one of the two attempts succeeds. -/
theorem removesOnlyAbsent_iff (query : ShellQuery Project Thread AwenProject) (event : ShellEvent) :
    query.RemovesOnlyAbsent event ↔
      ∀ read ∈ query.presence event, ∃ present, read.Succeeds present := by
  refine forall₂_congr fun read hread ↦ ?_
  obtain ⟨item, hitem, hremoval⟩ := isRemoval_toShellStreamEvent hread
  constructor
  · rintro ⟨habsent, -⟩
    by_cases hpresent : read.Succeeds true
    · exact ⟨true, hpresent⟩
    · exact ⟨false, habsent item hitem (hremoval.mpr hpresent)⟩
  · rintro ⟨present, hsucceeds⟩
    constructor
    · intro item' hitem' hgone
      obtain rfl := Option.some.inj (hitem.symm.trans hitem')
      cases present with
      | false => exact hsucceeds
      | true => exact absurd hsucceeds (hremoval.mp hgone)
    · rintro rfl
      obtain h | ⟨-, h⟩ := hsucceeds <;> exact nomatch h

/-- A service whose reads of threads fail. -/
def failingThreads : ShellQuery Unit Unit Unit where
  projectId _ := "p"
  getProjectShellById _ := .succeed (some ())
  getThreadShellById _ := ⟨.failed, .failed⟩
  getAwenProjectByAwenProjectId := none
  getAwenProjectByThreadId := none

/-- **A thread is told to be gone** because its row could not be read. -/
theorem not_removesOnlyAbsent_failingThreads :
    ¬failingThreads.RemovesOnlyAbsent ⟨.other, .thread, "t", 1⟩ := by
  intro h
  exact nomatch (h _ rfl).2 rfl

end ShellQuery

end Awen.Orchestration
