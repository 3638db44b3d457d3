import Awen.Orchestration.Commands
import Awen.Orchestration.Projector
import Awen.Shared.Path

/-!
# Preconditions of commands

The checks that the decider makes before it plans an event, with the error each one reports. Every
check is a program in `Except`, and its rule says what holds when it lets a command through.
-/

namespace Awen.Orchestration

/-- Why a command is rejected. -/
inductive OrchestrationCommandRejection
  | invariant (commandType detail : String)
  | threadSettleBlocked (threadId : ThreadId)
  deriving DecidableEq, Repr

/-- What a decision returns: the planned events, or the rejection. -/
abbrev Decision (α : Type) := Except OrchestrationCommandRejection α

/-- Go on if a condition holds; else reject. -/
def ensure (condition : Prop) [Decidable condition] (rejection : OrchestrationCommandRejection) :
    Decision Unit :=
  if condition then .ok () else .error rejection

/-- The value that is there; else reject. -/
def expect {α : Type} (value : Option α) (rejection : OrchestrationCommandRejection) :
    Decision α :=
  match value with
  | some a => .ok a
  | none => .error rejection

section Rules

variable {α β : Type}

theorem bind_eq_ok {x : Decision α} {f : α → Decision β} {b : β} :
    (x >>= f) = .ok b ↔ ∃ a, x = .ok a ∧ f a = .ok b := by
  cases x with
  | error e => simp [bind, Except.bind]
  | ok a => simp [bind, Except.bind]

theorem pure_eq_ok {a b : α} : (pure a : Decision α) = .ok b ↔ a = b := by
  rw [pure, Applicative.toPure, Monad.toApplicative]
  exact Except.ok.injEq a b ▸ Iff.rfl

theorem ensure_bind_eq_ok {p : Prop} [Decidable p] {e : OrchestrationCommandRejection}
    {f : Unit → Decision β} {b : β} : (ensure p e >>= f) = .ok b ↔ p ∧ f () = .ok b := by
  by_cases h : p <;> simp [ensure, h, bind, Except.bind]

theorem expect_bind_eq_ok {x : Option α} {e : OrchestrationCommandRejection}
    {f : α → Decision β} {b : β} :
    (expect x e >>= f) = .ok b ↔ ∃ a, x = some a ∧ f a = .ok b := by
  cases x with
  | none => simp [expect, bind, Except.bind]
  | some a => simp [expect, bind, Except.bind]

end Rules

/-! ## Projects -/

def listThreadsByProjectId (readModel : OrchestrationReadModel) (projectId : ProjectId) :
    List OrchestrationThread :=
  readModel.threads.filter (·.projectId = projectId)

/-- The project with an id, deleted or not. -/
def requireProject (readModel : OrchestrationReadModel) (commandType : String)
    (projectId : ProjectId) : Decision OrchestrationProject :=
  expect (findProject readModel.projects projectId) (.invariant commandType
    s!"Project '{projectId}' does not exist for command '{commandType}'.")

/-- No project has the id, deleted or not. -/
def requireProjectAbsent (readModel : OrchestrationReadModel) (commandType : String)
    (projectId : ProjectId) : Decision Unit :=
  ensure ((findProject readModel.projects projectId).isNone) (.invariant commandType
    s!"Project '{projectId}' already exists and cannot be created twice.")

/-- A project, not deleted and other than the given one, whose root is the same place. -/
def activeProjectAtRoot (js : JsRuntime) (projects : List OrchestrationProject)
    (workspaceRoot : String) (exceptProjectId : ProjectId) : Option OrchestrationProject :=
  projects.find? fun project ↦ project.deletedAt.isNone ∧
    normalizeProjectPathForComparison js project.workspaceRoot =
      normalizeProjectPathForComparison js workspaceRoot ∧ project.id ≠ exceptProjectId

def requireActiveProjectWorkspaceRootAbsent (js : JsRuntime) (readModel : OrchestrationReadModel)
    (commandType : String) (workspaceRoot : String) (exceptProjectId : ProjectId) :
    Decision Unit :=
  match activeProjectAtRoot js readModel.projects workspaceRoot exceptProjectId with
  | none => .ok ()
  | some existing => .error (.invariant commandType
      (s!"Active project '{existing.id}' already exists for workspace root " ++
        s!"'{normalizeProjectPathForComparison js workspaceRoot}'."))

theorem requireActiveProjectWorkspaceRootAbsent_eq_ok {js : JsRuntime}
    {readModel : OrchestrationReadModel} {commandType workspaceRoot : String}
    {exceptProjectId : ProjectId} {u : Unit} :
    requireActiveProjectWorkspaceRootAbsent js readModel commandType workspaceRoot
      exceptProjectId = .ok u ↔
      ∀ p ∈ readModel.projects, p.deletedAt = none →
        normalizeProjectPathForComparison js p.workspaceRoot =
          normalizeProjectPathForComparison js workspaceRoot → p.id = exceptProjectId := by
  rw [requireActiveProjectWorkspaceRootAbsent]
  split
  · rename_i h
    simp only [true_iff, activeProjectAtRoot, List.find?_eq_none] at h ⊢
    intro p hp hdeleted hroot
    by_contra hne
    exact h p hp (by simp [hdeleted, hroot, hne])
  · rename_i existing h
    have hmem := List.mem_of_find?_eq_some h
    have hp := List.find?_some h
    simp only [decide_eq_true_eq, Option.isNone_iff_eq_none] at hp
    simp only [reduceCtorEq, false_iff, not_forall]
    exact ⟨existing, hmem, hp.1, hp.2.1, hp.2.2⟩

/-! ## Threads -/

/-- The thread with an id, deleted or not. -/
def requireThread (readModel : OrchestrationReadModel) (commandType : String)
    (threadId : ThreadId) : Decision OrchestrationThread :=
  expect (findThread readModel.threads threadId) (.invariant commandType
    s!"Thread '{threadId}' does not exist for command '{commandType}'.")

def requireThreadArchived (readModel : OrchestrationReadModel) (commandType : String)
    (threadId : ThreadId) : Decision OrchestrationThread := do
  let thread ← requireThread readModel commandType threadId
  ensure thread.archivedAt.isSome (.invariant commandType
    s!"Thread '{threadId}' is not archived for command '{commandType}'.")
  return thread

def requireThreadNotArchived (readModel : OrchestrationReadModel) (commandType : String)
    (threadId : ThreadId) : Decision OrchestrationThread := do
  let thread ← requireThread readModel commandType threadId
  ensure thread.archivedAt.isNone (.invariant commandType
    s!"Thread '{threadId}' is already archived and cannot handle command '{commandType}'.")
  return thread

/-- Only a thread that is not deleted blocks the creation of one with its id. -/
def requireThreadAbsent (readModel : OrchestrationReadModel) (commandType : String)
    (threadId : ThreadId) : Decision Unit :=
  ensure ((findThread readModel.threads threadId).all (·.deletedAt.isSome))
    (.invariant commandType s!"Thread '{threadId}' already exists and cannot be created twice.")

section Rules

variable {β : Type} {readModel : OrchestrationReadModel} {commandType : String} {b : β}

theorem requireProject_bind_eq_ok {projectId : ProjectId}
    {f : OrchestrationProject → Decision β} :
    (requireProject readModel commandType projectId >>= f) = .ok b ↔
      ∃ project, findProject readModel.projects projectId = some project ∧ f project = .ok b :=
  expect_bind_eq_ok

theorem requireProjectAbsent_bind_eq_ok {projectId : ProjectId} {f : Unit → Decision β} :
    (requireProjectAbsent readModel commandType projectId >>= f) = .ok b ↔
      findProject readModel.projects projectId = none ∧ f () = .ok b := by
  rw [requireProjectAbsent, ensure_bind_eq_ok, Option.isNone_iff_eq_none]

theorem requireThread_bind_eq_ok {threadId : ThreadId} {f : OrchestrationThread → Decision β} :
    (requireThread readModel commandType threadId >>= f) = .ok b ↔
      ∃ thread, findThread readModel.threads threadId = some thread ∧ f thread = .ok b :=
  expect_bind_eq_ok

theorem requireThreadNotArchived_bind_eq_ok {threadId : ThreadId}
    {f : OrchestrationThread → Decision β} :
    (requireThreadNotArchived readModel commandType threadId >>= f) = .ok b ↔
      ∃ thread, findThread readModel.threads threadId = some thread ∧
        thread.archivedAt = none ∧ f thread = .ok b := by
  simp only [requireThreadNotArchived, bind_assoc, pure_bind, requireThread_bind_eq_ok,
    ensure_bind_eq_ok, Option.isNone_iff_eq_none]

theorem requireThreadAbsent_bind_eq_ok {threadId : ThreadId} {f : Unit → Decision β} :
    (requireThreadAbsent readModel commandType threadId >>= f) = .ok b ↔
      (∀ thread, findThread readModel.threads threadId = some thread →
        thread.deletedAt.isSome = true) ∧ f () = .ok b := by
  rw [requireThreadAbsent, ensure_bind_eq_ok]
  cases findThread readModel.threads threadId <;> simp

end Rules

end Awen.Orchestration
