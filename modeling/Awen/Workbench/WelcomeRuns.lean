import Awen.Workbench.DropHistory
import Awen.Workbench.Reload

/-!
# Welcome is exclusive

A Tab that shows Welcome shows nothing else, as long as nothing is put beside a Welcome by one of
the drops of `mixesWelcome`: every other command keeps `WelcomeAlone` of every Tab
(`reaches_welcome_alone`). A Pane dropped on an edge of a Welcome in another Tab does not replace
it, as a Tab dropped there does (`runOps_session_beside_welcome`).
-/

namespace Awen.Workbench

variable {ok : WorkbenchSnapshot → WorkbenchOp → Prop} {supply rest : Stream' String}
  {s : WorkbenchSnapshot}

/-- The snapshots of a run are well formed, and the ids that are left are unused. -/
theorem Reaches.snapshotOk (hfresh : Function.Injective supply.get) (h : Reaches ok supply s rest) :
    ∃ used, SnapshotOk (fun _ ↦ True) used s ∧ Supply.FreshFor rest used := by
  induction h with
  | start s rest empty =>
    have hpost : Supply.Post ∅ emptyWorkbenchSnapshot fun s used' ↦
        SnapshotOk (fun _ ↦ True) used' s ∧ board s.tabs = 0 := emptyWorkbenchSnapshot_post trivial
    obtain ⟨s₁, rest₁, used', hrun, -, hfresh', hok, -⟩ := hpost supply (freshFor_empty hfresh)
    cases hrun.symm.trans empty
    exact ⟨used', hok, hfresh'⟩
  | step s rest op s' rest' _ _ applies ih =>
    obtain ⟨used, hok, hrest⟩ := ih
    obtain ⟨s₁, rest₁, used', hrun, -, hfresh', hok', -⟩ :=
      applyOp_ok hok trivial op (fun _ _ ↦ trivial) rest hrest
    cases hrun.symm.trans applies
    exact ⟨used', hok', hfresh'⟩

/-- In the empty workbench Welcome is alone. -/
theorem emptyWorkbenchSnapshot_welcome_alone
    (empty : emptyWorkbenchSnapshot supply = .ok (s, rest)) :
    ∀ t ∈ s.tabs, WelcomeAlone t.panes := by
  cases empty
  intro t ht
  obtain rfl := List.mem_singleton.mp ht
  exact welcomeAlone_singleton _ _

/-- **Welcome is exclusive.** In no workbench that is reached by commands that open no Welcome and
put no View beside one does a Tab show a Welcome and another View. -/
theorem reaches_welcome_alone (hfresh : Function.Injective supply.get)
    (h : Reaches ShunsWelcome supply s rest) : ∀ t ∈ s.tabs, WelcomeAlone t.panes := by
  induction h with
  | start s rest empty => exact emptyWorkbenchSnapshot_welcome_alone empty
  | step s rest op s' rest' before safe applies ih =>
    obtain ⟨used, hok, hrest⟩ := before.snapshotOk hfresh
    obtain ⟨used', -, -, hchanges⟩ := applyOp_changes hok trivial op rest hrest s' rest' applies
    intro t' ht'
    cases hchanges t' ht' with
    | rewritten t mem rewrites => exact rewrites.alone safe (ih t mem)
    | cleared t mem clears => exact clears.alone
    | opened id_new alone => exact alone safe

/-- A command that is no drop and opens no Welcome. -/
private theorem shunsWelcome_of_target {op : WorkbenchOp}
    (htarget : ∀ target ∈ op.target, target.kind ≠ .welcome)
    (hdrop : ∀ source target, op ≠ .viewDrop source target) : ShunsWelcome s op :=
  ⟨htarget, fun source target heq ↦ absurd heq (hdrop source target)⟩

/-- The Session of the runs below. -/
def testSession : ViewTarget := { body := .agentSession "e" "w" "a" }

theorem reaches_welcome_alone_open_create :
    ∃ s rest, runOps [.openTarget testSession, .createTab] testSupply = .ok (s, rest) ∧
      (∀ t ∈ s.tabs, WelcomeAlone t.panes) := by
  refine ⟨_, _, rfl, reaches_welcome_alone testSupply_injective (.step _ _ .createTab _ _
    (.step _ _ (.openTarget testSession) _ _ (.start _ _ rfl) (shunsWelcome_of_target ?_ ?_) rfl)
    (shunsWelcome_of_target ?_ ?_) rfl)⟩
  · rintro target ⟨⟩
    decide
  · exact fun _ _ heq ↦ nomatch heq
  · exact fun _ hnone ↦ nomatch hnone
  · exact fun _ _ heq ↦ nomatch heq

/-- A Session that is dropped on the right edge of a Welcome in another Tab stands beside it, though
no command opened a Welcome. -/
theorem runOps_session_beside_welcome :
    ∃ ops : List WorkbenchOp, (∀ op ∈ ops, ∀ target ∈ op.target, target.kind ≠ .welcome) ∧
      ∃ s rest, runOps ops testSupply = .ok (s, rest) ∧ ∃ t ∈ s.tabs, ¬WelcomeAlone t.panes := by
  refine ⟨[.openTarget testSession, .createTab,
    .viewDrop (.pane "xx" "x") (.pane "xxxxxx" "xxxxx" (.edge .right))], ?_, _, _, rfl, _,
    List.mem_cons_of_mem _ (List.mem_singleton_self _), fun halone ↦ ?_⟩
  · decide
  · have heq := halone _ List.mem_cons_self rfl _ (List.mem_cons_of_mem _ (List.mem_singleton_self _))
    exact absurd (congrArg Prod.fst heq) (by decide)

end Awen.Workbench
