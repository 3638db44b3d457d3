import Awen.Panel.RightPanelRuns

/-!
# Dismissed devices

A user action that removes the surface of a device dismisses the device, and an automatic open of a
dismissed device changes nothing. The list of dismissed devices is a part of the record of the
thread. The updates that open a surface build that record anew and leave the list out
(`dismissed_update`), so a device stays dismissed in the runs in which no surface is opened beside
the dismissed devices of a thread (`staysDismissed_of_keeps`). An action of the app is refused as
long as the counts of user actions are not dropped (`staysRefused_of_keeps`).
-/

namespace Awen.Panel

/-! ## Reloads -/

/-- A surface as the store writes it. -/
def RightPanelSurface.stored : RightPanelSurface → StoredSurface
  | preview name resourceId => .preview name resourceId
  | device name target title => .device name target title
  | terminal surface => .terminal (.terminal surface.name) (some surface.resourceId)
      (some surface.terminalIds) (some surface.activeTerminalId) surface.splitDirection
  | diff => .diff
  | files => .files
  | file surface => .file surface.name surface.relativePath (surface.revealLine.map (↑))
      (some surface.revealRequestId) surface.attachment
  | pullRequest reference target => .pullRequest (.pullRequest reference) target.environmentId
      (some target.projectId) target.host (some target.repository) (some target.number) target.url
  | pullRequests => .pullRequests
  | agents => .agents

def ThreadRightPanelState.stored (t : ThreadRightPanelState) : StoredThreadState where
  isOpen := some t.isOpen
  activeSurfaceId := t.activeSurfaceId
  surfaces := some (t.surfaces.map (·.stored))
  dismissedDeviceSurfaceIds := some t.dismissedDeviceSurfaceIds

namespace RightPanelStore

/-- What is written of the store. -/
def partialize (s : RightPanelStore) : OrderedMap String StoredThreadState where
  entries := (s.byThreadKey.entries.filter fun entry ↦ !isPullRequestsPanelKey entry.1).map
    fun entry ↦ (entry.1, entry.2.stored)
  nodup_keys := by
    rw [List.map_map]
    exact s.byThreadKey.nodup_keys.sublist (List.filter_sublist.map _)

/-- A reload reads what has been written. The counts of user actions are gone. -/
def reload (text : PanelText) (s : RightPanelStore) : RightPanelStore :=
  migratedStore text s.partialize

end RightPanelStore

/-- A step of a run: an action of the store, or a reload. -/
inductive PanelStep where
  | action (action : StoreAction)
  | reload
  deriving DecidableEq

def RightPanelStore.step (text : PanelText) (s : RightPanelStore) : PanelStep → RightPanelStore
  | .action action => s.perform text action
  | .reload => s.reload text

/-! ## What the user has chosen -/

namespace PanelStep

/-- A step in which the user acts on a thread. -/
def IsUserAction (threadKey : String) : PanelStep → Prop
  | .action (.act key choice) => key = threadKey ∧ choice.isAutomatic = false
  | _ => False

/-- A step in which the user opens a device. -/
def OpensDevice (text : PanelText) (threadKey : String) (id : SurfaceId) : PanelStep → Prop
  | .action (.act key (.openDevice target false)) =>
    key = threadKey ∧ deviceSurfaceId text target = id
  | _ => False

def RemovesThread (threadKey : String) : PanelStep → Prop
  | .action (.removeThread key) => key = threadKey
  | _ => False

end PanelStep

/-- A thread has a surface with an id. -/
def RightPanelStore.HasSurface (s : RightPanelStore) (threadKey : String) (id : SurfaceId) : Prop :=
  id ∈ (s.thread threadKey).surfaces.map (·.id)

/-- A step in which the user removes the surface of a device. -/
def Dismisses (text : PanelText) (s : RightPanelStore) (threadKey : String) (id : SurfaceId)
    (step : PanelStep) : Prop :=
  step.IsUserAction threadKey ∧
    (∃ surface ∈ (s.thread threadKey).surfaces, surface.hasTarget = true ∧ surface.id = id) ∧
    ¬(s.step text step).HasSurface threadKey id

/-- **A dismissed device stays dismissed** in a run: an automatic open does not bring it back, until
the user opens it or the thread is removed. -/
def StaysDismissed (text : PanelText) (s : RightPanelStore) (steps : List PanelStep) : Prop :=
  ∀ before removal between threadKey target, before ++ removal :: between <+: steps →
    Dismisses text (before.foldl (RightPanelStore.step text) s) threadKey
      (deviceSurfaceId text target) removal →
    (∀ step ∈ between, ¬step.OpensDevice text threadKey (deviceSurfaceId text target) ∧
      ¬step.RemovesThread threadKey) →
    ¬(((before ++ removal :: between).foldl (RightPanelStore.step text) s).act text threadKey
      (.openDevice target true)).HasSurface threadKey (deviceSurfaceId text target)

/-- **The app does not open a surface after the user has acted** in a run: with a revision that was
read before an action of the user, `openProactive` changes nothing. -/
def StaysRefused (text : PanelText) (s : RightPanelStore) (steps : List PanelStep) : Prop :=
  ∀ before between threadKey surface, before ++ between <+: steps →
    (∃ step ∈ between, step.IsUserAction threadKey) →
    ((before ++ between).foldl (RightPanelStore.step text) s).openProactive threadKey surface
        ((before.foldl (RightPanelStore.step text) s).getUserActionRevision threadKey) =
      (before ++ between).foldl (RightPanelStore.step text) s

/-! ## The list of dismissed devices -/

namespace ThreadRightPanelState

/-- The update builds the record anew. -/
def rebuilds (text : PanelText) (t : ThreadRightPanelState) : ThreadAction → Bool
  | .open' _ => true
  | .openDevice target automatic =>
    !(automatic && t.dismissedDeviceSurfaceIds.contains (deviceSurfaceId text target))
  | .openBrowser _ => true
  | .openPullRequest _ => true
  | .openFile _ _ => true
  | .openAttachment _ => true
  | .openTerminal _ => true
  | .toggle kind => !(t.isOpen && t.activeKind = some kind.kind)
  | _ => false

variable {t : ThreadRightPanelState}

theorem dismissed_open' (kind : OpenKind) : (t.open' kind).dismissedDeviceSurfaceIds = [] := by
  cases kind with
  | preview =>
    rw [open']
    split <;> rfl
  | singleton kind => rfl

/-- **An update that builds the record anew forgets the dismissed devices**, and every other one
keeps them. -/
theorem dismissed_update (text : PanelText) (action : ThreadAction) :
    (t.update text action).dismissedDeviceSurfaceIds =
      if t.rebuilds text action then [] else t.dismissedDeviceSurfaceIds := by
  cases action with
  | open' kind => exact dismissed_open' kind
  | openDevice target automatic =>
    rw [update, openDevice, rebuilds]
    cases automatic && t.dismissedDeviceSurfaceIds.contains (deviceSurfaceId text target) with
    | true => rfl
    | false =>
      rw [if_neg Bool.false_ne_true]
      dsimp only
      split <;> rfl
  | openPullRequest target =>
    rw [update, openPullRequest]
    split <;> rfl
  | closeTerminal surfaceId terminalId =>
    rw [update, closeTerminal]
    split
    · rfl
    · dsimp only
      split <;> rfl
  | activateSurface surfaceId =>
    rw [update, activateSurface]
    split <;> rfl
  | closeSurface surfaceId =>
    rw [update, closeSurface]
    split
    · rfl
    · dsimp only
      split <;> rfl
  | closeOtherSurfaces surfaceId =>
    rw [update, closeOtherSurfaces]
    split
    · rfl
    · split <;> rfl
  | closeSurfacesToRight surfaceId =>
    rw [update, closeSurfacesToRight]
    split
    · rfl
    · split <;> rfl
  | closeAllSurfaces =>
    rw [update, closeAllSurfaces]
    split <;> rfl
  | reconcileFileSurfaces workspaceAvailable =>
    rw [update, reconcileFileSurfaces]
    split
    · rfl
    · dsimp only
      split <;> rfl
  | show' =>
    rw [update, show']
    split <;> rfl
  | close =>
    rw [update, close]
    split <;> rfl
  | toggle kind =>
    rw [update, toggle, rebuilds]
    cases t.isOpen && t.activeKind = some kind.kind with
    | true => rfl
    | false => exact dismissed_open' kind
  | _ => rfl

/-- An update that does not build the record anew adds no surface of a device. -/
theorem mem_ids_of_update {text : PanelText} {action : ThreadAction}
    (h : t.rebuilds text action = false) {name : String}
    (hmem : .deviceOf name ∈ (t.update text action).surfaces.map (·.id)) :
    .deviceOf name ∈ t.surfaces.map (·.id) := by
  have hfilter : ∀ {surfaces : List RightPanelSurface} {p : RightPanelSurface → Bool},
      SurfaceId.deviceOf name ∈ (surfaces.filter p).map (·.id) →
        SurfaceId.deviceOf name ∈ surfaces.map (·.id) :=
    fun hmem ↦ (List.filter_sublist.map _).mem hmem
  cases action with
  | openDevice target automatic =>
    rw [rebuilds, Bool.not_eq_false'] at h
    rw [update, openDevice, if_pos h] at hmem
    exact hmem
  | renameDevice surfaceId title =>
    rw [update, renameDevice, map_id_map] at hmem
    · exact hmem
    · intro surface
      cases surface with
      | device name target old =>
        dsimp only
        split <;> cases name <;> rfl
      | _ => rfl
  | splitTerminal surfaceId terminalId direction =>
    rw [update, splitTerminal, id_mapTerminal] at hmem
    · exact hmem
    · exact fun _ ↦ rfl
  | activateTerminal surfaceId terminalId =>
    rw [update, activateTerminal, id_mapTerminal fun surface ↦ by split <;> rfl] at hmem
    exact hmem
  | closeTerminal surfaceId terminalId =>
    rw [update, closeTerminal] at hmem
    split at hmem
    · exact hmem
    · dsimp only at hmem
      split at hmem
      · exact hfilter hmem
      · rw [id_mapTerminal] at hmem
        · exact hmem
        · exact fun _ ↦ rfl
  | activateSurface surfaceId =>
    rw [update, activateSurface] at hmem
    split at hmem <;> exact hmem
  | closeSurface surfaceId =>
    rw [update, closeSurface] at hmem
    split at hmem
    · exact hmem
    · dsimp only at hmem
      split at hmem <;> exact hfilter hmem
  | closeOtherSurfaces surfaceId =>
    rw [update, closeOtherSurfaces] at hmem
    split at hmem
    · exact hmem
    next surface hfind =>
      split at hmem
      · exact hmem
      · rw [List.mem_singleton.mp hmem]
        exact List.mem_map_of_mem (List.mem_of_find?_eq_some hfind)
  | closeSurfacesToRight surfaceId =>
    rw [update, closeSurfacesToRight] at hmem
    split at hmem
    · exact hmem
    · split at hmem
      · exact hmem
      · exact ((List.take_sublist _ _).map _).mem hmem
  | closeAllSurfaces =>
    rw [update, closeAllSurfaces] at hmem
    split at hmem
    · exact hmem
    · cases hmem
  | reconcileBrowserSurfaces tabIds =>
    rw [update, reconcileBrowserSurfaces, List.map_append, List.map_append, List.mem_append,
      List.mem_append] at hmem
    rcases hmem with (hmem | hmem) | hmem
    · exact hfilter hmem
    · exact hfilter hmem
    · obtain ⟨surface, hsurface, heq⟩ := List.mem_map.mp hmem
      obtain ⟨tabId, -, rfl⟩ := List.mem_map.mp hsurface
      obtain ⟨browser, hid, -⟩ := id_browserSurface tabId
      cases heq.symm.trans hid
  | reconcileFileSurfaces workspaceAvailable =>
    rw [update, reconcileFileSurfaces] at hmem
    split at hmem
    · exact hmem
    · dsimp only at hmem
      split at hmem
      · exact hmem
      · exact hfilter hmem
  | show' =>
    rw [update, show'] at hmem
    split at hmem <;> exact hmem
  | close =>
    rw [update, close] at hmem
    split at hmem <;> exact hmem
  | toggleVisibility => exact hmem
  | toggle kind =>
    rw [rebuilds, Bool.not_eq_false'] at h
    rw [update, toggle, if_pos h] at hmem
    exact hmem
  | _ => cases h

/-- A user action dismisses the devices whose surfaces it removes. -/
theorem mem_dismissRemoved_iff {current next : ThreadRightPanelState} {id : SurfaceId} :
    id ∈ (current.dismissRemoved next).dismissedDeviceSurfaceIds ↔
      id ∈ next.dismissedDeviceSurfaceIds ∨
        (∃ surface ∈ current.surfaces, surface.hasTarget = true ∧ surface.id = id) ∧
          id ∉ next.surfaces.map (·.id) := by
  have hremoved : (id ∈ (current.surfaces.filter fun surface ↦
        surface.hasTarget && !has next.surfaces surface.id).map (·.id)) ↔
      (∃ surface ∈ current.surfaces, surface.hasTarget = true ∧ surface.id = id) ∧
        id ∉ next.surfaces.map (·.id) := by
    rw [List.mem_map]
    constructor
    · rintro ⟨surface, hsurface, rfl⟩
      obtain ⟨hmem, hkept⟩ := List.mem_filter.mp hsurface
      rw [Bool.and_eq_true, Bool.not_eq_true', Bool.eq_false_iff, ne_eq, has_iff] at hkept
      exact ⟨⟨surface, hmem, hkept.1, rfl⟩, hkept.2⟩
    · rintro ⟨⟨surface, hmem, htarget, rfl⟩, hnot⟩
      refine ⟨surface, List.mem_filter.mpr ⟨hmem, ?_⟩, rfl⟩
      rw [Bool.and_eq_true, Bool.not_eq_true', Bool.eq_false_iff, ne_eq, has_iff]
      exact ⟨htarget, hnot⟩
  rw [dismissRemoved]
  split
  next hnone =>
    rw [← hremoved, List.length_eq_zero_iff.mp hnone]
    exact (or_iff_left List.not_mem_nil).symm
  next => rw [← hremoved, List.mem_eraseDups, List.mem_append]

theorem surfaces_dismissRemoved (current next : ThreadRightPanelState) :
    (current.dismissRemoved next).surfaces = next.surfaces := by
  rw [dismissRemoved]
  split <;> rfl

end ThreadRightPanelState

/-! ## Dismissed devices -/

/-- A device is dismissed and has no surface. -/
def RightPanelStore.IsDismissed (s : RightPanelStore) (threadKey : String) (id : SurfaceId) :
    Prop :=
  id ∈ (s.thread threadKey).dismissedDeviceSurfaceIds ∧ ¬s.HasSurface threadKey id

/-- **A step forgets no dismissed device**: where it builds a record anew, no device of the thread
is dismissed but one that the step opens for the user. -/
def KeepsDismissals (text : PanelText) (s : RightPanelStore) : PanelStep → Prop
  | .action (.act threadKey choice) => (s.thread threadKey).rebuilds text choice = true →
      ∀ id ∈ (s.thread threadKey).dismissedDeviceSurfaceIds,
        PanelStep.OpensDevice text threadKey id (.action (.act threadKey choice))
  | .action (.openProactive threadKey surface revision) =>
      s.getUserActionRevision threadKey = revision →
        ¬(surface = .diff ∧ (s.thread threadKey).isOpen ∧
          (s.thread threadKey).activeKind = some .pullRequest) →
          (s.thread threadKey).dismissedDeviceSurfaceIds = []
  | .action (.removeThread _) => True
  | .reload => ∀ threadKey, isPullRequestsPanelKey threadKey = true →
      (s.thread threadKey).dismissedDeviceSurfaceIds = []

section Steps

variable {text : PanelText} {s : RightPanelStore} {threadKey name : String}

/-- A user action that removes the surface of a device dismisses it. -/
theorem isDismissed_of_dismisses {id : SurfaceId} {step : PanelStep}
    (h : Dismisses text s threadKey id step) : (s.step text step).IsDismissed threadKey id := by
  obtain ⟨huser, hsurface, hgone⟩ := h
  refine ⟨?_, hgone⟩
  obtain ⟨action⟩ | _ := step
  · cases action with
    | act key choice =>
      obtain ⟨rfl, hchoice⟩ := huser
      rw [RightPanelStore.HasSurface, RightPanelStore.step, RightPanelStore.perform,
        RightPanelStore.thread_act_self, if_neg (Bool.eq_false_iff.mp hchoice),
        ThreadRightPanelState.surfaces_dismissRemoved] at hgone
      rw [RightPanelStore.step, RightPanelStore.perform, RightPanelStore.thread_act_self,
        if_neg (Bool.eq_false_iff.mp hchoice)]
      exact ThreadRightPanelState.mem_dismissRemoved_iff.mpr (.inr ⟨hsurface, hgone⟩)
    | openProactive key surface revision => exact huser.elim
    | removeThread key => exact huser.elim
  · exact huser.elim

theorem id_stored (surface : RightPanelSurface) : surface.stored.id = surface.id := by
  cases surface with
  | file surface =>
    rw [RightPanelSurface.stored, StoredSurface.id.eq_def, RightPanelSurface.id]
    cases surface.name <;> rfl
  | _ => rfl

theorem thread_reload {t : ThreadRightPanelState} (hget : s.byThreadKey.get threadKey = some t)
    (hkey : isPullRequestsPanelKey threadKey = false) :
    (s.reload text).thread threadKey = migrateThreadState text t.stored := by
  have hmigrated := (get_migratePersistedRightPanelState text s.partialize).mpr
    ⟨t.stored, List.mem_map.mpr ⟨(threadKey, t), List.mem_filter.mpr
      ⟨OrderedMap.get_eq_some.mp hget, (Bool.not_eq_true' _).mpr hkey⟩, rfl⟩, hkey, rfl⟩
  rw [RightPanelStore.thread, RightPanelStore.reload, migratedStore, hmigrated, Option.getD_some]

/-- A reload keeps the dismissed devices of a thread and adds no surface. -/
theorem isDismissed_reload (hkey : isPullRequestsPanelKey threadKey = false)
    (h : s.IsDismissed threadKey (.deviceOf name)) :
    (s.reload text).IsDismissed threadKey (.deviceOf name) := by
  obtain ⟨hmem, hnot⟩ := h
  rw [RightPanelStore.HasSurface] at hnot
  rw [RightPanelStore.thread] at hmem hnot
  cases hget : s.byThreadKey.get threadKey with
  | none =>
    rw [hget] at hmem
    exact absurd hmem List.not_mem_nil
  | some t =>
    rw [hget] at hmem hnot
    rw [RightPanelStore.IsDismissed, RightPanelStore.HasSurface, thread_reload hget hkey]
    refine ⟨hmem, fun hback ↦ hnot ?_⟩
    obtain ⟨surface, hsurface, hid⟩ := List.mem_map.mp hback
    obtain ⟨old, hold, hmigrated⟩ := List.mem_filterMap.mp hsurface
    obtain ⟨kept, hkept, rfl⟩ := List.mem_map.mp hold
    have hkind : surface.kind ≠ .pullRequest := fun hkind ↦ by
      obtain ⟨reference, hreference⟩ := (kind_eq_pullRequest_iff surface).mp hkind
      cases hid.symm.trans hreference
    rw [← hid, (migrateSurface_eq_some text hmigrated).2 hkind, id_stored]
    exact List.mem_map_of_mem hkept

/-- **A dismissed device stays dismissed** at a step that forgets none, unless the user opens it or
the thread is removed. -/
theorem isDismissed_step {step : PanelStep} (h : KeepsDismissals text s step)
    (hopen : ¬step.OpensDevice text threadKey (.deviceOf name))
    (hremove : ¬step.RemovesThread threadKey) (hd : s.IsDismissed threadKey (.deviceOf name)) :
    (s.step text step).IsDismissed threadKey (.deviceOf name) := by
  obtain ⟨action⟩ | _ := step
  · cases action with
    | act key choice =>
      change (s.act text key choice).IsDismissed threadKey (.deviceOf name)
      rw [RightPanelStore.IsDismissed, RightPanelStore.HasSurface]
      by_cases hne : threadKey = key
      · subst hne
        obtain ⟨hmem, hnot⟩ := hd
        have hrebuilds : (s.thread threadKey).rebuilds text choice = false :=
          Bool.eq_false_iff.mpr fun hrebuilds ↦ hopen (h hrebuilds _ hmem)
        have hkept : .deviceOf name ∈
            ((s.thread threadKey).update text choice).dismissedDeviceSurfaceIds := by
          rw [ThreadRightPanelState.dismissed_update, hrebuilds, if_neg Bool.false_ne_true]
          exact hmem
        have hgone : .deviceOf name ∉
            ((s.thread threadKey).update text choice).surfaces.map (·.id) :=
          fun hback ↦ hnot (ThreadRightPanelState.mem_ids_of_update hrebuilds hback)
        rw [RightPanelStore.thread_act_self]
        split
        · exact ⟨hkept, hgone⟩
        · rw [ThreadRightPanelState.surfaces_dismissRemoved]
          exact ⟨ThreadRightPanelState.mem_dismissRemoved_iff.mpr (.inl hkept), hgone⟩
      · rw [RightPanelStore.thread_act_of_ne text s hne]
        exact hd
    | openProactive key surface revision =>
      change (s.openProactive key surface revision).IsDismissed threadKey (.deviceOf name)
      by_cases hne : threadKey = key
      · subst hne
        rw [RightPanelStore.openProactive]
        split
        next => exact hd
        next hrevision =>
          split
          next => exact hd
          next hpriority =>
            -- nothing is dismissed where a surface is opened
            exact absurd (h (not_not.mp hrevision) hpriority ▸ hd.1) List.not_mem_nil
      · rw [RightPanelStore.IsDismissed, RightPanelStore.HasSurface,
          s.thread_openProactive_of_ne hne]
        exact hd
    | removeThread key =>
      change (s.removeThread key).IsDismissed threadKey (.deviceOf name)
      rw [RightPanelStore.IsDismissed, RightPanelStore.HasSurface,
        s.thread_removeThread_of_ne (Ne.symm hremove)]
      exact hd
  · refine isDismissed_reload (Bool.eq_false_iff.mpr fun hkey ↦ ?_) hd
    exact absurd (h threadKey hkey ▸ hd.1) List.not_mem_nil

/-- An automatic open of a dismissed device changes nothing in its thread. -/
theorem not_hasSurface_openDevice {target : DeviceTabTarget}
    (h : s.IsDismissed threadKey (deviceSurfaceId text target)) :
    ¬(s.act text threadKey (.openDevice target true)).HasSurface threadKey
      (deviceSurfaceId text target) := by
  rw [RightPanelStore.HasSurface, RightPanelStore.thread_act_self,
    ThreadAction.isAutomatic, if_pos rfl,
    ThreadRightPanelState.update, ThreadRightPanelState.openDevice, Bool.true_and,
    if_pos (List.contains_iff_mem.mpr h.1)]
  exact h.2

end Steps

/-- **In a run that forgets no dismissed device, a dismissed device stays dismissed.** -/
theorem staysDismissed_of_keeps {text : PanelText} {s : RightPanelStore} {steps : List PanelStep}
    (h : EveryStep (RightPanelStore.step text) (KeepsDismissals text) s steps) :
    StaysDismissed text s steps := by
  rintro before removal between threadKey target ⟨after, rfl⟩ hdismisses hbetween
  have hrun := h.append_left.append_right
  have hstart := isDismissed_of_dismisses hdismisses
  rw [List.foldl_append, List.foldl_cons]
  refine not_hasSurface_openDevice (hrun.2.and_mem.foldl_invariant
    (P := fun s ↦ s.IsDismissed threadKey (deviceSurfaceId text target)) ?_ hstart)
  rintro s step hs ⟨hkeeps, hmem⟩
  exact isDismissed_step hkeeps (hbetween step hmem).1 (hbetween step hmem).2 hs

/-! ## Counts of user actions -/

/-- **A step drops no count of user actions**, which removals of threads and reloads do. -/
def KeepsRevisions (s : RightPanelStore) : PanelStep → Prop
  | .action (.removeThread threadKey) => s.getUserActionRevision threadKey = 0
  | .reload => ∀ threadKey, s.getUserActionRevision threadKey = 0
  | _ => True

section Revisions

variable {text : PanelText} {s : RightPanelStore} {threadKey : String}

theorem getUserActionRevision_act (key : String) (choice : ThreadAction) :
    (s.act text key choice).getUserActionRevision threadKey =
      if key = threadKey ∧ choice.isAutomatic = false then s.getUserActionRevision threadKey + 1
      else s.getUserActionRevision threadKey := by
  rw [RightPanelStore.act]
  cases choice.isAutomatic with
  | true => exact (if_neg fun h ↦ Bool.noConfusion h.2).symm
  | false =>
    rw [if_neg Bool.false_ne_true, RightPanelStore.getUserActionRevision,
      RightPanelStore.userAction]
    by_cases hne : key = threadKey
    · subst hne
      rw [OrderedMap.get_set_self, if_pos ⟨rfl, rfl⟩]
      rfl
    · rw [OrderedMap.get_set_of_ne (Ne.symm hne), if_neg fun h ↦ hne h.1]
      rfl

theorem getUserActionRevision_openProactive (key : String)
    (surface : RightPanelStore.ProactiveSurface) (revision : ℕ) :
    (s.openProactive key surface revision).getUserActionRevision threadKey =
      s.getUserActionRevision threadKey := by
  rw [RightPanelStore.openProactive]
  split
  · rfl
  · split <;> rfl

/-- The count of user actions grows at a step that does not drop it. -/
theorem getUserActionRevision_le_step {step : PanelStep} (h : KeepsRevisions s step) :
    s.getUserActionRevision threadKey ≤ (s.step text step).getUserActionRevision threadKey := by
  obtain ⟨action⟩ | _ := step
  · cases action with
    | act key choice =>
      change _ ≤ (s.act text key choice).getUserActionRevision threadKey
      rw [getUserActionRevision_act]
      split
      · exact Nat.le_succ _
      · exact le_rfl
    | openProactive key surface revision =>
      exact (getUserActionRevision_openProactive key surface revision).ge
    | removeThread key =>
      change _ ≤ (s.removeThread key).getUserActionRevision threadKey
      by_cases hne : threadKey = key
      · subst hne
        exact (show s.getUserActionRevision threadKey = 0 from h) ▸ Nat.zero_le _
      · rw [RightPanelStore.getUserActionRevision, RightPanelStore.getUserActionRevision,
          RightPanelStore.removeThread, OrderedMap.get_delete_of_ne hne]
  · exact (h threadKey) ▸ Nat.zero_le _

theorem getUserActionRevision_lt_step {step : PanelStep} (h : step.IsUserAction threadKey) :
    s.getUserActionRevision threadKey < (s.step text step).getUserActionRevision threadKey := by
  obtain ⟨action⟩ | _ := step
  · cases action with
    | act key choice =>
      change _ < (s.act text key choice).getUserActionRevision threadKey
      obtain ⟨rfl, hchoice⟩ := h
      rw [getUserActionRevision_act, if_pos ⟨rfl, hchoice⟩]
      exact Nat.lt_succ_self _
    | openProactive key surface revision => exact h.elim
    | removeThread key => exact h.elim
  · exact h.elim

theorem getUserActionRevision_le_run (threadKey : String) {steps : List PanelStep}
    (h : EveryStep (RightPanelStore.step text) KeepsRevisions s steps) :
    s.getUserActionRevision threadKey ≤
      (steps.foldl (RightPanelStore.step text) s).getUserActionRevision threadKey :=
  h.foldl_invariant (P := fun reached ↦
      s.getUserActionRevision threadKey ≤ reached.getUserActionRevision threadKey)
    (fun _ _ hle hkeeps ↦ hle.trans (getUserActionRevision_le_step hkeeps)) le_rfl

end Revisions

/-- **In a run that drops no count, the app opens nothing after the user has acted.** -/
theorem staysRefused_of_keeps {text : PanelText} {s : RightPanelStore} {steps : List PanelStep}
    (h : EveryStep (RightPanelStore.step text) KeepsRevisions s steps) :
    StaysRefused text s steps := by
  rintro before between threadKey surface ⟨after, rfl⟩ ⟨step, hstep, huser⟩
  have hrun := h.append_left.append_right
  obtain ⟨first, rest, rfl⟩ := List.append_of_mem hstep
  have hlt := ((getUserActionRevision_le_run threadKey hrun.append_left).trans_lt
    (getUserActionRevision_lt_step huser)).trans_le
    (getUserActionRevision_le_run threadKey hrun.append_right.2)
  rw [RightPanelStore.openProactive, if_pos]
  rw [List.foldl_append, List.foldl_append, List.foldl_cons]
  exact hlt.ne'

/-- **The choices of the user are respected**: dismissed devices in the runs that forget none, and
later choices in the runs that drop no count of them. -/
theorem choices_respected (text : PanelText) (s : RightPanelStore) (steps : List PanelStep) :
    (EveryStep (RightPanelStore.step text) (KeepsDismissals text) s steps →
      StaysDismissed text s steps) ∧
    (EveryStep (RightPanelStore.step text) KeepsRevisions s steps → StaysRefused text s steps) :=
  ⟨staysDismissed_of_keeps, staysRefused_of_keeps⟩

/-! ## A device that is dismissed -/

def phone : DeviceTabTarget where
  hostId := "host"
  deviceId := "phone"
  platform := .ios
  name := "Phone"

/-- The user opens a device and closes its surface. -/
def dismissal : List PanelStep :=
  [.action (.act "environment:thread" (.openDevice phone false)),
    .action (.act "environment:thread" (.closeSurface (deviceSurfaceId plainText phone)))]

theorem everyStep_keepsDismissals_dismissal :
    EveryStep (RightPanelStore.step plainText) (KeepsDismissals plainText) {}
      (dismissal ++ [.reload]) := by
  refine ⟨fun _ _ hid ↦ absurd hid List.not_mem_nil, fun hrebuilds ↦ (nomatch hrebuilds),
    fun threadKey hkey ↦ ?_, trivial⟩
  have hne : threadKey ≠ "environment:thread" := by
    rintro rfl
    exact absurd hkey (by decide)
  change ((RightPanelStore.act plainText (RightPanelStore.act plainText {} _ _) _ _).thread
    threadKey).dismissedDeviceSurfaceIds = []
  rw [RightPanelStore.thread_act_of_ne _ _ hne, RightPanelStore.thread_act_of_ne _ _ hne]
  rfl

theorem choices_respected_dismissal :
    StaysDismissed plainText {} (dismissal ++ [.reload]) ∧ StaysRefused plainText {} dismissal :=
  ⟨(choices_respected plainText {} _).1 everyStep_keepsDismissals_dismissal,
    (choices_respected plainText {} _).2 ⟨trivial, trivial, trivial⟩⟩

/-- **A dismissed device comes back**: the surface that the user opens next makes the thread forget
that the device is dismissed. -/
theorem not_staysDismissed :
    ¬StaysDismissed plainText {}
      (dismissal ++ [.action (.act "environment:thread" (.open' (.singleton .diff)))]) := by
  intro h
  refine h [.action (.act "environment:thread" (.openDevice phone false))]
    (.action (.act "environment:thread" (.closeSurface (deviceSurfaceId plainText phone))))
    [.action (.act "environment:thread" (.open' (.singleton .diff)))] "environment:thread" phone
    (List.prefix_rfl) ⟨⟨rfl, rfl⟩, ?_, ?_⟩ ?_ ?_
  · exact ⟨.device (some (deviceSurfaceName plainText phone)) (some phone) none, by decide, rfl, rfl⟩
  · rw [RightPanelStore.HasSurface]
    decide
  · exact List.forall_mem_singleton.mpr ⟨id, id⟩
  · rw [RightPanelStore.HasSurface]
    decide

end Awen.Panel
