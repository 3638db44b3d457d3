import Awen.Library.Groups
import Awen.Library.Runs
import Awen.Panel.RightPanelForm

/-!
# Runs of the right panel

The form of the records in the store: a step keeps it exactly if it meets what it relies on, and the
migration gives it exactly if it tells apart the change requests, whose surfaces get the ids of
their references. From this, `rightPanel_wellFormed_iff` says of a whole run when the store is well
formed at all times.
-/

namespace Awen.Panel

/-! ## The store -/

/-- Every thread has a well-formed record. -/
def RightPanelStore.WellFormed (s : RightPanelStore) : Prop :=
  ∀ threadKey, (s.thread threadKey).WellFormed

/-- What an action of the store relies on. -/
def RightPanelStore.Accepts (s : RightPanelStore) : StoreAction → Prop
  | .act threadKey action => (s.thread threadKey).Accepts action
  | _ => True

/-- A record that is not kept says nothing. -/
theorem eq_of_isBlank {t : ThreadRightPanelState} (h : t.isBlank = true) : t = {} := by
  rw [ThreadRightPanelState.isBlank, Bool.and_eq_true, Bool.and_eq_true, Bool.and_eq_true,
    Bool.not_eq_true', Option.isNone_iff_eq_none, decide_eq_true_eq, decide_eq_true_eq,
    List.length_eq_zero_iff, List.length_eq_zero_iff] at h
  obtain ⟨⟨⟨hopen, hactive⟩, hsurfaces⟩, hdismissed⟩ := h
  cases t
  subst hopen hactive hsurfaces hdismissed
  rfl

theorem get_updateThread (byThreadKey : OrderedMap String ThreadRightPanelState)
    (threadKey : String) (updater : ThreadRightPanelState → ThreadRightPanelState) :
    ((updateThread byThreadKey threadKey updater).get threadKey).getD {} =
      updater ((byThreadKey.get threadKey).getD {}) := by
  rw [updateThread]
  split
  next hblank => rw [OrderedMap.get_delete_self, eq_of_isBlank hblank, Option.getD_none]
  next => rw [OrderedMap.get_set_self, Option.getD_some]

theorem get_updateThread_of_ne (byThreadKey : OrderedMap String ThreadRightPanelState)
    {threadKey other : String} (hne : other ≠ threadKey)
    (updater : ThreadRightPanelState → ThreadRightPanelState) :
    (updateThread byThreadKey threadKey updater).get other = byThreadKey.get other := by
  rw [updateThread]
  split
  · exact OrderedMap.get_delete_of_ne hne
  · exact OrderedMap.get_set_of_ne hne

namespace RightPanelStore

variable (text : PanelText) (s : RightPanelStore)

/-- What an action makes of the record of its thread. -/
theorem thread_act_self (threadKey : String) (action : ThreadAction) :
    (s.act text threadKey action).thread threadKey =
      if action.isAutomatic then (s.thread threadKey).update text action
      else (s.thread threadKey).dismissRemoved ((s.thread threadKey).update text action) := by
  rw [act]
  split
  · rw [automaticUpdate, thread, get_updateThread, thread]
  · rw [userAction, thread, get_updateThread, thread]

theorem thread_act_of_ne {threadKey other : String} (hne : other ≠ threadKey)
    (action : ThreadAction) : (s.act text threadKey action).thread other = s.thread other := by
  rw [act]
  split
  · rw [automaticUpdate, thread, get_updateThread_of_ne _ hne, thread]
  · rw [userAction, thread, get_updateThread_of_ne _ hne, thread]

theorem thread_openProactive_self (threadKey : String) (surface : ProactiveSurface)
    (revision : ℕ) :
    (s.openProactive threadKey surface revision).thread threadKey = s.thread threadKey ∨
      (s.openProactive threadKey surface revision).thread threadKey =
        (s.thread threadKey).upsertSurface surface.surface := by
  rw [openProactive]
  split
  · exact .inl rfl
  · split
    · exact .inl rfl
    · exact .inr (get_updateThread _ _ _)

theorem thread_openProactive_of_ne {threadKey other : String} (hne : other ≠ threadKey)
    (surface : ProactiveSurface) (revision : ℕ) :
    (s.openProactive threadKey surface revision).thread other = s.thread other := by
  rw [openProactive]
  split
  · rfl
  · split
    · rfl
    · rw [automaticUpdate, thread, get_updateThread_of_ne _ hne, thread]

theorem thread_removeThread_self (threadKey : String) :
    (s.removeThread threadKey).thread threadKey = {} := by
  rw [thread, removeThread, OrderedMap.get_delete_self, Option.getD_none]

theorem thread_removeThread_of_ne {threadKey other : String} (hne : other ≠ threadKey) :
    (s.removeThread threadKey).thread other = s.thread other := by
  rw [thread, removeThread, OrderedMap.get_delete_of_ne hne, thread]

end RightPanelStore

/-- What a user action adds does not touch the form. -/
theorem wellFormed_dismissRemoved_iff {current next : ThreadRightPanelState} :
    (current.dismissRemoved next).WellFormed ↔ next.WellFormed := by
  rw [ThreadRightPanelState.dismissRemoved]
  split
  · rfl
  · exact ⟨fun h ↦ ⟨h.surfaces, h.active_mem, h.hasChoice⟩,
      fun h ↦ ⟨h.surfaces, h.active_mem, h.hasChoice⟩⟩

theorem wellFormed_empty : ThreadRightPanelState.WellFormed {} :=
  ⟨.nil, fun _ hactive ↦ (nomatch hactive), nofun⟩

/-- **A step keeps the store well formed exactly if it meets what it relies on.** -/
theorem RightPanelStore.wellFormed_perform_iff (text : PanelText) {s : RightPanelStore}
    (h : s.WellFormed) (action : StoreAction) :
    (s.perform text action).WellFormed ↔ s.Accepts action := by
  cases action with
  | act threadKey action =>
    have hself : ((s.act text threadKey action).thread threadKey).WellFormed ↔
        (s.thread threadKey).Accepts action := by
      rw [thread_act_self]
      split
      · exact ThreadRightPanelState.wellFormed_update_iff text (h threadKey) action
      · rw [wellFormed_dismissRemoved_iff]
        exact ThreadRightPanelState.wellFormed_update_iff text (h threadKey) action
    refine ⟨fun hwf ↦ hself.mp (hwf threadKey), fun haccepts other ↦ ?_⟩
    by_cases hne : other = threadKey
    · exact hne ▸ hself.mpr haccepts
    · change ((s.act text threadKey action).thread other).WellFormed
      rw [thread_act_of_ne text s hne]
      exact h other
  | openProactive threadKey surface revision =>
    refine iff_of_true (fun other ↦ ?_) trivial
    change ((s.openProactive threadKey surface revision).thread other).WellFormed
    by_cases hne : other = threadKey
    · subst hne
      rcases s.thread_openProactive_self other surface revision with hsame | hopened
      · exact hsame ▸ h other
      · rw [hopened]
        exact ThreadRightPanelState.wellFormed_upsertSurface (h other).surfaces
          (by cases surface <;> trivial)
    · rw [s.thread_openProactive_of_ne hne]
      exact h other
  | removeThread threadKey =>
    refine iff_of_true (fun other ↦ ?_) trivial
    change ((s.removeThread threadKey).thread other).WellFormed
    by_cases hne : other = threadKey
    · subst hne
      rw [thread_removeThread_self]
      exact wellFormed_empty
    · rw [s.thread_removeThread_of_ne hne]
      exact h other

/-! ## Migration -/

/-- The id that a surface is stored under. -/
def StoredSurface.id : StoredSurface → SurfaceId
  | plan id => id
  | preview name resourceId => (RightPanelSurface.preview name resourceId).id
  | device name target title => (RightPanelSurface.device name target title).id
  | terminal id _ _ _ _ => id
  | diff => .diff
  | files => .files
  | file (.path relativePath) _ _ _ _ => .file relativePath
  | file (.attachment id) _ _ _ _ => .attachment id
  | pullRequest id _ _ _ _ _ _ => id
  | pullRequests => .pullRequests
  | agents => .agents

/-- **A stored surface is well typed**: its id is one of its kind in some version. -/
def StoredSurface.IsWellTyped : StoredSurface → Prop
  | plan id => ∃ text, id = .other text
  | terminal id _ _ _ _ => ∃ name, id = .terminal name
  | pullRequest id _ _ _ _ _ _ =>
    id = .other "pull-request" ∨ ∃ reference, id = .pullRequest reference
  | _ => True

/-- The surfaces of a stored record are well typed and have distinct ids. -/
structure StoredThreadState.IsWellTyped (stored : StoredThreadState) : Prop where
  wellTyped : ∀ surface ∈ stored.surfaces.getD [], surface.IsWellTyped
  nodup_ids : ((stored.surfaces.getD []).map (·.id)).Nodup

section Migration

variable (text : PanelText)

/-- The change requests that are kept are told apart by the ids that they are given. -/
def StoredThreadState.TellsPullRequestsApart (stored : StoredThreadState) : Prop :=
  ((((stored.surfaces.getD []).filterMap (migrateSurface text)).filter
    (·.kind = .pullRequest)).map (·.id)).Nodup

/-- What is kept of a change request is one. -/
theorem migratePullRequest_eq_some {environmentId projectId host repository : Option String}
    {number : Option ℚ} {url : Option String} {surface : RightPanelSurface}
    (h : migratePullRequest text environmentId projectId host repository number url =
      some surface) : ∃ target, surface = pullRequestSurface text target := by
  rw [migratePullRequest.eq_def] at h
  split at h
  · split at h
    · cases h
    · exact ⟨_, (Option.some.inj h).symm⟩
  · cases h

/-- A terminal surface that is kept keeps its id and shows one of its terminals. -/
theorem migrateTerminal_eq_some {id : SurfaceId} {resourceId : Option String}
    {terminalIds : Option (List String)} {activeTerminalId : Option String}
    {splitDirection : Option SplitDirection} {surface : RightPanelSurface}
    (h : migrateTerminal id resourceId terminalIds activeTerminalId splitDirection = some surface) :
    surface.id = id ∧ surface.WellFormed := by
  cases resourceId with
  | none => cases h
  | some resourceId =>
    rw [migrateTerminal.eq_def] at h
    dsimp only at h
    split at h
    · cases h
    next hid =>
      cases h
      refine ⟨(not_not.mp hid).symm, ?_⟩
      have hnodup : (storedTerminalIds resourceId terminalIds).Nodup := by
        cases terminalIds with
        | none => exact List.nodup_singleton _
        | some terminalIds => exact nodup_eraseDups terminalIds
      change TerminalSurface.WellFormed _
      generalize storedTerminalIds resourceId terminalIds = ids at hnodup
      cases ids with
      | nil =>
        refine ⟨List.nodup_singleton _, ?_⟩
        cases activeTerminalId <;> exact List.mem_singleton_self _
      | cons first others =>
        refine ⟨hnodup, ?_⟩
        cases activeTerminalId with
        | none => exact List.mem_cons_self
        | some active =>
          change (if (first :: others).contains active then active else first) ∈ first :: others
          split
          next hcontains => exact List.contains_iff_mem.mp hcontains
          next => exact List.mem_cons_self

/-- **A surface that is kept** is well formed, and it keeps its id unless it is that of a change
request. -/
theorem migrateSurface_eq_some {stored : StoredSurface} {surface : RightPanelSurface}
    (h : migrateSurface text stored = some surface) :
    surface.WellFormed ∧ (surface.kind ≠ .pullRequest → surface.id = stored.id) := by
  cases stored with
  | plan id => cases h
  | file name relativePath revealLine revealRequestId attachment =>
    cases h
    exact ⟨trivial, fun _ ↦ by cases name <;> rfl⟩
  | pullRequest id environmentId projectId host repository number url =>
    obtain ⟨target, rfl⟩ := migratePullRequest_eq_some text h
    rw [pullRequestSurface]
    exact ⟨trivial, fun hkind ↦ absurd rfl hkind⟩
  | terminal id resourceId terminalIds activeTerminalId splitDirection =>
    obtain ⟨hid, hwf⟩ := migrateTerminal_eq_some h
    exact ⟨hwf, fun _ ↦ hid⟩
  | preview name resourceId => cases h; exact ⟨trivial, fun _ ↦ rfl⟩
  | device name target title => cases h; exact ⟨trivial, fun _ ↦ rfl⟩
  | diff => cases h; exact ⟨trivial, fun _ ↦ rfl⟩
  | files => cases h; exact ⟨trivial, fun _ ↦ rfl⟩
  | pullRequests => cases h; exact ⟨trivial, fun _ ↦ rfl⟩
  | agents => cases h; exact ⟨trivial, fun _ ↦ rfl⟩

/-- The ids of change requests are those of no other kind. -/
theorem kind_eq_pullRequest_iff (surface : RightPanelSurface) :
    surface.kind = .pullRequest ↔ ∃ reference, surface.id = .pullRequest reference := by
  cases surface with
  | pullRequest reference target => exact iff_of_true rfl ⟨reference, rfl⟩
  | device name target title =>
    refine iff_of_false (fun h ↦ by cases h) ?_
    rintro ⟨reference, h⟩
    cases name <;> cases h
  | file surface =>
    refine iff_of_false (fun h ↦ by cases h) ?_
    rintro ⟨reference, h⟩
    rw [RightPanelSurface.id] at h
    split at h <;> cases h
  | _ =>
    refine iff_of_false (fun h ↦ by cases h) ?_
    rintro ⟨reference, h⟩
    cases h

/-- **The migrated ids are distinct exactly if those of the change requests are.** -/
theorem nodup_migrated_iff {stored : StoredThreadState} (h : stored.IsWellTyped) :
    (((stored.surfaces.getD []).filterMap (migrateSurface text)).map (·.id)).Nodup ↔
      stored.TellsPullRequestsApart text := by
  rw [StoredThreadState.TellsPullRequestsApart]
  refine ⟨fun hnodup ↦ hnodup.sublist (List.filter_sublist.map _), fun hpull ↦ ?_⟩
  rw [List.Nodup, List.pairwise_map, List.pairwise_filter] at hpull
  rw [List.Nodup, List.pairwise_map]
  have hstored : ((stored.surfaces.getD []).filterMap (migrateSurface text)).Pairwise
      fun surface other ↦ surface.kind ≠ .pullRequest → other.kind ≠ .pullRequest →
        surface.id ≠ other.id := by
    have hids := h.nodup_ids
    rw [List.Nodup, List.pairwise_map] at hids
    refine List.pairwise_filterMap.mpr
      (hids.imp fun hne surface hsurface other hother hkind hkind' ↦ ?_)
    rw [(migrateSurface_eq_some text hsurface).2 hkind,
      (migrateSurface_eq_some text hother).2 hkind']
    exact hne
  refine (hpull.and hstored).imp fun {surface other} hboth heq ↦ ?_
  by_cases hkind : surface.kind = .pullRequest
  · have hkind' := (kind_eq_pullRequest_iff other).mpr
      (heq ▸ (kind_eq_pullRequest_iff surface).mp hkind)
    exact hboth.1 (decide_eq_true hkind) (decide_eq_true hkind') heq
  · refine hboth.2 hkind (fun hkind' ↦ hkind ?_) heq
    exact (kind_eq_pullRequest_iff surface).mpr (heq ▸ (kind_eq_pullRequest_iff other).mp hkind')

/-- The stored active id is that of a surface that is kept. -/
theorem mem_of_persistedActiveSurfaceId {stored : StoredThreadState}
    {surfaces : List RightPanelSurface} {id : SurfaceId}
    (h : stored.persistedActiveSurfaceId surfaces = some id) : id ∈ surfaces.map (·.id) := by
  rw [StoredThreadState.persistedActiveSurfaceId] at h
  split at h
  next hexists => exact ThreadRightPanelState.mem_ids_of_any hexists h
  next =>
    split at h
    · obtain ⟨surface, hsurface, rfl⟩ := Option.map_eq_some_iff.mp h
      exact List.mem_map_of_mem (List.mem_of_find?_eq_some hsurface)
    · cases h

/-- **The migration of a record** gives a well-formed one exactly if it tells the change requests
apart. -/
theorem wellFormed_migrateThreadState_iff {stored : StoredThreadState} (h : stored.IsWellTyped) :
    (migrateThreadState text stored).WellFormed ↔ stored.TellsPullRequestsApart text := by
  rw [← nodup_migrated_iff text h]
  refine ⟨fun hwf ↦ hwf.surfaces.nodup_ids, fun hnodup ↦ ⟨⟨hnodup, ?_⟩, ?_, ?_⟩⟩
  · intro surface hsurface
    obtain ⟨old, -, hold⟩ := List.mem_filterMap.mp hsurface
    exact (migrateSurface_eq_some text hold).1
  · intro id hactive
    rw [migrateThreadState] at hactive ⊢
    cases hpersisted : stored.persistedActiveSurfaceId
        ((stored.surfaces.getD []).filterMap (migrateSurface text)) with
    | some found =>
      rw [hpersisted] at hactive
      cases hactive
      exact mem_of_persistedActiveSurfaceId hpersisted
    | none =>
      rw [hpersisted] at hactive
      dsimp only at hactive
      split at hactive
      · obtain ⟨surface, hsurface, rfl⟩ := Option.map_eq_some_iff.mp hactive
        exact List.mem_map_of_mem (List.mem_of_head? hsurface)
      · cases hactive
  · intro hopen hne
    rw [migrateThreadState] at hopen hne ⊢
    cases hpersisted : stored.persistedActiveSurfaceId
        ((stored.surfaces.getD []).filterMap (migrateSurface text)) with
    | some found => exact nofun
    | none =>
      rw [hpersisted] at hopen
      dsimp only at hopen hne ⊢
      rw [if_pos hopen, ne_eq, Option.map_eq_none_iff, List.head?_eq_none_iff]
      exact hne

end Migration

/-! ## Runs -/

/-- The store after a stored record has been migrated. -/
def migratedStore (text : PanelText) (record : OrderedMap String StoredThreadState) :
    RightPanelStore where
  byThreadKey := migratePersistedRightPanelState text record

/-- The records of all threads are well typed. -/
def IsWellTypedRecord (record : OrderedMap String StoredThreadState) : Prop :=
  ∀ entry ∈ record.entries, entry.2.IsWellTyped

/-- The migration tells the change requests of each thread apart. -/
def TellsPullRequestsApart (text : PanelText) (record : OrderedMap String StoredThreadState) :
    Prop :=
  ∀ entry ∈ record.entries, isPullRequestsPanelKey entry.1 = false →
    entry.2.TellsPullRequestsApart text

theorem get_migratePersistedRightPanelState (text : PanelText)
    (record : OrderedMap String StoredThreadState) {threadKey : String}
    {t : ThreadRightPanelState} :
    (migratePersistedRightPanelState text record).get threadKey = some t ↔
      ∃ stored, (threadKey, stored) ∈ record.entries ∧ isPullRequestsPanelKey threadKey = false ∧
        t = migrateThreadState text stored := by
  rw [OrderedMap.get_eq_some]
  change (threadKey, t) ∈ (record.entries.filter _).map _ ↔ _
  rw [List.mem_map]
  constructor
  · rintro ⟨⟨key, stored⟩, hmem, heq⟩
    obtain ⟨hmem, hkey⟩ := List.mem_filter.mp hmem
    cases heq
    exact ⟨stored, hmem, (Bool.not_eq_true' _).mp hkey, rfl⟩
  · rintro ⟨stored, hmem, hkey, rfl⟩
    exact ⟨(threadKey, stored), List.mem_filter.mpr ⟨hmem, (Bool.not_eq_true' _).mpr hkey⟩, rfl⟩

theorem wellFormed_migratedStore_iff (text : PanelText)
    {record : OrderedMap String StoredThreadState} (h : IsWellTypedRecord record) :
    (migratedStore text record).WellFormed ↔ TellsPullRequestsApart text record := by
  constructor
  · intro hwf entry hentry hkey
    have hget := (get_migratePersistedRightPanelState text record).mpr ⟨entry.2, hentry, hkey, rfl⟩
    have hthread := hwf entry.1
    rw [RightPanelStore.thread, migratedStore, hget, Option.getD_some] at hthread
    exact (wellFormed_migrateThreadState_iff text (h entry hentry)).mp hthread
  · intro hapart threadKey
    rw [RightPanelStore.thread, migratedStore]
    cases hget : (migratePersistedRightPanelState text record).get threadKey with
    | none => exact wellFormed_empty
    | some t =>
      obtain ⟨stored, hmem, hkey, rfl⟩ := (get_migratePersistedRightPanelState text record).mp hget
      exact (wellFormed_migrateThreadState_iff text (h _ hmem)).mpr (hapart _ hmem hkey)

/-- **The right panel is well formed at all times exactly if** the migration has told the change
requests apart, every split or activated terminal surface exists, every panel that is opened by its
flag has an active surface or none at all, and reconciled tabs are distinct. -/
theorem rightPanel_wellFormed_iff (text : PanelText)
    (record : OrderedMap String StoredThreadState) (h : IsWellTypedRecord record)
    (actions : List StoreAction) :
    (∀ reached, reached <+: actions →
        (reached.foldl (RightPanelStore.perform text) (migratedStore text record)).WellFormed) ↔
      TellsPullRequestsApart text record ∧
        EveryStep (RightPanelStore.perform text) RightPanelStore.Accepts
          (migratedStore text record) actions := by
  rw [forall_prefix_foldl_iff fun s action hs ↦ s.wellFormed_perform_iff text hs action,
    wellFormed_migratedStore_iff text h]

/-- The texts of the platform on ids without special characters. -/
def plainText : PanelText where
  encodeURIComponent := id
  toLowerCase := id
  numberText _ := "1"

/-- The closed panel of a version with plans, where the plan was active. -/
def planRecord : OrderedMap String StoredThreadState :=
  .singleton "environment:thread"
    { isOpen := some false
      activeSurfaceId := some (.other "plan")
      surfaces := some [.plan (.other "plan"), .diff]
      dismissedDeviceSurfaceIds := none }

theorem isWellTypedRecord_planRecord : IsWellTypedRecord planRecord :=
  List.forall_mem_singleton.mpr
    { wellTyped := List.forall_mem_cons.mpr ⟨⟨"plan", rfl⟩, List.forall_mem_singleton.mpr trivial⟩
      nodup_ids := by decide }

theorem rightPanel_wellFormed_iff_planRecord :
    (∀ reached, reached <+: [StoreAction.act "environment:thread" .show'] →
        (reached.foldl (RightPanelStore.perform plainText)
          (migratedStore plainText planRecord)).WellFormed) ↔
      TellsPullRequestsApart plainText planRecord ∧
        EveryStep (RightPanelStore.perform plainText) RightPanelStore.Accepts
          (migratedStore plainText planRecord) [.act "environment:thread" .show'] :=
  rightPanel_wellFormed_iff plainText planRecord isWellTypedRecord_planRecord _

/-- **The right panel is not always well formed**: the panel is shown with a diff and nothing
active. -/
theorem not_rightPanel_wellFormed : IsWellTypedRecord planRecord ∧
    ¬((migratedStore plainText planRecord).perform plainText
      (.act "environment:thread" .show')).WellFormed := by
  refine ⟨isWellTypedRecord_planRecord, fun h ↦ ?_⟩
  have hthread : ((migratedStore plainText planRecord).perform plainText
      (.act "environment:thread" .show')).thread "environment:thread" =
      { isOpen := true, activeSurfaceId := none, surfaces := [.diff] } := by decide
  have hform := h "environment:thread"
  rw [hthread] at hform
  exact hform.hasChoice rfl (List.cons_ne_nil _ _) rfl

end Awen.Panel
