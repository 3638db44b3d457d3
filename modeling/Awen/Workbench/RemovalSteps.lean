import Awen.Workbench.DropSidebar

/-!
# Bulk removal

Closing several Panes of several Tabs at once only takes Views off the board. The Panes of one Tab
are closed one after the other, which is an induction over the ids; the Tabs are rebuilt one after
the other, which is an induction over the Tabs with the rebuilt ones in front.
-/

namespace Awen.Workbench

open LayoutNode

variable {allowed : ViewTarget → Prop} {used used' : Set String}

/-! ## The Panes of one Tab -/

theorem foldlM_closeOnePane_none (paneIds : List String) :
    paneIds.foldlM closeOnePane none = .ok none := by
  induction paneIds with
  | nil => rfl
  | cons paneId paneIds ih =>
    rw [List.foldlM_cons]
    exact ih

/-- Closing Panes one after the other takes the last one, or leaves a layout of the others. -/
theorem foldlM_closeOnePane_spec (paneIds : List String) :
    ∀ {a : AwenTab} {m : OrderedMap String ViewInstance}, HasLeaves a.layout →
      (leafIds a.layout).Perm m.keys → a.focusedPaneId ∈ leafIds a.layout →
      (paneIds.foldlM closeOnePane (some a) = .ok none ∧
        (paneIds.foldl OrderedMap.delete m).entries = []) ∨
      ∃ next, paneIds.foldlM closeOnePane (some a) = .ok (some next) ∧ HasLeaves next.layout ∧
        (WellFormed a.layout → WellFormed next.layout) ∧
        (leafIds next.layout).Perm (paneIds.foldl OrderedMap.delete m).keys ∧
        next.focusedPaneId ∈ leafIds next.layout := by
  induction paneIds with
  | nil => exact fun {a _} hne hperm hfocus ↦ Or.inr ⟨a, rfl, hne, id, hperm, hfocus⟩
  | cons paneId paneIds ih =>
    intro a m hne hperm hfocus
    have hnd : (leafIds a.layout).Nodup := hperm.nodup_iff.mpr m.nodup
    rw [List.foldlM_cons, closeOnePane, List.foldl_cons]
    rcases closeLeaf_spec paneId hne hnd hfocus with
      ⟨hclose, hall⟩ | ⟨next, hclose, -, hne', hwf', hleaves, hfocus'⟩
    · refine Or.inl ?_
      have hnil : (m.delete paneId).entries = [] := by
        rw [← List.map_eq_nil_iff (f := Prod.fst)]
        refine List.eq_nil_iff_forall_not_mem.mpr fun k hk ↦ ?_
        obtain ⟨hk, hne⟩ := OrderedMap.mem_keys_delete.mp hk
        exact hne (hall k (hperm.mem_iff.mpr hk))
      rw [hclose]
      refine ⟨foldlM_closeOnePane_none paneIds, ?_⟩
      rw [OrderedMap.entries_foldl_delete, hnil, List.filter_nil]
    · rw [hclose]
      have hrest : (leafIds next.layout).Perm (m.delete paneId).keys := by
        rw [hleaves, OrderedMap.keys_delete]
        exact hperm.filter _
      rcases ih hne' hrest hfocus' with hnone | ⟨last, hfold, hne'', hwf'', hlast⟩
      · exact Or.inl hnone
      · exact Or.inr ⟨last, hfold, hne'', hwf'' ∘ hwf', hlast⟩

theorem validFocus_spec {a : AwenTab} (hfocus : a.focusedPaneId ∈ leafIds a.layout) :
    validFocus a = .ok a.focusedPaneId := if_pos hfocus

/-- **Closing Panes of one Tab.** -/
theorem removePaneIdsFromTab_post {t : WorkbenchTab} (h : TabOk used t) (paneIds : List String) :
    Supply.Post used (removePaneIdsFromTab t paneIds) fun r used' ↦ TabOk used' r.1 ∧
      r.1.id = t.id ∧
      Refilled used used' (paneIds.foldl OrderedMap.delete t.panes).entries r.1.panes.entries := by
  rw [removePaneIdsFromTab]
  rcases foldlM_closeOnePane_spec paneIds h.layout_wf.hasLeaves h.leaves h.focus_leaf with
    ⟨hfold, hnil⟩ | ⟨next, hfold, -, hwf, hleaves, hfocus⟩
  · refine (Supply.Post.ofExcept hfold (Q := fun o used' ↦ o = none ∧ used' = used)
      ⟨rfl, rfl⟩).bind fun o used₁ _ ⟨ho, hused⟩ ↦ ?_
    subst ho hused
    refine (clearedTab_post h.toTabPre).bind fun t' used₂ _ ⟨hok, hid, hfill⟩ ↦
      Supply.Post.pure ⟨hok, hid, ?_⟩
    rw [hnil]
    exact hfill
  · refine (Supply.Post.ofExcept hfold (Q := fun o used' ↦ o = some next ∧ used' = used)
      ⟨rfl, rfl⟩).bind fun o used₁ _ ⟨ho, hused⟩ ↦ ?_
    subst ho hused
    refine (Supply.Post.ofExcept (validFocus_spec hfocus) (Q := fun f used' ↦
      f = next.focusedPaneId ∧ used' = used₁) ⟨rfl, rfl⟩).bind fun f used₂ _ ⟨hf, hused⟩ ↦ ?_
    subst hf hused
    have hpre : TabPre used₂ { t with
        layout := next.layout
        focusedPaneId := next.focusedPaneId
        panes := paneIds.foldl OrderedMap.delete t.panes } := { h.toTabPre with
      focus_mem := hleaves.mem_iff.mp hfocus
      bsp := fun _ ↦ ⟨hwf h.layout_wf, hleaves⟩ }
    refine (reconcileTab_post hpre).bind fun t' used₃ _ ⟨hok, hsame⟩ ↦
      Supply.Post.pure ⟨hok, hsame.id_eq, ?_⟩
    rw [hsame.panes_eq]
    exact .keep

theorem sublist_foldl_delete (paneIds : List String) (m : OrderedMap String ViewInstance) :
    (paneIds.foldl OrderedMap.delete m).entries.Sublist m.entries := by
  rw [OrderedMap.entries_foldl_delete]
  exact List.filter_sublist

/-! ## All Tabs -/

theorem removeFrom_post {t : WorkbenchTab} (h : TabOk used t) (removals : Removals) :
    Supply.Post used (removeFrom removals t) fun r used' ↦ TabOk used' r.1 ∧ r.1.id = t.id ∧
      ∃ es, es.Sublist t.panes.entries ∧ Refilled used used' es r.1.panes.entries := by
  rw [removeFrom.eq_def]
  split
  · exact Supply.Post.pure ⟨h, rfl, _, List.Sublist.refl _, .keep⟩
  · exact Supply.Post.pure ⟨h, rfl, _, List.Sublist.refl _, .keep⟩
  · exact (removePaneIdsFromTab_post h _).mono fun r used' _ ⟨hok, hid, hfill⟩ ↦
      ⟨hok, hid, _, sublist_foldl_delete _ _, hfill⟩

/-- The Tabs are rebuilt from the left; those in `done` have been. -/
theorem mapM_removeFrom_post (removals : Removals) (hwelcome : allowed welcomeTarget)
    (ts : List WorkbenchTab) : ∀ {used : Set String} (done : List WorkbenchTab),
      TabsOk allowed used (done ++ ts) →
      Supply.Post used (ts.mapM (removeFrom removals)) fun rs used' ↦
        TabsOk allowed used' (done ++ rs.map Prod.fst) ∧
        (rs.map Prod.fst).map (fun t ↦ t.id) = ts.map (fun t ↦ t.id) ∧
        board (rs.map Prod.fst) ≤ board ts := by
  induction ts with
  | nil =>
    intro used done h
    rw [List.mapM_nil]
    exact Supply.Post.pure ⟨h, rfl, le_rfl⟩
  | cons t ts ih =>
    intro used done h
    obtain ⟨-, hok, -, -, hes⟩ := tabsOk_middle.mp h
    rw [List.mapM_cons]
    refine (removeFrom_post hok removals).bind
      fun r used₁ hsub ⟨hok₁, hid₁, es, hsublist, hfill⟩ ↦ ?_
    have hstep : TabsOk allowed used₁ ((done ++ [r.1]) ++ ts) := by
      rw [List.append_assoc, List.singleton_append]
      exact h.replace hsub hok₁ hid₁
        (hfill.entriesOk hwelcome hsub (hes.sublist (hsublist.append_right _)))
    refine (ih _ hstep).bind fun rs used₂ _ ⟨htabs, hids, hboard⟩ ↦ Supply.Post.pure ⟨?_, ?_, ?_⟩
    · rw [List.map_cons]
      rwa [List.append_assoc, List.singleton_append] at htabs
    · rw [List.map_cons, List.map_cons, List.map_cons, hids, hid₁]
    · rw [List.map_cons, board_cons, board_cons]
      refine add_le_add ?_ hboard
      rw [tabBoard, tabBoard, hfill.realEntries_eq, hid₁]
      exact Multiset.map_le_map (realEntries_sublist hsublist)

/-- **Closing Panes of several Tabs** only takes Views off the board. -/
theorem removePaneIdsFromTabs_post {s : WorkbenchSnapshot} (h : SnapshotOk allowed used s)
    (hwelcome : allowed welcomeTarget) (removals : Removals) (policy : EmptiedTabPolicy) :
    Supply.Post used (removePaneIdsFromTabs s removals policy) fun s' used' ↦
      SnapshotOk allowed used' s' ∧ board s'.tabs ≤ board s.tabs := by
  rw [removePaneIdsFromTabs]
  split
  · exact Supply.Post.pure ⟨h, le_rfl⟩
  refine (mapM_removeFrom_post removals hwelcome s.tabs [] h.tabs_ok).bind
    fun rs used₁ _ ⟨htabs, hids, hboard⟩ ↦ ?_
  rw [List.nil_append] at htabs
  have hactive : s.activeTabId ∈ (rs.map Prod.fst).map fun t ↦ t.id := hids ▸ h.active_mem
  dsimp only
  generalize rs.map Prod.fst = tabs at htabs hids hboard hactive
  generalize (rs.filter Prod.snd).map (fun r ↦ r.1.id) = emptied
  split
  · exact Supply.Post.pure ⟨⟨htabs, hactive⟩, hboard⟩
  have hsub : (tabs.filter fun tab ↦ tab.id ∉ emptied).Sublist tabs := List.filter_sublist
  split
  · obtain ⟨t, ht, hid⟩ := List.mem_map.mp hactive
    have hfind : ∃ keeper, ((tabs.find? fun tab ↦ tab.id = s.activeTabId) <|> tabs.head?)
        = some keeper ∧ keeper ∈ tabs := by
      cases hsome : tabs.find? fun tab ↦ tab.id = s.activeTabId with
      | none => exact absurd (List.find?_eq_none.mp hsome t ht) (by simp [hid])
      | some keeper => exact ⟨keeper, rfl, List.mem_of_find?_eq_some hsome⟩
    obtain ⟨keeper, hkeeper, hmem⟩ := hfind
    rw [hkeeper]
    have hone : [keeper].Sublist tabs := List.singleton_sublist.mpr hmem
    exact Supply.Post.pure ⟨⟨htabs.sublist hone, List.mem_singleton_self _⟩,
      (board_sublist hone).trans hboard⟩
  · rename_i hne
    have hkeep : s.activeTabId ∉ emptied →
        s.activeTabId ∈ (tabs.filter fun tab ↦ tab.id ∉ emptied).map fun t ↦ t.id := by
      intro hnot
      obtain ⟨t, ht, hid⟩ := List.mem_map.mp hactive
      exact List.mem_map.mpr ⟨t, List.mem_filter.mpr ⟨ht, by simpa [hid] using hnot⟩, hid⟩
    obtain ⟨id, hclose, hmem⟩ := activeTabIdAfterClose_spec emptied hne hkeep
    refine (Supply.Post.ofExcept hclose (Q := fun id' used' ↦ id' = id ∧ used' = used₁)
      ⟨rfl, rfl⟩).bind fun id' used₂ _ ⟨hid', hused⟩ ↦ ?_
    subst hid' hused
    exact Supply.Post.pure ⟨⟨htabs.sublist hsub, hmem⟩, (board_sublist hsub).trans hboard⟩

/-- **Bulk removal, as a command.** -/
theorem removePaneIdsFromTabs_ok {rule : CommandRule} {s : WorkbenchSnapshot}
    (h : SnapshotOk allowed used s) (hwelcome : allowed welcomeTarget) (hcloses : rule.closes)
    (removals : Removals) (policy : EmptiedTabPolicy) :
    CommandOk allowed used rule s (removePaneIdsFromTabs s removals policy) :=
  commandOk_of_le hcloses (removePaneIdsFromTabs_post h hwelcome removals policy)

end Awen.Workbench

/-!
## Every run of commands

Every command is a step of the board by its own rule (`applyOp_ok`), so an invariant of snapshots
and one of boards hold after every run. The two main results are `runOps_snapshotInvariant`, that
every reachable workbench is well formed, and `runOps_session_unique`, that it shows every Session
at most once.
-/

namespace Awen.Workbench

open LayoutNode

variable {allowed : ViewTarget → Prop} {used used' : Set String}

/-! ## The rule of every command -/

/-- The target a command opens, if any. -/
def WorkbenchOp.target : WorkbenchOp → Option ViewTarget
  | .openTarget target | .openDeepLinkTarget target => some target
  | .splitPane _ target _ | .splitFocused target _ => some target
  | .replacePaneTarget _ target => some target
  | .viewDrop source _ => source.targets
  | _ => none

/-- What a command may do to the board. -/
def opRule (s : WorkbenchSnapshot) : WorkbenchOp → CommandRule
  | .openTarget target | .openDeepLinkTarget target => openRule s target
  | .splitPane _ target _ | .splitFocused target _ => openRule s target
  | .replacePaneTarget paneId target => retargetRule s target paneId
  | .viewDrop source target => dropRule s source target
  | .closePane _ | .closeTab _ => { closes := True }
  | .removeSessionViews _ | .dedupeSessionViews | .removeWorkspaceViews => { closes := True }
  | .removeNewAgentSessionViews _ _ _ | .pruneWorkspaceViews _ _ => { closes := True }
  | _ => {}

/-- **Every command** returns, keeps the invariant, and is a step of the board by its rule. -/
theorem applyOp_ok {s : WorkbenchSnapshot} (h : SnapshotOk allowed used s)
    (hwelcome : allowed welcomeTarget) (op : WorkbenchOp)
    (hallowed : ∀ target ∈ op.target, allowed target) :
    CommandOk allowed used (opRule s op) s (applyOp s op) := by
  cases op with
  | openTarget target => exact applyOpenTarget_ok h (hallowed target rfl)
  | openDeepLinkTarget target => exact applyOpenTarget_ok h (hallowed target rfl)
  | splitPane paneId target dir =>
    exact applySplitPane_ok h hwelcome (hallowed target rfl) paneId dir
  | splitFocused target dir => exact applySplitFocused_ok h hwelcome (hallowed target rfl) dir
  | closePane paneId =>
    exact commandOk_of_le trivial ((applyClosePane_post h hwelcome paneId).map fun _ _ _ h' ↦ h')
  | setFocused paneId => exact applySetFocused_ok h paneId
  | replacePaneTarget paneId target =>
    exact applyReplacePaneTarget_ok h hwelcome paneId (hallowed target rfl)
  | viewDrop source target => exact viewDrop_ok h hwelcome hallowed target
  | setSplitRatio splitId index ratio => exact applySetSplitRatio_ok h splitId index ratio
  | setLayoutMode mode => exact applySetLayoutMode_ok h mode
  | columnChange columnId change => exact applyColumnChange_ok h columnId change
  | moveInColumn paneId direction => exact applyMoveInColumn_ok h paneId direction
  | createTab => exact applyCreateTab_ok h hwelcome
  | activateTab tabId => exact applyActivateTab_ok h tabId
  | renameTab tabId title => exact applyRenameTab_ok h tabId title
  | closeTab tabId => exact commandOk_of_le trivial (applyCloseTab_post h tabId)
  | moveTab fromIndex toIndex => exact applyMoveTab_ok h fromIndex toIndex
  | removeSessionViews target => exact removePaneIdsFromTabs_ok h hwelcome trivial _ _
  | dedupeSessionViews => exact removePaneIdsFromTabs_ok h hwelcome trivial _ _
  | removeWorkspaceViews => exact removePaneIdsFromTabs_ok h hwelcome trivial _ _
  | removeNewAgentSessionViews e w d => exact removePaneIdsFromTabs_ok h hwelcome trivial _ _
  | pruneWorkspaceViews known observed => exact removePaneIdsFromTabs_ok h hwelcome trivial _ _

/-! ## Runs -/

/-- The empty workbench satisfies the invariant, and its board is empty. -/
theorem emptyWorkbenchSnapshot_post (hwelcome : allowed welcomeTarget) :
    Supply.Post used emptyWorkbenchSnapshot fun s used' ↦
      SnapshotOk allowed used' s ∧ board s.tabs = 0 := by
  rw [emptyWorkbenchSnapshot]
  refine welcomeTab_post.bind fun t used₁ hsub ⟨⟨paneId, view, hsingle⟩, _, hmem, hfill⟩ ↦
    Supply.Post.pure ⟨⟨?_, List.mem_singleton_self _⟩, ?_⟩
  · refine tabsOk_cons.mpr ⟨⟨by simp, by simp, List.nodup_nil⟩, hsingle.tabOk, hmem, by simp, ?_⟩
    have hnil : EntriesOk allowed used ([] ++ entriesOf []) := entriesOk_nil
    exact hfill.entriesOk hwelcome hsub hnil
  · rw [board_cons, tabBoard, hfill.realEntries_eq, realEntries_nil, Multiset.map_zero, zero_add]
    rfl

/-- **Runs.** What every step of the board keeps holds, with the invariant of snapshots, after every
run of commands. -/
theorem runOps_post (hwelcome : allowed welcomeTarget) {I : Board → Prop} (hinit : I 0)
    (hstep : ∀ used rule b b', I b → BoardStep used rule b b' → I b') (ops : List WorkbenchOp)
    (hallowed : ∀ op ∈ ops, ∀ target ∈ op.target, allowed target) :
    Supply.Post used (runOps ops) fun s used' ↦ SnapshotOk allowed used' s ∧ I (board s.tabs) := by
  rw [runOps]
  exact (emptyWorkbenchSnapshot_post hwelcome).bind fun s₀ used₀ _ ⟨hok₀, hboard₀⟩ ↦
    Supply.Post.foldlM ops (fun op hop _ _ ⟨hok, hI⟩ ↦
      (applyOp_ok hok hwelcome op (hallowed op hop)).mono fun _ _ _ ⟨hok', hboard⟩ ↦
        ⟨hok', hstep _ _ _ _ hI hboard⟩) ⟨hok₀, hboard₀ ▸ hinit⟩

/-- A supply that repeats no id is fresh for an empty workbench. -/
theorem freshFor_empty {supply : Stream' String} (h : Function.Injective supply.get) :
    Supply.FreshFor supply ∅ := ⟨h, fun _ ↦ Set.notMem_empty _⟩

/-! ## Every reachable workbench is well formed -/

/-- A Tab is well formed: its leaves are distinct and are its Panes, one of which has the focus, its
splits have sizes, and in scrolling mode its columns partition the Panes and determine the
layout. -/
structure TabInvariant (t : WorkbenchTab) : Prop where
  leaves_nodup : (leafIds t.layout).Nodup
  mem_leaves : ∀ paneId, paneId ∈ leafIds t.layout ↔ paneId ∈ t.panes.keys
  focus_mem : t.focusedPaneId ∈ leafIds t.layout
  splits : WellFormed t.layout
  scrolling : t.layoutMode = some .scrolling → ∃ columns, t.columns = some columns ∧
    (columnPanes columns).Nodup ∧ (∀ paneId, paneId ∈ columnPanes columns ↔ paneId ∈ t.panes.keys) ∧
    (∀ c ∈ columns, c.paneIds ≠ []) ∧ t.layout = columnsTree columns

/-- A workbench is well formed: Tabs, Panes and Views have distinct ids over all of it, the active
Tab exists, and every Tab is well formed. -/
structure SnapshotInvariant (s : WorkbenchSnapshot) : Prop where
  tabs_ne_nil : s.tabs ≠ []
  nodup_tabIds : (s.tabs.map fun t ↦ t.id).Nodup
  active_mem : s.activeTabId ∈ s.tabs.map fun t ↦ t.id
  nodup_paneIds : (s.tabs.flatMap fun t ↦ t.panes.keys).Nodup
  nodup_viewIds : (s.tabs.flatMap fun t ↦ t.panes.values.map fun view ↦ view.id).Nodup
  tabs : ∀ t ∈ s.tabs, TabInvariant t

theorem TabOk.tabInvariant {t : WorkbenchTab} (h : TabOk used t) : TabInvariant t where
  leaves_nodup := h.nodup_leaves
  mem_leaves := fun _ ↦ h.leaves.mem_iff
  focus_mem := h.focus_leaf
  splits := h.layout_wf
  scrolling := fun hmode ↦
    let ⟨columns, hcolumns, hok, hperm, hlayout⟩ := h.derived hmode
    ⟨columns, hcolumns, hperm.nodup_iff.mpr t.panes.nodup, fun _ ↦ hperm.mem_iff,
      fun c hc ↦ (hok.valid c hc).paneIds_ne_nil, hlayout⟩

theorem SnapshotOk.snapshotInvariant {s : WorkbenchSnapshot} (h : SnapshotOk allowed used s) :
    SnapshotInvariant s where
  tabs_ne_nil := fun hnil ↦ by
    have hmem := h.active_mem
    rw [hnil] at hmem
    cases hmem
  nodup_tabIds := h.tabs_ok.nodup_ids
  active_mem := h.active_mem
  nodup_paneIds := by
    have hnd := h.tabs_ok.entries_ok.nodup_paneIds
    rwa [entriesOf, List.map_flatMap] at hnd
  nodup_viewIds := by
    have hnd := h.tabs_ok.entries_ok.nodup_viewIds
    rw [entriesOf, List.map_flatMap] at hnd
    refine Eq.mp (congrArg List.Nodup (congrArg (s.tabs.flatMap ·) (funext fun t ↦ ?_))) hnd
    rw [OrderedMap.values, List.map_map]
    rfl
  tabs := fun t ht ↦ (h.tabs_ok.tab_ok t ht).tabInvariant

/-- **Every reachable workbench is well formed.** From the empty workbench, with a supply that
repeats no id, every sequence of commands returns a well-formed snapshot. -/
theorem runOps_snapshotInvariant (supply : Stream' String)
    (hfresh : Function.Injective supply.get) (ops : List WorkbenchOp) :
    ∃ s rest, runOps ops supply = .ok (s, rest) ∧ SnapshotInvariant s := by
  have hpost : Supply.Post ∅ (runOps ops) fun s used' ↦ SnapshotOk (fun _ ↦ True) used' s ∧ True :=
    runOps_post trivial trivial (fun _ _ _ _ _ _ ↦ trivial) ops fun _ _ _ _ ↦ trivial
  obtain ⟨s, rest, used', hrun, -, -, hok, -⟩ := hpost supply (freshFor_empty hfresh)
  exact ⟨s, rest, hrun, hok.snapshotInvariant⟩

/-- A supply that never repeats an id. -/
def testSupply : Stream' String := fun n ↦ String.ofList (List.replicate (n + 1) 'x')

theorem testSupply_injective : Function.Injective testSupply.get := fun m n h ↦ by
  have hlen := congrArg String.length h
  simpa [testSupply, Stream'.get] using hlen

theorem runOps_snapshotInvariant_createTab :
    ∃ s rest, runOps [.createTab, .setLayoutMode .scrolling] testSupply = .ok (s, rest) ∧
      SnapshotInvariant s :=
  runOps_snapshotInvariant testSupply testSupply_injective _

/-- A View does not sit under its own id: in the empty workbench already, the id of the Pane and
that of the View it shows are two different ones. -/
theorem emptyWorkbenchSnapshot_view_id_ne_pane_id :
    ∃ s rest, runOps [] testSupply = .ok (s, rest) ∧
      ∃ t ∈ s.tabs, ∃ e ∈ t.panes.entries, e.2.id ≠ e.1 :=
  ⟨_, _, rfl, _, List.mem_singleton_self _, _, List.mem_singleton_self _, by decide⟩

/-! ## One Session, one View -/

/-- Sessions stay unique on the board. -/
theorem BoardStep.session_unique {rule : CommandRule} {b b' : Board}
    (h : BoardStep used rule b b') (hu : UniqueOn Placed.session b) :
    UniqueOn Placed.session b' :=
  h.uniqueOn hu (fun _ ↦ Keeps.le) (fun _ _ _ _ ex ↦ ex.session) (fun _ _ _ ad ↦ ad.session_new)

/-- The Sessions shown, each as often as it is shown. -/
def sessionsShown (s : WorkbenchSnapshot) : List SessionIdentity :=
  s.tabs.flatMap fun t ↦ t.panes.values.filterMap fun view ↦ sessionOf view.target

/-- The Sessions shown are those on the board. -/
theorem sessionsShown_eq (s : WorkbenchSnapshot) :
    (sessionsShown s : Multiset SessionIdentity) = (board s.tabs).filterMap Placed.session := by
  have hwelcome : ∀ p : Placed, ¬isReal p.view = true → p.session = none := fun p hreal ↦ by
    have hkind : p.view.target.kind = .welcome := by simpa [isReal] using hreal
    by_contra hsome
    obtain ⟨session, hs⟩ := Option.ne_none_iff_exists'.mp hsome
    have hview := isSessionViewTarget_iff.mpr ⟨session, hs⟩
    rw [isSessionViewTarget, hkind] at hview
    exact absurd hview (by decide)
  rw [sessionsShown, ← filterMap_board hwelcome]
  simp only [OrderedMap.values, List.filterMap_map]
  rfl

/-- **One Session, one View.** No sequence of commands shows a Session, an Agent Session or a
Workspace Terminal, in two Views. -/
theorem runOps_session_unique (supply : Stream' String) (hfresh : Function.Injective supply.get)
    (ops : List WorkbenchOp) :
    ∃ s rest, runOps ops supply = .ok (s, rest) ∧ (sessionsShown s).Nodup := by
  have hpost : Supply.Post ∅ (runOps ops) fun s used' ↦ SnapshotOk (fun _ ↦ True) used' s ∧
      UniqueOn Placed.session (board s.tabs) :=
    runOps_post trivial uniqueOn_zero (fun _ _ _ _ hu hstep ↦ hstep.session_unique hu) ops
      fun _ _ _ _ ↦ trivial
  obtain ⟨s, rest, used', hrun, -, -, -, hunique⟩ := hpost supply (freshFor_empty hfresh)
  refine ⟨s, rest, hrun, ?_⟩
  rw [← Multiset.coe_nodup, sessionsShown_eq]
  exact hunique

theorem runOps_session_unique_open_split :
    ∃ s rest, runOps [.openTarget { body := .agentSession "e" "w" "a" },
        .splitFocused { body := .agentSession "e" "w" "a" } .right] testSupply = .ok (s, rest) ∧
      (sessionsShown s).Nodup :=
  runOps_session_unique testSupply testSupply_injective _

end Awen.Workbench
