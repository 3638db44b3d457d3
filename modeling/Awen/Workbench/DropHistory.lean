import Awen.Workbench.TabSteps

/-!
# What drag and drop makes of the Tabs

The drops bring Views to Tabs in seven ways, each with code of its own that makes room for them.
Only one of them forgets about Welcome: a Pane that is dropped on an edge of a Welcome in another
Tab is put beside it. And a Welcome can be dragged itself. `mixesWelcome` says when a drop does
either; `applyOp_changes` sums up all commands.
-/

namespace Awen.Workbench

open Supply

variable {allowed : ViewTarget → Prop} {used used' : Set String} {proper : Prop}
  {keeps : String → Prop} {s : WorkbenchSnapshot}

/-- Whether a drop puts a View beside a Welcome: a Welcome is dragged to another Tab that shows
none, unless it replaces the only Pane there, or a Pane is dropped on an edge of a Welcome in
another Tab. -/
def mixesWelcome (s : WorkbenchSnapshot) : ViewDragSource → ViewDropTarget → Prop
  | .pane sourceTabId sourcePaneId, .pane tabId paneId zone =>
    sourceTabId ≠ tabId ∧ ∃ view tab anchor, viewAt s ⟨sourceTabId, sourcePaneId⟩ = some view ∧
      findTab s tabId = some tab ∧ tab.panes.get paneId = some anchor ∧
      findPaneByTarget tab view.target = none ∧
      (view.target.kind = .welcome ∧ (zone = .replace → tab.panes.size ≠ 1) ∨
        anchor.target.kind = .welcome ∧ zone ≠ .replace)
  | .pane sourceTabId sourcePaneId, .existingTab tabId =>
    sourceTabId ≠ tabId ∧ ∃ view tab, viewAt s ⟨sourceTabId, sourcePaneId⟩ = some view ∧
      findTab s tabId = some tab ∧ findPaneByTarget tab view.target = none ∧
      view.target.kind = .welcome
  | .tab sourceTabId, .pane tabId paneId zone =>
    sourceTabId ≠ s.activeTabId ∧ tabId = s.activeTabId ∧ zone ≠ .replace ∧
      ∃ source view tab, findTab s sourceTabId = some source ∧ source.panes.values = [view] ∧
        findTab s tabId = some tab ∧ paneId ∈ tab.panes.keys ∧
        findPaneByTarget tab view.target = none ∧ view.target.kind = .welcome
  | _, _ => False

/-- A drop after which every Tab comes from those of a snapshot. -/
def DropChanges (proper : Prop) (keeps : String → Prop) (used used' : Set String)
    (s : WorkbenchSnapshot) (m : WorkbenchM (Option ViewDropResult)) : Prop :=
  Ensures used' m fun result _ ↦ ∀ r, result = some r →
    ∀ t' ∈ r.snapshot.tabs, Becomes proper keeps used s.tabs t'

theorem dropChanges_none : DropChanges proper keeps used used' s (pure none) :=
  Ensures.pure fun _ hnone ↦ nomatch hnone

theorem dropChanges_some {r : ViewDropResult}
    (h : ∀ t' ∈ r.snapshot.tabs, Becomes proper keeps used s.tabs t') :
    DropChanges proper keeps used used' s (pure (some r)) := by
  refine Ensures.pure fun r' heq ↦ ?_
  cases heq
  exact h

/-! ## Tabs as drag sources -/

theorem dropTabAt_changes (s : WorkbenchSnapshot) (tab : WorkbenchTab) (fromIndex toIndex : ℤ) :
    DropChanges proper keeps used used' s (dropTabAt s tab fromIndex toIndex) := by
  rw [dropTabAt]
  refine (Ensures.ofExcept (Q := fun _ _ ↦ True) fun _ _ ↦ trivial).bind fun paneId _ _ _ ↦ ?_
  refine dropChanges_some fun t' ht' ↦ becomes_of_mem ?_
  exact (applyMoveTab_perm s fromIndex toIndex).1.mem_iff.mp ht'

/-- The dropped Tab goes, and the Tab it is dropped in is rewritten. -/
private theorem becomes_of_dropTab {tab targetTab targetAfter : WorkbenchTab}
    (htarget : targetTab ∈ s.tabs)
    (h : Rewrites proper (keeps targetTab.id) targetTab targetAfter) :
    ∀ t' ∈ replaceTab (s.tabs.filter fun candidate ↦ candidate.id ≠ tab.id) targetTab.id
      targetAfter, Becomes proper keeps used s.tabs t' := by
  intro t' ht'
  obtain ⟨t₀, ht₀, rfl⟩ := List.mem_map.mp ht'
  split
  · exact .rewritten targetTab htarget h
  · exact becomes_of_mem (List.mem_filter.mp ht₀).1

theorem dropTabInPane_changes {tab : WorkbenchTab} {targetTabId targetPaneId : String}
    {zone : PaneDropZone} (hfind : findTab s tab.id = some tab)
    (hmixes : proper → ¬mixesWelcome s (.tab tab.id) (.pane targetTabId targetPaneId zone)) :
    DropChanges proper keeps used used' s
      (dropTabInPane s tab targetTabId targetPaneId zone) := by
  rw [dropTabInPane]
  refine (Ensures.ofExcept (Q := fun _ _ ↦ True) fun _ _ ↦ trivial).bind
    fun sourcePaneId _ _ _ ↦ ?_
  split
  · exact dropChanges_none
  rename_i hactive
  split
  · exact dropChanges_none
  rename_i hsize
  split
  swap
  · exact dropChanges_none
  rename_i sourceView targetTab hsource htargetTab
  split
  · exact dropChanges_none
  rename_i targetPane htargetPane
  split
  · exact dropChanges_none
  rename_i hnone
  obtain ⟨htarget, -⟩ := mem_of_findTab htargetTab
  dsimp only
  split
  · refine (reconcileTab_ensures _).map fun t₁ _ _ hsame r heq ↦ ?_
    cases heq
    refine becomes_of_dropTab htarget (Rewrites.congr ?_ hsame)
    exact ⟨rfl, fun _ ↦ rfl, fun _ ↦ rfl, fun _ _ ↦ welcomeAlone_singleton _ _⟩
  rename_i hwelcome
  split
  · exact dropChanges_none
  rename_i edge
  refine (draws_placedLayout _ _ _ _).then fun placed _ _ ↦ (reconcileTab_ensures _).map
    fun t₁ _ _ hsame r heq ↦ ?_
  cases heq
  refine becomes_of_dropTab htarget (Rewrites.congr ?_ hsame)
  refine ⟨rfl, fun _ ↦ rfl, fun _ ↦ rfl, fun hproper halone ↦ welcomeAlone_set ?_ ?_⟩
  · -- a Welcome would be put beside other Views
    intro hkind
    rw [not_or, not_not] at hactive
    rw [not_not] at hsize
    have hvalues : tab.panes.values = [sourceView] := by
      rw [OrderedMap.values, OrderedMap.size_eq_one hsize hsource]
      rfl
    exact hmixes hproper ⟨hactive.1, hactive.2, PaneDropZone.noConfusion, tab,
      sourceView, targetTab,
      hfind, hvalues, htargetTab, OrderedMap.mem_keys_of_get htargetPane, by
        simpa using hnone, hkind⟩
  · intro e he _
    refine halone.ne_welcome_of_get htargetPane (fun hkind ↦ hwelcome ?_) he
    exact ⟨halone.size_eq_one htargetPane hkind, hkind⟩

theorem findTab_of_mem (h : SnapshotOk allowed used s) {t : WorkbenchTab} (ht : t ∈ s.tabs) :
    findTab s t.id = some t := by
  obtain ⟨l, r, htabs⟩ := List.append_of_mem ht
  exact findTab_middle htabs (tabsOk_middle.mp (htabs ▸ h.tabs_ok)).2.2.2.1

theorem dropTab_changes (h : SnapshotOk allowed used s) {tabId : String} {target : ViewDropTarget}
    (hmixes : proper → ¬mixesWelcome s (.tab tabId) target) :
    DropChanges proper keeps used used' s (dropTab s tabId target) := by
  rw [dropTab.eq_def]
  split
  · exact dropChanges_none
  rename_i i hfind
  obtain ⟨hi, hid, -⟩ := List.findIdx?_eq_some_iff_getElem.mp hfind
  have ht := List.getElem?_eq_getElem hi
  have htab := of_decide_eq_true hid
  rw [ht]
  dsimp only
  generalize s.tabs[i] = tab at ht htab
  subst htab
  cases target with
  | existingTab targetTabId =>
    dsimp only
    split <;> exact dropTabAt_changes s tab _ _
  | newTab index => exact dropTabAt_changes s tab _ _
  | pane targetTabId targetPaneId zone =>
    exact dropTabInPane_changes (findTab_of_mem h (List.mem_of_getElem? ht)) hmixes

/-! ## Panes as drag sources -/

theorem dropPaneInOwnTab_changes {tab : WorkbenchTab} (htab : tab ∈ s.tabs)
    (sourcePaneId targetPaneId : String) (zone : PaneDropZone) :
    DropChanges proper keeps used used' s
      (dropPaneInOwnTab s tab sourcePaneId targetPaneId zone) := by
  rw [dropPaneInOwnTab.eq_def]
  refine (draws_movedLayout _ _ _ _).then fun placed _ _ ↦ ?_
  refine Ensures.bind (P := fun s' _ ↦ ∀ t' ∈ s'.tabs, Becomes proper keeps used s.tabs t')
    (updateTab_changes htab (SameShape.rewrites ⟨rfl, rfl, rfl, rfl⟩)) fun s' _ _ hs' ↦ ?_
  exact dropChanges_some hs'

/-- The source and the target of a drop are replaced by what they become. -/
private theorem becomes_of_dropPane {source target sourceAfter targetAfter : WorkbenchTab}
    (hsource : Becomes proper keeps used s.tabs sourceAfter)
    (htarget : Becomes proper keeps used s.tabs targetAfter) :
    ∀ t' ∈ s.tabs.map fun tab ↦ if tab.id = source.id then sourceAfter
      else if tab.id = target.id then targetAfter else tab,
      Becomes proper keeps used s.tabs t' := by
  intro t' ht'
  obtain ⟨t₀, ht₀, rfl⟩ := List.mem_map.mp ht'
  split
  · exact hsource
  split
  · exact htarget
  · exact becomes_of_mem ht₀

/-- A Pane that is taken out of a Tab leaves the Tab rewritten, or cleared. -/
theorem removeViewFromTab_ensures (h : SnapshotOk allowed used s) {t : WorkbenchTab}
    (ht : t ∈ s.tabs)
    (paneId : String) : Ensures used (removeViewFromTab t paneId) fun result _ ↦
      ∀ t', result = some t' → Becomes proper keeps used s.tabs t' := by
  rw [removeViewFromTab]
  split
  · refine (closePaneInTab_ensures proper (keeps t.id) (h.tabs_ok.tab_ok t ht) paneId).map
      fun t₁ _ _ hclosed t' heq ↦ ?_
    cases heq
    rcases hclosed with ⟨hrewrites, -⟩ | ⟨hcleared, -⟩
    · exact .rewritten t ht hrewrites
    · exact .cleared t ht hcleared
  · exact Ensures.pure fun _ hnone ↦ by cases hnone

theorem dropPaneInPane_changes (h : SnapshotOk allowed used s) {source target : WorkbenchTab}
    (hsource : source ∈ s.tabs) (htarget : target ∈ s.tabs) {sourcePaneId targetPaneId : String}
    {view : ViewInstance} {zone : PaneDropZone} (hview : source.panes.get sourcePaneId = some view)
    (htargetPane : targetPaneId ∈ target.panes.keys) (hne : source.id ≠ target.id)
    (hmixes : proper →
      ¬mixesWelcome s (.pane source.id sourcePaneId) (.pane target.id targetPaneId zone)) :
    DropChanges proper keeps used used s
      (dropPaneInPane s source target sourcePaneId targetPaneId view zone) := by
  rw [dropPaneInPane]
  split
  · exact dropChanges_none
  rename_i hkey
  refine Ensures.bind (P := fun result _ ↦
    ∀ t', result = some t' → Becomes proper keeps used s.tabs t')
    (removeViewFromTab_ensures h hsource sourcePaneId) fun result _ _ hremoved ↦ ?_
  cases result with
  | none => exact dropChanges_none
  | some sourceAfter =>
    refine (draws_placedLayout _ _ _ _).then fun placed _ _ ↦ (reconcileTab_ensures _).bind
      fun targetAfter _ _ hsame ↦ dropChanges_some ?_
    refine becomes_of_dropPane (hremoved sourceAfter rfl)
      (.rewritten target htarget (.congr ?_ hsame))
    refine ⟨rfl, fun _ ↦ rfl, fun _ ↦ rfl, fun hproper halone ↦ ?_⟩
    obtain ⟨anchor, hanchor⟩ := OrderedMap.mem_keys.mp htargetPane
    have hnot : ¬(view.target.kind = .welcome ∧ (zone = .replace → target.panes.size ≠ 1) ∨
        anchor.target.kind = .welcome ∧ zone ≠ .replace) := fun hmix ↦
      hmixes hproper ⟨hne, view, target, anchor, viewAt_of_mem h hsource hview,
        findTab_of_mem h htarget, hanchor, by simpa using hkey, hmix⟩
    rw [not_or, not_and, not_and, not_not] at hnot
    obtain ⟨hdragged, hbeside⟩ := hnot
    by_cases hkind : view.target.kind = .welcome
    · -- a Welcome takes the place of the only Pane
      have hreplace := hdragged hkind
      rw [Classical.not_imp, not_not] at hreplace
      obtain ⟨rfl, hsize⟩ := hreplace
      have hentries := OrderedMap.size_eq_one hsize hanchor
      rw [if_pos rfl]
      refine welcomeAlone_set_of_nil ?_
      rw [OrderedMap.entries_delete, hentries]
      simp
    by_cases hzone : zone = .replace
    · rw [if_pos hzone]
      exact halone.delete_set htargetPane hkind
    · rw [if_neg hzone]
      exact welcomeAlone_set hkind fun e he _ ↦
        halone.ne_welcome_of_get hanchor (fun hwelcome ↦ hzone (hbeside hwelcome)) he

theorem dropPaneInTab_changes (h : SnapshotOk allowed used s) {source target : WorkbenchTab}
    (hsource : source ∈ s.tabs) (htarget : target ∈ s.tabs) {sourcePaneId : String}
    {view : ViewInstance} (hview : source.panes.get sourcePaneId = some view)
    (hne : source.id ≠ target.id)
    (hmixes : proper → ¬mixesWelcome s (.pane source.id sourcePaneId) (.existingTab target.id)) :
    DropChanges proper keeps used used s
      (dropPaneInTab s source target sourcePaneId view) := by
  rw [dropPaneInTab]
  split
  · exact dropChanges_none
  rename_i hkey
  have hkind : proper → view.target.kind ≠ .welcome := fun hproper hwelcome ↦
    hmixes hproper ⟨hne, view, target, viewAt_of_mem h hsource hview, findTab_of_mem h htarget,
      by simpa using hkey, hwelcome⟩
  refine (anchorIn_ensures (h.tabs_ok.tab_ok target htarget) _).bind
    fun anchor used₁ hsub₁ hmem ↦ ?_
  refine Ensures.bind (P := fun r _ ↦ Rewrites proper (keeps target.id) target r.1)
    (placeViewInTab_ensures hkind hmem) fun r used₂ hsub₂ hplaced ↦ ?_
  refine Ensures.bind (P := fun result _ ↦
    ∀ t', result = some t' → Becomes proper keeps used s.tabs t')
    ?_ fun result used₃ _ hremoved ↦ ?_
  · refine (removeViewFromTab_ensures (h.mono (hsub₁.trans hsub₂)) hsource sourcePaneId).mono
      fun result _ _ hresult t' heq ↦ (hresult t' heq).anti (hsub₁.trans hsub₂)
  cases result with
  | none => exact dropChanges_none
  | some sourceAfter =>
    refine (reconcileTab_ensures _).bind fun targetAfter _ _ hsame ↦ dropChanges_some ?_
    exact becomes_of_dropPane (hremoved sourceAfter rfl)
      (.rewritten target htarget (hplaced.congr hsame))

/-- A View in a Tab of its own. -/
theorem insertPresentationTab_changes (hsub : used ⊆ used') {s₁ : WorkbenchSnapshot}
    (hbefore : ∀ t' ∈ s₁.tabs, Becomes proper keeps used s.tabs t')
    (view : ViewInstance) (index : ℤ)
    (paneId : String) : DropChanges proper keeps used used' s
      (some <$> insertPresentationTab s₁ view index paneId) := by
  refine (insertPresentationTab_ensures hsub s₁ view index paneId).map
    fun r _ _ hr r' heq t' ht' ↦ ?_
  cases heq
  rcases hr t' ht' with hold | ⟨hnew, hpanes⟩
  · exact hbefore t' hold
  · exact .opened hnew fun _ ↦ hpanes ▸ welcomeAlone_singleton paneId view

theorem dropPane_changes (h : SnapshotOk allowed used s) {sourceTabId sourcePaneId : String}
    {target : ViewDropTarget}
    (hmixes : proper → ¬mixesWelcome s (.pane sourceTabId sourcePaneId) target) :
    DropChanges proper keeps used used s (dropPane s sourceTabId sourcePaneId target) := by
  cases target with
  | pane targetTabId targetPaneId zone =>
    rw [dropPane]
    split
    swap
    · exact dropChanges_none
    rename_i source target hsource htarget
    split
    · exact dropChanges_none
    rename_i view hview
    split
    · exact dropChanges_none
    rename_i hpanes
    rw [not_or, Bool.not_eq_false] at hpanes
    obtain ⟨hsourceMem, rfl⟩ := mem_of_findTab hsource
    obtain ⟨htargetMem, rfl⟩ := mem_of_findTab htarget
    split
    · exact dropPaneInOwnTab_changes hsourceMem _ _ _
    · rename_i hne
      exact dropPaneInPane_changes h hsourceMem htargetMem hview
        (OrderedMap.has_eq_true.mp hpanes.1) hne hmixes
  | existingTab targetTabId =>
    rw [dropPane]
    split
    swap
    · exact dropChanges_none
    rename_i source target hsource htarget
    split
    · exact dropChanges_none
    rename_i view hview
    obtain ⟨hsourceMem, rfl⟩ := mem_of_findTab hsource
    obtain ⟨htargetMem, rfl⟩ := mem_of_findTab htarget
    split
    · exact dropChanges_none
    · rename_i hne
      exact dropPaneInTab_changes h hsourceMem htargetMem hview hne hmixes
  | newTab index =>
    rw [dropPane]
    split
    · exact dropChanges_none
    rename_i source hsource
    split
    · exact dropChanges_none
    rename_i view hview
    obtain ⟨hsourceMem, -⟩ := mem_of_findTab hsource
    refine Ensures.bind (P := fun result _ ↦
      ∀ t', result = some t' → Becomes proper keeps used s.tabs t')
      (removeViewFromTab_ensures h hsourceMem sourcePaneId) fun result _ hsub hremoved ↦ ?_
    cases result with
    | none => exact dropChanges_none
    | some sourceAfter =>
      exact insertPresentationTab_changes hsub
        (fun t' ht' ↦ replaceTab_becomes (hremoved sourceAfter rfl) ht') view index sourcePaneId

/-! ## Sidebar content -/

/-- A dragged Session is no Welcome, and is detached like any View. -/
theorem takeDraggedSessionView_ensures (proper : Prop) (keeps : String → Prop)
    (h : SnapshotOk allowed used s) (hwelcome : allowed welcomeTarget) (target : ViewTarget) :
    Ensures used (takeDraggedSessionView s target) fun result used' ↦
      ∀ s₁ view location, result = some (s₁, view, location) → view.target.kind ≠ .welcome ∧
        ∃ t ∈ s.tabs, t.id = location.tabId ∧
          DetachedFrom allowed proper keeps used used' s t location.paneId s₁ := by
  rw [takeDraggedSessionView]
  split
  · exact Ensures.pure fun _ _ _ hnone ↦ by cases hnone
  rename_i location hlocation
  obtain ⟨l, t₀, r, view₀, htabs, hid₀, hget₀, hsession⟩ := findSessionViewPane_eq_some hlocation
  have ht₀ : t₀ ∈ s.tabs := htabs ▸ List.mem_append_right l List.mem_cons_self
  refine (detachView_ensures proper keeps h hwelcome location).bind
    fun result used₁ _ hdetached ↦ ?_
  cases result with
  | none => exact Ensures.pure fun _ _ _ hnone ↦ by cases hnone
  | some result =>
    obtain ⟨s₁, view⟩ := result
    obtain ⟨t, ht, hid, hget, hdetached⟩ := hdetached s₁ view rfl
    refine Ensures.pure ?_
    rintro _ _ _ ⟨⟩
    obtain rfl : t = t₀ := List.inj_on_of_nodup_map h.tabs_ok.nodup_ids ht ht₀ (hid.trans hid₀.symm)
    rw [hget, Option.some_inj] at hget₀
    exact ⟨kind_ne_welcome_of_session (hget₀ ▸ hsession), t, ht, hid, hdetached⟩

/-- A View is placed in a Tab that was not cleared before. -/
private theorem placedIn_changes {s₁ : WorkbenchSnapshot} {u u₁ : WorkbenchTab}
    {view : ViewInstance}
    (hu : u ∈ s.tabs) (hrewrites : Rewrites proper (keeps u.id) u u₁)
    (hbefore : ∀ t' ∈ s₁.tabs, Becomes proper keeps used s.tabs t')
    (hview : proper → view.target.kind ≠ .welcome) {target : PlaceTarget}
    (hanchor : target.anchorPaneId ∈ u₁.panes.keys) (tabId : String) :
    DropChanges proper keeps used used' s (do
      let (placed, paneId) ← placeViewInTab u₁ view target
      let snapshot ← updateTab s₁ placed
      return some { snapshot, tabId, paneId }) := by
  refine Ensures.bind (P := fun r _ ↦ Rewrites proper (keeps u.id) u₁ r.1)
    (placeViewInTab_ensures hview hanchor) fun r _ _ hplaced ↦ ?_
  refine (updateTab_ensures hplaced).bind fun s₂ _ _ hone ↦ dropChanges_some ?_
  exact hone.becomes_after hu hrewrites hbefore

theorem openSidebarViewInTab_changes {s₁ : WorkbenchSnapshot} (hok : SnapshotOk allowed used' s₁)
    {u : WorkbenchTab} (hu : u ∈ s.tabs)
    (hrewrites : ∀ u₁ ∈ s₁.tabs, u₁.id = u.id → Rewrites proper (keeps u.id) u u₁)
    (hbefore : ∀ t' ∈ s₁.tabs, Becomes proper keeps used s.tabs t') {view : ViewInstance}
    (hview : proper → view.target.kind ≠ .welcome) :
    DropChanges proper keeps used used' s (openSidebarViewInTab s₁ u.id view) := by
  rw [openSidebarViewInTab]
  split
  · exact dropChanges_none
  rename_i u₁ hfind
  obtain ⟨hu₁, hid⟩ := mem_of_findTab hfind
  refine (anchorIn_ensures (hok.tabs_ok.tab_ok u₁ hu₁) _).bind fun anchor _ _ hmem ↦ ?_
  exact placedIn_changes hu (hrewrites u₁ hu₁ hid)
    (fun t' ht' ↦ hbefore t' (tabs_applyActivateTab s₁ u.id ▸ ht')) hview hmem u.id

theorem placeSidebarViewInPane_changes {s₁ : WorkbenchSnapshot} {u : WorkbenchTab} (hu : u ∈ s.tabs)
    (hrewrites : ∀ u₁ ∈ s₁.tabs, u₁.id = u.id → Rewrites proper (keeps u.id) u u₁)
    (hbefore : ∀ t' ∈ s₁.tabs, Becomes proper keeps used s.tabs t') {view : ViewInstance}
    (hview : proper → view.target.kind ≠ .welcome) (targetPaneId : String) (zone : PaneDropZone) :
    DropChanges proper keeps used used' s
      (placeSidebarViewInPane s₁ view u.id targetPaneId zone) := by
  rw [placeSidebarViewInPane]
  split
  · exact dropChanges_none
  rename_i u₁ hfind
  obtain ⟨hu₁, hid⟩ := mem_of_findTab hfind
  split
  · rename_i hhas
    exact placedIn_changes hu (hrewrites u₁ hu₁ hid) hbefore hview
      (OrderedMap.has_eq_true.mp hhas) u.id
  · exact dropChanges_none

/-- Before anything happens every Tab is as it was. -/
private theorem rewrites_self (h : SnapshotOk allowed used s) {u : WorkbenchTab} (hu : u ∈ s.tabs) :
    ∀ u₁ ∈ s.tabs, u₁.id = u.id → Rewrites proper (keeps u.id) u u₁ := fun u₁ hu₁ hid ↦
  List.inj_on_of_nodup_map h.tabs_ok.nodup_ids hu₁ hu hid ▸ (SameShape.refl u₁).rewrites

/-- A focused Pane changes no Tab but in its focus. -/
private theorem focusPane_dropChanges (location : PaneLocation) :
    DropChanges proper keeps used used' s (do
      let snapshot ← focusPane s location
      return some { snapshot, tabId := location.tabId, paneId := location.paneId }) := by
  refine Ensures.bind (P := fun s' _ ↦ ∀ t' ∈ s'.tabs, Becomes proper keeps used s.tabs t')
    (focusPane_changes s location) fun s' _ _ hs' ↦ dropChanges_some hs'

theorem dropSidebar_changes (h : SnapshotOk allowed used s) (hwelcome : allowed welcomeTarget)
    {source : ViewTarget} (hsource : proper → source.kind ≠ .welcome) (target : ViewDropTarget) :
    DropChanges proper keeps used used s (dropSidebar s source target) := by
  have hnew : ∀ {used₁ : Set String}, Ensures used₁ (viewInstance source) fun view _ ↦
      proper → view.target.kind ≠ .welcome := fun {used₁} ↦
    (viewInstance_ensures source).mono fun view _ _ hview hproper ↦ hview ▸ hsource hproper
  have htaken := takeDraggedSessionView_ensures proper keeps h hwelcome source
  cases target with
  | existingTab tabId =>
    rw [dropSidebar]
    split
    · exact dropChanges_none
    rename_i u hfind
    obtain ⟨hu, rfl⟩ := mem_of_findTab hfind
    refine htaken.bind fun result used₁ hsub hresult ↦ ?_
    cases result with
    | none =>
      refine hnew.bind fun view _ hsub₂ hview ↦ ?_
      exact openSidebarViewInTab_changes (h.mono (hsub.trans hsub₂)) hu (rewrites_self h hu)
        (fun _ ↦ becomes_of_mem) hview
    | some result =>
      obtain ⟨s₁, view, location⟩ := result
      obtain ⟨hkind, t, ht, hid, hdetached⟩ := hresult s₁ view location rfl
      dsimp only
      split
      · exact focusPane_dropChanges ⟨u.id, location.paneId⟩
      · rename_i hne
        have hrewrites := hdetached.rewrites h.tabs_ok.nodup_ids ht hu
          (h.tabs_ok.tab_ok u hu).focus_mem fun heq ↦ absurd (hid.symm.trans heq.symm) hne
        exact openSidebarViewInTab_changes hdetached.snapshot_ok hu
          (fun u₁ hu₁ hid₁ ↦ (hrewrites u₁ hu₁ hid₁).1) (hdetached.becomes ht) fun _ ↦ hkind
  | newTab index =>
    rw [dropSidebar]
    refine htaken.bind fun result used₁ hsub hresult ↦ ?_
    cases result with
    | none =>
      refine hnew.bind fun view _ hsub₂ _ ↦ draws_generateId.then fun paneId _ hsub₃ ↦ ?_
      exact insertPresentationTab_changes (hsub.trans (hsub₂.trans hsub₃)) (fun _ ↦ becomes_of_mem)
        view index paneId
    | some result =>
      obtain ⟨s₁, view, location⟩ := result
      obtain ⟨-, t, ht, -, hdetached⟩ := hresult s₁ view location rfl
      exact insertPresentationTab_changes hsub (hdetached.becomes ht) view index location.paneId
  | pane tabId targetPaneId zone =>
    rw [dropSidebar]
    split
    · exact dropChanges_none
    rename_i u hfind
    obtain ⟨hu, rfl⟩ := mem_of_findTab hfind
    split
    · exact dropChanges_none
    rename_i hhas
    rw [Bool.not_eq_false] at hhas
    refine htaken.bind fun result used₁ _ hresult ↦ ?_
    cases result with
    | none =>
      refine hnew.bind fun view _ _ hview ↦ ?_
      exact placeSidebarViewInPane_changes hu (rewrites_self h hu) (fun _ ↦ becomes_of_mem) hview
        targetPaneId zone
    | some result =>
      obtain ⟨s₁, view, location⟩ := result
      obtain ⟨hkind, t, ht, hid, hdetached⟩ := hresult s₁ view location rfl
      dsimp only
      split
      · exact focusPane_dropChanges ⟨u.id, location.paneId⟩
      · rename_i hne
        have hrewrites := hdetached.rewrites h.tabs_ok.nodup_ids ht hu
          (OrderedMap.has_eq_true.mp hhas) fun heq hpane ↦
            hne ⟨hid.symm.trans heq.symm, hpane.symm⟩
        exact placeSidebarViewInPane_changes hu (fun u₁ hu₁ hid₁ ↦ (hrewrites u₁ hu₁ hid₁).1)
          (hdetached.becomes ht) (fun _ ↦ hkind) targetPaneId zone

/-! ## Every command -/

/-- A command opens no Welcome and puts no View beside one. -/
structure ShunsWelcome (s : WorkbenchSnapshot) (op : WorkbenchOp) : Prop where
  target : ∀ target ∈ op.target, target.kind ≠ .welcome
  drop : ∀ source target, op = .viewDrop source target → ¬mixesWelcome s source target

/-- A command keeps the layout mode of a Tab. -/
def KeepsMode (s : WorkbenchSnapshot) (op : WorkbenchOp) (tabId : String) : Prop :=
  ∀ mode, op = .setLayoutMode mode → tabId ≠ s.activeTabId

theorem applyViewDrop_changes (h : SnapshotOk allowed used s) (hwelcome : allowed welcomeTarget)
    {source : ViewDragSource} {target : ViewDropTarget}
    (htarget : proper → ∀ dragged ∈ source.targets, dragged.kind ≠ .welcome)
    (hmixes : proper → ¬mixesWelcome s source target) :
    DropChanges proper keeps used used s (applyViewDrop s source target) := by
  cases source with
  | tab tabId => exact dropTab_changes h hmixes
  | pane tabId paneId => exact dropPane_changes h hmixes
  | sidebar dragged =>
    exact dropSidebar_changes h hwelcome (fun hproper ↦ htarget hproper dragged rfl) target

/-- **What every command makes of the Tabs.** -/
theorem applyOp_changes (h : SnapshotOk allowed used s) (hwelcome : allowed welcomeTarget)
    (op : WorkbenchOp) :
    Changes (ShunsWelcome s op) (KeepsMode s op) used used s (applyOp s op) := by
  cases op with
  | openTarget target | openDeepLinkTarget target =>
    exact applyOpenTarget_changes h Set.Subset.rfl fun hshuns ↦ hshuns.target target rfl
  | splitPane paneId target dir =>
    exact applySplitPane_changes h hwelcome (fun hshuns ↦ hshuns.target target rfl) paneId dir
  | splitFocused target dir =>
    exact applySplitFocused_changes h hwelcome (fun hshuns ↦ hshuns.target target rfl) dir
  | closePane paneId => exact applyClosePane_changes h paneId
  | setFocused paneId => exact applySetFocused_changes s paneId
  | replacePaneTarget paneId target =>
    exact applyReplacePaneTarget_changes h paneId fun hshuns ↦ hshuns.target target rfl
  | viewDrop source target =>
    refine Ensures.map (P := fun result _ ↦ ∀ r, result = some r → ∀ t' ∈ r.snapshot.tabs,
      Becomes (ShunsWelcome s (.viewDrop source target))
      (KeepsMode s (.viewDrop source target)) used
        s.tabs t')
      (applyViewDrop_changes h hwelcome (fun hshuns ↦ hshuns.target)
        fun hshuns ↦ hshuns.drop source target rfl) fun result _ _ hresult ↦ ?_
    cases result with
    | none => exact fun t' ht' ↦ becomes_of_mem ht'
    | some r => exact hresult r rfl
  | setSplitRatio splitId index ratio => exact applySetSplitRatio_changes s splitId index ratio
  | setLayoutMode mode =>
    exact applySetLayoutMode_changes (fun hkeeps ↦ hkeeps mode rfl rfl) mode
  | columnChange columnId change => exact applyColumnChange_changes s columnId change
  | moveInColumn paneId direction => exact applyMoveInColumn_changes s paneId direction
  | createTab => exact applyCreateTab_changes s
  | activateTab tabId => exact changes_pure fun _ ht ↦ tabs_applyActivateTab s tabId ▸ ht
  | renameTab tabId title => exact applyRenameTab_changes s tabId title
  | closeTab tabId => exact applyCloseTab_changes s tabId
  | moveTab fromIndex toIndex =>
    exact changes_pure fun _ ht ↦ (applyMoveTab_perm s fromIndex toIndex).1.mem_iff.mp ht
  | removeSessionViews target => exact removePaneIdsFromTabs_changes s _ _
  | dedupeSessionViews => exact removePaneIdsFromTabs_changes s _ _
  | removeWorkspaceViews => exact removePaneIdsFromTabs_changes s _ _
  | removeNewAgentSessionViews e w d => exact removePaneIdsFromTabs_changes s _ _
  | pruneWorkspaceViews known observed => exact removePaneIdsFromTabs_changes s _ _

end Awen.Workbench
