import Mathlib
import Awen.Workbench.SnapshotInvariant

/-!
# What the commands do

One lemma for each command of `Commands`: from a snapshot that satisfies the invariant it returns
one that does, without a throw, and what it did is a step of the board. The lemmas follow the
program text; lookups are turned into facts about the board first, because several commands share
them.
-/

namespace Awen.Workbench

open LayoutNode

variable {allowed : ViewTarget → Prop} {used used' : Set String}

/-! ## Lookups -/

theorem findPaneByTarget_eq_none {t : WorkbenchTab} {target : ViewTarget} :
    findPaneByTarget t target = none ↔
      ∀ e ∈ t.panes.entries, targetKey e.2.target ≠ targetKey target := by
  rw [findPaneByTarget, Option.map_eq_none_iff, List.find?_eq_none]
  exact forall₂_congr fun e _ ↦ by rw [decide_eq_true_iff]

theorem findPaneByTarget_eq_some {t : WorkbenchTab} {target : ViewTarget} {paneId : String}
    (h : findPaneByTarget t target = some paneId) :
    ∃ view, t.panes.get paneId = some view ∧ targetKey view.target = targetKey target := by
  rw [findPaneByTarget, Option.map_eq_some_iff] at h
  obtain ⟨e, he, rfl⟩ := h
  exact ⟨e.2, OrderedMap.get_eq_some.mpr (List.mem_of_find?_eq_some he),
    by simpa using List.find?_some he⟩

/-- Where a Session is found, a View of it is shown. -/
theorem findSessionViewPane_eq_some {s : WorkbenchSnapshot} {target : ViewTarget}
    {location : PaneLocation} (h : findSessionViewPane s target = some location) :
    ∃ l t r view, s.tabs = l ++ t :: r ∧ t.id = location.tabId ∧
      t.panes.get location.paneId = some view ∧
      isSameSessionTarget view.target target = true := by
  rw [findSessionViewPane] at h
  split at h
  · obtain ⟨t, ht, hloc⟩ := List.exists_of_findSome?_eq_some h
    obtain ⟨paneId, hpane, rfl⟩ := Option.map_eq_some_iff.mp hloc
    rw [findPaneBySessionTarget, Option.map_eq_some_iff] at hpane
    obtain ⟨e, he, rfl⟩ := hpane
    obtain ⟨l, r, htabs⟩ := List.append_of_mem ht
    exact ⟨l, t, r, e.2, htabs, rfl, OrderedMap.get_eq_some.mpr (List.mem_of_find?_eq_some he),
      by simpa using List.find?_some he⟩
  · cases h

/-- Where no Session is found, none is shown. -/
theorem findSessionViewPane_eq_none {s : WorkbenchSnapshot} {target : ViewTarget}
    (h : findSessionViewPane s target = none) :
    ∀ t ∈ s.tabs, ∀ e ∈ t.panes.entries, ¬isSameSessionTarget e.2.target target = true := by
  intro t ht e he hsame
  rw [findSessionViewPane] at h
  split at h
  · have hnone := List.findSome?_eq_none_iff.mp h t ht
    rw [Option.map_eq_none_iff, findPaneBySessionTarget, Option.map_eq_none_iff,
      List.find?_eq_none] at hnone
    exact hnone e he hsame
  · rename_i hkind
    obtain ⟨session, -, htarget⟩ := isSameSessionTarget_iff.mp hsame
    exact hkind (isSessionViewTarget_iff.mpr ⟨session, htarget⟩)

theorem entry_of_mem_board {tabs : List WorkbenchTab} {p : Placed} (hp : p ∈ board tabs) :
    ∃ t ∈ tabs, t.id = p.tabId ∧ (p.paneId, p.view) ∈ t.panes.entries := by
  obtain ⟨t, ht, hpt⟩ := mem_board.mp hp
  obtain ⟨hid, hentry, -⟩ := mem_tabBoard.mp hpt
  exact ⟨t, ht, hid, hentry⟩

/-- A target found neither in the active Tab nor in another one is shown nowhere. -/
theorem not_open {s : WorkbenchSnapshot} {t : WorkbenchTab} {target : ViewTarget}
    {l r : List WorkbenchTab} (htabs : s.tabs = l ++ t :: r)
    (hnew : t.id ∉ (l ++ r).map fun t ↦ t.id) (hactive : findPaneByTarget t target = none)
    (hother : findInOtherTab s t.id target = none) :
    ∀ p ∈ board s.tabs, targetKey p.view.target ≠ targetKey target := by
  intro p hp
  obtain ⟨u, hu, -, he⟩ := entry_of_mem_board hp
  by_cases hid : u.id = t.id
  · have hut : u = t := by
      rw [htabs] at hu
      rcases List.mem_append.mp hu with hl | hr
      · exact absurd (List.mem_map.mpr ⟨u, List.mem_append_left r hl, hid⟩) hnew
      · rcases List.mem_cons.mp hr with heq | hr'
        · exact heq
        · exact absurd (List.mem_map.mpr ⟨u, List.mem_append_right l hr', hid⟩) hnew
    exact findPaneByTarget_eq_none.mp (hut ▸ hactive) _ he
  · have hnone := List.findSome?_eq_none_iff.mp hother u hu
    rw [if_neg hid, Option.map_eq_none_iff] at hnone
    exact findPaneByTarget_eq_none.mp hnone _ he

/-! ## Focus -/

theorem snapshotOk_applyActivateTab {s : WorkbenchSnapshot} (h : SnapshotOk allowed used s)
    (tabId : String) : SnapshotOk allowed used (applyActivateTab s tabId) := by
  rw [applyActivateTab]
  split
  · rename_i hcond
    obtain ⟨t, ht, hid⟩ := List.any_eq_true.mp hcond.1
    exact ⟨h.tabs_ok, List.mem_map.mpr ⟨t, ht, of_decide_eq_true hid⟩⟩
  · exact h

@[simp] theorem tabs_applyActivateTab (s : WorkbenchSnapshot) (tabId : String) :
    (applyActivateTab s tabId).tabs = s.tabs := by
  rw [applyActivateTab]
  split <;> rfl

/-- Activating a Tab that exists makes it the active one. -/
theorem activeTabId_applyActivateTab {s : WorkbenchSnapshot} {tabId : String}
    (h : tabId ∈ s.tabs.map fun t ↦ t.id) : (applyActivateTab s tabId).activeTabId = tabId := by
  obtain ⟨t, ht, hid⟩ := List.mem_map.mp h
  rw [applyActivateTab]
  split
  · rfl
  · rename_i hcond
    rw [not_and, not_not] at hcond
    exact hcond (List.any_eq_true.mpr ⟨t, ht, decide_eq_true hid⟩)

/-- What focusing leaves of the snapshot: every Tab keeps its Panes, and only the Tab that gets the
focus changes at all. -/
structure FocusMoved (tabId : String) (s s' : WorkbenchSnapshot) : Prop where
  board_eq : board s'.tabs = board s.tabs
  tabs_match : TabsMatch [tabId] s.tabs s'.tabs
  keeps_panes : ∀ t ∈ s.tabs, ∃ t' ∈ s'.tabs, t'.id = t.id ∧ t'.panes = t.panes
  active_eq : s'.activeTabId = tabId

/-- Setting the focus changes nothing but the focus of the active Tab. -/
theorem applySetFocused_post {s : WorkbenchSnapshot} (h : SnapshotOk allowed used s)
    (paneId : String) : Supply.Post used (applySetFocused s paneId) fun s' used' ↦
      SnapshotOk allowed used' s' ∧ FocusMoved s.activeTabId s s' := by
  obtain ⟨t, l, r, hactive, htabs, hid⟩ := getActiveTab_eq h
  have hok := (tabsOk_middle.mp (htabs ▸ h.tabs_ok)).2.1
  have hes := (tabsOk_middle.mp (htabs ▸ h.tabs_ok)).2.2.2.2
  rw [applySetFocused]
  refine (Supply.Post.ofExcept hactive (Q := fun t' used' ↦ t' = t ∧ used' = used)
    ⟨rfl, rfl⟩).bind fun t' used₁ _ ⟨ht', hused⟩ ↦ ?_
  subst ht' hused
  split
  · exact Supply.Post.pure ⟨h, rfl, TabsMatch.refl _ _, fun t ht ↦ ⟨t, ht, rfl, rfl⟩, rfl⟩
  · rename_i hcond
    rw [not_or, Bool.not_eq_false, OrderedMap.has_eq_true] at hcond
    have hpre : TabPre used₁ { t' with focusedPaneId := paneId } :=
      { hok.toTabPre with focus_mem := hcond.1 }
    refine (updateTab_post h Set.Subset.rfl htabs hpre rfl hes).mono
      fun s' used₂ _ ⟨hok', hact, t₂, htabs', hsame⟩ ↦ ⟨hok', ?_, ?_, ?_, hact⟩
    · rw [htabs', htabs, board_middle, board_middle, hsame.tabBoard_eq]
      rfl
    · rw [htabs', htabs, ← hid]
      exact tabsMatch_middle l r hsame.id_eq
    · rw [htabs', htabs]
      refine List.forall_mem_append.mpr ⟨fun t ht ↦ ⟨t, by simp [ht], rfl, rfl⟩,
        List.forall_mem_cons.mpr ⟨⟨t₂, by simp, hsame.id_eq, hsame.panes_eq⟩,
          fun t ht ↦ ⟨t, by simp [ht], rfl, rfl⟩⟩⟩

theorem focusPane_post {s : WorkbenchSnapshot} (h : SnapshotOk allowed used s)
    (location : PaneLocation) : Supply.Post used (focusPane s location) fun s' used' ↦
      SnapshotOk allowed used' s' ∧ board s'.tabs = board s.tabs ∧
      (location.tabId ∈ s.tabs.map (fun t ↦ t.id) → FocusMoved location.tabId s s') := by
  rw [focusPane]
  refine (applySetFocused_post (snapshotOk_applyActivateTab h location.tabId) _).mono
    fun s' used' _ ⟨hok, hmoved⟩ ↦ ⟨hok, ?_, fun hmem ↦ ?_⟩
  · rw [hmoved.board_eq, tabs_applyActivateTab]
  · rw [activeTabId_applyActivateTab hmem] at hmoved
    have htabs := tabs_applyActivateTab s location.tabId
    exact ⟨htabs ▸ hmoved.board_eq, htabs ▸ hmoved.tabs_match, htabs ▸ hmoved.keeps_panes,
      hmoved.active_eq⟩

/-! ## New Tabs -/

/-- What a new Tab for a View looks like from outside. -/
structure Inserted (used used' : Set String) (s : WorkbenchSnapshot) (view : ViewInstance)
    (index : ℤ) (paneId : String) (r : ViewDropResult) (t : WorkbenchTab) : Prop where
  single : SingleTab t paneId view
  id_new : t.id ∉ used
  tabs_eq : r.snapshot.tabs = insertAt (max 0 (min index s.tabs.length)).toNat t s.tabs
  active_eq : r.snapshot.activeTabId = t.id
  tabId_eq : r.tabId = t.id
  paneId_eq : r.paneId = paneId

/-- **A new Tab.** The View that fits joins the board in it. -/
theorem insertPresentationTab_post {s : WorkbenchSnapshot} (h : SnapshotOk allowed used s)
    {view : ViewInstance} {paneId : String}
    (hes : EntriesOk allowed used ((paneId, view) :: entriesOf s.tabs)) (index : ℤ) :
    Supply.Post used (insertPresentationTab s view index paneId) fun r used' ↦
      SnapshotOk allowed used' r.snapshot ∧
      board r.snapshot.tabs = placedBoard ⟨r.tabId, r.paneId, view⟩ + board s.tabs ∧
      ∃ t, Inserted used used' s view index paneId r t := by
  rw [insertPresentationTab]
  refine Supply.Post.bind (P := fun tab used₁ ↦ tab.layout = .leaf paneId ∧
    tab.focusedPaneId = paneId ∧ tab.id ∉ used ∧ tab.id ∈ used₁) ?_
    fun tab used₁ hsub htab ↦ Supply.Post.pure ?_
  · rw [newTab]
    refine generateId_post.bind fun id used₂ _ hid ↦ Supply.Post.pure ⟨rfl, rfl, hid.1, ?_⟩
    exact hid.2 ▸ Set.mem_insert id _
  · obtain ⟨hlayout, hfocus, hnew, hmem⟩ := htab
    let t : WorkbenchTab := { tab with
      panes := .singleton paneId view
      titleMode := .auto
      titleOverride := none }
    have hsingle : SingleTab t paneId view := ⟨hlayout, hfocus, rfl, rfl, rfl, rfl, rfl⟩
    have hid : t.id ∉ s.tabs.map fun t ↦ t.id := by
      intro hmem'
      obtain ⟨u, hu, heq⟩ := List.mem_map.mp hmem'
      have huse := h.tabs_ok.ids_used u hu
      rw [heq] at huse
      exact hnew huse
    have htabs : TabsOk allowed used₁ (t :: s.tabs) :=
      tabsOk_cons.mpr ⟨h.tabs_ok.toTabsBase.mono hsub, hsingle.tabOk, hmem, hid, hes.mono hsub⟩
    have hperm := insertAt_perm (max 0 (min index s.tabs.length)).toNat t s.tabs
    refine ⟨⟨htabs.perm hperm, ?_⟩, ?_, t, hsingle, hnew, rfl, rfl, rfl, rfl⟩
    · exact List.mem_map.mpr ⟨t, hperm.mem_iff.mpr List.mem_cons_self, rfl⟩
    · refine (board_perm hperm).trans ((board_cons t s.tabs).trans ?_)
      change (realEntries [(paneId, view)]).map (placeEntry t.id) + _ = _
      rw [map_realEntries_cons, realEntries_nil, Multiset.map_zero, add_zero]
      rfl

/-! ## Placing a View in a Tab of the snapshot -/

/-- An anchor that is gone falls back to the Tab's first Pane. -/
theorem anchorIn_spec {t : WorkbenchTab} (h : TabOk used t) (paneId : String) :
    ∃ anchor view, anchorIn t paneId = .ok anchor ∧ t.panes.get anchor = some view := by
  obtain ⟨anchor, hanchor, hmem⟩ : ∃ anchor, anchorIn t paneId = .ok anchor ∧
      anchor ∈ t.panes.keys := by
    rw [anchorIn]
    split
    · rename_i hhas
      exact ⟨_, rfl, OrderedMap.has_eq_true.mp hhas⟩
    · obtain ⟨a, ha, hfirst⟩ := firstLeafId_mem h.layout_wf.hasLeaves
      exact ⟨a, hfirst, h.leaves.mem_iff.mp ha⟩
  obtain ⟨view, hget⟩ := OrderedMap.mem_keys.mp hmem
  exact ⟨anchor, view, hanchor, hget⟩

/-- The View that makes room when another one lands on its Pane. -/
def replacedBoard (t : WorkbenchTab) (target : PlaceTarget) (anchor : ViewInstance) : Board :=
  if target.zone = .replace then placedBoard ⟨t.id, target.anchorPaneId, anchor⟩ else 0

/-- The Tab after placing a View, as part of the board. -/
theorem PlacedIn.board_eq {t t' : WorkbenchTab} {target : PlaceTarget} {view anchor : ViewInstance}
    {paneId : String} (h : PlacedIn t target view paneId t'.panes.entries) (hid : t'.id = t.id)
    (hget : t.panes.get target.anchorPaneId = some anchor) :
    ∃ rest, tabBoard t = replacedBoard t target anchor + rest ∧
      tabBoard t' = placedBoard ⟨t.id, paneId, view⟩ + rest ∧
      ∀ p ∈ rest, target.zone = .replace → p.paneId ≠ target.anchorPaneId := by
  have hsplit : tabBoard t = placedBoard ⟨t.id, target.anchorPaneId, anchor⟩ +
      (realEntries (t.panes.delete target.anchorPaneId).entries).map (placeEntry t.id) := by
    rw [tabBoard, realEntries_perm (OrderedMap.entries_perm_of_get hget), map_realEntries_cons]
    rfl
  cases h with
  | reuse reuses perm =>
    refine ⟨(realEntries (t.panes.delete target.anchorPaneId).entries).map (placeEntry t.id),
      ?_, ?_, fun p hp _ ↦ ?_⟩
    · rw [replacedBoard]
      split
      · exact hsplit
      · rename_i hzone
        rw [reusesAnchorPane, hget] at reuses
        simp only [hzone, false_or, Bool.decide_and, Bool.and_eq_true, decide_eq_true_eq] at reuses
        rw [hsplit, placedBoard, if_neg (by simp [isReal, reuses.2])]
    · rw [tabBoard, realEntries_perm perm, map_realEntries_cons, hid]
      rfl
    · obtain ⟨e, he, rfl⟩ := Multiset.mem_map.mp hp
      have hmem := (mem_realEntries.mp he).1
      rw [OrderedMap.entries_delete, List.mem_filter, decide_eq_true_iff] at hmem
      exact hmem.2
  | beside not_reuses perm =>
    have hzone : target.zone ≠ .replace := by
      rintro hzone
      rw [reusesAnchorPane, hget] at not_reuses
      simp [hzone] at not_reuses
    refine ⟨tabBoard t, ?_, ?_, fun p _ hz ↦ absurd hz hzone⟩
    · rw [replacedBoard, if_neg hzone, zero_add]
    · rw [tabBoard, realEntries_perm perm, map_realEntries_cons, hid]
      rfl

/-- **Placing a View in a Tab and updating it.** -/
theorem placeAndUpdate_post {s : WorkbenchSnapshot} (h : SnapshotOk allowed used s)
    {l r : List WorkbenchTab} {t : WorkbenchTab} (htabs : s.tabs = l ++ t :: r)
    {view anchor : ViewInstance} (hview : ViewFits allowed used (entriesOf s.tabs) view)
    (target : PlaceTarget) (hget : t.panes.get target.anchorPaneId = some anchor)
    (hpane : ∀ p, target.paneId = some p → p ∈ used ∧ p ∉ (entriesOf s.tabs).map Prod.fst) :
    Supply.Post used (do
      let (placed, paneId) ← placeViewInTab t view target
      let s' ← updateTab s placed
      return (s', paneId)) fun result used' ↦
      SnapshotOk allowed used' result.1 ∧ result.1.activeTabId = s.activeTabId ∧
      (∃ t', result.1.tabs = l ++ t' :: r ∧ t'.id = t.id ∧
        t'.panes.get result.2 = some view) ∧
      ∃ rest, board s.tabs = replacedBoard t target anchor + rest ∧
        board result.1.tabs = placedBoard ⟨t.id, result.2, view⟩ + rest ∧
        ∀ p ∈ rest, target.zone = .replace → ⟨p.tabId, p.paneId⟩ ≠
          (⟨t.id, target.anchorPaneId⟩ : PaneLocation) := by
  obtain ⟨-, hok, -, hnew, hes⟩ := tabsOk_middle.mp (htabs ▸ h.tabs_ok)
  have hperm : (t.panes.entries ++ entriesOf (l ++ r)).Perm (entriesOf s.tabs) := by
    rw [htabs, ← entriesOf_cons]
    exact entriesOf_perm List.perm_middle.symm
  refine (placeViewInTab_post hok hes (hview.subset hperm.subset) target
    (OrderedMap.mem_keys_of_get hget) fun p hp ↦ ⟨(hpane p hp).1, fun hmem ↦
      (hpane p hp).2 ((hperm.map Prod.fst).mem_iff.mp hmem)⟩).bind
    fun ⟨placed, paneId⟩ used₁ hsub₁ ⟨hpre, hid, hgot, hfocus, hes₁, hplaced⟩ ↦ ?_
  refine (updateTab_post h hsub₁ htabs hpre hid hes₁).bind
    fun s' used₂ hsub₂ ⟨hok', hactive, t₂, htabs', hsame⟩ ↦ Supply.Post.pure ?_
  obtain ⟨rest, hbefore, hafter, hfree⟩ := hplaced.board_eq hid hget
  refine ⟨hok', hactive, ⟨t₂, htabs', hsame.id_eq.trans hid, ?_⟩, rest + board (l ++ r), ?_, ?_,
    fun p hp hzone heq ↦ ?_⟩
  · rw [hsame.panes_eq]
    exact hgot
  · rw [htabs, board_middle, hbefore, add_assoc]
  · rw [htabs', board_middle, hsame.tabBoard_eq, hafter, add_assoc]
  · rw [PaneLocation.mk.injEq] at heq
    rcases Multiset.mem_add.mp hp with hrest | hother
    · exact hfree p hrest hzone heq.2
    · obtain ⟨u, hu, huid, -⟩ := entry_of_mem_board hother
      exact hnew (List.mem_map.mpr ⟨u, hu, huid.trans heq.1⟩)

/-! ## Detaching a View -/

/-- A View detached from its Tab: off the board, and fit to join it again. -/
structure Detached (allowed : ViewTarget → Prop) (used' : Set String) (s s₁ : WorkbenchSnapshot)
    (t : WorkbenchTab) (paneId : String) (view : ViewInstance) : Prop where
  ok : SnapshotOk allowed used' s₁
  active_eq : s₁.activeTabId = s.activeTabId
  entries_ok : EntriesOk allowed used' ((paneId, view) :: entriesOf s₁.tabs)
  board_eq : board s.tabs = placedBoard ⟨t.id, paneId, view⟩ + board s₁.tabs

theorem Detached.fits {s s₁ : WorkbenchSnapshot} {t : WorkbenchTab} {paneId : String}
    {view : ViewInstance} (h : Detached allowed used s s₁ t paneId view) :
    ViewFits allowed used (entriesOf s₁.tabs) view := by
  obtain ⟨-, -, hv, -, hvu, ha, hd⟩ := entriesOk_cons.mp h.entries_ok
  exact ⟨hv, hvu, ha, hd⟩

/-- The snapshot with one Tab replaced by what closing a Pane made of it. -/
theorem detached_of_refilled {s : WorkbenchSnapshot} (h : SnapshotOk allowed used s)
    (hwelcome : allowed welcomeTarget) (hsub : used ⊆ used') {l r : List WorkbenchTab}
    {t t₁ : WorkbenchTab} (htabs : s.tabs = l ++ t :: r) {paneId : String} {view : ViewInstance}
    (hget : t.panes.get paneId = some view) (hok : TabOk used' t₁) (hid : t₁.id = t.id)
    (hfill : Refilled used used' (t.panes.delete paneId).entries t₁.panes.entries) :
    replaceTab s.tabs t.id t₁ = l ++ t₁ :: r ∧
      Detached allowed used' s { s with tabs := l ++ t₁ :: r } t paneId view := by
  have htabsOk : TabsOk allowed used (l ++ t :: r) := htabs ▸ h.tabs_ok
  obtain ⟨-, -, -, hnew, hes⟩ := tabsOk_middle.mp htabsOk
  have hperm := OrderedMap.entries_perm_of_get hget
  -- the other entries, with the detached one among the rest
  have hes' : EntriesOk allowed used ((t.panes.delete paneId).entries ++
      ((paneId, view) :: entriesOf (l ++ r))) := by
    refine hes.perm (List.perm_middle.trans ?_)
    rw [← List.cons_append]
    exact (hperm.append_right _).symm
  have hes₁ := hfill.entriesOk hwelcome hsub hes'
  have hcons : EntriesOk allowed used' ((paneId, view) :: (t₁.panes.entries ++
      entriesOf (l ++ r))) := hes₁.perm List.perm_middle.symm
  refine ⟨htabs ▸ replaceTab_middle hnew t₁, ⟨⟨?_, ?_⟩, rfl, ?_, ?_⟩⟩
  · exact htabsOk.replace hsub hok hid (entriesOk_cons.mp hcons).1
  · change s.activeTabId ∈ (l ++ t₁ :: r).map _
    rw [map_id_middle hid, ← htabs]
    exact h.active_mem
  · refine hcons.perm (List.Perm.cons _ ?_)
    rw [← entriesOf_cons]
    exact entriesOf_perm List.perm_middle
  · change board s.tabs = _ + board (l ++ t₁ :: r)
    rw [htabs, board_middle, board_middle, ← add_assoc]
    congr 1
    rw [tabBoard, tabBoard, realEntries_perm hperm, map_realEntries_cons, hfill.realEntries_eq, hid]
    rfl

/-- **Detaching a View.** -/
theorem detachView_post {s : WorkbenchSnapshot} (h : SnapshotOk allowed used s)
    (hwelcome : allowed welcomeTarget) {l r : List WorkbenchTab} {t : WorkbenchTab}
    (htabs : s.tabs = l ++ t :: r) {location : PaneLocation} (hid : t.id = location.tabId)
    {view : ViewInstance} (hget : t.panes.get location.paneId = some view) :
    Supply.Post used (detachView s location) fun result used' ↦ ∃ s₁ t₁,
      result = some (s₁, view) ∧ s₁.tabs = l ++ t₁ :: r ∧ t₁.id = t.id ∧
      Refilled used used' (t.panes.delete location.paneId).entries t₁.panes.entries ∧
      Detached allowed used' s s₁ t location.paneId view := by
  obtain ⟨-, hok, -, hnew, -⟩ := tabsOk_middle.mp (htabs ▸ h.tabs_ok)
  have hfind : findTab s location.tabId = some t := hid ▸ findTab_middle htabs hnew
  rw [detachView]
  simp only [hfind, hget, removeViewFromTab_eq (OrderedMap.mem_keys_of_get hget), bind_map_left]
  refine (closePaneInTab_post hok location.paneId).bind fun t₁ used₁ hsub hclosed ↦ ?_
  obtain ⟨hok₁, hid₁, hfill⟩ := hclosed
  refine Supply.Post.pure ?_
  obtain ⟨hreplace, hdetached⟩ := detached_of_refilled h hwelcome hsub htabs hget hok₁ hid₁ hfill
  rw [hreplace]
  exact ⟨_, t₁, rfl, rfl, hid₁, hfill, hdetached⟩

end Awen.Workbench
