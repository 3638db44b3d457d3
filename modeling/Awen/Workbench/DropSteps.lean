import Awen.Workbench.DropSpec

/-!
# Dropping Tabs and Panes

One theorem for each combination of a Tab or a Pane as the drag source with a drop target. Where two
Tabs change at once, what is to be shown of them is stated by a lemma of its own (`…_finish`), so
that the combinations that take a different path to the same pair of Tabs share the rest.
-/

namespace Awen.Workbench

open LayoutNode

variable {allowed : ViewTarget → Prop} {used used' : Set String}

/-! ## Tabs as drag sources -/

theorem dragOrigin_tab {s : WorkbenchSnapshot} (h : SnapshotOk allowed used s) {t : WorkbenchTab}
    (ht : t ∈ s.tabs) {paneId : String} (hfirst : firstLeafId t.layout = .ok paneId) :
    dragOrigin s (.tab t.id) = some ⟨t.id, paneId⟩ := by
  obtain ⟨l, r, htabs⟩ := List.append_of_mem ht
  have hnew := (tabsOk_middle.mp (htabs ▸ h.tabs_ok)).2.2.2.1
  rw [dragOrigin, findTab_middle htabs hnew, Option.bind_some, hfirst]
  rfl

/-- The first Pane of a Tab, with its View. -/
theorem firstPane {t : WorkbenchTab} (h : TabOk used t) :
    ∃ paneId view, firstLeafId t.layout = .ok paneId ∧ t.panes.get paneId = some view := by
  obtain ⟨paneId, hmem, hfirst⟩ := firstLeafId_mem h.layout_wf.hasLeaves
  obtain ⟨view, hget⟩ := OrderedMap.mem_keys.mp (h.leaves.mem_iff.mp hmem)
  exact ⟨paneId, view, hfirst, hget⟩

theorem tabsExcept_applyMoveTab {s : WorkbenchSnapshot} {i : ℕ} {t : WorkbenchTab}
    (ht : s.tabs[i]? = some t) (j : ℤ) :
    tabsExcept [t.id] (applyMoveTab s i j).tabs = tabsExcept [t.id] s.tabs := by
  have herase : tabsExcept [t.id] (s.tabs.eraseIdx i) = tabsExcept [t.id] s.tabs := by
    obtain ⟨l, r, hsplit, hlen, -⟩ := modify_eq_append_cons id ht
    have hdrop : s.tabs.eraseIdx i = l ++ r := by
      rw [hsplit, ← hlen, List.eraseIdx_append_of_length_le le_rfl, Nat.sub_self,
        List.eraseIdx_cons_zero]
    rw [hdrop, hsplit, tabsExcept, tabsExcept, List.filter_append, List.filter_append,
      List.filter_cons_of_neg (by simp)]
  rw [applyMoveTab]
  split
  · rfl
  · simp only [Int.toNat_natCast, ht]
    rw [tabsExcept_insertAt, herase]

/-- **A Tab on the tab strip.** No Tab changes. -/
theorem dropTabAt_ok {s : WorkbenchSnapshot} (h : SnapshotOk allowed used s) {i : ℕ}
    {t : WorkbenchTab} (ht : s.tabs[i]? = some t) (j : ℤ) {target : ViewDropTarget}
    (htarget : replacedPane s (.tab t.id) target = none) :
    DropOk allowed used used s (.tab t.id) target (dropTabAt s t i j) := by
  have hmem : t ∈ s.tabs := List.mem_of_getElem? ht
  obtain ⟨paneId, view, hfirst, hget⟩ := firstPane (h.tabs_ok.tab_ok t hmem)
  have horigin := dragOrigin_tab h hmem hfirst
  have hview := viewAt_of_mem h hmem hget
  obtain ⟨hperm, -⟩ := applyMoveTab_perm s i j
  have hok := snapshotOk_applyMoveTab h i j
  obtain ⟨l, r, htabs⟩ := List.append_of_mem hmem
  have hboard : board s.tabs = placedBoard ⟨t.id, paneId, view⟩ +
      (tabBoardExcept t paneId + board (l ++ r)) := by
    rw [htabs, board_middle, tabBoard_eq hget, add_assoc]
  rw [dropTabAt]
  refine (Supply.Post.ofExcept hfirst (Q := fun p used' ↦ p = paneId ∧ used' = used)
    ⟨rfl, rfl⟩).bind fun p used₁ _ ⟨hp, hused⟩ ↦ ?_
  subst hp hused
  refine Supply.Post.pure fun r' hr ↦ ?_
  cases hr
  exact ⟨hok, view, tabBoardExcept t p + board (l ++ r), {
    drags := .existing _ horigin hview
    holds := viewAt_of_mem hok (hperm.mem_iff.mpr hmem) hget
    before := by rw [horigin, htarget, boardAt_some hview, boardAt_none, zero_add, hboard]
    after := (board_perm hperm).trans hboard
    lands := .stays horigin htarget
    makes_room := fun _ _ ↦ by simp [htarget]
    strip_move := fun _ ↦ horigin
    target_exists := fun ⟨_, hsource⟩ ↦ by cases hsource
    tabs_match := by
      rw [movedTabs, tabsExcept_applyMoveTab ht]
      exact TabsMatch.refl _ _ }⟩

theorem tabsExcept_eq_self {ids : List String} {tabs : List WorkbenchTab}
    (h : ∀ t ∈ tabs, t.id ∉ ids) : tabsExcept ids tabs = tabs :=
  List.filter_eq_self.mpr fun t ht ↦ by simpa using h t ht

/-- A Tab whose only Pane shows Welcome has nothing on the board. -/
theorem tabBoard_eq_zero {t : WorkbenchTab} {paneId : String} {view : ViewInstance}
    (hget : t.panes.get paneId = some view) (hsize : t.panes.size = 1)
    (hkind : view.target.kind = .welcome) : tabBoard t = 0 := by
  rw [tabBoard, OrderedMap.size_eq_one hsize hget, realEntries_cons,
    if_neg (by simp [isReal, hkind]),
    realEntries_nil, Multiset.map_zero]

/-- What dropping a one-Pane Tab into another Tab leaves to show: that the target Tab, with the View
added, can be reconciled. -/
private theorem dropTabInPane_finish {s : WorkbenchSnapshot} (h : SnapshotOk allowed used s)
    {tab tgt t₁ : WorkbenchTab} {l r l' r' : List WorkbenchTab} (htabs : s.tabs = l ++ tab :: r)
    (htgt : l ++ r = l' ++ tgt :: r') {paneId targetPaneId : String} {view : ViewInstance}
    {zone : PaneDropZone} (hfirst : firstLeafId tab.layout = .ok paneId)
    (hentries : tab.panes.entries = [(paneId, view)])
    (hkey : findPaneByTarget tgt view.target = none) (hsub : used ⊆ used')
    (hpre : TabPre used' t₁) (hid : t₁.id = tgt.id) (hget : t₁.panes.get paneId = some view)
    (hes : EntriesOk allowed used' (t₁.panes.entries ++ entriesOf (l' ++ r')))
    (hboard : tabBoard t₁ = placedBoard ⟨tgt.id, paneId, view⟩ + tabBoard tgt) :
    DropOk allowed used used' s (.tab tab.id) (.pane tgt.id targetPaneId zone)
      ((fun targetAfter ↦ some {
        snapshot := {
          tabs := replaceTab (s.tabs.filter fun candidate ↦ candidate.id ≠ tab.id)
            tgt.id targetAfter
          activeTabId := tgt.id }
        tabId := tgt.id
        paneId }) <$> reconcileTab t₁) := by
  refine (reconcileTab_post hpre).map fun t₂ used₂ hsub₂ ⟨hok₂, hsame⟩ r₀ hr ↦ ?_
  cases hr
  have hmem : tab ∈ s.tabs := by rw [htabs]; exact List.mem_append_right l List.mem_cons_self
  have hviewTab : tab.panes.get paneId = some view :=
    OrderedMap.get_eq_some.mpr (hentries ▸ List.mem_singleton_self _)
  have htabsOk : TabsOk allowed used (l ++ tab :: r) := htabs ▸ h.tabs_ok
  obtain ⟨-, -, -, hnew, -⟩ := tabsOk_middle.mp htabsOk
  have hrest : TabsOk allowed used (l' ++ tgt :: r') :=
    htgt ▸ htabsOk.sublist (List.Sublist.append_left (List.sublist_cons_self tab r) l)
  have hnewTgt := (tabsOk_middle.mp hrest).2.2.2.1
  have hid₂ : t₂.id = tgt.id := hsame.id_eq.trans hid
  have hafter : replaceTab (s.tabs.filter fun candidate ↦ candidate.id ≠ tab.id) tgt.id t₂
      = l' ++ t₂ :: r' := by
    rw [htabs, filter_id_middle hnew, htgt, replaceTab_middle hnewTgt]
  have hok : SnapshotOk allowed used₂ ⟨l' ++ t₂ :: r', tgt.id⟩ :=
    ⟨hrest.replace (hsub.trans hsub₂) hok₂ hid₂ (by rw [hsame.panes_eq]; exact hes.mono hsub₂),
      List.mem_map.mpr ⟨t₂, List.mem_append_right l' List.mem_cons_self, hid₂⟩⟩
  have hview := viewAt_of_mem h hmem hviewTab
  have horigin := dragOrigin_tab h hmem hfirst
  have hreplaced : replacedPane s (.tab tab.id) (.pane tgt.id targetPaneId zone) = none := by
    cases zone <;> rfl
  rw [hafter]
  refine ⟨hok, view, tabBoard tgt + board (l' ++ r'), {
    drags := .existing _ horigin hview
    holds := ?_
    before := ?_
    after := ?_
    lands := .arrives (Or.inl rfl) fun _ ↦ unclaimed_of_findPaneByTarget hkey fun p hp htab ↦ ?_
    makes_room := fun _ _ ↦ by simp [hreplaced]
    strip_move := fun hstrip ↦ by cases hstrip
    target_exists := fun ⟨_, hsource⟩ ↦ by cases hsource
    tabs_match := ?_ }⟩
  · have hgot := viewAt_of_mem hok (t := t₂) (List.mem_append_right l' List.mem_cons_self)
      (by rw [hsame.panes_eq]; exact hget)
    rwa [hid₂] at hgot
  · rw [horigin, hreplaced, boardAt_some hview, boardAt_none, zero_add, htabs, board_middle, htgt,
      board_middle, tabBoard, hentries, map_realEntries_cons, realEntries_nil, Multiset.map_zero,
      add_zero]
    rfl
  · rw [board_middle, hsame.tabBoard_eq, hboard, add_assoc]
  · rcases Multiset.mem_add.mp hp with hp | hp
    · exact (mem_tabBoard.mp hp).2.1
    · obtain ⟨u, hu, huid, -⟩ := entry_of_mem_board hp
      exact absurd (List.mem_map.mpr ⟨u, hu, huid.trans htab⟩) hnewTgt
  · have hids : ∀ u ∈ l' ++ t₂ :: r', u.id ∉ [tab.id] := by
      intro u hu hmem'
      have hids := map_id_middle (l := l') (r := r') hid₂
      have hin : u.id ∈ (l' ++ tgt :: r').map fun t ↦ t.id := hids ▸ List.mem_map_of_mem hu
      rw [List.mem_singleton.mp hmem', ← htgt] at hin
      exact hnew hin
    rw [movedTabs, htabs, tabsExcept_middle hnew, htgt, tabsExcept_eq_self hids]
    refine (tabsMatch_middle l' r' hid₂).mono fun x hx ↦ ?_
    exact List.mem_append_right _ hx

/-- **A one-Pane Tab on a Pane of the active Tab.** -/
theorem dropTabInPane_ok {s : WorkbenchSnapshot} (h : SnapshotOk allowed used s)
    {tab : WorkbenchTab} (htab : tab ∈ s.tabs) (targetTabId targetPaneId : String)
    (zone : PaneDropZone) :
    DropOk allowed used used s (.tab tab.id) (.pane targetTabId targetPaneId zone)
      (dropTabInPane s tab targetTabId targetPaneId zone) := by
  obtain ⟨l, r, htabs⟩ := List.append_of_mem htab
  have htabsOk : TabsOk allowed used (l ++ tab :: r) := htabs ▸ h.tabs_ok
  obtain ⟨-, hokTab, -, -, hesTab⟩ := tabsOk_middle.mp htabsOk
  obtain ⟨paneId, view, hfirst, hget⟩ := firstPane hokTab
  rw [dropTabInPane]
  refine (Supply.Post.ofExcept hfirst (Q := fun p used' ↦ p = paneId ∧ used' = used)
    ⟨rfl, rfl⟩).bind fun p used₁ _ ⟨hp, hused⟩ ↦ ?_
  subst hp hused
  split
  · exact dropOk_none
  rename_i hactive
  rw [not_or, not_not] at hactive
  split
  · exact dropOk_none
  rename_i hsize
  rw [not_not] at hsize
  have hentries := OrderedMap.size_eq_one hsize hget
  rw [hget]
  split
  case h_2 => exact dropOk_none
  rename_i sourceView tgt hview hfind
  cases hview
  obtain ⟨hid, l₀, r₀, htabs₀⟩ := findTab_eq_some hfind
  subst hid
  have htgtMem : tgt ∈ l ++ r := by
    have hmem : tgt ∈ s.tabs := by rw [htabs₀]; exact List.mem_append_right _ List.mem_cons_self
    rw [htabs] at hmem
    rcases List.mem_append.mp hmem with hl | hr
    · exact List.mem_append_left r hl
    · rcases List.mem_cons.mp hr with heq | hr
      · exact absurd (heq ▸ hactive.2.symm) (Ne.symm hactive.1)
      · exact List.mem_append_right l hr
  obtain ⟨l', r', htgt⟩ := List.append_of_mem htgtMem
  have hrest : TabsOk allowed used₁ (l' ++ tgt :: r') :=
    htgt ▸ htabsOk.sublist (List.Sublist.append_left (List.sublist_cons_self tab r) l)
  have hokTgt := (tabsOk_middle.mp hrest).2.1
  -- the View's entry in front of the target Tab's and those of the Tabs that take no part
  have hes : EntriesOk allowed used₁
    ((p, view) :: (tgt.panes.entries ++ entriesOf (l' ++ r'))) := by
    rw [hentries, htgt] at hesTab
    refine hesTab.perm (List.Perm.cons _ ?_)
    rw [← entriesOf_cons]
    exact entriesOf_perm List.perm_middle.symm
  have hpane : p ∉ tgt.panes.keys := by
    have hnd := (entriesOk_cons.mp hes).2.1
    rw [List.map_append, List.mem_append, not_or] at hnd
    exact hnd.1
  split
  · exact dropOk_none
  rename_i targetPane htargetPane
  split
  · exact dropOk_none
  rename_i hkey
  rw [Bool.not_eq_true, Option.isSome_eq_false_iff, Option.isNone_iff_eq_none] at hkey
  dsimp only
  split
  · rename_i hwelcome
    have hpre : TabPre used₁ { tgt with
        layout := .leaf p
        panes := .singleton p view
        focusedPaneId := p } := { hokTgt.toTabPre with
      focus_mem := List.mem_singleton_self p
      bsp := fun _ ↦ ⟨.leaf p, List.Perm.refl _⟩ }
    refine dropTabInPane_finish h htabs htgt hfirst hentries hkey Set.Subset.rfl hpre rfl
      (OrderedMap.get_eq_some.mpr (List.mem_singleton_self _))
      (hes.sublist (List.Sublist.cons_cons _ (List.sublist_append_right _ _))) ?_
    rw [tabBoard_eq_zero htargetPane hwelcome.1 hwelcome.2, add_zero, tabBoard,
      OrderedMap.entries_singleton, map_realEntries_cons, realEntries_nil, Multiset.map_zero,
      add_zero]
    rfl
  · split
    · exact dropOk_none
    · rename_i edge
      have htarget : targetPaneId ∈ tgt.panes.keys := OrderedMap.mem_keys_of_get htargetPane
      have hset := OrderedMap.entries_set_perm tgt.panes p view
      rw [OrderedMap.delete_of_not_mem hpane] at hset
      have hne : p ≠ targetPaneId := fun heq ↦ hpane (heq ▸ htarget)
      refine (placedLayout_post hokTgt htarget hne (fun _ ↦ hpane) (.edge edge)).bind
        fun placed used₂ hsub₂ hplaced ↦ ?_
      have hpre := hplaced (tgt.panes.set p view) (by
        rw [placedPanes, filter_ne_eq_self hpane]
        exact hset.map Prod.fst)
      refine dropTabInPane_finish h htabs htgt hfirst hentries hkey hsub₂ hpre rfl
        (OrderedMap.get_set_self _ _ _)
        ((hes.mono hsub₂).perm (hset.append_right (entriesOf (l' ++ r')))) ?_
      change (realEntries (tgt.panes.set p view).entries).map _ = _
      rw [realEntries_perm hset, map_realEntries_cons]
      rfl

/-- **Dropping a Tab.** -/
theorem dropTab_ok {s : WorkbenchSnapshot} (h : SnapshotOk allowed used s) (tabId : String)
    (target : ViewDropTarget) :
    DropOk allowed used used s (.tab tabId) target (dropTab s tabId target) := by
  rw [dropTab.eq_def]
  split
  · exact dropOk_none
  rename_i i hfind
  obtain ⟨hi, hid, -⟩ := List.findIdx?_eq_some_iff_getElem.mp hfind
  have ht := List.getElem?_eq_getElem hi
  have htab := of_decide_eq_true hid
  rw [ht]
  dsimp only
  generalize s.tabs[i] = tab at ht htab
  subst htab
  cases target with
  | existingTab targetTabId =>
    dsimp only
    split <;> exact dropTabAt_ok h ht _ rfl
  | newTab index => exact dropTabAt_ok h ht _ rfl
  | pane targetTabId targetPaneId zone =>
    exact dropTabInPane_ok h (List.mem_of_getElem? ht) targetTabId targetPaneId zone

/-! ## Panes as drag sources -/

/-- Moving a Pane within its Tab leaves a Tab to reconcile. -/
theorem movedLayout_post {t : WorkbenchTab} (h : TabOk used t) {paneId targetPaneId : String}
    (hfrom : paneId ∈ t.panes.keys) (hto : targetPaneId ∈ t.panes.keys)
    (hne : paneId ≠ targetPaneId)
    (edge : PaneEdge) :
    Supply.Post used (movedLayout t paneId targetPaneId edge) fun placed used' ↦
      TabPre used' { t.withPlaced placed with focusedPaneId := paneId } := by
  rw [movedLayout]
  split
  · rename_i hmode
    refine (placedLayout_post h hto hne (fun hbsp ↦ absurd hmode hbsp) (.edge edge)).mono
      fun placed used₁ _ hplaced ↦ hplaced t.panes ?_
    rw [placedPanes, ← erase_eq_filter_ne t.panes.nodup]
    exact List.perm_cons_erase hfrom
  · rename_i hmode
    refine (movePane_post h.layout_wf h.nodup_leaves paneId targetPaneId edge).bind
      fun layout used₁ hsub hmoved ↦ ?_
    obtain ⟨hwf, hperm⟩ := hmoved
    exact Supply.Post.pure { h.toTabPre.mono hsub with
        focus_mem := hfrom
        bsp := fun _ ↦ ⟨hwf, hperm.trans h.leaves⟩
        columns_ok := fun hs ↦ absurd hs hmode }

/-- **A Pane within its Tab.** Only the layout and the focus change. -/
theorem dropPaneInOwnTab_ok {s : WorkbenchSnapshot} (h : SnapshotOk allowed used s)
    {tab : WorkbenchTab} (htab : tab ∈ s.tabs) {paneId targetPaneId : String} {view : ViewInstance}
    (hget : tab.panes.get paneId = some view) (hto : targetPaneId ∈ tab.panes.keys)
    (hne : paneId ≠ targetPaneId) (zone : PaneDropZone) :
    DropOk allowed used used s (.pane tab.id paneId) (.pane tab.id targetPaneId zone)
      (dropPaneInOwnTab s tab paneId targetPaneId zone) := by
  obtain ⟨l, r, htabs⟩ := List.append_of_mem htab
  obtain ⟨-, hok, -, -, hes⟩ := tabsOk_middle.mp (htabs ▸ h.tabs_ok)
  have hview := viewAt_of_mem h htab hget
  have hreplaced :
      replacedPane s (.pane tab.id paneId) (.pane tab.id targetPaneId zone) = none := by
    cases zone with
    | replace => exact if_pos rfl
    | edge edge => rfl
  rw [dropPaneInOwnTab.eq_def]
  refine (movedLayout_post hok (OrderedMap.mem_keys_of_get hget) hto hne _).bind
    fun placed used₁ hsub hpre ↦ ?_
  refine (updateTab_post h hsub htabs hpre rfl (hes.mono hsub)).bind
    fun s' used₂ _ ⟨hok', _, t₂, htabs', hsame⟩ ↦ Supply.Post.pure fun r₀ hr ↦ ?_
  cases hr
  have hboard : board s.tabs
      = placedBoard ⟨tab.id, paneId, view⟩ + (tabBoardExcept tab paneId + board (l ++ r)) := by
    rw [htabs, board_middle, tabBoard_eq hget, add_assoc]
  have hid₂ : t₂.id = tab.id := hsame.id_eq
  refine ⟨hok', view, _, {
    drags := .existing _ rfl hview
    holds := ?_
    before := by
      rw [hreplaced, boardAt_none, zero_add, dragOrigin, boardAt_some hview]
      exact hboard
    after := ?_
    lands := .stays rfl hreplaced
    makes_room := fun _ _ ↦ by simp [hreplaced]
    strip_move := fun hstrip ↦ by cases hstrip
    target_exists := fun ⟨_, hsource⟩ ↦ by cases hsource
    tabs_match := ?_ }⟩
  · have hgot : t₂.panes.get paneId = some view := hsame.panes_eq ▸ hget
    have hat := viewAt_of_mem hok' (htabs' ▸ List.mem_append_right l List.mem_cons_self) hgot
    rwa [hid₂] at hat
  · rw [htabs', board_middle, hsame.tabBoard_eq, ← hboard, htabs, board_middle]
    rfl
  · change TabsMatch _ (tabsExcept [] s.tabs) (tabsExcept [] s'.tabs)
    rw [tabsExcept_nil, tabsExcept_nil, htabs', htabs]
    exact (tabsMatch_middle l r hid₂).mono fun x hx ↦ List.mem_append_right _ hx

/-- Two Tabs replaced in place. -/
theorem replaceTwo {tabs others : List WorkbenchTab} {src tgt src' tgt' : WorkbenchTab}
    (h : TabsOk allowed used tabs) (hperm : tabs.Perm (src :: tgt :: others)) (hsub : used ⊆ used')
    (hsrc : TabOk used' src') (htgt : TabOk used' tgt') (hsid : src'.id = src.id)
    (htid : tgt'.id = tgt.id)
    (hes : EntriesOk allowed used' (src'.panes.entries ++ (tgt'.panes.entries ++ entriesOf others)))
    {tabs' : List WorkbenchTab} (htabs' : tabs' = tabs.map fun tab ↦
      if tab.id = src.id then src' else if tab.id = tgt.id then tgt' else tab) :
    TabsOk allowed used' tabs' ∧ board tabs' = tabBoard src' + (tabBoard tgt' + board others) ∧
      TabsMatch [src.id, tgt.id] tabs tabs' ∧ tgt' ∈ tabs' := by
  obtain ⟨-, -, hsused, hsnew, -⟩ := tabsOk_cons.mp (h.perm hperm.symm)
  have htwo : TabsOk allowed used (tgt :: others) :=
    (h.perm hperm.symm).sublist (List.sublist_cons_self _ _)
  have htnew := (tabsOk_cons.mp htwo).2.2.2.1
  have hne : ¬tgt.id = src.id := fun heq ↦ hsnew (heq ▸ List.mem_cons_self)
  have hothers : others.map (fun tab ↦
      if tab.id = src.id then src' else if tab.id = tgt.id then tgt' else tab) = others := by
    refine (List.map_congr_left fun t ht ↦ ?_).trans (List.map_id' _)
    rw [if_neg fun heq ↦ hsnew (List.mem_cons_of_mem _ (List.mem_map.mpr ⟨t, ht, heq⟩)),
      if_neg fun heq ↦ htnew (List.mem_map.mpr ⟨t, ht, heq⟩)]
  have hperm' : tabs'.Perm (src' :: tgt' :: others) := by
    have hmap := hperm.map fun tab ↦
      if tab.id = src.id then src' else if tab.id = tgt.id then tgt' else tab
    rwa [List.map_cons, List.map_cons, hothers, if_pos rfl, if_neg hne, if_pos rfl, ← htabs']
      at hmap
  have htgtOk : TabsOk allowed used' (tgt' :: others) :=
    TabsOk.replace (l := []) htwo hsub htgt htid
    (hes.sublist (List.sublist_append_right _ _))
  refine ⟨TabsOk.perm (tabsOk_cons.mpr ⟨htgtOk.toTabsBase, hsrc, ?_, ?_, hes⟩) hperm', ?_, ?_,
    hperm'.mem_iff.mpr (List.mem_cons_of_mem _ List.mem_cons_self)⟩
  · exact hsid ▸ hsub hsused
  · rw [List.map_cons, htid, hsid, ← List.map_cons (f := fun t : WorkbenchTab ↦ t.id)]
    exact hsnew
  · rw [board_perm hperm', board_cons, board_cons]
  · rw [htabs']
    refine tabsMatch_map fun t _ ↦ ⟨?_, fun hmem ↦ ?_⟩
    · split
      · rename_i heq
        rw [heq, hsid]
      · split
        · rename_i heq
          rw [heq, htid]
        · rfl
    · rw [List.mem_cons, List.mem_singleton, not_or] at hmem
      rw [if_neg hmem.1, if_neg hmem.2]

/-- What dropping a Pane into another Tab leaves to show: what became of the two Tabs. -/
private theorem dropPane_finish {s : WorkbenchSnapshot} (h : SnapshotOk allowed used s)
    {src tgt src' tgt' : WorkbenchTab} {others : List WorkbenchTab}
    (hperm : s.tabs.Perm (src :: tgt :: others)) {sourcePaneId paneId : String}
    {view : ViewInstance} (hget : src.panes.get sourcePaneId = some view)
    (hkey : findPaneByTarget tgt view.target = none) (target : ViewDropTarget)
    (htarget : target.tabId? = some tgt.id)
    (hmoved : movedTabs (.pane src.id sourcePaneId) target tgt.id = []) (hsub : used ⊆ used')
    (hsrc : TabOk used' src') (hsid : src'.id = src.id)
    (hsrcBoard : tabBoard src' = tabBoardExcept src sourcePaneId)
    (htgt : TabOk used' tgt') (htid : tgt'.id = tgt.id) (hgot : tgt'.panes.get paneId = some view)
    (hes : EntriesOk allowed used' (src'.panes.entries ++ (tgt'.panes.entries ++ entriesOf others)))
    (rest : Board)
    (hbefore : tabBoard tgt
      = boardAt s (replacedPane s (.pane src.id sourcePaneId) target) + rest)
    (hafter : tabBoard tgt' = placedBoard ⟨tgt.id, paneId, view⟩ + rest)
    (hplace : ∀ location, replacedPane s (.pane src.id sourcePaneId) target = some location →
      location.tabId = tgt.id ∧ ∀ p ∈ rest, p.paneId ≠ location.paneId)
    {tabs' : List WorkbenchTab} (htabs' : tabs' = s.tabs.map fun tab ↦
      if tab.id = src.id then src' else if tab.id = tgt.id then tgt' else tab) :
    SnapshotOk allowed used' ⟨tabs', tgt.id⟩ ∧ ∃ view rest,
      Dropped used used' s (.pane src.id sourcePaneId) target ⟨⟨tabs', tgt.id⟩, tgt.id, paneId⟩
        view rest := by
  obtain ⟨htabsOk, hboard, hmatch, hmem⟩ :=
    replaceTwo h.tabs_ok hperm hsub hsrc htgt hsid htid hes htabs'
  have hok : SnapshotOk allowed used' ⟨tabs', tgt.id⟩ :=
    ⟨htabsOk, List.mem_map.mpr ⟨tgt', hmem, htid⟩⟩
  have hview := viewAt_of_mem h (hperm.mem_iff.mpr List.mem_cons_self) hget
  have hnew := (tabsOk_cons.mp (h.tabs_ok.perm hperm.symm)).2.2.2.1
  have hnewTgt := (tabsOk_cons.mp
    ((h.tabs_ok.perm hperm.symm).sublist (List.sublist_cons_self _ _))).2.2.2.1
  -- no place outside the target Tab is in it
  have hother : ∀ p ∈ tabBoardExcept src sourcePaneId + board others, p.tabId ≠ tgt.id := by
    intro p hp htab
    rcases Multiset.mem_add.mp hp with hp | hp
    · rw [(mem_tabBoardExcept hp).1] at htab
      exact hnew (htab ▸ List.mem_cons_self)
    · obtain ⟨u, hu, huid, -⟩ := entry_of_mem_board hp
      exact hnewTgt (List.mem_map.mpr ⟨u, hu, huid.trans htab⟩)
  have hcases : ∀ p ∈ tabBoardExcept src sourcePaneId + (rest + board others),
      p.tabId = tgt.id → p ∈ rest := by
    intro p hp htab
    rw [add_left_comm, Multiset.mem_add] at hp
    exact hp.resolve_right fun hp ↦ hother p hp htab
  refine ⟨hok, view, tabBoardExcept src sourcePaneId + (rest + board others), {
    drags := .existing _ rfl hview
    holds := ?_
    before := ?_
    after := ?_
    lands := .arrives (Or.inl htarget) fun _ ↦ unclaimed_of_findPaneByTarget hkey fun p hp htab ↦ ?_
    makes_room := fun p hp heq ↦ ?_
    strip_move := fun hstrip ↦ by cases hstrip
    target_exists := fun ⟨_, hsource⟩ ↦ by cases hsource
    tabs_match := ?_ }⟩
  · have hgot' := viewAt_of_mem hok hmem hgot
    rwa [htid] at hgot'
  · rw [dragOrigin, boardAt_some hview, board_perm hperm, board_cons, board_cons,
      tabBoard_eq hget, hbefore]
    ac_rfl
  · rw [hboard, hsrcBoard, hafter]
    ac_rfl
  · have hin : p ∈ tabBoard tgt := hbefore ▸ Multiset.mem_add.mpr (Or.inr (hcases p hp htab))
    exact (mem_tabBoard.mp hin).2.1
  · obtain ⟨htab, hfree⟩ := hplace _ heq
    exact hfree p (hcases p hp htab) rfl
  · rw [hmoved, tabsExcept_nil, tabsExcept_nil]
    refine hmatch.mono fun x hx ↦ ?_
    rw [touchedTabs, htarget]
    simpa [dragOrigin] using hx

/-- The entries of two Tabs with one Pane taken out of the first. -/
private theorem entries_moved {tabs others : List WorkbenchTab} {src tgt : WorkbenchTab}
    (h : EntriesOk allowed used (entriesOf tabs)) (hwelcome : allowed welcomeTarget)
    (hperm : tabs.Perm (src :: tgt :: others)) {paneId : String} {view : ViewInstance}
    (hget : src.panes.get paneId = some view) (hsub : used ⊆ used') {es : List Entry}
    (hfill : Refilled used used' (src.panes.delete paneId).entries es) :
    EntriesOk allowed used' (es ++
      ((paneId, view) :: (tgt.panes.entries ++ entriesOf others))) := by
  refine hfill.entriesOk hwelcome hsub (h.perm ?_)
  refine List.perm_middle.trans (List.Perm.trans ?_ (entriesOf_perm hperm).symm)
  rw [entriesOf_cons, entriesOf_cons, ← List.cons_append]
  exact (OrderedMap.entries_perm_of_get hget).symm.append_right _

theorem tabBoard_refilled {src src' : WorkbenchTab} {paneId : String} (hsid : src'.id = src.id)
    (hfill : Refilled used used' (src.panes.delete paneId).entries src'.panes.entries) :
    tabBoard src' = tabBoardExcept src paneId := by
  rw [tabBoard, hfill.realEntries_eq, hsid, tabBoardExcept]

/-- **A Pane on a Pane of another Tab.** -/
theorem dropPaneInPane_ok {s : WorkbenchSnapshot} (h : SnapshotOk allowed used s)
    (hwelcome : allowed welcomeTarget) {src tgt : WorkbenchTab} (hsrc : src ∈ s.tabs)
    (htgt : tgt ∈ s.tabs) (hids : src.id ≠ tgt.id) {paneId targetPaneId : String}
    {view anchor : ViewInstance} (hget : src.panes.get paneId = some view)
    (hanchor : tgt.panes.get targetPaneId = some anchor) (zone : PaneDropZone) :
    DropOk allowed used used s (.pane src.id paneId) (.pane tgt.id targetPaneId zone)
      (dropPaneInPane s src tgt paneId targetPaneId view zone) := by
  obtain ⟨others, hperm⟩ := exists_perm_cons_cons hsrc htgt hids
  have hmem : paneId ∈ src.panes.keys := OrderedMap.mem_keys_of_get hget
  have hto : targetPaneId ∈ tgt.panes.keys := OrderedMap.mem_keys_of_get hanchor
  rw [dropPaneInPane]
  split
  · exact dropOk_none
  rename_i hkey
  rw [Bool.not_eq_true, Option.isSome_eq_false_iff, Option.isNone_iff_eq_none] at hkey
  simp only [removeViewFromTab_eq hmem, bind_map_left]
  refine (closePaneInTab_post (h.tabs_ok.tab_ok src hsrc) paneId).bind
    fun src' used₁ hsub₁ hclosed ↦ ?_
  obtain ⟨hok₁, hsid, hfill⟩ := hclosed
  have hes := entries_moved h.tabs_ok.entries_ok hwelcome hperm hget hsub₁ hfill
  have hpane : paneId ∉ tgt.panes.keys := by
    have hnd := (entriesOk_cons.mp (hes.sublist (List.sublist_append_right _ _))).2.1
    rw [List.map_append, List.mem_append, not_or] at hnd
    exact hnd.1
  have hne : paneId ≠ targetPaneId := fun heq ↦ hpane (heq ▸ hto)
  -- the target Tab's Panes that stay
  let kept := if zone = .replace then tgt.panes.delete targetPaneId else tgt.panes
  have hkept : kept.entries.Sublist tgt.panes.entries := by
    simp only [kept]
    split
    · exact List.filter_sublist
    · exact List.Sublist.refl _
  have hset : (kept.set paneId view).entries.Perm ((paneId, view) :: kept.entries) := by
    have hperm' := OrderedMap.entries_set_perm kept paneId view
    rwa [OrderedMap.delete_of_not_mem fun hin ↦ hpane ((hkept.map Prod.fst).subset hin)] at hperm'
  have hkeys : (kept.set paneId view).keys.Perm
      (placedPanes tgt.panes.keys paneId targetPaneId zone) := by
    refine (hset.map Prod.fst).trans (List.Perm.of_eq ?_)
    cases zone with
    | replace =>
      rw [placedPanes, filter_ne_eq_self hpane, ← OrderedMap.keys_delete]
      rfl
    | edge edge =>
      rw [placedPanes, filter_ne_eq_self hpane]
      rfl
  refine (placedLayout_post ((h.tabs_ok.tab_ok tgt htgt).mono hsub₁) hto hne (fun _ ↦ hpane)
    zone).bind fun placed used₂ hsub₂ hplaced ↦ ?_
  refine (reconcileTab_post (hplaced _ hkeys)).bind fun tgt' used₃ hsub₃ hreconciled ↦ ?_
  obtain ⟨hok₃, hsame⟩ := hreconciled
  refine Supply.Post.pure fun r₀ hr ↦ ?_
  cases hr
  have hview := viewAt_of_mem h htgt hanchor
  refine dropPane_finish h hperm hget hkey _ rfl rfl (hsub₁.trans (hsub₂.trans hsub₃))
    (hok₁.mono (hsub₂.trans hsub₃)) hsid (tabBoard_refilled hsid hfill) hok₃ hsame.id_eq ?_ ?_
    ((realEntries kept.entries).map (placeEntry tgt.id)) ?_ ?_ ?_ rfl
  · rw [hsame.panes_eq]
    exact OrderedMap.get_set_self _ _ _
  · rw [hsame.panes_eq]
    refine ((hes.mono (hsub₂.trans hsub₃)).sublist ?_).perm
      (List.Perm.append_left _ (hset.append_right _))
    rw [List.cons_append]
    exact List.Sublist.append_left ((hkept.append_right _).cons_cons _) _
  · cases zone with
    | replace =>
      rw [replacedPane, if_neg hids, boardAt_some hview]
      exact tabBoard_eq hanchor
    | edge edge => exact (zero_add _).symm
  · rw [tabBoard, hsame.panes_eq, hsame.id_eq]
    change (realEntries (kept.set paneId view).entries).map _ = _
    rw [realEntries_perm hset, map_realEntries_cons]
    rfl
  · intro location hlocation
    cases zone with
    | replace =>
      rw [replacedPane, if_neg hids, Option.some_inj] at hlocation
      subst hlocation
      exact ⟨rfl, fun p hp ↦ (mem_tabBoardExcept hp).2.1⟩
    | edge edge => cases hlocation

/-- **A Pane on another Tab.** -/
theorem dropPaneInTab_ok {s : WorkbenchSnapshot} (h : SnapshotOk allowed used s)
    (hwelcome : allowed welcomeTarget) {src tgt : WorkbenchTab} (hsrc : src ∈ s.tabs)
    (htgt : tgt ∈ s.tabs) (hids : src.id ≠ tgt.id) {paneId : String} {view : ViewInstance}
    (hget : src.panes.get paneId = some view) :
    DropOk allowed used used s (.pane src.id paneId) (.existingTab tgt.id)
      (dropPaneInTab s src tgt paneId view) := by
  obtain ⟨others, hperm⟩ := exists_perm_cons_cons hsrc htgt hids
  have hok := h.tabs_ok.tab_ok tgt htgt
  rw [dropPaneInTab]
  split
  · exact dropOk_none
  rename_i hkey
  rw [Bool.not_eq_true, Option.isSome_eq_false_iff, Option.isNone_iff_eq_none] at hkey
  obtain ⟨anchor, anchorView, hanchor, hgetAnchor⟩ := anchorIn_spec hok tgt.focusedPaneId
  refine (Supply.Post.ofExcept hanchor (Q := fun a used' ↦ a = anchor ∧ used' = used)
    ⟨rfl, rfl⟩).bind fun a used₀ _ ⟨ha, hused⟩ ↦ ?_
  subst ha hused
  -- the entries that stay, with the View's in front
  let stay := (src.panes.delete paneId).entries ++ entriesOf others
  have hes : EntriesOk allowed used₀ ((paneId, view) :: (tgt.panes.entries ++ stay)) := by
    have hall := entries_moved h.tabs_ok.entries_ok hwelcome hperm hget Set.Subset.rfl .keep
    refine hall.perm (List.Perm.trans ?_ List.perm_middle.symm)
    refine List.Perm.cons _ ?_
    rw [← List.append_assoc, ← List.append_assoc]
    exact List.perm_append_comm.append_right _
  obtain ⟨hstay, hpane, hv, hpu, hvu, hallowed, hdef⟩ := entriesOk_cons.mp hes
  refine (placeViewInTab_post hok hstay ⟨hv, hvu, hallowed, hdef⟩
    { anchorPaneId := a, zone := .edge .right, paneId := some paneId }
    (OrderedMap.mem_keys_of_get hgetAnchor) fun p hp ↦
      Option.some_inj.mp hp ▸ ⟨hpu, hpane⟩).bind
    fun ⟨inserted, newPaneId⟩ used₁ hsub₁ ⟨hpre, hid, hgot, _, hes₁, hplaced⟩ ↦ ?_
  simp only [removeViewFromTab_eq (OrderedMap.mem_keys_of_get hget), bind_map_left]
  refine (closePaneInTab_post ((h.tabs_ok.tab_ok src hsrc).mono hsub₁) paneId).bind
    fun src' used₂ hsub₂ ⟨hok₂, hsid, hfill⟩ ↦ ?_
  refine (reconcileTab_post (hpre.mono hsub₂)).bind fun tgt' used₃ hsub₃ ⟨hok₃, hsame⟩ ↦
    Supply.Post.pure fun r₀ hr ↦ ?_
  cases hr
  obtain ⟨rest, hbefore, hafter, -⟩ := hplaced.board_eq hid hgetAnchor
  rw [replacedBoard, if_neg (by simp)] at hbefore
  refine dropPane_finish h hperm hget hkey (.existingTab tgt.id) rfl rfl
    (hsub₁.trans (hsub₂.trans hsub₃)) (hok₂.mono hsub₃) hsid (tabBoard_refilled hsid hfill) hok₃
    (hsame.id_eq.trans hid) ?_ ?_
    rest hbefore ?_ (fun _ hlocation ↦ by cases hlocation) rfl
  · rw [hsame.panes_eq]
    exact hgot
  · rw [hsame.panes_eq]
    refine (hfill.entriesOk hwelcome hsub₂ (hes₁.perm ?_)).mono hsub₃
    rw [← List.append_assoc, ← List.append_assoc]
    exact List.perm_append_comm.append_right _
  · rw [hsame.tabBoard_eq]
    exact hafter

/-- A View taken out of a Tab, seen from the board: what a new Tab is made from. -/
theorem dropped_of_inserted {s s₁ : WorkbenchSnapshot} (h : SnapshotOk allowed used s)
    {source : ViewDragSource} {view : ViewInstance} {origin : Board} {index : ℤ} {paneId : String}
    (hsub : used ⊆ used')
    (hdrags : ∀ used'', used' ⊆ used'' → Drags used used'' s source view)
    (horigin : boardAt s (dragOrigin s source) = origin)
    (hboard : board s.tabs = origin + board s₁.tabs)
    (hmatch : TabsMatch (touchedTabs s source (.newTab index)) s.tabs s₁.tabs)
    (hnotTab : ∀ tabId, source ≠ .tab tabId) (hok : SnapshotOk allowed used' s₁)
    (hes : EntriesOk allowed used' ((paneId, view) :: entriesOf s₁.tabs)) :
    DropOk allowed used used' s source (.newTab index)
      (some <$> insertPresentationTab s₁ view index paneId) := by
  have hreplaced : replacedPane s source (.newTab index) = none := rfl
  refine (insertPresentationTab_post hok hes index).map
    fun r used₂ hsub₂ ⟨hok₂, hafter, t, hins⟩ r₀ hr ↦ ?_
  cases hr
  have hnew : r.tabId ∉ used := fun hmem ↦ hins.id_new (hsub (hins.tabId_eq ▸ hmem))
  have hmoved : movedTabs source (.newTab index) r.tabId = [t.id] := by
    rw [← hins.tabId_eq]
    cases source with
    | tab tabId => exact absurd rfl (hnotTab tabId)
    | pane _ _ => rfl
    | sidebar _ => rfl
  refine ⟨hok₂, view, board s₁.tabs, {
    drags := hdrags used₂ hsub₂
    holds := ?_
    before := by rw [horigin, hreplaced, boardAt_none, zero_add, hboard]
    after := hafter
    lands := .arrives (Or.inr hnew) fun _ ↦
      unclaimed_of_new_tab h hnew (hboard ▸ Multiset.le_add_left _ _)
    makes_room := fun _ _ ↦ by simp [hreplaced]
    strip_move := fun hstrip ↦ by
      cases source with
      | tab tabId => exact absurd rfl (hnotTab tabId)
      | pane _ _ => cases hstrip
      | sidebar _ => cases hstrip
    target_exists := fun _ ↦ rfl
    tabs_match := ?_ }⟩
  · have hmem : t ∈ r.snapshot.tabs := by
      rw [hins.tabs_eq]
      exact mem_insertAt.mpr (Or.inl rfl)
    have hgot : t.panes.get paneId = some view := by
      rw [hins.single.panes_eq]
      exact OrderedMap.get_eq_some.mpr (List.mem_singleton_self _)
    have hat := viewAt_of_mem hok₂ hmem hgot
    rwa [hins.tabId_eq, hins.paneId_eq]
  · rw [hmoved, hins.tabs_eq, tabsExcept_insertAt]
    exact hmatch.except

/-- **Dropping a Pane.** -/
theorem dropPane_ok {s : WorkbenchSnapshot} (h : SnapshotOk allowed used s)
    (hwelcome : allowed welcomeTarget) (tabId paneId : String) (target : ViewDropTarget) :
    DropOk allowed used used s (.pane tabId paneId) target (dropPane s tabId paneId target) := by
  cases target with
  | pane targetTabId targetPaneId zone =>
    rw [dropPane]
    split
    case h_2 => exact dropOk_none
    rename_i src tgt hsrc htgt
    obtain ⟨rfl, l, r, hl⟩ := findTab_eq_some hsrc
    obtain ⟨rfl, l', r', hl'⟩ := findTab_eq_some htgt
    have hsrcMem : src ∈ s.tabs := hl ▸ List.mem_append_right _ List.mem_cons_self
    have htgtMem : tgt ∈ s.tabs := hl' ▸ List.mem_append_right _ List.mem_cons_self
    split
    · exact dropOk_none
    rename_i view hget
    split
    · exact dropOk_none
    rename_i hcond
    rw [not_or, Bool.not_eq_false, OrderedMap.has_eq_true] at hcond
    split
    · rename_i hids
      have heq : src = tgt := List.inj_on_of_nodup_map h.tabs_ok.nodup_ids hsrcMem htgtMem hids
      subst heq
      exact dropPaneInOwnTab_ok h hsrcMem hget hcond.1 hcond.2 zone
    · rename_i hids
      obtain ⟨anchor, hanchor⟩ := OrderedMap.mem_keys.mp hcond.1
      exact dropPaneInPane_ok h hwelcome hsrcMem htgtMem hids hget hanchor zone
  | existingTab targetTabId =>
    rw [dropPane]
    split
    case h_2 => exact dropOk_none
    rename_i src tgt hsrc htgt
    obtain ⟨rfl, l, r, hl⟩ := findTab_eq_some hsrc
    obtain ⟨rfl, l', r', hl'⟩ := findTab_eq_some htgt
    split
    · exact dropOk_none
    rename_i view hget
    split
    · exact dropOk_none
    · rename_i hids
      exact dropPaneInTab_ok h hwelcome (hl ▸ List.mem_append_right _ List.mem_cons_self)
        (hl' ▸ List.mem_append_right _ List.mem_cons_self) hids hget
  | newTab index =>
    rw [dropPane]
    split
    · exact dropOk_none
    rename_i src hsrc
    obtain ⟨rfl, l, r, htabs⟩ := findTab_eq_some hsrc
    have hmem : src ∈ s.tabs := htabs ▸ List.mem_append_right _ List.mem_cons_self
    split
    · exact dropOk_none
    rename_i view hget
    have hview := viewAt_of_mem h hmem hget
    simp only [removeViewFromTab_eq (OrderedMap.mem_keys_of_get hget), bind_map_left]
    refine (closePaneInTab_post (h.tabs_ok.tab_ok src hmem) paneId).bind
      fun src' used₁ hsub₁ hclosed ↦ ?_
    obtain ⟨hok₁, hsid, hfill⟩ := hclosed
    obtain ⟨hreplace, hd⟩ := detached_of_refilled h hwelcome hsub₁ htabs hget hok₁ hsid hfill
    rw [hreplace]
    refine dropped_of_inserted h hsub₁ (fun _ _ ↦ .existing _ rfl hview) (boardAt_some hview)
      hd.board_eq ?_ (fun _ ↦ by simp) hd.ok hd.entries_ok
    rw [htabs]
    exact (tabsMatch_middle l r hsid).mono fun x hx ↦ List.mem_append_left _ hx

end Awen.Workbench
