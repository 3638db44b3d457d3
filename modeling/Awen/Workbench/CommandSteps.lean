import Awen.Workbench.CommandSpecs

/-!
# Every command is a step of the board

`CommandOk rule s m`: the command `m`, run on the snapshot `s`, returns a snapshot that satisfies
the invariant, and what it did to the board is allowed by `rule`. One theorem for each command, in
the order of `Commands`; most of them leave the board as it is.
-/

namespace Awen.Workbench

open LayoutNode

variable {allowed : ViewTarget → Prop} {used used' : Set String}

/-- A command returns, keeps the invariant, and steps on the board by its rule. -/
def CommandOk (allowed : ViewTarget → Prop) (used : Set String) (rule : CommandRule)
    (s : WorkbenchSnapshot) (m : WorkbenchM WorkbenchSnapshot) : Prop :=
  Supply.Post used m fun s' used' ↦ SnapshotOk allowed used' s' ∧
    BoardStep used rule (board s.tabs) (board s'.tabs)

/-- A command that only takes Views off the board obeys every rule for closing commands. -/
theorem commandOk_of_le {rule : CommandRule} {s : WorkbenchSnapshot}
    {m : WorkbenchM WorkbenchSnapshot} (hcloses : rule.closes)
    (h : Supply.Post used m fun s' used' ↦
      SnapshotOk allowed used' s' ∧ board s'.tabs ≤ board s.tabs) :
    CommandOk allowed used rule s m :=
  h.mono fun _ _ _ ⟨hok, hboard⟩ ↦ ⟨hok, .remove (Or.inr ⟨hcloses, hboard⟩)⟩

/-- A command that leaves the board as it is obeys every rule. -/
theorem commandOk_of_board {rule : CommandRule} {s : WorkbenchSnapshot}
    {m : WorkbenchM WorkbenchSnapshot} (h : Supply.Post used m fun s' used' ↦
      SnapshotOk allowed used' s' ∧ board s'.tabs = board s.tabs) :
    CommandOk allowed used rule s m :=
  h.mono fun _ _ _ ⟨hok, hboard⟩ ↦ ⟨hok, .remove (Or.inl hboard)⟩

theorem commandOk_focusPane {rule : CommandRule} {s : WorkbenchSnapshot}
    (h : SnapshotOk allowed used s) (location : PaneLocation) :
    CommandOk allowed used rule s (focusPane s location) :=
  commandOk_of_board ((focusPane_post h location).mono fun _ _ _ h' ↦ ⟨h'.1, h'.2.1⟩)

theorem applySetFocused_ok {rule : CommandRule} {s : WorkbenchSnapshot}
    (h : SnapshotOk allowed used s) (paneId : String) :
    CommandOk allowed used rule s (applySetFocused s paneId) :=
  commandOk_of_board ((applySetFocused_post h paneId).mono fun _ _ _ h' ↦ ⟨h'.1, h'.2.board_eq⟩)

/-- A command that returns the snapshot it was given. -/
theorem commandOk_pure {rule : CommandRule} {s : WorkbenchSnapshot}
    (h : SnapshotOk allowed used s) : CommandOk allowed used rule s (pure s) :=
  commandOk_of_board (Supply.Post.pure ⟨h, rfl⟩)

/-- Commands begin by reading the active Tab. -/
theorem commandOk_active {rule : CommandRule} {s : WorkbenchSnapshot}
    {f : WorkbenchTab → WorkbenchM WorkbenchSnapshot} (h : SnapshotOk allowed used s)
    (hf : ∀ t l r, s.tabs = l ++ t :: r → t.id = s.activeTabId →
      CommandOk allowed used rule s (f t)) :
    CommandOk allowed used rule s (do let tab ← getActiveTab s; f tab) := by
  obtain ⟨t, l, r, hactive, htabs, hid⟩ := getActiveTab_eq h
  refine (Supply.Post.ofExcept hactive (Q := fun t' used' ↦ t' = t ∧ used' = used)
    ⟨rfl, rfl⟩).bind fun t' used₁ _ ⟨ht', hused⟩ ↦ ?_
  subst ht' hused
  exact hf t' l r htabs hid

/-! ## Opening -/

/-- Opening a target may place it in the active Tab or in a new one, unless it is a draft that is
found. -/
def openRule (s : WorkbenchSnapshot) (target : ViewTarget) : CommandRule where
  target := some target
  opens := findDraftOf s target = none
  destination := some s.activeTabId

/-- Whether a Pane of the active Tab is retargeted: it exists, and the target is found nowhere
else. -/
def retargetsInPlace (s : WorkbenchSnapshot) (target : ViewTarget) (paneId : String) : Prop :=
  ∃ t, getActiveTab s = .ok t ∧ paneId ∈ t.panes.keys ∧
    ∀ location, existingViewOf s t target = some location →
      location.tabId = t.id ∧ location.paneId = paneId

/-- Retargeting a Pane gives up what it showed. -/
def retargetRule (s : WorkbenchSnapshot) (target : ViewTarget) (paneId : String) : CommandRule where
  target := some target
  opens := retargetsInPlace s target paneId
  destination := some s.activeTabId
  givenUp := some ⟨s.activeTabId, paneId⟩
  closes := True

/-- A sole Welcome has the focus, and its Tab is empty on the board. -/
theorem isSoleWelcome_spec {t : WorkbenchTab} (hok : TabOk used t)
    (h : isSoleWelcome t = true) : ∃ view, t.panes.get t.focusedPaneId = some view ∧
      isReal view = false ∧ (t.panes.delete t.focusedPaneId).entries = [] := by
  rw [isSoleWelcome, OrderedMap.values] at h
  rcases hes : t.panes.entries with _ | ⟨e, _ | ⟨e', es⟩⟩
  · simp [hes] at h
  · have hfocus : t.focusedPaneId = e.1 := by
      have hmem := hok.focus_mem
      rw [OrderedMap.keys, hes] at hmem
      exact List.mem_singleton.mp hmem
    have hreal : isReal e.2 = false := by simpa [hes, isReal] using h
    refine ⟨e.2, OrderedMap.get_eq_some.mpr ?_, hreal, ?_⟩
    · rw [hes, hfocus]
      exact List.mem_singleton_self e
    · rw [OrderedMap.entries_delete, hes, hfocus, List.filter_cons_of_neg (by simp),
        List.filter_nil]
  · simp [hes] at h

/-- A Pane that is present can show any View. -/
theorem TabOk.set_present {t : WorkbenchTab} (h : TabOk used t) {paneId : String}
    (hmem : paneId ∈ t.panes.keys) (view : ViewInstance) :
    TabPre used { t with panes := t.panes.set paneId view } := by
  have hkeys : (t.panes.set paneId view).keys = t.panes.keys := by
    rw [OrderedMap.keys_set, if_pos hmem]
  exact { h.toTabPre with
    focus_mem := hkeys ▸ h.focus_mem
    bsp := fun _ ↦ ⟨h.layout_wf, hkeys ▸ h.leaves⟩ }

/-- Setting the View of a Pane, on the board. -/
theorem SameContent.tabBoard_set {t t₁ t₂ : WorkbenchTab} {paneId : String} {view : ViewInstance}
    (h : SameContent t₁ t₂) (hid : t₁.id = t.id) (hpanes : t₁.panes = t.panes.set paneId view) :
    tabBoard t₂ = placedBoard ⟨t.id, paneId, view⟩ +
      (realEntries (t.panes.delete paneId).entries).map (placeEntry t.id) := by
  rw [tabBoard, h.panes_eq, hpanes, h.id_eq, hid,
    realEntries_perm (OrderedMap.entries_set_perm t.panes paneId view), map_realEntries_cons]
  rfl

/-- **Opening a target.** -/
theorem applyOpenTarget_ok {s : WorkbenchSnapshot} (h : SnapshotOk allowed used s)
    {target : ViewTarget} (hallowed : allowed target) :
    CommandOk allowed used (openRule s target) s
      (applyOpenTarget s target) := by
  rw [applyOpenTarget]
  split
  · exact commandOk_focusPane h _
  · rename_i hdraft
    refine commandOk_active h fun t l r htabs hid ↦ ?_
    obtain ⟨-, hok, -, hnew, hes⟩ := tabsOk_middle.mp (htabs ▸ h.tabs_ok)
    split
    · exact applySetFocused_ok h _
    · rename_i hactive
      split
      · exact commandOk_focusPane h _
      · rename_i hother
        have hopen := not_open htabs hnew hactive hother
        have hadmits : ∀ (a : Placed) (rest : Board), rest ≤ board s.tabs →
            a.view.target = target →
            Arrives used (openRule s target) a →
            Admits used (openRule s target) a rest := by
          intro a rest hle htarget harrives
          have hkey : ∀ p ∈ rest, targetKey p.view.target ≠ targetKey a.view.target :=
            fun p hp ↦ htarget ▸ hopen p (Multiset.mem_of_le hle hp)
          exact ⟨hdraft, congrArg some htarget.symm, unclaimed_session_of_key hkey,
            fun _ ↦ unclaimed_tabKey fun p hp _ ↦ hkey p hp, fun _ _ ↦ by simp [openRule],
            harrives⟩
        split
        · rename_i hwelcome
          obtain ⟨old, hget, hreal, hnil⟩ := isSoleWelcome_spec hok hwelcome
          refine (viewInstance_post target).bind fun view used₁ hsub hview ↦ ?_
          have hfocus := hok.focus_mem
          have hes₁ : EntriesOk allowed used₁
              ((t.panes.set t.focusedPaneId view).entries ++ entriesOf (l ++ r)) := by
            have hold : EntriesOk allowed used ((t.focusedPaneId, old) :: entriesOf (l ++ r)) := by
              refine hes.perm ?_
              have hperm := (OrderedMap.entries_perm_of_get hget).append_right (entriesOf (l ++ r))
              rw [hnil] at hperm
              exact hperm.symm
            have hset := OrderedMap.entries_set_perm t.panes t.focusedPaneId view
            rw [hnil] at hset
            refine EntriesOk.perm ?_ (hset.append_right (entriesOf (l ++ r)))
            obtain ⟨hrest, hpane, -, hpu, -⟩ := entriesOk_cons.mp hold
            exact (hview.fits hrest hallowed).cons (hrest.mono hsub) hpane (hsub hpu)
          refine (updateTab_post h hsub htabs ((hok.mono hsub).set_present hfocus view) rfl
            hes₁).mono fun s' used₂ _ hupdated ↦ ?_
          obtain ⟨hok', _, t₂, htabs', hsame⟩ := hupdated
          refine ⟨hok', ?_⟩
          have hboard : board s'.tabs = placedBoard ⟨t.id, t.focusedPaneId, view⟩ +
              board (l ++ r) := by
            rw [htabs', board_middle, hsame.tabBoard_set (t := t) rfl rfl, hnil,
              realEntries_nil, Multiset.map_zero, add_zero]
          have hrest : board (l ++ r) = board s.tabs := by
            rw [htabs, board_middle, tabBoard,
              realEntries_perm (OrderedMap.entries_perm_of_get hget), hnil, realEntries_cons,
              if_neg (by simp [hreal]), realEntries_nil, Multiset.map_zero, zero_add]
          exact step_of_placed (Or.inl hrest) hboard fun _ ↦
            hadmits _ _ hrest.le hview.target_eq (Or.inl (congrArg some hid.symm))
        · refine (viewInstance_post target).bind fun view used₁ hsub hview ↦ ?_
          refine generateId_post.bind fun paneId used₂ hsub₂ hfresh ↦ ?_
          obtain ⟨hpane, hused₂⟩ := hfresh
          have hes₂ : EntriesOk allowed used₂ ((paneId, view) :: entriesOf s.tabs) := by
            refine ((hview.fits h.tabs_ok.entries_ok hallowed).mono hsub₂).cons
              (h.tabs_ok.entries_ok.mono (hsub.trans hsub₂)) (fun hmem ↦ hpane (hsub ?_))
              (hused₂ ▸ Set.mem_insert paneId _)
            obtain ⟨e, he, heq⟩ := List.mem_map.mp hmem
            exact heq ▸ h.tabs_ok.entries_ok.paneIds_used e he
          refine (insertPresentationTab_post (h.mono (hsub.trans hsub₂)) hes₂ _).bind
            fun result used₃ _ hinserted ↦ ?_
          obtain ⟨hok', hboard, t', hins⟩ := hinserted
          refine Supply.Post.pure ⟨hok', ?_⟩
          refine step_of_placed (Or.inl rfl) hboard fun _ ↦ hadmits _ _ le_rfl hview.target_eq
            (Or.inr fun hmem ↦ hins.id_new (hsub₂ (hsub ?_)))
          rw [← hins.tabId_eq]
          exact hmem

/-! ## Splitting -/

/-- A View put beside an anchor of the active Tab after it was detached. -/
theorem placeDetachedViewBeside_post {s s₁ : WorkbenchSnapshot} {t₀ : WorkbenchTab}
    {paneId : String} {view : ViewInstance} (hd : Detached allowed used s s₁ t₀ paneId view)
    (anchorPaneId : String) (dir : SplitDir) :
    Supply.Post used (placeDetachedViewBeside s₁ view anchorPaneId dir) fun s' used' ↦
      SnapshotOk allowed used' s' ∧ ∃ newPaneId,
        board s'.tabs = placedBoard ⟨s.activeTabId, newPaneId, view⟩ + board s₁.tabs := by
  obtain ⟨t, l, r, hactive, htabs, hid⟩ := getActiveTab_eq hd.ok
  have hok := (tabsOk_middle.mp (htabs ▸ hd.ok.tabs_ok)).2.1
  obtain ⟨anchor, anchorView, hanchor, hget⟩ := anchorIn_spec hok anchorPaneId
  rw [placeDetachedViewBeside]
  refine (Supply.Post.ofExcept hactive (Q := fun t' used' ↦ t' = t ∧ used' = used)
    ⟨rfl, rfl⟩).bind fun t' used₁ _ ⟨ht', hused⟩ ↦ ?_
  subst ht' hused
  refine (Supply.Post.ofExcept hanchor (Q := fun a used' ↦ a = anchor ∧ used' = used₁)
    ⟨rfl, rfl⟩).bind fun a used₂ _ ⟨ha, hused⟩ ↦ ?_
  subst ha hused
  have hplace := placeAndUpdate_post hd.ok htabs hd.fits
    { anchorPaneId := a, zone := .edge (if dir = .down then .bottom else .right) } hget (by simp)
  have hmap := hplace.map (f := Prod.fst) (Q := fun s' used' ↦ SnapshotOk allowed used' s' ∧
    ∃ newPaneId, board s'.tabs
      = placedBoard ⟨s.activeTabId, newPaneId, view⟩ + board s₁.tabs) (by
    rintro ⟨s', newPaneId⟩ used' - ⟨hok', -, -, rest, hbefore, hafter, -⟩
    refine ⟨hok', newPaneId, ?_⟩
    rw [hbefore, replacedBoard, if_neg (by simp), zero_add, ← hd.active_eq, ← hid]
    exact hafter)
  simpa using hmap

/-- **Splitting a Pane.** -/
theorem applySplitPane_ok {s : WorkbenchSnapshot} (h : SnapshotOk allowed used s)
    (hwelcome : allowed welcomeTarget) {target : ViewTarget} (hallowed : allowed target)
    (sourcePaneId : String) (dir : SplitDir) :
    CommandOk allowed used (openRule s target) s
      (applySplitPane s sourcePaneId target dir) := by
  rw [applySplitPane]
  split
  · exact commandOk_focusPane h _
  · rename_i hdraft
    refine commandOk_active h fun t l r htabs hid ↦ ?_
    obtain ⟨-, hok, -, hnew, hes⟩ := tabsOk_middle.mp (htabs ▸ h.tabs_ok)
    split
    · exact applyOpenTarget_ok h hallowed
    · rename_i source hsource
      split
      · rename_i location hlocation
        split
        · exact applySetFocused_ok h _
        · obtain ⟨l₀, t₀, r₀, view, htabs₀, hid₀, hget₀, hsame⟩ :=
            findSessionViewPane_eq_some hlocation
          refine (detachView_post h hwelcome htabs₀ hid₀ hget₀).bind
            fun result used₁ hsub hdetached ↦ ?_
          obtain ⟨s₁, t₁, hresult, _, _, _, hd⟩ := hdetached
          subst hresult
          refine (placeDetachedViewBeside_post hd sourcePaneId dir).mono
            fun s' used₂ _ hplaced ↦ ?_
          obtain ⟨hok', newPaneId, hboard⟩ := hplaced
          refine ⟨hok', ?_⟩
          obtain ⟨session, hsession, -⟩ := isSameSessionTarget_iff.mp hsame
          have hscoped : isTabScoped view.target = false := by
            have hkind := isSessionViewTarget_iff.mpr ⟨session, hsession⟩
            simp [isTabScoped, hkind]
          by_cases hreal : isReal view = true
          · refine .exchange ⟨t₀.id, location.paneId, view⟩ ⟨s.activeTabId, newPaneId, view⟩
              (board s₁.tabs) ?_ ?_
              ⟨rfl, Or.inl rfl, Or.inl rfl, Or.inl ?_, Or.inl rfl⟩
            · exact Or.inl (hd.board_eq.trans (placedBoard_of_real hreal _)).symm
            · rw [hboard, placedBoard_of_real hreal]
            · simp [Placed.tabKey, hscoped]
          · refine .remove (Or.inl ?_)
            rw [hboard, hd.board_eq, placedBoard_of_not_real hreal, placedBoard_of_not_real hreal]
      · rename_i hlocation
        split
        · exact applyOpenTarget_ok h hallowed
        · split
          · exact applySetFocused_ok h _
          · rename_i hexisting
            refine generateId_post.bind fun paneId used₁ hsub₁ hfresh ↦ ?_
            obtain ⟨hpane, hused₁⟩ := hfresh
            refine (viewInstance_post target).bind fun view used₂ hsub₂ hview ↦ ?_
            have hsource' : sourcePaneId ∈ t.panes.keys := OrderedMap.mem_keys_of_get hsource
            have hkeys : paneId ∉ t.panes.keys := by
              -- the id is fresh, and the ids of the Panes are in use
              intro hmem
              obtain ⟨v, hv⟩ := OrderedMap.mem_keys.mp hmem
              exact hpane (hes.paneIds_used _
                (List.mem_append_left _ (OrderedMap.get_eq_some.mp hv)))
            have hset : (t.panes.set paneId view).entries.Perm
                ((paneId, view) :: t.panes.entries) := by
              have hperm := OrderedMap.entries_set_perm t.panes paneId view
              rwa [OrderedMap.delete_of_not_mem hkeys] at hperm
            have hes₂ : EntriesOk allowed used₂
                ((t.panes.set paneId view).entries ++ entriesOf (l ++ r)) := by
              refine EntriesOk.perm ?_ (hset.append_right (entriesOf (l ++ r)))
              refine (hview.fits (hes.mono hsub₁) hallowed).cons
                (hes.mono (hsub₁.trans hsub₂)) (fun hmem ↦ hpane ?_)
                (hsub₂ (hused₁ ▸ Set.mem_insert paneId _))
              obtain ⟨e, he, heq⟩ := List.mem_map.mp hmem
              exact heq ▸ hes.paneIds_used e he
            have hne : paneId ≠ sourcePaneId := fun heq ↦ hkeys (heq ▸ hsource')
            refine (placedLayout_post (hok.mono (hsub₁.trans hsub₂)) hsource' hne
              (fun _ ↦ hkeys) _).bind
              fun placed used₃ hsub₃ hplaced ↦ ?_
            have hpre := hplaced (t.panes.set paneId view) (by
              rw [placedPanes, filter_ne_eq_self hkeys]
              exact hset.map Prod.fst)
            refine (updateTab_post h (hsub₁.trans (hsub₂.trans hsub₃)) htabs hpre rfl
              (hes₂.mono hsub₃)).mono fun s' used₄ _ hupdated ↦ ?_
            obtain ⟨hok', _, t₂, htabs', hsame⟩ := hupdated
            refine ⟨hok', ?_⟩
            have hboard : board s'.tabs
                = placedBoard ⟨t.id, paneId, view⟩ + board s.tabs := by
              rw [htabs', board_middle, hsame.tabBoard_set (t := t) rfl rfl,
                OrderedMap.delete_of_not_mem hkeys, htabs, board_middle, add_assoc]
              rfl
            refine step_of_placed (Or.inl rfl) hboard fun _ ↦ ⟨hdraft,
              congrArg some hview.target_eq.symm, ?_, fun _ ↦ ?_, by simp [openRule],
              Or.inl (congrArg some hid.symm)⟩
            · refine unclaimed_session fun p hp ↦ ?_
              obtain ⟨u, hu, -, he⟩ := entry_of_mem_board hp
              rw [hview.target_eq]
              exact findSessionViewPane_eq_none hlocation u hu _ he
            · refine unclaimed_tabKey fun p hp htab ↦ ?_
              rw [htabs, board_middle, Multiset.mem_add] at hp
              rw [hview.target_eq]
              rcases hp with hp | hp
              · exact findPaneByTarget_eq_none.mp hexisting _ (mem_tabBoard.mp hp).2.1
              · obtain ⟨u, hu, huid, -⟩ := entry_of_mem_board hp
                exact absurd (List.mem_map.mpr ⟨u, hu, huid.trans htab⟩) hnew

theorem applySplitFocused_ok {s : WorkbenchSnapshot} (h : SnapshotOk allowed used s)
    (hwelcome : allowed welcomeTarget) {target : ViewTarget} (hallowed : allowed target)
    (dir : SplitDir) :
    CommandOk allowed used (openRule s target) s
      (applySplitFocused s target dir) :=
  commandOk_active h fun t _ _ _ _ ↦ applySplitPane_ok h hwelcome hallowed t.focusedPaneId dir

/-! ## Closing -/

theorem filter_id_middle {l r : List WorkbenchTab} {t : WorkbenchTab}
    (hnew : t.id ∉ (l ++ r).map fun t ↦ t.id) :
    (l ++ t :: r).filter (fun u ↦ u.id ≠ t.id) = l ++ r := by
  have hkeep : (l ++ r).filter (fun u ↦ u.id ≠ t.id) = l ++ r :=
    List.filter_eq_self.mpr fun u hu ↦ decide_eq_true fun (heq : u.id = t.id) ↦
      hnew (List.mem_map.mpr ⟨u, hu, heq⟩)
  rw [List.filter_append] at hkeep
  rw [List.filter_append, List.filter_cons_of_neg (by simp), hkeep]

/-- While a Tab survives, some survivor becomes or stays active. -/
theorem activeTabIdAfterClose_spec {s : WorkbenchSnapshot} {survivors : List WorkbenchTab}
    (closed : List String) (hne : survivors ≠ [])
    (hkeep : s.activeTabId ∉ closed → s.activeTabId ∈ survivors.map fun t ↦ t.id) :
    ∃ id, activeTabIdAfterClose s survivors closed = .ok id ∧
      id ∈ survivors.map fun t ↦ t.id := by
  rw [activeTabIdAfterClose]
  split
  · rename_i hclosed
    exact ⟨_, rfl, hkeep hclosed⟩
  · generalize (s.tabs.findIdx? fun tab ↦ tab.id = s.activeTabId).getD 0 = i
    have hlt : min i (survivors.length - 1) < survivors.length := by
      have hpos := List.length_pos_of_ne_nil hne
      omega
    have hget : survivors[min i (survivors.length - 1)]? = some survivors[min i _] :=
      List.getElem?_eq_getElem hlt
    refine ⟨_, ?_, List.mem_map_of_mem (List.getElem_mem hlt)⟩
    dsimp only
    rw [hget]

/-- **Closing a Tab** takes its Views off the board. -/
theorem applyCloseTab_post {s : WorkbenchSnapshot} (h : SnapshotOk allowed used s)
    (tabId : String) : Supply.Post used (applyCloseTab s tabId) fun s' used' ↦
      SnapshotOk allowed used' s' ∧ board s'.tabs ≤ board s.tabs := by
  rw [applyCloseTab]
  split
  · exact Supply.Post.pure ⟨h, le_rfl⟩
  · rename_i hlen
    split
    · exact Supply.Post.pure ⟨h, le_rfl⟩
    · rename_i hall
      obtain ⟨t, ht, hid⟩ : ∃ t ∈ s.tabs, t.id = tabId := by simpa using hall
      obtain ⟨l, r, htabs⟩ := List.append_of_mem ht
      have hnew := (tabsOk_middle.mp (htabs ▸ h.tabs_ok)).2.2.2.1
      have hfilter : s.tabs.filter (fun u ↦ u.id ≠ tabId) = l ++ r := by
        rw [htabs, ← hid]
        exact filter_id_middle hnew
      have hsub : (l ++ r).Sublist s.tabs := hfilter ▸ List.filter_sublist
      have hne : l ++ r ≠ [] := by
        rintro hnil
        obtain ⟨rfl, rfl⟩ := List.append_eq_nil_iff.mp hnil
        simp [htabs] at hlen
      have hkeep : s.activeTabId ≠ tabId → s.activeTabId ∈ (l ++ r).map fun t ↦ t.id := by
        intro hact
        obtain ⟨u, hu, hua⟩ := List.mem_map.mp h.active_mem
        refine List.mem_map.mpr ⟨u, ?_, hua⟩
        rw [← hfilter, List.mem_filter, decide_eq_true_iff, hua]
        exact ⟨hu, hact⟩
      have hle : board (l ++ r) ≤ board s.tabs := board_sublist hsub
      rw [hfilter]
      dsimp only
      split
      · rename_i hact
        exact Supply.Post.pure ⟨⟨h.tabs_ok.sublist hsub, hkeep hact⟩, hle⟩
      · obtain ⟨id, hclose, hmem⟩ := activeTabIdAfterClose_spec [tabId] hne
          fun hact ↦ hkeep (by simpa using hact)
        refine (Supply.Post.ofExcept hclose (Q := fun id' used' ↦ id' = id ∧ used' = used)
          ⟨rfl, rfl⟩).bind fun id' used₁ _ ⟨hid', hused⟩ ↦ ?_
        subst hid' hused
        exact Supply.Post.pure ⟨⟨h.tabs_ok.sublist hsub, hmem⟩, hle⟩

/-- Closing a Pane of the active Tab takes its View off the board. -/
theorem applyClosePane_post {s : WorkbenchSnapshot} (h : SnapshotOk allowed used s)
    (hwelcome : allowed welcomeTarget) (paneId : String) :
    Supply.Post used (applyClosePane s paneId) fun result used' ↦
      SnapshotOk allowed used' (result.getD s) ∧
        board (result.getD s).tabs ≤ board s.tabs := by
  obtain ⟨t, l, r, hactive, htabs, hid⟩ := getActiveTab_eq h
  obtain ⟨-, hok, -, -, hes⟩ := tabsOk_middle.mp (htabs ▸ h.tabs_ok)
  rw [applyClosePane]
  refine (Supply.Post.ofExcept hactive (Q := fun t' used' ↦ t' = t ∧ used' = used)
    ⟨rfl, rfl⟩).bind fun t' used₁ _ hclosed ↦ ?_
  obtain ⟨ht', hused⟩ := hclosed
  subst ht' hused
  have hle : ∀ {es : List Entry} {s' : WorkbenchSnapshot} {t₁ t₂ : WorkbenchTab},
      realEntries t₁.panes.entries = realEntries es → es.Sublist t'.panes.entries →
      t₁.id = t'.id → SameContent t₁ t₂ → s'.tabs = l ++ t₂ :: r →
      board s'.tabs ≤ board s.tabs := by
    intro es s' t₁ t₂ hreal hsub hid₁ hsame htabs'
    rw [htabs', htabs, board_middle, board_middle, hsame.tabBoard_eq, tabBoard, tabBoard, hreal,
      hid₁]
    exact add_le_add (Multiset.map_le_map (realEntries_sublist hsub)) le_rfl
  split
  · exact Supply.Post.pure ⟨h, le_rfl⟩
  · rename_i view hget
    rcases closeLeaf_tab hok paneId with ⟨hclose, hnil⟩ | ⟨next, hclose, hnext, hpre⟩
    · refine (Supply.Post.ofExcept hclose (Q := fun o used' ↦ o = none ∧ used' = used₁)
        ⟨rfl, rfl⟩).bind fun o used₂ _ hchosen ↦ ?_
      obtain ⟨ho, hused⟩ := hchosen
      subst ho hused
      dsimp only
      split
      · refine Supply.Post.map (P := fun s' used' ↦ SnapshotOk allowed used' s' ∧
          board s'.tabs ≤ board s.tabs) ?_ fun s' used₃ _ hs' ↦ hs'
        refine (clearedTab_post hok.toTabPre).bind fun t₁ used₃ hsub₃ hcleared ↦ ?_
        obtain ⟨hok₁, hid₁, hfill⟩ := hcleared
        have hes₁ := hfill.entriesOk hwelcome hsub₃ (hes.sublist (List.sublist_append_right _ _))
        refine (updateTab_post h hsub₃ htabs hok₁.toTabPre hid₁ hes₁).mono
          fun s' used₄ _ hupdated ↦ ?_
        obtain ⟨hok', _, t₂, htabs', hsame⟩ := hupdated
        exact ⟨hok', hle hfill.realEntries_eq (List.nil_sublist _) hid₁ hsame htabs'⟩
      · exact (applyCloseTab_post h t'.id).map fun s' used₃ _ hs' ↦ hs'
    · refine (Supply.Post.ofExcept hclose (Q := fun o used' ↦ o = some next ∧ used' = used₁)
        ⟨rfl, rfl⟩).bind fun o used₂ _ hchosen ↦ ?_
      obtain ⟨ho, hused⟩ := hchosen
      subst ho hused
      refine (updateTab_post h Set.Subset.rfl htabs hpre hnext
        (hes.sublist (List.filter_sublist.append_right _))).map
        fun s' used₃ _ hupdated ↦ ?_
      obtain ⟨hok', _, t₂, htabs', hsame⟩ := hupdated
      refine ⟨hok', ?_⟩
      exact hle rfl List.filter_sublist hnext hsame htabs'

/-! ## Retargeting a Pane -/

/-- Where a target's existing View is found, in the shape of the lookups it is made of. -/
theorem existingViewOf_cases (s : WorkbenchSnapshot) (t : WorkbenchTab) (target : ViewTarget) :
    (∃ location, findSessionViewPane s target = some location ∧
      existingViewOf s t target = some location) ∨
    findSessionViewPane s target = none ∧
      existingViewOf s t target = (findPaneByTarget t target).map fun p ↦ ⟨t.id, p⟩ := by
  rw [existingViewOf]
  cases findSessionViewPane s target with
  | some location => exact Or.inl ⟨location, rfl, rfl⟩
  | none => exact Or.inr ⟨rfl, rfl⟩

/-- What retargeting a Pane in place does to its Session and its key: the target's View was that
very Pane, or the target is shown nowhere it would count. -/
structure Retargets (s : WorkbenchSnapshot) (t : WorkbenchTab) (old : ViewInstance)
    (target : ViewTarget) : Prop where
  session : sessionOf target = sessionOf old.target ∨
    ∀ u ∈ s.tabs, ∀ e ∈ u.panes.entries, ¬isSameSessionTarget e.2.target target = true
  key : (targetKey target = targetKey old.target ∨ isTabScoped target = false) ∨
    ∀ e ∈ t.panes.entries, targetKey e.2.target ≠ targetKey target

theorem retargets_of_existing {s : WorkbenchSnapshot} (h : SnapshotOk allowed used s)
    {l r : List WorkbenchTab} {t : WorkbenchTab} (htabs : s.tabs = l ++ t :: r) {paneId : String}
    {old : ViewInstance} (hget : t.panes.get paneId = some old) {target : ViewTarget}
    (hexisting : ∀ location, existingViewOf s t target = some location →
      location.tabId = t.id ∧ location.paneId = paneId) : Retargets s t old target := by
  rcases existingViewOf_cases s t target with ⟨location, hfind, hloc⟩ | ⟨hfind, hloc⟩
  · obtain ⟨hlid, hlpane⟩ := hexisting location hloc
    obtain ⟨l₁, t₁, r₁, view, htabs₁, hid₁, hget₁, hsame⟩ := findSessionViewPane_eq_some hfind
    have ht₁ : t₁ = t := by
      refine List.inj_on_of_nodup_map h.tabs_ok.nodup_ids ?_ ?_ (hid₁.trans hlid)
      · rw [htabs₁]
        exact List.mem_append_right _ List.mem_cons_self
      · rw [htabs]
        exact List.mem_append_right _ List.mem_cons_self
    rw [ht₁, hlpane, hget, Option.some_inj] at hget₁
    subst hget₁
    obtain ⟨session, hold, hnew⟩ := isSameSessionTarget_iff.mp hsame
    refine ⟨Or.inl (hnew.trans hold.symm), Or.inl (Or.inr ?_)⟩
    have hkind := isSessionViewTarget_iff.mpr ⟨session, hnew⟩
    simp [isTabScoped, hkind]
  · refine ⟨Or.inr (findSessionViewPane_eq_none hfind), ?_⟩
    cases hpane : findPaneByTarget t target with
    | none => exact Or.inr (findPaneByTarget_eq_none.mp hpane)
    | some p =>
      obtain ⟨-, hp⟩ := hexisting ⟨t.id, p⟩ (by rw [hloc, hpane]; rfl)
      obtain ⟨view, hview, hkey⟩ := findPaneByTarget_eq_some hpane
      have hp' : p = paneId := hp
      rw [hp', hget, Option.some_inj] at hview
      exact Or.inl (Or.inl (hview ▸ hkey.symm))

/-- Retargeting a Pane in place, on the board. -/
theorem Retargets.step {s : WorkbenchSnapshot} {t : WorkbenchTab} {old : ViewInstance}
    {target : ViewTarget} (h : Retargets s t old target) {paneId definitionId : String}
    {rule : CommandRule} (hopens : rule.opens) (htarget : rule.target = some target)
    (hdest : rule.destination = some t.id) (hcloses : rule.closes) {rest b' : Board}
    (hbefore : board s.tabs = placedBoard ⟨t.id, paneId, old⟩ + rest)
    (hafter : b' = placedBoard ⟨t.id, paneId, ⟨old.id, definitionId, target⟩⟩ + rest)
    (hscoped : ∀ p ∈ rest, p.tabId = t.id → ∃ e ∈ t.panes.entries, e.2 = p.view)
    (hfree : ∀ p ∈ rest, rule.givenUp ≠ some ⟨p.tabId, p.paneId⟩) :
    BoardStep used rule (board s.tabs) b' := by
  let a : Placed := ⟨t.id, paneId, old⟩
  let a' : Placed := ⟨t.id, paneId, ⟨old.id, definitionId, target⟩⟩
  have hle : rest ≤ board s.tabs := hbefore ▸ Multiset.le_add_left _ _
  have hsession : a'.session = a.session ∨ Unclaimed Placed.session a' rest := by
    refine h.session.imp_right fun hnone ↦ unclaimed_session fun p hp ↦ ?_
    obtain ⟨u, hu, -, he⟩ := entry_of_mem_board (Multiset.mem_of_le hle hp)
    exact hnone u hu _ he
  have htabKey : a'.tabKey = a.tabKey ∨ Unclaimed Placed.tabKey a' rest := by
    rcases h.key with (hkey | hnot) | hnone
    · refine Or.inl ?_
      have hkind := kind_eq_of_targetKey_eq hkey
      have hsame : isTabScoped target = isTabScoped old.target := by
        simp [isTabScoped, isSessionViewTarget, hkind]
      simp only [Placed.tabKey, a, a', hsame, hkey]
    · refine Or.inr fun k hk ↦ ?_
      simp [Placed.tabKey, a', hnot] at hk
    · refine Or.inr (unclaimed_tabKey fun p hp htab ↦ ?_)
      obtain ⟨e, he, hview⟩ := hscoped p hp htab
      exact hview ▸ hnone e he
  by_cases hnew : isReal (⟨old.id, definitionId, target⟩ : ViewInstance) = true
  · by_cases hold : isReal old = true
    · exact .exchange a a' rest (Or.inl (hbefore.trans (placedBoard_of_real hold rest)).symm)
        (hafter.trans (placedBoard_of_real hnew rest))
        ⟨rfl, Or.inr ⟨hopens, htarget, hfree⟩, hsession, htabKey, Or.inl hdest⟩
    · -- a Welcome has neither a Session nor a key to keep
      have hkind : old.target.kind = .welcome := by simpa [isReal] using hold
      have hnone : a.session = none := by
        by_contra hsome
        obtain ⟨session, hs⟩ := Option.ne_none_iff_exists'.mp hsome
        have hview := isSessionViewTarget_iff.mpr ⟨session, hs⟩
        rw [isSessionViewTarget, hkind] at hview
        exact absurd hview (by decide)
      have hkey : a.tabKey = none := by simp [Placed.tabKey, a, isTabScoped, hkind]
      exact .add a' rest (Or.inl (hbefore.trans (placedBoard_of_not_real hold rest)).symm)
        (hafter.trans (placedBoard_of_real hnew rest))
        ⟨hopens, htarget, hsession.elim (fun heq ↦ unclaimed_of_none (heq.trans hnone)) id,
          fun _ ↦ htabKey.elim (fun heq ↦ unclaimed_of_none (heq.trans hkey)) id, hfree,
          Or.inl hdest⟩
  · exact .remove
      (Or.inr ⟨hcloses, (hafter.trans (placedBoard_of_not_real hnew rest)).trans_le hle⟩)

/-- **Retargeting a Pane.** -/
theorem applyReplacePaneTarget_ok {s : WorkbenchSnapshot} (h : SnapshotOk allowed used s)
    (hwelcome : allowed welcomeTarget) (paneId : String) {target : ViewTarget}
    (hallowed : allowed target) :
    CommandOk allowed used (retargetRule s target paneId) s
      (applyReplacePaneTarget s paneId target) := by
  rw [applyReplacePaneTarget]
  refine commandOk_active h fun t l r htabs hid ↦ ?_
  obtain ⟨-, hok, -, hnew, hes⟩ := tabsOk_middle.mp (htabs ▸ h.tabs_ok)
  split
  · exact commandOk_pure h
  · rename_i old hget
    have hmem : paneId ∈ t.panes.keys := OrderedMap.mem_keys_of_get hget
    have hperm := OrderedMap.entries_perm_of_get hget
    -- what is left of the board without this Pane
    let rest := (realEntries (t.panes.delete paneId).entries).map (placeEntry t.id) + board (l ++ r)
    have hbefore : board s.tabs = placedBoard ⟨t.id, paneId, old⟩ + rest := by
      rw [htabs, board_middle, tabBoard, realEntries_perm hperm, map_realEntries_cons, add_assoc]
      rfl
    have hretarget : (∀ location, existingViewOf s t target = some location →
        location.tabId = t.id ∧ location.paneId = paneId) →
        CommandOk allowed used (retargetRule s target paneId) s (updateTab s { t with
            panes := t.panes.set paneId
              { old with definitionId := definitionIdForTarget target, target } }) := by
      intro hexisting
      have hset := OrderedMap.entries_set_perm t.panes paneId
        { old with definitionId := definitionIdForTarget target, target }
      have hes₁ : EntriesOk allowed used ((t.panes.set paneId
          { old with definitionId := definitionIdForTarget target, target }).entries
            ++ entriesOf (l ++ r)) := by
        obtain ⟨hrest, hp, hv, hpu, hvu, -, -⟩ :=
          entriesOk_cons.mp (hes.perm (hperm.append_right (entriesOf (l ++ r))).symm)
        refine EntriesOk.perm ?_ (hset.append_right (entriesOf (l ++ r)))
        exact entriesOk_cons.mpr ⟨hrest, hp, hv, hpu, hvu, hallowed, rfl⟩
      refine (updateTab_post h Set.Subset.rfl htabs (hok.set_present hmem _) rfl hes₁).mono
        fun s' used₁ _ hupdated ↦ ?_
      obtain ⟨hok', _, t₂, htabs', hsame⟩ := hupdated
      refine ⟨hok', ?_⟩
      have hafter : board s'.tabs
          = placedBoard ⟨t.id, paneId, ⟨old.id, definitionIdForTarget target, target⟩⟩ + rest := by
        rw [htabs', board_middle, hsame.tabBoard_set (t := t) rfl rfl, add_assoc]
      have hactive : getActiveTab s = .ok t := by
        rw [getActiveTab, ← hid, findTab_middle htabs hnew]
      have hinPlace : retargetsInPlace s target paneId := ⟨t, hactive, hmem, hexisting⟩
      refine (retargets_of_existing h htabs hget hexisting).step hinPlace rfl
        (congrArg some hid.symm) trivial hbefore hafter (fun p hp htab ↦ ?_) fun p hp heq ↦ ?_
      · rcases Multiset.mem_add.mp hp with hp | hp
        · obtain ⟨e, he, rfl⟩ := Multiset.mem_map.mp hp
          exact ⟨e, (List.filter_sublist.subset (mem_realEntries.mp he).1), rfl⟩
        · obtain ⟨u, hu, huid, -⟩ := entry_of_mem_board hp
          exact absurd (List.mem_map.mpr ⟨u, hu, huid.trans htab⟩) hnew
      · rw [retargetRule, Option.some_inj, PaneLocation.mk.injEq] at heq
        rcases Multiset.mem_add.mp hp with hp | hp
        · obtain ⟨e, he, rfl⟩ := Multiset.mem_map.mp hp
          have hdel := (mem_realEntries.mp he).1
          rw [OrderedMap.entries_delete, List.mem_filter, decide_eq_true_iff] at hdel
          exact hdel.2 heq.2.symm
        · obtain ⟨u, hu, huid, -⟩ := entry_of_mem_board hp
          exact hnew (List.mem_map.mpr ⟨u, hu, huid.trans (heq.1.symm.trans hid.symm)⟩)
    dsimp only
    split
    · rename_i existing hexisting
      split
      · refine commandOk_of_le trivial ((closePaneInTab_post hok paneId).bind
          fun t₁ used₁ hsub hclosed ↦ ?_)
        obtain ⟨hok₁, hid₁, hfill⟩ := hclosed
        obtain ⟨hreplace, hd⟩ := detached_of_refilled h hwelcome hsub htabs hget hok₁ hid₁ hfill
        rw [hreplace]
        refine (focusPane_post hd.ok existing).mono fun s' used₂ _ hfocused ↦ ?_
        obtain ⟨hok', hboard, _⟩ := hfocused
        refine ⟨hok', ?_⟩
        rw [hboard, hd.board_eq]
        exact Multiset.le_add_left _ _
      · rename_i hsame
        rw [not_or, not_not, not_not] at hsame
        refine hretarget fun location hloc ↦ ?_
        rw [hexisting, Option.some_inj] at hloc
        exact hloc ▸ hsame
    · rename_i hexisting
      exact hretarget fun location hloc ↦ by rw [hexisting] at hloc; cases hloc

end Awen.Workbench
