import Awen.Workbench.CommandSteps

/-!
# Layout commands and the tab strip

None of these commands touches the board. A layout command changes the layout of the active Tab, its
columns, or what it remembers of the other layout mode; what is to be shown is that the Tab
satisfies `TabPre` again, after which reconciling it does the rest.
-/

namespace Awen.Workbench

open LayoutNode

variable {allowed : ViewTarget → Prop} {used used' : Set String}

/-- A layout command updates the active Tab without touching its Panes. -/
theorem commandOk_layout {rule : CommandRule} {s : WorkbenchSnapshot}
    (h : SnapshotOk allowed used s) {l r : List WorkbenchTab} {t t₁ : WorkbenchTab}
    (htabs : s.tabs = l ++ t :: r) (hpre : TabPre used t₁) (hid : t₁.id = t.id)
    (hpanes : t₁.panes = t.panes) : CommandOk allowed used rule s (updateTab s t₁) :=
  commandOk_of_board (updateTab_board h Set.Subset.rfl htabs hpre hid hpanes)

/-! ## Layout modes -/

theorem currentMemory_spec {t : WorkbenchTab} (h : TabOk used t) :
    TreeOk (currentMemory t).bsp ∧ ColumnsOk used ((currentMemory t).columns.getD []) := by
  have hempty : TreeOk none ∧ ColumnsOk used [] := ⟨by simp [TreeOk], columnsOk_nil used⟩
  rw [currentMemory]
  split
  · rename_i m hm
    split
    · exact ⟨h.memory_bsp m hm, h.memory_columns m hm⟩
    · exact hempty
  · exact hempty

/-- **Switching the layout mode.** -/
theorem applySetLayoutMode_ok {rule : CommandRule} {s : WorkbenchSnapshot}
    (h : SnapshotOk allowed used s) (mode : LayoutMode) :
    CommandOk allowed used rule s (applySetLayoutMode s mode) := by
  rw [applySetLayoutMode]
  refine commandOk_active h fun t l r htabs _ ↦ ?_
  have hok := (tabsOk_middle.mp (htabs ▸ h.tabs_ok)).2.1
  split
  · exact commandOk_pure h
  · rename_i hmode
    have hremembered := currentMemory_spec hok
    dsimp only
    generalize currentMemory t = memory at hremembered
    cases mode with
    | scrolling =>
      refine commandOk_of_board ((reconcileColumns_post hremembered.2 _).bind
        fun columns used₁ hsub ⟨hcolumns, _⟩ ↦ updateTab_board h hsub htabs ?_ rfl rfl)
      exact {
        focus_mem := hok.focus_mem
        bsp := fun hbsp ↦ absurd rfl hbsp
        columns_ok := fun _ ↦ hcolumns
        memory_bsp := fun m hm ↦ by
          rw [← Option.some_inj.mp hm]
          exact fun n hn ↦ Option.some_inj.mp hn ▸ ⟨hok.layout_wf, hok.nodup_leaves⟩
        memory_columns := fun m hm ↦ by
          rw [← Option.some_inj.mp hm]
          exact hremembered.2.mono hsub
        title := hok.title }
    | bsp =>
      refine commandOk_of_board ((reconcileBsp_post hremembered.1 hok.nodup_leaves
        (leafIds_ne_nil hok.layout_wf.hasLeaves)).bind fun layout used₁ hsub ⟨hwf, hperm⟩ ↦
          updateTab_board h hsub htabs ?_ rfl rfl)
      have hscrolling : t.layoutMode = some .scrolling := by
        rcases hm : t.layoutMode with _ | _ | _
        · exact absurd (by rw [hm]; rfl) hmode
        · exact absurd (by rw [hm]; rfl) hmode
        · rfl
      exact {
        focus_mem := hok.focus_mem
        bsp := fun _ ↦ ⟨hwf, hperm.trans hok.leaves⟩
        columns_ok := fun hs ↦ by cases hs
        memory_bsp := fun m hm ↦ by
          rw [← Option.some_inj.mp hm]
          exact hremembered.1
        memory_columns := fun m hm ↦ by
          rw [← Option.some_inj.mp hm]
          exact (hok.columns_ok hscrolling).mono hsub
        title := hok.title }

/-- **Moving a sash.** -/
theorem applySetSplitRatio_ok {rule : CommandRule} {s : WorkbenchSnapshot}
    (h : SnapshotOk allowed used s) (splitId : String) (index : ℤ) (ratio : JsNumber) :
    CommandOk allowed used rule s (applySetSplitRatio s splitId index ratio) := by
  cases ratio with
  | nonFinite => exact commandOk_active h fun _ _ _ _ _ ↦ commandOk_pure h
  | finite ratio =>
    rw [applySetSplitRatio]
    refine commandOk_active h fun t l r htabs _ ↦ ?_
    have hok := (tabsOk_middle.mp (htabs ▸ h.tabs_ok)).2.1
    split
    · exact commandOk_pure h
    · refine commandOk_layout (t := t) h htabs { hok.toTabPre with
        bsp := fun _ ↦ ⟨wellFormed_setSplitRatio hok.layout_wf _ _ _, ?_⟩ } rfl rfl
      rw [leafIds_setSplitRatio]
      exact hok.leaves

/-! ## Columns -/

/-- New columns for a scrolling Tab. -/
theorem TabOk.with_columns {t : WorkbenchTab} (h : TabOk used t)
    (hmode : t.layoutMode = some .scrolling) {columns : List Column}
    (hcolumns : ColumnsOk used columns) (layout : LayoutNode) :
    TabPre used { t with columns := some columns, layout } :=
  { h.toTabPre with
    bsp := fun hbsp ↦ absurd hmode hbsp
    columns_ok := fun _ ↦ hcolumns }

theorem valid_changeWidth {c : Column} (h : c.Valid) (width : Option JsNumber) :
    (changeWidth c width).Valid := by
  rw [changeWidth.eq_def]
  split
  · refine ⟨h.paneIds_ne_nil, h.shares_ok, le_max_left _ _, max_le ?_ (min_le_left _ _)⟩
    norm_num [MIN_COLUMN_WIDTH, MAX_COLUMN_WIDTH]
  · exact h

/-- The accepted shares are as many positive numbers. -/
theorem finitePositive_spec {numbers : List JsNumber} {values : List ℚ}
    (h : finitePositive numbers = some values) :
    values.length = numbers.length ∧ ∀ x ∈ values, 0 < x := by
  rw [finitePositive] at h
  induction numbers generalizing values with
  | nil =>
    rw [List.mapM_nil] at h
    rw [← Option.some_inj.mp h]
    simp
  | cons number numbers ih =>
    rw [List.mapM_cons, Option.bind_eq_bind, Option.bind_eq_some_iff] at h
    obtain ⟨value, hvalue, hrest⟩ := h
    rw [Option.bind_eq_bind, Option.bind_eq_some_iff] at hrest
    obtain ⟨rest, hrest, hcons⟩ := hrest
    obtain ⟨hlen, hpos⟩ := ih hrest
    rw [← Option.some_inj.mp hcons]
    refine ⟨by simp [hlen], List.forall_mem_cons.mpr ⟨?_, hpos⟩⟩
    cases number with
    | nonFinite => cases hvalue
    | finite x =>
      dsimp only at hvalue
      split at hvalue
      · rename_i hx
        exact Option.some_inj.mp hvalue ▸ hx
      · cases hvalue

theorem valid_changeShares {c : Column} (h : c.Valid) (shares : Option (List JsNumber)) :
    (changeShares c shares).Valid := by
  rw [changeShares.eq_def]
  split
  · rename_i shares
    split
    · rename_i hlen
      split
      · rename_i values hvalues
        obtain ⟨hcount, hpos⟩ := finitePositive_spec hvalues
        have hne : values ≠ [] := by
          rintro rfl
          refine h.paneIds_ne_nil (List.eq_nil_of_length_eq_zero ?_)
          rw [← hlen, ← hcount, List.length_nil]
        have hsizes := splitSizes_map_div values hne hpos
        rw [hcount, hlen] at hsizes
        exact ⟨h.paneIds_ne_nil, hsizes, h.width_ge, h.width_le⟩
      · exact h
    · exact h
  · exact h

@[simp] theorem id_changeWidth (c : Column) (width : Option JsNumber) :
    (changeWidth c width).id = c.id := by
  rw [changeWidth.eq_def]
  split <;> rfl

@[simp] theorem id_changeShares (c : Column) (shares : Option (List JsNumber)) :
    (changeShares c shares).id = c.id := by
  rw [changeShares.eq_def]
  repeat' split <;> try rfl

/-- **Resizing and moving a column.** -/
theorem applyColumnChange_ok {rule : CommandRule} {s : WorkbenchSnapshot}
    (h : SnapshotOk allowed used s) (columnId : String) (change : ColumnChange) :
    CommandOk allowed used rule s (applyColumnChange s columnId change) := by
  rw [applyColumnChange]
  refine commandOk_active h fun t l r htabs _ ↦ ?_
  have hok := (tabsOk_middle.mp (htabs ▸ h.tabs_ok)).2.1
  split
  · exact commandOk_pure h
  · rename_i hmode
    rw [not_not] at hmode
    have hcolumns := hok.columns_ok hmode
    generalize t.columns.getD [] = columns at hcolumns
    dsimp only
    split
    · exact commandOk_pure h
    · rename_i index hfind
      obtain ⟨hi, -, -⟩ := List.findIdx?_eq_some_iff_getElem.mp hfind
      obtain ⟨cs, ds, hsplit, -, hmodify⟩ := modify_eq_append_cons
        (fun column ↦ changeShares (changeWidth column change.width) change.shares)
        (List.getElem?_eq_getElem hi)
      have hvalid := hcolumns.valid _ (List.getElem_mem hi)
      have hchanged : ColumnsOk used (columns.modify index fun column ↦
          changeShares (changeWidth column change.width) change.shares) := by
        rw [hmodify]
        exact (hsplit ▸ hcolumns).replace (by simp)
          (valid_changeShares (valid_changeWidth hvalid _) _)
      refine commandOk_layout (t := t) h htabs
        (hok.with_columns hmode ?_ _) rfl rfl
      split
      · exact hchanged.perm (swapAt_perm _ _ _)
      · exact hchanged

theorem valid_moveInColumn {c : Column} (h : c.Valid) (paneId : String)
    (direction : ColumnDirection) : (moveInColumn paneId direction c).Valid := by
  rw [moveInColumn]
  split
  · dsimp only
    split
    · split
      · exact h
      · have hperm := swapAt_perm (c.paneIds.idxOf paneId) ‹ℕ› c.paneIds
        exact ⟨fun hnil ↦ h.paneIds_ne_nil (List.Perm.nil_eq (hnil ▸ hperm)).symm,
          hperm.length_eq ▸ h.shares_ok, h.width_ge, h.width_le⟩
    · exact h
  · exact h

@[simp] theorem id_moveInColumn (paneId : String) (direction : ColumnDirection) (c : Column) :
    (moveInColumn paneId direction c).id = c.id := by
  rw [moveInColumn]
  split
  · dsimp only
    split
    · split <;> rfl
    · rfl
  · rfl

theorem ColumnsOk.map {columns : List Column} (h : ColumnsOk used columns) {f : Column → Column}
    (hid : ∀ c, (f c).id = c.id) (hf : ∀ c, c.Valid → (f c).Valid) :
    ColumnsOk used (columns.map f) := by
  refine ⟨fun d hd ↦ ?_, ?_, fun d hd ↦ ?_⟩
  · obtain ⟨c, hc, rfl⟩ := List.mem_map.mp hd
    exact hf c (h.valid c hc)
  · have hids : columns.map (Column.id ∘ f) = columns.map Column.id :=
      List.map_congr_left fun c _ ↦ hid c
    rw [List.map_map, hids]
    exact h.nodup_ids
  · obtain ⟨c, hc, rfl⟩ := List.mem_map.mp hd
    exact (hid c).symm ▸ h.ids_used c hc

/-- **Moving a Pane within its column.** -/
theorem applyMoveInColumn_ok {rule : CommandRule} {s : WorkbenchSnapshot}
    (h : SnapshotOk allowed used s) (paneId : String) (direction : ColumnDirection) :
    CommandOk allowed used rule s (applyMoveInColumn s paneId direction) := by
  rw [applyMoveInColumn]
  refine commandOk_active h fun t l r htabs _ ↦ ?_
  have hok := (tabsOk_middle.mp (htabs ▸ h.tabs_ok)).2.1
  split
  · rename_i columns hcolumns
    split
    · rename_i hmode
      have hcols := hok.columns_ok hmode
      rw [hcolumns, Option.getD_some] at hcols
      exact commandOk_layout (t := t) h htabs (hok.with_columns hmode
        (hcols.map (id_moveInColumn paneId direction)
          fun c hc ↦ valid_moveInColumn hc paneId direction) _) rfl rfl
    · exact commandOk_pure h
  · exact commandOk_pure h

/-! ## The tab strip -/

/-- **A new Welcome Tab.** -/
theorem applyCreateTab_ok {rule : CommandRule} {s : WorkbenchSnapshot}
    (h : SnapshotOk allowed used s) (hwelcome : allowed welcomeTarget) :
    CommandOk allowed used rule s (applyCreateTab s) := by
  rw [applyCreateTab]
  refine commandOk_of_board (welcomeTab_post.bind
    fun t used₁ hsub ⟨⟨paneId, view, hsingle⟩, hnew, hmem, hfill⟩ ↦ Supply.Post.pure ?_)
  have hid : t.id ∉ s.tabs.map fun t ↦ t.id := by
    intro hmem'
    obtain ⟨u, hu, heq⟩ := List.mem_map.mp hmem'
    have huse := h.tabs_ok.ids_used u hu
    rw [heq] at huse
    exact hnew huse
  have htabs : TabsOk allowed used₁ (t :: s.tabs) := tabsOk_cons.mpr
    ⟨h.tabs_ok.toTabsBase.mono hsub, hsingle.tabOk, hmem, hid,
      hfill.entriesOk hwelcome hsub h.tabs_ok.entries_ok⟩
  have hperm : (s.tabs ++ [t]).Perm (t :: s.tabs) := List.perm_append_singleton t s.tabs
  refine ⟨⟨htabs.perm hperm, List.mem_map.mpr ⟨t, by simp, rfl⟩⟩, ?_⟩
  refine (board_perm hperm).trans ((board_cons t s.tabs).trans ?_)
  rw [tabBoard, hfill.realEntries_eq, realEntries_nil, Multiset.map_zero, zero_add]

theorem applyActivateTab_ok {rule : CommandRule} {s : WorkbenchSnapshot}
    (h : SnapshotOk allowed used s) (tabId : String) :
    CommandOk allowed used rule s (pure (applyActivateTab s tabId)) :=
  commandOk_of_board (Supply.Post.pure
    ⟨snapshotOk_applyActivateTab h tabId, by rw [tabs_applyActivateTab]⟩)

/-- What is left after trimming is left after trimming again. -/
theorem trim_trim_ne_empty {s : String} (h : trim s ≠ "") : trim (trim s) ≠ "" := by
  have hcs : (s.toList.dropWhile isTrimmed).rdropWhile isTrimmed ≠ [] := by
    intro hnil
    exact h (by rw [trim, hnil, String.ofList_nil])
  generalize hdef : (s.toList.dropWhile isTrimmed).rdropWhile isTrimmed = cs at hcs
  -- the last character is one that is kept
  have hlast : ¬isTrimmed (cs.getLast hcs) = true := by
    subst hdef
    exact List.rdropWhile_last_not _ _ hcs
  have hdrop : cs.dropWhile isTrimmed ≠ [] := fun hnil ↦
    hlast (List.dropWhile_eq_nil_iff.mp hnil _ (List.getLast_mem hcs))
  have hhead := List.head_dropWhile_not isTrimmed hdrop
  have hagain : (cs.dropWhile isTrimmed).rdropWhile isTrimmed ≠ [] := by
    rw [ne_eq, List.rdropWhile_eq_nil_iff]
    intro hall
    rw [hall _ (List.head_mem hdrop)] at hhead
    cases hhead
  rw [trim, trim, hdef, String.toList_ofList]
  intro hempty
  exact hagain (by simpa using congrArg String.toList hempty)

/-- **Renaming a Tab.** A manual title is never blank. -/
theorem applyRenameTab_ok {rule : CommandRule} {s : WorkbenchSnapshot}
    (h : SnapshotOk allowed used s) (tabId : String) (title : Option String) :
    CommandOk allowed used rule s (applyRenameTab s tabId title) := by
  rw [applyRenameTab]
  split
  · exact commandOk_pure h
  · rename_i t hfind
    obtain ⟨-, l, r, htabs⟩ := findTab_eq_some hfind
    have hok := (tabsOk_middle.mp (htabs ▸ h.tabs_ok)).2.1
    refine commandOk_layout (t := t) h htabs { hok.toTabPre with
      title := fun hmanual ↦ ?_ } rfl rfl
    dsimp only at hmanual ⊢
    split at hmanual
    · cases hmanual
    · rename_i hne
      refine ⟨(title.map trim).getD "", if_neg hne, ?_⟩
      cases title with
      | none => exact absurd rfl hne
      | some title => exact trim_trim_ne_empty hne

/-- **Moving a Tab** along the strip. -/
theorem applyMoveTab_perm (s : WorkbenchSnapshot) (fromIndex toIndex : ℤ) :
    (applyMoveTab s fromIndex toIndex).tabs.Perm s.tabs ∧
      (applyMoveTab s fromIndex toIndex).activeTabId = s.activeTabId := by
  rw [applyMoveTab]
  split
  · exact ⟨List.Perm.refl _, rfl⟩
  · split
    · exact ⟨List.Perm.refl _, rfl⟩
    · rename_i moved hmoved
      exact ⟨insertAt_eraseIdx_perm hmoved, rfl⟩

theorem snapshotOk_applyMoveTab {s : WorkbenchSnapshot} (h : SnapshotOk allowed used s)
    (fromIndex toIndex : ℤ) : SnapshotOk allowed used (applyMoveTab s fromIndex toIndex) := by
  obtain ⟨hperm, hactive⟩ := applyMoveTab_perm s fromIndex toIndex
  refine ⟨h.tabs_ok.perm hperm, ?_⟩
  rw [hactive]
  exact (hperm.map _).mem_iff.mpr h.active_mem

theorem applyMoveTab_ok {rule : CommandRule} {s : WorkbenchSnapshot}
    (h : SnapshotOk allowed used s) (fromIndex toIndex : ℤ) :
    CommandOk allowed used rule s (pure (applyMoveTab s fromIndex toIndex)) :=
  commandOk_of_board (Supply.Post.pure ⟨snapshotOk_applyMoveTab h fromIndex toIndex,
    board_perm (applyMoveTab_perm s fromIndex toIndex).1⟩)

end Awen.Workbench
