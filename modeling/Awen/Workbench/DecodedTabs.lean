import Awen.Workbench.Persistence
import Awen.Workbench.RemovalSteps

/-!
# What every decoded workbench satisfies

The decoder checks less than the commands keep: the sizes of a stored split need not sum to 1, and
two Tabs may list Panes under one id. What it does check is `TabReadable`: no split is empty, the
leaves are the keys of the Pane map, and one of them has the focus. That is enough for closing
Panes, whatever ids the generator draws (`removePaneIdsFromTabs_returns`).
-/

namespace Awen.Workbench

open LayoutNode

/-! ## Trees derived from columns -/

theorem hasLeaves_columnNode {c : Column} (h : c.paneIds ≠ []) : HasLeaves (columnNode c) := by
  rw [columnNode]
  split
  · exact .leaf _
  · refine hasLeaves_split.mpr ⟨by simpa using h, fun d hd ↦ ?_⟩
    obtain ⟨id, -, rfl⟩ := List.mem_map.mp hd
    exact .leaf id

theorem hasLeaves_columnsTree {columns : List Column} (h : ∀ c ∈ columns, c.paneIds ≠ [])
    (hne : columns ≠ []) : HasLeaves (columnsTree columns) := by
  have hchildren : ∀ d ∈ columns.map columnNode, HasLeaves d := by
    intro d hd
    obtain ⟨c, hc, rfl⟩ := List.mem_map.mp hd
    exact hasLeaves_columnNode (h c hc)
  rw [columnsTree]
  split
  · rename_i child heq
    exact hchildren child (by rw [heq]; exact List.mem_singleton_self child)
  · exact hasLeaves_split.mpr ⟨by simpa using hne, hchildren⟩

/-! ## Tabs -/

/-- What the decoder checks of a Tab. -/
structure TabReadable (t : WorkbenchTab) : Prop where
  has_leaves : HasLeaves t.layout
  leaves : (leafIds t.layout).Perm t.panes.keys
  focus_mem : t.focusedPaneId ∈ t.panes.keys

/-- What the decoder checks of a snapshot. -/
structure SnapshotReadable (s : WorkbenchSnapshot) : Prop where
  tab_readable : ∀ t ∈ s.tabs, TabReadable t
  nodup_ids : (s.tabs.map fun t ↦ t.id).Nodup
  active_mem : s.activeTabId ∈ s.tabs.map fun t ↦ t.id

theorem TabReadable.panes_ne_nil {t : WorkbenchTab} (h : TabReadable t) :
    t.panes.entries ≠ [] := fun hnil ↦ by
  have hmem := h.focus_mem
  rw [OrderedMap.keys, hnil] at hmem
  exact List.not_mem_nil hmem

theorem reconcileTab_returns (t : WorkbenchTab) :
    Supply.Returns (reconcileTab t) (SameContent t) := by
  rw [reconcileTab]
  split
  · exact Supply.Returns.pure ⟨rfl, rfl, rfl, rfl⟩
  · exact (reconcileColumns_returns _ _).bind fun _ _ ↦ Supply.Returns.pure ⟨rfl, rfl, rfl, rfl⟩

/-- A Tab that shows a Welcome and nothing else. -/
def ShowsWelcome (t : WorkbenchTab) : Prop :=
  ∃ paneId view, t.panes.entries = [(paneId, view)] ∧ view.target = welcomeTarget

theorem welcomeTab_returns : Supply.Returns welcomeTab ShowsWelcome := by
  have hid : Supply.Returns generateId fun _ ↦ True := Supply.Returns.fresh fun _ ↦ trivial
  refine hid.bind fun paneId _ ↦ ?_
  refine Supply.Returns.bind (P := fun _ ↦ True)
    (hid.bind fun _ _ ↦ Supply.Returns.pure trivial) fun tab _ ↦ ?_
  refine Supply.Returns.bind (P := fun view ↦ view.target = welcomeTarget)
    (hid.bind fun _ _ ↦ Supply.Returns.pure rfl) fun view hview ↦ Supply.Returns.pure ?_
  exact ⟨paneId, view, rfl, hview⟩

theorem clearedTab_returns (t : WorkbenchTab) :
    Supply.Returns (clearedTab t) fun t' ↦ t'.id = t.id ∧ ShowsWelcome t' := by
  refine welcomeTab_returns.bind fun welcome ⟨paneId, view, hpanes, htarget⟩ ↦
    (reconcileTab_returns _).mono fun t' hsame ↦ ⟨hsame.id_eq, paneId, view, ?_, htarget⟩
  rw [hsame.panes_eq]
  exact hpanes

/-! ## Decoding -/

mutual
/-- A layout that is read has no empty split. -/
theorem hasLeaves_of_layoutNodeOf : ∀ {value : Json} {n : LayoutNode},
    layoutNodeOf value = some n → HasLeaves n
  | .obj fields, n, h => by
    rw [layoutNodeOf] at h
    split at h
    · obtain ⟨id, -, hid⟩ := Option.bind_eq_some_iff.mp h
      exact Option.some_inj.mp hid ▸ .leaf id
    · obtain ⟨id, -, h⟩ := Option.bind_eq_some_iff.mp h
      obtain ⟨dir, -, h⟩ := Option.bind_eq_some_iff.mp h
      obtain ⟨children, hchildren, h⟩ := Option.bind_eq_some_iff.mp h
      obtain ⟨sizes, -, h⟩ := Option.bind_eq_some_iff.mp h
      split at h
      · cases h
      · rename_i hlength
        rw [not_or, not_lt] at hlength
        cases h
        exact hasLeaves_split.mpr ⟨List.ne_nil_of_length_pos (by omega),
          hasLeaves_of_childrenOf hchildren⟩
    · cases h

theorem hasLeaves_of_childrenOf : ∀ {fields : List (String × Json)} {children : List LayoutNode},
    childrenOf fields = some children → ∀ c ∈ children, HasLeaves c
  | (key, value) :: fields, children, h => by
    rw [childrenOf] at h
    split at h
    · exact hasLeaves_of_childListOf h
    · exact hasLeaves_of_childrenOf h

theorem hasLeaves_of_childListOf : ∀ {value : Json} {children : List LayoutNode},
    childListOf value = some children → ∀ c ∈ children, HasLeaves c
  | .arr _, _, h => hasLeaves_of_layoutNodesOf h

theorem hasLeaves_of_layoutNodesOf : ∀ {items : List Json} {children : List LayoutNode},
    layoutNodesOf items = some children → ∀ c ∈ children, HasLeaves c
  | [], children, h => by
    cases h
    exact fun c hc ↦ absurd hc List.not_mem_nil
  | value :: rest, children, h => by
    rw [layoutNodesOf] at h
    obtain ⟨node, hnode, h⟩ := Option.bind_eq_some_iff.mp h
    obtain ⟨nodes, hnodes, h⟩ := Option.bind_eq_some_iff.mp h
    cases h
    exact List.forall_mem_cons.mpr ⟨hasLeaves_of_layoutNodeOf hnode,
      hasLeaves_of_layoutNodesOf hnodes⟩
end

theorem readable_of_checkWorkbenchTab {value : Json} {t : WorkbenchTab}
    (h : checkWorkbenchTab value = some t) : TabReadable t := by
  simp only [checkWorkbenchTab, Option.bind_eq_bind, Option.bind_eq_some_iff] at h
  obtain ⟨id, -, layout, hlayout, focusedPaneId, -, titleMode, -, titleOverride, -, panes, -,
    layoutMode, -, h⟩ := h
  obtain ⟨layoutValue, -, hlayout⟩ := hlayout
  split at h
  · cases h
  rename_i hleaves
  split at h
  · cases h
  rename_i hfocus
  split at h
  · cases h
  cases h
  simp only [not_or, not_not, not_exists, not_and, Bool.not_eq_false] at hleaves hfocus
  obtain ⟨hnd, hlength, hhas⟩ := hleaves
  refine ⟨hasLeaves_of_layoutNodeOf hlayout, ?_, OrderedMap.has_eq_true.mp hfocus⟩
  refine (List.subperm_of_subset hnd fun paneId hmem ↦
    OrderedMap.has_eq_true.mp (hhas paneId hmem)).perm_of_length_le ?_
  rw [OrderedMap.length_keys]
  exact hlength.ge

theorem decodeWorkbenchTab_returns (value : Json) :
    Supply.Returns (decodeWorkbenchTab value) fun o ↦ ∀ t, o = some t → TabReadable t := by
  rw [decodeWorkbenchTab]
  split
  · exact Supply.Returns.pure nofun
  rename_i tab hcheck
  have hreadable := readable_of_checkWorkbenchTab hcheck
  have hcolumns : Supply.Returns (recoverColumns tab) fun columns ↦
      tab.layoutMode = some .scrolling →
      (columnPanes (columns.getD [])).Perm (leafIds tab.layout).eraseDups ∧
        ∀ c ∈ columns.getD [], c.paneIds ≠ [] := by
    rw [recoverColumns.eq_def]
    split
    · exact (reconcileColumns_returns _ _).map fun columns hcolumns _ ↦ hcolumns
    · split
      · exact (reconcileColumns_returns _ _).map fun columns hcolumns _ ↦ hcolumns
      · exact Supply.Returns.pure fun hmode ↦ absurd hmode ‹_›
  refine hcolumns.bind fun columns hcolumns ↦ Supply.Returns.pure fun t ht ↦ ?_
  cases ht
  by_cases hmode : tab.layoutMode = some .scrolling
  · obtain ⟨hperm, hne⟩ := hcolumns hmode
    have hnd : (leafIds tab.layout).Nodup := hreadable.leaves.nodup_iff.mpr tab.panes.nodup
    rw [eraseDups_eq_self hnd] at hperm
    have hnonempty : columns.getD [] ≠ [] := by
      intro hnil
      rw [hnil] at hperm
      exact leafIds_ne_nil hreadable.has_leaves hperm.nil_eq.symm
    refine ⟨?_, ?_, hreadable.focus_mem⟩
    · dsimp only
      rw [if_pos hmode]
      exact hasLeaves_columnsTree hne hnonempty
    · dsimp only
      rw [if_pos hmode, leafIds_columnsTree]
      exact hperm.trans hreadable.leaves
  · refine ⟨?_, ?_, hreadable.focus_mem⟩
    · dsimp only
      rw [if_neg hmode]
      exact hreadable.has_leaves
    · dsimp only
      rw [if_neg hmode]
      exact hreadable.leaves

private theorem tabsOf_returns (candidates : List Json) : ∀ tabIds draftWorkspaceKeys : List String,
    Supply.Returns (tabsOf tabIds draftWorkspaceKeys candidates) fun o ↦ ∀ tabs, o = some tabs →
      (∀ t ∈ tabs, TabReadable t) ∧ (tabs.map fun t ↦ t.id).Nodup ∧
        ∀ t ∈ tabs, t.id ∉ tabIds := by
  induction candidates with
  | nil =>
    intro tabIds keys
    refine Supply.Returns.pure fun tabs htabs ↦ ?_
    cases htabs
    simp
  | cons candidate candidates ih =>
    intro tabIds keys
    rw [tabsOf]
    refine (decodeWorkbenchTab_returns candidate).bind fun o htab ↦ ?_
    split
    · exact Supply.Returns.pure nofun
    rename_i tab
    split
    · exact Supply.Returns.pure nofun
    rename_i hnew
    split
    · exact Supply.Returns.pure nofun
    rename_i keys' _
    refine (ih (tab.id :: tabIds) keys').bind fun o hrest ↦ ?_
    split
    · exact Supply.Returns.pure nofun
    rename_i tabs
    refine Supply.Returns.pure fun tabs' htabs' ↦ ?_
    cases htabs'
    obtain ⟨hreadable, hnd, hids⟩ := hrest tabs rfl
    have hother (t : WorkbenchTab) (ht : t ∈ tabs) : t.id ≠ tab.id ∧ t.id ∉ tabIds := by
      simpa only [List.mem_cons, not_or] using hids t ht
    refine ⟨List.forall_mem_cons.mpr ⟨htab tab rfl, hreadable⟩, ?_,
      List.forall_mem_cons.mpr ⟨hnew, fun t ht ↦ (hother t ht).2⟩⟩
    rw [List.map_cons, List.nodup_cons]
    refine ⟨fun hmem ↦ ?_, hnd⟩
    obtain ⟨t, ht, heq⟩ := List.mem_map.mp hmem
    exact (hother t ht).1 heq

/-- **Every decoded snapshot is readable.** -/
theorem SnapshotReadable.of_deserialize {value : Json} {supply rest : Stream' String}
    {s : WorkbenchSnapshot}
    (h : deserializeWorkbenchSnapshot value supply = .ok (some s, rest)) :
    SnapshotReadable s := by
  have hdecode : Supply.Returns (decodeWorkbenchSnapshot value) fun o ↦
      ∀ s, o = some s → SnapshotReadable s := by
    rw [decodeWorkbenchSnapshot]
    split
    · split
      · exact Supply.Returns.pure nofun
      refine (tabsOf_returns _ [] []).bind fun o htabs ↦ ?_
      split
      · exact Supply.Returns.pure nofun
      rename_i tabs
      split
      · rename_i hactive
        refine Supply.Returns.pure fun s hs ↦ ?_
        cases hs
        obtain ⟨hreadable, hnd, -⟩ := htabs tabs rfl
        exact ⟨hreadable, hnd, hactive⟩
      · exact Supply.Returns.pure nofun
    · exact Supply.Returns.pure nofun
  exact (hdecode.tryCatch _).of_eq h s rfl

/-! ## Closing Panes -/

/-- Whether a Pane is among those to close. -/
def Removals.lists (removals : Removals) (place : PaneLocation) : Bool :=
  place.paneId ∈ (removals.get place.tabId).getD []

/-- What closing the Panes `gone` makes of one Tab: the others stay in order, and a Tab that loses
all of them shows a Welcome. -/
structure ClosesPanes (gone : PaneLocation → Bool) (t t' : WorkbenchTab) : Prop where
  id_eq : t'.id = t.id
  untouched : (∀ paneId, gone ⟨t.id, paneId⟩ = false) → t' = t
  entries : let kept := t.panes.entries.filter fun e ↦ !gone ⟨t.id, e.1⟩
    (kept ≠ [] ∧ t'.panes.entries = kept) ∨ (kept = [] ∧ ShowsWelcome t')

theorem removePaneIdsFromTab_returns {t : WorkbenchTab} (h : TabReadable t)
    (paneIds : List String) :
    Supply.Returns (removePaneIdsFromTab t paneIds) fun r ↦ r.1.id = t.id ∧
      let kept := t.panes.entries.filter fun e ↦ e.1 ∉ paneIds
      (kept ≠ [] ∧ r.1.panes.entries = kept) ∨ (kept = [] ∧ ShowsWelcome r.1) := by
  have hfocus := h.leaves.mem_iff.mpr h.focus_mem
  rw [removePaneIdsFromTab]
  rcases foldlM_closeOnePane_spec paneIds h.has_leaves h.leaves hfocus with
    ⟨hfold, hnil⟩ | ⟨next, hfold, -, -, hleaves, hfocus⟩
  · rw [OrderedMap.entries_foldl_delete] at hnil
    refine (Supply.Returns.ofExcept hfold (R := (· = none)) rfl).bind fun o ho ↦ ?_
    subst ho
    refine (clearedTab_returns t).bind fun t' hcleared ↦ ?_
    obtain ⟨hid, hwelcome⟩ := hcleared
    exact Supply.Returns.pure ⟨hid, Or.inr ⟨hnil, hwelcome⟩⟩
  · have hne : t.panes.entries.filter (fun e ↦ e.1 ∉ paneIds) ≠ [] := by
      rw [← OrderedMap.entries_foldl_delete]
      intro hnil
      have hmem := hleaves.mem_iff.mp hfocus
      rw [OrderedMap.keys, hnil] at hmem
      exact List.not_mem_nil hmem
    refine (Supply.Returns.ofExcept hfold (R := (· = some next)) rfl).bind fun o ho ↦ ?_
    subst ho
    refine (Supply.Returns.ofExcept (validFocus_spec hfocus) (R := fun _ ↦ True) trivial).bind
      fun focusedPaneId _ ↦ (reconcileTab_returns _).bind fun t' hsame ↦
        Supply.Returns.pure ⟨hsame.id_eq, Or.inl ⟨hne, ?_⟩⟩
    rw [hsame.panes_eq]
    exact OrderedMap.entries_foldl_delete paneIds t.panes

theorem removeFrom_returns {t : WorkbenchTab} (h : TabReadable t) (removals : Removals) :
    Supply.Returns (removeFrom removals t) fun r ↦ ClosesPanes removals.lists t r.1 := by
  have hnothing (hgone : (removals.get t.id).getD [] = []) :
      ClosesPanes removals.lists t t := by
    have hfilter : (t.panes.entries.filter fun e ↦ !removals.lists ⟨t.id, e.1⟩)
        = t.panes.entries := List.filter_eq_self.mpr fun e _ ↦ by simp [Removals.lists, hgone]
    exact ⟨rfl, fun _ ↦ rfl, Or.inl ⟨hfilter.symm ▸ h.panes_ne_nil, hfilter.symm⟩⟩
  rw [removeFrom.eq_def]
  split
  · rename_i hget
    exact Supply.Returns.pure (hnothing (by rw [hget, Option.getD_none]))
  · rename_i hget
    exact Supply.Returns.pure (hnothing (by rw [hget, Option.getD_some]))
  · rename_i paneIds hne hget
    refine (removePaneIdsFromTab_returns h paneIds).mono fun r hremoved ↦ ?_
    obtain ⟨hid, hentries⟩ := hremoved
    refine ⟨hid, ?_, ?_⟩
    · intro hnone
      obtain ⟨p, hp⟩ := List.exists_mem_of_ne_nil paneIds hne
      have hlists := hnone p
      rw [Removals.lists, hget, Option.getD_some, decide_eq_false_iff_not] at hlists
      exact absurd hp hlists
    · have hfilter : (t.panes.entries.filter fun e ↦ !removals.lists ⟨t.id, e.1⟩)
          = t.panes.entries.filter fun e ↦ e.1 ∉ paneIds :=
        List.filter_congr fun e _ ↦ by simp [Removals.lists, hget]
      rw [hfilter]
      exact hentries

/-- **Closing Panes of a decoded workbench**, with Tabs that lose all of theirs kept as Welcome. -/
theorem removePaneIdsFromTabs_returns {s : WorkbenchSnapshot} (h : ∀ t ∈ s.tabs, TabReadable t)
    (removals : Removals) :
    Supply.Returns (removePaneIdsFromTabs s removals .welcome) fun s' ↦
      s'.activeTabId = s.activeTabId ∧
        List.Forall₂ (ClosesPanes removals.lists) s.tabs s'.tabs := by
  rw [removePaneIdsFromTabs]
  split
  · rename_i hsize
    have hnone (place : PaneLocation) : removals.lists place = false := by
      have hget : removals.get place.tabId = none :=
        OrderedMap.get_eq_none.mpr fun hmem ↦ by
          rw [OrderedMap.keys, List.eq_nil_of_length_eq_zero hsize] at hmem
          exact List.not_mem_nil hmem
      simp [Removals.lists, hget]
    refine Supply.Returns.pure ⟨rfl, List.forall₂_same.mpr fun t ht ↦ ⟨rfl, fun _ ↦ rfl, ?_⟩⟩
    simp [hnone, (h t ht).panes_ne_nil]
  · refine (Supply.Returns.mapM fun t ht ↦ removeFrom_returns (h t ht) removals).bind
      fun rs hrs ↦ ?_
    dsimp only
    rw [if_pos (Or.inl rfl)]
    refine Supply.Returns.pure ⟨rfl, ?_⟩
    rw [List.forall₂_map_right_iff]
    exact hrs

end Awen.Workbench
