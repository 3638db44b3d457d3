import Awen.Workbench.Board

/-!
# What a snapshot satisfies between commands

`SnapshotOk`: every Tab satisfies its invariant, Tab ids, Pane ids and View ids are distinct over
the whole workbench and were all drawn from the supply, and the active Tab exists.

A command changes one or two Tabs, so the invariant is stated to come apart at a Tab: the list of
Tabs is written `l ++ t :: r`, and the entries of `t` are in front of those of the others.
-/

namespace Awen.Workbench

open LayoutNode

variable {allowed : ViewTarget → Prop} {used used' : Set String}

/-- All Panes of some Tabs with their Views. -/
def entriesOf (tabs : List WorkbenchTab) : List Entry := tabs.flatMap fun t ↦ t.panes.entries

/-- Every Tab is as it should be, and no two Tabs share an id. -/
structure TabsBase (used : Set String) (tabs : List WorkbenchTab) : Prop where
  tab_ok : ∀ t ∈ tabs, TabOk used t
  ids_used : ∀ t ∈ tabs, t.id ∈ used
  nodup_ids : (tabs.map fun t ↦ t.id).Nodup

/-- The invariant of a list of Tabs. -/
structure TabsOk (allowed : ViewTarget → Prop) (used : Set String) (tabs : List WorkbenchTab) :
    Prop extends TabsBase used tabs where
  entries_ok : EntriesOk allowed used (entriesOf tabs)

/-- The invariant of a snapshot. -/
structure SnapshotOk (allowed : ViewTarget → Prop) (used : Set String) (s : WorkbenchSnapshot) :
    Prop where
  tabs_ok : TabsOk allowed used s.tabs
  active_mem : s.activeTabId ∈ s.tabs.map fun t ↦ t.id

/-! ## Taking the invariant apart at a Tab -/

theorem entriesOf_cons (t : WorkbenchTab) (ts : List WorkbenchTab) :
    entriesOf (t :: ts) = t.panes.entries ++ entriesOf ts := List.flatMap_cons

theorem entriesOf_perm {ts ts' : List WorkbenchTab} (h : ts.Perm ts') :
    (entriesOf ts).Perm (entriesOf ts') := h.flatMap_right _

theorem entriesOf_sublist {ts ts' : List WorkbenchTab} (h : ts'.Sublist ts) :
    (entriesOf ts').Sublist (entriesOf ts) := by
  induction h with
  | slnil => exact List.Sublist.refl _
  | cons t _ ih => exact ih.trans (List.sublist_append_right _ _)
  | cons_cons t _ ih =>
    rw [entriesOf_cons, entriesOf_cons]
    exact List.Sublist.append (List.Sublist.refl _) ih

theorem TabsBase.mono {ts : List WorkbenchTab} (h : TabsBase used ts) (hsub : used ⊆ used') :
    TabsBase used' ts :=
  ⟨fun t ht ↦ (h.tab_ok t ht).mono hsub, fun t ht ↦ hsub (h.ids_used t ht), h.nodup_ids⟩

theorem TabsOk.mono {ts : List WorkbenchTab} (h : TabsOk allowed used ts) (hsub : used ⊆ used') :
    TabsOk allowed used' ts :=
  { h.toTabsBase.mono hsub with entries_ok := h.entries_ok.mono hsub }

theorem SnapshotOk.mono {s : WorkbenchSnapshot} (h : SnapshotOk allowed used s)
    (hsub : used ⊆ used') : SnapshotOk allowed used' s :=
  ⟨h.tabs_ok.mono hsub, h.active_mem⟩

theorem TabsOk.perm {ts ts' : List WorkbenchTab} (h : TabsOk allowed used ts)
    (hp : ts'.Perm ts) : TabsOk allowed used ts' where
  tab_ok := fun t ht ↦ h.tab_ok t (hp.mem_iff.mp ht)
  ids_used := fun t ht ↦ h.ids_used t (hp.mem_iff.mp ht)
  nodup_ids := (hp.map _).nodup_iff.mpr h.nodup_ids
  entries_ok := h.entries_ok.perm (entriesOf_perm hp)

theorem TabsOk.sublist {ts ts' : List WorkbenchTab} (h : TabsOk allowed used ts)
    (hs : ts'.Sublist ts) : TabsOk allowed used ts' where
  tab_ok := fun t ht ↦ h.tab_ok t (hs.subset ht)
  ids_used := fun t ht ↦ h.ids_used t (hs.subset ht)
  nodup_ids := h.nodup_ids.sublist (hs.map _)
  entries_ok := h.entries_ok.sublist (entriesOf_sublist hs)

theorem tabsOk_cons {t : WorkbenchTab} {ts : List WorkbenchTab} :
    TabsOk allowed used (t :: ts) ↔ TabsBase used ts ∧ TabOk used t ∧ t.id ∈ used ∧
      (t.id ∉ ts.map fun t ↦ t.id) ∧
      EntriesOk allowed used (t.panes.entries ++ entriesOf ts) := by
  constructor
  · intro h
    obtain ⟨hid, hnd⟩ := List.nodup_cons.mp h.nodup_ids
    exact ⟨⟨fun u hu ↦ h.tab_ok u (List.mem_cons_of_mem t hu),
      fun u hu ↦ h.ids_used u (List.mem_cons_of_mem t hu), hnd⟩,
      h.tab_ok t List.mem_cons_self, h.ids_used t List.mem_cons_self, hid, h.entries_ok⟩
  · rintro ⟨hbase, hok, hused, hid, hes⟩
    exact {
      tab_ok := List.forall_mem_cons.mpr ⟨hok, hbase.tab_ok⟩
      ids_used := List.forall_mem_cons.mpr ⟨hused, hbase.ids_used⟩
      nodup_ids := List.nodup_cons.mpr ⟨hid, hbase.nodup_ids⟩
      entries_ok := hes }

theorem tabsOk_middle {l r : List WorkbenchTab} {t : WorkbenchTab} :
    TabsOk allowed used (l ++ t :: r) ↔ TabsBase used (l ++ r) ∧ TabOk used t ∧ t.id ∈ used ∧
      (t.id ∉ (l ++ r).map fun t ↦ t.id) ∧
      EntriesOk allowed used (t.panes.entries ++ entriesOf (l ++ r)) := by
  rw [← tabsOk_cons]
  exact ⟨fun h ↦ h.perm List.perm_middle.symm, fun h ↦ h.perm List.perm_middle⟩

/-- Replacing one Tab by another with its id. -/
theorem TabsOk.replace {l r : List WorkbenchTab} {t t' : WorkbenchTab}
    (h : TabsOk allowed used (l ++ t :: r)) (hsub : used ⊆ used') (hok : TabOk used' t')
    (hid : t'.id = t.id)
    (hes : EntriesOk allowed used' (t'.panes.entries ++ entriesOf (l ++ r))) :
    TabsOk allowed used' (l ++ t' :: r) := by
  obtain ⟨hbase, -, hused, hnew, -⟩ := tabsOk_middle.mp h
  refine tabsOk_middle.mpr ⟨hbase.mono hsub, hok, ?_, ?_, hes⟩
  · rw [hid]
    exact hsub hused
  · rwa [hid]

theorem map_id_middle {l r : List WorkbenchTab} {t t' : WorkbenchTab} (hid : t'.id = t.id) :
    (l ++ t' :: r).map (fun t ↦ t.id) = (l ++ t :: r).map fun t ↦ t.id := by
  rw [List.map_append, List.map_append, List.map_cons, List.map_cons, hid]

private theorem replaceTab_of_not_mem {tabs : List WorkbenchTab} {tabId : String}
    (h : tabId ∉ tabs.map fun t ↦ t.id) (t' : WorkbenchTab) : replaceTab tabs tabId t' = tabs :=
  (List.map_congr_left fun t ht ↦ if_neg fun heq ↦ h (List.mem_map.mpr ⟨t, ht, heq⟩)).trans
    (List.map_id' _)

theorem replaceTab_middle {l r : List WorkbenchTab} {t : WorkbenchTab}
    (hnew : t.id ∉ (l ++ r).map fun t ↦ t.id) (t' : WorkbenchTab) :
    replaceTab (l ++ t :: r) t.id t' = l ++ t' :: r := by
  rw [List.map_append, List.mem_append, not_or] at hnew
  have hl := replaceTab_of_not_mem hnew.1 t'
  have hr := replaceTab_of_not_mem hnew.2 t'
  rw [replaceTab] at hl hr ⊢
  rw [List.map_append, List.map_cons, if_pos rfl, hl, hr]

/-- A workbench of one Tab with one View. -/
theorem snapshotOk_single {t : WorkbenchTab} {paneId : String} {view : ViewInstance}
    (h : SingleTab t paneId view) (hid : t.id ∈ used) (hp : paneId ∈ used) (hv : view.id ∈ used)
    (ha : allowed view.target) (hd : view.definitionId = definitionIdForTarget view.target) :
    SnapshotOk allowed used ⟨[t], t.id⟩ := by
  have hentries : t.panes.entries ++ entriesOf [] = [(paneId, view)] := by
    rw [h.panes_eq]
    rfl
  refine ⟨tabsOk_cons.mpr ⟨⟨by simp, by simp, List.nodup_nil⟩, h.tabOk, hid, by simp, ?_⟩,
    List.mem_singleton_self _⟩
  rw [hentries]
  exact entriesOk_cons.mpr ⟨entriesOk_nil, by simp, by simp, hp, hv, ha, hd⟩

/-! ## Finding a Tab -/

theorem findTab_eq_some {s : WorkbenchSnapshot} {tabId : String} {t : WorkbenchTab}
    (h : findTab s tabId = some t) : t.id = tabId ∧ ∃ l r, s.tabs = l ++ t :: r := by
  rw [findTab] at h
  exact ⟨by simpa using List.find?_some h, List.append_of_mem (List.mem_of_find?_eq_some h)⟩

theorem findTab_middle {s : WorkbenchSnapshot} {l r : List WorkbenchTab} {t : WorkbenchTab}
    (htabs : s.tabs = l ++ t :: r) (hnew : t.id ∉ (l ++ r).map fun t ↦ t.id) :
    findTab s t.id = some t := by
  rw [List.map_append, List.mem_append, not_or] at hnew
  have hnone : l.find? (fun u ↦ u.id = t.id) = none :=
    List.find?_eq_none.mpr fun u hu heq ↦
      hnew.1 (List.mem_map.mpr ⟨u, hu, of_decide_eq_true heq⟩)
  rw [findTab, htabs, List.find?_append, List.find?_cons_of_pos (by simp), hnone, Option.none_or]

theorem findTab_eq_none {s : WorkbenchSnapshot} {tabId : String} :
    findTab s tabId = none ↔ tabId ∉ s.tabs.map fun t ↦ t.id := by
  rw [findTab, List.find?_eq_none, List.mem_map, not_exists]
  exact forall_congr' fun t ↦ by rw [not_and, decide_eq_true_iff]

theorem getActiveTab_eq {s : WorkbenchSnapshot} (h : SnapshotOk allowed used s) :
    ∃ t l r, getActiveTab s = .ok t ∧ s.tabs = l ++ t :: r ∧ t.id = s.activeTabId := by
  rw [getActiveTab]
  cases hfind : findTab s s.activeTabId with
  | none => exact absurd h.active_mem (findTab_eq_none.mp hfind)
  | some t =>
    obtain ⟨hid, l, r, htabs⟩ := findTab_eq_some hfind
    exact ⟨t, l, r, rfl, htabs, hid⟩

/-! ## Updating a Tab -/

/-- **Updating a Tab.** The Tab is reconciled in place; the others are as they were. -/
theorem updateTab_post {s : WorkbenchSnapshot} (h : SnapshotOk allowed used s)
    (hsub : used ⊆ used') {l r : List WorkbenchTab} {t t₁ : WorkbenchTab}
    (htabs : s.tabs = l ++ t :: r) (hpre : TabPre used' t₁) (hid : t₁.id = t.id)
    (hes : EntriesOk allowed used' (t₁.panes.entries ++ entriesOf (l ++ r))) :
    Supply.Post used' (updateTab s t₁) fun s' used'' ↦ SnapshotOk allowed used'' s' ∧
      s'.activeTabId = s.activeTabId ∧
      ∃ t₂, s'.tabs = l ++ t₂ :: r ∧ SameContent t₁ t₂ := by
  rw [updateTab]
  refine (reconcileTab_post hpre).bind fun t₂ used₂ hsub₂ ⟨hok, hsame⟩ ↦ Supply.Post.pure ?_
  have htabsOk : TabsOk allowed used (l ++ t :: r) := htabs ▸ h.tabs_ok
  have hid₂ : t₂.id = t.id := hsame.id_eq.trans hid
  have hreplace : replaceTab s.tabs t₂.id t₂ = l ++ t₂ :: r := by
    rw [htabs, hid₂]
    exact replaceTab_middle (tabsOk_middle.mp htabsOk).2.2.2.1 t₂
  have hnew : TabsOk allowed used₂ (l ++ t₂ :: r) :=
    htabsOk.replace (hsub.trans hsub₂) hok hid₂ (by rw [hsame.panes_eq]; exact hes.mono hsub₂)
  refine ⟨⟨?_, ?_⟩, rfl, t₂, hreplace, hsame⟩
  · change TabsOk allowed used₂ (replaceTab s.tabs t₂.id t₂)
    rwa [hreplace]
  · change s.activeTabId ∈ (replaceTab s.tabs t₂.id t₂).map _
    rw [hreplace, map_id_middle hid₂, ← htabs]
    exact h.active_mem

/-- Updating a Tab without touching its Views leaves the board as it is. -/
theorem updateTab_board {s : WorkbenchSnapshot} (h : SnapshotOk allowed used s)
    (hsub : used ⊆ used') {l r : List WorkbenchTab} {t t₁ : WorkbenchTab}
    (htabs : s.tabs = l ++ t :: r) (hpre : TabPre used' t₁) (hid : t₁.id = t.id)
    (hpanes : t₁.panes = t.panes) :
    Supply.Post used' (updateTab s t₁) fun s' used'' ↦ SnapshotOk allowed used'' s' ∧
      board s'.tabs = board s.tabs := by
  have hes := (tabsOk_middle.mp (htabs ▸ h.tabs_ok)).2.2.2.2
  refine (updateTab_post h hsub htabs hpre hid (by rw [hpanes]; exact hes.mono hsub)).mono
    fun s' used₂ _ ⟨hok, _, t₂, htabs', hsame⟩ ↦ ⟨hok, ?_⟩
  rw [htabs', htabs, board_middle, board_middle, hsame.tabBoard_eq,
    tabBoard_congr hid (by rw [hpanes])]

/-! ## Tabs that stay in place -/

/-- A Tab after a command that may only have changed it if its id is among `touched`. -/
structure SameUnless (touched : List String) (t t' : WorkbenchTab) : Prop where
  id_eq : t'.id = t.id
  eq_of_not_mem : t.id ∉ touched → t' = t

/-- The Tabs after a command that changed only some of them, in place. -/
abbrev TabsMatch (touched : List String) (ts ts' : List WorkbenchTab) : Prop :=
  List.Forall₂ (SameUnless touched) ts ts'

variable {touched touched' : List String} {ts ts' ts'' : List WorkbenchTab}

theorem SameUnless.refl (touched : List String) (t : WorkbenchTab) : SameUnless touched t t :=
  ⟨rfl, fun _ ↦ rfl⟩

theorem TabsMatch.refl (touched : List String) (ts : List WorkbenchTab) :
    TabsMatch touched ts ts := List.forall₂_same.mpr fun t _ ↦ SameUnless.refl touched t

theorem TabsMatch.mono (h : TabsMatch touched ts ts') (hsub : touched ⊆ touched') :
    TabsMatch touched' ts ts' :=
  h.imp fun _ _ ht ↦ ⟨ht.id_eq, fun hmem ↦ ht.eq_of_not_mem fun h ↦ hmem (hsub h)⟩

theorem TabsMatch.trans (h : TabsMatch touched ts ts') (h' : TabsMatch touched ts' ts'') :
    TabsMatch touched ts ts'' := by
  induction h generalizing ts'' with
  | nil => exact h'
  | cons ht _ ih =>
    cases h' with
    | cons ht' h' =>
      refine .cons ⟨ht'.id_eq.trans ht.id_eq, fun hmem ↦ ?_⟩ (ih h')
      rw [ht'.eq_of_not_mem (ht.id_eq ▸ hmem), ht.eq_of_not_mem hmem]

theorem tabsMatch_middle (l r : List WorkbenchTab) {t t' : WorkbenchTab} (hid : t'.id = t.id) :
    TabsMatch [t.id] (l ++ t :: r) (l ++ t' :: r) :=
  List.rel_append (TabsMatch.refl _ l)
    (.cons ⟨hid, fun hmem ↦ absurd (List.mem_singleton_self _) hmem⟩ (TabsMatch.refl _ r))

theorem TabsMatch.mem (h : TabsMatch touched ts ts') {t : WorkbenchTab} (ht : t ∈ ts)
    (hid : t.id ∉ touched) : t ∈ ts' := by
  induction h with
  | nil => cases ht
  | cons hab _ ih =>
    rcases List.mem_cons.mp ht with rfl | ht
    · rw [hab.eq_of_not_mem hid]
      exact List.mem_cons_self
    · exact List.mem_cons_of_mem _ (ih ht)

theorem tabsMatch_map {f : WorkbenchTab → WorkbenchTab}
    (hf : ∀ t ∈ ts, SameUnless touched t (f t)) : TabsMatch touched ts (ts.map f) := by
  induction ts with
  | nil => exact .nil
  | cons t ts ih =>
    exact .cons (hf t List.mem_cons_self) (ih fun u hu ↦ hf u (List.mem_cons_of_mem t hu))

/-- Two Tabs of a workbench, in front of the others. -/
theorem exists_perm_cons_cons {s t : WorkbenchTab} (hs : s ∈ ts) (ht : t ∈ ts) (hne : s.id ≠ t.id) :
    ∃ others, ts.Perm (s :: t :: others) := by
  obtain ⟨l, r, rfl⟩ := List.append_of_mem hs
  have ht' : t ∈ l ++ r := by
    rcases List.mem_append.mp ht with hl | hr
    · exact List.mem_append_left r hl
    · rcases List.mem_cons.mp hr with rfl | hr
      · exact absurd rfl hne
      · exact List.mem_append_right l hr
  obtain ⟨l', r', hlr⟩ := List.append_of_mem ht'
  refine ⟨l' ++ r', List.perm_middle.trans (List.Perm.cons s ?_)⟩
  rw [hlr]
  exact List.perm_middle

end Awen.Workbench
