import Awen.Workbench.Run
import Awen.Workbench.ScrollingLayout

/-!
# What a Tab satisfies between commands

`TabOk` is the invariant of one Tab: its layout is well formed, its leaves are the keys of its Pane
map, one of them has the focus, and in scrolling mode the columns partition the Panes and determine
the layout. `TabPre` is the weaker condition the commands establish before `reconcileTab`, which in
scrolling mode derives columns and layout afresh: there it asks nothing of them but that the columns
are valid on their own.
-/

namespace Awen.Workbench

open LayoutNode

/-! ## Entries -/

/-- The Panes of a Tab with their View instances. -/
abbrev Entry := String × ViewInstance

/-- Pane ids and View ids are distinct and in use, and every View shows an allowed target under the
definition for it. -/
structure EntriesOk (allowed : ViewTarget → Prop) (used : Set String) (entries : List Entry) :
    Prop where
  nodup_paneIds : (entries.map Prod.fst).Nodup
  nodup_viewIds : (entries.map fun e ↦ e.2.id).Nodup
  paneIds_used : ∀ e ∈ entries, e.1 ∈ used
  viewIds_used : ∀ e ∈ entries, e.2.id ∈ used
  allowed : ∀ e ∈ entries, allowed e.2.target
  definitionId : ∀ e ∈ entries, e.2.definitionId = definitionIdForTarget e.2.target

variable {allowed : ViewTarget → Prop} {used used' : Set String}

theorem entriesOk_nil : EntriesOk allowed used [] :=
  ⟨List.nodup_nil, List.nodup_nil, by simp, by simp, by simp, by simp⟩

theorem EntriesOk.mono {es : List Entry} (h : EntriesOk allowed used es) (hsub : used ⊆ used') :
    EntriesOk allowed used' es :=
  { h with
    paneIds_used := fun e he ↦ hsub (h.paneIds_used e he)
    viewIds_used := fun e he ↦ hsub (h.viewIds_used e he) }

theorem EntriesOk.perm {es es' : List Entry} (h : EntriesOk allowed used es)
    (hp : es'.Perm es) : EntriesOk allowed used es' where
  nodup_paneIds := (hp.map Prod.fst).nodup_iff.mpr h.nodup_paneIds
  nodup_viewIds := (hp.map fun e ↦ e.2.id).nodup_iff.mpr h.nodup_viewIds
  paneIds_used := fun e he ↦ h.paneIds_used e (hp.mem_iff.mp he)
  viewIds_used := fun e he ↦ h.viewIds_used e (hp.mem_iff.mp he)
  allowed := fun e he ↦ h.allowed e (hp.mem_iff.mp he)
  definitionId := fun e he ↦ h.definitionId e (hp.mem_iff.mp he)

theorem EntriesOk.sublist {es es' : List Entry} (h : EntriesOk allowed used es)
    (hs : es'.Sublist es) : EntriesOk allowed used es' where
  nodup_paneIds := h.nodup_paneIds.sublist (hs.map Prod.fst)
  nodup_viewIds := h.nodup_viewIds.sublist (hs.map fun e ↦ e.2.id)
  paneIds_used := fun e he ↦ h.paneIds_used e (hs.subset he)
  viewIds_used := fun e he ↦ h.viewIds_used e (hs.subset he)
  allowed := fun e he ↦ h.allowed e (hs.subset he)
  definitionId := fun e he ↦ h.definitionId e (hs.subset he)

theorem entriesOk_cons {e : Entry} {es : List Entry} : EntriesOk allowed used (e :: es) ↔
    EntriesOk allowed used es ∧ e.1 ∉ es.map Prod.fst ∧ (e.2.id ∉ es.map fun e ↦ e.2.id) ∧
      e.1 ∈ used ∧ e.2.id ∈ used ∧ allowed e.2.target ∧
      e.2.definitionId = definitionIdForTarget e.2.target := by
  constructor
  · intro h
    have hp := List.nodup_cons.mp h.nodup_paneIds
    have hv := List.nodup_cons.mp h.nodup_viewIds
    exact ⟨h.sublist (List.sublist_cons_self e es), hp.1, hv.1,
      h.paneIds_used e List.mem_cons_self, h.viewIds_used e List.mem_cons_self,
      h.allowed e List.mem_cons_self, h.definitionId e List.mem_cons_self⟩
  · rintro ⟨h, hp, hv, hpu, hvu, ha, hd⟩
    exact {
      nodup_paneIds := List.nodup_cons.mpr ⟨hp, h.nodup_paneIds⟩
      nodup_viewIds := List.nodup_cons.mpr ⟨hv, h.nodup_viewIds⟩
      paneIds_used := List.forall_mem_cons.mpr ⟨hpu, h.paneIds_used⟩
      viewIds_used := List.forall_mem_cons.mpr ⟨hvu, h.viewIds_used⟩
      allowed := List.forall_mem_cons.mpr ⟨ha, h.allowed⟩
      definitionId := List.forall_mem_cons.mpr ⟨hd, h.definitionId⟩ }

/-- A View under a fresh id, in a Pane that is not in use or was given up. -/
theorem EntriesOk.cons_fresh {e : Entry} {es : List Entry} (h : EntriesOk allowed used es)
    (hsub : used ⊆ used') (hp : e.1 ∉ es.map Prod.fst) (hpu : e.1 ∈ used') (hv : e.2.id ∉ used)
    (hvu : e.2.id ∈ used') (ha : allowed e.2.target)
    (hd : e.2.definitionId = definitionIdForTarget e.2.target) :
    EntriesOk allowed used' (e :: es) := by
  refine entriesOk_cons.mpr ⟨h.mono hsub, hp, fun hmem ↦ ?_, hpu, hvu, ha, hd⟩
  obtain ⟨e', he', heq⟩ := List.mem_map.mp hmem
  exact hv (heq ▸ h.viewIds_used e' he')

/-- A Tab's entries after an operation that had to leave `es`: these, or one fresh Welcome when
nothing was left. -/
inductive Refilled (used used' : Set String) (es : List Entry) : List Entry → Prop
  | keep : Refilled used used' es es
  | welcome (paneId : String) (view : ViewInstance) (nil : es = []) (pane_fresh : paneId ∉ used)
      (pane_used : paneId ∈ used') (view_fresh : view.id ∉ used) (view_used : view.id ∈ used')
      (target_eq : view.target = welcomeTarget)
      (definitionId : view.definitionId = definitionIdForTarget view.target) :
      Refilled used used' es [(paneId, view)]

theorem Refilled.entriesOk {es es' rest : List Entry} (h : Refilled used used' es es')
    (hwelcome : allowed welcomeTarget) (hsub : used ⊆ used')
    (hok : EntriesOk allowed used (es ++ rest)) : EntriesOk allowed used' (es' ++ rest) := by
  cases h with
  | keep => exact hok.mono hsub
  | welcome paneId view nil pane_fresh pane_used view_fresh view_used target_eq definitionId =>
    subst nil
    refine hok.cons_fresh hsub (fun hmem ↦ ?_) pane_used view_fresh view_used ?_ definitionId
    · obtain ⟨e, he, heq⟩ := List.mem_map.mp hmem
      have hpane : e.1 = paneId := heq
      exact pane_fresh (hpane ▸ hok.paneIds_used e he)
    · rw [target_eq]
      exact hwelcome

theorem Refilled.mono_used {used₀ : Set String} {es es' : List Entry}
    (h : Refilled used₀ used es es') (hsub : used ⊆ used') : Refilled used₀ used' es es' := by
  cases h with
  | keep => exact .keep
  | welcome p v nil hp hpu hv hvu ht hd => exact .welcome p v nil hp (hsub hpu) hv (hsub hvu) ht hd

theorem Refilled.mono_from {used₀ : Set String} {es es' : List Entry}
    (h : Refilled used used' es es') (hsub : used₀ ⊆ used) : Refilled used₀ used' es es' := by
  cases h with
  | keep => exact .keep
  | welcome p v nil hp hpu hv hvu ht hd =>
    exact .welcome p v nil (fun h ↦ hp (hsub h)) hpu (fun h ↦ hv (hsub h)) hvu ht hd

/-! ## The invariant of a Tab -/

/-- What the operations on a Tab establish before it is reconciled. -/
structure TabPre (used : Set String) (t : WorkbenchTab) : Prop where
  focus_mem : t.focusedPaneId ∈ t.panes.keys
  bsp : t.layoutMode ≠ some .scrolling →
    WellFormed t.layout ∧ (leafIds t.layout).Perm t.panes.keys
  columns_ok : t.layoutMode = some .scrolling → ColumnsOk used (t.columns.getD [])
  memory_bsp : ∀ m, t.layoutMemory = some m → TreeOk m.bsp
  memory_columns : ∀ m, t.layoutMemory = some m → ColumnsOk used (m.columns.getD [])
  title : t.titleMode = .manual → ∃ o, t.titleOverride = some o ∧ trim o ≠ ""

/-- In scrolling mode the columns partition the Panes and determine the layout. -/
def Derived (used : Set String) (t : WorkbenchTab) : Prop :=
  ∃ columns, t.columns = some columns ∧ ColumnsOk used columns ∧
    (columnPanes columns).Perm t.panes.keys ∧ t.layout = columnsTree columns

/-- The invariant of a Tab. -/
structure TabOk (used : Set String) (t : WorkbenchTab) : Prop extends TabPre used t where
  layout_wf : WellFormed t.layout
  leaves : (leafIds t.layout).Perm t.panes.keys
  derived : t.layoutMode = some .scrolling → Derived used t

theorem TabPre.mono {t : WorkbenchTab} (h : TabPre used t) (hsub : used ⊆ used') :
    TabPre used' t :=
  { h with
    columns_ok := fun hmode ↦ (h.columns_ok hmode).mono hsub
    memory_columns := fun m hm ↦ (h.memory_columns m hm).mono hsub }

theorem TabOk.mono {t : WorkbenchTab} (h : TabOk used t) (hsub : used ⊆ used') :
    TabOk used' t :=
  { h with
    toTabPre := h.toTabPre.mono hsub
    derived := fun hmode ↦
      let ⟨columns, hcolumns, hok, hrest⟩ := h.derived hmode
      ⟨columns, hcolumns, hok.mono hsub, hrest⟩ }

theorem TabOk.nodup_leaves {t : WorkbenchTab} (h : TabOk used t) : (leafIds t.layout).Nodup :=
  h.leaves.nodup_iff.mpr t.panes.nodup

theorem TabOk.focus_leaf {t : WorkbenchTab} (h : TabOk used t) :
    t.focusedPaneId ∈ leafIds t.layout := h.leaves.mem_iff.mpr h.focus_mem

/-- What reconciling leaves as it is. -/
structure SameContent (t t' : WorkbenchTab) : Prop where
  id_eq : t'.id = t.id
  panes_eq : t'.panes = t.panes
  focus_eq : t'.focusedPaneId = t.focusedPaneId
  mode_eq : t'.layoutMode = t.layoutMode

theorem reconcile_ids (keys shown : List String) :
    ∀ x, x ∈ keys.foldl (fun ids id ↦ if id ∈ ids then ids else ids ++ [id]) shown
      ↔ x ∈ shown ∨ x ∈ keys := by
  induction keys generalizing shown with
  | nil => simp
  | cons k keys ih =>
    intro x
    rw [List.foldl_cons, ih]
    split
    · rename_i hk
      rw [List.mem_cons]
      exact ⟨fun h ↦ h.imp_right Or.inr, fun h ↦ h.elim Or.inl fun h ↦
        h.elim (fun h ↦ Or.inl (h ▸ hk)) Or.inr⟩
    · rw [List.mem_append, List.mem_singleton, List.mem_cons, or_assoc]

/-- **Reconciling a Tab** turns `TabPre` into `TabOk` and keeps its content. -/
theorem reconcileTab_post {t : WorkbenchTab} (h : TabPre used t) :
    Supply.Post used (reconcileTab t) fun t' used' ↦ TabOk used' t' ∧ SameContent t t' := by
  rw [reconcileTab]
  by_cases hmode : t.layoutMode = some .scrolling
  · rw [if_neg (not_not_intro hmode)]
    refine (reconcileColumns_post (h.columns_ok hmode) _).bind
      fun columns used' hsub ⟨hok, hperm⟩ ↦ Supply.Post.pure ⟨?_, ⟨rfl, rfl, rfl, rfl⟩⟩
    have hkeys : (columnPanes columns).Perm t.panes.keys := by
      refine hperm.trans ((List.perm_ext_iff_of_nodup (nodup_eraseDups _) t.panes.nodup).mpr
        fun x ↦ ?_)
      rw [List.mem_eraseDups, reconcile_ids, List.mem_filter, OrderedMap.has_eq_true]
      exact or_iff_right_of_imp And.right
    have hne : columns ≠ [] := by
      rintro rfl
      exact List.not_mem_nil (hkeys.mem_iff.mpr h.focus_mem)
    have hwf : WellFormed (columnsTree columns) := wellFormed_columnsTree hok.valid hne
    have hleaves : (leafIds (columnsTree columns)).Perm t.panes.keys := by
      rwa [leafIds_columnsTree]
    exact {
      focus_mem := h.focus_mem
      bsp := fun _ ↦ ⟨hwf, hleaves⟩
      columns_ok := fun _ ↦ hok
      memory_bsp := h.memory_bsp
      memory_columns := fun m hm ↦ (h.memory_columns m hm).mono hsub
      title := h.title
      layout_wf := hwf
      leaves := hleaves
      derived := fun _ ↦ ⟨columns, rfl, hok, hkeys, rfl⟩ }
  · rw [if_pos hmode]
    exact Supply.Post.pure ⟨{ h with
      layout_wf := (h.bsp hmode).1
      leaves := (h.bsp hmode).2
      derived := fun hs ↦ absurd hs hmode }, ⟨rfl, rfl, rfl, rfl⟩⟩

/-! ## New Views and Welcome Tabs -/

theorem generateId_post : Supply.Post used generateId fun id used' ↦
    id ∉ used ∧ used' = insert id used :=
  Supply.Post.fresh fun _ hid ↦ ⟨hid, rfl⟩

/-- A fresh View of a target. -/
structure FreshView (used used' : Set String) (target : ViewTarget) (view : ViewInstance) :
    Prop where
  fresh : view.id ∉ used
  used_mem : view.id ∈ used'
  target_eq : view.target = target
  definitionId : view.definitionId = definitionIdForTarget view.target

theorem viewInstance_post (target : ViewTarget) :
    Supply.Post used (viewInstance target) fun view used' ↦ FreshView used used' target view :=
  generateId_post.bind fun id _ _ ⟨hid, hused⟩ ↦
    Supply.Post.pure ⟨hid, hused ▸ Set.mem_insert id _, rfl, rfl⟩

/-- A Tab that shows one View in one Pane and remembers nothing. -/
structure SingleTab (t : WorkbenchTab) (paneId : String) (view : ViewInstance) : Prop where
  layout_eq : t.layout = .leaf paneId
  focus_eq : t.focusedPaneId = paneId
  panes_eq : t.panes = .singleton paneId view
  mode_eq : t.layoutMode = none
  columns_eq : t.columns = none
  memory_eq : t.layoutMemory = none
  title_eq : t.titleMode = .auto

theorem SingleTab.tabOk {t : WorkbenchTab} {paneId : String} {view : ViewInstance}
    (h : SingleTab t paneId view) : TabOk used t := by
  have hwf : WellFormed t.layout := h.layout_eq ▸ .leaf paneId
  have hleaves : (leafIds t.layout).Perm t.panes.keys := by
    rw [h.layout_eq, h.panes_eq]
    rfl
  exact {
    focus_mem := by rw [h.focus_eq, h.panes_eq]; exact List.mem_singleton_self paneId
    bsp := fun _ ↦ ⟨hwf, hleaves⟩
    columns_ok := fun hmode ↦ by rw [h.mode_eq] at hmode; cases hmode
    memory_bsp := fun m hm ↦ by rw [h.memory_eq] at hm; cases hm
    memory_columns := fun m hm ↦ by rw [h.memory_eq] at hm; cases hm
    title := fun hmanual ↦ by rw [h.title_eq] at hmanual; cases hmanual
    layout_wf := hwf
    leaves := hleaves
    derived := fun hmode ↦ by rw [h.mode_eq] at hmode; cases hmode }

/-- A Welcome Tab has a fresh id and shows a fresh Welcome. -/
theorem welcomeTab_post : Supply.Post used welcomeTab fun t used' ↦
    (∃ paneId view, SingleTab t paneId view) ∧ t.id ∉ used ∧ t.id ∈ used' ∧
      Refilled used used' [] t.panes.entries := by
  rw [welcomeTab]
  refine generateId_post.bind fun paneId used₁ hsub₁ ⟨hpane, hused₁⟩ ↦ ?_
  refine Supply.Post.bind (P := fun tab used₂ ↦ tab.layout = .leaf paneId ∧
    tab.focusedPaneId = paneId ∧ tab.id ∉ used₁ ∧ used₂ = insert tab.id used₁) ?_
    fun tab used₂ hsub₂ ⟨hlayout, hfocus, htab, hused₂⟩ ↦ ?_
  · rw [newTab]
    exact generateId_post.bind fun id used₂ _ ⟨hid, hused₂⟩ ↦
      Supply.Post.pure ⟨rfl, rfl, hid, hused₂⟩
  refine (viewInstance_post welcomeTarget).bind fun view used₃ hsub₃ hview ↦
    Supply.Post.pure ⟨⟨paneId, view, hlayout, hfocus, rfl, rfl, rfl, rfl, rfl⟩,
      fun hmem ↦ htab (hsub₁ hmem), hsub₃ (hused₂ ▸ Set.mem_insert _ _), ?_⟩
  exact .welcome paneId view rfl hpane (hsub₃ (hsub₂ (hused₁ ▸ Set.mem_insert _ _)))
    (fun hmem ↦ hview.fresh (hsub₂ (hsub₁ hmem))) hview.used_mem hview.target_eq
    hview.definitionId

/-- A cleared Tab keeps its id and shows a fresh Welcome. -/
theorem clearedTab_post {t : WorkbenchTab} (h : TabPre used t) :
    Supply.Post used (clearedTab t) fun t' used' ↦
      TabOk used' t' ∧ t'.id = t.id ∧ Refilled used used' [] t'.panes.entries := by
  rw [clearedTab]
  refine welcomeTab_post.bind fun w used₁ hsub₁ ⟨⟨paneId, view, hw⟩, _, _, hentries⟩ ↦ ?_
  have hok : TabOk used₁ w := hw.tabOk
  have hpre : TabPre used₁ { w with
      id := t.id
      titleMode := t.titleMode
      titleOverride := t.titleOverride
      layoutMode := some (t.layoutMode.getD .bsp) } :=
    { hok.toTabPre with
      bsp := fun _ ↦ ⟨hok.layout_wf, hok.leaves⟩
      columns_ok := fun _ ↦ by
        rw [hw.columns_eq]
        exact columnsOk_nil used₁
      title := h.title }
  refine (reconcileTab_post hpre).mono fun t' used₂ hsub₂ ⟨hok', hsame⟩ ↦
    ⟨hok', hsame.id_eq, ?_⟩
  rw [hsame.panes_eq]
  exact hentries.mono_used hsub₂

/-! ## Taking a View out -/

/-- Closing a Pane of a Tab either takes its last entry, or leaves a Tab to reconcile. -/
theorem closeLeaf_tab {t : WorkbenchTab} (h : TabOk used t) (paneId : String) :
    (closeLeaf t.toAwenTab paneId = .ok none ∧ (t.panes.delete paneId).entries = []) ∨
    ∃ next, closeLeaf t.toAwenTab paneId = .ok (some next) ∧ next.id = t.id ∧
      TabPre used { t with toAwenTab := next, panes := t.panes.delete paneId } := by
  rcases closeLeaf_spec paneId h.layout_wf.hasLeaves h.nodup_leaves h.focus_leaf with
    ⟨hclose, hall⟩ | ⟨next, hclose, hid, -, hwf, hleaves, hfocus⟩
  · refine Or.inl ⟨hclose, ?_⟩
    rw [← List.map_eq_nil_iff (f := Prod.fst)]
    refine List.eq_nil_iff_forall_not_mem.mpr fun k hk ↦ ?_
    obtain ⟨hk, hne⟩ := OrderedMap.mem_keys_delete.mp hk
    exact hne (hall k (h.leaves.mem_iff.mpr hk))
  · have hkeys : (leafIds next.layout).Perm (t.panes.delete paneId).keys := by
      rw [hleaves, OrderedMap.keys_delete]
      exact h.leaves.filter _
    exact Or.inr ⟨next, hclose, hid, { h.toTabPre with
      focus_mem := hkeys.mem_iff.mp hfocus
      bsp := fun _ ↦ ⟨hwf h.layout_wf, hkeys⟩ }⟩

/-- Closing a Pane keeps the Tab's other entries; a Tab without any gets a Welcome. -/
theorem closePaneInTab_post {t : WorkbenchTab} (h : TabOk used t) (paneId : String) :
    Supply.Post used (closePaneInTab t paneId) fun t' used' ↦ TabOk used' t' ∧ t'.id = t.id ∧
      Refilled used used' (t.panes.delete paneId).entries t'.panes.entries := by
  rw [closePaneInTab]
  rcases closeLeaf_tab h paneId with ⟨hclose, hnil⟩ | ⟨next, hclose, hid, hpre⟩
  · refine (Supply.Post.ofExcept hclose (Q := fun r _ ↦ r = none) rfl).bind
      fun r used₁ hsub hr ↦ ?_
    subst hr
    refine (clearedTab_post (h.toTabPre.mono hsub)).mono
      fun t' used₂ _ ⟨hok, hid, hentries⟩ ↦ ⟨hok, hid, ?_⟩
    rw [hnil]
    exact hentries.mono_from hsub
  · refine (Supply.Post.ofExcept hclose (Q := fun r _ ↦ r = some next) rfl).bind
      fun r used₁ hsub hr ↦ ?_
    subst hr
    refine (reconcileTab_post (hpre.mono hsub)).mono fun t' used₂ _ ⟨hok, hsame⟩ ↦
      ⟨hok, hsame.id_eq.trans hid, ?_⟩
    rw [hsame.panes_eq]
    exact .keep

theorem removeViewFromTab_eq {t : WorkbenchTab} {paneId : String} (hmem : paneId ∈ t.panes.keys) :
    removeViewFromTab t paneId = some <$> closePaneInTab t paneId := by
  rw [removeViewFromTab, if_pos (OrderedMap.has_eq_true.mpr hmem)]

/-! ## Putting a View in -/

/-- A layout with a Pane placed in it fits any Pane map over the resulting ids. -/
theorem placedLayout_post {t : WorkbenchTab} (h : TabOk used t) {paneId targetId : String}
    (hto : targetId ∈ t.panes.keys) (hne : paneId ≠ targetId)
    (hnew : t.layoutMode ≠ some .scrolling → paneId ∉ t.panes.keys) (zone : PaneDropZone) :
    Supply.Post used (placedLayout t paneId targetId zone) fun placed used' ↦
      ∀ panes : OrderedMap String ViewInstance,
        panes.keys.Perm (placedPanes t.panes.keys paneId targetId zone) →
        TabPre used' { t.withPlaced placed with panes, focusedPaneId := paneId } := by
  have hfocus : ∀ panes : OrderedMap String ViewInstance,
      panes.keys.Perm (placedPanes t.panes.keys paneId targetId zone) → paneId ∈ panes.keys := by
    intro panes hperm
    refine hperm.mem_iff.mpr ?_
    cases zone <;> exact List.mem_cons_self
  rw [placedLayout.eq_def]
  by_cases hmode : t.layoutMode = some .scrolling
  · obtain ⟨columns, hcolumns, hok, hkeys, -⟩ := h.derived hmode
    rw [if_neg (not_not_intro hmode), hcolumns, Option.getD_some]
    refine (placeInColumns_post hok (hkeys.nodup_iff.mpr t.panes.nodup) hne
      (hkeys.mem_iff.mpr hto) zone).bind fun result used₁ hsub ⟨hok', _⟩ ↦
      Supply.Post.pure fun panes hperm ↦ ?_
    exact { h.toTabPre.mono hsub with
      focus_mem := hfocus panes hperm
      bsp := fun hbsp ↦ absurd hmode hbsp
      columns_ok := fun _ ↦ hok' }
  · have hpane := hnew hmode
    have hleaf : paneId ∉ leafIds t.layout := fun hmem ↦ hpane (h.leaves.mem_iff.mp hmem)
    have hfilter : t.panes.keys.filter (· ≠ paneId) = t.panes.keys := filter_ne_eq_self hpane
    have hpre : ∀ {used₁ : Set String} (layout : LayoutNode), used ⊆ used₁ → WellFormed layout →
        (leafIds layout).Perm (placedPanes t.panes.keys paneId targetId zone) →
        ∀ panes : OrderedMap String ViewInstance,
          panes.keys.Perm (placedPanes t.panes.keys paneId targetId zone) →
          TabPre used₁ { t.withPlaced { layout } with panes, focusedPaneId := paneId } :=
      fun layout hsub hwf hleaves panes hperm ↦ { h.toTabPre.mono hsub with
        focus_mem := hfocus panes hperm
        bsp := fun _ ↦ ⟨hwf, hleaves.trans hperm.symm⟩
        columns_ok := fun hs ↦ absurd hs hmode }
    rw [if_pos hmode]
    cases zone with
    | replace =>
      refine Supply.Post.pure (hpre _ Set.Subset.rfl (wellFormed_replaceLeafId h.layout_wf _ _) ?_)
      rw [leafIds_replaceLeafId, placedPanes, hfilter]
      exact (map_replace_perm h.nodup_leaves (h.leaves.mem_iff.mpr hto)).trans
        ((h.leaves.filter _).cons paneId)
    | edge edge =>
      refine (placePane_post h.layout_wf h.nodup_leaves hleaf (h.leaves.mem_iff.mpr hto)
        edge).bind fun layout used₁ hsub ⟨hwf, hperm⟩ ↦ Supply.Post.pure (hpre _ hsub hwf ?_)
      rw [placedPanes, hfilter]
      exact hperm.trans (h.leaves.cons paneId)

/-- A View that may join the entries: its id is in use, but not among theirs. -/
structure ViewFits (allowed : ViewTarget → Prop) (used : Set String) (es : List Entry)
    (view : ViewInstance) : Prop where
  not_mem : view.id ∉ es.map fun e ↦ e.2.id
  used_mem : view.id ∈ used
  allowed : allowed view.target
  definitionId : view.definitionId = definitionIdForTarget view.target

theorem FreshView.fits {target : ViewTarget} {view : ViewInstance} {es : List Entry}
    (h : FreshView used used' target view) (hes : EntriesOk allowed used es)
    (hallowed : allowed target) : ViewFits allowed used' es view where
  not_mem := fun hmem ↦ by
    obtain ⟨e, he, heq⟩ := List.mem_map.mp hmem
    exact h.fresh (heq ▸ hes.viewIds_used e he)
  used_mem := h.used_mem
  allowed := by rw [h.target_eq]; exact hallowed
  definitionId := h.definitionId

theorem ViewFits.mono {es : List Entry} {view : ViewInstance} (h : ViewFits allowed used es view)
    (hsub : used ⊆ used') : ViewFits allowed used' es view :=
  { h with used_mem := hsub h.used_mem }

theorem ViewFits.cons {es : List Entry} {view : ViewInstance} {paneId : String}
    (h : ViewFits allowed used es view) (hes : EntriesOk allowed used es)
    (hp : paneId ∉ es.map Prod.fst) (hpu : paneId ∈ used) :
    EntriesOk allowed used ((paneId, view) :: es) :=
  entriesOk_cons.mpr ⟨hes, hp, h.not_mem, hpu, h.used_mem, h.allowed, h.definitionId⟩

theorem ViewFits.subset {es es' : List Entry} {view : ViewInstance}
    (h : ViewFits allowed used es view) (hs : es' ⊆ es) : ViewFits allowed used es' view :=
  { h with not_mem := fun hmem ↦ h.not_mem (List.map_subset _ hs hmem) }

/-- What placing a View in a Tab makes of the Tab's entries: the View joins them, after the anchor
Pane was given up or without that. -/
inductive PlacedIn (t : WorkbenchTab) (target : PlaceTarget) (view : ViewInstance)
    (paneId : String) (es : List Entry) : Prop
  | reuse (reuses : reusesAnchorPane t target = true)
      (perm : es.Perm ((paneId, view) :: (t.panes.delete target.anchorPaneId).entries))
  | beside (not_reuses : reusesAnchorPane t target = false)
      (perm : es.Perm ((paneId, view) :: t.panes.entries))

/-- **Placing a View in a Tab.** -/
theorem placeViewInTab_post {t : WorkbenchTab} (h : TabOk used t) {rest : List Entry}
    (hes : EntriesOk allowed used (t.panes.entries ++ rest)) {view : ViewInstance}
    (hview : ViewFits allowed used (t.panes.entries ++ rest) view) (target : PlaceTarget)
    (hanchor : target.anchorPaneId ∈ t.panes.keys)
    (hpane : ∀ p, target.paneId = some p →
      p ∈ used ∧ p ∉ (t.panes.entries ++ rest).map Prod.fst) :
    Supply.Post used (placeViewInTab t view target) fun r used' ↦
      TabPre used' r.1 ∧ r.1.id = t.id ∧ r.1.panes.get r.2 = some view ∧
        r.1.focusedPaneId = r.2 ∧ EntriesOk allowed used' (r.1.panes.entries ++ rest) ∧
        PlacedIn t target view r.2 r.1.panes.entries := by
  have hkeys_sub : ∀ p, p ∈ t.panes.keys → p ∈ (t.panes.entries ++ rest).map Prod.fst := by
    intro p hp
    rw [List.map_append]
    exact List.mem_append_left _ hp
  rw [placeViewInTab]
  by_cases hreuse : reusesAnchorPane t target = true
  · rw [if_pos hreuse]
    generalize hp : target.paneId.getD target.anchorPaneId = paneId
    have hcase : paneId = target.anchorPaneId ∨ paneId ∈ used ∧
        paneId ∉ (t.panes.entries ++ rest).map Prod.fst := by
      cases hsome : target.paneId with
      | none => exact Or.inl (by rw [← hp, hsome, Option.getD_none])
      | some p =>
        rw [hsome, Option.getD_some] at hp
        exact Or.inr (hp ▸ hpane p hsome)
    have hdelete : paneId ∉ (t.panes.delete target.anchorPaneId).keys := by
      rw [OrderedMap.mem_keys_delete, not_and_not_right]
      intro hmem
      exact hcase.resolve_right fun hnew ↦ hnew.2 (hkeys_sub _ hmem)
    have hentries : (((t.panes.delete target.anchorPaneId).set paneId view).entries).Perm
        ((paneId, view) :: (t.panes.delete target.anchorPaneId).entries) := by
      have hset := OrderedMap.entries_set_perm (t.panes.delete target.anchorPaneId) paneId view
      rwa [OrderedMap.delete_of_not_mem hdelete] at hset
    have hsub : (t.panes.delete target.anchorPaneId).entries ++ rest ⊆ t.panes.entries ++ rest :=
      (List.filter_sublist.append_right rest).subset
    refine Supply.Post.pure ⟨{ h.toTabPre with
      focus_mem := OrderedMap.mem_keys_set.mpr (Or.inl rfl)
      bsp := fun _ ↦ ⟨wellFormed_replaceLeafId h.layout_wf _ _, ?_⟩ }, rfl,
      OrderedMap.get_set_self _ _ _, rfl, ?_, .reuse hreuse hentries⟩
    · rw [leafIds_replaceLeafId]
      refine (map_replace_perm h.nodup_leaves (h.leaves.mem_iff.mpr hanchor)).trans ?_
      refine List.Perm.trans ?_ (hentries.map Prod.fst).symm
      refine List.Perm.cons paneId ((h.leaves.filter _).trans (List.Perm.of_eq ?_))
      exact (OrderedMap.keys_delete t.panes target.anchorPaneId).symm
    · refine (ViewFits.cons (hview.subset hsub) (hes.sublist (List.filter_sublist.append_right
        rest)) ?_ ?_).perm (hentries.append_right rest)
      · rcases hcase with heq | hnew
        · rw [List.map_append, List.mem_append, not_or]
          refine ⟨hdelete, fun hmem ↦ ?_⟩
          have hnd := hes.nodup_paneIds
          rw [List.map_append, List.nodup_append] at hnd
          exact hnd.2.2 _ hanchor _ hmem heq.symm
        · exact fun hmem ↦ hnew.2 (List.map_subset _ hsub hmem)
      · rcases hcase with heq | hnew
        · obtain ⟨v, hv⟩ := OrderedMap.mem_keys.mp hanchor
          rw [heq]
          exact hes.paneIds_used _ (List.mem_append_left _ (OrderedMap.get_eq_some.mp hv))
        · exact hnew.1
  · rw [if_neg hreuse]
    have hpick : Supply.Post used (pickPaneId target) fun paneId used' ↦
        paneId ∈ used' ∧ paneId ∉ (t.panes.entries ++ rest).map Prod.fst := by
      rw [pickPaneId]
      cases hsome : target.paneId with
      | some p => exact Supply.Post.pure (hpane p hsome)
      | none =>
        refine generateId_post.mono fun id used₁ _ ⟨hid, hused⟩ ↦
          ⟨hused ▸ Set.mem_insert id _, fun hmem ↦ hid ?_⟩
        obtain ⟨e, he, heq⟩ := List.mem_map.mp hmem
        exact heq ▸ hes.paneIds_used e he
    refine hpick.bind fun paneId used₁ hsub₁ ⟨hpu, hp⟩ ↦ ?_
    have hnew : paneId ∉ t.panes.keys := fun hmem ↦ hp (hkeys_sub _ hmem)
    have hne : paneId ≠ target.anchorPaneId := fun heq ↦ hnew (heq ▸ hanchor)
    have hentries : (t.panes.set paneId view).entries.Perm ((paneId, view) :: t.panes.entries) := by
      have hset := OrderedMap.entries_set_perm t.panes paneId view
      rwa [OrderedMap.delete_of_not_mem hnew] at hset
    -- a View that does not reuse its anchor was dropped on an edge
    obtain ⟨edge, hedge⟩ : ∃ edge, target.zone = .edge edge := by
      cases hzone : target.zone with
      | edge edge => exact ⟨edge, rfl⟩
      | replace =>
        refine absurd ?_ hreuse
        rw [reusesAnchorPane]
        split
        · rfl
        · simp [hzone]
    refine (placedLayout_post (h.mono hsub₁) hanchor hne (fun _ ↦ hnew) target.zone).bind
      fun placed used₂ hsub₂ hplaced ↦ Supply.Post.pure ⟨hplaced _ ?_, rfl,
        OrderedMap.get_set_self _ _ _, rfl, ?_, .beside (by simpa using hreuse) hentries⟩
    · rw [hedge, placedPanes, filter_ne_eq_self hnew]
      exact hentries.map Prod.fst
    · exact (((hview.mono hsub₁).cons (hes.mono hsub₁) hp hpu).mono hsub₂).perm
        (hentries.append_right rest)

end Awen.Workbench
