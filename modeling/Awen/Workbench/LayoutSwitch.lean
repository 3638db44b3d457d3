import Awen.Workbench.WelcomeRuns

/-!
# Switching the layout mode

A Tab remembers the layout of the mode it leaves. When it comes back to that mode the remembered
layout is reconciled with the Panes the Tab has by then: what it still shows keeps its order, and
nothing is touched when it shows exactly the current Panes. What is remembered survives every
command that does not empty the Tab, so this is about whole runs between two switches
(`setLayoutMode_restores`).
-/

namespace Awen.Workbench

open LayoutNode Supply

variable {allowed : ViewTarget → Prop} {used used' : Set String} {s : WorkbenchSnapshot}

/-! ## The order of the leaves -/

mutual
theorem wrapBeside_sublist (targetId : String) (incoming : LayoutNode) (dir : SplitDir)
    (place : PanePlace) : ∀ (node : LayoutNode) (used : Set String),
      Ensures used (wrapBeside targetId incoming dir place node) fun m _ ↦
        (leafIds node).Sublist (leafIds m)
  | .leaf id, used => by
    rw [wrapBeside]
    split
    · exact Ensures.pure (List.Sublist.refl _)
    · refine Draws.fresh.then fun splitId _ _ ↦ Ensures.pure ?_
      cases place <;> simp
  | .split id dir' children sizes, used => by
    rw [wrapBeside]
    refine (wrapBesideAll_sublist targetId incoming dir place children used).bind
      fun children' _ _ hsub ↦ Ensures.pure ?_
    rwa [leafIds_split, leafIds_split]

theorem wrapBesideAll_sublist (targetId : String) (incoming : LayoutNode) (dir : SplitDir)
    (place : PanePlace) : ∀ (nodes : List LayoutNode) (used : Set String),
      Ensures used (wrapBesideAll targetId incoming dir place nodes) fun ms _ ↦
        (nodes.flatMap leafIds).Sublist (ms.flatMap leafIds)
  | [], used => by
    rw [wrapBesideAll]
    exact Ensures.pure (List.Sublist.refl _)
  | c :: cs, used => by
    rw [wrapBesideAll]
    refine (wrapBeside_sublist targetId incoming dir place c used).bind fun m used₁ _ hm ↦
      (wrapBesideAll_sublist targetId incoming dir place cs used₁).bind
        fun ms _ _ hms ↦ Ensures.pure ?_
    rw [List.flatMap_cons, List.flatMap_cons]
    exact hm.append hms
end

theorem insertBeside_sublist (targetId : String) (incoming : LayoutNode) (place : PanePlace)
    (n : LayoutNode) : (leafIds n).Sublist (leafIds (insertBeside targetId incoming place n)) := by
  induction n with
  | leaf id => exact List.Sublist.refl _
  | split id dir children sizes ih =>
    rw [insertBeside]
    split
    · rw [leafIds_split, leafIds_split]
      exact (sublist_insertAt _ _ _).flatMap leafIds
    · rw [insertBesideAll_eq_map, leafIds_split, leafIds_split, List.flatMap_map]
      exact List.Sublist.flatMap_right children fun c hc ↦ ih c hc

/-- Placing a new Pane leaves the others in their order. -/
theorem placePane_sublist {n : LayoutNode} {leafId toId : String} (hnew : leafId ∉ leafIds n)
    (edge : PaneEdge) : Ensures used (placePane n leafId toId edge) fun m _ ↦
      (leafIds n).Sublist (leafIds m) := by
  rw [placePane, if_neg hnew, placeLayout]
  split
  · exact Ensures.pure (List.Sublist.refl _)
  split
  · exact Ensures.pure (List.Sublist.refl _)
  dsimp only
  split
  · exact Ensures.pure (insertBeside_sublist _ _ _ n)
  · exact wrapBeside_sublist _ _ _ _ n _

/-! ## Reconciling a remembered tree -/

theorem placeMissingLeaf_sublist (tree : Option LayoutNode) (id : String) :
    Ensures used (placeMissingLeaf tree id) fun tree' _ ↦
      (optionLeaves tree).Sublist (optionLeaves tree') := by
  rw [placeMissingLeaf.eq_def]
  split
  · exact Ensures.pure (List.nil_sublist _)
  split
  · exact Ensures.pure (List.Sublist.refl _)
  rename_i n hnew
  split
  · exact Ensures.pure (List.Sublist.refl _)
  · exact (placePane_sublist hnew .right).map fun m _ _ hm ↦ hm

theorem foldlM_placeMissingLeaf_sublist (ids : List String) (tree : Option LayoutNode) :
    Ensures used (ids.foldlM placeMissingLeaf tree) fun tree' _ ↦
      (optionLeaves tree).Sublist (optionLeaves tree') := by
  induction ids generalizing used tree with
  | nil => exact Ensures.pure (List.Sublist.refl _)
  | cons id ids ih =>
    rw [List.foldlM_cons]
    refine (placeMissingLeaf_sublist tree id).bind fun tree₁ _ _ h₁ ↦ ?_
    exact (ih tree₁).mono fun tree₂ _ _ h₂ ↦ h₁.trans h₂

/-- **A remembered tree** keeps the order of the leaves that are still shown. -/
theorem reconcileBsp_sublist {saved : Option LayoutNode} (h : TreeOk saved) (ids : List String) :
    Ensures used (reconcileBsp saved ids) fun tree _ ↦
      ((optionLeaves saved).filter (· ∈ ids)).Sublist (leafIds tree) := by
  rw [reconcileBsp]
  have hleaves : (saved.map leafIds).getD [] = optionLeaves saved := by cases saved <;> rfl
  rw [hleaves]
  obtain ⟨-, hkept⟩ := foldl_dropStaleLeaves ids (optionLeaves saved) h
  have hfilter : (optionLeaves saved).filter (fun id ↦ id ∈ ids ∨ id ∉ optionLeaves saved)
      = (optionLeaves saved).filter (· ∈ ids) := by
    refine List.filter_congr fun id hid ↦ decide_eq_decide.mpr (or_iff_left ?_)
    exact not_not_intro hid
  refine (foldlM_placeMissingLeaf_sublist ids _).bind fun tree _ _ hsub ↦ ?_
  rw [hkept, hfilter] at hsub
  split
  · exact Ensures.pure hsub
  · exact Ensures.throw _

/-- A remembered tree that shows exactly the ids is taken as it is. -/
theorem reconcileBsp_eq_self {n : LayoutNode} {ids : List String}
    (h : ∀ x, x ∈ ids ↔ x ∈ leafIds n) : reconcileBsp (some n) ids = pure n := by
  have hdrop : ∀ leaves : List String, leaves ⊆ leafIds n →
      leaves.foldl (dropStaleLeaves ids) (some n) = some n := by
    intro leaves hsub
    induction leaves with
    | nil => rfl
    | cons leafId leaves ih =>
      obtain ⟨hhead, htail⟩ := List.cons_subset.mp hsub
      rw [List.foldl_cons, dropStaleLeaves, if_pos ((h leafId).mpr hhead)]
      exact ih htail
  have hplace : ∀ missing : List String, missing ⊆ leafIds n →
      missing.foldlM placeMissingLeaf (some n) = (pure (some n) : WorkbenchM _) := by
    intro missing hsub
    induction missing with
    | nil => rfl
    | cons id missing ih =>
      obtain ⟨hhead, htail⟩ := List.cons_subset.mp hsub
      rw [List.foldlM_cons, placeMissingLeaf, if_pos hhead, pure_bind]
      exact ih htail
  rw [reconcileBsp, Option.map_some, Option.getD_some, hdrop _ (List.Subset.refl _),
    hplace ids fun x hx ↦ (h x).mp hx, pure_bind]

/-! ## Reconciling remembered columns -/

/-- The Panes of a column that are kept, and what remains after them. -/
theorem keepPanes_spec {ids : List String} (hnd : ids.Nodup) : ∀ (remaining : List String)
    (shares : List ℚ), remaining.Nodup →
      (keepPanes remaining ids shares).1.map Prod.fst = ids.filter (· ∈ remaining) ∧
      (keepPanes remaining ids shares).2.Nodup ∧
      ∀ x, x ∈ (keepPanes remaining ids shares).2 ↔ x ∈ remaining ∧ x ∉ ids := by
  induction ids with
  | nil => exact fun remaining shares hr ↦ ⟨rfl, hr, by simp [keepPanes]⟩
  | cons id ids ih =>
    intro remaining shares hr
    obtain ⟨hid, hids⟩ := List.nodup_cons.mp hnd
    rw [keepPanes]
    split
    · rename_i hmem
      obtain ⟨hkept, hnodup, hrest⟩ := ih hids (remaining.erase id) shares.tail (hr.erase id)
      refine ⟨?_, hnodup, fun x ↦ ?_⟩
      · rw [List.map_cons, hkept, List.filter_cons_of_pos (by simpa using hmem)]
        refine congrArg (id :: ·) (List.filter_congr fun x hx ↦ decide_eq_decide.mpr ?_)
        exact List.mem_erase_of_ne fun heq ↦ hid (heq ▸ hx)
      · rw [hrest, hr.mem_erase_iff, List.mem_cons, not_or]
        tauto
    · rename_i hmem
      obtain ⟨hkept, hnodup, hrest⟩ := ih hids remaining shares.tail hr
      refine ⟨?_, hnodup, fun x ↦ ?_⟩
      · rw [hkept, List.filter_cons_of_neg (by simpa using hmem)]
      · rw [hrest, List.mem_cons, not_or]
        refine and_congr_right fun hx ↦ (and_iff_right ?_).symm
        exact fun heq ↦ hmem (heq ▸ hx)

theorem columnPanes_keepColumns {columns : List Column} (hnd : (columnPanes columns).Nodup) :
    ∀ remaining : List String, remaining.Nodup →
      columnPanes (keepColumns remaining columns).1
        = (columnPanes columns).filter (· ∈ remaining) := by
  induction columns with
  | nil => exact fun remaining _ ↦ rfl
  | cons column columns ih =>
    intro remaining hr
    rw [columnPanes, List.flatMap_cons] at hnd
    obtain ⟨hcolumn, hcolumns, hdisjoint⟩ := List.nodup_append.mp hnd
    obtain ⟨hkept, hnodup, hrest⟩ := keepPanes_spec hcolumn remaining column.shares hr
    have htail := ih hcolumns _ hnodup
    have hfilter : (columnPanes columns).filter
        (· ∈ (keepPanes remaining column.paneIds column.shares).2)
          = (columnPanes columns).filter (· ∈ remaining) := by
      refine List.filter_congr fun x hx ↦ decide_eq_decide.mpr ((hrest x).trans (and_iff_left ?_))
      exact fun hmem ↦ hdisjoint x hmem x hx rfl
    rw [hfilter] at htail
    have hsplit : (columnPanes (column :: columns)).filter (· ∈ remaining)
        = column.paneIds.filter (· ∈ remaining) ++
        (columnPanes columns).filter (· ∈ remaining) := by
      rw [columnPanes, List.flatMap_cons, List.filter_append]
      rfl
    rw [keepColumns, hsplit]
    split
    · rename_i hnil
      rw [htail, ← hkept, hnil, List.map_nil, List.nil_append]
    · rw [columnPanes, List.flatMap_cons, ← hkept]
      exact congrArg _ htail

/-- **Remembered columns** keep the order of the Panes that are still shown. -/
theorem reconcileColumns_sublist {columns : List Column} (hnd : (columnPanes columns).Nodup)
    (ids : List String) : Ensures used (reconcileColumns columns ids) fun result _ ↦
      ((columnPanes columns).filter (· ∈ ids)).Sublist (columnPanes result) := by
  rw [reconcileColumns]
  refine (Draws.mapM draws_newColumn _).then fun added _ _ ↦ Ensures.pure ?_
  have hkept := columnPanes_keepColumns hnd ids.eraseDups (nodup_eraseDups ids)
  have hfilter : (columnPanes columns).filter (· ∈ ids.eraseDups)
      = (columnPanes columns).filter (· ∈ ids) :=
    List.filter_congr fun x _ ↦ decide_eq_decide.mpr List.mem_eraseDups
  rw [hfilter] at hkept
  rw [← hkept, columnPanes, columnPanes, List.flatMap_append]
  exact List.sublist_append_left _ _

/-- Panes that all remain are kept with their shares. -/
theorem keepPanes_eq_self {ids : List String} (hnd : ids.Nodup) : ∀ (remaining : List String)
    (shares : List ℚ), remaining.Nodup → ids ⊆ remaining → shares.length = ids.length →
      (keepPanes remaining ids shares).1 = ids.zip shares := by
  induction ids with
  | nil => exact fun _ _ _ _ _ ↦ rfl
  | cons id ids ih =>
    intro remaining shares hr hsub hlen
    obtain ⟨hid, hids⟩ := List.nodup_cons.mp hnd
    obtain ⟨hhead, htail⟩ := List.cons_subset.mp hsub
    obtain ⟨share, shares, rfl⟩ := List.exists_cons_of_length_eq_add_one hlen
    have hrest : ids ⊆ remaining.erase id := fun x hx ↦
      (List.mem_erase_of_ne fun heq : x = id ↦ hid (heq ▸ hx)).mpr (htail hx)
    rw [keepPanes, if_pos hhead, List.zip_cons_cons]
    exact congrArg ((id, share) :: ·)
      (ih hids (remaining.erase id) shares (hr.erase id) hrest (Nat.succ_injective hlen))

/-- Shares that sum to one are normalized. -/
theorem normalizeShares_eq_self {n : ℕ} {shares : List ℚ} (h : SplitSizes n shares) :
    normalizeShares shares = shares := by
  rw [normalizeShares, h.sum_eq]
  exact (List.map_congr_left fun x _ ↦ div_one x).trans (List.map_id' shares)

theorem keepColumns_eq_self {columns : List Column} (hvalid : ∀ c ∈ columns, c.Valid)
    (hnd : (columnPanes columns).Nodup) : ∀ remaining : List String, remaining.Nodup →
      columnPanes columns ⊆ remaining → (keepColumns remaining columns).1 = columns := by
  induction columns with
  | nil => exact fun _ _ _ ↦ rfl
  | cons column columns ih =>
    intro remaining hr hsub
    obtain ⟨hcolumnValid, hcolumnsValid⟩ := List.forall_mem_cons.mp hvalid
    rw [columnPanes, List.flatMap_cons] at hnd hsub
    obtain ⟨hcolumn, hcolumns, hdisjoint⟩ := List.nodup_append.mp hnd
    obtain ⟨hsubColumn, hsubColumns⟩ := List.append_subset.mp hsub
    obtain ⟨-, hnodup, hrest⟩ := keepPanes_spec hcolumn remaining column.shares hr
    have hlen := hcolumnValid.shares_ok.length_eq
    have hkept := keepPanes_eq_self hcolumn remaining column.shares hr hsubColumn hlen
    have htail := ih hcolumnsValid hcolumns _ hnodup fun x hx ↦
      (hrest x).mpr ⟨hsubColumns hx, fun hmem ↦ hdisjoint x hmem x hx rfl⟩
    have hne : column.paneIds.zip column.shares ≠ [] := by
      intro hnil
      have hzip := congrArg List.length hnil
      rw [List.length_zip, hlen, min_self, List.length_nil, List.length_eq_zero_iff] at hzip
      exact hcolumnValid.paneIds_ne_nil hzip
    rw [keepColumns, hkept, if_neg hne, List.map_fst_zip hlen.ge, List.map_snd_zip hlen.le,
      normalizeShares_eq_self hcolumnValid.shares_ok]
    exact congrArg (column :: ·) htail

/-- Remembered columns that show exactly the ids are taken as they are. -/
theorem reconcileColumns_eq_self {columns : List Column} (hvalid : ∀ c ∈ columns, c.Valid)
    (hnd : (columnPanes columns).Nodup) {ids : List String}
    (h : ∀ x, x ∈ ids ↔ x ∈ columnPanes columns) :
    reconcileColumns columns ids = pure columns := by
  have hids : ∀ x, x ∈ ids.eraseDups ↔ x ∈ columnPanes columns := fun x ↦
    List.mem_eraseDups.trans (h x)
  have hkept := keepColumns_eq_self hvalid hnd ids.eraseDups (nodup_eraseDups ids)
    fun x hx ↦ (hids x).mpr hx
  have hperm := keepColumns_perm columns ids.eraseDups
  rw [hkept] at hperm
  have hnone : (keepColumns ids.eraseDups columns).2 = [] := by
    have hlen := hperm.length_eq
    have hsame := ((List.perm_ext_iff_of_nodup (nodup_eraseDups ids) hnd).mpr hids).length_eq
    rw [List.length_append, hsame] at hlen
    exact List.length_eq_zero_iff.mp (by omega)
  rw [reconcileColumns, hkept, hnone, List.mapM_nil, pure_bind, List.append_nil]

/-! ## One switch -/

/-- The leaves of the layout that is remembered of a mode, in their order. -/
def rememberedLeaves (memory : LayoutMemory) : LayoutMode → List String
  | .bsp => optionLeaves memory.bsp
  | .scrolling => columnPanes (memory.columns.getD [])

/-- A memory holds the layout of a Tab. -/
structure Remembers (memory : LayoutMemory) (t : WorkbenchTab) : Prop where
  version_eq : memory.version = LAYOUT_VERSION
  bsp_eq : t.layoutMode.getD .bsp = .bsp → memory.bsp = some t.layout
  columns_eq : t.layoutMode.getD .bsp = .scrolling → memory.columns = t.columns

/-- A layout comes from a memory: the remembered leaves that are still shown keep their order, and
if they are what is shown the remembered layout is taken as it is. -/
structure RestoredFrom (memory : LayoutMemory) (mode : LayoutMode) (t : WorkbenchTab) : Prop where
  order : ((rememberedLeaves memory mode).filter (· ∈ t.panes.keys)).Sublist (leafIds t.layout)
  bsp_eq : mode = .bsp → ∀ n, memory.bsp = some n →
    (∀ x, x ∈ t.panes.keys ↔ x ∈ leafIds n) → t.layout = n
  columns_eq : mode = .scrolling → ∀ columns, memory.columns = some columns →
    (∀ x, x ∈ t.panes.keys ↔ x ∈ columnPanes columns) →
      t.columns = some columns ∧ t.layout = columnsTree columns

/-- The active Tab after it was updated. -/
theorem updateTab_holds {t t₁ : WorkbenchTab} (ht : t ∈ s.tabs) (hid : t₁.id = t.id)
    {P : WorkbenchTab → Prop} (h : Ensures used (reconcileTab t₁) fun t₂ _ ↦ P t₂) :
    Ensures used (updateTab s t₁) fun s' _ ↦ s'.activeTabId = s.activeTabId ∧
      ∃ t₂ ∈ s'.tabs, P t₂ := by
  rw [updateTab]
  refine (Ensures.and (reconcileTab_ensures t₁) h).bind fun t₂ _ _ hboth ↦ ?_
  obtain ⟨hsame, hP⟩ := hboth
  refine Ensures.pure ⟨rfl, t₂, ?_, hP⟩
  exact List.mem_map.mpr ⟨t, ht, if_pos (hid.symm.trans hsame.id_eq.symm)⟩

/-- A scrolling Tab whose columns hold its Panes is reconciled already. -/
theorem reconcileTab_eq_self {t : WorkbenchTab} (hmode : t.layoutMode = some .scrolling)
    {columns : List Column} (hcolumns : t.columns = some columns)
    (hvalid : ∀ c ∈ columns, c.Valid) (hperm : (columnPanes columns).Perm t.panes.keys)
    (hlayout : t.layout = columnsTree columns) : reconcileTab t = pure t := by
  have hself : ∀ ids : List String, (∀ x, x ∈ ids ↔ x ∈ t.panes.keys) →
      reconcileColumns columns ids = pure columns := fun ids hids ↦
    reconcileColumns_eq_self hvalid (hperm.nodup_iff.mpr t.panes.nodup) fun x ↦
      (hids x).trans hperm.symm.mem_iff
  rw [reconcileTab, if_neg (not_not_intro hmode), hcolumns, Option.getD_some]
  dsimp only
  rw [hself, pure_bind, ← hcolumns, ← hlayout]
  intro x
  rw [reconcile_ids, List.mem_filter, OrderedMap.has_eq_true]
  exact or_iff_right_of_imp And.right

/-- **Leaving a mode** remembers its layout. -/
theorem applySetLayoutMode_remembers (h : SnapshotOk allowed used s) {t : WorkbenchTab}
    (ht : t ∈ s.tabs) (hactive : t.id = s.activeTabId) {mode : LayoutMode}
    (hmode : t.layoutMode.getD .bsp ≠ mode) :
    Ensures used (applySetLayoutMode s mode) fun s₁ _ ↦ s₁.activeTabId = s.activeTabId ∧
      ∃ t₁ ∈ s₁.tabs, ∃ memory, t₁.id = t.id ∧ t₁.panes = t.panes ∧ t₁.layoutMode = some mode ∧
        t₁.layoutMemory = some memory ∧ Remembers memory t := by
  have hversion : (currentMemory t).version = LAYOUT_VERSION := by
    rw [currentMemory]
    split
    · split
      · assumption
      · rfl
    · rfl
  rw [applySetLayoutMode]
  refine getActiveTab_then fun t' ht' hid' ↦ ?_
  obtain rfl : t' = t :=
    List.inj_on_of_nodup_map h.tabs_ok.nodup_ids ht' ht (hid'.trans hactive.symm)
  rw [if_neg hmode]
  cases mode with
  | scrolling =>
    have hbsp : t'.layoutMode.getD .bsp ≠ .scrolling := hmode
    refine (draws_reconcileColumns _ _).then fun columns _ _ ↦ ?_
    refine Ensures.mono (updateTab_holds ht (by rfl) (reconcileTab_ensures _))
      fun s₁ _ _ hupdated ↦ ?_
    obtain ⟨hactive₁, t₁, ht₁, hsame⟩ := hupdated
    refine ⟨hactive₁, t₁, ht₁, _, hsame.id_eq,
        hsame.panes_eq, hsame.mode_eq, hsame.memory_eq, hversion, fun _ ↦ rfl, fun hs ↦ ?_⟩
    exact absurd hs hbsp
  | bsp =>
    have hscrolling : t'.layoutMode.getD .bsp ≠ .bsp := hmode
    refine (draws_reconcileBsp _ _).then fun layout _ _ ↦ ?_
    refine Ensures.mono (updateTab_holds ht (by rfl) (reconcileTab_ensures _))
      fun s₁ _ _ hupdated ↦ ?_
    obtain ⟨hactive₁, t₁, ht₁, hsame⟩ := hupdated
    refine ⟨hactive₁, t₁, ht₁, _, hsame.id_eq,
        hsame.panes_eq, hsame.mode_eq, hsame.memory_eq, hversion, fun hs ↦ ?_, fun hs ↦ ?_⟩
    · exact absurd hs hscrolling
    · have hmode' : t'.layoutMode = some .scrolling := by
        rcases hm : t'.layoutMode with _ | _ | _
        · rw [hm] at hs
          cases hs
        · rw [hm] at hs
          cases hs
        · rfl
      obtain ⟨columns, hcolumns, -⟩ := (h.tabs_ok.tab_ok t' ht).derived hmode'
      rw [hcolumns]
      rfl

/-- The memory of a Tab, when it is of this version. -/
theorem currentMemory_eq {t : WorkbenchTab} {memory : LayoutMemory}
    (h : t.layoutMemory = some memory) (hversion : memory.version = LAYOUT_VERSION) :
    currentMemory t = memory := by
  rw [currentMemory, h]
  exact if_pos hversion

/-- A row of columns out of remembered ones. -/
private theorem reconcileColumns_ensures {columns : List Column} (hok : ColumnsOk used columns)
    (hnd : (columnPanes columns).Nodup) (ids : List String) :
    Ensures used (reconcileColumns columns ids) fun result used' ↦
      ((ColumnsOk used' result ∧ (columnPanes result).Perm ids.eraseDups) ∧
        ((columnPanes columns).filter (· ∈ ids)).Sublist (columnPanes result)) ∧
      ((∀ x, x ∈ ids ↔ x ∈ columnPanes columns) → result = columns) := by
  refine Ensures.and (Ensures.and (reconcileColumns_post hok ids).ensures
    (reconcileColumns_sublist hnd ids)) ?_
  by_cases hids : ∀ x, x ∈ ids ↔ x ∈ columnPanes columns
  · rw [reconcileColumns_eq_self hok.valid hnd hids]
    exact Ensures.pure fun _ ↦ rfl
  · exact (draws_reconcileColumns columns ids _).mono fun _ _ _ _ h ↦ absurd h hids

/-- A tree out of a remembered one. -/
private theorem reconcileBsp_ensures {saved : Option LayoutNode} (hok : TreeOk saved)
    (ids : List String) : Ensures used (reconcileBsp saved ids) fun tree _ ↦
      ((optionLeaves saved).filter (· ∈ ids)).Sublist (leafIds tree) ∧
      ∀ n, saved = some n → (∀ x, x ∈ ids ↔ x ∈ leafIds n) → tree = n := by
  refine Ensures.and (reconcileBsp_sublist hok ids) ?_
  by_cases hids : ∃ n, saved = some n ∧ ∀ x, x ∈ ids ↔ x ∈ leafIds n
  · obtain ⟨n, rfl, hn⟩ := hids
    rw [reconcileBsp_eq_self hn]
    exact Ensures.pure fun n' heq _ ↦ Option.some_inj.mp heq
  · exact (draws_reconcileBsp saved ids _).mono fun _ _ _ _ n hsaved hn ↦
      absurd ⟨n, hsaved, hn⟩ hids

/-- **Coming back to a mode** restores what is remembered of it. -/
theorem applySetLayoutMode_restores (h : SnapshotOk allowed used s) {t : WorkbenchTab}
    (ht : t ∈ s.tabs) (hactive : t.id = s.activeTabId) {mode : LayoutMode}
    (hmode : t.layoutMode.getD .bsp ≠ mode) {memory : LayoutMemory}
    (hmemory : t.layoutMemory = some memory) (hversion : memory.version = LAYOUT_VERSION)
    (hnd : (rememberedLeaves memory mode).Nodup) :
    Ensures used (applySetLayoutMode s mode) fun s₁ _ ↦ s₁.activeTabId = s.activeTabId ∧
      ∃ t₁ ∈ s₁.tabs, t₁.id = t.id ∧ t₁.panes = t.panes ∧ RestoredFrom memory mode t₁ := by
  have hok := h.tabs_ok.tab_ok t ht
  have hkeys : ∀ x, x ∈ leafIds t.layout ↔ x ∈ t.panes.keys := fun x ↦ hok.leaves.mem_iff
  have hfilter : ∀ leaves : List String, leaves.filter (· ∈ leafIds t.layout)
      = leaves.filter (· ∈ t.panes.keys) := fun leaves ↦
    List.filter_congr fun x _ ↦ decide_eq_decide.mpr (hkeys x)
  rw [applySetLayoutMode]
  refine getActiveTab_then fun t' ht' hid' ↦ ?_
  obtain rfl : t' = t :=
    List.inj_on_of_nodup_map h.tabs_ok.nodup_ids ht' ht (hid'.trans hactive.symm)
  rw [if_neg hmode, currentMemory_eq hmemory hversion]
  cases mode with
  | scrolling =>
    refine (reconcileColumns_ensures (hok.memory_columns memory hmemory) hnd _).bind
      fun columns used₁ _ hrestored ↦ ?_
    obtain ⟨⟨⟨hcolumns, hperm⟩, horder⟩, hself⟩ := hrestored
    rw [eraseDups_eq_self hok.nodup_leaves] at hperm
    refine updateTab_holds ht (by rfl) ?_
    rw [reconcileTab_eq_self ?_ ?_ hcolumns.valid ?_ ?_]
    rotate_left
    · rfl
    · rfl
    · exact hperm.trans hok.leaves
    · rfl
    refine Ensures.pure ⟨rfl, rfl, ?_, (fun heq ↦ by cases heq),
      fun _ remembered hremembered hpanes ↦ ?_⟩
    · rw [leafIds_columnsTree]
      exact (hfilter _) ▸ horder
    · rw [hremembered, Option.getD_some] at hself
      rw [hself fun x ↦ (hkeys x).trans (hpanes x)]
      exact ⟨rfl, rfl⟩
  | bsp =>
    refine (reconcileBsp_ensures (hok.memory_bsp memory hmemory) _).bind
      fun layout used₁ _ hrestored ↦ ?_
    obtain ⟨horder, hself⟩ := hrestored
    refine updateTab_holds ht (by rfl) ?_
    rw [reconcileTab, if_pos (by simp)]
    refine Ensures.pure ⟨rfl, rfl, (hfilter _) ▸ horder, fun _ n hremembered hpanes ↦ ?_,
      fun heq ↦ by cases heq⟩
    exact hself n hremembered fun x ↦ (hkeys x).trans (hpanes x)

/-! ## Between two switches -/

/-- A command left a Tab with nothing but a Welcome in a new Pane. -/
def Emptied (s s' : WorkbenchSnapshot) (tabId : String) : Prop :=
  ∃ t' ∈ s'.tabs, t'.id = tabId ∧ ∃ paneId view, t'.panes = .singleton paneId view ∧
    view.target = welcomeTarget ∧ ∀ t ∈ s.tabs, paneId ∉ t.panes.keys

/-- The runs of commands that neither switch the mode of a Tab nor empty it. -/
inductive KeptThrough (tabId : String) (s₀ : WorkbenchSnapshot) (rest₀ : Stream' String) :
    WorkbenchSnapshot → Stream' String → Prop
  | refl : KeptThrough tabId s₀ rest₀ s₀ rest₀
  | step (s rest op s' rest') (before : KeptThrough tabId s₀ rest₀ s rest)
      (keeps : KeepsMode s op tabId) (applies : applyOp s op rest = .ok (s', rest'))
      (stays : ¬Emptied s s' tabId) : KeptThrough tabId s₀ rest₀ s' rest'

/-- A Tab, as long as there is one with its id, is in a mode and has a memory. -/
structure KeepsMemory (tabId : String) (mode : Option LayoutMode) (memory : Option LayoutMemory)
    (used : Set String) (s : WorkbenchSnapshot) : Prop where
  id_used : tabId ∈ used
  mode_eq : ∀ t ∈ s.tabs, t.id = tabId → t.layoutMode = mode
  memory_eq : ∀ t ∈ s.tabs, t.id = tabId → t.layoutMemory = memory

/-- What a Tab remembers survives a command that does not empty it. -/
theorem KeepsMemory.step {tabId : String} {mode : Option LayoutMode} {memory : Option LayoutMemory}
    (hkept : KeepsMemory tabId mode memory used s) (h : SnapshotOk allowed used s)
    (hwelcome : allowed welcomeTarget) {op : WorkbenchOp} (hkeeps : KeepsMode s op tabId)
    {s' : WorkbenchSnapshot} {rest rest' : Stream' String} (hfresh : FreshFor rest used)
    (happlies : applyOp s op rest = .ok (s', rest')) (hstays : ¬Emptied s s' tabId)
    (hsub : used ⊆ used') :
    KeepsMemory tabId mode memory used' s' := by
  obtain ⟨-, -, -, hchanges⟩ := applyOp_changes h hwelcome op rest hfresh s' rest' happlies
  have hold : ∀ t' ∈ s'.tabs, t'.id = tabId → ∃ t ∈ s.tabs, t.id = tabId ∧
      t'.layoutMode = t.layoutMode ∧ t'.layoutMemory = t.layoutMemory := by
    intro t' ht' hid
    cases hchanges t' ht' with
    | rewritten t mem rewrites =>
      have htab : t.id = tabId := rewrites.id_eq.symm.trans hid
      have hmode : KeepsMode s op t.id := htab ▸ hkeeps
      exact ⟨t, mem, htab, rewrites.mode_eq hmode, rewrites.memory_eq hmode⟩
    | cleared t mem clears =>
      obtain ⟨paneId, view, hpanes, hview, hnew⟩ := clears.welcome
      refine absurd ⟨t', ht', hid, paneId, view, hpanes, hview, fun u hu hmem ↦ hnew ?_⟩ hstays
      obtain ⟨e, he, rfl⟩ := List.mem_map.mp hmem
      exact h.tabs_ok.entries_ok.paneIds_used e (List.mem_flatMap.mpr ⟨u, hu, he⟩)
    | opened id_new alone => exact absurd hkept.id_used (hid ▸ id_new)
  refine ⟨hsub hkept.id_used, fun t' ht' hid ↦ ?_, fun t' ht' hid ↦ ?_⟩
  · obtain ⟨t, ht, htab, hmode, -⟩ := hold t' ht' hid
    rw [hmode, hkept.mode_eq t ht htab]
  · obtain ⟨t, ht, htab, -, hmemory⟩ := hold t' ht' hid
    rw [hmemory, hkept.memory_eq t ht htab]

/-- What a Tab remembers survives every run that does not empty it. -/
theorem KeptThrough.keepsMemory {tabId : String} {mode : Option LayoutMode}
    {memory : Option LayoutMemory} {rest rest' : Stream' String} {s' : WorkbenchSnapshot}
    (h : SnapshotOk (fun _ ↦ True) used s) (hfresh : FreshFor rest used)
    (hkept : KeepsMemory tabId mode memory used s) (hrun : KeptThrough tabId s rest s' rest') :
    ∃ used', SnapshotOk (fun _ ↦ True) used' s' ∧ FreshFor rest' used' ∧
      KeepsMemory tabId mode memory used' s' := by
  induction hrun with
  | refl => exact ⟨used, h, hfresh, hkept⟩
  | step s₁ rest₁ op s₂ rest₂ before keeps applies stays ih =>
    obtain ⟨used₁, hok₁, hfresh₁, hkept₁⟩ := ih
    obtain ⟨s₃, rest₃, used₂, hop, hdrawn, hfresh₂, hok₂, -⟩ :=
      applyOp_ok hok₁ trivial op (fun _ _ ↦ trivial) rest₁ hfresh₁
    cases hop.symm.trans applies
    exact ⟨used₂, hok₂, hfresh₂,
      hkept₁.step hok₁ trivial keeps hfresh₁ applies stays hdrawn.subset⟩

/-! ## Back and forth -/

/-- The leaves that are remembered of the mode a Tab was in are the leaves it had. -/
theorem Remembers.leaves_eq {t : WorkbenchTab} {memory : LayoutMemory} (h : Remembers memory t)
    (hok : TabOk used t) :
    rememberedLeaves memory (t.layoutMode.getD .bsp) = leafIds t.layout := by
  rcases hm : t.layoutMode with _ | _ | _
  · rw [Option.getD_none, rememberedLeaves, h.bsp_eq (by rw [hm]; rfl)]
    rfl
  · rw [Option.getD_some, rememberedLeaves, h.bsp_eq (by rw [hm]; rfl)]
    rfl
  · obtain ⟨columns, hcolumns, -, -, hlayout⟩ := hok.derived hm
    rw [Option.getD_some, rememberedLeaves, h.columns_eq (by rw [hm]; rfl), hcolumns,
      Option.getD_some, hlayout, leafIds_columnsTree]

/-- The layout that comes back when a Tab has kept its memory. -/
theorem applySetLayoutMode_back {t : WorkbenchTab} (hok : TabOk used t) {other : LayoutMode}
    (hother : t.layoutMode.getD .bsp ≠ other) {memory : LayoutMemory} (hmemory : Remembers memory t)
    (h : SnapshotOk allowed used' s) (hactive : s.activeTabId = t.id)
    (hkept : KeepsMemory t.id (some other) (some memory) used' s) :
    Supply.Post used' (applySetLayoutMode s (t.layoutMode.getD .bsp)) fun s₃ _ ↦
      ∃ t₂ ∈ s.tabs, ∃ t₃ ∈ s₃.tabs, t₂.id = t.id ∧ t₃.id = t.id ∧ t₃.panes = t₂.panes ∧
        (leafIds t₃.layout).Perm t₃.panes.keys ∧
        RestoredFrom memory (t.layoutMode.getD .bsp) t₃ := by
  obtain ⟨t₂, -, -, hget, -, -⟩ := getActiveTab_eq h
  obtain ⟨ht₂, hid₂⟩ := mem_of_getActiveTab hget
  have hid : t₂.id = t.id := hid₂.trans hactive
  have hmode : t₂.layoutMode.getD .bsp ≠ t.layoutMode.getD .bsp := by
    rw [hkept.mode_eq t₂ ht₂ hid]
    exact hother.symm
  have hrestores := applySetLayoutMode_restores h ht₂ hid₂ hmode (hkept.memory_eq t₂ ht₂ hid)
    hmemory.version_eq (hmemory.leaves_eq hok ▸ hok.nodup_leaves)
  have hreturns : CommandOk allowed used' {} s (applySetLayoutMode s (t.layoutMode.getD .bsp)) :=
    applySetLayoutMode_ok h _
  refine (Supply.Post.and hreturns hrestores).mono fun s₃ used₃ _ ⟨⟨hok₃, _⟩, _, t₃, ht₃, hid₃,
    hpanes, hfrom⟩ ↦ ?_
  exact ⟨t₂, ht₂, t₃, ht₃, hid, hid₃.trans hid, hpanes, (hok₃.tabs_ok.tab_ok t₃ ht₃).leaves, hfrom⟩

/-- **Switching the layout mode loses nothing.** Switching a Tab to the other mode and back gives it
the layout it had, with its columns if it was scrolling. And after any commands that do not empty it
the layout that comes back shows every current Pane once, and those that it showed before in the
order in which it showed them. -/
theorem setLayoutMode_restores (h : SnapshotOk (fun _ ↦ True) used s) {rest : Stream' String}
    (hfresh : FreshFor rest used) {t : WorkbenchTab} (ht : t ∈ s.tabs)
    (hactive : t.id = s.activeTabId) {other : LayoutMode}
    (hother : t.layoutMode.getD .bsp ≠ other) :
    ∃ s₁ rest₁, applySetLayoutMode s other rest = .ok (s₁, rest₁) ∧
      (∃ s₂ rest₂, applySetLayoutMode s₁ (t.layoutMode.getD .bsp) rest₁ = .ok (s₂, rest₂) ∧
        ∃ t₂ ∈ s₂.tabs, t₂.id = t.id ∧ t₂.layout = t.layout ∧
          (t.layoutMode = some .scrolling → t₂.columns = t.columns)) ∧
      ∀ s₂ rest₂, KeptThrough t.id s₁ rest₁ s₂ rest₂ → s₂.activeTabId = t.id →
        ∃ s₃ rest₃, applySetLayoutMode s₂ (t.layoutMode.getD .bsp) rest₂ = .ok (s₃, rest₃) ∧
          ∃ t₂ ∈ s₂.tabs, ∃ t₃ ∈ s₃.tabs, t₂.id = t.id ∧ t₃.id = t.id ∧ t₃.panes = t₂.panes ∧
            (leafIds t₃.layout).Nodup ∧ (∀ p, p ∈ leafIds t₃.layout ↔ p ∈ t₂.panes.keys) ∧
            ((leafIds t.layout).filter (· ∈ t₂.panes.keys)).Sublist (leafIds t₃.layout) := by
  have hok := h.tabs_ok.tab_ok t ht
  have hreturns : CommandOk (fun _ ↦ True) used {} s (applySetLayoutMode s other) :=
    applySetLayoutMode_ok h other
  obtain ⟨s₁, rest₁, used₁, hs₁, hdrawn, hfresh₁, ⟨hok₁, -⟩, hactive₁, t₁, ht₁, memory, hid₁,
    hpanes₁, hmode₁, hmemory₁, hremembers⟩ := Supply.Post.and hreturns
      (applySetLayoutMode_remembers h ht hactive hother) rest hfresh
  have honly : ∀ t' ∈ s₁.tabs, t'.id = t.id → t' = t₁ := fun t' ht' hid' ↦
    List.inj_on_of_nodup_map hok₁.tabs_ok.nodup_ids ht' ht₁ (hid'.trans hid₁.symm)
  have hkept : KeepsMemory t.id (some other) (some memory) used₁ s₁ :=
    ⟨hid₁ ▸ hok₁.tabs_ok.ids_used t₁ ht₁, fun t' ht' hid' ↦ honly t' ht' hid' ▸ hmode₁,
      fun t' ht' hid' ↦ honly t' ht' hid' ▸ hmemory₁⟩
  refine ⟨s₁, rest₁, hs₁, ?_, fun s₂ rest₂ hrun hactive₂ ↦ ?_⟩
  · -- with no change in between the remembered layout shows exactly the current Panes
    obtain ⟨s₂, rest₂, -, hs₂, -, -, t', ht', t₂, ht₂, hid', hid₂, hpanes₂, -, hfrom⟩ :=
      applySetLayoutMode_back hok hother hremembers hok₁ (hactive₁.trans hactive.symm) hkept rest₁
        hfresh₁
    have hkeys : t₂.panes.keys = t.panes.keys := by
      rw [hpanes₂, honly t' ht' hid', hpanes₁]
    refine ⟨s₂, rest₂, hs₂, t₂, ht₂, hid₂, ?_⟩
    cases hm : t.layoutMode.getD .bsp with
    | bsp =>
      refine ⟨hfrom.bsp_eq hm t.layout (hremembers.bsp_eq hm) fun x ↦ ?_, fun hs ↦ ?_⟩
      · rw [hkeys]
        exact hok.leaves.symm.mem_iff
      · rw [hs] at hm
        cases hm
    | scrolling =>
      have hs : t.layoutMode = some .scrolling := by
        cases hlayoutMode : t.layoutMode with
        | none =>
          rw [hlayoutMode] at hm
          cases hm
        | some mode =>
          rw [hlayoutMode] at hm
          exact congrArg some hm
      obtain ⟨columns, hcolumns, -, hperm, hlayout⟩ := hok.derived hs
      obtain ⟨hcolumns₂, hlayout₂⟩ := hfrom.columns_eq hm columns
        ((hremembers.columns_eq hm).trans hcolumns) fun x ↦ by
          rw [hkeys]
          exact hperm.symm.mem_iff
      exact ⟨hlayout₂.trans hlayout.symm, fun _ ↦ hcolumns₂.trans hcolumns.symm⟩
  · obtain ⟨used₂, hok₂, hfresh₂, hkept₂⟩ := hrun.keepsMemory hok₁ hfresh₁ hkept
    obtain ⟨s₃, rest₃, -, hs₃, -, -, t₂, ht₂, t₃, ht₃, hid₂, hid₃, hpanes₃, hperm, hfrom⟩ :=
      applySetLayoutMode_back hok hother hremembers hok₂ hactive₂ hkept₂ rest₂ hfresh₂
    have horder := hfrom.order
    rw [hremembers.leaves_eq hok, hpanes₃] at horder
    rw [hpanes₃] at hperm
    exact ⟨s₃, rest₃, hs₃, t₂, ht₂, t₃, ht₃, hid₂, hid₃, hpanes₃,
      hperm.nodup_iff.mpr t₂.panes.nodup, fun p ↦ hperm.mem_iff, horder⟩

/-- Two Sessions side by side. -/
def testSplit : List WorkbenchOp :=
  [.openTarget testSession, .splitFocused { body := .agentSession "e" "w" "b" } .right]

theorem setLayoutMode_restores_split :
    ∃ s rest, runOps testSplit testSupply = .ok (s, rest) ∧ ∃ t ∈ s.tabs, ∃ s₁ rest₁,
      applySetLayoutMode s .scrolling rest = .ok (s₁, rest₁) ∧ ∃ s₂ rest₂,
        applySetLayoutMode s₁ .bsp rest₁ = .ok (s₂, rest₂) ∧
          ∃ t₂ ∈ s₂.tabs, t₂.id = t.id ∧ t₂.layout = t.layout := by
  have hpost : Supply.Post ∅ (runOps testSplit) fun s used' ↦
      SnapshotOk (fun _ ↦ True) used' s ∧ True :=
    runOps_post trivial trivial (fun _ _ _ _ _ _ ↦ trivial) testSplit fun _ _ _ _ ↦ trivial
  obtain ⟨s, rest, used', hrun, -, hfresh, hok, -⟩ :=
    hpost testSupply (freshFor_empty testSupply_injective)
  refine ⟨s, rest, hrun, ?_⟩
  cases hrun
  obtain ⟨s₁, rest₁, hs₁, ⟨s₂, rest₂, hs₂, t₂, ht₂, hid, hlayout, -⟩, -⟩ :=
    setLayoutMode_restores hok hfresh (List.mem_singleton_self _) rfl (by decide : (none : Option LayoutMode).getD .bsp ≠ .scrolling)
  exact ⟨_, List.mem_singleton_self _, s₁, rest₁, hs₁, s₂, rest₂, hs₂, t₂, ht₂, hid, hlayout⟩

/-- The Tabs that a run leaves, with their leaves. -/
def leavesAfter (ops : List WorkbenchOp) : Option (List (String × List String)) :=
  (runOps ops testSupply).toOption.map fun r ↦ r.1.tabs.map fun t ↦ (t.id, leafIds t.layout)

/-- A Tab whose Panes are all dragged away between two switches forgets: they come back the other
way round, and stay so when the Tab comes back to the mode in which it had them. -/
theorem restored_order_of_emptied :
    leavesAfter testSplit = some [("xx", ["x", "xxxxx"])] ∧
      leavesAfter (testSplit ++ [.setLayoutMode .scrolling,
          .viewDrop (.pane "xx" "x") (.newTab 1),
          .viewDrop (.pane "xx" "xxxxx") (.existingTab "xxxxxxxxxx"),
          .viewDrop (.pane "xxxxxxxxxx" "xxxxx") (.existingTab "xx"),
          .viewDrop (.pane "xxxxxxxxxx" "x") (.existingTab "xx"),
          .setLayoutMode .bsp]) =
        some [("xx", ["xxxxx", "x"]), ("xxxxxxxxxx", ["xxxxxxxxxxxxxxxxxx"])] := by
  decide +kernel

end Awen.Workbench
