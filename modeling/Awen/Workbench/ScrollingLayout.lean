import Awen.Workbench.Layout
import Awen.Library.Groups
import Awen.Workbench.LayoutPlacement

/-!
# The scrolling layout of a Tab

In scrolling mode a Tab is a row of columns of stacked Panes, and its split tree is derived from
the columns. This module is `scrollingLayout.ts`: reconciling columns and saved trees with the
Panes a Tab really has, deriving the tree, and placing a Pane among the columns.

`newColumn` takes its id from a throwaway Tab, so the operations that may create a column draw ids.
-/

namespace Awen.Workbench

inductive LayoutMode
  | bsp
  | scrolling
  deriving DecidableEq, Repr

structure Column where
  id : String
  width : ℚ
  paneIds : List String
  shares : List ℚ
  deriving DecidableEq, Repr

def MIN_COLUMN_WIDTH : ℚ := 320
def MAX_COLUMN_WIDTH : ℚ := 2400
def DEFAULT_COLUMN_WIDTH : ℚ := 560
def LAYOUT_VERSION : ℚ := 1

/-- What a Tab remembers of the layout mode it is not in. -/
structure LayoutMemory where
  version : ℚ
  bsp : Option LayoutNode := none
  columns : Option (List Column) := none

/-- Scale shares to sum 1, without the guard of the split tree's `normalize`. -/
def normalizeShares (shares : List ℚ) : List ℚ := shares.map (· / shares.sum)

def newColumn (paneId : String) : WorkbenchM Column := do
  let tab ← newTab paneId
  return { id := tab.id, width := DEFAULT_COLUMN_WIDTH, paneIds := [paneId], shares := [1] }

/-! ## Reconciling columns -/

/-- The Panes of one column that are still to be shown, with their shares, and the ids that remain
to be shown after them. -/
def keepPanes (remaining : List String) :
    List String → List ℚ → List (String × ℚ) × List String
  | [], _ => ([], remaining)
  | id :: ids, shares =>
    if id ∈ remaining then
      let rest := keepPanes (remaining.erase id) ids shares.tail
      ((id, shares.headD 1) :: rest.1, rest.2)
    else keepPanes remaining ids shares.tail

/-- The columns cut down to the ids that remain to be shown, without the ones left empty. -/
def keepColumns (remaining : List String) : List Column → List Column × List String
  | [] => ([], remaining)
  | column :: columns =>
    let kept := keepPanes remaining column.paneIds column.shares
    let rest := keepColumns kept.2 columns
    if kept.1 = [] then rest
    else
      ({ column with
          paneIds := kept.1.map Prod.fst
          shares := normalizeShares (kept.1.map Prod.snd) } :: rest.1, rest.2)

/-- Filter stale references; new Panes get columns of their own at the end. -/
def reconcileColumns (columns : List Column) (ids : List String) : WorkbenchM (List Column) := do
  let kept := keepColumns ids.eraseDups columns
  let added ← kept.2.mapM newColumn
  return kept.1 ++ added

/-! ## The tree of a row of columns -/

def columnNode (column : Column) : LayoutNode :=
  match column.paneIds with
  | [paneId] => .leaf paneId
  | paneIds => .split column.id .down (paneIds.map .leaf) column.shares

def columnsTree (columns : List Column) : LayoutNode :=
  match columns.map columnNode with
  | [child] => child
  | children => .split "columns" .right children (normalizeShares (columns.map Column.width))

/-! ## Placing a Pane -/

/-- Put a Pane above or below another one of its column, halving that one's share. -/
def stackInColumn (column : Column) (paneId targetId : String) (offset : ℕ) : Column :=
  let at' := column.paneIds.idxOf targetId
  let half := column.shares.getD at' 0 / 2
  { column with
    paneIds := insertAt (at' + offset) paneId column.paneIds
    shares := insertAt (at' + offset) half (column.shares.set at' half) }

def placeInColumns (columns : List Column) (paneId targetId : String) (zone : PaneDropZone) :
    WorkbenchM (List Column) := do
  let cleaned ← reconcileColumns columns
    ((columns.flatMap Column.paneIds).filter (· ≠ paneId))
  match cleaned.findIdx? fun c ↦ targetId ∈ c.paneIds with
  | none => return cleaned
  | some index =>
    match zone with
    | .edge .left => return insertAt index (← newColumn paneId) cleaned
    | .edge .right => return insertAt (index + 1) (← newColumn paneId) cleaned
    | .edge .top => return cleaned.modify index (stackInColumn · paneId targetId 0)
    | .edge .bottom => return cleaned.modify index (stackInColumn · paneId targetId 1)
    | .replace =>
      return cleaned.modify index fun column ↦
        { column with paneIds := column.paneIds.set (column.paneIds.idxOf targetId) paneId }

/-! ## Reconciling a saved tree -/

/-- Drop the leaves of a saved tree that are not among the ids. -/
def dropStaleLeaves (ids : List String) (tree : Option LayoutNode) (leafId : String) :
    Option LayoutNode :=
  if leafId ∈ ids then tree else tree.bind (removePane leafId)

/-- Put one id into a tree that may not show it yet, to the right of the last leaf. -/
def placeMissingLeaf (tree : Option LayoutNode) (id : String) :
    WorkbenchM (Option LayoutNode) :=
  match tree with
  | none => return some (.leaf id)
  | some tree =>
    if id ∈ leafIds tree then return some tree
    else
      match (leafIds tree).getLast? with
      | none => return some tree
      | some last => some <$> placePane tree id last (.right)

/-- The saved tree reconciled with the ids. The source returns a null tree for no ids at all, as a
node; that is a throw here. -/
def reconcileBsp (saved : Option LayoutNode) (ids : List String) : WorkbenchM LayoutNode := do
  let kept := ((saved.map leafIds).getD []).foldl (dropStaleLeaves ids) saved
  match ← ids.foldlM placeMissingLeaf kept with
  | some tree => return tree
  | none => throw "reconcileBsp: no leaf"

/-!
## Columns that partition the Panes of a Tab

`ColumnsOk` says what the columns of a scrolling Tab satisfy on their own: none is empty, the
shares of each are sizes of a split, the widths are in range and the ids are distinct. Reconciling
such columns with a list of ids keeps all of this and makes the columns partition the ids, whatever
Panes the columns listed before: an id is struck off the remaining ones when a column keeps it, so
`keepColumns` splits the remaining ids into the kept ones and the rest (`keepColumns_perm`).

The tree derived from such columns is well formed and shows exactly their Panes.
-/

open LayoutNode

/-! ## Columns on their own -/

structure Column.Valid (c : Column) : Prop where
  paneIds_ne_nil : c.paneIds ≠ []
  shares_ok : SplitSizes c.paneIds.length c.shares
  width_ge : MIN_COLUMN_WIDTH ≤ c.width
  width_le : c.width ≤ MAX_COLUMN_WIDTH

/-- Valid columns with distinct ids, all of which are in use. -/
structure ColumnsOk (used : Set String) (columns : List Column) : Prop where
  valid : ∀ c ∈ columns, c.Valid
  nodup_ids : (columns.map Column.id).Nodup
  ids_used : ∀ c ∈ columns, c.id ∈ used

/-- The Panes of a row of columns, column by column. -/
def columnPanes (columns : List Column) : List String := columns.flatMap Column.paneIds

theorem ColumnsOk.mono {used used' : Set String} {columns : List Column}
    (h : ColumnsOk used columns) (hsub : used ⊆ used') : ColumnsOk used' columns :=
  ⟨h.valid, h.nodup_ids, fun c hc ↦ hsub (h.ids_used c hc)⟩

theorem columnsOk_nil (used : Set String) : ColumnsOk used [] :=
  ⟨by simp, List.nodup_nil, by simp⟩

theorem ColumnsOk.perm {used : Set String} {columns columns' : List Column}
    (h : ColumnsOk used columns) (hp : columns'.Perm columns) : ColumnsOk used columns' :=
  ⟨fun c hc ↦ h.valid c (hp.mem_iff.mp hc), (hp.map Column.id).nodup_iff.mpr h.nodup_ids,
    fun c hc ↦ h.ids_used c (hp.mem_iff.mp hc)⟩

theorem ColumnsOk.cons {used : Set String} {columns : List Column} {c : Column}
    (h : ColumnsOk used columns) (hc : c.Valid) (hid : c.id ∉ used) :
    ColumnsOk (insert c.id used) (c :: columns) where
  valid := by
    intro d hd
    rcases List.mem_cons.mp hd with rfl | hd'
    · exact hc
    · exact h.valid d hd'
  nodup_ids := by
    rw [List.map_cons, List.nodup_cons]
    refine ⟨fun hmem ↦ ?_, h.nodup_ids⟩
    obtain ⟨d, hd, heq⟩ := List.mem_map.mp hmem
    exact hid (heq ▸ h.ids_used d hd)
  ids_used := by
    intro d hd
    rcases List.mem_cons.mp hd with rfl | hd'
    · exact Set.mem_insert _ _
    · exact Set.mem_insert_of_mem _ (h.ids_used d hd')

/-- Changing one column in place, without its id. -/
theorem ColumnsOk.replace {used : Set String} {l r : List Column} {c d : Column}
    (h : ColumnsOk used (l ++ c :: r)) (hid : d.id = c.id) (hd : d.Valid) :
    ColumnsOk used (l ++ d :: r) := by
  have hmem : ∀ e ∈ l ++ d :: r, e = d ∨ e ∈ l ++ c :: r := by
    intro e he
    rcases List.mem_append.mp he with he' | he'
    · exact Or.inr (List.mem_append_left _ he')
    · exact (List.mem_cons.mp he').imp_right fun h ↦
        List.mem_append_right _ (List.mem_cons_of_mem _ h)
  refine ⟨fun e he ↦ ?_, ?_, fun e he ↦ ?_⟩
  · rcases hmem e he with rfl | he'
    · exact hd
    · exact h.valid e he'
  · have hids := h.nodup_ids
    rwa [List.map_append, List.map_cons, ← hid, ← List.map_cons, ← List.map_append] at hids
  · rcases hmem e he with rfl | he'
    · exact hid ▸ h.ids_used c (by simp)
    · exact h.ids_used e he'

theorem valid_newColumn {c : Column} {paneId : String} (hwidth : c.width = DEFAULT_COLUMN_WIDTH)
    (hpanes : c.paneIds = [paneId]) (hshares : c.shares = [1]) : c.Valid where
  paneIds_ne_nil := by simp [hpanes]
  shares_ok := by
    rw [hpanes, hshares]
    exact ⟨rfl, by simp, by simp⟩
  width_ge := by norm_num [hwidth, MIN_COLUMN_WIDTH, DEFAULT_COLUMN_WIDTH]
  width_le := by norm_num [hwidth, MAX_COLUMN_WIDTH, DEFAULT_COLUMN_WIDTH]

/-- A new column shows its one Pane under a fresh id. -/
theorem newColumn_post {used : Set String} (paneId : String) :
    Supply.Post used (newColumn paneId) fun c used' ↦
      c.Valid ∧ c.paneIds = [paneId] ∧ c.id ∉ used ∧ used' = insert c.id used := by
  refine Supply.Post.bind (P := fun tab used' ↦ tab.id ∉ used ∧ used' = insert tab.id used)
    ?_ fun tab used' _ htab ↦ Supply.Post.pure
      ⟨valid_newColumn rfl rfl rfl, rfl, htab.1, htab.2⟩
  exact Supply.Post.bind (Supply.Post.fresh fun a ha ↦ ⟨ha, rfl⟩)
    fun id _ _ hid ↦ Supply.Post.pure hid

/-! ## Reconciling -/

theorem eraseDups_eq_self {l : List String} (h : l.Nodup) : l.eraseDups = l := by
  induction l with
  | nil => rfl
  | cons a l ih =>
    obtain ⟨ha, hl⟩ := List.nodup_cons.mp h
    have hfilter : l.filter (fun b ↦ !b == a) = l :=
      List.filter_eq_self.mpr fun b hb ↦ by
        rw [Bool.not_eq_true', beq_eq_false_iff_ne]
        rintro rfl
        exact ha hb
    rw [List.eraseDups_cons, hfilter, ih hl]

theorem keepPanes_perm (ids : List String) : ∀ (remaining : List String)
    (shares : List ℚ), ((keepPanes remaining ids shares).1.map Prod.fst
      ++ (keepPanes remaining ids shares).2).Perm remaining := by
  induction ids with
  | nil => intro remaining shares; rfl
  | cons id ids ih =>
    intro remaining shares
    rw [keepPanes]
    split
    · rename_i hmem
      exact ((ih (remaining.erase id) shares.tail).cons id).trans
        (List.perm_cons_erase hmem).symm
    · exact ih remaining shares.tail

private theorem keepPanes_pos (ids : List String) : ∀ (remaining : List String)
    (shares : List ℚ), (∀ x ∈ shares, 0 < x) →
      ∀ e ∈ (keepPanes remaining ids shares).1, 0 < e.2 := by
  induction ids with
  | nil => intro remaining shares _ e he; simp [keepPanes] at he
  | cons id ids ih =>
    intro remaining shares hpos e he
    have htail : ∀ x ∈ shares.tail, 0 < x := fun x hx ↦ hpos x (List.mem_of_mem_tail hx)
    rw [keepPanes] at he
    split at he
    · rcases List.mem_cons.mp he with rfl | he'
      · cases shares with
        | nil => exact one_pos
        | cons x xs => exact hpos x List.mem_cons_self
      · exact ih _ _ htail e he'
    · exact ih _ _ htail e he

/-- Reconciling splits the remaining ids into the ones the columns keep and the others. -/
theorem keepColumns_perm (columns : List Column) : ∀ remaining : List String,
    (columnPanes (keepColumns remaining columns).1
      ++ (keepColumns remaining columns).2).Perm remaining := by
  induction columns with
  | nil => intro remaining; rfl
  | cons column columns ih =>
    intro remaining
    have hpanes := keepPanes_perm column.paneIds remaining column.shares
    have hrest := ih (keepPanes remaining column.paneIds column.shares).2
    rw [keepColumns]
    split
    · rename_i hnil
      rw [hnil, List.map_nil, List.nil_append] at hpanes
      exact hrest.trans hpanes
    · rw [columnPanes, List.flatMap_cons, List.append_assoc]
      exact (hrest.append_left _).trans hpanes

private theorem keepColumns_valid {columns : List Column} (h : ∀ c ∈ columns, c.Valid) :
    ∀ remaining : List String, ∀ c ∈ (keepColumns remaining columns).1, c.Valid := by
  induction columns with
  | nil => intro remaining c hc; simp [keepColumns] at hc
  | cons column columns ih =>
    intro remaining c hc
    have hrest := ih (fun d hd ↦ h d (List.mem_cons_of_mem _ hd))
      (keepPanes remaining column.paneIds column.shares).2 c
    have hcolumn := h column List.mem_cons_self
    have hpos := keepPanes_pos column.paneIds remaining column.shares hcolumn.shares_ok.pos
    rw [keepColumns] at hc
    split at hc
    · exact hrest hc
    · rename_i hne
      rcases List.mem_cons.mp hc with rfl | hc'
      · refine ⟨by simpa using hne, ?_, hcolumn.width_ge, hcolumn.width_le⟩
        have hshares := splitSizes_map_div
          ((keepPanes remaining column.paneIds column.shares).1.map Prod.snd)
          (by simpa using hne) (by
            intro x hx
            obtain ⟨e, he, rfl⟩ := List.mem_map.mp hx
            exact hpos e he)
        rw [List.length_map] at hshares ⊢
        exact hshares
      · exact hrest hc'

private theorem keepColumns_ids (columns : List Column) : ∀ remaining : List String,
    ((keepColumns remaining columns).1.map Column.id).Sublist (columns.map Column.id) := by
  induction columns with
  | nil => intro remaining; exact List.Sublist.refl _
  | cons column columns ih =>
    intro remaining
    rw [keepColumns]
    split
    · exact (ih _).cons _
    · exact (ih _).cons_cons _

theorem columnsOk_keepColumns {used : Set String} {columns : List Column}
    (h : ColumnsOk used columns) (remaining : List String) :
    ColumnsOk used (keepColumns remaining columns).1 := by
  have hids := keepColumns_ids columns remaining
  refine ⟨keepColumns_valid h.valid remaining, h.nodup_ids.sublist hids, fun c hc ↦ ?_⟩
  obtain ⟨d, hd, heq⟩ := List.mem_map.mp (hids.subset (List.mem_map_of_mem hc))
  exact heq ▸ h.ids_used d hd

/-- New columns, one for each id, in front of the ones there are. -/
private theorem mapM_newColumn_post (ids : List String) : ∀ {used : Set String}
    {columns : List Column}, ColumnsOk used columns →
    Supply.Post used (ids.mapM newColumn) fun added used' ↦
      ColumnsOk used' (columns ++ added) ∧ columnPanes added = ids := by
  induction ids with
  | nil =>
    intro used columns h
    exact Supply.Post.pure ⟨by simpa using h, rfl⟩
  | cons id ids ih =>
    intro used columns h
    rw [List.mapM_cons]
    refine (newColumn_post id).bind fun c used' _ ⟨hvalid, hpanes, hid, hused⟩ ↦ ?_
    subst hused
    have hnext : ColumnsOk (insert c.id used) (columns ++ [c]) :=
      (h.cons hvalid hid).perm (List.perm_append_singleton c columns)
    refine (ih hnext).bind fun added used' _ ⟨hok, hadded⟩ ↦ Supply.Post.pure ⟨?_, ?_⟩
    · rwa [List.append_assoc, List.singleton_append] at hok
    · rw [columnPanes, List.flatMap_cons, hpanes, List.singleton_append]
      exact congrArg (id :: ·) hadded

/-- **Reconciling columns.** The result partitions the ids. -/
theorem reconcileColumns_post {used : Set String} {columns : List Column}
    (h : ColumnsOk used columns) (ids : List String) :
    Supply.Post used (reconcileColumns columns ids) fun result used' ↦
      ColumnsOk used' result ∧ (columnPanes result).Perm ids.eraseDups := by
  rw [reconcileColumns]
  refine (mapM_newColumn_post _ (columnsOk_keepColumns h _)).bind
    fun added used' _ ⟨hok, hadded⟩ ↦ Supply.Post.pure ⟨hok, ?_⟩
  rw [columnPanes, List.flatMap_append]
  change (columnPanes _ ++ columnPanes added).Perm _
  rw [hadded]
  exact keepColumns_perm columns _

/-! ### Columns that need not be valid -/

theorem newColumn_returns (paneId : String) :
    Supply.Returns (newColumn paneId) fun c ↦ c.paneIds = [paneId] :=
  (Supply.Returns.bind (P := fun _ ↦ True) (Supply.Returns.fresh fun _ ↦ trivial)
    fun _ _ ↦ Supply.Returns.pure trivial).bind (P := fun _ ↦ True) fun _ _ ↦
      Supply.Returns.pure rfl

private theorem keepColumns_ne_nil (columns : List Column) : ∀ remaining : List String,
    ∀ c ∈ (keepColumns remaining columns).1, c.paneIds ≠ [] := by
  induction columns with
  | nil => exact fun _ c hc ↦ absurd hc List.not_mem_nil
  | cons column columns ih =>
    intro remaining c hc
    rw [keepColumns] at hc
    split at hc
    · exact ih _ c hc
    · rename_i hne
      rcases List.mem_cons.mp hc with rfl | hc
      · simpa using hne
      · exact ih _ c hc

private theorem columnPanes_of_forall₂ {ids : List String} {added : List Column}
    (h : List.Forall₂ (fun id (c : Column) ↦ c.paneIds = [id]) ids added) :
    columnPanes added = ids ∧ ∀ c ∈ added, c.paneIds ≠ [] := by
  induction h with
  | nil => exact ⟨rfl, fun c hc ↦ absurd hc List.not_mem_nil⟩
  | @cons id c ids added hc _ ih =>
    refine ⟨?_, List.forall_mem_cons.mpr ⟨?_, ih.2⟩⟩
    · rw [columnPanes, List.flatMap_cons, hc, List.singleton_append, ← columnPanes, ih.1]
    · rw [hc]
      exact List.cons_ne_nil _ _

/-- Reconciling columns never throws: the result partitions the ids, and no column is empty. -/
theorem reconcileColumns_returns (columns : List Column) (ids : List String) :
    Supply.Returns (reconcileColumns columns ids) fun result ↦
      (columnPanes result).Perm ids.eraseDups ∧ ∀ c ∈ result, c.paneIds ≠ [] := by
  rw [reconcileColumns]
  refine (Supply.Returns.mapM fun id _ ↦ newColumn_returns id).bind fun added hadded ↦
    Supply.Returns.pure ?_
  obtain ⟨hpanes, hne⟩ := columnPanes_of_forall₂ hadded
  refine ⟨?_, fun c hc ↦ ?_⟩
  · rw [columnPanes, List.flatMap_append]
    change (columnPanes _ ++ columnPanes added).Perm _
    rw [hpanes]
    exact keepColumns_perm columns _
  · exact (List.mem_append.mp hc).elim (keepColumns_ne_nil columns _ c) (hne c)

/-! ## The derived tree -/

@[simp] theorem leafIds_columnNode (c : Column) : leafIds (columnNode c) = c.paneIds := by
  rw [columnNode]
  split
  · rename_i paneId heq
    rw [leafIds_leaf, heq]
  · rw [leafIds_split, List.flatMap_map]
    exact List.flatMap_singleton' c.paneIds

theorem leafIds_columnsTree (columns : List Column) :
    leafIds (columnsTree columns) = columnPanes columns := by
  have hall : (columns.map columnNode).flatMap leafIds = columnPanes columns := by
    rw [List.flatMap_map, columnPanes]
    exact List.flatMap_congr fun c _ ↦ leafIds_columnNode c
  rw [columnsTree]
  split
  · rename_i child heq
    rw [heq, List.flatMap_singleton] at hall
    exact hall
  · rw [leafIds_split, hall]

theorem wellFormed_columnNode {c : Column} (h : c.Valid) : WellFormed (columnNode c) := by
  rw [columnNode]
  split
  · exact .leaf _
  · rename_i hsingle
    rw [wellFormed_split, List.length_map]
    refine ⟨?_, h.shares_ok, fun d hd ↦ ?_⟩
    · rcases hpanes : c.paneIds with _ | ⟨a, _ | ⟨b, ids⟩⟩
      · exact absurd hpanes h.paneIds_ne_nil
      · exact absurd hpanes (hsingle a)
      · simp
    · obtain ⟨id, -, rfl⟩ := List.mem_map.mp hd
      exact .leaf id

theorem MIN_COLUMN_WIDTH_pos : 0 < MIN_COLUMN_WIDTH := by norm_num [MIN_COLUMN_WIDTH]

theorem wellFormed_columnsTree {columns : List Column} (h : ∀ c ∈ columns, c.Valid)
    (hne : columns ≠ []) : WellFormed (columnsTree columns) := by
  have hchildren : ∀ d ∈ columns.map columnNode, WellFormed d := by
    intro d hd
    obtain ⟨c, hc, rfl⟩ := List.mem_map.mp hd
    exact wellFormed_columnNode (h c hc)
  rw [columnsTree]
  split
  · rename_i child heq
    exact hchildren child (by rw [heq]; exact List.mem_singleton_self child)
  · rename_i hsingle
    refine wellFormed_split.mpr ⟨?_, ?_, hchildren⟩
    · rcases columns with _ | ⟨a, _ | ⟨b, columns⟩⟩
      · exact absurd rfl hne
      · exact absurd rfl (hsingle (columnNode a))
      · simp
    · have hwidths := splitSizes_map_div (columns.map Column.width) (by simpa using hne) (by
        intro x hx
        obtain ⟨c, hc, rfl⟩ := List.mem_map.mp hx
        exact MIN_COLUMN_WIDTH_pos.trans_le (h c hc).width_ge)
      rw [List.length_map] at hwidths ⊢
      exact hwidths

/-! ## Placing a Pane among the columns -/

private theorem columnPanes_middle (l r : List Column) (c : Column) :
    (columnPanes (l ++ c :: r)).Perm (c.paneIds ++ columnPanes (l ++ r)) := by
  rw [columnPanes, columnPanes, List.flatMap_append, List.flatMap_append, List.flatMap_cons,
    ← List.append_assoc, ← List.append_assoc]
  exact List.perm_append_comm.append_right _

theorem columnPanes_insertAt (i : ℕ) (c : Column) (columns : List Column) :
    (columnPanes (insertAt i c columns)).Perm (c.paneIds ++ columnPanes columns) :=
  (insertAt_perm i c columns).flatMap_right Column.paneIds

private theorem getElem?_idxOf {ids : List String} {id : String} (h : id ∈ ids) :
    ids[ids.idxOf id]? = some id :=
  List.getElem?_eq_some_iff.mpr ⟨List.idxOf_lt_length_of_mem h, List.getElem_idxOf _⟩

private theorem valid_stackInColumn {c : Column} (h : c.Valid) (paneId : String)
    {targetId : String} (hmem : targetId ∈ c.paneIds) (offset : ℕ) :
    (stackInColumn c paneId targetId offset).Valid where
  paneIds_ne_nil := List.ne_nil_of_length_pos (by simp [stackInColumn])
  shares_ok := by
    have hshares := splitSizes_insertAt_halves (c.paneIds.idxOf targetId + offset)
      h.shares_ok (List.idxOf_lt_length_of_mem hmem)
    simpa only [stackInColumn, length_insertAt] using hshares
  width_ge := h.width_ge
  width_le := h.width_le

/-- What the columns show after a Pane was placed next to, or in place of, another one. -/
def placedPanes (ids : List String) (paneId targetId : String) : PaneDropZone → List String
  | .edge _ => paneId :: ids.filter (· ≠ paneId)
  | .replace => paneId :: (ids.filter (· ≠ paneId)).filter (· ≠ targetId)

/-- **Placing a Pane among the columns.** -/
theorem placeInColumns_post {used : Set String} {columns : List Column}
    (h : ColumnsOk used columns) (hnd : (columnPanes columns).Nodup) {paneId targetId : String}
    (hne : paneId ≠ targetId) (ht : targetId ∈ columnPanes columns) (zone : PaneDropZone) :
    Supply.Post used (placeInColumns columns paneId targetId zone) fun result used' ↦
      ColumnsOk used' result ∧
        (columnPanes result).Perm (placedPanes (columnPanes columns) paneId targetId zone) := by
  have hrest : ((columnPanes columns).filter (· ≠ paneId)).Nodup := hnd.filter _
  have htrest : targetId ∈ (columnPanes columns).filter (· ≠ paneId) := by
    rw [List.mem_filter, decide_eq_true_iff]
    exact ⟨ht, hne.symm⟩
  rw [placeInColumns]
  refine (reconcileColumns_post h _).bind fun cleaned used' _ ⟨hok, hperm⟩ ↦ ?_
  change (columnPanes cleaned).Perm ((columnPanes columns).filter (· ≠ paneId)).eraseDups at hperm
  rw [eraseDups_eq_self hrest] at hperm
  have hfound : targetId ∈ columnPanes cleaned := hperm.mem_iff.mpr htrest
  cases hfind : cleaned.findIdx? fun c ↦ targetId ∈ c.paneIds with
  | none =>
    obtain ⟨c, hc, hmem⟩ := List.mem_flatMap.mp hfound
    simpa [hmem] using List.findIdx?_eq_none_iff.mp hfind c hc
  | some index =>
    obtain ⟨hi, hmem, -⟩ := List.findIdx?_eq_some_iff_getElem.mp hfind
    have hcolumn : cleaned[index]? = some cleaned[index] := List.getElem?_eq_getElem hi
    rw [decide_eq_true_iff] at hmem
    have hvalid : (cleaned[index]).Valid := hok.valid _ (List.getElem_mem hi)
    generalize cleaned[index] = c at hcolumn hmem hvalid
    have hnew : ∀ i, Supply.Post used' (do return insertAt i (← newColumn paneId) cleaned)
        fun result used' ↦ ColumnsOk used' result ∧
          (columnPanes result).Perm (paneId :: (columnPanes columns).filter (· ≠ paneId)) := by
      intro i
      refine (newColumn_post paneId).bind fun d used'' _ ⟨hd, hpanes, hid, hused⟩ ↦
        Supply.Post.pure ?_
      subst hused
      refine ⟨(hok.cons hd hid).perm (insertAt_perm i d cleaned), ?_⟩
      refine (columnPanes_insertAt i d cleaned).trans ?_
      rw [hpanes, List.singleton_append]
      exact hperm.cons paneId
    have hstack : ∀ offset, ColumnsOk used'
          (cleaned.modify index (stackInColumn · paneId targetId offset)) ∧
        (columnPanes (cleaned.modify index (stackInColumn · paneId targetId offset))).Perm
          (paneId :: (columnPanes columns).filter (· ≠ paneId)) := by
      intro offset
      obtain ⟨l, r, hlr, -, hmod⟩ :=
        modify_eq_append_cons (stackInColumn · paneId targetId offset) hcolumn
      rw [hmod]
      refine ⟨(hlr ▸ hok).replace rfl (valid_stackInColumn hvalid paneId hmem offset), ?_⟩
      refine (columnPanes_middle l r _).trans (List.Perm.trans ?_ (hperm.cons paneId))
      rw [hlr]
      exact ((insertAt_perm _ _ _).append_right _).trans
        ((columnPanes_middle l r c).symm.cons paneId)
    cases zone with
    | edge e =>
      cases e with
      | left => exact hnew index
      | right => exact hnew (index + 1)
      | top => exact Supply.Post.pure (hstack 0)
      | bottom => exact Supply.Post.pure (hstack 1)
    | replace =>
      refine Supply.Post.pure ?_
      obtain ⟨l, r, hlr, -, hmod⟩ := modify_eq_append_cons (fun column : Column ↦
        { column with paneIds := column.paneIds.set (column.paneIds.idxOf targetId) paneId })
        hcolumn
      rw [hmod]
      have hset := set_perm (y := paneId) (getElem?_idxOf hmem)
      have hpanes : c.paneIds.set (c.paneIds.idxOf targetId) paneId ≠ [] :=
        List.ne_nil_of_length_pos (by simpa using List.length_pos_of_mem hmem)
      refine ⟨(hlr ▸ hok).replace rfl
        ⟨hpanes, by simpa using hvalid.shares_ok, hvalid.width_ge, hvalid.width_le⟩, ?_⟩
      refine List.Perm.cons_inv (a := targetId) ?_
      refine ((columnPanes_middle l r _).cons targetId).trans ?_
      rw [← List.cons_append]
      refine (hset.append_right _).trans ?_
      rw [List.cons_append]
      refine ((columnPanes_middle l r c).symm.cons paneId).trans ?_
      rw [← hlr]
      refine (hperm.cons paneId).trans ((List.Perm.cons paneId ?_).trans
        (List.Perm.swap targetId paneId _))
      rw [← erase_eq_filter_ne hrest]
      exact List.perm_cons_erase htrest

/-! ## Reconciling a saved tree -/

/-- The leaves of a tree that may be missing. -/
def optionLeaves (tree : Option LayoutNode) : List String := tree.elim [] leafIds

/-- A saved tree, if any, is well formed and repeats no leaf. -/
def TreeOk (tree : Option LayoutNode) : Prop :=
  ∀ n, tree = some n → WellFormed n ∧ (leafIds n).Nodup

private theorem dropStaleLeaves_spec (ids : List String) {tree : Option LayoutNode}
    (h : TreeOk tree) (leafId : String) : TreeOk (dropStaleLeaves ids tree leafId) ∧
      optionLeaves (dropStaleLeaves ids tree leafId)
        = (optionLeaves tree).filter fun id ↦ id ∈ ids ∨ id ≠ leafId := by
  rw [dropStaleLeaves]
  split
  · rename_i hmem
    refine ⟨h, (List.filter_eq_self.mpr fun id _ ↦ decide_eq_true ?_).symm⟩
    by_cases heq : id = leafId
    · exact Or.inl (heq ▸ hmem)
    · exact Or.inr heq
  · rename_i hmem
    cases tree with
    | none => exact ⟨by simp [TreeOk], rfl⟩
    | some n =>
      obtain ⟨hwf, hnd⟩ := h n rfl
      have hfilter : (leafIds n).filter (fun id ↦ id ∈ ids ∨ id ≠ leafId)
          = (leafIds n).filter (· ≠ leafId) := by
        refine List.filter_congr fun id _ ↦ decide_eq_decide.mpr (or_iff_right_of_imp ?_)
        rintro hid rfl
        exact hmem hid
      rw [Option.bind_some]
      refine ⟨fun m hm ↦ ⟨wellFormed_removePane hwf hm, ?_⟩, ?_⟩
      · rw [leafIds_of_removePane hm]
        exact hnd.filter _
      · exact (leafIds_removePane leafId n).trans hfilter.symm

theorem foldl_dropStaleLeaves (ids : List String) (leaves : List String) :
    ∀ {tree : Option LayoutNode}, TreeOk tree →
      TreeOk (leaves.foldl (dropStaleLeaves ids) tree) ∧
      optionLeaves (leaves.foldl (dropStaleLeaves ids) tree)
        = (optionLeaves tree).filter fun id ↦ id ∈ ids ∨ id ∉ leaves := by
  induction leaves with
  | nil => intro tree h; exact ⟨h, (List.filter_eq_self.mpr (by simp)).symm⟩
  | cons leafId leaves ih =>
    intro tree h
    obtain ⟨hok, hleaves⟩ := dropStaleLeaves_spec ids h leafId
    obtain ⟨hok', hleaves'⟩ := ih hok
    refine ⟨hok', hleaves'.trans ?_⟩
    rw [hleaves, List.filter_filter]
    refine List.filter_congr fun id _ ↦ ?_
    rw [← Bool.decide_and, decide_eq_decide, List.mem_cons, not_or]
    tauto

private theorem placeMissingLeaf_post {used : Set String} {tree : Option LayoutNode}
    (h : TreeOk tree) (id : String) :
    Supply.Post used (placeMissingLeaf tree id) fun tree' _ ↦ TreeOk tree' ∧
      id ∈ optionLeaves tree' ∧
      ∀ x, x ≠ id → (x ∈ optionLeaves tree' ↔ x ∈ optionLeaves tree) := by
  cases tree with
  | none =>
    refine Supply.Post.pure ⟨fun n hn ↦ ?_, by simp [optionLeaves], by simp [optionLeaves]⟩
    rw [← Option.some_inj.mp hn]
    exact ⟨.leaf id, List.nodup_singleton id⟩
  | some n =>
    obtain ⟨hwf, hnd⟩ := h n rfl
    rw [placeMissingLeaf]
    split
    · rename_i hmem
      exact Supply.Post.pure ⟨h, hmem, fun _ _ ↦ Iff.rfl⟩
    · rename_i hmem
      have hlast := List.getLast?_eq_some_getLast (leafIds_ne_nil hwf.hasLeaves)
      rw [hlast]
      refine (placePane_post hwf hnd hmem (List.getLast_mem _) .right).map
        fun m _ _ ⟨hwf', hperm⟩ ↦ ⟨fun n' hn' ↦ ?_, ?_, fun x hx ↦ ?_⟩
      · rw [← Option.some_inj.mp hn']
        exact ⟨hwf', hperm.nodup_iff.mpr (List.nodup_cons.mpr ⟨hmem, hnd⟩)⟩
      · exact hperm.mem_iff.mpr List.mem_cons_self
      · exact hperm.mem_iff.trans (List.mem_cons.trans (or_iff_right hx))

private theorem foldlM_placeMissingLeaf_post (ids : List String) : ∀ {used : Set String}
    {tree : Option LayoutNode}, TreeOk tree →
    Supply.Post used (ids.foldlM placeMissingLeaf tree) fun tree' _ ↦ TreeOk tree' ∧
      ∀ x, x ∈ optionLeaves tree' ↔ x ∈ ids ∨ x ∈ optionLeaves tree := by
  induction ids with
  | nil => intro used tree h; exact Supply.Post.pure ⟨h, by simp⟩
  | cons id ids ih =>
    intro used tree h
    rw [List.foldlM_cons]
    refine (placeMissingLeaf_post h id).bind fun tree₁ _ _ ⟨hok, hid, hmem⟩ ↦
      (ih hok).mono fun tree₂ _ _ ⟨hok₂, hmem₂⟩ ↦ ⟨hok₂, fun x ↦ ?_⟩
    rw [hmem₂, List.mem_cons]
    by_cases hx : x = id
    · subst hx
      simp [hid]
    · rw [hmem x hx]
      simp [hx]

/-- **Reconciling a saved tree.** The result shows exactly the ids. -/
theorem reconcileBsp_post {used : Set String} {saved : Option LayoutNode} (h : TreeOk saved)
    {ids : List String} (hnd : ids.Nodup) (hne : ids ≠ []) :
    Supply.Post used (reconcileBsp saved ids) fun tree _ ↦
      WellFormed tree ∧ (leafIds tree).Perm ids := by
  rw [reconcileBsp]
  have hleaves : (saved.map leafIds).getD [] = optionLeaves saved := by cases saved <;> rfl
  rw [hleaves]
  obtain ⟨hok, hkept⟩ := foldl_dropStaleLeaves ids (optionLeaves saved) h
  refine (foldlM_placeMissingLeaf_post ids hok).bind fun tree _ _ ⟨hok', hmem⟩ ↦ ?_
  have hids : ∀ x, x ∈ optionLeaves tree ↔ x ∈ ids := by
    intro x
    rw [hmem, hkept, List.mem_filter, decide_eq_true_iff]
    tauto
  cases tree with
  | none =>
    obtain ⟨x, hx⟩ := List.exists_mem_of_ne_nil ids hne
    exact absurd ((hids x).mpr hx) (by simp [optionLeaves])
  | some n =>
    obtain ⟨hwf, hnd'⟩ := hok' n rfl
    exact Supply.Post.pure ⟨hwf, (List.perm_ext_iff_of_nodup hnd' hnd).mpr hids⟩

end Awen.Workbench
