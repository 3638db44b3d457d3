import Awen.Workbench.LayoutSteps

/-!
# What a drop is to do

Every combination of drag source and drop target obeys one description, `Dropped`: the dragged View
leaves its place and lands in the Pane that is returned, at most the View under a center drop makes
room, no other View moves, and no other Tab changes. The description is stated here on the board and
the list of Tabs; that the drops obey it is proved in the modules that follow.
-/

namespace Awen.Workbench

variable {allowed : ViewTarget → Prop} {used used' : Set String}

/-! ## Where a drop takes from and what it replaces -/

/-- The View in a Pane of a Tab. -/
def viewAt (s : WorkbenchSnapshot) (location : PaneLocation) : Option ViewInstance :=
  (findTab s location.tabId).bind fun tab ↦ tab.panes.get location.paneId

/-- Where the dragged View is taken from. A dragged Tab stands for its first Pane; Sidebar content
is taken from nowhere, unless it is an open Session. -/
def dragOrigin (s : WorkbenchSnapshot) : ViewDragSource → Option PaneLocation
  | .tab tabId => (findTab s tabId).bind fun tab ↦
      (firstLeafId tab.layout).toOption.map fun paneId ↦ ⟨tabId, paneId⟩
  | .pane tabId paneId => some ⟨tabId, paneId⟩
  | .sidebar target => findSessionViewPane s target

/-- The Pane whose View makes room for the dragged one: the one under a center drop, unless a Tab is
dropped, a Pane is dropped within its Tab, or a Session where it is already open. -/
def replacedPane (s : WorkbenchSnapshot) (source : ViewDragSource) :
    ViewDropTarget → Option PaneLocation
  | .pane tabId paneId .replace =>
    match source with
    | .tab _ => none
    | .pane sourceTabId _ => if sourceTabId = tabId then none else some ⟨tabId, paneId⟩
    | .sidebar target =>
      if findSessionViewPane s target = some ⟨tabId, paneId⟩ then none else some ⟨tabId, paneId⟩
  | _ => none

/-- The Tab a drop targets, if it is not a new one. -/
def ViewDropTarget.tabId? : ViewDropTarget → Option String
  | .pane tabId _ _ => some tabId
  | .existingTab tabId => some tabId
  | .newTab _ => none

/-- Whether the Tab, and the Pane, that a drop targets exist. -/
def dropLands (s : WorkbenchSnapshot) : ViewDropTarget → Bool
  | .pane tabId paneId _ => (viewAt s ⟨tabId, paneId⟩).isSome
  | .existingTab tabId => (findTab s tabId).isSome
  | .newTab _ => true

/-- The part of the board at a place that may hold a View. -/
def boardAt (s : WorkbenchSnapshot) (location : Option PaneLocation) : Board :=
  location.elim 0 fun location ↦ (viewAt s location).elim 0 fun view ↦
    placedBoard ⟨location.tabId, location.paneId, view⟩

/-- The source Tab and the target Tab. -/
def touchedTabs (s : WorkbenchSnapshot) (source : ViewDragSource) (target : ViewDropTarget) :
    List String :=
  (dragOrigin s source).toList.map PaneLocation.tabId ++ target.tabId?.toList

/-- The Tab that a drop moves, takes away or inserts. -/
def movedTabs (source : ViewDragSource) (target : ViewDropTarget) (tabId : String) : List String :=
  match source, target with
  | .tab sourceTabId, _ => [sourceTabId]
  | _, .newTab _ => [tabId]
  | _, _ => []

/-- Whether a Tab is moved along the tab strip. -/
def isStripMove : ViewDragSource → ViewDropTarget → Bool
  | .tab _, .pane _ _ _ => false
  | .tab _, _ => true
  | _, _ => false

/-- The Tabs without some of them. -/
def tabsExcept (ids : List String) (tabs : List WorkbenchTab) : List WorkbenchTab :=
  tabs.filter fun tab ↦ tab.id ∉ ids

/-- The View that is dragged: the one at the origin, or a fresh one of the Sidebar content. -/
inductive Drags (used used' : Set String) (s : WorkbenchSnapshot) (source : ViewDragSource)
    (view : ViewInstance) : Prop
  | existing (location : PaneLocation) (origin_eq : dragOrigin s source = some location)
      (view_eq : viewAt s location = some view)
  | fresh (target : ViewTarget) (source_eq : source = .sidebar target)
      (not_open : findSessionViewPane s target = none)
      (view_fresh : FreshView used used' target view)

/-- The View stays where it is, or arrives in the target Tab or a new one, where nothing has its
key unless Sidebar content was dropped. -/
inductive Lands (used : Set String) (s : WorkbenchSnapshot) (source : ViewDragSource)
    (target : ViewDropTarget) (a : Placed) (rest : Board) : Prop
  | stays (origin_eq : dragOrigin s source = some ⟨a.tabId, a.paneId⟩)
      (not_replaced : replacedPane s source target = none)
  | arrives (tabId_eq : target.tabId? = some a.tabId ∨ a.tabId ∉ used)
      (tabKey_new : (∀ t, source ≠ .sidebar t) → Unclaimed Placed.tabKey a rest)

/-- **What a drop did**, with the View that was dragged and the part of the board that took no part
in it. -/
structure Dropped (used used' : Set String) (s : WorkbenchSnapshot) (source : ViewDragSource)
    (target : ViewDropTarget) (r : ViewDropResult) (view : ViewInstance) (rest : Board) :
    Prop where
  drags : Drags used used' s source view
  holds : viewAt r.snapshot ⟨r.tabId, r.paneId⟩ = some view
  before : board s.tabs = boardAt s (dragOrigin s source)
    + (boardAt s (replacedPane s source target) + rest)
  after : board r.snapshot.tabs = placedBoard ⟨r.tabId, r.paneId, view⟩ + rest
  lands : Lands used s source target ⟨r.tabId, r.paneId, view⟩ rest
  target_exists : (∃ sidebar, source = .sidebar sidebar) → dropLands s target = true
  makes_room : ∀ p ∈ rest, replacedPane s source target ≠ some ⟨p.tabId, p.paneId⟩
  strip_move : isStripMove source target = true → dragOrigin s source = some ⟨r.tabId, r.paneId⟩
  tabs_match : TabsMatch (touchedTabs s source target)
    (tabsExcept (movedTabs source target r.tabId) s.tabs)
    (tabsExcept (movedTabs source target r.tabId) r.snapshot.tabs)

/-- A drop that returns a result keeps the invariant and did what `Dropped` says. The names `used'`
are in use where `m` starts, those of `used` before the drop. -/
def DropOk (allowed : ViewTarget → Prop) (used used' : Set String) (s : WorkbenchSnapshot)
    (source : ViewDragSource) (target : ViewDropTarget)
    (m : WorkbenchM (Option ViewDropResult)) : Prop :=
  Supply.Post used' m fun result used'' ↦ ∀ r, result = some r →
    SnapshotOk allowed used'' r.snapshot ∧
      ∃ view rest, Dropped used used'' s source target r view rest

theorem dropOk_none {s : WorkbenchSnapshot} {source : ViewDragSource} {target : ViewDropTarget} :
    DropOk allowed used used' s source target (pure none) :=
  Supply.Post.pure fun _ hr ↦ by cases hr

/-! ## Views in their places -/

theorem viewAt_of_mem {s : WorkbenchSnapshot} (h : SnapshotOk allowed used s) {t : WorkbenchTab}
    (ht : t ∈ s.tabs) {paneId : String} {view : ViewInstance}
    (hget : t.panes.get paneId = some view) : viewAt s ⟨t.id, paneId⟩ = some view := by
  obtain ⟨l, r, htabs⟩ := List.append_of_mem ht
  have hnew := (tabsOk_middle.mp (htabs ▸ h.tabs_ok)).2.2.2.1
  rw [viewAt, findTab_middle htabs hnew, Option.bind_some, hget]

theorem viewAt_eq_some {s : WorkbenchSnapshot} {location : PaneLocation} {view : ViewInstance}
    (h : viewAt s location = some view) :
    ∃ l t r, s.tabs = l ++ t :: r ∧ t.id = location.tabId ∧
      t.panes.get location.paneId = some view := by
  obtain ⟨t, hfind, hget⟩ := Option.bind_eq_some_iff.mp h
  obtain ⟨hid, l, r, htabs⟩ := findTab_eq_some hfind
  exact ⟨l, t, r, htabs, hid, hget⟩

theorem boardAt_none (s : WorkbenchSnapshot) : boardAt s none = 0 := rfl

theorem boardAt_some {s : WorkbenchSnapshot} {location : PaneLocation} {view : ViewInstance}
    (h : viewAt s location = some view) :
    boardAt s (some location) = placedBoard ⟨location.tabId, location.paneId, view⟩ := by
  rw [boardAt, Option.elim_some, h, Option.elim_some]

/-- The board of a Tab without one Pane. -/
def tabBoardExcept (t : WorkbenchTab) (paneId : String) : Board :=
  (realEntries (t.panes.delete paneId).entries).map (placeEntry t.id)

theorem tabBoard_eq {t : WorkbenchTab} {paneId : String} {view : ViewInstance}
    (hget : t.panes.get paneId = some view) :
    tabBoard t = placedBoard ⟨t.id, paneId, view⟩ + tabBoardExcept t paneId := by
  rw [tabBoard, realEntries_perm (OrderedMap.entries_perm_of_get hget), map_realEntries_cons]
  rfl

theorem mem_tabBoardExcept {t : WorkbenchTab} {paneId : String} {p : Placed}
    (hp : p ∈ tabBoardExcept t paneId) : p.tabId = t.id ∧ p.paneId ≠ paneId ∧
      (p.paneId, p.view) ∈ t.panes.entries := by
  obtain ⟨e, he, rfl⟩ := Multiset.mem_map.mp hp
  have hmem := (mem_realEntries.mp he).1
  rw [OrderedMap.entries_delete, List.mem_filter, decide_eq_true_iff] at hmem
  exact ⟨rfl, hmem.2, hmem.1⟩

/-- A Tab that shows no View of a target leaves its key unclaimed. -/
theorem unclaimed_of_findPaneByTarget {t : WorkbenchTab} {a : Placed} {rest : Board}
    (hnone : findPaneByTarget t a.view.target = none)
    (h : ∀ p ∈ rest, p.tabId = a.tabId → (p.paneId, p.view) ∈ t.panes.entries) :
    Unclaimed Placed.tabKey a rest :=
  unclaimed_tabKey fun p hp htab ↦ findPaneByTarget_eq_none.mp hnone _ (h p hp htab)

/-- In a new Tab every key is unclaimed. -/
theorem unclaimed_of_new_tab {s : WorkbenchSnapshot} (h : SnapshotOk allowed used s) {a : Placed}
    (hnew : a.tabId ∉ used) {rest : Board} (hrest : rest ≤ board s.tabs) :
    Unclaimed Placed.tabKey a rest := by
  refine unclaimed_tabKey fun p hp htab ↦ ?_
  obtain ⟨t, ht, hid, -⟩ := entry_of_mem_board (Multiset.mem_of_le hrest hp)
  exact absurd (htab ▸ hid ▸ h.tabs_ok.ids_used t ht) hnew

/-! ## Tabs that take no part -/

theorem tabsExcept_nil (tabs : List WorkbenchTab) : tabsExcept [] tabs = tabs :=
  List.filter_eq_self.mpr fun _ _ ↦ rfl

theorem tabsExcept_insertAt (i : ℕ) (t : WorkbenchTab) (tabs : List WorkbenchTab) :
    tabsExcept [t.id] (insertAt i t tabs) = tabsExcept [t.id] tabs := by
  rw [tabsExcept, insertAt, List.filter_append, List.filter_cons_of_neg (by simp),
    ← List.filter_append, List.take_append_drop]
  rfl

theorem tabsExcept_middle {l r : List WorkbenchTab} {t : WorkbenchTab}
    (hnew : t.id ∉ (l ++ r).map fun t ↦ t.id) : tabsExcept [t.id] (l ++ t :: r) = l ++ r := by
  rw [← filter_id_middle hnew]
  exact List.filter_congr fun u _ ↦ by simp

theorem TabsMatch.except {touched ids : List String} {ts ts' : List WorkbenchTab}
    (h : TabsMatch touched ts ts') :
    TabsMatch touched (tabsExcept ids ts) (tabsExcept ids ts') := by
  induction h with
  | nil => exact .nil
  | @cons t t' ts ts' ht _ ih =>
    rw [tabsExcept, tabsExcept, List.filter_cons, List.filter_cons, ht.id_eq]
    split
    · exact .cons ht ih
    · exact ih

end Awen.Workbench
