import Awen.Workbench.DropSteps

/-!
# Dropping Sidebar content, and every drop

Sidebar content is a fresh View, or the one View of an open Session taken out of its Tab; from there
on the two are dropped alike. The module ends with what all drops have in common: a drop is a step
of the board, and it conserves Views.
-/

namespace Awen.Workbench

variable {allowed : ViewTarget → Prop} {used used' : Set String}

/-! ## Sidebar content -/

/-- The one View of an open Session, taken out of its Tab. -/
structure Taken (allowed : ViewTarget → Prop) (used used' : Set String) (s : WorkbenchSnapshot)
    (target : ViewTarget) (s₁ : WorkbenchSnapshot) (view : ViewInstance)
    (location : PaneLocation) : Prop where
  found : findSessionViewPane s target = some location
  view_eq : viewAt s location = some view
  others : ∀ other anchor, viewAt s other = some anchor → other ≠ location →
    viewAt s₁ other = some anchor
  tabs_match : TabsMatch [location.tabId] s.tabs s₁.tabs
  ok : SnapshotOk allowed used' s₁
  entries_ok : EntriesOk allowed used' ((location.paneId, view) :: entriesOf s₁.tabs)
  board_eq : board s.tabs = placedBoard ⟨location.tabId, location.paneId, view⟩ + board s₁.tabs

/-- **Taking the View of a dragged Session.** -/
theorem takeDraggedSessionView_post {s : WorkbenchSnapshot} (h : SnapshotOk allowed used s)
    (hwelcome : allowed welcomeTarget) (target : ViewTarget) :
    Supply.Post used (takeDraggedSessionView s target) fun result used' ↦
      result = none ∧ findSessionViewPane s target = none ∨ ∃ s₁ view location,
        result = some (s₁, view, location) ∧
        Taken allowed used used' s target s₁ view location := by
  rw [takeDraggedSessionView]
  split
  · rename_i hfind
    exact Supply.Post.pure (Or.inl ⟨rfl, hfind⟩)
  · rename_i location hfind
    obtain ⟨l, t, r, view, htabs, hid, hget, -⟩ := findSessionViewPane_eq_some hfind
    have hmem : t ∈ s.tabs := htabs ▸ List.mem_append_right _ List.mem_cons_self
    refine (detachView_post h hwelcome htabs hid hget).bind
      fun result used₁ hsub ⟨s₁, t₁, hresult, htabs₁, hid₁, hfill, hd⟩ ↦ ?_
    subst hresult
    have hmatch : TabsMatch [location.tabId] s.tabs s₁.tabs := by
      rw [htabs, htabs₁, ← hid]
      exact tabsMatch_middle l r hid₁
    have hview := viewAt_of_mem h hmem hget
    rw [hid] at hview
    refine Supply.Post.pure (Or.inr ⟨s₁, view, location, rfl, {
      found := hfind
      view_eq := hview
      others := fun other anchor hother hne ↦ ?_
      tabs_match := hmatch
      ok := hd.ok
      entries_ok := hd.entries_ok
      board_eq := by rw [← hid]; exact hd.board_eq }⟩)
    obtain ⟨l', t', r', htabs', hid', hget'⟩ := viewAt_eq_some hother
    have hmem' : t' ∈ s.tabs := htabs' ▸ List.mem_append_right _ List.mem_cons_self
    by_cases hsame : t'.id = t.id
    · -- the other Pane is in the same Tab, which it keeps from being cleared
      have heq : t' = t := List.inj_on_of_nodup_map h.tabs_ok.nodup_ids hmem' hmem hsame
      subst heq
      have hpane : other.paneId ≠ location.paneId := fun hp ↦
        hne (PaneLocation.ext (hid'.symm.trans hid) hp)
      have hdel : (t'.panes.delete location.paneId).get other.paneId = some anchor :=
        (OrderedMap.get_delete_of_ne hpane).trans hget'
      have hgot : t₁.panes.get other.paneId = some anchor := by
        generalize hes : t₁.panes.entries = es at hfill
        cases hfill with
        | keep =>
          rw [OrderedMap.ext hes]
          exact hdel
        | welcome _ _ hnil =>
          have hin := OrderedMap.get_eq_some.mp hdel
          rw [hnil] at hin
          cases hin
      have hat := viewAt_of_mem hd.ok (t := t₁)
        (htabs₁ ▸ List.mem_append_right _ List.mem_cons_self) hgot
      rwa [hid₁, hid'] at hat
    · have hat := viewAt_of_mem hd.ok (hmatch.mem hmem' fun hin ↦
        hsame ((List.mem_singleton.mp hin).trans hid.symm)) hget'
      rwa [hid'] at hat

/-- What dropping Sidebar content on an existing Tab leaves to show: that its View, fresh or taken
out of its Tab, is placed there. -/
private theorem dropped_of_placed {s s₁ : WorkbenchSnapshot} {target : ViewTarget}
    {view anchor : ViewInstance} {origin : Board}
    (hdrags : ∀ used'', used' ⊆ used'' → Drags used used'' s (.sidebar target) view)
    (horigin : boardAt s (dragOrigin s (.sidebar target)) = origin)
    (hboard : board s.tabs = origin + board s₁.tabs) (hok : SnapshotOk allowed used' s₁)
    (hview : ViewFits allowed used' (entriesOf s₁.tabs) view) {l r : List WorkbenchTab}
    {t : WorkbenchTab} (htabs : s₁.tabs = l ++ t :: r) {anchorPaneId : String}
    {zone : PaneDropZone} (hget : t.panes.get anchorPaneId = some anchor)
    {dropTarget : ViewDropTarget} (htid : dropTarget.tabId? = some t.id)
    (hmoved : movedTabs (.sidebar target) dropTarget t.id = [])
    (hreplaced : boardAt s (replacedPane s (.sidebar target) dropTarget)
      = replacedBoard t { anchorPaneId, zone } anchor)
    (hplace : ∀ location, replacedPane s (.sidebar target) dropTarget = some location →
      zone = .replace ∧ location = ⟨t.id, anchorPaneId⟩)
    (hmatch : TabsMatch (touchedTabs s (.sidebar target) dropTarget) s.tabs s₁.tabs)
    (hexists : dropLands s dropTarget = true) :
    DropOk allowed used used' s (.sidebar target) dropTarget (do
      let (placed, paneId) ← placeViewInTab t view { anchorPaneId, zone }
      let snapshot ← updateTab s₁ placed
      return some { snapshot, tabId := t.id, paneId }) := by
  have hpost := (placeAndUpdate_post hok htabs hview { anchorPaneId, zone } hget (by simp)).map
    (f := fun p ↦ some (⟨p.1, t.id, p.2⟩ : ViewDropResult))
    (Q := fun result used'' ↦ ∀ r, result = some r → SnapshotOk allowed used'' r.snapshot ∧
      ∃ view rest, Dropped used used'' s (.sidebar target) dropTarget r view rest) (by
    rintro ⟨s', paneId⟩ used₂ hsub₂ ⟨hok', -, ⟨t', htabs', hid', hgot⟩, rest, hbefore, hafter,
      hfree⟩ r₀ hr
    cases hr
    have hin : t' ∈ s'.tabs := htabs' ▸ List.mem_append_right _ List.mem_cons_self
    refine ⟨hok', view, rest, {
      drags := hdrags used₂ hsub₂
      holds := hid' ▸ viewAt_of_mem hok' hin hgot
      before := by rw [horigin, hreplaced, hboard, hbefore]
      after := hafter
      lands := .arrives (Or.inl htid) fun hnot ↦ absurd rfl (hnot target)
      makes_room := fun p hp heq ↦ ?_
      strip_move := fun hstrip ↦ by cases hstrip
      target_exists := fun _ ↦ hexists
      tabs_match := ?_ }⟩
    · obtain ⟨hzone, hloc⟩ := hplace _ heq
      exact hfree p hp hzone hloc
    · rw [hmoved, tabsExcept_nil, tabsExcept_nil, htabs']
      refine hmatch.trans (htabs ▸ (tabsMatch_middle l r hid').mono fun x hx ↦ ?_)
      rw [touchedTabs, htid]
      exact List.mem_append_right _ hx)
  simpa [DropOk] using hpost

/-- Dropping an open Session where it is focuses it. -/
private theorem dropped_of_focused {s s₁ : WorkbenchSnapshot} (h : SnapshotOk allowed used s)
    {target : ViewTarget} {view : ViewInstance} {location : PaneLocation}
    (ht : Taken allowed used used' s target s₁ view location) (hsub : used ⊆ used')
    {dropTarget : ViewDropTarget}
    (hreplaced : replacedPane s (.sidebar target) dropTarget = none)
    (hexists : dropLands s dropTarget = true)
    (hmoved : movedTabs (.sidebar target) dropTarget location.tabId = []) :
    DropOk allowed used used' s (.sidebar target) dropTarget (do
      let snapshot ← focusPane s location
      return some { snapshot, tabId := location.tabId, paneId := location.paneId }) := by
  refine (focusPane_post (h.mono hsub) location).bind
    fun s' used₂ _ ⟨hok, _, hfocus⟩ ↦ Supply.Post.pure fun r₀ hr ↦ ?_
  cases hr
  obtain ⟨l, t, r, htabs, hid, hget⟩ := viewAt_eq_some ht.view_eq
  have hmem : t ∈ s.tabs := htabs ▸ List.mem_append_right _ List.mem_cons_self
  have hmoves := hfocus (List.mem_map.mpr ⟨t, hmem, hid⟩)
  refine ⟨hok, view, board s₁.tabs, {
    drags := .existing location ht.found ht.view_eq
    holds := ?_
    before := by
      rw [hreplaced, boardAt_none, zero_add, dragOrigin, ht.found, boardAt_some ht.view_eq,
        ht.board_eq]
    after := hmoves.board_eq.trans ht.board_eq
    lands := .stays ht.found hreplaced
    makes_room := fun _ _ ↦ by simp [hreplaced]
    strip_move := fun hstrip ↦ by cases hstrip
    target_exists := fun _ ↦ hexists
    tabs_match := ?_ }⟩
  · obtain ⟨t', ht', hid', hpanes⟩ := hmoves.keeps_panes t hmem
    have hgot := viewAt_of_mem hok ht' (hpanes ▸ hget)
    rwa [hid', hid] at hgot
  · rw [hmoved, tabsExcept_nil, tabsExcept_nil]
    refine hmoves.tabs_match.mono fun x hx ↦ List.mem_append_left _ ?_
    rw [dragOrigin, ht.found]
    exact hx

/-- **Sidebar content on a Tab.** -/
private theorem dropSidebarInTab_ok {s : WorkbenchSnapshot} (h : SnapshotOk allowed used s)
    (hwelcome : allowed welcomeTarget) {target : ViewTarget} (hallowed : allowed target)
    (tabId : String) :
    DropOk allowed used used s (.sidebar target) (.existingTab tabId)
      (dropSidebar s target (.existingTab tabId)) := by
  rw [dropSidebar]
  split
  · exact dropOk_none
  rename_i tgt hfind
  obtain ⟨rfl, -⟩ := findTab_eq_some hfind
  have hexists : dropLands s (.existingTab tgt.id) = true := by rw [dropLands, hfind]; rfl
  -- the View lands in the Tab of the snapshot it was taken from
  have hopen : ∀ {used₁ : Set String} {s₁ : WorkbenchSnapshot} {view : ViewInstance}
    {origin : Board},
      (∀ used₂, used₁ ⊆ used₂ → Drags used used₂ s (.sidebar target) view) →
      boardAt s (dragOrigin s (.sidebar target)) = origin →
      board s.tabs = origin + board s₁.tabs → SnapshotOk allowed used₁ s₁ →
      ViewFits allowed used₁ (entriesOf s₁.tabs) view →
      TabsMatch (touchedTabs s (.sidebar target) (.existingTab tgt.id)) s.tabs s₁.tabs →
      DropOk allowed used used₁ s (.sidebar target) (.existingTab tgt.id)
        (openSidebarViewInTab s₁ tgt.id view) := by
    intro used₁ s₁ view origin hdrags horigin hboard hok hview hmatch
    rw [openSidebarViewInTab]
    split
    · exact dropOk_none
    rename_i t hfind₁
    obtain ⟨hid, l, r, htabs⟩ := findTab_eq_some hfind₁
    rw [← hid] at hmatch hexists ⊢
    obtain ⟨anchor, anchorView, hanchor, hget⟩ := anchorIn_spec
      (hok.tabs_ok.tab_ok t (htabs ▸ List.mem_append_right _ List.mem_cons_self)) t.focusedPaneId
    refine (Supply.Post.ofExcept hanchor (Q := fun a used' ↦ a = anchor ∧ used' = used₁)
      ⟨rfl, rfl⟩).bind fun a used₂ _ ⟨ha, hused⟩ ↦ ?_
    subst ha hused
    have htabs' := tabs_applyActivateTab s₁ t.id
    exact dropped_of_placed hdrags horigin (htabs'.symm ▸ hboard)
      (snapshotOk_applyActivateTab hok t.id) (htabs'.symm ▸ hview) (htabs'.trans htabs) hget rfl rfl
      rfl (fun _ hlocation ↦ by cases hlocation) (htabs'.symm ▸ hmatch) hexists
  refine (takeDraggedSessionView_post h hwelcome target).bind fun result used₁ hsub htaken ↦ ?_
  rcases htaken with ⟨rfl, hnone⟩ | ⟨s₁, view, location, rfl, ht⟩
  · refine (viewInstance_post target).bind fun view used₂ hsub₂ hview ↦ ?_
    have hfresh : FreshView used used₂ target view :=
      { hview with fresh := fun hmem ↦ hview.fresh (hsub hmem) }
    exact hopen (fun used₃ hsub₃ ↦ .fresh target rfl hnone
      { hfresh with used_mem := hsub₃ hfresh.used_mem }) (by rw [dragOrigin, hnone, boardAt_none])
      (zero_add _).symm (h.mono (hsub.trans hsub₂)) (hfresh.fits h.tabs_ok.entries_ok hallowed)
      (TabsMatch.refl _ _)
  · dsimp only
    split
    · rename_i hsame
      rw [← hsame]
      exact dropped_of_focused h ht hsub rfl (hsame ▸ hexists) rfl
    · obtain ⟨-, -, hv, -, hvu, ha, hd⟩ := entriesOk_cons.mp ht.entries_ok
      refine hopen (fun _ _ ↦ .existing location ht.found ht.view_eq)
        (by rw [dragOrigin, ht.found, boardAt_some ht.view_eq]) ht.board_eq ht.ok ⟨hv, hvu, ha, hd⟩
        (ht.tabs_match.mono fun x hx ↦ List.mem_append_left _ ?_)
      rw [dragOrigin, ht.found]
      exact hx

/-- **Sidebar content on a Pane.** -/
private theorem dropSidebarInPane_ok {s : WorkbenchSnapshot} (h : SnapshotOk allowed used s)
    (hwelcome : allowed welcomeTarget) {target : ViewTarget} (hallowed : allowed target)
    (tabId targetPaneId : String) (zone : PaneDropZone) :
    DropOk allowed used used s (.sidebar target) (.pane tabId targetPaneId zone)
      (dropSidebar s target (.pane tabId targetPaneId zone)) := by
  rw [dropSidebar]
  split
  · exact dropOk_none
  rename_i tgt hfind
  obtain ⟨rfl, l₀, r₀, htabs₀⟩ := findTab_eq_some hfind
  have hmem : tgt ∈ s.tabs := htabs₀ ▸ List.mem_append_right _ List.mem_cons_self
  split
  · exact dropOk_none
  rename_i hhas
  rw [Bool.not_eq_false, OrderedMap.has_eq_true] at hhas
  obtain ⟨anchor, hanchor⟩ := OrderedMap.mem_keys.mp hhas
  have hat := viewAt_of_mem h hmem hanchor
  have hexists : dropLands s (.pane tgt.id targetPaneId zone) = true := by rw [dropLands, hat]; rfl
  -- the View lands in the Pane of the snapshot it was taken from, which still shows the anchor
  have hplace : ∀ {used₁ : Set String} {s₁ : WorkbenchSnapshot} {view : ViewInstance}
      {origin : Board}, findSessionViewPane s target ≠ some ⟨tgt.id, targetPaneId⟩ →
      viewAt s₁ ⟨tgt.id, targetPaneId⟩ = some anchor →
      (∀ used₂, used₁ ⊆ used₂ → Drags used used₂ s (.sidebar target) view) →
      boardAt s (dragOrigin s (.sidebar target)) = origin →
      board s.tabs = origin + board s₁.tabs → SnapshotOk allowed used₁ s₁ →
      ViewFits allowed used₁ (entriesOf s₁.tabs) view →
      TabsMatch (touchedTabs s (.sidebar target) (.pane tgt.id targetPaneId zone)) s.tabs s₁.tabs →
      DropOk allowed used used₁ s (.sidebar target) (.pane tgt.id targetPaneId zone)
        (placeSidebarViewInPane s₁ view tgt.id targetPaneId zone) := by
    intro used₁ s₁ view origin hnot hat₁ hdrags horigin hboard hok hview hmatch
    rw [placeSidebarViewInPane]
    split
    · exact dropOk_none
    rename_i t hfind₁
    obtain ⟨hid, l, r, htabs⟩ := findTab_eq_some hfind₁
    split
    case isFalse => exact dropOk_none
    have hget : t.panes.get targetPaneId = some anchor := by
      rwa [viewAt, hfind₁, Option.bind_some] at hat₁
    rw [← hid] at hnot hat ⊢
    refine dropped_of_placed hdrags horigin hboard hok hview htabs hget rfl rfl ?_ ?_ (hid ▸ hmatch)
      (hid ▸ hexists)
    · cases zone with
      | replace =>
        rw [replacedPane, if_neg hnot, boardAt_some hat]
        rfl
      | edge edge => rfl
    · intro location hlocation
      cases zone with
      | replace =>
        rw [replacedPane, if_neg hnot, Option.some_inj] at hlocation
        exact ⟨rfl, hlocation.symm⟩
      | edge edge => cases hlocation
  refine (takeDraggedSessionView_post h hwelcome target).bind fun result used₁ hsub htaken ↦ ?_
  rcases htaken with ⟨rfl, hnone⟩ | ⟨s₁, view, location, rfl, ht⟩
  · refine (viewInstance_post target).bind fun view used₂ hsub₂ hview ↦ ?_
    have hfresh : FreshView used used₂ target view :=
      { hview with fresh := fun hmem ↦ hview.fresh (hsub hmem) }
    exact hplace (by rw [hnone]; simp) hat (fun used₃ hsub₃ ↦ .fresh target rfl hnone
      { hfresh with used_mem := hsub₃ hfresh.used_mem }) (by rw [dragOrigin, hnone, boardAt_none])
      (zero_add _).symm (h.mono (hsub.trans hsub₂)) (hfresh.fits h.tabs_ok.entries_ok hallowed)
      (TabsMatch.refl _ _)
  · dsimp only
    split
    · rename_i hsame
      have hlocation : location = ⟨tgt.id, targetPaneId⟩ := PaneLocation.ext hsame.1 hsame.2
      subst hlocation
      refine dropped_of_focused h ht hsub ?_ hexists rfl
      cases zone with
      | replace => exact if_pos ht.found
      | edge edge => rfl
    · rename_i hother
      have hne : (⟨tgt.id, targetPaneId⟩ : PaneLocation) ≠ location := fun heq ↦
        hother (heq ▸ ⟨rfl, rfl⟩)
      obtain ⟨-, -, hv, -, hvu, ha, hd⟩ := entriesOk_cons.mp ht.entries_ok
      refine hplace (fun heq ↦ hne (Option.some_inj.mp (heq.symm.trans ht.found)))
        (ht.others _ _ hat hne) (fun _ _ ↦ .existing location ht.found ht.view_eq)
        (by rw [dragOrigin, ht.found, boardAt_some ht.view_eq]) ht.board_eq ht.ok ⟨hv, hvu, ha, hd⟩
        (ht.tabs_match.mono fun x hx ↦ List.mem_append_left _ ?_)
      rw [dragOrigin, ht.found]
      exact hx

/-- **Dropping Sidebar content.** -/
theorem dropSidebar_ok {s : WorkbenchSnapshot} (h : SnapshotOk allowed used s)
    (hwelcome : allowed welcomeTarget) {target : ViewTarget} (hallowed : allowed target)
    (dropTarget : ViewDropTarget) :
    DropOk allowed used used s (.sidebar target) dropTarget (dropSidebar s target dropTarget) := by
  cases dropTarget with
  | existingTab tabId => exact dropSidebarInTab_ok h hwelcome hallowed tabId
  | pane tabId paneId zone => exact dropSidebarInPane_ok h hwelcome hallowed tabId paneId zone
  | newTab index =>
    rw [dropSidebar]
    refine (takeDraggedSessionView_post h hwelcome target).bind fun result used₁ hsub htaken ↦ ?_
    rcases htaken with ⟨rfl, hnone⟩ | ⟨s₁, view, location, rfl, ht⟩
    · refine (viewInstance_post target).bind fun view used₂ hsub₂ hview ↦ ?_
      have hfresh : FreshView used used₂ target view :=
        { hview with fresh := fun hmem ↦ hview.fresh (hsub hmem) }
      refine generateId_post.bind fun paneId used₃ hsub₃ ⟨hpane, hused₃⟩ ↦ ?_
      have hes := h.tabs_ok.entries_ok
      have hnew : paneId ∉ (entriesOf s.tabs).map Prod.fst := fun hmem ↦ by
        obtain ⟨e, he, heq⟩ := List.mem_map.mp hmem
        exact hpane (hsub₂ (hsub (heq ▸ hes.paneIds_used e he)))
      have hsub₁₃ := hsub.trans (hsub₂.trans hsub₃)
      refine dropped_of_inserted h hsub₁₃ (fun used₄ hsub₄ ↦ .fresh target rfl hnone
        { hfresh with used_mem := hsub₄ (hsub₃ hfresh.used_mem) })
        (by rw [dragOrigin, hnone, boardAt_none]) (zero_add _).symm (TabsMatch.refl _ _)
        (fun _ ↦ by simp) (h.mono hsub₁₃) ?_
      exact ((hfresh.fits hes hallowed).mono hsub₃).cons (hes.mono hsub₁₃) hnew
        (hused₃ ▸ Set.mem_insert paneId _)
    · refine dropped_of_inserted h hsub (fun _ _ ↦ .existing location ht.found ht.view_eq)
        (by rw [dragOrigin, ht.found, boardAt_some ht.view_eq]) ht.board_eq
        (ht.tabs_match.mono fun x hx ↦ List.mem_append_left _ ?_) (fun _ ↦ by simp) ht.ok
        ht.entries_ok
      rw [dragOrigin, ht.found]
      exact hx

/-! ## One rule for every drop -/

/-- Sidebar content has to be allowed to be opened. -/
def ViewDragSource.targets : ViewDragSource → Option ViewTarget
  | .sidebar target => some target
  | _ => none

/-- **A drop.** -/
theorem applyViewDrop_post {s : WorkbenchSnapshot} (h : SnapshotOk allowed used s)
    (hwelcome : allowed welcomeTarget) {source : ViewDragSource}
    (hallowed : ∀ target ∈ source.targets, allowed target) (target : ViewDropTarget) :
    DropOk allowed used used s source target (applyViewDrop s source target) := by
  cases source with
  | tab tabId => exact dropTab_ok h tabId target
  | pane tabId paneId => exact dropPane_ok h hwelcome tabId paneId target
  | sidebar sourceTarget => exact dropSidebar_ok h hwelcome (hallowed _ rfl) target

/-- What a drop may do to the board. -/
def dropRule (s : WorkbenchSnapshot) (source : ViewDragSource) (target : ViewDropTarget) :
    CommandRule where
  target := source.targets
  opens := dropLands s target = true
  destination := target.tabId?
  givenUp := replacedPane s source target
  checked := source.targets = none
  closes := replacedPane s source target ≠ none

/-- An open Session has no key of its own in a Tab. -/
theorem tabKey_of_findSessionViewPane {s : WorkbenchSnapshot} (h : SnapshotOk allowed used s)
    {target : ViewTarget} {location : PaneLocation} {view : ViewInstance}
    (hfind : findSessionViewPane s target = some location)
    (hview : viewAt s location = some view) (tabId paneId : String) :
    (⟨tabId, paneId, view⟩ : Placed).tabKey = none := by
  obtain ⟨l, t, r, view', htabs, hid, hget, hsame⟩ := findSessionViewPane_eq_some hfind
  have hat := viewAt_of_mem h (htabs ▸ List.mem_append_right _ List.mem_cons_self) hget
  rw [hid, hview, Option.some_inj] at hat
  subst hat
  obtain ⟨session, hsession, -⟩ := isSameSessionTarget_iff.mp hsame
  have hkind := isSessionViewTarget_iff.mpr ⟨session, hsession⟩
  simp [Placed.tabKey, isTabScoped, hkind]

/-- A drop is a step of the board. -/
theorem Dropped.step {s : WorkbenchSnapshot} (h : SnapshotOk allowed used s)
    {source : ViewDragSource} {target : ViewDropTarget} {r : ViewDropResult} {view : ViewInstance}
    {rest : Board} (hd : Dropped used used' s source target r view rest) :
    BoardStep used (dropRule s source target) (board s.tabs) (board r.snapshot.tabs) := by
  -- what is left is kept, unless the drop replaces
  have hkeeps : ∀ b : Board, boardAt s (dragOrigin s source) + rest = b →
      Keeps (dropRule s source target) b (board s.tabs) := by
    rintro b rfl
    rw [hd.before]
    cases hreplaced : replacedPane s source target with
    | none => exact Or.inl (by rw [boardAt_none, zero_add])
    | some location =>
      refine Or.inr ⟨by simp [dropRule, hreplaced], add_le_add le_rfl (Multiset.le_add_left _ _)⟩
  have hrest : rest ≤ board s.tabs := by
    rw [hd.before]
    exact (Multiset.le_add_left _ _).trans (Multiset.le_add_left _ _)
  cases hd.drags with
  | existing location horigin hview =>
    rw [horigin, boardAt_some hview] at hkeeps
    by_cases hreal : isReal view = true
    · have hkept := hkeeps _ (placedBoard_of_real hreal rest)
      have hafter := hd.after.trans (placedBoard_of_real hreal rest)
      cases hd.lands with
      | stays hsame hnot =>
        rw [horigin, Option.some_inj] at hsame
        subst hsame
        exact .remove (hafter ▸ hkept)
      | arrives htab hkey =>
        refine .exchange _ _ rest hkept hafter ⟨rfl, Or.inl rfl, Or.inl rfl, Or.inr ?_, htab⟩
        cases source with
        | sidebar sourceTarget =>
          exact unclaimed_of_none (tabKey_of_findSessionViewPane h horigin hview _ _)
        | pane _ _ => exact hkey fun _ ↦ by simp
        | tab _ => exact hkey fun _ ↦ by simp
    · rw [placedBoard_of_not_real hreal] at hkeeps
      exact .remove (hd.after.trans (placedBoard_of_not_real hreal rest) ▸ hkeeps _ rfl)
  | fresh sourceTarget hsource hnone hfresh =>
    subst hsource
    rw [dragOrigin, hnone, boardAt_none, zero_add] at hkeeps
    refine step_of_placed (hkeeps _ rfl) hd.after fun _ ↦
      ⟨hd.target_exists ⟨_, rfl⟩, congrArg some hfresh.target_eq.symm, ?_,
      fun hchecked ↦ (by cases hchecked), hd.makes_room, ?_⟩
    · refine unclaimed_session fun p hp ↦ ?_
      obtain ⟨u, hu, -, he⟩ := entry_of_mem_board (Multiset.mem_of_le hrest hp)
      rw [hfresh.target_eq]
      exact findSessionViewPane_eq_none hnone u hu _ he
    · cases hd.lands with
      | stays hsame _ => rw [dragOrigin, hnone] at hsame; cases hsame
      | arrives htab _ => exact htab

/-- **Dropping, as a command.** Without a result the snapshot stays as it is. -/
theorem viewDrop_ok {s : WorkbenchSnapshot} (h : SnapshotOk allowed used s)
    (hwelcome : allowed welcomeTarget) {source : ViewDragSource}
    (hallowed : ∀ target ∈ source.targets, allowed target) (target : ViewDropTarget) :
    CommandOk allowed used (dropRule s source target) s
      ((fun result ↦ (result.map ViewDropResult.snapshot).getD s) <$>
        applyViewDrop s source target) := by
  refine (applyViewDrop_post h hwelcome hallowed target).map fun result used' hsub hdrop ↦ ?_
  cases result with
  | none => exact ⟨h.mono hsub, .remove (Or.inl rfl)⟩
  | some r =>
    obtain ⟨hok, view, rest, hd⟩ := hdrop r rfl
    exact ⟨hok, hd.step h⟩

/-! ## Views are conserved -/

/-- The Views of some Tabs, wherever they are, without the Welcome placeholders. -/
def views (tabs : List WorkbenchTab) : Multiset ViewInstance :=
  (tabs.flatMap fun tab ↦ tab.panes.values.filter isReal : List ViewInstance)

/-- The View at a place, unless it is a Welcome placeholder. -/
def viewsAt (s : WorkbenchSnapshot) (location : Option PaneLocation) : Multiset ViewInstance :=
  ((location.bind (viewAt s)).toList.filter isReal : List ViewInstance)

theorem views_eq (tabs : List WorkbenchTab) : views tabs = (board tabs).map Placed.view := by
  induction tabs with
  | nil => rfl
  | cons t ts ih =>
    have ht : ((t.panes.values.filter isReal : List ViewInstance) : Multiset ViewInstance)
        = (tabBoard t).map Placed.view := by
      rw [tabBoard, Multiset.map_map, realEntries, Multiset.map_coe, OrderedMap.values,
        List.filter_map]
      rfl
    rw [board_cons, Multiset.map_add, ← ih, ← ht]
    rfl

theorem map_view_placedBoard (p : Placed) :
    (placedBoard p).map Placed.view = if isReal p.view then {p.view} else 0 := by
  rw [placedBoard]
  split <;> rfl

theorem viewsAt_eq (s : WorkbenchSnapshot) (location : Option PaneLocation) :
    viewsAt s location = (boardAt s location).map Placed.view := by
  cases location with
  | none => rfl
  | some location =>
    rw [viewsAt, boardAt, Option.bind_some, Option.elim_some]
    cases viewAt s location with
    | none => rfl
    | some view =>
      rw [Option.elim_some, map_view_placedBoard, Option.toList_some, List.filter_cons]
      split <;> rfl

/-- What a drop owes to the user's Views: no View is lost but the one it replaces, none is added but
a fresh one of Sidebar content that was not open, only the source and the target Tab change, the
others keep their order, and the Pane returned shows what was dragged. -/
structure ConservesViews (used used' : Set String) (s : WorkbenchSnapshot)
    (source : ViewDragSource) (target : ViewDropTarget) (r : ViewDropResult) : Prop where
  /-- The returned Pane holds the dragged View, and this is what became of the Views. -/
  views_eq : ∃ view, viewAt r.snapshot ⟨r.tabId, r.paneId⟩ = some view ∧
    ((∃ location, dragOrigin s source = some location ∧ viewAt s location = some view ∧
        views r.snapshot.tabs + viewsAt s (replacedPane s source target) = views s.tabs) ∨
      ∃ sidebar, source = .sidebar sidebar ∧ findSessionViewPane s sidebar = none ∧
        FreshView used used' sidebar view ∧
        views r.snapshot.tabs + viewsAt s (replacedPane s source target)
          = views s.tabs + if isReal view then {view} else 0)
  /-- For a Tab moved along the strip the returned Pane is the Tab's first one. -/
  strip_move : isStripMove source target = true → dragOrigin s source = some ⟨r.tabId, r.paneId⟩
  /-- Apart from the Tab that is moved, taken away or inserted, the Tabs are the same ones in the
  same order, and all but the source and the target Tab are unchanged. -/
  tabs_match : TabsMatch (touchedTabs s source target)
    (tabsExcept (movedTabs source target r.tabId) s.tabs)
    (tabsExcept (movedTabs source target r.tabId) r.snapshot.tabs)

theorem Dropped.conservesViews {s : WorkbenchSnapshot} {source : ViewDragSource}
    {target : ViewDropTarget} {r : ViewDropResult} {view : ViewInstance} {rest : Board}
    (hd : Dropped used used' s source target r view rest) :
    ConservesViews used used' s source target r := by
  refine ⟨⟨view, hd.holds, ?_⟩, hd.strip_move, hd.tabs_match⟩
  rw [views_eq, views_eq, viewsAt_eq, hd.after, hd.before, Multiset.map_add, Multiset.map_add,
    Multiset.map_add, map_view_placedBoard]
  cases hd.drags with
  | existing location horigin hview =>
    refine Or.inl ⟨location, horigin, hview, ?_⟩
    rw [horigin, boardAt_some hview, map_view_placedBoard]
    ac_rfl
  | fresh sidebar hsource hnone hfresh =>
    refine Or.inr ⟨sidebar, hsource, hnone, hfresh, ?_⟩
    subst hsource
    rw [dragOrigin, hnone, boardAt_none, Multiset.map_zero]
    ac_rfl

/-- **Drag and drop conserves Views.** From any snapshot that satisfies the invariant, for every
drag source and drop target. -/
theorem applyViewDrop_conservesViews {s : WorkbenchSnapshot}
    (h : SnapshotOk (fun _ ↦ True) used s) (source : ViewDragSource) (target : ViewDropTarget) :
    Supply.Post used (applyViewDrop s source target) fun result used' ↦ ∀ r, result = some r →
      SnapshotOk (fun _ ↦ True) used' r.snapshot ∧ ConservesViews used used' s source target r :=
  (applyViewDrop_post h trivial (fun _ _ ↦ trivial) target).mono
    fun _ _ _ hdrop r hr ↦
      let ⟨hok, _, _, hd⟩ := hdrop r hr
      ⟨hok, hd.conservesViews⟩

/-- A workbench that shows one Workspace. -/
def testWorkbench : WorkbenchSnapshot where
  tabs := [{
    id := "t"
    layout := .leaf "p"
    focusedPaneId := "p"
    panes := .singleton "p" ⟨"v", "workspace", { body := .workspace "e" "w" none none }⟩
    titleMode := .auto
    titleOverride := none }]
  activeTabId := "t"

theorem snapshotOk_testWorkbench : SnapshotOk (fun _ ↦ True) {"t", "p", "v"} testWorkbench :=
  snapshotOk_single ⟨rfl, rfl, rfl, rfl, rfl, rfl, rfl⟩ (by simp) (by simp) (by simp) trivial
    (by decide)

theorem applyViewDrop_conservesViews_replace :
    Supply.Post {"t", "p", "v"}
      (applyViewDrop testWorkbench (.sidebar { body := .agentSession "e" "w" "a" })
        (.pane "t" "p" .replace))
      fun result used' ↦ ∀ r, result = some r →
        SnapshotOk (fun _ ↦ True) used' r.snapshot ∧ ConservesViews {"t", "p", "v"} used' testWorkbench
          (.sidebar { body := .agentSession "e" "w" "a" }) (.pane "t" "p" .replace) r :=
  applyViewDrop_conservesViews snapshotOk_testWorkbench _ _

end Awen.Workbench
