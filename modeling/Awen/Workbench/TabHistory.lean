import Awen.Workbench.RemovalSteps

/-!
# What a command makes of a Tab

Every Tab after a command is a Tab from before, rewritten in place; or a Tab from before that lost
its last Pane and went back to Welcome; or a new one. A rewritten Tab keeps its layout mode and what
it remembers of the other mode, unless the command switches its mode, and does not put a View beside
a Welcome, unless the command is one of the drops that `mixesWelcome` names.
-/

namespace Awen.Workbench

open Supply

variable {allowed : ViewTarget → Prop} {used used' : Set String}

/-! ## Programs whose result does not matter -/

theorem draws_generateId : Draws generateId := Draws.fresh

theorem draws_newTab (paneId : String) : Draws (newTab paneId) :=
  draws_generateId.bind fun _ ↦ Draws.pure _

theorem draws_newColumn (paneId : String) : Draws (newColumn paneId) :=
  (draws_newTab paneId).bind fun _ ↦ Draws.pure _

theorem draws_reconcileColumns (columns : List Column) (ids : List String) :
    Draws (reconcileColumns columns ids) :=
  (Draws.mapM draws_newColumn _).bind fun _ ↦ Draws.pure _

mutual
theorem draws_wrapBeside (targetId : String) (incoming : LayoutNode) (dir : SplitDir)
    (place : PanePlace) : ∀ node, Draws (wrapBeside targetId incoming dir place node)
  | .leaf id => by
    rw [wrapBeside]
    split
    · exact Draws.pure _
    · exact Draws.fresh.bind fun _ ↦ Draws.pure _
  | .split id dir' children sizes => by
    rw [wrapBeside]
    exact (draws_wrapBesideAll targetId incoming dir place children).bind fun _ ↦ Draws.pure _

theorem draws_wrapBesideAll (targetId : String) (incoming : LayoutNode) (dir : SplitDir)
    (place : PanePlace) : ∀ nodes, Draws (wrapBesideAll targetId incoming dir place nodes)
  | [] => by
    rw [wrapBesideAll]
    exact Draws.pure _
  | c :: cs => by
    rw [wrapBesideAll]
    exact (draws_wrapBeside targetId incoming dir place c).bind fun _ ↦
      (draws_wrapBesideAll targetId incoming dir place cs).bind fun _ ↦ Draws.pure _
end

theorem draws_movePane (node : LayoutNode) (fromId toId : String) (edge : PaneEdge) :
    Draws (movePane node fromId toId edge) := by
  rw [movePane.eq_def]
  split
  · exact Draws.pure _
  split
  · dsimp only
    split
    · exact Draws.pure _
    split
    · split
      · exact Draws.pure _
      split
      · exact Draws.pure _
      · exact draws_wrapBeside _ _ _ _ _
    · exact Draws.pure _
  · exact Draws.pure _

theorem draws_placePane (node : LayoutNode) (leafId toId : String) (edge : PaneEdge) :
    Draws (placePane node leafId toId edge) := by
  rw [placePane, placeLayout]
  split
  · exact Draws.pure _
  split
  · exact Draws.pure _
  split
  · exact draws_movePane _ _ _ _
  · dsimp only
    split
    · exact Draws.pure _
    · exact draws_wrapBeside _ _ _ _ _

theorem draws_placeInColumns (columns : List Column) (paneId targetId : String)
    (zone : PaneDropZone) : Draws (placeInColumns columns paneId targetId zone) := by
  refine (draws_reconcileColumns _ _).bind fun cleaned ↦ ?_
  split
  · exact Draws.pure _
  split
  · exact (draws_newColumn paneId).bind fun _ ↦ Draws.pure _
  · exact (draws_newColumn paneId).bind fun _ ↦ Draws.pure _
  all_goals exact Draws.pure _

theorem draws_placedLayout (tab : WorkbenchTab) (paneId targetId : String) (zone : PaneDropZone) :
    Draws (placedLayout tab paneId targetId zone) := by
  rw [placedLayout.eq_def]
  split
  · split
    · exact Draws.pure _
    · exact (draws_placePane _ _ _ _).bind fun _ ↦ Draws.pure _
  · exact (draws_placeInColumns _ _ _ _).bind fun _ ↦ Draws.pure _

theorem draws_movedLayout (tab : WorkbenchTab) (sourcePaneId targetPaneId : String)
    (edge : PaneEdge) : Draws (movedLayout tab sourcePaneId targetPaneId edge) := by
  rw [movedLayout]
  split
  · exact draws_placedLayout _ _ _ _
  · exact (draws_movePane _ _ _ _).bind fun _ ↦ Draws.pure _

theorem draws_reconcileBsp (saved : Option LayoutNode) (ids : List String) :
    Draws (reconcileBsp saved ids) := by
  rw [reconcileBsp]
  refine Draws.bind (Draws.foldlM (fun tree id ↦ ?_) ids _) fun tree ↦ ?_
  · rw [placeMissingLeaf.eq_def]
    split
    · exact Draws.pure _
    split
    · exact Draws.pure _
    split
    · exact Draws.pure _
    · exact (draws_placePane _ _ _ _).map _
  · split
    · exact Draws.pure _
    · exact Draws.throw _

/-! ## Welcome and other Views -/

/-- Nothing is shown beside a Welcome. -/
def WelcomeAlone (panes : OrderedMap String ViewInstance) : Prop :=
  ∀ e ∈ panes.entries, e.2.target.kind = .welcome → ∀ e' ∈ panes.entries, e' = e

section Panes

variable {panes : OrderedMap String ViewInstance} {paneId : String} {view anchor : ViewInstance}

theorem welcomeAlone_singleton (paneId : String) (view : ViewInstance) :
    WelcomeAlone (.singleton paneId view) := by
  intro e he _ e' he'
  rw [List.mem_singleton.mp he, List.mem_singleton.mp he']

theorem welcomeAlone_of_forall (h : ∀ e ∈ panes.entries, e.2.target.kind ≠ .welcome) :
    WelcomeAlone panes := fun e he hwelcome ↦ absurd hwelcome (h e he)

theorem WelcomeAlone.subset {panes' : OrderedMap String ViewInstance} (h : WelcomeAlone panes)
    (hsub : panes'.entries ⊆ panes.entries) : WelcomeAlone panes' :=
  fun e he hwelcome e' he' ↦ h e (hsub he) hwelcome e' (hsub he')

theorem WelcomeAlone.delete (h : WelcomeAlone panes) (paneId : String) :
    WelcomeAlone (panes.delete paneId) := h.subset (List.filter_subset_self _)

/-- Next to a Pane there is no Welcome. -/
theorem WelcomeAlone.ne_welcome (h : WelcomeAlone panes) (hkey : paneId ∈ panes.keys)
    {e : Entry} (he : e ∈ panes.entries) (hne : e.1 ≠ paneId) : e.2.target.kind ≠ .welcome := by
  intro hwelcome
  obtain ⟨anchor, hget⟩ := OrderedMap.mem_keys.mp hkey
  exact hne (congrArg Prod.fst (h e he hwelcome _ (OrderedMap.get_eq_some.mp hget))).symm

/-- A View that is no Welcome, put where no Welcome stays. -/
theorem welcomeAlone_set (hview : view.target.kind ≠ .welcome)
    (hothers : ∀ e ∈ panes.entries, e.1 ≠ paneId → e.2.target.kind ≠ .welcome) :
    WelcomeAlone (panes.set paneId view) := by
  refine welcomeAlone_of_forall fun e he ↦ ?_
  rcases OrderedMap.mem_entries_set.mp he with ⟨-, heq⟩ | ⟨hmem, hne⟩
  · rw [heq]
    exact hview
  · exact hothers e hmem hne

/-- The first View of a Tab. -/
theorem welcomeAlone_set_of_nil (h : panes.entries = []) :
    WelcomeAlone (panes.set paneId view) := by
  have hall : ∀ e ∈ (panes.set paneId view).entries, e = (paneId, view) := fun e he ↦ by
    rcases OrderedMap.mem_entries_set.mp he with ⟨hid, heq⟩ | ⟨hmem, -⟩
    · exact Prod.ext hid heq
    · exact absurd (h ▸ hmem) List.not_mem_nil
  intro e he _ e' he'
  rw [hall e he, hall e' he']

/-- A Pane gets another View. -/
theorem WelcomeAlone.set (h : WelcomeAlone panes) (hkey : paneId ∈ panes.keys)
    (hview : view.target.kind ≠ .welcome) : WelcomeAlone (panes.set paneId view) :=
  welcomeAlone_set hview fun _ ↦ h.ne_welcome hkey

/-- A View takes the place of a Pane. -/
theorem WelcomeAlone.delete_set (h : WelcomeAlone panes) {anchorId : String}
    (hkey : anchorId ∈ panes.keys) (hview : view.target.kind ≠ .welcome) :
    WelcomeAlone ((panes.delete anchorId).set paneId view) := by
  refine welcomeAlone_set hview fun e he _ ↦ ?_
  rw [OrderedMap.entries_delete, List.mem_filter, decide_eq_true_iff] at he
  exact h.ne_welcome hkey he.1 he.2

/-- Where a Pane shows something else, nothing is a Welcome. -/
theorem WelcomeAlone.ne_welcome_of_get (h : WelcomeAlone panes)
    (hget : panes.get paneId = some anchor) (hanchor : anchor.target.kind ≠ .welcome)
    {e : Entry} (he : e ∈ panes.entries) : e.2.target.kind ≠ .welcome := by
  intro hwelcome
  have heq := h e he hwelcome _ (OrderedMap.get_eq_some.mp hget)
  exact hanchor ((congrArg (fun e : Entry ↦ e.2.target.kind) heq).trans hwelcome)

/-- A Welcome that is alone is the only entry. -/
theorem WelcomeAlone.size_eq_one (h : WelcomeAlone panes) (hget : panes.get paneId = some anchor)
    (hanchor : anchor.target.kind = .welcome) : panes.size = 1 := by
  have hmem := OrderedMap.get_eq_some.mp hget
  have hall := h _ hmem hanchor
  have hreplicate : panes.keys = List.replicate panes.size paneId := by
    rw [List.eq_replicate_iff, OrderedMap.length_keys]
    refine ⟨rfl, fun k hk ↦ ?_⟩
    obtain ⟨e, he, rfl⟩ := List.mem_map.mp hk
    exact congrArg Prod.fst (hall e he)
  have hnodup := panes.nodup
  rw [hreplicate, List.nodup_replicate] at hnodup
  have hpos : 0 < panes.size := List.length_pos_of_mem hmem
  exact Nat.le_antisymm hnodup hpos

end Panes

/-! ## One Tab -/

/-- A Tab rewritten in place: unless its mode is switched it keeps the mode and what it remembers,
and if the command is proper no View comes to stand beside a Welcome. -/
structure Rewrites (proper keeps : Prop) (t t' : WorkbenchTab) : Prop where
  id_eq : t'.id = t.id
  memory_eq : keeps → t'.layoutMemory = t.layoutMemory
  mode_eq : keeps → t'.layoutMode = t.layoutMode
  alone : proper → WelcomeAlone t.panes → WelcomeAlone t'.panes

/-- A Tab that lost its last Pane shows a new Welcome. -/
structure Cleared (used : Set String) (t t' : WorkbenchTab) : Prop where
  id_eq : t'.id = t.id
  welcome : ∃ paneId view, t'.panes = .singleton paneId view ∧ view.target = welcomeTarget ∧
    paneId ∉ used

/-- A Tab but for its layout, its focus and its title. -/
structure SameShape (t t' : WorkbenchTab) : Prop where
  id_eq : t'.id = t.id
  panes_eq : t'.panes = t.panes
  memory_eq : t'.layoutMemory = t.layoutMemory
  mode_eq : t'.layoutMode = t.layoutMode

section Tab

variable {proper keeps : Prop} {t t' t'' : WorkbenchTab}

theorem SameShape.refl (t : WorkbenchTab) : SameShape t t := ⟨rfl, rfl, rfl, rfl⟩

theorem SameShape.rewrites (h : SameShape t t') : Rewrites proper keeps t t' where
  id_eq := h.id_eq
  memory_eq _ := h.memory_eq
  mode_eq _ := h.mode_eq
  alone _ halone := h.panes_eq ▸ halone

theorem Rewrites.trans (h : Rewrites proper keeps t t') (h' : Rewrites proper keeps t' t'') :
    Rewrites proper keeps t t'' where
  id_eq := h'.id_eq.trans h.id_eq
  memory_eq hkeeps := (h'.memory_eq hkeeps).trans (h.memory_eq hkeeps)
  mode_eq hkeeps := (h'.mode_eq hkeeps).trans (h.mode_eq hkeeps)
  alone hproper halone := h'.alone hproper (h.alone hproper halone)

theorem Rewrites.congr (h : Rewrites proper keeps t t') (hsame : SameShape t' t'') :
    Rewrites proper keeps t t'' := h.trans hsame.rewrites

theorem Cleared.congr (h : Cleared used t t') (hsame : SameShape t' t'') : Cleared used t t'' where
  id_eq := hsame.id_eq.trans h.id_eq
  welcome := hsame.panes_eq ▸ h.welcome

theorem Cleared.anti (h : Cleared used' t t') (hsub : used ⊆ used') : Cleared used t t' where
  id_eq := h.id_eq
  welcome :=
    let ⟨paneId, view, hpanes, hview, hnew⟩ := h.welcome
    ⟨paneId, view, hpanes, hview, fun hmem ↦ hnew (hsub hmem)⟩

theorem Cleared.alone (h : Cleared used t t') : WelcomeAlone t'.panes := by
  obtain ⟨paneId, view, hpanes, -⟩ := h.welcome
  rw [hpanes]
  exact welcomeAlone_singleton paneId view

theorem reconcileTab_ensures (t : WorkbenchTab) :
    Ensures used (reconcileTab t) fun t' _ ↦ SameShape t t' := by
  rw [reconcileTab]
  split
  · exact Ensures.pure (SameShape.refl t)
  · exact (draws_reconcileColumns _ _).then fun _ _ _ ↦ Ensures.pure ⟨rfl, rfl, rfl, rfl⟩

theorem clearedTab_ensures (t : WorkbenchTab) :
    Ensures used (clearedTab t) fun t' _ ↦ Cleared used t t' := by
  rw [clearedTab]
  refine (@welcomeTab_post used).ensures.bind
    fun w used₁ hsub hwelcome ↦ ?_
  obtain ⟨⟨paneId, view, hw⟩, _, _, hfill⟩ := hwelcome
  refine (reconcileTab_ensures _).mono fun t' _ _ hsame ↦ ⟨hsame.id_eq, paneId, view, ?_, ?_⟩
  · rw [hsame.panes_eq]
    exact hw.panes_eq
  · rw [hw.panes_eq] at hfill
    generalize hes : (OrderedMap.singleton paneId view).entries = es at hfill
    cases hfill with
    | keep => cases hes
    | welcome paneId' view' _ pane_fresh _ _ _ target_eq _ =>
      cases hes
      exact ⟨target_eq, pane_fresh⟩

/-- Closing a Pane rewrites the Tab, unless it was the last one. -/
theorem closePaneInTab_ensures (proper keeps : Prop) (h : TabOk used t) (paneId : String) :
    Ensures used (closePaneInTab t paneId) fun t' _ ↦
      Rewrites proper keeps t t' ∧ t'.panes = t.panes.delete paneId ∨
        Cleared used t t' ∧ (t.panes.delete paneId).entries = [] := by
  rw [closePaneInTab]
  rcases closeLeaf_tab h paneId with ⟨hclose, hnil⟩ | ⟨next, hclose, hid, -⟩
  · rw [hclose]
    refine (clearedTab_ensures t).mono fun t' _ _ hcleared ↦ .inr ⟨hcleared, hnil⟩
  · rw [hclose]
    refine (reconcileTab_ensures _).mono fun t' _ _ hsame ↦
      .inl ⟨Rewrites.congr ?_ hsame, hsame.panes_eq⟩
    exact ⟨hid, fun _ ↦ rfl, fun _ ↦ rfl, fun _ halone ↦ halone.delete paneId⟩

/-- **Placing a View** that is no Welcome absorbs a Welcome that is alone. -/
theorem placeViewInTab_ensures {view : ViewInstance} (hview : proper → view.target.kind ≠ .welcome)
    {target : PlaceTarget} (hanchor : target.anchorPaneId ∈ t.panes.keys) :
    Ensures used (placeViewInTab t view target) fun r _ ↦ Rewrites proper keeps t r.1 := by
  rw [placeViewInTab]
  split
  · exact Ensures.pure ⟨rfl, fun _ ↦ rfl, fun _ ↦ rfl, fun hproper halone ↦
      halone.delete_set hanchor (hview hproper)⟩
  rename_i hreuse
  have hpick : Draws (pickPaneId target) := by
    rw [pickPaneId]
    split
    · exact Draws.pure _
    · exact draws_generateId
  refine hpick.then fun paneId _ _ ↦ (draws_placedLayout _ _ _ _).then fun placed _ _ ↦
    Ensures.pure ⟨rfl, fun _ ↦ rfl, fun _ ↦ rfl, fun hproper halone ↦ ?_⟩
  refine welcomeAlone_set (hview hproper) fun e he _ ↦ ?_
  -- the anchor is no Welcome, or it would have been reused
  obtain ⟨anchor, hget⟩ := OrderedMap.mem_keys.mp hanchor
  refine halone.ne_welcome_of_get hget (fun hwelcome ↦ hreuse ?_) he
  rw [reusesAnchorPane, hget]
  exact decide_eq_true (.inr ⟨halone.size_eq_one hget hwelcome, hwelcome⟩)

end Tab

end Awen.Workbench
