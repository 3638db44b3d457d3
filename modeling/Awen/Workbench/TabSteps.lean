import Awen.Workbench.TabHistory

/-!
# What every command makes of the Tabs

`applyOp_changes` says what every command makes of every Tab: it is one of the `Becomes`. A command
is proper if it opens no Welcome and is none of the drops of `mixesWelcome`, and it keeps the mode
of every Tab but the active one of `setLayoutMode`.
-/

namespace Awen.Workbench

open Supply

variable {allowed : ViewTarget → Prop} {used used' : Set String} {proper : Prop}
  {keeps : String → Prop} {s : WorkbenchSnapshot}

/-! ## What a Tab came from -/

/-- Where a Tab comes from: a Tab that was rewritten or cleared, or it is new. -/
inductive Becomes (proper : Prop) (keeps : String → Prop) (used : Set String)
    (tabs : List WorkbenchTab) (t' : WorkbenchTab) : Prop
  | rewritten (t : WorkbenchTab) (mem : t ∈ tabs) (rewrites : Rewrites proper (keeps t.id) t t')
  | cleared (t : WorkbenchTab) (mem : t ∈ tabs) (clears : Cleared used t t')
  | opened (id_new : t'.id ∉ used) (alone : proper → WelcomeAlone t'.panes)

/-- A program after which every Tab comes from those of a snapshot. -/
def Changes (proper : Prop) (keeps : String → Prop) (used used' : Set String)
    (s : WorkbenchSnapshot) (m : WorkbenchM WorkbenchSnapshot) : Prop :=
  Ensures used' m fun s' _ ↦ ∀ t' ∈ s'.tabs, Becomes proper keeps used s.tabs t'

theorem becomes_of_mem {tabs : List WorkbenchTab} {t : WorkbenchTab} (h : t ∈ tabs) :
    Becomes proper keeps used tabs t := .rewritten t h (SameShape.refl t).rewrites

theorem Becomes.congr {tabs : List WorkbenchTab} {t t' : WorkbenchTab}
    (h : Becomes proper keeps used tabs t) (hsame : SameShape t t') :
    Becomes proper keeps used tabs t' := by
  cases h with
  | rewritten t₀ mem rewrites => exact .rewritten t₀ mem (rewrites.congr hsame)
  | cleared t₀ mem clears => exact .cleared t₀ mem (clears.congr hsame)
  | opened id_new alone =>
    exact .opened (hsame.id_eq ▸ id_new) fun hproper ↦ hsame.panes_eq ▸ alone hproper

theorem Becomes.anti {tabs : List WorkbenchTab} {t' : WorkbenchTab}
    (h : Becomes proper keeps used' tabs t') (hsub : used ⊆ used') :
    Becomes proper keeps used tabs t' := by
  cases h with
  | rewritten t mem rewrites => exact .rewritten t mem rewrites
  | cleared t mem clears => exact .cleared t mem (clears.anti hsub)
  | opened id_new alone => exact .opened (fun hmem ↦ id_new (hsub hmem)) alone

theorem changes_pure {s' : WorkbenchSnapshot} (h : ∀ t' ∈ s'.tabs, t' ∈ s.tabs) :
    Changes proper keeps used used' s (pure s') :=
  Ensures.pure fun t' ht' ↦ becomes_of_mem (h t' ht')

/-- The snapshot of a program that may return none. -/
theorem Changes.some {m : WorkbenchM WorkbenchSnapshot}
    (h : Changes proper keeps used used' s m) : Ensures used' (some <$> m) fun result _ ↦
      ∀ s', result = some s' → ∀ t' ∈ s'.tabs, Becomes proper keeps used s.tabs t' := by
  refine Ensures.map h fun s' _ _ hs' s'' heq ↦ ?_
  cases heq
  exact hs'

/-- Tabs after one of them was rewritten. -/
def OneRewritten (proper keeps : Prop) (tabs : List WorkbenchTab) (t : WorkbenchTab)
    (tabs' : List WorkbenchTab) : Prop :=
  ∀ t' ∈ tabs', t' ∈ tabs ∨ Rewrites proper keeps t t'

theorem OneRewritten.becomes {tabs tabs' : List WorkbenchTab} {t : WorkbenchTab} (ht : t ∈ tabs)
    (h : OneRewritten proper (keeps t.id) tabs t tabs') :
    ∀ t' ∈ tabs', Becomes proper keeps used tabs t' := fun t' ht' ↦
  (h t' ht').elim becomes_of_mem (.rewritten t ht)

/-- One of the Tabs is rewritten after the others have changed. -/
theorem OneRewritten.becomes_after {tabs tabs₁ tabs' : List WorkbenchTab} {t t₁ : WorkbenchTab}
    (ht : t ∈ tabs) (hrewrites : Rewrites proper (keeps t.id) t t₁)
    (hbefore : ∀ t' ∈ tabs₁, Becomes proper keeps used tabs t')
    (h : OneRewritten proper (keeps t.id) tabs₁ t₁ tabs') :
    ∀ t' ∈ tabs', Becomes proper keeps used tabs t' := fun t' ht' ↦
  (h t' ht').elim (hbefore t') fun hafter ↦ .rewritten t ht (hrewrites.trans hafter)

/-! ## Lookups -/

theorem mem_of_findTab {tabId : String} {t : WorkbenchTab} (h : findTab s tabId = some t) :
    t ∈ s.tabs ∧ t.id = tabId := by
  obtain ⟨hid, l, r, htabs⟩ := findTab_eq_some h
  exact ⟨htabs ▸ List.mem_append_right l List.mem_cons_self, hid⟩

theorem mem_of_getActiveTab {t : WorkbenchTab} (h : getActiveTab s = .ok t) :
    t ∈ s.tabs ∧ t.id = s.activeTabId := by
  rw [getActiveTab] at h
  split at h
  · cases h
    exact mem_of_findTab ‹_›
  · cases h

/-- The active Tab of a program. -/
theorem getActiveTab_then {α : Type} {f : WorkbenchTab → WorkbenchM α} {Q : α → Set String → Prop}
    (h : ∀ t ∈ s.tabs, t.id = s.activeTabId → Ensures used (f t) Q) :
    Ensures used (do let t ← getActiveTab s; f t : WorkbenchM α) Q := by
  refine (Ensures.ofExcept (Q := fun t used' ↦ (t ∈ s.tabs ∧ t.id = s.activeTabId) ∧ used' = used)
    fun t ht ↦ ⟨mem_of_getActiveTab ht, rfl⟩).bind fun t used' _ ⟨⟨ht, hid⟩, hused⟩ ↦ ?_
  subst hused
  exact h t ht hid

theorem viewInstance_ensures (target : ViewTarget) :
    Ensures used (viewInstance target) fun view _ ↦ view.target = target :=
  (viewInstance_post target).ensures.mono fun _ _ _ h ↦ h.target_eq

/-- A Session is no Welcome. -/
theorem kind_ne_welcome_of_session {target target' : ViewTarget}
    (h : isSameSessionTarget target target' = true) : target.kind ≠ .welcome := by
  obtain ⟨session, hsession, -⟩ := isSameSessionTarget_iff.mp h
  have hview := isSessionViewTarget_iff.mpr ⟨session, hsession⟩
  intro hkind
  rw [isSessionViewTarget, hkind] at hview
  exact absurd hview (by decide)

/-! ## Updating a Tab -/

theorem updateTab_shape (s : WorkbenchSnapshot) (t₁ : WorkbenchTab) :
    Ensures used (updateTab s t₁) fun s' _ ↦ ∀ t' ∈ s'.tabs, t' ∈ s.tabs ∨ SameShape t₁ t' := by
  rw [updateTab]
  refine (reconcileTab_ensures t₁).bind fun t₂ _ _ hsame ↦ Ensures.pure fun t' ht' ↦ ?_
  obtain ⟨t₀, ht₀, rfl⟩ := List.mem_map.mp ht'
  split
  · exact .inr hsame
  · exact .inl ht₀

theorem updateTab_ensures {t t₁ : WorkbenchTab} {keeps : Prop}
    (h : Rewrites proper keeps t t₁) : Ensures used (updateTab s t₁) fun s' _ ↦
      OneRewritten proper keeps s.tabs t s'.tabs :=
  (updateTab_shape s t₁).mono fun _ _ _ hshape t' ht' ↦ (hshape t' ht').imp_right h.congr

theorem updateTab_changes {t t₁ : WorkbenchTab} (ht : t ∈ s.tabs)
    (h : Rewrites proper (keeps t.id) t t₁) : Changes proper keeps used used' s (updateTab s t₁) :=
  (updateTab_ensures h).mono fun _ _ _ hone ↦ hone.becomes ht

theorem applySetFocused_ensures (s : WorkbenchSnapshot) (paneId : String) :
    Ensures used (applySetFocused s paneId) fun s' _ ↦
      ∀ t' ∈ s'.tabs, ∃ t ∈ s.tabs, SameShape t t' := by
  rw [applySetFocused]
  refine getActiveTab_then fun t ht _ ↦ ?_
  split
  · exact Ensures.pure fun t' ht' ↦ ⟨t', ht', SameShape.refl t'⟩
  · refine (updateTab_shape s _).mono fun s' _ _ hshape t' ht' ↦ ?_
    rcases hshape t' ht' with hold | hsame
    · exact ⟨t', hold, SameShape.refl t'⟩
    · exact ⟨t, ht, hsame.id_eq, hsame.panes_eq, hsame.memory_eq, hsame.mode_eq⟩

theorem focusPane_ensures (s : WorkbenchSnapshot) (location : PaneLocation) :
    Ensures used (focusPane s location) fun s' _ ↦
      ∀ t' ∈ s'.tabs, ∃ t ∈ s.tabs, SameShape t t' := by
  have h := @applySetFocused_ensures used (applyActivateTab s location.tabId)
    location.paneId
  rwa [tabs_applyActivateTab] at h

theorem applySetFocused_changes (s : WorkbenchSnapshot) (paneId : String) :
    Changes proper keeps used used' s (applySetFocused s paneId) :=
  (applySetFocused_ensures s paneId).mono fun _ _ _ h t' ht' ↦
    let ⟨t, ht, hsame⟩ := h t' ht'
    .rewritten t ht hsame.rewrites

theorem focusPane_changes (s : WorkbenchSnapshot) (location : PaneLocation) :
    Changes proper keeps used used' s (focusPane s location) :=
  (focusPane_ensures s location).mono fun _ _ _ h t' ht' ↦
    let ⟨t, ht, hsame⟩ := h t' ht'
    .rewritten t ht hsame.rewrites

/-! ## New Tabs and detached Views -/

theorem insertPresentationTab_ensures (hsub : used ⊆ used') (s : WorkbenchSnapshot)
    (view : ViewInstance) (index : ℤ) (paneId : String) :
    Ensures used' (insertPresentationTab s view index paneId) fun r _ ↦ ∀ t' ∈ r.snapshot.tabs,
      t' ∈ s.tabs ∨ t'.id ∉ used ∧ t'.panes = .singleton paneId view := by
  have hnew : Ensures used' (newTab paneId) fun tab _ ↦ tab.id ∉ used := by
    refine generateId_post.ensures.bind fun id used₁ _ ⟨hid, _⟩ ↦ Ensures.pure fun hmem ↦ ?_
    exact hid (hsub hmem)
  rw [insertPresentationTab]
  refine hnew.bind fun tab _ _ hid ↦ Ensures.pure fun t' ht' ↦ ?_
  rcases mem_insertAt.mp ht' with rfl | hmem
  · exact .inr ⟨hid, rfl⟩
  · exact .inl hmem

/-- What is left when the View of a Pane is detached: the Tab it came from is rewritten or, if it
has no other Pane, cleared. -/
structure DetachedFrom (allowed : ViewTarget → Prop) (proper : Prop) (keeps : String → Prop)
    (used used' : Set String) (s : WorkbenchSnapshot) (t : WorkbenchTab) (paneId : String)
    (s₁ : WorkbenchSnapshot) : Prop where
  snapshot_ok : SnapshotOk allowed used' s₁
  active_eq : s₁.activeTabId = s.activeTabId
  tabs : ∃ t₁, t₁.id = t.id ∧ (∀ t' ∈ s₁.tabs, t' = t₁ ∨ t' ∈ s.tabs ∧ t'.id ≠ t.id) ∧
    (Rewrites proper (keeps t.id) t t₁ ∧ t₁.panes = t.panes.delete paneId ∨
      Cleared used t t₁ ∧ (t.panes.delete paneId).entries = [])

theorem detachView_ensures (proper : Prop) (keeps : String → Prop) (h : SnapshotOk allowed used s)
    (hwelcome : allowed welcomeTarget) (location : PaneLocation) :
    Ensures used (detachView s location) fun result used' ↦
      ∀ s₁ view, result = some (s₁, view) → ∃ t ∈ s.tabs, t.id = location.tabId ∧
        t.panes.get location.paneId = some view ∧
          DetachedFrom allowed proper keeps used used' s t location.paneId s₁ := by
  cases hfind : findTab s location.tabId with
  | none =>
    rw [detachView, hfind]
    exact Ensures.pure fun _ _ hnone ↦ by cases hnone
  | some t =>
    obtain ⟨hid, l, r, htabs⟩ := findTab_eq_some hfind
    have ht : t ∈ s.tabs := htabs ▸ List.mem_append_right l List.mem_cons_self
    cases hget : t.panes.get location.paneId with
    | none =>
      rw [detachView, hfind]
      simp only [hget]
      exact Ensures.pure fun _ _ hnone ↦ by cases hnone
    | some view =>
      obtain ⟨-, hok, -, hnew, -⟩ := tabsOk_middle.mp (htabs ▸ h.tabs_ok)
      have hclosed : Ensures used (detachView s location) fun result _ ↦ ∃ t₁, t₁.id = t.id ∧
          (∀ s₁ view, result = some (s₁, view) → s₁.tabs = replaceTab s.tabs t.id t₁) ∧
          (Rewrites proper (keeps t.id) t t₁ ∧ t₁.panes = t.panes.delete location.paneId ∨
            Cleared used t t₁ ∧ (t.panes.delete location.paneId).entries = []) := by
        rw [detachView]
        simp only [hfind, hget, removeViewFromTab_eq (OrderedMap.mem_keys_of_get hget),
          bind_map_left]
        refine (closePaneInTab_ensures proper (keeps t.id) hok location.paneId).bind
          fun t₁ used₁ _ hcases ↦
          Ensures.pure ⟨t₁, ?_, ?_, hcases⟩
        · rcases hcases with ⟨hrewrites, -⟩ | ⟨hcleared, -⟩
          · exact hrewrites.id_eq
          · exact hcleared.id_eq
        · rintro s₁ view' heq
          cases heq
          rfl
      refine ((detachView_post h hwelcome htabs hid hget).ensures.and hclosed).mono ?_
      rintro _ used' - ⟨⟨s₁, t₁, rfl, htabs₁, hid₁, -, hdetached⟩, t₂, -, hreplaced, hcases⟩
      rintro _ _ ⟨⟩
      have htabs₂ := hreplaced _ _ rfl
      rw [htabs, replaceTab_middle hnew, htabs₁] at htabs₂
      obtain rfl : t₁ = t₂ := by simpa using htabs₂
      refine ⟨t, ht, hid, hget, hdetached.ok, hdetached.active_eq, t₁, hid₁, fun t' ht' ↦ ?_,
        hcases⟩
      have hother : ∀ u ∈ l ++ r, u ∈ s.tabs ∧ u.id ≠ t.id := by
        refine fun u hu ↦ ⟨?_, fun heq ↦ hnew (List.mem_map.mpr ⟨u, hu, heq⟩)⟩
        rw [htabs]
        exact (List.mem_append.mp hu).elim (List.mem_append_left _) fun hr ↦
          List.mem_append_right l (List.mem_cons_of_mem t hr)
      rw [htabs₁] at ht'
      rcases List.mem_append.mp ht' with hl | hr
      · exact .inr (hother t' (List.mem_append_left r hl))
      · rcases List.mem_cons.mp hr with rfl | hr
        · exact .inl rfl
        · exact .inr (hother t' (List.mem_append_right l hr))

theorem DetachedFrom.becomes {t : WorkbenchTab} {paneId : String} {s₁ : WorkbenchSnapshot}
    (h : DetachedFrom allowed proper keeps used used' s t paneId s₁) (ht : t ∈ s.tabs) :
    ∀ t' ∈ s₁.tabs, Becomes proper keeps used s.tabs t' := by
  obtain ⟨t₁, -, hmem, hcases⟩ := h.tabs
  intro t' ht'
  rcases hmem t' ht' with rfl | ⟨hold, -⟩
  · rcases hcases with ⟨hrewrites, -⟩ | ⟨hcleared, -⟩
    · exact .rewritten t ht hrewrites
    · exact .cleared t ht hcleared
  · exact becomes_of_mem hold

/-- A Tab that has a Pane beside the detached View was not cleared. -/
theorem DetachedFrom.rewrites {t u : WorkbenchTab} {paneId p : String} {s₁ : WorkbenchSnapshot}
    (h : DetachedFrom allowed proper keeps used used' s t paneId s₁)
    (hids : (s.tabs.map fun t ↦ t.id).Nodup) (ht : t ∈ s.tabs) (hu : u ∈ s.tabs)
    (hp : p ∈ u.panes.keys) (hne : u.id = t.id → p ≠ paneId) :
    ∀ u' ∈ s₁.tabs, u'.id = u.id → Rewrites proper (keeps u.id) u u' ∧ p ∈ u'.panes.keys := by
  obtain ⟨t₁, hid₁, hmem, hcases⟩ := h.tabs
  intro u' hu' hid
  rcases hmem u' hu' with rfl | ⟨hold, -⟩
  · obtain rfl : u = t := List.inj_on_of_nodup_map hids hu ht (hid.symm.trans hid₁)
    have hkept : p ∈ (u.panes.delete paneId).keys :=
      OrderedMap.mem_keys_delete.mpr ⟨hp, hne rfl⟩
    rcases hcases with ⟨hrewrites, hpanes⟩ | ⟨-, hnil⟩
    · exact ⟨hrewrites, hpanes ▸ hkept⟩
    · rw [OrderedMap.keys, hnil] at hkept
      exact absurd hkept List.not_mem_nil
  · obtain rfl : u' = u := List.inj_on_of_nodup_map hids hold hu hid
    exact ⟨(SameShape.refl u').rewrites, hp⟩

/-! ## Opening and splitting -/

theorem applyOpenTarget_changes (h : SnapshotOk allowed used s) (hsub : used ⊆ used')
    {target : ViewTarget} (htarget : proper → target.kind ≠ .welcome) :
    Changes proper keeps used used' s (applyOpenTarget s target) := by
  rw [applyOpenTarget]
  split
  · exact focusPane_changes s _
  refine getActiveTab_then fun t ht _ ↦ ?_
  split
  · exact applySetFocused_changes s _
  split
  · exact focusPane_changes s _
  split
  · refine (viewInstance_ensures target).bind fun view _ _ hview ↦ updateTab_changes ht ?_
    refine ⟨rfl, fun _ ↦ rfl, fun _ ↦ rfl, fun hproper halone ↦ ?_⟩
    exact halone.set (h.tabs_ok.tab_ok t ht).focus_mem (hview ▸ htarget hproper)
  · refine (viewInstance_ensures target).bind fun view _ hsub₁ _ ↦
      draws_generateId.then fun paneId _ hsub₂ ↦ ?_
    refine (insertPresentationTab_ensures (hsub.trans (hsub₁.trans hsub₂)) s view _ paneId).map
      fun r _ _ hr t' ht' ↦ ?_
    rcases hr t' ht' with hold | ⟨hnew, hpanes⟩
    · exact becomes_of_mem hold
    · exact .opened hnew fun _ ↦ hpanes ▸ welcomeAlone_singleton paneId view

theorem anchorIn_ensures {t : WorkbenchTab} (h : TabOk used t) (paneId : String) :
    Ensures used' (anchorIn t paneId : WorkbenchM String) fun anchor _ ↦ anchor ∈ t.panes.keys := by
  obtain ⟨anchor, view, hanchor, hget⟩ := anchorIn_spec h paneId
  rw [hanchor]
  exact Ensures.pure (OrderedMap.mem_keys_of_get hget)

/-- A detached View is placed beside a Pane that its Tab keeps. -/
theorem placeDetachedViewBeside_changes {t u : WorkbenchTab} {paneId anchorPaneId : String}
    {s₁ : WorkbenchSnapshot} {view : ViewInstance} (h : SnapshotOk allowed used s)
    (hdetached : DetachedFrom allowed proper keeps used used' s t paneId s₁) (ht : t ∈ s.tabs)
    (hu : u ∈ s.tabs) (hactive : u.id = s.activeTabId) (hanchor : anchorPaneId ∈ u.panes.keys)
    (hne : u.id = t.id → anchorPaneId ≠ paneId) (hview : proper → view.target.kind ≠ .welcome)
    (dir : SplitDir) :
    Changes proper keeps used used' s (placeDetachedViewBeside s₁ view anchorPaneId dir) := by
  rw [placeDetachedViewBeside]
  refine getActiveTab_then fun u₁ hu₁ hid₁ ↦ ?_
  have hid : u₁.id = u.id := by rw [hid₁, hdetached.active_eq, hactive]
  obtain ⟨hrewrites, -⟩ := hdetached.rewrites h.tabs_ok.nodup_ids ht hu hanchor hne u₁ hu₁ hid
  have hok : TabOk used' u₁ := hdetached.snapshot_ok.tabs_ok.tab_ok u₁ hu₁
  refine (anchorIn_ensures hok anchorPaneId).bind fun anchor _ _ hmem ↦ ?_
  refine Ensures.bind (P := fun r _ ↦ Rewrites proper (keeps u.id) u₁ r.1)
    (placeViewInTab_ensures hview hmem) fun r _ _ hplaced ↦ ?_
  exact (updateTab_ensures hplaced).mono fun _ _ _ hone ↦
    hone.becomes_after hu hrewrites (hdetached.becomes ht)

theorem applySplitPane_changes (h : SnapshotOk allowed used s) (hwelcome : allowed welcomeTarget)
    {target : ViewTarget} (htarget : proper → target.kind ≠ .welcome) (sourcePaneId : String)
    (dir : SplitDir) :
    Changes proper keeps used used s (applySplitPane s sourcePaneId target dir) := by
  rw [applySplitPane]
  split
  · exact focusPane_changes s _
  refine getActiveTab_then fun tab htab hactive ↦ ?_
  split
  · exact applyOpenTarget_changes h Set.Subset.rfl htarget
  rename_i source hsource
  have hkey := OrderedMap.mem_keys_of_get hsource
  split
  · rename_i location hlocation
    split
    · exact applySetFocused_changes s _
    rename_i hplace
    obtain ⟨l, t₀, r, view₀, htabs, hid₀, hget₀, hsession⟩ := findSessionViewPane_eq_some hlocation
    refine (detachView_ensures proper keeps h hwelcome location).bind
      fun result used₁ _ hdetached ↦ ?_
    cases result with
    | none => exact changes_pure fun t' ht' ↦ ht'
    | some result =>
      obtain ⟨s₁, view⟩ := result
      obtain ⟨t, ht, hid, hget, hdetached⟩ := hdetached s₁ view rfl
      have ht₀ : t₀ ∈ s.tabs := htabs ▸ List.mem_append_right l List.mem_cons_self
      obtain rfl : t = t₀ :=
        List.inj_on_of_nodup_map h.tabs_ok.nodup_ids ht ht₀ (hid.trans hid₀.symm)
      rw [hget, Option.some_inj] at hget₀
      refine placeDetachedViewBeside_changes h hdetached ht htab hactive hkey (fun heq hpane ↦ ?_)
        (fun _ ↦ kind_ne_welcome_of_session (hget₀ ▸ hsession)) dir
      exact hplace ⟨hid.symm.trans heq.symm, hpane.symm⟩
  split
  · exact applyOpenTarget_changes h Set.Subset.rfl htarget
  rename_i hsourceWelcome
  split
  · exact applySetFocused_changes s _
  · refine draws_generateId.then fun paneId _ _ ↦ (viewInstance_ensures target).bind
      fun view _ _ hview ↦ (draws_placedLayout _ _ _ _).then fun placed _ _ ↦
        updateTab_changes htab ⟨rfl, fun _ ↦ rfl, fun _ ↦ rfl, fun hproper halone ↦ ?_⟩
    exact welcomeAlone_set (hview ▸ htarget hproper) fun e he _ ↦
      halone.ne_welcome_of_get hsource hsourceWelcome he

theorem applySplitFocused_changes (h : SnapshotOk allowed used s) (hwelcome : allowed welcomeTarget)
    {target : ViewTarget} (htarget : proper → target.kind ≠ .welcome) (dir : SplitDir) :
    Changes proper keeps used used s (applySplitFocused s target dir) := by
  rw [applySplitFocused]
  exact getActiveTab_then fun tab _ _ ↦ applySplitPane_changes h hwelcome htarget _ dir

/-! ## Closing and retargeting -/

theorem applyCloseTab_changes (s : WorkbenchSnapshot) (tabId : String) :
    Changes proper keeps used used' s (applyCloseTab s tabId) := by
  rw [applyCloseTab]
  split
  · exact changes_pure fun _ ht ↦ ht
  split
  · exact changes_pure fun _ ht ↦ ht
  split
  · exact changes_pure fun _ ht ↦ (List.mem_filter.mp ht).1
  · refine (Ensures.ofExcept (Q := fun _ _ ↦ True) fun _ _ ↦ trivial).bind fun _ _ _ _ ↦ ?_
    exact changes_pure fun _ ht ↦ (List.mem_filter.mp ht).1

/-- A Tab is cleared in its place. -/
theorem replaceTab_becomes {t t₁ : WorkbenchTab} (h : Becomes proper keeps used s.tabs t₁)
    {t' : WorkbenchTab} (ht' : t' ∈ replaceTab s.tabs t.id t₁) :
    Becomes proper keeps used s.tabs t' := by
  obtain ⟨t₀, ht₀, rfl⟩ := List.mem_map.mp ht'
  split
  · exact h
  · exact becomes_of_mem ht₀

theorem applyClosePane_changes (h : SnapshotOk allowed used s) (paneId : String) :
    Changes proper keeps used used s ((·.getD s) <$> applyClosePane s paneId) := by
  refine Ensures.map (P := fun result _ ↦ ∀ s', result = some s' →
    ∀ t' ∈ s'.tabs, Becomes proper keeps used s.tabs t') ?_ fun result _ _ hresult ↦ ?_
  · rw [applyClosePane]
    refine getActiveTab_then fun tab htab _ ↦ ?_
    split
    · exact Ensures.pure fun _ hnone ↦ by cases hnone
    rcases closeLeaf_tab (h.tabs_ok.tab_ok tab htab) paneId with
      ⟨hclose, -⟩ | ⟨next, hclose, hid, -⟩
    · rw [hclose]
      refine Ensures.bind (P := fun r _ ↦ r = none) (Ensures.pure rfl) fun r used₁ hsub hr ↦ ?_
      subst hr
      dsimp only
      split
      · refine Changes.some ((clearedTab_ensures tab).bind fun t₁ _ _ hcleared ↦ ?_)
        refine (updateTab_shape s t₁).mono fun s' _ _ hshape t' ht' ↦ ?_
        rcases hshape t' ht' with hold | hsame
        · exact becomes_of_mem hold
        · exact .cleared tab htab ((hcleared.congr hsame).anti hsub)
      · exact (applyCloseTab_changes s tab.id).some
    · rw [hclose]
      refine Ensures.bind (P := fun r _ ↦ r = some next) (Ensures.pure rfl) fun r _ _ hr ↦ ?_
      subst hr
      exact Changes.some (updateTab_changes htab
        ⟨hid, fun _ ↦ rfl, fun _ ↦ rfl, fun _ halone ↦ halone.delete paneId⟩)
  · cases result with
    | none => exact fun t' ht' ↦ becomes_of_mem ht'
    | some s' => exact hresult s' rfl

theorem applyReplacePaneTarget_changes (h : SnapshotOk allowed used s) (paneId : String)
    {target : ViewTarget} (htarget : proper → target.kind ≠ .welcome) :
    Changes proper keeps used used s (applyReplacePaneTarget s paneId target) := by
  rw [applyReplacePaneTarget]
  refine getActiveTab_then fun tab htab _ ↦ ?_
  split
  · exact changes_pure fun _ ht ↦ ht
  rename_i view hview
  have hretarget : Changes proper keeps used used s (updateTab s { tab with
      panes := tab.panes.set paneId
        { view with definitionId := definitionIdForTarget target, target } }) :=
    updateTab_changes htab ⟨rfl, fun _ ↦ rfl, fun _ ↦ rfl, fun hproper halone ↦
      halone.set (OrderedMap.mem_keys_of_get hview) (htarget hproper)⟩
  dsimp only
  split
  · split
    · refine (closePaneInTab_ensures proper (keeps tab.id) (h.tabs_ok.tab_ok tab htab) paneId).bind
        fun t₁ _ _ hclosed ↦ ?_
      have hbecomes : Becomes proper keeps used s.tabs t₁ := by
        rcases hclosed with ⟨hrewrites, -⟩ | ⟨hcleared, -⟩
        · exact .rewritten tab htab hrewrites
        · exact .cleared tab htab hcleared
      refine (focusPane_ensures _ _).mono fun s' _ _ hfocus t' ht' ↦ ?_
      obtain ⟨t₂, ht₂, hsame⟩ := hfocus t' ht'
      exact (replaceTab_becomes hbecomes ht₂).congr hsame
    · exact hretarget
  · exact hretarget

/-! ## Layout commands and the tab strip -/

theorem applySetLayoutMode_changes (hkeeps : ¬keeps s.activeTabId) (mode : LayoutMode) :
    Changes proper keeps used used' s (applySetLayoutMode s mode) := by
  rw [applySetLayoutMode]
  refine getActiveTab_then fun tab htab hactive ↦ ?_
  have hnot : ¬keeps tab.id := hactive ▸ hkeeps
  have hrewrites : ∀ t₁ : WorkbenchTab, t₁.id = tab.id → t₁.panes = tab.panes →
      Rewrites proper (keeps tab.id) tab t₁ := fun t₁ hid hpanes ↦
    ⟨hid, fun hk ↦ absurd hk hnot, fun hk ↦ absurd hk hnot, fun _ halone ↦ hpanes ▸ halone⟩
  split
  · exact changes_pure fun _ ht ↦ ht
  cases mode with
  | scrolling =>
    exact (draws_reconcileColumns _ _).then fun columns _ _ ↦
      updateTab_changes htab (hrewrites _ rfl rfl)
  | bsp =>
    exact (draws_reconcileBsp _ _).then fun layout _ _ ↦
      updateTab_changes htab (hrewrites _ rfl rfl)

theorem applyColumnChange_changes (s : WorkbenchSnapshot) (columnId : String)
    (change : ColumnChange) :
    Changes proper keeps used used' s (applyColumnChange s columnId change) := by
  rw [applyColumnChange]
  refine getActiveTab_then fun tab htab _ ↦ ?_
  split
  · exact changes_pure fun _ ht ↦ ht
  dsimp only
  split
  · exact changes_pure fun _ ht ↦ ht
  · exact updateTab_changes htab (SameShape.rewrites ⟨rfl, rfl, rfl, rfl⟩)

theorem applyMoveInColumn_changes (s : WorkbenchSnapshot) (paneId : String)
    (direction : ColumnDirection) :
    Changes proper keeps used used' s (applyMoveInColumn s paneId direction) := by
  rw [applyMoveInColumn]
  refine getActiveTab_then fun tab htab _ ↦ ?_
  split
  · split
    · exact updateTab_changes htab (SameShape.rewrites ⟨rfl, rfl, rfl, rfl⟩)
    · exact changes_pure fun _ ht ↦ ht
  · exact changes_pure fun _ ht ↦ ht

theorem applySetSplitRatio_changes (s : WorkbenchSnapshot) (splitId : String) (index : ℤ)
    (ratio : JsNumber) :
    Changes proper keeps used used' s (applySetSplitRatio s splitId index ratio) := by
  cases ratio with
  | nonFinite => exact getActiveTab_then fun tab _ _ ↦ changes_pure fun _ ht ↦ ht
  | finite ratio =>
    rw [applySetSplitRatio]
    refine getActiveTab_then fun tab htab _ ↦ ?_
    split
    · exact changes_pure fun _ ht ↦ ht
    · exact updateTab_changes htab (SameShape.rewrites ⟨rfl, rfl, rfl, rfl⟩)

theorem applyCreateTab_changes (s : WorkbenchSnapshot) :
    Changes proper keeps used used s (applyCreateTab s) := by
  rw [applyCreateTab]
  refine (@welcomeTab_post used).ensures.bind
    fun tab _ _ hwelcome ↦ ?_
  obtain ⟨⟨paneId, view, hsingle⟩, hnew, _⟩ := hwelcome
  refine Ensures.pure fun t' ht' ↦ ?_
  rcases List.mem_append.mp ht' with hold | hmem
  · exact becomes_of_mem hold
  · obtain rfl := List.mem_singleton.mp hmem
    exact .opened hnew fun _ ↦ hsingle.panes_eq ▸ welcomeAlone_singleton paneId view

theorem applyRenameTab_changes (s : WorkbenchSnapshot) (tabId : String) (title : Option String) :
    Changes proper keeps used used' s (applyRenameTab s tabId title) := by
  rw [applyRenameTab]
  split
  · exact changes_pure fun _ ht ↦ ht
  · rename_i tab hfind
    exact updateTab_changes (mem_of_findTab hfind).1 (SameShape.rewrites ⟨rfl, rfl, rfl, rfl⟩)

/-! ## Bulk removal -/

theorem removeFrom_ensures (t : WorkbenchTab) (removals : Removals) {keeps : Prop} :
    Ensures used (removeFrom removals t) fun r _ ↦ Rewrites proper keeps t r.1 ∨
      Cleared used t r.1 := by
  rw [removeFrom.eq_def]
  split
  · exact Ensures.pure (.inl (SameShape.refl t).rewrites)
  · exact Ensures.pure (.inl (SameShape.refl t).rewrites)
  rename_i paneIds _ _
  rw [removePaneIdsFromTab]
  refine Ensures.bind (P := fun _ used' ↦ used' = used) (Ensures.ofExcept fun _ _ ↦ rfl)
    fun r _ _ hused ↦ ?_
  subst hused
  split
  · exact (clearedTab_ensures t).bind fun t₁ _ _ hcleared ↦ Ensures.pure (.inr hcleared)
  refine (Ensures.ofExcept (Q := fun _ _ ↦ True) fun _ _ ↦ trivial).bind fun focus _ _ _ ↦ ?_
  refine (reconcileTab_ensures _).bind fun t₁ _ _ hsame ↦ Ensures.pure (.inl (.congr ?_ hsame))
  exact ⟨rfl, fun _ ↦ rfl, fun _ ↦ rfl, fun _ halone ↦
    halone.subset (sublist_foldl_delete paneIds t.panes).subset⟩

theorem removePaneIdsFromTabs_changes (s : WorkbenchSnapshot) (removals : Removals)
    (policy : EmptiedTabPolicy) :
    Changes proper keeps used used s (removePaneIdsFromTabs s removals policy) := by
  rw [removePaneIdsFromTabs]
  split
  · exact changes_pure fun _ ht ↦ ht
  refine (Ensures.mapM (R := fun t r ↦ Rewrites proper (keeps t.id) t r.1 ∨ Cleared used t r.1)
    fun t _ used' hsub ↦ (removeFrom_ensures t removals).mono fun r _ _ hr ↦
      hr.imp_right fun hcleared ↦ hcleared.anti hsub).bind fun rs _ _ hrs ↦ ?_
  have hall : ∀ t' ∈ rs.map Prod.fst, Becomes proper keeps used s.tabs t' := by
    intro t' ht'
    obtain ⟨r, hr, rfl⟩ := List.mem_map.mp ht'
    obtain ⟨t, ht, hcases⟩ := hrs r hr
    exact hcases.elim (.rewritten t ht) (.cleared t ht)
  dsimp only
  generalize rs.map Prod.fst = tabs at hall
  generalize (rs.filter Prod.snd).map (fun r ↦ r.1.id) = emptied
  split
  · exact Ensures.pure hall
  split
  · split
    · rename_i keeper hkeeper
      refine Ensures.pure fun t' ht' ↦ ?_
      obtain rfl := List.mem_singleton.mp ht'
      refine hall _ ?_
      cases hfind : tabs.find? fun tab ↦ tab.id = s.activeTabId with
      | none =>
        rw [hfind] at hkeeper
        exact List.mem_of_head? hkeeper
      | some found =>
        rw [hfind] at hkeeper
        cases hkeeper
        exact List.mem_of_find?_eq_some hfind
    · exact Ensures.throw _
  · refine (Ensures.ofExcept (Q := fun _ _ ↦ True) fun _ _ ↦ trivial).bind fun _ _ _ _ ↦ ?_
    exact Ensures.pure fun t' ht' ↦ hall t' (List.mem_filter.mp ht').1

end Awen.Workbench
