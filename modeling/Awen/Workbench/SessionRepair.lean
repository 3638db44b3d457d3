import Awen.Library.Groups
import Awen.Workbench.DecodedTabs

/-!
# Repairing doubled Sessions

Layouts saved by earlier versions may show one Session in several Panes. The repair keeps one Pane
for each *target key*, while a Session is its kind and three ids: since a key joins the ids with
colons, Sessions whose ids contain colons can share one, and of these the repair keeps a single
View.

`Repaired` says what the repair is for: every Session keeps exactly one Pane, the one the user most
likely looks at, and every other View stays. `deduped_iff` shows that a decoded workbench is
repaired so, and only once, exactly when the keys of its Session Views tell its Sessions apart.
-/

namespace Awen.Workbench

open LayoutNode

/-! ## Places -/

/-- All Panes of some Tabs with the targets they show, leftmost Tab first. -/
def shownAt (tabs : List WorkbenchTab) : List (PaneLocation × ViewTarget) :=
  tabs.flatMap fun t ↦ t.panes.entries.map fun e ↦ (⟨t.id, e.1⟩, e.2.target)

/-- The Panes that show a target with the given property. -/
def placesWhere (p : ViewTarget → Bool) (tabs : List WorkbenchTab) : List PaneLocation :=
  ((shownAt tabs).filter (p ·.2)).map Prod.fst

/-- The Panes that show a Session. -/
def placesOf (s : WorkbenchSnapshot) (session : SessionIdentity) : List PaneLocation :=
  placesWhere (fun target ↦ sessionOf target = some session) s.tabs

variable {s s' : WorkbenchSnapshot} {p : ViewTarget → Bool} {place : PaneLocation}

theorem mem_placesWhere {tabs : List WorkbenchTab} : place ∈ placesWhere p tabs ↔
    ∃ target, (place, target) ∈ shownAt tabs ∧ p target = true := by
  rw [placesWhere, List.mem_map]
  constructor
  · rintro ⟨x, hx, rfl⟩
    obtain ⟨hx, hp⟩ := List.mem_filter.mp hx
    exact ⟨x.2, hx, hp⟩
  · rintro ⟨target, hx, hp⟩
    exact ⟨(place, target), List.mem_filter.mpr ⟨hx, hp⟩, rfl⟩

/-- No Pane is listed twice. -/
theorem SnapshotReadable.nodup_places (h : SnapshotReadable s) :
    ((shownAt s.tabs).map Prod.fst).Nodup := by
  have hids := h.nodup_ids
  generalize s.tabs = tabs at hids
  have hplaces : (shownAt tabs).map Prod.fst
      = tabs.flatMap fun t ↦ t.panes.keys.map (PaneLocation.mk t.id) := by
    simp only [shownAt, List.map_flatMap, List.map_map, OrderedMap.keys]
    rfl
  rw [hplaces, List.nodup_flatMap]
  refine ⟨fun t _ ↦ t.panes.nodup.map fun a b hab ↦ congrArg PaneLocation.paneId hab, ?_⟩
  refine (List.pairwise_map.mp hids).imp fun {t u} hne ↦ ?_
  intro place ht hu
  obtain ⟨_, _, rfl⟩ := List.mem_map.mp ht
  obtain ⟨_, _, hplace⟩ := List.mem_map.mp hu
  exact hne (congrArg PaneLocation.tabId hplace).symm

theorem SnapshotReadable.nodup_placesWhere (h : SnapshotReadable s) :
    (placesWhere p s.tabs).Nodup :=
  h.nodup_places.sublist (List.filter_sublist.map Prod.fst)

theorem SnapshotReadable.target_eq (h : SnapshotReadable s) {a b : ViewTarget}
    (ha : (place, a) ∈ shownAt s.tabs) (hb : (place, b) ∈ shownAt s.tabs) : a = b :=
  congrArg Prod.snd (List.inj_on_of_nodup_map h.nodup_places ha hb rfl)

/-! ## What the repair is for -/

/-- The Pane that is kept of several: the focused Pane of the active Tab if it is one of them, else
one in the active Tab, else the leftmost. -/
structure IsKeeper (s : WorkbenchSnapshot) (places : List PaneLocation) (place : PaneLocation) :
    Prop where
  mem : place ∈ places
  focused : ∀ t, findTab s s.activeTabId = some t → ⟨t.id, t.focusedPaneId⟩ ∈ places →
    place = ⟨t.id, t.focusedPaneId⟩
  active : (∃ other ∈ places, other.tabId = s.activeTabId) → place.tabId = s.activeTabId
  leftmost : (∀ other ∈ places, other.tabId ≠ s.activeTabId) → places.head? = some place

/-- A Tab after the Views at the places `gone` were closed: the others are as they were, and a Tab
that lost all of its Views shows a Welcome. -/
structure TabWithout (gone : PaneLocation → Prop) (t t' : WorkbenchTab) : Prop where
  id_eq : t'.id = t.id
  untouched : (∀ e ∈ t.panes.entries, ¬gone ⟨t.id, e.1⟩) → t' = t
  kept : (∃ e ∈ t.panes.entries, ¬gone ⟨t.id, e.1⟩) →
    t'.panes.entries.Sublist t.panes.entries ∧
      ∀ e ∈ t.panes.entries, e ∈ t'.panes.entries ↔ ¬gone ⟨t.id, e.1⟩
  emptied : (∀ e ∈ t.panes.entries, gone ⟨t.id, e.1⟩) → ShowsWelcome t'

/-- Every Session that was shown is shown exactly once, where its Views ask for it, and every View
that is not one of the other occurrences is as it was. -/
structure Repaired (s s' : WorkbenchSnapshot) : Prop where
  active_eq : s'.activeTabId = s.activeTabId
  once : ∀ session, placesOf s session ≠ [] →
    ∃ place, IsKeeper s (placesOf s session) place ∧ placesOf s' session = [place]
  others : List.Forall₂
    (TabWithout fun place ↦ ∃ session, place ∈ placesOf s session ∧ place ∉ placesOf s' session)
    s.tabs s'.tabs

/-- The repair returns a repaired workbench, whatever ids it draws, and repairing that again returns
it as it is. -/
def Deduped (s : WorkbenchSnapshot) : Prop :=
  ∀ supply, ∃ s' rest, applyDedupeSessionViews s supply = .ok (s', rest) ∧ Repaired s s' ∧
    ∀ supply', applyDedupeSessionViews s' supply' = .ok (s', supply')

/-- Session Views with one target key show one Session. -/
def KeysTellApart (s : WorkbenchSnapshot) : Prop :=
  ∀ a ∈ shownAt s.tabs, ∀ b ∈ shownAt s.tabs, isSessionViewTarget a.2 = true →
    isSessionViewTarget b.2 = true → targetKey a.2 = targetKey b.2 →
      isSameSessionTarget a.2 b.2 = true

instance : Decidable (KeysTellApart s) := inferInstanceAs (Decidable (∀ a ∈ _, ∀ b ∈ _, _ → _))

/-! ## What is closed -/

/-- The Panes of the Session Views with a target key. -/
def placesAt (s : WorkbenchSnapshot) (key : String) : List PaneLocation :=
  placesWhere (fun target ↦ isSessionViewTarget target ∧ targetKey target = key) s.tabs

theorem sessionOccurrences_eq (s : WorkbenchSnapshot) : sessionOccurrences s
    = collectBy (fun x ↦ targetKey x.2) Prod.fst
        ((shownAt s.tabs).filter (isSessionViewTarget ·.2)) := by
  rw [sessionOccurrences, collectBy, List.foldl_filter, shownAt, List.foldl_flatMap]
  congr 1
  funext occurrences t
  rw [List.foldl_map]

theorem mem_values_sessionOccurrences {entries : List PaneLocation} :
    entries ∈ (sessionOccurrences s).values ↔ ∃ x ∈ shownAt s.tabs,
      isSessionViewTarget x.2 = true ∧ entries = placesAt s (targetKey x.2) := by
  have hgroup (key : String) : (((shownAt s.tabs).filter (isSessionViewTarget ·.2)).filter
      fun x ↦ targetKey x.2 = key).map Prod.fst = placesAt s key := by
    rw [List.filter_filter, placesAt, placesWhere]
    refine congrArg _ (List.filter_congr fun x _ ↦ ?_)
    rw [Bool.decide_and, Bool.decide_eq_true, Bool.and_comm]
  rw [sessionOccurrences_eq, mem_values_collectBy]
  simp only [hgroup, List.mem_filter]
  exact exists_congr fun x ↦ and_assoc

theorem lists_add {removals : Removals} {tabId paneId : String} :
    (Removals.add removals tabId paneId).lists place = true ↔
      removals.lists place = true ∨ place = ⟨tabId, paneId⟩ := by
  obtain ⟨t, q⟩ := place
  rw [Removals.add, Removals.lists, Removals.lists, decide_eq_true_iff, decide_eq_true_iff]
  by_cases ht : t = tabId
  · subst ht
    dsimp only
    rw [OrderedMap.get_set_self, Option.getD_some]
    split
    · exact ⟨Or.inl, fun h ↦ h.elim id fun h ↦ by cases h; assumption⟩
    · rw [List.mem_append, List.mem_singleton, PaneLocation.mk.injEq, eq_self, true_and]
  · dsimp only
    rw [OrderedMap.get_set_of_ne ht, PaneLocation.mk.injEq]
    simp [ht]

/-- Steps that each list more Panes list what one of them does. -/
private theorem lists_foldl {β : Type} {step : Removals → β → Removals}
    {A : β → PaneLocation → Prop}
    (hstep : ∀ removals b, (step removals b).lists place = true ↔
      removals.lists place = true ∨ A b place) (bs : List β) :
    ∀ removals, (bs.foldl step removals).lists place = true ↔
      removals.lists place = true ∨ ∃ b ∈ bs, A b place := by
  induction bs with
  | nil => simp
  | cons b bs ih =>
    intro removals
    rw [List.foldl_cons, ih, hstep, or_assoc, List.exists_mem_cons_iff]

theorem keptOccurrence_singleton (s : WorkbenchSnapshot) (place : PaneLocation) :
    keptOccurrence s [place] = some place := by
  rw [keptOccurrence, List.find?_cons, List.find?_cons]
  split
  · rfl
  · split <;> rfl

/-- **A Pane is closed** when it is not the one kept for its key. -/
theorem lists_dedupeRemovals : (dedupeRemovals s).lists place = true ↔
    ∃ key, place ∈ placesAt s key ∧ keptOccurrence s (placesAt s key) ≠ some place := by
  have hone (entries : List PaneLocation) (removals : Removals) :
      (if entries.length ≤ 1 then removals
        else entries.foldl (fun removals entry ↦
          if some entry = keptOccurrence s entries then removals
          else Removals.add removals entry.tabId entry.paneId) removals).lists place = true ↔
        removals.lists place = true ∨
          (place ∈ entries ∧ keptOccurrence s entries ≠ some place) := by
    split
    · rename_i hlength
      refine (or_iff_left ?_).symm
      rintro ⟨hmem, hne⟩
      obtain ⟨b, rfl⟩ := List.length_eq_one_iff.mp
        (le_antisymm hlength (List.length_pos_of_mem hmem))
      rw [List.mem_singleton] at hmem
      exact hne (hmem ▸ keptOccurrence_singleton s b)
    · rw [lists_foldl (A := fun entry place ↦
        some entry ≠ keptOccurrence s entries ∧ place = entry)]
      · refine or_congr_right ⟨?_, fun ⟨hmem, hne⟩ ↦ ⟨place, hmem, fun h ↦ hne h.symm, rfl⟩⟩
        rintro ⟨entry, hmem, hne, rfl⟩
        exact ⟨hmem, fun h ↦ hne h.symm⟩
      · intro removals entry
        split
        · rename_i heq
          exact (or_iff_left fun h ↦ h.1 heq).symm
        · rename_i hne
          rw [lists_add]
          exact or_congr_right (and_iff_right hne).symm
  have hempty : ¬Removals.lists OrderedMap.empty place = true := by
    simp [Removals.lists, OrderedMap.get]
  rw [dedupeRemovals, lists_foldl (A := fun entries place ↦
    place ∈ entries ∧ keptOccurrence s entries ≠ some place)
    (fun removals entries ↦ hone entries removals), or_iff_right hempty]
  simp only [mem_values_sessionOccurrences]
  constructor
  · rintro ⟨_, ⟨x, -, -, rfl⟩, hmem, hne⟩
    exact ⟨targetKey x.2, hmem, hne⟩
  · rintro ⟨key, hmem, hne⟩
    obtain ⟨target, hx, hp⟩ := mem_placesWhere.mp hmem
    obtain ⟨hsession, rfl⟩ := of_decide_eq_true hp
    exact ⟨_, ⟨(place, target), hx, hsession, rfl⟩, hmem, hne⟩

/-- The kept Pane is the one its Views ask for. -/
theorem isKeeper_of_keptOccurrence {places : List PaneLocation}
    (h : keptOccurrence s places = some place) : IsKeeper s places place := by
  rw [keptOccurrence] at h
  generalize hfocus : places.find? (fun entry ↦ entry.tabId = s.activeTabId ∧
    some entry.paneId = (findTab s s.activeTabId).map fun tab ↦ tab.focusedPaneId) = focus at h
  generalize hactive : places.find? (fun entry ↦ entry.tabId = s.activeTabId) = active at h
  have hnone (hnone : focus = none) (t : WorkbenchTab) (ht : findTab s s.activeTabId = some t)
      (hmem : ⟨t.id, t.focusedPaneId⟩ ∈ places) : False := by
    rw [hnone] at hfocus
    have hnot := List.find?_eq_none.mp hfocus _ hmem
    rw [ht] at hnot
    exact hnot (by simp [(findTab_eq_some ht).1])
  cases focus with
  | some entry =>
    cases h
    have hentry := List.find?_some hfocus
    rw [decide_eq_true_iff] at hentry
    have hmem := List.mem_of_find?_eq_some hfocus
    refine ⟨hmem, fun t ht _ ↦ ?_, fun _ ↦ hentry.1, fun hnot ↦ absurd hentry.1 (hnot _ hmem)⟩
    rw [ht, Option.map_some, Option.some_inj] at hentry
    exact PaneLocation.ext (hentry.1.trans (findTab_eq_some ht).1.symm) hentry.2
  | none =>
    cases active with
    | some entry =>
      cases h
      have hentry := List.find?_some hactive
      rw [decide_eq_true_iff] at hentry
      have hmem := List.mem_of_find?_eq_some hactive
      exact ⟨hmem, fun t ht hfocused ↦ (hnone rfl t ht hfocused).elim, fun _ ↦ hentry,
        fun hnot ↦ absurd hentry (hnot _ hmem)⟩
    | none =>
      have hhead : places.head? = some place := h
      refine ⟨List.mem_of_head? hhead, fun t ht hfocused ↦ (hnone rfl t ht hfocused).elim, ?_,
        fun _ ↦ hhead⟩
      rintro ⟨other, hmem, htab⟩
      exact absurd (decide_eq_true htab) (List.find?_eq_none.mp hactive other hmem)

theorem exists_keptOccurrence {places : List PaneLocation} (h : places ≠ []) :
    ∃ place ∈ places, keptOccurrence s places = some place := by
  cases hkept : keptOccurrence s places with
  | none =>
    rw [keptOccurrence] at hkept
    simp only [Option.orElse_eq_orElse, Option.orElse_eq_or, Option.or_eq_none_iff] at hkept
    exact absurd (List.head?_eq_none_iff.mp hkept.2.2) h
  | some place => exact ⟨place, (isKeeper_of_keptOccurrence hkept).mem, rfl⟩

/-! ## What is left -/

private theorem placesWhere_cons (t : WorkbenchTab) (tabs : List WorkbenchTab) :
    placesWhere p (t :: tabs)
      = (t.panes.entries.filter (p ·.2.target)).map (fun e ↦ ⟨t.id, e.1⟩)
        ++ placesWhere p tabs := by
  rw [placesWhere, shownAt, List.flatMap_cons, List.filter_append, List.map_append,
    List.filter_map, List.map_map]
  rfl

/-- **The places that are left** after closing Panes are those that were not closed. -/
theorem placesWhere_of_closesPanes {gone : PaneLocation → Bool} (hp : p welcomeTarget = false)
    {ts ts' : List WorkbenchTab} (h : List.Forall₂ (ClosesPanes gone) ts ts') :
    placesWhere p ts' = (placesWhere p ts).filter fun place ↦ !gone place := by
  induction h with
  | nil => rfl
  | @cons t t' ts ts' ht _ ih =>
    have hleft : (t.panes.entries.filter (p ·.2.target)).filter (fun e ↦ !gone ⟨t.id, e.1⟩)
        = (t.panes.entries.filter fun e ↦ !gone ⟨t.id, e.1⟩).filter (p ·.2.target) := by
      rw [List.filter_filter, List.filter_filter]
      exact List.filter_congr fun e _ ↦ Bool.and_comm _ _
    rw [placesWhere_cons, placesWhere_cons, List.filter_append, ← ih, List.filter_map, ht.id_eq]
    refine congrArg (· ++ _) (congrArg (List.map _) ?_)
    change t'.panes.entries.filter _ = (t.panes.entries.filter (p ·.2.target)).filter
      (fun e ↦ !gone ⟨t.id, e.1⟩)
    rw [hleft]
    rcases ht.entries with ⟨-, hentries⟩ | ⟨hnil, paneId, view, hentries, htarget⟩
    · rw [hentries]
    · rw [hentries, hnil, List.filter_nil, List.filter_cons_of_neg (by simp [htarget, hp]),
        List.filter_nil]

/-- The repair closes what is not kept, and leaves the rest. -/
theorem applyDedupeSessionViews_returns (h : SnapshotReadable s) :
    Supply.Returns (applyDedupeSessionViews s) fun s' ↦ s'.activeTabId = s.activeTabId ∧
      List.Forall₂ (ClosesPanes (dedupeRemovals s).lists) s.tabs s'.tabs :=
  removePaneIdsFromTabs_returns h.tab_readable _

/-- Of the Panes with one key, the kept one is left. -/
theorem placesAt_eq_singleton (h : SnapshotReadable s)
    (hclose : List.Forall₂ (ClosesPanes (dedupeRemovals s).lists) s.tabs s'.tabs) {key : String}
    (hkept : keptOccurrence s (placesAt s key) = some place) : placesAt s' key = [place] := by
  have hleft : placesAt s' key
      = (placesAt s key).filter fun place ↦ !(dedupeRemovals s).lists place :=
    placesWhere_of_closesPanes
      (by simp [isSessionViewTarget, welcomeTarget, ViewTarget.kind]) hclose
  have hone : (placesAt s key).filter (fun place ↦ !(dedupeRemovals s).lists place)
      = (placesAt s key).filter fun other ↦ other = place := by
    refine List.filter_congr fun other hother ↦ ?_
    rw [Bool.eq_iff_iff, Bool.not_eq_true', ← Bool.not_eq_true, decide_eq_true_iff,
      lists_dedupeRemovals]
    constructor
    · intro hnot
      by_contra hne
      exact hnot ⟨key, hother, fun heq ↦ hne (Option.some_inj.mp (heq.symm.trans hkept))⟩
    · rintro rfl ⟨key', hmem, hne⟩
      -- a Pane shows one target, so it is listed under one key
      obtain ⟨a, ha, hka⟩ := mem_placesWhere.mp hother
      obtain ⟨b, hb, hkb⟩ := mem_placesWhere.mp hmem
      have hkey : key = key' := (of_decide_eq_true hka).2.symm.trans
        (h.target_eq ha hb ▸ (of_decide_eq_true hkb).2)
      exact hne (hkey ▸ hkept)
  have hcount : (placesAt s key).count place = 1 :=
    List.count_eq_one_of_mem h.nodup_placesWhere (isKeeper_of_keptOccurrence hkept).mem
  rw [hleft, hone, List.filter_eq, hcount, List.replicate_one]

/-- **Repairing once is enough.** -/
theorem applyDedupeSessionViews_again (h : SnapshotReadable s)
    (hclose : List.Forall₂ (ClosesPanes (dedupeRemovals s).lists) s.tabs s'.tabs)
    (supply : Stream' String) : applyDedupeSessionViews s' supply = .ok (s', supply) := by
  have hnone : dedupeRemovals s' = OrderedMap.empty := by
    have hshort : ∀ entries ∈ (sessionOccurrences s').values, entries.length ≤ 1 := by
      intro entries hentries
      obtain ⟨x, -, -, rfl⟩ := mem_values_sessionOccurrences.mp hentries
      by_cases hnil : placesAt s (targetKey x.2) = []
      · have hleft : placesAt s' (targetKey x.2)
            = (placesAt s (targetKey x.2)).filter fun place ↦ !(dedupeRemovals s).lists place :=
          placesWhere_of_closesPanes
            (by simp [isSessionViewTarget, welcomeTarget, ViewTarget.kind]) hclose
        rw [hleft, hnil, List.filter_nil]
        exact Nat.zero_le 1
      · obtain ⟨place, -, hkept⟩ := exists_keptOccurrence (s := s) hnil
        rw [placesAt_eq_singleton h hclose hkept]
        exact le_rfl
    rw [dedupeRemovals]
    generalize (sessionOccurrences s').values = values at hshort
    induction values with
    | nil => rfl
    | cons entries values ih =>
      rw [List.foldl_cons, if_pos (hshort entries List.mem_cons_self)]
      exact ih fun entries hentries ↦ hshort entries (List.mem_cons_of_mem _ hentries)
  rw [applyDedupeSessionViews, hnone]
  rfl

theorem placesOf_of_closesPanes
    (hclose : List.Forall₂ (ClosesPanes (dedupeRemovals s).lists) s.tabs s'.tabs)
    (session : SessionIdentity) : placesOf s' session
      = (placesOf s session).filter fun place ↦ !(dedupeRemovals s).lists place :=
  placesWhere_of_closesPanes (by simp [sessionOf, welcomeTarget]) hclose

/-- What is closed are the occurrences of Sessions that are gone afterwards. -/
theorem lists_iff_gone
    (hclose : List.Forall₂ (ClosesPanes (dedupeRemovals s).lists) s.tabs s'.tabs) :
    (dedupeRemovals s).lists place = true ↔
      ∃ session, place ∈ placesOf s session ∧ place ∉ placesOf s' session := by
  constructor
  · intro hlists
    obtain ⟨key, hmem, -⟩ := lists_dedupeRemovals.mp hlists
    obtain ⟨target, hx, hp⟩ := mem_placesWhere.mp hmem
    obtain ⟨session, hsession⟩ := isSessionViewTarget_iff.mp (of_decide_eq_true hp).1
    refine ⟨session, mem_placesWhere.mpr ⟨target, hx, decide_eq_true hsession⟩, ?_⟩
    rw [placesOf_of_closesPanes hclose, List.mem_filter, hlists]
    exact fun h ↦ Bool.false_ne_true h.2
  · rintro ⟨session, hmem, hnot⟩
    by_contra hlists
    refine hnot ?_
    rw [placesOf_of_closesPanes hclose, List.mem_filter]
    exact ⟨hmem, by simpa using hlists⟩

/-! ## When the repair is right -/

theorem tabWithout_of_closesPanes {gone : PaneLocation → Bool} {t t' : WorkbenchTab}
    (h : ClosesPanes gone t t') (hgone : ∀ paneId, gone ⟨t.id, paneId⟩ = true →
      paneId ∈ t.panes.keys) : TabWithout (gone · = true) t t' := by
  refine ⟨h.id_eq, fun hnone ↦ h.untouched fun paneId ↦ ?_, ?_, fun hall ↦ ?_⟩
  · rw [← Bool.not_eq_true]
    intro htrue
    obtain ⟨e, he, rfl⟩ := List.mem_map.mp (hgone paneId htrue)
    exact hnone e he htrue
  · rintro ⟨e, he, hkeep⟩
    rcases h.entries with ⟨-, hentries⟩ | ⟨hnil, -⟩
    · rw [hentries]
      refine ⟨List.filter_sublist, fun e he ↦ ?_⟩
      rw [List.mem_filter, and_iff_right he, Bool.not_eq_true', Bool.not_eq_true]
    · exact absurd (by simpa using hkeep) (List.filter_eq_nil_iff.mp hnil e he)
  · rcases h.entries with ⟨hne, -⟩ | ⟨-, hwelcome⟩
    · exact absurd (List.filter_eq_nil_iff.mpr fun e he ↦ by simp [hall e he]) hne
    · exact hwelcome

/-- A Pane that is shown belongs to the Tab of its place. -/
theorem SnapshotReadable.mem_keys (h : SnapshotReadable s) {t : WorkbenchTab} (ht : t ∈ s.tabs)
    {paneId : String} {target : ViewTarget} (hx : (⟨t.id, paneId⟩, target) ∈ shownAt s.tabs) :
    paneId ∈ t.panes.keys := by
  obtain ⟨u, hu, hx⟩ := List.mem_flatMap.mp hx
  obtain ⟨e, he, hplace⟩ := List.mem_map.mp hx
  have hid : u.id = t.id := congrArg (fun x ↦ x.1.tabId) hplace
  have hpane : e.1 = paneId := congrArg (fun x ↦ x.1.paneId) hplace
  rw [← List.inj_on_of_nodup_map h.nodup_ids hu ht hid, ← hpane]
  exact List.mem_map_of_mem he

/-- Keys that tell Sessions apart make the repair exact. -/
theorem repaired_of_keysTellApart (h : SnapshotReadable s) (hkeys : KeysTellApart s)
    (hactive : s'.activeTabId = s.activeTabId)
    (hclose : List.Forall₂ (ClosesPanes (dedupeRemovals s).lists) s.tabs s'.tabs) :
    Repaired s s' := by
  refine ⟨hactive, fun session hne ↦ ?_, ?_⟩
  · obtain ⟨first, hfirst⟩ := List.exists_mem_of_ne_nil _ hne
    obtain ⟨target, hx, hsession⟩ := mem_placesWhere.mp hfirst
    rw [decide_eq_true_iff] at hsession
    have hview := isSessionViewTarget_iff.mpr ⟨session, hsession⟩
    -- the Panes with the key of a Session are its Panes
    have hplaces : placesAt s (targetKey target) = placesOf s session := by
      refine congrArg (List.map Prod.fst) (List.filter_congr fun x hmem ↦ decide_eq_decide.mpr ?_)
      constructor
      · rintro ⟨hx', hkey⟩
        obtain ⟨session', hsame, hsame'⟩ := isSameSessionTarget_iff.mp
          (hkeys x hmem (first, target) hx hx' hview hkey)
        exact hsame.trans (hsame'.symm.trans hsession)
      · exact fun hx' ↦ ⟨isSessionViewTarget_iff.mpr ⟨session, hx'⟩,
          targetKey_eq_of_sessionOf hx' hsession⟩
    obtain ⟨place, -, hkept⟩ := exists_keptOccurrence (s := s) (hplaces.symm ▸ hne)
    refine ⟨place, isKeeper_of_keptOccurrence (hplaces ▸ hkept), ?_⟩
    rw [← placesAt_eq_singleton h hclose hkept, placesOf_of_closesPanes hclose, ← hplaces]
    exact (placesWhere_of_closesPanes
      (by simp [isSessionViewTarget, welcomeTarget, ViewTarget.kind]) hclose).symm
  · refine ((List.forall₂_and_left _ _).mpr ⟨fun _ ↦ id, hclose⟩).imp fun t t' hboth ↦ ?_
    obtain ⟨ht, hcloses⟩ := hboth
    simp only [← lists_iff_gone hclose]
    refine tabWithout_of_closesPanes hcloses fun paneId hgone ↦ ?_
    obtain ⟨key, hmem, -⟩ := lists_dedupeRemovals.mp hgone
    obtain ⟨target, hx, -⟩ := mem_placesWhere.mp hmem
    exact h.mem_keys ht hx

/-- Of Sessions that share a key only one is left. -/
theorem keysTellApart_of_deduped (h : SnapshotReadable s) (hdeduped : Deduped s) :
    KeysTellApart s := by
  intro a ha b hb hviewA hviewB hkey
  obtain ⟨s', rest, hrun, hrepaired, -⟩ := hdeduped (Stream'.const "")
  obtain ⟨-, hclose⟩ := (applyDedupeSessionViews_returns h).of_eq hrun
  have hat : a.1 ∈ placesAt s (targetKey a.2) :=
    mem_placesWhere.mpr ⟨a.2, ha, decide_eq_true ⟨hviewA, rfl⟩⟩
  obtain ⟨place, -, hkept⟩ := exists_keptOccurrence (s := s) (List.ne_nil_of_mem hat)
  have hleft := placesAt_eq_singleton h hclose hkept
  have hshown {x : PaneLocation × ViewTarget} (hx : x ∈ shownAt s.tabs)
      (hview : isSessionViewTarget x.2 = true) (hxkey : targetKey x.2 = targetKey a.2) :
      ∃ session, sessionOf x.2 = some session ∧
        ∀ target, (place, target) ∈ shownAt s.tabs → sessionOf target = some session := by
    obtain ⟨session, hsession⟩ := isSessionViewTarget_iff.mp hview
    refine ⟨session, hsession, ?_⟩
    have hmem : x.1 ∈ placesOf s session :=
      mem_placesWhere.mpr ⟨x.2, hx, decide_eq_true hsession⟩
    obtain ⟨kept, -, hone⟩ := hrepaired.once session (List.ne_nil_of_mem hmem)
    have hkeptMem : kept ∈ placesOf s' session := hone ▸ List.mem_singleton_self kept
    rw [placesOf_of_closesPanes hclose, List.mem_filter] at hkeptMem
    obtain ⟨target, htarget, hsame⟩ := mem_placesWhere.mp hkeptMem.1
    rw [decide_eq_true_iff] at hsame
    have hat' : kept ∈ placesAt s' (targetKey a.2) := by
      rw [placesAt, placesWhere_of_closesPanes
        (by simp [isSessionViewTarget, welcomeTarget, ViewTarget.kind]) hclose, List.mem_filter]
      refine ⟨mem_placesWhere.mpr ⟨target, htarget, decide_eq_true ⟨?_, ?_⟩⟩, hkeptMem.2⟩
      · exact isSessionViewTarget_iff.mpr ⟨session, hsame⟩
      · rw [targetKey_eq_of_sessionOf hsame hsession, hxkey]
    rw [hleft, List.mem_singleton] at hat'
    subst hat'
    intro target' htarget'
    rw [h.target_eq htarget' htarget]
    exact hsame
  obtain ⟨sessionA, hsessionA, hplaceA⟩ := hshown ha hviewA rfl
  obtain ⟨sessionB, hsessionB, hplaceB⟩ := hshown hb hviewB hkey.symm
  obtain ⟨target, htarget, -⟩ := mem_placesWhere.mp (isKeeper_of_keptOccurrence hkept).mem
  have hsame : sessionA = sessionB :=
    Option.some_inj.mp ((hplaceA target htarget).symm.trans (hplaceB target htarget))
  exact isSameSessionTarget_iff.mpr ⟨sessionA, hsessionA, hsame ▸ hsessionB⟩

/-- **Session repair is exact** for a decoded workbench just when the target keys of its Session
Views tell its Sessions apart. -/
theorem deduped_iff {value : Json} {supply rest : Stream' String} {s : WorkbenchSnapshot}
    (h : deserializeWorkbenchSnapshot value supply = .ok (some s, rest)) :
    Deduped s ↔ KeysTellApart s := by
  have hreadable := SnapshotReadable.of_deserialize h
  refine ⟨keysTellApart_of_deduped hreadable, fun hkeys supply ↦ ?_⟩
  obtain ⟨s', rest, hrun, hactive, hclose⟩ := applyDedupeSessionViews_returns hreadable supply
  exact ⟨s', rest, hrun, repaired_of_keysTellApart hreadable hkeys hactive hclose,
    applyDedupeSessionViews_again hreadable hclose⟩

/-- Two Tabs of one Pane each, the second of which is active. -/
private def twoTabs (first second : TargetBody) : WorkbenchSnapshot where
  tabs := [tab "left" "p" first, tab "right" "q" second]
  activeTabId := "right"
where
  tab (id paneId : String) (body : TargetBody) : WorkbenchTab := {
    id
    layout := .leaf paneId
    focusedPaneId := paneId
    panes := .singleton paneId ⟨paneId ++ "-view", "session", ⟨body, none⟩⟩
    titleMode := .auto
    titleOverride := none }

private def ids : Stream' String := Stream'.const "id"

theorem deduped_mirrored :
    ∃ s rest, deserializeWorkbenchSnapshot (serializeWorkbenchSnapshot
        (twoTabs (.agentSession "env" "w" "s") (.agentSession "env" "w" "s"))) ids
      = .ok (some s, rest) ∧ Deduped s := by
  refine ⟨_, _, rfl, ?_⟩
  refine (deduped_iff (rfl : deserializeWorkbenchSnapshot (serializeWorkbenchSnapshot
    (twoTabs (.agentSession "env" "w" "s") (.agentSession "env" "w" "s"))) ids = _)).mpr ?_
  decide +kernel

/-- Two Sessions of one environment whose ids contain colons share a key, and one of them is
lost. -/
theorem not_deduped_colons : ¬∀ value supply s rest,
    deserializeWorkbenchSnapshot value supply = .ok (some s, rest) → Deduped s := by
  intro h
  have hdecoded : ∃ s rest, deserializeWorkbenchSnapshot (serializeWorkbenchSnapshot
      (twoTabs (.agentSession "env" "w:x" "s") (.agentSession "env" "w" "x:s"))) ids
        = .ok (some s, rest) ∧ ¬KeysTellApart s := ⟨_, _, rfl, by decide +kernel⟩
  obtain ⟨s, rest, hrun, hkeys⟩ := hdecoded
  exact hkeys (keysTellApart_of_deduped (SnapshotReadable.of_deserialize hrun) (h _ _ _ _ hrun))

end Awen.Workbench
