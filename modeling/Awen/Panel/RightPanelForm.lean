import Mathlib
import Awen.Panel.RightPanel

/-!
# The form of the right panel

A record of a thread is well formed if its surfaces have distinct ids, the active id is that of a
surface, its terminal surfaces show one of their terminals, and an open panel with surfaces has an
active one. Most actions keep this form; five rely on their caller or on what the others left
(`ThreadRightPanelState.Accepts`).
-/

namespace Awen.Panel

/-! ## Well-formed records -/

/-- The terminals are distinct and the active one is among them. -/
structure TerminalSurface.WellFormed (surface : TerminalSurface) : Prop where
  nodup : surface.terminalIds.Nodup
  active_mem : surface.activeTerminalId ∈ surface.terminalIds

/-- A surface that is well formed in itself. -/
def RightPanelSurface.WellFormed : RightPanelSurface → Prop
  | .terminal surface => surface.WellFormed
  | _ => True

/-- The surfaces have distinct ids and are well formed. -/
structure WellFormedSurfaces (surfaces : List RightPanelSurface) : Prop where
  nodup_ids : (surfaces.map (·.id)).Nodup
  wellFormed : ∀ surface ∈ surfaces, surface.WellFormed

namespace ThreadRightPanelState

/-- A closed panel may be opened: it has an active surface if it has surfaces. -/
def HasChoice (t : ThreadRightPanelState) : Prop := t.surfaces ≠ [] → t.activeSurfaceId ≠ none

/-- **A record is well formed.** -/
structure WellFormed (t : ThreadRightPanelState) : Prop where
  surfaces : WellFormedSurfaces t.surfaces
  active_mem : ∀ id, t.activeSurfaceId = some id → id ∈ t.surfaces.map (·.id)
  hasChoice : t.isOpen = true → t.HasChoice

/-- What an action relies on to keep a record well formed. -/
def Accepts (t : ThreadRightPanelState) : ThreadAction → Prop
  | .splitTerminal surfaceId _ _ => surfaceId ∈ t.surfaces.map (·.id)
  | .activateTerminal surfaceId _ => surfaceId ∈ t.surfaces.map (·.id)
  | .show' => t.HasChoice
  | .toggleVisibility => t.HasChoice
  | .reconcileBrowserSurfaces tabIds => ((t.addedBrowserSurfaces tabIds).map (·.id)).Nodup
  | _ => True

end ThreadRightPanelState

/-! ## Lists of surfaces -/

namespace WellFormedSurfaces

theorem nil : WellFormedSurfaces [] := ⟨List.nodup_nil, List.forall_mem_nil _⟩

theorem sublist {surfaces others : List RightPanelSurface} (h : WellFormedSurfaces surfaces)
    (hsub : others.Sublist surfaces) : WellFormedSurfaces others where
  nodup_ids := h.nodup_ids.sublist (hsub.map _)
  wellFormed surface hsurface := h.wellFormed surface (hsub.mem hsurface)

theorem filter {surfaces : List RightPanelSurface} (h : WellFormedSurfaces surfaces)
    (p : RightPanelSurface → Bool) : WellFormedSurfaces (surfaces.filter p) :=
  h.sublist List.filter_sublist

theorem append {surfaces others : List RightPanelSurface} (h : WellFormedSurfaces surfaces)
    (hothers : WellFormedSurfaces others)
    (hne : ∀ surface ∈ surfaces, ∀ other ∈ others, surface.id ≠ other.id) :
    WellFormedSurfaces (surfaces ++ others) where
  nodup_ids := by
    rw [List.map_append, List.nodup_append]
    refine ⟨h.nodup_ids, hothers.nodup_ids, fun id hid other hother ↦ ?_⟩
    obtain ⟨surface, hsurface, rfl⟩ := List.mem_map.mp hid
    obtain ⟨surface', hsurface', rfl⟩ := List.mem_map.mp hother
    exact hne surface hsurface surface' hsurface'
  wellFormed surface hsurface :=
    (List.mem_append.mp hsurface).elim (h.wellFormed surface) (hothers.wellFormed surface)

theorem singleton {surface : RightPanelSurface} (h : surface.WellFormed) :
    WellFormedSurfaces [surface] := ⟨List.nodup_singleton _, List.forall_mem_singleton.mpr h⟩

/-- Surfaces that keep their ids. -/
theorem map {surfaces : List RightPanelSurface} (h : WellFormedSurfaces surfaces)
    {change : RightPanelSurface → RightPanelSurface}
    (hid : ∀ surface, (change surface).id = surface.id)
    (hchange : ∀ surface ∈ surfaces, surface.WellFormed → (change surface).WellFormed) :
    WellFormedSurfaces (surfaces.map change) where
  nodup_ids := by
    have hids : (surfaces.map change).map (·.id) = surfaces.map (·.id) := by
      rw [List.map_map]
      exact List.map_congr_left fun surface _ ↦ hid surface
    rw [hids]
    exact h.nodup_ids
  wellFormed surface hsurface := by
    obtain ⟨old, hold, rfl⟩ := List.mem_map.mp hsurface
    exact hchange old hold (h.wellFormed old hold)

end WellFormedSurfaces

theorem map_id_map {surfaces : List RightPanelSurface}
    {change : RightPanelSurface → RightPanelSurface}
    (hid : ∀ surface, (change surface).id = surface.id) :
    (surfaces.map change).map (·.id) = surfaces.map (·.id) := by
  rw [List.map_map]
  exact List.map_congr_left fun surface _ ↦ hid surface

theorem has_iff {surfaces : List RightPanelSurface} {surfaceId : SurfaceId} :
    ThreadRightPanelState.has surfaces surfaceId = true ↔ surfaceId ∈ surfaces.map (·.id) := by
  rw [ThreadRightPanelState.has, List.any_eq_true, List.mem_map]
  exact exists_congr fun surface ↦ and_congr_right fun _ ↦ decide_eq_true_iff

/-- The surface that is replaced is the one with the id. -/
theorem id_replace (surface entry : RightPanelSurface) :
    (if entry.id = surface.id then surface else entry).id = entry.id := by
  split
  next h => exact h.symm
  next => rfl

theorem id_mapTerminal {surfaceId : SurfaceId} {change : TerminalSurface → TerminalSurface}
    (hname : ∀ surface, (change surface).name = surface.name) (surfaces : List RightPanelSurface) :
    (ThreadRightPanelState.mapTerminal surfaces surfaceId change).map (·.id) =
      surfaces.map (·.id) := by
  rw [ThreadRightPanelState.mapTerminal, List.map_map]
  refine List.map_congr_left fun surface _ ↦ ?_
  cases surface with
  | terminal surface =>
    change SurfaceId.terminal _ = SurfaceId.terminal _
    split
    · rw [hname]
    · rfl
  | _ => rfl

theorem WellFormedSurfaces.mapTerminal {surfaces : List RightPanelSurface}
    (h : WellFormedSurfaces surfaces) {surfaceId : SurfaceId}
    {change : TerminalSurface → TerminalSurface}
    (hname : ∀ surface, (change surface).name = surface.name)
    (hchange : ∀ surface, .terminal surface ∈ surfaces → .terminal surface.name = surfaceId →
      surface.WellFormed → (change surface).WellFormed) :
    WellFormedSurfaces (ThreadRightPanelState.mapTerminal surfaces surfaceId change) where
  nodup_ids := by
    rw [id_mapTerminal hname]
    exact h.nodup_ids
  wellFormed surface hsurface := by
    obtain ⟨old, hold, rfl⟩ := List.mem_map.mp hsurface
    have hwf := h.wellFormed old hold
    cases old with
    | terminal old =>
      change TerminalSurface.WellFormed _
      split
      next heq => exact hchange old hold heq hwf
      next => exact hwf
    | _ => trivial

/-! ## Updates -/

namespace ThreadRightPanelState

variable {t : ThreadRightPanelState}

/-- **Opening a surface** gives a well-formed record, whatever the old one says beside its
surfaces. -/
theorem wellFormed_upsertSurface (h : WellFormedSurfaces t.surfaces) {surface : RightPanelSurface}
    (hsurface : surface.WellFormed) : (t.upsertSurface surface).WellFormed := by
  have hmem : surface.id ∈ (t.upsertSurface surface).surfaces.map (·.id) := by
    rw [upsertSurface]
    split
    next hhas => exact has_iff.mp hhas
    next => exact List.mem_map.mpr ⟨surface, List.mem_append_right _ List.mem_cons_self, rfl⟩
  refine ⟨?_, fun id hid ↦ ?_, fun _ _ ↦ nofun⟩
  · rw [upsertSurface]
    split
    next => exact h
    next hhas =>
      refine h.append (.singleton hsurface) fun other hother entry hentry heq ↦
        hhas (has_iff.mpr ?_)
      rw [List.mem_singleton.mp hentry] at heq
      exact heq ▸ List.mem_map_of_mem hother
  · cases hid
    exact hmem

theorem wellFormed_open' (h : WellFormedSurfaces t.surfaces) (kind : OpenKind) :
    (t.open' kind).WellFormed := by
  cases kind with
  | preview =>
    rw [open']
    split
    next existing hfind =>
      exact wellFormed_upsertSurface h (h.wellFormed existing (List.mem_of_find?_eq_some hfind))
    next => exact wellFormed_upsertSurface h trivial
  | singleton kind => exact wellFormed_upsertSurface h (by cases kind <;> trivial)

theorem wellFormed_openDevice (text : PanelText) (h : t.WellFormed) (target : DeviceTabTarget)
    (automatic : Bool) : (t.openDevice text target automatic).WellFormed := by
  rw [openDevice]
  split
  · exact h
  · split
    next existing hfind =>
      exact wellFormed_upsertSurface (h.surfaces.filter _)
        (h.surfaces.wellFormed existing (List.mem_of_find?_eq_some hfind))
    next hfind =>
      refine wellFormed_upsertSurface ⟨?_, ?_⟩ trivial
      · -- the placeholder takes an id that no surface has
        have hnone : deviceSurfaceId text target ∉ t.surfaces.map (·.id) := fun hmem ↦ by
          obtain ⟨surface, hsurface, heq⟩ := List.mem_map.mp hmem
          exact List.find?_eq_none.mp hfind surface hsurface (decide_eq_true heq)
        have hids : (t.surfaces.map fun entry ↦ if entry.id = .device then
              RightPanelSurface.device (some (deviceSurfaceName text target)) (some target) none
            else entry).map (·.id) =
            (t.surfaces.map (·.id)).map fun id ↦
              if id = .device then deviceSurfaceId text target else id := by
          rw [List.map_map, List.map_map]
          refine List.map_congr_left fun surface _ ↦ ?_
          change (if surface.id = .device then _ else surface).id = _
          split
          next hdevice => exact (if_pos hdevice).symm
          next hdevice => exact (if_neg hdevice).symm
        dsimp only
        rw [hids]
        refine h.surfaces.nodup_ids.map_on fun id hid other hother heq ↦ ?_
        split at heq
        next hdevice =>
          split at heq
          next hdevice' => rw [hdevice, hdevice']
          next => exact absurd (heq ▸ hother) hnone
        next =>
          split at heq
          next => exact absurd (heq ▸ hid) hnone
          next => exact heq
      · intro surface hsurface
        obtain ⟨old, hold, rfl⟩ := List.mem_map.mp hsurface
        split
        · trivial
        · exact h.surfaces.wellFormed old hold

theorem wellFormed_renameDevice (h : t.WellFormed) (surfaceId : SurfaceId) (title : String) :
    (t.renameDevice surfaceId title).WellFormed := by
  -- every surface keeps its id and stays well formed
  obtain ⟨change, hmap, hid, hchange⟩ : ∃ change,
      (t.renameDevice surfaceId title).surfaces = t.surfaces.map change ∧
      (∀ surface, (change surface).id = surface.id) ∧
      ∀ surface, surface.WellFormed → (change surface).WellFormed := by
    refine ⟨_, rfl, fun surface ↦ ?_, fun surface hwf ↦ ?_⟩
    · cases surface with
      | device name target old =>
        dsimp only
        split <;> cases name <;> rfl
      | _ => rfl
    · cases surface with
      | device name target old =>
        dsimp only
        split <;> trivial
      | _ => exact hwf
  refine ⟨hmap ▸ h.surfaces.map hid fun surface _ ↦ hchange surface, fun id hactive ↦ ?_,
    fun hopen hne ↦ ?_⟩
  · rw [hmap, map_id_map hid]
    exact h.active_mem id hactive
  · exact h.hasChoice hopen fun hnil ↦ hne (by rw [hmap, hnil]; rfl)

theorem wellFormed_openBrowser (h : t.WellFormed) (tabId : Option String) :
    (t.openBrowser tabId).WellFormed := by
  have hsurface : (browserSurface tabId).WellFormed := by
    cases tabId with
    | none => trivial
    | some tabId =>
      rw [browserSurface]
      split <;> trivial
  refine wellFormed_upsertSurface ?_ hsurface
  dsimp only
  split
  · exact h.surfaces.filter _
  · exact h.surfaces

theorem wellFormed_openPullRequest (text : PanelText) (h : t.WellFormed)
    (target : PullRequestTarget) : (t.openPullRequest text target).WellFormed := by
  have hsurface : (pullRequestSurface text target).WellFormed := by
    rw [pullRequestSurface]
    trivial
  have hnext := wellFormed_upsertSurface h.surfaces hsurface
  rw [openPullRequest]
  split
  · have hid := fun entry ↦ id_replace (pullRequestSurface text target) entry
    refine ⟨hnext.surfaces.map hid fun entry _ hwf ↦ ?_, fun id hactive ↦ ?_, fun _ _ ↦ nofun⟩
    · split
      · trivial
      · exact hwf
    · exact (map_id_map hid).symm ▸ hnext.active_mem id hactive
  · exact hnext

theorem wellFormed_openFile (h : t.WellFormed) (relativePath : String) (line : Option ℚ) :
    (t.openFile relativePath line).WellFormed := by
  rw [openFile]
  have hsurfaces := h.surfaces.filter fun surface ↦ decide (surface.kind ≠ .files)
  split
  next existing hfind =>
    have hid := fun entry ↦ id_replace (fileSurface relativePath (normalizeRevealLine line)
      (existing.revealRequestId + 1)) entry
    obtain ⟨entry, hentry, hexisting⟩ := List.exists_of_findSome?_eq_some hfind
    have hname : entry.id = .file relativePath := by
      cases entry with
      | file surface =>
        dsimp only at hexisting
        split at hexisting
        next hname =>
          rw [RightPanelSurface.id, hname]
        next => cases hexisting
      | _ => cases hexisting
    rw [hfind]
    refine ⟨hsurfaces.map hid fun entry _ hwf ↦ ?_, fun id hactive ↦ ?_, fun _ _ ↦ nofun⟩
    · split
      · trivial
      · exact hwf
    · cases hactive
      refine (map_id_map hid).symm ▸ List.mem_map.mpr ⟨entry, hentry, hname⟩
  next hfind =>
    rw [hfind]
    refine ⟨hsurfaces.append (.singleton trivial) fun other hother entry hentry heq ↦ ?_,
      fun id hactive ↦ ?_, fun _ _ ↦ nofun⟩
    · -- only a file surface has the id of a file
      rw [List.mem_singleton.mp hentry] at heq
      have hnone := List.findSome?_eq_none_iff.mp hfind other hother
      cases other with
      | file surface =>
        dsimp only at hnone
        split at hnone
        next => cases hnone
        next hname =>
          refine hname ?_
          rw [RightPanelSurface.id] at heq
          split at heq
          next path hpath =>
            cases heq
            exact hpath
          next => cases heq
      | device name target title => cases name <;> cases heq
      | _ => cases heq
    · cases hactive
      exact List.mem_map.mpr ⟨_, List.mem_append_right _ List.mem_cons_self, rfl⟩

theorem wellFormed_openAttachment (h : t.WellFormed) (attachment : ChatFileAttachment) :
    (t.openAttachment attachment).WellFormed :=
  wellFormed_upsertSurface (h.surfaces.filter _) trivial

theorem wellFormed_openTerminal (h : t.WellFormed) (terminalId : String) :
    (t.openTerminal terminalId).WellFormed :=
  wellFormed_upsertSurface h.surfaces
    ⟨List.nodup_singleton terminalId, List.mem_singleton_self terminalId⟩

/-- **Splitting a terminal** activates the surface that is named, which must exist. -/
theorem wellFormed_splitTerminal_iff (h : t.WellFormed) (surfaceId : SurfaceId)
    (terminalId : String) (direction : SplitDirection) :
    (t.splitTerminal surfaceId terminalId direction).WellFormed ↔
      surfaceId ∈ t.surfaces.map (·.id) := by
  have hids := @id_mapTerminal surfaceId (fun surface ↦
    { surface with
      terminalIds := if surface.terminalIds.contains terminalId then surface.terminalIds
        else surface.terminalIds ++ [terminalId]
      activeTerminalId := terminalId
      splitDirection := if direction = .vertical then some .vertical else none })
    (fun _ ↦ rfl) t.surfaces
  constructor
  · exact fun hwf ↦ hids ▸ hwf.active_mem surfaceId rfl
  · intro hmem
    refine ⟨h.surfaces.mapTerminal (fun _ ↦ rfl) fun surface _ _ hwf ↦ ?_, fun id hactive ↦ ?_,
      fun _ _ ↦ nofun⟩
    · by_cases hcontains : surface.terminalIds.contains terminalId = true
      · refine ⟨?_, ?_⟩
        · dsimp only
          rw [if_pos hcontains]
          exact hwf.nodup
        · dsimp only
          rw [if_pos hcontains]
          exact List.contains_iff_mem.mp hcontains
      · have hnot : terminalId ∉ surface.terminalIds :=
          fun hmem ↦ hcontains (List.contains_iff_mem.mpr hmem)
        refine ⟨?_, ?_⟩
        · dsimp only
          rw [if_neg hcontains]
          exact List.nodup_append.mpr ⟨hwf.nodup, List.nodup_singleton _,
            fun id hid other hother heq ↦
              hnot (List.mem_singleton.mp hother ▸ heq ▸ hid)⟩
        · dsimp only
          rw [if_neg hcontains]
          exact List.mem_append_right _ (List.mem_singleton_self _)
    · cases hactive
      exact hids ▸ hmem

theorem wellFormed_activateTerminal_iff (h : t.WellFormed) (surfaceId : SurfaceId)
    (terminalId : String) : (t.activateTerminal surfaceId terminalId).WellFormed ↔
      surfaceId ∈ t.surfaces.map (·.id) := by
  have hname : ∀ surface : TerminalSurface, (if surface.terminalIds.contains terminalId
      then { surface with activeTerminalId := terminalId } else surface).name = surface.name := by
    intro surface
    split <;> rfl
  have hids := @id_mapTerminal surfaceId _ hname t.surfaces
  constructor
  · exact fun hwf ↦ hids ▸ hwf.active_mem surfaceId rfl
  · intro hmem
    refine ⟨h.surfaces.mapTerminal hname fun surface _ _ hwf ↦ ?_, fun id hactive ↦ ?_,
      fun _ _ ↦ nofun⟩
    · split
      next hcontains => exact ⟨hwf.nodup, List.contains_iff_mem.mp hcontains⟩
      next => exact hwf
    · cases hactive
      exact hids ▸ hmem

/-- The surface that takes the place of another is a surface. -/
theorem mem_of_fallbackAt {surfaces : List RightPanelSurface} {index : ℕ}
    {surface : RightPanelSurface} (h : fallbackAt surfaces index = some surface) :
    surface ∈ surfaces := List.mem_of_getElem? h

theorem fallbackAt_ne_none {surfaces : List RightPanelSurface} (h : surfaces ≠ []) (index : ℕ) :
    fallbackAt surfaces index ≠ none := by
  rw [fallbackAt, ne_eq, List.getElem?_eq_none_iff]
  have hpos := List.length_pos_of_ne_nil h
  omega

/-- **Removing a surface**: another one takes its place if it was active. -/
theorem wellFormed_remove (h : t.WellFormed) (surfaceId : SurfaceId) (index : ℕ) :
    let surfaces := t.surfaces.filter (·.id ≠ surfaceId)
    WellFormed { t with
      isOpen := surfaces.length > 0 && t.isOpen
      surfaces
      activeSurfaceId := if t.activeSurfaceId = some surfaceId
        then (fallbackAt surfaces index).map (·.id) else t.activeSurfaceId } := by
  intro surfaces
  refine ⟨h.surfaces.filter _, fun id hactive ↦ ?_, fun hopen hne ↦ ?_⟩
  · dsimp only at hactive
    split at hactive
    · obtain ⟨surface, hsurface, rfl⟩ := Option.map_eq_some_iff.mp hactive
      exact List.mem_map_of_mem (mem_of_fallbackAt hsurface)
    next hother =>
      obtain ⟨surface, hsurface, rfl⟩ := List.mem_map.mp (h.active_mem id hactive)
      refine List.mem_map_of_mem (List.mem_filter.mpr ⟨hsurface, decide_eq_true fun heq ↦ ?_⟩)
      exact hother (hactive.trans (congrArg some heq))
  · dsimp only
    split
    · rw [ne_eq, Option.map_eq_none_iff]
      exact fallbackAt_ne_none hne index
    · refine h.hasChoice (Bool.and_eq_true_iff.mp hopen).2 fun hnil ↦ hne ?_
      change t.surfaces.filter _ = []
      rw [hnil]
      rfl

/-- A terminal surface that is found by its id. -/
theorem findSome?_terminal {surfaces : List RightPanelSurface} {surfaceId : SurfaceId}
    {surface : TerminalSurface} (h : (surfaces.findSome? fun
      | .terminal surface => if .terminal surface.name = surfaceId then some surface else none
      | _ => none) = some surface) :
    .terminal surface ∈ surfaces ∧ .terminal surface.name = surfaceId := by
  obtain ⟨entry, hentry, hfound⟩ := List.exists_of_findSome?_eq_some h
  cases entry with
  | terminal entry =>
    dsimp only at hfound
    split at hfound
    next hname =>
      cases hfound
      exact ⟨hentry, hname⟩
    next => cases hfound
  | _ => cases hfound

theorem wellFormed_closeTerminal (h : t.WellFormed) (surfaceId : SurfaceId) (terminalId : String) :
    (t.closeTerminal surfaceId terminalId).WellFormed := by
  rw [closeTerminal]
  split
  next => exact h
  next surface hfound =>
    obtain ⟨hmem, hname⟩ := findSome?_terminal hfound
    dsimp only
    split
    next => exact wellFormed_remove h surfaceId _
    next hne =>
      refine ⟨h.surfaces.mapTerminal (fun _ ↦ rfl) fun entry hentry hentryName hwf ↦ ?_,
        fun id hactive ↦ ?_, fun hopen hsurfaces ↦ ?_⟩
      · -- only one surface has the id
        have hsame : RightPanelSurface.terminal entry = .terminal surface :=
          List.inj_on_of_nodup_map h.surfaces.nodup_ids hentry hmem (hentryName.trans hname.symm)
        cases hsame
        refine ⟨hwf.nodup.filter _, ?_⟩
        dsimp only
        split
        next =>
          rw [List.getLastD_eq_getLast?, List.getLast?_eq_some_getLast hne]
          exact List.getLast_mem hne
        next hother => exact List.mem_filter.mpr ⟨hwf.active_mem, decide_eq_true hother⟩
      · dsimp only
        rw [id_mapTerminal]
        · exact h.active_mem id hactive
        · exact fun _ ↦ rfl
      · exact h.hasChoice hopen fun hnil ↦ hsurfaces (by rw [hnil]; rfl)

theorem wellFormed_activateSurface (h : t.WellFormed) (surfaceId : SurfaceId) :
    (t.activateSurface surfaceId).WellFormed := by
  rw [activateSurface]
  split
  next hhas =>
    refine ⟨h.surfaces, fun id hactive ↦ ?_, fun _ _ ↦ nofun⟩
    cases hactive
    exact has_iff.mp hhas
  next => exact h

theorem wellFormed_closeSurface (h : t.WellFormed) (surfaceId : SurfaceId) :
    (t.closeSurface surfaceId).WellFormed := by
  rw [closeSurface]
  split
  next => exact h
  next index hindex =>
    have hremove := wellFormed_remove h surfaceId index
    dsimp only at hremove ⊢
    split
    next hother =>
      rw [if_neg hother] at hremove
      exact hremove
    next hactive =>
      rw [if_pos (not_not.mp hactive)] at hremove
      exact hremove

theorem wellFormed_closeOtherSurfaces (h : t.WellFormed) (surfaceId : SurfaceId) :
    (t.closeOtherSurfaces surfaceId).WellFormed := by
  rw [closeOtherSurfaces]
  split
  next => exact h
  next surface hfind =>
    split
    next => exact h
    next =>
      refine ⟨.singleton (h.surfaces.wellFormed surface (List.mem_of_find?_eq_some hfind)),
        fun id hactive ↦ ?_, fun _ _ ↦ nofun⟩
      cases hactive
      exact List.mem_singleton_self _

theorem mem_ids_of_any {surfaces : List RightPanelSurface} {active : Option SurfaceId}
    {id : SurfaceId} (h : surfaces.any (some ·.id = active) = true) (hactive : active = some id) :
    id ∈ surfaces.map (·.id) := by
  obtain ⟨surface, hsurface, heq⟩ := List.any_eq_true.mp h
  have hid := (of_decide_eq_true heq).trans hactive
  exact List.mem_map.mpr ⟨surface, hsurface, Option.some.inj hid⟩

theorem wellFormed_closeSurfacesToRight (h : t.WellFormed) (surfaceId : SurfaceId) :
    (t.closeSurfacesToRight surfaceId).WellFormed := by
  rw [closeSurfacesToRight]
  split
  next => exact h
  next index hindex =>
    split
    next => exact h
    next =>
      obtain ⟨hlt, hid, -⟩ := List.findIdx?_eq_some_iff_getElem.mp hindex
      have hmem : surfaceId ∈ (t.surfaces.take (index + 1)).map (·.id) := by
        refine List.mem_map.mpr ⟨t.surfaces[index], ?_, of_decide_eq_true hid⟩
        exact List.mem_take_iff_getElem.mpr ⟨index, by omega, rfl⟩
      refine ⟨h.surfaces.sublist (List.take_sublist _ _), fun id hactive ↦ ?_, fun hopen _ ↦ ?_⟩
      · dsimp only at hactive
        split at hactive
        next hexists => exact mem_ids_of_any hexists hactive
        next =>
          cases hactive
          exact hmem
      · dsimp only
        split
        · exact h.hasChoice hopen (List.ne_nil_of_length_pos (Nat.zero_lt_of_lt hlt))
        · exact nofun

theorem wellFormed_closeAllSurfaces (h : t.WellFormed) : t.closeAllSurfaces.WellFormed := by
  rw [closeAllSurfaces]
  split
  · exact h
  · exact ⟨.nil, fun _ hactive ↦ (nomatch hactive), fun _ hne ↦ absurd rfl hne⟩

/-- Only browser surfaces have the ids of browser surfaces. -/
theorem kind_of_id_eq_browser {surface : RightPanelSurface} {name : String}
    (h : surface.id = .browser name) : surface.kind = .preview := by
  cases surface with
  | preview name resourceId => rfl
  | device name target title => cases name <;> cases h
  | file surface =>
    rw [RightPanelSurface.id] at h
    split at h <;> cases h
  | _ => cases h

theorem id_browserSurface (tabId : String) : ∃ name,
    (browserSurface (some tabId)).id = .browser name ∧ (name = tabId ∨ name = "new") := by
  rw [browserSurface]
  split
  · exact ⟨_, rfl, .inr rfl⟩
  · exact ⟨_, rfl, .inl rfl⟩

/-- **Reconciling the browser surfaces** adds those of the tabs that are new, which must be
distinct. -/
theorem wellFormed_reconcileBrowserSurfaces_iff (h : t.WellFormed) (tabIds : List String) :
    (t.reconcileBrowserSurfaces tabIds).WellFormed ↔
      ((t.addedBrowserSurfaces tabIds).map (·.id)).Nodup := by
  constructor
  · intro hwf
    have hnodup := hwf.surfaces.nodup_ids
    rw [reconcileBrowserSurfaces, List.map_append] at hnodup
    exact (List.nodup_append.mp hnodup).2.1
  · intro hadded
    have hbrowser : ∀ surface ∈ t.addedBrowserSurfaces tabIds, ∃ name,
        surface.id = .browser name ∧ (∀ other ∈ t.surfaces.filter fun surface ↦
          surface.kind = .preview && surface.id ≠ .browser "new" &&
            tabIds.any fun tabId ↦ surface.id = .browser tabId, other.id ≠ surface.id) := by
      intro surface hsurface
      obtain ⟨tabId, htab, rfl⟩ := List.mem_map.mp hsurface
      obtain ⟨name, hid, hname⟩ := id_browserSurface tabId
      refine ⟨name, hid, fun other hother heq ↦ ?_⟩
      rw [hid] at heq
      rcases hname with rfl | rfl
      · have hnot := (List.mem_filter.mp htab).2
        rw [Bool.not_eq_true', Bool.eq_false_iff] at hnot
        exact hnot (has_iff.mpr (heq ▸ List.mem_map_of_mem hother))
      · have hkept := (List.mem_filter.mp hother).2
        rw [Bool.and_eq_true, Bool.and_eq_true] at hkept
        exact of_decide_eq_true hkept.1.2 heq
    have hsurfaces : WellFormedSurfaces (t.reconcileBrowserSurfaces tabIds).surfaces := by
      rw [reconcileBrowserSurfaces]
      refine ((h.surfaces.filter _).append (h.surfaces.filter _) ?_).append ⟨hadded, ?_⟩ ?_
      · -- a surface is a browser surface or it is not
        intro surface hsurface other hother heq
        have hsame := List.inj_on_of_nodup_map h.surfaces.nodup_ids (List.mem_filter.mp hsurface).1
          (List.mem_filter.mp hother).1 heq
        subst hsame
        have hkept := (List.mem_filter.mp hother).2
        rw [Bool.and_eq_true, Bool.and_eq_true] at hkept
        exact of_decide_eq_true (List.mem_filter.mp hsurface).2 (of_decide_eq_true hkept.1.1)
      · intro surface hsurface
        obtain ⟨tabId, -, rfl⟩ := List.mem_map.mp hsurface
        rw [browserSurface]
        split <;> trivial
      · intro surface hsurface other hother heq
        obtain ⟨name, hid, hne⟩ := hbrowser other hother
        rcases List.mem_append.mp hsurface with hsurface | hsurface
        · exact of_decide_eq_true (List.mem_filter.mp hsurface).2
            (kind_of_id_eq_browser (heq.trans hid))
        · exact hne surface hsurface heq
    refine ⟨hsurfaces, fun id hactive ↦ ?_, fun _ hne ↦ ?_⟩
    · rw [reconcileBrowserSurfaces] at hactive ⊢
      dsimp only at hactive ⊢
      split at hactive
      next hexists => exact mem_ids_of_any hexists hactive
      next =>
        split at hactive
        next found hfound =>
          cases hactive
          exact List.mem_map_of_mem (List.mem_of_find?_eq_some hfound)
        next =>
          obtain ⟨surface, hsurface, rfl⟩ := Option.map_eq_some_iff.mp hactive
          exact List.mem_map_of_mem (List.mem_of_head? hsurface)
    · rw [reconcileBrowserSurfaces] at hne ⊢
      dsimp only at hne ⊢
      split
      next hexists =>
        intro hnone
        rw [hnone] at hexists
        obtain ⟨surface, -, heq⟩ := List.any_eq_true.mp hexists
        cases of_decide_eq_true heq
      next =>
        split
        · exact nofun
        · rw [ne_eq, Option.map_eq_none_iff, List.head?_eq_none_iff]
          exact hne

theorem wellFormed_reconcileFileSurfaces (h : t.WellFormed) (workspaceAvailable : Bool) :
    (t.reconcileFileSurfaces workspaceAvailable).WellFormed := by
  rw [reconcileFileSurfaces]
  split
  · exact h
  · dsimp only
    split
    · exact h
    · refine ⟨h.surfaces.filter _, fun id hactive ↦ ?_, fun _ hne ↦ ?_⟩
      · dsimp only at hactive
        split at hactive
        next hexists => exact mem_ids_of_any hexists hactive
        next =>
          obtain ⟨surface, hsurface, rfl⟩ := Option.map_eq_some_iff.mp hactive
          exact List.mem_map_of_mem (List.mem_of_getLast? hsurface)
      · dsimp only
        split
        next hexists =>
          intro hnone
          rw [hnone] at hexists
          obtain ⟨surface, -, heq⟩ := List.any_eq_true.mp hexists
          cases of_decide_eq_true heq
        next =>
          rw [ne_eq, Option.map_eq_none_iff, List.getLast?_eq_none_iff]
          exact hne

/-- **Opening a closed panel** shows the surface that the others have left active. -/
theorem wellFormed_show'_iff (h : t.WellFormed) : t.show'.WellFormed ↔ t.HasChoice := by
  rw [show']
  split
  next hopen => exact iff_of_true h (h.hasChoice hopen)
  next =>
    exact ⟨fun hwf ↦ hwf.hasChoice rfl,
      fun hchoice ↦ ⟨h.surfaces, h.active_mem, fun _ ↦ hchoice⟩⟩

theorem wellFormed_close (h : t.WellFormed) : t.close.WellFormed := by
  rw [close]
  split
  · exact ⟨h.surfaces, h.active_mem, nofun⟩
  · exact h

theorem wellFormed_toggleVisibility_iff (h : t.WellFormed) :
    t.toggleVisibility.WellFormed ↔ t.HasChoice := by
  by_cases hopen : t.isOpen = true
  · refine iff_of_true ⟨h.surfaces, h.active_mem, fun hopen' ↦ ?_⟩ (h.hasChoice hopen)
    rw [toggleVisibility, hopen] at hopen'
    cases hopen'
  · have hopened : t.toggleVisibility.isOpen = true := by
      rw [toggleVisibility, Bool.eq_false_iff.mpr hopen]
      rfl
    exact ⟨fun hwf ↦ hwf.hasChoice hopened,
      fun hchoice ↦ ⟨h.surfaces, h.active_mem, fun _ ↦ hchoice⟩⟩

theorem wellFormed_toggle (h : t.WellFormed) (kind : OpenKind) : (t.toggle kind).WellFormed := by
  rw [toggle]
  split
  · exact ⟨h.surfaces, h.active_mem, nofun⟩
  · exact wellFormed_open' h.surfaces kind

/-- **An action keeps a record well formed exactly if it meets what it relies on.** -/
theorem wellFormed_update_iff (text : PanelText) (h : t.WellFormed) (action : ThreadAction) :
    (t.update text action).WellFormed ↔ t.Accepts action := by
  cases action with
  | open' kind => exact iff_of_true (wellFormed_open' h.surfaces kind) trivial
  | openDevice target automatic =>
    exact iff_of_true (wellFormed_openDevice text h target automatic) trivial
  | renameDevice surfaceId title =>
    exact iff_of_true (wellFormed_renameDevice h surfaceId title) trivial
  | openBrowser tabId => exact iff_of_true (wellFormed_openBrowser h tabId) trivial
  | openPullRequest target => exact iff_of_true (wellFormed_openPullRequest text h target) trivial
  | openFile relativePath line =>
    exact iff_of_true (wellFormed_openFile h relativePath line) trivial
  | openAttachment attachment => exact iff_of_true (wellFormed_openAttachment h attachment) trivial
  | openTerminal terminalId => exact iff_of_true (wellFormed_openTerminal h terminalId) trivial
  | splitTerminal surfaceId terminalId direction =>
    exact wellFormed_splitTerminal_iff h surfaceId terminalId direction
  | activateTerminal surfaceId terminalId =>
    exact wellFormed_activateTerminal_iff h surfaceId terminalId
  | closeTerminal surfaceId terminalId =>
    exact iff_of_true (wellFormed_closeTerminal h surfaceId terminalId) trivial
  | activateSurface surfaceId => exact iff_of_true (wellFormed_activateSurface h surfaceId) trivial
  | closeSurface surfaceId => exact iff_of_true (wellFormed_closeSurface h surfaceId) trivial
  | closeOtherSurfaces surfaceId =>
    exact iff_of_true (wellFormed_closeOtherSurfaces h surfaceId) trivial
  | closeSurfacesToRight surfaceId =>
    exact iff_of_true (wellFormed_closeSurfacesToRight h surfaceId) trivial
  | closeAllSurfaces => exact iff_of_true (wellFormed_closeAllSurfaces h) trivial
  | reconcileBrowserSurfaces tabIds => exact wellFormed_reconcileBrowserSurfaces_iff h tabIds
  | reconcileFileSurfaces workspaceAvailable =>
    exact iff_of_true (wellFormed_reconcileFileSurfaces h workspaceAvailable) trivial
  | show' => exact wellFormed_show'_iff h
  | close => exact iff_of_true (wellFormed_close h) trivial
  | toggleVisibility => exact wellFormed_toggleVisibility_iff h
  | toggle kind => exact iff_of_true (wellFormed_toggle h kind) trivial

end ThreadRightPanelState

end Awen.Panel
