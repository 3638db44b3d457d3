import Mathlib.Algebra.BigOperators.Group.Multiset.Basic
import Awen.Library.Inventory
import Awen.Workbench.TabInvariant

/-!
# The board: which Views are where

Abstracting from layouts, focus, titles and Welcome placeholders, a workbench is the multiset of its
Views, each in its Pane of its Tab. This is what the commands are for: a command removes Views,
moves one, or adds one, and the rules of the workbench (one View for each Session, one View for each
target of a Tab) are rules about the board.

`board` reads the board off the Tabs. `Exchanges` and `Admits` are the conditions under which a View
is moved or retargeted, and added, and a command is a `Step` of the board under them.
-/

namespace Awen.Workbench

/-- A View in its place. -/
structure Placed where
  tabId : String
  paneId : String
  view : ViewInstance
  deriving DecidableEq

abbrev Board := Multiset Placed

/-- Whether a View is more than a Welcome placeholder. -/
def isReal (view : ViewInstance) : Bool := view.target.kind ≠ .welcome

/-- The entries that are on the board. -/
def realEntries (es : List Entry) : Multiset Entry :=
  ((es.filter fun e ↦ isReal e.2 : List Entry) : Multiset Entry)

def placeEntry (tabId : String) (e : Entry) : Placed := ⟨tabId, e.1, e.2⟩

def tabBoard (t : WorkbenchTab) : Board := (realEntries t.panes.entries).map (placeEntry t.id)

def board (tabs : List WorkbenchTab) : Board := (tabs.map tabBoard).sum

/-! ## Real entries -/

theorem realEntries_perm {es es' : List Entry} (h : es.Perm es') :
    realEntries es = realEntries es' := Multiset.coe_eq_coe.mpr (h.filter _)

theorem realEntries_cons (e : Entry) (es : List Entry) :
    realEntries (e :: es) = if isReal e.2 then e ::ₘ realEntries es else realEntries es := by
  rw [realEntries, List.filter_cons]
  split <;> rfl

theorem realEntries_nil : realEntries [] = 0 := rfl

theorem realEntries_sublist {es es' : List Entry} (h : es.Sublist es') :
    realEntries es ≤ realEntries es' := (h.filter _).subperm

theorem mem_realEntries {e : Entry} {es : List Entry} :
    e ∈ realEntries es ↔ e ∈ es ∧ isReal e.2 = true := by
  rw [realEntries, Multiset.mem_coe, List.mem_filter]

theorem isReal_welcomeTarget {view : ViewInstance} (h : view.target = welcomeTarget) :
    isReal view = false := by
  rw [isReal, h]
  rfl

theorem Refilled.realEntries_eq {used used' : Set String} {es es' : List Entry}
    (h : Refilled used used' es es') : realEntries es' = realEntries es := by
  cases h with
  | keep => rfl
  | welcome paneId view nil _ _ _ _ target_eq _ =>
    rw [nil, realEntries_cons, if_neg (by simp [isReal_welcomeTarget target_eq])]

/-! ## The board of several Tabs -/

theorem board_cons (t : WorkbenchTab) (ts : List WorkbenchTab) :
    board (t :: ts) = tabBoard t + board ts := by
  rw [board, List.map_cons, List.sum_cons]
  rfl

theorem board_perm {ts ts' : List WorkbenchTab} (h : ts.Perm ts') : board ts = board ts' :=
  (h.map tabBoard).sum_eq

theorem board_middle (l r : List WorkbenchTab) (t : WorkbenchTab) :
    board (l ++ t :: r) = tabBoard t + board (l ++ r) :=
  (board_perm List.perm_middle).trans (board_cons t (l ++ r))

theorem board_sublist {ts ts' : List WorkbenchTab} (h : ts.Sublist ts') :
    board ts ≤ board ts' := by
  induction h with
  | slnil => exact le_rfl
  | cons t _ ih =>
    rw [board_cons]
    exact ih.trans (Multiset.le_add_left _ _)
  | cons_cons t _ ih =>
    rw [board_cons, board_cons]
    exact add_le_add le_rfl ih

theorem mem_tabBoard {p : Placed} {t : WorkbenchTab} : p ∈ tabBoard t ↔
    t.id = p.tabId ∧ (p.paneId, p.view) ∈ t.panes.entries ∧ isReal p.view = true := by
  rw [tabBoard, Multiset.mem_map]
  constructor
  · rintro ⟨e, he, rfl⟩
    exact ⟨rfl, mem_realEntries.mp he⟩
  · rintro ⟨hid, he⟩
    exact ⟨(p.paneId, p.view), mem_realEntries.mpr he, by rw [placeEntry, hid]⟩

theorem mem_board {p : Placed} {ts : List WorkbenchTab} :
    p ∈ board ts ↔ ∃ t ∈ ts, p ∈ tabBoard t := by
  induction ts with
  | nil => simp [board]
  | cons t ts ih => rw [board_cons, Multiset.mem_add, ih, List.exists_mem_cons_iff]

/-- The keys of the Views of some Tabs are those on the board, if Welcome has none. -/
theorem filterMap_board {κ : Type} {key : Placed → Option κ}
    (hkey : ∀ p, ¬isReal p.view = true → key p = none) (tabs : List WorkbenchTab) :
    ((tabs.flatMap fun t ↦ t.panes.entries.filterMap fun e ↦ key (placeEntry t.id e) : List κ) :
      Multiset κ) = (board tabs).filterMap key := by
  induction tabs with
  | nil => rfl
  | cons t ts ih =>
    have ht : ((t.panes.entries.filterMap fun e ↦ key (placeEntry t.id e) : List κ) : Multiset κ)
        = (tabBoard t).filterMap key := by
      rw [tabBoard, Multiset.filterMap_map, realEntries, Multiset.filterMap_coe,
        List.filterMap_filter]
      refine congrArg _ (List.filterMap_congr fun e _ ↦ ?_)
      split
      · rfl
      · rename_i hreal
        exact hkey (placeEntry t.id e) hreal
    rw [List.flatMap_cons, ← Multiset.coe_add, ht, ih, board_cons, Multiset.filterMap_add]

theorem tabBoard_congr {t t' : WorkbenchTab} (hid : t'.id = t.id)
    (hentries : realEntries t'.panes.entries = realEntries t.panes.entries) :
    tabBoard t' = tabBoard t := by rw [tabBoard, tabBoard, hid, hentries]

theorem SameContent.tabBoard_eq {t t' : WorkbenchTab} (h : SameContent t t') :
    tabBoard t' = tabBoard t := tabBoard_congr h.id_eq (by rw [h.panes_eq])

/-! ## The rules of the board -/

/-- The Session a placed View shows. -/
def Placed.session (p : Placed) : Option SessionIdentity := sessionOf p.view.target

/-- The targets a Tab shows once: those that are neither Welcome, nor a Project, nor a Session. -/
def isTabScoped (target : ViewTarget) : Bool :=
  target.kind ≠ .welcome ∧ target.kind ≠ .project ∧ ¬isSessionViewTarget target

/-- The Tab and key under which a placed View is the only one. -/
def Placed.tabKey (p : Placed) : Option (String × String) :=
  if isTabScoped p.view.target then some (p.tabId, targetKey p.view.target) else none

/-- What a command may do to the board: the target it opens and whether it has to, the Tab it places
Views in, the place whose View makes room, whether it looks the target up in that Tab first, and
whether it may take Views off the board. -/
structure CommandRule where
  target : Option ViewTarget := none
  opens : Prop := True
  destination : Option String := none
  givenUp : Option PaneLocation := none
  checked : Prop := True
  closes : Prop := False

/-- The Views that are kept: all of them, unless the command closes. -/
def Keeps (rule : CommandRule) (rest b : Board) : Prop := rest = b ∨ rule.closes ∧ rest ≤ b

theorem Keeps.le {rule : CommandRule} {rest b : Board} (h : Keeps rule rest b) : rest ≤ b :=
  h.elim Eq.le And.right

/-- A View goes to the destination or to a new Tab. -/
def Arrives (used : Set String) (rule : CommandRule) (a : Placed) : Prop :=
  rule.destination = some a.tabId ∨ a.tabId ∉ used

/-- A View moves, or its Pane is retargeted: it keeps its id and either keeps its Session and key or
takes ones that no other View has. -/
structure Exchanges (used : Set String) (rule : CommandRule) (a a' : Placed) (rest : Board) :
    Prop where
  id_eq : a'.view.id = a.view.id
  target : a'.view = a.view ∨ rule.opens ∧ rule.target = some a'.view.target ∧
    ∀ p ∈ rest, rule.givenUp ≠ some ⟨p.tabId, p.paneId⟩
  session : a'.session = a.session ∨ Unclaimed Placed.session a' rest
  tabKey : a'.tabKey = a.tabKey ∨ Unclaimed Placed.tabKey a' rest
  arrives : Arrives used rule a'

/-- A View of the target is added only if no View shows its Session and, where the command checks
it, nothing in the Tab has its key. -/
structure Admits (used : Set String) (rule : CommandRule) (a : Placed) (rest : Board) : Prop where
  opens : rule.opens
  target_eq : rule.target = some a.view.target
  session_new : Unclaimed Placed.session a rest
  tabKey_new : rule.checked → Unclaimed Placed.tabKey a rest
  givenUp_free : ∀ p ∈ rest, rule.givenUp ≠ some ⟨p.tabId, p.paneId⟩
  arrives : Arrives used rule a

/-- One command, seen on the board. -/
abbrev BoardStep (used : Set String) (rule : CommandRule) (b b' : Board) : Prop :=
  Step (Keeps rule) (Exchanges used rule) (Admits used rule) b b'

/-- A placed View, unless it is a Welcome. -/
def placedBoard (p : Placed) : Board := if isReal p.view then {p} else 0

theorem placedBoard_of_real {p : Placed} (h : isReal p.view = true) (b : Board) :
    placedBoard p + b = p ::ₘ b := by
  rw [placedBoard, if_pos h, Multiset.singleton_add]

theorem placedBoard_of_not_real {p : Placed} (h : ¬isReal p.view = true) (b : Board) :
    placedBoard p + b = b := by
  rw [placedBoard, if_neg h, zero_add]

/-- The board of a Tab with one entry more. -/
theorem map_realEntries_cons (tabId : String) (e : Entry) (es : List Entry) :
    (realEntries (e :: es)).map (placeEntry tabId)
      = placedBoard (placeEntry tabId e) + (realEntries es).map (placeEntry tabId) := by
  rw [realEntries_cons]
  by_cases h : isReal e.2 = true
  · rw [if_pos h, Multiset.map_cons, placedBoard_of_real h]
  · rw [if_neg h, placedBoard_of_not_real h]

theorem step_of_placed {used : Set String} {rule : CommandRule} {b b' rest : Board} {a : Placed}
    (hkeeps : Keeps rule rest b) (heq : b' = placedBoard a + rest)
    (h : isReal a.view = true → Admits used rule a rest) : BoardStep used rule b b' := by
  by_cases hreal : isReal a.view = true
  · exact .add a rest hkeeps (heq.trans (placedBoard_of_real hreal rest)) (h hreal)
  · rw [placedBoard_of_not_real hreal] at heq
    exact .remove (heq ▸ hkeeps)

/-- Nothing on a board shows a Session or, in a Tab, a key that it does not have. -/
theorem unclaimed_session {rest : Board} {a : Placed}
    (h : ∀ p ∈ rest, ¬isSameSessionTarget p.view.target a.view.target = true) :
    Unclaimed Placed.session a rest := fun session ha p hp hsession ↦
  h p hp (isSameSessionTarget_iff.mpr ⟨session, hsession, ha⟩)

theorem unclaimed_session_of_key {rest : Board} {a : Placed}
    (h : ∀ p ∈ rest, targetKey p.view.target ≠ targetKey a.view.target) :
    Unclaimed Placed.session a rest := fun _ ha p hp hsession ↦
  h p hp (targetKey_eq_of_sessionOf hsession ha)

theorem unclaimed_tabKey {rest : Board} {a : Placed}
    (h : ∀ p ∈ rest, p.tabId = a.tabId → targetKey p.view.target ≠ targetKey a.view.target) :
    Unclaimed Placed.tabKey a rest := by
  intro k ha p hp hkey
  rw [Placed.tabKey] at ha hkey
  split at ha
  · split at hkey
    · rw [← Option.some_inj.mp ha, Option.some_inj, Prod.mk.injEq] at hkey
      exact h p hp hkey.1 hkey.2
    · cases hkey
  · cases ha

end Awen.Workbench
