import Mathlib.Data.List.Basic
import Awen.Library.OrderedMap
import Mathlib.Data.List.Induction
import Mathlib.Data.List.Nodup

/-!
# The rows of the timeline

The timeline is shown as a list of rows of twelve kinds. The rows are derived anew whenever
something changes; `computeStableMessagesTimelineRows` puts the row object of the last time in the
place of a new one that it takes for unchanged, so that only rows that change are drawn again.

Messages, plans, snapshots, queued messages and diff summaries are compared as objects, work entries
and icons by their contents; both are equality at type parameters here. A row carries the name `ref`
of its own object.
-/

namespace Awen.Timeline

/-! ## Rows -/

inductive ToolActivitySurface
  | browser
  | computer
  deriving DecidableEq, Repr

inductive ToolGroupAction
  | linkPr
  | unlinkPr
  | listPrs
  | read
  | edit
  | command
  | browser
  | device
  | codeSearch
  | search
  | other
  | update
  deriving DecidableEq, Repr

inductive ToolGroupSummaryKind
  | pullRequest
  | action (action : ToolGroupAction)
  | dynamicTool
  | agentTool
  | toneTool
  | mixed
  deriving DecidableEq, Repr

inductive SummaryToolIcon
  | browser
  | device
  | awen
  | pullRequest
  deriving DecidableEq, Repr

structure WorkRow (ω : Type*) where
  createdAt : String
  groupedEntries : List ω
  isExpandedToolGroup : Bool
  displayLabel : Option String
  deriving DecidableEq

structure WorkLiveRow (ω : Type*) where
  createdAt : String
  entry : ω
  groupedEntries : List ω
  groupId : String
  expanded : Bool
  active : Bool
  deriving DecidableEq

/-- The row that opens and closes a group of tools. The turn may be absent or null. -/
structure WorkToggleRow (ι : Type*) where
  createdAt : String
  turnId : Option (Option String)
  groupId : String
  hiddenCount : ℕ
  expanded : Bool
  summary : String
  summaryKind : ToolGroupSummaryKind
  toolSurface : Option ToolActivitySurface
  toolIcon : Option ι
  summaryToolIcon : Option SummaryToolIcon
  hasFailure : Bool
  deriving DecidableEq

structure TurnFoldRow where
  createdAt : String
  turnId : String
  label : String
  expanded : Bool
  deriving DecidableEq

structure ContextCompactionRow where
  createdAt : String
  label : String
  deriving DecidableEq

structure MessageRow (μ δ : Type*) where
  createdAt : String
  message : μ
  durationStart : String
  showAssistantMeta : Bool
  showAssistantCopyButton : Bool
  assistantCopyStreaming : Bool
  assistantTurnDiffSummary : Option δ
  revertTurnCount : Option ℕ
  deriving DecidableEq

structure AssistantMetaRow (μ : Type*) where
  createdAt : String
  message : μ
  showAssistantCopyButton : Bool
  assistantCopyStreaming : Bool
  deriving DecidableEq

structure ProposedPlanRow (π : Type*) where
  createdAt : String
  proposedPlan : π
  deriving DecidableEq

structure WorktreeSetupRow (σ : Type*) where
  createdAt : Option String
  snapshot : σ
  /-- The agent's turn is live and owns the header. -/
  embedded : Bool
  deriving DecidableEq

structure QueuedMessageRow (κ : Type*) where
  createdAt : String
  queuedMessage : κ
  isNext : Bool
  deriving DecidableEq

/-- The fields of a row besides its id. -/
inductive RowFields (μ δ π σ κ ω ι : Type*)
  | work (row : WorkRow ω)
  | workLive (row : WorkLiveRow ω)
  | workToggle (row : WorkToggleRow ι)
  | turnFold (row : TurnFoldRow)
  | contextCompaction (row : ContextCompactionRow)
  | message (row : MessageRow μ δ)
  | assistantMeta (row : AssistantMetaRow μ)
  | proposedPlan (row : ProposedPlanRow π)
  | working (createdAt : Option String)
  | thinking (createdAt : Option String)
  | worktreeSetup (row : WorktreeSetupRow σ)
  | queuedMessage (row : QueuedMessageRow κ)
  deriving DecidableEq

structure MessagesTimelineRow (μ δ π σ κ ω ι : Type*) where
  ref : ℕ
  id : String
  fields : RowFields μ δ π σ κ ω ι
  deriving DecidableEq

/-- The rows of the last time, also by id. -/
structure StableMessagesTimelineRowsState (μ δ π σ κ ω ι : Type*) where
  byId : OrderedMap String (MessagesTimelineRow μ δ π σ κ ω ι)
  result : List (MessagesTimelineRow μ δ π σ κ ω ι)
  deriving DecidableEq

/-! ## Reuse of rows -/

section

variable {μ δ π σ κ ω ι : Type*} [DecidableEq μ] [DecidableEq δ] [DecidableEq π] [DecidableEq σ]
  [DecidableEq κ] [DecidableEq ω] [DecidableEq ι]

/-- Shallow field comparison per row variant. -/
def isRowUnchanged (a b : MessagesTimelineRow μ δ π σ κ ω ι) : Bool :=
  if a.id ≠ b.id then false
  else
    match a.fields, b.fields with
    | .working createdAt, .working createdAt' => decide (createdAt = createdAt')
    | .thinking createdAt, .thinking createdAt' => decide (createdAt = createdAt')
    | .worktreeSetup a, .worktreeSetup b => decide (a.snapshot = b.snapshot)
    | .assistantMeta a, .assistantMeta b => decide (a.createdAt = b.createdAt ∧
        a.message = b.message ∧ a.showAssistantCopyButton = b.showAssistantCopyButton ∧
        a.assistantCopyStreaming = b.assistantCopyStreaming)
    | .turnFold a, .turnFold b => decide (a.createdAt = b.createdAt ∧ a.label = b.label ∧
        a.expanded = b.expanded)
    | .contextCompaction a, .contextCompaction b => decide (a.createdAt = b.createdAt ∧
        a.label = b.label)
    | .proposedPlan a, .proposedPlan b => decide (a.proposedPlan = b.proposedPlan)
    | .queuedMessage a, .queuedMessage b => decide (a.queuedMessage = b.queuedMessage ∧
        a.isNext = b.isNext)
    | .work a, .work b => decide (a.isExpandedToolGroup = b.isExpandedToolGroup ∧
        a.displayLabel = b.displayLabel ∧ a.groupedEntries = b.groupedEntries)
    | .workLive a, .workLive b => decide (a.createdAt = b.createdAt ∧ a.groupId = b.groupId ∧
        a.expanded = b.expanded ∧ a.active = b.active ∧ a.entry = b.entry ∧
        a.groupedEntries = b.groupedEntries)
    | .workToggle a, .workToggle b => decide (a.createdAt = b.createdAt ∧ a.turnId = b.turnId ∧
        a.groupId = b.groupId ∧ a.hiddenCount = b.hiddenCount ∧ a.expanded = b.expanded ∧
        a.summary = b.summary ∧ a.summaryKind = b.summaryKind ∧ a.toolSurface = b.toolSurface ∧
        a.toolIcon = b.toolIcon ∧ a.hasFailure = b.hasFailure)
    | .message a, .message b => decide (a.message = b.message ∧
        a.durationStart = b.durationStart ∧ a.showAssistantMeta = b.showAssistantMeta ∧
        a.showAssistantCopyButton = b.showAssistantCopyButton ∧
        a.assistantCopyStreaming = b.assistantCopyStreaming ∧
        a.assistantTurnDiffSummary = b.assistantTurnDiffSummary ∧
        a.revertTurnCount = b.revertTurnCount)
    -- rows of different kinds
    | _, _ => false

/-- The row object for a new row: the one of the last time, if it is unchanged. -/
def stableRow (previous : StableMessagesTimelineRowsState μ δ π σ κ ω ι)
    (row : MessagesTimelineRow μ δ π σ κ ω ι) : MessagesTimelineRow μ δ π σ κ ω ι :=
  match previous.byId.get row.id with
  | some prevRow => if isRowUnchanged prevRow row then prevRow else row
  | none => row

/-- The rows by the ids of the rows that they stand for. -/
def rowsById (previous : StableMessagesTimelineRowsState μ δ π σ κ ω ι)
    (rows : List (MessagesTimelineRow μ δ π σ κ ω ι)) :
    OrderedMap String (MessagesTimelineRow μ δ π σ κ ω ι) :=
  rows.foldl (fun next row ↦ next.set row.id (stableRow previous row)) .empty

def computeStableMessagesTimelineRows (rows : List (MessagesTimelineRow μ δ π σ κ ω ι))
    (previous : StableMessagesTimelineRowsState μ δ π σ κ ω ι) :
    StableMessagesTimelineRowsState μ δ π σ κ ω ι :=
  let result := rows.map (stableRow previous)
  let anyChanged := decide (rows.length ≠ previous.byId.size) ||
    result.zipIdx.any fun (nextRow, index) ↦ decide (previous.result[index]? ≠ some nextRow)
  if anyChanged then { byId := rowsById previous rows, result } else previous

end

/-!
## Stable rows

A row of the last time that stands for a new one agrees with it, unless the two differ in a field
that the comparison of their kind leaves out: whether a setup card is embedded, the icon of a
summary, and times and turns that usually follow from what is compared. `OverlookedFieldsAgree`
lists these fields, and the rows of a run are never stale exactly if they never make a difference.
-/

variable {μ δ π σ κ ω ι : Type*}

/-! ## States -/

/-- The map holds the rows of the list by their ids. -/
def StableMessagesTimelineRowsState.Consistent
    (state : StableMessagesTimelineRowsState μ δ π σ κ ω ι) : Prop :=
  state.byId.entries = state.result.map fun row ↦ (row.id, row)

namespace StableMessagesTimelineRowsState.Consistent

variable {previous : StableMessagesTimelineRowsState μ δ π σ κ ω ι} (h : previous.Consistent)
include h

theorem size_byId : previous.byId.size = previous.result.length := by
  rw [OrderedMap.size, h, List.length_map]

theorem nodup_ids : (previous.result.map (·.id)).Nodup := by
  have hnodup := previous.byId.nodup_keys
  rwa [h, List.map_map] at hnodup

theorem get_byId {id : String} {row : MessagesTimelineRow μ δ π σ κ ω ι} :
    previous.byId.get id = some row ↔ row ∈ previous.result ∧ row.id = id := by
  rw [OrderedMap.get_eq_some, h, List.mem_map]
  constructor
  · rintro ⟨row', hrow', heq⟩
    obtain ⟨rfl, rfl⟩ := Prod.mk.inj heq
    exact ⟨hrow', rfl⟩
  · rintro ⟨hrow, rfl⟩
    exact ⟨row, hrow, rfl⟩

end StableMessagesTimelineRowsState.Consistent

/-! ## The fields that are not compared -/

/-- The fields that `isRowUnchanged` leaves out are the same. -/
def OverlookedFieldsAgree : RowFields μ δ π σ κ ω ι → RowFields μ δ π σ κ ω ι → Prop
  | .worktreeSetup a, .worktreeSetup b => a.createdAt = b.createdAt ∧ a.embedded = b.embedded
  | .turnFold a, .turnFold b => a.turnId = b.turnId
  | .proposedPlan a, .proposedPlan b => a.createdAt = b.createdAt
  | .queuedMessage a, .queuedMessage b => a.createdAt = b.createdAt
  | .work a, .work b => a.createdAt = b.createdAt
  | .workToggle a, .workToggle b => a.summaryToolIcon = b.summaryToolIcon
  | .message a, .message b => a.createdAt = b.createdAt
  | _, _ => True

section

variable [DecidableEq μ] [DecidableEq δ] [DecidableEq π] [DecidableEq σ] [DecidableEq κ]
  [DecidableEq ω] [DecidableEq ι] {a b : MessagesTimelineRow μ δ π σ κ ω ι}

theorem id_eq_of_isRowUnchanged (h : isRowUnchanged a b = true) : a.id = b.id := by
  rw [isRowUnchanged] at h
  split at h
  next => nomatch h
  next hid => exact not_not.mp hid

/-- **What is compared and what is left out make up the row.** -/
theorem fields_eq_iff_of_isRowUnchanged (h : isRowUnchanged a b = true) :
    a.fields = b.fields ↔ OverlookedFieldsAgree a.fields b.fields := by
  rw [isRowUnchanged, if_neg (not_not.mpr (id_eq_of_isRowUnchanged h))] at h
  split at h
  case h_13 => nomatch h
  all_goals
    rename_i ha hb
    rw [ha, hb]
    have hsame := of_decide_eq_true h
    simp only [RowFields.working.injEq, RowFields.thinking.injEq, RowFields.worktreeSetup.injEq,
      RowFields.assistantMeta.injEq, RowFields.turnFold.injEq, RowFields.contextCompaction.injEq,
      RowFields.proposedPlan.injEq, RowFields.queuedMessage.injEq, RowFields.work.injEq,
      RowFields.workLive.injEq, RowFields.workToggle.injEq, RowFields.message.injEq,
      OverlookedFieldsAgree]
  case h_1 | h_2 => exact iff_true_intro hsame
  all_goals
    rename_i row row'
    cases row
    cases row'
    simp_all

theorem id_stableRow (previous : StableMessagesTimelineRowsState μ δ π σ κ ω ι)
    (row : MessagesTimelineRow μ δ π σ κ ω ι) : (stableRow previous row).id = row.id := by
  rw [stableRow]
  split
  next =>
    split
    next h => exact id_eq_of_isRowUnchanged h
    next => rfl
  next => rfl

theorem map_id_stableRow (previous : StableMessagesTimelineRowsState μ δ π σ κ ω ι)
    (rows : List (MessagesTimelineRow μ δ π σ κ ω ι)) :
    (rows.map (stableRow previous)).map (·.id) = rows.map (·.id) := by
  rw [List.map_map]
  exact List.map_congr_left fun row _ ↦ id_stableRow previous row

/-! ## A step -/

variable {previous : StableMessagesTimelineRowsState μ δ π σ κ ω ι}
  {rows : List (MessagesTimelineRow μ δ π σ κ ω ι)}

theorem entries_rowsById (hnodup : (rows.map (·.id)).Nodup) :
    (rowsById previous rows).entries =
      (rows.map (stableRow previous)).map fun row ↦ (row.id, row) := by
  induction rows using List.reverseRecOn with
  | nil => rfl
  | append_singleton rows row ih =>
    rw [List.map_append, List.nodup_append] at hnodup
    have hkeys : (rowsById previous rows).keys = rows.map (·.id) := by
      rw [OrderedMap.keys, ih hnodup.1, List.map_map, ← map_id_stableRow previous rows]
      rfl
    rw [rowsById, List.foldl_concat, ← rowsById, OrderedMap.entries_set_of_not_mem, ih hnodup.1,
      List.map_append, List.map_append, List.map_singleton, List.map_singleton, id_stableRow]
    rw [hkeys]
    exact fun hmem ↦ hnodup.2.2 row.id hmem row.id List.mem_cons_self rfl

/-- A row stands for itself or for a new row that it agrees with in what is compared. -/
theorem StableMessagesTimelineRowsState.Consistent.stableRow_cases (h : previous.Consistent)
    (row : MessagesTimelineRow μ δ π σ κ ω ι) :
    (∃ kept ∈ previous.result, isRowUnchanged kept row = true ∧ stableRow previous row = kept) ∨
      (∀ kept ∈ previous.result, isRowUnchanged kept row = false) ∧
        stableRow previous row = row := by
  rw [stableRow]
  split
  next kept hkept =>
    obtain ⟨hmem, hid⟩ := h.get_byId.mp hkept
    split
    next hunchanged => exact .inl ⟨kept, hmem, hunchanged, rfl⟩
    next hchanged =>
      refine .inr ⟨fun other hother ↦ Bool.eq_false_iff.mpr fun hunchanged ↦ hchanged ?_, rfl⟩
      have hsame := List.inj_on_of_nodup_map h.nodup_ids hother hmem
        ((id_eq_of_isRowUnchanged hunchanged).trans hid.symm)
      rwa [← hsame]
  next hnone =>
    refine .inr ⟨fun other hother ↦ Bool.eq_false_iff.mpr fun hunchanged ↦ ?_, rfl⟩
    have hsome := h.get_byId.mpr ⟨hother, id_eq_of_isRowUnchanged hunchanged⟩
    rw [hnone] at hsome
    nomatch hsome

variable (rows) in
/-- What stands for the rows is returned, in a new state or in the old one. -/
theorem computeStableMessagesTimelineRows_cases (hprevious : previous.Consistent) :
    rows.map (stableRow previous) = previous.result ∧
        computeStableMessagesTimelineRows rows previous = previous ∨
      rows.map (stableRow previous) ≠ previous.result ∧
        computeStableMessagesTimelineRows rows previous =
          { byId := rowsById previous rows, result := rows.map (stableRow previous) } := by
  rw [computeStableMessagesTimelineRows]
  dsimp only
  split
  next hchanged =>
    refine .inr ⟨fun hsame ↦ ?_, rfl⟩
    rw [hprevious.size_byId, ← hsame, List.length_map, Bool.or_eq_true, decide_eq_true_iff,
      List.any_eq_true] at hchanged
    rcases hchanged with hlength | ⟨⟨row, index⟩, hmem, hne⟩
    · exact hlength rfl
    · exact of_decide_eq_true hne (List.mem_zipIdx_iff_getElem?.mp hmem)
  next hsame =>
    rw [Bool.or_eq_true, not_or, decide_eq_true_iff, not_not, hprevious.size_byId] at hsame
    refine .inl ⟨List.ext_getElem? fun index ↦ ?_, rfl⟩
    by_cases hindex : index < rows.length
    · have hrow :
          (rows.map (stableRow previous))[index]? = some (stableRow previous rows[index]) := by
        rw [List.getElem?_map, List.getElem?_eq_getElem hindex]
        rfl
      have hnone := List.any_eq_true.not.mp hsame.2
      by_contra hne
      refine hnone ⟨(stableRow previous rows[index], index),
        List.mem_zipIdx_iff_getElem?.mpr hrow, decide_eq_true fun heq ↦ hne ?_⟩
      rw [hrow, heq]
    · rw [List.getElem?_eq_none (by rw [List.length_map]; omega),
        List.getElem?_eq_none (by omega)]

variable (rows) in
theorem result_computeStableMessagesTimelineRows (hprevious : previous.Consistent) :
    (computeStableMessagesTimelineRows rows previous).result = rows.map (stableRow previous) := by
  rcases computeStableMessagesTimelineRows_cases rows hprevious with
    ⟨hsame, hcompute⟩ | ⟨-, hcompute⟩
  · rw [hcompute, hsame]
  · rw [hcompute]

theorem computeStableMessagesTimelineRows_eq_iff (hprevious : previous.Consistent) :
    computeStableMessagesTimelineRows rows previous = previous ↔
      rows.map (stableRow previous) = previous.result := by
  rcases computeStableMessagesTimelineRows_cases rows hprevious with
    ⟨hsame, hcompute⟩ | ⟨hchanged, hcompute⟩
  · exact iff_of_true hcompute hsame
  · refine iff_of_false (fun heq ↦ hchanged ?_) hchanged
    rw [hcompute] at heq
    exact congrArg StableMessagesTimelineRowsState.result heq

theorem consistent_computeStableMessagesTimelineRows (hprevious : previous.Consistent)
    (hnodup : (rows.map (·.id)).Nodup) :
    (computeStableMessagesTimelineRows rows previous).Consistent := by
  rcases computeStableMessagesTimelineRows_cases rows hprevious with
    ⟨-, hcompute⟩ | ⟨-, hcompute⟩
  · rw [hcompute]
    exact hprevious
  · rw [hcompute]
    exact entries_rowsById hnodup

/-- A step returns rows that are as good as the ones it was given: of the same number and in the
same order, each with the fields of the row in its place, whether it is a new object or one of the
last time. It returns the old state itself exactly if the objects of the last time are in their old
places and no row came or went. -/
structure StepIsFaithful (previous : StableMessagesTimelineRowsState μ δ π σ κ ω ι)
    (rows : List (MessagesTimelineRow μ δ π σ κ ω ι)) : Prop where
  length_eq : (computeStableMessagesTimelineRows rows previous).result.length = rows.length
  order_eq : (computeStableMessagesTimelineRows rows previous).result.map (·.id) =
    rows.map (·.id)
  fields_eq : (computeStableMessagesTimelineRows rows previous).result.map (·.fields) =
    rows.map (·.fields)
  reused : ∀ (index : ℕ) (row kept : MessagesTimelineRow μ δ π σ κ ω ι), rows[index]? = some row →
    (computeStableMessagesTimelineRows rows previous).result[index]? = some kept →
      kept ∈ previous.result → kept.id = row.id ∧ kept.fields = row.fields
  returnsPrevious : computeStableMessagesTimelineRows rows previous = previous ↔
    (∀ id, id ∈ rows.map (·.id) ↔ id ∈ previous.result.map (·.id)) ∧
      ∀ index < rows.length,
        (computeStableMessagesTimelineRows rows previous).result[index]? = previous.result[index]?

/-- A new row that is not told apart from one of the last time also agrees with it in the fields
that are not compared. -/
def TellsRowsApart (previous : StableMessagesTimelineRowsState μ δ π σ κ ω ι)
    (rows : List (MessagesTimelineRow μ δ π σ κ ω ι)) : Prop :=
  ∀ row ∈ rows, ∀ kept ∈ previous.result, isRowUnchanged kept row = true →
    OverlookedFieldsAgree kept.fields row.fields

/-- A row that is returned has the fields of the one it stands for exactly if the two agree in what
is not compared. -/
theorem fields_stableRow_iff (hprevious : previous.Consistent)
    (row : MessagesTimelineRow μ δ π σ κ ω ι) :
    (stableRow previous row).fields = row.fields ↔
      ∀ kept ∈ previous.result, isRowUnchanged kept row = true →
        OverlookedFieldsAgree kept.fields row.fields := by
  rcases hprevious.stableRow_cases row with ⟨kept, hkept, hunchanged, hrow⟩ | ⟨hnone, hrow⟩
  · rw [hrow, fields_eq_iff_of_isRowUnchanged hunchanged]
    refine ⟨fun hagree other hother hunchanged' ↦ ?_, fun h ↦ h kept hkept hunchanged⟩
    have hid : other.id = kept.id :=
      (id_eq_of_isRowUnchanged hunchanged').trans (id_eq_of_isRowUnchanged hunchanged).symm
    rwa [List.inj_on_of_nodup_map hprevious.nodup_ids hother hkept hid]
  · rw [hrow]
    refine iff_of_true rfl fun kept hkept hunchanged ↦ ?_
    rw [hnone kept hkept] at hunchanged
    nomatch hunchanged

/-- **A step is faithful exactly if it tells the rows apart.** -/
theorem stepIsFaithful_iff (hprevious : previous.Consistent)
    (hnodup : (rows.map (·.id)).Nodup) :
    StepIsFaithful previous rows ↔ TellsRowsApart previous rows := by
  have hresult := result_computeStableMessagesTimelineRows rows hprevious
  constructor
  · intro hfaithful row hrow
    refine (fields_stableRow_iff hprevious row).mp ?_
    have hfields := hfaithful.fields_eq
    rw [hresult, List.map_map] at hfields
    exact List.map_inj_left.mp hfields row hrow
  · intro hapart
    have hfields : ∀ row ∈ rows, (stableRow previous row).fields = row.fields := fun row hrow ↦
      (fields_stableRow_iff hprevious row).mpr (hapart row hrow)
    refine ⟨?_, ?_, ?_, ?_, ?_⟩
    · rw [hresult, List.length_map]
    · rw [hresult, map_id_stableRow]
    · rw [hresult, List.map_map]
      exact List.map_congr_left hfields
    · intro index row kept hrow hkept _
      rw [hresult, List.getElem?_map, hrow] at hkept
      obtain rfl := Option.some.inj hkept
      exact ⟨id_stableRow previous row, hfields row (List.mem_of_getElem? hrow)⟩
    · rw [computeStableMessagesTimelineRows_eq_iff hprevious, hresult]
      constructor
      · intro hsame
        rw [← hsame, map_id_stableRow]
        exact ⟨fun id ↦ Iff.rfl, fun index _ ↦ rfl⟩
      · rintro ⟨hids, hplaces⟩
        -- the same ids, each once, are equally many
        have hlength : previous.result.length = rows.length := by
          have hperm := (List.perm_ext_iff_of_nodup hnodup hprevious.nodup_ids).mpr hids
          rw [← @List.length_map _ _ rows (·.id), hperm.length_eq, List.length_map]
        refine List.ext_getElem? fun index ↦ ?_
        by_cases hindex : index < rows.length
        · exact hplaces index hindex
        · rw [List.getElem?_eq_none (by rw [List.length_map]; omega),
            List.getElem?_eq_none (by omega)]

/-! ## Runs -/

/-- The state before anything is shown. -/
def emptyStableRows : StableMessagesTimelineRowsState μ δ π σ κ ω ι where
  byId := .empty
  result := []

/-- Feed lists of rows one after the other. -/
def feedRows (steps : List (List (MessagesTimelineRow μ δ π σ κ ω ι))) :
    StableMessagesTimelineRowsState μ δ π σ κ ω ι :=
  steps.foldl (fun previous rows ↦ computeStableMessagesTimelineRows rows previous)
    emptyStableRows

theorem consistent_feedRows {steps : List (List (MessagesTimelineRow μ δ π σ κ ω ι))}
    (hnodup : ∀ rows ∈ steps, (rows.map (·.id)).Nodup) : (feedRows steps).Consistent := by
  induction steps using List.reverseRecOn with
  | nil => rfl
  | append_singleton steps rows ih =>
    rw [feedRows, List.foldl_concat, ← feedRows]
    exact consistent_computeStableMessagesTimelineRows
      (ih fun rows hrows ↦ hnodup rows (List.mem_append_left _ hrows))
      (hnodup rows (List.mem_append_right _ List.mem_cons_self))

/-- **The rows of a run are never stale exactly if every step tells its rows apart.** -/
theorem neverStale_iff (steps : List (List (MessagesTimelineRow μ δ π σ κ ω ι)))
    (hnodup : ∀ rows ∈ steps, (rows.map (·.id)).Nodup) :
    (∀ earlier rows, earlier ++ [rows] <+: steps → StepIsFaithful (feedRows earlier) rows) ↔
      ∀ earlier rows, earlier ++ [rows] <+: steps → TellsRowsApart (feedRows earlier) rows := by
  refine forall_congr' fun earlier ↦ forall_congr' fun rows ↦ imp_congr_right fun hpre ↦ ?_
  have hmem : ∀ list ∈ earlier ++ [rows], (list.map (·.id)).Nodup := fun list hlist ↦
    hnodup list (hpre.subset hlist)
  exact stepIsFaithful_iff (consistent_feedRows fun list hlist ↦
    hmem list (List.mem_append_left _ hlist)) (hmem rows (List.mem_append_right _ List.mem_cons_self))

end

/-- The card of a setup, before and after the turn of the agent starts. -/
def setupCard (ref : ℕ) (embedded : Bool) :
    MessagesTimelineRow Unit Unit Unit Unit Unit Unit Unit where
  ref := ref
  id := "worktree-setup-row"
  fields := .worktreeSetup ⟨some "2026-01-01T00:00:00.000Z", (), embedded⟩

theorem neverStale_iff_setupCard :
    (∀ earlier rows, earlier ++ [rows] <+: [[setupCard 0 false], [setupCard 1 false]] →
      StepIsFaithful (feedRows earlier) rows) ↔
      ∀ earlier rows, earlier ++ [rows] <+: [[setupCard 0 false], [setupCard 1 false]] →
        TellsRowsApart (feedRows earlier) rows :=
  neverStale_iff _ (by decide)

/-- A card that has become embedded is shown as it was. -/
theorem not_neverStale_setupCard :
    ¬ ∀ steps : List (List (MessagesTimelineRow Unit Unit Unit Unit Unit Unit Unit)),
      (∀ rows ∈ steps, (rows.map (·.id)).Nodup) →
        ∀ earlier rows, earlier ++ [rows] <+: steps → StepIsFaithful (feedRows earlier) rows :=
  fun h ↦ absurd (h [[setupCard 0 false], [setupCard 1 true]] (by decide) [[setupCard 0 false]]
    [setupCard 1 true] List.prefix_rfl).fields_eq (by decide)

end Awen.Timeline
