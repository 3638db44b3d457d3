import Awen.Library.OrderedMap
import Awen.Orchestration.Projector
import Awen.Library.Suffixes

/-!
# What a thread waits for

The decider reads from a thread's activities which approvals and questions are still open, and from
its messages whether a turn start is still queued. An async question is one that is answered by a
message; its payload lists what was asked.
-/

namespace Awen.Orchestration

/-! ## Open requests -/

/-- The failures that mark a request as gone. -/
def staleRequestMarkers : List String :=
  ["stale pending approval request", "unknown pending approval request",
    "unknown pending permission request", "stale pending user-input request",
    "unknown pending user-input request", "unknown pending user input request",
    "unknown pending codex user input request"]

variable (js : JsRuntime)

def isStaleRequestFailureDetail (payload : Json) : Bool :=
  match (payload.field "detail").bind Json.string? with
  | none => false
  | some detail => staleRequestMarkers.any fun marker ↦
      decide (marker.toList <:+: (js.toLowerCase detail).toList)

/-- Whether an activity asks for something. -/
def OrchestrationThreadActivity.isRequest (activity : OrchestrationThreadActivity) : Bool :=
  activity.kind == "approval.requested" || activity.kind == "user-input.requested"

/-- Whether an activity closes its request. -/
def OrchestrationThreadActivity.isClosing (activity : OrchestrationThreadActivity) : Bool :=
  activity.kind == "approval.resolved" || activity.kind == "approval.respond.already-resolved" ||
    activity.kind == "user-input.resolved" ||
    ((activity.kind == "provider.approval.respond.failed" ||
        activity.kind == "provider.user-input.respond.failed") &&
      isStaleRequestFailureDetail js activity.payload)

/-- One step of the scan for open requests. -/
def noteRequest (requests : OrderedMap String OrchestrationThreadActivity)
    (activity : OrchestrationThreadActivity) : OrderedMap String OrchestrationThreadActivity :=
  match activity.requestId? with
  | none => requests
  | some requestId =>
    if activity.isRequest then requests.set requestId activity
    else if activity.isClosing js then requests.delete requestId
    else requests

/-- **The requests that no later activity closes**, by request id. -/
def openRequests (thread : OrchestrationThread) : OrderedMap String OrchestrationThreadActivity :=
  thread.activities.foldl (noteRequest js) OrderedMap.empty

/-! ## Queued turn starts -/

def queuedTurnStartGraceMs : ℤ := 2 * 60 * 1000

/-- `Date.parse(left) < Date.parse(right)`, false where one is `NaN`. -/
def dateLt (left right : IsoDateTime) : Bool :=
  match js.dateParse left, js.dateParse right with
  | some l, some r => decide (l < r)
  | _, _ => false

/-- A recent user message stays queued until a turn adopts its timestamp. -/
def threadHasQueuedTurnStart (latestUserMessageAt : Option IsoDateTime)
    (latestTurn : Option OrchestrationLatestTurn) (session : Option OrchestrationSession)
    (now : IsoDateTime) : Bool :=
  match latestUserMessageAt with
  | none => false
  | some messageAt =>
    if session.any (·.status = .error) then false
    else
      match js.dateParse now, js.dateParse messageAt with
      | some now, some message =>
        if queuedTurnStartGraceMs < |now - message| then false
        else
          match latestTurn with
          | none => true
          | some turn => [some turn.requestedAt, turn.startedAt, turn.completedAt].all fun value ↦
              value.all fun at' ↦ dateLt js at' messageAt
      | _, _ => false

/-- The time of the latest user message that was not imported; none if one has no valid time. -/
def latestUserMessageAt (messages : List OrchestrationMessage) : Option IsoDateTime :=
  let times := (messages.filter fun m ↦
    m.role = .user ∧ !isImportedAgentSessionMessageId m.id).map (·.createdAt)
  if times.any fun time ↦ (js.dateParse time).isNone then none
  else times.foldl (fun latest time ↦
    match latest with
    | none => some time
    | some l => if dateLt js time l then some l else some time) none

def hasQueuedTurnStartForThread (thread : OrchestrationThread) (now : IsoDateTime) : Bool :=
  threadHasQueuedTurnStart js (latestUserMessageAt js thread.messages) thread.latestTurn
    thread.session now

/-! ## Questions -/

/-- What an answer needs of a question. -/
structure UserInputQuestion where
  id : String
  question : String
  allowCustomAnswer : Option Bool

def trimmedNonEmpty? (value : Option Json) : Option String :=
  ((value.bind Json.string?).map trim).filter (· ≠ "")

/-- A field that is a boolean, or absent. -/
def optionalBool? (value : Option Json) : Option (Option Bool) :=
  match value with
  | none => some none
  | some (.bool b) => some (some b)
  | some _ => none

def decodeUserInputQuestion (value : Json) : Option UserInputQuestion := do
  let id ← trimmedNonEmpty? (value.field "id")
  let _ ← trimmedNonEmpty? (value.field "header")
  let question ← trimmedNonEmpty? (value.field "question")
  let options ← (← value.field "options").array?
  let _ ← options.mapM fun option ↦ do
    let _ ← trimmedNonEmpty? (option.field "label")
    let _ ← (← option.field "description").string?
    option.optionalString "value"
  let allowCustomAnswer ← optionalBool? (value.field "allowCustomAnswer")
  let _ ← optionalBool? (value.field "multiSelect")
  return { id, question, allowCustomAnswer }

/-- The questions of a request, if its payload is one. -/
def decodeUserInputRequestedPayload (payload : Json) : Option (List UserInputQuestion) := do
  let questions ← (← (← payload.field "questions").array?).mapM decodeUserInputQuestion
  match payload.field "responseMode" with
  | none | some (.str "message") => return questions
  | some _ => none

end Awen.Orchestration

/-!
## Requests that are closed

A request in a list of activities is closed if an activity after it closes it. `AllClosed` says so
of every request of a list, and `openRequests_eq_nil_iff` that this is what the decider sees. The
rest says when appending and reverting keep it: an appended activity takes the place of the one with
its id, the retention cap drops old activities, and a revert drops those of later turns, so each can
drop what closes a request and keep the request.
-/

namespace Awen.Orchestration

variable (js : JsRuntime)

/-! ## Closing -/

/-- Whether an activity asks for something, under an id. -/
def OrchestrationThreadActivity.asks (activity : OrchestrationThreadActivity) : Bool :=
  activity.isRequest && activity.requestId?.isSome

/-- Whether an activity closes the request that another one makes. -/
def OrchestrationThreadActivity.closes (activity request : OrchestrationThreadActivity) : Bool :=
  activity.isClosing js && activity.requestId? == request.requestId?

/-- Every request is closed later. -/
def AllClosed (activities : List OrchestrationThreadActivity) : Prop :=
  EveryRest (fun q after ↦ q.asks = true → ∃ c ∈ after, c.closes js q = true) activities

section OpenRequests

variable {js} {activities before after : List OrchestrationThreadActivity}
  {q : OrchestrationThreadActivity} {requestId : String}

/-- What closes a request asks for nothing. -/
theorem isRequest_of_isClosing {c : OrchestrationThreadActivity} (h : c.isClosing js = true) :
    c.isRequest = false := by
  simp only [OrchestrationThreadActivity.isClosing, Bool.or_eq_true, beq_iff_eq,
    Bool.and_eq_true] at h
  rcases h with ((h | h) | h) | ⟨h | h, -⟩ <;> simp [OrchestrationThreadActivity.isRequest, h]

/-- The scan for open requests, over any activities. -/
def openOf (js : JsRuntime) (activities : List OrchestrationThreadActivity) :
    OrderedMap String OrchestrationThreadActivity :=
  activities.foldl (noteRequest js) OrderedMap.empty

theorem openRequests_eq_openOf (thread : OrchestrationThread) :
    openRequests js thread = openOf js thread.activities := rfl

theorem openOf_concat (activities : List OrchestrationThreadActivity)
    (a : OrchestrationThreadActivity) :
    openOf js (activities ++ [a]) = noteRequest js (openOf js activities) a := by
  rw [openOf, List.foldl_append, List.foldl_cons, List.foldl_nil, openOf]

/-- An open request is the last one of its id, and nothing after it closes it. -/
theorem exists_of_mem_openOf (h : (requestId, q) ∈ (openOf js activities).entries) :
    q.isRequest = true ∧ q.requestId? = some requestId ∧
      ∃ before after, activities = before ++ q :: after ∧ ∀ c ∈ after, c.closes js q = false := by
  induction activities using List.reverseRecOn with
  | nil => cases h
  | append_singleton activities a ih =>
    rw [openOf_concat, noteRequest] at h
    have hold : (requestId, q) ∈ (openOf js activities).entries → a.closes js q = false →
        q.isRequest = true ∧ q.requestId? = some requestId ∧
          ∃ before after, activities ++ [a] = before ++ q :: after ∧
            ∀ c ∈ after, c.closes js q = false := by
      intro hmem ha
      obtain ⟨hq, hid, before, after, rfl, hafter⟩ := ih hmem
      refine ⟨hq, hid, before, after ++ [a], by simp, ?_⟩
      simpa [or_imp, forall_and, ha] using hafter
    split at h
    · rename_i hnone
      have hid := fun hmem ↦ (ih hmem).2.1
      exact hold h (by simp [OrchestrationThreadActivity.closes, hnone, hid h])
    · rename_i r hr
      split at h
      · rename_i hrequest
        rcases OrderedMap.mem_entries_set.mp h with ⟨rfl, rfl⟩ | ⟨hmem, -⟩
        · exact ⟨hrequest, hr, activities, [], rfl, List.forall_mem_nil _⟩
        · refine hold hmem ?_
          rw [OrchestrationThreadActivity.closes, Bool.and_eq_false_iff]
          by_contra hboth
          rw [not_or, Bool.not_eq_false] at hboth
          exact absurd hrequest (by simp [isRequest_of_isClosing hboth.1])
      · split at h
        · rename_i hclosing
          rw [OrderedMap.entries_delete, List.mem_filter, decide_eq_true_iff] at h
          refine hold h.1 ?_
          simp only [OrchestrationThreadActivity.closes, (ih h.1).2.1, hr, Bool.and_eq_false_iff]
          exact .inr (by simpa using Ne.symm h.2)
        · rename_i hclosing
          exact hold h (by simp [OrchestrationThreadActivity.closes, hclosing])

/-- A request that nothing after it closes is open, or a later one of its id is. -/
theorem exists_mem_openOf (before : List OrchestrationThreadActivity)
    (hrequest : q.isRequest = true) (hid : q.requestId? = some requestId)
    (h : ∀ c ∈ after, c.closes js q = false) :
    ∃ q', (requestId, q') ∈ (openOf js (before ++ q :: after)).entries ∧ (q' = q ∨ q' ∈ after) := by
  induction after using List.reverseRecOn with
  | nil =>
    refine ⟨q, ?_, .inl rfl⟩
    rw [openOf_concat, noteRequest, hid]
    simp only [hrequest, if_true]
    exact OrderedMap.mem_entries_set.mpr (.inl ⟨rfl, rfl⟩)
  | append_singleton after a ih =>
    obtain ⟨q', hq', hmem⟩ := ih fun c hc ↦ h c (List.mem_append_left _ hc)
    have ha := h a (by simp)
    have hkeep : ∃ q', (requestId, q') ∈ (noteRequest js (openOf js (before ++ q :: after))
        a).entries ∧ (q' = q ∨ q' ∈ after ++ [a]) := by
      have hmem' : q' = q ∨ q' ∈ after ++ [a] := hmem.imp_right (List.mem_append_left _)
      rw [noteRequest]
      split
      · exact ⟨q', hq', hmem'⟩
      · rename_i r hr
        by_cases hsame : r = requestId
        · subst hsame
          have hclosing : a.isClosing js = false := by
            simpa [OrchestrationThreadActivity.closes, hr, hid] using ha
          split
          · exact ⟨a, OrderedMap.mem_entries_set.mpr (.inl ⟨rfl, rfl⟩), .inr (by simp)⟩
          · rw [if_neg (by simp [hclosing])]
            exact ⟨q', hq', hmem'⟩
        · split
          · exact ⟨q', OrderedMap.mem_entries_set.mpr (.inr ⟨hq', Ne.symm hsame⟩), hmem'⟩
          · split
            · refine ⟨q', ?_, hmem'⟩
              rw [OrderedMap.entries_delete, List.mem_filter, decide_eq_true_iff]
              exact ⟨hq', Ne.symm hsame⟩
            · exact ⟨q', hq', hmem'⟩
    rw [← List.cons_append, ← List.append_assoc, openOf_concat]
    exact hkeep

/-- **The decider sees no open request if and only if every request is closed.** -/
theorem openOf_eq_nil_iff : (openOf js activities).entries = [] ↔ AllClosed js activities := by
  constructor
  · rintro h before q after rfl hq
    by_contra hnone
    push Not at hnone
    rw [OrchestrationThreadActivity.asks, Bool.and_eq_true, Option.isSome_iff_exists] at hq
    obtain ⟨hrequest, requestId, hid⟩ := hq
    obtain ⟨q', hq', -⟩ := exists_mem_openOf before hrequest hid
      (fun c hc ↦ by simpa using hnone c hc)
    rw [h] at hq'
    cases hq'
  · intro h
    rw [List.eq_nil_iff_forall_not_mem]
    rintro ⟨requestId, q⟩ hmem
    obtain ⟨hrequest, hid, before, after, hsplit, hafter⟩ := exists_of_mem_openOf hmem
    obtain ⟨c, hc, hcloses⟩ := h before q after hsplit
      (by simp [OrchestrationThreadActivity.asks, hrequest, hid])
    rw [hafter c hc] at hcloses
    cases hcloses

end OpenRequests

/-! ## The order of activities -/

section Order

variable {js}

/-- The comparison by time, and by id where the times are equal. -/
def compareTimeThenId (js : JsRuntime) : OrchestrationThreadActivity →
    OrchestrationThreadActivity → Ordering :=
  compareLex (fun l r ↦ js.localeCompare l.createdAt r.createdAt)
    fun l r ↦ js.localeCompare l.id r.id

instance : Std.TransCmp (compareTimeThenId js) :=
  have := transCmp_comap js.localeCompare OrchestrationThreadActivity.createdAt
  have := transCmp_comap js.localeCompare OrchestrationThreadActivity.id
  inferInstanceAs (Std.TransCmp (compareLex _ _))

/-- The order compares sequences, no sequence being the least, and then times and ids. -/
theorem compareThreadActivities_eq (left right : OrchestrationThreadActivity) :
    compareThreadActivities js left right =
      compareLex (compareOn (·.sequence)) (compareTimeThenId js) left right := by
  rw [compareThreadActivities, compareLex, compareOn, compareTimeThenId, compareLex]
  cases hl : left.sequence with
  | none => cases hr : right.sequence <;> rfl
  | some l =>
    cases hr : right.sequence with
    | none => rfl
    | some r =>
      have hcompare : compare (some l) (some r) = compare l r := rfl
      rw [hcompare]
      dsimp only
      split
      · rename_i hne
        cases h : compare l r with
        | eq => exact absurd (compare_eq_iff_eq.mp h) hne
        | lt => rfl
        | gt => rfl
      · rename_i heq
        have hself : compare r r = .eq := Std.ReflCmp.compare_self
        rw [not_not.mp heq, hself]
        rfl

theorem consistentLe_activityLe : ConsistentLe (activityLe js) := by
  have heq : activityLe js = fun l r ↦ (compareLex
      (compareOn OrchestrationThreadActivity.sequence) (compareTimeThenId js) l r).isLE :=
    funext₂ fun l r ↦ congrArg _ (compareThreadActivities_eq l r)
  rw [heq]
  exact consistentLe_isLE _

end Order

/-! ## Retention -/

/-- A question that is answered by a message. -/
def OrchestrationThreadActivity.isAsync (activity : OrchestrationThreadActivity) : Bool :=
  activity.kind == "user-input.requested" && activity.byMessage

/-- Whether an activity closes a request and the retention cap can see it: beyond the cap an async
question is kept until a `user-input.resolved`, whatever else has closed it. -/
def Answers (capped : Prop) (c q : OrchestrationThreadActivity) : Prop :=
  c.closes js q = true ∧ (capped → q.isAsync = true → c.kind = "user-input.resolved")

/-- Whether an activity ends a question by the rule of the retention cap. -/
def OrchestrationThreadActivity.endsPending (activity question : OrchestrationThreadActivity) :
    Bool :=
  (activity.isAsync || activity.kind == "user-input.resolved") &&
    activity.requestId? == question.requestId?

/-- A question that is pending by the rule of the retention cap. -/
def pendingBefore (question : OrchestrationThreadActivity)
    (after : List OrchestrationThreadActivity) : Bool :=
  question.isAsync && question.requestId?.isSome && after.all fun c ↦ !c.endsPending question

/-- Whether the retention cap keeps an activity, given the ones after it. -/
def keptBefore (activity : OrchestrationThreadActivity)
    (after : List OrchestrationThreadActivity) : Bool :=
  decide (after.length < maxThreadActivities) || pendingBefore activity after ||
    activity.kind == worktreeSetupActivityKind

section Retention

/-- The pending positions are those of the async questions that nothing after them ends. -/
private theorem mem_notePending_iff {entries : List (OrchestrationThreadActivity × ℕ)}
    {requestId : String} {i : ℕ} :
    (requestId, i) ∈ entries.foldl notePending [] ↔
      SomeRest (fun e after ↦ e.2 = i ∧ e.1.isAsync = true ∧ e.1.requestId? = some requestId ∧
        ∀ c ∈ after, c.1.endsPending e.1 = false) entries := by
  induction entries using List.reverseRecOn with
  | nil => simp [not_someRest_nil]
  | append_singleton entries e ih =>
    have hsplit : ∀ (x : OrchestrationThreadActivity × ℕ)
        (after : List (OrchestrationThreadActivity × ℕ)), x.1.requestId? = some requestId →
        ((∀ c ∈ after ++ [e], c.1.endsPending x.1 = false) ↔
          (∀ c ∈ after, c.1.endsPending x.1 = false) ∧
            ¬ ((e.1.isAsync = true ∨ e.1.kind = "user-input.resolved") ∧
              e.1.requestId? = some requestId)) := by
      intro x after hid
      simp [or_imp, forall_and, OrchestrationThreadActivity.endsPending, hid]
      tauto
    have hstays : SomeRest (fun x after ↦ x.2 = i ∧ x.1.isAsync = true ∧
          x.1.requestId? = some requestId ∧ ∀ c ∈ after ++ [e], c.1.endsPending x.1 = false)
          entries ↔
        (requestId, i) ∈ entries.foldl notePending [] ∧
          ¬ ((e.1.isAsync = true ∨ e.1.kind = "user-input.resolved") ∧
            e.1.requestId? = some requestId) := by
      rw [ih]
      constructor
      · intro h
        refine ⟨h.mono fun x after hx ↦ ⟨hx.1, hx.2.1, hx.2.2.1, ?_⟩, ?_⟩
        · exact ((hsplit x after hx.2.2.1).mp hx.2.2.2).1
        · obtain ⟨_, x, after, -, hx⟩ := h
          exact ((hsplit x after hx.2.2.1).mp hx.2.2.2).2
      · rintro ⟨h, he⟩
        exact h.mono fun x after hx ↦ ⟨hx.1, hx.2.1, hx.2.2.1,
          (hsplit x after hx.2.2.1).mpr ⟨hx.2.2.2, he⟩⟩
    rw [someRest_concat, hstays, List.foldl_append, List.foldl_cons, List.foldl_nil, notePending]
    cases hid : e.1.requestId? with
    | none => simp
    | some r =>
      have hasync : (e.1.kind = "user-input.requested" ∧ e.1.byMessage = true) ↔
          e.1.isAsync = true := by
        simp [OrchestrationThreadActivity.isAsync]
      simp only [hasync, Option.some.injEq, List.not_mem_nil, false_imp_iff, implies_true,
        and_true]
      by_cases hask : e.1.isAsync = true
      · simp only [hask, if_true, List.mem_append, List.mem_filter, List.mem_singleton,
          Prod.mk.injEq, decide_eq_true_iff, true_and, true_or]
        tauto
      · by_cases hresolved : e.1.kind = "user-input.resolved"
        · simp only [hask, hresolved, if_true, Bool.false_eq_true, if_false, or_true, true_and,
            List.mem_filter, decide_eq_true_iff, and_false, false_and, false_or]
          tauto
        · simp [hask, hresolved]

/-- The position of an entry of a list with positions is the number of entries before it. -/
private theorem length_of_zipIdx_eq {α : Type*} {items : List α} {before after : List (α × ℕ)}
    {q : α} {i : ℕ} (h : items.zipIdx = before ++ (q, i) :: after) : before.length = i := by
  have hget : items.zipIdx[before.length]? = some (q, i) := by
    rw [h, List.getElem?_append_right le_rfl, Nat.sub_self, List.getElem?_cons_zero]
  rw [List.getElem?_zipIdx, Option.map_eq_some_iff] at hget
  obtain ⟨_, -, heq⟩ := hget
  simpa using (Prod.mk.inj heq).2

/-- **The cap as a filter** on each activity and the ones after it. -/
theorem retainThreadActivities_eq (activities : List OrchestrationThreadActivity) :
    retainThreadActivities activities = filterRest keptBefore activities := by
  rw [retainThreadActivities]
  split
  · rename_i hlength
    refine (filterRest_eq_self fun before a after hsplit ↦ ?_).symm
    have hshort : after.length < maxThreadActivities := by
      rw [hsplit, List.length_append, List.length_cons] at hlength
      omega
    simp [keptBefore, hshort]
  · rename_i hlength
    refine map_fst_filter_zipIdx 0 fun before q after hsplit ↦ ?_
    have hwindow : (activities.length - maxThreadActivities ≤ before.length) ↔
        after.length < maxThreadActivities := by
      rw [hsplit, List.length_append, List.length_cons] at hlength ⊢
      omega
    have hentries : activities.zipIdx = before.zipIdx ++ (q, before.length) ::
        after.zipIdx (before.length + 1) := by
      rw [hsplit, List.zipIdx_append, List.zipIdx_cons, Nat.zero_add]
    have hpending : (pendingPositions activities).contains before.length =
        pendingBefore q after := by
      rw [Bool.eq_iff_iff, List.contains_iff_mem, pendingPositions, List.mem_map]
      constructor
      · rintro ⟨⟨requestId, i⟩, hmem, rfl⟩
        obtain ⟨before', ⟨q', j⟩, after', hsplit', rfl, hasync, hid, hafter⟩ :=
          mem_notePending_iff.mp hmem
        have hlengths : before'.length = before.zipIdx.length :=
          (length_of_zipIdx_eq hsplit').trans (length_of_zipIdx_eq hentries).symm
        obtain ⟨-, hsame⟩ := List.append_inj (hsplit'.symm.trans hentries) hlengths
        obtain ⟨hq, rfl⟩ := List.cons.inj hsame
        obtain rfl := (Prod.mk.inj hq).1
        dsimp only at hasync hid
        simp only [pendingBefore, hasync, hid, Option.isSome_some, Bool.true_and, List.all_eq_true,
          Bool.not_eq_true']
        intro c hc
        rw [← List.zipIdx_map_fst (before.length + 1) after] at hc
        obtain ⟨e, he, rfl⟩ := List.mem_map.mp hc
        exact hafter e he
      · intro hpending
        simp only [pendingBefore, Bool.and_eq_true, List.all_eq_true, Bool.not_eq_true',
          Option.isSome_iff_exists] at hpending
        obtain ⟨⟨hasync, requestId, hid⟩, hafter⟩ := hpending
        refine ⟨(requestId, before.length), mem_notePending_iff.mpr
          ⟨_, _, _, hentries, rfl, hasync, hid, fun e he ↦ hafter e.1 ?_⟩, rfl⟩
        rw [← List.zipIdx_map_fst (before.length + 1) after]
        exact List.mem_map_of_mem he
    simp only [Nat.zero_add, keptBefore, hwindow, hpending]

/-- **Retention keeps what answers a request it keeps.** -/
theorem exists_of_retainThreadActivities_eq {activities before after : List
    OrchestrationThreadActivity} {q : OrchestrationThreadActivity} {capped : Prop}
    (hcapped : maxThreadActivities < activities.length → capped) (hrequest : q.isRequest = true)
    (h : retainThreadActivities activities = before ++ q :: after) :
    ∃ before' after', activities = before' ++ q :: after' ∧
      ∀ c ∈ after', Answers js capped c q → c ∈ after := by
  rw [retainThreadActivities_eq] at h
  obtain ⟨before', after', rfl, hkept, rfl⟩ := exists_of_filterRest_eq h
  refine ⟨before', after', rfl, fun c hc hanswers ↦ ?_⟩
  have hsetup : (q.kind == worktreeSetupActivityKind) = false := by
    rw [beq_eq_false_iff_ne]
    intro hkind
    simp [OrchestrationThreadActivity.isRequest, hkind, worktreeSetupActivityKind] at hrequest
  simp only [keptBefore, hsetup, Bool.or_false, Bool.or_eq_true, decide_eq_true_iff] at hkept
  rcases hkept with hwindow | hpending
  · -- what comes after one of the latest activities is among the latest ones too
    refine mem_filterRest_iff.mpr ?_
    obtain ⟨u, v, rfl⟩ := List.append_of_mem hc
    refine ⟨u, v, rfl, ?_⟩
    have hshort : v.length < maxThreadActivities := by
      rw [List.length_append, List.length_cons] at hwindow
      omega
    simp [keptBefore, hshort]
  · by_contra hdropped
    -- what answers a pending question is seen by the cap, if the cap drops anything
    have hlong : maxThreadActivities < (before' ++ q :: after').length := by
      by_contra hshort
      refine hdropped ?_
      rw [filterRest_eq_self fun u a v hsplit ↦ ?_]
      · exact hc
      · have hv : v.length < maxThreadActivities := by
          rw [hsplit] at hshort
          simp only [List.length_append, List.length_cons] at hshort
          omega
        simp [keptBefore, hv]
    simp only [pendingBefore, Bool.and_eq_true, List.all_eq_true, Bool.not_eq_true'] at hpending
    have hends := hpending.2 c hc
    have hcloses := hanswers.1
    rw [OrchestrationThreadActivity.closes, Bool.and_eq_true] at hcloses
    rw [OrchestrationThreadActivity.endsPending, hcloses.2,
      hanswers.2 (hcapped hlong) hpending.1.1] at hends
    simp at hends

end Retention

/-! ## Appending -/

/-- Activities are in the order they are kept in. -/
def InOrder (activities : List OrchestrationThreadActivity) : Prop :=
  activities.Pairwise fun left right ↦ activityLe js left right = true

/-- Every request is closed once some activities are appended: by one that stays, because no
appended one has its id, or by an appended one that comes after the request. -/
def ClosedAfter (capped : Prop) (activities added : List OrchestrationThreadActivity) : Prop :=
  EveryRest (fun q after ↦ q.asks = true → q.id ∉ added.map (·.id) →
    (∃ c ∈ after, c.id ∉ added.map (·.id) ∧ Answers js capped c q) ∨
      ∃ a ∈ added, Answers js capped a q ∧ activityLe js q a = true) activities

section Append

variable {js} {activities added : List OrchestrationThreadActivity}
  {a : OrchestrationThreadActivity} {capped : Prop}

theorem ClosedAfter.allClosed (h : ClosedAfter js capped activities []) :
    AllClosed js activities := by
  intro before q after hsplit hq
  obtain ⟨c, hc, -, hanswers⟩ | ⟨_, ha, -⟩ := h before q after hsplit hq List.not_mem_nil
  · exact ⟨c, hc, hanswers.1⟩
  · cases ha

theorem retainThreadActivities_sublist (activities : List OrchestrationThreadActivity) :
    (retainThreadActivities activities).Sublist activities := by
  rw [retainThreadActivities]
  split
  · exact List.Sublist.refl _
  · conv_rhs => rw [← List.zipIdx_map_fst 0 activities]
    exact List.filter_sublist.map _

/-- **Appending keeps the order.** -/
theorem inOrder_appendActivity (activities : List OrchestrationThreadActivity)
    (a : OrchestrationThreadActivity) : InOrder js (appendActivity js activities a) :=
  (consistentLe_activityLe.pairwise_stableSort _).sublist (retainThreadActivities_sublist _)

/-- Where an item stands before or after another one. -/
private theorem split_of_append_cons_eq {α : Type*} {x y : α} {l r before after : List α}
    (h : l ++ x :: r = before ++ y :: after) (hne : y ≠ x) :
    (∃ u, l = before ++ y :: u ∧ after = u ++ x :: r) ∨
      ∃ u, before = l ++ x :: u ∧ r = u ++ y :: after := by
  obtain ⟨u, hbefore, hr⟩ | ⟨u, hl, hafter⟩ := List.append_eq_append_iff.mp h
  · cases u with
    | nil => exact absurd (List.cons.inj hr).1.symm hne
    | cons z u =>
      obtain ⟨rfl, rfl⟩ := List.cons.inj hr
      exact .inr ⟨u, hbefore, rfl⟩
  · cases u with
    | nil => exact absurd (List.cons.inj hafter).1 hne
    | cons z u =>
      obtain ⟨rfl, rfl⟩ := List.cons.inj hafter
      exact .inl ⟨u, hl, rfl⟩

/-- The activities among which a new one takes its place. -/
theorem exists_of_stableSort_eq {before after : List OrchestrationThreadActivity}
    {q : OrchestrationThreadActivity} (hsorted : InOrder js activities) (hne : q ≠ a)
    (h : stableSort (activityLe js) (activities ++ [a]) = before ++ q :: after) :
    ∃ before' after', activities = before' ++ q :: after' ∧ (∀ c ∈ after', c ∈ after) ∧
      (activityLe js q a = true → a ∈ after) := by
  rw [consistentLe_activityLe.stableSort_concat hsorted] at h
  have hwhole := List.takeWhile_append_dropWhile (p := (activityLe js · a)) (l := activities)
  obtain ⟨u, htake, rfl⟩ | ⟨u, rfl, hdrop⟩ := split_of_append_cons_eq h hne
  · refine ⟨before, u ++ activities.dropWhile (activityLe js · a), ?_, ?_, fun _ ↦ by simp⟩
    · conv_lhs => rw [← hwhole, htake]
      simp
    · intro c hc
      rcases List.mem_append.mp hc with hc | hc <;> simp [hc]
  · refine ⟨activities.takeWhile (activityLe js · a) ++ u, after, ?_, fun _ ↦ id, ?_⟩
    · conv_lhs => rw [← hwhole, hdrop]
      simp
    · intro hle
      -- the first one that comes after the new activity is not greater than the request
      cases hcases : activities.dropWhile (activityLe js · a) with
      | nil => simp [hcases] at hdrop
      | cons x rest =>
        have hx : activityLe js x a = false := by
          have := List.head?_dropWhile_not (activityLe js · a) activities
          simpa [hcases] using this
        have hxq : activityLe js x q = true := by
          have hpair : InOrder js (x :: rest) := by
            rw [← hcases]
            exact hsorted.sublist (List.dropWhile_sublist _)
          rw [hcases] at hdrop
          cases u with
          | nil =>
            obtain ⟨rfl, -⟩ := List.cons.inj hdrop
            exact consistentLe_activityLe.refl x
          | cons y u =>
            obtain ⟨rfl, rfl⟩ := List.cons.inj hdrop
            exact (List.pairwise_cons.mp hpair).1 q (by simp)
        rw [consistentLe_activityLe.trans x q a hxq hle] at hx
        cases hx

/-- **One append brings the rest closer**: what will be closed by several activities is, after the
first of them, closed by the others. -/
theorem ClosedAfter.appendActivity (hsorted : InOrder js activities)
    (hcapped : maxThreadActivities < activities.length + 1 → capped)
    (hrequest : a.isRequest = false) (hid : a.id ∉ added.map (·.id))
    (h : ClosedAfter js capped activities (a :: added)) :
    ClosedAfter js capped (appendActivity js activities a) added := by
  intro before q after hsplit hq hqid
  have hqrequest : q.isRequest = true := by
    rw [OrchestrationThreadActivity.asks, Bool.and_eq_true] at hq
    exact hq.1
  have hqa : q ≠ a := by
    rintro rfl
    rw [hqrequest] at hrequest
    cases hrequest
  have hlength : maxThreadActivities < (stableSort (activityLe js)
      (activities.filter (·.id ≠ a.id) ++ [a])).length → capped := by
    intro hlt
    refine hcapped (hlt.trans_le ?_)
    rw [length_stableSort, List.length_append, List.length_singleton]
    exact Nat.succ_le_succ (List.length_filter_le _ _)
  obtain ⟨before₁, after₁, hsort, hkept⟩ :=
    exists_of_retainThreadActivities_eq js hlength hqrequest hsplit
  obtain ⟨before₂, after₂, hfilter, hafter₂, hnew⟩ :=
    exists_of_stableSort_eq (hsorted.sublist List.filter_sublist) hqa hsort
  obtain ⟨before₃, rest, hactivities, -, hrest⟩ := List.filter_eq_append_iff.mp hfilter
  obtain ⟨dropped, after₃, rfl, -, hqne, hafter₃⟩ := List.filter_eq_cons_iff.mp hrest
  rw [← List.append_assoc] at hactivities
  have hqids : q.id ∉ (a :: added).map (·.id) := by
    simpa [hqid] using hqne
  obtain ⟨c, hc, hcid, hanswers⟩ | ⟨a', ha', hanswers, hle⟩ := h _ q after₃ hactivities hq hqids
  · rw [List.map_cons, List.mem_cons, not_or] at hcid
    have hcafter : c ∈ after₂ := by
      rw [← hafter₃]
      exact List.mem_filter.mpr ⟨hc, by simpa using hcid.1⟩
    exact .inl ⟨c, hkept c (hafter₂ c hcafter) hanswers, hcid.2, hanswers⟩
  · rcases List.mem_cons.mp ha' with rfl | ha'
    · exact .inl ⟨a', hkept a' (hnew hle) hanswers, hid, hanswers⟩
    · exact .inr ⟨a', ha', hanswers, hle⟩

theorem length_appendActivity_le (js : JsRuntime) (activities : List OrchestrationThreadActivity)
    (a : OrchestrationThreadActivity) :
    (appendActivity js activities a).length ≤ activities.length + 1 := by
  refine (retainThreadActivities_sublist _).length_le.trans ?_
  rw [length_stableSort, List.length_append, List.length_singleton]
  exact Nat.succ_le_succ (List.length_filter_le _ _)

/-- **Several appends.** -/
theorem ClosedAfter.foldl_appendActivity (hsorted : InOrder js activities)
    (hcapped : maxThreadActivities < activities.length + added.length → capped)
    (hrequest : ∀ a ∈ added, a.isRequest = false) (hids : (added.map (·.id)).Nodup)
    (h : ClosedAfter js capped activities added) :
    AllClosed js (added.foldl (Orchestration.appendActivity js) activities) := by
  induction added generalizing activities with
  | nil => exact h.allClosed
  | cons a added ih =>
    rw [List.map_cons, List.nodup_cons] at hids
    have hlength := length_appendActivity_le js activities a
    rw [List.length_cons] at hcapped
    refine ih (inOrder_appendActivity _ _) (fun hlt ↦ hcapped (by omega))
      (fun b hb ↦ hrequest b (List.mem_cons_of_mem _ hb)) hids.2 ?_
    exact h.appendActivity hsorted (fun hlt ↦ hcapped (by omega))
      (hrequest a List.mem_cons_self) hids.1

end Append

/-! ## What keeps requests closed -/

/-- The appended activities keep closed requests closed: none of them takes the place of the only
activity that closes a request, unless it closes that request itself, and where they fill the thread
beyond the cap, an async question is closed by a `user-input.resolved`. -/
def AppendsKeepClosed (activities added : List OrchestrationThreadActivity) : Prop :=
  EveryRest (fun q after ↦ q.asks = true → q.id ∉ added.map (·.id) →
    (∃ c ∈ after, c.closes js q = true) →
    (∃ c ∈ after, c.id ∉ added.map (·.id) ∧
      Answers js (maxThreadActivities < activities.length + added.length) c q) ∨
    ∃ a ∈ added, Answers js (maxThreadActivities < activities.length + added.length) a q ∧
      activityLe js q a = true) activities

/-- Dropping activities keeps closed requests closed: what keeps a request keeps one of the
activities that close it. -/
def DropKeepsClosed (keep : OrchestrationThreadActivity → Bool)
    (activities : List OrchestrationThreadActivity) : Prop :=
  EveryRest (fun q after ↦ q.asks = true → keep q = true → (∃ c ∈ after, c.closes js q = true) →
    ∃ c ∈ after, c.closes js q = true ∧ keep c = true) activities

section Keep

variable {js} {activities added : List OrchestrationThreadActivity}

theorem AllClosed.closedAfter (h : AllClosed js activities)
    (hkeep : AppendsKeepClosed js activities added) :
    ClosedAfter js (maxThreadActivities < activities.length + added.length) activities added :=
  fun before q after hsplit hq hid ↦
    hkeep before q after hsplit hq hid (h before q after hsplit hq)

/-- Of an activity that closes nothing only the id matters. -/
theorem AppendsKeepClosed.congr {a a' : OrchestrationThreadActivity}
    (h : AppendsKeepClosed js activities [a]) (hid : a'.id = a.id)
    (hclosing : a.isClosing js = false) : AppendsKeepClosed js activities [a'] := by
  intro before q after hsplit hq hqid hclosed
  rw [List.map_singleton, hid] at hqid ⊢
  obtain hstays | ⟨_, ha, hanswers, -⟩ := h before q after hsplit hq hqid hclosed
  · exact .inl hstays
  · rw [List.mem_singleton.mp ha] at hanswers
    have hcloses := hanswers.1
    rw [OrchestrationThreadActivity.closes, hclosing, Bool.false_and] at hcloses
    cases hcloses

/-- Appending one activity that asks for nothing. -/
theorem AllClosed.appendActivity {a : OrchestrationThreadActivity} (h : AllClosed js activities)
    (hsorted : InOrder js activities) (hrequest : a.isRequest = false)
    (hkeep : AppendsKeepClosed js activities [a]) :
    AllClosed js (appendActivity js activities a) :=
  (h.closedAfter hkeep).foldl_appendActivity hsorted id (by simpa using hrequest) (by simp)

/-- Dropping activities. -/
theorem AllClosed.filter {keep : OrchestrationThreadActivity → Bool} (h : AllClosed js activities)
    (hkeep : DropKeepsClosed js keep activities) : AllClosed js (activities.filter keep) := by
  intro before q after hsplit hq
  obtain ⟨before₁, rest, hactivities, -, hrest⟩ := List.filter_eq_append_iff.mp hsplit
  obtain ⟨dropped, after₁, rfl, -, hqkeep, rfl⟩ := List.filter_eq_cons_iff.mp hrest
  rw [← List.append_assoc] at hactivities
  obtain ⟨c, hc, hcloses, hckeep⟩ := hkeep _ q after₁ hactivities hq hqkeep
    (h _ q after₁ hactivities hq)
  exact ⟨c, List.mem_filter.mpr ⟨hc, hckeep⟩, hcloses⟩

end Keep

end Awen.Orchestration
