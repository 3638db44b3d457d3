import Awen.Orchestration.OpenRequests
import Awen.Shared.PlainRuntime

/-!
# Questions beyond the retention cap

A thread keeps its latest activities, and beyond them the questions that are still pending. What is
pending is decided twice, by different rules: the retention cap ends a question at a
`user-input.resolved` or when it is asked again, and the decider also where a failure says that the
request is gone, where it was already resolved, or where another request takes its id.

`openQuestions_retained_iff` says that the decider sees the same open questions with and without the
cap if and only if what ended a question by the decider's rule alone is still among the latest ones.
-/

namespace Awen.Orchestration

variable (js : JsRuntime)

/-! ## The two rules -/

/-- Whether an activity ends a request by the decider's rule. -/
def OrchestrationThreadActivity.supersedes (activity request : OrchestrationThreadActivity) :
    Bool :=
  (activity.isRequest || activity.isClosing js) && activity.requestId? == request.requestId?

/-- An activity that makes a request, with nothing after it that ends the request. -/
structure StaysOpen (requestId : String) (request : OrchestrationThreadActivity)
    (after : List OrchestrationThreadActivity) : Prop where
  asks : request.isRequest = true
  id : request.requestId? = some requestId
  unended : ∀ c ∈ after, c.supersedes js request = false

/-- **The open async questions** that the decider sees, with their request ids. -/
def openQuestions (activities : List OrchestrationThreadActivity) :
    List (String × OrchestrationThreadActivity) :=
  (openOf js activities).entries.filter (·.2.isAsync)

/-- Two lists of activities have the same open questions. -/
def SameOpenQuestions (left right : List OrchestrationThreadActivity) : Prop :=
  ∀ question, question ∈ openQuestions js left ↔ question ∈ openQuestions js right

/-- What ended a question is visible beyond the cap: it ended by the cap's rule too, or one of the
activities that ended it is among the latest ones. -/
def EndsStayVisible (activities : List OrchestrationThreadActivity) : Prop :=
  EveryRest (fun q after ↦ q.isAsync = true → q.requestId?.isSome = true →
    (∃ c ∈ after, c.supersedes js q = true) → (∃ c ∈ after, c.endsPending q = true) ∨
      ∃ c ∈ lastItems maxThreadActivities after, c.supersedes js q = true) activities

/-! ## Open requests -/

section Open

variable {js} {activities after : List OrchestrationThreadActivity}
  {q : OrchestrationThreadActivity} {requestId : String}

theorem supersedes_of_endsPending {c : OrchestrationThreadActivity}
    (h : c.endsPending q = true) : c.supersedes js q = true := by
  simp only [OrchestrationThreadActivity.endsPending, Bool.and_eq_true, Bool.or_eq_true,
    beq_iff_eq] at h
  rw [OrchestrationThreadActivity.supersedes, h.2, beq_self_eq_true, Bool.and_true]
  rcases h.1 with hasync | hkind
  · simp only [OrchestrationThreadActivity.isAsync, Bool.and_eq_true, beq_iff_eq] at hasync
    simp [OrchestrationThreadActivity.isRequest, hasync.1]
  · simp [OrchestrationThreadActivity.isClosing, hkind]

theorem StaysOpen.mono {rest : List OrchestrationThreadActivity}
    (h : StaysOpen js requestId q after) (hrest : rest ⊆ after) : StaysOpen js requestId q rest :=
  { h with unended := fun c hc ↦ h.unended c (hrest hc) }

theorem supersedes_eq_false_iff {c : OrchestrationThreadActivity} :
    c.supersedes js q = false ↔ ¬ ((c.isRequest = true ∨ c.isClosing js = true) ∧
      c.requestId? = q.requestId?) := by
  rw [← Bool.not_eq_true, OrchestrationThreadActivity.supersedes, Bool.and_eq_true,
    Bool.or_eq_true, beq_iff_eq]

/-- **The open requests** are those that no later activity ends. -/
theorem mem_openOf_iff : (requestId, q) ∈ (openOf js activities).entries ↔
    SomeRest (fun x after ↦ x = q ∧ StaysOpen js requestId q after) activities := by
  induction activities using List.reverseRecOn with
  | nil => simp [not_someRest_nil, openOf, OrderedMap.empty]
  | append_singleton activities a ih =>
    have hstays : SomeRest (fun x after ↦ x = q ∧ StaysOpen js requestId q (after ++ [a]))
          activities ↔
        (requestId, q) ∈ (openOf js activities).entries ∧
          ¬ ((a.isRequest = true ∨ a.isClosing js = true) ∧ a.requestId? = some requestId) := by
      rw [ih]
      constructor
      · rintro ⟨before, x, after, hsplit, rfl, hopen⟩
        refine ⟨⟨before, x, after, hsplit, rfl, hopen.mono (List.subset_append_left _ _)⟩, ?_⟩
        rw [← hopen.id]
        exact supersedes_eq_false_iff.mp (hopen.unended a (by simp))
      · rintro ⟨⟨before, x, after, hsplit, rfl, hopen⟩, ha⟩
        refine ⟨before, x, after, hsplit, rfl, hopen.asks, hopen.id, fun c hc ↦ ?_⟩
        rcases List.mem_append.mp hc with hc | hc
        · exact hopen.unended c hc
        · rw [List.mem_singleton.mp hc, supersedes_eq_false_iff, hopen.id]
          exact ha
    rw [someRest_concat, hstays, openOf_concat, noteRequest]
    cases hid : a.requestId? with
    | none =>
      have hne : ¬ (a = q ∧ StaysOpen js requestId q []) := by
        rintro ⟨rfl, hopen⟩
        rw [hopen.id] at hid
        cases hid
      simp only [hne, false_or, reduceCtorEq, and_false, not_false_eq_true, and_true]
    | some r =>
      have hnew : (a = q ∧ StaysOpen js requestId q []) ↔
          a.isRequest = true ∧ requestId = r ∧ q = a := by
        constructor
        · rintro ⟨rfl, hopen⟩
          rw [hopen.id, Option.some.injEq] at hid
          exact ⟨hopen.asks, hid, rfl⟩
        · rintro ⟨hrequest, rfl, rfl⟩
          exact ⟨rfl, hrequest, hid, List.forall_mem_nil _⟩
      rw [hnew]
      by_cases hrequest : a.isRequest = true
      · simp only [hrequest, if_true, OrderedMap.mem_entries_set, Option.some.injEq, true_or,
          true_and, eq_comm (a := r)]
      · by_cases hclosing : a.isClosing js = true
        · simp only [hrequest, hclosing, if_true, OrderedMap.entries_delete, List.mem_filter,
            decide_eq_true_iff, Option.some.injEq, or_true, true_and, eq_comm (a := r),
            Bool.false_eq_true, if_false, false_and, false_or]
        · simp [hrequest, hclosing]

theorem mem_openQuestions_iff : (requestId, q) ∈ openQuestions js activities ↔
    q.isAsync = true ∧ SomeRest (fun x after ↦ x = q ∧ StaysOpen js requestId q after)
      activities := by
  rw [openQuestions, List.mem_filter, mem_openOf_iff, and_comm]

end Open

/-! ## The cap and the decider -/

section Cap

variable {js} {activities after : List OrchestrationThreadActivity}
  {q : OrchestrationThreadActivity} {requestId : String}

theorem mem_lastItems_iff {α : Type*} {n : ℕ} {items : List α} {a : α} :
    a ∈ lastItems n items ↔ ∃ before after, items = before ++ a :: after ∧ after.length < n := by
  constructor
  · intro h
    obtain ⟨u, v, h⟩ := List.append_of_mem h
    refine ⟨items.take (items.length - n) ++ u, v, ?_, ?_⟩
    · rw [List.append_assoc, ← h, lastItems, List.take_append_drop]
    · have hlength := congrArg List.length h
      simp only [lastItems, List.length_drop, List.length_append, List.length_cons] at hlength
      omega
  · rintro ⟨before, after, rfl, hafter⟩
    have hle : (before ++ a :: after).length - n ≤ before.length := by
      simp only [List.length_append, List.length_cons]
      omega
    rw [lastItems, List.drop_append_of_le_length hle]
    simp

theorem keptBefore_of_length (h : after.length < maxThreadActivities) :
    keptBefore q after = true := by
  simp [keptBefore, h]

/-- The latest activities are kept. -/
theorem mem_retain_of_mem_lastItems {c : OrchestrationThreadActivity}
    (h : c ∈ lastItems maxThreadActivities after) : c ∈ filterRest keptBefore after := by
  obtain ⟨u, v, hsplit, hv⟩ := mem_lastItems_iff.mp h
  exact mem_filterRest_iff.mpr ⟨u, v, hsplit, keptBefore_of_length hv⟩

/-- **Of the activities that end a request by the decider's rule alone, only the latest are
kept.** -/
theorem mem_lastItems_of_supersedes {c : OrchestrationThreadActivity}
    (h : c ∈ filterRest keptBefore after) (hsupersedes : c.supersedes js q = true)
    (hpending : ∀ c ∈ after, c.endsPending q = false) :
    c ∈ lastItems maxThreadActivities after := by
  obtain ⟨u, v, rfl, hkept⟩ := mem_filterRest_iff.mp h
  refine mem_lastItems_iff.mpr ⟨u, v, rfl, ?_⟩
  by_contra hold
  have hc := hpending c (by simp)
  simp only [OrchestrationThreadActivity.supersedes, Bool.and_eq_true,
    Bool.or_eq_true] at hsupersedes
  rw [OrchestrationThreadActivity.endsPending, hsupersedes.2, Bool.and_true,
    Bool.or_eq_false_iff] at hc
  simp only [keptBefore, pendingBefore, hold, hc.1, decide_false, Bool.false_and, Bool.false_or,
    beq_iff_eq] at hkept
  -- the record of a worktree's setup ends nothing
  rcases hsupersedes.1 with hrequest | hclosing
  · simp [OrchestrationThreadActivity.isRequest, hkept, worktreeSetupActivityKind] at hrequest
  · simp [OrchestrationThreadActivity.isClosing, hkept, worktreeSetupActivityKind] at hclosing

/-- An open question stays open under the cap. -/
theorem mem_openQuestions_retain (h : (requestId, q) ∈ openQuestions js activities) :
    (requestId, q) ∈ openQuestions js (retainThreadActivities activities) := by
  rw [mem_openQuestions_iff] at h ⊢
  obtain ⟨hasync, before, x, after, rfl, rfl, hopen⟩ := h
  have hpending : pendingBefore x after = true := by
    simp only [pendingBefore, hasync, hopen.id, Option.isSome_some, Bool.true_and,
      List.all_eq_true, Bool.not_eq_true']
    intro c hc
    by_contra hends
    rw [Bool.not_eq_false] at hends
    have hsupersedes : c.supersedes js x = true := supersedes_of_endsPending hends
    exact Bool.false_ne_true ((hopen.unended c hc).symm.trans hsupersedes)
  obtain ⟨before', hretain⟩ := filterRest_of_keep
    (show keptBefore x after = true by simp [keptBefore, hpending])
  rw [retainThreadActivities_eq, hretain]
  exact ⟨hasync, before', x, _, rfl, rfl, hopen.mono (filterRest_sublist _ _).subset⟩

/-- An activity that stays open under the cap, in the list without it. -/
theorem exists_of_mem_openOf_retain
    (h : (requestId, q) ∈ (openOf js (retainThreadActivities activities)).entries) :
    ∃ before after, activities = before ++ q :: after ∧ keptBefore q after = true ∧
      StaysOpen js requestId q (filterRest keptBefore after) := by
  obtain ⟨before, x, after, hsplit, rfl, hopen⟩ := mem_openOf_iff.mp h
  rw [retainThreadActivities_eq] at hsplit
  obtain ⟨before', after', hactivities, hkept, rfl⟩ := exists_of_filterRest_eq hsplit
  exact ⟨before', after', hactivities, hkept, hopen⟩

/-- The activities after one of the latest ones are all kept. -/
theorem filterRest_eq_self_of_length (h : after.length ≤ maxThreadActivities) :
    filterRest keptBefore after = after := by
  refine filterRest_eq_self fun u a v hsplit ↦ keptBefore_of_length ?_
  rw [hsplit, List.length_append, List.length_cons] at h
  omega

/-- **The cap leaves the open questions alone if and only if what ended one stays visible.** -/
theorem sameOpenQuestions_retain_iff :
    SameOpenQuestions js (retainThreadActivities activities) activities ↔
      EndsStayVisible js activities := by
  constructor
  · rintro hsame before q after rfl hasync hid ⟨c, hc, hsupersedes⟩
    by_contra hnone
    simp only [not_or, not_exists, not_and, Bool.not_eq_true] at hnone
    obtain ⟨requestId, hid⟩ := Option.isSome_iff_exists.mp hid
    have hkept : keptBefore q after = true := by
      have hpending : pendingBefore q after = true := by
        simpa [pendingBefore, hasync, hid] using hnone.1
      simp [keptBefore, hpending]
    have hrequest : q.isRequest = true := by
      simp only [OrchestrationThreadActivity.isAsync, Bool.and_eq_true] at hasync
      simp [OrchestrationThreadActivity.isRequest, hasync.1]
    -- the question comes back, because what ended it is dropped
    have hback : (requestId, q) ∈ openQuestions js
        (retainThreadActivities (before ++ q :: after)) := by
      obtain ⟨before', hretain⟩ := filterRest_of_keep hkept
      rw [mem_openQuestions_iff, retainThreadActivities_eq, hretain]
      refine ⟨hasync, before', q, _, rfl, rfl, hrequest, hid, fun d hd ↦ ?_⟩
      by_contra hends
      rw [Bool.not_eq_false] at hends
      have hlast := hnone.2 d (mem_lastItems_of_supersedes hd hends hnone.1)
      rw [hends] at hlast
      cases hlast
    obtain ⟨-, before', x, after', hsplit, rfl, hopen⟩ :=
      mem_openQuestions_iff.mp ((hsame _).mp hback)
    -- nothing after the question asks it again, so it stands where it is open
    have hmem : c ∈ after' := by
      obtain ⟨u, -, hu⟩ | ⟨u, -, hu⟩ := List.append_eq_append_iff.mp hsplit
      · cases u with
        | nil => exact (List.cons.inj hu).2 ▸ hc
        | cons y u =>
          obtain ⟨rfl, rfl⟩ := List.cons.inj hu
          have hagain := hnone.1 x (by simp)
          simp [OrchestrationThreadActivity.endsPending, hasync] at hagain
      · cases u with
        | nil => exact (List.cons.inj hu).2 ▸ hc
        | cons y u =>
          obtain ⟨rfl, rfl⟩ := List.cons.inj hu
          simp [hc]
    rw [hopen.unended c hmem] at hsupersedes
    cases hsupersedes
  · rintro hvisible ⟨requestId, q⟩
    refine ⟨fun h ↦ ?_, mem_openQuestions_retain⟩
    have hasync := (mem_openQuestions_iff.mp h).1
    obtain ⟨before, after, rfl, hkept, hopen⟩ :=
      exists_of_mem_openOf_retain (List.mem_filter.mp h).1
    refine mem_openQuestions_iff.mpr ⟨hasync, before, q, after, rfl, rfl, hopen.asks,
      hopen.id, fun c hc ↦ ?_⟩
    by_contra hends
    rw [Bool.not_eq_false] at hends
    obtain ⟨d, hd, hpending⟩ | ⟨d, hd, hlast⟩ := hvisible before q after rfl hasync
      (by rw [hopen.id]; rfl) ⟨c, hc, hends⟩
    · -- the cap has ended the question too, so it is kept as one of the latest activities
      have hsetup : (q.kind == worktreeSetupActivityKind) = false := by
        simp only [OrchestrationThreadActivity.isAsync, Bool.and_eq_true, beq_iff_eq] at hasync
        simp [hasync.1, worktreeSetupActivityKind]
      have hnot : pendingBefore q after = false := by
        rw [pendingBefore, Bool.and_eq_false_iff]
        exact .inr (List.all_eq_false.mpr ⟨d, hd, by simp [hpending]⟩)
      simp only [keptBefore, hsetup, hnot, Bool.or_false, decide_eq_true_iff] at hkept
      rw [filterRest_eq_self_of_length hkept.le] at hopen
      rw [hopen.unended c hc] at hends
      cases hends
    · rw [hopen.unended d (mem_retain_of_mem_lastItems hd)] at hlast
      cases hlast

end Cap

/-! ## Trimming after every append -/

section Trim

variable {activities after added : List OrchestrationThreadActivity}
  {q a : OrchestrationThreadActivity}

/-- An activity is kept before fewer activities. -/
theorem keptBefore_of_subset {rest : List OrchestrationThreadActivity}
    (h : keptBefore q after = true) (hlength : rest.length ≤ after.length) (hrest : rest ⊆ after) :
    keptBefore q rest = true := by
  simp only [keptBefore, pendingBefore, Bool.or_eq_true, decide_eq_true_iff, Bool.and_eq_true,
    List.all_eq_true] at h ⊢
  exact h.imp_left (Or.imp (Nat.lt_of_le_of_lt hlength) fun hpending ↦
    ⟨hpending.1, fun c hc ↦ hpending.2 c (hrest hc)⟩)

theorem keptBefore_perm {rest : List OrchestrationThreadActivity} (h : rest.Perm after) :
    keptBefore q rest = keptBefore q after := by
  rw [Bool.eq_iff_iff]
  exact ⟨fun hkept ↦ keptBefore_of_subset hkept h.length_eq.ge h.symm.subset,
    fun hkept ↦ keptBefore_of_subset hkept h.length_eq.le h.subset⟩

/-- The cap leaves a full thread. -/
theorem length_lt_of_length_filterRest_lt
    (h : (filterRest keptBefore after).length < maxThreadActivities) :
    after.length < maxThreadActivities := by
  by_contra hlong
  have hlast : (after.drop (after.length - maxThreadActivities)).length = maxThreadActivities := by
    rw [List.length_drop]
    omega
  have hsplit := filterRest_append keptBefore (after.take (after.length - maxThreadActivities))
    (after.drop (after.length - maxThreadActivities))
  rw [List.take_append_drop, filterRest_eq_self_of_length hlast.le] at hsplit
  rw [hsplit, List.length_append, hlast] at h
  omega

/-- What the cap keeps, given some more activities, it keeps after it has trimmed the others. -/
theorem keptBefore_filterRest_append (added : List OrchestrationThreadActivity) :
    (keptBefore q after && keptBefore q (filterRest keptBefore after ++ added)) =
      keptBefore q (after ++ added) := by
  have hfew : after.length < maxThreadActivities → filterRest keptBefore after = after :=
    fun hlength ↦ filterRest_eq_self_of_length hlength.le
  rw [Bool.eq_iff_iff, Bool.and_eq_true]
  constructor
  · rintro ⟨hkept, htrimmed⟩
    by_cases hlength : after.length < maxThreadActivities
    · rwa [hfew hlength] at htrimmed
    · have hwindow : ¬ (filterRest keptBefore after ++ added).length < maxThreadActivities := by
        intro hlt
        rw [List.length_append] at hlt
        exact hlength (length_lt_of_length_filterRest_lt (by omega))
      simp only [keptBefore, pendingBefore, hlength, hwindow, decide_false, Bool.false_or,
        Bool.or_eq_true, Bool.and_eq_true, List.all_append] at hkept htrimmed ⊢
      rcases hkept with hpending | hsetup
      · exact htrimmed.imp_left fun h ↦ .inr ⟨hpending.1, hpending.2, h.2.2⟩
      · exact .inr hsetup
  · intro hkept
    have hsublist := filterRest_sublist keptBefore after
    exact ⟨keptBefore_of_subset hkept (by simp) (List.subset_append_left _ _),
      keptBefore_of_subset hkept (by simpa using hsublist.length_le)
        (List.append_subset.mpr ⟨fun c hc ↦ List.mem_append_left _ (hsublist.subset hc),
          List.subset_append_right _ _⟩)⟩

/-- The cap trims a trimmed thread no further. -/
theorem filterRest_filterRest_keptBefore (activities : List OrchestrationThreadActivity) :
    filterRest keptBefore (filterRest keptBefore activities) =
    filterRest keptBefore activities := by
  rw [filterRest_filterRest]
  refine filterRest_congr fun before a after _ ↦ ?_
  simpa using keptBefore_filterRest_append (q := a) []

/-- **Trimming before an activity takes its place and after it is trimming after it.** An async
question is the exception: it may be pending among what was trimmed, and not among all of it. -/
theorem filterRest_insert (before : List OrchestrationThreadActivity) (ha : a.isAsync = false) :
    filterRest keptBefore (filterRest (fun q rest ↦ keptBefore q (rest ++ after)) before ++
        a :: filterRest keptBefore after) = filterRest keptBefore (before ++ a :: after) := by
  rw [filterRest_append, filterRest_append, filterRest_filterRest, filterRest, filterRest]
  have hlast : keptBefore a (filterRest keptBefore after) = keptBefore a after := by
    have hlength : (filterRest keptBefore after).length < maxThreadActivities ↔
        after.length < maxThreadActivities :=
      ⟨length_lt_of_length_filterRest_lt, Nat.lt_of_le_of_lt (filterRest_sublist _ _).length_le⟩
    simp [keptBefore, pendingBefore, ha, hlength]
  rw [hlast, filterRest_filterRest_keptBefore]
  congr 1
  refine filterRest_congr fun _ q rest _ ↦ ?_
  have hmiddle : (filterRest (fun q rest ↦ keptBefore q (rest ++ after)) rest ++
      a :: filterRest keptBefore after).Perm (filterRest keptBefore (rest ++ after) ++ [a]) := by
    rw [filterRest_append, List.append_assoc]
    exact (List.perm_append_singleton a (filterRest keptBefore after)).symm.append_left _
  have hend : (rest ++ a :: after).Perm (rest ++ after ++ [a]) := by
    rw [List.append_assoc]
    exact (List.perm_append_singleton a after).symm.append_left _
  dsimp only
  rw [keptBefore_perm hmiddle, keptBefore_perm hend]
  exact keptBefore_filterRest_append [a]

end Trim

end Awen.Orchestration
