import Mathlib.Algebra.Order.Group.Int
import Mathlib.Algebra.Order.Group.Abs
import Awen.Orchestration.OpenRequests
import Awen.Orchestration.ThreadTables
import Awen.Shared.PlainRuntime

/-!
# Queued, working and snoozed threads

Whether a user message still waits for its turn is asked in three places. The decider looks through
the messages of a thread, the settlement policy of the server and the client read the summary in its
shell. Policy and client always answer alike. The decider takes the latest time, and none where one
of the times is malformed; the summary holds the greatest one as a text. `queuedAlike_iff` says when
this makes no difference: among times that the program's own clocks write, it never does.
-/

namespace Awen.Orchestration

variable (js : JsRuntime)

/-! ## Shells -/

inductive ThreadBackgroundLiveness
  | working
  | monitoring
  deriving DecidableEq, Repr

/-- **The shell of a thread**, as far as the rules here read it. -/
structure OrchestrationThreadShell where
  interactionMode : ProviderInteractionMode
  latestTurn : Option OrchestrationLatestTurn
  archivedAt : Option IsoDateTime := none
  settledOverride : Option SettledOverride := none
  snoozedUntil : Option IsoDateTime := none
  snoozedAt : Option IsoDateTime := none
  session : Option OrchestrationSession
  latestUserMessageAt : Option IsoDateTime
  hasPendingApprovals : Bool
  hasPendingUserInput : Bool
  hasActionableProposedPlan : Bool
  backgroundLiveness : Option ThreadBackgroundLiveness := none

/-- The event that has brought a message. -/
def sentPayload (message : OrchestrationMessage) : ThreadMessageSentPayload where
  messageId := message.id
  role := message.role
  text := message.text
  attachments := message.attachments
  turnId := message.turnId
  streaming := message.streaming
  createdAt := message.createdAt
  updatedAt := message.updatedAt

/-- The summary of the messages: the greatest time of a user message that was not imported, as a
text. -/
def summaryLatestUserMessageAt (messages : List OrchestrationMessage) : Option IsoDateTime :=
  messages.foldl (fun latest message ↦ latestUserMessageAfter latest (sentPayload message)) none

/-- What the other tables and the runtime say of a thread. -/
structure ShellReads where
  hasPendingApprovals : Bool
  hasPendingUserInput : Bool
  hasActionableProposedPlan : Bool
  backgroundLiveness : Option ThreadBackgroundLiveness := none

/-- The shell that stands for a thread. -/
def shellOf (thread : OrchestrationThread) (reads : ShellReads) : OrchestrationThreadShell where
  interactionMode := thread.interactionMode
  latestTurn := thread.latestTurn
  archivedAt := thread.archivedAt
  settledOverride := thread.settledOverride
  snoozedUntil := thread.snoozedUntil
  snoozedAt := thread.snoozedAt
  session := thread.session
  latestUserMessageAt := summaryLatestUserMessageAt thread.messages
  hasPendingApprovals := reads.hasPendingApprovals
  hasPendingUserInput := reads.hasPendingUserInput
  hasActionableProposedPlan := reads.hasActionableProposedPlan
  backgroundLiveness := reads.backgroundLiveness

/-! ## The policy of the server -/

/-- `Date.parse(left) <= Date.parse(right)`, false where one is `NaN`. -/
def dateLe (left right : IsoDateTime) : Bool :=
  match js.dateParse left, js.dateParse right with
  | some l, some r => decide (l ≤ r)
  | _, _ => false

/-- The settlement policy asks its rule of the shell. -/
def shellHasQueuedTurnStart (shell : OrchestrationThreadShell) (now : IsoDateTime) : Bool :=
  threadHasQueuedTurnStart js shell.latestUserMessageAt shell.latestTurn shell.session now

/-- **Cheap checks** that run before any source control lookup. -/
def isAutoSettlementCandidate (thread : OrchestrationThreadShell) (now : IsoDateTime) : Bool :=
  if thread.archivedAt.isSome || thread.settledOverride.isSome then false
  else if thread.hasPendingApprovals || thread.hasPendingUserInput then false
  else if thread.session.any (·.status.alive) then false
  else if thread.backgroundLiveness.isSome then false
  else if shellHasQueuedTurnStart js thread now then false
  else if thread.snoozedUntil.all (dateLe js · now) then true
  else
    let wokeOnError := thread.session.any fun session ↦ session.status = .error &&
      thread.snoozedAt.all (dateLt js · session.updatedAt)
    let wokeOnCompletion := thread.snoozedAt.any fun snoozedAt ↦
      thread.latestTurn.any fun turn ↦ turn.state = .completed &&
        turn.completedAt.any (dateLt js snoozedAt)
    wokeOnError || wokeOnCompletion

/-! ## The rules of the client -/

/-- A user message that no turn has picked up yet. -/
def hasQueuedTurnStart (shell : OrchestrationThreadShell) (now : IsoDateTime) : Bool :=
  match shell.latestUserMessageAt with
  | none => false
  | some latestUserMessageAt =>
    if shell.session.any (·.status = .error) then false
    else
      match js.dateParse latestUserMessageAt with
      | none => false
      | some messageAt =>
        match js.dateParse now with
        | none => false
        | some nowMs =>
          if queuedTurnStartGraceMs < |nowMs - messageAt| then false
          else
            match shell.latestTurn with
            | none => true
            | some turn => [some turn.requestedAt, turn.startedAt, turn.completedAt].all
                fun candidate ↦ candidate.all fun at' ↦ dateLt js at' latestUserMessageAt

/-- What outranks a snooze: a request, a fresh failure, or a run that has completed since. -/
def threadRaisedHandWhileSnoozed (shell : OrchestrationThreadShell) : Bool :=
  shell.hasPendingApprovals || shell.hasPendingUserInput ||
    (shell.session.any fun session ↦ session.status = .error &&
      shell.snoozedAt.all (dateLt js · session.updatedAt)) ||
    shell.snoozedAt.any fun snoozedAt ↦ shell.latestTurn.any fun turn ↦
      turn.state = .completed && turn.completedAt.any (dateLt js snoozedAt)

/-- Hidden until the wake time, unless the thread has raised its hand. Malformed data never hides a
thread. -/
def effectiveSnoozed (shell : OrchestrationThreadShell) (now : IsoDateTime) : Bool :=
  match shell.snoozedUntil with
  | none => false
  | some snoozedUntil =>
    if (js.dateParse snoozedUntil).isNone then false
    else if dateLe js snoozedUntil now then false
    else !threadRaisedHandWhileSnoozed js shell

inductive SessionStatus
  | approval
  | input
  | plan
  | working
  | monitoring
  | failed
  | ready
  deriving DecidableEq, Repr

def isLatestTurnSettled (latestTurn : Option OrchestrationLatestTurn)
    (session : Option OrchestrationSession) : Bool :=
  latestTurn.any fun turn ↦ turn.startedAt.any (· ≠ "") && turn.completedAt.any (· ≠ "") &&
    session.all (·.status ≠ .running)

/-- **The status that the sidebar shows.** -/
def resolveAgentSessionStatus (thread : OrchestrationThreadShell) : SessionStatus :=
  if thread.hasPendingApprovals then .approval
  else if thread.hasPendingUserInput then .input
  else if thread.session.any (·.status.alive) then .working
  else if thread.session.any (·.status = .error) then .failed
  else if thread.session.isNone && thread.latestTurn.any (·.state = .error) then .failed
  else if thread.interactionMode = .plan && thread.latestTurn.all (·.state ≠ .error) &&
      isLatestTurnSettled thread.latestTurn thread.session && thread.hasActionableProposedPlan then
    .plan
  else
    match thread.backgroundLiveness with
    | some .working => .working
    | some .monitoring => .monitoring
    | none => .ready

/-! ## Pending messages -/

/-- No time of the latest turn is as late as a message. -/
def unadopted (latestTurn : Option OrchestrationLatestTurn) (messageAt : IsoDateTime) : Bool :=
  latestTurn.all fun turn ↦ [some turn.requestedAt, turn.startedAt, turn.completedAt].all
    fun value ↦ value.all fun at' ↦ dateLt js at' messageAt

/-- A message is recent, and no turn has adopted it. -/
def pendingAt (latestTurn : Option OrchestrationLatestTurn) (messageAt now : IsoDateTime) : Bool :=
  match js.dateParse now, js.dateParse messageAt with
  | some now, some message =>
    decide (|now - message| ≤ queuedTurnStartGraceMs) && unadopted js latestTurn messageAt
  | _, _ => false

variable {js}

/-- **The rule**, where the session has not failed. -/
theorem threadHasQueuedTurnStart_eq {latest : Option IsoDateTime}
    {latestTurn : Option OrchestrationLatestTurn} {session : Option OrchestrationSession}
    (hsession : session.any (·.status = .error) = false) (now : IsoDateTime) :
    threadHasQueuedTurnStart js latest latestTurn session now =
      latest.any (pendingAt js latestTurn · now) := by
  cases latest with
  | none => rfl
  | some messageAt =>
    simp only [threadHasQueuedTurnStart, pendingAt, hsession, Option.any_some, Bool.false_eq_true,
      if_false]
    cases js.dateParse now with
    | none => rfl
    | some n =>
      cases js.dateParse messageAt with
      | none => rfl
      | some m =>
        by_cases hgrace : queuedTurnStartGraceMs < |n - m|
        · simp [hgrace, not_le.mpr hgrace]
        · cases latestTurn <;> simp [hgrace, not_lt.mp hgrace, unadopted]

/-- A failed session has no queued turn start. -/
theorem threadHasQueuedTurnStart_of_failed {latest : Option IsoDateTime}
    {latestTurn : Option OrchestrationLatestTurn} {session : Option OrchestrationSession}
    (hsession : session.any (·.status = .error) = true) (now : IsoDateTime) :
    threadHasQueuedTurnStart js latest latestTurn session now = false := by
  cases latest <;> simp [threadHasQueuedTurnStart, hsession]

/-- **The policy of the server and the client answer alike** on every shell. -/
theorem hasQueuedTurnStart_eq (shell : OrchestrationThreadShell) (now : IsoDateTime) :
    hasQueuedTurnStart js shell now = shellHasQueuedTurnStart js shell now := by
  unfold hasQueuedTurnStart shellHasQueuedTurnStart threadHasQueuedTurnStart
  cases shell.latestUserMessageAt with
  | none => rfl
  | some messageAt =>
    simp only
    cases js.dateParse messageAt <;> cases js.dateParse now <;> rfl

/-- Only the instant of a message matters. -/
theorem pendingAt_congr {a b : IsoDateTime} (h : js.dateParse a = js.dateParse b)
    (latestTurn : Option OrchestrationLatestTurn) (now : IsoDateTime) :
    pendingAt js latestTurn a now = pendingAt js latestTurn b now := by
  simp only [pendingAt, unadopted, dateLt, h]

theorem not_pendingAt_of_adopted {latestTurn : Option OrchestrationLatestTurn}
    {messageAt : IsoDateTime} (h : unadopted js latestTurn messageAt = false)
    (now : IsoDateTime) : pendingAt js latestTurn messageAt now = false := by
  unfold pendingAt
  split <;> simp [h]

/-- A message that no turn has adopted is pending at its own time. -/
theorem pendingAt_self {latestTurn : Option OrchestrationLatestTurn} {messageAt : IsoDateTime}
    (hvalid : (js.dateParse messageAt).isSome = true)
    (h : unadopted js latestTurn messageAt = true) :
    pendingAt js latestTurn messageAt messageAt = true := by
  obtain ⟨m, hm⟩ := Option.isSome_iff_exists.mp hvalid
  simp [pendingAt, hm, h, queuedTurnStartGraceMs]

/-! ## The two latest times -/

/-- The times of the user messages that were not imported. -/
def userMessageTimes (messages : List OrchestrationMessage) : List IsoDateTime :=
  (messages.filter fun m ↦ m.role = .user ∧ !isImportedAgentSessionMessageId m.id).map (·.createdAt)

private theorem summary_foldl (messages : List OrchestrationMessage) (latest : Option IsoDateTime) :
    messages.foldl (fun latest message ↦ latestUserMessageAfter latest (sentPayload message))
        latest =
      (userMessageTimes messages).foldl (fun latest time ↦
        if latest.all (stringLt · time) then some time else latest) latest := by
  induction messages generalizing latest with
  | nil => rfl
  | cons message messages ih =>
    rw [List.foldl_cons, ih]
    simp only [userMessageTimes, List.filter_cons]
    by_cases h : message.role = .user ∧ !isImportedAgentSessionMessageId message.id
    · rw [if_pos (by simpa using h), List.map_cons, List.foldl_cons]
      congr 1
      simp [latestUserMessageAfter, sentPayload, h.1, by simpa using h.2]
    · rw [if_neg (by simpa using h)]
      congr 1
      rw [latestUserMessageAfter, if_neg]
      exact fun hall ↦ h ⟨hall.1, by simpa [sentPayload] using hall.2.1⟩

/-- The summary is the time of a message, where there is one. -/
theorem summary_cases (messages : List OrchestrationMessage) :
    (summaryLatestUserMessageAt messages = none ∧ userMessageTimes messages = []) ∨
      ∃ latest ∈ userMessageTimes messages, summaryLatestUserMessageAt messages = some latest := by
  have hfold : ∀ (times : List IsoDateTime) (latest : Option IsoDateTime),
      (times.foldl (fun latest time ↦ if latest.all (stringLt · time) then some time else latest)
          latest = latest ∧ (latest = none → times = [])) ∨
        ∃ time ∈ times, times.foldl (fun latest time ↦
          if latest.all (stringLt · time) then some time else latest) latest = some time := by
    intro times
    induction times with
    | nil => exact fun latest ↦ .inl ⟨rfl, fun _ ↦ rfl⟩
    | cons time times ih =>
      intro latest
      rw [List.foldl_cons]
      split
      next =>
        rcases ih (some time) with ⟨hsame, -⟩ | ⟨other, hother, hlatest⟩
        · exact .inr ⟨time, List.mem_cons_self, hsame⟩
        · exact .inr ⟨other, List.mem_cons_of_mem _ hother, hlatest⟩
      next hkeep =>
        rcases ih latest with ⟨hsame, -⟩ | ⟨other, hother, hlatest⟩
        · exact .inl ⟨hsame, fun hnone ↦ absurd (by simp [hnone]) hkeep⟩
        · exact .inr ⟨other, List.mem_cons_of_mem _ hother, hlatest⟩
  rw [summaryLatestUserMessageAt, summary_foldl]
  rcases hfold (userMessageTimes messages) none with ⟨hnone, hnil⟩ | ⟨latest, hmem, hlatest⟩
  · exact .inl ⟨hnone, hnil rfl⟩
  · exact .inr ⟨latest, hmem, hlatest⟩

/-- The decider takes no time where one is malformed. -/
theorem latestUserMessageAt_of_invalid {messages : List OrchestrationMessage} {time : IsoDateTime}
    (hmem : time ∈ userMessageTimes messages) (hinvalid : js.dateParse time = none) :
    latestUserMessageAt js messages = none := by
  have hany : (userMessageTimes messages).any (fun time ↦ (js.dateParse time).isNone) = true :=
    List.any_eq_true.mpr ⟨time, hmem, by simp [hinvalid]⟩
  unfold latestUserMessageAt
  exact if_pos hany

theorem dateLe_trans {a b c : IsoDateTime} (hab : dateLe js a b = true)
    (hbc : dateLe js b c = true) : dateLe js a c = true := by
  unfold dateLe at *
  cases ha : js.dateParse a <;> cases hb : js.dateParse b <;> cases hc : js.dateParse c <;>
    simp_all
  omega

/-- The later of two times, as the scan of the messages keeps it. -/
private theorem exists_later {latest time : IsoDateTime}
    (hlatest : (js.dateParse latest).isSome = true) (htime : (js.dateParse time).isSome = true) :
    ∃ next ∈ [latest, time],
      (if dateLt js time latest then some latest else some time) = some next ∧
        dateLe js latest next = true ∧ dateLe js time next = true := by
  obtain ⟨l, hl⟩ := Option.isSome_iff_exists.mp hlatest
  obtain ⟨t, ht⟩ := Option.isSome_iff_exists.mp htime
  by_cases hlt : t < l
  · exact ⟨latest, by simp, by simp [dateLt, hl, ht, hlt], by simp [dateLe, hl],
      by simp [dateLe, hl, ht, hlt.le]⟩
  · exact ⟨time, by simp, by simp [dateLt, hl, ht, hlt], by simp [dateLe, hl, ht, not_lt.mp hlt],
      by simp [dateLe, ht]⟩

/-- Otherwise it takes the latest one. -/
theorem latestUserMessageAt_of_valid {messages : List OrchestrationMessage}
    (hvalid : ∀ time ∈ userMessageTimes messages, (js.dateParse time).isSome = true)
    (hne : userMessageTimes messages ≠ []) :
    ∃ latest ∈ userMessageTimes messages, latestUserMessageAt js messages = some latest ∧
      ∀ time ∈ userMessageTimes messages, dateLe js time latest = true := by
  have hany : ¬(userMessageTimes messages).any (fun time ↦ (js.dateParse time).isNone) = true := by
    rw [List.any_eq_true]
    rintro ⟨time, hmem, hnone⟩
    exact absurd (hvalid time hmem) (by simp [Option.isNone_iff_eq_none.mp hnone])
  have hfold : ∀ (times : List IsoDateTime) (latest : IsoDateTime),
      (∀ time ∈ latest :: times, (js.dateParse time).isSome = true) →
        ∃ last ∈ latest :: times, times.foldl (fun latest time ↦
            match latest with
            | none => some time
            | some l => if dateLt js time l then some l else some time) (some latest) = some last ∧
          ∀ time ∈ latest :: times, dateLe js time last = true := by
    intro times
    induction times with
    | nil =>
      intro latest hall
      obtain ⟨ms, hms⟩ := Option.isSome_iff_exists.mp (hall latest List.mem_cons_self)
      exact ⟨latest, List.mem_cons_self, rfl, fun time htime ↦ by
        rw [List.mem_singleton.mp htime]
        simp [dateLe, hms]⟩
    | cons time times ih =>
      intro latest hall
      -- the later of the first two times goes on
      obtain ⟨next, hmem, hstep, hlatest, htime⟩ := exists_later (hall latest List.mem_cons_self)
        (hall time (List.mem_cons_of_mem _ List.mem_cons_self))
      have hnext : ∀ t ∈ next :: times, t ∈ latest :: time :: times := by
        intro t ht
        rcases List.mem_cons.mp ht with rfl | ht
        · exact (List.sublist_append_left [latest, time] times).subset hmem
        · exact List.mem_cons_of_mem _ (List.mem_cons_of_mem _ ht)
      obtain ⟨last, hlast, hfoldl, hle⟩ := ih next fun t ht ↦ hall t (hnext t ht)
      refine ⟨last, hnext last hlast, ?_, fun t ht ↦ ?_⟩
      · rw [List.foldl_cons]
        change times.foldl _ (if dateLt js time latest then some latest else some time) = some last
        rw [hstep, hfoldl]
      · have hnextle := hle next List.mem_cons_self
        rcases List.mem_cons.mp ht with rfl | ht
        · exact dateLe_trans hlatest hnextle
        · rcases List.mem_cons.mp ht with rfl | ht
          · exact dateLe_trans htime hnextle
          · exact hle t (List.mem_cons_of_mem _ ht)
  obtain ⟨time, times, htimes⟩ := List.exists_cons_of_ne_nil hne
  obtain ⟨last, hlast, hfoldl, hle⟩ := hfold times time (htimes ▸ hvalid)
  refine ⟨last, htimes ▸ hlast, ?_, htimes ▸ hle⟩
  have hlatest : latestUserMessageAt js messages = (userMessageTimes messages).foldl
      (fun latest time ↦
        match latest with
        | none => some time
        | some l => if dateLt js time l then some l else some time) none := by
    unfold latestUserMessageAt
    exact if_neg hany
  rw [hlatest, htimes]
  exact hfoldl

/-! ## When the three answers are one -/

/-- The instants that there are, and no others, are read from texts. -/
structure ReadsInstants (js : JsRuntime) : Prop where
  bounded : ∀ text ms, js.dateParse text = some ms → |ms| ≤ 8640000000000000
  reads : ∀ ms : ℤ, |ms| ≤ 8640000000000000 → ∃ text, js.dateParse text = some ms

/-- Where the greatest of some times as a text is a time at all, all of them are, and none is
later. -/
def LatestByText (js : JsRuntime) (messages : List OrchestrationMessage) : Prop :=
  ∀ latest ∈ summaryLatestUserMessageAt messages, (js.dateParse latest).isSome = true →
    ∀ time ∈ userMessageTimes messages, dateLe js time latest = true

/-- The latest turn has adopted the message of the greatest text, and, where all times are valid,
all messages. -/
def AllAdopted (js : JsRuntime) (thread : OrchestrationThread) : Prop :=
  (∀ latest ∈ summaryLatestUserMessageAt thread.messages, (js.dateParse latest).isSome = true →
    unadopted js thread.latestTurn latest = false) ∧
  ((∀ time ∈ userMessageTimes thread.messages, (js.dateParse time).isSome = true) →
    ∀ time ∈ userMessageTimes thread.messages, unadopted js thread.latestTurn time = false)

/-- **When decider, policy and client are bound to agree**: the session has failed, or the times are
in the order of their texts, or no message waits. -/
def QueuedTold (js : JsRuntime) (thread : OrchestrationThread) : Prop :=
  thread.session.any (·.status = .error) = true ∨ LatestByText js thread.messages ∨
    AllAdopted js thread

theorem pendingAt_of_parse {latestTurn : Option OrchestrationLatestTurn}
    {messageAt now : IsoDateTime} {n m : ℤ} (hn : js.dateParse now = some n)
    (hm : js.dateParse messageAt = some m) : pendingAt js latestTurn messageAt now =
      (decide (|n - m| ≤ queuedTurnStartGraceMs) && unadopted js latestTurn messageAt) := by
  simp [pendingAt, hn, hm]

theorem not_pendingAt_of_invalid {latestTurn : Option OrchestrationLatestTurn}
    {messageAt : IsoDateTime} (h : js.dateParse messageAt = none) (now : IsoDateTime) :
    pendingAt js latestTurn messageAt now = false := by
  unfold pendingAt
  rw [h]
  split <;> simp_all

theorem exists_of_dateLe {a b : IsoDateTime} (h : dateLe js a b = true) :
    ∃ l r, js.dateParse a = some l ∧ js.dateParse b = some r ∧ l ≤ r := by
  unfold dateLe at h
  split at h
  next l r ha hb => exact ⟨l, r, ha, hb, of_decide_eq_true h⟩
  next => cases h

/-- A message after one that waits, waits. -/
theorem unadopted_of_dateLe {latestTurn : Option OrchestrationLatestTurn} {a b : IsoDateTime}
    (hab : dateLe js a b = true) (h : unadopted js latestTurn a = true) :
    unadopted js latestTurn b = true := by
  have hlt : ∀ t, dateLt js t a = true → dateLt js t b = true := by
    obtain ⟨l, r, ha, hb, hle⟩ := exists_of_dateLe hab
    intro t ht
    unfold dateLt at ht ⊢
    rw [ha] at ht
    rw [hb]
    cases hp : js.dateParse t with
    | none => simp [hp] at ht
    | some ms =>
      simp only [hp, decide_eq_true_eq] at ht ⊢
      omega
  cases latestTurn with
  | none => rfl
  | some turn =>
    simp only [unadopted, Option.all_some, List.all_eq_true] at h ⊢
    intro value hvalue
    have hv := h value hvalue
    cases value with
    | none => rfl
    | some at' => exact hlt at' hv

variable (js) in
/-- What the decider takes is the latest of the valid times. -/
theorem latestUserMessageAt_cases (messages : List OrchestrationMessage) :
    (latestUserMessageAt js messages = none ∧ (userMessageTimes messages = [] ∨
      ∃ time ∈ userMessageTimes messages, js.dateParse time = none)) ∨
    ((∀ time ∈ userMessageTimes messages, (js.dateParse time).isSome = true) ∧
      ∃ latest ∈ userMessageTimes messages, latestUserMessageAt js messages = some latest ∧
        ∀ time ∈ userMessageTimes messages, dateLe js time latest = true) := by
  by_cases hvalid : ∀ time ∈ userMessageTimes messages, (js.dateParse time).isSome = true
  · by_cases hnil : userMessageTimes messages = []
    · refine .inl ⟨?_, .inl hnil⟩
      unfold latestUserMessageAt
      rw [userMessageTimes] at hnil
      rw [hnil]
      rfl
    · exact .inr ⟨hvalid, latestUserMessageAt_of_valid hvalid hnil⟩
  · push Not at hvalid
    obtain ⟨time, hmem, hinvalid⟩ := hvalid
    have hnone : js.dateParse time = none := by simpa using hinvalid
    exact .inl ⟨latestUserMessageAt_of_invalid hmem hnone, .inr ⟨time, hmem, hnone⟩⟩

/-- **Under the condition the decider and the policy answer alike.** -/
theorem QueuedTold.queued_eq {thread : OrchestrationThread} (h : QueuedTold js thread)
    (reads : ShellReads) (now : IsoDateTime) :
    hasQueuedTurnStartForThread js thread now =
      shellHasQueuedTurnStart js (shellOf thread reads) now := by
  unfold hasQueuedTurnStartForThread shellHasQueuedTurnStart shellOf
  by_cases hfailed : thread.session.any (·.status = .error) = true
  · rw [threadHasQueuedTurnStart_of_failed hfailed, threadHasQueuedTurnStart_of_failed hfailed]
  rw [Bool.not_eq_true] at hfailed
  rw [threadHasQueuedTurnStart_eq hfailed, threadHasQueuedTurnStart_eq hfailed]
  rcases h with h | h | h
  · exact absurd (hfailed.symm.trans h) Bool.false_ne_true
  · rcases summary_cases thread.messages with ⟨hnone, hnil⟩ | ⟨latest, hmem, hlatest⟩
    · rcases latestUserMessageAt_cases js thread.messages with
        ⟨hnone', -⟩ | ⟨-, time, htime, -⟩
      · rw [hnone, hnone']
      · simp [hnil] at htime
    · rw [hlatest, Option.any_some]
      by_cases hvalid : (js.dateParse latest).isSome = true
      · have hall := h latest hlatest hvalid
        rcases latestUserMessageAt_cases js thread.messages with
          ⟨-, hnil | ⟨time, htime, hinvalid⟩⟩ | ⟨-, last, hlast, hsome, hle⟩
        · simp [hnil] at hmem
        · obtain ⟨_, _, hparse, -, -⟩ := exists_of_dateLe (hall time htime)
          cases hinvalid.symm.trans hparse
        · rw [hsome, Option.any_some]
          obtain ⟨l, r, hl, hr, hlr⟩ := exists_of_dateLe (hall last hlast)
          obtain ⟨r', l', hr', hl', hrl⟩ := exists_of_dateLe (hle latest hmem)
          cases hr.symm.trans hr'
          cases hl.symm.trans hl'
          exact pendingAt_congr (by rw [hl, hr, le_antisymm hlr hrl]) _ _
      · have hinvalid : js.dateParse latest = none := by simpa using hvalid
        rw [latestUserMessageAt_of_invalid hmem hinvalid, not_pendingAt_of_invalid hinvalid]
        rfl
  · obtain ⟨hsummary, hmessages⟩ := h
    have hsummary' : (summaryLatestUserMessageAt thread.messages).any
        (pendingAt js thread.latestTurn · now) = false := by
      cases hlatest : summaryLatestUserMessageAt thread.messages with
      | none => rfl
      | some latest =>
        rw [Option.any_some]
        cases hparse : js.dateParse latest with
        | none => exact not_pendingAt_of_invalid hparse now
        | some ms =>
          exact not_pendingAt_of_adopted (hsummary latest hlatest (by rw [hparse]; rfl)) now
    have hmessages' : (latestUserMessageAt js thread.messages).any
        (pendingAt js thread.latestTurn · now) = false := by
      rcases latestUserMessageAt_cases js thread.messages with
        ⟨hnone, -⟩ | ⟨hvalid, last, hlast, hsome, -⟩
      · rw [hnone]
        rfl
      · rw [hsome, Option.any_some]
        exact not_pendingAt_of_adopted (hmessages hvalid last hlast) now
    rw [hsummary', hmessages']

/-- Two instants of which both wait are told apart at some time. -/
theorem exists_pendingAt_ne (hclock : ReadsInstants js)
    {latestTurn : Option OrchestrationLatestTurn} {a b : IsoDateTime} {l r : ℤ}
    (ha : js.dateParse a = some l) (hb : js.dateParse b = some r) (hlt : l < r)
    (hwaits : unadopted js latestTurn b = true) :
    ∃ now, pendingAt js latestTurn b now ≠ pendingAt js latestTurn a now := by
  have hl := abs_le.mp (hclock.bounded a l ha)
  have hr := abs_le.mp (hclock.bounded b r hb)
  have hself : pendingAt js latestTurn b b = true := pendingAt_self (by rw [hb]; rfl) hwaits
  by_cases hnear : pendingAt js latestTurn a b = true
  · -- both wait at the later time, so that they are within the grace of one another
    have hgrace : (2 * 60 * 1000 : ℤ) = queuedTurnStartGraceMs := rfl
    rw [pendingAt_of_parse hb ha, Bool.and_eq_true, decide_eq_true_eq, ← hgrace, abs_le] at hnear
    by_cases hend : r + 2 * 60 * 1000 ≤ 8640000000000000
    · obtain ⟨now, hnow⟩ := hclock.reads (r + 2 * 60 * 1000) (abs_le.mpr ⟨by omega, hend⟩)
      refine ⟨now, ?_⟩
      rw [pendingAt_of_parse hnow hb, pendingAt_of_parse hnow ha, hwaits, ← hgrace]
      have h1 : |r + 2 * 60 * 1000 - r| ≤ (2 * 60 * 1000 : ℤ) := abs_le.mpr ⟨by omega, by omega⟩
      have h2 : ¬|r + 2 * 60 * 1000 - l| ≤ (2 * 60 * 1000 : ℤ) := by
        rw [abs_le]
        omega
      simp only [h1, h2, decide_true, decide_false, Bool.true_and, Bool.false_and]
      exact Bool.true_eq_false_eq_False
    · obtain ⟨now, hnow⟩ := hclock.reads (l - 2 * 60 * 1000)
        (abs_le.mpr ⟨by omega, by omega⟩)
      refine ⟨now, ?_⟩
      rw [pendingAt_of_parse hnow hb, pendingAt_of_parse hnow ha, hnear.2, ← hgrace]
      have h1 : |l - 2 * 60 * 1000 - l| ≤ (2 * 60 * 1000 : ℤ) := abs_le.mpr ⟨by omega, by omega⟩
      have h2 : ¬|l - 2 * 60 * 1000 - r| ≤ (2 * 60 * 1000 : ℤ) := by
        rw [abs_le]
        omega
      simp only [h1, h2, decide_true, decide_false, Bool.true_and, Bool.false_and]
      exact Bool.false_ne_true
  · exact ⟨b, fun heq ↦ hnear (heq ▸ hself)⟩

/-- **Where the decider and the policy always answer alike, the condition holds.** -/
theorem queuedTold_of_queued_eq (hclock : ReadsInstants js) {thread : OrchestrationThread}
    (reads : ShellReads) (h : ∀ now, hasQueuedTurnStartForThread js thread now =
      shellHasQueuedTurnStart js (shellOf thread reads) now) : QueuedTold js thread := by
  by_cases hfailed : thread.session.any (·.status = .error) = true
  · exact .inl hfailed
  rw [Bool.not_eq_true] at hfailed
  refine .inr (or_iff_not_imp_left.mpr fun htext ↦ by_contra fun hadopted ↦ ?_)
  have heq : ∀ now, (latestUserMessageAt js thread.messages).any
      (pendingAt js thread.latestTurn · now) =
        (summaryLatestUserMessageAt thread.messages).any
        (pendingAt js thread.latestTurn · now) := by
    intro now
    rw [← threadHasQueuedTurnStart_eq hfailed, ← threadHasQueuedTurnStart_eq hfailed]
    exact h now
  unfold LatestByText at htext
  push Not at htext
  obtain ⟨latest, hlatest, hvalid, time, htime, hlater⟩ := htext
  simp only [Option.mem_def.mp hlatest, Option.any_some] at heq
  rcases latestUserMessageAt_cases js thread.messages with
    ⟨hnone, hnil | ⟨bad, hbad, hinvalid⟩⟩ | ⟨hall, last, hlast, hsome, hle⟩
  · simp [hnil] at htime
  · -- a malformed time hides the message of the greatest text from the decider
    have hwaits : unadopted js thread.latestTurn latest = true := by
      by_contra hno
      refine hadopted ⟨fun other hother _ ↦ ?_, fun hall ↦ ?_⟩
      · cases (Option.mem_def.mp hlatest).symm.trans (Option.mem_def.mp hother)
        simpa using hno
      · have := hall bad hbad
        simp [hinvalid] at this
    have hself := pendingAt_self hvalid hwaits
    rw [← heq latest, hnone] at hself
    cases hself
  · simp only [hsome, Option.any_some] at heq
    obtain ⟨t, r, ht, hr, htr⟩ := exists_of_dateLe (hle time htime)
    obtain ⟨l, hl⟩ := Option.isSome_iff_exists.mp hvalid
    have hlt : l < r := by
      simp only [dateLe, ht, hl, ne_eq, decide_eq_true_eq] at hlater
      omega
    have hwaits : unadopted js thread.latestTurn last = true := by
      by_contra hno
      have hnone : ∀ time ∈ userMessageTimes thread.messages,
          unadopted js thread.latestTurn time = false := by
        intro time htime
        by_contra hyes
        exact hno (unadopted_of_dateLe (hle time htime) (by simpa using hyes))
      refine hadopted ⟨fun other hother _ ↦ hnone other ?_, fun _ ↦ hnone⟩
      rcases summary_cases thread.messages with ⟨hempty, -⟩ | ⟨s, hs, hsum⟩
      · cases hempty.symm.trans (Option.mem_def.mp hother)
      · cases hsum.symm.trans (Option.mem_def.mp hother)
        exact hs
    obtain ⟨now, hne⟩ := exists_pendingAt_ne hclock hl hr hlt hwaits
    exact hne (heq now)

/-! ## Candidates for settlement -/

/-- **What the server may settle, the client does not show at work**, nor waiting, nor hidden. -/
theorem of_isAutoSettlementCandidate {shell : OrchestrationThreadShell} {now : IsoDateTime}
    (h : isAutoSettlementCandidate js shell now = true) :
    hasQueuedTurnStart js shell now = false ∧ resolveAgentSessionStatus shell ≠ .working ∧
      resolveAgentSessionStatus shell ≠ .monitoring ∧ effectiveSnoozed js shell now = false := by
  have hstatus : shell.session.any (·.status.alive) = false →
      shell.backgroundLiveness = none → resolveAgentSessionStatus shell ≠ .working ∧
        resolveAgentSessionStatus shell ≠ .monitoring := by
    intro halive hlive
    unfold resolveAgentSessionStatus
    rw [halive, hlive]
    split_ifs with _ _ hfalse
    · simp
    · simp
    · cases hfalse
    all_goals simp
  have hsnoozed : shell.snoozedUntil.all (dateLe js · now) = true ∨
      threadRaisedHandWhileSnoozed js shell = true → effectiveSnoozed js shell now = false := by
    unfold effectiveSnoozed
    cases shell.snoozedUntil with
    | none => exact fun _ ↦ rfl
    | some snoozedUntil =>
      rintro (hpast | hraised)
      · rw [Option.all_some] at hpast
        simp [hpast]
      · simp [hraised]
  unfold isAutoSettlementCandidate at h
  rw [hasQueuedTurnStart_eq]
  split_ifs at h with harchived hpending halive hlive hqueued hawake
  · have hatRest := hstatus (by simpa using halive) (by simpa using hlive)
    exact ⟨by simpa using hqueued, hatRest.1, hatRest.2, hsnoozed (.inl hawake)⟩
  · have hatRest := hstatus (by simpa using halive) (by simpa using hlive)
    refine ⟨by simpa using hqueued, hatRest.1, hatRest.2, hsnoozed (.inr ?_)⟩
    -- what wakes a thread for the server raises its hand for the client
    rw [threadRaisedHandWhileSnoozed, Bool.or_assoc, h, Bool.or_true]

/-! ## The three rules -/

/-- **Decider, policy and client agree** on a thread: on its queued turn start at every time, and on
what may be settled. -/
structure QueuedAlike (js : JsRuntime) (thread : OrchestrationThread) (reads : ShellReads) :
    Prop where
  policy : ∀ now, hasQueuedTurnStartForThread js thread now =
    shellHasQueuedTurnStart js (shellOf thread reads) now
  client : ∀ now, hasQueuedTurnStart js (shellOf thread reads) now =
    shellHasQueuedTurnStart js (shellOf thread reads) now
  candidate : ∀ now, isAutoSettlementCandidate js (shellOf thread reads) now = true →
    hasQueuedTurnStart js (shellOf thread reads) now = false ∧
      resolveAgentSessionStatus (shellOf thread reads) ≠ .working ∧
      resolveAgentSessionStatus (shellOf thread reads) ≠ .monitoring ∧
      effectiveSnoozed js (shellOf thread reads) now = false

/-- **They agree exactly under the condition on the times.** -/
theorem queuedAlike_iff (hclock : ReadsInstants js) (thread : OrchestrationThread)
    (reads : ShellReads) : QueuedAlike js thread reads ↔ QueuedTold js thread :=
  ⟨fun h ↦ queuedTold_of_queued_eq hclock reads h.policy,
    fun h ↦ ⟨h.queued_eq reads, hasQueuedTurnStart_eq _, fun _ ↦ of_isAutoSettlementCandidate⟩⟩

/-- A runtime that reads plain times, and every instant from a text of its own. -/
def clockRuntime : JsRuntime :=
  { plainRuntime with
    dateParse := fun text ↦
      (if text.toList.head? = some '+' then some (text.toList.length - 8640000000000001 : ℤ)
        else isoMillis? text).filter fun ms ↦ |ms| ≤ 8640000000000000 }

theorem readsInstants_clockRuntime : ReadsInstants clockRuntime where
  bounded text ms h := of_decide_eq_true (Option.filter_eq_some_iff.mp h).2
  reads ms h := by
    obtain ⟨hlow, hhigh⟩ := abs_le.mp h
    refine ⟨String.ofList ('+' :: List.replicate (ms + 8640000000000000).toNat '0'), ?_⟩
    simp [clockRuntime, String.toList_ofList, Option.filter_eq_some_iff, h]
    omega

private def userMessage (id createdAt : String) : OrchestrationMessage where
  id
  role := .user
  text := "go"
  turnId := none
  streaming := false
  createdAt
  updatedAt := createdAt

private def threadOf (messages : List OrchestrationMessage) : OrchestrationThread where
  id := "t"
  projectId := "p"
  title := "Thread"
  modelSelection := .null
  runtimeMode := .fullAccess
  interactionMode := .default
  branch := none
  worktreePath := none
  createdAt := "2026-01-01T00:00:00.000Z"
  updatedAt := "2026-01-01T00:00:00.000Z"
  messages := messages

private def quietReads : ShellReads where
  hasPendingApprovals := false
  hasPendingUserInput := false
  hasActionableProposedPlan := false

/-- Two messages in order. -/
theorem queuedAlike_messages : QueuedAlike clockRuntime (threadOf
    [userMessage "m1" "2026-01-01T00:00:01.000Z", userMessage "m2" "2026-01-01T00:00:02.000Z"])
    quietReads := by
  refine (queuedAlike_iff readsInstants_clockRuntime _ _).mpr (.inr (.inl ?_))
  have hlatest : summaryLatestUserMessageAt (threadOf [userMessage "m1" "2026-01-01T00:00:01.000Z",
      userMessage "m2" "2026-01-01T00:00:02.000Z"]).messages =
        some "2026-01-01T00:00:02.000Z" := by decide +kernel
  intro latest hmem _
  cases hlatest.symm.trans hmem
  decide +kernel

/-- A message without a valid time hides the others from the decider, and not from the summary. -/
theorem not_queuedAlike : ¬ ∀ (thread : OrchestrationThread) (reads : ShellReads),
    QueuedAlike plainRuntime thread reads := by
  intro h
  have hpolicy := (h (threadOf [userMessage "m1" "", userMessage "m2" "2026-01-01T00:00:02.000Z"])
    quietReads).policy "2026-01-01T00:00:02.000Z"
  revert hpolicy
  decide +kernel

end Awen.Orchestration
