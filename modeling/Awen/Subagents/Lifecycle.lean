import Awen.Subagents.RowEffects

/-!
# The lifecycle of an agent

What the rows of a task keep of its agent. Some of it holds of every row: what a terminal status is
left by, and how the activations are counted. That an agent has a completion time exactly in a
terminal status, and that the detail of a run that is over stays, holds of the rows that are
`Orderly`.
-/

namespace Awen.Subagents

open Orchestration (OrchestrationThreadActivity IsoDateTime)

namespace RuntimeSubagent

variable {agent : RuntimeSubagent} {kind : SubagentRowKind} (payload : Json) (time : IsoDateTime)
  (existed : Bool)

/-! ## The status of a row -/

/-- A row is not the first of its agent, where that makes a difference. -/
abbrev Seen (agent : RuntimeSubagent) (kind : SubagentRowKind) : Prop :=
  kind = .taskStarted ∨ kind = .toolProgress → 1 ≤ agent.activationCount

/-- **An agent that is done is given a status only by a row that names one.** -/
theorem rowStatus_of_isTerminal (h : agent.isTerminal = true) :
    agent.rowStatus kind payload existed = explicitStatus kind payload := by
  cases kind with
  | taskStarted =>
    refine if_neg fun hidle ↦ ?_
    rw [isTerminal, hidle] at h
    cases h
  | taskProgress =>
    rw [rowStatus, explicitStatus]
    cases asRuntimeStatus (payload.field "status") with
    | some status => rfl
    | none =>
      refine if_neg fun hrunning ↦ ?_
      cases hrunning.2.1.symm.trans h
  | taskUpdated => rfl
  | taskCompleted => exact if_pos h
  | toolProgress => rfl

theorem settledBy_of_none (h : agent.rowStatus kind payload existed = none) :
    agent.settledBy kind payload time existed = (agent.described kind payload).counted := by
  rw [settledBy, h, transition]

theorem settledBy_of_some {status : RuntimeSubagentStatus}
    (h : agent.rowStatus kind payload existed = some status) :
    agent.settledBy kind payload time existed =
      (agent.described kind payload).counted.applyStatus time status := by
  rw [settledBy, h, transition]

theorem isTerminal_described : (agent.described kind payload).counted.isTerminal =
    agent.isTerminal :=
  congrArg isTerminalSubagentStatus (agent.status_described kind payload)

theorem reactivates_described (status : RuntimeSubagentStatus) :
    (agent.described kind payload).counted.Reactivates status ↔ agent.Reactivates status := by
  rw [Reactivates, isTerminal_described]
  have hstatus : (agent.described kind payload).counted.status = agent.status :=
    agent.status_described kind payload
  rw [hstatus, Reactivates]

theorem status_applyRow_of_none (hseen : agent.Seen kind)
    (h : agent.rowStatus kind payload existed = none) :
    (agent.applyRow kind payload time existed).status = agent.status := by
  rw [(rowEffect payload time existed hseen).status, settledBy_of_none payload time existed h]
  exact agent.status_described kind payload

theorem status_applyRow_of_some (hseen : agent.Seen kind) {status : RuntimeSubagentStatus}
    (h : agent.rowStatus kind payload existed = some status) :
    (agent.applyRow kind payload time existed).status =
      if agent.isTerminal && isTerminalSubagentStatus status then agent.status else status := by
  rw [(rowEffect payload time existed hseen).status, settledBy_of_some payload time existed h,
    status_applyStatus, isTerminal_described]
  rw [show (agent.described kind payload).counted.status = agent.status from
    agent.status_described kind payload]

/-! ## What holds of every row -/

/-- **A terminal status is left only by a row that names another one.** -/
theorem exists_explicitStatus_of_left (hseen : agent.Seen kind) (hbefore : agent.isTerminal = true)
    (hafter : (agent.applyRow kind payload time existed).isTerminal = false) :
    ∃ status, explicitStatus kind payload = some status ∧
      isTerminalSubagentStatus status = false := by
  have hstatus : agent.rowStatus kind payload existed = explicitStatus kind payload :=
    rowStatus_of_isTerminal payload existed hbefore
  cases hexplicit : explicitStatus kind payload with
  | none =>
    rw [isTerminal, status_applyRow_of_none payload time existed hseen
      (hstatus.trans hexplicit)] at hafter
    cases hbefore.symm.trans hafter
  | some status =>
    refine ⟨status, rfl, ?_⟩
    rw [isTerminal, status_applyRow_of_some payload time existed hseen (hstatus.trans hexplicit),
      hbefore, Bool.true_and] at hafter
    by_contra hterminal
    rw [Bool.not_eq_false] at hterminal
    rw [if_pos hterminal] at hafter
    cases hbefore.symm.trans hafter

/-- The agent leaves a terminal or idle status for a run. -/
def Departs (agent : RuntimeSubagent) (status : RuntimeSubagentStatus) : Prop :=
  (agent.isTerminal = true ∨ agent.status = .idle) ∧ (status = .pending ∨ status = .running)

instance (agent : RuntimeSubagent) (status : RuntimeSubagentStatus) :
    Decidable (agent.Departs status) := inferInstanceAs (Decidable (_ ∧ _))

theorem not_departs_self (agent : RuntimeSubagent) : ¬agent.Departs agent.status := by
  rintro ⟨hbefore, hafter⟩
  rw [isTerminal] at hbefore
  obtain hstatus | hstatus := hafter <;> rw [hstatus] at hbefore <;>
    obtain h | h := hbefore <;> cases h

/-- **The activations are counted**: one more for every departure to a new run. -/
theorem activationCount_applyRow (hseen : agent.Seen kind) (hcount : 1 ≤ agent.activationCount) :
    (agent.applyRow kind payload time existed).activationCount = agent.activationCount +
      if agent.Departs (agent.applyRow kind payload time existed).status then 1 else 0 := by
  have hcounted : (agent.described kind payload).counted.activationCount =
      agent.activationCount := by
    rw [counted_of_pos (hcount.trans_eq (agent.activationCount_described kind payload).symm),
      activationCount_described]
  rw [(rowEffect payload time existed hseen).activationCount]
  cases hstatus : agent.rowStatus kind payload existed with
  | none =>
    rw [settledBy_of_none payload time existed hstatus, hcounted,
      status_applyRow_of_none payload time existed hseen hstatus, if_neg agent.not_departs_self,
      Nat.add_zero]
  | some status =>
    rw [settledBy_of_some payload time existed hstatus, activationCount_applyStatus, hcounted,
      status_applyRow_of_some payload time existed hseen hstatus]
    congr 1
    refine if_congr ((reactivates_described payload status).trans ?_) rfl rfl
    by_cases hterminal : (agent.isTerminal && isTerminalSubagentStatus status) = true
    · rw [if_pos hterminal]
      exact iff_of_false (agent.not_reactivates_terminal (Bool.and_eq_true_iff.mp hterminal).2)
        agent.not_departs_self
    · rw [if_neg hterminal]
      exact and_congr_right fun _ ↦ or_comm

theorem usage_applyRow (hseen : agent.Seen kind) :
    (agent.applyRow kind payload time existed).usage =
      mergeUsageMax agent.usage (rowUsage kind payload) := by
  have hnext : (agent.settledBy kind payload time existed).usage = agent.usage := by
    cases hstatus : agent.rowStatus kind payload existed with
    | none =>
      rw [settledBy_of_none payload time existed hstatus]
      exact agent.usage_described kind payload
    | some status =>
      rw [settledBy_of_some payload time existed hstatus, (detail_applyStatus _ _ _).2.2.2.1]
      exact agent.usage_described kind payload
  rw [(rowEffect payload time existed hseen).usage, hnext]

theorem id_applyRow (hseen : agent.Seen kind) :
    (agent.applyRow kind payload time existed).id = agent.id := by
  rw [(rowEffect payload time existed hseen).id]
  cases hstatus : agent.rowStatus kind payload existed with
  | none =>
    rw [settledBy_of_none payload time existed hstatus]
    exact agent.id_described kind payload
  | some status =>
    rw [settledBy_of_some payload time existed hstatus, (detail_applyStatus _ _ _).2.2.2.2]
    exact agent.id_described kind payload

/-! ## Orderly rows -/

/-- **A row that keeps the detail of an agent that is done**: it is of a later attempt only where it
names a status the agent goes on in; it lets the agent wait or idle only where the attempt before is
cleared; and where it says once more that the agent has failed, it names no other error. -/
structure Orderly (agent : RuntimeSubagent) (kind : SubagentRowKind) (payload : Json) : Prop where
  raises : agent.isTerminal = true → kind ≠ .toolProgress → agent.RaisesAttempt payload →
    (explicitStatus kind payload).any (!isTerminalSubagentStatus ·) = true
  parks : agent.isTerminal = true → explicitStatus kind payload = some .waiting ∨
    explicitStatus kind payload = some .idle → agent.RaisesAttempt payload
  errors : agent.status = .failed →
    (explicitStatus kind payload).any isTerminalSubagentStatus = true →
    ∀ text ∈ asString (payload.field "error"), ∀ error ∈ agent.error, bounded text = error

instance (agent : RuntimeSubagent) (kind : SubagentRowKind) (payload : Json) :
    Decidable (agent.Orderly kind payload) :=
  decidable_of_iff ((agent.isTerminal = true → kind ≠ .toolProgress → agent.RaisesAttempt payload →
      (explicitStatus kind payload).any (!isTerminalSubagentStatus ·) = true) ∧
    (agent.isTerminal = true → explicitStatus kind payload = some .waiting ∨
      explicitStatus kind payload = some .idle → agent.RaisesAttempt payload) ∧
    (agent.status = .failed → (explicitStatus kind payload).any isTerminalSubagentStatus = true →
      ∀ text ∈ asString (payload.field "error"), ∀ error ∈ agent.error, bounded text = error))
    ⟨fun ⟨h, h', h''⟩ ↦ ⟨h, h', h''⟩, fun h ↦ ⟨h.raises, h.parks, h.errors⟩⟩

/-- An agent has a completion time exactly if it is done. -/
def Settled (agent : RuntimeSubagent) : Prop := agent.completedAt.isSome = agent.isTerminal

instance (agent : RuntimeSubagent) : Decidable agent.Settled :=
  inferInstanceAs (Decidable (_ = _))

/-- An agent that applies a status stays settled, unless it waits or idles with the completion time
of the run before. -/
theorem settled_applyStatus {status : RuntimeSubagentStatus} (h : agent.Settled)
    (hparks : agent.isTerminal = true → status ≠ .waiting ∧ status ≠ .idle) :
    (agent.applyStatus time status).Settled := by
  rw [Settled, isTerminal, status_applyStatus, (agent.detail_applyStatus time status).1]
  rw [Settled] at h
  cases hbefore : agent.isTerminal with
  | false =>
    have hnone : agent.completedAt = none := by
      rw [← Option.not_isSome_iff_eq_none, h, hbefore]
      exact Bool.false_ne_true
    cases hafter : isTerminalSubagentStatus status <;> simp [hnone, hafter]
  | true =>
    cases hafter : isTerminalSubagentStatus status with
    | true => simpa [hbefore] using h
    | false =>
      have hreactivates : agent.Reactivates status := by
        refine ⟨.inl hbefore, ?_⟩
        obtain ⟨hwaiting, hidle⟩ := hparks hbefore
        cases status <;> simp_all [isTerminalSubagentStatus]
      simp [hafter, hreactivates]

/-- **Orderly rows keep an agent settled.** -/
theorem settled_applyRow (hseen : agent.Seen kind) (h : agent.Settled)
    (horderly : agent.Orderly kind payload) :
    (agent.applyRow kind payload time existed).Settled := by
  have heffect := rowEffect payload time existed hseen
  suffices hsettled : (agent.settledBy kind payload time existed).Settled by
    rwa [Settled, heffect.isSome_completedAt, isTerminal, heffect.status]
  have hterminal : (agent.described kind payload).counted.isTerminal = agent.isTerminal :=
    isTerminal_described payload
  -- the agent that the status is applied to, settled and not parked
  have happly (hdescribed : (agent.described kind payload).counted.Settled)
      (hparks : agent.isTerminal = true → ∀ status, explicitStatus kind payload = some status →
        status ≠ .waiting ∧ status ≠ .idle) :
      (agent.settledBy kind payload time existed).Settled := by
    cases hstatus : agent.rowStatus kind payload existed with
    | none => rwa [settledBy_of_none payload time existed hstatus]
    | some status =>
      rw [settledBy_of_some payload time existed hstatus]
      refine settled_applyStatus time hdescribed fun hbefore ↦ ?_
      rw [hterminal] at hbefore
      exact hparks hbefore status
        ((rowStatus_of_isTerminal payload existed hbefore).symm.trans hstatus)
  obtain ⟨hkind, hraises, hnone⟩ | ⟨hnot, hcompleted, -, -⟩ :=
    agent.detail_described kind payload
  · have hcleared : (agent.described kind payload).counted.completedAt = none := hnone
    cases hbefore : agent.isTerminal with
    | false =>
      refine happly ?_ fun h ↦ absurd (hbefore.symm.trans h) Bool.false_ne_true
      rw [Settled, hcleared, hterminal, hbefore]
      rfl
    | true =>
      obtain ⟨status, hexplicit, hafter⟩ :=
        (Option.any_eq_true ..).mp (horderly.raises hbefore hkind hraises)
      rw [Bool.not_eq_true'] at hafter
      rw [settledBy_of_some payload time existed
          ((rowStatus_of_isTerminal payload existed hbefore).trans hexplicit),
        Settled, isTerminal, status_applyStatus, (detail_applyStatus _ time status).1, hafter,
        hcleared]
      simp [hafter]
  · refine happly ?_ fun hbefore status hexplicit ↦ ?_
    · rw [Settled, hterminal, show (agent.described kind payload).counted.completedAt =
        agent.completedAt from hcompleted]
      exact h
    · have hkind : kind ≠ .toolProgress := by
        rintro rfl
        cases hexplicit
      constructor <;> rintro rfl
      · exact hnot ⟨hkind, horderly.parks hbefore (.inl hexplicit)⟩
      · exact hnot ⟨hkind, horderly.parks hbefore (.inr hexplicit)⟩

/-- **An orderly terminal row replaces nothing of a run that is over.** -/
theorem detail_applyRow (hseen : agent.Seen kind) (horderly : agent.Orderly kind payload)
    (hbefore : agent.isTerminal = true) (hrow : IsTerminalRow kind payload) :
    (agent.applyRow kind payload time existed).completedAt = agent.completedAt ∧
      (∀ result, agent.result = some result →
        (agent.applyRow kind payload time existed).result = some result) ∧
      (agent.status = .failed → ∀ error, agent.error = some error →
        (agent.applyRow kind payload time existed).error = some error) := by
  have heffect := rowEffect payload time existed hseen
  have hstatus : agent.rowStatus kind payload existed = explicitStatus kind payload :=
    rowStatus_of_isTerminal payload existed hbefore
  have hexplicit : ∀ status, explicitStatus kind payload = some status →
      isTerminalSubagentStatus status = true := by
    intro status hsome
    obtain rfl | hany := hrow
    · exact nomatch hsome
    · rwa [hsome] at hany
  have hnot : ¬(kind ≠ .toolProgress ∧ agent.RaisesAttempt payload) := by
    rintro ⟨hkind, hraises⟩
    obtain ⟨status, hsome, hafter⟩ :=
      (Option.any_eq_true ..).mp (horderly.raises hbefore hkind hraises)
    rw [hexplicit status hsome] at hafter
    exact nomatch hafter
  obtain ⟨hkind, hraises, -⟩ | ⟨-, hcompleted, hresult, herror⟩ :=
    agent.detail_described kind payload
  · exact absurd ⟨hkind, hraises⟩ hnot
  have hnext : agent.settledBy kind payload time existed =
      (agent.described kind payload).counted := by
    cases hsome : explicitStatus kind payload with
    | none => exact settledBy_of_none payload time existed (hstatus.trans hsome)
    | some status =>
      rw [settledBy_of_some payload time existed (hstatus.trans hsome), applyStatus,
        isTerminal_described, hbefore, hexplicit status hsome]
      rfl
  refine ⟨?_, fun result h ↦ ?_, fun hfailed error h ↦ ?_⟩
  · rw [heffect.completedAt hbefore, hnext]
    exact hcompleted
  · refine heffect.result hbefore result ?_
    rw [hnext]
    exact hresult.trans h
  · have hkept := heffect.error hbefore error (by rw [hnext]; exact herror.trans h)
    obtain hkept | ⟨hkind, text, htext, hreplaced⟩ := hkept
    · exact hkept
    · have hany : (explicitStatus kind payload).any isTerminalSubagentStatus = true := by
        obtain rfl | hany := hrow
        · simp at hkind
        · exact hany
      rw [hreplaced, horderly.errors hfailed hany text htext error h]

/-! ## The first row -/

theorem orderly_createAgent (id : String) :
    (createAgent id payload time).Orderly kind payload where
  raises h := absurd h Bool.false_ne_true
  parks h := absurd h Bool.false_ne_true
  errors h := by cases h

/-- **What an agent is when its first row has been read.** -/
theorem applyRow_createAgent (id : String) (hkind : kind ≠ .toolProgress) :
    ((createAgent id payload time).applyRow kind payload time existed).Settled ∧
      ((createAgent id payload time).applyRow kind payload time existed).activationCount = 1 ∧
      ((createAgent id payload time).applyRow kind payload time existed).usage =
        rowUsage kind payload ∧
      ((createAgent id payload time).applyRow kind payload time existed).id = id := by
  by_cases hstarted : kind = .taskStarted
  · subst hstarted
    have hdescribed : ((createAgent id payload time).described .taskStarted payload) =
        (createAgent id payload time).fillMetadata payload := rfl
    have hcount := (createAgent id payload time).activationCount_described .taskStarted payload
    have hstatus := (createAgent id payload time).status_described .taskStarted payload
    have husage := (createAgent id payload time).usage_described .taskStarted payload
    have hid := (createAgent id payload time).id_described .taskStarted payload
    have hcompleted : ((createAgent id payload time).fillMetadata payload).completedAt = none := by
      obtain ⟨-, -, h⟩ | ⟨-, h, -⟩ :=
        (createAgent id payload time).detail_described .taskStarted payload <;> exact h
    rw [hdescribed] at hcount hstatus husage hid
    have hfirst : ((createAgent id payload time).fillMetadata payload).activationCount = 0 ∧
        ((createAgent id payload time).fillMetadata payload).isTerminal = false :=
      ⟨hcount, congrArg isTerminalSubagentStatus hstatus⟩
    rw [applyRow, taskStarted]
    simp only [if_pos hfirst]
    exact ⟨congrArg Option.isSome hcompleted, trivial, husage, hid⟩
  · have hseen : (createAgent id payload time).Seen kind :=
      fun h ↦ h.elim (absurd · hstarted) (absurd · hkind)
    have hcounted : ((createAgent id payload time).described kind payload).counted.activationCount =
        1 := by
      rw [counted, activationCount_described]
      rfl
    refine ⟨settled_applyRow payload time existed hseen rfl (orderly_createAgent payload time id),
      ?_,
      (usage_applyRow payload time existed hseen).trans ?_, id_applyRow payload time existed hseen⟩
    · rw [(rowEffect payload time existed hseen).activationCount]
      cases hstatus : (createAgent id payload time).rowStatus kind payload existed with
      | none => rw [settledBy_of_none payload time existed hstatus, hcounted]
      | some status =>
        rw [settledBy_of_some payload time existed hstatus, activationCount_applyStatus, hcounted,
          if_neg]
        rw [reactivates_described]
        rintro ⟨h | h, -⟩ <;> cases h
    · cases rowUsage kind payload <;> rfl

end RuntimeSubagent

end Awen.Subagents
