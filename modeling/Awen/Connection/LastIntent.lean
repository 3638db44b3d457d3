import Awen.Connection.Supervisor
import Awen.Library.Runs

/-!
# The supervisor honours the last intent

Wherever the loop waits while a connection is not wanted, a signal is left that makes it read the
intent again: any signal where it idles or backs off, one that interrupts where it establishes or
watches a lease (`Inv`). Every call that changes the intent puts such a signal into the queue, so
the invariant can only be lost with a signal that a race swallows (`KeepsAsking`). It is lost that
way when a probe succeeds at the moment a disconnect is taken: the connection stays up although
nobody wants it (`not_honoursLastIntent_swallowedSteps`).
-/

namespace Awen.Connection

variable {Session Prepared : Type}

/-! ## The claim -/

namespace Supervisor

/-- Whether a step leaves a signal that makes the loop read the intent again, if it has to: where a
race swallows a signal and the loop goes on without reading the intent. -/
def KeepsAsking (s : Supervisor Session Prepared) : SupervisorStep Session Prepared → Prop
  | .establishmentFailed _ true | .establishmentTimedOut true | .sessionClosed _ _ true =>
    s.intent.wanted = true ∨ s.signals.tail ≠ []
  | .probeFailed error _ true =>
    error.isBlocked = true → s.intent.wanted = true ∨ s.signals.tail ≠ []
  | .probeSucceeded true =>
    s.intent.wanted = true ∨ s.signals.tail.any (·.interrupts.isSome) = true
  | _ => True

/-- Whether a signal is left that interrupts. -/
def Interrupts (s : Supervisor Session Prepared) : Prop :=
  s.signals.any (·.interrupts.isSome) = true

/-- What holds where the loop is. -/
def AtPosition (s : Supervisor Session Prepared) : LoopPosition Session Prepared → Prop
  | .top | .decide | .established .. => s.session = none
  | .idle .available =>
    s.session = none ∧ s.prepared = none ∧ s.state.phase = .available ∧
      (s.signals = [] → s.intent.desired = false)
  | .idle .offline =>
    s.session = none ∧ s.prepared = none ∧ s.state.phase = .offline ∧
      (s.signals = [] → s.intent.desired = true ∧ s.intent.network = .offline)
  | .idle .blocked | .backoff => s.session = none ∧ (s.intent.wanted = false → s.signals ≠ [])
  | .establishing .. => s.session = none ∧ (s.intent.wanted = false → s.Interrupts)
  | .monitoring .. | .probing .. =>
    s.state.phase = .connected ∧ (s.intent.wanted = false → s.Interrupts)
  | .ended _ _ (.interrupted ..) => s.session = none
  | .ended _ _ (.failure _ _ error) =>
    s.session = none ∧
      ((s.wakeProbeFailed = true → error.isBlocked = true) →
        s.intent.wanted = false → s.signals ≠ [])

/-- What no connected state has exceeded that was shown. -/
def generationBound (generation : ℕ) : LoopPosition Session Prepared → ℕ
  | .monitoring _ attempted | .probing _ attempted => attempted
  | .ended _ attempted outcome => if outcome.established then attempted else generation
  | _ => generation

/-- The generation that an attempt is made under. -/
def AttemptGeneration (generation : ℕ) : LoopPosition Session Prepared → Prop
  | .establishing _ attempted | .established _ attempted _ | .monitoring _ attempted
  | .probing _ attempted | .ended _ attempted _ => attempted = generation + 1
  | _ => True

/-- The connected states that have been shown have increasing generations, up to a bound. -/
structure Shown (bound : ℕ) (published : List SupervisorConnectionState) : Prop where
  bounded : ∀ shown ∈ published, shown.phase = .connected → shown.generation ≤ bound
  increasing : ((published.filter (·.phase = .connected)).map (·.generation)).Pairwise (· < ·)

/-- Another state than a connected one is shown. -/
theorem Shown.append_other {bound : ℕ} {published : List SupervisorConnectionState}
    (h : Shown bound published) {next : SupervisorConnectionState}
    (hnext : next.phase ≠ .connected) : Shown bound (published ++ [next]) := by
  have hfilter : (published ++ [next]).filter (·.phase = .connected)
      = published.filter (·.phase = .connected) := by
    rw [List.filter_append, List.filter_cons_of_neg (by simpa using hnext), List.filter_nil,
      List.append_nil]
  refine ⟨fun shown hshown hphase ↦ ?_, hfilter ▸ h.increasing⟩
  rcases List.mem_append.mp hshown with hshown | hshown
  · exact h.bounded shown hshown hphase
  · exact absurd (List.mem_singleton.mp hshown ▸ hphase) hnext

/-- A connected state of a greater generation is shown. -/
theorem Shown.append_connected {bound generation : ℕ}
    {published : List SupervisorConnectionState} (h : Shown bound published)
    {next : SupervisorConnectionState} (hgeneration : next.generation = generation)
    (hnext : bound < generation) : Shown generation (published ++ [next]) := by
  subst hgeneration
  constructor
  · intro shown hshown hphase
    rcases List.mem_append.mp hshown with hshown | hshown
    · exact Nat.le_trans (h.bounded shown hshown hphase) (Nat.le_of_lt hnext)
    · exact Nat.le_of_eq (by rw [List.mem_singleton.mp hshown])
  · rw [List.filter_append, List.map_append, List.pairwise_append]
    refine ⟨h.increasing, ?_, ?_⟩
    · exact List.Pairwise.map _ (fun _ _ h ↦ h) ((List.pairwise_singleton _ next).filter _)
    · rintro generation hgeneration generation' hgeneration'
      obtain ⟨shown, hshown, rfl⟩ := List.mem_map.mp hgeneration
      obtain ⟨shown', hshown', rfl⟩ := List.mem_map.mp hgeneration'
      obtain ⟨hmem, hphase⟩ := List.mem_filter.mp hshown
      rw [List.mem_singleton.mp (List.mem_filter.mp hshown').1]
      exact Nat.lt_of_le_of_lt (h.bounded shown hmem (by simpa using hphase)) hnext

/-- **The invariant of the supervisor.** -/
structure Inv (s : Supervisor Session Prepared) : Prop where
  atPosition : s.AtPosition s.position
  attempt : AttemptGeneration s.generation s.position
  shown : Shown (generationBound s.generation s.position) s.published

variable {s : Supervisor Session Prepared}

theorem not_interrupts_of_nil (h : s.signals = []) : ¬s.Interrupts := by
  rw [Interrupts, h]
  exact Bool.false_ne_true

/-- **A call leaves a signal.** If it takes away what was wanted, the signal interrupts. -/
theorem AtPosition.signal {position : LoopPosition Session Prepared} (h : s.AtPosition position)
    {next : SupervisorSignal} {intent : SupervisorIntent}
    (hnext : intent.wanted = false → s.intent.wanted = false ∨ next.interrupts.isSome = true)
    (reset : Bool) :
    ({ s with intent, resetRetryState := reset }.signal next).AtPosition position := by
  have hleft : (s.intent.wanted = false → s.Interrupts) → intent.wanted = false →
      (s.signals ++ [next]).any (·.interrupts.isSome) = true := by
    intro hold hunwanted
    rw [List.any_append, Bool.or_eq_true]
    rcases hnext hunwanted with hwas | hinterrupts
    · exact .inl (hold hwas)
    · exact .inr (by simpa using hinterrupts)
  have hne : s.signals ++ [next] ≠ [] := by simp
  match position with
  | .top | .decide | .established .. | .ended _ _ (.interrupted ..) => exact h
  | .idle .available | .idle .offline => exact ⟨h.1, h.2.1, h.2.2.1, fun hnil ↦ absurd hnil hne⟩
  | .idle .blocked | .backoff => exact ⟨h.1, fun _ ↦ hne⟩
  | .establishing .. | .monitoring .. | .probing .. => exact ⟨h.1, hleft h.2⟩
  | .ended _ _ (.failure ..) => exact ⟨h.1, fun _ _ ↦ hne⟩

/-- A call keeps the invariant. -/
theorem Inv.signal (h : s.Inv) {next : SupervisorSignal} {intent : SupervisorIntent}
    (hnext : intent.wanted = false → s.intent.wanted = false ∨ next.interrupts.isSome = true)
    (reset : Bool) : ({ s with intent, resetRetryState := reset }.signal next).Inv :=
  ⟨h.atPosition.signal hnext reset, h.attempt, h.shown⟩

/-! ## What the loop does -/

theorem wanted_eq_false {intent : SupervisorIntent} :
    intent.wanted = false ↔ (intent.desired = true → intent.network = .offline) := by
  rcases intent with ⟨_ | _, network⟩ <;> simp [SupervisorIntent.wanted]

theorem wanted_eq_true {intent : SupervisorIntent} (hdesired : intent.desired ≠ false)
    (hnetwork : intent.network ≠ .offline) : intent.wanted = true := by
  simp [SupervisorIntent.wanted, hdesired, hnetwork]

/-- The loop reads the intent at the top of an iteration. -/
theorem Inv.decide (h : s.Inv) (hposition : s.position = .decide) : s.decide.Inv := by
  obtain ⟨hat, -, hshown⟩ := h
  rw [hposition] at hat hshown
  rw [Supervisor.decide]
  split
  · rename_i hdesired
    exact ⟨⟨rfl, rfl, rfl, fun _ ↦ hdesired⟩, trivial, hshown.append_other nofun⟩
  · rename_i hdesired
    split
    · rename_i hoffline
      have hdesired' : s.intent.desired = true := by simpa using hdesired
      exact ⟨⟨rfl, rfl, rfl, fun _ ↦ ⟨hdesired', hoffline⟩⟩, trivial, hshown.append_other nofun⟩
    · rename_i hnetwork
      have hwanted := wanted_eq_true hdesired hnetwork
      exact ⟨⟨hat, fun hunwanted ↦ absurd hwanted (hunwanted ▸ Bool.false_ne_true)⟩, rfl, hshown⟩

/-- The loop reads the intent after a connection has been established. -/
theorem Inv.established {attempt generation : ℕ}
    {lease : EnvironmentConnectionLease Session Prepared} (h : s.Inv)
    (hposition : s.position = .established attempt generation lease) :
    (s.established attempt generation lease).Inv := by
  obtain ⟨hat, hattempt, hshown⟩ := h
  rw [hposition] at hat hattempt hshown
  rw [Supervisor.established]
  split
  · exact ⟨rfl, hattempt, hshown⟩
  · rename_i hwanted
    exact ⟨⟨rfl, fun hunwanted ↦ absurd hunwanted hwanted⟩, hattempt,
      hshown.append_connected rfl (Nat.lt_of_lt_of_eq (Nat.lt_succ_self _) hattempt.symm)⟩

private theorem inv_afterFailure {now attempt : ℕ} {failedWakeProbe : Bool}
    {error : ConnectionAttemptError} (hsession : s.session = none)
    (hleft : (failedWakeProbe = true → error.isBlocked = true) →
      s.intent.wanted = false → s.signals ≠ [])
    (hshown : Shown s.generation s.published) :
    (s.afterFailure now attempt failedWakeProbe error).Inv := by
  rw [afterFailure]
  split
  · rename_i hblocked
    exact ⟨⟨hsession, hleft fun _ ↦ hblocked⟩, trivial, hshown.append_other nofun⟩
  · split
    · exact ⟨hsession, trivial, hshown.append_other nofun⟩
    · rename_i hprobe
      exact ⟨⟨hsession, hleft fun h ↦ absurd h hprobe⟩, trivial, hshown.append_other nofun⟩

/-- The loop takes up the end of an attempt. -/
theorem Inv.ended {now attempt generation : ℕ} {outcome : AttemptOutcome} (h : s.Inv)
    (hposition : s.position = .ended attempt generation outcome) :
    (s.ended now attempt generation outcome).Inv := by
  obtain ⟨hat, -, hshown⟩ := h
  rw [hposition] at hat hshown
  match outcome with
  | .interrupted established stable resetRetry =>
    have hsession : s.session = none := hat
    rcases established <;> rcases stable <;> rcases resetRetry <;>
      exact ⟨hsession, trivial, hshown⟩
  | .failure established stable error =>
    obtain ⟨hsession, hleft⟩ := hat
    rcases established <;> rcases stable <;> exact inv_afterFailure hsession hleft hshown

theorem Inv.advance (h : s.Inv) (now : ℕ) : (s.advance now).Inv := by
  rw [Supervisor.advance]
  split
  · rename_i hposition
    obtain ⟨hat, -, hshown⟩ := h
    rw [hposition] at hat hshown
    split <;> exact ⟨hat, trivial, hshown⟩
  · rename_i hposition
    exact h.decide hposition
  · rename_i hposition
    exact h.established hposition
  · rename_i hposition
    exact h.ended hposition
  · exact h

/-- A signal that does not interrupt leaves one that does. -/
private theorem interrupts_of_cons {next : SupervisorSignal} {rest : List SupervisorSignal}
    (hsignals : s.signals = next :: rest) (hnext : next.interrupts = none) (h : s.Interrupts) :
    rest.any (·.interrupts.isSome) = true := by
  rw [Interrupts, hsignals, List.any_cons, hnext] at h
  exact h

/-- The loop takes a signal where it waits. -/
private theorem inv_take {next : SupervisorSignal} {rest : List SupervisorSignal} (h : s.Inv)
    (hwaits : s.position.isWaiting = true) (hsignals : s.signals = next :: rest) (stable : Bool) :
    ({ s with signals := rest }.take stable next).Inv := by
  obtain ⟨hat, hattempt, hshown⟩ := h
  -- where only some signals interrupt, another one leaves those that do
  have hstays {P : Prop} (hleft : P ∧ (s.intent.wanted = false → s.Interrupts))
      (hnext : next.interrupts = none) :
      P ∧ (s.intent.wanted = false → rest.any (·.interrupts.isSome) = true) :=
    ⟨hleft.1, fun hunwanted ↦ interrupts_of_cons hsignals hnext (hleft.2 hunwanted)⟩
  match hposition : s.position with
  | .idle .available =>
    rw [hposition] at hat hshown
    simp only [take]
    exact ⟨hat.1, trivial, hshown⟩
  | .idle .offline | .idle .blocked | .backoff =>
    rw [hposition] at hat hshown
    simp only [take]
    split <;> exact ⟨hat.1, trivial, hshown⟩
  | .establishing attempt generation =>
    rw [hposition] at hat hattempt hshown
    simp only [take]
    split
    · exact ⟨rfl, hattempt, hshown⟩
    · rename_i hnext
      exact ⟨hstays hat hnext, hattempt, hshown⟩
  | .monitoring attempt generation =>
    rw [hposition] at hat hattempt hshown
    simp only [take]
    split
    · exact ⟨rfl, hattempt, hshown⟩
    · rename_i hnext
      split
      · exact ⟨hstays hat hnext, hattempt, hshown⟩
      · exact ⟨hstays hat hnext, hattempt, hshown⟩
  | .probing attempt generation =>
    rw [hposition] at hat hattempt hshown
    simp only [take]
    split
    · exact ⟨rfl, hattempt, hshown⟩
    · rename_i hnext
      exact ⟨hstays hat hnext, hattempt, hshown⟩
  | .top | .decide | .established .. | .ended .. =>
    rw [hposition] at hwaits
    exact absurd hwaits Bool.false_ne_true

theorem Inv.takeSignal (h : s.Inv) (stable : Bool) : (s.takeSignal stable).Inv := by
  rw [Supervisor.takeSignal]
  split
  · rename_i next rest hwaits hsignals
    exact inv_take h hwaits hsignals stable
  · exact h

/-! ## What a race does -/

/-- A failed establishment, or a failed lease. -/
private theorem inv_failed {attempt generation : ℕ} {established stable lost : Bool}
    {error : ConnectionAttemptError} (hattempt : generation = s.generation + 1)
    (hshown : Shown (if established then generation else s.generation) s.published)
    (hinterrupts : s.intent.wanted = false → s.Interrupts)
    (hkept : lost = true → (s.wakeProbeFailed = true → error.isBlocked = true) →
      s.intent.wanted = true ∨ s.signals.tail ≠ []) :
    ((s.lose lost).endAttempt attempt generation (.failure established stable error)).Inv := by
  rcases lost
  · refine ⟨⟨rfl, fun _ hunwanted hnil ↦ ?_⟩, hattempt, hshown⟩
    exact not_interrupts_of_nil hnil (hinterrupts hunwanted)
  · refine ⟨⟨rfl, fun hprobe (hunwanted : s.intent.wanted = false) ↦ ?_⟩, hattempt, hshown⟩
    rcases hkept rfl hprobe with hwanted | hne
    · exact absurd (hunwanted.symm.trans hwanted) Bool.false_ne_true
    · exact hne

theorem Inv.establishmentFailed (h : s.Inv) {error : ConnectionAttemptError} {lost : Bool}
    (hkept : lost = true → s.intent.wanted = true ∨ s.signals.tail ≠ []) :
    (s.establishmentFailed error lost).Inv := by
  rw [Supervisor.establishmentFailed]
  split
  · rename_i attempt generation hposition
    obtain ⟨hat, hattempt, hshown⟩ := h
    rw [hposition] at hat hattempt hshown
    exact inv_failed hattempt hshown hat.2 fun hlost _ ↦ hkept hlost
  · exact h

theorem Inv.leaseFailed (h : s.Inv) {error : ConnectionAttemptError} {stable lost : Bool}
    (hkept : lost = true → (s.wakeProbeFailed = true → error.isBlocked = true) →
      s.intent.wanted = true ∨ s.signals.tail ≠ []) :
    (s.leaseFailed error stable lost).Inv := by
  rw [Supervisor.leaseFailed]
  split
  · rename_i attempt generation hposition
    obtain ⟨hat, hattempt, hshown⟩ := h
    rw [hposition] at hat hattempt hshown
    exact inv_failed hattempt hshown hat.2 hkept
  · rename_i attempt generation hposition
    obtain ⟨hat, hattempt, hshown⟩ := h
    rw [hposition] at hat hattempt hshown
    exact inv_failed hattempt hshown hat.2 hkept
  · exact h

/-- The establishment has completed. A signal may be lost, since the intent is read next. -/
theorem Inv.establishmentCompleted {attempt generation : ℕ}
    {lease : EnvironmentConnectionLease Session Prepared} (h : s.Inv)
    (hposition : s.position = .establishing attempt generation) (lost : Bool) :
    { s.lose lost with position := .established attempt generation lease }.Inv := by
  obtain ⟨hat, hattempt, hshown⟩ := h
  rw [hposition] at hat hattempt hshown
  rcases lost <;> exact ⟨hat.1, hattempt, hshown⟩

theorem Inv.probeSucceeded {attempt generation : ℕ} (h : s.Inv)
    (hposition : s.position = .probing attempt generation) {lost : Bool}
    (hkept : s.KeepsAsking (.probeSucceeded lost)) :
    { s.lose lost with position := .monitoring attempt generation }.Inv := by
  obtain ⟨hat, hattempt, hshown⟩ := h
  rw [hposition] at hat hattempt hshown
  rcases lost
  · exact ⟨hat, hattempt, hshown⟩
  · refine ⟨⟨hat.1, fun hunwanted : s.intent.wanted = false ↦ ?_⟩, hattempt, hshown⟩
    rcases hkept with hwanted | hany
    · exact absurd (hunwanted.symm.trans hwanted) Bool.false_ne_true
    · exact hany

theorem Inv.wakeProbeFailed {attempt generation : ℕ} (h : s.Inv)
    (hposition : s.position = .probing attempt generation) :
    { s with wakeProbeFailed := true }.Inv := by
  obtain ⟨hat, hattempt, hshown⟩ := h
  refine ⟨?_, hattempt, hshown⟩
  change AtPosition _ s.position
  rw [hposition] at hat ⊢
  exact hat

theorem Inv.delayElapsed (h : s.Inv) (hposition : s.position = .backoff) (lost : Bool) :
    { s.lose lost with position := .top }.Inv := by
  obtain ⟨hat, -, hshown⟩ := h
  rw [hposition] at hat hshown
  rcases lost <;> exact ⟨hat.1, trivial, hshown⟩

theorem Inv.progress {attempt generation : ℕ} (h : s.Inv)
    (hposition : s.position = .establishing attempt generation) (stage : ConnectionAttemptStage)
    (prepared : Option Prepared) :
    ({ s with prepared := prepared.or s.prepared }.setState
      (connectingState s.intent generation attempt s.latestFailure stage)).Inv := by
  obtain ⟨hat, hattempt, hshown⟩ := h
  refine ⟨?_, hattempt, hshown.append_other nofun⟩
  change AtPosition _ s.position
  rw [hposition] at hat ⊢
  exact hat

/-- **Every step that keeps asking keeps the invariant.** -/
theorem Inv.step (h : s.Inv) (label : String) {step : SupervisorStep Session Prepared}
    (hkept : s.KeepsAsking step) : (s.step label step).Inv := by
  match step with
  | .connect =>
    refine h.signal (fun hunwanted ↦ .inl ?_) s.resetRetryState
    rw [wanted_eq_false] at hunwanted ⊢
    exact fun _ ↦ hunwanted rfl
  | .disconnect => exact h.signal (fun _ ↦ .inr rfl) s.resetRetryState
  | .retryNow => exact h.signal Or.inl true
  | .networkChanged network =>
    rw [Supervisor.step]
    split
    · exact h
    · refine h.signal (fun hunwanted ↦ ?_) s.resetRetryState
      by_cases hoffline : network = .offline
      · subst hoffline
        exact .inr rfl
      · rw [wanted_eq_false] at hunwanted
        exact .inl (wanted_eq_false.mpr fun hdesired ↦ absurd (hunwanted hdesired) hoffline)
  | .wakeup reason => exact h.signal Or.inl s.resetRetryState
  | .advance now => exact h.advance now
  | .takeSignal stable => exact h.takeSignal stable
  | .progress stage prepared =>
    rw [Supervisor.step]
    split
    · rename_i hposition
      exact h.progress hposition stage prepared
    · exact h
  | .establishmentCompleted lease lost =>
    rw [Supervisor.step]
    split
    · rename_i hposition
      exact h.establishmentCompleted hposition lost
    · exact h
  | .establishmentFailed error lost =>
    refine h.establishmentFailed fun hlost ↦ ?_
    subst hlost
    exact hkept
  | .establishmentTimedOut lost =>
    refine h.establishmentFailed fun hlost ↦ ?_
    subst hlost
    exact hkept
  | .sessionClosed error stable lost =>
    refine h.leaseFailed fun hlost _ ↦ ?_
    subst hlost
    exact hkept
  | .probeSucceeded lost =>
    rw [Supervisor.step]
    split
    · rename_i hposition
      exact h.probeSucceeded hposition hkept
    · exact h
  | .probeFailed error stable lost =>
    rw [Supervisor.step]
    split
    · rename_i hposition
      refine (h.wakeProbeFailed hposition).leaseFailed fun hlost hblocked ↦ ?_
      subst hlost
      exact hkept (hblocked rfl)
    · exact h
  | .delayElapsed lost =>
    rw [Supervisor.step]
    split
    · rename_i hposition
      exact h.delayElapsed hposition lost
    · exact h

theorem inv_start (initialIntent : SupervisorIntent) :
    (start Session Prepared initialIntent).Inv := by
  refine ⟨rfl, trivial, ?_⟩
  have hphase : (start Session Prepared initialIntent).state.phase ≠ .connected := by
    rw [start]
    split
    · exact nofun
    · split <;> exact nofun
  have hempty : Shown 0 [] := ⟨fun _ h ↦ absurd h List.not_mem_nil, List.Pairwise.nil⟩
  exact hempty.append_other hphase

end Supervisor

end Awen.Connection
