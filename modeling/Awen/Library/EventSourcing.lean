import Awen.Library.Runs

/-!
# Components that decide commands and fold events

A component answers a command with events or refuses it, and its state is the fold of the events.
Before it decides it may prepare its state from the outside, and the events are folded into the
prepared state.

`Reaches ok start s log` says that a run of accepted commands, each of which meets the condition
`ok` in the state it is applied to, leads from `start` to `s` and has produced the events `log`.
`Reaches.invariant` is the induction over such runs, and `run` computes them: it skips the commands
that are refused. `Passes` are the states such a run goes through, after each single event.
-/

namespace Awen

/-- A component that decides commands and folds events. -/
structure EventSourced (σ γ ε ρ : Type*) where
  /-- What the state takes over from the outside before a command is decided. -/
  prepare : σ → γ → σ
  /-- The events of a command, or the reason to refuse it. -/
  decide : σ → γ → Except ρ (List ε)
  /-- One event folded into the state. -/
  evolve : σ → ε → σ

namespace EventSourced

variable {σ γ ε ρ : Type*} (C : EventSourced σ γ ε ρ)

/-- The state with events folded into it. -/
def fold (s : σ) (events : List ε) : σ := events.foldl C.evolve s

@[simp] theorem fold_nil (s : σ) : C.fold s [] = s := rfl

@[simp] theorem fold_cons (s : σ) (e : ε) (events : List ε) :
    C.fold s (e :: events) = C.fold (C.evolve s e) events := rfl

@[simp] theorem fold_append (s : σ) (events rest : List ε) :
    C.fold s (events ++ rest) = C.fold (C.fold s events) rest :=
  List.foldl_append

/-- Runs of accepted commands that meet a condition, with the events they produced. -/
inductive Reaches (ok : σ → γ → Prop) (start : σ) : σ → List ε → Prop
  | start : Reaches ok start start []
  | step {s : σ} {log : List ε} (command : γ) {events : List ε} (reached : Reaches ok start s log)
      (accepted : ok s command)
      (decided : C.decide (C.prepare s command) command = .ok events) :
      Reaches ok start (C.fold (C.prepare s command) events) (log ++ events)

/-- The states that runs go through: those that are reached, and those after the first events of
one more command. -/
inductive Passes (ok : σ → γ → Prop) (start : σ) : σ → List ε → Prop
  | reached {s : σ} {log : List ε} (reached : C.Reaches ok start s log) : Passes ok start s log
  | within {s : σ} {log : List ε} (command : γ) {events : List ε} (n : ℕ)
      (reached : C.Reaches ok start s log) (accepted : ok s command)
      (decided : C.decide (C.prepare s command) command = .ok events) :
      Passes ok start (C.fold (C.prepare s command) (events.take n)) (log ++ events.take n)

variable {C}

/-- **The induction over runs.** What holds at the start and is kept by every accepted command that
meets the condition holds in every state reached. -/
theorem Reaches.invariant {ok : σ → γ → Prop} {start s : σ} {log : List ε}
    (h : C.Reaches ok start s log) {P : σ → Prop} (hstart : P start)
    (hstep : ∀ s command events, P s → ok s command →
      C.decide (C.prepare s command) command = .ok events →
      P (C.fold (C.prepare s command) events)) : P s := by
  induction h with
  | start => exact hstart
  | step command _ hok hdecided ih => exact hstep _ command _ ih hok hdecided

/-- **The induction over single events.** What holds at the start, is kept by preparing, and is kept
by every event that meets a condition, holds after each event of a run all of whose events do. -/
theorem Passes.invariant {ok : σ → γ → Prop} {meets : σ → ε → Prop} {start s : σ} {log : List ε}
    (h : C.Passes ok start s log) {P : σ → Prop} (hstart : P start)
    (hprepare : ∀ s command, P s → P (C.prepare s command))
    (hmeets : ∀ s command events, ok s command →
      C.decide (C.prepare s command) command = .ok events →
      EveryStep C.evolve meets (C.prepare s command) events)
    (hevolve : ∀ s e, P s → meets s e → P (C.evolve s e)) : P s := by
  have hreaches {s : σ} {log : List ε} (hreached : C.Reaches ok start s log) : P s :=
    hreached.invariant hstart fun s command events hs hok hdecided ↦
      (hmeets s command events hok hdecided).foldl_invariant hevolve (hprepare s command hs)
  cases h with
  | reached hreached => exact hreaches hreached
  | within command n hreached hok hdecided =>
    exact ((hmeets _ command _ hok hdecided).take n).foldl_invariant hevolve
      (hprepare _ command (hreaches hreached))

/-- The state and the log after one more command, the same if it is refused or does not meet the
condition. -/
def next (C : EventSourced σ γ ε ρ) (ok : σ → γ → Prop) [∀ s command, Decidable (ok s command)]
    (reached : σ × List ε) (command : γ) : σ × List ε :=
  if ok reached.1 command then
    match C.decide (C.prepare reached.1 command) command with
    | .ok events => (C.fold (C.prepare reached.1 command) events, reached.2 ++ events)
    | .error _ => reached
  else reached

/-- The run over a list of commands. -/
def run (C : EventSourced σ γ ε ρ) (ok : σ → γ → Prop) [∀ s command, Decidable (ok s command)]
    (start : σ) (commands : List γ) : σ × List ε :=
  commands.foldl (C.next ok) (start, [])

theorem reaches_run (C : EventSourced σ γ ε ρ) (ok : σ → γ → Prop)
    [∀ s command, Decidable (ok s command)] (start : σ) (commands : List γ) :
    C.Reaches ok start (C.run ok start commands).1 (C.run ok start commands).2 := by
  suffices h : ∀ reached : σ × List ε, C.Reaches ok start reached.1 reached.2 →
      C.Reaches ok start (commands.foldl (C.next ok) reached).1
        (commands.foldl (C.next ok) reached).2 from h (start, []) .start
  induction commands with
  | nil => exact fun _ h ↦ h
  | cons command commands ih =>
    intro reached h
    refine ih _ ?_
    rw [next]
    split
    · rename_i hok
      split
      · rename_i events hevents
        exact h.step command hok hevents
      · exact h
    · exact h

/-- One accepted command. -/
def step (C : EventSourced σ γ ε ρ) (s : σ) (command : γ) : Except ρ σ :=
  (C.decide (C.prepare s command) command).map (C.fold (C.prepare s command))

/-- Commands that must all be accepted. -/
def perform (C : EventSourced σ γ ε ρ) (s : σ) (commands : List γ) : Except ρ σ :=
  commands.foldlM C.step s

theorem step_eq_ok {s s' : σ} {command : γ} :
    C.step s command = .ok s' ↔ ∃ events, C.decide (C.prepare s command) command = .ok events ∧
      C.fold (C.prepare s command) events = s' := by
  rw [step]
  cases C.decide (C.prepare s command) command <;> simp [Except.map]

@[simp] theorem perform_nil (s : σ) : C.perform s [] = .ok s := rfl

/-- A result that passes a test is a result. -/
theorem exists_eq_ok_of_any {x : Except ρ σ} {p : σ → Bool} (h : x.toOption.any p = true) :
    ∃ s, x = .ok s ∧ p s = true := by
  cases x with
  | error e => simp [Except.toOption] at h
  | ok s => exact ⟨s, rfl, by simpa [Except.toOption] using h⟩

/-- A fact about single events carries over to folds of lists of events that all have it. -/
theorem fold_invariant {P : σ → Prop} {E : ε → Prop} (hevolve : ∀ s e, P s → E e → P (C.evolve s e))
    {events : List ε} (hevents : ∀ e ∈ events, E e) {s : σ} (hs : P s) : P (C.fold s events) := by
  induction events generalizing s with
  | nil => exact hs
  | cons e events ih =>
    rw [fold_cons]
    exact ih (fun e' he' ↦ hevents e' (List.mem_cons_of_mem _ he'))
      (hevolve s e hs (hevents e List.mem_cons_self))

end EventSourced

end Awen
