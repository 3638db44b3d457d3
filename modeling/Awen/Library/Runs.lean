import Mathlib.Data.List.Basic

/-!
# Runs of a step function

The runs of a component that takes one input after the other. `EveryStep` says that each input meets
a condition in the state it arrives in, and `foldl_invariant` is the induction over such runs.
-/

namespace Awen

variable {σ ι : Type*} {step : σ → ι → σ} {ok : σ → ι → Prop}

/-- Every input meets a condition in the state it arrives in. -/
def EveryStep (step : σ → ι → σ) (ok : σ → ι → Prop) : σ → List ι → Prop
  | _, [] => True
  | s, i :: inputs => ok s i ∧ EveryStep step ok (step s i) inputs

instance EveryStep.decidable [∀ s i, Decidable (ok s i)] :
    (s : σ) → (inputs : List ι) → Decidable (EveryStep step ok s inputs)
  | _, [] => .isTrue trivial
  | s, i :: inputs =>
    have := EveryStep.decidable (step s i) inputs
    inferInstanceAs (Decidable (ok s i ∧ EveryStep step ok (step s i) inputs))

/-- **The induction over runs.** -/
theorem EveryStep.foldl_invariant {P : σ → Prop} (hstep : ∀ s i, P s → ok s i → P (step s i))
    {s : σ} {inputs : List ι} (h : EveryStep step ok s inputs) (hs : P s) :
    P (inputs.foldl step s) := by
  induction inputs generalizing s with
  | nil => exact hs
  | cons i inputs ih => exact ih h.2 (hstep s i hs h.1)

/-- The first steps of a run. -/
theorem EveryStep.take {s : σ} {inputs : List ι} (h : EveryStep step ok s inputs) (n : ℕ) :
    EveryStep step ok s (inputs.take n) := by
  induction inputs generalizing s n with
  | nil => simpa using h
  | cons i inputs ih =>
    cases n with
    | zero => trivial
    | succ n => exact ⟨h.1, ih h.2 n⟩

/-- The step after the first steps of a run meets its condition. -/
theorem EveryStep.append_cons {s : σ} {before after : List ι} {i : ι}
    (h : EveryStep step ok s (before ++ i :: after)) : ok (before.foldl step s) i := by
  induction before generalizing s with
  | nil => exact h.1
  | cons j before ih => exact ih h.2

/-- The first steps of a run are a run. -/
theorem EveryStep.append_left {s : σ} {before after : List ι}
    (h : EveryStep step ok s (before ++ after)) : EveryStep step ok s before := by
  induction before generalizing s with
  | nil => trivial
  | cons j before ih => exact ⟨h.1, ih h.2⟩

/-- The last steps of a run are a run from the state before them. -/
theorem EveryStep.append_right {s : σ} {before after : List ι}
    (h : EveryStep step ok s (before ++ after)) :
    EveryStep step ok (before.foldl step s) after := by
  induction before generalizing s with
  | nil => exact h
  | cons j before ih => exact ih h.2

/-- Where something holds at the end of a run and not at its start, a step has made it hold. -/
theorem exists_step_of_foldl {P : σ → Prop} {s : σ} {inputs : List ι} (hs : ¬P s)
    (h : P (inputs.foldl step s)) : ∃ before i after, inputs = before ++ i :: after ∧
      ¬P (before.foldl step s) ∧ P (step (before.foldl step s) i) := by
  induction inputs generalizing s with
  | nil => exact absurd h hs
  | cons i inputs ih =>
    by_cases hi : P (step s i)
    · exact ⟨[], i, inputs, rfl, hs, hi⟩
    · obtain ⟨before, j, after, rfl, hbefore, hj⟩ := ih hi h
      exact ⟨i :: before, j, after, rfl, hbefore, hj⟩

/-- A condition that always holds is met at every step. -/
theorem everyStep_of_forall (h : ∀ s i, ok s i) (s : σ) (inputs : List ι) :
    EveryStep step ok s inputs := by
  induction inputs generalizing s with
  | nil => trivial
  | cons i inputs ih => exact ⟨h s i, ih (step s i)⟩

private theorem EveryStep.and_mem_of_subset {all : List ι} {s : σ} {inputs : List ι}
    (h : EveryStep step ok s inputs) (hall : inputs ⊆ all) :
    EveryStep step (fun s i ↦ ok s i ∧ i ∈ all) s inputs := by
  induction inputs generalizing s with
  | nil => exact h
  | cons i inputs ih =>
    exact ⟨⟨h.1, hall List.mem_cons_self⟩, ih h.2 fun j hj ↦ hall (List.mem_cons_of_mem i hj)⟩

/-- The inputs that a step meets are among those of the run. -/
theorem EveryStep.and_mem {s : σ} {inputs : List ι} (h : EveryStep step ok s inputs) :
    EveryStep step (fun s i ↦ ok s i ∧ i ∈ inputs) s inputs :=
  h.and_mem_of_subset fun _ ↦ id

/-- What every step keeps, a run keeps. -/
theorem foldl_invariant {P : σ → Prop} (hstep : ∀ s i, P s → P (step s i)) {s : σ} (hs : P s)
    (inputs : List ι) : P (inputs.foldl step s) := by
  induction inputs generalizing s with
  | nil => exact hs
  | cons i inputs ih => exact ih (hstep s i hs)

/-- **An invariant holds at all times exactly if every step meets its condition**, where a step
keeps the invariant exactly if it does. -/
theorem forall_prefix_foldl_iff {P : σ → Prop} (hstep : ∀ s i, P s → (P (step s i) ↔ ok s i))
    {s : σ} {inputs : List ι} : (∀ reached, reached <+: inputs → P (reached.foldl step s)) ↔
      P s ∧ EveryStep step ok s inputs := by
  induction inputs generalizing s with
  | nil =>
    refine ⟨fun h ↦ ⟨h [] List.nil_prefix, trivial⟩, fun h reached hreached ↦ ?_⟩
    obtain rfl := List.prefix_nil.mp hreached
    exact h.1
  | cons i inputs ih =>
    constructor
    · intro h
      have hs : P s := h [] List.nil_prefix
      have hrest := ih.mp fun reached hreached ↦
        h (i :: reached) ((List.prefix_cons_inj i).mpr hreached)
      exact ⟨hs, (hstep s i hs).mp hrest.1, hrest.2⟩
    · rintro ⟨hs, hok, hrest⟩ reached hreached
      cases reached with
      | nil => exact hs
      | cons j reached =>
        obtain ⟨rfl, htail⟩ := List.cons_prefix_cons.mp hreached
        exact ih.mpr ⟨(hstep s j hs).mpr hok, hrest⟩ reached htail

end Awen
