import Mathlib.Logic.Basic
import Mathlib.Tactic.Common

/-!
# Programs that call themselves

The body of a recursive program, as a tree: it is done, or it makes a call and goes on with whatever
the call answers. A body whose calls are all of a smaller rank answers every input, and
`exists_answer` says that it does so with no more calls inside each other than the rank.
-/

namespace Awen

/-- What a program does that may make calls: `ι` is what it calls with, `ρ` what a call answers. -/
inductive CallTree (ι ρ α : Type*) where
  | done (value : α)
  | call (input : ι) (next : ρ → CallTree ι ρ α)

namespace CallTree

universe u

variable {ι ρ : Type*} {α β : Type u}

/-- Go on with the value of a program. -/
def andThen : CallTree ι ρ α → (α → CallTree ι ρ β) → CallTree ι ρ β
  | done value, next => next value
  | call input answer, next => call input fun result ↦ (answer result).andThen next

instance : Monad (CallTree ι ρ) where
  pure := done
  bind := andThen

/-- A call, whose answer is the value. -/
def recurse (input : ι) : CallTree ι ρ ρ := call input done

/-- Every call that the program may make, whatever the calls before it have answered, is as `P`
says. -/
def CallsOnly (P : ι → Prop) : CallTree ι ρ α → Prop
  | done _ => True
  | call input next => P input ∧ ∀ result, (next result).CallsOnly P

/-- The value of a program, where the calls are answered. -/
def interpret (answer : ι → Option ρ) : CallTree ι ρ α → Option α
  | done value => some value
  | call input next => (answer input).bind fun result ↦ (next result).interpret answer

/-- The answer of a recursive program with at most `fuel` calls inside each other. -/
def answerWithin (body : ι → CallTree ι ρ ρ) : ℕ → ι → Option ρ
  | 0, _ => none
  | fuel + 1, input => (body input).interpret (answerWithin body fuel)

variable {P Q : ι → Prop}

@[simp] theorem callsOnly_done (value : α) : (done value : CallTree ι ρ α).CallsOnly P := trivial

@[simp] theorem callsOnly_pure (value : α) : (pure value : CallTree ι ρ α).CallsOnly P := trivial

theorem callsOnly_recurse {input : ι} (h : P input) :
    (recurse input : CallTree ι ρ ρ).CallsOnly P :=
  ⟨h, fun _ ↦ trivial⟩

theorem CallsOnly.mono {tree : CallTree ι ρ α} (h : tree.CallsOnly P) (hPQ : ∀ i, P i → Q i) :
    tree.CallsOnly Q := by
  induction tree with
  | done value => trivial
  | call input next ih => exact ⟨hPQ input h.1, fun result ↦ ih result (h.2 result)⟩

/-- The calls of a program that goes on. -/
theorem CallsOnly.bind {tree : CallTree ι ρ α} {next : α → CallTree ι ρ β}
    (h : tree.CallsOnly P) (hnext : ∀ value, (next value).CallsOnly P) :
    (tree >>= next).CallsOnly P := by
  change (tree.andThen next).CallsOnly P
  induction tree with
  | done value => exact hnext value
  | call input answer ih => exact ⟨h.1, fun result ↦ ih result (h.2 result)⟩

/-- A program has a value if its calls are answered. -/
theorem CallsOnly.exists_interpret {tree : CallTree ι ρ α} (h : tree.CallsOnly P)
    {answers : ℕ → ι → Option ρ} {n : ℕ}
    (hanswers : ∀ i, P i → ∃ result, ∀ fuel, n ≤ fuel → answers fuel i = some result) :
    ∃ value, ∀ fuel, n ≤ fuel → tree.interpret (answers fuel) = some value := by
  induction tree with
  | done value => exact ⟨value, fun _ _ ↦ rfl⟩
  | call input next ih =>
    obtain ⟨result, hresult⟩ := hanswers input h.1
    obtain ⟨value, hvalue⟩ := ih result (h.2 result)
    refine ⟨value, fun fuel hfuel ↦ ?_⟩
    rw [interpret, hresult fuel hfuel, Option.bind_some, hvalue fuel hfuel]

/-- **A recursive program whose calls go down in rank answers every input**, with no more calls
inside each other than the rank of the input. -/
theorem exists_answer {body : ι → CallTree ι ρ ρ} {rank : ι → ℕ}
    (h : ∀ i, (body i).CallsOnly fun j ↦ rank j < rank i) (input : ι) :
    ∃ result, ∀ fuel, rank input < fuel → answerWithin body fuel input = some result := by
  induction hrank : rank input using Nat.strongRecOn generalizing input with
  | ind n ih =>
    have hcalls : ∀ j, rank j < rank input →
        ∃ result, ∀ fuel, n ≤ fuel → answerWithin body fuel j = some result := by
      intro j hj
      obtain ⟨result, hresult⟩ := ih (rank j) (hrank ▸ hj) j rfl
      exact ⟨result, fun fuel hfuel ↦ hresult fuel (Nat.lt_of_lt_of_le (hrank ▸ hj) hfuel)⟩
    obtain ⟨value, hvalue⟩ := (h input).exists_interpret hcalls
    refine ⟨value, fun fuel hfuel ↦ ?_⟩
    obtain ⟨fuel, rfl⟩ := Nat.exists_eq_succ_of_ne_zero (Nat.ne_zero_of_lt hfuel)
    exact hvalue fuel (Nat.le_of_lt_succ hfuel)

end CallTree

end Awen
