import Mathlib.Data.List.Basic

/-!
# Loops over positions

A loop that counts through the positions of a list. Its body sees the position and the item there;
it goes on, perhaps past some of the positions that follow, or it stops the loop. `indexLoop_rule`
is the rule of such loops: what holds when a position is reached is a condition on the position and
the state. `indexLoop_of_goesOn` is the rule of the loops that are never stopped.
-/

namespace Awen

variable {α σ ρ : Type*}

/-- What the body of a loop does. -/
inductive LoopStep (σ ρ : Type*) where
  /-- Go on behind the position, and behind `skip` more. -/
  | next (state : σ) (skip : ℕ)
  | stop (result : ρ)

/-- The loop from a position on, with the items that are left. The first `skip` positions are
passed. -/
def indexLoop (body : ℕ → α → σ → LoopStep σ ρ) (finish : σ → ρ) : ℕ → ℕ → σ → List α → ρ
  | _, _, state, [] => finish state
  | skip + 1, index, state, _ :: items => indexLoop body finish skip (index + 1) state items
  | 0, index, state, item :: items =>
    match body index item state with
    | .next state skip => indexLoop body finish skip (index + 1) state items
    | .stop result => result

/-- **The rule of loops over positions.** -/
theorem indexLoop_rule {body : ℕ → α → σ → LoopStep σ ρ} {finish : σ → ρ} {all : List α}
    {P : ℕ → σ → Prop} {Q : ρ → Prop}
    (hnext : ∀ {index item state state' skip}, index < all.length → P index state →
      body index item state = .next state' skip → P (index + 1 + skip) state')
    (hstop : ∀ {index item state result}, index < all.length → P index state →
      body index item state = .stop result → Q result)
    (hfinish : ∀ {index state}, P index state → Q (finish state))
    {skip index : ℕ} {state : σ} {items : List α} (hitems : all.length ≤ index + items.length)
    (hindex : index + items.length ≤ all.length) (h : P (index + skip) state) :
    Q (indexLoop body finish skip index state items) := by
  induction items generalizing skip index state with
  | nil =>
    rw [indexLoop]
    exact hfinish h
  | cons item items ih =>
    rw [List.length_cons] at hitems hindex
    cases skip with
    | succ skip =>
      rw [indexLoop]
      exact ih (by omega) (by omega) (by rwa [Nat.add_right_comm, Nat.add_assoc])
    | zero =>
      rw [indexLoop]
      split
      next state' skip' hbody =>
        exact ih (by omega) (by omega) (hnext (by omega) h hbody)
      next result hbody => exact hstop (by omega) h hbody

/-- The loop goes on, in a state of a kind. -/
def LoopStep.GoesOn (P : σ → Prop) : LoopStep σ ρ → Prop
  | next state _ => P state
  | stop _ => False

theorem LoopStep.goesOn_ite {P : σ → Prop} {c : Prop} [Decidable c] {a b : LoopStep σ ρ}
    (ha : a.GoesOn P) (hb : b.GoesOn P) : (if c then a else b).GoesOn P := by
  split
  · exact ha
  · exact hb

/-- The rule of loops that are never stopped. -/
theorem indexLoop_of_goesOn {body : ℕ → α → σ → LoopStep σ ρ} {finish : σ → ρ} {P : σ → Prop}
    {Q : ρ → Prop} (hbody : ∀ index item state, P state → (body index item state).GoesOn P)
    (hfinish : ∀ state, P state → Q (finish state)) {skip index : ℕ} {state : σ} {items : List α}
    (h : P state) : Q (indexLoop body finish skip index state items) := by
  induction items generalizing skip index state with
  | nil => exact hfinish state h
  | cons item items ih =>
    cases skip with
    | succ skip => exact ih h
    | zero =>
      have hnext := hbody index item state h
      rw [indexLoop]
      cases hstep : body index item state with
      | next state skip =>
        rw [hstep] at hnext
        exact ih hnext
      | stop result =>
        rw [hstep] at hnext
        exact hnext.elim

end Awen
