import Mathlib.Data.List.Basic

/-!
# Scanners that can wait for more input

`next` reads the first token of an input: its length, and whether it is kept. It answers `none`
while the input could still go on in a way that decides, and what it has decided more input does not
change. `scan` reads tokens as long as it can and returns what it keeps and the rest it waits with.
`scan_append` says that an input may be scanned in parts, each behind the rest of the part before.
-/

namespace Awen

variable {α : Type*}

/-- A reader of tokens. -/
structure Scanner (α : Type*) where
  next : List α → Option (ℕ × Bool)
  next_pos : ∀ {input token}, next input = some token → 0 < token.1
  next_le : ∀ {input token}, next input = some token → token.1 ≤ input.length
  next_append : ∀ {input token} rest, next input = some token → next (input ++ rest) = some token

namespace Scanner

variable (S : Scanner α)

/-- Read tokens while the fuel lasts. -/
def scanWith : ℕ → List α → List α × List α
  | 0, input => ([], input)
  | fuel + 1, input =>
    match S.next input with
    | none => ([], input)
    | some (length, keep) =>
      let (kept, rest) := scanWith fuel (input.drop length)
      ((if keep then input.take length else []) ++ kept, rest)

/-- What is kept of an input, and the rest. A token is not empty, so that as many steps as the input
is long are enough. -/
def scan (input : List α) : List α × List α := S.scanWith input.length input

variable {S}

theorem next_nil : S.next [] = none := by
  cases h : S.next [] with
  | none => rfl
  | some token =>
    have hpos := S.next_pos h
    have hle := S.next_le h
    rw [List.length_nil] at hle
    omega

/-- Fuel that is enough. -/
theorem scanWith_eq {fuel : ℕ} {input : List α} (h : input.length ≤ fuel) :
    S.scanWith fuel input = S.scan input := by
  suffices hall : ∀ n m (input : List α), input.length ≤ n → input.length ≤ m →
      S.scanWith n input = S.scanWith m input from hall _ _ input h (Nat.le_refl _)
  intro n
  induction n with
  | zero =>
    intro m input hn _
    obtain rfl := List.eq_nil_of_length_eq_zero (Nat.le_zero.mp hn)
    cases m with
    | zero => rfl
    | succ m => rw [scanWith, scanWith, next_nil]
  | succ n ih =>
    intro m input hn hm
    cases m with
    | zero =>
      obtain rfl := List.eq_nil_of_length_eq_zero (Nat.le_zero.mp hm)
      rw [scanWith, scanWith, next_nil]
    | succ m =>
      rw [scanWith, scanWith]
      cases hnext : S.next input with
      | none => rfl
      | some token =>
        have hpos := S.next_pos hnext
        have hle := S.next_le hnext
        simp only
        rw [ih m (input.drop token.1) (by rw [List.length_drop]; omega)
          (by rw [List.length_drop]; omega)]

theorem scan_of_next_none {input : List α} (h : S.next input = none) :
    S.scan input = ([], input) := by
  rw [scan]
  cases input with
  | nil => rfl
  | cons a input => rw [List.length_cons, scanWith, h]

theorem scan_nil : S.scan [] = ([], []) := scan_of_next_none next_nil

/-- One token, and then the rest of the input. -/
theorem scan_of_next {input : List α} {length : ℕ} {keep : Bool}
    (h : S.next input = some (length, keep)) :
    S.scan input = ((if keep then input.take length else []) ++ (S.scan (input.drop length)).1,
      (S.scan (input.drop length)).2) := by
  have hpos := S.next_pos h
  have hle := S.next_le h
  obtain ⟨fuel, hfuel⟩ := Nat.exists_eq_add_one.mpr (Nat.lt_of_lt_of_le hpos hle)
  rw [scan, hfuel, scanWith, h]
  simp only
  rw [scanWith_eq (by rw [List.length_drop]; omega)]

/-- **Induction along a scan**: an input that is waited with, or a token and then a shorter
input. -/
theorem scan_induction {P : List α → Prop} (hwait : ∀ input, S.next input = none → P input)
    (htoken : ∀ input length keep, S.next input = some (length, keep) → P (input.drop length) →
      P input) (input : List α) : P input := by
  induction h : input.length using Nat.strongRecOn generalizing input with
  | ind n ih =>
    cases hnext : S.next input with
    | none => exact hwait input hnext
    | some token =>
      have hpos := S.next_pos hnext
      have hle := S.next_le hnext
      exact htoken input token.1 token.2 hnext (ih (input.length - token.1) (by omega) _
        (List.length_drop ..))

/-- **An input may be scanned in parts.** -/
theorem scan_append (input more : List α) :
    S.scan (input ++ more) = ((S.scan input).1 ++ (S.scan ((S.scan input).2 ++ more)).1,
      (S.scan ((S.scan input).2 ++ more)).2) := by
  induction input using S.scan_induction with
  | hwait input h => rw [scan_of_next_none h, List.nil_append]
  | htoken input length keep h ih =>
    have hle := S.next_le h
    rw [scan_of_next (S.next_append more h), scan_of_next h, List.drop_append_of_le_length hle, ih,
      List.take_append_of_le_length hle]
    simp only [List.append_assoc]

/-! ## Where tokens begin -/

/-- What is left of an input where a token begins, while the fuel lasts. -/
def restsWith (S : Scanner α) : ℕ → List α → List (List α)
  | 0, input => [input]
  | fuel + 1, input => input :: match S.next input with
    | none => []
    | some (length, _) => restsWith S fuel (input.drop length)

/-- What is left of an input where a token begins. -/
def rests (S : Scanner α) (input : List α) : List (List α) := S.restsWith input.length input

/-- What a token leaves of an input is said of every place where a token begins. -/
theorem forall_mem_rests {P : List α → Prop}
    (hnext : ∀ input length keep, P input → S.next input = some (length, keep) →
      P (input.drop length)) {input : List α} (h : P input) : ∀ rest ∈ S.rests input, P rest := by
  suffices hall : ∀ fuel input, P input → ∀ rest ∈ S.restsWith fuel input, P rest from
    hall input.length input h
  intro fuel
  induction fuel with
  | zero =>
    intro input h rest hrest
    rwa [List.mem_singleton.mp hrest]
  | succ fuel ih =>
    intro input h rest hrest
    rw [restsWith] at hrest
    rcases List.mem_cons.mp hrest with rfl | hrest
    · exact h
    · cases htoken : S.next input with
      | none =>
        rw [htoken] at hrest
        cases hrest
      | some token =>
        rw [htoken] at hrest
        exact ih _ (hnext input token.1 token.2 h htoken) rest hrest

end Scanner

end Awen
