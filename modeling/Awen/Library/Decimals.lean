import Awen.Library.Unicode

/-!
# Decimal numbers as code units

The digits that a number is written with, and the number that they are read as.
-/

namespace Awen

/-- The number that digits are read as. -/
def decimalValue (digits : CodeUnits) : ℕ :=
  digits.foldl (fun value u ↦ 10 * value + (u.toNat - 0x30)) 0

theorem toNat_bounds_of_mem_toDigits {n : ℕ} {c : Char} (h : c ∈ Nat.toDigits 10 n) :
    0x30 ≤ c.toNat ∧ c.toNat ≤ 0x39 := by
  have hdigit := Nat.isDigit_of_mem_toDigits (by decide) (by decide) h
  rw [Char.isDigit, Bool.and_eq_true, decide_eq_true_iff, decide_eq_true_iff] at hdigit
  exact hdigit

theorem unitsOf_toString (n : ℕ) :
    unitsOf (toString n) = (Nat.toDigits 10 n).map fun c ↦ UInt16.ofNat c.toNat := by
  rw [unitsOf, Nat.toString_eq_ofList_toDigits, String.toList_ofList, List.map_eq_flatMap]
  refine List.flatMap_congr fun c hc ↦ ?_
  have hbounds := toNat_bounds_of_mem_toDigits hc
  rw [utf16, if_pos (by omega)]

theorem toNat_ofNat_digit {c : Char} (h : c.toNat ≤ 0x39) :
    (UInt16.ofNat c.toNat).toNat = c.toNat := by
  rw [UInt16.toNat_ofNat']
  exact Nat.mod_eq_of_lt (by omega)

/-- A number is written with digits. -/
theorem bounds_of_mem_unitsOf_toString {n : ℕ} {u : UInt16} (h : u ∈ unitsOf (toString n)) :
    0x30 ≤ u.toNat ∧ u.toNat ≤ 0x39 := by
  rw [unitsOf_toString] at h
  obtain ⟨c, hc, rfl⟩ := List.mem_map.mp h
  have hbounds := toNat_bounds_of_mem_toDigits hc
  rw [toNat_ofNat_digit hbounds.2]
  exact hbounds

theorem unitsOf_toString_ne_nil (n : ℕ) : unitsOf (toString n) ≠ [] := by
  rw [unitsOf_toString]
  exact List.ne_nil_of_length_pos (by rw [List.length_map]; exact Nat.length_toDigits_pos)

/-- **A number that is written is read back.** -/
theorem decimalValue_unitsOf_toString (n : ℕ) : decimalValue (unitsOf (toString n)) = n := by
  have hfold : ∀ (digits : List Char) (value : ℕ),
      (∀ c ∈ digits, 0x30 ≤ c.toNat ∧ c.toNat ≤ 0x39) →
      (digits.map fun c ↦ UInt16.ofNat c.toNat).foldl
        (fun value u ↦ 10 * value + (u.toNat - 0x30)) value =
        Nat.ofDigitChars 10 digits value := by
    intro digits
    induction digits with
    | nil => exact fun _ _ ↦ rfl
    | cons c digits ih =>
      intro value hdigits
      have hbounds := hdigits c List.mem_cons_self
      rw [Nat.ofDigitChars_cons, ← ih _ fun d hd ↦ hdigits d (List.mem_cons_of_mem _ hd),
        List.map_cons, List.foldl_cons, toNat_ofNat_digit hbounds.2]
      rfl
  rw [decimalValue, unitsOf_toString, hfold _ _ fun c hc ↦ toNat_bounds_of_mem_toDigits hc,
    Nat.ofDigitChars_ten_toDigits]

end Awen
