import Awen.Shared.JsRuntime

/-!
# Strings and their code units

Strings are ordered by their code units. The code units of a string determine it, so that strings
that the order does not tell apart are equal.
-/

namespace Awen

theorem utf16Units_append_inj {c d : Char} {rest rest' : List ℕ}
    (h : utf16Units c ++ rest = utf16Units d ++ rest') : c = d ∧ rest = rest' := by
  have hvalid (c : Char) : c.toNat < 0xd800 ∨ 0xdfff < c.toNat ∧ c.toNat < 0x110000 := c.valid
  have hc := hvalid c
  have hd := hvalid d
  have hchar (heq : c.toNat = d.toNat) : c = d := Char.toNat_inj.mp heq
  unfold utf16Units at h
  -- a code unit of a pair is no character of its own
  split at h <;> split at h <;> simp only [List.cons_append, List.nil_append, List.cons.injEq] at h
  · exact ⟨hchar h.1, h.2⟩
  · omega
  · omega
  · exact ⟨hchar (by omega), h.2.2⟩

/-- **The code units determine the characters.** -/
theorem flatMap_utf16Units_inj {left right : List Char}
    (h : left.flatMap utf16Units = right.flatMap utf16Units) : left = right := by
  have hne (c : Char) : utf16Units c ≠ [] := by
    rw [utf16Units]
    split <;> simp
  induction left generalizing right with
  | nil =>
    cases right with
    | nil => rfl
    | cons d right => simp [hne] at h
  | cons c left ih =>
    cases right with
    | nil => simp [hne] at h
    | cons d right =>
      rw [List.flatMap_cons, List.flatMap_cons] at h
      obtain ⟨rfl, hrest⟩ := utf16Units_append_inj h
      rw [ih hrest]

end Awen
