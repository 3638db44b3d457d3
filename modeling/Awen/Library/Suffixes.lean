import Mathlib.Data.List.Basic
import Mathlib.Data.List.Induction

/-!
# What holds of every item and the items after it

`EveryRest P items` says that `P` holds of each item of a list together with the items that come
after it, and `SomeRest P items` that it holds of one; the former is decided by recursion over the
list. `filterRest keep items` are the items that pass a
test on them and the items after them, as a list does that is thinned out from its old end.
-/

namespace Awen

variable {α : Type*} {P Q : α → List α → Prop}

/-- A property of every item and the items after it. -/
def EveryRest (P : α → List α → Prop) (items : List α) : Prop :=
  ∀ before a after, items = before ++ a :: after → P a after

theorem everyRest_nil : EveryRest P [] := by
  intro before a after h
  simp at h

theorem everyRest_cons {a : α} {items : List α} :
    EveryRest P (a :: items) ↔ P a items ∧ EveryRest P items := by
  constructor
  · intro h
    exact ⟨h [] a items rfl, fun before b after hsplit ↦
      h (a :: before) b after (by rw [hsplit, List.cons_append])⟩
  · rintro ⟨ha, h⟩ before b after hsplit
    cases before with
    | nil =>
      obtain ⟨rfl, rfl⟩ := List.cons.inj hsplit
      exact ha
    | cons x before => exact h before b after (List.cons.inj hsplit).2

instance EveryRest.decidable [∀ a after, Decidable (P a after)] :
    (items : List α) → Decidable (EveryRest P items)
  | [] => .isTrue everyRest_nil
  | a :: items =>
    have := EveryRest.decidable items
    decidable_of_iff (P a items ∧ EveryRest P items) everyRest_cons.symm

/-- A property of some item and the items after it. -/
def SomeRest (P : α → List α → Prop) (items : List α) : Prop :=
  ∃ before a after, items = before ++ a :: after ∧ P a after

theorem not_someRest_nil : ¬ SomeRest P [] := by
  rintro ⟨before, a, after, h, -⟩
  simp at h

/-- One more item: it has the property, or an earlier one has it with that item after it. -/
theorem someRest_concat {items : List α} {x : α} :
    SomeRest P (items ++ [x]) ↔ P x [] ∨ SomeRest (fun a after ↦ P a (after ++ [x])) items := by
  constructor
  · rintro ⟨before, a, after, hsplit, ha⟩
    induction after using List.reverseRecOn with
    | nil =>
      obtain ⟨-, hx⟩ := List.append_inj' hsplit rfl
      obtain rfl := (List.cons.inj hx).1
      exact .inl ha
    | append_singleton after y _ =>
      rw [← List.cons_append, ← List.append_assoc] at hsplit
      obtain ⟨hitems, hx⟩ := List.append_inj' hsplit rfl
      obtain rfl := (List.cons.inj hx).1
      exact .inr ⟨before, a, after, hitems, ha⟩
  · rintro (hx | ⟨before, a, after, rfl, ha⟩)
    · exact ⟨items, x, [], rfl, hx⟩
    · exact ⟨before, a, after ++ [x], by simp, ha⟩

theorem SomeRest.mono {items : List α} (h : SomeRest P items)
    (hPQ : ∀ a after, P a after → Q a after) : SomeRest Q items := by
  obtain ⟨before, a, after, hsplit, ha⟩ := h
  exact ⟨before, a, after, hsplit, hPQ a after ha⟩

/-! ## Filtering -/

/-- The items that pass a test on them and the items after them. -/
def filterRest (keep : α → List α → Bool) : List α → List α
  | [] => []
  | a :: after => if keep a after then a :: filterRest keep after else filterRest keep after

section Filter

variable {keep keep' : α → List α → Bool} {items : List α}

theorem filterRest_sublist (keep : α → List α → Bool) (items : List α) :
    (filterRest keep items).Sublist items := by
  induction items with
  | nil => exact List.Sublist.refl _
  | cons a items ih =>
    rw [filterRest]
    split
    · exact ih.cons_cons a
    · exact ih.cons a

/-- The items that are kept of an append. -/
theorem filterRest_append (keep : α → List α → Bool) (before after : List α) :
    filterRest keep (before ++ after) =
      filterRest (fun a rest ↦ keep a (rest ++ after)) before ++ filterRest keep after := by
  induction before with
  | nil => rfl
  | cons a before ih =>
    rw [List.cons_append, filterRest, filterRest, ih]
    split <;> rfl

/-- Where an item stands that is kept. -/
theorem exists_of_filterRest_eq {before after : List α} {a : α}
    (h : filterRest keep items = before ++ a :: after) :
    ∃ before' after', items = before' ++ a :: after' ∧ keep a after' = true ∧
      after = filterRest keep after' := by
  induction items generalizing before with
  | nil => simp [filterRest] at h
  | cons x items ih =>
    rw [filterRest] at h
    split at h
    · rename_i hx
      cases before with
      | nil =>
        obtain ⟨rfl, hafter⟩ := List.cons.inj h
        exact ⟨[], items, rfl, hx, hafter.symm⟩
      | cons y before =>
        obtain ⟨before', after', rfl, ha⟩ := ih (List.cons.inj h).2
        exact ⟨x :: before', after', rfl, ha⟩
    · obtain ⟨before', after', rfl, ha⟩ := ih h
      exact ⟨x :: before', after', rfl, ha⟩

theorem filterRest_of_keep {before after : List α} {a : α} (h : keep a after = true) :
    ∃ before', filterRest keep (before ++ a :: after) = before' ++ a :: filterRest keep after := by
  rw [filterRest_append, filterRest, if_pos h]
  exact ⟨_, rfl⟩

theorem mem_filterRest_iff {a : α} :
    a ∈ filterRest keep items ↔
      ∃ before after, items = before ++ a :: after ∧ keep a after = true := by
  constructor
  · intro h
    obtain ⟨before, after, h⟩ := List.append_of_mem h
    obtain ⟨before', after', hitems, ha, -⟩ := exists_of_filterRest_eq h
    exact ⟨before', after', hitems, ha⟩
  · rintro ⟨before, after, rfl, ha⟩
    obtain ⟨before', h⟩ := filterRest_of_keep ha
    rw [h]
    exact List.mem_append_right _ List.mem_cons_self

/-- Two tests that agree on every item and the items after it. -/
theorem filterRest_congr (h : EveryRest (fun a after ↦ keep a after = keep' a after) items) :
    filterRest keep items = filterRest keep' items := by
  induction items with
  | nil => rfl
  | cons a items ih =>
    rw [everyRest_cons] at h
    rw [filterRest, filterRest, h.1, ih h.2]

/-- A test that every item passes. -/
theorem filterRest_eq_self (h : EveryRest (fun a after ↦ keep a after = true) items) :
    filterRest keep items = items := by
  induction items with
  | nil => rfl
  | cons a items ih =>
    rw [everyRest_cons] at h
    rw [filterRest, if_pos h.1, ih h.2]

/-- Filtering twice. -/
theorem filterRest_filterRest (keep keep' : α → List α → Bool) (items : List α) :
    filterRest keep' (filterRest keep items) =
      filterRest (fun a after ↦ keep a after && keep' a (filterRest keep after)) items := by
  induction items with
  | nil => rfl
  | cons a items ih =>
    rw [filterRest, filterRest]
    by_cases ha : keep a items = true
    · rw [if_pos ha, filterRest, ha, Bool.true_and, ih]
    · have hfalse : keep a items = false := by simpa using ha
      rw [if_neg ha, ih, hfalse, Bool.false_and]
      rfl

/-- A filter that tells items by their positions is one that tells them by the items after them. -/
theorem map_fst_filter_zipIdx {keepAt : α × ℕ → Bool} (n : ℕ)
    (h : ∀ before a after, items = before ++ a :: after →
      keepAt (a, n + before.length) = keep a after) :
    ((items.zipIdx n).filter keepAt).map Prod.fst = filterRest keep items := by
  induction items generalizing n with
  | nil => rfl
  | cons a items ih =>
    have ha : keepAt (a, n) = keep a items := h [] a items rfl
    have htail := ih (n + 1) fun before b after hsplit ↦ by
      have hb := h (a :: before) b after (by rw [hsplit, List.cons_append])
      rwa [List.length_cons, Nat.add_comm before.length, ← Nat.add_assoc] at hb
    rw [List.zipIdx_cons, List.filter_cons, filterRest, ha]
    split
    · rw [List.map_cons, htail]
    · exact htail

end Filter

end Awen
