import Awen.Library.StableSort
import Mathlib.Data.List.Induction
import Mathlib.Data.List.MinMax

/-!
# Electing the greatest item

A loop that keeps the item it has until a greater one comes up elects the first of the greatest
items, `List.argmax`, and so does the first item of a stable sort by falling rank. Items that are
told apart by their rank have one greatest among them, whatever their order.
-/

namespace Awen

variable {α β γ : Type*} [LinearOrder β] (rank : α → β)

/-- **The loop elects the first of the greatest items.** -/
theorem foldl_greater_eq_argmax (a : α) (items : List α) :
    some (items.foldl (fun best x ↦ if rank best < rank x then x else best) a) =
      (a :: items).argmax rank := by
  induction items using List.reverseRecOn with
  | nil => rfl
  | append_singleton items x ih =>
    rw [List.foldl_append, List.foldl_cons, List.foldl_nil, ← List.cons_append, List.argmax_concat,
      ← ih]
    simp only
    split <;> rfl

/-- The loop that begins with nothing. -/
theorem foldl_greater?_eq_argmax (items : List α) :
    items.foldl (fun best? x ↦
      match best? with
      | none => some x
      | some best => if rank best < rank x then some x else some best) none =
    items.argmax rank := by
  induction items using List.reverseRecOn with
  | nil => rfl
  | append_singleton items x ih =>
    rw [List.foldl_append, List.foldl_cons, List.foldl_nil, ih, List.argmax_concat]
    cases items.argmax rank <;> rfl

/-- The loop that passes over some of the items. -/
theorem foldl_greater?_filter_eq_argmax (p : α → Bool) (items : List α) :
    items.foldl (fun best? x ↦
      if p x && best?.all fun best ↦ decide (rank best < rank x) then some x else best?) none =
    (items.filter p).argmax rank := by
  induction items using List.reverseRecOn with
  | nil => rfl
  | append_singleton items x ih =>
    rw [List.foldl_append, List.foldl_cons, List.foldl_nil, ih, List.filter_append]
    by_cases hp : p x = true
    · rw [List.filter_cons_of_pos hp, List.filter_nil, List.argmax_concat, hp, Bool.true_and]
      cases (items.filter p).argmax rank with
      | none => rfl
      | some best => simp
    · rw [List.filter_cons_of_neg hp, List.filter_nil, List.append_nil, if_neg (by simp [hp])]

/-- **The first item of a stable sort that begins with the greatest** is the first of the greatest
items. -/
theorem head?_stableSort_eq_argmax {le : α → α → Bool} {items : List α}
    (hle : ∀ a ∈ items, ∀ b ∈ items, le a b = decide (rank b ≤ rank a)) :
    (stableSort le items).head? = items.argmax rank := by
  induction items with
  | nil => rfl
  | cons a items ih =>
    have ih := ih fun b hb c hc ↦ hle b (List.mem_cons_of_mem a hb) c (List.mem_cons_of_mem a hc)
    rw [stableSort, List.insertionSort_cons, ← stableSort, List.argmax_cons, ← ih]
    cases hsorted : stableSort le items with
    | nil => rfl
    | cons b sorted =>
      have hb : b ∈ items := mem_stableSort.mp (hsorted ▸ List.mem_cons_self)
      have hab := hle a List.mem_cons_self b (List.mem_cons_of_mem a hb)
      rw [List.orderedInsert_cons, hab, List.head?_cons]
      by_cases hlt : rank a < rank b
      · simp [hlt, not_le.mpr hlt]
      · simp [hlt, not_lt.mp hlt]
/-- Electing among images. -/
theorem argmax_map (f : γ → α) (items : List γ) :
    (items.map f).argmax rank = (items.argmax fun x ↦ rank (f x)).map f := by
  induction items using List.reverseRecOn with
  | nil => rfl
  | append_singleton items x ih =>
    rw [List.map_append, List.map_cons, List.map_nil, List.argmax_concat, List.argmax_concat, ih]
    cases items.argmax fun x ↦ rank (f x) with
    | none => rfl
    | some best => exact (apply_ite (Option.map f) _ (some x) (some best)).symm

variable {rank}

/-- **The greatest item is the greatest of any of the items that it is among.** -/
theorem argmax_filter_of_argmax {items : List α} {a : α} (h : items.argmax rank = some a)
    {p : α → Bool} (ha : p a = true) : (items.filter p).argmax rank = some a := by
  induction items using List.reverseRecOn generalizing a with
  | nil => exact nomatch h
  | append_singleton items x ih =>
    rw [List.argmax_concat] at h
    rw [List.filter_append]
    cases hbest : items.argmax rank with
    | none =>
      rw [hbest] at h
      obtain rfl := Option.some.inj h
      rw [List.argmax_eq_none.mp hbest, List.filter_nil, List.nil_append,
        List.filter_cons_of_pos ha]
      rfl
    | some best =>
      rw [hbest] at h
      dsimp only at h
      split at h
      next hlt =>
        obtain rfl := Option.some.inj h
        rw [List.filter_cons_of_pos ha, List.filter_nil, List.argmax_concat]
        cases hkept : (items.filter p).argmax rank with
        | none => rfl
        | some kept =>
          have hle := List.le_of_mem_argmax (List.mem_of_mem_filter (List.argmax_mem hkept)) hbest
          exact if_pos (hle.trans_lt hlt)
      next hlt =>
        obtain rfl := Option.some.inj h
        have hkept := ih hbest ha
        by_cases hx : p x = true
        · rw [List.filter_cons_of_pos hx, List.filter_nil, List.argmax_concat, hkept]
          exact if_neg hlt
        · rw [List.filter_cons_of_neg hx, List.filter_nil, List.append_nil, hkept]

/-- **The order of the items does not matter** where items of one rank are one item. -/
theorem argmax_eq_of_perm {items others : List α} (hperm : items.Perm others)
    (hrank : ∀ a ∈ items, ∀ b ∈ items, rank a = rank b → a = b) :
    items.argmax rank = others.argmax rank := by
  cases hfirst : items.argmax rank with
  | none =>
    rw [List.argmax_eq_none] at hfirst
    subst hfirst
    rw [← hperm.nil_eq]
    rfl
  | some a =>
    cases hsecond : others.argmax rank with
    | none =>
      rw [List.argmax_eq_none] at hsecond
      subst hsecond
      rw [hperm.eq_nil] at hfirst
      exact nomatch hfirst
    | some b =>
      have ha := List.argmax_mem hfirst
      have hb := hperm.mem_iff.mpr (List.argmax_mem hsecond)
      rw [hrank a ha b hb (le_antisymm (List.le_of_mem_argmax (hperm.mem_iff.mp ha) hsecond)
        (List.le_of_mem_argmax hb hfirst))]

end Awen
