import Mathlib.Data.List.Basic

/-!
# The longest suffix with a property

`longestSuffix p items` is the longest suffix of a list that has a property. If the suffixes of a
list with the property have it too, then it is found by one look at the item before it
(`eq_longestSuffix`), and if also its prefixes have it, then what a list loses at its front does not
depend on how the list came to be (`longestSuffix_append`).
-/

namespace Awen

variable {α : Type*} (p : List α → Prop) [DecidablePred p]

/-- The longest suffix with a property, and the empty list if there is none. -/
def longestSuffix : List α → List α
  | [] => []
  | a :: items => if p (a :: items) then a :: items else longestSuffix items

variable {p}

theorem longestSuffix_suffix (items : List α) : longestSuffix p items <:+ items := by
  induction items with
  | nil => exact List.suffix_refl _
  | cons a items ih =>
    rw [longestSuffix]
    split
    · exact List.suffix_refl _
    · exact ih.trans (List.suffix_cons a items)

theorem longestSuffix_spec (hnil : p []) (items : List α) : p (longestSuffix p items) := by
  induction items with
  | nil => exact hnil
  | cons a items ih =>
    rw [longestSuffix]
    split
    · assumption
    · exact ih

/-- A suffix with the property is one of the longest. -/
theorem suffix_longestSuffix {items other : List α} (h : other <:+ items) (hp : p other) :
    other <:+ longestSuffix p items := by
  induction items with
  | nil => exact h
  | cons a items ih =>
    rw [longestSuffix]
    split
    · exact h
    · rename_i hnot
      rcases List.suffix_cons_iff.mp h with rfl | h
      · exact absurd hp hnot
      · exact ih h

theorem longestSuffix_of_pos {items : List α} (h : p items) : longestSuffix p items = items :=
  (suffix_longestSuffix (List.suffix_refl items) h).eq_of_length_le
    (longestSuffix_suffix items).length_le |>.symm

/-- What is cut off, and why no less is. -/
theorem exists_eq_append_longestSuffix (items : List α) :
    ∃ front, items = front ++ longestSuffix p items ∧
      ∀ a, front.getLast? = some a → ¬p (a :: longestSuffix p items) := by
  obtain ⟨front, hfront⟩ := longestSuffix_suffix (p := p) items
  refine ⟨front, hfront.symm, fun a ha hp ↦ ?_⟩
  obtain ⟨initial, hinitial⟩ := List.getLast?_eq_some_iff.mp ha
  have hsuffix : a :: longestSuffix p items <:+ items := by
    refine ⟨initial, Eq.trans ?_ hfront⟩
    rw [hinitial, List.append_assoc]
    rfl
  have hle := (suffix_longestSuffix hsuffix hp).length_le
  rw [List.length_cons] at hle
  omega

/-- **A front goes if its last item does.** -/
theorem longestSuffix_of_front
    (hsuffix : ∀ {items other : List α}, other <:+ items → p items → p other)
    {front items : List α} (hfront : ∀ a, front.getLast? = some a → ¬p (a :: items)) :
    longestSuffix p (front ++ items) = longestSuffix p items := by
  induction front with
  | nil => rfl
  | cons a front ih =>
    have hnot : ¬p (a :: (front ++ items)) := by
      intro hall
      cases hlast : (a :: front).getLast? with
      | none => simp at hlast
      | some b =>
        obtain ⟨initial, hinitial⟩ := List.getLast?_eq_some_iff.mp hlast
        refine hfront b hlast (hsuffix ⟨initial, ?_⟩ hall)
        rw [← List.cons_append, hinitial, List.append_assoc]
        rfl
    rw [List.cons_append, longestSuffix, if_neg hnot]
    refine ih fun b hb ↦ hfront b ?_
    rw [List.getLast?_cons, hb]
    rfl

/-- **One look at the item before decides.** -/
theorem eq_longestSuffix (hsuffix : ∀ {items other : List α}, other <:+ items → p items → p other)
    {front items : List α} (hp : p items)
    (hfront : ∀ a, front.getLast? = some a → ¬p (a :: items)) :
    longestSuffix p (front ++ items) = items :=
  (longestSuffix_of_front hsuffix hfront).trans (longestSuffix_of_pos hp)

/-- **A list may lose its front before it grows at its end.** -/
theorem longestSuffix_append (hinitial : ∀ {items more : List α}, p (items ++ more) → p items)
    (items more : List α) :
    longestSuffix p (longestSuffix p items ++ more) = longestSuffix p (items ++ more) := by
  induction items with
  | nil => rfl
  | cons a items ih =>
    rw [longestSuffix]
    split
    · rfl
    · rename_i hnot
      have hmore : ¬p (a :: (items ++ more)) := fun hall ↦ hnot (hinitial hall)
      rw [ih, List.cons_append, longestSuffix, if_neg hmore]

end Awen
