import Mathlib.Data.List.Perm.Basic
import Mathlib.Algebra.BigOperators.Group.List.Basic

/-!
# Inserting into and removing from the middle of a list

`insertAt i x l` is the array operation `splice(i, 0, x)`: the element lands before position `i`,
and an index past the end appends. Every lemma is a consequence of the one permutation
`insertAt_perm`, so that no later proof reasons about positions when only the elements matter.
-/

namespace Awen

variable {α β : Type*}

/-- Insert an element before position `i`; past the end it is appended. -/
def insertAt (i : ℕ) (x : α) (l : List α) : List α := l.take i ++ x :: l.drop i

theorem insertAt_perm (i : ℕ) (x : α) (l : List α) : (insertAt i x l).Perm (x :: l) := by
  rw [insertAt]
  exact List.perm_middle.trans (by rw [List.take_append_drop])

/-- Inserting leaves the other elements in their order. -/
theorem sublist_insertAt (i : ℕ) (x : α) (l : List α) : l.Sublist (insertAt i x l) := by
  have hsub : (l.take i ++ l.drop i).Sublist (insertAt i x l) :=
    (List.sublist_cons_self x (l.drop i)).append_left (l.take i)
  rwa [List.take_append_drop] at hsub

@[simp] theorem length_insertAt (i : ℕ) (x : α) (l : List α) :
    (insertAt i x l).length = l.length + 1 := (insertAt_perm i x l).length_eq

@[simp] theorem mem_insertAt {i : ℕ} {x y : α} {l : List α} :
    y ∈ insertAt i x l ↔ y = x ∨ y ∈ l := by
  rw [(insertAt_perm i x l).mem_iff, List.mem_cons]

theorem eraseIdx_perm {i : ℕ} {x : α} {l : List α} (h : l[i]? = some x) :
    l.Perm (x :: l.eraseIdx i) := by
  obtain ⟨hi, rfl⟩ := List.getElem?_eq_some_iff.mp h
  exact (List.getElem_cons_eraseIdx_perm hi).symm

/-- Moving one element is a permutation. -/
theorem insertAt_eraseIdx_perm {i j : ℕ} {x : α} {l : List α} (h : l[i]? = some x) :
    (insertAt j x (l.eraseIdx i)).Perm l :=
  (insertAt_perm j x _).trans (eraseIdx_perm h).symm

theorem insertAt_eraseIdx_self {i : ℕ} {x : α} {l : List α} (h : l[i]? = some x) :
    insertAt i x (l.eraseIdx i) = l := by
  obtain ⟨hi, rfl⟩ := List.getElem?_eq_some_iff.mp h
  have hlen : (l.take i).length = i := List.length_take_of_le (Nat.le_of_lt hi)
  rw [insertAt, List.eraseIdx_eq_take_drop_succ, List.take_left' hlen, List.drop_left' hlen,
    List.getElem_cons_drop, List.take_append_drop]

/-- Inserting right before an element. -/
theorem insertAt_append_left (x y : α) (l r : List α) :
    insertAt l.length x (l ++ y :: r) = l ++ x :: y :: r := by
  rw [insertAt, List.take_left' rfl, List.drop_left' rfl]

/-- Inserting right after an element. -/
theorem insertAt_append_right (x y : α) (l r : List α) :
    insertAt (l.length + 1) x (l ++ y :: r) = l ++ y :: x :: r := by
  have hsplit : l ++ y :: r = (l ++ [y]) ++ r := by simp
  have hlen : (l ++ [y]).length = l.length + 1 := by simp
  rw [insertAt, hsplit, List.take_left' hlen, List.drop_left' hlen, List.append_assoc,
    List.singleton_append]

/-- Overwriting one element exchanges it for the new one. -/
theorem set_perm {i : ℕ} {x y : α} {l : List α} (h : l[i]? = some x) :
    (x :: l.set i y).Perm (y :: l) := by
  have hi : i < l.length := (List.getElem?_eq_some_iff.mp h).1
  exact ((List.set_perm_cons_eraseIdx hi y).cons x).trans
    ((List.Perm.swap y x _).trans ((eraseIdx_perm h).symm.cons y))

/-- Exchange the elements at two positions; a position without an element changes nothing. -/
def swapAt (i j : ℕ) (l : List α) : List α :=
  match l[i]?, l[j]? with
  | some x, some y => (l.set i y).set j x
  | _, _ => l

theorem swapAt_perm (i j : ℕ) (l : List α) : (swapAt i j l).Perm l := by
  rw [swapAt]
  split
  · rename_i x y hx hy
    have hy' : (l.set i y)[j]? = some y := by
      obtain ⟨hj, rfl⟩ := List.getElem?_eq_some_iff.mp hy
      rw [List.getElem?_set]
      split
      · rename_i hij
        subst hij
        rw [if_pos hj]
      · exact hy
    exact List.Perm.cons_inv ((set_perm hy').trans (set_perm hx))
  · exact List.Perm.refl l

theorem filter_ne_eq_self [DecidableEq α] {l : List α} {a : α} (h : a ∉ l) :
    l.filter (· ≠ a) = l :=
  List.filter_eq_self.mpr fun x hx ↦ decide_eq_true fun (heq : x = a) ↦ h (heq ▸ hx)

theorem erase_eq_filter_ne [DecidableEq α] {l : List α} (h : l.Nodup) (a : α) :
    l.erase a = l.filter (· ≠ a) :=
  (h.erase_eq_filter a).trans (List.filter_congr fun x _ ↦ by
    rw [bne, beq_eq_decide, decide_not])

/-- Changing one element in place, seen from its position. -/
theorem modify_eq_append_cons {i : ℕ} {x : α} {l : List α} (f : α → α) (h : l[i]? = some x) :
    ∃ l₁ l₂, l = l₁ ++ x :: l₂ ∧ l₁.length = i ∧ l.modify i f = l₁ ++ f x :: l₂ := by
  obtain ⟨hi, rfl⟩ := List.getElem?_eq_some_iff.mp h
  refine ⟨l.take i, l.drop (i + 1), ?_, List.length_take_of_le (Nat.le_of_lt hi), ?_⟩
  · rw [List.getElem_cons_drop, List.take_append_drop]
  · rw [List.modify_eq_take_cons_drop hi]

end Awen
