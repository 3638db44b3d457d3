import Mathlib.Data.List.Pairwise
import Mathlib.Data.List.Sort

/-!
# Stable sorting by a comparison

`stableSort le` sorts a list by a comparison that is given as a program. It keeps the order of
items that the comparison does not tell apart, as the sorting methods of scripting languages
promise, and it computes by structural recursion. A comparison is *consistent* when it is total and
transitive; then the result is sorted.
-/

namespace Awen

variable {α : Type*}

/-- Sort by a comparison; equal items stay in their order. -/
def stableSort (le : α → α → Bool) (items : List α) : List α :=
  items.insertionSort fun a b ↦ le a b = true

/-- A comparison that is total and transitive. -/
structure ConsistentLe (le : α → α → Bool) : Prop where
  total : ∀ a b, le a b = true ∨ le b a = true
  trans : ∀ a b c, le a b = true → le b c = true → le a c = true

section

variable {le : α → α → Bool} {items : List α}

theorem stableSort_perm (le : α → α → Bool) (items : List α) : (stableSort le items).Perm items :=
  List.perm_insertionSort _ _

@[simp] theorem mem_stableSort {a : α} : a ∈ stableSort le items ↔ a ∈ items :=
  List.mem_insertionSort _

@[simp] theorem length_stableSort : (stableSort le items).length = items.length :=
  List.length_insertionSort _ _

theorem ConsistentLe.refl (h : ConsistentLe le) (a : α) : le a a = true :=
  (h.total a a).elim id id

/-- Comparing by a key is consistent if comparing keys is. -/
theorem transCmp_comap {β : Type*} (cmp : β → β → Ordering) [Std.TransCmp cmp]
    (f : α → β) : Std.TransCmp fun l r ↦ cmp (f l) (f r) where
  eq_swap := Std.OrientedCmp.eq_swap
  isLE_trans := Std.TransCmp.isLE_trans

/-- A consistent comparison function gives a consistent comparison. -/
theorem consistentLe_isLE (cmp : α → α → Ordering) [Std.TransCmp cmp] :
    ConsistentLe fun a b ↦ (cmp a b).isLE where
  total a b := by
    by_cases h : (cmp a b).isLE = true
    · exact .inl h
    · exact .inr (Ordering.isLE_of_eq_lt (Std.OrientedCmp.lt_of_not_isLE h))
  trans _ _ _ := Std.TransCmp.isLE_trans

/-- **The result is sorted.** -/
theorem ConsistentLe.pairwise_stableSort (h : ConsistentLe le) (items : List α) :
    (stableSort le items).Pairwise fun a b ↦ le a b = true := by
  have : Std.Total fun a b ↦ le a b = true := ⟨h.total⟩
  have : IsTrans α fun a b ↦ le a b = true := ⟨h.trans⟩
  exact List.pairwise_insertionSort _ items

/-- Sorting a sorted list does nothing. -/
theorem stableSort_of_pairwise (h : items.Pairwise fun a b ↦ le a b = true) :
    stableSort le items = items :=
  h.insertionSort_eq

/-- **A new item takes its place after the items that are not greater.** -/
theorem ConsistentLe.stableSort_concat (h : ConsistentLe le)
    (hsorted : items.Pairwise fun a b ↦ le a b = true) (a : α) :
    stableSort le (items ++ [a]) =
      items.takeWhile (le · a) ++ a :: items.dropWhile (le · a) := by
  induction items with
  | nil => rfl
  | cons x items ih =>
    rw [List.pairwise_cons] at hsorted
    rw [stableSort, List.cons_append, List.insertionSort_cons, ← stableSort, ih hsorted.2]
    by_cases hx : le x a = true
    · have hfirst : ∀ y ∈ items.takeWhile (le · a) ++ a :: items.dropWhile (le · a),
          le x y = true := by
        intro y hy
        rcases List.mem_append.mp hy with hy | hy
        · exact hsorted.1 y (List.takeWhile_subset _ hy)
        · rcases List.mem_cons.mp hy with rfl | hy
          · exact hx
          · exact hsorted.1 y (List.dropWhile_subset _ hy)
      rw [List.takeWhile_cons, List.dropWhile_cons, if_pos hx, if_pos hx, List.cons_append]
      cases hrest : items.takeWhile (le · a) ++ a :: items.dropWhile (le · a) with
      | nil => rfl
      | cons y rest => exact List.orderedInsert_cons_of_le _ rest (hfirst y (by simp [hrest]))
    · have hnone : items.takeWhile (le · a) = [] := by
        cases items with
        | nil => rfl
        | cons y items =>
          rw [List.takeWhile_cons, if_neg fun hy ↦ hx ?_]
          exact h.trans x y a (hsorted.1 y List.mem_cons_self) hy
      have hall : items.dropWhile (le · a) = items := by
        conv_rhs => rw [← List.takeWhile_append_dropWhile (p := (le · a)) (l := items), hnone]
        rfl
      rw [List.takeWhile_cons, List.dropWhile_cons, if_neg hx, if_neg hx, hnone, hall,
        List.nil_append, List.nil_append, List.orderedInsert_cons, if_neg hx]
      congr 1
      cases items with
      | nil => rfl
      | cons y items =>
        exact List.orderedInsert_cons_of_le _ items (hsorted.1 y List.mem_cons_self)

/-- **The place of a new item** in a sorted list, by the items that are not greater. -/
theorem ConsistentLe.le_iff_lt_length_takeWhile (h : ConsistentLe le)
    (hsorted : items.Pairwise fun a b ↦ le a b = true) (a : α) {i : ℕ} {b : α}
    (hb : items[i]? = some b) : le b a = true ↔ i < (items.takeWhile (le · a)).length := by
  induction items generalizing i with
  | nil => exact nomatch hb
  | cons x items ih =>
    rw [List.pairwise_cons] at hsorted
    rw [List.takeWhile_cons]
    cases i with
    | zero =>
      obtain rfl := Option.some.inj hb
      by_cases hx : le x a = true
      · simp [hx]
      · simp [hx]
    | succ i =>
      rw [List.getElem?_cons_succ] at hb
      have hxb := hsorted.1 b (List.mem_of_getElem? hb)
      by_cases hx : le x a = true
      · rw [if_pos hx, List.length_cons, Nat.succ_lt_succ_iff]
        exact ih hsorted.2 hb
      · rw [if_neg hx]
        exact iff_of_false (fun hba ↦ hx (h.trans x b a hxb hba)) (Nat.not_lt_zero _)

private theorem ConsistentLe.filter_orderedInsert (h : ConsistentLe le) (p : α → Bool) (a : α) :
    ∀ {items : List α}, (items.Pairwise fun a b ↦ le a b = true) →
      (items.orderedInsert (fun a b ↦ le a b = true) a).filter p =
        if p a then (items.filter p).orderedInsert (fun a b ↦ le a b = true) a
        else items.filter p
  | [], _ => by
    rw [List.orderedInsert_nil, List.filter_nil, List.orderedInsert_nil, List.filter_cons,
      List.filter_nil]
  | b :: items, hsorted => by
    rw [List.pairwise_cons] at hsorted
    by_cases hab : le a b = true
    · rw [List.orderedInsert_cons_of_le _ items hab, List.filter_cons]
      split
      next =>
        -- what is kept of the list is not less than its first item, so not than the new one
        cases hkept : (b :: items).filter p with
        | nil => rfl
        | cons c kept =>
          have hc : c ∈ b :: items := List.mem_of_mem_filter (hkept ▸ List.mem_cons_self)
          refine (List.orderedInsert_cons_of_le _ kept ?_).symm
          rcases List.mem_cons.mp hc with rfl | hc
          · exact hab
          · exact h.trans a b c hab (hsorted.1 c hc)
      next => rfl
    · rw [List.orderedInsert_of_not_le _ items hab, List.filter_cons,
        h.filter_orderedInsert p a hsorted.2, List.filter_cons]
      by_cases hb : p b = true
      · rw [if_pos hb, if_pos hb]
        split
        next => rw [List.orderedInsert_of_not_le _ (items.filter p) hab]
        next => rfl
      · rw [if_neg hb, if_neg hb]

/-- **Sorting keeps up with filtering.** -/
theorem ConsistentLe.stableSort_filter (h : ConsistentLe le) (p : α → Bool) (items : List α) :
    stableSort le (items.filter p) = (stableSort le items).filter p := by
  induction items with
  | nil => rfl
  | cons a items ih =>
    have hinsert := h.filter_orderedInsert p a (h.pairwise_stableSort items)
    rw [← ih] at hinsert
    refine Eq.trans ?_ hinsert.symm
    rw [List.filter_cons]
    split
    next => rfl
    next => rfl

/-- Sorting keeps up with a change of the items that the comparison does not see. -/
theorem stableSort_map {f : α → α} (hf : ∀ a b, le (f a) (f b) = le a b) (items : List α) :
    stableSort le (items.map f) = (stableSort le items).map f :=
  (List.map_insertionSort _ _ f items fun a _ b _ ↦ by rw [hf a b]).symm

/-! ## What determines a stable sort -/

/-- Whether a comparison does not tell two items apart. -/
def ties (le : α → α → Bool) (a b : α) : Bool := le a b && le b a

theorem ties_eq_true {a b : α} : ties le a b = true ↔ le a b = true ∧ le b a = true :=
  Bool.and_eq_true_iff

theorem ConsistentLe.ties_self (h : ConsistentLe le) (a : α) : ties le a a = true :=
  ties_eq_true.mpr ⟨h.refl a, h.refl a⟩

/-- Equal items stay in their order. -/
theorem ConsistentLe.filter_ties_stableSort (h : ConsistentLe le) (a : α) (items : List α) :
    (stableSort le items).filter (ties le a) = items.filter (ties le a) := by
  rw [← h.stableSort_filter]
  refine stableSort_of_pairwise (List.pairwise_of_forall_mem_list fun b hb c hc ↦ ?_)
  have hba := (ties_eq_true.mp (List.mem_filter.mp hb).2).2
  have hac := (ties_eq_true.mp (List.mem_filter.mp hc).2).1
  exact h.trans b a c hba hac

/-- Sorted lists that agree on equal items agree. -/
theorem ConsistentLe.eq_of_filter_ties (h : ConsistentLe le) :
    ∀ {left right : List α}, (left.Pairwise fun a b ↦ le a b = true) →
      (right.Pairwise fun a b ↦ le a b = true) →
      (∀ a, left.filter (ties le a) = right.filter (ties le a)) → left = right
  | [], [], _, _, _ => rfl
  | [], b :: right, _, _, hties => by
    have hb : b ∈ (b :: right).filter (ties le b) :=
      List.mem_filter.mpr ⟨List.mem_cons_self, h.ties_self b⟩
    rw [← hties b] at hb
    exact absurd hb List.not_mem_nil
  | a :: left, [], _, _, hties => by
    have ha : a ∈ (a :: left).filter (ties le a) :=
      List.mem_filter.mpr ⟨List.mem_cons_self, h.ties_self a⟩
    rw [hties a] at ha
    exact absurd ha List.not_mem_nil
  | a :: left, b :: right, hleft, hright, hties => by
    rw [List.pairwise_cons] at hleft hright
    -- each of the two first items is in both lists, so neither is greater than the other
    have hab : le a b = true := by
      have hb : b ∈ (b :: right).filter (ties le b) :=
        List.mem_filter.mpr ⟨List.mem_cons_self, h.ties_self b⟩
      rw [← hties b] at hb
      rcases List.mem_cons.mp (List.mem_of_mem_filter hb) with rfl | hb
      · exact h.refl b
      · exact hleft.1 b hb
    have hba : le b a = true := by
      have ha : a ∈ (a :: left).filter (ties le a) :=
        List.mem_filter.mpr ⟨List.mem_cons_self, h.ties_self a⟩
      rw [hties a] at ha
      rcases List.mem_cons.mp (List.mem_of_mem_filter ha) with rfl | ha
      · exact h.refl a
      · exact hright.1 a ha
    have heq : a = b := by
      have hfirst := hties a
      rw [List.filter_cons_of_pos (h.ties_self a),
        List.filter_cons_of_pos (ties_eq_true.mpr ⟨hab, hba⟩)] at hfirst
      exact (List.cons.inj hfirst).1
    subst heq
    refine congrArg (a :: ·) (h.eq_of_filter_ties hleft.2 hright.2 fun c ↦ ?_)
    have hc := hties c
    by_cases hca : ties le c a = true
    · rw [List.filter_cons_of_pos hca, List.filter_cons_of_pos hca] at hc
      exact (List.cons.inj hc).2
    · rwa [List.filter_cons_of_neg hca, List.filter_cons_of_neg hca] at hc

/-- **A sorted list that has equal items in the order of another list is its stable sort.** -/
theorem ConsistentLe.eq_stableSort (h : ConsistentLe le) {sorted items : List α}
    (hsorted : sorted.Pairwise fun a b ↦ le a b = true)
    (hties : ∀ a, sorted.filter (ties le a) = items.filter (ties le a)) :
    sorted = stableSort le items :=
  h.eq_of_filter_ties hsorted (h.pairwise_stableSort items) fun a ↦ by
    rw [hties a, h.filter_ties_stableSort]

/-- **Items of which no two tie** have one order. -/
theorem ConsistentLe.stableSort_eq_of_perm (h : ConsistentLe le) {left right : List α}
    (hperm : left.Perm right) (hapart : left.Pairwise fun a b ↦ ¬ties le a b = true) :
    stableSort le left = stableSort le right := by
  have hsorted : (stableSort le left).Perm (stableSort le right) :=
    (stableSort_perm le left).trans (hperm.trans (stableSort_perm le right).symm)
  refine hsorted.eq_of_pairwise (fun a b ha hb hab hba ↦ ?_) (h.pairwise_stableSort left)
    (h.pairwise_stableSort right)
  by_contra hne
  have hb' : b ∈ left := hperm.mem_iff.mpr (mem_stableSort.mp hb)
  have hsymm : Std.Symm fun a b ↦ ¬ties le a b = true :=
    ⟨fun a b hnot hties ↦ hnot (ties_eq_true.mpr (ties_eq_true.mp hties).symm)⟩
  exact hapart.forall (mem_stableSort.mp ha) hb' hne (ties_eq_true.mpr ⟨hab, hba⟩)

theorem ConsistentLe.filter_ties_merge (h : ConsistentLe le) (c : α) :
    ∀ {left right : List α}, (left.Pairwise fun a b ↦ le a b = true) →
      (left.merge right le).filter (ties le c) =
        left.filter (ties le c) ++ right.filter (ties le c)
  | [], right, _ => by rw [List.nil_merge, List.filter_nil, List.nil_append]
  | a :: left, [], _ => by rw [List.merge_right, List.filter_nil, List.append_nil]
  | a :: left, b :: right, hleft => by
    have hrest := List.pairwise_cons.mp hleft
    by_cases hab : le a b = true
    · rw [List.cons_merge_cons_pos le left right hab, List.filter_cons,
        h.filter_ties_merge c hrest.2, List.filter_cons (x := a)]
      split
      next => rfl
      next => rfl
    · rw [List.cons_merge_cons_neg le left right hab, List.filter_cons,
        h.filter_ties_merge c hleft, List.filter_cons (x := b)]
      split
      next hcb =>
        -- everything on the left is greater than the item that is taken
        have hcb := ties_eq_true.mp hcb
        have hnone : (a :: left).filter (ties le c) = [] := by
          refine List.filter_eq_nil_iff.mpr fun x hx htie ↦ hab ?_
          have hxb : le x b = true := h.trans x c b (ties_eq_true.mp htie).2 hcb.1
          rcases List.mem_cons.mp hx with rfl | hx
          · exact hxb
          · exact h.trans a x b (hrest.1 x hx) hxb
        rw [hnone, List.nil_append, List.nil_append]
      next => rfl

/-- **Merging two sorted lists is sorting the one behind the other.** -/
theorem ConsistentLe.merge_eq_stableSort (h : ConsistentLe le) {left right : List α}
    (hleft : left.Pairwise fun a b ↦ le a b = true)
    (hright : right.Pairwise fun a b ↦ le a b = true) :
    left.merge right le = stableSort le (left ++ right) := by
  refine h.eq_stableSort (List.pairwise_merge h.trans ?_ left right hleft hright) fun a ↦ ?_
  · intro a b
    rw [Bool.or_eq_true]
    exact h.total a b
  · rw [h.filter_ties_merge a hleft, List.filter_append]

/-- Sorting what is sorted but for its last item. -/
theorem ConsistentLe.stableSort_stableSort_append (h : ConsistentLe le) (items rest : List α) :
    stableSort le (stableSort le items ++ rest) = stableSort le (items ++ rest) := by
  refine h.eq_stableSort (h.pairwise_stableSort _) fun a ↦ ?_
  rw [h.filter_ties_stableSort, List.filter_append, h.filter_ties_stableSort, List.filter_append]

/-- **Where a new item goes** in what is sorted so far. -/
theorem ConsistentLe.stableSort_append_singleton (h : ConsistentLe le) (items : List α) (a : α) :
    stableSort le (items ++ [a]) =
      (stableSort le items).takeWhile (le · a) ++
      a :: (stableSort le items).dropWhile (le · a) := by
  rw [← h.stableSort_stableSort_append, h.stableSort_concat (h.pairwise_stableSort items)]

/-- A comparison that tells more items apart gives the same order to a list that it finds sorted
among the items that the coarser one does not tell apart. -/
theorem ConsistentLe.stableSort_refine {fine : α → α → Bool} (h : ConsistentLe le)
    (hfine : ConsistentLe fine) (hle : ∀ a b, fine a b = true → le a b = true)
    (hties : items.Pairwise fun a b ↦ ties le a b = true → fine a b = true) :
    stableSort fine items = stableSort le items := by
  refine h.eq_stableSort ((hfine.pairwise_stableSort items).imp (hle _ _)) fun a ↦ ?_
  rw [← hfine.stableSort_filter]
  refine stableSort_of_pairwise ((hties.filter _).imp_of_mem fun {b c} hb hc hbc ↦ hbc ?_)
  have hb := ties_eq_true.mp (List.mem_filter.mp hb).2
  have hc := ties_eq_true.mp (List.mem_filter.mp hc).2
  exact ties_eq_true.mpr ⟨h.trans b a c hb.2 hc.1, h.trans c a b hc.2 hb.1⟩

end

end Awen
