import Mathlib.Data.List.Flatten
import Mathlib.Data.List.Nodup
import Mathlib.Algebra.BigOperators.Ring.List
import Mathlib.Algebra.Order.BigOperators.Group.List
import Mathlib.Tactic.Linarith
import Mathlib.Tactic.FieldSimp
import Awen.Workbench.Layout

/-!
# What the layout operations do to the leaves

Every operation of `layout.ts` is described here by what it does to the list of leaf ids, up to
reordering, and by the fact that it keeps `WellFormed` trees: at least two children in a split, one
positive size for each child, sizes summing to 1. Later modules use these two descriptions only and
never open a layout operation again.

Two of the operations (`insertBeside`, `wrapBeside`) act once for each occurrence of the target, so
their lemmas ask that no leaf id occurs twice.
-/

namespace Awen.Workbench

open LayoutNode

/-! ## The recursions over children as list operations -/

@[simp] theorem leafIds_leaf (id : String) : leafIds (.leaf id) = [id] := rfl

theorem leafIdsAll_eq_flatMap (cs : List LayoutNode) : leafIdsAll cs = cs.flatMap leafIds := by
  induction cs with
  | nil => rfl
  | cons c cs ih => rw [leafIdsAll, ih, List.flatMap_cons]

@[simp] theorem leafIds_split (id : String) (dir : SplitDir) (children : List LayoutNode)
    (sizes : List ℚ) : leafIds (.split id dir children sizes) = children.flatMap leafIds := by
  rw [leafIds, leafIdsAll_eq_flatMap]

theorem replaceLeafIdAll_eq_map (a b : String) (cs : List LayoutNode) :
    replaceLeafIdAll a b cs = cs.map (replaceLeafIdRec a b) := by
  induction cs with
  | nil => rfl
  | cons c cs ih => rw [replaceLeafIdAll, ih, List.map_cons]

theorem setSplitRatioAll_eq_map (splitId : String) (index : ℤ) (boundary : ℚ)
    (cs : List LayoutNode) :
    setSplitRatioAll splitId index boundary cs = cs.map (setSplitRatio splitId index boundary) := by
  induction cs with
  | nil => rfl
  | cons c cs ih => rw [setSplitRatioAll, ih, List.map_cons]

theorem reorderInSplitAll_eq_map (splitId : String) (i j : ℕ) (place : PanePlace)
    (cs : List LayoutNode) :
    reorderInSplitAll splitId i j place cs = cs.map (reorderInSplit splitId i j place) := by
  induction cs with
  | nil => rfl
  | cons c cs ih => rw [reorderInSplitAll, ih, List.map_cons]

theorem insertBesideAll_eq_map (targetId : String) (incoming : LayoutNode) (place : PanePlace)
    (cs : List LayoutNode) :
    insertBesideAll targetId incoming place cs = cs.map (insertBeside targetId incoming place) := by
  induction cs with
  | nil => rfl
  | cons c cs ih => rw [insertBesideAll, ih, List.map_cons]

@[simp] theorem isLeaf_iff {paneId : String} {n : LayoutNode} :
    n.isLeaf paneId = true ↔ n = .leaf paneId := by
  cases n <;> simp [isLeaf]

/-! ## Well-formed trees -/

/-- One positive size for each of `n` children, summing to 1. -/
structure SplitSizes (n : ℕ) (sizes : List ℚ) : Prop where
  length_eq : sizes.length = n
  pos : ∀ x ∈ sizes, 0 < x
  sum_eq : sizes.sum = 1

namespace LayoutNode

/-- Every split has at least two children and sizes for exactly its children. -/
inductive WellFormed : LayoutNode → Prop
  | leaf (id : String) : WellFormed (.leaf id)
  | split (id : String) (dir : SplitDir) (children : List LayoutNode) (sizes : List ℚ)
      (two_le : 2 ≤ children.length) (sizes_ok : SplitSizes children.length sizes)
      (children_ok : ∀ c ∈ children, WellFormed c) : WellFormed (.split id dir children sizes)

/-- No split is empty. -/
inductive HasLeaves : LayoutNode → Prop
  | leaf (id : String) : HasLeaves (.leaf id)
  | split (id : String) (dir : SplitDir) (children : List LayoutNode) (sizes : List ℚ)
      (ne_nil : children ≠ []) (children_ok : ∀ c ∈ children, HasLeaves c) :
      HasLeaves (.split id dir children sizes)

end LayoutNode

theorem wellFormed_split {id : String} {dir : SplitDir} {children : List LayoutNode}
    {sizes : List ℚ} : WellFormed (.split id dir children sizes) ↔
      2 ≤ children.length ∧ SplitSizes children.length sizes ∧ ∀ c ∈ children, WellFormed c :=
  ⟨fun h ↦ by cases h with | split _ _ _ _ h₁ h₂ h₃ => exact ⟨h₁, h₂, h₃⟩,
    fun ⟨h₁, h₂, h₃⟩ ↦ .split _ _ _ _ h₁ h₂ h₃⟩

theorem hasLeaves_split {id : String} {dir : SplitDir} {children : List LayoutNode}
    {sizes : List ℚ} : HasLeaves (.split id dir children sizes) ↔
      children ≠ [] ∧ ∀ c ∈ children, HasLeaves c :=
  ⟨fun h ↦ by cases h with | split _ _ _ _ h₁ h₂ => exact ⟨h₁, h₂⟩,
    fun ⟨h₁, h₂⟩ ↦ .split _ _ _ _ h₁ h₂⟩

theorem LayoutNode.WellFormed.hasLeaves {n : LayoutNode} (h : WellFormed n) : HasLeaves n := by
  induction n with
  | leaf id => exact .leaf id
  | split id dir children sizes ih =>
    obtain ⟨htwo, -, hchildren⟩ := wellFormed_split.mp h
    exact hasLeaves_split.mpr ⟨List.ne_nil_of_length_pos (by omega),
      fun c hc ↦ ih c hc (hchildren c hc)⟩

theorem SplitSizes.perm {n : ℕ} {xs ys : List ℚ} (h : SplitSizes n xs) (hp : ys.Perm xs) :
    SplitSizes n ys where
  length_eq := hp.length_eq.trans h.length_eq
  pos := fun x hx ↦ h.pos x (hp.mem_iff.mp hx)
  sum_eq := hp.sum_eq.trans h.sum_eq

theorem sum_pos_of_forall_pos {xs : List ℚ} (hne : xs ≠ []) (hpos : ∀ x ∈ xs, 0 < x) :
    0 < xs.sum := List.sum_pos xs hpos hne

theorem sum_map_div (xs : List ℚ) (s : ℚ) : (xs.map (· / s)).sum = xs.sum / s := by
  simp only [div_eq_mul_inv]
  rw [List.sum_map_mul_right, List.map_id']

/-- Scaling positive sizes by their total gives sizes of a split. -/
theorem splitSizes_map_div (xs : List ℚ) (hne : xs ≠ []) (hpos : ∀ x ∈ xs, 0 < x) :
    SplitSizes xs.length (xs.map (· / xs.sum)) where
  length_eq := List.length_map _
  pos := by
    intro x hx
    obtain ⟨y, hy, rfl⟩ := List.mem_map.mp hx
    exact div_pos (hpos y hy) (sum_pos_of_forall_pos hne hpos)
  sum_eq := by rw [sum_map_div, div_self (sum_pos_of_forall_pos hne hpos).ne']

theorem splitSizes_normalize (xs : List ℚ) (hne : xs ≠ []) (hpos : ∀ x ∈ xs, 0 < x) :
    SplitSizes xs.length (normalize xs) := by
  rw [normalize, if_neg (not_le.mpr (sum_pos_of_forall_pos hne hpos))]
  exact splitSizes_map_div xs hne hpos

theorem splitSizes_halves : SplitSizes 2 [1 / 2, 1 / 2] where
  length_eq := rfl
  pos := by simp
  sum_eq := by norm_num

theorem leafIds_ne_nil {n : LayoutNode} (h : HasLeaves n) : leafIds n ≠ [] := by
  induction n with
  | leaf id => simp
  | split id dir children sizes ih =>
    obtain ⟨hne, hchildren⟩ := hasLeaves_split.mp h
    obtain ⟨c, cs, rfl⟩ := List.exists_cons_of_ne_nil hne
    rw [leafIds_split, List.flatMap_cons]
    exact List.append_ne_nil_of_left_ne_nil (ih c List.mem_cons_self
      (hchildren c List.mem_cons_self)) _

/-- A tree without empty splits has a first leaf, and `firstLeafId` returns it. -/
theorem firstLeafId_eq {n : LayoutNode} (h : HasLeaves n) :
    ∃ a, firstLeafId n = .ok a ∧ (leafIds n).head? = some a := by
  induction n with
  | leaf id => exact ⟨id, rfl, rfl⟩
  | split id dir children sizes ih =>
    obtain ⟨hne, hchildren⟩ := hasLeaves_split.mp h
    obtain ⟨c, cs, rfl⟩ := List.exists_cons_of_ne_nil hne
    obtain ⟨a, ha, hhead⟩ := ih c List.mem_cons_self (hchildren c List.mem_cons_self)
    refine ⟨a, by rw [firstLeafId, ha], ?_⟩
    rw [leafIds_split, List.flatMap_cons, List.head?_append, hhead, Option.some_or]

theorem firstLeafId_mem {n : LayoutNode} (h : HasLeaves n) :
    ∃ a ∈ leafIds n, firstLeafId n = .ok a := by
  obtain ⟨a, ha, hhead⟩ := firstLeafId_eq h
  exact ⟨a, List.mem_of_head? hhead, ha⟩

/-! ## Replacing a leaf -/

private theorem leafIds_replaceLeafIdRec (a b : String) (n : LayoutNode) :
    leafIds (replaceLeafIdRec a b n) = (leafIds n).map fun id ↦ if id = a then b else id := by
  induction n with
  | leaf id => by_cases h : id = a <;> simp [replaceLeafIdRec, h]
  | split id dir children sizes ih =>
    rw [replaceLeafIdRec, replaceLeafIdAll_eq_map, leafIds_split, leafIds_split, List.flatMap_map,
      List.map_flatMap]
    exact List.flatMap_congr ih

theorem leafIds_replaceLeafId (n : LayoutNode) (a b : String) :
    leafIds (replaceLeafId n a b) = (leafIds n).map fun id ↦ if id = a then b else id := by
  rw [replaceLeafId]
  split
  · rename_i hab
    refine ((List.map_congr_left fun id _ ↦ ?_).trans (List.map_id' _)).symm
    split
    · rename_i hid
      rw [← hab, hid]
    · rfl
  · exact leafIds_replaceLeafIdRec a b n

/-- Renaming one of several distinct ids exchanges it for the new one. -/
theorem map_replace_perm {ids : List String} (hnd : ids.Nodup) {a b : String} (ha : a ∈ ids) :
    (ids.map fun id ↦ if id = a then b else id).Perm (b :: ids.filter (· ≠ a)) := by
  obtain ⟨l, r, rfl⟩ := List.append_of_mem ha
  rw [List.nodup_middle, List.nodup_cons, List.mem_append, not_or] at hnd
  have hkeep : ∀ ids : List String, a ∉ ids →
      (ids.map fun id ↦ if id = a then b else id) = ids.filter (· ≠ a) := by
    intro ids hids
    rw [filter_ne_eq_self hids]
    refine (List.map_congr_left fun id hid ↦ if_neg ?_).trans (List.map_id' _)
    rintro rfl
    exact hids hid
  rw [List.map_append, List.map_cons, if_pos rfl, hkeep l hnd.1.1, hkeep r hnd.1.2,
    List.filter_append, List.filter_cons_of_neg (by simp)]
  exact List.perm_middle

theorem wellFormed_replaceLeafId {n : LayoutNode} (h : WellFormed n) (a b : String) :
    WellFormed (replaceLeafId n a b) := by
  rw [replaceLeafId]
  split
  · exact h
  · induction n with
    | leaf id =>
      rw [replaceLeafIdRec]
      split <;> exact .leaf _
    | split id dir children sizes ih =>
      obtain ⟨htwo, hsizes, hchildren⟩ := wellFormed_split.mp h
      rw [replaceLeafIdRec, replaceLeafIdAll_eq_map, wellFormed_split, List.length_map]
      refine ⟨htwo, hsizes, fun c hc ↦ ?_⟩
      obtain ⟨d, hd, rfl⟩ := List.mem_map.mp hc
      exact ih d hd (hchildren d hd)

/-! ## Dropping a leaf -/

theorem rebuildSplit_cons_cons (id : String) (dir : SplitDir) (a b : LayoutNode × ℚ)
    (kept : List (LayoutNode × ℚ)) : rebuildSplit id dir (a :: b :: kept)
      = some (.split id dir ((a :: b :: kept).map Prod.fst)
          (normalize ((a :: b :: kept).map Prod.snd))) := rfl

theorem leafIds_rebuildSplit (id : String) (dir : SplitDir) (kept : List (LayoutNode × ℚ)) :
    (rebuildSplit id dir kept).elim [] leafIds = kept.flatMap fun e ↦ leafIds e.1 := by
  match kept with
  | [] => rfl
  | [only] => simp [rebuildSplit]
  | a :: b :: kept =>
    rw [rebuildSplit_cons_cons, Option.elim_some, leafIds_split, List.flatMap_map]

theorem wellFormed_rebuildSplit {id : String} {dir : SplitDir} {kept : List (LayoutNode × ℚ)}
    (h : ∀ e ∈ kept, WellFormed e.1 ∧ 0 < e.2) {m : LayoutNode}
    (hm : rebuildSplit id dir kept = some m) : WellFormed m := by
  match kept, h, hm with
  | [only], h, hm =>
    rw [rebuildSplit, Option.some_inj] at hm
    exact hm ▸ (h only List.mem_cons_self).1
  | a :: b :: kept, h, hm =>
    rw [rebuildSplit_cons_cons, Option.some_inj] at hm
    subst hm
    rw [wellFormed_split, List.length_map]
    refine ⟨by simp, ?_, ?_⟩
    · have hsizes := splitSizes_normalize ((a :: b :: kept).map Prod.snd) (by simp) (by
        intro x hx
        obtain ⟨e, he, rfl⟩ := List.mem_map.mp hx
        exact (h e he).2)
      rwa [List.length_map] at hsizes
    · intro c hc
      obtain ⟨e, he, rfl⟩ := List.mem_map.mp hc
      exact (h e he).1

theorem hasLeaves_rebuildSplit {id : String} {dir : SplitDir} {kept : List (LayoutNode × ℚ)}
    (h : ∀ e ∈ kept, HasLeaves e.1) {m : LayoutNode} (hm : rebuildSplit id dir kept = some m) :
    HasLeaves m := by
  match kept, h, hm with
  | [only], h, hm =>
    rw [rebuildSplit, Option.some_inj] at hm
    exact hm ▸ h only List.mem_cons_self
  | a :: b :: kept, h, hm =>
    rw [rebuildSplit_cons_cons, Option.some_inj] at hm
    subst hm
    refine hasLeaves_split.mpr ⟨by simp, fun c hc ↦ ?_⟩
    obtain ⟨e, he, rfl⟩ := List.mem_map.mp hc
    exact h e he

private theorem leafIds_removePaneKept (leafId : String) {cs : List LayoutNode}
    (ih : ∀ c ∈ cs, (removePane leafId c).elim [] leafIds = (leafIds c).filter (· ≠ leafId)) :
    ∀ sizes, ((removePaneKept leafId cs sizes).flatMap fun e ↦ leafIds e.1)
      = (cs.flatMap leafIds).filter (· ≠ leafId) := by
  induction cs with
  | nil => intro sizes; rfl
  | cons c cs ihcs =>
    intro sizes
    have hc := ih c List.mem_cons_self
    have hcs := ihcs (fun d hd ↦ ih d (List.mem_cons_of_mem _ hd)) sizes.tail
    rw [removePaneKept, List.flatMap_cons, List.filter_append, ← hc, ← hcs]
    cases removePane leafId c <;> simp

/-- Dropping a leaf removes exactly its id. -/
theorem leafIds_removePane (leafId : String) (n : LayoutNode) :
    (removePane leafId n).elim [] leafIds = (leafIds n).filter (· ≠ leafId) := by
  induction n with
  | leaf id => by_cases h : id = leafId <;> simp [removePane, h]
  | split id dir children sizes ih =>
    rw [removePane, leafIds_rebuildSplit, leafIds_removePaneKept leafId ih, leafIds_split]

private theorem exists_of_mem_removePaneKept (leafId : String) {cs : List LayoutNode} :
    ∀ {sizes : List ℚ}, ∀ e ∈ removePaneKept leafId cs sizes,
      ∃ c ∈ cs, removePane leafId c = some e.1 := by
  induction cs with
  | nil => intro sizes e he; simp [removePaneKept] at he
  | cons c cs ih =>
    intro sizes e he
    have hrest : e ∈ removePaneKept leafId cs sizes.tail →
        ∃ d ∈ c :: cs, removePane leafId d = some e.1 := fun he' ↦
      let ⟨d, hd, hde⟩ := ih e he'
      ⟨d, List.mem_cons_of_mem _ hd, hde⟩
    rw [removePaneKept] at he
    cases hc : removePane leafId c with
    | none =>
      rw [hc] at he
      exact hrest he
    | some after =>
      rw [hc] at he
      rcases List.mem_cons.mp he with rfl | he'
      · exact ⟨c, List.mem_cons_self, hc⟩
      · exact hrest he'

private theorem pos_of_mem_removePaneKept (leafId : String) : ∀ {cs : List LayoutNode}
    {sizes : List ℚ}, sizes.length = cs.length → (∀ x ∈ sizes, 0 < x) →
      ∀ e ∈ removePaneKept leafId cs sizes, 0 < e.2 := by
  intro cs
  induction cs with
  | nil => intro sizes _ _ e he; simp [removePaneKept] at he
  | cons c cs ih =>
    intro sizes hlen hpos e he
    obtain ⟨s, sizes, rfl⟩ : ∃ s t, sizes = s :: t :=
      List.exists_cons_of_length_pos (by rw [hlen]; simp)
    have hrest : e ∈ removePaneKept leafId cs sizes → 0 < e.2 :=
      ih (by simpa using hlen) (fun x hx ↦ hpos x (List.mem_cons_of_mem _ hx)) e
    rw [removePaneKept] at he
    cases hc : removePane leafId c with
    | none =>
      rw [hc] at he
      exact hrest he
    | some after =>
      rw [hc] at he
      rcases List.mem_cons.mp he with rfl | he'
      · exact hpos s List.mem_cons_self
      · exact hrest he'

/-- Dropping a leaf leaves no empty split. -/
theorem hasLeaves_removePane {leafId : String} {n m : LayoutNode} (h : HasLeaves n)
    (hm : removePane leafId n = some m) : HasLeaves m := by
  induction n generalizing m with
  | leaf id =>
    rw [removePane] at hm
    split at hm
    · exact absurd hm (by simp)
    · exact Option.some_inj.mp hm ▸ .leaf id
  | split id dir children sizes ih =>
    obtain ⟨-, hchildren⟩ := hasLeaves_split.mp h
    rw [removePane] at hm
    refine hasLeaves_rebuildSplit (fun e he ↦ ?_) hm
    obtain ⟨c, hc, hce⟩ := exists_of_mem_removePaneKept leafId e he
    exact ih c hc (hchildren c hc) hce

theorem wellFormed_removePane {leafId : String} {n m : LayoutNode} (h : WellFormed n)
    (hm : removePane leafId n = some m) : WellFormed m := by
  induction n generalizing m with
  | leaf id =>
    rw [removePane] at hm
    split at hm
    · exact absurd hm (by simp)
    · exact Option.some_inj.mp hm ▸ .leaf id
  | split id dir children sizes ih =>
    obtain ⟨-, hsizes, hchildren⟩ := wellFormed_split.mp h
    rw [removePane] at hm
    refine wellFormed_rebuildSplit (fun e he ↦ ?_) hm
    obtain ⟨c, hc, hce⟩ := exists_of_mem_removePaneKept leafId e he
    exact ⟨ih c hc (hchildren c hc) hce,
      pos_of_mem_removePaneKept leafId hsizes.length_eq hsizes.pos e he⟩

theorem leafIds_of_removePane {leafId : String} {n m : LayoutNode}
    (hm : removePane leafId n = some m) : leafIds m = (leafIds n).filter (· ≠ leafId) := by
  rw [← leafIds_removePane, hm, Option.elim_some]

theorem removePane_eq_none {leafId : String} {n : LayoutNode} (h : HasLeaves n) :
    removePane leafId n = none ↔ ∀ id ∈ leafIds n, id = leafId := by
  have hfilter : (leafIds n).filter (· ≠ leafId) = [] ↔ ∀ id ∈ leafIds n, id = leafId := by
    simp [List.filter_eq_nil_iff]
  rw [← hfilter, ← leafIds_removePane]
  cases hm : removePane leafId n with
  | none => simp
  | some m => simpa using leafIds_ne_nil (hasLeaves_removePane h hm)

/-! ## The leaf focused after a close -/

private theorem neighborAt_mem {children : List LayoutNode} {i : ℕ} {c : LayoutNode}
    (h : neighborAt children i = some c) : ∃ j, j ≠ i ∧ children[j]? = some c := by
  rw [neighborAt] at h
  split at h
  · rename_i before hbefore
    split at hbefore
    · exact absurd hbefore (by simp)
    · exact ⟨i - 1, by omega, hbefore.trans h⟩
  · exact ⟨i + 1, by omega, h⟩

/-- Two positions of a duplicate-free concatenation hold lists without common elements. -/
private theorem leafIds_disjoint {children : List LayoutNode}
    (hnd : (children.flatMap leafIds).Nodup) {i j : ℕ} (hij : i ≠ j) {c d : LayoutNode}
    (hc : children[i]? = some c) (hd : children[j]? = some d) :
    (leafIds c).Disjoint (leafIds d) := by
  have hpw := (List.nodup_flatMap.mp hnd).2
  obtain ⟨hi, rfl⟩ := List.getElem?_eq_some_iff.mp hc
  obtain ⟨hj, rfl⟩ := List.getElem?_eq_some_iff.mp hd
  rcases Nat.lt_or_gt_of_ne hij with hlt | hlt
  · exact List.pairwise_iff_getElem.mp hpw i j hi hj hlt
  · exact fun x hx hx' ↦ List.pairwise_iff_getElem.mp hpw j i hj hi hlt hx' hx

/-- On a tree without empty splits and without repeated leaves the sibling exists as a leaf other
than the closed one, whenever it is found at all. -/
theorem siblingLeafId_spec (leafId : String) {n : LayoutNode} (h : HasLeaves n)
    (hnd : (leafIds n).Nodup) : ∃ r, siblingLeafId leafId n = .ok r ∧
      ∀ s, r = some s → s ∈ leafIds n ∧ s ≠ leafId := by
  induction n with
  | leaf id => exact ⟨none, rfl, by simp⟩
  | split id dir children sizes ih =>
    obtain ⟨-, hchildren⟩ := hasLeaves_split.mp h
    rw [leafIds_split] at hnd
    rw [siblingLeafId]
    cases hfind : children.findIdx? (isLeaf leafId) with
    | some i =>
      obtain ⟨hi, hleaf, -⟩ := List.findIdx?_eq_some_iff_getElem.mp hfind
      rw [isLeaf_iff] at hleaf
      cases hnb : neighborAt children i with
      | none => exact ⟨none, by simp [hnb], by simp⟩
      | some neighbor =>
        obtain ⟨j, hji, hj⟩ := neighborAt_mem hnb
        have hmem : neighbor ∈ children := List.mem_of_getElem? hj
        obtain ⟨a, hmema, ha⟩ := firstLeafId_mem (hchildren neighbor hmem)
        refine ⟨some a, by simp [hnb, ha], fun s hs ↦ ?_⟩
        rw [Option.some_inj] at hs
        subst hs
        refine ⟨by rw [leafIds_split, List.mem_flatMap]; exact ⟨neighbor, hmem, hmema⟩, ?_⟩
        rintro rfl
        exact leafIds_disjoint hnd hji hj
          (List.getElem?_eq_some_iff.mpr ⟨hi, hleaf⟩) hmema (by simp)
    | none =>
      simp only [leafIds_split]
      clear hfind h
      induction children with
      | nil => exact ⟨none, rfl, by simp⟩
      | cons c cs ihcs =>
        rw [List.flatMap_cons, List.nodup_append] at hnd
        obtain ⟨r, hr, hspec⟩ := ih c List.mem_cons_self (hchildren c List.mem_cons_self) hnd.1
        obtain ⟨r', hr', hspec'⟩ := ihcs (fun d hd ↦ ih d (List.mem_cons_of_mem _ hd)) hnd.2.1
          (fun d hd ↦ hchildren d (List.mem_cons_of_mem _ hd))
        have hrest : ∀ s, r' = some s → s ∈ (c :: cs).flatMap leafIds ∧ s ≠ leafId := by
          intro s hs
          obtain ⟨hmem, hne⟩ := hspec' s hs
          exact ⟨by rw [List.flatMap_cons, List.mem_append]; exact Or.inr hmem, hne⟩
        rw [siblingLeafIdAll, hr]
        cases r with
        | none => exact ⟨r', hr', hrest⟩
        | some found =>
          by_cases hempty : found = ""
          · refine ⟨r', ?_, hrest⟩
            subst hempty
            simpa [bind, Except.bind] using hr'
          · refine ⟨some found, ?_, fun s hs ↦ ?_⟩
            · simp [bind, Except.bind, pure, Except.pure, hempty]
            · obtain ⟨hmem, hne⟩ := hspec s hs
              exact ⟨by rw [List.flatMap_cons, List.mem_append]; exact Or.inl hmem, hne⟩

/-- What closing a leaf leaves of a Tab: nothing when it was the last one, else the tree without
the leaf and a focus on one of its remaining leaves. -/
theorem closeLeaf_spec {tab : AwenTab} (leafId : String) (h : HasLeaves tab.layout)
    (hnd : (leafIds tab.layout).Nodup) (hfocus : tab.focusedPaneId ∈ leafIds tab.layout) :
    (closeLeaf tab leafId = .ok none ∧ ∀ id ∈ leafIds tab.layout, id = leafId) ∨
    ∃ next, closeLeaf tab leafId = .ok (some next) ∧ next.id = tab.id ∧ HasLeaves next.layout ∧
      (WellFormed tab.layout → WellFormed next.layout) ∧
      leafIds next.layout = (leafIds tab.layout).filter (· ≠ leafId) ∧
      next.focusedPaneId ∈ leafIds next.layout := by
  rw [closeLeaf]
  cases hm : removePane leafId tab.layout with
  | none => exact Or.inl ⟨rfl, (removePane_eq_none h).mp hm⟩
  | some m =>
    right
    have hleaf := leafIds_of_removePane hm
    have hkeeps := hasLeaves_removePane h hm
    have hwf (h : WellFormed tab.layout) : WellFormed m := wellFormed_removePane h hm
    by_cases hf : tab.focusedPaneId = leafId
    · obtain ⟨r, hr, hspec⟩ := siblingLeafId_spec leafId h hnd
      cases r with
      | some s =>
        obtain ⟨hmem, hne⟩ := hspec s rfl
        refine ⟨⟨tab.id, m, s⟩, by simp [hf, hr]; rfl, rfl, hkeeps, hwf, hleaf, ?_⟩
        rw [hleaf, List.mem_filter, decide_eq_true_iff]
        exact ⟨hmem, hne⟩
      | none =>
        obtain ⟨a, ha, hfirst⟩ := firstLeafId_mem hkeeps
        exact ⟨⟨tab.id, m, a⟩, by simp [hf, hr, hfirst]; rfl, rfl, hkeeps, hwf, hleaf, ha⟩
    · refine ⟨⟨tab.id, m, tab.focusedPaneId⟩, by simp [hf]; rfl, rfl, hkeeps, hwf, hleaf, ?_⟩
      rw [hleaf, List.mem_filter, decide_eq_true_iff]
      exact ⟨hfocus, hf⟩

end Awen.Workbench
