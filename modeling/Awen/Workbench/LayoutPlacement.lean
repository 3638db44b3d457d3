import Mathlib.Data.List.GetD
import Mathlib.Tactic.Ring
import Awen.Workbench.LayoutInvariant

/-!
# Sashes, and placing and moving leaves

The second half of the layout's leaf lemmas: moving a sash keeps the leaves and the tree's
well-formedness, `movePane` permutes the leaves, and `placePane` adds exactly the new leaf.
-/

namespace Awen.Workbench

open LayoutNode

/-! ## Moving a sash -/

theorem MIN_SIZE_pos : 0 < MIN_SIZE := by norm_num [MIN_SIZE]

private theorem sum_set_set {xs : List ℚ} {i : ℕ} {a b x : ℚ} (ha : xs[i]? = some a)
    (hb : xs[i + 1]? = some b) : ((xs.set i x).set (i + 1) (a + b - x)).sum = xs.sum := by
  induction xs generalizing i with
  | nil => simp at ha
  | cons y ys ih =>
    cases i with
    | zero =>
      obtain ⟨z, zs, rfl⟩ : ∃ z zs, ys = z :: zs := by
        cases ys with
        | nil => simp at hb
        | cons z zs => exact ⟨z, zs, rfl⟩
      simp only [List.getElem?_cons_zero, Option.some_inj, zero_add,
        List.getElem?_cons_succ] at ha hb
      subst ha hb
      simp only [List.set_cons_zero, zero_add, List.set_cons_succ, List.sum_cons]
      ring
    | succ i =>
      simp only [List.getElem?_cons_succ] at ha hb
      simp only [List.set_cons_succ, List.sum_cons]
      rw [ih ha hb]

theorem splitSizes_splitSizesAtBoundary {n : ℕ} {sizes : List ℚ} (h : SplitSizes n sizes)
    (index : ℤ) (boundary : ℚ) : SplitSizes n (splitSizesAtBoundary sizes index boundary) := by
  rw [splitSizesAtBoundary]
  split
  · exact h
  · dsimp only
    split
    · rename_i a b ha hb
      have hapos : 0 < a := h.pos a (List.mem_of_getElem? ha)
      have hbpos : 0 < b := h.pos b (List.mem_of_getElem? hb)
      have hmin : 0 < min MIN_SIZE ((a + b) / 2) := lt_min MIN_SIZE_pos (by linarith)
      have hhalf : min MIN_SIZE ((a + b) / 2) ≤ (a + b) / 2 := min_le_right _ _
      generalize min MIN_SIZE ((a + b) / 2) = m at hmin hhalf
      generalize (sizes.take index.toNat).sum = before
      have hlow : m ≤ min (a + b - m) (max m (boundary - before)) :=
        le_min (by linarith) (le_max_left _ _)
      have hhigh : min (a + b - m) (max m (boundary - before)) ≤ a + b - m := min_le_left _ _
      generalize min (a + b - m) (max m (boundary - before)) = first at hlow hhigh
      refine ⟨by simpa using h.length_eq, fun x hx ↦ ?_, (sum_set_set ha hb).trans h.sum_eq⟩
      rcases List.mem_or_eq_of_mem_set hx with hx' | rfl
      · rcases List.mem_or_eq_of_mem_set hx' with hx'' | rfl
        · exact h.pos x hx''
        · linarith
      · linarith
    · exact h

theorem leafIds_setSplitRatio (splitId : String) (index : ℤ) (boundary : ℚ) (n : LayoutNode) :
    leafIds (setSplitRatio splitId index boundary n) = leafIds n := by
  induction n with
  | leaf id => rfl
  | split id dir children sizes ih =>
    rw [setSplitRatio]
    split
    · rw [setSplitRatioAll_eq_map, leafIds_split, leafIds_split, List.flatMap_map]
      exact List.flatMap_congr ih
    · split <;> simp

theorem wellFormed_setSplitRatio {n : LayoutNode} (h : WellFormed n) (splitId : String)
    (index : ℤ) (boundary : ℚ) : WellFormed (setSplitRatio splitId index boundary n) := by
  induction n with
  | leaf id => exact h
  | split id dir children sizes ih =>
    obtain ⟨htwo, hsizes, hchildren⟩ := wellFormed_split.mp h
    rw [setSplitRatio]
    split
    · rw [setSplitRatioAll_eq_map, wellFormed_split, List.length_map]
      refine ⟨htwo, hsizes, fun c hc ↦ ?_⟩
      obtain ⟨d, hd, rfl⟩ := List.mem_map.mp hc
      exact ih d hd (hchildren d hd)
    · split
      · exact h
      · exact wellFormed_split.mpr
          ⟨htwo, splitSizes_splitSizesAtBoundary hsizes _ _, hchildren⟩

/-! ## The parent of a leaf -/

private theorem leafParentFrom_mem {leafId : String} {cs : List LayoutNode}
    (ih : ∀ c ∈ cs, ∀ p, leafParent leafId c = some p → leafId ∈ leafIds c) :
    ∀ {parentId : String} {dir : SplitDir} {i : ℕ} {p : LeafParent},
      leafParentFrom leafId parentId dir i cs = some p → leafId ∈ cs.flatMap leafIds := by
  induction cs with
  | nil => intro parentId dir i p h; simp [leafParentFrom] at h
  | cons c cs ihcs =>
    intro parentId dir i p h
    rw [List.flatMap_cons, List.mem_append]
    rw [leafParentFrom] at h
    split at h
    · rename_i hleaf
      rw [isLeaf_iff] at hleaf
      exact Or.inl (by simp [hleaf])
    · split at h
      · rename_i found hfound
        exact Or.inl (ih c List.mem_cons_self found hfound)
      · exact Or.inr (ihcs (fun d hd ↦ ih d (List.mem_cons_of_mem _ hd)) h)

/-! ## Reordering the children of a split -/

private theorem reorderChild_spec (id : String) (dir : SplitDir) (children : List LayoutNode)
    (sizes : List ℚ) (i j : ℕ) (place : PanePlace) :
    reorderChild id dir children sizes i j place = .split id dir children sizes ∨
    ∃ children' sizes', reorderChild id dir children sizes i j place
        = .split id dir children' sizes' ∧
      children'.Perm children ∧ sizes'.Perm sizes := by
  rw [reorderChild]
  dsimp only
  generalize min children.length (if place = .after then j + 1 else j) = wanted
  generalize (if i < wanted then wanted - 1 else wanted) = at'
  split
  · exact Or.inl rfl
  · split
    · exact Or.inl rfl
    · split
      · rename_i child size hchild hsize
        exact Or.inr ⟨_, _, rfl, insertAt_eraseIdx_perm hchild, insertAt_eraseIdx_perm hsize⟩
      · exact Or.inl rfl

theorem leafIds_reorderInSplit (splitId : String) (i j : ℕ) (place : PanePlace)
    (n : LayoutNode) : (leafIds (reorderInSplit splitId i j place n)).Perm (leafIds n) := by
  induction n with
  | leaf id => rfl
  | split id dir children sizes ih =>
    rw [reorderInSplit]
    split
    · rcases reorderChild_spec id dir children sizes i j place with h | ⟨cs, ss, h, hcs, -⟩
      · rw [h]
      · rw [h, leafIds_split, leafIds_split]
        exact hcs.flatMap_right leafIds
    · rw [reorderInSplitAll_eq_map, leafIds_split, leafIds_split, List.flatMap_map]
      exact List.Perm.flatMap_left children ih

theorem wellFormed_reorderInSplit {n : LayoutNode} (h : WellFormed n) (splitId : String)
    (i j : ℕ) (place : PanePlace) : WellFormed (reorderInSplit splitId i j place n) := by
  induction n with
  | leaf id => exact h
  | split id dir children sizes ih =>
    obtain ⟨htwo, hsizes, hchildren⟩ := wellFormed_split.mp h
    rw [reorderInSplit]
    split
    · rcases reorderChild_spec id dir children sizes i j place with h' | ⟨cs, ss, h', hcs, hss⟩
      · rwa [h']
      · rw [h', wellFormed_split, hcs.length_eq]
        exact ⟨htwo, hsizes.perm hss, fun c hc ↦ hchildren c (hcs.mem_iff.mp hc)⟩
    · rw [reorderInSplitAll_eq_map, wellFormed_split, List.length_map]
      refine ⟨htwo, hsizes, fun c hc ↦ ?_⟩
      obtain ⟨d, hd, rfl⟩ := List.mem_map.mp hc
      exact ih d hd (hchildren d hd)

/-! ## Taking a leaf out -/

/-- What `extractLeaf` finds: the leaf itself, and a tree without it. -/
structure Extracted (leafId : String) (ids : List String) (r : Option LayoutNode × LayoutNode) :
    Prop where
  leaf_eq : r.2 = .leaf leafId
  mem : leafId ∈ ids
  leafIds_eq : r.1.elim [] leafIds = ids.filter (· ≠ leafId)

private theorem extractLeafAll_spec {leafId : String} {cs : List LayoutNode}
    (ih : ∀ c ∈ cs, (∀ r, extractLeaf leafId c = some r → Extracted leafId (leafIds c) r) ∧
      (extractLeaf leafId c = none → leafId ∉ leafIds c)) : ∀ (sizes : List ℚ),
    ((extractLeafAll leafId cs sizes).1.flatMap fun e ↦ leafIds e.1)
        = (cs.flatMap leafIds).filter (· ≠ leafId) ∧
      (∀ l, (extractLeafAll leafId cs sizes).2 = some l →
        l = .leaf leafId ∧ leafId ∈ cs.flatMap leafIds) ∧
      ((extractLeafAll leafId cs sizes).2 = none → leafId ∉ cs.flatMap leafIds) := by
  induction cs with
  | nil => intro sizes; exact ⟨rfl, by simp [extractLeafAll], by simp⟩
  | cons c cs ihcs =>
    intro sizes
    obtain ⟨hkept, hfound, hnone⟩ :=
      ihcs (fun d hd ↦ ih d (List.mem_cons_of_mem _ hd)) sizes.tail
    obtain ⟨hsome, habsent⟩ := ih c List.mem_cons_self
    rw [extractLeafAll, List.flatMap_cons, List.filter_append, ← hkept]
    cases hc : extractLeaf leafId c with
    | none =>
      have hmem := habsent hc
      have hself : (leafIds c).filter (· ≠ leafId) = leafIds c := filter_ne_eq_self hmem
      refine ⟨by rw [List.flatMap_cons, hself], fun l hl ↦ ?_, fun h ↦ ?_⟩
      · exact ⟨(hfound l hl).1, List.mem_append_right _ (hfound l hl).2⟩
      · rw [List.mem_append, not_or]
        exact ⟨hmem, hnone h⟩
    | some r =>
      obtain ⟨tree, found⟩ := r
      have hex := hsome _ hc
      have hleaf : found = .leaf leafId := hex.leaf_eq
      have hl : ∀ l, some ((extractLeafAll leafId cs sizes.tail).2.getD found) = some l →
          l = .leaf leafId ∧ leafId ∈ leafIds c ++ cs.flatMap leafIds := by
        intro l hl
        rw [Option.some_inj] at hl
        refine ⟨?_, List.mem_append_left _ hex.mem⟩
        cases hrest : (extractLeafAll leafId cs sizes.tail).2 with
        | none => rw [← hl, hrest, Option.getD_none, hleaf]
        | some l' => rw [← hl, hrest, Option.getD_some, (hfound l' hrest).1]
      have hids := hex.leafIds_eq
      cases tree with
      | none =>
        refine ⟨?_, hl, by simp⟩
        rw [Option.elim_none] at hids
        rw [← hids, List.nil_append]
      | some tree =>
        refine ⟨?_, hl, by simp⟩
        rw [Option.elim_some] at hids
        rw [List.flatMap_cons, hids]

theorem extractLeaf_spec (leafId : String) (n : LayoutNode) :
    (∀ r, extractLeaf leafId n = some r → Extracted leafId (leafIds n) r) ∧
      (extractLeaf leafId n = none → leafId ∉ leafIds n) := by
  induction n with
  | leaf id =>
    by_cases h : id = leafId
    · refine ⟨fun r hr ↦ ?_, by simp [extractLeaf, h]⟩
      rw [extractLeaf, if_pos h, Option.some_inj] at hr
      subst hr h
      exact ⟨rfl, by simp, by simp⟩
    · exact ⟨by simp [extractLeaf, h], fun _ ↦ by simpa using Ne.symm h⟩
  | split id dir children sizes ih =>
    obtain ⟨hkept, hfound, hnone⟩ := extractLeafAll_spec ih sizes
    rw [extractLeaf]
    split
    · rename_i kept heq
      refine ⟨by simp, fun _ ↦ ?_⟩
      rw [leafIds_split]
      exact hnone (by rw [heq])
    · rename_i kept l heq
      rw [heq] at hkept hfound
      refine ⟨fun r hr ↦ ?_, by simp⟩
      rw [Option.some_inj] at hr
      subst hr
      obtain ⟨hl, hmem⟩ := hfound l rfl
      rw [leafIds_split]
      exact ⟨hl, hmem, (leafIds_rebuildSplit id dir kept).trans hkept⟩

private theorem extractLeafAll_kept {leafId : String} : ∀ {cs : List LayoutNode} {sizes : List ℚ},
    sizes.length = cs.length → (∀ x ∈ sizes, 0 < x) →
    (∀ c ∈ cs, WellFormed c ∧ ∀ m l, extractLeaf leafId c = some (some m, l) → WellFormed m) →
    ∀ e ∈ (extractLeafAll leafId cs sizes).1, WellFormed e.1 ∧ 0 < e.2 := by
  intro cs
  induction cs with
  | nil => intro sizes _ _ _ e he; simp [extractLeafAll] at he
  | cons c cs ih =>
    intro sizes hlen hpos hcs e he
    obtain ⟨s, sizes, rfl⟩ : ∃ s t, sizes = s :: t :=
      List.exists_cons_of_length_pos (by rw [hlen]; simp)
    have hrest : e ∈ (extractLeafAll leafId cs sizes).1 → WellFormed e.1 ∧ 0 < e.2 :=
      ih (by simpa using hlen) (fun x hx ↦ hpos x (List.mem_cons_of_mem _ hx))
        (fun d hd ↦ hcs d (List.mem_cons_of_mem _ hd)) e
    obtain ⟨hwf, hex⟩ := hcs c List.mem_cons_self
    rw [extractLeafAll] at he
    split at he
    · rcases List.mem_cons.mp he with rfl | he'
      · exact ⟨hwf, hpos s List.mem_cons_self⟩
      · exact hrest he'
    · rename_i tree found hc
      rcases List.mem_cons.mp he with rfl | he'
      · exact ⟨hex tree found hc, hpos s List.mem_cons_self⟩
      · exact hrest he'
    · exact hrest he

theorem wellFormed_extractLeaf {leafId : String} {n m l : LayoutNode} (h : WellFormed n)
    (hm : extractLeaf leafId n = some (some m, l)) : WellFormed m := by
  induction n generalizing m l with
  | leaf id =>
    rw [extractLeaf] at hm
    split at hm <;> simp at hm
  | split id dir children sizes ih =>
    obtain ⟨-, hsizes, hchildren⟩ := wellFormed_split.mp h
    rw [extractLeaf] at hm
    split at hm
    · exact absurd hm (by simp)
    · rename_i kept found heq
      rw [Option.some_inj, Prod.mk.injEq] at hm
      refine wellFormed_rebuildSplit (fun e he ↦ ?_) hm.1
      refine extractLeafAll_kept hsizes.length_eq hsizes.pos
        (fun c hc ↦ ⟨hchildren c hc, fun m l hml ↦ ih c hc (hchildren c hc) hml⟩) e ?_
      rw [heq]
      exact he

/-! ## Inserting beside a leaf -/

/-- An element below exactly one of several duplicate-free lists. -/
theorem exists_split_of_mem_flatMap {cs : List LayoutNode} {x : String}
    (hnd : (cs.flatMap leafIds).Nodup) (hx : x ∈ cs.flatMap leafIds) :
    ∃ l c r, cs = l ++ c :: r ∧ x ∈ leafIds c ∧ (leafIds c).Nodup ∧
      (∀ d ∈ l, x ∉ leafIds d) ∧ ∀ d ∈ r, x ∉ leafIds d := by
  obtain ⟨c, hc, hxc⟩ := List.mem_flatMap.mp hx
  obtain ⟨l, r, rfl⟩ := List.append_of_mem hc
  rw [List.flatMap_append, List.flatMap_cons, List.nodup_append, List.nodup_append] at hnd
  obtain ⟨-, ⟨hndc, -, hcr⟩, hl⟩ := hnd
  refine ⟨l, c, r, rfl, hxc, hndc, fun d hd hxd ↦ ?_, fun d hd hxd ↦ ?_⟩
  · exact hl x (List.mem_flatMap.mpr ⟨d, hd, hxd⟩) x (List.mem_append_left _ hxc) rfl
  · exact hcr x hxc x (List.mem_flatMap.mpr ⟨d, hd, hxd⟩) rfl

theorem insertBeside_of_not_mem {targetId : String} {incoming : LayoutNode} {place : PanePlace}
    {n : LayoutNode} (h : targetId ∉ leafIds n) : insertBeside targetId incoming place n = n := by
  induction n with
  | leaf id => rfl
  | split id dir children sizes ih =>
    rw [leafIds_split, List.mem_flatMap, not_exists] at h
    have hfind : children.findIdx? (isLeaf targetId) = none := by
      rw [List.findIdx?_eq_none_iff]
      intro c hc
      rw [Bool.eq_false_iff, ne_eq, isLeaf_iff]
      rintro rfl
      exact h _ ⟨hc, by simp⟩
    rw [insertBeside, hfind]
    dsimp only
    rw [insertBesideAll_eq_map, List.map_congr_left fun c hc ↦ ih c hc fun hmem ↦ h c ⟨hc, hmem⟩,
      List.map_id']

theorem leafIds_insertBeside {targetId : String} {incoming : LayoutNode} {place : PanePlace}
    {n : LayoutNode} (hnd : (leafIds n).Nodup) (hmem : targetId ∈ leafIds n)
    (hn : n.isLeaf targetId = false) :
    (leafIds (insertBeside targetId incoming place n)).Perm (leafIds incoming ++ leafIds n) := by
  induction n with
  | leaf id =>
    rw [leafIds_leaf, List.mem_singleton] at hmem
    simp [isLeaf, hmem] at hn
  | split id dir children sizes ih =>
    rw [insertBeside]
    split
    · rw [leafIds_split, leafIds_split, ← List.flatMap_cons]
      exact (insertAt_perm _ _ _).flatMap_right leafIds
    · rename_i hfind
      rw [leafIds_split] at hnd hmem
      obtain ⟨l, c, r, rfl, hxc, hndc, hl, hr⟩ := exists_split_of_mem_flatMap hnd hmem
      have hc : c.isLeaf targetId = false := by
        simpa using List.findIdx?_eq_none_iff.mp hfind c (by simp)
      have hfix : ∀ ds : List LayoutNode, (∀ d ∈ ds, targetId ∉ leafIds d) →
          ds.map (insertBeside targetId incoming place) = ds := fun ds hds ↦
        (List.map_congr_left fun d hd ↦ insertBeside_of_not_mem (hds d hd)).trans (List.map_id' _)
      rw [insertBesideAll_eq_map, leafIds_split, leafIds_split, List.map_append, List.map_cons,
        hfix l hl, hfix r hr, List.flatMap_append, List.flatMap_append, List.flatMap_cons,
        List.flatMap_cons, ← List.append_assoc (leafIds incoming)]
      refine (List.Perm.append_left _ ((ih c (by simp) hndc hxc hc).append_right _)).trans ?_
      rw [List.append_assoc, ← List.append_assoc]
      exact List.Perm.append_right _ List.perm_append_comm

theorem splitSizes_insertAt_halves {n : ℕ} {sizes : List ℚ} {i : ℕ} (at' : ℕ)
    (h : SplitSizes n sizes) (hi : i < n) :
    SplitSizes (n + 1) (insertAt at' (sizes.getD i 0 / 2) (sizes.set i (sizes.getD i 0 / 2))) := by
  have hi' : i < sizes.length := h.length_eq ▸ hi
  have hpos : 0 < sizes[i] := h.pos _ (List.getElem_mem hi')
  rw [List.getD_eq_getElem _ _ hi']
  have hset : (sizes[i] :: sizes.set i (sizes[i] / 2)).Perm (sizes[i] / 2 :: sizes) :=
    set_perm (List.getElem?_eq_getElem hi')
  have hsum := hset.sum_eq
  rw [List.sum_cons, List.sum_cons, h.sum_eq] at hsum
  refine ⟨by rw [length_insertAt, List.length_set, h.length_eq], fun x hx ↦ ?_, ?_⟩
  · rcases mem_insertAt.mp hx with rfl | hx'
    · exact div_pos hpos two_pos
    · rcases List.mem_or_eq_of_mem_set hx' with hx'' | rfl
      · exact h.pos x hx''
      · exact div_pos hpos two_pos
  · rw [(insertAt_perm _ _ _).sum_eq, List.sum_cons]
    linarith

theorem wellFormed_insertBeside {n incoming : LayoutNode} (h : WellFormed n)
    (hin : WellFormed incoming) (targetId : String) (place : PanePlace) :
    WellFormed (insertBeside targetId incoming place n) := by
  induction n with
  | leaf id => exact h
  | split id dir children sizes ih =>
    obtain ⟨htwo, hsizes, hchildren⟩ := wellFormed_split.mp h
    rw [insertBeside]
    split
    · rename_i i hfind
      obtain ⟨hi, -, -⟩ := List.findIdx?_eq_some_iff_getElem.mp hfind
      rw [wellFormed_split, length_insertAt]
      refine ⟨by omega, splitSizes_insertAt_halves _ hsizes hi, fun c hc ↦ ?_⟩
      rcases mem_insertAt.mp hc with rfl | hc'
      · exact hin
      · exact hchildren c hc'
    · rw [insertBesideAll_eq_map, wellFormed_split, List.length_map]
      refine ⟨htwo, hsizes, fun c hc ↦ ?_⟩
      obtain ⟨d, hd, rfl⟩ := List.mem_map.mp hc
      exact ih d hd (hchildren d hd)

/-! ## Wrapping a leaf in a new split -/

private theorem wrapBesideAll_of_forall {targetId : String} {incoming : LayoutNode}
    {dir : SplitDir} {place : PanePlace} {cs : List LayoutNode}
    (h : ∀ c ∈ cs, wrapBeside targetId incoming dir place c = pure c) :
    wrapBesideAll targetId incoming dir place cs = pure cs := by
  induction cs with
  | nil => rfl
  | cons c cs ih =>
    rw [wrapBesideAll, h c List.mem_cons_self, pure_bind,
      ih fun d hd ↦ h d (List.mem_cons_of_mem _ hd), pure_bind]

theorem wrapBeside_of_not_mem {targetId : String} {incoming : LayoutNode} {dir : SplitDir}
    {place : PanePlace} {n : LayoutNode} (h : targetId ∉ leafIds n) :
    wrapBeside targetId incoming dir place n = pure n := by
  induction n with
  | leaf id =>
    rw [leafIds_leaf, List.mem_singleton] at h
    rw [wrapBeside, if_pos (Ne.symm h)]
  | split id dir' children sizes ih =>
    rw [leafIds_split, List.mem_flatMap, not_exists] at h
    rw [wrapBeside, wrapBesideAll_of_forall fun c hc ↦ ih c hc fun hmem ↦ h c ⟨hc, hmem⟩,
      pure_bind]

theorem wrapBesideAll_middle {targetId : String} {incoming : LayoutNode} {dir : SplitDir}
    {place : PanePlace} {l r : List LayoutNode} {c : LayoutNode}
    (hl : ∀ d ∈ l, targetId ∉ leafIds d) (hr : ∀ d ∈ r, targetId ∉ leafIds d) :
    wrapBesideAll targetId incoming dir place (l ++ c :: r)
      = (fun c' ↦ l ++ c' :: r) <$> wrapBeside targetId incoming dir place c := by
  induction l with
  | nil =>
    rw [List.nil_append, wrapBesideAll,
      wrapBesideAll_of_forall fun d hd ↦ wrapBeside_of_not_mem (hr d hd), map_eq_pure_bind]
    simp only [pure_bind, List.nil_append]
  | cons d l ih =>
    rw [List.cons_append, wrapBesideAll, wrapBeside_of_not_mem (hl d List.mem_cons_self),
      pure_bind, ih fun e he ↦ hl e (List.mem_cons_of_mem _ he)]
    simp only [map_eq_pure_bind, bind_assoc, pure_bind, List.cons_append]

/-- Wrapping a leaf adds the incoming leaves and keeps the tree well formed. -/
theorem wrapBeside_post {used : Set String} {targetId : String} {incoming : LayoutNode}
    {dir : SplitDir} {place : PanePlace} {n : LayoutNode} (h : WellFormed n)
    (hin : WellFormed incoming) (hnd : (leafIds n).Nodup) (hmem : targetId ∈ leafIds n) :
    Supply.Post used (wrapBeside targetId incoming dir place n) fun m _ ↦
      WellFormed m ∧ (leafIds m).Perm (leafIds incoming ++ leafIds n) := by
  induction n with
  | leaf id =>
    rw [leafIds_leaf, List.mem_singleton] at hmem
    rw [wrapBeside, if_neg (not_not_intro hmem.symm)]
    refine Supply.Post.bind (Supply.Post.fresh (Q := fun _ _ ↦ True) fun _ _ ↦ trivial)
      fun splitId _ _ _ ↦ Supply.Post.pure ?_
    cases place with
    | before =>
      refine ⟨wellFormed_split.mpr ⟨le_rfl, splitSizes_halves, ?_⟩, by simp⟩
      simpa using ⟨hin, h⟩
    | after =>
      refine ⟨wellFormed_split.mpr ⟨le_rfl, splitSizes_halves, ?_⟩, ?_⟩
      · simpa using ⟨h, hin⟩
      · have hcomm : ([id] ++ leafIds incoming).Perm (leafIds incoming ++ [id]) :=
          List.perm_append_comm
        simpa using hcomm
  | split id dir' children sizes ih =>
    obtain ⟨htwo, hsizes, hchildren⟩ := wellFormed_split.mp h
    rw [leafIds_split] at hnd hmem
    obtain ⟨l, c, r, rfl, hxc, hndc, hl, hr⟩ := exists_split_of_mem_flatMap hnd hmem
    have hc : c ∈ l ++ c :: r := by simp
    rw [wrapBeside, wrapBesideAll_middle hl hr, bind_map_left]
    refine (ih c hc (hchildren c hc) hndc hxc).bind fun m _ _ hm ↦ Supply.Post.pure ⟨?_, ?_⟩
    · have hlen : (l ++ m :: r).length = (l ++ c :: r).length := by simp
      rw [wellFormed_split, hlen]
      refine ⟨htwo, hsizes, fun d hd ↦ ?_⟩
      rcases List.mem_append.mp hd with hd' | hd'
      · exact hchildren d (List.mem_append_left _ hd')
      · rcases List.mem_cons.mp hd' with rfl | hd''
        · exact hm.1
        · exact hchildren d (List.mem_append_right _ (List.mem_cons_of_mem _ hd''))
    · rw [leafIds_split, leafIds_split, List.flatMap_append, List.flatMap_append,
        List.flatMap_cons, List.flatMap_cons, ← List.append_assoc (leafIds incoming)]
      refine (List.Perm.append_left _ (hm.2.append_right _)).trans ?_
      rw [List.append_assoc, ← List.append_assoc]
      exact List.Perm.append_right _ List.perm_append_comm

/-! ## Placing and moving -/

private theorem not_isLeaf_of_leafParent {leafId : String} {n : LayoutNode} {p : LeafParent}
    (h : leafParent leafId n = some p) (paneId : String) : n.isLeaf paneId = false := by
  cases n with
  | leaf id => simp [leafParent] at h
  | split id dir children sizes => rfl

/-- The choice made by both `movePane` and `placeLayout` once the incoming node is known. -/
private theorem placeBeside_post {used : Set String} {targetId : String} {incoming : LayoutNode}
    {dir : SplitDir} {place : PanePlace} {n : LayoutNode} (h : WellFormed n)
    (hin : WellFormed incoming) (hnd : (leafIds n).Nodup) (hmem : targetId ∈ leafIds n) :
    Supply.Post used
      (if (leafParent targetId n).map LeafParent.dir = some dir then
        return insertBeside targetId incoming place n
      else wrapBeside targetId incoming dir place n) fun m _ ↦
      WellFormed m ∧ (leafIds m).Perm (leafIds incoming ++ leafIds n) := by
  split
  · rename_i hparent
    obtain ⟨p, hp, -⟩ := Option.map_eq_some_iff.mp hparent
    exact Supply.Post.pure ⟨wellFormed_insertBeside h hin targetId place,
      leafIds_insertBeside hnd hmem (not_isLeaf_of_leafParent hp targetId)⟩
  · exact wrapBeside_post h hin hnd hmem

/-- **Moving a Pane.** The leaves are permuted. -/
theorem movePane_post {used : Set String} {n : LayoutNode} (h : WellFormed n)
    (hnd : (leafIds n).Nodup) (fromId toId : String) (edge : PaneEdge) :
    Supply.Post used (movePane n fromId toId edge) fun m _ ↦
      WellFormed m ∧ (leafIds m).Perm (leafIds n) := by
  have hkeep : Supply.Post used (pure n : WorkbenchM LayoutNode) fun m _ ↦
      WellFormed m ∧ (leafIds m).Perm (leafIds n) := Supply.Post.pure ⟨h, List.Perm.refl _⟩
  rw [movePane]
  split
  · exact hkeep
  · split
    · dsimp only
      split
      · exact Supply.Post.pure
          ⟨wellFormed_reorderInSplit h _ _ _ _, leafIds_reorderInSplit _ _ _ _ _⟩
      · split
        · rename_i tree found hex
          have hspec := (extractLeaf_spec fromId n).1 _ hex
          have hids : leafIds tree = (leafIds n).filter (· ≠ fromId) := hspec.leafIds_eq
          have hfound : found = .leaf fromId := hspec.leaf_eq
          split
          · exact hkeep
          · rename_i hto
            refine (placeBeside_post (wellFormed_extractLeaf h hex) (hfound ▸ .leaf fromId)
              (hids ▸ hnd.filter _) (not_not.mp hto)).mono fun m _ _ hm ↦ ⟨hm.1, hm.2.trans ?_⟩
            rw [hfound, hids, leafIds_leaf, List.singleton_append, ← erase_eq_filter_ne hnd]
            exact (List.perm_cons_erase hspec.mem).symm
        · exact hkeep
    · exact hkeep

/-- **Placing a Pane.** The new leaf is added beside the target. -/
theorem placePane_post {used : Set String} {n : LayoutNode} (h : WellFormed n)
    (hnd : (leafIds n).Nodup) {leafId toId : String} (hnew : leafId ∉ leafIds n)
    (hto : toId ∈ leafIds n) (edge : PaneEdge) :
    Supply.Post used (placePane n leafId toId edge) fun m _ ↦
      WellFormed m ∧ (leafIds m).Perm (leafId :: leafIds n) := by
  have hne : leafId ≠ toId := fun heq ↦ hnew (heq ▸ hto)
  rw [placePane, if_neg hne, if_neg (not_not_intro hto), if_neg hnew, placeLayout,
    if_neg (not_not_intro hto)]
  exact placeBeside_post h (.leaf leafId) hnd hto

end Awen.Workbench
