import Mathlib
import Awen.Workbench.LayoutPlacement

/-!
# Moving a Pane is a minimal reordering

Where `LayoutPlacement` says which leaves a moved or placed Pane leaves behind, this module says in
which order, and where in the tree: the Pane stands directly beside its target, in one split of the
edge's direction, and no other leaf changes its place (`PlacedBeside`).

The three strategies (reordering one split, inserting into the target's split, wrapping the target)
each change one split only; `PlacedBeside.inside` carries what they do there up the tree.
-/

namespace Awen.Workbench

open LayoutNode

/-! ## Side by side -/

/-- Two things next to each other, the incoming one before or after the other. -/
def sideBySide {α : Type} (place : PanePlace) (incoming target : α) : List α :=
  match place with
  | .before => [incoming, target]
  | .after => [target, incoming]

theorem map_sideBySide {α β : Type} (f : α → β) (place : PanePlace) (a b : α) :
    (sideBySide place a b).map f = sideBySide place (f a) (f b) := by
  cases place <;> rfl

theorem mem_sideBySide {α : Type} {place : PanePlace} {a b c : α} :
    c ∈ sideBySide place a b ↔ c = a ∨ c = b := by
  cases place <;> simp [sideBySide, or_comm]

theorem insertAt_sideBySide {α : Type} (place : PanePlace) (x y : α) (l r : List α) :
    insertAt (if place = .before then l.length else l.length + 1) x (l ++ y :: r)
      = l ++ sideBySide place x y ++ r := by
  cases place with
  | before =>
    rw [if_pos rfl, insertAt_append_left]
    simp [sideBySide]
  | after =>
    rw [if_neg (by decide), insertAt_append_right]
    simp [sideBySide]

namespace LayoutNode

/-- Some split of the given direction holds two leaves as neighbours, in this order. -/
inductive Neighbours (dir : SplitDir) (pair : List String) : LayoutNode → Prop
  | here (id : String) (l r : List LayoutNode) (sizes : List ℚ) :
      Neighbours dir pair (.split id dir (l ++ pair.map .leaf ++ r) sizes)
  | inside (id : String) (dir' : SplitDir) (children : List LayoutNode) (sizes : List ℚ)
      (c : LayoutNode) (mem : c ∈ children) (neighbours : Neighbours dir pair c) :
      Neighbours dir pair (.split id dir' children sizes)

end LayoutNode

/-- A tree after a leaf came to stand beside another one: the leaves are the old ones without it,
and it directly before or after the target; and the two are neighbours in a split of the
direction. -/
structure PlacedBeside (moved target : String) (dir : SplitDir) (place : PanePlace)
    (n m : LayoutNode) : Prop where
  leaves : ∃ l r, (leafIds n).filter (· ≠ moved) = l ++ target :: r ∧
    leafIds m = l ++ sideBySide place moved target ++ r
  well_formed : WellFormed m
  neighbours : m.Neighbours dir (sideBySide place moved target)

variable {moved target : String} {dir : SplitDir} {place : PanePlace} {n m : LayoutNode}

/-- The other leaves keep their order. -/
theorem PlacedBeside.others (h : PlacedBeside moved target dir place n m) :
    (leafIds m).filter (· ≠ moved) = (leafIds n).filter (· ≠ moved) := by
  obtain ⟨l, r, hn, hm⟩ := h.leaves
  have hkept : ∀ x ∈ l ++ target :: r, x ≠ moved := by
    intro x hx
    rw [← hn, List.mem_filter, decide_eq_true_iff] at hx
    exact hx.2
  have hself (ids : List String) (hids : ∀ x ∈ ids, x ≠ moved) : ids.filter (· ≠ moved) = ids :=
    List.filter_eq_self.mpr fun x hx ↦ decide_eq_true (hids x hx)
  have hpair : (sideBySide place moved target).filter (· ≠ moved) = [target] := by
    have htarget : target ≠ moved := hkept target (by simp)
    cases place <;> simp [sideBySide, htarget]
  rw [hm, hn, List.filter_append, List.filter_append, hpair,
    hself l fun x hx ↦ hkept x (List.mem_append_left _ hx),
    hself r fun x hx ↦ hkept x (List.mem_append_right _ (List.mem_cons_of_mem _ hx)),
    List.append_assoc, List.singleton_append]

/-- Placing a leaf beside a child of a split. -/
theorem PlacedBeside.here {id : String} {l r : List LayoutNode} {sizes : List ℚ}
    (hn : (leafIds n).filter (· ≠ moved) = (l ++ .leaf target :: r).flatMap leafIds)
    (hm : WellFormed (.split id dir
      (l ++ sideBySide place (.leaf moved) (.leaf target) ++ r) sizes)) :
    PlacedBeside moved target dir place n
      (.split id dir (l ++ sideBySide place (.leaf moved) (.leaf target) ++ r) sizes) := by
  have hpair : (sideBySide place moved target).map leaf
      = sideBySide place (.leaf moved) (.leaf target) := map_sideBySide leaf place moved target
  refine ⟨⟨l.flatMap leafIds, r.flatMap leafIds, ?_, ?_⟩, hm, ?_⟩
  · rw [hn, List.flatMap_append, List.flatMap_cons, leafIds_leaf, List.singleton_append]
  · rw [leafIds_split, List.flatMap_append, List.flatMap_append, ← hpair, List.flatMap_map]
    simp only [leafIds_leaf, List.flatMap_singleton']
  · rw [← hpair]
    exact .here id l r sizes

/-- What was placed beside a leaf of a child was placed in the split. -/
theorem PlacedBeside.inside {c : LayoutNode} (h : PlacedBeside moved target dir place c m)
    {id : String} {dir' : SplitDir} {l r : List LayoutNode} {sizes : List ℚ}
    (hwf : WellFormed (.split id dir' (l ++ c :: r) sizes))
    (hl : ∀ d ∈ l, moved ∉ leafIds d) (hr : ∀ d ∈ r, moved ∉ leafIds d) :
    PlacedBeside moved target dir place (.split id dir' (l ++ c :: r) sizes)
      (.split id dir' (l ++ m :: r) sizes) := by
  obtain ⟨htwo, hsizes, hchildren⟩ := wellFormed_split.mp hwf
  obtain ⟨before, after, hc, hm⟩ := h.leaves
  have hself (ds : List LayoutNode) (hds : ∀ d ∈ ds, moved ∉ leafIds d) :
      (ds.flatMap leafIds).filter (· ≠ moved) = ds.flatMap leafIds :=
    filter_ne_eq_self fun hmem ↦
      let ⟨d, hd, hmem⟩ := List.mem_flatMap.mp hmem
      hds d hd hmem
  refine ⟨⟨l.flatMap leafIds ++ before, after ++ r.flatMap leafIds, ?_, ?_⟩, ?_, ?_⟩
  · rw [leafIds_split, List.flatMap_append, List.flatMap_cons, List.filter_append,
      List.filter_append, hself l hl, hself r hr, hc]
    simp
  · rw [leafIds_split, List.flatMap_append, List.flatMap_cons, hm]
    simp
  · have hlen : (l ++ m :: r).length = (l ++ c :: r).length := by simp
    rw [wellFormed_split, hlen]
    refine ⟨htwo, hsizes, fun d hd ↦ ?_⟩
    rcases List.mem_append.mp hd with hd | hd
    · exact hchildren d (List.mem_append_left _ hd)
    · rcases List.mem_cons.mp hd with rfl | hd
      · exact h.well_formed
      · exact hchildren d (List.mem_append_right _ (List.mem_cons_of_mem _ hd))
  · exact .inside id dir' _ sizes m (by simp) h.neighbours

/-! ## Where a leaf is held -/

namespace LayoutNode

/-- The split at `p` holds a leaf directly. -/
inductive HeldBy (leafId : String) (p : LeafParent) : LayoutNode → Prop
  | here {id : String} {dir : SplitDir} {children : List LayoutNode} {sizes : List ℚ}
      (l r : List LayoutNode) (children_eq : children = l ++ .leaf leafId :: r)
      (parent_eq : p = ⟨id, l.length, dir⟩) : HeldBy leafId p (.split id dir children sizes)
  | inside {id : String} {dir : SplitDir} {children : List LayoutNode} {sizes : List ℚ}
      (c : LayoutNode) (mem : c ∈ children) (held : HeldBy leafId p c) :
      HeldBy leafId p (.split id dir children sizes)

end LayoutNode

private theorem leafParentFrom_eq_some {leafId parentId : String} {dir : SplitDir}
    {cs : List LayoutNode} {p : LeafParent} : ∀ {i : ℕ},
    leafParentFrom leafId parentId dir i cs = some p →
      (∃ l r, cs = l ++ .leaf leafId :: r ∧ p = ⟨parentId, i + l.length, dir⟩) ∨
        ∃ c ∈ cs, leafParent leafId c = some p := by
  induction cs with
  | nil => intro i h; cases h
  | cons c cs ih =>
    intro i h
    rw [leafParentFrom] at h
    split at h
    · rename_i hleaf
      cases h
      exact Or.inl ⟨[], cs, by rw [isLeaf_iff.mp hleaf, List.nil_append], by simp⟩
    · split at h
      · rename_i found hfound
        cases h
        exact Or.inr ⟨c, List.mem_cons_self, hfound⟩
      · rcases ih h with ⟨l, r, rfl, rfl⟩ | ⟨d, hd, hfound⟩
        · exact Or.inl ⟨c :: l, r, rfl, by simp; omega⟩
        · exact Or.inr ⟨d, List.mem_cons_of_mem _ hd, hfound⟩

/-- `leafParent` finds a split that holds the leaf. -/
theorem heldBy_of_leafParent {leafId : String} {p : LeafParent}
    (h : leafParent leafId n = some p) : n.HeldBy leafId p := by
  induction n with
  | leaf id => cases h
  | split id dir children sizes ih =>
    rw [leafParent] at h
    rcases leafParentFrom_eq_some h with ⟨l, r, hchildren, hp⟩ | ⟨c, hc, hfound⟩
    · exact .here l r hchildren (by rw [hp, Nat.zero_add])
    · exact .inside c hc (ih c hc hfound)

theorem LayoutNode.HeldBy.mem_leafIds {leafId : String} {p : LeafParent}
    (h : n.HeldBy leafId p) : leafId ∈ leafIds n := by
  induction h with
  | here l r children_eq _ =>
    rw [leafIds_split, children_eq]
    simp
  | inside c mem _ ih =>
    rw [leafIds_split]
    exact List.mem_flatMap.mpr ⟨c, mem, ih⟩

/-- A leaf of a split has a parent. -/
theorem exists_leafParent {leafId : String} (hmem : leafId ∈ leafIds n)
    (hn : n.isLeaf leafId = false) : ∃ p, leafParent leafId n = some p := by
  induction n with
  | leaf id =>
    rw [leafIds_leaf, List.mem_singleton] at hmem
    simp [isLeaf, hmem] at hn
  | split id dir children sizes ih =>
    rw [leafParent]
    rw [leafIds_split] at hmem
    clear hn
    generalize 0 = i
    induction children generalizing i with
    | nil => cases hmem
    | cons c cs ihcs =>
      rw [leafParentFrom]
      split
      · exact ⟨_, rfl⟩
      · rename_i hleaf
        split
        · exact ⟨_, rfl⟩
        · rename_i hnone
          rcases List.mem_append.mp (List.flatMap_cons ▸ hmem) with hc | hcs
          · obtain ⟨p, hp⟩ := ih c List.mem_cons_self hc (Bool.eq_false_iff.mpr hleaf)
            cases hnone.symm.trans hp
          · exact ihcs (fun d hd ↦ ih d (List.mem_cons_of_mem _ hd)) hcs (i + 1)

theorem LayoutNode.HeldBy.not_isLeaf {leafId : String} {p : LeafParent} (h : n.HeldBy leafId p)
    (paneId : String) : n.isLeaf paneId = false := by
  cases h <;> rfl

/-- What occurs below one of several children occurs below no other, if nothing is repeated. -/
private theorem not_mem_others {f : LayoutNode → List String} {l r : List LayoutNode}
    {c : LayoutNode} {x : String} (hnd : ((l ++ c :: r).flatMap f).Nodup) (hx : x ∈ f c) :
    (f c).Nodup ∧ (∀ d ∈ l, x ∉ f d) ∧ ∀ d ∈ r, x ∉ f d := by
  rw [List.flatMap_append, List.flatMap_cons, List.nodup_append, List.nodup_append] at hnd
  obtain ⟨-, ⟨hndc, -, hcr⟩, hl⟩ := hnd
  refine ⟨hndc, fun d hd hxd ↦ ?_, fun d hd hxd ↦ ?_⟩
  · exact hl x (List.mem_flatMap.mpr ⟨d, hd, hxd⟩) x (List.mem_append_left _ hx) rfl
  · exact hcr x hx x (List.mem_flatMap.mpr ⟨d, hd, hxd⟩) rfl

/-! ## Inserting into the target's split, and wrapping the target -/

/-- **Inserting a leaf into the target's split.** -/
theorem insertBeside_placed {p : LeafParent} (hwf : WellFormed n) (hnd : (leafIds n).Nodup)
    (hnew : moved ∉ leafIds n) (hheld : n.HeldBy target p) (hdir : p.dir = dir) :
    PlacedBeside moved target dir place n (insertBeside target (.leaf moved) place n) := by
  have hwf' := wellFormed_insertBeside hwf (.leaf moved) target place
  induction n with
  | leaf id => cases hheld
  | split id dir' children sizes ih =>
    rw [leafIds_split] at hnd
    cases hheld with
    | here l r hchildren hp =>
      subst hchildren hp
      have hdir' : dir' = dir := hdir
      subst hdir'
      have hl := (not_mem_others hnd (List.mem_singleton_self target)).2.1
      have hfind : (l ++ .leaf target :: r).findIdx? (isLeaf target) = some l.length := by
        have hnone : l.findIdx? (isLeaf target) = none :=
          List.findIdx?_eq_none_iff.mpr fun d hd ↦ by
            rw [Bool.eq_false_iff, ne_eq, isLeaf_iff]
            rintro rfl
            exact hl _ hd (List.mem_singleton_self target)
        rw [List.findIdx?_append, hnone, List.findIdx?_cons, if_pos (isLeaf_iff.mpr rfl)]
        simp
      rw [insertBeside, hfind] at hwf' ⊢
      dsimp only at hwf' ⊢
      rw [insertAt_sideBySide] at hwf' ⊢
      refine PlacedBeside.here ?_ hwf'
      rw [filter_ne_eq_self hnew, leafIds_split]
    | inside c hc hheld =>
      obtain ⟨l, r, rfl⟩ := List.append_of_mem hc
      obtain ⟨hndc, hl, hr⟩ := not_mem_others hnd hheld.mem_leafIds
      have hfix (ds : List LayoutNode) (hds : ∀ d ∈ ds, target ∉ leafIds d) :
          ds.map (insertBeside target (.leaf moved) place) = ds :=
        (List.map_congr_left fun d hd ↦ insertBeside_of_not_mem (hds d hd)).trans (List.map_id' _)
      have hfind : (l ++ c :: r).findIdx? (isLeaf target) = none := by
        refine List.findIdx?_eq_none_iff.mpr fun d hd ↦ ?_
        rcases List.mem_append.mp hd with hd | hd
        · rw [Bool.eq_false_iff, ne_eq, isLeaf_iff]
          rintro rfl
          exact hl _ hd (List.mem_singleton_self target)
        · rcases List.mem_cons.mp hd with rfl | hd
          · exact hheld.not_isLeaf target
          · rw [Bool.eq_false_iff, ne_eq, isLeaf_iff]
            rintro rfl
            exact hr _ hd (List.mem_singleton_self target)
      have hothers : ∀ d ∈ l ++ c :: r, moved ∉ leafIds d := fun d hd hmem ↦
        hnew (leafIds_split id dir' _ sizes ▸ List.mem_flatMap.mpr ⟨d, hd, hmem⟩)
      have hwfc := (wellFormed_split.mp hwf).2.2 c hc
      have hplaced := ih c hc hwfc hndc (hothers c hc) hheld
        (wellFormed_insertBeside hwfc (.leaf moved) target place)
      rw [insertBeside, hfind]
      dsimp only
      rw [insertBesideAll_eq_map, List.map_append, List.map_cons, hfix l hl, hfix r hr]
      exact hplaced.inside hwf (fun d hd ↦ hothers d (List.mem_append_left _ hd))
        fun d hd ↦ hothers d (List.mem_append_right _ (List.mem_cons_of_mem _ hd))

/-- **Wrapping the target in a new split.** -/
theorem wrapBeside_placed (hwf : WellFormed n) (hnd : (leafIds n).Nodup)
    (hnew : moved ∉ leafIds n) (hmem : target ∈ leafIds n) :
    Supply.Returns (wrapBeside target (.leaf moved) dir place n)
      (PlacedBeside moved target dir place n) := by
  induction n with
  | leaf id =>
    rw [leafIds_leaf, List.mem_singleton] at hmem
    subst hmem
    rw [wrapBeside, if_neg (not_not_intro rfl)]
    refine Supply.Returns.bind (P := fun _ ↦ True) (Supply.Returns.fresh fun _ ↦ trivial)
      fun splitId _ ↦ Supply.Returns.pure ?_
    have hpair : (if place = .before then [.leaf moved, .leaf target]
        else [.leaf target, .leaf moved])
        = [] ++ sideBySide place (LayoutNode.leaf moved) (.leaf target) ++ [] := by
      cases place <;> rfl
    rw [hpair]
    refine PlacedBeside.here ?_ ?_
    · rw [filter_ne_eq_self hnew]
      rfl
    · refine wellFormed_split.mpr ⟨?_, ?_, fun c hc ↦ ?_⟩
      · cases place <;> exact le_rfl
      · cases place <;> exact splitSizes_halves
      · rw [List.nil_append, List.append_nil, mem_sideBySide] at hc
        rcases hc with rfl | rfl <;> exact .leaf _
  | split id dir' children sizes ih =>
    have hothers : ∀ d ∈ children, moved ∉ leafIds d := fun d hd hmem ↦
      hnew (leafIds_split id dir' _ sizes ▸ List.mem_flatMap.mpr ⟨d, hd, hmem⟩)
    have hchildren := (wellFormed_split.mp hwf).2.2
    rw [leafIds_split] at hnd hmem
    obtain ⟨l, c, r, rfl, hxc, hndc, hl, hr⟩ := exists_split_of_mem_flatMap hnd hmem
    have hc : c ∈ l ++ c :: r := by simp
    rw [wrapBeside, wrapBesideAll_middle hl hr, bind_map_left]
    refine (ih c hc (hchildren c hc) hndc (hothers c hc) hxc).bind fun m hm ↦
      Supply.Returns.pure ?_
    exact hm.inside hwf (fun d hd ↦ hothers d (List.mem_append_left _ hd))
      fun d hd ↦ hothers d (List.mem_append_right _ (List.mem_cons_of_mem _ hd))

/-- The choice between the two, once the leaf to place is not in the tree. -/
theorem placeLayout_placed (hwf : WellFormed n) (hnd : (leafIds n).Nodup)
    (hnew : moved ∉ leafIds n) (hmem : target ∈ leafIds n) :
    Supply.Returns
      (if (leafParent target n).map LeafParent.dir = some dir then
        return insertBeside target (.leaf moved) place n
      else wrapBeside target (.leaf moved) dir place n)
      (PlacedBeside moved target dir place n) := by
  split
  · rename_i hparent
    obtain ⟨p, hp, hdir⟩ := Option.map_eq_some_iff.mp hparent
    exact Supply.Returns.pure
      (insertBeside_placed hwf hnd hnew (heldBy_of_leafParent hp) hdir)
  · exact wrapBeside_placed hwf hnd hnew hmem

/-! ## Reordering one split -/

mutual
/-- The ids of the splits of a layout. -/
def splitIds : LayoutNode → List String
  | .leaf _ => []
  | .split id _ children _ => id :: splitIdsAll children

def splitIdsAll : List LayoutNode → List String
  | [] => []
  | c :: cs => splitIds c ++ splitIdsAll cs
end

theorem splitIds_split (id : String) (dir : SplitDir) (children : List LayoutNode)
    (sizes : List ℚ) :
    splitIds (.split id dir children sizes) = id :: children.flatMap splitIds := by
  have hall (cs : List LayoutNode) : splitIdsAll cs = cs.flatMap splitIds := by
    induction cs with
    | nil => rfl
    | cons c cs ih => rw [splitIdsAll, ih, List.flatMap_cons]
  rw [splitIds, hall]

theorem LayoutNode.HeldBy.parentId_mem {leafId : String} {p : LeafParent}
    (h : n.HeldBy leafId p) : p.parentId ∈ splitIds n := by
  induction h with
  | here l r _ parent_eq =>
    rw [splitIds_split, parent_eq]
    exact List.mem_cons_self
  | inside c mem _ ih =>
    rw [splitIds_split]
    exact List.mem_cons_of_mem _ (List.mem_flatMap.mpr ⟨c, mem, ih⟩)

theorem reorderInSplit_of_not_mem {splitId : String} {i j : ℕ} (h : splitId ∉ splitIds n) :
    reorderInSplit splitId i j place n = n := by
  induction n with
  | leaf id => rfl
  | split id dir children sizes ih =>
    rw [splitIds_split, List.mem_cons, not_or] at h
    rw [reorderInSplit, if_neg (Ne.symm h.1), reorderInSplitAll_eq_map,
      List.map_congr_left fun c hc ↦ ih c hc fun hmem ↦ h.2 (List.mem_flatMap.mpr ⟨c, hc, hmem⟩),
      List.map_id']

/-- Where a child of a split goes, among the others. -/
def reorderedAt (i j : ℕ) (place : PanePlace) : ℕ :=
  let j' := if i < j then j - 1 else j
  if place = .before then j' else j' + 1

theorem reorderChild_eq (id : String) (dir : SplitDir) (place : PanePlace)
    {children : List LayoutNode} {sizes : List ℚ} {i j : ℕ} {x : LayoutNode}
    (hlen : sizes.length = children.length) (hi : children[i]? = some x)
    (hj : j < children.length) (hne : i ≠ j) :
    ∃ sizes', reorderChild id dir children sizes i j place
      = .split id dir (insertAt (reorderedAt i j place) x (children.eraseIdx i)) sizes' := by
  have hilt : i < children.length := (List.getElem?_eq_some_iff.mp hi).1
  have hat : (let wanted := min children.length (if place = .after then j + 1 else j)
      if i < wanted then wanted - 1 else wanted) = reorderedAt i j place := by
    cases place <;> simp only [reorderedAt, reduceCtorEq, if_true, if_false] <;> grind
  obtain ⟨size, hsize⟩ : ∃ size, sizes[i]? = some size :=
    ⟨_, List.getElem?_eq_getElem (hlen ▸ hilt)⟩
  rw [reorderChild, if_neg (by omega)]
  dsimp only at hat ⊢
  rw [hat, hi, hsize]
  split
  · rename_i heq
    exact ⟨sizes, by rw [← heq, insertAt_eraseIdx_self hi]⟩
  · exact ⟨_, rfl⟩

/-- The children of a split once two of them stand side by side. -/
theorem insertAt_reorderedAt (place : PanePlace) {children l r l' r' : List LayoutNode}
    {x y : LayoutNode} (hx : children = l ++ x :: r) (hy : children = l' ++ y :: r')
    (hne : l.length ≠ l'.length) :
    ∃ before after, children.eraseIdx l.length = before ++ y :: after ∧
      insertAt (reorderedAt l.length l'.length place) x (children.eraseIdx l.length)
        = before ++ sideBySide place x y ++ after := by
  have herase : children.eraseIdx l.length = l ++ r := by
    rw [hx, List.eraseIdx_append_of_length_le le_rfl, Nat.sub_self, List.eraseIdx_cons_zero]
  suffices h : ∃ before after, l ++ r = before ++ y :: after ∧
      before.length = if l.length < l'.length then l'.length - 1 else l'.length by
    obtain ⟨before, after, hsplit, hlen⟩ := h
    refine ⟨before, after, herase.trans hsplit, ?_⟩
    rw [herase, hsplit, reorderedAt, ← hlen, insertAt_sideBySide]
  rcases List.append_eq_append_iff.mp (hx.symm.trans hy) with
    ⟨between, rfl, hr⟩ | ⟨between, rfl, hr⟩
  · cases between with
    | nil => simp at hne
    | cons z between =>
      obtain ⟨-, rfl⟩ := List.cons.inj hr
      exact ⟨l ++ between, r', by simp, by simp⟩
  · cases between with
    | nil => simp at hne
    | cons z between =>
      obtain ⟨rfl, rfl⟩ := List.cons.inj hr
      exact ⟨l', between ++ r, by simp, by simp⟩

/-- **Reordering one split**, which is the one that holds both leaves if no id is used twice. -/
theorem reorderInSplit_placed {p q : LeafParent} (hwf : WellFormed n) (hnd : (leafIds n).Nodup)
    (hids : (splitIds n).Nodup) (hne : moved ≠ target) (hfrom : n.HeldBy moved p)
    (hto : n.HeldBy target q) (hparent : p.parentId = q.parentId) (hdir : q.dir = dir) :
    PlacedBeside moved target dir place n
      (reorderInSplit p.parentId p.index q.index place n) := by
  have hwf' := wellFormed_reorderInSplit hwf p.parentId p.index q.index place
  induction n with
  | leaf id => cases hfrom
  | split id dir' children sizes ih =>
    rw [leafIds_split] at hnd
    rw [splitIds_split, List.nodup_cons] at hids
    cases hfrom with
    | here l r hchildren hp =>
      subst hp
      cases hto with
      | inside c hc hheld =>
        have hid : id = q.parentId := hparent
        exact absurd (List.mem_flatMap.mpr ⟨c, hc, hid ▸ hheld.parentId_mem⟩) hids.1
      | here l' r' hchildren' hq =>
        subst hq
        have hdir' : dir' = dir := hdir
        subst hdir'
        have hindex : l.length ≠ l'.length := by
          intro heq
          have hleaf := (List.append_inj (hchildren.symm.trans hchildren') heq).2
          exact hne (LayoutNode.leaf.inj (List.cons.inj hleaf).1)
        have hget : children[l.length]? = some (.leaf moved) := by
          rw [hchildren, List.getElem?_append_right le_rfl, Nat.sub_self, List.getElem?_cons_zero]
        obtain ⟨sizes', hreorder⟩ := reorderChild_eq id dir' place
          (wellFormed_split.mp hwf).2.1.length_eq hget
          (by rw [hchildren']; simp : l'.length < children.length) hindex
        obtain ⟨before, after, herase, hbeside⟩ :=
          insertAt_reorderedAt place hchildren hchildren' hindex
        rw [reorderInSplit, if_pos rfl, hreorder, hbeside] at hwf' ⊢
        refine PlacedBeside.here ?_ hwf'
        have hperm := eraseIdx_perm hget
        rw [← herase, leafIds_split]
        -- the moved leaf occurs once, so taking it out is taking out its child
        have hsplit := hnd
        rw [hchildren] at hsplit
        obtain ⟨-, hl, hr⟩ := not_mem_others hsplit (List.mem_singleton_self moved)
        have hself (ds : List LayoutNode) (hds : ∀ d ∈ ds, moved ∉ leafIds d) :
            (ds.flatMap leafIds).filter (· ≠ moved) = ds.flatMap leafIds :=
          filter_ne_eq_self fun hmem ↦
            (List.mem_flatMap.mp hmem).elim fun d hd ↦ hds d hd.1 hd.2
        rw [hchildren, List.eraseIdx_append_of_length_le le_rfl, Nat.sub_self,
          List.eraseIdx_cons_zero, List.flatMap_append, List.flatMap_cons, List.filter_append,
          List.filter_append, hself l hl, hself r hr, List.flatMap_append, leafIds_leaf]
        simp
    | inside c hc hheld =>
      obtain ⟨l, r, rfl⟩ := List.append_of_mem hc
      obtain ⟨hidsC, hl, hr⟩ := not_mem_others hids.2 hheld.parentId_mem
      have hid : id ≠ p.parentId := fun heq ↦
        hids.1 (List.mem_flatMap.mpr ⟨c, hc, heq ▸ hheld.parentId_mem⟩)
      cases hto with
      | here l' r' _ hq => exact absurd (hparent.trans (by rw [hq])).symm hid
      | inside d hd hheld' =>
        have hmem := hparent ▸ hheld'.parentId_mem
        have hdc : d = c := by
          rcases List.mem_append.mp hd with hd | hd
          · exact absurd hmem (hl d hd)
          · exact (List.mem_cons.mp hd).resolve_right fun hd ↦ hr d hd hmem
        subst hdc
        obtain ⟨hndc, hlm, hrm⟩ := not_mem_others hnd hheld.mem_leafIds
        have hwfc := (wellFormed_split.mp hwf).2.2 d hc
        have hfix (ds : List LayoutNode) (hds : ∀ e ∈ ds, p.parentId ∉ splitIds e) :
            ds.map (reorderInSplit p.parentId p.index q.index place) = ds :=
          (List.map_congr_left fun e he ↦ reorderInSplit_of_not_mem (hds e he)).trans
            (List.map_id' _)
        rw [reorderInSplit, if_neg hid, reorderInSplitAll_eq_map, List.map_append, List.map_cons,
          hfix l hl, hfix r hr]
        exact (ih d hc hwfc hndc hidsC hheld hheld'
          (wellFormed_reorderInSplit hwfc _ _ _ _)).inside hwf hlm hrm

/-! ## Moving and placing -/

/-- **Moving a Pane**, in a tree whose splits can be told apart by their ids. -/
theorem movePane_placed (hwf : WellFormed n) (hnd : (leafIds n).Nodup)
    (hids : (splitIds n).Nodup) (hfrom : moved ∈ leafIds n) (hto : target ∈ leafIds n)
    (hne : moved ≠ target) (edge : PaneEdge) :
    Supply.Returns (movePane n moved target edge)
      (PlacedBeside moved target (edgeSplit edge).1 (edgeSplit edge).2 n) := by
  have hsplit (paneId : String) : n.isLeaf paneId = false := by
    rw [Bool.eq_false_iff, ne_eq, isLeaf_iff]
    rintro rfl
    exact hne ((List.mem_singleton.mp hfrom).trans (List.mem_singleton.mp hto).symm)
  obtain ⟨p, hp⟩ := exists_leafParent hfrom (hsplit moved)
  obtain ⟨q, hq⟩ := exists_leafParent hto (hsplit target)
  rw [movePane, if_neg hne, hp, hq]
  dsimp only
  split
  · rename_i hsame
    exact Supply.Returns.pure (reorderInSplit_placed hwf hnd hids hne (heldBy_of_leafParent hp)
      (heldBy_of_leafParent hq) hsame.2 hsame.1)
  · obtain ⟨hfound, habsent⟩ := extractLeaf_spec moved n
    cases hextract : extractLeaf moved n with
    | none => exact absurd hfrom (habsent hextract)
    | some extracted =>
      obtain ⟨tree, found⟩ := extracted
      have hspec := hfound _ hextract
      have hfoundEq : found = .leaf moved := hspec.leaf_eq
      have hrest := hspec.leafIds_eq
      have htarget : target ∈ (leafIds n).filter (· ≠ moved) :=
        List.mem_filter.mpr ⟨hto, decide_eq_true hne.symm⟩
      cases tree with
      | none =>
        rw [← hrest] at htarget
        cases htarget
      | some tree =>
        rw [Option.elim_some] at hrest
        have hmem : target ∈ leafIds tree := hrest ▸ htarget
        have hnew : moved ∉ leafIds tree := by
          rw [hrest, List.mem_filter]
          simp
        dsimp only
        rw [if_neg (not_not_intro hmem), hfoundEq]
        refine (placeLayout_placed (wellFormed_extractLeaf hwf hextract)
          (hrest ▸ hnd.filter _) hnew hmem).mono fun m hm ↦ ?_
        -- the tree without the leaf has the leaves of the old one without it
        have hsame : (leafIds tree).filter (· ≠ moved) = (leafIds n).filter (· ≠ moved) := by
          rw [filter_ne_eq_self hnew, hrest]
        exact ⟨hsame ▸ hm.leaves, hm.well_formed, hm.neighbours⟩

/-- **Placing a Pane** that is not in the tree. -/
theorem placePane_placed (hwf : WellFormed n) (hnd : (leafIds n).Nodup)
    (hnew : moved ∉ leafIds n) (hto : target ∈ leafIds n) (edge : PaneEdge) :
    Supply.Returns (placePane n moved target edge)
      (PlacedBeside moved target (edgeSplit edge).1 (edgeSplit edge).2 n) := by
  have hne : moved ≠ target := fun heq ↦ hnew (heq ▸ hto)
  rw [placePane, if_neg hne, if_neg (not_not_intro hto), if_neg hnew, placeLayout,
    if_neg (not_not_intro hto)]
  exact placeLayout_placed hwf hnd hnew hto

/-- **Moving and placing are minimal reorderings.** In a well-formed tree without repeated leaves a
new leaf is placed beside any leaf, and, if no two splits share an id, a leaf is moved beside any
other; the other leaves keep their order. A leaf dropped on itself stays. -/
theorem panes_placedBeside {n : LayoutNode} (hwf : WellFormed n) (hnd : (leafIds n).Nodup)
    {target : String} (hto : target ∈ leafIds n) (edge : PaneEdge) :
    (∀ leafId ∉ leafIds n, Supply.Returns (placePane n leafId target edge) fun m ↦
      PlacedBeside leafId target (edgeSplit edge).1 (edgeSplit edge).2 n m ∧
        (leafIds m).filter (· ≠ leafId) = leafIds n) ∧
    ((splitIds n).Nodup → ∀ fromId ∈ leafIds n, fromId ≠ target →
      Supply.Returns (movePane n fromId target edge) fun m ↦
        PlacedBeside fromId target (edgeSplit edge).1 (edgeSplit edge).2 n m ∧
          (leafIds m).filter (· ≠ fromId) = (leafIds n).filter (· ≠ fromId)) ∧
    movePane n target target edge = pure n := by
  refine ⟨fun leafId hnew ↦ ?_, fun hids fromId hfrom hne ↦ ?_, ?_⟩
  · refine (placePane_placed hwf hnd hnew hto edge).mono fun m hm ↦ ⟨hm, ?_⟩
    rw [hm.others, filter_ne_eq_self hnew]
  · exact (movePane_placed hwf hnd hids hfrom hto hne edge).mono fun m hm ↦ ⟨hm, hm.others⟩
  · rw [movePane, if_pos rfl]

/-- A split of two leaves and a stack whose second child is a split again. -/
private def nested (innerId : String) : LayoutNode :=
  .split "s" .right [.leaf "a", .leaf "b", .split "t" .down [.leaf "c",
      .split innerId .right [.leaf "d", .leaf "e"] [1 / 2, 1 / 2]] [1 / 2, 1 / 2]]
    [1 / 4, 1 / 4, 1 / 2]

private theorem wellFormed_pair {id : String} {dir : SplitDir} {a b : LayoutNode}
    (ha : WellFormed a) (hb : WellFormed b) : WellFormed (.split id dir [a, b] [1 / 2, 1 / 2]) :=
  .split _ _ _ _ le_rfl splitSizes_halves
    (List.forall_mem_cons.mpr ⟨ha, List.forall_mem_singleton.mpr hb⟩)

private theorem wellFormed_nested (innerId : String) : WellFormed (nested innerId) :=
  .split _ _ _ _ (Nat.le_succ 2) ⟨rfl, by simp, by norm_num⟩
    (List.forall_mem_cons.mpr ⟨.leaf _, List.forall_mem_cons.mpr ⟨.leaf _,
      List.forall_mem_singleton.mpr
        (wellFormed_pair (.leaf _) (wellFormed_pair (.leaf _) (.leaf _)))⟩⟩)

theorem panes_placedBeside_nested :
    Supply.Returns (movePane (nested "u") "d" "a" .left) fun m ↦
      PlacedBeside "d" "a" .right .before (nested "u") m ∧
        (leafIds m).filter (· ≠ "d") = (leafIds (nested "u")).filter (· ≠ "d") :=
  (panes_placedBeside (wellFormed_nested "u") (by decide) (by decide) .left).2.1 (by decide) "d"
    (by decide) (by decide)

/-- Two splits under one id: the drop of `d` behind `e` exchanges `a` and `b` instead. -/
theorem not_placedBeside_repeated : ¬∀ (n : LayoutNode) (fromId target : String) (edge : PaneEdge),
    WellFormed n → (leafIds n).Nodup → fromId ∈ leafIds n → target ∈ leafIds n →
      fromId ≠ target → Supply.Returns (movePane n fromId target edge)
        (PlacedBeside fromId target (edgeSplit edge).1 (edgeSplit edge).2 n) := by
  intro h
  have hmoved := (h (nested "s") "d" "e" .right (wellFormed_nested "s") (by decide) (by decide)
    (by decide) (by decide)).of_eq (rfl : movePane _ _ _ _ (Stream'.const "id") = _)
  have hothers := hmoved.others
  revert hothers
  decide

end Awen.Workbench
