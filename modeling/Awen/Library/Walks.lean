import Mathlib.Data.List.Chain
import Mathlib.Data.List.Nodup
import Mathlib.Data.List.Perm.Subperm
import Mathlib.Logic.Relation

/-!
# Walks along a partial function

Where every item leads to one other at most, the items fall into chains that may join, and into
cycles. `walks` walks from one start after the other and stops at what has been met before, so that
nothing is met twice. What has been met is told by keys.

An item is met in the walk of the first start that leads to it (`mem_placedBy`), and it is met right
after another exactly when a path without repetition comes to it from there (`follows_walks_iff`).
-/

namespace Awen

variable {α κ : Type*} [DecidableEq κ] (next : α → Option α) (key : α → κ)

/-- One item leads to another at once. -/
def Follows (a b : α) : Prop := next a = some b

/-- One item leads to another. -/
abbrev Reaches : α → α → Prop := Relation.ReflTransGen (Follows next)

/-- The items met from a start on, up to one that has been placed before or is met again. -/
def walk : ℕ → Option α → List κ → List α
  | fuel + 1, some a, placed =>
    if key a ∈ placed then [] else a :: walk fuel (next a) (key a :: placed)
  | _, _, _ => []

/-- What is placed after the walks from some starts. -/
def placedBy (fuel : ℕ) : List α → List κ → List κ
  | [], placed => placed
  | a :: starts, placed =>
    placedBy fuel starts (((walk next key fuel (some a) placed).map key).reverse ++ placed)

/-- The walks from some starts, one after the other. -/
def walks (fuel : ℕ) : List α → List κ → List (List α)
  | [], _ => []
  | a :: starts, placed =>
    walk next key fuel (some a) placed ::
      walks fuel starts (((walk next key fuel (some a) placed).map key).reverse ++ placed)

/-- A path without repetition from an item to another one, and on to what follows that one. -/
structure ComesTo (a u v : α) (path : List α) : Prop where
  head : path.head? = some a
  last : path.getLast? = some u
  chain : (path ++ [v]).IsChain (Follows next)
  nodup : (path ++ [v]).Nodup

variable {next key} {a u v x y : α} {fuel : ℕ} {placed : List κ} {starts : List α}

theorem ComesTo.pairwise {path : List α} (h : ComesTo next a u v path) :
    (path ++ [v]).Pairwise (Reaches next) :=
  List.isChain_iff_pairwise.mp (h.chain.imp fun _ _ ↦ Relation.ReflTransGen.single)

theorem ComesTo.reaches_last {path : List α} (h : ComesTo next a u v path)
    (hx : x ∈ path ++ [v]) : Reaches next x v := by
  rcases List.mem_append.mp hx with hx | hx
  · exact (List.pairwise_append.mp h.pairwise).2.2 x hx v (List.mem_singleton_self v)
  · exact List.mem_singleton.mp hx ▸ .refl

theorem ComesTo.reaches_of_mem {path : List α} (h : ComesTo next a u v path)
    (hx : x ∈ path ++ [v]) : Reaches next a x := by
  have hpairwise := h.pairwise
  cases path with
  | nil => exact absurd h.head nofun
  | cons b path =>
    cases h.head
    rcases List.mem_cons.mp hx with rfl | hx
    · exact .refl
    · exact List.rel_of_pairwise_cons hpairwise hx

/-! ## One walk -/

theorem head?_walk {start : Option α} (hx : x ∈ (walk next key fuel start placed).head?) :
    start = some x := by
  cases fuel with
  | zero => simp [walk] at hx
  | succ fuel =>
    cases start with
    | none => simp [walk] at hx
    | some a =>
      rw [walk] at hx
      split at hx
      next => simp at hx
      next => simpa using hx

variable (next key) in
/-- In a walk every item leads to the next. -/
theorem isChain_walk (fuel : ℕ) (start : Option α) (placed : List κ) :
    (walk next key fuel start placed).IsChain (Follows next) := by
  induction fuel generalizing start placed with
  | zero => exact List.isChain_nil
  | succ fuel ih =>
    cases start with
    | none => exact List.isChain_nil
    | some a =>
      rw [walk]
      split
      next => exact List.isChain_nil
      next => exact List.isChain_cons.mpr ⟨fun y hy ↦ head?_walk hy, ih _ _⟩

variable (next key) in
/-- A walk meets nothing twice, and nothing that is placed. -/
theorem nodup_walk (fuel : ℕ) (start : Option α) (placed : List κ) :
    ((walk next key fuel start placed).map key).Nodup ∧
      ∀ x ∈ walk next key fuel start placed, key x ∉ placed := by
  induction fuel generalizing start placed with
  | zero => exact ⟨List.nodup_nil, fun _ h ↦ absurd h List.not_mem_nil⟩
  | succ fuel ih =>
    cases start with
    | none => exact ⟨List.nodup_nil, fun _ h ↦ absurd h List.not_mem_nil⟩
    | some a =>
      rw [walk]
      split
      next => exact ⟨List.nodup_nil, fun _ h ↦ absurd h List.not_mem_nil⟩
      next hplaced =>
        obtain ⟨hnodup, hnew⟩ := ih (next a) (key a :: placed)
        constructor
        · refine List.nodup_cons.mpr ⟨fun hmem ↦ ?_, hnodup⟩
          obtain ⟨x, hx, heq⟩ := List.mem_map.mp hmem
          exact hnew x hx (heq ▸ List.mem_cons_self)
        · intro x hx
          rcases List.mem_cons.mp hx with rfl | hx
          · exact hplaced
          · exact fun hmem ↦ hnew x hx (List.mem_cons_of_mem _ hmem)

theorem reaches_of_mem_walk (hx : x ∈ walk next key fuel (some a) placed) : Reaches next a x := by
  induction fuel generalizing a placed with
  | zero => simp [walk] at hx
  | succ fuel ih =>
    rw [walk] at hx
    split at hx
    next => simp at hx
    next =>
      rcases List.mem_cons.mp hx with rfl | hx
      · exact .refl
      · cases hnext : next a with
        | none =>
          rw [hnext] at hx
          cases fuel <;> simp [walk] at hx
        | some b =>
          rw [hnext] at hx
          exact .head hnext (ih hx)

/-- **A path of items that are not placed is the start of the walk.** -/
theorem prefix_walk {path : List α} (hhead : path.head? = some a)
    (hchain : path.IsChain (Follows next)) (hnodup : (path.map key).Nodup)
    (hnew : ∀ x ∈ path, key x ∉ placed) (hfuel : path.length ≤ fuel) :
    path <+: walk next key fuel (some a) placed := by
  induction path generalizing a fuel placed with
  | nil => simp at hhead
  | cons b rest ih =>
    cases hhead
    obtain ⟨fuel, rfl⟩ : ∃ n, fuel = n + 1 := Nat.exists_eq_add_one.mpr (by simp at hfuel; omega)
    rw [walk, if_neg (hnew b List.mem_cons_self), List.prefix_cons_inj]
    rw [List.map_cons, List.nodup_cons] at hnodup
    cases rest with
    | nil => exact List.nil_prefix
    | cons c rest =>
      obtain ⟨hnext, hchain⟩ := List.isChain_cons_cons.mp hchain
      rw [show next b = some c from hnext]
      refine ih rfl hchain hnodup.2 (fun x hx hmem ↦ ?_) (by simpa using hfuel)
      rcases List.mem_cons.mp hmem with heq | hmem
      · exact hnodup.1 (heq ▸ List.mem_map_of_mem hx)
      · exact hnew x (List.mem_cons_of_mem _ hx) hmem

/-! ## Walks that end -/

/-- The items of a list differ in their keys, and lead to one another. -/
structure Walkable (next : α → Option α) (key : α → κ) (items : List α) : Prop where
  inj : ∀ x ∈ items, ∀ y ∈ items, key x = key y → x = y
  follows : ∀ x ∈ items, ∀ y, next x = some y → y ∈ items

variable {items : List α}

omit [DecidableEq κ] in
theorem Walkable.mem_of_reaches (h : Walkable next key items) (ha : a ∈ items)
    (hx : Reaches next a x) : x ∈ items := by
  induction hx with
  | refl => exact ha
  | tail _ hstep ih => exact h.follows _ ih _ hstep

/-- The items that are not placed, of which a walk meets one at each step. -/
def unplaced (key : α → κ) (items : List α) (placed : List κ) : List α :=
  items.filter fun x ↦ key x ∉ placed

theorem length_unplaced_cons (ha : a ∈ items) (hnew : key a ∉ placed) :
    (unplaced key items (key a :: placed)).length < (unplaced key items placed).length := by
  have hfilter : unplaced key items (key a :: placed) =
      (unplaced key items placed).filter fun x ↦ key x ≠ key a := by
    rw [unplaced, unplaced, List.filter_filter]
    exact List.filter_congr fun x _ ↦ by simp [not_or]
  rw [hfilter, List.length_filter_lt_length_iff_exists]
  exact ⟨a, List.mem_filter.mpr ⟨ha, by simpa using hnew⟩, by simp⟩

/-- A walk begins with its start, where that is not placed. -/
theorem start_mem_walk (ha : a ∈ items) (hfuel : (unplaced key items placed).length ≤ fuel) :
    key a ∈ placed ∨ a ∈ walk next key fuel (some a) placed := by
  by_cases hplaced : key a ∈ placed
  · exact .inl hplaced
  · have hpos := (Nat.zero_le _).trans_lt (length_unplaced_cons ha hplaced)
    obtain ⟨fuel, rfl⟩ : ∃ n, fuel = n + 1 := Nat.exists_eq_add_one.mpr (hpos.trans_le hfuel)
    rw [walk, if_neg hplaced]
    exact .inr List.mem_cons_self

/-- **A walk ends by itself**, where there is fuel for all that is not placed. -/
theorem Walkable.walk_add (h : Walkable next key items) (ha : a ∈ items)
    (hfuel : (unplaced key items placed).length ≤ fuel) (extra : ℕ) :
    walk next key (fuel + extra) (some a) placed = walk next key fuel (some a) placed := by
  induction fuel generalizing a placed with
  | zero =>
    have hplaced : key a ∈ placed := by
      by_contra hnew
      exact absurd (length_unplaced_cons ha hnew) (by omega)
    cases extra with
    | zero => rfl
    | succ extra => rw [Nat.zero_add, walk, if_pos hplaced, walk]; simp
  | succ fuel ih =>
    rw [Nat.add_right_comm, walk, walk]
    split
    next => rfl
    next hplaced =>
      cases hnext : next a with
      | none => cases fuel <;> cases extra <;> simp [walk]
      | some b =>
        rw [ih (h.follows a ha b hnext)
          (Nat.lt_succ_iff.mp ((length_unplaced_cons ha hplaced).trans_le hfuel))]

/-- **A walk ends only at what is placed or met**, where there is fuel for all that is not. -/
theorem Walkable.follows_walk (h : Walkable next key items) (ha : a ∈ items)
    (hfuel : (unplaced key items placed).length ≤ fuel)
    (hx : x ∈ walk next key fuel (some a) placed) (hy : next x = some y) :
    key y ∈ placed ∨ y ∈ walk next key fuel (some a) placed := by
  induction fuel generalizing a placed with
  | zero => simp [walk] at hx
  | succ fuel ih =>
    rw [walk] at hx ⊢
    split at hx
    next => simp at hx
    next hplaced =>
      rw [if_neg hplaced]
      have hrest := Nat.lt_succ_iff.mp ((length_unplaced_cons ha hplaced).trans_le hfuel)
      -- what the rest of the walk finds placed may be the start itself
      have hmet : ∀ b, b ∈ items → next a = some b →
          (key y ∈ key a :: placed ∨ y ∈ walk next key fuel (next a) (key a :: placed)) →
            key y ∈ placed ∨ y ∈ a :: walk next key fuel (next a) (key a :: placed) := by
        intro b hb hab hor
        rcases hor with hmem | hmem
        · rcases List.mem_cons.mp hmem with heq | hmem
          · have hyitems : y ∈ items :=
              h.follows x ?_ y hy
            · rw [h.inj y hyitems a ha heq]
              exact .inr List.mem_cons_self
            · rcases List.mem_cons.mp hx with rfl | hx
              · exact ha
              · rw [hab] at hx
                exact h.mem_of_reaches hb (reaches_of_mem_walk hx)
          · exact .inl hmem
        · exact .inr (List.mem_cons_of_mem _ hmem)
      cases hab : next a with
      | none =>
        rw [hab] at hx
        rcases List.mem_cons.mp hx with rfl | hx
        · cases hab.symm.trans hy
        · cases fuel <;> simp [walk] at hx
      | some b =>
        have hb := h.follows a ha b hab
        rw [← hab]
        refine hmet b hb hab ?_
        rcases List.mem_cons.mp hx with rfl | hx
        · cases hab.symm.trans hy
          rw [hab]
          exact start_mem_walk hb hrest
        · rw [hab] at hx ⊢
          exact ih hb hrest hx

/-- What is placed, is placed with all that it leads to. -/
def PlacedClosed (next : α → Option α) (key : α → κ) (items : List α) (placed : List κ) : Prop :=
  ∀ x ∈ items, key x ∈ placed → ∀ y, next x = some y → key y ∈ placed

omit [DecidableEq κ] in
theorem PlacedClosed.of_reaches (hclosed : PlacedClosed next key items placed)
    (h : Walkable next key items) (ha : a ∈ items) (hplaced : key a ∈ placed)
    (hx : Reaches next a x) : key x ∈ placed := by
  induction hx with
  | refl => exact hplaced
  | tail hreaches hstep ih => exact hclosed _ (h.mem_of_reaches ha hreaches) ih _ hstep

/-- What one walk adds. -/
theorem Walkable.mem_walk (h : Walkable next key items)
    (hclosed : PlacedClosed next key items placed) (ha : a ∈ items)
    (hfuel : (unplaced key items placed).length ≤ fuel) :
    PlacedClosed next key items
        (((walk next key fuel (some a) placed).map key).reverse ++ placed) ∧
      ∀ x ∈ items, key x ∈ ((walk next key fuel (some a) placed).map key).reverse ++ placed ↔
        key x ∈ placed ∨ Reaches next a x := by
  have hmem : ∀ x ∈ items,
      key x ∈ ((walk next key fuel (some a) placed).map key).reverse ++ placed ↔
        key x ∈ placed ∨ x ∈ walk next key fuel (some a) placed := by
    intro x hx
    rw [List.mem_append, List.mem_reverse, List.mem_map, or_comm]
    refine or_congr_right ⟨?_, fun hwalk ↦ ⟨x, hwalk, rfl⟩⟩
    rintro ⟨y, hy, heq⟩
    exact h.inj y (h.mem_of_reaches ha (reaches_of_mem_walk hy)) x hx heq ▸ hy
  have hclosed' : PlacedClosed next key items
      (((walk next key fuel (some a) placed).map key).reverse ++ placed) := by
    intro x hx hplaced y hy
    rw [hmem y (h.follows x hx y hy)]
    rcases (hmem x hx).mp hplaced with hplaced | hwalk
    · exact .inl (hclosed x hx hplaced y hy)
    · exact h.follows_walk ha hfuel hwalk hy
  refine ⟨hclosed', fun x hx ↦ ⟨fun hplaced ↦ ?_, ?_⟩⟩
  · exact ((hmem x hx).mp hplaced).imp_right reaches_of_mem_walk
  · rintro (hplaced | hreaches)
    · exact List.mem_append_right _ hplaced
    · exact hclosed'.of_reaches h ha ((hmem a ha).mpr (start_mem_walk ha hfuel)) hreaches

/-! ## All walks -/

theorem unplaced_append_length (ks : List κ) :
    (unplaced key items (ks ++ placed)).length ≤ (unplaced key items placed).length := by
  refine List.Sublist.length_le (List.monotone_filter_right _ fun x hx ↦ ?_)
  simp only [decide_eq_true_eq, List.mem_append, not_or] at hx ⊢
  exact hx.2

/-- **An item is placed once a start has led to it.** -/
theorem Walkable.mem_placedBy (h : Walkable next key items)
    (hclosed : PlacedClosed next key items placed) (hstarts : starts ⊆ items)
    (hfuel : (unplaced key items placed).length ≤ fuel) :
    PlacedClosed next key items (placedBy next key fuel starts placed) ∧
      ∀ x ∈ items, key x ∈ placedBy next key fuel starts placed ↔
        key x ∈ placed ∨ ∃ a ∈ starts, Reaches next a x := by
  induction starts generalizing placed with
  | nil => exact ⟨hclosed, fun x _ ↦ by simp [placedBy]⟩
  | cons a starts ih =>
    obtain ⟨ha, hstarts⟩ := List.cons_subset.mp hstarts
    obtain ⟨hclosed', hmem⟩ := h.mem_walk hclosed ha hfuel
    obtain ⟨hclosed'', hmem'⟩ := ih hclosed' hstarts ((unplaced_append_length _).trans hfuel)
    refine ⟨hclosed'', fun x hx ↦ ?_⟩
    rw [placedBy, hmem' x hx, hmem x hx, or_assoc, List.exists_mem_cons_iff]

/-- What is placed is what was, and what the walks meet. -/
theorem mem_placedBy_iff_mem_walks {k : κ} : k ∈ placedBy next key fuel starts placed ↔
    k ∈ placed ∨ k ∈ (walks next key fuel starts placed).flatten.map key := by
  induction starts generalizing placed with
  | nil => simp [placedBy, walks]
  | cons a starts ih =>
    rw [placedBy, walks, ih, List.flatten_cons, List.map_append, List.mem_append, List.mem_append,
      List.mem_reverse]
    tauto

/-- **No item is met twice, by any walks.** -/
theorem nodup_walks (starts : List α) (placed : List κ) :
    ((walks next key fuel starts placed).flatten.map key).Nodup ∧
      ∀ x ∈ (walks next key fuel starts placed).flatten, key x ∉ placed := by
  induction starts generalizing placed with
  | nil => exact ⟨List.nodup_nil, fun _ h ↦ absurd h List.not_mem_nil⟩
  | cons a starts ih =>
    obtain ⟨hnodup, hnew⟩ := nodup_walk next key fuel (some a) placed
    obtain ⟨hnodup', hnew'⟩ :=
      ih (((walk next key fuel (some a) placed).map key).reverse ++ placed)
    rw [walks, List.flatten_cons, List.map_append]
    constructor
    · refine List.nodup_append.mpr ⟨hnodup, hnodup', ?_⟩
      rintro k hk _ hk' rfl
      obtain ⟨x, hx, rfl⟩ := List.mem_map.mp hk'
      exact hnew' x hx (List.mem_append_left _ (List.mem_reverse.mpr hk))
    · intro x hx
      rcases List.mem_append.mp hx with hx | hx
      · exact hnew x hx
      · exact fun hmem ↦ hnew' x hx (List.mem_append_right _ hmem)

theorem Walkable.walks_subset (h : Walkable next key items) (hstarts : starts ⊆ items) :
    (walks next key fuel starts placed).flatten ⊆ items := by
  induction starts generalizing placed with
  | nil => exact List.nil_subset _
  | cons a starts ih =>
    obtain ⟨ha, hstarts⟩ := List.cons_subset.mp hstarts
    rw [walks, List.flatten_cons]
    exact List.append_subset.mpr
      ⟨fun x hx ↦ h.mem_of_reaches ha (reaches_of_mem_walk hx), ih hstarts⟩

theorem walks_append (before after : List α) (placed : List κ) :
    walks next key fuel (before ++ after) placed =
      walks next key fuel before placed ++
        walks next key fuel after (placedBy next key fuel before placed) := by
  induction before generalizing placed with
  | nil => rfl
  | cons a before ih => rw [List.cons_append, walks, ih, walks, placedBy, List.cons_append]

theorem mem_walks_iff {w : List α} : w ∈ walks next key fuel starts placed ↔
    ∃ before a after, starts = before ++ a :: after ∧
      w = walk next key fuel (some a) (placedBy next key fuel before placed) := by
  constructor
  · intro hw
    induction starts generalizing placed with
    | nil => simp [walks] at hw
    | cons a starts ih =>
      rcases List.mem_cons.mp hw with rfl | hw
      · exact ⟨[], a, starts, rfl, rfl⟩
      · obtain ⟨before, b, after, rfl, rfl⟩ := ih hw
        exact ⟨a :: before, b, after, rfl, rfl⟩
  · rintro ⟨before, a, after, rfl, rfl⟩
    rw [walks_append, walks]
    exact List.mem_append_right _ List.mem_cons_self

/-- **An item follows another in a walk** exactly when a path without repetition comes to it over
the other, from a start before which no start leads to it. -/
theorem Walkable.follows_walks_iff (h : Walkable next key items) (hstarts : starts ⊆ items)
    (hplaced : ∀ x ∈ items, key x ∉ placed) (hfuel : items.length ≤ fuel) :
    (∃ w ∈ walks next key fuel starts placed, ∃ l₁ l₂, w = l₁ ++ u :: v :: l₂) ↔
      ∃ before a after path, starts = before ++ a :: after ∧ ComesTo next a u v path ∧
        ∀ b ∈ before, ¬Reaches next b v := by
  have hclosed : PlacedClosed next key items placed :=
    fun x hx hkey ↦ absurd hkey (hplaced x hx)
  have hunplaced : (unplaced key items placed).length ≤ fuel :=
    (List.length_filter_le _ _).trans hfuel
  -- what a walk finds placed is what earlier starts lead to
  have hbefore : ∀ before a after, starts = before ++ a :: after → a ∈ items ∧
      ∀ x ∈ items,
        key x ∈ placedBy next key fuel before placed ↔ ∃ b ∈ before, Reaches next b x := by
    rintro before a after rfl
    obtain ⟨hsub, hsub'⟩ := List.append_subset.mp hstarts
    refine ⟨hsub' List.mem_cons_self, fun x hx ↦ ?_⟩
    rw [(h.mem_placedBy hclosed hsub hunplaced).2 x hx]
    exact or_iff_right (hplaced x hx)
  constructor
  · rintro ⟨w, hw, l₁, l₂, rfl⟩
    obtain ⟨before, a, after, rfl, heq⟩ := mem_walks_iff.mp hw
    obtain ⟨ha, hmem⟩ := hbefore before a after rfl
    have hstart : l₁ ++ [u] ++ [v] <+: l₁ ++ u :: v :: l₂ := ⟨l₂, by simp⟩
    have hwalk := nodup_walk next key fuel (some a)
      (placedBy next key fuel before placed)
    have hchain := isChain_walk next key fuel (some a)
      (placedBy next key fuel before placed)
    rw [← heq] at hwalk hchain
    refine ⟨before, a, after, l₁ ++ [u], rfl, ⟨?_, by simp, hchain.prefix hstart,
      (hwalk.1.of_map).sublist hstart.sublist⟩, fun b hb hreaches ↦ ?_⟩
    · have hhead : ∀ x ∈ (l₁ ++ u :: v :: l₂).head?, some a = some x :=
        fun x hx ↦ head?_walk (heq ▸ hx)
      cases l₁ with
      | nil => exact (hhead u rfl).symm
      | cons x l₁ => exact (hhead x rfl).symm
    · have hv : v ∈ l₁ ++ u :: v :: l₂ := by simp
      refine hwalk.2 v hv ((hmem v ?_).mpr ⟨b, hb, hreaches⟩)
      rw [heq] at hv
      exact h.mem_of_reaches ha (reaches_of_mem_walk hv)
  · rintro ⟨before, a, after, path, rfl, hpath, hnone⟩
    obtain ⟨ha, hmem⟩ := hbefore before a after rfl
    have hitems : ∀ x ∈ path ++ [v], x ∈ items :=
      fun x hx ↦ h.mem_of_reaches ha (hpath.reaches_of_mem hx)
    have hlength : (path ++ [v]).length ≤ fuel :=
      (List.subperm_of_subset hpath.nodup hitems).length_le.trans hfuel
    have hkeys : ((path ++ [v]).map key).Nodup :=
      List.Nodup.map_on (fun x hx y hy heq ↦ h.inj x (hitems x hx) y (hitems y hy) heq) hpath.nodup
    have hnew : ∀ x ∈ path ++ [v], key x ∉ placedBy next key fuel before placed := by
      intro x hx hmet
      obtain ⟨b, hb, hreaches⟩ := (hmem x (hitems x hx)).mp hmet
      exact hnone b hb (hreaches.trans (hpath.reaches_last hx))
    have hhead : (path ++ [v]).head? = some a := by
      rw [List.head?_append_of_ne_nil]
      · exact hpath.head
      · rintro rfl
        exact absurd hpath.head nofun
    obtain ⟨l₂, hwalk⟩ := prefix_walk hhead hpath.chain hkeys hnew hlength
    obtain ⟨l₁, hlast⟩ := List.getLast?_eq_some_iff.mp hpath.last
    refine ⟨_, mem_walks_iff.mpr ⟨before, a, after, rfl, rfl⟩, l₁, l₂, ?_⟩
    rw [← hwalk, hlast]
    simp

end Awen
