import Awen.Library.Walks
import Awen.Shared.PlainRuntime
import Awen.Shared.ThreadPullRequests

/-!
# The chains of pull requests

A thread's links fall into the stacks that their host keeps, and into chains by their branches. No
link is lost and none is met twice, whatever the branches are: the walks down the base branches stop
at what has been placed, and the links of cycles that nothing leads into stand alone.

A chain stands on its branches as far as the joined text of a host, a repository and a branch tells
these apart. It does where no repository has a colon in its name.
-/

namespace Awen

open Orchestration

variable (js : JsRuntime)

/-! ## Native stacks -/

/-- The native stacks hold the links that belong to one. -/
theorem nativeStacks_perm (visible : List ThreadPullRequestLink) :
    (nativeStacks js visible).flatten.Perm (visible.filter fun link ↦ link.stack.isSome) := by
  refine (List.Perm.flatten_congr ?_).trans (groupsBy_flatten_perm (fun link ↦
    link.stack.map fun stack ↦ (linkKey js link).host ++ "/" ++ (linkKey js link).repository
      ++ "#stack:" ++ stack.id) _)
  rw [nativeStacks, List.forall₂_map_left_iff]
  exact List.forall₂_same.mpr fun _ _ ↦ stableSort_perm _ _

/-! ## The walk of the code -/

section

variable {remaining : List ThreadPullRequestLink}

theorem walkBases_eq (fuel : ℕ) (cursor : Option ThreadPullRequestLink)
    (placed : List ThreadPullRequestKey) (layers : List ThreadPullRequestLink) :
    walkBases js remaining fuel cursor placed layers =
      (((walk (baseOf js remaining) (linkKey js) fuel cursor placed).map (linkKey js)).reverse
          ++ placed,
        (walk (baseOf js remaining) (linkKey js) fuel cursor placed).reverse ++ layers) := by
  induction fuel generalizing cursor placed layers with
  | zero => simp [walkBases, walk]
  | succ fuel ih =>
    cases cursor with
    | none => simp [walkBases, walk]
    | some link =>
      rw [walkBases, walk]
      split
      next => simp
      next => simp [ih]

/-- The walks from the tops, as the code makes them. -/
theorem foldl_walkBases_eq (fuel : ℕ) (tops : List ThreadPullRequestLink)
    (placed : List ThreadPullRequestKey) (chains : List (List ThreadPullRequestLink)) :
    tops.foldl (fun (placed, chains) top ↦
      let (placed, layers) := walkBases js remaining fuel (some top) placed []
      (placed, if layers = [] then chains else chains ++ [layers])) (placed, chains) =
    (placedBy (baseOf js remaining) (linkKey js) fuel tops placed,
      chains ++ ((walks (baseOf js remaining) (linkKey js) fuel tops placed).filter (· ≠ [])).map
        List.reverse) := by
  induction tops generalizing placed chains with
  | nil => simp [placedBy, walks]
  | cons top tops ih =>
    simp only [List.foldl_cons, walkBases_eq, List.append_nil, List.reverse_eq_nil_iff] at ih ⊢
    rw [ih, placedBy, walks]
    by_cases hnil : walk (baseOf js remaining) (linkKey js) fuel (some top) placed = [] <;>
      simp [hnil]

/-- The base of a link is one of the links. -/
theorem mem_of_baseOf {link lower : ThreadPullRequestLink}
    (h : baseOf js remaining link = some lower) : lower ∈ remaining ∧
      ∃ snapshot lowerSnapshot, link.snapshot = some snapshot ∧
        lower.snapshot = some lowerSnapshot ∧
        branchKey js lower lowerSnapshot.headBranch =
          branchKey js link snapshot.baseBranch := by
  obtain ⟨snapshot, hsnapshot, hhead⟩ := Option.bind_eq_some_iff.mp h
  unfold byHead at hhead
  split at hhead
  next _ honly =>
    cases hhead
    obtain ⟨hmem, htest⟩ := List.mem_filter.mp (honly ▸ List.mem_singleton_self lower)
    obtain ⟨lowerSnapshot, hlower, hkey⟩ := (Option.any_eq_true _ _).mp htest
    exact ⟨hmem, snapshot, lowerSnapshot, hsnapshot, hlower, of_decide_eq_true hkey⟩
  next => cases hhead

theorem walkable_baseOf (hkeys : (remaining.map (linkKey js)).Nodup) :
    Walkable (baseOf js remaining) (linkKey js) remaining where
  inj _ hx _ hy heq := List.inj_on_of_nodup_map hkeys hx hy heq
  follows _ _ _ hy := (mem_of_baseOf js hy).1

end

/-! ## The partition -/

/-- The walks from the tops of the links that are in no native stack. -/
def baseWalks (links : List ThreadPullRequestLink) : List (List ThreadPullRequestLink) :=
  walks (baseOf js (remainingLinks js links)) (linkKey js) (remainingLinks js links).length
    (topsOf js (remainingLinks js links))
    ((nativeStacks js (visibleThreadPullRequests links)).flatten.map (linkKey js))

/-- The links that no walk meets: those of cycles that nothing leads into. -/
def cyclicLinks (links : List ThreadPullRequestLink) : List ThreadPullRequestLink :=
  (remainingLinks js links).filter fun link ↦ linkKey js link ∉
    placedBy (baseOf js (remainingLinks js links)) (linkKey js) (remainingLinks js links).length
      (topsOf js (remainingLinks js links))
      ((nativeStacks js (visibleThreadPullRequests links)).flatten.map (linkKey js))

theorem resolveThreadPullRequestChains_eq (links : List ThreadPullRequestLink) :
    resolveThreadPullRequestChains js links =
      (nativeStacks js (visibleThreadPullRequests links)).map (⟨.native, ·⟩) ++
        (((baseWalks js links).filter (· ≠ [])).map List.reverse).map (⟨.derived, ·⟩) ++
          (cyclicLinks js links).map fun link ↦ ⟨.derived, [link]⟩ := by
  rw [resolveThreadPullRequestChains]
  simp only [foldl_walkBases_eq, List.nil_append]
  rfl

variable {js} {links : List ThreadPullRequestLink}

theorem nodup_visible (hkeys : (links.map (linkKey js)).Nodup) :
    ((visibleThreadPullRequests links).map (linkKey js)).Nodup :=
  hkeys.sublist (List.filter_sublist.map _)

theorem nodup_remaining (hkeys : (links.map (linkKey js)).Nodup) :
    ((remainingLinks js links).map (linkKey js)).Nodup :=
  (nodup_visible hkeys).sublist (List.filter_sublist.map _)

theorem key_notMem_native {link : ThreadPullRequestLink} (h : link ∈ remainingLinks js links) :
    linkKey js link ∉
      (nativeStacks js (visibleThreadPullRequests links)).flatten.map (linkKey js) := by
  simpa using (List.mem_filter.mp h).2

variable (js) in
theorem topsOf_subset (remaining : List ThreadPullRequestLink) :
    topsOf js remaining ⊆ remaining :=
  List.filter_sublist.subset

/-- The walks and the links of cycles are what is in no native stack. -/
theorem walks_append_cyclic_perm (hkeys : (links.map (linkKey js)).Nodup) :
    ((baseWalks js links).flatten ++ cyclicLinks js links).Perm (remainingLinks js links) := by
  have hwalkable := walkable_baseOf js (nodup_remaining hkeys)
  have hsubset : (baseWalks js links).flatten ⊆ remainingLinks js links :=
    hwalkable.walks_subset (topsOf_subset _ _)
  have hnodup : ((baseWalks js links).flatten.map (linkKey js)).Nodup := (nodup_walks _ _).1
  have hrest : ∀ link, link ∈ cyclicLinks js links ↔
      link ∈ remainingLinks js links ∧ link ∉ (baseWalks js links).flatten := by
    intro link
    rw [cyclicLinks, List.mem_filter]
    refine and_congr_right fun hlink ↦ ?_
    rw [decide_eq_true_eq, mem_placedBy_iff_mem_walks, or_iff_right (key_notMem_native hlink)]
    refine not_congr ⟨fun hmem ↦ ?_, List.mem_map_of_mem⟩
    obtain ⟨other, hother, heq⟩ := List.mem_map.mp hmem
    exact hwalkable.inj other (hsubset hother) link hlink heq ▸ hother
  have hdisjoint : ∀ link ∈ (baseWalks js links).flatten, ∀ other ∈ cyclicLinks js links,
      link ≠ other := by
    rintro link hlink other hother rfl
    exact ((hrest link).mp hother).2 hlink
  refine (List.perm_ext_iff_of_nodup (List.nodup_append.mpr ⟨hnodup.of_map, ?_, hdisjoint⟩)
    (nodup_remaining hkeys).of_map).mpr fun link ↦ ?_
  · exact ((nodup_remaining hkeys).of_map).sublist List.filter_sublist
  · rw [List.mem_append, hrest]
    constructor
    · rintro (hmem | ⟨hmem, -⟩)
      · exact hsubset hmem
      · exact hmem
    · intro hmem
      by_cases hwalk : link ∈ (baseWalks js links).flatten
      · exact .inl hwalk
      · exact .inr ⟨hmem, hwalk⟩

/-- **Every visible link is in one chain, once.** -/
theorem layers_perm_visible (hkeys : (links.map (linkKey js)).Nodup) :
    ((resolveThreadPullRequestChains js links).flatMap (·.layers)).Perm
      (visibleThreadPullRequests links) := by
  set visible := visibleThreadPullRequests links with hvisible
  have hnative : (nativeStacks js visible).flatten.Perm
      (visible.filter fun link ↦ link.stack.isSome) := nativeStacks_perm js visible
  have hremaining : remainingLinks js links = visible.filter fun link ↦ !link.stack.isSome := by
    refine List.filter_congr fun link hlink ↦ ?_
    rw [Bool.eq_iff_iff, decide_eq_true_eq, Bool.not_eq_true', ← Bool.not_eq_true]
    refine not_congr ⟨fun hmem ↦ ?_, fun hstack ↦ ?_⟩
    · obtain ⟨other, hother, heq⟩ := List.mem_map.mp hmem
      obtain ⟨hother, hstack⟩ := List.mem_filter.mp (hnative.mem_iff.mp hother)
      exact List.inj_on_of_nodup_map (nodup_visible hkeys) hother hlink heq ▸ hstack
    · exact List.mem_map_of_mem (hnative.mem_iff.mpr (List.mem_filter.mpr ⟨hlink, hstack⟩))
  have hlayers : (resolveThreadPullRequestChains js links).flatMap (·.layers) =
      (nativeStacks js visible).flatten ++
        (((baseWalks js links).filter (· ≠ [])).map List.reverse).flatten ++
          cyclicLinks js links := by
    have hlists : ∀ kind (chains : List (List ThreadPullRequestLink)),
        (chains.map (ThreadPullRequestChain.mk kind)).flatMap (·.layers) = chains.flatten := by
      intro kind chains
      rw [List.flatMap_map]
      exact List.flatMap_id'
    have hsingles : ((cyclicLinks js links).map fun link ↦
        (⟨.derived, [link]⟩ : ThreadPullRequestChain)).flatMap (·.layers) =
        cyclicLinks js links := by
      rw [List.flatMap_map]
      exact List.flatMap_singleton' _
    rw [resolveThreadPullRequestChains_eq, List.flatMap_append, List.flatMap_append, hlists,
      hlists, hsingles]
  have hwalks : (((baseWalks js links).filter (· ≠ [])).map List.reverse).flatten.Perm
      (baseWalks js links).flatten := by
    rw [← List.flatten_filter_ne_nil (L := baseWalks js links)]
    refine List.Perm.flatten_congr ?_
    rw [List.forall₂_map_left_iff]
    exact List.forall₂_same.mpr fun walk _ ↦ List.reverse_perm walk
  rw [hlayers, List.append_assoc]
  refine (hnative.append ((hwalks.append_right _).trans (walks_append_cyclic_perm hkeys))).trans ?_
  rw [hremaining]
  exact List.filter_append_perm _ _

/-! ## Chains by branches -/

/-- The base branch of one link is the head branch of the one below it. -/
def StandsOn (lower upper : ThreadPullRequestLink) : Prop :=
  ∃ snapshot lowerSnapshot, upper.snapshot = some snapshot ∧ lower.snapshot = some lowerSnapshot ∧
    snapshot.baseBranch = lowerSnapshot.headBranch

variable (js links) in
/-- **The chains are a partition of the visible links**, and those that come from branches stand on
them. -/
structure ChainsPartition : Prop where
  /-- The walks end by themselves: more steps make no difference. -/
  ends : ∀ top ∈ remainingLinks js links, ∀ placed extra,
    walkBases js (remainingLinks js links) ((remainingLinks js links).length + extra) (some top)
        placed [] =
      walkBases js (remainingLinks js links) (remainingLinks js links).length (some top) placed []
  once : ((resolveThreadPullRequestChains js links).flatMap (·.layers)).Perm
    (visibleThreadPullRequests links)
  based : ∀ chain ∈ resolveThreadPullRequestChains js links, chain.kind = .derived →
    chain.layers.IsChain StandsOn

variable (js links) in
/-- **The texts that name branches tell them apart** where a walk goes by them: the link that the
first top comes down from to another, without meeting a link twice, has that one's head branch as
its base branch. -/
def BasesTold : Prop :=
  ∀ before top after path upper lower,
    topsOf js (remainingLinks js links) = before ++ top :: after →
    ComesTo (baseOf js (remainingLinks js links)) top upper lower path →
    (∀ other ∈ before, ¬Reaches (baseOf js (remainingLinks js links)) other lower) →
    StandsOn lower upper

/-- The chains stand on their branches exactly when every step of a walk does. -/
theorem based_iff_walks : (∀ chain ∈ resolveThreadPullRequestChains js links,
      chain.kind = .derived → chain.layers.IsChain StandsOn) ↔
    ∀ upper lower, (∃ walk ∈ baseWalks js links, ∃ l₁ l₂, walk = l₁ ++ upper :: lower :: l₂) →
      StandsOn lower upper := by
  rw [resolveThreadPullRequestChains_eq]
  constructor
  · rintro h upper lower ⟨walk, hwalk, l₁, l₂, rfl⟩
    have hmem : (l₁ ++ upper :: lower :: l₂) ∈ (baseWalks js links).filter (· ≠ []) :=
      List.mem_filter.mpr ⟨hwalk, by simp⟩
    have hchain := h ⟨.derived, (l₁ ++ upper :: lower :: l₂).reverse⟩
      (List.mem_append_left _ (List.mem_append_right _ (List.mem_map_of_mem
        (List.mem_map_of_mem hmem)))) rfl
    exact List.isChain_iff_forall_rel_of_append_cons_cons.mp (List.isChain_reverse.mp hchain) rfl
  · intro h chain hchain hkind
    rcases List.mem_append.mp hchain with hchain | hchain
    · rcases List.mem_append.mp hchain with hchain | hchain
      · obtain ⟨_, _, rfl⟩ := List.mem_map.mp hchain
        cases hkind
      · obtain ⟨layers, hlayers, rfl⟩ := List.mem_map.mp hchain
        obtain ⟨walk, hwalk, rfl⟩ := List.mem_map.mp hlayers
        rw [List.isChain_reverse, List.isChain_iff_forall_rel_of_append_cons_cons]
        rintro upper lower l₁ l₂ heq
        exact h upper lower ⟨walk, (List.mem_filter.mp hwalk).1, l₁, l₂, heq⟩
    · obtain ⟨link, _, rfl⟩ := List.mem_map.mp hchain
      exact List.isChain_singleton link

/-- **The links are always partitioned, and the chains stand on their branches exactly when the
texts that name these tell them apart.** -/
theorem chainsPartition_iff (hkeys : (links.map (linkKey js)).Nodup) :
    ChainsPartition js links ↔ BasesTold js links := by
  have hwalks := fun upper lower ↦ (walkable_baseOf js (nodup_remaining hkeys)).follows_walks_iff
    (u := upper) (v := lower) (topsOf_subset js (remainingLinks js links))
    (fun _ h ↦ key_notMem_native h) le_rfl
  constructor
  · intro h before top after path upper lower htops hpath hnone
    exact based_iff_walks.mp h.based upper lower
      ((hwalks upper lower).mpr ⟨before, top, after, path, htops, hpath, hnone⟩)
  · intro h
    refine ⟨fun top htop placed extra ↦ ?_, layers_perm_visible hkeys,
      based_iff_walks.mpr fun upper lower hwalk ↦ ?_⟩
    · have hends := (walkable_baseOf js (nodup_remaining hkeys)).walk_add htop
        (List.length_filter_le _ _ : (unplaced _ _ placed).length ≤ _) extra
      rw [walkBases_eq, walkBases_eq, hends]
    · obtain ⟨before, top, after, path, htops, hpath, hnone⟩ := (hwalks upper lower).mp hwalk
      exact h before top after path upper lower htops hpath hnone

/-- What stands before the first separator, and what after it. -/
private theorem eq_of_separated {α : Type*} {c : α} {x₁ x₂ z₁ z₂ : List α} (h₁ : c ∉ x₁)
    (h₂ : c ∉ x₂) (h : x₁ ++ c :: z₁ = x₂ ++ c :: z₂) : x₁ = x₂ ∧ z₁ = z₂ := by
  induction x₁ generalizing x₂ with
  | nil =>
    cases x₂ with
    | nil => exact ⟨rfl, (List.cons.inj h).2⟩
    | cons b x₂ => exact absurd ((List.cons.inj h).1 ▸ List.mem_cons_self) h₂
  | cons a x₁ ih =>
    cases x₂ with
    | nil => exact absurd ((List.cons.inj h).1 ▸ List.mem_cons_self) h₁
    | cons b x₂ =>
      obtain ⟨rfl, hrest⟩ := List.cons.inj h
      obtain ⟨rfl, rfl⟩ :=
        ih (List.not_mem_of_not_mem_cons h₁) (List.not_mem_of_not_mem_cons h₂) hrest
      exact ⟨rfl, rfl⟩

/-- A host has no slash in it. -/
theorem slash_notMem_host (link : ThreadPullRequestLink) : '/' ∉ (linkKey js link).host.toList := by
  rw [linkKey, normalizeThreadPullRequestKey, String.toList_ofList]
  exact fun hmem ↦ absurd (List.mem_takeWhile_imp hmem) (by decide)

/-- Without a colon in a repository, the text of a branch tells it. -/
theorem eq_of_branchKey_eq {link other : ThreadPullRequestLink} {branch otherBranch : String}
    (hlink : ':' ∉ (linkKey js link).repository.toList)
    (hother : ':' ∉ (linkKey js other).repository.toList)
    (h : branchKey js link branch = branchKey js other otherBranch) :
    (linkKey js link).host = (linkKey js other).host ∧
      (linkKey js link).repository = (linkKey js other).repository ∧ branch = otherBranch := by
  have hlist := congrArg String.toList h
  simp only [branchKey, String.toList_append, List.append_assoc, show "/".toList = ['/'] from rfl,
    show ":".toList = [':'] from rfl, List.singleton_append] at hlist
  obtain ⟨hhost, hrest⟩ := eq_of_separated (slash_notMem_host link) (slash_notMem_host other) hlist
  obtain ⟨hrepository, hbranch⟩ := eq_of_separated hlink hother hrest
  exact ⟨String.toList_inj.mp hhost, String.toList_inj.mp hrepository, String.toList_inj.mp hbranch⟩

/-- **Repositories without a colon in their names have their branches told apart.** -/
theorem basesTold_of_noColon
    (h : ∀ link ∈ links, ':' ∉ (linkKey js link).repository.toList) : BasesTold js links := by
  intro before top after path upper lower htops hpath _
  have hremaining : ∀ link ∈ remainingLinks js links, link ∈ links :=
    fun link hlink ↦ List.mem_of_mem_filter (List.mem_of_mem_filter hlink)
  have hfollows : baseOf js (remainingLinks js links) upper = some lower := by
    obtain ⟨front, hfront⟩ := List.getLast?_eq_some_iff.mp hpath.last
    have hchain := hpath.chain
    rw [hfront, List.append_assoc] at hchain
    exact List.isChain_iff_forall_rel_of_append_cons_cons.mp hchain rfl
  have hupper : upper ∈ remainingLinks js links := by
    have hmem : upper ∈ path ++ [lower] :=
      List.mem_append_left _ (List.mem_of_getLast? hpath.last)
    rcases (hpath.reaches_of_mem hmem).cases_tail with rfl | ⟨link, -, hlink⟩
    · apply topsOf_subset
      rw [htops]
      exact List.mem_append_right _ List.mem_cons_self
    · exact (mem_of_baseOf js hlink).1
  obtain ⟨hlower, snapshot, lowerSnapshot, hsnapshot, hlowerSnapshot, hkey⟩ :=
    mem_of_baseOf js hfollows
  refine ⟨snapshot, lowerSnapshot, hsnapshot, hlowerSnapshot, ?_⟩
  exact (eq_of_branchKey_eq (h lower (hremaining lower hlower))
    (h upper (hremaining upper hupper)) hkey).2.2.symm

private def linkedAt (number : ℕ) (repository head base : String) : ThreadPullRequestLink where
  host := "github.com"
  repository
  number
  url := "u"
  source := .manual
  linkedAt := "2026-01-01T00:00:00.000Z"
  snapshot := some {
    state := .opened
    title := "t"
    headBranch := head
    baseBranch := base
    isDraft := false
    updatedAt := none
    syncedAt := "2026-01-01T00:00:00.000Z" }
  stack := none

/-- Three links that are listed from the middle, and one beside them. -/
theorem chainsPartition_stack : ChainsPartition plainRuntime [linkedAt 2 "o/r" "b" "a",
    linkedAt 1 "o/r" "a" "main", linkedAt 3 "o/r" "c" "b", linkedAt 9 "o/q" "d" "main"] :=
  (chainsPartition_iff (by decide +kernel)).mpr (basesTold_of_noColon (by decide +kernel))

/-- A branch of one repository is taken for another branch of another repository. -/
theorem not_chainsPartition : ¬ ∀ links : List ThreadPullRequestLink,
    (links.map (linkKey plainRuntime)).Nodup → ChainsPartition plainRuntime links := by
  intro h
  have hchains : resolveThreadPullRequestChains plainRuntime
      [linkedAt 1 "o/r" "x:y" "main", linkedAt 2 "o/r:x" "z" "y"] =
        [⟨.derived, [linkedAt 1 "o/r" "x:y" "main", linkedAt 2 "o/r:x" "z" "y"]⟩] := by
    decide +kernel
  have hbased := (h _ (by decide +kernel)).based _ (hchains ▸ List.mem_singleton_self _) rfl
  obtain ⟨snapshot, lowerSnapshot, hupper, hlower, heq⟩ := List.isChain_pair.mp hbased
  cases hupper
  cases hlower
  exact absurd heq (by decide)

end Awen
