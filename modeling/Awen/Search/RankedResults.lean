import Awen.Library.Splice
import Awen.Library.StableSort
import Awen.Shared.JsRuntime
import Mathlib.Algebra.Order.Field.Rat

/-!
# Ranked search results

`insertRankedSearchResult` keeps a list of the best results while candidates come in: each candidate
is put in its place by a binary search, and what goes beyond the limit is dropped. The list is
always the beginning of the stable sort of all candidates so far (`foldl_insertRankedSearchResult`).
-/

namespace Awen.Search

variable {α : Type*}

structure RankedSearchResult (α : Type*) where
  item : α
  score : ℚ
  tieBreaker : String

variable (js : JsRuntime)

/-- By score, then by tie-breaker. The result of the source is the sign of this. -/
def compareRankedSearchResults (left right : RankedSearchResult α) : Ordering :=
  (compare left.score right.score).then (js.localeCompare left.tieBreaker right.tieBreaker)

/-- The binary search between two indices. -/
def findInsertionIndexFrom (rankedEntries : List (RankedSearchResult α))
    (candidate : RankedSearchResult α) (low high : ℕ) : ℕ :=
  if low < high then
    let middle := low + (high - low) / 2
    match rankedEntries[middle]? with
    | none => low
    | some current =>
      if compareRankedSearchResults js candidate current = .lt then
        findInsertionIndexFrom rankedEntries candidate low middle
      else findInsertionIndexFrom rankedEntries candidate (middle + 1) high
  else low
termination_by high - low

def findInsertionIndex (rankedEntries : List (RankedSearchResult α))
    (candidate : RankedSearchResult α) : ℕ :=
  findInsertionIndexFrom js rankedEntries candidate 0 rankedEntries.length

def insertRankedSearchResult (rankedEntries : List (RankedSearchResult α))
    (candidate : RankedSearchResult α) (limit : ℕ) : List (RankedSearchResult α) :=
  if limit ≤ 0 then rankedEntries
  else
    let insertionIndex := findInsertionIndex js rankedEntries candidate
    if rankedEntries.length < limit then insertAt insertionIndex candidate rankedEntries
    else if insertionIndex ≥ limit then rankedEntries
    else (insertAt insertionIndex candidate rankedEntries).dropLast

/-! ## The order of results -/

/-- Whether a result may stand before another one. -/
def rankedLe (left right : RankedSearchResult α) : Bool :=
  (compareRankedSearchResults js left right).isLE

instance : Std.TransCmp (compareRankedSearchResults (α := α) js) :=
  have := transCmp_comap (α := RankedSearchResult α) compare RankedSearchResult.score
  have := transCmp_comap (α := RankedSearchResult α) js.localeCompare
    RankedSearchResult.tieBreaker
  inferInstanceAs (Std.TransCmp (compareLex _ _))

theorem consistentLe_rankedLe : ConsistentLe (rankedLe (α := α) js) :=
  consistentLe_isLE (compareRankedSearchResults js)

variable {js} {rankedEntries : List (RankedSearchResult α)} {candidate : RankedSearchResult α}

theorem compare_eq_lt_iff {left right : RankedSearchResult α} :
    compareRankedSearchResults js left right = .lt ↔ ¬rankedLe js right left = true := by
  rw [rankedLe, ← Std.OrientedCmp.gt_iff_lt]
  cases compareRankedSearchResults js right left <;> simp

/-! ## The binary search -/

/-- **The search stays between its bounds**, whatever the list. -/
theorem findInsertionIndexFrom_mem (low high : ℕ) :
    low ≤ findInsertionIndexFrom js rankedEntries candidate low high ∧
      findInsertionIndexFrom js rankedEntries candidate low high ≤ max low high := by
  fun_induction findInsertionIndexFrom js rankedEntries candidate low high with
  | case1 low high hlt middle hnone => exact ⟨le_rfl, le_max_left _ _⟩
  | case2 low high hlt middle current hcurrent hcompare ih => exact ⟨ih.1, by omega⟩
  | case3 low high hlt middle current hcurrent hcompare ih => exact ⟨by omega, by omega⟩
  | case4 low high hlt => exact ⟨le_rfl, le_max_left _ _⟩

/-- **The search finds the place of the candidate**: what stands before it is not greater. -/
theorem findInsertionIndexFrom_eq
    (hsorted : rankedEntries.Pairwise fun a b ↦ rankedLe js a b = true) {low high : ℕ}
    (hlow : low ≤ (rankedEntries.takeWhile (rankedLe js · candidate)).length)
    (hhigh : (rankedEntries.takeWhile (rankedLe js · candidate)).length ≤ high)
    (hlength : high ≤ rankedEntries.length) :
    findInsertionIndexFrom js rankedEntries candidate low high =
      (rankedEntries.takeWhile (rankedLe js · candidate)).length := by
  fun_induction findInsertionIndexFrom js rankedEntries candidate low high with
  | case1 low high hlt middle hnone =>
    have := List.getElem?_eq_none_iff.mp hnone
    omega
  | case2 low high hlt middle current hcurrent hcompare ih =>
    have hplace := (consistentLe_rankedLe js).le_iff_lt_length_takeWhile hsorted candidate hcurrent
    rw [compare_eq_lt_iff, hplace, not_lt] at hcompare
    exact ih hlow hcompare (by omega)
  | case3 low high hlt middle current hcurrent hcompare ih =>
    have hplace := (consistentLe_rankedLe js).le_iff_lt_length_takeWhile hsorted candidate hcurrent
    rw [compare_eq_lt_iff, hplace, not_not] at hcompare
    exact ih hcompare hhigh hlength
  | case4 low high hlt => omega

/-! ## Insertion -/

theorem insertRankedSearchResult_eq {limit : ℕ} (hlength : rankedEntries.length ≤ limit) :
    insertRankedSearchResult js rankedEntries candidate limit =
      (insertAt (findInsertionIndex js rankedEntries candidate) candidate rankedEntries).take
        limit := by
  have hinserted := length_insertAt (findInsertionIndex js rankedEntries candidate) candidate
    rankedEntries
  rw [insertRankedSearchResult]
  split
  next hlimit =>
    obtain rfl := Nat.le_zero.mp hlimit
    rw [List.take_zero, List.eq_nil_of_length_eq_zero (Nat.le_zero.mp hlength)]
  next =>
    dsimp only
    split
    next hlt => rw [List.take_of_length_le (by omega)]
    next hlt =>
      split
      next hindex =>
        rw [insertAt, List.take_append_of_le_length (by rw [List.length_take]; omega),
          List.take_take, List.take_of_length_le (by omega)]
      next hindex => rw [List.dropLast_eq_take, hinserted, Nat.add_sub_cancel]; congr 1; omega

/-- Only the beginning of a list decides the beginning of what it is after an insertion. -/
theorem take_insertAt_take (n i : ℕ) (x : α) (items : List α) :
    (insertAt (min n i) x (items.take n)).take n = (insertAt i x items).take n := by
  have hcons : ∀ (m : ℕ) (rest : List α), (x :: rest.take m).take m = (x :: rest).take m := by
    intro m rest
    cases m with
    | zero => rfl
    | succ m => rw [List.take_succ_cons, List.take_succ_cons, List.take_take,
        Nat.min_eq_left (Nat.le_succ m)]
  rw [insertAt, insertAt, List.take_take, List.drop_take, min_right_comm, min_self,
    List.take_append, List.take_append]
  rcases le_or_gt i n with hin | hni
  · rw [Nat.min_eq_right hin]
    rcases le_or_gt i items.length with hi | hi
    · rw [List.length_take_of_le hi, hcons]
    · rw [List.drop_of_length_le hi.le, List.take_nil]
  · rw [Nat.min_eq_left hni.le, Nat.sub_self, List.take_zero, List.length_take, List.length_take]
    rcases le_or_gt n items.length with hn | hn
    · rw [Nat.sub_eq_zero_of_le (by omega), Nat.sub_eq_zero_of_le (by omega), List.take_zero,
        List.take_zero, List.take_take, List.take_take, Nat.min_eq_left hni.le, min_self]
    · rw [List.drop_of_length_le (by omega), List.take_of_length_le (by omega : items.length ≤ n),
        List.take_of_length_le (by omega : items.length ≤ i), Nat.min_eq_right (by omega),
        Nat.min_eq_right (by omega)]

theorem insertAt_takeWhile (p : α → Bool) (x : α) (items : List α) :
    insertAt (items.takeWhile p).length x items = items.takeWhile p ++ x :: items.dropWhile p := by
  have hsplit : items.takeWhile p ++ items.dropWhile p = items := List.takeWhile_append_dropWhile
  rw [insertAt]
  conv_lhs =>
    rw [← hsplit, List.take_left' (by rw [hsplit]), List.drop_left' (by rw [hsplit])]

/-- **The best results are kept**: the beginning of the stable sort of all candidates. -/
theorem foldl_insertRankedSearchResult (js : JsRuntime) (limit : ℕ)
    (candidates : List (RankedSearchResult α)) :
    candidates.foldl (fun entries candidate ↦
        insertRankedSearchResult js entries candidate limit) [] =
      (stableSort (rankedLe js) candidates).take limit := by
  have hle := consistentLe_rankedLe (α := α) js
  induction candidates using List.reverseRecOn with
  | nil => rw [stableSort, List.insertionSort_nil, List.take_nil, List.foldl_nil]
  | append_singleton candidates candidate ih =>
    rw [List.foldl_append, List.foldl_cons, List.foldl_nil, ih,
      hle.stableSort_append_singleton, ← insertAt_takeWhile]
    set sorted := stableSort (rankedLe js) candidates with hsorted
    have hkept : (sorted.take limit).Pairwise fun a b ↦ rankedLe js a b = true :=
      (hle.pairwise_stableSort candidates).sublist (List.take_sublist _ _)
    have hindex : findInsertionIndex js (sorted.take limit) candidate =
        min limit (sorted.takeWhile (rankedLe js · candidate)).length := by
      rw [findInsertionIndex, findInsertionIndexFrom_eq hkept (Nat.zero_le _)
        (List.takeWhile_prefix _).length_le le_rfl, ← List.take_takeWhile, List.length_take]
    rw [insertRankedSearchResult_eq (List.length_take_le _ _), hindex, take_insertAt_take]

/-- **Ranked insertion** keeps the best of the candidates in their stable order, and its search
stays within the list, sorted or not. -/
theorem insertRankedSearchResult_best (js : JsRuntime) :
    (∀ (limit : ℕ) (candidates : List (RankedSearchResult α)),
      candidates.foldl (fun entries candidate ↦
          insertRankedSearchResult js entries candidate limit) [] =
        (stableSort (rankedLe js) candidates).take limit) ∧
    ∀ (rankedEntries : List (RankedSearchResult α)) (candidate : RankedSearchResult α),
      findInsertionIndex js rankedEntries candidate ≤ rankedEntries.length := by
  refine ⟨foldl_insertRankedSearchResult js, fun rankedEntries candidate ↦ ?_⟩
  exact (findInsertionIndexFrom_mem 0 rankedEntries.length).2.trans (by simp)

end Awen.Search
