import Awen.Library.Unicode
import Mathlib.Order.Bounds.Basic

/-!
# Scores of subsequence matches

`scoreSubsequenceMatch` looks for the units of a query in a value, in their order, and takes each
where it first comes up. So it ends as early as any occurrence of the query can end, and its
penalties for gaps and for the span are the same number.
-/

namespace Awen.Search

/-- The loop of `scoreSubsequenceMatch` from a position on, with the first and the previous match
so far. -/
def scanSubsequence (valueLength queryLength : ℕ) :
    CodeUnits → ℕ → CodeUnits → Option (ℕ × ℕ) → ℤ → Option ℤ
  | unit :: value, valueIndex, next :: query, matched, gapPenalty =>
    if unit ≠ next then
      scanSubsequence valueLength queryLength value (valueIndex + 1) (next :: query) matched
        gapPenalty
    else
      let firstMatchIndex := (matched.map Prod.fst).getD valueIndex
      let gapPenalty := gapPenalty + matched.elim 0 fun m ↦ (valueIndex : ℤ) - m.2 - 1
      if query = [] then
        let spanPenalty : ℤ := valueIndex - firstMatchIndex + 1 - queryLength
        let lengthPenalty : ℤ := min 64 (valueLength - queryLength)
        some (firstMatchIndex * 2 + gapPenalty * 3 + spanPenalty + lengthPenalty)
      else
        scanSubsequence valueLength queryLength value (valueIndex + 1) query
          (some (firstMatchIndex, valueIndex)) gapPenalty
  | _, _, _, _, _ => none

def scoreSubsequenceMatch (value query : CodeUnits) : Option ℤ :=
  if query = [] then some 0
  else scanSubsequence value.length query.length value 0 query none 0

/-- A query is in a value up to a position, and up to none before it. -/
def EndsAt (value query : CodeUnits) (last : ℕ) : Prop :=
  IsLeast {n | query.Sublist (value.take (n + 1))} last

theorem endsAt_cons {unit : UInt16} {value query rest : CodeUnits} {last : ℕ} (hrest : rest ≠ [])
    (h : ∀ n, query.Sublist (unit :: value.take n) ↔ rest.Sublist (value.take n)) :
    EndsAt (unit :: value) query last ↔ ∃ n, EndsAt value rest n ∧ n + 1 = last := by
  have hzero : ¬ rest.Sublist (value.take 0) := by simpa using hrest
  simp only [EndsAt, IsLeast, lowerBounds, Set.mem_ofPred_eq, List.take_succ_cons, h]
  constructor
  · rintro ⟨hlast, hleast⟩
    cases last with
    | zero => exact absurd hlast hzero
    | succ n => exact ⟨n, ⟨hlast, fun k hk ↦ Nat.le_of_succ_le_succ (hleast hk)⟩, rfl⟩
  · rintro ⟨n, ⟨hn, hleast⟩, rfl⟩
    refine ⟨hn, fun k hk ↦ ?_⟩
    cases k with
    | zero => exact absurd hk hzero
    | succ k => exact Nat.succ_le_succ (hleast hk)

/-- **The scan ends where the query first ends.** The gaps so far are what lies between the matches
of the units that come before the rest of the query. -/
theorem scanSubsequence_eq_some_iff {valueLength queryLength valueIndex : ℕ}
    {value query : CodeUnits} {matched : Option (ℕ × ℕ)} {gapPenalty score : ℤ}
    (hquery : query ≠ []) (hgap : gapPenalty =
      matched.elim 0 (fun m ↦ (m.2 : ℤ) - m.1 + 1) - (queryLength - query.length)) :
    scanSubsequence valueLength queryLength value valueIndex query matched gapPenalty = some score ↔
      ∃ last, EndsAt value query last ∧ score =
        (matched.map Prod.fst).getD (valueIndex + value.idxOf (query.headD 0)) * 2 +
        (valueIndex + last - (matched.map Prod.fst).getD (valueIndex + value.idxOf (query.headD 0))
          + 1 - queryLength) * 4 + min 64 ((valueLength : ℤ) - queryLength) := by
  induction value generalizing valueIndex query matched gapPenalty with
  | nil => simp [scanSubsequence, EndsAt, IsLeast, hquery]
  | cons unit value ih =>
    obtain ⟨next, query, rfl⟩ := List.exists_cons_of_ne_nil hquery
    rw [scanSubsequence]
    by_cases hne : unit = next
    · subst hne
      have hgap' : gapPenalty + matched.elim 0 (fun m ↦ (valueIndex : ℤ) - m.2 - 1) =
          (valueIndex : ℤ) - (matched.map Prod.fst).getD valueIndex + 1 -
            (queryLength - query.length) := by
        cases matched with
        | none =>
          simp only [hgap, Option.elim_none, Option.map_none, Option.getD_none, List.length_cons]
          push_cast
          ring
        | some m =>
          simp only [hgap, Option.elim_some, Option.map_some, Option.getD_some, List.length_cons]
          push_cast
          ring
      rw [if_neg (not_not.mpr rfl)]
      simp only [List.headD_cons, List.idxOf_cons_self, Nat.add_zero]
      by_cases hlast : query = []
      · subst hlast
        have hends (last : ℕ) : EndsAt (unit :: value) [unit] last ↔ last = 0 := by
          have hzero : [unit].Sublist ((unit :: value).take (0 + 1)) := List.Sublist.refl _
          exact ⟨fun h ↦ Nat.le_zero.mp (h.2 hzero), fun h ↦ h ▸ ⟨hzero, fun _ _ ↦ Nat.zero_le _⟩⟩
        simp only [hends, exists_eq_left, hgap', if_pos, Option.some_inj, List.length_nil]
        rw [eq_comm]
        refine iff_of_eq (congrArg (score = ·) ?_)
        omega
      · have hends (last : ℕ) : EndsAt (unit :: value) (unit :: query) last ↔
            ∃ n, EndsAt value query n ∧ n + 1 = last :=
          endsAt_cons hlast fun _ ↦ List.cons_sublist_cons
        rw [if_neg hlast, ih hlast (by simpa using hgap')]
        simp only [hends, exists_exists_and_eq_and]
        refine exists_congr fun n ↦ and_congr_right fun _ ↦ iff_of_eq (congrArg (score = ·) ?_)
        simp only [Option.map_some, Option.getD_some]
        omega
    · have hends (last : ℕ) : EndsAt (unit :: value) (next :: query) last ↔
          ∃ n, EndsAt value (next :: query) n ∧ n + 1 = last :=
        endsAt_cons hquery fun _ ↦ by rw [List.sublist_cons_iff]; simp [Ne.symm hne]
      rw [if_pos hne, ih hquery hgap, List.headD_cons, List.idxOf_cons_ne _ hne]
      simp only [hends, exists_exists_and_eq_and]
      refine exists_congr fun n ↦ and_congr_right fun _ ↦ iff_of_eq (congrArg (score = ·) ?_)
      rw [Nat.succ_eq_add_one, Nat.add_right_comm, Nat.add_assoc]
      omega

/-- **The score of a subsequence match**, by where the first unit of the query is and where the
query first ends. -/
theorem scoreSubsequenceMatch_eq_some_iff (value : CodeUnits) (unit : UInt16) (query : CodeUnits)
    (score : ℤ) : scoreSubsequenceMatch value (unit :: query) = some score ↔
      ∃ last, EndsAt value (unit :: query) last ∧
        score = (value.idxOf unit : ℤ) * 2 + (last - value.idxOf unit - query.length) * 4 +
          min 64 ((value.length : ℤ) - (query.length + 1)) := by
  have hne : unit :: query ≠ [] := List.cons_ne_nil _ _
  rw [scoreSubsequenceMatch, if_neg hne, scanSubsequence_eq_some_iff hne (by simp)]
  refine exists_congr fun last ↦ and_congr_right fun _ ↦ iff_of_eq (congrArg (score = ·) ?_)
  simp only [List.headD_cons, Option.map_none, Option.getD_none, List.length_cons]
  omega

end Awen.Search
