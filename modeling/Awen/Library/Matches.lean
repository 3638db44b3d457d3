import Mathlib.Data.List.Basic
import Awen.Library.Occurrences

/-!
# Searching a text from left to right

A recogniser looks at a text from a position on. `matchesFrom` is the list of what a search from
left to right finds: it goes on behind a match, and one element further where there is none.
`substituteFrom` writes something in the place of each match. Both keep up with joining two texts
over a joint of the recogniser, and find a match that a text begins with.
-/

namespace Awen

variable {α β : Type*} (recognise : List α → Option β) (source : β → List α)

/-- The matches in a text, each with its position. The next `skip` elements belong to the match
before. -/
def matchesFrom (index : ℕ) : ℕ → List α → List (ℕ × β)
  | _, [] => []
  | skip + 1, _ :: text => matchesFrom (index + 1) skip text
  | 0, a :: text =>
    match recognise (a :: text) with
    | none => matchesFrom (index + 1) 0 text
    | some found => (index, found) :: matchesFrom (index + 1) ((source found).length - 1) text

/-- The text with something else in the place of each match. -/
def substituteFrom (write : β → List α) : ℕ → List α → List α
  | _, [] => []
  | skip + 1, _ :: text => substituteFrom write skip text
  | 0, a :: text =>
    match recognise (a :: text) with
    | none => a :: substituteFrom write 0 text
    | some found => write found ++ substituteFrom write ((source found).length - 1) text

-- makes the equations once for all proofs
attribute [local simp] matchesFrom substituteFrom

/-- What is found is not empty, and the text begins with it. -/
structure RecognisesSources : Prop where
  prefix_of : ∀ {text found}, recognise text = some found → source found <+: text
  ne_nil : ∀ found, source found ≠ []

variable {recognise source}

namespace RecognisesSources

variable (h : RecognisesSources recognise source)
include h

theorem length_pos (found : β) : 0 < (source found).length :=
  List.length_pos_of_ne_nil (h.ne_nil found)

theorem length_le {a : α} {text : List α} {found : β}
    (hfound : recognise (a :: text) = some found) :
    (source found).length - 1 ≤ text.length := by
  have hle := (h.prefix_of hfound).length_le
  rw [List.length_cons] at hle
  omega

/-- **Over a joint the matches are those of the parts.** -/
theorem matchesFrom_append {after : List α} (hjoint : IsJoint recognise after) (text : List α) :
    ∀ index skip, skip ≤ text.length →
      matchesFrom recognise source index skip (text ++ after) =
        matchesFrom recognise source index skip text ++
          matchesFrom recognise source (index + text.length) 0 after := by
  induction text with
  | nil =>
    intro index skip hskip
    obtain rfl := Nat.le_zero.mp hskip
    rfl
  | cons a text ih =>
    intro index skip hskip
    have hindex : index + (a :: text).length = index + 1 + text.length := by
      rw [List.length_cons]
      omega
    rw [List.cons_append, hindex]
    rcases skip with _ | skip
    · rw [matchesFrom, matchesFrom, ← List.cons_append, hjoint a text]
      cases hfound : recognise (a :: text) with
      | none => exact ih (index + 1) 0 (Nat.zero_le _)
      | some found =>
        exact congrArg ((index, found) :: ·) (ih (index + 1) _ (h.length_le hfound))
    · rw [List.length_cons] at hskip
      rw [matchesFrom, matchesFrom]
      exact ih (index + 1) skip (Nat.le_of_succ_le_succ hskip)

theorem substituteFrom_append {after : List α} (hjoint : IsJoint recognise after)
    (write : β → List α) (text : List α) :
    ∀ skip, skip ≤ text.length →
      substituteFrom recognise source write skip (text ++ after) =
        substituteFrom recognise source write skip text ++
          substituteFrom recognise source write 0 after := by
  induction text with
  | nil =>
    intro skip hskip
    obtain rfl := Nat.le_zero.mp hskip
    rfl
  | cons a text ih =>
    intro skip hskip
    rw [List.cons_append]
    rcases skip with _ | skip
    · rw [substituteFrom, substituteFrom, ← List.cons_append, hjoint a text]
      cases hfound : recognise (a :: text) with
      | none => exact congrArg (a :: ·) (ih 0 (Nat.zero_le _))
      | some found =>
        have hrest := ih _ (h.length_le hfound)
        exact (congrArg (write found ++ ·) hrest).trans (List.append_assoc ..).symm
    · rw [List.length_cons] at hskip
      rw [substituteFrom, substituteFrom]
      exact ih skip (Nat.le_of_succ_le_succ hskip)

omit h in
theorem matchesFrom_skip (text after : List α) (index : ℕ) :
    matchesFrom recognise source index text.length (text ++ after) =
      matchesFrom recognise source (index + text.length) 0 after := by
  induction text generalizing index with
  | nil => rfl
  | cons a text ih =>
    rw [List.cons_append, List.length_cons, matchesFrom, ih, Nat.add_assoc, Nat.add_comm 1]

omit h in
theorem substituteFrom_skip (write : β → List α) (text after : List α) :
    substituteFrom recognise source write text.length (text ++ after) =
      substituteFrom recognise source write 0 after := by
  induction text with
  | nil => rfl
  | cons a text ih => rw [List.cons_append, List.length_cons, substituteFrom, ih]

/-- **A match that a text begins with is found first.** -/
theorem matchesFrom_source {found : β} {after : List α}
    (hfound : recognise (source found ++ after) = some found) (index : ℕ) :
    matchesFrom recognise source index 0 (source found ++ after) =
      (index, found) ::
        matchesFrom recognise source (index + (source found).length) 0 after := by
  obtain ⟨a, text, htext⟩ := List.exists_cons_of_ne_nil (h.ne_nil found)
  rw [htext, List.cons_append] at hfound
  rw [htext, List.cons_append, matchesFrom, hfound]
  refine congrArg ((index, found) :: ·) ?_
  rw [htext, List.length_cons, Nat.add_sub_cancel, matchesFrom_skip, Nat.add_assoc,
    Nat.add_comm 1]

theorem substituteFrom_source {found : β} {after : List α}
    (hfound : recognise (source found ++ after) = some found) (write : β → List α) :
    substituteFrom recognise source write 0 (source found ++ after) =
      write found ++ substituteFrom recognise source write 0 after := by
  obtain ⟨a, text, htext⟩ := List.exists_cons_of_ne_nil (h.ne_nil found)
  rw [htext, List.cons_append] at hfound
  rw [htext, List.cons_append, substituteFrom, hfound]
  refine congrArg (write found ++ ·) ?_
  rw [htext, List.length_cons, Nat.add_sub_cancel, substituteFrom_skip]

/-- **A text whose matches are written as they are does not change.** -/
theorem substituteFrom_eq_self {write : β → List α} (text : List α) :
    ∀ index skip, skip ≤ text.length →
      (∀ found ∈ matchesFrom recognise source index skip text,
        write found.2 = source found.2) →
      substituteFrom recognise source write skip text = text.drop skip := by
  induction text with
  | nil => exact fun _ _ _ _ ↦ List.drop_nil.symm
  | cons a text ih =>
    intro index skip hskip hwrite
    rcases skip with _ | skip
    · rw [matchesFrom] at hwrite
      rw [substituteFrom, List.drop_zero]
      cases hfound : recognise (a :: text) with
      | none =>
        rw [hfound] at hwrite
        exact congrArg (a :: ·) (ih (index + 1) 0 (Nat.zero_le _) hwrite)
      | some found =>
        rw [hfound] at hwrite
        dsimp only at hwrite ⊢
        rw [ih (index + 1) _ (h.length_le hfound) fun other hother ↦
          hwrite other (List.mem_cons_of_mem _ hother), hwrite (index, found) List.mem_cons_self]
        -- the match and what is behind it are the text
        have hpos := h.length_pos found
        have hdrop : text.drop ((source found).length - 1) =
            (a :: text).drop (source found).length := by
          conv_rhs => rw [← Nat.sub_add_cancel hpos, List.drop_succ_cons]
        rw [hdrop]
        exact (List.prefix_iff_eq_append.mp (h.prefix_of hfound))
    · rw [List.length_cons] at hskip
      rw [matchesFrom] at hwrite
      rw [substituteFrom, List.drop_succ_cons]
      exact ih (index + 1) skip (Nat.le_of_succ_le_succ hskip) hwrite

omit h in
/-- The positions are counted from the start of the search. -/
theorem matchesFrom_add (text : List α) (skip index offset : ℕ) :
    matchesFrom recognise source (index + offset) skip text =
      (matchesFrom recognise source index skip text).map fun found ↦
        (found.1 + offset, found.2) := by
  induction text generalizing skip index with
  | nil => rfl
  | cons a text ih =>
    rcases skip with _ | skip
    · rw [matchesFrom, matchesFrom, Nat.add_right_comm]
      cases recognise (a :: text) with
      | none => exact ih 0 (index + 1)
      | some found =>
        rw [List.map_cons]
        exact congrArg (_ :: ·) (ih _ (index + 1))
    · rw [matchesFrom, matchesFrom, Nat.add_right_comm]
      exact ih skip (index + 1)

end RecognisesSources

end Awen
