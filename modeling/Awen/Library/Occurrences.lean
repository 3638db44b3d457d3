import Awen.Library.Suffixes

/-!
# Where a recogniser finds something in a joined text

A recogniser looks at a text from a position on and finds something there, or nothing. `occurrences`
lists what it finds, position by position, and `occurrencesIn s t` what begins in `s` where the text
goes on with `t`. A text is a *joint* for the recogniser when what is found before it does not
depend on it: over a joint the occurrences of the whole are those of the parts. `labelled` keeps,
for a text that is made up of labelled parts, in which part each occurrence begins.
-/

namespace Awen

variable {α β σ : Type*} (recognise : List α → Option β)

/-- What is found at a position of `s`, where the text goes on with `t`. -/
def occurrencesIn : List α → List α → List β
  | [], _ => []
  | a :: s, t => (recognise (a :: s ++ t)).toList ++ occurrencesIn s t

/-- What is found in a text. -/
def occurrences (s : List α) : List β := occurrencesIn recognise s []

/-- What is found before `t` does not depend on it. -/
def IsJoint (t : List α) : Prop := ∀ a s, recognise (a :: s ++ t) = recognise (a :: s)

/-- What is found in `s` does not depend on what follows. -/
def IsClosed (s : List α) : Prop := ∀ t, occurrencesIn recognise s t = occurrences recognise s

variable {recognise}

@[simp] theorem occurrencesIn_nil (t : List α) : occurrencesIn recognise [] t = [] := rfl

theorem occurrencesIn_cons (a : α) (s t : List α) :
    occurrencesIn recognise (a :: s) t
      = (recognise (a :: s ++ t)).toList ++ occurrencesIn recognise s t := rfl

/-- Nothing is found where the recogniser looks at an element it does not start at. -/
theorem occurrencesIn_cons_of_none {a : α} {s t : List α} (h : recognise (a :: s ++ t) = none) :
    occurrencesIn recognise (a :: s) t = occurrencesIn recognise s t := by
  rw [occurrencesIn_cons, h, Option.toList_none, List.nil_append]

theorem occurrencesIn_append (s s' t : List α) :
    occurrencesIn recognise (s ++ s') t
      = occurrencesIn recognise s (s' ++ t) ++ occurrencesIn recognise s' t := by
  induction s with
  | nil => rfl
  | cons a s ih =>
    rw [List.cons_append, occurrencesIn_cons, occurrencesIn_cons, ih, List.append_assoc,
      List.cons_append, List.cons_append, List.append_assoc]

/-- **Before a joint, a part has its own occurrences.** -/
theorem occurrencesIn_of_isJoint {t : List α} (ht : IsJoint recognise t) (s : List α) :
    occurrencesIn recognise s t = occurrences recognise s := by
  rw [occurrences]
  induction s with
  | nil => rfl
  | cons a s ih => rw [occurrencesIn_cons, occurrencesIn_cons, ih, ht a s, List.append_nil]

theorem occurrencesIn_eq_nil {s t : List α}
    (h : ∀ a s', a :: s' <:+ s → recognise (a :: s' ++ t) = none) :
    occurrencesIn recognise s t = [] := by
  induction s with
  | nil => rfl
  | cons a s ih =>
    rw [occurrencesIn_cons_of_none (h a s (List.suffix_refl _))]
    exact ih fun b s' hs' ↦ h b s' (hs'.trans (List.suffix_cons a s))

/-! ## Labelled parts -/

/-- The text that labelled parts make up. -/
def joined (parts : List (σ × List α)) : List α := parts.flatMap Prod.snd

variable (recognise) in
/-- What is found in a text of labelled parts, each with the label of the part it begins in. -/
def labelled : List (σ × List α) → List (σ × β)
  | [] => []
  | part :: parts =>
    (occurrencesIn recognise part.2 (joined parts)).map (Prod.mk part.1) ++ labelled parts

@[simp] theorem joined_nil : joined ([] : List (σ × List α)) = [] := rfl

@[simp] theorem joined_cons (part : σ × List α) (parts : List (σ × List α)) :
    joined (part :: parts) = part.2 ++ joined parts := rfl

@[simp] theorem joined_append (parts parts' : List (σ × List α)) :
    joined (parts ++ parts') = joined parts ++ joined parts' := List.flatMap_append

/-- **Parts whose occurrences do not depend on what follows have theirs alone.** -/
theorem labelled_eq_flatMap {parts : List (σ × List α)}
    (h : EveryRest (fun part after ↦
      occurrencesIn recognise part.2 (joined after) = occurrences recognise part.2) parts) :
    labelled recognise parts
      = parts.flatMap fun part ↦ (occurrences recognise part.2).map (Prod.mk part.1) := by
  induction parts with
  | nil => rfl
  | cons part parts ih =>
    obtain ⟨hpart, hparts⟩ := everyRest_cons.mp h
    rw [labelled, hpart, ih hparts, List.flatMap_cons]

/-- The occurrences with labels of a kind are those of the parts with such labels. -/
theorem filter_flatMap_label (p : σ → Bool) (found : List α → List β)
    (parts : List (σ × List α)) :
    (parts.flatMap fun part ↦ (found part.2).map (Prod.mk part.1)).filter (p ·.1)
      = (parts.filter (p ·.1)).flatMap fun part ↦ (found part.2).map (Prod.mk part.1) := by
  induction parts with
  | nil => rfl
  | cons part parts ih =>
    rw [List.flatMap_cons, List.filter_append, ih, List.filter_map, List.filter_cons]
    by_cases h : p part.1 = true
    · have hkept : (found part.2).filter ((p ·.1) ∘ Prod.mk part.1) = found part.2 :=
        List.filter_eq_self.mpr fun _ _ ↦ h
      rw [if_pos h, List.flatMap_cons, hkept]
    · have hkept : (found part.2).filter ((p ·.1) ∘ Prod.mk part.1) = [] :=
        List.filter_eq_nil_iff.mpr fun _ _ ↦ h
      rw [if_neg h, hkept]
      rfl

end Awen
