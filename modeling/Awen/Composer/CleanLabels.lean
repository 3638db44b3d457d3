import Awen.Composer.ContextReferences
import Mathlib.Data.List.Chain

/-!
# Clean labels

`sanitizeComposerContextLabel` takes out what a Markdown link cannot carry, leaves single blanks,
trims, and cuts to a length. The cut comes last, so that it can leave a blank at the end:
`sanitize_sanitize_iff` says that a second pass changes nothing exactly if the cut does not fall
behind a blank.
-/

namespace Awen.Composer

/-! ## Single blanks -/

/-- What a label cannot carry: `[`, `]`, `\` and the line breaks. -/
def isMarkupUnit (u : UInt16) : Bool := u == 0x5b || u == 0x5d || u == 0x5c || u == 0xd || u == 0xa

/-- The label before it is cut. -/
def cleanLabel (label : CodeUnits) : CodeUnits :=
  trim (collapseSpaces false (blankOut isMarkupUnit label))

theorem sanitize_eq (label : CodeUnits) (kind : ComposerContextKind) :
    sanitizeComposerContextLabel label kind =
      if 0 < ((cleanLabel label).take labelMaxChars).length
      then (cleanLabel label).take labelMaxChars
      else kind.1 := rfl

/-- **A clean text**: no markup, and white space only as single blanks. -/
structure IsClean (s : CodeUnits) : Prop where
  plain : ∀ u ∈ s, isMarkupUnit u = false
  blank : ∀ u ∈ s, isSpaceUnit u = true → u = 0x20
  single : s.IsChain fun u v ↦ ¬(isSpaceUnit u = true ∧ isSpaceUnit v = true)

theorem IsClean.of_part {s t : CodeUnits} (h : IsClean t) (hpart : s <:+: t) : IsClean s where
  plain u hu := h.plain u (hpart.subset hu)
  blank u hu := h.blank u (hpart.subset hu)
  single := h.single.infix hpart

theorem mem_collapseSpaces {inside : Bool} {s : CodeUnits} {u : UInt16}
    (hu : u ∈ collapseSpaces inside s) : u = 0x20 ∨ u ∈ s ∧ isSpaceUnit u = false := by
  induction s generalizing inside with
  | nil => exact absurd hu List.not_mem_nil
  | cons v s ih =>
    rw [collapseSpaces] at hu
    have hrest {inside : Bool} (hu : u ∈ collapseSpaces inside s) :
        u = 0x20 ∨ u ∈ v :: s ∧ isSpaceUnit u = false :=
      (ih hu).imp_right fun h ↦ ⟨List.mem_cons_of_mem _ h.1, h.2⟩
    split at hu
    · split at hu
      · exact hrest hu
      · obtain rfl | hu := List.mem_cons.mp hu
        · exact .inl rfl
        · exact hrest hu
    next hspace =>
      obtain rfl | hu := List.mem_cons.mp hu
      · exact .inr ⟨List.mem_cons_self, Bool.not_eq_true _ ▸ hspace⟩
      · exact hrest hu

/-- Behind white space no white space is left, so that blanks stand alone. -/
theorem single_collapseSpaces (inside : Bool) (s : CodeUnits) :
    ((collapseSpaces inside s).IsChain fun u v ↦ ¬(isSpaceUnit u = true ∧ isSpaceUnit v = true)) ∧
      (inside = true → ∀ u, (collapseSpaces inside s).head? = some u → isSpaceUnit u = false) := by
  induction s generalizing inside with
  | nil => exact ⟨List.isChain_nil, fun _ u hu ↦ nomatch hu⟩
  | cons v s ih =>
    rw [collapseSpaces]
    split
    · split
      next hinside => exact ⟨(ih true).1, fun _ ↦ (ih true).2 rfl⟩
      next hinside =>
        refine ⟨List.isChain_cons.mpr ⟨fun u hu h ↦ ?_, (ih true).1⟩, fun h ↦ absurd h hinside⟩
        exact absurd h.2 (by rw [(ih true).2 rfl u hu]; exact nofun)
    next hspace =>
      refine ⟨List.isChain_cons.mpr ⟨fun u _ h ↦ hspace h.1, (ih false).1⟩, ?_⟩
      rintro - u ⟨⟩
      exact Bool.not_eq_true _ ▸ hspace

theorem isClean_collapseSpaces {s : CodeUnits} (h : ∀ u ∈ s, isMarkupUnit u = false) :
    IsClean (collapseSpaces false s) where
  plain u hu := by
    obtain rfl | ⟨hmem, -⟩ := mem_collapseSpaces hu
    · rfl
    · exact h u hmem
  blank u hu hspace := (mem_collapseSpaces hu).resolve_right fun h ↦ by
    rw [h.2] at hspace
    exact nomatch hspace
  single := (single_collapseSpaces false s).1

theorem plain_blankOut (s : CodeUnits) :
    ∀ u ∈ blankOut isMarkupUnit s, isMarkupUnit u = false := by
  intro u hu
  obtain ⟨v, -, rfl⟩ := List.mem_map.mp hu
  split
  · rfl
  · exact Bool.not_eq_true _ ▸ ‹_›

theorem trim_isInfix (s : CodeUnits) : trim s <:+: s := by
  obtain ⟨before, after, hs, -, -⟩ := exists_trim s
  exact ⟨before, after, hs.symm⟩

theorem isClean_cleanLabel (label : CodeUnits) : IsClean (cleanLabel label) :=
  (isClean_collapseSpaces (plain_blankOut label)).of_part (trim_isInfix _)

/-- Where blanks stand alone nothing is collapsed. -/
theorem collapseSpaces_eq_self {inside : Bool} {s : CodeUnits} (h : IsClean s)
    (hhead : inside = true → ∀ u, s.head? = some u → isSpaceUnit u = false) :
    collapseSpaces inside s = s := by
  induction s generalizing inside with
  | nil => rfl
  | cons v s ih =>
    obtain ⟨hnext, -⟩ := List.isChain_cons.mp h.single
    have hrest : IsClean s := h.of_part (List.suffix_cons v s).isInfix
    rw [collapseSpaces]
    split
    next hspace =>
      have hinside : ¬inside = true := fun hinside ↦ by
        rw [hhead hinside v rfl] at hspace
        exact nomatch hspace
      rw [if_neg hinside, ih hrest fun _ u hu ↦ Bool.not_eq_true _ ▸ fun h ↦ hnext u hu ⟨hspace, h⟩,
        h.blank v List.mem_cons_self hspace]
    next hspace => rw [@ih false hrest fun h ↦ nomatch h]

/-- **A clean text is only trimmed.** -/
theorem IsClean.cleanLabel_eq {s : CodeUnits} (h : IsClean s) : cleanLabel s = trim s := by
  have hblank : blankOut isMarkupUnit s = s :=
    (List.map_congr_left fun u hu ↦ by rw [h.plain u hu]; rfl).trans (List.map_id s)
  rw [cleanLabel, hblank, @collapseSpaces_eq_self false s h fun h ↦ nomatch h]

/-! ## Sanitized labels -/

/-- A kind is a clean text. -/
theorem kind_unit (kind : ComposerContextKind) {u : UInt16} (hu : u ∈ kind.1) :
    isMarkupUnit u = false ∧ isSpaceUnit u = false ∧ u ≠ 0x2f ∧ isHrefUnit u = true := by
  have hcases : isLowerUnit u = true ∨ isDigitUnit u = true ∨ u = 0x2d := by
    obtain ⟨s, hs⟩ := kind
    cases s with
    | nil => exact absurd hu List.not_mem_nil
    | cons v s =>
      simp only [matchesKindPattern, Bool.and_eq_true, List.all_eq_true, Bool.or_eq_true,
        beq_iff_eq] at hs
      obtain rfl | hu := List.mem_cons.mp hu
      · exact .inl hs.1.1
      · exact or_assoc.mp (hs.1.2 u hu)
  simp only [isMarkupUnit, isSpaceUnit, isLowerUnit, isDigitUnit, isHrefUnit,
    Bool.or_eq_false_iff, Bool.and_eq_true, Bool.not_eq_true', decide_eq_true_eq,
    decide_eq_false_iff_not, beq_eq_false_iff_ne, bne_iff_ne, UInt16.le_iff_toNat_le,
    ← UInt16.toNat_inj, ne_eq, UInt16.reduceToNat] at hcases ⊢
  omega

theorem isClean_of_not_space {s : CodeUnits} (hplain : ∀ u ∈ s, isMarkupUnit u = false)
    (hspace : ∀ u ∈ s, isSpaceUnit u = false) : IsClean s where
  plain := hplain
  blank u hu h := by
    rw [hspace u hu] at h
    exact nomatch h
  single := by
    refine List.isChain_iff_forall_rel_of_append_cons_cons.mpr ?_
    rintro u v before after rfl ⟨h, -⟩
    rw [hspace u (by simp)] at h
    exact nomatch h

theorem isClean_kind (kind : ComposerContextKind) : IsClean kind.1 :=
  isClean_of_not_space (fun _ hu ↦ (kind_unit kind hu).1) fun _ hu ↦ (kind_unit kind hu).2.1

theorem trim_kind (kind : ComposerContextKind) : trim kind.1 = kind.1 :=
  trim_eq_self_iff.mpr ⟨fun _ hu ↦ (kind_unit kind (List.mem_of_mem_head? hu)).2.1,
    fun _ hu ↦ (kind_unit kind (List.mem_of_mem_getLast? hu)).2.1⟩

theorem kind_length (kind : ComposerContextKind) : 0 < kind.1.length ∧ kind.1.length ≤ 40 := by
  obtain ⟨s, hs⟩ := kind
  cases s with
  | nil => exact nomatch hs
  | cons u s =>
    simp only [matchesKindPattern, Bool.and_eq_true, decide_eq_true_eq] at hs
    exact ⟨Nat.succ_pos _, Nat.succ_le_succ hs.2⟩

/-- **The label before the cut, or the kind.** -/
theorem sanitize_cases (label : CodeUnits) (kind : ComposerContextKind) :
    (cleanLabel label ≠ [] ∧
      sanitizeComposerContextLabel label kind = (cleanLabel label).take labelMaxChars) ∨
    (cleanLabel label = [] ∧ sanitizeComposerContextLabel label kind = kind.1) := by
  rw [sanitize_eq]
  cases hclean : cleanLabel label with
  | nil => exact .inr ⟨rfl, rfl⟩
  | cons u s => exact .inl ⟨nofun, if_pos (by simp [labelMaxChars])⟩

/-- What a label has that is sanitized. -/
structure IsSanitized (label : CodeUnits) : Prop where
  clean : IsClean label
  length_pos : 0 < label.length
  length_le : label.length ≤ labelMaxChars
  head : ∀ u, label.head? = some u → isSpaceUnit u = false

theorem isSanitized_sanitize (label : CodeUnits) (kind : ComposerContextKind) :
    IsSanitized (sanitizeComposerContextLabel label kind) := by
  obtain ⟨hne, h⟩ | ⟨-, h⟩ := sanitize_cases label kind <;> rw [h]
  · have hpos := List.length_pos_iff.mpr hne
    refine ⟨(isClean_cleanLabel label).of_part (List.take_prefix _ _).isInfix, ?_,
      List.length_take_le _ _, fun u hu ↦ ?_⟩
    · rw [List.length_take, labelMaxChars]
      omega
    · rw [List.head?_take, if_neg (by decide)] at hu
      exact head_trim hu
  · have hkind := trim_eq_self_iff.mp (trim_kind kind)
    exact ⟨isClean_kind kind, (kind_length kind).1, (kind_length kind).2.trans (by decide),
      fun u hu ↦ hkind.1 u hu⟩

/-- A label that is sanitized is only trimmed. -/
theorem IsSanitized.sanitize_eq {label : CodeUnits} (h : IsSanitized label)
    (kind : ComposerContextKind) : sanitizeComposerContextLabel label kind = trim label := by
  have hne : trim label ≠ [] := by
    intro hnil
    obtain ⟨before, after, hs, hbefore, hafter⟩ := exists_trim label
    rw [hnil, List.append_nil] at hs
    obtain ⟨u, hu⟩ := List.exists_mem_of_length_pos h.length_pos
    have hspace : ∀ u ∈ label, isSpaceUnit u = true := by
      rw [hs, List.forall_mem_append]
      exact ⟨hbefore, hafter⟩
    obtain ⟨v, hv⟩ := Option.isSome_iff_exists.mp (List.isSome_head?.mpr (List.ne_nil_of_mem hu))
    have hnot := h.head v hv
    rw [hspace v (List.mem_of_mem_head? hv)] at hnot
    exact nomatch hnot
  have hlength : (trim label).length ≤ labelMaxChars :=
    (trim_isInfix label).length_le.trans h.length_le
  obtain ⟨-, h'⟩ | ⟨hnil, -⟩ := sanitize_cases label kind
  · rw [h', h.clean.cleanLabel_eq, List.take_of_length_le hlength]
  · exact absurd (h.clean.cleanLabel_eq ▸ hnil) hne

/-- The cut falls behind a blank. -/
def CutsAtBlank (label : CodeUnits) : Prop := (cleanLabel label)[labelMaxChars - 1]? = some 0x20

instance (label : CodeUnits) : Decidable (CutsAtBlank label) := inferInstanceAs (Decidable (_ = _))

/-- **Sanitizing a sanitized label changes nothing, exactly if the cut does not fall behind a
blank.** -/
theorem sanitize_sanitize_iff (label : CodeUnits) (kind : ComposerContextKind) :
    sanitizeComposerContextLabel (sanitizeComposerContextLabel label kind) kind =
      sanitizeComposerContextLabel label kind ↔ ¬CutsAtBlank label := by
  rw [(isSanitized_sanitize label kind).sanitize_eq]
  have hhead := (isSanitized_sanitize label kind).head
  obtain ⟨hne, h⟩ | ⟨hnil, h⟩ := sanitize_cases label kind
  · have hspaces : ∀ {u}, (cleanLabel label).getLast? = some u → isSpaceUnit u = false :=
      fun hu ↦ getLast_trimEnd hu
    rw [trim_eq_self_iff, and_iff_right hhead, h, CutsAtBlank]
    obtain hlt | hle := Nat.lt_or_ge (cleanLabel label).length labelMaxChars
    · rw [List.take_of_length_le hlt.le, List.getElem?_eq_none (by omega)]
      exact iff_of_true (fun u hu ↦ hspaces hu) nofun
    · rw [List.getLast?_take, if_neg (by decide)]
      have hsome : (cleanLabel label)[labelMaxChars - 1]? =
          some ((cleanLabel label)[labelMaxChars - 1]) := List.getElem?_eq_getElem _
      rw [hsome, Option.some_or]
      constructor
      · intro hlast hcut
        exact absurd (hlast _ rfl) (by rw [Option.some.inj hcut]; decide)
      · rintro hcut u ⟨⟩
        by_contra hspace
        refine hcut (congrArg some ((isClean_cleanLabel label).blank _ (List.getElem_mem _) ?_))
        simpa using hspace
  · rw [h, CutsAtBlank, hnil]
    exact iff_of_true (trim_kind kind) nofun

end Awen.Composer
