import Awen.Composer.ContextReferences
import Awen.Library.Occurrences

/-!
# Captured text opens and closes no tag

`tagAt` looks for a tag of the envelope at a position of a text. What follows a text makes no
difference to the tags before it unless it begins with a word unit or a slash (`isJoint_cons`), and
an escaped text has no tag before any such joint (`occurrencesIn_escape`). So a marker has none,
whatever stands after it, and an entry has those of its own frame.
-/

namespace Awen.Composer

variable {s t : CodeUnits} {u : UInt16}

/-! ## Tags at a position -/

/-- The tag of a name that is read up to its word boundary. -/
private def namedTag (closing : Bool) (rest : CodeUnits) : Option Tag :=
  let word := (rest.takeWhile isWordUnit).map lowerUnit
  if word = TagName.awenContext.text then some ⟨closing, .awenContext⟩
  else if word = TagName.context.text then some ⟨closing, .context⟩
  else none

theorem tagAt_cons_of_ne (h : u ≠ 0x3c) : tagAt (u :: s) = none := by
  unfold tagAt
  split
  · rename_i heq
    exact absurd (List.cons.inj heq).1 h
  · rfl

private theorem tagAt_closing : tagAt (0x3c :: 0x2f :: s) = namedTag true s := rfl

private theorem tagAt_opening (h : s.head? ≠ some 0x2f) : tagAt (0x3c :: s) = namedTag false s := by
  rcases s with _ | ⟨v, s⟩
  · rfl
  · have hv : v ≠ 0x2f := fun heq ↦ h (heq ▸ rfl)
    simp only [tagAt, namedTag]
    split
    · rename_i heq
      exact absurd (List.cons.inj heq).1 hv
    · rfl

/-- What may follow a text without a difference to its tags. -/
def Separates (t : CodeUnits) : Prop := ∀ u ∈ t.head?, isWordUnit u = false ∧ u ≠ 0x2f

theorem separates_cons (hword : isWordUnit u = false) (hslash : u ≠ 0x2f) : Separates (u :: t) := by
  intro v hv
  obtain rfl := Option.some.inj hv
  exact ⟨hword, hslash⟩

private theorem takeWhile_append_of_separates (ht : Separates t) (s : CodeUnits) :
    (s ++ t).takeWhile isWordUnit = s.takeWhile isWordUnit := by
  induction s with
  | nil =>
    rcases t with _ | ⟨u, t⟩
    · rfl
    · exact List.takeWhile_cons_of_neg (by simp [(ht u rfl).1])
  | cons v s ih =>
    by_cases hv : isWordUnit v = true
    · rw [List.cons_append, List.takeWhile_cons_of_pos hv, List.takeWhile_cons_of_pos hv, ih]
    · rw [List.cons_append, List.takeWhile_cons_of_neg hv, List.takeWhile_cons_of_neg hv]

private theorem namedTag_append (ht : Separates t) (closing : Bool) (s : CodeUnits) :
    namedTag closing (s ++ t) = namedTag closing s := by
  simp only [namedTag, takeWhile_append_of_separates ht]

/-- **A text that begins with neither a word unit nor a slash is a joint.** -/
theorem Separates.isJoint (ht : Separates t) : IsJoint tagAt t := by
  intro u s
  by_cases hu : u = 0x3c
  · subst hu
    rcases s with _ | ⟨v, s⟩
    · have hhead : t.head? ≠ some 0x2f := fun h ↦ (ht 0x2f h).2 rfl
      rw [List.cons_append, List.nil_append, tagAt_opening hhead,
        ← List.nil_append t, namedTag_append ht]
      rfl
    · by_cases hv : v = 0x2f
      · subst hv
        rw [List.cons_append, List.cons_append, tagAt_closing, tagAt_closing, namedTag_append ht]
      · have hne (r : CodeUnits) : (v :: r).head? ≠ some 0x2f := fun h ↦ hv (Option.some.inj h)
        rw [List.cons_append, List.cons_append, tagAt_opening (hne _), tagAt_opening (hne _),
          ← List.cons_append, namedTag_append ht]
  · rw [List.cons_append, tagAt_cons_of_ne hu, tagAt_cons_of_ne hu]

/-! ## Texts without tags, and closed texts -/

theorem occurrencesIn_of_not_mem (h : 0x3c ∉ s) (t : CodeUnits) :
    occurrencesIn tagAt s t = [] := by
  refine occurrencesIn_eq_nil fun u s' hsuffix ↦ tagAt_cons_of_ne ?_
  rintro rfl
  exact h (hsuffix.subset List.mem_cons_self)

/-- A text that ends in a unit which no tag reads past has its tags whatever follows. -/
theorem occurrencesIn_concat (hword : isWordUnit u = false) (hslash : u ≠ 0x2f) (hu : u ≠ 0x3c)
    (s t : CodeUnits) : occurrencesIn tagAt (s ++ [u]) t = occurrences tagAt s := by
  have hlast : occurrencesIn tagAt [u] t = [] :=
    occurrencesIn_of_not_mem (by simpa using fun h ↦ hu h.symm) t
  rw [occurrencesIn_append, hlast, List.append_nil]
  exact occurrencesIn_of_isJoint (separates_cons hword hslash).isJoint s

/-! ## Escaped text -/

private theorem escape_cons_of_some {tag : Tag} (h : tagAt (u :: s) = some tag) :
    escapeComposerContextPayloadText (u :: s)
      = unitsOf "&lt;" ++ escapeComposerContextPayloadText s := by
  rw [escapeComposerContextPayloadText, h]
  rfl

private theorem escape_cons_of_none (h : tagAt (u :: s) = none) :
    escapeComposerContextPayloadText (u :: s) = u :: escapeComposerContextPayloadText s := by
  rw [escapeComposerContextPayloadText, h]
  rfl

private theorem escape_cons_of_ne (h : u ≠ 0x3c) :
    escapeComposerContextPayloadText (u :: s) = u :: escapeComposerContextPayloadText s :=
  escape_cons_of_none (tagAt_cons_of_ne h)

private theorem takeWhile_escape (s : CodeUnits) :
    (escapeComposerContextPayloadText s).takeWhile isWordUnit = s.takeWhile isWordUnit := by
  induction s with
  | nil => rfl
  | cons u s ih =>
    by_cases hu : isWordUnit u = true
    · have hne : u ≠ 0x3c := by
        rintro rfl
        exact absurd hu (by decide)
      rw [escape_cons_of_ne hne, List.takeWhile_cons_of_pos hu, List.takeWhile_cons_of_pos hu, ih]
    · rw [List.takeWhile_cons_of_neg hu]
      rcases h : tagAt (u :: s) with _ | tag
      · rw [escape_cons_of_none h, List.takeWhile_cons_of_neg hu]
      · rw [escape_cons_of_some h]
        rfl

private theorem head?_escape_eq_slash :
    (escapeComposerContextPayloadText s).head? = some 0x2f ↔ s.head? = some 0x2f := by
  rcases s with _ | ⟨u, s⟩
  · exact Iff.rfl
  · rcases h : tagAt (u :: s) with _ | tag
    · rw [escape_cons_of_none h]
      rfl
    · have hu : u = 0x3c := by
        by_contra hne
        rw [tagAt_cons_of_ne hne] at h
        exact Option.some_ne_none tag h.symm
      subst hu
      rw [escape_cons_of_some h]
      exact ⟨fun h ↦ absurd (Option.some.inj h : (0x26 : UInt16) = 0x2f) (by decide),
        fun h ↦ absurd (Option.some.inj h : (0x3c : UInt16) = 0x2f) (by decide)⟩

/-- What stands behind a `<` that opens no tag still does not make it one when it is escaped. -/
private theorem tagAt_cons_escape (h : tagAt (u :: s) = none) :
    tagAt (u :: escapeComposerContextPayloadText s) = none := by
  by_cases hu : u = 0x3c
  · subst hu
    have hnamed (closing : Bool) (r : CodeUnits) :
        namedTag closing (escapeComposerContextPayloadText r) = namedTag closing r := by
      simp only [namedTag, takeWhile_escape]
    by_cases hslash : s.head? = some 0x2f
    · obtain ⟨r, rfl⟩ : ∃ r, s = 0x2f :: r := List.head?_eq_some_iff.mp hslash
      rw [escape_cons_of_ne (by decide), tagAt_closing, hnamed, ← tagAt_closing, h]
    · rw [tagAt_opening (mt head?_escape_eq_slash.mp hslash), hnamed, ← tagAt_opening hslash, h]
  · exact tagAt_cons_of_ne hu

/-- **Escaped text has no tag**, whatever a joint goes on with. -/
theorem occurrencesIn_escape (ht : Separates t) (s : CodeUnits) :
    occurrencesIn tagAt (escapeComposerContextPayloadText s) t = [] := by
  rw [occurrencesIn_of_isJoint ht.isJoint, occurrences]
  induction s with
  | nil => rfl
  | cons u s ih =>
    rcases h : tagAt (u :: s) with _ | tag
    · have hhead : tagAt (u :: escapeComposerContextPayloadText s ++ []) = none := by
        rw [List.append_nil, tagAt_cons_escape h]
      rw [escape_cons_of_none h, occurrencesIn_cons_of_none hhead, ih]
    · rw [escape_cons_of_some h, occurrencesIn_append, occurrencesIn_of_not_mem (by decide), ih]
      rfl

/-! ## Markers and entries -/

private theorem mem_blankOut {p : UInt16 → Bool} (hu : u ≠ 0x20) (h : u ∈ blankOut p s) :
    u ∈ s := by
  obtain ⟨v, hv, heq⟩ := List.mem_map.mp h
  split at heq
  · exact absurd heq.symm hu
  · exact heq ▸ hv

theorem not_mem_kind (kind : ComposerContextKind) : 0x3c ∉ kind.1 := by
  obtain ⟨kind, hkind⟩ := kind
  rcases kind with _ | ⟨u, rest⟩
  · exact List.not_mem_nil
  · simp only [matchesKindPattern, Bool.and_eq_true, List.all_eq_true] at hkind
    obtain ⟨⟨hhead, hrest⟩, -⟩ := hkind
    intro h
    rcases List.mem_cons.mp h with rfl | h
    · exact absurd hhead (by decide)
    · exact absurd (hrest _ h) (by decide)

theorem not_mem_contextId (contextId : ComposerContextId) : 0x3c ∉ contextId.1 := by
  obtain ⟨contextId, hid⟩ := contextId
  simp only [matchesIdPattern, Bool.and_eq_true, List.all_eq_true] at hid
  exact fun h ↦ absurd (hid.1 _ h) (by decide)

private theorem not_mem_kindDisplayName (kind : ComposerContextKind) :
    0x3c ∉ kindDisplayName kind := by
  have hblank : 0x3c ∉ blankOut (· == 0x2d) kind.1 :=
    fun h ↦ not_mem_kind kind (mem_blankOut (by decide) h)
  rw [kindDisplayName]
  rcases hname : blankOut (· == 0x2d) kind.1 with _ | ⟨u, rest⟩
  · exact List.not_mem_nil
  · rw [hname] at hblank
    intro h
    rcases List.mem_cons.mp h with hu | h
    · refine hblank (List.mem_cons.mpr (.inl ?_))
      rw [upperUnit] at hu
      split at hu
      · rename_i hlower
        have hu' : u = 0x5c := by
          rw [← UInt16.sub_add_cancel u 0x20, ← hu]
          rfl
        exact absurd (hu' ▸ hlower) (by decide)
      · exact hu
    · exact hblank (List.mem_cons_of_mem u h)

/-- **A marker has no tag**, whatever the user's text goes on with. -/
theorem occurrencesIn_marker (kind : ComposerContextKind) (label : CodeUnits)
    (contextId : ComposerContextId) (t : CodeUnits) :
    occurrencesIn tagAt (formatComposerContextProviderMarker kind label contextId) t = [] := by
  have hjoint (r : CodeUnits) : Separates (unitsOf "; ref=" ++ r) :=
    separates_cons (by decide) (by decide)
  simp only [formatComposerContextProviderMarker, occurrencesIn_append, List.append_assoc,
    occurrencesIn_escape (hjoint _), occurrencesIn_of_not_mem (not_mem_kindDisplayName kind),
    occurrencesIn_of_not_mem (not_mem_contextId contextId)]
  rw [occurrencesIn_of_not_mem (by decide), occurrencesIn_of_not_mem (by decide),
    occurrencesIn_of_not_mem (by decide), occurrencesIn_of_not_mem (by decide)]
  rfl

private theorem not_mem_escapeAttribute (value : CodeUnits) : 0x3c ∉ escapeAttribute value := by
  intro h
  obtain ⟨u, hu, h⟩ := List.mem_flatMap.mp h
  split at h
  · exact absurd h (by decide)
  · obtain ⟨v, -, hv⟩ := List.mem_flatMap.mp hu
    obtain rfl := List.mem_singleton.mp h
    split at hv
    · exact absurd hv (by decide)
    · rename_i hne
      exact hne (List.mem_singleton.mp hv).symm

/-- **An entry has the tags of its frame**: an opening one, and a closing one if it has a record. -/
theorem occurrencesIn_entry (kind : ComposerContextKind) (contextId : ComposerContextId)
    (record : Option ComposerContextRecord) (t : CodeUnits) :
    occurrencesIn tagAt (formatEnvelopeEntry kind contextId record) t
      = ⟨false, .context⟩ :: if record.isSome then [⟨true, .context⟩] else [] := by
  have hopening (r : CodeUnits) :
      occurrencesIn tagAt (unitsOf "<context kind=\"") r = [⟨false, .context⟩] :=
    occurrencesIn_concat (by decide) (by decide) (by decide) (unitsOf "<context kind=") r
  have hclosing : occurrencesIn tagAt (unitsOf "\n</context>") t = [⟨true, .context⟩] :=
    occurrencesIn_concat (by decide) (by decide) (by decide) (unitsOf "\n</context") t
  have hjoint (r : CodeUnits) : Separates (unitsOf "\n</context>" ++ r) :=
    separates_cons (by decide) (by decide)
  rcases record with _ | record
  · simp only [formatEnvelopeEntry, occurrencesIn_append, hopening,
      occurrencesIn_of_not_mem (not_mem_escapeAttribute _), List.append_nil]
    rw [occurrencesIn_of_not_mem (by decide), occurrencesIn_of_not_mem (by decide),
      occurrencesIn_of_not_mem (by decide)]
    rfl
  · simp only [formatEnvelopeEntry, occurrencesIn_append, hopening, hclosing,
      occurrencesIn_of_not_mem (not_mem_escapeAttribute _), occurrencesIn_escape (hjoint _),
      List.append_nil]
    rw [occurrencesIn_of_not_mem (by decide), occurrencesIn_of_not_mem (by decide),
      occurrencesIn_of_not_mem (by decide)]
    rfl

end Awen.Composer
