import Awen.Composer.CleanLabels
import Awen.Composer.ProviderProjection
import Mathlib.Data.List.Infix

/-!
# References that are written and collected

`formatComposerContextReference` writes a reference as a link and `collectComposerContextReferences`
finds the links of a text again. Before each of them stands any text without `[` that does not end
in `!`. `roundTrips_iff` says for which labels everything comes back as it was written: those that
are not cut behind a blank, which is taken off when they are collected.
-/

namespace Awen.Composer

/-! ## Writing references -/

structure ComposerContextReference where
  kind : ComposerContextKind
  contextId : ComposerContextId
  label : CodeUnits

def formatComposerContextHref (kind : ComposerContextKind) (contextId : ComposerContextId) :
    CodeUnits :=
  hrefStart ++ (kind.1 ++ 0x2f :: contextId.1)

def formatComposerContextReference (reference : ComposerContextReference) : CodeUnits :=
  let label := sanitizeComposerContextLabel reference.label reference.kind
  let href := formatComposerContextHref reference.kind reference.contextId
  (if reference.kind = imageKind then unitsOf "!" else []) ++
    unitsOf "[" ++ label ++ unitsOf "](" ++
    href ++ unitsOf ")"

/-- Text between references: no bracket that opens a link, and no `!` that would make the next one
an image. -/
structure IsSeparator (s : CodeUnits) : Prop where
  noBracket : 0x5b ∉ s
  noBang : s.getLast? ≠ some 0x21

/-- References, each behind a separator, and text behind the last of them. -/
def joined (tail : CodeUnits) : List (CodeUnits × ComposerContextReference) → CodeUnits
  | [] => tail
  | (separator, reference) :: rest =>
    separator ++ (formatComposerContextReference reference ++ joined tail rest)

/-- The reference as it is found at an index. -/
def ComposerContextReference.occurrence (reference : ComposerContextReference) (index : ℕ) :
    ComposerContextReferenceOccurrence :=
  { kind := reference.kind
    contextId := reference.contextId
    label := sanitizeComposerContextLabel reference.label reference.kind
    image := decide (reference.kind = imageKind)
    source := formatComposerContextReference reference
    start := index
    stop := index + (formatComposerContextReference reference).length }

/-- The references as they stand in the joined text. -/
def occurrencesFrom : ℕ → List (CodeUnits × ComposerContextReference) →
    List ComposerContextReferenceOccurrence
  | _, [] => []
  | index, (separator, reference) :: rest =>
    let occurrence := reference.occurrence (index + separator.length)
    occurrence :: occurrencesFrom occurrence.stop rest

/-- What is collected, as a reference. -/
def ComposerContextReferenceOccurrence.reference (occurrence : ComposerContextReferenceOccurrence) :
    ComposerContextReference :=
  { kind := occurrence.kind, contextId := occurrence.contextId, label := occurrence.label }

/-- **References round-trip**: they are collected as they were written, each where its text stands,
and are written again as the same text. -/
structure RoundTrips (parts : List (CodeUnits × ComposerContextReference)) (tail : CodeUnits) :
    Prop where
  collected : collectComposerContextReferences (joined tail parts) = occurrencesFrom 0 parts
  delimited : ∀ occurrence ∈ collectComposerContextReferences (joined tail parts),
    slice (joined tail parts) occurrence.start occurrence.stop =
      formatComposerContextReference occurrence.reference
  formatted : ∀ occurrence ∈ collectComposerContextReferences (joined tail parts),
    formatComposerContextReference occurrence.reference = occurrence.source

/-! ## Finding a link -/

theorem after?_append (start s : CodeUnits) : after? start (start ++ s) = some s := by
  rw [after?, if_pos (List.isPrefixOf_iff_prefix.mpr (List.prefix_append start s)), List.drop_left]

theorem takeWhile_stop {p : UInt16 → Bool} {s rest : CodeUnits} {u : UInt16}
    (hs : ∀ v ∈ s, p v = true) (hu : p u = false) : (s ++ u :: rest).takeWhile p = s := by
  rw [List.takeWhile_append_of_pos hs, List.takeWhile_cons_of_neg (by rw [hu]; exact nofun),
    List.append_nil]

/-- A link that the pattern of `CONTEXT_LINK` describes. -/
structure LinkMatch.IsLink (link : LinkMatch) : Prop where
  label : ∀ u ∈ link.label, (u != 0x5d && u != 0xa) = true
  label_length : link.label.length ≤ maxLinkLabelLength
  href : ∃ address, link.href = hrefStart ++ address ∧ (∀ u ∈ address, isHrefUnit u = true) ∧
    1 ≤ address.length ∧ address.length ≤ 200

/-- **A link is matched where it stands.** -/
theorem LinkMatch.IsLink.matchLink_eq {link : LinkMatch} (h : link.IsLink) (rest : CodeUnits) :
    matchLink (link.source ++ rest) = some link := by
  obtain ⟨image, label, href⟩ := link
  obtain ⟨hlabel, hlength, address, rfl, haddress, hpos, hle⟩ := h
  have hbang : takeBang (LinkMatch.source ⟨image, label, hrefStart ++ address⟩ ++ rest) =
      (image, [0x5b] ++ (label ++ ([0x5d, 0x28] ++ (hrefStart ++ (address ++ 0x29 :: rest))))) := by
    cases image <;> simp [LinkMatch.source, takeBang]
  rw [matchLink, hbang]
  simp only [after?_append, Option.bind_eq_bind, Option.bind_some]
  rw [List.cons_append, takeWhile_stop hlabel (by decide), List.drop_left, ← List.cons_append,
    after?_append]
  simp only [after?_append, Option.bind_some]
  rw [takeWhile_stop haddress (by decide), List.drop_left]
  have hclose : after? [0x29] (0x29 :: rest) = some rest := after?_append [0x29] rest
  rw [hclose, Option.bind_some, if_pos ⟨hlength, hpos, hle⟩]

theorem matchAll_skip (index skip : ℕ) (s rest : CodeUnits) (hs : s.length = skip) :
    matchAll index skip (s ++ rest) = matchAll (index + skip) 0 rest := by
  induction s generalizing index skip with
  | nil =>
    subst hs
    rfl
  | cons u s ih =>
    subst hs
    rw [List.length_cons, List.cons_append, matchAll, ih _ _ rfl]
    congr 1
    omega

/-- The scan takes a link as a whole. -/
theorem LinkMatch.IsLink.matchAll_eq {link : LinkMatch} (h : link.IsLink) (index : ℕ)
    (rest : CodeUnits) : matchAll index 0 (link.source ++ rest) =
      (index, link) :: matchAll (index + link.source.length) 0 rest := by
  obtain ⟨u, s, hsource⟩ : ∃ u s, link.source = u :: s :=
    List.exists_cons_of_ne_nil (by simp [LinkMatch.source])
  have hmatch := h.matchLink_eq rest
  rw [hsource, List.cons_append] at hmatch ⊢
  rw [matchAll, hmatch]
  simp only
  rw [hsource, matchAll_skip _ _ s rest (by simp), List.length_cons]
  congr 2
  omega

/-- Where no link begins nothing is matched. -/
theorem matchLink_eq_none {u : UInt16} {text : CodeUnits} (hu : u ≠ 0x5b)
    (hbang : u = 0x21 → text.head? ≠ some 0x5b) : matchLink (u :: text) = none := by
  have hnone {text : CodeUnits} (h : text.head? ≠ some 0x5b) : after? [0x5b] text = none := by
    rw [after?, if_neg]
    intro hstart
    obtain ⟨rest, rfl⟩ := List.isPrefixOf_iff_prefix.mp hstart
    exact h rfl
  rw [matchLink]
  by_cases h : u = 0x21
  · subst h
    rw [takeBang, hnone (hbang rfl)]
    rfl
  · have htake : takeBang (u :: text) = (false, u :: text) := by
      rw [takeBang]
      exact fun rest heq ↦ h (List.cons_eq_cons.mp heq).1
    rw [htake, @hnone (u :: text) fun heq ↦ hu (Option.some.inj heq)]
    rfl

/-- **The scan passes over a separator.** -/
theorem matchAll_separator {s : CodeUnits} (hopening : 0x5b ∉ s) (hbang : s.getLast? ≠ some 0x21)
    (index : ℕ) (rest : CodeUnits) :
    matchAll index 0 (s ++ rest) = matchAll (index + s.length) 0 rest := by
  induction s generalizing index with
  | nil => rfl
  | cons u s ih =>
    have hu : u ≠ 0x5b := fun h ↦ hopening (h ▸ List.mem_cons_self)
    have hs : 0x5b ∉ s := fun h ↦ hopening (List.mem_cons_of_mem _ h)
    have hmatch : matchLink (u :: (s ++ rest)) = none := by
      refine matchLink_eq_none hu fun heq ↦ ?_
      cases s with
      | nil => exact absurd (congrArg some heq) hbang
      | cons v s => exact fun hv ↦ hs (Option.some.inj hv ▸ List.mem_cons_self)
    have hlast : s.getLast? ≠ some 0x21 := by
      cases s with
      | nil => exact nofun
      | cons v s => rwa [List.getLast?_cons_cons] at hbang
    rw [List.cons_append, matchAll, hmatch]
    simp only
    rw [ih hs hlast, List.length_cons]
    congr 1
    omega

theorem matchAll_eq_nil {s : CodeUnits} (h : 0x5b ∉ s) (index : ℕ) : matchAll index 0 s = [] := by
  induction s generalizing index with
  | nil => rfl
  | cons u s ih =>
    have hs : 0x5b ∉ s := fun hmem ↦ h (List.mem_cons_of_mem _ hmem)
    rw [matchAll, matchLink_eq_none (fun hu ↦ h (hu ▸ List.mem_cons_self))
      fun _ hv ↦ hs (List.mem_of_mem_head? hv)]
    exact ih hs (index + 1)

/-! ## The link of a reference -/

/-- The link that a reference is written as. -/
def ComposerContextReference.link (reference : ComposerContextReference) : LinkMatch :=
  { image := decide (reference.kind = imageKind)
    label := sanitizeComposerContextLabel reference.label reference.kind
    href := formatComposerContextHref reference.kind reference.contextId }

theorem source_link (reference : ComposerContextReference) :
    reference.link.source = formatComposerContextReference reference := by
  rw [LinkMatch.source, formatComposerContextReference, ComposerContextReference.link]
  simp only [decide_eq_true_eq]
  rfl

theorem id_unit (contextId : ComposerContextId) {u : UInt16} (hu : u ∈ contextId.1) :
    u ≠ 0x2f ∧ isHrefUnit u = true := by
  obtain ⟨s, hs⟩ := contextId
  simp only [matchesIdPattern, Bool.and_eq_true, List.all_eq_true] at hs
  have hcases := hs.1 u hu
  simp only [isHrefUnit, isSpaceUnit, isWordUnit, isLowerUnit, isUpperUnit, isDigitUnit,
    Bool.or_eq_true, Bool.or_eq_false_iff, Bool.and_eq_true, Bool.not_eq_true', decide_eq_true_eq,
    decide_eq_false_iff_not, beq_iff_eq, beq_eq_false_iff_ne, bne_iff_ne, UInt16.le_iff_toNat_le,
    ← UInt16.toNat_inj, ne_eq, UInt16.reduceToNat] at hcases ⊢
  omega

theorem id_length (contextId : ComposerContextId) :
    1 ≤ contextId.1.length ∧ contextId.1.length ≤ 128 := by
  obtain ⟨s, hs⟩ := contextId
  simp only [matchesIdPattern, Bool.and_eq_true, decide_eq_true_eq] at hs
  exact hs.2

theorem isLink_link (reference : ComposerContextReference) : reference.link.IsLink where
  label u hu := by
    have hplain := (isSanitized_sanitize reference.label reference.kind).clean.plain u hu
    simp only [isMarkupUnit, Bool.or_eq_false_iff, beq_eq_false_iff_ne] at hplain
    simp [hplain]
  label_length := (isSanitized_sanitize reference.label reference.kind).length_le.trans (by decide)
  href := by
    refine ⟨reference.kind.1 ++ 0x2f :: reference.contextId.1, rfl, ?_, ?_⟩
    · rw [List.forall_mem_append, List.forall_mem_cons]
      exact ⟨fun u hu ↦ (kind_unit reference.kind hu).2.2.2, by decide,
        fun u hu ↦ (id_unit reference.contextId hu).2⟩
    · have hkind := kind_length reference.kind
      have hid := id_length reference.contextId
      rw [List.length_append, List.length_cons]
      omega

theorem parse_formatComposerContextHref (kind : ComposerContextKind)
    (contextId : ComposerContextId) :
    parseComposerContextHref (formatComposerContextHref kind contextId) =
      some (kind, contextId) := by
  have hkind : 0x2f ∉ kind.1 := fun hmem ↦ (kind_unit kind hmem).2.2.1 rfl
  have hid : 0x2f ∉ contextId.1 := fun hmem ↦ (id_unit contextId hmem).1 rfl
  have hsplit : (kind.1 ++ 0x2f :: contextId.1).splitOn 0x2f = [kind.1, contextId.1] := by
    rw [List.splitOn_append_cons_self, List.splitOn_eq_singleton hkind,
      List.splitOn_eq_singleton hid]
    rfl
  rw [parseComposerContextHref, formatComposerContextHref, after?_append]
  simp only [Option.bind_eq_bind, Option.bind_some, hsplit]
  rw [dif_pos kind.2, dif_pos contextId.2]

/-! ## What is collected -/

/-- The label as it is sanitized again when it is collected. -/
def ComposerContextReferenceOccurrence.resanitized
    (occurrence : ComposerContextReferenceOccurrence) : ComposerContextReferenceOccurrence :=
  { occurrence with label := sanitizeComposerContextLabel occurrence.label occurrence.kind }

theorem occurrenceOf_link (reference : ComposerContextReference) (index : ℕ) :
    occurrenceOf (index, reference.link) = some (reference.occurrence index).resanitized := by
  rw [occurrenceOf]
  simp only [source_link]
  rw [ComposerContextReference.link]
  simp only [parse_formatComposerContextHref]
  rfl

/-- **Every reference is collected**, with its label sanitized once more. -/
theorem filterMap_matchAll {parts : List (CodeUnits × ComposerContextReference)} {tail : CodeUnits}
    (hparts : ∀ part ∈ parts, IsSeparator part.1) (htail : 0x5b ∉ tail) (index : ℕ) :
    (matchAll index 0 (joined tail parts)).filterMap occurrenceOf =
      (occurrencesFrom index parts).map (·.resanitized) := by
  induction parts generalizing index with
  | nil =>
    rw [joined, matchAll_eq_nil htail]
    rfl
  | cons part parts ih =>
    obtain ⟨separator, reference⟩ := part
    obtain ⟨hseparator, hparts⟩ := List.forall_mem_cons.mp hparts
    rw [joined, matchAll_separator hseparator.noBracket hseparator.noBang, ← source_link,
      (isLink_link reference).matchAll_eq, List.filterMap_cons_some (occurrenceOf_link reference _),
      ih hparts, source_link, occurrencesFrom]
    rfl

theorem includes_of_part {text part : CodeUnits} (h : part <:+: text) :
    includes text part = true := by
  obtain ⟨before, after, rfl⟩ := h
  refine List.any_eq_true.mpr ⟨part ++ after, ?_, ?_⟩
  · rw [List.mem_tails, List.append_assoc]
    exact List.suffix_append before _
  · exact List.isPrefixOf_iff_prefix.mpr (List.prefix_append part after)

/-- Each link has the start of the protocol. -/
theorem includes_joined (separator : CodeUnits) (reference : ComposerContextReference)
    (parts : List (CodeUnits × ComposerContextReference)) (tail : CodeUnits) :
    includes (joined tail ((separator, reference) :: parts))
      (unitsOf "](awen-context:") = true := by
  refine includes_of_part ?_
  have hstart :
      unitsOf "](awen-context:" ++ unitsOf "//v1/" = unitsOf "](" ++ hrefStart := by decide
  refine ⟨separator ++ ((if reference.kind = imageKind then unitsOf "!" else []) ++ unitsOf "[" ++
    sanitizeComposerContextLabel reference.label reference.kind), unitsOf "//v1/" ++
    (reference.kind.1 ++ 0x2f :: reference.contextId.1 ++ unitsOf ")" ++ joined tail parts), ?_⟩
  rw [joined, formatComposerContextReference, formatComposerContextHref, List.append_assoc,
    ← List.append_assoc (unitsOf "](awen-context:"), hstart]
  simp only [List.append_assoc]

theorem collect_joined {parts : List (CodeUnits × ComposerContextReference)} {tail : CodeUnits}
    (hparts : ∀ part ∈ parts, IsSeparator part.1) (htail : 0x5b ∉ tail) :
    collectComposerContextReferences (joined tail parts) =
      (occurrencesFrom 0 parts).map (·.resanitized) := by
  rw [← filterMap_matchAll hparts htail, collectComposerContextReferences]
  cases parts with
  | nil =>
    rw [joined, matchAll_eq_nil htail]
    exact ite_self _
  | cons part parts => rw [includes_joined]; rfl

/-- The occurrences are those of the references. -/
theorem mem_occurrencesFrom {parts : List (CodeUnits × ComposerContextReference)} {index : ℕ}
    {occurrence : ComposerContextReferenceOccurrence}
    (h : occurrence ∈ occurrencesFrom index parts) :
    ∃ part ∈ parts, ∃ index, occurrence = part.2.occurrence index := by
  induction parts generalizing index with
  | nil => exact absurd h List.not_mem_nil
  | cons part parts ih =>
    obtain rfl | h := List.mem_cons.mp h
    · exact ⟨part, List.mem_cons_self, _, rfl⟩
    · obtain ⟨part', hmem, hpart⟩ := ih h
      exact ⟨part', List.mem_cons_of_mem _ hmem, hpart⟩

theorem exists_mem_occurrencesFrom {parts : List (CodeUnits × ComposerContextReference)} {index : ℕ}
    {part : CodeUnits × ComposerContextReference} (h : part ∈ parts) :
    ∃ index', part.2.occurrence index' ∈ occurrencesFrom index parts := by
  induction parts generalizing index with
  | nil => exact absurd h List.not_mem_nil
  | cons part' parts ih =>
    obtain rfl | h := List.mem_cons.mp h
    · exact ⟨_, List.mem_cons_self⟩
    · obtain ⟨index', hmem⟩ := ih h
      exact ⟨index', List.mem_cons_of_mem _ hmem⟩

theorem resanitized_occurrence_iff (reference : ComposerContextReference) (index : ℕ) :
    (reference.occurrence index).resanitized = reference.occurrence index ↔
      ¬CutsAtBlank reference.label := by
  rw [← sanitize_sanitize_iff reference.label reference.kind]
  rw [ComposerContextReferenceOccurrence.resanitized, ComposerContextReference.occurrence,
    ComposerContextReferenceOccurrence.mk.injEq]
  simp only [true_and, and_true]

/-- A reference is written again as it was, from its sanitized label. -/
theorem format_occurrence {reference : ComposerContextReference}
    (h : ¬CutsAtBlank reference.label) (index : ℕ) :
    formatComposerContextReference (reference.occurrence index).reference =
      (reference.occurrence index).source := by
  have hlabel := (sanitize_sanitize_iff reference.label reference.kind).mpr h
  change formatComposerContextReference { reference with
    label := sanitizeComposerContextLabel reference.label reference.kind } =
      formatComposerContextReference reference
  rw [formatComposerContextReference, formatComposerContextReference]
  simp only [hlabel]

/-- What is collected stands where it says. -/
theorem slice_of_laid {text : CodeUnits} {cursor : ℕ}
    {occurrences : List ComposerContextReferenceOccurrence} (h : Laid text cursor occurrences)
    {occurrence : ComposerContextReferenceOccurrence} (hmem : occurrence ∈ occurrences) :
    slice text occurrence.start occurrence.stop = occurrence.source := by
  induction occurrences generalizing cursor with
  | nil => exact absurd hmem List.not_mem_nil
  | cons first rest ih =>
    obtain ⟨-, hsource, hstop, hrest⟩ := h
    obtain rfl | hmem := List.mem_cons.mp hmem
    · rw [slice, List.drop_take, hstop, Nat.add_sub_cancel_left]
      exact (List.prefix_iff_eq_take.mp hsource).symm
    · exact ih hrest hmem

/-- **References round-trip exactly if no label is cut behind a blank.** -/
theorem roundTrips_iff {parts : List (CodeUnits × ComposerContextReference)} {tail : CodeUnits}
    (hparts : ∀ part ∈ parts, IsSeparator part.1) (htail : 0x5b ∉ tail) :
    RoundTrips parts tail ↔ ∀ part ∈ parts, ¬CutsAtBlank part.2.label := by
  have hcollect := collect_joined hparts htail
  constructor
  · intro h part hpart
    obtain ⟨index, hmem⟩ := @exists_mem_occurrencesFrom _ 0 _ hpart
    have hsame := hcollect.symm.trans h.collected
    rw [← List.map_id (occurrencesFrom 0 parts), List.map_map, List.map_inj_left] at hsame
    exact (resanitized_occurrence_iff part.2 index).mp (hsame _ hmem)
  · intro h
    have hcollected : collectComposerContextReferences (joined tail parts) =
        occurrencesFrom 0 parts := by
      refine hcollect.trans ((List.map_congr_left fun occurrence hmem ↦ ?_).trans (List.map_id _))
      obtain ⟨part, hpart, index, rfl⟩ := mem_occurrencesFrom hmem
      exact (resanitized_occurrence_iff part.2 index).mpr (h part hpart)
    have hformatted : ∀ occurrence ∈ occurrencesFrom 0 parts,
        formatComposerContextReference occurrence.reference = occurrence.source := by
      intro occurrence hmem
      obtain ⟨part, hpart, index, rfl⟩ := mem_occurrencesFrom hmem
      exact format_occurrence (h part hpart) index
    refine ⟨hcollected, fun occurrence hmem ↦ ?_, hcollected ▸ hformatted⟩
    rw [slice_of_laid (laid_collect _) hmem, hformatted occurrence (hcollected ▸ hmem)]

/-- A label of 199 letters, a blank and a letter more. -/
def longLabel : CodeUnits := List.replicate 199 0x61 ++ unitsOf " b"

/-- A file and an image, with a text before each of them. -/
def plainParts : List (CodeUnits × ComposerContextReference) :=
  [(unitsOf "see ", ⟨fileKind, ⟨unitsOf "ctx_1", by decide⟩, unitsOf "a [b]\n c"⟩),
    ([], ⟨imageKind, ⟨unitsOf "ctx_2", by decide⟩, unitsOf "shot"⟩)]

theorem roundTrips_plainParts : RoundTrips plainParts (unitsOf "!") :=
  (roundTrips_iff (List.forall_mem_cons.mpr ⟨⟨by decide, by decide⟩,
    List.forall_mem_singleton.mpr ⟨by decide, by decide⟩⟩) (by decide)).mpr (by decide)

/-- A file whose label is cut behind its blank. -/
def longPart : CodeUnits × ComposerContextReference :=
  ([], ⟨fileKind, ⟨unitsOf "ctx_1", by decide⟩, longLabel⟩)

/-- **A label loses its last blank** when it is collected. -/
theorem not_roundTrips_longPart : IsSeparator longPart.1 ∧ ¬RoundTrips [longPart] [] := by
  refine ⟨⟨by decide, by decide⟩, fun h ↦ ?_⟩
  have hlabels := congrArg (List.map ComposerContextReferenceOccurrence.label) h.collected
  exact absurd hlabels (by decide +kernel)

end Awen.Composer
