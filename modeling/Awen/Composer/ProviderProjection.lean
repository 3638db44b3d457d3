import Awen.Composer.EnvelopeTags
import Mathlib.Data.List.Induction

/-!
# What the provider reads, part by part

The text of a message is its own text and its references in turn (`flatMap_spans`). The projection
writes the user's own text unchanged, a marker for each reference, and the envelope
(`joined_outputParts`). `projectComposerContextForProvider_spec` says, for every text and every list
of records, which tags there are outside the user's own text and in which part each begins.
-/

namespace Awen.Composer

/-! ## Texts cut at their references -/

/-- The references lie in the text one after the other, none before the cursor. -/
def Laid (text : CodeUnits) : ℕ → List ComposerContextReferenceOccurrence → Prop
  | _, [] => True
  | cursor, occurrence :: rest =>
    cursor ≤ occurrence.start ∧ occurrence.source <+: text.drop occurrence.start ∧
      occurrence.stop = occurrence.start + occurrence.source.length ∧ Laid text occurrence.stop rest

theorem Laid.mono {text : CodeUnits} {cursor cursor' : ℕ}
    {occurrences : List ComposerContextReferenceOccurrence} (h : Laid text cursor occurrences)
    (hle : cursor' ≤ cursor) : Laid text cursor' occurrences := by
  rcases occurrences with _ | ⟨occurrence, rest⟩
  · trivial
  · exact ⟨hle.trans h.1, h.2⟩

private theorem eq_append_of_after? {start s rest : CodeUnits} (h : after? start s = some rest) :
    s = start ++ rest := by
  rw [after?] at h
  split at h
  · rename_i hstart
    rw [← Option.some.inj h]
    exact (List.prefix_iff_eq_append.mp (List.isPrefixOf_iff_prefix.mp hstart)).symm
  · exact absurd h (by simp)

/-- What a match of the link pattern says: its source is the start of the text. -/
private theorem source_prefix {text : CodeUnits} {link : LinkMatch}
    (h : matchLink text = some link) : link.source <+: text := by
  have htake (p : UInt16 → Bool) (s : CodeUnits) :
      s.takeWhile p ++ s.drop (s.takeWhile p).length = s :=
    List.prefix_iff_eq_append.mp (List.takeWhile_prefix p)
  have hbang : text = (if (takeBang text).1 then [0x21] else []) ++ (takeBang text).2 := by
    fun_cases takeBang text <;> rfl
  simp only [matchLink, Option.bind_eq_bind, Option.bind_eq_some_iff] at h
  obtain ⟨labelled, hlabelled, address, haddress, rest, hrest, last, hlast, h⟩ := h
  split at h
  · obtain rfl := Option.some.inj h
    refine ⟨last, ?_⟩
    conv_rhs =>
      rw [hbang, eq_append_of_after? hlabelled, ← htake (fun u ↦ u != 0x5d && u != 0xa) labelled,
        eq_append_of_after? haddress, eq_append_of_after? hrest, ← htake isHrefUnit rest,
        eq_append_of_after? hlast]
    simp only [LinkMatch.source, List.append_assoc]
  · exact absurd h (by simp)

private theorem source_length_pos (link : LinkMatch) : 0 < link.source.length := by
  simp only [LinkMatch.source, List.length_append, List.length_cons]
  omega

/-- **The scan finds the references one after the other.** -/
private theorem laid_matchAll (text : CodeUnits) (rest : CodeUnits) (index skip : ℕ)
    (hrest : text.drop index = rest) :
    Laid text (index + skip) ((matchAll index skip rest).filterMap occurrenceOf) := by
  induction rest generalizing index skip with
  | nil =>
    rw [matchAll]
    trivial
  | cons u rest ih =>
    have hnext : text.drop (index + 1) = rest := by rw [← List.drop_drop, hrest, List.drop_one,
      List.tail_cons]
    rcases skip with _ | skip
    · rw [matchAll]
      rcases hlink : matchLink (u :: rest) with _ | link
      · exact (ih (index + 1) 0 hnext).mono (by omega)
      · have hstop : index + 1 + (link.source.length - 1) = index + link.source.length := by
          have := source_length_pos link
          omega
        have hafter := ih (index + 1) (link.source.length - 1) hnext
        rw [hstop] at hafter
        rcases hparsed : occurrenceOf (index, link) with _ | occurrence
        · rw [List.filterMap_cons_none hparsed]
          exact hafter.mono (by omega)
        · rw [List.filterMap_cons_some hparsed]
          simp only [occurrenceOf, Option.bind_eq_bind, Option.bind_eq_some_iff] at hparsed
          obtain ⟨⟨kind, contextId⟩, -, hparsed⟩ := hparsed
          obtain rfl := Option.some.inj hparsed
          exact ⟨le_refl _, hrest ▸ source_prefix hlink, rfl, hafter⟩
    · rw [matchAll, ← Nat.add_assoc, Nat.add_right_comm]
      exact ih (index + 1) skip hnext

theorem laid_collect (text : CodeUnits) : Laid text 0 (collectComposerContextReferences text) := by
  rw [collectComposerContextReferences]
  split
  · trivial
  · exact laid_matchAll text text 0 0 rfl

/-- The user's own text up to the first reference, and each reference with the own text after it. -/
def spans (text : CodeUnits) (cursor : ℕ) :
    List ComposerContextReferenceOccurrence →
      CodeUnits × List (ComposerContextReferenceOccurrence × CodeUnits)
  | [] => (text.drop cursor, [])
  | occurrence :: rest =>
    let after := spans text occurrence.stop rest
    (slice text cursor occurrence.start, (occurrence, after.1) :: after.2)

theorem map_fst_spans (text : CodeUnits) (cursor : ℕ)
    (occurrences : List ComposerContextReferenceOccurrence) :
    (spans text cursor occurrences).2.map Prod.fst = occurrences := by
  induction occurrences generalizing cursor with
  | nil => rfl
  | cons occurrence rest ih => rw [spans, List.map_cons, ih]

/-- A text with something in place of each of its references. -/
def woven (replace : ComposerContextReferenceOccurrence → CodeUnits)
    (parts : CodeUnits × List (ComposerContextReferenceOccurrence × CodeUnits)) : CodeUnits :=
  parts.1 ++ parts.2.flatMap fun part ↦ replace part.1 ++ part.2

/-- **The references and the own text make up the text.** -/
theorem woven_source {text : CodeUnits} {cursor : ℕ}
    {occurrences : List ComposerContextReferenceOccurrence} (h : Laid text cursor occurrences) :
    woven (·.source) (spans text cursor occurrences) = text.drop cursor := by
  induction occurrences generalizing cursor with
  | nil => exact List.append_nil _
  | cons occurrence rest ih =>
    obtain ⟨hcursor, hsource, hstop, hrest⟩ := h
    have hafter : text.drop occurrence.start
        = occurrence.source ++ text.drop occurrence.stop := by
      rw [hstop, ← List.drop_drop]
      exact (List.prefix_iff_eq_append.mp hsource).symm
    have hown : slice text cursor occurrence.start ++ text.drop occurrence.start
        = text.drop cursor := by
      rw [slice, List.drop_take]
      have hsplit := List.take_append_drop (occurrence.start - cursor) (text.drop cursor)
      rwa [List.drop_drop, Nat.add_sub_cancel' hcursor] at hsplit
    rw [← hown, hafter, ← ih hrest, spans, woven, List.flatMap_cons, List.append_assoc, woven]

/-- **A replacement leaves the user's own text as it is.** -/
theorem replace_eq_woven (text : CodeUnits)
    (replace : ComposerContextReferenceOccurrence → CodeUnits) :
    replaceComposerContextReferences text replace
      = woven replace (spans text 0 (collectComposerContextReferences text)) := by
  suffices h : ∀ (occurrences : List ComposerContextReferenceOccurrence) (done : CodeUnits × ℕ),
      let (result, cursor) := occurrences.foldl
        (fun (result, cursor) occurrence ↦
          (result ++ slice text cursor occurrence.start ++ replace occurrence,
            occurrence.stop)) done
      result ++ text.drop cursor = done.1 ++ woven replace (spans text done.2 occurrences) by
    exact h _ ([], 0)
  intro occurrences
  induction occurrences with
  | nil => exact fun done ↦ by rw [spans, woven, List.flatMap_nil, List.append_nil]; rfl
  | cons occurrence rest ih =>
    intro done
    rw [List.foldl_cons]
    refine (ih _).trans ?_
    simp only [spans, woven, List.flatMap_cons, List.append_assoc]

/-! ## Records by id -/

/-- The records with an id. -/
def withId (records : List ComposerContextRecord) (contextId : ComposerContextId) :
    List ComposerContextRecord := records.filter (·.contextId = contextId)

private theorem get_recordsById (records : List ComposerContextRecord)
    (contextId : ComposerContextId) :
    (recordsById records).get contextId
      = match withId records contextId with
        | [] => none
        | [record] => some (some record)
        | _ => some none := by
  induction records using List.reverseRecOn with
  | nil => rfl
  | append_singleton records record ih =>
    have hstep : recordsById (records ++ [record]) = (recordsById records).set record.contextId
        (if (recordsById records).has record.contextId then none else some record) := by
      rw [recordsById, List.foldl_append]
      rfl
    have hwith : withId (records ++ [record]) contextId = withId records contextId ++
        if record.contextId = contextId then [record] else [] := by
      rw [withId, List.filter_append]
      by_cases h : record.contextId = contextId <;> simp [h, withId]
    rw [hstep, hwith]
    by_cases h : record.contextId = contextId
    · subst h
      rw [if_pos rfl, OrderedMap.get_set_self]
      rw [OrderedMap.has_eq_isSome_get, ih]
      rcases withId records record.contextId with _ | ⟨first, _ | ⟨second, more⟩⟩ <;> rfl
    · rw [OrderedMap.get_set_of_ne (Ne.symm h), ih, if_neg h, List.append_nil]

/-- **An id has a record exactly if one record has the id.** -/
theorem recordOf_eq_some {records : List ComposerContextRecord} {contextId : ComposerContextId}
    {record : ComposerContextRecord} :
    recordOf records contextId = some record ↔ withId records contextId = [record] := by
  rw [recordOf, get_recordsById]
  rcases withId records contextId with _ | ⟨first, _ | ⟨second, more⟩⟩ <;> simp

theorem isSome_recordOf (records : List ComposerContextRecord) (contextId : ComposerContextId) :
    (recordOf records contextId).isSome = decide ((withId records contextId).length = 1) := by
  rw [recordOf, get_recordsById]
  rcases withId records contextId with _ | ⟨first, _ | ⟨second, more⟩⟩ <;> simp

/-! ## The envelope -/

/-- The first reference to each id that has not been seen. -/
def firstReferences (seen : List ComposerContextId) :
    List ComposerContextReferenceOccurrence → List ComposerContextReferenceOccurrence
  | [] => []
  | occurrence :: rest =>
    if occurrence.contextId ∈ seen then firstReferences seen rest
    else occurrence :: firstReferences (seen ++ [occurrence.contextId]) rest

/-- The ids that a text refers to, in the order of their first references. -/
def referencedIds (text : CodeUnits) : List ComposerContextId :=
  ((collectComposerContextReferences text).map (·.contextId)).eraseDups

private theorem map_firstReferences (occurrences : List ComposerContextReferenceOccurrence)
    (seen : List ComposerContextId) :
    (firstReferences seen occurrences).map (·.contextId)
      = ((occurrences.map (·.contextId)).filter (· ∉ seen)).eraseDups := by
  induction occurrences generalizing seen with
  | nil => rfl
  | cons occurrence rest ih =>
    rw [firstReferences, List.map_cons]
    by_cases h : occurrence.contextId ∈ seen
    · rw [if_pos h, ih, List.filter_cons_of_neg (by simpa using h)]
    · rw [if_neg h, List.map_cons, ih, List.filter_cons_of_pos (by simpa using h),
        List.eraseDups_cons, List.filter_filter]
      congr 3
      funext contextId
      simp only [List.mem_append, List.mem_singleton, not_or, Bool.decide_and, Bool.and_comm]
      rw [beq_eq_decide, decide_not]

theorem envelopeEntries_eq (records : List ComposerContextRecord)
    (occurrences : List ComposerContextReferenceOccurrence) :
    envelopeEntries records occurrences
      = (firstReferences [] occurrences).map (entryOf records) := by
  suffices h : ∀ (seen : List ComposerContextId) (entries : List CodeUnits),
      (occurrences.foldl (fun state occurrence ↦
        if occurrence.contextId ∈ state.1 then (state.1, state.2)
        else (state.1 ++ [occurrence.contextId], state.2 ++ [entryOf records occurrence]))
        (seen, entries)).2 = entries ++ (firstReferences seen occurrences).map (entryOf records) by
    exact h [] []
  induction occurrences with
  | nil => exact fun seen entries ↦ (List.append_nil entries).symm
  | cons occurrence rest ih =>
    intro seen entries
    rw [List.foldl_cons, firstReferences]
    by_cases hseen : occurrence.contextId ∈ seen
    · simp only [if_pos hseen]
      exact ih seen entries
    · simp only [if_neg hseen]
      rw [ih, List.map_cons, List.append_assoc, List.singleton_append]

/-! ## The parts of the output -/

/-- Who wrote a part of the output, and what for. -/
inductive PartOf where
  | user
  | marker (contextId : ComposerContextId)
  | envelope
  | entry (contextId : ComposerContextId)
  deriving DecidableEq

def bodyParts (records : List ComposerContextRecord)
    (parts : CodeUnits × List (ComposerContextReferenceOccurrence × CodeUnits)) :
    List (PartOf × CodeUnits) :=
  (.user, parts.1) :: parts.2.flatMap fun part ↦
    [(.marker part.1.contextId, markerOf records part.1), (.user, part.2)]

def envelopeParts (records : List ComposerContextRecord)
    (occurrences : List ComposerContextReferenceOccurrence) : List (PartOf × CodeUnits) :=
  if occurrences = [] then []
  else
    (.envelope, unitsOf "\n\n<awen_context version=\"1\">") ::
      (firstReferences [] occurrences).map (fun occurrence ↦
        (PartOf.entry occurrence.contextId, unitsOf "\n" ++ entryOf records occurrence)) ++
      [(.envelope, unitsOf "\n</awen_context>")]

/-- The output, each part with who wrote it. -/
def outputParts (text : CodeUnits) (records : List ComposerContextRecord) :
    List (PartOf × CodeUnits) :=
  let occurrences := collectComposerContextReferences text
  bodyParts records (spans text 0 occurrences) ++ envelopeParts records occurrences

private theorem joined_bodyParts (records : List ComposerContextRecord)
    (parts : CodeUnits × List (ComposerContextReferenceOccurrence × CodeUnits)) :
    joined (bodyParts records parts) = woven (markerOf records) parts := by
  rw [bodyParts, joined_cons, woven, joined, List.flatMap_assoc]
  simp only [List.flatMap_cons, List.flatMap_nil, List.append_nil]

private theorem joinLines_eq {entries : List CodeUnits} (h : entries ≠ []) :
    unitsOf "\n" ++ joinLines entries = entries.flatMap (unitsOf "\n" ++ ·) := by
  induction entries with
  | nil => exact absurd rfl h
  | cons entry rest ih =>
    rcases rest with _ | ⟨next, rest⟩
    · simp [joinLines]
    · have hjoin : joinLines (entry :: next :: rest)
          = entry ++ (unitsOf "\n" ++ joinLines (next :: rest)) := rfl
      rw [hjoin, ih (List.cons_ne_nil next rest)]
      simp only [List.flatMap_cons, List.append_assoc]

private theorem firstReferences_ne_nil {occurrences : List ComposerContextReferenceOccurrence}
    (h : occurrences ≠ []) : firstReferences [] occurrences ≠ [] := by
  obtain ⟨occurrence, rest, rfl⟩ := List.exists_cons_of_ne_nil h
  rw [firstReferences, if_neg List.not_mem_nil]
  exact List.cons_ne_nil _ _

/-- **The parts make up the output.** -/
theorem joined_outputParts (text : CodeUnits) (records : List ComposerContextRecord) :
    joined (outputParts text records) = projectComposerContextForProvider text records := by
  rw [outputParts, joined_append, joined_bodyParts, ← replace_eq_woven,
    projectComposerContextForProvider]
  by_cases h : collectComposerContextReferences text = []
  · rw [envelopeParts, if_pos h, if_pos (by rw [h]; rfl), replace_eq_woven, h]
    simp [spans, woven]
  · have hentries : envelopeEntries records (collectComposerContextReferences text) ≠ [] := by
      rw [envelopeEntries_eq]
      simpa using firstReferences_ne_nil h
    have hflat : joined ((firstReferences [] (collectComposerContextReferences text)).map
        fun occurrence ↦
          (PartOf.entry occurrence.contextId, unitsOf "\n" ++ entryOf records occurrence))
        = (envelopeEntries records (collectComposerContextReferences text)).flatMap
          (unitsOf "\n" ++ ·) := by
      rw [envelopeEntries_eq, joined, List.flatMap_map, List.flatMap_map]
    have hsplit : unitsOf "\n\n<awen_context version=\"1\">\n"
        = unitsOf "\n\n<awen_context version=\"1\">" ++ unitsOf "\n" := rfl
    rw [if_neg (by simpa using h), if_neg (by simpa using hentries), envelopeParts, if_neg h,
      joined_append, joined_cons, hflat, ← joinLines_eq hentries, hsplit, joined_cons, joined_nil]
    simp only [List.append_assoc, List.append_nil]

/-! ## The tags outside the user's own text -/

/-- The tags of the envelope and of one entry for each id that is referred to. The entry of an id
that no record has, or more than one, has no closing tag. -/
def envelopeTags (records : List ComposerContextRecord) (ids : List ComposerContextId) :
    List (PartOf × Tag) :=
  if ids = [] then []
  else
    (.envelope, ⟨false, .awenContext⟩) ::
      ids.flatMap (fun contextId ↦
        (PartOf.entry contextId, ⟨false, .context⟩) ::
          if (withId records contextId).length = 1 then
            [(PartOf.entry contextId, ⟨true, .context⟩)]
          else []) ++
      [(.envelope, ⟨true, .awenContext⟩)]

private theorem separates_envelopeParts (records : List ComposerContextRecord)
    (occurrences : List ComposerContextReferenceOccurrence) :
    Separates (joined (envelopeParts records occurrences)) := by
  rw [envelopeParts]
  split
  · exact fun u hu ↦ absurd hu (by simp)
  · exact separates_cons (by decide) (by decide)

private theorem isClosed_concat {u : UInt16} (hword : isWordUnit u = false) (hslash : u ≠ 0x2f)
    (hu : u ≠ 0x3c) (s : CodeUnits) : IsClosed tagAt (s ++ [u]) := fun t ↦ by
  rw [occurrences, occurrencesIn_concat hword hslash hu, occurrencesIn_concat hword hslash hu]

private theorem isClosed_entry (records : List ComposerContextRecord)
    (occurrence : ComposerContextReferenceOccurrence) :
    IsClosed tagAt (unitsOf "\n" ++ entryOf records occurrence) := fun t ↦ by
  rw [occurrences, occurrencesIn_append, occurrencesIn_append, entryOf, occurrencesIn_entry,
    occurrencesIn_entry, occurrencesIn_of_not_mem (by decide), occurrencesIn_of_not_mem (by decide)]

private theorem isClosed_of_mem_envelopeParts {records : List ComposerContextRecord}
    {occurrences : List ComposerContextReferenceOccurrence} {part : PartOf × CodeUnits}
    (h : part ∈ envelopeParts records occurrences) : IsClosed tagAt part.2 := by
  rw [envelopeParts] at h
  split at h
  · exact absurd h List.not_mem_nil
  · rcases List.mem_cons.mp h with rfl | h
    · exact isClosed_concat (by decide) (by decide) (by decide)
        (unitsOf "\n\n<awen_context version=\"1\"")
    · rcases List.mem_append.mp h with h | h
      · obtain ⟨occurrence, -, rfl⟩ := List.mem_map.mp h
        exact isClosed_entry records occurrence
      · obtain rfl := List.mem_singleton.mp h
        exact isClosed_concat (by decide) (by decide) (by decide) (unitsOf "\n</awen_context")

/-- What a part has to itself: its tags do not depend on the parts after it. -/
def HasOwnTags (part : PartOf × CodeUnits) (after : List (PartOf × CodeUnits)) : Prop :=
  occurrencesIn tagAt part.2 (joined after) = occurrences tagAt part.2

/-- **Every part of the output has its own tags**: the user's text is followed by a marker or by the
envelope, and every other part is closed. -/
private theorem everyRest_outputParts (text : CodeUnits) (records : List ComposerContextRecord) :
    EveryRest HasOwnTags (outputParts text records) := by
  rw [outputParts]
  generalize spans text 0 (collectComposerContextReferences text) = parts
  obtain ⟨first, rest⟩ := parts
  have henvelope : EveryRest HasOwnTags
      (envelopeParts records (collectComposerContextReferences text)) := by
    intro before part after hsplit
    exact isClosed_of_mem_envelopeParts (hsplit ▸ List.mem_append_right before List.mem_cons_self)
      (joined after)
  rw [bodyParts]
  induction rest generalizing first with
  | nil =>
    exact everyRest_cons.mpr
      ⟨occurrencesIn_of_isJoint (separates_envelopeParts records _).isJoint first, henvelope⟩
  | cons part rest ih =>
    refine everyRest_cons.mpr ⟨occurrencesIn_of_isJoint ?_ first,
      everyRest_cons.mpr ⟨?_, ih part.2⟩⟩
    · exact (separates_cons (by decide) (by decide)).isJoint
    · rw [HasOwnTags, occurrences, markerOf, occurrencesIn_marker, occurrencesIn_marker]

private theorem tags_marker (records : List ComposerContextRecord)
    (occurrence : ComposerContextReferenceOccurrence) :
    occurrences tagAt (markerOf records occurrence) = [] :=
  occurrencesIn_marker _ occurrence.label occurrence.contextId []

private theorem tags_entry (records : List ComposerContextRecord)
    (occurrence : ComposerContextReferenceOccurrence) :
    occurrences tagAt (unitsOf "\n" ++ entryOf records occurrence)
      = ⟨false, .context⟩ ::
        if (withId records occurrence.contextId).length = 1 then [⟨true, .context⟩] else [] := by
  rw [occurrences, occurrencesIn_append, occurrencesIn_of_not_mem (by decide), entryOf,
    occurrencesIn_entry, isSome_recordOf, List.nil_append]
  simp only [decide_eq_true_eq]

private theorem ownTags_bodyParts (records : List ComposerContextRecord)
    (parts : CodeUnits × List (ComposerContextReferenceOccurrence × CodeUnits)) :
    (((bodyParts records parts).filter (·.1 ≠ PartOf.user)).flatMap fun part ↦
      (occurrences tagAt part.2).map (Prod.mk part.1)) = [] := by
  refine List.flatMap_eq_nil_iff.mpr fun part hpart ↦ ?_
  obtain ⟨hmem, huser⟩ := List.mem_filter.mp hpart
  have huser' : part.1 ≠ .user := by simpa using huser
  rcases List.mem_cons.mp hmem with rfl | hmem
  · exact absurd rfl huser'
  · obtain ⟨span, -, hspan⟩ := List.mem_flatMap.mp hmem
    rcases List.mem_cons.mp hspan with rfl | hspan
    · rw [tags_marker, List.map_nil]
    · exact absurd (List.mem_singleton.mp hspan ▸ rfl) huser'

private theorem ownTags_envelopeParts (text : CodeUnits) (records : List ComposerContextRecord) :
    (((envelopeParts records (collectComposerContextReferences text)).filter
      (·.1 ≠ PartOf.user)).flatMap fun part ↦ (occurrences tagAt part.2).map (Prod.mk part.1))
      = envelopeTags records (referencedIds text) := by
  have hids : (firstReferences [] (collectComposerContextReferences text)).map (·.contextId)
      = referencedIds text := by
    rw [map_firstReferences, referencedIds, List.filter_eq_self.mpr (by simp)]
  by_cases h : collectComposerContextReferences text = []
  · rw [envelopeParts, if_pos h, envelopeTags, referencedIds, h]
    rfl
  · have hne : referencedIds text ≠ [] := by
      rw [← hids]
      simpa using firstReferences_ne_nil h
    have hopening : occurrences tagAt (unitsOf "\n\n<awen_context version=\"1\">")
        = [⟨false, .awenContext⟩] := by decide
    have hclosing : occurrences tagAt (unitsOf "\n</awen_context>") = [⟨true, .awenContext⟩] := by
      decide
    have hall : (envelopeParts records (collectComposerContextReferences text)).filter
        (·.1 ≠ PartOf.user) = envelopeParts records (collectComposerContextReferences text) := by
      refine List.filter_eq_self.mpr fun part hpart ↦ ?_
      rw [envelopeParts, if_neg h] at hpart
      simp only [List.cons_append, List.mem_cons, List.mem_append, List.mem_map,
        List.not_mem_nil, or_false] at hpart
      rcases hpart with rfl | ⟨occurrence, -, rfl⟩ | rfl <;> rfl
    rw [hall, envelopeParts, if_neg h, envelopeTags, if_neg hne, ← hids, List.flatMap_append,
      List.flatMap_cons, hopening, List.flatMap_singleton, hclosing, List.flatMap_map,
      List.flatMap_map]
    simp only [tags_entry, List.map_cons, List.map_nil, List.cons_append, List.nil_append]
    congr 3
    funext occurrence
    split <;> rfl

/-! ## Records that are not referred to -/

private theorem recordOf_filter {records : List ComposerContextRecord}
    {ids : List ComposerContextId} {contextId : ComposerContextId} (h : contextId ∈ ids) :
    recordOf (records.filter (·.contextId ∈ ids)) contextId = recordOf records contextId := by
  have hwith :
      withId (records.filter (·.contextId ∈ ids)) contextId = withId records contextId := by
    rw [withId, withId, List.filter_filter]
    refine List.filter_congr fun record _ ↦ ?_
    by_cases heq : record.contextId = contextId
    · simp [heq, h]
    · simp [heq]
  rw [recordOf, recordOf, get_recordsById, get_recordsById, hwith]

private theorem mem_referencedIds {text : CodeUnits}
    {occurrence : ComposerContextReferenceOccurrence}
    (h : occurrence ∈ collectComposerContextReferences text) :
    occurrence.contextId ∈ referencedIds text := by
  rw [referencedIds, List.mem_eraseDups]
  exact List.mem_map_of_mem h

private theorem mem_of_mem_firstReferences {occurrence : ComposerContextReferenceOccurrence}
    {occurrences : List ComposerContextReferenceOccurrence} {seen : List ComposerContextId}
    (h : occurrence ∈ firstReferences seen occurrences) : occurrence ∈ occurrences := by
  induction occurrences generalizing seen with
  | nil => exact h
  | cons first rest ih =>
    rw [firstReferences] at h
    split at h
    · exact List.mem_cons_of_mem first (ih h)
    · rcases List.mem_cons.mp h with rfl | h
      · exact List.mem_cons_self
      · exact List.mem_cons_of_mem first (ih h)

/-- **Records that nothing refers to contribute nothing.** -/
theorem project_filter_referenced (text : CodeUnits) (records : List ComposerContextRecord) :
    projectComposerContextForProvider text (records.filter (·.contextId ∈ referencedIds text))
      = projectComposerContextForProvider text records := by
  set kept := records.filter (·.contextId ∈ referencedIds text) with hkept
  have hrecord {occurrence : ComposerContextReferenceOccurrence}
      (h : occurrence ∈ collectComposerContextReferences text) :
      recordOf kept occurrence.contextId = recordOf records occurrence.contextId :=
    recordOf_filter (mem_referencedIds h)
  have hbody : replaceComposerContextReferences text (markerOf kept)
      = replaceComposerContextReferences text (markerOf records) := by
    rw [replace_eq_woven, replace_eq_woven, woven, woven]
    refine congrArg _ (List.flatMap_congr fun part hpart ↦ ?_)
    have hmem : part.1 ∈ collectComposerContextReferences text := by
      rw [← map_fst_spans text 0 (collectComposerContextReferences text)]
      exact List.mem_map_of_mem hpart
    rw [markerOf, markerOf, kindOf, kindOf, hrecord hmem]
  have hentries : envelopeEntries kept (collectComposerContextReferences text)
      = envelopeEntries records (collectComposerContextReferences text) := by
    rw [envelopeEntries_eq, envelopeEntries_eq]
    refine List.map_congr_left fun occurrence h ↦ ?_
    have hmem := hrecord (mem_of_mem_firstReferences h)
    rw [entryOf, entryOf, kindOf, kindOf, hmem]
  simp only [projectComposerContextForProvider, hbody, hentries]

/-- An entry says that its id is unavailable exactly if it has no record. -/
private theorem unavailable_suffix_entry (before : CodeUnits) (kind : ComposerContextKind)
    (contextId : ComposerContextId) (record : Option ComposerContextRecord) :
    unitsOf " unavailable=\"true\"/>" <:+ before ++ formatEnvelopeEntry kind contextId record
      ↔ record = none := by
  rcases record with _ | record
  · exact iff_of_true ((List.suffix_append _ _).trans (List.suffix_append before _)) rfl
  · refine iff_of_false (fun h ↦ ?_) (Option.some_ne_none record)
    have hclosing : unitsOf "\n</context>" <:+
        before ++ formatEnvelopeEntry kind contextId (some record) :=
      (List.suffix_append _ _).trans (List.suffix_append before _)
    -- the two ends differ in their last units but one
    exact absurd (List.suffix_of_suffix_length_le hclosing h (by decide)) (by decide)

private theorem filter_user_outputParts (text : CodeUnits) (records : List ComposerContextRecord) :
    let parts := spans text 0 (collectComposerContextReferences text)
    ((outputParts text records).filter (·.1 = .user)).map Prod.snd
      = parts.1 :: parts.2.map Prod.snd := by
  intro parts
  have henvelope : (envelopeParts records (collectComposerContextReferences text)).filter
      (·.1 = PartOf.user) = [] := by
    refine List.filter_eq_nil_iff.mpr fun part hpart ↦ ?_
    rw [envelopeParts] at hpart
    split at hpart
    · exact absurd hpart List.not_mem_nil
    · simp only [List.cons_append, List.mem_cons, List.mem_append, List.mem_map,
        List.not_mem_nil, or_false] at hpart
      rcases hpart with rfl | ⟨occurrence, -, rfl⟩ | rfl <;> exact Bool.false_ne_true
  have hbody (rest : List (ComposerContextReferenceOccurrence × CodeUnits)) :
      ((rest.flatMap fun part ↦
        [(PartOf.marker part.1.contextId, markerOf records part.1), (PartOf.user, part.2)]).filter
          (·.1 = PartOf.user)).map Prod.snd = rest.map Prod.snd := by
    induction rest with
    | nil => rfl
    | cons part rest ih =>
      rw [List.flatMap_cons, List.filter_append, List.map_append, ih]
      rfl
  rw [outputParts, List.filter_append, henvelope, List.append_nil, bodyParts,
    List.filter_cons_of_pos rfl, List.map_cons, hbody]

private theorem exists_of_entry_mem_outputParts {text : CodeUnits}
    {records : List ComposerContextRecord} {contextId : ComposerContextId} {entry : CodeUnits}
    (h : (.entry contextId, entry) ∈ outputParts text records) :
    ∃ occurrence : ComposerContextReferenceOccurrence,
      occurrence.contextId = contextId ∧ unitsOf "\n" ++ entryOf records occurrence = entry := by
  rcases List.mem_append.mp h with h | h
  · simp [bodyParts] at h
  · rw [envelopeParts] at h
    split at h
    · exact absurd h List.not_mem_nil
    · simp only [List.cons_append, List.mem_cons, List.mem_append, List.mem_map, Prod.mk.injEq,
        reduceCtorEq, false_and, PartOf.entry.injEq, List.not_mem_nil, or_false, false_or] at h
      obtain ⟨occurrence, -, hid, hentry⟩ := h
      exact ⟨occurrence, hid, hentry⟩

/-- **Captured context cannot forge the envelope.** -/
theorem projectComposerContextForProvider_spec (text : CodeUnits)
    (records : List ComposerContextRecord) :
    let parts := spans text 0 (collectComposerContextReferences text)
    let output := outputParts text records
    -- the text is its own text and its references, and the output the same own text with markers
    (parts.2.map Prod.fst = collectComposerContextReferences text ∧
      woven (·.source) parts = text ∧
      joined output = projectComposerContextForProvider text records ∧
      (output.filter (·.1 = .user)).map Prod.snd = parts.1 :: parts.2.map Prod.snd) ∧
    -- outside the user's own text the tags are those of the envelope, and in it the user's own
    ((labelled tagAt output).filter (·.1 ≠ .user) = envelopeTags records (referencedIds text) ∧
      ((labelled tagAt output).filter (·.1 = .user)).map Prod.snd
        = (parts.1 :: parts.2.map Prod.snd).flatMap (occurrences tagAt)) ∧
    -- an entry has the one record with its id, or is unavailable
    (∀ contextId record,
      recordOf records contextId = some record ↔ withId records contextId = [record]) ∧
    (∀ contextId entry, (.entry contextId, entry) ∈ output →
      (unitsOf " unavailable=\"true\"/>" <:+ entry ↔ (withId records contextId).length ≠ 1)) ∧
    projectComposerContextForProvider text (records.filter (·.contextId ∈ referencedIds text))
      = projectComposerContextForProvider text records := by
  intro parts output
  have hlabelled : labelled tagAt output
      = output.flatMap fun part ↦ (occurrences tagAt part.2).map (Prod.mk part.1) :=
    labelled_eq_flatMap (everyRest_outputParts text records)
  have huser : (output.filter (·.1 = .user)).map Prod.snd = parts.1 :: parts.2.map Prod.snd :=
    filter_user_outputParts text records
  refine ⟨⟨map_fst_spans text 0 _, woven_source (laid_collect text),
    joined_outputParts text records, huser⟩, ⟨?_, ?_⟩, fun _ _ ↦ recordOf_eq_some, ?_,
    project_filter_referenced text records⟩
  · have houtput : output
        = bodyParts records parts ++ envelopeParts records (collectComposerContextReferences text) :=
      rfl
    rw [hlabelled, filter_flatMap_label (· ≠ PartOf.user), houtput, List.filter_append,
      List.flatMap_append,
      ownTags_bodyParts, List.nil_append, ownTags_envelopeParts]
  · rw [hlabelled, filter_flatMap_label (· = PartOf.user), ← huser, List.map_flatMap,
      List.flatMap_map]
    refine List.flatMap_congr fun part _ ↦ ?_
    rw [List.map_map]
    exact List.map_id _
  · intro contextId entry hentry
    obtain ⟨occurrence, rfl, rfl⟩ := exists_of_entry_mem_outputParts hentry
    rw [entryOf, unavailable_suffix_entry, ← Option.not_isSome_iff_eq_none, isSome_recordOf,
      decide_eq_true_eq]

end Awen.Composer
