import Awen.Library.Decimals
import Awen.Citations.AssistantCitations

/-!
# The address of a citation is read as it was written

Numbers, the values of the query and the ids in the path are encoded so that nothing of them is
lost. One step undoes an encoding that the code does not know of: a platform that reads an address
resolves the segments `.` and `..` of its path, and `encodeURIComponent` keeps dots. So a citation
comes back exactly if its ids are trimmed and none of them is one of these two (`parse_format_iff`).
-/

namespace Awen.Citations

open Composer (isHrefUnit isSpaceUnit isDigitUnit lowerUnit decimal trim)

/-! ## Numbers -/

theorem wellFormed_unitsOf (text : String) : IsWellFormed (unitsOf text) := by
  rw [unitsOf, ← List.flatMap_map]
  refine wellFormed_flatMap_utf16 fun p hp ↦ ?_
  obtain ⟨c, -, rfl⟩ := List.mem_map.mp hp
  have := c.valid
  unfold IsScalar
  simp only [UInt32.isValidChar, Nat.isValidChar] at this
  exact this.imp id fun h ↦ ⟨h.1, h.2⟩

theorem decimal_eq (n : ℕ) : decimal n = asciiUnits ((Nat.toDigits 10 n).map Char.toNat) := by
  rw [decimal, unitsOf_toString, asciiUnits, List.map_map]
  rfl

theorem isPosition_decimal {n : ℕ} (h : n ≤ maxSafeInteger) : isPosition (decimal n) = true := by
  rw [isPosition, Bool.and_eq_true, decide_eq_true_iff, decimal_eq, length_asciiUnits,
    List.length_map]
  refine ⟨⟨Nat.length_toDigits_pos, ?_⟩, List.all_eq_true.mpr fun u hu ↦ ?_⟩
  · exact (Nat.length_toDigits_le_iff (by decide) (by decide)).mpr
      (Nat.lt_of_le_of_lt h (by decide))
  · obtain ⟨byte, hbyte, rfl⟩ := List.mem_map.mp hu
    obtain ⟨c, hc, rfl⟩ := List.mem_map.mp hbyte
    have hbounds := toNat_bounds_of_mem_toDigits hc
    have hnat := toNat_asciiUnit (show c.toNat < 128 by omega)
    rw [isDigitUnit, decide_eq_true_iff, UInt16.le_iff_toNat_le, UInt16.le_iff_toNat_le, hnat]
    exact hbounds

theorem positionValue_decimal (n : ℕ) : positionValue (decimal n) = n :=
  decimalValue_unitsOf_toString n

/-! ## Ids in the path -/

/-- What a part of the path keeps: letters, digits and `-._~`. -/
def isPathPartByte (byte : ℕ) : Bool :=
  isAlphanumericByte byte || byte == 0x2d || byte == 0x2e || byte == 0x5f || byte == 0x7e

theorem isPathPartByte_iff {byte : ℕ} : isPathPartByte byte = true ↔
    (0x30 ≤ byte ∧ byte ≤ 0x39 ∨ 0x41 ≤ byte ∧ byte ≤ 0x5a ∨ 0x61 ≤ byte ∧ byte ≤ 0x7a) ∨
      byte = 0x2d ∨ byte = 0x2e ∨ byte = 0x5f ∨ byte = 0x7e := by
  simp only [isPathPartByte, isAlphanumericByte, Bool.or_eq_true, decide_eq_true_iff, beq_iff_eq,
    or_assoc]

theorem isUriByte_iff {byte : ℕ} : isUriByte byte = true ↔
    (0x30 ≤ byte ∧ byte ≤ 0x39 ∨ 0x41 ≤ byte ∧ byte ≤ 0x5a ∨ 0x61 ≤ byte ∧ byte ≤ 0x7a) ∨
      byte = 0x2d ∨ byte = 0x5f ∨ byte = 0x2e ∨ byte = 0x21 ∨ byte = 0x7e ∨ byte = 0x2a ∨
        byte = 0x27 ∨ byte = 0x28 ∨ byte = 0x29 := by
  simp only [isUriByte, isAlphanumericByte, Bool.or_eq_true, decide_eq_true_iff,
    List.contains_iff_mem, List.mem_cons, List.not_mem_nil, or_false]

/-- The units that are escaped behind `encodeURIComponent`. -/
private theorem contains_sign_iff {byte : ℕ} (h : byte < 128) :
    [0x21, 0x27, 0x28, 0x29, 0x2a].contains (UInt16.ofNat byte) = true ↔
      byte = 0x21 ∨ byte = 0x27 ∨ byte = 0x28 ∨ byte = 0x29 ∨ byte = 0x2a := by
  have hnat := toNat_asciiUnit h
  simp only [List.contains_iff_mem, List.mem_cons, List.not_mem_nil, or_false,
    ← UInt16.toNat_inj, hnat]
  rfl

/-- **A part of the path is percent encoded.** -/
theorem encodePathPart_eq {value : CodeUnits} (h : IsWellFormed value) :
    encodePathPart value = some (percentEncode isPathPartByte value) := by
  rw [encodePathPart, encodeURIComponent, if_pos h, Option.map_some, percentEncode, percentEncode,
    asciiUnits, asciiUnits, List.flatMap_map, List.map_flatMap, List.flatMap_assoc]
  refine congrArg some (List.flatMap_congr fun byte hbyte ↦ ?_)
  have hlt := encodeUtf8_lt h hbyte
  have hrest : ∀ c ∈ percentByte byte, [0x21, 0x27, 0x28, 0x29, 0x2a].contains (UInt16.ofNat c) =
      false := fun c hc ↦ by
    have hbytes := @mem_escapeByte (fun _ ↦ false) byte c hlt hc
    simp only [Bool.false_eq_true, false_or] at hbytes
    rw [Bool.eq_false_iff]
    intro hsign
    have := (contains_sign_iff (by omega)).mp hsign
    omega
  have hescaped : (percentByte byte).flatMap (fun c ↦
      if [0x21, 0x27, 0x28, 0x29, 0x2a].contains (UInt16.ofNat c) then
        asciiUnits (percentByte (UInt16.ofNat c).toNat) else [UInt16.ofNat c]) =
      (percentByte byte).map UInt16.ofNat := by
    rw [List.map_eq_flatMap]
    exact List.flatMap_congr fun c hc ↦ by rw [hrest c hc]; rfl
  rw [escapeByte, escapeByte]
  by_cases huri : isUriByte byte = true
  · have hbounds := isUriByte_iff.mp huri
    have hascii : byte < 128 := by omega
    rw [if_pos huri, List.flatMap_singleton]
    by_cases hsign : byte = 0x21 ∨ byte = 0x27 ∨ byte = 0x28 ∨ byte = 0x29 ∨ byte = 0x2a
    · rw [if_pos ((contains_sign_iff hascii).mpr hsign), toNat_asciiUnit hascii, if_neg]
      · rfl
      · rw [isPathPartByte_iff]
        omega
    · rw [if_neg (mt (contains_sign_iff hascii).mp hsign), if_pos]
      · rfl
      · rw [isPathPartByte_iff]
        omega
  · have hpart : ¬isPathPartByte byte = true := fun hpart ↦ huri <| isUriByte_iff.mpr <| by
      have := isPathPartByte_iff.mp hpart
      omega
    rw [if_neg huri, if_neg hpart]
    exact hescaped

theorem decodeURIComponent_part {value : CodeUnits} (h : IsWellFormed value) :
    decodeURIComponent (percentEncode isPathPartByte value) = some value :=
  decodeURIComponent_percentEncode (fun byte hbyte ↦ by
    have := isPathPartByte_iff.mp hbyte
    omega) h

/-! ## Addresses -/

/-- A segment that stands for the one it is in. -/
def isSingleDot (segment : CodeUnits) : Bool :=
  [unitsOf ".", unitsOf "%2e"].contains (segment.map lowerUnit)

/-- A segment that stands for the one above. -/
def isDoubleDot (segment : CodeUnits) : Bool :=
  [unitsOf "..", unitsOf ".%2e", unitsOf "%2e.", unitsOf "%2e%2e"].contains (segment.map lowerUnit)

/-- The segments of a path behind those that are resolved. -/
def resolveSegments (resolved : List CodeUnits) : List CodeUnits → List CodeUnits
  | [] => resolved
  | segment :: rest =>
    if isDoubleDot segment then
      if rest = [] then resolved.dropLast ++ [[]] else resolveSegments resolved.dropLast rest
    else if isSingleDot segment then
      if rest = [] then resolved ++ [[]] else resolveSegments resolved rest
    else resolveSegments (resolved ++ [segment]) rest

/-- A byte of a path that is not encoded and ends nothing. -/
def IsPathByte (c : ℕ) : Prop := isPathPartByte c = true ∨ c = 0x25 ∨ c = 0x2f

/-- The platform reads the addresses of citations as its standard says: the segments of the path are
resolved, and the query is read as a form. -/
structure ReadsCitationUrls (newUrl : CodeUnits → Option Url) : Prop where
  read : ∀ path query : List ℕ, (∀ c ∈ path, IsPathByte c) → (∀ c ∈ query, IsQueryByte c) →
    newUrl (citationHrefPrefix ++ asciiUnits path ++ 0x3f :: asciiUnits query) = some
      { protocol := citationProtocol
        hostname := unitsOf "v1"
        username := []
        password := []
        port := []
        hash := []
        pathname :=
          0x2f :: [0x2f].intercalate (resolveSegments [] ((asciiUnits path).splitOn 0x2f))
        searchParams := parseForm (asciiUnits query) }

/-! ## Dots -/

private theorem eq_of_lowerUnit {u v : UInt16} (h : lowerUnit u = v) (hv : v.toNat < 0x61) :
    u = v := by
  rw [lowerUnit] at h
  split at h
  next hupper =>
    rw [Composer.isUpperUnit, decide_eq_true_iff, UInt16.le_iff_toNat_le,
      UInt16.le_iff_toNat_le] at hupper
    have hnat : (u + 0x20).toNat = v.toNat := congrArg UInt16.toNat h
    rw [UInt16.toNat_add] at hnat
    simp at hupper hnat
    omega
  next => exact h

private theorem eq_of_lowerUnit_e {u : UInt16} (h : lowerUnit u = 0x65) : u = 0x65 ∨ u = 0x45 := by
  rw [lowerUnit] at h
  split at h
  next =>
    right
    have hnat := congrArg UInt16.toNat h
    rw [UInt16.toNat_add] at hnat
    refine UInt16.toNat_inj.mp ?_
    have := u.toNat_lt
    simp at hnat ⊢
    omega
  next => exact .inl h

/-- A dot, or its escape. -/
def SpellsDot (s : CodeUnits) : Prop :=
  s = [0x2e] ∨ s = [0x25, 0x32, 0x65] ∨ s = [0x25, 0x32, 0x45]

private theorem exists_cons_of_map_lowerUnit {s t : CodeUnits} {v : UInt16}
    (h : s.map lowerUnit = v :: t) (hv : v.toNat < 0x61) :
    ∃ rest, s = v :: rest ∧ rest.map lowerUnit = t := by
  obtain ⟨u, rest, rfl, hu, hrest⟩ := List.map_eq_cons_iff.mp h
  exact ⟨rest, by rw [eq_of_lowerUnit hu hv], hrest⟩

private theorem spellsDot_of_escape {s t : CodeUnits}
    (h : s.map lowerUnit = 0x25 :: 0x32 :: 0x65 :: t) :
    ∃ dot rest, SpellsDot dot ∧ s = dot ++ rest ∧ rest.map lowerUnit = t := by
  obtain ⟨second, rfl, hsecond⟩ := exists_cons_of_map_lowerUnit h (by decide)
  obtain ⟨third, rfl, hthird⟩ := exists_cons_of_map_lowerUnit hsecond (by decide)
  obtain ⟨u, rest, rfl, hu, hrest⟩ := List.map_eq_cons_iff.mp hthird
  rcases eq_of_lowerUnit_e hu with rfl | rfl
  · exact ⟨_, rest, .inr (.inl rfl), rfl, hrest⟩
  · exact ⟨_, rest, .inr (.inr rfl), rfl, hrest⟩

private theorem spellsDot_of_dot {s t : CodeUnits} (h : s.map lowerUnit = 0x2e :: t) :
    ∃ dot rest, SpellsDot dot ∧ s = dot ++ rest ∧ rest.map lowerUnit = t := by
  obtain ⟨rest, rfl, hrest⟩ := exists_cons_of_map_lowerUnit h (by decide)
  exact ⟨_, rest, .inl rfl, rfl, hrest⟩

theorem spellsDot_of_isSingleDot {segment : CodeUnits} (h : isSingleDot segment = true) :
    SpellsDot segment := by
  rw [isSingleDot, List.contains_iff_mem, List.mem_cons, List.mem_singleton] at h
  have hspelled : ∃ dot rest, SpellsDot dot ∧ segment = dot ++ rest ∧
      rest.map lowerUnit = [] :=
    h.elim (fun h ↦ spellsDot_of_dot h) fun h ↦ spellsDot_of_escape h
  obtain ⟨dot, rest, hdot, rfl, hrest⟩ := hspelled
  rwa [List.map_eq_nil_iff.mp hrest, List.append_nil]

theorem spellsDots_of_isDoubleDot {segment : CodeUnits} (h : isDoubleDot segment = true) :
    ∃ first second, SpellsDot first ∧ SpellsDot second ∧ segment = first ++ second := by
  rw [isDoubleDot, List.contains_iff_mem] at h
  simp only [List.mem_cons, List.not_mem_nil, or_false] at h
  have hspelled : ∃ first rest, SpellsDot first ∧ segment = first ++ rest ∧
      (rest.map lowerUnit = unitsOf "." ∨ rest.map lowerUnit = unitsOf "%2e") := by
    rcases h with h | h | h | h
    · obtain ⟨first, rest, hfirst, hsegment, hrest⟩ := spellsDot_of_dot h
      exact ⟨first, rest, hfirst, hsegment, .inl hrest⟩
    · obtain ⟨first, rest, hfirst, hsegment, hrest⟩ := spellsDot_of_dot h
      exact ⟨first, rest, hfirst, hsegment, .inr hrest⟩
    · obtain ⟨first, rest, hfirst, hsegment, hrest⟩ := spellsDot_of_escape h
      exact ⟨first, rest, hfirst, hsegment, .inl hrest⟩
    · obtain ⟨first, rest, hfirst, hsegment, hrest⟩ := spellsDot_of_escape h
      exact ⟨first, rest, hfirst, hsegment, .inr hrest⟩
  obtain ⟨first, rest, hfirst, hsegment, hrest⟩ := hspelled
  refine ⟨first, rest, hfirst, spellsDot_of_isSingleDot ?_, hsegment⟩
  rw [isSingleDot, List.contains_iff_mem, List.mem_cons, List.mem_singleton]
  exact hrest

/-- An id that would be resolved as a segment. -/
def IsDotId (id : CodeUnits) : Prop := id = unitsOf "." ∨ id = unitsOf ".."

instance (id : CodeUnits) : Decidable (IsDotId id) := inferInstanceAs (Decidable (_ ∨ _))

/-- A segment that is resolved. -/
def isDotSegment (segment : CodeUnits) : Bool := isDoubleDot segment || isSingleDot segment

/-- **An encoded id is resolved exactly if it is one of the dot segments itself.** -/
theorem isDotSegment_percentEncode {id : CodeUnits} (h : IsWellFormed id) :
    isDotSegment (percentEncode isPathPartByte id) = true ↔ IsDotId id := by
  have hdecode := decodeURIComponent_part h
  constructor
  · intro hdot
    rcases Bool.or_eq_true_iff.mp hdot with hdouble | hsingle
    · obtain ⟨first, second, hfirst, hsecond, hsegment⟩ := spellsDots_of_isDoubleDot hdouble
      rw [hsegment] at hdecode
      refine .inr (Option.some.inj (hdecode.symm.trans ?_))
      rcases hfirst with rfl | rfl | rfl <;> rcases hsecond with rfl | rfl | rfl <;> decide
    · have hspelled := spellsDot_of_isSingleDot hsingle
      refine .inl (Option.some.inj (hdecode.symm.trans ?_))
      rcases hspelled with heq | heq | heq <;> rw [heq] <;> decide
  · rintro (rfl | rfl)
    · decide
    · decide

/-! ## Resolved paths -/

theorem resolveSegments_of_not_dot {segments : List CodeUnits}
    (h : ∀ segment ∈ segments, isDotSegment segment = false) (resolved : List CodeUnits) :
    resolveSegments resolved segments = resolved ++ segments := by
  induction segments generalizing resolved with
  | nil => rw [resolveSegments, List.append_nil]
  | cons segment segments ih =>
    obtain ⟨hdouble, hsingle⟩ := Bool.or_eq_false_iff.mp (h segment List.mem_cons_self)
    rw [resolveSegments, hdouble, hsingle, if_neg Bool.false_ne_true, if_neg Bool.false_ne_true,
      ih fun other hother ↦ h other (List.mem_cons_of_mem _ hother), List.append_assoc]
    rfl

theorem resolveSegments_ne_nil {segments : List CodeUnits} (resolved : List CodeUnits)
    (h : segments ≠ []) : resolveSegments resolved segments ≠ [] := by
  have hcons : ∀ (segments : List CodeUnits) (resolved : List CodeUnits), resolved ≠ [] →
      segments = [] → resolveSegments resolved segments ≠ [] := fun _ _ hresolved hnil ↦ by
    rw [hnil, resolveSegments]
    exact hresolved
  induction segments generalizing resolved with
  | nil => exact absurd rfl h
  | cons segment segments ih =>
    rw [resolveSegments]
    split_ifs with hdouble hlast hsingle hlast
    · exact List.append_ne_nil_of_right_ne_nil _ (List.cons_ne_nil _ _)
    · exact ih _ hlast
    · exact List.append_ne_nil_of_right_ne_nil _ (List.cons_ne_nil _ _)
    · exact ih _ hlast
    · by_cases hlast : segments = []
      · exact hcons _ _ (List.append_ne_nil_of_right_ne_nil _ (List.cons_ne_nil _ _)) hlast
      · exact ih _ hlast

/-- What is resolved is made up of the segments. -/
theorem mem_resolveSegments {segments resolved : List CodeUnits} {segment : CodeUnits}
    (h : segment ∈ resolveSegments resolved segments) :
    segment ∈ resolved ∨ segment ∈ segments ∨ segment = [] := by
  induction segments generalizing resolved with
  | nil => exact .inl h
  | cons first segments ih =>
    rw [resolveSegments] at h
    split_ifs at h with hdouble hlast hsingle hlast
    · rcases List.mem_append.mp h with h | h
      · exact .inl ((List.dropLast_sublist resolved).subset h)
      · exact .inr (.inr (List.mem_singleton.mp h))
    · rcases ih h with h | h | h
      · exact .inl ((List.dropLast_sublist resolved).subset h)
      · exact .inr (.inl (List.mem_cons_of_mem _ h))
      · exact .inr (.inr h)
    · rcases List.mem_append.mp h with h | h
      · exact .inl h
      · exact .inr (.inr (List.mem_singleton.mp h))
    · exact (ih h).imp id (Or.imp (List.mem_cons_of_mem _) id)
    · rcases ih h with h | h | h
      · rcases List.mem_append.mp h with h | h
        · exact .inl h
        · exact .inr (.inl (List.mem_singleton.mp h ▸ List.mem_cons_self))
      · exact .inr (.inl (List.mem_cons_of_mem _ h))
      · exact .inr (.inr h)

/-- **Resolving leaves no more segments than there are behind dots.** -/
theorem countP_resolveSegments_le (segments resolved : List CodeUnits) :
    (resolveSegments resolved segments).countP (· ≠ []) ≤
      resolved.countP (· ≠ []) + segments.countP (!isDotSegment ·) := by
  have hempty : [([] : CodeUnits)].countP (· ≠ []) = 0 := rfl
  induction segments generalizing resolved with
  | nil => exact Nat.le_refl _
  | cons segment segments ih =>
    have hdropLast : resolved.dropLast.countP (· ≠ []) ≤ resolved.countP (· ≠ []) :=
      (List.dropLast_sublist resolved).countP_le
    rw [resolveSegments]
    split_ifs with hdouble hlast hsingle hlast
    · rw [List.countP_append, hempty]
      omega
    · have hrest := ih resolved.dropLast
      rw [List.countP_cons]
      omega
    · rw [List.countP_append, hempty]
      omega
    · have hrest := ih resolved
      rw [List.countP_cons]
      omega
    · have hrest := ih (resolved ++ [segment])
      have hplain : isDotSegment segment = false := by
        rw [isDotSegment, Bool.or_eq_false_iff, Bool.eq_false_iff, Bool.eq_false_iff]
        exact ⟨hdouble, hsingle⟩
      rw [List.countP_append] at hrest
      have hone : [segment].countP (· ≠ []) ≤ 1 := List.countP_le_length
      rw [List.countP_cons, hplain]
      simp only [Bool.not_false, if_true]
      omega

/-! ## The address of a citation -/

/-- The bytes of a part of the path. -/
def partBytes (id : CodeUnits) : List ℕ := (encodeUtf8 id).flatMap (escapeByte isPathPartByte)

/-- The strings of the citation have no lone surrogates. -/
structure AssistantCitation.WellFormed (citation : AssistantCitation) : Prop where
  environmentId : IsWellFormed citation.environmentId
  threadId : IsWellFormed citation.threadId
  messageId : IsWellFormed citation.messageId
  text : IsWellFormed citation.text
  comment : ∀ comment ∈ citation.comment, IsWellFormed comment
  prefixText : IsWellFormed citation.prefixText
  suffixText : IsWellFormed citation.suffixText

/-- The segments of the path. -/
def citationSegments (citation : AssistantCitation) : List CodeUnits :=
  [percentEncode isPathPartByte citation.environmentId,
    percentEncode isPathPartByte citation.threadId,
    percentEncode isPathPartByte citation.messageId]

/-- The address, as the parts that the platform reads. -/
def citationHref (citation : AssistantCitation) : CodeUnits :=
  citationHrefPrefix ++ [0x2f].intercalate (citationSegments citation) ++
    0x3f :: serializeForm (citationParams citation)

variable {citation : AssistantCitation}

theorem formatAssistantCitationHref_eq (h : citation.WellFormed) :
    formatAssistantCitationHref citation = some (citationHref citation) := by
  rw [formatAssistantCitationHref, encodePathPart_eq h.environmentId, encodePathPart_eq h.threadId,
    encodePathPart_eq h.messageId]
  rfl

theorem mem_partBytes {id : CodeUnits} (h : IsWellFormed id) {c : ℕ} (hc : c ∈ partBytes id) :
    isPathPartByte c = true ∨ c = 0x25 := by
  obtain ⟨byte, hbyte, hc⟩ := List.mem_flatMap.mp hc
  rcases mem_escapeByte (encodeUtf8_lt h hbyte) hc with hkeep | rfl | hdigit
  · exact .inl hkeep
  · exact .inr rfl
  · exact .inl (isPathPartByte_iff.mpr (by omega))

theorem partByte_lt {c : ℕ} (h : isPathPartByte c = true ∨ c = 0x25) : c < 128 ∧ c ≠ 0x2f := by
  rcases h with h | rfl
  · have := isPathPartByte_iff.mp h
    omega
  · decide

theorem slash_notMem_percentEncode {id : CodeUnits} (h : IsWellFormed id) :
    0x2f ∉ percentEncode isPathPartByte id := fun hmem ↦ by
  obtain ⟨c, hc, hunit⟩ := List.mem_map.mp hmem
  obtain ⟨hlt, hne⟩ := partByte_lt (mem_partBytes h hc)
  have hnat := congrArg UInt16.toNat hunit
  rw [toNat_asciiUnit hlt] at hnat
  exact hne hnat

theorem slash_notMem_citationSegments (h : citation.WellFormed) :
    ∀ segment ∈ citationSegments citation, 0x2f ∉ segment := by
  intro segment hsegment
  simp only [citationSegments, List.mem_cons, List.not_mem_nil, or_false] at hsegment
  rcases hsegment with rfl | rfl | rfl
  · exact slash_notMem_percentEncode h.environmentId
  · exact slash_notMem_percentEncode h.threadId
  · exact slash_notMem_percentEncode h.messageId

theorem wellFormed_citationParams (h : citation.WellFormed) :
    ∀ pair ∈ citationParams citation, IsWellFormed pair.1 ∧ IsWellFormed pair.2 := by
  intro pair hpair
  rcases List.mem_append.mp hpair with hpair | hpair
  · simp only [List.mem_cons, List.not_mem_nil, or_false] at hpair
    rcases hpair with rfl | rfl | rfl | rfl | rfl
    · exact ⟨wellFormed_unitsOf _, h.text⟩
    · exact ⟨wellFormed_unitsOf _, wellFormed_unitsOf _⟩
    · exact ⟨wellFormed_unitsOf _, wellFormed_unitsOf _⟩
    · exact ⟨wellFormed_unitsOf _, h.prefixText⟩
    · exact ⟨wellFormed_unitsOf _, h.suffixText⟩
  · obtain ⟨comment, hcomment, rfl⟩ := List.mem_map.mp hpair
    exact ⟨wellFormed_unitsOf _, h.comment comment (Option.mem_toList.mp hcomment)⟩

/-- The path of an address. -/
def citationPath (citation : AssistantCitation) : List ℕ :=
  partBytes citation.environmentId ++ 0x2f :: partBytes citation.threadId ++
    0x2f :: partBytes citation.messageId

theorem intercalate_citationSegments (citation : AssistantCitation) :
    [0x2f].intercalate (citationSegments citation) = asciiUnits (citationPath citation) := by
  rw [citationPath, asciiUnits_append, asciiUnits_append, citationSegments,
    List.intercalate_cons_cons, List.intercalate_cons_cons, List.intercalate_singleton,
    List.append_assoc, List.append_assoc, List.append_assoc]
  rfl

theorem isPathByte_citationPath (h : citation.WellFormed) {c : ℕ} (hc : c ∈ citationPath citation) :
    IsPathByte c := by
  have hpart : ∀ part, IsWellFormed part → c ∈ partBytes part → IsPathByte c :=
    fun part hpart hc ↦ (mem_partBytes hpart hc).imp id .inl
  simp only [citationPath, List.mem_append, List.mem_cons] at hc
  rcases hc with (hc | rfl | hc) | rfl | hc
  · exact hpart _ h.environmentId hc
  · exact .inr (.inr rfl)
  · exact hpart _ h.threadId hc
  · exact .inr (.inr rfl)
  · exact hpart _ h.messageId hc

/-- **What the platform reads of the address of a citation.** -/
theorem newUrl_citationHref {newUrl : CodeUnits → Option Url} (hurl : ReadsCitationUrls newUrl)
    (h : citation.WellFormed) :
    newUrl (citationHref citation) = some
      { protocol := citationProtocol
        hostname := unitsOf "v1"
        username := []
        password := []
        port := []
        hash := []
        pathname := 0x2f :: [0x2f].intercalate (resolveSegments [] (citationSegments citation))
        searchParams := citationParams citation } := by
  have hread := hurl.read (citationPath citation) (formText (citationParams citation))
    (fun c hc ↦ isPathByte_citationPath h hc)
    fun c hc ↦ isQueryByte_formText (wellFormed_citationParams h) hc
  rw [← intercalate_citationSegments, List.splitOn_intercalate 0x2f
    (slash_notMem_citationSegments h) (List.cons_ne_nil _ _)] at hread
  rw [citationHref, serializeForm, hread, ← serializeForm,
    parseForm_serializeForm (wellFormed_citationParams h)]

/-! ## Lengths -/

/-- What the schema demands of a citation, part by part. -/
structure AssistantCitation.Accepted (citation : AssistantCitation) : Prop where
  environmentId : citation.environmentId ≠ [] ∧ citation.environmentId.length ≤ 512
  threadId : citation.threadId ≠ [] ∧ citation.threadId.length ≤ 512
  messageId : citation.messageId ≠ [] ∧ citation.messageId.length ≤ 512
  text : citation.text.length ≤ maxTextLength
  comment : ∀ comment ∈ citation.comment, comment.length ≤ maxCommentLength
  positions : citation.start ≤ maxSafeInteger ∧ citation.stop ≤ maxSafeInteger
  context : citation.prefixText.length ≤ contextLength ∧
    citation.suffixText.length ≤ contextLength

theorem AssistantCitation.accepted_of_accepts (h : citation.accepts = true) :
    citation.Accepted := by
  simp only [accepts, acceptsId, Bool.and_eq_true, decide_eq_true_iff, Option.all_eq_true] at h
  obtain ⟨⟨⟨⟨⟨⟨⟨henvironment, hthread⟩, hmessage⟩, htext⟩, hcomment⟩, hpositions⟩, hcontext⟩, -⟩ :=
    h
  exact ⟨henvironment, hthread, hmessage, htext.2, hcomment, hpositions, hcontext⟩

theorem length_decimal_le {n : ℕ} (h : n ≤ maxSafeInteger) : (decimal n).length ≤ 16 := by
  have hposition := isPosition_decimal h
  rw [isPosition, Bool.and_eq_true, decide_eq_true_iff] at hposition
  exact hposition.1.2

/-- **The address is within the limit.** -/
theorem length_citationHref_le (h : citation.WellFormed) (haccepted : citation.Accepted) :
    (citationHref citation).length ≤ maxCitationHrefLength := by
  have henvironment := @length_percentEncode_le isPathPartByte _ h.environmentId
  have hthread := @length_percentEncode_le isPathPartByte _ h.threadId
  have hmessage := @length_percentEncode_le isPathPartByte _ h.messageId
  have hquery := length_serializeForm_le (wellFormed_citationParams h)
  have hids := And.intro haccepted.environmentId.2
    (And.intro haccepted.threadId.2 haccepted.messageId.2)
  have htext := haccepted.text
  have hstart := length_decimal_le haccepted.positions.1
  have hstop := length_decimal_le haccepted.positions.2
  have hcontext := haccepted.context
  have hcomment : (citation.comment.toList.map fun comment ↦
      9 * (unitsOf "comment").length + 9 * comment.length + 2).sum ≤ 72065 := by
    cases hvalue : citation.comment with
    | none => exact Nat.zero_le _
    | some comment =>
      have hlength := haccepted.comment comment hvalue
      rw [maxCommentLength] at hlength
      have hname : (unitsOf "comment").length = 7 := by decide
      simp only [Option.toList_some, List.map_cons, List.map_nil, List.sum_cons, List.sum_nil,
        hname]
      omega
  have hnames : (unitsOf "text").length = 4 ∧ (unitsOf "start").length = 5 ∧
      (unitsOf "end").length = 3 ∧ (unitsOf "prefix").length = 6 ∧
      (unitsOf "suffix").length = 6 ∧ citationHrefPrefix.length = 19 := by decide
  have hsum : ((citationParams citation).map fun pair ↦
      9 * pair.1.length + 9 * pair.2.length + 2).sum =
      226 + 9 * citation.text.length + 9 * (decimal citation.start).length +
        9 * (decimal citation.stop).length + 9 * citation.prefixText.length +
        9 * citation.suffixText.length + (citation.comment.toList.map fun comment ↦
          9 * (unitsOf "comment").length + 9 * comment.length + 2).sum := by
    simp only [citationParams, List.map_append, List.map_cons, List.map_nil, List.sum_append,
      List.sum_cons, List.sum_nil, List.map_map, Function.comp_def, hnames]
    omega
  rw [hsum] at hquery
  simp only [maxTextLength, contextLength] at htext hcontext
  have hlength : (citationHref citation).length = 22 +
      (percentEncode isPathPartByte citation.environmentId).length +
      (percentEncode isPathPartByte citation.threadId).length +
      (percentEncode isPathPartByte citation.messageId).length +
      (serializeForm (citationParams citation)).length := by
    simp only [citationHref, citationSegments, List.intercalate_cons_cons,
      List.intercalate_singleton, List.length_append, List.length_cons, List.length_nil, hnames]
    omega
  have hmax : maxCitationHrefLength = 160000 := by decide
  rw [hlength, hmax]
  omega

/-! ## Reading the address -/

theorem getAll_citationParams (citation : AssistantCitation) :
    getAll (citationParams citation) "text" = [citation.text] ∧
      getAll (citationParams citation) "start" = [decimal citation.start] ∧
      getAll (citationParams citation) "end" = [decimal citation.stop] ∧
      getAll (citationParams citation) "prefix" = [citation.prefixText] ∧
      getAll (citationParams citation) "suffix" = [citation.suffixText] ∧
      getAll (citationParams citation) "comment" = citation.comment.toList := by
  rw [citationParams]
  cases citation.comment with
  | none => exact ⟨rfl, rfl, rfl, rfl, rfl, rfl⟩
  | some comment => exact ⟨rfl, rfl, rfl, rfl, rfl, rfl⟩

theorem splitOn_resolved (h : citation.WellFormed) :
    ((0x2f :: [0x2f].intercalate (resolveSegments [] (citationSegments citation))).drop 1).splitOn
        0x2f = resolveSegments [] (citationSegments citation) := by
  refine List.splitOn_intercalate 0x2f (fun segment hsegment ↦ ?_)
    (resolveSegments_ne_nil [] (List.cons_ne_nil _ _))
  rcases mem_resolveSegments hsegment with hnil | hsegment | rfl
  · exact absurd hnil List.not_mem_nil
  · exact slash_notMem_citationSegments h segment hsegment
  · exact List.not_mem_nil

/-- **Reading the address of a citation**, up to the ids that the path still holds. -/
theorem parse_citationHref {newUrl : CodeUnits → Option Url} (hurl : ReadsCitationUrls newUrl)
    (h : citation.WellFormed) (haccepted : citation.Accepted) {resolved : List CodeUnits}
    (hresolved : resolveSegments [] (citationSegments citation) = resolved) :
    parseAssistantCitationHref newUrl (citationHref citation) =
      if resolved.length ≠ 3 then none
      else
        (decodeURIComponent (resolved.getD 0 [])).bind fun environmentId ↦
          (decodeURIComponent (resolved.getD 1 [])).bind fun threadId ↦
            (decodeURIComponent (resolved.getD 2 [])).bind fun messageId ↦
              decodeCitation { citation with environmentId, threadId, messageId } := by
  have hstart : citationHrefPrefix.isPrefixOf (citationHref citation) = true := by
    rw [List.isPrefixOf_iff_prefix, citationHref, List.append_assoc]
    exact List.prefix_append _ _
  have hlength := length_citationHref_le h haccepted
  obtain ⟨htext, hstartAll, hstopAll, hprefixAll, hsuffixAll, hcommentAll⟩ :=
    getAll_citationParams citation
  have hcomment : get (citationParams citation) "comment" = citation.comment := by
    rw [get, hcommentAll]
    cases citation.comment with
    | none => rfl
    | some comment => rfl
  have hcount : (citationParams citation).length =
      5 + if citation.comment.isNone = true then 0 else 1 := by
    rw [citationParams, List.length_append, List.length_map]
    cases citation.comment with
    | none => rfl
    | some comment => rfl
  have hsplit := splitOn_resolved h
  rw [hresolved] at hsplit
  rw [parseAssistantCitationHref, hstart, if_neg (by simpa using hlength),
    newUrl_citationHref hurl h]
  simp only [Option.bind_eq_bind, Option.bind_some, hresolved, hsplit]
  by_cases hthree : resolved.length = 3
  · have hfirst := isPosition_decimal haccepted.positions.1
    have hsecond := isPosition_decimal haccepted.positions.2
    have hrequired : ["text", "start", "end", "prefix", "suffix"].any (fun key ↦
        (getAll (citationParams citation) key).length != 1) = false := by
      simp [htext, hstartAll, hstopAll, hprefixAll, hsuffixAll]
    rw [if_neg (by simp [hthree]), if_neg (not_not.mpr hthree), hcomment, if_neg, get, get, get,
      get, get, htext, hstartAll, hstopAll, hprefixAll, hsuffixAll]
    · simp only [List.head?_cons, Option.getD_some, hfirst, hsecond, Bool.not_true, Bool.or_self,
        Bool.false_eq_true, if_false, Option.bind_some, positionValue_decimal]
    · rw [hcount, hrequired]
      simp
  · rw [if_pos (by simp [hthree]), if_pos hthree]

/-! ## Round trips -/

/-- The ids of the citation are trimmed, and none of them is resolved in a path. -/
def AssistantCitation.HasPlainIds (citation : AssistantCitation) : Prop :=
  ∀ id ∈ [citation.environmentId, citation.threadId, citation.messageId],
    trim id = id ∧ ¬IsDotId id

instance (citation : AssistantCitation) : Decidable citation.HasPlainIds :=
  inferInstanceAs (Decidable (∀ id ∈ _, _))

theorem decodeCitation_eq_some_iff (haccepts : citation.accepts = true) :
    decodeCitation citation = some citation ↔
      ∀ id ∈ [citation.environmentId, citation.threadId, citation.messageId], trim id = id := by
  simp only [List.forall_mem_cons, List.not_mem_nil, false_implies, implies_true, and_true]
  rw [decodeCitation]
  constructor
  · intro h
    split at h
    next =>
      have heq := Option.some.inj h
      exact ⟨congrArg AssistantCitation.environmentId heq,
        congrArg AssistantCitation.threadId heq, congrArg AssistantCitation.messageId heq⟩
    next => nomatch h
  · rintro ⟨henvironment, hthread, hmessage⟩
    rw [henvironment, hthread, hmessage]
    exact if_pos haccepts

/-- What is decoded has ids. -/
theorem ne_nil_of_decodeCitation {raw : AssistantCitation} (h : (decodeCitation raw).isSome) :
    raw.environmentId ≠ [] ∧ raw.threadId ≠ [] ∧ raw.messageId ≠ [] := by
  rw [decodeCitation] at h
  split at h
  next haccepts =>
    have haccepted := AssistantCitation.accepted_of_accepts haccepts
    refine ⟨fun hnil ↦ haccepted.environmentId.1 ?_, fun hnil ↦ haccepted.threadId.1 ?_,
      fun hnil ↦ haccepted.messageId.1 ?_⟩
    · exact (congrArg trim hnil).trans rfl
    · exact (congrArg trim hnil).trans rfl
    · exact (congrArg trim hnil).trans rfl
  next => nomatch h

theorem isDotSegment_citationSegments (h : citation.WellFormed) :
    (∀ segment ∈ citationSegments citation, isDotSegment segment = false) ↔
      ∀ id ∈ [citation.environmentId, citation.threadId, citation.messageId], ¬IsDotId id := by
  simp only [citationSegments, List.forall_mem_cons, List.not_mem_nil, false_implies,
    implies_true, and_true, ← isDotSegment_percentEncode h.environmentId,
    ← isDotSegment_percentEncode h.threadId, ← isDotSegment_percentEncode h.messageId,
    Bool.not_eq_true]

/-- A path in which a segment is resolved has no three ids left. -/
theorem parse_citationHref_of_dot {newUrl : CodeUnits → Option Url}
    (hurl : ReadsCitationUrls newUrl) (h : citation.WellFormed) (haccepted : citation.Accepted)
    (hdot : ¬∀ segment ∈ citationSegments citation, isDotSegment segment = false) :
    parseAssistantCitationHref newUrl (citationHref citation) = none := by
  have hparse := parse_citationHref hurl h haccepted rfl
  have hcount := countP_resolveSegments_le (citationSegments citation) []
  have hplain : (citationSegments citation).countP (!isDotSegment ·) < 3 := by
    refine lt_of_le_of_ne List.countP_le_length fun hall ↦ hdot fun segment hsegment ↦ ?_
    have hsegment := List.countP_eq_length.mp hall segment hsegment
    rwa [Bool.not_eq_true'] at hsegment
  rw [List.countP_nil, Nat.zero_add] at hcount
  generalize resolveSegments [] (citationSegments citation) = resolved at hparse hcount
  rw [hparse]
  split
  next => rfl
  next hlength =>
    rw [not_not] at hlength
    obtain ⟨first, second, third, rfl⟩ := List.length_eq_three.mp hlength
    rw [Option.eq_none_iff_forall_ne_some]
    intro read hread
    simp only [List.getD_cons_zero, List.getD_cons_succ, Option.bind_eq_some_iff] at hread
    obtain ⟨environmentId, henvironment, threadId, hthread, messageId, hmessage, hread⟩ := hread
    -- an empty segment is an empty id, which the schema does not accept
    have hids := ne_nil_of_decodeCitation (Option.isSome_of_eq_some hread)
    have hne : ∀ {segment id : CodeUnits}, decodeURIComponent segment = some id → id ≠ [] →
        segment ≠ [] := by
      rintro segment id hdecode hid rfl
      exact hid (Option.some.inj hdecode).symm
    have hall : [first, second, third].countP (· ≠ []) = 3 := by
      refine List.countP_eq_length.mpr fun segment hsegment ↦ decide_eq_true ?_
      simp only [List.mem_cons, List.not_mem_nil, or_false] at hsegment
      rcases hsegment with rfl | rfl | rfl
      · exact hne henvironment hids.1
      · exact hne hthread hids.2.1
      · exact hne hmessage hids.2.2
    omega

/-- **A citation comes back exactly if its ids are plain.** -/
theorem parse_format_iff {newUrl : CodeUnits → Option Url} (hurl : ReadsCitationUrls newUrl)
    (h : citation.WellFormed) (haccepts : citation.accepts = true) :
    parseAssistantCitationHref newUrl (citationHref citation) = some citation ↔
      citation.HasPlainIds := by
  have haccepted := AssistantCitation.accepted_of_accepts haccepts
  by_cases hdot : ∀ segment ∈ citationSegments citation, isDotSegment segment = false
  · have hparse := parse_citationHref hurl h haccepted (resolveSegments_of_not_dot hdot [])
    have hids := (isDotSegment_citationSegments h).mp hdot
    have hlength : (citationSegments citation).length = 3 := rfl
    rw [hparse, List.nil_append, if_neg (not_not.mpr hlength)]
    simp only [citationSegments, List.getD_cons_zero, List.getD_cons_succ,
      decodeURIComponent_part h.environmentId, decodeURIComponent_part h.threadId,
      decodeURIComponent_part h.messageId, Option.bind_some]
    refine (decodeCitation_eq_some_iff haccepts).trans ?_
    exact ⟨fun htrim id hid ↦ ⟨htrim id hid, hids id hid⟩, fun hplain id hid ↦ (hplain id hid).1⟩
  · rw [parse_citationHref_of_dot hurl h haccepted hdot]
    refine iff_of_false (Option.some_ne_none citation).symm fun hplain ↦ hdot ?_
    exact (isDotSegment_citationSegments h).mpr fun id hid ↦ (hplain id hid).2

end Awen.Citations
