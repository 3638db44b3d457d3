import Awen.Shared.Semver

/-!
# Version strings

Version strings `[v]MAJOR[.MINOR[.PATCH]][-PRERELEASE]`, the semantic versions they write, and what
`parseSemver` reads of them: the numbers rounded to doubles, and the prerelease cut at its first
hyphen (`parseSemver_text`).
-/

namespace Awen

/-! ## Version strings -/

/-- A string of digits. -/
structure Digits where
  text : List Char
  ne_nil : text ≠ []
  isDigit : ∀ c ∈ text, c.isDigit = true

/-- A letter, a digit or a hyphen. -/
def isIdentifierChar (c : Char) : Bool := c.isAlphanum || c == '-'

/-- An identifier of a prerelease, as it is written. -/
structure IdentifierText where
  text : List Char
  ne_nil : text ≠ []
  isIdentifierChar : ∀ c ∈ text, isIdentifierChar c = true

def zeroDigits : Digits := ⟨['0'], by decide, by decide⟩

/-- A version as it is written. -/
structure VersionText where
  leadingV : Bool
  majorDigits : Digits
  /-- What is given of the minor and the patch version. -/
  rest : Option (Digits × Option Digits)
  /-- The identifiers of the prerelease; there are none if there is no prerelease. -/
  prerelease : List IdentifierText

/-- The identifier that is written; `number` reads its digits. -/
def identifierOf {N : Type*} (number : List Char → N) (text : List Char) :
    PrereleaseIdentifier N :=
  if isNumberSegment text then .numeric (number text) else .alphanumeric (String.ofList text)

/-- The identifiers before the first hyphen: the one that it stands in is cut off there, and is
left out if nothing of it is left. -/
def cutPrerelease : List (List Char) → List (List Char)
  | [] => []
  | identifier :: identifiers =>
    if '-' ∈ identifier then
      if identifier.takeWhile (· ≠ '-') = [] then [] else [identifier.takeWhile (· ≠ '-')]
    else identifier :: cutPrerelease identifiers

namespace VersionText

variable (version : VersionText)

def minorDigits : Digits := (version.rest.map Prod.fst).getD zeroDigits

def patchDigits : Digits := (version.rest.bind Prod.snd).getD zeroDigits

/-- The numbers that are written. -/
def segments : List (List Char) :=
  version.majorDigits.text :: match version.rest with
    | none => []
    | some (minor, none) => [minor.text]
    | some (minor, some patch) => [minor.text, patch.text]

/-- The identifiers that are written. -/
def identifiers : List (List Char) := version.prerelease.map (·.text)

def mainText : List Char :=
  (if version.leadingV then ['v'] else []) ++ ['.'].intercalate version.segments

/-- The version string. -/
def text : List Char :=
  version.mainText ++
    if version.prerelease = [] then [] else '-' :: ['.'].intercalate version.identifiers

/-- **The version that is written.** -/
def semver : Semver ℕ where
  major := digitsValue version.majorDigits.text
  minor := digitsValue version.minorDigits.text
  patch := digitsValue version.patchDigits.text
  prerelease := version.identifiers.map (identifierOf digitsValue)

/-- **The version that is read**: numbers are rounded, and the prerelease is cut. -/
def read : Semver (WithTop ℕ) where
  major := parseDigits version.majorDigits.text
  minor := parseDigits version.minorDigits.text
  patch := parseDigits version.patchDigits.text
  prerelease := (cutPrerelease version.identifiers).map (identifierOf parseDigits)

/-- The three numbers are in the range of doubles. -/
def InRange : Prop := version.read.major ≠ ⊤ ∧ version.read.minor ≠ ⊤ ∧ version.read.patch ≠ ⊤

instance : Decidable version.InRange := inferInstanceAs (Decidable (_ ∧ _))

end VersionText

/-! ## Digits and white space -/

theorem le_z_of_isAlphanum {c : Char} (h : c.isAlphanum = true) : c.toNat ≤ 'z'.toNat := by
  simp only [Char.isAlphanum, Char.isAlpha, Char.isUpper, Char.isLower, Char.isDigit,
    Bool.or_eq_true, Bool.and_eq_true, decide_eq_true_eq, UInt32.le_iff_toNat_le, ge_iff_le] at h
  have hz : 'z'.toNat = 122 := rfl
  have hc : c.toNat = c.val.toNat := rfl
  rw [hz, hc]
  rcases h with (⟨-, h⟩ | ⟨-, h⟩) | ⟨-, h⟩
  · exact h.trans (by decide)
  · exact h
  · exact h.trans (by decide)

theorem isWhiteSpace_eq_false_of_isAlphanum {c : Char} (h : c.isAlphanum = true) :
    isWhiteSpace c = false := by
  refine Bool.eq_false_iff.mpr fun hspace ↦ ?_
  rw [isWhiteSpace, Bool.or_eq_true, decide_eq_true_iff, Bool.and_eq_true, decide_eq_true_iff]
    at hspace
  rcases hspace with hspace | ⟨hspace, -⟩
  · revert h
    revert c
    decide
  · have hle : '\u2000'.toNat ≤ c.toNat := hspace
    exact absurd (hle.trans (le_z_of_isAlphanum h)) (by decide)

theorem isAlphanum_of_isDigit {c : Char} (h : c.isDigit = true) : c.isAlphanum = true := by
  rw [Char.isAlphanum, h, Bool.or_true]

/-- No character of a version is white space. -/
def isVersionChar (c : Char) : Bool := c.isAlphanum || c == '.' || c == '-'

theorem isWhiteSpace_of_isVersionChar {c : Char} (h : isVersionChar c = true) :
    isWhiteSpace c = false := by
  rw [isVersionChar, Bool.or_eq_true, Bool.or_eq_true, beq_iff_eq, beq_iff_eq] at h
  rcases h with (h | rfl) | rfl
  · exact isWhiteSpace_eq_false_of_isAlphanum h
  · decide
  · decide

theorem dropWhile_isWhiteSpace {text : List Char} (h : ∀ c ∈ text, isWhiteSpace c = false) :
    text.dropWhile isWhiteSpace = text := by
  cases text with
  | nil => rfl
  | cons c text =>
    exact List.dropWhile_cons_of_neg (by rw [h c List.mem_cons_self]; exact Bool.false_ne_true)

theorem trimChars_of_isWhiteSpace {text : List Char} (h : ∀ c ∈ text, isWhiteSpace c = false) :
    trimChars text = text := by
  rw [trimChars, dropWhile_isWhiteSpace h]
  refine List.rdropWhile_eq_self_iff.mpr fun hne hlast ↦ ?_
  rw [h _ (List.getLast_mem hne)] at hlast
  exact Bool.false_ne_true hlast

theorem trimChars_eq_self {text : List Char} (h : ∀ c ∈ text, isVersionChar c = true) :
    trimChars text = text :=
  trimChars_of_isWhiteSpace fun c hc ↦ isWhiteSpace_of_isVersionChar (h c hc)

/-! ## Segments -/

section

variable {segment text : List Char}

theorem dotSegments_of_not_mem (h : ∀ c ∈ segment, isVersionChar c = true) (hdot : '.' ∉ segment) :
    dotSegments segment = if segment = [] then [] else [segment] := by
  rw [dotSegments, List.splitOn_eq_singleton hdot, List.map_singleton, trimChars_eq_self h]
  split
  next hnil => rw [hnil]; rfl
  next hne => rw [List.filter_cons_of_pos (by exact decide_eq_true hne), List.filter_nil]

theorem dotSegments_append (h : ∀ c ∈ segment, isVersionChar c = true) (hdot : '.' ∉ segment)
    (hne : segment ≠ []) (text : List Char) :
    dotSegments (segment ++ '.' :: text) = segment :: dotSegments text := by
  rw [dotSegments, List.splitOn_append_cons_self_of_not_mem hdot, List.map_cons,
    trimChars_eq_self h, List.filter_cons_of_pos (by exact decide_eq_true hne), dotSegments]

theorem dotSegments_intercalate {segments : List (List Char)}
    (h : ∀ segment ∈ segments, (∀ c ∈ segment, isVersionChar c = true) ∧ '.' ∉ segment ∧
      segment ≠ []) : dotSegments (['.'].intercalate segments) = segments := by
  induction segments with
  | nil => rfl
  | cons segment segments ih =>
    obtain ⟨⟨hchars, hdot, hne⟩, hsegments⟩ := List.forall_mem_cons.mp h
    cases segments with
    | nil => rw [List.intercalate_singleton, dotSegments_of_not_mem hchars hdot, if_neg hne]
    | cons next segments =>
      rw [List.intercalate_cons_cons, List.append_assoc, List.singleton_append,
        dotSegments_append hchars hdot hne, ih hsegments]

end

theorem isVersionChar_of_isIdentifierChar {c : Char} (h : isIdentifierChar c = true) :
    isVersionChar c = true := by
  rw [isIdentifierChar, Bool.or_eq_true] at h
  rw [isVersionChar, Bool.or_assoc, Bool.or_eq_true, Bool.or_eq_true]
  exact h.imp_right .inr

theorem dot_not_mem_identifier (identifier : IdentifierText) : '.' ∉ identifier.text := fun h ↦
  absurd (identifier.isIdentifierChar _ h) (by decide)

theorem takeWhile_append_of_mem {p : Char → Bool} {c : Char} :
    ∀ {front : List Char}, c ∈ front → p c = false → ∀ rest,
      (front ++ rest).takeWhile p = front.takeWhile p
  | d :: front, hmem, hc, rest => by
    rw [List.cons_append, List.takeWhile_cons, List.takeWhile_cons]
    split
    next hd =>
      rcases List.mem_cons.mp hmem with rfl | hmem
      · exact nomatch hc.symm.trans hd
      · rw [takeWhile_append_of_mem hmem hc rest]
    next => rfl

/-- **The prerelease is cut at the first hyphen.** -/
theorem dotSegments_takeWhile_intercalate (identifiers : List IdentifierText) :
    dotSegments ((['.'].intercalate (identifiers.map (·.text))).takeWhile (· ≠ '-')) =
      cutPrerelease (identifiers.map (·.text)) := by
  have hcut : ∀ identifier : IdentifierText,
      (∀ c ∈ identifier.text.takeWhile (· ≠ '-'), isVersionChar c = true) ∧
        '.' ∉ identifier.text.takeWhile (· ≠ '-') := by
    refine fun identifier ↦ ⟨fun c hc ↦ ?_, fun hdot ↦ ?_⟩
    · exact isVersionChar_of_isIdentifierChar
        (identifier.isIdentifierChar c (List.takeWhile_subset _ hc))
    · exact dot_not_mem_identifier identifier (List.takeWhile_subset _ hdot)
  induction identifiers with
  | nil => rfl
  | cons identifier identifiers ih =>
    obtain ⟨hchars, hdot⟩ := hcut identifier
    rw [List.map_cons, cutPrerelease]
    by_cases hhyphen : '-' ∈ identifier.text
    · have htake : (['.'].intercalate (identifier.text :: identifiers.map (·.text))).takeWhile
          (· ≠ '-') = identifier.text.takeWhile (· ≠ '-') := by
        cases identifiers with
        | nil => rw [List.map_nil, List.intercalate_singleton]
        | cons next identifiers =>
          rw [List.map_cons, List.intercalate_cons_cons, List.append_assoc]
          exact takeWhile_append_of_mem hhyphen (by decide) _
      rw [htake, if_pos hhyphen, dotSegments_of_not_mem hchars hdot]
    · have hself : identifier.text.takeWhile (· ≠ '-') = identifier.text :=
        List.takeWhile_eq_self_iff.mpr fun c hc ↦ decide_eq_true fun h ↦ hhyphen (h ▸ hc)
      rw [if_neg hhyphen]
      cases identifiers with
      | nil =>
        rw [List.map_nil, List.intercalate_singleton, dotSegments_of_not_mem hchars hdot, hself,
          if_neg identifier.ne_nil]
        rfl
      | cons next identifiers =>
        rw [List.map_cons, List.intercalate_cons_cons, List.append_assoc, List.singleton_append,
          List.takeWhile_append_of_pos fun c hc ↦ decide_eq_true (by rintro rfl; exact hhyphen hc),
          List.takeWhile_cons_of_pos (by decide), ← List.map_cons,
          dotSegments_append (by rwa [hself] at hchars) (by rwa [hself] at hdot)
            identifier.ne_nil, ih]

/-! ## Reading a version string -/

theorem exists_splitOn_eq (a : Char) (text : List Char) :
    ∃ rest, text.splitOn a = text.takeWhile (· ≠ a) :: rest := by
  induction text with
  | nil => exact ⟨[], rfl⟩
  | cons c text ih =>
    obtain ⟨rest, hrest⟩ := ih
    rw [List.splitOn_cons_eq_if_modifyHead, List.takeWhile_cons]
    by_cases hc : c = a
    · exact ⟨text.splitOn a, by simp [hc]⟩
    · exact ⟨rest, by simp [hc, hrest]⟩

namespace Digits

variable (digits : Digits)

theorem isVersionChar (c : Char) (h : c ∈ digits.text) : isVersionChar c = true := by
  rw [Awen.isVersionChar, isAlphanum_of_isDigit (digits.isDigit c h)]
  rfl

theorem not_mem {c : Char} (hc : c.isDigit = false) : c ∉ digits.text := fun h ↦
  nomatch hc.symm.trans (digits.isDigit c h)

theorem isNumberSegment_text : isNumberSegment digits.text = true := by
  rw [isNumberSegment, Bool.and_eq_true, decide_eq_true_iff, List.all_eq_true]
  exact ⟨digits.ne_nil, digits.isDigit⟩

end Digits

namespace VersionText

variable (version : VersionText)

/-- The `v` before a version. -/
def leading : List Char := if version.leadingV then ['v'] else []

/-- The prerelease before its first hyphen. -/
def cutText : List Char := (['.'].intercalate version.identifiers).takeWhile (· ≠ '-')

/-- The three numbers, with what is missing. -/
def numbersText : List Char :=
  ['.'].intercalate
    [version.majorDigits.text, version.minorDigits.text, version.patchDigits.text]

theorem numbersText_eq : version.numbersText = version.majorDigits.text ++
    ('.' :: version.minorDigits.text ++ '.' :: version.patchDigits.text) := by
  rw [numbersText, List.intercalate_cons_cons, List.intercalate_cons_cons,
    List.intercalate_singleton]
  simp only [List.append_assoc, List.cons_append, List.nil_append]

theorem mainText_eq : version.mainText =
    ['.'].intercalate (version.segments.modifyHead (version.leading ++ ·)) := by
  rw [mainText, ← leading, segments, List.modifyHead_cons]
  match version.rest with
  | none => rw [List.intercalate_singleton, List.intercalate_singleton]
  | some (minor, none) =>
    simp only [List.intercalate_cons_cons, List.append_assoc]
  | some (minor, some patch) =>
    simp only [List.intercalate_cons_cons, List.append_assoc]

theorem mem_leading {c : Char} (h : c ∈ version.leading) : c = 'v' := by
  rw [leading] at h
  split at h
  next => exact List.mem_singleton.mp h
  next => exact absurd h List.not_mem_nil

theorem exists_digits_of_mem_segments {segment : List Char} (h : segment ∈ version.segments) :
    ∃ digits : Digits, segment = digits.text := by
  rw [segments, List.mem_cons] at h
  rcases h with rfl | h
  · exact ⟨_, rfl⟩
  · match hrest : version.rest, h with
    | none, h => exact absurd h List.not_mem_nil
    | some (minor, none), h => exact ⟨minor, List.mem_singleton.mp h⟩
    | some (minor, some patch), h =>
      rcases List.mem_cons.mp h with rfl | h
      · exact ⟨minor, rfl⟩
      · exact ⟨patch, List.mem_singleton.mp h⟩

theorem segment_cases {segment : List Char}
    (h : segment ∈ version.segments.modifyHead (version.leading ++ ·)) :
    (∀ c ∈ segment, Awen.isVersionChar c = true ∧ c ≠ '.' ∧ c ≠ '-') ∧ segment ≠ [] := by
  have hdigits : ∀ digits : Digits, ∀ c ∈ digits.text,
      Awen.isVersionChar c = true ∧ c ≠ '.' ∧ c ≠ '-' := by
    refine fun digits c hc ↦ ⟨digits.isVersionChar c hc, ?_, ?_⟩
    · rintro rfl
      exact digits.not_mem rfl hc
    · rintro rfl
      exact digits.not_mem rfl hc
  rw [segments, List.modifyHead_cons, List.mem_cons] at h
  rcases h with rfl | h
  · refine ⟨fun c hc ↦ ?_, List.append_ne_nil_of_right_ne_nil _ version.majorDigits.ne_nil⟩
    rcases List.mem_append.mp hc with hc | hc
    · rw [version.mem_leading hc]
      decide
    · exact hdigits _ c hc
  · obtain ⟨digits, rfl⟩ := version.exists_digits_of_mem_segments
      (List.mem_cons_of_mem version.majorDigits.text h)
    exact ⟨hdigits digits, digits.ne_nil⟩

theorem mem_intercalate {c separator : Char} :
    ∀ {segments : List (List Char)}, c ∈ [separator].intercalate segments →
      c = separator ∨ ∃ segment ∈ segments, c ∈ segment
  | [], h => absurd h List.not_mem_nil
  | [segment], h => .inr ⟨segment, List.mem_cons_self, by rwa [List.intercalate_singleton] at h⟩
  | segment :: next :: segments, h => by
    rw [List.intercalate_cons_cons, List.append_assoc, List.mem_append, List.singleton_append,
      List.mem_cons] at h
    rcases h with h | rfl | h
    · exact .inr ⟨segment, List.mem_cons_self, h⟩
    · exact .inl rfl
    · exact (mem_intercalate h).imp_right fun ⟨segment, hsegment, hc⟩ ↦
        ⟨segment, List.mem_cons_of_mem _ hsegment, hc⟩

theorem mem_mainText {c : Char} (h : c ∈ version.mainText) :
    Awen.isVersionChar c = true ∧ c ≠ '-' := by
  rw [mainText_eq] at h
  rcases mem_intercalate h with rfl | ⟨segment, hsegment, hc⟩
  · decide
  · have hcases := (version.segment_cases hsegment).1 c hc
    exact ⟨hcases.1, hcases.2.2⟩

theorem isVersionChar_of_mem_text {c : Char} (h : c ∈ version.text) :
    Awen.isVersionChar c = true := by
  rw [text, List.mem_append] at h
  rcases h with h | h
  · exact (version.mem_mainText h).1
  · split at h
    next => exact absurd h List.not_mem_nil
    next =>
      rcases List.mem_cons.mp h with rfl | h
      · decide
      · rcases mem_intercalate h with rfl | ⟨identifier, hidentifier, hc⟩
        · decide
        · obtain ⟨identifier, -, rfl⟩ := List.mem_map.mp hidentifier
          exact isVersionChar_of_isIdentifierChar (identifier.isIdentifierChar c hc)

/-- **The string is split** into its numbers and its prerelease up to the first hyphen. -/
theorem splitOn_text : (version.text.splitOn '-').take 2 =
    version.mainText :: if version.prerelease = [] then [] else [version.cutText] := by
  have hmain : '-' ∉ version.mainText := fun h ↦ (version.mem_mainText h).2 rfl
  rw [text]
  split
  next => rw [List.append_nil, List.splitOn_eq_singleton hmain]; rfl
  next =>
    obtain ⟨rest, hrest⟩ := exists_splitOn_eq '-' (['.'].intercalate version.identifiers)
    rw [List.splitOn_append_cons_self_of_not_mem hmain, hrest]
    rfl

theorem dotSegments_mainText :
    dotSegments version.mainText = version.segments.modifyHead (version.leading ++ ·) := by
  rw [mainText_eq]
  refine dotSegments_intercalate fun segment hsegment ↦ ?_
  obtain ⟨hchars, hne⟩ := version.segment_cases hsegment
  exact ⟨fun c hc ↦ (hchars c hc).1, fun hdot ↦ (hchars _ hdot).2.1 rfl, hne⟩

/-- What is missing is filled up with zeros. -/
theorem padded_segments :
    ['.'].intercalate (version.segments.modifyHead (version.leading ++ ·) ++ List.replicate
      (3 - (version.segments.modifyHead (version.leading ++ ·)).length) ['0']) =
      version.leading ++ version.numbersText := by
  rw [numbersText, minorDigits, patchDigits, segments, List.modifyHead_cons]
  match version.rest with
  | none => simp [List.intercalate_cons_cons, zeroDigits, List.replicate_succ]
  | some (minor, none) => simp [List.intercalate_cons_cons, zeroDigits, List.replicate_succ]
  | some (minor, some patch) => simp [List.intercalate_cons_cons]

theorem normalizeSemverVersion_text : normalizeSemverVersion version.text =
    version.leading ++ version.numbersText ++
      if version.cutText = [] then [] else '-' :: version.cutText := by
  have hne : version.segments.modifyHead (version.leading ++ ·) ≠ [] := by
    rw [segments, List.modifyHead_cons]
    exact List.cons_ne_nil _ _
  rw [normalizeSemverVersion, trimChars_eq_self fun c ↦ version.isVersionChar_of_mem_text,
    splitOn_text]
  simp only [List.headD_cons, dotSegments_mainText, if_neg hne, padded_segments]
  by_cases hprerelease : version.prerelease = []
  · have hcut : version.cutText = [] := by rw [cutText, identifiers, hprerelease]; rfl
    rw [if_pos hprerelease, if_pos hcut, List.append_nil]
    rfl
  · rw [if_neg hprerelease]
    by_cases hcut : version.cutText = []
    · simp [hcut]
    · simp [hcut]

theorem dropLeadingV_leading (digits : Digits) (rest : List Char) :
    dropLeadingV (version.leading ++ (digits.text ++ rest)) = digits.text ++ rest := by
  rw [leading]
  split
  next => rfl
  next =>
    obtain ⟨c, cs, hdigits⟩ := List.exists_cons_of_ne_nil digits.ne_nil
    have hv : c ≠ 'v' := by
      rintro rfl
      exact digits.not_mem rfl (hdigits ▸ List.mem_cons_self)
    rw [List.nil_append, hdigits, List.cons_append]
    exact dropLeadingV.eq_2 _ fun rest h ↦ hv (List.cons.inj h).1

theorem mem_numbers {segment : List Char} (h : segment ∈
    [version.majorDigits.text, version.minorDigits.text, version.patchDigits.text]) :
    ∃ digits : Digits, segment = digits.text := by
  simp only [List.mem_cons, List.not_mem_nil, or_false] at h
  rcases h with rfl | rfl | rfl
  all_goals exact ⟨_, rfl⟩

theorem splitOn_numbersText : version.numbersText.splitOn '.' =
    [version.majorDigits.text, version.minorDigits.text, version.patchDigits.text] := by
  refine List.splitOn_intercalate '.' (fun segment hsegment ↦ ?_) (List.cons_ne_nil _ _)
  obtain ⟨digits, rfl⟩ := version.mem_numbers hsegment
  exact digits.not_mem rfl

theorem hyphen_not_mem_numbersText : '-' ∉ version.numbersText := by
  intro h
  rcases mem_intercalate h with h | ⟨segment, hsegment, hmem⟩
  · exact absurd h (by decide)
  · obtain ⟨digits, rfl⟩ := version.mem_numbers hsegment
    exact digits.not_mem rfl hmem

theorem hyphen_not_mem_cutText : '-' ∉ version.cutText := fun h ↦ by
  rw [cutText] at h
  have hne := List.mem_takeWhile_imp h
  exact absurd hne (by decide)

/-- **What is read of a version string.** -/
theorem parseSemver_text : parseSemver version.text =
    match version.read.major, version.read.minor, version.read.patch with
    | some major, some minor, some patch =>
      some { major, minor, patch, prerelease := cutPrerelease version.identifiers }
    | _, _, _ => none := by
  have hparts : ∃ cut : Option (List Char),
      ((version.numbersText ++ if version.cutText = [] then [] else '-' :: version.cutText).splitOn
        '-').take 2 = version.numbersText :: cut.toList ∧
      parsePrereleaseSegments cut = cutPrerelease version.identifiers := by
    have hcut := dotSegments_takeWhile_intercalate version.prerelease
    by_cases hnil : version.cutText = []
    · refine ⟨none, ?_, ?_⟩
      · rw [if_pos hnil, List.append_nil,
          List.splitOn_eq_singleton version.hyphen_not_mem_numbersText]
        rfl
      · rw [identifiers, ← hcut, ← identifiers, ← cutText, hnil]
        rfl
    · refine ⟨some version.cutText, ?_, hcut⟩
      rw [if_neg hnil, List.splitOn_append_cons_self_of_not_mem version.hyphen_not_mem_numbersText,
        List.splitOn_eq_singleton version.hyphen_not_mem_cutText]
      rfl
  obtain ⟨cut, hparts, hcut⟩ := hparts
  have hcut' : (version.numbersText :: cut.toList)[1]? = cut := by cases cut <;> rfl
  have hdrop : dropLeadingV (normalizeSemverVersion version.text) = version.numbersText ++
      if version.cutText = [] then [] else '-' :: version.cutText := by
    rw [normalizeSemverVersion_text, numbersText_eq, List.append_assoc, List.append_assoc,
      dropLeadingV_leading]
  rw [parseSemver, hdrop, hparts]
  simp only [List.headD_cons, splitOn_numbersText, Digits.isNumberSegment_text, Bool.and_self,
    if_true, hcut', hcut]
  rfl

end VersionText

end Awen
