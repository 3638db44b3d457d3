import Awen.Shared.PlainRuntime
import Awen.Shared.VersionTexts

/-!
# Version strings in their order

What the comparison makes of version strings. It is the precedence of what is read of them
(`compareSemverVersions_text`), so it is the precedence of the versions where reading them keeps
their order.
-/

namespace Awen

/-! ## The comparison -/

/-- Two infinite numbers meet before the identifiers are told apart: their difference is no
number. -/
def MeetInfinite (compareText : String → String → Ordering) :
    List (PrereleaseIdentifier (WithTop ℕ)) → List (PrereleaseIdentifier (WithTop ℕ)) → Prop
  | a :: as, b :: bs =>
    (a = .numeric ⊤ ∧ b = .numeric ⊤) ∨
      (PrereleaseIdentifier.compare compareText a b = .eq ∧ MeetInfinite compareText as bs)
  | _, _ => False

instance decidableMeetInfinite (compareText : String → String → Ordering) :
    ∀ as bs, Decidable (MeetInfinite compareText as bs)
  | [], _ => .isFalse id
  | _ :: _, [] => .isFalse id
  | _ :: as, _ :: bs =>
    have := decidableMeetInfinite compareText as bs
    inferInstanceAs (Decidable (_ ∨ _))

theorem meetInfinite_cons {compareText : String → String → Ordering}
    {a b : PrereleaseIdentifier (WithTop ℕ)} {as bs : List (PrereleaseIdentifier (WithTop ℕ))} :
    MeetInfinite compareText (a :: as) (b :: bs) ↔
      (a = .numeric ⊤ ∧ b = .numeric ⊤) ∨
        (PrereleaseIdentifier.compare compareText a b = .eq ∧ MeetInfinite compareText as bs) :=
  Iff.rfl

variable (js : JsRuntime)

theorem comparePrereleaseIdentifier_eq (left right : List Char) :
    comparePrereleaseIdentifier js left right =
      if identifierOf parseDigits left = .numeric ⊤ ∧ identifierOf parseDigits right = .numeric ⊤
      then none
      else some (PrereleaseIdentifier.compare js.localeCompare (identifierOf parseDigits left)
        (identifierOf parseDigits right)) := by
  rw [comparePrereleaseIdentifier, identifierOf, identifierOf]
  by_cases hleft : isNumberSegment left = true
  · by_cases hright : isNumberSegment right = true
    · simp [hleft, hright, differenceSign, PrereleaseIdentifier.compare]
    · simp [hleft, hright, PrereleaseIdentifier.compare]
  · by_cases hright : isNumberSegment right = true
    · simp [hleft, hright, PrereleaseIdentifier.compare]
    · simp [hleft, hright, PrereleaseIdentifier.compare]

/-- **The loop compares identifier by identifier.** -/
theorem compareIdentifiers_eq (lefts rights : List (List Char)) :
    compareIdentifiers js lefts rights =
      if MeetInfinite js.localeCompare (lefts.map (identifierOf parseDigits))
        (rights.map (identifierOf parseDigits)) then none
      else some (List.compareLex (PrereleaseIdentifier.compare js.localeCompare)
        (lefts.map (identifierOf parseDigits)) (rights.map (identifierOf parseDigits))) := by
  induction lefts generalizing rights with
  | nil => cases rights <;> rfl
  | cons left lefts ih =>
    cases rights with
    | nil => rfl
    | cons right rights =>
      rw [compareIdentifiers, comparePrereleaseIdentifier_eq, List.map_cons, List.map_cons,
        List.compareLex_cons_cons, ih]
      by_cases htop : identifierOf parseDigits left = .numeric ⊤ ∧
          identifierOf parseDigits right = .numeric ⊤
      · rw [if_pos htop, if_pos (meetInfinite_cons.mpr (.inl htop))]
      · rw [if_neg htop]
        cases hcompare : PrereleaseIdentifier.compare js.localeCompare
          (identifierOf parseDigits left) (identifierOf parseDigits right) with
        | eq => simp [meetInfinite_cons, htop, hcompare]
        | lt => simp [meetInfinite_cons, htop, hcompare]
        | gt => simp [meetInfinite_cons, htop, hcompare]

theorem compare_coe (a b : ℕ) : compare (a : WithTop ℕ) (b : WithTop ℕ) = compare a b := by
  rcases lt_trichotomy a b with h | rfl | h
  · exact (compare_lt_iff_lt.mpr (WithTop.coe_lt_coe.mpr h)).trans (compare_lt_iff_lt.mpr h).symm
  · exact (compare_eq_iff_eq.mpr rfl).trans (compare_eq_iff_eq.mpr rfl).symm
  · exact (compare_gt_iff_gt.mpr (WithTop.coe_lt_coe.mpr h)).trans (compare_gt_iff_gt.mpr h).symm

/-- The version that was parsed. -/
def ParsedSemver.semver (parsed : ParsedSemver) : Semver (WithTop ℕ) where
  major := parsed.major
  minor := parsed.minor
  patch := parsed.patch
  prerelease := parsed.prerelease.map (identifierOf parseDigits)

theorem compareParsed_eq (left right : ParsedSemver) :
    compareParsed js left right =
      if Semver.compareCore left.semver right.semver = .eq ∧
        MeetInfinite js.localeCompare left.semver.prerelease right.semver.prerelease then none
      else some (Semver.precedence js.localeCompare left.semver right.semver) := by
  have hcore : Semver.compareCore left.semver right.semver =
      ((compare left.major right.major).then (compare left.minor right.minor)).then
        (compare left.patch right.patch) := by
    rw [Semver.compareCore, ParsedSemver.semver, ParsedSemver.semver, compare_coe, compare_coe,
      compare_coe]
  rw [Semver.precedence, hcore, compareParsed]
  by_cases hmajor : left.major = right.major
  · rw [if_neg (not_not_intro hmajor), compare_eq_iff_eq.mpr hmajor]
    by_cases hminor : left.minor = right.minor
    · rw [if_neg (not_not_intro hminor), compare_eq_iff_eq.mpr hminor]
      by_cases hpatch : left.patch = right.patch
      · rw [if_neg (not_not_intro hpatch), compare_eq_iff_eq.mpr hpatch, compareIdentifiers_eq,
          ParsedSemver.semver, ParsedSemver.semver]
        cases left.prerelease with
        | nil => cases right.prerelease <;> simp [MeetInfinite]
        | cons => cases right.prerelease <;> simp [MeetInfinite]
      · have hne : compare left.patch right.patch ≠ .eq := fun h ↦
          hpatch (compare_eq_iff_eq.mp h)
        cases h : compare left.patch right.patch <;> simp_all
    · have hne : compare left.minor right.minor ≠ .eq := fun h ↦ hminor (compare_eq_iff_eq.mp h)
      cases h : compare left.minor right.minor <;> simp_all
  · have hne : compare left.major right.major ≠ .eq := fun h ↦ hmajor (compare_eq_iff_eq.mp h)
    cases h : compare left.major right.major <;> simp_all

namespace VersionText

variable (a b : VersionText)

/-- Two infinite numbers meet before the versions are told apart. -/
def MeetsInfinite : Prop :=
  Semver.compareCore a.read b.read = .eq ∧
    MeetInfinite js.localeCompare a.read.prerelease b.read.prerelease

instance : Decidable (a.MeetsInfinite js b) := inferInstanceAs (Decidable (_ ∧ _))

/-- Of a version in range all is read. -/
theorem parseSemver_text_of_inRange {version : VersionText} (h : version.InRange) :
    ∃ parsed, parseSemver version.text = some parsed ∧ parsed.semver = version.read := by
  obtain ⟨hmajor, hminor, hpatch⟩ := h
  obtain ⟨major, hmajor⟩ := WithTop.ne_top_iff_exists.mp hmajor
  obtain ⟨minor, hminor⟩ := WithTop.ne_top_iff_exists.mp hminor
  obtain ⟨patch, hpatch⟩ := WithTop.ne_top_iff_exists.mp hpatch
  refine ⟨⟨major, minor, patch, cutPrerelease version.identifiers⟩, ?_, ?_⟩
  · rw [parseSemver_text, ← hmajor, ← hminor, ← hpatch]
  · exact (Semver.mk.injEq ..).mpr ⟨hmajor, hminor, hpatch, rfl⟩

theorem parseSemver_text_of_not_inRange {version : VersionText} (h : ¬version.InRange) :
    parseSemver version.text = none := by
  rw [parseSemver_text]
  split
  next major minor patch hmajor hminor hpatch =>
    refine absurd ⟨?_, ?_, ?_⟩ h
    · exact hmajor ▸ WithTop.coe_ne_top
    · exact hminor ▸ WithTop.coe_ne_top
    · exact hpatch ▸ WithTop.coe_ne_top
  next => rfl

/-- **The comparison is the precedence of what is read**, where the three numbers of both versions
are in range. -/
theorem compareSemverVersions_text (ha : a.InRange) (hb : b.InRange) :
    compareSemverVersions js a.text b.text =
      if a.MeetsInfinite js b then none
      else some (Semver.precedence js.localeCompare a.read b.read) := by
  obtain ⟨left, hleft, hreada⟩ := parseSemver_text_of_inRange ha
  obtain ⟨right, hright, hreadb⟩ := parseSemver_text_of_inRange hb
  rw [compareSemverVersions, hleft, hright]
  simp only [compareParsed_eq, hreada, hreadb]
  rfl

/-- Else the strings are compared. -/
theorem compareSemverVersions_text_of_not_inRange (h : ¬(a.InRange ∧ b.InRange)) :
    compareSemverVersions js a.text b.text =
      some (js.localeCompare (String.ofList a.text) (String.ofList b.text)) := by
  rw [compareSemverVersions]
  rcases not_and_or.mp h with h | h
  · rw [parseSemver_text_of_not_inRange h]
  · rw [parseSemver_text_of_not_inRange h]
    cases parseSemver a.text <;> rfl

end VersionText

/-! ## Ranges -/

/-- The comparison that an operator stands for. -/
def SemverOperator.accepts : SemverOperator → Ordering → Bool
  | .ge => Ordering.isGE
  | .gt => Ordering.isGT
  | .le => Ordering.isLE
  | .lt => Ordering.isLT
  | .eq => Ordering.isEq
  | .caret => fun _ ↦ false

def SemverOperator.text : SemverOperator → List Char
  | .caret => ['^']
  | .ge => ['>', '=']
  | .gt => ['>']
  | .le => ['<', '=']
  | .lt => ['<']
  | .eq => ['=']

namespace VersionText

variable (a b : VersionText)

theorem text_of_prerelease_eq_nil {version : VersionText} (h : version.prerelease = []) :
    version.text = version.leading ++ ['.'].intercalate version.segments := by
  rw [text, if_pos h, List.append_nil]
  rfl

/-- What is written behind the major version. -/
def restText (version : VersionText) : List Char :=
  match version.rest with
  | none => []
  | some (minor, none) => '.' :: minor.text
  | some (minor, some patch) => '.' :: (minor.text ++ '.' :: patch.text)

theorem intercalate_segments (version : VersionText) :
    ['.'].intercalate version.segments = version.majorDigits.text ++ version.restText := by
  rw [segments, restText]
  rcases version.rest with _ | ⟨minor, _ | patch⟩
  · rw [List.intercalate_singleton, List.append_nil]
  · simp [List.intercalate_cons_cons]
  · simp [List.intercalate_cons_cons]

theorem matchDigits_append (digits : Digits) (rest : List Char)
    (hrest : rest.takeWhile Char.isDigit = []) :
    matchDigits (digits.text ++ rest) = some (digits.text, rest) := by
  have htake : (digits.text ++ rest).takeWhile Char.isDigit = digits.text := by
    rw [List.takeWhile_append_of_pos digits.isDigit, hrest, List.append_nil]
  have hdrop : (digits.text ++ rest).dropWhile Char.isDigit = rest := by
    rw [List.dropWhile_append_of_pos digits.isDigit]
    have := List.takeWhile_append_dropWhile (p := Char.isDigit) (l := rest)
    rwa [hrest, List.nil_append] at this
  rw [matchDigits, htake, hdrop, if_neg digits.ne_nil]

theorem matchDotDigits_append (digits : Digits) (rest : List Char)
    (hrest : rest.takeWhile Char.isDigit = []) :
    matchDotDigits ('.' :: (digits.text ++ rest)) = (some digits.text, rest) := by
  rw [matchDotDigits, matchDigits_append digits rest hrest]

/-- The numbers of a version are matched. -/
theorem matchNumbers_segments (version : VersionText) :
    matchNumbers (['.'].intercalate version.segments) =
      some ((version.read.major, version.read.minor, version.read.patch), []) := by
  rw [intercalate_segments, read, minorDigits, patchDigits, restText, matchNumbers]
  rcases version.rest with _ | ⟨minor, _ | patch⟩
  · rw [matchDigits_append _ _ rfl]
    rfl
  · have hminor := matchDotDigits_append minor [] rfl
    rw [List.append_nil] at hminor
    rw [matchDigits_append _ _ rfl]
    simp only [Option.bind_eq_bind, Option.bind_some, hminor]
    rfl
  · have hpatch := matchDotDigits_append patch [] rfl
    rw [List.append_nil] at hpatch
    rw [matchDigits_append _ _ rfl]
    simp only [Option.bind_eq_bind, Option.bind_some,
      matchDotDigits_append minor ('.' :: patch.text) rfl, hpatch]
    rfl

theorem matchNumbers_text {version : VersionText} (h : version.prerelease = []) :
    matchNumbers (dropLeadingV version.text) =
      some ((version.read.major, version.read.minor, version.read.patch), []) := by
  rw [text_of_prerelease_eq_nil h, intercalate_segments, dropLeadingV_leading,
    ← intercalate_segments, matchNumbers_segments]

theorem exists_text_eq_cons (version : VersionText) :
    ∃ c rest, version.text = c :: rest ∧ c ≠ '=' := by
  have hne : version.text ≠ [] := by
    rw [text, mainText, intercalate_segments]
    simp [version.majorDigits.ne_nil]
  obtain ⟨c, rest, h⟩ := List.exists_cons_of_ne_nil hne
  refine ⟨c, rest, h, ?_⟩
  rintro rfl
  exact absurd (version.isVersionChar_of_mem_text (h ▸ List.mem_cons_self)) (by decide)

theorem matchOperator_text (version : VersionText) (operator : SemverOperator) :
    matchOperator (operator.text ++ version.text) = (operator, version.text) := by
  obtain ⟨c, rest, htext, hc⟩ := version.exists_text_eq_cons
  rw [htext]
  cases operator with
  | caret => rfl
  | ge => rfl
  | le => rfl
  | eq => rfl
  | gt => exact matchOperator.eq_3 _ fun text h ↦ hc (List.cons.inj h).1
  | lt => exact matchOperator.eq_5 _ fun text h ↦ hc (List.cons.inj h).1

theorem splitOnBars_of_not_mem {text : List Char} (h : '|' ∉ text) : splitOnBars text = [text] := by
  induction text with
  | nil => rfl
  | cons c text ih =>
    rw [List.mem_cons, not_or] at h
    rw [splitOnBars, ih h.2]
    · rfl
    · rintro rest rfl
      exact absurd rfl h.1

/-- **The range checker compares the three numbers.** -/
theorem satisfiesSemverRange_text (ha : a.prerelease = []) (hb : b.prerelease = [])
    {operator : SemverOperator} (hoperator : operator ≠ .caret) :
    satisfiesSemverRange a.text (operator.text ++ b.text) =
      operator.accepts (Semver.compareCore a.read b.read) := by
  have hoperators : ∀ c ∈ operator.text, isWhiteSpace c = false ∧ c ≠ '|' := by
    cases operator <;> decide
  have hchars : ∀ c ∈ operator.text ++ b.text, isWhiteSpace c = false ∧ c ≠ '|' := by
    intro c hc
    rcases List.mem_append.mp hc with hc | hc
    · exact hoperators c hc
    · have hversion := b.isVersionChar_of_mem_text hc
      refine ⟨isWhiteSpace_of_isVersionChar hversion, ?_⟩
      rintro rfl
      exact absurd hversion (by decide)
  have hspace : ∀ c ∈ operator.text ++ b.text, isWhiteSpace c = false := fun c hc ↦ (hchars c hc).1
  have hne : operator.text ++ b.text ≠ [] := by
    obtain ⟨c, rest, htext, -⟩ := b.exists_text_eq_cons
    rw [htext]
    exact List.append_ne_nil_of_right_ne_nil _ (List.cons_ne_nil _ _)
  have hcomparators : groupComparators (operator.text ++ b.text) = [operator.text ++ b.text] := by
    rw [groupComparators, trimChars_of_isWhiteSpace hspace, List.splitOnP_eq_singleton hspace,
      List.filter_cons_of_pos (by exact decide_eq_true hne), List.filter_nil]
  have hcomparator : matchComparator (operator.text ++ b.text) =
      some (operator, b.read.major, b.read.minor, b.read.patch) := by
    have hdrop := dropWhile_isWhiteSpace fun c hc ↦
      isWhiteSpace_of_isVersionChar (b.isVersionChar_of_mem_text hc)
    simp only [matchComparator, matchOperator_text, hdrop, matchNumbers_text hb]
  rw [satisfiesSemverRange, trimChars_eq_self fun c ↦ a.isVersionChar_of_mem_text,
    matchNumbers_text ha]
  simp only [endsAfterPrerelease, if_true, splitOnBars_of_not_mem fun h ↦ (hchars _ h).2 rfl,
    List.any_cons, List.any_nil, Bool.or_false, hcomparators, List.length_singleton, List.all_cons,
    List.all_nil, Bool.and_true, trimChars_of_isWhiteSpace hspace, hcomparator]
  cases operator with
  | caret => exact absurd rfl hoperator
  | ge => rfl
  | gt => rfl
  | le => rfl
  | lt => rfl
  | eq => rfl

end VersionText

/-! ## Comparing as semantic versions -/

/-- **Comparing version strings is comparing the versions they write**, on a set of version strings:
the sign is the precedence, which makes the comparison antisymmetric and transitive and zero only
for versions of equal precedence, and the range checker agrees with it. -/
structure ComparesAsSemver (versions : Set VersionText) : Prop where
  sign : ∀ a ∈ versions, ∀ b ∈ versions, compareSemverVersions js a.text b.text =
    some (Semver.precedence js.localeCompare a.semver b.semver)
  antisymm : ∀ a ∈ versions, ∀ b ∈ versions, compareSemverVersions js b.text a.text =
    (compareSemverVersions js a.text b.text).map Ordering.swap
  trans : ∀ a ∈ versions, ∀ b ∈ versions, ∀ c ∈ versions,
    ∀ o ∈ compareSemverVersions js a.text b.text, ∀ o' ∈ compareSemverVersions js b.text c.text,
      o.isLE = true → o'.isLE = true →
        ∃ o'' ∈ compareSemverVersions js a.text c.text, o''.isLE = true
  zero : ∀ a ∈ versions, ∀ b ∈ versions, compareSemverVersions js a.text b.text = some .eq →
    Semver.precedence js.localeCompare a.semver b.semver = .eq
  range : ∀ a ∈ versions, ∀ b ∈ versions, a.prerelease = [] → b.prerelease = [] →
    ∀ operator, operator ≠ SemverOperator.caret →
      (satisfiesSemverRange a.text (operator.text ++ b.text) = true ↔
        ∃ o ∈ compareSemverVersions js a.text b.text, operator.accepts o = true)

/-- **Reading the two versions keeps their order**: rounding their numbers to doubles and cutting
their prereleases at the first hyphen does not change their precedence, and no two infinite numbers
meet. Where one of the three numbers of a version is infinite itself, the order of the strings has
to be that of the versions (and of their rounded numbers, if there is no prerelease). -/
def KeepsOrder (a b : VersionText) : Prop :=
  if a.InRange ∧ b.InRange then
    Semver.precedence js.localeCompare a.read b.read =
      Semver.precedence js.localeCompare a.semver b.semver ∧ ¬a.MeetsInfinite js b
  else
    js.localeCompare (String.ofList a.text) (String.ofList b.text) =
      Semver.precedence js.localeCompare a.semver b.semver ∧
    (a.prerelease = [] → b.prerelease = [] →
      js.localeCompare (String.ofList a.text) (String.ofList b.text) =
        Semver.compareCore a.read b.read)

variable {js}

theorem compareSemverVersions_eq_iff {a b : VersionText} :
    compareSemverVersions js a.text b.text =
        some (Semver.precedence js.localeCompare a.semver b.semver) ↔
      if a.InRange ∧ b.InRange then
        Semver.precedence js.localeCompare a.read b.read =
          Semver.precedence js.localeCompare a.semver b.semver ∧ ¬a.MeetsInfinite js b
      else js.localeCompare (String.ofList a.text) (String.ofList b.text) =
        Semver.precedence js.localeCompare a.semver b.semver := by
  split
  next h =>
    rw [a.compareSemverVersions_text js b h.1 h.2]
    by_cases hmeet : a.MeetsInfinite js b
    · simp [hmeet]
    · simp [hmeet]
  next h => rw [a.compareSemverVersions_text_of_not_inRange js b h, Option.some.injEq]

/-- Operators tell orders apart. -/
theorem eq_of_accepts_iff {o o' : Ordering}
    (h : ∀ operator, operator ≠ SemverOperator.caret →
      (operator.accepts o = true ↔ operator.accepts o' = true)) : o = o' := by
  have hlt := h .lt (by decide)
  have hgt := h .gt (by decide)
  revert hlt hgt
  cases o <;> cases o' <;> decide

theorem prerelease_read_eq_nil {a : VersionText} (ha : a.prerelease = []) :
    a.read.prerelease = [] := by
  rw [VersionText.read, VersionText.identifiers, ha]
  rfl

/-- Versions without prereleases are compared by their three numbers. -/
theorem compareSemverVersions_of_prerelease_eq_nil {a b : VersionText} (ha : a.prerelease = [])
    (hb : b.prerelease = []) : compareSemverVersions js a.text b.text =
      some (if a.InRange ∧ b.InRange then Semver.compareCore a.read b.read
        else js.localeCompare (String.ofList a.text) (String.ofList b.text)) := by
  split
  next h =>
    have hmeet : ¬a.MeetsInfinite js b := by
      rw [VersionText.MeetsInfinite, prerelease_read_eq_nil ha]
      exact fun h ↦ h.2
    rw [a.compareSemverVersions_text js b h.1 h.2, if_neg hmeet, Semver.precedence,
      prerelease_read_eq_nil ha, prerelease_read_eq_nil hb, comparePrereleases_nil_nil,
      Ordering.then_eq]
  next h => exact a.compareSemverVersions_text_of_not_inRange js b h

/-- **The range checker agrees with the comparison** unless strings are compared in another order
than their numbers. -/
theorem range_agrees_iff {a b : VersionText} (ha : a.prerelease = []) (hb : b.prerelease = []) :
    (∀ operator, operator ≠ SemverOperator.caret →
      (satisfiesSemverRange a.text (operator.text ++ b.text) = true ↔
        ∃ o ∈ compareSemverVersions js a.text b.text, operator.accepts o = true)) ↔
      (¬(a.InRange ∧ b.InRange) →
        js.localeCompare (String.ofList a.text) (String.ofList b.text) =
          Semver.compareCore a.read b.read) := by
  rw [compareSemverVersions_of_prerelease_eq_nil ha hb]
  simp only [Option.mem_def, Option.some.injEq, exists_eq_left']
  constructor
  · intro h hrange
    refine (eq_of_accepts_iff fun operator hoperator ↦ ?_).symm
    rw [← a.satisfiesSemverRange_text b ha hb hoperator, h operator hoperator, if_neg hrange]
  · intro h operator hoperator
    rw [a.satisfiesSemverRange_text b ha hb hoperator]
    split
    next => exact Iff.rfl
    next hrange => rw [h hrange]

/-- **When version strings are compared as semantic versions**: exactly when reading any two of them
keeps their order. -/
theorem comparesAsSemver_iff (versions : Set VersionText) :
    ComparesAsSemver js versions ↔ ∀ a ∈ versions, ∀ b ∈ versions, KeepsOrder js a b := by
  constructor
  · intro h a ha b hb
    have hsign := compareSemverVersions_eq_iff.mp (h.sign a ha b hb)
    rw [KeepsOrder]
    split
    next hrange => rwa [if_pos hrange] at hsign
    next hrange =>
      rw [if_neg hrange] at hsign
      exact ⟨hsign, fun hnoa hnob ↦
        (range_agrees_iff hnoa hnob).mp (h.range a ha b hb hnoa hnob) hrange⟩
  · intro h
    have hsign : ∀ a ∈ versions, ∀ b ∈ versions, compareSemverVersions js a.text b.text =
        some (Semver.precedence js.localeCompare a.semver b.semver) := by
      intro a ha b hb
      have hkeeps := h a ha b hb
      rw [KeepsOrder] at hkeeps
      rw [compareSemverVersions_eq_iff]
      split
      next hrange => rwa [if_pos hrange] at hkeeps
      next hrange =>
        rw [if_neg hrange] at hkeeps
        exact hkeeps.1
    constructor
    case sign => exact hsign
    case antisymm =>
      intro a ha b hb
      rw [hsign a ha b hb, hsign b hb a ha, Option.map_some]
      exact congrArg some Std.OrientedCmp.eq_swap
    case trans =>
      intro a ha b hb c hc o ho o' ho' hle hle'
      rw [hsign a ha b hb, Option.mem_some_iff] at ho
      rw [hsign b hb c hc, Option.mem_some_iff] at ho'
      subst ho ho'
      exact ⟨_, hsign a ha c hc, Std.TransCmp.isLE_trans hle hle'⟩
    case zero =>
      intro a ha b hb hzero
      rw [hsign a ha b hb] at hzero
      exact Option.some.inj hzero
    case range =>
      intro a ha b hb hnoa hnob
      refine (range_agrees_iff hnoa hnob).mpr fun hrange ↦ ?_
      have hkeeps := h a ha b hb
      rw [KeepsOrder, if_neg hrange] at hkeeps
      exact hkeeps.2 hnoa hnob

/-! ## Plain versions -/

namespace VersionText.IsPlain

variable {a b : VersionText}

end VersionText.IsPlain

/-! ## Versions with hyphens in their prereleases -/

/-- `1.0.0-alpha-1` and `1.0.0-alpha-2`. -/
def hyphenated (number : Char) (h : isIdentifierChar number = true) : VersionText where
  leadingV := false
  majorDigits := ⟨['1'], by decide, by decide⟩
  rest := some (zeroDigits, some zeroDigits)
  prerelease := [{
    text := "alpha-".toList ++ [number]
    ne_nil := by simp
    isIdentifierChar := by
      intro c hc
      rcases List.mem_append.mp hc with hc | hc
      · exact (by decide : ∀ c ∈ "alpha-".toList, isIdentifierChar c = true) c hc
      · rwa [List.mem_singleton.mp hc] }]

/-- **Prereleases are not compared behind a hyphen.** -/
theorem not_comparesAsSemver_hyphenated :
    ¬ComparesAsSemver plainRuntime
      {hyphenated '1' (by decide), hyphenated '2' (by decide)} := by
  intro h
  have hsign := h.sign _ (Set.mem_insert _ _) _ (Set.mem_insert_of_mem _ rfl)
  revert hsign
  decide +kernel

end Awen
