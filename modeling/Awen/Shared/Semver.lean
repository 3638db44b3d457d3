import Mathlib
import Awen.Library.SemverPrecedence
import Awen.Shared.JsRuntime

/-!
# Comparing versions

`compareSemverVersions` orders two version strings: it reads both with `parseSemver`, behind
`normalizeSemverVersion`, and falls back to comparing the strings where one of them is no version.
`satisfiesSemverRange` reads versions by itself and checks them against a range of comparators.

A result of a comparison is its sign, and `none` where it is `NaN`. A string of digits is read as
the nearest double, `⊤` for infinity.
-/

namespace Awen

/-! ## Numbers and texts -/

/-- The order of the numbers, by which they are compared. -/
instance numberOrder : LinearOrder (WithTop ℕ) := WithTop.linearOrder

instance numberOrd : Ord (WithTop ℕ) := numberOrder.toOrd

def digitsValue (digits : List Char) : ℕ :=
  digits.foldl (fun value c ↦ 10 * value + (c.toNat - '0'.toNat)) 0

/-- The double that is nearest to a number, the even one of two. -/
def nearestDouble (value : ℕ) : WithTop ℕ :=
  if value ≤ 2 ^ 53 then value
  else
    let unit := 2 ^ (value.log2 - 52)
    let below := value / unit
    let rest := 2 * (value % unit)
    let rounded := if unit < rest ∨ (rest = unit ∧ below % 2 = 1) then below + 1 else below
    if rounded * unit < 2 ^ 1024 then (rounded * unit : ℕ) else ⊤

/-- `Number.parseInt(digits, 10)` and `Number(digits)`. -/
def parseDigits (digits : List Char) : WithTop ℕ := nearestDouble (digitsValue digits)

/-- `/^\d+$/` -/
def isNumberSegment (segment : List Char) : Bool := segment ≠ [] && segment.all Char.isDigit

def trimChars (text : List Char) : List Char :=
  (text.dropWhile isWhiteSpace).rdropWhile isWhiteSpace

/-- The segments between the dots, without those that are empty. -/
def dotSegments (text : List Char) : List (List Char) :=
  ((text.splitOn '.').map trimChars).filter (· ≠ [])

/-- `.replace(/^v/, "")` -/
def dropLeadingV : List Char → List Char
  | 'v' :: text => text
  | text => text

/-! ## Comparing -/

def normalizeSemverVersion (version : List Char) : List Char :=
  let parts := ((trimChars version).splitOn '-').take 2
  let segments := dotSegments (parts.headD [])
  -- pad shorthand versions up to three segments
  let segments :=
    if segments = [] then [] else segments ++ List.replicate (3 - segments.length) ['0']
  let main := ['.'].intercalate segments
  match parts[1]? with
  | some prerelease => if prerelease ≠ [] then main ++ '-' :: prerelease else main
  | none => main

structure ParsedSemver where
  major : ℕ
  minor : ℕ
  patch : ℕ
  prerelease : List (List Char)
  deriving DecidableEq

def parsePrereleaseSegments (prerelease : Option (List Char)) : List (List Char) :=
  (prerelease.map dotSegments).getD []

def parseSemver (value : List Char) : Option ParsedSemver :=
  let normalized := dropLeadingV (normalizeSemverVersion value)
  let parts := (normalized.splitOn '-').take 2
  match (parts.headD []).splitOn '.' with
  | [majorSegment, minorSegment, patchSegment] =>
    if isNumberSegment majorSegment && isNumberSegment minorSegment &&
        isNumberSegment patchSegment then
      -- an infinite number is no integer
      match parseDigits majorSegment, parseDigits minorSegment, parseDigits patchSegment with
      | some major, some minor, some patch =>
        some { major, minor, patch, prerelease := parsePrereleaseSegments parts[1]? }
      | _, _, _ => none
    else none
  | _ => none

/-- The sign of `a - b`. -/
def differenceSign (a b : WithTop ℕ) : Option Ordering :=
  if a = ⊤ ∧ b = ⊤ then none else some (compare a b)

variable (js : JsRuntime)

def comparePrereleaseIdentifier (left right : List Char) : Option Ordering :=
  if isNumberSegment left && isNumberSegment right then
    differenceSign (parseDigits left) (parseDigits right)
  else if isNumberSegment left then some .lt
  else if isNumberSegment right then some .gt
  else some (js.localeCompare (String.ofList left) (String.ofList right))

/-- The loop over the identifiers of both prereleases. -/
def compareIdentifiers : List (List Char) → List (List Char) → Option Ordering
  | [], [] => some .eq
  | [], _ :: _ => some .lt
  | _ :: _, [] => some .gt
  | left :: lefts, right :: rights =>
    match comparePrereleaseIdentifier js left right with
    | some .eq => compareIdentifiers lefts rights
    | comparison => comparison

def compareParsed (left right : ParsedSemver) : Option Ordering :=
  if left.major ≠ right.major then some (compare left.major right.major)
  else if left.minor ≠ right.minor then some (compare left.minor right.minor)
  else if left.patch ≠ right.patch then some (compare left.patch right.patch)
  else if left.prerelease = [] ∧ right.prerelease = [] then some .eq
  else if left.prerelease = [] then some .gt
  else if right.prerelease = [] then some .lt
  else compareIdentifiers js left.prerelease right.prerelease

/-- **The comparison of two version strings.** -/
def compareSemverVersions (left right : List Char) : Option Ordering :=
  match parseSemver left, parseSemver right with
  | some parsedLeft, some parsedRight => compareParsed js parsedLeft parsedRight
  | _, _ => some (js.localeCompare (String.ofList left) (String.ofList right))

/-! ## Ranges -/

/-- `\d+` -/
def matchDigits (text : List Char) : Option (List Char × List Char) :=
  let digits := text.takeWhile Char.isDigit
  if digits = [] then none else some (digits, text.dropWhile Char.isDigit)

/-- `(?:\.(\d+))?` -/
def matchDotDigits (text : List Char) : Option (List Char) × List Char :=
  match text with
  | '.' :: rest =>
    match matchDigits rest with
    | some (digits, rest) => (some digits, rest)
    | none => (none, text)
  | _ => (none, text)

/-- The three numbers of a version; what is missing is 0. -/
def versionNumbers (major : List Char) (minor patch : Option (List Char)) :
    WithTop ℕ × WithTop ℕ × WithTop ℕ :=
  (parseDigits major, (minor.map parseDigits).getD 0, (patch.map parseDigits).getD 0)

/-- `(\d+)(?:\.(\d+))?(?:\.(\d+))?` and the text behind it. -/
def matchNumbers (text : List Char) : Option ((WithTop ℕ × WithTop ℕ × WithTop ℕ) × List Char) := do
  let (major, text) ← matchDigits text
  let (minor, text) := matchDotDigits text
  let (patch, text) := matchDotDigits text
  return (versionNumbers major minor patch, text)

/-- `[0-9A-Za-z.-]` -/
def isPrereleaseChar (c : Char) : Bool := c.isAlphanum || c == '.' || c == '-'

/-- `(?:-[0-9A-Za-z.-]+)?$` -/
def endsAfterPrerelease : List Char → Bool
  | [] => true
  | '-' :: rest => rest ≠ [] && rest.all isPrereleaseChar
  | _ => false

inductive SemverOperator where
  | caret
  | ge
  | gt
  | le
  | lt
  | eq
  deriving DecidableEq

/-- `(\^|>=|>|<=|<|=)?`, where a missing operator is `=`. -/
def matchOperator : List Char → SemverOperator × List Char
  | '^' :: text => (.caret, text)
  | '>' :: '=' :: text => (.ge, text)
  | '>' :: text => (.gt, text)
  | '<' :: '=' :: text => (.le, text)
  | '<' :: text => (.lt, text)
  | '=' :: text => (.eq, text)
  | text => (.eq, text)

/-- `/^(\^|>=|>|<=|<|=)?\s*v?(\d+(?:\.\d+){0,2})$/` -/
def matchComparator (comparator : List Char) :
    Option (SemverOperator × WithTop ℕ × WithTop ℕ × WithTop ℕ) :=
  let (operator, text) := matchOperator comparator
  match matchNumbers (dropLeadingV (text.dropWhile isWhiteSpace)) with
  | some (target, []) => some (operator, target)
  | _ => none

def compareNumbers (version target : WithTop ℕ × WithTop ℕ × WithTop ℕ) : Ordering :=
  ((compare version.1 target.1).then (compare version.2.1 target.2.1)).then
    (compare version.2.2 target.2.2)

/-- One comparator on a version. -/
def SemverOperator.holds (operator : SemverOperator)
    (version target : WithTop ℕ × WithTop ℕ × WithTop ℕ) : Bool :=
  let compared := compareNumbers version target
  match operator with
  | .caret =>
    if compared = .lt then false
    else if 0 < target.1 then decide (version.1 = target.1)
    else if 0 < target.2.1 then decide (version.1 = 0 ∧ version.2.1 = target.2.1)
    else decide (version.1 = 0 ∧ version.2.1 = 0 ∧ version.2.2 = target.2.2)
  | .ge => compared.isGE
  | .gt => compared.isGT
  | .le => compared.isLE
  | .lt => compared.isLT
  | .eq => compared.isEq

/-- `range.split("||")` -/
def splitOnBars : List Char → List (List Char)
  | [] => [[]]
  | '|' :: '|' :: text => [] :: splitOnBars text
  | c :: text => (splitOnBars text).modifyHead (c :: ·)

/-- `group.trim().split(/\s+/).filter(Boolean)` -/
def groupComparators (group : List Char) : List (List Char) :=
  ((trimChars group).splitOnP isWhiteSpace).filter (· ≠ [])

/-- **A version satisfies a range** if it satisfies all comparators of one of the groups. -/
def satisfiesSemverRange (rawVersion range : List Char) : Bool :=
  match matchNumbers (dropLeadingV (trimChars rawVersion)) with
  | none => false
  | some (version, rest) =>
    if endsAfterPrerelease rest then
      (splitOnBars range).any fun group ↦
        let comparators := groupComparators group
        if comparators.length = 0 then false
        else
          comparators.all fun comparator ↦
            match matchComparator (trimChars comparator) with
            | some (operator, target) => operator.holds version target
            | none => false
    else false

end Awen
