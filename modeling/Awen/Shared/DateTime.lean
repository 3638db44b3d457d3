import Awen.Shared.JsRuntime

/-!
# Comparing date-times

`compareDateTimeStrings` orders stored date-times by absolute time. Only a zoned ISO 8601 text of a
date that exists counts as a time; every other text sorts before all times, by its characters.
-/

namespace Awen

/-- The text after a given prefix. -/
def skip? (text : List Char) (cs : List Char) : Option (List Char) :=
  if text <+: cs then some (cs.drop text.length) else none

/-- The number of the first `n` characters, which must be digits, and the text after them. -/
def digits? (n : ℕ) (cs : List Char) : Option (ℕ × List Char) :=
  if (cs.take n).length = n ∧ (cs.take n).all Char.isDigit then
    some ((cs.take n).foldl (fun k c ↦ 10 * k + (c.toNat - '0'.toNat)) 0, cs.drop n)
  else none

/-- Two digits of a number in a range. -/
def twoDigits? (least most : ℕ) (cs : List Char) : Option (ℕ × List Char) :=
  (digits? 2 cs).filter fun r ↦ least ≤ r.1 ∧ r.1 ≤ most

/-- `(?:\.\d+)?` with the digits that satisfy `p`. -/
def skipFraction (p : Char → Bool) : List Char → List Char
  | '.' :: c :: cs => if p c then cs.dropWhile p else '.' :: c :: cs
  | cs => cs

/-- The year `\d{4}` or `[+-]\d{6}`. -/
def year? : List Char → Option (ℤ × List Char)
  | '+' :: cs => (digits? 6 cs).map fun r ↦ (r.1, r.2)
  | '-' :: cs => (digits? 6 cs).map fun r ↦ (-r.1, r.2)
  | cs => (digits? 4 cs).map fun r ↦ (r.1, r.2)

/-- The time of day, with or without seconds; the text after it. -/
def skipTime? (cs : List Char) : Option (List Char) := do
  let (hour, cs) ← twoDigits? 0 24 cs
  let cs ← skip? [':'] cs
  let (_, cs) ← twoDigits? 0 (if hour = 24 then 0 else 59) cs
  match skip? [':'] cs with
  | none => some cs
  | some cs => do
    let (_, cs) ← twoDigits? 0 (if hour = 24 then 0 else 59) cs
    some (skipFraction (if hour = 24 then (· == '0') else Char.isDigit) cs)

/-- Whether a text is the zone `Z` or `±hh:mm`. -/
def isZone : List Char → Bool
  | ['Z'] => true
  | sign :: cs => (sign == '+' || sign == '-') &&
    (do
      let (_, cs) ← twoDigits? 0 23 cs
      let cs ← skip? [':'] cs
      let (_, cs) ← twoDigits? 0 59 cs
      some cs.isEmpty).getD false
  | [] => false

/-- The date of a zoned ISO date-time; `none` where `isZonedIsoDateTime` is false. -/
def zonedIsoDate? (value : String) : Option (ℤ × ℕ × ℕ) := do
  let (year, cs) ← year? value.toList
  let cs ← skip? ['-'] cs
  let (month, cs) ← twoDigits? 1 12 cs
  let cs ← skip? ['-'] cs
  let (day, cs) ← twoDigits? 1 31 cs
  let cs ← skip? ['T'] cs
  let cs ← skipTime? cs
  if isZone cs then some (year, month, day) else none

/-- The number of days of a month. -/
def daysInMonth (year : ℤ) (month : ℕ) : ℕ :=
  if month = 2 then (if year % 4 = 0 ∧ (year % 100 ≠ 0 ∨ year % 400 = 0) then 29 else 28)
  else if month ∈ [4, 6, 9, 11] then 30 else 31

variable (js : JsRuntime)

/-- The absolute time of a text, `none` (for `NaN`) where it is not a zoned date-time. -/
def parseTimestamp (value : String) : Option ℤ :=
  match zonedIsoDate? value with
  | none => none
  -- a date that the calendar does not have is not left to the engine to normalise
  | some (year, month, day) => if day ≤ daysInMonth year month then js.dateParse value else none

/-- **The order of stored date-times**; malformed values come first, among themselves by text. -/
def compareDateTimeStrings (left right : String) : ℤ :=
  match parseTimestamp js left, parseTimestamp js right with
  | some l, some r => l - r
  | some _, none => 1
  | none, some _ => -1
  | none, none => if stringLt left right then -1 else if stringLt right left then 1 else 0

end Awen
