import Awen.Shared.DateTime

/-!
# A runtime for plain inputs

`plainRuntime` computes what a JavaScript engine does on plain inputs: instants in UTC as
`toISOString` writes them, strings of digits and lower-case letters, ASCII text, and web URLs of a
host and a path. It is what concrete runs of the model are evaluated with.
-/

namespace Awen

/-- The days from 1970-01-01 to a date of the proleptic Gregorian calendar. -/
def civilDays (year month day : ℤ) : ℤ :=
  -- a year of the calculation starts in March, so that the leap day is its last day
  let year := if month ≤ 2 then year - 1 else year
  let era := year / 400
  let yearOfEra := year - era * 400
  let dayOfYear := (153 * ((month + 9) % 12) + 2) / 5 + day - 1
  era * 146097 + yearOfEra * 365 + yearOfEra / 4 - yearOfEra / 100 + dayOfYear - 719468

/-- The milliseconds since 1970 of `YYYY-MM-DDThh:mm:ss.sssZ`. -/
def isoMillis? (value : String) : Option ℤ := do
  let (year, cs) ← digits? 4 value.toList
  let cs ← skip? ['-'] cs
  let (month, cs) ← twoDigits? 1 12 cs
  let cs ← skip? ['-'] cs
  let (day, cs) ← twoDigits? 1 31 cs
  let cs ← skip? ['T'] cs
  let (hour, cs) ← twoDigits? 0 23 cs
  let cs ← skip? [':'] cs
  let (minute, cs) ← twoDigits? 0 59 cs
  let cs ← skip? [':'] cs
  let (second, cs) ← twoDigits? 0 59 cs
  let cs ← skip? ['.'] cs
  let (milli, cs) ← digits? 3 cs
  if cs = ['Z'] then
    some ((((civilDays year month day * 24 + hour) * 60 + minute) * 60 + second) * 1000 + milli)
  else none

/-- A URL of a scheme, a host perhaps with a port, and a path. -/
def webUrl? (text : String) : Option Url := do
  let scheme := if "https://".toList <+: text.toList then "https:" else "http:"
  let rest ← skip? (scheme ++ "//").toList text.toList
  let host := rest.takeWhile (· ≠ '/')
  if host = [] then none
  let path := rest.dropWhile (· ≠ '/')
  some {
    protocol := scheme
    host := String.ofList host
    hostname := String.ofList (host.takeWhile (· ≠ ':'))
    pathname := if path = [] then "/" else String.ofList path }

/-- The order of strings by their characters. -/
def compareChars (left right : String) : Ordering := compare left.toList right.toList

instance : Std.TransCmp compareChars :=
  inferInstanceAs (Std.TransCmp (compareOn String.toList))

/-- **The runtime of plain inputs.** -/
def plainRuntime : JsRuntime where
  dateParse := isoMillis?
  localeCompare := compareChars
  localeCompare_trans := inferInstance
  toLowerCase text := String.ofList (text.toList.map Char.toLower)
  parseUrl := webUrl?
  graphemes := String.length

end Awen
