import Mathlib.Data.List.DropRight
import Mathlib.Order.Compare

/-!
# The language runtime

The operations on strings and dates that the program takes from its runtime. What the language
standard pins down is defined here: which characters `trim` removes, and the order of strings by
UTF-16 code units. What it leaves to the engine and to the locale is the structure `JsRuntime`:
reading a date, comparing strings for a locale, lower-casing, splitting a URL, counting graphemes.
Everything that is said about the program holds for every such runtime.
-/

namespace Awen

/-! ## Characters -/

/-- A condition on the characters of a list is decided along the list, not over all characters. -/
instance (priority := 1100) decidableForallMemChar {p : Char → Prop} [DecidablePred p]
    (l : List Char) : Decidable (∀ c ∈ l, p c) := List.decidableBAll p l

instance (priority := 1100) decidableExistsMemChar {p : Char → Prop} [DecidablePred p]
    (l : List Char) : Decidable (∃ c ∈ l, p c) := List.decidableBEx p l

/-- The characters that count as white space or line terminators. -/
def isWhiteSpace (c : Char) : Bool :=
  c ∈ ['\t', '\n', '\x0b', '\x0c', '\r', ' ', '\u00a0', '\u1680', '\u2028', '\u2029', '\u202f',
    '\u205f', '\u3000', '\ufeff'] || ('\u2000' ≤ c && c ≤ '\u200a')

/-- The string without white space at its ends. -/
def trim (s : String) : String :=
  String.ofList ((s.toList.dropWhile isWhiteSpace).rdropWhile isWhiteSpace)

/-- The UTF-16 code units of a character. -/
def utf16Units (c : Char) : List ℕ :=
  if c.toNat < 0x10000 then [c.toNat]
  else [0xd800 + (c.toNat - 0x10000) / 0x400, 0xdc00 + (c.toNat - 0x10000) % 0x400]

/-- `left < right` on strings: the order of their UTF-16 code units. -/
def stringLt (left right : String) : Bool :=
  decide (left.toList.flatMap utf16Units < right.toList.flatMap utf16Units)

/-- What the program reads of a parsed URL. -/
structure Url where
  protocol : String
  /-- The host with its port, if it has one. -/
  host : String
  hostname : String
  pathname : String
  deriving DecidableEq, Repr

/-- **The runtime**: the functions whose results depend on the engine or on the locale. -/
structure JsRuntime where
  /-- `Date.parse`, in milliseconds; `none` stands for `NaN`. -/
  dateParse : String → Option ℤ
  /-- `left.localeCompare(right)`. -/
  localeCompare : String → String → Ordering
  /-- The standard requires a consistent comparison function. -/
  localeCompare_trans : Std.TransCmp localeCompare
  toLowerCase : String → String
  /-- `new URL(text)`; `none` where the constructor throws. -/
  parseUrl : String → Option Url
  /-- How many graphemes `Intl.Segmenter` finds. -/
  graphemes : String → ℕ

attribute [instance] JsRuntime.localeCompare_trans

/-- What the standard says of lower-casing ASCII text, also where other text follows it. -/
structure JsRuntime.LowersAscii (js : JsRuntime) : Prop where
  toLowerCase_ascii : ∀ ascii : String, (∀ c ∈ ascii.toList, c.toNat < 128) →
    (js.toLowerCase ascii).toList = ascii.toList.map Char.toLower
  toLowerCase_append : ∀ ascii rest : String, (∀ c ∈ ascii.toList, c.toNat < 128) →
    ascii.toList.map Char.toLower <+: (js.toLowerCase (ascii ++ rest)).toList

end Awen
