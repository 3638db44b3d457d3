import Mathlib.Order.WithBot
import Awen.Library.StableSort

/-!
# Precedence of semantic versions

A semantic version is three numbers and the identifiers of a prerelease. `Semver.precedence` orders
versions: by the numbers, from major to patch; then a version without a prerelease comes after those
with one, and prereleases are compared identifier by identifier, where numbers come before words and
the shorter prerelease before the longer one. The numbers are of any linear order and the words are
compared by any consistent comparison; then the precedence is consistent too.
-/

namespace Awen

/-- An identifier of a prerelease. -/
inductive PrereleaseIdentifier (N : Type*) where
  | numeric (value : N)
  | alphanumeric (text : String)
  deriving DecidableEq

structure Semver (N : Type*) where
  major : N
  minor : N
  patch : N
  prerelease : List (PrereleaseIdentifier N)
  deriving DecidableEq

variable {N : Type*} [LinearOrder N] (compareText : String → String → Ordering)

def PrereleaseIdentifier.compare :
    PrereleaseIdentifier N → PrereleaseIdentifier N → Ordering
  | numeric a, numeric b => Ord.compare a b
  | numeric _, alphanumeric _ => .lt
  | alphanumeric _, numeric _ => .gt
  | alphanumeric a, alphanumeric b => compareText a b

/-- A version without a prerelease comes last. -/
def comparePrereleases (a b : List (PrereleaseIdentifier N)) : Ordering :=
  (compare (decide (a = [])) (decide (b = []))).then
    (List.compareLex (PrereleaseIdentifier.compare compareText) a b)

section

variable {compareText} {a b : PrereleaseIdentifier N} {as bs : List (PrereleaseIdentifier N)}

@[simp] theorem comparePrereleases_nil_nil :
    comparePrereleases compareText ([] : List (PrereleaseIdentifier N)) [] = .eq := rfl

@[simp] theorem comparePrereleases_nil_cons : comparePrereleases compareText [] (b :: bs) = .gt :=
  rfl

@[simp] theorem comparePrereleases_cons_nil : comparePrereleases compareText (a :: as) [] = .lt :=
  rfl

@[simp] theorem comparePrereleases_cons_cons :
    comparePrereleases compareText (a :: as) (b :: bs) =
      List.compareLex (PrereleaseIdentifier.compare compareText) (a :: as) (b :: bs) := rfl

end

namespace Semver

/-- The order of the three numbers. -/
def compareCore (a b : Semver N) : Ordering :=
  ((compare a.major b.major).then (compare a.minor b.minor)).then (compare a.patch b.patch)

/-- **The precedence of versions.** -/
def precedence (a b : Semver N) : Ordering :=
  (compareCore a b).then (comparePrereleases compareText a.prerelease b.prerelease)

end Semver

section

variable [Std.TransCmp compareText]

instance : Std.TransCmp (PrereleaseIdentifier.compare (N := N) compareText) where
  eq_swap {a b} := by
    cases a with
    | numeric a =>
      cases b with
      | numeric b => exact Std.OrientedOrd.eq_swap
      | alphanumeric b => rfl
    | alphanumeric a =>
      cases b with
      | numeric b => rfl
      | alphanumeric b => exact @Std.OrientedCmp.eq_swap _ compareText _ _ _
  isLE_trans {a b c} hab hbc := by
    cases a with
    | numeric a =>
      cases c with
      | alphanumeric c => rfl
      | numeric c =>
        cases b with
        | numeric b => exact Std.TransOrd.isLE_trans hab hbc
        | alphanumeric b => exact nomatch hbc
    | alphanumeric a =>
      cases b with
      | numeric b => exact nomatch hab
      | alphanumeric b =>
        cases c with
        | numeric c => exact nomatch hbc
        | alphanumeric c => exact @Std.TransCmp.isLE_trans _ compareText _ _ _ _ hab hbc

instance : Std.TransCmp (comparePrereleases (N := N) compareText) :=
  have := transCmp_comap (compare : Bool → Bool → Ordering)
    fun identifiers : List (PrereleaseIdentifier N) ↦ decide (identifiers = [])
  inferInstanceAs (Std.TransCmp (compareLex _ _))

/-- **Precedence is a consistent comparison.** -/
instance : Std.TransCmp (Semver.precedence (N := N) compareText) :=
  have := transCmp_comap (compare : N → N → Ordering) Semver.major
  have := transCmp_comap (compare : N → N → Ordering) Semver.minor
  have := transCmp_comap (compare : N → N → Ordering) Semver.patch
  have := transCmp_comap (comparePrereleases (N := N) compareText) Semver.prerelease
  inferInstanceAs (Std.TransCmp (compareLex (compareLex (compareLex _ _) _) _))

end

end Awen
