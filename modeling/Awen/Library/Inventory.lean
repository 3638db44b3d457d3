import Mathlib.Data.Multiset.Filter

/-!
# Inventories with unique keys

An inventory is a multiset of items that changes by removing items, by exchanging one item for
another, and by adding one. `UniqueOn key` says that no two items share a key, for a key that only
some items have. `Step` is one change; which items may go, and the conditions under which one is
exchanged or added, are parameters. `Step.uniqueOn` reduces "no key is ever held twice" to these
conditions.
-/

namespace Awen

variable {α κ : Type*}

/-- No two items have the same key. -/
def UniqueOn (key : α → Option κ) (items : Multiset α) : Prop := (items.filterMap key).Nodup

/-- No item holds the key of `a`. -/
def Unclaimed (key : α → Option κ) (a : α) (items : Multiset α) : Prop :=
  ∀ k, key a = some k → ∀ x ∈ items, key x ≠ some k

variable {key : α → Option κ} {items items' : Multiset α}

theorem UniqueOn.mono (h : UniqueOn key items) (hle : items' ≤ items) : UniqueOn key items' :=
  Multiset.nodup_of_le (Multiset.filterMap_le_filterMap key hle) h

theorem uniqueOn_zero : UniqueOn key 0 := Multiset.nodup_zero

theorem uniqueOn_cons {a : α} : UniqueOn key (a ::ₘ items) ↔
    UniqueOn key items ∧ Unclaimed key a items := by
  rw [UniqueOn, UniqueOn, Unclaimed]
  cases hk : key a with
  | none => simp [Multiset.filterMap_cons_none _ _ hk]
  | some k =>
    rw [Multiset.filterMap_cons_some key a items hk, Multiset.nodup_cons, and_comm]
    simp [Multiset.mem_filterMap]

/-- An item without a key claims nothing. -/
theorem unclaimed_of_none {a : α} (h : key a = none) : Unclaimed key a items := fun k hk ↦ by
  rw [h] at hk
  cases hk

/-- One change of an inventory. What stays of it first is subject to `keeps`. -/
inductive Step (keeps : Multiset α → Multiset α → Prop) (exchanges : α → α → Multiset α → Prop)
    (adds : α → Multiset α → Prop) (items items' : Multiset α) : Prop
  | remove (keeps : keeps items' items)
  | exchange (a a' : α) (rest : Multiset α) (keeps : keeps (a ::ₘ rest) items)
      (eq : items' = a' ::ₘ rest) (exchanges : exchanges a a' rest)
  | add (a : α) (rest : Multiset α) (keeps : keeps rest items) (eq : items' = a ::ₘ rest)
      (adds : adds a rest)

variable {keeps : Multiset α → Multiset α → Prop} {exchanges : α → α → Multiset α → Prop}
  {adds : α → Multiset α → Prop}

/-- Keys stay unique if an exchange keeps the key or takes an unclaimed one, and an addition brings
an unclaimed one. -/
theorem Step.uniqueOn (h : Step keeps exchanges adds items items') (hu : UniqueOn key items)
    (hkeeps : ∀ rest, keeps rest items → rest ≤ items)
    (hexchange : ∀ a a' rest, a ::ₘ rest ≤ items → exchanges a a' rest →
      key a' = key a ∨ Unclaimed key a' rest)
    (hadd : ∀ a rest, rest ≤ items → adds a rest → Unclaimed key a rest) :
    UniqueOn key items' := by
  cases h with
  | remove kept => exact hu.mono (hkeeps _ kept)
  | exchange a a' rest kept eq ex =>
    subst eq
    have hle := hkeeps _ kept
    obtain ⟨hrest, hclaim⟩ := uniqueOn_cons.mp (hu.mono hle)
    refine uniqueOn_cons.mpr ⟨hrest, ?_⟩
    rcases hexchange a a' rest hle ex with hkey | hnew
    · rw [Unclaimed, hkey]
      exact hclaim
    · exact hnew
  | add a rest kept eq ad =>
    subst eq
    have hle := hkeeps _ kept
    exact uniqueOn_cons.mpr ⟨hu.mono hle, hadd a rest hle ad⟩

end Awen
