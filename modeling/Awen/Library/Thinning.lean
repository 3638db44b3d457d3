import Mathlib.Data.List.Basic
import Mathlib.Data.List.Induction
import Mathlib.Data.Option.Basic

/-!
# Thinned lists

`Thinned P items kept` says that `kept` are the items in their order, without some of which it can
be said of what comes after them that they may go: `P a rest` for an item `a` before `rest`. It is
kept by concatenation, and an item that may not go splits the kept items just as it splits the
items (`Thinned.split`).

The instance in use is `Superseded`: an item may go if its key comes again before its run ends.
-/

namespace Awen

variable {α β κ : Type*} {P Q : α → List α → Prop}

/-- Items in their order without some that may go. -/
inductive Thinned (P : α → List α → Prop) : List α → List α → Prop
  | nil : Thinned P [] []
  | keep (a : α) {items kept : List α} (h : Thinned P items kept) :
      Thinned P (a :: items) (a :: kept)
  | drop {a : α} {items kept : List α} (hgo : P a items) (h : Thinned P items kept) :
      Thinned P (a :: items) kept

namespace Thinned

variable {items kept : List α}

theorem refl (items : List α) : Thinned P items items := by
  induction items with
  | nil => exact .nil
  | cons a items ih => exact .keep a ih

theorem sublist (h : Thinned P items kept) : kept.Sublist items := by
  induction h with
  | nil => exact .slnil
  | keep a _ ih => exact ih.cons_cons a
  | drop _ _ ih => exact ih.cons _

/-- Thinned lists can be joined, if what may go may also go before more. -/
theorem append (hmore : ∀ a rest more, P a rest → P a (rest ++ more)) (h : Thinned P items kept)
    {more moreKept : List α} (hmoreKept : Thinned P more moreKept) :
    Thinned P (items ++ more) (kept ++ moreKept) := by
  induction h with
  | nil => exact hmoreKept
  | keep a _ ih => exact .keep a ih
  | drop hgo _ ih => exact .drop (hmore _ _ _ hgo) ih

theorem map (f : α → β) {R : β → List β → Prop}
    (hf : ∀ a rest, P a rest → R (f a) (rest.map f)) (h : Thinned P items kept) :
    Thinned R (items.map f) (kept.map f) := by
  induction h with
  | nil => exact .nil
  | keep a _ ih => exact .keep (f a) ih
  | drop hgo _ ih => exact .drop (hf _ _ hgo) ih

theorem of_map {f : α → β} {R : β → List β → Prop} (hf : ∀ a rest, R (f a) (rest.map f) → P a rest)
    {kept : List β} (h : Thinned R (items.map f) kept) :
    ∃ kept', kept = kept'.map f ∧ Thinned P items kept' := by
  induction items generalizing kept with
  | nil =>
    cases h
    exact ⟨[], rfl, .nil⟩
  | cons a items ih =>
    cases h with
    | keep _ h =>
      obtain ⟨kept', rfl, hkept'⟩ := ih h
      exact ⟨a :: kept', rfl, .keep a hkept'⟩
    | drop hgo h =>
      obtain ⟨kept', rfl, hkept'⟩ := ih h
      exact ⟨kept', rfl, .drop (hf _ _ hgo) hkept'⟩

/-- **An item that may not go** stands among the kept items where it stood, between items from
before it and items from after it. -/
theorem split {before after : List α} {a : α} (h : Thinned P (before ++ a :: after) kept)
    (hstays : ¬ P a after) :
    ∃ first last, kept = first ++ a :: last ∧ first.Sublist before ∧ Thinned P after last := by
  induction before generalizing kept with
  | nil =>
    cases h with
    | keep _ h => exact ⟨[], _, rfl, List.nil_sublist _, h⟩
    | drop hgo _ => exact absurd hgo hstays
  | cons b before ih =>
    cases h with
    | keep _ h =>
      obtain ⟨first, last, rfl, hfirst, hlast⟩ := ih h
      exact ⟨b :: first, last, rfl, hfirst.cons_cons b, hlast⟩
    | drop _ h =>
      obtain ⟨first, last, rfl, hfirst, hlast⟩ := ih h
      exact ⟨first, last, rfl, hfirst.cons b, hlast⟩

end Thinned

/-! ## Runs -/

/-- Induction over the runs of a list: the items that have a property up to one that has not. -/
theorem runs_induction (p : α → Bool) {motive : List α → Prop}
    (run : ∀ items, (∀ a ∈ items, p a = true) → motive items)
    (separator : ∀ items a rest, (∀ b ∈ items, p b = true) → p a = false → motive rest →
      motive (items ++ a :: rest)) (items : List α) : motive items := by
  suffices h : ∀ before : List α, (∀ a ∈ before, p a = true) → motive (before ++ items) from
    h [] (List.forall_mem_nil _)
  induction items with
  | nil =>
    intro before hbefore
    rw [List.append_nil]
    exact run before hbefore
  | cons a items ih =>
    intro before hbefore
    cases ha : p a with
    | true =>
      rw [List.append_cons]
      refine ih _ fun b hb ↦ ?_
      rcases List.mem_append.mp hb with hb | hb
      · exact hbefore b hb
      · rw [List.mem_singleton.mp hb, ha]
    | false => exact separator before a items hbefore ha (ih [] (List.forall_mem_nil _))

variable (inRun : α → Bool) (key : α → Option κ)

/-- An item whose key comes again before its run ends. -/
def Superseded (a : α) (rest : List α) : Prop :=
  ∃ k, key a = some k ∧ ∃ b ∈ rest.takeWhile inRun, key b = some k

variable {inRun key}

theorem Superseded.append {a : α} {rest : List α} (h : Superseded inRun key a rest)
    (more : List α) : Superseded inRun key a (rest ++ more) := by
  obtain ⟨k, hk, b, hb, hkb⟩ := h
  refine ⟨k, hk, b, ?_, hkb⟩
  rw [List.takeWhile_append]
  split
  · exact List.mem_append_left _ ((List.takeWhile_prefix inRun).subset hb)
  · exact hb

theorem superseded_map {f : α → β} {inRun' : β → Bool} {key' : β → Option κ}
    (hrun : ∀ a, inRun' (f a) = inRun a) (hkey : ∀ a, key' (f a) = key a) {a : α} {rest : List α} :
    Superseded inRun' key' (f a) (rest.map f) ↔ Superseded inRun key a rest := by
  rw [Superseded, Superseded, List.takeWhile_map, show inRun' ∘ f = inRun from funext hrun]
  simp only [hkey, List.mem_map, exists_exists_and_eq_and]

end Awen
