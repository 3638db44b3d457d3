import Mathlib.Data.List.Induction
import Mathlib.Data.List.Pairwise
import Mathlib.Data.Nat.Basic

/-!
# Logs with sequence numbers

A log whose items carry rising sequence numbers, and a reader that asks for the items after a
cursor. `readAfter_append` says what a reader gets whose cursor is the end of an earlier log: the
items that were appended since.
-/

namespace Awen

variable {α : Type*} (seq : α → ℕ)

/-- The sequence of the last item of a log, or the cursor if the log has none. -/
def lastFrom (cursor : ℕ) (log : List α) : ℕ := (log.getLast?.map seq).getD cursor

/-- The items of a log with a sequence after the cursor. -/
def readAfter (cursor : ℕ) (log : List α) : List α := log.filter (cursor < seq ·)

/-- The sequences of a log rise, and all of them come after the cursor. -/
def Ascending (cursor : ℕ) (log : List α) : Prop := (cursor :: log.map seq).Pairwise (· < ·)

variable {seq}

@[simp] theorem lastFrom_nil (cursor : ℕ) : lastFrom seq cursor [] = cursor := rfl

@[simp] theorem lastFrom_concat (cursor : ℕ) (log : List α) (a : α) :
    lastFrom seq cursor (log ++ [a]) = seq a := by
  rw [lastFrom, List.getLast?_concat, Option.map_some, Option.getD_some]

theorem lastFrom_cons (cursor : ℕ) (a : α) (log : List α) :
    lastFrom seq cursor (a :: log) = lastFrom seq (seq a) log := by
  cases log using List.reverseRecOn with
  | nil => rfl
  | append_singleton log b => rw [← List.cons_append, lastFrom_concat, lastFrom_concat]

@[simp] theorem ascending_nil (cursor : ℕ) : Ascending seq cursor [] := List.pairwise_singleton _ _

theorem ascending_cons {cursor : ℕ} {a : α} {log : List α} :
    Ascending seq cursor (a :: log) ↔ cursor < seq a ∧ Ascending seq (seq a) log := by
  simp only [Ascending, List.map_cons, List.pairwise_cons, List.mem_cons, forall_eq_or_imp]
  constructor
  · rintro ⟨⟨hlt, -⟩, hrest⟩
    exact ⟨hlt, hrest⟩
  · rintro ⟨hlt, hafter, hrest⟩
    exact ⟨⟨hlt, fun b hb ↦ Nat.lt_trans hlt (hafter b hb)⟩, hafter, hrest⟩

theorem ascending_append {cursor : ℕ} {log new : List α} :
    Ascending seq cursor (log ++ new) ↔
      Ascending seq cursor log ∧ Ascending seq (lastFrom seq cursor log) new := by
  induction log generalizing cursor with
  | nil => simp
  | cons a log ih => rw [List.cons_append, ascending_cons, ascending_cons, lastFrom_cons, ih,
      and_assoc]

theorem Ascending.lt {cursor : ℕ} {log : List α} (h : Ascending seq cursor log) :
    ∀ a ∈ log, cursor < seq a :=
  fun a ha ↦ (List.pairwise_cons.mp h).1 (seq a) (List.mem_map_of_mem ha)

theorem Ascending.le_lastFrom {cursor : ℕ} {log : List α} (h : Ascending seq cursor log) :
    cursor ≤ lastFrom seq cursor log ∧ ∀ a ∈ log, seq a ≤ lastFrom seq cursor log := by
  induction log generalizing cursor with
  | nil => simp
  | cons a log ih =>
    obtain ⟨hlt, hrest⟩ := ascending_cons.mp h
    rw [lastFrom_cons]
    refine ⟨Nat.le_trans (Nat.le_of_lt hlt) (ih hrest).1, ?_⟩
    simpa using ih hrest

/-- **What is read from the end of an earlier log**: the items appended since. -/
theorem readAfter_append {cursor : ℕ} {log new : List α} (h : Ascending seq cursor (log ++ new)) :
    readAfter seq (lastFrom seq cursor log) (log ++ new) = new := by
  obtain ⟨hlog, hnew⟩ := ascending_append.mp h
  have hold : readAfter seq (lastFrom seq cursor log) log = [] := by
    rw [readAfter, List.filter_eq_nil_iff]
    intro a ha
    simpa using hlog.le_lastFrom.2 a ha
  have hkept : readAfter seq (lastFrom seq cursor log) new = new := by
    rw [readAfter, List.filter_eq_self]
    intro a ha
    simpa using hnew.lt a ha
  rw [readAfter, List.filter_append, ← readAfter, ← readAfter, hold, hkept, List.nil_append]

end Awen
