import Mathlib.Data.List.Nodup
import Mathlib.Data.List.Basic

/-!
# Tables with a primary key

The rows of a database table, of which no two have the same primary key. `upsert` is an insertion
that updates the row on a conflict of keys, and `deleteWhere` drops the rows that meet a condition.
That the keys are distinct is a field of the table, so that a row is looked up by its key alone.
-/

namespace Awen

/-- A table whose rows are identified by a key. -/
structure Table {α κ : Type*} (key : α → κ) where
  rows : List α
  /-- No two rows have the same key. -/
  nodup_keys : (rows.map key).Nodup

namespace Table

variable {α κ : Type*} {key : α → κ}

/-- The table without rows. -/
def empty : Table key := ⟨[], List.nodup_nil⟩

@[simp] theorem rows_empty : (empty : Table key).rows = [] := rfl

theorem eq_of_mem {t : Table key} {row row' : α} (hrow : row ∈ t.rows) (hrow' : row' ∈ t.rows)
    (hkey : key row = key row') : row = row' :=
  List.inj_on_of_nodup_map t.nodup_keys hrow hrow' hkey

/-- Drop the rows that meet a condition. -/
def deleteWhere (t : Table key) (p : α → Bool) : Table key where
  rows := t.rows.filter fun row ↦ !p row
  nodup_keys := t.nodup_keys.sublist (List.filter_sublist.map key)

@[simp] theorem mem_deleteWhere {t : Table key} {p : α → Bool} {row : α} :
    row ∈ (t.deleteWhere p).rows ↔ row ∈ t.rows ∧ p row = false := by
  simp [deleteWhere]

variable [DecidableEq κ]

/-- The row with a key. -/
def get (t : Table key) (k : κ) : Option α := t.rows.find? fun row ↦ key row = k

theorem get_eq_some {t : Table key} {k : κ} {row : α} :
    t.get k = some row ↔ row ∈ t.rows ∧ key row = k := by
  constructor
  · exact fun h ↦ ⟨List.mem_of_find?_eq_some h, by simpa using List.find?_some h⟩
  · rintro ⟨hrow, hkey⟩
    cases hfound : t.get k with
    | none => exact absurd hkey (by simpa using List.find?_eq_none.mp hfound row hrow)
    | some found =>
      have hfoundKey : key found = k := by simpa using List.find?_some hfound
      rw [eq_of_mem (List.mem_of_find?_eq_some hfound) hrow (hfoundKey.trans hkey.symm)]

/-- Replace the row with the key of a row in its place, or append the row. -/
def upsertRows (key : α → κ) (row : α) : List α → List α
  | [] => [row]
  | other :: rows => if key other = key row then row :: rows else other :: upsertRows key row rows

private theorem keys_upsertRows (row : α) (rows : List α) :
    (upsertRows key row rows).map key = if key row ∈ rows.map key then rows.map key
      else rows.map key ++ [key row] := by
  induction rows with
  | nil => simp [upsertRows]
  | cons other rows ih =>
    by_cases hother : key other = key row
    · simp [upsertRows, hother]
    · rw [upsertRows, if_neg hother, List.map_cons, ih, List.map_cons]
      by_cases hmem : key row ∈ rows.map key
      · rw [if_pos hmem, if_pos (List.mem_cons_of_mem _ hmem)]
      · rw [if_neg hmem, if_neg (by simpa [Ne.symm hother] using hmem), List.cons_append]

theorem nodup_upsertRows {rows : List α} (h : (rows.map key).Nodup) (row : α) :
    ((upsertRows key row rows).map key).Nodup := by
  rw [keys_upsertRows]
  split
  · exact h
  · rename_i hnew
    refine List.nodup_append.mpr ⟨h, List.nodup_singleton _, fun k hk j hj ↦ ?_⟩
    rw [List.mem_singleton.mp hj]
    rintro rfl
    exact hnew hk

/-- Insert a row, or update the row with its key. -/
def upsert (t : Table key) (row : α) : Table key where
  rows := upsertRows key row t.rows
  nodup_keys := nodup_upsertRows t.nodup_keys row

theorem mem_upsertRows {row other : α} {rows : List α} (h : (rows.map key).Nodup) :
    other ∈ upsertRows key row rows ↔ other = row ∨ (other ∈ rows ∧ key other ≠ key row) := by
  induction rows with
  | nil => simp [upsertRows]
  | cons first rows ih =>
    rw [List.map_cons, List.nodup_cons] at h
    by_cases hfirst : key first = key row
    · rw [upsertRows, if_pos hfirst, List.mem_cons, List.mem_cons]
      refine or_congr_right ⟨fun hmem ↦ ⟨.inr hmem, fun hkey ↦ h.1 ?_⟩, ?_⟩
      · exact hfirst ▸ hkey ▸ List.mem_map_of_mem hmem
      · rintro ⟨rfl | hmem, hkey⟩
        · exact absurd hfirst hkey
        · exact hmem
    · rw [upsertRows, if_neg hfirst, List.mem_cons, List.mem_cons, ih h.2]
      by_cases hother : other = first
      · simp [hother, hfirst]
      · simp [hother]

/-- **After an upsert the table has the row, and the other rows with other keys.** -/
@[simp] theorem mem_upsert {t : Table key} {row other : α} :
    other ∈ (t.upsert row).rows ↔ other = row ∨ (other ∈ t.rows ∧ key other ≠ key row) :=
  mem_upsertRows t.nodup_keys

@[simp] theorem get_upsert (t : Table key) (row : α) (k : κ) :
    (t.upsert row).get k = if k = key row then some row else t.get k := by
  refine Option.ext fun other ↦ ?_
  rw [get_eq_some, mem_upsert]
  by_cases hk : k = key row
  · rw [if_pos hk, Option.some.injEq]
    constructor
    · rintro ⟨rfl | ⟨-, hne⟩, hkey⟩
      · rfl
      · exact absurd (hkey.trans hk) hne
    · rintro rfl
      exact ⟨.inl rfl, hk.symm⟩
  · rw [if_neg hk, get_eq_some]
    constructor
    · rintro ⟨rfl | ⟨hmem, -⟩, hkey⟩
      · exact absurd hkey.symm hk
      · exact ⟨hmem, hkey⟩
    · rintro ⟨hmem, rfl⟩
      exact ⟨.inr ⟨hmem, hk⟩, rfl⟩

/-- Change every row, but none of the keys. -/
def mapRows (t : Table key) (f : α → α) (hf : ∀ row, key (f row) = key row) : Table key where
  rows := t.rows.map f
  nodup_keys := by
    have hkeys : (t.rows.map f).map key = t.rows.map key := by
      rw [List.map_map]
      exact List.map_congr_left fun row _ ↦ hf row
    exact hkeys ▸ t.nodup_keys

theorem get_mapRows (t : Table key) (f : α → α) (hf : ∀ row, key (f row) = key row) (k : κ) :
    (t.mapRows f hf).get k = (t.get k).map f := by
  simp only [get, mapRows, List.find?_map, Function.comp_def, hf]

theorem get_deleteWhere (t : Table key) (p : α → Bool) (k : κ) :
    (t.deleteWhere p).get k = (t.get k).filter fun row ↦ !p row := by
  refine Option.ext fun row ↦ ?_
  simp only [get_eq_some, mem_deleteWhere, Option.filter_eq_some_iff, Bool.not_eq_true']
  exact and_right_comm

end Table

end Awen
