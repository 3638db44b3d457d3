import Mathlib.Data.List.Nodup
import Mathlib.Data.List.Perm.Basic
import Mathlib.Data.List.Basic

/-!
# Insertion-ordered maps

A finite map that remembers the order in which its keys were first inserted: setting a key that is
present replaces its value in place, setting a new key appends it, and deleting a key closes the
gap. This is the contract of the keyed collections of most scripting languages, where iteration
order is observable and lookups that scan the entries depend on it.

The distinctness of the keys is a field, so every value of the type is a map. `entries_perm_of_get`
and `entries_set_perm` are what multiset arguments over the entries use.
-/

namespace Awen

/-- A finite map in insertion order. -/
structure OrderedMap (κ : Type*) (α : Type*) where
  /-- The entries, oldest key first. -/
  entries : List (κ × α)
  /-- No key occurs twice. -/
  nodup_keys : (entries.map Prod.fst).Nodup

namespace OrderedMap

variable {κ α : Type*}

@[ext] theorem ext {m n : OrderedMap κ α} (h : m.entries = n.entries) : m = n := by
  cases m; cases n; congr

instance [DecidableEq κ] [DecidableEq α] : DecidableEq (OrderedMap κ α) := fun m n ↦
  decidable_of_iff (m.entries = n.entries) ⟨OrderedMap.ext, fun h ↦ h ▸ rfl⟩

/-- The map without entries. -/
def empty : OrderedMap κ α := ⟨[], List.nodup_nil⟩

/-- The map with one entry. -/
def singleton (k : κ) (v : α) : OrderedMap κ α := ⟨[(k, v)], List.nodup_singleton k⟩

/-- The keys in insertion order. -/
def keys (m : OrderedMap κ α) : List κ := m.entries.map Prod.fst

/-- The values in insertion order of their keys. -/
def values (m : OrderedMap κ α) : List α := m.entries.map Prod.snd

/-- The number of entries. -/
def size (m : OrderedMap κ α) : ℕ := m.entries.length

@[simp] theorem entries_empty : (empty : OrderedMap κ α).entries = [] := rfl

@[simp] theorem keys_empty : (empty : OrderedMap κ α).keys = [] := rfl

@[simp] theorem entries_singleton (k : κ) (v : α) : (singleton k v).entries = [(k, v)] := rfl

@[simp] theorem keys_singleton (k : κ) (v : α) : (singleton k v).keys = [k] := rfl

@[simp] theorem values_singleton (k : κ) (v : α) : (singleton k v).values = [v] := rfl

@[simp] theorem length_keys (m : OrderedMap κ α) : m.keys.length = m.size := by
  rw [keys, List.length_map, size]

theorem nodup (m : OrderedMap κ α) : m.keys.Nodup := m.nodup_keys

theorem mem_values_of_mem {m : OrderedMap κ α} {k : κ} {v : α} (h : (k, v) ∈ m.entries) :
    v ∈ m.values := List.mem_map_of_mem (f := Prod.snd) h

theorem mem_values {m : OrderedMap κ α} {v : α} : v ∈ m.values ↔ ∃ k, (k, v) ∈ m.entries := by
  rw [values, List.mem_map]
  exact ⟨fun ⟨e, he, hv⟩ ↦ ⟨e.1, hv ▸ he⟩, fun ⟨k, hk⟩ ↦ ⟨(k, v), hk, rfl⟩⟩

theorem eq_of_mem_entries {m : OrderedMap κ α} {k : κ} {v w : α} (hv : (k, v) ∈ m.entries)
    (hw : (k, w) ∈ m.entries) : v = w :=
  congrArg Prod.snd (List.inj_on_of_nodup_map m.nodup_keys hv hw rfl)

variable [DecidableEq κ]

/-- The value stored under a key. -/
def get (m : OrderedMap κ α) (k : κ) : Option α :=
  (m.entries.find? fun e ↦ e.1 = k).map Prod.snd

/-- Whether a key is present. -/
def has (m : OrderedMap κ α) (k : κ) : Bool := m.keys.contains k

/-- Drop a key. -/
def delete (m : OrderedMap κ α) (k : κ) : OrderedMap κ α where
  entries := m.entries.filter fun e ↦ e.1 ≠ k
  nodup_keys := m.nodup_keys.sublist (List.filter_sublist.map Prod.fst)

/-- Replace the value of the first entry with key `k`, or append an entry. -/
def setEntries (k : κ) (v : α) : List (κ × α) → List (κ × α)
  | [] => [(k, v)]
  | e :: es => if e.1 = k then (k, v) :: es else e :: setEntries k v es

theorem setEntries_keys (k : κ) (v : α) (es : List (κ × α)) :
    (setEntries k v es).map Prod.fst
      = if k ∈ es.map Prod.fst then es.map Prod.fst else es.map Prod.fst ++ [k] := by
  induction es with
  | nil => simp [setEntries]
  | cons e es ih =>
    by_cases he : e.1 = k
    · simp [setEntries, he]
    · have hk : ¬k = e.1 := fun h ↦ he h.symm
      rw [setEntries, if_neg he, List.map_cons, ih, List.map_cons]
      by_cases hmem : k ∈ es.map Prod.fst
      · rw [if_pos hmem, if_pos (List.mem_cons_of_mem _ hmem)]
      · rw [if_neg hmem, if_neg (by simpa [hk] using hmem), List.cons_append]

/-- Store a value under a key. -/
def set (m : OrderedMap κ α) (k : κ) (v : α) : OrderedMap κ α where
  entries := setEntries k v m.entries
  nodup_keys := by
    rw [setEntries_keys]
    split
    · exact m.nodup_keys
    · exact List.nodup_append.mpr ⟨m.nodup_keys, List.nodup_singleton k,
        fun a ha b hb ↦ by rw [List.mem_singleton.mp hb]; rintro rfl; contradiction⟩

@[simp] theorem has_eq_true {m : OrderedMap κ α} {k : κ} : m.has k = true ↔ k ∈ m.keys := by
  rw [has, List.contains_iff_mem]

theorem get_eq_some {m : OrderedMap κ α} {k : κ} {v : α} :
    m.get k = some v ↔ (k, v) ∈ m.entries := by
  rw [get, Option.map_eq_some_iff]
  constructor
  · rintro ⟨e, he, rfl⟩
    have hk : e.1 = k := by simpa using List.find?_some he
    exact hk ▸ List.mem_of_find?_eq_some he
  · intro h
    obtain ⟨e, he⟩ : ∃ e, (m.entries.find? fun e ↦ e.1 = k) = some e := by
      rw [← Option.isSome_iff_exists, List.find?_isSome]
      exact ⟨(k, v), h, by simp⟩
    have hk : e.1 = k := by simpa using List.find?_some he
    have hmem : (k, e.2) ∈ m.entries := hk ▸ List.mem_of_find?_eq_some he
    exact ⟨e, he, eq_of_mem_entries hmem h⟩

theorem get_eq_none {m : OrderedMap κ α} {k : κ} : m.get k = none ↔ k ∉ m.keys := by
  rw [get, Option.map_eq_none_iff, List.find?_eq_none, keys, List.mem_map]
  constructor
  · rintro h ⟨e, he, rfl⟩
    exact h e he (by simp)
  · rintro h e he
    simpa using fun hk ↦ h ⟨e, he, hk⟩

theorem mem_keys {m : OrderedMap κ α} {k : κ} : k ∈ m.keys ↔ ∃ v, m.get k = some v := by
  rw [← Option.isSome_iff_exists, Option.isSome_iff_ne_none, ne_eq, get_eq_none, not_not]

theorem has_eq_isSome_get (m : OrderedMap κ α) (k : κ) : m.has k = (m.get k).isSome := by
  rw [Bool.eq_iff_iff, has_eq_true, mem_keys, Option.isSome_iff_exists]

theorem mem_keys_of_get {m : OrderedMap κ α} {k : κ} {v : α} (h : m.get k = some v) :
    k ∈ m.keys := mem_keys.mpr ⟨v, h⟩

@[simp] theorem entries_delete (m : OrderedMap κ α) (k : κ) :
    (m.delete k).entries = m.entries.filter fun e ↦ e.1 ≠ k := rfl

theorem keys_delete (m : OrderedMap κ α) (k : κ) :
    (m.delete k).keys = m.keys.filter fun j ↦ j ≠ k := by
  rw [keys, entries_delete, keys, List.filter_map]
  rfl

@[simp] theorem mem_keys_delete {m : OrderedMap κ α} {j k : κ} :
    j ∈ (m.delete k).keys ↔ j ∈ m.keys ∧ j ≠ k := by
  rw [keys_delete, List.mem_filter, decide_eq_true_iff]

theorem delete_of_not_mem {m : OrderedMap κ α} {k : κ} (h : k ∉ m.keys) : m.delete k = m := by
  refine OrderedMap.ext (List.filter_eq_self.mpr fun e he ↦ ?_)
  simpa using fun hk : e.1 = k ↦ h (hk ▸ List.mem_map_of_mem he)

/-- Deleting several keys. -/
theorem entries_foldl_delete (ks : List κ) : ∀ m : OrderedMap κ α,
    (ks.foldl delete m).entries = m.entries.filter fun e ↦ e.1 ∉ ks := by
  induction ks with
  | nil => exact fun m ↦ (List.filter_eq_self.mpr fun e _ ↦ by simp).symm
  | cons k ks ih =>
    intro m
    rw [List.foldl_cons, ih, entries_delete, List.filter_filter]
    exact List.filter_congr fun e _ ↦ by simp [Bool.and_comm]

theorem keys_set (m : OrderedMap κ α) (k : κ) (v : α) :
    (m.set k v).keys = if k ∈ m.keys then m.keys else m.keys ++ [k] :=
  setEntries_keys k v m.entries

@[simp] theorem mem_keys_set {m : OrderedMap κ α} {j k : κ} {v : α} :
    j ∈ (m.set k v).keys ↔ j = k ∨ j ∈ m.keys := by
  rw [keys_set]
  split
  · exact ⟨Or.inr, fun h ↦ h.elim (fun hj ↦ hj ▸ ‹_›) id⟩
  · rw [List.mem_append, List.mem_singleton, or_comm]

/-- Moving a present key to the front leaves the map without it. -/
theorem entries_perm_of_get {m : OrderedMap κ α} {k : κ} {v : α} (h : m.get k = some v) :
    m.entries.Perm ((k, v) :: (m.delete k).entries) := by
  obtain ⟨l, r, hlr⟩ := List.append_of_mem (get_eq_some.mp h)
  have hnd := m.nodup_keys
  rw [hlr, List.map_append, List.map_cons, List.nodup_middle, List.nodup_cons,
    List.mem_append, not_or] at hnd
  have hfilter : ∀ es : List (κ × α), k ∉ es.map Prod.fst →
      (es.filter fun e ↦ e.1 ≠ k) = es := by
    intro es hes
    refine List.filter_eq_self.mpr fun e he ↦ ?_
    simpa using fun hk : e.1 = k ↦ hes (hk ▸ List.mem_map_of_mem he)
  rw [entries_delete, hlr, List.filter_append, List.filter_cons_of_neg (by simp),
    hfilter l hnd.1.1, hfilter r hnd.1.2]
  exact List.perm_middle

private theorem setEntries_perm (k : κ) (v : α) (es : List (κ × α)) (h : (es.map Prod.fst).Nodup) :
    (setEntries k v es).Perm ((k, v) :: es.filter fun e ↦ e.1 ≠ k) := by
  induction es with
  | nil => simp [setEntries]
  | cons e es ih =>
    rw [List.map_cons, List.nodup_cons] at h
    by_cases he : e.1 = k
    · rw [setEntries, if_pos he, List.filter_cons_of_neg (by simp [he]),
        List.filter_eq_self.mpr]
      intro e' he'
      simpa using fun hk : e'.1 = k ↦ h.1 (he ▸ hk ▸ List.mem_map_of_mem he')
    · rw [setEntries, if_neg he, List.filter_cons_of_pos (by simpa using he)]
      exact ((ih h.2).cons e).trans (List.Perm.swap _ _ _)

/-- A new key is appended. -/
theorem entries_set_of_not_mem {m : OrderedMap κ α} {k : κ} (h : k ∉ m.keys) (v : α) :
    (m.set k v).entries = m.entries ++ [(k, v)] := by
  have happend : ∀ es : List (κ × α), k ∉ es.map Prod.fst → setEntries k v es = es ++ [(k, v)] := by
    intro es hk
    induction es with
    | nil => rfl
    | cons e es ih =>
      rw [List.map_cons, List.mem_cons, not_or] at hk
      rw [setEntries, if_neg fun he ↦ hk.1 he.symm, ih hk.2, List.cons_append]
  exact happend m.entries h

/-- After a store, the key holds the value and the rest is the map without the key. -/
theorem entries_set_perm (m : OrderedMap κ α) (k : κ) (v : α) :
    (m.set k v).entries.Perm ((k, v) :: (m.delete k).entries) :=
  setEntries_perm k v m.entries m.nodup_keys

theorem mem_entries_set {m : OrderedMap κ α} {j k : κ} {v w : α} :
    (j, w) ∈ (m.set k v).entries ↔ (j = k ∧ w = v) ∨ ((j, w) ∈ m.entries ∧ j ≠ k) := by
  rw [(entries_set_perm m k v).mem_iff, List.mem_cons, entries_delete, List.mem_filter,
    Prod.mk.injEq, decide_eq_true_iff]

@[simp] theorem get_set_self (m : OrderedMap κ α) (k : κ) (v : α) : (m.set k v).get k = some v :=
  get_eq_some.mpr (mem_entries_set.mpr (Or.inl ⟨rfl, rfl⟩))

theorem get_set_of_ne {m : OrderedMap κ α} {j k : κ} {v : α} (h : j ≠ k) :
    (m.set k v).get j = m.get j := by
  refine Option.ext fun w ↦ ?_
  rw [get_eq_some, get_eq_some, mem_entries_set]
  exact ⟨fun hw ↦ hw.elim (fun hj ↦ absurd hj.1 h) And.left, fun hw ↦ Or.inr ⟨hw, h⟩⟩

theorem get_delete_of_ne {m : OrderedMap κ α} {j k : κ} (h : j ≠ k) :
    (m.delete k).get j = m.get j := by
  refine Option.ext fun w ↦ ?_
  rw [get_eq_some, get_eq_some, entries_delete, List.mem_filter, decide_eq_true_iff]
  exact and_iff_left h

theorem get_delete_self (m : OrderedMap κ α) (k : κ) : (m.delete k).get k = none := by
  rw [get_eq_none, mem_keys_delete]
  exact fun h ↦ h.2 rfl

/-- What a key holds, as a part of the map. -/
theorem map_filter_key (m : OrderedMap κ α) (k : κ) :
    (m.entries.filter fun e ↦ e.1 = k).map Prod.snd = (m.get k).toList := by
  cases h : m.get k with
  | none =>
    have hnil : (m.entries.filter fun e ↦ e.1 = k) = [] :=
      List.filter_eq_nil_iff.mpr fun e he hk ↦
        get_eq_none.mp h (of_decide_eq_true hk ▸ List.mem_map_of_mem he)
    rw [hnil]
    rfl
  | some v =>
    have hperm := (entries_perm_of_get h).filter fun e ↦ e.1 = k
    have hrest : ((m.delete k).entries.filter fun e ↦ e.1 = k) = [] :=
      List.filter_eq_nil_iff.mpr fun e he hk ↦
        absurd (of_decide_eq_true hk) (of_decide_eq_true (List.mem_filter.mp he).2)
    rw [List.filter_cons_of_pos (by simp), hrest] at hperm
    rw [List.perm_singleton.mp hperm]
    rfl

theorem size_eq_one {m : OrderedMap κ α} {k : κ} {v : α} (hsize : m.size = 1)
    (h : m.get k = some v) : m.entries = [(k, v)] := by
  obtain ⟨e, he⟩ := List.length_eq_one_iff.mp hsize
  have hmem := get_eq_some.mp h
  rw [he, List.mem_singleton] at hmem
  rw [he, hmem]

end OrderedMap

end Awen
