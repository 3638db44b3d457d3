import Mathlib.Data.List.Induction
import Awen.Library.OrderedMap

/-!
# Groups of a list

The items of a list grouped by a key, in the order in which the keys come up, as a list of groups
(`groupsBy`) and collected into a map (`collectBy`), and the first item of each key (`firstsBy`).
-/

namespace Awen

variable {α κ : Type*} [DecidableEq κ]

/-- The groups of a list by a key. -/
def groupsBy (key : α → κ) (items : List α) : List (List α) :=
  (items.map key).eraseDups.map fun k ↦ items.filter fun x ↦ key x = k

/-- **The groups of a list are the list.** -/
theorem groupsBy_flatten_perm (key : α → κ) :
    ∀ items : List α, (groupsBy key items).flatten.Perm items
  | [] => .refl _
  | a :: items => by
    set others := items.filter fun x ↦ key x ≠ key a with hothers
    have hlt : others.length < items.length + 1 := Nat.lt_succ_of_le (List.length_filter_le _ _)
    have hkeys : ((a :: items).map key).eraseDups = key a :: (others.map key).eraseDups := by
      rw [List.map_cons, List.eraseDups_cons, hothers, List.filter_map]
      congr 3
      exact List.filter_congr fun x _ ↦ by simp [beq_eq_decide]
    have hgroups : (others.map key).eraseDups.map (fun k ↦
        (a :: items).filter fun x ↦ key x = k) = groupsBy key others := by
      refine List.map_congr_left fun k hk ↦ ?_
      obtain ⟨x, hx, rfl⟩ := List.mem_map.mp (List.mem_eraseDups.mp hk)
      have hne : key x ≠ key a := by simpa using (List.mem_filter.mp hx).2
      rw [List.filter_cons_of_neg (by simpa using hne.symm), hothers, List.filter_filter]
      refine List.filter_congr fun y _ ↦ ?_
      by_cases hy : key y = key x <;> simp [hy, hne]
    rw [groupsBy, hkeys, List.map_cons, List.flatten_cons, hgroups]
    refine ((groupsBy_flatten_perm key others).append_left _).trans ?_
    rw [List.filter_cons_of_pos (by simp), List.cons_append, List.perm_cons, hothers]
    simpa using List.filter_append_perm (fun x ↦ decide (key x = key a)) items
termination_by items => items.length
decreasing_by exact hlt

/-! ## Items by listed keys -/

/-- **An item comes up once for each time its key is listed.** -/
theorem count_flatMap_filter [BEq α] [LawfulBEq α] [BEq κ] [LawfulBEq κ] (key : α → κ)
    (keys : List κ) (items : List α) (a : α) :
    (keys.flatMap fun k ↦ items.filter fun x ↦ key x = k).count a =
      keys.count (key a) * items.count a := by
  induction keys with
  | nil => rw [List.flatMap_nil, List.count_nil, List.count_nil, Nat.zero_mul]
  | cons k keys ih =>
    rw [List.flatMap_cons, List.count_append, ih]
    by_cases hk : key a = k
    · rw [List.count_filter (by simpa using hk), hk, List.count_cons_self, Nat.succ_mul,
        Nat.add_comm]
    · rw [List.count_eq_zero_of_not_mem (by simp [hk]), Nat.zero_add,
        List.count_cons_of_ne (Ne.symm hk)]

/-- **Keys that are listed once** list their items once. -/
theorem flatMap_filter_perm (key : α → κ) {keys : List κ} (hkeys : keys.Nodup)
    (items : List α) :
    (keys.flatMap fun k ↦ items.filter fun x ↦ key x = k).Perm
      (items.filter fun x ↦ key x ∈ keys) := by
  classical
  refine List.perm_iff_count.mpr fun a ↦ ?_
  rw [count_flatMap_filter]
  by_cases hmem : key a ∈ keys
  · rw [List.count_eq_one_of_mem hkeys hmem, Nat.one_mul, List.count_filter (by simpa using hmem)]
  · rw [List.count_eq_zero_of_not_mem hmem, Nat.zero_mul,
      List.count_eq_zero_of_not_mem (by simp [hmem])]

/-! ## Loops over a keyed list -/

/-- **A loop that files its items by a key treats each key by itself.** -/
theorem foldl_at_key {σ τ : Type*} {step : σ → α → σ} {held : σ → κ → τ} {stepAt : τ → α → τ}
    {key : α → κ} (hself : ∀ s x, held (step s x) (key x) = stepAt (held s (key x)) x)
    (hother : ∀ s x k, k ≠ key x → held (step s x) k = held s k) (items : List α) (s : σ) (k : κ) :
    held (items.foldl step s) k = (items.filter fun x ↦ key x = k).foldl stepAt (held s k) := by
  induction items generalizing s with
  | nil => rfl
  | cons x items ih =>
    rw [List.foldl_cons, ih]
    by_cases hk : key x = k
    · subst hk
      rw [hself, List.filter_cons_of_pos (by simp), List.foldl_cons]
    · rw [hother s x k (Ne.symm hk), List.filter_cons_of_neg (by simpa using hk)]

/-! ## Collecting into a map -/

variable {β : Type*}

/-- The values of a list collected under their keys, one after the other. -/
def collectBy (key : α → κ) (value : α → β) (items : List α) : OrderedMap κ (List β) :=
  items.foldl (fun groups x ↦
    groups.set (key x) ((groups.get (key x)).getD [] ++ [value x])) OrderedMap.empty

/-- **What is collected under a key** are the values of the items with that key, in order. -/
theorem getD_get_collectBy (key : α → κ) (value : α → β) (items : List α) (k : κ) :
    ((collectBy key value items).get k).getD []
      = (items.filter fun x ↦ key x = k).map value := by
  induction items using List.reverseRecOn with
  | nil => rfl
  | append_singleton items x ih =>
    have hstep : collectBy key value (items ++ [x]) = (collectBy key value items).set (key x)
        (((collectBy key value items).get (key x)).getD [] ++ [value x]) := by
      rw [collectBy, List.foldl_append]
      rfl
    rw [hstep, List.filter_append, List.map_append, ← ih]
    by_cases hk : key x = k
    · subst hk
      simp
    · rw [OrderedMap.get_set_of_ne fun h ↦ hk h.symm]
      simp [hk]

/-- Nothing is collected under a key that no item has. -/
theorem ne_nil_of_mem_collectBy {key : α → κ} {value : α → β} {items : List α} {values : List β}
    (h : values ∈ (collectBy key value items).values) : values ≠ [] := by
  induction items using List.reverseRecOn with
  | nil => exact absurd h List.not_mem_nil
  | append_singleton items x ih =>
    rw [collectBy, List.foldl_append] at h
    obtain ⟨k, hk⟩ := OrderedMap.mem_values.mp h
    rcases OrderedMap.mem_entries_set.mp hk with ⟨-, rfl⟩ | ⟨hold, -⟩
    · exact List.append_ne_nil_of_right_ne_nil _ (List.cons_ne_nil _ _)
    · exact ih (OrderedMap.mem_values_of_mem hold)

/-- The collected groups are those of the keys that items have. -/
theorem mem_values_collectBy {key : α → κ} {value : α → β} {items : List α} {values : List β} :
    values ∈ (collectBy key value items).values ↔
      ∃ x ∈ items, values = (items.filter fun y ↦ key y = key x).map value := by
  constructor
  · intro h
    have hne := ne_nil_of_mem_collectBy h
    obtain ⟨k, hk⟩ := OrderedMap.mem_values.mp h
    have hvalues := getD_get_collectBy key value items k
    rw [OrderedMap.get_eq_some.mpr hk, Option.getD_some] at hvalues
    obtain ⟨v, hv⟩ := List.exists_mem_of_ne_nil _ hne
    obtain ⟨x, hx, -⟩ := List.mem_map.mp (hvalues ▸ hv)
    obtain ⟨hx, hkey⟩ := List.mem_filter.mp hx
    refine ⟨x, hx, ?_⟩
    rw [hvalues, of_decide_eq_true hkey]
  · rintro ⟨x, hx, rfl⟩
    have hvalues := getD_get_collectBy key value items (key x)
    have hmem : value x ∈ (items.filter fun y ↦ key y = key x).map value :=
      List.mem_map_of_mem (List.mem_filter.mpr ⟨hx, by simp⟩)
    rw [← hvalues] at hmem ⊢
    cases hget : (collectBy key value items).get (key x) with
    | none =>
      rw [hget] at hmem
      exact absurd hmem List.not_mem_nil
    | some values => exact OrderedMap.mem_values_of_mem (OrderedMap.get_eq_some.mp hget)

/-- The keys under which something is collected. -/
theorem mem_keys_collectBy {key : α → κ} {value : α → β} {items : List α} {k : κ} :
    k ∈ (collectBy key value items).keys ↔ ∃ x ∈ items, key x = k := by
  induction items using List.reverseRecOn with
  | nil => simp [collectBy]
  | append_singleton items x ih =>
    rw [collectBy, List.foldl_append, ← collectBy, List.foldl_cons, List.foldl_nil,
      OrderedMap.mem_keys_set, ih]
    constructor
    · rintro (rfl | ⟨y, hy, rfl⟩)
      · exact ⟨x, List.mem_append_right _ List.mem_cons_self, rfl⟩
      · exact ⟨y, List.mem_append_left _ hy, rfl⟩
    · rintro ⟨y, hy, rfl⟩
      rcases List.mem_append.mp hy with hy | hy
      · exact .inr ⟨y, hy, rfl⟩
      · exact .inl (congrArg key (List.mem_singleton.mp hy))

/-- **The entries that are collected**: under each key that items have, the values of these. -/
theorem mem_entries_collectBy {key : α → κ} {value : α → β} {items : List α} {k : κ}
    {values : List β} : (k, values) ∈ (collectBy key value items).entries ↔
      (∃ x ∈ items, key x = k) ∧ values = (items.filter fun x ↦ key x = k).map value := by
  rw [← OrderedMap.get_eq_some, ← @mem_keys_collectBy _ _ _ _ key value,
    ← getD_get_collectBy key value items k, OrderedMap.mem_keys]
  constructor
  · intro h
    rw [h]
    exact ⟨⟨values, rfl⟩, rfl⟩
  · rintro ⟨⟨values', h⟩, rfl⟩
    rw [h, Option.getD_some]

/-- **All that is collected** are the values of the items. -/
theorem flatMap_entries_collectBy_perm (key : α → κ) (value : α → β) (items : List α) :
    ((collectBy key value items).entries.flatMap Prod.snd).Perm (items.map value) := by
  have hentries : (collectBy key value items).entries.flatMap Prod.snd =
      ((collectBy key value items).keys.flatMap fun k ↦ items.filter fun x ↦ key x = k).map
        value := by
    rw [List.map_flatMap, OrderedMap.keys, List.flatMap_map]
    exact List.flatMap_congr fun entry hentry ↦ (mem_entries_collectBy.mp hentry).2
  rw [hentries]
  refine ((flatMap_filter_perm key (OrderedMap.nodup _) items).trans (.of_eq ?_)).map value
  exact List.filter_eq_self.mpr fun x hx ↦ decide_eq_true (mem_keys_collectBy.mpr ⟨x, hx, rfl⟩)

/-! ## First occurrences -/

/-- The items whose key is not among those that are seen, each key once. -/
def firstsBy (key : α → κ) : List κ → List α → List α
  | _, [] => []
  | seen, x :: items =>
    if key x ∈ seen then firstsBy key seen items else x :: firstsBy key (key x :: seen) items

theorem firstsBy_sublist (key : α → κ) (seen : List κ) (items : List α) :
    (firstsBy key seen items).Sublist items := by
  induction items generalizing seen with
  | nil => exact .slnil
  | cons x items ih =>
    rw [firstsBy]
    split
    next => exact (ih seen).cons x
    next => exact (ih _).cons_cons x

theorem key_not_mem_of_mem_firstsBy {key : α → κ} {seen : List κ} {items : List α} {x : α}
    (h : x ∈ firstsBy key seen items) : key x ∉ seen := by
  induction items generalizing seen with
  | nil => exact absurd h List.not_mem_nil
  | cons y items ih =>
    rw [firstsBy] at h
    split at h
    next => exact ih h
    next hy =>
      rcases List.mem_cons.mp h with rfl | h
      · exact hy
      · exact fun hseen ↦ ih h (List.mem_cons_of_mem _ hseen)

/-- **Each key comes up once.** -/
theorem nodup_map_firstsBy (key : α → κ) (seen : List κ) (items : List α) :
    ((firstsBy key seen items).map key).Nodup := by
  induction items generalizing seen with
  | nil => exact List.nodup_nil
  | cons x items ih =>
    rw [firstsBy]
    split
    next => exact ih seen
    next =>
      refine List.nodup_cons.mpr ⟨fun h ↦ ?_, ih _⟩
      obtain ⟨y, hy, hkey⟩ := List.mem_map.mp h
      exact key_not_mem_of_mem_firstsBy hy (hkey ▸ List.mem_cons_self)

/-- **Each key of the items comes up.** -/
theorem exists_mem_firstsBy (key : α → κ) {seen : List κ} {items : List α} {x : α} (hx : x ∈ items)
    (hseen : key x ∉ seen) : ∃ y ∈ firstsBy key seen items, key y = key x := by
  induction items generalizing seen with
  | nil => exact absurd hx List.not_mem_nil
  | cons z items ih =>
    rw [firstsBy]
    by_cases hkey : key x = key z
    · rw [if_neg (hkey ▸ hseen)]
      exact ⟨z, List.mem_cons_self, hkey.symm⟩
    · have hx' : x ∈ items := (List.mem_cons.mp hx).resolve_left fun h ↦ hkey (congrArg key h)
      split
      next => exact ih hx' hseen
      next =>
        have hseen' : key x ∉ key z :: seen := fun h ↦ (List.mem_cons.mp h).elim hkey hseen
        obtain ⟨y, hy, hyx⟩ := ih hx' hseen'
        exact ⟨y, List.mem_cons_of_mem _ hy, hyx⟩

/-! ## Filing into a map -/

section Filing

variable {κ σ : Type*} [BEq κ] [LawfulBEq κ]

theorem nodup_eraseDups : ∀ keys : List κ, keys.eraseDups.Nodup
  | [] => List.nodup_nil
  | a :: keys => by
    rw [List.eraseDups_cons, List.nodup_cons]
    refine ⟨fun h ↦ ?_, nodup_eraseDups _⟩
    rw [List.mem_eraseDups, List.mem_filter] at h
    simp at h
termination_by keys => keys.length
decreasing_by exact Nat.lt_succ_of_le (List.length_filter_le _ _)

theorem eraseDups_append_singleton (keys : List κ) (k : κ) :
    (keys ++ [k]).eraseDups = if k ∈ keys then keys.eraseDups else keys.eraseDups ++ [k] := by
  rw [List.eraseDups_append]
  by_cases hk : k ∈ keys
  · simp [List.removeAll, hk]
  · simp [List.removeAll, hk, List.eraseDups_cons]

theorem lookup_map_pair (keys : List κ) (f : κ → σ) (k : κ) :
    (keys.map fun k ↦ (k, f k)).lookup k = if k ∈ keys then some (f k) else none := by
  induction keys with
  | nil => rfl
  | cons j keys ih =>
    rw [List.map_cons, List.lookup_cons, ih]
    by_cases hk : k = j
    · simp [hk]
    · rw [beq_false_of_ne hk]
      simp [hk]

variable [DecidableEq κ]

theorem setEntries_map_pair {keys : List κ} (hkeys : keys.Nodup) (f : κ → σ) (k : κ) (v : σ) :
    OrderedMap.setEntries k v (keys.map fun k ↦ (k, f k)) =
      (if k ∈ keys then keys else keys ++ [k]).map fun j ↦ (j, if j = k then v else f j) := by
  induction keys with
  | nil => simp [OrderedMap.setEntries]
  | cons j keys ih =>
    obtain ⟨hj, hkeys⟩ := List.nodup_cons.mp hkeys
    rw [List.map_cons, OrderedMap.setEntries]
    by_cases hjk : j = k
    · subst hjk
      rw [if_pos rfl, if_pos List.mem_cons_self, List.map_cons, if_pos rfl]
      refine congrArg _ (List.map_congr_left fun i hi ↦ ?_)
      rw [if_neg fun h : i = j ↦ hj (h ▸ hi)]
    · rw [if_neg hjk, ih hkeys]
      by_cases hk : k ∈ keys
      · rw [if_pos hk, if_pos (List.mem_cons_of_mem _ hk), List.map_cons, if_neg hjk]
      · rw [if_neg hk, if_neg (by simp [hk, Ne.symm hjk]), List.cons_append, List.map_cons,
          if_neg hjk]

/-- **A loop that files its items under their keys** leaves an entry for each key, with what the
items of this key make of its first value. -/
theorem foldl_setEntries (key : α → κ) (first : κ → σ) (update : σ → α → σ) (items : List α) :
    items.foldl (fun entries x ↦ OrderedMap.setEntries (key x)
      (update ((entries.lookup (key x)).getD (first (key x))) x) entries) [] =
      (items.map key).eraseDups.map fun k ↦
        (k, (items.filter fun x ↦ key x = k).foldl update (first k)) := by
  induction items using List.reverseRecOn with
  | nil => rfl
  | append_singleton items x ih =>
    have hmem : key x ∈ (items.map key).eraseDups ↔ key x ∈ items.map key := List.mem_eraseDups
    rw [List.foldl_append, ih, List.foldl_cons, List.foldl_nil, lookup_map_pair,
      setEntries_map_pair (nodup_eraseDups _), List.map_append, List.map_singleton,
      eraseDups_append_singleton, if_congr hmem rfl rfl, if_congr hmem rfl rfl]
    refine List.map_congr_left fun k hk ↦ ?_
    by_cases hkey : k = key x
    · subst hkey
      rw [if_pos rfl, List.filter_append, List.filter_singleton, decide_eq_true rfl, cond_true,
        List.foldl_append, List.foldl_cons, List.foldl_nil]
      refine congrArg (fun value ↦ (key x, update value x)) ?_
      split
      next => rfl
      next hnot =>
        rw [List.filter_eq_nil_iff.mpr fun y hy h ↦ hnot ?_]
        · rfl
        · exact of_decide_eq_true h ▸ List.mem_map_of_mem hy
    · rw [if_neg hkey, List.filter_append, List.filter_singleton,
        decide_eq_false (Ne.symm hkey), cond_false, List.append_nil]

end Filing

end Awen
