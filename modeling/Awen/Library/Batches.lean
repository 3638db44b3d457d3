import Mathlib.Data.List.Basic

/-!
# Values that are merged into batches

Values come in one after the other and are merged until somebody takes what has come together. That
nothing is lost and nothing counts twice says `Batched`: the values that have come in are those of
the batches that were taken, in order, and of the one that is being put together.
-/

namespace Awen

variable {α : Type*} (merge : α → α → α)

/-- The value that a batch is merged into. -/
def mergeAll : List α → Option α
  | [] => none
  | a :: batch => some (batch.foldl merge a)

theorem mergeAll_concat (batch : List α) (a : α) :
    mergeAll merge (batch ++ [a]) = some ((mergeAll merge batch).elim a (merge · a)) := by
  obtain _ | ⟨b, batch⟩ := batch
  · rfl
  · rw [List.cons_append, mergeAll, List.foldl_append]
    rfl

theorem mergeAll_eq_none {batch : List α} : mergeAll merge batch = none ↔ batch = [] := by
  obtain _ | ⟨b, batch⟩ := batch
  · exact iff_of_true rfl rfl
  · exact iff_of_false nofun (List.cons_ne_nil b batch)

/-- **Every value that has come in is in exactly one batch**, of those that were taken or of the one
that is pending. -/
def Batched (entered taken : List α) (pending : Option α) : Prop :=
  ∃ batches last : List _, (∀ batch ∈ batches, batch ≠ []) ∧ batches.flatten ++ last = entered ∧
    batches.map (mergeAll merge) = taken.map some ∧ mergeAll merge last = pending

variable {merge} {entered taken : List α} {pending : Option α}

theorem batched_nil : Batched merge [] [] none :=
  ⟨[], [], fun _ h ↦ absurd h List.not_mem_nil, rfl, rfl, rfl⟩

/-- A value comes in. -/
theorem Batched.enter (h : Batched merge entered taken pending) (a : α) :
    Batched merge (entered ++ [a]) taken (some (pending.elim a (merge · a))) := by
  obtain ⟨batches, last, hne, rfl, htaken, rfl⟩ := h
  exact ⟨batches, last ++ [a], hne, by rw [List.append_assoc], htaken, mergeAll_concat merge last a⟩

/-- What has come together is taken. -/
theorem Batched.take {a : α} (h : Batched merge entered taken (some a)) :
    Batched merge entered (taken ++ [a]) none := by
  obtain ⟨batches, last, hne, rfl, htaken, hlast⟩ := h
  refine ⟨batches ++ [last], [], fun batch hbatch ↦ ?_, by simp, by simp [htaken, hlast], rfl⟩
  rcases List.mem_append.mp hbatch with hold | hnew
  · exact hne batch hold
  · rw [List.mem_singleton.mp hnew]
    rintro rfl
    exact absurd hlast nofun

/-- Where nothing is pending, every value is in a batch that was taken. -/
theorem Batched.all_taken (h : Batched merge entered taken none) :
    ∃ batches : List (List α), (∀ batch ∈ batches, batch ≠ []) ∧ batches.flatten = entered ∧
      batches.map (mergeAll merge) = taken.map some := by
  obtain ⟨batches, last, hne, hentered, htaken, hlast⟩ := h
  rw [(mergeAll_eq_none merge).mp hlast, List.append_nil] at hentered
  exact ⟨batches, hne, hentered, htaken⟩

end Awen
