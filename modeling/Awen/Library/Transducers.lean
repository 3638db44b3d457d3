import Mathlib.Data.List.Basic

/-!
# Transducers

A machine that reads one input after the other, writes outputs as it goes and writes what it still
holds at the end. `feed` is what it has written before the end. The outputs do not depend on how the
inputs are cut into pieces: `feed_append` is the law behind every incremental reader, a decoder, a
reader of lines, or a cap on top of them.

The reader of lines is such a machine: it holds the line that has begun. An empty line is not
written.
-/

namespace Awen

/-- A machine with states `σ` that reads `α` and writes `β`. -/
structure Transducer (σ α β : Type*) where
  start : σ
  step : σ → α → List β × σ
  /-- What is written at the end. -/
  flush : σ → List β

namespace Transducer

variable {σ α β : Type*} (T : Transducer σ α β)

/-- What is written for some inputs, and the state behind them. -/
def feed (s : σ) : List α → List β × σ
  | [] => ([], s)
  | a :: inputs =>
    ((T.step s a).1 ++ (feed (T.step s a).2 inputs).1, (feed (T.step s a).2 inputs).2)

/-- What is written for a whole input. -/
def run (inputs : List α) : List β :=
  (T.feed T.start inputs).1 ++ T.flush (T.feed T.start inputs).2

@[simp] theorem feed_nil (s : σ) : T.feed s [] = ([], s) := rfl

theorem feed_cons (s : σ) (a : α) (inputs : List α) :
    T.feed s (a :: inputs) =
      ((T.step s a).1 ++ (T.feed (T.step s a).2 inputs).1, (T.feed (T.step s a).2 inputs).2) := rfl

/-- **A cut does not matter.** -/
theorem feed_append (s : σ) (inputs more : List α) :
    T.feed s (inputs ++ more) =
      ((T.feed s inputs).1 ++ (T.feed (T.feed s inputs).2 more).1,
        (T.feed (T.feed s inputs).2 more).2) := by
  induction inputs generalizing s with
  | nil => rfl
  | cons a inputs ih => rw [List.cons_append, feed_cons, ih, feed_cons, List.append_assoc]

theorem feed_append_fst (s : σ) (inputs more : List α) :
    (T.feed s (inputs ++ more)).1 = (T.feed s inputs).1 ++ (T.feed (T.feed s inputs).2 more).1 := by
  rw [feed_append]

theorem feed_append_snd (s : σ) (inputs more : List α) :
    (T.feed s (inputs ++ more)).2 = (T.feed (T.feed s inputs).2 more).2 := by
  rw [feed_append]

/-- A whole input, cut. -/
theorem run_append (inputs more : List α) :
    T.run (inputs ++ more) = (T.feed T.start inputs).1 ++
      ((T.feed (T.feed T.start inputs).2 more).1 ++
        T.flush (T.feed (T.feed T.start inputs).2 more).2) := by
  rw [run, feed_append, List.append_assoc]

end Transducer

/-! ## Lines -/

section Lines

variable {α : Type*} (isBreak : α → Bool)

/-- The line, unless it is empty. -/
def nonemptyLine (line : List α) : List (List α) := if line.length = 0 then [] else [line]

/-- The reader of the lines between breaks. Its state is the line that has begun. -/
def lineReader : Transducer (List α) α (List α) where
  start := []
  step line a := if isBreak a then (nonemptyLine line, []) else ([], line ++ [a])
  flush line := nonemptyLine line

theorem mem_nonemptyLine {line l : List α} : l ∈ nonemptyLine line ↔ l = line ∧ line ≠ [] := by
  unfold nonemptyLine
  split
  next h => simp [List.eq_nil_of_length_eq_zero h]
  next h => simp [List.ne_nil_of_length_pos (Nat.pos_of_ne_zero h)]

/-- A text without breaks goes on with the line that has begun. -/
theorem feed_lineReader_of_forall {text : List α} (h : ∀ a ∈ text, isBreak a = false)
    (line : List α) : (lineReader isBreak).feed line text = ([], line ++ text) := by
  induction text generalizing line with
  | nil => rw [List.append_nil, Transducer.feed_nil]
  | cons a text ih =>
    obtain ⟨ha, htext⟩ := List.forall_mem_cons.mp h
    have hstep : (lineReader isBreak).step line a = ([], line ++ [a]) := by
      simp only [lineReader, ha]
      rfl
    rw [Transducer.feed_cons, hstep, ih htext, List.nil_append, List.append_assoc]
    rfl

theorem feed_lineReader_cons_of_isBreak {a : α} (ha : isBreak a = true) (line text : List α) :
    (lineReader isBreak).feed line (a :: text) =
      (nonemptyLine line ++ ((lineReader isBreak).feed [] text).1,
        ((lineReader isBreak).feed [] text).2) := by
  have hstep : (lineReader isBreak).step line a = (nonemptyLine line, []) := by
    simp only [lineReader, ha]
    rfl
  rw [Transducer.feed_cons, hstep]

/-- The line that has begun has no break in it. -/
theorem feed_lineReader_snd_forall {line text : List α} (hline : ∀ a ∈ line, isBreak a = false) :
    ∀ a ∈ ((lineReader isBreak).feed line text).2, isBreak a = false := by
  induction text generalizing line with
  | nil => exact hline
  | cons a text ih =>
    cases ha : isBreak a with
    | true =>
      rw [feed_lineReader_cons_of_isBreak isBreak ha]
      exact ih (List.forall_mem_nil _)
    | false =>
      have hstep : (lineReader isBreak).step line a = ([], line ++ [a]) := by
        simp only [lineReader, ha]
        rfl
      rw [Transducer.feed_cons, hstep]
      refine ih fun b hb ↦ ?_
      obtain hb | hb := List.mem_append.mp hb
      · exact hline b hb
      · exact List.mem_singleton.mp hb ▸ ha

/-- **The line that has begun can be read again.** -/
theorem feed_lineReader_resume (text more : List α) :
    (lineReader isBreak).feed [] (((lineReader isBreak).feed [] text).2 ++ more) =
      (lineReader isBreak).feed ((lineReader isBreak).feed [] text).2 more := by
  have hfree := @feed_lineReader_snd_forall _ isBreak [] text (List.forall_mem_nil _)
  rw [Transducer.feed_append, feed_lineReader_of_forall isBreak hfree, List.nil_append,
    List.nil_append]

/-- A line that has begun is no longer than the line that it becomes. -/
theorem length_feed_lineReader_le {n : ℕ} {line text : List α}
    (h : ∀ l ∈ ((lineReader isBreak).feed line text).1 ++
      nonemptyLine ((lineReader isBreak).feed line text).2, l.length ≤ n) : line.length ≤ n := by
  induction text generalizing line with
  | nil =>
    cases line with
    | nil => exact Nat.zero_le n
    | cons a line => exact h _ (mem_nonemptyLine.mpr ⟨rfl, List.cons_ne_nil a line⟩)
  | cons a text ih =>
    cases ha : isBreak a with
    | true =>
      rw [feed_lineReader_cons_of_isBreak isBreak ha, List.append_assoc] at h
      cases line with
      | nil => exact Nat.zero_le n
      | cons b line =>
        exact h _ (List.mem_append_left _ (mem_nonemptyLine.mpr ⟨rfl, List.cons_ne_nil b line⟩))
    | false =>
      have hstep : (lineReader isBreak).step line a = ([], line ++ [a]) := by
        simp only [lineReader, ha]
        rfl
      rw [Transducer.feed_cons, hstep, List.nil_append] at h
      have hle := ih h
      rw [List.length_append] at hle
      exact Nat.le_trans (Nat.le_add_right _ _) hle

end Lines

end Awen
