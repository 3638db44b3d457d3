import Mathlib.Data.List.Chain
import Mathlib.Data.Option.Basic

/-!
# Logs of versions

A value that comes and goes is published as a log: `some x` whenever it has changed, `none` when it
is gone. A *life* is what lies between two times that it is gone; within a life the versions grow,
and a later life may start over. `Follows` says of such a log that it is in order, and ends at the
present value.
-/

namespace Awen

namespace VersionLog

variable {α : Type*} (life version : α → ℕ)

/-- `b` may stand after `a`: in the same life with a greater version, or in a later life. -/
def Precedes (a b : Option α) : Prop :=
  ∀ x ∈ a, ∀ y ∈ b, life x ≤ life y ∧ (life x = life y → version x < version y)

/-- `b` may stand right after `a`: a new life starts only where the value was gone. -/
def Continues (a b : Option α) : Prop := ∀ x ∈ a, ∀ y ∈ b, life x = life y

/-- **A log in order**, which ends at the present value; `lives` counts the lives that are over. -/
structure Follows (log : List (Option α)) (present : Option α) (lives : ℕ) : Prop where
  ordered : log.Pairwise (Precedes life version)
  adjacent : log.IsChain (Continues life)
  last : log.getLast?.join = present
  presentLife : ∀ x ∈ present, life x = lives
  bounded : ∀ x, some x ∈ log → life x ≤ lives
  past : present = none → ∀ x, some x ∈ log → life x < lives

variable {life version} {log : List (Option α)} {present : Option α} {lives : ℕ}

theorem precedes_none (a : Option α) : Precedes life version a none :=
  fun _ _ _ hy ↦ absurd hy nofun

theorem follows_nil : Follows life version [] none lives :=
  ⟨List.Pairwise.nil, List.isChain_nil, rfl, nofun, fun _ h ↦ absurd h List.not_mem_nil,
    fun _ _ h ↦ absurd h List.not_mem_nil⟩

/-- A log of the present value alone. -/
theorem follows_singleton (h : ∀ x ∈ present, life x = lives) :
    Follows life version [present] present lives := by
  refine ⟨List.pairwise_singleton _ _, List.isChain_singleton _, rfl, h, fun x hx ↦ ?_,
    fun hnone x hx ↦ ?_⟩
  · exact (h x (List.mem_singleton.mp hx).symm).le
  · exact absurd (hnone.symm.trans (List.mem_singleton.mp hx).symm) nofun

/-- The last item of a log is the present value. -/
theorem Follows.eq_present (h : Follows life version log present lives) {a : Option α}
    (ha : a ∈ log.getLast?) : a = present := by
  have hlast := h.last
  rwa [show log.getLast? = some a from ha] at hlast

/-- Whatever is in the log comes before what is published next. -/
theorem Follows.precedes (h : Follows life version log present lives) {y : α}
    (hlife : life y = lives) (hversion : ∀ x ∈ present, version x < version y) {a : Option α}
    (ha : a ∈ log) : Precedes life version a (some y) := by
  rintro x rfl y' hy'
  obtain rfl := Option.some.inj hy'
  refine ⟨hlife ▸ h.bounded x ha, fun heq ↦ ?_⟩
  obtain rfl | ⟨p, rfl⟩ := present.eq_none_or_eq_some
  · exact absurd (heq.trans hlife) (h.past rfl x ha).ne
  · have hp := hversion p rfl
    obtain ⟨before, last, rfl⟩ := (List.eq_nil_or_concat' log).resolve_left
      (List.ne_nil_of_mem ha)
    obtain rfl : last = some p := h.eq_present (by simp)
    rcases List.mem_append.mp ha with hx | hx
    · have hpre := (List.pairwise_append.mp h.ordered).2.2 _ hx _ (List.mem_singleton_self _)
      have hplife := h.presentLife p rfl
      exact ((hpre x rfl p rfl).2 (heq.trans (hlife.trans hplife.symm))).trans hp
    · obtain rfl := Option.some.inj (List.mem_singleton.mp hx)
      exact hp

/-- The value changes, or a new life starts. -/
theorem Follows.concat_some (h : Follows life version log present lives) {y : α}
    (hlife : life y = lives) (hversion : ∀ x ∈ present, version x < version y) :
    Follows life version (log ++ [some y]) (some y) lives where
  ordered := List.pairwise_append.mpr ⟨h.ordered, List.pairwise_singleton _ _, fun a ha b hb ↦
    List.mem_singleton.mp hb ▸ h.precedes hlife hversion ha⟩
  adjacent := by
    refine List.isChain_append.mpr ⟨h.adjacent, List.isChain_singleton _, fun a ha b hb ↦ ?_⟩
    rintro x rfl y' rfl
    obtain rfl : y = y' := by simpa using hb
    rw [hlife]
    exact h.presentLife x (h.eq_present ha).symm
  last := by simp
  presentLife x hx := Option.some.inj hx ▸ hlife
  bounded x hx := by
    rcases List.mem_append.mp hx with hx | hx
    · exact h.bounded x hx
    · exact (Option.some.inj (List.mem_singleton.mp hx) ▸ hlife).le
  past := nofun

/-- The value is gone, and if there was one, its life is over. -/
theorem Follows.concat_none (h : Follows life version log present lives) :
    Follows life version (log ++ [none]) none (if present.isSome then lives + 1 else lives) where
  ordered := List.pairwise_append.mpr ⟨h.ordered, List.pairwise_singleton _ _, fun a _ b hb ↦
    List.mem_singleton.mp hb ▸ precedes_none a⟩
  adjacent := by
    refine List.isChain_append.mpr ⟨h.adjacent, List.isChain_singleton _, fun a _ b hb ↦ ?_⟩
    rintro x _ y rfl
    simp at hb
  last := by simp
  presentLife := nofun
  bounded x hx := by
    have hx : some x ∈ log := by simpa using hx
    split
    · exact (h.bounded x hx).trans (Nat.le_succ _)
    · exact h.bounded x hx
  past _ x hx := by
    have hx : some x ∈ log := by simpa using hx
    split
    · exact Nat.lt_succ_of_le (h.bounded x hx)
    · rename_i hsome
      exact h.past (Option.not_isSome_iff_eq_none.mp hsome) x hx

/-- What comes last in a log. -/
theorem Follows.suffix {later : List (Option α)} (h : Follows life version log present lives)
    (hlater : later <:+ log) (hne : later ≠ []) : Follows life version later present lives where
  ordered := h.ordered.sublist hlater.sublist
  adjacent := h.adjacent.suffix hlater
  last := by
    obtain ⟨before, rfl⟩ := hlater
    rw [← h.last, List.getLast?_append_of_ne_nil _ hne]
  presentLife := h.presentLife
  bounded x hx := h.bounded x (hlater.subset hx)
  past hnone x hx := h.past hnone x (hlater.subset hx)

/-- The next item after the last that was taken is a new version, or a new life. -/
theorem Follows.version_lt {before after : List (Option α)} {x y : α}
    (h : Follows life version (before ++ some x :: some y :: after) present lives) :
    version x < version y := by
  have hlife : life x = life y := by
    have hadjacent := (List.isChain_append.mp h.adjacent).2.1
    exact (List.isChain_cons_cons.mp hadjacent).1 x rfl y rfl
  have hordered := (List.pairwise_append.mp h.ordered).2.1
  exact ((List.pairwise_cons.mp hordered).1 _ List.mem_cons_self x rfl y rfl).2 hlife

/-- Where the value was never gone, all versions are of one life. -/
theorem pairwise_continues (h : log.IsChain (Continues life)) (hnone : none ∉ log) :
    log.Pairwise (Continues life) := by
  induction log with
  | nil => exact List.Pairwise.nil
  | cons a log ih =>
    have htail := ih h.tail fun hmem ↦ hnone (List.mem_cons_of_mem a hmem)
    refine List.pairwise_cons.mpr ⟨fun b hb x hx y hy ↦ ?_, htail⟩
    obtain _ | ⟨c, rest⟩ := log
    · exact absurd hb List.not_mem_nil
    · have hac := (List.isChain_cons_cons.mp h).1
      rcases List.mem_cons.mp hb with rfl | hrest
      · exact hac x hx y hy
      · obtain rfl | ⟨z, rfl⟩ := c.eq_none_or_eq_some
        · exact absurd (List.mem_cons_of_mem a List.mem_cons_self) hnone
        · exact (hac x hx z rfl).trans ((List.pairwise_cons.mp htail).1 b hrest z rfl y hy)

/-- Where the value was never gone, no version is newer than the present one. -/
theorem Follows.version_le (h : Follows life version log present lives) (hnone : none ∉ log) {y : α}
    (hy : some y ∈ log) : ∃ p, present = some p ∧ version y ≤ version p := by
  obtain ⟨before, last, rfl⟩ := (List.eq_nil_or_concat' log).resolve_left (List.ne_nil_of_mem hy)
  have hlast : last = present := h.eq_present (by simp)
  obtain rfl | ⟨p, rfl⟩ := last.eq_none_or_eq_some
  · exact absurd (List.mem_append_right _ List.mem_cons_self) hnone
  refine ⟨p, hlast.symm, ?_⟩
  rcases List.mem_append.mp hy with hy | hy
  · have hpre := (List.pairwise_append.mp h.ordered).2.2 _ hy _ (List.mem_singleton_self _)
    have hlives := (List.pairwise_append.mp (pairwise_continues h.adjacent hnone)).2.2 _ hy _
      (List.mem_singleton_self _)
    exact ((hpre y rfl p rfl).2 (hlives y rfl p rfl)).le
  · rw [Option.some.inj (List.mem_singleton.mp hy)]

end VersionLog

end Awen
