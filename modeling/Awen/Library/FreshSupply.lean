import Mathlib.Data.Stream.Init
import Mathlib.Data.Set.Insert
import Mathlib.Data.Set.Operations
import Mathlib.Logic.Function.Basic

/-!
# Programs that draw fresh names

A program of type `Supply ι ε α` draws names from an infinite supply, may throw an `ε`, and returns
an `α`. Nothing is assumed about the supply in the program itself: that its names are pairwise
different, and different from the names already in use, is the predicate `FreshFor`.

`Post used m Q` is the total-correctness judgement of the calculus: from every supply fresh for
`used`, the program `m` returns (it does not throw), the names in use grow by names of the supply,
the rest of the supply is fresh for them, and the result satisfies `Q` together with the names now
in use. `Post.foldlM` is the induction over a run.
-/

namespace Awen

/-- Programs over a supply of names of type `ι` that may throw an `ε`. -/
abbrev Supply (ι ε : Type) := StateT (Stream' ι) (Except ε)

namespace Supply

variable {ι ε α β σ : Type}

/-- Draw the next name. -/
def fresh : Supply ι ε ι := fun s ↦ .ok (s.head, s.tail)

/-- The supply repeats no name and holds none of the names in use. -/
structure FreshFor (s : Stream' ι) (used : Set ι) : Prop where
  /-- No name occurs twice. -/
  injective : Function.Injective s.get
  /-- No name is in use. -/
  avoids : ∀ n, s.get n ∉ used

theorem FreshFor.head_not_mem {s : Stream' ι} {used : Set ι} (h : FreshFor s used) :
    s.head ∉ used := h.avoids 0

theorem FreshFor.tail {s : Stream' ι} {used : Set ι} (h : FreshFor s used) :
    FreshFor s.tail (insert s.head used) where
  injective := fun _ _ hmn ↦ Nat.succ_injective (h.injective hmn)
  avoids := fun n hn ↦ (Set.mem_insert_iff.mp hn).elim
    (fun heq ↦ Nat.succ_ne_zero n (h.injective heq)) (h.avoids (n + 1))

/-- Names of the supply `s` came into use, and `s'` is left of it. -/
structure Drawn (s s' : Stream' ι) (used used' : Set ι) : Prop where
  /-- No name goes out of use. -/
  subset : used ⊆ used'
  /-- The new names are from the supply. -/
  names : ∀ x ∈ used', x ∈ used ∨ x ∈ Set.range s.get
  /-- What is left was there before. -/
  rest : ∀ n, s'.get n ∈ Set.range s.get

theorem Drawn.refl (s : Stream' ι) (used : Set ι) : Drawn s s used used :=
  ⟨Set.Subset.rfl, fun _ ↦ Or.inl, fun n ↦ ⟨n, rfl⟩⟩

theorem Drawn.trans {s₁ s₂ s₃ : Stream' ι} {used₁ used₂ used₃ : Set ι}
    (h : Drawn s₁ s₂ used₁ used₂) (h' : Drawn s₂ s₃ used₂ used₃) : Drawn s₁ s₃ used₁ used₃ where
  subset := h.subset.trans h'.subset
  names := fun x hx ↦ (h'.names x hx).elim (h.names x) fun ⟨n, hn⟩ ↦ Or.inr (hn ▸ h.rest n)
  rest := fun n ↦
    let ⟨m, hm⟩ := h'.rest n
    hm ▸ h.rest m

/-- Total correctness from every supply that is fresh for the names in use. -/
def Post (used : Set ι) (m : Supply ι ε α) (Q : α → Set ι → Prop) : Prop :=
  ∀ s, FreshFor s used → ∃ a s' used', m s = .ok (a, s') ∧ Drawn s s' used used' ∧
    FreshFor s' used' ∧ Q a used'

variable {used : Set ι} {Q : α → Set ι → Prop}

theorem Post.mono {m : Supply ι ε α} {R : α → Set ι → Prop} (h : Post used m Q)
    (hQR : ∀ a used', used ⊆ used' → Q a used' → R a used') : Post used m R := by
  intro s hs
  obtain ⟨a, s', used', hm, hdrawn, hs', hQ⟩ := h s hs
  exact ⟨a, s', used', hm, hdrawn, hs', hQR a used' hdrawn.subset hQ⟩

theorem Post.pure {a : α} (h : Q a used) : Post used (Pure.pure a : Supply ι ε α) Q :=
  fun s hs ↦ ⟨a, s, used, rfl, Drawn.refl s used, hs, h⟩

theorem Post.bind {m : Supply ι ε β} {f : β → Supply ι ε α} {P : β → Set ι → Prop}
    (hm : Post used m P) (hf : ∀ b used', used ⊆ used' → P b used' → Post used' (f b) Q) :
    Post used (m >>= f) Q := by
  intro s hs
  obtain ⟨b, s₁, used₁, hb, hdrawn₁, hs₁, hP⟩ := hm s hs
  obtain ⟨a, s₂, used₂, ha, hdrawn₂, hs₂, hQ⟩ := hf b used₁ hdrawn₁.subset hP s₁ hs₁
  refine ⟨a, s₂, used₂, ?_, hdrawn₁.trans hdrawn₂, hs₂, hQ⟩
  change Except.bind (m s) _ = _
  rw [hb]
  exact ha

theorem Post.map {m : Supply ι ε β} {f : β → α} {P : β → Set ι → Prop} (hm : Post used m P)
    (hf : ∀ b used', used ⊆ used' → P b used' → Q (f b) used') : Post used (f <$> m) Q := by
  rw [map_eq_pure_bind]
  exact hm.bind fun b used' hsub hP ↦ Post.pure (hf b used' hsub hP)

theorem Post.fresh {Q : ι → Set ι → Prop} (h : ∀ a, a ∉ used → Q a (insert a used)) :
    Post used (Supply.fresh : Supply ι ε ι) Q := fun s hs ↦
  ⟨s.head, s.tail, insert s.head used, rfl,
    ⟨Set.subset_insert _ _, fun _ hx ↦ (Set.mem_insert_iff.mp hx).elim
      (fun heq ↦ Or.inr ⟨0, heq.symm⟩) Or.inl, fun n ↦ ⟨n + 1, rfl⟩⟩,
    hs.tail, h _ hs.head_not_mem⟩

/-- A computation of `Except` that returns draws no name. -/
theorem Post.ofExcept {m : Except ε α} {a : α} (hm : m = .ok a) (h : Q a used) :
    Post used (liftM m : Supply ι ε α) Q := by
  subst hm
  exact Post.pure h

/-- An invariant kept by every step holds after a whole run. -/
theorem Post.foldlM {I : Set ι → σ → Prop} {step : σ → β → Supply ι ε σ} (l : List β)
    (hstep : ∀ b ∈ l, ∀ used s, I used s → Post used (step s b) fun s' used' ↦ I used' s')
    {s : σ} (h : I used s) : Post used (l.foldlM step s) fun s' used' ↦ I used' s' := by
  induction l generalizing used s with
  | nil => exact Post.pure h
  | cons b l ih =>
    rw [List.foldlM_cons]
    exact (hstep b List.mem_cons_self used s h).bind fun s' used' _ hs' ↦
      ih (fun b' hb' ↦ hstep b' (List.mem_cons_of_mem b hb')) hs'

/-! ## Total correctness from any supply -/

/-- Total correctness from every supply, fresh or not. -/
def Returns (m : Supply ι ε α) (Q : α → Prop) : Prop := ∀ s, ∃ a s', m s = .ok (a, s') ∧ Q a

variable {R : α → Prop}

theorem Returns.mono {m : Supply ι ε α} {R' : α → Prop} (h : Returns m R)
    (hR : ∀ a, R a → R' a) : Returns m R' := fun s ↦
  let ⟨a, s', hm, ha⟩ := h s
  ⟨a, s', hm, hR a ha⟩

/-- What such a program returned. -/
theorem Returns.of_eq {m : Supply ι ε α} {s s' : Stream' ι} {a : α} (h : Returns m R)
    (hm : m s = .ok (a, s')) : R a := by
  obtain ⟨b, s'', hb, hR⟩ := h s
  cases hb.symm.trans hm
  exact hR

theorem Returns.pure {a : α} (h : R a) : Returns (Pure.pure a : Supply ι ε α) R :=
  fun s ↦ ⟨a, s, rfl, h⟩

theorem Returns.fresh {R : ι → Prop} (h : ∀ a, R a) :
    Returns (Supply.fresh : Supply ι ε ι) R := fun s ↦ ⟨s.head, s.tail, rfl, h s.head⟩

theorem Returns.ofExcept {m : Except ε α} {a : α} (hm : m = .ok a) (h : R a) :
    Returns (liftM m : Supply ι ε α) R := by
  subst hm
  exact Returns.pure h

theorem Returns.bind {m : Supply ι ε β} {f : β → Supply ι ε α} {P : β → Prop}
    (hm : Returns m P) (hf : ∀ b, P b → Returns (f b) R) : Returns (m >>= f) R := by
  intro s
  obtain ⟨b, s₁, hb, hP⟩ := hm s
  obtain ⟨a, s₂, ha, hR⟩ := hf b hP s₁
  refine ⟨a, s₂, ?_, hR⟩
  change Except.bind (m s) _ = _
  rw [hb]
  exact ha

theorem Returns.map {m : Supply ι ε β} {f : β → α} {P : β → Prop} (hm : Returns m P)
    (hf : ∀ b, P b → R (f b)) : Returns (f <$> m) R := by
  rw [map_eq_pure_bind]
  exact hm.bind fun b hb ↦ Returns.pure (hf b hb)

/-- A program for each element of a list. -/
theorem Returns.mapM {f : β → Supply ι ε α} {P : β → α → Prop} {l : List β}
    (hf : ∀ b ∈ l, Returns (f b) (P b)) : Returns (l.mapM f) (List.Forall₂ P l) := by
  induction l with
  | nil => exact Returns.pure .nil
  | cons b l ih =>
    rw [List.mapM_cons]
    exact (hf b List.mem_cons_self).bind fun a ha ↦
      (ih fun b' hb' ↦ hf b' (List.mem_cons_of_mem b hb')).bind fun rest hrest ↦
        Returns.pure (.cons ha hrest)

/-- Nothing is caught of a program that does not throw. -/
theorem Returns.tryCatch {m : Supply ι ε α} (h : Returns m R) (f : ε → Supply ι ε α) :
    Returns (MonadExcept.tryCatch m f) R := by
  intro s
  obtain ⟨a, s', hm, ha⟩ := h s
  refine ⟨a, s', ?_, ha⟩
  change Except.tryCatch (m s) (fun e ↦ f e s) = _
  rw [hm]
  rfl

/-! ## Partial correctness -/

/-- Partial correctness from every supply that is fresh for the names in use: the program may throw,
and what it returns satisfies `Q`. -/
def Ensures (used : Set ι) (m : Supply ι ε α) (Q : α → Set ι → Prop) : Prop :=
  ∀ s, FreshFor s used → ∀ a s', m s = .ok (a, s') →
    ∃ used', used ⊆ used' ∧ FreshFor s' used' ∧ Q a used'

variable {used : Set ι} {Q : α → Set ι → Prop}

theorem Post.ensures {m : Supply ι ε α} (h : Post used m Q) : Ensures used m Q := by
  intro s hs a s' hm
  obtain ⟨a', s'', used', hm', hdrawn, hs', hQ⟩ := h s hs
  cases hm'.symm.trans hm
  exact ⟨used', hdrawn.subset, hs', hQ⟩

theorem Ensures.mono {m : Supply ι ε α} {R : α → Set ι → Prop} (h : Ensures used m Q)
    (hQR : ∀ a used', used ⊆ used' → Q a used' → R a used') : Ensures used m R := by
  intro s hs a s' hm
  obtain ⟨used', hsub, hs', hQ⟩ := h s hs a s' hm
  exact ⟨used', hsub, hs', hQR a used' hsub hQ⟩

theorem Ensures.pure {a : α} (h : Q a used) : Ensures used (Pure.pure a : Supply ι ε α) Q :=
  (Post.pure h).ensures

theorem Ensures.bind {m : Supply ι ε β} {f : β → Supply ι ε α} {P : β → Set ι → Prop}
    (hm : Ensures used m P)
    (hf : ∀ b used', used ⊆ used' → P b used' → Ensures used' (f b) Q) :
    Ensures used (m >>= f) Q := by
  intro s hs a s' hrun
  change Except.bind (m s) _ = _ at hrun
  cases hms : m s with
  | error e =>
    rw [hms] at hrun
    cases hrun
  | ok r =>
    obtain ⟨b, s₁⟩ := r
    rw [hms] at hrun
    obtain ⟨used₁, hsub₁, hs₁, hP⟩ := hm s hs b s₁ hms
    obtain ⟨used₂, hsub₂, hs₂, hQ⟩ := hf b used₁ hsub₁ hP s₁ hs₁ a s' hrun
    exact ⟨used₂, hsub₁.trans hsub₂, hs₂, hQ⟩

theorem Ensures.map {m : Supply ι ε β} {f : β → α} {P : β → Set ι → Prop} (hm : Ensures used m P)
    (hf : ∀ b used', used ⊆ used' → P b used' → Q (f b) used') : Ensures used (f <$> m) Q := by
  rw [map_eq_pure_bind]
  exact hm.bind fun b used' hsub hP ↦ Ensures.pure (hf b used' hsub hP)

/-- A computation of `Except` draws no name. -/
theorem Ensures.ofExcept {m : Except ε α} (h : ∀ a, m = .ok a → Q a used) :
    Ensures used (liftM m : Supply ι ε α) Q := by
  cases m with
  | error e =>
    intro s _ a s' hrun
    cases hrun
  | ok a => exact Ensures.pure (h a rfl)

/-- A program that throws. -/
theorem Ensures.throw (e : ε) : Ensures used (MonadExcept.throw e : Supply ι ε α) Q := by
  intro s _ a s' hrun
  cases hrun

/-- Two facts about the result, one of which does not mention the names in use. -/
theorem Ensures.and {m : Supply ι ε α} {R : α → Prop} (h : Ensures used m Q)
    (h' : Ensures used m fun a _ ↦ R a) : Ensures used m fun a used' ↦ Q a used' ∧ R a := by
  intro s hs a s' hm
  obtain ⟨used', hsub, hs', hQ⟩ := h s hs a s' hm
  obtain ⟨-, -, -, hR⟩ := h' s hs a s' hm
  exact ⟨used', hsub, hs', hQ, hR⟩

/-- A program that returns, and what it returns. -/
theorem Post.and {m : Supply ι ε α} {R : α → Prop} (h : Post used m Q)
    (h' : Ensures used m fun a _ ↦ R a) : Post used m fun a used' ↦ Q a used' ∧ R a := by
  intro s hs
  obtain ⟨a, s', used', hm, hdrawn, hs', hQ⟩ := h s hs
  obtain ⟨-, -, -, hR⟩ := h' s hs a s' hm
  exact ⟨a, s', used', hm, hdrawn, hs', hQ, hR⟩

/-- A program for each element of a list. -/
theorem Ensures.mapM {f : β → Supply ι ε α} {R : β → α → Prop} {l : List β}
    (hf : ∀ b ∈ l, ∀ used', used ⊆ used' → Ensures used' (f b) fun a _ ↦ R b a) :
    Ensures used (l.mapM f) fun results _ ↦ ∀ a ∈ results, ∃ b ∈ l, R b a := by
  induction l generalizing used with
  | nil => exact Ensures.pure fun _ ha ↦ absurd ha List.not_mem_nil
  | cons b l ih =>
    rw [List.mapM_cons]
    refine (hf b List.mem_cons_self used Set.Subset.rfl).bind fun a used₁ hsub₁ ha ↦ ?_
    refine (ih fun b' hb' used' hsub ↦ hf b' (List.mem_cons_of_mem b hb') used'
      (hsub₁.trans hsub)).bind fun results used₂ _ hresults ↦ Ensures.pure ?_
    refine List.forall_mem_cons.mpr ⟨⟨b, List.mem_cons_self, ha⟩, fun a' ha' ↦ ?_⟩
    obtain ⟨b', hb', hR⟩ := hresults a' ha'
    exact ⟨b', List.mem_cons_of_mem b hb', hR⟩

/-- A program that draws its names from the supply, if it returns. -/
def Draws (m : Supply ι ε α) : Prop := ∀ used, Ensures used m fun _ _ ↦ True

theorem Draws.pure (a : α) : Draws (Pure.pure a : Supply ι ε α) := fun _ ↦ Ensures.pure trivial

theorem Draws.throw (e : ε) : Draws (MonadExcept.throw e : Supply ι ε α) := fun _ ↦
  Ensures.throw e

theorem Draws.fresh : Draws (Supply.fresh : Supply ι ε ι) := fun _ ↦
  (Post.fresh fun _ _ ↦ trivial).ensures

theorem Draws.bind {m : Supply ι ε β} {f : β → Supply ι ε α} (hm : Draws m)
    (hf : ∀ b, Draws (f b)) : Draws (m >>= f) := fun used ↦
  (hm used).bind fun b used' _ _ ↦ hf b used'

theorem Draws.map {m : Supply ι ε β} (hm : Draws m) (f : β → α) : Draws (f <$> m) := fun used ↦
  (hm used).map fun _ _ _ _ ↦ trivial

theorem Draws.mapM {f : β → Supply ι ε α} (hf : ∀ b, Draws (f b)) (l : List β) :
    Draws (l.mapM f) := by
  induction l with
  | nil => exact Draws.pure []
  | cons b l ih =>
    rw [List.mapM_cons]
    exact (hf b).bind fun _ ↦ ih.bind fun _ ↦ Draws.pure _

theorem Draws.foldlM {step : σ → β → Supply ι ε σ} (hstep : ∀ s b, Draws (step s b)) (l : List β) :
    ∀ s, Draws (l.foldlM step s) := by
  induction l with
  | nil => exact fun s ↦ Draws.pure s
  | cons b l ih =>
    intro s
    rw [List.foldlM_cons]
    exact (hstep s b).bind ih

/-- The result of a program does not matter. -/
theorem Draws.then {m : Supply ι ε β} {f : β → Supply ι ε α} (hm : Draws m)
    (hf : ∀ b used', used ⊆ used' → Ensures used' (f b) Q) : Ensures used (m >>= f) Q :=
  (hm used).bind fun b used' hsub _ ↦ hf b used' hsub

end Supply

end Awen
