import Mathlib

/-!
# Strings of UTF-16 code units, and UTF-8

A string is a list of UTF-16 code units, with or without lone surrogates. `codePoints` reads it as
code points, `utf16` writes a code point, and `flatMap_codePoints` says that nothing is lost.
`encodeUtf8` and `decodeUtf8` are the encoder and the decoder of the web platform: the encoder
writes U+FFFD for a lone surrogate, and the decoder is the machine that reads U+FFFD from bytes that
are no UTF-8. On well-formed strings the decoder inverts the encoder, piece by piece.
-/

namespace Awen

/-- A string as its UTF-16 code units. -/
abbrev CodeUnits := List UInt16

instance : LawfulBEq CodeUnits := inferInstanceAs (LawfulBEq (List UInt16))

/-- A condition on the units of a list is decided along the list, not over all units. -/
instance (priority := 1100) decidableForallMemUnit {p : UInt16 → Prop} [DecidablePred p]
    (l : List UInt16) : Decidable (∀ u ∈ l, p u) := List.decidableBAll p l

instance (priority := 1100) decidableExistsMemUnit {p : UInt16 → Prop} [DecidablePred p]
    (l : List UInt16) : Decidable (∃ u ∈ l, p u) := List.decidableBEx p l

/-! ## Code points -/

def isHighSurrogate (u : UInt16) : Bool := decide (0xd800 ≤ u.toNat ∧ u.toNat ≤ 0xdbff)

def isLowSurrogate (u : UInt16) : Bool := decide (0xdc00 ≤ u.toNat ∧ u.toNat ≤ 0xdfff)

theorem isLowSurrogate_of_isHighSurrogate {u : UInt16} (h : isHighSurrogate u = true) :
    isLowSurrogate u = false := by
  rw [isHighSurrogate, decide_eq_true_eq] at h
  exact decide_eq_false (by omega)

theorem isHighSurrogate_of_isLowSurrogate {u : UInt16} (h : isLowSurrogate u = true) :
    isHighSurrogate u = false := by
  rw [isLowSurrogate, decide_eq_true_eq] at h
  exact decide_eq_false (by omega)

/-- The code point of a surrogate pair. -/
def pairCodePoint (high low : UInt16) : ℕ :=
  0x10000 + (high.toNat - 0xd800) * 0x400 + (low.toNat - 0xdc00)

/-- The code points of a string. A surrogate without its partner is one of its own. -/
def codePoints : CodeUnits → List ℕ
  | [] => []
  | [u] => [u.toNat]
  | u :: v :: s =>
    if isHighSurrogate u && isLowSurrogate v then pairCodePoint u v :: codePoints s
    else u.toNat :: codePoints (v :: s)

/-- The code units of a code point. -/
def utf16 (p : ℕ) : CodeUnits :=
  if p ≤ 0xffff then [UInt16.ofNat p]
  else [UInt16.ofNat (0xd800 + (p - 0x10000) / 0x400),
    UInt16.ofNat (0xdc00 + (p - 0x10000) % 0x400)]

/-- The code units of a string. -/
def unitsOf (text : String) : CodeUnits := text.toList.flatMap fun c ↦ utf16 c.toNat

/-- How many code units a code point has. -/
def utf16Size (p : ℕ) : ℕ := if p ≤ 0xffff then 1 else 2

@[simp] theorem length_utf16 (p : ℕ) : (utf16 p).length = utf16Size p := by
  rw [utf16, utf16Size]
  split <;> rfl

theorem utf16Size_pos (p : ℕ) : 0 < utf16Size p := by
  rw [utf16Size]
  split <;> decide

@[simp] theorem utf16_toNat (u : UInt16) : utf16 u.toNat = [u] := by
  have hu : u.toNat ≤ 0xffff := by have := u.toNat_lt; omega
  rw [utf16, if_pos hu, UInt16.ofNat_toNat]

theorem lt_pairCodePoint (u v : UInt16) : 0xffff < pairCodePoint u v := by
  unfold pairCodePoint
  omega

theorem utf16_pairCodePoint {u v : UInt16} (hu : isHighSurrogate u = true)
    (hv : isLowSurrogate v = true) : utf16 (pairCodePoint u v) = [u, v] := by
  rw [isHighSurrogate, decide_eq_true_eq] at hu
  rw [isLowSurrogate, decide_eq_true_eq] at hv
  have hhigh : 0xd800 + (pairCodePoint u v - 0x10000) / 0x400 = u.toNat := by
    unfold pairCodePoint
    omega
  have hlow : 0xdc00 + (pairCodePoint u v - 0x10000) % 0x400 = v.toNat := by
    unfold pairCodePoint
    omega
  rw [utf16, if_neg (Nat.not_le.mpr (lt_pairCodePoint u v)), hhigh, hlow, UInt16.ofNat_toNat,
    UInt16.ofNat_toNat]

/-- **The code points of a string make up the string.** -/
@[simp] theorem flatMap_codePoints (s : CodeUnits) : (codePoints s).flatMap utf16 = s := by
  induction s using codePoints.induct with
  | case1 => rfl
  | case2 u => simp [codePoints]
  | case3 u v s hpair ih =>
    rw [Bool.and_eq_true] at hpair
    rw [codePoints, if_pos (by simp [hpair]), List.flatMap_cons, ih,
      utf16_pairCodePoint hpair.1 hpair.2]
    rfl
  | case4 u v s hpair ih =>
    rw [codePoints, if_neg hpair, List.flatMap_cons, ih, utf16_toNat]
    rfl

theorem codePoints_injective : Function.Injective codePoints := fun s t h ↦ by
  rw [← flatMap_codePoints s, h, flatMap_codePoints]

@[simp] theorem codePoints_eq_nil {s : CodeUnits} : codePoints s = [] ↔ s = [] :=
  ⟨fun h ↦ codePoints_injective h, fun h ↦ h ▸ rfl⟩

/-- The first code point of a string: `codePointAt(0)`. -/
def headCodePoint : CodeUnits → Option ℕ
  | [] => none
  | [u] => some u.toNat
  | u :: v :: _ =>
    some (if isHighSurrogate u && isLowSurrogate v then pairCodePoint u v else u.toNat)

theorem headCodePoint_eq (s : CodeUnits) : headCodePoint s = (codePoints s).head? := by
  fun_cases codePoints s <;> simp_all [headCodePoint]

/-- Dropping the first code point. -/
theorem codePoints_drop {s : CodeUnits} {p : ℕ} {ps : List ℕ} (h : codePoints s = p :: ps) :
    codePoints (s.drop (utf16Size p)) = ps := by
  have hsize (u : UInt16) : utf16Size u.toNat = 1 :=
    if_pos (by have := u.toNat_lt; omega)
  fun_cases codePoints s with
  | case1 => cases h
  | case2 u =>
    obtain ⟨rfl, rfl⟩ := List.cons.inj h
    rw [hsize]
    rfl
  | case3 u v s hpair =>
    rw [codePoints, if_pos hpair] at h
    obtain ⟨rfl, rfl⟩ := List.cons.inj h
    rw [utf16Size, if_neg (Nat.not_le.mpr (lt_pairCodePoint u v))]
    rfl
  | case4 u v s hpair =>
    rw [codePoints, if_neg hpair] at h
    obtain ⟨rfl, rfl⟩ := List.cons.inj h
    rw [hsize]
    rfl

/-! ## Appending -/

/-- A surrogate pair would straddle the seam. -/
def Straddles (s t : CodeUnits) : Prop :=
  s.getLast?.any isHighSurrogate = true ∧ t.head?.any isLowSurrogate = true

theorem codePoints_append {s t : CodeUnits} (h : ¬Straddles s t) :
    codePoints (s ++ t) = codePoints s ++ codePoints t := by
  induction s using codePoints.induct with
  | case1 => rfl
  | case2 u =>
    cases t with
    | nil => rfl
    | cons v t =>
      have hpair : ¬(isHighSurrogate u && isLowSurrogate v) = true := by
        simpa [Straddles] using h
      rw [List.singleton_append, codePoints.eq_3, if_neg hpair]
      rfl
  | case3 u v s hpair ih =>
    rw [List.cons_append, List.cons_append, codePoints, if_pos hpair, codePoints, if_pos hpair]
    refine congrArg _ (ih fun hs ↦ h ⟨?_, hs.2⟩)
    cases s with
    | nil => simp [Straddles] at hs
    | cons w s => simpa using hs.1
  | case4 u v s hpair ih =>
    rw [List.cons_append, List.cons_append, codePoints, if_neg hpair, codePoints, if_neg hpair]
    exact congrArg _ (ih fun hs ↦ h ⟨by simpa using hs.1, hs.2⟩)

/-- **A string may be split between its code points.** -/
theorem codePoints_split {s : CodeUnits} {ps qs : List ℕ} (h : codePoints s = ps ++ qs) :
    codePoints (ps.flatMap utf16) = ps ∧ codePoints (qs.flatMap utf16) = qs := by
  induction ps generalizing s with
  | nil =>
    have hs : qs.flatMap utf16 = s := by
      rw [← flatMap_codePoints s, h, List.nil_append]
    exact ⟨rfl, hs ▸ h⟩
  | cons p ps ih =>
    have hdrop : codePoints (s.drop (utf16Size p)) = ps ++ qs := codePoints_drop h
    obtain ⟨hps, hqs⟩ := ih hdrop
    refine ⟨?_, hqs⟩
    have hrest : (ps ++ qs).flatMap utf16 = s.drop (utf16Size p) := by
      rw [← hdrop, flatMap_codePoints]
    rw [List.flatMap_append] at hrest
    rw [List.flatMap_cons]
    fun_cases codePoints s with
    | case1 => cases h
    | case2 u =>
      obtain ⟨rfl, hnil⟩ := List.cons.inj h
      obtain ⟨rfl, -⟩ := List.append_eq_nil_iff.mp hnil.symm
      rw [utf16_toNat]
      rfl
    | case3 u v s hpair =>
      rw [codePoints, if_pos hpair] at h
      obtain ⟨rfl, -⟩ := List.cons.inj h
      rw [Bool.and_eq_true] at hpair
      rw [utf16_pairCodePoint hpair.1 hpair.2, List.cons_append, List.cons_append, List.nil_append,
        codePoints, if_pos (by simp [hpair]), hps]
    | case4 u v s hpair =>
      rw [codePoints, if_neg hpair] at h
      obtain ⟨rfl, -⟩ := List.cons.inj h
      rw [utf16_toNat, List.singleton_append]
      cases ht : ps.flatMap utf16 with
      | nil =>
        rw [ht] at hps
        rw [← hps]
        rfl
      | cons w t =>
        have hsize : utf16Size u.toNat = 1 := if_pos (by have := u.toNat_lt; omega)
        rw [ht, hsize] at hrest
        obtain ⟨rfl, -⟩ := List.cons.inj hrest
        rw [codePoints, if_neg hpair, ← ht, hps]

theorem codePoints_right {s t : CodeUnits} {qs : List ℕ}
    (h : codePoints (s ++ t) = codePoints s ++ qs) : codePoints t = qs := by
  have ht := congrArg (List.flatMap utf16) h
  rw [flatMap_codePoints, List.flatMap_append, flatMap_codePoints] at ht
  rw [List.append_cancel_left ht]
  exact (codePoints_split h).2

theorem codePoints_left {s t : CodeUnits} {ps : List ℕ}
    (h : codePoints (s ++ t) = ps ++ codePoints t) : codePoints s = ps := by
  have hs := congrArg (List.flatMap utf16) h
  rw [flatMap_codePoints, List.flatMap_append, flatMap_codePoints] at hs
  rw [List.append_cancel_right hs]
  exact (codePoints_split h).1

theorem count_codePoints {u : UInt16} (hhigh : isHighSurrogate u = false)
    (hlow : isLowSurrogate u = false) (s : CodeUnits) :
    (codePoints s).count u.toNat = s.count u := by
  induction s using codePoints.induct with
  | case1 => rfl
  | case2 v => simp [codePoints, List.count_singleton, UInt16.toNat_inj]
  | case3 v w s hpair ih =>
    rw [Bool.and_eq_true] at hpair
    have hv : v ≠ u := fun h ↦ by simp [h, hhigh] at hpair
    have hw : w ≠ u := fun h ↦ by simp [h, hlow] at hpair
    have hp : pairCodePoint v w ≠ u.toNat := by
      have := lt_pairCodePoint v w
      have := u.toNat_lt
      omega
    rw [codePoints, if_pos (by simp [hpair]), List.count_cons_of_ne hp, ih,
      List.count_cons_of_ne hv, List.count_cons_of_ne hw]
  | case4 v w s hpair ih =>
    rw [codePoints, if_neg hpair, List.count_cons, ih]
    simp [List.count_cons, UInt16.toNat_inj]

/-- The last code point of a string is a unit that is no surrogate if the last unit is. -/
theorem getLast?_codePoints {u : UInt16} (hlow : isLowSurrogate u = false) (s : CodeUnits) :
    (codePoints s).getLast? = some u.toNat ↔ s.getLast? = some u := by
  induction s using codePoints.induct with
  | case1 => simp [codePoints]
  | case2 v => simp [codePoints, UInt16.toNat_inj]
  | case3 v w s hpair ih =>
    rw [codePoints, if_pos hpair]
    rw [Bool.and_eq_true] at hpair
    cases s with
    | nil =>
      have hp : pairCodePoint v w ≠ u.toNat := by
        have := lt_pairCodePoint v w
        have := u.toNat_lt
        omega
      have hw : w ≠ u := fun h ↦ by simp [h, hlow] at hpair
      simp [codePoints, hp, hw]
    | cons x s =>
      have hne : codePoints (x :: s) ≠ [] := mt codePoints_eq_nil.mp (List.cons_ne_nil _ _)
      rw [List.getLast?_cons_cons, List.getLast?_cons_cons, ← ih, List.getLast?_cons]
      cases hlast : (codePoints (x :: s)).getLast? with
      | none => exact absurd (List.getLast?_eq_none_iff.mp hlast) hne
      | some q => rfl
  | case4 v w s hpair ih =>
    have hne : codePoints (w :: s) ≠ [] := mt codePoints_eq_nil.mp (List.cons_ne_nil _ _)
    rw [codePoints, if_neg hpair, List.getLast?_cons_cons, ← ih, List.getLast?_cons]
    cases hlast : (codePoints (w :: s)).getLast? with
    | none => exact absurd (List.getLast?_eq_none_iff.mp hlast) hne
    | some q => rfl

/-! ## Well-formed strings -/

/-- A code point that is no surrogate. -/
def IsScalar (p : ℕ) : Prop := p < 0xd800 ∨ 0xe000 ≤ p ∧ p < 0x110000

instance (p : ℕ) : Decidable (IsScalar p) := inferInstanceAs (Decidable (_ ∨ _))

/-- A string without lone surrogates. -/
def IsWellFormed (s : CodeUnits) : Prop := ∀ p ∈ codePoints s, IsScalar p

instance (s : CodeUnits) : Decidable (IsWellFormed s) := inferInstanceAs (Decidable (∀ p ∈ _, _))

theorem codePoints_utf16_append {p : ℕ} (hp : IsScalar p) (s : CodeUnits) :
    codePoints (utf16 p ++ s) = p :: codePoints s := by
  by_cases hsmall : p ≤ 0xffff
  · have hu : (UInt16.ofNat p).toNat = p := by
      rw [UInt16.toNat_ofNat']
      exact Nat.mod_eq_of_lt (by omega)
    have hhigh : isHighSurrogate (UInt16.ofNat p) = false := by
      rw [isHighSurrogate, hu, decide_eq_false_iff_not]
      unfold IsScalar at hp
      omega
    rw [utf16, if_pos hsmall, codePoints_append (by simp [Straddles, hhigh]), codePoints, hu]
    rfl
  · unfold IsScalar at hp
    have hhigh : (UInt16.ofNat (0xd800 + (p - 0x10000) / 0x400)).toNat =
        0xd800 + (p - 0x10000) / 0x400 := by
      rw [UInt16.toNat_ofNat']
      exact Nat.mod_eq_of_lt (by omega)
    have hlow : (UInt16.ofNat (0xdc00 + (p - 0x10000) % 0x400)).toNat =
        0xdc00 + (p - 0x10000) % 0x400 := by
      rw [UInt16.toNat_ofNat']
      exact Nat.mod_eq_of_lt (by omega)
    have hpair : (isHighSurrogate (UInt16.ofNat (0xd800 + (p - 0x10000) / 0x400)) &&
        isLowSurrogate (UInt16.ofNat (0xdc00 + (p - 0x10000) % 0x400))) = true := by
      rw [isHighSurrogate, isLowSurrogate, hhigh, hlow, Bool.and_eq_true, decide_eq_true_eq,
        decide_eq_true_eq]
      omega
    have hsame : pairCodePoint (UInt16.ofNat (0xd800 + (p - 0x10000) / 0x400))
        (UInt16.ofNat (0xdc00 + (p - 0x10000) % 0x400)) = p := by
      unfold pairCodePoint
      rw [hhigh, hlow]
      omega
    rw [utf16, if_neg hsmall, List.cons_append, List.cons_append, codePoints, if_pos hpair, hsame]
    rfl

/-- **Scalar values are written and read.** -/
theorem codePoints_flatMap_utf16 {ps : List ℕ} (h : ∀ p ∈ ps, IsScalar p) :
    codePoints (ps.flatMap utf16) = ps := by
  induction ps with
  | nil => rfl
  | cons p ps ih =>
    rw [List.flatMap_cons, codePoints_utf16_append (h p List.mem_cons_self),
      ih fun q hq ↦ h q (List.mem_cons_of_mem _ hq)]

theorem wellFormed_flatMap_utf16 {ps : List ℕ} (h : ∀ p ∈ ps, IsScalar p) :
    IsWellFormed (ps.flatMap utf16) := by
  rw [IsWellFormed, codePoints_flatMap_utf16 h]
  exact h

theorem wellFormed_nil : IsWellFormed [] := List.forall_mem_nil _

@[simp] theorem codePoints_utf16 {p : ℕ} (hp : IsScalar p) : codePoints (utf16 p) = [p] := by
  simpa [codePoints] using codePoints_utf16_append hp []

/-- A well-formed string that is not empty, cut behind its first code point. -/
theorem IsWellFormed.exists_eq_append {s : CodeUnits} (hs : IsWellFormed s) {p : ℕ}
    (hp : headCodePoint s = some p) :
    ∃ t, s = utf16 p ++ t ∧ IsScalar p ∧ IsWellFormed t := by
  rw [headCodePoint_eq] at hp
  obtain ⟨ps, hps⟩ := List.head?_eq_some_iff.mp hp
  have hall : ∀ q ∈ p :: ps, IsScalar q := hps ▸ hs
  refine ⟨ps.flatMap utf16, ?_, hall p List.mem_cons_self,
    wellFormed_flatMap_utf16 fun q hq ↦ hall q (List.mem_cons_of_mem _ hq)⟩
  rw [← List.flatMap_cons, ← hps, flatMap_codePoints]

theorem IsWellFormed.codePoints_append {s t : CodeUnits} (hs : IsWellFormed s)
    (ht : IsWellFormed t) :
    codePoints (s ++ t) = codePoints s ++ codePoints t := by
  have hall : ∀ p ∈ codePoints s ++ codePoints t, IsScalar p := fun p hp ↦
    (List.mem_append.mp hp).elim (hs p) (ht p)
  conv_lhs => rw [← flatMap_codePoints s, ← flatMap_codePoints t, ← List.flatMap_append,
    codePoints_flatMap_utf16 hall]

theorem IsWellFormed.append {s t : CodeUnits} (hs : IsWellFormed s) (ht : IsWellFormed t) :
    IsWellFormed (s ++ t) := by
  rw [IsWellFormed, hs.codePoints_append ht]
  exact fun p hp ↦ (List.mem_append.mp hp).elim (hs p) (ht p)

/-! ## UTF-8 -/

/-- How many bytes a code point has in UTF-8. -/
def utf8Size (p : ℕ) : ℕ :=
  if p ≤ 0x7f then 1 else if p ≤ 0x7ff then 2 else if p ≤ 0xffff then 3 else 4

/-- The bytes of a scalar value. -/
def scalarUtf8 (p : ℕ) : List ℕ :=
  if p ≤ 0x7f then [p]
  else if p ≤ 0x7ff then [0xc0 + p / 0x40, 0x80 + p % 0x40]
  else if p ≤ 0xffff then [0xe0 + p / 0x1000, 0x80 + p / 0x40 % 0x40, 0x80 + p % 0x40]
  else [0xf0 + p / 0x40000, 0x80 + p / 0x1000 % 0x40, 0x80 + p / 0x40 % 0x40, 0x80 + p % 0x40]

/-- The bytes of a code point. A lone surrogate is written as U+FFFD. -/
def utf8 (p : ℕ) : List ℕ := scalarUtf8 (if IsScalar p then p else 0xfffd)

/-- `TextEncoder.encode`. -/
def encodeUtf8 (s : CodeUnits) : List ℕ := (codePoints s).flatMap utf8

/-- The length of a string in UTF-8. -/
def byteLength (s : CodeUnits) : ℕ := ((codePoints s).map utf8Size).sum

theorem utf8Size_pos (p : ℕ) : 0 < utf8Size p := by
  unfold utf8Size
  split_ifs <;> decide

theorem length_scalarUtf8 (p : ℕ) : (scalarUtf8 p).length = utf8Size p := by
  unfold scalarUtf8 utf8Size
  split_ifs <;> rfl

theorem utf8_of_isScalar {p : ℕ} (hp : IsScalar p) : utf8 p = scalarUtf8 p := by
  rw [utf8, if_pos hp]

@[simp] theorem byteLength_nil : byteLength [] = 0 := rfl

theorem length_encodeUtf8 {s : CodeUnits} (hs : IsWellFormed s) :
    (encodeUtf8 s).length = byteLength s := by
  rw [encodeUtf8, List.length_flatMap, byteLength]
  refine congrArg _ (List.map_congr_left fun p hp ↦ ?_)
  rw [utf8_of_isScalar (hs p hp), length_scalarUtf8]

theorem byteLength_utf16 {p : ℕ} (hp : IsScalar p) : byteLength (utf16 p) = utf8Size p := by
  rw [byteLength, codePoints_utf16 hp]
  exact List.sum_singleton

theorem IsWellFormed.byteLength_append {s t : CodeUnits} (hs : IsWellFormed s)
    (ht : IsWellFormed t) :
    byteLength (s ++ t) = byteLength s + byteLength t := by
  rw [byteLength, hs.codePoints_append ht, List.map_append, List.sum_append]
  rfl

/-- A byte that does not begin a code point. -/
def isContinuation (byte : ℕ) : Bool := byte &&& 0xc0 == 0x80

theorem isContinuation_iff {byte : ℕ} (h : byte < 256) :
    isContinuation byte = true ↔ 0x80 ≤ byte ∧ byte ≤ 0xbf := by
  revert byte
  decide +kernel

/-- The first byte of a code point is no continuation, and the others are. -/
theorem scalarUtf8_eq_cons {p : ℕ} (hp : IsScalar p) :
    ∃ byte rest, scalarUtf8 p = byte :: rest ∧ isContinuation byte = false ∧
      ∀ b ∈ rest, isContinuation b = true := by
  have hfirst {byte : ℕ} (hlt : byte < 256) (h : byte < 0x80 ∨ 0xbf < byte) :
      isContinuation byte = false := by
    rw [Bool.eq_false_iff, Ne, isContinuation_iff hlt]
    omega
  have hrest (n : ℕ) : isContinuation (0x80 + n % 0x40) = true := by
    rw [isContinuation_iff (by omega)]
    omega
  unfold IsScalar at hp
  unfold scalarUtf8
  split_ifs with h₁ h₂ h₃
  · exact ⟨_, _, rfl, hfirst (by omega) (by omega), by simp⟩
  · exact ⟨_, _, rfl, hfirst (by omega) (by omega), by simp [hrest]⟩
  · exact ⟨_, _, rfl, hfirst (by omega) (by omega), by simp [hrest]⟩
  · exact ⟨_, _, rfl, hfirst (by omega) (by omega), by simp [hrest]⟩

/-! ## The decoder -/

/-- The decoder between two bytes: how many bytes the code point still needs, the bounds of the next
one, and the bits so far. -/
structure Utf8Decoder where
  needed : ℕ := 0
  lower : ℕ := 0x80
  upper : ℕ := 0xbf
  codePoint : ℕ := 0
  deriving DecidableEq

/-- The first byte of a code point. -/
def decodeFirst (byte : ℕ) : List ℕ × Utf8Decoder :=
  if byte ≤ 0x7f then ([byte], {})
  else if 0xc2 ≤ byte ∧ byte ≤ 0xdf then ([], { needed := 1, codePoint := byte - 0xc0 })
  else if 0xe0 ≤ byte ∧ byte ≤ 0xef then
    ([], { needed := 2
           lower := if byte = 0xe0 then 0xa0 else 0x80
           upper := if byte = 0xed then 0x9f else 0xbf
           codePoint := byte - 0xe0 })
  else if 0xf0 ≤ byte ∧ byte ≤ 0xf4 then
    ([], { needed := 3
           lower := if byte = 0xf0 then 0x90 else 0x80
           upper := if byte = 0xf4 then 0x8f else 0xbf
           codePoint := byte - 0xf0 })
  else ([0xfffd], {})

/-- One byte. One that does not continue a code point ends it with U+FFFD and is read anew. -/
def Utf8Decoder.step (decoder : Utf8Decoder) (byte : ℕ) : List ℕ × Utf8Decoder :=
  match decoder.needed with
  | 0 => decodeFirst byte
  | needed + 1 =>
    if decoder.lower ≤ byte ∧ byte ≤ decoder.upper then
      let codePoint := decoder.codePoint * 0x40 + (byte - 0x80)
      if needed = 0 then ([codePoint], {}) else ([], { needed, codePoint })
    else (0xfffd :: (decodeFirst byte).1, (decodeFirst byte).2)

def Utf8Decoder.run (decoder : Utf8Decoder) : List ℕ → List ℕ
  | [] => if decoder.needed = 0 then [] else [0xfffd]
  | byte :: bytes => (decoder.step byte).1 ++ (decoder.step byte).2.run bytes

/-- `TextDecoder.decode`, which keeps a byte order mark. -/
def decodeUtf8 (bytes : List ℕ) : CodeUnits := (Utf8Decoder.run {} bytes).flatMap utf16

theorem Utf8Decoder.run_cons (decoder : Utf8Decoder) (byte : ℕ) (bytes : List ℕ) :
    decoder.run (byte :: bytes) = (decoder.step byte).1 ++ (decoder.step byte).2.run bytes := rfl

/-- A byte within the bounds continues a code point. -/
theorem Utf8Decoder.step_of_le {decoder : Utf8Decoder} {needed byte : ℕ}
    (hneeded : decoder.needed = needed + 1) (hlower : decoder.lower ≤ byte)
    (hupper : byte ≤ decoder.upper) :
    decoder.step byte =
      if needed = 0 then ([decoder.codePoint * 0x40 + (byte - 0x80)], {})
      else ([], { needed, codePoint := decoder.codePoint * 0x40 + (byte - 0x80) }) := by
  rw [step, hneeded]
  exact if_pos ⟨hlower, hupper⟩

/-- **The decoder reads the bytes of a scalar value.** -/
theorem Utf8Decoder.run_scalarUtf8 {p : ℕ} (hp : IsScalar p) (bytes : List ℕ) :
    Utf8Decoder.run {} (scalarUtf8 p ++ bytes) = p :: Utf8Decoder.run {} bytes := by
  unfold IsScalar at hp
  unfold scalarUtf8
  split_ifs with h₁ h₂ h₃
  · have hstep : Utf8Decoder.step {} p = ([p], {}) := if_pos h₁
    rw [List.singleton_append, run_cons, hstep]
    rfl
  · have hfirst : Utf8Decoder.step {} (0xc0 + p / 0x40) =
        ([], { needed := 1, codePoint := p / 0x40 }) := by
      simp only [step, decodeFirst]
      rw [if_neg (by omega), if_pos (by omega), Nat.add_sub_cancel_left]
    rw [List.cons_append, run_cons, hfirst, List.cons_append, run_cons,
      step_of_le (by rfl) (by simp) (by simp; omega)]
    simp
    omega
  · have hfirst : Utf8Decoder.step {} (0xe0 + p / 0x1000) =
        ([], { needed := 2
               lower := if 0xe0 + p / 0x1000 = 0xe0 then 0xa0 else 0x80
               upper := if 0xe0 + p / 0x1000 = 0xed then 0x9f else 0xbf
               codePoint := p / 0x1000 }) := by
      simp only [step, decodeFirst]
      rw [if_neg (by omega), if_neg (by omega), if_pos (by omega), Nat.add_sub_cancel_left]
    rw [List.cons_append, run_cons, hfirst, List.cons_append, run_cons,
      step_of_le (by rfl) (by dsimp only; split_ifs <;> omega) (by dsimp only; split_ifs <;> omega),
      List.cons_append, if_neg (by decide : ¬1 = 0)]
    dsimp only
    rw [run_cons, step_of_le (by rfl) (by simp) (by simp; omega)]
    simp
    omega
  · have hfirst : Utf8Decoder.step {} (0xf0 + p / 0x40000) =
        ([], { needed := 3
               lower := if 0xf0 + p / 0x40000 = 0xf0 then 0x90 else 0x80
               upper := if 0xf0 + p / 0x40000 = 0xf4 then 0x8f else 0xbf
               codePoint := p / 0x40000 }) := by
      simp only [step, decodeFirst]
      rw [if_neg (by omega), if_neg (by omega), if_neg (by omega), if_pos (by omega),
        Nat.add_sub_cancel_left]
    rw [List.cons_append, run_cons, hfirst, List.cons_append, run_cons,
      step_of_le (by rfl) (by dsimp only; split_ifs <;> omega) (by dsimp only; split_ifs <;> omega),
      List.cons_append, if_neg (by decide : ¬2 = 0)]
    dsimp only
    rw [run_cons, step_of_le (by rfl) (by simp) (by simp; omega), List.cons_append,
      if_neg (by decide : ¬1 = 0)]
    dsimp only
    rw [run_cons, step_of_le (by rfl) (by simp) (by simp; omega)]
    simp
    omega

theorem Utf8Decoder.run_flatMap {ps : List ℕ} (h : ∀ p ∈ ps, IsScalar p) :
    Utf8Decoder.run {} (ps.flatMap scalarUtf8) = ps := by
  induction ps with
  | nil => rfl
  | cons p ps ih =>
    rw [List.flatMap_cons, run_scalarUtf8 (h p List.mem_cons_self),
      ih fun q hq ↦ h q (List.mem_cons_of_mem _ hq)]

theorem encodeUtf8_of_wellFormed {s : CodeUnits} (hs : IsWellFormed s) :
    encodeUtf8 s = (codePoints s).flatMap scalarUtf8 :=
  List.flatMap_congr fun p hp ↦ utf8_of_isScalar (hs p hp)

/-! ## Cutting UTF-8 -/

/-- **A string is cut where a byte begins a code point.** -/
theorem exists_append_of_not_isContinuation {s : CodeUnits} (hs : IsWellFormed s) {n : ℕ}
    (hn : n ≤ (encodeUtf8 s).length)
    (hbyte : (encodeUtf8 s)[n]?.any isContinuation = false) :
    ∃ t u, s = t ++ u ∧ IsWellFormed t ∧ IsWellFormed u ∧ encodeUtf8 t = (encodeUtf8 s).take n ∧
      encodeUtf8 u = (encodeUtf8 s).drop n := by
  suffices h : ∀ ps : List ℕ, (∀ p ∈ ps, IsScalar p) → ∀ n, n ≤ (ps.flatMap scalarUtf8).length →
      (ps.flatMap scalarUtf8)[n]?.any isContinuation = false →
      ∃ qs rs, ps = qs ++ rs ∧ (qs.flatMap scalarUtf8).length = n by
    rw [encodeUtf8_of_wellFormed hs] at hn hbyte ⊢
    obtain ⟨qs, rs, hps, hlength⟩ := h _ hs n hn hbyte
    have hqs : ∀ p ∈ qs, IsScalar p := fun p hp ↦ hs p (hps ▸ List.mem_append_left rs hp)
    have hrs : ∀ p ∈ rs, IsScalar p := fun p hp ↦ hs p (hps ▸ List.mem_append_right qs hp)
    have hencode {ps : List ℕ} (hps : ∀ p ∈ ps, IsScalar p) :
        encodeUtf8 (ps.flatMap utf16) = ps.flatMap scalarUtf8 := by
      rw [encodeUtf8_of_wellFormed (wellFormed_flatMap_utf16 hps), codePoints_flatMap_utf16 hps]
    refine ⟨qs.flatMap utf16, rs.flatMap utf16, ?_, wellFormed_flatMap_utf16 hqs,
      wellFormed_flatMap_utf16 hrs, ?_, ?_⟩
    · rw [← List.flatMap_append, ← hps, flatMap_codePoints]
    · rw [hencode hqs, hps, List.flatMap_append, ← hlength, List.take_left]
    · rw [hencode hrs, hps, List.flatMap_append, ← hlength, List.drop_left]
  intro ps
  induction ps with
  | nil =>
    intro _ n hn _
    exact ⟨[], [], rfl, (Nat.le_zero.mp hn).symm⟩
  | cons p ps ih =>
    intro hps n hn hbyte
    obtain ⟨first, rest, hbytes, -, hrest⟩ := scalarUtf8_eq_cons (hps p List.mem_cons_self)
    rw [List.flatMap_cons] at hn hbyte
    rcases Nat.eq_zero_or_pos n with rfl | hpos
    · exact ⟨[], p :: ps, rfl, rfl⟩
    · -- a byte within the first code point is a continuation
      have hle : (scalarUtf8 p).length ≤ n := by
        by_contra hlt
        rw [List.getElem?_append_left (by omega), hbytes] at hbyte
        obtain ⟨m, rfl⟩ := Nat.exists_eq_add_one.mpr hpos
        rw [hbytes, List.length_cons] at hlt
        rw [List.getElem?_cons_succ, List.getElem?_eq_getElem (by omega)] at hbyte
        exact Bool.false_ne_true (hbyte.symm.trans (hrest _ (List.getElem_mem _)))
      rw [List.getElem?_append_right hle] at hbyte
      rw [List.length_append] at hn
      obtain ⟨qs, rs, hps', hlength⟩ := ih (fun q hq ↦ hps q (List.mem_cons_of_mem _ hq))
        (n - (scalarUtf8 p).length) (by omega) hbyte
      refine ⟨p :: qs, rs, congrArg _ hps', ?_⟩
      rw [List.flatMap_cons, List.length_append, hlength]
      omega

/-- The decoder inverts the encoder. -/
theorem decodeUtf8_encodeUtf8 {s : CodeUnits} (hs : IsWellFormed s) :
    decodeUtf8 (encodeUtf8 s) = s := by
  rw [decodeUtf8, encodeUtf8_of_wellFormed hs, Utf8Decoder.run_flatMap hs, flatMap_codePoints]

/-! ## Lone surrogates -/

/-- A lone surrogate is written as U+FFFD. -/
def toWellFormed (p : ℕ) : ℕ := if IsScalar p then p else 0xfffd

theorem isScalar_toWellFormed (p : ℕ) : IsScalar (toWellFormed p) := by
  unfold toWellFormed
  split
  · assumption
  · decide

theorem isScalar_or_surrogate (s : CodeUnits) :
    ∀ p ∈ codePoints s, IsScalar p ∨ 0xd800 ≤ p ∧ p ≤ 0xdfff := by
  have hunit (u : UInt16) : IsScalar u.toNat ∨ 0xd800 ≤ u.toNat ∧ u.toNat ≤ 0xdfff := by
    have hlt := u.toNat_lt
    unfold IsScalar
    omega
  induction s using codePoints.induct with
  | case1 => exact List.forall_mem_nil _
  | case2 u => exact List.forall_mem_singleton.mpr (hunit u)
  | case3 u v s hpair ih =>
    rw [codePoints, if_pos hpair]
    refine List.forall_mem_cons.mpr ⟨.inl ?_, ih⟩
    rw [Bool.and_eq_true, isHighSurrogate, isLowSurrogate, decide_eq_true_eq,
      decide_eq_true_eq] at hpair
    unfold IsScalar pairCodePoint
    omega
  | case4 u v s hpair ih =>
    rw [codePoints, if_neg hpair]
    exact List.forall_mem_cons.mpr ⟨hunit u, ih⟩

/-- What the decoder makes of what the encoder writes, for any string. -/
theorem decodeUtf8_encodeUtf8_eq (s : CodeUnits) :
    decodeUtf8 (encodeUtf8 s) = ((codePoints s).map toWellFormed).flatMap utf16 := by
  have hencode : encodeUtf8 s = ((codePoints s).map toWellFormed).flatMap scalarUtf8 :=
    (List.flatMap_map toWellFormed scalarUtf8 _).symm
  rw [decodeUtf8, hencode, Utf8Decoder.run_flatMap]
  intro p hp
  obtain ⟨q, -, rfl⟩ := List.mem_map.mp hp
  exact isScalar_toWellFormed q

theorem codePoints_decodeUtf8_encodeUtf8 (s : CodeUnits) :
    codePoints (decodeUtf8 (encodeUtf8 s)) = (codePoints s).map toWellFormed := by
  rw [decodeUtf8_encodeUtf8_eq, codePoints_flatMap_utf16]
  intro p hp
  obtain ⟨q, -, rfl⟩ := List.mem_map.mp hp
  exact isScalar_toWellFormed q

end Awen
