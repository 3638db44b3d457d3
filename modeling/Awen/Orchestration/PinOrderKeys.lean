import Mathlib.Algebra.Order.Group.Int
import Awen.Shared.JsRuntime

/-!
# Order keys

The keys by which threads are arranged are fractions in base 26, compared as texts. Between two of
them there is always another one, since a key does not end in the lowest digit: `pinOrderKeyBetween`
finds it, and inserting at any place of a list never gets stuck.
-/

namespace Awen.Orchestration

/-! ## Digits -/

def pinOrderDigits : List Char :=
  ['a', 'b', 'c', 'd', 'e', 'f', 'g', 'h', 'i', 'j', 'k', 'l', 'm', 'n', 'o', 'p', 'q', 'r', 's',
    't', 'u', 'v', 'w', 'x', 'y', 'z']

/-- The character at an index, if there is one. -/
def charAt (s : List Char) (i : ℤ) : List Char :=
  if i < 0 then [] else (s[i.toNat]?).toList

/-- `PIN_ORDER_DIGITS.indexOf`. -/
def pinOrderDigit (c : Char) : ℤ :=
  if c ∈ pinOrderDigits then pinOrderDigits.idxOf c else -1

/-- `left < right` on the characters of texts. -/
def unitsLt (left right : List Char) : Bool :=
  decide (left.flatMap utf16Units < right.flatMap utf16Units)

/-- A key of digits. One that ends in the lowest digit leaves no room right before it. -/
def isValidPinOrderKey (key : List Char) : Bool :=
  decide (key ≠ [] ∧ (∀ c ∈ key, c ∈ pinOrderDigits) ∧ key.getLast? ≠ some 'a')

/-! ## Midpoints -/

/-- The length of the longest common prefix; the lowest digit pads the first text. -/
def commonPrefix : List Char → List Char → ℕ
  | a, y :: b => if a.headD 'a' = y then commonPrefix a.tail b + 1 else 0
  | _, [] => 0

/-- The first digit above an open or closed lower bound, and below an upper one. -/
def lowerDigit (a : List Char) : ℤ :=
  if a = [] then 0 else (a.head?.map pinOrderDigit).getD (-1)

def upperDigit (b : List Char) : ℤ :=
  if b = [] then pinOrderDigits.length else (b.head?.map pinOrderDigit).getD (-1)

/-- The midpoint of two texts read as fractions; the empty text is an open bound on either side.
`none` stands for the error on bounds that are out of order. -/
def pinOrderMidpoint (a b : List Char) : Option (List Char) :=
  if b ≠ [] ∧ unitsLt a b = false then none
  else
    let n := if b = [] then 0 else commonPrefix a b
    if 0 < n then (pinOrderMidpoint (a.drop n) (b.drop n)).map (b.take n ++ ·)
    else
      let digitA := lowerDigit a
      let digitB := upperDigit b
      -- `Math.round` rounds a half up
      if 1 < digitB - digitA then some (charAt pinOrderDigits ((digitA + digitB + 1) / 2))
      else if 1 < b.length then some (b.take 1)
      else (pinOrderMidpoint (a.drop 1) []).map (charAt pinOrderDigits digitA ++ ·)
termination_by a.length + b.length
decreasing_by
  · rename_i hn
    have hb : b ≠ [] := by
      rintro rfl
      simp [n] at hn
    have := List.length_pos_of_ne_nil hb
    simp only [List.length_drop]
    omega
  · rename_i hdigits _
    have hne : a ≠ [] ∨ b ≠ [] := by
      by_contra hnil
      push Not at hnil
      exact hdigits (by simp [digitA, digitB, lowerDigit, upperDigit, hnil.1, hnil.2,
        pinOrderDigits])
    simp only [List.length_drop, List.length_nil]
    rcases hne with h | h <;> have := List.length_pos_of_ne_nil h <;> omega

/-- **A key strictly between two others**; no bound stands for an end of the list. `none` where the
keys are corrupt or out of order. -/
def pinOrderKeyBetween (before after : Option String) : Option String :=
  let a := (before.getD "").toList
  let b := (after.getD "").toList
  if a ≠ [] ∧ isValidPinOrderKey a = false then none
  else if b ≠ [] ∧ isValidPinOrderKey b = false then none
  else if b ≠ [] ∧ unitsLt a b = false then none
  else (pinOrderMidpoint a b).map String.ofList

/-! ## Comparing digits -/

/-- Each digit is one code unit, and digits are in the order of their code units. -/
theorem digit_facts : ∀ c ∈ pinOrderDigits, utf16Units c = [c.toNat] ∧
    (c.toNat : ℤ) = 97 + pinOrderDigit c ∧ 0 ≤ pinOrderDigit c ∧ pinOrderDigit c < 26 ∧
    charAt pinOrderDigits (pinOrderDigit c) = [c] := by
  decide

theorem exists_digit {i : ℤ} (h0 : 0 ≤ i) (h26 : i < 26) :
    ∃ c ∈ pinOrderDigits, charAt pinOrderDigits i = [c] ∧ pinOrderDigit c = i := by
  obtain ⟨n, rfl⟩ := Int.eq_ofNat_of_zero_le h0
  have hall : ∀ n : ℕ, n < 26 → ∃ c ∈ pinOrderDigits,
      charAt pinOrderDigits (n : ℤ) = [c] ∧ pinOrderDigit c = n := by decide
  exact hall n (by omega)

variable {a b key : List Char} {c d : Char}

theorem unitsLt_cons (hc : c ∈ pinOrderDigits) (hd : d ∈ pinOrderDigits) :
    unitsLt (c :: a) (d :: b) = true ↔
      pinOrderDigit c < pinOrderDigit d ∨ c = d ∧ unitsLt a b = true := by
  obtain ⟨hcunits, hcnat, -⟩ := digit_facts c hc
  obtain ⟨hdunits, hdnat, -⟩ := digit_facts d hd
  have hlt : c.toNat < d.toNat ↔ pinOrderDigit c < pinOrderDigit d := by omega
  have heq : c.toNat = d.toNat ↔ c = d := Char.toNat_inj
  simp only [unitsLt, decide_eq_true_eq, List.flatMap_cons, hcunits, hdunits,
    List.singleton_append, List.cons_lt_cons_iff, hlt, heq]

theorem unitsLt_nil_cons (hd : d ∈ pinOrderDigits) : unitsLt [] (d :: b) = true := by
  simp [unitsLt, (digit_facts d hd).1]

@[simp] theorem not_unitsLt_nil : unitsLt a [] = false := by
  simp [unitsLt]

/-! ## Valid keys -/

/-- A valid key, or the open bound. -/
def OpenOrValid (a : List Char) : Prop := a = [] ∨ isValidPinOrderKey a = true

theorem isValidPinOrderKey_iff : isValidPinOrderKey key = true ↔
    key ≠ [] ∧ (∀ c ∈ key, c ∈ pinOrderDigits) ∧ key.getLast? ≠ some 'a' :=
  decide_eq_true_iff

theorem OpenOrValid.mem (h : OpenOrValid a) : ∀ c ∈ a, c ∈ pinOrderDigits := by
  rcases h with rfl | h
  · exact fun _ hc ↦ absurd hc List.not_mem_nil
  · exact (isValidPinOrderKey_iff.mp h).2.1

theorem OpenOrValid.tail (h : OpenOrValid (c :: a)) : OpenOrValid a := by
  rcases h with h | h
  · cases h
  · obtain ⟨-, hmem, hlast⟩ := isValidPinOrderKey_iff.mp h
    cases a with
    | nil => exact .inl rfl
    | cons d a =>
      refine .inr (isValidPinOrderKey_iff.mpr ⟨List.cons_ne_nil _ _, ?_, ?_⟩)
      · exact fun e he ↦ hmem e (List.mem_cons_of_mem _ he)
      · rwa [List.getLast?_cons_cons] at hlast

theorem isValidPinOrderKey_singleton (hc : c ∈ pinOrderDigits) (hpos : 0 < pinOrderDigit c) :
    isValidPinOrderKey [c] = true := by
  refine isValidPinOrderKey_iff.mpr ⟨List.cons_ne_nil _ _, by simpa using hc, ?_⟩
  rintro ⟨⟩
  exact absurd hpos (by decide)

theorem isValidPinOrderKey_cons (hc : c ∈ pinOrderDigits) (h : isValidPinOrderKey key = true) :
    isValidPinOrderKey (c :: key) = true := by
  obtain ⟨hne, hmem, hlast⟩ := isValidPinOrderKey_iff.mp h
  refine isValidPinOrderKey_iff.mpr ⟨List.cons_ne_nil _ _, ?_, ?_⟩
  · exact List.forall_mem_cons.mpr ⟨hc, hmem⟩
  · obtain ⟨d, key, rfl⟩ := List.exists_cons_of_ne_nil hne
    rwa [List.getLast?_cons_cons]

/-- **A key that is between two bounds.** -/
structure IsBetween (a b key : List Char) : Prop where
  valid : isValidPinOrderKey key = true
  above : unitsLt a key = true
  below : b = [] ∨ unitsLt key b = true

/-! ## The midpoint is between -/

/-- A common first digit is passed. -/
theorem pinOrderMidpoint_cons (hne : b ≠ []) (hhead : a.headD 'a' = d)
    (hlt : unitsLt a (d :: b) = true) (hrest : unitsLt a.tail b = true) :
    pinOrderMidpoint a (d :: b) = (pinOrderMidpoint a.tail b).map (d :: ·) := by
  have hheads : commonPrefix a (d :: b) = commonPrefix a.tail b + 1 := by
    rw [commonPrefix, if_pos hhead]
  rw [pinOrderMidpoint, if_neg (by simp [hlt])]
  simp only [List.cons_ne_nil, if_false, hheads, Nat.succ_pos, if_true, List.drop_succ_cons,
    List.take_succ_cons]
  rw [← List.drop_tail]
  by_cases hn : commonPrefix a.tail b = 0
  · simp [hn]
  · rw [pinOrderMidpoint.eq_def a.tail b, if_neg (by simp [hrest])]
    simp only [hne, if_false, Nat.pos_of_ne_zero hn, if_true, Option.map_map]
    rfl

/-- Without a common first digit, the first digits decide. -/
theorem pinOrderMidpoint_of_ne (hlt : b = [] ∨ unitsLt a b = true)
    (hne : ∀ d b', b = d :: b' → a.headD 'a' ≠ d) :
    pinOrderMidpoint a b =
      if 1 < upperDigit b - lowerDigit a then
        some (charAt pinOrderDigits ((lowerDigit a + upperDigit b + 1) / 2))
      else if 1 < b.length then some (b.take 1)
      else (pinOrderMidpoint (a.drop 1) []).map (charAt pinOrderDigits (lowerDigit a) ++ ·) := by
  have hheads : (if b = [] then 0 else commonPrefix a b) = 0 := by
    cases b with
    | nil => rfl
    | cons d b' => rw [if_neg (List.cons_ne_nil _ _), commonPrefix, if_neg (hne d b' rfl)]
  have hbounds : ¬(b ≠ [] ∧ unitsLt a b = false) := by
    rintro ⟨hb, hfalse⟩
    rcases hlt with hlt | hlt
    · exact hb hlt
    · simp [hlt] at hfalse
  rw [pinOrderMidpoint, if_neg hbounds]
  simp only [hheads, lt_irrefl, if_false]

theorem lowerDigit_facts (ha : OpenOrValid a) : 0 ≤ lowerDigit a ∧ lowerDigit a < 26 := by
  cases a with
  | nil => exact ⟨le_rfl, by decide⟩
  | cons c a => exact ⟨(digit_facts c (ha.mem c List.mem_cons_self)).2.2.1,
      (digit_facts c (ha.mem c List.mem_cons_self)).2.2.2.1⟩

theorem upperDigit_le (hb : OpenOrValid b) : upperDigit b ≤ 26 := by
  cases b with
  | nil => exact le_rfl
  | cons d b => exact (digit_facts d (hb.mem d List.mem_cons_self)).2.2.2.1.le

theorem lowerDigit_lt_upperDigit (ha : OpenOrValid a) (hb : OpenOrValid b)
    (hlt : b = [] ∨ unitsLt a b = true) (hne : ∀ d b', b = d :: b' → a.headD 'a' ≠ d) :
    lowerDigit a < upperDigit b := by
  cases b with
  | nil => exact (lowerDigit_facts ha).2
  | cons d b =>
    have hd := hb.mem d List.mem_cons_self
    cases a with
    | nil =>
      have hda : d ≠ 'a' := fun heq ↦ hne d b rfl heq.symm
      have hpos : ∀ d ∈ pinOrderDigits, d ≠ 'a' → 0 < pinOrderDigit d := by decide
      exact hpos d hd hda
    | cons c a =>
      have hc := ha.mem c List.mem_cons_self
      rcases (unitsLt_cons hc hd).mp (hlt.resolve_left (List.cons_ne_nil _ _)) with h | ⟨h, -⟩
      · exact h
      · exact absurd h (hne d b rfl)

/-- A digit above the first one of the lower bound makes a key above it. -/
theorem unitsLt_of_lowerDigit_lt (ha : OpenOrValid a) (hc : c ∈ pinOrderDigits)
    (hlt : lowerDigit a < pinOrderDigit c) : unitsLt a (c :: key) = true := by
  cases a with
  | nil => exact unitsLt_nil_cons hc
  | cons e a => exact (unitsLt_cons (ha.mem e List.mem_cons_self) hc).mpr (.inl hlt)

/-- A digit below the first one of the upper bound makes a key below it. -/
theorem below_of_lt_upperDigit (hb : OpenOrValid b) (hc : c ∈ pinOrderDigits)
    (hlt : pinOrderDigit c < upperDigit b) : b = [] ∨ unitsLt (c :: key) b = true := by
  cases b with
  | nil => exact .inl rfl
  | cons d b => exact .inr ((unitsLt_cons hc (hb.mem d List.mem_cons_self)).mpr (.inl hlt))

/-- **The midpoint of two bounds is a key between them.** -/
theorem isBetween_pinOrderMidpoint (a b : List Char) (ha : OpenOrValid a) (hb : OpenOrValid b)
    (hlt : b = [] ∨ unitsLt a b = true) :
    ∃ key, pinOrderMidpoint a b = some key ∧ IsBetween a b key := by
  induction hn : a.length + b.length using Nat.strong_induction_on generalizing a b with
  | _ n ih =>
  by_cases hcommon : ∃ d b', b = d :: b' ∧ a.headD 'a' = d
  · obtain ⟨d, b, rfl, hhead⟩ := hcommon
    have hd := hb.mem d List.mem_cons_self
    replace hlt := hlt.resolve_left (List.cons_ne_nil _ _)
    -- the rest of the lower bound is below that of the upper one, which is not empty
    have hrest : unitsLt a.tail b = true := by
      cases a with
      | nil =>
        cases b with
        | nil =>
          rcases hb with hb | hb
          · cases hb
          · exact absurd (hhead ▸ rfl) (isValidPinOrderKey_iff.mp hb).2.2
        | cons e b => exact unitsLt_nil_cons (hb.mem e (by simp))
      | cons c a =>
        cases hhead
        exact ((unitsLt_cons hd hd).mp hlt).resolve_left (lt_irrefl _) |>.2
    have hne : b ≠ [] := by
      rintro rfl
      simp at hrest
    have hatail : OpenOrValid a.tail := by
      cases a with
      | nil => exact .inl rfl
      | cons c a => exact ha.tail
    obtain ⟨key, hkey, hbetween⟩ := ih (a.tail.length + b.length)
      (by simp only [List.length_tail, List.length_cons] at hn ⊢; omega) a.tail b hatail hb.tail
      (.inr hrest) rfl
    refine ⟨d :: key, by rw [pinOrderMidpoint_cons hne hhead hlt hrest, hkey]; rfl,
      isValidPinOrderKey_cons hd hbetween.valid, ?_, .inr ((unitsLt_cons hd hd).mpr (.inr
        ⟨rfl, hbetween.below.resolve_left hne⟩))⟩
    cases a with
    | nil => exact unitsLt_nil_cons hd
    | cons c a =>
      cases hhead
      exact (unitsLt_cons hd hd).mpr (.inr ⟨rfl, hbetween.above⟩)
  · have hne : ∀ d b', b = d :: b' → a.headD 'a' ≠ d :=
      fun d b' hb' hhead ↦ hcommon ⟨d, b', hb', hhead⟩
    have hdigits := lowerDigit_lt_upperDigit ha hb hlt hne
    obtain ⟨hlow, hlow'⟩ := lowerDigit_facts ha
    have hup := upperDigit_le hb
    rw [pinOrderMidpoint_of_ne hlt hne]
    split_ifs with hroom hlong
    · -- there is a digit between the first ones
      obtain ⟨c, hc, hchar, hdigit⟩ := exists_digit
        (i := (lowerDigit a + upperDigit b + 1) / 2) (by omega) (by omega)
      rw [hchar]
      refine ⟨[c], rfl, isValidPinOrderKey_singleton hc (by omega),
        unitsLt_of_lowerDigit_lt ha hc (by omega), below_of_lt_upperDigit hb hc (by omega)⟩
    · -- the upper bound has digits to spare
      obtain ⟨d, e, b, rfl⟩ : ∃ d e b', b = d :: e :: b' := by
        match b, hlong with
        | d :: e :: b', _ => exact ⟨d, e, b', rfl⟩
      have hd := hb.mem d List.mem_cons_self
      have hlt' : lowerDigit a < pinOrderDigit d := hdigits
      refine ⟨[d], rfl, isValidPinOrderKey_singleton hd (by omega),
        unitsLt_of_lowerDigit_lt ha hd hlt', .inr ((unitsLt_cons hd hd).mpr (.inr ⟨rfl, ?_⟩))⟩
      exact unitsLt_nil_cons (hb.mem e (by simp))
    · -- the lower bound is extended
      have hnil : a ≠ [] ∨ b ≠ [] := by
        by_contra hnil
        push Not at hnil
        exact hroom (by simp [lowerDigit, upperDigit, hnil.1, hnil.2, pinOrderDigits])
      have hatail : OpenOrValid (a.drop 1) := by
        cases a with
        | nil => exact .inl rfl
        | cons c a => exact ha.tail
      have hshort : (a.drop 1).length + ([] : List Char).length < n := by
        simp only [List.length_drop, List.length_nil]
        rcases hnil with h | h <;> have := List.length_pos_of_ne_nil h <;> omega
      obtain ⟨key, hkey, hbetween⟩ := ih _ hshort (a.drop 1) [] hatail (.inl rfl) (.inl rfl) rfl
      obtain ⟨c, hc, hchar, hdigit⟩ := exists_digit hlow hlow'
      rw [hkey, hchar]
      refine ⟨c :: key, rfl, isValidPinOrderKey_cons hc hbetween.valid, ?_,
        below_of_lt_upperDigit hb hc (by omega)⟩
      cases a with
      | nil => exact unitsLt_nil_cons hc
      | cons e a =>
        have he := ha.mem e List.mem_cons_self
        have hce : e = c := by
          have h1 := (digit_facts e he).2.2.2.2
          rw [← List.singleton_inj, ← h1, ← hchar]
          rfl
        exact (unitsLt_cons he hc).mpr (.inr ⟨hce, hbetween.above⟩)

/-! ## Keys between keys -/

/-- The bounds that a call is given: valid keys in order, or none. -/
structure KeyBounds (before after : Option String) : Prop where
  validBefore : ∀ a ∈ before, isValidPinOrderKey a.toList = true
  validAfter : ∀ b ∈ after, isValidPinOrderKey b.toList = true
  lt : ∀ a ∈ before, ∀ b ∈ after, stringLt a b = true

/-- What an absent bound stands for. -/
theorem openOrValid_getD {bound : Option String}
    (h : ∀ a ∈ bound, isValidPinOrderKey a.toList = true) : OpenOrValid (bound.getD "").toList := by
  cases bound with
  | none => exact .inl rfl
  | some a => exact .inr (h a rfl)

/-- **There is always a key between two bounds, and the code finds it.** -/
theorem exists_pinOrderKeyBetween {before after : Option String} (h : KeyBounds before after) :
    ∃ key, pinOrderKeyBetween before after = some key ∧ isValidPinOrderKey key.toList = true ∧
      (∀ a ∈ before, stringLt a key = true) ∧ ∀ b ∈ after, stringLt key b = true := by
  have ha := openOrValid_getD h.validBefore
  have hb := openOrValid_getD h.validAfter
  have hlt : (after.getD "").toList = [] ∨
      unitsLt (before.getD "").toList (after.getD "").toList = true := by
    cases after with
    | none => exact .inl rfl
    | some b =>
      cases before with
      | some a => exact .inr (h.lt a rfl b rfl)
      | none =>
        obtain ⟨d, b', hb'⟩ := List.exists_cons_of_ne_nil
          (isValidPinOrderKey_iff.mp (h.validAfter b rfl)).1
        rw [Option.getD_some, hb'] at hb ⊢
        exact .inr (unitsLt_nil_cons (hb.mem d List.mem_cons_self))
  obtain ⟨key, hkey, hbetween⟩ := isBetween_pinOrderMidpoint _ _ ha hb hlt
  refine ⟨String.ofList key, ?_, by rw [String.toList_ofList]; exact hbetween.valid, ?_, ?_⟩
  · rw [pinOrderKeyBetween, if_neg, if_neg, if_neg, hkey]
    · rfl
    · rintro ⟨hne, hfalse⟩
      simp [hlt.resolve_left hne] at hfalse
    · rintro ⟨hne, hfalse⟩
      simp [hb.resolve_left hne] at hfalse
    · rintro ⟨hne, hfalse⟩
      simp [ha.resolve_left hne] at hfalse
  · rintro a rfl
    change unitsLt a.toList (String.ofList key).toList = true
    rw [String.toList_ofList]
    exact hbetween.above
  · rintro b rfl
    change unitsLt (String.ofList key).toList b.toList = true
    rw [String.toList_ofList]
    exact hbetween.below.resolve_left (isValidPinOrderKey_iff.mp (h.validAfter b rfl)).1

/-! ## Arranged keys -/

/-- Valid keys, each before the next. -/
structure Arranged (keys : List String) : Prop where
  valid : ∀ key ∈ keys, isValidPinOrderKey key.toList = true
  sorted : keys.Pairwise fun a b ↦ stringLt a b = true

/-- Insert a key between the neighbours of a place; a place past the end stands for the end. -/
def insertKeyAt (keys : List String) (place : ℕ) : Option (List String) :=
  let place := min place keys.length
  (pinOrderKeyBetween (keys.take place).getLast? (keys.drop place).head?).map fun key ↦
    keys.take place ++ key :: keys.drop place

theorem stringLt_trans {a b c : String} (hab : stringLt a b = true) (hbc : stringLt b c = true) :
    stringLt a c = true := by
  simp only [stringLt, decide_eq_true_eq] at hab hbc ⊢
  exact List.lt_trans hab hbc

/-- **Wherever a key is to go, there is one**, and the keys stay arranged. -/
theorem Arranged.insertKeyAt {keys : List String} (h : Arranged keys) (place : ℕ) :
    ∃ keys', insertKeyAt keys place = some keys' ∧ Arranged keys' ∧
      keys'.length = keys.length + 1 := by
  set i := min place keys.length with hi
  have hsorted : (keys.take i ++ keys.drop i).Pairwise fun a b ↦ stringLt a b = true := by
    rw [List.take_append_drop]
    exact h.sorted
  obtain ⟨hfront, hback, hcross⟩ := List.pairwise_append.mp hsorted
  have hbounds : KeyBounds (keys.take i).getLast? (keys.drop i).head? :=
    ⟨fun a ha ↦ h.valid a (List.mem_of_mem_take (List.mem_of_getLast? ha)),
      fun b hb ↦ h.valid b (List.mem_of_mem_drop (List.mem_of_mem_head? hb)),
      fun a ha b hb ↦ hcross a (List.mem_of_getLast? ha) b (List.mem_of_mem_head? hb)⟩
  obtain ⟨key, hkey, hvalid, habove, hbelow⟩ := exists_pinOrderKeyBetween hbounds
  refine ⟨keys.take i ++ key :: keys.drop i, by rw [Orchestration.insertKeyAt, ← hi, hkey]; rfl,
    ⟨fun x hx ↦ ?_, ?_⟩, ?_⟩
  · rcases List.mem_append.mp hx with hx | hx
    · exact h.valid x (List.mem_of_mem_take hx)
    · rcases List.mem_cons.mp hx with rfl | hx
      · exact hvalid
      · exact h.valid x (List.mem_of_mem_drop hx)
  · have hfrontkey : ∀ x ∈ keys.take i, stringLt x key = true := by
      intro x hx
      obtain ⟨last, hlast⟩ := Option.isSome_iff_exists.mp (List.getLast?_isSome.mpr
        (List.ne_nil_of_mem hx))
      obtain ⟨front, hsplit⟩ := List.getLast?_eq_some_iff.mp hlast
      have habove' := habove last hlast
      rw [hsplit] at hx hfront
      rcases List.mem_append.mp hx with hx | hx
      · exact stringLt_trans ((List.pairwise_append.mp hfront).2.2 x hx last
          (List.mem_singleton_self last)) habove'
      · exact List.mem_singleton.mp hx ▸ habove'
    have hbackkey : ∀ y ∈ keys.drop i, stringLt key y = true := by
      intro y hy
      cases hdrop : keys.drop i with
      | nil => simp [hdrop] at hy
      | cons first rest =>
        rw [hdrop] at hy hback
        have hfirst := hbelow first (by rw [hdrop]; rfl)
        rcases List.mem_cons.mp hy with rfl | hy
        · exact hfirst
        · exact stringLt_trans hfirst ((List.pairwise_cons.mp hback).1 y hy)
    refine List.pairwise_append.mpr ⟨hfront, List.pairwise_cons.mpr ⟨hbackkey, hback⟩, ?_⟩
    intro x hx y hy
    rcases List.mem_cons.mp hy with rfl | hy
    · exact hfrontkey x hx
    · exact hcross x hx y hy
  · rw [List.length_append, List.length_cons, ← Nat.add_assoc, ← List.length_append,
      List.take_append_drop]

/-- **Order keys are dense.** There is a key between any two neighbours, and any number of
insertions can follow one another. -/
structure PinOrderDense : Prop where
  between : ∀ before after, KeyBounds before after → ∃ key,
    pinOrderKeyBetween before after = some key ∧ isValidPinOrderKey key.toList = true ∧
      (∀ a ∈ before, stringLt a key = true) ∧ ∀ b ∈ after, stringLt key b = true
  repeated : ∀ keys, Arranged keys → ∀ places : List ℕ, ∃ keys',
    places.foldlM insertKeyAt keys = some keys' ∧ Arranged keys' ∧
      keys'.length = keys.length + places.length

theorem pinOrderDense : PinOrderDense where
  between _ _ := exists_pinOrderKeyBetween
  repeated keys h places := by
    induction places generalizing keys with
    | nil => exact ⟨keys, rfl, h, rfl⟩
    | cons place places ih =>
      obtain ⟨keys', hinsert, harranged, hlength⟩ := h.insertKeyAt place
      obtain ⟨keys'', hrest, harranged', hlength'⟩ := ih keys' harranged
      refine ⟨keys'', by rw [List.foldlM_cons, hinsert]; exact hrest, harranged', ?_⟩
      rw [hlength', hlength, List.length_cons]
      omega

end Awen.Orchestration
