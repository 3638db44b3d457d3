import Awen.Terminal.HistorySanitizer

/-!
# Texts of sequences that the sanitizer keeps

A text that is made of sequences the sanitizer keeps loses nothing when it is scanned again
(`Kept.scan_append`), although the scan may come to other sequences: the end of an escape sequence
may swallow characters that followed a sequence that was stripped. What the sanitizer leaves of any
output is such a text (`kept_scan`), and so is what is left of one where a sequence begins.
-/

namespace Awen.Terminal

/-! ## A sequence by itself -/

theorem findStringTerminatorIndex_take {input : CodeUnits} {n : ℕ}
    (h : findStringTerminatorIndex input = some n) :
    findStringTerminatorIndex (input.take n) = some n := by
  induction input generalizing n with
  | nil => cases h
  | cons u input ih =>
    rw [findStringTerminatorIndex] at h
    split_ifs at h with hshort hlong
    · obtain rfl := Option.some_inj.mp h
      rw [List.take_succ_cons, findStringTerminatorIndex, if_pos hshort]
    · obtain rfl := Option.some_inj.mp h
      obtain ⟨tail, rfl⟩ := List.head?_eq_some_iff.mp hlong.2
      rw [List.take_succ_cons, findStringTerminatorIndex, if_neg hshort, if_pos ⟨hlong.1, rfl⟩]
    · obtain ⟨m, hm, rfl⟩ := Option.map_eq_some_iff.mp h
      obtain ⟨hpos, -, -⟩ := findStringTerminatorIndex_spec hm
      have hhead : (input.take m).head? = input.head? := by
        rw [List.head?_take, if_neg (Nat.ne_of_gt hpos)]
      rw [List.take_succ_cons, findStringTerminatorIndex, if_neg hshort, hhead, if_neg hlong, ih hm]
      rfl

theorem nextString_take {kind : StringSequence} {introducer : ℕ} {body : CodeUnits}
    {token : ℕ × Bool} (h : nextString kind introducer body = some token) :
    nextString kind introducer (body.take (token.1 - introducer)) = some token := by
  simp only [nextString, Option.bind_eq_bind, Option.bind_eq_some_iff] at h
  obtain ⟨n, hn, h⟩ := h
  obtain rfl := Option.some_inj.mp h
  rw [Nat.add_sub_cancel_left]
  simp only [nextString, findStringTerminatorIndex_take hn, Option.bind_eq_bind, Option.bind_some,
    List.take_take, Nat.min_self]
  rfl

theorem nextCsi_take {introducer : ℕ} {body : CodeUnits} {token : ℕ × Bool}
    (h : nextCsi introducer body = some token) :
    nextCsi introducer (body.take (token.1 - introducer)) = some token := by
  simp only [nextCsi, Option.bind_eq_bind, Option.bind_eq_some_iff] at h
  obtain ⟨cursor, hcursor, finalByte, hfinal, h⟩ := h
  obtain rfl := Option.some_inj.mp h
  have hlength : introducer + cursor + 1 - introducer = cursor + 1 := by omega
  have hfind : (body.take (cursor + 1)).findIdx? isCsiFinalByte = some cursor := by
    obtain ⟨hlt, hbyte, hbefore⟩ := List.findIdx?_eq_some_iff_getElem.mp hcursor
    refine List.findIdx?_eq_some_iff_getElem.mpr ⟨by rw [List.length_take]; omega, ?_, ?_⟩
    · rw [List.getElem_take]
      exact hbyte
    · intro j hj
      rw [List.getElem_take]
      exact hbefore j hj
  simp only [hlength, nextCsi, hfind, Option.bind_eq_bind, Option.bind_some,
    List.getElem?_take_of_lt (Nat.lt_succ_self cursor), hfinal, List.take_take,
    Nat.min_eq_left (Nat.le_succ cursor)]
  rfl

private theorem exists_eq_takeWhile_append {p : UInt16 → Bool} {input : CodeUnits} {u : UInt16}
    (h : input[(input.takeWhile p).length]? = some u) :
    ∃ rest, input = input.takeWhile p ++ u :: rest ∧ p u = false := by
  induction input with
  | nil => cases h
  | cons v input ih =>
    cases hv : p v with
    | true =>
      rw [List.takeWhile_cons_of_pos hv] at h ⊢
      obtain ⟨rest, hrest, hu⟩ := ih h
      exact ⟨rest, congrArg (v :: ·) hrest, hu⟩
    | false =>
      rw [List.takeWhile_cons_of_neg (by simp [hv])] at h ⊢
      obtain rfl := Option.some_inj.mp h
      exact ⟨input, rfl, hv⟩

/-- An escape sequence: intermediate bytes and then another one, which ends it if it may. -/
theorem findEscapeSequenceEndIndex_eq_some {input : CodeUnits} {n : ℕ} :
    findEscapeSequenceEndIndex input = some n ↔
      ∃ bytes u rest, input = bytes ++ u :: rest ∧
        (∀ i ∈ bytes, isEscapeIntermediateByte i = true) ∧ isEscapeIntermediateByte u = false ∧
        n = if isEscapeFinalByte u then bytes.length + 1 else 1 := by
  constructor
  · intro h
    obtain ⟨u, hu, rfl⟩ := Option.map_eq_some_iff.mp h
    obtain ⟨rest, hrest, hnot⟩ := exists_eq_takeWhile_append hu
    exact ⟨_, u, rest, hrest, fun i hi ↦ List.all_eq_true.mp List.all_takeWhile i hi, hnot, rfl⟩
  · rintro ⟨bytes, u, rest, rfl, hbytes, hu, rfl⟩
    have htake : (bytes ++ u :: rest).takeWhile isEscapeIntermediateByte = bytes := by
      rw [List.takeWhile_append_of_pos hbytes, List.takeWhile_cons_of_neg (by simp [hu]),
        List.append_nil]
    rw [findEscapeSequenceEndIndex, htake, List.getElem?_append_right (Nat.le_refl _),
      Nat.sub_self]
    rfl

/-- An escape sequence by itself, unless it is cut off behind an intermediate byte. -/
theorem findEscapeSequenceEndIndex_take {input : CodeUnits} {n : ℕ}
    (h : findEscapeSequenceEndIndex input = some n) :
    findEscapeSequenceEndIndex (input.take n) = some n ∨
      ∃ i rest, input = i :: rest ∧ isEscapeIntermediateByte i = true ∧ n = 1 := by
  obtain ⟨bytes, u, rest, rfl, hbytes, hu, rfl⟩ := findEscapeSequenceEndIndex_eq_some.mp h
  split
  · rename_i hfinal
    refine .inl (findEscapeSequenceEndIndex_eq_some.mpr ⟨bytes, u, [], ?_, hbytes, hu, ?_⟩)
    · rw [List.take_append, List.take_of_length_le (Nat.le_succ _), Nat.add_sub_cancel_left]
      rfl
    · rw [if_pos hfinal]
  · rename_i hfinal
    cases bytes with
    | nil =>
      refine .inl (findEscapeSequenceEndIndex_eq_some.mpr ⟨[], u, [], rfl, hbytes, hu, ?_⟩)
      rw [if_neg hfinal]
    | cons i bytes =>
      exact .inr ⟨i, bytes ++ u :: rest, rfl, hbytes i List.mem_cons_self, rfl⟩

/-- What begins no sequence. -/
def isPlain (u : UInt16) : Bool := u != 0x1b && u != 0x9b && (c1StringKind u).isNone

theorem nextSequence_of_isPlain {u : UInt16} (h : isPlain u = true) (input : CodeUnits) :
    nextSequence (u :: input) = some (1, true) := by
  simp only [isPlain, Bool.and_eq_true, bne_iff_ne, ne_eq, Option.isNone_iff_eq_none] at h
  rw [nextSequence.eq_def]
  dsimp only
  rw [if_neg h.1.1, if_neg h.1.2, h.2]

/-- The bytes of an escape sequence begin no sequence. -/
theorem isPlain_of_isEscapeByte {u : UInt16}
    (h : isEscapeIntermediateByte u = true ∨ isEscapeFinalByte u = true) : isPlain u = true := by
  have hlt : 0x20 ≤ u.toNat ∧ u.toNat ≤ 0x7e := by
    simp only [isEscapeIntermediateByte, isEscapeFinalByte, decide_eq_true_eq,
      UInt16.le_iff_toNat_le] at h
    have h₁ : (0x20 : UInt16).toNat = 0x20 := rfl
    have h₂ : (0x2f : UInt16).toNat = 0x2f := rfl
    have h₃ : (0x30 : UInt16).toNat = 0x30 := rfl
    have h₄ : (0x7e : UInt16).toNat = 0x7e := rfl
    omega
  have hne {c : UInt16} (hc : c.toNat < 0x20 ∨ 0x7e < c.toNat) : u ≠ c := by
    rintro rfl
    omega
  have h₁ : u ≠ 0x9d := hne (by decide)
  have h₂ : u ≠ 0x90 := hne (by decide)
  have h₃ : u ≠ 0x9e := hne (by decide)
  have h₄ : u ≠ 0x9f := hne (by decide)
  have h₅ : u ≠ 0x1b := hne (by decide)
  have h₆ : u ≠ 0x9b := hne (by decide)
  simp [isPlain, c1StringKind, h₁, h₂, h₃, h₄, h₅, h₆]

/-- Behind `ESC`, an intermediate byte introduces neither a control sequence nor a string. -/
theorem nextSequence_of_intermediate {i : UInt16} (hi : isEscapeIntermediateByte i = true)
    (input : CodeUnits) :
    nextSequence (0x1b :: i :: input) =
      (findEscapeSequenceEndIndex (i :: input)).map fun length ↦ (length + 1, true) := by
  have hlt : i.toNat ≤ 0x2f := by
    simp only [isEscapeIntermediateByte, decide_eq_true_eq, UInt16.le_iff_toNat_le] at hi
    exact hi.2
  have hne {c : UInt16} (hc : 0x2f < c.toNat) : i ≠ c := by
    rintro rfl
    omega
  have h₁ : i ≠ 0x5b := hne (by decide)
  have h₂ : i ≠ 0x5d := hne (by decide)
  have h₃ : i ≠ 0x50 := hne (by decide)
  have h₄ : i ≠ 0x5e := hne (by decide)
  have h₅ : i ≠ 0x5f := hne (by decide)
  rw [nextSequence.eq_def]
  simp [escapeStringKind, h₁, h₂, h₃, h₄, h₅]

/-- **A sequence by itself**: what the scanner decided it decides again without what follows, but
for an escape sequence that was given up behind an intermediate byte. -/
theorem nextSequence_take {input : CodeUnits} {n : ℕ} {keep : Bool}
    (h : nextSequence input = some (n, keep)) :
    nextSequence (input.take n) = some (n, keep) ∨
      ∃ i, input.take n = [0x1b, i] ∧ isEscapeIntermediateByte i = true := by
  cases input with
  | nil => cases h
  | cons u input =>
    rw [nextSequence.eq_def] at h
    dsimp only at h
    split_ifs at h with hescape hc1
    · cases input with
      | nil => cases h
      | cons v body =>
        dsimp only at h
        split_ifs at h with hcsi
        · left
          have hlt : 2 < n := (nextCsi_spec h).1
          rw [List.take_cons (by omega), List.take_cons (by omega), nextSequence.eq_def]
          dsimp only
          rw [if_pos hescape, if_pos hcsi, Nat.sub_sub]
          exact nextCsi_take h
        · split at h
          · rename_i kind hkind
            left
            have hlt : 2 < n := (nextString_spec h).1
            rw [List.take_cons (by omega), List.take_cons (by omega), nextSequence.eq_def]
            dsimp only
            rw [if_pos hescape, if_neg hcsi, hkind, Nat.sub_sub]
            exact nextString_take h
          · rename_i hkind
            obtain ⟨m, hm, heq⟩ := Option.map_eq_some_iff.mp h
            obtain ⟨rfl, rfl⟩ := Prod.mk.inj heq
            have hpos := (findEscapeSequenceEndIndex_spec hm).1
            rw [List.take_succ_cons]
            rcases findEscapeSequenceEndIndex_take hm with htake | ⟨i, rest, hi, hbyte, rfl⟩
            · left
              rw [List.take_cons hpos] at htake ⊢
              rw [nextSequence.eq_def]
              dsimp only
              rw [if_pos hescape, if_neg hcsi, hkind]
              dsimp only
              rw [htake]
              rfl
            · right
              refine ⟨i, ?_, hbyte⟩
              rw [hi, hescape]
              rfl
    · left
      have hlt : 1 < n := (nextCsi_spec h).1
      rw [List.take_cons (by omega), nextSequence.eq_def]
      dsimp only
      rw [if_neg hescape, if_pos hc1]
      exact nextCsi_take h
    · split at h
      · rename_i kind hkind
        left
        have hlt : 1 < n := (nextString_spec h).1
        rw [List.take_cons (by omega), nextSequence.eq_def]
        dsimp only
        rw [if_neg hescape, if_neg hc1, hkind]
        exact nextString_take h
      · rename_i hkind
        obtain ⟨rfl, rfl⟩ := Prod.mk.inj (Option.some_inj.mp h)
        left
        rw [List.take_succ_cons, nextSequence.eq_def]
        dsimp only
        rw [if_neg hescape, if_neg hc1, hkind]

/-! ## Texts of kept sequences -/

/-- **A text of sequences that the sanitizer keeps.** -/
inductive Kept : CodeUnits → Prop
  | nil : Kept []
  | token {token rest : CodeUnits} (h : nextSequence token = some (token.length, true))
      (hrest : Kept rest) : Kept (token ++ rest)
  | intermediate {i : UInt16} {rest : CodeUnits} (hi : isEscapeIntermediateByte i = true)
      (hrest : Kept rest) : Kept (0x1b :: i :: rest)

theorem Kept.append {s t : CodeUnits} (hs : Kept s) (ht : Kept t) : Kept (s ++ t) := by
  induction hs with
  | nil => exact ht
  | token h _ ih =>
    rw [List.append_assoc]
    exact .token h ih
  | intermediate hi _ ih => exact .intermediate hi ih

/-- A sequence that the scanner keeps may stand before a kept text. -/
theorem Kept.of_nextSequence {input rest : CodeUnits} {n : ℕ}
    (h : nextSequence input = some (n, true)) (hrest : Kept rest) :
    Kept (input.take n ++ rest) := by
  rcases nextSequence_take h with htake | ⟨i, htake, hi⟩
  · refine .token ?_ hrest
    rw [htake, List.length_take_of_le (nextSequence_spec h).2.1]
  · rw [htake]
    exact .intermediate hi hrest

/-- **What the sanitizer leaves.** -/
theorem kept_scan (input : CodeUnits) : Kept (sequenceScanner.scan input).1 := by
  induction input using Scanner.scan_induction (S := sequenceScanner) with
  | hwait input h =>
    rw [Scanner.scan_of_next_none h]
    exact .nil
  | htoken input length keep h ih =>
    rw [Scanner.scan_of_next h]
    cases keep with
    | true => exact Kept.of_nextSequence h ih
    | false => exact ih

theorem Kept.tail {u : UInt16} {rest : CodeUnits} (h : Kept (u :: rest))
    (hu : isPlain u = true) : Kept rest := by
  generalize hinput : u :: rest = input at h
  cases h with
  | nil => cases hinput
  | @token token rest' htoken hrest =>
    cases token with
    | nil => cases htoken
    | cons v token =>
      rw [List.cons_append] at hinput
      obtain ⟨rfl, rfl⟩ := List.cons.inj hinput
      rw [nextSequence_of_isPlain hu, Option.some_inj, Prod.mk.injEq, List.length_cons] at htoken
      obtain rfl := List.eq_nil_of_length_eq_zero (Nat.succ_inj.mp htoken.1.symm)
      exact hrest
  | intermediate hi hrest =>
    obtain ⟨rfl, -⟩ := List.cons.inj hinput
    exact absurd hu (by decide)

theorem Kept.of_append {front rest : CodeUnits} (h : Kept (front ++ rest))
    (hfront : ∀ u ∈ front, isPlain u = true) : Kept rest := by
  induction front with
  | nil => exact h
  | cons u front ih =>
    obtain ⟨hu, hfront⟩ := List.forall_mem_cons.mp hfront
    exact ih (h.tail hu) hfront

/-- **Scanning a text of kept sequences** keeps its first sequence and leaves such a text. -/
theorem Kept.next {input : CodeUnits} (h : Kept input) {length : ℕ} {keep : Bool}
    (hnext : nextSequence input = some (length, keep)) :
    keep = true ∧ Kept (input.drop length) := by
  cases h with
  | nil => cases hnext
  | @token token rest htoken hrest =>
    rw [(nextSequence_spec htoken).2.2 rest, Option.some_inj, Prod.mk.injEq] at hnext
    obtain ⟨rfl, rfl⟩ := hnext
    rw [List.drop_left]
    exact ⟨rfl, hrest⟩
  | @intermediate i rest hi hrest =>
    rw [nextSequence_of_intermediate hi] at hnext
    obtain ⟨n, hn, heq⟩ := Option.map_eq_some_iff.mp hnext
    obtain ⟨rfl, rfl⟩ := Prod.mk.inj heq
    refine ⟨rfl, ?_⟩
    rw [List.drop_succ_cons]
    obtain ⟨bytes, u, more, hinput, hbytes, hu, rfl⟩ := findEscapeSequenceEndIndex_eq_some.mp hn
    split
    · rename_i hfinal
      cases bytes with
      | nil =>
        rw [List.nil_append] at hinput
        obtain ⟨rfl, -⟩ := List.cons.inj hinput
        exact absurd (hi.symm.trans hu) (by decide)
      | cons v bytes =>
        -- the sequence swallows characters up to the one that ends it
        rw [List.cons_append] at hinput
        obtain ⟨rfl, rfl⟩ := List.cons.inj hinput
        rw [List.drop_succ_cons, List.length_cons, List.drop_append,
          List.drop_of_length_le (Nat.le_succ _), Nat.add_sub_cancel_left]
        have hplain : ∀ w ∈ bytes, isPlain w = true := fun w hw ↦
          isPlain_of_isEscapeByte (.inl (hbytes w (List.mem_cons_of_mem _ hw)))
        exact (hrest.of_append hplain).tail (isPlain_of_isEscapeByte (.inr hfinal))
    · exact hrest

/-- **A text of kept sequences loses nothing.** -/
theorem Kept.scan_append {text : CodeUnits} (h : Kept text) :
    (sequenceScanner.scan text).1 ++ (sequenceScanner.scan text).2 = text := by
  induction text using Scanner.scan_induction (S := sequenceScanner) with
  | hwait input hnext =>
    rw [Scanner.scan_of_next_none hnext]
    rfl
  | htoken input length keep hnext ih =>
    obtain ⟨rfl, hrest⟩ := h.next hnext
    rw [Scanner.scan_of_next hnext]
    dsimp only
    rw [if_pos rfl, List.append_assoc, ih hrest, List.take_append_drop]

/-- Where a sequence begins, what is left is a text of kept sequences. -/
theorem Kept.rests {text : CodeUnits} (h : Kept text) :
    ∀ rest ∈ sequenceScanner.rests text, Kept rest :=
  Scanner.forall_mem_rests (fun _ _ _ hinput hnext ↦ (Kept.next hinput hnext).2) h

/-! ## What the scanner does not tell apart -/

/-- The scanner looks at no code unit from the surrogates on. -/
def blur (u : UInt16) : UInt16 := if u.toNat < 0xd800 then u else 0xd800

theorem apply_blur {p : UInt16 → Bool} (h : ∀ u, p u = true → u.toNat < 0xd800) (u : UInt16) :
    p (blur u) = p u := by
  unfold blur
  split
  · rfl
  · rename_i hu
    have hfalse (v : UInt16) (hv : ¬v.toNat < 0xd800) : p v = false :=
      Bool.eq_false_iff.mpr (mt (h v) hv)
    rw [hfalse _ hu, hfalse _ (by decide)]

theorem blur_eq_iff {u c : UInt16} (hc : c.toNat < 0xd800) : blur u = c ↔ u = c := by
  have h := apply_blur (p := (· == c)) (fun v hv ↦ by rwa [eq_of_beq hv]) u
  rw [← beq_iff_eq, h, beq_iff_eq]

theorem blur_beq {c : UInt16} (hc : c.toNat < 0xd800) (u : UInt16) : (blur u == c) = (u == c) :=
  apply_blur (p := (· == c)) (fun v hv ↦ by rwa [eq_of_beq hv]) u

theorem map_blur_beq {c : UInt16} (hc : c.toNat < 0xd800) (o : Option UInt16) :
    (o.map blur == some c) = (o == some c) := by
  cases o with
  | none => rfl
  | some u => exact blur_beq hc u

theorem blur_le {low high : UInt16} (hhigh : high.toNat < 0xd800) (u : UInt16) :
    decide (low ≤ blur u ∧ blur u ≤ high) = decide (low ≤ u ∧ u ≤ high) := by
  refine apply_blur (p := fun u ↦ decide (low ≤ u ∧ u ≤ high)) (fun v hv ↦ ?_) u
  rw [decide_eq_true_eq, UInt16.le_iff_toNat_le, UInt16.le_iff_toNat_le] at hv
  exact Nat.lt_of_le_of_lt hv.2 hhigh

theorem prefix_map_blur {codes : List UInt16} (hcodes : ∀ c ∈ codes, c.toNat < 0xd800)
    (input : CodeUnits) : codes <+: input.map blur ↔ codes <+: input := by
  induction codes generalizing input with
  | nil => simp
  | cons c codes ih =>
    obtain ⟨hc, hcodes⟩ := List.forall_mem_cons.mp hcodes
    cases input with
    | nil => simp
    | cons u input =>
      rw [List.map_cons, List.cons_prefix_cons, List.cons_prefix_cons, ih hcodes, eq_comm,
        blur_eq_iff hc, eq_comm]

@[simp] theorem isCsiParameter_blur (u : UInt16) : isCsiParameter (blur u) = isCsiParameter u := by
  rw [isCsiParameter, isDigit, blur_le (by decide), blur_beq (by decide), blur_beq (by decide)]
  rfl

@[simp] theorem isCsiFinalByte_blur (u : UInt16) : isCsiFinalByte (blur u) = isCsiFinalByte u :=
  blur_le (by decide) u

@[simp] theorem isEscapeIntermediateByte_blur (u : UInt16) :
    isEscapeIntermediateByte (blur u) = isEscapeIntermediateByte u :=
  blur_le (by decide) u

@[simp] theorem isEscapeFinalByte_blur (u : UInt16) :
    isEscapeFinalByte (blur u) = isEscapeFinalByte u :=
  blur_le (by decide) u

theorem shouldStripCsiSequence_blur (body : CodeUnits) (finalByte : UInt16) :
    shouldStripCsiSequence (body.map blur) (blur finalByte) =
      shouldStripCsiSequence body finalByte := by
  have hdigit (u : UInt16) : isDigit (blur u) = isDigit u := blur_le (by decide) u
  have hgreater (u : UInt16) : (blur u == 0x3e) = (u == 0x3e) := blur_beq (by decide) u
  have hsemicolon (u : UInt16) : (blur u == 0x3b) = (u == 0x3b) := blur_beq (by decide) u
  simp only [shouldStripCsiSequence, List.all_map, Function.comp_def, isCsiParameter_blur,
    hgreater, hdigit, hsemicolon, List.getLast?_map, List.head?_map, ← List.map_dropLast,
    ← List.map_tail]
  rw [blur_beq (by decide), blur_beq (by decide), blur_beq (by decide), blur_beq (by decide),
    blur_beq (by decide), blur_beq (by decide), blur_beq (by decide), map_blur_beq (by decide),
    map_blur_beq (by decide), map_blur_beq (by decide)]

theorem shouldStripDcsSequence_blur (content : CodeUnits) :
    shouldStripDcsSequence (content.map blur) = shouldStripDcsSequence content := by
  have hdollar (u : UInt16) : (blur u == 0x24) = (u == 0x24) := blur_beq (by decide) u
  have hplus (u : UInt16) : (blur u == 0x2b) = (u == 0x2b) := blur_beq (by decide) u
  have hq (u : UInt16) : (blur u == 0x71) = (u == 0x71) := blur_beq (by decide) u
  have hr (u : UInt16) : (blur u == 0x72) = (u == 0x72) := blur_beq (by decide) u
  have hzero (u : UInt16) : (blur u == 0x30) = (u == 0x30) := blur_beq (by decide) u
  have hone (u : UInt16) : (blur u == 0x31) = (u == 0x31) := blur_beq (by decide) u
  match content with
  | [] => rfl
  | [u] => simp [shouldStripDcsSequence]
  | [u, v] => simp [shouldStripDcsSequence, hdollar, hplus, hq, hr]
  | u :: v :: w :: rest =>
    simp [shouldStripDcsSequence, hdollar, hplus, hq, hr, hzero, hone]

theorem shouldStripOscSequence_cons (u v w : UInt16) (rest : CodeUnits) :
    shouldStripOscSequence (u :: v :: w :: rest) =
      (u == 0x31 && w == 0x3b && ((v == 0x30 || v == 0x31 || v == 0x32) &&
        (rest.head? == some 0x3f || decide ([0x72, 0x67, 0x62, 0x3a] <+: rest)))) := by
  rw [shouldStripOscSequence.eq_def]
  split
  · rename_i heq
    simp only [List.cons.injEq] at heq
    obtain ⟨rfl, rfl, rfl, rfl⟩ := heq
    rfl
  · rename_i hnot
    by_cases hu : u = 0x31
    · have hw : w ≠ 0x3b := fun hw ↦ hnot v rest (by rw [hu, hw])
      simp [hw]
    · simp [hu]

theorem shouldStripOscSequence_blur (content : CodeUnits) :
    shouldStripOscSequence (content.map blur) = shouldStripOscSequence content := by
  match content with
  | [] => rfl
  | [u] => simp [shouldStripOscSequence]
  | [u, v] => simp [shouldStripOscSequence]
  | u :: v :: w :: rest =>
    have hinitial := @prefix_map_blur [0x72, 0x67, 0x62, 0x3a] (by simp) rest
    simp only [List.map_cons, shouldStripOscSequence_cons, List.head?_map, hinitial]
    rw [blur_beq (by decide), blur_beq (by decide), blur_beq (by decide), blur_beq (by decide),
      blur_beq (by decide), map_blur_beq (by decide)]

theorem stripStringTerminator_blur (value : CodeUnits) :
    stripStringTerminator (value.map blur) = (stripStringTerminator value).map blur := by
  have hsuffix : [0x1b, 0x5c] <:+ value.map blur ↔ [0x1b, 0x5c] <:+ value := by
    rw [← List.reverse_prefix, ← List.reverse_prefix, ← List.map_reverse]
    exact prefix_map_blur (by simp) _
  have hlast {c : UInt16} (hc : c.toNat < 0xd800) :
      (value.map blur).getLast? = some c ↔ value.getLast? = some c := by
    rw [List.getLast?_map, ← beq_iff_eq, map_blur_beq hc, beq_iff_eq]
  simp only [stripStringTerminator, hsuffix, hlast (c := 0x07) (by decide),
    hlast (c := 0x9c) (by decide), List.length_map]
  split
  · rw [List.map_take]
  · split
    · rw [List.map_dropLast]
    · rfl

theorem findStringTerminatorIndex_blur (input : CodeUnits) :
    findStringTerminatorIndex (input.map blur) = findStringTerminatorIndex input := by
  induction input with
  | nil => rfl
  | cons u input ih =>
    have hhead : (input.map blur).head? = some 0x5c ↔ input.head? = some 0x5c := by
      rw [List.head?_map, ← beq_iff_eq, map_blur_beq (by decide), beq_iff_eq]
    simp only [List.map_cons, findStringTerminatorIndex, ih, hhead,
      blur_eq_iff (c := 0x07) (by decide), blur_eq_iff (c := 0x9c) (by decide),
      blur_eq_iff (c := 0x1b) (by decide)]

theorem findEscapeSequenceEndIndex_blur (input : CodeUnits) :
    findEscapeSequenceEndIndex (input.map blur) = findEscapeSequenceEndIndex input := by
  simp only [findEscapeSequenceEndIndex, List.takeWhile_map, List.length_map, List.getElem?_map,
    Option.map_map, Function.comp_def, isEscapeIntermediateByte_blur, isEscapeFinalByte_blur]

theorem nextCsi_blur (introducer : ℕ) (body : CodeUnits) :
    nextCsi introducer (body.map blur) = nextCsi introducer body := by
  simp only [nextCsi, List.findIdx?_map, Function.comp_def, isCsiFinalByte_blur, List.getElem?_map,
    ← List.map_take]
  cases body.findIdx? isCsiFinalByte with
  | none => rfl
  | some cursor =>
    cases hfinal : body[cursor]? with
    | none => simp [hfinal]
    | some finalByte =>
      simp only [Option.map_some, Option.bind_eq_bind, Option.bind_some, hfinal,
        shouldStripCsiSequence_blur]

theorem nextString_blur (kind : StringSequence) (introducer : ℕ) (body : CodeUnits) :
    nextString kind introducer (body.map blur) = nextString kind introducer body := by
  have hstrips (content : CodeUnits) : kind.strips (content.map blur) = kind.strips content := by
    cases kind with
    | osc => exact shouldStripOscSequence_blur content
    | dcs => exact shouldStripDcsSequence_blur content
    | other => rfl
  simp only [nextString, findStringTerminatorIndex_blur, ← List.map_take,
    stripStringTerminator_blur, hstrips]

/-- **The scanner tells no code units apart from the surrogates on.** -/
theorem nextSequence_blur (input : CodeUnits) :
    nextSequence (input.map blur) = nextSequence input := by
  cases input with
  | nil => rfl
  | cons u input =>
    have hc1 : c1StringKind (blur u) = c1StringKind u := by
      simp only [c1StringKind, blur_eq_iff (c := 0x9d) (by decide),
        blur_eq_iff (c := 0x90) (by decide), blur_eq_iff (c := 0x9e) (by decide),
        blur_eq_iff (c := 0x9f) (by decide)]
    cases input with
    | nil =>
      simp only [List.map_cons, List.map_nil, nextSequence, hc1,
        blur_eq_iff (c := 0x1b) (by decide), blur_eq_iff (c := 0x9b) (by decide)]
    | cons v body =>
      have hescape : escapeStringKind (blur v) = escapeStringKind v := by
        simp only [escapeStringKind, blur_eq_iff (c := 0x5d) (by decide),
          blur_eq_iff (c := 0x50) (by decide), blur_eq_iff (c := 0x5e) (by decide),
          blur_eq_iff (c := 0x5f) (by decide)]
      have hcsi : nextCsi 1 (blur v :: body.map blur) = nextCsi 1 (v :: body) :=
        nextCsi_blur 1 (v :: body)
      have hstring (kind : StringSequence) :
          nextString kind 1 (blur v :: body.map blur) = nextString kind 1 (v :: body) :=
        nextString_blur kind 1 (v :: body)
      have hend : findEscapeSequenceEndIndex (blur v :: body.map blur) =
          findEscapeSequenceEndIndex (v :: body) := findEscapeSequenceEndIndex_blur (v :: body)
      simp only [List.map_cons, nextSequence, hc1, hescape, nextCsi_blur, nextString_blur, hcsi,
        hstring, hend, blur_eq_iff (c := 0x1b) (by decide), blur_eq_iff (c := 0x9b) (by decide),
        blur_eq_iff (c := 0x5b) (by decide)]

theorem Kept.of_blur {s t : CodeUnits} (hs : Kept s) (h : t.map blur = s.map blur) : Kept t := by
  induction hs generalizing t with
  | nil => exact List.map_eq_nil_iff.mp h ▸ .nil
  | @token token rest htoken _ ih =>
    rw [List.map_append] at h
    obtain ⟨token', rest', rfl, htoken', hrest⟩ := List.map_eq_append_iff.mp h
    refine .token ?_ (ih hrest)
    have hlength : token'.length = token.length := by
      simpa using congrArg List.length htoken'
    rw [← nextSequence_blur, htoken', nextSequence_blur, htoken, hlength]
  | @intermediate i rest hi _ ih =>
    rw [List.map_cons, List.map_cons] at h
    obtain ⟨u, tail, rfl, hu, htail⟩ := List.map_eq_cons_iff.mp h
    obtain ⟨v, rest', rfl, hv, hrest⟩ := List.map_eq_cons_iff.mp htail
    rw [(blur_eq_iff (c := 0x1b) (by decide)).mp hu]
    refine .intermediate ?_ (ih hrest)
    rw [← isEscapeIntermediateByte_blur, hv, isEscapeIntermediateByte_blur, hi]

end Awen.Terminal
