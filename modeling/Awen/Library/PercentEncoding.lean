import Mathlib.Data.List.Basic
import Awen.Library.Unicode

/-!
# Percent encoding and form encoding

The encodings of the web platform for parts of addresses. `percentEncode keep` writes the UTF-8
bytes of a string, those of `keep` as they are and all others as `%XX`; `decodeURIComponent` reads
them back. `serializeForm` and `parseForm` write and read a list of names and values as it stands in
the query of an address, with `+` for a blank.
-/

namespace Awen

/-! ## ASCII -/

/-- The string of some ASCII bytes. -/
def asciiUnits (bytes : List ℕ) : CodeUnits := bytes.map UInt16.ofNat

@[simp] theorem asciiUnits_nil : asciiUnits [] = [] := rfl

@[simp] theorem asciiUnits_append (bytes bytes' : List ℕ) :
    asciiUnits (bytes ++ bytes') = asciiUnits bytes ++ asciiUnits bytes' := List.map_append

@[simp] theorem length_asciiUnits (bytes : List ℕ) : (asciiUnits bytes).length = bytes.length :=
  List.length_map _

theorem toNat_asciiUnit {byte : ℕ} (h : byte < 128) : (UInt16.ofNat byte).toNat = byte := by
  rw [UInt16.toNat_ofNat']
  exact Nat.mod_eq_of_lt (by omega)

/-- **An ASCII string is its own UTF-8.** -/
theorem encodeUtf8_asciiUnits {bytes : List ℕ} (h : ∀ byte ∈ bytes, byte < 128) :
    encodeUtf8 (asciiUnits bytes) = bytes := by
  have hscalar : ∀ byte ∈ bytes, IsScalar byte := fun byte hbyte ↦ by
    have := h byte hbyte
    unfold IsScalar
    omega
  have hunits : asciiUnits bytes = bytes.flatMap utf16 := by
    rw [asciiUnits, List.map_eq_flatMap]
    refine List.flatMap_congr fun byte hbyte ↦ ?_
    have := h byte hbyte
    rw [utf16, if_pos (by omega)]
  rw [hunits, encodeUtf8_of_wellFormed (wellFormed_flatMap_utf16 hscalar),
    codePoints_flatMap_utf16 hscalar]
  refine Eq.trans (List.flatMap_congr fun byte hbyte ↦ ?_) (List.flatMap_singleton' bytes)
  have := h byte hbyte
  rw [scalarUtf8, if_pos (by omega)]

theorem utf8_lt {p byte : ℕ} (hp : IsScalar p) (h : byte ∈ scalarUtf8 p) : byte < 256 := by
  unfold IsScalar at hp
  unfold scalarUtf8 at h
  split_ifs at h <;> simp only [List.mem_cons, List.not_mem_nil, or_false] at h <;> omega

/-- A code point that is not ASCII has no ASCII bytes. -/
theorem le_of_mem_scalarUtf8 {p byte : ℕ} (hp : 0x7f < p) (h : byte ∈ scalarUtf8 p) :
    0x80 ≤ byte := by
  rw [scalarUtf8, if_neg (by omega)] at h
  split_ifs at h <;> simp only [List.mem_cons, List.not_mem_nil, or_false] at h <;> omega

theorem encodeUtf8_lt {s : CodeUnits} (hs : IsWellFormed s) {byte : ℕ} (h : byte ∈ encodeUtf8 s) :
    byte < 256 := by
  rw [encodeUtf8_of_wellFormed hs, List.mem_flatMap] at h
  obtain ⟨p, hp, hbyte⟩ := h
  exact utf8_lt (hs p hp) hbyte

/-! ## Escaped bytes -/

/-- A digit of a byte, as the byte of its character. -/
def hexDigitByte (n : ℕ) : ℕ := if n < 10 then 0x30 + n else 0x37 + n

/-- The digit that a character stands for. -/
def hexDigitValue (c : ℕ) : Option ℕ :=
  if 0x30 ≤ c ∧ c ≤ 0x39 then some (c - 0x30)
  else if 0x41 ≤ c ∧ c ≤ 0x46 then some (c - 0x37)
  else if 0x61 ≤ c ∧ c ≤ 0x66 then some (c - 0x57)
  else none

theorem hexDigitValue_hexDigitByte {n : ℕ} (h : n < 16) :
    hexDigitValue (hexDigitByte n) = some n := by
  unfold hexDigitByte hexDigitValue
  split_ifs <;> first | omega | exact congrArg some (by omega)

/-- The characters of digits are letters and digits. -/
theorem hexDigitByte_mem {n : ℕ} (h : n < 16) : 0x30 ≤ hexDigitByte n ∧ hexDigitByte n ≤ 0x39 ∨
    0x41 ≤ hexDigitByte n ∧ hexDigitByte n ≤ 0x46 := by
  unfold hexDigitByte
  split_ifs <;> omega

/-- `%XX` -/
def percentByte (byte : ℕ) : List ℕ := [0x25, hexDigitByte (byte / 16), hexDigitByte (byte % 16)]

/-- A byte that is kept, or its escape. -/
def escapeByte (keep : ℕ → Bool) (byte : ℕ) : List ℕ :=
  if keep byte then [byte] else percentByte byte

/-- The UTF-8 bytes of a string, those that are not kept as `%XX`. -/
def percentEncode (keep : ℕ → Bool) (s : CodeUnits) : CodeUnits :=
  asciiUnits ((encodeUtf8 s).flatMap (escapeByte keep))

/-- What an escaped byte is written with. -/
theorem mem_escapeByte {keep : ℕ → Bool} {byte c : ℕ} (hbyte : byte < 256)
    (h : c ∈ escapeByte keep byte) : keep c = true ∨ c = 0x25 ∨ 0x30 ≤ c ∧ c ≤ 0x39 ∨
      0x41 ≤ c ∧ c ≤ 0x46 := by
  rw [escapeByte] at h
  split at h
  next hkeep => exact .inl (List.mem_singleton.mp h ▸ hkeep)
  next =>
    simp only [percentByte, List.mem_cons, List.not_mem_nil, or_false] at h
    rcases h with rfl | rfl | rfl
    · exact .inr (.inl rfl)
    · exact .inr (.inr (hexDigitByte_mem (by omega)))
    · exact .inr (.inr (hexDigitByte_mem (by omega)))

theorem length_escapeByte_le (keep : ℕ → Bool) (byte : ℕ) : (escapeByte keep byte).length ≤ 3 := by
  rw [escapeByte]
  split
  next => exact Nat.le_add_left 1 2
  next => exact Nat.le_refl 3

theorem length_flatMap_le {α β : Type*} {f : α → List β} {n : ℕ} {items : List α}
    (h : ∀ a ∈ items, (f a).length ≤ n) : (items.flatMap f).length ≤ n * items.length := by
  induction items with
  | nil => exact Nat.zero_le _
  | cons a items ih =>
    rw [List.flatMap_cons, List.length_append, List.length_cons, Nat.mul_succ, Nat.add_comm]
    exact Nat.add_le_add (ih fun b hb ↦ h b (List.mem_cons_of_mem _ hb)) (h a List.mem_cons_self)

/-- **A code unit has at most three bytes.** -/
theorem length_encodeUtf8_le {s : CodeUnits} (hs : IsWellFormed s) :
    (encodeUtf8 s).length ≤ 3 * s.length := by
  rw [encodeUtf8_of_wellFormed hs]
  conv_rhs => rw [← flatMap_codePoints s]
  induction codePoints s with
  | nil => exact Nat.zero_le _
  | cons p ps ih =>
    have hsize : utf8Size p ≤ 3 * utf16Size p := by
      unfold utf8Size utf16Size
      split_ifs <;> omega
    rw [List.flatMap_cons, List.flatMap_cons, List.length_append, List.length_append,
      length_scalarUtf8, length_utf16, Nat.mul_add]
    exact Nat.add_le_add hsize ih

/-- **Percent encoding needs up to nine characters for a code unit.** -/
theorem length_percentEncode_le {keep : ℕ → Bool} {s : CodeUnits} (hs : IsWellFormed s) :
    (percentEncode keep s).length ≤ 9 * s.length := by
  have hlength := length_flatMap_le fun byte (_ : byte ∈ encodeUtf8 s) ↦
    length_escapeByte_le keep byte
  have hbytes := length_encodeUtf8_le hs
  rw [percentEncode, length_asciiUnits]
  omega

/-! ## Reading escaped strings -/

/-- The string that some bytes are the UTF-8 of. -/
def strictUtf8 (bytes : List ℕ) : Option CodeUnits :=
  if encodeUtf8 (decodeUtf8 bytes) = bytes then some (decodeUtf8 bytes) else none

theorem strictUtf8_flatMap {ps : List ℕ} (h : ∀ p ∈ ps, IsScalar p) :
    strictUtf8 (ps.flatMap scalarUtf8) = some (ps.flatMap utf16) := by
  have hdecode : decodeUtf8 (ps.flatMap scalarUtf8) = ps.flatMap utf16 := by
    rw [decodeUtf8, Utf8Decoder.run_flatMap h]
  rw [strictUtf8, hdecode, if_pos]
  rw [encodeUtf8_of_wellFormed (wellFormed_flatMap_utf16 h), codePoints_flatMap_utf16 h]

/-- `decodeURIComponent` behind some bytes that were escaped: it fails at a `%` without two digits,
and at escaped bytes that are no UTF-8. -/
def decodeEscaped (pending : List ℕ) : CodeUnits → Option CodeUnits
  | [] => strictUtf8 pending
  | u :: s =>
    if u = 0x25 then
      match s with
      | high :: low :: rest =>
        match hexDigitValue high.toNat, hexDigitValue low.toNat with
        | some high, some low => decodeEscaped (pending ++ [high * 16 + low]) rest
        | _, _ => none
      | _ => none
    else do
      let before ← strictUtf8 pending
      let after ← decodeEscaped [] s
      some (before ++ u :: after)

def decodeURIComponent (s : CodeUnits) : Option CodeUnits := decodeEscaped [] s

theorem decodeEscaped_cons_of_ne (pending : List ℕ) {u : UInt16} (hu : u ≠ 0x25)
    (s : CodeUnits) :
    decodeEscaped pending (u :: s) = (strictUtf8 pending).bind fun before ↦
      (decodeEscaped [] s).bind fun after ↦ some (before ++ u :: after) := by
  conv_lhs => rw [decodeEscaped.eq_def]
  exact if_neg hu

theorem decodeEscaped_percentByte (pending : List ℕ) {byte : ℕ} (hbyte : byte < 256)
    (rest : CodeUnits) :
    decodeEscaped pending (asciiUnits (percentByte byte) ++ rest) =
      decodeEscaped (pending ++ [byte]) rest := by
  have hdigit : ∀ n < 16, (UInt16.ofNat (hexDigitByte n)).toNat = hexDigitByte n := fun n hn ↦
    toNat_asciiUnit (by have := hexDigitByte_mem hn; omega)
  simp only [percentByte, asciiUnits, List.map_cons, List.map_nil, List.cons_append,
    List.nil_append]
  rw [decodeEscaped, if_pos (by decide)]
  simp only [hdigit _ (show byte / 16 < 16 by omega), hdigit _ (show byte % 16 < 16 by omega),
    hexDigitValue_hexDigitByte (show byte / 16 < 16 by omega),
    hexDigitValue_hexDigitByte (show byte % 16 < 16 by omega)]
  rw [Nat.div_add_mod']

/-- **Escaped bytes are read one after the other.** -/
theorem decodeEscaped_percentBytes (pending : List ℕ) {bytes : List ℕ}
    (h : ∀ byte ∈ bytes, byte < 256) (rest : CodeUnits) :
    decodeEscaped pending (asciiUnits (bytes.flatMap percentByte) ++ rest) =
      decodeEscaped (pending ++ bytes) rest := by
  induction bytes generalizing pending with
  | nil => rw [List.append_nil]; rfl
  | cons byte bytes ih =>
    rw [List.flatMap_cons, asciiUnits_append, List.append_assoc,
      decodeEscaped_percentByte _ (h byte List.mem_cons_self),
      ih _ fun c hc ↦ h c (List.mem_cons_of_mem _ hc), List.append_assoc]
    rfl

/-- **What is encoded is decoded**, if only ASCII bytes are kept, and not the sign of an escape. -/
theorem decodeURIComponent_percentEncode {keep : ℕ → Bool}
    (hkeep : ∀ byte, keep byte = true → byte < 128 ∧ byte ≠ 0x25) {s : CodeUnits}
    (hs : IsWellFormed s) : decodeURIComponent (percentEncode keep s) = some s := by
  suffices h : ∀ ps qs : List ℕ, (∀ p ∈ ps, IsScalar p) → (∀ q ∈ qs, IsScalar q) →
      decodeEscaped (qs.flatMap scalarUtf8)
        (asciiUnits ((ps.flatMap scalarUtf8).flatMap (escapeByte keep))) =
        some (qs.flatMap utf16 ++ ps.flatMap utf16) by
    have hcode := h (codePoints s) [] hs (List.forall_mem_nil _)
    rw [flatMap_codePoints] at hcode
    rw [decodeURIComponent, percentEncode, encodeUtf8_of_wellFormed hs]
    exact hcode
  intro ps
  induction ps with
  | nil =>
    intro qs _ hqs
    rw [List.flatMap_nil, List.flatMap_nil, asciiUnits_nil, decodeEscaped, strictUtf8_flatMap hqs,
      List.flatMap_nil, List.append_nil]
  | cons p ps ih =>
    intro qs hps hqs
    have hp := hps p List.mem_cons_self
    have hps' : ∀ p ∈ ps, IsScalar p := fun q hq ↦ hps q (List.mem_cons_of_mem _ hq)
    rw [List.flatMap_cons, List.flatMap_append, asciiUnits_append]
    by_cases hkept : p ≤ 0x7f ∧ keep p = true
    · -- the byte is the character itself, and no escape is open behind it
      have hbyte : scalarUtf8 p = [p] := if_pos hkept.1
      have hunit : utf16 p = [UInt16.ofNat p] := if_pos (by omega)
      have hne : UInt16.ofNat p ≠ 0x25 := fun heq ↦ (hkeep p hkept.2).2 <| by
        have hnat := congrArg UInt16.toNat heq
        rwa [toNat_asciiUnit (hkeep p hkept.2).1] at hnat
      rw [hbyte, List.flatMap_singleton, escapeByte, if_pos hkept.2]
      simp only [asciiUnits, List.map_cons, List.map_nil, List.cons_append, List.nil_append]
      rw [decodeEscaped_cons_of_ne _ hne, strictUtf8_flatMap hqs]
      have hafter := ih [] hps' (List.forall_mem_nil _)
      rw [List.flatMap_nil, List.flatMap_nil, List.nil_append, asciiUnits] at hafter
      rw [hafter, List.flatMap_cons, hunit]
      rfl
    · have hescaped : (scalarUtf8 p).flatMap (escapeByte keep) =
          (scalarUtf8 p).flatMap percentByte := by
        refine List.flatMap_congr fun byte hbyte ↦ if_neg fun hkeepByte ↦ hkept ?_
        have hlt := (hkeep byte hkeepByte).1
        have hle : p ≤ 0x7f := by
          by_contra hgt
          have := le_of_mem_scalarUtf8 (Nat.lt_of_not_le hgt) hbyte
          omega
        rw [scalarUtf8, if_pos hle, List.mem_singleton] at hbyte
        exact ⟨hle, hbyte ▸ hkeepByte⟩
      rw [hescaped, decodeEscaped_percentBytes _ fun byte hbyte ↦ utf8_lt hp hbyte]
      have hafter := ih (qs ++ [p]) hps' fun q hq ↦ (List.mem_append.mp hq).elim (hqs q) fun hq ↦
        List.mem_singleton.mp hq ▸ hp
      rw [List.flatMap_append, List.flatMap_singleton, List.flatMap_append,
        List.flatMap_singleton] at hafter
      rw [hafter, List.flatMap_cons, List.append_assoc]

/-! ## Forms -/

/-- A letter or a digit. -/
def isAlphanumericByte (byte : ℕ) : Bool :=
  decide (0x30 ≤ byte ∧ byte ≤ 0x39 ∨ 0x41 ≤ byte ∧ byte ≤ 0x5a ∨ 0x61 ≤ byte ∧ byte ≤ 0x7a)

/-- What a form keeps: letters, digits and `*-._`. -/
def isFormByte (byte : ℕ) : Bool :=
  isAlphanumericByte byte || byte == 0x2a || byte == 0x2d || byte == 0x2e || byte == 0x5f

/-- A byte of a name or a value: `+` stands for a blank. -/
def formByte (byte : ℕ) : List ℕ := if byte = 0x20 then [0x2b] else escapeByte isFormByte byte

def formBytes (s : CodeUnits) : List ℕ := (encodeUtf8 s).flatMap formByte

def formText (pairs : List (CodeUnits × CodeUnits)) : List ℕ :=
  [0x26].intercalate (pairs.map fun (name, value) ↦ formBytes name ++ 0x3d :: formBytes value)

/-- `new URLSearchParams(pairs).toString()` -/
def serializeForm (pairs : List (CodeUnits × CodeUnits)) : CodeUnits := asciiUnits (formText pairs)

/-- The byte of the escape at the start of some bytes. -/
def escapedByte : List ℕ → Option ℕ
  | 0x25 :: high :: low :: _ => do
    let high ← hexDigitValue high
    let low ← hexDigitValue low
    some (high * 16 + low)
  | _ => none

/-- The bytes with every escape read as its byte. The next `skip` bytes belong to the escape
before. -/
def percentDecode : ℕ → List ℕ → List ℕ
  | _, [] => []
  | skip + 1, _ :: bytes => percentDecode skip bytes
  | 0, byte :: bytes =>
    match escapedByte (byte :: bytes) with
    | some escaped => escaped :: percentDecode 2 bytes
    | none => byte :: percentDecode 0 bytes

def formDecode (bytes : List ℕ) : CodeUnits :=
  decodeUtf8 (percentDecode 0 (bytes.map fun byte ↦ if byte = 0x2b then 0x20 else byte))

/-- The names and values of a query. -/
def parseForm (query : CodeUnits) : List (CodeUnits × CodeUnits) :=
  (((encodeUtf8 query).splitOn 0x26).filter (· ≠ [])).map fun sequence ↦
    let name := sequence.takeWhile (· ≠ 0x3d)
    (formDecode name, formDecode (sequence.drop (name.length + 1)))

theorem percentDecode_cons_of_ne {byte : ℕ} (h : byte ≠ 0x25) (bytes : List ℕ) :
    percentDecode 0 (byte :: bytes) = byte :: percentDecode 0 bytes := by
  have hnone : escapedByte (byte :: bytes) = none := by
    unfold escapedByte
    split
    next heq => exact absurd (List.cons.inj heq).1 h
    next => rfl
  rw [percentDecode, hnone]

theorem percentDecode_percentByte {byte : ℕ} (hbyte : byte < 256) (rest : List ℕ) :
    percentDecode 0 (percentByte byte ++ rest) = byte :: percentDecode 0 rest := by
  have hescaped : escapedByte (percentByte byte ++ rest) = some byte := by
    simp only [percentByte, List.cons_append, escapedByte,
      hexDigitValue_hexDigitByte (show byte / 16 < 16 by omega),
      hexDigitValue_hexDigitByte (show byte % 16 < 16 by omega), Option.bind_eq_bind,
      Option.bind_some, Nat.div_add_mod']
  rw [percentByte, List.cons_append] at hescaped ⊢
  rw [percentDecode, hescaped]
  rfl

theorem isFormByte_iff {byte : ℕ} : isFormByte byte = true ↔
    (0x30 ≤ byte ∧ byte ≤ 0x39 ∨ 0x41 ≤ byte ∧ byte ≤ 0x5a ∨ 0x61 ≤ byte ∧ byte ≤ 0x7a) ∨
      byte = 0x2a ∨ byte = 0x2d ∨ byte = 0x2e ∨ byte = 0x5f := by
  simp only [isFormByte, isAlphanumericByte, Bool.or_eq_true, decide_eq_true_iff, beq_iff_eq,
    or_assoc]

/-- What a name or a value is written with. -/
theorem mem_formByte {byte c : ℕ} (hbyte : byte < 256) (h : c ∈ formByte byte) :
    isFormByte c = true ∨ c = 0x25 ∨ c = 0x2b := by
  rw [formByte] at h
  split at h
  next => exact .inr (.inr (List.mem_singleton.mp h))
  next =>
    rcases mem_escapeByte hbyte h with hkeep | rfl | hdigit
    · exact .inl hkeep
    · exact .inr (.inl rfl)
    · exact .inl (isFormByte_iff.mpr (by omega))

theorem mem_formBytes {s : CodeUnits} (hs : IsWellFormed s) {c : ℕ} (h : c ∈ formBytes s) :
    isFormByte c = true ∨ c = 0x25 ∨ c = 0x2b := by
  obtain ⟨byte, hbyte, hc⟩ := List.mem_flatMap.mp h
  exact mem_formByte (encodeUtf8_lt hs hbyte) hc

/-- A byte of a form is read as it was written. -/
theorem percentDecode_formByte {byte : ℕ} (hbyte : byte < 256) (rest : List ℕ) :
    percentDecode 0
        (((formByte byte).map fun byte ↦ if byte = 0x2b then 0x20 else byte) ++ rest) =
      byte :: percentDecode 0 rest := by
  rw [formByte]
  split
  next hblank =>
    subst hblank
    exact percentDecode_cons_of_ne (by decide) rest
  next =>
    rw [escapeByte]
    split
    next hkeep =>
      have hform := isFormByte_iff.mp hkeep
      rw [List.map_singleton, if_neg (by omega), List.singleton_append,
        percentDecode_cons_of_ne (by omega)]
    next =>
      have hsame : (percentByte byte).map (fun byte ↦ if byte = 0x2b then 0x20 else byte) =
          percentByte byte := by
        refine (List.map_congr_left fun c hc ↦ if_neg ?_).trans (List.map_id _)
        have hbytes := @mem_escapeByte (fun _ ↦ false) byte c hbyte hc
        simp only [Bool.false_eq_true, false_or] at hbytes
        omega
      rw [hsame, percentDecode_percentByte hbyte]

theorem formDecode_formBytes {s : CodeUnits} (hs : IsWellFormed s) :
    formDecode (formBytes s) = s := by
  suffices h : ∀ bytes : List ℕ, (∀ byte ∈ bytes, byte < 256) →
      percentDecode 0 ((bytes.flatMap formByte).map
        fun byte ↦ if byte = 0x2b then 0x20 else byte) = bytes by
    rw [formDecode, formBytes, h _ fun byte ↦ encodeUtf8_lt hs, decodeUtf8_encodeUtf8 hs]
  intro bytes
  induction bytes with
  | nil => exact fun _ ↦ rfl
  | cons byte bytes ih =>
    intro hbytes
    rw [List.flatMap_cons, List.map_append,
      percentDecode_formByte (hbytes byte List.mem_cons_self),
      ih fun c hc ↦ hbytes c (List.mem_cons_of_mem _ hc)]

theorem length_formBytes_le {s : CodeUnits} (hs : IsWellFormed s) :
    (formBytes s).length ≤ 9 * s.length := by
  have hlength := length_flatMap_le fun byte (_ : byte ∈ encodeUtf8 s) ↦
    show (formByte byte).length ≤ 3 by
      rw [formByte]
      split
      next => exact Nat.le_add_left 1 2
      next => exact length_escapeByte_le _ byte
  have hbytes := length_encodeUtf8_le hs
  rw [formBytes]
  omega

/-- The sequence of a name and a value. -/
theorem formSequence_cut {name value : CodeUnits} (hname : IsWellFormed name)
    (hvalue : IsWellFormed value) :
    (formDecode ((formBytes name ++ 0x3d :: formBytes value).takeWhile (· ≠ 0x3d)),
      formDecode ((formBytes name ++ 0x3d :: formBytes value).drop
        (((formBytes name ++ 0x3d :: formBytes value).takeWhile (· ≠ 0x3d)).length + 1))) =
      (name, value) := by
  have htake : (formBytes name ++ 0x3d :: formBytes value).takeWhile (· ≠ 0x3d) =
      formBytes name := by
    rw [List.takeWhile_append_of_pos fun c hc ↦ decide_eq_true ?_, List.takeWhile_cons,
      if_neg (by decide), List.append_nil]
    rcases mem_formBytes hname hc with hform | rfl | rfl
    · have := isFormByte_iff.mp hform
      omega
    · decide
    · decide
  have hdrop : (formBytes name ++ 0x3d :: formBytes value).drop ((formBytes name).length + 1) =
      formBytes value := by
    rw [← List.drop_drop, List.drop_left]
    rfl
  rw [htake, hdrop, formDecode_formBytes hname, formDecode_formBytes hvalue]

/-- A byte of the query of a form. -/
def IsQueryByte (c : ℕ) : Prop :=
  isFormByte c = true ∨ c = 0x25 ∨ c = 0x2b ∨ c = 0x26 ∨ c = 0x3d

theorem mem_formSequence {name value : CodeUnits} (hname : IsWellFormed name)
    (hvalue : IsWellFormed value) {c : ℕ} (h : c ∈ formBytes name ++ 0x3d :: formBytes value) :
    IsQueryByte c ∧ c ≠ 0x26 := by
  have hpart : isFormByte c = true ∨ c = 0x25 ∨ c = 0x2b → IsQueryByte c ∧ c ≠ 0x26 := by
    rintro (hform | rfl | rfl)
    · have := isFormByte_iff.mp hform
      exact ⟨.inl hform, by omega⟩
    · exact ⟨.inr (.inl rfl), by decide⟩
    · exact ⟨.inr (.inr (.inl rfl)), by decide⟩
  rcases List.mem_append.mp h with h | h
  · exact hpart (mem_formBytes hname h)
  · rcases List.mem_cons.mp h with rfl | h
    · exact ⟨.inr (.inr (.inr (.inr rfl))), by decide⟩
    · exact hpart (mem_formBytes hvalue h)

theorem mem_intercalate {α : Type*} {separator : α} {lists : List (List α)} {a : α}
    (h : a ∈ [separator].intercalate lists) : a = separator ∨ ∃ list ∈ lists, a ∈ list := by
  induction lists with
  | nil => exact absurd h List.not_mem_nil
  | cons list lists ih =>
    rcases lists with _ | ⟨second, lists⟩
    · rw [List.intercalate_singleton] at h
      exact .inr ⟨list, List.mem_cons_self, h⟩
    · rw [List.intercalate_cons_cons, List.append_assoc, List.mem_append, List.mem_append,
        List.mem_singleton] at h
      rcases h with h | h | h
      · exact .inr ⟨list, List.mem_cons_self, h⟩
      · exact .inl h
      · exact (ih h).imp id fun ⟨other, hother, ha⟩ ↦ ⟨other, List.mem_cons_of_mem _ hother, ha⟩

/-- **The query of a form.** -/
theorem isQueryByte_formText {pairs : List (CodeUnits × CodeUnits)}
    (h : ∀ pair ∈ pairs, IsWellFormed pair.1 ∧ IsWellFormed pair.2) {c : ℕ}
    (hc : c ∈ formText pairs) : IsQueryByte c := by
  rcases mem_intercalate hc with rfl | ⟨sequence, hsequence, hc⟩
  · exact .inr (.inr (.inr (.inl rfl)))
  · obtain ⟨pair, hpair, rfl⟩ := List.mem_map.mp hsequence
    exact (mem_formSequence (h pair hpair).1 (h pair hpair).2 hc).1

theorem IsQueryByte.lt {c : ℕ} (h : IsQueryByte c) : c < 128 := by
  rcases h with hform | h
  · have := isFormByte_iff.mp hform
    omega
  · omega

/-- **A form needs up to nine characters for a code unit, and two for each pair.** -/
theorem length_serializeForm_le {pairs : List (CodeUnits × CodeUnits)}
    (h : ∀ pair ∈ pairs, IsWellFormed pair.1 ∧ IsWellFormed pair.2) :
    (serializeForm pairs).length ≤
      (pairs.map fun pair ↦ 9 * pair.1.length + 9 * pair.2.length + 2).sum := by
  rw [serializeForm, length_asciiUnits, formText]
  induction pairs with
  | nil => exact Nat.le_refl 0
  | cons pair pairs ih =>
    obtain ⟨name, value⟩ := pair
    obtain ⟨hname, hvalue⟩ := h (name, value) List.mem_cons_self
    have hname : (formBytes name).length ≤ 9 * name.length := length_formBytes_le hname
    have hvalue : (formBytes value).length ≤ 9 * value.length := length_formBytes_le hvalue
    have hrest := ih fun other hother ↦ h other (List.mem_cons_of_mem _ hother)
    rcases pairs with _ | ⟨second, pairs⟩
    · simp only [List.map_cons, List.map_nil, List.intercalate_singleton, List.length_append,
        List.length_cons, List.sum_cons, List.sum_nil]
      omega
    · simp only [List.map_cons, List.intercalate_cons_cons, List.length_append, List.length_cons,
        List.length_nil, List.sum_cons] at hrest ⊢
      omega

/-- **What a form writes it reads.** -/
theorem parseForm_serializeForm {pairs : List (CodeUnits × CodeUnits)}
    (h : ∀ pair ∈ pairs, IsWellFormed pair.1 ∧ IsWellFormed pair.2) :
    parseForm (serializeForm pairs) = pairs := by
  rw [parseForm, serializeForm, encodeUtf8_asciiUnits fun c hc ↦ (isQueryByte_formText h hc).lt,
    formText]
  rcases pairs with _ | ⟨pair, pairs⟩
  · rfl
  · have hsplit := @List.splitOn_intercalate _ ((pair :: pairs).map
      fun (name, value) ↦ formBytes name ++ 0x3d :: formBytes value) _ _ (0x26 : ℕ)
      (fun sequence hsequence hmem ↦ by
        obtain ⟨pair, hpair, rfl⟩ := List.mem_map.mp hsequence
        exact (mem_formSequence (h pair hpair).1 (h pair hpair).2 hmem).2 rfl)
      (List.cons_ne_nil _ _)
    rw [hsplit, List.filter_eq_self.mpr fun sequence hsequence ↦ decide_eq_true ?_, List.map_map]
    · refine (List.map_congr_left fun pair hpair ↦ ?_).trans (List.map_id _)
      exact formSequence_cut (h pair hpair).1 (h pair hpair).2
    · obtain ⟨pair, -, rfl⟩ := List.mem_map.mp hsequence
      exact List.append_ne_nil_of_right_ne_nil _ (List.cons_ne_nil _ _)

end Awen
