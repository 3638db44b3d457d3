import Awen.Library.LongestSuffix
import Awen.Terminal.BoundedHistory

/-!
# The bounded history is the longest end of the text within the limits

The limits are stated on code points: `Fits`. `Counts` says that a history knows the lengths and the
line breaks of its chunks and that no surrogate pair straddles two of them. A step that trims cuts
code points off the front (`CutsOff`), as many as the limits ask for and no more, so that what stays
is `longestSuffix Fits`; `append_spec` says so of whole texts, in whatever parts they come.
-/

namespace Awen.Terminal

/-! ## The limits -/

/-- The number of lines of a text. A line break at its end does not open a new line. -/
def lineCount (ps : List ℕ) : ℕ := ps.count 10 + if ps.getLast?.all (· = 10) then 0 else 1

/-- The length of a text in UTF-8. -/
def utf8Length (ps : List ℕ) : ℕ := (ps.map utf8Size).sum

/-- A text within the limits. -/
def Fits (maxLines maxBytes : ℕ) (ps : List ℕ) : Prop :=
  lineCount ps ≤ maxLines ∧ utf8Length ps ≤ maxBytes

instance (maxLines maxBytes : ℕ) : DecidablePred (Fits maxLines maxBytes) :=
  fun _ ↦ inferInstanceAs (Decidable (_ ∧ _))

section Fits

variable {maxLines maxBytes : ℕ} {ps qs : List ℕ}

@[simp] theorem utf8Length_nil : utf8Length [] = 0 := rfl

@[simp] theorem utf8Length_append (ps qs : List ℕ) :
    utf8Length (ps ++ qs) = utf8Length ps + utf8Length qs := by
  simp [utf8Length]

@[simp] theorem utf8Length_cons (p : ℕ) : utf8Length (p :: ps) = utf8Size p + utf8Length ps := rfl

theorem utf8Length_codePoints (s : CodeUnits) : utf8Length (codePoints s) = byteLength s := rfl

theorem lineCount_append_of_ne_nil (h : qs ≠ []) :
    lineCount (ps ++ qs) = ps.count 10 + lineCount qs := by
  rw [lineCount, lineCount, List.count_append, List.getLast?_append_of_ne_nil _ h]
  omega

theorem lineCount_le_append (ps qs : List ℕ) : lineCount ps ≤ lineCount (ps ++ qs) := by
  cases qs with
  | nil => exact Nat.le_of_eq (congrArg lineCount (List.append_nil ps).symm)
  | cons q qs =>
    rw [lineCount_append_of_ne_nil (List.cons_ne_nil q qs), lineCount]
    -- text that goes on behind a line without a break has a line itself
    have hpos : 0 < lineCount (q :: qs) := by
      rw [lineCount]
      split
      · rename_i hlast
        obtain ⟨p, hp⟩ := Option.ne_none_iff_exists'.mp
          (mt List.getLast?_eq_none_iff.mp (List.cons_ne_nil q qs))
        rw [hp, Option.all_some, decide_eq_true_eq] at hlast
        subst hlast
        exact Nat.add_pos_left (List.count_pos_iff.mpr (List.mem_of_getLast? hp)) _
      · omega
    split <;> omega

theorem lineCount_le_of_suffix (h : qs <:+ ps) : lineCount qs ≤ lineCount ps := by
  obtain ⟨front, rfl⟩ := h
  cases qs with
  | nil => exact Nat.zero_le _
  | cons q qs =>
    rw [lineCount_append_of_ne_nil (List.cons_ne_nil q qs)]
    omega

theorem Fits.of_suffix (hsuffix : qs <:+ ps) (h : Fits maxLines maxBytes ps) :
    Fits maxLines maxBytes qs := by
  refine ⟨Nat.le_trans (lineCount_le_of_suffix hsuffix) h.1, ?_⟩
  obtain ⟨front, rfl⟩ := hsuffix
  exact Nat.le_trans (utf8Length_append front qs ▸ Nat.le_add_left ..) h.2

theorem Fits.of_append (h : Fits maxLines maxBytes (ps ++ qs)) : Fits maxLines maxBytes ps := by
  obtain ⟨hlines, hbytes⟩ := h
  rw [utf8Length_append] at hbytes
  exact ⟨Nat.le_trans (lineCount_le_append ps qs) hlines, by omega⟩

theorem fits_nil : Fits maxLines maxBytes [] := ⟨Nat.zero_le _, Nat.zero_le _⟩

end Fits

namespace BoundedTerminalHistory

/-! ## Counting -/

theorem countLineBreaks_eq (s : CodeUnits) : countLineBreaks s = (codePoints s).count 10 :=
  (count_codePoints (u := newline) (by decide) (by decide) s).symm

/-- A chunk that knows its length and its line breaks. -/
structure ChunkOk (chunk : TerminalHistoryChunk) : Prop where
  ne_nil : chunk.data ≠ []
  byteLength_eq : chunk.byteLength = utf8Length (codePoints chunk.data)
  lineBreaks_eq : chunk.lineBreaks = (codePoints chunk.data).count 10

/-- The text of chunks. -/
def chunksText (chunks : List TerminalHistoryChunk) : CodeUnits := chunks.flatMap (·.data)

/-- No surrogate pair straddles two chunks. -/
def Seamless : List TerminalHistoryChunk → Prop
  | [] => True
  | chunk :: chunks => codePoints (chunk.data ++ chunksText chunks) =
      codePoints chunk.data ++ codePoints (chunksText chunks) ∧ Seamless chunks

/-- The code points of the text. -/
def points (history : BoundedTerminalHistory) : List ℕ := codePoints (chunksText history.chunks)

/-- **A history that knows what it holds.** -/
structure Counts (history : BoundedTerminalHistory) : Prop where
  ok : ∀ chunk ∈ history.chunks, ChunkOk chunk
  seamless : Seamless history.chunks
  byteLength_eq : history.byteLength = utf8Length history.points
  lineBreaks_eq : history.lineBreaks = history.points.count 10

@[simp] theorem chunksText_nil : chunksText [] = [] := rfl

@[simp] theorem chunksText_cons (chunk : TerminalHistoryChunk)
    (chunks : List TerminalHistoryChunk) :
    chunksText (chunk :: chunks) = chunk.data ++ chunksText chunks := rfl

@[simp] theorem chunksText_append (chunks rest : List TerminalHistoryChunk) :
    chunksText (chunks ++ rest) = chunksText chunks ++ chunksText rest :=
  List.flatMap_append

theorem chunksText_eq_nil {chunks : List TerminalHistoryChunk}
    (h : ∀ chunk ∈ chunks, ChunkOk chunk) : chunksText chunks = [] ↔ chunks = [] := by
  cases chunks with
  | nil => simp
  | cons chunk chunks => simp [(h chunk List.mem_cons_self).ne_nil]

/-- The fields that trimming leaves alone. -/
structure SameLimits (history history' : BoundedTerminalHistory) : Prop where
  maxLines : history'.maxLines = history.maxLines
  maxBytes : history'.maxBytes = history.maxBytes
  lastCodeUnit : history'.lastCodeUnit = history.lastCodeUnit
  cachedValue : history'.cachedValue = history.cachedValue

/-- **Code points are cut off the front.** -/
structure CutsOff (history history' : BoundedTerminalHistory) (front : List ℕ) : Prop where
  counts : history'.Counts
  points_eq : history.points = front ++ history'.points
  same : SameLimits history history'

section Cuts

variable {history history' history'' : BoundedTerminalHistory} {front front' : List ℕ}

theorem SameLimits.refl (history : BoundedTerminalHistory) : SameLimits history history :=
  ⟨rfl, rfl, rfl, rfl⟩

theorem CutsOff.refl (h : history.Counts) : CutsOff history history [] :=
  ⟨h, rfl, SameLimits.refl history⟩

theorem CutsOff.trans (h : CutsOff history history' front)
    (h' : CutsOff history' history'' front') : CutsOff history history'' (front ++ front') where
  counts := h'.counts
  points_eq := by rw [h.points_eq, h'.points_eq, List.append_assoc]
  same := ⟨h'.same.maxLines.trans h.same.maxLines, h'.same.maxBytes.trans h.same.maxBytes,
    h'.same.lastCodeUnit.trans h.same.lastCodeUnit, h'.same.cachedValue.trans h.same.cachedValue⟩

theorem cutsOff_discardChunk (h : history.Counts) {first : TerminalHistoryChunk}
    {chunks : List TerminalHistoryChunk} (hchunks : history.chunks = first :: chunks) :
    CutsOff history history.discardChunk (codePoints first.data) := by
  obtain ⟨hok, hseamless, hbytes, hlines⟩ := h
  rw [hchunks] at hok hseamless
  obtain ⟨hfirst, hrest⟩ := List.forall_mem_cons.mp hok
  have hpoints : history.points = codePoints first.data ++ codePoints (chunksText chunks) := by
    rw [points, hchunks, chunksText_cons, hseamless.1]
  simp only [discardChunk, hchunks]
  refine ⟨⟨hrest, hseamless.2, ?_, ?_⟩, hpoints, rfl, rfl, rfl, rfl⟩
  · rw [hbytes, hpoints, hfirst.byteLength_eq, utf8Length_append]
    exact Nat.add_sub_cancel_left ..
  · rw [hlines, hpoints, hfirst.lineBreaks_eq, List.count_append]
    exact Nat.add_sub_cancel_left ..

/-- Cutting code points off the first chunk. -/
theorem cutsOff_trimChunk (h : history.Counts) {first : TerminalHistoryChunk}
    {chunks : List TerminalHistoryChunk} (hchunks : history.chunks = first :: chunks)
    {rest : List ℕ} (hdata : codePoints first.data = front ++ rest) :
    CutsOff history (history.trimChunk (front.flatMap utf16).length (utf8Length front)
      (front.count 10)) front := by
  have hsplit : first.data = front.flatMap utf16 ++ rest.flatMap utf16 := by
    rw [← List.flatMap_append, ← hdata, flatMap_codePoints]
  obtain ⟨-, hrest⟩ := codePoints_split hdata
  simp only [trimChunk, hchunks]
  split
  · rename_i hall
    -- the whole chunk goes
    have hnil : rest.flatMap utf16 = [] := by
      rw [hsplit, List.length_append] at hall
      exact List.eq_nil_of_length_eq_zero (by omega)
    have hfront : front = codePoints first.data := by
      rw [hnil] at hrest
      rw [hdata, ← hrest]
      exact (List.append_nil front).symm
    rw [hfront]
    exact cutsOff_discardChunk h hchunks
  · rename_i hpart
    obtain ⟨hok, hseamless, hbytes, hlines⟩ := h
    rw [hchunks] at hok hseamless
    obtain ⟨hfirst, hothers⟩ := List.forall_mem_cons.mp hok
    have hdrop : first.data.drop (front.flatMap utf16).length = rest.flatMap utf16 := by
      rw [hsplit, List.drop_left]
    have hpoints : history.points = front ++ (rest ++ codePoints (chunksText chunks)) := by
      rw [points, hchunks, chunksText_cons, hseamless.1, hdata, List.append_assoc]
    have hjoined : codePoints (rest.flatMap utf16 ++ chunksText chunks) =
        rest ++ codePoints (chunksText chunks) := by
      have htail := (codePoints_split (s := chunksText history.chunks) hpoints).2
      rwa [List.flatMap_append, flatMap_codePoints] at htail
    rw [hdrop]
    refine ⟨⟨List.forall_mem_cons.mpr ⟨⟨?_, ?_, ?_⟩, hothers⟩, ⟨?_, hseamless.2⟩, ?_, ?_⟩, ?_, rfl,
      rfl, rfl, rfl⟩
    · dsimp only
      intro hnil
      rw [hsplit, hnil, List.append_nil] at hpart
      exact hpart rfl
    · dsimp only
      rw [hfirst.byteLength_eq, hdata, hrest, utf8Length_append, Nat.add_sub_cancel_left]
    · dsimp only
      rw [hfirst.lineBreaks_eq, hdata, hrest, List.count_append, Nat.add_sub_cancel_left]
    · dsimp only
      rw [hjoined, hrest]
    · rw [points, chunksText_cons, hjoined, hbytes, hpoints, utf8Length_append front,
        Nat.add_sub_cancel_left]
    · rw [points, chunksText_cons, hjoined, hlines, hpoints, List.count_append,
        Nat.add_sub_cancel_left]
    · rw [hpoints, points, chunksText_cons, hjoined]

end Cuts

/-! ## Dropping lines -/

theorem offsetAfterLines_spec {data : CodeUnits} {lines : ℕ} (h : lines ≤ data.count newline) :
    ∃ front rest, data = front ++ rest ∧ offsetAfterLines data lines = front.length ∧
      front.count newline = lines ∧ (0 < lines → front.getLast? = some newline) := by
  induction lines with
  | zero => exact ⟨[], data, rfl, rfl, rfl, fun hpos ↦ absurd hpos (Nat.lt_irrefl 0)⟩
  | succ lines ih =>
    obtain ⟨front, rest, hdata, hoffset, hcount, -⟩ := ih (Nat.le_of_succ_le h)
    rw [hdata, List.count_append] at h
    have hmem : newline ∈ rest := List.count_pos_iff.mp (by omega)
    obtain ⟨before, after, rfl, hbefore⟩ := List.eq_append_cons_of_mem hmem
    have hindex : (before ++ newline :: after).findIdx? (· = newline) = some before.length := by
      have hnone : before.findIdx? (· = newline) = none := by
        rw [List.findIdx?_eq_none_iff]
        intro u hu
        exact decide_eq_false fun heq ↦ hbefore (heq ▸ hu)
      rw [List.findIdx?_append, hnone]
      simp [List.findIdx?_cons]
    refine ⟨front ++ before ++ [newline], after, by simp [hdata], ?_, ?_, fun _ ↦ by simp⟩
    · simp only [offsetAfterLines, hoffset]
      rw [hdata, List.drop_left, hindex]
      simp [Nat.add_assoc]
    · rw [List.count_append, List.count_append, hcount, List.count_eq_zero_of_not_mem hbefore]
      rfl

/-- **Dropping lines** cuts off as many line breaks, and ends behind one. -/
theorem cutsOff_dropLines {fuel : ℕ} {history : BoundedTerminalHistory} (h : history.Counts)
    (hfuel : history.chunks.length ≤ fuel) {linesToDrop : ℕ}
    (hlines : linesToDrop ≤ history.points.count 10) :
    ∃ front, CutsOff history (dropLines fuel history linesToDrop) front ∧
      front.count 10 = linesToDrop ∧ (front = [] ∨ front.getLast? = some 10) := by
  induction fuel generalizing history linesToDrop with
  | zero =>
    have hnil : history.chunks = [] := List.eq_nil_of_length_eq_zero (Nat.le_zero.mp hfuel)
    rw [points, hnil] at hlines
    exact ⟨[], CutsOff.refl h, (Nat.le_zero.mp hlines).symm, .inl rfl⟩
  | succ fuel ih =>
    rw [dropLines]
    split
    · rename_i hpos
      cases hchunks : history.chunks with
      | nil =>
        rw [points, hchunks] at hlines
        exact absurd hpos (Nat.not_lt.mpr hlines)
      | cons first chunks =>
        dsimp only
        have hfirst := h.ok first (hchunks ▸ List.mem_cons_self)
        split
        · rename_i hlt
          have hcut := cutsOff_discardChunk h hchunks
          have hcount := congrArg (List.count 10) hcut.points_eq
          rw [List.count_append, ← hfirst.lineBreaks_eq] at hcount
          have hchunksRest : history.discardChunk.chunks = chunks := by
            simp only [discardChunk, hchunks]
          rw [hchunks, List.length_cons] at hfuel
          have hrest : linesToDrop - first.lineBreaks ≤ history.discardChunk.points.count 10 := by
            omega
          obtain ⟨front, hfront, hbreaks, hlast⟩ :=
            ih hcut.counts (by rw [hchunksRest]; omega) hrest
          refine ⟨_, hcut.trans hfront, ?_, ?_⟩
          · rw [List.count_append, hbreaks, ← hfirst.lineBreaks_eq]
            omega
          · rcases hlast with rfl | hlast
            · rw [List.count_nil] at hbreaks
              omega
            · rw [List.getLast?_append, hlast]
              exact .inr rfl
        · rename_i hge
          rw [hfirst.lineBreaks_eq, ← countLineBreaks_eq] at hge
          obtain ⟨front, rest, hdata, hoffset, hcount, hlast⟩ :=
            offsetAfterLines_spec (Nat.not_lt.mp hge)
          have hpoints : codePoints first.data = codePoints front ++ codePoints rest := by
            rw [hdata]
            refine codePoints_append fun hstraddles ↦ ?_
            rw [Straddles, hlast hpos] at hstraddles
            exact absurd hstraddles.1 (by decide)
          have hcut := cutsOff_trimChunk h hchunks hpoints
          rw [flatMap_codePoints, ← countLineBreaks_eq, countLineBreaks, hcount] at hcut
          refine ⟨codePoints front, ?_, ?_, .inr ?_⟩
          · rw [hoffset, hdata, List.take_left]
            exact hcut
          · rw [← countLineBreaks_eq]
            exact hcount
          · exact (getLast?_codePoints (u := newline) (by decide) front).mpr (hlast hpos)
    · rename_i hzero
      exact ⟨[], CutsOff.refl h, by rw [List.count_nil]; omega, .inl rfl⟩

/-! ## Dropping bytes -/

/-- The scan stops between code points, as soon as it has dropped enough bytes. -/
theorem scanBytes_spec {data : CodeUnits} {bytesToDrop fuel : ℕ} {front rest : List ℕ}
    (hdata : codePoints data = front ++ rest) (hfuel : rest.length ≤ fuel)
    (hlast : ∀ p, front.getLast? = some p → utf8Length front < bytesToDrop + utf8Size p) :
    ∃ front' rest', codePoints data = front' ++ rest' ∧
      scanBytes data bytesToDrop fuel
        ((front.flatMap utf16).length, utf8Length front, front.count 10) =
          ((front'.flatMap utf16).length, utf8Length front', front'.count 10) ∧
      (bytesToDrop ≤ utf8Length front' ∨ rest' = []) ∧
      ∀ p, front'.getLast? = some p → utf8Length front' < bytesToDrop + utf8Size p := by
  induction fuel generalizing front rest with
  | zero =>
    exact ⟨front, rest, hdata, rfl,
      .inr (List.eq_nil_of_length_eq_zero (Nat.le_zero.mp hfuel)), hlast⟩
  | succ fuel ih =>
    rw [scanBytes]
    split
    · rename_i hmore
      have hdrop : data.drop (front.flatMap utf16).length = rest.flatMap utf16 := by
        rw [← flatMap_codePoints data, hdata, List.flatMap_append, List.drop_left]
      rw [hdrop, headCodePoint_eq, (codePoints_split hdata).2]
      cases rest with
      | nil => exact ⟨front, [], hdata, rfl, .inr rfl, hlast⟩
      | cons p rest =>
        have hnext : ((front.flatMap utf16).length + utf16Size p, utf8Length front + utf8Size p,
            if p = 10 then front.count 10 + 1 else front.count 10) =
          (((front ++ [p]).flatMap utf16).length, utf8Length (front ++ [p]),
            (front ++ [p]).count 10) := by
          simp only [List.flatMap_append, List.flatMap_singleton, List.length_append, length_utf16,
            utf8Length_append, utf8Length_cons, utf8Length_nil, List.count_append,
            List.count_singleton, beq_iff_eq, Nat.add_zero]
          split <;> rfl
        rw [List.head?_cons]
        dsimp only
        rw [hnext]
        refine ih (by rw [hdata, List.append_assoc]; rfl) (Nat.le_of_succ_le_succ hfuel) ?_
        intro q hq
        rw [List.getLast?_concat, Option.some_inj] at hq
        subst hq
        rw [utf8Length_append, utf8Length_cons, utf8Length_nil]
        omega
    · rename_i hdone
      exact ⟨front, rest, hdata, rfl, .inl (Nat.not_lt.mp hdone), hlast⟩

theorem dropBytes_of_le {history : BoundedTerminalHistory}
    (h : history.byteLength ≤ history.maxBytes) (fuel : ℕ) : dropBytes fuel history = history := by
  cases fuel with
  | zero => rfl
  | succ fuel => rw [dropBytes, if_neg (Nat.not_lt.mpr h)]

theorem utf16Size_le_utf8Size (p : ℕ) : utf16Size p ≤ utf8Size p := by
  unfold utf16Size utf8Size
  split_ifs <;> omega

theorem length_flatMap_utf16_le (ps : List ℕ) : (ps.flatMap utf16).length ≤ utf8Length ps := by
  induction ps with
  | nil => exact Nat.le_refl 0
  | cons p ps ih =>
    have hp := utf16Size_le_utf8Size p
    rw [List.flatMap_cons, List.length_append, length_utf16, utf8Length_cons]
    omega

theorem length_le_flatMap_utf16 (ps : List ℕ) : ps.length ≤ (ps.flatMap utf16).length := by
  induction ps with
  | nil => exact Nat.le_refl 0
  | cons p ps ih =>
    have hp := utf16Size_pos p
    rw [List.flatMap_cons, List.length_append, length_utf16, List.length_cons]
    omega

/-- A text with as many bytes as code units is ASCII. -/
theorem utf8Size_of_length_eq {ps : List ℕ} (h : utf8Length ps = (ps.flatMap utf16).length) :
    ∀ p ∈ ps, utf8Size p = 1 ∧ utf16Size p = 1 := by
  induction ps with
  | nil => exact fun p hp ↦ absurd hp List.not_mem_nil
  | cons p ps ih =>
    rw [utf8Length_cons, List.flatMap_cons, List.length_append, length_utf16] at h
    have hp := utf16Size_le_utf8Size p
    have hps := length_flatMap_utf16_le ps
    refine List.forall_mem_cons.mpr ⟨?_, ih (by omega)⟩
    have heq : utf8Size p = utf16Size p := by omega
    unfold utf8Size utf16Size at heq ⊢
    split_ifs at heq ⊢ <;> omega

theorem utf8Length_of_forall {ps : List ℕ} (h : ∀ p ∈ ps, utf8Size p = 1 ∧ utf16Size p = 1) :
    utf8Length ps = ps.length ∧ (ps.flatMap utf16).length = ps.length := by
  induction ps with
  | nil => exact ⟨rfl, rfl⟩
  | cons p ps ih =>
    obtain ⟨hp, hps⟩ := List.forall_mem_cons.mp h
    obtain ⟨hbytes, hunits⟩ := ih hps
    rw [utf8Length_cons, List.flatMap_cons, List.length_append, length_utf16, List.length_cons]
    omega

/-- The front that the first chunk loses for some bytes, whichever way it is found. -/
theorem exists_front_of_chunk {history : BoundedTerminalHistory} (h : history.Counts)
    {first : TerminalHistoryChunk} {chunks : List TerminalHistoryChunk}
    (hchunks : history.chunks = first :: chunks) {bytesToDrop : ℕ}
    (hlt : bytesToDrop < first.byteLength) (fuel : ℕ) :
    ∃ front next, CutsOff history next front ∧
      (if first.byteLength = first.data.length ∧ first.lineBreaks = 0 then
        dropBytes fuel (history.trimChunk bytesToDrop bytesToDrop 0)
      else
        let (offset, bytes, lineBreaks) :=
          scanBytes first.data bytesToDrop first.data.length (0, 0, 0)
        dropBytes fuel (history.trimChunk offset bytes lineBreaks)) = dropBytes fuel next ∧
      bytesToDrop ≤ utf8Length front ∧
      ∀ p, front.getLast? = some p → utf8Length front < bytesToDrop + utf8Size p := by
  have hfirst := h.ok first (hchunks ▸ List.mem_cons_self)
  rw [hfirst.byteLength_eq] at hlt
  split
  · rename_i hascii
    obtain ⟨hlength, hbreaks⟩ := hascii
    have hone : ∀ p ∈ codePoints first.data, utf8Size p = 1 ∧ utf16Size p = 1 := by
      refine utf8Size_of_length_eq ?_
      rw [flatMap_codePoints, ← hlength, hfirst.byteLength_eq]
    have htake : ((codePoints first.data).take bytesToDrop).length = bytesToDrop := by
      rw [(utf8Length_of_forall hone).1] at hlt
      exact List.length_take_of_le (Nat.le_of_lt hlt)
    have honeTake : ∀ p ∈ (codePoints first.data).take bytesToDrop,
        utf8Size p = 1 ∧ utf16Size p = 1 := fun p hp ↦ hone p (List.mem_of_mem_take hp)
    obtain ⟨hbytes, hunits⟩ := utf8Length_of_forall honeTake
    have hcount : ((codePoints first.data).take bytesToDrop).count 10 = 0 := by
      have hle := (List.take_sublist bytesToDrop (codePoints first.data)).count_le 10
      rw [← hfirst.lineBreaks_eq, hbreaks] at hle
      exact Nat.le_zero.mp hle
    have hcut := cutsOff_trimChunk h hchunks
      (List.take_append_drop bytesToDrop (codePoints first.data)).symm
    rw [hbytes, hunits, htake, hcount] at hcut
    refine ⟨_, _, hcut, rfl, by omega, fun p hp ↦ ?_⟩
    rw [(honeTake p (List.mem_of_getLast? hp)).1]
    omega
  · have hfuel : (codePoints first.data).length ≤ first.data.length := by
      conv => rhs; rw [← flatMap_codePoints first.data]
      exact length_le_flatMap_utf16 (codePoints first.data)
    obtain ⟨front, rest, hdata, hscan, henough, hlast⟩ :=
      @scanBytes_spec first.data bytesToDrop first.data.length [] (codePoints first.data)
        (List.nil_append (codePoints first.data)).symm hfuel (by simp)
    have hstart : scanBytes first.data bytesToDrop first.data.length (0, 0, 0) = _ := hscan
    rw [hstart]
    refine ⟨front, _, cutsOff_trimChunk h hchunks hdata, rfl, ?_, hlast⟩
    rcases henough with henough | rfl
    · exact henough
    · rw [hdata, List.append_nil] at hlt
      exact Nat.le_of_lt hlt

/-- **Dropping bytes** cuts off code points until the bytes are within the limit. -/
theorem cutsOff_dropBytes {fuel : ℕ} {history : BoundedTerminalHistory} (h : history.Counts)
    (hfuel : history.chunks.length < fuel) :
    ∃ front, CutsOff history (dropBytes fuel history) front ∧
      utf8Length (dropBytes fuel history).points ≤ history.maxBytes ∧
      ∀ p, front.getLast? = some p →
        history.maxBytes < utf8Size p + utf8Length (dropBytes fuel history).points := by
  induction fuel generalizing history with
  | zero => exact absurd hfuel (Nat.not_lt_zero _)
  | succ fuel ih =>
    by_cases hmore : history.maxBytes < history.byteLength
    · rw [dropBytes, if_pos hmore]
      cases hchunks : history.chunks with
      | nil =>
        rw [h.byteLength_eq, points, hchunks] at hmore
        exact absurd hmore (Nat.not_lt_zero _)
      | cons first chunks =>
        dsimp only
        have hfirst := h.ok first (hchunks ▸ List.mem_cons_self)
        have htotal := h.byteLength_eq
        split
        · rename_i hall
          have hcut := cutsOff_discardChunk h hchunks
          have hchunksRest : history.discardChunk.chunks = chunks := by
            simp only [discardChunk, hchunks]
          rw [hchunks, List.length_cons] at hfuel
          obtain ⟨front, hfront, hle, hlast⟩ := ih hcut.counts (by rw [hchunksRest]; omega)
          rw [hcut.same.maxBytes] at hle hlast
          refine ⟨_, hcut.trans hfront, hle, fun p hp ↦ ?_⟩
          cases hnil : front.getLast? with
          | some q =>
            rw [List.getLast?_append, hnil, Option.some_or, Option.some_inj] at hp
            exact hlast p (hp ▸ hnil)
          | none =>
            -- the chunks behind the one that is dropped have at least `maxBytes` bytes
            have hpos := utf8Size_pos p
            obtain rfl := List.getLast?_eq_none_iff.mp hnil
            rw [hcut.points_eq, hfront.points_eq, List.nil_append, utf8Length_append,
              ← hfirst.byteLength_eq] at htotal
            omega
        · rename_i hpart
          obtain ⟨front, next, hcut, hnext, henough, hlast⟩ :=
            exists_front_of_chunk h hchunks (Nat.not_le.mp hpart) fuel
          rw [hcut.points_eq, utf8Length_append] at htotal
          have hdone := hcut.counts.byteLength_eq
          rw [hnext, dropBytes_of_le (by rw [hdone, hcut.same.maxBytes]; omega)]
          refine ⟨front, hcut, by omega, fun p hp ↦ ?_⟩
          have := hlast p hp
          omega
    · rw [dropBytes_of_le (Nat.not_lt.mp hmore)]
      refine ⟨[], CutsOff.refl h, ?_, by simp⟩
      rw [← h.byteLength_eq]
      exact Nat.not_lt.mp hmore

/-! ## Trimming -/

/-- The text of a history, as its chunks have it. -/
def text (history : BoundedTerminalHistory) : CodeUnits := chunksText history.chunks

theorem CutsOff.text_eq {history history' : BoundedTerminalHistory} {front : List ℕ}
    (h : CutsOff history history' front) :
    history.text = front.flatMap utf16 ++ history'.text := by
  have hpoints := congrArg (List.flatMap utf16) h.points_eq
  rwa [points, points, List.flatMap_append, flatMap_codePoints, flatMap_codePoints] at hpoints

/-- The last code unit as `trim` reads it tells the lines of the text, unless there is no text. -/
theorem lines_sub_maxLines {history : BoundedTerminalHistory} (h : history.Counts)
    (hlast : history.lastCodeUnit = history.text.getLast?) (hpos : 1 ≤ history.maxLines) :
    history.lineBreaks + (if history.lastCodeUnit = some newline then 0 else 1) -
      history.maxLines = lineCount history.points - history.maxLines := by
  rw [h.lineBreaks_eq, lineCount]
  have hnewline := getLast?_codePoints (u := newline) (by decide) history.text
  cases hpoints : history.points with
  | nil =>
    simp only [List.count_nil, List.getLast?_nil, Option.all_none]
    rw [if_pos trivial]
    split <;> omega
  | cons p ps =>
    rw [← hlast, show codePoints history.text = p :: ps from hpoints] at hnewline
    rw [List.getLast?_cons] at hnewline ⊢
    have hiff : history.lastCodeUnit = some newline ↔
        (some (ps.getLast?.getD p)).all (· = 10) = true := by
      rw [← hnewline, Option.some_inj, Option.all_some, decide_eq_true_eq]
      rfl
    simp only [hiff]

/-- **Trimming leaves the longest end within the limits.** -/
theorem cutsOff_trim {history : BoundedTerminalHistory} (h : history.Counts)
    (hlast : history.lastCodeUnit = history.text.getLast?) (hpos : 1 ≤ history.maxLines) :
    history.trim.Counts ∧ history.trim.lastCodeUnit = history.trim.text.getLast? ∧
      history.trim.points =
        longestSuffix (Fits history.maxLines history.maxBytes) history.points ∧
      history.trim.maxLines = history.maxLines ∧ history.trim.maxBytes = history.maxBytes ∧
      history.trim.cachedValue = history.cachedValue := by
  rw [trim, lines_sub_maxLines h hlast hpos]
  have hcount : lineCount history.points - history.maxLines ≤ history.points.count 10 := by
    rw [lineCount]
    split <;> omega
  obtain ⟨front, hfront, hbreaks, hend⟩ := cutsOff_dropLines h (Nat.le_refl _) hcount
  generalize dropLines history.chunks.length history
    (lineCount history.points - history.maxLines) = dropped at hfront
  obtain ⟨front', hfront', hbytes, hmore⟩ :=
    cutsOff_dropBytes hfront.counts (Nat.lt_succ_self dropped.chunks.length)
  generalize dropBytes (dropped.chunks.length + 1) dropped = kept at hfront' hbytes hmore
  rw [hfront.same.maxBytes] at hbytes hmore
  have hcut := hfront.trans hfront'
  have htext := hcut.text_eq
  have hlines : lineCount dropped.points ≤ history.maxLines := by
    cases hpoints : dropped.points with
    | nil => exact Nat.zero_le _
    | cons p ps =>
      have hsum := hfront.points_eq
      rw [hpoints] at hsum
      rw [hsum, lineCount_append_of_ne_nil (List.cons_ne_nil p ps)] at hbreaks
      omega
  have hpoints : kept.points =
      longestSuffix (Fits history.maxLines history.maxBytes) history.points := by
    rw [hcut.points_eq]
    refine (eq_longestSuffix Fits.of_suffix ⟨?_, hbytes⟩ fun p hp hfits ↦ ?_).symm
    · exact Nat.le_trans (lineCount_le_of_suffix ⟨front', hfront'.points_eq.symm⟩) hlines
    · cases hnil : front'.getLast? with
      | some q =>
        rw [List.getLast?_append, hnil, Option.some_or, Option.some_inj] at hp
        have hq := hmore p (hp ▸ hnil)
        exact Nat.not_lt.mpr hfits.2 hq
      | none =>
        -- the line break before the lines that stay would open one more line
        obtain rfl := List.getLast?_eq_none_iff.mp hnil
        rw [List.append_nil] at hp
        obtain rfl | hend := hend
        · cases hp
        obtain rfl := Option.some_inj.mp (hp.symm.trans hend)
        have hten : 0 < front.count 10 := List.count_pos_iff.mpr (List.mem_of_getLast? hend)
        have hle := hfits.1
        have hsum := hfront.points_eq
        rw [hfront'.points_eq, List.nil_append] at hsum
        cases hkept : kept.points with
        | nil =>
          rw [hkept, List.append_nil] at hsum
          rw [hsum, lineCount, hend] at hbreaks
          simp at hbreaks
          omega
        | cons q qs =>
          rw [hkept] at hsum hle
          rw [hsum, lineCount_append_of_ne_nil (List.cons_ne_nil q qs)] at hbreaks
          rw [show 10 :: q :: qs = [10] ++ q :: qs from rfl,
            lineCount_append_of_ne_nil (List.cons_ne_nil q qs)] at hle
          simp at hle
          omega
  split
  · rename_i hnil
    have htextNil : kept.text = [] := by
      rw [text, hnil]
      rfl
    exact ⟨⟨hcut.counts.ok, hcut.counts.seamless, hcut.counts.byteLength_eq,
      hcut.counts.lineBreaks_eq⟩, (congrArg List.getLast? htextNil).symm, hpoints,
      hcut.same.maxLines, hcut.same.maxBytes, hcut.same.cachedValue⟩
  · rename_i hchunks
    refine ⟨hcut.counts, ?_, hpoints, hcut.same.maxLines, hcut.same.maxBytes,
      hcut.same.cachedValue⟩
    have hne : kept.text ≠ [] := mt (chunksText_eq_nil hcut.counts.ok).mp hchunks
    rw [hcut.same.lastCodeUnit, hlast, htext, List.getLast?_append_of_ne_nil _ hne]

/-! ## Appending a chunk -/

theorem seamless_iff {chunks : List TerminalHistoryChunk} :
    Seamless chunks ↔
      codePoints (chunksText chunks) = chunks.flatMap fun chunk ↦ codePoints chunk.data := by
  induction chunks with
  | nil => exact ⟨fun _ ↦ rfl, fun _ ↦ trivial⟩
  | cons chunk chunks ih =>
    rw [Seamless, ih, chunksText_cons, List.flatMap_cons]
    constructor
    · rintro ⟨hchunk, hchunks⟩
      rw [hchunk, hchunks]
    · intro h
      have hchunks := codePoints_right h
      exact ⟨h.trans (congrArg _ hchunks.symm), hchunks⟩

/-- Chunks for a longer text. -/
theorem Counts.grow {history : BoundedTerminalHistory} (h : history.Counts) {data : CodeUnits}
    (hseam : codePoints (history.text ++ data) = history.points ++ codePoints data)
    {chunks : List TerminalHistoryChunk} (hok : ∀ chunk ∈ chunks, ChunkOk chunk)
    (htext : chunksText chunks = history.text ++ data)
    (hpoints : (chunks.flatMap fun chunk ↦ codePoints chunk.data) =
      history.points ++ codePoints data)
    {lastCodeUnit : Option UInt16} {cachedValue : Option CodeUnits} :
    Counts { history with
      chunks
      byteLength := history.byteLength + Awen.byteLength data
      lineBreaks := history.lineBreaks + countLineBreaks data
      lastCodeUnit
      cachedValue } where
  ok := hok
  seamless := by
    rw [seamless_iff, htext, hseam, hpoints]
  byteLength_eq := by
    rw [points, htext, hseam, utf8Length_append, ← h.byteLength_eq]
    rfl
  lineBreaks_eq := by
    rw [points, htext, hseam, List.count_append, ← h.lineBreaks_eq, ← countLineBreaks_eq]

theorem chunkOk_of_ne_nil {data : CodeUnits} (hne : data ≠ []) :
    ChunkOk ⟨data, Awen.byteLength data, countLineBreaks data⟩ :=
  ⟨hne, rfl, countLineBreaks_eq data⟩

theorem appendChunk_spec {history : BoundedTerminalHistory} (h : history.Counts)
    {data : CodeUnits} (hne : data ≠ [])
    (hseam : codePoints (history.text ++ data) = history.points ++ codePoints data) :
    (history.appendChunk data).Counts ∧
      (history.appendChunk data).text = history.text ++ data := by
  have hflat := seamless_iff.mp h.seamless
  have hsingle : ∀ chunk ∈ history.chunks ++
      [⟨data, Awen.byteLength data, countLineBreaks data⟩], ChunkOk chunk := by
    intro chunk hchunk
    rcases List.mem_append.mp hchunk with hmem | hmem
    · exact h.ok chunk hmem
    · rw [List.mem_singleton.mp hmem]
      exact chunkOk_of_ne_nil hne
  have happend : List.flatMap (fun chunk : TerminalHistoryChunk ↦ codePoints chunk.data)
      (history.chunks ++ [⟨data, Awen.byteLength data, countLineBreaks data⟩]) =
        history.points ++ codePoints data := by
    rw [List.flatMap_append, points, hflat, List.flatMap_singleton]
  have htext : chunksText (history.chunks ++
      [⟨data, Awen.byteLength data, countLineBreaks data⟩]) = history.text ++ data := by
    rw [chunksText_append, text, chunksText_cons, chunksText_nil, List.append_nil]
  rw [appendChunk]
  rcases List.eq_nil_or_concat' history.chunks with hnil | ⟨initial, previous, hchunks⟩
  · rw [hnil] at hsingle happend htext ⊢
    exact ⟨h.grow hseam hsingle htext happend, htext⟩
  · rw [hchunks, List.getLast?_concat, List.dropLast_concat]
    dsimp only
    split
    · have hprevious := h.ok previous (hchunks ▸ List.mem_append_right _ List.mem_cons_self)
      have hinitial : ∀ chunk ∈ initial, ChunkOk chunk := fun chunk hmem ↦
        h.ok chunk (hchunks ▸ List.mem_append_left _ hmem)
      have htextOf : history.text = chunksText initial ++ previous.data := by
        rw [text, hchunks, chunksText_append, chunksText_cons, chunksText_nil, List.append_nil]
      have hpointsOf : history.points =
          initial.flatMap (fun chunk ↦ codePoints chunk.data) ++ codePoints previous.data := by
        rw [points, hflat, hchunks, List.flatMap_append, List.flatMap_singleton]
      have hleft : codePoints (chunksText initial) =
          initial.flatMap fun chunk ↦ codePoints chunk.data := by
        refine codePoints_left (t := previous.data) ?_
        rw [← htextOf]
        exact hpointsOf
      have hmerged : codePoints (previous.data ++ data) =
          codePoints previous.data ++ codePoints data := by
        refine codePoints_right (s := chunksText initial) ?_
        rw [← List.append_assoc, ← htextOf, hseam, hpointsOf, hleft, List.append_assoc]
      have htextMerged : chunksText (initial ++ [⟨previous.data ++ data,
          previous.byteLength + Awen.byteLength data,
          previous.lineBreaks + countLineBreaks data⟩]) = history.text ++ data := by
        rw [chunksText_append, chunksText_cons, chunksText_nil, List.append_nil, htextOf,
          List.append_assoc]
      refine ⟨h.grow hseam ?_ htextMerged ?_, htextMerged⟩
      · intro chunk hchunk
        rcases List.mem_append.mp hchunk with hmem | hmem
        · exact hinitial chunk hmem
        · rw [List.mem_singleton.mp hmem]
          refine ⟨fun hall ↦ hne (List.append_eq_nil_iff.mp hall).2, ?_, ?_⟩
          · dsimp only
            rw [hmerged, utf8Length_append, hprevious.byteLength_eq]
            rfl
          · dsimp only
            rw [hmerged, List.count_append, hprevious.lineBreaks_eq, countLineBreaks_eq]
      · rw [List.flatMap_append, List.flatMap_singleton, hmerged, hpointsOf, List.append_assoc]
    · rw [hchunks] at hsingle happend htext
      exact ⟨h.grow hseam hsingle htext happend, htext⟩

/-! ## Appending a text -/

/-- **A history that holds the end of a text**, as much as the limits allow. -/
structure Holds (history : BoundedTerminalHistory) (maxLines maxBytes : ℕ) (whole : CodeUnits) :
    Prop where
  counts : history.Counts
  lastCodeUnit_eq : history.lastCodeUnit = history.text.getLast?
  points_eq : history.points = longestSuffix (Fits maxLines maxBytes) (codePoints whole)
  maxLines_eq : history.maxLines = maxLines
  maxBytes_eq : history.maxBytes = maxBytes
  value_eq : history.value = history.text

section Holds

variable {history : BoundedTerminalHistory} {maxLines maxBytes : ℕ} {whole data : CodeUnits}

theorem Holds.text_suffix (h : history.Holds maxLines maxBytes whole) :
    history.text <:+ whole := by
  obtain ⟨front, hfront⟩ := longestSuffix_suffix (p := Fits maxLines maxBytes) (codePoints whole)
  rw [← h.points_eq] at hfront
  refine ⟨front.flatMap utf16, ?_⟩
  rw [← flatMap_codePoints whole, ← hfront, List.flatMap_append, points, flatMap_codePoints]
  rfl

theorem holds_nil (maxLines maxBytes : ℕ) :
    Holds { maxLines, maxBytes } maxLines maxBytes [] :=
  ⟨⟨fun _ hmem ↦ absurd hmem List.not_mem_nil, trivial, rfl, rfl⟩, rfl, rfl, rfl, rfl, rfl⟩

theorem Holds.rememberValue (h : history.Holds maxLines maxBytes whole) :
    history.rememberValue.Holds maxLines maxBytes whole :=
  ⟨⟨h.counts.ok, h.counts.seamless, h.counts.byteLength_eq, h.counts.lineBreaks_eq⟩,
    h.lastCodeUnit_eq, h.points_eq, h.maxLines_eq, h.maxBytes_eq, h.value_eq⟩

theorem Holds.forgetValue (h : history.Holds maxLines maxBytes whole) :
    Holds { history with cachedValue := none } maxLines maxBytes whole :=
  ⟨⟨h.counts.ok, h.counts.seamless, h.counts.byteLength_eq, h.counts.lineBreaks_eq⟩,
    h.lastCodeUnit_eq, h.points_eq, h.maxLines_eq, h.maxBytes_eq, rfl⟩

/-- A history is trimmed to what it should hold. -/
theorem holds_trim (h : history.Counts) (hlast : history.lastCodeUnit = history.text.getLast?)
    (hlines : history.maxLines = maxLines) (hbytes : history.maxBytes = maxBytes)
    (hpos : 1 ≤ maxLines) (hcached : history.cachedValue = none)
    (hpoints : longestSuffix (Fits maxLines maxBytes) history.points =
      longestSuffix (Fits maxLines maxBytes) (codePoints whole)) :
    history.trim.Holds maxLines maxBytes whole ∧ history.trim.cachedValue = none := by
  subst hlines hbytes
  obtain ⟨hcounts, hlast', hkept, hlines, hbytes, hcached'⟩ := cutsOff_trim h hlast hpos
  rw [hcached] at hcached'
  refine ⟨⟨hcounts, hlast', hkept.trans hpoints, hlines, hbytes, ?_⟩, hcached'⟩
  rw [value, hcached']
  rfl

theorem Holds.appendChunk (h : history.Holds maxLines maxBytes whole) (hpos : 1 ≤ maxLines)
    (hne : data ≠ []) (hseam : ¬Straddles whole data) :
    (history.appendChunk data).trim.Holds maxLines maxBytes (whole ++ data) ∧
      (history.appendChunk data).trim.cachedValue = none := by
  have hown : codePoints (history.text ++ data) = history.points ++ codePoints data := by
    refine codePoints_append fun hstraddles ↦ hseam ⟨?_, hstraddles.2⟩
    obtain ⟨front, hfront⟩ := h.text_suffix
    have hne' : history.text ≠ [] := by
      intro hnil
      rw [Straddles, hnil] at hstraddles
      exact absurd hstraddles.1 (by simp)
    rw [← hfront, List.getLast?_append_of_ne_nil _ hne']
    exact hstraddles.1
  obtain ⟨hcounts, htext⟩ := appendChunk_spec h.counts hne hown
  refine holds_trim hcounts ?_ h.maxLines_eq h.maxBytes_eq hpos rfl ?_
  · rw [htext, List.getLast?_append_of_ne_nil _ hne]
    rfl
  · have hpoints : (history.appendChunk data).points = history.points ++ codePoints data :=
      (congrArg codePoints htext).trans hown
    rw [hpoints, h.points_eq, longestSuffix_append Fits.of_append, codePoints_append hseam]

/-- A chunk is not empty and cuts no pair. -/
theorem nextChunkEnd_spec {text : CodeUnits} (hne : text ≠ []) :
    0 < nextChunkEnd text ∧ nextChunkEnd text ≤ text.length ∧
      ¬Straddles (text.take (nextChunkEnd text)) (text.drop (nextChunkEnd text)) := by
  have hlength := List.length_pos_of_ne_nil hne
  have hstop : 0 < min maxHistoryChunkLength text.length :=
    Nat.lt_min.mpr ⟨by decide, hlength⟩
  have hle : min maxHistoryChunkLength text.length ≤ text.length := Nat.min_le_right ..
  have hseam (n : ℕ) (hn : 0 < n) (hn' : n ≤ text.length) :
      Straddles (text.take n) (text.drop n) ↔
        (text[n - 1]?.any isHighSurrogate && text[n]?.any isLowSurrogate) = true := by
    rw [Straddles, List.head?_drop, List.getLast?_eq_getElem?, List.length_take_of_le hn',
      List.getElem?_take_of_lt (by omega), Bool.and_eq_true]
  rw [nextChunkEnd]
  split
  · rename_i hcut
    rw [Bool.and_eq_true] at hcut
    obtain ⟨low, hlow, -⟩ := (Option.any_eq_true _ _).mp hcut.2
    have hlt := (List.getElem?_eq_some_iff.mp hlow).1
    have htwo : 1 < min maxHistoryChunkLength text.length := by
      have hlarge : 1 < maxHistoryChunkLength := by decide
      omega
    generalize min maxHistoryChunkLength text.length = stop at *
    refine ⟨by omega, by omega, ?_⟩
    rw [hseam _ (by omega) (by omega), Bool.and_eq_true]
    rintro ⟨-, hlow'⟩
    obtain ⟨high, hhigh, hishigh⟩ := (Option.any_eq_true _ _).mp hcut.1
    rw [hhigh] at hlow'
    exact absurd hlow' (by simp [isLowSurrogate_of_isHighSurrogate hishigh])
  · rename_i hwhole
    refine ⟨hstop, hle, ?_⟩
    rw [hseam _ hstop hle]
    exact hwhole

theorem Holds.appendChunks {fuel : ℕ} {text : CodeUnits}
    (h : history.Holds maxLines maxBytes whole) (hpos : 1 ≤ maxLines)
    (hcached : history.cachedValue = none) (hseam : ¬Straddles whole text)
    (hfuel : text.length ≤ fuel) :
    (history.appendChunks fuel text).Holds maxLines maxBytes (whole ++ text) := by
  induction fuel generalizing history whole text with
  | zero =>
    obtain rfl := List.eq_nil_of_length_eq_zero (Nat.le_zero.mp hfuel)
    rw [List.append_nil]
    exact h
  | succ fuel ih =>
    by_cases hne : text = []
    · subst hne
      rw [List.append_nil]
      exact h
    · obtain ⟨hlt, hle, hcut⟩ := nextChunkEnd_spec hne
      rw [BoundedTerminalHistory.appendChunks]
      · have hsplit := List.take_append_drop (nextChunkEnd text) text
        have hdata : text.take (nextChunkEnd text) ≠ [] := by
          rw [← List.length_pos_iff, List.length_take_of_le hle]
          exact hlt
        obtain ⟨hnext, hcached'⟩ := h.appendChunk hpos hdata fun hstraddles ↦ hseam
          ⟨hstraddles.1, by
            rw [← hsplit, List.head?_append_of_ne_nil _ hdata]
            exact hstraddles.2⟩
        have hseam' : ¬Straddles (whole ++ text.take (nextChunkEnd text))
            (text.drop (nextChunkEnd text)) := by
          rintro ⟨hend, hhead⟩
          rw [List.getLast?_append_of_ne_nil whole hdata] at hend
          exact hcut ⟨hend, hhead⟩
        have hrest := ih hnext hcached' hseam' (by rw [List.length_drop]; omega)
        rwa [List.append_assoc, hsplit] at hrest
      · exact hne

/-! ### Joining a surrogate pair -/

theorem codePoints_concat_high {high : UInt16} (h : isHighSurrogate high = true)
    (s : CodeUnits) : codePoints (s ++ [high]) = codePoints s ++ [high.toNat] := by
  refine codePoints_append fun hstraddles ↦ ?_
  have hlow := hstraddles.2
  rw [List.head?_cons, Option.any_some, isLowSurrogate_of_isHighSurrogate h] at hlow
  exact Bool.false_ne_true hlow

theorem codePoints_concat_pair {high low : UInt16} (h : isHighSurrogate high = true)
    (h' : isLowSurrogate low = true) (s : CodeUnits) :
    codePoints (s ++ [high, low]) = codePoints s ++ [pairCodePoint high low] := by
  rw [codePoints_append, codePoints, if_pos (by rw [h, h']; rfl)]
  · rfl
  · rintro ⟨-, hlow⟩
    rw [List.head?_cons, Option.any_some, isLowSurrogate_of_isHighSurrogate h] at hlow
    exact Bool.false_ne_true hlow

theorem utf8Size_surrogate {u : UInt16} (h : isHighSurrogate u = true ∨ isLowSurrogate u = true) :
    utf8Size u.toNat = 3 ∧ u.toNat ≠ 10 := by
  simp only [isHighSurrogate, isLowSurrogate, decide_eq_true_eq] at h
  unfold utf8Size
  split_ifs <;> omega

theorem utf8Size_pairCodePoint (high low : UInt16) :
    utf8Size (pairCodePoint high low) = 4 ∧ pairCodePoint high low ≠ 10 := by
  have hlt := lt_pairCodePoint high low
  unfold utf8Size
  split_ifs <;> omega

section Pair

variable {high : UInt16} (hhigh : isHighSurrogate high = true) (low : UInt16) (ps : List ℕ)
include hhigh

theorem utf8Length_concat_pair :
    utf8Length (ps ++ [pairCodePoint high low]) = utf8Length (ps ++ [high.toNat]) + 1 := by
  have hpair := (utf8Size_pairCodePoint high low).1
  have hsize := (utf8Size_surrogate (.inl hhigh)).1
  rw [utf8Length_append, utf8Length_append, utf8Length_cons, utf8Length_cons, utf8Length_nil]
  omega

theorem count_concat_pair :
    (ps ++ [pairCodePoint high low]).count 10 = (ps ++ [high.toNat]).count 10 := by
  have hpair := (utf8Size_pairCodePoint high low).2
  have hten := (utf8Size_surrogate (.inl hhigh)).2
  rw [List.count_append, List.count_append, List.count_singleton, List.count_singleton,
    if_neg (by simpa using hpair), if_neg (by simpa using hten)]

/-- A text that ends with a pair fits only if it does with the first half. -/
theorem Fits.of_pair (hfits : Fits maxLines maxBytes (ps ++ [pairCodePoint high low])) :
    Fits maxLines maxBytes (ps ++ [high.toNat]) := by
  obtain ⟨hlines, hbytes⟩ := hfits
  have hgrow := utf8Length_concat_pair hhigh low ps
  have hcount := count_concat_pair hhigh low ps
  have hpair := (utf8Size_pairCodePoint high low).2
  have hten := (utf8Size_surrogate (.inl hhigh)).2
  generalize pairCodePoint high low = pair at *
  refine ⟨?_, by omega⟩
  rw [lineCount, List.getLast?_concat, hcount, Option.all_some, decide_eq_false hpair] at hlines
  rw [lineCount, List.getLast?_concat, Option.all_some, decide_eq_false hten]
  exact hlines

end Pair

/-- The last chunk of a text that ends with the first half of a pair. -/
theorem exists_last_chunk (h : history.Holds maxLines maxBytes whole) {high : UInt16}
    (hlast : history.lastCodeUnit = some high) :
    ∃ initial previous data, history.chunks = initial ++ [previous] ∧
      previous.data = data ++ [high] := by
  rw [h.lastCodeUnit_eq] at hlast
  rcases List.eq_nil_or_concat' history.chunks with hnil | ⟨initial, previous, hchunks⟩
  · rw [text, hnil] at hlast
    cases hlast
  · have hprevious := h.counts.ok previous (hchunks ▸ List.mem_append_right _ List.mem_cons_self)
    rw [text, hchunks, chunksText_append, chunksText_cons, chunksText_nil, List.append_nil,
      List.getLast?_append_of_ne_nil _ hprevious.ne_nil] at hlast
    obtain ⟨data, hdata⟩ := List.getLast?_eq_some_iff.mp hlast
    exact ⟨initial, previous, data, hchunks, hdata⟩

theorem joinSurrogate_spec (h : history.Holds maxLines maxBytes whole) {high low : UInt16}
    (hlast : history.lastCodeUnit = some high) (hhigh : isHighSurrogate high = true)
    (hlow : isLowSurrogate low = true) :
    (history.joinSurrogate low).Counts ∧
      (history.joinSurrogate low).text = history.text ++ [low] ∧
      (history.joinSurrogate low).lastCodeUnit = some low ∧
      (history.joinSurrogate low).maxLines = history.maxLines ∧
      (history.joinSurrogate low).maxBytes = history.maxBytes ∧
      (history.joinSurrogate low).cachedValue = history.cachedValue := by
  obtain ⟨initial, previous, data, hchunks, hdata⟩ := exists_last_chunk h hlast
  have hprevious := h.counts.ok previous (hchunks ▸ List.mem_append_right _ List.mem_cons_self)
  have hbytes := h.counts.byteLength_eq
  have hlines := h.counts.lineBreaks_eq
  have hflat := seamless_iff.mp h.counts.seamless
  have htext : history.text = chunksText initial ++ data ++ [high] := by
    rw [text, hchunks, chunksText_append, chunksText_cons, chunksText_nil, List.append_nil, hdata,
      List.append_assoc]
  have htext' : chunksText (initial ++ [{ previous with
      data := previous.data ++ [low], byteLength := previous.byteLength + 1 }]) =
        chunksText initial ++ data ++ [high, low] := by
    rw [chunksText_append, chunksText_cons, chunksText_nil, List.append_nil, hdata]
    simp only [List.append_assoc]
    rfl
  have hpoints : history.points = codePoints (chunksText initial ++ data) ++ [high.toNat] := by
    rw [← codePoints_concat_high hhigh, ← htext]
    rfl
  have hpoints' : codePoints (chunksText initial ++ data ++ [high, low]) =
      codePoints (chunksText initial ++ data) ++ [pairCodePoint high low] :=
    codePoints_concat_pair hhigh hlow _
  have hfront : codePoints (chunksText initial ++ data) =
      initial.flatMap (fun chunk ↦ codePoints chunk.data) ++ codePoints data := by
    rw [hchunks, List.flatMap_append, List.flatMap_singleton, hdata,
      codePoints_concat_high hhigh, ← List.append_assoc] at hflat
    rw [← hchunks] at hflat
    exact List.append_cancel_right (hpoints.symm.trans hflat)
  have hchunk : codePoints (previous.data ++ [low]) =
      codePoints data ++ [pairCodePoint high low] := by
    rw [hdata, List.append_assoc]
    exact codePoints_concat_pair hhigh hlow data
  have hjoin : history.joinSurrogate low = { history with
      chunks := initial ++ [{ previous with
        data := previous.data ++ [low], byteLength := previous.byteLength + 1 }]
      byteLength := history.byteLength + 1
      lastCodeUnit := some low } := by
    simp only [joinSurrogate, hchunks, List.getLast?_concat, List.dropLast_concat]
  rw [hjoin]
  refine ⟨⟨?_, ?_, ?_, ?_⟩, ?_, rfl, rfl, rfl, rfl⟩
  · intro chunk hmem
    rcases List.mem_append.mp hmem with hmem | hmem
    · exact h.counts.ok chunk (hchunks ▸ List.mem_append_left _ hmem)
    · rw [List.mem_singleton.mp hmem]
      have hbytesOf := hprevious.byteLength_eq
      have hlinesOf := hprevious.lineBreaks_eq
      rw [hdata, codePoints_concat_high hhigh] at hbytesOf hlinesOf
      refine ⟨by simp, ?_, ?_⟩
      · dsimp only
        rw [hchunk, hbytesOf, utf8Length_concat_pair hhigh]
      · dsimp only
        rw [hchunk, hlinesOf, count_concat_pair hhigh]
  · dsimp only
    rw [seamless_iff, htext', hpoints', hfront, List.flatMap_append, List.flatMap_singleton, hchunk,
      List.append_assoc]
  · rw [points, htext', hpoints', hbytes, hpoints, utf8Length_concat_pair hhigh]
  · rw [points, htext', hpoints', hlines, hpoints, count_concat_pair hhigh]
  · rw [text, htext', htext]
    simp only [List.append_assoc]
    rfl

/-- **A pair is joined.** -/
theorem Holds.joinSurrogate (h : history.Holds maxLines maxBytes whole) (hpos : 1 ≤ maxLines)
    (hcached : history.cachedValue = none) {high low : UInt16}
    (hlast : history.lastCodeUnit = some high) (hhigh : isHighSurrogate high = true)
    (hlow : isLowSurrogate low = true) :
    (history.joinSurrogate low).trim.Holds maxLines maxBytes (whole ++ [low]) ∧
      (history.joinSurrogate low).trim.cachedValue = none := by
  obtain ⟨hcounts, htext, hlast', hlines, hbytes, hcached'⟩ :=
    joinSurrogate_spec h hlast hhigh hlow
  obtain ⟨own, hown⟩ := List.getLast?_eq_some_iff.mp (h.lastCodeUnit_eq.symm.trans hlast)
  obtain ⟨before, hbefore⟩ := h.text_suffix
  rw [hown, ← List.append_assoc] at hbefore
  have hpair (s : CodeUnits) : s ++ [high] ++ [low] = s ++ [high, low] := by
    rw [List.append_assoc]
    rfl
  refine holds_trim hcounts ?_ (hlines.trans h.maxLines_eq) (hbytes.trans h.maxBytes_eq) hpos
    (hcached'.trans hcached) ?_
  · rw [hlast', htext, List.getLast?_concat]
  · -- what is cut off before the pair has to go as it had before its first half
    have hpoints : history.points = codePoints own ++ [high.toNat] := by
      rw [← codePoints_concat_high hhigh, ← hown]
      rfl
    obtain ⟨front, hfront, hcut⟩ :=
      exists_eq_append_longestSuffix (p := Fits maxLines maxBytes) (codePoints whole)
    rw [← h.points_eq, hpoints] at hfront hcut
    rw [← hbefore, codePoints_concat_high hhigh, ← List.append_assoc] at hfront
    have hjoined : (history.joinSurrogate low).points =
        codePoints own ++ [pairCodePoint high low] := by
      rw [← codePoints_concat_pair hhigh hlow, ← hpair, ← hown, ← htext]
      rfl
    rw [hjoined, ← hbefore, hpair, codePoints_concat_pair hhigh hlow,
      List.append_cancel_right hfront, List.append_assoc]
    refine (longestSuffix_of_front Fits.of_suffix fun p hp hfits ↦ hcut p hp ?_).symm
    rw [← List.cons_append] at hfits ⊢
    exact Fits.of_pair hhigh low _ hfits

/-! ### The whole of `append` -/

theorem not_fits_of_lt {p : ℕ} {ps : List ℕ} (h : maxBytes < utf8Size p) :
    ¬Fits maxLines maxBytes (p :: ps) := by
  rintro ⟨-, hbytes⟩
  rw [utf8Length_cons] at hbytes
  omega

/-- A pair whose first half was too large for the limits goes as its second half does by itself. -/
theorem Holds.of_empty {rest : CodeUnits} {high low : UInt16}
    (h : history.Holds maxLines maxBytes (low :: rest)) (hhigh : isHighSurrogate high = true)
    (hlow : isLowSurrogate low = true) (hbytes : maxBytes < 3) (before : CodeUnits) :
    history.Holds maxLines maxBytes (before ++ [high] ++ low :: rest) := by
  refine ⟨h.counts, h.lastCodeUnit_eq, h.points_eq.trans ?_, h.maxLines_eq, h.maxBytes_eq,
    h.value_eq⟩
  have hseam (s : CodeUnits) (hs : s.getLast? = some low) : ¬Straddles s rest := by
    rintro ⟨hstraddles, -⟩
    rw [hs, Option.any_some, isHighSurrogate_of_isLowSurrogate hlow] at hstraddles
    exact Bool.false_ne_true hstraddles
  have hsplit : before ++ [high] ++ low :: rest = (before ++ [high, low]) ++ rest := by
    simp only [List.append_assoc]
    rfl
  have hlone : codePoints (low :: rest) = [low.toNat] ++ codePoints rest :=
    codePoints_append (s := [low]) (hseam [low] rfl)
  have hpair := (utf8Size_pairCodePoint high low).1
  have hsize := (utf8Size_surrogate (.inr hlow)).1
  rw [hlone, hsplit, codePoints_append (hseam _ (by simp)), codePoints_concat_pair hhigh hlow,
    longestSuffix_of_front Fits.of_suffix, longestSuffix_of_front Fits.of_suffix]
  · intro p hp
    rw [List.getLast?_concat, Option.some_inj] at hp
    exact not_fits_of_lt (hp ▸ hpair.symm ▸ Nat.lt_succ_of_lt hbytes)
  · intro p hp
    rw [List.getLast?_singleton, Option.some_inj] at hp
    exact not_fits_of_lt (hp ▸ hsize.symm ▸ hbytes)

/-- **Appending a text**: the history holds the end of the longer text. -/
theorem Holds.append (h : history.Holds maxLines maxBytes whole) (hlines : 1 ≤ maxLines)
    (hbytes : 1 ≤ maxBytes) (text : CodeUnits) :
    (history.append text).Holds maxLines maxBytes (whole ++ text) := by
  cases text with
  | nil =>
    rw [List.append_nil]
    exact h
  | cons first rest =>
    have hlimits : ¬(history.maxBytes = 0 ∨ history.maxLines = 0) := by
      rw [h.maxBytes_eq, h.maxLines_eq]
      omega
    rw [BoundedTerminalHistory.append]
    dsimp only
    rw [if_neg hlimits]
    split
    · rename_i hjoin
      rw [Bool.and_eq_true, Bool.and_eq_true] at hjoin
      obtain ⟨⟨-, hlast⟩, hlow⟩ := hjoin
      obtain ⟨high, hlast, hhigh⟩ := (Option.any_eq_true _ _).mp hlast
      obtain ⟨hnext, hcached⟩ := h.forgetValue.joinSurrogate hlines rfl hlast hhigh hlow
      rw [← List.singleton_append, ← List.append_assoc]
      refine hnext.appendChunks hlines hcached ?_ (Nat.le_refl _)
      rintro ⟨hstraddles, -⟩
      rw [List.getLast?_concat, Option.any_some, isHighSurrogate_of_isLowSurrogate hlow]
        at hstraddles
      exact Bool.false_ne_true hstraddles
    · rename_i hjoin
      by_cases hstraddles : Straddles whole (first :: rest)
      · obtain ⟨hend, hlow⟩ := hstraddles
        obtain ⟨high, hlast, hhigh⟩ := (Option.any_eq_true _ _).mp hend
        obtain ⟨before, rfl⟩ := List.getLast?_eq_some_iff.mp hlast
        have hnil : history.chunks = [] := by
          by_contra hne
          obtain ⟨front, hfront⟩ := h.text_suffix
          have htext : history.text ≠ [] := mt (chunksText_eq_nil h.counts.ok).mp hne
          rw [← hfront, List.getLast?_append_of_ne_nil _ htext, ← h.lastCodeUnit_eq] at hlast
          refine hjoin ?_
          rw [hlast, Option.any_some, hhigh, List.getLast?_isSome.mpr hne]
          exact hlow
        have hempty : Holds { history with cachedValue := none } maxLines maxBytes [] := by
          refine ⟨h.forgetValue.counts, h.lastCodeUnit_eq, ?_, h.maxLines_eq, h.maxBytes_eq, rfl⟩
          rw [points, hnil]
          rfl
        have hsmall : maxBytes < 3 := by
          obtain ⟨front, hfront, hcut⟩ :=
            exists_eq_append_longestSuffix (p := Fits maxLines maxBytes)
              (codePoints (before ++ [high]))
          rw [← h.points_eq, points, hnil, chunksText_nil, codePoints, List.append_nil,
            codePoints_concat_high hhigh] at hfront
          rw [← h.points_eq, points, hnil] at hcut
          have hnot := hcut high.toNat (by rw [← hfront, List.getLast?_concat])
          obtain ⟨hsize, hten⟩ := utf8Size_surrogate (.inl hhigh)
          by_contra hge
          refine hnot ⟨?_, ?_⟩
          · simpa [lineCount, codePoints, hten] using hlines
          · rw [utf8Length_cons, hsize]
            exact Nat.not_lt.mp hge
        refine Holds.of_empty ?_ hhigh hlow hsmall before
        have hseam : ¬Straddles [] (first :: rest) := fun hstraddles ↦
          absurd hstraddles.1 (by simp)
        have hrun := hempty.appendChunks hlines rfl hseam (Nat.le_refl _)
        rwa [List.nil_append] at hrun
      · exact h.forgetValue.appendChunks hlines rfl hstraddles (Nat.le_refl _)

/-- What a history that was made from a text holds. -/
theorem holds_create (hlines : 1 ≤ maxLines) (hbytes : 1 ≤ maxBytes) (initial : CodeUnits) :
    (create maxLines initial maxBytes).Holds maxLines maxBytes initial :=
  (holds_nil maxLines maxBytes).append hlines hbytes initial

end Holds

end BoundedTerminalHistory

end Awen.Terminal
