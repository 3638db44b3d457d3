import Awen.Terminal.TerminalOutput

/-!
# A reader of terminal output

`Retains` says what the chunks of a client are at any time: they follow one another up to the next
offset, each knows its length in UTF-8, and together they keep to the budget. What is retained is
the end of the stream, and a reader that follows it with a cursor has the end of the stream too,
with at least what is retained: `reader_of_run`.
-/

namespace Awen.Terminal

/-! ## Cuts -/

theorem backToCodePoint_le (encoded : List ℕ) (n : ℕ) : backToCodePoint encoded n ≤ n := by
  induction n with
  | zero => exact Nat.le_refl 0
  | succ n ih =>
    rw [backToCodePoint]
    split
    · exact Nat.le_succ_of_le ih
    · exact Nat.le_refl _

theorem getElem?_backToCodePoint (encoded : List ℕ) {n : ℕ} (h : 0 < backToCodePoint encoded n) :
    encoded[backToCodePoint encoded n]?.any isContinuation = false := by
  induction n with
  | zero => exact absurd h (Nat.lt_irrefl 0)
  | succ n ih =>
    rw [backToCodePoint] at h ⊢
    split
    · rename_i hbyte
      rw [if_pos hbyte] at h
      exact ih h
    · rename_i hbyte
      simpa using hbyte

private theorem getElem?_length_takeWhile {α : Type*} (p : α → Bool) (l : List α) :
    l[(l.takeWhile p).length]?.any p = false := by
  induction l with
  | nil => rfl
  | cons a l ih =>
    rw [List.takeWhile_cons]
    split
    · exact ih
    · rename_i ha
      simpa using ha

theorem getElem?_forwardToCodePoint (encoded : List ℕ) (n : ℕ) :
    encoded[forwardToCodePoint encoded n]?.any isContinuation = false := by
  rw [forwardToCodePoint, ← List.getElem?_drop]
  exact getElem?_length_takeWhile isContinuation _

theorem forwardToCodePoint_le (encoded : List ℕ) {n : ℕ} (hn : n ≤ encoded.length) :
    forwardToCodePoint encoded n ≤ encoded.length := by
  have hle := (List.takeWhile_sublist (p := isContinuation) (l := encoded.drop n)).length_le
  rw [List.length_drop] at hle
  rw [forwardToCodePoint]
  omega

/-- The next chunk is not empty, and ends where a code point does. -/
theorem nextChunkLength_spec {remaining : List ℕ} {maxBytes : ℕ} (hremaining : remaining ≠ [])
    (hmax : 0 < maxBytes) :
    0 < nextChunkLength remaining maxBytes ∧
      nextChunkLength remaining maxBytes ≤ remaining.length ∧
      remaining[nextChunkLength remaining maxBytes]?.any isContinuation = false := by
  have hpos := List.length_pos_iff.mpr hremaining
  have hle := backToCodePoint_le remaining (min maxBytes remaining.length)
  simp only [nextChunkLength]
  split
  · refine ⟨?_, forwardToCodePoint_le _ (by omega), getElem?_forwardToCodePoint _ _⟩
    rw [forwardToCodePoint]
    omega
  · rename_i length hlength
    have hbyte := getElem?_backToCodePoint remaining (n := min maxBytes remaining.length) (by omega)
    rw [hlength] at hle hbyte
    exact ⟨Nat.succ_pos _, by omega, hbyte⟩

/-! ## Splitting -/

/-- Chunks that make up a string, none of which cuts a code point. -/
structure Splits (data : CodeUnits) (chunks : List Utf8Chunk) : Prop where
  data_eq : chunks.flatMap (·.data) = data
  wellFormed : ∀ chunk ∈ chunks, IsWellFormed chunk.data
  byteLength_eq : ∀ chunk ∈ chunks, chunk.byteLength = byteLength chunk.data

theorem splits_splitUtf8Bytes {maxBytes : ℕ} (hmax : 0 < maxBytes) {data : CodeUnits}
    (hdata : IsWellFormed data) {fuel : ℕ} (hfuel : (encodeUtf8 data).length ≤ fuel) :
    Splits data (splitUtf8Bytes maxBytes fuel (encodeUtf8 data)) := by
  have hempty (h : encodeUtf8 data = []) : data = [] := by
    rw [← decodeUtf8_encodeUtf8 hdata, h]
    rfl
  induction fuel generalizing data with
  | zero =>
    rw [hempty (List.eq_nil_of_length_eq_zero (Nat.le_zero.mp hfuel))]
    exact ⟨rfl, List.forall_mem_nil _, List.forall_mem_nil _⟩
  | succ fuel ih =>
    by_cases hremaining : encodeUtf8 data = []
    · rw [hempty hremaining]
      exact ⟨rfl, List.forall_mem_nil _, List.forall_mem_nil _⟩
    obtain ⟨hpos, hle, hbyte⟩ := nextChunkLength_spec hremaining hmax
    obtain ⟨first, rest, rfl, hfirst, hrest, htake, hdrop⟩ :=
      exists_append_of_not_isContinuation hdata hle hbyte
    rw [splitUtf8Bytes.eq_3 _ _ _ hremaining, ← htake, ← hdrop, decodeUtf8_encodeUtf8 hfirst]
    have hfuelRest : (encodeUtf8 rest).length ≤ fuel := by
      rw [hdrop, List.length_drop]
      omega
    have hsplits := ih hrest hfuelRest fun h ↦ by
      rw [← decodeUtf8_encodeUtf8 hrest, h]
      rfl
    exact {
      data_eq := by rw [List.flatMap_cons, hsplits.data_eq]
      wellFormed := List.forall_mem_cons.mpr ⟨hfirst, hsplits.wellFormed⟩
      byteLength_eq := List.forall_mem_cons.mpr
        ⟨length_encodeUtf8 hfirst, hsplits.byteLength_eq⟩ }

theorem splits_splitStringByUtf8Bytes {maxBytes : ℕ} (hmax : 0 < maxBytes) {data : CodeUnits}
    (hdata : IsWellFormed data) : Splits data (splitStringByUtf8Bytes data maxBytes) := by
  unfold splitStringByUtf8Bytes
  split
  · rename_i hlength
    rw [List.eq_nil_of_length_eq_zero hlength]
    exact ⟨rfl, List.forall_mem_nil _, List.forall_mem_nil _⟩
  · dsimp only
    split
    · exact ⟨by simp, by simpa using hdata, by simpa using length_encodeUtf8 hdata⟩
    · exact splits_splitUtf8Bytes hmax hdata (Nat.le_refl _)

/-- Trimming keeps an end of the string that fits. -/
theorem trimBufferToBytes_spec {buffer : CodeUnits} (hbuffer : IsWellFormed buffer)
    (maxBufferBytes : ℕ) :
    IsWellFormed (trimBufferToBytes buffer maxBufferBytes) ∧
      trimBufferToBytes buffer maxBufferBytes <:+ buffer ∧
      byteLength (trimBufferToBytes buffer maxBufferBytes) ≤ maxBufferBytes := by
  unfold trimBufferToBytes
  split
  · exact ⟨wellFormed_nil, List.nil_suffix, Nat.zero_le _⟩
  · dsimp only
    split
    · rename_i hle
      exact ⟨hbuffer, List.suffix_refl _, length_encodeUtf8 hbuffer ▸ hle⟩
    · obtain ⟨first, rest, hcut, -, hrest, -, hdrop⟩ :=
        exists_append_of_not_isContinuation hbuffer
          (forwardToCodePoint_le (encodeUtf8 buffer) (Nat.sub_le _ maxBufferBytes))
          (getElem?_forwardToCodePoint _ _)
      rw [← hdrop, decodeUtf8_encodeUtf8 hrest]
      refine ⟨hrest, ⟨first, hcut.symm⟩, ?_⟩
      rw [← length_encodeUtf8 hrest, hdrop, List.length_drop, forwardToCodePoint]
      omega

/-! ## Chunks -/

/-- A chunk of whole code points that knows its length in UTF-8. -/
structure TerminalOutputChunk.Ok (chunk : TerminalOutputChunk) : Prop where
  wellFormed : IsWellFormed chunk.data
  byteLength_eq : chunk.byteLength = Awen.byteLength chunk.data

/-- Chunks that follow one another from one offset to another. -/
def Contiguous : ℕ → List TerminalOutputChunk → ℕ → Prop
  | start, [], stop => start = stop
  | start, chunk :: chunks, stop =>
    chunk.startOffset = start ∧ Contiguous (start + chunk.data.length) chunks stop

/-- The text of chunks. -/
def chunksText (chunks : List TerminalOutputChunk) : CodeUnits := chunks.flatMap (·.data)

/-- The lengths of chunks, summed up. -/
def totalBytes (chunks : List TerminalOutputChunk) : ℕ := (chunks.map (·.byteLength)).sum

@[simp] theorem chunksText_nil : chunksText [] = [] := rfl

@[simp] theorem chunksText_cons (chunk : TerminalOutputChunk) (chunks : List TerminalOutputChunk) :
    chunksText (chunk :: chunks) = chunk.data ++ chunksText chunks := rfl

@[simp] theorem chunksText_append (chunks rest : List TerminalOutputChunk) :
    chunksText (chunks ++ rest) = chunksText chunks ++ chunksText rest :=
  List.flatMap_append

@[simp] theorem totalBytes_nil : totalBytes [] = 0 := rfl

@[simp] theorem totalBytes_cons (chunk : TerminalOutputChunk) (chunks : List TerminalOutputChunk) :
    totalBytes (chunk :: chunks) = chunk.byteLength + totalBytes chunks := rfl

@[simp] theorem totalBytes_append (chunks rest : List TerminalOutputChunk) :
    totalBytes (chunks ++ rest) = totalBytes chunks + totalBytes rest := by
  simp [totalBytes]

theorem contiguous_append {start stop : ℕ} {chunks rest : List TerminalOutputChunk} :
    Contiguous start (chunks ++ rest) stop ↔
      ∃ middle, Contiguous start chunks middle ∧ Contiguous middle rest stop := by
  induction chunks generalizing start with
  | nil => simp [Contiguous]
  | cons chunk chunks ih => simp [Contiguous, ih, and_assoc]

/-- The offsets of chunks are lengths of text. -/
theorem Contiguous.stop_eq {start stop : ℕ} {chunks : List TerminalOutputChunk}
    (h : Contiguous start chunks stop) : stop = start + (chunksText chunks).length := by
  induction chunks generalizing start with
  | nil => exact h.symm
  | cons chunk chunks ih =>
    rw [chunksText_cons, List.length_append, ih h.2]
    omega

/-- **What chunks retain**: a text, in chunks that follow one another to an offset. -/
structure Retains (chunks : List TerminalOutputChunk) (text : CodeUnits) (stop : ℕ) : Prop where
  text_eq : chunksText chunks = text
  ok : ∀ chunk ∈ chunks, chunk.Ok
  contiguous : ∃ start, Contiguous start chunks stop

section Retains

variable {chunks rest : List TerminalOutputChunk} {chunk : TerminalOutputChunk}
  {text more : CodeUnits} {stop : ℕ}

theorem Retains.of_append (h : Retains (chunks ++ rest) text stop) :
    Retains rest (chunksText rest) stop where
  text_eq := rfl
  ok c hc := h.ok c (List.mem_append_right chunks hc)
  contiguous := by
    obtain ⟨start, hstart⟩ := h.contiguous
    obtain ⟨middle, -, hmiddle⟩ := contiguous_append.mp hstart
    exact ⟨middle, hmiddle⟩

theorem Retains.of_cons (h : Retains (chunk :: chunks) text stop) :
    Retains chunks (chunksText chunks) stop :=
  @Retains.of_append [chunk] chunks text stop h

/-- The lengths of chunks add up to the length of their text. -/
theorem totalBytes_eq (h : ∀ chunk ∈ chunks, chunk.Ok) :
    IsWellFormed (chunksText chunks) ∧ totalBytes chunks = byteLength (chunksText chunks) := by
  induction chunks with
  | nil => exact ⟨wellFormed_nil, rfl⟩
  | cons chunk chunks ih =>
    obtain ⟨hchunk, hchunks⟩ := List.forall_mem_cons.mp h
    obtain ⟨hwellFormed, hbytes⟩ := ih hchunks
    rw [chunksText_cons, totalBytes_cons, hbytes, hchunk.byteLength_eq,
      hchunk.wellFormed.byteLength_append hwellFormed]
    exact ⟨hchunk.wellFormed.append hwellFormed, rfl⟩

/-- New chunks start where the old ones stop. -/
theorem Retains.append {stop' : ℕ} (h : Retains chunks text stop)
    (hrest : Retains rest more stop') (hstart : Contiguous stop rest stop') :
    Retains (chunks ++ rest) (text ++ more) stop' where
  text_eq := by rw [chunksText_append, h.text_eq, hrest.text_eq]
  ok c hc := (List.mem_append.mp hc).elim (h.ok c) (hrest.ok c)
  contiguous := h.contiguous.imp fun _ hchunks ↦ contiguous_append.mpr ⟨stop, hchunks, hstart⟩

end Retains

theorem contiguous_placeChunks (start : ℕ) (chunks : List Utf8Chunk) :
    Contiguous start (placeChunks start chunks)
      (start + (chunks.map (·.data.length)).sum) := by
  induction chunks generalizing start with
  | nil => rfl
  | cons chunk chunks ih =>
    refine ⟨rfl, ?_⟩
    rw [List.map_cons, List.sum_cons, ← Nat.add_assoc]
    exact ih _

theorem chunksText_placeChunks (start : ℕ) (chunks : List Utf8Chunk) :
    chunksText (placeChunks start chunks) = chunks.flatMap (·.data) := by
  induction chunks generalizing start with
  | nil => rfl
  | cons chunk chunks ih => rw [placeChunks, chunksText_cons, ih, List.flatMap_cons]

theorem totalBytes_placeChunks (start : ℕ) (chunks : List Utf8Chunk) :
    totalBytes (placeChunks start chunks) = (chunks.map (·.byteLength)).sum := by
  induction chunks generalizing start with
  | nil => rfl
  | cons chunk chunks ih => rw [placeChunks, totalBytes_cons, ih, List.map_cons, List.sum_cons]

theorem exists_of_mem_placeChunks {start : ℕ} {chunks : List Utf8Chunk}
    {chunk : TerminalOutputChunk} (h : chunk ∈ placeChunks start chunks) :
    ∃ c ∈ chunks, chunk.data = c.data ∧ chunk.byteLength = c.byteLength := by
  induction chunks generalizing start with
  | nil => cases h
  | cons c chunks ih =>
    rcases List.mem_cons.mp h with rfl | h
    · exact ⟨c, List.mem_cons_self, rfl, rfl⟩
    · obtain ⟨c', hc', hchunk⟩ := ih h
      exact ⟨c', List.mem_cons_of_mem _ hc', hchunk⟩

/-- The chunks of new output. -/
theorem splitOutputChunks_spec {maxChunkBytes : ℕ} (hmax : 0 < maxChunkBytes) {data : CodeUnits}
    (hdata : IsWellFormed data) (start : ℕ) :
    Retains (splitOutputChunks data start maxChunkBytes).chunks data
        (splitOutputChunks data start maxChunkBytes).nextOffset ∧
      Contiguous start (splitOutputChunks data start maxChunkBytes).chunks
        (splitOutputChunks data start maxChunkBytes).nextOffset ∧
      (splitOutputChunks data start maxChunkBytes).byteLength =
        totalBytes (splitOutputChunks data start maxChunkBytes).chunks := by
  have hsplits := splits_splitStringByUtf8Bytes hmax hdata
  have hcontiguous := contiguous_placeChunks start (splitStringByUtf8Bytes data maxChunkBytes)
  refine ⟨⟨?_, fun chunk hchunk ↦ ?_, start, hcontiguous⟩, hcontiguous, ?_⟩
  · exact (chunksText_placeChunks _ _).trans hsplits.data_eq
  · obtain ⟨c, hc, hcdata, hbytes⟩ := exists_of_mem_placeChunks hchunk
    exact ⟨hcdata ▸ hsplits.wellFormed c hc, by rw [hbytes, hcdata, hsplits.byteLength_eq c hc]⟩
  · exact (totalBytes_placeChunks _ _).symm

/-! ## Trimming -/

/-- A cut of a string into well-formed parts, the first of which has some bytes. -/
structure Cut (data : CodeUnits) (cut : ℕ × ℕ) : Prop where
  le : cut.1 ≤ data.length
  first : IsWellFormed (data.take cut.1)
  rest : IsWellFormed (data.drop cut.1)
  bytes_eq : cut.2 = byteLength (data.take cut.1)

/-- The scan stops at a cut, and only at the end before it has dropped enough. -/
theorem scanDropped_spec {data : CodeUnits} (bytesToDrop : ℕ) {fuel offset droppedBytes : ℕ}
    (hcut : Cut data (offset, droppedBytes)) (hfuel : data.length ≤ offset + fuel) :
    Cut data (scanDropped data bytesToDrop fuel offset droppedBytes) ∧
      (bytesToDrop ≤ (scanDropped data bytesToDrop fuel offset droppedBytes).2 ∨
        data.length ≤ (scanDropped data bytesToDrop fuel offset droppedBytes).1) := by
  induction fuel generalizing offset droppedBytes with
  | zero => exact ⟨hcut, .inr hfuel⟩
  | succ fuel ih =>
    rw [scanDropped]
    split
    · cases hhead : headCodePoint (data.drop offset) with
      | none =>
        rw [headCodePoint_eq, List.head?_eq_none_iff] at hhead
        have hnil : data.drop offset = [] := codePoints_injective hhead
        exact ⟨hcut, .inr (List.drop_eq_nil_iff.mp hnil)⟩
      | some p =>
        obtain ⟨t, ht, hp, htWellFormed⟩ := hcut.rest.exists_eq_append hhead
        have hpWellFormed : IsWellFormed (utf16 p) := by
          simpa using @wellFormed_flatMap_utf16 [p] (by simpa using hp)
        have htake : data.take (offset + utf16Size p) = data.take offset ++ utf16 p := by
          rw [List.take_add, ht, List.take_left' (length_utf16 p)]
        have hdrop : data.drop (offset + utf16Size p) = t := by
          rw [← List.drop_drop, ht, List.drop_left' (length_utf16 p)]
        refine ih ⟨?_, ?_, ?_, ?_⟩ ?_
        · have hlength := congrArg List.length ht
          rw [List.length_drop, List.length_append, length_utf16] at hlength
          have := hcut.le
          have := utf16Size_pos p
          dsimp only at *
          omega
        · exact htake ▸ hcut.first.append hpWellFormed
        · exact hdrop ▸ htWellFormed
        · rw [htake, hcut.first.byteLength_append hpWellFormed, byteLength_utf16 hp,
            ← hcut.bytes_eq]
        · have := utf16Size_pos p
          omega
    · rename_i hdropped
      exact ⟨hcut, .inl (Nat.not_lt.mp hdropped)⟩

/-- Trimming a chunk drops whole code points, at least the bytes that are asked for. -/
theorem trimOutputChunkStart_spec {chunk : TerminalOutputChunk} (hchunk : chunk.Ok)
    {bytesToDrop : ℕ} (hlt : bytesToDrop < chunk.byteLength) :
    (trimOutputChunkStart chunk bytesToDrop).Ok ∧
      (trimOutputChunkStart chunk bytesToDrop).data <:+ chunk.data ∧
      (trimOutputChunkStart chunk bytesToDrop).startOffset +
        (trimOutputChunkStart chunk bytesToDrop).data.length =
          chunk.startOffset + chunk.data.length ∧
      (trimOutputChunkStart chunk bytesToDrop).byteLength + bytesToDrop ≤ chunk.byteLength := by
  obtain ⟨hcut, henough⟩ := @scanDropped_spec chunk.data bytesToDrop chunk.data.length 0 0
    ⟨Nat.zero_le _, wellFormed_nil, hchunk.wellFormed, rfl⟩ (by omega)
  simp only [trimOutputChunkStart]
  generalize scanDropped chunk.data bytesToDrop chunk.data.length 0 0 = dropped at hcut henough ⊢
  have hbytes : chunk.byteLength =
      dropped.2 + byteLength (chunk.data.drop dropped.1) := by
    rw [hcut.bytes_eq, ← hcut.first.byteLength_append hcut.rest, List.take_append_drop,
      hchunk.byteLength_eq]
  have hdropped : bytesToDrop ≤ dropped.2 := by
    refine henough.elim id fun hall ↦ ?_
    rw [List.drop_eq_nil_of_le hall, byteLength_nil] at hbytes
    omega
  refine ⟨⟨hcut.rest, ?_⟩, List.drop_suffix _ _, ?_, ?_⟩
  · dsimp only
    omega
  · have := hcut.le
    rw [List.length_drop]
    omega
  · omega

/-- **Dropping what is too much** keeps an end of the text that fits. -/
theorem dropExcess_spec (maxBufferBytes : ℕ) {chunks : List TerminalOutputChunk} {text : CodeUnits}
    {stop : ℕ} (h : Retains chunks text stop) :
    ∃ kept text', dropExcess maxBufferBytes (totalBytes chunks) chunks = (totalBytes kept, kept) ∧
      Retains kept text' stop ∧ text' <:+ text ∧ totalBytes kept ≤ maxBufferBytes := by
  induction chunks generalizing text with
  | nil => exact ⟨[], text, rfl, h, List.suffix_refl _, Nat.zero_le _⟩
  | cons first chunks ih =>
    have hrest := h.of_cons
    have hsuffix : chunksText chunks <:+ text := ⟨first.data, h.text_eq⟩
    rw [dropExcess]
    split
    · dsimp only
      split
      · rename_i hover hlt
        obtain ⟨hok, htrimmed, hstop, hbytes⟩ :=
          trimOutputChunkStart_spec (h.ok first List.mem_cons_self) hlt
        generalize trimOutputChunkStart first (totalBytes (first :: chunks) - maxBufferBytes) =
          trimmed at hok htrimmed hstop hbytes ⊢
        rw [totalBytes_cons] at hover hlt hbytes ⊢
        split
        · obtain ⟨start, hstart, hchunks⟩ := h.contiguous
          refine ⟨trimmed :: chunks, trimmed.data ++ chunksText chunks, ?_, ?_, ?_, ?_⟩
          · rw [totalBytes_cons]
            congr 1
            omega
          · refine ⟨rfl, List.forall_mem_cons.mpr ⟨hok, hrest.ok⟩, trimmed.startOffset, rfl, ?_⟩
            rw [hstop, hstart]
            exact hchunks
          · obtain ⟨dropped, hdropped⟩ := htrimmed
            refine ⟨dropped, ?_⟩
            rw [← List.append_assoc, hdropped]
            exact h.text_eq
          · rw [totalBytes_cons]
            omega
        · refine ⟨chunks, _, ?_, hrest, hsuffix, ?_⟩
          · congr 1
            omega
          · omega
      · obtain ⟨kept, text', hkept, hretains, htext', hle⟩ := ih hrest
        refine ⟨kept, text', ?_, hretains, htext'.trans hsuffix, hle⟩
        rw [totalBytes_cons, Nat.add_sub_cancel_left, hkept]
    · rename_i hfits
      exact ⟨first :: chunks, text, rfl, h, List.suffix_refl _, Nat.not_lt.mp hfits⟩

/-- Merging two chunks keeps what is retained. -/
theorem compactChunk_spec {compacted rest : List TerminalOutputChunk} {chunk : TerminalOutputChunk}
    {text : CodeUnits} {stop : ℕ} (h : Retains (compacted ++ chunk :: rest) text stop) :
    Retains (compactChunk compacted chunk ++ rest) text stop ∧
      totalBytes (compactChunk compacted chunk) = totalBytes compacted + chunk.byteLength := by
  have hconcat : compacted ++ [chunk] ++ rest = compacted ++ chunk :: rest := by simp
  have htotal : totalBytes (compacted ++ [chunk]) = totalBytes compacted + chunk.byteLength := by
    simp
  rw [compactChunk]
  split
  · exact ⟨hconcat ▸ h, htotal⟩
  · rename_i previous hprevious
    split
    · obtain ⟨initial, rfl⟩ := List.getLast?_eq_some_iff.mp hprevious
      rw [List.dropLast_concat]
      rw [List.append_assoc] at h
      have hpreviousOk := h.ok previous (by simp)
      have hchunkOk := h.ok chunk (by simp)
      obtain ⟨start, hstart⟩ := h.contiguous
      obtain ⟨middle, hinitial, hmiddle, -, hrest⟩ := contiguous_append.mp hstart
      refine ⟨⟨?_, fun c hc ↦ ?_, start, ?_⟩, ?_⟩
      · rw [← h.text_eq]
        simp
      · simp only [List.append_assoc, List.mem_append, List.mem_cons, List.singleton_append] at hc
        rcases hc with hc | rfl | hc
        · exact h.ok c (by simp [hc])
        · exact ⟨hpreviousOk.wellFormed.append hchunkOk.wellFormed, by
            rw [hpreviousOk.byteLength_eq, hchunkOk.byteLength_eq,
              hpreviousOk.wellFormed.byteLength_append hchunkOk.wellFormed]⟩
        · exact h.ok c (by simp [hc])
      · rw [List.append_assoc]
        refine contiguous_append.mpr ⟨middle, hinitial, hmiddle, ?_⟩
        rw [List.length_append, ← Nat.add_assoc]
        exact hrest
      · simp only [totalBytes_append, totalBytes_cons, totalBytes_nil]
        omega
    · exact ⟨hconcat ▸ h, htotal⟩

theorem compactRetainedChunks_spec {chunks : List TerminalOutputChunk} {text : CodeUnits} {stop : ℕ}
    (h : Retains chunks text stop) :
    Retains (compactRetainedChunks chunks) text stop ∧
      totalBytes (compactRetainedChunks chunks) = totalBytes chunks := by
  suffices hall : ∀ chunks compacted, Retains (compacted ++ chunks) text stop →
      Retains (chunks.foldl compactChunk compacted) text stop ∧
        totalBytes (chunks.foldl compactChunk compacted) =
          totalBytes compacted + totalBytes chunks by
    simpa [compactRetainedChunks] using hall chunks [] h
  intro chunks
  induction chunks with
  | nil => exact fun compacted h ↦ ⟨by simpa using h, rfl⟩
  | cons chunk chunks ih =>
    intro compacted h
    obtain ⟨hretains, hbytes⟩ := compactChunk_spec h
    obtain ⟨hfold, hfoldBytes⟩ := ih _ hretains
    rw [List.foldl_cons, totalBytes_cons]
    exact ⟨hfold, by omega⟩

/-- Limiting the number of chunks keeps an end of the text. -/
theorem limitChunks_spec {chunks : List TerminalOutputChunk} {text : CodeUnits} {stop : ℕ}
    (h : Retains chunks text stop) :
    ∃ kept text', limitChunks (totalBytes chunks) chunks = (totalBytes kept, kept) ∧
      Retains kept text' stop ∧ text' <:+ text ∧ totalBytes kept ≤ totalBytes chunks := by
  rw [limitChunks]
  split
  · obtain ⟨hcompacted, hbytes⟩ := compactRetainedChunks_spec h
    dsimp only
    generalize (compactRetainedChunks chunks).length - maxTerminalOutputChunks = excess
    have hsplit := List.take_append_drop excess (compactRetainedChunks chunks)
    rw [← hsplit] at hcompacted hbytes
    rw [totalBytes_append] at hbytes
    refine ⟨_, _, ?_, hcompacted.of_append,
      ⟨chunksText ((compactRetainedChunks chunks).take excess), ?_⟩, by omega⟩
    · have hsum : totalBytes chunks - totalBytes ((compactRetainedChunks chunks).take excess) =
          totalBytes ((compactRetainedChunks chunks).drop excess) := by omega
      exact congrArg (·, (compactRetainedChunks chunks).drop excess) hsum
    · rw [← chunksText_append]
      exact hcompacted.text_eq
  · exact ⟨chunks, text, rfl, h, List.suffix_refl _, Nat.le_refl _⟩

/-! ## States -/

/-- **What the state of a client is after a stream of output**, where the stream begins with what
was retained at the last reset. -/
structure Follows (maxBufferBytes : ℕ) (state : TerminalOutputState) (stream : CodeUnits) :
    Prop where
  retains : Retains state.chunks (terminalOutputText state) state.nextOffset
  suffix : terminalOutputText state <:+ stream
  nextOffset_eq : state.nextOffset = stream.length
  retainedBytes_eq : state.retainedBytes = totalBytes state.chunks
  retainedBytes_le : state.retainedBytes ≤ maxBufferBytes

theorem follows_empty (maxBufferBytes : ℕ) :
    Follows maxBufferBytes emptyTerminalOutputState [] where
  retains := ⟨rfl, List.forall_mem_nil _, 0, rfl⟩
  suffix := List.suffix_refl _
  nextOffset_eq := rfl
  retainedBytes_eq := rfl
  retainedBytes_le := Nat.zero_le _

private theorem chunkBudget_pos (maxBufferBytes : ℕ) :
    0 < min defaultTerminalChunkBytes (max 1 maxBufferBytes) := by
  have : 0 < defaultTerminalChunkBytes := by decide
  omega

/-- **Appending** extends the stream, and retains an end of what was retained and of the new
output. -/
theorem Follows.appendOutput {maxBufferBytes : ℕ} (hmax : 0 < maxBufferBytes)
    {state : TerminalOutputState} {stream data : CodeUnits}
    (h : Follows maxBufferBytes state stream)
    (hdata : IsWellFormed data) :
    Follows maxBufferBytes (appendOutput state data maxBufferBytes) (stream ++ data) ∧
      terminalOutputText (Terminal.appendOutput state data maxBufferBytes) <:+
        terminalOutputText state ++ data ∧
      (Terminal.appendOutput state data maxBufferBytes).generation = state.generation ∧
      (Terminal.appendOutput state data maxBufferBytes).resetVersion = state.resetVersion := by
  rw [Terminal.appendOutput]
  split
  · rename_i hempty
    rw [List.eq_nil_of_length_eq_zero hempty, List.append_nil, List.append_nil]
    exact ⟨h, List.suffix_refl _, rfl, rfl⟩
  rw [if_neg (Nat.pos_iff_ne_zero.mp hmax)]
  dsimp only
  obtain ⟨hnew, hcontiguous, hbytes⟩ :=
    splitOutputChunks_spec (chunkBudget_pos maxBufferBytes) hdata state.nextOffset
  generalize splitOutputChunks data state.nextOffset
    (min defaultTerminalChunkBytes (max 1 maxBufferBytes)) = appended at hnew hcontiguous hbytes ⊢
  have hall := h.retains.append hnew hcontiguous
  have htotal : state.retainedBytes + appended.byteLength =
      totalBytes (state.chunks ++ appended.chunks) := by
    rw [totalBytes_append, h.retainedBytes_eq, hbytes]
  rw [htotal]
  obtain ⟨kept, keptText, hkept, hkeptRetains, hkeptText, hle⟩ :=
    dropExcess_spec maxBufferBytes hall
  obtain ⟨limited, limitedText, hlimited, hlimitedRetains, hlimitedText, hlimitedLe⟩ :=
    limitChunks_spec hkeptRetains
  rw [hkept, hlimited]
  obtain rfl := hlimitedRetains.text_eq
  have hsuffix : chunksText limited <:+ terminalOutputText state ++ data :=
    hlimitedText.trans hkeptText
  obtain ⟨start, hstart⟩ := h.suffix
  refine ⟨⟨hlimitedRetains, hsuffix.trans ⟨start, ?_⟩, ?_, rfl, Nat.le_trans hlimitedLe hle⟩,
    hsuffix, rfl, rfl⟩
  · rw [← List.append_assoc, hstart]
  · rw [List.length_append, ← h.nextOffset_eq, hcontiguous.stop_eq, ← hnew.text_eq]

/-- **Resetting** starts a new stream with what is retained of the data. -/
theorem follows_resetOutput (maxBufferBytes : ℕ) (state : TerminalOutputState) {data : CodeUnits}
    (hdata : IsWellFormed data) :
    Follows maxBufferBytes (resetOutput state data maxBufferBytes)
      (trimBufferToBytes data maxBufferBytes) := by
  obtain ⟨hwellFormed, -, hle⟩ := trimBufferToBytes_spec hdata maxBufferBytes
  obtain ⟨hnew, hcontiguous, hbytes⟩ :=
    splitOutputChunks_spec (chunkBudget_pos maxBufferBytes) hwellFormed 0
  have htext : terminalOutputText (resetOutput state data maxBufferBytes) =
      trimBufferToBytes data maxBufferBytes := hnew.text_eq
  refine ⟨htext ▸ hnew, htext ▸ List.suffix_refl _, ?_, hbytes, ?_⟩
  · have hstop := hcontiguous.stop_eq
    rw [hnew.text_eq, Nat.zero_add] at hstop
    exact hstop
  · have htotal := (totalBytes_eq hnew.ok).2
    rw [hnew.text_eq, ← hbytes] at htotal
    exact Nat.le_trans (Nat.le_of_eq htotal) hle

/-! ## Readers -/

/-- The code units from an offset on, in chunks that begin at or after it. -/
theorem flatMap_drop_of_le {offset start stop : ℕ} {chunks : List TerminalOutputChunk}
    (h : Contiguous start chunks stop) (hle : offset ≤ start) :
    (chunks.filter fun chunk ↦ offset < chunk.startOffset + chunk.data.length).flatMap
      (fun chunk ↦ chunk.data.drop (offset - chunk.startOffset)) = chunksText chunks := by
  induction chunks generalizing start with
  | nil => rfl
  | cons chunk chunks ih =>
    obtain ⟨rfl, hrest⟩ := h
    rw [List.filter_cons, chunksText_cons, ← ih hrest (by omega)]
    split
    · rw [List.flatMap_cons, Nat.sub_eq_zero_of_le hle, List.drop_zero]
    · rename_i hend
      have hnil : chunk.data = [] :=
        List.eq_nil_of_length_eq_zero (by rw [decide_eq_true_eq] at hend; omega)
      rw [hnil, List.nil_append]

/-- **The unread end**: what the chunks have from an offset on. -/
theorem flatMap_drop_eq {offset start stop : ℕ} {chunks : List TerminalOutputChunk}
    (h : Contiguous start chunks stop) (hle : start ≤ offset) :
    (chunks.filter fun chunk ↦ offset < chunk.startOffset + chunk.data.length).flatMap
      (fun chunk ↦ chunk.data.drop (offset - chunk.startOffset)) =
        (chunksText chunks).drop (offset - start) := by
  induction chunks generalizing start with
  | nil => simp
  | cons chunk chunks ih =>
    obtain ⟨rfl, hrest⟩ := h
    rw [List.filter_cons, chunksText_cons]
    split
    · rename_i hend
      rw [decide_eq_true_eq] at hend
      rw [List.flatMap_cons, flatMap_drop_of_le hrest (Nat.le_of_lt hend),
        List.drop_append_of_le_length (by omega)]
    · rename_i hend
      rw [decide_eq_true_eq] at hend
      have hnil : chunk.data.drop (offset - chunk.startOffset) = [] :=
        List.drop_eq_nil_of_le (by omega)
      rw [ih hrest (by omega), List.drop_append, hnil, List.nil_append]
      congr 1
      omega

theorem firstOffset_eq {state : TerminalOutputState} {start : ℕ}
    (h : Contiguous start state.chunks state.nextOffset) : firstOffset state = start := by
  rw [firstOffset]
  cases hchunks : state.chunks with
  | nil =>
    rw [hchunks] at h
    exact h.symm
  | cons chunk chunks =>
    rw [hchunks] at h
    exact h.1

def TerminalOutputUpdate.cursor : TerminalOutputUpdate → TerminalOutputCursor
  | .none cursor | .reset cursor _ | .append cursor _ => cursor

/-- A reader replaces its text on a reset, and extends it on an append. -/
def TerminalOutputUpdate.applyTo (text : CodeUnits) : TerminalOutputUpdate → CodeUnits
  | .none _ => text
  | .reset _ data => data
  | .append _ data => text ++ data

@[simp] theorem cursor_readTerminalOutputUpdate (output : TerminalOutputState)
    (cursor : TerminalOutputCursor) :
    (readTerminalOutputUpdate output cursor).cursor =
      ⟨output.generation, output.resetVersion, output.nextOffset⟩ := by
  simp only [readTerminalOutputUpdate]
  repeat' split
  all_goals rfl

/-- A cursor of this generation and reset that is still retained is told what it has not read. -/
theorem readTerminalOutputUpdate_of_retained {maxBufferBytes : ℕ} {state : TerminalOutputState}
    {stream : CodeUnits} (h : Follows maxBufferBytes state stream) {cursor : TerminalOutputCursor}
    (hgeneration : cursor.generation = state.generation)
    (hversion : cursor.resetVersion = state.resetVersion) {unread : CodeUnits}
    (hoffset : cursor.offset + unread.length = state.nextOffset)
    (hunread : unread <:+ terminalOutputText state) :
    (∀ next data, readTerminalOutputUpdate state cursor ≠ .reset next data) ∧
      ∀ text, (readTerminalOutputUpdate state cursor).applyTo text = text ++ unread := by
  obtain ⟨start, hstart⟩ := h.retains.contiguous
  obtain ⟨initial, hinitial⟩ := hunread
  have hstop := hstart.stop_eq
  rw [h.retains.text_eq, ← hinitial, List.length_append] at hstop
  have hle : start ≤ cursor.offset := by omega
  have happended := flatMap_drop_eq hstart hle
  have hdrop : (chunksText state.chunks).drop (cursor.offset - start) = unread := by
    rw [h.retains.text_eq, ← hinitial]
    exact List.drop_left' (by omega)
  rw [hdrop] at happended
  rw [readTerminalOutputUpdate, firstOffset_eq hstart]
  rw [if_neg (by
    rintro (hne | hne | hlt)
    · exact hne hgeneration
    · exact hne hversion
    · omega)]
  dsimp only
  split
  · rename_i hnil
    rw [hnil] at happended
    refine ⟨fun _ _ ↦ nofun, fun text ↦ ?_⟩
    rw [← happended]
    exact (List.append_nil text).symm
  · refine ⟨fun _ _ ↦ nofun, fun text ↦ ?_⟩
    rw [happended]
    rfl

/-- A cursor that is not retained is told to start over. -/
theorem readTerminalOutputUpdate_of_not_retained {maxBufferBytes : ℕ} {state : TerminalOutputState}
    {stream : CodeUnits} (h : Follows maxBufferBytes state stream) {cursor : TerminalOutputCursor}
    (hreset : cursor.resetVersion ≠ state.resetVersion ∨
      cursor.offset + (terminalOutputText state).length < state.nextOffset) (text : CodeUnits) :
    (readTerminalOutputUpdate state cursor).applyTo text = terminalOutputText state := by
  obtain ⟨start, hstart⟩ := h.retains.contiguous
  have hstop := hstart.stop_eq
  rw [h.retains.text_eq] at hstop
  rw [readTerminalOutputUpdate, firstOffset_eq hstart, if_pos]
  · rfl
  · exact .inr (hreset.imp id fun hlt ↦ by omega)

/-! ## Sessions -/

/-- What happens at a client. -/
inductive TerminalStep
  | append (data : CodeUnits)
  | reset (data : CodeUnits)
  | read

/-- The data of a step has no lone surrogates. -/
def TerminalStep.WellFormed : TerminalStep → Prop
  | .append data | .reset data => IsWellFormed data
  | .read => True

instance (step : TerminalStep) : Decidable step.WellFormed := by
  unfold TerminalStep.WellFormed
  split <;> infer_instance

/-- A terminal with one reader. -/
structure Session where
  output : TerminalOutputState
  /-- The data of the last reset, followed by everything appended since. -/
  source : CodeUnits
  text : CodeUnits
  cursor : TerminalOutputCursor
  /-- What was appended since the reader last read, if it has read since the last reset. -/
  unread : Option CodeUnits

def Session.start : Session where
  output := emptyTerminalOutputState
  source := []
  text := []
  cursor := initialTerminalOutputCursor
  unread := none

def Session.step (maxBufferBytes : ℕ) (s : Session) : TerminalStep → Session
  | .append data =>
    { s with
      output := appendOutput s.output data maxBufferBytes
      source := s.source ++ data
      unread := s.unread.map (· ++ data) }
  | .reset data =>
    { s with
      output := resetOutput s.output data maxBufferBytes
      source := data
      unread := none }
  | .read =>
    let update := readTerminalOutputUpdate s.output s.cursor
    { s with text := update.applyTo s.text, cursor := update.cursor, unread := some [] }

/-- A session after some steps. -/
def Session.run (maxBufferBytes : ℕ) (steps : List TerminalStep) : Session :=
  steps.foldl (Session.step maxBufferBytes) .start

/-- **The invariant of a session.** A reader that has read since the last reset has, with what it
has not read yet, an end of the source and at least what is retained. -/
structure Session.Ok (maxBufferBytes : ℕ) (s : Session) : Prop where
  follows : ∃ stream, Follows maxBufferBytes s.output stream ∧ stream <:+ s.source
  version_le : s.cursor.resetVersion ≤ s.output.resetVersion
  version_lt : s.unread = none → s.cursor.resetVersion < s.output.resetVersion
  reader : ∀ unread, s.unread = some unread →
    s.cursor.generation = s.output.generation ∧ s.cursor.resetVersion = s.output.resetVersion ∧
      s.cursor.offset + unread.length = s.output.nextOffset ∧
      s.text ++ unread <:+ s.source ∧ terminalOutputText s.output <:+ s.text ++ unread

theorem Session.ok_start (maxBufferBytes : ℕ) : Session.start.Ok maxBufferBytes where
  follows := ⟨[], follows_empty maxBufferBytes, List.suffix_refl _⟩
  version_le := by decide
  version_lt _ := by decide
  reader _ h := nomatch h

section Steps

variable {maxBufferBytes : ℕ} {s : Session}

/-- What has not been read is retained, or more than what is retained. -/
theorem Session.Ok.unread_suffix (h : s.Ok maxBufferBytes) {unread : CodeUnits}
    (hunread : s.unread = some unread) :
    unread <:+ terminalOutputText s.output ∨
      (terminalOutputText s.output).length < unread.length := by
  obtain ⟨-, -, -, -, htext⟩ := h.reader unread hunread
  exact (Nat.lt_or_ge (terminalOutputText s.output).length unread.length).symm.imp
    (List.suffix_of_suffix_length_le (List.suffix_append s.text unread) htext) id

/-- **Reading** gives the reader an end of the source, with at least what is retained. -/
theorem Session.Ok.read (h : s.Ok maxBufferBytes) :
    (s.step maxBufferBytes .read).text <:+ s.source ∧
      terminalOutputText s.output <:+ (s.step maxBufferBytes .read).text := by
  obtain ⟨stream, hfollows, hstream⟩ := h.follows
  have hsource : terminalOutputText s.output <:+ s.source := hfollows.suffix.trans hstream
  cases hunread : s.unread with
  | none =>
    have htext : (s.step maxBufferBytes .read).text = terminalOutputText s.output :=
      readTerminalOutputUpdate_of_not_retained hfollows
        (.inl (Int.ne_of_lt (h.version_lt hunread))) s.text
    rw [htext]
    exact ⟨hsource, List.suffix_refl _⟩
  | some unread =>
    obtain ⟨hgeneration, hversion, hoffset, hsuffix, hretained⟩ := h.reader unread hunread
    rcases h.unread_suffix hunread with hkept | hlost
    · have htext : (s.step maxBufferBytes .read).text = s.text ++ unread :=
        (readTerminalOutputUpdate_of_retained hfollows hgeneration hversion hoffset hkept).2 s.text
      rw [htext]
      exact ⟨hsuffix, hretained⟩
    · have htext : (s.step maxBufferBytes .read).text = terminalOutputText s.output :=
        readTerminalOutputUpdate_of_not_retained hfollows (.inr (by omega)) s.text
      rw [htext]
      exact ⟨hsource, List.suffix_refl _⟩

theorem Session.Ok.step (hmax : 0 < maxBufferBytes) (h : s.Ok maxBufferBytes)
    {step : TerminalStep} (hstep : step.WellFormed) :
    (s.step maxBufferBytes step).Ok maxBufferBytes := by
  obtain ⟨stream, hfollows, hstream⟩ := h.follows
  cases step with
  | append data =>
    obtain ⟨happended, htext, hgeneration, hversion⟩ := hfollows.appendOutput hmax hstep
    obtain ⟨initial, hinitial⟩ := hstream
    have hnext : (appendOutput s.output data maxBufferBytes).nextOffset =
        s.output.nextOffset + data.length := by
      rw [happended.nextOffset_eq, List.length_append, hfollows.nextOffset_eq]
    refine ⟨⟨_, happended, initial, ?_⟩, ?_, fun hunread ↦ ?_, fun unread hunread ↦ ?_⟩ <;>
      dsimp only [Session.step] at *
    · rw [← List.append_assoc, hinitial]
    · rw [hversion]
      exact h.version_le
    · rw [hversion]
      exact h.version_lt (Option.map_eq_none_iff.mp hunread)
    · obtain ⟨before, hbefore, rfl⟩ := Option.map_eq_some_iff.mp hunread
      obtain ⟨hcursor, hcursorVersion, hoffset, ⟨start, hstart⟩, start', hstart'⟩ :=
        h.reader before hbefore
      refine ⟨hcursor.trans hgeneration.symm, hcursorVersion.trans hversion.symm, ?_, ⟨start, ?_⟩,
        htext.trans ⟨start', ?_⟩⟩
      · rw [List.length_append]
        omega
      · rw [← hstart, List.append_assoc, List.append_assoc]
      · rw [← List.append_assoc, hstart', List.append_assoc]
  | reset data =>
    obtain ⟨-, hsuffix, -⟩ := trimBufferToBytes_spec hstep maxBufferBytes
    exact ⟨⟨_, follows_resetOutput maxBufferBytes s.output hstep, hsuffix⟩,
      Int.le_add_one h.version_le, fun _ ↦ Int.lt_add_one_of_le h.version_le,
      fun _ hunread ↦ nomatch hunread⟩
  | read =>
    obtain ⟨hsource, htext⟩ := h.read
    have hcursor : (s.step maxBufferBytes .read).cursor =
        ⟨s.output.generation, s.output.resetVersion, s.output.nextOffset⟩ :=
      cursor_readTerminalOutputUpdate _ _
    refine ⟨⟨stream, hfollows, hstream⟩, ?_, fun hunread ↦ (nomatch hunread),
      fun unread hunread ↦ ?_⟩
    · rw [hcursor]
      exact Int.le_refl _
    · obtain rfl := Option.some_inj.mp hunread
      rw [hcursor, List.append_nil]
      exact ⟨rfl, rfl, rfl, hsource, htext⟩

end Steps

theorem Session.ok_run {maxBufferBytes : ℕ} (hmax : 0 < maxBufferBytes) {steps : List TerminalStep}
    (hsteps : ∀ step ∈ steps, step.WellFormed) :
    (Session.run maxBufferBytes steps).Ok maxBufferBytes :=
  List.foldlRecOn steps (Session.step maxBufferBytes) (Session.ok_start maxBufferBytes)
    fun _ hs step hstep ↦ hs.step hmax (hsteps step hstep)

/-- **A reader sees the output stream without loss or duplication.** In every reachable state the
chunks follow one another up to the next offset, and their lengths in UTF-8 add up to the retained
bytes, within the budget. Reading gives the reader an end of the source that has at least what is
retained, and does not reset a reader all of whose unread output is retained. -/
theorem reader_of_run {maxBufferBytes : ℕ} (hmax : 0 < maxBufferBytes) {steps : List TerminalStep}
    (hsteps : ∀ step ∈ steps, step.WellFormed) {s : Session}
    (hs : Session.run maxBufferBytes steps = s) :
    (∃ start, Contiguous start s.output.chunks s.output.nextOffset) ∧
      s.output.retainedBytes = (s.output.chunks.map fun chunk ↦ byteLength chunk.data).sum ∧
      s.output.retainedBytes ≤ maxBufferBytes ∧
      (s.step maxBufferBytes .read).text <:+ s.source ∧
      terminalOutputText s.output <:+ (s.step maxBufferBytes .read).text ∧
      ∀ unread, s.unread = some unread → unread <:+ terminalOutputText s.output →
        ∀ cursor data, readTerminalOutputUpdate s.output s.cursor ≠ .reset cursor data := by
  have hok : s.Ok maxBufferBytes := hs ▸ Session.ok_run hmax hsteps
  obtain ⟨stream, hfollows, -⟩ := hok.follows
  refine ⟨hfollows.retains.contiguous, ?_, hfollows.retainedBytes_le, hok.read.1, hok.read.2,
    fun unread hunread hkept ↦ ?_⟩
  · rw [hfollows.retainedBytes_eq, totalBytes]
    exact congrArg _ (List.map_congr_left fun chunk hchunk ↦
      (hfollows.retains.ok chunk hchunk).byteLength_eq)
  · obtain ⟨hgeneration, hversion, hoffset, -, -⟩ := hok.reader unread hunread
    exact (readTerminalOutputUpdate_of_retained hfollows hgeneration hversion hoffset hkept).1

/-- Two appends, a read between them, and a budget that the second exceeds. -/
def testSteps : List TerminalStep :=
  [.append (unitsOf "aé"), .read, .append (unitsOf "😀b")]

theorem reader_of_run_testSteps :
    terminalOutputText (Session.run 6 testSteps).output = unitsOf "😀b" ∧
      terminalOutputText (Session.run 6 testSteps).output <:+
        ((Session.run 6 testSteps).step 6 .read).text :=
  ⟨by decide +kernel, (reader_of_run (by decide : 0 < 6) (by decide +kernel) rfl).2.2.2.2.1⟩

end Awen.Terminal
