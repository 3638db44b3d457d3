import Awen.Library.OrderedMap
import Awen.Library.Runs
import Awen.Orchestration.BufferedText
import Mathlib.Logic.Function.Basic

/-!
# The deliveries of buffered assistant text

`appendBufferedAssistantText` adds a delta to the buffer of its message and delivers what may be
delivered. What it has delivered of a message and what it buffers are together what it has received,
as long as the caches keep the text they hold.

Each delivery is split off a buffer that is read from its beginning, with no open fence. That is how
the whole text is read there, unless the buffer was emptied inside a fence or within a fence's line.
-/

namespace Awen.Orchestration

/-! ## The buffers -/

/-- The modes in which text is buffered. -/
inductive BufferedStreamingMode where
  | turn
  | paragraph
  deriving DecidableEq

structure AssistantTextCaches where
  bufferedAssistantTextByMessageId : OrderedMap String CodeUnits := .empty
  lastAssistantDeliveryAtByMessageId : OrderedMap String ℤ := .empty
  deriving DecidableEq

structure AssistantDelta where
  messageId : String
  delta : CodeUnits
  mode : BufferedStreamingMode
  atMillis : ℤ
  deriving DecidableEq

namespace AssistantTextCaches

variable (caches : AssistantTextCaches)

def bufferedText (messageId : String) : CodeUnits :=
  (caches.bufferedAssistantTextByMessageId.get messageId).getD []

variable (input : AssistantDelta)

def nextText : CodeUnits := caches.bufferedText input.messageId ++ input.delta

/-- Turn mode holds everything. -/
def splitNextText : SplitText :=
  match input.mode with
  | .paragraph => splitBufferedAssistantText (caches.nextText input)
  | .turn => ⟨[], caches.nextText input⟩

def paced : Bool :=
  match caches.lastAssistantDeliveryAtByMessageId.get input.messageId with
  | none => true
  | some lastDeliveredAt =>
    decide (minAssistantDeliveryIntervalMs ≤ input.atMillis - lastDeliveredAt)

def deliversReady : Bool :=
  caches.paced input && hasRenderableAssistantText (caches.splitNextText input).ready &&
    decide ((caches.splitNextText input).rest.length ≤ maxBufferedAssistantChars)

/-- **What is delivered**, and the caches after it. -/
def appendBufferedAssistantText : CodeUnits × AssistantTextCaches :=
  let ⟨ready, rest⟩ := caches.splitNextText input
  if caches.deliversReady input then
    (ready,
      { bufferedAssistantTextByMessageId :=
          if 0 < rest.length then caches.bufferedAssistantTextByMessageId.set input.messageId rest
          else caches.bufferedAssistantTextByMessageId.delete input.messageId
        lastAssistantDeliveryAtByMessageId :=
          caches.lastAssistantDeliveryAtByMessageId.set input.messageId input.atMillis })
  else if (caches.nextText input).length ≤ maxBufferedAssistantChars then
    ([], { caches with
      bufferedAssistantTextByMessageId :=
        caches.bufferedAssistantTextByMessageId.set input.messageId (caches.nextText input) })
  else
    -- the safety valve
    (caches.nextText input, { caches with
      bufferedAssistantTextByMessageId :=
        caches.bufferedAssistantTextByMessageId.delete input.messageId })

def takeBufferedAssistantText (messageId : String) : CodeUnits × AssistantTextCaches :=
  (caches.bufferedText messageId, { caches with
    bufferedAssistantTextByMessageId := caches.bufferedAssistantTextByMessageId.delete messageId })

/-- Nothing may be delivered early, and the buffer would grow beyond its limit. -/
def SizeLimitForces : Prop :=
  caches.deliversReady input = false ∧ maxBufferedAssistantChars < (caches.nextText input).length

instance : Decidable (caches.SizeLimitForces input) := inferInstanceAs (Decidable (_ ∧ _))

@[simp] theorem bufferedText_set (messageId : String) (text : CodeUnits)
    (lasts : OrderedMap String ℤ) :
    (AssistantTextCaches.mk (caches.bufferedAssistantTextByMessageId.set messageId text)
      lasts).bufferedText messageId = text := by
  rw [bufferedText, OrderedMap.get_set_self]
  rfl

@[simp] theorem bufferedText_delete (messageId : String) (lasts : OrderedMap String ℤ) :
    (AssistantTextCaches.mk (caches.bufferedAssistantTextByMessageId.delete messageId)
      lasts).bufferedText messageId = [] := by
  rw [bufferedText, OrderedMap.get_delete_self]
  rfl

theorem bufferedText_set_of_ne {messageId other : String} (h : other ≠ messageId)
    (text : CodeUnits) (lasts : OrderedMap String ℤ) :
    (AssistantTextCaches.mk (caches.bufferedAssistantTextByMessageId.set messageId text)
      lasts).bufferedText other = caches.bufferedText other := by
  rw [bufferedText, OrderedMap.get_set_of_ne h]
  rfl

theorem bufferedText_delete_of_ne {messageId other : String} (h : other ≠ messageId)
    (lasts : OrderedMap String ℤ) :
    (AssistantTextCaches.mk (caches.bufferedAssistantTextByMessageId.delete messageId)
      lasts).bufferedText other = caches.bufferedText other := by
  rw [bufferedText, OrderedMap.get_delete_of_ne h]
  rfl

/-- What is ready ends at a line start outside open fences, and nothing is lost. -/
theorem splitNextText_spec :
    (caches.splitNextText input).ready ++ (caches.splitNextText input).rest =
        caches.nextText input ∧
      openFenceOf (caches.splitNextText input).ready = none ∧
      partialLine lineBreak (caches.splitNextText input).ready = [] := by
  rw [splitNextText]
  split
  · exact ⟨ready_append_rest _, ready_spec _⟩
  · exact ⟨rfl, rfl, rfl⟩

/-- **What an append does to its message**: what is delivered and what is buffered are what was
buffered and the delta; and where the size limit does not force the whole buffer out, what is
delivered ends at a line start outside open fences. -/
theorem appendBufferedAssistantText_spec :
    (caches.appendBufferedAssistantText input).1 ++
        (caches.appendBufferedAssistantText input).2.bufferedText input.messageId =
      caches.bufferedText input.messageId ++ input.delta ∧
    (caches.SizeLimitForces input ∧
        (caches.appendBufferedAssistantText input).2.bufferedText input.messageId = [] ∨
      ¬caches.SizeLimitForces input ∧
        openFenceOf (caches.appendBufferedAssistantText input).1 = none ∧
        partialLine lineBreak (caches.appendBufferedAssistantText input).1 = []) := by
  obtain ⟨hsplit, hready⟩ := caches.splitNextText_spec input
  rw [appendBufferedAssistantText]
  dsimp only
  split
  next hdelivers =>
    refine ⟨?_, .inr ⟨fun h ↦ ?_, hready⟩⟩
    · rw [← nextText, ← hsplit]
      split
      · rw [bufferedText_set]
      next hrest =>
        rw [bufferedText_delete, List.eq_nil_of_length_eq_zero (Nat.eq_zero_of_not_pos hrest)]
    · exact absurd (hdelivers.symm.trans h.1) nofun
  next hdelivers =>
    split
    next hlength =>
      exact ⟨bufferedText_set .., .inr ⟨fun h ↦ absurd h.2 (Nat.not_lt.mpr hlength), rfl, rfl⟩⟩
    next hlength =>
      refine ⟨?_, .inl ⟨⟨Bool.eq_false_iff.mpr hdelivers, Nat.not_le.mp hlength⟩, ?_⟩⟩
      · rw [bufferedText_delete, List.append_nil, nextText]
      · exact bufferedText_delete ..

/-- The safety valve. -/
theorem appendBufferedAssistantText_of_forces (h : caches.SizeLimitForces input) :
    caches.appendBufferedAssistantText input = (caches.nextText input, { caches with
      bufferedAssistantTextByMessageId :=
        caches.bufferedAssistantTextByMessageId.delete input.messageId }) := by
  rw [appendBufferedAssistantText]
  dsimp only
  rw [if_neg (Bool.eq_false_iff.mp h.1), if_neg (Nat.not_le.mpr h.2)]

/-- The other messages keep what they have. -/
theorem bufferedText_append_of_ne {other : String} (h : other ≠ input.messageId) :
    (caches.appendBufferedAssistantText input).2.bufferedText other =
    caches.bufferedText other := by
  rw [appendBufferedAssistantText]
  dsimp only
  split
  · split
    · exact caches.bufferedText_set_of_ne h ..
    · exact caches.bufferedText_delete_of_ne h ..
  · split
    · exact caches.bufferedText_set_of_ne h ..
    · exact caches.bufferedText_delete_of_ne h ..

end AssistantTextCaches

/-! ## Runs -/

/-- What happens to the buffers. A cache may let go of an entry on its own, when it is too old or
when there are too many. -/
inductive AssistantStreamStep where
  | append (input : AssistantDelta)
  | take (messageId : String)
  | dropText (messageId : String)
  | dropLastDelivery (messageId : String)

/-- The caches, and for each message what it has received, what has been delivered of it, and how
much of that had been delivered when its buffer was last emptied as a whole. -/
structure AssistantStream where
  caches : AssistantTextCaches := {}
  received : String → CodeUnits := fun _ ↦ []
  delivered : String → CodeUnits := fun _ ↦ []
  cut : String → CodeUnits := fun _ ↦ []

namespace AssistantStream

def next (s : AssistantStream) : AssistantStreamStep → AssistantStream
  | .append input =>
    let (chunk, caches) := s.caches.appendBufferedAssistantText input
    let delivered := s.delivered input.messageId ++ chunk
    { caches
      received := Function.update s.received input.messageId
        (s.received input.messageId ++ input.delta)
      delivered := Function.update s.delivered input.messageId delivered
      cut := if s.caches.SizeLimitForces input then Function.update s.cut input.messageId delivered
        else s.cut }
  | .take messageId =>
    let (chunk, caches) := s.caches.takeBufferedAssistantText messageId
    let delivered := s.delivered messageId ++ chunk
    { s with
      caches
      delivered := Function.update s.delivered messageId delivered
      cut := Function.update s.cut messageId delivered }
  | .dropText messageId =>
    { s with caches := { s.caches with
        bufferedAssistantTextByMessageId :=
          s.caches.bufferedAssistantTextByMessageId.delete messageId } }
  | .dropLastDelivery messageId =>
    { s with caches := { s.caches with
        lastAssistantDeliveryAtByMessageId :=
          s.caches.lastAssistantDeliveryAtByMessageId.delete messageId } }

def run (steps : List AssistantStreamStep) : AssistantStream := steps.foldl next {}

/-- **Nothing is lost**: what was delivered and what is buffered are what was received. -/
def Lossless (s : AssistantStream) : Prop :=
  ∀ messageId, s.delivered messageId ++ s.caches.bufferedText messageId = s.received messageId

/-- **No chunk ends inside a fence** of the text received so far, unless a size limit forces it. -/
def EndsOutsideFences (s : AssistantStream) (input : AssistantDelta) : Prop :=
  (s.caches.appendBufferedAssistantText input).1 ≠ [] → ¬s.caches.SizeLimitForces input →
    ¬InsideFence ((s.next (.append input)).received input.messageId)
      ((s.next (.append input)).delivered input.messageId).length

/-- The deliveries of a run lose nothing and end outside fences. -/
def DeliversSafely (steps : List AssistantStreamStep) : Prop :=
  (∀ before after, steps = before ++ after → (run before).Lossless) ∧
    ∀ before input after, steps = before ++ .append input :: after →
      (run before).EndsOutsideFences input

/-- A text is read on its own as it is read behind another: no fence is open where the other stops,
and if it stops within a line, this line is no fence, neither as a whole nor from there on. -/
def Rejoins (before after : CodeUnits) : Prop :=
  openFenceOf before = none ∧ (partialLine lineBreak before = [] ∨
    ∀ line ∈ (terminatedLines lineBreak after).head?,
      markdownFence (trimLine (partialLine lineBreak before ++ line)) = none ∧
        markdownFence (trimLine line) = none)

instance (before after : CodeUnits) : Decidable (Rejoins before after) :=
  inferInstanceAs (Decidable (_ ∧ (_ ∨ _)))

/-- What a message has received behind the place where its buffer was last emptied as a whole is
read on its own as it is read there, and no cache lets go of text. -/
def Resumes (s : AssistantStream) : AssistantStreamStep → Prop
  | .append input => Rejoins (s.cut input.messageId)
      ((s.received input.messageId ++ input.delta).drop (s.cut input.messageId).length)
  | .take _ => True
  | .dropText messageId => s.caches.bufferedText messageId = []
  | .dropLastDelivery _ => True

instance (s : AssistantStream) : (step : AssistantStreamStep) → Decidable (s.Resumes step)
  | .append _ => inferInstanceAs (Decidable (Rejoins _ _))
  | .take _ => .isTrue trivial
  | .dropText _ => inferInstanceAs (Decidable (_ = _))
  | .dropLastDelivery _ => .isTrue trivial

/-- **The invariant of a message.** What has been delivered since its buffer was last emptied ends
at a line start, outside the fences of what has been received since. -/
def Coherent (s : AssistantStream) (messageId : String) : Prop :=
  ∃ since, s.delivered messageId = s.cut messageId ++ since ∧
    s.delivered messageId ++ s.caches.bufferedText messageId = s.received messageId ∧
    openFenceOf since = none ∧ partialLine lineBreak since = []

variable {s : AssistantStream} {input : AssistantDelta} {messageId : String}

@[simp] theorem caches_append : (s.next (.append input)).caches =
    (s.caches.appendBufferedAssistantText input).2 := rfl

@[simp] theorem received_append : (s.next (.append input)).received =
    Function.update s.received input.messageId (s.received input.messageId ++ input.delta) := rfl

@[simp] theorem delivered_append : (s.next (.append input)).delivered =
    Function.update s.delivered input.messageId
      (s.delivered input.messageId ++ (s.caches.appendBufferedAssistantText input).1) := rfl

theorem cut_append : (s.next (.append input)).cut =
    if s.caches.SizeLimitForces input then
      Function.update s.cut input.messageId ((s.next (.append input)).delivered input.messageId)
    else s.cut := by
  rw [delivered_append, Function.update_self]
  rfl

/-- What starts anew is coherent. -/
theorem Coherent.of_cut (hcut : s.delivered messageId = s.cut messageId)
    (hlossless : s.delivered messageId ++ s.caches.bufferedText messageId = s.received messageId) :
    s.Coherent messageId :=
  ⟨[], by rw [hcut, List.append_nil], hlossless, rfl, rfl⟩

/-- Reading goes on behind a text that ends at a line start outside fences. -/
theorem openFenceOf_append {text more : CodeUnits} (hopen : openFenceOf text = none)
    (hline : partialLine lineBreak text = []) : openFenceOf (text ++ more) = openFenceOf more := by
  rw [openFenceOf, foldLines_append lineBreak _ _ hline, ← openFenceOf, hopen, openFenceOf]

/-- An append loses nothing of its message. -/
theorem Coherent.lossless_append (h : s.Coherent input.messageId) :
    (s.next (.append input)).delivered input.messageId ++
      (s.next (.append input)).caches.bufferedText input.messageId =
        (s.next (.append input)).received input.messageId := by
  obtain ⟨_, _, hlossless, _⟩ := h
  rw [delivered_append, received_append, caches_append, Function.update_self, Function.update_self,
    List.append_assoc, (s.caches.appendBufferedAssistantText_spec input).1, ← List.append_assoc,
    hlossless]

/-- Where the buffer is not forced out, the delivery goes on from the one before it. -/
theorem Coherent.delivered_append (h : s.Coherent input.messageId)
    (hforces : ¬s.caches.SizeLimitForces input) :
    ∃ since, (s.next (.append input)).delivered input.messageId =
        s.cut input.messageId ++ since ∧
      openFenceOf since = none ∧ partialLine lineBreak since = [] := by
  obtain ⟨since, hdelivered, -, hopen, hline⟩ := h
  obtain ⟨-, ⟨hforced, -⟩ | ⟨-, hchunkOpen, hchunkLine⟩⟩ :=
    s.caches.appendBufferedAssistantText_spec input
  · exact absurd hforced hforces
  · refine ⟨since ++ (s.caches.appendBufferedAssistantText input).1, ?_, ?_, ?_⟩
    · rw [AssistantStream.delivered_append, Function.update_self, hdelivered, List.append_assoc]
    · rw [openFenceOf_append hopen hline, hchunkOpen]
    · rw [partialLine_append _ hline, hchunkLine]

theorem Coherent.append (h : s.Coherent messageId) :
    (s.next (.append input)).Coherent messageId := by
  by_cases hid : messageId = input.messageId
  · subst hid
    by_cases hforces : s.caches.SizeLimitForces input
    · exact .of_cut (by rw [cut_append, if_pos hforces, Function.update_self]) h.lossless_append
    · obtain ⟨since, hdelivered, hspec⟩ := h.delivered_append hforces
      refine ⟨since, ?_, h.lossless_append, hspec⟩
      rw [cut_append, if_neg hforces, hdelivered]
  · obtain ⟨since, hdelivered, hlossless, hspec⟩ := h
    refine ⟨since, ?_, ?_, hspec⟩
    · rw [cut_append, AssistantStream.delivered_append, Function.update_of_ne hid, hdelivered]
      split
      · rw [Function.update_of_ne hid]
      · rfl
    · rw [AssistantStream.delivered_append, received_append, caches_append,
        Function.update_of_ne hid, Function.update_of_ne hid,
        s.caches.bufferedText_append_of_ne input hid, hlossless]

theorem Coherent.take (h : s.Coherent messageId) (taken : String) :
    (s.next (.take taken)).Coherent messageId := by
  obtain ⟨since, hdelivered, hlossless, hspec⟩ := h
  by_cases hid : messageId = taken
  · subst hid
    refine .of_cut ?_ ?_
    · simp only [AssistantStream.next, Function.update_self]
    · simp only [AssistantStream.next, AssistantTextCaches.takeBufferedAssistantText,
        Function.update_self]
      rw [AssistantTextCaches.bufferedText_delete, List.append_nil, hlossless]
  · refine ⟨since, ?_, ?_, hspec⟩
    · simp only [AssistantStream.next, Function.update_of_ne hid, hdelivered]
    · simp only [AssistantStream.next, AssistantTextCaches.takeBufferedAssistantText,
        Function.update_of_ne hid]
      rw [AssistantTextCaches.bufferedText_delete_of_ne _ hid, hlossless]

/-- A cache may let go of an entry that holds no text. -/
theorem Coherent.dropText (h : s.Coherent messageId) {dropped : String}
    (hempty : s.caches.bufferedText dropped = []) :
    (s.next (.dropText dropped)).Coherent messageId := by
  obtain ⟨since, hdelivered, hlossless, hspec⟩ := h
  refine ⟨since, hdelivered, ?_, hspec⟩
  by_cases hid : messageId = dropped
  · subst hid
    rw [hempty] at hlossless
    simpa only [AssistantStream.next, AssistantTextCaches.bufferedText_delete] using hlossless
  · simpa only [AssistantStream.next, AssistantTextCaches.bufferedText_delete_of_ne _ hid]
      using hlossless

/-- **A step keeps the invariant**, unless it lets go of text. -/
theorem Coherent.next (h : s.Coherent messageId) {step : AssistantStreamStep}
    (hstep : s.Resumes step) : (s.next step).Coherent messageId := by
  cases step with
  | append input => exact h.append
  | take taken => exact h.take taken
  | dropText dropped => exact h.dropText hstep
  | dropLastDelivery dropped => exact h

/-- **The invariant of a run.** -/
theorem coherent_run {steps : List AssistantStreamStep}
    (h : EveryStep AssistantStream.next Resumes {} steps) (messageId : String) :
    (run steps).Coherent messageId :=
  h.foldl_invariant (P := fun s ↦ s.Coherent messageId) (fun _ _ hs hstep ↦ hs.next hstep)
    (.of_cut rfl rfl)

/-! ## Reading behind a cut -/

/-- Behind a text that it rejoins, a text opens and closes the same fences as on its own. -/
theorem Rejoins.openFenceOf_append {before after : CodeUnits} (h : Rejoins before after)
    {since : CodeUnits} (hsince : since <+: after) :
    openFenceOf (before ++ since) = openFenceOf since := by
  obtain ⟨hopen, hline⟩ := h
  have hterminated := terminatedLines_isPrefix lineBreak hsince
  rw [openFenceOf, foldLines, terminatedLines_append, List.foldl_append, ← foldLines,
    ← openFenceOf, hopen, openFenceOf, foldLines]
  cases hlines : terminatedLines lineBreak since with
  | nil => rfl
  | cons line lines =>
    obtain hline | hline := hline
    · rw [hline, continueLine_nil]
    · rw [hlines] at hterminated
      obtain ⟨more, hmore⟩ := hterminated
      obtain ⟨hwhole, hrest⟩ := hline line (by rw [← hmore]; rfl)
      rw [continueLine, List.foldl_cons, List.foldl_cons, fenceStep_of_none hwhole,
        fenceStep_of_none hrest]

/-- A chunk that is delivered where the reading resumes ends outside fences. -/
theorem Coherent.endsOutsideFences (h : s.Coherent input.messageId)
    (hresumes : s.Resumes (.append input)) : s.EndsOutsideFences input := by
  intro _ hforces
  obtain ⟨since, hdelivered, hopen, -⟩ := h.delivered_append hforces
  have hreceived := @Coherent.lossless_append s input h
  rw [InsideFence, ← hreceived, List.take_left, hdelivered, Bool.not_eq_true,
    Option.isSome_eq_false_iff, Option.isNone_iff_eq_none, ← hopen]
  refine Rejoins.openFenceOf_append hresumes ?_
  rw [hdelivered, received_append, Function.update_self] at hreceived
  rw [← hreceived, List.append_assoc, List.drop_left]
  exact List.prefix_append _ _

/-- **Where the reading resumes after every cut, deliveries lose nothing and end outside
fences.** -/
theorem deliversSafely_of_resumes {steps : List AssistantStreamStep}
    (h : EveryStep AssistantStream.next Resumes {} steps) : DeliversSafely steps := by
  constructor
  · rintro before after rfl messageId
    obtain ⟨_, _, hlossless, _⟩ := coherent_run h.append_left messageId
    exact hlossless
  · rintro before input after rfl
    exact (coherent_run h.append_left input.messageId).endsOutsideFences h.append_cons

/-- A paragraph and a code block that come in pieces, with a flush between two paragraphs. -/
theorem deliversSafely_codeBlock : DeliversSafely
    [.append ⟨"m", unitsOf "intro\n\n```\nco", .paragraph, 0⟩,
      .append ⟨"m", unitsOf "de\n\nmore\n``", .paragraph, 500⟩,
      .append ⟨"m", unitsOf "`\nafter", .paragraph, 1000⟩, .take "m",
      .append ⟨"m", unitsOf "wards\n\n- item", .paragraph, 1500⟩] :=
  deliversSafely_of_resumes (by decide +kernel)

/-! ## A block beyond the size limit -/

/-- Behind a block that has been flushed with its fence open, a blank line is taken for a
boundary. -/
theorem not_endsOutsideFences_of_open {block : CodeUnits} {fence : Fence} (hcaches : s.caches = {})
    (hreceived : s.received "m" = block) (hdelivered : s.delivered "m" = block)
    (hopen : openFenceOf block = some fence) (hline : partialLine lineBreak block = []) :
    ¬s.EndsOutsideFences ⟨"m", unitsOf "code\n\nmore", .paragraph, 500⟩ := by
  intro hends
  have hchunk : (s.caches.appendBufferedAssistantText
      ⟨"m", unitsOf "code\n\nmore", .paragraph, 500⟩).1 = unitsOf "code\n\n" := by
    rw [hcaches]
    decide +kernel
  have hsize : ¬s.caches.SizeLimitForces ⟨"m", unitsOf "code\n\nmore", .paragraph, 500⟩ := by
    rw [hcaches]
    decide +kernel
  refine hends (by rw [hchunk]; decide) hsize ?_
  rw [received_append, delivered_append, hchunk, Function.update_self, Function.update_self,
    hreceived, hdelivered]
  have htake : (block ++ unitsOf "code\n\nmore").take (block ++ unitsOf "code\n\n").length =
      block ++ unitsOf "code\n\n" := by
    rw [List.length_append, List.take_length_add_append]
    rfl
  rw [InsideFence, htake, openFenceOf, foldLines_append lineBreak _ _ hline, ← openFenceOf, hopen]
  rfl

/-- A block that is forced out has been delivered, and nothing is buffered. -/
theorem run_of_forces {block : CodeUnits}
    (h : AssistantTextCaches.SizeLimitForces {} ⟨"m", block, .paragraph, 0⟩) :
    (run [.append ⟨"m", block, .paragraph, 0⟩]).caches = {} ∧
      (run [.append ⟨"m", block, .paragraph, 0⟩]).received "m" = block ∧
      (run [.append ⟨"m", block, .paragraph, 0⟩]).delivered "m" = block := by
  have happend := AssistantTextCaches.appendBufferedAssistantText_of_forces {} _ h
  exact ⟨congrArg Prod.snd happend, rfl, congrArg Prod.fst happend⟩

/-- A code block whose closing fence has not come. -/
def openBlock (n : ℕ) : CodeUnits :=
  unlines lineBreak [unitsOf "```", List.replicate n 0x78]

theorem markdownFence_replicate (n : ℕ) :
    markdownFence (trimLine (List.replicate (n + 1) 0x78)) = none := by
  have htrim : trimLine (List.replicate (n + 1) 0x78) = List.replicate (n + 1) 0x78 := by
    rw [trimLine, List.rdropWhile_eq_self_iff]
    intro hne
    rw [List.getLast_replicate]
    decide
  rw [htrim, List.replicate_succ]
  rfl

theorem not_mem_openBlock (n : ℕ) :
    ∀ line ∈ [unitsOf "```", List.replicate n 0x78], lineBreak ∉ line := by
  refine List.forall_mem_cons.mpr ⟨by decide, List.forall_mem_singleton.mpr fun h ↦ ?_⟩
  exact absurd (List.eq_of_mem_replicate h) (by decide)

theorem openFenceOf_openBlock (n : ℕ) :
    openFenceOf (openBlock (n + 1)) = some ⟨unitsOf "```", 0⟩ := by
  rw [openFenceOf, foldLines, openBlock, terminatedLines_unlines lineBreak (not_mem_openBlock _),
    List.foldl_cons, List.foldl_cons, fenceStep_of_none (markdownFence_replicate n)]
  decide

/-- Nothing of an open block may be delivered. -/
theorem splitBufferedAssistantText_openBlock (n : ℕ) :
    splitBufferedAssistantText (openBlock (n + 1)) = ⟨[], openBlock (n + 1)⟩ := by
  have hfence : (LineScan.next {} (unitsOf "```")).openFence = some ⟨unitsOf "```", 0⟩ := by decide
  have hstarted : (LineScan.next {} (unitsOf "```")).openFence ≠ none :=
    Option.ne_none_iff_exists'.mpr ⟨_, hfence⟩
  have hopen : ((LineScan.next {} (unitsOf "```")).next (List.replicate (n + 1) 0x78)).openFence =
      some ⟨unitsOf "```", 0⟩ := by
    rw [LineScan.openFence_next, fenceStep_of_none (markdownFence_replicate n), hfence]
  have hgoesOn : ((LineScan.next {} (unitsOf "```")).next
      (List.replicate (n + 1) 0x78)).openFence ≠ none := Option.ne_none_iff_exists'.mpr ⟨_, hopen⟩
  have hboundary : (scanBufferedAssistantText (openBlock (n + 1))).boundary = none := by
    rw [scanBufferedAssistantText, foldLines, openBlock,
      terminatedLines_unlines lineBreak (not_mem_openBlock _), List.foldl_cons, List.foldl_cons,
      List.foldl_nil, LineScan.boundary_listItem_of_open hgoesOn]
    exact LineScan.boundary_next_of_open hstarted hgoesOn (by decide)
  rw [splitBufferedAssistantText, hboundary]

theorem length_openBlock (n : ℕ) : (openBlock n).length = n + 5 := by
  rw [openBlock, unlines_cons, unlines_cons, unlines_nil, List.length_append, List.length_cons,
    List.length_append, List.length_replicate]
  change 3 + (n + 1 + 1) = n + 5
  omega

/-- The size limit forces the whole block out. -/
theorem sizeLimitForces_openBlock :
    AssistantTextCaches.SizeLimitForces {} ⟨"m", openBlock 24000, .paragraph, 0⟩ := by
  have hsplit : AssistantTextCaches.splitNextText {} ⟨"m", openBlock 24000, .paragraph, 0⟩ =
      ⟨[], openBlock 24000⟩ := splitBufferedAssistantText_openBlock 23999
  refine ⟨?_, ?_⟩
  · rw [AssistantTextCaches.deliversReady, hsplit]
    exact Bool.and_eq_false_iff.mpr (.inl (by decide))
  · change 24000 < (openBlock 24000).length
    rw [length_openBlock]
    decide

/-- **A block beyond the size limit**: what comes behind the flush is split at a blank line, and the
fence that the flush has delivered is still open there. -/
theorem not_deliversSafely_openBlock : ¬DeliversSafely
    [.append ⟨"m", openBlock 24000, .paragraph, 0⟩,
      .append ⟨"m", unitsOf "code\n\nmore", .paragraph, 500⟩] := by
  intro h
  obtain ⟨hcaches, hreceived, hdelivered⟩ := run_of_forces sizeLimitForces_openBlock
  exact not_endsOutsideFences_of_open hcaches hreceived hdelivered (openFenceOf_openBlock 23999)
    (partialLine_unlines lineBreak (not_mem_openBlock 24000)) (h.2 [_] _ [] rfl)

end AssistantStream

end Awen.Orchestration
