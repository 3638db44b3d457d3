import Mathlib
import Awen.Library.OrderedMap
import Awen.Library.Runs

/-!
# The window of terminal output

The RPC server sends a chunk of a stream and waits for its acknowledgement before it sends the next
one. `withTerminalOutputWindow` stands between the server and the transport and acknowledges chunks
itself as long as few are under way to the client. It counts what the client has not acknowledged:
while the window is not full the acknowledgements of the client are swallowed, and the one that
makes a full window smaller than its limits is passed on, for the chunk that has filled it.

A chunk may be acknowledged by the client before the transport has returned from sending it.
-/

namespace Awen.Terminal

variable {κ : Type} [DecidableEq κ]

/-! ## The window -/

def maxPendingChunks : ℕ := 8

def maxPendingBytes : ℕ := 64 * 1024

def isFull (sizes : List ℕ) : Bool :=
  decide (maxPendingChunks ≤ sizes.length) || decide (maxPendingBytes ≤ sizes.sum)

/-- The sizes of the chunks under way, for each request of a client. -/
abbrev OutputWindows (κ : Type) := OrderedMap κ (List ℕ)

namespace OutputWindows

variable (windows : OutputWindows κ) (key : κ)

/-- The request of a terminal stream. -/
def request : OutputWindows κ := if windows.has key then windows else windows.set key []

/-- An acknowledgement of the client, and whether it is passed on. -/
def receiveAck : Bool × OutputWindows κ :=
  match windows.get key with
  | none => (true, windows)
  | some window => (isFull window && !isFull window.tail, windows.set key window.tail)

/-- A chunk of the server, and whether the window acknowledges it once it is sent. -/
def sendChunk (size : ℕ) : Bool × OutputWindows κ :=
  match windows.get key with
  | none => (false, windows)
  | some window => (!isFull (window ++ [size]), windows.set key (window ++ [size]))

/-- The end of a request. -/
def sendExit : OutputWindows κ := windows.delete key

end OutputWindows

/-! ## Runs -/

/-- A request as the server and the client see it. -/
structure OutputStream where
  requested : Bool := false
  exited : Bool := false
  /-- How many chunks the server has sent, and how many acknowledgements it has received. -/
  sent : ℕ := 0
  serverAcks : ℕ := 0
  /-- No acknowledgement has come since the last chunk. -/
  waiting : Bool := false
  /-- The transport has not returned from sending the last chunk. -/
  sending : Bool := false
  /-- The window acknowledges the last chunk when the transport returns. -/
  owed : Bool := false
  /-- The sizes of the chunks sent and not acknowledged by the client. -/
  unacked : List ℕ := []

/-- The server receives an acknowledgement. -/
def OutputStream.acknowledged (stream : OutputStream) : OutputStream :=
  { stream with serverAcks := stream.serverAcks + 1, waiting := false }

structure OutputProtocol (κ : Type) where
  windows : OutputWindows κ := .empty
  streams : κ → OutputStream := fun _ ↦ {}

inductive OutputStep (κ : Type) where
  | request (key : κ)
  | chunk (key : κ) (size : ℕ)
  | sendReturned (key : κ)
  | clientAck (key : κ)
  | duplicateAck (key : κ)
  | exit (key : κ)

namespace OutputProtocol

def next (s : OutputProtocol κ) : OutputStep κ → OutputProtocol κ
  | .request key =>
    { windows := s.windows.request key
      streams := Function.update s.streams key { s.streams key with requested := true } }
  | .chunk key size =>
    let (owed, windows) := s.windows.sendChunk key size
    let stream := s.streams key
    { windows
      streams := Function.update s.streams key { stream with
        sent := stream.sent + 1
        waiting := true
        sending := true
        owed
        unacked := stream.unacked ++ [size] } }
  | .sendReturned key =>
    let stream := s.streams key
    let returned := { stream with sending := false, owed := false }
    { s with
      streams := Function.update s.streams key
        (if stream.owed then returned.acknowledged else returned) }
  | .clientAck key =>
    let (forwarded, windows) := s.windows.receiveAck key
    let stream := { s.streams key with unacked := (s.streams key).unacked.tail }
    { windows
      streams := Function.update s.streams key
        (if forwarded then stream.acknowledged else stream) }
  | .duplicateAck key =>
    let (forwarded, windows) := s.windows.receiveAck key
    { windows
      streams := Function.update s.streams key
        (if forwarded then (s.streams key).acknowledged else s.streams key) }
  | .exit key =>
    { windows := s.windows.sendExit key
      streams := Function.update s.streams key
        { s.streams key with exited := true, sending := false, owed := false } }

/-- When the two ends can do a step: a request has its own id; the server sends a chunk when the
last one is sent and acknowledged; the client acknowledges what it has been sent, and again only
what it has acknowledged as a whole. -/
def Enabled (s : OutputProtocol κ) : OutputStep κ → Prop
  | .request key => (s.streams key).requested = false
  | .chunk key _ => (s.streams key).requested = true ∧ (s.streams key).exited = false ∧
    (s.streams key).waiting = false ∧ (s.streams key).sending = false
  | .sendReturned key => (s.streams key).sending = true
  | .clientAck key => (s.streams key).unacked ≠ []
  | .duplicateAck key => (s.streams key).requested = true ∧ (s.streams key).unacked = []
  | .exit key => (s.streams key).requested = true ∧ (s.streams key).exited = false

instance (s : OutputProtocol κ) : (step : OutputStep κ) → Decidable (s.Enabled step)
  | .request _ => inferInstanceAs (Decidable (_ = _))
  | .chunk .. => inferInstanceAs (Decidable (_ ∧ _))
  | .sendReturned _ => inferInstanceAs (Decidable (_ = _))
  | .clientAck _ => inferInstanceAs (Decidable (_ ≠ _))
  | .duplicateAck _ => inferInstanceAs (Decidable (_ ∧ _))
  | .exit _ => inferInstanceAs (Decidable (_ ∧ _))

def run (steps : List (OutputStep κ)) : OutputProtocol κ := steps.foldl next {}

end OutputProtocol

/-- **Bounded**: few chunks are under way, and all but the last of them are small. -/
def OutputStream.Bounded (stream : OutputStream) : Prop :=
  stream.unacked.length ≤ maxPendingChunks ∧ stream.unacked.dropLast.sum < maxPendingBytes

/-- The server has received at most one acknowledgement for each chunk. -/
def OutputStream.AckedOnce (stream : OutputStream) : Prop := stream.serverAcks ≤ stream.sent

/-- **Never stalled**: when the client has acknowledged everything, so has the window. -/
def OutputStream.NeverStalled (stream : OutputStream) : Prop :=
  stream.unacked = [] → stream.serverAcks = stream.sent

/-- **What the window keeps of a request**: few chunks are under way; and until the server ends the
request it has received at most one acknowledgement for each chunk, and one for each of them when
the client has acknowledged everything and the transport has returned. -/
structure OutputStream.Served (stream : OutputStream) : Prop where
  bounded : stream.Bounded
  ackedOnce : stream.exited = false → stream.AckedOnce
  neverStalled : stream.exited = false → stream.sending = false → stream.NeverStalled

instance (stream : OutputStream) : Decidable stream.AckedOnce := inferInstanceAs (Decidable (_ ≤ _))

instance (stream : OutputStream) : Decidable stream.NeverStalled :=
  inferInstanceAs (Decidable (_ → _))

/-- The request that a step is about. -/
def OutputStep.key : OutputStep κ → κ
  | request key | chunk key _ | sendReturned key
  | clientAck key | duplicateAck key | exit key => key

/-! ## The invariant -/

theorem isFull_eq_false {sizes : List ℕ} :
    isFull sizes = false ↔ sizes.length < maxPendingChunks ∧ sizes.sum < maxPendingBytes := by
  rw [isFull, Bool.or_eq_false_iff, decide_eq_false_iff_not, decide_eq_false_iff_not, Nat.not_le,
    Nat.not_le]

/-- Fewer chunks are not full either. -/
theorem isFull_of_sublist {fewer sizes : List ℕ} (hsub : fewer.Sublist sizes)
    (h : isFull sizes = false) : isFull fewer = false := by
  obtain ⟨hlength, hsum⟩ := isFull_eq_false.mp h
  exact isFull_eq_false.mpr ⟨hsub.length_le.trans_lt hlength,
    (hsub.sum_le_sum fun _ _ ↦ Nat.zero_le _).trans_lt hsum⟩

namespace OutputStream

/-- **The invariant of a request that goes on.** The server waits for an acknowledgement exactly
while the window is full or owes it one. -/
structure Balanced (stream : OutputStream) : Prop where
  acks : stream.serverAcks + (if stream.waiting then 1 else 0) = stream.sent
  sending : stream.owed = true → stream.sending = true
  waiting : stream.waiting = (stream.owed || isFull stream.unacked)
  owed : stream.owed = true → isFull stream.unacked = false

variable {stream : OutputStream}

theorem bounded_of_isFull (h : isFull stream.unacked.dropLast = false) : stream.Bounded := by
  obtain ⟨hlength, hsum⟩ := isFull_eq_false.mp h
  rw [List.length_dropLast] at hlength
  exact ⟨by omega, hsum⟩

theorem Balanced.ackedOnce (h : stream.Balanced) : stream.AckedOnce := by
  have hacks := h.acks
  rw [AckedOnce]
  omega

/-- The last acknowledgement comes when the transport returns. -/
theorem Balanced.neverStalled (h : stream.Balanced) (hsending : stream.sending = false) :
    stream.NeverStalled := by
  intro hnil
  have howed : stream.owed = false := by
    by_contra howed
    rw [Bool.not_eq_false] at howed
    exact absurd (hsending.symm.trans (h.sending howed)) nofun
  have hwaiting : stream.waiting = false := by
    rw [h.waiting, howed, hnil]
    rfl
  have hacks := h.acks
  rw [hwaiting] at hacks
  exact hacks

/-- An acknowledgement that ends the waiting. -/
theorem Balanced.acknowledged (h : stream.Balanced) (hwaiting : stream.waiting = true)
    {stream' : OutputStream} (hsent : stream'.sent = stream.sent)
    (hacks : stream'.serverAcks = stream.serverAcks) (howed : stream'.owed = false)
    (hfull : isFull stream'.unacked = false) : stream'.acknowledged.Balanced where
  acks := by
    have hbalance := h.acks
    rw [hwaiting] at hbalance
    simpa [OutputStream.acknowledged, hsent, hacks] using hbalance
  sending := by
    rw [OutputStream.acknowledged, howed]
    exact nofun
  waiting := by
    rw [OutputStream.acknowledged]
    simp [howed, hfull]
  owed := by
    rw [OutputStream.acknowledged, howed]
    exact nofun

end OutputStream

namespace OutputProtocol

/-- **The invariant of a request.** While it goes on its window has what the client has not
acknowledged. -/
structure Inv (s : OutputProtocol κ) (key : κ) : Prop where
  bounded : isFull (s.streams key).unacked.dropLast = false
  window : (s.streams key).exited = false →
    s.windows.get key = if (s.streams key).requested then some (s.streams key).unacked else none
  balanced : (s.streams key).exited = false → (s.streams key).Balanced
  fresh : (s.streams key).requested = false → s.streams key = {}

theorem inv_init (key : κ) : ({} : OutputProtocol κ).Inv key where
  bounded := rfl
  window _ := rfl
  balanced _ := ⟨rfl, nofun, rfl, nofun⟩
  fresh _ := rfl

variable {s : OutputProtocol κ} {key : κ}

/-- Another request is left alone. -/
theorem Inv.of_eq (h : s.Inv key) {s' : OutputProtocol κ}
    (hstream : s'.streams key = s.streams key) (hwindow : s'.windows.get key = s.windows.get key) :
    s'.Inv key where
  bounded := hstream ▸ h.bounded
  window := by
    rw [hstream, hwindow]
    exact h.window
  balanced := hstream ▸ h.balanced
  fresh := hstream ▸ h.fresh

theorem Inv.requested (h : s.Inv key) (hne : s.streams key ≠ {}) :
    (s.streams key).requested = true := by
  by_contra hrequested
  exact hne (h.fresh (Bool.eq_false_iff.mpr hrequested))

/-- The window of a request that goes on. -/
theorem Inv.get_window (h : s.Inv key) (hrequested : (s.streams key).requested = true)
    (hexited : (s.streams key).exited = false) :
    s.windows.get key = some (s.streams key).unacked := by
  rw [h.window hexited, if_pos hrequested]

/-- The invariant after a step on a request whose stream has become another one. -/
theorem inv_update {stream : OutputStream} {windows : OutputWindows κ}
    (hrequested : stream.requested = true) (hbounded : isFull stream.unacked.dropLast = false)
    (hwindow : stream.exited = false → windows.get key = some stream.unacked)
    (hbalanced : stream.exited = false → stream.Balanced) :
    Inv ⟨windows, Function.update s.streams key stream⟩ key := by
  have hself : (OutputProtocol.mk windows (Function.update s.streams key stream)).streams key =
      stream := Function.update_self ..
  refine ⟨?_, ?_, ?_, ?_⟩
  · rwa [hself]
  · rwa [hself, if_pos hrequested]
  · rwa [hself]
  · rw [hself, hrequested]
    exact nofun

theorem Inv.request (h : s.Inv key) (henabled : s.Enabled (.request key)) :
    (s.next (.request key)).Inv key := by
  have hstream : s.streams key = {} := h.fresh henabled
  have hget : s.windows.get key = none := by
    rw [h.window (hstream ▸ rfl), hstream]
    rfl
  refine inv_update rfl h.bounded (fun _ ↦ ?_) fun _ ↦ ?_
  · have hhas : ¬s.windows.has key = true := by
      rw [OrderedMap.has_eq_isSome_get, hget]
      exact Bool.false_ne_true
    rw [OutputWindows.request, if_neg hhas, OrderedMap.get_set_self, hstream]
  · rw [hstream]
    exact ⟨rfl, nofun, rfl, nofun⟩

theorem Inv.chunk (h : s.Inv key) {size : ℕ} (henabled : s.Enabled (.chunk key size)) :
    (s.next (.chunk key size)).Inv key := by
  obtain ⟨hrequested, hexited, hwaiting, -⟩ := henabled
  have hget := h.get_window hrequested hexited
  have hbalanced := h.balanced hexited
  have hfull : isFull (s.streams key).unacked = false :=
    (Bool.or_eq_false_iff.mp (hbalanced.waiting.symm.trans hwaiting)).2
  rw [next, OutputWindows.sendChunk, hget]
  refine inv_update hrequested ?_ (fun _ ↦ OrderedMap.get_set_self ..) fun _ ↦ ?_
  · rwa [List.dropLast_concat]
  · have hacks := hbalanced.acks
    rw [hwaiting] at hacks
    refine ⟨?_, fun _ ↦ rfl, ?_, fun howed ↦ ?_⟩
    · simpa using hacks
    · simp
    · simpa using howed

theorem Inv.sendReturned (h : s.Inv key) (henabled : s.Enabled (.sendReturned key)) :
    (s.next (.sendReturned key)).Inv key := by
  have hsending : (s.streams key).sending = true := henabled
  have hrequested := h.requested fun heq ↦ by
    rw [heq] at hsending
    exact nomatch hsending
  rw [next]
  split
  next howed =>
    refine inv_update hrequested h.bounded (h.get_window hrequested) fun hexited ↦ ?_
    have hbalanced := h.balanced hexited
    exact hbalanced.acknowledged (by rw [hbalanced.waiting, howed]; rfl) rfl rfl rfl
      (hbalanced.owed howed)
  next howed =>
    refine inv_update hrequested h.bounded (h.get_window hrequested) fun hexited ↦ ?_
    have hbalanced := h.balanced hexited
    refine ⟨hbalanced.acks, nofun, ?_, nofun⟩
    rw [hbalanced.waiting, Bool.eq_false_iff.mpr howed]

theorem Inv.clientAck (h : s.Inv key) (henabled : s.Enabled (.clientAck key)) :
    (s.next (.clientAck key)).Inv key := by
  have hne : (s.streams key).unacked ≠ [] := henabled
  have hrequested := h.requested fun heq ↦ hne (by rw [heq])
  have hbounded : isFull (s.streams key).unacked.tail.dropLast = false := by
    rw [← List.tail_dropLast]
    exact isFull_of_sublist (List.tail_sublist _) h.bounded
  rw [next]
  dsimp only
  cases hexited : (s.streams key).exited with
  | true =>
    split
    · exact inv_update hrequested hbounded nofun nofun
    · exact inv_update hrequested hbounded nofun nofun
  | false =>
    have hbalanced := h.balanced hexited
    rw [OutputWindows.receiveAck, h.get_window hrequested hexited]
    dsimp only
    split
    next hforwarded =>
      -- the window was full, for the chunk that the server waits for
      obtain ⟨hfull, htail⟩ := Bool.and_eq_true_iff.mp hforwarded
      refine inv_update hrequested hbounded (fun _ ↦ OrderedMap.get_set_self ..) fun _ ↦ ?_
      refine hbalanced.acknowledged ?_ rfl rfl ?_ (by simpa using htail)
      · rw [hbalanced.waiting, hfull, Bool.or_true]
      · by_contra howed
        rw [Bool.not_eq_false] at howed
        exact absurd (hfull.symm.trans (hbalanced.owed howed)) nofun
    next hswallowed =>
      refine inv_update hrequested hbounded (fun _ ↦ OrderedMap.get_set_self ..) fun _ ↦ ?_
      have hsame : isFull (s.streams key).unacked.tail = isFull (s.streams key).unacked := by
        cases hfull : isFull (s.streams key).unacked with
        | false => exact isFull_of_sublist (List.tail_sublist _) hfull
        | true => simpa [hfull] using hswallowed
      refine ⟨hbalanced.acks, hbalanced.sending, ?_, fun howed ↦ ?_⟩
      · rw [hsame]
        exact hbalanced.waiting
      · rw [hsame]
        exact hbalanced.owed howed

theorem Inv.duplicateAck (h : s.Inv key) (henabled : s.Enabled (.duplicateAck key)) :
    (s.next (.duplicateAck key)).Inv key := by
  obtain ⟨hrequested, hnil⟩ := henabled
  rw [next]
  dsimp only
  cases hexited : (s.streams key).exited with
  | true =>
    have hgone : (s.streams key).exited ≠ false := by rw [hexited]; exact nofun
    split
    · exact inv_update hrequested h.bounded (absurd · hgone) (absurd · hgone)
    · exact inv_update hrequested h.bounded (absurd · hgone) (absurd · hgone)
  | false =>
    have hreceive : s.windows.receiveAck key = (false, s.windows.set key []) := by
      rw [OutputWindows.receiveAck, h.get_window hrequested hexited, hnil]
      rfl
    rw [hreceive]
    refine inv_update hrequested h.bounded (fun _ ↦ ?_) h.balanced
    exact (OrderedMap.get_set_self ..).trans (congrArg some hnil.symm)

theorem Inv.exit (h : s.Inv key) (henabled : s.Enabled (.exit key)) :
    (s.next (.exit key)).Inv key :=
  inv_update henabled.1 h.bounded nofun nofun

theorem streams_next_of_ne {step : OutputStep κ} (hne : step.key ≠ key) :
    (s.next step).streams key = s.streams key := by
  cases step <;> exact Function.update_of_ne (Ne.symm hne) ..

theorem get_receiveAck_of_ne {windows : OutputWindows κ} {other : κ} (hne : other ≠ key) :
    (windows.receiveAck other).2.get key = windows.get key := by
  rw [OutputWindows.receiveAck]
  split
  · rfl
  · exact OrderedMap.get_set_of_ne hne.symm

theorem get_next_of_ne {step : OutputStep κ} (hne : step.key ≠ key) :
    (s.next step).windows.get key = s.windows.get key := by
  cases step with
  | request other =>
    change (s.windows.request other).get key = _
    rw [OutputWindows.request]
    split
    · rfl
    · exact OrderedMap.get_set_of_ne (Ne.symm hne)
  | chunk other size =>
    change (s.windows.sendChunk other size).2.get key = _
    rw [OutputWindows.sendChunk]
    split
    · rfl
    · exact OrderedMap.get_set_of_ne (Ne.symm hne)
  | sendReturned other => rfl
  | clientAck other => exact get_receiveAck_of_ne hne
  | duplicateAck other => exact get_receiveAck_of_ne hne
  | exit other => exact OrderedMap.get_delete_of_ne (Ne.symm hne)

/-- **A step keeps the invariant.** -/
theorem Inv.next (h : s.Inv key) {step : OutputStep κ} (henabled : s.Enabled step) :
    (s.next step).Inv key := by
  by_cases hkey : step.key = key
  · subst hkey
    cases step with
    | request => exact h.request henabled
    | chunk => exact h.chunk henabled
    | sendReturned => exact h.sendReturned henabled
    | clientAck => exact h.clientAck henabled
    | duplicateAck => exact h.duplicateAck henabled
    | exit => exact h.exit henabled
  · exact h.of_eq (streams_next_of_ne hkey) (get_next_of_ne hkey)

/-- **The invariant of a run.** -/
theorem inv_run {steps : List (OutputStep κ)} (h : EveryStep OutputProtocol.next Enabled {} steps)
    (key : κ) : (run steps).Inv key :=
  h.foldl_invariant (P := fun s ↦ s.Inv key) (fun _ _ hs henabled ↦ hs.next henabled) (inv_init key)

/-- **The window is bounded and never stalls**, in any run and on any request. -/
theorem served_run {steps : List (OutputStep κ)}
    (h : EveryStep OutputProtocol.next Enabled {} steps) (key : κ) :
    ((run steps).streams key).Served where
  bounded := OutputStream.bounded_of_isFull (inv_run h key).bounded
  ackedOnce hexited := ((inv_run h key).balanced hexited).ackedOnce
  neverStalled hexited := ((inv_run h key).balanced hexited).neverStalled

/-- A window that two large chunks fill, one after the other. -/
theorem served_run_large : ((run [.request 0, .chunk 0 65536, .sendReturned 0, .clientAck 0,
    .duplicateAck 0, .chunk 0 70000, .sendReturned 0]).streams 0).Served :=
  served_run (by decide) 0

/-- **Acknowledgements that come late are passed on**: after the end of a request the server
receives a second acknowledgement for a chunk. And a client may have acknowledged a chunk before the
window has. -/
theorem not_ackedOnce_exited :
    (EveryStep OutputProtocol.next Enabled {}
        [.request 0, .chunk 0 1, .sendReturned 0, .exit 0, .clientAck 0] ∧
      ¬((run [.request 0, .chunk 0 1, .sendReturned 0, .exit 0, .clientAck 0]).streams 0).AckedOnce) ∧
    EveryStep OutputProtocol.next Enabled {} [.request 0, .chunk 0 1, .clientAck 0] ∧
      ¬((run [.request 0, .chunk 0 1, .clientAck 0]).streams 0).NeverStalled := by
  decide

end OutputProtocol

end Awen.Terminal
