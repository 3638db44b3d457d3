import Mathlib.Data.List.Basic

/-!
# The supervisor of a connection

The supervisor keeps a connection to an environment as its user wants it. What is wanted is the
intent; calls and the outside world change it and put a signal into a queue. The run loop reads the
intent at the top of each iteration and after a connection has been established, and otherwise
learns of changes by the signals it takes, in five places where it waits. A `SupervisorStep` is a
call, something that happens outside, or one step of the loop between two of its reads.

Where the loop races what it waits for against the queue, both may complete. Then the signal that
the losing branch took is gone; `lost` says so.
-/

namespace Awen.Connection

/-! ## What the supervisor shows -/

inductive NetworkStatus
  | unknown
  | offline
  | online
  deriving DecidableEq

inductive ConnectionTransientReason
  | network
  | timeout
  | transport
  | endpointUnavailable
  | remoteUnavailable
  deriving DecidableEq

inductive ConnectionAttemptError
  | transient (reason : ConnectionTransientReason) (detail : String)
  | blocked (detail : String)
  deriving DecidableEq

def ConnectionAttemptError.isBlocked : ConnectionAttemptError → Bool
  | blocked _ => true
  | transient .. => false

inductive SupervisorConnectionPhase
  | available
  | offline
  | connecting
  | connected
  | backoff
  | blocked
  deriving DecidableEq

inductive ConnectionAttemptStage
  | preparing
  | opening
  | synchronizing
  deriving DecidableEq

structure SupervisorConnectionState where
  desired : Bool
  network : NetworkStatus
  phase : SupervisorConnectionPhase
  stage : Option ConnectionAttemptStage := none
  attempt : ℕ
  generation : ℕ
  lastFailure : Option ConnectionAttemptError
  retryAt : Option ℕ := none
  deriving DecidableEq

structure SupervisorIntent where
  desired : Bool
  network : NetworkStatus
  deriving DecidableEq

/-- Whether the intent asks for a connection now. -/
def SupervisorIntent.wanted (intent : SupervisorIntent) : Bool :=
  intent.desired && intent.network != .offline

def availableState (intent : SupervisorIntent) (generation : ℕ) : SupervisorConnectionState where
  desired := false
  network := intent.network
  phase := .available
  attempt := 0
  generation
  lastFailure := none

def offlineState (intent : SupervisorIntent) (generation attempt : ℕ)
    (lastFailure : Option ConnectionAttemptError) : SupervisorConnectionState where
  desired := true
  network := intent.network
  phase := .offline
  attempt
  generation
  lastFailure

def connectingState (intent : SupervisorIntent) (generation attempt : ℕ)
    (lastFailure : Option ConnectionAttemptError)
    (stage : ConnectionAttemptStage := .preparing) : SupervisorConnectionState where
  desired := true
  network := intent.network
  phase := .connecting
  stage := some stage
  attempt
  generation
  lastFailure

/-! ## Signals -/

inductive ConnectionWakeup
  | applicationActive
  | applicationActiveProbe
  | applicationActiveReconnect
  deriving DecidableEq

def isApplicationActiveWakeup : ConnectionWakeup → Bool
  | .applicationActive | .applicationActiveProbe | .applicationActiveReconnect => true

inductive SupervisorSignal
  | connectRequested
  | disconnectRequested
  | retryRequested
  | networkChanged (network : NetworkStatus)
  | wakeup (reason : ConnectionWakeup)
  deriving DecidableEq

/-- The signals that interrupt an establishment and end a lease, each with whether it resets the
retries. -/
def SupervisorSignal.interrupts : SupervisorSignal → Option Bool
  | disconnectRequested | retryRequested | networkChanged .offline => some false
  | wakeup .applicationActiveReconnect => some true
  | _ => none

/-- Whether a connected lease is probed on a signal. -/
def SupervisorSignal.probes : SupervisorSignal → Bool
  | wakeup .applicationActive | wakeup .applicationActiveProbe => true
  | _ => false

/-- Whether a signal says that the application came to the foreground. -/
def SupervisorSignal.activates : SupervisorSignal → Bool
  | wakeup reason => isApplicationActiveWakeup reason
  | _ => false

/-! ## The run loop -/

/-- Where the loop waits for any signal at all. -/
inductive IdleWait
  | available
  | offline
  | blocked
  deriving DecidableEq

/-- The end of an attempt. -/
inductive AttemptOutcome
  | interrupted (established stable resetRetry : Bool)
  | failure (established stable : Bool) (error : ConnectionAttemptError)
  deriving DecidableEq

def AttemptOutcome.established : AttemptOutcome → Bool
  | interrupted established _ _ | failure established _ _ => established

def AttemptOutcome.stable : AttemptOutcome → Bool
  | interrupted _ stable _ | failure _ stable _ => stable

/-- What a driver hands out: the prepared connection and the session. -/
structure EnvironmentConnectionLease (Session Prepared : Type) where
  prepared : Prepared
  session : Session

variable {Session Prepared : Type}

/-- Where the run loop is. -/
inductive LoopPosition (Session Prepared : Type)
  /-- The top of an iteration. -/
  | top
  /-- The loop is about to read the intent. -/
  | decide
  | idle (wait : IdleWait)
  | establishing (attempt generation : ℕ)
  /-- The establishment has completed, and the loop is about to read the intent again. -/
  | established (attempt generation : ℕ) (lease : EnvironmentConnectionLease Session Prepared)
  | monitoring (attempt generation : ℕ)
  | probing (attempt generation : ℕ)
  | ended (attempt generation : ℕ) (outcome : AttemptOutcome)
  | backoff

/-- Whether the loop waits. -/
def LoopPosition.isWaiting : LoopPosition Session Prepared → Bool
  | idle _ | establishing .. | monitoring .. | probing .. | backoff => true
  | top | decide | established .. | ended .. => false

/-- **The supervisor**: what it shares with its callers, and its run loop with the loop's variables.
`published` are the states it has shown, the newest last. -/
structure Supervisor (Session Prepared : Type) where
  intent : SupervisorIntent
  signals : List SupervisorSignal := []
  resetRetryState : Bool := false
  wakeProbeFailed : Bool := false
  state : SupervisorConnectionState
  published : List SupervisorConnectionState
  session : Option Session := none
  prepared : Option Prepared := none
  position : LoopPosition Session Prepared := .top
  failureCount : ℕ := 0
  generation : ℕ := 0
  latestFailure : Option ConnectionAttemptError := none

/-- What can happen next. -/
inductive SupervisorStep (Session Prepared : Type)
  | connect
  | disconnect
  | retryNow
  | networkChanged (network : NetworkStatus)
  | wakeup (reason : ConnectionWakeup)
  /-- The loop goes on where it does not wait. -/
  | advance (now : ℕ)
  /-- The loop takes a signal where it waits. `stable` says whether a lease that this ends was
  connected for long. -/
  | takeSignal (stable : Bool)
  | progress (stage : ConnectionAttemptStage) (prepared : Option Prepared)
  | establishmentCompleted (lease : EnvironmentConnectionLease Session Prepared) (lost : Bool)
  | establishmentFailed (error : ConnectionAttemptError) (lost : Bool)
  | establishmentTimedOut (lost : Bool)
  | sessionClosed (error : ConnectionAttemptError) (stable lost : Bool)
  | probeSucceeded (lost : Bool)
  /-- The probe failed or timed out. -/
  | probeFailed (error : ConnectionAttemptError) (stable lost : Bool)
  | delayElapsed (lost : Bool)

def retryDelaysMs : List ℕ := [3000, 4000, 8000, 16000]

def retryDelayMs (failureCount : ℕ) : ℕ :=
  (retryDelaysMs[min failureCount (retryDelaysMs.length - 1)]?).getD 16000

namespace Supervisor

/-- The supervisor when it is made. -/
def start (Session Prepared : Type) (initialIntent : SupervisorIntent) :
    Supervisor Session Prepared :=
  let state :=
    if initialIntent.desired = false then availableState initialIntent 0
    else if initialIntent.network = .offline then offlineState initialIntent 0 0 none
    else connectingState initialIntent 0 1 none
  { intent := initialIntent, state, published := [state] }

def signal (s : Supervisor Session Prepared) (next : SupervisorSignal) :
    Supervisor Session Prepared :=
  { s with signals := s.signals ++ [next] }

def setState (s : Supervisor Session Prepared) (next : SupervisorConnectionState) :
    Supervisor Session Prepared :=
  { s with state := next, published := s.published ++ [next] }

def clearLease (s : Supervisor Session Prepared) : Supervisor Session Prepared :=
  { s with session := none, prepared := none }

/-- The signal that a losing branch took is gone. -/
def lose (s : Supervisor Session Prepared) (lost : Bool) : Supervisor Session Prepared :=
  if lost then { s with signals := s.signals.tail } else s

/-- The end of `runAttempt`. -/
def endAttempt (s : Supervisor Session Prepared) (attempt generation : ℕ)
    (outcome : AttemptOutcome) : Supervisor Session Prepared :=
  { s.clearLease with position := .ended attempt generation outcome }

def resetRetryLadder (s : Supervisor Session Prepared) : Supervisor Session Prepared :=
  { s with failureCount := 0 }

/-- The loop reads the intent and waits, or begins an attempt. -/
def decide (s : Supervisor Session Prepared) : Supervisor Session Prepared :=
  if s.intent.desired = false then
    { (s.resetRetryLadder.clearLease.setState (availableState s.intent s.generation)) with
      latestFailure := none
      position := .idle .available }
  else if s.intent.network = .offline then
    { (s.clearLease.setState
        (offlineState s.intent s.generation (s.failureCount + 1) s.latestFailure)) with
      position := .idle .offline }
  else
    { s with
      prepared := none
      position := .establishing (s.failureCount + 1) (s.generation + 1) }

/-- The establishment has completed: the lease is kept if a connection is still wanted. -/
def established (s : Supervisor Session Prepared) (attempt generation : ℕ)
    (lease : EnvironmentConnectionLease Session Prepared) : Supervisor Session Prepared :=
  if s.intent.wanted = false then
    s.endAttempt attempt generation (.interrupted false false false)
  else
    { (s.setState
        { desired := true
          network := s.intent.network
          phase := .connected
          attempt
          generation
          lastFailure := none }) with
      prepared := some lease.prepared
      session := some lease.session
      position := .monitoring attempt generation }

/-- What the loop makes of a failed attempt. -/
def afterFailure (s : Supervisor Session Prepared) (now attempt : ℕ) (failedWakeProbe : Bool)
    (error : ConnectionAttemptError) : Supervisor Session Prepared :=
  let s := { s with latestFailure := some error }
  if error.isBlocked then
    { (s.setState
        { desired := s.intent.desired
          network := s.intent.network
          phase := .blocked
          attempt
          generation := s.generation
          lastFailure := some error }) with
      position := .idle .blocked }
  else if failedWakeProbe then
    -- the user is returning to the application, so the first delay is skipped
    { (s.resetRetryLadder.setState (connectingState s.intent s.generation 1 (some error))) with
      position := .top }
  else
    { (s.setState
        { desired := s.intent.desired
          network := s.intent.network
          phase := .backoff
          attempt
          generation := s.generation
          lastFailure := some error
          retryAt := some (now + retryDelayMs s.failureCount) }) with
      failureCount := s.failureCount + 1
      position := .backoff }

/-- What the loop makes of the end of an attempt. -/
def ended (s : Supervisor Session Prepared) (now attempt nextGeneration : ℕ)
    (outcome : AttemptOutcome) : Supervisor Session Prepared :=
  let failedWakeProbe := s.wakeProbeFailed
  let s := { s with wakeProbeFailed := false }
  let s := if outcome.established then { s with generation := nextGeneration } else s
  let s := if outcome.established ∧ outcome.stable then
    { s.resetRetryLadder with latestFailure := none } else s
  match outcome with
  | .interrupted _ _ resetRetry =>
    { (if resetRetry then s.resetRetryLadder else s) with position := .top }
  | .failure _ _ error => s.afterFailure now attempt failedWakeProbe error

def advance (s : Supervisor Session Prepared) (now : ℕ) : Supervisor Session Prepared :=
  match s.position with
  | .top =>
    if s.resetRetryState then
      { s with
        resetRetryState := false
        failureCount := 0
        latestFailure := none
        position := .decide }
    else { s with position := .decide }
  | .decide => s.decide
  | .established attempt generation lease => s.established attempt generation lease
  | .ended attempt generation outcome => s.ended now attempt generation outcome
  | _ => s

/-- The loop has taken a signal where it waits. -/
def take (s : Supervisor Session Prepared) (stable : Bool) (next : SupervisorSignal) :
    Supervisor Session Prepared :=
  match s.position with
  | .idle .available => { s with position := .top }
  | .idle .offline | .idle .blocked | .backoff =>
    { (if next.activates then s.resetRetryLadder else s) with position := .top }
  | .establishing attempt generation =>
    match next.interrupts with
    | some resetRetry => s.endAttempt attempt generation (.interrupted false false resetRetry)
    | none => s
  | .monitoring attempt generation =>
    match next.interrupts with
    | some resetRetry => s.endAttempt attempt generation (.interrupted true stable resetRetry)
    | none => if next.probes then { s with position := .probing attempt generation } else s
  | .probing attempt generation =>
    match next.interrupts with
    | some resetRetry => s.endAttempt attempt generation (.interrupted true stable resetRetry)
    | none => s
  | _ => s

def takeSignal (s : Supervisor Session Prepared) (stable : Bool) : Supervisor Session Prepared :=
  match s.position.isWaiting, s.signals with
  | true, next :: rest => { s with signals := rest }.take stable next
  | _, _ => s

/-- A failed establishment. -/
def establishmentFailed (s : Supervisor Session Prepared) (error : ConnectionAttemptError)
    (lost : Bool) : Supervisor Session Prepared :=
  match s.position with
  | .establishing attempt generation =>
    (s.lose lost).endAttempt attempt generation (.failure false false error)
  | _ => s

/-- A failed lease. -/
def leaseFailed (s : Supervisor Session Prepared) (error : ConnectionAttemptError)
    (stable lost : Bool) : Supervisor Session Prepared :=
  match s.position with
  | .monitoring attempt generation | .probing attempt generation =>
    (s.lose lost).endAttempt attempt generation (.failure true stable error)
  | _ => s

/-- **One step of the supervisor.** `label` is the name of its target. -/
def step (label : String) (s : Supervisor Session Prepared) :
    SupervisorStep Session Prepared → Supervisor Session Prepared
  | .connect => { s with intent := { s.intent with desired := true } }.signal .connectRequested
  | .disconnect =>
    { s with intent := { s.intent with desired := false } }.signal .disconnectRequested
  | .retryNow => { s with resetRetryState := true }.signal .retryRequested
  | .networkChanged network =>
    if s.intent.network = network then s
    else { s with intent := { s.intent with network } }.signal (.networkChanged network)
  | .wakeup reason => s.signal (.wakeup reason)
  | .advance now => s.advance now
  | .takeSignal stable => s.takeSignal stable
  | .progress stage prepared =>
    match s.position with
    | .establishing attempt generation =>
      { s with prepared := prepared.or s.prepared }.setState
        (connectingState s.intent generation attempt s.latestFailure stage)
    | _ => s
  | .establishmentCompleted lease lost =>
    match s.position with
    | .establishing attempt generation =>
      { (s.lose lost) with position := .established attempt generation lease }
    | _ => s
  | .establishmentFailed error lost => s.establishmentFailed error lost
  | .establishmentTimedOut lost =>
    s.establishmentFailed
      (.transient .timeout (label ++ " did not respond during connection setup.")) lost
  | .sessionClosed error stable lost => s.leaseFailed error stable lost
  | .probeSucceeded lost =>
    match s.position with
    | .probing attempt generation =>
      { (s.lose lost) with position := .monitoring attempt generation }
    | _ => s
  | .probeFailed error stable lost =>
    match s.position with
    | .probing .. => { s with wakeProbeFailed := true }.leaseFailed error stable lost
    | _ => s
  | .delayElapsed lost =>
    match s.position with
    | .backoff => { (s.lose lost) with position := .top }
    | _ => s

/-- The supervisor after some steps. -/
def after (label : String) (s : Supervisor Session Prepared)
    (steps : List (SupervisorStep Session Prepared)) : Supervisor Session Prepared :=
  steps.foldl (step label) s

end Supervisor

end Awen.Connection
