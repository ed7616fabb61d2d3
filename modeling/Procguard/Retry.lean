import Procguard.Monitor

/- `run_with_retry`: run the command, run it again on a timeout after a delay that
   may back off, and keep a log of the attempts in a fixed-size array. The delay
   (`kqueue_delay`) is cut short by a byte in the signal pipe. -/
namespace Procguard
open Interact

inductive AttemptStatus where
  | completed | timeout | signalForwarded
  deriving DecidableEq, Repr

def AttemptStatus.text : AttemptStatus → String
  | .completed => "completed"
  | .timeout => "timeout"
  | .signalForwarded => "signal_forwarded"

structure AttemptResult where
  status : AttemptStatus
  exitCode : Option Int
  elapsedMs : Nat
  deriving DecidableEq, Repr

def maxRetries : Nat := 32

/-- The fixed-size array of attempt results, by its filled part. -/
structure Attempts where
  data : List AttemptResult := []
  len_le : data.length ≤ maxRetries := by decide

/-- A push onto a full array is dropped. -/
def Attempts.push (a : Attempts) (item : AttemptResult) : Attempts :=
  if h : a.data.length < maxRetries then
    { data := a.data ++ [item], len_le := by simp only [List.length_append, List.length_singleton]; omega }
  else a

/-! ## The delay -/

abbrev RetryAct := Act Ans Unit TimeoutError

/-- One `nanosleep`: again with the time that remains on EINTR, unless none does. -/
def sleepRound (ts : Timespec) : RetryAct (Timespec ⊕ Unit) := do
  match ← sys .retry (.nanosleep ts) with
  | .ok () => pure (.inr ())
  | .error (err, remaining) =>
    if err ≠ EINTR then pure (.inr ())
    else if remaining.tvSec = 0 ∧ remaining.tvNsec = 0 then pure (.inr ())
    else pure (.inl remaining)

def sleepMs (fuel ms : Nat) : RetryAct Unit :=
  Act.iterate sleepRound fuel { tvSec := ms / 1000, tvNsec := (ms % 1000 * 1000000 : Nat) }

def activeNowNs : RetryAct Nat := do
  let t ← sys .retry .activeNow
  pure t.toNat

/-- `duration_to_ns` of `wait.rs`, which does not clamp to isize. -/
def durationToNsWide (d : Duration) : Nat := satAdd (satMul d.asSecs 1000000000) d.subsecNanos

def delayChanges (timerNs : Nat) (signalFd : Option Int) : List Kevent :=
  { ident := 1, filter := EVFILT_TIMER, flags := EV_ADD ||| EV_ONESHOT,
    fflags := NOTE_NSECONDS, data := asIsize timerNs } ::
  match signalFd with
  | some fd => [{ ident := asUsize fd, filter := EVFILT_READ, flags := EV_ADD }]
  | none => []

/-- One round of the delay: the deadline, an event, EINTR, or a fallback to sleep. -/
def delayRound (fuel : Nat) (kq : Int) (deadlineNs : Nat) (signalFd : Option Int) (_ : Unit) :
    RetryAct (Unit ⊕ Bool) := do
  let currentNs ← activeNowNs
  if deadlineReached currentNs deadlineNs then do
    let _ ← sys .retry (.close kq)
    pure (.inr true)
  else
    let timerNs := min (remainingNs currentNs deadlineNs) maxTimerNs
    match ← sys .retry (.kevent kq (delayChanges timerNs signalFd)) with
    | .ok ev => do
      let _ ← sys .retry (.close kq)
      pure (.inr (decide (ev.filter ≠ EVFILT_READ)))
    | .error err =>
      if err = EINTR then pure (.inl ())
      else do
        let _ ← sys .retry (.close kq)
        let t ← activeNowNs
        let remainingMs := remainingNs t deadlineNs / 1000000
        if 0 < remainingMs then sleepMs fuel remainingMs else pure ()
        pure (.inr true)

/-- True if the delay completed, false if a signal cut it short. -/
def kqueueDelay (fuel : Nat) (d : Duration) (signalFd : Option Int) : RetryAct Bool := do
  if d.isZero then pure true
  else do
    let startNs ← activeNowNs
    let deadlineNs := advanceNs startNs (durationToNsWide d)
    match ← sys .retry .kqueue with
    | .error _ => do
      sleepMs fuel (durationMs d)
      pure true
    | .ok kq => Act.iterate (delayRound fuel kq deadlineNs signalFd) fuel ()

/-! ## The retry loop -/

def maxDelayMs : Nat := 5 * 60 * 1000

/-- `u64::saturating_pow`. -/
def satPow (base : Nat) : Nat → Nat
  | 0 => 1
  | n + 1 => satMul (satPow base n) base

/-- The delay after attempt number `attempt`, with exponential backoff. -/
def retryDelayOf (config : RunConfig) (attempt : Nat) : Duration :=
  if 1 < config.retryBackoff then
    .fromMillis (min (satMul (durationMs config.retryDelay) (satPow config.retryBackoff attempt))
      maxDelayMs) (Nat.le_trans (Nat.min_le_right _ _) (by decide))
  else config.retryDelay

def retryLine (config : RunConfig) (line : String) : RetryAct Unit := do
  if config.verbose && !config.quiet then do
    let _ ← sys .retry (.eprintln line)
    pure ()
  else pure ()

/-- The delay between two attempts: the signal that cut it short, if one did. -/
def retryDelay (fuel : Nat) (config : RunConfig) (attempt : Nat) (signalFd : Option Int) :
    RetryAct (Option Signal) := do
  let delay := retryDelayOf config attempt
  let nth := attempt + 1
  let delayMs := durationMs delay
  retryLine config s!"timeout: attempt {nth} timed out, retry delay {delayMs}ms"
  if delay.isZero then pure none
  else if ← kqueueDelay fuel delay signalFd then pure none
  else match signalFd with
    | none => pure (some .sigterm)
    | some fd => do
      let b ← sys .retry (.readSignalPipe fd)
      pure (some (b.elim .sigterm decodeSignalByte))

/-- One attempt: the result and how long it took. -/
def runAttempt (fuel : Nat) (command : String) (args : List String) (config : RunConfig) :
    RetryAct (RunResult × Nat) := do
  let attemptStart ← nowOr .retry config.confine 0
  let result ← Act.lift (runCommand fuel command args config)
  let t ← nowOr .retry config.confine attemptStart
  pure (result, (elapsedNs attemptStart t).getD 0 / 1000000)

def attemptOf (result : RunResult) (elapsedMs : Nat) : AttemptResult :=
  match result with
  | .completed status _ => { status := .completed, exitCode := status.code, elapsedMs }
  | .signalForwarded _ _ _ => { status := .signalForwarded, exitCode := none, elapsedMs }
  | .timedOut .. | .memoryLimitExceeded .. => { status := .timeout, exitCode := none, elapsedMs }

/-- Whether another attempt may follow the result. -/
def retriable : RunResult → Bool
  | .timedOut .. | .memoryLimitExceeded .. => true
  | .completed .. | .signalForwarded .. => false

def safetyLimit : Nat := maxRetries + 10

/-- The loop `for attempt in 0..max_attempts`, from number `attempt` on, `left` numbers
    before the end of the range. -/
def retryLoop (fuel : Nat) (command : String) (args : List String) (config : RunConfig)
    (signalFd : Option Int) (maxAttempts : Nat) :
    Nat → Nat → Nat → Attempts → RetryAct (RunResult × Attempts)
  | 0, _, _, _ => Act.throw (.internal "retry loop exited unexpectedly")
  | left + 1, attempt, safetyCounter, attempts => do
    let safetyCounter := safetyCounter + 1
    if safetyLimit < safetyCounter then
      Act.throw (.internal "retry loop exceeded safety limit")
    else do
      let (result, elapsedMs) ← runAttempt fuel command args config
      let attempts := attempts.push (attemptOf result elapsedMs)
      if !retriable result then pure (result, attempts)
      else if maxAttempts ≤ attempt + 1 then pure (result, attempts)
      else match ← retryDelay fuel config attempt signalFd with
        | some sig => pure (.signalForwarded sig none none, attempts)
        | none =>
          retryLoop fuel command args config signalFd maxAttempts left (attempt + 1) safetyCounter
            attempts

def cappedRetry (config : RunConfig) : Nat := min config.retryCount (maxRetries - 1)

def runWithRetry (fuel : Nat) (command : String) (args : List String) (config : RunConfig) :
    RetryAct (RunResult × Attempts) := do
  let retryCount := config.retryCount
  let cap := maxRetries - 1
  if cappedRetry config < retryCount then
    retryLine config s!"timeout: warning: retry count {retryCount} capped to maximum {cap}"
  else pure ()
  let fd ← sys .retry .loadSignalPipe
  let maxAttempts := cappedRetry config + 1
  retryLoop fuel command args config (if 0 ≤ fd then some fd else none) maxAttempts maxAttempts 0 0
    {}

end Procguard
