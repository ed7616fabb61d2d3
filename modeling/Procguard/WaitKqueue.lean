import Procguard.Throttle

/- `wait_with_kqueue`, the event loop of the supervisor. `WaitFixed` holds what
   the set-up computes once, `WaitVars` the locals the loop changes; one round of
   the loop is `waitRound`, cut into the same blocks as the source: the checks at
   the loop head, the timer the round programs, the kevent call and what is done
   with its answer. The throttle and the child are in the state (`Handles`), so an
   error exit leaves them as they are, as `?` does. -/
namespace Procguard
open Interact

inductive Confine where
  | wall | active
  deriving DecidableEq, Repr

/-- Current time in the confine mode. Only the wall clock can fail. -/
def preciseNowNs (caller : Caller) : Confine → SysProg (Except TimeoutError Nat)
  | .wall => .ask ⟨caller, .wallNow⟩ fun r => .done <| match r with
    | some t => .ok t.toNat
    | none => .error .timebaseError
  | .active => .ask ⟨caller, .activeNow⟩ fun t => .done (.ok t.toNat)

inductive StdinMode where
  | consume | passthrough
  deriving DecidableEq, Repr

structure StdinTimeoutConfig where
  timeoutNs : Nat
  lastActivityNs : Nat
  mode : StdinMode
  deriving DecidableEq, Repr

structure HeartbeatConfig where
  intervalNs : Nat
  quiet : Bool
  pid : Int
  startNs : Nat
  deriving DecidableEq, Repr

structure MemoryLimitConfig where
  limitBytes : Nat
  checkIntervalNs : Nat
  deriving DecidableEq, Repr

inductive TimeoutReason where
  | wallClock | stdinIdle
  deriving DecidableEq, Repr

/-- What happened when we waited on the process. -/
inductive WaitResult where
  | exited (status : RawExitStatus) (rusage : ResourceUsage)
  | timedOut (reason : TimeoutReason)
  | memoryLimitExceeded (limitBytes actualBytes : Nat)
  | receivedSignal (sig : Signal)
  deriving DecidableEq, Repr

inductive StdinPollResult where
  | readable | idle | eof
  deriving DecidableEq, Repr

/-- `stdin_poll_status`, from what `poll` returned and set in `revents`. -/
def stdinPollStatus (r : Int × UInt16) : StdinPollResult :=
  if r.1 ≤ 0 then .idle
  else if r.2 &&& POLLHUP ≠ 0 ∧ r.2 &&& POLLIN = 0 then .eof
  else if r.2 &&& POLLIN ≠ 0 then .readable
  else .idle

/-- The signal number a handler wrote; an unknown byte counts as SIGTERM. -/
def decodeSignalByte (b : UInt8) : Signal := (Signal.tryFromRaw b.toNat).getD .sigterm

/-- The heartbeat message. -/
def heartbeatLine (elapsed : Nat) (pid : Int) : String :=
  let elapsedSecs := elapsed / 1000000000
  let mins := elapsedSecs / 60
  let secs := elapsedSecs % 60
  if 0 < mins then
    s!"timeout: heartbeat: {mins}m {secs}s elapsed, command still running (pid {pid})"
  else s!"timeout: heartbeat: {secs}s elapsed, command still running (pid {pid})"

structure Handles where
  child : RawChild
  throttle : Option ThrottleContext := none

abbrev SuperAct := Act Ans Handles TimeoutError

/-- The current time, a clock failure being an error of the caller. -/
def now (confine : Confine) : SuperAct Nat := Act.lift (preciseNowNs .monitor confine)

def childWait (fuel : Nat) : SuperAct (Except SpawnError (RawExitStatus × ResourceUsage)) :=
  Act.attempt Handles.child (fun c h => { h with child := c }) (RawChild.wait .monitor fuel)

/-- `child.wait()`, its error as the caller reports it. -/
def childWaitOrFail (fuel : Nat) : SuperAct (RawExitStatus × ResourceUsage) := do
  match ← childWait fuel with
  | .ok r => pure r
  | .error (.wait errno) => Act.throw (.spawnError errno)
  | .error _ => Act.throw (.internal "wait failed")

def childTryWait : SuperAct (Except SpawnError (Option (RawExitStatus × ResourceUsage))) :=
  Act.attempt Handles.child (fun c h => { h with child := c }) (RawChild.tryWait .monitor)

/-- Run `m` on the throttle state, if there is one. -/
def onThrottle (m : CpuThrottleConfig → ThrottleAct Unit) : SuperAct Unit := do
  let h ← Act.get
  match h.throttle with
  | none => pure ()
  | some ctx =>
    Act.focus (fun _ => ctx.state)
      (fun st h => { h with throttle := some { ctx with state := st } }) (m ctx.cfg)

/-- The four change entries: process exit, timer, signal pipe, stdin. -/
structure Changes where
  proc : Kevent
  timer : Kevent
  sig : Kevent
  stdin : Kevent
  deriving DecidableEq, Repr

def Changes.toList (c : Changes) : List Kevent := [c.proc, c.timer, c.sig, c.stdin]

structure WaitArgs where
  pid : Int
  timeout : Duration
  confine : Confine
  heartbeat : Option HeartbeatConfig := none
  stdinTimeout : Option StdinTimeoutConfig := none
  memoryLimit : Option MemoryLimitConfig := none

/-- What the set-up computes once. -/
structure WaitFixed where
  args : WaitArgs
  kq : Int
  deadlineNs : Nat
  throttleIntervalNs : Nat
  memoryCheckIntervalNs : Nat
  heartbeatIntervalNs : Nat
  stdinTimeoutNs : Nat
  signalFd : Option Int

/-- The locals the loop changes. -/
structure WaitVars where
  stdinTimeout : Option StdinTimeoutConfig
  stdinEnabled : Bool
  nextThrottleNs : Nat
  nextMemoryCheckNs : Nat
  nextHeartbeatNs : Nat
  changes : Changes
  deriving DecidableEq, Repr

/-- How a block of the loop ends: go on, start the next round, leave the loop with
    an event to look at, or return. -/
inductive Flow (α : Type) where
  | go (a : α)
  | next (v : WaitVars)
  | leave (ev : Kevent)
  | ret (r : WaitResult)

/-! ## Set-up -/

/-- `pid as usize`. -/
def asUsize (n : Int) : Nat := (n % 2 ^ 64).toNat

def initialChanges (pid : Int) (timeoutNs : Nat) (signalFd : Option Int) (stdinEnabled : Bool) :
    Changes where
  proc := { ident := asUsize pid, filter := EVFILT_PROC, flags := EV_ADD ||| EV_ONESHOT,
            fflags := NOTE_EXIT }
  timer := { ident := 1, filter := EVFILT_TIMER, flags := EV_ADD ||| EV_ONESHOT,
             fflags := NOTE_NSECONDS, data := asIsize timeoutNs }
  sig := { ident := asUsize (signalFd.getD 0), filter := EVFILT_READ,
           flags := if signalFd.isSome then EV_ADD else 0 }
  stdin := { ident := 0, filter := EVFILT_READ, flags := if stdinEnabled then EV_ADD else 0 }

def loadSignalFd (caller : Caller) : SuperAct (Option Int) := do
  let fd ← sys caller .loadSignalPipe
  pure (if 0 ≤ fd then some fd else none)

/-- `fstat(0)`: an invalid stdin disables the stdin timeout. -/
def validateStdin : Option StdinTimeoutConfig → SuperAct (Option StdinTimeoutConfig)
  | none => pure none
  | some cfg => do
    let r ← sys .monitor .fstatStdin
    pure (if r < 0 then none else some cfg)

/-- The level check passthrough mode makes before the loop. -/
def initialPoll (confine : Confine) :
    Option StdinTimeoutConfig → SuperAct (Option StdinTimeoutConfig)
  | none => pure none
  | some cfg =>
    if cfg.mode = .passthrough then do
      let r ← sys .monitor .pollStdin
      match stdinPollStatus r with
      | .readable => do
        let t ← now confine
        pure (some { cfg with lastActivityNs := t })
      | .eof => pure none
      | .idle => pure (some cfg)
    else pure (some cfg)

def openKqueue : SuperAct Int := do
  match ← sys .monitor .kqueue with
  | .ok kq => pure kq
  | .error errno => Act.throw (.internal s!"kqueue failed: errno {errno}")

def firstThrottleNs (throttle : Option ThrottleContext) : Nat :=
  match throttle with
  | none => u64Max
  | some t =>
    if t.cfg.intervalNs < u64Max then advanceNs t.state.lastWallNs t.cfg.intervalNs else u64Max

def firstMemoryCheckNs (startNs : Nat) (memoryLimit : Option MemoryLimitConfig) : Nat :=
  match memoryLimit with
  | none => u64Max
  | some m => if m.checkIntervalNs < u64Max then advanceNs startNs m.checkIntervalNs else u64Max

def firstHeartbeatNs (startNs intervalNs : Nat) : Nat :=
  if 0 < intervalNs then advanceNs startNs intervalNs else u64Max

def waitSetup (a : WaitArgs) : SuperAct (WaitFixed × WaitVars) := do
  let startNs ← now a.confine
  let h ← Act.get
  let signalFd ← loadSignalFd .monitor
  let stdinTimeout ← validateStdin a.stdinTimeout
  let stdinTimeoutNs := stdinTimeout.elim 0 StdinTimeoutConfig.timeoutNs
  let stdinEnabled := stdinTimeout.elim false fun s => s.mode == .consume
  let stdinTimeout ← initialPoll a.confine stdinTimeout
  let kq ← openKqueue
  let heartbeatIntervalNs := a.heartbeat.elim 0 HeartbeatConfig.intervalNs
  pure (
    { args := a, kq, signalFd, stdinTimeoutNs, heartbeatIntervalNs,
      deadlineNs := advanceNs startNs (durationToNs a.timeout),
      throttleIntervalNs := h.throttle.elim u64Max fun t => t.cfg.intervalNs,
      memoryCheckIntervalNs := a.memoryLimit.elim u64Max MemoryLimitConfig.checkIntervalNs },
    { stdinTimeout, stdinEnabled,
      nextThrottleNs := firstThrottleNs h.throttle,
      nextMemoryCheckNs := firstMemoryCheckNs startNs a.memoryLimit,
      nextHeartbeatNs := firstHeartbeatNs startNs heartbeatIntervalNs,
      changes := initialChanges a.pid (durationToNs a.timeout) signalFd stdinEnabled })

/-! ## One round -/

def closeKq (f : WaitFixed) : SuperAct Unit := do
  let _ ← sys .monitor (.close f.kq)
  pure ()

/-- Close the kqueue and return. -/
def finish {α : Type} (f : WaitFixed) (r : WaitResult) : SuperAct (Flow α) := do
  closeKq f
  pure (.ret r)

/-- Whether the stdin idle timeout has passed at reading `nowNs`. A clock that
    went backwards counts as not idle. -/
def stdinIdleReached (f : WaitFixed) (v : WaitVars) (nowNs : Nat) : Bool :=
  match v.stdinTimeout with
  | none => false
  | some cfg => match elapsedNs cfg.lastActivityNs nowNs with
    | some idleNs => decide (f.stdinTimeoutNs ≤ idleNs)
    | none => false

/-- The checks at the loop head. -/
def loopHead (f : WaitFixed) (v : WaitVars) : SuperAct (Flow Nat) := do
  let nowNs ← now f.args.confine
  if deadlineReached nowNs f.deadlineNs then finish f (.timedOut .wallClock)
  else if stdinIdleReached f v nowNs then finish f (.timedOut .stdinIdle)
  else pure (.go nowNs)

def timeToStdinDeadline (f : WaitFixed) (v : WaitVars) (nowNs : Nat) : Nat :=
  match v.stdinTimeout with
  | none => u64Max
  | some cfg => (timeToIdleTimeout cfg.lastActivityNs nowNs f.stdinTimeoutNs).getD 0

/-- The time to the next thing that is due. -/
def nextWakeNs (f : WaitFixed) (v : WaitVars) (nowNs : Nat) : Nat :=
  min (min (min (min (remainingNs nowNs f.deadlineNs) (remainingNs nowNs v.nextHeartbeatNs))
    (timeToStdinDeadline f v nowNs)) (remainingNs nowNs v.nextThrottleNs))
    (remainingNs nowNs v.nextMemoryCheckNs)

/-- The change list with the timer set. -/
def armTimer (c : Changes) (wakeNs : Nat) : Changes :=
  { c with timer := { c.timer with data := asIsize (min wakeNs maxTimerNs) } }

def stdinActive (v : WaitVars) : Bool := v.stdinEnabled || v.changes.stdin.flags == EV_DELETE

def numChanges (f : WaitFixed) (v : WaitVars) : Nat :=
  2 + f.signalFd.isSome.toNat + (stdinActive v).toNat

/-- After the call an EV_DELETE is cleared, not to be submitted again. -/
def clearDelete (c : Changes) : Changes :=
  if c.stdin.flags = EV_DELETE then { c with stdin := { c.stdin with flags := 0 } } else c

def setStdinFlags (v : WaitVars) (flags : UInt16) : WaitVars :=
  { v with changes := { v.changes with stdin := { v.changes.stdin with flags := flags } } }

/-- Register the process watcher again (it is one-shot). -/
def rearmProc (v : WaitVars) : WaitVars :=
  { v with changes := { v.changes with
      proc := { v.changes.proc with flags := EV_ADD ||| EV_ONESHOT } } }

/-- Stop watching stdin, the filter to be deleted by the next call. -/
def dropStdin (v : WaitVars) : WaitVars :=
  setStdinFlags { v with stdinTimeout := none, stdinEnabled := false } EV_DELETE

/-- The process is gone: reap it without blocking, else by a blocking wait. ECHILD
    (reaped elsewhere) is treated as a timeout. -/
def reapGone (fuel : Nat) : SuperAct WaitResult := do
  match ← childTryWait with
  | .ok (some (status, rusage)) => pure (.exited status rusage)
  | .ok none | .error _ =>
    match ← childWait fuel with
    | .ok (status, rusage) => pure (.exited status rusage)
    | .error e =>
      if e = .wait ECHILD then pure (.timedOut .wallClock)
      else Act.throw (.internal s!"wait failed: {e.display}")

def onKeventError (fuel : Nat) (f : WaitFixed) (v : WaitVars) (err : Int) :
    SuperAct (Flow Kevent) := do
  if err = EINTR then pure (.next v)
  else if err = ESRCH then do
    closeKq f
    let r ← reapGone fuel
    pure (.ret r)
  else do
    closeKq f
    Act.throw (.internal s!"kevent failed: errno {err}")

/-- Stdin is readable (consume mode): drain it, EOF ends the monitoring. -/
def onStdin (f : WaitFixed) (v : WaitVars) (ev : Kevent) : SuperAct (Flow Kevent) := do
  if ev.has EV_EOF then pure (.next (rearmProc (dropStdin v)))
  else do
    let bytesRead ← sys .monitor .readStdin
    if bytesRead = 0 then pure (.next (rearmProc (dropStdin v)))
    else if 0 < bytesRead then do
      let t ← now f.args.confine
      pure (.next (rearmProc { v with
        stdinTimeout := v.stdinTimeout.map fun s => { s with lastActivityNs := t } }))
    else pure (.next (rearmProc v))

def throttleTick (f : WaitFixed) (v : WaitVars) (nowNs : Nat) : SuperAct WaitVars := do
  let h ← Act.get
  if h.throttle.isSome && deadlineReached nowNs v.nextThrottleNs then do
    onThrottle fun cfg => do
      let _ ← CpuThrottleState.update cfg nowNs
      pure ()
    pure { v with nextThrottleNs := advanceNs nowNs f.throttleIntervalNs }
  else pure v

/-- `get_process_memory` over the limit ends the wait. -/
def memoryTick (f : WaitFixed) (v : WaitVars) (nowNs : Nat) : SuperAct (Flow WaitVars) := do
  match f.args.memoryLimit with
  | none => pure (.go v)
  | some m =>
    if deadlineReached nowNs v.nextMemoryCheckNs then do
      let info ← sys .memoryCheck (.procPidRusage f.args.pid)
      match info.map RusageInfo.memoryBytes with
      | some currentBytes =>
        if m.limitBytes < currentBytes then
          finish f (.memoryLimitExceeded m.limitBytes currentBytes)
        else pure (.go { v with nextMemoryCheckNs := advanceNs nowNs f.memoryCheckIntervalNs })
      | none => pure (.go { v with nextMemoryCheckNs := advanceNs nowNs f.memoryCheckIntervalNs })
    else pure (.go v)

/-- Passthrough mode: a level check that consumes nothing. -/
def passthroughTick (v : WaitVars) (nowNs : Nat) : SuperAct WaitVars := do
  match v.stdinTimeout with
  | none => pure v
  | some cfg =>
    if cfg.mode = .passthrough then do
      let r ← sys .monitor .pollStdin
      match stdinPollStatus r with
      | .readable => pure { v with stdinTimeout := some { cfg with lastActivityNs := nowNs } }
      | .eof => pure { v with stdinTimeout := none }
      | .idle => pure v
    else pure v

def heartbeatDue (f : WaitFixed) (v : WaitVars) (nowNs : Nat) : Bool :=
  decide (0 < f.heartbeatIntervalNs) && !deadlineReached nowNs f.deadlineNs &&
    deadlineReached nowNs v.nextHeartbeatNs

def heartbeatTick (f : WaitFixed) (v : WaitVars) (nowNs : Nat) : SuperAct WaitVars := do
  match f.args.heartbeat with
  | some hb =>
    if hb.quiet then pure ()
    else do
      let _ ← sys .monitor (.eprintln
        (heartbeatLine ((elapsedNs hb.startNs nowNs).getD 0) hb.pid))
      pure ()
  | none => pure ()
  pure (rearmProc { v with nextHeartbeatNs := advanceNs nowNs f.heartbeatIntervalNs })

/-- The end of the timer branch: stdin idle, heartbeat, deadline, or just a tick. -/
def timerVerdict (f : WaitFixed) (v : WaitVars) (nowNs : Nat) : SuperAct (Flow Kevent) := do
  if stdinIdleReached f v nowNs then finish f (.timedOut .stdinIdle)
  else if heartbeatDue f v nowNs then do
    let v ← heartbeatTick f v nowNs
    pure (.next v)
  else if deadlineReached nowNs f.deadlineNs then finish f (.timedOut .wallClock)
  else pure (.next (rearmProc v))

def onTimer (f : WaitFixed) (v : WaitVars) : SuperAct (Flow Kevent) := do
  let nowNs ← now f.args.confine
  let v ← throttleTick f v nowNs
  match ← memoryTick f v nowNs with
  | .go v => do
    let v ← passthroughTick v nowNs
    timerVerdict f v nowNs
  | .next v => pure (.next v)
  | .leave ev => pure (.leave ev)
  | .ret r => pure (.ret r)

/-- Registration errors reported inside the loop. -/
def onEventError (f : WaitFixed) (v : WaitVars) (ev : Kevent) : SuperAct (Flow Kevent) := do
  let errCode := ev.errCode
  if errCode = EBADF ∧ ev.ident = 0 then pure (.next (rearmProc (dropStdin v)))
  else if errCode = ENOENT ∧ ev.ident = 0 then pure (.next (rearmProc (setStdinFlags v 0)))
  else if errCode = ESRCH then pure (.leave ev)
  else do
    closeKq f
    Act.throw (.internal s!"kqueue event registration failed: errno {errCode}")

def onEvent (f : WaitFixed) (v : WaitVars) (ev : Kevent) : SuperAct (Flow Kevent) := do
  if ev.filter = EVFILT_READ ∧ ev.ident = 0 ∧ v.stdinEnabled = true then onStdin f v ev
  else if ev.filter = EVFILT_TIMER then onTimer f v
  else if ev.has EV_ERROR then onEventError f v ev
  else pure (.leave ev)

def awaitEvent (fuel : Nat) (f : WaitFixed) (v : WaitVars) (nowNs : Nat) :
    SuperAct (Flow Kevent) := do
  let changes := armTimer v.changes (nextWakeNs f v nowNs)
  let r ← sys .monitor (.kevent f.kq (changes.toList.take (numChanges f v)))
  let v := { v with changes := clearDelete changes }
  match r with
  | .error err => onKeventError fuel f v err
  | .ok ev => onEvent f v ev

def waitRound (fuel : Nat) (f : WaitFixed) (v : WaitVars) :
    SuperAct (WaitVars ⊕ (WaitResult ⊕ Kevent)) := do
  match ← loopHead f v with
  | .go nowNs => match ← awaitEvent fuel f v nowNs with
    | .go ev | .leave ev => pure (.inr (.inr ev))
    | .next v => pure (.inl v)
    | .ret r => pure (.inr (.inl r))
  | .next v => pure (.inl v)
  | .leave ev => pure (.inr (.inr ev))
  | .ret r => pure (.inr (.inl r))

/-! ## After the loop -/

/-- The event the loop was left with: the process is gone, has exited, or a signal
    came in. Anything else is treated as a timeout. -/
def afterLoop (fuel : Nat) (f : WaitFixed) (ev : Kevent) : SuperAct WaitResult := do
  closeKq f
  if ev.has EV_ERROR ∧ ev.errCode = ESRCH then reapGone fuel
  else if ev.filter = EVFILT_PROC then do
    let (status, rusage) ← childWaitOrFail fuel
    pure (.exited status rusage)
  else if ev.filter = EVFILT_READ then
    match f.signalFd with
    | none => pure (.timedOut .wallClock)
    | some fd =>
      match ← sys .monitor (.readSignalPipe fd) with
      | none => pure (.timedOut .wallClock)
      | some b => pure (.receivedSignal (decodeSignalByte b))
  else pure (.timedOut .wallClock)

def waitWithKqueue (fuel : Nat) (a : WaitArgs) : SuperAct WaitResult := do
  let (f, v) ← waitSetup a
  match ← Act.iterate (waitRound fuel f) fuel v with
  | .inl r => pure r
  | .inr ev => afterLoop fuel f ev

end Procguard
