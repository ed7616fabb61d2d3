import Procguard.WaitKqueue

/- The configuration of a run and what it returns. -/
namespace Procguard

structure HookResult where
  ran : Bool := false
  exitCode : Option Int := none
  timedOut : Bool := false
  elapsedMs : Nat := 0
  deriving DecidableEq, Repr

/-- Result of running a command with timeout. -/
inductive RunResult where
  | completed (status : RawExitStatus) (rusage : ResourceUsage)
  | timedOut (signal : Signal) (killed : Bool) (status : Option RawExitStatus)
      (rusage : Option ResourceUsage) (hook : Option HookResult) (reason : TimeoutReason)
  | memoryLimitExceeded (signal : Signal) (killed : Bool) (status : Option RawExitStatus)
      (rusage : Option ResourceUsage) (limitBytes actualBytes : Nat)
  | signalForwarded (signal : Signal) (status : Option RawExitStatus)
      (rusage : Option ResourceUsage)
  deriving DecidableEq, Repr

/-- Configuration for running a command with timeout, with the defaults of
    `RunConfig::default()`. -/
structure RunConfig where
  timeout : Duration := .fromSecs 30
  signal : Signal := .sigterm
  killAfter : Option Duration := none
  foreground : Bool := false
  verbose : Bool := false
  quiet : Bool := false
  timeoutExitCode : UInt8 := 124
  onTimeout : Option String := none
  onTimeoutLimit : Duration := .fromSecs 5
  confine : Confine := .wall
  retryCount : Nat := 0
  retryDelay : Duration := .zero
  retryBackoff : Nat := 1
  heartbeat : Option Duration := none
  stdinTimeout : Option Duration := none
  stdinPassthrough : Bool := false
  limits : ResourceLimits := {}
  cpuThrottle : Option CpuThrottleConfig := none

end Procguard
