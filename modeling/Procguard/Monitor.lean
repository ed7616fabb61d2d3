import Procguard.Hook

/- The supervisor: `monitor_with_timeout` waits for the child through the event
   loop and then forwards a signal, enforces the memory limit or handles the
   timeout; `run_command` spawns the child and hands it over. The throttle context
   is dropped on every way out of the monitor, errors included. -/
namespace Procguard
open Interact

/-! ## Signals to the child -/

/-- `kill`, with ESRCH (already dead) as success. -/
def killProcess (pid : Int) (sig : Signal) : SuperAct Unit := do
  match ← sys .monitor (.kill pid sig.asRaw) with
  | .ok () => pure ()
  | .error err => if err = ESRCH then pure () else Act.throw (.signalError err)

/-- The process group first; if it is gone, the process itself. -/
def sendSignal (pid : Int) (sig : Signal) (foreground : Bool) : SuperAct Unit := do
  if foreground then killProcess pid sig
  else
    match ← sys .monitor (.killpg pid sig.asRaw) with
    | .ok () => pure ()
    | .error err =>
      if err = ESRCH then killProcess pid sig else Act.throw (.signalError err)

def monitorLine (config : RunConfig) (line : String) : SuperAct Unit := do
  if config.verbose && !config.quiet then do
    let _ ← sys .monitor (.eprintln line)
    pure ()
  else pure ()

/-! ## The throttle, as the monitor handles it -/

def attachThrottle (config : RunConfig) (pid : Int) (startNs : Nat) : SuperAct Unit := do
  match config.cpuThrottle with
  | none => pure ()
  | some cfg =>
    match ← Act.exec (CpuThrottleState.new pid startNs) with
    | .ok state => Act.modify fun h => { h with throttle := some { cfg, state } }
    | .error e =>
      if config.quiet then pure ()
      else do
        let errText := e.display
        let _ ← sys .monitor (.eprintln
          s!"timeout: warning: CPU throttle disabled ({errText})")
        pure ()

/-- Resume the child if the throttle had it stopped. -/
def resumeThrottle : SuperAct Unit := onThrottle fun _ => CpuThrottleState.resume

def Handles.markExited (h : Handles) : Handles :=
  { h with throttle := h.throttle.map fun c => { c with state := c.state.markProcessExited } }

def markProcessExited : SuperAct Unit := Act.modify Handles.markExited

/-- `Drop` of the throttle context. -/
def dropThrottle (h : Handles) : SysProg Handles :=
  match h.throttle with
  | none => .done h
  | some ctx => (CpuThrottleState.drop ctx.state).bind fun st =>
      .done { h with throttle := some { ctx with state := st } }

/-! ## What follows the first wait -/

/-- The wait of a grace period: no heartbeat, stdin timeout, throttle or memory
    limit. -/
def graceWait (fuel : Nat) (pid : Int) (killAfter : Duration) (confine : Confine) :
    SuperAct WaitResult :=
  Act.focus (fun h => { child := h.child, throttle := none })
    (fun (g : Handles) h => { h with child := g.child })
    (waitWithKqueue fuel { pid, timeout := killAfter, confine })

/-- Forward a received signal to the child and wait for it to exit; a failed wait
    leaves status and usage empty. -/
def forwardSignal (fuel : Nat) (config : RunConfig) (pid : Int) (sig : Signal) :
    SuperAct RunResult := do
  let sigName := sig.name
  monitorLine config s!"timeout: forwarding signal {sigName} to command"
  resumeThrottle
  sendSignal pid sig config.foreground
  let r ← childWait fuel
  markProcessExited
  match r with
  | .ok (status, rusage) => pure (.signalForwarded sig (some status) (some rusage))
  | .error _ => pure (.signalForwarded sig none none)

/-- Wait for the child to die and report it. -/
def reapAs (fuel : Nat) (result : RawExitStatus → ResourceUsage → RunResult) :
    SuperAct RunResult := do
  let (status, rusage) ← childWaitOrFail fuel
  markProcessExited
  pure (result status rusage)

/-- Still alive after the grace period: SIGKILL. -/
def killAndReap (fuel : Nat) (config : RunConfig) (pid : Int)
    (result : RawExitStatus → ResourceUsage → RunResult) : SuperAct RunResult := do
  resumeThrottle
  sendSignal pid .sigkill config.foreground
  reapAs fuel result

/-- The memory limit was exceeded. -/
def onMemoryLimit (fuel : Nat) (config : RunConfig) (pid : Int) (limitBytes actualBytes : Nat) :
    SuperAct RunResult := do
  let result (killed : Bool) (status : RawExitStatus) (rusage : ResourceUsage) : RunResult :=
    .memoryLimitExceeded config.signal killed (some status) (some rusage) limitBytes actualBytes
  monitorLine config
    s!"timeout: memory limit exceeded ({actualBytes} bytes > {limitBytes} bytes limit)"
  resumeThrottle
  sendSignal pid config.signal config.foreground
  match config.killAfter with
  | none => reapAs fuel (result false)
  | some killAfter =>
    match ← graceWait fuel pid killAfter config.confine with
    | .exited status rusage => do
      markProcessExited
      pure (result false status rusage)
    | _ => killAndReap fuel config pid (result true)

def TimeoutReason.text : TimeoutReason → String
  | .wallClock => "wall clock"
  | .stdinIdle => "stdin idle"

/-- `config.on_timeout.map(run_on_timeout_hook)`. -/
def runHook (fuel : Nat) (config : RunConfig) (pid : Int) : SuperAct (Option HookResult) := do
  match config.onTimeout with
  | none => pure none
  | some cmd => do
    let r ← Act.exec (runOnTimeoutHook fuel cmd pid config)
    pure (some r)

/-- Time is up: hook, signal, grace period, SIGKILL. -/
def onTimeout (fuel : Nat) (config : RunConfig) (pid : Int) (reason : TimeoutReason) :
    SuperAct RunResult := do
  let reasonStr := reason.text
  monitorLine config s!"timeout: triggered by {reasonStr}"
  let hook ← runHook fuel config pid
  let result (killed : Bool) (status : RawExitStatus) (rusage : ResourceUsage) : RunResult :=
    .timedOut config.signal killed (some status) (some rusage) hook reason
  let sigName := config.signal.name
  monitorLine config s!"timeout: sending signal {sigName} to command"
  resumeThrottle
  sendSignal pid config.signal config.foreground
  match config.killAfter with
  | none => reapAs fuel (result false)
  | some killAfter =>
    match ← graceWait fuel pid killAfter config.confine with
    | .exited status rusage => do
      markProcessExited
      pure (result false status rusage)
    | .receivedSignal sig => forwardSignal fuel config pid sig
    | .timedOut _ | .memoryLimitExceeded _ _ => do
      monitorLine config "timeout: sending signal SIGKILL to command"
      killAndReap fuel config pid (result true)

/-- What the monitor does with the result of the first wait. -/
def handleResult (fuel : Nat) (config : RunConfig) (pid : Int) :
    WaitResult → SuperAct RunResult
  | .exited status rusage => do
    markProcessExited
    pure (.completed status rusage)
  | .receivedSignal sig => forwardSignal fuel config pid sig
  | .memoryLimitExceeded limitBytes actualBytes =>
    onMemoryLimit fuel config pid limitBytes actualBytes
  | .timedOut reason => onTimeout fuel config pid reason

/-- The arguments of the first wait. -/
def waitArgsOf (config : RunConfig) (pid : Int) (startNs : Nat) : WaitArgs where
  pid := pid
  timeout := config.timeout
  confine := config.confine
  heartbeat := config.heartbeat.map fun interval =>
    { intervalNs := durationToNs interval, quiet := config.quiet, pid, startNs }
  stdinTimeout := config.stdinTimeout.map fun d =>
    { timeoutNs := durationToNs d, lastActivityNs := startNs,
      mode := if config.stdinPassthrough then .passthrough else .consume }
  memoryLimit := config.limits.memBytes.map fun limitBytes =>
    { limitBytes, checkIntervalNs := durationToNs (.fromMillis 100 Duration.hundred_le) }

/-- The monitor from its first clock reading on. -/
def supervise (fuel : Nat) (config : RunConfig) (pid : Int) (startNs : Nat) :
    SuperAct RunResult := do
  attachThrottle config pid startNs
  let r ← waitWithKqueue fuel (waitArgsOf config pid startNs)
  handleResult fuel config pid r

def monitorWithTimeout (fuel : Nat) (config : RunConfig) : SuperAct RunResult := do
  let h ← Act.get
  let startNs ← now config.confine
  (supervise fuel config h.child.pid startNs).onExit dropThrottle

/-! ## `run_command` -/

/-- How a spawn error is reported. -/
def ofSpawnError : SpawnError → TimeoutError
  | .notFound s => .commandNotFound s
  | .permissionDenied s => .permissionDenied s
  | .spawn errno => .spawnError errno
  | .wait errno => .spawnError errno
  | .invalidArg => .internal "invalid argument"

def spawnFor (command : String) (args : List String) (config : RunConfig) :
    SysProg (Except SpawnError RawChild) :=
  if config.limits.isEmpty then spawnCommand .monitor command args (!config.foreground)
  else spawnCommandWithLimits .monitor command args (!config.foreground) config.limits

/-- Zero timeout = run forever. -/
def runForever (fuel : Nat) : SuperAct RunResult := do
  let (status, rusage) ← childWaitOrFail fuel
  pure (.completed status rusage)

/-- Supervise a spawned child. -/
def runChild (fuel : Nat) (config : RunConfig) : SuperAct RunResult :=
  if isNoTimeout config.timeout then runForever fuel else monitorWithTimeout fuel config

def runCommand (fuel : Nat) (command : String) (args : List String) (config : RunConfig) :
    SysProg (Except TimeoutError RunResult) :=
  (spawnFor command args config).bind fun r => match r with
    | .error e => .done (.error (ofSpawnError e))
    | .ok child => (runChild fuel config { child }).bind fun r => .done r.1

end Procguard
