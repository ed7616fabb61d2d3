import Procguard.Resolve
import Procguard.Values
import Procguard.ReportRules

/- `main.rs` and `RunConfig::from_args`: from the command line to the exit status. The
   program is a program over requests, as the run itself is: what it prints, the wait
   for a file, the set-up of signal forwarding, the clock and `run_with_retry` are
   requests, answered in any way their types allow. An early `return` throws the exit
   status. -/
namespace Procguard
open Interact Text

inductive MainCall where
  | printHelp
  | printVersion
  | println (line : String)
  | eprintln (line : String)
  | waitForFile (path : String) (timeout : Option Duration) (confine : Confine)
  | setupSignalForwarding
  | preciseNow
  | runWithRetry (command : String) (args : List String) (config : RunConfig)

@[reducible] def MainCall.Ans : MainCall → Type
  | .printHelp | .printVersion | .println _ | .eprintln _ => Unit
  | .waitForFile _ _ _ => Except TimeoutError Unit
  | .setupSignalForwarding => Option Int
  | .preciseNow => Option UInt64
  | .runWithRetry _ _ _ => Except TimeoutError (RunResult × Attempts)

abbrev MainAct (ε α : Type) := Act MainCall.Ans Unit ε α

abbrev mainCall {ε : Type} (c : MainCall) : MainAct ε c.Ans := Act.call (A := MainCall.Ans) c

/-- The `?` operator. -/
def orThrow {ε α : Type} (r : Except ε α) : MainAct ε α := Act.lift (.done r)

def eprintLine {ε : Type} (line : String) : MainAct ε Unit := do
  let _ ← mainCall (.eprintln line)
  pure ()

def printLine {ε : Type} (line : String) : MainAct ε Unit := do
  let _ ← mainCall (.println line)
  pure ()

/-! ## The configuration -/

/-- `.as_ref().map(f).transpose()`. -/
def optional {ε α : Type} (f : String → Except ε α) : Option String → Except ε (Option α)
  | none => .ok none
  | some s => (f s).map some

def parseRetryCount (s : String) : Except TimeoutError Nat :=
  match parseUnsigned u32Max s.toList with
  | some n => .ok n
  | none => .error (.internal s!"invalid retry count: '{s}'")

/-- A multiplier such as `2x`. -/
def parseBackoff (s : String) : Except TimeoutError Nat :=
  match parseUnsigned u32Max ((s.toList.rdropWhile (· == 'x')).rdropWhile (· == 'X')) with
  | some n => .ok n
  | none => .error (.internal s!"invalid retry backoff: '{s}' (use e.g., 2x)")

/-- `a > b` of two durations. -/
def Duration.exceeds (a b : Duration) : Bool :=
  decide (b.asSecs < a.asSecs) || (a.asSecs == b.asSecs && decide (b.subsecNanos < a.subsecNanos))

def throttleConfig (percent : Percent) : CpuThrottleConfig where
  percent := percent.get
  intervalNs := durationToNs (.fromMillis 100 Duration.hundred_le)
  sleepNs := durationToNs (.fromMillis 50 (by decide))
  percent_pos := percent.pos
  percent_lt := percent.lt

/-- A very low cpu percent may make execution stutter. -/
def warnLowPercent (args : Args) (percent : Option Percent) : MainAct TimeoutError Unit :=
  match percent with
  | none => pure ()
  | some pct =>
    if decide (pct.get < 10) && !args.quiet then
      let n := pct.get
      eprintLine s!"warning: --cpu-percent {n} is very low; may cause stuttery execution"
    else pure ()

/-- Whether the hook may outlast the main timeout. -/
def hookOutlasts (args : Args) (timeout onTimeoutLimit : Duration) : Bool :=
  args.onTimeout.isSome && onTimeoutLimit.exceeds timeout && !isNoTimeout timeout

def warnHookLimit (args : Args) (durationStr : String) (timeout onTimeoutLimit : Duration) :
    MainAct TimeoutError Unit :=
  if hookOutlasts args timeout onTimeoutLimit then
    let limit := args.onTimeoutLimit
    eprintLine s!"warning: --on-timeout-limit ({limit}) exceeds main timeout ({durationStr})"
  else pure ()

/-- `RunConfig::from_args`. -/
def fromArgs (args : Args) (durationStr : String) : MainAct TimeoutError RunConfig := do
  let timeout ← orThrow (parseDuration durationStr)
  let signal ← orThrow (parseSignal args.signal)
  let killAfter ← orThrow (optional parseDuration args.killAfter)
  let onTimeoutLimit ← orThrow (parseDuration args.onTimeoutLimit)
  let retryCount ← orThrow (optional parseRetryCount args.retry)
  let retryDelay ← orThrow (optional parseDuration args.retryDelay)
  -- at least 1: 0^n = 0 would zero all delays
  let retryBackoff ← orThrow (optional parseBackoff args.retryBackoff)
  let heartbeat ← orThrow (optional parseDuration args.heartbeat)
  let stdinTimeout ← orThrow (optional parseDuration args.stdinTimeout)
  let memLimit ← orThrow (optional parseMemLimit args.memLimit)
  let cpuTime ← orThrow (optional parseCpuTime args.cpuTime)
  let percent ← orThrow (optional parseCpuPercent args.cpuPercent)
  warnLowPercent args percent
  if args.stdinPassthrough && stdinTimeout.isNone then
    Act.throw (.internal "--stdin-passthrough requires --stdin-timeout")
  else do
    warnHookLimit args durationStr timeout onTimeoutLimit
    pure {
      timeout, signal, killAfter
      foreground := args.foreground
      verbose := args.verbose
      quiet := args.quiet
      timeoutExitCode := args.timeoutExitCode.getD exitTimeout
      onTimeout := args.onTimeout
      onTimeoutLimit
      confine := args.confine
      retryCount := retryCount.getD 0
      retryDelay := retryDelay.getD .zero
      retryBackoff := max (retryBackoff.getD 1) 1
      heartbeat, stdinTimeout
      stdinPassthrough := args.stdinPassthrough
      limits := { memBytes := memLimit, cpuTime }
      cpuThrottle := percent.map throttleConfig }

/-! ## `run_main` -/

/-- The last part of a path is `timeout`. -/
def isTimeoutAlias (argv0 : String) : Bool :=
  argv0.toList.rtakeWhile (· != '/') == "timeout".toList

/-- Invoked as `timeout`, the clock defaults to active time. -/
def applyAlias (argv0 : String) (args : Args) : Args :=
  if isTimeoutAlias argv0 && !args.confineSpecified then { args with confine := .active } else args

def progName (argv0 : String) : String := if isTimeoutAlias argv0 then "timeout" else "procguard"

/-- Parse the command line, or stop. -/
def acceptArgs (env : Environment) (argv : List String) : MainAct UInt8 Args :=
  match parseArgs env argv with
  | .ok args => pure args
  | .error .help => do
    let _ ← mainCall .printHelp
    Act.throw 0
  | .error .version => do
    let _ ← mainCall .printVersion
    Act.throw 0
  | .error (.error message) => do
    eprintLine s!"procguard: {message}"
    Act.throw exitInternalError

/-- A diagnostic that `-q` silences. -/
def complain (args : Args) (line : String) : MainAct UInt8 Unit :=
  if !args.quiet then eprintLine line else pure ()

/-- Duration, command and its arguments. -/
def operands (prog : String) (args : Args) (timeoutEnv : Option String) :
    MainAct UInt8 (String × String × List String) := do
  let res := resolveArgs args timeoutEnv
  match res.warning with
  | some warning => eprintLine warning
  | none => pure ()
  match res.duration, res.command with
  | some d, some c => pure (d, c, res.args)
  | none, _ => do
    complain args s!"{prog}: missing duration (provide as argument or set TIMEOUT env var)"
    Act.throw exitInternalError
  | some _, none => do
    complain args s!"{prog}: missing command"
    Act.throw exitInternalError

def configure (prog : String) (args : Args) (durationStr : String) : MainAct UInt8 RunConfig := do
  match ← Act.attempt id (fun t _ => t) (fromArgs args durationStr) with
  | .ok config => pure config
  | .error e => do
    let text := e.display
    complain args s!"{prog}: {text}"
    Act.throw e.exitCode

def readWaitTimeout (prog : String) (args : Args) : MainAct UInt8 (Option Duration) :=
  match optional parseDuration args.waitForFileTimeout with
  | .ok t => pure t
  | .error e => do
    let text := e.display
    complain args s!"{prog}: invalid --wait-for-file-timeout: {text}"
    Act.throw exitInternalError

/-- A line for `-v` without `-q`. -/
def verboseLine (args : Args) (line : String) : MainAct UInt8 Unit :=
  if args.verbose && !args.quiet then eprintLine line else pure ()

def waitingLine (prog path : String) : Option Duration → String
  | some d =>
    let secs := d.asSecs
    let tenths := d.subsecMillis / 100
    s!"{prog}: waiting for file '{path}' (timeout: {secs}.{tenths}s)"
  | none => s!"{prog}: waiting for file '{path}' (no timeout)"

/-- An error of the wait or of the run: in the report, or else as a diagnostic. -/
def reportError (prog : String) (args : Args) (e : TimeoutError) (elapsedMs : Nat) :
    MainAct UInt8 Unit :=
  if args.json then printLine (printJsonError e elapsedMs)
  else
    let text := e.display
    complain args s!"{prog}: {text}"

def awaitFile (prog : String) (args : Args) (config : RunConfig) : MainAct UInt8 Unit :=
  match args.waitForFile with
  | none => pure ()
  | some path => do
    let timeout ← readWaitTimeout prog args
    verboseLine args (waitingLine prog path timeout)
    match ← mainCall (.waitForFile path timeout config.confine) with
    | .error e => do
      reportError prog args e 0
      Act.throw e.exitCode
    | .ok () => verboseLine args s!"{prog}: file '{path}' found, starting command"

/-- Whether the custom exit code may be taken for one of procguard's own. -/
def reservedExitCode (args : Args) (result : RunResult) : Option UInt8 :=
  match args.timeoutExitCode, result with
  | some code, .timedOut .. => if 125 ≤ code ∧ code ≤ 137 then some code else none
  | _, _ => none

def warnExitCode (args : Args) (result : RunResult) : MainAct UInt8 Unit :=
  match reservedExitCode args result with
  | some code => eprintLine
      s!"warning: --timeout-exit-code {code} may conflict with reserved exit codes (125-137)"
  | none => pure ()

/-- The arguments of `print_json_output`. -/
def reportArgs (config : RunConfig) (elapsedMs : Nat) (exitCode : UInt8) (attempts : Attempts) :
    ReportArgs :=
  { elapsedMs, exitCode, attempts := attempts.data, retryCount := config.retryCount,
    limits := config.limits, cpuThrottle := config.cpuThrottle, confine := config.confine }

/-- Run the command and report on it. -/
def execute (prog : String) (args : Args) (config : RunConfig) (command : String)
    (extraArgs : List String) : MainAct UInt8 UInt8 := do
  let _ ← mainCall .setupSignalForwarding
  let start ← mainCall .preciseNow
  let startNs := (start.map UInt64.toNat).getD 0
  let result ← mainCall (.runWithRetry command extraArgs config)
  let stop ← mainCall .preciseNow
  let elapsedMs := ((stop.map UInt64.toNat).getD startNs - startNs) / 1000000
  match result with
  | .ok (runResult, attempts) => do
    let exitCode := runResult.exitCode args.preserveStatus config.timeoutExitCode
    warnExitCode args runResult
    if args.json then
      printLine (printJsonOutput runResult (reportArgs config elapsedMs exitCode attempts))
    else pure ()
    pure exitCode
  | .error e => do
    reportError prog args e elapsedMs
    pure e.exitCode

/-- `run_main` once the command line is accepted. -/
def runAccepted (env : Environment) (argv0 : String) (accepted : Args) : MainAct UInt8 UInt8 := do
  let args := applyAlias argv0 accepted
  let prog := progName argv0
  let (durationStr, command, extraArgs) ← operands prog args (env "TIMEOUT")
  let config ← configure prog args durationStr
  awaitFile prog args config
  execute prog args config command extraArgs

def runMain (env : Environment) (argv0 : String) (argv : List String) : MainAct UInt8 UInt8 := do
  let args ← acceptArgs env argv
  runAccepted env argv0 args

/-- The status the process exits with. -/
def exitStatus : Except UInt8 UInt8 → UInt8
  | .ok code => code
  | .error code => code

end Procguard
