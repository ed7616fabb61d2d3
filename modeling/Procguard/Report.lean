import Procguard.Json
import Procguard.Retry

/- The exit status of a run and the JSON report about it (`exit_code` of `runner.rs`,
   `print_json_output` and `print_json_error` of `main.rs`). The report is put together
   by string appends with hand-placed commas, and so it is here; `report` is the object
   the appends are meant to write. -/
namespace Procguard

/-! ## Exit codes -/

def exitTimeout : UInt8 := 124
def exitInternalError : UInt8 := 125
def exitCannotInvoke : UInt8 := 126
def exitNotFound : UInt8 := 127

/-- `TimeoutError::exit_code`. -/
def TimeoutError.exitCode : TimeoutError → UInt8
  | .commandNotFound _ => exitNotFound
  | .permissionDenied _ => exitCannotInvoke
  | .waitForFileTimeout _ => exitTimeout
  | .invalidDuration _ | .negativeDuration | .durationOverflow | .invalidMemoryLimit _
  | .invalidCpuTime _ | .invalidCpuPercent _ | .invalidSignal _ | .spawnError _ | .signalError _
  | .processGroupError _ | .resourceLimitError _ | .throttleAttachError _
  | .throttleControlError _ | .internal _ | .waitForFileError _ _ | .timebaseError =>
    exitInternalError

/-- `(n & 0xFF) as u8`. -/
def low8 (n : Int) : UInt8 := UInt8.ofNat (n % 256).toNat

/-- 128 + signum. -/
def signalExitCode (signal : Signal) : UInt8 := low8 (128 + signal.asRaw)

def statusToExitCode (status : RawExitStatus) : UInt8 :=
  match status.signal with
  | some sig => low8 (128 + sig)
  | none => low8 (status.code.getD 1)

/-- The status of a command that was signalled, as if the signal had ended it when unknown. -/
def signalledExitCode (signal : Signal) (killed : Bool) (status : Option RawExitStatus) : UInt8 :=
  match status with
  | some s => statusToExitCode s
  | none => signalExitCode (if killed then .sigkill else signal)

/-- What exit code to return. -/
def RunResult.exitCode (preserveStatus : Bool) (timeoutExitCode : UInt8) : RunResult → UInt8
  | .completed status _ => statusToExitCode status
  | .timedOut signal killed status _ _ _ =>
    if preserveStatus then signalledExitCode signal killed status else timeoutExitCode
  | .memoryLimitExceeded signal killed status _ _ _ =>
    if preserveStatus then signalledExitCode signal killed status else timeoutExitCode
  | .signalForwarded signal status _ => match status with
    | some s => statusToExitCode s
    | none => signalExitCode signal

/-! ## The report, as it is appended -/

def ResourceUsage.userTimeMs (r : ResourceUsage) : Nat := r.userTimeUs / 1000

def ResourceUsage.systemTimeMs (r : ResourceUsage) : Nat := r.systemTimeUs / 1000

/-- `Duration::as_millis`. -/
def Duration.asMillis (d : Duration) : Nat := d.asSecs * 1000 + d.subsecMillis

def schemaVersion : Nat := 8

def clockStr : Confine → String
  | .wall => "wall"
  | .active => "active"

def reasonStr : TimeoutReason → String
  | .wallClock => "wall_clock"
  | .stdinIdle => "stdin_idle"

/-- An integer, or null. -/
def orNull : Option Int → String
  | some c => toString c
  | none => "null"

def appendRusage : Option ResourceUsage → String
  | some r =>
    let user := r.userTimeMs
    let system := r.systemTimeMs
    let rss := r.maxRssKb
    s!",\"user_time_ms\":{user},\"system_time_ms\":{system},\"max_rss_kb\":{rss}"
  | none => ""

def attemptText (a : AttemptResult) : String :=
  let status := a.status.text
  let exitStr := orNull a.exitCode
  let elapsed := a.elapsedMs
  s!"\x7b\"status\":\"{status}\",\"exit_code\":{exitStr},\"elapsed_ms\":{elapsed}\x7d"

/-- The loop over the attempts: a comma before every one but the first. -/
def attemptsText : Nat → List AttemptResult → String
  | _, [] => ""
  | i, a :: as => (if 0 < i then "," else "") ++ attemptText a ++ attemptsText (i + 1) as

def appendAttempts (attempts : List AttemptResult) (retryCount : Nat) : String :=
  if retryCount = 0 then ""
  else
    let count := attempts.length
    s!",\"attempts\":{count}" ++ ",\"attempt_results\":[" ++ attemptsText 0 attempts ++ "]"

def memText (bytes : Nat) : String := s!"\"mem_bytes\":{bytes}"

def cpuTimeText (cpu : Duration) : String :=
  let ms := cpu.asMillis
  s!"\"cpu_time_ms\":{ms}"

def throttleText (cfg : CpuThrottleConfig) : String :=
  let percent := cfg.percent
  let interval := cfg.intervalNs / 1000000
  let sleep := cfg.sleepNs / 1000000
  s!"\"cpu_percent\":{percent},\"cpu_interval_ms\":{interval},\"cpu_sleep_ms\":{sleep}"

/-- A group of fields, after a comma when something was written before. -/
def afterComma (wrote : Bool) (text : String) : String := (if wrote then "," else "") ++ text

def appendLimits (limits : ResourceLimits) (cpuThrottle : Option CpuThrottleConfig) : String :=
  if limits.memBytes.isNone && limits.cpuTime.isNone && cpuThrottle.isNone then ""
  else ",\"limits\":\x7b" ++
    limits.memBytes.elim "" memText ++
    limits.cpuTime.elim "" (fun cpu => afterComma limits.memBytes.isSome (cpuTimeText cpu)) ++
    cpuThrottle.elim ""
      (fun cfg => afterComma (limits.memBytes.isSome || limits.cpuTime.isSome) (throttleText cfg)) ++
    "\x7d"

def appendHook : Option HookResult → String
  | some h =>
    let ran := h.ran
    let code := orNull h.exitCode
    let timedOut := h.timedOut
    let elapsed := h.elapsedMs
    s!",\"hook_ran\":{ran},\"hook_exit_code\":{code},\"hook_timed_out\":{timedOut}" ++
      s!",\"hook_elapsed_ms\":{elapsed}"
  | none => ""

/-- The exit code of the command, -1 when it has none. -/
def commandCode (status : Option RawExitStatus) : Int := (status.bind RawExitStatus.code).getD (-1)

/-- What `print_json_output` is given besides the result. -/
structure ReportArgs where
  elapsedMs : Nat
  exitCode : UInt8
  attempts : List AttemptResult
  retryCount : Nat
  limits : ResourceLimits
  cpuThrottle : Option CpuThrottleConfig
  confine : Confine

/-- The line `print_json_output` prints. -/
def printJsonOutput (result : RunResult) (a : ReportArgs) : String :=
  let v := schemaVersion
  let clock := clockStr a.confine
  let exitCode := a.exitCode
  let elapsed := a.elapsedMs
  let tail := appendAttempts a.attempts a.retryCount ++ appendLimits a.limits a.cpuThrottle ++ "\x7d"
  match result with
  | .completed status rusage =>
    let code := status.code.getD (-1)
    s!"\x7b\"schema_version\":{v},\"status\":\"completed\",\"clock\":\"{clock}\",\"exit_code\":{code}" ++
      s!",\"elapsed_ms\":{elapsed}" ++ appendRusage (some rusage) ++ tail
  | .timedOut signal killed status rusage hook reason =>
    let sigNum := signal.asRaw
    let statusCode := commandCode status
    let sigName := signal.name
    let reason := reasonStr reason
    s!"\x7b\"schema_version\":{v},\"status\":\"timeout\",\"clock\":\"{clock}\"" ++
      s!",\"timeout_reason\":\"{reason}\",\"signal\":\"{sigName}\",\"signal_num\":{sigNum}" ++
      s!",\"killed\":{killed},\"command_exit_code\":{statusCode},\"exit_code\":{exitCode}" ++
      s!",\"elapsed_ms\":{elapsed}" ++ appendRusage rusage ++ appendHook hook ++ tail
  | .memoryLimitExceeded signal killed status rusage limitBytes actualBytes =>
    let sigNum := signal.asRaw
    let statusCode := commandCode status
    let sigName := signal.name
    s!"\x7b\"schema_version\":{v},\"status\":\"memory_limit\",\"clock\":\"{clock}\"" ++
      s!",\"signal\":\"{sigName}\",\"signal_num\":{sigNum},\"killed\":{killed}" ++
      s!",\"command_exit_code\":{statusCode},\"exit_code\":{exitCode},\"elapsed_ms\":{elapsed}" ++
      s!",\"limit_bytes\":{limitBytes},\"actual_bytes\":{actualBytes}" ++ appendRusage rusage ++ tail
  | .signalForwarded signal status rusage =>
    let sigNum := signal.asRaw
    let statusCode := commandCode status
    let sigName := signal.name
    s!"\x7b\"schema_version\":{v},\"status\":\"signal_forwarded\",\"clock\":\"{clock}\"" ++
      s!",\"signal\":\"{sigName}\",\"signal_num\":{sigNum},\"command_exit_code\":{statusCode}" ++
      s!",\"exit_code\":{exitCode},\"elapsed_ms\":{elapsed}" ++ appendRusage rusage ++ tail

/-- `escape_json_string`, character by character. -/
def escapeJsonChar (c : Char) : List Char :=
  match c with
  | '"' => "\\\"".toList
  | '\\' => "\\\\".toList
  | '\n' => "\\n".toList
  | '\r' => "\\r".toList
  | '\t' => "\\t".toList
  | c => if c < ' ' then "\\u".toList ++ Json.hexDigits c.toNat else [c]

def escapeJsonString (s : String) : String := String.ofList (s.toList.flatMap escapeJsonChar)

/-- The line `print_json_error` prints. -/
def printJsonError (err : TimeoutError) (elapsedMs : Nat) : String :=
  let v := schemaVersion
  let exitCode := err.exitCode
  let msg := escapeJsonString err.display
  s!"\x7b\"schema_version\":{v},\"status\":\"error\",\"error\":\"{msg}\"" ++
    s!",\"exit_code\":{exitCode},\"elapsed_ms\":{elapsedMs}\x7d"

end Procguard
