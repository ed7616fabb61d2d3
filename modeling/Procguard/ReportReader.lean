import Procguard.Format
import Procguard.Output

/- What a reader is told by `--json`. `ReportTold` is what the schema of the report can say,
   one shape for each status; `reportFields` is the schema as a format, whose reader gets
   every value back that it writes. The lines that the program puts together by hand are
   texts of that format (`report_eq`, `errorReport_eq`), so nothing of `told` is lost. -/
namespace Procguard
open Json (Format Fields)

/-! ## What a report says -/

structure Usage where
  userTimeMs : Nat
  systemTimeMs : Nat
  maxRssKb : Nat

structure ThrottleTold where
  percent : Nat
  intervalMs : Nat
  sleepMs : Nat

structure LimitsTold where
  memBytes : Option Nat
  cpuTimeMs : Option Nat
  throttle : Option ThrottleTold

/-- What every report on a result ends with. -/
structure Setting where
  attempts : Option (List AttemptResult)
  limits : Option LimitsTold

inductive Shape where
  | completed | timeout | memoryLimit | signalForwarded | error
  deriving DecidableEq

def Shape.status : Shape → String
  | .completed => "completed"
  | .timeout => "timeout"
  | .memoryLimit => "memory_limit"
  | .signalForwarded => "signal_forwarded"
  | .error => "error"

def Shape.ofStatus : String → Option Shape
  | "completed" => some .completed
  | "timeout" => some .timeout
  | "memory_limit" => some .memoryLimit
  | "signal_forwarded" => some .signalForwarded
  | "error" => some .error
  | _ => none

theorem Shape.ofStatus_status (s : Shape) : Shape.ofStatus s.status = some s := by
  cases s <;> rfl

def Shape.all : List Shape := [.completed, .timeout, .memoryLimit, .signalForwarded, .error]

theorem Shape.mem_all (s : Shape) : s ∈ Shape.all := by
  cases s <;> decide

structure CompletedTold where
  clock : Confine
  exitCode : Int
  elapsedMs : Nat
  usage : Usage
  setting : Setting

structure TimeoutTold where
  clock : Confine
  reason : TimeoutReason
  signal : Signal
  killed : Bool
  commandExitCode : Int
  exitCode : Nat
  elapsedMs : Nat
  usage : Option Usage
  hook : Option HookResult
  setting : Setting

structure MemoryLimitTold where
  clock : Confine
  signal : Signal
  killed : Bool
  commandExitCode : Int
  exitCode : Nat
  elapsedMs : Nat
  limitBytes : Nat
  actualBytes : Nat
  usage : Option Usage
  setting : Setting

structure ForwardedTold where
  clock : Confine
  signal : Signal
  commandExitCode : Int
  exitCode : Nat
  elapsedMs : Nat
  usage : Option Usage
  setting : Setting

structure ErrorTold where
  error : String
  exitCode : Nat
  elapsedMs : Nat

/-- What a report says beside its status. -/
def Shape.Body : Shape → Type
  | .completed => CompletedTold
  | .timeout => TimeoutTold
  | .memoryLimit => MemoryLimitTold
  | .signalForwarded => ForwardedTold
  | .error => ErrorTold

abbrev ReportTold := (s : Shape) × s.Body

/-! ## The schema -/

def clockOfStr : String → Option Confine
  | "wall" => some .wall
  | "active" => some .active
  | _ => none

theorem clockOfStr_str (c : Confine) : clockOfStr (clockStr c) = some c := by
  cases c <;> rfl

def clockFormat : Format Confine := .named clockStr clockOfStr clockOfStr_str

def reasonOf : String → Option TimeoutReason
  | "wall_clock" => some .wallClock
  | "stdin_idle" => some .stdinIdle
  | _ => none

theorem reasonOf_str (r : TimeoutReason) : reasonOf (reasonStr r) = some r := by
  cases r <;> rfl

def reasonFormat : Format TimeoutReason := .named reasonStr reasonOf reasonOf_str

def attemptStatusOf : String → Option AttemptStatus
  | "completed" => some .completed
  | "timeout" => some .timeout
  | "signal_forwarded" => some .signalForwarded
  | _ => none

theorem attemptStatusOf_text (s : AttemptStatus) : attemptStatusOf s.text = some s := by
  cases s <;> rfl

def attemptStatusFormat : Format AttemptStatus :=
  .named AttemptStatus.text attemptStatusOf attemptStatusOf_text

/-- A name is read as the signal whose name it is. -/
def signalOfName (s : String) : Option Signal :=
  (signalNames.find? fun row => row.2.name = s).map Prod.snd

theorem signalOfName_name (s : Signal) : signalOfName s.name = some s := by
  cases s <;> decide

def signalNumOf (v : Json) : Option Signal := (Format.readInt v).bind Signal.tryFromRaw

theorem signalNumOf_num (s : Signal) : signalNumOf (.num s.asRaw) = some s :=
  Signal.tryFromRaw_asRaw s

def signalNumFormat : Format Signal where
  write s := .num s.asRaw
  read := signalNumOf
  read_write := signalNumOf_num

def usageFields : Fields Usage :=
  ((Fields.one "user_time_ms" .nat).also ((Fields.one "system_time_ms" .nat).also
    (.one "max_rss_kb" .nat) (by decide)) (by decide)).as
    (fun p => ⟨p.1, p.2.1, p.2.2⟩) (fun u => (u.userTimeMs, u.systemTimeMs, u.maxRssKb)) fun _ => rfl

/-- A signal stands in a report by its name and by its number. -/
def signalFields : Fields Signal :=
  ((Fields.one "signal" (.named Signal.name signalOfName signalOfName_name)).also
    (.one "signal_num" signalNumFormat) (by decide)).as (fun p => p.1) (fun s => (s, s)) fun _ => rfl

def attemptFields : Fields AttemptResult :=
  ((Fields.one "status" attemptStatusFormat).also ((Fields.one "exit_code" .intOrNull).also
    (.one "elapsed_ms" .nat) (by decide)) (by decide)).as
    (fun p => ⟨p.1, p.2.1, p.2.2⟩) (fun a => (a.status, a.exitCode, a.elapsedMs)) fun _ => rfl

/-- The count, and the attempts that it counts. -/
def attemptsFields : Fields (List AttemptResult) :=
  ((Fields.one "attempts" .nat).also (.one "attempt_results" (.list attemptFields.object))
    (by decide)).as (fun p => p.2) (fun as => (as.length, as)) fun _ => rfl

def throttleFields : Fields ThrottleTold :=
  ((Fields.one "cpu_percent" .nat).also ((Fields.one "cpu_interval_ms" .nat).also
    (.one "cpu_sleep_ms" .nat) (by decide)) (by decide)).as
    (fun p => ⟨p.1, p.2.1, p.2.2⟩) (fun t => (t.percent, t.intervalMs, t.sleepMs)) fun _ => rfl

def limitsFields : Fields LimitsTold :=
  (((Fields.one "mem_bytes" .nat).opt "mem_bytes" (by decide) fun _ => rfl).also
    (((Fields.one "cpu_time_ms" .nat).opt "cpu_time_ms" (by decide) fun _ => rfl).also
      (throttleFields.opt "cpu_percent" (by decide) fun _ => rfl) (by decide)) (by decide)).as
    (fun p => ⟨p.1, p.2.1, p.2.2⟩) (fun l => (l.memBytes, l.cpuTimeMs, l.throttle)) fun _ => rfl

def optAttemptsFields : Fields (Option (List AttemptResult)) :=
  attemptsFields.opt "attempts" (by decide) fun _ => rfl

def optLimitsFields : Fields (Option LimitsTold) :=
  (Fields.one "limits" limitsFields.object).opt "limits" (by decide) fun _ => rfl

def settingFields : Fields Setting :=
  (optAttemptsFields.also optLimitsFields (by decide)).as
    (fun p => ⟨p.1, p.2⟩) (fun s => (s.attempts, s.limits)) fun _ => rfl

def hookFields : Fields HookResult :=
  ((Fields.one "hook_ran" .bool).also ((Fields.one "hook_exit_code" .intOrNull).also
    ((Fields.one "hook_timed_out" .bool).also (.one "hook_elapsed_ms" .nat) (by decide))
    (by decide)) (by decide)).as
    (fun p => ⟨p.1, p.2.1, p.2.2.1, p.2.2.2⟩)
    (fun h => (h.ran, h.exitCode, h.timedOut, h.elapsedMs)) fun _ => rfl

def optHookFields : Fields (Option HookResult) :=
  hookFields.opt "hook_ran" (by decide) fun _ => rfl

def optUsageFields : Fields (Option Usage) :=
  usageFields.opt "user_time_ms" (by decide) fun _ => rfl

/-- The codes and the time that every report on a signalled command states. -/
def codesFields : Fields (Int × Nat × Nat) :=
  (Fields.one "command_exit_code" .int).also ((Fields.one "exit_code" .nat).also
    (.one "elapsed_ms" .nat) (by decide)) (by decide)

def completedFields : Fields CompletedTold :=
  ((Fields.one "clock" clockFormat).also ((Fields.one "exit_code" .int).also
    ((Fields.one "elapsed_ms" .nat).also (usageFields.also settingFields (by decide))
    (by decide)) (by decide)) (by decide)).as
    (fun p => ⟨p.1, p.2.1, p.2.2.1, p.2.2.2.1, p.2.2.2.2⟩)
    (fun c => (c.clock, c.exitCode, c.elapsedMs, c.usage, c.setting)) fun _ => rfl

def timeoutFields : Fields TimeoutTold :=
  ((Fields.one "clock" clockFormat).also ((Fields.one "timeout_reason" reasonFormat).also
    (signalFields.also ((Fields.one "killed" .bool).also (codesFields.also
      (optUsageFields.also (optHookFields.also settingFields (by decide)) (by decide)) (by decide))
      (by decide)) (by decide)) (by decide)) (by decide)).as
    (fun p => ⟨p.1, p.2.1, p.2.2.1, p.2.2.2.1, p.2.2.2.2.1.1, p.2.2.2.2.1.2.1, p.2.2.2.2.1.2.2,
      p.2.2.2.2.2.1, p.2.2.2.2.2.2.1, p.2.2.2.2.2.2.2⟩)
    (fun t => (t.clock, t.reason, t.signal, t.killed, (t.commandExitCode, t.exitCode, t.elapsedMs),
      t.usage, t.hook, t.setting)) fun _ => rfl

def memoryLimitFields : Fields MemoryLimitTold :=
  ((Fields.one "clock" clockFormat).also (signalFields.also ((Fields.one "killed" .bool).also
    (codesFields.also ((Fields.one "limit_bytes" .nat).also ((Fields.one "actual_bytes" .nat).also
      (optUsageFields.also settingFields (by decide)) (by decide)) (by decide)) (by decide))
    (by decide)) (by decide)) (by decide)).as
    (fun p => ⟨p.1, p.2.1, p.2.2.1, p.2.2.2.1.1, p.2.2.2.1.2.1, p.2.2.2.1.2.2, p.2.2.2.2.1,
      p.2.2.2.2.2.1, p.2.2.2.2.2.2.1, p.2.2.2.2.2.2.2⟩)
    (fun m => (m.clock, m.signal, m.killed, (m.commandExitCode, m.exitCode, m.elapsedMs),
      m.limitBytes, m.actualBytes, m.usage, m.setting)) fun _ => rfl

def forwardedFields : Fields ForwardedTold :=
  ((Fields.one "clock" clockFormat).also (signalFields.also (codesFields.also
    (optUsageFields.also settingFields (by decide)) (by decide)) (by decide)) (by decide)).as
    (fun p => ⟨p.1, p.2.1, p.2.2.1.1, p.2.2.1.2.1, p.2.2.1.2.2, p.2.2.2.1, p.2.2.2.2⟩)
    (fun f => (f.clock, f.signal, (f.commandExitCode, f.exitCode, f.elapsedMs), f.usage, f.setting))
    fun _ => rfl

def errorFields : Fields ErrorTold :=
  ((Fields.one "error" .text).also ((Fields.one "exit_code" .nat).also
    (.one "elapsed_ms" .nat) (by decide)) (by decide)).as
    (fun p => ⟨p.1, p.2.1, p.2.2⟩) (fun e => (e.error, e.exitCode, e.elapsedMs)) fun _ => rfl

def Shape.fields : (s : Shape) → Fields s.Body
  | .completed => completedFields
  | .timeout => timeoutFields
  | .memoryLimit => memoryLimitFields
  | .signalForwarded => forwardedFields
  | .error => errorFields

theorem Shape.status_key (s : Shape) : "status" ∉ s.fields.keys := by
  cases s <;> decide

def bodyFields : Fields ReportTold :=
  .choice "status" Shape.status Shape.ofStatus Shape.ofStatus_status Shape.all Shape.mem_all
    Shape.fields Shape.status_key

theorem schema_key : ∀ k ∈ (Fields.one "schema_version" (.fixed schemaVersion)).keys,
    k ∉ bodyFields.keys := by
  decide

/-- A report: its version, its status and what goes with the status. -/
def reportFields : Fields ReportTold :=
  ((Fields.one "schema_version" (.fixed schemaVersion)).also bodyFields schema_key).as
    (fun p => p.2) (fun t => ((), t)) fun _ => rfl

/-- What a line tells a reader. -/
def readReport (line : String) : Option ReportTold :=
  (Json.parse line.toList).bind reportFields.object.read

/-! ## What the lines say -/

def usageTold (r : ResourceUsage) : Usage := ⟨r.userTimeMs, r.systemTimeMs, r.maxRssKb⟩

def throttleTold (cfg : CpuThrottleConfig) : ThrottleTold :=
  ⟨cfg.percent, cfg.intervalNs / 1000000, cfg.sleepNs / 1000000⟩

def limitsTold (limits : ResourceLimits) (cpuThrottle : Option CpuThrottleConfig) :
    Option LimitsTold :=
  if limits.memBytes.isNone && limits.cpuTime.isNone && cpuThrottle.isNone then none
  else some ⟨limits.memBytes, limits.cpuTime.map Duration.asMillis, cpuThrottle.map throttleTold⟩

def settingTold (a : ReportArgs) : Setting :=
  ⟨if a.retryCount = 0 then none else some a.attempts, limitsTold a.limits a.cpuThrottle⟩

/-- What the report on a result says. -/
def told (result : RunResult) (a : ReportArgs) : ReportTold :=
  match result with
  | .completed status rusage => ⟨.completed, ({
      clock := a.confine
      exitCode := status.code.getD (-1)
      elapsedMs := a.elapsedMs
      usage := usageTold rusage
      setting := settingTold a } : CompletedTold)⟩
  | .timedOut signal killed status rusage hook reason => ⟨.timeout, ({
      clock := a.confine
      reason, signal, killed
      commandExitCode := commandCode status
      exitCode := a.exitCode.toNat
      elapsedMs := a.elapsedMs
      usage := rusage.map usageTold
      hook
      setting := settingTold a } : TimeoutTold)⟩
  | .memoryLimitExceeded signal killed status rusage limitBytes actualBytes => ⟨.memoryLimit, ({
      clock := a.confine
      signal, killed
      commandExitCode := commandCode status
      exitCode := a.exitCode.toNat
      elapsedMs := a.elapsedMs
      limitBytes, actualBytes
      usage := rusage.map usageTold
      setting := settingTold a } : MemoryLimitTold)⟩
  | .signalForwarded signal status rusage => ⟨.signalForwarded, ({
      clock := a.confine
      signal
      commandExitCode := commandCode status
      exitCode := a.exitCode.toNat
      elapsedMs := a.elapsedMs
      usage := rusage.map usageTold
      setting := settingTold a } : ForwardedTold)⟩

def errorTold (e : TimeoutError) (elapsedMs : Nat) : ReportTold :=
  ⟨.error, ({ error := e.display, exitCode := e.exitCode.toNat, elapsedMs } : ErrorTold)⟩

/-! ## The lines are texts of the schema -/

theorem usage_write (r : Option ResourceUsage) :
    optUsageFields.write (r.map usageTold) = rusageMembers r := by
  cases r <;> rfl

theorem hook_write (h : Option HookResult) :
    optHookFields.write h = hookMembers h := by
  cases h with
  | none => rfl
  | some h => obtain ⟨ran, code, timedOut, elapsed⟩ := h; cases code <;> rfl

theorem attempt_write (a : AttemptResult) : attemptFields.object.write a = attemptJson a := by
  obtain ⟨status, code, elapsed⟩ := a
  cases code <;> rfl

theorem limits_write (limits : ResourceLimits) (cpuThrottle : Option CpuThrottleConfig) :
    optLimitsFields.write (limitsTold limits cpuThrottle) = limitsMember limits cpuThrottle := by
  obtain ⟨mem, cpu⟩ := limits
  cases mem <;> cases cpu <;> cases cpuThrottle <;> rfl

theorem attempts_write (as : List AttemptResult) (retryCount : Nat) :
    optAttemptsFields.write (if retryCount = 0 then none else some as) =
      attemptMembers as retryCount := by
  have hlist : as.map attemptFields.object.write = as.map attemptJson :=
    List.map_congr_left fun a _ => attempt_write a
  unfold attemptMembers
  split
  · rfl
  · show [("attempts", Json.num as.length),
      ("attempt_results", Json.arr (as.map attemptFields.object.write))] = _
    rw [hlist]

theorem setting_write (a : ReportArgs) :
    settingFields.write (settingTold a) =
      attemptMembers a.attempts a.retryCount ++ limitsMember a.limits a.cpuThrottle := by
  rw [← attempts_write, ← limits_write]
  rfl

/-- The report on a result is what the schema writes of it. -/
theorem report_eq (result : RunResult) (a : ReportArgs) :
    report result a = reportFields.object.write (told result a) := by
  unfold report reportMembers
  -- all results end with the same members; what stands before goes by the result
  rw [List.append_assoc, ← setting_write]
  cases result with
  | completed status rusage => rfl
  | timedOut signal killed status rusage hook reason =>
    simp only [resultMembers, ← usage_write, ← hook_write, List.append_assoc]
    rfl
  | memoryLimitExceeded signal killed status rusage limitBytes actualBytes =>
    simp only [resultMembers, ← usage_write, List.append_assoc]
    rfl
  | signalForwarded signal status rusage =>
    simp only [resultMembers, ← usage_write, List.append_assoc]
    rfl

theorem errorReport_eq (e : TimeoutError) (ms : Nat) :
    errorReport e ms = reportFields.object.write (errorTold e ms) :=
  rfl

/-! ## Reading the lines -/

theorem readReport_of_parse {line : String} {t : ReportTold}
    (h : Json.parse line.toList = some (reportFields.object.write t)) : readReport line = some t := by
  unfold readReport
  rw [h, Option.bind_some, reportFields.object.read_write]

/-- **The report reads back**: from the line of a result, or of an error, a reader gets exactly
    what was to be told, also when the members were put in another order or stand among others;
    so two lines agree just where they tell the same. -/
theorem report_reads_back :
    (∀ (result : RunResult) (a : ReportArgs),
      readReport (printJsonOutput result a) = some (told result a)) ∧
    (∀ (e : TimeoutError) (ms : Nat), readReport (printJsonError e ms) = some (errorTold e ms)) ∧
    (∀ (result : RunResult) (a : ReportArgs) (v : Json),
      (∀ k ∈ reportFields.keys, v.field k = (report result a).field k) →
      reportFields.object.read v = some (told result a)) ∧
    ∀ (result result' : RunResult) (a a' : ReportArgs),
      printJsonOutput result a = printJsonOutput result' a' ↔ told result a = told result' a' := by
  have hresult : ∀ (result : RunResult) (a : ReportArgs),
      readReport (printJsonOutput result a) = some (told result a) := by
    intro result a
    apply readReport_of_parse
    rw [printJsonOutput_parse, report_eq]
  refine ⟨hresult, ?_, ?_, ?_⟩
  · intro e ms
    apply readReport_of_parse
    rw [printJsonError_parse, errorReport_eq]
  · intro result a v hv
    apply reportFields.read_object
    rw [← report_eq]
    exact hv
  · intro result result' a a'
    constructor
    · intro hline
      -- two lines alike are parsed to one object, and the schema writes no two values alike
      have hobject : some (report result a) = some (report result' a') := by
        rw [← printJsonOutput_parse, hline, printJsonOutput_parse]
      apply reportFields.object.write_inj
      rw [← report_eq, ← report_eq]
      exact Option.some.inj hobject
    · intro htold
      apply String.toList_injective
      rw [printJsonOutput_text, printJsonOutput_text, report_eq, report_eq, htold]

end Procguard
