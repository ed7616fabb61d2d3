import Procguard.Main

/- What each part of `run_main` prints and how it ends. A part is described by what it
   adds to stdout and, under `-q`, to stderr, and by the runs it starts: none, but for
   `execute`. Whether a part goes on depends on the command line and the environment
   only, except for the wait for a file and the run itself. -/
namespace Procguard
open Interact

/-! ## What is printed -/

/-- A piece of output on stdout: a line, or one of the fixed texts. -/
inductive Output where
  | line (s : String)
  | help
  | version
  deriving DecidableEq, Repr

def MainCall.stdout : MainCall → List Output
  | .println s => [.line s]
  | .printHelp => [.help]
  | .printVersion => [.version]
  | _ => []

def MainCall.stderr : MainCall → List String
  | .eprintln s => [s]
  | _ => []

def MainCall.started : MainCall → List (String × List String × RunConfig)
  | .runWithRetry command args config => [(command, args, config)]
  | _ => []

abbrev MainLog := Log MainCall.Ans

/-- Everything on stdout, the last piece first. -/
def stdoutOf (l : MainLog) : List Output := l.flatMap fun e => e.req.stdout

/-- Every line on stderr, the last one first. -/
def stderrOf (l : MainLog) : List String := l.flatMap fun e => e.req.stderr

/-- The runs that were started, the last one first. -/
def startedIn (l : MainLog) : List (String × List String × RunConfig) :=
  l.flatMap fun e => e.req.started

/-- What a part of the program adds: to stdout, to stderr if that is meant to be quiet, and
    to the runs. -/
structure Adds (quiet : Bool) (out : List Output) (err : List String)
    (runs : List (String × List String × RunConfig)) (l l' : MainLog) : Prop where
  stdout : stdoutOf l' = out ++ stdoutOf l
  stderr : quiet = true → stderrOf l' = err ++ stderrOf l
  started : startedIn l' = runs ++ startedIn l

namespace Adds
variable {quiet : Bool} {out out' : List Output} {err err' : List String}
  {runs runs' : List (String × List String × RunConfig)} {l l₁ l₂ : MainLog}

theorem refl (l : MainLog) : Adds quiet [] [] [] l l := ⟨rfl, fun _ => rfl, rfl⟩

theorem trans (h : Adds quiet out err runs l l₁) (h' : Adds quiet out' err' runs' l₁ l₂) :
    Adds quiet (out' ++ out) (err' ++ err) (runs' ++ runs) l l₂ := by
  refine ⟨?_, ?_, ?_⟩
  · rw [h'.stdout, h.stdout, List.append_assoc]
  · intro hq
    rw [h'.stderr hq, h.stderr hq, List.append_assoc]
  · rw [h'.started, h.started, List.append_assoc]

/-- After a part that adds nothing, what the rest adds is all that is added. -/
theorem after (h : Adds quiet [] [] [] l l₁) (h' : Adds quiet out err runs l₁ l₂) :
    Adds quiet out err runs l l₂ := by
  have hall := h.trans h'
  rwa [List.append_nil, List.append_nil, List.append_nil] at hall

theorem event (q : MainCall) (a : q.Ans) (l : MainLog) :
    Adds quiet q.stdout q.stderr q.started l (⟨q, a⟩ :: l) := ⟨rfl, fun _ => rfl, rfl⟩

/-- A line on stderr where nothing is meant to be quiet. -/
theorem loud (s : String) (a : Unit) (l : MainLog) :
    Adds false [] [] [] l (⟨.eprintln s, a⟩ :: l) := ⟨rfl, nofun, rfl⟩

end Adds

/-! ## The parts that only print -/

section parts
variable {W : Env MainCall.Ans} {ε : Type} {l : MainLog} {quiet : Bool}

/-- The contract under which `W` answers. -/
abbrev AnswersOf (W : Env MainCall.Ans) : Contract MainCall.Ans := Prog.answers W

theorem eprintLine_adds (line : String) :
    (eprintLine line : MainAct ε Unit).Ensures (AnswersOf W) () l fun r _ l' =>
      r = .ok () ∧ Adds quiet [] [line] [] l l' :=
  fun a _ => ⟨trivial, rfl, .event (.eprintln line) a l⟩

theorem printLine_adds (line : String) :
    (printLine line : MainAct ε Unit).Ensures (AnswersOf W) () l fun r _ l' =>
      r = .ok () ∧ Adds quiet [.line line] [] [] l l' :=
  fun a _ => ⟨trivial, rfl, .event (.println line) a l⟩

/-- A line that `-q` silences. -/
theorem unless_quiet_adds {c : Bool} (line : String) (h : quiet = true → c = false) :
    (if c then eprintLine line else pure () : MainAct ε Unit).Ensures (AnswersOf W) () l
      fun r _ l' => r = .ok () ∧ Adds quiet [] [] [] l l' := by
  cases c with
  | false => exact ⟨rfl, .refl l⟩
  | true =>
    cases quiet with
    | true => exact absurd (h rfl) (by decide)
    | false => exact fun a _ => ⟨trivial, rfl, .loud line a l⟩

theorem complain_adds (args : Args) (line : String) :
    (complain args line).Ensures (AnswersOf W) () l fun r _ l' =>
      r = .ok () ∧ Adds args.quiet [] [] [] l l' := by
  refine unless_quiet_adds line fun hq => ?_
  rw [hq]
  rfl

theorem verboseLine_adds (args : Args) (line : String) :
    (verboseLine args line).Ensures (AnswersOf W) () l fun r _ l' =>
      r = .ok () ∧ Adds args.quiet [] [] [] l l' := by
  refine unless_quiet_adds line fun hq => ?_
  rw [hq, Bool.not_true, Bool.and_false]

end parts

/-! ## The configuration -/

/-- The configuration but for what is printed while it is made. -/
def configWith (args : Args) (timeout : Duration) : Except TimeoutError RunConfig := do
  let signal ← parseSignal args.signal
  let killAfter ← optional parseDuration args.killAfter
  let onTimeoutLimit ← parseDuration args.onTimeoutLimit
  let retryCount ← optional parseRetryCount args.retry
  let retryDelay ← optional parseDuration args.retryDelay
  let retryBackoff ← optional parseBackoff args.retryBackoff
  let heartbeat ← optional parseDuration args.heartbeat
  let stdinTimeout ← optional parseDuration args.stdinTimeout
  let memLimit ← optional parseMemLimit args.memLimit
  let cpuTime ← optional parseCpuTime args.cpuTime
  let percent ← optional parseCpuPercent args.cpuPercent
  if args.stdinPassthrough && stdinTimeout.isNone then
    .error (.internal "--stdin-passthrough requires --stdin-timeout")
  else
    .ok {
      timeout, signal, killAfter
      foreground := args.foreground
      verbose := args.verbose
      quiet := args.quiet
      timeoutExitCode := args.timeoutExitCode.getD exitTimeout
      onTimeout := args.onTimeout
      onTimeoutLimit
      confine := args.confine
      retryCount := retryCount.getD 0
      retryDelay := retryDelay.getD .zero
      retryBackoff := max (retryBackoff.getD 1) 1
      heartbeat, stdinTimeout
      stdinPassthrough := args.stdinPassthrough
      limits := { memBytes := memLimit, cpuTime }
      cpuThrottle := percent.map throttleConfig }

/-- The configuration of a run with that duration. -/
def configOf (args : Args) (durationStr : String) : Except TimeoutError RunConfig :=
  parseDuration durationStr >>= configWith args

/-- Whether the hook is found to outlast the timeout. -/
def hookWarned (args : Args) (durationStr : String) : Bool :=
  match parseDuration durationStr, parseDuration args.onTimeoutLimit with
  | .ok timeout, .ok limit => hookOutlasts args timeout limit
  | _, _ => false

def hookLimitLine (args : Args) (durationStr : String) : String :=
  let limit := args.onTimeoutLimit
  s!"warning: --on-timeout-limit ({limit}) exceeds main timeout ({durationStr})"

/-- What making the configuration writes to stderr in spite of `-q`. -/
def configLines (args : Args) (durationStr : String) (r : Except TimeoutError RunConfig) :
    List String :=
  if r.isOk && hookWarned args durationStr then [hookLimitLine args durationStr] else []

section config
variable {W : Env MainCall.Ans} {l : MainLog} {α β ε : Type}

/-- `?`, followed by the rest: the rest sees the value, an error ends it. -/
theorem orThrow_bind_ensures {x : Except ε α} {f : α → MainAct ε β} {g : α → Except ε β}
    {P : Except ε β → MainLog → Prop} (herr : ∀ e, P (.error e) l)
    (h : ∀ a, x = .ok a →
      (f a).Ensures (AnswersOf W) () l fun r _ l' => r = g a ∧ P r l') :
    (orThrow x >>= f).Ensures (AnswersOf W) () l fun r _ l' => r = (x >>= g) ∧ P r l' := by
  rw [orThrow, Act.ensures_bind, Act.ensures_lift]
  cases x with
  | error e => exact ⟨rfl, herr e⟩
  | ok a => exact h a rfl

theorem warnLowPercent_adds (args : Args) (percent : Option Percent) :
    (warnLowPercent args percent).Ensures (AnswersOf W) () l fun r _ l' =>
      r = .ok () ∧ Adds args.quiet [] [] [] l l' := by
  cases percent with
  | none => exact ⟨rfl, .refl l⟩
  | some p =>
    refine unless_quiet_adds _ fun hq => ?_
    rw [hq, Bool.not_true, Bool.and_false]

theorem warnHookLimit_adds (args : Args) (durationStr : String) (timeout limit : Duration) :
    (warnHookLimit args durationStr timeout limit).Ensures (AnswersOf W) () l fun r _ l' =>
      r = .ok () ∧ Adds args.quiet []
        (if hookOutlasts args timeout limit then [hookLimitLine args durationStr] else []) [] l l' := by
  unfold warnHookLimit
  cases hookOutlasts args timeout limit with
  | false => exact ⟨rfl, .refl l⟩
  | true => exact eprintLine_adds _

/-- `RunConfig::from_args`: the configuration, and the warning about the hook. -/
theorem fromArgs_adds (args : Args) (durationStr : String) :
    (fromArgs args durationStr).Ensures (AnswersOf W) () l fun r _ l' =>
      r = configOf args durationStr ∧
        Adds args.quiet [] (configLines args durationStr r) [] l l' := by
  have herr : ∀ e, Adds args.quiet [] (configLines args durationStr (.error e)) [] l l :=
    fun _ => .refl l
  unfold fromArgs configOf
  refine orThrow_bind_ensures herr fun timeout htimeout => ?_
  unfold configWith
  refine orThrow_bind_ensures herr fun signal _ => ?_
  refine orThrow_bind_ensures herr fun killAfter _ => ?_
  refine orThrow_bind_ensures herr fun limit hlimit => ?_
  refine orThrow_bind_ensures herr fun retryCount _ => ?_
  refine orThrow_bind_ensures herr fun retryDelay _ => ?_
  refine orThrow_bind_ensures herr fun retryBackoff _ => ?_
  refine orThrow_bind_ensures herr fun heartbeat _ => ?_
  refine orThrow_bind_ensures herr fun stdinTimeout _ => ?_
  refine orThrow_bind_ensures herr fun memLimit _ => ?_
  refine orThrow_bind_ensures herr fun cpuTime _ => ?_
  refine orThrow_bind_ensures herr fun percent _ => ?_
  rw [Act.ensures_bind]
  refine (warnLowPercent_adds args percent).mono fun r _ l₁ h₁ => ?_
  obtain ⟨rfl, hadds₁⟩ := h₁
  dsimp only
  have hwarned : hookWarned args durationStr = hookOutlasts args timeout limit := by
    unfold hookWarned
    rw [htimeout, hlimit]
  by_cases hpass : (args.stdinPassthrough && stdinTimeout.isNone) = true
  · rw [if_pos hpass, if_pos hpass]
    exact ⟨rfl, hadds₁⟩
  · rw [if_neg hpass, if_neg hpass, Act.ensures_bind]
    refine (warnHookLimit_adds args durationStr timeout limit).mono fun r _ l₂ h₂ => ?_
    obtain ⟨rfl, hadds₂⟩ := h₂
    refine ⟨rfl, ?_⟩
    rw [configLines, hwarned]
    exact hadds₁.after hadds₂

end config

/-! ## From the operands to the run -/

/-- Duration, command and arguments, or the exit status without them. -/
def operandsOf (args : Args) (timeoutEnv : Option String) :
    Except UInt8 (String × String × List String) :=
  let res := resolveArgs args timeoutEnv
  match res.duration, res.command with
  | some d, some c => .ok (d, c, res.args)
  | _, _ => .error exitInternalError

/-- What the resolution writes to stderr in spite of `-q`. -/
def operandLines (args : Args) (timeoutEnv : Option String) : List String :=
  (resolveArgs args timeoutEnv).warning.toList

def waitTimeoutOf (args : Args) : Except TimeoutError (Option Duration) :=
  optional parseDuration args.waitForFileTimeout

/-- There is no file to wait for, or its timeout is readable. -/
def waitReadable (args : Args) : Bool := args.waitForFile.isNone || (waitTimeoutOf args).isOk

/-- What a timeout with a custom exit code writes to stderr in spite of `-q`. -/
def exitLines (args : Args) (result : RunResult) : List String :=
  match reservedExitCode args result with
  | some code => [s!"warning: --timeout-exit-code {code} may conflict with reserved exit codes (125-137)"]
  | none => []

/-- The line of a report, if one is asked for. -/
def reported (args : Args) (line : String) : List Output := if args.json then [.line line] else []

section run
variable {W : Env MainCall.Ans} {l : MainLog}

theorem operands_adds (prog : String) (args : Args) (timeoutEnv : Option String) :
    (operands prog args timeoutEnv).Ensures (AnswersOf W) () l fun r _ l' =>
      r = operandsOf args timeoutEnv ∧
        Adds args.quiet [] (operandLines args timeoutEnv) [] l l' := by
  unfold operands operandsOf operandLines
  dsimp only
  have hstop : ∀ line l₁, Adds args.quiet [] (resolveArgs args timeoutEnv).warning.toList [] l l₁ →
      ((do complain args line; Act.throw exitInternalError) :
        MainAct UInt8 (String × String × List String)).Ensures (AnswersOf W) () l₁ fun r _ l' =>
        r = .error exitInternalError ∧
          Adds args.quiet [] (resolveArgs args timeoutEnv).warning.toList [] l l' := by
    intro line l₁ h₁
    rw [Act.ensures_bind]
    refine (complain_adds args line).mono fun r _ l₂ h₂ => ?_
    obtain ⟨rfl, hadds⟩ := h₂
    exact ⟨rfl, h₁.trans hadds⟩
  cases hw : (resolveArgs args timeoutEnv).warning with
  | none =>
    rw [hw] at hstop
    cases (resolveArgs args timeoutEnv).duration with
    | none => exact hstop _ l (.refl l)
    | some d =>
      cases (resolveArgs args timeoutEnv).command with
      | none => exact hstop _ l (.refl l)
      | some c => exact ⟨rfl, .refl l⟩
  | some warning =>
    rw [hw] at hstop
    dsimp only
    rw [Act.ensures_bind]
    refine (@eprintLine_adds W _ l args.quiet warning).mono fun r _ l₁ h₁ => ?_
    obtain ⟨rfl, hadds⟩ := h₁
    dsimp only
    cases (resolveArgs args timeoutEnv).duration with
    | none => exact hstop _ l₁ hadds
    | some d =>
      cases (resolveArgs args timeoutEnv).command with
      | none => exact hstop _ l₁ hadds
      | some c => exact ⟨rfl, hadds⟩

theorem configure_adds (prog : String) (args : Args) (durationStr : String) :
    (configure prog args durationStr).Ensures (AnswersOf W) () l fun r _ l' =>
      r = (configOf args durationStr).mapError TimeoutError.exitCode ∧
        Adds args.quiet [] (configLines args durationStr (configOf args durationStr)) [] l l' := by
  unfold configure
  rw [Act.ensures_bind, Act.ensures_attempt]
  refine (fromArgs_adds args durationStr).mono fun r _ l₁ h₁ => ?_
  obtain ⟨rfl, hadds⟩ := h₁
  dsimp only
  cases hc : configOf args durationStr with
  | ok config =>
    rw [hc] at hadds
    exact ⟨rfl, hadds⟩
  | error e =>
    rw [hc] at hadds
    dsimp only
    rw [Act.ensures_bind]
    refine (complain_adds args _).mono fun r _ l₂ h₂ => ?_
    obtain ⟨rfl, hadds₂⟩ := h₂
    exact ⟨rfl, hadds.trans hadds₂⟩

theorem readWaitTimeout_adds (prog : String) (args : Args) :
    (readWaitTimeout prog args).Ensures (AnswersOf W) () l fun r _ l' =>
      r = (waitTimeoutOf args).mapError (fun _ => exitInternalError) ∧
        Adds args.quiet [] [] [] l l' := by
  unfold readWaitTimeout waitTimeoutOf
  cases optional parseDuration args.waitForFileTimeout with
  | ok t => exact ⟨rfl, .refl l⟩
  | error e =>
    dsimp only
    rw [Act.ensures_bind]
    refine (complain_adds args _).mono fun r _ l₁ h₁ => ?_
    obtain ⟨rfl, hadds⟩ := h₁
    exact ⟨rfl, hadds⟩

/-- An error of the wait or of the run goes into the report, if there is one. -/
theorem reportError_adds (prog : String) (args : Args) (e : TimeoutError) (ms : Nat) :
    (reportError prog args e ms).Ensures (AnswersOf W) () l fun r _ l' =>
      r = .ok () ∧ Adds args.quiet (reported args (printJsonError e ms)) [] [] l l' := by
  unfold reportError reported
  cases args.json with
  | true => exact printLine_adds _
  | false => exact complain_adds args _

/-- How the wait for a file ends: with the run to come, or with the exit status and a report. -/
inductive FileAwaited (args : Args) : Except UInt8 Unit → List Output → Prop where
  | found (h : waitReadable args = true) : FileAwaited args (.ok ()) []
  | unreadable (h : waitReadable args = false) : FileAwaited args (.error exitInternalError) []
  | failed (e : TimeoutError) (h : waitReadable args = true) :
      FileAwaited args (.error e.exitCode) (reported args (printJsonError e 0))

theorem awaitFile_adds (prog : String) (args : Args) (config : RunConfig) :
    (awaitFile prog args config).Ensures (AnswersOf W) () l fun r _ l' =>
      ∃ out, FileAwaited args r out ∧ Adds args.quiet out [] [] l l' := by
  unfold awaitFile
  cases hf : args.waitForFile with
  | none => exact ⟨[], .found (by rw [waitReadable, hf]; rfl), .refl l⟩
  | some path =>
    have hreadable : waitReadable args = (waitTimeoutOf args).isOk := by
      rw [waitReadable, hf]
      rfl
    dsimp only
    rw [Act.ensures_bind]
    refine (readWaitTimeout_adds prog args).mono fun r _ l₁ h₁ => ?_
    obtain ⟨rfl, hadds₁⟩ := h₁
    cases hw : waitTimeoutOf args with
    | error e => exact ⟨[], .unreadable (by rw [hreadable, hw]; rfl), hadds₁⟩
    | ok t =>
      have hok : waitReadable args = true := by
        rw [hreadable, hw]
        rfl
      dsimp only [Except.mapError]
      rw [Act.ensures_bind]
      refine (verboseLine_adds args _).mono fun r _ l₂ h₂ => ?_
      obtain ⟨rfl, hadds₂⟩ := h₂
      dsimp only
      rw [Act.ensures_bind, Act.ensures_call]
      intro a _
      refine ⟨trivial, ?_⟩
      have hask : Adds args.quiet [] [] [] l₂
          (⟨.waitForFile path t config.confine, a⟩ :: l₂) := .event _ a l₂
      have hadds := (hadds₁.after hadds₂).after hask
      cases a with
      | error e =>
        dsimp only
        rw [Act.ensures_bind]
        refine (reportError_adds prog args e 0).mono fun r _ l₃ h₃ => ?_
        obtain ⟨rfl, hadds₃⟩ := h₃
        exact ⟨_, .failed e hok, hadds.after hadds₃⟩
      | ok u =>
        refine (verboseLine_adds args _).mono fun r _ l₃ h₃ => ?_
        obtain ⟨rfl, hadds₃⟩ := h₃
        exact ⟨[], .found hok, hadds.after hadds₃⟩

theorem warnExitCode_adds (args : Args) (result : RunResult) :
    (warnExitCode args result).Ensures (AnswersOf W) () l fun r _ l' =>
      r = .ok () ∧ Adds args.quiet [] (exitLines args result) [] l l' := by
  unfold warnExitCode exitLines
  cases reservedExitCode args result with
  | none => exact ⟨rfl, .refl l⟩
  | some code => exact eprintLine_adds _

/-- How a run ends, by what `run_with_retry` answered. -/
inductive Executed (args : Args) (config : RunConfig) :
    Except TimeoutError (RunResult × Attempts) → UInt8 → List Output → List String → Prop where
  | result (r : RunResult) (attempts : Attempts) (ms : Nat) :
      Executed args config (.ok (r, attempts)) (r.exitCode args.preserveStatus config.timeoutExitCode)
        (reported args (printJsonOutput r (reportArgs config ms
          (r.exitCode args.preserveStatus config.timeoutExitCode) attempts)))
        (exitLines args r)
  | failed (e : TimeoutError) (ms : Nat) :
      Executed args config (.error e) e.exitCode (reported args (printJsonError e ms)) []

theorem execute_adds (prog : String) (args : Args) (config : RunConfig) (command : String)
    (extraArgs : List String) :
    (execute prog args config command extraArgs).Ensures (AnswersOf W) () l fun r _ l' =>
      ∃ answer code out err, r = .ok code ∧ Executed args config answer code out err ∧
        Adds args.quiet out err [(command, extraArgs, config)] l l' ∧
        ⟨.runWithRetry command extraArgs config, answer⟩ ∈ l' := by
  unfold execute
  rw [Act.ensures_bind, Act.ensures_call]
  intro fd _
  refine ⟨trivial, ?_⟩
  dsimp only
  rw [Act.ensures_bind, Act.ensures_call]
  intro start _
  refine ⟨trivial, ?_⟩
  dsimp only
  rw [Act.ensures_bind, Act.ensures_call]
  intro answer _
  refine ⟨trivial, ?_⟩
  dsimp only
  rw [Act.ensures_bind, Act.ensures_call]
  intro stop _
  refine ⟨trivial, ?_⟩
  dsimp only
  -- the time a report states does not matter here
  generalize ((stop.map UInt64.toNat).getD ((start.map UInt64.toNat).getD 0) -
    (start.map UInt64.toNat).getD 0) / 1000000 = ms
  -- none of the four calls writes a line
  have h₀ : Adds args.quiet [] [] [(command, extraArgs, config)] l
      (⟨.preciseNow, stop⟩ :: ⟨.runWithRetry command extraArgs config, answer⟩ ::
        ⟨.preciseNow, start⟩ :: ⟨.setupSignalForwarding, fd⟩ :: l) := ⟨rfl, fun _ => rfl, rfl⟩
  have hmem : (⟨.runWithRetry command extraArgs config, answer⟩ : Ev MainCall.Ans) ∈
      (⟨.preciseNow, stop⟩ :: ⟨.runWithRetry command extraArgs config, answer⟩ ::
        ⟨.preciseNow, start⟩ :: ⟨.setupSignalForwarding, fd⟩ :: l : MainLog) :=
    List.mem_cons_of_mem _ (List.mem_cons_self ..)
  generalize (⟨.preciseNow, stop⟩ :: ⟨.runWithRetry command extraArgs config, answer⟩ ::
    ⟨.preciseNow, start⟩ :: ⟨.setupSignalForwarding, fd⟩ :: l : MainLog) = l₀ at h₀ hmem ⊢
  cases answer with
  | error e =>
    dsimp only
    rw [Act.ensures_bind]
    refine ((reportError_adds prog args e ms).with (Act.ensures_extends _ _ _)).mono
      fun r _ l₁ h₁ => ?_
    obtain ⟨⟨rfl, hadds₁⟩, hsuffix⟩ := h₁
    refine ⟨.error e, _, _, _, rfl, .failed e ms, ?_, hsuffix.subset hmem⟩
    have hadds := h₀.trans hadds₁
    rwa [List.append_nil, List.append_nil, List.nil_append] at hadds
  | ok answer =>
    obtain ⟨result, attempts⟩ := answer
    dsimp only
    rw [Act.ensures_bind]
    refine ((warnExitCode_adds args result).with (Act.ensures_extends _ _ _)).mono
      fun r _ l₁ h₁ => ?_
    obtain ⟨⟨rfl, hadds₁⟩, hsuffix⟩ := h₁
    have hadds := h₀.trans hadds₁
    rw [List.append_nil, List.append_nil, List.nil_append] at hadds
    have hexec := @Executed.result args config result attempts ms
    dsimp only
    cases hj : args.json with
    | false =>
      rw [reported, hj] at hexec
      exact ⟨_, _, _, _, rfl, hexec, hadds, hsuffix.subset hmem⟩
    | true =>
      rw [reported, hj] at hexec
      rw [if_pos rfl, Act.ensures_bind]
      refine ((@printLine_adds W _ l₁ args.quiet _).with (Act.ensures_extends _ _ _)).mono
        fun r _ l₂ h₂ => ?_
      obtain ⟨⟨rfl, hadds₂⟩, hsuffix₂⟩ := h₂
      have hall := hadds.trans hadds₂
      rw [List.append_nil, List.nil_append, List.nil_append] at hall
      exact ⟨_, _, _, _, rfl, hexec, hall, (hsuffix.trans hsuffix₂).subset hmem⟩

/-! ## The whole program -/

/-- How an accepted command line ends: early, for one of three reasons, or with a run. -/
inductive Concluded (args : Args) (timeoutEnv : Option String) :
    Except UInt8 UInt8 → List Output → List String → List (String × List String × RunConfig) →
      MainLog → Prop where
  | noOperands {l : MainLog} {code : UInt8} (h : operandsOf args timeoutEnv = .error code) :
      Concluded args timeoutEnv (.error code) [] (operandLines args timeoutEnv) [] l
  | badOption {l : MainLog} {d c : String} {as : List String} {e : TimeoutError}
      (h : operandsOf args timeoutEnv = .ok (d, c, as)) (hc : configOf args d = .error e) :
      Concluded args timeoutEnv (.error e.exitCode) [] (operandLines args timeoutEnv) [] l
  | notFound {l : MainLog} {d c : String} {as : List String} {config : RunConfig} {code : UInt8}
      {out : List Output} (h : operandsOf args timeoutEnv = .ok (d, c, as))
      (hc : configOf args d = .ok config) (hw : FileAwaited args (.error code) out) :
      Concluded args timeoutEnv (.error code) out
        (configLines args d (.ok config) ++ operandLines args timeoutEnv) [] l
  | ran {l : MainLog} {d c : String} {as : List String} {config : RunConfig} {code : UInt8}
      {out : List Output} {err : List String} {answer : Except TimeoutError (RunResult × Attempts)}
      (h : operandsOf args timeoutEnv = .ok (d, c, as)) (hc : configOf args d = .ok config)
      (hw : waitReadable args = true) (he : Executed args config answer code out err)
      (hmem : ⟨.runWithRetry c as config, answer⟩ ∈ l) :
      Concluded args timeoutEnv (.ok code) out
        (err ++ configLines args d (.ok config) ++ operandLines args timeoutEnv)
        [(c, as, config)] l

theorem runAccepted_concluded (env : Environment) (argv0 : String) (accepted : Args) :
    (runAccepted env argv0 accepted).Ensures (AnswersOf W) () l fun r _ l' =>
      ∃ out err runs, Concluded (applyAlias argv0 accepted) (env "TIMEOUT") r out err runs l' ∧
        Adds accepted.quiet out err runs l l' := by
  -- the alias does not touch the flag
  have hquiet : accepted.quiet = (applyAlias argv0 accepted).quiet := by
    unfold applyAlias
    split <;> rfl
  unfold runAccepted
  dsimp only
  rw [hquiet]
  generalize applyAlias argv0 accepted = args
  generalize progName argv0 = prog
  rw [Act.ensures_bind]
  refine (operands_adds prog args (env "TIMEOUT")).mono fun r _ l₁ h₁ => ?_
  obtain ⟨rfl, hadds₁⟩ := h₁
  cases ho : operandsOf args (env "TIMEOUT") with
  | error code => exact ⟨_, _, _, .noOperands ho, hadds₁⟩
  | ok found =>
    obtain ⟨d, c, as⟩ := found
    dsimp only
    rw [Act.ensures_bind]
    refine (configure_adds prog args d).mono fun r _ l₂ h₂ => ?_
    obtain ⟨rfl, hadds₂⟩ := h₂
    -- each stage adds its lines to those of the stages before
    have hadds := hadds₁.trans hadds₂
    cases hc : configOf args d with
    | error e =>
      rw [hc] at hadds
      exact ⟨_, _, _, .badOption ho hc, hadds⟩
    | ok config =>
      rw [hc] at hadds
      dsimp only [Except.mapError]
      rw [Act.ensures_bind]
      refine (awaitFile_adds prog args config).mono fun r _ l₃ h₃ => ?_
      obtain ⟨out, hw, hadds₃⟩ := h₃
      have hadds := hadds.trans hadds₃
      rw [List.nil_append, List.append_nil] at hadds
      cases hw with
      | unreadable h => exact ⟨_, _, _, .notFound ho hc (.unreadable h), hadds⟩
      | failed e h => exact ⟨_, _, _, .notFound ho hc (.failed e h), hadds⟩
      | found h =>
        refine (execute_adds prog args config c as).mono fun r _ l₄ h₄ => ?_
        obtain ⟨answer, code, out, err, rfl, hexec, hadds₄, hmem⟩ := h₄
        have hall := hadds.trans hadds₄
        simp only [List.append_nil, ← List.append_assoc] at hall
        exact ⟨_, _, _, .ran ho hc h hexec hmem, hall⟩

/-- The program as `W` answers it: how it ends, and the log. -/
def mainRun (W : Env MainCall.Ans) (env : Environment) (argv0 : String) (argv : List String) :
    Option (Except UInt8 UInt8 × Unit) × MainLog :=
  (runMain env argv0 argv ()).run W []

/-- A refused command line starts nothing. -/
theorem mainRun_refused {env : Environment} {argv0 : String} {argv : List String} {x : ParseExit}
    (h : parseArgs env argv = .error x) : startedIn (mainRun W env argv0 argv).2 = [] := by
  unfold mainRun runMain acceptArgs
  rw [h]
  cases x <;> rfl

/-- A run of an accepted command line. -/
theorem mainRun_concluded {env : Environment} {argv0 : String} {argv : List String} {args : Args}
    (h : parseArgs env argv = .ok args) : ∃ r l out err runs,
      mainRun W env argv0 argv = (some (r, ()), l) ∧
        Concluded (applyAlias argv0 args) (env "TIMEOUT") r out err runs l ∧
        stdoutOf l = out ∧ (args.quiet = true → stderrOf l = err) ∧ startedIn l = runs := by
  have hensures : (runMain env argv0 argv).Ensures (AnswersOf W) () [] fun r _ l' =>
      ∃ out err runs, Concluded (applyAlias argv0 args) (env "TIMEOUT") r out err runs l' ∧
        Adds args.quiet out err runs [] l' := by
    unfold runMain acceptArgs
    rw [h]
    exact runAccepted_concluded env argv0 args
  obtain ⟨⟨r, ⟨⟩⟩, hr, out, err, runs, hconcl, hadds⟩ := Prog.Ensures.on_run hensures
  refine ⟨r, _, out, err, runs, Prod.ext hr rfl, hconcl, ?_, ?_, ?_⟩
  · exact hadds.stdout.trans (List.append_nil out)
  · exact fun hq => (hadds.stderr hq).trans (List.append_nil err)
  · exact hadds.started.trans (List.append_nil runs)

end run

end Procguard
