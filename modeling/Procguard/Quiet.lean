import Procguard.RetryLoop
import Procguard.Grace
import Procguard.Output

/- Quiet. Every line that `run_with_retry` and what it calls can print is guarded by
   `quiet`, by `verbose` without `quiet`, or by the `quiet` of the heartbeat; so no
   request of a quiet run prints. The lines of `run_main` that are not guarded are three,
   and a quiet run is silent exactly when none of them is reached. -/
namespace Procguard
open Interact

/-- A request that does not write to stderr. -/
def Req.wordless (q : Req) : Prop := q.prints = false

theorem wordless_of_silenced {loud : Bool} {q : Req} (hloud : loud = false)
    (h : q.prints = true → loud = true) : q.wordless := by
  unfold Req.wordless
  cases hp : q.prints with
  | false => rfl
  | true => exact absurd (h hp) (by rw [hloud]; decide)

/-! ## The wait -/

section wait
variable {a : WaitArgs} {f : WaitFixed}

theorem wordless_now (confine : Confine) : Act.Asking Req.wordless (now confine) :=
  asking_now confine (by cases confine <;> rfl)

theorem wordless_closeKq (f : WaitFixed) : Act.Asking Req.wordless (closeKq f) :=
  .bind (.call rfl) fun _ => .pure

theorem wordless_reapGone (fuel : Nat) : Act.Asking Req.wordless (reapGone fuel) :=
  asking_reapGone (fun _ => rfl) (fun _ => rfl) fuel

theorem wordless_childWaitOrFail (fuel : Nat) : Act.Asking Req.wordless (childWaitOrFail fuel) :=
  asking_childWaitOrFail (fun _ => rfl) fuel

theorem wordless_waitSetup (a : WaitArgs) : Act.Asking Req.wordless (waitSetup a) :=
  asking_waitSetup a (by cases a.confine <;> exact rfl) rfl rfl rfl rfl

theorem wordless_waitRound (hquiet : f.args.heartbeats = false) (fuel : Nat) (v : WaitVars) :
    Act.Asking Req.wordless (waitRound fuel f v) := by
  have hround : ∀ {loud : Bool}, loud = false → ∀ q, Req.inRound loud q → q.wordless :=
    fun hloud q hq => wordless_of_silenced hloud hq.2
  have hhead : Act.Asking Req.wordless (loopHead f v) :=
    .bind (wordless_now _) fun _ =>
      .ite ((asking_finish f _).mono (hround rfl)) (.ite ((asking_finish f _).mono (hround rfl)) .pure)
  have hawait : ∀ nowNs, Act.Asking Req.wordless (awaitEvent fuel f v nowNs) := by
    intro nowNs
    refine .bind (.call rfl) fun r => ?_
    cases r with
    | error err => exact (asking_onKeventError fuel f _ err).mono (hround rfl)
    | ok ev => exact (asking_onEvent f _ ev).mono (hround hquiet)
  refine .bind hhead fun r => ?_
  cases r with
  | go nowNs =>
    refine .bind (hawait nowNs) fun r => ?_
    cases r <;> exact .pure
  | next v => exact .pure
  | leave ev => exact .pure
  | ret r => exact .pure

theorem wordless_afterLoop (fuel : Nat) (f : WaitFixed) (ev : Kevent) :
    Act.Asking Req.wordless (afterLoop fuel f ev) := by
  refine .bind (wordless_closeKq f) fun _ => .ite (wordless_reapGone fuel)
    (.ite (.bind (wordless_childWaitOrFail fuel) fun _ => .pure) (.ite ?_ .pure))
  cases f.signalFd with
  | none => exact .pure
  | some fd =>
    refine .bind (.call rfl) fun r => ?_
    cases r <;> exact .pure

/-- What the set-up hands to the loop is about the arguments it was given. -/
theorem waitSetup_args (a : WaitArgs) (h : Handles) (l : Trace) :
    (waitSetup a).Ensures {} h l fun r _ _ => ∀ p, r = .ok p → p.1.args = a := by
  let P : Except TimeoutError (WaitFixed × WaitVars) → Prop := fun r => ∀ p, r = .ok p → p.1.args = a
  have herr : ∀ e, P (.error e) := fun e p h => by simp at h
  have hpure : ∀ (f : WaitFixed) (v : WaitVars) (h : Handles) (l : Trace), f.args = a →
      (pure (f, v) : SuperAct (WaitFixed × WaitVars)).Ensures {} h l fun r _ _ => P r := by
    intro f v h l hf p hp
    rw [← Except.ok.inj hp]
    exact hf
  change (waitSetup a).Ensures {} h l fun r _ _ => P r
  unfold waitSetup
  refine Act.ensures_last herr fun _ _ _ => ?_
  refine Act.ensures_last herr fun _ _ _ => ?_
  refine Act.ensures_last herr fun _ _ _ => ?_
  refine Act.ensures_last herr fun _ _ _ => ?_
  refine Act.ensures_last herr fun _ _ _ => ?_
  refine Act.ensures_last herr fun _ _ _ => ?_
  exact hpure _ _ _ _ rfl

theorem wordless_wait (hquiet : a.heartbeats = false) (fuel : Nat) :
    Act.Asking Req.wordless (waitWithKqueue fuel a) := by
  refine .bind_returns (wordless_waitSetup a) (fun h => waitSetup_args a h []) fun p hp => ?_
  obtain ⟨f, v⟩ := p
  dsimp only at hp ⊢
  refine .bind (.iterate (fun v => wordless_waitRound (by rw [hp]; exact hquiet) fuel v) fuel v)
    fun r => ?_
  cases r with
  | inl r => exact .pure
  | inr ev => exact wordless_afterLoop fuel f ev

end wait

/-! ## The monitor -/

section monitor
variable {config : RunConfig}

theorem silenced (hq : config.quiet = true) : config.loud = false := by
  rw [RunConfig.loud, hq, Bool.not_true, Bool.and_false]

theorem wordless_monitorLine (hq : config.quiet = true) (line : String) :
    Act.Asking Req.wordless (monitorLine config line) := by
  have hloud : (config.verbose && !config.quiet) = false := silenced hq
  unfold monitorLine
  rw [hloud]
  exact .pure

theorem wordless_attachThrottle (hq : config.quiet = true) (pid : Int) (startNs : Nat) :
    Act.Asking Req.wordless (attachThrottle config pid startNs) := by
  unfold attachThrottle
  cases config.cpuThrottle with
  | none => exact .pure
  | some cfg =>
    have hnew : (CpuThrottleState.new pid startNs).Asking Req.wordless :=
      ⟨rfl, fun r => by cases r <;> exact trivial⟩
    refine .bind (.exec hnew) fun r => ?_
    cases r with
    | ok state => exact .modify
    | error e =>
      dsimp only
      rw [hq]
      exact .pure

theorem wordless_resume : Act.Asking Req.wordless CpuThrottleState.resume :=
  .bind .get fun _ => .ite (.bind (.call rfl) fun _ => .modify) .pure

theorem wordless_resumeThrottle : Act.Asking Req.wordless resumeThrottle := by
  refine .bind .get fun h => ?_
  cases h.throttle with
  | none => exact .pure
  | some ctx => exact .focus wordless_resume

theorem wordless_dropThrottle (h : Handles) : (dropThrottle h).Asking Req.wordless := by
  unfold dropThrottle
  cases h.throttle with
  | none => exact trivial
  | some ctx =>
    refine Prog.asking_bind (Prog.asking_bind ?_ fun _ => trivial) fun _ => trivial
    exact wordless_resume ctx.state

theorem wordless_sendSignal (pid : Int) (sig : Signal) (foreground : Bool) :
    Act.Asking Req.wordless (sendSignal pid sig foreground) := by
  have hkill : Act.Asking Req.wordless (killProcess pid sig) := by
    refine (asking_killProcess pid sig).mono fun q hq => ?_
    rw [hq]
    rfl
  refine .ite hkill (.bind (.call rfl) fun r => ?_)
  cases r with
  | ok _ => exact .pure
  | error err => exact .ite hkill .throw

theorem wordless_graceWait (fuel : Nat) (pid : Int) (killAfter : Duration) (confine : Confine) :
    Act.Asking Req.wordless (graceWait fuel pid killAfter confine) :=
  .focus (wordless_wait rfl fuel)

theorem wordless_reapAs (fuel : Nat) (result : RawExitStatus → ResourceUsage → RunResult) :
    Act.Asking Req.wordless (reapAs fuel result) :=
  .bind (wordless_childWaitOrFail fuel) fun _ => .bind .modify fun _ => .pure

theorem wordless_killAndReap (fuel : Nat) (config : RunConfig) (pid : Int)
    (result : RawExitStatus → ResourceUsage → RunResult) :
    Act.Asking Req.wordless (killAndReap fuel config pid result) :=
  .bind wordless_resumeThrottle fun _ => .bind (wordless_sendSignal _ _ _) fun _ =>
    wordless_reapAs fuel result

theorem wordless_forwardSignal (hq : config.quiet = true) (fuel : Nat) (pid : Int) (sig : Signal) :
    Act.Asking Req.wordless (forwardSignal fuel config pid sig) := by
  refine .bind (wordless_monitorLine hq _) fun _ => .bind wordless_resumeThrottle fun _ =>
    .bind (wordless_sendSignal _ _ _) fun _ =>
    .bind (asking_childWait (fun _ => rfl) fuel) fun r => .bind .modify fun _ => ?_
  cases r with
  | ok _ => exact .pure
  | error _ => exact .pure

theorem wordless_onMemoryLimit (hq : config.quiet = true) (fuel : Nat) (pid : Int)
    (limitBytes actualBytes : Nat) :
    Act.Asking Req.wordless (onMemoryLimit fuel config pid limitBytes actualBytes) := by
  refine .bind (wordless_monitorLine hq _) fun _ => .bind wordless_resumeThrottle fun _ =>
    .bind (wordless_sendSignal _ _ _) fun _ => ?_
  cases config.killAfter with
  | none => exact wordless_reapAs fuel _
  | some killAfter =>
    refine .bind (wordless_graceWait fuel pid killAfter _) fun r => ?_
    cases r with
    | exited status rusage => exact .bind .modify fun _ => .pure
    | receivedSignal _ => exact wordless_killAndReap fuel config pid _
    | timedOut _ => exact wordless_killAndReap fuel config pid _
    | memoryLimitExceeded _ _ => exact wordless_killAndReap fuel config pid _

theorem wordless_onTimeout (hq : config.quiet = true) (fuel : Nat) (pid : Int)
    (reason : TimeoutReason) : Act.Asking Req.wordless (onTimeout fuel config pid reason) := by
  have hhook : Act.Asking Req.wordless (runHook fuel config pid) := by
    unfold runHook
    cases config.onTimeout with
    | none => exact .pure
    | some cmd =>
      have hask := (asking_runOnTimeoutHook fuel cmd pid config).mono fun q h =>
        wordless_of_silenced (silenced hq) h.2
      exact .bind (.exec hask) fun _ => .pure
  refine .bind (wordless_monitorLine hq _) fun _ => .bind hhook fun hook =>
    .bind (wordless_monitorLine hq _) fun _ => .bind wordless_resumeThrottle fun _ =>
    .bind (wordless_sendSignal _ _ _) fun _ => ?_
  cases config.killAfter with
  | none => exact wordless_reapAs fuel _
  | some killAfter =>
    refine .bind (wordless_graceWait fuel pid killAfter _) fun r => ?_
    cases r with
    | exited status rusage => exact .bind .modify fun _ => .pure
    | receivedSignal sig => exact wordless_forwardSignal hq fuel pid sig
    | timedOut _ =>
      exact .bind (wordless_monitorLine hq _) fun _ => wordless_killAndReap fuel config pid _
    | memoryLimitExceeded _ _ =>
      exact .bind (wordless_monitorLine hq _) fun _ => wordless_killAndReap fuel config pid _

theorem wordless_supervise (hq : config.quiet = true) (fuel : Nat) (pid : Int) (startNs : Nat) :
    Act.Asking Req.wordless (supervise fuel config pid startNs) := by
  have hheart : (waitArgsOf config pid startNs).heartbeats = false := by
    unfold WaitArgs.heartbeats waitArgsOf
    cases config.heartbeat with
    | none => rfl
    | some interval => simp [hq]
  refine .bind (wordless_attachThrottle hq pid startNs) fun _ =>
    .bind (wordless_wait hheart fuel) fun r => ?_
  cases r with
  | exited status rusage => exact .bind .modify fun _ => .pure
  | receivedSignal sig => exact wordless_forwardSignal hq fuel pid sig
  | memoryLimitExceeded limit actual => exact wordless_onMemoryLimit hq fuel pid limit actual
  | timedOut reason => exact wordless_onTimeout hq fuel pid reason

theorem wordless_runCommand (hq : config.quiet = true) (fuel : Nat) (command : String)
    (args : List String) : (runCommand fuel command args config).Asking Req.wordless := by
  have hspawn : (spawnFor command args config).Asking Req.wordless := by
    unfold spawnFor spawnCommand spawnCommandWithLimits
    split <;> split
    · exact trivial
    · exact ⟨rfl, fun _ => trivial⟩
    · exact trivial
    · exact ⟨rfl, fun _ => trivial⟩
  have hmonitor : Act.Asking Req.wordless (monitorWithTimeout fuel config) := by
    refine .bind .get fun h => .bind (wordless_now _) fun startNs => ?_
    intro s
    exact Prog.asking_bind (wordless_supervise hq fuel _ startNs s) fun r =>
      Prog.asking_bind (wordless_dropThrottle r.2) fun _ => trivial
  have hforever : Act.Asking Req.wordless (runForever fuel) :=
    .bind (wordless_childWaitOrFail fuel) fun _ => .pure
  refine Prog.asking_bind hspawn fun r => ?_
  cases r with
  | error e => exact trivial
  | ok child => exact Prog.asking_bind (Act.Asking.ite hforever hmonitor _) fun _ => trivial

/-! ## The retry loop -/

theorem wordless_retryLine (hq : config.quiet = true) (line : String) :
    Act.Asking Req.wordless (retryLine config line) := by
  have hloud : (config.verbose && !config.quiet) = false := silenced hq
  unfold retryLine
  rw [hloud]
  exact .pure

theorem wordless_retryDelay (hq : config.quiet = true) (fuel attempt : Nat)
    (signalFd : Option Int) :
    Act.Asking Req.wordless (retryDelay fuel config attempt signalFd) := by
  have hdelay := (kqueueDelay_unfailing fuel (retryDelayOf config attempt) signalFd).asking.mono
    fun q (h : Req.sleeps q) => h.2
  refine .bind (wordless_retryLine hq _) fun _ => .ite .pure (.bind hdelay fun completed =>
    .ite .pure ?_)
  cases signalFd with
  | none => exact .pure
  | some fd => exact .bind (.call rfl) fun _ => .pure

theorem wordless_runAttempt (hq : config.quiet = true) (fuel : Nat) (command : String)
    (args : List String) : Act.Asking Req.wordless (runAttempt fuel command args config) := by
  have hclock : ∀ d, Act.Asking Req.wordless (nowOr .retry config.confine d : RetryAct Nat) :=
    asking_nowOr (show Req.wordless _ from rfl) (show Req.wordless _ from rfl) config.confine
  refine .bind (hclock 0) fun start => .bind ?_ fun result => .bind (hclock start) fun _ => .pure
  exact fun _ => Prog.asking_bind (wordless_runCommand hq fuel command args) fun _ => trivial

theorem wordless_retryLoop (hq : config.quiet = true) (fuel : Nat) (command : String)
    (args : List String) (signalFd : Option Int) (maxAttempts : Nat) :
    ∀ left attempt counter attempts, Act.Asking Req.wordless
      (retryLoop fuel command args config signalFd maxAttempts left attempt counter attempts) := by
  intro left
  induction left with
  | zero => exact fun _ _ _ => .throw
  | succ left ih =>
    intro attempt counter attempts
    refine .ite .throw (.bind (wordless_runAttempt hq fuel command args) fun r => ?_)
    refine .ite .pure (.ite .pure (.bind (wordless_retryDelay hq fuel attempt signalFd) fun r => ?_))
    cases r with
    | some sig => exact .pure
    | none => exact ih _ _ _

/-- A quiet run does not print, in any run of it. -/
theorem wordless_runWithRetry (hq : config.quiet = true) (fuel : Nat) (command : String)
    (args : List String) : Act.Asking Req.wordless (runWithRetry fuel command args config) := by
  have hload : Act.Asking Req.wordless (Act.call ⟨.retry, .loadSignalPipe⟩ >>= fun fd =>
      retryLoop fuel command args config (if 0 ≤ fd then some fd else none)
        (cappedRetry config + 1) (cappedRetry config + 1) 0 0 {}) :=
    .bind (.call rfl) fun fd => wordless_retryLoop hq fuel command args _ _ _ _ _ _
  rw [runWithRetry]
  split
  · exact .bind (wordless_retryLine hq _) fun _ => hload
  · exact hload

end monitor

/-! ## The whole program -/

/-- Nothing is written to stderr: not by `run_main`, nor by a run that it starts, in any
    course of it. -/
def Silent (l : MainLog) : Prop :=
  stderrOf l = [] ∧ ∀ command extraArgs config, (command, extraArgs, config) ∈ startedIn l →
    ∀ fuel E, ∀ e ∈ ((runWithRetry fuel command extraArgs config ()).run E []).2,
      e.req.prints = false

/-- Both operands are there, so is TIMEOUT, and the first operand is a duration: the warning
    about that is not guarded. -/
def Ambiguous (args : Args) (timeoutEnv : Option String) : Prop :=
  timeoutEnv.isSome = true ∧ args.command.isSome = true ∧
    ∃ d, args.duration = some d ∧ isDuration d = true

/-- The options are good, and the hook may outlast the timeout: that warning is not guarded. -/
def HookLimited (args : Args) (timeoutEnv : Option String) : Prop :=
  ∃ d c as, operandsOf args timeoutEnv = .ok (d, c, as) ∧ (configOf args d).isOk = true ∧
    hookWarned args d = true

/-- `run_with_retry` returned a timeout, and its custom exit code is one of procguard's own:
    that warning is not guarded. -/
def ReservedCode (args : Args) (l : MainLog) : Prop :=
  ∃ command extraArgs config result attempts,
    (⟨.runWithRetry command extraArgs config, .ok (result, attempts)⟩ : Ev MainCall.Ans) ∈ l ∧
      (reservedExitCode args result).isSome = true

theorem operandLines_eq_nil {args : Args} {timeoutEnv : Option String} :
    operandLines args timeoutEnv = [] ↔ ¬ Ambiguous args timeoutEnv := by
  unfold operandLines resolveArgs Ambiguous
  cases args.duration with
  | none => cases timeoutEnv <;> simp
  | some d =>
    cases args.command with
    | none => cases timeoutEnv <;> simp
    | some c =>
      cases timeoutEnv with
      | none => simp
      | some e => cases hd : isDuration d <;> simp [hd]

theorem configLines_eq_nil {args : Args} {timeoutEnv : Option String} {d c : String}
    {as : List String} {config : RunConfig} (ho : operandsOf args timeoutEnv = .ok (d, c, as))
    (hc : configOf args d = .ok config) :
    configLines args d (.ok config) = [] ↔ ¬ HookLimited args timeoutEnv := by
  have hok : (configOf args d).isOk = true := by
    rw [hc]
    rfl
  have hlimited : HookLimited args timeoutEnv ↔ hookWarned args d = true := by
    constructor
    · intro h
      obtain ⟨d', c', as', ho', -, hw⟩ := h
      rw [ho] at ho'
      cases ho'
      exact hw
    · exact fun hw => ⟨d, c, as, ho, hok, hw⟩
  rw [hlimited]
  cases hw : hookWarned args d <;> simp [configLines, hw, Except.isOk, Except.toBool]

theorem exitLines_eq_nil {args : Args} {result : RunResult} :
    exitLines args result = [] ↔ (reservedExitCode args result).isSome = false := by
  unfold exitLines
  cases reservedExitCode args result <;> simp

section log
variable {l : MainLog} {e e' : Ev MainCall.Ans}

theorem started_ne_nil (he : e ∈ l) (hs : e.req.started ≠ []) : startedIn l ≠ [] := by
  intro hnil
  exact hs (List.flatMap_eq_nil_iff.mp hnil e he)

/-- A log with one run holds one answer of it. -/
theorem answer_unique {x : String × List String × RunConfig} (h : startedIn l = [x]) (he : e ∈ l)
    (he' : e' ∈ l) (hs : e.req.started ≠ []) (hs' : e'.req.started ≠ []) : e = e' := by
  obtain ⟨later, before, rfl⟩ := List.append_of_mem he
  have hsum : startedIn later ++ (e.req.started ++ startedIn before) = [x] := by
    rw [← h, startedIn, startedIn, startedIn, List.flatMap_append, List.flatMap_cons]
  have hlen : (startedIn later).length + (e.req.started.length + (startedIn before).length) = 1 := by
    rw [← List.length_append, ← List.length_append, hsum, List.length_singleton]
  have hpos : 0 < e.req.started.length := List.length_pos_of_ne_nil hs
  have hlater : startedIn later = [] := List.length_eq_zero_iff.mp (by omega)
  have hbefore : startedIn before = [] := List.length_eq_zero_iff.mp (by omega)
  rcases List.mem_append.mp he' with hin | hin
  · exact absurd hlater (started_ne_nil hin hs')
  · rcases List.mem_cons.mp hin with heq | hin
    · exact heq.symm
    · exact absurd hbefore (started_ne_nil hin hs')

theorem not_reserved_of_none {args : Args} (h : startedIn l = []) : ¬ ReservedCode args l := by
  intro hres
  obtain ⟨c, as, config, result, attempts, hmem, -⟩ := hres
  exact started_ne_nil hmem (List.cons_ne_nil _ _) h

theorem reserved_iff {args : Args} {c : String} {as : List String} {config : RunConfig}
    {answer : Except TimeoutError (RunResult × Attempts)} (h : startedIn l = [(c, as, config)])
    (hmem : ⟨.runWithRetry c as config, answer⟩ ∈ l) :
    ReservedCode args l ↔ ∃ result attempts, answer = .ok (result, attempts) ∧
      (reservedExitCode args result).isSome = true := by
  constructor
  · intro hres
    obtain ⟨c', as', config', result, attempts, hmem', hcode⟩ := hres
    have heq := answer_unique h hmem hmem' (List.cons_ne_nil _ _) (List.cons_ne_nil _ _)
    cases heq
    exact ⟨result, attempts, rfl, hcode⟩
  · intro hres
    obtain ⟨result, attempts, rfl, hcode⟩ := hres
    exact ⟨c, as, config, result, attempts, hmem, hcode⟩

end log

theorem Executed.err_eq_nil {args : Args} {config : RunConfig}
    {answer : Except TimeoutError (RunResult × Attempts)} {code : UInt8} {out : List Output}
    {err : List String} (h : Executed args config answer code out err) :
    err = [] ↔ ¬ ∃ result attempts, answer = .ok (result, attempts) ∧
      (reservedExitCode args result).isSome = true := by
  cases h with
  | result result attempts ms =>
    rw [exitLines_eq_nil]
    constructor
    · intro hnone hres
      obtain ⟨result', attempts', heq, hcode⟩ := hres
      cases heq
      rw [hnone] at hcode
      cases hcode
    · intro hres
      exact Bool.eq_false_iff.mpr fun hcode => hres ⟨result, attempts, rfl, hcode⟩
  | failed e ms =>
    refine ⟨fun _ hres => ?_, fun _ => rfl⟩
    obtain ⟨result, attempts, heq, -⟩ := hres
    cases heq

/-- An accepted command line writes a line in spite of `-q` at one of three places only. -/
theorem Concluded.err_eq_nil {args : Args} {timeoutEnv : Option String} {r : Except UInt8 UInt8}
    {out : List Output} {err : List String} {runs : List (String × List String × RunConfig)}
    {l : MainLog} (h : Concluded args timeoutEnv r out err runs l) (hruns : startedIn l = runs) :
    err = [] ↔ ¬ Ambiguous args timeoutEnv ∧ ¬ HookLimited args timeoutEnv ∧
      ¬ ReservedCode args l := by
  cases h with
  | noOperands ho =>
    have hlimited : ¬ HookLimited args timeoutEnv := by
      intro h
      obtain ⟨d, c, as, ho', -⟩ := h
      rw [ho] at ho'
      cases ho'
    rw [operandLines_eq_nil]
    exact ⟨fun h => ⟨h, hlimited, not_reserved_of_none hruns⟩, fun h => h.1⟩
  | badOption ho hc =>
    have hlimited : ¬ HookLimited args timeoutEnv := by
      intro h
      obtain ⟨d, c, as, ho', hok, -⟩ := h
      rw [ho] at ho'
      cases ho'
      rw [hc] at hok
      cases hok
    rw [operandLines_eq_nil]
    exact ⟨fun h => ⟨h, hlimited, not_reserved_of_none hruns⟩, fun h => h.1⟩
  | notFound ho hc hw =>
    rw [List.append_eq_nil_iff, configLines_eq_nil ho hc, operandLines_eq_nil]
    exact ⟨fun h => ⟨h.2, h.1, not_reserved_of_none hruns⟩, fun h => ⟨h.2.1, h.1⟩⟩
  | ran ho hc hw he hmem =>
    rw [List.append_eq_nil_iff, List.append_eq_nil_iff, configLines_eq_nil ho hc,
      operandLines_eq_nil, he.err_eq_nil, reserved_iff hruns hmem]
    exact ⟨fun h => ⟨h.2, h.1.2, h.1.1⟩, fun h => ⟨⟨h.2.2, h.2.1⟩, h.1⟩⟩

theorem configWith_quiet {args : Args} {timeout : Duration} {config : RunConfig}
    (h : configWith args timeout = .ok config) : config.quiet = args.quiet := by
  unfold configWith at h
  obtain ⟨signal, -, h⟩ := bind_eq_ok.mp h
  obtain ⟨killAfter, -, h⟩ := bind_eq_ok.mp h
  obtain ⟨onTimeoutLimit, -, h⟩ := bind_eq_ok.mp h
  obtain ⟨retryCount, -, h⟩ := bind_eq_ok.mp h
  obtain ⟨retryDelay, -, h⟩ := bind_eq_ok.mp h
  obtain ⟨retryBackoff, -, h⟩ := bind_eq_ok.mp h
  obtain ⟨heartbeat, -, h⟩ := bind_eq_ok.mp h
  obtain ⟨stdinTimeout, -, h⟩ := bind_eq_ok.mp h
  obtain ⟨memLimit, -, h⟩ := bind_eq_ok.mp h
  obtain ⟨cpuTime, -, h⟩ := bind_eq_ok.mp h
  obtain ⟨percent, -, h⟩ := bind_eq_ok.mp h
  by_cases hpass : (args.stdinPassthrough && stdinTimeout.isNone) = true
  · rw [if_pos hpass] at h
    cases h
  · rw [if_neg hpass] at h
    rw [← Except.ok.inj h]

/-- A run that is started is as quiet as the command line asks. -/
theorem Concluded.quiet {args : Args} {timeoutEnv : Option String} {r : Except UInt8 UInt8}
    {out : List Output} {err : List String} {runs : List (String × List String × RunConfig)}
    {l : MainLog} (h : Concluded args timeoutEnv r out err runs l) {c : String} {as : List String}
    {config : RunConfig} (hmem : (c, as, config) ∈ runs) : config.quiet = args.quiet := by
  cases h with
  | noOperands ho => cases hmem
  | badOption ho hc => cases hmem
  | notFound ho hc hw => cases hmem
  | ran ho hc hw he hin =>
    have heq := List.mem_singleton.mp hmem
    cases heq
    obtain ⟨timeout, -, hwith⟩ := bind_eq_ok.mp hc
    exact configWith_quiet hwith

/-- **Quiet is quiet**, of every run of an accepted command line with `-q`, if and only if it
    reaches none of the three warnings that are not guarded. -/
theorem quiet_silent_iff {env : Environment} {argv0 : String} {argv : List String} {args : Args}
    (h : parseArgs env argv = .ok args) (hq : args.quiet = true) (W : Env MainCall.Ans) :
    ∃ r l, mainRun W env argv0 argv = (some (r, ()), l) ∧
      (Silent l ↔ ¬ Ambiguous (applyAlias argv0 args) (env "TIMEOUT") ∧
        ¬ HookLimited (applyAlias argv0 args) (env "TIMEOUT") ∧
        ¬ ReservedCode (applyAlias argv0 args) l) := by
  have hq' : (applyAlias argv0 args).quiet = true := by
    unfold applyAlias
    split <;> exact hq
  obtain ⟨r, l, out, err, runs, hrun, hconcl, -, herr, hruns⟩ := @mainRun_concluded W env argv0 argv args h
  have hinner : ∀ command extraArgs config, (command, extraArgs, config) ∈ startedIn l →
      ∀ fuel E, ∀ e ∈ ((runWithRetry fuel command extraArgs config ()).run E []).2,
        e.req.prints = false := by
    intro command extraArgs config hmem fuel E e he
    rw [hruns] at hmem
    have hquiet : config.quiet = true := (hconcl.quiet hmem).trans hq'
    obtain ⟨t, ht, hall⟩ := (wordless_runWithRetry hquiet fuel command extraArgs ()).grown E []
    rw [ht, List.append_nil] at he
    exact hall e he
  refine ⟨r, l, hrun, ?_⟩
  rw [Silent, herr hq, hconcl.err_eq_nil hruns]
  exact ⟨fun h => h.1, fun h => ⟨h, hinner⟩⟩

/-- `procguard -q 5s true`. -/
theorem quiet_silent_true : ∃ r l,
    mainRun refusingWorld (fun _ => none) "procguard" ["-q", "5s", "true"] = (some (r, ()), l) ∧
      (Silent l ↔
        ¬ Ambiguous (applyAlias "procguard"
          { quiet := true, signal := "TERM", duration := some "5s", command := some "true" }) none ∧
        ¬ HookLimited (applyAlias "procguard"
          { quiet := true, signal := "TERM", duration := some "5s", command := some "true" }) none ∧
        ¬ ReservedCode (applyAlias "procguard"
          { quiet := true, signal := "TERM", duration := some "5s", command := some "true" }) l) :=
  @quiet_silent_iff (fun _ => none) "procguard" ["-q", "5s", "true"] _ (by decide +kernel) rfl
    refusingWorld

/-- `TIMEOUT=1s procguard -q 5s true`: the warning about the two durations is printed. -/
theorem ambiguity_not_quiet : ¬ ∀ (W : Env MainCall.Ans) (env : Environment) (argv0 : String)
    (argv : List String) (args : Args), parseArgs env argv = .ok args → args.quiet = true →
    ∃ r l, mainRun W env argv0 argv = (some (r, ()), l) ∧ Silent l := by
  intro hall
  let env : Environment := fun name => if name = "TIMEOUT" then some "1s" else none
  have hparse : parseArgs env ["-q", "5s", "true"] =
      .ok { quiet := true, signal := "TERM", duration := some "5s", command := some "true" } := by
    decide +kernel
  obtain ⟨r, l, hrun, hsilent⟩ := hall refusingWorld env "procguard" _ _ hparse rfl
  obtain ⟨r', l', hrun', hiff⟩ := @quiet_silent_iff env "procguard" _ _ hparse rfl refusingWorld
  rw [hrun] at hrun'
  cases hrun'
  refine (hiff.mp hsilent).1 ⟨rfl, ?_, "5s", ?_, ?_⟩
  · decide +kernel
  · decide +kernel
  · decide +kernel

end Procguard
