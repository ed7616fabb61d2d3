import Procguard.CommandOrigin
import Procguard.Completion
import Procguard.Forked
import Procguard.Quiet

/- A command that cannot be executed, with limits and without. Without limits the parent
   is told by `posix_spawnp` and reports the error number; with limits the forked child
   is told by `execvp`, and all it can do is to exit with a status, which the parent takes
   for the status of the command. -/
namespace Procguard
open Interact

variable {c : String} {as : List String} {errno : Int} {config plain limited : RunConfig}
  {E E' : World} {fuel fuel' : Nat} {code code' : UInt8}

/-! ## Without limits -/

section refused
variable {l : Trace}

/-- A refused spawn is the result of the run of the command. -/
theorem runCommand_refused (hnul : (hasNul c || as.any hasNul) = false)
    (hlimits : config.limits.isEmpty = true)
    (hspawn : ∀ l g, E l ⟨.monitor, .posixSpawnp c as g⟩ = .error errno) :
    (runCommand fuel c as config).Ensures (Prog.answers E) l fun r _ =>
      r = .error (ofSpawnError (spawnErrorOf c errno)) := by
  unfold runCommand spawnFor spawnCommand
  rw [if_pos hlimits, hnul, Prog.ensures_bind]
  intro a ha
  have hrefused : a = .error errno := ha.trans (hspawn _ _)
  subst hrefused
  exact ⟨trivial, rfl⟩

/-- The error ends the retry loop in its first round. -/
theorem runWithRetry_refused (hnul : (hasNul c || as.any hasNul) = false)
    (hlimits : config.limits.isEmpty = true)
    (hspawn : ∀ l g, E l ⟨.monitor, .posixSpawnp c as g⟩ = .error errno) :
    (runWithRetry fuel c as config).Ensures (Prog.answers E) () l fun r _ _ =>
      r = .error (ofSpawnError (spawnErrorOf c errno)) := by
  -- an error of the first attempt is not retried
  have hloop : ∀ l signalFd maxAttempts left attempts,
      (retryLoop fuel c as config signalFd maxAttempts (left + 1) 0 0 attempts).Ensures
        (Prog.answers E) () l fun r _ _ => r = .error (ofSpawnError (spawnErrorOf c errno)) := by
    intro l signalFd maxAttempts left attempts
    rw [retryLoop, if_neg (by decide), Act.ensures_bind, runAttempt, Act.ensures_bind]
    refine (nowOr_ensures (P := fun _ => True) (fun _ _ => trivial) (fun _ _ _ h => h)
      trivial).mono fun r _ l₁ hr => ?_
    obtain ⟨⟨t, rfl⟩, -⟩ := hr
    dsimp only
    rw [Act.ensures_bind, Act.ensures_lift]
    refine (runCommand_refused hnul hlimits hspawn).mono fun r _ hr => ?_
    subst hr
    rfl
  have hrest : ∀ l, (Act.call ⟨.retry, .loadSignalPipe⟩ >>= fun fd =>
      retryLoop fuel c as config (if 0 ≤ fd then some fd else none)
        (cappedRetry config + 1) (cappedRetry config + 1) 0 0 {}).Ensures (Prog.answers E) () l
      fun r _ _ => r = .error (ofSpawnError (spawnErrorOf c errno)) := by
    intro l
    rw [Act.ensures_bind, Act.ensures_call]
    intro fd _
    exact ⟨trivial, hloop _ _ _ _ _⟩
  rw [runWithRetry]
  split
  · unfold retryLine
    rw [Act.ensures_bind]
    refine Act.ensures_ite (fun _ => ?_) fun _ => Act.ensures_pure.mpr (hrest l)
    rw [Act.ensures_bind, Act.ensures_call]
    intro a _
    exact ⟨trivial, hrest _⟩
  · exact hrest l

end refused

/-- What the run of a refused command returns. -/
theorem run_refused (hnul : (hasNul c || as.any hasNul) = false)
    (hlimits : config.limits.isEmpty = true)
    (hspawn : ∀ l g, E l ⟨.monitor, .posixSpawnp c as g⟩ = .error errno) :
    ((runWithRetry fuel c as config ()).run E []).1 =
      some (.error (ofSpawnError (spawnErrorOf c errno)), ()) := by
  have hrefused : (runWithRetry fuel c as config).Ensures (Prog.answers E) () [] fun r _ _ =>
    r = .error (ofSpawnError (spawnErrorOf c errno)) := runWithRetry_refused hnul hlimits hspawn
  obtain ⟨⟨r, ⟨⟩⟩, hrun, hr⟩ := Prog.Ensures.on_run hrefused
  rw [hrun]
  exact congrArg (fun r => some (r, ())) hr

/-- The exit status of a refused command without limits. -/
def spawnFailure (errno : Int) : UInt8 :=
  if errno = ENOENT then 127 else if errno = EACCES ∨ errno = EPERM then 126 else 125

theorem exitCode_spawnErrorOf (c : String) (errno : Int) :
    (ofSpawnError (spawnErrorOf c errno)).exitCode = spawnFailure errno := by
  unfold spawnErrorOf spawnFailure
  split
  · rfl
  · split <;> rfl

/-! ## With limits -/

/-- The status word of a child that called `_exit`. -/
def exitedWith (status : UInt8) : RawExitStatus := ⟨BitVec.ofNat 32 (status.toNat * 256)⟩

theorem statusToExitCode_execFailure (errno : Int) :
    statusToExitCode (exitedWith (execFailure errno)) = execFailure errno := by
  unfold execFailure
  split <;> decide

/-- A child that was refused its command with `errno`, and the status it left. -/
def ChildRefused (c : String) (as : List String) (config : RunConfig) (errno : Int)
    (status : UInt8) : Prop :=
  ∃ W l, (forkedChild c as (!config.foreground) config.limits ()).run W [] =
      (some (.error status, ()), l) ∧ ⟨.execvp c as, some errno⟩ ∈ l

theorem ChildRefused.status_eq {status : UInt8} (h : ChildRefused c as config errno status) :
    status = execFailure errno := by
  obtain ⟨W, l, hrun, hmem⟩ := h
  obtain ⟨-, hpost, -⟩ := Prog.Ensures.sound W
    (forkedChild_refused c as (!config.foreground) config.limits) trivial
    (Always.of_forall (fun _ _ => trivial) _)
  have hstatus := hpost _ (congrArg Prod.fst hrun) errno (by rw [hrun]; exact hmem)
  cases hstatus
  rfl

/-! ## Both -/

/-- The program runs the command under `config`, the run is answered by `E`, and the program
    exits with `code`. -/
def Exits (E : World) (fuel : Nat) (c : String) (as : List String) (config : RunConfig)
    (code : UInt8) : Prop :=
  ∃ W env argv0 argv l answer, mainRun W env argv0 argv = (some (.ok code, ()), l) ∧
    ⟨.runWithRetry c as config, answer⟩ ∈ l ∧
    ((runWithRetry fuel c as config ()).run E []).1 = some (answer, ())

/-- The system refuses to execute the command with `errno`, both ways: `posix_spawnp` fails in
    `E`; in `E'` a child is forked, its `execvp` fails, and its exit is reported in time. -/
structure BothRefuse (c : String) (as : List String) (errno : Int) (plain limited : RunConfig)
    (E E' : World) (fuel' : Nat) : Prop where
  nul : (hasNul c || as.any hasNul) = false
  unlimited : plain.limits.isEmpty = true
  limits : limited.limits.isEmpty = false
  spawn : ∀ l g, E l ⟨.monitor, .posixSpawnp c as g⟩ = .error errno
  child : ∃ status usage pid calls interruptions, ChildRefused c as limited errno status ∧
    calls < fuel' ∧ interruptions < fuel' ∧
    Always (Timely limited pid (exitedWith status, usage) calls interruptions)
      ((runWithRetry fuel' c as limited ()).run E' []).2

theorem BothRefuse.run_limited (h : BothRefuse c as errno plain limited E E' fuel') :
    ∃ usage attempts, ((runWithRetry fuel' c as limited ()).run E' []).1 =
      some (.ok (.completed (exitedWith (execFailure errno)) usage, attempts), ()) := by
  obtain ⟨status, usage, pid, calls, interruptions, hchild, hcalls, hints, htimely⟩ := h.child
  rw [hchild.status_eq] at htimely
  obtain ⟨attempts, hrun, -⟩ := (finished_in_time E' fuel' c as limited pid _ calls interruptions
    hcalls hints).2 h.nul htimely
  exact ⟨_, attempts, hrun⟩

/-- The exit code is the one of the run's answer. -/
theorem Exits.executed (h : Exits E fuel c as config code)
    {answer : Except TimeoutError (RunResult × Attempts)}
    (hrun : ((runWithRetry fuel c as config ()).run E []).1 = some (answer, ())) :
    ∃ args out err, Executed args config answer code out err := by
  obtain ⟨W, env, argv0, argv, l, answer', hmain, hmem, hrun'⟩ := h
  rw [hrun] at hrun'
  cases hrun'
  have hstarted : startedIn l ≠ [] := started_ne_nil hmem (List.cons_ne_nil _ _)
  cases hargs : parseArgs env argv with
  | error x =>
    have hnone := @mainRun_refused W env argv0 argv x hargs
    rw [hmain] at hnone
    exact absurd hnone hstarted
  | ok args =>
    obtain ⟨r, l', out, err, runs, hmain', hconcl, -, -, hruns⟩ :=
      @mainRun_concluded W env argv0 argv args hargs
    rw [hmain] at hmain'
    cases hmain'
    cases hconcl with
    | ran _ _ _ hexec hmem' =>
      have heq := answer_unique hruns hmem hmem' (List.cons_ne_nil _ _) (List.cons_ne_nil _ _)
      cases heq
      exact ⟨_, _, _, hexec⟩

/-- The file is there, and the run answers `answer`. -/
def answeringWorld (answer : Except TimeoutError (RunResult × Attempts)) : Env MainCall.Ans :=
  fun _ q => match q with
    | .printHelp | .printVersion | .println _ | .eprintln _ => ()
    | .waitForFile _ _ _ => .ok ()
    | .setupSignalForwarding => none
    | .preciseNow => none
    | .runWithRetry _ _ _ => answer

/-- A run that returns is the run of every command line that leads to it. -/
theorem exits_of_ready {answer : Except TimeoutError (RunResult × Attempts)} {env : Environment}
    {argv : List String} {args : Args} (argv0 d : String)
    (hrun : ((runWithRetry fuel c as config ()).run E []).1 = some (answer, ()))
    (hargs : parseArgs env argv = .ok args)
    (ho : operandsOf (applyAlias argv0 args) (env "TIMEOUT") = .ok (d, c, as))
    (hc : configOf (applyAlias argv0 args) d = .ok config)
    (hw : waitReadable (applyAlias argv0 args) = true) : ∃ code, Exits E fuel c as config code := by
  obtain ⟨code, answer', l, hmain, hmem⟩ := mainRun_reached (W := answeringWorld answer)
    (fun _ _ _ _ => rfl) hargs ho hc hw
  have hall := Prog.run_answers (answeringWorld answer) (runMain env argv0 argv ()) (l := []) trivial
  have hl : ((runMain env argv0 argv ()).run (answeringWorld answer) []).2 = l :=
    congrArg Prod.snd hmain
  rw [hl] at hall
  obtain ⟨later, before, hsplit⟩ := List.append_of_mem hmem
  have hanswer : answer' = answer := hall.at_event hsplit
  rw [hanswer] at hmem
  exact ⟨code, _, env, argv0, argv, l, answer, hmain, hmem, hrun⟩

/-- Without limits. -/
theorem BothRefuse.plain_code (h : BothRefuse c as errno plain limited E E' fuel')
    (he : Exits E fuel c as plain code) : code = spawnFailure errno := by
  obtain ⟨args, out, err, hexec⟩ := he.executed (run_refused h.nul h.unlimited h.spawn)
  cases hexec
  exact exitCode_spawnErrorOf c errno

/-- With limits. -/
theorem BothRefuse.limited_code (h : BothRefuse c as errno plain limited E E' fuel')
    (he : Exits E' fuel' c as limited code) : code = execFailure errno := by
  obtain ⟨usage, attempts, hrun⟩ := h.run_limited
  obtain ⟨args, out, err, hexec⟩ := he.executed hrun
  cases hexec
  exact statusToExitCode_execFailure errno

theorem spawnFailure_eq_execFailure_iff (errno : Int) :
    spawnFailure errno = execFailure errno ↔ errno = ENOENT ∨ errno = EACCES ∨ errno = EPERM := by
  unfold spawnFailure execFailure
  by_cases hnoent : errno = ENOENT
  · simp [hnoent]
  · by_cases hperm : errno = EACCES ∨ errno = EPERM
    · simp [hnoent, hperm]
    · simp [hnoent, hperm]

/-- **Limits keep the exit code of an exec failure for three error numbers only**: both runs
    return, and their exit codes are equal exactly when the error is ENOENT, EACCES or EPERM. -/
theorem exec_failure_agrees_iff (h : BothRefuse c as errno plain limited E E' fuel') :
    (∀ fuel, ((runWithRetry fuel c as plain ()).run E []).1.isSome = true) ∧
    ((runWithRetry fuel' c as limited ()).run E' []).1.isSome = true ∧
    ∀ fuel code code', Exits E fuel c as plain code → Exits E' fuel' c as limited code' →
      (code = code' ↔ errno = ENOENT ∨ errno = EACCES ∨ errno = EPERM) := by
  refine ⟨fun fuel => ?_, ?_, fun fuel code code' hplain hlimited => ?_⟩
  · rw [run_refused h.nul h.unlimited h.spawn]
    rfl
  · obtain ⟨usage, attempts, hrun⟩ := h.run_limited
    rw [hrun]
    rfl
  · rw [h.plain_code hplain, h.limited_code hlimited]
    exact spawnFailure_eq_execFailure_iff errno

/-! ## A path through a file -/

/-- The configuration of an accepted command line. -/
def configAccepted (argv : List String) : RunConfig :=
  match parseArgs (fun _ => none) argv with
  | .error _ => {}
  | .ok args => match configOf args (args.duration.getD "") with
    | .error _ => {}
    | .ok config => config

/-- `procguard 5s /etc/hosts/x`, without limits and with. -/
def plainLine : List String := ["5s", "/etc/hosts/x"]

def limitedLine : List String := ["--cpu-time", "9s", "5s", "/etc/hosts/x"]

def plainWorld : World := Machine.world { spawned := .error ENOTDIR }

/-- The child's exit is reported at once. -/
def limitedWorld : World := Machine.world {
  kevent := fun _ => .ok { ident := 7, filter := EVFILT_PROC, flags := 0 }
  wait4 := fun _ => .ok (exitedWith 126, {}) }

/-- The child's limit is set, and its `execvp` fails. -/
def childWorld : Env ChildCall.Ans := fun _ q => match q with
  | .setpgid => ()
  | .setrlimitAs _ => .ok ()
  | .setrlimitCpu _ => .ok ()
  | .execvp _ _ => some ENOTDIR

theorem bothRefuse_notdir : BothRefuse "/etc/hosts/x" [] ENOTDIR (configAccepted plainLine)
    (configAccepted limitedLine) plainWorld limitedWorld 1 where
  nul := by decide +kernel
  unlimited := by decide +kernel
  limits := by decide +kernel
  spawn _ _ := rfl
  child := by
    refine ⟨126, {}, 7, 0, 0, ⟨childWorld, _, rfl, ?_⟩, by decide, by decide, by decide +kernel⟩
    exact List.mem_cons_self ..

/-- A command line of these two is accepted and leads to the run. -/
theorem exits_line (argv : List String) {answer : Except TimeoutError (RunResult × Attempts)}
    (h : ∃ args, parseArgs (fun _ => none) argv = .ok args ∧ args.duration = some "5s" ∧
      args.command = some "/etc/hosts/x" ∧ args.args = [] ∧ args.waitForFile = none ∧
      (configOf args "5s").isOk = true)
    (hrun : ((runWithRetry fuel "/etc/hosts/x" [] (configAccepted argv) ()).run E []).1 =
      some (answer, ())) : ∃ code, Exits E fuel "/etc/hosts/x" [] (configAccepted argv) code := by
  obtain ⟨args, hargs, hdur, hcmd, has, hfile, hok⟩ := h
  have hsame : applyAlias "procguard" args = args := by
    unfold applyAlias
    rw [if_neg (by simp [show isTimeoutAlias "procguard" = false by decide +kernel])]
  have hconfig : configOf args "5s" = .ok (configAccepted argv) := by
    unfold configAccepted
    rw [hargs]
    dsimp only
    rw [hdur, Option.getD_some]
    cases hc : configOf args "5s" with
    | error e => rw [hc] at hok; cases hok
    | ok config => rfl
  refine exits_of_ready "procguard" "5s" hrun hargs ?_ ?_ ?_
  · rw [hsame]
    unfold operandsOf resolveArgs
    rw [hdur, hcmd, has]
  · rw [hsame]
    exact hconfig
  · rw [hsame, waitReadable, hfile]
    rfl

/-- Both lines lead to their run. -/
theorem notdir_exits : ∃ code code',
    Exits plainWorld 1 "/etc/hosts/x" [] (configAccepted plainLine) code ∧
      Exits limitedWorld 1 "/etc/hosts/x" [] (configAccepted limitedLine) code' := by
  have hplain : ((runWithRetry 1 _ _ (configAccepted plainLine) ()).run plainWorld []).1 = _ :=
    run_refused bothRefuse_notdir.nul bothRefuse_notdir.unlimited bothRefuse_notdir.spawn
  obtain ⟨usage, attempts, hlimited⟩ := bothRefuse_notdir.run_limited
  obtain ⟨code, hcode⟩ := exits_line plainLine ⟨_, rfl, by decide +kernel⟩ hplain
  obtain ⟨code', hcode'⟩ := exits_line limitedLine ⟨_, rfl, by decide +kernel⟩ hlimited
  exact ⟨code, code', hcode, hcode'⟩

theorem exec_failure_agrees_notdir : ∃ code code',
    Exits plainWorld 1 "/etc/hosts/x" [] (configAccepted plainLine) code ∧
      Exits limitedWorld 1 "/etc/hosts/x" [] (configAccepted limitedLine) code' ∧
      (code = code' ↔ ENOTDIR = ENOENT ∨ ENOTDIR = EACCES ∨ ENOTDIR = EPERM) := by
  obtain ⟨code, code', hcode, hcode'⟩ := notdir_exits
  have hagree := (exec_failure_agrees_iff bothRefuse_notdir).2.2 1 code code' hcode hcode'
  exact ⟨code, code', hcode, hcode', hagree⟩

/-- The exit codes are 125 and 126. -/
theorem limits_change_exit_code : ¬ ∀ (c : String) (as : List String) (errno : Int)
    (plain limited : RunConfig) (E E' : World) (fuel fuel' : Nat) (code code' : UInt8),
    BothRefuse c as errno plain limited E E' fuel' → Exits E fuel c as plain code →
    Exits E' fuel' c as limited code' → code = code' := by
  intro hall
  obtain ⟨code, code', hcode, hcode'⟩ := notdir_exits
  have heq := hall _ _ _ _ _ _ _ _ _ _ _ bothRefuse_notdir hcode hcode'
  rw [bothRefuse_notdir.plain_code hcode, bothRefuse_notdir.limited_code hcode'] at heq
  exact absurd heq (by decide)

end Procguard
