import Procguard.Handler
import Procguard.OwnProcesses
import Procguard.FileWait
import Procguard.CommandOrigin

/- The whole program. `run_main` hands three things on: what it prints and reads itself, the
   wait for a file and the run; the last two are programs of their own. Carried out over one
   interface to the system they make one program, from the command line to the exit status,
   and what was proved of the parts is put together through the handlers. -/
namespace Procguard
open Interact

/-! ## The layers -/

/-- What `run_main` asks for itself. -/
inductive Console where
  | printHelp
  | printVersion
  | println (line : String)
  | eprintln (line : String)
  | setupSignalForwarding
  | preciseNow

/-- What the whole program asks of the system. -/
inductive SystemCall where
  | console (c : Console)
  | file (c : FileCall)
  | run (q : Req)

@[reducible] def SystemCall.Ans : SystemCall → Type
  | .console .setupSignalForwarding => Option Int
  | .console .preciseNow => Option UInt64
  | .console _ => Unit
  | .file c => c.Ans
  | .run q => q.call.Ans

abbrev SystemLog := Log SystemCall.Ans
abbrev SystemWorld := Env SystemCall.Ans

def onRun : Handler Ans SystemCall.Ans := fun q => .ask (.run q) .done

/-- `sleep_ms` is the one function for the wait and for the retry delay. -/
def onFile (fuel : Nat) : Handler FileCall.Ans SystemCall.Ans
  | .stat path => .ask (.file (.stat path)) .done
  | .nowNs confine => .ask (.file (.nowNs confine)) .done
  | .sleepMs ms => ((sleepMs fuel ms ()).handle onRun).bind fun _ => .done ()

def onMain (fuel : Nat) : Handler MainCall.Ans SystemCall.Ans
  | .printHelp => .ask (.console .printHelp) .done
  | .printVersion => .ask (.console .printVersion) .done
  | .println line => .ask (.console (.println line)) .done
  | .eprintln line => .ask (.console (.eprintln line)) .done
  | .setupSignalForwarding => .ask (.console .setupSignalForwarding) .done
  | .preciseNow => .ask (.console .preciseNow) .done
  | .waitForFile path timeout confine =>
    ((waitForFile fuel path timeout confine ()).handle (onFile fuel)).bind fun r => .done r.1
  | .runWithRetry command args config =>
    ((runWithRetry fuel command args config ()).handle onRun).bind fun r => .done r.1

/-- The program, from the command line to the exit status. -/
def program (fuel : Nat) (env : Environment) (argv0 : String) (argv : List String) :
    Prog SystemCall.Ans (Except UInt8 UInt8 × Unit) :=
  (runMain env argv0 argv ()).handle (onMain fuel)

def programRun (W : SystemWorld) (fuel : Nat) (env : Environment) (argv0 : String)
    (argv : List String) : Option (Except UInt8 UInt8 × Unit) × SystemLog :=
  (program fuel env argv0 argv).run W []

/-- The calls of the run, in the log of the program. -/
def runEvent : Ev SystemCall.Ans → Option Event
  | ⟨.run q, a⟩ => some ⟨q, a⟩
  | _ => none

theorem onRun_shown : onRun.Shown runEvent := fun q => ⟨.run q, id, rfl, fun _ => rfl⟩

/-! ## Before the run -/

/-- The command line says so: the command, its arguments and the configuration. -/
structure Planned (env : Environment) (argv0 : String) (argv : List String) (args : Args)
    (command : String) (extraArgs : List String) (config : RunConfig) : Prop where
  accepted : ∃ r, parseArgs env argv = .ok r ∧ args = applyAlias argv0 r
  operands : ∃ d, operandsOf args (env "TIMEOUT") = .ok (d, command, extraArgs) ∧
    configOf args d = .ok config

/-- The wait for the file has ended well. -/
def FileWaited (path : String) (L : MainLog) : Prop :=
  ∃ timeout confine, (⟨.waitForFile path timeout confine, .ok ()⟩ : Ev MainCall.Ans) ∈ L

def ForwardingSet (L : MainLog) : Prop :=
  ∃ fd, (⟨.setupSignalForwarding, fd⟩ : Ev MainCall.Ans) ∈ L

/-- The run is started once, as planned, and when everything is ready. -/
def StartsPlanned (env : Environment) (argv0 : String) (argv : List String) (e : Ev MainCall.Ans)
    (L : MainLog) : Prop :=
  ∀ command extraArgs config, e.req = .runWithRetry command extraArgs config →
    startedIn L = [] ∧ ∃ args, Planned env argv0 argv args command extraArgs config ∧
      (∀ path, args.waitForFile = some path → FileWaited path L) ∧ ForwardingSet L

def plannedStart (env : Environment) (argv0 : String) (argv : List String) :
    Contract MainCall.Ans where
  guar := StartsPlanned env argv0 argv

instance : Nonempty (Env MainCall.Ans) := ⟨fun _ q => match q with
  | .printHelp | .printVersion | .println _ | .eprintln _ => ()
  | .waitForFile _ _ _ => .ok ()
  | .setupSignalForwarding => none
  | .preciseNow => none
  | .runWithRetry _ _ _ => .error .negativeDuration⟩

section main
variable {env : Environment} {argv0 : String} {argv : List String} {L : MainLog}

/-- A request that starts no run. -/
def MainCall.startless (q : MainCall) : Prop := q.started = []

theorem StartsPlanned.of_startless {q : MainCall} {a : q.Ans} (h : q.startless) :
    StartsPlanned env argv0 argv ⟨q, a⟩ L := by
  rintro command extraArgs config rfl
  cases h

theorem startedIn_suffix {L' : MainLog} (hs : L <:+ L') (h : startedIn L' = []) :
    startedIn L = [] := by
  obtain ⟨t, rfl⟩ := hs
  rw [startedIn, List.flatMap_append] at h
  exact (List.append_eq_nil_iff.mp h).2

/-- A part that starts no run. -/
theorem startless_ensures {ε α : Type} {m : MainAct ε α} {P : Except ε α → Prop}
    (hm : ∀ W, m.Ensures (AnswersOf W) () L fun r _ L' => P r ∧ startedIn L' = startedIn L)
    (hL : startedIn L = []) :
    m.Ensures (plannedStart env argv0 argv) () L fun r _ L' => P r ∧ startedIn L' = [] := by
  refine Prog.ensures_of_answers (N := fun L' => startedIn L' = []) (fun W => ?_) ?_
    (fun _ _ hs => startedIn_suffix hs) fun e L h => ?_
  · exact Prog.Ensures.mono (fun _ _ h => ⟨h.1, h.2.trans hL⟩) (hm W)
  · exact fun _ _ h => h.2
  · obtain ⟨q, a⟩ := e
    exact .of_startless (List.append_eq_nil_iff.mp h).1

theorem Adds.same {quiet : Bool} {out : List Output} {err : List String} {L' : MainLog}
    (h : Adds quiet out err [] L L') : startedIn L' = startedIn L := h.started

/-- A file that was to be waited for has been seen. -/
theorem awaitFile_waits (prog : String) (args : Args) (config : RunConfig) :
    (awaitFile prog args config).Ensures {} () L fun r _ L' => r = .ok () →
      ∀ path, args.waitForFile = some path → FileWaited path L' := by
  unfold awaitFile
  cases args.waitForFile with
  | none => rintro _ _ ⟨⟩
  | some path =>
    dsimp only
    rw [Act.ensures_bind]
    refine (Act.ensures_extends _ _ _).mono fun r _ L₁ _ => ?_
    cases r with
    | error code => rintro ⟨⟩
    | ok timeout =>
      dsimp only
      rw [Act.ensures_bind]
      refine (Act.ensures_extends _ _ _).mono fun r _ L₂ _ => ?_
      cases r with
      | error code => rintro ⟨⟩
      | ok _ =>
        dsimp only
        rw [Act.ensures_bind, Act.ensures_call]
        intro a _
        refine ⟨trivial, ?_⟩
        cases a with
        | error e =>
          dsimp only
          rw [Act.ensures_bind]
          refine (Act.ensures_extends _ _ _).mono fun r _ _ _ => ?_
          cases r <;> rintro ⟨⟩
        | ok found =>
          refine (Act.ensures_extends _ _ _).mono fun r _ L₃ hs => ?_
          rintro - _ ⟨⟩
          exact ⟨timeout, config.confine, hs.subset (List.mem_cons_self ..)⟩

/-! A part of which every request is known to start no run. -/

theorem startless_asking {ε α : Type} {m : MainAct ε α} (hm : m.Asking MainCall.startless)
    (L : MainLog) : m.Ensures (plannedStart env argv0 argv) () L fun _ _ _ => True :=
  hm.ensures (fun _ => True) (fun _ _ hq _ _ _ => ⟨.of_startless hq, trivial⟩)
    (fun _ _ => trivial) trivial

theorem startless_eprintLine {ε : Type} (line : String) :
    (eprintLine line : MainAct ε Unit).Asking MainCall.startless :=
  .bind (.call rfl) fun _ => .pure

theorem startless_printLine {ε : Type} (line : String) :
    (printLine line : MainAct ε Unit).Asking MainCall.startless :=
  .bind (.call rfl) fun _ => .pure

theorem startless_reportError (prog : String) (args : Args) (e : TimeoutError) (ms : Nat) :
    (reportError prog args e ms).Asking MainCall.startless :=
  .ite (startless_printLine _) (.ite (startless_eprintLine _) .pure)

theorem startless_warnExitCode (args : Args) (result : RunResult) :
    (warnExitCode args result).Asking MainCall.startless := by
  unfold warnExitCode
  cases reservedExitCode args result with
  | none => exact .pure
  | some code => exact startless_eprintLine _

theorem execute_plans {args : Args} {config : RunConfig} {command : String}
    {extraArgs : List String} (prog : String)
    (hplan : Planned env argv0 argv args command extraArgs config)
    (hfile : ∀ path, args.waitForFile = some path → FileWaited path L) (hL : startedIn L = []) :
    (execute prog args config command extraArgs).Ensures (plannedStart env argv0 argv) () L
      fun _ _ _ => True := by
  unfold execute
  rw [Act.ensures_bind, Act.ensures_call]
  intro fd _
  refine ⟨.of_startless rfl, ?_⟩
  dsimp only
  rw [Act.ensures_bind, Act.ensures_call]
  intro start _
  refine ⟨.of_startless rfl, ?_⟩
  dsimp only
  rw [Act.ensures_bind, Act.ensures_call]
  intro answer _
  refine ⟨?_, ?_⟩
  swap
  · have hclock : (mainCall .preciseNow : MainAct UInt8 _).Asking MainCall.startless := .call rfl
    refine startless_asking (hclock.bind fun stop => ?_) _
    cases answer with
    | error e => exact .bind (startless_reportError prog args e _) fun _ => .pure
    | ok answer =>
      refine .bind (startless_warnExitCode args answer.1) fun _ => ?_
      exact .ite (.bind (startless_printLine _) fun _ => .pure) .pure
  rintro _ _ _ ⟨⟩
  refine ⟨hL, args, hplan, fun path hpath => ?_, fd, List.mem_cons_of_mem _ (List.mem_cons_self ..)⟩
  obtain ⟨timeout, confine, hmem⟩ := hfile path hpath
  exact ⟨timeout, confine, List.mem_cons_of_mem _ (List.mem_cons_of_mem _ hmem)⟩

/-- The run is started once, with what the command line says, and when all is ready. -/
theorem runMain_plans :
    (runMain env argv0 argv).Ensures (plannedStart env argv0 argv) () [] fun _ _ _ => True := by
  unfold runMain acceptArgs
  cases hparse : parseArgs env argv with
  | error x =>
    cases x with
    | help => exact fun _ _ => ⟨.of_startless rfl, trivial⟩
    | version => exact fun _ _ => ⟨.of_startless rfl, trivial⟩
    | error message => exact fun _ _ => ⟨.of_startless rfl, trivial⟩
  | ok r =>
    have hargs : ∃ r', parseArgs env argv = .ok r' ∧ applyAlias argv0 r = applyAlias argv0 r' :=
      ⟨r, hparse, rfl⟩
    show (runAccepted env argv0 r).Ensures _ () [] _
    unfold runAccepted
    dsimp only
    generalize applyAlias argv0 r = args at hargs
    generalize progName argv0 = prog
    rw [Act.ensures_bind]
    -- up to the wait for a file nothing is started, whatever is printed
    refine (startless_ensures (P := fun r => r = operandsOf args (env "TIMEOUT"))
      (fun W => (operands_adds prog args _).mono fun _ _ _ h => ⟨h.1, h.2.same⟩) rfl).mono ?_
    rintro _ _ L₁ ⟨rfl, hL₁⟩
    cases ho : operandsOf args (env "TIMEOUT") with
    | error code => exact trivial
    | ok found =>
      obtain ⟨d, c, as⟩ := found
      dsimp only
      rw [Act.ensures_bind]
      refine (startless_ensures
        (P := fun r => r = (configOf args d).mapError TimeoutError.exitCode)
        (fun W => (configure_adds prog args d).mono fun _ _ _ h => ⟨h.1, h.2.same⟩) hL₁).mono ?_
      rintro _ _ L₂ ⟨rfl, hL₂⟩
      cases hc : configOf args d with
      | error e => exact trivial
      | ok config =>
        -- the one start of the program is planned by what was parsed
        have hplan : Planned env argv0 argv args c as config := ⟨hargs, d, ho, hc⟩
        dsimp only [Except.mapError]
        rw [Act.ensures_bind]
        refine ((startless_ensures (P := fun _ => True) (fun W => (awaitFile_adds prog args
          config).mono ?_) hL₂).with (awaitFile_waits prog args config)).mono ?_
        · rintro _ _ _ ⟨out, -, h⟩
          exact ⟨trivial, h.same⟩
        · rintro r _ L₃ ⟨⟨-, hL₃⟩, hfile⟩
          cases r with
          | error code => exact trivial
          | ok _ => exact execute_plans prog hplan (hfile rfl) hL₃

end main
end Procguard
