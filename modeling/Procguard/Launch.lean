import Procguard.Program

/- The layers put together. `Below` relates the log of `run_main` to the log of the program:
   what the upper log says was done, the lower one shows. Every handler keeps it, so what
   `runMain_plans` promises of the start of the run holds of every process the program
   starts, and what `runWithRetry_household` promises of the run holds in the program.
   `RunReturned` says of the answer of `run_with_retry` that a run of it gave it. -/
namespace Procguard
open Interact

/-- The system has seen the file. -/
def FileSeen (path : String) (e : Ev SystemCall.Ans) (_ : SystemLog) : Prop :=
  e = ⟨.file (.stat (cPath path)), .ok ()⟩

def SetsForwarding (e : Ev SystemCall.Ans) (_ : SystemLog) : Prop :=
  e.req = .console .setupSignalForwarding

/-- A call that neither starts a process nor signals nor waits for one. -/
def SystemCall.apart : SystemCall → Prop
  | .run q => q.apart
  | _ => True

/-- What the log of `run_main` says was done, the log of the program shows. -/
structure Below (L : MainLog) (l : SystemLog) : Prop where
  seen : ∀ path, FileWaited path L → Ever (FileSeen path) l
  ready : ForwardingSet L → Ever SetsForwarding l
  alone : startedIn L = [] → Alone (Interact.seen runEvent l)
  told : ∀ command extraArgs config answer,
    (⟨.runWithRetry command extraArgs config, answer⟩ : Ev MainCall.Ans) ∈ L →
      TellsLast answer (Interact.seen runEvent l)

/-- A stretch of the log is a run of `run_with_retry` with this answer. -/
def RetryRun (W : SystemWorld) (fuel : Nat) (command : String) (extraArgs : List String)
    (config : RunConfig) (answer : Except TimeoutError (RunResult × Attempts)) (l : SystemLog) :
    Prop :=
  ∃ l₁ l₂, l₂ <:+ l ∧
    ((runWithRetry fuel command extraArgs config ()).handle onRun).run W l₁ =
      (some (answer, ()), l₂)

/-- A process is started as planned, when all is ready. -/
def Launched (env : Environment) (argv0 : String) (argv : List String) (e : Event)
    (l : SystemLog) : Prop :=
  ∃ args command extraArgs config, Planned env argv0 argv args command extraArgs config ∧
    e.req.call = spawnCall command extraArgs config ∧
    (∀ path, args.waitForFile = some path → Ever (FileSeen path) l) ∧ Ever SetsForwarding l

/-- What the program owes at every call of the run. -/
structure RunGuar (env : Environment) (argv0 : String) (argv : List String) (e : Event)
    (l : SystemLog) : Prop where
  household : ∃ spawn, HouseholdGuar spawn e (seen runEvent l)
  launched : isSpawn e = true → Launched env argv0 argv e l

def running (env : Environment) (argv0 : String) (argv : List String) : Contract SystemCall.Ans where
  guar e l := ∀ e', runEvent e = some e' → RunGuar env argv0 argv e' l

section layers
variable {env : Environment} {argv0 : String} {argv : List String} {L : MainLog} {l : SystemLog}

theorem running_apart {q : SystemCall} {a : q.Ans} (hq : q.apart) :
    (running env argv0 argv).guar ⟨q, a⟩ l := by
  cases q with
  | console c => rintro _ ⟨⟩
  | file c => rintro _ ⟨⟩
  | run q =>
    rintro _ ⟨⟩
    refine ⟨⟨.nanosleep ⟨0, 0⟩, .of_aside hq⟩, fun hs => ?_⟩
    rw [isSpawn_aside (aside_target hq).2] at hs
    cases hs

/-- A call apart changes nothing of it. -/
theorem Below.event (h : Below L l) {q : SystemCall} {a : q.Ans} (hq : q.apart) :
    Below L (⟨q, a⟩ :: l) where
  seen path hpath := .inr (h.seen path hpath)
  ready hset := .inr (h.ready hset)
  alone hL := by
    cases q with
    | console c => exact h.alone hL
    | file c => exact h.alone hL
    | run q => exact (h.alone hL).event hq
  told command extraArgs config answer hmem := by
    cases q with
    | console c => exact h.told command extraArgs config answer hmem
    | file c => exact h.told command extraArgs config answer hmem
    | run q => exact (h.told command extraArgs config answer hmem).event hq

/-- Apart from what the log says of the new request, nothing changes. -/
theorem Below.request (h : Below L l) {q : MainCall} {a : q.Ans}
    (hwait : ∀ path, FileWaited path (⟨q, a⟩ :: L) → FileWaited path L ∨ Ever (FileSeen path) l)
    (hset : ForwardingSet (⟨q, a⟩ :: L) → ForwardingSet L ∨ Ever SetsForwarding l)
    (hrun : q.startless) : Below (⟨q, a⟩ :: L) l where
  seen path hpath := (hwait path hpath).elim (h.seen path) id
  ready hready := (hset hready).elim h.ready id
  alone hL := h.alone (List.append_eq_nil_iff.mp hL).2
  told command extraArgs config answer hmem := by
    rcases List.mem_cons.mp hmem with heq | hmem
    · cases heq
      cases hrun
    · exact h.told command extraArgs config answer hmem

theorem FileWaited.of_cons {q : MainCall} {a : q.Ans} {path : String}
    (h : FileWaited path (⟨q, a⟩ :: L)) (hq : ∀ t c, q ≠ .waitForFile path t c) :
    FileWaited path L := by
  obtain ⟨timeout, confine, hmem⟩ := h
  rcases List.mem_cons.mp hmem with heq | hmem
  · cases heq
    exact absurd rfl (hq timeout confine)
  · exact ⟨timeout, confine, hmem⟩

theorem ForwardingSet.of_cons {q : MainCall} {a : q.Ans} (h : ForwardingSet (⟨q, a⟩ :: L))
    (hq : q ≠ .setupSignalForwarding) : ForwardingSet L := by
  obtain ⟨fd, hmem⟩ := h
  rcases List.mem_cons.mp hmem with heq | hmem
  · cases heq
    exact absurd rfl hq
  · exact ⟨fd, hmem⟩

/-- A request of the console; what it does to the logs is seen from its kind. -/
theorem Below.asks_console (h : Below L l) (q : MainCall) (c : Console)
    (f : SystemCall.Ans (.console c) → q.Ans) (hwait : ∀ p t c, q ≠ .waitForFile p t c)
    (hset : q = .setupSignalForwarding → c = .setupSignalForwarding) (hrun : q.startless) :
    (Prog.ask (A := SystemCall.Ans) (.console c) fun b => .done (f b)).Ensures
      (running env argv0 argv) l fun a l' => Below (⟨q, a⟩ :: L) l' := by
  intro b _
  refine ⟨running_apart (q := .console c) trivial, (h.event (q := .console c) trivial).request
    (fun path hpath => .inl (hpath.of_cons fun t c => hwait path t c)) (fun hready => ?_) hrun⟩
  by_cases hq : q = .setupSignalForwarding
  · exact .inr (.inl (congrArg SystemCall.console (hset hq)))
  · exact .inl (hready.of_cons hq)

/-! ## The wait for the file -/

theorem apart_sleepMs (fuel ms : Nat) :
    ((sleepMs fuel ms ()).handle onRun).Asking SystemCall.apart :=
  Prog.Asking.handle (H := onRun) (fun _ hq => ⟨hq, fun _ => trivial⟩)
    (asking_apart_sleepMs fuel ms ())

theorem apart_onFile (fuel : Nat) (q : FileCall) : (onFile fuel q).Asking SystemCall.apart := by
  cases q with
  | stat path => exact ⟨trivial, fun _ => trivial⟩
  | nowNs confine => exact ⟨trivial, fun _ => trivial⟩
  | sleepMs ms => exact Prog.asking_bind (apart_sleepMs fuel ms) fun _ => trivial

/-- What a look of the wait saw, the system has seen. -/
theorem onFile_seen (fuel : Nat) (path : String) {L : FileLog} (q : FileCall)
    (h : (⟨.stat (cPath path), .ok ()⟩ : Ev FileCall.Ans) ∈ L → Ever (FileSeen path) l) :
    (onFile fuel q).Ensures {} l fun a l' =>
      (⟨.stat (cPath path), .ok ()⟩ : Ev FileCall.Ans) ∈ (⟨q, a⟩ :: L : FileLog) →
        Ever (FileSeen path) l' := by
  have hlater : ∀ (a : q.Ans) l', l <:+ l' → q ≠ .stat (cPath path) →
      (⟨.stat (cPath path), .ok ()⟩ : Ev FileCall.Ans) ∈ (⟨q, a⟩ :: L : FileLog) →
        Ever (FileSeen path) l' := by
    intro a l' hs hq hmem
    rcases List.mem_cons.mp hmem with heq | hmem
    · cases heq
      exact absurd rfl hq
    · exact (h hmem).later hs
  cases q with
  | nowNs confine => exact fun a _ => ⟨trivial, hlater a _ (List.suffix_cons _ l) (by rintro ⟨⟩)⟩
  | sleepMs ms =>
    exact (Prog.ensures_extends _ l).mono fun a l' hs => hlater a l' hs (by rintro ⟨⟩)
  | stat p =>
    intro a _
    refine ⟨trivial, fun hmem => ?_⟩
    rcases List.mem_cons.mp hmem with heq | hmem
    · cases heq
      exact .inl rfl
    · exact .inr (h hmem)

/-- A wait that ends well has seen the file. -/
theorem fileExists_seen (path : String) (L : FileLog) :
    (fileExists path).Ensures {} () L fun r _ L' => r = .ok (.ok true) →
      (⟨.stat (cPath path), .ok ()⟩ : Ev FileCall.Ans) ∈ L' := by
  apply fileExists_ensures
  · exact fun _ => trivial
  · exact fun _ => List.mem_cons_self ..
  · rintro _ ⟨⟩
  · rintro _ ⟨⟩
  · rintro ⟨⟩

theorem waitForFile_seen (fuel : Nat) (path : String) (timeout : Option Duration)
    (confine : Confine) (L : FileLog) :
    (waitForFile fuel path timeout confine).Ensures {} () L fun r _ L' => r = .ok () →
      (⟨.stat (cPath path), .ok ()⟩ : Ev FileCall.Ans) ∈ L' := by
  rw [waitForFile, Act.ensures_bind]
  refine (fileExists_seen path L).mono fun r _ L₁ hr => ?_
  rcases r with e | err | _ | _
  · rintro ⟨⟩
  · rintro ⟨⟩
  · dsimp only
    rw [Act.ensures_bind]
    refine (Act.ensures_extends _ _ _).mono fun r _ L₂ _ => ?_
    cases r with
    | error e => rintro ⟨⟩
    | ok deadlineNs =>
      -- each round ends with a look, and only a look that finds the file ends the loop well
      refine Act.ensures_iterate (fun _ _ _ => True) ?_ (fun _ _ _ _ => trivial) fuel trivial
      intro ms s L₃ _
      rw [pollRound, Act.ensures_bind]
      refine (Act.ensures_extends _ _ _).mono fun r _ L₄ _ => ?_
      cases r with
      | error e => rintro ⟨⟩
      | ok sleep =>
        dsimp only
        rw [Act.ensures_bind, Act.ensures_call]
        intro a _
        refine ⟨trivial, ?_⟩
        dsimp only
        rw [Act.ensures_bind]
        refine (fileExists_seen path _).mono fun r _ L₅ hr => ?_
        rcases r with e | err | _ | _
        · rintro ⟨⟩
        · rintro ⟨⟩
        · exact trivial
        · exact fun _ => hr rfl
  · exact fun _ => hr rfl

theorem waitForFile_below (fuel : Nat) (path : String) (timeout : Option Duration)
    (confine : Confine) (h : Below L l) :
    ((waitForFile fuel path timeout confine ()).handle (onFile fuel)).Ensures
      (running env argv0 argv) l fun r l' =>
        Below L l' ∧ (r.1 = .ok () → Ever (FileSeen path) l') := by
  have hask : ((waitForFile fuel path timeout confine ()).handle (onFile fuel)).Asking
      SystemCall.apart :=
    Prog.Asking.handle (P := fun _ => True) (fun q _ => apart_onFile fuel q)
      (Prog.asking_of_forall (fun _ => trivial) _)
  have hkeep := hask.ensures (K := running env argv0 argv) (l := l) (Below L)
    (fun q l hq h a _ => ⟨running_apart hq, h.event hq⟩) (fun _ _ => trivial) h
  have hseen : ((waitForFile fuel path timeout confine ()).handle (onFile fuel)).Ensures {} l
      fun r l' => ∃ FL : FileLog, ((⟨.stat (cPath path), .ok ()⟩ : Ev FileCall.Ans) ∈ FL →
        Ever (FileSeen path) l') ∧
          (r.1 = .ok () → (⟨.stat (cPath path), .ok ()⟩ : Ev FileCall.Ans) ∈ FL) :=
    Prog.Ensures.handle (waitForFile_seen fuel path timeout confine [])
      (fun q FL l hFL _ => (onFile_seen fuel path q hFL).mono fun _ _ h => ⟨trivial, h⟩)
      (fun _ _ _ _ => trivial) (by rintro ⟨⟩)
  refine hkeep.with (hseen.mono ?_)
  rintro r l' ⟨FL, hFL, hr⟩ hok
  exact hFL (hr hok)

/-! ## The run -/

theorem runWithRetry_below (fuel : Nat) {command : String} {extraArgs : List String}
    {config : RunConfig} (h : Below L l) (hL : startedIn L = []) {args : Args}
    (hplan : Planned env argv0 argv args command extraArgs config)
    (hfile : ∀ path, args.waitForFile = some path → FileWaited path L) (hset : ForwardingSet L) :
    ((runWithRetry fuel command extraArgs config ()).handle onRun).Ensures
      (running env argv0 argv) l fun r l' =>
        TellsLast r.1 (seen runEvent l') ∧ ((∀ path, FileWaited path L → Ever (FileSeen path) l') ∧
          (ForwardingSet L → Ever SetsForwarding l')) := by
  have hhousehold : ((runWithRetry fuel command extraArgs config) ()).Ensures
      (household (spawnCall command extraArgs config)) (seen runEvent l) fun r l' =>
        TellsLast r.1 l' := runWithRetry_household (h.alone hL)
  have hrun := hhousehold.through onRun_shown
  -- what was ready at the start is so at every later event
  let M (l : SystemLog) : Prop := (∀ path, FileWaited path L → Ever (FileSeen path) l) ∧
    (ForwardingSet L → Ever SetsForwarding l)
  have hlasting := Prog.ensures_lasting (K := { guar := fun _ l => M l }) (M := M)
    (fun e l hM => ⟨fun path hpath => .inr (hM.1 path hpath), fun hset => .inr (hM.2 hset)⟩)
    (fun _ _ hM => hM) (fun _ _ => trivial)
    ((runWithRetry fuel command extraArgs config ()).handle onRun) ⟨h.seen, h.ready⟩
  refine (hrun.both hlasting).weaken (fun _ _ _ => ⟨fun _ _ => trivial, trivial⟩) ?_
    fun _ _ => trivial
  rintro e l - ⟨hguar, hM⟩ e' he'
  refine ⟨⟨_, hguar e' he'⟩, fun hs => ⟨args, command, extraArgs, config, hplan, ?_, ?_, hM.2 hset⟩⟩
  · exact (hguar e' he').command hs
  · exact fun path hpath => hM.1 path (hfile path hpath)

/-- Every request of `run_main` is carried out so that the lower log shows it. -/
theorem onMain_below (fuel : Nat) (q : MainCall) (h : Below L l)
    (hplan : ∀ a : q.Ans, StartsPlanned env argv0 argv ⟨q, a⟩ L) :
    (onMain fuel q).Ensures (running env argv0 argv) l fun a l' => Below (⟨q, a⟩ :: L) l' := by
  cases q with
  | printHelp => exact h.asks_console .printHelp .printHelp id (by rintro _ _ _ ⟨⟩) (by rintro ⟨⟩) rfl
  | printVersion => exact h.asks_console .printVersion .printVersion id (by rintro _ _ _ ⟨⟩) (by rintro ⟨⟩) rfl
  | println line =>
    exact h.asks_console (.println line) (.println line) id (by rintro _ _ _ ⟨⟩) (by rintro ⟨⟩) rfl
  | eprintln line =>
    exact h.asks_console (.eprintln line) (.eprintln line) id (by rintro _ _ _ ⟨⟩) (by rintro ⟨⟩) rfl
  | preciseNow => exact h.asks_console .preciseNow .preciseNow id (by rintro _ _ _ ⟨⟩) (by rintro ⟨⟩) rfl
  | setupSignalForwarding => exact h.asks_console .setupSignalForwarding .setupSignalForwarding id (by rintro _ _ _ ⟨⟩) (fun _ => rfl) rfl
  -- the file that was waited for is the one that was seen last
  | waitForFile path timeout confine =>
    rw [onMain, Prog.ensures_bind]
    refine (waitForFile_below fuel path timeout confine h).mono ?_
    rintro ⟨r, s⟩ l' ⟨h', hseen⟩
    refine h'.request (fun path' hpath => ?_) (fun hset => .inl (hset.of_cons (by rintro ⟨⟩))) rfl
    obtain ⟨t, c, hmem⟩ := hpath
    rcases List.mem_cons.mp hmem with heq | hmem
    · cases heq
      exact .inr (hseen rfl)
    · exact .inl ⟨t, c, hmem⟩
  -- the one request of the program that starts processes
  | runWithRetry command extraArgs config =>
    obtain ⟨hL, args, hplanned, hfile, hset⟩ :=
      hplan (.error .negativeDuration) command extraArgs config rfl
    rw [onMain, Prog.ensures_bind]
    refine (runWithRetry_below fuel h hL hplanned hfile hset).mono ?_
    rintro ⟨r, s⟩ l' ⟨htells, hseen, hready⟩
    refine ⟨fun path hpath => hseen path (hpath.of_cons (by rintro _ _ ⟨⟩)),
      fun hset => hready (hset.of_cons (by rintro ⟨⟩)), fun hL' => ?_, ?_⟩
    · cases (List.append_eq_nil_iff.mp hL').1
    · intro command' extraArgs' config' answer hmem
      rcases List.mem_cons.mp hmem with heq | hmem
      · cases heq
        exact htells
      · have hno : startedIn L ≠ [] := List.ne_nil_of_mem (mem_startedIn hmem)
        exact absurd hL hno

/-- What the upper log says `run_with_retry` returned, a run of it returned. -/
def RunReturned (W : SystemWorld) (fuel : Nat) (L : MainLog) (l : SystemLog) : Prop :=
  Always (Prog.answers W).rely l → ∀ command extraArgs config answer,
    (⟨.runWithRetry command extraArgs config, answer⟩ : Ev MainCall.Ans) ∈ L →
      RetryRun W fuel command extraArgs config answer l

theorem onMain_returned (W : SystemWorld) (fuel : Nat) (q : MainCall) (h : RunReturned W fuel L l) :
    (onMain fuel q).Ensures {} l fun a l' => RunReturned W fuel (⟨q, a⟩ :: L) l' := by
  -- an earlier run is a stretch of the longer log
  have hearlier : ∀ {l'}, l <:+ l' → Always (Prog.answers W).rely l' →
      ∀ command extraArgs config answer,
        (⟨.runWithRetry command extraArgs config, answer⟩ : Ev MainCall.Ans) ∈ L →
          RetryRun W fuel command extraArgs config answer l' := by
    intro l' hs hr command extraArgs config answer hmem
    obtain ⟨l₁, l₂, hs₂, hrun⟩ := h (hr.suffix hs) command extraArgs config answer hmem
    exact ⟨l₁, l₂, hs₂.trans hs, hrun⟩
  have hother : (∀ c as config, q ≠ .runWithRetry c as config) →
      (onMain fuel q).Ensures {} l fun a l' => RunReturned W fuel (⟨q, a⟩ :: L) l' := by
    intro hq
    refine (Prog.ensures_extends _ l).mono fun a l' hs hr command extraArgs config answer hmem => ?_
    rcases List.mem_cons.mp hmem with heq | hmem
    · cases heq
      exact absurd rfl (hq command extraArgs config)
    · exact hearlier hs hr command extraArgs config answer hmem
  cases q with
  | runWithRetry command extraArgs config =>
    rw [onMain, Prog.ensures_bind]
    refine ((Prog.ensures_replay W _ l).with (Prog.ensures_extends _ l)).mono ?_
    rintro ⟨r, ⟨⟩⟩ l' ⟨hrun, hs⟩ hr command' extraArgs' config' answer hmem
    rcases List.mem_cons.mp hmem with heq | hmem
    · cases heq
      exact ⟨l, l', List.suffix_refl l', hrun hr⟩
    · exact hearlier hs hr command' extraArgs' config' answer hmem
  | _ => exact hother (by rintro _ _ _ ⟨⟩)

end layers

/-! ## The program -/

/-- How `run_main` ends, by its own log. -/
def MainEnds (env : Environment) (argv0 : String) (argv : List String) (r : Except UInt8 UInt8)
    (L : MainLog) : Prop :=
  match parseArgs env argv with
  | .error (.error _) => r = .error exitInternalError
  | .error _ => r = .error 0
  | .ok args => ∃ out err runs, Concluded (applyAlias argv0 args) (env "TIMEOUT") r out err runs L

theorem runMain_ends (env : Environment) (argv0 : String) (argv : List String) :
    (runMain env argv0 argv).Ensures {} () [] fun r _ L => MainEnds env argv0 argv r L := by
  refine Prog.ensures_of_answers (N := fun _ => True) (fun W => ?_) (fun _ _ _ => trivial)
    (fun _ _ _ _ => trivial) fun _ _ _ => trivial
  have hends : (runMain env argv0 argv).Ensures (AnswersOf W) () [] fun r _ L =>
      MainEnds env argv0 argv r L := by
    unfold runMain acceptArgs MainEnds
    cases parseArgs env argv with
    | error x => cases x <;> exact fun _ _ => ⟨trivial, rfl⟩
    | ok args =>
      refine (runAccepted_concluded env argv0 args).mono ?_
      rintro r _ L ⟨out, err, runs, hconcluded, -⟩
      exact ⟨out, err, runs, hconcluded⟩
  exact hends

/-- What the program owes at every call of the run, and what its end says. -/
theorem program_ensures (W : SystemWorld) (fuel : Nat) (env : Environment) (argv0 : String)
    (argv : List String) :
    (program fuel env argv0 argv).Ensures (running env argv0 argv) [] fun r l =>
      ∃ L, (Below L l ∧ RunReturned W fuel L l) ∧ MainEnds env argv0 argv r.1 L := by
  have hmain : (runMain env argv0 argv).Ensures (plannedStart env argv0 argv) () [] fun r _ L =>
      MainEnds env argv0 argv r L :=
    (runMain_plans.with (runMain_ends env argv0 argv)).mono fun _ _ _ h => h.2
  have hbelow : Below [] [] := by
    refine ⟨fun path hpath => ?_, fun hset => ?_, fun _ => .nil, fun _ _ _ _ hmem => ?_⟩
    · obtain ⟨t, c, hmem⟩ := hpath
      cases hmem
    · obtain ⟨fd, hmem⟩ := hset
      cases hmem
    · cases hmem
  have hnone : RunReturned W fuel [] [] := fun _ _ _ _ _ hmem => absurd hmem List.not_mem_nil
  refine Prog.Ensures.handle hmain (fun q L l h hguar => ?_) (fun _ _ _ _ => trivial)
    ⟨hbelow, hnone⟩
  exact ((onMain_below fuel q h.1 fun a => hguar a trivial).with
    (onMain_returned W fuel q h.2)).mono fun _ _ h' => ⟨trivial, h'⟩

section run
variable (W : SystemWorld) (fuel : Nat) (env : Environment) (argv0 : String) (argv : List String)

theorem programRun_kept :
    Always (running env argv0 argv).guar (programRun W fuel env argv0 argv).2 ∧
      ∀ r, (programRun W fuel env argv0 argv).1 = some r →
        ∃ L, (Below L (programRun W fuel env argv0 argv).2 ∧
          RunReturned W fuel L (programRun W fuel env argv0 argv).2) ∧
            MainEnds env argv0 argv r.1 L := by
  have h := (program_ensures W fuel env argv0 argv).sound W Always.nil
    (Always.of_forall (fun _ _ => trivial) _)
  exact ⟨h.1, h.2.1⟩

/-- **Only our own processes are touched.** Every process the program signals or waits for is
    one that it started itself (the command or the hook) and that it has not reaped: whatever
    the system answers, no signal goes to a process that has taken over the number. -/
theorem own_processes_only :
    Always (fun e l => ∀ p, e.req.call.target = some p → processes.Living p l)
      (seen runEvent (programRun W fuel env argv0 argv).2) := by
  refine Always.seen ((programRun_kept W fuel env argv0 argv).1.mono fun e l h e' he' => ?_)
  obtain ⟨spawn, hhousehold⟩ := (h e' he').household
  exact hhousehold.own

/-- **Attempts do not overlap.** When the command is started, every process that an earlier
    attempt started has been reaped. -/
theorem attempts_apart :
    Always (fun e l => isSpawn e = true → ∀ p, ¬ commands.Living p l)
      (seen runEvent (programRun W fuel env argv0 argv).2) := by
  refine Always.seen ((programRun_kept W fuel env argv0 argv).1.mono fun e l h e' he' => ?_)
  obtain ⟨spawn, hhousehold⟩ := (h e' he').household
  exact hhousehold.apart

/-- **Launched as planned.** Whatever is started is the command of the command line, with its
    arguments and limits; by then the configuration was accepted, the handlers that forward
    signals were set up, and a file that was to be waited for had been seen. -/
theorem launched_as_planned :
    Always (fun e l => ∀ e', runEvent e = some e' → isSpawn e' = true →
      Launched env argv0 argv e' l) (programRun W fuel env argv0 argv).2 :=
  (programRun_kept W fuel env argv0 argv).1.mono fun _ _ h e' he' => (h e' he').launched

end run

/-! ## The exit status -/

/-- A status word that is not a normal exit names a signal, or 127 for a stop. -/
theorem RawExitStatus.signal_of_abnormal {s : RawExitStatus} (h : s.exitedNormally = false) :
    ∃ n : Nat, 0 < n ∧ n ≤ 127 ∧ s.signal = some (n : Int) := by
  generalize hm : s.status &&& 0x7F#32 = m
  have hle : m.toNat ≤ 127 := by
    rw [← hm, BitVec.toNat_and]
    exact Nat.and_le_right
  have hne : m ≠ 0#32 := by
    intro hzero
    unfold exitedNormally at h
    rw [hm, hzero] at h
    cases h
  have hpos : 0 < m.toNat := Nat.pos_of_ne_zero fun hzero => hne (BitVec.eq_of_toNat_eq hzero)
  have hsucc : (m + 1#32).toNat = m.toNat + 1 := by
    rw [BitVec.toNat_add, BitVec.toNat_ofNat]
    omega
  have hmsb : (m + 1#32).msb = false := by
    rw [BitVec.msb_eq_false_iff_two_mul_lt]
    omega
  have hsig : s.signaled = true := by
    unfold signaled
    rw [hm, BitVec.sshiftRight_eq_of_msb_false hmsb, BitVec.slt_eq_decide, decide_eq_true_iff]
    have hhalf : ((m + 1#32) >>> 1).toNat = (m.toNat + 1) / 2 := by
      rw [BitVec.toNat_ushiftRight, hsucc, Nat.shiftRight_eq_div_pow, Nat.pow_one]
    rw [BitVec.toInt_eq_toNat_of_lt (x := (m + 1#32) >>> 1) (by omega), hhalf, BitVec.toInt_zero]
    omega
  refine ⟨m.toNat, hpos, hle, ?_⟩
  unfold signal
  rw [if_pos hsig, hm, BitVec.toInt_eq_toNat_of_lt (by omega)]

theorem statusToExitCode_eq_zero {status : RawExitStatus} (h : statusToExitCode status = 0) :
    status.code = some 0 := by
  cases hnormal : status.exitedNormally with
  | true =>
    obtain ⟨c, hle, hcode, hsignal⟩ := RawExitStatus.code_normal hnormal
    unfold statusToExitCode at h
    rw [hsignal, hcode] at h
    have hzero : c = 0 := (low8_toNat hle).symm.trans (congrArg UInt8.toNat h)
    rw [hcode, hzero]
    rfl
  | false =>
    obtain ⟨n, hpos, hle, hsignal⟩ := RawExitStatus.signal_of_abnormal hnormal
    unfold statusToExitCode at h
    rw [hsignal] at h
    have hexit : (low8 (128 + (n : Int))).toNat = 128 + n := low8_toNat (c := 128 + n) (by omega)
    have hzero : (low8 (128 + (n : Int))).toNat = 0 := congrArg UInt8.toNat h
    omega

/-- A result makes the program exit with 0 for the command's own status, or because the
    exit code of a timeout was set to it. -/
theorem exitCode_eq_zero {r : RunResult} {preserveStatus : Bool} {timeoutExitCode : UInt8}
    (h : r.exitCode preserveStatus timeoutExitCode = 0) :
    (∃ st, r.report.1 = some st ∧ st.code = some 0) ∨
      (preserveStatus = false ∧ timeoutExitCode = 0 ∧ retriable r = true) := by
  have hsignal : ∀ sig : Signal, signalExitCode sig ≠ 0 := by
    intro sig
    cases sig <;> decide
  have hstatus : ∀ (sig : Signal) (status : Option RawExitStatus),
      (∀ st, status = some st → statusToExitCode st = 0) →
      (status = none → signalExitCode sig = 0) → ∃ st, status = some st ∧ st.code = some 0 := by
    intro sig status hsome hnone
    cases hst : status with
    | none => exact absurd (hnone hst) (hsignal sig)
    | some st => exact ⟨st, rfl, statusToExitCode_eq_zero (hsome st hst)⟩
  cases r with
  | completed status rusage => exact .inl ⟨status, rfl, statusToExitCode_eq_zero h⟩
  | signalForwarded sig status rusage =>
    exact .inl (hstatus sig status (by rintro st rfl; exact h) (by rintro rfl; exact h))
  | timedOut sig killed status rusage hook reason =>
    cases preserveStatus with
    | true => exact .inl (hstatus _ status (by rintro st rfl; exact h) (by rintro rfl; exact h))
    | false => exact .inr ⟨rfl, h, rfl⟩
  | memoryLimitExceeded sig killed status rusage limit actual =>
    cases preserveStatus with
    | true => exact .inl (hstatus _ status (by rintro st rfl; exact h) (by rintro rfl; exact h))
    | false => exact .inr ⟨rfl, h, rfl⟩

theorem TimeoutError.exitCode_ne_zero (e : TimeoutError) : e.exitCode ≠ 0 := by
  cases e <;> simp [exitCode, exitTimeout, exitInternalError, exitCannotInvoke, exitNotFound]

theorem configOf_timeoutExitCode {args : Args} {d : String} {config : RunConfig}
    (h : configOf args d = .ok config) :
    config.timeoutExitCode = args.timeoutExitCode.getD exitTimeout := by
  obtain ⟨timeout, -, h⟩ := bind_eq_ok.mp h
  obtain ⟨signal, -, h⟩ := bind_eq_ok.mp h
  obtain ⟨killAfter, -, h⟩ := bind_eq_ok.mp h
  obtain ⟨onTimeoutLimit, -, h⟩ := bind_eq_ok.mp h
  obtain ⟨retryCount, -, h⟩ := bind_eq_ok.mp h
  obtain ⟨retryDelay, -, h⟩ := bind_eq_ok.mp h
  obtain ⟨retryBackoff, -, h⟩ := bind_eq_ok.mp h
  obtain ⟨heartbeat, -, h⟩ := bind_eq_ok.mp h
  obtain ⟨stdinTimeout, -, h⟩ := bind_eq_ok.mp h
  obtain ⟨memLimit, -, h⟩ := bind_eq_ok.mp h
  obtain ⟨cpuTime, -, h⟩ := bind_eq_ok.mp h
  obtain ⟨percent, -, h⟩ := bind_eq_ok.mp h
  by_cases hpass : (args.stdinPassthrough && stdinTimeout.isNone) = true
  · rw [if_pos hpass] at h
    cases h
  · rw [if_neg hpass] at h
    rw [← Except.ok.inj h]

theorem operandsOf_error {args : Args} {timeoutEnv : Option String} {code : UInt8}
    (h : operandsOf args timeoutEnv = .error code) : code = exitInternalError := by
  unfold operandsOf at h
  dsimp only at h
  split at h
  · cases h
  · exact (Except.error.inj h).symm

/-- An accepted command line ends with 0 only by its run. -/
theorem Concluded.exit_zero {args : Args} {timeoutEnv : Option String} {r : Except UInt8 UInt8}
    {out : List Output} {err : List String} {runs : List (String × List String × RunConfig)}
    {L : MainLog} (h : Concluded args timeoutEnv r out err runs L) (hzero : exitStatus r = 0) :
    ∃ command extraArgs config result attempts,
      (⟨.runWithRetry command extraArgs config, .ok (result, attempts)⟩ : Ev MainCall.Ans) ∈ L ∧
        ((∃ st, result.report.1 = some st ∧ st.code = some 0) ∨
          (args.preserveStatus = false ∧ args.timeoutExitCode = some 0 ∧ retriable result = true)) := by
  cases h with
  | noOperands ho =>
    obtain rfl := operandsOf_error ho
    exact absurd hzero (by decide)
  | badOption ho hc => exact absurd hzero (TimeoutError.exitCode_ne_zero _)
  | notFound ho hc hw =>
    cases hw with
    | unreadable _ => exact absurd hzero (by decide)
    | failed e _ => exact absurd hzero (TimeoutError.exitCode_ne_zero e)
  | ran ho hc hw he hmem =>
    cases he with
    | failed e _ => exact absurd hzero (TimeoutError.exitCode_ne_zero e)
    | result result attempts _ =>
      refine ⟨_, _, _, result, attempts, hmem, (exitCode_eq_zero hzero).imp_right ?_⟩
      rintro ⟨hpreserve, hcode, hretry⟩
      rw [configOf_timeoutExitCode hc] at hcode
      refine ⟨hpreserve, ?_, hretry⟩
      cases htimeout : args.timeoutExitCode with
      | none =>
        rw [htimeout] at hcode
        exact absurd hcode (by decide)
      | some code =>
        rw [htimeout] at hcode
        exact congrArg some hcode

theorem applyAlias_exit (argv0 : String) (args : Args) :
    (applyAlias argv0 args).preserveStatus = args.preserveStatus ∧
      (applyAlias argv0 args).timeoutExitCode = args.timeoutExitCode := by
  unfold applyAlias
  split <;> exact ⟨rfl, rfl⟩

/-- **Exit status 0 is earned.** If the program exits with 0, it only printed its help or its
    version, or the last status that the command was waited for with is a normal exit with
    code 0, or the command line set the exit code of a timeout to 0, did not ask to preserve
    the status, and the run ended in a timeout or over its memory limit. -/
theorem exit_zero_earned (W : SystemWorld) (fuel : Nat) (env : Environment) (argv0 : String)
    (argv : List String) {r : Except UInt8 UInt8} {s : Unit} {l : SystemLog}
    (hrun : programRun W fuel env argv0 argv = (some (r, s), l)) (hzero : exitStatus r = 0) :
    parseArgs env argv = .error .help ∨ parseArgs env argv = .error .version ∨
      ∃ args, parseArgs env argv = .ok args ∧
        ((∃ st, (statuses (seen runEvent l)).head? = some st ∧ st.code = some 0) ∨
          (args.preserveStatus = false ∧ args.timeoutExitCode = some 0 ∧
            ∃ command extraArgs config result attempts, retriable result = true ∧
              RetryRun W fuel command extraArgs config (.ok (result, attempts)) l)) := by
  obtain ⟨L, ⟨hbelow, hreturned⟩, hends⟩ :=
    (programRun_kept W fuel env argv0 argv).2 (r, s) (by rw [hrun])
  have hanswers : Always (Prog.answers W).rely (programRun W fuel env argv0 argv).2 :=
    Prog.run_answers W (program fuel env argv0 argv) trivial
  have hreturned := hreturned hanswers
  rw [hrun] at hbelow hreturned
  unfold MainEnds at hends
  cases hparse : parseArgs env argv with
  | error x =>
    rw [hparse] at hends
    cases x with
    | help => exact .inl rfl
    | version => exact .inr (.inl rfl)
    | error message =>
      dsimp only at hends
      subst hends
      exact absurd hzero (by decide)
  | ok args =>
    rw [hparse] at hends
    obtain ⟨out, err, runs, hconcluded⟩ := hends
    obtain ⟨command, extraArgs, config, result, attempts, hmem, hcause⟩ :=
      hconcluded.exit_zero hzero
    obtain ⟨hpreserve, hcode⟩ := applyAlias_exit argv0 args
    refine .inr (.inr ⟨args, rfl, hcause.imp ?_ ?_⟩)
    · rintro ⟨st, hst, hnormal⟩
      exact ⟨st, hbelow.told _ _ _ _ hmem result attempts st rfl hst, hnormal⟩
    · rintro ⟨hp, hc, hretry⟩
      exact ⟨hpreserve ▸ hp, hcode ▸ hc, command, extraArgs, config, result, attempts, hretry,
        hreturned _ _ _ _ hmem⟩

/-- A system for concrete runs: every file is there, and the run meets the machine `m`. -/
def systemWorld (m : Machine) : SystemWorld := fun l q => match q with
  | .console .setupSignalForwarding => some m.signalFd
  | .console .preciseNow => some 0
  | .console .printHelp | .console .printVersion => ()
  | .console (.println _) | .console (.eprintln _) => ()
  | .file (.stat _) => .ok ()
  | .file (.nowNs _) => 0
  | .file (.sleepMs _) => ()
  | .run q => m.world (seen runEvent l) q

/-- `procguard 0 true`: the command exits with 0. -/
theorem exit_zero_earned_true : ∃ l,
    programRun (systemWorld {}) 1 (fun _ => none) "procguard" ["0", "true"] =
      (some (.ok 0, ()), l) ∧
    (parseArgs (fun _ => none) ["0", "true"] = .error .help ∨
      parseArgs (fun _ => none) ["0", "true"] = .error .version ∨
      ∃ args, parseArgs (fun _ => none) ["0", "true"] = .ok args ∧
        ((∃ st, (statuses (seen runEvent l)).head? = some st ∧ st.code = some 0) ∨
          (args.preserveStatus = false ∧ args.timeoutExitCode = some 0 ∧
            ∃ command extraArgs config result attempts, retriable result = true ∧
              RetryRun (systemWorld {}) 1 command extraArgs config (.ok (result, attempts)) l))) := by
  have hrun : programRun (systemWorld {}) 1 (fun _ => none) "procguard" ["0", "true"] =
      (some (.ok 0, ()), _) := Prod.ext (by decide +kernel) rfl
  exact ⟨_, hrun, exit_zero_earned _ _ _ _ _ hrun rfl⟩

end Procguard
