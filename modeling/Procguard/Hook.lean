import Procguard.Config

/- The on-timeout hook: expansion of its command line, the spawn through `sh -c`
   and its own, smaller wait loop. The hook never fails the run: a clock that
   cannot be read counts as 0 (or as the deadline inside the wait), every other
   failure ends in a `HookResult`. -/
namespace Procguard
open Interact

/-! ## Expansion -/

/-- `str::replace` on characters: replace every match of `pat`, left to right,
    none overlapping; `skip` counts the characters left of the current match. -/
def replaceFrom (pat rep : List Char) : Nat → List Char → List Char
  | _, [] => []
  | skip + 1, _ :: cs => replaceFrom pat rep skip cs
  | 0, c :: cs =>
    if pat.isPrefixOf (c :: cs) then rep ++ replaceFrom pat rep (pat.length - 1) cs
    else c :: replaceFrom pat rep 0 cs

def replaceAll (s pat rep : String) : String :=
  String.ofList (replaceFrom pat.toList rep.toList 0 s.toList)

/-- Expand `%p` to the pid and `%%` to `%`, through a placeholder. -/
def expandHookCmd (cmd : String) (pid : Int) : String :=
  replaceAll (replaceAll (replaceAll cmd "%%" "\x00PERCENT\x00") "%p" (toString pid))
    "\x00PERCENT\x00" "%"

/-! ## The hook's wait -/

abbrev HookAct := Act Ans RawChild Empty

/-- `precise_now_ns(confine).unwrap_or(d)`. -/
def nowOr {σ ε : Type} (caller : Caller) (confine : Confine) (d : Nat) : Act Ans σ ε Nat :=
  Act.exec ((preciseNowNs caller confine).bind fun r => .done (r.toOption.getD d))

inductive HookWaitResult where
  | exited (status : RawExitStatus)
  | timedOut
  | error (e : String)

def hookChildWait (fuel : Nat) : HookAct (Except SpawnError (RawExitStatus × ResourceUsage)) :=
  Act.attempt id (fun c _ => c) (RawChild.wait .hook fuel)

def hookChildTryWait : HookAct (Except SpawnError (Option (RawExitStatus × ResourceUsage))) :=
  Act.attempt id (fun c _ => c) (RawChild.tryWait .hook)

/-- `child.wait()` as the hook reports it. -/
def hookReap (fuel : Nat) : HookAct HookWaitResult := do
  match ← hookChildWait fuel with
  | .ok (status, _) => pure (.exited status)
  | .error e => pure (.error e.display)

def hookChanges (pid : Int) (timerNs : Nat) : List Kevent :=
  [{ ident := asUsize pid, filter := EVFILT_PROC, flags := EV_ADD ||| EV_ONESHOT,
     fflags := NOTE_EXIT },
   { ident := 2, filter := EVFILT_TIMER, flags := EV_ADD ||| EV_ONESHOT,
     fflags := NOTE_NSECONDS, data := asIsize timerNs }]

def hookClose (kq : Int) : HookAct Unit := do
  let _ ← sys .hook (.close kq)
  pure ()

/-- One round: retry on EINTR, leave with an event, or end the wait. -/
def hookRound (fuel : Nat) (pid kq : Int) (confine : Confine) (deadlineNs : Nat) (_ : Unit) :
    HookAct (Unit ⊕ (HookWaitResult ⊕ Kevent)) := do
  let nowNs ← nowOr .hook confine deadlineNs
  if deadlineReached nowNs deadlineNs then do
    hookClose kq
    pure (.inr (.inl .timedOut))
  else
    let timerNs := min (remainingNs nowNs deadlineNs) maxTimerNs
    match ← sys .hook (.kevent kq (hookChanges pid timerNs)) with
    | .ok ev => pure (.inr (.inr ev))
    | .error err =>
      if err = EINTR then pure (.inl ())
      else if err = ESRCH then do
        hookClose kq
        match ← hookChildTryWait with
        | .ok (some (status, _)) => pure (.inr (.inl (.exited status)))
        | .ok none => do
          let r ← hookReap fuel
          pure (.inr (.inl r))
        | .error e => pure (.inr (.inl (.error e.display)))
      else do
        hookClose kq
        pure (.inr (.inl (.error s!"kevent failed: errno {err}")))

def hookAfterLoop (fuel : Nat) (kq : Int) (ev : Kevent) : HookAct HookWaitResult := do
  hookClose kq
  if ev.has EV_ERROR then
    let errCode := ev.errCode
    if errCode = ESRCH then hookReap fuel
    else pure (.error s!"kqueue registration failed: errno {errCode}")
  else if ev.filter = EVFILT_PROC then hookReap fuel
  else pure .timedOut

def waitForHookWithKqueue (fuel : Nat) (timeout : Duration) (confine : Confine) :
    HookAct HookWaitResult := do
  let child ← Act.get
  let startNs ← nowOr .hook confine 0
  let deadlineNs := advanceNs startNs (durationToNs timeout)
  match ← sys .hook .kqueue with
  | .error errno => pure (.error s!"kqueue failed: errno {errno}")
  | .ok kq =>
    match ← Act.iterate (hookRound fuel child.pid kq confine deadlineNs) fuel () with
    | .inl r => pure r
    | .inr ev => hookAfterLoop fuel kq ev

/-! ## The hook -/

def hookLine (config : RunConfig) (line : String) : HookAct Unit := do
  if config.verbose && !config.quiet then do
    let _ ← sys .hook (.eprintln line)
    pure ()
  else pure ()

def hookElapsedMs {σ ε : Type} (config : RunConfig) (startNs : Nat) : Act Ans σ ε Nat := do
  let t ← nowOr .hook config.confine 0
  pure ((elapsedNs startNs t).getD 0 / 1000000)

/-- Wait for the spawned hook; one that runs too long is killed with its group. -/
def superviseHook (fuel : Nat) (config : RunConfig) (startNs : Nat) : HookAct HookResult := do
  let r ← waitForHookWithKqueue fuel config.onTimeoutLimit config.confine
  let elapsedMs ← hookElapsedMs config startNs
  match r with
  | .exited status => do
    match status.code with
    | some code =>
      if code ≠ 0 then hookLine config s!"timeout: on-timeout hook exited with code {code}"
      else pure ()
    | none => pure ()
    pure { ran := true, exitCode := status.code, elapsedMs }
  | .timedOut => do
    hookLine config "timeout: on-timeout hook timed out, killing"
    let child ← Act.get
    let _ ← sys .hook (.killpg child.pid Signal.sigkill.asRaw)
    let _ ← hookChildWait fuel
    pure { ran := true, timedOut := true, elapsedMs }
  | .error e => do
    hookLine config s!"timeout: on-timeout hook wait failed: {e}"
    pure { ran := true, elapsedMs }

/-- The hook from its first clock reading on. -/
def hookScript (fuel : Nat) (cmd : String) (pid : Int) (config : RunConfig) :
    HookAct HookResult := do
  let startNs ← nowOr .hook config.confine 0
  let expandedCmd := expandHookCmd cmd pid
  hookLine config s!"timeout: running on-timeout hook: {expandedCmd}"
  match ← Act.exec (spawnCommand .hook "sh" ["-c", expandedCmd] true) with
  | .error e => do
    let errText := e.display
    hookLine config s!"timeout: on-timeout hook failed to start: {errText}"
    let elapsedMs ← hookElapsedMs config startNs
    pure { elapsedMs }
  | .ok child => do
    Act.modify fun _ => child
    superviseHook fuel config startNs

/-- The hook's handle exists only once it has been spawned; until then the state is
    unused. -/
def runOnTimeoutHook (fuel : Nat) (cmd : String) (pid : Int) (config : RunConfig) :
    SysProg HookResult :=
  (hookScript fuel cmd pid config { pid := 0 }).bind fun r => match r.1 with
    | .ok a => .done a
    | .error e => nomatch e

/-! ## The hook's calls are its own -/

/-- A call of the hook, which prints only if `loud`. -/
def Req.ofHook (loud : Bool) (q : Req) : Prop := q.caller = .hook ∧ (q.prints = true → loud = true)

/-- With `-v`, and not silenced by `-q`. -/
def RunConfig.loud (config : RunConfig) : Bool := config.verbose && !config.quiet

variable {loud : Bool}

theorem asking_nowOr {σ ε : Type} {P : Req → Prop} {caller : Caller} (hwall : P ⟨caller, .wallNow⟩)
    (hactive : P ⟨caller, .activeNow⟩) (confine : Confine) (d : Nat) :
    Act.Asking P (nowOr caller confine d : Act Ans σ ε Nat) := by
  refine .exec ?_
  cases confine with
  | wall => exact ⟨hwall, fun r => by cases r <;> exact trivial⟩
  | active => exact ⟨hactive, fun _ => trivial⟩

theorem asking_hookChildWait {P : Req → Prop} (hP : ∀ pid, P ⟨.hook, .wait4 pid⟩) (fuel : Nat) :
    Act.Asking P (hookChildWait fuel) := by
  refine .attempt (.bind .get fun c => .ite .throw (.bind (.iterate (fun _ => ?_) fuel ()) fun _ =>
    .bind .modify fun _ => .pure))
  refine .bind (.call (hP _)) fun r => ?_
  cases r with
  | ok _ => exact .pure
  | error _ => exact .ite .pure .throw

theorem asking_hookReap {P : Req → Prop} (hP : ∀ pid, P ⟨.hook, .wait4 pid⟩) (fuel : Nat) :
    Act.Asking P (hookReap fuel) := by
  refine .bind (asking_hookChildWait hP fuel) fun r => ?_
  cases r with
  | ok _ => exact .pure
  | error _ => exact .pure

theorem asking_hookChildTryWait {P : Req → Prop} (hP : ∀ pid, P ⟨.hook, .wait4NoHang pid⟩) :
    Act.Asking P hookChildTryWait := by
  refine .attempt (.bind .get fun c => .ite .throw (.bind (.call (hP _)) fun r => ?_))
  rcases r with _ | _ | _
  · exact .throw
  · exact .pure
  · exact .bind .modify fun _ => .pure

/-- Every call of the hook that prints nothing. -/
theorem ofHook_silent {call : Call} (h : Req.prints ⟨.hook, call⟩ = false) :
    Req.ofHook loud ⟨.hook, call⟩ := by
  refine ⟨rfl, fun hprints => ?_⟩
  rw [h] at hprints
  cases hprints

theorem ofHook_nowOr {σ ε : Type} (confine : Confine) (d : Nat) :
    Act.Asking (Req.ofHook loud) (nowOr .hook confine d : Act Ans σ ε Nat) :=
  asking_nowOr (ofHook_silent rfl) (ofHook_silent rfl) confine d

theorem ofHook_reap (fuel : Nat) : Act.Asking (Req.ofHook loud) (hookReap fuel) :=
  asking_hookReap (fun _ => ofHook_silent rfl) fuel

theorem asking_hookClose (kq : Int) : Act.Asking (Req.ofHook loud) (hookClose kq) :=
  .bind (.call ⟨rfl, nofun⟩) fun _ => .pure

theorem asking_hookRound (fuel : Nat) (pid kq : Int) (confine : Confine) (deadlineNs : Nat) :
    Act.Asking (Req.ofHook loud) (hookRound fuel pid kq confine deadlineNs ()) := by
  refine .bind (ofHook_nowOr _ _) fun t => .ite (.bind (asking_hookClose _) fun _ => .pure)
    (.bind (.call ⟨rfl, nofun⟩) fun r => ?_)
  cases r with
  | ok ev => exact .pure
  | error err =>
    refine .ite .pure (.ite (.bind (asking_hookClose _) fun _ => .bind ?_ fun r => ?_)
      (.bind (asking_hookClose _) fun _ => .pure))
    · exact asking_hookChildTryWait fun _ => ofHook_silent rfl
    match r with
    | .ok (some _) => exact .pure
    | .ok none => exact .bind (ofHook_reap fuel) fun _ => .pure
    | .error _ => exact .pure

theorem asking_waitForHook (fuel : Nat) (timeout : Duration) (confine : Confine) :
    Act.Asking (Req.ofHook loud) (waitForHookWithKqueue fuel timeout confine) := by
  refine .bind .get fun c => .bind (ofHook_nowOr _ _) fun t =>
    .bind (.call ⟨rfl, nofun⟩) fun r => ?_
  cases r with
  | error _ => exact .pure
  | ok kq =>
    refine .bind (.iterate (fun _ => asking_hookRound _ _ _ _ _) fuel ()) fun r => ?_
    cases r with
    | inl r => exact .pure
    | inr ev =>
      exact .bind (asking_hookClose _) fun _ =>
        .ite (.ite (ofHook_reap fuel) .pure) (.ite (ofHook_reap fuel) .pure)

theorem asking_hookLine (config : RunConfig) (line : String) :
    Act.Asking (Req.ofHook config.loud) (hookLine config line) := by
  unfold hookLine
  split
  · rename_i hloud
    exact .bind (.call ⟨rfl, fun _ => hloud⟩) fun _ => .pure
  · exact .pure

theorem asking_hookElapsedMs {σ ε : Type} (config : RunConfig) (startNs : Nat) :
    Act.Asking (Req.ofHook loud) (hookElapsedMs config startNs : Act Ans σ ε Nat) :=
  .bind (ofHook_nowOr _ _) fun _ => .pure

theorem asking_superviseHook (fuel : Nat) (config : RunConfig) (startNs : Nat) :
    Act.Asking (Req.ofHook config.loud) (superviseHook fuel config startNs) := by
  refine .bind (asking_waitForHook _ _ _) fun r => .bind (asking_hookElapsedMs _ _) fun ms => ?_
  cases r with
  | exited status =>
    dsimp only
    cases status.code with
    | none => exact .pure
    | some code => exact .ite (.bind (asking_hookLine _ _) fun _ => .pure) .pure
  | timedOut =>
    exact .bind (asking_hookLine _ _) fun _ => .bind .get fun c =>
      .bind (.call ⟨rfl, nofun⟩) fun _ =>
        .bind (asking_hookChildWait (fun _ => ofHook_silent rfl) fuel) fun _ => .pure
  | error e => exact .bind (asking_hookLine _ _) fun _ => .pure

theorem asking_spawnCommand (command : String) (args : List String) (group : Bool) :
    (spawnCommand .hook command args group).Asking (Req.ofHook loud) := by
  unfold spawnCommand
  split
  · exact trivial
  · exact ⟨⟨rfl, nofun⟩, fun _ => trivial⟩

theorem asking_hookScript (fuel : Nat) (cmd : String) (pid : Int) (config : RunConfig) :
    Act.Asking (Req.ofHook config.loud) (hookScript fuel cmd pid config) := by
  unfold hookScript
  refine .bind (ofHook_nowOr _ _) fun t => ?_
  refine .bind (asking_hookLine _ _) fun _ => ?_
  -- the command line does not matter, and must not be computed
  generalize expandHookCmd cmd pid = expandedCmd
  apply Act.Asking.bind
  · exact .exec (asking_spawnCommand _ _ _)
  · intro r
    cases r with
    | error e =>
      exact .bind (asking_hookLine _ _) fun _ => .bind (asking_hookElapsedMs _ _) fun _ => .pure
    | ok child => exact .bind .modify fun _ => asking_superviseHook fuel config t

theorem asking_runOnTimeoutHook (fuel : Nat) (cmd : String) (pid : Int) (config : RunConfig) :
    (runOnTimeoutHook fuel cmd pid config).Asking (Req.ofHook config.loud) := by
  refine Prog.asking_bind (asking_hookScript fuel cmd pid config { pid := 0 }) fun r => ?_
  match r with
  | (.ok a, _) => exact trivial
  | (.error e, _) => exact nomatch e

end Procguard
