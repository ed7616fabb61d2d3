import Procguard.Invariant
import Procguard.Supervision

/- Invariants of the supervisor, call by call. `WaitUpkeep` lists what an invariant of the
   handles and the log has to survive in one wait: a call that touches no process, a wait on
   the child, a check of the throttle. `Upkeep` adds what the monitor itself does. From the
   list the invariant is carried through `wait_with_kqueue` and `monitor_with_timeout`, one
   lemma for each function, without looking at what any of them returns. -/
namespace Procguard
open Interact

/-- A call that neither starts a process nor signals nor waits for one. -/
def Call.aside : Call → Bool
  | .kill _ _ | .killpg _ _ | .wait4 _ | .wait4NoHang _ | .posixSpawnp _ _ _
  | .fork _ _ _ _ _ => false
  | _ => true

/-- What an invariant has to survive in a wait. -/
structure WaitUpkeep (K : Contract Ans) (J : Handles → Trace → Prop) : Prop where
  cut : ∀ h l, J h l → K.cut l
  aside : ∀ q h l, q.call.aside = true → J h l → Asks K q l fun _ l' => J h l'
  wait : ∀ h l, J h l → h.child.exited = false →
    Asks K ⟨.monitor, .wait4 h.child.pid⟩ l fun r l' => match r with
      | .ok _ => J h.reaped l'
      | .error _ => J h l'
  poll : ∀ h l, J h l → h.child.exited = false →
    Asks K ⟨.monitor, .wait4NoHang h.child.pid⟩ l fun r l' => match r with
      | .ok (some _) => J h.reaped l'
      | _ => J h l'
  update : ∀ h l ctx nowNs, J h l → h.throttle = some ctx →
    (CpuThrottleState.update ctx.cfg nowNs).Ensures K ctx.state l fun _ st l' =>
      J { h with throttle := some { ctx with state := st } } l'

/-- What an invariant has to survive in the monitor, the hook apart. -/
structure MonitorUpkeep (K : Contract Ans) (pid : Int) (J : Handles → Trace → Prop) : Prop
    extends WaitUpkeep K J where
  child : ∀ h l, J h l → h.child.pid = pid
  signal : ∀ q sig h l, q = ⟨.monitor, .kill pid sig⟩ ∨ q = ⟨.monitor, .killpg pid sig⟩ → J h l →
    Asks K q l fun _ l' => J h l'
  attach : ∀ h l cfg st, J h l → st.pid = pid → J { h with throttle := some { cfg, state := st } } l
  resume : ∀ h l ctx, J h l → h.throttle = some ctx →
    CpuThrottleState.resume.Ensures K ctx.state l fun _ st l' =>
      J { h with throttle := some { ctx with state := st } } l'
  mark : ∀ h l, J h l → J h.markExited l

/-- What an invariant has to survive in the monitor. -/
structure Upkeep (K : Contract Ans) (config : RunConfig) (pid : Int)
    (J : Handles → Trace → Prop) : Prop extends MonitorUpkeep K pid J where
  hook : ∀ fuel cmd h l, J h l →
    (runOnTimeoutHook fuel cmd pid config).Ensures K l fun _ l' => J h l'

namespace WaitUpkeep
variable {K : Contract Ans} {J : Handles → Trace → Prop}

theorem call (U : WaitUpkeep K J) {q : Req} (hq : q.call.aside = true) :
    Act.Stays K J (Act.call q : SuperAct (Ans q)) := .call fun h l hJ => U.aside q h l hq hJ

theorem now (U : WaitUpkeep K J) (confine : Confine) : Act.Stays K J (now confine) := by
  refine .lift fun h l hJ => ?_
  cases confine with
  | wall =>
    refine (U.aside ⟨.monitor, .wallNow⟩ h l rfl hJ).mono fun r hJ' => ?_
    cases r <;> exact hJ'
  | active => exact U.aside ⟨.monitor, .activeNow⟩ h l rfl hJ

/-! ## The child -/

theorem childWait (U : WaitUpkeep K J) (fuel : Nat) : Act.Stays K J (childWait fuel) := by
  intro h l hJ
  cases hex : h.child.exited with
  | true =>
    simp only [Procguard.childWait, Act.ensures_attempt, RawChild.wait, Act.ensures_bind,
      Act.ensures_get, hex, if_true, Act.ensures_throw]
    exact hJ
  | false =>
    refine childWait_ensures (fun _ l => J h l) hex (fun _ l hJ => ?_) (fun l hJ => U.cut h l hJ) hJ
    refine (U.wait h l hJ hex).mono fun r hr => ?_
    cases r with
    | ok st => exact hr
    | error err =>
      dsimp only at hr ⊢
      split <;> exact hr

theorem childTryWait (U : WaitUpkeep K J) : Act.Stays K J childTryWait := by
  intro h l hJ
  cases hex : h.child.exited with
  | true =>
    simp only [Procguard.childTryWait, Act.ensures_attempt, RawChild.tryWait, Act.ensures_bind,
      Act.ensures_get, hex, if_true, Act.ensures_throw]
    exact hJ
  | false =>
    refine childTryWait_ensures hex ((U.poll h l hJ hex).mono fun r hr => ?_)
    rcases r with _ | _ | _ <;> exact hr

theorem childWaitOrFail (U : WaitUpkeep K J) (fuel : Nat) :
    Act.Stays K J (childWaitOrFail fuel) := by
  refine .bind (U.childWait fuel) fun r => ?_
  rcases r with e | _
  · cases e <;> exact .throw
  · exact .pure

theorem reapGone (U : WaitUpkeep K J) (fuel : Nat) : Act.Stays K J (reapGone fuel) := by
  refine .bind U.childTryWait fun r => ?_
  rcases r with _ | _ | _
  rotate_left 2
  · exact .pure
  -- with no status at hand the process is waited for
  all_goals
    refine .bind (U.childWait fuel) fun r => ?_
    cases r with
    | ok _ => exact .pure
    | error _ => exact .ite .pure .throw

/-! ## The set-up -/

theorem validateStdin (U : WaitUpkeep K J) (stdin : Option StdinTimeoutConfig) :
    Act.Stays K J (validateStdin stdin) := by
  cases stdin with
  | none => exact .pure
  | some cfg => exact .bind (U.call rfl) fun _ => .pure

theorem initialPoll (U : WaitUpkeep K J) (confine : Confine)
    (stdin : Option StdinTimeoutConfig) : Act.Stays K J (initialPoll confine stdin) := by
  cases stdin with
  | none => exact .pure
  | some cfg =>
    refine .ite (.bind (U.call rfl) fun r => ?_) .pure
    cases stdinPollStatus r with
    | readable => exact .bind (U.now confine) fun _ => .pure
    | eof => exact .pure
    | idle => exact .pure

theorem openKqueue (U : WaitUpkeep K J) : Act.Stays K J openKqueue := by
  refine .bind (U.call rfl) fun r => ?_
  cases r with
  | ok kq => exact .pure
  | error errno => exact .throw

theorem waitSetup (U : WaitUpkeep K J) (a : WaitArgs) : Act.Stays K J (waitSetup a) := by
  refine .bind (U.now _) fun startNs => .bind_get fun h l hJ => ?_
  have hrest : Act.Stays K J (loadSignalFd .monitor) := .bind (U.call rfl) fun _ => .pure
  refine Act.Stays.bind hrest (fun signalFd => ?_) h l hJ
  exact .bind (U.validateStdin _) fun _ => .bind (U.initialPoll _ _) fun _ =>
    .bind U.openKqueue fun _ => .pure

/-! ## One round -/

theorem closeKq (U : WaitUpkeep K J) (f : WaitFixed) : Act.Stays K J (closeKq f) :=
  .bind (U.call rfl) fun _ => .pure

theorem finish (U : WaitUpkeep K J) {α : Type} (f : WaitFixed) (r : WaitResult) :
    Act.Stays K J (finish f r : SuperAct (Flow α)) := .bind (U.closeKq f) fun _ => .pure

theorem loopHead (U : WaitUpkeep K J) (f : WaitFixed) (v : WaitVars) :
    Act.Stays K J (loopHead f v) :=
  .bind (U.now _) fun _ => .ite (U.finish f _) (.ite (U.finish f _) .pure)

theorem onKeventError (U : WaitUpkeep K J) (fuel : Nat) (f : WaitFixed) (v : WaitVars)
    (err : Int) : Act.Stays K J (onKeventError fuel f v err) :=
  .ite .pure (.ite (.bind (U.closeKq f) fun _ => .bind (U.reapGone fuel) fun _ => .pure)
    (.bind (U.closeKq f) fun _ => .throw))

theorem onStdin (U : WaitUpkeep K J) (f : WaitFixed) (v : WaitVars) (ev : Kevent) :
    Act.Stays K J (onStdin f v ev) :=
  .ite .pure (.bind (U.call rfl) fun _ => .ite .pure (.ite (.bind (U.now _) fun _ => .pure) .pure))

theorem throttleTick (U : WaitUpkeep K J) (f : WaitFixed) (v : WaitVars) (nowNs : Nat) :
    Act.Stays K J (throttleTick f v nowNs) := by
  refine .bind_get fun h l hJ => Act.Stays.ite (.bind (.bind_get fun h l hJ => ?_) fun _ => .pure)
    .pure h l hJ
  cases hctx : h.throttle with
  | none => exact hJ
  | some ctx =>
    simp only [Act.ensures_focus, Act.ensures_bind]
    refine (U.update h l ctx nowNs hJ hctx).mono fun r st l' hr => ?_
    cases r <;> exact hr

theorem memoryTick (U : WaitUpkeep K J) (f : WaitFixed) (v : WaitVars) (nowNs : Nat) :
    Act.Stays K J (memoryTick f v nowNs) := by
  unfold Procguard.memoryTick
  cases f.args.memoryLimit with
  | none => exact .pure
  | some m =>
    refine .ite (.bind (U.call rfl) fun info => ?_) .pure
    cases info.map RusageInfo.memoryBytes with
    | none => exact .pure
    | some bytes => exact .ite (U.finish f _) .pure

theorem passthroughTick (U : WaitUpkeep K J) (v : WaitVars) (nowNs : Nat) :
    Act.Stays K J (passthroughTick v nowNs) := by
  unfold Procguard.passthroughTick
  cases v.stdinTimeout with
  | none => exact .pure
  | some cfg =>
    refine .ite (.bind (U.call rfl) fun r => ?_) .pure
    cases stdinPollStatus r <;> exact .pure

theorem heartbeatTick (U : WaitUpkeep K J) (f : WaitFixed) (v : WaitVars) (nowNs : Nat) :
    Act.Stays K J (heartbeatTick f v nowNs) := by
  unfold Procguard.heartbeatTick
  cases f.args.heartbeat with
  | none => exact .pure
  | some hb => exact .ite .pure (.bind (U.call rfl) fun _ => .pure)

theorem timerVerdict (U : WaitUpkeep K J) (f : WaitFixed) (v : WaitVars) (nowNs : Nat) :
    Act.Stays K J (timerVerdict f v nowNs) :=
  .ite (U.finish f _) (.ite (.bind (U.heartbeatTick f v nowNs) fun _ => .pure)
    (.ite (U.finish f _) .pure))

theorem onTimer (U : WaitUpkeep K J) (f : WaitFixed) (v : WaitVars) :
    Act.Stays K J (onTimer f v) := by
  refine .bind (U.now _) fun t => .bind (U.throttleTick f v t) fun v =>
    .bind (U.memoryTick f v t) fun r => ?_
  cases r with
  | go v => exact .bind (U.passthroughTick v t) fun v => U.timerVerdict f v t
  | next v => exact .pure
  | leave ev => exact .pure
  | ret r => exact .pure

theorem onEvent (U : WaitUpkeep K J) (f : WaitFixed) (v : WaitVars) (ev : Kevent) :
    Act.Stays K J (onEvent f v ev) := by
  refine .ite (U.onStdin f v ev) (.ite (U.onTimer f v) (.ite ?_ .pure))
  exact .ite .pure (.ite .pure (.ite .pure (.bind (U.closeKq f) fun _ => .throw)))

theorem waitRound (U : WaitUpkeep K J) (fuel : Nat) (f : WaitFixed) (v : WaitVars) :
    Act.Stays K J (waitRound fuel f v) := by
  refine .bind (U.loopHead f v) fun r => ?_
  cases r with
  | next v => exact .pure
  | leave ev => exact .pure
  | ret r => exact .pure
  | go nowNs =>
    have hawait : Act.Stays K J (awaitEvent fuel f v nowNs) := by
      refine .bind (U.call rfl) fun r => ?_
      cases r with
      | ok ev => exact U.onEvent f _ ev
      | error err => exact U.onKeventError fuel f _ err
    refine .bind hawait fun r => ?_
    cases r <;> exact .pure

theorem afterLoop (U : WaitUpkeep K J) (fuel : Nat) (f : WaitFixed) (ev : Kevent) :
    Act.Stays K J (afterLoop fuel f ev) := by
  refine .bind (U.closeKq f) fun _ => .ite (U.reapGone fuel)
    (.ite (.bind (U.childWaitOrFail fuel) fun _ => .pure) (.ite ?_ .pure))
  cases f.signalFd with
  | none => exact .pure
  | some fd =>
    refine .bind (U.call rfl) fun b => ?_
    cases b <;> exact .pure

/-- The whole wait. -/
theorem waitWithKqueue (U : WaitUpkeep K J) (fuel : Nat) (a : WaitArgs) :
    Act.Stays K J (waitWithKqueue fuel a) := by
  refine .bind (U.waitSetup a) fun p => .bind (.iterate (U.waitRound fuel p.1) U.cut fuel p.2)
    fun r => ?_
  cases r with
  | inl r => exact .pure
  | inr ev => exact U.afterLoop fuel p.1 ev

/-- A wait that leaves the throttle out. -/
theorem grace (U : WaitUpkeep K J) (throttle : Option ThrottleContext) :
    WaitUpkeep K fun g l => g.throttle = none ∧ J { g with throttle } l where
  cut _ l hJ := U.cut _ l hJ.2
  aside q g l hq hJ := (U.aside q _ l hq hJ.2).mono fun _ hJ' => ⟨hJ.1, hJ'⟩
  wait g l hJ hex := (U.wait _ l hJ.2 hex).mono fun r hr => by
    cases r <;> exact ⟨hJ.1, hr⟩
  poll g l hJ hex := (U.poll _ l hJ.2 hex).mono fun r hr => by
    rcases r with _ | _ | _ <;> exact ⟨hJ.1, hr⟩
  update g l ctx nowNs hJ hctx := by
    rw [hJ.1] at hctx
    cases hctx

end WaitUpkeep

/-! ## The monitor -/

/-- What follows the hook when time is up: the signal, the grace period, SIGKILL. -/
def afterHook (fuel : Nat) (config : RunConfig) (pid : Int) (reason : TimeoutReason)
    (hook : Option HookResult) : SuperAct RunResult := do
  let result (killed : Bool) (status : RawExitStatus) (rusage : ResourceUsage) : RunResult :=
    .timedOut config.signal killed (some status) (some rusage) hook reason
  let sigName := config.signal.name
  monitorLine config s!"timeout: sending signal {sigName} to command"
  resumeThrottle
  sendSignal pid config.signal config.foreground
  match config.killAfter with
  | none => reapAs fuel (result false)
  | some killAfter =>
    match ← graceWait fuel pid killAfter config.confine with
    | .exited status rusage => do
      markProcessExited
      pure (result false status rusage)
    | .receivedSignal sig => forwardSignal fuel config pid sig
    | .timedOut _ | .memoryLimitExceeded _ _ => do
      monitorLine config "timeout: sending signal SIGKILL to command"
      killAndReap fuel config pid (result true)

/-- `onTimeout`, cut behind the hook. -/
theorem onTimeout_eq (fuel : Nat) (config : RunConfig) (pid : Int) (reason : TimeoutReason) :
    onTimeout fuel config pid reason = (do
      let reasonStr := reason.text
      monitorLine config s!"timeout: triggered by {reasonStr}"
      let hook ← runHook fuel config pid
      afterHook fuel config pid reason hook) := rfl

namespace MonitorUpkeep
variable {K : Contract Ans} {config : RunConfig} {pid : Int} {J : Handles → Trace → Prop}

theorem monitorLine (U : MonitorUpkeep K pid J) (line : String) :
    Act.Stays K J (monitorLine config line) := .ite (.bind (U.call rfl) fun _ => .pure) .pure

theorem killProcess (U : MonitorUpkeep K pid J) (sig : Signal) :
    Act.Stays K J (killProcess pid sig) := by
  refine .bind (.call fun h l hJ => U.signal _ sig.asRaw h l (.inl rfl) hJ) fun r => ?_
  cases r with
  | ok _ => exact .pure
  | error _ => exact .ite .pure .throw

theorem sendSignal (U : MonitorUpkeep K pid J) (sig : Signal) (foreground : Bool) :
    Act.Stays K J (sendSignal pid sig foreground) := by
  refine .ite (U.killProcess sig) (.bind (.call fun h l hJ =>
    U.signal _ sig.asRaw h l (.inr rfl) hJ) fun r => ?_)
  cases r with
  | ok _ => exact .pure
  | error _ => exact .ite (U.killProcess sig) .throw

theorem markProcessExited (U : MonitorUpkeep K pid J) : Act.Stays K J markProcessExited :=
  .modify U.mark

theorem resumeThrottle (U : MonitorUpkeep K pid J) : Act.Stays K J resumeThrottle := by
  refine .bind_get fun h l hJ => ?_
  cases hctx : h.throttle with
  | none => exact hJ
  | some ctx => exact Act.ensures_focus.mpr (U.resume h l ctx hJ hctx)

theorem graceWait (U : MonitorUpkeep K pid J) (fuel : Nat) (killAfter : Duration)
    (confine : Confine) : Act.Stays K J (graceWait fuel pid killAfter confine) := by
  refine .focus fun h l hJ => ?_
  have hwait := (U.grace h.throttle).waitWithKqueue fuel { pid, timeout := killAfter, confine }
  exact (hwait { child := h.child } l ⟨rfl, hJ⟩).mono fun _ _ _ hg => hg.2

theorem forwardSignal (U : MonitorUpkeep K pid J) (fuel : Nat) (sig : Signal) :
    Act.Stays K J (forwardSignal fuel config pid sig) := by
  refine .bind (U.monitorLine _) fun _ => .bind U.resumeThrottle fun _ =>
    .bind (U.sendSignal sig _) fun _ => .bind (U.childWait fuel) fun r =>
    .bind U.markProcessExited fun _ => ?_
  cases r <;> exact .pure

theorem reapAs (U : MonitorUpkeep K pid J) (fuel : Nat)
    (result : RawExitStatus → ResourceUsage → RunResult) : Act.Stays K J (reapAs fuel result) :=
  .bind (U.childWaitOrFail fuel) fun _ => .bind U.markProcessExited fun _ => .pure

theorem killAndReap (U : MonitorUpkeep K pid J) (fuel : Nat)
    (result : RawExitStatus → ResourceUsage → RunResult) :
    Act.Stays K J (killAndReap fuel config pid result) :=
  .bind U.resumeThrottle fun _ => .bind (U.sendSignal .sigkill _) fun _ => U.reapAs fuel result

theorem onMemoryLimit (U : MonitorUpkeep K pid J) (fuel limitBytes actualBytes : Nat) :
    Act.Stays K J (onMemoryLimit fuel config pid limitBytes actualBytes) := by
  refine .bind (U.monitorLine _) fun _ => .bind U.resumeThrottle fun _ =>
    .bind (U.sendSignal _ _) fun _ => ?_
  cases config.killAfter with
  | none => exact U.reapAs fuel _
  | some killAfter =>
    refine .bind (U.graceWait fuel killAfter _) fun r => ?_
    cases r with
    | exited _ _ => exact .bind U.markProcessExited fun _ => .pure
    | timedOut _ => exact U.killAndReap fuel _
    | memoryLimitExceeded _ _ => exact U.killAndReap fuel _
    | receivedSignal _ => exact U.killAndReap fuel _

theorem afterHook (U : MonitorUpkeep K pid J) (fuel : Nat) (reason : TimeoutReason)
    (hook : Option HookResult) : Act.Stays K J (afterHook fuel config pid reason hook) := by
  refine .bind (U.monitorLine _) fun _ => .bind U.resumeThrottle fun _ =>
    .bind (U.sendSignal _ _) fun _ => ?_
  cases config.killAfter with
  | none => exact U.reapAs fuel _
  | some killAfter =>
    refine .bind (U.graceWait fuel killAfter _) fun r => ?_
    cases r with
    | exited _ _ => exact .bind U.markProcessExited fun _ => .pure
    | receivedSignal sig => exact U.forwardSignal fuel sig
    | timedOut _ => exact .bind (U.monitorLine _) fun _ => U.killAndReap fuel _
    | memoryLimitExceeded _ _ => exact .bind (U.monitorLine _) fun _ => U.killAndReap fuel _

theorem attachThrottle (U : MonitorUpkeep K pid J) (startNs : Nat) :
    Act.Stays K J (attachThrottle config pid startNs) := by
  unfold Procguard.attachThrottle
  cases config.cpuThrottle with
  | none => exact .pure
  | some cfg =>
    intro h l hJ
    simp only [Act.ensures_bind, Act.ensures_exec, CpuThrottleState.new]
    intro r hr
    obtain ⟨hg, hJ'⟩ := U.aside ⟨.throttle, .procPidRusage pid⟩ h l rfl hJ r hr
    refine ⟨hg, ?_⟩
    cases r with
    | some info => exact U.attach h _ cfg _ hJ' rfl
    | none =>
      have hline : ∀ line, Act.Stays K J (sys .monitor (.eprintln line) >>= fun _ => pure ()) :=
        fun line => .bind (U.call rfl) fun _ => .pure
      exact Act.Stays.ite .pure (hline _) h _ hJ'

/-- The drop of the throttle. -/
theorem dropThrottle (U : MonitorUpkeep K pid J) {h : Handles} {l : Trace} (hJ : J h l) :
    (dropThrottle h).Ensures K l J := by
  unfold Procguard.dropThrottle
  cases hctx : h.throttle with
  | none => exact hJ
  | some ctx =>
    dsimp only
    rw [Prog.ensures_bind, CpuThrottleState.drop, Prog.ensures_bind]
    exact U.resume h l ctx hJ hctx

end MonitorUpkeep

namespace Upkeep
variable {K : Contract Ans} {config : RunConfig} {pid : Int} {J : Handles → Trace → Prop}

theorem runHook (U : Upkeep K config pid J) (fuel : Nat) :
    Act.Stays K J (runHook fuel config pid) := by
  unfold Procguard.runHook
  cases config.onTimeout with
  | none => exact .pure
  | some cmd => exact .bind (.exec fun h l hJ => U.hook fuel cmd h l hJ) fun _ => .pure

theorem onTimeout (U : Upkeep K config pid J) (fuel : Nat) (reason : TimeoutReason) :
    Act.Stays K J (onTimeout fuel config pid reason) := by
  rw [onTimeout_eq]
  exact .bind (U.monitorLine _) fun _ => .bind (U.runHook fuel) fun hook => U.afterHook fuel reason hook

theorem handleResult (U : Upkeep K config pid J) (fuel : Nat) (r : WaitResult) :
    Act.Stays K J (handleResult fuel config pid r) := by
  cases r with
  | exited _ _ => exact .bind U.markProcessExited fun _ => .pure
  | receivedSignal sig => exact U.forwardSignal fuel sig
  | memoryLimitExceeded _ _ => exact U.onMemoryLimit fuel _ _
  | timedOut reason => exact U.onTimeout fuel reason

/-- **What every call keeps, the whole run of the monitor keeps.** -/
theorem monitorWithTimeout (U : Upkeep K config pid J) (fuel : Nat) :
    Act.Stays K J (monitorWithTimeout fuel config) := by
  refine .bind_get fun h l hJ => Act.Stays.bind (U.now _) (fun startNs => ?_) h l hJ
  intro h' l' hJ'
  rw [U.child h l hJ, Act.ensures_onExit]
  have hsupervise : Act.Stays K J (supervise fuel config pid startNs) :=
    .bind (U.attachThrottle startNs) fun _ => .bind (U.waitWithKqueue fuel _) fun r =>
      U.handleResult fuel r
  exact (hsupervise h' l' hJ').mono fun _ _ _ hr => U.dropThrottle hr

/-- A run without a timeout only waits. -/
theorem runForever (U : Upkeep K config pid J) (fuel : Nat) : Act.Stays K J (runForever fuel) :=
  .bind (U.childWaitOrFail fuel) fun _ => .pure

theorem runChild (U : Upkeep K config pid J) (fuel : Nat) : Act.Stays K J (runChild fuel config) :=
  .ite (U.runForever fuel) (U.monitorWithTimeout fuel)

end Upkeep
end Procguard
