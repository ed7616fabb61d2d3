import Procguard.Supervision
import Procguard.ThrottleControl

/- What every run of the monitor guarantees, read off its log: no signal before a limit
   is reached, no untimed wait on a child that was told nothing, a result that tells what
   was done, a throttle that lets go in time. The statements speak of the log alone; the
   runs are those of `Supervision`. -/
namespace Procguard
open Interact

/-- A run of `monitor_with_timeout` on a child that has just been spawned. -/
def monitorRun (env : World) (fuel : Nat) (config : RunConfig) (pid : Int) :
    Option (Except TimeoutError RunResult × Handles) × Trace :=
  (monitorWithTimeout fuel config { child := { pid } }).run env []

section kept
variable (env : World) (fuel : Nat) (config : RunConfig) (pid : Int)

theorem monitorRun_kept :
    Always (LedgerGuar config pid (Watch.ofConfig config)) (monitorRun env fuel config pid).2 ∧
      ∀ r h, (monitorRun env fuel config pid).1 = some (r, h) →
        Closed config pid (Watch.ofConfig config) r (monitorRun env fuel config pid).2 := by
  have h := Prog.Ensures.sound (p := monitorWithTimeout fuel config { child := { pid } }) env
    (monitorWithTimeout_ensures (Fresh.nil config pid)) trivial
    (Always.of_forall (fun _ _ => trivial) _)
  exact ⟨h.1, fun r h' hr => h.2.1 (r, h') hr⟩

end kept

/-- Every signal sent had its reason. -/
theorem sends_cause {config : RunConfig} {pid : Int} {w₀ : Watch} : ∀ {l : Trace},
    Always (LedgerGuar config pid w₀) l → ∀ sig ∈ sends config.foreground l,
      sig = config.signal.asRaw ∨ sig = Signal.sigkill.asRaw ∨
        ∃ s : Signal, sig = s.asRaw ∧ Ever (SignalByte s) l
  | [], _, sig, hsig => nomatch hsig
  | e :: l, hl, sig, hsig => by
    rw [sends_cons, List.mem_append] at hsig
    rcases hsig with hsig | hsig
    · have hreason := hl.1.reason sig (Option.mem_toList.mp hsig)
      match sends config.foreground l, hreason with
      | [], .inl ⟨h, _⟩ => exact .inl h
      | [], .inr ⟨s, h, hbyte⟩ => exact .inr (.inr ⟨s, h, .inr hbyte⟩)
      | [_], ⟨_, .inl h⟩ => exact .inr (.inl h)
      | [_], ⟨_, .inr ⟨s, h, hbyte⟩⟩ => exact .inr (.inr ⟨s, h, .inr hbyte⟩)
    · rcases sends_cause hl.2 sig hsig with h | h | ⟨s, h, hbyte⟩
      · exact .inl h
      · exact .inr (.inl h)
      · exact .inr (.inr ⟨s, h, .inr hbyte⟩)

/-! ## Never too early -/

/-- A timeout is what `Verdict` says, whatever else is answered. -/
theorem timedOut_inert (w₀ : Watch) (fuel : Nat) (a : WaitArgs) :
    Inert {} w₀ fuel a (fun _ h _ => h.child.exited = false)
      (fun h _ => h.child.exited = false) fun r _ l => match r with
        | .ok (.timedOut reason) => Verdict w₀ a l (.timedOut reason) ∧
          (reason = .stdinIdle → (watch w₀ l).Settled)
        | _ => True where
  cut _ _ _ := trivial
  look _ _ _ _ hopen _ := fun _ _ => ⟨trivial, hopen⟩
  line _ _ _ _ _ hopen _ _ := fun _ _ => ⟨trivial, hopen⟩
  kevent _ _ _ _ _ hopen := fun _ _ => ⟨trivial, fun _ => hopen, fun _ => hopen⟩
  close _ _ _ hopen := fun _ _ => ⟨trivial, hopen⟩
  update _ _ _ _ hopen _ := Prog.ensures_of_forall (fun _ _ => trivial) (fun _ => trivial)
    (fun _ _ => hopen) _ _
  -- the two ways that reap the command never end in a timeout
  gone _ _ hopen _ := by
    refine reapGone_ensures (fun _ _ => True) hopen ?_ ?_ fun _ _ => trivial
    · intro r _
      match r with
      | .ok (some _) => exact ⟨trivial, trivial⟩
      | .ok none => exact ⟨trivial, trivial⟩
      | .error _ => exact ⟨trivial, trivial⟩
    · intro _ l _ r _
      refine ⟨trivial, ?_⟩
      cases r with
      | ok _ => exact trivial
      | error err =>
        dsimp only
        split
        · exact trivial
        · split
          · next hchild => exact ⟨.inr (.inl hchild), nofun⟩
          · exact fun _ => trivial
  exited _ _ hopen := by
    refine childWaitOrFail_ensures (fun _ _ => True) hopen ?_ (fun _ _ => trivial) trivial
    intro _ l _ r _
    refine ⟨trivial, ?_⟩
    cases r with
    | ok _ => exact trivial
    | error err =>
      dsimp only
      split <;> exact trivial
  verdict _ _ _ r _ hv hset _ := by
    cases r with
    | timedOut reason => exact ⟨hv, fun _ => hset⟩
    | exited _ _ => exact trivial
    | memoryLimitExceeded _ _ => exact trivial
    | receivedSignal _ => exact trivial
  fail _ _ _ _ _ _ := trivial

theorem wait_timedOut {env : World} {fuel : Nat} {a : WaitArgs} {throttle : Option ThrottleContext}
    {reason : TimeoutReason} {h : Handles} {l : Trace}
    (hrun : (waitWithKqueue fuel a { child := { pid := a.pid }, throttle }).run env [] =
      (some (.ok (.timedOut reason), h), l)) :
    Verdict (Watch.ofArgs a 0) a l (.timedOut reason) ∧
      (reason = .stdinIdle → (watch (Watch.ofArgs a 0) l).Settled) := by
  have hwait := (timedOut_inert (Watch.ofArgs a 0) fuel a).waitWithKqueue_ensures
    (h := { child := { pid := a.pid }, throttle }) (l := []) rfl (Watch.ofArgs_ready a 0)
  have hpost := (Prog.Ensures.sound env hwait trivial (Always.of_forall (fun _ _ => trivial) _)).2.1
  rw [hrun] at hpost
  exact hpost _ rfl

/-- A run in which a limit was reached, or a signal came in, before the first signal. -/
theorem never_too_early (env : World) (fuel : Nat) :
    (∀ (a : WaitArgs) (throttle : Option ThrottleContext) (h : Handles) (l : Trace),
      (waitWithKqueue fuel a { child := { pid := a.pid }, throttle }).run env [] =
        (some (.ok (.timedOut .wallClock), h), l) →
      (watch (Watch.ofArgs a 0) l).deadline a.timeout ≤ (watch (Watch.ofArgs a 0) l).clock ∨
        Ever (Unexpected (Watch.ofArgs a 0)) l) ∧
    (∀ (a : WaitArgs) (throttle : Option ThrottleContext) (h : Handles) (l : Trace),
      (waitWithKqueue fuel a { child := { pid := a.pid }, throttle }).run env [] =
        (some (.ok (.timedOut .stdinIdle), h), l) →
      ∃ cfg, a.stdinTimeout = some cfg ∧ (watch (Watch.ofArgs a 0) l).IdleReached cfg.timeoutNs) ∧
    ∀ (config : RunConfig) (pid : Int),
      Always (fun e l => ∀ sig, monitorSend config.foreground e = some sig →
        sends config.foreground l = [] →
        (sig = config.signal.asRaw ∧ Due config pid (Watch.ofConfig config) l) ∨
          ∃ s : Signal, sig = s.asRaw ∧ Ever (SignalByte s) l)
        (monitorRun env fuel config pid).2 := by
  refine ⟨fun a throttle h l hrun => (wait_timedOut hrun).1,
    fun a throttle h l hrun => (wait_timedOut hrun).1, fun config pid => ?_⟩
  refine (monitorRun_kept env fuel config pid).1.mono fun e l he sig hsig hnone => ?_
  have hreason := he.reason sig hsig
  rw [hnone] at hreason
  exact hreason

/-- A byte-less wake-up of the signal pipe. -/
def idlePipeWorld : World := Machine.world {
  kevent := fun _ => .ok { ident := 3, filter := EVFILT_READ, flags := 0 } }

/-- It ends the wait as a timeout, thirty seconds early. -/
theorem idle_pipe_times_out : ∃ h l,
    (waitWithKqueue 1 { pid := 7, timeout := { asSecs := 30 }, confine := .wall }
      { child := { pid := 7 } }).run idlePipeWorld [] =
        (some (.ok (.timedOut .wallClock), h), l) ∧
    (watch (Watch.ofArgs { pid := 7, timeout := { asSecs := 30 }, confine := .wall } 0) l).clock <
      (watch (Watch.ofArgs { pid := 7, timeout := { asSecs := 30 }, confine := .wall } 0)
        l).deadline { asSecs := 30 } := by
  refine ⟨_, _, rfl, ?_⟩
  decide +kernel

/-! ## What comes before a blocking wait -/

/-- The monitor blocks on the child only when the kernel reported its exit, or when it has
    sent it a signal: the configured one, SIGKILL, or one it received. -/
theorem blocking_wait_caused (env : World) (fuel : Nat) (config : RunConfig) (pid : Int) :
    Always (fun e l => e.req = ⟨.monitor, .wait4 pid⟩ →
      Ever (ExitNotice (Watch.ofConfig config)) l ∨
        ∃ sig ∈ sends config.foreground l, sig = config.signal.asRaw ∨
          sig = Signal.sigkill.asRaw ∨ ∃ s : Signal, sig = s.asRaw ∧ Ever (SignalByte s) l)
      (monitorRun env fuel config pid).2 := by
  have hall := (monitorRun_kept env fuel config pid).1
  generalize (monitorRun env fuel config pid).2 = l at hall
  induction l with
  | nil => exact trivial
  | cons e l ih =>
    refine ⟨fun hwait => (hall.1.wait hwait).imp_right fun hne => ?_, ih hall.2⟩
    obtain ⟨sig, hsig⟩ := List.exists_mem_of_ne_nil _ hne
    exact ⟨sig, hsig, sends_cause hall.2 sig hsig⟩

/-- SIGUSR1 is received and forwarded, and the child lives on. -/
def usr1World : World := Machine.world {
  kevent := fun _ => .ok { ident := 3, filter := EVFILT_READ, flags := 0 }
  signalByte := fun _ => some 30 }

/-- The monitor then blocks on a child that was told neither to terminate nor to die. -/
theorem usr1_blocks : ∃ r before,
    (monitorRun usr1World 1 {} 7).2 = ⟨⟨.monitor, .wait4 7⟩, r⟩ :: before ∧
    ¬ Ever (ExitNotice (Watch.ofConfig {})) before ∧
    sends false before = [Signal.sigusr1.asRaw] := by
  refine ⟨_, _, rfl, ?_, by rfl⟩
  decide +kernel

/-! ## The result -/

/-- When the monitor returns a result and no wait on the child failed, the result fits
    the signals sent, the child was reaped once, as reported, and every signal went to it
    before that. -/
theorem result_tells (env : World) (fuel : Nat) (config : RunConfig) (pid : Int) (r : RunResult)
    (h : Handles) (l : Trace) (hrun : monitorRun env fuel config pid = (some (.ok r, h), l))
    (hwait : ¬ Ever (WaitFailed pid) l) :
    r.Fits config (sends config.foreground l) ∧
      (∃ st, reaps pid l = [st] ∧ r.report = (some st.1, some (rusageToResourceUsage st.2))) ∧
      Always (fun e l => ∀ p, signalTo e = some p → p = pid ∧ reaps pid l = []) l := by
  have hkept := monitorRun_kept env fuel config pid
  rw [hrun] at hkept
  obtain ⟨hall, hclosed⟩ := hkept
  obtain ⟨hfits, hreports⟩ := (hclosed (.ok r) h rfl).told
  refine ⟨hfits, ?_, hall.mono fun e l he => he.target⟩
  rcases hreports with hreaped | ⟨-, -, hfail⟩
  · exact hreaped
  · exact absurd hfail hwait

/-- A clock that is read every 31 s. -/
def slowWorld : World := Machine.world {
  wallClock := fun l => some (.ofNat (31000000000 * l.countP fun e => e.req == ⟨.monitor, .wallNow⟩)) }

def killAfterOne : RunConfig := { killAfter := some (.fromSecs 1) }

/-- The timeout passes, then the grace period: SIGTERM, SIGKILL, and one wait. -/
theorem result_tells_killed : ∃ r h l,
    monitorRun slowWorld 2 killAfterOne 7 = (some (.ok r, h), l) ∧
    r.Fits killAfterOne (sends false l) ∧
    sends false l = [Signal.sigkill.asRaw, Signal.sigterm.asRaw] ∧ reaps 7 l = [(⟨0⟩, {})] := by
  have htells := result_tells slowWorld 2 killAfterOne 7 _ _ _ rfl (by decide +kernel)
  exact ⟨_, _, _, rfl, htells.1, by rfl, by rfl⟩

/-! ## The throttle -/

/-- The throttle does not hold the child stopped when a signal is sent to it, and stops
    nobody afterwards; when the monitor returns the child is not held stopped. Or the
    child is gone: a signal or a reading of the throttle failed, or it was reaped. -/
theorem throttle_lets_go (env : World) (fuel : Nat) (config : RunConfig) (pid : Int) :
    Always (fun e l =>
      (∀ p, signalTo e = some p → p = pid) ∧
      (∀ sig, monitorSend config.foreground e = some sig → heldStopped l = true →
        Ever ThrottleLost l) ∧
      (throttleKill e = some SIGSTOP → sends config.foreground l = []))
      (monitorRun env fuel config pid).2 ∧
    ∀ r h, (monitorRun env fuel config pid).1 = some (r, h) →
      heldStopped (monitorRun env fuel config pid).2 = true →
      Ever ThrottleLost (monitorRun env fuel config pid).2 ∨
        reaps pid (monitorRun env fuel config pid).2 ≠ [] := by
  obtain ⟨hall, hclosed⟩ := monitorRun_kept env fuel config pid
  refine ⟨hall.mono fun e l he => ⟨fun p hp => (he.target p hp).1, he.resumed, he.stop⟩, ?_⟩
  exact fun r h hr => (hclosed r h hr).released

/-- The throttle stops the process at its first check and finds it gone at the second;
    then the timeout passes. -/
def vanishingWorld : World := Machine.world {
  wallClock := fun l => match l.countP fun e => e.req == ⟨.monitor, .wallNow⟩ with
    | 0 | 1 | 2 => some 0
    | 3 | 4 => some 100
    | 5 => some 200
    | _ => some 31000000000
  kevent := fun _ => .ok { ident := 1, filter := EVFILT_TIMER, flags := 0 }
  rusage := fun l => match l.countP fun e => e.req == ⟨.throttle, .procPidRusage 7⟩ with
    | 0 => some ⟨0, 0, 0⟩
    | 1 => some ⟨100, 0, 0⟩
    | _ => none }

/-- The last signal the throttle delivered before SIGTERM is SIGSTOP. -/
theorem gone_while_stopped : ¬ Always (fun e l => monitorSend false e = none ∨
      lastThrottleSignal l ≠ some SIGSTOP)
    (monitorRun vanishingWorld 9 { cpuThrottle := some halfCpu } 7).2 := by
  decide +kernel

/-! ## No child is left behind -/

section command
variable {env : World} {command : String} {args : List String} {config : RunConfig}
  {child : RawChild} {l : Trace}

/-- A successful spawn leaves one event, which changes nothing in the books. -/
theorem spawnFor_fresh (hspawn : (spawnFor command args config).run env [] =
    (some (.ok child), l)) :
    child = { pid := child.pid } ∧ Fresh config child.pid l := by
  unfold spawnFor at hspawn
  split at hspawn
  · unfold spawnCommand at hspawn
    split at hspawn
    · cases hspawn
    · simp only [Prog.run] at hspawn
      cases hr : env [] ⟨.monitor, .posixSpawnp command args !config.foreground⟩ with
      | error err => rw [hr] at hspawn; cases hspawn
      | ok p =>
        rw [hr] at hspawn
        cases hspawn
        exact ⟨rfl, rfl, rfl, rfl, rfl⟩
  · unfold spawnCommandWithLimits at hspawn
    split at hspawn
    · cases hspawn
    · simp only [Prog.run] at hspawn
      cases hr : env [] ⟨.monitor, .fork command args (!config.foreground) config.limits.memBytes
          (config.limits.cpuTime.map Duration.asSecs)⟩ with
      | error err => rw [hr] at hspawn; cases hspawn
      | ok p =>
        rw [hr] at hspawn
        cases hspawn
        exact ⟨rfl, rfl, rfl, rfl, rfl⟩

theorem runCommand_run (fuel : Nat) (hspawn : (spawnFor command args config).run env [] =
    (some (.ok child), l)) :
    (runCommand fuel command args config).run env [] =
      (((runChild fuel config { child }).run env l).1.map Prod.fst,
        ((runChild fuel config { child }).run env l).2) := by
  rw [runCommand, Prog.run_bind, hspawn]
  dsimp only
  rw [Prog.run_bind]
  rcases (runChild fuel config { child }).run env l with ⟨_ | r, l'⟩ <;> rfl

/-- The bypass of a zero timeout waits for the child. -/
theorem runForever_ensures {fuel : Nat} {h : Handles} (hopen : h.child.exited = false) :
    (runForever fuel).Ensures {} h l fun _ _ l' =>
      reaps h.child.pid l' ≠ [] ∨ Ever (WaitFailed h.child.pid) l' := by
  rw [runForever, Act.ensures_bind]
  have hwait : (childWaitOrFail fuel).Ensures {} h l fun _ _ l' =>
      reaps h.child.pid l' ≠ [] ∨ Ever (WaitFailed h.child.pid) l' := by
    refine childWaitOrFail_ensures (fun _ _ => True) hopen ?_ (fun _ _ => trivial) trivial
    intro _ l _ r _
    refine ⟨trivial, ?_⟩
    cases r with
    | ok st => exact .inl (by simp [reapOf])
    | error err =>
      dsimp only
      split
      · exact trivial
      · next hne => exact .inr (.inl ⟨rfl, hne⟩)
  refine hwait.mono fun r _ _ hr => ?_
  cases r <;> exact hr

end command

/-- When `run_command` returns and no call it cannot do without has failed, the child was
    reaped, or a wait on it failed. -/
theorem no_child_left (env : World) (fuel : Nat) (command : String) (args : List String)
    (config : RunConfig) {child : RawChild} {l₁ l : Trace} {r : Except TimeoutError RunResult}
    (hspawn : (spawnFor command args config).run env [] = (some (.ok child), l₁))
    (hrun : (runCommand fuel command args config).run env [] = (some r, l))
    (hok : ¬ Ever (Fatal (Watch.ofConfig config)) l) :
    reaps child.pid l ≠ [] ∨ Ever (WaitFailed child.pid) l := by
  obtain ⟨hchild, hfresh⟩ := spawnFor_fresh hspawn
  rw [runCommand_run fuel hspawn, hchild] at hrun
  obtain ⟨hres, rfl⟩ := Prod.mk.inj hrun
  obtain ⟨⟨r, h⟩, hres, -⟩ := Option.map_eq_some_iff.mp hres
  have hrely : ∀ l : Trace, Always (fun _ _ => True) l := Always.of_forall fun _ _ => trivial
  unfold runChild at hres hok ⊢
  split at hres
  · next hzero =>
    rw [if_pos hzero]
    exact (runForever_ensures (h := { child := { pid := child.pid } }) rfl).returns env (hrely _) hres
  · next hzero =>
    rw [if_neg hzero] at hok ⊢
    have hclosed := (monitorWithTimeout_ensures hfresh).returns env (hrely _) hres
    cases r with
    | ok _ =>
      rcases hclosed.told.2 with ⟨st, hst, -⟩ | ⟨-, -, hfail⟩
      · exact .inl (by rw [hst]; exact List.cons_ne_nil _ _)
      · exact .inr hfail
    | error _ => exact hclosed.told.imp_left fun hfatal => absurd hfatal hok

/-- The timeout, SIGTERM, SIGKILL: the child spawned has been reaped. -/
theorem no_child_left_killed : ∃ r l,
    (runCommand 2 "sleep" ["100"] killAfterOne).run slowWorld [] = (some r, l) ∧
    (reaps 7 l ≠ [] ∨ Ever (WaitFailed 7) l) :=
  ⟨_, _, rfl, no_child_left slowWorld 2 "sleep" ["100"] killAfterOne rfl rfl (by decide +kernel)⟩

/-- No descriptor is left for the kqueue. -/
def exhaustedWorld : World := Machine.world { kqueue := .error 24 }

/-- `run_command` returns an error, and nobody has waited for the child. -/
theorem kqueue_failure_leaves_child : ∃ e l,
    (runCommand 1 "sleep" ["100"] {}).run exhaustedWorld [] = (some (.error e), l) ∧
    (spawnFor "sleep" ["100"] {}).run exhaustedWorld [] =
      (some (.ok { pid := 7 }), l.drop 4) ∧
    reaps 7 l = [] ∧ ¬ Ever (WaitFailed 7) l := by
  refine ⟨_, _, rfl, rfl, by rfl, by decide +kernel⟩

end Procguard
