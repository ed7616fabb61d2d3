import Procguard.WaitRules

/- The timer of the event loop. `Sched` is what keeps the five deadlines of the loop
   right: every enabled one lies at most one interval after the latest reading, and
   every value is a u64. A round that gets to the kevent call programs the minimum of
   what remains (`timer_within_deadlines`), so that no enabled deadline is slept
   through and none is reached with a kevent call still to come. -/
namespace Procguard
open Interact

/-- The clock does not go back. -/
def NonDecreasing (w₀ : Watch) (e : Event) (l : Trace) : Prop :=
  (watch w₀ l).clock ≤ (watch w₀ (e :: l)).clock

instance (w₀ : Watch) (e : Event) (l : Trace) : Decidable (NonDecreasing w₀ e l) :=
  Nat.decLe _ _

/-- The readings a wait is handed were taken at or before `clockNs`. -/
structure WaitArgs.From (a : WaitArgs) (h : Handles) (clockNs : Nat) : Prop where
  clock_le : clockNs ≤ u64Max
  stdin : ∀ s, a.stdinTimeout = some s → s.lastActivityNs ≤ clockNs ∧ s.timeoutNs ≤ u64Max
  throttle : ∀ ctx, h.throttle = some ctx → ctx.state.lastWallNs ≤ clockNs

/-- The deadlines of the loop at reading `nowNs`. -/
structure Sched (f : WaitFixed) (v : WaitVars) (h : Handles) (nowNs : Nat) : Prop where
  now_le : nowNs ≤ u64Max
  deadline_le : f.deadlineNs ≤ u64Max
  stdin : ∀ s, v.stdinTimeout = some s → s.lastActivityNs ≤ nowNs ∧ f.stdinTimeoutNs ≤ u64Max
  heartbeat_le : v.nextHeartbeatNs ≤ u64Max
  throttle_le : v.nextThrottleNs ≤ u64Max
  memory_le : v.nextMemoryCheckNs ≤ u64Max
  heartbeat : 0 < f.heartbeatIntervalNs → v.nextHeartbeatNs ≤ nowNs + f.heartbeatIntervalNs
  throttle : h.throttle.isSome = true → v.nextThrottleNs ≤ nowNs + f.throttleIntervalNs
  memory : f.args.memoryLimit.isSome = true →
    v.nextMemoryCheckNs ≤ nowNs + f.memoryCheckIntervalNs
  timer : v.changes.timer.filter = EVFILT_TIMER ∧ v.changes.timer.fflags = NOTE_NSECONDS

theorem advanceNs_le (base offset : Nat) : advanceNs base offset ≤ base + offset :=
  Nat.min_le_left _ _

namespace Sched
variable {f : WaitFixed} {v v' : WaitVars} {h h' : Handles} {nowNs nowNs' : Nat}

/-- Time goes on. -/
theorem later (s : Sched f v h nowNs) (hle : nowNs ≤ nowNs') (hmax : nowNs' ≤ u64Max) :
    Sched f v h nowNs' where
  now_le := hmax
  deadline_le := s.deadline_le
  stdin := fun c hc => ⟨Nat.le_trans (s.stdin c hc).1 hle, (s.stdin c hc).2⟩
  heartbeat_le := s.heartbeat_le
  throttle_le := s.throttle_le
  memory_le := s.memory_le
  heartbeat := fun hon => Nat.le_trans (s.heartbeat hon) (Nat.add_le_add_right hle _)
  throttle := fun hon => Nat.le_trans (s.throttle hon) (Nat.add_le_add_right hle _)
  memory := fun hon => Nat.le_trans (s.memory hon) (Nat.add_le_add_right hle _)
  timer := s.timer

/-- A change of the stdin locals and of the change list that leaves the timer alone. -/
theorem of_stdin (s : Sched f v h nowNs)
    (hstdin : ∀ c, v'.stdinTimeout = some c →
      c.lastActivityNs ≤ nowNs ∧ f.stdinTimeoutNs ≤ u64Max)
    (hnext : v'.nextHeartbeatNs = v.nextHeartbeatNs ∧ v'.nextThrottleNs = v.nextThrottleNs ∧
      v'.nextMemoryCheckNs = v.nextMemoryCheckNs)
    (htimer : v'.changes.timer.filter = v.changes.timer.filter ∧
      v'.changes.timer.fflags = v.changes.timer.fflags) : Sched f v' h nowNs where
  now_le := s.now_le
  deadline_le := s.deadline_le
  stdin := hstdin
  heartbeat_le := hnext.1 ▸ s.heartbeat_le
  throttle_le := hnext.2.1 ▸ s.throttle_le
  memory_le := hnext.2.2 ▸ s.memory_le
  heartbeat := hnext.1 ▸ s.heartbeat
  throttle := hnext.2.1 ▸ s.throttle
  memory := hnext.2.2 ▸ s.memory
  timer := ⟨htimer.1.trans s.timer.1, htimer.2.trans s.timer.2⟩

theorem beaten (s : Sched f v h nowNs) : Sched f (beaten f v nowNs) h nowNs :=
  { s with
    heartbeat_le := satAdd_le _ _
    heartbeat := fun _ => advanceNs_le _ _ }

theorem throttled (s : Sched f v h nowNs) : Sched f (throttled f v nowNs) h' nowNs :=
  { s with
    throttle_le := satAdd_le _ _
    throttle := fun _ => advanceNs_le _ _ }

theorem memoryChecked (s : Sched f v h nowNs) : Sched f (memoryChecked f v nowNs) h nowNs :=
  { s with
    memory_le := satAdd_le _ _
    memory := fun _ => advanceNs_le _ _ }

/-- The timer of the change list the round submits is the minimum of what remains, and
    the cast to isize keeps it. -/
theorem armed_timer (s : Sched f v h nowNs) (nowNs' : Nat) :
    ∃ tm, ((armed f v nowNs').toList.take (numChanges f v))[1]? = some tm ∧
      tm.filter = EVFILT_TIMER ∧ tm.fflags = NOTE_NSECONDS ∧
      tm.data = ((min (nextWakeNs f v nowNs') maxTimerNs : Nat) : Int) := by
  refine ⟨(armed f v nowNs').timer, ?_, s.timer.1, s.timer.2, asIsize_clamped _⟩
  have hlen : numChanges f v = (f.signalFd.isSome.toNat + (stdinActive v).toNat) + 2 := by
    unfold numChanges
    omega
  rw [hlen, Changes.toList, List.take_succ_cons, List.take_succ_cons]
  rfl

end Sched

/-- The contract of a clock that does not go back. -/
def steadyClock (w₀ : Watch) : Contract Ans where
  rely := NonDecreasing w₀

theorem clearDelete_timer (c : Changes) : (clearDelete c).timer = c.timer := by
  unfold clearDelete
  split <;> rfl

section keeps
variable {w₀ : Watch} {f : WaitFixed} {h : Handles} {l : Trace}

/-- A reading keeps the schedule. -/
theorem Sched.asksClock {v : WaitVars} (s : Sched f v h (watch w₀ l).clock)
    {P : Option Nat → Trace → Prop} (hnone : ∀ l', P none l')
    (hsome : ∀ t l', (watch w₀ l').clock = t → Sched f v h t → P (some t) l') :
    AsksClock (steadyClock w₀) .monitor f.args.confine l P := by
  refine asksClock_intro w₀ fun e r _ _ hle hw hr => ⟨trivial, ?_⟩
  cases r with
  | none => exact hnone _
  | some t =>
    have hclock : (watch w₀ (e :: l)).clock = t := by rw [hw]; rfl
    change (watch w₀ l).clock ≤ (watch w₀ (e :: l)).clock at hr
    rw [hclock] at hr
    exact hsome t _ hclock (s.later hr (hle t rfl))

theorem silent {σ ε α : Type} (m : Act Ans σ ε α) (s : σ) (l : Trace) :
    m.Ensures (steadyClock w₀) s l fun _ _ _ => True :=
  Prog.ensures_of_forall (fun _ _ => trivial) (fun _ => trivial) (fun _ _ => trivial) _ _

/-- Every block of the loop keeps the schedule. -/
theorem sched_rule (w₀ : Watch) (fuel : Nat) (f : WaitFixed) :
    WaitRule (steadyClock w₀) w₀ fuel f
      (fun _ v h l => Sched f v h (watch w₀ l).clock)
      (fun _ v h l => Sched f v h (watch w₀ l).clock)
      (fun _ v h l => Sched f v h (watch w₀ l).clock)
      (fun _ v h l => Sched f v h (watch w₀ l).clock) (fun _ _ _ => True) where
  cut _ _ _ _ := trivial
  clock n v h l s _ := s.asksClock (fun _ => trivial) fun t l' hl' s' => by
    dsimp only; rw [hl']; exact s'
  deadline _ _ _ _ _ _ _ := fun _ _ => ⟨trivial, trivial⟩
  idle _ _ _ _ _ _ _ _ _ := fun _ _ => ⟨trivial, trivial⟩
  kevent n v h l s _ _ := by
    intro r _
    refine ⟨trivial, ?_⟩
    -- the call itself reads no clock
    have hclock : (watch w₀ (⟨⟨.monitor, .kevent f.kq ((armed f v (watch w₀ l).clock).toList.take
        (numChanges f v))⟩, r⟩ :: l)).clock = (watch w₀ l).clock := by
      cases r with
      | ok ev => exact Watch.deliver_clock _ ev
      | error err => rfl
    dsimp only
    rw [hclock]
    refine s.of_stdin s.stdin ⟨rfl, rfl, rfl⟩ ?_
    rw [afterKevent, clearDelete_timer]
    exact ⟨rfl, rfl⟩
  interrupted _ _ _ _ _ s _ := s
  noProcess _ _ _ _ _ _ _ := fun _ _ => ⟨trivial, silent _ _ _⟩
  broken _ _ _ _ _ _ _ _ _ _ := fun _ _ => ⟨trivial, trivial⟩
  eof _ v _ _ _ _ s _ _ _ := s.of_stdin nofun ⟨rfl, rfl, rfl⟩ ⟨rfl, rfl⟩
  read n v h l cs ev s hw _ _ := by
    intro bytes _
    refine ⟨trivial, ?_⟩
    have hclock : (watch w₀ (⟨⟨.monitor, .readStdin⟩, bytes⟩ :: delivered f cs (.ok ev) l)).clock =
        (watch w₀ (delivered f cs (.ok ev) l)).clock := by
      rw [watch_cons, Watch.step]
      repeat' split
      all_goals rfl
    rw [← hclock] at s
    dsimp only
    split
    · exact s.of_stdin nofun ⟨rfl, rfl, rfl⟩ ⟨rfl, rfl⟩
    · split
      · refine s.asksClock (fun _ => trivial) fun t l' hl' s' => ?_
        dsimp only
        rw [hl']
        -- the new activity is the reading just taken
        refine s'.of_stdin ?_ ⟨rfl, rfl, rfl⟩ ⟨rfl, rfl⟩
        intro c hc
        simp only [stamped, rearmProc, Option.map_eq_some_iff] at hc
        obtain ⟨c', hc', rfl⟩ := hc
        exact ⟨Nat.le_refl t, (s'.stdin c' hc').2⟩
      · exact s.of_stdin s.stdin ⟨rfl, rfl, rfl⟩ ⟨rfl, rfl⟩
  timer n v h l cs ev s _ _ := s.asksClock (fun _ => trivial) fun t l' hl' s' => by
    dsimp only; rw [hl']; exact s'
  throttle n v h l ctx s _ _ _ := by
    refine (silent (CpuThrottleState.update ctx.cfg _) ctx.state l |>.with
      (WaitRule.update_watch w₀ ctx.cfg _ ctx.state l)).mono fun r st l' hr => ?_
    obtain ⟨-, ⟨b, rfl⟩, hw'⟩ := hr
    dsimp only
    rw [hw']
    exact s.throttled
  memory n v h l m s _ _ _ := by
    intro r _
    refine ⟨trivial, ?_⟩
    dsimp only
    split
    · split
      · exact fun _ _ => ⟨trivial, trivial⟩
      · exact s.memoryChecked
    · exact s.memoryChecked
  poll n v h l cfg s _ hcfg _ := by
    intro r _
    refine ⟨trivial, ?_⟩
    have hclock : (watch w₀ (⟨⟨.monitor, .pollStdin⟩, r⟩ :: l)).clock = (watch w₀ l).clock :=
      Watch.poll_clock _ _
    dsimp only
    rw [hclock]
    cases stdinPollStatus r with
    | idle => exact s
    | eof => exact s.of_stdin nofun ⟨rfl, rfl, rfl⟩ ⟨rfl, rfl⟩
    | readable =>
      refine s.of_stdin ?_ ⟨rfl, rfl, rfl⟩ ⟨rfl, rfl⟩
      rintro _ ⟨⟩
      exact ⟨Nat.le_refl _, (s.stdin cfg hcfg).2⟩
  line _ _ _ _ _ s _ _ _ _ := fun _ _ => ⟨trivial, s⟩
  beat _ _ _ _ s _ _ := s.beaten
  tick _ _ _ _ s _ _ := s.of_stdin s.stdin ⟨rfl, rfl, rfl⟩ ⟨rfl, rfl⟩
  badStdin _ _ _ _ _ _ s _ _ _ _ _ _ := s.of_stdin nofun ⟨rfl, rfl, rfl⟩ ⟨rfl, rfl⟩
  noFilter _ _ _ _ _ _ s _ _ _ _ _ _ := s.of_stdin s.stdin ⟨rfl, rfl, rfl⟩ ⟨rfl, rfl⟩
  -- the ways out of the loop keep no schedule
  refused _ _ _ _ _ _ _ _ _ _ _ _ _ _ := fun _ _ => ⟨trivial, trivial⟩
  gone _ _ _ _ _ _ _ _ _ _ _ _ := fun _ _ => ⟨trivial, silent _ _ _⟩
  exited _ _ _ _ _ _ _ _ _ _ := fun _ _ => ⟨trivial, (silent _ _ _).mono fun r _ _ _ => by
    cases r <;> trivial⟩
  signal _ _ _ _ _ _ _ _ _ _ _ := by
    intro _ _
    refine ⟨trivial, ?_⟩
    dsimp only
    split
    · trivial
    · exact fun _ _ => ⟨trivial, trivial⟩
  other _ _ _ _ _ _ _ _ _ _ _ _ := fun _ _ => ⟨trivial, trivial⟩

/-- What the set-up keeps: no reading so far is past the latest one. -/
structure Early (clockNs : Nat) (w : Watch) : Prop where
  clock : clockNs ≤ w.clock
  clock_le : w.clock ≤ u64Max
  start : w.start ≤ w.clock
  activity : w.activity ≤ w.clock

theorem early_setup (w₀ : Watch) (confine : Confine) (clockNs : Nat) :
    SetupRule (steadyClock w₀) confine (fun l => Early clockNs (watch w₀ l))
      (fun _ _ => True) where
  clock l hS := by
    refine asksClock_intro w₀ fun e r _ _ hle hw hr => ⟨trivial, ?_⟩
    cases r with
    | none => exact trivial
    | some t =>
      change (watch w₀ l).clock ≤ (watch w₀ (e :: l)).clock at hr
      dsimp only
      rw [hw] at hr ⊢
      change (watch w₀ l).clock ≤ t at hr
      refine ⟨Nat.le_trans hS.clock hr, hle t rfl, Nat.le_trans hS.start hr, ?_⟩
      -- activity that was pending is stamped with this reading
      show (if (watch w₀ l).pending then t else (watch w₀ l).activity) ≤ t
      split
      · exact Nat.le_refl t
      · exact Nat.le_trans hS.activity hr
  signalPipe l hS := fun _ _ =>
    ⟨trivial, hS.clock, hS.clock_le, Nat.le_refl _, hS.activity⟩
  fstat l hS := by
    intro r _
    refine ⟨trivial, ?_⟩
    show Early clockNs (if r < 0 then (watch w₀ l).closeStdin else watch w₀ l)
    split
    · exact ⟨hS.clock, hS.clock_le, hS.start, hS.activity⟩
    · exact hS
  poll l hS := by
    intro r _
    refine ⟨trivial, ?_⟩
    show Early clockNs ((watch w₀ l).poll (stdinPollStatus r))
    cases stdinPollStatus r with
    | idle => exact hS
    | eof => exact ⟨hS.clock, hS.clock_le, hS.start, hS.activity⟩
    | readable =>
      cases hl : (watch w₀ l).looping with
      | true =>
        rw [Watch.poll, if_pos hl]
        exact ⟨hS.clock, hS.clock_le, hS.start, Nat.le_refl _⟩
      | false =>
        rw [Watch.poll, if_neg (by rw [hl]; decide)]
        exact ⟨hS.clock, hS.clock_le, hS.start, hS.activity⟩
  kqueue l hS := by
    intro r _
    refine ⟨trivial, ?_⟩
    cases r with
    | ok _ => exact ⟨hS.clock, hS.clock_le, hS.start, hS.activity⟩
    | error _ => exact trivial

/-- The first deadlines are in order. -/
theorem SetUp.sched {a : WaitArgs} {h : Handles} {f : WaitFixed} {v : WaitVars} {w : Watch}
    {clockNs : Nat} (hset : SetUp a h f v w) (hfrom : a.From h clockNs)
    (hearly : Early clockNs w) :
    Sched f v h w.clock where
  now_le := hearly.clock_le
  deadline_le := by rw [hset.tracked.deadline]; exact satAdd_le _ _
  -- stdin that is still watched has the timeout it was given
  stdin := by
    intro s hs
    have htr := hset.tracked
    rw [htr.stdin, hset.args] at hs
    split at hs
    · next hon =>
      obtain ⟨cfg, hcfg, rfl⟩ := Option.map_eq_some_iff.mp hs
      refine ⟨hearly.activity, ?_⟩
      rw [htr.timeout hon, hset.args, hcfg]
      exact (hfrom.stdin cfg hcfg).2
    · cases hs
  heartbeat_le := by
    rw [hset.nextHeartbeat, firstHeartbeatNs]
    split
    · exact satAdd_le _ _
    · exact Nat.le_refl _
  throttle_le := by
    rw [hset.nextThrottle]
    unfold firstThrottleNs
    repeat' split
    · exact Nat.le_refl _
    · exact satAdd_le _ _
    · exact Nat.le_refl _
  memory_le := by
    rw [hset.nextMemoryCheck]
    unfold firstMemoryCheckNs
    repeat' split
    · exact Nat.le_refl _
    · exact satAdd_le _ _
    · exact Nat.le_refl _
  heartbeat := by
    intro hon
    rw [hset.nextHeartbeat, firstHeartbeatNs, if_pos hon]
    exact Nat.le_trans (advanceNs_le _ _) (Nat.add_le_add_right hearly.start _)
  -- the throttle was attached before the wait read its clock
  throttle := by
    intro hon
    obtain ⟨ctx, hctx⟩ := Option.isSome_iff_exists.mp hon
    have hwall := Nat.le_trans (hfrom.throttle ctx hctx) hearly.clock
    rw [hset.nextThrottle, hset.throttleInterval, hctx]
    simp only [firstThrottleNs, Option.elim_some]
    split
    · exact Nat.le_trans (advanceNs_le _ _) (Nat.add_le_add_right hwall _)
    · omega
  memory := by
    intro hon
    rw [hset.args] at hon
    obtain ⟨m, hm⟩ := Option.isSome_iff_exists.mp hon
    rw [hset.nextMemoryCheck, hset.memoryInterval, hm]
    simp only [firstMemoryCheckNs, Option.elim_some]
    split
    · exact Nat.le_trans (advanceNs_le _ _) (Nat.add_le_add_right hearly.start _)
    · omega
  timer := by rw [hset.changes]; exact ⟨rfl, rfl⟩

/-! ## The kevent call of a round -/

/-- Not a kevent call of the monitor. -/
def Req.noKevent : Req → Prop
  | ⟨.monitor, .kevent _ _⟩ => False
  | _ => True

/-- A call of a round apart from its kevent call, which prints only if `loud`. -/
def Req.inRound (loud : Bool) (q : Req) : Prop := q.noKevent ∧ (q.prints = true → loud = true)

/-- There is a heartbeat, and it is not quiet. -/
def WaitArgs.heartbeats (a : WaitArgs) : Bool := a.heartbeat.any fun hb => !hb.quiet

/-- A blocking wait asks for nothing else. -/
theorem asking_childWait {P : Req → Prop} (hP : ∀ pid, P ⟨.monitor, .wait4 pid⟩) (fuel : Nat) :
    Act.Asking P (childWait fuel) := by
  refine .attempt (.bind .get fun c => .ite .throw (.bind (.iterate (fun _ => ?_) fuel ()) fun _ =>
    .bind .modify fun _ => .pure))
  refine .bind (.call (hP c.pid)) fun r => ?_
  cases r with
  | ok _ => exact .pure
  | error _ => exact .ite .pure .throw

theorem asking_childTryWait {P : Req → Prop} (hP : ∀ pid, P ⟨.monitor, .wait4NoHang pid⟩) :
    Act.Asking P childTryWait := by
  refine .attempt (.bind .get fun c => .ite .throw (.bind (.call (hP c.pid)) fun r => ?_))
  match r with
  | .error _ => exact .throw
  | .ok none => exact .pure
  | .ok (some _) => exact .bind .modify fun _ => .pure

theorem asking_reapGone {P : Req → Prop} (hwait4 : ∀ pid, P ⟨.monitor, .wait4 pid⟩)
    (htry : ∀ pid, P ⟨.monitor, .wait4NoHang pid⟩) (fuel : Nat) : Act.Asking P (reapGone fuel) := by
  refine .bind (asking_childTryWait htry) fun r => ?_
  rcases r with _ | _ | _
  rotate_left 2
  · exact .pure
  -- with no status at hand the process is waited for
  all_goals
    refine .bind (asking_childWait hwait4 fuel) fun r => ?_
    cases r with
    | ok _ => exact .pure
    | error _ => exact .ite .pure .throw

theorem asking_childWaitOrFail {P : Req → Prop} (hP : ∀ pid, P ⟨.monitor, .wait4 pid⟩)
    (fuel : Nat) : Act.Asking P (childWaitOrFail fuel) := by
  refine .bind (asking_childWait hP fuel) fun r => ?_
  match r with
  | .ok _ => exact .pure
  | .error (.wait _) => exact .throw
  | .error (.notFound _) => exact .throw
  | .error (.permissionDenied _) => exact .throw
  | .error (.spawn _) => exact .throw
  | .error .invalidArg => exact .throw

theorem asking_now {P : Req → Prop} (confine : Confine)
    (h : P ⟨.monitor, clockCall confine⟩) : Act.Asking P (now confine) := by
  intro s
  cases confine with
  | wall => exact ⟨h, fun r => by cases r <;> exact trivial⟩
  | active => exact ⟨h, fun _ => trivial⟩

theorem asking_validateStdin {P : Req → Prop} (h : P ⟨.monitor, .fstatStdin⟩)
    (stdin : Option StdinTimeoutConfig) : Act.Asking P (validateStdin stdin) := by
  cases stdin with
  | none => exact .pure
  | some cfg => exact .bind (.call h) fun _ => .pure

/-- The level check before the loop asks for stdin only when there is a timeout on it. -/
theorem asking_initialPoll {P : Req → Prop} {stdin : Option StdinTimeoutConfig} (confine : Confine)
    (hpoll : stdin ≠ none → P ⟨.monitor, .pollStdin⟩) (hclock : P ⟨.monitor, clockCall confine⟩) :
    Act.Asking P (initialPoll confine stdin) := by
  cases stdin with
  | none => exact .pure
  | some cfg =>
    refine .ite (.bind (.call (hpoll (by simp))) fun r => ?_) .pure
    cases stdinPollStatus r with
    | readable => exact .bind (asking_now confine hclock) fun _ => .pure
    | eof => exact .pure
    | idle => exact .pure

theorem asking_openKqueue {P : Req → Prop} (h : P ⟨.monitor, .kqueue⟩) :
    Act.Asking P openKqueue := by
  refine .bind (.call h) fun r => ?_
  cases r with
  | ok kq => exact .pure
  | error err => exact .throw

/-- The calls of the set-up. -/
theorem asking_waitSetup {P : Req → Prop} (a : WaitArgs) (hclock : P ⟨.monitor, clockCall a.confine⟩)
    (hpipe : P ⟨.monitor, .loadSignalPipe⟩) (hfstat : P ⟨.monitor, .fstatStdin⟩)
    (hpoll : P ⟨.monitor, .pollStdin⟩) (hkq : P ⟨.monitor, .kqueue⟩) :
    Act.Asking P (waitSetup a) := by
  refine .bind (asking_now a.confine hclock) fun _ => .bind .get fun _ => .bind ?_ fun _ =>
    .bind (asking_validateStdin hfstat _) fun _ =>
    .bind (asking_initialPoll a.confine (fun _ => hpoll) hclock) fun _ =>
    .bind (asking_openKqueue hkq) fun _ => .pure
  exact .bind (.call hpipe) fun _ => .pure

theorem asking_finish {loud : Bool} {α : Type} (f : WaitFixed) (r : WaitResult) :
    Act.Asking (Req.inRound loud) (finish f r : SuperAct (Flow α)) :=
  .bind (.bind (.call ⟨trivial, nofun⟩) fun _ => .pure) fun _ => .pure

theorem asking_throttleTick {loud : Bool} (f : WaitFixed) (v : WaitVars) (nowNs : Nat) :
    Act.Asking (Req.inRound loud) (throttleTick f v nowNs) := by
  refine .bind .get fun h => .ite (.bind (.bind .get fun h => ?_) fun _ => .pure) .pure
  cases h.throttle with
  | none => exact .pure
  | some ctx =>
    refine .focus (.bind ?_ fun _ => .pure)
    exact CpuThrottleState.asking_update (fun _ _ => ⟨trivial, nofun⟩) (fun _ => ⟨trivial, nofun⟩) ctx.cfg
      nowNs

theorem asking_memoryTick {loud : Bool} (f : WaitFixed) (v : WaitVars) (nowNs : Nat) :
    Act.Asking (Req.inRound loud) (memoryTick f v nowNs) := by
  unfold memoryTick
  split
  · exact .pure
  · refine .ite (.bind (.call ⟨trivial, nofun⟩) fun r => ?_) .pure
    split
    · exact .ite (asking_finish _ _) .pure
    · exact .pure

theorem asking_passthroughTick {loud : Bool} (v : WaitVars) (nowNs : Nat) :
    Act.Asking (Req.inRound loud) (passthroughTick v nowNs) := by
  unfold passthroughTick
  split
  · exact .pure
  · refine .ite (.bind (.call ⟨trivial, nofun⟩) fun r => ?_) .pure
    split <;> exact .pure

theorem asking_timerVerdict (f : WaitFixed) (v : WaitVars) (nowNs : Nat) :
    Act.Asking (Req.inRound f.args.heartbeats) (timerVerdict f v nowNs) := by
  refine .ite (asking_finish _ _) (.ite (.bind ?_ fun _ => .pure)
    (.ite (asking_finish _ _) .pure))
  unfold heartbeatTick
  split
  · rename_i hb hsome
    split
    · exact .pure
    · rename_i hloud
      have hheard : f.args.heartbeats = true := by
        rw [WaitArgs.heartbeats, hsome]
        simpa using hloud
      exact .bind (.call ⟨trivial, fun _ => hheard⟩) fun _ => .pure
  · exact .pure

theorem asking_onEvent (f : WaitFixed) (v : WaitVars) (ev : Kevent) :
    Act.Asking (Req.inRound f.args.heartbeats) (onEvent f v ev) := by
  refine .ite ?_ (.ite ?_ (.ite ?_ .pure))
  · refine .ite .pure (.bind (.call ⟨trivial, nofun⟩) fun bytes => .ite .pure (.ite ?_ .pure))
    exact .bind (asking_now _ (by cases f.args.confine <;> exact ⟨trivial, nofun⟩)) fun _ => .pure
  · refine .bind (asking_now _ (by cases f.args.confine <;> exact ⟨trivial, nofun⟩)) fun t =>
      .bind (asking_throttleTick f v t) fun v =>
      .bind (asking_memoryTick f v t) fun r => ?_
    cases r with
    | go v => exact .bind (asking_passthroughTick v t) fun v => asking_timerVerdict f v t
    | next v => exact .pure
    | leave ev => exact .pure
    | ret r => exact .pure
  · exact .ite .pure (.ite .pure (.ite .pure
      (.bind (.bind (.call ⟨trivial, nofun⟩) fun _ => .pure) fun _ => .throw)))

theorem asking_onKeventError {loud : Bool} (fuel : Nat) (f : WaitFixed) (v : WaitVars)
    (err : Int) : Act.Asking (Req.inRound loud) (onKeventError fuel f v err) := by
  refine .ite .pure (.ite ?_ (.bind (.bind (.call ⟨trivial, nofun⟩) fun _ => .pure) fun _ => .throw))
  exact .bind (.bind (.call ⟨trivial, nofun⟩) fun _ => .pure) fun _ =>
    .bind (asking_reapGone (fun _ => ⟨trivial, nofun⟩) (fun _ => ⟨trivial, nofun⟩) fuel) fun _ => .pure

/-- What a kevent call at reading `nowNs` submits: the deadline is still ahead, and the
    timer is non-negative and fires no later than anything that is due. -/
structure TimerInBounds (f : WaitFixed) (v : WaitVars) (nowNs : Nat) (cs : List Kevent) :
    Prop where
  before_deadline : nowNs < f.deadlineNs
  timer : ∃ tm, cs[1]? = some tm ∧ tm.filter = EVFILT_TIMER ∧ tm.fflags = NOTE_NSECONDS ∧
    ∃ wakeNs : Nat, tm.data = (wakeNs : Int) ∧ wakeNs ≤ maxTimerNs ∧
      wakeNs ≤ f.deadlineNs - nowNs ∧ wakeNs ≤ v.nextHeartbeatNs - nowNs ∧
      wakeNs ≤ v.nextThrottleNs - nowNs ∧ wakeNs ≤ v.nextMemoryCheckNs - nowNs ∧
      ∀ s, v.stdinTimeout = some s → wakeNs ≤ s.lastActivityNs + f.stdinTimeoutNs - nowNs

theorem timeToStdinDeadline_le (f : WaitFixed) (v : WaitVars) (nowNs : Nat)
    {s : StdinTimeoutConfig} (hs : v.stdinTimeout = some s) :
    timeToStdinDeadline f v nowNs ≤ s.lastActivityNs + f.stdinTimeoutNs - nowNs := by
  rw [timeToStdinDeadline, hs]
  simp only [timeToIdleTimeout, elapsedNs]
  split
  · simp only [Option.map_some, Option.getD_some]
    omega
  · exact Nat.zero_le _

theorem Sched.armed_inBounds {v : WaitVars} {nowNs nowNs' : Nat} (s : Sched f v h nowNs)
    (hd : nowNs' < f.deadlineNs) :
    TimerInBounds f v nowNs' ((armed f v nowNs').toList.take (numChanges f v)) := by
  refine ⟨hd, ?_⟩
  obtain ⟨tm, htm, hfilter, hflags, hdata⟩ := s.armed_timer nowNs'
  refine ⟨tm, htm, hfilter, hflags, _, hdata, Nat.min_le_right _ _, ?_⟩
  have hwake : ∀ b, nextWakeNs f v nowNs' ≤ b →
      min (nextWakeNs f v nowNs') maxTimerNs ≤ b :=
    fun b hb => Nat.le_trans (Nat.min_le_left _ _) hb
  have hmin : nextWakeNs f v nowNs' ≤ remainingNs nowNs' f.deadlineNs ∧
      nextWakeNs f v nowNs' ≤ remainingNs nowNs' v.nextHeartbeatNs ∧
      nextWakeNs f v nowNs' ≤ timeToStdinDeadline f v nowNs' ∧
      nextWakeNs f v nowNs' ≤ remainingNs nowNs' v.nextThrottleNs ∧
      nextWakeNs f v nowNs' ≤ remainingNs nowNs' v.nextMemoryCheckNs := by
    unfold nextWakeNs
    omega
  obtain ⟨h₁, h₂, h₃, h₄, h₅⟩ := hmin
  refine ⟨hwake _ h₁, hwake _ h₂, hwake _ h₄, hwake _ h₅, fun c hc => hwake _ ?_⟩
  exact Nat.le_trans h₃ (timeToStdinDeadline_le f v nowNs' hc)

/-- Every kevent call submits changes that satisfy `G`. -/
def keventContract (G : List Kevent → Trace → Prop) : Contract Ans where
  guar e l := ∀ kq cs, e.req = ⟨.monitor, .kevent kq cs⟩ → G cs l

/-- Every kevent call has its timer in bounds for the loop variables `v`. -/
def timerContract (w₀ : Watch) (f : WaitFixed) (v : WaitVars) : Contract Ans where
  guar e l := ∀ kq cs, e.req = ⟨.monitor, .kevent kq cs⟩ →
    TimerInBounds f v (watch w₀ l).clock cs

section kevent
variable {G : List Kevent → Trace → Prop}

theorem noKevent_keeps (q : Req) (hq : q.noKevent) (l : Trace) :
    Asks (keventContract G) q l fun _ _ => True := by
  intro a _
  refine ⟨?_, trivial⟩
  rintro kq cs rfl
  exact hq.elim

theorem asking_keeps {α : Type} {m : SuperAct α} (hm : Act.Asking Req.noKevent m)
    (h : Handles) (l : Trace) : m.Ensures (keventContract G) h l fun _ _ _ => True :=
  hm.ensures (fun _ => True) (fun q l hq _ => noKevent_keeps q hq l) (fun _ _ => trivial) trivial

/-- The end of a round asks for nothing. -/
theorem asking_rest : ∀ r : Flow Kevent, Act.Asking Req.noKevent (match r with
    | .go ev | .leave ev => pure (.inr (.inr ev))
    | .next v => pure (.inl v)
    | .ret r => pure (.inr (.inl r)) : SuperAct (WaitVars ⊕ (WaitResult ⊕ Kevent))) := by
  intro r
  cases r <;> exact .pure

/-- The only kevent call of a round submits the armed changes, with the deadline still
    ahead of the latest reading. -/
theorem round_kevent {v : WaitVars} (fuel : Nat) (hG : ∀ l', (watch w₀ l').clock < f.deadlineNs →
      G ((armed f v (watch w₀ l').clock).toList.take (numChanges f v)) l') :
    (waitRound fuel f v).Ensures (keventContract G) h l fun _ _ _ => True := by
  simp only [waitRound, loopHead, Act.ensures_bind, ensures_now]
  refine asksClock_intro w₀ fun e r hreq _ _ hw _ => ⟨fun kq cs he => ?_, ?_⟩
  · rw [hreq] at he
    generalize f.args.confine = confine at he
    cases confine <;> cases he
  cases r with
  | none => trivial
  | some t =>
    have hclock : (watch w₀ (e :: l)).clock = t := by rw [hw]; rfl
    refine Act.ensures_ite (fun _ => ?_) fun hd => Act.ensures_ite (fun _ => ?_) fun _ => ?_
    · rw [WaitRule.ensures_finish]
      exact (noKevent_keeps ⟨.monitor, .close f.kq⟩ trivial _).mono fun _ _ => trivial
    · rw [WaitRule.ensures_finish]
      exact (noKevent_keeps ⟨.monitor, .close f.kq⟩ trivial _).mono fun _ _ => trivial
    · rw [deadlineReached_iff] at hd
      simp only [Act.ensures_pure, Act.ensures_bind, awaitEvent, Act.ensures_call]
      intro r _
      refine ⟨?_, ?_⟩
      · rintro kq cs ⟨⟩
        have harmed := hG (e :: l) (by rw [hclock]; omega)
        rw [hclock] at harmed
        exact harmed
      · cases r with
        | ok ev =>
          exact Act.ensures_bind.mp (asking_keeps
            (.bind ((asking_onEvent _ _ _).mono fun _ hq => hq.1) asking_rest) _ _)
        | error err =>
          exact Act.ensures_bind.mp
            (asking_keeps (.bind ((@asking_onKeventError true _ _ _ _).mono fun _ hq => hq.1)
              asking_rest) _ _)

end kevent

/-- The only kevent call of a round is made with its timer in bounds. -/
theorem round_inBounds {v : WaitVars} {nowNs : Nat} (fuel : Nat) (s : Sched f v h nowNs) :
    (waitRound fuel f v).Ensures (timerContract w₀ f v) h l fun _ _ _ => True :=
  round_kevent fuel fun l (hd : (watch w₀ l).clock < _) => s.armed_inBounds hd

end keeps

/-- The clock of the automaton never exceeds its latest value. -/
theorem clock_mono {w₀ : Watch} {l l' : Trace} (hs : l <:+ l')
    (hmono : Always (NonDecreasing w₀) l') : (watch w₀ l).clock ≤ (watch w₀ l').clock := by
  obtain ⟨t, rfl⟩ := hs
  induction t with
  | nil => exact Nat.le_refl _
  | cons e t ih => exact Nat.le_trans (ih hmono.2) hmono.1

/-- At every loop head the deadlines are in order and no value has left u64. The kevent
    call of the round is made before the deadline, with a timer that fires no later than
    anything that is due; no reading of the wait so far was at or past the deadline. -/
theorem wait_never_oversleeps (env : World) (fuel : Nat) (a : WaitArgs) (h₀ : Handles)
    (clockNs : Nat) (hfrom : a.From h₀ clockNs) {f : WaitFixed} {v₀ : WaitVars} {h₁ : Handles}
    {l₁ : Trace} (hsetup : (waitSetup a h₀).run env [] = (some (.ok (f, v₀), h₁), l₁))
    {v : WaitVars} {h : Handles} {l : Trace}
    (hreach : Act.Reaches env (waitRound fuel f) v₀ h₁ l₁ v h l)
    (hmono : Always (NonDecreasing (.ofArgs a clockNs)) ((waitRound fuel f v h).run env l).2) :
    Sched f v h (watch (.ofArgs a clockNs) l).clock ∧
    ∀ later kq cs r before, ((waitRound fuel f v h).run env l).2 =
        later ++ ⟨⟨.monitor, .kevent kq cs⟩, r⟩ :: before → l <:+ before →
      TimerInBounds f v (watch (.ofArgs a clockNs) before).clock cs ∧
      ∀ l₂, l₂ <:+ before → (watch (.ofArgs a clockNs) l₂).clock < f.deadlineNs := by
  have hextends : l <:+ ((waitRound fuel f v h).run env l).2 := Prog.run_extends env _ l
  have hmono_l := hmono.suffix hextends
  -- the set-up
  have hset := waitSetup_tracked (early_setup (.ofArgs a clockNs) a.confine clockNs) (h := h₀)
    (l := []) ⟨Nat.le_refl _, hfrom.clock_le, Nat.zero_le _, by
      show a.stdinTimeout.elim 0 (·.lastActivityNs) ≤ clockNs
      cases hs : a.stdinTimeout with
      | none => exact Nat.zero_le _
      | some s => exact (hfrom.stdin s hs).1⟩ (Watch.ofArgs_ready a clockNs)
  have hset' := Prog.Ensures.sound env hset trivial (by
    rw [hsetup]
    exact hmono_l.suffix hreach.extends)
  rw [hsetup] at hset'
  obtain ⟨rfl, hearly, hset⟩ := hset'.2.1 _ rfl
  -- every loop head
  have hJ := Act.Reaches.invariant (K := steadyClock (.ofArgs a clockNs))
    (fun v h l => Sched f v h (watch (.ofArgs a clockNs) l).clock ∧
      Tracked f v (watch (.ofArgs a clockNs) l))
    (fun v h l hJ => ((sched_rule (.ofArgs a clockNs) fuel f).round (n := 0) hJ.1 hJ.2).mono
      fun r h' l' hr => by
        match r, hr with
        | .ok (.inl v'), hr => exact hr
        | .ok (.inr _), _ => trivial
        | .error _, _ => trivial)
    ⟨hset.sched hfrom hearly, hset.tracked⟩ (Always.of_forall (fun _ _ => trivial) _) hreach hmono_l
  obtain ⟨⟨hsched, -⟩, -⟩ := hJ
  refine ⟨hsched, fun later kq cs r before hl hbefore => ?_⟩
  have hbounds : TimerInBounds f v (watch (.ofArgs a clockNs) before).clock cs :=
    Prog.Ensures.event env (round_inBounds fuel hsched) (Always.of_forall (fun _ _ => trivial) _)
      hl hbefore kq cs rfl
  refine ⟨hbounds, fun l₂ hl₂ => Nat.lt_of_le_of_lt ?_ hbounds.before_deadline⟩
  exact clock_mono hl₂ (hmono.suffix ⟨later ++ [_], by rw [hl, List.append_assoc]; rfl⟩)

/-- A clock that reads 0, 1, 2, ... and a kernel that only ever reports the timer. -/
def tickingWorld : World := Machine.world {
  wallClock := fun l => some (.ofNat (l.countP fun e => e.req == ⟨.monitor, .wallNow⟩))
  kevent := fun _ => .ok { ident := 1, filter := EVFILT_TIMER, flags := 0 } }

/-- A wait of 100 ns with a heartbeat every 3 and a memory check every 5. -/
def tickingArgs : WaitArgs where
  pid := 7
  timeout := { Duration.zero with subsecNanos := 100, nanos_lt := by decide }
  confine := .wall
  heartbeat := some { intervalNs := 3, quiet := true, pid := 7, startNs := 0 }
  memoryLimit := some { limitBytes := 10, checkIntervalNs := 5 }

/-- After one round, at reading 2, one ns is left to the heartbeat and three to the
    memory check. -/
theorem wait_never_oversleeps_ticking : ∃ f v h l,
    Sched f v h (watch (.ofArgs tickingArgs 0) l).clock ∧
    (watch (.ofArgs tickingArgs 0) l).clock = 2 ∧ f.deadlineNs = 100 ∧
    v.nextHeartbeatNs = 3 ∧ v.nextMemoryCheckNs = 5 := by
  have hreach := wait_never_oversleeps tickingWorld 9 tickingArgs { child := { pid := 7 } } 0
    ⟨by decide, nofun, nofun⟩ rfl (.round .start rfl) (by decide +kernel)
  exact ⟨_, _, _, _, hreach.1, by decide +kernel, by decide +kernel, by decide +kernel,
    by decide +kernel⟩

end Procguard
