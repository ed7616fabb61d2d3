import Procguard.Watch

/- The rule of the event loop. `WaitRule` lists, call by call, what a property has to
   show of one round of `wait_with_kqueue`; `WaitRule.round` and `WaitRule.wait` carry
   it through the blocks of the loop once, so that no property walks the code again.
   Every obligation comes with `Tracked`, the meaning of the locals in terms of the
   log. `SetupRule` is the same for the calls before the loop. -/
namespace Procguard
open Interact

/-! ## Set-up -/

/-- What the calls of the set-up have to keep. -/
structure SetupRule (K : Contract Ans) (confine : Confine) (S : Trace → Prop)
    (err : TimeoutError → Trace → Prop) : Prop where
  clock : ∀ l, S l → AsksClock K .monitor confine l fun r l' => match r with
    | some _ => S l'
    | none => err .timebaseError l'
  signalPipe : ∀ l, S l → Asks K ⟨.monitor, .loadSignalPipe⟩ l fun _ l' => S l'
  fstat : ∀ l, S l → Asks K ⟨.monitor, .fstatStdin⟩ l fun _ l' => S l'
  poll : ∀ l, S l → Asks K ⟨.monitor, .pollStdin⟩ l fun _ l' => S l'
  kqueue : ∀ l, S l → Asks K ⟨.monitor, .kqueue⟩ l fun r l' => match r with
    | .ok _ => S l'
    | .error errno => err (.internal s!"kqueue failed: errno {errno}") l'

/-- The automaton is where a wait with arguments `a` may start. -/
structure Watch.Ready (w : Watch) (a : WaitArgs) : Prop where
  settled : w.pending = false
  again : w.looping = true → a.stdinTimeout = none
  stdin : w.looping = false → w.stdin = a.stdinTimeout.isSome
  draining : w.looping = false → w.draining = a.stdinTimeout.elim false (·.mode == .consume)
  activity : w.looping = false → ∀ s, a.stdinTimeout = some s → s.lastActivityNs = w.activity

/-- The automaton a wait starts from, `clockNs` being the latest reading before it. -/
def Watch.ofArgs (a : WaitArgs) (clockNs : Nat) : Watch where
  clock := clockNs
  activity := a.stdinTimeout.elim 0 (·.lastActivityNs)
  stdin := a.stdinTimeout.isSome
  draining := a.stdinTimeout.elim false (·.mode == .consume)

theorem Watch.ofArgs_ready (a : WaitArgs) (clockNs : Nat) : (Watch.ofArgs a clockNs).Ready a where
  settled := rfl
  again := nofun
  stdin := fun _ => rfl
  draining := fun _ => rfl
  activity := fun _ s hs => by simp [Watch.ofArgs, hs]

/-- What the set-up hands to the loop. -/
structure SetUp (a : WaitArgs) (h : Handles) (f : WaitFixed) (v : WaitVars) (w : Watch) :
    Prop where
  args : f.args = a
  throttleInterval : f.throttleIntervalNs = h.throttle.elim u64Max (·.cfg.intervalNs)
  memoryInterval : f.memoryCheckIntervalNs = a.memoryLimit.elim u64Max (·.checkIntervalNs)
  heartbeatInterval : f.heartbeatIntervalNs = a.heartbeat.elim 0 (·.intervalNs)
  nextThrottle : v.nextThrottleNs = firstThrottleNs h.throttle
  nextMemoryCheck : v.nextMemoryCheckNs = firstMemoryCheckNs w.start a.memoryLimit
  nextHeartbeat : v.nextHeartbeatNs = firstHeartbeatNs w.start f.heartbeatIntervalNs
  changes : v.changes = initialChanges a.pid (durationToNs a.timeout) f.signalFd v.stdinEnabled
  tracked : Tracked f v w

/-- Half way through the set-up: the stdin timeout left so far, and the automaton. -/
structure SettingUp (a : WaitArgs) (startNs : Nat) (fd : Option Int)
    (stdin : Option StdinTimeoutConfig) (draining : Bool) (w : Watch) : Prop where
  start : w.start = startNs
  signals : fd.isSome = w.signals
  settled : w.pending = false
  looping : w.looping = false
  draining : draining = w.draining
  stdin : stdin = if w.stdin then
    a.stdinTimeout.map fun s => { s with lastActivityNs := w.activity } else none

section setup
variable {K : Contract Ans} {a : WaitArgs} {S : Trace → Prop} {err : TimeoutError → Trace → Prop}
  {w₀ : Watch} {h : Handles} {l : Trace} {startNs : Nat} {fd : Option Int}

theorem SettingUp.begin {w : Watch} (hw : w.Ready a) (startNs : Nat) (fd : Int) :
    SettingUp a startNs (if 0 ≤ fd then some fd else none) a.stdinTimeout
      (a.stdinTimeout.elim false fun s => s.mode == .consume)
      ((w.tick startNs).begin fd) := by
  obtain ⟨hset, hagain, hstdin, hdrain, hact⟩ := hw
  have htick : w.tick startNs = { w with clock := startNs } := by
    rw [Watch.tick, hset, if_neg (by decide), ← hset]
  rw [htick]
  refine ⟨rfl, ?_, hset, rfl, ?_, ?_⟩
  · by_cases hfd : 0 ≤ fd <;> simp [Watch.begin, hfd]
  · cases hl : w.looping with
    | true => simp [Watch.begin, hagain hl]
    | false => simp [Watch.begin, hdrain hl]
  · cases hl : w.looping with
    | true => simp [Watch.begin, hagain hl]
    | false =>
      have hact' := hact hl
      cases hs : a.stdinTimeout with
      | none => simp [Watch.begin, hstdin hl, hs]
      | some s => simp [Watch.begin, hstdin hl, hs, ← hact' s hs]

theorem validateStdin_settingUp (R : SetupRule K a.confine S err)
    (hS : S l) (hw : SettingUp a startNs fd a.stdinTimeout
      (a.stdinTimeout.elim false fun s => s.mode == .consume) (watch w₀ l)) :
    (validateStdin a.stdinTimeout).Ensures K h l fun r h' l' => h' = h ∧ S l' ∧ match r with
      | .ok s => SettingUp a startNs fd s (s.elim false fun s => s.mode == .consume)
          (watch w₀ l')
      | .error _ => False := by
  cases hs : a.stdinTimeout with
  | none => exact ⟨rfl, hS, by rw [hs] at hw; exact hw⟩
  | some cfg =>
    simp only [validateStdin, Act.ensures_bind, Act.ensures_call, Act.ensures_pure]
    intro r hr
    refine ⟨(R.fstat l hS r hr).1, trivial, (R.fstat l hS r hr).2, ?_⟩
    rw [hs] at hw
    show SettingUp a startNs fd (if r < 0 then none else some cfg) _
      (if r < 0 then (watch w₀ l).closeStdin else watch w₀ l)
    by_cases hneg : r < 0
    · rw [if_pos hneg, if_pos hneg]
      exact ⟨hw.start, hw.signals, hw.settled, hw.looping, rfl, rfl⟩
    · rw [if_neg hneg, if_neg hneg]
      exact hw

theorem initialPoll_settingUp (R : SetupRule K a.confine S err) {draining : Bool}
    {stdin : Option StdinTimeoutConfig} (hS : S l)
    (hw : SettingUp a startNs fd stdin draining (watch w₀ l)) :
    (initialPoll a.confine stdin).Ensures K h l fun r h' l' => h' = h ∧ match r with
      | .ok s => S l' ∧ (stdin = none → s = none) ∧ SettingUp a startNs fd s draining (watch w₀ l')
      | .error e => err e l' := by
  obtain ⟨hstart, hsig, hset, hloop, hdrain, hstdin⟩ := hw
  cases stdin with
  | none => exact ⟨rfl, hS, fun _ => rfl, hstart, hsig, hset, hloop, hdrain, hstdin⟩
  | some cfg =>
    rw [initialPoll]
    refine Act.ensures_ite (fun _ => ?_) fun _ =>
      ⟨rfl, hS, nofun, hstart, hsig, hset, hloop, hdrain, hstdin⟩
    simp only [Act.ensures_bind, Act.ensures_call]
    intro r hr
    obtain ⟨hg, hS'⟩ := R.poll l hS r hr
    refine ⟨hg, ?_⟩
    generalize hl' : (⟨⟨.monitor, .pollStdin⟩, r⟩ :: l : Trace) = l' at hS' ⊢
    have hw' : watch w₀ l' = (watch w₀ l).poll (stdinPollStatus r) := by rw [← hl']; rfl
    cases hpoll : stdinPollStatus r with
    | idle =>
      rw [hpoll] at hw'
      exact ⟨rfl, hS', nofun, by rw [hw']; exact ⟨hstart, hsig, hset, hloop, hdrain, hstdin⟩⟩
    | eof =>
      rw [hpoll] at hw'
      refine ⟨rfl, hS', fun _ => rfl, ?_⟩
      rw [hw']
      exact ⟨hstart, hsig, hset, hloop, hdrain, rfl⟩
    | readable =>
      -- the reading that follows stamps the activity
      rw [hpoll, Watch.poll, if_neg (by rw [hloop]; decide)] at hw'
      simp only [Act.ensures_bind, ensures_now]
      refine ((R.clock l' hS').watched w₀).mono fun t l'' ht => ?_
      obtain ⟨ht, hw''⟩ := ht
      cases t with
      | none => exact ⟨trivial, ht⟩
      | some t =>
        refine ⟨rfl, ht, nofun, ?_⟩
        rw [hw'', hw']
        refine ⟨hstart, hsig, rfl, hloop, hdrain, ?_⟩
        show some { cfg with lastActivityNs := t } = _
        cases hon : (watch w₀ l).stdin with
        | false => rw [hon] at hstdin; cases hstdin
        | true =>
          rw [hon, if_pos rfl] at hstdin
          cases hcfg : a.stdinTimeout with
          | none => rw [hcfg] at hstdin; cases hstdin
          | some cfg₀ =>
            rw [hcfg] at hstdin
            cases hstdin
            simp [Watch.tick]

/-- The set-up hands the loop locals that mean what the log shows. -/
theorem waitSetup_tracked (R : SetupRule K a.confine S err) (hS : S l)
    (hw : (watch w₀ l).Ready a) :
    (waitSetup a).Ensures K h l fun r h' l' => h' = h ∧ match r with
      | .ok (f, v) => S l' ∧ SetUp a h f v (watch w₀ l')
      | .error e => err e l' := by
  simp only [waitSetup, Act.ensures_bind, ensures_now]
  refine ((R.clock l hS).watched w₀).mono fun t l₁ ht => ?_
  obtain ⟨ht, hw₁⟩ := ht
  cases t with
  | none => exact ⟨trivial, ht⟩
  | some startNs =>
    simp only [Act.ensures_get, loadSignalFd, Act.ensures_bind, Act.ensures_call,
      Act.ensures_pure]
    intro fd hfd
    obtain ⟨hg₂, hS₂⟩ := R.signalPipe l₁ ht fd hfd
    refine ⟨hg₂, ?_⟩
    -- the reading and the look for the signal pipe begin the automaton
    have hw₂ := SettingUp.begin hw startNs fd
    change SettingUp a startNs _ _ _ ((watch w₀ l).tick startNs |>.begin fd) at hw₂
    rw [← show watch w₀ l₁ = (watch w₀ l).tick startNs from hw₁] at hw₂
    refine (validateStdin_settingUp R hS₂ hw₂).mono fun r h₃ l₃ hr => ?_
    obtain ⟨rfl, hS₃, hr⟩ := hr
    cases r with
    | error e => exact hr.elim
    | ok s =>
      refine (initialPoll_settingUp R hS₃ hr).mono fun r' h₄ l₄ hr' => ?_
      obtain ⟨rfl, hr'⟩ := hr'
      cases r' with
      | error e => exact ⟨rfl, hr'⟩
      | ok s' =>
        obtain ⟨hS₄, hnone, hw₄⟩ := hr'
        simp only [openKqueue, Act.ensures_bind, Act.ensures_call]
        intro kq hkq
        obtain ⟨hg₅, hS₅⟩ := R.kqueue l₄ hS₄ kq hkq
        refine ⟨hg₅, ?_⟩
        cases kq with
        | error errno => exact ⟨rfl, hS₅⟩
        | ok kq =>
          -- every first due time counts from that first reading
          have hst : (watch w₀ l₄).start = startNs := hw₄.start
          refine ⟨rfl, hS₅, rfl, rfl, rfl, rfl, rfl, ?_, ?_, rfl, ?_⟩
          · rw [← hst]; rfl
          · rw [← hst]; rfl
          · refine ⟨by rw [← hst]; rfl, hw₄.signals, hw₄.settled, rfl, hw₄.draining, hw₄.stdin, ?_⟩
            -- stdin that survived both looks has the timeout it was given
            intro hon
            have hs' := hw₄.stdin
            rw [if_pos (show (watch w₀ l₄).stdin = true from hon)] at hs'
            cases hs : s with
            | none =>
              rw [hnone hs] at hs'
              cases ha : a.stdinTimeout with
              | none => rfl
              | some cfg => rw [ha] at hs'; cases hs'
            | some cfg =>
              have hs₃ := hr.stdin
              rw [hs] at hs₃
              split at hs₃
              · cases ha : a.stdinTimeout with
                | none => rw [ha] at hs₃; cases hs₃
                | some cfg₀ => rw [ha] at hs₃; cases hs₃; rfl
              · cases hs₃

/-- What a property of the set-up has to keep, when it is none. -/
theorem silent_setup (confine : Confine) :
    SetupRule {} confine (fun _ => True) fun _ _ => True where
  clock _ _ := asksClock_intro {} fun _ r _ _ _ _ _ => ⟨trivial, by cases r <;> exact trivial⟩
  signalPipe _ _ := fun _ _ => ⟨trivial, trivial⟩
  fstat _ _ := fun _ _ => ⟨trivial, trivial⟩
  poll _ _ := fun _ _ => ⟨trivial, trivial⟩
  kqueue _ _ := fun r _ => ⟨trivial, by cases r <;> exact trivial⟩

end setup

/-! ## The loop -/

/-- The event reports activity on the stdin the loop drains. -/
def StdinEvent (v : WaitVars) (ev : Kevent) : Prop :=
  ev.filter = EVFILT_READ ∧ ev.ident = 0 ∧ v.stdinEnabled = true

instance (v : WaitVars) (ev : Kevent) : Decidable (StdinEvent v ev) :=
  inferInstanceAs (Decidable (_ ∧ _ ∧ _))

/-- The log once the kevent call has been answered. -/
@[reducible] def delivered (f : WaitFixed) (cs : List Kevent) (r : Except Int Kevent) (l : Trace) :
    Trace :=
  ⟨⟨.monitor, .kevent f.kq cs⟩, r⟩ :: l

/-- The change list the round submits, with the timer armed from reading `nowNs`. -/
def armed (f : WaitFixed) (v : WaitVars) (nowNs : Nat) : Changes :=
  armTimer v.changes (nextWakeNs f v nowNs)

/-- The locals after the kevent call. -/
def afterKevent (f : WaitFixed) (v : WaitVars) (nowNs : Nat) : WaitVars :=
  { v with changes := clearDelete (armed f v nowNs) }

/-- The locals after a throttle tick. -/
def throttled (f : WaitFixed) (v : WaitVars) (nowNs : Nat) : WaitVars :=
  { v with nextThrottleNs := advanceNs nowNs f.throttleIntervalNs }

/-- The locals after a memory check that passed. -/
def memoryChecked (f : WaitFixed) (v : WaitVars) (nowNs : Nat) : WaitVars :=
  { v with nextMemoryCheckNs := advanceNs nowNs f.memoryCheckIntervalNs }

/-- The locals after the level check of passthrough mode. -/
def polled (v : WaitVars) (cfg : StdinTimeoutConfig) (nowNs : Nat) : StdinPollResult → WaitVars
  | .readable => { v with stdinTimeout := some { cfg with lastActivityNs := nowNs } }
  | .eof => { v with stdinTimeout := none }
  | .idle => v

/-- The locals after a heartbeat. -/
def beaten (f : WaitFixed) (v : WaitVars) (nowNs : Nat) : WaitVars :=
  rearmProc { v with nextHeartbeatNs := advanceNs nowNs f.heartbeatIntervalNs }

/-- The locals after `read` returned `n` bytes, the activity read at `nowNs`. -/
def stamped (v : WaitVars) (nowNs : Nat) : WaitVars :=
  rearmProc { v with stdinTimeout := v.stdinTimeout.map fun s => { s with lastActivityNs := nowNs } }

/-- No timeout has passed at the latest reading. -/
structure InTime (f : WaitFixed) (w : Watch) : Prop where
  deadline : w.clock < f.deadlineNs
  idle : ∀ cfg, f.args.stdinTimeout = some cfg → ¬ w.IdleReached cfg.timeoutNs

/-- What a property has to show of a round of the loop. `Head n` holds at the loop head
    with `n` rounds left, `Now` once the round has taken its reading, `Seen` once the
    kevent call has been answered, `Tick` once the timer branch has taken its own reading,
    `Post` when the wait is over. -/
structure WaitRule (K : Contract Ans) (w₀ : Watch) (fuel : Nat) (f : WaitFixed)
    (Head Now Seen Tick : Nat → WaitVars → Handles → Trace → Prop)
    (Post : Except TimeoutError WaitResult → Handles → Trace → Prop) : Prop where
  -- the fuel is out
  cut : ∀ v h l, Head 0 v h l → K.cut l
  -- the head of a round: read the clock
  clock : ∀ n v h l, Head (n + 1) v h l → Tracked f v (watch w₀ l) →
    AsksClock K .monitor f.args.confine l fun r l' => match r with
      | some _ => Now n v h l'
      | none => Post (.error .timebaseError) h l'
  -- the timeouts, at the head of a round and again after its duties
  deadline : ∀ n v h l, Now n v h l ∨ Tick n v h l → Tracked f v (watch w₀ l) →
    f.deadlineNs ≤ (watch w₀ l).clock →
    Asks K ⟨.monitor, .close f.kq⟩ l fun _ l' => Post (.ok (.timedOut .wallClock)) h l'
  idle : ∀ n v h l cfg, Now n v h l ∨ Tick n v h l → Tracked f v (watch w₀ l) →
    f.args.stdinTimeout = some cfg → (watch w₀ l).IdleReached cfg.timeoutNs →
    Asks K ⟨.monitor, .close f.kq⟩ l fun _ l' => Post (.ok (.timedOut .stdinIdle)) h l'
  -- the call the loop blocks in, and what is made of its error
  kevent : ∀ n v h l, Now n v h l → Tracked f v (watch w₀ l) → InTime f (watch w₀ l) →
    Asks K ⟨.monitor, .kevent f.kq
      ((armed f v (watch w₀ l).clock).toList.take (numChanges f v))⟩ l
      fun _ l' => Seen n (afterKevent f v (watch w₀ l).clock) h l'
  interrupted : ∀ n v h l cs, Seen n v h (delivered f cs (.error EINTR) l) →
    Tracked f v (watch w₀ l) → Head n v h (delivered f cs (.error EINTR) l)
  noProcess : ∀ n v h l cs, Seen n v h (delivered f cs (.error ESRCH) l) →
    Tracked f v (watch w₀ l) →
    Asks K ⟨.monitor, .close f.kq⟩ (delivered f cs (.error ESRCH) l) fun _ l' =>
      (reapGone fuel).Ensures K h l' Post
  broken : ∀ n v h l cs err, Seen n v h (delivered f cs (.error err) l) →
    Tracked f v (watch w₀ l) → err ≠ EINTR → err ≠ ESRCH →
    Asks K ⟨.monitor, .close f.kq⟩ (delivered f cs (.error err) l) fun _ l' =>
      Post (.error (.internal s!"kevent failed: errno {err}")) h l'
  -- an event of stdin: its end, or bytes to throw away
  eof : ∀ n v h l cs ev, Seen n v h (delivered f cs (.ok ev) l) → Tracked f v (watch w₀ l) →
    StdinEvent v ev → ev.has EV_EOF = true →
    Head n (rearmProc (dropStdin v)) h (delivered f cs (.ok ev) l)
  read : ∀ n v h l cs ev, Seen n v h (delivered f cs (.ok ev) l) → Tracked f v (watch w₀ l) →
    StdinEvent v ev → ev.has EV_EOF = false →
    Asks K ⟨.monitor, .readStdin⟩ (delivered f cs (.ok ev) l) fun bytes l' =>
      if bytes = 0 then Head n (rearmProc (dropStdin v)) h l'
      else if 0 < bytes then
        AsksClock K .monitor f.args.confine l' fun r l'' => match r with
          | some t => Head n (stamped v t) h l''
          | none => Post (.error .timebaseError) h l''
      else Head n (rearmProc v) h l'
  -- the timer branch: read the clock again, then the duties that are due
  timer : ∀ n v h l cs ev, Seen n v h (delivered f cs (.ok ev) l) → Tracked f v (watch w₀ l) →
    ev.filter = EVFILT_TIMER →
    AsksClock K .monitor f.args.confine (delivered f cs (.ok ev) l) fun r l' => match r with
      | some _ => Tick n v h l'
      | none => Post (.error .timebaseError) h l'
  throttle : ∀ n v h l ctx, Tick n v h l → Tracked f v (watch w₀ l) → h.throttle = some ctx →
    v.nextThrottleNs ≤ (watch w₀ l).clock →
    (CpuThrottleState.update ctx.cfg (watch w₀ l).clock).Ensures K ctx.state l fun r st l' =>
      match r with
      | .ok _ => Tick n (throttled f v (watch w₀ l).clock)
          { h with throttle := some { ctx with state := st } } l'
      | .error _ => False
  memory : ∀ n v h l m, Tick n v h l → Tracked f v (watch w₀ l) → f.args.memoryLimit = some m →
    v.nextMemoryCheckNs ≤ (watch w₀ l).clock →
    Asks K ⟨.memoryCheck, .procPidRusage f.args.pid⟩ l fun r l' =>
      match r.map RusageInfo.memoryBytes with
      | some currentBytes =>
        if m.limitBytes < currentBytes then
          Asks K ⟨.monitor, .close f.kq⟩ l' fun _ l'' =>
            Post (.ok (.memoryLimitExceeded m.limitBytes currentBytes)) h l''
        else Tick n (memoryChecked f v (watch w₀ l).clock) h l'
      | none => Tick n (memoryChecked f v (watch w₀ l).clock) h l'
  poll : ∀ n v h l cfg, Tick n v h l → Tracked f v (watch w₀ l) → v.stdinTimeout = some cfg →
    cfg.mode = .passthrough →
    Asks K ⟨.monitor, .pollStdin⟩ l fun r l' =>
      Tick n (polled v cfg (watch w₀ l).clock (stdinPollStatus r)) h l'
  line : ∀ n v h l hb, Tick n v h l → Tracked f v (watch w₀ l) →
    heartbeatDue f v (watch w₀ l).clock = true → f.args.heartbeat = some hb → hb.quiet = false →
    Asks K ⟨.monitor, .eprintln
      (heartbeatLine ((elapsedNs hb.startNs (watch w₀ l).clock).getD 0) hb.pid)⟩ l
      fun _ l' => Tick n v h l'
  beat : ∀ n v h l, Tick n v h l → Tracked f v (watch w₀ l) →
    heartbeatDue f v (watch w₀ l).clock = true → Head n (beaten f v (watch w₀ l).clock) h l
  tick : ∀ n v h l, Tick n v h l → Tracked f v (watch w₀ l) → InTime f (watch w₀ l) →
    Head n (rearmProc v) h l
  -- errors that come as events, and of these the two about stdin that the loop survives
  badStdin : ∀ n v h l cs ev, Seen n v h (delivered f cs (.ok ev) l) →
    Tracked f v (watch w₀ l) → ¬ StdinEvent v ev → ev.filter ≠ EVFILT_TIMER →
    ev.has EV_ERROR = true → ev.errCode = EBADF → ev.ident = 0 →
    Head n (rearmProc (dropStdin v)) h (delivered f cs (.ok ev) l)
  noFilter : ∀ n v h l cs ev, Seen n v h (delivered f cs (.ok ev) l) →
    Tracked f v (watch w₀ l) → ¬ StdinEvent v ev → ev.filter ≠ EVFILT_TIMER →
    ev.has EV_ERROR = true → ev.errCode = ENOENT → ev.ident = 0 →
    Head n (rearmProc (setStdinFlags v 0)) h (delivered f cs (.ok ev) l)
  refused : ∀ n v h l cs ev, Seen n v h (delivered f cs (.ok ev) l) →
    Tracked f v (watch w₀ l) → ¬ StdinEvent v ev → ev.filter ≠ EVFILT_TIMER →
    ev.has EV_ERROR = true → ¬ (ev.errCode = EBADF ∧ ev.ident = 0) →
    ¬ (ev.errCode = ENOENT ∧ ev.ident = 0) → ev.errCode ≠ ESRCH →
    Asks K ⟨.monitor, .close f.kq⟩ (delivered f cs (.ok ev) l) fun _ l' =>
      Post (.error (.internal (let errCode := ev.errCode
        s!"kqueue event registration failed: errno {errCode}"))) h l'
  gone : ∀ n v h l cs ev, Seen n v h (delivered f cs (.ok ev) l) → Tracked f v (watch w₀ l) →
    ¬ StdinEvent v ev → ev.filter ≠ EVFILT_TIMER → ev.has EV_ERROR = true →
    ev.errCode = ESRCH →
    Asks K ⟨.monitor, .close f.kq⟩ (delivered f cs (.ok ev) l) fun _ l' =>
      (reapGone fuel).Ensures K h l' Post
  -- the loop is left with an event to decide by
  exited : ∀ n v h l cs ev, Seen n v h (delivered f cs (.ok ev) l) → Tracked f v (watch w₀ l) →
    ev.filter = EVFILT_PROC → ev.has EV_ERROR = false →
    Asks K ⟨.monitor, .close f.kq⟩ (delivered f cs (.ok ev) l) fun _ l' =>
      (childWaitOrFail fuel).Ensures K h l' fun r h' l'' => match r with
        | .ok (status, rusage) => Post (.ok (.exited status rusage)) h' l''
        | .error e => Post (.error e) h' l''
  signal : ∀ n v h l cs ev, Seen n v h (delivered f cs (.ok ev) l) → Tracked f v (watch w₀ l) →
    ¬ StdinEvent v ev → ev.filter = EVFILT_READ → ev.has EV_ERROR = false →
    Asks K ⟨.monitor, .close f.kq⟩ (delivered f cs (.ok ev) l) fun _ l' =>
      match f.signalFd with
      | none => Post (.ok (.timedOut .wallClock)) h l'
      | some fd => Asks K ⟨.monitor, .readSignalPipe fd⟩ l' fun b l'' =>
        Post (.ok (b.elim (.timedOut .wallClock) fun b => .receivedSignal (decodeSignalByte b)))
          h l''
  other : ∀ n v h l cs ev, Seen n v h (delivered f cs (.ok ev) l) → Tracked f v (watch w₀ l) →
    ev.filter ≠ EVFILT_TIMER → ev.filter ≠ EVFILT_PROC → ev.filter ≠ EVFILT_READ →
    ev.has EV_ERROR = false →
    Asks K ⟨.monitor, .close f.kq⟩ (delivered f cs (.ok ev) l) fun _ l' =>
      Post (.ok (.timedOut .wallClock)) h l'

/-! ## How the locals and the automaton move together -/

namespace Tracked
variable {f : WaitFixed} {v v' : WaitVars} {w : Watch}

/-- Only the stdin locals are followed. -/
theorem of_stdin (h : Tracked f v w) (ht : v'.stdinTimeout = v.stdinTimeout)
    (he : v'.stdinEnabled = v.stdinEnabled) : Tracked f v' w :=
  ⟨h.deadline, h.signals, h.settled, h.looping, he.trans h.draining, ht.trans h.stdin, h.timeout⟩

theorem tick_eq (h : Tracked f v w) (t : Nat) : w.tick t = { w with clock := t } := by
  rw [Watch.tick, h.settled, if_neg (by decide), ← h.settled]

theorem tick (h : Tracked f v w) (t : Nat) : Tracked f v (w.tick t) := by
  rw [h.tick_eq]
  exact ⟨h.deadline, h.signals, h.settled, h.looping, h.draining, h.stdin, h.timeout⟩

theorem closed (h : Tracked f v w) : Tracked f (rearmProc (dropStdin v)) w.closeStdin :=
  ⟨h.deadline, h.signals, h.settled, h.looping, rfl, rfl, nofun⟩

theorem stamped (h : Tracked f v w) (t : Nat) :
    Tracked f (stamped v t) (({ w with pending := true } : Watch).tick t) := by
  refine ⟨h.deadline, h.signals, rfl, h.looping, h.draining, ?_, h.timeout⟩
  show v.stdinTimeout.map _ = _
  rw [h.stdin]
  show _ = if w.stdin then _ else _
  cases w.stdin with
  | false => rfl
  | true =>
    rw [if_pos rfl, if_pos rfl, Option.map_map]
    rfl

theorem polled (h : Tracked f v w) {cfg : StdinTimeoutConfig} (hcfg : v.stdinTimeout = some cfg)
    (r : StdinPollResult) : Tracked f (polled v cfg w.clock r) (w.poll r) := by
  have hstdin := h.stdin
  rw [hcfg] at hstdin
  cases r with
  | idle => exact h
  | eof => exact ⟨h.deadline, h.signals, h.settled, h.looping, h.draining, rfl, nofun⟩
  | readable =>
    rw [Watch.poll, if_pos h.looping]
    refine ⟨h.deadline, h.signals, h.settled, h.looping, h.draining, ?_, h.timeout⟩
    show some { cfg with lastActivityNs := w.clock } = if w.stdin then _ else _
    split at hstdin
    · next hon =>
      rw [if_pos hon]
      cases ha : f.args.stdinTimeout with
      | none => rw [ha] at hstdin; cases hstdin
      | some cfg₀ => rw [ha] at hstdin; cases hstdin; rfl
    · cases hstdin

/-- An event that is neither stdin nor stdin's own registration error leaves the
    automaton where it is. -/
theorem deliver_eq (h : Tracked f v w) {ev : Kevent} (hev : StdinEvent v ev → ev.has EV_EOF = false)
    (herr : ev.filter ≠ EVFILT_TIMER → ev.has EV_ERROR = true → ev.errCode = EBADF →
      ev.ident = 0 → StdinEvent v ev) : w.deliver ev = w := by
  unfold Watch.deliver
  have hin : StdinEvent v ev ↔ ev.filter = EVFILT_READ ∧ ev.ident = 0 ∧ w.draining = true := by
    rw [StdinEvent, h.draining]
  by_cases hs : StdinEvent v ev
  · rw [if_pos (hin.mp hs), hev hs]; rfl
  · rw [if_neg (hs ∘ hin.mpr)]
    by_cases ht : ev.filter = EVFILT_TIMER
    · rw [if_pos ht]
    · rw [if_neg ht, if_neg fun he => hs (herr ht he.1 he.2.1 he.2.2)]

theorem deliver_eof (h : Tracked f v w) {ev : Kevent} (hev : StdinEvent v ev)
    (heof : ev.has EV_EOF = true) : w.deliver ev = w.closeStdin := by
  unfold Watch.deliver
  rw [StdinEvent, h.draining] at hev
  rw [if_pos hev, heof]
  rfl

theorem deliver_badf (h : Tracked f v w) {ev : Kevent} (hev : ¬ StdinEvent v ev)
    (ht : ev.filter ≠ EVFILT_TIMER) (herr : ev.has EV_ERROR = true) (hcode : ev.errCode = EBADF)
    (hid : ev.ident = 0) : w.deliver ev = w.closeStdin := by
  unfold Watch.deliver
  rw [StdinEvent, h.draining] at hev
  rw [if_neg hev, if_neg ht, if_pos ⟨herr, hcode, hid⟩]

end Tracked

/-! ## The walk through one round -/

namespace WaitRule
variable {K : Contract Ans} {w₀ : Watch} {fuel : Nat} {f : WaitFixed}
  {Head Now Seen Tick : Nat → WaitVars → Handles → Trace → Prop}
  {Post : Except TimeoutError WaitResult → Handles → Trace → Prop}
  {n : Nat} {v : WaitVars} {h : Handles} {l : Trace}

theorem ensures_finish {α : Type} {r : WaitResult}
    {P : Except TimeoutError (Flow α) → Handles → Trace → Prop} :
    (finish f r).Ensures K h l P ↔
      Asks K ⟨.monitor, .close f.kq⟩ l fun _ l' => P (.ok (.ret r)) h l' := by
  simp only [finish, closeKq, Act.ensures_bind, Act.ensures_call, Act.ensures_pure]

/-- The loop head: a reading in time, or the wait is over. -/
theorem head (R : WaitRule K w₀ fuel f Head Now Seen Tick Post) (hH : Head (n + 1) v h l)
    (hw : Tracked f v (watch w₀ l)) :
    (loopHead f v).Ensures K h l fun r h' l' => h' = h ∧ match r with
      | .ok (.go t) => Now n v h l' ∧ Tracked f v (watch w₀ l') ∧ InTime f (watch w₀ l') ∧
          t = (watch w₀ l').clock
      | .ok (.ret r) => Post (.ok r) h l'
      | .ok _ => False
      | .error e => Post (.error e) h l' := by
  simp only [loopHead, Act.ensures_bind, ensures_now]
  refine ((R.clock n v h l hH hw).watched w₀).mono fun t l' ht => ?_
  obtain ⟨ht, hw'⟩ := ht
  cases t with
  | none => exact ⟨trivial, ht⟩
  | some t =>
    have hwt : Tracked f v (watch w₀ l') := by rw [hw']; exact hw.tick t
    have hclock : (watch w₀ l').clock = t := by rw [hw']; rfl
    refine Act.ensures_ite (fun hd => ?_) fun hd => Act.ensures_ite (fun hi => ?_) fun hi => ?_
    · rw [ensures_finish]
      rw [deadlineReached_iff, ← hclock] at hd
      exact (R.deadline n v h l' (.inl ht) hwt hd).mono fun _ hp => ⟨rfl, hp⟩
    · rw [ensures_finish]
      rw [← hclock, hwt.idle_iff] at hi
      obtain ⟨cfg, hcfg, hidle⟩ := hi
      exact (R.idle n v h l' cfg (.inl ht) hwt hcfg hidle).mono fun _ hp => ⟨rfl, hp⟩
    · refine ⟨rfl, ht, hwt, ⟨?_, fun cfg hcfg hidle => hi ?_⟩, hclock.symm⟩
      · rw [deadlineReached_iff, ← hclock] at hd; omega
      · rw [← hclock, hwt.idle_iff]; exact ⟨cfg, hcfg, hidle⟩

/-- An `update` succeeds, and its calls are the throttle's. -/
theorem update_watch (w₀ : Watch) (cfg : CpuThrottleConfig) (nowNs : Nat)
    (st : CpuThrottleState) (l : Trace) :
    (CpuThrottleState.update cfg nowNs).Ensures {} st l fun r _ l' =>
      (∃ b, r = .ok b) ∧ watch w₀ l' = watch w₀ l := by
  refine (CpuThrottleState.update_ok cfg nowNs st l).with ?_
  refine (CpuThrottleState.asking_update (P := fun q => q.caller = .throttle) (fun _ _ => rfl)
    (fun _ => rfl) cfg nowNs).ensures (fun l' => watch w₀ l' = watch w₀ l) ?_ (fun _ _ => trivial) rfl
  intro q l' hq hl' a _
  refine ⟨trivial, ?_⟩
  show (watch w₀ l').step ⟨q, a⟩ = watch w₀ l
  rw [Watch.step_unwatched (.inl (by rw [hq]; decide)), hl']

/-- The throttle tick. -/
theorem throttleTick_ensures (R : WaitRule K w₀ fuel f Head Now Seen Tick Post) (hT : Tick n v h l)
    (hw : Tracked f v (watch w₀ l)) :
    (throttleTick f v (watch w₀ l).clock).Ensures K h l fun r h' l' => match r with
      | .ok v' => Tick n v' h' l' ∧ Tracked f v' (watch w₀ l') ∧ watch w₀ l' = watch w₀ l
      | .error _ => False := by
  simp only [throttleTick, Act.ensures_bind, Act.ensures_get]
  refine Act.ensures_ite (fun hdue => ?_) fun _ => ⟨hT, hw, rfl⟩
  obtain ⟨hsome, hdue⟩ := Bool.and_eq_true_iff.mp hdue
  obtain ⟨ctx, hctx⟩ := Option.isSome_iff_exists.mp hsome
  simp only [onThrottle, Act.ensures_bind, Act.ensures_get, hctx, Act.ensures_focus]
  refine ((R.throttle n v h l ctx hT hw hctx (deadlineReached_iff.mp hdue)).with
    (update_watch w₀ ctx.cfg _ ctx.state l)).mono fun r st l' hr => ?_
  obtain ⟨hr, -, hw'⟩ := hr
  cases r with
  | error e => exact hr.elim
  | ok b => exact ⟨hr, by rw [hw']; exact hw.of_stdin rfl rfl, hw'⟩

/-- The memory check. -/
theorem memoryTick_ensures (R : WaitRule K w₀ fuel f Head Now Seen Tick Post) (hT : Tick n v h l)
    (hw : Tracked f v (watch w₀ l)) :
    (memoryTick f v (watch w₀ l).clock).Ensures K h l fun r h' l' => h' = h ∧ match r with
      | .ok (.go v') => Tick n v' h l' ∧ Tracked f v' (watch w₀ l') ∧ watch w₀ l' = watch w₀ l
      | .ok (.ret r) => Post (.ok r) h l'
      | _ => False := by
  unfold memoryTick
  split
  · exact ⟨rfl, hT, hw, rfl⟩
  · next m hm =>
    refine Act.ensures_ite (fun hdue => ?_) fun _ => ⟨rfl, hT, hw, rfl⟩
    simp only [Act.ensures_bind, Act.ensures_call]
    refine (R.memory n v h l m hT hw hm (deadlineReached_iff.mp hdue)).mono fun r hr => ?_
    generalize hl' : (⟨⟨.memoryCheck, .procPidRusage f.args.pid⟩, r⟩ :: l : Trace) = l' at hr ⊢
    have hw' : watch w₀ l' = watch w₀ l := by rw [← hl']; rfl
    split
    · next bytes hbytes =>
      rw [hbytes] at hr
      refine Act.ensures_ite (fun hover => ?_) fun hover => ?_
      · dsimp only at hr
        rw [if_pos hover] at hr
        rw [ensures_finish]
        exact hr.mono fun _ hp => ⟨rfl, hp⟩
      · dsimp only at hr
        rw [if_neg hover] at hr
        exact ⟨rfl, hr, by rw [hw']; exact hw.of_stdin rfl rfl, hw'⟩
    · next hnone =>
      rw [hnone] at hr
      exact ⟨rfl, hr, by rw [hw']; exact hw.of_stdin rfl rfl, hw'⟩

/-- The level check of passthrough mode. -/
theorem passthroughTick_ensures (R : WaitRule K w₀ fuel f Head Now Seen Tick Post) (hT : Tick n v h l)
    (hw : Tracked f v (watch w₀ l)) :
    (passthroughTick v (watch w₀ l).clock).Ensures K h l fun r h' l' => h' = h ∧ match r with
      | .ok v' => Tick n v' h l' ∧ Tracked f v' (watch w₀ l') ∧
          (watch w₀ l').clock = (watch w₀ l).clock
      | .error _ => False := by
  unfold passthroughTick
  split
  · exact ⟨rfl, hT, hw, rfl⟩
  · next cfg hcfg =>
    refine Act.ensures_ite (fun hmode => ?_) fun _ => ⟨rfl, hT, hw, rfl⟩
    simp only [Act.ensures_bind, Act.ensures_call]
    refine (R.poll n v h l cfg hT hw hcfg hmode).mono fun r hr => ?_
    have hpolled := hw.polled hcfg (stdinPollStatus r)
    have hclock : ∀ s, ((watch w₀ l).poll s).clock = (watch w₀ l).clock := by
      intro s
      cases s with
      | readable => rw [Watch.poll, if_pos hw.looping]
      | eof => rfl
      | idle => rfl
    generalize hl' : (⟨⟨.monitor, .pollStdin⟩, r⟩ :: l : Trace) = l' at hr ⊢
    have hw' : watch w₀ l' = (watch w₀ l).poll (stdinPollStatus r) := by rw [← hl']; rfl
    rw [← hw'] at hpolled
    have hclock' : (watch w₀ l').clock = (watch w₀ l).clock := by rw [hw']; exact hclock _
    split <;> next hstatus =>
      rw [hstatus] at hr hpolled
      exact ⟨rfl, hr, hpolled, hclock'⟩

/-- A heartbeat. -/
theorem heartbeatTick_ensures (R : WaitRule K w₀ fuel f Head Now Seen Tick Post) (hT : Tick n v h l)
    (hw : Tracked f v (watch w₀ l)) (hdue : heartbeatDue f v (watch w₀ l).clock = true) :
    (heartbeatTick f v (watch w₀ l).clock).Ensures K h l fun r h' l' => h' = h ∧ match r with
      | .ok v' => Head n v' h l' ∧ Tracked f v' (watch w₀ l')
      | .error _ => False := by
  have hbeat : ∀ l', watch w₀ l' = watch w₀ l → Tick n v h l' →
      Head n (beaten f v (watch w₀ l).clock) h l' ∧
      Tracked f (beaten f v (watch w₀ l).clock) (watch w₀ l') := by
    intro l' hl' hT'
    have h' := R.beat n v h l' hT'
    rw [hl'] at h'
    exact ⟨h' hw hdue, by rw [hl']; exact hw.of_stdin rfl rfl⟩
  simp only [heartbeatTick]
  split
  · next hb hhb =>
    refine Act.ensures_ite (fun _ => ⟨rfl, hbeat l rfl hT⟩) fun hquiet => ?_
    simp only [Act.ensures_bind, Act.ensures_call]
    refine (R.line n v h l hb hT hw hdue hhb (by simpa using hquiet)).mono fun _ hT' => ?_
    exact ⟨rfl, hbeat _ rfl hT'⟩
  · exact ⟨rfl, hbeat l rfl hT⟩

/-- What a block of the round may end in. -/
def FlowPost (w₀ : Watch) (f : WaitFixed) (Head Seen : Nat → WaitVars → Handles → Trace → Prop)
    (Post : Except TimeoutError WaitResult → Handles → Trace → Prop) (n : Nat)
    (r : Except TimeoutError (Flow Kevent)) (h : Handles) (l : Trace) : Prop :=
  match r with
  | .ok (.next v) => Head n v h l ∧ Tracked f v (watch w₀ l)
  | .ok (.ret r) => Post (.ok r) h l
  | .ok (.leave ev) => ∃ v cs l₀, l = delivered f cs (.ok ev) l₀ ∧ Seen n v h l ∧
      Tracked f v (watch w₀ l₀) ∧ ¬ StdinEvent v ev ∧ ev.filter ≠ EVFILT_TIMER ∧
      (ev.has EV_ERROR = true → ev.errCode = ESRCH)
  | .ok (.go _) => False
  | .error e => Post (.error e) h l

/-- The end of the timer branch. -/
theorem timerVerdict_ensures (R : WaitRule K w₀ fuel f Head Now Seen Tick Post) (hT : Tick n v h l)
    (hw : Tracked f v (watch w₀ l)) :
    (timerVerdict f v (watch w₀ l).clock).Ensures K h l (FlowPost w₀ f Head Seen Post n) := by
  unfold timerVerdict
  refine Act.ensures_ite (fun hi => ?_) fun hi => Act.ensures_ite (fun hdue => ?_) fun _ =>
    Act.ensures_ite (fun hd => ?_) fun hd => ?_
  · rw [ensures_finish]
    rw [hw.idle_iff] at hi
    obtain ⟨cfg, hcfg, hidle⟩ := hi
    exact R.idle n v h l cfg (.inr hT) hw hcfg hidle
  · simp only [Act.ensures_bind]
    refine (heartbeatTick_ensures R hT hw hdue).mono fun r h' l' hr => ?_
    obtain ⟨rfl, hr⟩ := hr
    cases r with
    | ok v' => exact hr
    | error e => exact hr.elim
  · rw [ensures_finish]
    exact R.deadline n v h l (.inr hT) hw (deadlineReached_iff.mp hd)
  · refine ⟨R.tick n v h l hT hw ⟨?_, fun cfg hcfg hidle => hi ?_⟩, hw.of_stdin rfl rfl⟩
    · rw [deadlineReached_iff] at hd; omega
    · rw [hw.idle_iff]; exact ⟨cfg, hcfg, hidle⟩

/-- The timer branch. -/
theorem onTimer_ensures (R : WaitRule K w₀ fuel f Head Now Seen Tick Post) {cs : List Kevent}
    {ev : Kevent} (hS : Seen n v h (delivered f cs (.ok ev) l)) (hw : Tracked f v (watch w₀ l))
    (ht : ev.filter = EVFILT_TIMER) :
    (onTimer f v).Ensures K h (delivered f cs (.ok ev) l)
      (FlowPost w₀ f Head Seen Post n) := by
  simp only [onTimer, Act.ensures_bind, ensures_now]
  -- a timer event tells the automaton nothing
  have hdel : watch w₀ (delivered f cs (.ok ev) l) = watch w₀ l := by
    refine hw.deliver_eq (fun hs => ?_) fun hne => absurd ht hne
    rw [hs.1] at ht
    exact absurd ht (by decide)
  refine ((R.timer n v h l cs ev hS hw ht).watched w₀).mono fun t l₁ hr => ?_
  obtain ⟨hr, hw₁⟩ := hr
  rw [hdel] at hw₁
  cases t with
  | none => exact hr
  | some t =>
    have hwt : Tracked f v (watch w₀ l₁) := by rw [hw₁]; exact hw.tick t
    have hclock : (watch w₀ l₁).clock = t := by rw [hw₁]; rfl
    dsimp only
    rw [← hclock]
    -- the duties in their order: throttle, memory, stdin, and then the timeouts
    refine (throttleTick_ensures R hr hwt).mono fun r h₂ l₂ hr => ?_
    cases r with
    | error e => exact hr.elim
    | ok v₂ =>
      obtain ⟨hT₂, hw₂, heq₂⟩ := hr
      dsimp only
      rw [← heq₂]
      refine (memoryTick_ensures R hT₂ hw₂).mono fun r h₃ l₃ hr => ?_
      obtain ⟨rfl, hr⟩ := hr
      match r, hr with
      | .error e, hr => exact hr.elim
      | .ok (.leave ev), hr => exact hr.elim
      | .ok (.next v), hr => exact hr.elim
      | .ok (.ret r), hr => exact hr
      | .ok (.go v₃), hr =>
        obtain ⟨hT₃, hw₃, heq₃⟩ := hr
        dsimp only
        rw [← heq₃, Act.ensures_bind]
        refine (passthroughTick_ensures R hT₃ hw₃).mono fun r h₄ l₄ hr => ?_
        obtain ⟨rfl, hr⟩ := hr
        cases r with
        | error e => exact hr.elim
        | ok v₄ =>
          obtain ⟨hT₄, hw₄, heq₄⟩ := hr
          dsimp only
          rw [← heq₄]
          exact timerVerdict_ensures R hT₄ hw₄

/-- stdin is readable. -/
theorem onStdin_ensures (R : WaitRule K w₀ fuel f Head Now Seen Tick Post) {cs : List Kevent}
    {ev : Kevent} (hS : Seen n v h (delivered f cs (.ok ev) l)) (hw : Tracked f v (watch w₀ l))
    (hev : StdinEvent v ev) :
    (onStdin f v ev).Ensures K h (delivered f cs (.ok ev) l)
      (FlowPost w₀ f Head Seen Post n) := by
  unfold onStdin
  refine Act.ensures_ite (fun heof => ?_) fun heof => ?_
  · refine ⟨R.eof n v h l cs ev hS hw hev heof, ?_⟩
    show Tracked f _ ((watch w₀ l).deliver ev)
    rw [hw.deliver_eof hev heof]
    exact hw.closed
  · have heof : ev.has EV_EOF = false := by simpa using heof
    have hdel : watch w₀ (delivered f cs (.ok ev) l) = watch w₀ l :=
      hw.deliver_eq (fun _ => heof) fun _ _ _ _ => hev
    simp only [Act.ensures_bind, Act.ensures_call]
    refine (R.read n v h l cs ev hS hw hev heof).mono fun bytes hr => ?_
    generalize hl' : (⟨⟨.monitor, .readStdin⟩, bytes⟩ :: delivered f cs (.ok ev) l : Trace) = l'
      at hr ⊢
    -- the automaton follows by the number of bytes: end, activity, or nothing
    have hw' : watch w₀ l' = if bytes = 0 then (watch w₀ l).closeStdin
        else if 0 < bytes then { watch w₀ l with pending := true } else watch w₀ l := by
      rw [← hl', ← hdel]; rfl
    by_cases hzero : bytes = 0
    · rw [if_pos hzero] at hr hw' ⊢
      exact ⟨hr, by rw [hw']; exact hw.closed⟩
    · rw [if_neg hzero] at hr hw' ⊢
      by_cases hpos : 0 < bytes
      · rw [if_pos hpos] at hr hw' ⊢
        simp only [Act.ensures_bind, ensures_now]
        refine (hr.watched w₀).mono fun t l'' ht => ?_
        obtain ⟨ht, hw''⟩ := ht
        cases t with
        | none => exact ht
        | some t => exact ⟨ht, by rw [hw'', hw']; exact hw.stamped t⟩
      · rw [if_neg hpos] at hr hw' ⊢
        exact ⟨hr, by rw [hw']; exact hw.of_stdin rfl rfl⟩

/-- A registration error. -/
theorem onEventError_ensures (R : WaitRule K w₀ fuel f Head Now Seen Tick Post) {cs : List Kevent}
    {ev : Kevent} (hS : Seen n v h (delivered f cs (.ok ev) l)) (hw : Tracked f v (watch w₀ l))
    (hs : ¬ StdinEvent v ev) (ht : ev.filter ≠ EVFILT_TIMER) (he : ev.has EV_ERROR = true) :
    (onEventError f v ev).Ensures K h (delivered f cs (.ok ev) l)
      (FlowPost w₀ f Head Seen Post n) := by
  unfold onEventError
  refine Act.ensures_ite (fun hbad => ?_) fun hbad => Act.ensures_ite (fun hno => ?_) fun hno =>
    Act.ensures_ite (fun hgone => ?_) fun hgone => ?_
  · refine ⟨R.badStdin n v h l cs ev hS hw hs ht he hbad.1 hbad.2, ?_⟩
    show Tracked f _ ((watch w₀ l).deliver ev)
    rw [hw.deliver_badf hs ht he hbad.1 hbad.2]
    exact hw.closed
  · refine ⟨R.noFilter n v h l cs ev hS hw hs ht he hno.1 hno.2, ?_⟩
    show Tracked f _ ((watch w₀ l).deliver ev)
    rw [hw.deliver_eq (fun h => absurd h hs) fun _ _ hbadf hid => absurd ⟨hbadf, hid⟩ hbad]
    exact hw.of_stdin rfl rfl
  · exact ⟨v, cs, l, rfl, hS, hw, hs, ht, fun _ => hgone⟩
  · simp only [closeKq, Act.ensures_bind, Act.ensures_call, Act.ensures_pure, Act.ensures_throw]
    exact R.refused n v h l cs ev hS hw hs ht he hbad hno hgone

/-- The event the kevent call delivered. -/
theorem onEvent_ensures (R : WaitRule K w₀ fuel f Head Now Seen Tick Post) {cs : List Kevent}
    {ev : Kevent} (hS : Seen n v h (delivered f cs (.ok ev) l)) (hw : Tracked f v (watch w₀ l)) :
    (onEvent f v ev).Ensures K h (delivered f cs (.ok ev) l)
      (FlowPost w₀ f Head Seen Post n) := by
  unfold onEvent
  refine Act.ensures_ite (fun hs => onStdin_ensures R hS hw hs) fun hs =>
    Act.ensures_ite (fun ht => onTimer_ensures R hS hw ht) fun ht =>
    Act.ensures_ite (fun he => onEventError_ensures R hS hw hs ht he) fun he => ?_
  exact ⟨v, cs, l, rfl, hS, hw, hs, ht, fun h => absurd h he⟩

/-- The error the kevent call returned. -/
theorem onKeventError_ensures (R : WaitRule K w₀ fuel f Head Now Seen Tick Post) {cs : List Kevent}
    {err : Int} (hS : Seen n v h (delivered f cs (.error err) l))
    (hw : Tracked f v (watch w₀ l)) :
    (onKeventError fuel f v err).Ensures K h (delivered f cs (.error err) l)
      (FlowPost w₀ f Head Seen Post n) := by
  unfold onKeventError
  refine Act.ensures_ite (fun hintr => ?_) fun hintr => Act.ensures_ite (fun hsrch => ?_)
    fun hsrch => ?_
  · subst hintr
    exact ⟨R.interrupted n v h l cs hS hw, hw⟩
  · subst hsrch
    simp only [closeKq, Act.ensures_bind, Act.ensures_call, Act.ensures_pure]
    refine (R.noProcess n v h l cs hS hw).mono fun _ hr => ?_
    refine hr.mono fun r h' l' hr => ?_
    cases r with
    | ok r => exact hr
    | error e => exact hr
  · simp only [closeKq, Act.ensures_bind, Act.ensures_call, Act.ensures_pure, Act.ensures_throw]
    exact R.broken n v h l cs err hS hw hintr hsrch

/-- The kevent call and what is done with its answer. -/
theorem awaitEvent_ensures (R : WaitRule K w₀ fuel f Head Now Seen Tick Post) (hN : Now n v h l)
    (hw : Tracked f v (watch w₀ l)) (hin : InTime f (watch w₀ l)) :
    (awaitEvent fuel f v (watch w₀ l).clock).Ensures K h l (FlowPost w₀ f Head Seen Post n) := by
  simp only [awaitEvent, Act.ensures_bind, Act.ensures_call]
  refine (R.kevent n v h l hN hw hin).mono fun r hS => ?_
  have hw₂ : Tracked f (afterKevent f v (watch w₀ l).clock) (watch w₀ l) :=
    hw.of_stdin rfl rfl
  cases r with
  | ok ev => exact onEvent_ensures R hS hw₂
  | error err => exact onKeventError_ensures R hS hw₂

/-- One round of the loop, from a loop head. -/
theorem round (R : WaitRule K w₀ fuel f Head Now Seen Tick Post) (hH : Head (n + 1) v h l)
    (hw : Tracked f v (watch w₀ l)) :
    (waitRound fuel f v).Ensures K h l fun r h' l' => match r with
      | .ok (.inl v') => Head n v' h' l' ∧ Tracked f v' (watch w₀ l')
      | .ok (.inr (.inl r)) => Post (.ok r) h' l'
      | .ok (.inr (.inr ev)) => FlowPost w₀ f Head Seen Post n (.ok (.leave ev)) h' l'
      | .error e => Post (.error e) h' l' := by
  simp only [waitRound, Act.ensures_bind]
  refine (R.head hH hw).mono fun r h₁ l₁ hr => ?_
  obtain ⟨rfl, hr⟩ := hr
  match r, hr with
  | .error e, hr => exact hr
  | .ok (.leave ev), hr => exact hr.elim
  | .ok (.next v), hr => exact hr.elim
  | .ok (.ret r), hr => exact hr
  | .ok (.go t), hr =>
    obtain ⟨hN, hw₁, hin, rfl⟩ := hr
    simp only [Act.ensures_bind]
    refine (awaitEvent_ensures R hN hw₁ hin).mono fun r h₂ l₂ hr => ?_
    match r, hr with
    | .error e, hr => exact hr
    | .ok (.leave ev), hr => exact hr
    | .ok (.next v), hr => exact hr
    | .ok (.ret r), hr => exact hr
    | .ok (.go _), hr => exact hr.elim

/-- What is done with the event the loop was left with. -/
theorem afterLoop_ensures (R : WaitRule K w₀ fuel f Head Now Seen Tick Post) {ev : Kevent}
    (hl : FlowPost w₀ f Head Seen Post n (.ok (.leave ev)) h l) :
    (afterLoop fuel f ev).Ensures K h l Post := by
  obtain ⟨v, cs, l₀, rfl, hS, hw, hs, ht, herr⟩ := hl
  -- every way on starts with closing the kqueue
  have hclose : ∀ {m : SuperAct WaitResult},
      Asks K ⟨.monitor, .close f.kq⟩ (delivered f cs (.ok ev) l₀)
        (fun _ l' => m.Ensures K h l' Post) →
      (closeKq f >>= fun _ => m).Ensures K h (delivered f cs (.ok ev) l₀) Post := by
    intro m hm
    simp only [closeKq, Act.ensures_bind, Act.ensures_call, Act.ensures_pure]
    exact hm
  unfold afterLoop
  refine hclose ?_
  by_cases he : ev.has EV_ERROR = true
  · refine (R.gone n v h l₀ cs ev hS hw hs ht he (herr he)).mono fun _ hr => ?_
    rw [if_pos ⟨he, herr he⟩]
    exact hr
  · have he' : ev.has EV_ERROR = false := by simpa using he
    rw [if_neg fun h => he h.1]
    by_cases hproc : ev.filter = EVFILT_PROC
    · refine (R.exited n v h l₀ cs ev hS hw hproc he').mono fun _ hr => ?_
      rw [if_pos hproc]
      simp only [Act.ensures_bind]
      refine hr.mono fun r h' l' hr => ?_
      cases r with
      | ok r => exact hr
      | error e => exact hr
    · rw [if_neg hproc]
      by_cases hread : ev.filter = EVFILT_READ
      · refine (R.signal n v h l₀ cs ev hS hw hs hread he').mono fun _ hr => ?_
        rw [if_pos hread]
        cases hfd : f.signalFd with
        | none => rw [hfd] at hr; exact hr
        | some fd =>
          rw [hfd] at hr
          simp only [Act.ensures_bind, Act.ensures_call]
          refine hr.mono fun b hr => ?_
          cases b with
          | none => exact hr
          | some b => exact hr
      · rw [if_neg hread]
        exact R.other n v h l₀ cs ev hS hw ht hproc hread he'

/-- The loop and what follows it. -/
theorem loop (R : WaitRule K w₀ fuel f Head Now Seen Tick Post) {rounds : Nat}
    (hH : Head rounds v h l) (hw : Tracked f v (watch w₀ l)) :
    (Act.iterate (waitRound fuel f) rounds v >>= fun r => match r with
      | .inl r => pure r
      | .inr ev => afterLoop fuel f ev).Ensures K h l Post := by
  rw [Act.ensures_bind]
  refine Act.ensures_iterate_count
    (fun n v h l => Head n v h l ∧ Tracked f v (watch w₀ l)) ?_ ?_ rounds v h l ⟨hH, hw⟩
  · intro n v h l hJ
    refine (R.round hJ.1 hJ.2).mono fun r h' l' hr => ?_
    match r, hr with
    | .error e, hr => exact hr
    | .ok (.inl v'), hr => exact hr
    | .ok (.inr (.inl r)), hr => exact hr
    | .ok (.inr (.inr ev)), hr => exact R.afterLoop_ensures hr
  · exact fun v h l hJ => R.cut v h l hJ.1

end WaitRule

/-- The whole wait: a set-up that keeps `S`, and a rule for every loop it may hand over. -/
theorem waitWithKqueue_ensures {K : Contract Ans} {w₀ : Watch} {fuel : Nat} {a : WaitArgs}
    {Head Now Seen Tick : WaitFixed → Nat → WaitVars → Handles → Trace → Prop}
    {Post : Except TimeoutError WaitResult → Handles → Trace → Prop} {S : Trace → Prop}
    {h : Handles} {l : Trace}
    (R₀ : SetupRule K a.confine S fun e l' => Post (.error e) h l') (hS : S l)
    (hw : (watch w₀ l).Ready a)
    (R : ∀ f, f.args = a → WaitRule K w₀ fuel f (Head f) (Now f) (Seen f) (Tick f) Post)
    (hH : ∀ f v l', S l' → SetUp a h f v (watch w₀ l') → Head f fuel v h l') :
    (waitWithKqueue fuel a).Ensures K h l Post := by
  rw [waitWithKqueue, Act.ensures_bind]
  refine (waitSetup_tracked R₀ hS hw).mono fun r h' l' hr => ?_
  obtain ⟨rfl, hr⟩ := hr
  match r, hr with
  | .error e, hr => exact hr
  | .ok (f, v), hr =>
    exact (R f hr.2.args).loop (hH f v l' hr.1 hr.2) hr.2.tracked

end Procguard
