import Procguard.Grace

/- Zero durations. `run_command` takes a zero timeout for none, and the event loop a zero
   heartbeat for none; a zero kill-after and a zero stdin timeout are deadlines that are
   reached at once. In every run whose clock does not go back a zero grace period ends in
   SIGKILL; and whatever else is configured, some run is ended by either limit. -/
namespace Procguard
open Interact

variable {config : RunConfig} {pid : Int} {fuel : Nat} {h : Handles} {l : Trace}

/-- Why the timeout was reported, if one was. -/
def RunResult.reason : RunResult → Option TimeoutReason
  | .timedOut _ _ _ _ _ reason => some reason
  | .completed _ _ | .memoryLimitExceeded _ _ _ _ _ _ | .signalForwarded _ _ _ => none

/-! ## A zero grace period -/

/-- The clock of the log does not go back. -/
def SteadyClock (config : RunConfig) (e : Event) (l : Trace) : Prop :=
  (watch (Watch.ofConfig config) l).clock ≤ (watch (Watch.ofConfig config) (e :: l)).clock

instance (config : RunConfig) (e : Event) (l : Trace) : Decidable (SteadyClock config e l) :=
  inferInstanceAs (Decidable (_ ≤ _))

def steady (config : RunConfig) : Contract Ans where
  rely := SteadyClock config

/-- What is returned, if anything is, is `P`. -/
def Returns {α : Type} (P : α → Prop) (r : Except TimeoutError α) : Prop := ∀ a, r = .ok a → P a

section
variable {α : Type} {P : α → Prop}

theorem returns_error (e : TimeoutError) : Returns P (.error e) := by
  intro a ha
  cases ha

theorem returns_ok {a : α} (h : P a) : Returns P (.ok a) := by
  intro b hb
  cases hb
  exact h

end

/-- A contract that promises nothing, of an event or of a loop that is cut off. -/
structure Promiseless (K : Contract Ans) : Prop where
  guar : ∀ e l, K.guar e l
  cut : ∀ l, K.cut l

section returns
variable {K : Contract Ans} {P : RunResult → Prop}

theorem Promiseless.ensures (hK : Promiseless K) {σ ε α : Type} {m : Act Ans σ ε α} {s : σ}
    {Post : Except ε α → σ → Trace → Prop} (hp : ∀ r s' l', Post r s' l') :
    m.Ensures K s l Post := by
  apply Prog.ensures_of_forall
  · exact hK.guar
  · exact hK.cut
  · exact fun r l' => hp r.1 r.2 l'

/-- What is done first does not matter. -/
theorem Promiseless.bind (hK : Promiseless K) {α : Type} {m : SuperAct α}
    {f : α → SuperAct RunResult} (hf : ∀ a h l, (f a).Ensures K h l fun r _ _ => Returns P r) :
    (m >>= f).Ensures K h l fun r _ _ => Returns P r := by
  rw [Act.ensures_bind]
  apply hK.ensures
  intro r h' l'
  cases r with
  | error e => exact returns_error e
  | ok a => exact hf a h' l'

theorem reapAs_returns (hK : Promiseless K) {result : RawExitStatus → ResourceUsage → RunResult}
    (hresult : ∀ status rusage, P (result status rusage)) :
    (reapAs fuel result).Ensures K h l fun r _ _ => Returns P r := by
  unfold reapAs
  refine hK.bind fun st _ _ => ?_
  exact hK.bind fun _ _ _ => returns_ok (hresult st.1 st.2)

theorem killAndReap_returns (hK : Promiseless K)
    {result : RawExitStatus → ResourceUsage → RunResult}
    (hresult : ∀ status rusage, P (result status rusage)) :
    (killAndReap fuel config pid result).Ensures K h l fun r _ _ => Returns P r := by
  unfold killAndReap
  refine hK.bind fun _ _ _ => hK.bind fun _ _ _ => ?_
  exact reapAs_returns hK hresult

theorem forwardSignal_returns (hK : Promiseless K) (sig : Signal)
    (hP : ∀ status rusage, P (.signalForwarded sig status rusage)) :
    (forwardSignal fuel config pid sig).Ensures K h l fun r _ _ => Returns P r := by
  unfold forwardSignal
  refine hK.bind fun _ _ _ => hK.bind fun _ _ _ => hK.bind fun _ _ _ => ?_
  refine hK.bind fun r _ _ => hK.bind fun _ _ _ => ?_
  cases r with
  | ok st => exact returns_ok (hP _ _)
  | error e => exact returns_ok (hP _ _)

end returns

theorem steady_promiseless (config : RunConfig) : Promiseless (steady config) :=
  ⟨fun _ _ => trivial, fun _ => trivial⟩

theorem durationToNs_zero : durationToNs .zero = 0 := by decide

theorem advanceNs_zero_le (t : Nat) : advanceNs t (durationToNs .zero) ≤ t := by
  rw [durationToNs_zero]
  exact Nat.min_le_left _ _

/-- The first look at the clock ends the wait. -/
theorem graceWait_zero (confine : Confine) :
    (graceWait fuel pid .zero confine).Ensures (steady config) h l fun r _ _ =>
      Returns (fun w => w = .timedOut .wallClock) r := by
  simp only [graceWait, Act.ensures_focus, waitWithKqueue, waitSetup, Act.ensures_bind, ensures_now]
  refine asksClock_intro (Watch.ofConfig config) fun e₁ t hreq₁ _ _ hw₁ _ => ⟨trivial, ?_⟩
  cases t with
  | none => exact returns_error _
  | some startNs =>
    simp only [Act.ensures_get, loadSignalFd, Act.ensures_bind, Act.ensures_call, Act.ensures_pure,
      validateStdin, initialPoll, openKqueue]
    intro fd _
    refine ⟨trivial, fun kq _ => ⟨trivial, ?_⟩⟩
    cases kq with
    | error errno => exact returns_error _
    | ok kq =>
      cases fuel with
      | zero => exact trivial
      | succ n =>
        simp only [Act.iterate, waitRound, loopHead, Act.ensures_bind, Act.ensures_pure, ensures_now]
        refine asksClock_intro (Watch.ofConfig config) fun e₂ t hreq₂ _ _ hw₂ hsteady => ⟨trivial, ?_⟩
        cases t with
        | none => exact returns_error _
        | some nowNs =>
          have hle : startNs ≤ nowNs := by
            change (watch (Watch.ofConfig config) (e₁ :: l)).clock ≤
              (watch (Watch.ofConfig config) _).clock at hsteady
            rw [hw₁, hw₂] at hsteady
            exact hsteady
          have hpassed : deadlineReached nowNs (advanceNs startNs (durationToNs .zero)) = true :=
            decide_eq_true ((advanceNs_zero_le startNs).trans hle)
          dsimp only
          rw [if_pos hpassed]
          simp only [finish, closeKq, Act.ensures_bind, Act.ensures_call, Act.ensures_pure]
          intro _ _
          exact ⟨trivial, returns_ok rfl⟩

/-- What follows the wait of a zero grace period: only a timeout does. -/
theorem graceWait_returns {P : RunResult → Prop} {f : WaitResult → SuperAct RunResult}
    (hf : ∀ h l, (f (.timedOut .wallClock)).Ensures (steady config) h l fun r _ _ => Returns P r) :
    (graceWait fuel pid .zero config.confine >>= f).Ensures (steady config) h l
      fun r _ _ => Returns P r := by
  rw [Act.ensures_bind]
  refine (graceWait_zero config.confine).mono fun r h' l' hr => ?_
  cases r with
  | error e => exact returns_error e
  | ok w =>
    rw [hr w rfl]
    exact hf h' l'

/-- The result does not tell of a grace period that ended without SIGKILL. -/
def NotSpared (result : RunResult) : Prop := result.killed ≠ some false

theorem onTimeout_notSpared (hk : config.killAfter = some .zero) (reason : TimeoutReason) :
    (onTimeout fuel config pid reason).Ensures (steady config) h l
      fun r _ _ => Returns NotSpared r := by
  have hK := steady_promiseless config
  simp only [onTimeout, hk]
  refine hK.bind fun _ _ _ => hK.bind fun hook _ _ => hK.bind fun _ _ _ => ?_
  refine hK.bind fun _ _ _ => hK.bind fun _ _ _ => graceWait_returns fun _ _ => ?_
  exact hK.bind fun _ _ _ => killAndReap_returns hK fun _ _ h => by cases h

theorem onMemoryLimit_notSpared (hk : config.killAfter = some .zero)
    (limitBytes actualBytes : Nat) :
    (onMemoryLimit fuel config pid limitBytes actualBytes).Ensures (steady config) h l
      fun r _ _ => Returns NotSpared r := by
  have hK := steady_promiseless config
  simp only [onMemoryLimit, hk]
  refine hK.bind fun _ _ _ => hK.bind fun _ _ _ => hK.bind fun _ _ _ => ?_
  exact graceWait_returns fun _ _ => killAndReap_returns hK fun _ _ h => by cases h

theorem monitorWithTimeout_notSpared (hk : config.killAfter = some .zero) :
    (monitorWithTimeout fuel config).Ensures (steady config) h l
      fun r _ _ => Returns NotSpared r := by
  have hK := steady_promiseless config
  unfold monitorWithTimeout
  refine hK.bind fun h₀ _ _ => hK.bind fun startNs h₁ l₁ => ?_
  have hsupervise : (supervise fuel config h₀.child.pid startNs).Ensures (steady config) h₁ l₁
      fun r _ _ => Returns NotSpared r := by
    unfold supervise
    refine hK.bind fun _ _ _ => hK.bind fun w _ _ => ?_
    cases w with
    | exited status rusage => exact hK.bind fun _ _ _ => returns_ok nofun
    | receivedSignal sig => exact forwardSignal_returns hK sig fun _ _ => nofun
    | memoryLimitExceeded limitBytes actualBytes => exact onMemoryLimit_notSpared hk _ _
    | timedOut reason => exact onTimeout_notSpared hk reason
  rw [Act.ensures_onExit]
  refine hsupervise.mono fun r h₂ l₂ hr => ?_
  exact Prog.ensures_of_forall hK.guar hK.cut (fun _ _ => hr) _ _

/-! ## A zero stdin timeout -/

/-- Stdin is there, and not at its end when it is looked at. -/
def StdinOpen : Event → Prop
  | ⟨⟨.monitor, .fstatStdin⟩, r⟩ => 0 ≤ r
  | ⟨⟨.monitor, .pollStdin⟩, r⟩ => stdinPollStatus r ≠ .eof
  | _ => True

def steadyOpen (config : RunConfig) : Contract Ans where
  rely e l := SteadyClock config e l ∧ StdinOpen e

/-- The latest reading of the log. -/
abbrev clockOf (config : RunConfig) (l : Trace) : Nat := (watch (Watch.ofConfig config) l).clock

theorem prog_clock_le {α : Type} : ∀ (p : SysProg α) (l : Trace),
    p.Ensures (steadyOpen config) l fun _ l' => clockOf config l ≤ clockOf config l'
  | .done _, _ => Nat.le_refl _
  | .spin, _ => trivial
  | .ask q k, l => fun a ha => by
    refine ⟨trivial, (prog_clock_le (k a) _).mono fun _ l' hl' => ?_⟩
    exact Nat.le_trans ha.1 hl'

/-- Whatever is done, the clock is later after it. -/
theorem steadyOpen_ensures {σ ε α : Type} {m : Act Ans σ ε α} {s : σ}
    {Post : Except ε α → σ → Trace → Prop}
    (hp : ∀ r s' l', clockOf config l ≤ clockOf config l' → Post r s' l') :
    m.Ensures (steadyOpen config) s l Post :=
  (prog_clock_le (m s) l).mono fun r l' hl' => hp r.1 r.2 l' hl'

/-- The clock is read: no earlier than before. -/
theorem now_steadyOpen {confine : Confine} {Post : Except TimeoutError Nat → Handles → Trace → Prop}
    (hnone : ∀ e l', Post (.error e) h l')
    (hsome : ∀ t l', clockOf config l ≤ t → clockOf config l' = t → Post (.ok t) h l') :
    (now confine).Ensures (steadyOpen config) h l Post := by
  rw [ensures_now]
  refine asksClock_intro (Watch.ofConfig config) fun e t _ _ _ hw hrely => ⟨trivial, ?_⟩
  cases t with
  | none => exact hnone _ _
  | some t =>
    have hclock : clockOf config (e :: l) = t := congrArg Watch.clock hw
    refine hsome t _ ?_ hclock
    rw [← hclock]
    exact hrely.1

theorem validateStdin_open (cfg : StdinTimeoutConfig) :
    (validateStdin (some cfg)).Ensures (steadyOpen config) h l fun r _ l' =>
      r = .ok (some cfg) ∧ clockOf config l ≤ clockOf config l' := by
  simp only [validateStdin, Act.ensures_bind, Act.ensures_call, Act.ensures_pure]
  intro r hr
  have hopen : ¬ r < 0 := Int.not_lt.mpr hr.2
  refine ⟨trivial, ?_, hr.1⟩
  rw [if_neg hopen]

/-- The stdin timeout stays in force, from an activity that is not in the future. -/
theorem initialPoll_open (confine : Confine) {cfg : StdinTimeoutConfig}
    (hpast : cfg.lastActivityNs ≤ clockOf config l) :
    (initialPoll confine (some cfg)).Ensures (steadyOpen config) h l fun r _ l' =>
      Returns (fun s => ∃ cfg', s = some cfg' ∧ cfg'.lastActivityNs ≤ clockOf config l') r := by
  unfold initialPoll
  refine Act.ensures_ite (fun _ => ?_) fun _ => ?_
  · simp only [Act.ensures_bind, Act.ensures_call]
    intro r hr
    refine ⟨trivial, ?_⟩
    have hlater := hpast.trans hr.1
    beta_reduce
    cases hpoll : stdinPollStatus r with
    | eof => exact absurd hpoll hr.2
    | idle => exact returns_ok ⟨cfg, rfl, hlater⟩
    | readable =>
      dsimp only
      rw [Act.ensures_bind]
      apply now_steadyOpen
      · exact fun e _ => returns_error e
      · intro t l' _ hclock
        exact returns_ok ⟨_, rfl, Nat.le_of_eq hclock.symm⟩
  · exact returns_ok ⟨cfg, rfl, hpast⟩

/-- The set-up leaves the stdin timeout in force, from an activity not in the future. -/
def InForce (config : RunConfig) (timeoutNs : Nat) :
    Except TimeoutError (WaitFixed × WaitVars) → Trace → Prop
  | .error _, _ => True
  | .ok (f, v), l => f.stdinTimeoutNs = timeoutNs ∧
      ∃ cfg, v.stdinTimeout = some cfg ∧ cfg.lastActivityNs ≤ clockOf config l

theorem waitSetup_open {a : WaitArgs} {cfg : StdinTimeoutConfig} (ha : a.stdinTimeout = some cfg)
    (hpast : cfg.lastActivityNs ≤ clockOf config l) :
    (waitSetup a).Ensures (steadyOpen config) h l fun r _ l' =>
      InForce config cfg.timeoutNs r l' := by
  rw [waitSetup, Act.ensures_bind]
  apply now_steadyOpen
  · exact fun _ _ => trivial
  · intro startNs l₁ hle₁ hclock₁
    dsimp only
    rw [Act.ensures_bind, Act.ensures_get]
    dsimp only
    rw [Act.ensures_bind]
    refine steadyOpen_ensures fun r h₂ l₂ hle₂ => ?_
    cases r with
    | error e => exact trivial
    | ok fd =>
      dsimp only
      rw [ha, Act.ensures_bind]
      refine (validateStdin_open cfg).mono fun r h₃ l₃ hr => ?_
      obtain ⟨rfl, hle₃⟩ := hr
      have hpast₃ : cfg.lastActivityNs ≤ clockOf config l₃ := by omega
      dsimp only
      rw [Act.ensures_bind]
      refine (initialPoll_open a.confine hpast₃).mono fun r h₄ l₄ hr => ?_
      cases r with
      | error e => exact trivial
      | ok s =>
        obtain ⟨cfg', rfl, hpast₄⟩ := hr s rfl
        dsimp only
        rw [Act.ensures_bind]
        refine steadyOpen_ensures fun r h₅ l₅ hle₅ => ?_
        cases r with
        | error e => exact trivial
        | ok kq => exact ⟨rfl, cfg', rfl, hpast₄.trans hle₅⟩

/-- A zero stdin timeout is over at the first look at the clock, if the timeout is not. -/
theorem firstWait_zero {a : WaitArgs} {cfg : StdinTimeoutConfig} (ha : a.stdinTimeout = some cfg)
    (hzero : cfg.timeoutNs = 0) (hpast : cfg.lastActivityNs ≤ clockOf config l) :
    (waitWithKqueue fuel a).Ensures (steadyOpen config) h l fun r _ _ =>
      Returns (fun w => ∃ reason, w = .timedOut reason) r := by
  unfold waitWithKqueue
  rw [Act.ensures_bind]
  refine (waitSetup_open ha hpast).mono fun r h₁ l₁ hr => ?_
  cases r with
  | error e => exact returns_error e
  | ok fv =>
    obtain ⟨f, v⟩ := fv
    obtain ⟨htimeout, cfg', hin, hpast'⟩ := hr
    dsimp only
    cases fuel with
    | zero => exact trivial
    | succ n =>
      have hhead : (loopHead f v).Ensures (steadyOpen config) h₁ l₁ fun r _ _ =>
          Returns (fun flow => ∃ reason, flow = .ret (.timedOut reason)) r := by
        -- both timeouts end the wait in the same way
        have hfinish : ∀ reason l₂, (finish f (.timedOut reason) : SuperAct (Flow Nat)).Ensures
            (steadyOpen config) h₁ l₂ fun r _ _ =>
              Returns (fun flow => ∃ reason, flow = .ret (.timedOut reason)) r := by
          intro reason l₂
          simp only [finish, closeKq, Act.ensures_bind, Act.ensures_call, Act.ensures_pure]
          exact fun _ _ => ⟨trivial, returns_ok ⟨reason, rfl⟩⟩
        unfold loopHead
        rw [Act.ensures_bind]
        apply now_steadyOpen
        · exact fun e _ => returns_error e
        · intro nowNs l₂ hle _
          have hpast₂ := hpast'.trans hle
          -- the activity is not after the reading, and no time at all is enough
          have hidle : stdinIdleReached f v nowNs = true := by
            rw [stdinIdleReached, hin]
            simp [elapsedNs, hpast₂, htimeout, hzero]
          dsimp only
          rw [if_pos hidle]
          exact Act.ensures_ite (fun _ => hfinish _ _) fun _ => hfinish _ _
      simp only [Act.iterate, waitRound, Act.ensures_bind]
      refine hhead.mono fun r h₂ l₂ hr => ?_
      cases r with
      | error e => exact returns_error e
      | ok flow =>
        obtain ⟨reason, rfl⟩ := hr flow rfl
        exact returns_ok ⟨reason, rfl⟩

theorem steadyOpen_promiseless (config : RunConfig) : Promiseless (steadyOpen config) :=
  ⟨fun _ _ => trivial, fun _ => trivial⟩

/-- The command did not end by itself. -/
def NotCompleted (result : RunResult) : Prop := ∀ status rusage, result ≠ .completed status rusage

theorem onTimeout_notCompleted (reason : TimeoutReason) :
    (onTimeout fuel config pid reason).Ensures (steadyOpen config) h l
      fun r _ _ => Returns NotCompleted r := by
  have hK := steadyOpen_promiseless config
  simp only [onTimeout]
  refine hK.bind fun _ _ _ => hK.bind fun hook _ _ => hK.bind fun _ _ _ => ?_
  refine hK.bind fun _ _ _ => hK.bind fun _ _ _ => ?_
  cases config.killAfter with
  | none => exact reapAs_returns hK fun _ _ _ _ h => by cases h
  | some killAfter =>
    refine hK.bind fun w _ _ => ?_
    cases w with
    | exited status rusage => exact hK.bind fun _ _ _ => returns_ok fun _ _ h => by cases h
    | receivedSignal sig => exact forwardSignal_returns hK sig fun _ _ _ _ h => by cases h
    | memoryLimitExceeded limitBytes actualBytes =>
      exact hK.bind fun _ _ _ => killAndReap_returns hK fun _ _ _ _ h => by cases h
    | timedOut reason => exact hK.bind fun _ _ _ => killAndReap_returns hK fun _ _ _ _ h => by cases h

theorem monitorWithTimeout_notCompleted (hs : config.stdinTimeout = some .zero) :
    (monitorWithTimeout fuel config).Ensures (steadyOpen config) h l
      fun r _ _ => Returns NotCompleted r := by
  have hK := steadyOpen_promiseless config
  unfold monitorWithTimeout
  refine hK.bind fun h₀ h₁ l₁ => ?_
  rw [Act.ensures_bind]
  apply now_steadyOpen
  · exact fun e _ => returns_error e
  · intro startNs l₂ _ hclock
    dsimp only
    have hsupervise : (supervise fuel config h₀.child.pid startNs).Ensures (steadyOpen config) h₁ l₂
        fun r _ _ => Returns NotCompleted r := by
      unfold supervise
      rw [Act.ensures_bind]
      refine steadyOpen_ensures fun r h₃ l₃ hle => ?_
      cases r with
      | error e => exact returns_error e
      | ok _ =>
        have hin : (waitArgsOf config h₀.child.pid startNs).stdinTimeout = some
            { timeoutNs := durationToNs .zero, lastActivityNs := startNs,
              mode := if config.stdinPassthrough then .passthrough else .consume } := by
          rw [waitArgsOf, hs]
          rfl
        dsimp only
        rw [Act.ensures_bind]
        refine (firstWait_zero hin durationToNs_zero (hclock ▸ hle)).mono fun r h₄ l₄ hr => ?_
        cases r with
        | error e => exact returns_error e
        | ok w =>
          obtain ⟨reason, rfl⟩ := hr w rfl
          exact onTimeout_notCompleted reason
    rw [Act.ensures_onExit]
    refine hsupervise.mono fun r h₃ l₃ hr => ?_
    exact Prog.ensures_of_forall hK.guar hK.cut (fun _ _ => hr) _ _

/-! ## A run for every configuration -/

/-- A system whose clock is given: everything succeeds, but for the throttle and the hook. -/
def clockWorld (clock : Trace → UInt64) : World := Machine.world {
  wallClock := fun l => some (clock l)
  activeClock := clock
  rusage := fun _ => none
  spawned := .error ENOENT }

section clock
variable {clock : Trace → UInt64} {confine : Confine} {n : Nat}

theorem now_clock {Post : Except TimeoutError Nat → Handles → Trace → Prop}
    (hp : ∀ e, e.req = ⟨.monitor, clockCall confine⟩ → Post (.ok (clock l).toNat) h (e :: l)) :
    (now confine).Ensures (Prog.answers (clockWorld clock)) h l Post := by
  rw [ensures_now]
  cases confine with
  | wall =>
    intro r hr
    have hread : r = some (clock l) := hr
    rw [hread]
    exact ⟨trivial, hp _ rfl⟩
  | active =>
    intro t ht
    have hread : t = clock l := ht
    rw [hread]
    exact ⟨trivial, hp _ rfl⟩

theorem sends_reading {e : Event} (he : e.req = ⟨.monitor, clockCall confine⟩) (foreground : Bool) :
    sends foreground (e :: l) = sends foreground l := by
  obtain ⟨q, a⟩ := e
  change q = _ at he
  subst he
  cases confine <;> rfl

theorem nowOr_clock {σ ε : Type} {s : σ} (d : Nat) :
    (nowOr .hook confine d : Act Ans σ ε Nat).Ensures (Prog.answers (clockWorld clock)) s l
      fun r s' _ => (∃ t, r = .ok t) ∧ s' = s := by
  rw [nowOr, Act.ensures_exec]
  cases confine with
  | wall => exact fun a _ => ⟨trivial, ⟨_, rfl⟩, rfl⟩
  | active => exact fun a _ => ⟨trivial, ⟨_, rfl⟩, rfl⟩

/-- The throttle cannot be attached. -/
theorem attachThrottle_clock (startNs : Nat) :
    (attachThrottle config pid startNs).Ensures (Prog.answers (clockWorld clock)) h l
      fun r h' l' => r = .ok () ∧ h' = h ∧ sends config.foreground l' = sends config.foreground l := by
  unfold attachThrottle
  cases config.cpuThrottle with
  | none => exact ⟨rfl, rfl, rfl⟩
  | some cfg =>
    dsimp only
    rw [Act.ensures_bind, Act.ensures_exec]
    intro r hr
    have hnone : r = none := hr
    subst hnone
    refine ⟨trivial, ?_⟩
    simp only [Prog.Ensures]
    refine Act.ensures_ite (fun _ => ?_) fun _ => ?_
    · exact Act.ensures_pure.mpr ⟨rfl, rfl, rfl⟩
    · rw [Act.ensures_bind, Act.ensures_call]
      exact fun _ _ => ⟨trivial, rfl, rfl, rfl⟩

/-- The kqueue of a wait has been opened. -/
def opened (l : Trace) : Bool := l.any fun e => e.req == ⟨.monitor, .kqueue⟩

/-- What the set-up leaves: the wait is open, and its stdin timeout is as it was given. -/
structure SetUpAt (a : WaitArgs) (startNs : Nat) (foreground : Bool) (l : Trace) (f : WaitFixed)
    (v : WaitVars) (l' : Trace) : Prop where
  opened : opened l' = true
  sent : sends foreground l' = sends foreground l
  args : f.args = a
  deadline : f.deadlineNs = advanceNs startNs (durationToNs a.timeout)
  stdin : v.stdinTimeout = a.stdinTimeout
  timeout : f.stdinTimeoutNs = a.stdinTimeout.elim 0 StdinTimeoutConfig.timeoutNs

theorem waitSetup_clock (a : WaitArgs) (foreground : Bool) :
    (waitSetup a).Ensures (Prog.answers (clockWorld clock)) h l fun r h' l' => h' = h ∧
      ∃ f v, r = .ok (f, v) ∧ SetUpAt a (clock l).toNat foreground l f v l' := by
  rw [waitSetup, Act.ensures_bind]
  apply now_clock
  intro e he
  have hsent := sends_reading (l := l) he foreground
  generalize (e :: l : Trace) = l₁ at hsent
  dsimp only
  rw [Act.ensures_bind, Act.ensures_get]
  dsimp only
  simp only [loadSignalFd, Act.ensures_bind, Act.ensures_call, Act.ensures_pure]
  intro fd _
  refine ⟨trivial, ?_⟩
  have hsent₂ : sends foreground (⟨⟨.monitor, .loadSignalPipe⟩, fd⟩ :: l₁) = sends foreground l :=
    hsent
  generalize (⟨⟨.monitor, .loadSignalPipe⟩, fd⟩ :: l₁ : Trace) = l₂ at hsent₂
  -- stdin can be watched, and nothing waits in it yet
  have hvalid : (validateStdin a.stdinTimeout).Ensures (Prog.answers (clockWorld clock)) h l₂
      fun r h' l' => r = .ok a.stdinTimeout ∧ h' = h ∧ sends foreground l' = sends foreground l := by
    cases a.stdinTimeout with
    | none => exact ⟨rfl, rfl, hsent₂⟩
    | some cfg =>
      simp only [validateStdin, Act.ensures_bind, Act.ensures_call, Act.ensures_pure]
      intro r hr
      have hzero : r = (0 : Int) := hr
      subst hzero
      exact ⟨trivial, rfl, trivial, hsent₂⟩
  refine hvalid.mono fun r h₃ l₃ hr => ?_
  obtain ⟨rfl, rfl, hsent₃⟩ := hr
  have hpoll : (initialPoll a.confine a.stdinTimeout).Ensures (Prog.answers (clockWorld clock)) h₃ l₃
      fun r h' l' => r = .ok a.stdinTimeout ∧ h' = h₃ ∧
        sends foreground l' = sends foreground l := by
    cases a.stdinTimeout with
    | none => exact ⟨rfl, rfl, hsent₃⟩
    | some cfg =>
      refine Act.ensures_ite (fun _ => ?_) fun _ => ⟨rfl, rfl, hsent₃⟩
      simp only [Act.ensures_bind, Act.ensures_call]
      intro r hr
      have hidle : r = ((0, 0) : Int × UInt16) := hr
      subst hidle
      exact ⟨trivial, rfl, rfl, hsent₃⟩
  dsimp only
  refine hpoll.mono fun r h₄ l₄ hr => ?_
  obtain ⟨rfl, rfl, hsent₄⟩ := hr
  simp only [openKqueue, Act.ensures_bind, Act.ensures_call]
  intro kq hkq
  have hok : kq = .ok 5 := hkq
  subst hok
  exact ⟨trivial, rfl, _, _, rfl, rfl, hsent₄, rfl, rfl, rfl, rfl⟩

/-- The largest reading. -/
def top : UInt64 := .ofNat u64Max

theorem finish_clock (f : WaitFixed) (w : WaitResult) :
    (finish f w : SuperAct (Flow Nat)).Ensures (Prog.answers (clockWorld clock)) h l
      fun r h' _ => r = .ok (.ret w) ∧ h' = h := by
  simp only [finish, closeKq, Act.ensures_bind, Act.ensures_call, Act.ensures_pure]
  exact fun _ _ => ⟨trivial, trivial, trivial⟩

/-- A wait that ends at the first look at the clock. -/
theorem wait_clock {a : WaitArgs} (foreground : Bool) {w : WaitResult}
    (hhead : ∀ f v l₁, SetUpAt a (clock l).toNat foreground l f v l₁ → l <:+ l₁ →
      (loopHead f v).Ensures (Prog.answers (clockWorld clock)) h l₁ fun r h' _ =>
        r = .ok (.ret w) ∧ h' = h) :
    (waitWithKqueue (n + 1) a).Ensures (Prog.answers (clockWorld clock)) h l fun r h' _ =>
      r = .ok w ∧ h' = h := by
  unfold waitWithKqueue
  rw [Act.ensures_bind]
  refine ((waitSetup_clock a foreground).with (Act.ensures_extends _ _ _)).mono fun r h₁ l₁ hr => ?_
  obtain ⟨⟨rfl, f, v, rfl, hset⟩, hsuffix⟩ := hr
  simp only [Act.iterate, waitRound, Act.ensures_bind]
  refine (hhead f v l₁ hset hsuffix).mono fun r h₂ l₂ hr => ?_
  obtain ⟨rfl, rfl⟩ := hr
  exact ⟨rfl, rfl⟩

/-- The clock is past every deadline once the wait is open. -/
theorem wait_late {a : WaitArgs} (hlate : ∀ l', opened l' = true → l <:+ l' → clock l' = top) :
    (waitWithKqueue (n + 1) a).Ensures (Prog.answers (clockWorld clock)) h l fun r h' _ =>
      r = .ok (.timedOut .wallClock) ∧ h' = h := by
  refine wait_clock false fun f v l₁ hset hsuffix => ?_
  unfold loopHead
  rw [Act.ensures_bind]
  apply now_clock
  intro e he
  have hpassed : deadlineReached (clock l₁).toNat f.deadlineNs = true := by
    rw [hlate l₁ hset.opened hsuffix, hset.deadline]
    exact decide_eq_true (Nat.min_le_right _ _)
  dsimp only
  rw [if_pos hpassed]
  exact finish_clock f _

/-- A positive duration is a positive time. -/
theorem durationToNs_pos {d : Duration} (hd : isNoTimeout d = false) : 0 < durationToNs d := by
  have hpos : 0 < d.asSecs ∨ 0 < d.subsecNanos := by
    unfold isNoTimeout Duration.isZero at hd
    rcases Nat.eq_zero_or_pos d.asSecs with hs | hs
    · rcases Nat.eq_zero_or_pos d.subsecNanos with hn | hn
      · rw [hs, hn] at hd
        cases hd
      · exact .inr hn
    · exact .inl hs
  unfold durationToNs satAdd satMul
  have hmax : 0 < u64Max ∧ 0 < maxTimerNs := by decide
  omega

/-- The clock stands still, and stdin is to be idle for no time at all. -/
theorem wait_idle {a : WaitArgs} {cfg : StdinTimeoutConfig} {foreground : Bool}
    (hs : a.stdinTimeout = some cfg) (hzero : cfg.timeoutNs = 0) (hactivity : cfg.lastActivityNs = 0)
    (htimeout : isNoTimeout a.timeout = false) (hsent : sends foreground l = [])
    (hearly : ∀ l', sends foreground l' = [] → clock l' = 0) :
    (waitWithKqueue (n + 1) a).Ensures (Prog.answers (clockWorld clock)) h l fun r h' _ =>
      r = .ok (.timedOut .stdinIdle) ∧ h' = h := by
  refine wait_clock foreground fun f v l₁ hset _ => ?_
  have hclock : (clock l).toNat = 0 := congrArg UInt64.toNat (hearly l hsent)
  have hclock₁ : (clock l₁).toNat = 0 :=
    congrArg UInt64.toNat (hearly l₁ (hset.sent.trans hsent))
  unfold loopHead
  rw [Act.ensures_bind]
  apply now_clock
  intro e he
  have hpos := durationToNs_pos htimeout
  have hopen : deadlineReached (clock l₁).toNat f.deadlineNs = false := by
    rw [hclock₁, hset.deadline, hclock]
    refine decide_eq_false (Nat.not_le.mpr ?_)
    exact Nat.lt_min.mpr ⟨by omega, by decide⟩
  have hidle : stdinIdleReached f v (clock l₁).toNat = true := by
    rw [hclock₁, stdinIdleReached, hset.stdin, hs, hset.timeout, hs]
    simp [elapsedNs, hzero, hactivity]
  dsimp only
  rw [hopen, if_neg (by decide), if_pos hidle]
  exact finish_clock f _

/-! What the monitor does then. -/

theorem monitorLine_clock (line : String) :
    (monitorLine config line).Ensures (Prog.answers (clockWorld clock)) h l fun r h' _ =>
      r = .ok () ∧ h' = h := by
  refine Act.ensures_ite (fun _ => ?_) fun _ => ⟨rfl, rfl⟩
  rw [Act.ensures_bind, Act.ensures_call]
  exact fun _ _ => ⟨trivial, rfl, rfl⟩

theorem hookLine_clock (line : String) (c : RawChild) :
    (hookLine config line).Ensures (Prog.answers (clockWorld clock)) c l fun r c' _ =>
      r = .ok () ∧ c' = c := by
  refine Act.ensures_ite (fun _ => ?_) fun _ => ⟨rfl, rfl⟩
  rw [Act.ensures_bind, Act.ensures_call]
  exact fun _ _ => ⟨trivial, rfl, rfl⟩

theorem spawnCommand_clock (command : String) (args : List String) :
    (spawnCommand .hook command args true).Ensures (Prog.answers (clockWorld clock)) l fun r _ =>
      ∃ e, r = .error e := by
  unfold spawnCommand
  split
  · exact ⟨_, rfl⟩
  · intro r hr
    have hrefused : r = .error ENOENT := hr
    subst hrefused
    exact ⟨trivial, _, rfl⟩

/-- The hook cannot be spawned. -/
theorem runHook_clock :
    (runHook fuel config pid).Ensures (Prog.answers (clockWorld clock)) h l fun r h' _ =>
      (∃ hook, r = .ok hook) ∧ h' = h := by
  unfold runHook
  cases config.onTimeout with
  | none => exact ⟨⟨_, rfl⟩, rfl⟩
  | some cmd =>
    dsimp only
    rw [Act.ensures_bind, Act.ensures_exec]
    have hscript : ∀ c, (hookScript fuel cmd pid config).Ensures (Prog.answers (clockWorld clock))
        c l fun _ _ _ => True := by
      intro c
      unfold hookScript
      rw [Act.ensures_bind]
      refine (nowOr_clock 0).mono fun r _ _ hr => ?_
      obtain ⟨⟨t, rfl⟩, -⟩ := hr
      generalize expandHookCmd cmd pid = expandedCmd
      dsimp only
      rw [Act.ensures_bind]
      refine (hookLine_clock _ _).mono fun r _ l₂ hr => ?_
      obtain ⟨rfl, -⟩ := hr
      dsimp only
      rw [Act.ensures_bind, Act.ensures_exec]
      refine (spawnCommand_clock _ _).mono fun r l₃ hr => ?_
      obtain ⟨e, rfl⟩ := hr
      dsimp only
      rw [Act.ensures_bind]
      refine (hookLine_clock _ _).mono fun r _ l₄ hr => ?_
      obtain ⟨rfl, -⟩ := hr
      dsimp only
      rw [Act.ensures_bind, hookElapsedMs, Act.ensures_bind]
      refine (nowOr_clock 0).mono fun r _ _ hr => ?_
      obtain ⟨⟨t, rfl⟩, -⟩ := hr
      exact trivial
    unfold runOnTimeoutHook
    rw [Prog.ensures_bind]
    refine Prog.Ensures.mono (fun r l' _ => ?_) (hscript { pid := 0 })
    match r with
    | (.ok hook, _) => exact ⟨⟨_, rfl⟩, rfl⟩
    | (.error e, _) => exact nomatch e

theorem resumeThrottle_clock (hnone : h.throttle = none) :
    resumeThrottle.Ensures (Prog.answers (clockWorld clock)) h l fun r h' _ =>
      r = .ok () ∧ h' = h := by
  unfold resumeThrottle onThrottle
  rw [Act.ensures_bind, Act.ensures_get]
  dsimp only
  rw [hnone]
  exact ⟨rfl, rfl⟩

/-- A signal is sent. -/
theorem sendSignal_clock (sig : Signal) (foreground : Bool) :
    (sendSignal pid sig foreground).Ensures (Prog.answers (clockWorld clock)) h l fun r h' l' =>
      r = .ok () ∧ h' = h ∧ sends foreground l' ≠ [] := by
  unfold sendSignal
  cases foreground with
  | true =>
    simp only [killProcess, if_true, Act.ensures_bind, Act.ensures_call]
    intro r hr
    have hok : r = .ok () := hr
    subst hok
    exact ⟨trivial, rfl, rfl, List.cons_ne_nil _ _⟩
  | false =>
    simp only [Bool.false_eq_true, if_false, Act.ensures_bind, Act.ensures_call]
    intro r hr
    have hok : r = .ok () := hr
    subst hok
    exact ⟨trivial, rfl, rfl, List.cons_ne_nil _ _⟩

/-- The child is reaped. -/
theorem reapAs_clock {result : RawExitStatus → ResourceUsage → RunResult}
    (hopen : h.child.exited = false) (hnone : h.throttle = none) :
    (reapAs (n + 1) result).Ensures (Prog.answers (clockWorld clock)) h l fun r h' _ =>
      (∃ status rusage, r = .ok (result status rusage)) ∧ h'.throttle = none := by
  unfold reapAs
  rw [Act.ensures_bind]
  refine childWaitOrFail_ensures (fun n _ => 0 < n) hopen (fun n l' _ r hr => ?_) nofun
    (Nat.succ_pos n)
  have hok : r = .ok (⟨0⟩, {}) := hr
  subst hok
  refine ⟨trivial, ⟨_, _, rfl⟩, ?_⟩
  simp [Handles.markExited, Handles.reaped, hnone]

/-- The grace wait ends at once. -/
theorem graceWait_clock (killAfter : Duration) (hlate : ∀ l', opened l' = true → l <:+ l' → clock l' = top) :
    (graceWait (n + 1) pid killAfter config.confine).Ensures (Prog.answers (clockWorld clock)) h l
      fun r h' _ => r = .ok (.timedOut .wallClock) ∧ h' = h := by
  rw [graceWait, Act.ensures_focus]
  refine (wait_late hlate).mono fun r g _ hr => ?_
  obtain ⟨rfl, rfl⟩ := hr
  exact ⟨rfl, rfl⟩

/-- After a timeout: the signal, and with a kill-after SIGKILL. -/
theorem onTimeout_clock (hopen : h.child.exited = false) (hnone : h.throttle = none)
    (hlate : ∀ l', opened l' = true → sends config.foreground l' ≠ [] → clock l' = top)
    (reason : TimeoutReason) :
    (onTimeout (n + 1) config pid reason).Ensures (Prog.answers (clockWorld clock)) h l fun r h' _ =>
      (∃ status rusage hook, r = .ok (.timedOut config.signal config.killAfter.isSome status rusage
        hook reason)) ∧ h'.throttle = none := by
  simp only [onTimeout]
  rw [Act.ensures_bind]
  refine (monitorLine_clock _).mono fun r h₁ l₁ hr => ?_
  obtain ⟨rfl, rfl⟩ := hr
  dsimp only
  rw [Act.ensures_bind]
  refine runHook_clock.mono fun r h₂ l₂ hr => ?_
  obtain ⟨⟨hook, rfl⟩, rfl⟩ := hr
  dsimp only
  rw [Act.ensures_bind]
  refine (monitorLine_clock _).mono fun r h₃ l₃ hr => ?_
  obtain ⟨rfl, rfl⟩ := hr
  dsimp only
  rw [Act.ensures_bind]
  refine (resumeThrottle_clock hnone).mono fun r h₄ l₄ hr => ?_
  obtain ⟨rfl, rfl⟩ := hr
  dsimp only
  rw [Act.ensures_bind]
  refine (sendSignal_clock _ _).mono fun r h₅ l₅ hr => ?_
  obtain ⟨rfl, rfl, hsent⟩ := hr
  dsimp only
  cases config.killAfter with
  | none =>
    refine (reapAs_clock hopen hnone).mono fun r _ _ hr => ?_
    obtain ⟨⟨status, rusage, rfl⟩, hnone'⟩ := hr
    exact ⟨⟨_, _, _, rfl⟩, hnone'⟩
  | some killAfter =>
    -- the signal has been sent, so every later look at the clock is too late
    have hlater : ∀ l', opened l' = true → l₅ <:+ l' → clock l' = top := by
      intro l' hl' hsuffix
      obtain ⟨t, rfl⟩ := hsuffix
      refine hlate _ hl' fun hnil => hsent ?_
      rw [sends, List.filterMap_append] at hnil
      exact (List.append_eq_nil_iff.mp hnil).2
    dsimp only
    rw [Act.ensures_bind]
    refine (graceWait_clock killAfter hlater).mono fun r h₆ l₆ hr => ?_
    obtain ⟨rfl, rfl⟩ := hr
    dsimp only
    rw [Act.ensures_bind]
    refine (monitorLine_clock _).mono fun r h₇ l₇ hr => ?_
    obtain ⟨rfl, rfl⟩ := hr
    dsimp only
    rw [killAndReap, Act.ensures_bind]
    refine (resumeThrottle_clock hnone).mono fun r h₈ l₈ hr => ?_
    obtain ⟨rfl, rfl⟩ := hr
    dsimp only
    rw [Act.ensures_bind]
    refine (sendSignal_clock _ _).mono fun r h₉ l₉ hr => ?_
    obtain ⟨rfl, rfl, -⟩ := hr
    refine (reapAs_clock hopen hnone).mono fun r _ _ hr => ?_
    obtain ⟨⟨status, rusage, rfl⟩, hnone'⟩ := hr
    exact ⟨⟨_, _, _, rfl⟩, hnone'⟩

/-- The monitor, when the first wait ends in a timeout. -/
theorem monitorRun_clock (config : RunConfig) (pid : Int) (clock : Trace → UInt64)
    {reason : TimeoutReason}
    (hwait : ∀ l, sends config.foreground l = [] →
      (waitWithKqueue (n + 1) (waitArgsOf config pid (clock []).toNat)).Ensures
        (Prog.answers (clockWorld clock)) { child := { pid } } l fun r h' _ =>
          r = .ok (.timedOut reason) ∧ h' = { child := { pid } })
    (hlate : ∀ l', opened l' = true → sends config.foreground l' ≠ [] → clock l' = top) :
    ∃ status rusage hook h l, monitorRun (clockWorld clock) (n + 1) config pid =
      (some (.ok (.timedOut config.signal config.killAfter.isSome status rusage hook reason), h), l) := by
  have hmonitor : (monitorWithTimeout (n + 1) config).Ensures (Prog.answers (clockWorld clock))
      { child := { pid } } [] fun r _ _ => ∃ status rusage hook,
        r = .ok (.timedOut config.signal config.killAfter.isSome status rusage hook reason) := by
    rw [monitorWithTimeout, Act.ensures_bind, Act.ensures_get]
    dsimp only
    rw [Act.ensures_bind]
    apply now_clock
    intro e he
    have hsent : sends config.foreground [e] = [] := sends_reading he _
    dsimp only
    rw [Act.ensures_onExit, supervise, Act.ensures_bind]
    refine (attachThrottle_clock _).mono fun r h₁ l₁ hr => ?_
    obtain ⟨rfl, rfl, hsame⟩ := hr
    dsimp only
    rw [Act.ensures_bind]
    refine (hwait l₁ (hsame.trans hsent)).mono fun r h₂ l₂ hr => ?_
    obtain ⟨rfl, rfl⟩ := hr
    refine (onTimeout_clock rfl rfl hlate reason).mono fun r h₃ l₃ hr => ?_
    obtain ⟨hr, hnone⟩ := hr
    rw [dropThrottle, hnone]
    exact hr
  obtain ⟨⟨r, h⟩, hrun, status, rusage, hook, rfl⟩ := Prog.Ensures.on_run hmonitor
  exact ⟨status, rusage, hook, h, _, Prod.ext hrun rfl⟩

end clock

/-! ## Zero disables neither limit -/

/-- The timeout has passed when the loop first looks at the clock. -/
def passedClock (l : Trace) : UInt64 := if opened l then top else 0

/-- The clock stands still until a signal is sent. -/
def stillClock (config : RunConfig) (l : Trace) : UInt64 :=
  if sends config.foreground l = [] then 0 else top

theorem stillClock_early {l : Trace} (h : sends config.foreground l = []) :
    stillClock config l = 0 := if_pos h

theorem stillClock_late {l : Trace} (h : sends config.foreground l ≠ []) :
    stillClock config l = top := if_neg h

/-- Some run escalates. -/
theorem escalates (pid : Int) (hk : config.killAfter = some .zero) :
    ∃ env fuel r h l, monitorRun env fuel config pid = (some (.ok r, h), l) ∧
      r.killed = some true ∧ sends config.foreground l = terminationSends config true := by
  have hpassed : ∀ l', opened l' = true → passedClock l' = top := fun _ hl' => if_pos hl'
  obtain ⟨status, rusage, hook, h, l, hrun⟩ := monitorRun_clock config pid passedClock (n := 0)
    (fun _ _ => wait_late fun l' hl' _ => hpassed l' hl') fun l' hl' _ => hpassed l' hl'
  rw [hk] at hrun
  refine ⟨_, _, _, h, l, hrun, rfl, ?_⟩
  exact ((grace_periods_alike _ _ config pid hk).2 _ h l hrun).1 true rfl

/-- Some run ends because stdin is idle. -/
theorem idles (pid : Int) (hs : config.stdinTimeout = some .zero)
    (htimeout : isNoTimeout config.timeout = false) :
    ∃ env fuel r h l, monitorRun env fuel config pid = (some (.ok r, h), l) ∧
      r.reason = some .stdinIdle := by
  have hin : (waitArgsOf config pid 0).stdinTimeout = some
      { timeoutNs := durationToNs .zero, lastActivityNs := 0,
        mode := if config.stdinPassthrough then .passthrough else .consume } := by
    rw [waitArgsOf, hs]
    rfl
  obtain ⟨status, rusage, hook, h, l, hrun⟩ := monitorRun_clock config pid (stillClock config) (n := 0)
    (fun _ hsent => wait_idle hin durationToNs_zero rfl htimeout hsent fun _ => stillClock_early)
    fun _ _ => stillClock_late
  exact ⟨_, _, _, h, l, hrun, rfl⟩

/-- **A zero duration disables neither limit.** With `kill_after` zero some run escalates, and no
    run whose clock does not go back reports a child that was told to terminate and spared. With
    `stdin_timeout` zero some run is ended by it, and no run with an open stdin, whose clock does
    not go back, reports a command that completed. -/
theorem zero_disables_nothing (config : RunConfig) (pid : Int) :
    (config.killAfter = some .zero →
      (∃ env fuel r h l, monitorRun env fuel config pid = (some (.ok r, h), l) ∧
        r.killed = some true ∧ sends config.foreground l = terminationSends config true) ∧
      ∀ env fuel r h l, monitorRun env fuel config pid = (some (.ok r, h), l) →
        Always (SteadyClock config) l → r.killed ≠ some false) ∧
    (config.stdinTimeout = some .zero → isNoTimeout config.timeout = false →
      (∃ env fuel r h l, monitorRun env fuel config pid = (some (.ok r, h), l) ∧
        r.reason = some .stdinIdle) ∧
      ∀ env fuel r h l, monitorRun env fuel config pid = (some (.ok r, h), l) →
        Always (fun e l => SteadyClock config e l ∧ StdinOpen e) l →
        ∀ status rusage, r ≠ .completed status rusage) := by
  refine ⟨fun hk => ⟨escalates pid hk, fun env fuel r h l hrun hsteady => ?_⟩,
    fun hs htimeout => ⟨idles pid hs htimeout, fun env fuel r h l hrun hsteady => ?_⟩⟩
  · have hmonitor : (monitorWithTimeout fuel config).Ensures (steady config) { child := { pid } } []
        fun r _ _ => Returns NotSpared r := monitorWithTimeout_notSpared hk
    unfold monitorRun at hrun
    have hlog : l = ((monitorWithTimeout fuel config { child := { pid } }).run env []).2 :=
      (congrArg Prod.snd hrun).symm
    rw [hlog] at hsteady
    exact Prog.Ensures.returns env hmonitor hsteady (congrArg Prod.fst hrun) r rfl
  · have hmonitor : (monitorWithTimeout fuel config).Ensures (steadyOpen config)
        { child := { pid } } [] fun r _ _ => Returns NotCompleted r :=
      monitorWithTimeout_notCompleted hs
    unfold monitorRun at hrun
    have hlog : l = ((monitorWithTimeout fuel config { child := { pid } }).run env []).2 :=
      (congrArg Prod.snd hrun).symm
    rw [hlog] at hsteady
    exact Prog.Ensures.returns env hmonitor hsteady (congrArg Prod.fst hrun) r rfl

def zeroConfig : RunConfig := { killAfter := some .zero, stdinTimeout := some .zero }

theorem zero_disables_nothing_both :
    ((∃ env fuel r h l, monitorRun env fuel zeroConfig 7 = (some (.ok r, h), l) ∧
        r.killed = some true ∧
        sends zeroConfig.foreground l = terminationSends zeroConfig true) ∧
      ∀ env fuel r h l, monitorRun env fuel zeroConfig 7 = (some (.ok r, h), l) →
        Always (SteadyClock zeroConfig) l → r.killed ≠ some false) ∧
    ∃ env fuel r h l, monitorRun env fuel zeroConfig 7 = (some (.ok r, h), l) ∧
      r.reason = some .stdinIdle :=
  ⟨(zero_disables_nothing zeroConfig 7).1 rfl, ((zero_disables_nothing zeroConfig 7).2 rfl rfl).1⟩

/-- `-k 0` kills at once after the timeout; `-S 0` ends the run at once. -/
theorem zero_limits_fire :
    (¬ ∀ (env : World) (fuel : Nat) (config : RunConfig) (pid : Int) (r : RunResult) (h : Handles)
      (l : Trace), monitorRun env fuel config pid = (some (.ok r, h), l) →
      config.killAfter = some .zero → r.killed ≠ some true) ∧
    ¬ ∀ (env : World) (fuel : Nat) (config : RunConfig) (pid : Int) (r : RunResult) (h : Handles)
      (l : Trace), monitorRun env fuel config pid = (some (.ok r, h), l) →
      config.stdinTimeout = some .zero → r.reason ≠ some .stdinIdle := by
  constructor
  · intro hall
    have hk : zeroConfig.killAfter = some .zero := rfl
    obtain ⟨env, fuel, r, h, l, hrun, hkilled, -⟩ := escalates 7 hk
    exact hall env fuel zeroConfig 7 r h l hrun rfl hkilled
  · intro hall
    have hs : zeroConfig.stdinTimeout = some .zero := rfl
    obtain ⟨env, fuel, r, h, l, hrun, hreason⟩ := idles 7 hs rfl
    exact hall env fuel zeroConfig 7 r h l hrun rfl hreason

end Procguard
