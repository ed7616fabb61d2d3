import Procguard.Hook
import Procguard.Ownership
import Procguard.RetryLoop
import Procguard.Timing
import Procguard.WaitRules
import Procguard.WallClock

/- The kqueue of `wait_with_kqueue`, `wait_for_hook_with_kqueue` and `kqueue_delay`. Each
   closes it by hand, in front of every `return`; the three `?` of the event loop do not.
   They are the clock readings of the loop head, of the timer branch and of the stdin
   branch, and none of them is taken: in wall mode the loop is reached only when the first
   reading found a valid timebase (`OneTimebase.answered`), and no other clock fails. -/
namespace Procguard
open Interact

/-- What an event does to a kqueue. -/
def kqTouch : Event → Option (Touch Int)
  | ⟨⟨_, .kqueue⟩, .ok kq⟩ => some (.opens kq)
  | ⟨⟨_, .kevent kq _⟩, _⟩ => some (.uses kq)
  | ⟨⟨_, .close fd⟩, _⟩ => some (.closes fd)
  | _ => none

/-! ## The clock -/

/-- The cache holds what `mach_timebase_info` answers, or nothing yet. -/
def TimebaseCached (info : MachTimebaseInfo) (s : Runner.Timebase) : Prop :=
  s = none ∨ info.denom ≠ 0 ∧ s = some info.ratio

/-- The cache after the calls of the log, `ticks` being what `mach_continuous_time` returns. -/
def timebaseAfter (info : MachTimebaseInfo) (ticks : Trace → UInt64) (start : Runner.Timebase) :
    Trace → Runner.Timebase
  | [] => start
  | e :: l => match e.req.call with
    | .wallNow => (Runner.wallNowNs info (ticks l) (timebaseAfter info ticks start l)).2
    | _ => timebaseAfter info ticks start l

/-- What the next reading of the wall clock is answered, `wall_now_ns` with its cache. -/
def wallAnswer (info : MachTimebaseInfo) (ticks : Trace → UInt64) (start : Runner.Timebase)
    (l : Trace) : Option UInt64 :=
  (Runner.wallNowNs info (ticks l) (timebaseAfter info ticks start l)).1.toOption

/-- Every reading of the wall clock is such an answer. -/
def OneTimebase (info : MachTimebaseInfo) (ticks : Trace → UInt64) (start : Runner.Timebase) :
    Event → Trace → Prop
  | ⟨⟨_, .wallNow⟩, t⟩, l => t = wallAnswer info ticks start l
  | _, _ => True

section clock
variable {info : MachTimebaseInfo} {ticks : Trace → UInt64} {start : Runner.Timebase}

/-- One reading: it fails exactly without a valid timebase, and the cache stays right. -/
theorem TimebaseCached.reading {s : Runner.Timebase} (hs : TimebaseCached info s) (t : UInt64) :
    ((Runner.wallNowNs info t s).1.toOption.isSome = true ↔ info.denom ≠ 0) ∧
      TimebaseCached info (Runner.wallNowNs info t s).2 := by
  by_cases hdenom : info.denom = 0
  · have hnone : s = none := by
      rcases hs with hnone | ⟨hvalid, -⟩
      · exact hnone
      · exact absurd hdenom hvalid
    obtain ⟨hanswer, hnext⟩ := Runner.wallNowNs_refuses hdenom t s hnone
    rw [hanswer]
    exact ⟨⟨fun h => (by cases h), fun h => absurd hdenom h⟩, .inl hnext⟩
  · have hcached : s = none ∨ s = some info.ratio := hs.imp_right And.right
    obtain ⟨hanswer, hnext⟩ := Runner.wallNowNs_serves hdenom t s hcached
    rw [hanswer]
    exact ⟨⟨fun _ => hdenom, fun _ => rfl⟩, hnext.imp_right fun h => ⟨hdenom, h⟩⟩

theorem timebaseAfter_cached (hstart : TimebaseCached info start) :
    ∀ l, TimebaseCached info (timebaseAfter info ticks start l) := by
  intro l
  induction l with
  | nil => exact hstart
  | cons e l ih =>
    unfold timebaseAfter
    split
    · exact (ih.reading (ticks l)).2
    · exact ih

/-- The wall clock answers either always or never. -/
theorem OneTimebase.answered (hstart : TimebaseCached info start) {caller : Caller}
    {t : Option UInt64} {l : Trace} (h : OneTimebase info ticks start ⟨⟨caller, .wallNow⟩, t⟩ l) :
    t.isSome = true ↔ info.denom ≠ 0 := by
  rw [show t = wallAnswer info ticks start l from h]
  exact ((timebaseAfter_cached hstart l).reading (ticks l)).1

/-- The clock of the confine mode can be read. -/
def Ticking (info : MachTimebaseInfo) (confine : Confine) : Prop :=
  confine = .wall → info.denom ≠ 0

/-- Every run of the three relies on one timebase. -/
abbrev kqContract (info : MachTimebaseInfo) (ticks : Trace → UInt64) (start : Runner.Timebase) :
    Contract Ans := owning kqTouch (OneTimebase info ticks start)

/-- A reading leaves the kqueue where it is, and fails only with a clock that cannot be read. -/
theorem asksClock_owner (hstart : TimebaseCached info start) {confine : Confine} {l : Trace}
    {s : Owner Int} (hs : owner kqTouch l = s) {P : Option Nat → Trace → Prop}
    (hP : ∀ r l', owner kqTouch l' = s → (r.isSome = true ↔ Ticking info confine) → P r l') :
    AsksClock (kqContract info ticks start) .monitor confine l P := by
  cases confine with
  | wall =>
    intro t ht
    refine ⟨trivial, hP _ _ ((owner_cons _ rfl).trans hs) ?_⟩
    rw [Option.isSome_map, OneTimebase.answered hstart ht]
    exact ⟨fun hdenom _ => hdenom, fun hticking => hticking rfl⟩
  | active =>
    intro t _
    refine ⟨trivial, hP _ _ ((owner_cons _ rfl).trans hs) ?_⟩
    exact ⟨fun _ h => (by cases h), fun _ => rfl⟩

/-- Once a reading has succeeded, the next one does. -/
theorem asksClock_again (hstart : TimebaseCached info start) {confine : Confine} {l : Trace}
    {s : Owner Int} (hs : owner kqTouch l = s) (hticking : Ticking info confine)
    {P : Option Nat → Trace → Prop} (hP : ∀ t l', owner kqTouch l' = s → P (some t) l') :
    AsksClock (kqContract info ticks start) .monitor confine l P := by
  refine asksClock_owner hstart hs fun r l' hs' hr => ?_
  obtain ⟨t, rfl⟩ := Option.isSome_iff_exists.mp (hr.mpr hticking)
  exact hP t l' hs'

end clock

/-! ## wait_with_kqueue -/

section wait
variable {info : MachTimebaseInfo} {ticks : Trace → UInt64} {start : Runner.Timebase}
  {a : WaitArgs} {h : Handles} {l : Trace}

/-- The loop is entered with the kqueue open and a clock that can be read. -/
theorem waitSetup_holds (hstart : TimebaseCached info start) (hs : owner kqTouch l = .unopened) :
    (waitSetup a).Ensures (kqContract info ticks start) h l fun r _ l' => match r with
      | .ok (f, _) => owner kqTouch l' = .held f.kq ∧ Ticking info f.args.confine
      | .error _ => GivenBack kqTouch l' := by
  simp only [waitSetup, Act.ensures_bind, ensures_now]
  refine asksClock_owner hstart hs fun r l₁ hs₁ hticking => ?_
  cases r with
  | none => exact .inl hs₁
  | some startNs =>
    simp only [Act.ensures_get, loadSignalFd, Act.ensures_bind, Act.ensures_call,
      Act.ensures_pure]
    refine (asks_aside (fun _ => rfl) hs₁).mono fun fd hs₂ => ?_
    refine ((asking_validateStdin (fun _ => rfl) a.stdinTimeout).keeps_owner hs₂ (by simp) h).mono
      fun r h₃ l₃ hs₃ => ?_
    cases r with
    | error e => exact .inl hs₃
    | ok stdin =>
      have hpoll : Act.Asking (Aside kqTouch) (initialPoll a.confine stdin) :=
        asking_initialPoll a.confine (fun _ _ => rfl) (by cases a.confine <;> exact fun _ => rfl)
      refine (hpoll.keeps_owner hs₃ (by simp) h₃).mono fun r h₄ l₄ hs₄ => ?_
      cases r with
      | error e => exact .inl hs₄
      | ok stdin =>
        simp only [openKqueue, Act.ensures_bind, Act.ensures_call]
        intro kq _
        refine ⟨trivial, ?_⟩
        cases kq with
        | error errno => exact .inl ((owner_cons _ rfl).trans hs₄)
        | ok kq => exact ⟨Owner.after_eq_held.mpr (.inl ⟨hs₄, rfl⟩), hticking.mp rfl⟩

/-- The close in front of a `return`. -/
theorem asks_closeKq {kq : Int} {caller : Caller} (hs : owner kqTouch l = .held kq) :
    Asks (kqContract info ticks start) ⟨caller, .close kq⟩ l fun _ l' =>
      owner kqTouch l' = .closed kq :=
  asks_closes (fun _ => rfl) hs

theorem asks_kevent {kq : Int} {caller : Caller} {cs : List Kevent}
    (hs : owner kqTouch l = .held kq) :
    Asks (kqContract info ticks start) ⟨caller, .kevent kq cs⟩ l fun _ l' =>
      owner kqTouch l' = .held kq :=
  asks_uses (fun _ => rfl) hs

/-- What comes after the close leaves the kqueue alone. -/
theorem closed_ensures {α σ ε : Type} {kq : Int} {m : Act Ans σ ε α}
    (hm : Act.Asking (Aside kqTouch) m) (hs : owner kqTouch l = .closed kq) (st : σ) :
    m.Ensures (kqContract info ticks start) st l fun _ _ l' => GivenBack kqTouch l' :=
  (hm.keeps_owner hs (by simp) st).mono fun _ _ _ hs' => .inr ⟨kq, hs'⟩

theorem release_rule (hstart : TimebaseCached info start) (f : WaitFixed) (w₀ : Watch) (fuel : Nat)
    (hticking : Ticking info f.args.confine) :
    WaitRule (kqContract info ticks start) w₀ fuel f
      (fun _ _ _ l => owner kqTouch l = .held f.kq) (fun _ _ _ l => owner kqTouch l = .held f.kq)
      (fun _ _ _ l => owner kqTouch l = .held f.kq) (fun _ _ _ l => owner kqTouch l = .held f.kq)
      (fun _ _ l => GivenBack kqTouch l) where
  cut _ _ _ hs := by
    show owner kqTouch _ ≠ .misused
    simp [hs]
  clock _ _ _ _ hs _ := asksClock_again hstart hs hticking fun _ _ hs' => hs'
  deadline _ _ _ _ hs _ _ := (asks_closeKq (hs.elim id id)).mono fun _ hc => .inr ⟨f.kq, hc⟩
  idle _ _ _ _ _ hs _ _ _ := (asks_closeKq (hs.elim id id)).mono fun _ hc => .inr ⟨f.kq, hc⟩
  kevent _ _ _ _ hs _ _ := asks_kevent hs
  interrupted _ _ _ _ _ hs _ := hs
  noProcess _ _ h _ _ hs _ := (asks_closeKq hs).mono fun _ hc =>
    closed_ensures (asking_reapGone (fun _ _ => rfl) (fun _ _ => rfl) fuel) hc h
  broken _ _ _ _ _ _ hs _ _ _ := (asks_closeKq hs).mono fun _ hc => .inr ⟨f.kq, hc⟩
  eof _ _ _ _ _ _ hs _ _ _ := hs
  read _ _ _ _ _ _ hs _ _ _ := by
    refine (asks_aside (fun _ => rfl) hs).mono fun bytes hs' => ?_
    split
    · exact hs'
    · split
      · exact asksClock_again hstart hs' hticking fun _ _ hs'' => hs''
      · exact hs'
  timer _ _ _ _ _ _ hs _ _ := asksClock_again hstart hs hticking fun _ _ hs' => hs'
  throttle _ _ _ l ctx hs _ _ _ := by
    have hkept : (CpuThrottleState.update ctx.cfg (watch w₀ l).clock).Ensures
        (kqContract info ticks start) ctx.state l fun _ _ l' => owner kqTouch l' = .held f.kq :=
      (CpuThrottleState.asking_update (fun _ _ _ => rfl) (fun _ _ => rfl) _ _).keeps_owner hs
        (by simp) ctx.state
    -- `update` has no error to leave the loop by
    refine (hkept.with (CpuThrottleState.update_ok ctx.cfg _ ctx.state l)).mono fun r _ _ hr => ?_
    obtain ⟨hs', b, rfl⟩ := hr
    exact hs'
  memory _ _ _ _ m hs _ _ _ := by
    refine (asks_aside (fun _ => rfl) hs).mono fun r hs' => ?_
    split
    · split
      · exact (asks_closeKq hs').mono fun _ hc => .inr ⟨f.kq, hc⟩
      · exact hs'
    · exact hs'
  poll _ _ _ _ _ hs _ _ _ := asks_aside (fun _ => rfl) hs
  line _ _ _ _ _ hs _ _ _ _ := asks_aside (fun _ => rfl) hs
  beat _ _ _ _ hs _ _ := hs
  tick _ _ _ _ hs _ _ := hs
  badStdin _ _ _ _ _ _ hs _ _ _ _ _ _ := hs
  noFilter _ _ _ _ _ _ hs _ _ _ _ _ _ := hs
  refused _ _ _ _ _ _ hs _ _ _ _ _ _ _ := (asks_closeKq hs).mono fun _ hc => .inr ⟨f.kq, hc⟩
  gone _ _ h _ _ _ hs _ _ _ _ _ := (asks_closeKq hs).mono fun _ hc =>
    closed_ensures (asking_reapGone (fun _ _ => rfl) (fun _ _ => rfl) fuel) hc h
  exited _ _ h _ _ _ hs _ _ _ := (asks_closeKq hs).mono fun _ hc =>
    (closed_ensures (asking_childWaitOrFail (fun _ _ => rfl) fuel) hc h).mono fun r _ _ hback => by
      cases r <;> exact hback
  signal _ _ _ _ _ _ hs _ _ _ _ := by
    refine (asks_closeKq hs).mono fun _ hc => ?_
    cases f.signalFd with
    | none => exact .inr ⟨f.kq, hc⟩
    | some fd => exact (asks_aside (fun _ => rfl) hc).mono fun _ hc' => .inr ⟨f.kq, hc'⟩
  other _ _ _ _ _ _ hs _ _ _ _ _ := (asks_closeKq hs).mono fun _ hc => .inr ⟨f.kq, hc⟩

theorem waitWithKqueue_releases (hstart : TimebaseCached info start) (fuel : Nat) (a : WaitArgs)
    (h : Handles) :
    (waitWithKqueue fuel a).Ensures (kqContract info ticks start) h [] fun _ _ l =>
      GivenBack kqTouch l := by
  rw [waitWithKqueue, Act.ensures_bind]
  have hsetup : (waitSetup a).Ensures (kqContract info ticks start) h [] fun r _ l' => match r with
      | .ok (f, _) => owner kqTouch l' = .held f.kq ∧ Ticking info f.args.confine
      | .error _ => GivenBack kqTouch l' := waitSetup_holds hstart rfl
  refine (hsetup.with (waitSetup_tracked (silent_setup a.confine) trivial
    (Watch.ofArgs_ready a 0))).mono fun r h' l' hr => ?_
  obtain ⟨hheld, rfl, hset⟩ := hr
  rcases r with e | ⟨f, v⟩
  · exact hheld
  · exact (release_rule hstart f (Watch.ofArgs a 0) fuel hheld.2).loop hheld.1 hset.2.tracked

end wait

/-! ## wait_for_hook_with_kqueue -/

section hook
variable {info : MachTimebaseInfo} {ticks : Trace → UInt64} {start : Runner.Timebase}
  {kq : Int} {c : RawChild} {l : Trace}

theorem aside_nowOr {σ ε : Type} (caller : Caller) (confine : Confine) (d : Nat) :
    Act.Asking (Aside kqTouch) (nowOr caller confine d : Act Ans σ ε Nat) :=
  asking_nowOr (fun _ => rfl) (fun _ => rfl) confine d

theorem aside_hookReap (fuel : Nat) : Act.Asking (Aside kqTouch) (hookReap fuel) :=
  asking_hookReap (fun _ _ => rfl) fuel

/-- A round goes on, or leaves the loop, with the kqueue open; it returns with it closed. -/
theorem hookRound_holds (fuel : Nat) (pid : Int) (confine : Confine) (deadlineNs : Nat)
    (hs : owner kqTouch l = .held kq) :
    (hookRound fuel pid kq confine deadlineNs ()).Ensures (kqContract info ticks start) c l
      fun r _ l' => match r with
        | .ok (.inr (.inl _)) => GivenBack kqTouch l'
        | _ => owner kqTouch l' = .held kq := by
  simp only [hookRound, Act.ensures_bind]
  refine ((aside_nowOr .hook confine deadlineNs).keeps_owner hs (by simp) c).mono
    fun r c₁ l₁ hs₁ => ?_
  cases r with
  | error e => exact e.elim
  | ok nowNs =>
    refine Act.ensures_ite (fun _ => ?_) fun _ => ?_
    · simp only [hookClose, Act.ensures_bind, Act.ensures_call, Act.ensures_pure]
      exact (asks_closeKq hs₁).mono fun _ hc => .inr ⟨kq, hc⟩
    · simp only [Act.ensures_bind, Act.ensures_call]
      refine (asks_kevent hs₁).mono fun r hs₂ => ?_
      cases r with
      | ok ev => exact hs₂
      | error err =>
        refine Act.ensures_ite (fun _ => hs₂) fun _ => Act.ensures_ite (fun _ => ?_) fun _ => ?_
        · simp only [hookClose, Act.ensures_bind, Act.ensures_call, Act.ensures_pure]
          refine (asks_closeKq hs₂).mono fun _ hc => ?_
          have htry : Act.Asking (Aside kqTouch) hookChildTryWait :=
            asking_hookChildTryWait fun _ _ => rfl
          refine (htry.keeps_owner hc (by simp) c₁).mono fun r c₂ l₂ hc₂ => ?_
          -- closed is closed, whatever is made of the process that is gone
          rcases r with e | e | _ | status
          · exact e.elim
          · exact .inr ⟨kq, hc₂⟩
          · simp only [Act.ensures_bind]
            refine (closed_ensures (aside_hookReap fuel) hc₂ c₂).mono fun r c₃ l₃ hback => ?_
            cases r with
            | error e => exact e.elim
            | ok r => exact hback
          · exact .inr ⟨kq, hc₂⟩
        · simp only [hookClose, Act.ensures_bind, Act.ensures_call, Act.ensures_pure]
          exact (asks_closeKq hs₂).mono fun _ hc => .inr ⟨kq, hc⟩

theorem hookAfterLoop_releases (fuel : Nat) (ev : Kevent) (hs : owner kqTouch l = .held kq) :
    (hookAfterLoop fuel kq ev).Ensures (kqContract info ticks start) c l fun _ _ l' =>
      GivenBack kqTouch l' := by
  simp only [hookAfterLoop, hookClose, Act.ensures_bind, Act.ensures_call, Act.ensures_pure]
  refine (asks_closeKq hs).mono fun _ hc => closed_ensures ?_ hc c
  exact .ite (.ite (aside_hookReap fuel) .pure) (.ite (aside_hookReap fuel) .pure)

theorem waitForHookWithKqueue_releases (fuel : Nat) (timeout : Duration) (confine : Confine)
    (c : RawChild) :
    (waitForHookWithKqueue fuel timeout confine).Ensures (kqContract info ticks start) c []
      fun _ _ l => GivenBack kqTouch l := by
  simp only [waitForHookWithKqueue, Act.ensures_bind, Act.ensures_get]
  have hs : owner kqTouch [] = .unopened := rfl
  refine ((aside_nowOr .hook confine 0).keeps_owner hs (by simp) c).mono fun r c₁ l₁ hs₁ => ?_
  cases r with
  | error e => exact e.elim
  | ok startNs =>
    simp only [Act.ensures_call]
    intro kq _
    refine ⟨trivial, ?_⟩
    cases kq with
    | error errno => exact .inl ((owner_cons _ rfl).trans hs₁)
    | ok kq =>
      simp only [Act.ensures_bind]
      -- at every loop head the kqueue is open
      refine Act.ensures_iterate (fun _ _ l => owner kqTouch l = .held kq) ?_ ?_ fuel
        (Owner.after_eq_held.mpr (.inl ⟨hs₁, rfl⟩))
      · intro _ c₂ l₂ hs₂
        refine (hookRound_holds fuel c.pid confine _ hs₂).mono fun r c₃ l₃ hr => ?_
        rcases r with e | _ | _ | ev
        · exact e.elim
        · exact hr
        · exact hr
        · exact hookAfterLoop_releases fuel ev hr
      · intro _ _ l₂ hs₂
        show owner kqTouch l₂ ≠ .misused
        simp [hs₂]

end hook

/-! ## kqueue_delay -/

section delay
variable {info : MachTimebaseInfo} {ticks : Trace → UInt64} {start : Runner.Timebase}
  {kq : Int} {l : Trace}

theorem aside_sleepMs (fuel ms : Nat) : Act.Asking (Aside kqTouch) (sleepMs fuel ms) :=
  (sleepMs_unfailing (fun _ _ => rfl) fuel ms).asking

theorem delayRound_holds (fuel deadlineNs : Nat) (signalFd : Option Int)
    (hs : owner kqTouch l = .held kq) :
    (delayRound fuel kq deadlineNs signalFd ()).Ensures (kqContract info ticks start) () l
      fun r _ l' => match r with
        | .ok (.inl _) => owner kqTouch l' = .held kq
        | _ => GivenBack kqTouch l' := by
  simp only [delayRound, activeNowNs, Act.ensures_bind, Act.ensures_call, Act.ensures_pure]
  refine (asks_aside (fun _ => rfl) hs).mono fun nowNs hs₁ => ?_
  refine Act.ensures_ite (fun _ => ?_) fun _ => ?_
  · simp only [Act.ensures_bind, Act.ensures_call, Act.ensures_pure]
    exact (asks_closeKq hs₁).mono fun _ hc => .inr ⟨kq, hc⟩
  · simp only [Act.ensures_bind, Act.ensures_call]
    refine (asks_kevent hs₁).mono fun r hs₂ => ?_
    cases r with
    | ok ev =>
      simp only [Act.ensures_bind, Act.ensures_call, Act.ensures_pure]
      exact (asks_closeKq hs₂).mono fun _ hc => .inr ⟨kq, hc⟩
    | error err =>
      refine Act.ensures_ite (fun _ => hs₂) fun _ => ?_
      simp only [Act.ensures_bind, Act.ensures_call, Act.ensures_pure]
      refine (asks_closeKq hs₂).mono fun _ hc => ?_
      refine (asks_aside (fun _ => rfl) hc).mono fun t hc' => ?_
      -- the fallback sleeps for what remains
      refine Act.ensures_ite (fun _ => ?_) fun _ => .inr ⟨kq, hc'⟩
      rw [Act.ensures_bind]
      refine (closed_ensures (aside_sleepMs fuel _) hc' ()).mono fun r _ l' hback => ?_
      cases r with
      | error e => exact hback
      | ok _ => exact hback

theorem kqueueDelay_releases (fuel : Nat) (d : Duration) (signalFd : Option Int) :
    (kqueueDelay fuel d signalFd).Ensures (kqContract info ticks start) () [] fun _ _ l =>
      GivenBack kqTouch l := by
  unfold kqueueDelay
  have hs : owner kqTouch [] = .unopened := rfl
  refine Act.ensures_ite (fun _ => .inl hs) fun _ => ?_
  simp only [activeNowNs, Act.ensures_bind, Act.ensures_call, Act.ensures_pure]
  refine (asks_aside (fun _ => rfl) hs).mono fun startNs hs₁ kq _ => ⟨trivial, ?_⟩
  cases kq with
  | error errno =>
    simp only [Act.ensures_bind]
    refine ((aside_sleepMs fuel (durationMs d)).keeps_owner ((owner_cons _ rfl).trans hs₁) (by simp)
      ()).mono fun r _ l' hs₂ => ?_
    cases r with
    | error e => exact .inl hs₂
    | ok _ => exact .inl hs₂
  | ok kq =>
    refine Act.ensures_iterate (fun _ _ l => owner kqTouch l = .held kq) ?_ ?_ fuel
      (Owner.after_eq_held.mpr (.inl ⟨hs₁, rfl⟩))
    · intro _ _ l₂ hs₂
      refine (delayRound_holds fuel _ signalFd hs₂).mono fun r _ l₃ hr => ?_
      rcases r with e | _ | b
      · exact hr
      · exact hr
      · exact hr
    · intro _ _ l₂ hs₂
      show owner kqTouch l₂ ≠ .misused
      simp [hs₂]

end delay

/-! ## The three -/

/-- **No kqueue is leaked**: whatever the system answers, with one timebase, each of the three
    waits closes the kqueue it opened once before it returns and does not use it after that,
    and one that could not open it closes nothing. -/
theorem kqueue_released (info : MachTimebaseInfo) (ticks : Trace → UInt64)
    (start : Runner.Timebase) (hstart : TimebaseCached info start) (env : World) (fuel : Nat)
    (hclock : ∀ caller l, env l ⟨caller, .wallNow⟩ = wallAnswer info ticks start l) :
    (∀ a h, NoLeak kqTouch ((waitWithKqueue fuel a h).run env [])) ∧
    (∀ timeout confine c,
      NoLeak kqTouch ((waitForHookWithKqueue fuel timeout confine c).run env [])) ∧
    ∀ d signalFd, NoLeak kqTouch ((kqueueDelay fuel d signalFd ()).run env []) := by
  have hrely : ∀ {α : Type} (p : SysProg α),
      Always (OneTimebase info ticks start) (p.run env []).2 := by
    intro α p
    refine (Prog.run_answers env p (l := []) trivial).mono fun e l he => ?_
    obtain ⟨⟨caller, call⟩, ans⟩ := e
    cases call with
    | wallNow =>
      have hans : ans = env l ⟨caller, .wallNow⟩ := he
      exact hans.trans (hclock caller l)
    | _ => exact trivial
  refine ⟨fun a h => ?_, fun timeout confine c => ?_, fun d signalFd => ?_⟩
  · exact Prog.Ensures.noLeak env (waitWithKqueue_releases hstart fuel a h) (hrely _)
  · exact Prog.Ensures.noLeak env (waitForHookWithKqueue_releases fuel timeout confine c) (hrely _)
  · exact Prog.Ensures.noLeak env (kqueueDelay_releases fuel d signalFd) (hrely _)

/-- The child exits during the first kevent call; 3 ticks are 125 ns. -/
def exitingWorld : World := Machine.world {
  wallClock := wallAnswer ⟨125, 3⟩ (fun l => UInt64.ofNat l.length) none
  kevent := fun _ => .ok { ident := 7, filter := EVFILT_PROC, flags := 0 } }

theorem kqueue_released_exit : ∃ r l,
    (waitWithKqueue 2 { pid := 7, timeout := .fromSecs 30, confine := .wall }
      { child := { pid := 7 } }).run exitingWorld [] = (some r, l) ∧
    (Untouched kqTouch l ∨ ∃ kq, Interact.Closed kqTouch kq l) := by
  refine ⟨_, _, rfl, ?_⟩
  obtain ⟨hwait, -, -⟩ := kqueue_released ⟨125, 3⟩ (fun l => UInt64.ofNat l.length) none (.inl rfl)
    exitingWorld 2 fun _ _ => rfl
  have hrun := hwait { pid := 7, timeout := .fromSecs 30, confine := .wall }
    { child := { pid := 7 } }
  rcases hrun with hnone | ⟨kq, hclosed | ⟨hrunning, -⟩⟩
  · exact .inl hnone
  · exact .inr ⟨kq, hclosed⟩
  · cases hrunning

end Procguard
