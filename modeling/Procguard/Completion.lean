import Procguard.Guarantees
import Procguard.Retry

/- Runs that end because the child ends. `Timely` says of the answers what makes a run of
   this kind: up to the exit notice no limit is reached, no signal comes in and no call
   fails, and the notice comes in one of the first kevent calls. Such a run returns
   `Completed` (`finished_in_time`); the run without a timeout returns the same
   (`runCommand_zero`). -/
namespace Procguard
open Interact

/-! ## Counts -/

def isKevent (e : Event) : Bool :=
  match e.req with
  | ⟨.monitor, .kevent _ _⟩ => true
  | _ => false

/-- A blocking wait that a signal handler interrupted. -/
def isInterrupt : Event → Bool
  | ⟨⟨.monitor, .wait4 _⟩, .error err⟩ => err == EINTR
  | _ => false

def isSpawn (e : Event) : Bool :=
  match e.req with
  | ⟨.monitor, .posixSpawnp _ _ _⟩ | ⟨.monitor, .fork _ _ _ _ _⟩ => true
  | _ => false

def kevents (l : Trace) : Nat := l.countP isKevent
def interrupts (l : Trace) : Nat := l.countP isInterrupt

/-- How often the command was spawned. -/
def spawns (l : Trace) : Nat := l.countP isSpawn

/-- A signal the monitor or the throttle sends. -/
def childSignal : Event → Option (Caller × Int)
  | ⟨⟨.hook, _⟩, _⟩ => none
  | ⟨⟨caller, .kill _ sig⟩, _⟩ | ⟨⟨caller, .killpg _ sig⟩, _⟩ => some (caller, sig)
  | _ => none

/-- The signals sent to the child, newest first. -/
def childSignals (l : Trace) : List (Caller × Int) := l.filterMap childSignal

/-- A line the monitor prints while it waits. -/
def heartbeatOf (w : Watch) (e : Event) : Option String :=
  match e.req with
  | ⟨.monitor, .eprintln line⟩ => if w.looping then some line else none
  | _ => none

/-- The heartbeats printed, newest first. -/
def heartbeats (w₀ : Watch) : Trace → List String
  | [] => []
  | e :: l => (heartbeatOf (watch w₀ l) e).toList ++ heartbeats w₀ l

/-- The oldest reading of a kind. -/
def oldest {α : Type} (f : Event → Option α) (l : Trace) : Option α := (l.filterMap f).getLast?

theorem oldest_cons {α : Type} {f : Event → Option α} {e : Event} {l : Trace} {a : α}
    (h : oldest f l = some a) : oldest f (e :: l) = some a := by
  cases he : f e with
  | none => rw [oldest, List.filterMap_cons_none he]; exact h
  | some b =>
    rw [oldest, List.filterMap_cons_some he, List.getLast?_cons, ← oldest, h]
    rfl

theorem oldest_first {α : Type} {f : Event → Option α} {e : Event} {l : Trace} {a : α}
    (h : oldest f l = none) (he : f e = some a) : oldest f (e :: l) = some a := by
  rw [oldest, List.filterMap_cons_some he, List.getLast?_cons, ← oldest, h]
  rfl

theorem not_exitNotice {w₀ : Watch} {e : Event} {l : Trace} (h : isKevent e = false) :
    ¬ ExitNotice w₀ e l := by
  obtain ⟨⟨caller, call⟩, a⟩ := e
  cases caller <;> cases call <;> first | exact id | cases h

/-! ## The budget of the throttle, read off the log -/

def throttleReading : Event → Option RusageInfo
  | ⟨⟨.throttle, .procPidRusage _⟩, r⟩ => r
  | _ => none

def monitorClock : Event → Option Nat
  | ⟨⟨.monitor, .wallNow⟩, r⟩ => r.map UInt64.toNat
  | ⟨⟨.monitor, .activeNow⟩, t⟩ => some t.toNat
  | _ => none

/-- A reading of the throttle over its budget: the CPU time since its first reading, the
    wall time since the monitor's. -/
def OverBudget (cfg : CpuThrottleConfig) (w₀ : Watch) (e : Event) (l : Trace) : Prop :=
  ∃ info first startNs, throttleReading e = some info ∧ oldest throttleReading l = some first ∧
    oldest monitorClock l = some startNs ∧ (watch w₀ l).clock - startNs ≠ 0 ∧
    cpuBudgetNs ((watch w₀ l).clock - startNs) cfg.percent < info.cpuTimeNs - first.cpuTimeNs

instance (cfg : CpuThrottleConfig) (w₀ : Watch) (e : Event) (l : Trace) :
    Decidable (OverBudget cfg w₀ e l) :=
  decidable_of_iff (∃ info ∈ throttleReading e, ∃ first ∈ oldest throttleReading l,
      ∃ startNs ∈ oldest monitorClock l, (watch w₀ l).clock - startNs ≠ 0 ∧
        cpuBudgetNs ((watch w₀ l).clock - startNs) cfg.percent < info.cpuTimeNs - first.cpuTimeNs)
    ⟨fun ⟨info, hinfo, first, hfirst, startNs, hstart, h⟩ =>
        ⟨info, first, startNs, hinfo, hfirst, hstart, h⟩,
      fun ⟨info, first, startNs, hinfo, hfirst, hstart, h⟩ =>
        ⟨info, hinfo, first, hfirst, startNs, hstart, h⟩⟩

/-- No reading of the throttle was over the budget. -/
def BudgetKept (config : RunConfig) (l : Trace) : Prop :=
  ∀ cfg, config.cpuThrottle = some cfg → ¬ Ever (OverBudget cfg (Watch.ofConfig config)) l

instance (config : RunConfig) (l : Trace) : Decidable (BudgetKept config l) :=
  inferInstanceAs (Decidable (∀ cfg ∈ config.cpuThrottle, _))

theorem BudgetKept.tail {config : RunConfig} {e : Event} {l : Trace}
    (h : BudgetKept config (e :: l)) : BudgetKept config l :=
  fun cfg hcfg hover => h cfg hcfg (.inr hover)

/-! ## The answers -/

/-- The timer's event has been taken, and since then the monitor has only read the clock. -/
def ticking : Trace → Bool
  | [] => false
  | ⟨⟨.monitor, .wallNow⟩, _⟩ :: l | ⟨⟨.monitor, .activeNow⟩, _⟩ :: l => ticking l
  | ⟨⟨.monitor, .kevent _ _⟩, .ok ev⟩ :: _ => ev.filter == EVFILT_TIMER
  | ⟨⟨.monitor, _⟩, _⟩ :: _ => false
  | _ :: l => ticking l

theorem ticking_closed {l : Trace} (h : KqClosed l) : ticking l = false := by
  cases l with
  | nil => rfl
  | cons e l =>
    obtain ⟨⟨caller, call⟩, ans⟩ := e
    rcases h with ⟨fd, h | h⟩
    · cases h
      rfl
    · cases h
      rfl

/-- In passthrough mode a tick polls stdin before it looks at the timeouts. -/
def PollToCome (config : RunConfig) (l : Trace) : Prop :=
  config.stdinPassthrough = true ∧ ticking l = true

instance (config : RunConfig) (l : Trace) : Decidable (PollToCome config l) :=
  inferInstanceAs (Decidable (_ ∧ _))

/-- No limit has been reached, no signal came in and nothing failed so far. -/
structure Calm (config : RunConfig) (pid : Int) (w₀ : Watch) (l : Trace) : Prop where
  due : (watch w₀ l).looping = true → ¬ PollToCome config l → ¬ Due config pid w₀ l
  signal : ∀ s, ¬ Ever (SignalByte s) l
  sound : ¬ Ever (Fatal w₀) l

/-- The spawn gives the child `pid`. -/
def SpawnAnswer (pid : Int) : Event → Prop
  | ⟨⟨.monitor, .posixSpawnp _ _ _⟩, r⟩ => r = .ok pid
  | ⟨⟨.monitor, .fork _ _ _ _ _⟩, r⟩ => r = .ok pid
  | _ => True

/-- A wait on the child ends with `st`, or is interrupted, at most `interruptions` times. -/
def WaitAnswer (st : RawExitStatus × Rusage) (interruptions : Nat) : Event → Trace → Prop
  | ⟨⟨.monitor, .wait4 _⟩, .ok st'⟩, _ => st' = st
  | ⟨⟨.monitor, .wait4 _⟩, .error err⟩, l => err = EINTR ∧ interrupts l < interruptions
  | ⟨⟨.monitor, .wait4NoHang _⟩, .ok (some st')⟩, _ => st' = st
  | _, _ => True

/-- The child `pid` ends with `st`. -/
structure Ending (pid : Int) (st : RawExitStatus × Rusage) (interruptions : Nat) (e : Event)
    (l : Trace) : Prop where
  spawn : SpawnAnswer pid e
  wait : WaitAnswer st interruptions e l

/-- The child ends in time: the exit notice is among the first `calls + 1` kevent answers,
    and the log is calm until then. -/
structure Timely (config : RunConfig) (pid : Int) (st : RawExitStatus × Rusage)
    (calls interruptions : Nat) (e : Event) (l : Trace) : Prop
    extends Ending pid st interruptions e l where
  notice : isKevent e = true → kevents l < calls ∨ ExitNotice (Watch.ofConfig config) e l
  calm : ¬ Ever (ExitNotice (Watch.ofConfig config)) l →
    Calm config pid (Watch.ofConfig config) (e :: l)

section decide
variable {config : RunConfig} {pid : Int} {st : RawExitStatus × Rusage} {calls interruptions : Nat}
  {w₀ : Watch} {e : Event} {l : Trace}

theorem calm_iff : Calm config pid w₀ l ↔
    ((watch w₀ l).looping = true → ¬ PollToCome config l → ¬ Due config pid w₀ l) ∧
      ¬ Ever (fun e l => ∃ sig, SignalByte sig e l) l ∧ ¬ Ever (Fatal w₀) l := by
  rw [Ever.exists_iff, not_exists]
  exact ⟨fun h => ⟨h.due, h.signal, h.sound⟩, fun h => ⟨h.1, h.2.1, h.2.2⟩⟩

instance : Decidable (Calm config pid w₀ l) := decidable_of_iff _ calm_iff.symm

instance : Decidable (SpawnAnswer pid e) := by
  obtain ⟨⟨caller, call⟩, a⟩ := e
  rcases caller with _ | _ <;> rcases call with _ | _ <;> first
    | exact isTrue trivial
    | exact inferInstanceAs (Decidable (_ = _))

instance : Decidable (WaitAnswer st interruptions e l) := by
  obtain ⟨⟨caller, call⟩, a⟩ := e
  rcases caller with _ | _ <;> rcases call with _ | _ <;> first
    | exact isTrue trivial
    | rcases a with _ | _ <;> first
      | exact isTrue trivial
      | exact inferInstanceAs (Decidable (_ = _))
      | exact inferInstanceAs (Decidable (_ ∧ _))
      | rename_i o
        rcases o with _ | _ <;> first
          | exact isTrue trivial
          | exact inferInstanceAs (Decidable (_ = _))

instance : Decidable (Ending pid st interruptions e l) :=
  decidable_of_iff (SpawnAnswer pid e ∧ WaitAnswer st interruptions e l)
    ⟨fun h => ⟨h.1, h.2⟩, fun h => ⟨h.1, h.2⟩⟩

instance : Decidable (Timely config pid st calls interruptions e l) :=
  decidable_of_iff (Ending pid st interruptions e l ∧
      (isKevent e = true → kevents l < calls ∨ ExitNotice (Watch.ofConfig config) e l) ∧
      (¬ Ever (ExitNotice (Watch.ofConfig config)) l →
        Calm config pid (Watch.ofConfig config) (e :: l)))
    ⟨fun h => ⟨h.1, h.2.1, h.2.2⟩, fun h => ⟨h.1, h.2, h.3⟩⟩

end decide

/-- The answers of a timely run, under which no loop may run out of fuel. -/
def timely (config : RunConfig) (pid : Int) (st : RawExitStatus × Rusage)
    (calls interruptions : Nat) : Contract Ans where
  rely := Timely config pid st calls interruptions
  cut _ := False

theorem timely_ending (config : RunConfig) (pid : Int) (st : RawExitStatus × Rusage)
    (calls interruptions : Nat) (e : Event) (l : Trace)
    (hr : (timely config pid st calls interruptions).rely e l) : Ending pid st interruptions e l :=
  hr.toEnding

/-- The same for a run that only waits. -/
def ending (pid : Int) (st : RawExitStatus × Rusage) (interruptions : Nat) : Contract Ans where
  rely := Ending pid st interruptions
  cut _ := False

/-! ## What a calm run leaves in the log -/

/-- The event prints a heartbeat. -/
def BeatLine (e : Event) : Prop :=
  ∃ elapsed pid, e.req.call = .eprintln (heartbeatLine elapsed pid)

/-- The record of a run so far: the command was spawned `spawned` times; the throttle
    started from the oldest readings and, within the budget, sent nothing; what was printed
    during the wait are heartbeats, and none unless one was asked for. -/
structure Record (config : RunConfig) (spawned : Nat) (h : Handles) (l : Trace) : Prop where
  spawned : spawns l = spawned
  cfg : ∀ ctx, h.throttle = some ctx → config.cpuThrottle = some ctx.cfg
  cpu : ∀ ctx, h.throttle = some ctx →
    ∃ first, oldest throttleReading l = some first ∧ ctx.state.startCpuNs = first.cpuTimeNs
  wall : ∀ ctx, h.throttle = some ctx → oldest monitorClock l = some ctx.state.startWallNs
  silent : BudgetKept config l → childSignals l = [] ∧
    ∀ ctx, h.throttle = some ctx → ctx.state.suspended = false
  unheard : config.heartbeat = none ∨ config.quiet = true →
    heartbeats (Watch.ofConfig config) l = []
  lines : Always (fun e l => heartbeatOf (watch (Watch.ofConfig config) l) e ≠ none → BeatLine e) l

namespace Record
variable {config : RunConfig} {spawned : Nat} {h : Handles} {e : Event} {l : Trace}

theorem event (hr : Record config spawned h l) (hspawn : isSpawn e = false)
    (hsig : childSignal e = none)
    (hbeat : heartbeatOf (watch (Watch.ofConfig config) l) e = none ∨
      BeatLine e ∧ ¬ (config.heartbeat = none ∨ config.quiet = true)) :
    Record config spawned h (e :: l) where
  spawned := by rw [spawns, List.countP_cons, hspawn]; exact hr.spawned
  cfg := hr.cfg
  cpu ctx hctx := by
    obtain ⟨first, hfirst, hcpu⟩ := hr.cpu ctx hctx
    exact ⟨first, oldest_cons hfirst, hcpu⟩
  wall ctx hctx := oldest_cons (hr.wall ctx hctx)
  silent hbudget := by
    obtain ⟨hsignals, hsus⟩ := hr.silent hbudget.tail
    exact ⟨by rw [childSignals, List.filterMap_cons_none hsig]; exact hsignals, hsus⟩
  unheard hq := by
    rw [heartbeats, hbeat.resolve_right fun hasked => hasked.2 hq]
    exact hr.unheard hq
  lines := ⟨fun hne => (hbeat.resolve_left hne).1, hr.lines⟩

/-- The record says nothing of the child's handle. -/
theorem child {h' : Handles} (hr : Record config spawned h l) (hsame : h'.throttle = h.throttle) :
    Record config spawned h' l where
  spawned := hr.spawned
  cfg := by rw [hsame]; exact hr.cfg
  cpu := by rw [hsame]; exact hr.cpu
  wall := by rw [hsame]; exact hr.wall
  silent := by rw [hsame]; exact hr.silent
  unheard := hr.unheard
  lines := hr.lines

/-- A new state of the throttle, with the same totals. -/
theorem throttled (hr : Record config spawned h l) {ctx : ThrottleContext} {st : CpuThrottleState}
    (hctx : h.throttle = some ctx) (hcpu : st.startCpuNs = ctx.state.startCpuNs)
    (hwall : st.startWallNs = ctx.state.startWallNs)
    (hsus : BudgetKept config l → st.suspended = false) :
    Record config spawned { h with throttle := some { ctx with state := st } } l where
  spawned := hr.spawned
  cfg := by rintro _ ⟨⟩; exact hr.cfg ctx hctx
  cpu := by
    rintro _ ⟨⟩
    obtain ⟨first, hfirst, hstart⟩ := hr.cpu ctx hctx
    exact ⟨first, hfirst, hcpu.trans hstart⟩
  wall := by rintro _ ⟨⟩; exact (hr.wall ctx hctx).trans (congrArg some hwall.symm)
  silent hbudget := ⟨(hr.silent hbudget).1, by rintro _ ⟨⟩; exact hsus hbudget⟩
  unheard := hr.unheard
  lines := hr.lines

/-- A signal of the throttle, when a reading was over the budget. -/
theorem throttleKill (hr : Record config spawned h l) {ctx : ThrottleContext}
    {st : CpuThrottleState} {p sig : Int} {a : Ans ⟨.throttle, .kill p sig⟩}
    (hctx : h.throttle = some ctx) (hcpu : st.startCpuNs = ctx.state.startCpuNs)
    (hwall : st.startWallNs = ctx.state.startWallNs) (hover : ¬ BudgetKept config l) :
    Record config spawned { h with throttle := some { ctx with state := st } }
      (⟨⟨.throttle, .kill p sig⟩, a⟩ :: l) where
  spawned := hr.spawned
  cfg := by rintro _ ⟨⟩; exact hr.cfg ctx hctx
  cpu := by
    rintro _ ⟨⟩
    obtain ⟨first, hfirst, hstart⟩ := hr.cpu ctx hctx
    exact ⟨first, oldest_cons hfirst, hcpu.trans hstart⟩
  wall := by
    rintro _ ⟨⟩
    exact oldest_cons ((hr.wall ctx hctx).trans (congrArg some hwall.symm))
  silent hbudget := absurd hbudget.tail hover
  unheard := hr.unheard
  lines := ⟨fun hne => absurd rfl hne, hr.lines⟩

/-- Within the budget the throttle finds its totals within the budget. -/
theorem within (hr : Record config spawned h l) {ctx : ThrottleContext} {p : Int}
    {info : RusageInfo} (hctx : h.throttle = some ctx)
    (hbudget : BudgetKept config (⟨⟨.throttle, .procPidRusage p⟩, some info⟩ :: l))
    (hwall : ctx.state.totalWallNs (watch (Watch.ofConfig config) l).clock ≠ 0) :
    ctx.state.overBudget ctx.cfg (watch (Watch.ofConfig config) l).clock info.cpuTimeNs = false := by
  obtain ⟨first, hfirst, hcpu⟩ := hr.cpu ctx hctx
  have hno := hbudget ctx.cfg (hr.cfg ctx hctx)
  by_contra hover
  refine hno (.inl ⟨info, first, _, rfl, hfirst, hr.wall ctx hctx, hwall, ?_⟩)
  rw [← hcpu]
  exact of_decide_eq_true (Bool.not_eq_false _ ▸ hover)

end Record

/-- The first wait of a timely run, before the exit notice, `n` kevent calls left. -/
structure Pending (config : RunConfig) (pid : Int) (calls spawned n : Nat) (h : Handles)
    (l : Trace) : Prop where
  child : h.child = { pid }
  calm : Calm config pid (Watch.ofConfig config) l
  unnoticed : ¬ Ever (ExitNotice (Watch.ofConfig config)) l
  calls_le : kevents l ≤ calls
  left : calls < n + kevents l
  uninterrupted : interrupts l = 0
  record : Record config spawned h l

/-- The same after the exit notice. -/
structure Noticed (config : RunConfig) (pid : Int) (spawned : Nat) (h : Handles) (l : Trace) :
    Prop where
  child : h.child = { pid }
  uninterrupted : interrupts l = 0
  record : Record config spawned h l

/-- How the first wait of a timely run ends. -/
def EndsWith (config : RunConfig) (st : RawExitStatus × Rusage) (spawned : Nat) :
    Except TimeoutError WaitResult → Handles → Trace → Prop
  | .ok (.exited status rusage), h, l => status = st.1 ∧ rusage = rusageToResourceUsage st.2 ∧
    Record config spawned h l
  | _, _, _ => False

section wait
variable {config : RunConfig} {pid : Int} {st : RawExitStatus × Rusage}
  {calls interruptions spawned fuel n : Nat} {h h' : Handles} {e : Event} {l : Trace}

theorem Pending.event (hp : Pending config pid calls spawned n h l)
    (hr : Timely config pid st calls interruptions e l) (hkevent : isKevent e = false)
    (hint : isInterrupt e = false) (hchild : h'.child = h.child)
    (hrecord : Record config spawned h' (e :: l)) :
    Pending config pid calls spawned n h' (e :: l) where
  child := hchild.trans hp.child
  calm := hr.calm hp.unnoticed
  unnoticed := fun hever => hever.elim (not_exitNotice hkevent) hp.unnoticed
  calls_le := by rw [kevents, List.countP_cons, hkevent]; exact hp.calls_le
  left := by rw [kevents, List.countP_cons, hkevent]; exact hp.left
  uninterrupted := by rw [interrupts, List.countP_cons, hint]; exact hp.uninterrupted
  record := hrecord

/-- A call that only looks leaves no trace in the record. -/
theorem asks_looks {q : Req} (hp : Pending config pid calls spawned n h l)
    (hq : q.looks pid = true) :
    Asks (timely config pid st calls interruptions) q l fun _ l' =>
      Pending config pid calls spawned n h l' := by
  intro a hr
  refine ⟨trivial, hp.event hr ?_ ?_ rfl (hp.record.event ?_ ?_ (.inl ?_))⟩ <;>
  · obtain ⟨caller, call⟩ := q
    cases caller <;> cases call <;> first | rfl | cases hq

/-- The throttle's check, which does nothing while the budget is kept. -/
theorem Pending.update {ctx : ThrottleContext} (hp : Pending config pid calls spawned n h l)
    (hctx : h.throttle = some ctx) :
    (CpuThrottleState.update ctx.cfg (watch (Watch.ofConfig config) l).clock).Ensures
      (timely config pid st calls interruptions) ctx.state l fun _ s l' =>
        Pending config pid calls spawned n { h with throttle := some { ctx with state := s } } l' := by
  rw [CpuThrottleState.ensures_update]
  intro r hr
  refine ⟨trivial, ?_⟩
  have hrec := hp.record.event (e := ⟨⟨.throttle, .procPidRusage ctx.state.pid⟩, r⟩) rfl rfl
    (.inl rfl)
  have hread : ∀ s : CpuThrottleState, s.startCpuNs = ctx.state.startCpuNs →
      s.startWallNs = ctx.state.startWallNs →
      (BudgetKept config (⟨⟨.throttle, .procPidRusage ctx.state.pid⟩, r⟩ :: l) →
        s.suspended = false) →
      Pending config pid calls spawned n { h with throttle := some { ctx with state := s } }
        (⟨⟨.throttle, .procPidRusage ctx.state.pid⟩, r⟩ :: l) :=
    fun s hcpu hwall hsus => hp.event hr rfl rfl rfl (hrec.throttled hctx hcpu hwall hsus)
  cases r with
  | none => exact hread _ rfl rfl fun _ => rfl
  | some info =>
    dsimp only
    split
    · exact hread _ rfl rfl fun hb => (hrec.silent hb).2 ctx hctx
    · next hwall =>
      have hp₁ := hread ctx.state rfl rfl fun hb => (hrec.silent hb).2 ctx hctx
      have hkill : ∀ (s : CpuThrottleState) (sig : Int) (a : Ans ⟨.throttle, .kill ctx.state.pid sig⟩),
          Timely config pid st calls interruptions ⟨⟨.throttle, .kill ctx.state.pid sig⟩, a⟩
            (⟨⟨.throttle, .procPidRusage ctx.state.pid⟩, some info⟩ :: l) →
          s.startCpuNs = ctx.state.startCpuNs → s.startWallNs = ctx.state.startWallNs →
          ¬ BudgetKept config (⟨⟨.throttle, .procPidRusage ctx.state.pid⟩, some info⟩ :: l) →
          Pending config pid calls spawned n { h with throttle := some { ctx with state := s } }
            (⟨⟨.throttle, .kill ctx.state.pid sig⟩, a⟩ ::
              ⟨⟨.throttle, .procPidRusage ctx.state.pid⟩, some info⟩ :: l) :=
        fun s sig a hr hcpu hwall hover => hp₁.event hr rfl rfl rfl
          (hrec.throttleKill hctx hcpu hwall hover)
      rw [CpuThrottleState.ensures_steer]
      split
      · next hsteer =>
        -- over the budget
        refine fun a hr => ⟨trivial, hkill _ _ a hr ?_ ?_ fun hb => ?_⟩
        · cases a <;> rfl
        · cases a <;> rfl
        · rw [hp.record.within hctx hb hwall] at hsteer
          cases hsteer
      · split
        · next hsteer =>
          -- suspended, so some reading was over the budget before
          refine fun a hr => ⟨trivial, hkill _ _ a hr ?_ ?_ fun hb => ?_⟩
          · cases a <;> rfl
          · cases a <;> rfl
          · rw [(hrec.silent hb).2 ctx hctx, Bool.and_false] at hsteer
            cases hsteer
        · exact hread _ rfl rfl fun hb => (hrec.silent hb).2 ctx hctx

/-- A blocking wait on a child that ends: `m` calls are left, more than there are
    interruptions to come. -/
structure Blocking (config : RunConfig) (pid : Int) (interruptions spawned m : Nat) (h : Handles)
    (l : Trace) : Prop where
  child : h.child = { pid }
  interrupts_le : interrupts l ≤ interruptions
  left : interruptions < m + interrupts l
  record : Record config spawned h l

theorem asks_blocking {K : Contract Ans} (hguar : ∀ e l, K.guar e l)
    (hrely : ∀ e l, K.rely e l → Ending pid st interruptions e l)
    (hb : Blocking config pid interruptions spawned (n + 1) h l) :
    Asks K ⟨.monitor, .wait4 h.child.pid⟩ l fun r l' => match r with
      | .ok st' => st' = st ∧ Record config spawned h.reaped l'
      | .error err => err = EINTR ∧ Blocking config pid interruptions spawned n h l' := by
  obtain ⟨hchild, hle, hlt, hrec⟩ := hb
  intro r hr
  have hwait := (hrely _ l hr).wait
  have hrec' := hrec.event (e := ⟨⟨.monitor, .wait4 h.child.pid⟩, r⟩) rfl rfl (.inl rfl)
  refine ⟨hguar _ l, ?_⟩
  cases r with
  | ok st' => exact ⟨hwait, hrec'.child rfl⟩
  | error err =>
    obtain ⟨hintr, hbound⟩ := hwait
    subst hintr
    have hcount : interrupts (⟨⟨.monitor, .wait4 h.child.pid⟩, .error EINTR⟩ :: l) =
        interrupts l + 1 := by
      rw [interrupts, List.countP_cons]
      rfl
    exact ⟨rfl, hchild, by omega, by omega, hrec'⟩

theorem Blocking.cut (hb : Blocking config pid interruptions spawned 0 h l) : False := by
  have hle := hb.interrupts_le
  have hlt := hb.left
  omega

theorem Noticed.blocking (hn : Noticed config pid spawned h l) (hfuel : interruptions < fuel) :
    Blocking config pid interruptions spawned fuel h l := by
  have hzero := hn.uninterrupted
  exact ⟨hn.child, by omega, by omega, hn.record⟩

theorem Noticed.wait {K : Contract Ans} (hguar : ∀ e l, K.guar e l)
    (hrely : ∀ e l, K.rely e l → Ending pid st interruptions e l)
    (hn : Noticed config pid spawned h l) (hfuel : interruptions < fuel) :
    (childWaitOrFail fuel).Ensures K h l fun r h' l' =>
      r = .ok (st.1, rusageToResourceUsage st.2) ∧ Record config spawned h' l' := by
  refine childWaitOrFail_ensures (fun m l => Blocking config pid interruptions spawned m h l)
    (by rw [hn.child]) ?_ (fun l hb => hb.cut.elim) (hn.blocking hfuel)
  intro m l hb
  refine (asks_blocking hguar hrely hb).mono fun r hr => ?_
  cases r with
  | ok st' =>
    obtain ⟨rfl, hrec⟩ := hr
    exact ⟨rfl, hrec⟩
  | error err =>
    dsimp only
    rw [if_pos hr.1]
    exact hr.2

theorem Noticed.reapGone (hn : Noticed config pid spawned h l) (hfuel : interruptions < fuel) :
    (reapGone fuel).Ensures (timely config pid st calls interruptions) h l
      (EndsWith config st spawned) := by
  refine reapGone_ensures (fun m l => Blocking config pid interruptions spawned m h l)
    (by rw [hn.child]) ?_ ?_ fun l hb => hb.cut
  · intro r hr
    have hrec := hn.record.event (e := ⟨⟨.monitor, .wait4NoHang h.child.pid⟩, r⟩) rfl rfl (.inl rfl)
    have hblock : interrupts (⟨⟨.monitor, .wait4NoHang h.child.pid⟩, r⟩ :: l) = 0 := by
      rw [interrupts, List.countP_cons]
      exact hn.uninterrupted
    have hn' : Noticed config pid spawned h (⟨⟨.monitor, .wait4NoHang h.child.pid⟩, r⟩ :: l) :=
      ⟨hn.child, hblock, hrec⟩
    refine ⟨trivial, ?_⟩
    match r, hr with
    | .ok (some st'), hr =>
      have hst : st' = st := hr.wait
      subst hst
      exact ⟨rfl, rfl, hrec.child rfl⟩
    | .ok none, _ => exact hn'.blocking hfuel
    | .error _, _ => exact hn'.blocking hfuel
  · intro m l hb
    refine (asks_blocking (fun _ _ => trivial)
      (timely_ending config pid st calls interruptions) hb).mono fun r hr => ?_
    cases r with
    | ok st' =>
      obtain ⟨rfl, hrec⟩ := hr
      exact ⟨rfl, rfl, hrec⟩
    | error err =>
      dsimp only
      rw [if_pos hr.1]
      exact hr.2

/-- The first wait of a timely run. -/
theorem timely_inert {startNs : Nat} (hfuel : interruptions < fuel) :
    Inert (timely config pid st calls interruptions) (Watch.ofConfig config) fuel
      (waitArgsOf config pid startNs)
      (fun n h l => Pending config pid calls spawned n h l) (Noticed config pid spawned)
      (EndsWith config st spawned) where
  cut h l hp := by
    have hle := hp.calls_le
    have hlt := hp.left
    show False
    omega
  look n q h l hp hq := asks_looks hp hq
  line n h l hb elapsed hp hhb hquiet := by
    intro a hr
    refine ⟨trivial, hp.event hr rfl rfl rfl (hp.record.event rfl rfl (.inr ⟨⟨_, _, rfl⟩, fun hq => ?_⟩))⟩
    -- a heartbeat was asked for
    obtain ⟨interval, hint, rfl⟩ := Option.map_eq_some_iff.mp hhb
    rcases hq with hnone | hq
    · rw [hint] at hnone
      cases hnone
    · rw [hq] at hquiet
      cases hquiet
  kevent n kq cs h l hp := by
    intro r hr
    have hrec := hp.record.event (e := ⟨⟨.monitor, .kevent kq cs⟩, r⟩) rfl rfl (.inl rfl)
    have hcount : kevents (⟨⟨.monitor, .kevent kq cs⟩, r⟩ :: l) = kevents l + 1 := by
      rw [kevents, List.countP_cons]
      rfl
    have hzero : interrupts (⟨⟨.monitor, .kevent kq cs⟩, r⟩ :: l) = 0 := by
      rw [interrupts, List.countP_cons]
      exact hp.uninterrupted
    refine ⟨trivial, fun _ => ⟨hp.child, hzero, hrec⟩, fun hno => ?_⟩
    have hlt := (hr.notice rfl).resolve_right hno
    have hleft := hp.left
    exact ⟨hp.child, hr.calm hp.unnoticed, fun hever => hever.elim hno hp.unnoticed, by omega,
      by omega, hzero, hrec⟩
  close fd h l hn := by
    intro a _
    refine ⟨trivial, hn.child, ?_, hn.record.event rfl rfl (.inl rfl)⟩
    rw [interrupts, List.countP_cons]
    exact hn.uninterrupted
  update n h l ctx hp hctx := hp.update hctx
  gone h l hn _ := hn.reapGone hfuel
  exited h l hn := by
    refine (hn.wait (fun _ _ => trivial)
      (timely_ending config pid st calls interruptions) hfuel).mono fun r h' l' hr => ?_
    obtain ⟨rfl, hrec⟩ := hr
    exact ⟨rfl, rfl, hrec⟩
  verdict n h l r hp hv hset hc := by
    exfalso
    -- the poll of the tick, if there is one, is over
    have hpolled : ¬ PollToCome config l := fun hpoll => by
      rw [PollToCome, ticking_closed hc] at hpoll
      cases hpoll.2
    cases r with
    | exited _ _ => exact hv
    | timedOut _ => exact hp.calm.due hset.2 hpolled (.of_timeout hv)
    | memoryLimitExceeded _ _ => exact hp.calm.due hset.2 hpolled (.of_memory hv)
    | receivedSignal sig => exact hp.calm.signal sig hv
  fail n h l e hp hfatal := absurd hfatal hp.calm.sound

end wait

/-! ## The whole run -/

/-- A log from which the run of a child starts: nothing of the run is in it but the
    spawn. -/
structure Opening (w₀ : Watch) (spawned : Nat) (l : Trace) : Prop where
  watch_eq : watch w₀ l = w₀
  unnoticed : ¬ Ever (ExitNotice w₀) l
  kevents_eq : kevents l = 0
  interrupts_eq : interrupts l = 0
  spawned : spawns l = spawned
  signals : childSignals l = []
  beats : heartbeats w₀ l = []
  readings : oldest throttleReading l = none
  clock : oldest monitorClock l = none

theorem Opening.nil (w₀ : Watch) : Opening w₀ 0 [] :=
  ⟨rfl, id, rfl, rfl, rfl, rfl, rfl, rfl, rfl⟩

/-- A call that is no part of the run of a child. -/
theorem Opening.event {w₀ : Watch} {spawned k : Nat} {e : Event} {l : Trace}
    (ho : Opening w₀ spawned l) (hspawn : (isSpawn e).toNat = k) (hkevent : isKevent e = false)
    (hint : isInterrupt e = false) (hsig : childSignal e = none) (hbeat : heartbeatOf w₀ e = none)
    (hread : throttleReading e = none) (hclock : monitorClock e = none) (hstep : w₀.step e = w₀) :
    Opening w₀ (spawned + k) (e :: l) where
  watch_eq := by rw [watch_cons, ho.watch_eq]; exact hstep
  unnoticed hever := hever.elim (not_exitNotice hkevent) ho.unnoticed
  kevents_eq := by rw [kevents, List.countP_cons, hkevent]; exact ho.kevents_eq
  interrupts_eq := by rw [interrupts, List.countP_cons, hint]; exact ho.interrupts_eq
  spawned := by
    rw [spawns, List.countP_cons, ← spawns, ho.spawned, ← hspawn]
    cases isSpawn e <;> rfl
  signals := by rw [childSignals, List.filterMap_cons_none hsig]; exact ho.signals
  beats := by rw [heartbeats, ho.watch_eq, hbeat]; exact ho.beats
  readings := by rw [oldest, List.filterMap_cons_none hread]; exact ho.readings
  clock := by rw [oldest, List.filterMap_cons_none hclock]; exact ho.clock

theorem lines_of_silent {w₀ : Watch} {l : Trace} (h : heartbeats w₀ l = []) :
    Always (fun e l => heartbeatOf (watch w₀ l) e ≠ none → BeatLine e) l := by
  induction l with
  | nil => exact trivial
  | cons e l ih =>
    obtain ⟨hnone, hrest⟩ := List.append_eq_nil_iff.mp h
    refine ⟨fun hne => ?_, ih hrest⟩
    exact absurd (Option.toList_eq_nil_iff.mp hnone) hne

/-- How a timely run ends. -/
structure Finished (config : RunConfig) (st : RawExitStatus × Rusage) (spawned : Nat)
    (r : Except TimeoutError RunResult) (l : Trace) : Prop where
  result : r = .ok (.completed st.1 (rusageToResourceUsage st.2))
  spawned : spawns l = spawned
  silent : BudgetKept config l → childSignals l = []
  unheard : config.heartbeat = none ∨ config.quiet = true →
    heartbeats (Watch.ofConfig config) l = []
  lines : Always (fun e l => heartbeatOf (watch (Watch.ofConfig config) l) e ≠ none → BeatLine e) l

theorem Record.finished {config : RunConfig} {st : RawExitStatus × Rusage} {spawned : Nat}
    {h : Handles} {l : Trace} (hr : Record config spawned h l) :
    Finished config st spawned (.ok (.completed st.1 (rusageToResourceUsage st.2))) l :=
  ⟨rfl, hr.spawned, fun hb => (hr.silent hb).1, hr.unheard, hr.lines⟩

section run
variable {config : RunConfig} {pid : Int} {st : RawExitStatus × Rusage}
  {calls interruptions spawned fuel n : Nat} {h : Handles} {l : Trace}

theorem Opening.record (ho : Opening (Watch.ofConfig config) spawned l) (hnone : h.throttle = none) :
    Record config spawned h l := by
  refine ⟨ho.spawned, ?_, ?_, ?_, fun _ => ⟨ho.signals, ?_⟩, fun _ => ho.beats,
    lines_of_silent ho.beats⟩ <;>
  · intro ctx hctx
    rw [hnone] at hctx
    cases hctx

theorem attachThrottle_timely {startNs : Nat} (hp : Pending config pid calls spawned n h l)
    (hread : oldest throttleReading l = none)
    (hclock : oldest monitorClock l = some startNs)
    (hloop : (watch (Watch.ofConfig config) l).looping = false) :
    (attachThrottle config pid startNs).Ensures (timely config pid st calls interruptions) h l
      fun r h' l' => r = .ok () ∧ Pending config pid calls spawned n h' l' ∧
        watch (Watch.ofConfig config) l' = watch (Watch.ofConfig config) l := by
  unfold attachThrottle
  cases hcfg : config.cpuThrottle with
  | none => exact ⟨rfl, hp, rfl⟩
  | some cfg =>
    dsimp only
    rw [Act.ensures_bind, Act.ensures_exec, CpuThrottleState.new]
    intro r hr
    refine ⟨trivial, ?_⟩
    have hrec := hp.record.event (e := ⟨⟨.throttle, .procPidRusage pid⟩, r⟩) rfl rfl (.inl rfl)
    cases r with
    | some info =>
      refine ⟨rfl, hp.event hr rfl rfl rfl ?_, rfl⟩
      -- the totals of the throttle start here
      refine ⟨hrec.spawned, ?_, ?_, ?_, fun hb => ⟨(hrec.silent hb).1, ?_⟩, hrec.unheard,
        hrec.lines⟩
      · rintro _ ⟨⟩
        exact hcfg
      · rintro _ ⟨⟩
        exact ⟨info, oldest_first hread rfl, rfl⟩
      · rintro _ ⟨⟩
        exact oldest_cons hclock
      · rintro _ ⟨⟩
        rfl
    | none =>
      have hp' : Pending config pid calls spawned n h (⟨⟨.throttle, .procPidRusage pid⟩, none⟩ :: l) :=
        hp.event hr rfl rfl rfl hrec
      dsimp only
      split
      · exact ⟨rfl, hp', rfl⟩
      · intro a ha
        refine ⟨trivial, rfl, hp'.event ha rfl rfl rfl (hrec.event rfl rfl (.inl ?_)), rfl⟩
        show (if (watch (Watch.ofConfig config) l).looping then _ else none) = _
        rw [hloop]
        rfl

theorem Record.markExited (hr : Record config spawned h l) :
    Record config spawned h.markExited l where
  spawned := hr.spawned
  cfg ctx hctx := by
    obtain ⟨c, hc, rfl⟩ := Option.map_eq_some_iff.mp hctx
    exact hr.cfg c hc
  cpu ctx hctx := by
    obtain ⟨c, hc, rfl⟩ := Option.map_eq_some_iff.mp hctx
    exact hr.cpu c hc
  wall ctx hctx := by
    obtain ⟨c, hc, rfl⟩ := Option.map_eq_some_iff.mp hctx
    exact hr.wall c hc
  silent hb := by
    refine ⟨(hr.silent hb).1, fun ctx hctx => ?_⟩
    obtain ⟨c, -, rfl⟩ := Option.map_eq_some_iff.mp hctx
    rfl
  unheard := hr.unheard
  lines := hr.lines

/-- A throttle that was told of the exit has nothing to do when it is dropped. -/
theorem dropThrottle_marked (h : Handles) : dropThrottle h.markExited = .done h.markExited := by
  obtain ⟨child, throttle⟩ := h
  cases throttle with
  | none => rfl
  | some ctx => rfl

theorem supervise_timely {startNs : Nat} (hints : interruptions < fuel)
    (hp : Pending config pid calls spawned fuel h l) (hread : oldest throttleReading l = none)
    (hclock : oldest monitorClock l = some startNs)
    (hwatch : watch (Watch.ofConfig config) l = (Watch.ofConfig config).tick startNs) :
    (supervise fuel config pid startNs).Ensures (timely config pid st calls interruptions) h l
      fun r h' l' => Finished config st spawned r l' ∧ dropThrottle h' = .done h' := by
  simp only [supervise]
  rw [Act.ensures_bind]
  refine (attachThrottle_timely hp hread hclock (by rw [hwatch]; rfl)).mono fun r h₁ l₁ hr => ?_
  obtain ⟨rfl, hp₁, hw₁⟩ := hr
  dsimp only
  rw [Act.ensures_bind]
  refine ((timely_inert hints).waitWithKqueue_ensures hp₁ ?_).mono fun r h₂ l₂ hr => ?_
  · rw [hw₁, hwatch]
    exact waitArgsOf_ready config pid startNs
  · rcases r with _ | result
    · exact hr.elim
    cases result with
    | timedOut _ => exact hr.elim
    | memoryLimitExceeded _ _ => exact hr.elim
    | receivedSignal _ => exact hr.elim
    | exited status rusage =>
      obtain ⟨hstatus, hrusage, hrec⟩ := hr
      cases hstatus
      cases hrusage
      exact ⟨hrec.markExited.finished, dropThrottle_marked h₂⟩

theorem monitor_timely (hcalls : calls < fuel) (hints : interruptions < fuel)
    (ho : Opening (Watch.ofConfig config) spawned l) :
    (monitorWithTimeout fuel config).Ensures (timely config pid st calls interruptions)
      { child := { pid } } l fun r _ l' => Finished config st spawned r l' := by
  -- once the clock has been read the kind of clock does not matter
  have hrun : ∀ (e : Event) (startNs : Nat), Timely config pid st calls interruptions e l →
      isKevent e = false → isInterrupt e = false → isSpawn e = false → childSignal e = none →
      heartbeatOf (watch (Watch.ofConfig config) l) e = none → throttleReading e = none →
      monitorClock e = some startNs →
      watch (Watch.ofConfig config) (e :: l) = (watch (Watch.ofConfig config) l).tick startNs →
      ((supervise fuel config pid startNs).onExit dropThrottle).Ensures
        (timely config pid st calls interruptions) { child := { pid } } (e :: l)
        fun r _ l' => Finished config st spawned r l' := by
    intro e startNs hr hkevent hint hspawn hsig hbeat hthrottle hclock hwatch
    have hzero := ho.kevents_eq
    have hk : kevents (e :: l) = 0 := by rw [kevents, List.countP_cons, hkevent]; exact ho.kevents_eq
    have hp : Pending config pid calls spawned fuel { child := { pid } } (e :: l) := by
      refine ⟨rfl, hr.calm ho.unnoticed, fun hever => ?_, by omega, by omega, ?_, ?_⟩
      · exact hever.elim (not_exitNotice hkevent) ho.unnoticed
      · rw [interrupts, List.countP_cons, hint]
        exact ho.interrupts_eq
      · exact (ho.record rfl).event hspawn hsig (.inl hbeat)
    refine Act.ensures_onExit.mpr ((supervise_timely hints hp ?_ ?_ ?_).mono fun r h' l' hr => ?_)
    · rw [oldest, List.filterMap_cons_none hthrottle]
      exact ho.readings
    · exact oldest_first ho.clock hclock
    · rw [hwatch, ho.watch_eq]
    · rw [hr.2]
      exact hr.1
  simp only [monitorWithTimeout, Act.ensures_bind, Act.ensures_get, ensures_now]
  cases config.confine with
  | wall =>
    intro t hr
    refine ⟨trivial, ?_⟩
    cases t with
    | none => exact absurd (.inl rfl) (hr.calm ho.unnoticed).sound
    | some t => exact hrun _ _ hr rfl rfl rfl rfl rfl rfl rfl rfl
  | active => exact fun t hr => ⟨trivial, hrun _ _ hr rfl rfl rfl rfl rfl rfl rfl rfl⟩

end run

/-! ## The command -/

section command
variable {config : RunConfig} {pid : Int} {st : RawExitStatus × Rusage}
  {calls interruptions spawned fuel : Nat} {command : String} {args : List String} {l : Trace}
  {K : Contract Ans}

/-- Without a timeout the run is a wait, whatever else is configured. -/
theorem runForever_finished (hguar : ∀ e l, K.guar e l)
    (hrely : ∀ e l, K.rely e l → Ending pid st interruptions e l) (hints : interruptions < fuel)
    (ho : Opening (Watch.ofConfig config) spawned l) :
    (runForever fuel).Ensures K { child := { pid } } l fun r _ l' =>
      Finished config st spawned r l' := by
  rw [runForever, Act.ensures_bind]
  have hn : Noticed config pid spawned { child := { pid } } l :=
    ⟨rfl, ho.interrupts_eq, ho.record rfl⟩
  refine (hn.wait hguar hrely hints).mono fun r h' l' hr => ?_
  obtain ⟨rfl, hrec⟩ := hr
  exact hrec.finished

theorem spawnFor_opening (hguar : ∀ e l, K.guar e l)
    (hrely : ∀ e l, K.rely e l → Ending pid st interruptions e l)
    (hnul : (hasNul command || args.any hasNul) = false) (ho : Opening (Watch.ofConfig config) spawned l) :
    (spawnFor command args config).Ensures K l fun r l' =>
      r = .ok { pid } ∧ Opening (Watch.ofConfig config) (spawned + 1) l' := by
  unfold spawnFor
  split
  · rw [spawnCommand, if_neg (by rw [hnul]; decide)]
    intro r hr
    have hpid : r = .ok pid := (hrely _ l hr).spawn
    subst hpid
    exact ⟨hguar _ l, rfl, ho.event rfl rfl rfl rfl rfl rfl rfl rfl⟩
  · rw [spawnCommandWithLimits, if_neg (by rw [hnul]; decide)]
    intro r hr
    have hpid : r = .ok pid := (hrely _ l hr).spawn
    subst hpid
    exact ⟨hguar _ l, rfl, ho.event rfl rfl rfl rfl rfl rfl rfl rfl⟩

theorem runCommand_timely (hcalls : calls < fuel) (hints : interruptions < fuel)
    (hnul : (hasNul command || args.any hasNul) = false) (ho : Opening (Watch.ofConfig config) spawned l) :
    (runCommand fuel command args config).Ensures (timely config pid st calls interruptions) l
      fun r l' => Finished config st (spawned + 1) r l' := by
  rw [runCommand, Prog.ensures_bind]
  refine (spawnFor_opening (fun _ _ => trivial)
    (timely_ending config pid st calls interruptions) hnul ho).mono fun r l₁ hr => ?_
  obtain ⟨rfl, ho₁⟩ := hr
  dsimp only
  rw [Prog.ensures_bind, runChild]
  split
  · exact runForever_finished (fun _ _ => trivial) (timely_ending config pid st calls interruptions)
      hints ho₁
  · exact monitor_timely hcalls hints ho₁

/-- The configuration without a timeout, and with what a run without one ignores left out. -/
def RunConfig.bare (config : RunConfig) : RunConfig :=
  { config with cpuThrottle := none, heartbeat := none }

/-- The same command without a timeout. -/
theorem runCommand_zero (hints : interruptions < fuel)
    (hnul : (hasNul command || args.any hasNul) = false) (ho : Opening (Watch.ofConfig config) spawned l) :
    (runCommand fuel command args { config with timeout := .zero }).Ensures
      (ending pid st interruptions) l fun r l' => Finished config.bare st (spawned + 1) r l' := by
  have hrely : ∀ e l, (ending pid st interruptions).rely e l → Ending pid st interruptions e l :=
    fun _ _ hr => hr
  rw [runCommand, Prog.ensures_bind]
  refine (spawnFor_opening (fun _ _ => trivial) hrely hnul ho).mono fun r l₁ hr => ?_
  obtain ⟨rfl, ho₁⟩ := hr
  have hzero : runChild fuel { config with timeout := .zero } = runForever fuel := rfl
  dsimp only
  rw [Prog.ensures_bind, hzero]
  exact runForever_finished (fun _ _ => trivial) hrely hints ho₁

end command

/-! ## The retry loop -/

section retry
variable {config : RunConfig} {pid : Int} {st : RawExitStatus × Rusage}
  {calls interruptions spawned fuel : Nat} {command : String} {args : List String} {l : Trace}
  {K : Contract Ans}

/-- The retry loop's own calls, none of them a signal, are no part of a run. -/
theorem Opening.retry {w₀ : Watch} {call : Call} {a : Ans ⟨.retry, call⟩}
    (ho : Opening w₀ spawned l) (hsig : childSignal ⟨⟨.retry, call⟩, a⟩ = none) :
    Opening w₀ spawned (⟨⟨.retry, call⟩, a⟩ :: l) :=
  ho.event rfl rfl rfl hsig rfl rfl rfl rfl

theorem Finished.retry {call : Call} {a : Ans ⟨.retry, call⟩} {r : Except TimeoutError RunResult}
    (hf : Finished config st spawned r l) (hsig : childSignal ⟨⟨.retry, call⟩, a⟩ = none) :
    Finished config st spawned r (⟨⟨.retry, call⟩, a⟩ :: l) where
  result := hf.result
  spawned := by rw [spawns, List.countP_cons]; exact hf.spawned
  silent hb := by rw [childSignals, List.filterMap_cons_none hsig]; exact hf.silent hb.tail
  unheard hq := hf.unheard hq
  lines := ⟨fun hne => absurd rfl hne, hf.lines⟩

theorem nowOr_ensures {P : Trace → Prop} {confine : Confine} {d : Nat} {s : Unit}
    (hguar : ∀ e l, K.guar e l)
    (hP : ∀ (call : Call) (a : Ans ⟨.retry, call⟩), childSignal ⟨⟨.retry, call⟩, a⟩ = none →
      P l → P (⟨⟨.retry, call⟩, a⟩ :: l)) (hl : P l) :
    (nowOr .retry confine d : RetryAct Nat).Ensures K s l fun r _ l' => (∃ t, r = .ok t) ∧ P l' := by
  rw [nowOr, Act.ensures_exec]
  cases confine with
  | wall => exact fun a _ => ⟨hguar _ l, ⟨_, rfl⟩, hP .wallNow a rfl hl⟩
  | active => exact fun a _ => ⟨hguar _ l, ⟨_, rfl⟩, hP .activeNow a rfl hl⟩

theorem retryLine_opening {w₀ : Watch} {line : String} {s : Unit} (hguar : ∀ e l, K.guar e l)
    (ho : Opening w₀ spawned l) :
    (retryLine config line).Ensures K s l fun r _ l' => r = .ok () ∧ Opening w₀ spawned l' := by
  refine Act.ensures_ite (fun _ => ?_) fun _ => ⟨rfl, ho⟩
  simp only [Act.ensures_bind, Act.ensures_call, Act.ensures_pure]
  exact fun a _ => ⟨hguar _ l, trivial, ho.retry rfl⟩

theorem runAttempt_timely {s : Unit} (hcalls : calls < fuel) (hints : interruptions < fuel)
    (hnul : (hasNul command || args.any hasNul) = false)
    (ho : Opening (Watch.ofConfig config) spawned l) :
    (runAttempt fuel command args config).Ensures (timely config pid st calls interruptions) s l
      fun r _ l' => ∃ ms, r = .ok (.completed st.1 (rusageToResourceUsage st.2), ms) ∧
        spawns l' = spawned + 1 := by
  have hguar : ∀ e l, (timely config pid st calls interruptions).guar e l := fun _ _ => trivial
  rw [runAttempt, Act.ensures_bind]
  refine (nowOr_ensures hguar (fun _ _ hsig ho => ho.retry hsig) ho).mono fun r _ l₁ hr => ?_
  obtain ⟨⟨t, rfl⟩, ho₁⟩ := hr
  dsimp only
  rw [Act.ensures_bind, Act.ensures_lift]
  refine (runCommand_timely hcalls hints hnul ho₁).mono fun r l₂ hf => ?_
  obtain rfl := hf.result
  dsimp only
  rw [Act.ensures_bind]
  refine (nowOr_ensures hguar (fun _ _ hsig hf => hf.retry hsig) hf).mono fun r _ l₃ hr => ?_
  obtain ⟨⟨t', rfl⟩, hf'⟩ := hr
  exact ⟨_, rfl, hf'.spawned⟩

theorem retryLoop_timely {s : Unit} {signalFd : Option Int} {maxAttempts left : Nat}
    {attempts : Attempts}
    (hcalls : calls < fuel) (hints : interruptions < fuel)
    (hnul : (hasNul command || args.any hasNul) = false)
    (ho : Opening (Watch.ofConfig config) spawned l) :
    (retryLoop fuel command args config signalFd maxAttempts (left + 1) 0 0 attempts).Ensures
      (timely config pid st calls interruptions) s l fun r _ l' =>
        (∃ attempts', r = .ok (.completed st.1 (rusageToResourceUsage st.2), attempts')) ∧
        spawns l' = spawned + 1 := by
  rw [retryLoop, if_neg (by decide), Act.ensures_bind]
  refine (runAttempt_timely hcalls hints hnul ho).mono fun r _ l₁ hr => ?_
  obtain ⟨ms, rfl, hspawns⟩ := hr
  exact ⟨⟨_, rfl⟩, hspawns⟩

theorem runWithRetry_timely {s : Unit} (hcalls : calls < fuel) (hints : interruptions < fuel)
    (hnul : (hasNul command || args.any hasNul) = false)
    (ho : Opening (Watch.ofConfig config) spawned l) :
    (runWithRetry fuel command args config).Ensures (timely config pid st calls interruptions) s l
      fun r _ l' =>
        (∃ attempts, r = .ok (.completed st.1 (rusageToResourceUsage st.2), attempts)) ∧
        spawns l' = spawned + 1 := by
  have hguar : ∀ e l, (timely config pid st calls interruptions).guar e l := fun _ _ => trivial
  have hrest : ∀ l', Opening (Watch.ofConfig config) spawned l' →
      (Act.call ⟨.retry, .loadSignalPipe⟩ >>= fun fd =>
        retryLoop fuel command args config (if 0 ≤ fd then some fd else none)
          (cappedRetry config + 1) (cappedRetry config + 1) 0 0 {}).Ensures
            (timely config pid st calls interruptions) s l'
        fun r _ l'' =>
          (∃ attempts, r = .ok (.completed st.1 (rusageToResourceUsage st.2), attempts)) ∧
          spawns l'' = spawned + 1 := by
    intro l' ho'
    rw [Act.ensures_bind]
    intro fd _
    exact ⟨trivial, retryLoop_timely hcalls hints hnul (ho'.retry rfl)⟩
  rw [runWithRetry]
  split
  · rw [Act.ensures_bind]
    refine (retryLine_opening hguar ho).mono fun r _ l₁ hr => ?_
    obtain ⟨rfl, ho₁⟩ := hr
    exact hrest l₁ ho₁
  · exact hrest l ho

end retry

/-! ## Finished in time -/

/-- A program that may not be cut off returns, when the answers keep the rely. -/
theorem returns_of_ensures {α : Type} {K : Contract Ans} {env : World} {p : SysProg α}
    {Post : α → Trace → Prop} (hp : p.Ensures K [] Post) (hcut : ∀ l, ¬ K.cut l)
    (hr : Always K.rely (p.run env []).2) :
    ∃ a, (p.run env []).1 = some a ∧ Post a (p.run env []).2 := by
  obtain ⟨-, hret, hnone⟩ := hp.sound env trivial hr
  cases ha : (p.run env []).1 with
  | some a => exact ⟨a, rfl, hret a ha⟩
  | none => exact absurd (hnone ha) (hcut _)

/-- A run whose answers are timely ends with the child: the monitor reports it as
    completed, and the retry loop does not spawn the command again. -/
theorem finished_in_time (env : World) (fuel : Nat) (command : String) (args : List String)
    (config : RunConfig) (pid : Int) (st : RawExitStatus × Rusage) (calls interruptions : Nat)
    (hcalls : calls < fuel) (hints : interruptions < fuel) :
    (Always (Timely config pid st calls interruptions) (monitorRun env fuel config pid).2 →
      ∃ h, (monitorRun env fuel config pid).1 =
        some (.ok (.completed st.1 (rusageToResourceUsage st.2)), h)) ∧
    ((hasNul command || args.any hasNul) = false →
      Always (Timely config pid st calls interruptions)
        ((runWithRetry fuel command args config ()).run env []).2 →
      ∃ attempts, ((runWithRetry fuel command args config ()).run env []).1 =
          some (.ok (.completed st.1 (rusageToResourceUsage st.2), attempts), ()) ∧
        spawns ((runWithRetry fuel command args config ()).run env []).2 = 1) := by
  have ho : Opening (Watch.ofConfig config) 0 [] := .nil _
  refine ⟨fun htimely => ?_, fun hnul htimely => ?_⟩
  · have hmonitor : (monitorWithTimeout fuel config).Ensures
        (timely config pid st calls interruptions) { child := { pid } } [] fun r _ l' =>
          Finished config st 0 r l' := monitor_timely hcalls hints ho
    obtain ⟨⟨r, h⟩, hrun, hf⟩ := returns_of_ensures hmonitor (fun _ => id) htimely
    exact ⟨h, by rw [monitorRun, hrun, ← hf.result]⟩
  · have hretry : (runWithRetry fuel command args config).Ensures
        (timely config pid st calls interruptions) () [] fun r _ l' =>
          (∃ attempts, r = .ok (.completed st.1 (rusageToResourceUsage st.2), attempts)) ∧
          spawns l' = 0 + 1 := runWithRetry_timely hcalls hints hnul ho
    obtain ⟨⟨r, ⟨⟩⟩, hrun, ⟨attempts, hr⟩, hspawns⟩ :=
      returns_of_ensures hretry (fun _ => id) htimely
    refine ⟨attempts, ?_, hspawns⟩
    rw [hrun, ← hr]

/-- A second passes with every kevent call: a tick, input on stdin, a tick, and the exit.
    The wait for the child is interrupted once. -/
def busyWorld : World := fun l q => match q with
  | ⟨_, .readStdin⟩ => (5 : Int)
  | q => Machine.world {
      wallClock := fun l => some (.ofNat (kevents l * 1000000000))
      kevent := fun l => match kevents l with
        | 1 => .ok { ident := 0, filter := EVFILT_READ, flags := 0 }
        | 3 => .ok { ident := 7, filter := EVFILT_PROC, flags := 0 }
        | _ => .ok { ident := 1, filter := EVFILT_TIMER, flags := 0 }
      wait4 := fun l => if interrupts l = 0 then .error EINTR else .ok (⟨0⟩, {}) } l q

/-- Everything that is looked at during a wait, and two retries. -/
def busyConfig : RunConfig where
  heartbeat := some (.fromSecs 1)
  stdinTimeout := some (.fromSecs 2)
  limits := { memBytes := some 1000 }
  cpuThrottle := some halfCpu
  retryCount := 2

theorem finished_in_time_busy :
    (∃ h, (monitorRun busyWorld 4 busyConfig 7).1 =
      some (.ok (.completed ⟨0⟩ (rusageToResourceUsage {})), h)) ∧
    (heartbeats (Watch.ofConfig busyConfig) (monitorRun busyWorld 4 busyConfig 7).2).length = 2 ∧
    ∃ attempts, ((runWithRetry 4 "true" [] busyConfig ()).run busyWorld []).1 =
        some (.ok (.completed ⟨0⟩ (rusageToResourceUsage {}), attempts), ()) ∧
      spawns ((runWithRetry 4 "true" [] busyConfig ()).run busyWorld []).2 = 1 := by
  have h := finished_in_time busyWorld 4 "true" [] busyConfig 7 (⟨0⟩, {}) 3 1 (by decide)
    (by decide)
  exact ⟨h.1 (by decide +kernel), by decide +kernel, h.2 (by decide +kernel) (by decide +kernel)⟩

/-- Input is always there, and is left to the child; three ticks, a second apart, and the
    exit. -/
def pipedWorld : World := Machine.world {
  wallClock := fun l => some (.ofNat (kevents l * 1000000000))
  stdin := (1, POLLIN)
  kevent := fun l => if kevents l = 3 then .ok { ident := 7, filter := EVFILT_PROC, flags := 0 }
    else .ok { ident := 1, filter := EVFILT_TIMER, flags := 0 } }

/-- Each tick polls stdin before it looks at the idle timeout, which has run out by then. -/
example : Always (Timely { stdinTimeout := some (.fromSecs 1), stdinPassthrough := true } 7
      (⟨0⟩, {}) 3 0)
    (monitorRun pipedWorld 4 { stdinTimeout := some (.fromSecs 1), stdinPassthrough := true } 7).2 := by
  decide +kernel

/-- The exit is pending from the start (a non-blocking wait would report it), but the
    kernel delivers the timer first, after the machine was asleep for 31 s. -/
def lateWorld : World := Machine.world {
  wallClock := fun l => some (if kevents l = 0 then 0 else 31000000000)
  kevent := fun l => if kevents l = 0 then .ok { ident := 1, filter := EVFILT_TIMER, flags := 0 }
    else .ok { ident := 7, filter := EVFILT_PROC, flags := 0 }
  wait4NoHang := fun _ => .ok (some (⟨0⟩, {})) }

/-- The finished command is signalled and reported as timed out, and spawned again. -/
theorem pending_exit_times_out :
    (∀ l, lateWorld l ⟨.monitor, .wait4NoHang 7⟩ = .ok (some (⟨0⟩, {}))) ∧
    (∃ h l, monitorRun lateWorld 2 {} 7 = (some (.ok (.timedOut .sigterm false (some ⟨0⟩)
        (some (rusageToResourceUsage {})) none .wallClock), h), l) ∧
      sends false l = [Signal.sigterm.asRaw] ∧
      Always (fun e l => isKevent e = true →
        (watch (Watch.ofConfig {}) l).clock < (watch (Watch.ofConfig {}) l).deadline { asSecs := 30 }) l) ∧
    spawns ((runWithRetry 2 "true" [] { retryCount := 1 } ()).run lateWorld []).2 = 2 := by
  refine ⟨fun _ => rfl, ⟨_, _, rfl, by rfl, ?_⟩, ?_⟩ <;> decide +kernel

end Procguard
