import Procguard.Spacing
import Procguard.Invariant
import Procguard.Completion
import Procguard.Timing
import Procguard.Household

/- What the event loop does over and over: heartbeats, samples of the throttle, memory
   checks. Each duty has a next time of its own, set again from the reading it was done at;
   `OnTime` says what the three next times stand for in terms of the log, and `DutyGuar`
   what follows of every doing of a duty. The heartbeat sets its next time only after its
   line is printed: that no two lines follow one reading (`unbeaten`) is a promise of its
   own, on which the rest may rely. -/
namespace Procguard
open Interact Spacing

/-! ## Duties in the log -/

inductive Duty where
  | heartbeat | throttle | memory
  deriving DecidableEq, Repr

def heartbeatHead : String := "timeout: heartbeat: "

/-- The line is a heartbeat. -/
def isHeartbeat (line : String) : Bool := heartbeatHead.toList.isPrefixOf line.toList

theorem isHeartbeat_iff {line : String} :
    isHeartbeat line = true ↔ heartbeatHead.toList <+: line.toList := List.isPrefixOf_iff_prefix

theorem isHeartbeat_line (elapsed : Nat) (pid : Int) :
    isHeartbeat (heartbeatLine elapsed pid) = true := by
  rw [isHeartbeat_iff, heartbeatLine]
  split
  · simp only [String.toList_append, List.append_assoc]
    exact List.prefix_append _ _
  · simp only [String.toList_append, List.append_assoc]
    exact List.prefix_append _ _

/-- A line that begins otherwise is no heartbeat. -/
theorem isHeartbeat_append {head : String} (rest : String)
    (hhead : (heartbeatHead.toList.isPrefixOf head.toList ||
      head.toList.isPrefixOf heartbeatHead.toList) = false) :
    isHeartbeat (head ++ rest) = false := by
  by_contra hbeat
  rw [Bool.not_eq_false, isHeartbeat_iff, String.toList_append] at hbeat
  rw [Bool.or_eq_false_iff] at hhead
  rcases List.prefix_or_prefix_of_prefix hbeat (List.prefix_append _ _) with hp | hp
  · rw [← List.isPrefixOf_iff_prefix, hhead.1] at hp
    cases hp
  · rw [← List.isPrefixOf_iff_prefix, hhead.2] at hp
    cases hp

/-- The duty a call is the doing of. -/
def Req.duty : Req → Option Duty
  | ⟨.monitor, .eprintln line⟩ => if isHeartbeat line then some .heartbeat else none
  | ⟨.throttle, .procPidRusage _⟩ => some .throttle
  | ⟨.memoryCheck, .procPidRusage _⟩ => some .memory
  | _ => none

/-- A call that neither is a duty nor begins a wait. -/
def Req.offDuty (q : Req) : Bool := q.duty.isNone && q != ⟨.monitor, .loadSignalPipe⟩

/-- The reading the duty was done at, if the event is a doing of it. -/
def doneAt (d : Duty) (w₀ : Watch) (e : Event) (l : Trace) : Option Nat :=
  if e.req.duty = some d then some (watch w₀ l).clock else none

/-- The readings the duty was done at, newest first. -/
def timesOf (d : Duty) (w₀ : Watch) (l : Trace) : List Nat := marks (doneAt d w₀) l

/-- The memory in use, as a memory check read it. -/
def memoryRead : Event → Option Nat
  | ⟨⟨.memoryCheck, .procPidRusage _⟩, some info⟩ => some info.memoryBytes
  | _ => none

/-- The readings of the memory checks, newest first. -/
def memoryReads (l : Trace) : List Nat := l.filterMap memoryRead

/-- The time between two memory checks. -/
def checkIntervalNs : Nat := durationToNs (.fromMillis 100 Duration.hundred_le)

section offDuty
variable {w₀ : Watch} {l : Trace} {q : Req} {a : Ans q}

theorem offDuty_iff : q.offDuty = true ↔ q.duty = none ∧ q ≠ ⟨.monitor, .loadSignalPipe⟩ := by
  simp [Req.offDuty]

theorem timesOf_off (hq : q.duty = none) (d : Duty) :
    timesOf d w₀ (⟨q, a⟩ :: l) = timesOf d w₀ l := by
  refine marks_none ?_
  simp [doneAt, hq]

theorem timesOf_other {d d' : Duty} (hq : q.duty = some d') (hd : d' ≠ d) :
    timesOf d w₀ (⟨q, a⟩ :: l) = timesOf d w₀ l := by
  refine marks_none ?_
  simp [doneAt, hq, hd]

theorem timesOf_done {d : Duty} (hq : q.duty = some d) :
    timesOf d w₀ (⟨q, a⟩ :: l) = (watch w₀ l).clock :: timesOf d w₀ l := by
  refine marks_some ?_
  simp [doneAt, hq]

theorem memoryReads_off (hq : q.duty ≠ some .memory) :
    memoryReads (⟨q, a⟩ :: l) = memoryReads l := by
  refine List.filterMap_cons_none ?_
  obtain ⟨caller, call⟩ := q
  cases caller <;> cases call <;> first | rfl | exact absurd rfl hq

end offDuty

/-- What is read first stays what was read first. -/
theorem oldest_suffix {α : Type} {g : Event → Option α} {base l : Trace} {x : α}
    (hs : base <:+ l) (h : oldest g base = some x) : oldest g l = some x := by
  obtain ⟨t, rfl⟩ := hs
  induction t with
  | nil => exact h
  | cons e t ih => exact oldest_cons ih

/-! ## What is owed at each doing of a duty -/

/-- A heartbeat as it should be: asked for, in its turn, before the deadline, and telling
    the time since the supervision began. -/
structure Beat (config : RunConfig) (w₀ : Watch) (e : Event) (l : Trace) : Prop where
  loud : config.quiet = false
  inTurn : ∃ d, config.heartbeat = some d ∧ 0 < durationToNs d ∧
    Spaced (durationToNs d) u64Max
      (((watch w₀ l).clock :: timesOf .heartbeat w₀ l) ++ [(watch w₀ l).start])
  early : (watch w₀ l).clock < (watch w₀ l).deadline config.timeout
  text : ∃ pid startNs, oldest bornPid l = some pid ∧ oldest monitorClock l = some startNs ∧
    e.req.call = .eprintln (heartbeatLine ((elapsedNs startNs (watch w₀ l).clock).getD 0) pid)

/-- What every doing of a duty keeps. -/
structure DutyGuar (config : RunConfig) (w₀ : Watch) (e : Event) (l : Trace) : Prop where
  heartbeat : e.req.duty = some .heartbeat → Beat config w₀ e l
  throttle : e.req.duty = some .throttle → ∃ cfg, config.cpuThrottle = some cfg ∧
    ∀ o ∈ (timesOf .throttle w₀ l).head?, After cfg.intervalNs u64Max (watch w₀ l).clock o
  memory : e.req.duty = some .memory → ∃ limit, config.limits.memBytes = some limit ∧
    (∀ b ∈ memoryReads l, b ≤ limit) ∧ After checkIntervalNs u64Max (watch w₀ l).clock
      ((timesOf .memory w₀ l).headD (watch w₀ l).start)

def duties (config : RunConfig) (w₀ : Watch) : Contract Ans where
  guar := DutyGuar config w₀

theorem DutyGuar.off {config : RunConfig} {w₀ : Watch} {e : Event} {l : Trace}
    (hq : e.req.duty = none) : DutyGuar config w₀ e l := by
  constructor <;>
  · intro h
    rw [hq] at h
    cases h

/-! ## The next times of the loop -/

/-- What a wait is told to do over and over, and what the log says of the run when it
    begins. -/
structure WaitArgs.Licensed (a : WaitArgs) (config : RunConfig) (base : Trace) : Prop where
  heartbeat : ∀ hb, a.heartbeat = some hb → hb.quiet = config.quiet ∧
    (∃ d, config.heartbeat = some d ∧ hb.intervalNs = durationToNs d) ∧
    oldest bornPid base = some hb.pid ∧ oldest monitorClock base = some hb.startNs ∧
    a.timeout = config.timeout
  memory : ∀ m, a.memoryLimit = some m →
    config.limits.memBytes = some m.limitBytes ∧ m.checkIntervalNs = checkIntervalNs

/-- The memory readings `rs` gave the wait no reason to end; without a limit there are no
    new ones. -/
def WaitArgs.Within (a : WaitArgs) (old rs : List Nat) : Prop :=
  a.memoryLimit.elim (rs = old) fun m => ∀ b ∈ rs, b ≤ m.limitBytes

/-- The next time of a duty done every `gap`. -/
def nextDue (d : Duty) (gap : Nat) (w₀ : Watch) (l : Trace) : Nat :=
  advanceNs ((timesOf d w₀ l).headD (watch w₀ l).start) gap

/-- What the next times stand for: none comes before its duty is due. -/
structure OnTime (config : RunConfig) (a : WaitArgs) (base : Trace) (old : List Nat) (w₀ : Watch)
    (f : WaitFixed) (v : WaitVars) (h : Handles) (l : Trace) : Prop where
  args : f.args = a
  deadline : f.deadlineNs = (watch w₀ l).deadline a.timeout
  heartbeatInterval : f.heartbeatIntervalNs = a.heartbeat.elim 0 (·.intervalNs)
  memoryInterval : f.memoryCheckIntervalNs = a.memoryLimit.elim u64Max (·.checkIntervalNs)
  beat : ∀ hb, a.heartbeat = some hb → 0 < hb.intervalNs →
    nextDue .heartbeat hb.intervalNs w₀ l ≤ v.nextHeartbeatNs ∧
    Spaced hb.intervalNs u64Max (timesOf .heartbeat w₀ l ++ [(watch w₀ l).start])
  check : ∀ m, a.memoryLimit = some m →
    nextDue .memory m.checkIntervalNs w₀ l ≤ v.nextMemoryCheckNs
  sample : ∀ ctx, h.throttle = some ctx → config.cpuThrottle = some ctx.cfg ∧
    f.throttleIntervalNs = ctx.cfg.intervalNs ∧ timesOf .throttle w₀ l ≠ [] ∧
    nextDue .throttle ctx.cfg.intervalNs w₀ l ≤ v.nextThrottleNs
  within : a.Within old (memoryReads l)
  grown : base <:+ l

/-- How a wait ends, as far as its duties go. -/
def DutiesDone (a : WaitArgs) (old : List Nat) : Except TimeoutError WaitResult → Trace → Prop
  | .ok (.memoryLimitExceeded limitBytes actualBytes), l =>
    ∃ m rest, a.memoryLimit = some m ∧ limitBytes = m.limitBytes ∧ limitBytes < actualBytes ∧
      memoryReads l = actualBytes :: rest ∧ ∀ b ∈ rest, b ≤ limitBytes
  | _, l => a.Within old (memoryReads l)

/-- The start of a wait only moves when a wait begins. -/
theorem Watch.step_start {w : Watch} {q : Req} (x : Ans q) (hq : q ≠ ⟨.monitor, .loadSignalPipe⟩) :
    (w.step ⟨q, x⟩).start = w.start := by
  obtain ⟨caller, call⟩ := q
  have hdeliver : ∀ ev, (w.deliver ev).start = w.start := by
    intro ev
    unfold Watch.deliver
    repeat' split
    all_goals rfl
  by_cases hcaller : caller = .monitor
  · subst hcaller
    cases call with
    | loadSignalPipe => exact absurd rfl hq
    | wallNow => cases x <;> rfl
    | kevent kq cs =>
      cases x with
      | ok ev => exact hdeliver ev
      | error err => rfl
    | fstatStdin =>
      show (if x < 0 then w.closeStdin else w).start = w.start
      split <;> rfl
    | pollStdin =>
      show (w.poll (stdinPollStatus x)).start = w.start
      cases stdinPollStatus x with
      | readable => cases hloop : w.looping <;> simp [Watch.poll, hloop]
      | eof => rfl
      | idle => rfl
    | readStdin =>
      show (if x = 0 then w.closeStdin else if 0 < x then { w with pending := true } else w).start = _
      repeat' split
      all_goals rfl
    | _ => rfl
  · rw [Watch.step_unwatched (.inl hcaller)]

namespace OnTime
variable {config : RunConfig} {a : WaitArgs} {base : Trace} {old : List Nat} {w₀ : Watch}
  {f : WaitFixed} {v v' : WaitVars} {h : Handles} {l : Trace} {q : Req}

/-- Only the next times matter. -/
theorem vars (o : OnTime config a base old w₀ f v h l)
    (hbeat : v'.nextHeartbeatNs = v.nextHeartbeatNs)
    (hcheck : v'.nextMemoryCheckNs = v.nextMemoryCheckNs)
    (hsample : v'.nextThrottleNs = v.nextThrottleNs) : OnTime config a base old w₀ f v' h l :=
  { o with
    beat := fun hb hhb hpos => hbeat ▸ o.beat hb hhb hpos
    check := fun m hm => hcheck ▸ o.check m hm
    sample := fun ctx hctx => hsample ▸ o.sample ctx hctx }

/-- A call that is no duty leaves the next times right. -/
theorem event (o : OnTime config a base old w₀ f v h l) (x : Ans q) (hoff : q.offDuty = true) :
    OnTime config a base old w₀ f v h (⟨q, x⟩ :: l) := by
  obtain ⟨hq, hbegin⟩ := offDuty_iff.mp hoff
  have hstart : (watch w₀ (⟨q, x⟩ :: l)).start = (watch w₀ l).start := Watch.step_start x hbegin
  have hnext : ∀ d gap, nextDue d gap w₀ (⟨q, x⟩ :: l) = nextDue d gap w₀ l := by
    intro d gap
    rw [nextDue, nextDue, timesOf_off hq, hstart]
  have hreads : memoryReads (⟨q, x⟩ :: l) = memoryReads l := memoryReads_off (by rw [hq]; decide)
  exact { o with
    deadline := by rw [Watch.deadline, hstart]; exact o.deadline
    beat := fun hb hhb hpos => by rw [hnext, timesOf_off hq, hstart]; exact o.beat hb hhb hpos
    check := fun m hm => by rw [hnext]; exact o.check m hm
    sample := fun ctx hctx => by rw [hnext, timesOf_off hq]; exact o.sample ctx hctx
    within := by rw [hreads]; exact o.within
    grown := o.grown.trans (List.suffix_cons _ l) }

theorem asks (o : OnTime config a base old w₀ f v h l) (hoff : q.offDuty = true) :
    Asks (duties config w₀) q l fun _ l' => OnTime config a base old w₀ f v h l' :=
  fun x _ => ⟨.off (offDuty_iff.mp hoff).1, o.event x hoff⟩

theorem asksClock (o : OnTime config a base old w₀ f v h l) {confine : Confine}
    {P : Option Nat → Trace → Prop}
    (hsome : ∀ t l', (watch w₀ l').clock = t → OnTime config a base old w₀ f v h l' → P (some t) l')
    (hnone : ∀ l', OnTime config a base old w₀ f v h l' → P none l') :
    AsksClock (duties config w₀) .monitor confine l P := by
  refine asksClock_intro w₀ fun e r hreq _ _ hw _ => ?_
  obtain ⟨q, x⟩ := e
  change q = _ at hreq
  have hoff : q.offDuty = true := by
    rw [hreq]
    cases confine <;> rfl
  refine ⟨.off (offDuty_iff.mp hoff).1, ?_⟩
  cases r with
  | none => exact hnone _ (o.event x hoff)
  | some t => exact hsome t _ (by rw [hw]; rfl) (o.event x hoff)

end OnTime

/-! ## The blocks of the loop -/

/-- A result other than the memory limit. -/
def WaitResult.Plain (r : WaitResult) : Prop := ∀ limit actual, r ≠ .memoryLimitExceeded limit actual

theorem DutiesDone.plain {a : WaitArgs} {old : List Nat} {r : WaitResult} {l : Trace}
    (hr : r.Plain) (hl : a.Within old (memoryReads l)) : DutiesDone a old (.ok r) l := by
  cases r with
  | memoryLimitExceeded limit actual => exact absurd rfl (hr limit actual)
  | exited _ _ => exact hl
  | timedOut _ => exact hl
  | receivedSignal _ => exact hl

/-- What a block leaves: the next times right, or a result. -/
def FlowOnTime {α : Type} (config : RunConfig) (a : WaitArgs) (base : Trace) (old : List Nat)
    (w₀ : Watch) (f : WaitFixed) (h : Handles) (l : Trace) : Except TimeoutError (Flow α) → Prop
  | .ok (.next v) => OnTime config a base old w₀ f v h l
  | .ok (.ret r) => DutiesDone a old (.ok r) l
  | .ok _ => ∃ v, OnTime config a base old w₀ f v h l
  | .error _ => a.Within old (memoryReads l)

section blocks
variable {config : RunConfig} {a : WaitArgs} {base : Trace} {old : List Nat} {w₀ : Watch}
  {f : WaitFixed} {v v' : WaitVars} {h : Handles} {l : Trace} {fuel : Nat}

/-- What asks for no duty leaves the next times right. -/
theorem OnTime.asking {σ ε α : Type} {m : Act Ans σ ε α} (o : OnTime config a base old w₀ f v h l)
    (hm : m.Asking fun q => q.offDuty = true) (s : σ) :
    m.Ensures (duties config w₀) s l fun _ _ l' => OnTime config a base old w₀ f v h l' := by
  refine hm.ensures (fun l' => OnTime config a base old w₀ f v h l') ?_ (fun _ _ => trivial) o
  intro q l' hq o' x _
  exact o'.asks hq x trivial

theorem loopHead_onTime (o : OnTime config a base old w₀ f v h l) :
    (loopHead f v).Ensures (duties config w₀) h l fun r h' l' => h' = h ∧ match r with
      | .ok (.go _) => OnTime config a base old w₀ f v h l'
      | .ok (.ret r) => DutiesDone a old (.ok r) l'
      | .ok _ => False
      | .error _ => a.Within old (memoryReads l') := by
  simp only [loopHead, Act.ensures_bind, ensures_now]
  refine o.asksClock (fun t l' _ o' => ?_) fun _ o' => ⟨trivial, o'.within⟩
  have hfinish : ∀ reason, (finish f (.timedOut reason) : SuperAct (Flow Nat)).Ensures
      (duties config w₀) h l' fun r h' l'' => h' = h ∧ match r with
        | .ok (.go _) => OnTime config a base old w₀ f v h l''
        | .ok (.ret r) => DutiesDone a old (.ok r) l''
        | .ok _ => False
        | .error _ => a.Within old (memoryReads l'') := by
    intro reason
    rw [WaitRule.ensures_finish]
    exact (o'.asks (by rfl)).mono fun _ o'' => ⟨rfl, o''.within⟩
  exact Act.ensures_ite (fun _ => hfinish _) fun _ => Act.ensures_ite (fun _ => hfinish _)
    fun _ => ⟨rfl, o'⟩

/-- A process that is gone is reaped, or counted as timed out. -/
theorem reapGone_plain : Act.Returns WaitResult.Plain (reapGone fuel) := by
  have hexited : ∀ status rusage, (WaitResult.exited status rusage).Plain := by
    rintro _ _ _ _ ⟨⟩
  have htimeout : (WaitResult.timedOut .wallClock).Plain := by rintro _ _ ⟨⟩
  refine .last fun r => ?_
  rcases r with _ | _ | _
  rotate_left 2
  · exact .pure (hexited _ _)
  -- with no status at hand the process is waited for
  all_goals
    refine .last fun r => ?_
    cases r with
    | ok _ => exact .pure (hexited _ _)
    | error _ => exact .ite (.pure htimeout) .throw

theorem reapGone_onTime (o : OnTime config a base old w₀ f v h l) :
    (reapGone fuel).Ensures (duties config w₀) h l fun r _ l' => DutiesDone a old r l' := by
  refine ((o.asking (asking_reapGone (fun _ => rfl) (fun _ => rfl) fuel) h).with
    (reapGone_plain h l)).mono fun r s' l' hr => ?_
  obtain ⟨o', hplain⟩ := hr
  cases r with
  | error e => exact o'.within
  | ok x => exact .plain (hplain x rfl) o'.within

theorem onKeventError_onTime (o : OnTime config a base old w₀ f v h l) (err : Int) :
    (onKeventError fuel f v err).Ensures (duties config w₀) h l
      fun r h' l' => FlowOnTime config a base old w₀ f h' l' r := by
  unfold onKeventError
  refine Act.ensures_ite (fun _ => o) fun _ => Act.ensures_ite (fun _ => ?_) fun _ => ?_
  · simp only [closeKq, Act.ensures_bind, Act.ensures_call, Act.ensures_pure]
    refine (o.asks (by rfl)).mono fun _ o' => (reapGone_onTime o').mono fun r h' l' hr => ?_
    cases r with
    | ok x => exact hr
    | error e => exact hr
  · simp only [closeKq, Act.ensures_bind, Act.ensures_call, Act.ensures_pure, Act.ensures_throw]
    exact (o.asks (by rfl)).mono fun _ o' => o'.within

theorem onStdin_onTime (o : OnTime config a base old w₀ f v h l) (ev : Kevent) :
    (onStdin f v ev).Ensures (duties config w₀) h l
      fun r h' l' => FlowOnTime config a base old w₀ f h' l' r := by
  unfold onStdin
  refine Act.ensures_ite (fun _ => o.vars rfl rfl rfl) fun _ => ?_
  simp only [Act.ensures_bind, Act.ensures_call]
  refine (o.asks (by rfl)).mono fun bytes o' => ?_
  refine Act.ensures_ite (fun _ => o'.vars rfl rfl rfl) fun _ => Act.ensures_ite (fun _ => ?_)
    fun _ => o'.vars rfl rfl rfl
  simp only [Act.ensures_bind, ensures_now]
  exact o'.asksClock (fun t l' _ o'' => o''.vars rfl rfl rfl) fun _ o'' => o''.within

theorem onEventError_onTime (o : OnTime config a base old w₀ f v h l) (ev : Kevent) :
    (onEventError f v ev).Ensures (duties config w₀) h l
      fun r h' l' => FlowOnTime config a base old w₀ f h' l' r := by
  unfold onEventError
  refine Act.ensures_ite (fun _ => o.vars rfl rfl rfl) fun _ =>
    Act.ensures_ite (fun _ => o.vars rfl rfl rfl) fun _ => Act.ensures_ite (fun _ => ⟨v, o⟩) fun _ => ?_
  simp only [closeKq, Act.ensures_bind, Act.ensures_call, Act.ensures_pure, Act.ensures_throw]
  exact (o.asks (by rfl)).mono fun _ o' => o'.within

/-! ### The timer branch -/

/-- A next time that has come is a gap past the last doing. -/
theorem after_of_due {d : Duty} {gap nextNs : Nat} (hdue : nextDue d gap w₀ l ≤ nextNs)
    (hnext : nextNs ≤ (watch w₀ l).clock) :
    After gap u64Max (watch w₀ l).clock ((timesOf d w₀ l).headD (watch w₀ l).start) :=
  Nat.le_trans hdue hnext

theorem head?_origin (ts : List Nat) (o : Nat) : (ts ++ [o]).head? = some (ts.headD o) := by
  cases ts <;> rfl

/-- A duty done now is next due a gap from now. -/
theorem nextDue_done {d : Duty} {q : Req} {x : Ans q} (hq : q.duty = some d) (gap : Nat) :
    nextDue d gap w₀ (⟨q, x⟩ :: l) = advanceNs (watch w₀ l).clock gap := by
  rw [nextDue, timesOf_done hq]
  rfl

/-- Another duty done now changes nothing. -/
theorem nextDue_other {d d' : Duty} {q : Req} {x : Ans q} (hq : q.duty = some d') (hd : d' ≠ d)
    (hstart : (watch w₀ (⟨q, x⟩ :: l)).start = (watch w₀ l).start) (gap : Nat) :
    nextDue d gap w₀ (⟨q, x⟩ :: l) = nextDue d gap w₀ l := by
  rw [nextDue, nextDue, timesOf_other hq hd, hstart]

theorem OnTime.state (o : OnTime config a base old w₀ f v h l) {ctx : ThrottleContext}
    (hctx : h.throttle = some ctx) (st : CpuThrottleState) :
    OnTime config a base old w₀ f v { h with throttle := some { ctx with state := st } } l :=
  { o with
    sample := by
      rintro ctx' ⟨⟩
      exact o.sample ctx hctx }

/-- The throttle has taken its sample. -/
theorem OnTime.sampled (o : OnTime config a base old w₀ f v h l) {p : Int} (r : Option RusageInfo) :
    OnTime config a base old w₀ f (throttled f v (watch w₀ l).clock) h
      (⟨⟨.throttle, .procPidRusage p⟩, r⟩ :: l) := by
  have hq : Req.duty ⟨.throttle, .procPidRusage p⟩ = some .throttle := rfl
  have hbeat : Duty.throttle ≠ .heartbeat := by decide
  have hcheck : Duty.throttle ≠ .memory := by decide
  exact { o with
    beat := fun hb hhb hpos => by
      rw [nextDue_other hq hbeat rfl, timesOf_other hq hbeat]
      exact o.beat hb hhb hpos
    check := fun m hm => by rw [nextDue_other hq hcheck rfl]; exact o.check m hm
    sample := fun ctx hctx => by
      obtain ⟨hcfg, hinterval, -, -⟩ := o.sample ctx hctx
      refine ⟨hcfg, hinterval, by rw [timesOf_done hq]; exact List.cons_ne_nil _ _, ?_⟩
      rw [nextDue_done hq, ← hinterval]
      exact Nat.le_refl _
    within := by rw [memoryReads_off (by rw [hq]; decide)]; exact o.within
    grown := o.grown.trans (List.suffix_cons _ l) }

theorem update_onTime (o : OnTime config a base old w₀ f v h l) {ctx : ThrottleContext}
    (hctx : h.throttle = some ctx) (hdue : v.nextThrottleNs ≤ (watch w₀ l).clock) :
    (CpuThrottleState.update ctx.cfg (watch w₀ l).clock).Ensures (duties config w₀) ctx.state l
      fun _ _ l' => OnTime config a base old w₀ f (throttled f v (watch w₀ l).clock) h l' := by
  obtain ⟨hcfg, -, hsome, hnext⟩ := o.sample ctx hctx
  rw [CpuThrottleState.ensures_update]
  intro r _
  refine ⟨⟨by rintro ⟨⟩, fun _ => ⟨ctx.cfg, hcfg, ?_⟩, by rintro ⟨⟩⟩, ?_⟩
  · intro last hlast
    have hafter := after_of_due hnext hdue
    rw [List.headD_eq_head?_getD, Option.mem_def.mp hlast] at hafter
    exact hafter
  · have o' := o.sampled (p := ctx.state.pid) r
    cases r with
    | none => exact o'
    | some info =>
      dsimp only
      split
      · exact o'
      · refine (o'.asking (CpuThrottleState.asking_steer (fun _ _ => rfl) _) ctx.state).mono
          fun r _ _ o'' => ?_
        cases r <;> exact o''

theorem throttleTick_onTime (o : OnTime config a base old w₀ f v h l) :
    (throttleTick f v (watch w₀ l).clock).Ensures (duties config w₀) h l fun r h' l' => match r with
      | .ok v' => OnTime config a base old w₀ f v' h' l' ∧
          (watch w₀ l').clock = (watch w₀ l).clock
      | .error _ => False := by
  simp only [throttleTick, Act.ensures_bind, Act.ensures_get]
  refine Act.ensures_ite (fun hdue => ?_) fun _ => ⟨o, rfl⟩
  obtain ⟨hsome, hdue⟩ := Bool.and_eq_true_iff.mp hdue
  obtain ⟨ctx, hctx⟩ := Option.isSome_iff_exists.mp hsome
  simp only [onThrottle, Act.ensures_bind, Act.ensures_get, hctx, Act.ensures_focus]
  refine ((update_onTime o hctx (deadlineReached_iff.mp hdue)).with
    (WaitRule.update_watch w₀ ctx.cfg _ ctx.state l)).mono fun r st l' hr => ?_
  obtain ⟨o', ⟨b, rfl⟩, hw'⟩ := hr
  exact ⟨o'.state hctx st, by rw [hw']⟩

/-- The memory has been read. -/
theorem OnTime.checked (o : OnTime config a base old w₀ f v h l) {p : Int} (r : Option RusageInfo)
    (hwithin : a.Within old (memoryReads (⟨⟨.memoryCheck, .procPidRusage p⟩, r⟩ :: l))) :
    OnTime config a base old w₀ f (memoryChecked f v (watch w₀ l).clock) h
      (⟨⟨.memoryCheck, .procPidRusage p⟩, r⟩ :: l) := by
  have hq : Req.duty ⟨.memoryCheck, .procPidRusage p⟩ = some .memory := rfl
  have hbeat : Duty.memory ≠ .heartbeat := by decide
  have hsample : Duty.memory ≠ .throttle := by decide
  exact { o with
    beat := fun hb hhb hpos => by
      rw [nextDue_other hq hbeat rfl, timesOf_other hq hbeat]
      exact o.beat hb hhb hpos
    check := fun m hm => by
      have hinterval := o.memoryInterval
      rw [hm] at hinterval
      rw [nextDue_done hq, ← show f.memoryCheckIntervalNs = m.checkIntervalNs from hinterval]
      exact Nat.le_refl _
    sample := fun ctx hctx => by
      rw [nextDue_other hq hsample rfl, timesOf_other hq hsample]
      exact o.sample ctx hctx
    within := hwithin
    grown := o.grown.trans (List.suffix_cons _ l) }

theorem memoryTick_onTime (L : a.Licensed config base) (o : OnTime config a base old w₀ f v h l) :
    (memoryTick f v (watch w₀ l).clock).Ensures (duties config w₀) h l fun r h' l' => match r with
      | .ok (.go v') => OnTime config a base old w₀ f v' h' l' ∧
          (watch w₀ l').clock = (watch w₀ l).clock
      | .ok (.ret r) => DutiesDone a old (.ok r) l'
      | _ => False := by
  unfold memoryTick
  rw [o.args]
  cases hm : a.memoryLimit with
  | none => exact ⟨o, rfl⟩
  | some m =>
    refine Act.ensures_ite (fun hdue => ?_) fun _ => ⟨o, rfl⟩
    simp only [Act.ensures_bind, Act.ensures_call]
    obtain ⟨hlimit, hinterval⟩ := L.memory m hm
    -- the wait is still on, so every reading so far was within the limit
    have hbelow : ∀ b ∈ memoryReads l, b ≤ m.limitBytes := by
      have hwithin := o.within
      rw [WaitArgs.Within, hm] at hwithin
      exact hwithin
    intro r _
    refine ⟨⟨by rintro ⟨⟩, by rintro ⟨⟩, fun _ => ⟨m.limitBytes, hlimit, hbelow, ?_⟩⟩, ?_⟩
    · rw [← hinterval]
      exact after_of_due (o.check m hm) (deadlineReached_iff.mp hdue)
    · cases r with
      | none =>
        refine ⟨o.checked none ?_, rfl⟩
        rw [WaitArgs.Within, hm]
        exact hbelow
      | some info =>
        refine Act.ensures_ite (fun hover => ?_) fun hover => ⟨o.checked (some info) ?_, rfl⟩
        · rw [WaitRule.ensures_finish]
          exact fun _ _ => ⟨.off rfl, m, memoryReads l, hm, rfl, hover, rfl, hbelow⟩
        · rw [WaitArgs.Within, hm]
          intro b hb
          rcases List.mem_cons.mp hb with rfl | hb
          · exact Nat.le_of_not_lt hover
          · exact hbelow b hb

theorem passthroughTick_onTime (o : OnTime config a base old w₀ f v h l) (nowNs : Nat) :
    (passthroughTick v nowNs).Ensures (duties config w₀) h l fun r h' l' => match r with
      | .ok v' => OnTime config a base old w₀ f v' h' l' ∧
          (watch w₀ l').clock = (watch w₀ l).clock
      | .error _ => False := by
  unfold passthroughTick
  split
  · exact ⟨o, rfl⟩
  · refine Act.ensures_ite (fun _ => ?_) fun _ => ⟨o, rfl⟩
    simp only [Act.ensures_bind, Act.ensures_call]
    refine (o.asks (by rfl)).mono fun r o' => ?_
    have hclock : (watch w₀ (⟨⟨.monitor, .pollStdin⟩, r⟩ :: l)).clock = (watch w₀ l).clock :=
      Watch.poll_clock _ _
    cases stdinPollStatus r with
    | readable => exact ⟨o'.vars rfl rfl rfl, hclock⟩
    | eof => exact ⟨o'.vars rfl rfl rfl, hclock⟩
    | idle => exact ⟨o', hclock⟩

/-- The next heartbeat moves on although none was printed. -/
theorem OnTime.passed (o : OnTime config a base old w₀ f v h l)
    (hdue : v.nextHeartbeatNs ≤ (watch w₀ l).clock) :
    OnTime config a base old w₀ f (beaten f v (watch w₀ l).clock) h l :=
  { o with
    beat := fun hb hhb hpos => by
      obtain ⟨hnext, hspaced⟩ := o.beat hb hhb hpos
      refine ⟨?_, hspaced⟩
      have hmax : nextDue .heartbeat hb.intervalNs w₀ l ≤ u64Max := satAdd_le _ _
      show _ ≤ min ((watch w₀ l).clock + f.heartbeatIntervalNs) u64Max
      omega }

/-- A heartbeat has been printed. -/
theorem OnTime.beaten (o : OnTime config a base old w₀ f v h l) {line : String}
    (hline : isHeartbeat line = true) (hdue : v.nextHeartbeatNs ≤ (watch w₀ l).clock) :
    OnTime config a base old w₀ f (beaten f v (watch w₀ l).clock) h
      (⟨⟨.monitor, .eprintln line⟩, ()⟩ :: l) := by
  have hq : Req.duty ⟨.monitor, .eprintln line⟩ = some .heartbeat := if_pos hline
  have hcheck : Duty.heartbeat ≠ .memory := by decide
  have hsample : Duty.heartbeat ≠ .throttle := by decide
  exact { o with
    beat := fun hb hhb hpos => by
      obtain ⟨hnext, hspaced⟩ := o.beat hb hhb hpos
      have hinterval := o.heartbeatInterval
      rw [hhb] at hinterval
      refine ⟨?_, ?_⟩
      · rw [nextDue_done hq, ← show f.heartbeatIntervalNs = hb.intervalNs from hinterval]
        exact Nat.le_refl _
      · rw [timesOf_done hq]
        refine Spaced.cons_iff.mpr ⟨?_, hspaced⟩
        intro last hlast
        have hlast' : last ∈ (timesOf .heartbeat w₀ l ++ [(watch w₀ l).start]).head? := hlast
        rw [head?_origin] at hlast'
        obtain rfl := Option.some.inj hlast'
        exact after_of_due hnext hdue
    check := fun m hm => by rw [nextDue_other hq hcheck rfl]; exact o.check m hm
    sample := fun ctx hctx => by
      rw [nextDue_other hq hsample rfl, timesOf_other hq hsample]
      exact o.sample ctx hctx
    within := by rw [memoryReads_off (by rw [hq]; exact fun h => hcheck (Option.some.inj h))]
                 exact o.within
    grown := o.grown.trans (List.suffix_cons _ l) }

theorem heartbeatTick_onTime (L : a.Licensed config base)
    (o : OnTime config a base old w₀ f v h l) (hdue : heartbeatDue f v (watch w₀ l).clock = true) :
    (heartbeatTick f v (watch w₀ l).clock).Ensures (duties config w₀) h l fun r h' l' =>
      match r with
      | .ok v' => OnTime config a base old w₀ f v' h' l'
      | .error _ => False := by
  simp only [heartbeatDue, Bool.and_eq_true, decide_eq_true_eq, Bool.not_eq_true',
    deadlineReached_iff] at hdue
  obtain ⟨⟨hpos, hearly⟩, hdue⟩ := hdue
  unfold heartbeatTick
  rw [o.args]
  cases hhb : a.heartbeat with
  | none => exact o.passed hdue
  | some hb =>
    refine Act.ensures_ite (fun _ => o.passed hdue) fun hquiet => ?_
    simp only [Act.ensures_bind, Act.ensures_call]
    obtain ⟨hloud, ⟨d, hd, hinterval⟩, hpid, hstart, htimeout⟩ := L.heartbeat hb hhb
    have hline := isHeartbeat_line ((elapsedNs hb.startNs (watch w₀ l).clock).getD 0) hb.pid
    have hbeaten := o.beaten hline hdue
    have hpos' : 0 < hb.intervalNs := by
      have hf := o.heartbeatInterval
      rw [hhb] at hf
      rw [← show f.heartbeatIntervalNs = hb.intervalNs from hf]
      exact hpos
    intro _ _
    refine ⟨?_, hbeaten⟩
    -- the line is due, so it comes an interval after the one before
    have hspaced := (hbeaten.beat hb hhb hpos').2
    have hduty : Req.duty ⟨.monitor, .eprintln (heartbeatLine ((elapsedNs hb.startNs
        (watch w₀ l).clock).getD 0) hb.pid)⟩ = some .heartbeat := if_pos hline
    rw [timesOf_done hduty] at hspaced
    constructor
    · intro _
      refine ⟨?_, ⟨d, hd, hinterval ▸ hpos', hinterval ▸ hspaced⟩, ?_, ?_⟩
      · rw [← hloud]
        simpa using hquiet
      · rw [← htimeout, ← o.deadline]
        simpa [deadlineReached] using hearly
      · exact ⟨hb.pid, hb.startNs, oldest_suffix o.grown hpid, oldest_suffix o.grown hstart, rfl⟩
    · intro h
      exact absurd (hduty.symm.trans h) (by decide)
    · intro h
      exact absurd (hduty.symm.trans h) (by decide)

theorem timerVerdict_onTime (L : a.Licensed config base)
    (o : OnTime config a base old w₀ f v h l) :
    (timerVerdict f v (watch w₀ l).clock).Ensures (duties config w₀) h l
      fun r h' l' => FlowOnTime config a base old w₀ f h' l' r := by
  have hfinish : ∀ reason, (finish f (.timedOut reason) : SuperAct (Flow Kevent)).Ensures
      (duties config w₀) h l fun r h' l' => FlowOnTime config a base old w₀ f h' l' r := by
    intro reason
    rw [WaitRule.ensures_finish]
    exact (o.asks (by rfl)).mono fun _ o' => o'.within
  refine Act.ensures_ite (fun _ => hfinish _) fun _ => Act.ensures_ite (fun hdue => ?_) fun _ =>
    Act.ensures_ite (fun _ => hfinish _) fun _ => o.vars rfl rfl rfl
  simp only [Act.ensures_bind]
  refine (heartbeatTick_onTime L o hdue).mono fun r h' l' hr => ?_
  cases r with
  | ok v' => exact hr
  | error e => exact hr.elim

theorem onTimer_onTime (L : a.Licensed config base) (o : OnTime config a base old w₀ f v h l) :
    (onTimer f v).Ensures (duties config w₀) h l
      fun r h' l' => FlowOnTime config a base old w₀ f h' l' r := by
  simp only [onTimer, Act.ensures_bind, ensures_now]
  refine o.asksClock (fun t l₁ ht o₁ => ?_) fun _ o₁ => o₁.within
  subst ht
  refine (throttleTick_onTime o₁).mono fun r h₂ l₂ hr => ?_
  cases r with
  | error e => exact hr.elim
  | ok v₂ =>
    obtain ⟨o₂, hclock₂⟩ := hr
    dsimp only
    rw [← hclock₂]
    refine (memoryTick_onTime L o₂).mono fun r h₃ l₃ hr => ?_
    rcases r with e | v₃ | v₃ | ev | r
    · exact hr.elim
    · obtain ⟨o₃, hclock₃⟩ := hr
      dsimp only
      rw [← hclock₃, Act.ensures_bind]
      refine (passthroughTick_onTime o₃ _).mono fun r h₄ l₄ hr => ?_
      cases r with
      | error e => exact hr.elim
      | ok v₄ =>
        obtain ⟨o₄, hclock₄⟩ := hr
        dsimp only
        rw [← hclock₄]
        exact timerVerdict_onTime L o₄
    · exact hr.elim
    · exact hr.elim
    · exact hr

/-! ### A round, and the loop -/

theorem onEvent_onTime (L : a.Licensed config base) (o : OnTime config a base old w₀ f v h l)
    (ev : Kevent) :
    (onEvent f v ev).Ensures (duties config w₀) h l
      fun r h' l' => FlowOnTime config a base old w₀ f h' l' r :=
  Act.ensures_ite (fun _ => onStdin_onTime o ev) fun _ =>
    Act.ensures_ite (fun _ => onTimer_onTime L o) fun _ =>
    Act.ensures_ite (fun _ => onEventError_onTime o ev) fun _ => ⟨v, o⟩

theorem awaitEvent_onTime (L : a.Licensed config base) (o : OnTime config a base old w₀ f v h l)
    (nowNs : Nat) :
    (awaitEvent fuel f v nowNs).Ensures (duties config w₀) h l
      fun r h' l' => FlowOnTime config a base old w₀ f h' l' r := by
  simp only [awaitEvent, Act.ensures_bind, Act.ensures_call]
  refine (o.asks (by rfl)).mono fun r o' => ?_
  -- what the loop notes after a call of `kevent` is none of the times its duties are due at
  have hvars : OnTime config a base old w₀ f (afterKevent f v nowNs) h _ := o'.vars rfl rfl rfl
  cases r with
  | ok ev => exact onEvent_onTime L hvars ev
  | error err => exact onKeventError_onTime hvars err

theorem waitRound_onTime (L : a.Licensed config base) (o : OnTime config a base old w₀ f v h l) :
    (waitRound fuel f v).Ensures (duties config w₀) h l fun r h' l' => match r with
      | .ok (.inl v') => OnTime config a base old w₀ f v' h' l'
      | .ok (.inr (.inl r)) => DutiesDone a old (.ok r) l'
      | .ok (.inr (.inr _)) => ∃ v', OnTime config a base old w₀ f v' h' l'
      | .error _ => a.Within old (memoryReads l') := by
  simp only [waitRound, Act.ensures_bind]
  refine (loopHead_onTime o).mono fun r h₁ l₁ hr => ?_
  obtain ⟨rfl, hr⟩ := hr
  rcases r with e | nowNs | v₁ | ev | r
  · exact hr
  · simp only [Act.ensures_bind]
    refine (awaitEvent_onTime L hr nowNs).mono fun r h₂ l₂ hr => ?_
    rcases r with e | ev | v₂ | ev | r <;> exact hr
  · exact hr.elim
  · exact hr.elim
  · exact hr

/-- After the loop no duty is done any more. -/
theorem afterLoop_onTime (o : OnTime config a base old w₀ f v h l) (ev : Kevent) :
    (afterLoop fuel f ev).Ensures (duties config w₀) h l fun r _ l' => DutiesDone a old r l' := by
  simp only [afterLoop, closeKq, Act.ensures_bind, Act.ensures_call, Act.ensures_pure]
  refine (o.asks (by rfl)).mono fun _ o' => ?_
  refine Act.ensures_ite (fun _ => reapGone_onTime o') fun _ => Act.ensures_ite (fun _ => ?_)
    fun _ => Act.ensures_ite (fun _ => ?_) fun _ => o'.within
  · simp only [Act.ensures_bind]
    refine (o'.asking (asking_childWaitOrFail (fun _ => rfl) fuel) h).mono fun r h' l' o'' => ?_
    cases r with
    | ok st => exact o''.within
    | error e => exact o''.within
  · cases f.signalFd with
    | none => exact o'.within
    | some fd =>
      simp only [Act.ensures_bind, Act.ensures_call]
      refine (o'.asks (by rfl)).mono fun b o'' => ?_
      cases b <;> exact o''.within

end blocks

/-! ## The whole wait -/

/-- What a wait begins with. -/
structure Begun (config : RunConfig) (a : WaitArgs) (base : Trace) (old : List Nat) (w₀ : Watch)
    (h : Handles) (l : Trace) : Prop where
  beat : a.heartbeat.isSome = true → timesOf .heartbeat w₀ l = []
  check : a.memoryLimit.isSome = true → timesOf .memory w₀ l = []
  sample : ∀ ctx, h.throttle = some ctx → config.cpuThrottle = some ctx.cfg ∧
    (timesOf .throttle w₀ l).head? = some ctx.state.lastWallNs
  within : a.Within old (memoryReads l)
  grown : base <:+ l

section wait
variable {config : RunConfig} {a : WaitArgs} {base : Trace} {old : List Nat} {w₀ : Watch}
  {f : WaitFixed} {v : WaitVars} {h : Handles} {l : Trace} {fuel : Nat}

theorem Begun.asks (b : Begun config a base old w₀ h l) {q : Req} (hq : q.duty = none) :
    Asks (duties config w₀) q l fun _ l' => Begun config a base old w₀ h l' := by
  intro x _
  refine ⟨.off hq, ?_⟩
  constructor
  · rw [timesOf_off hq]
    exact b.beat
  · rw [timesOf_off hq]
    exact b.check
  · rw [timesOf_off hq]
    exact b.sample
  · rw [memoryReads_off (by rw [hq]; decide)]
    exact b.within
  · exact b.grown.trans (List.suffix_cons _ l)

/-- A next time past the end of the clock is the same either way. -/
theorem advanceNs_capped (t gap : Nat) :
    (if gap < u64Max then advanceNs t gap else u64Max) = advanceNs t gap := by
  by_cases hgap : gap < u64Max
  · rw [if_pos hgap]
  · rw [if_neg hgap]
    show u64Max = min (t + gap) u64Max
    omega

/-- The set-up, once the wait has begun at `startNs`. -/
def SettingUpAt (config : RunConfig) (a : WaitArgs) (base : Trace) (old : List Nat) (w₀ : Watch)
    (h : Handles) (startNs : Nat) (s : Handles) (l : Trace) : Prop :=
  s = h ∧ Begun config a base old w₀ h l ∧ (watch w₀ l).start = startNs

/-- The rest of the set-up asks for no duty, and leaves the handles alone. -/
theorem stays_settingUpAt (startNs : Nat) :
    let J := SettingUpAt config a base old w₀ h startNs
    (∀ stdin, Act.Stays (duties config w₀) J (validateStdin stdin)) ∧
      (∀ stdin, Act.Stays (duties config w₀) J (initialPoll a.confine stdin)) ∧
      Act.Stays (duties config w₀) J openKqueue := by
  intro J
  -- a call that is no duty leaves the start and the duties as they are
  have hcall : ∀ q : Req, q.offDuty = true →
      Act.Stays (duties config w₀) J (Act.call q : SuperAct (Ans q)) := by
    refine fun q hoff => .call fun s l hJ x hr => ?_
    obtain ⟨rfl, b, hstart⟩ := hJ
    obtain ⟨hq, hbegin⟩ := offDuty_iff.mp hoff
    obtain ⟨hg, b'⟩ := b.asks hq x hr
    exact ⟨hg, rfl, b', (Watch.step_start x hbegin).trans hstart⟩
  have hnow : Act.Stays (duties config w₀) J (now a.confine) := by
    refine .lift fun s l hJ => ?_
    cases a.confine with
    | wall =>
      have hask : Asks (duties config w₀) ⟨.monitor, .wallNow⟩ l fun _ l' => J s l' :=
        hcall _ rfl s l hJ
      refine hask.mono fun r hJ' => ?_
      cases r <;> exact hJ'
    | active => exact hcall ⟨.monitor, .activeNow⟩ rfl s l hJ
  refine ⟨fun stdin => ?_, fun stdin => ?_, ?_⟩
  · cases stdin with
    | none => exact .pure
    | some cfg => exact .bind (hcall _ rfl) fun _ => .pure
  · cases stdin with
    | none => exact .pure
    | some cfg =>
      refine .ite (.bind (hcall _ rfl) fun r => ?_) .pure
      cases stdinPollStatus r with
      | readable => exact .bind hnow fun _ => .pure
      | eof => exact .pure
      | idle => exact .pure
  · refine .bind (hcall _ rfl) fun r => ?_
    cases r with
    | ok kq => exact .pure
    | error errno => exact .throw

/-- The first next times are right. -/
theorem Begun.onTime (b : Begun config a base old w₀ h l) (hargs : f.args = a)
    (hdeadline : f.deadlineNs = (watch w₀ l).deadline a.timeout)
    (hthrottle : f.throttleIntervalNs = h.throttle.elim u64Max (·.cfg.intervalNs))
    (hmemory : f.memoryCheckIntervalNs = a.memoryLimit.elim u64Max (·.checkIntervalNs))
    (hheartbeat : f.heartbeatIntervalNs = a.heartbeat.elim 0 (·.intervalNs))
    (hnextThrottle : v.nextThrottleNs = firstThrottleNs h.throttle)
    (hnextMemory : v.nextMemoryCheckNs = firstMemoryCheckNs (watch w₀ l).start a.memoryLimit)
    (hnextHeartbeat : v.nextHeartbeatNs = firstHeartbeatNs (watch w₀ l).start f.heartbeatIntervalNs) :
    OnTime config a base old w₀ f v h l where
  args := hargs
  deadline := hdeadline
  heartbeatInterval := hheartbeat
  memoryInterval := hmemory
  -- no duty has been done yet, so the first due times are the ones to compare with
  beat hb hhb hpos := by
    have htimes : timesOf .heartbeat w₀ l = [] := b.beat (by rw [hhb]; rfl)
    rw [hhb] at hheartbeat
    have hf : f.heartbeatIntervalNs = hb.intervalNs := hheartbeat
    rw [nextDue, htimes, hnextHeartbeat, firstHeartbeatNs, hf, if_pos hpos]
    exact ⟨Nat.le_refl _, .single⟩
  check m hm := by
    have htimes : timesOf .memory w₀ l = [] := b.check (by rw [hm]; rfl)
    rw [nextDue, htimes, hnextMemory, hm, firstMemoryCheckNs, advanceNs_capped]
    exact Nat.le_refl _
  sample ctx hctx := by
    obtain ⟨hcfg, hlast⟩ := b.sample ctx hctx
    rw [hctx] at hthrottle
    refine ⟨hcfg, hthrottle, ?_, ?_⟩
    · intro hnil
      rw [hnil] at hlast
      cases hlast
    · rw [nextDue, List.headD_eq_head?_getD, hlast, hnextThrottle, hctx]
      show advanceNs ctx.state.lastWallNs ctx.cfg.intervalNs ≤
        if ctx.cfg.intervalNs < u64Max then advanceNs ctx.state.lastWallNs ctx.cfg.intervalNs
        else u64Max
      rw [advanceNs_capped]
  within := b.within
  grown := b.grown

theorem waitSetup_onTime (b : Begun config a base old w₀ h l) :
    (waitSetup a).Ensures (duties config w₀) h l fun r h' l' => match r with
      | .ok (f, v) => OnTime config a base old w₀ f v h' l'
      | .error _ => a.Within old (memoryReads l') := by
  simp only [waitSetup, Act.ensures_bind, ensures_now]
  refine asksClock_intro w₀ fun e r hreq _ _ hw hr => ?_
  obtain ⟨q, x⟩ := e
  change q = _ at hreq
  have hq : q.duty = none := by
    rw [hreq]
    cases a.confine <;> rfl
  obtain ⟨hg, b₁⟩ := b.asks hq x hr
  refine ⟨hg, ?_⟩
  cases r with
  | none => exact b₁.within
  | some startNs =>
    have hclock : (watch w₀ (⟨q, x⟩ :: l)).clock = startNs := by rw [hw]; rfl
    simp only [Act.ensures_get, loadSignalFd, Act.ensures_bind, Act.ensures_call, Act.ensures_pure]
    refine (b₁.asks (q := ⟨.monitor, .loadSignalPipe⟩) rfl).mono fun fd b₂ => ?_
    -- from here on the wait has begun at the reading
    obtain ⟨hvalidate, hpoll, hopen⟩ :=
      @stays_settingUpAt config a base old w₀ h startNs
    refine (hvalidate a.stdinTimeout h _ ⟨rfl, b₂, hclock⟩).mono fun r h₃ l₃ hJ₃ => ?_
    cases r with
    | error e => exact hJ₃.2.1.within
    | ok stdin =>
      refine (hpoll stdin h₃ l₃ hJ₃).mono fun r h₄ l₄ hJ₄ => ?_
      cases r with
      | error e => exact hJ₄.2.1.within
      | ok stdin' =>
        refine (hopen h₄ l₄ hJ₄).mono fun r h₅ l₅ hJ₅ => ?_
        cases r with
        | error e => exact hJ₅.2.1.within
        | ok kq =>
          obtain ⟨rfl, b₅, hstart⟩ := hJ₅
          refine b₅.onTime rfl ?_ rfl rfl rfl rfl ?_ ?_
          · rw [Watch.deadline, hstart]
          · rw [hstart]
          · rw [hstart]

/-- **A wait does its duties on time.** -/
theorem waitWithKqueue_onTime (L : a.Licensed config base) (b : Begun config a base old w₀ h l) :
    (waitWithKqueue fuel a).Ensures (duties config w₀) h l fun r _ l' => DutiesDone a old r l' := by
  rw [waitWithKqueue, Act.ensures_bind]
  refine (waitSetup_onTime b).mono fun r h' l' hr => ?_
  rcases r with e | ⟨f, v⟩
  · exact hr
  · dsimp only
    rw [Act.ensures_bind]
    refine Act.ensures_iterate (fun v h l => OnTime config a base old w₀ f v h l)
      (fun v h l o => ?_) (fun _ _ _ _ => trivial) fuel hr
    refine (waitRound_onTime L o).mono fun r h' l' hr => ?_
    rcases r with e | v' | r | ev
    · exact hr
    · exact hr
    · exact hr
    · obtain ⟨v', o'⟩ := hr
      exact afterLoop_onTime o' ev

end wait
end Procguard
