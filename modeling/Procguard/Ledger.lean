import Procguard.Verdict
import Procguard.Monitor

/- The books of a supervised run: what the log records of the signals sent to the child
   and of its reaping, and what the monitor owes at each event (`LedgerGuar`). A run is
   in the state `Supervised` until the child is `Reaped`; the lemmas at the end say what
   one call does to these. -/
namespace Procguard
open Interact

/-! ## What the log records -/

/-- A signal the monitor sends the child. One `send_signal` counts once: the `kill` that
    follows a `killpg` without a group is not counted again. -/
def monitorSend (foreground : Bool) : Event → Option Int
  | ⟨⟨.monitor, .killpg _ sig⟩, _⟩ => some sig
  | ⟨⟨.monitor, .kill _ sig⟩, _⟩ => if foreground then some sig else none
  | _ => none

/-- The signals the monitor sent, newest first. -/
def sends (foreground : Bool) (l : Trace) : List Int := l.filterMap (monitorSend foreground)

/-- A successful wait on the child. -/
def reapOf (pid : Int) : Event → Option (RawExitStatus × Rusage)
  | ⟨⟨.monitor, .wait4 p⟩, .ok st⟩ => if p = pid then some st else none
  | ⟨⟨.monitor, .wait4NoHang p⟩, .ok st⟩ => if p = pid then st else none
  | _ => none

/-- The successful waits on the child. -/
def reaps (pid : Int) (l : Trace) : List (RawExitStatus × Rusage) := l.filterMap (reapOf pid)

/-- A blocking wait on the child failed. -/
def WaitFailed (pid : Int) : Event → Trace → Prop
  | ⟨⟨.monitor, .wait4 p⟩, .error err⟩, _ => p = pid ∧ err ≠ EINTR
  | _, _ => False

instance (pid : Int) (e : Event) (l : Trace) : Decidable (WaitFailed pid e l) := by
  obtain ⟨⟨caller, call⟩, a⟩ := e
  rcases caller with _ | _ <;> rcases call with _ | _ <;> first
    | exact isFalse id
    | rcases a with _ | _ <;> first
      | exact isFalse id
      | exact inferInstanceAs (Decidable (_ ∧ _))

/-- The throttle was told that the process is gone: it could not signal or read it. -/
def ThrottleLost : Event → Trace → Prop
  | ⟨⟨.throttle, .kill _ _⟩, .error _⟩, _ => True
  | ⟨⟨.throttle, .procPidRusage _⟩, r⟩, _ => r = none
  | _, _ => False

/-- The pid a signal goes to, from any part of the program but the hook. -/
def signalTo : Event → Option Int
  | ⟨⟨.hook, _⟩, _⟩ => none
  | ⟨⟨_, .kill p _⟩, _⟩ | ⟨⟨_, .killpg p _⟩, _⟩ => some p
  | _ => none

@[simp] theorem sends_cons (foreground : Bool) (e : Event) (l : Trace) :
    sends foreground (e :: l) = (monitorSend foreground e).toList ++ sends foreground l := by
  cases h : monitorSend foreground e <;> simp [sends, h]

@[simp] theorem reaps_cons (pid : Int) (e : Event) (l : Trace) :
    reaps pid (e :: l) = (reapOf pid e).toList ++ reaps pid l := by
  cases h : reapOf pid e <;> simp [reaps, h]

/-! ## Calls that change nothing in the books -/

/-- An event that changes nothing in the books: no signal, no successful wait. -/
structure Blank (e : Event) : Prop where
  send : ∀ foreground, monitorSend foreground e = none
  reap : ∀ pid, reapOf pid e = none
  deliver : throttleDelivered e = none

/-- Neither a signal nor a wait, unless it is the hook's own. -/
def Req.idle : Req → Bool
  | ⟨.hook, _⟩ => true
  | ⟨_, .kill _ _⟩ | ⟨_, .killpg _ _⟩ | ⟨_, .wait4 _⟩ | ⟨_, .wait4NoHang _⟩ => false
  | _ => true

/-- An idle call the automaton does not follow either. -/
structure Req.Passive (q : Req) : Prop where
  idle : q.idle = true
  unwatched : q.caller ≠ .monitor ∨ q.call.unwatched = true

theorem Req.Passive.of_hook {q : Req} (h : q.caller = .hook) : q.Passive := by
  obtain ⟨caller, call⟩ := q
  cases h
  exact ⟨rfl, .inl nofun⟩

theorem idle_of_looks {pid : Int} {q : Req} (h : q.looks pid = true) : q.idle = true := by
  obtain ⟨caller, call⟩ := q
  cases caller <;> cases call <;> first | rfl | cases h

theorem Blank.of_idle {q : Req} (a : Ans q) (hq : q.idle = true) : Blank ⟨q, a⟩ := by
  obtain ⟨caller, call⟩ := q
  constructor
  · intro foreground
    cases caller <;> cases call <;> first | rfl | cases hq
  · intro pid
    cases caller <;> cases call <;> first | rfl | cases hq
  · cases caller <;> cases call <;> first | rfl | cases hq

theorem throttleKill_idle {q : Req} {a : Ans q} (hq : q.idle = true) :
    throttleKill ⟨q, a⟩ = none := by
  obtain ⟨caller, call⟩ := q
  cases caller <;> cases call <;> first | rfl | cases hq

theorem signalTo_idle {q : Req} {a : Ans q} (hq : q.idle = true) : signalTo ⟨q, a⟩ = none := by
  obtain ⟨caller, call⟩ := q
  cases caller <;> cases call <;> first | rfl | cases hq

/-- The throttle neither sends for the monitor nor waits. -/
theorem monitorSend_throttle {call : Call} (a : Ans ⟨.throttle, call⟩) (foreground : Bool) :
    monitorSend foreground ⟨⟨.throttle, call⟩, a⟩ = none := by
  cases call <;> rfl

theorem reapOf_throttle {call : Call} (a : Ans ⟨.throttle, call⟩) (pid : Int) :
    reapOf pid ⟨⟨.throttle, call⟩, a⟩ = none := by
  cases call <;> rfl

/-- `l'` goes on from `l` with events the automaton does not follow. -/
structure Unmoved (w₀ : Watch) (l l' : Trace) : Prop where
  suffix : l <:+ l'
  watch_eq : watch w₀ l' = watch w₀ l

namespace Unmoved
variable {w₀ : Watch} {l l' l'' : Trace}

theorem refl (w₀ : Watch) (l : Trace) : Unmoved w₀ l l := ⟨List.suffix_refl l, rfl⟩

theorem trans (h : Unmoved w₀ l l') (h' : Unmoved w₀ l' l'') : Unmoved w₀ l l'' :=
  ⟨h.suffix.trans h'.suffix, h'.watch_eq.trans h.watch_eq⟩

theorem event {q : Req} {a : Ans q} (hq : q.caller ≠ .monitor ∨ q.call.unwatched = true) :
    Unmoved w₀ l (⟨q, a⟩ :: l) :=
  ⟨List.suffix_cons _ l, Watch.step_unwatched hq⟩

end Unmoved

/-! ## What is owed at each event -/

/-- Why the child may be told to terminate: a limit was reached, or a wake-up came that
    counts as a timeout. -/
inductive Due (config : RunConfig) (pid : Int) (w₀ : Watch) (l : Trace) : Prop
  | deadline (h : (watch w₀ l).deadline config.timeout ≤ (watch w₀ l).clock)
  | stdinIdle (d : Duration) (hd : config.stdinTimeout = some d)
      (h : (watch w₀ l).IdleReached (durationToNs d))
  | memory (limitBytes bytes : Nat) (hlimit : config.limits.memBytes = some limitBytes)
      (hover : limitBytes < bytes) (h : Ever (MemoryReading pid bytes) l)
  | unexpected (h : Ever (Unexpected w₀) l)

theorem due_iff {config : RunConfig} {pid : Int} {w₀ : Watch} {l : Trace} :
    Due config pid w₀ l ↔ (watch w₀ l).deadline config.timeout ≤ (watch w₀ l).clock ∨
      (∃ d ∈ config.stdinTimeout, (watch w₀ l).IdleReached (durationToNs d)) ∨
      (∃ limitBytes ∈ config.limits.memBytes, Ever (MemoryOver pid limitBytes) l) ∨
      Ever (Unexpected w₀) l := by
  constructor
  · intro h
    cases h with
    | deadline h => exact .inl h
    | stdinIdle d hd h => exact .inr (.inl ⟨d, hd, h⟩)
    | memory limitBytes bytes hlimit hover h =>
      exact .inr (.inr (.inl ⟨limitBytes, hlimit, h.mono fun _ _ hr => ⟨bytes, hover, hr⟩⟩))
    | unexpected h => exact .inr (.inr (.inr h))
  · intro h
    rcases h with h | ⟨d, hd, h⟩ | ⟨limitBytes, hlimit, h⟩ | h
    · exact .deadline h
    · exact .stdinIdle d hd h
    · obtain ⟨bytes, h⟩ := Ever.exists_iff.mp h
      obtain ⟨_, _, _, -, hover, -⟩ := h.witness
      exact .memory limitBytes bytes hlimit hover (h.mono fun _ _ hr => hr.2)
    · exact .unexpected h

instance (config : RunConfig) (pid : Int) (w₀ : Watch) (l : Trace) :
    Decidable (Due config pid w₀ l) :=
  decidable_of_iff _ due_iff.symm

/-- Why `sig` may be sent when the signals `sent` have been sent already. -/
def Reason (config : RunConfig) (pid : Int) (w₀ : Watch) (sig : Int) (l : Trace) :
    List Int → Prop
  | [] => (sig = config.signal.asRaw ∧ Due config pid w₀ l) ∨
      ∃ s : Signal, sig = s.asRaw ∧ Ever (SignalByte s) l
  | [first] => first = config.signal.asRaw ∧
      (sig = Signal.sigkill.asRaw ∨ ∃ s : Signal, sig = s.asRaw ∧ Ever (SignalByte s) l)
  | _ => False

/-- What the monitor owes at each event. -/
structure LedgerGuar (config : RunConfig) (pid : Int) (w₀ : Watch) (e : Event) (l : Trace) :
    Prop where
  /-- Every signal goes to the child, and none once it has been reaped. -/
  target : ∀ p, signalTo e = some p → p = pid ∧ reaps pid l = []
  /-- A blocking wait follows an exit notice or a signal. -/
  wait : e.req = ⟨.monitor, .wait4 pid⟩ →
    Ever (ExitNotice w₀) l ∨ sends config.foreground l ≠ []
  /-- No signal to a child the throttle holds stopped, unless it is gone. -/
  resumed : ∀ sig, monitorSend config.foreground e = some sig → heldStopped l = true →
    Ever ThrottleLost l
  /-- The throttle stops nobody once a signal was sent. -/
  stop : throttleKill e = some SIGSTOP → sends config.foreground l = []
  reason : ∀ sig, monitorSend config.foreground e = some sig →
    Reason config pid w₀ sig l (sends config.foreground l)

def ledger (config : RunConfig) (pid : Int) (w₀ : Watch) : Contract Ans where
  guar := LedgerGuar config pid w₀

section transport
variable {config : RunConfig} {pid : Int} {w₀ : Watch} {l l' : Trace}

theorem Due.unmoved (hm : Unmoved w₀ l l') (h : Due config pid w₀ l) : Due config pid w₀ l' := by
  cases h with
  | deadline h => exact .deadline (by rw [hm.watch_eq]; exact h)
  | stdinIdle d hd h => exact .stdinIdle d hd (by rw [hm.watch_eq]; exact h)
  | memory limitBytes bytes hlimit hover h =>
    exact .memory limitBytes bytes hlimit hover (h.later hm.suffix)
  | unexpected h => exact .unexpected (h.later hm.suffix)

theorem Reason.unmoved {sig : Int} {sent : List Int} (hm : Unmoved w₀ l l')
    (h : Reason config pid w₀ sig l sent) : Reason config pid w₀ sig l' sent := by
  match sent, h with
  | [], .inl ⟨hsig, hdue⟩ => exact .inl ⟨hsig, hdue.unmoved hm⟩
  | [], .inr ⟨s, hs, hbyte⟩ => exact .inr ⟨s, hs, hbyte.later hm.suffix⟩
  | [_], ⟨hfirst, .inl hkill⟩ => exact ⟨hfirst, .inl hkill⟩
  | [_], ⟨hfirst, .inr ⟨s, hs, hbyte⟩⟩ => exact ⟨hfirst, .inr ⟨s, hs, hbyte.later hm.suffix⟩⟩

/-- A verdict of the first wait that ends in a timeout is a reason to terminate. -/
theorem Due.of_timeout {startNs : Nat} {reason : TimeoutReason}
    (h : Verdict w₀ (waitArgsOf config pid startNs) l (.timedOut reason)) :
    Due config pid w₀ l := by
  cases reason with
  | wallClock => exact h.elim .deadline .unexpected
  | stdinIdle =>
    obtain ⟨cfg, hcfg, hidle⟩ := h
    obtain ⟨d, hd, rfl⟩ := Option.map_eq_some_iff.mp hcfg
    exact .stdinIdle d hd hidle

theorem Due.of_memory {startNs limitBytes actualBytes : Nat}
    (h : Verdict w₀ (waitArgsOf config pid startNs) l
      (.memoryLimitExceeded limitBytes actualBytes)) :
    Due config pid w₀ l := by
  obtain ⟨m, hm, rfl, hover, hread⟩ := h
  obtain ⟨limitBytes, hlimit, rfl⟩ := Option.map_eq_some_iff.mp hm
  exact .memory _ _ hlimit hover hread

/-- An event without a signal owes at most the reason to wait. -/
theorem LedgerGuar.of_silent {e : Event} (hsend : monitorSend config.foreground e = none)
    (hkill : throttleKill e = none) (hsig : signalTo e = none)
    (hwait : e.req = ⟨.monitor, .wait4 pid⟩ →
      Ever (ExitNotice w₀) l ∨ sends config.foreground l ≠ []) :
    LedgerGuar config pid w₀ e l where
  target p h := by rw [hsig] at h; cases h
  wait := hwait
  resumed sig h := by rw [hsend] at h; cases h
  stop h := by rw [hkill] at h; cases h
  reason sig h := by rw [hsend] at h; cases h

theorem LedgerGuar.of_idle {q : Req} {a : Ans q} (hq : q.idle = true) :
    LedgerGuar config pid w₀ ⟨q, a⟩ l := by
  refine .of_silent ((Blank.of_idle a hq).send _) (throttleKill_idle hq) (signalTo_idle hq)
    fun h => ?_
  change q = _ at h
  subst h
  cases hq

/-- The throttle's own signals: to a child not reaped, and a stop only before the
    monitor has sent anything. -/
theorem LedgerGuar.of_throttle {p sig : Int} {a : Ans ⟨.throttle, .kill p sig⟩}
    (hown : p = pid) (hreap : reaps pid l = []) (hstop : sig = SIGSTOP → sends config.foreground l = []) :
    LedgerGuar config pid w₀ ⟨⟨.throttle, .kill p sig⟩, a⟩ l where
  target _ h := ⟨(Option.some.inj h).symm.trans hown, hreap⟩
  wait := nofun
  resumed _ h := nomatch h
  stop h := hstop (Option.some.inj h)
  reason _ h := nomatch h

/-- A signal of the monitor, to a child not reaped and let go by the throttle. -/
theorem LedgerGuar.of_send {q : Req} {a : Ans q} {sig : Int}
    (hq : q = ⟨.monitor, .kill pid sig⟩ ∨ q = ⟨.monitor, .killpg pid sig⟩)
    (hreap : reaps pid l = []) (hreleased : heldStopped l = true → Ever ThrottleLost l)
    (hreason : Reason config pid w₀ sig l (sends config.foreground l) ∨
      monitorSend config.foreground ⟨q, a⟩ = none) :
    LedgerGuar config pid w₀ ⟨q, a⟩ l := by
  refine ⟨?_, ?_, fun _ _ => hreleased, ?_, ?_⟩
  · intro p hp
    refine ⟨?_, hreap⟩
    rcases hq with rfl | rfl <;> exact (Option.some.inj hp).symm
  · rcases hq with rfl | rfl <;> exact nofun
  · rcases hq with rfl | rfl <;> exact nofun
  · intro sig' hsig'
    rcases hreason with hreason | hnone
    · have hsame : sig' = sig := by
        rcases hq with rfl | rfl
        · rw [monitorSend] at hsig'
          split at hsig'
          · exact (Option.some.inj hsig').symm
          · cases hsig'
        · exact (Option.some.inj hsig').symm
      rw [hsame]
      exact hreason
    · rw [hnone] at hsig'
      cases hsig'

end transport

/-! ## The states of a run -/

/-- The throttle does not hold the child stopped, unless the child is gone. -/
def Released (l : Trace) : Prop := heldStopped l = true → Ever ThrottleLost l

/-- The child is alive as far as the monitor knows, and `sent` has been sent. The
    throttle's flags are true: a child it holds stopped is one it knows it holds
    stopped, or one that is gone. Once something has been sent it holds nobody. -/
structure Supervised (config : RunConfig) (pid : Int) (sent : List Int) (h : Handles)
    (l : Trace) : Prop where
  child_pid : h.child.pid = pid
  live : h.child.exited = false
  unreaped : reaps pid l = []
  sent_eq : sends config.foreground l = sent
  own : ∀ ctx, h.throttle = some ctx → ctx.state.pid = pid
  lost : ∀ ctx, h.throttle = some ctx → ctx.state.processExited = true → Ever ThrottleLost l
  held : heldStopped l = true → Ever ThrottleLost l ∨
    ∃ ctx, h.throttle = some ctx ∧ ctx.state.suspended = true
  released : sent ≠ [] → Released l

/-- The child has been reaped, after `sent` had been sent. -/
structure Reaped (config : RunConfig) (pid : Int) (sent : List Int)
    (st : RawExitStatus × Rusage) (l : Trace) : Prop where
  reaped : reaps pid l = [st]
  sent_eq : sends config.foreground l = sent

/-- A child that was continued is not held stopped. -/
theorem heldStopped_continued (p : Int) (l : Trace) :
    heldStopped (⟨⟨.throttle, .kill p SIGCONT⟩, .ok ()⟩ :: l) = false := by
  rw [heldStopped, lastThrottleSignal_cons]
  rfl

theorem heldStopped_of_none {e : Event} {l : Trace} (h : throttleDelivered e = none) :
    heldStopped (e :: l) = heldStopped l := by
  simp [heldStopped, h]

namespace Supervised
variable {config : RunConfig} {pid : Int} {w₀ : Watch} {sent : List Int} {h : Handles} {l : Trace}

/-- An event that is neither a successful wait nor a signal of the throttle. -/
theorem event {e : Event} (hs : Supervised config pid sent h l) (hreap : reapOf pid e = none)
    (hdeliver : throttleDelivered e = none)
    (hsend : monitorSend config.foreground e ≠ none → Released l) :
    Supervised config pid ((monitorSend config.foreground e).toList ++ sent) h (e :: l) where
  child_pid := hs.child_pid
  live := hs.live
  unreaped := by rw [reaps_cons, hreap]; exact hs.unreaped
  sent_eq := by rw [sends_cons, hs.sent_eq]
  own := hs.own
  lost ctx hctx hx := .inr (hs.lost ctx hctx hx)
  held hheld := by
    rw [heldStopped_of_none hdeliver] at hheld
    exact (hs.held hheld).imp_left .inr
  released hne hheld := by
    rw [heldStopped_of_none hdeliver] at hheld
    by_cases hnone : monitorSend config.foreground e = none
    · rw [hnone] at hne
      exact .inr (hs.released hne hheld)
    · exact .inr (hsend hnone hheld)

theorem blank {e : Event} (hs : Supervised config pid sent h l) (he : Blank e) :
    Supervised config pid sent h (e :: l) := by
  have h := hs.event (he.reap pid) he.deliver fun hne => absurd (he.send _) hne
  rwa [he.send] at h

/-- A call of the throttle: what the new state of the throttle has to say for itself. -/
theorem throttled {call : Call} {a : Ans ⟨.throttle, call⟩} {ctx : ThrottleContext}
    {st : CpuThrottleState} (hs : Supervised config pid sent h l) (hown : st.pid = pid)
    (hlost : st.processExited = true → Ever ThrottleLost (⟨⟨.throttle, call⟩, a⟩ :: l))
    (hheld : heldStopped (⟨⟨.throttle, call⟩, a⟩ :: l) = true →
      Ever ThrottleLost (⟨⟨.throttle, call⟩, a⟩ :: l) ∨ st.suspended = true)
    (hreleased : sent ≠ [] → Released (⟨⟨.throttle, call⟩, a⟩ :: l)) :
    Supervised config pid sent { h with throttle := some { ctx with state := st } }
      (⟨⟨.throttle, call⟩, a⟩ :: l) where
  child_pid := hs.child_pid
  live := hs.live
  unreaped := by rw [reaps_cons, reapOf_throttle]; exact hs.unreaped
  sent_eq := by rw [sends_cons, monitorSend_throttle]; exact hs.sent_eq
  own := by rintro _ ⟨⟩; exact hown
  lost := by rintro _ ⟨⟩ hx; exact hlost hx
  held h := (hheld h).imp_right fun hsus => ⟨_, rfl, hsus⟩
  released := hreleased

theorem flag (hs : Supervised config pid sent h l) {ctx : ThrottleContext}
    (hctx : h.throttle = some ctx) (hst : heldStopped l = true) :
    Ever ThrottleLost l ∨ ctx.state.suspended = true := by
  refine (hs.held hst).imp_right ?_
  rintro ⟨ctx', hctx', hsus⟩
  rw [hctx] at hctx'
  cases hctx'
  exact hsus

/-- A new state of the throttle with the same flags. -/
theorem sameFlags (hs : Supervised config pid sent h l) {ctx : ThrottleContext}
    (hctx : h.throttle = some ctx) {st : CpuThrottleState} (hpid : st.pid = ctx.state.pid)
    (hx : st.processExited = ctx.state.processExited)
    (hsus : st.suspended = ctx.state.suspended) :
    Supervised config pid sent { h with throttle := some { ctx with state := st } } l where
  child_pid := hs.child_pid
  live := hs.live
  unreaped := hs.unreaped
  sent_eq := hs.sent_eq
  own := by rintro _ ⟨⟩; exact hpid.trans (hs.own ctx hctx)
  lost := by rintro _ ⟨⟩ hexit; exact hs.lost ctx hctx (hx.symm.trans hexit)
  held hst := (hs.flag hctx hst).imp_right fun h => ⟨_, rfl, hsus.trans h⟩
  released := hs.released

end Supervised

/-! ## Single calls -/

section calls
variable {config : RunConfig} {pid : Int} {w₀ : Watch} {sent : List Int} {h : Handles} {l : Trace}

theorem asks_idle (hs : Supervised config pid sent h l) {q : Req} (hq : q.idle = true) :
    Asks (ledger config pid w₀) q l fun _ l' => Supervised config pid sent h l' :=
  fun a _ => ⟨.of_idle hq, hs.blank (.of_idle a hq)⟩

/-- A blocking wait, once there is a reason to wait. -/
theorem asks_wait4 (hs : Supervised config pid sent h l)
    (hcause : Ever (ExitNotice w₀) l ∨ sent ≠ []) :
    Asks (ledger config pid w₀) ⟨.monitor, .wait4 pid⟩ l fun r l' => match r with
      | .ok st => Reaped config pid sent st l'
      | .error err => Supervised config pid sent h l' ∧ (err ≠ EINTR → Ever (WaitFailed pid) l') := by
  intro r _
  refine ⟨.of_silent rfl rfl rfl fun _ => ?_, ?_⟩
  · rw [hs.sent_eq]
    exact hcause
  · cases r with
    | ok st =>
      refine ⟨?_, hs.sent_eq⟩
      rw [reaps_cons, hs.unreaped]
      simp [reapOf]
    | error err => exact ⟨hs.blank ⟨fun _ => rfl, fun _ => rfl, rfl⟩, fun hne => .inl ⟨rfl, hne⟩⟩

theorem asks_wait4NoHang (hs : Supervised config pid sent h l) :
    Asks (ledger config pid w₀) ⟨.monitor, .wait4NoHang pid⟩ l fun r l' => match r with
      | .ok (some st) => Reaped config pid sent st l'
      | _ => Supervised config pid sent h l' := by
  intro r _
  refine ⟨.of_silent rfl rfl rfl nofun, ?_⟩
  match r with
  | .ok (some st) =>
    refine ⟨?_, hs.sent_eq⟩
    rw [reaps_cons, hs.unreaped]
    simp [reapOf]
  | .ok none =>
    refine hs.blank ⟨fun _ => rfl, fun p => ?_, rfl⟩
    simp [reapOf]
  | .error err => exact hs.blank ⟨fun _ => rfl, fun _ => rfl, rfl⟩

/-- A check of the throttle keeps its flags true. -/
theorem update_supervised {ctx : ThrottleContext} (hs : Supervised config pid [] h l)
    (hctx : h.throttle = some ctx) (nowNs : Nat) :
    (CpuThrottleState.update ctx.cfg nowNs).Ensures (ledger config pid w₀) ctx.state l
      fun _ st l' =>
        Supervised config pid [] { h with throttle := some { ctx with state := st } } l' := by
  have hown := hs.own ctx hctx
  rw [CpuThrottleState.ensures_update]
  intro r _
  refine ⟨.of_idle rfl, ?_⟩
  cases r with
  -- the process is gone, and no signal is tried
  | none => exact hs.throttled hown (fun _ => .inl rfl) (fun _ => .inl (.inl rfl)) fun h => absurd rfl h
  | some info =>
    generalize hl' : (⟨⟨.throttle, .procPidRusage ctx.state.pid⟩, some info⟩ :: l : Trace) = l'
    have hs' : Supervised config pid [] h l' := by
      rw [← hl']
      exact hs.blank (.of_idle _ rfl)
    dsimp only
    split
    · exact hs'.sameFlags hctx rfl rfl rfl
    -- suspend, resume or neither: the flag follows the answer, and so do the books
    · rw [CpuThrottleState.ensures_steer]
      split
      · intro a _
        refine ⟨.of_throttle hown hs'.unreaped fun _ => hs'.sent_eq, ?_⟩
        refine hs'.throttled ?_ (fun hx => .inr (hs'.lost ctx hctx ?_)) (fun _ => ?_)
          fun h => absurd rfl h
        · cases a <;> exact hown
        · cases a <;> exact hx
        · cases a with
          | ok _ => exact .inr rfl
          | error _ => exact .inl (.inl trivial)
      · split
        · intro a _
          refine ⟨.of_throttle hown hs'.unreaped fun _ => hs'.sent_eq, ?_⟩
          refine hs'.throttled ?_ (fun hx => .inr (hs'.lost ctx hctx ?_)) (fun hst => ?_)
            fun h => absurd rfl h
          · cases a <;> exact hown
          · cases a <;> exact hx
          · cases a with
            | ok _ =>
              have hno := heldStopped_continued ctx.state.pid l'
              rw [hst] at hno
              cases hno
            | error _ => exact .inl (.inl trivial)
        · exact hs'.sameFlags hctx rfl rfl rfl

/-- `resume` on the throttle's state lets the child go. -/
theorem resume_released (hs : Supervised config pid sent h l) {ctx : ThrottleContext}
    (hctx : h.throttle = some ctx) :
    CpuThrottleState.resume.Ensures (ledger config pid w₀) ctx.state l fun r st l' =>
      r = .ok () ∧ Released l' ∧ Unmoved w₀ l l' ∧
      Supervised config pid sent { h with throttle := some { ctx with state := st } } l' := by
  have hown := hs.own ctx hctx
  rw [CpuThrottleState.ensures_resume]
  split
  · intro a _
    refine ⟨.of_throttle hown hs.unreaped (fun h => absurd h (by decide)), rfl, ?_⟩
    have hreleased : Released (⟨⟨.throttle, .kill ctx.state.pid SIGCONT⟩, a⟩ :: l) := by
      intro hst
      cases a with
      | ok _ =>
        have hno := heldStopped_continued ctx.state.pid l
        rw [hst] at hno
        cases hno
      | error _ => exact .inl trivial
    exact ⟨hreleased, .event (.inl nofun),
      hs.throttled hown (fun hx => .inr (hs.lost ctx hctx hx)) (fun hst => .inl (hreleased hst))
        fun _ => hreleased⟩
  · next hno =>
    refine ⟨rfl, fun hst => ?_, .refl w₀ l, hs.sameFlags hctx rfl rfl rfl⟩
    rcases hs.flag hctx hst with hlost | hsus
    · exact hlost
    · rw [hsus] at hno
      exact hs.lost ctx hctx (by simpa using hno)

end calls

end Procguard
