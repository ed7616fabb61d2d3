import Procguard.WaitKqueue

/- What the log of a run shows, read without the program: a small automaton
   (`Watch`) that follows the clock, the start of the wait and the stdin activity
   through the monitor's own calls. It says what the locals of `wait_with_kqueue`
   stand for, so that a statement about a run can speak of the log alone;
   `Tracked` is the relation between the two, and `waitSetup_tracked` the proof
   that the set-up establishes it. -/
namespace Procguard
open Interact

/-- What the log shows of the clock and of stdin. -/
structure Watch where
  /-- The latest clock reading. -/
  clock : Nat := 0
  /-- The reading the current wait started at. -/
  start : Nat := 0
  /-- The reading that stands for the latest stdin activity. -/
  activity : Nat := 0
  /-- An activity was seen whose reading is still to come. -/
  pending : Bool := false
  /-- The wait has opened its kqueue. -/
  looping : Bool := false
  /-- The signal pipe is watched. -/
  signals : Bool := false
  /-- The stdin idle timeout is in force. -/
  stdin : Bool := false
  /-- stdin is watched and drained through the kqueue. -/
  draining : Bool := false
  deriving DecidableEq, Repr

namespace Watch

/-- A clock reading, which also stamps a pending activity. -/
def tick (w : Watch) (t : Nat) : Watch :=
  { w with clock := t, activity := if w.pending then t else w.activity, pending := false }

/-- stdin is gone: its idle timeout is no longer in force. -/
def closeStdin (w : Watch) : Watch := { w with stdin := false, draining := false }

/-- A new wait looks up the signal pipe. Only the first wait of a run has a stdin
    timeout. -/
def begin (w : Watch) (fd : Int) : Watch :=
  { w with start := w.clock, signals := decide (0 ≤ fd), looping := false,
           stdin := w.stdin && !w.looping, draining := w.draining && !w.looping }

/-- An event the kqueue delivered. -/
def deliver (w : Watch) (ev : Kevent) : Watch :=
  if ev.filter = EVFILT_READ ∧ ev.ident = 0 ∧ w.draining = true then
    if ev.has EV_EOF then w.closeStdin else w
  else if ev.filter = EVFILT_TIMER then w
  else if ev.has EV_ERROR ∧ ev.errCode = EBADF ∧ ev.ident = 0 then w.closeStdin
  else w

/-- The level check of passthrough mode: before the loop the reading follows, in the
    loop it has just been taken. -/
def poll (w : Watch) : StdinPollResult → Watch
  | .readable => if w.looping then { w with activity := w.clock } else { w with pending := true }
  | .eof => { w with stdin := false }
  | .idle => w

def step (w : Watch) : Event → Watch
  | ⟨⟨.monitor, .wallNow⟩, r⟩ => r.elim w fun t => w.tick t.toNat
  | ⟨⟨.monitor, .activeNow⟩, t⟩ => w.tick t.toNat
  | ⟨⟨.monitor, .loadSignalPipe⟩, fd⟩ => w.begin fd
  | ⟨⟨.monitor, .fstatStdin⟩, r⟩ => if r < 0 then w.closeStdin else w
  | ⟨⟨.monitor, .pollStdin⟩, r⟩ => w.poll (stdinPollStatus r)
  | ⟨⟨.monitor, .kqueue⟩, _⟩ => { w with looping := true }
  | ⟨⟨.monitor, .kevent _ _⟩, .ok ev⟩ => w.deliver ev
  | ⟨⟨.monitor, .readStdin⟩, n⟩ =>
    if n = 0 then w.closeStdin else if 0 < n then { w with pending := true } else w
  | _ => w

end Watch

/-- The automaton after the log. -/
def watch (w₀ : Watch) : Trace → Watch
  | [] => w₀
  | e :: l => (watch w₀ l).step e

@[simp] theorem watch_cons (w₀ : Watch) (e : Event) (l : Trace) :
    watch w₀ (e :: l) = (watch w₀ l).step e := rfl

/-- Calls the automaton does not follow. -/
def Call.unwatched : Call → Bool
  | .close _ | .eprintln _ | .readSignalPipe _ | .wait4 _ | .wait4NoHang _ | .kill _ _
  | .killpg _ _ | .procPidRusage _ | .posixSpawnp _ _ _ | .fork _ _ _ _ _ | .nanosleep _ => true
  | _ => false

theorem Watch.step_unwatched {w : Watch} {q : Req} {a : Ans q}
    (h : q.caller ≠ .monitor ∨ q.call.unwatched = true) : w.step ⟨q, a⟩ = w := by
  obtain ⟨caller, call⟩ := q
  rcases h with h | h
  · cases caller <;> first | (exact absurd rfl h) | rfl
  · cases call <;> first | (cases h; done) | (cases caller <;> rfl)

@[simp] theorem Watch.deliver_clock (w : Watch) (ev : Kevent) :
    (w.deliver ev).clock = w.clock := by
  unfold Watch.deliver
  repeat' split
  all_goals rfl

@[simp] theorem Watch.poll_clock (w : Watch) (s : StdinPollResult) :
    (w.poll s).clock = w.clock := by
  cases s with
  | readable => cases h : w.looping <;> simp [Watch.poll, h]
  | eof => rfl
  | idle => rfl

/-! ## The clock -/

/-- A clock reading is asked for; `P` is told the reading, or that there is none. -/
def AsksClock (K : Contract Ans) (caller : Caller) (confine : Confine) (l : Trace)
    (P : Option Nat → Trace → Prop) : Prop :=
  match confine with
  | .wall => Asks K ⟨caller, .wallNow⟩ l fun r => P (r.map UInt64.toNat)
  | .active => Asks K ⟨caller, .activeNow⟩ l fun t => P (some t.toNat)

theorem AsksClock.mono {K : Contract Ans} {caller : Caller} {confine : Confine} {l : Trace}
    {P P' : Option Nat → Trace → Prop} (h : ∀ r l', P r l' → P' r l')
    (hq : AsksClock K caller confine l P) : AsksClock K caller confine l P' := by
  cases confine with
  | wall => exact Asks.mono hq fun r => h (r.map UInt64.toNat) _
  | active => exact Asks.mono hq fun t => h (some t.toNat) _

theorem ensures_now {K : Contract Ans} {h : Handles} {l : Trace} {confine : Confine}
    {Post : Except TimeoutError Nat → Handles → Trace → Prop} :
    (now confine).Ensures K h l Post ↔ AsksClock K .monitor confine l fun r l' => match r with
      | some t => Post (.ok t) h l'
      | none => Post (.error .timebaseError) h l' := by
  rw [now, Act.ensures_lift]
  cases confine with
  | wall =>
    refine forall_congr' fun r => imp_congr_right fun _ => and_congr_right fun _ => ?_
    cases r <;> rfl
  | active => exact Iff.rfl

/-- The clock in the automaton: a reading moves it, a failed one does not. -/
theorem AsksClock.watched {K : Contract Ans} {confine : Confine} {l : Trace} (w₀ : Watch)
    {P : Option Nat → Trace → Prop} (h : AsksClock K .monitor confine l P) :
    AsksClock K .monitor confine l fun r l' => P r l' ∧
      watch w₀ l' = r.elim (watch w₀ l) (watch w₀ l).tick := by
  cases confine with
  | wall =>
    intro r hr
    refine ⟨(h r hr).1, (h r hr).2, ?_⟩
    cases r <;> rfl
  | active => exact fun t ht => ⟨(h t ht).1, (h t ht).2, rfl⟩

/-- The call that reads the clock. -/
def clockCall : Confine → Call
  | .wall => .wallNow
  | .active => .activeNow

/-- To answer for a clock reading it is enough to answer for the event it leaves. -/
theorem asksClock_intro {K : Contract Ans} {confine : Confine} {l : Trace} (w₀ : Watch)
    {P : Option Nat → Trace → Prop}
    (h : ∀ (e : Event) (r : Option Nat), e.req = ⟨.monitor, clockCall confine⟩ →
      (r = none → e = ⟨⟨.monitor, .wallNow⟩, none⟩) → (∀ t, r = some t → t ≤ u64Max) →
      watch w₀ (e :: l) = r.elim (watch w₀ l) (watch w₀ l).tick → K.rely e l →
      K.guar e l ∧ P r (e :: l)) :
    AsksClock K .monitor confine l P := by
  have hle : ∀ t : UInt64, t.toNat ≤ u64Max := fun t => Nat.le_pred_of_lt t.toNat_lt
  cases confine with
  | wall =>
    intro r hr
    cases r with
    | none => exact h ⟨⟨.monitor, .wallNow⟩, none⟩ none rfl (fun _ => rfl) nofun rfl hr
    | some t =>
      refine h ⟨⟨.monitor, .wallNow⟩, some t⟩ (some t.toNat) rfl nofun ?_ rfl hr
      rintro _ ⟨⟩
      exact hle t
  | active =>
    intro t ht
    refine h ⟨⟨.monitor, .activeNow⟩, t⟩ (some t.toNat) rfl nofun ?_ rfl ht
    rintro _ ⟨⟩
    exact hle t

/-! ## The locals of the loop -/

/-- What the locals of the loop stand for. -/
structure Tracked (f : WaitFixed) (v : WaitVars) (w : Watch) : Prop where
  deadline : f.deadlineNs = advanceNs w.start (durationToNs f.args.timeout)
  signals : f.signalFd.isSome = w.signals
  settled : w.pending = false
  looping : w.looping = true
  draining : v.stdinEnabled = w.draining
  stdin : v.stdinTimeout = if w.stdin then
    f.args.stdinTimeout.map fun s => { s with lastActivityNs := w.activity } else none
  timeout : w.stdin = true → f.stdinTimeoutNs = f.args.stdinTimeout.elim 0 (·.timeoutNs)

/-- The deadline of a wait that began at `w.start`. -/
def Watch.deadline (w : Watch) (timeout : Duration) : Nat :=
  advanceNs w.start (durationToNs timeout)

/-- The stdin idle timeout has passed: it is in force, and the latest reading is that
    far past the latest activity. -/
def Watch.IdleReached (w : Watch) (timeoutNs : Nat) : Prop :=
  w.stdin = true ∧ w.activity ≤ w.clock ∧ timeoutNs ≤ w.clock - w.activity

instance (w : Watch) (timeoutNs : Nat) : Decidable (w.IdleReached timeoutNs) :=
  inferInstanceAs (Decidable (_ ∧ _ ∧ _))

namespace Tracked
variable {f : WaitFixed} {v : WaitVars} {w : Watch}

theorem idle_iff (h : Tracked f v w) :
    stdinIdleReached f v w.clock = true ↔ ∃ cfg, f.args.stdinTimeout = some cfg ∧
      w.IdleReached cfg.timeoutNs := by
  rw [stdinIdleReached, h.stdin]
  cases hin : w.stdin with
  | false => simp [Watch.IdleReached, hin]
  | true =>
    rw [if_pos rfl]
    cases hcfg : f.args.stdinTimeout with
    | none => simp
    | some cfg =>
      have ht := h.timeout hin
      rw [hcfg] at ht
      simp only [Option.map_some, Option.some.injEq, exists_eq_left', Watch.IdleReached, hin,
        true_and, elapsedNs, ht, Option.elim_some]
      by_cases hle : w.activity ≤ w.clock
      · simp [hle]
      · simp [hle]

end Tracked

/-! ## What a kqueue watches -/

/-- One change of a kevent call, for the filter that watches `ident` for reading. -/
def watchRead (ident : Nat) (watched : Bool) (c : Kevent) : Bool :=
  if c.ident = ident ∧ c.filter = EVFILT_READ then
    if c.has EV_ADD then true else if c.has EV_DELETE then false else watched
  else watched

/-- Whether the caller's latest kqueue watches `ident` for reading. -/
def readRegistered (caller : Caller) (ident : Nat) : Trace → Bool
  | [] => false
  | e :: l =>
    if e.req.caller ≠ caller then readRegistered caller ident l
    else match e.req.call with
      | .kqueue => false
      | .kevent _ cs => cs.foldl (watchRead ident) (readRegistered caller ident l)
      | _ => readRegistered caller ident l

theorem readRegistered_kevent (caller : Caller) (ident : Nat) (kq : Int) (cs : List Kevent)
    (r : Except Int Kevent) (l : Trace) :
    readRegistered caller ident (⟨⟨caller, .kevent kq cs⟩, r⟩ :: l) =
      cs.foldl (watchRead ident) (readRegistered caller ident l) := if_neg (not_not.mpr rfl)

end Procguard
