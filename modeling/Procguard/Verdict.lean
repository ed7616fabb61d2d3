import Procguard.WaitRules

/- What a run of `wait_with_kqueue` says about the log, for properties that do not look
   at the locals of the loop. The first part names events: an exit notice, a failure the
   wait gives up on, a wake-up nobody asked for. `Verdict` is what each result stands
   for. `Inert` collects what such a property has to keep, and
   `Inert.waitWithKqueue_ensures` carries it through the whole wait. -/
namespace Procguard
open Interact

/-! ## Events -/

/-- An event that reports activity on the stdin the wait drains. -/
def Watch.StdinEvent (w : Watch) (ev : Kevent) : Prop :=
  ev.filter = EVFILT_READ ∧ ev.ident = 0 ∧ w.draining = true

instance (w : Watch) (ev : Kevent) : Decidable (w.StdinEvent ev) :=
  inferInstanceAs (Decidable (_ ∧ _ ∧ _))

/-- The kernel reports that the process is gone: its exit was delivered, or it could not
    be watched any more. -/
def ExitNotice (w₀ : Watch) : Event → Trace → Prop
  | ⟨⟨.monitor, .kevent _ _⟩, .error err⟩, _ => err = ESRCH
  | ⟨⟨.monitor, .kevent _ _⟩, .ok ev⟩, l =>
    if ev.has EV_ERROR then
      ev.errCode = ESRCH ∧ ev.filter ≠ EVFILT_TIMER ∧ ¬ (watch w₀ l).StdinEvent ev
    else ev.filter = EVFILT_PROC
  | _, _ => False

/-- A filter could not be registered, for a reason the loop does not know: not the
    process that is gone, not a stdin that cannot be watched. -/
def Refused (w : Watch) (ev : Kevent) : Prop :=
  ev.has EV_ERROR = true ∧ ev.filter ≠ EVFILT_TIMER ∧ ¬ w.StdinEvent ev ∧ ev.errCode ≠ ESRCH ∧
    ¬ (ev.ident = 0 ∧ (ev.errCode = EBADF ∨ ev.errCode = ENOENT))

/-- A call of the monitor fails in a way it gives up on. -/
def Fatal (w₀ : Watch) : Event → Trace → Prop
  | ⟨⟨.monitor, .wallNow⟩, r⟩, _ => r = none
  | ⟨⟨.monitor, .kqueue⟩, .error _⟩, _ => True
  | ⟨⟨.monitor, .kevent _ _⟩, .error err⟩, _ => err ≠ EINTR ∧ err ≠ ESRCH
  | ⟨⟨.monitor, .kevent _ _⟩, .ok ev⟩, l => Refused (watch w₀ l) ev
  | ⟨⟨.monitor, .kill _ _⟩, .error err⟩, _ => err ≠ ESRCH
  | ⟨⟨.monitor, .killpg _ _⟩, .error err⟩, _ => err ≠ ESRCH
  | _, _ => False

instance (w₀ : Watch) (e : Event) (l : Trace) : Decidable (ExitNotice w₀ e l) := by
  obtain ⟨⟨caller, call⟩, a⟩ := e
  rcases caller with _ | _ <;> rcases call with _ | _ <;> first
    | exact isFalse id
    | rcases a with _ | _ <;> first
      | exact inferInstanceAs (Decidable (_ = _))
      | exact inferInstanceAs (Decidable (ite _ _ _))

instance (w₀ : Watch) (e : Event) (l : Trace) : Decidable (Fatal w₀ e l) := by
  obtain ⟨⟨caller, call⟩, a⟩ := e
  rcases caller with _ | _ <;> rcases call with _ | _ <;> first
    | exact isFalse id
    | exact inferInstanceAs (Decidable (_ = _))
    | rcases a with _ | _ <;> first
      | exact isFalse id
      | exact isTrue trivial
      | exact inferInstanceAs (Decidable (_ ≠ _))
      | exact inferInstanceAs (Decidable (_ ∧ _))

/-- A wake-up that stands for nothing: an event of no filter the wait asked for, a signal
    pipe without a byte, a child that was reaped elsewhere. -/
def Unexpected (w₀ : Watch) : Event → Trace → Prop
  | ⟨⟨.monitor, .kevent _ _⟩, .ok ev⟩, l =>
    ev.has EV_ERROR = false ∧ ev.filter ≠ EVFILT_TIMER ∧ ev.filter ≠ EVFILT_PROC ∧
      ¬ (watch w₀ l).StdinEvent ev ∧ (ev.filter = EVFILT_READ → (watch w₀ l).signals = false)
  | ⟨⟨.monitor, .readSignalPipe _⟩, b⟩, _ => b = none
  | ⟨⟨.monitor, .wait4 _⟩, .error err⟩, _ => err = ECHILD
  | _, _ => False

instance (w₀ : Watch) (e : Event) (l : Trace) : Decidable (Unexpected w₀ e l) := by
  obtain ⟨⟨caller, call⟩, a⟩ := e
  rcases caller with _ | _ <;> rcases call with _ | _ <;> first
    | exact isFalse id
    | exact inferInstanceAs (Decidable (_ = _))
    | rcases a with _ | _ <;> first
      | exact isFalse id
      | exact inferInstanceAs (Decidable (_ = _))
      | exact inferInstanceAs (Decidable (_ ∧ _))

/-- The handler's byte for `sig` was read. -/
def SignalByte (sig : Signal) : Event → Trace → Prop
  | ⟨⟨.monitor, .readSignalPipe _⟩, some b⟩, _ => decodeSignalByte b = sig
  | _, _ => False

/-- A memory check of the process read `bytes`. -/
def MemoryReading (pid : Int) (bytes : Nat) : Event → Trace → Prop
  | ⟨⟨.memoryCheck, .procPidRusage p⟩, some info⟩, _ => p = pid ∧ info.memoryBytes = bytes
  | _, _ => False

instance (e : Event) (l : Trace) : Decidable (∃ sig, SignalByte sig e l) := by
  obtain ⟨⟨caller, call⟩, a⟩ := e
  rcases caller with _ | _ <;> rcases call with _ | _ <;> first
    | exact isFalse fun h => h.elim fun _ => id
    | rcases a with _ | b <;> first
      | exact isTrue ⟨_, rfl⟩
      | exact isFalse fun h => h.elim fun _ => id

/-- A memory check of the process read more than the limit. -/
def MemoryOver (pid : Int) (limitBytes : Nat) (e : Event) (l : Trace) : Prop :=
  ∃ bytes, limitBytes < bytes ∧ MemoryReading pid bytes e l

instance (pid : Int) (limitBytes : Nat) (e : Event) (l : Trace) :
    Decidable (MemoryOver pid limitBytes e l) := by
  obtain ⟨⟨caller, call⟩, a⟩ := e
  rcases caller with _ | _ <;> rcases call with _ | _ <;> first
    | exact isFalse fun h => h.elim fun _ h => h.2
    | rcases a with _ | info <;> first
      | exact isFalse fun h => h.elim fun _ h => h.2
      | exact decidable_of_iff (limitBytes < info.memoryBytes ∧ _ = pid)
          ⟨fun h => ⟨_, h.1, h.2, rfl⟩, fun h => h.elim fun _ h => ⟨h.2.2 ▸ h.1, h.2.1⟩⟩

/-- What a result of the wait stands for. -/
def Verdict (w₀ : Watch) (a : WaitArgs) (l : Trace) : WaitResult → Prop
  | .exited _ _ => False
  | .timedOut .wallClock =>
    (watch w₀ l).deadline a.timeout ≤ (watch w₀ l).clock ∨ Ever (Unexpected w₀) l
  | .timedOut .stdinIdle => ∃ cfg, a.stdinTimeout = some cfg ∧ (watch w₀ l).IdleReached cfg.timeoutNs
  | .memoryLimitExceeded limitBytes actualBytes => ∃ m, a.memoryLimit = some m ∧
    limitBytes = m.limitBytes ∧ limitBytes < actualBytes ∧ Ever (MemoryReading a.pid actualBytes) l
  | .receivedSignal sig => Ever (SignalByte sig) l

/-! ## Waiting on the child -/

section child
variable {K : Contract Ans} {fuel : Nat} {h : Handles} {l : Trace}

/-- The handle after a successful wait. -/
def Handles.reaped (h : Handles) : Handles := { h with child := { h.child with exited := true } }

theorem childWait_ensures {Post : Except TimeoutError
      (Except SpawnError (RawExitStatus × ResourceUsage)) → Handles → Trace → Prop}
    (J : Nat → Trace → Prop) (hopen : h.child.exited = false)
    (hwait : ∀ n l, J (n + 1) l → Asks K ⟨.monitor, .wait4 h.child.pid⟩ l fun r l' => match r with
      | .ok st => Post (.ok (.ok (st.1, rusageToResourceUsage st.2))) h.reaped l'
      | .error err => if err = EINTR then J n l' else Post (.ok (.error (.wait err))) h l')
    (hcut : ∀ l, J 0 l → K.cut l) (hJ : J fuel l) : (childWait fuel).Ensures K h l Post := by
  simp only [childWait, Act.ensures_attempt, RawChild.wait, Act.ensures_bind, Act.ensures_get]
  rw [if_neg (by rw [hopen]; decide)]
  simp only [Act.ensures_bind, Act.ensures_modify, Act.ensures_pure]
  refine Act.ensures_iterate_count (fun n _ c l => c = h.child ∧ J n l) ?_ ?_ fuel () h.child l
    ⟨rfl, hJ⟩
  · rintro n - c l ⟨rfl, hJ⟩
    simp only [RawChild.waitRound, Act.ensures_bind, Act.ensures_call]
    refine (hwait n l hJ).mono fun r hr => ?_
    cases r with
    | ok st => exact hr
    | error err =>
      dsimp only at hr ⊢
      by_cases hintr : err = EINTR
      · rw [if_pos hintr] at hr ⊢
        exact ⟨rfl, hr⟩
      · rw [if_neg hintr] at hr ⊢
        exact hr
  · exact fun _ _ l hJ => hcut l hJ.2

theorem childTryWait_ensures {Post : Except TimeoutError
      (Except SpawnError (Option (RawExitStatus × ResourceUsage))) → Handles → Trace → Prop}
    (hopen : h.child.exited = false)
    (htry : Asks K ⟨.monitor, .wait4NoHang h.child.pid⟩ l fun r l' => match r with
      | .ok (some st) => Post (.ok (.ok (some (st.1, rusageToResourceUsage st.2)))) h.reaped l'
      | .ok none => Post (.ok (.ok none)) h l'
      | .error err => Post (.ok (.error (.wait err))) h l') :
    childTryWait.Ensures K h l Post := by
  simp only [childTryWait, Act.ensures_attempt, RawChild.tryWait, Act.ensures_bind,
    Act.ensures_get]
  rw [if_neg (by rw [hopen]; decide)]
  simp only [Act.ensures_bind, Act.ensures_call]
  refine htry.mono fun r hr => ?_
  rcases r with _ | _ | _
  · exact hr
  · exact hr
  · exact hr

/-- `child.wait()` with its error reported. -/
theorem childWaitOrFail_ensures
    {Post : Except TimeoutError (RawExitStatus × ResourceUsage) → Handles → Trace → Prop}
    (J : Nat → Trace → Prop) (hopen : h.child.exited = false)
    (hwait : ∀ n l, J (n + 1) l → Asks K ⟨.monitor, .wait4 h.child.pid⟩ l fun r l' => match r with
      | .ok st => Post (.ok (st.1, rusageToResourceUsage st.2)) h.reaped l'
      | .error err => if err = EINTR then J n l' else Post (.error (.spawnError err)) h l')
    (hcut : ∀ l, J 0 l → K.cut l) (hJ : J fuel l) :
    (childWaitOrFail fuel).Ensures K h l Post := by
  simp only [childWaitOrFail, Act.ensures_bind]
  exact childWait_ensures J hopen hwait hcut hJ

/-- Reaping a process the kernel no longer knows: without blocking, else by a wait. -/
theorem reapGone_ensures {Post : Except TimeoutError WaitResult → Handles → Trace → Prop}
    (J : Nat → Trace → Prop) (hopen : h.child.exited = false)
    (htry : Asks K ⟨.monitor, .wait4NoHang h.child.pid⟩ l fun r l' => match r with
      | .ok (some st) => Post (.ok (.exited st.1 (rusageToResourceUsage st.2))) h.reaped l'
      | .ok none => J fuel l'
      | .error _ => J fuel l')
    (hwait : ∀ n l, J (n + 1) l → Asks K ⟨.monitor, .wait4 h.child.pid⟩ l fun r l' => match r with
      | .ok st => Post (.ok (.exited st.1 (rusageToResourceUsage st.2))) h.reaped l'
      | .error err =>
        if err = EINTR then J n l'
        else if err = ECHILD then Post (.ok (.timedOut .wallClock)) h l'
        else ∀ e, Post (.error e) h l')
    (hcut : ∀ l, J 0 l → K.cut l) : (reapGone fuel).Ensures K h l Post := by
  simp only [reapGone, Act.ensures_bind]
  refine childTryWait_ensures hopen (htry.mono fun r hr => ?_)
  rcases r with _ | _ | _
  rotate_left 2
  · exact hr
  -- with no status at hand the process is waited for
  all_goals
    dsimp only
    rw [Act.ensures_bind]
    refine childWait_ensures J hopen (fun n l hJ => (hwait n l hJ).mono fun r hr => ?_) hcut hr
    cases r with
    | ok st => exact hr
    | error err =>
      dsimp only at hr ⊢
      by_cases hintr : err = EINTR
      · rw [if_pos hintr] at hr ⊢
        exact hr
      · rw [if_neg hintr] at hr ⊢
        by_cases hchild : err = ECHILD
        · rw [if_pos hchild] at hr
          rw [if_pos (by rw [hchild])]
          exact hr
        · rw [if_neg hchild] at hr
          rw [if_neg (by rintro ⟨⟩; exact hchild rfl)]
          exact hr _

end child

/-! ## The whole wait -/

/-- The automaton is not waiting for a reading, and the next wait will be a new one. -/
def Watch.Settled (w : Watch) : Prop := w.pending = false ∧ w.looping = true

theorem Tracked.done {f : WaitFixed} {v : WaitVars} {w : Watch} (h : Tracked f v w) :
    w.Settled := ⟨h.settled, h.looping⟩

/-- An event that neither counts as activity nor ends a stdin leaves the rest alone. -/
theorem Watch.Settled.deliver {w : Watch} (h : w.Settled) (ev : Kevent) :
    (w.deliver ev).Settled := by
  unfold Watch.deliver
  split
  · split
    · exact h
    · exact h
  · split
    · exact h
    · split
      · exact h
      · exact h

/-- Calls that only look: neither a wait nor a signal, and not the kevent call. -/
def Req.looks (pid : Int) : Req → Bool
  | ⟨.monitor, .wallNow⟩ | ⟨.monitor, .activeNow⟩ | ⟨.monitor, .loadSignalPipe⟩
  | ⟨.monitor, .fstatStdin⟩ | ⟨.monitor, .pollStdin⟩ | ⟨.monitor, .kqueue⟩
  | ⟨.monitor, .close _⟩ | ⟨.monitor, .readStdin⟩ | ⟨.monitor, .readSignalPipe _⟩ => true
  | ⟨.memoryCheck, .procPidRusage p⟩ => p == pid
  | _ => false

/-- The kqueue has been closed, and at most the signal pipe was read since. -/
def KqClosed : Trace → Prop
  | [] => False
  | e :: _ => ∃ fd, e.req = ⟨.monitor, .close fd⟩ ∨ e.req = ⟨.monitor, .readSignalPipe fd⟩

/-- What a property has to keep that does not look at the locals of the loop. `J n` holds
    before the exit notice, with `n` kevent calls left, `X` after it. -/
structure Inert (K : Contract Ans) (w₀ : Watch) (fuel : Nat) (a : WaitArgs)
    (J : Nat → Handles → Trace → Prop) (X : Handles → Trace → Prop)
    (Post : Except TimeoutError WaitResult → Handles → Trace → Prop) : Prop where
  cut : ∀ h l, J 0 h l → K.cut l
  look : ∀ n q h l, J n h l → q.looks a.pid = true → Asks K q l fun _ l' => J n h l'
  line : ∀ n h l hb elapsed, J n h l → a.heartbeat = some hb → hb.quiet = false →
    Asks K ⟨.monitor, .eprintln (heartbeatLine elapsed hb.pid)⟩ l fun _ l' => J n h l'
  kevent : ∀ n kq cs h l, J (n + 1) h l → Asks K ⟨.monitor, .kevent kq cs⟩ l fun r l' =>
    (ExitNotice w₀ ⟨⟨.monitor, .kevent kq cs⟩, r⟩ l → X h l') ∧
    (¬ ExitNotice w₀ ⟨⟨.monitor, .kevent kq cs⟩, r⟩ l → J n h l')
  close : ∀ fd h l, X h l → Asks K ⟨.monitor, .close fd⟩ l fun _ l' => X h l'
  update : ∀ n h l ctx, J n h l → h.throttle = some ctx →
    (CpuThrottleState.update ctx.cfg (watch w₀ l).clock).Ensures K ctx.state l fun _ st l' =>
      J n { h with throttle := some { ctx with state := st } } l'
  gone : ∀ h l, X h l → (watch w₀ l).Settled → (reapGone fuel).Ensures K h l Post
  exited : ∀ h l, X h l → (childWaitOrFail fuel).Ensures K h l fun r h' l' => match r with
    | .ok (status, rusage) => Post (.ok (.exited status rusage)) h' l'
    | .error e => Post (.error e) h' l'
  verdict : ∀ n h l r, J n h l → Verdict w₀ a l r → (watch w₀ l).Settled → KqClosed l →
    Post (.ok r) h l
  fail : ∀ n h l e, J n h l → Ever (Fatal w₀) l → Post (.error e) h l

namespace Inert
variable {K : Contract Ans} {w₀ : Watch} {fuel : Nat} {a : WaitArgs}
  {J : Nat → Handles → Trace → Prop} {X : Handles → Trace → Prop}
  {Post : Except TimeoutError WaitResult → Handles → Trace → Prop}
  {n : Nat} {h : Handles} {l : Trace}

theorem asksClock (I : Inert K w₀ fuel a J X Post) (hJ : J n h l) (confine : Confine)
    {P : Option Nat → Trace → Prop}
    (hsome : ∀ t l', J n h l' → watch w₀ l' = (watch w₀ l).tick t → P (some t) l')
    (hnone : ∀ l', Post (.error .timebaseError) h l' → P none l') :
    AsksClock K .monitor confine l P := by
  refine asksClock_intro w₀ fun e r hreq hfail _ hw hr => ?_
  obtain ⟨q, ans⟩ := e
  change q = _ at hreq
  have hlook : q.looks a.pid = true := by
    rw [hreq]
    cases confine <;> rfl
  obtain ⟨hg, hJ'⟩ := I.look n q h l hJ hlook ans hr
  refine ⟨hg, ?_⟩
  cases r with
  | some t => exact hsome t _ hJ' hw
  | none =>
    refine hnone _ (I.fail n h _ _ hJ' (.inl ?_))
    rw [hfail rfl]
    rfl

/-- After the kqueue is closed the log still says the same. -/
theorem asksClose (I : Inert K w₀ fuel a J X Post) (hJ : J n h l) (fd : Int)
    {P : Trace → Prop}
    (hP : ∀ l', J n h l' → l <:+ l' → watch w₀ l' = watch w₀ l → KqClosed l' → P l') :
    Asks K ⟨.monitor, .close fd⟩ l fun _ l' => P l' := by
  intro ans hr
  obtain ⟨hg, hJ'⟩ := I.look n _ h l hJ (by rfl) ans hr
  exact ⟨hg, hP _ hJ' (List.suffix_cons _ l) rfl ⟨fd, .inl rfl⟩⟩

theorem setupRule (I : Inert K w₀ fuel a J X Post) :
    SetupRule K a.confine (fun l => J n h l) fun e l' => Post (.error e) h l' where
  clock l hJ := I.asksClock hJ _ (fun _ _ hJ' _ => hJ') fun _ hp => hp
  signalPipe l hJ := I.look n _ h l hJ (by rfl)
  fstat l hJ := I.look n _ h l hJ (by rfl)
  poll l hJ := I.look n _ h l hJ (by rfl)
  kqueue l hJ := by
    refine (I.look n ⟨.monitor, .kqueue⟩ h l hJ (by rfl)).mono fun r hJ' => ?_
    cases r with
    | ok kq => exact hJ'
    | error errno => exact I.fail n h _ _ hJ' (.inl trivial)

/-- The latest event is the exit notice. -/
def Notice (w₀ : Watch) : Trace → Prop
  | [] => False
  | e :: l => ExitNotice w₀ e l

/-- The kevent call has been answered. -/
def Seen (w₀ : Watch) (J : Nat → Handles → Trace → Prop) (X : Handles → Trace → Prop) (n : Nat)
    (h : Handles) (l : Trace) : Prop :=
  (Notice w₀ l → X h l) ∧ (¬ Notice w₀ l → J n h l)

section notice
variable {f : WaitFixed} {v : WaitVars} {cs : List Kevent} {ev : Kevent}

theorem notice_delivered (f : WaitFixed) (cs : List Kevent) (ev : Kevent) (l : Trace) :
    Notice w₀ (delivered f cs (.ok ev) l) ↔ if ev.has EV_ERROR then
      ev.errCode = ESRCH ∧ ev.filter ≠ EVFILT_TIMER ∧ ¬ (watch w₀ l).StdinEvent ev
    else ev.filter = EVFILT_PROC := Iff.rfl

/-- Activity on the stdin the wait drains is no exit notice. -/
theorem Seen.of_stdin (hs : Seen w₀ J X n h (delivered f cs (.ok ev) l))
    (hw : Tracked f v (watch w₀ l)) (hev : StdinEvent v ev) :
    J n h (delivered f cs (.ok ev) l) := by
  refine hs.2 fun hn => ?_
  rw [notice_delivered] at hn
  split at hn
  · refine hn.2.2 ?_
    rw [Watch.StdinEvent, ← hw.draining]
    exact hev
  · rw [hev.1] at hn
    exact absurd hn (by decide)

theorem Seen.of_timer (hs : Seen w₀ J X n h (delivered f cs (.ok ev) l))
    (ht : ev.filter = EVFILT_TIMER) : J n h (delivered f cs (.ok ev) l) := by
  refine hs.2 fun hn => ?_
  rw [notice_delivered] at hn
  split at hn
  · exact hn.2.1 ht
  · rw [ht] at hn
    exact absurd hn (by decide)

/-- A registration that failed for another reason than a missing process. -/
theorem Seen.of_error (hs : Seen w₀ J X n h (delivered f cs (.ok ev) l))
    (he : ev.has EV_ERROR = true) (hcode : ev.errCode ≠ ESRCH) :
    J n h (delivered f cs (.ok ev) l) := by
  refine hs.2 fun hn => ?_
  rw [notice_delivered, if_pos he] at hn
  exact hcode hn.1

theorem Seen.of_filter (hs : Seen w₀ J X n h (delivered f cs (.ok ev) l))
    (he : ev.has EV_ERROR = false) (hp : ev.filter ≠ EVFILT_PROC) :
    J n h (delivered f cs (.ok ev) l) := by
  refine hs.2 fun hn => ?_
  rw [notice_delivered, if_neg (by rw [he]; decide)] at hn
  exact hp hn

theorem Seen.of_interrupt {err : Int} (hs : Seen w₀ J X n h (delivered f cs (.error err) l))
    (herr : err ≠ ESRCH) : J n h (delivered f cs (.error err) l) := hs.2 herr

/-- The kevent answers that say the process is gone. -/
theorem Seen.of_gone (hs : Seen w₀ J X n h (delivered f cs (.ok ev) l))
    (hw : Tracked f v (watch w₀ l)) (hev : ¬ StdinEvent v ev) (ht : ev.filter ≠ EVFILT_TIMER)
    (he : ev.has EV_ERROR = true) (hcode : ev.errCode = ESRCH) :
    X h (delivered f cs (.ok ev) l) := by
  refine hs.1 ?_
  rw [notice_delivered, if_pos he]
  refine ⟨hcode, ht, ?_⟩
  rw [Watch.StdinEvent, ← hw.draining]
  exact hev

theorem Seen.of_exit (hs : Seen w₀ J X n h (delivered f cs (.ok ev) l))
    (hproc : ev.filter = EVFILT_PROC) (he : ev.has EV_ERROR = false) :
    X h (delivered f cs (.ok ev) l) := by
  refine hs.1 ?_
  rw [notice_delivered, if_neg (by rw [he]; decide)]
  exact hproc

end notice

/-- After the exit notice the kqueue is closed. -/
theorem asksCloseNoticed (I : Inert K w₀ fuel a J X Post) (hX : X h l) (fd : Int)
    {P : Trace → Prop} (hP : ∀ l', X h l' → watch w₀ l' = watch w₀ l → P l') :
    Asks K ⟨.monitor, .close fd⟩ l fun _ l' => P l' := by
  intro ans hr
  obtain ⟨hg, hX'⟩ := I.close fd h l hX ans hr
  exact ⟨hg, hP _ hX' rfl⟩

theorem waitRule (I : Inert K w₀ fuel a J X Post) (f : WaitFixed) (hf : f.args = a) :
    WaitRule K w₀ fuel f (fun n _ h l => J n h l) (fun n _ h l => J (n + 1) h l)
      (fun n _ h l => Seen w₀ J X n h l) (fun n _ h l => J n h l) Post where
  cut v h l hJ := I.cut h l hJ
  clock n v h l hJ _ := I.asksClock hJ _ (fun _ _ hJ' _ => hJ') fun _ hp => hp
  deadline n v h l hJ hw hd := by
    have hverdict : ∀ m, J m h l → Asks K ⟨.monitor, .close f.kq⟩ l fun _ l' =>
        Post (.ok (.timedOut .wallClock)) h l' := by
      intro m hJ
      refine I.asksClose hJ _ fun l' hJ' _ hl' hc => I.verdict m h l' _ hJ' (.inl ?_) ?_ hc
      · rw [hl', Watch.deadline, ← hf, ← hw.deadline]
        exact hd
      · rw [hl']
        exact hw.done
    rcases hJ with hJ | hJ
    · exact hverdict _ hJ
    · exact hverdict _ hJ
  idle n v h l cfg hJ hw hcfg hidle := by
    have hverdict : ∀ m, J m h l → Asks K ⟨.monitor, .close f.kq⟩ l fun _ l' =>
        Post (.ok (.timedOut .stdinIdle)) h l' := by
      intro m hJ
      refine I.asksClose hJ _ fun l' hJ' _ hl' hc =>
        I.verdict m h l' _ hJ' ⟨cfg, hf ▸ hcfg, ?_⟩ ?_ hc
      · rw [hl']
        exact hidle
      · rw [hl']
        exact hw.done
    rcases hJ with hJ | hJ
    · exact hverdict _ hJ
    · exact hverdict _ hJ
  kevent n v h l hJ _ _ := I.kevent n _ _ h l hJ
  interrupted n v h l cs hS _ := hS.of_interrupt (by decide)
  -- ESRCH is an exit notice; what else went wrong is a failure of the wait
  noProcess n v h l cs hS hw := I.asksCloseNoticed (hS.1 rfl) _ fun l' hX hw' =>
    I.gone h l' hX (by rw [hw']; exact hw.done)
  broken n v h l cs err hS _ hintr hsrch :=
    I.asksClose (hS.of_interrupt hsrch) _ fun l' hJ' hl' _ _ =>
      I.fail n h l' _ hJ' (Ever.later hl' (.inl ⟨hintr, hsrch⟩))
  eof n v h l cs ev hS hw hev _ := hS.of_stdin hw hev
  read n v h l cs ev hS hw hev _ := by
    have hJ := hS.of_stdin hw hev
    refine (I.look n ⟨.monitor, .readStdin⟩ h _ hJ (by rfl)).mono fun bytes hJ' => ?_
    split
    · exact hJ'
    · split
      · exact I.asksClock hJ' _ (fun _ _ hJ'' _ => hJ'') fun _ hp => hp
      · exact hJ'
  timer n v h l cs ev hS _ ht :=
    I.asksClock (hS.of_timer ht) _ (fun _ _ hJ' _ => hJ') fun _ hp => hp
  throttle n v h l ctx hJ _ hctx _ := by
    refine ((I.update n h l ctx hJ hctx).with (WaitRule.update_watch w₀ ctx.cfg _ ctx.state
      l)).mono fun r st l' hr => ?_
    obtain ⟨hJ', ⟨b, rfl⟩, -⟩ := hr
    exact hJ'
  -- the limit is the one of the arguments, and the reading over it is in the log
  memory n v h l m hJ hw hm _ := by
    refine (I.look n ⟨.memoryCheck, .procPidRusage f.args.pid⟩ h l hJ
      (by rw [hf]; simp [Req.looks])).mono fun r hJ' => ?_
    cases r with
    | none => exact hJ'
    | some info =>
      dsimp only [Option.map_some]
      split
      · next hover =>
        refine I.asksClose hJ' _ fun l' hJ'' hl' hw' hc => I.verdict n h l' _ hJ'' ?_ ?_ hc
        · refine ⟨m, hf ▸ hm, rfl, hover, Ever.later hl' (.inl ⟨?_, rfl⟩)⟩
          rw [hf]
        · rw [hw']
          exact hw.done
      · exact hJ'
  poll n v h l cfg hJ _ _ _ := I.look n _ h l hJ (by rfl)
  line n v h l hb hJ _ _ hhb hquiet := I.line n h l hb _ hJ (hf ▸ hhb) hquiet
  beat n v h l hJ _ _ := hJ
  tick n v h l hJ _ _ := hJ
  badStdin n v h l cs ev hS _ _ _ he hbad _ := hS.of_error he (by rw [hbad]; decide)
  noFilter n v h l cs ev hS _ _ _ he hno _ := hS.of_error he (by rw [hno]; decide)
  refused n v h l cs ev hS hw hs ht he hbad hno hsrch :=
    I.asksClose (hS.of_error he hsrch) _ fun l' hJ' hl' _ _ => by
      refine I.fail n h l' _ hJ' (Ever.later hl' (.inl ⟨he, ht, ?_, hsrch, ?_⟩))
      · rw [Watch.StdinEvent, ← hw.draining]
        exact hs
      · rintro ⟨hid, hbadf | hnoent⟩
        · exact hbad ⟨hbadf, hid⟩
        · exact hno ⟨hnoent, hid⟩
  -- an event that tells of the exit, so nothing but the reap is left to decide
  gone n v h l cs ev hS hw hs ht he hcode :=
    I.asksCloseNoticed (hS.of_gone hw hs ht he hcode) _ fun l' hX hw' =>
      I.gone h l' hX (by rw [hw']; exact hw.done.deliver ev)
  exited n v h l cs ev hS hw hproc he :=
    I.asksCloseNoticed (hS.of_exit hproc he) _ fun l' hX _ => I.exited h l' hX
  signal n v h l cs ev hS hw hs hread he := by
    have ht : ev.filter ≠ EVFILT_TIMER := by rw [hread]; decide
    have hp : ev.filter ≠ EVFILT_PROC := by rw [hread]; decide
    refine I.asksClose (hS.of_filter he hp) _ fun l' hJ' hl' hw' hc => ?_
    have hset : (watch w₀ l').Settled := by rw [hw']; exact hw.done.deliver ev
    split
    -- no pipe is registered, so this read event cannot be explained
    · next hnone =>
      refine I.verdict n h l' _ hJ' (.inr (Ever.later hl' (.inl ⟨he, ht, hp, ?_, fun _ => ?_⟩)))
        hset hc
      · rw [Watch.StdinEvent, ← hw.draining]
        exact hs
      · rw [← hw.signals, hnone]
        rfl
    · next fd hfd =>
      refine (I.look n ⟨.monitor, .readSignalPipe fd⟩ h l' hJ' (by rfl)).mono fun b hJ'' => ?_
      cases b with
      -- the pipe was empty
      | none => exact I.verdict n h _ _ hJ'' (.inr (.inl rfl)) hset ⟨fd, .inr rfl⟩
      | some b => exact I.verdict n h _ _ hJ'' (.inl rfl) hset ⟨fd, .inr rfl⟩
  other n v h l cs ev hS hw ht hp hread he :=
    I.asksClose (hS.of_filter he hp) _ fun l' hJ' hl' hw' hc =>
      I.verdict n h l' _ hJ'
        (.inr (Ever.later hl' (.inl ⟨he, ht, hp, fun h => hread h.1, fun h => absurd h hread⟩)))
        (by rw [hw']; exact hw.done.deliver ev) hc

/-- A property of this kind holds of the whole wait. -/
theorem waitWithKqueue_ensures (I : Inert K w₀ fuel a J X Post) (hJ : J fuel h l)
    (hw : (watch w₀ l).Ready a) : (waitWithKqueue fuel a).Ensures K h l Post :=
  Procguard.waitWithKqueue_ensures I.setupRule hJ hw I.waitRule fun _ _ _ hJ' _ => hJ'

end Inert

end Procguard
