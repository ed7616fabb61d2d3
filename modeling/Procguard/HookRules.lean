import Procguard.Hook

/- What the hook's supervision leaves behind. Once the hook is spawned, the wait
   ends in one of three ways: a wait on the process took its status, a call the
   supervision cannot do without failed, or the time was up, and only then is the
   group killed. `HookWaited` says which trace stands behind each of the three. -/
namespace Procguard
open Interact

/-! ## The events of a supervised hook -/

/-- A wait on the hook's process took its status. -/
def hookReaps (p : Int) : Event → Bool
  | ⟨⟨.hook, .wait4 q⟩, .ok _⟩ => q == p
  | ⟨⟨.hook, .wait4NoHang q⟩, .ok (some _)⟩ => q == p
  | _ => false

/-- SIGKILL to the hook's process group. -/
def hookKills (p : Int) : Event → Bool
  | ⟨⟨.hook, .killpg q sig⟩, _⟩ => q == p && sig == Signal.sigkill.asRaw
  | _ => false

/-- The supervision itself failed: no kqueue, a kevent call or registration that
    failed for another reason than a gone process, a blocking wait that failed without
    being interrupted, or a wait that does not block and failed. -/
def hookFails : Event → Bool
  | ⟨⟨.hook, .kqueue⟩, .error _⟩ => true
  | ⟨⟨.hook, .kevent _ _⟩, .error err⟩ => err != EINTR && err != ESRCH
  | ⟨⟨.hook, .kevent _ _⟩, .ok ev⟩ => ev.has EV_ERROR && ev.errCode != ESRCH
  | ⟨⟨.hook, .wait4 _⟩, .error err⟩ => err != EINTR
  | ⟨⟨.hook, .wait4NoHang _⟩, .error _⟩ => true
  | _ => false

/-- A reading of the clock the hook is timed by. -/
def hookReading : Confine → Event → Option Nat
  | .wall, ⟨⟨.hook, .wallNow⟩, some t⟩ => some t.toNat
  | .active, ⟨⟨.hook, .activeNow⟩, t⟩ => some t.toNat
  | _, _ => none

/-- The wall clock could not be read. -/
def hookBlind : Event → Bool
  | ⟨⟨.hook, .wallNow⟩, none⟩ => true
  | _ => false

def Call.spawns : Call → Bool
  | .posixSpawnp _ _ _ => true
  | .fork _ _ _ _ _ => true
  | _ => false

/-- The clock read `s`, and `t` later on. -/
def HookTimes (confine : Confine) (s t : Nat) (l : Trace) : Prop :=
  ∃ later et earlier, l = later ++ et :: earlier ∧ hookReading confine et = some t ∧
    ∃ es ∈ earlier, hookReading confine es = some s

/-- Why the hook's time counts as up: the clock passed the limit, the timer armed for
    what was left of it fired, or the clock could not be read. -/
inductive HookOverdue (config : RunConfig) (p : Int) (l : Trace) : Prop where
  | clock {s t : Nat} (times : HookTimes config.confine s t l)
      (late : advanceNs s (durationToNs config.onTimeoutLimit) ≤ t)
  | timer {s t : Nat} {kq : Int} {ev : Kevent} {later earlier : Trace}
      (fired : l = later ++ ⟨⟨.hook, .kevent kq (hookChanges p (min (remainingNs t
        (advanceNs s (durationToNs config.onTimeoutLimit))) maxTimerNs))⟩, .ok ev⟩ :: earlier)
      (times : HookTimes config.confine s t earlier) (other : ev.filter ≠ EVFILT_PROC)
  | blind {e : Event} (mem : e ∈ l) (unread : hookBlind e = true)

theorem HookTimes.append {confine : Confine} {s t : Nat} {l : Trace} (l' : Trace)
    (h : HookTimes confine s t l) : HookTimes confine s t (l' ++ l) := by
  obtain ⟨later, et, earlier, rfl, ht, hs⟩ := h
  exact ⟨l' ++ later, et, earlier, (List.append_assoc ..).symm, ht, hs⟩

theorem HookOverdue.append {config : RunConfig} {p : Int} {l : Trace} (l' : Trace)
    (h : HookOverdue config p l) : HookOverdue config p (l' ++ l) := by
  cases h with
  | clock times late => exact .clock (times.append l') late
  | timer fired times other => exact .timer (by rw [fired, ← List.append_assoc]) times other
  | blind mem unread => exact .blind (List.mem_append_right _ mem) unread

/-- What a result of the wait tells about the trace behind it. -/
def HookWaited (config : RunConfig) (p : Int) (l : Trace) : HookWaitResult → Prop
  | .exited _ => ∃ e ∈ l, hookReaps p e = true
  | .timedOut => HookOverdue config p l
  | .error _ => ∃ e ∈ l, hookFails e = true

theorem exists_mem_append {P : Event → Prop} {l : Trace} (l' : Trace) (h : ∃ e ∈ l, P e) :
    ∃ e ∈ l' ++ l, P e := by
  obtain ⟨e, he, hp⟩ := h
  exact ⟨e, List.mem_append_right _ he, hp⟩

theorem HookWaited.append {config : RunConfig} {p : Int} {l : Trace} (l' : Trace)
    {w : HookWaitResult} (h : HookWaited config p l w) : HookWaited config p (l' ++ l) w := by
  cases w with
  | exited status => exact exists_mem_append l' h
  | timedOut => exact HookOverdue.append l' h
  | error e => exact exists_mem_append l' h

/-! ## What a call adds -/

/-- The log goes on by calls that spawn nothing, and `F` holds of what is added. -/
def HookAdds (F : Trace → Prop) (l l' : Trace) : Prop :=
  ∃ t, l' = t ++ l ∧ (∀ e ∈ t, e.req.call.spawns = false) ∧ F t

namespace HookAdds
variable {F G H : Trace → Prop} {l l₁ l₂ : Trace}

theorem nil (h : F []) : HookAdds F l l := ⟨[], rfl, List.forall_mem_nil _, h⟩

theorem trans (h : HookAdds F l l₁) (h' : HookAdds G l₁ l₂)
    (hH : ∀ t t', F t → G t' → H (t' ++ t)) : HookAdds H l l₂ := by
  obtain ⟨t, rfl, hs, hF⟩ := h
  obtain ⟨t', rfl, hs', hG⟩ := h'
  refine ⟨t' ++ t, (List.append_assoc ..).symm, ?_, hH t t' hF hG⟩
  intro e he
  exact (List.mem_append.mp he).elim (hs' e) (hs e)

/-- One more call. -/
theorem event {q : Req} {a : Ans q} (h : HookAdds F l l₁) (hq : q.call.spawns = false)
    (hG : ∀ t, F t → G (⟨q, a⟩ :: t)) : HookAdds G l (⟨q, a⟩ :: l₁) := by
  obtain ⟨t, rfl, hs, hF⟩ := h
  exact ⟨⟨q, a⟩ :: t, rfl, List.forall_mem_cons.mpr ⟨hq, hs⟩, hG t hF⟩

theorem mono (h : HookAdds F l l₁) (hG : ∀ t, F t → G t) : HookAdds G l l₁ := by
  obtain ⟨t, hl, hs, hF⟩ := h
  exact ⟨t, hl, hs, hG t hF⟩

theorem grown (h : HookAdds F l l₁) : Grown (fun q => q.call.spawns = false) l l₁ := by
  obtain ⟨t, hl, hs, -⟩ := h
  exact ⟨t, hl, hs⟩

/-- Around one spawn: what follows a spawn in the log is what was added after it. -/
theorem of_spawn {e₀ e : Event} {later before : Trace} (h : HookAdds F l l₁)
    (h' : HookAdds G (e₀ :: l₁) l₂) (hl : l₂ = later ++ e :: before) (hbefore : l <:+ before)
    (he : e.req.call.spawns = true) : e = e₀ ∧ G later := by
  have honly := h.grown.at_only h'.grown hl hbefore (by rw [he]; decide)
  obtain ⟨rfl, rfl⟩ := honly
  obtain ⟨t, rfl, -, hG⟩ := h'
  rw [List.append_cancel_right hl] at hG
  exact ⟨rfl, hG⟩

end HookAdds

/-! ## The wait, call by call -/

variable {config : RunConfig} {c : RawChild} {l l₀ : Trace} {F G : Trace → Prop}

theorem nowOr_reads (confine : Confine) (d : Nat) (c : RawChild) (h : HookAdds F l₀ l) :
    (nowOr .hook confine d : HookAct Nat).Ensures {} c l fun r c' l' => c' = c ∧ ∃ n, r = .ok n ∧
      HookAdds (fun t => ∃ e t', t = e :: t' ∧ F t' ∧
        (hookReading confine e = some n ∨ hookBlind e = true ∧ n = d)) l₀ l' := by
  refine Act.ensures_exec.mpr ?_
  cases confine with
  | wall =>
    intro a _
    refine ⟨trivial, rfl, _, rfl, h.event rfl fun t ht => ⟨_, t, rfl, ht, ?_⟩⟩
    cases a with
    | none => exact .inr ⟨rfl, rfl⟩
    | some n => exact .inl rfl
  | active =>
    intro a _
    exact ⟨trivial, rfl, _, rfl, h.event rfl fun t ht => ⟨_, t, rfl, ht, .inl rfl⟩⟩

theorem hookClose_adds (kq : Int) (c : RawChild) (h : HookAdds F l₀ l)
    (hF : ∀ e t, F t → F (e :: t)) :
    (hookClose kq).Ensures {} c l fun r c' l' => r = .ok () ∧ c' = c ∧ HookAdds F l₀ l' :=
  Act.ensures_bind.mpr fun _ _ => ⟨trivial, rfl, rfl, h.event rfl fun t ht => hF _ t ht⟩

/-- A blocking wait takes the status or fails. -/
theorem hookReap_waits (config : RunConfig) (fuel : Nat) (hc : c.exited = false) (h : HookAdds F l₀ l) :
    (hookReap fuel).Ensures {} c l fun r c' l' => ∃ w, r = .ok w ∧ c'.pid = c.pid ∧
      HookAdds (fun t => HookWaited config c.pid t w) l₀ l' := by
  simp only [hookReap, hookChildWait, Act.ensures_bind, Act.ensures_attempt, RawChild.wait,
    Act.ensures_get, id]
  rw [if_neg (by rw [hc]; decide)]
  simp only [Act.ensures_bind, Act.ensures_modify, Act.ensures_pure]
  -- an interrupted wait is asked again: the loop keeps what was added before
  refine Act.ensures_iterate (fun _ s l' => s = c ∧ HookAdds (fun _ => True) l₀ l') ?_
    (fun _ _ _ _ => trivial) fuel ⟨rfl, h.mono fun _ _ => trivial⟩
  rintro _ s l' ⟨rfl, hl'⟩
  simp only [RawChild.waitRound, Act.ensures_bind, Act.ensures_call]
  intro a _
  refine ⟨trivial, ?_⟩
  cases a with
  | ok st =>
    refine ⟨_, rfl, rfl, hl'.event rfl fun t _ => ⟨_, List.mem_cons_self .., ?_⟩⟩
    exact beq_self_eq_true s.pid
  | error err =>
    refine Act.ensures_ite (fun _ => ?_) fun hintr => ?_
    · exact ⟨rfl, hl'.event rfl fun _ _ => trivial⟩
    refine ⟨_, rfl, rfl, hl'.event rfl fun t _ => ⟨_, List.mem_cons_self .., ?_⟩⟩
    exact bne_iff_ne.mpr hintr

/-- A process that is gone is reaped without blocking, else by a wait. -/
theorem hookGone_waits (config : RunConfig) (fuel : Nat) (hc : c.exited = false) (h : HookAdds F l₀ l) :
    (hookChildTryWait >>= fun r => match r with
      | .ok (some (status, _)) => pure (.inr (.inl (.exited status)))
      | .ok none => do
        let r ← hookReap fuel
        pure (.inr (.inl r))
      | .error e => pure (.inr (.inl (.error e.display))) :
        HookAct (Unit ⊕ (HookWaitResult ⊕ Kevent))).Ensures {} c l fun r c' l' =>
      ∃ w, r = .ok (.inr (.inl w)) ∧ c'.pid = c.pid ∧
        HookAdds (fun t => HookWaited config c.pid t w) l₀ l' := by
  simp only [hookChildTryWait, Act.ensures_bind, Act.ensures_attempt, RawChild.tryWait,
    Act.ensures_get, id]
  rw [if_neg (by rw [hc]; decide)]
  simp only [Act.ensures_bind, Act.ensures_call]
  intro a _
  refine ⟨trivial, ?_⟩
  rcases a with err | _ | st
  · exact ⟨_, rfl, rfl, h.event rfl fun t _ => ⟨_, List.mem_cons_self .., rfl⟩⟩
  · have hadds : HookAdds (fun _ => True) l₀ (⟨⟨.hook, .wait4NoHang c.pid⟩, .ok none⟩ :: l) :=
      h.event rfl fun _ _ => trivial
    simp only [Act.ensures_pure, Act.ensures_bind]
    refine (hookReap_waits config fuel hc hadds).mono ?_
    rintro r c' l' ⟨w, rfl, hpid, hl'⟩
    exact ⟨w, rfl, hpid, hl'⟩
  · refine ⟨_, rfl, rfl, h.event rfl fun t _ => ⟨_, List.mem_cons_self .., ?_⟩⟩
    exact beq_self_eq_true c.pid

/-! ## The wait as a whole -/

/-- The start of the wait: a reading, or none and a clock that could not be read. -/
def HookStarted (config : RunConfig) (startNs : Nat) (t : Trace) : Prop :=
  (∃ e ∈ t, hookReading config.confine e = some startNs) ∨ ∃ e ∈ t, hookBlind e = true

theorem HookStarted.cons {startNs : Nat} {t : Trace} (e : Event) (h : HookStarted config startNs t) :
    HookStarted config startNs (e :: t) :=
  h.imp (exists_mem_append [e]) (exists_mem_append [e])

/-- The second reading, or none and a clock that could not be read. -/
theorem HookStarted.times {startNs n d : Nat} {t : Trace} {e : Event}
    (h : HookStarted config startNs t)
    (he : hookReading config.confine e = some n ∨ hookBlind e = true ∧ n = d) :
    HookTimes config.confine startNs n (e :: t) ∨ ∃ e' ∈ e :: t, hookBlind e' = true := by
  rcases he with hn | ⟨hblind, -⟩
  · refine h.imp (fun hs => ?_) (exists_mem_append [e])
    exact ⟨[], e, t, rfl, hn, hs⟩
  · exact .inr ⟨e, List.mem_cons_self .., hblind⟩

/-- What stands behind an event the wait was woken by. -/
def HookWoken (config : RunConfig) (p : Int) (startNs : Nat) (ev : Kevent) (t : Trace) : Prop :=
  ∃ kq n earlier, t = ⟨⟨.hook, .kevent kq (hookChanges p (min (remainingNs n
      (advanceNs startNs (durationToNs config.onTimeoutLimit))) maxTimerNs))⟩, .ok ev⟩ :: earlier ∧
    (HookTimes config.confine startNs n earlier ∨ ∃ e ∈ earlier, hookBlind e = true)

/-- One round: it is run again, ends the wait, or hands an event on. -/
theorem hookRound_waits (fuel : Nat) (kq : Int) (startNs : Nat) (hc : c.exited = false)
    (h : HookAdds (HookStarted config startNs) l₀ l) :
    (hookRound fuel c.pid kq config.confine
      (advanceNs startNs (durationToNs config.onTimeoutLimit)) ()).Ensures {} c l
      fun r c' l' => match r with
      | .ok (.inl _) => c' = c ∧ HookAdds (HookStarted config startNs) l₀ l'
      | .ok (.inr (.inl w)) => c'.pid = c.pid ∧ HookAdds (fun t => HookWaited config c.pid t w) l₀ l'
      | .ok (.inr (.inr ev)) => c' = c ∧ HookAdds (HookWoken config c.pid startNs ev) l₀ l'
      | .error e => nomatch e := by
  refine Act.ensures_bind.mpr ((nowOr_reads _ _ c h).mono ?_)
  rintro r c' l₁ ⟨rfl, n, rfl, hn⟩
  refine Act.ensures_ite (fun hreached => ?_) fun _ => ?_
  · -- the time is up
    have hdue : HookAdds (HookOverdue config c'.pid) l₀ l₁ := by
      refine hn.mono fun t ht => ?_
      obtain ⟨e, t, rfl, hstart, he⟩ := ht
      -- a clock that cannot be read counts as overdue
      rcases hstart.times he with htimes | ⟨e', hmem, hblind⟩
      · exact .clock htimes (deadlineReached_iff.mp hreached)
      · exact .blind hmem hblind
    refine Act.ensures_bind.mpr ((hookClose_adds kq c' hdue fun e t ht => ht.append [e]).mono ?_)
    rintro r c'' l₂ ⟨rfl, rfl, hl₂⟩
    exact ⟨rfl, hl₂⟩
  · have hstart : HookAdds (HookStarted config startNs) l₀ l₁ := by
      refine hn.mono fun t ht => ?_
      obtain ⟨e, t, rfl, hstart, -⟩ := ht
      exact hstart.cons e
    simp only [Act.ensures_bind, Act.ensures_call]
    intro a _
    refine ⟨trivial, ?_⟩
    cases a with
    | ok ev =>
      refine ⟨rfl, hn.event rfl fun t ht => ?_⟩
      obtain ⟨e, t, rfl, hstart, he⟩ := ht
      exact ⟨kq, n, e :: t, rfl, hstart.times he⟩
    | error err =>
      refine Act.ensures_ite (fun _ => ?_) fun hintr => ?_
      · exact ⟨rfl, hstart.event rfl fun t ht => ht.cons _⟩
      refine Act.ensures_ite (fun _ => ?_) fun hsrch => ?_
      · have hadds : HookAdds (fun _ => True) l₀ (⟨⟨.hook, .kevent kq (hookChanges c'.pid (min
            (remainingNs n (advanceNs startNs (durationToNs config.onTimeoutLimit)))
            maxTimerNs))⟩, .error err⟩ :: l₁) := hstart.event rfl fun _ _ => trivial
        refine Act.ensures_bind.mpr ((hookClose_adds kq c' hadds fun _ _ ht => ht).mono ?_)
        rintro r c'' l₂ ⟨rfl, rfl, hl₂⟩
        refine (hookGone_waits config fuel hc hl₂).mono ?_
        rintro r c₃ l₃ ⟨w, rfl, hpid, hl₃⟩
        exact ⟨hpid, hl₃⟩
      -- any other error ends the hook without a status
      · have hfail : HookAdds (fun t => ∃ e ∈ t, hookFails e = true) l₀ (⟨⟨.hook, .kevent kq
            (hookChanges c'.pid (min (remainingNs n
              (advanceNs startNs (durationToNs config.onTimeoutLimit))) maxTimerNs))⟩,
            .error err⟩ :: l₁) := by
          refine hstart.event rfl fun t _ => ⟨_, List.mem_cons_self .., ?_⟩
          show (err != EINTR && err != ESRCH) = true
          rw [bne_iff_ne.mpr hintr, bne_iff_ne.mpr hsrch]
          rfl
        refine Act.ensures_bind.mpr
          ((hookClose_adds kq c' hfail fun e t ht => exists_mem_append [e] ht).mono ?_)
        rintro r c'' l₂ ⟨rfl, rfl, hl₂⟩
        exact ⟨rfl, hl₂⟩

/-- What is made of the event: a gone or finished process is reaped, an event of
    another kind is the timer's. -/
theorem hookAfterLoop_waits (fuel : Nat) (kq : Int) {startNs : Nat} {ev : Kevent}
    (hc : c.exited = false) (h : HookAdds (HookWoken config c.pid startNs ev) l₀ l) :
    (hookAfterLoop fuel kq ev).Ensures {} c l fun r c' l' => ∃ w, r = .ok w ∧ c'.pid = c.pid ∧
      HookAdds (fun t => HookWaited config c.pid t w) l₀ l' := by
  -- closing the queue leaves the event that woke the wait in the trace
  have hadds : HookAdds (fun t => ∃ t', t = ⟨⟨.hook, .close kq⟩, ()⟩ :: t' ∧
      HookWoken config c.pid startNs ev t') l₀ (⟨⟨.hook, .close kq⟩, ()⟩ :: l) :=
    h.event rfl fun t ht => ⟨t, rfl, ht⟩
  simp only [hookAfterLoop, hookClose, Act.ensures_bind, Act.ensures_call, Act.ensures_pure]
  refine fun _ _ => ⟨trivial, ?_⟩
  refine Act.ensures_ite (fun herr => ?_) fun _ => ?_
  · refine Act.ensures_ite (fun _ => hookReap_waits config fuel hc hadds) fun hsrch => ?_
    refine Act.ensures_pure.mpr ⟨_, rfl, rfl, hadds.mono fun t ht => ?_⟩
    obtain ⟨t, rfl, kq, n, earlier, rfl, -⟩ := ht
    refine ⟨_, List.mem_cons_of_mem _ (List.mem_cons_self ..), ?_⟩
    show (ev.has EV_ERROR && ev.errCode != ESRCH) = true
    rw [herr, bne_iff_ne.mpr hsrch]
    rfl
  · refine Act.ensures_ite (fun _ => hookReap_waits config fuel hc hadds) fun hproc => ?_
    refine Act.ensures_pure.mpr ⟨_, rfl, rfl, hadds.mono fun t ht => ?_⟩
    obtain ⟨t, rfl, kq, n, earlier, rfl, htimes⟩ := ht
    rcases htimes with htimes | ⟨e, he, hblind⟩
    · exact HookOverdue.append [_] (.timer (List.nil_append _).symm htimes hproc)
    · exact HookOverdue.append [_, _] (.blind he hblind)

theorem waitForHook_waits (config : RunConfig) (fuel : Nat) (hc : c.exited = false) (l : Trace) :
    (waitForHookWithKqueue fuel config.onTimeoutLimit config.confine).Ensures {} c l
      fun r c' l' => ∃ w, r = .ok w ∧ c'.pid = c.pid ∧
        HookAdds (fun t => HookWaited config c.pid t w) l l' := by
  refine Act.ensures_bind.mpr (Act.ensures_get.mpr ?_)
  refine Act.ensures_bind.mpr ((nowOr_reads _ _ c (.nil (F := fun _ => True) trivial)).mono ?_)
  rintro r c' l₁ ⟨rfl, startNs, rfl, hstart⟩
  have hstart' : HookAdds (HookStarted config startNs) l l₁ := by
    refine hstart.mono fun t ht => ?_
    obtain ⟨e, t, rfl, -, he⟩ := ht
    refine he.imp (fun hread => ⟨e, List.mem_cons_self .., hread⟩) fun hblind => ?_
    exact ⟨e, List.mem_cons_self .., hblind.1⟩
  simp only [Act.ensures_bind, Act.ensures_call]
  intro a _
  refine ⟨trivial, ?_⟩
  cases a with
  | error errno =>
    exact ⟨_, rfl, rfl, hstart'.event rfl fun t _ => ⟨_, List.mem_cons_self .., rfl⟩⟩
  | ok kq =>
    simp only [Act.ensures_bind]
    refine Act.ensures_iterate
      (fun _ s l' => s = c' ∧ HookAdds (HookStarted config startNs) l l') ?_
      (fun _ _ _ _ => trivial) fuel ⟨rfl, hstart'.event rfl fun t ht => ht.cons _⟩
    rintro _ s l₂ ⟨rfl, hl₂⟩
    refine (hookRound_waits fuel kq startNs hc hl₂).mono fun r s' l₃ hr => ?_
    rcases r with e | _ | w | ev
    · exact e.elim
    · exact hr
    · exact ⟨w, rfl, hr.1, hr.2⟩
    · obtain ⟨rfl, hwoken⟩ := hr
      exact hookAfterLoop_waits fuel kq hc hwoken

/-! ## The hook under supervision -/

/-- The supervision failed, or the hook is reaped, or its group is killed. -/
def HookKept (p : Int) (l : Trace) : Prop :=
  (∃ e ∈ l, hookFails e = true) ∨ (∃ e ∈ l, hookReaps p e = true) ∨ ∃ e ∈ l, hookKills p e = true

theorem HookKept.append {p : Int} {l : Trace} (l' : Trace) (h : HookKept p l) :
    HookKept p (l' ++ l) :=
  h.imp (exists_mem_append l') fun h => h.imp (exists_mem_append l') (exists_mem_append l')

/-- What the supervision promises of its result. -/
def HookOutcome (config : RunConfig) (p : Int) (r : HookResult) (l : Trace) : Prop :=
  HookKept p l ∧ (r.timedOut = true → HookOverdue config p l)

theorem hookElapsedMs_adds (config : RunConfig) (startNs : Nat) (c : RawChild)
    (h : HookAdds F l₀ l) (hF : ∀ e t, F t → F (e :: t)) :
    (hookElapsedMs config startNs : HookAct Nat).Ensures {} c l fun r c' l' =>
      (∃ ms, r = .ok ms) ∧ c' = c ∧ HookAdds F l₀ l' := by
  refine Act.ensures_bind.mpr ((nowOr_reads _ _ c h).mono ?_)
  rintro r c' l' ⟨rfl, n, rfl, hn⟩
  refine Act.ensures_pure.mpr ⟨⟨_, rfl⟩, rfl, hn.mono fun t ht => ?_⟩
  obtain ⟨e, t, rfl, ht, -⟩ := ht
  exact hF e t ht

theorem hookLine_adds (config : RunConfig) (line : String) (c : RawChild) (h : HookAdds F l₀ l)
    (hF : ∀ e t, F t → F (e :: t)) :
    (hookLine config line).Ensures {} c l fun r c' l' => r = .ok () ∧ c' = c ∧ HookAdds F l₀ l' := by
  refine Act.ensures_ite (fun _ => ?_) fun _ => Act.ensures_pure.mpr ⟨rfl, rfl, h⟩
  exact Act.ensures_bind.mpr fun _ _ => ⟨trivial, rfl, rfl, h.event rfl fun t ht => hF _ t ht⟩

/-- Killing the group, then waiting for the process. -/
theorem hookKill_adds (fuel : Nat) (c : RawChild) (r : HookResult)
    (h : HookAdds (HookOverdue config c.pid) l₀ l) :
    (do
      let _ ← sys .hook (.killpg c.pid Signal.sigkill.asRaw)
      let _ ← hookChildWait fuel
      pure r : HookAct HookResult).Ensures {} c l fun r' _ l' =>
        r' = .ok r ∧ HookAdds (HookOutcome config c.pid r) l₀ l' := by
  simp only [Act.ensures_bind, Act.ensures_call]
  refine fun a _ => ⟨trivial, ?_⟩
  have hkill : HookAdds (HookOutcome config c.pid r) l₀
      (⟨⟨.hook, .killpg c.pid Signal.sigkill.asRaw⟩, a⟩ :: l) := by
    refine h.event rfl fun t ht => ⟨.inr (.inr ⟨_, List.mem_cons_self .., ?_⟩), fun _ => ht.append [_]⟩
    show (c.pid == c.pid && Signal.sigkill.asRaw == Signal.sigkill.asRaw) = true
    rw [beq_self_eq_true, beq_self_eq_true]
    rfl
  have hwait : Act.Asking (fun q : Req => q.call.spawns = false) (hookChildWait fuel) :=
    asking_hookChildWait (fun _ => rfl) fuel
  refine (hwait.ensures_grown c _).mono ?_
  intro r' c' l' hl'
  obtain ⟨t', rfl, ht'⟩ := hl'
  have hmore : HookAdds (HookOutcome config c.pid r) l₀
      (t' ++ ⟨⟨.hook, .killpg c.pid Signal.sigkill.asRaw⟩, a⟩ :: l) :=
    hkill.trans (G := fun _ => True) ⟨t', rfl, ht', trivial⟩
      fun t t' ht _ => ⟨ht.1.append t', fun hr => (ht.2 hr).append t'⟩
  cases r' with
  | ok _ => exact ⟨rfl, hmore⟩
  | error e => exact e.elim

/-- The supervision of a spawned hook. -/
theorem superviseHook_keeps (config : RunConfig) (fuel startNs : Nat) (hc : c.exited = false)
    (l : Trace) : (superviseHook fuel config startNs).Ensures {} c l
      fun r _ l' => ∃ a, r = .ok a ∧ HookAdds (HookOutcome config c.pid a) l l' := by
  refine Act.ensures_bind.mpr ((waitForHook_waits config fuel hc l).mono ?_)
  rintro r c₁ l₁ ⟨w, rfl, hpid, hw⟩
  refine Act.ensures_bind.mpr
    ((hookElapsedMs_adds config startNs c₁ hw fun e t ht => ht.append [e]).mono ?_)
  rintro r c₂ l₂ ⟨⟨ms, rfl⟩, rfl, hw₂⟩
  cases w with
  | exited status =>
    dsimp only
    cases hcode : status.code with
    | none =>
      exact Act.ensures_pure.mpr ⟨_, rfl, hw₂.mono fun t ht => ⟨.inr (.inl ht), nofun⟩⟩
    | some code =>
      refine Act.ensures_ite (fun _ => ?_) fun _ => ?_
      · refine Act.ensures_bind.mpr
          ((hookLine_adds config _ c₂ hw₂ fun e t ht => ht.append [e]).mono ?_)
        rintro r c₃ l₃ ⟨rfl, rfl, hw₃⟩
        exact Act.ensures_pure.mpr ⟨_, rfl, hw₃.mono fun t ht => ⟨.inr (.inl ht), nofun⟩⟩
      · exact Act.ensures_pure.mpr ⟨_, rfl, hw₂.mono fun t ht => ⟨.inr (.inl ht), nofun⟩⟩
  | timedOut =>
    refine Act.ensures_bind.mpr ((hookLine_adds config _ c₂ hw₂ fun e t ht => ht.append [e]).mono ?_)
    rintro r c₃ l₃ ⟨rfl, rfl, hw₃⟩
    rw [← hpid] at hw₃ ⊢
    refine Act.ensures_bind.mpr (Act.ensures_get.mpr ?_)
    refine (hookKill_adds fuel c₃ _ hw₃).mono ?_
    rintro r c₄ l₄ ⟨rfl, hl₄⟩
    exact ⟨_, rfl, hl₄⟩
  | error e =>
    refine Act.ensures_bind.mpr ((hookLine_adds config _ c₂ hw₂ fun e t ht => ht.append [e]).mono ?_)
    rintro r c₃ l₃ ⟨rfl, rfl, hw₃⟩
    exact Act.ensures_pure.mpr ⟨_, rfl, hw₃.mono fun t ht => ⟨.inl ht, nofun⟩⟩

/-- A hook that did not start is reported. -/
theorem hookRefused_adds (config : RunConfig) (line : String) (startNs : Nat) (c : RawChild)
    (h : HookAdds (fun _ => True) l₀ l) :
    (do
      hookLine config line
      let elapsedMs ← hookElapsedMs config startNs
      pure { elapsedMs } : HookAct HookResult).Ensures {} c l fun r _ l' =>
        ∃ a, r = .ok a ∧ HookAdds (fun _ => True) l₀ l' := by
  refine Act.ensures_bind.mpr ((hookLine_adds config line c h fun _ _ h => h).mono ?_)
  rintro r c₁ l₁ ⟨rfl, rfl, hl₁⟩
  refine Act.ensures_bind.mpr ((hookElapsedMs_adds config startNs c₁ hl₁ fun _ _ h => h).mono ?_)
  rintro r c₂ l₂ ⟨⟨ms, rfl⟩, rfl, hl₂⟩
  exact Act.ensures_pure.mpr ⟨_, rfl, hl₂⟩

/-- Where the hook is spawned, and what is known of the rest of the run. -/
def HookSpawned (config : RunConfig) (a : HookResult) (l l' : Trace) : Prop :=
  ∀ later c as g p before, l' = later ++ ⟨⟨.hook, .posixSpawnp c as g⟩, .ok p⟩ :: before →
    l <:+ before → HookOutcome config p a later

/-- The hook's script: once its spawn handed out `p`, the rest of the run kept `p`. -/
theorem hookScript_keeps (config : RunConfig) (fuel : Nat) (cmd : String) (pid : Int) (l : Trace) :
    (hookScript fuel cmd pid config).Ensures {} { pid := 0 } l fun r _ l' =>
      ∃ a, r = .ok a ∧ HookSpawned config a l l' := by
  have hnil : HookAdds (fun _ => True) l l := .nil trivial
  unfold hookScript
  refine Act.ensures_bind.mpr ((nowOr_reads config.confine 0 { pid := 0 } hnil).mono ?_)
  rintro r c l₁ ⟨rfl, startNs, rfl, hl₁⟩
  -- the command line does not matter, and must not be computed
  generalize expandHookCmd cmd pid = expandedCmd
  refine Act.ensures_bind.mpr ((hookLine_adds config _ { pid := 0 }
    (hl₁.mono (G := fun _ => True) fun _ _ => trivial) fun _ _ h => h).mono ?_)
  rintro r c l₂ ⟨rfl, rfl, hl₂⟩
  refine Act.ensures_bind.mpr (Act.ensures_exec.mpr ?_)
  unfold spawnCommand
  split
  · -- refused before it is asked for: the log holds no spawn
    simp only [Prog.Ensures]
    refine (hookRefused_adds config _ startNs { pid := 0 } hl₂).mono ?_
    rintro r c l₃ ⟨a, rfl, hl₃⟩
    refine ⟨a, rfl, ?_⟩
    intro later c as g p before hl hbefore
    exact absurd (hl₃.grown.at_event hl hbefore) (by simp [Call.spawns])
  · simp only [Prog.Ensures]
    intro a _
    refine ⟨trivial, ?_⟩
    cases a with
    | error errno =>
      refine (hookRefused_adds config _ startNs { pid := 0 } (.nil trivial)).mono ?_
      rintro r c l₃ ⟨a, rfl, hl₃⟩
      refine ⟨a, rfl, ?_⟩
      intro later c as g p before hl hbefore
      obtain ⟨he, -⟩ := hl₂.of_spawn hl₃ hl hbefore rfl
      cases he
    | ok p' =>
      simp only [Act.ensures_bind, Act.ensures_modify]
      refine (superviseHook_keeps config fuel startNs (c := { pid := p' }) rfl _).mono ?_
      rintro r c l₃ ⟨a, rfl, hl₃⟩
      refine ⟨a, rfl, ?_⟩
      intro later c as g p before hl hbefore
      obtain ⟨he, hG⟩ := hl₂.of_spawn hl₃ hl hbefore rfl
      cases he
      exact hG

/-- **The hook under supervision.** For every hook command and every outcome of its
    calls: once the hook is spawned with pid `p`, a run that returns has taken the
    status of `p` or sent SIGKILL to its group, unless the supervision itself failed;
    and it reports a timeout only if the clock passed the limit, the timer armed for
    what was left of it fired, or the clock could not be read. -/
theorem hook_supervised (fuel : Nat) (cmd : String) (pid : Int) (config : RunConfig) (W : World)
    {r : HookResult} {command : String} {args : List String} {group : Bool} {p : Int}
    {later before : Trace}
    (hrun : (runOnTimeoutHook fuel cmd pid config).run W [] =
      (some r, later ++ ⟨⟨.hook, .posixSpawnp command args group⟩, .ok p⟩ :: before)) :
    ((∃ e ∈ later, hookFails e = true) ∨ (∃ e ∈ later, hookReaps p e = true) ∨
      ∃ e ∈ later, hookKills p e = true) ∧
    (r.timedOut = true → HookOverdue config p later) := by
  have hspec : (runOnTimeoutHook fuel cmd pid config).Ensures {} []
      fun a l' => HookSpawned config a [] l' := by
    refine Prog.ensures_bind.mpr (Prog.Ensures.mono ?_ (hookScript_keeps config fuel cmd pid []))
    rintro ⟨r, c⟩ l' ⟨a, rfl, hkept⟩
    exact hkept
  have hpost := hspec.returns W (Always.of_forall (fun _ _ => trivial) _) (a := r) (by rw [hrun])
  rw [hrun] at hpost
  exact hpost later command args group p before rfl (List.nil_suffix ..)

/-- The hook is spawned as process 9, and there is no kqueue to wait with. -/
def queuelessWorld : World := Machine.world { kqueue := .error 24, spawned := .ok 9 }

/-- The hook is spawned as process 9, and the wall clock cannot be read. -/
def blindWorld : World := Machine.world { wallClock := fun _ => none, spawned := .ok 9 }

/-- The hook is spawned as process 9 and gone at once; the look at it that does not block
    fails, with the error of an interrupted call. -/
def interruptedWorld : World := Machine.world {
  kevent := fun _ => .error ESRCH, wait4NoHang := fun _ => .error EINTR, spawned := .ok 9 }

/-- The run of the hook with no command and the default limit. -/
def hookRun (W : World) : Option HookResult × Trace := (runOnTimeoutHook 1 "" 7 {}).run W []

theorem hook_supervised_blind : ∃ later before, (hookRun blindWorld).2 =
      later ++ ⟨⟨.hook, .posixSpawnp "sh" ["-c", ""] true⟩, .ok 9⟩ :: before ∧
    HookKept 9 later ∧ HookOverdue {} 9 later := by
  have hrun : hookRun blindWorld = (some { ran := true, timedOut := true },
      [⟨⟨.hook, .wait4 9⟩, .ok (⟨0⟩, {})⟩, ⟨⟨.hook, .killpg 9 9⟩, .ok ()⟩,
        ⟨⟨.hook, .wallNow⟩, none⟩, ⟨⟨.hook, .close 5⟩, ()⟩, ⟨⟨.hook, .wallNow⟩, none⟩,
        ⟨⟨.hook, .kqueue⟩, .ok 5⟩, ⟨⟨.hook, .wallNow⟩, none⟩] ++
      ⟨⟨.hook, .posixSpawnp "sh" ["-c", ""] true⟩, .ok 9⟩ :: [⟨⟨.hook, .wallNow⟩, none⟩]) := by
    rfl
  obtain ⟨hkept, hover⟩ := hook_supervised 1 "" 7 {} blindWorld hrun
  exact ⟨_, _, congrArg Prod.snd hrun, hkept, hover rfl⟩

/-- Without a kqueue the hook is neither reaped nor killed, nor is it after a failed look
    that does not block; without a clock its time counts as up although no reading was
    ever taken. -/
theorem hook_left_behind :
    ((hookRun queuelessWorld).1 = some { ran := true } ∧
      (hookRun queuelessWorld).2.any (fun e => e.req.call.spawns) = true ∧
      (hookRun queuelessWorld).2.any (fun e => hookReaps 9 e || hookKills 9 e) = false) ∧
    ((hookRun interruptedWorld).1 = some { ran := true } ∧
      (hookRun interruptedWorld).2.any (fun e => e.req.call.spawns) = true ∧
      (hookRun interruptedWorld).2.any (fun e => hookReaps 9 e || hookKills 9 e) = false) ∧
    (hookRun blindWorld).1 = some { ran := true, timedOut := true } ∧
      (hookRun blindWorld).2.all (fun e => (hookReading .wall e).isNone) = true := by
  refine ⟨⟨?_, ?_, ?_⟩, ⟨?_, ?_, ?_⟩, ?_, ?_⟩ <;> decide +kernel

end Procguard
