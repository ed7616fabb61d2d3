import Procguard.Timing
import Procguard.Verdict

/- The filters the event loop registers. `Intended` is the change list a kevent call
   should submit: the process, the timer, the signal pipe when there is one, and stdin
   when it is watched or to be deleted. The loop submits a prefix of four fixed entries
   instead; `submitted_iff` says when the two are the same, and `watches_rule` that a loop
   with a signal pipe, or one that never watches stdin, stays in that state. -/
namespace Procguard
open Interact

/-! ## The change list -/

def procEntry (pid : Int) : Kevent :=
  { ident := asUsize pid, filter := EVFILT_PROC, flags := EV_ADD ||| EV_ONESHOT, fflags := NOTE_EXIT }

def timerEntry (data : Int) : Kevent :=
  { ident := 1, filter := EVFILT_TIMER, flags := EV_ADD ||| EV_ONESHOT, fflags := NOTE_NSECONDS, data }

def signalEntry (fd : Int) : Kevent :=
  { ident := asUsize fd, filter := EVFILT_READ, flags := EV_ADD }

def stdinEntry (flags : UInt16) : Kevent := { ident := 0, filter := EVFILT_READ, flags }

/-- What a kevent call should submit from the locals `v`. -/
def Intended (f : WaitFixed) (v : WaitVars) (cs : List Kevent) : Prop :=
  ∃ timerNs, cs = procEntry f.args.pid :: timerEntry timerNs ::
    (f.signalFd.toList.map signalEntry ++
      if v.stdinEnabled then [stdinEntry EV_ADD]
      else if v.changes.stdin.flags = EV_DELETE then [stdinEntry EV_DELETE] else [])

/-- The changes the round submits when it has read `nowNs`. -/
def submitted (f : WaitFixed) (v : WaitVars) (nowNs : Nat) : List Kevent :=
  (armed f v nowNs).toList.take (numChanges f v)

/-- The change entries of a loop. -/
structure Entries (f : WaitFixed) (v : WaitVars) : Prop where
  proc : v.changes.proc = procEntry f.args.pid
  timer : ∃ timerNs, v.changes.timer = timerEntry timerNs
  sig : v.changes.sig = f.signalFd.elim (stdinEntry 0) signalEntry
  stdin : v.changes.stdin = stdinEntry v.changes.stdin.flags
  flags : v.changes.stdin.flags = 0 ∨
    v.changes.stdin.flags = if v.stdinEnabled then EV_ADD else EV_DELETE

/-- The prefix of the four entries is the right one: nothing is missing before the stdin
    entry, and a stdin that is watched has its flag. -/
structure Aligned (f : WaitFixed) (v : WaitVars) : Prop where
  prefixed : f.signalFd.isSome = true ∨ stdinActive v = false
  flagged : v.stdinEnabled = true → v.changes.stdin.flags = EV_ADD

section list
variable {f : WaitFixed} {v : WaitVars}

/-- No intended change is a no-op. -/
theorem Intended.flags_ne_zero {cs : List Kevent} (h : Intended f v cs) :
    ∀ c ∈ cs, c.flags ≠ 0 := by
  obtain ⟨timerNs, rfl⟩ := h
  intro c hc
  rcases List.mem_cons.mp hc with rfl | hc
  · show EV_ADD ||| EV_ONESHOT ≠ 0
    decide
  rcases List.mem_cons.mp hc with rfl | hc
  · show EV_ADD ||| EV_ONESHOT ≠ 0
    decide
  rcases List.mem_append.mp hc with hc | hc
  · obtain ⟨fd, -, rfl⟩ := List.mem_map.mp hc
    show EV_ADD ≠ 0
    decide
  · split at hc
    · rw [List.mem_singleton.mp hc]
      decide
    · split at hc
      · rw [List.mem_singleton.mp hc]
        decide
      · cases hc

/-- What the round submits, entry by entry. -/
theorem Entries.submitted_eq (h : Entries f v) (nowNs : Nat) : ∃ timerNs,
    submitted f v nowNs = procEntry f.args.pid :: timerEntry timerNs ::
      [f.signalFd.elim (stdinEntry 0) signalEntry, stdinEntry v.changes.stdin.flags].take
        (f.signalFd.isSome.toNat + (stdinActive v).toNat) := by
  obtain ⟨timerNs, htimer⟩ := h.timer
  refine ⟨asIsize (min (nextWakeNs f v nowNs) maxTimerNs), ?_⟩
  have hlist : (armed f v nowNs).toList = [procEntry f.args.pid,
      timerEntry (asIsize (min (nextWakeNs f v nowNs) maxTimerNs)),
      f.signalFd.elim (stdinEntry 0) signalEntry, stdinEntry v.changes.stdin.flags] := by
    rw [← h.proc, ← h.sig, ← h.stdin]
    simp only [armed, armTimer, Changes.toList, htimer]
    rfl
  rw [submitted, hlist, numChanges, Nat.add_assoc, Nat.add_comm 2]
  rfl

/-- **The prefix is the intended list exactly when it is aligned.** -/
theorem Entries.submitted_iff (h : Entries f v) (nowNs : Nat) :
    Intended f v (submitted f v nowNs) ↔ Aligned f v := by
  obtain ⟨timerNs, heq⟩ := h.submitted_eq nowNs
  have hcons : Intended f v (submitted f v nowNs) ↔
      [f.signalFd.elim (stdinEntry 0) signalEntry, stdinEntry v.changes.stdin.flags].take
        (f.signalFd.isSome.toNat + (stdinActive v).toNat) =
      f.signalFd.toList.map signalEntry ++
        if v.stdinEnabled then [stdinEntry EV_ADD]
        else if v.changes.stdin.flags = EV_DELETE then [stdinEntry EV_DELETE] else [] := by
    rw [heq]
    refine ⟨fun ⟨_, hi⟩ => ?_, fun hi => ⟨timerNs, by rw [hi]⟩⟩
    exact (List.cons.inj (List.cons.inj hi).2).2
  have hflag : ∀ flags flags', stdinEntry flags = stdinEntry flags' ↔ flags = flags' :=
    fun _ _ => ⟨fun h => congrArg Kevent.flags h, fun h => by rw [h]⟩
  -- by cases on the signal pipe and stdin: the list is cut where an entry before it is missing
  have hactive : stdinActive v = (v.stdinEnabled || v.changes.stdin.flags == EV_DELETE) := rfl
  have halign : Aligned f v ↔ (f.signalFd.isSome = true ∨ stdinActive v = false) ∧
      (v.stdinEnabled = true → v.changes.stdin.flags = EV_ADD) :=
    ⟨fun h => ⟨h.1, h.2⟩, fun h => ⟨h.1, h.2⟩⟩
  rw [hcons, halign]
  have hne : (0 : UInt16) ≠ EV_ADD := by decide
  have hne' : (0 : UInt16) ≠ EV_DELETE := by decide
  cases hfd : f.signalFd with
  | some fd =>
    cases hon : v.stdinEnabled with
    | true => simp [hactive, hon, hflag]
    | false =>
      by_cases hdel : v.changes.stdin.flags = EV_DELETE
      · simp [hactive, hon, hdel]
      · simp [hactive, hon, hdel, beq_eq_false_iff_ne.mpr hdel]
  | none =>
    cases hon : v.stdinEnabled with
    | true => simp [hactive, hon, hflag, hne]
    | false =>
      by_cases hdel : v.changes.stdin.flags = EV_DELETE
      · simp [hactive, hon, hdel, hflag, hne']
      · simp [hactive, hon, hdel, beq_eq_false_iff_ne.mpr hdel]

/-- Blocks that leave the change list and the stdin flag alone. -/
theorem Entries.of_eq {v' : WaitVars} (h : Entries f v) (hc : v'.changes = v.changes)
    (he : v'.stdinEnabled = v.stdinEnabled) : Entries f v' := by
  obtain ⟨hproc, htimer, hsig, hstdin, hflags⟩ := h
  refine ⟨?_, ?_, ?_, ?_, ?_⟩ <;> rw [hc]
  · exact hproc
  · exact htimer
  · exact hsig
  · exact hstdin
  · rw [he]
    exact hflags

theorem Entries.rearmProc (h : Entries f v) : Entries f (rearmProc v) := by
  refine ⟨?_, h.timer, h.sig, h.stdin, h.flags⟩
  show { v.changes.proc with flags := EV_ADD ||| EV_ONESHOT } = _
  rw [h.proc]
  rfl

theorem Entries.setStdinFlags (h : Entries f v) {flags : UInt16}
    (hflags : flags = 0 ∨ flags = if v.stdinEnabled then EV_ADD else EV_DELETE) :
    Entries f (setStdinFlags v flags) := by
  refine ⟨h.proc, h.timer, h.sig, ?_, hflags⟩
  show { v.changes.stdin with flags } = _
  rw [h.stdin]
  rfl

theorem Entries.dropStdin (h : Entries f v) : Entries f (dropStdin v) := by
  refine ⟨h.proc, h.timer, h.sig, ?_, .inr rfl⟩
  show { v.changes.stdin with flags := EV_DELETE } = _
  rw [h.stdin]
  rfl

theorem Entries.afterKevent (h : Entries f v) (nowNs : Nat) : Entries f (afterKevent f v nowNs) := by
  obtain ⟨timerNs, htimer⟩ := h.timer
  have harmed : Entries f { v with changes := armed f v nowNs } := by
    refine ⟨h.proc, ⟨asIsize (min (nextWakeNs f v nowNs) maxTimerNs), ?_⟩, h.sig, h.stdin, h.flags⟩
    show { v.changes.timer with data := asIsize (min (nextWakeNs f v nowNs) maxTimerNs) } = _
    rw [htimer]
    rfl
  unfold Procguard.afterKevent clearDelete
  split
  · exact harmed.setStdinFlags (.inl rfl)
  · exact harmed

theorem Aligned.afterKevent (h : Aligned f v) (nowNs : Nat) : Aligned f (afterKevent f v nowNs) := by
  have hkeep : v.changes.stdin.flags ≠ EV_DELETE →
      (Procguard.afterKevent f v nowNs).changes.stdin.flags = v.changes.stdin.flags := by
    intro hne
    unfold Procguard.afterKevent clearDelete
    rw [if_neg (show (armed f v nowNs).stdin.flags ≠ EV_DELETE from hne)]
    rfl
  refine ⟨h.prefixed.imp_right fun hoff => ?_, fun hon => ?_⟩
  · have hoff' : v.stdinEnabled = false ∧ (v.changes.stdin.flags == EV_DELETE) = false := by
      simpa [stdinActive] using hoff
    have hne : v.changes.stdin.flags ≠ EV_DELETE := beq_eq_false_iff_ne.mp hoff'.2
    show (v.stdinEnabled || _ == EV_DELETE) = false
    rw [hkeep hne, hoff'.1, hoff'.2]
    rfl
  · have hadd := h.flagged hon
    rw [hkeep (by rw [hadd]; decide)]
    exact hadd

end list

/-! ## The loop -/

/-- A registration error for descriptor 0 that no filter of the loop accounts for: its
    filter is missing while stdin is watched, or it is invalid and there is no signal
    pipe. -/
def StrayError (w₀ : Watch) : Event → Trace → Prop
  | ⟨⟨.monitor, .kevent _ _⟩, .ok ev⟩, l =>
    ev.has EV_ERROR = true ∧ ev.ident = 0 ∧ ev.filter ≠ EVFILT_TIMER ∧
      ¬ (watch w₀ l).StdinEvent ev ∧
      (ev.errCode = ENOENT ∧ (watch w₀ l).draining = true ∨
        ev.errCode = EBADF ∧ (watch w₀ l).signals = false)
  | _, _ => False

instance (w₀ : Watch) (e : Event) (l : Trace) : Decidable (StrayError w₀ e l) := by
  obtain ⟨⟨caller, call⟩, a⟩ := e
  rcases caller with _ | _ <;> rcases call with _ | _ <;> first
    | exact isFalse id
    | rcases a with _ | _ <;> first
      | exact isFalse id
      | exact inferInstanceAs (Decidable (_ ∧ _))

/-- The change entries are as they should be, and aligned when the loop started so. -/
structure Held (w₀ : Watch) (f : WaitFixed) (c : Prop) (v : WaitVars) (l : Trace) : Prop where
  entries : Entries f v
  aligned : c → Always (fun e l => ¬ StrayError w₀ e l) l → Aligned f v

section loop
variable {w₀ : Watch} {f : WaitFixed} {c : Prop} {v v' : WaitVars} {l l' : Trace}

namespace Held

theorem later (h : Held w₀ f c v l) (hl : l <:+ l') : Held w₀ f c v l' :=
  ⟨h.entries, fun hc hstray => h.aligned hc (hstray.suffix hl)⟩

theorem event (h : Held w₀ f c v l) (e : Event) : Held w₀ f c v (e :: l) :=
  h.later (List.suffix_cons e l)

theorem of_eq (h : Held w₀ f c v l) (hc : v'.changes = v.changes)
    (he : v'.stdinEnabled = v.stdinEnabled) : Held w₀ f c v' l := by
  refine ⟨h.entries.of_eq hc he, fun hcond hstray => ?_⟩
  obtain ⟨hprefixed, hflagged⟩ := h.aligned hcond hstray
  refine ⟨?_, ?_⟩
  · rw [stdinActive, he, hc]
    exact hprefixed
  · rw [he, hc]
    exact hflagged

theorem rearmed (h : Held w₀ f c v l) : Held w₀ f c (rearmProc v) l :=
  ⟨h.entries.rearmProc, fun hcond hstray =>
    ⟨(h.aligned hcond hstray).prefixed, (h.aligned hcond hstray).flagged⟩⟩

/-- Stdin is given up: its filter is to be deleted, for which there is room. -/
theorem dropped (h : Held w₀ f c v l) (hroom : c → Always (fun e l => ¬ StrayError w₀ e l) l →
    f.signalFd.isSome = true) : Held w₀ f c (rearmProc (dropStdin v)) l :=
  ⟨h.entries.dropStdin.rearmProc, fun hcond hstray => ⟨.inl (hroom hcond hstray), nofun⟩⟩

/-- A stdin that is watched has its place in the list. -/
theorem room_of_stdin (h : Held w₀ f c v l) (hon : v.stdinEnabled = true) :
    c → Always (fun e l => ¬ StrayError w₀ e l) l → f.signalFd.isSome = true := by
  intro hcond hstray
  refine (h.aligned hcond hstray).prefixed.resolve_right fun hoff => ?_
  rw [stdinActive, hon] at hoff
  cases hoff

end Held

/-- The rule every round of the loop keeps. -/
theorem watches_rule (w₀ : Watch) (fuel : Nat) (f : WaitFixed) (c : Prop) :
    WaitRule {} w₀ fuel f (fun _ v _ l => Held w₀ f c v l) (fun _ v _ l => Held w₀ f c v l)
      (fun _ v _ l => Held w₀ f c v l) (fun _ v _ l => Held w₀ f c v l) fun _ _ _ => True where
  cut _ _ _ _ := trivial
  clock _ v _ l hv _ := by
    refine asksClock_intro w₀ fun e r _ _ _ _ _ => ⟨trivial, ?_⟩
    cases r with
    | none => exact trivial
    | some t => exact hv.event e
  deadline _ _ _ _ _ _ _ := fun _ _ => ⟨trivial, trivial⟩
  idle _ _ _ _ _ _ _ _ _ := fun _ _ => ⟨trivial, trivial⟩
  -- what the kernel has registered is what the locals say, once the list is submitted
  kevent _ v _ l hv _ _ := fun _ _ =>
    ⟨trivial, hv.entries.afterKevent _, fun hcond hstray => (hv.aligned hcond hstray.2).afterKevent _⟩
  interrupted _ _ _ _ _ hv _ := hv
  noProcess _ _ _ _ _ _ _ := fun _ _ => ⟨trivial, Prog.ensures_of_forall (fun _ _ => trivial)
    (fun _ => trivial) (fun _ _ => trivial) _ _⟩
  broken _ _ _ _ _ _ _ _ _ _ := fun _ _ => ⟨trivial, trivial⟩
  eof _ _ _ _ _ _ hv _ hev _ := hv.dropped (hv.room_of_stdin hev.2.2)
  read _ v _ l _ _ hv _ hev _ := by
    intro bytes _
    refine ⟨trivial, ?_⟩
    dsimp only
    split
    · exact (hv.event _).dropped ((hv.event _).room_of_stdin hev.2.2)
    · split
      · refine asksClock_intro w₀ fun e r _ _ _ _ _ => ⟨trivial, ?_⟩
        cases r with
        | none => exact trivial
        | some t =>
          have hv' : Held w₀ f c { v with
              stdinTimeout := v.stdinTimeout.map fun s => { s with lastActivityNs := t } }
              (e :: ⟨⟨.monitor, .readStdin⟩, bytes⟩ :: _) := ((hv.event _).event e).of_eq rfl rfl
          exact hv'.rearmed
      · exact (hv.event _).rearmed
  timer _ v _ l _ _ hv _ _ := by
    refine asksClock_intro w₀ fun e r _ _ _ _ _ => ⟨trivial, ?_⟩
    cases r with
    | none => exact trivial
    | some t => exact hv.event e
  throttle _ v _ l ctx hv _ _ _ := by
    have hext := Act.ensures_extends (CpuThrottleState.update ctx.cfg (watch w₀ l).clock) ctx.state l
    refine ((CpuThrottleState.update_ok ctx.cfg _ ctx.state l).with hext).mono fun r st l' hr => ?_
    obtain ⟨⟨b, rfl⟩, hl⟩ := hr
    exact (hv.later hl).of_eq rfl rfl
  memory _ v _ l m hv _ _ _ := fun r _ => by
    refine ⟨trivial, ?_⟩
    dsimp only
    split
    · split
      · exact fun _ _ => ⟨trivial, trivial⟩
      · exact (hv.event _).of_eq rfl rfl
    · exact (hv.event _).of_eq rfl rfl
  poll _ v _ l cfg hv _ _ _ := fun r _ => by
    refine ⟨trivial, (hv.event _).of_eq ?_ ?_⟩
    · cases stdinPollStatus r <;> rfl
    · cases stdinPollStatus r <;> rfl
  line _ _ _ _ _ hv _ _ _ _ := fun _ _ => ⟨trivial, hv.event _⟩
  beat _ v _ l hv _ _ := by
    have hv' : Held w₀ f c { v with
        nextHeartbeatNs := advanceNs (watch w₀ l).clock f.heartbeatIntervalNs } l := hv.of_eq rfl rfl
    exact hv'.rearmed
  tick _ _ _ _ hv _ _ := hv.rearmed
  -- a bad descriptor for stdin, with stdin registered, is the stray error that is excluded
  badStdin _ _ _ l _ ev hv ht hs hfilter he hbad hid := by
    refine hv.dropped fun hcond hstray => ?_
    rw [ht.signals]
    by_contra hno
    refine hstray.1 ⟨he, hid, hfilter, ?_, .inr ⟨hbad, by simpa using hno⟩⟩
    rw [Watch.StdinEvent, ← ht.draining]
    exact hs
  noFilter _ v _ l _ ev hv ht hs hfilter he hno hid := by
    refine Held.rearmed ⟨hv.entries.setStdinFlags (.inl rfl), fun hcond hstray => ?_⟩
    -- so is a missing filter for an entry that is registered
    have hoff : v.stdinEnabled = false := by
      rw [ht.draining]
      by_contra hon
      refine hstray.1 ⟨he, hid, hfilter, ?_, .inl ⟨hno, by simpa using hon⟩⟩
      rw [Watch.StdinEvent, ← ht.draining]
      exact hs
    refine ⟨.inr ?_, fun hon => ?_⟩
    · show (v.stdinEnabled || 0 == EV_DELETE) = false
      rw [hoff]
      rfl
    · rw [show (setStdinFlags v 0).stdinEnabled = false from hoff] at hon
      cases hon
  refused _ _ _ _ _ _ _ _ _ _ _ _ _ _ := fun _ _ => ⟨trivial, trivial⟩
  gone _ _ _ _ _ _ _ _ _ _ _ _ := fun _ _ => ⟨trivial, Prog.ensures_of_forall (fun _ _ => trivial)
    (fun _ => trivial) (fun _ _ => trivial) _ _⟩
  exited _ _ _ _ _ _ _ _ _ _ := fun _ _ => ⟨trivial, Prog.ensures_of_forall (fun _ _ => trivial)
    (fun _ => trivial) (fun r _ => by cases r.1 <;> exact trivial) _ _⟩
  signal _ _ _ _ _ _ _ _ _ _ _ := fun _ _ => by
    refine ⟨trivial, ?_⟩
    split
    · exact trivial
    · exact fun _ _ => ⟨trivial, trivial⟩
  other _ _ _ _ _ _ _ _ _ _ _ _ := fun _ _ => ⟨trivial, trivial⟩

end loop

/-! ## What the kernel watches -/

/-- One change of a kevent call, for the filter that watches stdin. -/
def watchStdin : Bool → Kevent → Bool := watchRead 0

/-- Whether the latest kqueue watches stdin. -/
def stdinRegistered : Trace → Bool := readRegistered .monitor 0

/-- A stdin that is watched is registered. -/
theorem Intended.registers {f : WaitFixed} {v : WaitVars} {cs : List Kevent}
    (h : Intended f v cs) (hon : v.stdinEnabled = true) (kq : Int) (r : Except Int Kevent)
    (l : Trace) : stdinRegistered (⟨⟨.monitor, .kevent kq cs⟩, r⟩ :: l) = true := by
  obtain ⟨timerNs, rfl⟩ := h
  rw [hon, if_pos rfl, stdinRegistered, readRegistered_kevent, ← List.cons_append,
    ← List.cons_append, List.foldl_append]
  rfl

/-! ## Activity on stdin -/

section activity
variable {w₀ : Watch} {f : WaitFixed} {v : WaitVars} {h : Handles} {l l₁ l' : Trace}

/-- Activity the kevent call of the round reports, with more to come, is read next; when
    there was data the idle timer starts again at the reading that follows. -/
def Heard (w₀ : Watch) (v : WaitVars) (l : Trace)
    (r : Except TimeoutError (WaitVars ⊕ (WaitResult ⊕ Kevent))) (l' : Trace) : Prop :=
  ∀ later kq cs ev before, l' = later ++ ⟨⟨.monitor, .kevent kq cs⟩, .ok ev⟩ :: before →
    l <:+ before → StdinEvent v ev → ev.has EV_EOF = false →
    ∃ n, ⟨⟨.monitor, .readStdin⟩, n⟩ :: ⟨⟨.monitor, .kevent kq cs⟩, .ok ev⟩ :: before <:+ l' ∧
      (0 < n → r = .error .timebaseError ∨ ∃ v', r = .ok (.inl v') ∧
        v'.stdinTimeout = v.stdinTimeout.map fun s =>
          { s with lastActivityNs := (watch w₀ l').clock })

/-- What a round does about the event its kevent call reported. -/
theorem round_answered (fuel : Nat) (f : WaitFixed) (v : WaitVars) (h : Handles) (l : Trace)
    {P : Int → List Kevent → Kevent → Trace →
      Except TimeoutError (WaitVars ⊕ (WaitResult ⊕ Kevent)) → Trace → Prop}
    (hev : ∀ t cs ev (e : Event), e.req = ⟨.monitor, clockCall f.args.confine⟩ →
      (onEvent f (afterKevent f v t) ev >>= fun r => match r with
        | .go ev | .leave ev => pure (.inr (.inr ev))
        | .next v => pure (.inl v)
        | .ret r => pure (.inr (.inl r)) : SuperAct (WaitVars ⊕ (WaitResult ⊕ Kevent))).Ensures {} h
        (delivered f cs (.ok ev) (e :: l)) fun r _ l' => P f.kq cs ev (e :: l) r l') :
    (waitRound fuel f v).Ensures {} h l fun r _ l' => ∀ later kq cs ev before,
      l' = later ++ ⟨⟨.monitor, .kevent kq cs⟩, .ok ev⟩ :: before → l <:+ before →
      P kq cs ev before r l' := by
  -- a round that makes no kevent call reports nothing
  have hsilent : ∀ {l'} {r : Except TimeoutError (WaitVars ⊕ (WaitResult ⊕ Kevent))},
      Grown Req.noKevent l l' → ∀ later kq cs ev before,
      l' = later ++ ⟨⟨.monitor, .kevent kq cs⟩, .ok ev⟩ :: before → l <:+ before →
      P kq cs ev before r l' :=
    fun hl _ _ _ _ _ heq hbefore => (hl.at_event heq hbefore).elim
  simp only [waitRound, loopHead, Act.ensures_bind, ensures_now]
  refine asksClock_intro {} fun e r hreq _ _ _ _ => ⟨trivial, ?_⟩
  have hclock : Grown Req.noKevent l (e :: l) := by
    refine .event e.ans l ?_
    rw [hreq]
    cases f.args.confine <;> exact trivial
  have hclosed : ∀ u, Grown Req.noKevent l (⟨⟨.monitor, .close f.kq⟩, u⟩ :: e :: l) :=
    fun u => hclock.trans (.event u _ trivial)
  cases r with
  | none => exact hsilent hclock
  | some t =>
    refine Act.ensures_ite (fun _ => ?_) fun _ => Act.ensures_ite (fun _ => ?_) fun _ => ?_
    · rw [WaitRule.ensures_finish]
      exact fun u _ => ⟨trivial, hsilent (hclosed u)⟩
    · rw [WaitRule.ensures_finish]
      exact fun u _ => ⟨trivial, hsilent (hclosed u)⟩
    · simp only [Act.ensures_pure, Act.ensures_bind, awaitEvent, Act.ensures_call]
      intro a _
      refine ⟨trivial, ?_⟩
      cases a with
      | error err =>
        have herr := @asking_onKeventError true fuel f
          { v with changes := clearDelete (armTimer v.changes (nextWakeNs f v t)) } err
        have hask := Act.Asking.bind (herr.mono fun _ hq => hq.1) asking_rest
        refine Act.ensures_bind.mp ((hask.ensures_grown _ _).mono fun r _ l' hl => ?_)
        intro later kq cs ev before heq hbefore
        obtain ⟨he, -⟩ := hclock.at_only hl heq hbefore id
        cases he
      | ok ev =>
        have hrest := asking_onEvent f
          { v with changes := clearDelete (armTimer v.changes (nextWakeNs f v t)) } ev
        have hask := Act.Asking.bind (hrest.mono fun _ hq => hq.1) asking_rest
        refine Act.ensures_bind.mp (((hask.ensures_grown _ _).with
          (hev t _ ev e hreq)).mono fun r _ l' hr => ?_)
        intro later kq cs ev' before heq hbefore
        -- it is the only kevent call of the round
        obtain ⟨he, rfl⟩ := hclock.at_only hr.1 heq hbefore id
        cases he
        exact hr.2

/-- stdin has something to read: it is read next. -/
theorem onStdin_heard (w₀ : Watch) (v' : WaitVars) {cs : List Kevent} {ev : Kevent}
    (hev : StdinEvent v ev) (heof : ev.has EV_EOF = false) (hon : v'.stdinEnabled = v.stdinEnabled)
    (hstdin : v'.stdinTimeout = v.stdinTimeout) :
    (onEvent f v' ev >>= fun r => match r with
      | .go ev | .leave ev => pure (.inr (.inr ev))
      | .next v => pure (.inl v)
      | .ret r => pure (.inr (.inl r)) : SuperAct (WaitVars ⊕ (WaitResult ⊕ Kevent))).Ensures {} h
      (delivered f cs (.ok ev) l) fun r _ l' => ∃ n,
        ⟨⟨.monitor, .readStdin⟩, n⟩ :: delivered f cs (.ok ev) l <:+ l' ∧
        (0 < n → r = .error .timebaseError ∨ ∃ v', r = .ok (.inl v') ∧
          v'.stdinTimeout = v.stdinTimeout.map fun s =>
            { s with lastActivityNs := (watch w₀ l').clock }) := by
  rw [onEvent, if_pos (by rw [hon]; exact hev), onStdin, if_neg (by rw [heof]; decide)]
  simp only [Act.ensures_bind, Act.ensures_call]
  intro n _
  refine ⟨trivial, ?_⟩
  dsimp only
  by_cases hzero : n = 0
  · rw [if_pos hzero]
    exact ⟨n, List.suffix_refl _, fun hpos => absurd hzero (Int.ne_of_gt hpos)⟩
  rw [if_neg hzero]
  by_cases hpos : 0 < n
  · rw [if_pos hpos]
    simp only [Act.ensures_bind, ensures_now]
    -- the activity is stamped with the reading that the automaton takes too
    refine asksClock_intro w₀ fun e t _ _ _ hw _ => ⟨trivial, ?_⟩
    cases t with
    | none => exact ⟨n, List.suffix_cons _ _, fun _ => .inl trivial⟩
    | some t =>
      refine ⟨n, List.suffix_cons _ _, fun _ => .inr ⟨_, rfl, ?_⟩⟩
      show (v'.stdinTimeout.map _) = _
      rw [hstdin, hw]
      rfl
  · rw [if_neg hpos]
    exact ⟨n, List.suffix_refl _, fun h => absurd h hpos⟩

theorem round_heard (fuel : Nat) (w₀ : Watch) (f : WaitFixed) (v : WaitVars) (h : Handles)
    (l : Trace) : (waitRound fuel f v).Ensures {} h l fun r _ l' => Heard w₀ v l r l' := by
  refine round_answered fuel f v h l fun t cs ev e _ => ?_
  by_cases hread : StdinEvent v ev ∧ ev.has EV_EOF = false
  · refine (onStdin_heard w₀ (afterKevent f v t) hread.1 hread.2 rfl rfl).mono fun r _ l' hr => ?_
    exact fun _ _ => hr
  · exact Prog.ensures_of_forall (fun _ _ => trivial) (fun _ => trivial)
      (fun _ _ hev heof => absurd ⟨hev, heof⟩ hread) _ _

end activity

/-! ## Every kevent call of a run -/

/-- The loop starts with its entries in place. -/
theorem SetUp.held {a : WaitArgs} {h : Handles} {f : WaitFixed} {v : WaitVars} {w₀ : Watch}
    {l : Trace} (hset : SetUp a h f v (watch w₀ l)) :
    Held w₀ f (f.signalFd.isSome = true ∨ v.stdinEnabled = false) v l := by
  have hflags : v.changes.stdin.flags = if v.stdinEnabled then EV_ADD else 0 := by
    rw [hset.changes]
    rfl
  refine ⟨⟨?_, ?_, ?_, ?_, ?_⟩, fun hcond _ => ⟨hcond.imp_right fun hoff => ?_, fun hon => ?_⟩⟩
  · rw [hset.changes, hset.args]
    rfl
  · exact ⟨asIsize (durationToNs a.timeout), by rw [hset.changes]; rfl⟩
  · rw [hset.changes]
    cases f.signalFd <;> rfl
  · rw [hset.changes]
    rfl
  · rw [hflags]
    cases v.stdinEnabled
    · exact .inl rfl
    · exact .inr rfl
  · rw [stdinActive, hflags, hoff]
    rfl
  · rw [hflags, hon]
    rfl

/-- The locals at a loop head of a run. -/
theorem reached_held (env : World) (fuel : Nat) (a : WaitArgs) (h₀ : Handles) {f : WaitFixed}
    {v₀ v : WaitVars} {h₁ h : Handles} {l₁ l : Trace}
    (hsetup : (waitSetup a h₀).run env [] = (some (.ok (f, v₀), h₁), l₁))
    (hreach : Act.Reaches env (waitRound fuel f) v₀ h₁ l₁ v h l) :
    Held (.ofArgs a 0) f (f.signalFd.isSome = true ∨ v₀.stdinEnabled = false) v l := by
  have hrely : ∀ l : Trace, Always (fun _ _ => True) l := Always.of_forall fun _ _ => trivial
  have hset := Prog.Ensures.returns env (waitSetup_tracked (silent_setup a.confine) (h := h₀)
    (l := []) trivial (Watch.ofArgs_ready a 0)) (hrely _) (congrArg Prod.fst hsetup)
  rw [hsetup] at hset
  obtain ⟨-, -, hset⟩ := hset
  have hJ := Act.Reaches.invariant (K := {})
    (fun v h l => Held (.ofArgs a 0) f (f.signalFd.isSome = true ∨ v₀.stdinEnabled = false) v l ∧
      Tracked f v (watch (.ofArgs a 0) l))
    (fun v h l hJ => ((watches_rule (.ofArgs a 0) fuel f _).round (n := 0) hJ.1 hJ.2).mono
      fun r h' l' hr => by
        match r, hr with
        | .ok (.inl v'), hr => exact hr
        | .ok (.inr _), _ => trivial
        | .error _, _ => trivial)
    ⟨hset.held, hset.tracked⟩ (hrely _) hreach (hrely _)
  exact hJ.1.1

/-- **The registered event set.** A kevent call submits the intended changes exactly when
    they are aligned; with a signal pipe, or without a stdin to watch, they are in every
    run without a stray error for descriptor 0. Then no change is a no-op and a watched
    stdin is registered; activity the kernel reports restarts the idle timer. -/
theorem registered_as_intended (env : World) (fuel : Nat) (a : WaitArgs) (h₀ : Handles)
    {f : WaitFixed} {v₀ v : WaitVars} {h₁ h : Handles} {l₁ l : Trace}
    (hsetup : (waitSetup a h₀).run env [] = (some (.ok (f, v₀), h₁), l₁))
    (hreach : Act.Reaches env (waitRound fuel f) v₀ h₁ l₁ v h l) :
    (∀ later kq cs r before, ((waitRound fuel f v h).run env l).2 =
        later ++ ⟨⟨.monitor, .kevent kq cs⟩, r⟩ :: before → l <:+ before →
      (Intended f v cs ↔ Aligned f v) ∧
      ((f.signalFd.isSome = true ∨ v₀.stdinEnabled = false) →
        Always (fun e l => ¬ StrayError (.ofArgs a 0) e l) l →
        Intended f v cs ∧ (∀ c ∈ cs, c.flags ≠ 0) ∧ (v.stdinEnabled = true →
          stdinRegistered (⟨⟨.monitor, .kevent kq cs⟩, r⟩ :: before) = true))) ∧
    ∀ res h', ((waitRound fuel f v h).run env l).1 = some (res, h') →
      Heard (.ofArgs a 0) v l res ((waitRound fuel f v h).run env l).2 := by
  have hheld := reached_held env fuel a h₀ hsetup hreach
  refine ⟨fun later kq cs r before hl hbefore => ?_, fun res h' hres => ?_⟩
  · have hround : (waitRound fuel f v).Ensures (keventContract fun cs _ =>
        ∃ nowNs, cs = submitted f v nowNs) h l fun _ _ _ => True :=
      round_kevent fuel fun l' (_ : (watch {} l').clock < _) => ⟨_, rfl⟩
    obtain ⟨nowNs, rfl⟩ :=
      Prog.Ensures.event env hround (Always.of_forall (fun _ _ => trivial) _) hl hbefore kq cs rfl
    have hiff := hheld.entries.submitted_iff nowNs
    refine ⟨hiff, fun hcond hstray => ?_⟩
    have hintended := hiff.mpr (hheld.aligned hcond hstray)
    exact ⟨hintended, hintended.flags_ne_zero, fun hon => hintended.registers hon kq r before⟩
  · exact (round_heard fuel (.ofArgs a 0) f v h l).returns env
      (Always.of_forall (fun _ _ => trivial) _) hres

/-- Five bytes come in on stdin, with a signal pipe present. -/
def chattyWorld : World := fun l q => match q with
  | ⟨_, .readStdin⟩ => (5 : Int)
  | q => Machine.world {
      kevent := fun _ => .ok { ident := 0, filter := EVFILT_READ, flags := EV_ADD } } l q

/-- A wait of 30 s that gives up when stdin is idle for a second. -/
def idleArgs : WaitArgs where
  pid := 7
  timeout := .fromSecs 30
  confine := .wall
  stdinTimeout := some { timeoutNs := 1000000000, lastActivityNs := 0, mode := .consume }

theorem registered_as_intended_chatty : ∃ f v h l kq cs r before res,
    (waitSetup idleArgs { child := { pid := 7 } }).run chattyWorld [] = (some (.ok (f, v), h), l) ∧
    (waitRound 1 f v h).run chattyWorld l = (some (res, h),
      [⟨⟨.monitor, .wallNow⟩, some 0⟩, ⟨⟨.monitor, .readStdin⟩, (5 : Int)⟩] ++
        ⟨⟨.monitor, .kevent kq cs⟩, r⟩ :: before) ∧
    Intended f v cs ∧ stdinRegistered (⟨⟨.monitor, .kevent kq cs⟩, r⟩ :: before) = true ∧
    Heard (.ofArgs idleArgs 0) v l res ([⟨⟨.monitor, .wallNow⟩, some 0⟩,
      ⟨⟨.monitor, .readStdin⟩, (5 : Int)⟩] ++ ⟨⟨.monitor, .kevent kq cs⟩, r⟩ :: before) := by
  obtain ⟨hcalls, hheard⟩ :=
    registered_as_intended chattyWorld 1 idleArgs { child := { pid := 7 } } rfl .start
  obtain ⟨-, hgood⟩ := hcalls [⟨⟨.monitor, .wallNow⟩, some 0⟩, ⟨⟨.monitor, .readStdin⟩, (5 : Int)⟩]
    _ _ _ _ rfl ⟨[_], rfl⟩
  obtain ⟨hintended, -, hregistered⟩ := hgood (.inl rfl) (by decide +kernel)
  exact ⟨_, _, _, _, _, _, _, _, _, rfl, rfl, hintended, hregistered rfl, hheard _ _ rfl⟩

/-- What each kevent call submits. -/
def submits (e : Event) : Option (List Kevent) :=
  match e.req with
  | ⟨.monitor, .kevent _ cs⟩ => some cs
  | _ => none

/-- Nobody has set up the forwarding of signals, and bytes come in on stdin all the time;
    the kernel reports what it was asked to watch. -/
def unforwardedWorld : World := fun l q => match q with
  | ⟨_, .readStdin⟩ => (5 : Int)
  | ⟨_, .kevent _ cs⟩ => if cs.foldl watchStdin (stdinRegistered l) then
      .ok { ident := 0, filter := EVFILT_READ, flags := EV_ADD }
    else .ok { ident := 1, filter := EVFILT_TIMER, flags := EV_ADD }
  | q => Machine.world {
      signalFd := -1
      wallClock := fun l => if l.any fun e => (submits e).isSome then some 1000000000 else some 0 } l q

/-- The slot of the signal pipe is submitted as a no-op, the entry of stdin not at all: the
    wait ends as idle. -/
theorem stdin_entry_dropped : ∃ f v h₁ l₁ h l,
    (waitSetup idleArgs { child := { pid := 7 } }).run unforwardedWorld [] =
      (some (.ok (f, v), h₁), l₁) ∧ f.signalFd = none ∧ v.stdinEnabled = true ∧
    (waitWithKqueue 2 idleArgs { child := { pid := 7 } }).run unforwardedWorld [] =
      (some (.ok (.timedOut .stdinIdle), h), l) ∧
    l.filterMap submits = [[procEntry 7, timerEntry 1000000000, stdinEntry 0]] ∧
    ¬ Intended f v [procEntry 7, timerEntry 1000000000, stdinEntry 0] ∧
    stdinRegistered l = false := by
  refine ⟨_, _, _, _, _, _, rfl, rfl, rfl, rfl, ?_, fun hi => ?_, ?_⟩
  · decide +kernel
  · exact hi.flags_ne_zero (stdinEntry 0) (by decide) rfl
  · decide +kernel

end Procguard
