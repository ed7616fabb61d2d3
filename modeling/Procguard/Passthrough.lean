import Procguard.Guarantees

/- Passthrough mode: the child reads stdin itself, and the wait only looks, by a level poll
   before the loop and at its timer ticks. `StdinHistory` is what arrives on stdin and what
   is read of it, `Timeline` the instants the calls of a run are answered at, and `Observes`
   says that the clock and `poll` answer by them. What a poll saw stays in the automaton
   (`Stamped`). A run that reports an idle stdin therefore overlooked the bytes that no
   poll saw, and no others. -/
namespace Procguard
open Interact

/-! ## Bytes and instants -/

/-- The bytes of stdin, counted up to each instant. -/
structure StdinHistory where
  /-- Those that have become readable. -/
  arrived : Nat → Nat
  /-- Those that the child has read. -/
  taken : Nat → Nat
  arrived_mono : ∀ {s t}, s ≤ t → arrived s ≤ arrived t
  taken_mono : ∀ {s t}, s ≤ t → taken s ≤ taken t
  taken_le : ∀ t, taken t ≤ arrived t

namespace StdinHistory
variable (hist : StdinHistory)

/-- A byte becomes readable at this instant. -/
def Arrives : Nat → Prop
  | 0 => 0 < hist.arrived 0
  | s + 1 => hist.arrived s < hist.arrived (s + 1)

/-- There is something to read. -/
def Waiting (t : Nat) : Prop := hist.taken t < hist.arrived t

/-- The bytes that arrived up to `s` have not all been read at `t`. -/
def Unread (s t : Nat) : Prop := hist.taken t < hist.arrived s

instance (s t : Nat) : Decidable (hist.Unread s t) := inferInstanceAs (Decidable (_ < _))

instance (t : Nat) : Decidable (hist.Waiting t) := inferInstanceAs (Decidable (_ < _))

theorem Unread.waiting {hist : StdinHistory} {s t : Nat} (h : hist.Unread s t) (hle : s ≤ t) :
    hist.Waiting t := Nat.lt_of_lt_of_le h (hist.arrived_mono hle)

end StdinHistory

/-- The instant at which the request after each log is answered. -/
structure Timeline where
  time : Trace → Nat
  mono : ∀ e l, time l ≤ time (e :: l)

/-- The clock reads the instant, and `poll` finds stdin readable when there is something to
    read. -/
def Observes (hist : StdinHistory) (T : Timeline) : Event → Trace → Prop
  | ⟨⟨.monitor, .wallNow⟩, some t⟩, l => t.toNat = T.time l
  | ⟨⟨.monitor, .activeNow⟩, t⟩, l => t.toNat = T.time l
  | ⟨⟨.monitor, .pollStdin⟩, r⟩, l =>
    hist.Waiting (T.time l) → stdinPollStatus r = .readable
  | _, _ => True

instance (hist : StdinHistory) (T : Timeline) (e : Event) (l : Trace) :
    Decidable (Observes hist T e l) := by
  obtain ⟨⟨caller, call⟩, a⟩ := e
  rcases caller with _ | _ <;> rcases call with _ | _ <;> first
    | exact isTrue trivial
    | exact inferInstanceAs (Decidable (_ → _))
    | exact inferInstanceAs (Decidable (_ = _))
    | rcases a with _ | _ <;> first
      | exact isTrue trivial
      | exact inferInstanceAs (Decidable (_ = _))

/-- A poll of the monitor that finds a byte which had arrived by its latest reading. -/
def SampledAt (hist : StdinHistory) (T : Timeline) (w₀ : Watch) (s : Nat) (e : Event)
    (l : Trace) : Prop :=
  e.req = ⟨.monitor, .pollStdin⟩ ∧ s ≤ (watch w₀ l).clock ∧ hist.Unread s (T.time l)

/-! ## What a poll saw stays -/

namespace Watch

/-- The latest activity is no earlier than `s`, or will be once it is stamped. -/
def Stamped (w : Watch) (s : Nat) : Prop := s ≤ w.clock ∧ (s ≤ w.activity ∨ w.pending = true)

/-- Between two readings: an activity that is counted is stamped with the latest one, or
    waits for the next. -/
structure Between (w w' : Watch) : Prop where
  clock : w'.clock = w.clock
  pending : w.pending = true → w'.pending = true
  activity : w'.activity = w.activity ∨ w'.activity = w.clock

theorem Between.refl (w : Watch) : w.Between w := ⟨rfl, id, .inl rfl⟩

theorem Between.closeStdin (w : Watch) : w.Between w.closeStdin := ⟨rfl, id, .inl rfl⟩

theorem Between.deliver (w : Watch) (ev : Kevent) : w.Between (w.deliver ev) := by
  unfold Watch.deliver
  split
  · split
    · exact .closeStdin w
    · exact .refl w
  · split
    · exact .refl w
    · split
      · exact .closeStdin w
      · exact .refl w

theorem Between.poll (w : Watch) (r : StdinPollResult) : w.Between (w.poll r) := by
  cases r with
  | idle => exact .refl w
  | eof => exact ⟨rfl, id, .inl rfl⟩
  | readable =>
    unfold Watch.poll
    cases w.looping with
    | true => exact ⟨rfl, id, .inr rfl⟩
    | false => exact ⟨rfl, fun _ => rfl, .inl rfl⟩

theorem Stamped.between {w w' : Watch} {s : Nat} (h : w.Stamped s) (hw : w.Between w') :
    w'.Stamped s := by
  obtain ⟨hclock, hact⟩ := h
  refine ⟨hw.clock ▸ hclock, ?_⟩
  rcases hact with hact | hpend
  · rcases hw.activity with h | h
    · exact .inl (h ▸ hact)
    · exact .inl (h ▸ hclock)
  · exact .inr (hw.pending hpend)

/-- A reading stamps what is pending. -/
theorem Stamped.tick {w : Watch} {s t : Nat} (h : w.Stamped s) (ht : w.clock ≤ t) :
    (w.tick t).Stamped s := by
  obtain ⟨hclock, hact⟩ := h
  have hs : s ≤ t := Nat.le_trans hclock ht
  refine ⟨hs, .inl ?_⟩
  cases hp : w.pending with
  | true => simpa [Watch.tick, hp] using hs
  | false =>
    rw [hp] at hact
    simpa [Watch.tick, hp] using hact

end Watch

section stamped
variable {hist : StdinHistory} {T : Timeline} {w₀ : Watch} {s : Nat} {e : Event} {l : Trace}

/-- An event is a reading of the clock, or it lies between two. -/
theorem Observes.step_cases (h : Observes hist T e l) (w : Watch) :
    w.step e = w.tick (T.time l) ∨ w.Between (w.step e) := by
  obtain ⟨⟨caller, call⟩, ans⟩ := e
  -- only a reading of the clock moves the clock of the automaton
  by_cases hq : caller ≠ .monitor ∨ call.unwatched = true
  · rw [Watch.step_unwatched hq]
    exact .inr (.refl w)
  · obtain ⟨hcaller, hcall⟩ := not_or.mp hq
    obtain rfl : caller = .monitor := not_not.mp hcaller
    cases call with
    | wallNow =>
      cases ans with
      | none => exact .inr (.refl w)
      | some t => exact .inl (congrArg w.tick h)
    | activeNow => exact .inl (congrArg w.tick h)
    | kqueue => exact .inr ⟨rfl, id, .inl rfl⟩
    | kevent kq cs =>
      cases ans with
      | error err => exact .inr (.refl w)
      | ok ev => exact .inr (.deliver w ev)
    | loadSignalPipe => exact .inr ⟨rfl, id, .inl rfl⟩
    | fstatStdin =>
      refine .inr ?_
      dsimp only [Watch.step]
      split
      · exact .closeStdin w
      · exact .refl w
    | pollStdin => exact .inr (.poll w _)
    | readStdin =>
      refine .inr ?_
      dsimp only [Watch.step]
      split
      · exact .closeStdin w
      · split
        · exact ⟨rfl, fun _ => rfl, .inl rfl⟩
        · exact .refl w
    | _ => exact absurd rfl hcall

/-- No reading is ahead of the instant. -/
theorem clock_le_time (hw₀ : w₀.clock = 0) : ∀ {l : Trace}, Always (Observes hist T) l →
    (watch w₀ l).clock ≤ T.time l
  | [], _ => by rw [watch, hw₀]; exact Nat.zero_le _
  | e :: l, hl => by
    have ih := clock_le_time hw₀ hl.2
    rcases hl.1.step_cases (watch w₀ l) with h | h
    · rw [watch_cons, h]
      exact T.mono e l
    · rw [watch_cons, h.clock]
      exact Nat.le_trans ih (T.mono e l)

/-- The poll that finds a byte stamps it. -/
theorem SampledAt.stamped (h : SampledAt hist T w₀ s e l) (hobs : Observes hist T e l)
    (hclock : (watch w₀ l).clock ≤ T.time l) : ((watch w₀ l).step e).Stamped s := by
  obtain ⟨hreq, hs, hunread⟩ := h
  obtain ⟨q, ans⟩ := e
  obtain rfl : q = ⟨.monitor, .pollStdin⟩ := hreq
  have hstatus : stdinPollStatus ans = .readable :=
    hobs (hunread.waiting (Nat.le_trans hs hclock))
  change ((watch w₀ l).poll (stdinPollStatus ans)).Stamped s
  rw [hstatus, Watch.poll]
  cases (watch w₀ l).looping with
  | true => exact ⟨hs, .inl hs⟩
  | false => exact ⟨hs, .inr rfl⟩

/-- From the poll that found it to the end of the run, a byte counts as activity. -/
theorem stamped_of_sampled (hw₀ : w₀.clock = 0) : ∀ {l : Trace}, Always (Observes hist T) l →
    Ever (SampledAt hist T w₀ s) l → (watch w₀ l).Stamped s
  | _ :: _, hl, .inl he => he.stamped hl.1 (clock_le_time hw₀ hl.2)
  | e :: l, hl, .inr hever => by
    have ih := stamped_of_sampled hw₀ hl.2 hever
    rw [watch_cons]
    rcases hl.1.step_cases (watch w₀ l) with h | h
    · rw [h]
      exact ih.tick (clock_le_time hw₀ hl.2)
    · exact ih.between h

end stamped

/-! ## An idle stdin -/

/-- The byte that arrives at `s` did so in the last `timeoutNs` before `t`. -/
def Recent (timeoutNs t s : Nat) : Prop := s ≤ t ∧ t < s + timeoutNs

instance (timeoutNs t s : Nat) : Decidable (Recent timeoutNs t s) :=
  inferInstanceAs (Decidable (_ ∧ _))

/-- **A wait that ends because stdin is idle.** No byte arrived within the timeout if, and
    only if, every byte that did was found by a poll. -/
theorem idle_iff_sampled (env : World) (fuel : Nat) (a : WaitArgs) (cfg : StdinTimeoutConfig)
    (throttle : Option ThrottleContext) (h : Handles) (l : Trace) (hist : StdinHistory)
    (T : Timeline) (hcfg : a.stdinTimeout = some cfg)
    (hrun : (waitWithKqueue fuel a { child := { pid := a.pid }, throttle }).run env [] =
      (some (.ok (.timedOut .stdinIdle), h), l))
    (hobs : Always (Observes hist T) l) :
    (∀ s, hist.Arrives s → ¬ Recent cfg.timeoutNs (watch (Watch.ofArgs a 0) l).clock s) ↔
      ∀ s, hist.Arrives s → Recent cfg.timeoutNs (watch (Watch.ofArgs a 0) l).clock s →
        Ever (SampledAt hist T (Watch.ofArgs a 0) s) l := by
  obtain ⟨hverdict, hsettled⟩ := wait_timedOut hrun
  obtain ⟨cfg', hcfg', -, hle, hidle⟩ : ∃ cfg, a.stdinTimeout = some cfg ∧
    (watch (Watch.ofArgs a 0) l).IdleReached cfg.timeoutNs := hverdict
  obtain rfl : cfg' = cfg := by
    rw [hcfg] at hcfg'
    exact (Option.some.inj hcfg').symm
  constructor
  · exact fun hnone s hs hrecent => absurd hrecent (hnone s hs)
  · intro hall s hs hrecent
    -- a byte some poll found is stamped, and what is stamped is not idle yet
    have hstamped : (watch (Watch.ofArgs a 0) l).Stamped s :=
      stamped_of_sampled rfl hobs (hall s hs hrecent)
    obtain ⟨-, hact⟩ := hstamped
    have hlate : s ≤ (watch (Watch.ofArgs a 0) l).activity := by
      rcases hact with hact | hpend
      · exact hact
      · rw [(hsettled rfl).1] at hpend
        cases hpend
    have ht := hrecent.2
    omega

/-! Three runs of a wait with an idle timeout of one second, the child being asleep: the
    kernel answers the kevent call after that second. -/

/-- Each kevent call takes a second. -/
def secondsTimeline : Timeline where
  time l := 1000000000 * l.countP fun e => match e.req.call with
    | .kevent _ _ => true
    | _ => false
  mono e l := Nat.mul_le_mul_left _ (by rw [List.countP_cons]; exact Nat.le_add_right _ _)

/-- One byte, which arrives at `s` and is read at `t`. -/
def oneByte (s t : Nat) (h : s ≤ t) : StdinHistory where
  arrived u := if s ≤ u then 1 else 0
  taken u := if t ≤ u then 1 else 0
  arrived_mono huv := by
    split
    · rw [if_pos (Nat.le_trans ‹_› huv)]
    · exact Nat.zero_le _
  taken_mono huv := by
    split
    · rw [if_pos (Nat.le_trans ‹_› huv)]
    · exact Nat.zero_le _
  taken_le u := by
    split
    · rw [if_pos (Nat.le_trans h ‹_›)]
    · exact Nat.zero_le _

theorem oneByte_arrives {s t u : Nat} (h : s ≤ t) : (oneByte s t h).Arrives u ↔ u = s := by
  cases u with
  | zero =>
    simp only [StdinHistory.Arrives, oneByte]
    split <;> omega
  | succ u =>
    simp only [StdinHistory.Arrives, oneByte]
    split <;> split <;> omega

/-- The machine whose clock and stdin are these. -/
def Machine.observing (m : Machine) (hist : StdinHistory) (T : Timeline) : World := fun l q =>
  match q with
  | ⟨_, .wallNow⟩ => some (.ofNat (T.time l))
  | ⟨_, .pollStdin⟩ => if hist.Waiting (T.time l) then (1, POLLIN) else (0, 0)
  | q => m.world l q

def secondIdle : WaitArgs where
  pid := 7
  timeout := .fromSecs 30
  confine := .wall
  stdinTimeout := some { timeoutNs := 1000000000, lastActivityNs := 0, mode := .passthrough }

/-- The wait's timer fires after a second. -/
def timerMachine : Machine where
  kevent := fun _ => .ok { ident := 1, filter := EVFILT_TIMER, flags := 0 }

/-- The wait is interrupted after a second. -/
def interruptedMachine : Machine where
  kevent := fun _ => .error EINTR

/-- The byte that arrives at 0 was found by the poll before the loop; the timeout passes. -/
theorem idle_iff_sampled_second : ∃ h l,
    (waitWithKqueue 2 secondIdle { child := { pid := 7 } }).run
      (timerMachine.observing (oneByte 0 500000000 (by decide)) secondsTimeline) [] =
        (some (.ok (.timedOut .stdinIdle), h), l) ∧
    (watch (Watch.ofArgs secondIdle 0) l).clock = 1000000000 ∧
    ((∀ s, (oneByte 0 500000000 (by decide)).Arrives s → ¬ Recent 1000000000 1000000000 s) ↔
      ∀ s, (oneByte 0 500000000 (by decide)).Arrives s → Recent 1000000000 1000000000 s →
        Ever (SampledAt (oneByte 0 500000000 (by decide)) secondsTimeline
          (Watch.ofArgs secondIdle 0) s) l) := by
  refine ⟨_, _, rfl, by decide +kernel, ?_⟩
  have hiff := idle_iff_sampled (timerMachine.observing (oneByte 0 500000000 (by decide))
    secondsTimeline) 2 secondIdle _ none _ _ (oneByte 0 500000000 (by decide)) secondsTimeline
    rfl rfl (by decide +kernel)
  exact hiff

/-- The wait ends with an idle stdin although the byte arrived less than a second before. -/
def Overlooks (m : Machine) (hist : StdinHistory) (s : Nat) : Prop :=
  ∃ h l, (waitWithKqueue 2 secondIdle { child := { pid := 7 } }).run
      (m.observing hist secondsTimeline) [] = (some (.ok (.timedOut .stdinIdle), h), l) ∧
    Always (Observes hist secondsTimeline) l ∧ hist.Arrives s ∧
    Recent 1000000000 (watch (Watch.ofArgs secondIdle 0) l).clock s

/-- The loop head looks at no stdin: it misses a byte that is still there. The tick misses
    a byte that the child has read. -/
theorem bytes_overlooked :
    Overlooks interruptedMachine (oneByte 900000000 2000000000 (by decide)) 900000000 ∧
    Overlooks timerMachine (oneByte 500000000 600000000 (by decide)) 500000000 := by
  refine ⟨⟨_, _, rfl, ?_, ?_, ?_⟩, ⟨_, _, rfl, ?_, ?_, ?_⟩⟩
  · decide +kernel
  · exact (oneByte_arrives _).mpr rfl
  · decide +kernel
  · decide +kernel
  · exact (oneByte_arrives _).mpr rfl
  · decide +kernel

end Procguard
