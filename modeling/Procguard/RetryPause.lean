import Procguard.RetryLoop

/- How long the retry loop pauses. Time is a function of the log: what has passed when its
   events have happened, on the clock that the delay reads. `Passes` is what the system owes:
   a reading lies within its call, and a timer that fires and a sleep that ends have taken
   their time on that clock. Then each delay that was not cut short has taken its length, up
   to the part of a millisecond that a plain sleep leaves out, by whichever of its ways it
   went: the timer, a round of the loop that sees the deadline, or the sleeps that stand in
   for a kqueue that fails. -/
namespace Procguard
open Interact

def Timespec.ns (ts : Timespec) : Nat := (ts.tvSec * 1000000000 + ts.tvNsec).toNat

/-- The time of the timer among the changes. -/
def timerOf (cs : List Kevent) : Nat :=
  (cs.find? fun c => c.filter = EVFILT_TIMER).elim 0 fun c => c.data.toNat

/-- What a call of the delay has taken at least. -/
def took : Event → Nat
  | ⟨⟨.retry, .nanosleep ts⟩, .ok ()⟩ => ts.ns
  | ⟨⟨.retry, .nanosleep ts⟩, .error (_, remaining)⟩ => ts.ns - remaining.ns
  | ⟨⟨.retry, .kevent _ cs⟩, .ok ev⟩ => if ev.filter = EVFILT_READ then 0 else timerOf cs
  | _ => 0

/-- A sleep that failed, and was not interrupted. -/
def isBadSleep : Event → Bool
  | ⟨⟨.retry, .nanosleep _⟩, .error (err, _)⟩ => err != EINTR
  | _ => false

/-- Time passes as it should: calls take what they take, readings lie within their calls, and
    a sleep only fails by being interrupted. -/
structure Passes (time : Trace → Nat) (e : Event) (l : Trace) : Prop where
  taken : time l + took e ≤ time (e :: l)
  reading : ∀ t ∈ retryClock e, time l ≤ t ∧ t ≤ time (e :: l)
  sleeps : isBadSleep e = false

instance Passes.dec (time : Trace → Nat) (e : Event) (l : Trace) : Decidable (Passes time e l) :=
  decidable_of_iff (time l + took e ≤ time (e :: l) ∧
    (∀ t ∈ retryClock e, time l ≤ t ∧ t ≤ time (e :: l)) ∧ isBadSleep e = false)
    ⟨fun h => ⟨h.1, h.2.1, h.2.2⟩, fun h => ⟨h.1, h.2, h.3⟩⟩

def passing (time : Trace → Nat) : Contract Ans where
  rely := Passes time

/-! ## The delay -/

section delay
variable {time : Trace → Nat} {e : Event} {l l' : Trace}

theorem Passes.le (h : Passes time e l) : time l ≤ time (e :: l) :=
  Nat.le_trans (Nat.le_add_right _ _) h.taken

theorem time_le (hs : l <:+ l') (h : Always (Passes time) l') : time l ≤ time l' := by
  obtain ⟨t, rfl⟩ := hs
  induction t with
  | nil => exact Nat.le_refl _
  | cons e t ih => exact Nat.le_trans (ih h.2) h.1.le

theorem sleepMs_takes (fuel ms : Nat) :
    (sleepMs fuel ms).Ensures (passing time) () l fun _ _ l' =>
      time l + ms * 1000000 ≤ time l' := by
  have hall : Timespec.ns { tvSec := ms / 1000, tvNsec := (ms % 1000 * 1000000 : Nat) } =
      ms * 1000000 := by
    simp only [Timespec.ns]
    omega
  -- what has been slept and what remains make up the whole
  refine Act.ensures_iterate (fun ts _ l' => time l + ms * 1000000 ≤ time l' + ts.ns) ?_
    (fun _ _ _ _ => trivial) fuel (by rw [hall])
  intro ts s l' hleft
  simp only [sleepRound, Act.ensures_bind, Act.ensures_call]
  intro r hr
  refine ⟨trivial, ?_⟩
  have htaken := hr.taken
  cases r with
  | ok u => exact Nat.le_trans hleft htaken
  | error failed =>
    obtain ⟨err, remaining⟩ := failed
    have hintr : err = EINTR := by simpa [isBadSleep] using hr.sleeps
    have hleft' : time l + ms * 1000000 ≤
        time (⟨⟨.retry, .nanosleep ts⟩, .error (err, remaining)⟩ :: l') + remaining.ns := by
      change time l' + (ts.ns - remaining.ns) ≤ _ at htaken
      omega
    dsimp only
    rw [if_neg (not_not.mpr hintr)]
    refine Act.ensures_ite (fun hnone => ?_) fun _ => hleft'
    have hzero : remaining.ns = 0 := by
      rw [Timespec.ns, hnone.1, hnone.2]
      rfl
    rwa [hzero] at hleft'

/-- When a delay of `d` from `start` on is over: a timer runs for `maxTimerNs` at most, and the
    clock ends at `u64Max`. -/
def pauseEnd (start : Nat) (d : Duration) : Nat :=
  min (start + min (durationToNsWide d) maxTimerNs) u64Max

/-- The delay is over, but for part of a millisecond. -/
def Paused (time : Trace → Nat) (start : Nat) (d : Duration) (l : Trace) : Prop :=
  pauseEnd start d < time l + 1000000

theorem timerOf_delayChanges (n : Nat) (signalFd : Option Int) :
    timerOf (delayChanges (min n maxTimerNs) signalFd) = min n maxTimerNs := by
  show (asIsize (min n maxTimerNs)).toNat = _
  rw [asIsize_clamped, Int.toNat_natCast]

theorem delayRound_takes {d : Duration} {start startNs fuel : Nat} {kq : Int}
    {signalFd : Option Int} (hstart : start ≤ startNs) (hl : start ≤ time l) :
    (delayRound fuel kq (advanceNs startNs (durationToNsWide d)) signalFd ()).Ensures
      (passing time) () l fun r _ l' => match r with
        | .ok (.inl ()) => start ≤ time l'
        | .ok (.inr completed) => completed = true → Paused time start d l'
        | .error _ => True := by
  have hend : pauseEnd start d ≤ advanceNs startNs (durationToNsWide d) := by
    unfold pauseEnd advanceNs satAdd
    omega
  have hcap : pauseEnd start d ≤ start + maxTimerNs := by
    unfold pauseEnd
    omega
  generalize advanceNs startNs (durationToNsWide d) = deadlineNs at hend
  rw [delayRound, Act.ensures_bind, ensures_activeNowNs]
  intro t ht
  refine ⟨trivial, ?_⟩
  obtain ⟨hbefore, hafter⟩ := ht.reading t.toNat rfl
  refine Act.ensures_ite (fun hreached => ?_) fun _ => ?_
  · simp only [Act.ensures_bind, Act.ensures_call, Act.ensures_pure]
    intro a hclose
    refine ⟨trivial, fun _ => ?_⟩
    have hreached := deadlineReached_iff.mp hreached
    have hle := hclose.le
    unfold Paused
    omega
  · simp only [Act.ensures_bind, Act.ensures_call]
    intro r hr
    refine ⟨trivial, ?_⟩
    have hle := hr.le
    cases r with
    | ok ev =>
      simp only [Act.ensures_bind, Act.ensures_call, Act.ensures_pure]
      intro a hclose
      refine ⟨trivial, fun hcompleted => ?_⟩
      -- what woke the delay up was its timer
      have htimer := hr.taken
      simp only [took, if_neg (of_decide_eq_true hcompleted), timerOf_delayChanges] at htimer
      have hrem : remainingNs t.toNat deadlineNs = deadlineNs - t.toNat := rfl
      have hlast := hclose.le
      unfold Paused
      omega
    | error err =>
      refine Act.ensures_ite (fun _ => ?_) fun _ => ?_
      · exact Nat.le_trans hl (Nat.le_trans ht.le hle)
      · simp only [Act.ensures_bind, Act.ensures_call, ensures_activeNowNs]
        intro a hclose
        refine ⟨trivial, ?_⟩
        intro t' ht'
        refine ⟨trivial, ?_⟩
        have hnow := (ht'.reading t'.toNat rfl).2
        have hrem : remainingNs t'.toNat deadlineNs = deadlineNs - t'.toNat := rfl
        have hmod := Nat.div_add_mod (remainingNs t'.toNat deadlineNs) 1000000
        have hlt := Nat.mod_lt (remainingNs t'.toNat deadlineNs) (show 0 < 1000000 by decide)
        dsimp only
        refine Act.ensures_ite (fun _ => ?_) fun hnone => ?_
        · rw [Act.ensures_bind]
          refine (sleepMs_takes fuel _).mono fun r _ l' hslept => ?_
          cases r with
          | error e => exact trivial
          | ok u =>
            intro _
            unfold Paused
            omega
        · intro _
          unfold Paused
          omega

theorem durationToNsWide_zero {d : Duration} (h : d.isZero = true) : durationToNsWide d = 0 := by
  obtain ⟨hsecs, hnanos⟩ := Bool.and_eq_true_iff.mp h
  rw [durationToNsWide, beq_iff_eq.mp hsecs, beq_iff_eq.mp hnanos]
  rfl

/-- The milliseconds of a delay leave out less than one. -/
theorem durationToNsWide_lt (d : Duration) :
    durationToNsWide d < durationMs d * 1000000 + 1000000 := by
  have hnanos := d.nanos_lt
  have hmax : u64Max = 18446744073709551615 := rfl
  unfold durationToNsWide durationMs satAdd satMul Duration.subsecMillis
  omega

theorem Paused.of_zero {d : Duration} {start : Nat} (h : d.isZero = true) (hle : start ≤ time l) :
    Paused time start d l := by
  have hzero := durationToNsWide_zero h
  unfold Paused pauseEnd
  omega

theorem Paused.earlier {d : Duration} {start start' : Nat} (h : Paused time start' d l)
    (hle : start ≤ start') : Paused time start d l := by
  unfold Paused pauseEnd at h ⊢
  omega

theorem kqueueDelay_takes (fuel : Nat) (d : Duration) (signalFd : Option Int) :
    (kqueueDelay fuel d signalFd).Ensures (passing time) () l fun r _ l' =>
      r = .ok true → Paused time (time l) d l' := by
  unfold kqueueDelay
  refine Act.ensures_ite (fun hzero _ => .of_zero hzero (Nat.le_refl _)) fun _ => ?_
  rw [Act.ensures_bind, ensures_activeNowNs]
  intro t ht
  refine ⟨trivial, ?_⟩
  have hstart := (ht.reading t.toNat rfl).1
  dsimp only
  rw [Act.ensures_bind, Act.ensures_call]
  intro r hr
  refine ⟨trivial, ?_⟩
  have hl := Nat.le_trans ht.le hr.le
  cases r with
  | error err =>
    -- without a kqueue the whole delay is slept
    dsimp only
    rw [Act.ensures_bind]
    refine (sleepMs_takes fuel _).mono fun r _ l' hslept => ?_
    cases r with
    | error e =>
      intro h
      cases h
    | ok u =>
      intro _
      have hms := durationToNsWide_lt d
      unfold Paused pauseEnd
      omega
  | ok kq =>
    refine Act.ensures_iterate (fun _ _ l' => time l ≤ time l') ?_ (fun _ _ _ _ => trivial) fuel hl
    intro _ _ l' hl'
    refine (delayRound_takes hstart hl').mono fun r _ l'' hr => ?_
    rcases r with e | _ | completed
    · intro h
      cases h
    · exact hr
    · intro h
      cases h
      exact hr rfl

theorem retryDelay_takes (fuel : Nat) (config : RunConfig) (k : Nat) (signalFd : Option Int) :
    (retryDelay fuel config k signalFd).Ensures (passing time) () l fun r _ l' =>
      r = .ok none → Paused time (time l) (retryDelayOf config k) l' := by
  have hline : ∀ line, (retryLine config line).Ensures (passing time) () l fun _ _ l' =>
      time l ≤ time l' := by
    intro line
    unfold retryLine
    refine Act.ensures_ite (fun _ => ?_) fun _ => Nat.le_refl _
    rw [Act.ensures_bind, Act.ensures_call]
    exact fun a ha => ⟨trivial, ha.le⟩
  unfold retryDelay
  dsimp only
  rw [Act.ensures_bind]
  refine (hline _).mono fun r _ l₁ hl₁ => ?_
  cases r with
  | error e =>
    intro h
    cases h
  | ok u =>
    refine Act.ensures_ite (fun hzero _ => .of_zero hzero hl₁) fun _ => ?_
    rw [Act.ensures_bind]
    refine (kqueueDelay_takes fuel _ signalFd).mono fun r _ l₂ hr => ?_
    cases r with
    | error e =>
      intro h
      cases h
    | ok completed =>
      refine Act.ensures_ite (fun hcompleted _ => ?_) fun _ => ?_
      · exact (hr (congrArg Except.ok hcompleted)).earlier hl₁
      -- cut short: the delay ends with a signal
      · cases signalFd with
        | none =>
          intro h
          cases h
        | some fd =>
          rw [Act.ensures_bind, Act.ensures_call]
          refine fun b _ => ⟨trivial, fun h => ?_⟩
          cases h

end delay

/-! ## The loop -/

theorem DelayEnds.paused {env : World} {fuel k : Nat} {config : RunConfig} {signalFd : Option Int}
    {time : Trace → Nat} {l l' : Trace}
    (h : DelayEnds env fuel config signalFd k l (some none) l')
    (hpasses : Always (Passes time) l') :
    Paused time (time l) (retryDelayOf config k) l' := by
  obtain ⟨l₁, hgrown, hrun⟩ := h
  have hext := Prog.run_extends env (retryDelay fuel config k signalFd ()) l₁
  have htakes := @retryDelay_takes time l₁ fuel config k signalFd
  obtain ⟨-, hreturned, -⟩ := Prog.Ensures.sound env htakes
    (Always.of_forall (fun _ _ => trivial) _) (by rw [hrun]; exact hpasses)
  rw [hrun] at hext hreturned
  have hpaused : Paused time (time l₁) (retryDelayOf config k) l' := hreturned _ rfl rfl
  exact hpaused.earlier (time_le hgrown.suffix (hpasses.suffix hext))

/-- **The pauses are kept**: whichever way the delays of a run go, each attempt but the first
    starts only when the delay after the attempt before it is over, as long as the backoff
    makes it, but for part of a millisecond. -/
theorem pauses_kept (env : World) (fuel : Nat) (command : String) (args : List String)
    (config : RunConfig) (time : Trace → Nat)
    (hpasses : Always (Passes time) ((runWithRetry fuel command args config ()).run env []).2) :
    ∃ signalFd c cs, LoadedFrom env [] signalFd ∧
      Calls env fuel command args config [] (c :: cs)
        ((runWithRetry fuel command args config ()).run env []).2 ∧
      ∀ k c₁ c₂, (c :: cs)[k]? = some c₁ → (c :: cs)[k + 1]? = some c₂ →
        Paused time (time c₁.after) (retryDelayOf config k) c₂.before := by
  obtain ⟨signalFd, c, cs, hloaded, hcalls, -, hretried, -, -⟩ :=
    runWithRetry_accounts env fuel command args config []
  refine ⟨signalFd, c, cs, hloaded, hcalls, fun k c₁ c₂ hc₁ hc₂ => ?_⟩
  obtain ⟨result, l, -, -, hdelayed, hgrown⟩ := hretried.at_call hc₁ hc₂
  rw [Nat.zero_add] at hdelayed
  have hbefore := hpasses.suffix (hcalls.suffix.2 c₂ (List.mem_of_getElem? hc₂))
  have hpaused := hdelayed.paused (hbefore.suffix hgrown.suffix)
  exact Nat.lt_of_lt_of_le hpaused (Nat.add_le_add_right (time_le hgrown.suffix hbefore) _)

/-- A wait of the delay. -/
def isDelayWait (e : Event) : Bool :=
  match e with
  | ⟨⟨.retry, .kevent _ _⟩, _⟩ => true
  | _ => false

/-- Each wait of the delay takes a second, and nothing else takes any time. -/
def waitedNs (l : Trace) : Nat := l.countP isDelayWait * 1000000000

/-- Every attempt times out at once, and every timer of the delay fires. -/
def pausingWorld : World := Machine.world {
  wallClock := fun _ => some (.ofNat u64Max)
  activeClock := fun l => .ofNat (waitedNs l)
  kevent := fun _ => .ok { ident := 1, filter := EVFILT_TIMER, flags := 0 } }

/-- Two attempts, with a second between them. -/
theorem pauses_kept_once :
    ((runWithRetry 1 "sleep" ["100"] oneRetry ()).run pausingWorld []).1.map
      (fun r => r.1.toOption.map fun x => x.2.data.length) = some (some 2) ∧
    ∃ signalFd c cs, LoadedFrom pausingWorld [] signalFd ∧
      Calls pausingWorld 1 "sleep" ["100"] oneRetry [] (c :: cs)
        ((runWithRetry 1 "sleep" ["100"] oneRetry ()).run pausingWorld []).2 ∧
      ∀ k c₁ c₂, (c :: cs)[k]? = some c₁ → (c :: cs)[k + 1]? = some c₂ →
        Paused waitedNs (waitedNs c₁.after) (retryDelayOf oneRetry k) c₂.before :=
  ⟨by decide +kernel, pauses_kept pausingWorld 1 "sleep" ["100"] oneRetry waitedNs
    (by decide +kernel)⟩

end Procguard
