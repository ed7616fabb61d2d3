import Procguard.Retry

/- `wait_for_file`: poll a path with `stat`, sleeping longer and longer between the
   looks. It is a program of its own over three requests: a look at the path, a
   reading of the clock in the confine mode, and `sleep_ms`, which is the sleep of
   the retry delay. The log of a run tells every look, reading and sleep of it. -/
namespace Procguard
open Interact

def ENAMETOOLONG : Int := 63

inductive FileCall where
  | stat (path : List Char)
  | nowNs (confine : Confine)
  | sleepMs (ms : Nat)
  deriving DecidableEq

@[reducible] def FileCall.Ans : FileCall → Type
  | .stat _ => Except Int Unit
  | .nowNs _ => UInt64
  | .sleepMs _ => Unit

abbrev FileLog := Log FileCall.Ans
abbrev FileWorld := Env FileCall.Ans
abbrev FileAct (α : Type) := Act FileCall.Ans Unit TimeoutError α

abbrev fileCall (c : FileCall) : FileAct c.Ans := Act.call (A := FileCall.Ans) c

/-- The path as the system reads it: up to the first NUL. -/
def cPath (path : String) : List Char := path.toList.takeWhile (· != '\x00')

/-- Check if the file exists; the buffer for the path holds 4096 bytes with its NUL. -/
def fileExists (path : String) : FileAct (Except Int Bool) := do
  if 4096 ≤ path.utf8ByteSize then pure (.error ENAMETOOLONG)
  else match ← fileCall (.stat (cPath path)) with
    | .ok () => pure (.ok true)
    | .error err =>
      if err = ENOENT ∨ err = ENOTDIR then pure (.ok false) else pure (.error err)

def initialPollMs : Nat := 10
def maxPollMs : Nat := 1000

/-- The sleep before a deadline: at most what remains, but never nothing. -/
def cappedSleep (intervalMs currentNs deadlineNs : Nat) : Nat :=
  min intervalMs (max (remainingNs currentNs deadlineNs / 1000000) 1)

def nextInterval (intervalMs : Nat) : Nat := min (intervalMs * 2) maxPollMs

/-- How long to sleep; the deadline is checked before. -/
def sleepTime (path : String) (confine : Confine) (intervalMs : Nat) :
    Option Nat → FileAct Nat
  | some deadlineNs => do
    let t ← fileCall (.nowNs confine)
    if deadlineReached t.toNat deadlineNs then Act.throw (.waitForFileTimeout path)
    else pure (cappedSleep intervalMs t.toNat deadlineNs)
  | none => pure intervalMs

/-- One round: sleep, look, and double the interval. -/
def pollRound (path : String) (confine : Confine) (deadlineNs : Option Nat) (intervalMs : Nat) :
    FileAct (Nat ⊕ Unit) := do
  let ms ← sleepTime path confine intervalMs deadlineNs
  let _ ← fileCall (.sleepMs ms)
  match ← fileExists path with
  | .ok true => pure (.inr ())
  | .ok false => pure (.inl (nextInterval intervalMs))
  | .error err => Act.throw (.waitForFileError path err)

/-- The deadline, from the first reading of the clock. -/
def fileDeadline (confine : Confine) : Option Duration → FileAct (Option Nat)
  | some timeout => do
    let t ← fileCall (.nowNs confine)
    pure (some (advanceNs t.toNat (durationToNsWide timeout)))
  | none => pure none

/-- Wait for a file to exist, without end if there is no timeout. -/
def waitForFile (fuel : Nat) (path : String) (timeout : Option Duration) (confine : Confine) :
    FileAct Unit := do
  match ← fileExists path with
  | .ok true => pure ()
  | .ok false => do
    let deadlineNs ← fileDeadline confine timeout
    Act.iterate (pollRound path confine deadlineNs) fuel initialPollMs
  | .error err => Act.throw (.waitForFileError path err)

/-! ## The interval and the sleep -/

theorem nextInterval_le (ms : Nat) : nextInterval ms ≤ maxPollMs := Nat.min_le_right _ _

/-- The interval never shrinks. -/
theorem le_nextInterval {ms : Nat} (h : ms ≤ maxPollMs) : ms ≤ nextInterval ms := by
  unfold nextInterval
  exact Nat.le_min.mpr ⟨by omega, h⟩

theorem cappedSleep_le (ms current deadline : Nat) : cappedSleep ms current deadline ≤ ms := by
  unfold cappedSleep
  omega

theorem cappedSleep_pos {ms : Nat} (h : 1 ≤ ms) (current deadline : Nat) :
    1 ≤ cappedSleep ms current deadline := by
  unfold cappedSleep
  omega

/-- The sleep ends at most a millisecond after the deadline. -/
theorem cappedSleep_overshoot (ms current deadline : Nat) :
    cappedSleep ms current deadline * 1000000 ≤ remainingNs current deadline + 1000000 := by
  have hle : cappedSleep ms current deadline ≤ remainingNs current deadline / 1000000 + 1 := by
    unfold cappedSleep
    omega
  calc cappedSleep ms current deadline * 1000000
      ≤ (remainingNs current deadline / 1000000 + 1) * 1000000 := Nat.mul_le_mul_right _ hle
    _ = remainingNs current deadline / 1000000 * 1000000 + 1000000 := Nat.succ_mul _ _
    _ ≤ remainingNs current deadline + 1000000 :=
        Nat.add_le_add_right (Nat.div_mul_le_self _ _) _

/-! ## What a log tells -/

/-- The answer of a look at the path. -/
def statAnswer : Ev FileCall.Ans → Option (Except Int Unit)
  | ⟨.stat _, a⟩ => some a
  | _ => none

/-- The last look. -/
def lastStat (l : FileLog) : Option (Except Int Unit) := l.findSome? statAnswer

def fileReading : Ev FileCall.Ans → Option Nat
  | ⟨.nowNs _, t⟩ => some t.toNat
  | _ => none

/-- The first reading of the clock. -/
def firstReading : FileLog → Option Nat
  | [] => none
  | e :: l => (firstReading l).or (fileReading e)

/-- The path was looked at after the last sleep. -/
def lookedSinceSleep : FileLog → Bool
  | [] => false
  | ⟨.stat _, _⟩ :: _ => true
  | ⟨.sleepMs _, _⟩ :: _ => false
  | ⟨.nowNs _, _⟩ :: l => lookedSinceSleep l

/-- The deadline of a run with this log. -/
def deadlineOf (timeout : Duration) (l : FileLog) : Option Nat :=
  (firstReading l).map fun start => advanceNs start (durationToNsWide timeout)

/-- The log ends in a reading at or past the deadline, after a look since the last sleep. -/
def PastDeadline (timeout : Option Duration) (confine : Confine) (l : FileLog) : Prop :=
  ∃ d t l', timeout = some d ∧ l = ⟨.nowNs confine, t⟩ :: l' ∧ lookedSinceSleep l' = true ∧
    ∃ deadline, deadlineOf d l' = some deadline ∧ deadline ≤ t.toNat

/-- A sleep takes 1 to 1000 ms; with a timeout it follows a reading before the deadline and
    exceeds what remains at that reading by at most 1 ms. -/
def SleepFits (timeout : Option Duration) (confine : Confine) : Ev FileCall.Ans → FileLog → Prop
  | ⟨.sleepMs ms, _⟩, l => 1 ≤ ms ∧ ms ≤ 1000 ∧ ∀ d, timeout = some d →
      ∃ t l', l = ⟨.nowNs confine, t⟩ :: l' ∧ ∃ deadline, deadlineOf d l' = some deadline ∧
        t.toNat < deadline ∧ ms * 1000000 ≤ (deadline - t.toNat) + 1000000
  | _, _ => True

/-- What a reading of the clock has to reach, if it never goes back and a sleep takes at
    least its time: the reading before it and the sleeps since. -/
def clockFloor : FileLog → Nat
  | [] => 0
  | ⟨.nowNs _, t⟩ :: _ => t.toNat
  | ⟨.sleepMs ms, _⟩ :: l => clockFloor l + ms * 1000000
  | ⟨.stat _, _⟩ :: l => clockFloor l

/-- The clock does not go back, and each sleep advances it by at least its length. -/
def ClockAdvances : Ev FileCall.Ans → FileLog → Prop
  | ⟨.nowNs _, t⟩, l => clockFloor l ≤ t.toNat
  | _, _ => True

instance : ∀ (e : Ev FileCall.Ans) (l : FileLog), Decidable (ClockAdvances e l)
  | ⟨.nowNs _, t⟩, l => inferInstanceAs (Decidable (clockFloor l ≤ t.toNat))
  | ⟨.stat _, _⟩, _ => inferInstanceAs (Decidable True)
  | ⟨.sleepMs _, _⟩, _ => inferInstanceAs (Decidable True)

/-! ## The loop -/

/-- The loop head: the path was just looked at and not there, and the deadline is set. -/
structure Polling (timeout : Option Duration) (deadlineNs : Option Nat) (ms : Nat)
    (l : FileLog) : Prop where
  pos : 1 ≤ ms
  le : ms ≤ maxPollMs
  absent : lastStat l ≠ some (.ok ())
  looked : lookedSinceSleep l = true
  deadline : deadlineNs = timeout.bind fun d => deadlineOf d l
  set : ∀ d, timeout = some d → (firstReading l).isSome = true

/-- The result and the log it was returned with. -/
def FileOutcome (timeout : Option Duration) (confine : Confine) (r : Except TimeoutError Unit)
    (l : FileLog) : Prop :=
  (r = .ok () ↔ lastStat l = some (.ok ())) ∧
    ∀ path, r = .error (.waitForFileTimeout path) → PastDeadline timeout confine l

/-- The guarantee of each sleep; the loop may be cut off. -/
def fitting (timeout : Option Duration) (confine : Confine) : Contract FileCall.Ans where
  guar := SleepFits timeout confine

variable {K : Contract FileCall.Ans} {path : String} {timeout : Option Duration}
  {confine : Confine} {deadlineNs : Option Nat} {ms : Nat} {l : FileLog}

/-- A look: what is seen, and what stays as it was. -/
theorem fileExists_ensures {Post : Except TimeoutError (Except Int Bool) → Unit → FileLog → Prop}
    (hlook : ∀ a, K.guar ⟨.stat (cPath path), a⟩ l)
    (hfound : Post (.ok (.ok true)) () (⟨.stat (cPath path), .ok ()⟩ :: l))
    (habsent : ∀ err, Post (.ok (.ok false)) () (⟨.stat (cPath path), .error err⟩ :: l))
    (herr : ∀ err, Post (.ok (.error err)) () (⟨.stat (cPath path), .error err⟩ :: l))
    (hlong : Post (.ok (.error ENAMETOOLONG)) () l) : (fileExists path).Ensures K () l Post := by
  refine Act.ensures_ite (fun _ => Act.ensures_pure.mpr hlong) fun _ => ?_
  simp only [Act.ensures_bind, Act.ensures_call]
  intro a _
  refine ⟨hlook a, ?_⟩
  cases a with
  | ok _ => exact hfound
  | error err => exact Act.ensures_ite (fun _ => habsent err) fun _ => herr err

/-- With a timeout the loop has its deadline, and without one it has none. -/
theorem Polling.timeout_cases (h : Polling timeout deadlineNs ms l) :
    (timeout = none ∧ deadlineNs = none) ∨
      ∃ d deadline, timeout = some d ∧ deadlineNs = some deadline ∧ deadlineOf d l = some deadline := by
  cases ht : timeout with
  | none =>
    have hd := h.deadline
    rw [ht] at hd
    exact .inl ⟨rfl, hd⟩
  | some d =>
    obtain ⟨start, hstart⟩ := Option.isSome_iff_exists.mp (h.set d ht)
    have hdeadline : deadlineOf d l = some (advanceNs start (durationToNsWide d)) := by
      unfold deadlineOf
      rw [hstart]
      rfl
    have hd := h.deadline
    rw [ht] at hd
    exact .inr ⟨d, _, rfl, hd.trans hdeadline, hdeadline⟩

theorem deadlineOf_congr {l' : FileLog} (h : firstReading l' = firstReading l) (d : Duration) :
    deadlineOf d l' = deadlineOf d l := by
  unfold deadlineOf
  rw [h]

/-- A reading after others changes neither the last look nor the first reading. -/
theorem reading_keeps (confine : Confine) (t : UInt64) (h : (firstReading l).isSome = true) :
    lastStat (⟨.nowNs confine, t⟩ :: l) = lastStat l ∧
      firstReading (⟨.nowNs confine, t⟩ :: l) = firstReading l := by
  obtain ⟨start, hstart⟩ := Option.isSome_iff_exists.mp h
  refine ⟨rfl, ?_⟩
  show (firstReading l).or _ = _
  rw [hstart]
  rfl

/-- Before the sleep: the time is up, or the sleep fits into what remains. -/
theorem Polling.sleep (h : Polling timeout deadlineNs ms l) :
    (sleepTime path confine ms deadlineNs).Ensures (fitting timeout confine) () l fun r _ l' =>
      match r with
      | .ok n => SleepFits timeout confine ⟨.sleepMs n, ()⟩ l' ∧ lastStat l' = lastStat l ∧
          firstReading l' = firstReading l
      | .error e => FileOutcome timeout confine (.error e) l' := by
  rcases h.timeout_cases with ⟨htime, rfl⟩ | ⟨d, deadline, htime, rfl, hdeadline⟩
  · refine Act.ensures_pure.mpr ⟨⟨h.pos, h.le, fun d hd => ?_⟩, rfl, rfl⟩
    rw [htime] at hd
    cases hd
  · simp only [sleepTime, Act.ensures_bind, Act.ensures_call]
    intro t _
    refine ⟨trivial, ?_⟩
    obtain ⟨hstat, hfirst⟩ := reading_keeps confine t (h.set d htime)
    refine Act.ensures_ite (fun hreached => ?_) fun hreached => ?_
    · refine Act.ensures_throw.mpr ⟨⟨fun herr => ?_, fun hok => ?_⟩, fun path _ => ?_⟩
      · cases herr
      · exact absurd (hstat.symm.trans hok) h.absent
      · exact ⟨d, t, l, htime, rfl, h.looked, deadline, hdeadline, deadlineReached_iff.mp hreached⟩
    · have hlt : t.toNat < deadline := Nat.lt_of_not_le (mt deadlineReached_iff.mpr hreached)
      refine Act.ensures_pure.mpr ⟨⟨cappedSleep_pos h.pos _ _, ?_, fun d' hd' => ?_⟩, hstat, hfirst⟩
      · exact Nat.le_trans (cappedSleep_le _ _ _) h.le
      · rw [htime] at hd'
        cases hd'
        exact ⟨t, l, rfl, deadline, hdeadline, hlt, cappedSleep_overshoot _ _ _⟩

/-- One round: it ends in a result, or polls on with a longer interval. -/
theorem Polling.round (h : Polling timeout deadlineNs ms l) :
    (pollRound path confine deadlineNs ms).Ensures (fitting timeout confine) () l fun r _ l' =>
      match r with
      | .ok (.inl ms') => ms ≤ ms' ∧ Polling timeout deadlineNs ms' l'
      | .ok (.inr ()) => FileOutcome timeout confine (.ok ()) l'
      | .error e => FileOutcome timeout confine (.error e) l' := by
  refine Act.ensures_bind.mpr (h.sleep.mono fun r _ l₁ hr => ?_)
  cases r with
  | error e => exact hr
  | ok n =>
    obtain ⟨hfits, hstat, hfirst⟩ := hr
    simp only [Act.ensures_bind, Act.ensures_call]
    intro a _
    refine ⟨hfits, ?_⟩
    apply fileExists_ensures
    · exact fun _ => trivial
    · exact ⟨⟨fun _ => rfl, fun _ => rfl⟩, fun _ h => by cases h⟩
    · intro err
      -- neither the sleep nor the look is a reading of the clock
      have hsame : firstReading (⟨.stat (cPath path), .error err⟩ :: ⟨.sleepMs n, a⟩ :: l₁) =
          firstReading l := by
        calc ((firstReading l₁).or none).or none = firstReading l₁ := by
              rw [Option.or_none, Option.or_none]
          _ = firstReading l := hfirst
      refine ⟨le_nextInterval h.le, ?_, nextInterval_le ms, ?_, rfl, ?_, fun d hd => ?_⟩
      · exact Nat.le_trans h.pos (le_nextInterval h.le)
      · intro hok
        cases hok
      · simp only [deadlineOf_congr hsame]
        exact h.deadline
      · rw [hsame]
        exact h.set d hd
    · intro err
      refine ⟨⟨fun hr => ?_, fun hok => ?_⟩, fun _ hr => ?_⟩
      · cases hr
      · cases hok
      · cases hr
    · refine ⟨⟨fun hr => ?_, fun hok => ?_⟩, fun _ hr => ?_⟩
      · cases hr
      · exact absurd (hstat.symm.trans hok) h.absent
      · cases hr

/-- The state after the first look and the reading of the clock. -/
theorem fileDeadline_polling (habsent : lastStat l ≠ some (.ok ()))
    (hlooked : lookedSinceSleep l = true) (hfirst : firstReading l = none) :
    (fileDeadline confine timeout).Ensures (fitting timeout confine) () l fun r _ l' =>
      ∃ deadlineNs, r = .ok deadlineNs ∧ Polling timeout deadlineNs initialPollMs l' := by
  have hpos : 1 ≤ initialPollMs := by decide
  have hle : initialPollMs ≤ maxPollMs := by decide
  cases timeout with
  | none => exact Act.ensures_pure.mpr ⟨_, rfl, hpos, hle, habsent, hlooked, rfl, nofun⟩
  | some d =>
    simp only [fileDeadline, Act.ensures_bind, Act.ensures_call]
    intro t _
    have hread : firstReading (⟨.nowNs confine, t⟩ :: l) = some t.toNat := by
      show (firstReading l).or _ = _
      rw [hfirst]
      rfl
    refine ⟨trivial, Act.ensures_pure.mpr ⟨_, rfl, hpos, hle, habsent, hlooked, ?_, fun d' _ => ?_⟩⟩
    · show some _ = deadlineOf d _
      unfold deadlineOf
      rw [hread]
      rfl
    · rw [hread]
      rfl

/-- Every sleep of a run fits, and its result goes with its log. -/
theorem waitForFile_ensures (fuel : Nat) (path : String) (timeout : Option Duration)
    (confine : Confine) :
    (waitForFile fuel path timeout confine).Ensures (fitting timeout confine) () []
      fun r _ l => FileOutcome timeout confine r l := by
  refine Act.ensures_bind.mpr ?_
  apply fileExists_ensures
  · exact fun _ => trivial
  · exact Act.ensures_pure.mpr ⟨⟨fun _ => rfl, fun _ => rfl⟩, nofun⟩
  · intro err
    have habsent : lastStat [⟨.stat (cPath path), .error err⟩] ≠ some (.ok ()) := nofun
    refine Act.ensures_bind.mpr ((fileDeadline_polling habsent rfl rfl).mono fun r _ l hr => ?_)
    obtain ⟨deadlineNs, rfl, hpoll⟩ := hr
    refine Act.ensures_iterate (fun ms _ l => Polling timeout deadlineNs ms l) ?_
      (fun _ _ _ _ => trivial) fuel hpoll
    intro ms s l hl
    refine hl.round.mono fun r _ l' hr => ?_
    match r, hr with
    | .ok (.inl ms'), hr => exact hr.2
    | .ok (.inr ()), hr => exact hr
    | .error e, hr => exact hr
  · intro err
    exact Act.ensures_throw.mpr ⟨⟨nofun, nofun⟩, nofun⟩
  · have hnone : lastStat [] ≠ some (.ok ()) := by simp [lastStat]
    refine Act.ensures_throw.mpr ⟨⟨nofun, fun hok => absurd hok hnone⟩, fun p hp => ?_⟩
    cases hp

/-! ## The interval along a run -/

theorem pollRound_interval (s : Unit) (l : FileLog) :
    (pollRound path confine deadlineNs ms).Ensures {} s l fun r _ _ =>
      ∀ ms', r = .ok (.inl ms') → ms' = nextInterval ms := by
  apply Act.ensures_last
  · exact fun _ _ => nofun
  · intro n s l
    apply Act.ensures_last
    · exact fun _ _ => nofun
    · intro _ s l
      apply Act.ensures_last
      · exact fun _ _ => nofun
      · intro seen s l
        match seen with
        | .ok true => exact Act.ensures_pure.mpr fun _ => nofun
        | .ok false =>
          refine Act.ensures_pure.mpr fun ms' hms' => ?_
          cases hms'
          rfl
        | .error _ => exact Act.ensures_throw.mpr fun _ => nofun

/-- From loop head to loop head the interval stays in its bounds. -/
theorem interval_bounds (W : FileWorld) {l₀ : FileLog} {s : Unit}
    (h : Act.Reaches W (pollRound path confine deadlineNs) initialPollMs () l₀ ms s l) :
    1 ≤ ms ∧ ms ≤ maxPollMs := by
  have hinv := Act.Reaches.invariant (K := {}) (fun ms _ _ => 1 ≤ ms ∧ ms ≤ maxPollMs)
    (fun ms s l hms => ?_) (by decide) (Always.of_forall (fun _ _ => trivial) _) h
    (Always.of_forall (fun _ _ => trivial) _)
  · exact hinv.1
  refine (pollRound_interval s l).mono fun r _ _ hr => ?_
  match r, hr with
  | .ok (.inl ms'), hr =>
    rw [hr ms' rfl]
    exact ⟨Nat.le_trans hms.1 (le_nextInterval hms.2), nextInterval_le ms⟩
  | .ok (.inr _), _ => exact trivial
  | .error _, _ => exact trivial

/-! ## The end of the loop -/

/-- After `k` rounds the clock has gone on by as many milliseconds, and was not there yet
    when the last of them began. -/
structure Elapsed (start deadline k : Nat) (l : FileLog) : Prop where
  floor : start + k * 1000000 ≤ clockFloor l
  before : ∀ j, k = j + 1 → start + j * 1000000 < deadline

/-- Under an advancing clock a run never comes to the end of enough fuel. -/
def advancing : Contract FileCall.Ans where
  rely := ClockAdvances
  cut _ := False

theorem pollRound_elapsed {start deadline k : Nat} (hms : 1 ≤ ms) (hle : ms ≤ maxPollMs)
    (h : Elapsed start deadline k l) :
    (pollRound path confine (some deadline) ms).Ensures advancing () l fun r _ l' =>
      ∀ ms', r = .ok (.inl ms') →
        1 ≤ ms' ∧ ms' ≤ maxPollMs ∧ Elapsed start deadline (k + 1) l' := by
  simp only [pollRound, sleepTime, Act.ensures_bind, Act.ensures_call]
  intro t ht
  refine ⟨trivial, ?_⟩
  have hfloor := Nat.le_trans h.floor ht
  refine Act.ensures_ite (fun _ => Act.ensures_throw.mpr (fun _ hr => by cases hr)) fun hreached => ?_
  have hlt : t.toNat < deadline := Nat.lt_of_not_le (mt deadlineReached_iff.mpr hreached)
  refine Act.ensures_pure.mpr fun a _ => ⟨trivial, ?_⟩
  have hnext : Elapsed start deadline (k + 1)
      (⟨.sleepMs (cappedSleep ms t.toNat deadline), a⟩ :: ⟨.nowNs confine, t⟩ :: l) := by
    -- even a capped sleep takes a millisecond, so every round moves the clock on
    have hone := cappedSleep_pos hms t.toNat deadline
    constructor
    · calc start + (k + 1) * 1000000
          = start + k * 1000000 + 1 * 1000000 := by omega
        _ ≤ t.toNat + cappedSleep ms t.toNat deadline * 1000000 :=
            Nat.add_le_add hfloor (Nat.mul_le_mul_right _ hone)
    · intro j hj
      cases hj
      exact Nat.lt_of_le_of_lt hfloor hlt
  apply fileExists_ensures
  · exact fun _ => trivial
  · intro _ hr
    cases hr
  · intro err ms' hms'
    cases hms'
    exact ⟨Nat.le_trans hms (le_nextInterval hle), nextInterval_le ms, hnext.floor, hnext.before⟩
  · intro _ _ hr
    cases hr
  · intro _ hr
    cases hr

/-- A run with a timeout is not cut off by this much fuel. -/
theorem waitForFile_returns (d : Duration) {fuel : Nat}
    (hfuel : durationToNsWide d / 1000000 + 2 ≤ fuel) :
    (waitForFile fuel path (some d) confine).Ensures advancing () [] fun _ _ _ => True := by
  refine Act.ensures_bind.mpr ?_
  apply fileExists_ensures
  · exact fun _ => trivial
  · exact trivial
  · intro err
    refine Act.ensures_bind.mpr ?_
    simp only [fileDeadline, Act.ensures_bind, Act.ensures_call, Act.ensures_pure]
    refine fun t _ => ⟨trivial, ?_⟩
    -- with `n` rounds of fuel left, `fuel - n` rounds have passed
    refine Act.ensures_iterate_count (fun n ms _ l => 1 ≤ ms ∧ ms ≤ maxPollMs ∧
      ∃ k, n + k = fuel ∧ Elapsed t.toNat (advanceNs t.toNat (durationToNsWide d)) k l)
      ?_ ?_ fuel _ _ _ ?_
    · rintro n ms s l ⟨hms, hle, k, hk, helapsed⟩
      refine (pollRound_elapsed hms hle helapsed).mono fun r _ l' hr => ?_
      rcases r with _ | ms' | _
      · exact trivial
      · obtain ⟨hms', hle', hnext⟩ := hr ms' rfl
        exact ⟨hms', hle', k + 1, by omega, hnext⟩
      · exact trivial
    · rintro ms s l ⟨-, -, k, hk, helapsed⟩
      have hlast := helapsed.before (k - 1) (by omega)
      have hdeadline : advanceNs t.toNat (durationToNsWide d) ≤ t.toNat + durationToNsWide d :=
        Nat.min_le_left _ _
      have hdiv := Nat.div_add_mod (durationToNsWide d) 1000000
      have hmod := Nat.mod_lt (durationToNsWide d) (show 0 < 1000000 by decide)
      have hk' : durationToNsWide d / 1000000 + 1 ≤ k - 1 := by omega
      have hmul := Nat.mul_le_mul_right 1000000 hk'
      omega
    · refine ⟨by decide, by decide, 0, rfl, ?_, fun j hj => by cases hj⟩
      show t.toNat + 0 * 1000000 ≤ t.toNat
      omega
  · exact fun _ => trivial
  · exact trivial

/-- **Polling for a file.** For every timeout, every clock and every answer of `stat`: the
    result is `Ok` exactly when the last look saw the file, and a timeout only at a reading
    past the deadline after a look since the last sleep; each sleep fits; the interval stays
    between 1 and 1000 ms and never shrinks; and with a timeout and a clock that each sleep
    advances by its length, a run comes to its end. -/
theorem file_wait_polls (path : String) (timeout : Option Duration) (confine : Confine)
    (W : FileWorld) :
    (∀ fuel r l, (waitForFile fuel path timeout confine ()).run W [] = (some (r, ()), l) →
      (r = .ok () ↔ lastStat l = some (.ok ())) ∧
        ∀ p, r = .error (.waitForFileTimeout p) → PastDeadline timeout confine l) ∧
    (∀ fuel, Always (SleepFits timeout confine)
      ((waitForFile fuel path timeout confine ()).run W []).2) ∧
    (∀ deadlineNs l₀ ms s l,
      Act.Reaches W (pollRound path confine deadlineNs) initialPollMs () l₀ ms s l →
      (1 ≤ ms ∧ ms ≤ 1000) ∧ ∀ ms' s' l',
        (pollRound path confine deadlineNs ms s).run W l = (some (.ok (.inl ms'), s'), l') →
        ms ≤ ms') ∧
    (∀ d fuel, timeout = some d → durationToNsWide d / 1000000 + 2 ≤ fuel →
      Always ClockAdvances ((waitForFile fuel path timeout confine ()).run W []).2 →
      ∃ r, ((waitForFile fuel path timeout confine ()).run W []).1 = some (r, ())) := by
  have hfree : ∀ l : FileLog, Always (fun _ _ => True) l := Always.of_forall fun _ _ => trivial
  refine ⟨?_, ?_, ?_, ?_⟩
  · intro fuel r l hrun
    have hpost := (waitForFile_ensures fuel path timeout confine).returns W (a := (r, ()))
      (hfree _) (by rw [hrun])
    rw [hrun] at hpost
    exact hpost
  · intro fuel
    exact ((waitForFile_ensures fuel path timeout confine).sound W trivial (hfree _)).1
  · intro deadlineNs l₀ ms s l hreach
    have hms := interval_bounds W hreach
    refine ⟨hms, fun ms' s' l' hrun => ?_⟩
    have hnext := (pollRound_interval s l).returns W (a := (.ok (.inl ms'), s')) (hfree _)
      (by rw [hrun])
    rw [hnext ms' rfl]
    exact le_nextInterval hms.2
  · rintro d fuel rfl hfuel hadv
    have hend := ((waitForFile_returns d hfuel).sound W trivial hadv).2.2
    cases hr : ((waitForFile fuel path (some d) confine ()).run W []).1 with
    | none => exact (hend hr).elim
    | some r => exact ⟨r.1, rfl⟩

/-- The file never comes, and every sleep takes exactly its time. -/
def neverWorld : FileWorld := fun l c => match c with
  | .stat _ => .error ENOENT
  | .nowNs _ => UInt64.ofNat (clockFloor l)
  | .sleepMs _ => ()

/-- The run with a timeout of 15 ms: it sleeps 10 ms, then 5 ms. -/
def neverRun : Option (Except TimeoutError Unit × Unit) × FileLog :=
  (waitForFile 17 "/tmp/ready" (some (.fromMillis 15 (by decide))) .wall ()).run neverWorld []

theorem neverRun_times_out :
    PastDeadline (some (.fromMillis 15 (by decide))) .wall neverRun.2 ∧
      Always (SleepFits (some (.fromMillis 15 (by decide))) .wall) neverRun.2 ∧
      ∃ r, neverRun.1 = some (r, ()) := by
  have hpolls := file_wait_polls "/tmp/ready" (some (.fromMillis 15 (by decide))) .wall neverWorld
  have hrun : neverRun = (some (.error (.waitForFileTimeout "/tmp/ready"), ()), neverRun.2) := by
    rfl
  have hadvances : Always ClockAdvances neverRun.2 := by
    simp only [neverRun]
    decide
  exact ⟨(hpolls.1 17 _ _ hrun).2 _ rfl, hpolls.2.1 17, hpolls.2.2.2 _ 17 rfl (by decide) hadvances⟩

end Procguard
