import Procguard.Process

/- CPU percent throttling. `update` compares the CPU time used since attach with
   the wall time since attach times the percentage and stops or continues the
   process; `resume` undoes a stop before a termination signal and on drop. The
   budget is computed in u128 and cut back to u64, which `cpuBudgetNs` spells
   out. -/
namespace Procguard
open Interact

def SIGCONT : Int := Signal.sigcont.asRaw
def SIGSTOP : Int := Signal.sigstop.asRaw

/-- CPU time in nanoseconds (user + system). -/
def RusageInfo.cpuTimeNs (r : RusageInfo) : Nat := satAdd r.userTime.toNat r.systemTime.toNat

/-- Memory usage (phys_footprint) in bytes. -/
def RusageInfo.memoryBytes (r : RusageInfo) : Nat := r.physFootprint.toNat

structure CpuThrottleConfig where
  percent : Nat
  intervalNs : Nat
  sleepNs : Nat
  percent_pos : 0 < percent := by decide
  percent_lt : percent < 2 ^ 32 := by decide

structure CpuThrottleState where
  pid : Int
  startCpuNs : Nat
  startWallNs : Nat
  lastCpuNs : Nat
  lastWallNs : Nat
  suspended : Bool := false
  processExited : Bool := false
  deriving DecidableEq, Repr

abbrev ThrottleAct := Act Ans CpuThrottleState TimeoutError

/-- `total_wall_ns * percent / 100`, taken in u128 and narrowed to u64. -/
def cpuBudgetNs (totalWallNs percent : Nat) : Nat := totalWallNs * percent / 100 % 2 ^ 64

namespace CpuThrottleState

def new (pid : Int) (nowNs : Nat) : SysProg (Except TimeoutError CpuThrottleState) :=
  .ask ⟨.throttle, .procPidRusage pid⟩ fun r => .done <| match r with
    | none => .error (.throttleAttachError ESRCH)
    | some info => .ok {
        pid, startCpuNs := info.cpuTimeNs, startWallNs := nowNs,
        lastCpuNs := info.cpuTimeNs, lastWallNs := nowNs }

/-- Resume the process if suspended. A failed SIGCONT (the process is gone) clears
    the flag as well. -/
def resume : ThrottleAct Unit := do
  let st ← Act.get
  if st.suspended && !st.processExited then do
    let _ ← sys .throttle (.kill st.pid SIGCONT)
    Act.modify fun st => { st with suspended := false }
  else pure ()

def markProcessExited (st : CpuThrottleState) : CpuThrottleState :=
  { st with processExited := true, suspended := false }

/-- Totals since attach at wall reading `nowNs` and CPU reading `cpuNs`. -/
def totalWallNs (st : CpuThrottleState) (nowNs : Nat) : Nat := nowNs - st.startWallNs
def totalCpuNs (st : CpuThrottleState) (cpuNs : Nat) : Nat := cpuNs - st.startCpuNs

/-- Whether the totals are over the budget. -/
def overBudget (st : CpuThrottleState) (cfg : CpuThrottleConfig) (nowNs cpuNs : Nat) : Bool :=
  decide (cpuBudgetNs (st.totalWallNs nowNs) cfg.percent < st.totalCpuNs cpuNs)

/-- Stop a process that is over budget, continue one that is not; the flag moves
    only when the signal was delivered. -/
def steer (exceeded : Bool) : ThrottleAct Unit := do
  let st ← Act.get
  if exceeded && !st.suspended then
    match ← sys .throttle (.kill st.pid SIGSTOP) with
    | .ok () => Act.modify fun st => { st with suspended := true }
    | .error _ => pure ()
  else if !exceeded && st.suspended then
    match ← sys .throttle (.kill st.pid SIGCONT) with
    | .ok () => Act.modify fun st => { st with suspended := false }
    | .error _ => pure ()
  else pure ()

/-- Check CPU usage and throttle if needed; returns whether the process is
    suspended. -/
def update (cfg : CpuThrottleConfig) (nowNs : Nat) : ThrottleAct Bool := do
  let st ← Act.get
  match ← sys .throttle (.procPidRusage st.pid) with
  | none =>
    -- process gone
    Act.modify fun st =>
      { st with processExited := true, suspended := false, lastWallNs := nowNs }
    pure false
  | some info =>
    if st.totalWallNs nowNs = 0 then do
      Act.modify fun st => { st with lastCpuNs := info.cpuTimeNs, lastWallNs := nowNs }
      pure st.suspended
    else do
      steer (st.overBudget cfg nowNs info.cpuTimeNs)
      Act.modify fun st => { st with lastCpuNs := info.cpuTimeNs, lastWallNs := nowNs }
      let st ← Act.get
      pure st.suspended

/-- `Drop`: resume the process if it is held suspended. -/
def drop (st : CpuThrottleState) : SysProg CpuThrottleState :=
  (resume st).bind fun r => .done r.2

/-! ## What each operation needs to end in a postcondition -/

section rules
variable {K : Contract Ans} {st : CpuThrottleState} {l : Trace}

theorem ensures_resume {Post : Except TimeoutError Unit → CpuThrottleState → Trace → Prop} :
    resume.Ensures K st l Post ↔
      if st.suspended && !st.processExited then
        ∀ a, K.rely ⟨⟨.throttle, .kill st.pid SIGCONT⟩, a⟩ l →
          K.guar ⟨⟨.throttle, .kill st.pid SIGCONT⟩, a⟩ l ∧
          Post (.ok ()) { st with suspended := false }
            (⟨⟨.throttle, .kill st.pid SIGCONT⟩, a⟩ :: l)
      else Post (.ok ()) st l := by
  simp only [resume, Act.ensures_bind, Act.ensures_get]
  split
  · simp only [Act.ensures_bind, Act.ensures_call, Act.ensures_modify]
  · exact Act.ensures_pure

theorem ensures_steer {exceeded : Bool}
    {Post : Except TimeoutError Unit → CpuThrottleState → Trace → Prop} :
    (steer exceeded).Ensures K st l Post ↔
      if exceeded && !st.suspended then
        ∀ a, K.rely ⟨⟨.throttle, .kill st.pid SIGSTOP⟩, a⟩ l →
          K.guar ⟨⟨.throttle, .kill st.pid SIGSTOP⟩, a⟩ l ∧
          Post (.ok ()) (if a.toBool then { st with suspended := true } else st)
            (⟨⟨.throttle, .kill st.pid SIGSTOP⟩, a⟩ :: l)
      else if !exceeded && st.suspended then
        ∀ a, K.rely ⟨⟨.throttle, .kill st.pid SIGCONT⟩, a⟩ l →
          K.guar ⟨⟨.throttle, .kill st.pid SIGCONT⟩, a⟩ l ∧
          Post (.ok ()) (if a.toBool then { st with suspended := false } else st)
            (⟨⟨.throttle, .kill st.pid SIGCONT⟩, a⟩ :: l)
      else Post (.ok ()) st l := by
  simp only [steer, Act.ensures_bind, Act.ensures_get]
  split
  · simp only [Act.ensures_bind, Act.ensures_call]
    refine forall_congr' fun a => imp_congr_right fun _ => and_congr_right fun _ => ?_
    cases a <;> rfl
  · split
    · simp only [Act.ensures_bind, Act.ensures_call]
      refine forall_congr' fun a => imp_congr_right fun _ => and_congr_right fun _ => ?_
      cases a <;> rfl
    · exact Act.ensures_pure

/-- The state `update` leaves when the process could not be read. -/
def gone (st : CpuThrottleState) (nowNs : Nat) : CpuThrottleState :=
  { st with processExited := true, suspended := false, lastWallNs := nowNs }

/-- The readings an `update` records. -/
def recordReading (st : CpuThrottleState) (cpuNs nowNs : Nat) : CpuThrottleState :=
  { st with lastCpuNs := cpuNs, lastWallNs := nowNs }

theorem ensures_update {cfg : CpuThrottleConfig} {nowNs : Nat}
    {Post : Except TimeoutError Bool → CpuThrottleState → Trace → Prop} :
    (update cfg nowNs).Ensures K st l Post ↔
      ∀ r, K.rely ⟨⟨.throttle, .procPidRusage st.pid⟩, r⟩ l →
        K.guar ⟨⟨.throttle, .procPidRusage st.pid⟩, r⟩ l ∧
        match r with
        | none => Post (.ok false) (st.gone nowNs) (⟨⟨.throttle, .procPidRusage st.pid⟩, r⟩ :: l)
        | some info =>
          if st.totalWallNs nowNs = 0 then
            Post (.ok st.suspended) (st.recordReading info.cpuTimeNs nowNs)
              (⟨⟨.throttle, .procPidRusage st.pid⟩, r⟩ :: l)
          else
            (steer (st.overBudget cfg nowNs info.cpuTimeNs)).Ensures K st
              (⟨⟨.throttle, .procPidRusage st.pid⟩, r⟩ :: l) fun r' st' l' => match r' with
                | .ok _ => Post (.ok st'.suspended) (st'.recordReading info.cpuTimeNs nowNs) l'
                | .error e => Post (.error e) st' l' := by
  rw [update, Act.ensures_bind, Act.ensures_get]
  simp only [Act.ensures_bind, Act.ensures_call]
  refine forall_congr' fun r => imp_congr_right fun _ => and_congr_right fun _ => ?_
  cases r with
  | none => simp only [Act.ensures_bind, Act.ensures_modify, Act.ensures_pure]; rfl
  | some info =>
    dsimp only
    split
    · simp only [Act.ensures_bind, Act.ensures_modify, Act.ensures_pure]; rfl
    · simp only [Act.ensures_bind, Act.ensures_modify, Act.ensures_pure, Act.ensures_get,
        ensures_steer]
      rfl

end rules

/-- The throttle sends signals and reads the usage of the process, and asks for nothing
    else. -/
theorem asking_steer {P : Req → Prop} (hkill : ∀ pid sig, P ⟨.throttle, .kill pid sig⟩)
    (exceeded : Bool) : Act.Asking P (steer exceeded) := by
  refine .bind .get fun st => .ite (.bind (.call (hkill _ _)) ?_)
    (.ite (.bind (.call (hkill _ _)) ?_) .pure) <;>
  · intro r
    cases r with
    | ok _ => exact .modify
    | error _ => exact .pure

theorem asking_update {P : Req → Prop} (hkill : ∀ pid sig, P ⟨.throttle, .kill pid sig⟩)
    (hread : ∀ pid, P ⟨.throttle, .procPidRusage pid⟩) (cfg : CpuThrottleConfig) (nowNs : Nat) :
    Act.Asking P (update cfg nowNs) := by
  refine .bind .get fun st => .bind (.call (hread _)) fun r => ?_
  cases r with
  | none => exact .bind .modify fun _ => .pure
  | some info =>
    refine .ite (.bind .modify fun _ => .pure) (.bind (asking_steer hkill _) fun _ => ?_)
    exact .bind .modify fun _ => .bind .get fun _ => .pure

/-- `update` does not fail. -/
theorem update_ok (cfg : CpuThrottleConfig) (nowNs : Nat) (st : CpuThrottleState) (l : Trace) :
    (update cfg nowNs).Ensures {} st l fun r _ _ => ∃ b, r = .ok b := by
  rw [ensures_update]
  intro r _
  refine ⟨trivial, ?_⟩
  cases r with
  | none => exact ⟨false, rfl⟩
  | some info =>
    dsimp only
    split
    · exact ⟨_, rfl⟩
    · rw [ensures_steer]
      split
      · exact fun _ _ => ⟨trivial, _, rfl⟩
      · split
        · exact fun _ _ => ⟨trivial, _, rfl⟩
        · exact ⟨_, rfl⟩

end CpuThrottleState

structure ThrottleContext where
  cfg : CpuThrottleConfig
  state : CpuThrottleState

/-! ## Signals of the throttle -/

/-- A signal the throttle sends. -/
def throttleKill (e : Event) : Option Int :=
  match e.req with
  | ⟨.throttle, .kill _ sig⟩ => some sig
  | _ => none

/-- The signals the throttle sent, newest first. -/
def throttleKills (l : Trace) : List Int := l.filterMap throttleKill

/-- A signal of the throttle that was delivered. -/
def throttleDelivered : Event → Option Int
  | ⟨⟨.throttle, .kill _ sig⟩, .ok ()⟩ => some sig
  | _ => none

/-- The last signal the throttle delivered. -/
def lastThrottleSignal (l : Trace) : Option Int := l.findSome? throttleDelivered

/-- The throttle holds the process stopped. -/
def heldStopped (l : Trace) : Bool := lastThrottleSignal l == some SIGSTOP

@[simp] theorem throttleKills_cons (e : Event) (l : Trace) :
    throttleKills (e :: l) = (throttleKill e).toList ++ throttleKills l := by
  cases h : throttleKill e <;> simp [throttleKills, h]

@[simp] theorem lastThrottleSignal_cons (e : Event) (l : Trace) :
    lastThrottleSignal (e :: l) = (throttleDelivered e).or (lastThrottleSignal l) := by
  cases h : throttleDelivered e <;> simp [lastThrottleSignal, h]

end Procguard
