import Procguard.Throttle

/- The throttle on its own, over any sequence of its operations and any answers.

   1. `silent_iff_no_late_overrun`: once the process is known to be gone the
      throttle is silent exactly when no later `update` is given a reading over
      the budget. `update` does not look at `process_exited`, so the condition
      is needed (`late_overrun_signals`).
   2. `overshoot_bounded`: the integral controller keeps the CPU time used since
      attach within the budget plus what the process can use in one sampling
      interval, at every sample. The invariant ties the stop state the process is
      really in (the last signal delivered) to the last comparison. -/
namespace Procguard
open Interact

/-! ## Sequences of operations -/

inductive ThrottleOp where
  | update (cfg : CpuThrottleConfig) (nowNs : Nat)
  | resume
  | markProcessExited
  | drop

def ThrottleOp.act : ThrottleOp → ThrottleAct Unit
  | .update cfg nowNs => do
    let _ ← CpuThrottleState.update cfg nowNs
    pure ()
  | .resume => CpuThrottleState.resume
  | .markProcessExited => Act.modify CpuThrottleState.markProcessExited
  | .drop => CpuThrottleState.resume

/-- State and log after one operation. -/
def afterOp (env : World) (s : CpuThrottleState × Trace) (op : ThrottleOp) :
    CpuThrottleState × Trace :=
  match (op.act s.1).run env s.2 with
  | (some (_, st), l) => (st, l)
  | (none, l) => (s.1, l)

/-- State and log after a sequence of operations. -/
def afterOps (env : World) (s : CpuThrottleState × Trace) (ops : List ThrottleOp) :
    CpuThrottleState × Trace := ops.foldl (afterOp env) s

theorem afterOps_append (env : World) (s : CpuThrottleState × Trace) (ops₁ ops₂ : List ThrottleOp) :
    afterOps env s (ops₁ ++ ops₂) = afterOps env (afterOps env s ops₁) ops₂ :=
  List.foldl_append

theorem afterOp_of_ensures {env : World} {s : CpuThrottleState × Trace} {op : ThrottleOp}
    {P : CpuThrottleState → Trace → Prop}
    (h : op.act.Ensures (Prog.answers env) s.1 s.2 fun _ st l => P st l) :
    P (afterOp env s op).1 (afterOp env s op).2 := by
  obtain ⟨⟨r, st⟩, hrun, hP⟩ := Prog.Ensures.on_run h
  have hstep : afterOp env s op = (st, ((op.act s.1).run env s.2).2) := by
    unfold afterOp
    split
    · next heq => rw [heq] at hrun ⊢; cases hrun; rfl
    · next heq => rw [heq] at hrun; cases hrun
  rw [hstep]
  exact hP

/-- The reading the next `update` is given. -/
def nextReading (env : World) (s : CpuThrottleState × Trace) : Option RusageInfo :=
  env s.2 ⟨.throttle, .procPidRusage s.1.pid⟩

/-- The next reading puts an `update` at `nowNs` over its budget. -/
def overrun (env : World) (s : CpuThrottleState × Trace) (cfg : CpuThrottleConfig) (nowNs : Nat) :
    Bool :=
  match nextReading env s with
  | some info => s.1.totalWallNs nowNs != 0 && s.1.overBudget cfg nowNs info.cpuTimeNs
  | none => false

/-! ## A process known to be gone -/

/-- `process_exited` and `suspended` do not meet. -/
def GoneClean (st : CpuThrottleState) : Prop := st.processExited = true → st.suspended = false

/-- One operation keeps the two flags apart, and sends nothing to a process known to
    be gone, unless it is an `update` over the budget. -/
theorem afterOp_clean (env : World) {s : CpuThrottleState × Trace} (op : ThrottleOp)
    (hc : GoneClean s.1)
    (hop : ∀ cfg nowNs, op = .update cfg nowNs → s.1.processExited = true →
      overrun env s cfg nowNs = false) :
    GoneClean (afterOp env s op).1 ∧ (s.1.processExited = true →
      (afterOp env s op).1.processExited = true ∧
      throttleKills (afterOp env s op).2 = throttleKills s.2) := by
  apply afterOp_of_ensures (P := fun st l => GoneClean st ∧ (s.1.processExited = true →
    st.processExited = true ∧ throttleKills l = throttleKills s.2))
  have hresume : CpuThrottleState.resume.Ensures (Prog.answers env) s.1 s.2 fun _ st l =>
      GoneClean st ∧ (s.1.processExited = true →
        st.processExited = true ∧ throttleKills l = throttleKills s.2) := by
    rw [CpuThrottleState.ensures_resume]
    split
    · next hsus =>
      intro a _
      have hx : s.1.processExited = false := by simpa using (Bool.and_eq_true_iff.mp hsus).2
      exact ⟨trivial, fun _ => rfl, fun h => absurd h (by simp [hx])⟩
    · exact ⟨hc, fun h => ⟨h, rfl⟩⟩
  cases op with
  | resume => exact hresume
  | drop => exact hresume
  | markProcessExited => exact ⟨fun _ => rfl, fun _ => ⟨rfl, rfl⟩⟩
  | update cfg nowNs =>
    show Act.Ensures _ (CpuThrottleState.update cfg nowNs >>= _) _ _ _
    rw [Act.ensures_bind, CpuThrottleState.ensures_update]
    intro r hr
    refine ⟨trivial, ?_⟩
    have hover := hop cfg nowNs rfl
    simp only [overrun, nextReading] at hover
    change r = env s.2 _ at hr
    cases r with
    | none => exact ⟨fun _ => rfl, fun _ => ⟨rfl, by simp [throttleKill]⟩⟩
    | some info =>
      rw [← hr] at hover
      have hquiet : throttleKills (⟨⟨.throttle, .procPidRusage s.1.pid⟩, some info⟩ :: s.2) =
          throttleKills s.2 := by simp [throttleKill]
      dsimp only
      split
      · exact ⟨hc, fun h => ⟨h, hquiet⟩⟩
      · next hwall =>
        rw [CpuThrottleState.ensures_steer]
        split
        · next hstop =>
          -- over budget and not suspended: the process cannot be known to be gone
          intro a _
          have hx : s.1.processExited = false := by
            by_contra hne
            simp [hwall, (Bool.and_eq_true_iff.mp hstop).1] at hover
            exact hne hover
          refine ⟨trivial, ?_, fun h => absurd h (by simp [hx])⟩
          cases a <;> exact fun h => absurd h (by simp [Except.toBool, hx,
            CpuThrottleState.recordReading])
        · split
          · next hcont =>
            -- suspended, so not known to be gone
            intro a _
            have hx : s.1.processExited = false := by
              have hsus := (Bool.and_eq_true_iff.mp hcont).2
              by_contra hne
              rw [hc (by simpa using hne)] at hsus
              cases hsus
            refine ⟨trivial, ?_, fun h => absurd h (by simp [hx])⟩
            cases a <;> exact fun h => absurd h (by simp [Except.toBool, hx,
              CpuThrottleState.recordReading])
          · exact ⟨hc, fun h => ⟨h, hquiet⟩⟩

theorem afterOps_clean (env : World) (ops : List ThrottleOp) {s : CpuThrottleState × Trace}
    (hc : GoneClean s.1)
    (hops : ∀ ops₁ cfg nowNs ops₂, ops = ops₁ ++ .update cfg nowNs :: ops₂ →
      (afterOps env s ops₁).1.processExited = true →
      overrun env (afterOps env s ops₁) cfg nowNs = false) :
    GoneClean (afterOps env s ops).1 ∧ (s.1.processExited = true →
      throttleKills (afterOps env s ops).2 = throttleKills s.2) := by
  induction ops generalizing s with
  | nil => exact ⟨hc, fun _ => rfl⟩
  | cons op ops ih =>
    obtain ⟨hc', hquiet⟩ := afterOp_clean env op hc fun cfg nowNs hop hx =>
      hops [] cfg nowNs ops (by rw [hop]; rfl) hx
    obtain ⟨hc'', hrest⟩ := ih hc' fun ops₁ cfg nowNs ops₂ heq hx =>
      hops (op :: ops₁) cfg nowNs ops₂ (by rw [heq]; rfl) hx
    refine ⟨hc'', fun hx => ?_⟩
    obtain ⟨hx', hsame⟩ := hquiet hx
    exact (hrest hx').trans hsame

/-- Every operation runs to its end, so its log is the log of its run. -/
theorem afterOp_extends (env : World) (s : CpuThrottleState × Trace) (op : ThrottleOp) :
    s.2 <:+ (afterOp env s op).2 := by
  have h := Prog.run_extends env (op.act s.1) s.2
  unfold afterOp
  split
  · next heq => rw [heq] at h; exact h
  · next heq => rw [heq] at h; exact h

theorem afterOps_extends (env : World) (ops : List ThrottleOp) (s : CpuThrottleState × Trace) :
    s.2 <:+ (afterOps env s ops).2 := by
  induction ops generalizing s with
  | nil => exact List.suffix_refl _
  | cons op ops ih => exact (afterOp_extends env s op).trans (ih _)

theorem throttleKills_length_mono {l l' : Trace} (h : l <:+ l') :
    (throttleKills l).length ≤ (throttleKills l').length := by
  obtain ⟨t, rfl⟩ := h
  rw [throttleKills, throttleKills, List.filterMap_append, List.length_append]
  exact Nat.le_add_left _ _

/-- An `update` over the budget signals a process that is not suspended, whatever
    `process_exited` says. -/
theorem overrun_signals {env : World} {s : CpuThrottleState × Trace} {cfg : CpuThrottleConfig}
    {nowNs : Nat} (hs : s.1.suspended = false) (hover : overrun env s cfg nowNs = true) :
    throttleKills (afterOp env s (.update cfg nowNs)).2 = SIGSTOP :: throttleKills s.2 := by
  apply afterOp_of_ensures (P := fun _ l => throttleKills l = SIGSTOP :: throttleKills s.2)
  show Act.Ensures _ (CpuThrottleState.update cfg nowNs >>= _) _ _ _
  rw [Act.ensures_bind, CpuThrottleState.ensures_update]
  intro r hr
  refine ⟨trivial, ?_⟩
  simp only [overrun, nextReading] at hover
  change r = env s.2 _ at hr
  rw [← hr] at hover
  cases r with
  | none => cases hover
  | some info =>
    obtain ⟨hwall, hbudget⟩ := Bool.and_eq_true_iff.mp hover
    dsimp only
    rw [if_neg (by simpa using hwall), CpuThrottleState.ensures_steer,
      if_pos (by rw [hbudget, hs]; rfl)]
    intro a _
    refine ⟨trivial, ?_⟩
    cases a <;> simp [throttleKill, Act.ensures_pure]

/-- At every point of the run where `process_exited` is set, `suspended` is not, and
    the throttle sends nothing from there on. -/
def SilentOnceGone (env : World) (s : CpuThrottleState × Trace) (ops : List ThrottleOp) : Prop :=
  ∀ ops₁ ops₂, ops = ops₁ ++ ops₂ → (afterOps env s ops₁).1.processExited = true →
    (afterOps env s ops₁).1.suspended = false ∧
    throttleKills (afterOps env s ops).2 = throttleKills (afterOps env s ops₁).2

/-- No `update` after `process_exited` was set reads over the budget. -/
def NoLateOverrun (env : World) (s : CpuThrottleState × Trace) (ops : List ThrottleOp) : Prop :=
  ∀ ops₁ cfg nowNs ops₂, ops = ops₁ ++ .update cfg nowNs :: ops₂ →
    (afterOps env s ops₁).1.processExited = true →
    overrun env (afterOps env s ops₁) cfg nowNs = false

theorem new_clean {env : World} {pid : Int} {startNs : Nat} {st : CpuThrottleState} {l : Trace}
    (hnew : (CpuThrottleState.new pid startNs).run env [] = (some (.ok st), l)) :
    GoneClean st := by
  unfold CpuThrottleState.new at hnew
  simp only [Prog.run, Prod.mk.injEq, Option.some.injEq] at hnew
  split at hnew
  · cases hnew.1
  · cases hnew.1
    exact fun _ => rfl

/-- Once the process is known to be gone the throttle is silent, exactly when no
    `update` from then on reads over the budget. -/
theorem silent_iff_no_late_overrun (env : World) (pid : Int) (startNs : Nat)
    (st : CpuThrottleState) (l : Trace)
    (hnew : (CpuThrottleState.new pid startNs).run env [] = (some (.ok st), l))
    (ops : List ThrottleOp) :
    SilentOnceGone env (st, l) ops ↔ NoLateOverrun env (st, l) ops := by
  constructor
  · intro hsilent ops₁ cfg nowNs ops₂ hops hx
    obtain ⟨hs, hkills⟩ := hsilent ops₁ (.update cfg nowNs :: ops₂) hops hx
    by_contra hover
    have hsig := overrun_signals hs (by simpa using hover : overrun env _ cfg nowNs = true)
    have hmono := throttleKills_length_mono
      (afterOps_extends env ops₂ (afterOp env (afterOps env (st, l) ops₁) (.update cfg nowNs)))
    rw [hops, afterOps_append] at hkills
    change throttleKills (afterOps env (afterOp env _ _) ops₂).2 = _ at hkills
    rw [hkills, hsig] at hmono
    simp at hmono
  · intro hlate ops₁ ops₂ hops hx
    obtain ⟨hc, -⟩ := afterOps_clean env (s := (st, l)) ops₁ (new_clean hnew)
      fun ops₃ cfg nowNs ops₄ heq => hlate ops₃ cfg nowNs (ops₄ ++ ops₂) (by rw [hops, heq]; simp)
    obtain ⟨-, hrest⟩ := afterOps_clean env ops₂ hc fun ops₃ cfg nowNs ops₄ heq hx' => by
      rw [← afterOps_append] at hx' ⊢
      exact hlate (ops₁ ++ ops₃) cfg nowNs ops₄ (by rw [hops, heq]; simp) hx'
    refine ⟨hc hx, ?_⟩
    rw [hops, afterOps_append]
    exact hrest hx

/-- A process that has used no CPU time when the throttle attaches and 100 ns at every
    later reading. -/
def burstWorld : World := Machine.world {
  rusage := fun l => some ⟨if l.isEmpty then 0 else 100, 0, 0⟩ }

def halfCpu : CpuThrottleConfig := { percent := 50, intervalNs := 10, sleepNs := 10 }

/-- The state and log `burstWorld` leaves after `new` at 0. -/
def burstStart : CpuThrottleState × Trace :=
  ({ pid := 7, startCpuNs := 0, startWallNs := 0, lastCpuNs := 0, lastWallNs := 0 },
    [⟨⟨.throttle, .procPidRusage 7⟩, some ⟨0, 0, 0⟩⟩])

/-- An `update` after `mark_process_exited` stops whoever has the pid now. -/
theorem late_overrun_signals :
    (CpuThrottleState.new 7 0).run burstWorld [] = (some (.ok burstStart.1), burstStart.2) ∧
    (afterOps burstWorld burstStart [.markProcessExited]).1.processExited = true ∧
    throttleKills (afterOps burstWorld burstStart [.markProcessExited]).2 = [] ∧
    throttleKills (afterOps burstWorld burstStart [.markProcessExited, .update halfCpu 10]).2 =
      [SIGSTOP] ∧
    ¬ SilentOnceGone burstWorld burstStart [.markProcessExited, .update halfCpu 10] := by
  refine ⟨by rfl, by rfl, by rfl, by rfl, fun h => ?_⟩
  have := (h [.markProcessExited] [.update halfCpu 10] rfl rfl).2
  exact absurd this (by decide)

/-- Over the budget at 10, stopped and started again; gone, and looked at once more, at 1000,
    within the budget. -/
def burstOps : List ThrottleOp :=
  [.update halfCpu 10, .update halfCpu 400, .resume, .markProcessExited, .update halfCpu 1000,
    .drop]

theorem burst_noLateOverrun : NoLateOverrun burstWorld burstStart burstOps := by
  intro ops₁ cfg nowNs ops₂ hops hx
  have htake : burstOps.take ops₁.length = ops₁ := by rw [hops, List.take_left]
  have hdrop : burstOps.drop ops₁.length = .update cfg nowNs :: ops₂ := by
    rw [hops, List.drop_left]
  generalize ops₁.length = n at htake hdrop
  subst htake
  -- the updates are the operations 0, 1 and 4, and only the last comes after the mark
  rcases n with _ | _ | _ | _ | _ | _ | n
  · cases hx
  · cases hx
  · cases hdrop
  · cases hdrop
  · cases hdrop
    decide +kernel
  · cases hdrop
  · exact absurd hdrop (by simp [burstOps])

theorem silent_iff_no_late_overrun_burst :
    SilentOnceGone burstWorld burstStart burstOps ∧
      throttleKills (afterOps burstWorld burstStart burstOps).2 = [SIGCONT, SIGSTOP] :=
  ⟨(silent_iff_no_late_overrun burstWorld 7 0 burstStart.1 burstStart.2 (by rfl) burstOps).mpr
    burst_noLateOverrun, by decide +kernel⟩

/-! ## The overshoot of the controller -/

/-- One `update` that reads the process, with `kill` succeeding: the flag follows the
    comparison, and agrees with the signal delivered last. -/
theorem afterOp_update {env : World} {s : CpuThrottleState × Trace} (cfg : CpuThrottleConfig)
    (nowNs : Nat) {info : RusageInfo}
    (hkill : ∀ l pid sig, env l ⟨.throttle, .kill pid sig⟩ = .ok ())
    (hread : nextReading env s = some info) (hflag : s.1.suspended = heldStopped s.2) :
    let s' := afterOp env s (.update cfg nowNs)
    s'.1.pid = s.1.pid ∧ s'.1.startCpuNs = s.1.startCpuNs ∧ s'.1.startWallNs = s.1.startWallNs ∧
    s'.1.suspended = heldStopped s'.2 ∧
    s'.1.suspended = (if s.1.totalWallNs nowNs = 0 then s.1.suspended
      else s.1.overBudget cfg nowNs info.cpuTimeNs) := by
  apply afterOp_of_ensures (P := fun st l => st.pid = s.1.pid ∧
    st.startCpuNs = s.1.startCpuNs ∧ st.startWallNs = s.1.startWallNs ∧
    st.suspended = heldStopped l ∧ st.suspended = (if s.1.totalWallNs nowNs = 0 then s.1.suspended
      else s.1.overBudget cfg nowNs info.cpuTimeNs))
  show Act.Ensures _ (CpuThrottleState.update cfg nowNs >>= _) _ _ _
  rw [Act.ensures_bind, CpuThrottleState.ensures_update]
  intro r hr
  refine ⟨trivial, ?_⟩
  change r = nextReading env s at hr
  rw [hread] at hr
  subst hr
  -- reading the counters is no signal
  have hheld : heldStopped (⟨⟨.throttle, .procPidRusage s.1.pid⟩, some info⟩ :: s.2) =
      heldStopped s.2 := by simp [heldStopped, throttleDelivered]
  dsimp only
  by_cases hwall : s.1.totalWallNs nowNs = 0
  · rw [if_pos hwall, if_pos hwall]
    exact ⟨rfl, rfl, rfl, hflag.trans hheld.symm, rfl⟩
  · rw [if_neg hwall, if_neg hwall, CpuThrottleState.ensures_steer]
    cases hover : s.1.overBudget cfg nowNs info.cpuTimeNs <;>
    cases hsus : s.1.suspended <;>
    simp only [Bool.and_true, Bool.and_false, Bool.not_true, Bool.not_false, if_true, if_false,
      Bool.false_eq_true]
    · exact ⟨rfl, rfl, rfl, by rw [hheld, ← hflag]; rfl, hsus⟩
    · intro a ha
      change a = _ at ha
      rw [ha, hkill]
      refine ⟨trivial, rfl, rfl, rfl, ?_, rfl⟩
      simp [CpuThrottleState.recordReading, Except.toBool, heldStopped, throttleDelivered]
      decide
    · intro a ha
      change a = _ at ha
      rw [ha, hkill]
      refine ⟨trivial, rfl, rfl, rfl, ?_, rfl⟩
      simp [CpuThrottleState.recordReading, Except.toBool, heldStopped, throttleDelivered]
    · exact ⟨rfl, rfl, rfl, by rw [hheld, ← hflag]; rfl, hsus⟩

/-- Every further reading fails: the process is gone. -/
def Vanished (env : World) (cfg : CpuThrottleConfig) (s : CpuThrottleState × Trace) :
    List Nat → Prop
  | [] => True
  | nowNs :: times => nextReading env s = none ∧
    Vanished env cfg (afterOp env s (.update cfg nowNs)) times

/-- What the process and the clock do between the updates at `times`, from a sample of
    `cpuNs` at `wallNs`: time and CPU time do not go back, the updates are at most `D`
    apart, and the process uses at most `C` ns of CPU per ns while it runs and none
    while the throttle holds it stopped. -/
def Feasible (env : World) (cfg : CpuThrottleConfig) (C : NNReal) (D : Nat) :
    CpuThrottleState × Trace → (cpuNs wallNs : Nat) → List Nat → Prop
  | _, _, _, [] => True
  | s, cpuNs, wallNs, nowNs :: times =>
    wallNs ≤ nowNs ∧ nowNs - wallNs ≤ D ∧ (nowNs - s.1.startWallNs) * cfg.percent / 100 < 2 ^ 64 ∧
    match nextReading env s with
    | none => Vanished env cfg (afterOp env s (.update cfg nowNs)) times
    | some info =>
      cpuNs ≤ info.cpuTimeNs ∧
      (heldStopped s.2 = true → info.cpuTimeNs = cpuNs) ∧
      (heldStopped s.2 = false →
        ((info.cpuTimeNs - cpuNs : Nat) : NNReal) ≤ C * ((nowNs - wallNs : Nat) : NNReal)) ∧
      Feasible env cfg C D (afterOp env s (.update cfg nowNs)) info.cpuTimeNs nowNs times

/-- At every update at `times` the CPU time used since attach is within the budget plus
    `C * D`. -/
def WithinBudget (env : World) (cfg : CpuThrottleConfig) (C : NNReal) (D : Nat) :
    CpuThrottleState × Trace → List Nat → Prop
  | _, [] => True
  | s, nowNs :: times =>
    (∀ info, nextReading env s = some info →
      ((s.1.totalCpuNs info.cpuTimeNs : Nat) : NNReal) ≤
        ((s.1.totalWallNs nowNs * cfg.percent / 100 : Nat) : NNReal) + C * D) ∧
    WithinBudget env cfg C D (afterOp env s (.update cfg nowNs)) times

theorem Vanished.withinBudget {env : World} {cfg : CpuThrottleConfig} {C : NNReal} {D : Nat} :
    ∀ {times : List Nat} {s : CpuThrottleState × Trace},
      Vanished env cfg s times → WithinBudget env cfg C D s times
  | [], _, _ => trivial
  | _ :: _, _, h => by
    refine ⟨fun info hread => ?_, Vanished.withinBudget h.2⟩
    rw [h.1] at hread
    cases hread

/-- The invariant of the controller at a sample `(cpuNs, wallNs)`: the flag is the real
    stop state, the CPU time is within the bound, and within the budget itself while the
    process runs. -/
structure Sampled (cfg : CpuThrottleConfig) (C : NNReal) (D : Nat)
    (s : CpuThrottleState × Trace) (cpuNs wallNs : Nat) : Prop where
  flag : s.1.suspended = heldStopped s.2
  cpu_le : s.1.startCpuNs ≤ cpuNs
  wall_le : s.1.startWallNs ≤ wallNs
  bound : ((cpuNs - s.1.startCpuNs : Nat) : NNReal) ≤
    (((wallNs - s.1.startWallNs) * cfg.percent / 100 : Nat) : NNReal) + C * D
  running : heldStopped s.2 = false →
    cpuNs - s.1.startCpuNs ≤ (wallNs - s.1.startWallNs) * cfg.percent / 100

theorem budget_mono {a b : Nat} (percent : Nat) (h : a ≤ b) :
    a * percent / 100 ≤ b * percent / 100 :=
  Nat.div_le_div_right (Nat.mul_le_mul_right percent h)

/-- The bound at the next update, from the invariant at the last sample. -/
theorem Sampled.next_bound {cfg : CpuThrottleConfig} {C : NNReal} {D : Nat}
    {s : CpuThrottleState × Trace} {cpuNs wallNs cpuNs' nowNs : Nat}
    (h : Sampled cfg C D s cpuNs wallNs) (hwall : wallNs ≤ nowNs) (hD : nowNs - wallNs ≤ D)
    (hcpu : cpuNs ≤ cpuNs') (hheld : heldStopped s.2 = true → cpuNs' = cpuNs)
    (hrun : heldStopped s.2 = false →
      ((cpuNs' - cpuNs : Nat) : NNReal) ≤ C * ((nowNs - wallNs : Nat) : NNReal)) :
    ((cpuNs' - s.1.startCpuNs : Nat) : NNReal) ≤
      (((nowNs - s.1.startWallNs) * cfg.percent / 100 : Nat) : NNReal) + C * D := by
  have hbudget : (wallNs - s.1.startWallNs) * cfg.percent / 100 ≤
      (nowNs - s.1.startWallNs) * cfg.percent / 100 :=
    budget_mono cfg.percent (Nat.sub_le_sub_right hwall _)
  cases hst : heldStopped s.2 with
  | true =>
    rw [hheld hst]
    exact h.bound.trans (add_le_add_left (Nat.cast_le.mpr hbudget) _)
  | false =>
    have hsplit : cpuNs' - s.1.startCpuNs = (cpuNs - s.1.startCpuNs) + (cpuNs' - cpuNs) := by
      have := h.cpu_le
      omega
    have hgrow : C * ((nowNs - wallNs : Nat) : NNReal) ≤ C * D :=
      mul_le_mul_right (Nat.cast_le.mpr hD) C
    rw [hsplit, Nat.cast_add]
    exact add_le_add (Nat.cast_le.mpr ((h.running hst).trans hbudget))
      ((hrun hst).trans hgrow)

theorem Feasible.withinBudget {env : World} {cfg : CpuThrottleConfig} {C : NNReal} {D : Nat}
    (hkill : ∀ l pid sig, env l ⟨.throttle, .kill pid sig⟩ = .ok ()) (times : List Nat) :
    ∀ {s : CpuThrottleState × Trace} {cpuNs wallNs : Nat}, Sampled cfg C D s cpuNs wallNs →
      Feasible env cfg C D s cpuNs wallNs times → WithinBudget env cfg C D s times := by
  induction times with
  | nil => intros; trivial
  | cons nowNs times ih =>
    intro s cpuNs wallNs hs ⟨hwall, hD, hfit, hrest⟩
    cases hread : nextReading env s with
    | none =>
      rw [hread] at hrest
      refine ⟨fun info h => ?_, hrest.withinBudget⟩
      rw [hread] at h
      cases h
    | some info =>
      rw [hread] at hrest
      obtain ⟨hcpu, hheld, hrun, hrest⟩ := hrest
      -- the last sample and the rate bound this one
      have hbound := hs.next_bound hwall hD hcpu hheld hrun
      refine ⟨fun info' h => ?_, ?_⟩
      · rw [hread] at h
        cases h
        exact hbound
      obtain ⟨-, hstartCpu, hstartWall, hflag', hsus'⟩ :=
        afterOp_update cfg nowNs hkill hread hs.flag
      refine ih ⟨hflag', ?_, ?_, ?_, ?_⟩ hrest
      · rw [hstartCpu]; exact hs.cpu_le.trans hcpu
      · rw [hstartWall]; exact hs.wall_le.trans hwall
      · rw [hstartCpu, hstartWall]; exact hbound
      -- a process that was left running was within its budget at this sample
      · intro hrunning
        rw [hstartCpu, hstartWall]
        rw [hflag', hrunning] at hsus'
        by_cases hzero : s.1.totalWallNs nowNs = 0
        · -- no wall time has passed since attach, so none since the last sample
          rw [if_pos hzero, hs.flag] at hsus'
          have hsame : nowNs - wallNs = 0 := by
            have := hs.wall_le
            simp only [CpuThrottleState.totalWallNs] at hzero
            omega
          have hgrow := hrun hsus'.symm
          rw [hsame, Nat.cast_zero, mul_zero] at hgrow
          have hsameCpu : info.cpuTimeNs - cpuNs = 0 := by
            exact_mod_cast le_antisymm hgrow zero_le
          have hbudget := budget_mono cfg.percent (Nat.sub_le_sub_right hwall s.1.startWallNs)
          have := hs.running hsus'.symm
          omega
        · rw [if_neg hzero] at hsus'
          have hle := of_decide_eq_false hsus'.symm
          simp only [cpuBudgetNs, CpuThrottleState.totalWallNs, CpuThrottleState.totalCpuNs,
            Nat.mod_eq_of_lt hfit] at hle
          omega

/-- The CPU time used since attach never exceeds the budget by more than what the process
    can use in one sampling interval. -/
theorem overshoot_bounded (env : World) (cfg : CpuThrottleConfig) (C : NNReal) (D : Nat)
    (pid : Int) (startNs : Nat) (st : CpuThrottleState) (l : Trace)
    (hnew : (CpuThrottleState.new pid startNs).run env [] = (some (.ok st), l))
    (hkill : ∀ l pid sig, env l ⟨.throttle, .kill pid sig⟩ = .ok ()) (times : List Nat)
    (hfeasible : Feasible env cfg C D (st, l) st.startCpuNs startNs times) :
    WithinBudget env cfg C D (st, l) times := by
  refine hfeasible.withinBudget hkill times ?_
  unfold CpuThrottleState.new at hnew
  simp only [Prog.run, Prod.mk.injEq, Option.some.injEq] at hnew
  obtain ⟨hst, rfl⟩ := hnew
  split at hst
  · cases hst
  · cases hst
    refine ⟨?_, le_refl _, le_refl _, ?_, fun _ => by simp⟩
    · simp [heldStopped, lastThrottleSignal, throttleDelivered]
    · simp

/-- CPU time 0 at attach, 10 at 10 and, stopped there, at 20, 20 at 30. -/
def steadyWorld : World := Machine.world {
  rusage := fun l => some ⟨[0, 10, 10, 20].getD
    (l.countP fun e => e.req == ⟨.throttle, .procPidRusage 7⟩) 0, 0, 0⟩ }

theorem overshoot_bounded_steady :
    WithinBudget steadyWorld halfCpu 1 10 burstStart [10, 20, 30] := by
  refine overshoot_bounded steadyWorld halfCpu 1 10 7 0 burstStart.1 burstStart.2 (by rfl)
    (fun _ _ _ => rfl) [10, 20, 30] ?_
  refine ⟨by decide, by decide, by decide, by decide, fun h => absurd h (by decide), ?_, ?_⟩
  · exact fun _ => by rw [one_mul]; exact Nat.cast_le.mpr (by decide)
  refine ⟨by decide, by decide, by decide, by decide, fun _ => by decide,
    fun h => absurd h (by decide), ?_⟩
  refine ⟨by decide, by decide, by decide, by decide, fun h => absurd h (by decide), ?_, trivial⟩
  exact fun _ => by rw [one_mul]; exact Nat.cast_le.mpr (by decide)

end Procguard
