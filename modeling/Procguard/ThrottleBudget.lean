import Procguard.ThrottleControl

/- One decision of the throttle against exact arithmetic. The budget is a product of a
   64-bit time and a 32-bit percentage, divided in 128 bits and cut back to 64; as long as
   nothing is cut off, dividing first and comparing after loses nothing. -/
namespace Procguard
open Interact

namespace CpuThrottleState

/-- The CPU time is more than its percentage of the wall time. -/
def Exceeds (st : CpuThrottleState) (cfg : CpuThrottleConfig) (nowNs cpuNs : Nat) : Prop :=
  st.totalWallNs nowNs * cfg.percent < st.totalCpuNs cpuNs * 100

/-- The budget before it is cut back to 64 bits. -/
def wideBudget (st : CpuThrottleState) (cfg : CpuThrottleConfig) (nowNs : Nat) : Nat :=
  st.totalWallNs nowNs * cfg.percent / 100

/-- The budget fits 64 bits, or what is left of it is still no less than the CPU time. -/
def Fits (st : CpuThrottleState) (cfg : CpuThrottleConfig) (nowNs cpuNs : Nat) : Prop :=
  st.wideBudget cfg nowNs < 2 ^ 64 ∨ st.totalCpuNs cpuNs ≤ st.wideBudget cfg nowNs % 2 ^ 64

section budget
variable {st : CpuThrottleState} {cfg cfg' : CpuThrottleConfig} {nowNs nowNs' cpuNs : Nat}

theorem overBudget_iff :
    st.overBudget cfg nowNs cpuNs = true ↔
      st.wideBudget cfg nowNs % 2 ^ 64 < st.totalCpuNs cpuNs := by
  rw [overBudget, cpuBudgetNs, decide_eq_true_eq]
  rfl

theorem exceeds_iff : st.Exceeds cfg nowNs cpuNs ↔ st.wideBudget cfg nowNs < st.totalCpuNs cpuNs :=
  (Nat.div_lt_iff_lt_mul (by decide)).symm

/-- The comparison is the exact one, as long as the budget fits. -/
theorem overBudget_exact (hcpu : cpuNs ≤ u64Max) :
    (st.overBudget cfg nowNs cpuNs = true ↔ st.Exceeds cfg nowNs cpuNs) ↔
      st.Fits cfg nowNs cpuNs := by
  have hmax : u64Max < 2 ^ 64 := by decide
  have htotal : st.totalCpuNs cpuNs ≤ cpuNs := Nat.sub_le _ _
  rw [overBudget_iff, exceeds_iff, Fits]
  by_cases hfits : st.wideBudget cfg nowNs < 2 ^ 64
  · rw [Nat.mod_eq_of_lt hfits]
    exact iff_of_true Iff.rfl (.inl hfits)
  · omega

/-- More percent and more time leave more budget. -/
theorem Exceeds.mono (hp : cfg.percent ≤ cfg'.percent) (hn : nowNs ≤ nowNs')
    (h : st.Exceeds cfg' nowNs' cpuNs) : st.Exceeds cfg nowNs cpuNs := by
  unfold Exceeds at h ⊢
  have hwall : st.totalWallNs nowNs ≤ st.totalWallNs nowNs' := Nat.sub_le_sub_right hn _
  calc st.totalWallNs nowNs * cfg.percent
      ≤ st.totalWallNs nowNs' * cfg'.percent := Nat.mul_le_mul hwall hp
    _ < st.totalCpuNs cpuNs * 100 := h

end budget

theorem cpuTimeNs_le (info : RusageInfo) : info.cpuTimeNs ≤ u64Max := by
  unfold RusageInfo.cpuTimeNs satAdd
  exact Nat.min_le_right _ _

end CpuThrottleState

/-- A reading of the child, and signals that arrive. -/
def obeying (info : RusageInfo) : World := Machine.world { rusage := fun _ => some info }

/-- One `update`, as `env` answers it. -/
def updateRun (env : World) (cfg : CpuThrottleConfig) (nowNs : Nat) (st : CpuThrottleState) :
    Option (Except TimeoutError Bool × CpuThrottleState) × Trace :=
  (CpuThrottleState.update cfg nowNs st).run env []

/-- What one `update` does is the comparison of the budget. -/
structure Decided (env : World) (st : CpuThrottleState) (exceeded : Bool) (l : Trace) (b : Bool) :
    Prop where
  stop : SIGSTOP ∈ throttleKills l → exceeded = true
  cont : SIGCONT ∈ throttleKills l → exceeded = false
  told : (∀ l sig, env l ⟨.throttle, .kill st.pid sig⟩ = .ok ()) → b = exceeded

theorem update_decided {env : World} {cfg : CpuThrottleConfig} {nowNs : Nat}
    {st : CpuThrottleState} {info : RusageInfo} (hwall : st.totalWallNs nowNs ≠ 0)
    (hread : env [] ⟨.throttle, .procPidRusage st.pid⟩ = some info) :
    ∃ b st', (updateRun env cfg nowNs st).1 = some (.ok b, st') ∧
      Decided env st (st.overBudget cfg nowNs info.cpuTimeNs) (updateRun env cfg nowNs st).2 b := by
  have hensures : (CpuThrottleState.update cfg nowNs).Ensures (Prog.answers env) st [] fun r _ l =>
      ∃ b, r = .ok b ∧ Decided env st (st.overBudget cfg nowNs info.cpuTimeNs) l b := by
    rw [CpuThrottleState.ensures_update]
    intro r hr
    refine ⟨trivial, ?_⟩
    change r = env [] _ at hr
    rw [hread] at hr
    subst hr
    dsimp only
    rw [if_neg hwall, CpuThrottleState.ensures_steer]
    generalize st.overBudget cfg nowNs info.cpuTimeNs = exceeded
    -- the two signals differ, so one of them is never taken for the other
    have hne : SIGCONT ≠ SIGSTOP := by decide
    split
    · next hstop =>
      intro a ha
      change a = env _ _ at ha
      obtain ⟨hexceeded, hsus⟩ := Bool.and_eq_true_iff.mp hstop
      refine ⟨trivial, _, rfl, fun _ => hexceeded, ?_, ?_⟩
      · intro hmem
        change SIGCONT ∈ [SIGSTOP] at hmem
        exact absurd (List.mem_singleton.mp hmem) hne
      · intro hkill
        rw [hkill] at ha
        subst ha
        rw [hexceeded]
        rfl
    · split
      · next hcont =>
        intro a ha
        change a = env _ _ at ha
        obtain ⟨hexceeded, hsus⟩ := Bool.and_eq_true_iff.mp hcont
        rw [Bool.not_eq_true'] at hexceeded
        refine ⟨trivial, _, rfl, ?_, fun _ => hexceeded, ?_⟩
        · intro hmem
          change SIGSTOP ∈ [SIGCONT] at hmem
          exact absurd (List.mem_singleton.mp hmem).symm hne
        · intro hkill
          rw [hkill] at ha
          subst ha
          rw [hexceeded]
          rfl
      · next hstop hcont =>
        refine ⟨_, rfl, nofun, nofun, fun _ => ?_⟩
        cases exceeded <;> cases hsus : st.suspended <;> simp_all
  obtain ⟨⟨r, st'⟩, hrun, b, rfl, hdec⟩ := Prog.Ensures.on_run hensures
  exact ⟨b, st', hrun, hdec⟩

/-- The throttle steers by exact arithmetic: a stop only over the budget, a continue only
    within it, and, when the signals arrive, the answer is whether the budget is exceeded. -/
def StopsExactly (env : World) (cfg : CpuThrottleConfig) (nowNs : Nat) (st : CpuThrottleState)
    (cpuNs : Nat) : Prop :=
  ∃ b st', (updateRun env cfg nowNs st).1 = some (.ok b, st') ∧
    (SIGSTOP ∈ throttleKills (updateRun env cfg nowNs st).2 → st.Exceeds cfg nowNs cpuNs) ∧
    (SIGCONT ∈ throttleKills (updateRun env cfg nowNs st).2 → ¬st.Exceeds cfg nowNs cpuNs) ∧
    ((∀ l sig, env l ⟨.throttle, .kill st.pid sig⟩ = .ok ()) →
      (b = true ↔ st.Exceeds cfg nowNs cpuNs))

/-- **The throttle stops exactly the over-budget child**, whatever the answers to its signals,
    if and only if the budget fits; then a larger percentage and more wall time do not stop a
    child that would otherwise run. -/
theorem stops_exactly_iff {cfg : CpuThrottleConfig} {nowNs : Nat} {st : CpuThrottleState}
    {info : RusageInfo} (hwall : st.totalWallNs nowNs ≠ 0) :
    ((∀ env, env [] ⟨.throttle, .procPidRusage st.pid⟩ = some info →
      StopsExactly env cfg nowNs st info.cpuTimeNs) ↔ st.Fits cfg nowNs info.cpuTimeNs) ∧
    ∀ cfg' nowNs', cfg.percent ≤ cfg'.percent → nowNs ≤ nowNs' →
      st.Fits cfg nowNs info.cpuTimeNs → st.Fits cfg' nowNs' info.cpuTimeNs →
      ∀ st' st'', (updateRun (obeying info) cfg nowNs st).1 = some (.ok false, st') →
        (updateRun (obeying info) cfg' nowNs' st).1 ≠ some (.ok true, st'') := by
  -- where all signals arrive the answer is the comparison that was made
  have hobeys : ∀ cfg' nowNs', st.totalWallNs nowNs' ≠ 0 →
      ∃ st', (updateRun (obeying info) cfg' nowNs' st).1 =
        some (.ok (st.overBudget cfg' nowNs' info.cpuTimeNs), st') := by
    intro cfg' nowNs' hwall'
    obtain ⟨b, st', hrun, hdec⟩ := @update_decided (obeying info) cfg' nowNs' st info hwall' rfl
    obtain rfl := hdec.told fun _ _ => rfl
    exact ⟨st', hrun⟩
  have hcpu := CpuThrottleState.cpuTimeNs_le info
  refine ⟨⟨?_, ?_⟩, ?_⟩
  · intro hall
    obtain ⟨b, st', hrun, -, -, htold⟩ := hall (obeying info) rfl
    obtain ⟨st₁, hrun₁⟩ := hobeys cfg nowNs hwall
    rw [hrun₁] at hrun
    obtain rfl : st.overBudget cfg nowNs info.cpuTimeNs = b := by
      cases hrun
      rfl
    exact (CpuThrottleState.overBudget_exact hcpu).mp (htold fun _ _ => rfl)
  · intro hfits env hread
    obtain ⟨b, st', hrun, hdec⟩ := @update_decided env cfg nowNs st info hwall hread
    have hiff := (CpuThrottleState.overBudget_exact hcpu).mpr hfits
    refine ⟨b, st', hrun, fun h => hiff.mp (hdec.stop h), fun h hexc => ?_, fun hkill => ?_⟩
    · have hover := hiff.mpr hexc
      rw [hdec.cont h] at hover
      cases hover
    · rw [hdec.told hkill]
      exact hiff
  · intro cfg' nowNs' hp hn hfits hfits' st' st'' hrun hrun'
    have hwall' : st.totalWallNs nowNs' ≠ 0 := by
      unfold CpuThrottleState.totalWallNs at hwall ⊢
      omega
    obtain ⟨st₁, hrun₁⟩ := hobeys cfg nowNs hwall
    obtain ⟨st₂, hrun₂⟩ := hobeys cfg' nowNs' hwall'
    have hover : st.overBudget cfg nowNs info.cpuTimeNs = false := by
      rw [hrun₁] at hrun
      injection hrun with h
      injection (congrArg Prod.fst h)
    have hover' : st.overBudget cfg' nowNs' info.cpuTimeNs = true := by
      rw [hrun₂] at hrun'
      injection hrun' with h
      injection (congrArg Prod.fst h)
    have hexc' := ((CpuThrottleState.overBudget_exact hcpu).mpr hfits').mp hover'
    have hexc := ((CpuThrottleState.overBudget_exact hcpu).mpr hfits).mpr (hexc'.mono hp hn)
    rw [hover] at hexc
    cases hexc

/-- Attached at 0, nothing used. -/
def attached : CpuThrottleState :=
  { pid := 7, startCpuNs := 0, startWallNs := 0, lastCpuNs := 0, lastWallNs := 0 }

/-- A second of CPU time. -/
def oneSecond : RusageInfo := ⟨1000000000, 0, 0⟩

/-- The largest percentage that is accepted. -/
def widestCpu : CpuThrottleConfig := { percent := 2 ^ 32 - 1, intervalNs := 10, sleepNs := 10 }

theorem stops_exactly_half : attached.totalWallNs 1000000000 ≠ 0 ∧
    ((∀ env, env [] ⟨.throttle, .procPidRusage 7⟩ = some oneSecond →
      StopsExactly env halfCpu 1000000000 attached oneSecond.cpuTimeNs) ↔
        attached.Fits halfCpu 1000000000 oneSecond.cpuTimeNs) :=
  ⟨by decide, (@stops_exactly_iff halfCpu 1000000000 attached oneSecond (by decide)).1⟩

/-- A second of CPU time in seven minutes is stopped at the largest percentage. -/
theorem wide_budget_stops :
    ¬∀ env cfg nowNs st info, CpuThrottleState.totalWallNs st nowNs ≠ 0 →
      env [] ⟨.throttle, .procPidRusage st.pid⟩ = some info →
      StopsExactly env cfg nowNs st info.cpuTimeNs := by
  intro hall
  have hfits := (@stops_exactly_iff widestCpu 429496729701 attached oneSecond (by decide)).1.mp
    fun env hread => hall env _ _ _ _ (by decide) hread
  exact absurd hfits (by unfold CpuThrottleState.Fits; decide)

end Procguard
