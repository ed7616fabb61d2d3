import Procguard.Retry

/- The delay between two attempts as a number. With a factor above one it is taken in
   whole milliseconds and capped at five minutes, without one it is the configured delay,
   so the two agree on delays that are neither fractions of a millisecond nor longer. -/
namespace Procguard

/-- The whole duration in nanoseconds, however long. -/
def Duration.totalNanos (d : Duration) : Nat := d.asSecs * 1000000000 + d.subsecNanos

/-- The delay after attempt number `attempt` with that factor, in nanoseconds. -/
def delayNanos (config : RunConfig) (factor attempt : Nat) : Nat :=
  (retryDelayOf { config with retryBackoff := factor } attempt).totalNanos

/-! ## Saturation -/

theorem satPow_eq {base : Nat} (hb : 0 < base) (n : Nat) : satPow base n = min (base ^ n) u64Max := by
  induction n with
  | zero => rfl
  | succ n ih =>
    have hstep : u64Max ≤ u64Max * base := Nat.le_mul_of_pos_right _ hb
    rw [satPow, ih, satMul, Nat.pow_succ]
    by_cases h : base ^ n ≤ u64Max
    · rw [Nat.min_eq_left h]
    · have hlarge : u64Max * base ≤ base ^ n * base := Nat.mul_le_mul_right _ (Nat.le_of_not_le h)
      have hwide : u64Max ≤ base ^ n * base := Nat.le_trans hstep hlarge
      rw [Nat.min_eq_right (Nat.le_of_not_le h), Nat.min_eq_right hstep, Nat.min_eq_right hwide]

/-- Whatever saturates is above the cap anyway. -/
theorem capped_product {ms base : Nat} (hb : 0 < base) (n : Nat) :
    min (satMul ms (satPow base n)) maxDelayMs = min (ms * base ^ n) maxDelayMs := by
  have hcap : maxDelayMs ≤ u64Max := by decide
  rw [satMul, satPow_eq hb, Nat.min_assoc, Nat.min_eq_right hcap]
  by_cases h : base ^ n ≤ u64Max
  · rw [Nat.min_eq_left h]
  · have hpow : u64Max ≤ base ^ n := Nat.le_of_not_le h
    rw [Nat.min_eq_right hpow]
    cases ms with
    | zero => simp only [Nat.zero_mul]
    | succ ms =>
      have hleft : maxDelayMs ≤ (ms + 1) * u64Max :=
        Nat.le_trans hcap (Nat.le_mul_of_pos_left _ (Nat.succ_pos ms))
      have hright : maxDelayMs ≤ (ms + 1) * base ^ n :=
        Nat.le_trans (Nat.le_trans hcap hpow) (Nat.le_mul_of_pos_left _ (Nat.succ_pos ms))
      rw [Nat.min_eq_right hleft, Nat.min_eq_right hright]

theorem fromMillis_totalNanos {ms : Nat} (h : ms ≤ u64Max) :
    (Duration.fromMillis ms h).totalNanos = ms * 1000000 := by
  unfold Duration.fromMillis Duration.totalNanos
  dsimp only
  omega

section delay
variable {config : RunConfig} {factor attempt : Nat}

theorem delayNanos_one (config : RunConfig) (attempt : Nat) :
    delayNanos config 1 attempt = config.retryDelay.totalNanos := by
  rw [delayNanos, retryDelayOf, if_neg (Nat.lt_irrefl 1)]

/-- Neither the power nor the product wraps. -/
theorem delayNanos_backoff (hf : 1 < factor) :
    delayNanos config factor attempt =
      min (durationMs config.retryDelay * factor ^ attempt) maxDelayMs * 1000000 := by
  rw [delayNanos, retryDelayOf, if_pos hf, fromMillis_totalNanos]
  dsimp only
  rw [capped_product (by omega)]

/-- A delay that the two ways of computing it agree on. -/
def WholeMillis (d : Duration) : Prop :=
  d.subsecNanos % 1000000 = 0 ∧ d.totalNanos ≤ 300000000000

theorem wholeMillis_iff {d : Duration} :
    WholeMillis d ↔ min (durationMs d) maxDelayMs * 1000000 = d.totalNanos := by
  have hcap : maxDelayMs = 300000 := rfl
  have hmax : u64Max = 18446744073709551615 := rfl
  have hnanos := d.nanos_lt
  unfold WholeMillis durationMs satAdd satMul Duration.subsecMillis Duration.totalNanos
  rw [hcap, hmax]
  omega

/-- With such a delay, all factors are alike. -/
theorem delayNanos_whole (hd : WholeMillis config.retryDelay) (hf : 1 ≤ factor) :
    delayNanos config factor attempt =
      min (durationMs config.retryDelay * factor ^ attempt) maxDelayMs * 1000000 := by
  rcases Nat.eq_or_lt_of_le hf with rfl | hlt
  · rw [delayNanos_one, Nat.one_pow, Nat.mul_one]
    exact (wholeMillis_iff.mp hd).symm
  · exact delayNanos_backoff hlt

end delay

/-! ## The delay only lengthens -/

/-- Backoff only lengthens the delay, up to five minutes. -/
structure Lengthens (config : RunConfig) : Prop where
  atLeast : ∀ factor attempt, 1 ≤ factor →
    config.retryDelay.totalNanos ≤ delayNanos config factor attempt
  first : ∀ factor, 1 ≤ factor → delayNanos config factor 0 = config.retryDelay.totalNanos
  attempt_mono : ∀ factor k k', 1 ≤ factor → k ≤ k' →
    delayNanos config factor k ≤ delayNanos config factor k'
  factor_mono : ∀ b b' attempt, 1 ≤ b → b ≤ b' →
    delayNanos config b attempt ≤ delayNanos config b' attempt
  capped : ∀ factor attempt, 1 ≤ factor →
    delayNanos config factor attempt ≤ max config.retryDelay.totalNanos 300000000000

theorem lengthens_of_wholeMillis {config : RunConfig} (hd : WholeMillis config.retryDelay) :
    Lengthens config := by
  have hmin : ∀ {a b : Nat}, a ≤ b → min a maxDelayMs * 1000000 ≤ min b maxDelayMs * 1000000 := by
    intro a b hab
    apply Nat.mul_le_mul_right
    omega
  have hmono : ∀ factor k k', 1 ≤ factor → k ≤ k' →
      delayNanos config factor k ≤ delayNanos config factor k' := by
    intro factor k k' hf hk
    rw [delayNanos_whole hd hf, delayNanos_whole hd hf]
    apply hmin
    exact Nat.mul_le_mul_left _ (Nat.pow_le_pow_right hf hk)
  have hfirst : ∀ factor, 1 ≤ factor →
      delayNanos config factor 0 = config.retryDelay.totalNanos := by
    intro factor hf
    rw [delayNanos_whole hd hf, Nat.pow_zero, Nat.mul_one]
    exact wholeMillis_iff.mp hd
  refine ⟨?_, hfirst, hmono, ?_, ?_⟩
  · intro factor attempt hf
    calc config.retryDelay.totalNanos = delayNanos config factor 0 := (hfirst factor hf).symm
      _ ≤ delayNanos config factor attempt := hmono factor 0 attempt hf (Nat.zero_le _)
  · intro b b' attempt hb hbb
    rw [delayNanos_whole hd hb, delayNanos_whole hd (Nat.le_trans hb hbb)]
    apply hmin
    exact Nat.mul_le_mul_left _ (Nat.pow_le_pow_left hbb _)
  · intro factor attempt hf
    rw [delayNanos_whole hd hf]
    have hcap : min (durationMs config.retryDelay * factor ^ attempt) maxDelayMs ≤ 300000 :=
      Nat.min_le_right _ _
    omega

/-- **Backoff only lengthens the delay** if and only if the configured delay is a whole number of
    milliseconds, and no more than five minutes; the power and the product never wrap. -/
theorem backoff_lengthens_iff (config : RunConfig) :
    (Lengthens config ↔ WholeMillis config.retryDelay) ∧
    (∀ attempt, delayNanos config 1 attempt = config.retryDelay.totalNanos) ∧
    ∀ factor attempt, 1 < factor → delayNanos config factor attempt =
      min (durationMs config.retryDelay * factor ^ attempt) maxDelayMs * 1000000 := by
  refine ⟨⟨?_, lengthens_of_wholeMillis⟩, delayNanos_one config, fun _ _ => delayNanos_backoff⟩
  intro h
  have hfirst := h.first 2 (by decide)
  rw [delayNanos_backoff (by decide), Nat.pow_zero, Nat.mul_one] at hfirst
  exact wholeMillis_iff.mpr hfirst

/-- A delay of ten minutes is cut to five, from the first attempt on. -/
theorem ten_minutes_cut : ¬∀ config : RunConfig, Lengthens config := by
  intro h
  have hwhole := (backoff_lengthens_iff { retryDelay := { asSecs := 600 } }).1.mp (h _)
  exact absurd hwhole.2 (by decide)

end Procguard
