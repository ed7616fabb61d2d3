import Mathlib

/- Times are u64 nanoseconds, kept as naturals with the source's own saturation
   written out: `satAdd` and `satMul` clamp at `u64Max`, and the one narrowing
   cast, to the isize a kevent timer takes, is `asIsize`. `Duration` carries the
   bounds of the standard library's type, so a value out of range cannot be
   built. -/
namespace Procguard

def u64Max : Nat := 2 ^ 64 - 1

/-- `u64::saturating_add`. -/
def satAdd (a b : Nat) : Nat := min (a + b) u64Max

/-- `u64::saturating_mul`. -/
def satMul (a b : Nat) : Nat := min (a * b) u64Max

/-- `x as isize`, which wraps from 2^63 on. -/
def asIsize (n : Nat) : Int := if n < 2 ^ 63 then n else (n : Int) - 2 ^ 64

/-- `x as i32` of an isize, which keeps the low 32 bits. -/
def asI32 (d : Int) : Int := d.bmod (2 ^ 32)

/-- `core::time::Duration`. -/
structure Duration where
  asSecs : Nat
  subsecNanos : Nat := 0
  secs_le : asSecs ≤ u64Max := by decide
  nanos_lt : subsecNanos < 1000000000 := by decide

namespace Duration

/-- `Duration::ZERO`. -/
def zero : Duration where asSecs := 0

/-- `Duration::from_secs`. -/
def fromSecs (secs : UInt64) : Duration where
  asSecs := secs.toNat
  secs_le := Nat.le_of_lt_succ secs.toNat_lt

/-- `Duration::from_millis`. -/
def fromMillis (ms : Nat) (h : ms ≤ u64Max) : Duration where
  asSecs := ms / 1000
  subsecNanos := ms % 1000 * 1000000
  secs_le := by omega
  nanos_lt := by omega

/-- A hundred milliseconds, the interval of the periodic checks. -/
theorem hundred_le : 100 ≤ u64Max := by decide

def isZero (d : Duration) : Bool := d.asSecs == 0 && d.subsecNanos == 0

def subsecMillis (d : Duration) : Nat := d.subsecNanos / 1000000

end Duration

/-- The largest timer a kevent takes: `isize::MAX`. -/
def maxTimerNs : Nat := 2 ^ 63 - 1

/-- Duration to nanoseconds, clamped for kqueue. -/
def durationToNs (d : Duration) : Nat :=
  min (satAdd (satMul d.asSecs 1000000000) d.subsecNanos) maxTimerNs

def durationMs (d : Duration) : Nat :=
  satAdd (satMul d.asSecs 1000) d.subsecMillis

/-- Zero duration = no timeout. -/
def isNoTimeout (d : Duration) : Bool := d.isZero

/-! The checked and clamped differences of `time_math`. -/

/-- `none` when the clock went backwards. -/
def elapsedNs (start now : Nat) : Option Nat := if start ≤ now then some (now - start) else none

def remainingNs (now deadline : Nat) : Nat := deadline - now

def deadlineReached (now deadline : Nat) : Bool := deadline ≤ now

def advanceNs (base offset : Nat) : Nat := satAdd base offset

def timeToIdleTimeout (lastActivity now timeout : Nat) : Option Nat :=
  (elapsedNs lastActivity now).map (timeout - ·)

theorem satAdd_le (a b : Nat) : satAdd a b ≤ u64Max := Nat.min_le_right _ _

/-- A timer the kernel is given is a clamped value: the cast keeps it. -/
theorem asIsize_clamped (n : Nat) : asIsize (min n maxTimerNs) = (min n maxTimerNs : Nat) := by
  have h : min n maxTimerNs < 2 ^ 63 := Nat.lt_of_le_of_lt (Nat.min_le_right _ _) (by decide)
  rw [asIsize, if_pos h]

@[simp] theorem deadlineReached_iff {now deadline : Nat} :
    deadlineReached now deadline = true ↔ deadline ≤ now := by simp [deadlineReached]

@[simp] theorem elapsedNs_eq_some {start now d : Nat} :
    elapsedNs start now = some d ↔ start ≤ now ∧ now - start = d := by
  unfold elapsedNs
  split
  · simp_all
  · simp only [reduceCtorEq, false_iff]; omega

end Procguard
