import Procguard.DurationRules
import Procguard.Values
import Procguard.Forked

/- What the texts of the limits mean. A memory limit is digits and a binary unit, with
   nothing in between and nothing rounded. A time is rounded down, to nine decimal places
   of its number and then to a nanosecond, and a cpu limit to a second; a zero that comes
   out of it means something else than a small number. -/
namespace Procguard
open Text Interact
open Nat (ofDigitChars)

/-! ## Memory limits -/

/-- The binary units, each 1024 times the one before. -/
inductive MemUnit where
  | bytes | kilo | mega | giga | tera
  deriving DecidableEq, Repr

namespace MemUnit

/-- The ways to write it, in lower case. -/
def spellings : MemUnit → List String
  | bytes => ["", "b"]
  | kilo => ["k", "kb"]
  | mega => ["m", "mb"]
  | giga => ["g", "gb"]
  | tera => ["t", "tb"]

def exponent : MemUnit → Nat
  | bytes => 0
  | kilo => 1
  | mega => 2
  | giga => 3
  | tera => 4

def size (u : MemUnit) : Nat := 1024 ^ u.exponent

/-- The suffix writes the unit, in any case of its ASCII letters. -/
def Spelled (u : MemUnit) (suffix : List Char) : Prop := asciiLower suffix ∈ u.spellings

theorem size_pos (u : MemUnit) : 0 < u.size := Nat.pow_pos (by decide)

end MemUnit

theorem memUnit_iff {suffix : List Char} {m : Nat} :
    memUnit suffix = some m ↔ ∃ u : MemUnit, u.Spelled suffix ∧ u.size = m := by
  unfold memUnit MemUnit.Spelled
  constructor
  · intro h
    split at h <;> cases h <;> rename_i heq <;> rw [heq]
    · exact ⟨.bytes, by decide⟩
    · exact ⟨.bytes, by decide⟩
    · exact ⟨.kilo, by decide⟩
    · exact ⟨.kilo, by decide⟩
    · exact ⟨.mega, by decide⟩
    · exact ⟨.mega, by decide⟩
    · exact ⟨.giga, by decide⟩
    · exact ⟨.giga, by decide⟩
    · exact ⟨.tera, by decide⟩
    · exact ⟨.tera, by decide⟩
  · intro ⟨u, hspelled, hm⟩
    subst hm
    cases u <;> simp only [MemUnit.spellings, List.mem_cons, List.not_mem_nil, or_false]
      at hspelled <;> rcases hspelled with heq | heq <;> rw [heq] <;> rfl

theorem MemUnit.Spelled.letters {u : MemUnit} {suffix : List Char} (h : u.Spelled suffix) :
    ∀ c ∈ suffix, c.isAlpha = true := by
  have hall : ∀ word ∈ u.spellings, word.toList.all Char.isAlpha = true := by
    cases u <;> decide +kernel
  have hword := hall _ h
  intro c hc
  rw [← Char.isAlpha_toLower_eq_isAlpha]
  rw [asciiLower, String.toList_ofList, List.all_eq_true] at hword
  exact hword _ (List.mem_map_of_mem hc)

theorem digit_not_alpha {c : Char} (h : c.isDigit = true) : c.isAlpha = false := by
  simp only [Char.isDigit, Bool.and_eq_true, decide_eq_true_eq, UInt32.le_iff_toNat_le] at h
  have hhigh : c.val.toNat ≤ 57 := h.2
  have hA : 'A'.val.toNat = 65 := rfl
  have ha : 'a'.val.toNat = 97 := rfl
  simp only [Char.isAlpha, Char.isUpper, Char.isLower, ge_iff_le, UInt32.le_iff_toNat_le, hA, ha]
  have hsame : c.toNat = c.val.toNat := rfl
  simp only [Bool.or_eq_false_iff, Bool.and_eq_false_iff, decide_eq_false_iff_not]
  omega

theorem checkedMul64_eq_some {a b r : Nat} :
    checkedMul64 a b = some r ↔ r = a * b ∧ r ≤ u64Max := by
  rw [checkedMul64]
  split
  · rw [Option.some.injEq]
    omega
  · simp only [reduceCtorEq, false_iff]
    omega

theorem parseMemLimit_eq_ok {input : String} {v : Nat} :
    parseMemLimit input = .ok v ↔ trim input ≠ [] ∧ (splitNumberSuffix (trim input)).1 ≠ [] ∧
      ∃ value m, readDigits u64Max 0 (splitNumberSuffix (trim input)).1 = some value ∧
        memUnit (splitNumberSuffix (trim input)).2 = some m ∧ checkedMul64 value m = some v := by
  unfold parseMemLimit
  dsimp only
  generalize trim input = s
  generalize splitNumberSuffix s = halves
  obtain ⟨num, suffix⟩ := halves
  dsimp only
  by_cases hs : s.isEmpty = true
  · rw [if_pos hs, throw_bind]
    simp [List.isEmpty_iff.mp hs]
  · have hs' : s ≠ [] := by simpa using hs
    rw [if_neg hs, and_iff_right hs']
    by_cases hn : num.isEmpty = true
    · rw [if_pos hn, throw_bind]
      simp [List.isEmpty_iff.mp hn]
    · have hn' : num ≠ [] := by simpa using hn
      rw [if_neg hn, and_iff_right hn']
      cases readDigits u64Max 0 num with
      | none => simp [throw, throwThe, MonadExceptOf.throw]
      | some value =>
        cases memUnit suffix with
        | none => simp [throw, throwThe, MonadExceptOf.throw]
        | some m =>
          cases hmul : checkedMul64 value m with
          | none => simp [hmul, throw, throwThe, MonadExceptOf.throw]
          | some bytes => simp [hmul, pure, Except.pure]

/-- A memory limit as it is documented: digits and a unit directly after them. -/
def MemLimit (input : String) (v : Nat) : Prop :=
  ∃ (digits suffix : List Char) (u : MemUnit), trim input = digits ++ suffix ∧ digits ≠ [] ∧
    (∀ c ∈ digits, c.isDigit = true) ∧ u.Spelled suffix ∧
    v = ofDigitChars 10 digits 0 * 1024 ^ u.exponent ∧ v < 2 ^ 64

/-- The number ends where the unit begins. -/
theorem splitNumberSuffix_append {digits suffix : List Char}
    (hdigits : ∀ c ∈ digits, c.isDigit = true) (hsuffix : ∀ c ∈ suffix, c.isAlpha = true) :
    splitNumberSuffix (digits ++ suffix) = (digits, suffix) := by
  have hlast : ∀ c ∈ digits.getLast?, c.isAlpha = false :=
    fun c hc => digit_not_alpha (hdigits c (List.mem_of_mem_getLast? hc))
  obtain ⟨hleft, hright⟩ := rsplit_append hlast hsuffix
  exact Prod.ext hleft hright

/-- **A memory limit is read exactly**: what is accepted is digits and a unit, the value is
    their product, and whatever does not fit 64 bits or is not of that form is an error. -/
theorem memLimit_exact (input : String) :
    (∀ v, parseMemLimit input = .ok v ↔ MemLimit input v) ∧
    ((¬∃ v, MemLimit input v) → ∃ e, parseMemLimit input = .error e) := by
  have hiff : ∀ v, parseMemLimit input = .ok v ↔ MemLimit input v := by
    intro v
    rw [parseMemLimit_eq_ok]
    constructor
    · intro ⟨_, hnum, value, m, hvalue, hm, hmul⟩
      obtain ⟨hdigits, rfl, -⟩ := (readDigits_eq_some (Nat.zero_le _)).mp hvalue
      obtain ⟨u, hunit, rfl⟩ := memUnit_iff.mp hm
      obtain ⟨hv, hle⟩ := checkedMul64_eq_some.mp hmul
      have hlt : v < 2 ^ 64 := Nat.lt_of_le_of_lt hle (by decide)
      exact ⟨_, _, u, (rsplit_eq _ _).symm, hnum, hdigits, hunit, hv, hlt⟩
    · intro ⟨digits, suffix, u, ht, hne, hdigits, hunit, hv, hlt⟩
      have hsplit := splitNumberSuffix_append hdigits hunit.letters
      have hle : v ≤ u64Max := Nat.le_of_lt_succ hlt
      have hvalue : ofDigitChars 10 digits 0 ≤ u64Max := by
        calc ofDigitChars 10 digits 0
            ≤ ofDigitChars 10 digits 0 * u.size := Nat.le_mul_of_pos_right _ u.size_pos
          _ = v := hv.symm
          _ ≤ u64Max := hle
      rw [ht, hsplit]
      refine ⟨by simp [hne], hne, _, u.size, ?_, memUnit_iff.mpr ⟨u, hunit, rfl⟩,
        checkedMul64_eq_some.mpr ⟨hv, hle⟩⟩
      exact (readDigits_eq_some (Nat.zero_le _)).mpr ⟨hdigits, rfl, hvalue⟩
  refine ⟨hiff, fun hnone => ?_⟩
  cases hp : parseMemLimit input with
  | error e => exact ⟨e, rfl⟩
  | ok v => exact absurd ⟨v, (hiff v).mp hp⟩ hnone

example : parseMemLimit " 2Gb " = .ok (2 * 1024 ^ 3) := by decide +kernel

/-! ## Times that are rounded to zero -/

namespace Numeral

/-- The number that is written: the digits up to whatever is not a digit. -/
def number (n : Numeral) : Decimal where
  int := n.dec.int
  point := n.dec.point
  frac := n.dec.frac ++ n.tail.takeWhile Char.isDigit
  int_digits := n.int_digits
  frac_digits := by
    intro c hc
    exact (List.mem_append.mp hc).elim (n.dec.frac_digits c) List.mem_takeWhile_imp
  frac_point := by
    intro hp
    have htail : n.tail = [] := by
      by_contra hne
      rw [n.point_of_tail hne] at hp
      cases hp
    simp [n.dec.frac_point hp, htail]
  some_digit := n.dec.some_digit.imp id fun hfrac => by simp [hfrac]

/-- The reader does not see the digits past the ninth. -/
theorem number_scaled (n : Numeral) : n.number.scaled 9 = n.dec.scaled 9 := by
  have hplaces : n.number.places 9 = n.dec.places 9 := by
    by_cases ht : n.tail = []
    · simp [number, Decimal.places, ht]
    · have hnine := n.tail_nine ht
      simp only [number, Decimal.places]
      rw [List.take_append_of_le_length hnine.ge, List.length_append,
        Nat.sub_eq_zero_of_le (by omega), Nat.sub_eq_zero_of_le hnine.ge]
  rw [Decimal.scaled, Decimal.scaled, hplaces]
  rfl

end Numeral

/-- The number that an accepted text writes, and its unit. -/
def Denotes (input : String) (d : Decimal) (u : TimeUnit) : Prop :=
  ∃ (n : Numeral) (suffix : List Char), trim input = n.text ++ suffix ∧ u.Spelled suffix ∧
    d = n.number

theorem denotes_of_ok {input : String} {r : Duration} (h : parseDuration input = .ok r) :
    ∃ d u, Denotes input d u := by
  obtain ⟨n, suffix, u, ht, hunit⟩ := numeral_of_parseDuration h
  exact ⟨n.number, u, n, suffix, ht, hunit, rfl⟩

theorem Denotes.nanos {input : String} {d : Decimal} {u : TimeUnit} {r : Duration}
    (h : Denotes input d u) (hr : parseDuration input = .ok r) :
    r.asSecs = wholeNanos d u / 10 ^ 9 ∧ r.subsecNanos = wholeNanos d u % 10 ^ 9 := by
  obtain ⟨n, suffix, ht, hunit, rfl⟩ := h
  obtain ⟨-, hval⟩ := (parseDuration_numeral hunit ht).mp hr
  rw [wholeNanos, n.number_scaled]
  exact hval

theorem eq_zero_iff {r : Duration} : r = .zero ↔ r.asSecs = 0 ∧ r.subsecNanos = 0 := by
  obtain ⟨secs, nanos, hsecs, hnanos⟩ := r
  simp [Duration.zero]

namespace TimeUnit

/-- The least number of billionths that are a nanosecond of the unit. -/
def grain : TimeUnit → Nat
  | millis => 1000
  | micros => 1000000
  | _ => 1

theorem grain_le_iff (u : TimeUnit) (s : Nat) : 10 ^ 9 ≤ s * u.nanos ↔ u.grain ≤ s := by
  cases u <;> simp only [nanos, grain] <;> omega

theorem grain_le_value (u : TimeUnit) (v : ℚ) :
    (u.grain : ℚ) ≤ v * 10 ^ 9 ↔ 1 / 10 ^ 9 ≤ v ∧ 1 ≤ v * u.nanos := by
  cases u <;> simp only [nanos, grain] <;> push_cast <;> constructor <;> intro h <;>
    first
    | constructor <;> linarith
    | linarith [h.1, h.2]

end TimeUnit

/-- A number comes out positive if neither it vanishes in nine places, nor its product with
    the unit in whole nanoseconds. -/
theorem wholeNanos_pos_iff {d : Decimal} {u : TimeUnit} :
    0 < wholeNanos d u ↔ 1 / 10 ^ 9 ≤ d.value ∧ 1 ≤ d.value * u.nanos := by
  have hgrain : u.grain ≠ 0 := by cases u <;> decide
  calc 0 < wholeNanos d u ↔ 10 ^ 9 ≤ d.scaled 9 * u.nanos := Nat.div_pos_iff.trans (by simp)
    _ ↔ u.grain ≤ d.scaled 9 := u.grain_le_iff _
    _ ↔ (u.grain : ℚ) ≤ d.value * 10 ^ 9 := by
      rw [Decimal.scaled_eq_floor, Nat.le_floor_iff' hgrain]
    _ ↔ 1 / 10 ^ 9 ≤ d.value ∧ 1 ≤ d.value * u.nanos := u.grain_le_value _

/-- The cpu limits that the child sets for a cpu time, in any run of `apply_limits`. -/
def CpuLimitSet (cpu : Duration) (secs : Nat) : Prop :=
  ∃ (W : Env ChildCall.Ans) (memBytes : Option Nat) (a : Except Int Unit),
    ⟨.setrlimitCpu secs, a⟩ ∈
      ((applyLimits { memBytes, cpuTime := some cpu } ()).run W []).2

theorem CpuLimitSet.eq {cpu : Duration} {secs : Nat} (h : CpuLimitSet cpu secs) :
    secs = cpu.asSecs := by
  obtain ⟨W, memBytes, a, hmem⟩ := h
  obtain ⟨t, ht, hall⟩ := (asking_applyLimits { memBytes, cpuTime := some cpu } ()).grown W []
  rw [ht, List.append_nil] at hmem
  obtain ⟨-, hsecs⟩ := hall _ hmem
  obtain ⟨cpu', hcpu, rfl⟩ := hsecs secs rfl
  cases hcpu
  rfl

/-- **A positive time and a special zero**: an accepted duration is zero exactly when its number
    is below the ninth decimal place or its time below a nanosecond, and the child sets a cpu
    limit of zero exactly for a time that is rounded down to less than a second. -/
theorem positive_stays_positive {input : String} {r : Duration} (hr : parseDuration input = .ok r) :
    (∃ d u, Denotes input d u) ∧ ∀ d u, Denotes input d u →
      (r ≠ .zero ↔ 1 / 10 ^ 9 ≤ d.value ∧ 1 ≤ d.value * u.nanos) ∧
      ∀ cpu secs, parseCpuTime input = .ok cpu → CpuLimitSet cpu secs →
        (0 < secs ↔ 10 ^ 9 ≤ wholeNanos d u) := by
  refine ⟨denotes_of_ok hr, fun d u hd => ⟨?_, ?_⟩⟩
  · obtain ⟨hsecs, hnanos⟩ := hd.nanos hr
    rw [← wholeNanos_pos_iff, ne_eq, eq_zero_iff, hsecs, hnanos]
    omega
  · intro cpu secs hcpu hset
    rw [parseCpuTime, hr] at hcpu
    cases hcpu
    rw [hset.eq, (hd.nanos hr).1]
    exact Nat.div_pos_iff.trans (by simp)

/-- "0.5": half of a unit. -/
def pointFive : Numeral :=
  .ofDecimal { oneAndAHalf with int := ['0'], int_digits := by simp, some_digit := by simp }

/-- "0.0000000001": ten places. -/
def tenPlaces : Numeral :=
  ⟨false, ⟨['0'], true, ['0', '0', '0', '0', '0', '0', '0', '0', '0'], by simp, by simp, by simp,
    by simp⟩, ['1'], by simp, by simp, by simp [numeric]⟩

theorem seconds_spelled : TimeUnit.seconds.Spelled ['s'] := by
  unfold TimeUnit.Spelled
  decide +kernel

def halfSecond : Duration := { Duration.zero with subsecNanos := 500000000, nanos_lt := by decide }

theorem parse_halfSecond : parseDuration "0.5s" = .ok halfSecond :=
  (parseDuration_numeral (n := pointFive) seconds_spelled (by decide +kernel)).mpr
    ⟨by decide +kernel, by decide +kernel, by decide +kernel⟩

/-- A child whose limits are all set. -/
def acceptingChild : Env ChildCall.Ans
  | _, .setpgid => ()
  | _, .setrlimitAs _ | _, .setrlimitCpu _ => .ok ()
  | _, .execvp _ _ => none

theorem positive_stays_positive_half :
    (∃ d u, Denotes "0.5s" d u) ∧ ∀ d u, Denotes "0.5s" d u →
      (halfSecond ≠ .zero ↔ 1 / 10 ^ 9 ≤ d.value ∧ 1 ≤ d.value * u.nanos) ∧
      ∀ cpu secs, parseCpuTime "0.5s" = .ok cpu → CpuLimitSet cpu secs →
        (0 < secs ↔ 10 ^ 9 ≤ wholeNanos d u) :=
  positive_stays_positive parse_halfSecond

/-- A tenth of a nanosecond runs forever, and half a second of cpu time is a limit of zero. -/
theorem small_time_is_zero :
    (¬∀ input r d u, parseDuration input = .ok r → Denotes input d u → d.value ≠ 0 → r ≠ .zero) ∧
    ¬∀ input cpu d u secs, parseCpuTime input = .ok cpu → Denotes input d u → d.value ≠ 0 →
      CpuLimitSet cpu secs → 0 < secs := by
  constructor
  · intro h
    have hd : Denotes "0.0000000001s" tenPlaces.number .seconds :=
      ⟨tenPlaces, ['s'], by decide +kernel, seconds_spelled, rfl⟩
    have hr : parseDuration "0.0000000001s" = .ok .zero :=
      (parseDuration_numeral (n := tenPlaces) seconds_spelled (by decide +kernel)).mpr
        ⟨by decide +kernel, by decide +kernel, by decide +kernel⟩
    have hvalue : tenPlaces.number.value ≠ 0 := by
      simp [Decimal.value, Numeral.number, tenPlaces]
      decide
    exact h _ _ _ _ hr hd hvalue rfl
  · intro h
    have hd : Denotes "0.5s" pointFive.number .seconds :=
      ⟨pointFive, ['s'], by decide +kernel, seconds_spelled, rfl⟩
    have hset : CpuLimitSet halfSecond 0 :=
      ⟨acceptingChild, none, .ok (), List.mem_singleton.mpr rfl⟩
    have hvalue : pointFive.number.value ≠ 0 := by
      simp [Decimal.value, Numeral.number, pointFive]
      decide
    exact absurd (h _ _ _ _ _ parse_halfSecond hd hvalue hset) (by decide)

end Procguard
