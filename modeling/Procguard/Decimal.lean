import Procguard.Text

/- Decimal numerals as text and as numbers. A numeral carries that its parts are
   digits, so the value is defined on every one of them; cutting or padding the
   fraction to a number of places is rounding the value down, hence monotone.
   The integer readers of `Text` are characterised by the same digits. -/
namespace Text
open Nat (ofDigitChars)

/-- A numeral as it is written: digits, a point, digits, and at least one digit. -/
structure Decimal where
  int : List Char
  point : Bool
  frac : List Char
  int_digits : ∀ c ∈ int, c.isDigit = true
  frac_digits : ∀ c ∈ frac, c.isDigit = true
  frac_point : point = false → frac = []
  some_digit : int ≠ [] ∨ frac ≠ []

namespace Decimal
variable {d d' : Decimal}

def text (d : Decimal) : List Char := d.int ++ if d.point then '.' :: d.frac else []

/-- The number that is written. -/
def value (d : Decimal) : ℚ := (ofDigitChars 10 (d.int ++ d.frac) 0 : ℚ) / 10 ^ d.frac.length

/-- The first `n` digits of the fraction, padded with zeros. -/
def places (d : Decimal) (n : Nat) : List Char :=
  d.frac.take n ++ List.replicate (n - d.frac.length) '0'

/-- The number in units of the `n`-th place. -/
def scaled (d : Decimal) (n : Nat) : Nat :=
  ofDigitChars 10 d.int 0 * 10 ^ n + ofDigitChars 10 (d.places n) 0

end Decimal

/-! ## Digits -/

theorem digit_lt {c : Char} (h : c.isDigit = true) : c.toNat - '0'.toNat < 10 := by
  simp only [Char.isDigit, Bool.and_eq_true, decide_eq_true_eq, UInt32.le_iff_toNat_le] at h
  have h1 := h.2
  have e : '0'.toNat = 48 := rfl
  have e' : c.toNat = c.val.toNat := rfl
  change c.val.toNat ≤ 57 at h1
  omega

theorem ofDigitChars_lt {cs : List Char} (h : ∀ c ∈ cs, c.isDigit = true) :
    ofDigitChars 10 cs 0 < 10 ^ cs.length := by
  induction cs with
  | nil => simp
  | cons c cs ih =>
    have hc := digit_lt (h c (by simp))
    have hcs := ih fun x hx => h x (by simp [hx])
    rw [Nat.ofDigitChars_cons, Nat.ofDigitChars_eq_ofDigitChars_zero, List.length_cons,
      Nat.pow_succ]
    generalize c.toNat - '0'.toNat = v at hc ⊢
    calc 10 ^ cs.length * (10 * 0 + v) + ofDigitChars 10 cs 0
        < 10 ^ cs.length * (10 * 0 + v) + 10 ^ cs.length := by omega
      _ = 10 ^ cs.length * (v + 1) := by ring
      _ ≤ 10 ^ cs.length * 10 := Nat.mul_le_mul_left _ (by omega)

theorem le_ofDigitChars (cs : List Char) (acc : Nat) : acc ≤ ofDigitChars 10 cs acc := by
  induction cs generalizing acc with
  | nil => simp
  | cons c cs ih =>
    rw [Nat.ofDigitChars_cons]
    have h := ih (10 * acc + (c.toNat - '0'.toNat))
    omega

theorem readDigits_eq_some {max acc r : Nat} {cs : List Char} (hacc : acc ≤ max) :
    readDigits max acc cs = some r ↔
      (∀ c ∈ cs, c.isDigit = true) ∧ r = ofDigitChars 10 cs acc ∧ r ≤ max := by
  induction cs generalizing acc with
  | nil =>
    simp only [readDigits, Option.some.injEq, List.not_mem_nil, false_implies, implies_true,
      true_and, Nat.ofDigitChars_nil]
    omega
  | cons c cs ih =>
    rw [Nat.ofDigitChars_cons]
    by_cases hc : c.isDigit = true
    · have hd : digit? c = some (c.toNat - '0'.toNat) := by simp [digit?, hc]
      simp only [readDigits, hd]
      by_cases hle : 10 * acc + (c.toNat - '0'.toNat) ≤ max
      · rw [if_pos hle, ih hle]
        simp [hc]
      · rw [if_neg hle]
        -- what is left only makes the number larger
        have hlow := le_ofDigitChars cs (10 * acc + (c.toNat - '0'.toNat))
        constructor
        · intro h
          cases h
        · intro h
          omega
    · have hd : digit? c = none := by simp [digit?, hc]
      simp only [readDigits, hd]
      simp [hc]

theorem parseUnsigned_digits {max r : Nat} {cs : List Char} (hne : cs ≠ [])
    (h : ∀ c ∈ cs, c.isDigit = true) (plus : Bool) :
    parseUnsigned max ((if plus then ['+'] else []) ++ cs) = some r ↔
      r = ofDigitChars 10 cs 0 ∧ r ≤ max := by
  cases cs with
  | nil => exact absurd rfl hne
  | cons c cs =>
    have hplus : c ≠ '+' := by
      intro hc
      have := h c (by simp)
      rw [hc] at this
      exact absurd this (by decide)
    have hread := @readDigits_eq_some max 0 r (c :: cs) (Nat.zero_le max)
    cases plus with
    | true =>
      simp only [if_true, List.singleton_append, parseUnsigned, List.isEmpty_cons]
      rw [if_neg (by simp), hread]
      exact and_iff_right h
    | false =>
      have hparse : parseUnsigned max (c :: cs) = readDigits max 0 (c :: cs) := by
        unfold parseUnsigned
        split
        · rename_i heq
          cases heq
        · rename_i heq
          cases heq
          exact absurd rfl hplus
        · rfl
      simp only [Bool.false_eq_true, if_false, List.nil_append]
      rw [hparse, hread]
      exact and_iff_right h

/-- What is read as an unsigned integer is digits after an optional sign. -/
theorem digits_of_parseUnsigned {max r : Nat} {s : List Char} (h : parseUnsigned max s = some r) :
    ∃ (plus : Bool) (cs : List Char), s = (if plus then ['+'] else []) ++ cs ∧ cs ≠ [] ∧
      ∀ c ∈ cs, c.isDigit = true := by
  unfold parseUnsigned at h
  split at h
  · cases h
  · rename_i digits
    split at h
    · cases h
    · rename_i hne
      refine ⟨true, digits, by simp, ?_, ((readDigits_eq_some (Nat.zero_le max)).mp h).1⟩
      intro hnil
      exact hne (by simp [hnil])
  · rename_i hne _
    exact ⟨false, s, by simp, hne, ((readDigits_eq_some (Nat.zero_le max)).mp h).1⟩

/-! ## Places -/

namespace Decimal
variable {d d' : Decimal}

/-- The digits kept of the fraction are its leading ones. -/
theorem places_value (d : Decimal) (n : Nat) :
    ofDigitChars 10 (d.places n) 0 =
      ofDigitChars 10 d.frac 0 * 10 ^ n / 10 ^ d.frac.length := by
  rw [places, Nat.ofDigitChars_append, Nat.ofDigitChars_replicate_zero]
  by_cases hle : d.frac.length ≤ n
  · -- padded
    obtain ⟨k, rfl⟩ := Nat.exists_eq_add_of_le hle
    rw [List.take_of_length_le hle, Nat.add_sub_cancel_left, Nat.pow_add]
    symm
    apply Nat.div_eq_of_eq_mul_left (by positivity)
    ring
  · -- cut
    have hlt : n < d.frac.length := by omega
    obtain ⟨k, hk⟩ := Nat.exists_eq_add_of_le hlt.le
    have hdrop : (d.frac.drop n).length = k := by
      rw [List.length_drop]
      omega
    have hlow : ofDigitChars 10 (d.frac.drop n) 0 < 10 ^ k := by
      rw [← hdrop]
      apply ofDigitChars_lt
      intro c hc
      exact d.frac_digits c (List.mem_of_mem_drop hc)
    have hsplit : ofDigitChars 10 d.frac 0 =
        10 ^ k * ofDigitChars 10 (d.frac.take n) 0 + ofDigitChars 10 (d.frac.drop n) 0 := by
      calc ofDigitChars 10 d.frac 0
          = ofDigitChars 10 (d.frac.take n ++ d.frac.drop n) 0 := by rw [List.take_append_drop]
        _ = ofDigitChars 10 (d.frac.drop n) (ofDigitChars 10 (d.frac.take n) 0) :=
            Nat.ofDigitChars_append 0
        _ = _ := by rw [Nat.ofDigitChars_eq_ofDigitChars_zero, hdrop]
    rw [Nat.sub_eq_zero_of_le hlt.le, Nat.pow_zero, Nat.one_mul, hk, Nat.pow_add,
      Nat.mul_comm (10 ^ n), Nat.mul_div_mul_right _ _ (by positivity), hsplit,
      Nat.mul_add_div (by positivity), Nat.div_eq_of_lt hlow, Nat.add_zero]

theorem scaled_eq_div (d : Decimal) (n : Nat) :
    d.scaled n = ofDigitChars 10 (d.int ++ d.frac) 0 * 10 ^ n / 10 ^ d.frac.length := by
  have happend : ofDigitChars 10 (d.int ++ d.frac) 0 =
      10 ^ d.frac.length * ofDigitChars 10 d.int 0 + ofDigitChars 10 d.frac 0 := by
    rw [Nat.ofDigitChars_append, Nat.ofDigitChars_eq_ofDigitChars_zero]
  rw [scaled, places_value, happend]
  generalize ofDigitChars 10 d.int 0 = i
  generalize ofDigitChars 10 d.frac 0 = f
  calc i * 10 ^ n + f * 10 ^ n / 10 ^ d.frac.length
      = (10 ^ d.frac.length * (i * 10 ^ n) + f * 10 ^ n) / 10 ^ d.frac.length := by
        rw [Nat.mul_add_div (by positivity)]
    _ = (10 ^ d.frac.length * i + f) * 10 ^ n / 10 ^ d.frac.length := by ring_nf

/-- Cutting or padding the fraction rounds the number down to that place. -/
theorem scaled_eq_floor (d : Decimal) (n : Nat) : d.scaled n = ⌊d.value * 10 ^ n⌋₊ := by
  have hvalue : d.value * 10 ^ n =
      ((ofDigitChars 10 (d.int ++ d.frac) 0 * 10 ^ n : Nat) : ℚ) / (10 ^ d.frac.length : Nat) := by
    rw [value]
    push_cast
    ring
  rw [scaled_eq_div, hvalue, Nat.floor_div_eq_div]

theorem scaled_mono (h : d.value ≤ d'.value) (n : Nat) : d.scaled n ≤ d'.scaled n := by
  rw [scaled_eq_floor, scaled_eq_floor]
  apply Nat.floor_mono
  exact mul_le_mul_of_nonneg_right h (by positivity)

/-- The last character of a numeral is a digit or the point. -/
theorem text_getLast (d : Decimal) :
    ∀ c ∈ d.text.getLast?, (c.isDigit || c == '.') = true := by
  intro c hc
  have hmem := List.mem_of_mem_getLast? hc
  simp only [text, List.mem_append] at hmem
  rcases hmem with hint | hrest
  · simp [d.int_digits c hint]
  · cases hp : d.point with
    | false => simp [hp] at hrest
    | true =>
      simp only [hp, if_true, List.mem_cons] at hrest
      rcases hrest with rfl | hfrac
      · simp
      · simp [d.frac_digits c hfrac]

theorem text_ne_nil (d : Decimal) : d.text ≠ [] := by
  rcases d.some_digit with hint | hfrac
  · simp [text, hint]
  · have hp : d.point = true := by
      cases hp : d.point with
      | false => exact absurd (d.frac_point hp) hfrac
      | true => rfl
    simp [text, hp]

end Decimal

end Text
