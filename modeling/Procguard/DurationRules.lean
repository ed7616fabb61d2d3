import Procguard.Decimal
import Procguard.Duration

/- What a duration text means. The units and their spellings are stated apart from
   the reader; a number that the reader takes is a numeral, perhaps after a plus,
   and perhaps with a tail: the reader looks at no more than nine characters of
   the fraction, so whatever follows them up to the unit is carried along. -/
namespace Procguard
open Text
open Nat (ofDigitChars)

/-! ## Units -/

inductive TimeUnit where
  | seconds | millis | micros | minutes | hours | days
  deriving DecidableEq, Repr

namespace TimeUnit

/-- The ways to write it, in lower case. -/
def spellings : TimeUnit → List String
  | seconds => ["", "s"]
  | millis => ["ms"]
  | micros => ["us", "\u00b5s"]
  | minutes => ["m"]
  | hours => ["h"]
  | days => ["d"]

def nanos : TimeUnit → Nat
  | seconds => 1000000000
  | millis => 1000000
  | micros => 1000
  | minutes => 60 * 1000000000
  | hours => 3600 * 1000000000
  | days => 86400 * 1000000000

/-- The suffix writes the unit, in any case of its ASCII letters. -/
def Spelled (u : TimeUnit) (suffix : List Char) : Prop := asciiLower suffix ∈ u.spellings

theorem nanos_pos (u : TimeUnit) : 1000 ≤ u.nanos := by
  cases u <;> decide

end TimeUnit

theorem unitNanos_iff {suffix : List Char} {m : Nat} :
    unitNanos suffix = some m ↔ ∃ u : TimeUnit, u.Spelled suffix ∧ u.nanos = m := by
  unfold unitNanos TimeUnit.Spelled
  constructor
  · intro h
    split at h <;> cases h <;> rename_i heq <;> rw [heq]
    · exact ⟨.seconds, by decide⟩
    · exact ⟨.seconds, by decide⟩
    · exact ⟨.millis, by decide⟩
    · exact ⟨.micros, by decide⟩
    · exact ⟨.micros, by decide⟩
    · exact ⟨.minutes, by decide⟩
    · exact ⟨.hours, by decide⟩
    · exact ⟨.days, by decide⟩
  · intro ⟨u, hspelled, hm⟩
    subst hm
    cases u <;> simp only [TimeUnit.spellings, List.mem_cons, List.not_mem_nil, or_false]
      at hspelled
    · rcases hspelled with heq | heq <;> rw [heq] <;> rfl
    · rw [hspelled]; rfl
    · rcases hspelled with heq | heq <;> rw [heq] <;> rfl
    · rw [hspelled]; rfl
    · rw [hspelled]; rfl
    · rw [hspelled]; rfl

/-- The characters that end a number. -/
def numeric (c : Char) : Bool := c.isDigit || c == '.'

/-- Neither white space nor part of a number: so is every letter of a unit. -/
def isLetterLike (c : Char) : Bool := !numeric c && !isWhite c

theorem toLower_letterLike {c : Char} (h : isLetterLike c.toLower = true) :
    isLetterLike c = true := by
  by_cases hup : c.isUpper = true
  · -- an upper-case letter is none of the others
    simp only [Char.isUpper, decide_eq_true_eq, UInt32.le_iff_toNat_le] at hup
    obtain ⟨hlow, hhigh⟩ := hup
    change 65 ≤ c.val.toNat at hlow
    change c.val.toNat ≤ 90 at hhigh
    have hnat : c.toNat = c.val.toNat := rfl
    have hdigit : c.isDigit = false := by
      simp only [Char.isDigit, Bool.and_eq_false_iff, decide_eq_false_iff_not,
        UInt32.le_iff_toNat_le]
      right
      change ¬c.val.toNat ≤ 57
      omega
    have hpoint : (c == '.') = false := by
      simp only [beq_eq_false_iff_ne]
      intro heq
      rw [heq] at hlow
      exact absurd hlow (by decide)
    have hwhite : isWhite c = false := by
      simp only [isWhite, hnat, Bool.or_eq_false_iff, Bool.and_eq_false_iff, beq_eq_false_iff_ne,
        decide_eq_false_iff_not]
      omega
    simp [isLetterLike, numeric, hdigit, hpoint, hwhite]
  · rwa [Char.toLower_eq_of_not_isUpper hup] at h

theorem TimeUnit.Spelled.letterLike {u : TimeUnit} {suffix : List Char} (h : u.Spelled suffix) :
    ∀ c ∈ suffix, isLetterLike c = true := by
  have hall : ∀ word ∈ u.spellings, word.toList.all isLetterLike = true := by
    cases u <;> decide +kernel
  have hword := hall _ h
  intro c hc
  apply toLower_letterLike
  rw [asciiLower, String.toList_ofList, List.all_eq_true] at hword
  exact hword _ (List.mem_map_of_mem hc)

/-! ## The reader in parts -/

theorem okOr_eq_ok {α : Type} {e : TimeoutError} {x : Option α} {a : α} :
    okOr e x = .ok a ↔ x = some a := by
  cases x <;> simp [okOr]

theorem throw_bind {α β : Type} (e : TimeoutError) (f : α → Except TimeoutError β) :
    ((throw e : Except TimeoutError α) >>= f) = .error e := rfl

/-- The integer digits, none of which are zero. -/
def readWhole (whole : List Char) : Option Nat :=
  if whole.isEmpty then some 0 else parseUnsigned u128Max whole

/-- The first nine places of the fraction. -/
def readPlaces (frac : List Char) : Option Nat :=
  if frac.isEmpty then some 0 else parseFraction frac

/-- The fixed point of both. -/
def combine (whole frac : Nat) : Option Nat :=
  (checkedMul128 whole nanosPerSec).bind (checkedAdd128 · frac)

theorem parseDecimalToNanos_eq_ok {s : List Char} {v : Nat} :
    parseDecimalToNanos s = .ok v ↔ s.head? ≠ some '-' ∧
      ¬((s.takeWhile (· ≠ '.')).isEmpty && ((s.dropWhile (· ≠ '.')).drop 1).isEmpty) = true ∧
      ∃ i f, readWhole (s.takeWhile (· ≠ '.')) = some i ∧
        readPlaces ((s.dropWhile (· ≠ '.')).drop 1) = some f ∧ combine i f = some v := by
  unfold parseDecimalToNanos readWhole readPlaces
  dsimp only
  generalize (s.dropWhile (· ≠ '.')).drop 1 = frac
  generalize s.takeWhile (· ≠ '.') = whole
  -- both ways to a whole part go on to the fraction in the same way
  have hfrac : ∀ i : Nat, (if frac.isEmpty = true then pure 0 >>= fun f =>
      okOr .durationOverflow (combine i f) else okOr (invalidNumber s) (parseFraction frac) >>=
        fun f => okOr .durationOverflow (combine i f)) = .ok v ↔
      ∃ f, (if frac.isEmpty = true then some 0 else parseFraction frac) = some f ∧
        combine i f = some v := by
    intro i
    by_cases hf : frac.isEmpty = true
    · rw [if_pos hf, if_pos hf, pure_bind, okOr_eq_ok]
      simp
    · rw [if_neg hf, if_neg hf, bind_eq_ok]
      simp only [okOr_eq_ok]
  by_cases hminus : s.head? = some '-'
  · rw [if_pos hminus, throw_bind]
    simp [hminus]
  · rw [if_neg hminus]
    by_cases hbare : (whole.isEmpty && frac.isEmpty) = true
    · rw [if_pos hbare, throw_bind]
      simp [hbare]
    · rw [if_neg hbare, and_iff_right hminus, and_iff_right hbare]
      by_cases hw : whole.isEmpty = true
      · rw [if_pos hw, if_pos hw, pure_bind]
        refine (hfrac 0).trans ?_
        simp
      · rw [if_neg hw, if_neg hw, bind_eq_ok]
        constructor
        · intro ⟨i, hi, h⟩
          obtain ⟨f, hf, hv⟩ := (hfrac i).mp h
          exact ⟨i, f, okOr_eq_ok.mp hi, hf, hv⟩
        · intro ⟨i, f, hi, hf, hv⟩
          exact ⟨i, okOr_eq_ok.mpr hi, (hfrac i).mpr ⟨f, hf, hv⟩⟩

theorem digits_of_readWhole {whole : List Char} {v : Nat} (h : readWhole whole = some v) :
    ∃ (plus : Bool) (cs : List Char), whole = (if plus then ['+'] else []) ++ cs ∧
      (plus = true → cs ≠ []) ∧ ∀ c ∈ cs, c.isDigit = true := by
  unfold readWhole at h
  split at h
  · rename_i hnil
    exact ⟨false, [], by simpa using hnil, by simp, by simp⟩
  · obtain ⟨plus, cs, hwhole, hne, hdigits⟩ := digits_of_parseUnsigned h
    exact ⟨plus, cs, hwhole, fun _ => hne, hdigits⟩

theorem digits_of_readPlaces {frac : List Char} {v : Nat} (h : readPlaces frac = some v) :
    ∀ c ∈ frac.take 9, c.isDigit = true := by
  unfold readPlaces parseFraction at h
  split at h
  · rename_i hnil
    rw [List.isEmpty_iff] at hnil
    simp [hnil]
  · split at h
    · rename_i hall
      exact List.all_eq_true.mp hall
    · cases h

theorem checkedMul128_eq_some {a b r : Nat} :
    checkedMul128 a b = some r ↔ r = a * b ∧ r ≤ u128Max := by
  rw [checkedMul128]
  split
  · rw [Option.some.injEq]
    omega
  · simp only [reduceCtorEq, false_iff]
    omega

theorem checkedAdd128_eq_some {a b r : Nat} :
    checkedAdd128 a b = some r ↔ r = a + b ∧ r ≤ u128Max := by
  rw [checkedAdd128]
  split
  · rw [Option.some.injEq]
    omega
  · simp only [reduceCtorEq, false_iff]
    omega

theorem combine_eq_some {i f v : Nat} :
    combine i f = some v ↔ v = i * nanosPerSec + f ∧ v ≤ u128Max := by
  rw [combine, Option.bind_eq_some_iff]
  constructor
  · intro ⟨w, hmul, hadd⟩
    obtain ⟨rfl, -⟩ := checkedMul128_eq_some.mp hmul
    exact checkedAdd128_eq_some.mp hadd
  · intro ⟨hv, hle⟩
    generalize hw : i * nanosPerSec = w at hv
    exact ⟨w, checkedMul128_eq_some.mpr ⟨hw.symm, by omega⟩, checkedAdd128_eq_some.mpr ⟨hv, hle⟩⟩

/-! ## Numbers -/

/-- A number as the reader takes it: a numeral, maybe after a plus, and beyond nine
    characters of a fraction a tail that it does not look at. -/
structure Numeral where
  plus : Bool
  dec : Decimal
  tail : List Char
  plus_int : plus = true → dec.int ≠ []
  tail_nine : tail ≠ [] → dec.frac.length = 9
  tail_last : ∀ c ∈ tail.getLast?, numeric c = true

namespace Numeral
variable {n n' : Numeral}

def text (n : Numeral) : List Char :=
  (if n.plus then ['+'] else []) ++ n.dec.text ++ n.tail

/-- Nothing but digits in the tail: the text is a numeral. -/
def WellFormed (n : Numeral) : Prop := ∀ c ∈ n.tail, c.isDigit = true

instance (n : Numeral) : Decidable n.WellFormed :=
  List.decidableBAll (fun c : Char => c.isDigit = true) n.tail

theorem point_of_tail (h : n.tail ≠ []) : n.dec.point = true := by
  cases hp : n.dec.point with
  | true => rfl
  | false =>
    have hfrac := n.dec.frac_point hp
    have hnine := n.tail_nine h
    rw [hfrac] at hnine
    cases hnine

/-- The sign and the integer digits. -/
def whole (n : Numeral) : List Char := (if n.plus then ['+'] else []) ++ n.dec.int

theorem text_eq (n : Numeral) :
    n.text = n.whole ++ if n.dec.point then '.' :: (n.dec.frac ++ n.tail) else [] := by
  cases hp : n.dec.point with
  | true => simp [text, whole, Decimal.text, hp]
  | false =>
    have htail : n.tail = [] := by
      by_contra hne
      rw [point_of_tail hne] at hp
      cases hp
    simp [text, whole, Decimal.text, hp, htail]

theorem whole_no_point (n : Numeral) : ∀ c ∈ n.whole, decide (c ≠ '.') = true := by
  intro c hc
  simp only [whole, List.mem_append] at hc
  rcases hc with hsign | hint
  · cases hp : n.plus <;> simp [hp] at hsign
    simp [hsign]
  · have hdigit := n.dec.int_digits c hint
    simp only [decide_eq_true_eq]
    intro heq
    rw [heq] at hdigit
    exact absurd hdigit (by decide)

theorem takeWhile_text (n : Numeral) : n.text.takeWhile (· ≠ '.') = n.whole := by
  rw [text_eq, List.takeWhile_append_of_pos n.whole_no_point]
  cases n.dec.point <;> simp

theorem dropWhile_text (n : Numeral) :
    (n.text.dropWhile (· ≠ '.')).drop 1 = n.dec.frac ++ n.tail := by
  rw [text_eq, List.dropWhile_append_of_pos n.whole_no_point]
  cases hp : n.dec.point with
  | true => simp
  | false =>
    have htail : n.tail = [] := by
      by_contra hne
      rw [point_of_tail hne] at hp
      cases hp
    simp [n.dec.frac_point hp, htail]

theorem head_ne_minus (n : Numeral) : n.text.head? ≠ some '-' := by
  rw [text_eq]
  cases hw : n.whole with
  | nil => cases n.dec.point <;> simp
  | cons c cs =>
    simp only [List.cons_append, List.head?_cons, ne_eq, Option.some.injEq]
    intro heq
    have hmem : '-' ∈ n.whole := by simp [hw, heq]
    simp only [whole, List.mem_append] at hmem
    rcases hmem with hsign | hint
    · cases hp : n.plus <;> simp [hp] at hsign
    · exact absurd (n.dec.int_digits _ hint) (by decide)

theorem whole_empty_iff (n : Numeral) : n.whole = [] ↔ n.dec.int = [] := by
  simp only [whole, List.append_eq_nil_iff, and_iff_right_iff_imp]
  intro hint
  cases hp : n.plus with
  | false => rfl
  | true => exact absurd hint (n.plus_int hp)

/-- The fraction as the code copies it. -/
theorem parseFraction_eq (n : Numeral) :
    parseFraction (n.dec.frac ++ n.tail) = some (ofDigitChars 10 (n.dec.places 9) 0) := by
  -- what stands after nine places is cut off, and what is missing is filled up
  have hplaces : (n.dec.frac ++ n.tail).take 9 ++
      List.replicate (9 - (n.dec.frac ++ n.tail).length) '0' = n.dec.places 9 := by
    by_cases ht : n.tail = []
    · rw [ht, List.append_nil, Decimal.places]
    · have hnine := n.tail_nine ht
      rw [Decimal.places, List.take_append_of_le_length hnine.ge, List.length_append,
        Nat.sub_eq_zero_of_le (by omega), Nat.sub_eq_zero_of_le hnine.ge]
  have hdigits : ∀ c ∈ (n.dec.frac ++ n.tail).take 9, c.isDigit = true := by
    intro c hc
    have hmem : c ∈ n.dec.places 9 := by
      rw [← hplaces]
      exact List.mem_append_left _ hc
    simp only [Decimal.places, List.mem_append, List.mem_replicate] at hmem
    rcases hmem with hfrac | ⟨-, rfl⟩
    · exact n.dec.frac_digits c (List.mem_of_mem_take hfrac)
    · rfl
  have hall : ∀ c ∈ n.dec.places 9, c.isDigit = true := by
    intro c hc
    rw [← hplaces, List.mem_append, List.mem_replicate] at hc
    rcases hc with htake | ⟨-, rfl⟩
    · exact hdigits c htake
    · rfl
  have hlen : (n.dec.places 9).length ≤ 18 := by
    simp only [Decimal.places, List.length_append, List.length_take, List.length_replicate]
    omega
  -- so few digits stay far below the bound of the reader
  have hbound : ofDigitChars 10 (n.dec.places 9) 0 ≤ u128Max := by
    calc ofDigitChars 10 (n.dec.places 9) 0
        ≤ 10 ^ (n.dec.places 9).length := (ofDigitChars_lt hall).le
      _ ≤ 10 ^ 18 := Nat.pow_le_pow_right (by decide) hlen
      _ ≤ u128Max := by decide
  rw [parseFraction, if_pos (List.all_eq_true.mpr hdigits), hplaces]
  exact (readDigits_eq_some (Nat.zero_le _)).mpr ⟨hall, rfl, hbound⟩

/-- The integer part as the code reads it. -/
theorem readWhole_eq_some (n : Numeral) {v : Nat} :
    readWhole n.whole = some v ↔ v = ofDigitChars 10 n.dec.int 0 ∧ v ≤ u128Max := by
  unfold readWhole
  by_cases hnil : n.dec.int = []
  · have hw := n.whole_empty_iff.mpr hnil
    simp only [hw, hnil, List.isEmpty_nil, if_true, Option.some.injEq, Nat.ofDigitChars_nil]
    omega
  · have hw : n.whole.isEmpty = false := by
      rw [List.isEmpty_eq_false_iff, ne_eq, whole_empty_iff]
      exact hnil
    rw [hw, if_neg (by simp)]
    exact parseUnsigned_digits hnil n.dec.int_digits n.plus

theorem readPlaces_eq (n : Numeral) :
    readPlaces (n.dec.frac ++ n.tail) = some (ofDigitChars 10 (n.dec.places 9) 0) := by
  unfold readPlaces
  by_cases hnil : n.dec.frac ++ n.tail = []
  · obtain ⟨hfrac, -⟩ := List.append_eq_nil_iff.mp hnil
    have hzero : n.dec.places 9 = List.replicate 9 '0' := by simp [Decimal.places, hfrac]
    rw [hnil, hzero, Nat.ofDigitChars_replicate_zero]
    rfl
  · rw [List.isEmpty_eq_false_iff.mpr hnil, if_neg (by simp)]
    exact n.parseFraction_eq

theorem scaled_nine (n : Numeral) : n.dec.scaled 9 =
    ofDigitChars 10 n.dec.int 0 * nanosPerSec + ofDigitChars 10 (n.dec.places 9) 0 := by
  have hpow : nanosPerSec = 10 ^ 9 := by decide
  rw [hpow, Decimal.scaled]

/-- The reader takes a numeral if, and only if, its fixed point fits; it is then exact. -/
theorem parseDecimalToNanos_text (n : Numeral) {v : Nat} :
    parseDecimalToNanos n.text = .ok v ↔ v = n.dec.scaled 9 ∧ v ≤ u128Max := by
  have hsome : ¬(n.whole.isEmpty && (n.dec.frac ++ n.tail).isEmpty) = true := by
    rw [Bool.and_eq_true, List.isEmpty_iff, List.isEmpty_iff, whole_empty_iff,
      List.append_eq_nil_iff]
    intro ⟨hint, hfrac, _⟩
    exact n.dec.some_digit.elim (· hint) (· hfrac)
  rw [parseDecimalToNanos_eq_ok, n.takeWhile_text, n.dropWhile_text, readPlaces_eq, scaled_nine]
  have hwhole := fun i => @readWhole_eq_some n i
  generalize ofDigitChars 10 n.dec.int 0 = w at hwhole ⊢
  generalize ofDigitChars 10 (n.dec.places 9) 0 = p
  constructor
  · intro ⟨_, _, i, f, hi, hf, hv⟩
    obtain ⟨rfl, -⟩ := (hwhole i).mp hi
    cases hf
    exact combine_eq_some.mp hv
  · intro ⟨hv, hle⟩
    have hpos : 0 < nanosPerSec := by decide
    have hw : w ≤ w * nanosPerSec := Nat.le_mul_of_pos_right w hpos
    exact ⟨n.head_ne_minus, hsome, w, p, (hwhole w).mpr ⟨rfl, by omega⟩, rfl,
      combine_eq_some.mpr ⟨hv, hle⟩⟩

theorem text_ne_nil (n : Numeral) : n.text ≠ [] := by
  simp [text, n.dec.text_ne_nil]

theorem text_last (n : Numeral) : ∀ c ∈ n.text.getLast?, numeric c = true := by
  intro c hc
  by_cases htail : n.tail = []
  · rw [text, htail, List.append_nil, List.getLast?_append_of_ne_nil _ n.dec.text_ne_nil] at hc
    exact n.dec.text_getLast c hc
  · rw [text, List.getLast?_append_of_ne_nil _ htail] at hc
    exact n.tail_last c hc

end Numeral

/-- Whatever the reader takes is a numeral, with its tail. -/
theorem numeral_of_ok {s : List Char} {v : Nat} (h : parseDecimalToNanos s = .ok v)
    (hlast : ∀ c ∈ s.getLast?, numeric c = true) : ∃ n : Numeral, n.text = s := by
  obtain ⟨-, hsome, i, f, hw, hf, -⟩ := parseDecimalToNanos_eq_ok.mp h
  obtain ⟨plus, int, hint, hplus, hdigits⟩ := digits_of_readWhole hw
  have hnine := digits_of_readPlaces hf
  have hsplit := @List.takeWhile_append_dropWhile _ (fun c => decide (c ≠ '.')) s
  rw [hint] at hsplit hsome
  cases hrest : s.dropWhile (· ≠ '.') with
  | nil =>
    -- no point
    rw [hrest] at hsplit hsome
    refine ⟨⟨plus, ⟨int, false, [], hdigits, by simp, fun _ => rfl, .inl ?_⟩, [], hplus,
      by simp, by simp⟩, ?_⟩
    · intro hnil
      cases hp : plus with
      | true => exact hplus hp hnil
      | false => exact hsome (by simp [hnil, hp])
    · simpa [Numeral.text, Decimal.text] using hsplit
  | cons c frac =>
    have hpoint : c = '.' := by
      have hhead := List.head?_dropWhile_not (fun c => decide (c ≠ '.')) s
      rw [hrest] at hhead
      simpa using hhead
    subst hpoint
    rw [hrest] at hsplit hsome hnine
    simp only [List.drop_one, List.tail_cons] at hnine hsome
    refine ⟨⟨plus, ⟨int, true, frac.take 9, hdigits, hnine, by simp, ?_⟩, frac.drop 9, hplus,
      ?_, ?_⟩, ?_⟩
    · by_cases hnil : int = []
      · right
        intro hfrac
        have hfrac' : frac = [] := by
          rcases List.take_eq_nil_iff.mp hfrac with hzero | hfrac
          · omega
          · exact hfrac
        cases hp : plus with
        | true => exact hplus hp hnil
        | false => exact hsome (by simp [hnil, hp, hfrac'])
      · exact .inl hnil
    · intro htail
      rw [ne_eq, List.drop_eq_nil_iff] at htail
      rw [List.length_take]
      omega
    · intro c hc
      apply hlast c
      have hne : frac.drop 9 ≠ [] := by
        intro hnil
        rw [hnil] at hc
        cases hc
      have hs : s = (if plus then ['+'] else []) ++ int ++ '.' :: frac.take 9 ++ frac.drop 9 := by
        rw [← hsplit]
        simp
      rw [hs, List.getLast?_append_of_ne_nil _ hne]
      exact hc
    · exact Eq.trans (by simp [Numeral.text, Decimal.text]) hsplit

/-! ## The whole text -/

/-- The number cut off the fixed point again, in whole nanoseconds. -/
def scaleBack (v m : Nat) : Option Nat := (checkedMul128 v m).map (· / nanosPerSec)

theorem parseDuration_eq_ok {input : String} {r : Duration} :
    parseDuration input = .ok r ↔ trim input ≠ [] ∧ (splitNumberAndSuffix (trim input)).1 ≠ [] ∧
      ∃ v m total, parseDecimalToNanos (splitNumberAndSuffix (trim input)).1 = .ok v ∧
        unitNanos (splitNumberAndSuffix (trim input)).2 = some m ∧ scaleBack v m = some total ∧
        durationOfNanos total = .ok r := by
  unfold parseDuration
  dsimp only
  generalize trim input = s
  generalize splitNumberAndSuffix s = halves
  obtain ⟨number, suffix⟩ := halves
  dsimp only
  by_cases hs : s.isEmpty = true
  · rw [if_pos hs, throw_bind]
    simp [List.isEmpty_iff.mp hs]
  · have hs' : s ≠ [] := by simpa using hs
    rw [if_neg hs, and_iff_right hs']
    by_cases hn : number.isEmpty = true
    · rw [if_pos hn, throw_bind]
      simp [List.isEmpty_iff.mp hn]
    · have hn' : number ≠ [] := by simpa using hn
      rw [if_neg hn, and_iff_right hn', bind_eq_ok]
      cases hu : unitNanos suffix with
      | none =>
        simp only [reduceCtorEq, false_and, and_false, exists_false]
      | some m =>
        constructor
        · intro ⟨v, hv, h⟩
          obtain ⟨total, htotal, hr⟩ := bind_eq_ok.mp h
          exact ⟨v, m, total, hv, rfl, okOr_eq_ok.mp htotal, hr⟩
        · intro ⟨v, m', total, hv, hm, htotal, hr⟩
          cases hm
          exact ⟨v, hv, bind_eq_ok.mpr ⟨total, okOr_eq_ok.mpr htotal, hr⟩⟩

theorem scaleBack_eq_some {v m total : Nat} :
    scaleBack v m = some total ↔ v * m ≤ u128Max ∧ total = v * m / 10 ^ 9 := by
  have hpow : nanosPerSec = 10 ^ 9 := by decide
  rw [scaleBack, Option.map_eq_some_iff, hpow]
  constructor
  · intro ⟨w, hw, htotal⟩
    obtain ⟨rfl, hle⟩ := checkedMul128_eq_some.mp hw
    exact ⟨hle, htotal.symm⟩
  · intro ⟨hle, htotal⟩
    exact ⟨v * m, checkedMul128_eq_some.mpr ⟨rfl, hle⟩, htotal.symm⟩

theorem durationOfNanos_eq_ok {total : Nat} {r : Duration} :
    durationOfNanos total = .ok r ↔
      total ≤ u64Max ∧ r.asSecs = total / 10 ^ 9 ∧ r.subsecNanos = total % 10 ^ 9 := by
  obtain ⟨secs, nanos, hsecs, hnanos⟩ := r
  unfold durationOfNanos
  by_cases h : u64Max < total
  · rw [dif_pos h]
    simp only [reduceCtorEq, false_iff]
    omega
  · rw [dif_neg h]
    simp only [Except.ok.injEq, Duration.mk.injEq]
    omega

/-- The number ends where the unit begins. -/
theorem splitNumberAndSuffix_append {number suffix : List Char}
    (hlast : ∀ c ∈ number.getLast?, numeric c = true)
    (hsuffix : ∀ c ∈ suffix, isLetterLike c = true) :
    splitNumberAndSuffix (number ++ suffix) = (number, suffix) := by
  have hnumber : ∀ c ∈ number.getLast?, (!(c.isDigit || c == '.')) = false := by
    intro c hc
    have hnum := hlast c hc
    rw [numeric] at hnum
    rw [hnum]
    rfl
  have hunit : ∀ c ∈ suffix, (!(c.isDigit || c == '.')) = true := by
    intro c hc
    have hletter := hsuffix c hc
    rw [isLetterLike, Bool.and_eq_true] at hletter
    exact hletter.1
  obtain ⟨hleft, hright⟩ := rsplit_append hnumber hunit
  exact Prod.ext hleft hright

/-- What is left of the suffix ends in a digit or the point, if anything is. -/
theorem splitNumberAndSuffix_last (s : List Char) :
    ∀ c ∈ (splitNumberAndSuffix s).1.getLast?, numeric c = true := by
  intro c hc
  have hne : (splitNumberAndSuffix s).1 ≠ [] := by
    intro hnil
    rw [hnil] at hc
    cases hc
  have hlast := List.rdropWhile_last_not (fun c : Char => !(c.isDigit || c == '.')) s hne
  have hget : (splitNumberAndSuffix s).1.getLast hne = c := by
    rw [List.getLast?_eq_some_getLast hne] at hc
    exact Option.some.inj hc
  rw [Bool.not_eq_true, Bool.not_eq_false'] at hlast
  rw [← hget]
  exact hlast

theorem splitNumberAndSuffix_eq (s : List Char) :
    (splitNumberAndSuffix s).1 ++ (splitNumberAndSuffix s).2 = s :=
  rsplit_eq _ s

/-- A number with its unit, in nanoseconds rounded down. -/
def wholeNanos (d : Decimal) (u : TimeUnit) : Nat := d.scaled 9 * u.nanos / 10 ^ 9

theorem wholeNanos_mono {d d' : Decimal} (h : d.value ≤ d'.value) (u : TimeUnit) :
    wholeNanos d u ≤ wholeNanos d' u := by
  apply Nat.div_le_div_right
  apply Nat.mul_le_mul_right
  exact Decimal.scaled_mono h 9

/-- The intermediate products fit whenever the result does. -/
theorem products_fit {v m : Nat} (hm : 1000 ≤ m) (h : v * m / 10 ^ 9 ≤ u64Max) :
    v ≤ u128Max ∧ v * m ≤ u128Max := by
  have hprod : v * m < (u64Max + 1) * 10 ^ 9 :=
    (Nat.div_lt_iff_lt_mul (by decide)).mp (Nat.lt_succ_of_le h)
  have hbound : (u64Max + 1) * 10 ^ 9 ≤ u128Max := by decide
  have hle : v ≤ v * m := Nat.le_mul_of_pos_right v (by omega)
  omega

/-- A number and a unit are read if, and only if, the nanoseconds fit, and exactly. -/
theorem parseDuration_numeral {input : String} {n : Numeral} {suffix : List Char} {u : TimeUnit}
    {r : Duration} (hunit : u.Spelled suffix) (ht : trim input = n.text ++ suffix) :
    parseDuration input = .ok r ↔ wholeNanos n.dec u ≤ u64Max ∧
      r.asSecs = wholeNanos n.dec u / 10 ^ 9 ∧ r.subsecNanos = wholeNanos n.dec u % 10 ^ 9 := by
  have hsplit := splitNumberAndSuffix_append n.text_last hunit.letterLike
  have hmul : unitNanos suffix = some u.nanos := unitNanos_iff.mpr ⟨u, hunit, rfl⟩
  have hne : n.text ++ suffix ≠ [] := by simp [n.text_ne_nil]
  rw [parseDuration_eq_ok, ht, hsplit, hmul, and_iff_right hne, and_iff_right n.text_ne_nil,
    ← durationOfNanos_eq_ok]
  constructor
  · intro ⟨v, m, total, hv, hm, htotal, hr⟩
    obtain ⟨rfl, -⟩ := n.parseDecimalToNanos_text.mp hv
    cases hm
    obtain ⟨-, rfl⟩ := scaleBack_eq_some.mp htotal
    exact hr
  · intro hr
    obtain ⟨hle, -⟩ := durationOfNanos_eq_ok.mp hr
    obtain ⟨hv, hvm⟩ := products_fit u.nanos_pos hle
    exact ⟨_, _, _, n.parseDecimalToNanos_text.mpr ⟨rfl, hv⟩, rfl,
      scaleBack_eq_some.mpr ⟨hvm, rfl⟩, hr⟩

/-- Whatever is read is a number, as the reader takes it, and a unit. -/
theorem numeral_of_parseDuration {input : String} {r : Duration} (h : parseDuration input = .ok r) :
    ∃ (n : Numeral) (suffix : List Char) (u : TimeUnit),
      trim input = n.text ++ suffix ∧ u.Spelled suffix := by
  obtain ⟨-, -, v, m, total, hv, hm, -⟩ := parseDuration_eq_ok.mp h
  obtain ⟨n, hn⟩ := numeral_of_ok hv (splitNumberAndSuffix_last _)
  obtain ⟨u, hunit, -⟩ := unitNanos_iff.mp hm
  refine ⟨n, _, u, ?_, hunit⟩
  rw [hn]
  exact (splitNumberAndSuffix_eq _).symm

/-! ## Exactness -/

/-- The numeral with no sign and no tail. -/
def Numeral.ofDecimal (d : Decimal) : Numeral := ⟨false, d, [], by simp, by simp, by simp⟩

theorem Numeral.ofDecimal_text (d : Decimal) : (Numeral.ofDecimal d).text = d.text := by
  simp [Numeral.ofDecimal, Numeral.text]

theorem dropWhile_eq_self {p : Char → Bool} {s : List Char} (h : ∀ c ∈ s.head?, p c = false) :
    s.dropWhile p = s := by
  cases s with
  | nil => rfl
  | cons c cs => rw [List.dropWhile_cons, h c rfl, if_neg (by simp)]

theorem numeric_not_white {c : Char} (h : numeric c = true) : isWhite c = false := by
  simp only [numeric, Bool.or_eq_true, beq_iff_eq] at h
  rcases h with hdigit | rfl
  · simp only [Char.isDigit, Bool.and_eq_true, decide_eq_true_eq, UInt32.le_iff_toNat_le]
      at hdigit
    obtain ⟨hlow, hhigh⟩ := hdigit
    change 48 ≤ c.toNat at hlow
    change c.toNat ≤ 57 at hhigh
    simp only [isWhite, Bool.or_eq_false_iff, Bool.and_eq_false_iff, beq_eq_false_iff_ne,
      decide_eq_false_iff_not]
    omega
  · rfl

/-- A text of numbers and letters has nothing to trim. -/
theorem trim_ofList {s : List Char} (h : ∀ c ∈ s, isWhite c = false) :
    trim (String.ofList s) = s := by
  have hhead : s.dropWhile isWhite = s :=
    dropWhile_eq_self fun c hc => h c (List.mem_of_mem_head? hc)
  have hlast : s.reverse.dropWhile isWhite = s.reverse :=
    dropWhile_eq_self fun c hc => h c (List.mem_reverse.mp (List.mem_of_mem_head? hc))
  rw [trim, String.toList_ofList, hhead, List.rdropWhile, hlast, List.reverse_reverse]

theorem decimal_text_numeric (d : Decimal) : ∀ c ∈ d.text, numeric c = true := by
  intro c hc
  simp only [Decimal.text, List.mem_append] at hc
  rcases hc with hint | hrest
  · simp [numeric, d.int_digits c hint]
  · cases hp : d.point with
    | false => simp [hp] at hrest
    | true =>
      simp only [hp, if_true, List.mem_cons] at hrest
      rcases hrest with rfl | hfrac
      · rfl
      · simp [numeric, d.frac_digits c hfrac]

theorem trim_decimal {d : Decimal} {suffix : List Char} {u : TimeUnit} (hunit : u.Spelled suffix) :
    trim (String.ofList (d.text ++ suffix)) = (Numeral.ofDecimal d).text ++ suffix := by
  rw [Numeral.ofDecimal_text, trim_ofList]
  intro c hc
  rcases List.mem_append.mp hc with htext | hsuffix
  · exact numeric_not_white (decimal_text_numeric d c htext)
  · have hletter := hunit.letterLike c hsuffix
    simp only [isLetterLike, Bool.and_eq_true, Bool.not_eq_true'] at hletter
    exact hletter.2

theorem parseDuration_decimal {d : Decimal} {suffix : List Char} {u : TimeUnit} {r : Duration}
    (hunit : u.Spelled suffix) :
    parseDuration (String.ofList (d.text ++ suffix)) = .ok r ↔ wholeNanos d u ≤ u64Max ∧
      r.asSecs = wholeNanos d u / 10 ^ 9 ∧ r.subsecNanos = wholeNanos d u % 10 ^ 9 := by
  have hdec : (Numeral.ofDecimal d).dec = d := rfl
  rw [parseDuration_numeral hunit (trim_decimal hunit), hdec]

theorem parseDuration_fits {d : Decimal} {suffix : List Char} {u : TimeUnit}
    (hunit : u.Spelled suffix) (hle : wholeNanos d u ≤ u64Max) :
    ∃ r, parseDuration (String.ofList (d.text ++ suffix)) = .ok r ∧
      r.asSecs = wholeNanos d u / 10 ^ 9 ∧ r.subsecNanos = wholeNanos d u % 10 ^ 9 := by
  cases hr : durationOfNanos (wholeNanos d u) with
  | error e =>
    rw [durationOfNanos, dif_neg (by omega)] at hr
    cases hr
  | ok r =>
    have hval := durationOfNanos_eq_ok.mp hr
    exact ⟨r, (parseDuration_decimal hunit).mpr hval, hval.2⟩

/-- **A duration is read exactly.** Its value rounded down to a nanosecond, if `u64` holds it,
    and an error otherwise; a larger number with the same unit is never a shorter duration. -/
theorem duration_exact (d : Decimal) (u : TimeUnit) (suffix : List Char)
    (hunit : u.Spelled suffix) :
    (wholeNanos d u ≤ u64Max → ∃ r, parseDuration (String.ofList (d.text ++ suffix)) = .ok r ∧
      r.asSecs = wholeNanos d u / 10 ^ 9 ∧ r.subsecNanos = wholeNanos d u % 10 ^ 9) ∧
    (u64Max < wholeNanos d u →
      ∃ e, parseDuration (String.ofList (d.text ++ suffix)) = .error e) ∧
    ∀ (d' : Decimal) (suffix' : List Char) (r' : Duration), u.Spelled suffix' →
      d.value ≤ d'.value → parseDuration (String.ofList (d'.text ++ suffix')) = .ok r' →
      ∃ r, parseDuration (String.ofList (d.text ++ suffix)) = .ok r ∧
        r.asSecs * 10 ^ 9 + r.subsecNanos ≤ r'.asSecs * 10 ^ 9 + r'.subsecNanos := by
  refine ⟨parseDuration_fits hunit, ?_, ?_⟩
  · intro hlt
    cases hp : parseDuration (String.ofList (d.text ++ suffix)) with
    | error e => exact ⟨e, rfl⟩
    | ok r =>
      obtain ⟨hle, -⟩ := (parseDuration_decimal hunit).mp hp
      omega
  · intro d' suffix' r' hunit' hvalue hr'
    obtain ⟨hle', hsecs', hnanos'⟩ := (parseDuration_decimal hunit').mp hr'
    have hmono := wholeNanos_mono hvalue u
    obtain ⟨r, hr, hsecs, hnanos⟩ := parseDuration_fits hunit (hmono.trans hle')
    refine ⟨r, hr, ?_⟩
    calc r.asSecs * 10 ^ 9 + r.subsecNanos = wholeNanos d u := by rw [hsecs, hnanos]; omega
      _ ≤ wholeNanos d' u := hmono
      _ = r'.asSecs * 10 ^ 9 + r'.subsecNanos := by rw [hsecs', hnanos']; omega

def oneAndAHalf : Decimal :=
  ⟨['1'], true, ['5'], by simp, by simp, by simp, by simp⟩

theorem duration_exact_minutes :
    TimeUnit.minutes.Spelled ['M'] ∧
    ((wholeNanos oneAndAHalf .minutes ≤ u64Max →
      ∃ r, parseDuration (String.ofList (oneAndAHalf.text ++ ['M'])) = .ok r ∧
        r.asSecs = wholeNanos oneAndAHalf .minutes / 10 ^ 9 ∧
        r.subsecNanos = wholeNanos oneAndAHalf .minutes % 10 ^ 9) ∧
    (u64Max < wholeNanos oneAndAHalf .minutes →
      ∃ e, parseDuration (String.ofList (oneAndAHalf.text ++ ['M'])) = .error e) ∧
    ∀ (d' : Decimal) (suffix' : List Char) (r' : Duration), TimeUnit.minutes.Spelled suffix' →
      oneAndAHalf.value ≤ d'.value →
      parseDuration (String.ofList (d'.text ++ suffix')) = .ok r' →
      ∃ r, parseDuration (String.ofList (oneAndAHalf.text ++ ['M'])) = .ok r ∧
        r.asSecs * 10 ^ 9 + r.subsecNanos ≤ r'.asSecs * 10 ^ 9 + r'.subsecNanos) :=
  have hunit : TimeUnit.minutes.Spelled ['M'] := by
    unfold TimeUnit.Spelled
    decide +kernel
  ⟨hunit, duration_exact oneAndAHalf .minutes ['M'] hunit⟩

/-! ## Well-formed durations -/

/-- A duration as it is documented: a number made of digits with at most one point, a plus
    before integer digits only, and a unit directly after it. -/
def WellFormed (input : String) : Prop :=
  ∃ (plus : Bool) (d : Decimal) (suffix : List Char) (u : TimeUnit),
    trim input = (if plus then ['+'] else []) ++ d.text ++ suffix ∧
      (plus = true → d.int ≠ []) ∧ u.Spelled suffix

/-- Beyond the ninth digit of the fraction there is something else than digits, in what is
    otherwise a duration in range. -/
def Overlooked (input : String) : Prop :=
  ∃ (n : Numeral) (suffix : List Char) (u : TimeUnit),
    trim input = n.text ++ suffix ∧ u.Spelled suffix ∧ wholeNanos n.dec u ≤ u64Max ∧ ¬n.WellFormed

namespace Numeral

theorem int_digits (n : Numeral) : ∀ c ∈ n.dec.int, c.isDigit = true := n.dec.int_digits

/-- With digits only in the tail, these are digits of the fraction. -/
def joined (n : Numeral) (h : n.WellFormed) : Decimal where
  int := n.dec.int
  point := n.dec.point
  frac := n.dec.frac ++ n.tail
  int_digits := n.int_digits
  frac_digits := by
    intro c hc
    exact (List.mem_append.mp hc).elim (n.dec.frac_digits c) (h c)
  frac_point := by
    intro hp
    have htail : n.tail = [] := by
      by_contra hne
      rw [n.point_of_tail hne] at hp
      cases hp
    simp [n.dec.frac_point hp, htail]
  some_digit := n.dec.some_digit.imp id fun hfrac => by simp [hfrac]

theorem joined_text (n : Numeral) (h : n.WellFormed) :
    n.text = (if n.plus then ['+'] else []) ++ (n.joined h).text := by
  rw [text_eq, whole, List.append_assoc]
  rfl

end Numeral

theorem wellFormed_of_numeral {input : String} {n : Numeral} {suffix : List Char} {u : TimeUnit}
    (ht : trim input = n.text ++ suffix) (hunit : u.Spelled suffix) (hn : n.WellFormed) :
    WellFormed input :=
  ⟨n.plus, n.joined hn, suffix, u, by rw [ht, n.joined_text hn], n.plus_int, hunit⟩

/-- The number of a text is the same however it is read, and so is its fraction. -/
theorem Overlooked.not_wellFormed {input : String} (h : Overlooked input) : ¬WellFormed input := by
  intro ⟨plus, d, suffix', u', ht', hplus, hunit'⟩
  obtain ⟨n, suffix, u, ht, hunit, -, hbad⟩ := h
  let n' : Numeral := ⟨plus, d, [], hplus, by simp, by simp⟩
  have ht' : trim input = n'.text ++ suffix' := by
    rw [ht']
    simp [n', Numeral.text]
  have hsplit := splitNumberAndSuffix_append n.text_last hunit.letterLike
  have hsplit' := splitNumberAndSuffix_append n'.text_last hunit'.letterLike
  rw [← ht] at hsplit
  rw [← ht', hsplit] at hsplit'
  have hfrac : n.dec.frac ++ n.tail = d.frac := by
    calc n.dec.frac ++ n.tail = (n.text.dropWhile (· ≠ '.')).drop 1 := n.dropWhile_text.symm
      _ = (n'.text.dropWhile (· ≠ '.')).drop 1 := by rw [(Prod.mk.inj hsplit').1]
      _ = n'.dec.frac ++ n'.tail := n'.dropWhile_text
      _ = d.frac := by simp [n']
  apply hbad
  intro c hc
  apply d.frac_digits
  rw [← hfrac]
  exact List.mem_append_right _ hc

/-- **What is accepted is a duration, except beyond the ninth digit.** A text is read although it
    is malformed exactly when the malformed part lies past nine digits of the fraction. -/
theorem accepted_wellFormed_iff (input : String) :
    ((∃ r, parseDuration input = .ok r) → WellFormed input) ↔ ¬Overlooked input := by
  constructor
  · intro h hover
    obtain ⟨n, suffix, u, ht, hunit, hle, hbad⟩ := hover
    cases hr : durationOfNanos (wholeNanos n.dec u) with
    | error e =>
      rw [durationOfNanos, dif_neg (by omega)] at hr
      cases hr
    | ok r =>
      have hread := (parseDuration_numeral hunit ht).mpr (durationOfNanos_eq_ok.mp hr)
      exact Overlooked.not_wellFormed ⟨n, suffix, u, ht, hunit, hle, hbad⟩ (h ⟨r, hread⟩)
  · intro hnot ⟨r, hr⟩
    obtain ⟨n, suffix, u, ht, hunit⟩ := numeral_of_parseDuration hr
    obtain ⟨hle, -⟩ := (parseDuration_numeral hunit ht).mp hr
    by_cases hn : n.WellFormed
    · exact wellFormed_of_numeral ht hunit hn
    · exact absurd ⟨n, suffix, u, ht, hunit, hle, hn⟩ hnot

/-- "1.123456789x5s": nine digits, and then anything. -/
def nineDigitsAndMore : Numeral :=
  ⟨false, ⟨['1'], true, ['1', '2', '3', '4', '5', '6', '7', '8', '9'], by simp, by simp, by simp,
    by simp⟩, ['x', '5'], by simp, by simp, by simp [numeric]⟩

theorem malformed_accepted :
    ¬∀ input : String, (∃ r, parseDuration input = .ok r) → WellFormed input := by
  intro h
  have hunit : TimeUnit.seconds.Spelled ['s'] := by
    unfold TimeUnit.Spelled
    decide +kernel
  have hover : Overlooked "1.123456789x5s" :=
    ⟨nineDigitsAndMore, ['s'], .seconds, by decide +kernel, hunit, by decide +kernel,
      by decide +kernel⟩
  have hread : (parseDuration "1.123456789x5s").isOk = true := by decide +kernel
  cases hp : parseDuration "1.123456789x5s" with
  | error e =>
    rw [hp] at hread
    cases hread
  | ok r => exact hover.not_wellFormed (h _ ⟨r, hp⟩)

end Procguard
