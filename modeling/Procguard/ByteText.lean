import Procguard.Checked
import Procguard.Values

/- The value parsers down to the bytes they look at: where `duration.rs`, `rlimit.rs`
   and `signal.rs` search for an offset, index the bytes and slice. The functions of
   `Duration` and `Values` read a list of characters; the ones here are the same
   functions with every access checked, and each is the other one lifted, so that no
   text makes an access go wrong. -/
namespace Procguard.Bytewise
open Text Checked

variable {ε : Type}

/-! ## Durations -/

/-- Cut after the last digit or point: the offset behind it, then two slices. -/
def splitNumberAndSuffix (input : List Char) : Run ε (List Char × List Char) := do
  let suffixStart := ((charIndices 0 input).reverse.find? fun x =>
    x.2.isDigit || x.2 == '.').elim 0 fun x => x.1 + x.2.utf8Size
  let number ← sliceTo input suffixStart
  let suffix ← sliceFrom input suffixStart
  pure (number, suffix)

theorem splitNumberAndSuffix_eq (input : List Char) :
    (splitNumberAndSuffix input : Run ε _) = .ok (Procguard.splitNumberAndSuffix input) := by
  unfold splitNumberAndSuffix Procguard.splitNumberAndSuffix
  have hoff := rfind_charIndices (fun c => c.isDigit || c == '.') 0 input
  have hsplit := rsplit_eq (fun c => !(c.isDigit || c == '.')) input
  generalize input.rdropWhile (fun c => !(c.isDigit || c == '.')) = number at hoff hsplit ⊢
  generalize input.rtakeWhile (fun c => !(c.isDigit || c == '.')) = suffix at hsplit ⊢
  subst hsplit
  rw [Nat.zero_add] at hoff
  simp only [hoff]
  rw [sliceTo_append, sliceFrom_append]
  rfl

/-- The sides of the first point, or the whole text; the point is one byte. -/
def splitPoint (s : List Char) : Run ε (List Char × List Char) :=
  match (charIndices 0 s).find? fun x => x.2 == '.' with
  | some (pos, _) => do
    let intPart ← sliceTo s pos
    let fracPart ← sliceFrom s (pos + 1)
    pure (intPart, fracPart)
  | none => .ok (s, [])

theorem splitPoint_eq (s : List Char) : (splitPoint s : Run ε _) =
    .ok (s.takeWhile (· ≠ '.'), (s.dropWhile (· ≠ '.')).drop 1) := by
  have hfind := find_charIndices (fun c => c == '.') 0 s
  have hnot : (fun c : Char => !(c == '.')) = fun c => decide (c ≠ '.') := by
    funext c
    by_cases hc : c = '.'
    · simp [hc]
    · simp [hc]
  rw [hnot] at hfind
  have hsplit : s.takeWhile (· ≠ '.') ++ s.dropWhile (· ≠ '.') = s :=
    List.takeWhile_append_dropWhile
  unfold splitPoint
  rw [hfind]
  cases hrest : s.dropWhile (· ≠ '.') with
  | nil =>
    rw [hrest, List.append_nil] at hsplit
    rw [hsplit]
    rfl
  | cons c frac =>
    have hc : c = '.' := by
      have hhead := List.head?_dropWhile_not (fun c => decide (c ≠ '.')) s
      rw [hrest] at hhead
      simpa using hhead
    subst hc
    rw [hrest] at hsplit
    generalize s.takeWhile (· ≠ '.') = whole at hsplit ⊢
    subst hsplit
    have hfrac : (sliceFrom (whole ++ '.' :: frac) (0 + String.utf8Len whole + 1) : Run ε _) =
        .ok frac := by
      rw [List.append_cons, Nat.zero_add,
        show String.utf8Len whole + 1 = String.utf8Len (whole ++ ['.']) by simp; rfl]
      exact sliceFrom_append
    simp only [List.head?_cons, Option.map_some]
    rw [hfrac, Nat.zero_add, sliceTo_append]
    rfl

/-- The bytes of a fraction, copied into a buffer from `i` on. -/
def fillFraction (e : TimeoutError) : List UInt8 → Nat → List UInt8 → Run TimeoutError (List UInt8)
  | fracBuf, _, [] => .ok fracBuf
  | fracBuf, i, b :: bytes =>
    if b.toChar.isDigit then do
      let fracBuf ← setIndex fracBuf i b
      fillFraction e fracBuf (i + 1) bytes
    else .error (.stop e)

/-- `from_utf8_unchecked`, which is sound on ASCII bytes; anything else counts as a fault. -/
def fromUtf8Unchecked (buf : List UInt8) : Run ε (List Char) :=
  if buf.all fun b => decide (b.toNat < 0x80) then .ok (buf.map UInt8.toChar) else .error .panic

/-- The digits after the point: at most nine bytes, over a buffer of nine zeros. -/
def parseFraction (s fracPart : List Char) : Run TimeoutError Nat := do
  let zeros := List.replicate 9 (firstByte '0')
  let fracBuf ← fillFraction (invalidNumber s) zeros 0 ((asBytes fracPart).take 9)
  let fracStr ← fromUtf8Unchecked fracBuf
  lift (okOr (invalidNumber s) (parseUnsigned u128Max fracStr))

def parseDecimalToNanos (s : List Char) : Run TimeoutError Nat := do
  if s.head? = some '-' then throw (.stop .negativeDuration)
  let (intPart, fracPart) ← splitPoint s
  if intPart.isEmpty && fracPart.isEmpty then
    throw (.stop (.invalidDuration "invalid number '.'"))
  let intVal ← if intPart.isEmpty then pure 0 else
    lift (okOr (invalidNumber s) (parseUnsigned u128Max intPart))
  let fracVal ← if fracPart.isEmpty then pure 0 else parseFraction s fracPart
  lift (okOr .durationOverflow ((checkedMul128 intVal nanosPerSec).bind (checkedAdd128 · fracVal)))

def parseDuration (input : String) : Run TimeoutError Duration := do
  let input := trim input
  if input.isEmpty then throw (.stop (.invalidDuration "empty duration"))
  let (numStr, suffix) ← splitNumberAndSuffix input
  if numStr.isEmpty then
    let text := String.ofList input
    throw (.stop (.invalidDuration s!"no numeric value in '{text}'"))
  let nanos ← parseDecimalToNanos numStr
  match unitNanos suffix with
  | none =>
    let text := String.ofList suffix
    throw (.stop (.invalidDuration s!"invalid suffix '{text}'"))
  | some multiplier =>
    let total ← lift (okOr .durationOverflow
      ((checkedMul128 nanos multiplier).map (· / nanosPerSec)))
    lift (durationOfNanos total)

/-! The bytes of a fraction are digits where its characters are. -/

theorem digit_ascii {c : Char} (h : c.isDigit = true) : c.toNat < 0x80 := by
  have hle := (Char.isDigit_iff_toNat.mp h).2
  exact Nat.lt_of_le_of_lt hle (by decide)

theorem firstByte_isDigit (c : Char) : (firstByte c).toChar.isDigit = c.isDigit := by
  rcases Nat.lt_or_ge c.toNat 0x80 with hascii | hwide
  · rw [toChar_firstByte hascii]
  · have hbyte := le_firstByte hwide
    have hnot : ∀ d : Char, 0x80 ≤ d.toNat → d.isDigit = false := by
      intro d hd
      cases hdig : d.isDigit with
      | false => rfl
      | true => exact absurd (digit_ascii hdig) (by omega)
    rw [hnot _ hwide, hnot _ (by omega)]

theorem asBytes_cons (c : Char) (s : List Char) :
    ∃ bytes, asBytes (c :: s) = firstByte c :: bytes ∧ (c.toNat < 0x80 → bytes = asBytes s) := by
  cases hb : String.utf8EncodeChar c with
  | nil =>
    have hpos := c.utf8Size_pos
    rw [← String.length_utf8EncodeChar, hb] at hpos
    exact absurd hpos (by simp)
  | cons b bs =>
    refine ⟨bs ++ asBytes s, ?_, ?_⟩
    · rw [show asBytes (c :: s) = String.utf8EncodeChar c ++ asBytes s from rfl, firstByte, hb]
      rfl
    · intro h
      have hlen := String.length_utf8EncodeChar c
      rw [hb, utf8Size_ascii h, List.length_cons] at hlen
      rw [List.eq_nil_of_length_eq_zero (Nat.succ.inj hlen), List.nil_append]

/-- So many bytes are digits if so many characters are, and then they are the same. -/
theorem take_asBytes (n : Nat) (s : List Char) :
    ((asBytes s).take n).all (fun b => b.toChar.isDigit) = (s.take n).all Char.isDigit ∧
      ((s.take n).all Char.isDigit = true → ((asBytes s).take n).map UInt8.toChar = s.take n) := by
  induction s generalizing n with
  | nil => cases n <;> exact ⟨rfl, fun _ => rfl⟩
  | cons c s ih =>
    cases n with
    | zero => exact ⟨rfl, fun _ => rfl⟩
    | succ n =>
      obtain ⟨bytes, hbytes, hascii⟩ := asBytes_cons c s
      rw [hbytes, List.take_succ_cons, List.take_succ_cons, List.all_cons, List.all_cons,
        firstByte_isDigit]
      cases hc : c.isDigit with
      | false => exact ⟨rfl, fun h => by cases h⟩
      | true =>
        obtain ⟨hall, hmap⟩ := ih n
        have hlow := digit_ascii hc
        rw [hascii hlow, hall]
        refine ⟨rfl, fun h => ?_⟩
        rw [List.map_cons, toChar_firstByte hlow, hmap h]

/-- The copy stays in the buffer, which is that much longer than `i`. -/
theorem fillFraction_eq (e : TimeoutError) : ∀ (bytes fracBuf : List UInt8) (i : Nat),
    i + bytes.length ≤ fracBuf.length → fillFraction e fracBuf i bytes =
      if bytes.all (fun b => b.toChar.isDigit) then
        .ok (fracBuf.take i ++ bytes ++ fracBuf.drop (i + bytes.length))
      else .error (.stop e) := by
  intro bytes
  induction bytes with
  | nil =>
    intro fracBuf i _
    simp [fillFraction]
  | cons b bytes ih =>
    intro fracBuf i hlen
    rw [List.length_cons] at hlen
    rw [fillFraction, List.all_cons]
    cases hb : b.toChar.isDigit with
    | false => rfl
    | true =>
      have hi : i < fracBuf.length := by omega
      rw [if_pos rfl, setIndex_ok b hi]
      refine (ih (fracBuf.set i b) (i + 1) (by rw [List.length_set]; omega)).trans ?_
      have htake : (fracBuf.set i b).take (i + 1) = fracBuf.take i ++ [b] := by
        rw [List.take_succ_eq_append_getElem (by rw [List.length_set]; exact hi),
          List.take_set_of_le (Nat.le_refl i), List.getElem_set_self]
      have hdrop : (fracBuf.set i b).drop (i + 1 + bytes.length) =
          fracBuf.drop (i + (bytes.length + 1)) := by
        rw [List.drop_set_of_lt (by omega)]
        congr 1
        omega
      rw [htake, hdrop, List.length_cons, List.append_assoc _ [b]]
      rfl

theorem parseUnsigned_of_digit {max : Nat} {c : Char} {cs : List Char} (h : c.isDigit = true) :
    parseUnsigned max (c :: cs) = readDigits max 0 (c :: cs) := by
  unfold parseUnsigned
  split
  · contradiction
  · next heq =>
    cases heq
    exact absurd h (by decide)
  · rfl

/-- The nine places that are read: those of the fraction, then zeros. -/
def ninePlaces (fracPart : List Char) : List Char :=
  fracPart.take 9 ++ List.replicate (9 - fracPart.length) '0'

section
variable {fracPart : List Char} (hdig : (fracPart.take 9).all Char.isDigit = true)
include hdig

theorem ninePlaces_digits : ∀ c ∈ ninePlaces fracPart, c.isDigit = true := by
  intro c hc
  rcases List.mem_append.mp hc with hc | hc
  · exact List.all_eq_true.mp hdig c hc
  · rw [List.eq_of_mem_replicate hc]
    decide

theorem parseUnsigned_ninePlaces (max : Nat) :
    parseUnsigned max (ninePlaces fracPart) = readDigits max 0 (ninePlaces fracPart) := by
  have hdigits := ninePlaces_digits hdig
  have hlen : (ninePlaces fracPart).length = 9 := by
    rw [ninePlaces, List.length_append, List.length_take, List.length_replicate]
    omega
  cases hcs : ninePlaces fracPart with
  | nil =>
    rw [hcs] at hlen
    cases hlen
  | cons c cs => exact parseUnsigned_of_digit (hdigits c (by rw [hcs]; simp))

/-- What is in the buffer in the end: the copied bytes over the zeros. -/
theorem filled_toChar :
    ((asBytes fracPart).take 9 ++ (List.replicate 9 (firstByte '0')).drop
      ((asBytes fracPart).take 9).length).map UInt8.toChar = ninePlaces fracPart := by
  have hmap := (take_asBytes 9 fracPart).2 hdig
  have hzero : (firstByte '0').toChar = '0' := toChar_firstByte (by decide)
  have hcount : 9 - ((asBytes fracPart).take 9).length = 9 - fracPart.length := by
    rw [← List.length_map (f := UInt8.toChar), hmap, List.length_take]
    omega
  rw [List.map_append, hmap, List.drop_replicate, List.map_replicate, hzero, hcount]
  rfl

end

theorem fromUtf8Unchecked_ok {buf : List UInt8} (h : ∀ b ∈ buf, b.toNat < 0x80) :
    (fromUtf8Unchecked buf : Run ε _) = .ok (buf.map UInt8.toChar) := by
  have hall : buf.all (fun b => decide (b.toNat < 0x80)) = true := by
    rw [List.all_eq_true]
    exact fun b hb => decide_eq_true (h b hb)
  unfold fromUtf8Unchecked
  rw [if_pos hall]

theorem parseFraction_eq (s fracPart : List Char) : parseFraction s fracPart =
    lift (okOr (invalidNumber s) (Procguard.parseFraction fracPart)) := by
  have hlen : 0 + ((asBytes fracPart).take 9).length ≤
      (List.replicate 9 (firstByte '0')).length := by
    rw [List.length_replicate, Nat.zero_add]
    exact List.length_take_le 9 _
  unfold parseFraction Procguard.parseFraction
  dsimp only
  rw [fillFraction_eq _ _ _ 0 hlen, (take_asBytes 9 fracPart).1]
  cases hdig : (fracPart.take 9).all Char.isDigit with
  | false => rfl
  | true =>
    have hfilled := filled_toChar hdig
    rw [if_pos rfl, if_pos rfl, List.take_zero, List.nil_append, Nat.zero_add, ok_bind]
    generalize (asBytes fracPart).take 9 ++ _ = buf at hfilled ⊢
    have hascii : ∀ b ∈ buf, b.toNat < 0x80 := by
      intro b hb
      have hmem : b.toChar ∈ ninePlaces fracPart := by
        rw [← hfilled]
        exact List.mem_map_of_mem hb
      exact digit_ascii (ninePlaces_digits hdig _ hmem)
    rw [fromUtf8Unchecked_ok hascii, ok_bind, hfilled, parseUnsigned_ninePlaces hdig]
    rfl

theorem parseDecimalToNanos_eq (s : List Char) :
    parseDecimalToNanos s = lift (Procguard.parseDecimalToNanos s) := by
  unfold parseDecimalToNanos Procguard.parseDecimalToNanos
  rw [splitPoint_eq, ok_bind]
  dsimp only
  generalize (s.dropWhile (· ≠ '.')).drop 1 = fracPart
  generalize s.takeWhile (· ≠ '.') = intPart
  by_cases hminus : s.head? = some '-'
  · rw [if_pos hminus, if_pos hminus]
    rfl
  · rw [if_neg hminus, if_neg hminus]
    by_cases hbare : (intPart.isEmpty && fracPart.isEmpty) = true
    · rw [if_pos hbare, if_pos hbare]
      rfl
    · rw [if_neg hbare, if_neg hbare]
      simp only [pure_bind, parseFraction_eq, lift_bind, apply_ite lift]

/-- **Reading a duration slices at boundaries only**, and reads what `parseDuration` reads. -/
theorem parseDuration_eq (input : String) :
    parseDuration input = lift (Procguard.parseDuration input) := by
  unfold parseDuration Procguard.parseDuration
  dsimp only
  generalize trim input = s
  rw [splitNumberAndSuffix_eq]
  by_cases hempty : s.isEmpty = true
  · rw [if_pos hempty, if_pos hempty]
    rfl
  · rw [if_neg hempty, if_neg hempty]
    by_cases hnum : (Procguard.splitNumberAndSuffix s).1.isEmpty = true
    · simp only [ok_bind, if_pos hnum]
      rfl
    · simp only [ok_bind, if_neg hnum, lift_bind, parseDecimalToNanos_eq]
      cases unitNanos (Procguard.splitNumberAndSuffix s).2 with
      | none => rfl
      | some multiplier => simp only [lift_bind]

/-! ## Memory limits -/

/-- The loop from the right, then `split_at` unless nothing was found. -/
def splitNumberSuffix (s : List Char) : Run ε (List Char × List Char) :=
  let len := (asBytes s).length
  let idx := scanBack Char.isAlpha len (charIndices 0 s).reverse
  if idx = len then .ok (s, []) else splitAt s idx

theorem splitNumberSuffix_eq (s : List Char) :
    (splitNumberSuffix s : Run ε _) = .ok (Procguard.splitNumberSuffix s) := by
  have hscan := scanBack_charIndices Char.isAlpha 0 s
  have hsplit := rsplit_eq Char.isAlpha s
  unfold splitNumberSuffix Procguard.splitNumberSuffix
  dsimp only
  rw [length_asBytes]
  rw [Nat.zero_add, Nat.zero_add] at hscan
  rw [hscan]
  generalize s.rdropWhile Char.isAlpha = num at hsplit ⊢
  generalize s.rtakeWhile Char.isAlpha = suffix at hsplit ⊢
  subst hsplit
  by_cases hall : String.utf8Len num = String.utf8Len (num ++ suffix)
  · have hnone : suffix = [] := by
      rw [String.utf8Len_append] at hall
      exact String.utf8Len_eq_zero.mp (by omega)
    rw [if_pos hall, hnone, List.append_nil]
  · rw [if_neg hall, splitAt_append]

def parseMemLimit (input : String) : Run TimeoutError Nat := do
  let s := trim input
  let text := String.ofList s
  if s.isEmpty then throw (.stop (.invalidMemoryLimit "empty"))
  let (num, suffix) ← splitNumberSuffix s
  if num.isEmpty then throw (.stop (.invalidMemoryLimit s!"no numeric value in '{text}'"))
  match readDigits u64Max 0 num with
  | none => throw (.stop (.invalidMemoryLimit s!"invalid memory value: '{text}'"))
  | some value => match memUnit suffix with
    | none => throw (.stop (.invalidMemoryLimit s!"invalid memory suffix in '{text}'"))
    | some mult => match checkedMul64 value mult with
      | none => throw (.stop (.invalidMemoryLimit s!"memory limit overflow: '{text}'"))
      | some bytes => pure bytes

theorem parseMemLimit_eq (input : String) :
    parseMemLimit input = lift (Procguard.parseMemLimit input) := by
  unfold parseMemLimit Procguard.parseMemLimit
  dsimp only
  generalize trim input = s
  rw [splitNumberSuffix_eq]
  by_cases hempty : s.isEmpty = true
  · rw [if_pos hempty, if_pos hempty]
    rfl
  · rw [if_neg hempty, if_neg hempty, ok_bind]
    by_cases hnum : (Procguard.splitNumberSuffix s).1.isEmpty = true
    · simp only [if_pos hnum]
      rfl
    · simp only [if_neg hnum]
      cases readDigits u64Max 0 (Procguard.splitNumberSuffix s).1 with
      | none => rfl
      | some value =>
        cases memUnit (Procguard.splitNumberSuffix s).2 with
        | none => rfl
        | some mult =>
          dsimp only
          cases checkedMul64 value mult with
          | none => rfl
          | some bytes => rfl

/-! ## Signal names -/

/-- The bytes from `i` on against a word, one after the other, as `&&` does. -/
def eqIgnoreCase (bytes : List UInt8) : Nat → List Char → Run ε Bool
  | _, [] => .ok true
  | i, c :: word => do
    let b ← index bytes i
    if b.toChar.toLower = c.toLower then eqIgnoreCase bytes (i + 1) word else .ok false

/-- Strip an optional `SIG`: three bytes are looked at and cut off. -/
def stripSig (input : List Char) : Run ε (List Char) :=
  let bytes := asBytes input
  if 3 ≤ bytes.length then do
    let found ← eqIgnoreCase bytes 0 ['S', 'I', 'G']
    if found then sliceFrom input 3 else .ok input
  else .ok input

def parseSignal (input : String) : Run TimeoutError Signal := do
  let input := trim input
  match parseSigned i32Max input with
  | some num => match Signal.tryFromRaw num with
    | some sig => .ok sig
    | none => .error (.stop (.invalidSignal s!"invalid signal number: {num}"))
  | none =>
    let name ← stripSig input
    match signalNames.find? fun row => asciiLower row.1.toList == asciiLower name with
    | some (_, sig) => .ok sig
    | none =>
      let text := String.ofList input
      .error (.stop (.invalidSignal s!"unknown signal: {text}"))

theorem toLower_ascii {c : Char} : c.toLower.toNat < 0x80 ↔ c.toNat < 0x80 := by
  by_cases hup : c.isUpper = true
  · have hle : c.toNat ≤ 90 := by
      rw [Char.isUpper, decide_eq_true_iff] at hup
      exact UInt32.le_iff_toNat_le.mp hup.2
    have hvalid : (c.toNat + 32).isValidChar := .inl (by omega)
    rw [Char.toLower_eq_of_isUpper hup, Char.toNat_ofNat, if_pos hvalid]
    omega
  · rw [Char.toLower_eq_of_not_isUpper hup]

/-- A byte is a letter in either case where its character is. -/
theorem firstByte_toLower {c d : Char} (hd : d.toNat < 0x80) :
    (firstByte c).toChar.toLower = d.toLower ↔ c.toLower = d.toLower := by
  rcases Nat.lt_or_ge c.toNat 0x80 with hascii | hwide
  · rw [toChar_firstByte hascii]
  · have hbyte := le_firstByte hwide
    have hnot : ∀ x : Char, 0x80 ≤ x.toNat → x.toLower ≠ d.toLower := by
      intro x hx heq
      have hlow : x.toLower.toNat < 0x80 := by
        rw [heq]
        exact toLower_ascii.mpr hd
      exact absurd (toLower_ascii.mp hlow) (by omega)
    exact iff_of_false (hnot _ (by omega)) (hnot _ hwide)

/-- A word of ASCII letters is found where the characters spell it, and the bytes that
    are looked at are there. -/
theorem eqIgnoreCase_eq : ∀ (word pre rest : List Char), (∀ c ∈ word, c.toNat < 0x80) →
    word.length ≤ String.utf8Len rest →
    (eqIgnoreCase (asBytes (pre ++ rest)) (String.utf8Len pre) word : Run ε Bool) =
      .ok (decide ((rest.take word.length).map Char.toLower = word.map Char.toLower)) := by
  intro word
  induction word with
  | nil =>
    intro pre rest _ _
    simp [eqIgnoreCase]
  | cons c word ih =>
    intro pre rest hword hlen
    cases rest with
    | nil => cases hlen
    | cons d rest =>
      have hc := hword c (by simp)
      rw [eqIgnoreCase, index_asBytes, ok_bind, List.length_cons, List.take_succ_cons,
        List.map_cons, List.map_cons]
      by_cases hd : d.toLower = c.toLower
      · have hlow : d.toNat < 0x80 := toLower_ascii.mp (by rw [hd]; exact toLower_ascii.mpr hc)
        have hone := utf8Size_ascii hlow
        have hnext : String.utf8Len pre + 1 = String.utf8Len (pre ++ [d]) := by simp [hone]
        rw [String.utf8Len_cons, hone, List.length_cons] at hlen
        rw [if_pos ((firstByte_toLower hc).mpr hd), hnext, List.append_cons,
          ih (pre ++ [d]) rest (fun x hx => hword x (by simp [hx])) (by omega)]
        simp [hd]
      · rw [if_neg (mt (firstByte_toLower hc).mp hd)]
        simp [hd]

theorem three_le_of_cons (a b c : Char) (name : List Char) :
    3 ≤ String.utf8Len (a :: b :: c :: name) := by
  have ha := a.utf8Size_pos
  have hb := b.utf8Size_pos
  have hc := c.utf8Size_pos
  simp only [String.utf8Len_cons]
  omega

/-- **Three bytes are cut off only where they are three characters.** -/
theorem stripSig_eq (input : List Char) :
    (stripSig input : Run ε _) = .ok (Procguard.stripSig input) := by
  -- where there are three bytes the comparison of bytes is that of characters
  have hfound : 3 ≤ String.utf8Len input →
      (eqIgnoreCase (asBytes input) 0 ['S', 'I', 'G'] : Run ε Bool) =
        .ok (decide ((input.take 3).map Char.toLower = ['s', 'i', 'g'])) := by
    intro hlen
    exact eqIgnoreCase_eq ['S', 'I', 'G'] [] input (by simp) hlen
  unfold stripSig
  dsimp only
  rw [length_asBytes]
  rcases input with _ | ⟨s, _ | ⟨i, _ | ⟨g, name⟩⟩⟩
  · rfl
  · -- a text of one or two characters has no prefix of three
    by_cases hlen : 3 ≤ String.utf8Len [s]
    · rw [if_pos hlen, hfound hlen]
      simp [Procguard.stripSig]
    · rw [if_neg hlen]
      rfl
  · by_cases hlen : 3 ≤ String.utf8Len [s, i]
    · rw [if_pos hlen, hfound hlen]
      simp [Procguard.stripSig]
    · rw [if_neg hlen]
      rfl
  · have hlen := three_le_of_cons s i g name
    have hname : asciiLower [s, i, g] = "sig" ↔ [s, i, g].map Char.toLower = ['s', 'i', 'g'] := by
      unfold asciiLower
      rw [show "sig" = String.ofList ['s', 'i', 'g'] by decide, String.ofList_inj]
    rw [if_pos hlen, hfound hlen, ok_bind, Procguard.stripSig]
    by_cases hsig : [s, i, g].map Char.toLower = ['s', 'i', 'g']
    -- what lowers to ASCII letters is ASCII, so three characters are three bytes
    · have hone : ∀ c ∈ [s, i, g], c.utf8Size = 1 := by
        intro c hc
        have hmem : c.toLower ∈ ['s', 'i', 'g'] := by
          rw [← hsig]
          exact List.mem_map_of_mem hc
        have hlow : ∀ x ∈ ['s', 'i', 'g'], x.toNat < 0x80 := by simp
        exact utf8Size_ascii (toLower_ascii.mp (hlow _ hmem))
      have hthree : String.utf8Len [s, i, g] = 3 := by
        simp [hone s (by simp), hone i (by simp), hone g (by simp)]
      have hslice : (sliceFrom ([s, i, g] ++ name) (String.utf8Len [s, i, g]) : Run ε _) =
          .ok name := sliceFrom_append
      rw [hthree] at hslice
      rw [if_pos (hname.mpr hsig)]
      simp only [List.take_succ_cons, List.take_zero, hsig, decide_true, if_true]
      exact hslice
    · rw [if_neg (mt hname.mp hsig)]
      simp only [List.take_succ_cons, List.take_zero, hsig, decide_false]
      rfl

theorem parseSignal_eq (input : String) :
    parseSignal input = lift (Procguard.parseSignal input) := by
  unfold parseSignal Procguard.parseSignal
  dsimp only
  generalize trim input = s
  rw [stripSig_eq, ok_bind]
  cases parseSigned i32Max s with
  | some num =>
    dsimp only
    cases Signal.tryFromRaw num with
    | some sig => rfl
    | none => rfl
  | none =>
    dsimp only
    cases signalNames.find? fun row =>
      asciiLower row.1.toList == asciiLower (Procguard.stripSig s) with
    | some row => rfl
    | none => rfl

end Procguard.Bytewise
