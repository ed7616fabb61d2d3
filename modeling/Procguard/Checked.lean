import Mathlib

/- Code with checked accesses. An index out of range and a slice off a character
   boundary stop the program (`Fault.panic`), a loop that is still running when its
   fuel is out does not end (`Fault.hang`), and `Fault.stop` is what the program itself
   returns early with. A text is the list of its characters, and a slice is taken at
   an offset into its UTF-8 bytes: `split?` finds the character that starts there, and
   has nothing to return when the offset is inside a character or past the end.

   `lift` embeds a computation that accesses nothing. To show that some code never
   faults is to show that it equals a lifted computation; `whileLoop_eq` is the rule
   of loops for that, with a measure that falls at every iteration. -/
namespace Checked
open String (utf8Len)

/-- How a computation with checked accesses stops short. -/
inductive Fault (ε : Type) where
  | panic
  | hang
  | stop (e : ε)
  deriving DecidableEq, Repr

abbrev Run (ε α : Type) := Except (Fault ε) α

variable {ε α β σ τ : Type}

/-- A computation without accesses. -/
def lift (x : Except ε α) : Run ε α := x.mapError .stop

@[simp] theorem ok_bind (a : α) (f : α → Run ε β) : (.ok a : Run ε α) >>= f = f a := rfl

theorem lift_bind (x : Except ε α) (f : α → Except ε β) :
    lift (x >>= f) = lift x >>= fun a => lift (f a) := by
  cases x with
  | error e => rfl
  | ok a => rfl

/-- `l[i]`. -/
def index (l : List α) (i : Nat) : Run ε α :=
  match l[i]? with
  | some a => .ok a
  | none => .error .panic

theorem index_ok {l : List α} {i : Nat} {a : α} (h : l[i]? = some a) :
    (index l i : Run ε α) = .ok a := by
  unfold index
  rw [h]

/-- `l[i] = a`. -/
def setIndex (l : List α) (i : Nat) (a : α) : Run ε (List α) :=
  if i < l.length then .ok (l.set i a) else .error .panic

theorem setIndex_ok {l : List α} {i : Nat} (a : α) (h : i < l.length) :
    (setIndex l i a : Run ε (List α)) = .ok (l.set i a) := by
  unfold setIndex
  rw [if_pos h]

/-! ## Loops -/

/-- `while cond { body }`, a body that is `done` having met a `break`. -/
def whileLoop (cond : σ → Bool) (body : σ → Run ε (ForInStep σ)) : Nat → σ → Run ε σ
  | 0, s => if cond s then .error .hang else .ok s
  | n + 1, s =>
    if cond s then do
      match ← body s with
      | .done s' => .ok s'
      | .yield s' => whileLoop cond body n s'
    else .ok s

/-- What is left to compute after one iteration. -/
def afterStep (obs : σ → τ) (spec : σ → Run ε τ) : ForInStep σ → Run ε τ
  | .done s => .ok (obs s)
  | .yield s => spec s

/-- **A function with the equations of a loop is what can be seen of the loop**, when
    each iteration that goes on keeps the invariant and takes from the measure: so many
    iterations are enough, and the loop does not hang. -/
theorem whileLoop_eq {cond : σ → Bool} {body : σ → Run ε (ForInStep σ)} {obs : σ → τ}
    {spec : σ → Run ε τ} (Inv : σ → Prop) (measure : σ → Nat)
    (hpos : ∀ s, Inv s → cond s = true → 0 < measure s)
    (hend : ∀ s, Inv s → cond s = false → spec s = .ok (obs s))
    (hstep : ∀ s, Inv s → cond s = true → spec s = body s >>= afterStep obs spec)
    (hnext : ∀ s s', Inv s → cond s = true → body s = .ok (.yield s') →
      Inv s' ∧ measure s' < measure s) :
    ∀ (n : Nat) (s : σ), Inv s → measure s ≤ n →
      (whileLoop cond body n s).map obs = spec s := by
  intro n
  induction n with
  | zero =>
    intro s hinv hn
    cases hc : cond s with
    | true => exact absurd (hpos s hinv hc) (by omega)
    | false => rw [whileLoop, hc, hend s hinv hc]; rfl
  | succ n ih =>
    intro s hinv hn
    cases hc : cond s with
    | false => rw [whileLoop, hc, hend s hinv hc]; rfl
    | true =>
      rw [whileLoop, hc, hstep s hinv hc]
      cases hb : body s with
      | error e => rfl
      | ok r =>
        cases r with
        | done s' => rfl
        | yield s' =>
          obtain ⟨hinv', hless⟩ := hnext s s' hinv hc hb
          exact ih s' hinv' (by omega)

/-! ## Slices -/

/-- The text before and from a byte offset, where a character starts there. -/
def split? : List Char → Nat → Option (List Char × List Char)
  | s, 0 => some ([], s)
  | [], _ + 1 => none
  | c :: s, n + 1 =>
    if c.utf8Size ≤ n + 1 then
      (split? s (n + 1 - c.utf8Size)).map fun p => (c :: p.1, p.2)
    else none

/-- `s.split_at(n)`. -/
def splitAt (s : List Char) (n : Nat) : Run ε (List Char × List Char) :=
  match split? s n with
  | some p => .ok p
  | none => .error .panic

/-- `&s[..n]`. -/
def sliceTo (s : List Char) (n : Nat) : Run ε (List Char) := (splitAt s n).map Prod.fst

/-- `&s[n..]`. -/
def sliceFrom (s : List Char) (n : Nat) : Run ε (List Char) := (splitAt s n).map Prod.snd

variable {a b s : List Char}

/-- Exactly the offsets at which a prefix ends are boundaries. -/
theorem split?_eq_some {n : Nat} : split? s n = some (a, b) ↔ s = a ++ b ∧ utf8Len a = n := by
  induction s generalizing n a with
  | nil =>
    rw [eq_comm (a := []), List.append_eq_nil_iff]
    cases n with
    | zero =>
      rw [split?, Option.some_inj, Prod.mk_inj, String.utf8Len_eq_zero, eq_comm (b := a),
        eq_comm (b := b)]
      exact ⟨fun ⟨ha, hb⟩ => ⟨⟨ha, hb⟩, ha⟩, fun ⟨⟨ha, hb⟩, _⟩ => ⟨ha, hb⟩⟩
    | succ n =>
      refine iff_of_false (fun h => by cases h) ?_
      intro ⟨⟨ha, _⟩, hlen⟩
      rw [ha] at hlen
      cases hlen
  | cons c s ih =>
    have hc := c.utf8Size_pos
    constructor
    · intro h
      cases n with
      | zero =>
        cases h
        exact ⟨rfl, rfl⟩
      | succ n =>
        rw [split?] at h
        split_ifs at h with hle
        obtain ⟨⟨a', b'⟩, hsplit, heq⟩ := Option.map_eq_some_iff.mp h
        cases heq
        obtain ⟨hs, hlen⟩ := ih.mp hsplit
        refine ⟨congrArg (c :: ·) hs, ?_⟩
        rw [String.utf8Len_cons, hlen]
        omega
    · intro ⟨hs, hlen⟩
      cases a with
      | nil =>
        subst hlen hs
        rfl
      | cons d a =>
        cases hs
        rw [String.utf8Len_cons] at hlen
        obtain ⟨m, rfl⟩ : ∃ m, n = m + 1 := ⟨n - 1, by omega⟩
        rw [split?, if_pos (by omega), ih.mpr ⟨rfl, by omega⟩]
        rfl

theorem split?_append (a b : List Char) : split? (a ++ b) (utf8Len a) = some (a, b) :=
  split?_eq_some.mpr ⟨rfl, rfl⟩

theorem splitAt_append : (splitAt (a ++ b) (utf8Len a) : Run ε _) = .ok (a, b) := by
  unfold splitAt
  rw [split?_append]

/-- An offset at which a prefix ends is a boundary. -/
theorem sliceTo_append : (sliceTo (a ++ b) (utf8Len a) : Run ε _) = .ok a := by
  unfold sliceTo
  rw [splitAt_append]
  rfl

theorem sliceFrom_append : (sliceFrom (a ++ b) (utf8Len a) : Run ε _) = .ok b := by
  unfold sliceFrom
  rw [splitAt_append]
  rfl

example : (sliceFrom ['\u00e9', 's'] 1 : Run Unit _) = .error .panic := by decide

/-! ## Bytes -/

/-- `s.as_bytes()`. -/
def asBytes (s : List Char) : List UInt8 := s.flatMap String.utf8EncodeChar

theorem asBytes_append : asBytes (a ++ b) = asBytes a ++ asBytes b := List.flatMap_append

theorem length_asBytes (s : List Char) : (asBytes s).length = utf8Len s := by
  induction s with
  | nil => rfl
  | cons c s ih =>
    rw [show asBytes (c :: s) = String.utf8EncodeChar c ++ asBytes s from rfl, List.length_append,
      String.length_utf8EncodeChar, ih, String.utf8Len_cons, Nat.add_comm]

/-- The first byte of a character. -/
def firstByte (c : Char) : UInt8 := (String.utf8EncodeChar c).headD 0

/-- The byte at a boundary is the first one of the character that starts there. -/
theorem index_asBytes (a : List Char) (c : Char) (b : List Char) :
    (index (asBytes (a ++ c :: b)) (utf8Len a) : Run ε UInt8) = .ok (firstByte c) := by
  apply index_ok
  have hpos : 0 < (String.utf8EncodeChar c).length := by
    rw [String.length_utf8EncodeChar]
    exact c.utf8Size_pos
  rw [asBytes_append, List.getElem?_append_right (by rw [length_asBytes]), length_asBytes,
    Nat.sub_self, show asBytes (c :: b) = String.utf8EncodeChar c ++ asBytes b from rfl,
    List.getElem?_append_left hpos, ← List.head?_eq_getElem?]
  unfold firstByte
  cases hb : String.utf8EncodeChar c with
  | nil => rw [hb] at hpos; exact absurd hpos (by simp)
  | cons x xs => rfl

/-- The first byte of a character, by the length of its encoding. -/
theorem toNat_firstByte (c : Char) : (firstByte c).toNat =
    if c.toNat < 0x80 then c.toNat
    else if c.toNat < 0x800 then 0xC0 + c.toNat / 0x40
    else if c.toNat < 0x10000 then 0xE0 + c.toNat / 0x1000
    else 0xF0 + c.toNat / 0x40000 := by
  have hmax : c.toNat < 0x110000 := by
    rcases c.valid with h | h
    · exact Nat.lt_trans h (by omega)
    · exact h.2
  unfold firstByte String.utf8EncodeChar
  simp only [show c.val.toNat = c.toNat from rfl]
  -- every first byte fits the byte: nothing is cut off
  split_ifs <;> simp only [List.headD_cons, UInt8.toNat_ofNat'] <;> omega

theorem utf8Size_ascii {c : Char} (h : c.toNat < 0x80) : c.utf8Size = 1 := by
  rw [Char.utf8Size_eq_one_iff, UInt32.le_iff_toNat_le]
  exact Nat.le_of_lt_succ h

/-- An ASCII character is its byte. -/
theorem toChar_firstByte {c : Char} (h : c.toNat < 0x80) : (firstByte c).toChar = c := by
  apply Char.toNat_inj.mp
  calc (firstByte c).toChar.toNat = (firstByte c).toNat := rfl
    _ = c.toNat := by rw [toNat_firstByte, if_pos h]

/-- The first byte of any other character is not an ASCII one. -/
theorem le_firstByte {c : Char} (h : 0x80 ≤ c.toNat) : 0xC0 ≤ (firstByte c).toChar.toNat := by
  have hval : (firstByte c).toChar.toNat = (firstByte c).toNat := rfl
  rw [hval, toNat_firstByte]
  split_ifs <;> omega

/-! ## Offsets of characters -/

/-- `s.char_indices()`, the first character at offset `n`. -/
def charIndices : Nat → List Char → List (Nat × Char)
  | _, [] => []
  | n, c :: s => (n, c) :: charIndices (n + c.utf8Size) s

theorem charIndices_append (n : Nat) (a b : List Char) :
    charIndices n (a ++ b) = charIndices n a ++ charIndices (n + utf8Len a) b := by
  induction a generalizing n with
  | nil => rfl
  | cons c a ih =>
    rw [List.cons_append, charIndices, ih, charIndices, String.utf8Len_cons,
      Nat.add_assoc n, Nat.add_comm c.utf8Size]
    rfl

theorem reverse_charIndices_concat (n : Nat) (s : List Char) (c : Char) :
    (charIndices n (s ++ [c])).reverse = (n + utf8Len s, c) :: (charIndices n s).reverse := by
  rw [charIndices_append, List.reverse_append]
  rfl

/-- Searching from the left ends where the characters passed over end. -/
theorem find_charIndices (p : Char → Bool) (n : Nat) (s : List Char) :
    (charIndices n s).find? (fun x => p x.2) =
      (s.dropWhile fun c => !p c).head?.map fun c =>
        (n + utf8Len (s.takeWhile fun c => !p c), c) := by
  induction s generalizing n with
  | nil => rfl
  | cons c s ih =>
    rw [charIndices, List.find?_cons, List.dropWhile_cons, List.takeWhile_cons]
    cases hp : p c with
    | true => rfl
    | false =>
      rw [ih]
      simp only [Bool.not_false, if_true, String.utf8Len_cons, Nat.add_assoc,
        Nat.add_comm c.utf8Size]

/-- Searching from the right ends where the characters not passed over end. -/
theorem rfind_charIndices (p : Char → Bool) (n : Nat) (s : List Char) :
    ((charIndices n s).reverse.find? fun x => p x.2).elim n (fun x => x.1 + x.2.utf8Size) =
      n + utf8Len (s.rdropWhile fun c => !p c) := by
  induction s using List.reverseRecOn with
  | nil => rfl
  | append_singleton s c ih =>
    rw [reverse_charIndices_concat, List.find?_cons, List.rdropWhile_concat]
    cases hp : p c with
    | true =>
      calc n + utf8Len s + c.utf8Size = n + (utf8Len s + c.utf8Size) := Nat.add_assoc ..
        _ = n + utf8Len (s ++ [c]) := by simp
    | false => exact ih

/-- `for (i, c) in cs { if p c { idx = i } else { break } }`. -/
def scanBack (p : Char → Bool) : Nat → List (Nat × Char) → Nat
  | idx, [] => idx
  | idx, (i, c) :: cs => if p c then scanBack p i cs else idx

theorem scanBack_charIndices (p : Char → Bool) (n : Nat) (s : List Char) :
    scanBack p (n + utf8Len s) (charIndices n s).reverse = n + utf8Len (s.rdropWhile p) := by
  induction s using List.reverseRecOn with
  | nil => rfl
  | append_singleton s c ih =>
    rw [reverse_charIndices_concat, scanBack, List.rdropWhile_concat]
    cases p c with
    | true => exact ih
    | false => rfl

end Checked
