import Mathlib

/- Numbers as bytes, least significant byte first. A record is words of one width laid out
   one after another; the word with number `i` is read back from the bytes at `w * i`,
   whatever follows the record (`slice_record`). -/
namespace LittleEndian

/-- The `w` low bytes of a number. -/
def bytes : Nat → Nat → List UInt8
  | 0, _ => []
  | w + 1, n => UInt8.ofNat n :: bytes w (n / 256)

/-- The number that bytes stand for. -/
def value : List UInt8 → Nat
  | [] => 0
  | b :: bs => b.toNat + 256 * value bs

@[simp] theorem length_bytes (w n : Nat) : (bytes w n).length = w := by
  induction w generalizing n with
  | zero => rfl
  | succ w ih => simp [bytes, ih]

/-- Reading gives back what the width holds. -/
theorem value_bytes (w n : Nat) : value (bytes w n) = n % 256 ^ w := by
  induction w generalizing n with
  | zero => simp [bytes, value, Nat.mod_one]
  | succ w ih =>
    calc value (bytes (w + 1) n)
        = n % 256 + 256 * (n / 256 % 256 ^ w) := by simp [bytes, value, ih]
      _ = n % (256 * 256 ^ w) := by rw [Nat.mod_mul]
      _ = n % 256 ^ (w + 1) := by rw [Nat.pow_succ']

/-! ## Slices -/

/-- The `w` bytes at an offset. -/
def slice (l : List UInt8) (offset w : Nat) : List UInt8 := (l.drop offset).take w

/-- Past the first part an offset counts in the second. -/
theorem slice_append (l l' : List UInt8) (offset w : Nat) :
    slice (l ++ l') (l.length + offset) w = slice l' offset w := by
  unfold slice
  rw [List.drop_append, List.drop_eq_nil_of_le (Nat.le_add_right _ _), List.nil_append,
    Nat.add_sub_cancel_left]

/-- A slice at the front is the front. -/
theorem slice_front {l : List UInt8} {w : Nat} (h : l.length = w) (l' : List UInt8) :
    slice (l ++ l') 0 w = l := by
  subst h
  simp [slice]

/-! ## Records -/

/-- Words of `w` bytes, one after another. -/
def record (w : Nat) (ns : List Nat) : List UInt8 := ns.flatMap (bytes w)

theorem length_record (w : Nat) (ns : List Nat) : (record w ns).length = w * ns.length := by
  induction ns with
  | nil => rfl
  | cons n ns ih =>
    have hcons : record w (n :: ns) = bytes w n ++ record w ns := rfl
    rw [hcons, List.length_append, length_bytes, ih, List.length_cons, Nat.mul_succ, Nat.add_comm]

theorem slice_record (w : Nat) (rest : List UInt8) : ∀ {ns : List Nat} {i n : Nat},
    ns[i]? = some n → slice (record w ns ++ rest) (w * i) w = bytes w n := by
  intro ns
  induction ns with
  | nil =>
    intro i n h
    simp at h
  | cons m ns ih =>
    intro i n h
    have hcons : record w (m :: ns) ++ rest = bytes w m ++ (record w ns ++ rest) :=
      List.append_assoc ..
    rw [hcons]
    -- by the number of the word: the first one, or one of the record behind it
    cases i with
    | zero =>
      simp only [List.getElem?_cons_zero, Option.some.injEq] at h
      subst h
      exact slice_front (length_bytes w m) _
    | succ i =>
      have hoffset : w * (i + 1) = (bytes w m).length + w * i := by
        rw [length_bytes, Nat.mul_succ, Nat.add_comm]
      rw [hoffset, slice_append]
      exact ih h

end LittleEndian
