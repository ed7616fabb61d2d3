import Mathlib

/- Text as a standard library over UTF-8 strings reads it: trimming by Unicode
   white space, ASCII case, prefixes, and integers in decimal. A string is looked
   at as its list of characters; a byte offset that the code computes from
   characters it has just looked at is the number of these characters. The
   integer readers stop at the first digit past their bound, as the checked
   arithmetic of the machine type does. -/
namespace Text

/-- The characters with the Unicode property White_Space. -/
def isWhite (c : Char) : Bool :=
  (9 ≤ c.toNat && c.toNat ≤ 13) || c.toNat == 0x20 || c.toNat == 0x85 || c.toNat == 0xA0 ||
    c.toNat == 0x1680 || (0x2000 ≤ c.toNat && c.toNat ≤ 0x200A) || c.toNat == 0x2028 ||
    c.toNat == 0x2029 || c.toNat == 0x202F || c.toNat == 0x205F || c.toNat == 0x3000

/-- `str::trim`. -/
def trim (s : String) : List Char := (s.toList.dropWhile isWhite).rdropWhile isWhite

/-- `str::to_ascii_lowercase`. -/
def asciiLower (s : List Char) : String := String.ofList (s.map Char.toLower)

/-- `str::starts_with`. -/
def startsWith (s p : String) : Bool := p.toList.isPrefixOf s.toList

/-- `&s[n..]`, for the offset of a character. -/
def dropChars (s : String) (n : Nat) : String := String.ofList (s.toList.drop n)

/-- The value of a decimal digit. -/
def digit? (c : Char) : Option Nat := if c.isDigit then some (c.toNat - '0'.toNat) else none

/-- Read digits onto `acc`, up to the bound of the machine type. -/
def readDigits (max : Nat) : Nat → List Char → Option Nat
  | acc, [] => some acc
  | acc, c :: cs => match digit? c with
    | some d => if 10 * acc + d ≤ max then readDigits max (10 * acc + d) cs else none
    | none => none

/-- `str::parse` to an unsigned integer: at least one digit after an optional `+`. -/
def parseUnsigned (max : Nat) (s : List Char) : Option Nat :=
  match s with
  | [] => none
  | '+' :: digits => if digits.isEmpty then none else readDigits max 0 digits
  | digits => readDigits max 0 digits

/-- `str::parse` to a signed integer from `-(max + 1)` to `max`. -/
def parseSigned (max : Nat) (s : List Char) : Option Int :=
  match s with
  | '-' :: digits =>
    if digits.isEmpty then none else (readDigits (max + 1) 0 digits).map fun n => -(n : Int)
  | s => (parseUnsigned max s).map Int.ofNat

/-- A text that ends in a run of such characters, cut before the run. -/
theorem rsplit_append {p : Char → Bool} {a b : List Char} (ha : ∀ c ∈ a.getLast?, p c = false)
    (hb : ∀ c ∈ b, p c = true) : (a ++ b).rdropWhile p = a ∧ (a ++ b).rtakeWhile p = b := by
  have hpos : ∀ c ∈ b.reverse, p c = true := fun c hc => hb c (List.mem_reverse.mp hc)
  have hstop : a.reverse.dropWhile p = a.reverse ∧ a.reverse.takeWhile p = [] := by
    cases hr : a.reverse with
    | nil => exact ⟨rfl, rfl⟩
    | cons c cs =>
      have hc := ha c (by rw [← List.head?_reverse, hr]; rfl)
      rw [List.dropWhile_cons, List.takeWhile_cons, hc]
      exact ⟨rfl, rfl⟩
  unfold List.rdropWhile List.rtakeWhile
  rw [List.reverse_append, List.dropWhile_append_of_pos hpos, List.takeWhile_append_of_pos hpos,
    hstop.1, hstop.2, List.append_nil, List.reverse_reverse, List.reverse_reverse]
  exact ⟨rfl, rfl⟩

/-- Cut before the run at its end, a text falls into two. -/
theorem rsplit_eq (p : Char → Bool) (s : List Char) : s.rdropWhile p ++ s.rtakeWhile p = s := by
  unfold List.rdropWhile List.rtakeWhile
  rw [← List.reverse_append, List.takeWhile_append_dropWhile, List.reverse_reverse]

theorem startsWith_iff {s p : String} :
    startsWith s p = true ↔ p.toList <+: s.toList := by
  unfold startsWith
  exact List.isPrefixOf_iff_prefix

/-- What starts with a longer text starts with the shorter one. -/
theorem startsWith_trans {s p q : String} (h : startsWith s p = true) (hp : startsWith p q = true) :
    startsWith s q = true :=
  startsWith_iff.mpr ((startsWith_iff.mp hp).trans (startsWith_iff.mp h))

end Text
