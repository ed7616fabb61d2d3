import Mathlib

/- JSON texts. `Json.render` writes a value in one line without blanks; `Json.parse`
   reads a text by the grammar of JSON, blanks between tokens included, and gives back
   what `render` wrote (`parse_render`). The reader takes integers without fraction or
   exponent and no surrogate escapes: it accepts fewer texts than JSON has, never more.
   Its fuel is the length of the text, of which every call takes at least a character. -/
inductive Json where
  | null
  | bool (b : Bool)
  | num (n : Int)
  | str (s : String)
  | arr (elems : List Json)
  | obj (members : List (String × Json))
  deriving Repr

namespace Json

/-! ## Writing -/

def hexDigits (n : Nat) : List Char :=
  [(n / 4096 % 16).digitChar, (n / 256 % 16).digitChar, (n / 16 % 16).digitChar, (n % 16).digitChar]

/-- A character of a string literal: quotes, backslashes and control characters escaped. -/
def escapeChar (c : Char) : List Char :=
  if c = '"' then ['\\', '"']
  else if c = '\\' then ['\\', '\\']
  else if c = '\n' then ['\\', 'n']
  else if c = '\r' then ['\\', 'r']
  else if c = '\t' then ['\\', 't']
  else if c.toNat < 0x20 then '\\' :: 'u' :: hexDigits c.toNat
  else [c]

def renderStr (s : String) : List Char := '"' :: (s.toList.flatMap escapeChar ++ ['"'])

def renderNum : Int → List Char
  | .ofNat n => Nat.toDigits 10 n
  | .negSucc n => '-' :: Nat.toDigits 10 (n + 1)

mutual
def render : Json → List Char
  | null => ['n', 'u', 'l', 'l']
  | bool true => ['t', 'r', 'u', 'e']
  | bool false => ['f', 'a', 'l', 's', 'e']
  | num n => renderNum n
  | str s => renderStr s
  | arr elems => '[' :: renderElems elems
  | obj members => '{' :: renderMembers members

/-- The elements from the opening bracket on. -/
def renderElems : List Json → List Char
  | [] => [']']
  | e :: es => render e ++ renderMoreElems es

/-- The elements after one. -/
def renderMoreElems : List Json → List Char
  | [] => [']']
  | e :: es => ',' :: (render e ++ renderMoreElems es)

def renderMembers : List (String × Json) → List Char
  | [] => ['}']
  | (k, v) :: ms => renderStr k ++ ':' :: (render v ++ renderMoreMembers ms)

def renderMoreMembers : List (String × Json) → List Char
  | [] => ['}']
  | (k, v) :: ms => ',' :: (renderStr k ++ ':' :: (render v ++ renderMoreMembers ms))
end

/-- A member of an object after the first. -/
def memberText (m : String × Json) : List Char := ',' :: (renderStr m.1 ++ ':' :: render m.2)

theorem renderMoreMembers_eq (ms : List (String × Json)) :
    renderMoreMembers ms = ms.flatMap memberText ++ ['}'] := by
  induction ms with
  | nil => rfl
  | cons m ms ih =>
    rw [renderMoreMembers, ih, List.flatMap_cons]
    simp only [memberText, List.cons_append, List.append_assoc]

/-- An object's text, member after member. -/
theorem render_obj (m : String × Json) (ms : List (String × Json)) :
    render (obj (m :: ms)) =
      '{' :: (renderStr m.1 ++ ':' :: (render m.2 ++ (ms.flatMap memberText ++ ['}']))) := by
  rw [render, renderMembers, renderMoreMembers_eq]

/-! ## Reading -/

def isBlank (c : Char) : Bool := c == ' ' || c == '\t' || c == '\n' || c == '\r'

def skipBlanks (cs : List Char) : List Char := cs.dropWhile isBlank

def hexValue (c : Char) : Option Nat :=
  if c.isDigit then some (c.toNat - '0'.toNat)
  else if 'a' ≤ c ∧ c ≤ 'f' then some (c.toNat - 'a'.toNat + 10)
  else if 'A' ≤ c ∧ c ≤ 'F' then some (c.toNat - 'A'.toNat + 10)
  else none

def hex4 (a b c d : Char) : Option Nat := do
  let a ← hexValue a
  let b ← hexValue b
  let c ← hexValue c
  let d ← hexValue d
  some (4096 * a + 256 * b + 16 * c + d)

/-- What the letter of a two-character escape stands for. -/
def unescape : Char → Option Char
  | '"' => some '"'
  | '\\' => some '\\'
  | '/' => some '/'
  | 'b' => some '\x08'
  | 'f' => some '\x0c'
  | 'n' => some '\n'
  | 'r' => some '\r'
  | 't' => some '\t'
  | _ => none

/-- A string literal from its opening quote on: its characters and what follows. -/
def readStr : List Char → Option (List Char × List Char)
  | [] => none
  | '"' :: cs => some ([], cs)
  | '\\' :: 'u' :: a :: b :: c :: d :: cs => match hex4 a b c d with
    | some n =>
      if n.isValidChar then (readStr cs).map fun p => (Char.ofNat n :: p.1, p.2) else none
    | none => none
  | '\\' :: e :: cs => match unescape e with
    | some c => (readStr cs).map fun p => (c :: p.1, p.2)
    | none => none
  | c :: cs => if c.toNat < 0x20 ∨ c = '\\' then none else (readStr cs).map fun p => (c :: p.1, p.2)

/-- An integer without sign: no leading zero, and neither fraction nor exponent after it. -/
def readNat (cs : List Char) : Option (Nat × List Char) :=
  let digits := cs.takeWhile Char.isDigit
  let rest := cs.dropWhile Char.isDigit
  if digits.isEmpty || (digits.head? == some '0' && digits != ['0']) then none
  else match rest with
    | '.' :: _ | 'e' :: _ | 'E' :: _ => none
    | _ => some (Nat.ofDigitChars 10 digits 0, rest)

def readNum : List Char → Option (Json × List Char)
  | '-' :: cs => (readNat cs).map fun p => (num (-(p.1 : Int)), p.2)
  | cs => (readNat cs).map fun p => (num p.1, p.2)

mutual
def read : Nat → List Char → Option (Json × List Char)
  | 0, _ => none
  | n + 1, cs => match cs with
    | 'n' :: 'u' :: 'l' :: 'l' :: cs => some (null, cs)
    | 't' :: 'r' :: 'u' :: 'e' :: cs => some (bool true, cs)
    | 'f' :: 'a' :: 'l' :: 's' :: 'e' :: cs => some (bool false, cs)
    | '"' :: cs => (readStr cs).map fun p => (str (String.ofList p.1), p.2)
    | '[' :: cs => match skipBlanks cs with
      | ']' :: cs => some (arr [], cs)
      | cs => (readElems n cs).map fun p => (arr p.1, p.2)
    | '{' :: cs => match skipBlanks cs with
      | '}' :: cs => some (obj [], cs)
      | cs => (readMembers n cs).map fun p => (obj p.1, p.2)
    | cs => readNum cs

/-- One element or more, up to the closing bracket. -/
def readElems : Nat → List Char → Option (List Json × List Char)
  | 0, _ => none
  | n + 1, cs => match read n (skipBlanks cs) with
    | none => none
    | some (e, cs) => match skipBlanks cs with
      | ']' :: cs => some ([e], cs)
      | ',' :: cs => (readElems n cs).map fun p => (e :: p.1, p.2)
      | _ => none

def readMembers : Nat → List Char → Option (List (String × Json) × List Char)
  | 0, _ => none
  | n + 1, cs => match skipBlanks cs with
    | '"' :: cs => match readStr cs with
      | none => none
      | some (k, cs) => match skipBlanks cs with
        | ':' :: cs => match read n (skipBlanks cs) with
          | none => none
          | some (v, cs) => match skipBlanks cs with
            | '}' :: cs => some ([(String.ofList k, v)], cs)
            | ',' :: cs => (readMembers n cs).map fun p => ((String.ofList k, v) :: p.1, p.2)
            | _ => none
        | _ => none
    | _ => none
end

/-- A text is one value and nothing else, blanks around it apart. -/
def parse (cs : List Char) : Option Json :=
  match read (cs.length + 1) (skipBlanks cs) with
  | some (v, rest) => if (skipBlanks rest).isEmpty then some v else none
  | none => none

/-! ## What an object holds -/

/-- The value under a key of an object. -/
def field (key : String) : Json → Option Json
  | obj members => members.lookup key
  | _ => none

/-- The integer under a key of an object. -/
def intField (key : String) (v : Json) : Option Int :=
  match v.field key with
  | some (num n) => some n
  | _ => none

mutual
/-- The keys of every object are pairwise distinct. -/
def KeysDistinct : Json → Prop
  | arr elems => KeysDistinctElems elems
  | obj members => (members.map Prod.fst).Nodup ∧ KeysDistinctMembers members
  | null | bool _ | num _ | str _ => True

def KeysDistinctElems : List Json → Prop
  | [] => True
  | e :: es => KeysDistinct e ∧ KeysDistinctElems es

def KeysDistinctMembers : List (String × Json) → Prop
  | [] => True
  | (_, v) :: ms => KeysDistinct v ∧ KeysDistinctMembers ms
end

attribute [simp] KeysDistinct KeysDistinctElems KeysDistinctMembers

/-- Where the keys are distinct, a member is what its key finds. -/
theorem field_of_mem {ms : List (String × Json)} {k : String} {v : Json}
    (hkeys : (ms.map Prod.fst).Nodup) (hmem : (k, v) ∈ ms) : (obj ms).field k = some v := by
  show ms.lookup k = some v
  induction ms with
  | nil => cases hmem
  | cons m ms ih =>
    rw [List.map_cons, List.nodup_cons] at hkeys
    rcases List.mem_cons.mp hmem with rfl | htail
    · rw [List.lookup_cons_self]
    · have hne : (k == m.1) = false := by
        refine beq_false_of_ne fun heq => hkeys.1 ?_
        rw [← heq]
        exact List.mem_map_of_mem (f := Prod.fst) htail
      rw [List.lookup_cons, hne]
      exact ih hkeys.2 htail

theorem keysDistinctElems_of {es : List Json} (h : ∀ e ∈ es, KeysDistinct e) :
    KeysDistinctElems es := by
  induction es with
  | nil => trivial
  | cons e es ih =>
    exact ⟨h e (List.mem_cons_self ..), ih fun e' he' => h e' (List.mem_cons_of_mem _ he')⟩

theorem keysDistinctMembers_append {ms ms' : List (String × Json)} (h : KeysDistinctMembers ms)
    (h' : KeysDistinctMembers ms') : KeysDistinctMembers (ms ++ ms') := by
  induction ms with
  | nil => exact h'
  | cons m ms ih => exact ⟨h.1, ih h.2⟩

/-! ## Strings and numbers read back -/

theorem hex4_hexDigits : ∀ n < 0x20,
    (hexDigits n = ['0', '0', (n / 16 % 16).digitChar, (n % 16).digitChar]) ∧
      hex4 '0' '0' (n / 16 % 16).digitChar (n % 16).digitChar = some n ∧ n.isValidChar := by
  decide

theorem readStr_escapeChar (c : Char) (rest : List Char) :
    readStr (escapeChar c ++ rest) = (readStr rest).map fun p => (c :: p.1, p.2) := by
  unfold escapeChar
  split
  · next h => subst h; rfl
  split
  · next h => subst h; rfl
  split
  · next h => subst h; rfl
  split
  · next h => subst h; rfl
  split
  · next h => subst h; rfl
  split
  · next h =>
    obtain ⟨hdigits, hvalue, hvalid⟩ := hex4_hexDigits c.toNat h
    rw [hdigits]
    simp only [List.cons_append, List.nil_append, readStr, hvalue, hvalid, if_true]
    rw [Char.ofNat_toNat]
  · next hquote hback _ _ _ hcontrol =>
    rw [List.cons_append, List.nil_append, readStr.eq_def]
    split <;> simp_all

theorem readStr_renderStr (cs rest : List Char) :
    readStr (cs.flatMap escapeChar ++ '"' :: rest) = some (cs, rest) := by
  induction cs with
  | nil => rfl
  | cons c cs ih =>
    rw [List.flatMap_cons, List.append_assoc, readStr_escapeChar, ih]
    rfl

/-- What may stand between the quotes of a string: characters that are no control character, no
    quote and no backslash, and complete escapes. -/
inductive StringBody : List Char → Prop where
  | nil : StringBody []
  | plain {c : Char} {cs : List Char} (hcontrol : 0x20 ≤ c.toNat) (hquote : c ≠ '"')
      (hback : c ≠ '\\') (h : StringBody cs) : StringBody (c :: cs)
  | short {e : Char} {cs : List Char} (he : (unescape e).isSome = true) (h : StringBody cs) :
      StringBody ('\\' :: e :: cs)
  | unicode {a b c d : Char} {cs : List Char} (hhex : (hex4 a b c d).isSome = true)
      (h : StringBody cs) : StringBody ('\\' :: 'u' :: a :: b :: c :: d :: cs)

theorem StringBody.escapeChar {cs : List Char} (h : StringBody cs) (c : Char) :
    StringBody (escapeChar c ++ cs) := by
  unfold Json.escapeChar
  split
  · exact .short rfl h
  split
  · exact .short rfl h
  split
  · exact .short rfl h
  split
  · exact .short rfl h
  split
  · exact .short rfl h
  split
  · next hcontrol =>
    obtain ⟨hdigits, hvalue, -⟩ := hex4_hexDigits c.toNat hcontrol
    rw [hdigits]
    exact .unicode (by rw [hvalue]; rfl) h
  · next hquote hback _ _ _ hcontrol =>
    exact .plain (Nat.le_of_not_lt hcontrol) hquote hback h

/-- Whatever is escaped may stand between quotes. -/
theorem flatMap_escapeChar_body (cs : List Char) : StringBody (cs.flatMap Json.escapeChar) := by
  induction cs with
  | nil => exact .nil
  | cons c cs ih =>
    rw [List.flatMap_cons]
    exact ih.escapeChar c

/-- What may follow a value inside a list or an object. -/
def Delimited : List Char → Prop
  | [] => True
  | c :: _ => c = ',' ∨ c = ']' ∨ c = '}'

theorem toDigits_head (n : Nat) (hn : 0 < n) : (Nat.toDigits 10 n).head? ≠ some '0' := by
  induction n using Nat.strongRecOn with
  | ind n ih =>
    by_cases hlt : n < 10
    · rw [Nat.toDigits_of_lt_base hlt]
      intro h
      have : n = 0 := Nat.digitChar_eq_zero.mp (Option.some.inj h)
      omega
    · rw [Nat.toDigits_of_base_le (by decide) (by omega), List.head?_append]
      have := ih (n / 10) (by omega) (by omega)
      cases hd : (Nat.toDigits 10 (n / 10)).head? with
      | none => exact absurd (List.head?_eq_none_iff.mp hd) Nat.toDigits_ne_nil
      | some c => rw [hd] at this; exact this

theorem takeWhile_digits {ds rest : List Char} (hds : ∀ c ∈ ds, c.isDigit = true)
    (hrest : Delimited rest) : (ds ++ rest).takeWhile Char.isDigit = ds ∧
      (ds ++ rest).dropWhile Char.isDigit = rest := by
  rw [List.takeWhile_append_of_pos hds, List.dropWhile_append_of_pos hds]
  cases rest with
  | nil => exact ⟨List.append_nil ds, rfl⟩
  | cons c rest =>
    have hc : c.isDigit = false := by rcases hrest with rfl | rfl | rfl <;> rfl
    simp [hc]

theorem readNat_toDigits (n : Nat) {rest : List Char} (hrest : Delimited rest) :
    readNat (Nat.toDigits 10 n ++ rest) = some (n, rest) := by
  obtain ⟨htake, hdrop⟩ := @takeWhile_digits _ rest
    (fun c hc => Nat.isDigit_of_mem_toDigits (b := 10) (n := n) (by decide) (by decide) hc) hrest
  have hzero : ((Nat.toDigits 10 n).head? == some '0' && Nat.toDigits 10 n != ['0']) = false := by
    cases n with
    | zero => rfl
    | succ n =>
      rw [beq_false_of_ne (toDigits_head (n + 1) (Nat.succ_pos n))]
      rfl
  unfold readNat
  simp only [htake, hdrop, hzero, Nat.ofDigitChars_ten_toDigits, Bool.or_false,
    List.isEmpty_iff, Nat.toDigits_ne_nil, if_false]
  cases rest with
  | nil => rfl
  | cons c rest => rcases hrest with rfl | rfl | rfl <;> rfl

theorem readNum_renderNum (n : Int) {rest : List Char} (hrest : Delimited rest) :
    readNum (renderNum n ++ rest) = some (num n, rest) := by
  cases n with
  | ofNat n =>
    have hread := readNat_toDigits n hrest
    have hhead : ∀ cs, Nat.toDigits 10 n ++ rest ≠ '-' :: cs := by
      intro cs h
      cases hd : Nat.toDigits 10 n with
      | nil => exact Nat.toDigits_ne_nil hd
      | cons d ds =>
        rw [hd] at h
        have hmem : d ∈ Nat.toDigits 10 n := by rw [hd]; exact List.mem_cons_self ..
        have hdigit := Nat.isDigit_of_mem_toDigits (by decide) (by decide) hmem
        rw [(List.cons.inj h).1] at hdigit
        cases hdigit
    show readNum (Nat.toDigits 10 n ++ rest) = _
    unfold readNum
    split
    · next cs h => exact absurd h (hhead cs)
    · rw [hread]
      rfl
  | negSucc n =>
    show (readNat (Nat.toDigits 10 (n + 1) ++ rest)).map _ = _
    rw [readNat_toDigits (n + 1) hrest]
    rfl

/-! ## Values read back -/

/-- The first character of a value: none that ends a list or an object, and no blank. -/
theorem render_head (v : Json) : ∃ c cs, render v = c :: cs ∧ isBlank c = false ∧ c ≠ ']' := by
  have hdigit : ∀ c : Char, c.isDigit = true → isBlank c = false ∧ c ≠ ']' := by
    intro c hc
    constructor
    · unfold isBlank
      simp only [Bool.or_eq_false_iff, beq_eq_false_iff_ne]
      refine ⟨⟨⟨?_, ?_⟩, ?_⟩, ?_⟩ <;> intro h <;> rw [h] at hc <;> cases hc
    · intro h
      rw [h] at hc
      cases hc
  cases v with
  | null => exact ⟨_, _, rfl, rfl, by decide⟩
  | bool b => cases b <;> exact ⟨_, _, rfl, rfl, by decide⟩
  | str s => exact ⟨_, _, rfl, rfl, by decide⟩
  | arr es => exact ⟨_, _, rfl, rfl, by decide⟩
  | obj ms => exact ⟨_, _, rfl, rfl, by decide⟩
  | num n =>
    cases n with
    | negSucc n => exact ⟨_, _, rfl, rfl, by decide⟩
    | ofNat n =>
      cases hd : Nat.toDigits 10 n with
      | nil => exact absurd hd Nat.toDigits_ne_nil
      | cons d ds =>
        have hmem : d ∈ Nat.toDigits 10 n := by rw [hd]; exact List.mem_cons_self ..
        have hd' := hdigit d (Nat.isDigit_of_mem_toDigits (by decide) (by decide) hmem)
        exact ⟨d, ds, hd, hd'⟩

theorem skipBlanks_cons {c : Char} (h : isBlank c = false) (cs : List Char) :
    skipBlanks (c :: cs) = c :: cs := List.dropWhile_cons_of_neg (by rw [h]; exact Bool.false_ne_true)

theorem skipBlanks_render (v : Json) (rest : List Char) :
    skipBlanks (render v ++ rest) = render v ++ rest := by
  obtain ⟨c, cs, hv, hc, -⟩ := render_head v
  rw [hv, List.cons_append, skipBlanks_cons hc]

theorem read_number {n : Nat} {c : Char} {cs : List Char} (hc : c.isDigit = true ∨ c = '-') :
    read (n + 1) (c :: cs) = readNum (c :: cs) := by
  unfold read
  split <;> first
    | rfl
    | next heq =>
      obtain ⟨rfl, -⟩ := List.cons.inj heq
      rcases hc with hc | hc <;> cases hc

theorem read_renderNum {n : Nat} (i : Int) {rest : List Char} (hrest : Delimited rest) :
    read (n + 1) (renderNum i ++ rest) = some (num i, rest) := by
  rw [← readNum_renderNum i hrest]
  cases i with
  | negSucc i => exact read_number (.inr rfl)
  | ofNat i =>
    cases hd : Nat.toDigits 10 i with
    | nil => exact absurd hd Nat.toDigits_ne_nil
    | cons d ds =>
      have hmem : d ∈ Nat.toDigits 10 i := by rw [hd]; exact List.mem_cons_self ..
      have hdigit := Nat.isDigit_of_mem_toDigits (by decide) (by decide) hmem
      show read (n + 1) (Nat.toDigits 10 i ++ rest) = readNum (Nat.toDigits 10 i ++ rest)
      rw [hd]
      exact read_number (.inl hdigit)

theorem renderMoreElems_delimited (es : List Json) (rest : List Char) :
    Delimited (renderMoreElems es ++ rest) := by
  cases es with
  | nil => exact .inr (.inl rfl)
  | cons e es => exact .inl rfl

theorem renderMoreMembers_delimited (ms : List (String × Json)) (rest : List Char) :
    Delimited (renderMoreMembers ms ++ rest) := by
  cases ms with
  | nil => exact .inr (.inr rfl)
  | cons m ms => exact .inl rfl

/-- One member: what follows its value decides how the object goes on. -/
theorem readMembers_member {n : Nat} (k : String) {v : Json} {tail : List Char}
    (hread : read n (render v ++ tail) = some (v, tail)) :
    readMembers (n + 1) (renderStr k ++ ':' :: (render v ++ tail)) =
      match skipBlanks tail with
      | '}' :: cs => some ([(k, v)], cs)
      | ',' :: cs => (readMembers n cs).map fun p => ((k, v) :: p.1, p.2)
      | _ => none := by
  have hkey : renderStr k ++ ':' :: (render v ++ tail) =
      '"' :: (k.toList.flatMap escapeChar ++ '"' :: ':' :: (render v ++ tail)) := by
    unfold renderStr
    rw [List.cons_append, List.append_assoc]
    rfl
  have hblank : ∀ c cs, isBlank c = false → skipBlanks (c :: cs) = c :: cs :=
    fun _ cs h => skipBlanks_cons h cs
  rw [hkey, readMembers]
  simp only [hblank '"' _ rfl, readStr_renderStr, hblank ':' _ rfl]
  rw [skipBlanks_render, hread]
  simp only [String.ofList_toList]

mutual
/-- **A value is read back**, with fuel for its length. -/
theorem read_render : ∀ (v : Json) {n : Nat} {rest : List Char}, (render v).length ≤ n →
    Delimited rest → read n (render v ++ rest) = some (v, rest)
  | v, 0, rest, hn, _ => by
    obtain ⟨c, cs, hv, -⟩ := render_head v
    rw [hv, List.length_cons] at hn
    omega
  | null, n + 1, rest, _, _ => rfl
  | bool true, n + 1, rest, _, _ => rfl
  | bool false, n + 1, rest, _, _ => rfl
  | num i, n + 1, rest, _, hrest => read_renderNum i hrest
  | str s, n + 1, rest, _, _ => by
    show (readStr ((s.toList.flatMap escapeChar ++ ['"']) ++ rest)).map _ = _
    rw [List.append_assoc]
    show (readStr (s.toList.flatMap escapeChar ++ '"' :: rest)).map _ = _
    rw [readStr_renderStr, Option.map_some, String.ofList_toList]
  | arr [], n + 1, rest, _, _ => rfl
  | arr (e :: es), n + 1, rest, hn, _ => by
    have hlen : (render e ++ renderMoreElems es).length ≤ n := Nat.le_of_succ_le_succ hn
    have hread := @readElems_render e es _ rest hlen
    rw [List.append_assoc] at hread
    show read (n + 1) ('[' :: (render e ++ renderMoreElems es) ++ rest) = _
    rw [List.cons_append, List.append_assoc]
    obtain ⟨c, cs, he, -, hc⟩ := render_head e
    rw [read, skipBlanks_render]
    split
    · next cs' h =>
      rw [he] at h
      exact absurd (List.cons.inj h).1 hc
    · rw [hread]
      rfl
  | obj [], n + 1, rest, _, _ => rfl
  | obj ((k, v) :: ms), n + 1, rest, hn, _ => by
    have hread := @readMembers_render k v ms _ rest (Nat.le_of_succ_le_succ hn)
    show (readMembers n (renderMembers ((k, v) :: ms) ++ rest)).map _ = _
    rw [hread]
    rfl

theorem readElems_render : ∀ (e : Json) (es : List Json) {n : Nat} {rest : List Char},
    (render e ++ renderMoreElems es).length ≤ n →
      readElems n (render e ++ renderMoreElems es ++ rest) = some (e :: es, rest)
  | e, es, 0, rest, hn => by
    obtain ⟨c, cs, he, -⟩ := render_head e
    rw [he, List.cons_append, List.length_cons] at hn
    omega
  | e, [], n + 1, rest, hn => by
    have hlen : (render e).length ≤ n := by
      rw [List.length_append] at hn
      simp only [renderMoreElems, List.length_singleton] at hn
      omega
    have hread := @read_render e _ (']' :: rest) hlen (.inr (.inl rfl))
    rw [List.append_assoc]
    unfold readElems
    rw [skipBlanks_render]
    show (match read n (render e ++ ']' :: rest) with | none => none | some (e, cs) => _) = _
    rw [hread]
    rfl
  | e, e' :: es, n + 1, rest, hn => by
    rw [List.length_append] at hn
    have hmore : (renderMoreElems (e' :: es)).length =
        (render e' ++ renderMoreElems es).length + 1 := rfl
    have hread := read_render e (n := n) (by omega) (renderMoreElems_delimited (e' :: es) rest)
    have htail := @readElems_render e' es n rest (by omega)
    rw [List.append_assoc]
    unfold readElems
    rw [skipBlanks_render, hread]
    show (readElems n (render e' ++ renderMoreElems es ++ rest)).map _ = _
    rw [htail]
    rfl

theorem readMembers_render : ∀ (k : String) (v : Json) (ms : List (String × Json)) {n : Nat}
    {rest : List Char}, (renderMembers ((k, v) :: ms)).length ≤ n →
      readMembers n (renderMembers ((k, v) :: ms) ++ rest) = some ((k, v) :: ms, rest)
  | k, v, ms, 0, rest, hn => by
    exact absurd hn (Nat.not_succ_le_zero _)
  | k, v, [], n + 1, rest, hn => by
    have htext : renderMembers [(k, v)] ++ rest = renderStr k ++ ':' :: (render v ++ '}' :: rest) := by
      simp only [renderMembers, renderMoreMembers, List.append_assoc, List.cons_append,
        List.nil_append]
    have hlen : (render v).length ≤ n := by
      simp only [renderMembers, List.length_append, List.length_cons] at hn
      omega
    have hbrace : Delimited ('}' :: rest) := .inr (.inr rfl)
    rw [htext, readMembers_member k (read_render v hlen hbrace)]
    rfl
  | k, v, (k', v') :: ms, n + 1, rest, hn => by
    have htext : renderMembers ((k, v) :: (k', v') :: ms) ++ rest =
        renderStr k ++ ':' :: (render v ++ (renderMoreMembers ((k', v') :: ms) ++ rest)) := by
      simp only [renderMembers, List.append_assoc, List.cons_append]
    have hmore : (renderMoreMembers ((k', v') :: ms)).length =
        (renderMembers ((k', v') :: ms)).length + 1 := rfl
    simp only [renderMembers, List.length_append, List.length_cons] at hn hmore
    have hread := read_render v (n := n) (by omega)
      (renderMoreMembers_delimited ((k', v') :: ms) rest)
    have htail := @readMembers_render k' v' ms n rest (by
      simp only [renderMembers, List.length_append, List.length_cons]
      omega)
    rw [htext, readMembers_member k hread]
    show (readMembers n (renderMembers ((k', v') :: ms) ++ rest)).map _ = _
    rw [htail]
    rfl
end

/-- **Round trip**: a text that `render` wrote is one value and nothing else, namely that one. -/
theorem parse_render (v : Json) : parse (render v) = some v := by
  have hread := @read_render v ((render v).length + 1) [] (Nat.le_succ _) trivial
  have hblanks := skipBlanks_render v []
  rw [List.append_nil] at hread hblanks
  unfold parse
  rw [hblanks, hread]
  rfl

/-! ## One line -/

theorem escapeChar_line (c : Char) : '\n' ∉ escapeChar c := by
  unfold escapeChar
  split
  · decide
  split
  · decide
  split
  · decide
  split
  · decide
  split
  · decide
  split
  · next h =>
    rw [(hex4_hexDigits c.toNat h).1]
    simp
  · next hn _ _ _ =>
    rw [List.mem_singleton]
    intro h
    exact hn h.symm

theorem renderStr_line (s : String) : '\n' ∉ renderStr s := by
  unfold renderStr
  simp only [List.mem_cons, List.mem_append, List.mem_flatMap, not_or, not_exists, not_and,
    List.not_mem_nil, or_false]
  exact ⟨by decide, fun c _ => escapeChar_line c, by decide⟩

theorem renderNum_line (n : Int) : '\n' ∉ renderNum n := by
  have hdigits : ∀ m, '\n' ∉ Nat.toDigits 10 m := by
    intro m h
    have := Nat.isDigit_of_mem_toDigits (by decide) (by decide) h
    cases this
  cases n with
  | ofNat n => exact hdigits n
  | negSucc n =>
    intro h
    exact (List.mem_cons.mp h).elim (by decide) (hdigits (n + 1))

mutual
/-- **A value is written in one line.** -/
theorem render_line : ∀ v : Json, '\n' ∉ render v
  | null => by decide
  | bool true => by decide
  | bool false => by decide
  | num n => renderNum_line n
  | str s => renderStr_line s
  | arr es => by
    intro h
    exact (List.mem_cons.mp h).elim (by decide) (renderElems_line es)
  | obj ms => by
    intro h
    exact (List.mem_cons.mp h).elim (by decide) (renderMembers_line ms)

theorem renderElems_line : ∀ es : List Json, '\n' ∉ renderElems es
  | [] => by decide
  | e :: es => by
    intro h
    exact (List.mem_append.mp h).elim (render_line e) (renderMoreElems_line es)

theorem renderMoreElems_line : ∀ es : List Json, '\n' ∉ renderMoreElems es
  | [] => by decide
  | e :: es => by
    intro h
    rcases List.mem_cons.mp h with h | h
    · exact absurd h (by decide)
    · exact (List.mem_append.mp h).elim (render_line e) (renderMoreElems_line es)

theorem renderMembers_line : ∀ ms : List (String × Json), '\n' ∉ renderMembers ms
  | [] => by decide
  | (k, v) :: ms => by
    intro h
    rcases List.mem_append.mp h with h | h
    · exact renderStr_line k h
    rcases List.mem_cons.mp h with h | h
    · exact absurd h (by decide)
    · exact (List.mem_append.mp h).elim (render_line v) (renderMoreMembers_line ms)

theorem renderMoreMembers_line : ∀ ms : List (String × Json), '\n' ∉ renderMoreMembers ms
  | [] => by decide
  | (k, v) :: ms => by
    intro h
    rcases List.mem_cons.mp h with h | h
    · exact absurd h (by decide)
    rcases List.mem_append.mp h with h | h
    · exact renderStr_line k h
    rcases List.mem_cons.mp h with h | h
    · exact absurd h (by decide)
    · exact (List.mem_append.mp h).elim (render_line v) (renderMoreMembers_line ms)
end

end Json
