import Procguard.Json

/- Formats: how values are written as JSON, with the reader that gets them back. A
   `Format` writes a whole value, a `Fields` some members of an object. The reader of
   `Fields` sees the object through its keys alone, so what stands under other keys does
   not disturb it; two `Fields` go side by side where their keys differ (`Fields.also`),
   and `Fields.choice` tells several shapes of an object apart by the text under a key. -/
namespace Json

variable {α β : Type}

/-- The member under a key, of members that come before others. -/
theorem lookup_append (k : String) (ms ms' : List (String × Json)) :
    (ms ++ ms').lookup k = (ms.lookup k).or (ms'.lookup k) := by
  induction ms with
  | nil => simp
  | cons m ms ih =>
    obtain ⟨key, v⟩ := m
    rw [List.cons_append, List.lookup_cons, List.lookup_cons, ih]
    cases k == key <;> simp

theorem lookup_one {k key : String} (v : Json) (h : k ≠ key) : [(key, v)].lookup k = none := by
  have hne : (k == key) = false := beq_false_of_ne h
  simp [List.lookup_cons, hne]

/-! ## Whole values -/

/-- Values written as JSON, and read back. -/
structure Format (α : Type) where
  write : α → Json
  read : Json → Option α
  read_write : ∀ a, read (write a) = some a

namespace Format

theorem write_inj (f : Format α) {a b : α} (h : f.write a = f.write b) : a = b := by
  have hread : some a = some b := by rw [← f.read_write a, h, f.read_write b]
  exact Option.some.inj hread

def readInt : Json → Option Int
  | num n => some n
  | _ => none

def int : Format Int where
  write := num
  read := readInt
  read_write _ := rfl

def readNat : Json → Option Nat
  | num (.ofNat n) => some n
  | _ => none

def nat : Format Nat where
  write n := num n
  read := readNat
  read_write _ := rfl

/-- The one value that can stand here. -/
def fixed (n : Nat) : Format Unit where
  write _ := num n
  read v := if readNat v = some n then some () else none
  read_write _ := if_pos rfl

def readBool : Json → Option Bool
  | .bool b => some b
  | _ => none

def bool : Format Bool where
  write := .bool
  read := readBool
  read_write _ := rfl

def readText : Json → Option String
  | str s => some s
  | _ => none

def text : Format String where
  write := str
  read := readText
  read_write _ := rfl

/-- A value that goes by a name. -/
def named (name : α → String) (ofName : String → Option α) (h : ∀ a, ofName (name a) = some a) :
    Format α where
  write a := str (name a)
  read v := (readText v).bind ofName
  read_write := h

def writeOrNull : Option Int → Json
  | some n => num n
  | none => null

def readOrNull : Json → Option (Option Int)
  | num n => some (some n)
  | null => some none
  | _ => none

theorem readOrNull_write (c : Option Int) : readOrNull (writeOrNull c) = some c := by
  cases c <;> rfl

/-- An integer, or null. -/
def intOrNull : Format (Option Int) where
  write := writeOrNull
  read := readOrNull
  read_write := readOrNull_write

def readElems (read : Json → Option α) : List Json → Option (List α)
  | [] => some []
  | v :: vs => do
    let a ← read v
    let as ← readElems read vs
    some (a :: as)

def readArr (read : Json → Option α) : Json → Option (List α)
  | arr vs => readElems read vs
  | _ => none

theorem readElems_map (f : Format α) (as : List α) :
    readElems f.read (as.map f.write) = some as := by
  induction as with
  | nil => rfl
  | cons a as ih => simp [readElems, f.read_write a, ih]

def list (f : Format α) : Format (List α) where
  write as := arr (as.map f.write)
  read := readArr f.read
  read_write := readElems_map f

end Format

/-! ## Members of an object -/

/-- Values written as members of an object, and read back from any object that holds these
    members under their keys. -/
structure Fields (α : Type) where
  keys : List String
  write : α → List (String × Json)
  read : (String → Option Json) → Option α
  lookup_absent : ∀ a k, k ∉ keys → (write a).lookup k = none
  read_write : ∀ a look, (∀ k ∈ keys, look k = (write a).lookup k) → read look = some a

/-- The object of the members. -/
def Fields.object (c : Fields α) : Format α where
  write a := obj (c.write a)
  read v := c.read fun k => v.field k
  read_write a := c.read_write a _ fun _ _ => rfl

/-- The order of the members and what else the object holds do not matter. -/
theorem Fields.read_object (c : Fields α) (a : α) {v : Json}
    (h : ∀ k ∈ c.keys, v.field k = (c.object.write a).field k) : c.object.read v = some a :=
  c.read_write a _ h

namespace Fields

/-- The member under one key. -/
def one (key : String) (f : Format α) : Fields α where
  keys := [key]
  write a := [(key, f.write a)]
  read look := (look key).bind f.read
  lookup_absent a k hk := lookup_one _ fun h => hk (List.mem_singleton.mpr h)
  read_write a look h := by
    rw [h key (List.mem_singleton_self key), List.lookup_cons_self]
    exact f.read_write a

/-- The same members for values of another shape. -/
def as (c : Fields α) (f : α → β) (g : β → α) (h : ∀ b, f (g b) = b) : Fields β where
  keys := c.keys
  write b := c.write (g b)
  read look := (c.read look).map f
  lookup_absent b := c.lookup_absent (g b)
  read_write b look hlook := by rw [c.read_write (g b) look hlook, Option.map_some, h]

/-- Members after members, under other keys. -/
def also (c : Fields α) (d : Fields β) (hkeys : ∀ k ∈ c.keys, k ∉ d.keys) : Fields (α × β) where
  keys := c.keys ++ d.keys
  write p := c.write p.1 ++ d.write p.2
  read look := do
    let a ← c.read look
    let b ← d.read look
    some (a, b)
  lookup_absent p k hk := by
    rw [List.mem_append, not_or] at hk
    rw [lookup_append, c.lookup_absent p.1 k hk.1, d.lookup_absent p.2 k hk.2]
    rfl
  read_write p look hlook := by
    -- the keys are apart, so each side finds its own members and none of the other
    have hc : ∀ k ∈ c.keys, look k = (c.write p.1).lookup k := by
      intro k hk
      rw [hlook k (List.mem_append_left _ hk), lookup_append,
        d.lookup_absent p.2 k (hkeys k hk), Option.or_none]
    have hd : ∀ k ∈ d.keys, look k = (d.write p.2).lookup k := by
      intro k hk
      have hnot : k ∉ c.keys := fun hin => hkeys k hin hk
      rw [hlook k (List.mem_append_right _ hk), lookup_append, c.lookup_absent p.1 k hnot,
        Option.none_or]
    rw [c.read_write p.1 look hc, d.read_write p.2 look hd]
    rfl

/-- Members that may be missing together; the reader goes by one that never is missing alone. -/
def opt (c : Fields α) (key : String) (hkey : key ∈ c.keys)
    (hwritten : ∀ a, ((c.write a).lookup key).isSome) : Fields (Option α) where
  keys := c.keys
  write a := a.elim [] c.write
  read look := if (look key).isSome then (c.read look).map some else some none
  lookup_absent a k hk := by
    cases a with
    | none => rfl
    | some a => exact c.lookup_absent a k hk
  read_write a look hlook := by
    cases a with
    | none =>
      rw [hlook key hkey]
      rfl
    | some a =>
      -- the key that is always written tells that they are there
      have hheld : (look key).isSome := by
        rw [hlook key hkey]
        exact hwritten a
      rw [if_pos hheld, c.read_write a look hlook, Option.map_some]

/-- Members whose shape goes by the name under a key, written first. -/
def choice {ι : Type} {γ : ι → Type} (key : String) (name : ι → String)
    (ofName : String → Option ι) (hname : ∀ i, ofName (name i) = some i) (all : List ι)
    (hall : ∀ i, i ∈ all) (c : ∀ i, Fields (γ i)) (hkey : ∀ i, key ∉ (c i).keys) :
    Fields ((i : ι) × γ i) where
  keys := key :: all.flatMap fun i => (c i).keys
  write s := (key, str (name s.1)) :: (c s.1).write s.2
  read look := do
    let v ← look key
    let i ← (Format.readText v).bind ofName
    let b ← (c i).read look
    some ⟨i, b⟩
  lookup_absent s k hk := by
    rw [List.mem_cons, not_or, List.mem_flatMap, not_exists] at hk
    have hne : (k == key) = false := beq_false_of_ne hk.1
    have hrest : k ∉ (c s.1).keys := fun h => hk.2 s.1 ⟨hall s.1, h⟩
    rw [List.lookup_cons, hne]
    exact (c s.1).lookup_absent s.2 k hrest
  read_write s look hlook := by
    -- the name is under the first key, and the members of its shape are behind it
    have hshape : look key = some (str (name s.1)) := by
      rw [hlook key (List.mem_cons_self ..), List.lookup_cons_self]
    have hrest : ∀ k ∈ (c s.1).keys, look k = ((c s.1).write s.2).lookup k := by
      intro k hk
      have hne : (k == key) = false := beq_false_of_ne fun h => hkey s.1 (h ▸ hk)
      rw [hlook k (List.mem_cons_of_mem _ (List.mem_flatMap.mpr ⟨s.1, hall s.1, hk⟩)),
        List.lookup_cons, hne]
    have hbody := (c s.1).read_write s.2 look hrest
    simp only [hshape, Format.readText, Option.bind_eq_bind, Option.bind_some, hname s.1, hbody]

end Fields

end Json
