import Mathlib

/- The descriptor table of a process. A descriptor is an index into the table, and a new
   one is the lowest that is free. -/
namespace FdTable

variable {F : Type}

/-- Which file each descriptor refers to, `none` when it is closed. The length is the
    limit on open files. -/
abbrev Table (F : Type) := List (Option F)

def file (t : Table F) (fd : Nat) : Option F := t[fd]?.join

def lowestFree (t : Table F) : Option Nat := t.findIdx? Option.isNone

def install (t : Table F) (fd : Nat) (f : F) : Table F := t.set fd (some f)

def release (t : Table F) (fd : Nat) : Table F := t.set fd none

/-- Open a file; there may be no room for it. -/
def allocate (t : Table F) (f : F) : Option (Nat × Table F) :=
  (lowestFree t).map fun fd => (fd, install t fd f)

theorem file_release (t : Table F) (fd fd' : Nat) :
    file (release t fd) fd' = if fd' = fd then none else file t fd' := by
  unfold file release
  rw [List.getElem?_set]
  by_cases h : fd = fd'
  · subst h
    simp only [if_true]
    split <;> rfl
  · rw [if_neg h, if_neg fun h' => h h'.symm]

/-- Another file than the one looked for does not make it appear. -/
theorem file_install_ne {t : Table F} {f g : F} {fd fd' : Nat} (hne : f ≠ g)
    (h : file t fd' ≠ some g) : file (install t fd f) fd' ≠ some g := by
  unfold file install
  rw [List.getElem?_set]
  split
  · split
    · rw [Option.join_some]
      exact fun hf => hne (Option.some.inj hf)
    · exact nofun
  · exact h

theorem file_install {t : Table F} {fd : Nat} (f : F) (hlt : fd < t.length) (fd' : Nat) :
    file (install t fd f) fd' = if fd' = fd then some f else file t fd' := by
  unfold file install
  rw [List.getElem?_set]
  by_cases h : fd = fd'
  · subst h
    simp [hlt]
  · rw [if_neg h, if_neg fun h' => h h'.symm]

/-- A free descriptor refers to nothing, and there is a place for it. -/
theorem lowestFree_free {t : Table F} {fd : Nat} (h : lowestFree t = some fd) :
    fd < t.length ∧ file t fd = none := by
  obtain ⟨hlt, hfree, -⟩ := List.findIdx?_eq_some_iff_getElem.mp h
  refine ⟨hlt, ?_⟩
  unfold file
  rw [List.getElem?_eq_getElem hlt, Option.isNone_iff_eq_none.mp hfree]
  rfl

/-- Every descriptor below the lowest free one is taken. -/
theorem lowestFree_lt {t : Table F} {fd x : Nat} (h : lowestFree t = some fd) (hx : x < fd) :
    file t x ≠ none := by
  obtain ⟨hlt, -, hlow⟩ := List.findIdx?_eq_some_iff_getElem.mp h
  have hopen := hlow x hx
  intro hnone
  unfold file at hnone
  rw [List.getElem?_eq_getElem (Nat.lt_trans hx hlt), Option.join_some] at hnone
  exact hopen (by rw [hnone]; rfl)

/-- The first descriptor is taken as soon as it is free. -/
theorem lowestFree_zero {t : Table F} {fd : Nat} (h : lowestFree t = some fd)
    (h₀ : file t 0 = none) : fd = 0 := by
  by_contra hne
  exact lowestFree_lt h (Nat.pos_of_ne_zero hne) h₀

/-- What `allocate` gives out: a free descriptor, which now refers to the file. -/
theorem allocate_eq_some {t t' : Table F} {f : F} {fd : Nat} (h : allocate t f = some (fd, t')) :
    lowestFree t = some fd ∧ file t fd = none ∧
      ∀ fd', file t' fd' = if fd' = fd then some f else file t fd' := by
  obtain ⟨fd₀, hfree, heq⟩ := Option.map_eq_some_iff.mp h
  obtain ⟨rfl, rfl⟩ := Prod.mk.inj heq
  obtain ⟨hlt, hnone⟩ := lowestFree_free hfree
  exact ⟨hfree, hnone, file_install f hlt⟩

/-- Open two files, one after the other. -/
def allocatePair (t : Table F) (f g : F) : Option (Nat × Nat × Table F) := do
  let (fd, t) ← allocate t f
  let (fd', t) ← allocate t g
  pure (fd, fd', t)

/-- The two descriptors were free, and the first is the lowest that was. -/
theorem allocatePair_eq_some {t t' : Table F} {f g : F} {fd fd' : Nat}
    (h : allocatePair t f g = some (fd, fd', t')) :
    lowestFree t = some fd ∧ file t fd = none ∧ file t fd' = none ∧ fd ≠ fd' ∧
      ∀ x, file t' x = if x = fd' then some g else if x = fd then some f else file t x := by
  simp only [allocatePair, Option.bind_eq_bind, Option.bind_eq_some_iff, Option.pure_def,
    Option.some.injEq, Prod.mk.injEq] at h
  obtain ⟨⟨r, t₁⟩, hread, ⟨w, t₂⟩, hwrite, rfl, rfl, rfl⟩ := h
  obtain ⟨hlow, hr, ht₁⟩ := allocate_eq_some hread
  obtain ⟨-, hw, ht₂⟩ := allocate_eq_some hwrite
  rw [ht₁] at hw
  have hne : r ≠ w := by
    intro hrw
    rw [if_pos hrw.symm] at hw
    cases hw
  rw [if_neg hne.symm] at hw
  refine ⟨hlow, hr, hw, hne, fun x => ?_⟩
  rw [ht₂, ht₁]

/-- Below the second of the two, every other descriptor was taken. -/
theorem allocatePair_lt {t t' : Table F} {f g : F} {fd fd' x : Nat}
    (h : allocatePair t f g = some (fd, fd', t')) (hx : x < fd') (hne : x ≠ fd) :
    file t x ≠ none := by
  simp only [allocatePair, Option.bind_eq_bind, Option.bind_eq_some_iff, Option.pure_def,
    Option.some.injEq, Prod.mk.injEq] at h
  obtain ⟨⟨r, t₁⟩, hread, ⟨w, t₂⟩, hwrite, rfl, rfl, rfl⟩ := h
  obtain ⟨-, -, ht₁⟩ := allocate_eq_some hread
  have htaken := lowestFree_lt (allocate_eq_some hwrite).1 hx
  rwa [ht₁, if_neg hne] at htaken

end FdTable
