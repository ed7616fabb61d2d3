import Procguard.Interact

/- Things that are started and ended, seen in a log. A `Tenure` says which event starts a
   thing and which one ends it; the same name may be used again once it is free, so what a
   log holds is counted. `Backed own l` is the invariant of a program that holds the handles
   `own`: each of them stands for a thing of its own that is still there. A handle may be
   forgotten, it may not be made up. -/
namespace Interact

variable {Q ι : Type} {A : Q → Type} [DecidableEq ι]

/-- The name an event brings to life, and the one it ends. -/
structure Tenure (A : Q → Type) (ι : Type) where
  born : Ev A → Option ι
  died : Ev A → Option ι

namespace Tenure
variable (T : Tenure A ι) (i : ι) (l : Log A)

def births : Nat := l.countP fun e => T.born e == some i
def deaths : Nat := l.countP fun e => T.died e == some i

/-- There is a thing of that name that has not ended. -/
def Living : Prop := T.deaths i l < T.births i l

/-- Every handle stands for a thing of its own. -/
def Backed (own : List ι) (l : Log A) : Prop :=
  ∀ i, T.deaths i l + own.count i ≤ T.births i l

/-- Every thing that is still there has a handle of its own. -/
def Held (own : List ι) (l : Log A) : Prop :=
  ∀ i, T.births i l ≤ T.deaths i l + own.count i

variable {T : Tenure A ι} {i : ι} {l : Log A} {own : List ι} {e : Ev A}

theorem births_cons (e : Ev A) :
    T.births i (e :: l) = T.births i l + if T.born e = some i then 1 else 0 := by
  simp [births, List.countP_cons]

theorem deaths_cons (e : Ev A) :
    T.deaths i (e :: l) = T.deaths i l + if T.died e = some i then 1 else 0 := by
  simp [deaths, List.countP_cons]

theorem births_of_none (h : T.born e = none) : T.births i (e :: l) = T.births i l := by
  rw [births_cons, h, if_neg (Option.some_ne_none _).symm, Nat.add_zero]

theorem deaths_of_none (h : T.died e = none) : T.deaths i (e :: l) = T.deaths i l := by
  rw [deaths_cons, h, if_neg (Option.some_ne_none _).symm, Nat.add_zero]

/-- What has ended stays so. -/
theorem deaths_mono {l' : Log A} (h : l <:+ l') : T.deaths i l ≤ T.deaths i l' :=
  h.sublist.countP_le

namespace Backed

theorem nil : T.Backed [] [] := fun _ => Nat.le_refl _

/-- A handle stands for something living. -/
theorem living (h : T.Backed own l) (hi : i ∈ own) : T.Living i l := by
  have hle := h i
  have hpos := List.count_pos_iff.mpr hi
  unfold Living
  omega

/-- Handles may be dropped. -/
theorem forget {own' : List ι} (h : T.Backed own l) (hsub : own'.Sublist own) : T.Backed own' l := by
  intro i
  have hle := hsub.count_le i
  have := h i
  omega

/-- An event that starts and ends nothing. -/
theorem aside (h : T.Backed own l) (hb : T.born e = none) (hd : T.died e = none) :
    T.Backed own (e :: l) := by
  intro i
  rw [births_of_none hb, deaths_of_none hd]
  exact h i

/-- A thing is started, and its handle kept. -/
theorem birth (h : T.Backed own l) (hb : T.born e = some i) (hd : T.died e = none) :
    T.Backed (i :: own) (e :: l) := by
  intro j
  have hj := h j
  rw [births_cons, deaths_of_none hd, hb, List.count_cons]
  by_cases hij : i = j
  · subst hij
    simp only [beq_self_eq_true, if_true]
    omega
  · simp only [Option.some.injEq, hij, if_false, beq_iff_eq]
    omega

/-- A thing ends, and its handle is given up. -/
theorem death (h : T.Backed (i :: own) l) (hb : T.born e = none) (hd : T.died e = some i) :
    T.Backed own (e :: l) := by
  intro j
  have hj := h j
  rw [births_of_none hb, deaths_cons, hd]
  rw [List.count_cons] at hj
  by_cases hij : i = j
  · subst hij
    simp only [beq_self_eq_true, if_true] at hj ⊢
    omega
  · simp only [Option.some.injEq, hij, if_false, beq_iff_eq] at hj ⊢
    omega

end Backed

namespace Held

theorem nil : T.Held [] [] := fun _ => Nat.zero_le _

/-- Without a handle there is nothing left. -/
theorem none_living (h : T.Held [] l) (i : ι) : ¬ T.Living i l := by
  have hle := h i
  rw [List.count_nil] at hle
  unfold Living
  omega

/-- More that ended and nothing that was started. -/
theorem later {l' : Log A} (h : T.Held own l) (hs : l <:+ l')
    (hb : ∀ i, T.births i l' = T.births i l) : T.Held own l' := by
  intro i
  calc T.births i l' = T.births i l := hb i
    _ ≤ T.deaths i l + own.count i := h i
    _ ≤ T.deaths i l' + own.count i := Nat.add_le_add_right (deaths_mono hs) _

theorem birth (h : T.Held own l) (hb : T.born e = some i) : T.Held (i :: own) (e :: l) := by
  intro j
  have hj := h j
  have hd : T.deaths j l ≤ T.deaths j (e :: l) := deaths_mono (List.suffix_cons e l)
  rw [births_cons, hb, List.count_cons]
  by_cases hij : i = j
  · subst hij
    simp only [beq_self_eq_true, if_true]
    omega
  · simp only [Option.some.injEq, hij, if_false, beq_iff_eq]
    omega

/-- The handle of a thing that has ended since is not needed. -/
theorem release {l' : Log A} (h : T.Held (i :: own) l) (hs : l <:+ l')
    (hb : ∀ j, T.births j l' = T.births j l) (hd : T.deaths i l < T.deaths i l') :
    T.Held own l' := by
  intro j
  have hj := h.later hs hb j
  have hlater : T.births j l' ≤ T.deaths j l + (i :: own).count j := by rw [hb j]; exact h j
  rw [List.count_cons] at hj hlater
  by_cases hij : i = j
  · subst hij
    simp only [beq_self_eq_true, if_true] at hlater
    omega
  · simp only [hij, if_false, beq_iff_eq] at hj
    omega

end Held
end Tenure
end Interact
