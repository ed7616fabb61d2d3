import Procguard.Interact

/- Times that keep a distance. `Spaced gap top ts` says of the times `ts`, newest first,
   that each comes at least `gap` after the one before it, on a clock that stops at `top`:
   what a timer keeps that is set again from the time it last fired. The times need not
   come from a clock that only goes forward. A spaced list has at most one time for every
   `gap` it spans (`Spaced.span`), hence so few in any window (`Spaced.window`).
   `marks` reads the times of a kind of event off a log. -/
namespace Spacing
open Interact

variable {gap top t o : Nat} {ts : List Nat}

/-- `newer` comes at least `gap` after `older`, or the clock has stopped. -/
def After (gap top newer older : Nat) : Prop := min (older + gap) top ≤ newer

instance : Decidable (After gap top t o) := inferInstanceAs (Decidable (_ ≤ _))

instance : Trans (After gap top) (After gap top) (After gap top) where
  trans := by
    intro a b c hab hbc
    unfold After at *
    omega

/-- Newest first, each time comes at least `gap` after the one before. -/
def Spaced (gap top : Nat) (ts : List Nat) : Prop := ts.IsChain (After gap top)

namespace Spaced

@[simp] theorem nil : Spaced gap top [] := List.isChain_nil

@[simp] theorem single : Spaced gap top [t] := List.isChain_singleton t

theorem cons_iff : Spaced gap top (t :: ts) ↔
    (∀ o ∈ ts.head?, After gap top t o) ∧ Spaced gap top ts := List.isChain_cons

theorem tail (h : Spaced gap top (t :: ts)) : Spaced gap top ts := (cons_iff.mp h).2

/-- Leaving times out does not bring the others closer. -/
theorem sublist {us : List Nat} (h : Spaced gap top ts) (hs : us.Sublist ts) :
    Spaced gap top us :=
  List.Pairwise.isChain (List.Pairwise.sublist hs (List.isChain_iff_pairwise.mp h))

/-- Before the clock stops, a gap lies between any two neighbours: the newest time is as
    many gaps past the oldest as there are times after it. -/
theorem span (h : Spaced gap top (t :: ts)) (ht : t < top) :
    (t :: ts).getLast (List.cons_ne_nil t ts) + ts.length * gap ≤ t := by
  induction ts generalizing t with
  | nil => simp
  | cons u us ih =>
    have hafter : After gap top t u := (cons_iff.mp h).1 u rfl
    have hu : u + gap ≤ t := by
      unfold After at hafter
      omega
    have hrest := ih h.tail (by omega)
    rw [List.getLast_cons (List.cons_ne_nil u us), List.length_cons, Nat.succ_mul]
    omega

/-- Counted from a time `o` before all of them. -/
theorem span_from (h : Spaced gap top (ts ++ [o])) (hne : ts ≠ [])
    (ht : ∀ u ∈ ts.head?, u < top) : ∀ u ∈ ts.head?, o + ts.length * gap ≤ u := by
  cases ts with
  | nil => exact absurd rfl hne
  | cons t ts =>
    have hspan := @span gap top t (ts ++ [o]) h (ht t rfl)
    simp only [List.length_append, List.length_singleton] at hspan
    have hlast : (t :: (ts ++ [o])).getLast (List.cons_ne_nil _ _) = o := by simp
    rw [hlast] at hspan
    intro u hu
    obtain rfl : t = u := by simpa using hu
    simpa using hspan

/-- **In no window are there more times than gaps fit in.** -/
theorem window (h : Spaced gap top ts) (hgap : 0 < gap) (start width : Nat)
    (hend : start + width ≤ top) :
    (ts.filter fun t => decide (start ≤ t ∧ t < start + width)).length * gap < width + gap := by
  have hsub := h.sublist (List.filter_sublist (p := fun t =>
    decide (start ≤ t ∧ t < start + width)) (l := ts))
  have hin : ∀ t ∈ ts.filter fun t => decide (start ≤ t ∧ t < start + width),
      start ≤ t ∧ t < start + width := by
    intro t ht
    simpa using (List.mem_filter.mp ht).2
  generalize ts.filter (fun t => decide (start ≤ t ∧ t < start + width)) = us at hsub hin
  cases us with
  | nil => simp; omega
  | cons u us =>
    have hu := hin u (List.mem_cons_self ..)
    have hlast := hin _ (List.getLast_mem (List.cons_ne_nil u us))
    have hspan := hsub.span (by omega)
    rw [List.length_cons, Nat.succ_mul]
    omega

end Spaced

/-! ## Times read off a log -/

variable {Q : Type} {A : Q → Type}

/-- The times `f` gives the events of the log, newest first. -/
def marks (f : Ev A → Log A → Option Nat) : Log A → List Nat
  | [] => []
  | e :: l => (f e l).toList ++ marks f l

section marks
variable {f : Ev A → Log A → Option Nat} {e : Ev A} {l : Log A}

theorem marks_none (h : f e l = none) : marks f (e :: l) = marks f l := by simp [marks, h]

theorem marks_some (h : f e l = some t) : marks f (e :: l) = t :: marks f l := by
  simp [marks, h]

/-- Events that each come a gap after the last of their kind have spaced times. -/
theorem marks_spaced (h : Always (fun e l => ∀ t, f e l = some t →
    ∀ o ∈ (marks f l).head?, After gap top t o) l) : Spaced gap top (marks f l) := by
  induction l with
  | nil => exact .nil
  | cons e l ih =>
    cases he : f e l with
    | none => rw [marks_none he]; exact ih h.2
    | some t => rw [marks_some he]; exact Spaced.cons_iff.mpr ⟨h.1 t he, ih h.2⟩

end marks
end Spacing
