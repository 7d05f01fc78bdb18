/-
  Fletcher's two sums.

  The first sum adds what is fed to it, the second adds the first after each
  step, so that an entry counts as often as there are entries from it to the end.
  `feedAll_eq` is the closed form over any commutative semiring, from which the sums of
  a list follow from those of its parts.
-/
import Mathlib

namespace Fletcher

variable {R : Type*} [CommSemiring R] {l r : List R} {a : R}

def feed (s : R × R) (a : R) : R × R := (s.1 + a, s.2 + (s.1 + a))

def feedAll (s : R × R) (l : List R) : R × R := l.foldl feed s

/-- The sum in which an entry counts as often as there are entries from it to the end. -/
def weighted : List R → R
  | [] => 0
  | a :: l => (l.length + 1) * a + weighted l

theorem feedAll_eq (s : R × R) (l : List R) :
    feedAll s l = (s.1 + l.sum, s.2 + l.length * s.1 + weighted l) := by
  induction l generalizing s with
  | nil => simp [feedAll, weighted]
  | cons a l ih =>
    have hstep : feedAll s (a :: l) = feedAll (feed s a) l := rfl
    rw [hstep, ih]
    ext
    · simp only [feed, List.sum_cons]
      ring
    · simp only [feed, weighted, List.length_cons]
      push_cast
      ring

theorem weighted_append (l r : List R) :
    weighted (l ++ r) = weighted l + r.length * l.sum + weighted r := by
  induction l with
  | nil => simp [weighted]
  | cons a l ih =>
    rw [List.cons_append, weighted, weighted, ih, List.length_append, List.sum_cons]
    push_cast
    ring

theorem weighted_map_eq_sum {α : Type*} (f : α → ℕ) (l : List α) :
    weighted (l.map f) = ∑ i : Fin l.length, (l.length - i) * f (l.get i) := by
  induction l with
  | nil => rfl
  | cons a l ih =>
    rw [List.map_cons, weighted, ih, List.length_map]
    refine Eq.trans ?_ (Fin.sum_univ_succ _).symm
    simp only [List.length_cons, Fin.val_zero, Fin.val_succ, Nat.add_sub_add_right, Nat.sub_zero,
      List.get_cons_zero]
    rfl

theorem weighted_natCast (l : List ℕ) : weighted (l.map (Nat.cast : ℕ → R)) = (weighted l : ℕ) := by
  induction l with
  | nil => simp [weighted]
  | cons a l ih =>
    rw [List.map_cons, weighted, weighted, ih, List.length_map]
    push_cast
    rfl

end Fletcher
