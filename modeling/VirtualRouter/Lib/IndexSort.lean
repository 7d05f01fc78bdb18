/-
  Sorting a vector of indices by the elements that they stand for.

  The indices `idx` stand for the elements `l`, and a sort of `idx` gives some
  vector `SortResult`: which one is not said where the comparison `less` does not
  tell elements apart.

  * `Arranges less l L`: `L` are the elements of `l` in an order that `less` allows;
  * `SortResult.arranges`, `exists_sortResult`: the results of a sort stand for the
    arrangements, and each arrangement is one of them;
  * `arranges_unique`: if `less` compares a key that tells the elements apart, there
    is one arrangement only;
  * `exists_arranges_ne`: if two elements have one key, there are two.
-/
import Mathlib.Data.List.Sort
import Mathlib.Data.List.Perm.Basic
import Mathlib.Data.List.Pairwise

namespace IndexSort

variable {ι α κ : Type} {less : α → α → Bool} {get : ι → Option α} {idx a : List ι} {l L M : List α}

def lessAt (less : α → α → Bool) (get : ι → Option α) (i j : ι) : Bool :=
  match get i, get j with
  | some x, some y => less x y
  | _, _ => false

/-- What sorting `idx` may give: its indices, none behind one that is to stand behind it. -/
structure SortResult (less : α → α → Bool) (get : ι → Option α) (idx a : List ι) : Prop where
  perm : a.Perm idx
  sorted : a.Pairwise fun i j => lessAt less get j i = false

/-- The elements of `l` in an order that `less` allows. -/
structure Arranges (less : α → α → Bool) (l L : List α) : Prop where
  perm : L.Perm l
  sorted : L.Pairwise fun x y => less y x = false

theorem SortResult.arranges (hidx : idx.map get = l.map some) (h : SortResult less get idx a) :
    ∃ L, Arranges less l L ∧ a.map get = L.map some := by
  have hperm : (a.map get).Perm (l.map some) := hidx ▸ h.perm.map get
  obtain ⟨L, hL, hLl⟩ : Relation.Comp (· = List.map some ·) List.Perm (a.map get) l := by
    rw [List.eq_map_comp_perm]
    exact hperm
  refine ⟨L, ⟨hLl, ?_⟩, hL⟩
  have hsorted : (a.map get).Pairwise fun x y => ∀ p ∈ x, ∀ q ∈ y, less q p = false := by
    refine List.pairwise_map.2 (h.sorted.imp ?_)
    intro i j hij p hp q hq
    rw [Option.mem_def] at hp hq
    simpa only [lessAt, hp, hq] using hij
  rw [hL] at hsorted
  refine (List.pairwise_map.1 hsorted).imp ?_
  intro x y hxy
  exact hxy x rfl y rfl

theorem exists_sortResult (hidx : idx.map get = l.map some) (h : Arranges less l L) :
    ∃ a, SortResult less get idx a ∧ a.map get = L.map some := by
  obtain ⟨a, ha, haidx⟩ : Relation.Comp (· = List.map get ·) List.Perm (L.map some) idx := by
    have hperm : (L.map some).Perm (idx.map get) := hidx ▸ h.perm.map some
    rw [List.eq_map_comp_perm]
    exact hperm
  refine ⟨a, ⟨haidx, ?_⟩, ha.symm⟩
  have hsorted : (L.map some).Pairwise fun x y => ∀ p ∈ x, ∀ q ∈ y, less q p = false := by
    refine List.pairwise_map.2 (h.sorted.imp ?_)
    intro x y hxy p hp q hq
    rw [Option.mem_some_iff] at hp hq
    rwa [← hp, ← hq]
  rw [ha] at hsorted
  refine (List.pairwise_map.1 hsorted).imp ?_
  intro i j hij
  rw [lessAt]
  split
  · rename_i y x hj hi
    exact hij x hi y hj
  · rfl

section
variable [LinearOrder κ] {key : α → κ} (hless : ∀ x y, less x y = true ↔ key x < key y)
include hless

theorem less_eq_false (x y : α) : less y x = false ↔ key x ≤ key y := by
  rw [← not_lt, ← hless y x, Bool.not_eq_true]

theorem arranges_unique (hL : Arranges less l L) (hM : Arranges less l M)
    (hkey : ∀ x ∈ l, ∀ y ∈ l, key x = key y → x = y) : L = M := by
  refine List.Perm.eq_of_pairwise ?_ hL.sorted hM.sorted (hL.perm.trans hM.perm.symm)
  intro x y hx hy hxy hyx
  rw [less_eq_false hless] at hxy hyx
  exact hkey x (hL.perm.subset hx) y (hM.perm.subset hy) (le_antisymm hxy hyx)

theorem exists_arranges_by (tie : α → ℤ) (l : List α) :
    ∃ L, Arranges less l L ∧ L.Pairwise fun x y => key x = key y → tie x ≤ tie y := by
  classical
  let le : α → α → Bool := fun x y => decide (key x < key y ∨ key x = key y ∧ tie x ≤ tie y)
  have htrans : ∀ x y z, le x y = true → le y z = true → le x z = true := by
    intro x y z hxy hyz
    simp only [le, decide_eq_true_eq] at hxy hyz ⊢
    rcases hxy with hxy | ⟨hxy, htxy⟩
    · rcases hyz with hyz | ⟨hyz, -⟩
      · exact Or.inl (hxy.trans hyz)
      · exact Or.inl (hyz ▸ hxy)
    · rcases hyz with hyz | ⟨hyz, htyz⟩
      · exact Or.inl (hxy ▸ hyz)
      · exact Or.inr ⟨hxy.trans hyz, htxy.trans htyz⟩
  have htotal : ∀ x y, (le x y || le y x) = true := by
    intro x y
    simp only [le, Bool.or_eq_true, decide_eq_true_eq]
    rcases lt_trichotomy (key x) (key y) with h | h | h
    · exact Or.inl (Or.inl h)
    · rcases le_total (tie x) (tie y) with ht | ht
      · exact Or.inl (Or.inr ⟨h, ht⟩)
      · exact Or.inr (Or.inr ⟨h.symm, ht⟩)
    · exact Or.inr (Or.inl h)
  have hsorted : (l.mergeSort le).Pairwise fun x y => le x y = true :=
    List.pairwise_mergeSort htrans htotal l
  refine ⟨l.mergeSort le, ⟨List.mergeSort_perm l le, hsorted.imp ?_⟩, hsorted.imp ?_⟩
  · intro x y hxy
    simp only [le, decide_eq_true_eq] at hxy
    rw [less_eq_false hless]
    rcases hxy with hxy | ⟨hxy, -⟩
    · exact hxy.le
    · exact hxy.le
  · intro x y hxy hkey
    simp only [le, decide_eq_true_eq] at hxy
    rcases hxy with hxy | ⟨-, ht⟩
    · exact absurd hkey hxy.ne
    · exact ht

theorem exists_arranges (l : List α) : ∃ L, Arranges less l L := by
  obtain ⟨L, hL, -⟩ := exists_arranges_by hless (fun _ => 0) l
  exact ⟨L, hL⟩

theorem exists_arranges_ne {x y : α} (hx : x ∈ l) (hy : y ∈ l) (hkey : key x = key y) (hne : x ≠ y) :
    ∃ L M, Arranges less l L ∧ Arranges less l M ∧ L ≠ M := by
  classical
  -- `x` behind the elements of its key, and before them
  let tie : α → ℤ := fun z => if z = x then 1 else 0
  obtain ⟨L, hL, hLtie⟩ := exists_arranges_by hless tie l
  obtain ⟨M, hM, hMtie⟩ := exists_arranges_by hless (fun z => -tie z) l
  refine ⟨L, M, hL, hM, ?_⟩
  rintro rfl
  have hboth : L.Pairwise fun p q => key p = key q → tie p = tie q := by
    refine (hLtie.and hMtie).imp ?_
    rintro p q ⟨h₁, h₂⟩ hpq
    exact le_antisymm (h₁ hpq) (Int.neg_le_neg_iff.1 (h₂ hpq))
  have htie : tie x = tie y := by
    have hsymm : Std.Symm fun p q : α => key p = key q → tie p = tie q :=
      ⟨fun p q h hqp => (h hqp.symm).symm⟩
    exact List.Pairwise.forall hboth (hL.perm.symm.subset hx) (hL.perm.symm.subset hy) hne hkey
  simp [tie, hne.symm] at htie

end

end IndexSort
