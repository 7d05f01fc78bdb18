/-
  Bytes in memory.

  A pointer is the bytes found behind it, `p i` being `p[i]`; it says nothing
  about how many of them may be read.  `Holds p l` says that the bytes at `p`
  are those of `l`, so that what a reader finds follows from what a writer put
  there: `holds_append` cuts the list where the reader moves its pointer.
-/
import Mathlib

namespace Bytes

abbrev BytePtr := ℕ → UInt8

def BytePtr.add (p : BytePtr) (k : ℕ) : BytePtr := fun i => p (k + i)

def BytePtr.take (p : BytePtr) (n : ℕ) : List UInt8 := (List.range n).map p

def ofList (l : List UInt8) : BytePtr := fun i => l.getD i 0

def Holds (p : BytePtr) (l : List UInt8) : Prop := ∀ i, i < l.length → p i = l.getD i 0

variable {p : BytePtr} {l r : List UInt8} {a : UInt8} {n k : ℕ}

@[simp] theorem add_apply (p : BytePtr) (k i : ℕ) : p.add k i = p (k + i) := rfl

@[simp] theorem add_zero (p : BytePtr) : p.add 0 = p := by
  ext i
  simp

@[simp] theorem add_add (p : BytePtr) (k i : ℕ) : (p.add k).add i = p.add (k + i) := by
  ext j
  simp [Nat.add_assoc]

@[simp] theorem length_take (p : BytePtr) (n : ℕ) : (p.take n).length = n := by simp [BytePtr.take]

theorem holds_ofList (l : List UInt8) : Holds (ofList l) l := fun _ _ => rfl

@[simp] theorem holds_nil (p : BytePtr) : Holds p [] := by
  intro i hi
  simp at hi

theorem holds_cons : Holds p (a :: l) ↔ p 0 = a ∧ Holds (p.add 1) l := by
  constructor
  · intro h
    refine ⟨h 0 (by simp), fun i hi => ?_⟩
    have hs := h (i + 1) (by simpa using hi)
    rwa [add_apply, Nat.add_comm]
  · rintro ⟨h0, h1⟩ i hi
    cases i with
    | zero => simpa using h0
    | succ i =>
      have hs := h1 i (by simpa using hi)
      rw [add_apply, Nat.add_comm] at hs
      simpa using hs

theorem holds_append : Holds p (l ++ r) ↔ Holds p l ∧ Holds (p.add l.length) r := by
  induction l generalizing p with
  | nil => simp
  | cons a l ih =>
    rw [List.cons_append, holds_cons, holds_cons, ih, add_add, and_assoc, List.length_cons,
      Nat.add_comm 1]

theorem Holds.left (h : Holds p (l ++ r)) : Holds p l := (holds_append.mp h).1

theorem Holds.right (h : Holds p (l ++ r)) : Holds (p.add l.length) r := (holds_append.mp h).2

theorem Holds.take_eq (h : Holds p l) : p.take l.length = l := by
  apply List.ext_getElem (by simp)
  intro i hi hi'
  have hp := h i hi'
  rw [List.getD_eq_getElem _ _ hi'] at hp
  simpa [BytePtr.take] using hp

end Bytes
