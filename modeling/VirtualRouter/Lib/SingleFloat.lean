/-
  Integer parts of single-precision quotients.

  `truncDiv a b` is the integer part of the binary32 number nearest to `a / b`
  (24 significant bits, ties to even), for `b ≤ a`; with `b = 1` it is the
  conversion of a natural number.  Rounding loses at most one part in `2 ^ 23`
  (`le_truncDiv`).
-/
import Mathlib

namespace SingleFloat

/-- `a / b` rounded to the nearest integer, ties to even. -/
def roundEven (a b : ℕ) : ℕ :=
  if 2 * (a % b) < b ∨ 2 * (a % b) = b ∧ a / b % 2 = 0 then a / b else a / b + 1

/-- The integer part of the single-precision quotient `a / b`. -/
def truncDiv (a b : ℕ) : ℕ :=
  let e := Nat.log2 (a / b)
  if e < 24 then roundEven (a * 2 ^ (23 - e)) b / 2 ^ (23 - e)
  else roundEven a (b * 2 ^ (e - 23)) * 2 ^ (e - 23)

theorem div_le_roundEven (a b : ℕ) : a / b ≤ roundEven a b := by
  unfold roundEven
  split <;> omega

theorem le_truncDiv (a b : ℕ) : (2 ^ 23 - 1) * (a / b) ≤ 2 ^ 23 * truncDiv a b := by
  unfold truncDiv
  set e := Nat.log2 (a / b) with he
  dsimp only
  split
  · -- all integers up to here are numbers of the format
    set k := 2 ^ (23 - e)
    have hk : 0 < k := Nat.two_pow_pos _
    have hq : a / b ≤ roundEven (a * k) b / k := by
      rw [Nat.le_div_iff_mul_le hk]
      calc a / b * k = k * (a / b) := Nat.mul_comm _ _
        _ ≤ k * a / b := Nat.mul_div_le_mul_div_assoc k a b
        _ = a * k / b := by rw [Nat.mul_comm]
        _ ≤ roundEven (a * k) b := div_le_roundEven _ _
    omega
  · set k := 2 ^ (e - 23) with hk
    have hpos : 0 < k := Nat.two_pow_pos _
    have hne : a / b ≠ 0 := by
      intro h0
      rw [h0] at he
      simp at he
      omega
    have hke : k * 2 ^ 23 ≤ a / b := by
      rw [hk, ← pow_add, Nat.sub_add_cancel (by omega), he]
      exact Nat.log2_self_le hne
    have hround : a / b / k ≤ roundEven a (b * k) := by
      rw [Nat.div_div_eq_div_mul]
      exact div_le_roundEven _ _
    have hmul := Nat.mul_le_mul_right k hround
    have hdiv := Nat.div_add_mod (a / b) k
    have hmod := Nat.mod_lt (a / b) hpos
    rw [Nat.mul_comm] at hdiv
    omega

end SingleFloat
