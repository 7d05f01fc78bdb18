/-
  The bit arithmetic of the trie: `applyMask`, `makeMask`, `commonSkipLen` and
  the stride index, in terms of the bits of an address.
-/
import VirtualRouter.Types.LpcTrie

namespace VirtualRouter

open PrefixMap

namespace LpcTrie

section
variable {W : ℕ}

theorem applyMask_eq (a : BitVec W) (len : ℕ) : applyMask a len = mask a len := by
  refine Address.ext_bits _ _ fun i => ?_
  rw [bit_mask, bit_bitVec, bit_bitVec]
  unfold applyMask
  split_ifs with h0 hW
  · simp [h0]
  · by_cases hi : i < len
    · simp [hi]
    · simp [BitVec.getMsbD_of_ge a i (by omega)]
  · exact bit_mask a len i

theorem getMsbD_makeMask {pos len i : ℕ} (h : pos + len ≤ W) :
    (makeMask pos len : BitVec W).getMsbD i = decide (pos ≤ i ∧ i < pos + len) := by
  unfold makeMask
  split_ifs with h0 hW
  · simp [h0]
  · have : pos = 0 := by omega
    by_cases hi : i < W
    · simp [this, hi]; omega
    · simp [hi]; omega
  · have hlow : ∀ j, ((((1 : BitVec W) <<< len) - 1)).getLsbD j = decide (j < len) := by
      intro j
      have hn : (((1 : BitVec W) <<< len) - 1) = BitVec.ofNat W (2 ^ len - 1) := by
        apply BitVec.eq_of_toNat_eq
        have h1 : (2 : ℕ) ^ len < 2 ^ W := Nat.pow_lt_pow_right (by omega) (by omega)
        have h2 : 1 ≤ 2 ^ len := Nat.one_le_two_pow
        have h3 : 1 % 2 ^ W = 1 := Nat.mod_eq_of_lt (by omega)
        simp only [BitVec.toNat_sub, BitVec.toNat_shiftLeft, BitVec.toNat_ofNat, BitVec.ofNat_eq_ofNat,
          h3, Nat.shiftLeft_eq, one_mul, Nat.mod_eq_of_lt h1]
        rw [show 2 ^ W - 1 + 2 ^ len = (2 ^ len - 1) + 2 ^ W by omega, Nat.add_mod_right]
      rw [hn, BitVec.getLsbD_ofNat, Nat.testBit_two_pow_sub_one]
      by_cases hj : j < len
      · simp [hj]; omega
      · simp [hj]
    simp only [BitVec.getMsbD, BitVec.getLsbD_shiftLeft, hlow]
    by_cases hi : i < W
    · by_cases h1 : pos ≤ i <;> by_cases h2 : i < pos + len
      · simp [h1, h2, hi]; omega
      · simp [h1, h2, hi]; omega
      · simp [h1, h2, hi]; omega
      · simp [h1, h2, hi]; omega
    · simp [hi]; omega

theorem skipMatches_iff {α : Type} {d : NodeData W α} {a : BitVec W} {pos : ℕ}
    (hm : d.skipMask = makeMask pos d.skipLen) (h : pos + d.skipLen ≤ W) :
    skipMatches d a = true ↔ AgreeOn a d.skipPattern pos (pos + d.skipLen) := by
  unfold skipMatches
  rw [decide_eq_true_iff, hm]
  constructor
  · rintro (h0 | h0) i h1 h2
    · omega
    · have hb := congrArg (fun x => x.getMsbD i) h0
      simp only [BitVec.getMsbD_and, BitVec.getMsbD_xor, getMsbD_makeMask h, h1, h2] at hb
      simpa [bit_bitVec] using hb
  · intro hag
    right
    apply BitVec.eq_of_getMsbD_eq
    intro i hi
    rw [BitVec.getMsbD_and, BitVec.getMsbD_xor, getMsbD_makeMask h]
    by_cases hr : pos ≤ i ∧ i < pos + d.skipLen
    · have := hag i hr.1 hr.2
      simp only [bit_bitVec] at this
      simp [this]
    · simp [hr]

@[simp] theorem makeMask_zero (pos : ℕ) : (makeMask pos 0 : BitVec W) = 0 := by simp [makeMask]

theorem bitFromTop_eq_iff {a b : BitVec W} {p : ℕ} (hp : p < W) (hW : W ≤ 128) :
    bitFromTop a p = bitFromTop b p ↔ bit a p = bit b p := by
  have hs : (65536 + W - p - 1) % 65536 = W - 1 - p := by omega
  have hbit : ∀ x : BitVec W, bitFromTop x p = if bit x p then 1 else 0 := by
    intro x
    unfold bitFromTop
    rw [hs]
    apply BitVec.eq_of_getLsbD_eq
    intro i hi
    simp only [BitVec.getLsbD_and, BitVec.getLsbD_ushiftRight, bit_bitVec, BitVec.getMsbD, hp]
    rcases i with _ | i
    · cases x.getLsbD (W - 1 - p) <;> simp
    · split_ifs <;> simp
  rw [hbit a, hbit b]
  have hW0 : W ≠ 0 := by omega
  cases bit a p <;> cases bit b p <;> simp [hW0]

theorem commonSkipLen_spec {a b : BitVec W} (hW : W ≤ 128) : ∀ {n pos : ℕ}, pos + n ≤ W →
    commonSkipLen a b pos n ≤ n ∧ AgreeOn a b pos (pos + commonSkipLen a b pos n) ∧
      (commonSkipLen a b pos n < n →
        bit a (pos + commonSkipLen a b pos n) ≠ bit b (pos + commonSkipLen a b pos n))
  | 0, pos, _ => ⟨le_rfl, agreeOn_empty a b (by simp [commonSkipLen]), by simp [commonSkipLen]⟩
  | n + 1, pos, h => by
    have hb := bitFromTop_eq_iff (a := a) (b := b) (p := pos) (by omega) hW
    unfold commonSkipLen
    split_ifs with hne
    · refine ⟨by omega, agreeOn_empty a b (by omega), fun _ he => hne (hb.2 ?_)⟩
      simpa using he
    · obtain ⟨h1, h2, h3⟩ := @commonSkipLen_spec a b hW n (pos + 1) (by omega)
      set c := commonSkipLen a b (pos + 1) n
      refine ⟨by omega, fun i hi1 hi2 => ?_, fun hlt => ?_⟩
      · rcases Nat.lt_or_eq_of_le hi1 with hi1 | rfl
        · exact h2 i hi1 (by omega)
        · exact hb.1 (not_not.1 hne)
      · rw [show pos + (c + 1) = pos + 1 + c by omega]; exact h3 (by omega)

theorem commonSkipLen_le (a b : BitVec W) : ∀ pos n, commonSkipLen a b pos n ≤ n
  | _, 0 => le_rfl
  | pos, n + 1 => by
    have := commonSkipLen_le a b (pos + 1) n
    unfold commonSkipLen
    split_ifs <;> omega

theorem commonSkipLen_self (a b : BitVec W) : ∀ pos n,
    commonSkipLen a b pos (commonSkipLen a b pos n) = commonSkipLen a b pos n
  | _, 0 => rfl
  | pos, n + 1 => by
    have ih := commonSkipLen_self a b (pos + 1) n
    rw [show commonSkipLen a b pos (n + 1) = if bitFromTop a pos ≠ bitFromTop b pos then 0
      else commonSkipLen a b (pos + 1) n + 1 from rfl]
    split_ifs with h
    · rfl
    · rw [commonSkipLen, if_neg h, ih]

theorem commonSkipLen_eq_iff {a b : BitVec W} (hW : W ≤ 128) {n pos : ℕ} (h : pos + n ≤ W) :
    commonSkipLen a b pos n = n ↔ AgreeOn a b pos (pos + n) := by
  obtain ⟨h1, h2, h3⟩ := commonSkipLen_spec (a := a) (b := b) hW h
  constructor
  · intro he; rwa [he] at h2
  · intro hag
    by_contra hne
    exact h3 (by omega) (hag _ (by omega) (by omega))

end

section
variable (P : LpcParams)

theorem FANOUT_eq (h : 0 < P.FANOUT) : P.FANOUT = 2 ^ P.S := by
  have hS := P.hS
  unfold LpcParams.FANOUT at h ⊢
  obtain ⟨h1, h8⟩ := hS
  generalize P.S = s at *
  interval_cases s <;> simp_all

theorem testBit_SMASK {j : ℕ} (hj : j < 8) : P.SMASK.toNat.testBit j = decide (j < P.S) := by
  have hW := P.W_ge
  have hS := P.hS
  unfold LpcParams.SMASK
  rw [BitVec.testBit_toNat, BitVec.getLsbD_ofNat, decide_eq_true (show j < P.W by omega),
    Bool.true_and]
  obtain ⟨h1, h8⟩ := hS
  generalize hs : P.S = s at *
  unfold LpcParams.FANOUT
  rw [hs]
  interval_cases s <;> interval_cases j <;> decide

theorem testBit_strideIdx {a : BitVec P.W} {pos j : ℕ} (h : pos + P.S ≤ P.W) :
    (strideIdx P a pos).testBit j = (decide (j < P.S) && bit a (pos + P.S - 1 - j)) := by
  have hS := P.hS
  have hW := P.W_le
  have hs : (65536 + P.W - pos - P.S) % 65536 = P.W - pos - P.S := by omega
  simp only [strideIdx, hs]
  rw [show 256 = 2 ^ 8 from rfl, Nat.testBit_mod_two_pow, BitVec.toNat_and, Nat.testBit_and]
  by_cases hj : j < 8
  · rw [testBit_SMASK P hj]
    by_cases hjS : j < P.S
    · simp only [hj, hjS, decide_true, Bool.and_true, Bool.true_and, bit_bitVec, BitVec.getMsbD,
        BitVec.testBit_toNat, BitVec.getLsbD_ushiftRight]
      rw [show P.W - 1 - (pos + P.S - 1 - j) = P.W - pos - P.S + j by omega]
      rw [decide_eq_true (show pos + P.S - 1 - j < P.W by omega), Bool.true_and]
    · simp [hjS]
  · simp [hj, show ¬ j < P.S by omega]

theorem strideIdx_eq_iff {a b : BitVec P.W} {pos : ℕ} (h : pos + P.S ≤ P.W) :
    strideIdx P a pos = strideIdx P b pos ↔ AgreeOn a b pos (pos + P.S) := by
  constructor
  · intro he i h1 h2
    have := congrArg (fun x => Nat.testBit x (pos + P.S - 1 - i)) he
    simp only [testBit_strideIdx P h, decide_eq_true (show pos + P.S - 1 - i < P.S by omega),
      Bool.true_and, show pos + P.S - 1 - (pos + P.S - 1 - i) = i by omega] at this
    exact this
  · intro hag
    apply Nat.eq_of_testBit_eq
    intro j
    rw [testBit_strideIdx P h, testBit_strideIdx P h]
    by_cases hj : j < P.S
    · rw [hag _ (by omega) (by omega)]
    · simp [hj]

theorem strideIdx_lt {a : BitVec P.W} {pos : ℕ} (h : pos + P.S ≤ P.W) :
    strideIdx P a pos < 2 ^ P.S := by
  apply Nat.lt_pow_two_of_testBit
  intro j hj
  simp [testBit_strideIdx P h, show ¬ j < P.S by omega]

end

end LpcTrie

end VirtualRouter
