/-
  The byte arithmetic of the Patricia trie, bit by bit: `bitAt` and `applyMask`
  make byte arrays an instance of fixed-width addresses, over which
  `prefixCovers` and `diffbit` get their meaning.
-/
import VirtualRouter.Types.RadixTree

namespace VirtualRouter

open PrefixMap

namespace RadixTree

variable {N : ℕ}

/-! ## Bytes -/

theorem byte_bit : ∀ (x : BitVec 8) (j : Fin 8),
    decide (((x >>> (7 - j.val)) &&& 1) ≠ 0) = x.getMsbD j := by decide +kernel

theorem getMsbD_remMask : ∀ r j : Fin 8, (remMask r.val).getMsbD j = decide (j < r) := by decide

theorem remMask_bit (x : BitVec 8) (r j : Fin 8) :
    (x &&& remMask r.val).getMsbD j = (decide (j < r) && x.getMsbD j) := by
  rw [BitVec.getMsbD_and, getMsbD_remMask, Bool.and_comm]

theorem clz_byte : ∀ x : BitVec 8, x ≠ 0 → (x.setWidth 32).clz.toNat - 24 < 8 ∧
    (∀ j : Fin 8, j.val < (x.setWidth 32).clz.toNat - 24 → x.getMsbD j = false) ∧
    x.getMsbD ((x.setWidth 32).clz.toNat - 24) = true := by decide +kernel

theorem byte_ext {x y : BitVec 8} (h : ∀ j < 8, x.getMsbD j = y.getMsbD j) : x = y :=
  BitVec.eq_of_getMsbD_eq h

/-! ## Bits of an address -/

theorem bitAt_byte (a : Bytes N) (i : Fin N) {j : ℕ} (hj : j < 8) :
    bitAt a (i.val * 8 + j) = (a i).getMsbD j := by
  have hlt : i.val * 8 + j < W N := by have := i.isLt; unfold W; omega
  have hi : (i.val * 8 + j) >>> 3 = i.val := by rw [Nat.shiftRight_eq_div_pow]; omega
  have hm : (i.val * 8 + j) % 8 = j := by omega
  simp only [bitAt, dif_pos hlt, hi, hm]
  exact byte_bit (a i) ⟨j, hj⟩

theorem bitAt_out (a : Bytes N) {i : ℕ} (h : W N ≤ i) : bitAt a i = false := by
  unfold bitAt; rw [dif_neg (by omega)]

theorem exists_byte {i : ℕ} (h : i < W N) : ∃ (b : Fin N) (j : ℕ), j < 8 ∧ i = b.val * 8 + j :=
  ⟨⟨i / 8, by unfold W at h; omega⟩, i % 8, by omega, by simp only; omega⟩

theorem bitAt_applyMask (a : Bytes N) (n i : ℕ) :
    bitAt (applyMask a n) i = (decide (i < n) && bitAt a i) := by
  by_cases hi : i < W N
  · obtain ⟨b, j, hj, rfl⟩ := exists_byte hi
    rw [bitAt_byte _ _ hj, bitAt_byte _ _ hj]
    unfold applyMask
    split_ifs with hW
    · have : b.val * 8 + j < n := by omega
      simp [this]
    · rw [Nat.shiftRight_eq_div_pow]
      simp only
      split_ifs with hfull hrem
      · have : b.val * 8 + j < n := by omega
        simp [this]
      · have hr := remMask_bit (a b) ⟨n % 8, by omega⟩ ⟨j, hj⟩
        simp only [Fin.mk_lt_mk] at hr
        rw [hr, show decide (j < n % 8) = decide (b.val * 8 + j < n) from by
          rw [decide_eq_decide]; omega]
      · have : ¬ b.val * 8 + j < n := by omega
        simp [this]
  · rw [bitAt_out _ (not_lt.1 hi), bitAt_out _ (not_lt.1 hi), Bool.and_false]

instance : Address (Bytes N) where
  width := W N
  bit := bitAt
  mask := applyMask
  bit_mask := bitAt_applyMask
  bit_out a _ h := bitAt_out a h
  ext_bits a b h := by
    funext i
    refine byte_ext fun j hj => ?_
    rw [← bitAt_byte a i hj, ← bitAt_byte b i hj]
    exact h _

theorem bit_bytes (a : Bytes N) (i : ℕ) : bit a i = bitAt a i := rfl

theorem prefixCovers_iff {a p : Bytes N} {len : ℕ} (hp : mask p len = p) (hlen : len ≤ W N) :
    prefixCovers a p len = true ↔ AgreeOn a p 0 len := by
  unfold prefixCovers
  split_ifs with h0
  · subst h0
    exact iff_of_true rfl (agreeOn_empty _ _ le_rfl)
  rw [List.all_eq_true]
  simp only [Nat.shiftRight_eq_div_pow]
  constructor
  · intro h i _ hi
    obtain ⟨b, j, hj, rfl⟩ := exists_byte (N := N) (hi.trans_le hlen)
    have hb := h b (List.mem_finRange b)
    rw [bit_bytes, bit_bytes, bitAt_byte _ _ hj, bitAt_byte _ _ hj]
    split_ifs at hb with hfull hrem
    · rw [of_decide_eq_true hb]
    · rw [← of_decide_eq_true hb]
      have hr := remMask_bit (a b) ⟨len % 8, by omega⟩ ⟨j, hj⟩
      simp only [Fin.mk_lt_mk] at hr
      rw [hr, decide_eq_true (show j < len % 8 by omega), Bool.true_and]
    · omega
  · intro h b _
    have hbits : ∀ {j : ℕ}, j < 8 → b.val * 8 + j < len → (a b).getMsbD j = (p b).getMsbD j := by
      intro j hj hlt
      rw [← bitAt_byte a b hj, ← bitAt_byte p b hj]
      exact h _ (Nat.zero_le _) hlt
    split_ifs with hfull hrem
    · exact decide_eq_true (byte_ext fun j hj => hbits hj (by omega))
    · refine decide_eq_true (byte_ext fun j hj => ?_)
      have hr := remMask_bit (a b) ⟨len % 8, by omega⟩ ⟨j, hj⟩
      simp only [Fin.mk_lt_mk] at hr
      rw [hr]
      by_cases hlt : j < len % 8
      · rw [decide_eq_true hlt, Bool.true_and]; exact hbits hj (by omega)
      · have hout : bit p (b.val * 8 + j) = false := by
          rw [← hp, bit_mask]; simp [show ¬ b.val * 8 + j < len by omega]
        rw [decide_eq_false hlt, Bool.false_and, ← bitAt_byte p b hj]; exact hout.symm
    · rfl

theorem diffbit_spec (a b : Bytes N) : diffbit a b ≤ W N ∧ AgreeOn a b 0 (diffbit a b) ∧
    (diffbit a b < W N → bit a (diffbit a b) ≠ bit b (diffbit a b)) := by
  unfold diffbit
  cases hf : (List.finRange N).find? fun i => a i ^^^ b i ≠ 0 with
  | none =>
    rw [List.find?_eq_none] at hf
    refine ⟨le_rfl, fun i _ hi => ?_, fun h => absurd h (lt_irrefl _)⟩
    obtain ⟨c, j, hj, rfl⟩ := exists_byte hi
    have hc := hf c (List.mem_finRange c)
    rw [decide_eq_true_iff, not_not] at hc
    rw [bit_bytes, bit_bytes, bitAt_byte _ _ hj, bitAt_byte _ _ hj, BitVec.xor_eq_zero_iff.1 hc]
  | some c =>
    have hx : a c ^^^ b c ≠ 0 := by simpa using List.find?_some hf
    obtain ⟨h8, hbefore, hat⟩ := clz_byte _ hx
    simp only
    set pos := ((a c ^^^ b c).setWidth 32).clz.toNat - 24
    refine ⟨by have := c.isLt; unfold W; omega, fun i _ hi => ?_, fun _ => ?_⟩
    · obtain ⟨e, j, hj, rfl⟩ := exists_byte (N := N) (i := i) (by have := c.isLt; unfold W; omega)
      rw [bit_bytes, bit_bytes, bitAt_byte _ _ hj, bitAt_byte _ _ hj]
      by_cases he : e = c
      · subst he
        have hxor := hbefore ⟨j, hj⟩ (by simp only; omega)
        simpa [BitVec.getMsbD_xor] using hxor
      · -- an earlier byte was passed over by the search
        have hlt : e < c := lt_of_le_of_ne (Fin.le_def.2 (by omega)) he
        have hskip : ¬ a e ^^^ b e ≠ 0 := by
          have := (List.find?_eq_some_iff_getElem.1 hf).2
          obtain ⟨k, hk, hkc, hall⟩ := this
          have hck : c.val = k := by rw [← hkc]; simp
          have := hall e.val (by omega)
          simpa using this
        rw [BitVec.xor_eq_zero_iff.1 (not_not.1 hskip)]
    · rw [bit_bytes, bit_bytes, bitAt_byte _ _ h8, bitAt_byte _ _ h8]
      rw [BitVec.getMsbD_xor] at hat
      simpa using hat

end RadixTree

end VirtualRouter
