/-
  Prefixes of addresses (`types/IPAddress.h`, `types/IPAddress.cpp`).

  An IPv4 address or prefix in 128 bits stands behind `0xFFFF`, and with these
  high bits it is one of IPv4.  A shift by a negative count or by the width is
  undefined; a test that makes one has no value.

  `contains` compares the addresses on the length of the prefix that it is asked
  of and does not look at the length of the other.

  * `addresses`: the addresses that a prefix covers, for each class;
  * `contains_laws_iff`: containment is inclusion iff no prefix contains, by this
    test, a shorter one.
-/
import VirtualRouter.Lib.PrefixMap

namespace VirtualRouter.Types

open PrefixMap

/-! ## Masks -/

/-- `v << n`. -/
def shl {w : ℕ} (v : BitVec w) (n : ℤ) : Option (BitVec w) :=
  if 0 ≤ n ∧ n < w then some (v <<< n.toNat) else none

/-- `-1 << (w - len)`. -/
def highBits (w : ℕ) (len : UInt8) : Option (BitVec w) :=
  shl (BitVec.allOnes w) ((w : ℤ) - len.toNat)

def v4Mask (len : UInt8) : Option (BitVec 32) := if len = 0 then some 0 else highBits 32 len

def v6Mask (len : UInt8) : Option (BitVec 128) := if len = 0 then some 0 else highBits 128 len

section Masks
variable {w : ℕ} {len : UInt8}

theorem highBits_of_le (h0 : len ≠ 0) (h : len.toNat ≤ w) :
    highBits w len = some (BitVec.allOnes w <<< (w - len.toNat)) := by
  have hpos : len.toNat ≠ 0 := fun h => h0 (UInt8.toNat_inj.1 h)
  have hn : ((w : ℤ) - len.toNat).toNat = w - len.toNat := by omega
  rw [highBits, shl, if_pos (by omega), hn]

theorem highBits_of_lt (h : w < len.toNat) : highBits w len = none := by
  rw [highBits, shl, if_neg (by omega)]

theorem masked_eq_some {m : BitVec w} (h : (if len = 0 then some 0 else highBits w len) = some m)
    (a : BitVec w) : a &&& m = mask a len.toNat := by
  split_ifs at h with h0
  · obtain rfl := Option.some.inj h
    rw [h0]
    refine Address.ext_bits _ _ fun i => ?_
    simp [bit_bitVec]
  · by_cases hle : len.toNat ≤ w
    · rw [highBits_of_le h0 hle] at h
      obtain rfl := Option.some.inj h
      rfl
    · rw [highBits_of_lt (not_le.1 hle)] at h
      cases h

theorem masked_ne_none : (if len = 0 then some 0 else highBits w len) ≠ none ↔ len.toNat ≤ w := by
  split_ifs with h0
  · simp [h0]
  · by_cases hle : len.toNat ≤ w
    · simp [highBits_of_le h0 hle, hle]
    · simp [highBits_of_lt (not_le.1 hle), hle]

end Masks

/-! ## The classes -/

structure IPv4Prefix where
  addr : BitVec 32 := 0
  prefixLength : UInt8 := 0
  deriving DecidableEq, Repr

structure IPv6Prefix where
  addr : BitVec 128 := 0
  prefixLength : UInt8 := 0
  deriving DecidableEq, Repr

structure IPPrefix where
  addr : BitVec 128 := 0
  prefixLength : UInt8 := 0
  deriving DecidableEq, Repr

/-- `isIPv4`, of an address or a prefix. -/
def isIPv4 (addr : BitVec 128) : Bool := addr >>> 32 = 0xFFFF

/-- `setV4`: the address stands behind `0xFFFF`. -/
def ofV4 (v4 : BitVec 32) : BitVec 128 := v4.setWidth 128 ||| ((0xFFFF : BitVec 128) <<< 32)

/-- `v4`: the low 32 bits. -/
def v4 (addr : BitVec 128) : BitVec 32 := addr.setWidth 32

def IPv4Prefix.contains (p other : IPv4Prefix) : Option Bool :=
  (v4Mask p.prefixLength).map fun mask => other.addr &&& mask = p.addr &&& mask

/-- `IPv6Prefix::contains`, which does not use `v6Mask`. -/
def IPv6Prefix.contains (p other : IPv6Prefix) : Option Bool :=
  if p.prefixLength = 0 then some true
  else
    (if p.prefixLength = 128 then some (BitVec.allOnes 128) else highBits 128 p.prefixLength).map
      fun mask => p.addr &&& mask = other.addr &&& mask

def IPPrefix.contains (p other : IPPrefix) : Option Bool :=
  if isIPv4 p.addr != isIPv4 other.addr then some false
  else if isIPv4 p.addr then
    (v4Mask p.prefixLength).map fun mask => v4 other.addr &&& mask = v4 p.addr &&& mask
  else (v6Mask p.prefixLength).map fun mask => other.addr &&& mask = p.addr &&& mask

/-! ## What a prefix covers -/

/-- The addresses have the first `n` bits in common. -/
def Agree {w : ℕ} (n : ℕ) (a b : BitVec w) : Prop := AgreeOn a b 0 n

def FamilyAgree (n : ℕ) (a b : BitVec 128) : Prop :=
  isIPv4 a = isIPv4 b ∧ if isIPv4 a then Agree n (v4 a) (v4 b) else Agree n a b

theorem nested_agree (w : ℕ) : Nested (Agree (w := w)) := nested_agreeOn

theorem nested_familyAgree : Nested FamilyAgree where
  refl n x := ⟨rfl, by split_ifs <;> exact (nested_agree _).refl n _⟩
  symm := by
    rintro n x y ⟨hf, h⟩
    refine ⟨hf.symm, ?_⟩
    rw [← hf]
    split_ifs at h ⊢ <;> exact (nested_agree _).symm h
  trans := by
    rintro n x y z ⟨hf, h⟩ ⟨hf', h'⟩
    refine ⟨hf.trans hf', ?_⟩
    rw [← hf] at h'
    split_ifs at h h' ⊢ <;> exact (nested_agree _).trans h h'
  mono := by
    rintro n m x y hle ⟨hf, h⟩
    refine ⟨hf, ?_⟩
    split_ifs at h ⊢ <;> exact (nested_agree _).mono hle h

namespace IPv4Prefix

def addresses (p : IPv4Prefix) : Set (BitVec 32) := covered Agree p.addr p.prefixLength.toNat

/-- The masked address and the length. -/
def network (p : IPv4Prefix) : BitVec 32 × ℕ :=
  (mask p.addr p.prefixLength.toNat, p.prefixLength.toNat)

end IPv4Prefix

namespace IPv6Prefix

def addresses (p : IPv6Prefix) : Set (BitVec 128) := covered Agree p.addr p.prefixLength.toNat

def network (p : IPv6Prefix) : BitVec 128 × ℕ :=
  (mask p.addr p.prefixLength.toNat, p.prefixLength.toNat)

end IPv6Prefix

namespace IPPrefix

def addresses (p : IPPrefix) : Set (BitVec 128) := covered FamilyAgree p.addr p.prefixLength.toNat

def width (p : IPPrefix) : ℕ := if isIPv4 p.addr then 32 else 128

/-- The masked address in its family, and the length. -/
def network (p : IPPrefix) : (Bool × BitVec 128) × ℕ :=
  ((isIPv4 p.addr,
    if isIPv4 p.addr then (mask (v4 p.addr) p.prefixLength.toNat).setWidth 128
      else mask p.addr p.prefixLength.toNat), p.prefixLength.toNat)

end IPPrefix

/-! ## The tests -/

theorem masked_test {w : ℕ} {len : UInt8} {m : BitVec w} {a b : BitVec w}
    (h : (if len = 0 then some 0 else highBits w len) = some m) :
    b &&& m = a &&& m ↔ Agree len.toNat a b := by
  rw [masked_eq_some h, masked_eq_some h, mask_eq_mask]
  exact ⟨fun h => h.symm, fun h => h.symm⟩

theorem setWidth_inj {a b : BitVec 32} : a.setWidth 128 = b.setWidth 128 ↔ a = b := by
  refine ⟨fun h => ?_, congrArg _⟩
  simpa using congrArg (BitVec.setWidth 32) h

theorem network_iff {w : ℕ} {a b : BitVec w} {n m : ℕ} :
    (mask a n, n) = (mask b m, m) ↔ n = m ∧ Agree n a b := by
  rw [Prod.mk.injEq]
  constructor
  · rintro ⟨h, rfl⟩
    exact ⟨rfl, mask_eq_mask.1 h⟩
  · rintro ⟨rfl, h⟩
    exact ⟨mask_eq_mask.2 h, rfl⟩

namespace IPv4Prefix
variable (p q : IPv4Prefix)

theorem contains_eq_some {b : Bool} (h : p.contains q = some b) :
    b = true ↔ Agree p.prefixLength.toNat p.addr q.addr := by
  obtain ⟨m, hm, rfl⟩ := Option.map_eq_some_iff.1 h
  rw [decide_eq_true_iff]
  exact masked_test hm

theorem contains_ne_none : p.contains q ≠ none ↔ p.prefixLength.toNat ≤ 32 := by
  rw [contains, Ne, Option.map_eq_none_iff]
  exact masked_ne_none

end IPv4Prefix

namespace IPv6Prefix
variable (p q : IPv6Prefix)

theorem contains_eq : p.contains q =
    (v6Mask p.prefixLength).map fun mask => decide (q.addr &&& mask = p.addr &&& mask) := by
  have hsymm (m : BitVec 128) : (p.addr &&& m = q.addr &&& m) = (q.addr &&& m = p.addr &&& m) :=
    propext eq_comm
  unfold contains v6Mask
  by_cases h0 : p.prefixLength = 0
  · simp [h0]
  · by_cases h128 : p.prefixLength = 128
    · have hbits : highBits 128 128 = some (BitVec.allOnes 128) := by decide
      simp [h128, hbits, hsymm]
    · simp [h0, h128, hsymm]

theorem contains_eq_some {b : Bool} (h : p.contains q = some b) :
    b = true ↔ Agree p.prefixLength.toNat p.addr q.addr := by
  rw [contains_eq] at h
  obtain ⟨m, hm, rfl⟩ := Option.map_eq_some_iff.1 h
  rw [decide_eq_true_iff]
  exact masked_test hm

theorem contains_ne_none : p.contains q ≠ none ↔ p.prefixLength.toNat ≤ 128 := by
  rw [contains_eq, Ne, Option.map_eq_none_iff]
  exact masked_ne_none

end IPv6Prefix

namespace IPPrefix
variable (p q : IPPrefix)

theorem contains_eq_some {b : Bool} (h : p.contains q = some b) :
    b = true ↔ FamilyAgree p.prefixLength.toNat p.addr q.addr := by
  unfold contains at h
  unfold FamilyAgree
  by_cases hf : isIPv4 p.addr = isIPv4 q.addr
  · rw [if_neg (by simp [hf])] at h
    split_ifs at h ⊢ with h4
    · obtain ⟨m, hm, rfl⟩ := Option.map_eq_some_iff.1 h
      rw [decide_eq_true_iff, masked_test hm]
      exact (and_iff_right hf).symm
    · obtain ⟨m, hm, rfl⟩ := Option.map_eq_some_iff.1 h
      rw [decide_eq_true_iff, masked_test hm]
      exact (and_iff_right hf).symm
  · rw [if_pos (by simpa using hf)] at h
    obtain rfl := Option.some.inj h
    simp [hf]

theorem contains_ne_none_of (h : isIPv4 p.addr = isIPv4 q.addr) :
    p.contains q ≠ none ↔ p.prefixLength.toNat ≤ p.width := by
  unfold contains width
  rw [if_neg (by simp [h])]
  split_ifs with h4
  · rw [Ne, Option.map_eq_none_iff]
    exact masked_ne_none
  · rw [Ne, Option.map_eq_none_iff]
    exact masked_ne_none

theorem contains_ne_none (h : p.prefixLength.toNat ≤ p.width) : p.contains q ≠ none := by
  by_cases hf : isIPv4 p.addr = isIPv4 q.addr
  · exact (p.contains_ne_none_of q hf).2 h
  · unfold contains
    rw [if_pos (by simpa using hf)]
    simp

theorem network_eq_iff : p.network = q.network ↔
    p.prefixLength.toNat = q.prefixLength.toNat ∧
      FamilyAgree p.prefixLength.toNat p.addr q.addr := by
  unfold network FamilyAgree
  simp only [Prod.mk.injEq]
  by_cases hf : isIPv4 p.addr = isIPv4 q.addr
  · by_cases hn : p.prefixLength.toNat = q.prefixLength.toNat
    · rw [← hf, ← hn]
      simp only [and_true, true_and]
      split_ifs with h4
      · rw [setWidth_inj]
        exact mask_eq_mask
      · exact mask_eq_mask
    · simp [hn]
  · simp [hf]

end IPPrefix

/-! ## Containment -/

/-- The test of each prefix is defined, and a prefix that passes it is not shorter. -/
structure NoShorter {P X : Type} (within : ℕ → X → X → Prop) (addr : P → X) (len width : P → ℕ)
    (S : Set P) : Prop where
  len_le : ∀ p ∈ S, len p ≤ width p
  longer : ∀ p ∈ S, ∀ q ∈ S, len p ≤ len q ∨ ¬ within (len p) (addr p) (addr q)

theorem noShorter_iff {P X : Type} {within : ℕ → X → X → Prop} {addr : P → X} {len width : P → ℕ}
    {S : Set P} {contains : P → P → Option Bool}
    (hself : ∀ p, contains p p ≠ none ↔ len p ≤ width p)
    (hdefined : ∀ p q, len p ≤ width p → contains p q ≠ none) :
    (∀ p ∈ S, ∀ q ∈ S, contains p q ≠ none ∧ (len p ≤ len q ∨ ¬ within (len p) (addr p) (addr q))) ↔
      NoShorter within addr len width S := by
  constructor
  · intro h
    exact ⟨fun p hp => (hself p).1 (h p hp p hp).1, fun p hp q hq => (h p hp q hq).2⟩
  · intro h p hp q hq
    exact ⟨hdefined p q (h.len_le p hp), h.longer p hp q hq⟩

/-- **Containment is inclusion iff a prefix that passes the test is not shorter**, in each class. -/
theorem contains_laws_iff (S : Set IPPrefix) (S₄ : Set IPv4Prefix) (S₆ : Set IPv6Prefix) :
    (InclusionLaws IPPrefix.contains IPPrefix.addresses IPPrefix.network S ↔
      NoShorter FamilyAgree IPPrefix.addr (fun p => p.prefixLength.toNat) IPPrefix.width S) ∧
    (InclusionLaws IPv4Prefix.contains IPv4Prefix.addresses IPv4Prefix.network S₄ ↔
      NoShorter Agree IPv4Prefix.addr (fun p => p.prefixLength.toNat) (fun _ => 32) S₄) ∧
    (InclusionLaws IPv6Prefix.contains IPv6Prefix.addresses IPv6Prefix.network S₆ ↔
      NoShorter Agree IPv6Prefix.addr (fun p => p.prefixLength.toNat) (fun _ => 128) S₆) := by
  refine ⟨?_, ?_, ?_⟩
  · rw [← noShorter_iff (fun p => p.contains_ne_none_of p rfl) IPPrefix.contains_ne_none]
    exact inclusionLaws_iff nested_familyAgree (fun p q _ => p.contains_eq_some q)
      IPPrefix.network_eq_iff
  · rw [← noShorter_iff (fun p => p.contains_ne_none p) fun p q => (p.contains_ne_none q).2]
    exact inclusionLaws_iff (nested_agree 32) (fun p q _ => p.contains_eq_some q)
      fun _ _ => network_iff
  · rw [← noShorter_iff (fun p => p.contains_ne_none p) fun p q => (p.contains_ne_none q).2]
    exact inclusionLaws_iff (nested_agree 128) (fun p q _ => p.contains_eq_some q)
      fun _ _ => network_iff

/-- 10.0.0.0/16 contains 10.0.0.0/8, and is contained in it. -/
theorem not_contains_laws :
    ¬ InclusionLaws IPv4Prefix.contains IPv4Prefix.addresses IPv4Prefix.network
      {⟨0x0A000000, 16⟩, ⟨0x0A000000, 8⟩} := by
  intro h
  have heq := h.antisymm ⟨0x0A000000, 16⟩ (by simp) ⟨0x0A000000, 8⟩ (by simp) (by decide) (by decide)
  have hlen : (16 : ℕ) = 8 := congrArg Prod.snd heq
  omega

end VirtualRouter.Types
