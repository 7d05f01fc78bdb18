/-
  Prefix maps and longest-prefix match, over any type of fixed-width addresses.

  An address is a bit string read from its most significant bit (`bit a 0`).
  A prefix is an address with a length; it is kept with the bits beyond its
  length cleared (`mask`).  A prefix map sends prefixes to values, and `lpm m a`
  is the value of the longest prefix of `a` in the map `m`.

  A containment test that compares two addresses on the length of the first
  prefix decides inclusion iff no shorter prefix passes it (`inclusionLaws_iff`).
-/
import Mathlib

namespace PrefixMap

/-- Fixed-width addresses, seen as bit strings. -/
class Address (A : Type*) where
  width : ℕ
  bit : A → ℕ → Bool
  /-- clear the bits from position `n` on -/
  mask : A → ℕ → A
  bit_mask : ∀ a n i, bit (mask a n) i = (decide (i < n) && bit a i)
  bit_out : ∀ a i, width ≤ i → bit a i = false
  ext_bits : ∀ a b, (∀ i, bit a i = bit b i) → a = b

export Address (width bit mask)

variable {A : Type*} [Address A] {α : Type*}

@[simp] theorem bit_mask (a : A) (n i : ℕ) : bit (mask a n) i = (decide (i < n) && bit a i) :=
  Address.bit_mask a n i

/-- `a` and `b` have the same bits in the positions from `lo` up to `hi`. -/
def AgreeOn (a b : A) (lo hi : ℕ) : Prop := ∀ i, lo ≤ i → i < hi → bit a i = bit b i

namespace AgreeOn
variable {a b c : A} {lo hi mid : ℕ}

theorem refl (a : A) (lo hi : ℕ) : AgreeOn a a lo hi := fun _ _ _ => rfl

theorem symm (h : AgreeOn a b lo hi) : AgreeOn b a lo hi := fun i h₁ h₂ => (h i h₁ h₂).symm

theorem trans (h : AgreeOn a b lo hi) (h' : AgreeOn b c lo hi) : AgreeOn a c lo hi :=
  fun i h₁ h₂ => (h i h₁ h₂).trans (h' i h₁ h₂)

theorem mono {lo' hi' : ℕ} (h : AgreeOn a b lo hi) (hlo : lo ≤ lo') (hhi : hi' ≤ hi) :
    AgreeOn a b lo' hi' := fun i h₁ h₂ => h i (hlo.trans h₁) (h₂.trans_le hhi)

theorem append (h : AgreeOn a b lo mid) (h' : AgreeOn a b mid hi) : AgreeOn a b lo hi :=
  fun i h₁ h₂ => if hi : i < mid then h i h₁ hi else h' i (not_lt.1 hi) h₂

end AgreeOn

theorem agreeOn_empty (a b : A) {lo hi : ℕ} (h : hi ≤ lo) : AgreeOn a b lo hi :=
  fun _ h₁ h₂ => absurd h₂ (by omega)

theorem mask_agreeOn (a : A) {n lo hi : ℕ} (h : hi ≤ n) : AgreeOn (mask a n) a lo hi := by
  intro i _ hi'
  simp [show i < n by omega]

theorem mask_eq_mask {a b : A} {n : ℕ} : mask a n = mask b n ↔ AgreeOn a b 0 n := by
  constructor
  · intro h
    exact (mask_agreeOn a le_rfl).symm.trans (h ▸ mask_agreeOn b le_rfl)
  · intro h
    refine Address.ext_bits _ _ fun i => ?_
    by_cases hi : i < n
    · simp [hi, h i (Nat.zero_le _) hi]
    · simp [hi]

theorem mask_mask (a : A) (n m : ℕ) : mask (mask a n) m = mask a (min n m) := by
  refine Address.ext_bits _ _ fun i => ?_
  simp only [bit_mask, lt_min_iff, Bool.decide_and, ← Bool.and_assoc]
  rw [Bool.and_comm (decide (i < m))]

@[simp] theorem mask_mask_self (a : A) (n : ℕ) : mask (mask a n) n = mask a n := by
  rw [mask_mask, min_self]

theorem eq_mask_of_agreeOn {a b : A} {n : ℕ} (hb : mask b n = b) (h : AgreeOn a b 0 n) :
    b = mask a n := by rw [← hb]; exact (mask_eq_mask.2 h).symm

/-! ## Bit vectors as addresses -/

instance (w : ℕ) : Address (BitVec w) where
  width := w
  bit a i := a.getMsbD i
  mask a n := a &&& (BitVec.allOnes w <<< (w - n))
  bit_mask a n i := by
    by_cases hw : i < w
    · by_cases hn : i < n
      · simp [BitVec.getMsbD_shiftLeft, show i + (w - n) < w by omega, hn]
      · simp [BitVec.getMsbD_shiftLeft, show ¬ i + (w - n) < w by omega, hn]
    · simp [BitVec.getMsbD_of_ge _ _ (not_lt.1 hw)]
  bit_out a i h := BitVec.getMsbD_of_ge a i h
  ext_bits a b h := BitVec.eq_of_getMsbD_eq fun i _ => h i

theorem bit_bitVec {w : ℕ} (a : BitVec w) (i : ℕ) : bit a i = a.getMsbD i := rfl

/-! ## Prefixes as sets -/

/-- Ever finer equivalences on addresses: `within n` relates those that have the first `n` bits in
    common. -/
structure Nested {X : Type*} (within : ℕ → X → X → Prop) : Prop where
  refl : ∀ n x, within n x x
  symm : ∀ {n x y}, within n x y → within n y x
  trans : ∀ {n x y z}, within n x y → within n y z → within n x z
  mono : ∀ {n m x y}, n ≤ m → within m x y → within n x y

theorem nested_agreeOn : Nested fun n (a b : A) => AgreeOn a b 0 n where
  refl n a := .refl a 0 n
  symm h := h.symm
  trans h h' := h.trans h'
  mono h h' := h'.mono le_rfl h

/-- The addresses that the prefix of `x` of length `n` covers. -/
def covered {X : Type*} (within : ℕ → X → X → Prop) (x : X) (n : ℕ) : Set X := {y | within n x y}

/-- The test `contains` on prefixes, undefined where it is `none`, is inclusion of the covered
    addresses; so it is an order, up to the network that a prefix stands for. -/
structure InclusionLaws {P X N : Type*} (contains : P → P → Option Bool) (addresses : P → Set X)
    (network : P → N) (S : Set P) : Prop where
  inclusion : ∀ p ∈ S, ∀ q ∈ S,
    ∃ b, contains p q = some b ∧ (b = true ↔ addresses q ⊆ addresses p)
  refl : ∀ p ∈ S, contains p p = some true
  trans : ∀ p ∈ S, ∀ q ∈ S, ∀ r ∈ S, contains p q = some true → contains q r = some true →
    contains p r = some true
  antisymm : ∀ p ∈ S, ∀ q ∈ S, contains p q = some true → contains q p = some true →
    network p = network q

section Nested
variable {X P N : Type*} {within : ℕ → X → X → Prop} {contains : P → P → Option Bool}
  {addr : P → X} {len : P → ℕ} {network : P → N} {S : Set P}

theorem Nested.mem_self (h : Nested within) (x : X) (n : ℕ) : x ∈ covered within x n := h.refl n x

theorem Nested.covered_subset (h : Nested within) {x y : X} {n m : ℕ} (hle : n ≤ m)
    (hxy : within n x y) : covered within y m ⊆ covered within x n :=
  fun _ hz => h.trans hxy (h.mono hle hz)

/-- **A test that compares the addresses on the length of the first prefix is inclusion iff it is
    defined and no shorter prefix passes it.** -/
theorem inclusionLaws_iff (h : Nested within)
    (hcontains : ∀ p q b, contains p q = some b → (b = true ↔ within (len p) (addr p) (addr q)))
    (hnetwork : ∀ p q, network p = network q ↔ len p = len q ∧ within (len p) (addr p) (addr q)) :
    InclusionLaws contains (fun p => covered within (addr p) (len p)) network S ↔
      ∀ p ∈ S, ∀ q ∈ S, contains p q ≠ none ∧
        (len p ≤ len q ∨ ¬ within (len p) (addr p) (addr q)) := by
  constructor
  · intro hlaws p hp q hq
    obtain ⟨b, hb, -⟩ := hlaws.inclusion p hp q hq
    refine ⟨by rw [hb]; simp, ?_⟩
    by_contra! hshort
    obtain ⟨hlt, hwithin⟩ := hshort
    -- a shorter prefix that passes contains the longer one as well
    obtain ⟨b', hb', -⟩ := hlaws.inclusion q hq p hp
    have hpq : b = true := (hcontains p q b hb).2 hwithin
    have hqp : b' = true := (hcontains q p b' hb').2 (h.symm (h.mono hlt.le hwithin))
    subst hpq hqp
    have hlen := ((hnetwork p q).1 (hlaws.antisymm p hp q hq hb hb')).1
    omega
  · intro hcond
    have hiff : ∀ p ∈ S, ∀ q ∈ S, contains p q = some true ↔ within (len p) (addr p) (addr q) := by
      intro p hp q hq
      obtain ⟨b, hb⟩ := Option.ne_none_iff_exists'.1 (hcond p hp q hq).1
      rw [hb, Option.some.injEq]
      exact hcontains p q b hb
    have hlen : ∀ p ∈ S, ∀ q ∈ S, within (len p) (addr p) (addr q) → len p ≤ len q :=
      fun p hp q hq hw => (hcond p hp q hq).2.resolve_right (not_not.2 hw)
    refine ⟨fun p hp q hq => ?_, fun p hp => ?_, fun p hp q hq r hr hpq hqr => ?_,
      fun p hp q hq hpq hqp => ?_⟩
    · obtain ⟨b, hb⟩ := Option.ne_none_iff_exists'.1 (hcond p hp q hq).1
      refine ⟨b, hb, (hcontains p q b hb).trans ⟨fun hw => ?_, fun hsub => ?_⟩⟩
      · exact h.covered_subset (hlen p hp q hq hw) hw
      · exact hsub (h.mem_self (addr q) (len q))
    · exact (hiff p hp p hp).2 (h.refl _ _)
    · have hw := (hiff p hp q hq).1 hpq
      have hw' := h.mono (hlen p hp q hq hw) ((hiff q hq r hr).1 hqr)
      exact (hiff p hp r hr).2 (h.trans hw hw')
    · have hw := (hiff p hp q hq).1 hpq
      have hw' := (hiff q hq p hp).1 hqp
      exact (hnetwork p q).2 ⟨le_antisymm (hlen p hp q hq hw) (hlen q hq p hp hw'), hw⟩

end Nested

/-! ## Prefix maps -/

/-- A partial map keyed by prefixes (address, length). -/
abbrev PMap (A α : Type*) := A × ℕ → Option α

def longest (f : ℕ → Option α) : ℕ → Option α
  | 0 => f 0
  | n + 1 => (f (n + 1)).or (longest f n)

theorem longest_eq_some {f : ℕ → Option α} {v : α} : ∀ {n : ℕ}, longest f n = some v ↔
    ∃ l ≤ n, f l = some v ∧ ∀ l', l < l' → l' ≤ n → f l' = none
  | 0 => by
    simp only [longest, Nat.le_zero, exists_eq_left]
    exact ⟨fun h => ⟨h, fun l' h₁ h₂ => by omega⟩, fun h => h.1⟩
  | n + 1 => by
    simp only [longest, Option.or_eq_some_iff, longest_eq_some (n := n)]
    constructor
    · rintro (h | ⟨h, l, hl, hv, hmax⟩)
      · exact ⟨n + 1, le_rfl, h, fun l' h₁ h₂ => by omega⟩
      · refine ⟨l, by omega, hv, fun l' h₁ h₂ => ?_⟩
        rcases Nat.lt_or_eq_of_le h₂ with h₂ | rfl
        · exact hmax l' h₁ (by omega)
        · exact h
    · rintro ⟨l, hl, hv, hmax⟩
      rcases Nat.lt_or_eq_of_le hl with hl | rfl
      · exact Or.inr ⟨hmax _ hl le_rfl, l, by omega, hv, fun l' h₁ h₂ => hmax l' h₁ (by omega)⟩
      · exact Or.inl hv

theorem longest_eq_none {f : ℕ → Option α} : ∀ {n : ℕ}, longest f n = none ↔ ∀ l ≤ n, f l = none
  | 0 => by simp [longest]
  | n + 1 => by
    simp only [longest, Option.or_eq_none_iff, longest_eq_none (n := n)]
    constructor
    · rintro ⟨h, h'⟩ l hl
      rcases Nat.lt_or_eq_of_le hl with hl | rfl
      · exact h' l (by omega)
      · exact h
    · exact fun h => ⟨h _ le_rfl, fun l hl => h l (by omega)⟩

theorem longest_congr {f g : ℕ → Option α} : ∀ {n : ℕ}, (∀ l ≤ n, f l = g l) → longest f n = longest g n
  | 0, h => h 0 le_rfl
  | n + 1, h => by
    rw [longest, longest, h _ le_rfl, longest_congr fun l hl => h l (by omega)]

/-- The walk past position `e`: what is defined above `e` is given by `g`, and
    nothing is defined below `e`. -/
theorem longest_eq_or {f g : ℕ → Option α} {e n : ℕ} (he : e ≤ n) (hlow : ∀ l < e, f l = none)
    (hhigh : ∀ l, e < l → l ≤ n → f l = g l) (hg : ∀ l ≤ e, g l = none) :
    longest f n = (longest g n).or (f e) := by
  induction n, he using Nat.le_induction with
  | base =>
    have hf : longest f e = f e := by
      cases e with
      | zero => rfl
      | succ e =>
        rw [longest, longest_eq_none.2 fun l hl => hlow l (Nat.lt_succ_of_le hl), Option.or_none]
    rw [hf, longest_eq_none.2 hg, Option.none_or]
  | succ n hn ih =>
    rw [longest, longest, ih fun l h₁ h₂ => hhigh l h₁ (by omega), hhigh (n + 1) (by omega) le_rfl,
      Option.or_assoc]

/-- **Longest-prefix match**: the value of the longest prefix of `a` in `m`. -/
def lpm (m : PMap A α) (a : A) : Option α := longest (fun l => m (mask a l, l)) (width A)

end PrefixMap
