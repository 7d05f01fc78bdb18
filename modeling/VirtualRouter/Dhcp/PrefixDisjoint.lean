/-
  Runs of the DHCPv6 prefix pool: when the delegated prefixes are disjoint.

  A generated prefix that passes `withinRange` is the base itself, and a prefix
  that is built from a key has length 0 and so covers every address (`Kinds`);
  whether a prefix is taken is tested by its address and its length.  So the
  base may be put out only when nothing is out, and a requested or activated
  prefix only under a base of length 0, alone, and with nothing barred.

  * `IPv6Prefix.Covers`, `Inside`, `Overlaps`: prefixes as ranges of addresses;
  * `Disjoint`: the delegated prefixes are inside the base and apart;
  * `Sound`: the steps that keep the prefixes disjoint;
  * `Quiet`, `PutsOut`: what a step does to the sets;
  * `disjoint_iff`: every state of a run is disjoint iff its steps are sound.
-/
import VirtualRouter.Dhcp.PrefixPool
import VirtualRouter.Lib.Run

namespace VirtualRouter.Dhcp

open NestedMap Locked Run
open VirtualRouter.Core

/-! ## Prefixes as ranges -/

namespace IPv6Prefix

variable {x y : IPv6Prefix}

def hostBits (x : IPv6Prefix) : ℕ := 128 - x.prefixLength.toNat

/-- The prefix covers the address: the bits up to its length agree. -/
def Covers (x : IPv6Prefix) (a : BitVec 128) : Prop := a >>> x.hostBits = x.addr >>> x.hostBits

def Inside (x y : IPv6Prefix) : Prop := ∀ a, x.Covers a → y.Covers a

def Overlaps (x y : IPv6Prefix) : Prop := ∃ a, x.Covers a ∧ y.Covers a

theorem covers_addr (x : IPv6Prefix) : x.Covers x.addr := rfl

theorem Overlaps.symm (h : x.Overlaps y) : y.Overlaps x := by
  obtain ⟨a, hx, hy⟩ := h
  exact ⟨a, hy, hx⟩

theorem covers_of_whole (hx : x.prefixLength = 0) (a : BitVec 128) : x.Covers a := by
  have hbits : x.hostBits = 128 := by simp [hostBits, hx]
  rw [Covers, hbits, BitVec.ushiftRight_eq_zero le_rfl, BitVec.ushiftRight_eq_zero le_rfl]

theorem overlaps_of_whole (hx : x.prefixLength = 0) : x.Overlaps y :=
  ⟨y.addr, covers_of_whole hx y.addr, y.covers_addr⟩

theorem inside_iff_of_whole (hx : x.prefixLength = 0) : x.Inside y ↔ y.prefixLength = 0 := by
  constructor
  · intro h
    have hends : 0#128 >>> y.hostBits = BitVec.allOnes 128 >>> y.hostBits :=
      (h _ (covers_of_whole hx _)).trans (h _ (covers_of_whole hx _)).symm
    by_contra hne
    have hpos : y.prefixLength.toNat ≠ 0 := fun h0 => hne (UInt8.toNat_inj.1 h0)
    have hbits : y.hostBits ≤ 127 := by
      rw [hostBits]
      omega
    have hone : 2 ^ y.hostBits ≤ 2 ^ 128 - 1 :=
      (Nat.pow_le_pow_right (by norm_num) hbits).trans (by norm_num)
    have hzero := congrArg BitVec.toNat hends
    rw [BitVec.zero_ushiftRight, BitVec.toNat_ushiftRight, BitVec.toNat_allOnes,
      Nat.shiftRight_eq_div_pow] at hzero
    exact (Nat.div_pos hone (Nat.two_pow_pos _)).ne hzero
  · intro hy a _
    exact covers_of_whole hy a

end IPv6Prefix

namespace PrefixPool

/-! ## Runs -/

/-- The operations of the pool and the firing of its timers. -/
inductive Op where
  | allocatePrefix (requestedLength : UInt8)
  | allocateAdvertisedPrefix (key : IAKey) (requestedLength : UInt8)
  | allocateRequestedAdvertisedPrefix (key : IAPrefixKey)
  | allocateRequestedPrefix (key : IAPrefixKey)
  | activateAdvertisedPrefix (key : IAPrefixKey)
  | releasePrefix (pfx : IPv6Prefix)
  | expirePrefix (key : IAPrefixKey)
  | setConflicted (key : IAPrefixKey)
  | excludePrefix (pfx : IPv6Prefix)
  | removeExclusion (pfx : IPv6Prefix)
  | adjustPool (newBase : IPv6Prefix) (newDelegationLength : ℕ)
  | setLeaseManager
  | fireTimer (timerId : UInt32)
  deriving DecidableEq

def step (p : PrefixPool) : Op → PrefixPool
  | .allocatePrefix length => (p.allocatePrefix length).value.2
  | .allocateAdvertisedPrefix key length => (p.allocateAdvertisedPrefix key length).value.2
  | .allocateRequestedAdvertisedPrefix key => (p.allocateRequestedAdvertisedPrefix key).value.2
  | .allocateRequestedPrefix key => (p.allocateRequestedPrefix key).value.2
  | .activateAdvertisedPrefix key => (p.activateAdvertisedPrefix key).value.2
  | .releasePrefix pfx => (p.releasePrefix pfx).value
  | .expirePrefix key => (p.expirePrefix key).value
  | .setConflicted key => (p.setConflicted key).value.2
  | .excludePrefix pfx => (p.excludePrefix pfx).value.2
  | .removeExclusion pfx => (p.removeExclusion pfx).value.2
  | .adjustPool newBase length => (p.adjustPool newBase length).value.2
  | .setLeaseManager => p.setLeaseManager
  | .fireTimer id => (p.fireTimer id).value

/-! ## Disjointness -/

def delegated (p : PrefixPool) : Finset IPv6Prefix := p.allocated ∪ p.advertisedPDs

def barred (p : PrefixPool) : Finset IPv6Prefix := p.excluded ∪ p.bad.keys.toFinset

/-- The delegated prefixes lie inside the base, apart from each other and from what is barred. -/
structure Disjoint (p : PrefixPool) : Prop where
  inside : ∀ x ∈ p.delegated, x.Inside p.base
  apart : ∀ x ∈ p.delegated, ∀ y ∈ p.delegated, x ≠ y → ¬ x.Overlaps y
  clear : ∀ x ∈ p.delegated, ∀ y ∈ p.barred, ¬ x.Overlaps y

/-- The base is generated for the hint. -/
def Open (p : PrefixPool) (requestedLength : UInt8) : Prop :=
  p.effectiveLength requestedLength = p.base.prefixLength ∧ (p.isTaken p.base).value = false

/-- The prefix that a request to advertise is given. -/
def offered (p : PrefixPool) (key : IAPrefixKey) : IPv6Prefix :=
  .ofAddress key.address (p.effectiveLength key.prefixLength)

/-- A request to advertise is granted. -/
def Offerable (p : PrefixPool) (key : IAPrefixKey) : Prop :=
  ¬ p.effectiveLength key.prefixLength < p.base.prefixLength ∧
    p.withinRange (p.offered key) = true ∧
      ((p.isAllocated (p.offered key)).or ((p.isExcluded (p.offered key)).or
        (p.isConflicted (p.offered key)))).value = false

def Grantable (p : PrefixPool) (key : IAPrefixKey) : Prop :=
  ¬ p.effectiveLength key.prefixLength < p.base.prefixLength ∧ p.withinRange key.pfx = true ∧
    ((p.isAllocated key.pfx).or ((p.isExcluded key.pfx).or ((p.isConflicted key.pfx).or
      (p.isAdvertised key.pfx)))).value = false

/-- Nothing is delegated or in conflict, and nothing that is excluded meets the base. -/
structure Vacant (p : PrefixPool) : Prop where
  delegated : p.delegated = ∅
  bad : p.bad.keys = []
  excluded : ∀ y ∈ p.excluded, ¬ p.base.Overlaps y

/-- The base fixes no bit, nothing but `x` is delegated, and nothing is barred. -/
structure Alone (p : PrefixPool) (x : IPv6Prefix) : Prop where
  base : p.base.prefixLength = 0
  delegated : p.delegated ⊆ {x}
  barred : p.barred = ∅

/-- The steps that keep the prefixes disjoint. -/
def Sound (p : PrefixPool) : Op → Prop
  | .allocatePrefix length | .allocateAdvertisedPrefix _ length => p.Open length → p.Vacant
  | .allocateRequestedAdvertisedPrefix key => p.Offerable key → p.Alone (p.offered key)
  | .allocateRequestedPrefix key => p.Grantable key → p.Alone key.pfx
  | .activateAdvertisedPrefix key => (p.advertised.lookup key).isSome → p.Alone key.pfx
  | .setConflicted key => key.pfx ∈ p.allocated ∨ p.delegated = ∅
  | .excludePrefix pfx => p.delegated = ∅ ∨ ¬ p.base.Overlaps pfx
  | _ => True

/-- In every state of a run a delegated prefix is the base or has length 0, and a conflicted one has
    length 0. -/
structure Kinds (p : PrefixPool) : Prop where
  delegated : ∀ x ∈ p.delegated, x = p.base ∨ x.prefixLength = 0
  bad : ∀ x ∈ p.bad.keys, x.prefixLength = 0

/-! ## Edits -/

variable {p q : PrefixPool} {x : IPv6Prefix} {key : IAPrefixKey}

/-- Nothing is put out or barred. -/
structure Quiet (p q : PrefixPool) : Prop where
  base : q.base = p.base
  delegated : q.delegated ⊆ p.delegated
  excluded : q.excluded ⊆ p.excluded
  bad : q.bad.keys ⊆ p.bad.keys

/-- `x` is put out. -/
structure PutsOut (p : PrefixPool) (x : IPv6Prefix) (q : PrefixPool) : Prop where
  base : q.base = p.base
  delegated : q.delegated = insert x p.delegated
  excluded : q.excluded = p.excluded
  bad : q.bad.keys = p.bad.keys

theorem Quiet.refl (p : PrefixPool) : p.Quiet p := ⟨rfl, subset_rfl, subset_rfl, List.Subset.refl _⟩

theorem Quiet.barred (h : p.Quiet q) : q.barred ⊆ p.barred :=
  Finset.union_subset_union h.excluded fun _ hx =>
    List.mem_toFinset.2 (h.bad (List.mem_toFinset.1 hx))

theorem PutsOut.barred (h : p.PutsOut x q) : q.barred = p.barred := by
  rw [PrefixPool.barred, h.excluded, h.bad, PrefixPool.barred]

/-- The prefix lies inside the base, apart from what is delegated and barred. -/
def Fits (p : PrefixPool) (x : IPv6Prefix) : Prop :=
  x.Inside p.base ∧ (∀ y ∈ p.delegated, y ≠ x → ¬ y.Overlaps x) ∧ ∀ y ∈ p.barred, ¬ x.Overlaps y

/-- A prefix is put out. -/
theorem PutsOut.disjoint_iff_fits (hout : p.PutsOut x q) (h : p.Disjoint) : q.Disjoint ↔ p.Fits x := by
  constructor
  · rintro ⟨hinside, hapart, hclear⟩
    rw [hout.delegated] at hinside hapart hclear
    rw [hout.base] at hinside
    rw [hout.barred] at hclear
    have hx := Finset.mem_insert_self x p.delegated
    exact ⟨hinside x hx, fun y hy hne => hapart y (Finset.mem_insert_of_mem hy) x hx hne, hclear x hx⟩
  · rintro ⟨hinside, hapart, hclear⟩
    refine ⟨?_, ?_, ?_⟩ <;> rw [hout.delegated]
    · rw [hout.base]
      exact (Finset.forall_mem_insert ..).2 ⟨hinside, h.inside⟩
    · intro y hy z hz hne
      rw [Finset.mem_insert] at hy hz
      obtain rfl | hy := hy
      · obtain rfl | hz := hz
        · exact absurd rfl hne
        · exact fun hover => hapart z hz (Ne.symm hne) hover.symm
      · obtain rfl | hz := hz
        · exact hapart y hy hne
        · exact h.apart y hy z hz hne
    · rw [hout.barred]
      exact (Finset.forall_mem_insert ..).2 ⟨hclear, h.clear⟩

theorem disjoint_iff_apart (h : p.Disjoint) (hbase : q.base = p.base)
    (hdelegated : q.delegated = p.delegated) (hbarred : q.barred = insert x p.barred) :
    q.Disjoint ↔ ∀ y ∈ p.delegated, ¬ y.Overlaps x := by
  constructor
  · rintro ⟨-, -, hclear⟩ y hy
    rw [hdelegated, hbarred] at hclear
    exact hclear y hy x (Finset.mem_insert_self ..)
  · intro hx
    refine ⟨?_, ?_, ?_⟩ <;> rw [hdelegated]
    · rw [hbase]
      exact h.inside
    · exact h.apart
    · rw [hbarred]
      exact fun y hy => (Finset.forall_mem_insert ..).2 ⟨hx y hy, h.clear y hy⟩

theorem Quiet.disjoint (hquiet : p.Quiet q) (h : p.Disjoint) : q.Disjoint where
  inside x hx := hquiet.base ▸ h.inside x (hquiet.delegated hx)
  apart x hx y hy := h.apart x (hquiet.delegated hx) y (hquiet.delegated hy)
  clear x hx y hy := h.clear x (hquiet.delegated hx) y (hquiet.barred hy)

theorem Quiet.kinds (hquiet : p.Quiet q) (h : p.Kinds) : q.Kinds where
  delegated x hx := hquiet.base ▸ h.delegated x (hquiet.delegated hx)
  bad x hx := h.bad x (hquiet.bad hx)

theorem PutsOut.kinds (hout : p.PutsOut x q) (h : p.Kinds) (hx : x = p.base ∨ x.prefixLength = 0) :
    q.Kinds where
  delegated := by
    rw [hout.delegated, hout.base]
    exact (Finset.forall_mem_insert ..).2 ⟨hx, h.delegated⟩
  bad := by
    rw [hout.bad]
    exact h.bad

/-! ## What fits -/

theorem fits_iff_alone (hx : x.prefixLength = 0) : p.Fits x ↔ p.Alone x := by
  constructor
  · rintro ⟨hinside, hapart, hclear⟩
    refine ⟨(IPv6Prefix.inside_iff_of_whole hx).1 hinside, fun y hy => ?_, ?_⟩
    · rw [Finset.mem_singleton]
      by_contra hne
      exact hapart y hy hne (IPv6Prefix.overlaps_of_whole hx).symm
    · exact Finset.eq_empty_of_forall_notMem fun y hy =>
        hclear y hy (IPv6Prefix.overlaps_of_whole hx)
  · rintro ⟨hbase, hdelegated, hbarred⟩
    refine ⟨(IPv6Prefix.inside_iff_of_whole hx).2 hbase, fun y hy hne => ?_, fun y hy => ?_⟩
    · exact absurd (Finset.mem_singleton.1 (hdelegated hy)) hne
    · rw [hbarred] at hy
      exact absurd hy (Finset.notMem_empty y)

theorem Kinds.overlaps_base (h : p.Kinds) (hx : x ∈ p.delegated) : x.Overlaps p.base := by
  obtain rfl | hwhole := h.delegated x hx
  · exact ⟨p.base.addr, p.base.covers_addr, p.base.covers_addr⟩
  · exact IPv6Prefix.overlaps_of_whole hwhole

theorem fits_base_iff_vacant (h : p.Kinds) (hbase : p.base ∉ p.delegated) :
    p.Fits p.base ↔ p.Vacant := by
  constructor
  · rintro ⟨-, hapart, hclear⟩
    refine ⟨Finset.eq_empty_of_forall_notMem fun y hy => ?_, ?_, fun y hy => ?_⟩
    · exact hapart y hy (fun heq => hbase (heq ▸ hy)) (h.overlaps_base hy)
    · refine List.eq_nil_iff_forall_not_mem.2 fun y hy => ?_
      exact hclear y (Finset.mem_union_right _ (List.mem_toFinset.2 hy))
        (IPv6Prefix.overlaps_of_whole (h.bad y hy)).symm
    · exact hclear y (Finset.mem_union_left _ hy)
  · rintro ⟨hdelegated, hbad, hexcluded⟩
    refine ⟨fun _ ha => ha, fun y hy => ?_, fun y hy => ?_⟩
    · rw [hdelegated] at hy
      exact absurd hy (Finset.notMem_empty y)
    · rw [barred, hbad, List.toFinset_nil, Finset.union_empty] at hy
      exact hexcluded y hy

theorem Disjoint.apart_iff_base (h : p.Disjoint) (hk : p.Kinds) :
    (∀ y ∈ p.delegated, ¬ y.Overlaps x) ↔ p.delegated = ∅ ∨ ¬ p.base.Overlaps x := by
  constructor
  · intro hapart
    refine or_iff_not_imp_left.2 fun hne hover => ?_
    obtain ⟨y, hy⟩ := Finset.nonempty_iff_ne_empty.2 hne
    obtain rfl | hwhole := hk.delegated y hy
    · exact hapart _ hy hover
    · exact hapart y hy (IPv6Prefix.overlaps_of_whole hwhole)
  · rintro (hempty | hbase) y hy hover
    · rw [hempty] at hy
      exact absurd hy (Finset.notMem_empty y)
    · obtain ⟨a, hya, hxa⟩ := hover
      exact hbase ⟨a, h.inside y hy a hya, hxa⟩

theorem apart_iff_empty (hx : x.prefixLength = 0) :
    (∀ y ∈ p.delegated, ¬ y.Overlaps x) ↔ p.delegated = ∅ := by
  rw [Finset.eq_empty_iff_forall_notMem]
  exact forall₂_congr fun y _ =>
    iff_of_false (not_not_intro (IPv6Prefix.overlaps_of_whole hx).symm) id

/-! ## Operations -/

theorem attempt_longer {length : UInt8} (h : p.base.prefixLength < length) (attempts i : ℕ) :
    (p.attempt length attempts i).value = none := by
  induction attempts generalizing i with
  | zero => rfl
  | succ attempts ih =>
    have hrange (j : BitVec 64) : p.withinRange (p.generatePrefix j length) = false := by
      rw [withinRange, Bool.and_eq_false_iff]
      exact .inr (decide_eq_false (UInt8.not_le.2 h))
    simp [attempt, isTaken, hrange, ih]

theorem generate_cases (p : PrefixPool) (requestedLength : UInt8) (take : IPv6Prefix → PrefixPool) :
    (∃ r, r.2 ≠ .Success ∧ ¬ p.Open requestedLength ∧
      (p.generate requestedLength take).value = (r, p)) ∨
      p.Open requestedLength ∧
        (p.generate requestedLength take).value = ((p.base, .Success), take p.base) := by
  simp only [generate, value_lockGuard, value_ite, value_bind]
  by_cases hlt : p.effectiveLength requestedLength < p.base.prefixLength
  · rw [if_pos hlt]
    exact .inl ⟨_, by simp, fun hopen => UInt8.lt_irrefl _ (hopen.1 ▸ hlt), rfl⟩
  by_cases heq : p.effectiveLength requestedLength = p.base.prefixLength
  · -- one attempt, at index 0
    have hcount : min (shiftedOne (p.base.prefixLength.toNat - p.base.prefixLength.toNat)).toNat
        maxGenerationAttempts = 1 := by
      rw [Nat.sub_self]
      rfl
    have hgenerated : p.generatePrefix (.ofNat 64 0) p.base.prefixLength = p.base := by
      simp [generatePrefix]
    rw [heq, if_neg (UInt8.lt_irrefl _), hcount, attempt, value_bind, value_ite, hgenerated]
    split_ifs with htaken
    · exact .inl ⟨_, by simp, fun hopen => absurd hopen.2 (by simp [htaken]), rfl⟩
    · exact .inr ⟨⟨heq, by simpa using htaken⟩, rfl⟩
  · have hgt : p.base.prefixLength < p.effectiveLength requestedLength :=
      UInt8.lt_of_le_of_ne (UInt8.not_lt.1 hlt) (Ne.symm heq)
    rw [if_neg hlt, attempt_longer hgt]
    exact .inl ⟨_, by simp, fun hopen => heq hopen.1, rfl⟩

theorem takeQuarantined_eq (p : PrefixPool) (key : IAPrefixKey) (x : IPv6Prefix) :
    ∃ quarantined quarantinedPDs timeManager,
      p.takeQuarantined key x = { p with quarantined, quarantinedPDs, timeManager } := by
  rw [takeQuarantined]
  cases p.quarantined.lookup key with
  | none => exact ⟨_, _, _, rfl⟩
  | some id => exact ⟨_, _, _, rfl⟩

theorem allocateRequestedAdvertisedPrefix_cases (p : PrefixPool) (key : IAPrefixKey) :
    ¬ p.Offerable key ∧ p.Quiet (p.allocateRequestedAdvertisedPrefix key).value.2 ∨
      p.Offerable key ∧ p.PutsOut (p.offered key) (p.allocateRequestedAdvertisedPrefix key).value.2 := by
  obtain ⟨quarantined, quarantinedPDs, tm, htake⟩ := p.takeQuarantined_eq key (p.offered key)
  simp only [allocateRequestedAdvertisedPrefix, value_lockGuard]
  rw [offered] at htake
  split_ifs with hlength hrange
  · exact .inl ⟨fun hoffer => absurd hlength hoffer.1, Quiet.refl p⟩
  · rw [htake] at hrange ⊢
    rw [Bool.not_eq_true'] at hrange
    refine .inl ⟨fun hoffer => ?_, ⟨rfl, subset_rfl, subset_rfl, List.Subset.refl _⟩⟩
    exact absurd (hrange.symm.trans hoffer.2.1) Bool.false_ne_true
  · rw [htake] at hrange ⊢
    rw [Bool.not_eq_true, Bool.not_eq_false'] at hrange
    rw [value_bind, value_or, value_pure, hrange, Bool.not_true, Bool.false_or, value_ite]
    split_ifs with htaken
    · refine .inl ⟨fun hoffer => ?_, ⟨rfl, subset_rfl, subset_rfl, List.Subset.refl _⟩⟩
      exact absurd hoffer.2.2 (by rw [← Bool.not_eq_true, not_not]; exact htaken)
    · rw [Bool.not_eq_true] at htaken
      exact .inr ⟨⟨hlength, hrange, htaken⟩, ⟨rfl, Finset.union_insert .., rfl, rfl⟩⟩

theorem allocateRequestedPrefix_cases (p : PrefixPool) (key : IAPrefixKey) :
    ¬ p.Grantable key ∧ p.Quiet (p.allocateRequestedPrefix key).value.2 ∨
      p.Grantable key ∧ p.PutsOut key.pfx (p.allocateRequestedPrefix key).value.2 := by
  obtain ⟨quarantined, quarantinedPDs, tm, htake⟩ := p.takeQuarantined_eq key key.pfx
  simp only [allocateRequestedPrefix, value_lockGuard]
  split_ifs with hlength hrange
  · exact .inl ⟨fun hgrant => absurd hlength hgrant.1, Quiet.refl p⟩
  · rw [htake] at hrange ⊢
    rw [Bool.not_eq_true'] at hrange
    refine .inl ⟨fun hgrant => ?_, ⟨rfl, subset_rfl, subset_rfl, List.Subset.refl _⟩⟩
    exact absurd (hrange.symm.trans hgrant.2.1) Bool.false_ne_true
  · rw [htake] at hrange ⊢
    rw [Bool.not_eq_true, Bool.not_eq_false'] at hrange
    rw [value_bind, value_ite]
    split_ifs with htaken
    · refine .inl ⟨fun hgrant => ?_, ⟨rfl, subset_rfl, subset_rfl, List.Subset.refl _⟩⟩
      exact absurd hgrant.2.2 (by rw [← Bool.not_eq_true, not_not]; exact htaken)
    · rw [Bool.not_eq_true] at htaken
      exact .inr ⟨⟨hlength, hrange, htaken⟩, ⟨rfl, Finset.insert_union .., rfl, rfl⟩⟩

theorem activateAdvertisedPrefix_cases (p : PrefixPool) (key : IAPrefixKey) :
    ¬ (p.advertised.lookup key).isSome ∧ p.Quiet (p.activateAdvertisedPrefix key).value.2 ∨
      (p.advertised.lookup key).isSome ∧ p.PutsOut key.pfx (p.activateAdvertisedPrefix key).value.2 := by
  rw [activateAdvertisedPrefix, value_lockGuard]
  cases hid : p.advertised.lookup key with
  | none => exact .inl ⟨by simp, Quiet.refl p⟩
  | some id =>
    refine .inr ⟨rfl, ⟨rfl, ?_, rfl, rfl⟩⟩
    ext y
    by_cases hy : y = key.pfx <;> simp [delegated, hy]

theorem generate_effect {requestedLength : UInt8} {take : IPv6Prefix → PrefixPool}
    (htake : p.PutsOut p.base (take p.base)) :
    ¬ p.Open requestedLength ∧ p.Quiet (p.generate requestedLength take).value.2 ∨
      p.Open requestedLength ∧ p.PutsOut p.base (p.generate requestedLength take).value.2 := by
  obtain ⟨r, -, hopen, hvalue⟩ | ⟨hopen, hvalue⟩ := p.generate_cases requestedLength take
  · exact .inl ⟨hopen, hvalue ▸ Quiet.refl p⟩
  · exact .inr ⟨hopen, hvalue ▸ htake⟩

theorem allocatePrefix_cases (p : PrefixPool) (length : UInt8) :
    ¬ p.Open length ∧ p.Quiet (p.allocatePrefix length).value.2 ∨
      p.Open length ∧ p.PutsOut p.base (p.allocatePrefix length).value.2 :=
  generate_effect ⟨rfl, Finset.insert_union .., rfl, rfl⟩

theorem allocateAdvertisedPrefix_cases (p : PrefixPool) (key : IAKey) (length : UInt8) :
    ¬ p.Open length ∧ p.Quiet (p.allocateAdvertisedPrefix key length).value.2 ∨
      p.Open length ∧ p.PutsOut p.base (p.allocateAdvertisedPrefix key length).value.2 :=
  generate_effect ⟨rfl, Finset.union_insert .., rfl, rfl⟩

theorem disjoint_iff_of_cases {c : Prop} (h : p.Disjoint) (hcases : ¬ c ∧ p.Quiet q ∨ c ∧ p.PutsOut x q) :
    q.Disjoint ↔ (c → p.Fits x) := by
  obtain ⟨hc, hquiet⟩ | ⟨hc, hout⟩ := hcases
  · exact iff_of_true (hquiet.disjoint h) fun h' => absurd h' hc
  · rw [hout.disjoint_iff_fits h, forall_prop_of_true hc]

theorem Kinds.of_cases {c : Prop} (h : p.Kinds) (hx : x = p.base ∨ x.prefixLength = 0)
    (hcases : ¬ c ∧ p.Quiet q ∨ c ∧ p.PutsOut x q) : q.Kinds := by
  obtain ⟨-, hquiet⟩ | ⟨-, hout⟩ := hcases
  · exact hquiet.kinds h
  · exact hout.kinds h hx

theorem quiet_releasePrefix (p : PrefixPool) (pfx : IPv6Prefix) :
    p.Quiet (p.releasePrefix pfx).value :=
  ⟨rfl, Finset.union_subset_union_left (Finset.erase_subset ..), subset_rfl, List.Subset.refl _⟩

theorem quiet_removeExclusion (p : PrefixPool) (pfx : IPv6Prefix) :
    p.Quiet (p.removeExclusion pfx).value.2 :=
  ⟨rfl, subset_rfl, Finset.erase_subset .., List.Subset.refl _⟩

theorem quiet_setLeaseManager (p : PrefixPool) : p.Quiet p.setLeaseManager :=
  ⟨rfl, subset_rfl, subset_rfl, List.Subset.refl _⟩

theorem quiet_expirePrefix (p : PrefixPool) (key : IAPrefixKey) :
    p.Quiet (p.expirePrefix key).value := by
  rw [expirePrefix, value_lockGuard, value_bind, value_ite]
  split_ifs
  · exact ⟨rfl, Finset.union_subset_union_left (Finset.erase_subset ..), subset_rfl,
      List.Subset.refl _⟩
  · exact Quiet.refl p

theorem quiet_fireTimer (p : PrefixPool) (id : UInt32) : p.Quiet (p.fireTimer id).value := by
  rw [fireTimer]
  cases p.timeManager.fire id with
  | none => exact Quiet.refl p
  | some fired =>
    obtain ⟨callback, tm⟩ := fired
    cases callback with
    | advertised key grouped =>
      exact ⟨rfl, Finset.union_subset_union_right (Finset.erase_subset ..), subset_rfl,
        List.Subset.refl _⟩
    | quarantined key => exact ⟨rfl, subset_rfl, subset_rfl, List.Subset.refl _⟩
    | bad pfx =>
      refine ⟨rfl, subset_rfl, subset_rfl, fun y hy => ?_⟩
      exact (AList.mem_erase.1 (AList.mem_keys.2 hy)).2
    | lease pfx key => exact ⟨rfl, subset_rfl, subset_rfl, List.Subset.refl _⟩

theorem mem_keys_insert {m : Map IPv6Prefix UInt32} {y : IPv6Prefix} {id : UInt32} :
    y ∈ (m.insert x id).keys ↔ y = x ∨ y ∈ m.keys := by
  rw [← AList.mem_keys, AList.mem_insert, ← AList.mem_keys]

theorem setConflicted_cases (p : PrefixPool) (key : IAPrefixKey) :
    key.pfx ∈ p.allocated ∧ (p.setConflicted key).value.2 = p ∨
      key.pfx ∉ p.allocated ∧ ∃ id tm, (p.setConflicted key).value.2 =
        { p with bad := p.bad.insert key.pfx id, timeManager := tm } := by
  simp only [setConflicted, value_lockGuard, value_bind, isAllocated, value_pure, decide_eq_true_eq]
  by_cases hmem : key.pfx ∈ p.allocated
  · rw [if_pos hmem]
    exact .inl ⟨hmem, rfl⟩
  · rw [if_neg hmem]
    exact .inr ⟨hmem, _, _, rfl⟩

theorem disjoint_setConflicted (h : p.Disjoint) :
    (p.setConflicted key).value.2.Disjoint ↔ key.pfx ∈ p.allocated ∨ p.delegated = ∅ := by
  obtain ⟨hmem, hvalue⟩ | ⟨hmem, id, tm, hvalue⟩ := p.setConflicted_cases key
  · rw [hvalue]
    exact iff_of_true h (.inl hmem)
  · have hbarred : (p.setConflicted key).value.2.barred = insert key.pfx p.barred := by
      ext y
      rw [hvalue]
      simp only [barred, Finset.mem_union, Finset.mem_insert, List.mem_toFinset, mem_keys_insert]
      tauto
    rw [or_iff_right hmem, disjoint_iff_apart h (by rw [hvalue]) (by rw [hvalue]; rfl) hbarred]
    exact apart_iff_empty rfl

/-! ## Runs -/

theorem kinds_step (h : p.Kinds) (op : Op) : (p.step op).Kinds := by
  cases op with
  | allocatePrefix length => exact h.of_cases (.inl rfl) (p.allocatePrefix_cases length)
  | allocateAdvertisedPrefix key length =>
    exact h.of_cases (.inl rfl) (p.allocateAdvertisedPrefix_cases key length)
  | allocateRequestedAdvertisedPrefix key =>
    exact h.of_cases (.inr rfl) (p.allocateRequestedAdvertisedPrefix_cases key)
  | allocateRequestedPrefix key =>
    exact h.of_cases (.inr rfl) (p.allocateRequestedPrefix_cases key)
  | activateAdvertisedPrefix key =>
    exact h.of_cases (.inr rfl) (p.activateAdvertisedPrefix_cases key)
  | releasePrefix pfx => exact (p.quiet_releasePrefix pfx).kinds h
  | expirePrefix key => exact (p.quiet_expirePrefix key).kinds h
  | setConflicted key =>
    rw [step]
    obtain ⟨-, hvalue⟩ | ⟨-, id, tm, hvalue⟩ := p.setConflicted_cases key <;> rw [hvalue]
    · exact h
    · refine ⟨h.delegated, fun x hx => ?_⟩
      obtain rfl | hx := mem_keys_insert.1 hx
      · rfl
      · exact h.bad x hx
  | excludePrefix pfx => exact ⟨h.delegated, h.bad⟩
  | removeExclusion pfx => exact (p.quiet_removeExclusion pfx).kinds h
  | setLeaseManager => exact p.quiet_setLeaseManager.kinds h
  | adjustPool newBase length =>
    simp only [step, adjustPool, value_ite, value_lockGuard, value_pure]
    split_ifs
    · exact h
    · constructor <;> simp [delegated]
  | fireTimer id => exact (p.quiet_fireTimer id).kinds h

theorem disjoint_step_iff {op : Op} (hk : p.Kinds) (h : p.Disjoint) :
    (p.step op).Disjoint ↔ p.Sound op := by
  have hvacant {length : UInt8} (hopen : p.Open length) : p.Fits p.base ↔ p.Vacant := by
    refine fits_base_iff_vacant hk fun hmem => ?_
    have hfree := hopen.2
    simp only [isTaken, isAllocated, isAdvertised, value_or, value_lockGuard, value_pure,
      Bool.or_eq_false_iff, decide_eq_false_iff_not] at hfree
    obtain halloc | hadv := Finset.mem_union.1 hmem
    · exact hfree.2.1 halloc
    · exact hfree.2.2.2.2 hadv
  cases op with
  | allocatePrefix length =>
    exact (disjoint_iff_of_cases h (p.allocatePrefix_cases length)).trans (forall_congr' hvacant)
  | allocateAdvertisedPrefix key length =>
    exact (disjoint_iff_of_cases h (p.allocateAdvertisedPrefix_cases key length)).trans
      (forall_congr' hvacant)
  | allocateRequestedAdvertisedPrefix key =>
    rw [Sound, ← fits_iff_alone rfl]
    exact disjoint_iff_of_cases h (p.allocateRequestedAdvertisedPrefix_cases key)
  | allocateRequestedPrefix key =>
    rw [Sound, ← fits_iff_alone rfl]
    exact disjoint_iff_of_cases h (p.allocateRequestedPrefix_cases key)
  | activateAdvertisedPrefix key =>
    rw [Sound, ← fits_iff_alone rfl]
    exact disjoint_iff_of_cases h (p.activateAdvertisedPrefix_cases key)
  | releasePrefix pfx => exact iff_of_true ((p.quiet_releasePrefix pfx).disjoint h) trivial
  | expirePrefix key => exact iff_of_true ((p.quiet_expirePrefix key).disjoint h) trivial
  | setConflicted key => exact disjoint_setConflicted h
  | excludePrefix pfx =>
    rw [Sound, ← h.apart_iff_base hk]
    exact disjoint_iff_apart h rfl rfl (Finset.insert_union ..)
  | removeExclusion pfx => exact iff_of_true ((p.quiet_removeExclusion pfx).disjoint h) trivial
  | adjustPool newBase length =>
    refine iff_of_true ?_ trivial
    simp only [step, adjustPool, value_ite, value_lockGuard, value_pure]
    split_ifs
    · exact h
    · constructor <;> simp [delegated]
  | setLeaseManager => exact iff_of_true (p.quiet_setLeaseManager.disjoint h) trivial
  | fireTimer id => exact iff_of_true ((p.quiet_fireTimer id).disjoint h) trivial

/-- **Disjointness**: every state of a run is disjoint iff the steps of the run are sound. -/
theorem disjoint_iff (base : IPv6Prefix) (delegationLength : UInt8) (tm : TimeManager Callback)
    (ops : List Op) :
    (∀ before, before <+: ops → (runFrom step (new base delegationLength tm) before).Disjoint) ↔
      Along Sound step (new base delegationLength tm) ops := by
  have hkinds : (new base delegationLength tm).Kinds := by constructor <;> simp [delegated, new]
  have hdisjoint : (new base delegationLength tm).Disjoint := by constructor <;> simp [delegated, new]
  exact (along_iff_everywhere (I := Kinds) (E := fun _ => True) (fun _ op hk => kinds_step hk op)
    (fun _ _ _ hk h => disjoint_step_iff hk h) (fun _ _ => trivial) hkinds hdisjoint).symm

def base48 : IPv6Prefix := { addr := 0x20010DB8000000000000000000000000, prefixLength := 48 }

/-- A request for the first /56 is granted the prefix of length 0. -/
theorem not_disjoint_allocateRequestedPrefix :
    ¬ (runFrom step (new base48 56 {}) [.allocateRequestedPrefix
        { duid := [1], iaid := 1, address := base48.addr, prefixLength := 56 }]).Disjoint := by
  intro h
  have hout : (IPv6Prefix.mk base48.addr 0) ∈ (runFrom step (new base48 56 {}) [.allocateRequestedPrefix
      { duid := [1], iaid := 1, address := base48.addr, prefixLength := 56 }]).delegated := by
    decide
  exact absurd ((IPv6Prefix.inside_iff_of_whole rfl).1 (h.inside _ hout)) (by decide)

end PrefixPool

end VirtualRouter.Dhcp
