/-
  When the DHCPv6 prefix pool finds a free prefix.

  The prefixes that are tried have the effective length, and `withinRange` takes
  only those that are no longer than the base: nothing is found unless the hint and
  the delegation length are the length of the base.  Then the base itself is tried,
  and the test for it takes the mutex that the allocation holds.

  * `PrefixPool.subPrefix`, `Candidate`, `Free`: the sub-prefixes and what is not taken;
  * `Complete`: what an allocation owes if one of them is free;
  * `granted_iff`: whether it is granted, were the mutex taken without an effect;
  * `complete_iff`: an allocation is complete only where no sub-prefix is free.
-/
import VirtualRouter.Dhcp.LockDiscipline
import VirtualRouter.Dhcp.PrefixDisjoint

namespace VirtualRouter.Dhcp

open NestedMap Locked

namespace PrefixPool

/-- The sub-prefix of the base of this length with the number `i`. -/
def subPrefix (p : PrefixPool) (length : UInt8) (i : ℕ) : IPv6Prefix where
  addr := p.base.addr + BitVec.ofNat 128 (i * 2 ^ (128 - length.toNat))
  prefixLength := length

/-- How many sub-prefixes of this length the pool is to try. -/
def candidates (p : PrefixPool) (length : UInt8) : ℕ :=
  min (2 ^ (length.toNat - p.base.prefixLength.toNat)) maxGenerationAttempts

/-- One of the first sub-prefixes of the effective length. -/
def Candidate (p : PrefixPool) (requestedLength : UInt8) (pfx : IPv6Prefix) : Prop :=
  ∃ i < p.candidates (p.effectiveLength requestedLength),
    pfx = p.subPrefix (p.effectiveLength requestedLength) i

/-- Neither allocated, advertised, excluded nor conflicted. -/
structure Free (p : PrefixPool) (pfx : IPv6Prefix) : Prop where
  allocated : pfx ∉ p.allocated
  advertised : pfx ∉ p.advertisedPDs
  excluded : pfx ∉ p.excluded
  conflicted : (p.bad.lookup pfx).isSome = false

def SomeFree (p : PrefixPool) (requestedLength : UInt8) : Prop :=
  ∃ pfx, p.Candidate requestedLength pfx ∧ p.Free pfx

/-- The answer of an allocation: success with one of the free sub-prefixes. -/
structure Granted (p : PrefixPool) (requestedLength : UInt8)
    (answer : IPv6Prefix × Dhcpv6StatusCode) : Prop where
  success : answer.2 = .Success
  candidate : p.Candidate requestedLength answer.1
  free : p.Free answer.1

/-- If a sub-prefix is free, the call returns and one is granted. -/
def Complete (p : PrefixPool) (requestedLength : UInt8)
    (call : Locked Mutex ((IPv6Prefix × Dhcpv6StatusCode) × PrefixPool)) : Prop :=
  p.SomeFree requestedLength → call.relocks [] = false ∧ p.Granted requestedLength call.value.1

variable {p : PrefixPool} {requestedLength : UInt8} {pfx : IPv6Prefix}
  {take : IPv6Prefix → PrefixPool}

theorem isTaken_eq_false : (p.isTaken pfx).value = false ↔ p.withinRange pfx = true ∧ p.Free pfx := by
  simp only [isTaken, isAllocated, isExcluded, isConflicted, isAdvertised, value_or, value_pure,
    value_lockGuard, Bool.or_eq_false_iff, Bool.not_eq_false', decide_eq_false_iff_not]
  constructor
  · rintro ⟨hrange, hallocated, hexcluded, hconflicted, hadvertised⟩
    exact ⟨hrange, hallocated, hadvertised, hexcluded, hconflicted⟩
  · rintro ⟨hrange, hfree⟩
    exact ⟨hrange, hfree.allocated, hfree.excluded, hfree.conflicted, hfree.advertised⟩

theorem candidate_base (hlength : p.effectiveLength requestedLength = p.base.prefixLength) :
    p.Candidate requestedLength pfx ↔ pfx = p.base := by
  have hcount : p.candidates p.base.prefixLength = 1 := by
    rw [candidates, Nat.sub_self]
    rfl
  have hfirst : p.subPrefix p.base.prefixLength 0 = p.base := by
    simp [subPrefix]
  rw [Candidate, hlength, hcount]
  constructor
  · rintro ⟨i, hi, rfl⟩
    rw [Nat.lt_one_iff.mp hi, hfirst]
  · rintro rfl
    exact ⟨0, Nat.one_pos, hfirst.symm⟩

/-- Without the effect of the mutex, what is free is granted exactly with the length of the base
    and the base in range. -/
theorem granted_iff (hfree : p.SomeFree requestedLength) :
    p.Granted requestedLength (p.generate requestedLength take).value.1 ↔
      p.effectiveLength requestedLength = p.base.prefixLength ∧ p.withinRange p.base = true := by
  obtain ⟨r, hr, hclosed, hvalue⟩ | ⟨hopen, hvalue⟩ := p.generate_cases requestedLength take
  · rw [hvalue]
    refine iff_of_false (fun h => hr h.success) ?_
    rintro ⟨hlength, hrange⟩
    obtain ⟨pfx, hpfx, hfree⟩ := hfree
    rw [candidate_base hlength] at hpfx
    exact hclosed ⟨hlength, isTaken_eq_false.mpr ⟨hrange, hpfx ▸ hfree⟩⟩
  · obtain ⟨hlength, htaken⟩ := hopen
    obtain ⟨hrange, hbase⟩ := isTaken_eq_false.mp htaken
    rw [hvalue]
    exact iff_of_true ⟨rfl, (candidate_base hlength).mpr rfl, hbase⟩ ⟨hlength, hrange⟩

theorem complete_generate_iff :
    p.Complete requestedLength (p.generate requestedLength take) ↔ ¬ p.SomeFree requestedLength := by
  refine ⟨fun h hfree => ?_, fun hnone hfree => absurd hfree hnone⟩
  obtain ⟨hreturns, hgranted⟩ := h hfree
  obtain ⟨hlength, hrange⟩ := (granted_iff hfree).mp hgranted
  rw [relocks_generate (by simp)] at hreturns
  exact absurd hrange (by simp [hreturns hlength])

/-- **An allocation is complete only if no sub-prefix is free**; and if the mutex of the pool could
    be taken twice, what is free would be granted only with the effective length of the base. -/
theorem complete_iff (p : PrefixPool) (key : IAKey) (requestedLength : UInt8) :
    (p.Complete requestedLength (p.allocatePrefix requestedLength) ↔ ¬ p.SomeFree requestedLength) ∧
    (p.Complete requestedLength (p.allocateAdvertisedPrefix key requestedLength) ↔
      ¬ p.SomeFree requestedLength) ∧
    (p.SomeFree requestedLength →
      (p.Granted requestedLength (p.allocatePrefix requestedLength).value.1 ↔
        p.effectiveLength requestedLength = p.base.prefixLength ∧ p.withinRange p.base = true) ∧
      (p.Granted requestedLength (p.allocateAdvertisedPrefix key requestedLength).value.1 ↔
        p.effectiveLength requestedLength = p.base.prefixLength ∧ p.withinRange p.base = true)) :=
  ⟨complete_generate_iff, complete_generate_iff, fun hfree => ⟨granted_iff hfree, granted_iff hfree⟩⟩

/-- A new pool of `2001:db8::/32` for delegations of 48 bits grants none. -/
theorem not_complete : ¬ ∀ (p : PrefixPool) (requestedLength : UInt8),
    p.base.prefixLength ≤ p.delegationLength → requestedLength ≤ 64 →
      p.Complete requestedLength (p.allocatePrefix requestedLength) := by
  intro h
  have hcomplete := h (.new ⟨0x20010db8#128 <<< 96, 32⟩ 48 {}) 48 (by decide) (by decide)
  refine complete_generate_iff.mp hcomplete ⟨subPrefix _ 48 0, ⟨0, by decide, rfl⟩, ?_⟩
  exact ⟨Finset.notMem_empty _, Finset.notMem_empty _, Finset.notMem_empty _, rfl⟩

end PrefixPool

end VirtualRouter.Dhcp
