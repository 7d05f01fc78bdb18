/-
  Runs of the DHCPv6 leases: when no address is leased to two associations.

  The lease manager and its pool share the bindings of addresses.  The pool does
  not know which addresses are leased, an address may be on offer to several
  associations, and the timer of an offer outlives it; so an offer may end for
  an address that another association has on offer, and an address may be
  leased that is still on offer, in quarantine, in conflict or excluded.

  * `Exclusive`: leases and their keys agree, a leased address is allocated and
    nothing else, and the three containers of offers agree;
  * `Consistent`, `Spares`: what a step of the pool keeps;
  * `Linked`: the invariant; `Sound`: the steps that keep it;
  * `leases_exclusive_of_sound`: along sound steps every state is exclusive.
-/
import VirtualRouter.Dhcp.IPv6LeaseManager
import VirtualRouter.Lib.Run

namespace VirtualRouter.Dhcp

open NestedMap Locked Run
open VirtualRouter.Core

def IALeaseKey.association (key : IALeaseKey) : IAKey :=
  { duid := key.duid, iaid := key.iaid, type := key.type }

namespace IPv6Pool

variable {p q r : IPv6Pool} {key : IALeaseKey} {addr : BitVec 128} {id : UInt32}
  {leased : BitVec 128 → Prop}

/-- The address is allocated, and neither on offer nor in quarantine, in conflict or excluded. -/
structure Fit (p : IPv6Pool) (addr : BitVec 128) : Prop where
  allocated : addr ∈ p.allocated
  not_advertised : addr ∉ p.advertisedIPs
  not_quarantined : addr ∉ p.quarantinedIPs
  not_bad : p.bad.lookup addr = none
  not_excluded : addr ∉ p.excluded

structure Agree (p : IPv6Pool) : Prop where
  groups : ∀ key, (p.advertised.lookup key).isSome ↔
    key.address ∈ groupOf p.advertisedGroups key.association
  addresses : ∀ addr, addr ∈ p.advertisedIPs ↔
    ∃ key, (p.advertised.lookup key).isSome ∧ key.address = addr

/-- The offers agree, each under the type that the groups have, and the timers that the containers
    name are pending, and their own. -/
structure Consistent (p : IPv6Pool) : Prop extends Agree p where
  type : ∀ key, (p.advertised.lookup key).isSome → key.type = .IA_NA
  advertised_timer : ∀ key id, p.advertised.lookup key = some id →
    p.timeManager.timers.lookup id = some (.advertised key)
  quarantined_timer : ∀ key id, p.quarantined.lookup key = some id →
    p.timeManager.timers.lookup id = some (.quarantined key)
  bad_timer : ∀ addr id, p.bad.lookup addr = some id →
    p.timeManager.timers.lookup id = some (.bad addr)

/-- From `p` to `q` the leased addresses stay fit, and the lease timers the same. -/
structure Spares (leased : BitVec 128 → Prop) (p q : IPv6Pool) : Prop where
  fit : ∀ addr, leased addr → p.Fit addr → q.Fit addr
  lease_timer : ∀ id addr key, q.timeManager.timers.lookup id = some (.lease addr key) ↔
    p.timeManager.timers.lookup id = some (.lease addr key)
  consistent : q.Consistent

theorem Consistent.spares (h : p.Consistent) : Spares leased p p := ⟨fun _ _ => id, fun _ _ _ => Iff.rfl, h⟩

theorem Spares.trans (h : Spares leased p q) (h' : Spares leased q r) : Spares leased p r :=
  ⟨fun a ha hfit => h'.fit a ha (h.fit a ha hfit),
    fun id a k => (h'.lease_timer id a k).trans (h.lease_timer id a k), h'.consistent⟩

/-- No other association has the address of `key` on offer. -/
def OnlyOffer (p : IPv6Pool) (key : IALeaseKey) : Prop :=
  ∀ other ∈ p.advertised.keys, other.address = key.address → other = key

theorem OnlyOffer.eq (h : p.OnlyOffer key) {other : IALeaseKey}
    (hother : (p.advertised.lookup other).isSome) (haddr : other.address = key.address) : other = key :=
  h other (AList.mem_keys.1 (AList.lookup_isSome.1 hother)) haddr

theorem association_eq (key : IALeaseKey) (htype : key.type = .IA_NA) : key.association = key.group := by
  rw [IALeaseKey.association, htype]
  rfl

theorem eq_of_association {key other : IALeaseKey} (h : key.association = other.association)
    (haddr : key.address = other.address) : key = other := by
  obtain ⟨duid, iaid, address, type⟩ := key
  obtain ⟨duid', iaid', address', type'⟩ := other
  simp only [IALeaseKey.association, IAKey.mk.injEq] at h haddr
  obtain ⟨rfl, rfl, rfl⟩ := h
  rw [haddr]

/-! ## Edits -/

theorem Agree.advertise (h : p.Agree) (htype : key.type = .IA_NA) : (p.advertise key).Agree where
  groups other := by
    simp only [IPv6Pool.advertise, lookup_insert_eq, mem_groupOf_insertInto, ← association_eq key htype,
      ← h.groups]
    by_cases heq : other = key
    · simp [heq]
    · rw [if_neg heq]
      refine ⟨.inr, fun hor => hor.resolve_left ?_⟩
      rintro ⟨hassoc, haddr⟩
      exact heq (eq_of_association hassoc haddr)
  addresses addr := by
    simp only [IPv6Pool.advertise, lookup_insert_eq, Finset.mem_insert, h.addresses]
    constructor
    · rintro (rfl | ⟨other, hother, rfl⟩)
      · exact ⟨key, by simp, rfl⟩
      · refine ⟨other, ?_, rfl⟩
        split
        · rfl
        · exact hother
    · rintro ⟨other, hother, rfl⟩
      split_ifs at hother with heq
      · exact .inl (by rw [heq])
      · exact .inr ⟨other, hother, rfl⟩

theorem Agree.dropAdvertised (h : p.Agree) (htype : ∀ key, (p.advertised.lookup key).isSome → key.type = .IA_NA)
    (honly : p.OnlyOffer key) : (p.dropAdvertised key).Agree where
  groups other := by
    simp only [IPv6Pool.dropAdvertised, lookup_erase_eq, mem_groupOf_eraseFrom, ← h.groups]
    by_cases heq : other = key
    · subst heq
      simp only [if_true, Option.isSome_none, Bool.false_eq_true, false_iff]
      rintro ⟨hother, hne⟩
      exact hne ⟨association_eq other (htype other hother), trivial⟩
    · rw [if_neg heq]
      refine ⟨fun hother => ⟨hother, ?_⟩, And.left⟩
      rintro ⟨-, haddr⟩
      exact heq (honly.eq hother haddr)
  addresses addr := by
    simp only [IPv6Pool.dropAdvertised, lookup_erase_eq, Finset.mem_erase, h.addresses]
    constructor
    · rintro ⟨hne, other, hother, rfl⟩
      refine ⟨other, ?_, rfl⟩
      rw [if_neg fun heq => hne (by rw [heq])]
      exact hother
    · rintro ⟨other, hother, rfl⟩
      split_ifs at hother with heq
      · cases hother
      · exact ⟨fun haddr => heq (honly.eq hother haddr), other, hother, rfl⟩

section edits

attribute [local grind =] lookup_insert_eq lookup_erase_eq TimeManager.lookup_addTimer
  TimeManager.lookup_cancelTimer

theorem lookup_ne_next {tm : TimeManager Callback} {callback : Callback} (hfresh : tm.Fresh)
    (h : tm.timers.lookup id = some callback) : id ≠ tm.nextTimerId := by
  rintro rfl
  rw [hfresh] at h
  cases h

theorem Consistent.advertise (h : p.Consistent) (htype : key.type = .IA_NA)
    (hfresh : p.timeManager.Fresh) (hleased : ¬ leased key.address) :
    Spares leased p (p.advertise key) := by
  obtain ⟨hagree, htypes, hA, hQ, hB⟩ := h
  have hne {callback : Callback} {id : UInt32} := @lookup_ne_next id _ callback hfresh
  refine ⟨fun a ha hfit => ?_, fun id' a k => ?_, hagree.advertise htype, fun other => ?_, fun other id' => ?_,
    fun other id' => ?_, fun a id' => ?_⟩
  · have hne : a ≠ key.address := fun heq => hleased (heq ▸ ha)
    exact ⟨hfit.allocated, by simpa [IPv6Pool.advertise, hne] using hfit.not_advertised,
      hfit.not_quarantined, hfit.not_bad, hfit.not_excluded⟩
  all_goals simp only [IPv6Pool.advertise, TimeManager.addTimer_fst]
  · grind [TimeManager.Fresh]
  all_goals grind

theorem Consistent.dropAdvertised (h : p.Consistent) (honly : p.OnlyOffer key) :
    Spares leased p (p.dropAdvertised key) := by
  obtain ⟨hagree, htypes, hA, hQ, hB⟩ := h
  refine ⟨fun a ha hfit => ?_, fun id' a k => Iff.rfl, hagree.dropAdvertised htypes honly, fun other => ?_,
    fun other id' => ?_, hQ, hB⟩
  · exact ⟨hfit.allocated, fun hmem => hfit.not_advertised (Finset.mem_of_mem_erase hmem),
      hfit.not_quarantined, hfit.not_bad, hfit.not_excluded⟩
  all_goals simp only [IPv6Pool.dropAdvertised]
  all_goals grind

theorem Consistent.cancelAdvertised (h : p.Consistent) (hid : p.advertised.lookup key = some id)
    (honly : p.OnlyOffer key) :
    Spares leased p ({ p with timeManager := p.timeManager.cancelTimer id }.dropAdvertised key) := by
  obtain ⟨hagree, htypes, hA, hQ, hB⟩ := h
  have hown := hA key id hid
  have hdrop := hagree.dropAdvertised htypes honly
  refine ⟨fun a ha hfit => ?_, fun id' a k => ?_, ⟨hdrop.groups, hdrop.addresses⟩, fun other => ?_,
    fun other id' => ?_, fun other id' => ?_, fun a id' => ?_⟩
  · exact ⟨hfit.allocated, fun hmem => hfit.not_advertised (Finset.mem_of_mem_erase hmem),
      hfit.not_quarantined, hfit.not_bad, hfit.not_excluded⟩
  all_goals simp only [IPv6Pool.dropAdvertised]
  all_goals grind

theorem Consistent.takeQuarantined (h : p.Consistent) (freed : BitVec 128) :
    Spares leased p (p.takeQuarantined key freed) := by
  rw [IPv6Pool.takeQuarantined]
  cases hid : p.quarantined.lookup key with
  | none => exact h.spares
  | some id =>
    obtain ⟨hagree, htypes, hA, hQ, hB⟩ := h
    have hown := hQ key id hid
    refine ⟨fun a ha hfit => ?_, fun id' a k => ?_, ⟨hagree.groups, hagree.addresses⟩, htypes,
      fun other id' => ?_, fun other id' => ?_, fun a id' => ?_⟩
    · exact ⟨hfit.allocated, hfit.not_advertised,
        fun hmem => hfit.not_quarantined (Finset.mem_of_mem_erase hmem), hfit.not_bad, hfit.not_excluded⟩
    all_goals grind

theorem Consistent.setAllocated (h : p.Consistent) {allocated : Finset (BitVec 128)}
    (hleased : ∀ a, leased a → a ∈ p.allocated → a ∈ allocated) :
    Spares leased p { p with allocated } where
  fit a ha hfit := ⟨hleased a ha hfit.allocated, hfit.not_advertised, hfit.not_quarantined,
    hfit.not_bad, hfit.not_excluded⟩
  lease_timer _ _ _ := Iff.rfl
  consistent := ⟨⟨h.groups, h.addresses⟩, h.type, h.advertised_timer, h.quarantined_timer, h.bad_timer⟩

theorem Consistent.setExcluded (h : p.Consistent) {excluded : Finset (BitVec 128)}
    (hleased : ∀ a, leased a → a ∉ p.excluded → a ∉ excluded) :
    Spares leased p { p with excluded } where
  fit a ha hfit := ⟨hfit.allocated, hfit.not_advertised, hfit.not_quarantined, hfit.not_bad,
    hleased a ha hfit.not_excluded⟩
  lease_timer _ _ _ := Iff.rfl
  consistent := ⟨⟨h.groups, h.addresses⟩, h.type, h.advertised_timer, h.quarantined_timer, h.bad_timer⟩

theorem Consistent.setQuarantined (h : p.Consistent) (hfresh : p.timeManager.Fresh)
    (hleased : ¬ leased key.address) :
    Spares leased p { p with
      allocated := p.allocated.erase key.address
      quarantined := p.quarantined.insert key p.timeManager.nextTimerId
      quarantinedIPs := insert key.address p.quarantinedIPs
      timeManager := (p.timeManager.addTimer (.quarantined key)).2 } := by
  obtain ⟨hagree, htypes, hA, hQ, hB⟩ := h
  have hne {callback : Callback} {id : UInt32} := @lookup_ne_next id _ callback hfresh
  refine ⟨fun a ha hfit => ?_, fun id' a k => ?_, ⟨hagree.groups, hagree.addresses⟩, htypes,
    fun other id' => ?_, fun other id' => ?_, fun a id' => ?_⟩
  · have hne : a ≠ key.address := fun heq => hleased (heq ▸ ha)
    exact ⟨Finset.mem_erase.2 ⟨hne, hfit.allocated⟩, hfit.not_advertised,
      by simpa [hne] using hfit.not_quarantined, hfit.not_bad, hfit.not_excluded⟩
  · grind [TimeManager.Fresh]
  all_goals grind

theorem Consistent.setBad (h : p.Consistent) (hfresh : p.timeManager.Fresh) (hleased : ¬ leased addr) :
    Spares leased p { p with
      bad := p.bad.insert addr p.timeManager.nextTimerId
      timeManager := (p.timeManager.addTimer (.bad addr)).2 } := by
  obtain ⟨hagree, htypes, hA, hQ, hB⟩ := h
  have hne {callback : Callback} {id : UInt32} := @lookup_ne_next id _ callback hfresh
  refine ⟨fun a ha hfit => ?_, fun id' a k => ?_, ⟨hagree.groups, hagree.addresses⟩, htypes,
    fun other id' => ?_, fun other id' => ?_, fun a id' => ?_⟩
  · have hne : a ≠ addr := fun heq => hleased (heq ▸ ha)
    exact ⟨hfit.allocated, hfit.not_advertised, hfit.not_quarantined,
      by rw [lookup_insert_eq, if_neg hne]; exact hfit.not_bad, hfit.not_excluded⟩
  · grind [TimeManager.Fresh]
  all_goals grind

/-- A timer of the pool fires, and its entries go. -/
theorem Consistent.run {callback : Callback} (h : p.Consistent)
    (hid : p.timeManager.timers.lookup id = some callback)
    (hlease : ∀ addr key, callback ≠ .lease addr key)
    (honly : ∀ key, callback = .advertised key → p.OnlyOffer key) :
    Spares leased p (callback.run { p with timeManager := p.timeManager.cancelTimer id }).value := by
  obtain ⟨hagree, htypes, hA, hQ, hB⟩ := h
  cases callback with
  | lease addr key => exact absurd rfl (hlease addr key)
  | advertised key =>
    have hdrop := hagree.dropAdvertised htypes (honly key rfl)
    refine ⟨fun a ha hfit => ?_, fun id' a k => ?_, ⟨hdrop.groups, hdrop.addresses⟩, fun other => ?_,
      fun other id' => ?_, fun other id' => ?_, fun a id' => ?_⟩
    · exact ⟨hfit.allocated, fun hmem => hfit.not_advertised (Finset.mem_of_mem_erase hmem),
        hfit.not_quarantined, hfit.not_bad, hfit.not_excluded⟩
    all_goals simp only [Callback.run, value_lockGuard, value_pure, IPv6Pool.dropAdvertised]
    all_goals grind
  | quarantined key =>
    refine ⟨fun a ha hfit => ?_, fun id' a k => ?_, ⟨hagree.groups, hagree.addresses⟩, htypes,
      fun other id' => ?_, fun other id' => ?_, fun a id' => ?_⟩
    · exact ⟨hfit.allocated, hfit.not_advertised,
        fun hmem => hfit.not_quarantined (Finset.mem_of_mem_erase hmem), hfit.not_bad, hfit.not_excluded⟩
    all_goals simp only [Callback.run, value_lockGuard, value_pure]
    all_goals grind
  | bad addr =>
    refine ⟨fun a ha hfit => ?_, fun id' a k => ?_, ⟨hagree.groups, hagree.addresses⟩, htypes,
      fun other id' => ?_, fun other id' => ?_, fun a id' => ?_⟩
    · refine ⟨hfit.allocated, hfit.not_advertised, hfit.not_quarantined, ?_, hfit.not_excluded⟩
      have := hfit.not_bad
      simp only [Callback.run, value_lockGuard, value_pure]
      grind
    all_goals simp only [Callback.run, value_lockGuard, value_pure]
    all_goals grind

end edits

theorem mem_timerIds {κ : Type} [DecidableEq κ] {m : Map κ UInt32} {id : UInt32} :
    id ∈ timerIds m ↔ ∃ k, m.lookup k = some id := by
  rw [timerIds, List.mem_map]
  constructor
  · rintro ⟨⟨k, id⟩, hmem, rfl⟩
    exact ⟨k, AList.mem_lookup_iff.2 hmem⟩
  · rintro ⟨k, hk⟩
    exact ⟨⟨k, id⟩, AList.mem_lookup_iff.1 hk, rfl⟩

theorem lookup_cancelTimers_eq_some {κ : Type} [DecidableEq κ] {m : Map κ UInt32}
    {tm : TimeManager Callback} {kind : κ → Callback} {callback : Callback}
    (hm : ∀ k id, m.lookup k = some id → tm.timers.lookup id = some (kind k))
    (hne : ∀ k, kind k ≠ callback) :
    (tm.cancelTimers (timerIds m)).timers.lookup id = some callback ↔
      tm.timers.lookup id = some callback := by
  rw [TimeManager.lookup_cancelTimers]
  split_ifs with hmem
  · obtain ⟨k, hk⟩ := mem_timerIds.1 hmem
    rw [hm k id hk]
    exact iff_of_false (by simp) fun heq => hne k (Option.some.inj heq)
  · rfl

theorem Consistent.cleanupBadIPs (h : p.Consistent) : Spares leased p p.cleanupBadIPs.value := by
  have hcancel {callback : Callback} {id : UInt32} (hne : ∀ addr, Callback.bad addr ≠ callback) :=
    @lookup_cancelTimers_eq_some id _ _ p.bad _ _ callback h.bad_timer hne
  refine ⟨fun a ha hfit => ?_, fun id' a k => hcancel (by simp), ⟨h.groups, h.addresses⟩, h.type,
    fun other id' h' => (hcancel (by simp)).2 (h.advertised_timer other id' h'),
    fun other id' h' => (hcancel (by simp)).2 (h.quarantined_timer other id' h'), fun a id' h' => by cases h'⟩
  exact ⟨hfit.allocated, hfit.not_advertised, hfit.not_quarantined, rfl, hfit.not_excluded⟩

/-- `adjustPool` clears the pool for this length. -/
def Clears (prefixLen : UInt8) : Prop :=
  ¬ prefixLen > 128 ∧ ¬ (1 : BitVec 128) <<< (128 - prefixLen.toNat) ≤ slaacSafeOffset + 2

instance (prefixLen : UInt8) : Decidable (Clears prefixLen) := inferInstanceAs (Decidable (_ ∧ _))

theorem Consistent.adjustPool {network : BitVec 128} {prefixLen : UInt8} (h : p.Consistent)
    (hleased : Clears prefixLen → ∀ a, ¬ leased a) :
    Spares leased p (p.adjustPool network prefixLen).value.2 := by
  simp only [IPv6Pool.adjustPool, value_ite, value_lockGuard, value_pure]
  split_ifs with hlen hsize
  · exact h.spares
  · exact ⟨fun a ha hfit => ⟨hfit.allocated, hfit.not_advertised, hfit.not_quarantined, hfit.not_bad,
      hfit.not_excluded⟩, fun _ _ _ => Iff.rfl, ⟨h.groups, h.addresses⟩, h.type, h.advertised_timer,
      h.quarantined_timer, h.bad_timer⟩
  · refine ⟨fun a ha => absurd ha (hleased ⟨hlen, hsize⟩ a), fun id' a k => ?_, ⟨by simp, by simp⟩, by simp,
      by simp, by simp, by simp⟩
    have hA {id : UInt32} {callback : Callback} (hne : ∀ key, Callback.advertised key ≠ callback) :=
      @lookup_cancelTimers_eq_some id _ _ p.advertised _ _ callback h.advertised_timer hne
    have hB {id : UInt32} {callback : Callback} (hne : ∀ addr, Callback.bad addr ≠ callback) :=
      @lookup_cancelTimers_eq_some id _ _ p.bad _ _ callback
        (fun addr id hid => (hA (by simp)).2 (h.bad_timer addr id hid)) hne
    have hQ {id : UInt32} {callback : Callback} (hne : ∀ key, Callback.quarantined key ≠ callback) :=
      @lookup_cancelTimers_eq_some id _ _ p.quarantined _ _ callback
        (fun key id hid => (hB (by simp)).2 ((hA (by simp)).2 (h.quarantined_timer key id hid))) hne
    exact (hQ (by simp)).trans ((hB (by simp)).trans (hA (by simp)))

/-! ## Operations of the pool -/

/-- Attempt `i` is the first whose address is not taken. -/
def StopsAt (p : IPv6Pool) (draws : ℕ → BitVec 128) (i : ℕ) : Prop :=
  (p.isTaken (p.generateRandomIP (draws i))).value = false ∧
    ∀ j < i, (p.isTaken (p.generateRandomIP (draws j))).value = true

theorem attempt_eq_some {draws : ℕ → BitVec 128} {attempts i : ℕ}
    (h : (p.attempt draws attempts i).value = some addr) :
    ∃ j < attempts, p.generateRandomIP (draws (i + j)) = addr ∧ (p.isTaken addr).value = false ∧
      ∀ k < j, (p.isTaken (p.generateRandomIP (draws (i + k)))).value = true := by
  induction attempts generalizing i with
  | zero => simp [attempt] at h
  | succ attempts ih =>
    rw [attempt, value_bind, value_ite] at h
    split_ifs at h with htaken
    · obtain ⟨j, hj, haddr, hfree, hbefore⟩ := ih h
      refine ⟨j + 1, by omega, by rw [← haddr, Nat.add_right_comm i 1 j]; rfl, hfree, fun k hk => ?_⟩
      cases k with
      | zero => exact htaken
      | succ k =>
        rw [← Nat.add_assoc, Nat.add_right_comm]
        exact hbefore k (by omega)
    · obtain rfl := Option.some.inj h
      exact ⟨0, by omega, rfl, by simpa using htaken, fun k hk => by omega⟩

theorem stopsAt_of_attempt {draws : ℕ → BitVec 128} {attempts : ℕ}
    (h : (p.attempt draws attempts 0).value = some addr) :
    ∃ i < attempts, p.StopsAt draws i ∧ p.generateRandomIP (draws i) = addr := by
  obtain ⟨i, hi, rfl, hfree, hbefore⟩ := attempt_eq_some h
  simp only [Nat.zero_add] at *
  exact ⟨i, hi, ⟨hfree, hbefore⟩, rfl⟩

theorem value_isTaken (p : IPv6Pool) (addr : BitVec 128) :
    (p.isTaken addr).value = ((decide (addr ∈ p.excluded) || isEUI64 addr) ||
      ((p.bad.lookup addr).isSome || (decide (addr ∈ p.allocated) || decide (addr ∈ p.quarantinedIPs)))) := by
  simp [isTaken, isExcluded, isConflicted, isAllocated, isQuarantined]

theorem not_of_isTaken (h : (p.isTaken addr).value = false) :
    addr ∉ p.excluded ∧ p.bad.lookup addr = none ∧ addr ∉ p.allocated ∧ addr ∉ p.quarantinedIPs := by
  rw [value_isTaken] at h
  simp only [Bool.or_eq_false_iff, decide_eq_false_iff_not, Option.isSome_eq_false_iff,
    Option.isNone_iff_eq_none] at h
  exact ⟨h.1.1, h.2.1, h.2.2⟩

theorem value_isRefused (p : IPv6Pool) (addr : BitVec 128) :
    (p.isRefused addr).value = ((decide (addr ∈ p.excluded) || isEUI64 addr) ||
      ((p.bad.lookup addr).isSome || decide (addr ∈ p.advertisedIPs))) := by
  simp [isRefused, isExcluded, isConflicted, isAdvertised]

theorem not_of_isRefused (h : (p.isRefused addr).value = false) :
    addr ∉ p.excluded ∧ p.bad.lookup addr = none ∧ addr ∉ p.advertisedIPs := by
  rw [value_isRefused] at h
  simp only [Bool.or_eq_false_iff, decide_eq_false_iff_not, Option.isSome_eq_false_iff,
    Option.isNone_iff_eq_none] at h
  exact ⟨h.1.1, h.2⟩

def Grantable (p : IPv6Pool) (addr : BitVec 128) : Prop :=
  p.withinRange addr = true ∧ (p.isRefused addr).value = false

theorem allocate_cases (p : IPv6Pool) (draws : ℕ → BitVec 128) :
    (p.allocate draws).value = (0, p) ∨ ∃ i < maxGenerationAttempts, p.StopsAt draws i ∧
      ∃ addr, addr = p.generateRandomIP (draws i) ∧
        (p.allocate draws).value = (addr, { p with allocated := insert addr p.allocated }) := by
  rw [allocate, value_lockGuard, value_bind]
  cases hattempt : (p.attempt draws maxGenerationAttempts 0).value with
  | none => exact .inl rfl
  | some addr =>
    obtain ⟨i, hi, hstop, haddr⟩ := stopsAt_of_attempt hattempt
    exact .inr ⟨i, hi, hstop, addr, haddr.symm, rfl⟩

theorem Consistent.allocate (h : p.Consistent) (draws : ℕ → BitVec 128) :
    Spares leased p (p.allocate draws).value.2 := by
  obtain hvalue | ⟨i, hi, hstop, addr, haddr, hvalue⟩ := p.allocate_cases draws
  · rw [hvalue]
    exact h.spares
  · rw [hvalue]
    exact h.setAllocated fun _ _ hmem => Finset.mem_insert_of_mem hmem

theorem Consistent.allocateAdvertised {key : IAKey} (h : p.Consistent) (hfresh : p.timeManager.Fresh)
    (draws : ℕ → BitVec 128) (hleased : ∀ a, leased a → a ∈ p.allocated) :
    Spares leased p (p.allocateAdvertised key draws).value.2 := by
  rw [IPv6Pool.allocateAdvertised, value_lockGuard, value_bind]
  cases hattempt : (p.attempt draws maxGenerationAttempts 0).value with
  | none => exact h.spares
  | some addr =>
    obtain ⟨i, hi, hstop, rfl⟩ := stopsAt_of_attempt hattempt
    have hfree := (not_of_isTaken hstop.1).2.2.1
    exact h.advertise rfl hfresh fun ha => hfree (hleased _ ha)

theorem fresh_takeQuarantined (h : p.timeManager.Fresh) (freed : BitVec 128) :
    (p.takeQuarantined key freed).timeManager.Fresh := by
  rw [takeQuarantined]
  cases p.quarantined.lookup key with
  | none => exact h
  | some id => exact h.cancelTimer id

theorem grantable_takeQuarantined (freed : BitVec 128) :
    (p.takeQuarantined key freed).Grantable addr ↔ p.Grantable addr := by
  rw [takeQuarantined]
  cases p.quarantined.lookup key <;> exact Iff.rfl

theorem Consistent.request (h : p.Consistent) (freed : BitVec 128)
    {take : IPv6Pool → IALeaseKey → IPv6Pool} :
    ∃ code q, (p.request key freed take).value = (code, q) ∧
      (code ≠ .Success ∧ Spares leased p q ∨
        code = .Success ∧ p.Grantable key.address ∧ q = take (p.takeQuarantined key freed) key) := by
  have hkeeps := @Consistent.takeQuarantined p key leased h freed
  simp only [IPv6Pool.request, value_lockGuard]
  split_ifs with hrange
  · exact ⟨_, _, rfl, .inl ⟨by simp, hkeeps⟩⟩
  · simp only [value_bind, value_ite]
    split_ifs with hrefused
    · exact ⟨_, _, rfl, .inl ⟨by simp, hkeeps⟩⟩
    · have hgrant : (p.takeQuarantined key freed).Grantable key.address :=
        ⟨by simpa using hrange, by simpa using hrefused⟩
      exact ⟨_, _, rfl, .inr ⟨rfl, (grantable_takeQuarantined freed).1 hgrant, rfl⟩⟩

theorem Consistent.activateAdvertised (h : p.Consistent)
    (honly : (p.advertised.lookup key).isSome → p.OnlyOffer key) :
    Spares leased p (p.activateAdvertised key).value.2 := by
  rw [IPv6Pool.activateAdvertised, value_lockGuard]
  cases hid : p.advertised.lookup key with
  | none => exact h.spares
  | some id =>
    have hdrop := @Consistent.cancelAdvertised p key id leased h hid (honly (by rw [hid]; rfl))
    exact hdrop.trans (hdrop.consistent.setAllocated fun _ _ hmem => Finset.mem_insert_of_mem hmem)

theorem Consistent.release (h : p.Consistent) (hleased : ¬ leased addr) :
    Spares leased p (p.release addr).value :=
  h.setAllocated fun _ ha hmem => Finset.mem_erase.2 ⟨fun heq => hleased (heq ▸ ha), hmem⟩

theorem Consistent.expire (h : p.Consistent) (hfresh : p.timeManager.Fresh)
    (hleased : key.address ∈ p.allocated → ¬ leased key.address) :
    Spares leased p (p.expire key).value := by
  simp only [IPv6Pool.expire, value_lockGuard, value_bind, isAllocated, value_pure, decide_eq_true_eq,
    value_ite]
  split_ifs with hmem
  · exact h.setQuarantined hfresh (hleased hmem)
  · exact h.spares

theorem Consistent.setConflicted (h : p.Consistent) (hfresh : p.timeManager.Fresh)
    (honly : (p.advertised.lookup key).isSome → p.OnlyOffer key)
    (hleased : ∀ a, leased a → a ∉ p.advertisedIPs) :
    Spares leased p (p.setConflicted key).value.2 := by
  simp only [IPv6Pool.setConflicted, value_lockGuard, value_bind, isAdvertisedKey, value_pure]
  cases hsome : (p.advertised.lookup key).isSome with
  | false => exact h.spares
  | true =>
    have hdrop := @Consistent.dropAdvertised p key leased h (honly hsome)
    refine hdrop.trans (hdrop.consistent.setBad hfresh fun ha => ?_)
    exact hleased _ ha ((h.addresses _).2 ⟨key, hsome, rfl⟩)

end IPv6Pool

namespace IPv6LeaseManager

open IPv6Pool (Callback OnlyOffer Grantable Spares Consistent Clears maxGenerationAttempts
  not_of_isTaken not_of_isRefused stopsAt_of_attempt lookup_ne_next)

/-! ## Runs -/

/-- The operations of the pool and of its lease manager, and the firing of timers. -/
inductive Op where
  | allocate (draws : ℕ → BitVec 128)
  | allocateAdvertised (key : IAKey) (draws : ℕ → BitVec 128)
  | allocateRequestedAdvertised (key : IALeaseKey) (freed : BitVec 128)
  | allocateRequested (key : IALeaseKey) (freed : BitVec 128)
  | activateAdvertised (key : IALeaseKey)
  | clearAdvertisedIP (key : IALeaseKey)
  | release (addr : BitVec 128)
  | expire (key : IALeaseKey)
  | excludeIP (addr : BitVec 128)
  | removeExclusion (addr : BitVec 128)
  | setConflicted (key : IALeaseKey)
  | cleanupBadIPs
  | adjustPool (network : BitVec 128) (prefixLen : UInt8)
  | setLeaseManager
  | createLease (key : IAKey) (draws : ℕ → BitVec 128)
  | createLeaseFromAdvertised (addr : BitVec 128) (key : IAKey)
  | createLeaseFromRequest (addr : BitVec 128) (key : IAKey) (freed : BitVec 128)
  | renewLease (addr : BitVec 128) (key : IAKey)
  | rebindLease (addr : BitVec 128) (key : IAKey)
  | releaseLease (addr : BitVec 128) (key : IAKey)
  | declineLease (addr : BitVec 128) (key : IAKey)
  | expireLease (addr : BitVec 128) (key : IAKey)
  | fireTimer (timerId : UInt32)

def step (m : IPv6LeaseManager) : Op → IPv6LeaseManager
  | .allocate draws => { m with pool := (m.pool.allocate draws).value.2 }
  | .allocateAdvertised key draws => { m with pool := (m.pool.allocateAdvertised key draws).value.2 }
  | .allocateRequestedAdvertised key freed =>
    { m with pool := (m.pool.allocateRequestedAdvertised key freed).value.2 }
  | .allocateRequested key freed => { m with pool := (m.pool.allocateRequested key freed).value.2 }
  | .activateAdvertised key => { m with pool := (m.pool.activateAdvertised key).value.2 }
  | .clearAdvertisedIP key => { m with pool := (m.pool.clearAdvertisedIP key).value }
  | .release addr => { m with pool := (m.pool.release addr).value }
  | .expire key => { m with pool := (m.pool.expire key).value }
  | .excludeIP addr => { m with pool := (m.pool.excludeIP addr).value.2 }
  | .removeExclusion addr => { m with pool := (m.pool.removeExclusion addr).value.2 }
  | .setConflicted key => { m with pool := (m.pool.setConflicted key).value.2 }
  | .cleanupBadIPs => { m with pool := m.pool.cleanupBadIPs.value }
  | .adjustPool network prefixLen => { m with pool := (m.pool.adjustPool network prefixLen).value.2 }
  | .setLeaseManager => { m with pool := m.pool.setLeaseManager }
  | .createLease key draws => (m.createLease key draws).value.2
  | .createLeaseFromAdvertised addr key => (m.createLeaseFromAdvertised addr key).value.2
  | .createLeaseFromRequest addr key freed => (m.createLeaseFromRequest addr key freed).value.2
  | .renewLease addr key => (m.renewLease addr key).value.2
  | .rebindLease addr key => (m.rebindLease addr key).value.2
  | .releaseLease addr key => (m.releaseLease addr key).value.2
  | .declineLease addr key => (m.declineLease addr key).value.2
  | .expireLease addr key => (m.expireLease addr key).value
  | .fireTimer id => (m.fireTimer id).value

/-! ## Exclusivity -/

/-- Leases and their keys agree, no address is leased to two associations, a leased address is
    allocated and nothing else, and the containers of offers agree. -/
structure Exclusive (m : IPv6LeaseManager) : Prop where
  keys_iff : ∀ addr key, m.leaseKeys.lookup addr = some key ↔ addr ∈ groupOf m.leases key
  one_association : ∀ addr key key',
    addr ∈ groupOf m.leases key → addr ∈ groupOf m.leases key' → key = key'
  fit : ∀ addr key, addr ∈ groupOf m.leases key → m.pool.Fit addr
  offers : m.pool.Agree

def Leased (m : IPv6LeaseManager) (addr : BitVec 128) : Prop := (m.leaseKeys.lookup addr).isSome

/-- The invariant. -/
structure Linked (m : IPv6LeaseManager) : Prop where
  keys_iff : ∀ addr key, m.leaseKeys.lookup addr = some key ↔ addr ∈ groupOf m.leases key
  timer_iff : ∀ id addr key, m.pool.timeManager.timers.lookup id = some (.lease addr key) ↔
    m.leaseTimerIDs.lookup addr = some id ∧ m.leaseKeys.lookup addr = some key
  timer_some : ∀ addr, (m.leaseTimerIDs.lookup addr).isSome ↔ (m.leaseKeys.lookup addr).isSome
  fit : ∀ addr, m.Leased addr → m.pool.Fit addr
  consistent : m.pool.Consistent

variable {m : IPv6LeaseManager} {q : IPv6Pool} {addr : BitVec 128} {key : IAKey} {id : UInt32}

theorem Linked.exclusive (h : m.Linked) : m.Exclusive where
  keys_iff := h.keys_iff
  one_association addr key key' hkey hkey' :=
    Option.some.inj (((h.keys_iff addr key).2 hkey).symm.trans ((h.keys_iff addr key').2 hkey'))
  fit addr key hkey := h.fit addr (by rw [Leased, (h.keys_iff addr key).2 hkey]; rfl)
  offers := h.consistent.toAgree

/-- The steps that keep the bindings.  The tests are those that the operation leaves out; new
    timers get an id that no pending timer has. -/
def Sound (m : IPv6LeaseManager) (op : Op) : Prop :=
  m.pool.timeManager.Fresh ∧
    match op with
    | .allocateRequestedAdvertised key _ =>
      m.pool.Grantable key.address → key.type = .IA_NA ∧ ¬ m.Leased key.address
    | .activateAdvertised key | .setConflicted key =>
      (m.pool.advertised.lookup key).isSome → m.pool.OnlyOffer key
    | .clearAdvertisedIP key => m.pool.OnlyOffer key
    | .release addr | .excludeIP addr => ¬ m.Leased addr
    | .expire key => key.address ∈ m.pool.allocated → ¬ m.Leased key.address
    | .adjustPool _ prefixLen => Clears prefixLen → m.leaseKeys.keys = []
    | .createLease _ draws => ∀ i < maxGenerationAttempts, m.pool.StopsAt draws i →
      m.pool.generateRandomIP (draws i) ≠ 0 →
        m.pool.generateRandomIP (draws i) ∉ m.pool.advertisedIPs
    | .createLeaseFromAdvertised addr key =>
      m.leaseKeys.lookup addr = none → (m.pool.advertised.lookup (key.lease addr)).isSome →
        m.pool.OnlyOffer (key.lease addr) ∧ addr ∉ m.pool.quarantinedIPs ∧
          m.pool.bad.lookup addr = none ∧ addr ∉ m.pool.excluded
    | .createLeaseFromRequest addr key freed =>
      m.leaseKeys.lookup addr = none → m.pool.Grantable addr → addr ∈ m.pool.quarantinedIPs →
        (m.pool.quarantined.lookup (key.lease addr)).isSome ∧ freed = addr
    | .declineLease addr key =>
      (m.pool.advertised.lookup (key.lease addr)).isSome → m.pool.OnlyOffer (key.lease addr)
    | .expireLease addr key =>
      (m.leases.lookup key).isSome → (m.leaseTimerIDs.lookup addr).isSome →
        m.leaseKeys.lookup addr = some key
    | .fireTimer id => ∀ callback ∈ m.pool.timeManager.timers.lookup id,
      ∀ key, callback = .advertised key → m.pool.OnlyOffer key
    | _ => True

/-! ## What the operations do to the bindings -/

theorem Linked.spares (h : m.Linked) (hq : Spares m.Leased m.pool q) : { m with pool := q }.Linked where
  keys_iff := h.keys_iff
  timer_iff id addr key := (hq.lease_timer id addr key).trans (h.timer_iff id addr key)
  timer_some := h.timer_some
  fit addr haddr := hq.fit addr haddr (h.fit addr haddr)
  consistent := hq.consistent

section edits

attribute [local grind =] lookup_insert_eq lookup_erase_eq TimeManager.lookup_addTimer
  TimeManager.lookup_cancelTimer mem_groupOf_insertInto mem_groupOf_eraseFrom

theorem consistent_addLease {p : IPv6Pool} (h : p.Consistent) (hfresh : p.timeManager.Fresh) :
    { p with timeManager := (p.timeManager.addTimer (.lease addr key)).2 }.Consistent := by
  have hne {callback : Callback} {id : UInt32} := @lookup_ne_next id _ callback hfresh
  obtain ⟨hagree, htypes, hA, hQ, hB⟩ := h
  refine ⟨⟨hagree.groups, hagree.addresses⟩, htypes, fun other id' => ?_, fun other id' => ?_, fun a id' => ?_⟩ <;>
    grind

theorem consistent_cancelLease {p : IPv6Pool} (h : p.Consistent)
    (hid : p.timeManager.timers.lookup id = some (.lease addr key)) :
    { p with timeManager := p.timeManager.cancelTimer id }.Consistent := by
  obtain ⟨hagree, htypes, hA, hQ, hB⟩ := h
  refine ⟨⟨hagree.groups, hagree.addresses⟩, htypes, fun other id' => ?_, fun other id' => ?_, fun a id' => ?_⟩ <;>
    grind

theorem Linked.timer_of_key (h : m.Linked) (hkey : m.leaseKeys.lookup addr = some key) :
    ∃ id, m.leaseTimerIDs.lookup addr = some id ∧
      m.pool.timeManager.timers.lookup id = some (.lease addr key) := by
  obtain ⟨id, hid⟩ := Option.isSome_iff_exists.1 ((h.timer_some addr).2 (by rw [hkey]; rfl))
  exact ⟨id, hid, (h.timer_iff id addr key).2 ⟨hid, hkey⟩⟩

theorem Linked.restart (h : m.Linked) (hkey : m.leaseKeys.lookup addr = some key)
    (hid : m.leaseTimerIDs.lookup addr = some id) (hfresh : m.pool.timeManager.Fresh) :
    ((m.cancelTimer id).startLeaseTimer addr key).Linked := by
  have htimer := (h.timer_iff id addr key).2 ⟨hid, hkey⟩
  have hfresh' := hfresh.cancelTimer id
  have hcons := @consistent_addLease addr key _
    (consistent_cancelLease h.consistent htimer) hfresh'
  obtain ⟨hkeys, htimers, hsome, hfit, -⟩ := h
  refine ⟨hkeys, fun id' a k => ?_, fun a => ?_, fun a ha => ?_, ?_⟩
  · simp only [startLeaseTimer, cancelTimer, TimeManager.addTimer_fst,
      TimeManager.nextTimerId_cancelTimer]
    have hnone : m.pool.timeManager.timers.lookup m.pool.timeManager.nextTimerId = none := hfresh
    grind [TimeManager.nextTimerId_cancelTimer]
  · simp only [startLeaseTimer, cancelTimer]
    grind
  · exact ⟨(hfit a ha).allocated, (hfit a ha).not_advertised, (hfit a ha).not_quarantined,
      (hfit a ha).not_bad, (hfit a ha).not_excluded⟩
  · exact hcons

/-- A lease is entered for an address that the pool has found fit. -/
theorem Linked.enter (h : m.Linked) (hnone : m.leaseKeys.lookup addr = none)
    (hq : Spares m.Leased m.pool q) (hfit : q.Fit addr) (hfresh : q.timeManager.Fresh) :
    (({ m with pool := q }.startLeaseTimer addr key).enterLease addr key).Linked := by
  have hcons := @consistent_addLease addr key _ hq.consistent hfresh
  have hnext : q.timeManager.timers.lookup q.timeManager.nextTimerId = none := hfresh
  obtain ⟨hkeys, htimers, hsome, hfits, -⟩ := h.spares hq
  refine ⟨fun a k => ?_, fun id' a k => ?_, fun a => ?_, fun a ha => ?_, hcons⟩
  · simp only [startLeaseTimer, enterLease]
    grind
  · simp only [startLeaseTimer, enterLease, TimeManager.addTimer_fst]
    grind
  · simp only [startLeaseTimer, enterLease]
    grind
  · have hfit' : q.Fit a := by
      by_cases heq : a = addr
      · rw [heq]
        exact hfit
      · refine hfits a ?_
        simpa [Leased, startLeaseTimer, enterLease, lookup_insert_eq, heq] using ha
    exact ⟨hfit'.allocated, hfit'.not_advertised, hfit'.not_quarantined, hfit'.not_bad,
      hfit'.not_excluded⟩

/-- A lease is erased whose timer is off, after the pool has had its way with the address. -/
theorem Linked.drop (h : m.Linked) (hkey : m.leaseKeys.lookup addr = some key)
    (hid : m.leaseTimerIDs.lookup addr = some id)
    (hq : Spares (fun a => m.Leased a ∧ a ≠ addr)
      { m.pool with timeManager := m.pool.timeManager.cancelTimer id } q) :
    ({ m with pool := q }.dropLease addr key).Linked := by
  have htimer := (h.timer_iff id addr key).2 ⟨hid, hkey⟩
  have hlease := hq.lease_timer
  obtain ⟨hkeys, htimers, hsome, hfits, -⟩ := h
  refine ⟨fun a k => ?_, fun id' a k => ?_, fun a => ?_, fun a ha => ?_, hq.consistent⟩
  · simp only [dropLease]
    grind
  · simp only [dropLease]
    grind
  · simp only [dropLease]
    grind
  · have hleased : m.Leased a ∧ a ≠ addr := by
      simp only [Leased, dropLease, lookup_erase_eq] at ha ⊢
      split_ifs at ha with heq
      · cases ha
      · exact ⟨ha, heq⟩
    have hfit := hfits a hleased.1
    exact hq.fit a hleased ⟨hfit.allocated, hfit.not_advertised, hfit.not_quarantined, hfit.not_bad,
      hfit.not_excluded⟩

end edits

theorem Linked.createLease {draws : ℕ → BitVec 128} (h : m.Linked) (hs : m.Sound (.createLease key draws)) :
    (m.createLease key draws).value.2.Linked := by
  obtain ⟨hfresh, hdraw⟩ := hs
  have hkeeps := @Consistent.allocate m.pool m.Leased h.consistent draws
  rw [IPv6LeaseManager.createLease, value_lockGuard, value_bind]
  obtain hvalue | ⟨i, hi, hstop, addr, haddr, hvalue⟩ := m.pool.allocate_cases draws
  · rw [hvalue]
    exact h
  · rw [hvalue] at hkeeps ⊢
    simp only [value_ite]
    split_ifs with hzero
    · exact h.spares hkeeps
    · obtain ⟨hexcluded, hbad, hallocated, hquarantined⟩ := not_of_isTaken hstop.1
      have hadvertised := hdraw i hi hstop
      rw [← haddr] at hexcluded hbad hallocated hquarantined hadvertised
      have hnone : m.leaseKeys.lookup addr = none := by
        by_contra hsome
        exact hallocated (h.fit addr (Option.isSome_iff_ne_none.2 hsome)).allocated
      exact h.enter hnone hkeeps
        ⟨Finset.mem_insert_self .., hadvertised hzero, hquarantined, hbad, hexcluded⟩ hfresh

theorem Linked.createLeaseFrom {take : IPv6Pool → Locked Mutex (Dhcpv6StatusCode × IPv6Pool)}
    (h : m.Linked) (hfresh : m.pool.timeManager.Fresh)
    (htake : m.leaseKeys.lookup addr = none → Spares m.Leased m.pool (take m.pool).value.2 ∧
      ((take m.pool).value.1 = .Success →
        (take m.pool).value.2.Fit addr ∧ (take m.pool).value.2.timeManager.Fresh)) :
    (m.createLeaseFrom addr key take).value.2.Linked := by
  rw [IPv6LeaseManager.createLeaseFrom, value_lockGuard]
  cases hkey : m.leaseKeys.lookup addr with
  | some owner =>
    obtain ⟨id, hid, -⟩ := h.timer_of_key hkey
    simp only [hid, value_ite]
    split_ifs with heq
    · subst heq
      exact h.restart hkey hid hfresh
    · exact h
  | none =>
    obtain ⟨hspares, hsuccess⟩ := htake hkey
    simp only [value_bind, value_ite]
    split_ifs with hcode
    · exact h.spares hspares
    · obtain ⟨hfit, hfresh'⟩ := hsuccess (not_not.1 hcode)
      exact h.enter hkey hspares hfit hfresh'

theorem Linked.createLeaseFromAdvertised (h : m.Linked)
    (hs : m.Sound (.createLeaseFromAdvertised addr key)) :
    (m.createLeaseFromAdvertised addr key).value.2.Linked := by
  obtain ⟨hfresh, hfree⟩ := hs
  refine h.createLeaseFrom hfresh fun hnone => ?_
  have hspares := @Consistent.activateAdvertised m.pool (key.lease addr) m.Leased h.consistent
    fun hsome => (hfree hnone hsome).1
  refine ⟨hspares, fun hsuccess => ?_⟩
  simp only [value_bind, value_pure, IPv6Pool.activateAdvertised, value_lockGuard] at hsuccess ⊢
  cases hid : m.pool.advertised.lookup (key.lease addr) with
  | none => simp [hid] at hsuccess
  | some id =>
    obtain ⟨-, hquarantined, hbad, hexcluded⟩ := hfree hnone (by rw [hid]; rfl)
    refine ⟨⟨Finset.mem_insert_self .., fun hmem => (Finset.mem_erase.1 hmem).1 rfl, hquarantined, hbad,
      hexcluded⟩, ?_⟩
    exact hfresh.cancelTimer id

theorem Linked.createLeaseFromRequest {freed : BitVec 128} (h : m.Linked)
    (hs : m.Sound (.createLeaseFromRequest addr key freed)) :
    (m.createLeaseFromRequest addr key freed).value.2.Linked := by
  obtain ⟨hfresh, hfree⟩ := hs
  refine h.createLeaseFrom hfresh fun hnone => ?_
  obtain ⟨code, q, hq, ⟨hcode, hspares⟩ | ⟨rfl, hgrant, rfl⟩⟩ :=
    @Consistent.request m.pool (key.lease addr) m.Leased h.consistent freed
      fun p key => { p with allocated := insert key.address p.allocated }
  · rw [IPv6Pool.allocateRequested, hq]
    exact ⟨hspares, fun h => absurd h hcode⟩
  · have hkeeps := @Consistent.takeQuarantined m.pool (key.lease addr) m.Leased h.consistent freed
    rw [IPv6Pool.allocateRequested, hq]
    refine ⟨hkeeps.trans (hkeeps.consistent.setAllocated fun _ _ hmem => Finset.mem_insert_of_mem hmem),
      fun _ => ⟨?_, IPv6Pool.fresh_takeQuarantined hfresh freed⟩⟩
    obtain ⟨hexcluded, hbad, hadvertised⟩ := not_of_isRefused hgrant.2
    have hquarantined := hfree hnone hgrant
    rw [IPv6Pool.takeQuarantined]
    cases hid : m.pool.quarantined.lookup (key.lease addr) with
    | none =>
      refine ⟨Finset.mem_insert_self .., hadvertised, fun hmem => ?_, hbad, hexcluded⟩
      simpa [hid] using hquarantined hmem
    | some id =>
      refine ⟨Finset.mem_insert_self .., hadvertised, fun hmem => ?_, hbad, hexcluded⟩
      obtain ⟨hne, hmem⟩ := Finset.mem_erase.1 hmem
      exact hne (hquarantined hmem).2.symm

theorem Linked.of_leaseTimer (h : m.Linked) (hid : m.leaseTimer addr key = some id) :
    m.leaseKeys.lookup addr = some key ∧ m.leaseTimerIDs.lookup addr = some id := by
  rw [leaseTimer] at hid
  split_ifs at hid with hmem
  exact ⟨(h.keys_iff addr key).2 hmem, hid⟩

theorem Linked.renewLease (h : m.Linked) (hfresh : m.pool.timeManager.Fresh) :
    (m.renewLease addr key).value.2.Linked := by
  rw [IPv6LeaseManager.renewLease, value_lockGuard]
  cases hid : m.leaseTimer addr key with
  | none => exact h
  | some id => exact h.restart (h.of_leaseTimer hid).1 (h.of_leaseTimer hid).2 hfresh

theorem Linked.releaseLease (h : m.Linked) : (m.releaseLease addr key).value.2.Linked := by
  rw [IPv6LeaseManager.releaseLease, value_lockGuard]
  cases hid : m.leaseTimer addr key with
  | none => exact h
  | some id =>
    obtain ⟨hkey, hid⟩ := h.of_leaseTimer hid
    have hcons := consistent_cancelLease h.consistent ((h.timer_iff id addr key).2 ⟨hid, hkey⟩)
    exact h.drop hkey hid (hcons.release fun hleased => hleased.2 rfl)

theorem Linked.expire (h : m.Linked) (hkey : m.leaseKeys.lookup addr = some key)
    (hid : m.leaseTimerIDs.lookup addr = some id) (hfresh : m.pool.timeManager.Fresh) :
    ({ m with pool :=
      ((m.cancelTimer id).pool.expire (key.lease addr)).value }.dropLease addr key).Linked := by
  have hcons := consistent_cancelLease h.consistent ((h.timer_iff id addr key).2 ⟨hid, hkey⟩)
  exact h.drop hkey hid (hcons.expire (hfresh.cancelTimer id) fun _ hleased => hleased.2 rfl)

theorem Linked.expireLease (h : m.Linked) (hs : m.Sound (.expireLease addr key)) :
    (m.expireLease addr key).value.Linked := by
  obtain ⟨hfresh, hown⟩ := hs
  rw [IPv6LeaseManager.expireLease, value_lockGuard]
  cases hlease : m.leases.lookup key with
  | none => exact h
  | some group =>
    cases hid : m.leaseTimerIDs.lookup addr with
    | none => exact h
    | some id => exact h.expire (hown (by rw [hlease]; rfl) (by rw [hid]; rfl)) hid hfresh

theorem Linked.fireTimer (h : m.Linked) (hs : m.Sound (.fireTimer id)) :
    (m.fireTimer id).value.Linked := by
  obtain ⟨hfresh, honly⟩ := hs
  rw [IPv6LeaseManager.fireTimer]
  cases hfire : m.pool.timeManager.fire id with
  | none => exact h
  | some fired =>
    obtain ⟨callback, tm⟩ := fired
    obtain ⟨hlookup, rfl⟩ := TimeManager.fire_eq_some.1 hfire
    cases callback with
    | lease addr key =>
      obtain ⟨hid, hkey⟩ := (h.timer_iff id addr key).1 hlookup
      have hgroup : (m.leases.lookup key).isSome := by
        have hmem := (h.keys_iff addr key).1 hkey
        rw [groupOf] at hmem
        cases hlease : m.leases.lookup key with
        | none => simp [hlease] at hmem
        | some group => rfl
      obtain ⟨group, hlease⟩ := Option.isSome_iff_exists.1 hgroup
      have hexpire := h.expire hkey hid hfresh
      -- the timer is cancelled once more, after it has fired
      have hidem : (m.pool.timeManager.cancelTimer id).cancelTimer id = m.pool.timeManager.cancelTimer id :=
        TimeManager.cancelTimer_self _ _
      simp only [IPv6LeaseManager.expireLease, value_lockGuard, hlease, hid, value_bind, value_pure,
        cancelTimer, hidem]
      exact hexpire
    | advertised key => exact h.spares (h.consistent.run hlookup (by simp) (honly _ hlookup))
    | quarantined key => exact h.spares (h.consistent.run hlookup (by simp) (by simp))
    | bad addr => exact h.spares (h.consistent.run hlookup (by simp) (by simp))

/-! ## Runs -/

theorem Linked.step {op : Op} (h : m.Linked) (hs : m.Sound op) : (m.step op).Linked := by
  obtain ⟨hfresh, hop⟩ := id hs
  have hc := h.consistent
  cases op with
  | allocate draws => exact h.spares (hc.allocate draws)
  | allocateAdvertised key draws =>
    exact h.spares (hc.allocateAdvertised hfresh draws fun a ha => (h.fit a ha).allocated)
  | allocateRequestedAdvertised key freed =>
    refine h.spares ?_
    obtain ⟨code, q, hq, ⟨-, hspares⟩ | ⟨-, hgrant, rfl⟩⟩ :=
      @Consistent.request m.pool key m.Leased hc freed IPv6Pool.advertise
    · rw [IPv6Pool.allocateRequestedAdvertised, hq]
      exact hspares
    · obtain ⟨htype, hleased⟩ := hop hgrant
      have hkeeps := @Consistent.takeQuarantined m.pool key m.Leased hc freed
      rw [IPv6Pool.allocateRequestedAdvertised, hq]
      exact hkeeps.trans (hkeeps.consistent.advertise htype
        (IPv6Pool.fresh_takeQuarantined hfresh freed) hleased)
  | allocateRequested key freed =>
    refine h.spares ?_
    obtain ⟨code, q, hq, ⟨-, hspares⟩ | ⟨-, hgrant, rfl⟩⟩ :=
      @Consistent.request m.pool key m.Leased hc freed
        fun p key => { p with allocated := insert key.address p.allocated }
    · rw [IPv6Pool.allocateRequested, hq]
      exact hspares
    · have hkeeps := @Consistent.takeQuarantined m.pool key m.Leased hc freed
      rw [IPv6Pool.allocateRequested, hq]
      exact hkeeps.trans (hkeeps.consistent.setAllocated fun _ _ hmem => Finset.mem_insert_of_mem hmem)
  | activateAdvertised key => exact h.spares (hc.activateAdvertised hop)
  | clearAdvertisedIP key => exact h.spares (hc.dropAdvertised hop)
  | release addr => exact h.spares (hc.release hop)
  | expire key => exact h.spares (hc.expire hfresh hop)
  | excludeIP addr =>
    refine h.spares (hc.setExcluded fun a ha hmem => ?_)
    exact fun hins => (Finset.mem_insert.1 hins).elim (fun heq => hop (heq ▸ ha)) hmem
  | removeExclusion addr =>
    exact h.spares (hc.setExcluded fun _ _ hmem hin => hmem (Finset.mem_of_mem_erase hin))
  | setConflicted key =>
    exact h.spares (hc.setConflicted hfresh hop fun a ha => (h.fit a ha).not_advertised)
  | cleanupBadIPs => exact h.spares hc.cleanupBadIPs
  | adjustPool network prefixLen =>
    refine h.spares (hc.adjustPool fun hclears a ha => ?_)
    have hmem := AList.mem_keys.1 (AList.lookup_isSome.1 ha)
    rw [hop hclears] at hmem
    cases hmem
  | setLeaseManager =>
    exact h.spares ⟨fun a ha hfit => ⟨hfit.allocated, hfit.not_advertised, hfit.not_quarantined,
      hfit.not_bad, hfit.not_excluded⟩, fun _ _ _ => Iff.rfl,
      ⟨⟨hc.groups, hc.addresses⟩, hc.type, hc.advertised_timer, hc.quarantined_timer, hc.bad_timer⟩⟩
  | createLease key draws => exact h.createLease hs
  | createLeaseFromAdvertised addr key => exact h.createLeaseFromAdvertised hs
  | createLeaseFromRequest addr key freed => exact h.createLeaseFromRequest hs
  | renewLease addr key => exact h.renewLease hfresh
  | rebindLease addr key => exact h.renewLease hfresh
  | releaseLease addr key => exact h.releaseLease
  | declineLease addr key =>
    exact h.spares (hc.setConflicted hfresh hop fun a ha => (h.fit a ha).not_advertised)
  | expireLease addr key => exact h.expireLease hs
  | fireTimer id => exact h.fireTimer hs

/-- The lease manager as it is constructed, with its pool. -/
def new (nextTimerId : UInt32) : IPv6LeaseManager := { pool := { timeManager := { nextTimerId } } }

theorem linked_new (nextTimerId : UInt32) : (new nextTimerId).Linked := by
  refine ⟨fun _ _ => ?_, fun _ _ _ => ?_, fun _ => ?_, fun _ ha => ?_, ⟨⟨fun _ => ?_, fun _ => ?_⟩,
    fun _ => ?_, fun _ _ => ?_, fun _ _ => ?_, fun _ _ => ?_⟩⟩
  · simp [new]
  · simp [new]
  · simp [new]
  · cases ha
  all_goals simp [new]

/-- **Exclusivity**: in every run whose steps are sound, every state is exclusive. -/
theorem leases_exclusive_of_sound {nextTimerId : UInt32} {ops : List Op}
    (h : Along Sound step (new nextTimerId) ops) :
    ∀ before, before <+: ops → (runFrom step (new nextTimerId) before).Exclusive := by
  rintro before ⟨after, rfl⟩
  have hlinked := Along.invariant (I := Linked) (fun _ _ h hs => h.step hs) (linked_new nextTimerId)
    (along_append.1 h).1
  exact hlinked.exclusive

/-! ## A run of one address -/

instance (p : IPv6Pool) (key : IALeaseKey) : Decidable (p.OnlyOffer key) :=
  inferInstanceAs (Decidable (∀ other ∈ p.advertised.keys, _))

instance (p : IPv6Pool) (addr : BitVec 128) : Decidable (p.Grantable addr) :=
  inferInstanceAs (Decidable (_ ∧ _))

instance (p : IPv6Pool) (draws : ℕ → BitVec 128) (i : ℕ) : Decidable (p.StopsAt draws i) :=
  inferInstanceAs (Decidable (_ ∧ _))

instance (m : IPv6LeaseManager) (addr : BitVec 128) : Decidable (m.Leased addr) :=
  inferInstanceAs (Decidable (_ = true))

/-- The callback of an offer may run. -/
instance (p : IPv6Pool) : DecidablePred fun callback : Callback =>
    ∀ key, callback = .advertised key → p.OnlyOffer key
  | .advertised key => decidable_of_iff (p.OnlyOffer key) (by simp)
  | .quarantined _ | .bad _ | .lease .. => isTrue (by simp)

instance (m : IPv6LeaseManager) : DecidablePred m.Sound
  | .allocateRequestedAdvertised .. | .activateAdvertised _ | .setConflicted _ |
    .clearAdvertisedIP _ | .release _ | .excludeIP _ | .expire _ | .adjustPool .. | .createLease .. |
    .createLeaseFromAdvertised .. | .createLeaseFromRequest .. | .declineLease .. | .expireLease .. |
    .fireTimer _ => inferInstanceAs (Decidable (_ ∧ _))
  | .allocate _ | .allocateAdvertised .. | .allocateRequested .. | .removeExclusion _ |
    .cleanupBadIPs | .setLeaseManager | .renewLease .. | .rebindLease .. | .releaseLease .. =>
    inferInstanceAs (Decidable (_ ∧ True))

def network : BitVec 128 := 0x20010DB8000000000000000000000000

def client (n : UInt8) : IAKey := { duid := [n], iaid := 1 }

/-- An offer is taken up, renewed and released; another lease expires. -/
theorem exclusive_offer :
    (runFrom step (new 1) [.setLeaseManager, .adjustPool network 64,
      .allocateRequestedAdvertised ((client 1).lease (network + 5)) 0,
      .createLeaseFromAdvertised (network + 5) (client 1), .renewLease (network + 5) (client 1),
      .releaseLease (network + 5) (client 1), .createLeaseFromRequest (network + 6) (client 2) 0,
      .fireTimer 4]).Exclusive :=
  leases_exclusive_of_sound (by decide) _ List.prefix_rfl

/-- An address is leased that is in quarantine for another association. -/
theorem not_exclusive_createLeaseFromRequest :
    ¬ (runFrom step (new 1) [.adjustPool network 64,
        .createLeaseFromRequest (network + 5) (client 1) 0, .fireTimer 1,
        .createLeaseFromRequest (network + 5) (client 2) 0]).Exclusive := by
  intro h
  exact (h.fit (network + 5) (client 2) (by decide)).not_quarantined (by decide)

end IPv6LeaseManager

end VirtualRouter.Dhcp
