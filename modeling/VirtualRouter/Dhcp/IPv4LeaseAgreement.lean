/-
  Runs of the DHCPv4 leases: when leases and allocations agree.

  The lease manager and its pool both hold which client has which address.  They
  stay the same bindings as long as an address that is taken is not allocated
  already, a decline names the address of its lease, and `adjustPool` finds no
  allocation; none of this is tested.

  * `Agrees`: a lease is an allocation of the pool and has one timer;
  * `Keeps`, `Allocates`: what a step of the pool does to the allocations;
  * `Linked`: the invariant; `Sound`: the steps that keep it;
  * `agrees_of_sound`: along sound steps every state agrees.
-/
import VirtualRouter.Dhcp.IPv4PoolExclusive
import VirtualRouter.Dhcp.IPv4LeaseManager

namespace VirtualRouter.Dhcp

open NestedMap Locked Run
open VirtualRouter.Core

namespace IPv4Pool

variable {p q r : IPv4Pool} {ip id : UInt32} {c : ClientID}

/-! ## What the pool does to its allocations -/

/-- What a timer is set for. -/
inductive Owner where
  | temporary (ip : UInt32)
  | quarantined (ip : UInt32)
  | bad (ip : UInt32)
  | lease (client : ClientID)
  deriving DecidableEq, Repr

def Callback.owner : Callback → Owner
  | .temporary ip _ => .temporary ip
  | .quarantined ip _ => .quarantined ip
  | .bad ip => .bad ip
  | .lease c => .lease c

theorem Callback.owner_eq_lease {x : Callback} : x.owner = .lease c ↔ x = .lease c := by
  cases x <;> simp [owner]

def ownerOf (tm : TimeManager Callback) (id : UInt32) : Option Owner :=
  (tm.timers.lookup id).map Callback.owner

theorem ownerOf_addTimer (tm : TimeManager Callback) (callback : Callback) (id : UInt32) :
    ownerOf (tm.addTimer callback).2 id =
      if id = tm.nextTimerId then some callback.owner else ownerOf tm id := by
  rw [ownerOf, TimeManager.lookup_addTimer]
  split <;> rfl

theorem ownerOf_cancelTimer (tm : TimeManager Callback) (timerId id : UInt32) :
    ownerOf (tm.cancelTimer timerId) id = if id = timerId then none else ownerOf tm id := by
  rw [ownerOf, TimeManager.lookup_cancelTimer]
  split <;> rfl

theorem ownerOf_next {tm : TimeManager Callback} (h : tm.Fresh) : ownerOf tm tm.nextTimerId = none := by
  rw [ownerOf, h]
  rfl

theorem ownerOf_eq_lease {tm : TimeManager Callback} {id : UInt32} {c : ClientID} :
    ownerOf tm id = some (.lease c) ↔ tm.timers.lookup id = some (.lease c) := by
  rw [ownerOf, Option.map_eq_some_iff]
  constructor
  · rintro ⟨callback, hid, howner⟩
    rw [hid, Callback.owner_eq_lease.1 howner]
  · exact fun hid => ⟨_, hid, rfl⟩

/-- The timers that offers and quarantines name are pending, and their own. -/
structure Timed (p : IPv4Pool) : Prop where
  temporary : ∀ ip offer, p.temporary.lookup ip = some offer → ownerOf p.timeManager offer.2 = some (.temporary ip)
  quarantined : ∀ ip kept,
    p.quarantined.lookup ip = some kept → ownerOf p.timeManager kept.2 = some (.quarantined ip)

/-- From `p` to `q` neither allocations nor lease timers change. -/
structure Keeps (p q : IPv4Pool) : Prop where
  allocated : q.allocated = p.allocated
  reverseAllocated : q.reverseAllocated = p.reverseAllocated
  lease_timer : ∀ id c, ownerOf q.timeManager id = some (.lease c) ↔ ownerOf p.timeManager id = some (.lease c)
  timed : q.Timed

theorem Timed.keeps (h : p.Timed) : p.Keeps p := ⟨rfl, rfl, fun _ _ => Iff.rfl, h⟩

theorem Keeps.trans (h : p.Keeps q) (h' : q.Keeps r) : p.Keeps r :=
  ⟨h'.allocated.trans h.allocated, h'.reverseAllocated.trans h.reverseAllocated,
    fun id c => (h'.lease_timer id c).trans (h.lease_timer id c), h'.timed⟩

section edits

attribute [local grind =] lookup_insert_eq lookup_erase_eq
  ownerOf_addTimer ownerOf_cancelTimer Callback.owner

attribute [local grind →] ownerOf_next

theorem Timed.setTemporary (h : p.Timed) (hfresh : p.timeManager.Fresh) :
    p.Keeps (p.setTemporary ip c) := by
  obtain ⟨hT, hQ⟩ := h
  refine ⟨rfl, rfl, fun id' c' => ?_, fun ip' offer h' => ?_, fun ip' kept h' => ?_⟩ <;>
    simp only [IPv4Pool.setTemporary, TimeManager.addTimer_fst] at * <;> grind

theorem Timed.dropQuarantined {kept : ClientID × UInt32} (h : p.Timed)
    (hkept : p.quarantined.lookup ip = some kept) : p.Keeps (p.dropQuarantined ip c kept.2) := by
  obtain ⟨hT, hQ⟩ := h
  have hown := hQ ip kept hkept
  refine ⟨rfl, rfl, fun id' c' => ?_, fun ip' offer h' => ?_, fun ip' kept h' => ?_⟩ <;>
    simp only [IPv4Pool.dropQuarantined] at * <;> grind

theorem Timed.dropTemporary {offer : ClientID × UInt32} (h : p.Timed)
    (hoffer : p.temporary.lookup ip = some offer) :
    p.Keeps { p with
      timeManager := p.timeManager.cancelTimer offer.2
      temporary := p.temporary.erase ip
      reverseTemporary := p.reverseTemporary.erase c } := by
  obtain ⟨hT, hQ⟩ := h
  have hown := hT ip offer hoffer
  refine ⟨rfl, rfl, fun id' c' => ?_, fun ip' offer h' => ?_, fun ip' kept h' => ?_⟩ <;> grind

theorem Timed.renewTemporary {offer : ClientID × UInt32} {c' : ClientID} (h : p.Timed)
    (hoffer : p.temporary.lookup ip = some offer) (hfresh : p.timeManager.Fresh) :
    p.Keeps { p with
      temporary := p.temporary.insert ip (c, p.timeManager.nextTimerId)
      timeManager := ((p.timeManager.cancelTimer offer.2).addTimer (.temporary ip c')).2 } := by
  obtain ⟨hT, hQ⟩ := h
  have hown := hT ip offer hoffer
  refine ⟨rfl, rfl, fun id' c' => ?_, fun ip' offer h' => ?_, fun ip' kept h' => ?_⟩ <;>
    grind [TimeManager.nextTimerId_cancelTimer]

/-- A timer fires that no lease set, and its address loses its offer or its quarantine. -/
theorem Timed.fired {callback : Callback} (h : p.Timed)
    (hid : p.timeManager.timers.lookup id = some callback) (hlease : ∀ c, callback ≠ .lease c)
    (hA : q.allocated = p.allocated) (hRA : q.reverseAllocated = p.reverseAllocated)
    (htm : q.timeManager = p.timeManager.cancelTimer id)
    (hT : ∀ ip offer, q.temporary.lookup ip = some offer →
      p.temporary.lookup ip = some offer ∧ callback.owner ≠ .temporary ip)
    (hQ : ∀ ip kept, q.quarantined.lookup ip = some kept →
      p.quarantined.lookup ip = some kept ∧ callback.owner ≠ .quarantined ip) : p.Keeps q := by
  have howner : ownerOf p.timeManager id = some callback.owner := by rw [ownerOf, hid]; rfl
  have hne (c : ClientID) : callback.owner ≠ .lease c := mt Callback.owner_eq_lease.1 (hlease c)
  have hother {id' : UInt32} {x : Owner} (hx : ownerOf p.timeManager id' = some x) (hxne : callback.owner ≠ x) :
      ownerOf q.timeManager id' = some x := by grind
  refine ⟨hA, hRA, fun id' c' => ?_, fun ip' offer h' => ?_, fun ip' kept h' => ?_⟩
  · grind
  · obtain ⟨hoffer, hne'⟩ := hT ip' offer h'
    exact hother (h.temporary ip' offer hoffer) hne'
  · obtain ⟨hkept, hne'⟩ := hQ ip' kept h'
    exact hother (h.quarantined ip' kept hkept) hne'

end edits

/-- What is neither an allocation, an offer, a quarantine nor a timer is of no account. -/
theorem Timed.frame (h : p.Timed) (hA : q.allocated = p.allocated)
    (hRA : q.reverseAllocated = p.reverseAllocated) (hT : q.temporary = p.temporary)
    (hQ : q.quarantined = p.quarantined) (htm : q.timeManager = p.timeManager) : p.Keeps q := by
  refine ⟨hA, hRA, fun id c => ?_, fun ip offer h' => ?_, fun ip kept h' => ?_⟩
  · rw [htm]
  · rw [htm]
    exact h.temporary ip offer (hT ▸ h')
  · rw [htm]
    exact h.quarantined ip kept (hQ ▸ h')

/-- From `p` to `q` the address is allocated to the client. -/
structure Allocates (p : IPv4Pool) (ip : UInt32) (c : ClientID) (q : IPv4Pool) : Prop where
  allocated : q.allocated = p.allocated.insert ip c
  reverseAllocated : q.reverseAllocated = p.reverseAllocated.insert c ip
  lease_timer : ∀ id c, ownerOf q.timeManager id = some (.lease c) ↔ ownerOf p.timeManager id = some (.lease c)
  timed : q.Timed
  fresh : p.timeManager.Fresh → q.timeManager.Fresh

theorem Keeps.setAllocated (h : p.Keeps q) (hfresh : p.timeManager.Fresh → q.timeManager.Fresh) :
    p.Allocates ip c (q.setAllocated ip c) where
  allocated := by rw [← h.allocated]; rfl
  reverseAllocated := by rw [← h.reverseAllocated]; rfl
  lease_timer := h.lease_timer
  timed := ⟨h.timed.temporary, h.timed.quarantined⟩
  fresh := hfresh

/-! ## Operations of the pool -/

theorem Timed.takeQuarantined (h : p.Timed) : p.Keeps (p.takeQuarantined c).2 := by
  obtain ⟨ip, kept, hQ, htake⟩ | ⟨q, reverseQuarantined, htake, rfl⟩ := p.takeQuarantined_cases c <;> rw [htake]
  · exact h.dropQuarantined hQ
  · exact h.frame rfl rfl rfl rfl rfl

theorem fresh_takeQuarantined (h : p.timeManager.Fresh) :
    (p.takeQuarantined c).2.timeManager.Fresh := by
  obtain ⟨ip, kept, hQ, htake⟩ | ⟨q, reverseQuarantined, htake, rfl⟩ := p.takeQuarantined_cases c <;> rw [htake]
  · exact h.cancelTimer kept.2
  · exact h

/-- The address that `allocateIP` takes for the client is not allocated and not 0. -/
def TakesFree (p : IPv4Pool) (c : ClientID) : Prop :=
  (∀ ip ∈ (p.takeQuarantined c).1, p.allocated.lookup ip = none ∧ ip ≠ 0) ∧
    ((p.takeQuarantined c).1 = none →
      (∀ ip ∈ p.release.head?, p.allocated.lookup ip = none ∧ ip ≠ 0) ∧
        (p.release = [] → ∀ i < (p.poolSize - 2).toNat, p.StopsAt p.isReserved i →
          p.scanAddress (.ofNat i) ≠ 0))

theorem Timed.allocateIP (h : p.Timed) (hRA : p.reverseAllocated.lookup c = none)
    (hfree : p.TakesFree c) :
    ∃ ip q, (p.allocateIP c).value = (ip, q) ∧
      (ip = 0 ∧ p.Keeps q ∨ ip ≠ 0 ∧ p.allocated.lookup ip = none ∧ p.Allocates ip c q) := by
  have hkeeps := h.takeQuarantined (c := c)
  have hfresh := @fresh_takeQuarantined p c
  obtain ⟨hkept, hrest⟩ := hfree
  rw [IPv4Pool.allocateIP, value_lockGuard]
  simp only [hRA]
  obtain ⟨ip, kept, -, htake⟩ | ⟨p', rq, htake, hp'⟩ := p.takeQuarantined_cases c <;>
    rw [htake] at hkeeps hfresh hkept hrest <;> simp only [htake]
  · obtain ⟨hip, hzero⟩ := hkept ip rfl
    exact ⟨_, _, rfl, .inr ⟨hzero, hip, hkeeps.setAllocated hfresh⟩⟩
  · dsimp only at hkeeps hfresh hrest
    obtain ⟨hhead, hscan⟩ := hrest rfl
    have hrelease : p'.release = p.release := by rw [hp']
    cases hR : p'.release with
    | cons ip rest =>
      obtain ⟨hip, hzero⟩ := hhead ip (by rw [← hrelease, hR]; rfl)
      have hpop := hkeeps.trans (hkeeps.timed.frame (q := { p' with release := rest }) rfl rfl rfl rfl rfl)
      exact ⟨_, _, rfl, .inr ⟨hzero, hip, hpop.setAllocated hfresh⟩⟩
    | nil =>
      simp only [value_bind]
      cases hip : (p'.scan p'.isReserved (p'.poolSize - 2).toNat 0).value with
      | none => exact ⟨_, _, rfl, .inl ⟨rfl, hkeeps⟩⟩
      | some ip =>
        obtain ⟨i, hi, hstop, rfl⟩ := stopsAt_of_scan hip
        have hfree := hstop.1.2
        rw [value_isReserved, Bool.or_eq_false_iff, Option.isSome_eq_false_iff,
          Option.isNone_iff_eq_none, hkeeps.allocated] at hfree
        have hzero : p'.scanAddress (.ofNat i) ≠ 0 := by
          subst hp'
          exact hscan (hrelease ▸ hR) i hi hstop
        have halloc := @Keeps.setAllocated p p' (p'.scanAddress (.ofNat i)) c hkeeps hfresh
        exact ⟨_, _, rfl, .inr ⟨hzero, hfree.1, halloc.allocated, halloc.reverseAllocated,
          halloc.lease_timer, ⟨halloc.timed.temporary, halloc.timed.quarantined⟩, halloc.fresh⟩⟩

theorem Timed.allocateTemporaryIP (h : p.Timed) (hfresh : p.timeManager.Fresh) :
    ∀ r ∈ (p.allocateTemporaryIP c).value, p.Keeps r.2 := by
  -- the search for an address, from a pool that may have lost a stale reverse entry
  have hoffer (q : IPv4Pool) (hq : p.Keeps q) (hqfresh : q.timeManager.Fresh) :
      ∀ r ∈ (allocateTemporaryIP.offer c q).value, p.Keeps r.2 := by
    have hkeeps := hq.trans (hq.timed.takeQuarantined (c := c))
    have hfresh' := fresh_takeQuarantined (c := c) hqfresh
    rw [allocateTemporaryIP.offer]
    obtain ⟨kept, p', htake⟩ : ∃ kept p', q.takeQuarantined c = (kept, p') := ⟨_, _, rfl⟩
    rw [htake] at hkeeps hfresh'
    dsimp only at hkeeps hfresh'
    simp only [htake]
    cases kept with
    | some ip =>
      rintro _ ⟨⟩
      exact hkeeps.trans (hkeeps.timed.setTemporary hfresh')
    | none =>
      cases hR : p'.release with
      | cons ip rest =>
        simp only [hR]
        rintro _ ⟨⟩
        have hpop := hkeeps.timed.frame (q := { p' with release := rest }) rfl rfl rfl rfl rfl
        exact hkeeps.trans (hpop.trans (hpop.timed.setTemporary hfresh'))
      | nil =>
        simp only [hR, value_ite, value_bind]
        split_ifs
        · rintro _ ⟨⟩
        · cases (p'.scan p'.isReservedOrOffered p'.poolSize.toNat 0).value with
          | none =>
            rintro _ ⟨⟩
            exact hkeeps
          | some ip =>
            rintro _ ⟨⟩
            have hset := @Timed.setTemporary p' ip c hkeeps.timed hfresh'
            exact hkeeps.trans (hset.trans (hset.timed.frame rfl rfl rfl rfl rfl))
  rw [IPv4Pool.allocateTemporaryIP, value_lockGuard]
  cases p.reverseTemporary.lookup c with
  | none => exact hoffer p h.keeps hfresh
  | some ip =>
    cases hT : p.temporary.lookup ip with
    | none =>
      simp only [hT]
      exact hoffer _ (h.frame rfl rfl rfl rfl rfl) hfresh
    | some offer =>
      simp only [hT]
      rintro _ ⟨⟩
      exact h.renewTemporary hT hfresh

theorem Timed.allocateRequested {take : IPv4Pool → UInt32 → ClientID → IPv4Pool} (h : p.Timed) :
    ∃ granted q, (p.allocateRequested ip c take).value = (granted, q) ∧
      (granted = false ∧ p.Keeps q ∨ granted = true ∧ p.allocated.lookup ip = none ∧
        ∃ q', p.Keeps q' ∧ (p.timeManager.Fresh → q'.timeManager.Fresh) ∧ q = take q' ip c) := by
  have hbook (q : IPv4Pool) (hq : p.Keeps q) (hfresh : p.timeManager.Fresh → q.timeManager.Fresh) :
      ∃ granted r, (allocateRequested.book ip c take q).value = (granted, r) ∧
        (granted = false ∧ p.Keeps r ∨ granted = true ∧ p.allocated.lookup ip = none ∧
          ∃ q', p.Keeps q' ∧ (p.timeManager.Fresh → q'.timeManager.Fresh) ∧ r = take q' ip c) := by
    rw [allocateRequested.book]
    split_ifs
    · exact ⟨false, q, rfl, .inl ⟨rfl, hq⟩⟩
    · rw [value_bind, value_ite]
      split_ifs with hreserved
      · exact ⟨false, q, rfl, .inl ⟨rfl, hq⟩⟩
      · rw [Bool.not_eq_true, value_isReservedOrOffered, value_isReserved, Bool.or_eq_false_iff,
          Bool.or_eq_false_iff, Option.isSome_eq_false_iff, Option.isNone_iff_eq_none,
          hq.allocated] at hreserved
        have hframe := hq.timed.frame (q := { q with release := q.release.erase ip }) rfl rfl rfl rfl rfl
        exact ⟨true, _, rfl, .inr ⟨rfl, hreserved.1.1, _, hq.trans hframe, hfresh, rfl⟩⟩
  rw [IPv4Pool.allocateRequested, value_lockGuard]
  cases hQ : p.quarantined.lookup ip with
  | none => exact hbook p h.keeps id
  | some kept =>
    simp only [value_ite]
    split_ifs
    · exact ⟨false, p, rfl, .inl ⟨rfl, h.keeps⟩⟩
    · exact hbook _ (h.dropQuarantined hQ) fun hfresh => hfresh.cancelTimer kept.2

theorem Timed.clearTemporaryOffer (h : p.Timed) : p.Keeps (p.clearTemporaryOffer ip).value := by
  rw [IPv4Pool.clearTemporaryOffer, value_lockGuard]
  cases hT : p.temporary.lookup ip with
  | none => exact h.keeps
  | some offer => exact h.dropTemporary hT

theorem Timed.excludeIP (h : p.Timed) : p.Keeps (p.excludeIP ip).value.2 := by
  simp only [IPv4Pool.excludeIP, value_lockGuard, value_ite, value_bind]
  split_ifs
  · exact h.keeps
  · exact h.keeps
  · exact h.frame rfl rfl rfl rfl rfl

theorem Timed.run {callback : Callback} (h : p.Timed)
    (hid : p.timeManager.timers.lookup id = some callback) (hlease : ∀ c, callback ≠ .lease c) :
    p.Keeps (callback.run { p with timeManager := p.timeManager.cancelTimer id }).value := by
  have herase {m : Map UInt32 (ClientID × UInt32)} {ip ip' : UInt32} {x : ClientID × UInt32}
      (hx : (m.erase ip).lookup ip' = some x) : m.lookup ip' = some x ∧ ip ≠ ip' := by
    rw [lookup_erase_eq] at hx
    split_ifs at hx with hip
    exact ⟨hx, fun heq => hip heq.symm⟩
  cases callback with
  | temporary ip c =>
    refine h.fired hid hlease rfl rfl rfl (fun ip' offer h' => ?_) fun ip' kept h' => ⟨h', by simp [Callback.owner]⟩
    obtain ⟨hoffer, hne⟩ := herase h'
    exact ⟨hoffer, by simpa [Callback.owner] using hne⟩
  | quarantined ip c =>
    refine h.fired hid hlease rfl rfl rfl (fun ip' offer h' => ⟨h', by simp [Callback.owner]⟩) fun ip' kept h' => ?_
    obtain ⟨hkept, hne⟩ := herase h'
    exact ⟨hkept, by simpa [Callback.owner] using hne⟩
  | bad ip =>
    exact h.fired hid hlease rfl rfl rfl (fun ip' offer h' => ⟨h', by simp [Callback.owner]⟩)
      fun ip' kept h' => ⟨h', by simp [Callback.owner]⟩
  | lease c => exact absurd rfl (hlease c)

end IPv4Pool

namespace IPv4LeaseManager

open IPv4Pool (Callback Owner ownerOf ownerOf_addTimer ownerOf_cancelTimer ownerOf_next
  ownerOf_eq_lease)

/-! ## Runs -/

/-- The operations of the lease manager, those of its pool that make offers and configure it, and
    the firing of timers. -/
inductive Op where
  | createLease (clientId : ClientID) (leaseTime t1 t2 : UInt32)
  | createLeaseFromTemp (clientId : ClientID) (tempIp leaseTime t1 t2 : UInt32)
  | createLeaseFromReq (clientId : ClientID) (reqIp leaseTime t1 t2 : UInt32)
  | renewLease (clientId : ClientID) (leaseTime t1 t2 : UInt32)
  | rebindLease (clientId : ClientID) (ip leaseTime t1 t2 : UInt32)
  | releaseLease (clientId : ClientID)
  | declineLease (clientId : ClientID) (ip : UInt32)
  | adjustPool (net : Option UInt32) (len : Option UInt8) (gw : Option UInt32)
  | setLeaseManager
  | allocateTemporaryIP (clientId : ClientID)
  | allocateRequestedTemporaryIP (ip : UInt32) (clientId : ClientID)
  | clearTemporaryOffer (ip : UInt32)
  | excludeIP (ip : UInt32)
  | removeExclusion (ip : UInt32)
  | fireTimer (timerId : UInt32)
  deriving DecidableEq

/-- The lease manager that an operation leaves; `none` after the read through `end()`. -/
def apply (m : IPv4LeaseManager) : Op → Option IPv4LeaseManager
  | .createLease c leaseTime t1 t2 => (m.createLease c leaseTime t1 t2).value.2
  | .createLeaseFromTemp c ip leaseTime t1 t2 => (m.createLeaseFromTemp c ip leaseTime t1 t2).value.2
  | .createLeaseFromReq c ip leaseTime t1 t2 => (m.createLeaseFromReq c ip leaseTime t1 t2).value.2
  | .renewLease c leaseTime t1 t2 => (m.renewLease c leaseTime t1 t2).value.2
  | .rebindLease c ip leaseTime t1 t2 => (m.rebindLease c ip leaseTime t1 t2).value.2
  | .releaseLease c => (m.releaseLease c).value.2
  | .declineLease c ip => (m.declineLease c ip).value.map Prod.snd
  | .adjustPool net len gw => some { m with pool := m.pool.step (.adjustPool net len gw) }
  | .setLeaseManager => some { m with pool := m.pool.step .setLeaseManager }
  | .allocateTemporaryIP c => some { m with pool := m.pool.step (.allocateTemporaryIP c) }
  | .allocateRequestedTemporaryIP ip c =>
    some { m with pool := m.pool.step (.allocateRequestedTemporaryIP ip c) }
  | .clearTemporaryOffer ip => some { m with pool := m.pool.step (.clearTemporaryOffer ip) }
  | .excludeIP ip => some { m with pool := m.pool.step (.excludeIP ip) }
  | .removeExclusion ip => some { m with pool := m.pool.step (.removeExclusion ip) }
  | .fireTimer id => (m.fireTimer id).value

/-- A step of a run; there is none after the read through `end()`. -/
def step (s : Option IPv4LeaseManager) (op : Op) : Option IPv4LeaseManager := s.bind (apply · op)

/-! ## Agreement -/

/-- Leases and allocations are the same bindings, a lease has one timer, which removes it and no
    other, and a client without a lease has nothing to release or renew. -/
structure Agrees (m : IPv4LeaseManager) : Prop where
  lease_iff : ∀ c ip,
    (∃ lease, m.leases.lookup c = some lease ∧ lease.ip = ip) ↔ m.pool.allocated.lookup ip = some c
  one_timer : ∀ c lease, m.leases.lookup c = some lease → ∀ id,
    m.pool.timeManager.timers.lookup id = some (.lease c) ↔ id = lease.timerId
  expiry : ∀ c lease, m.leases.lookup c = some lease →
    (m.fireTimer lease.timerId).value.leases = m.leases.erase c
  without_lease : ∀ c, m.leases.lookup c = none → ∀ ip leaseTime t1 t2,
    (m.releaseLease c).value = (false, m) ∧ (m.renewLease c leaseTime t1 t2).value = (false, m) ∧
      (m.rebindLease c ip leaseTime t1 t2).value = (false, m)

/-- The invariant: every lease has its address allocated and its timer pending, and the other way
    round. -/
structure Linked (m : IPv4LeaseManager) : Prop where
  lease_iff : ∀ c ip,
    m.pool.allocated.lookup ip = some c ↔ (m.leases.lookup c).map Lease.ip = some ip
  reverse : ∀ c, m.pool.reverseAllocated.lookup c = (m.leases.lookup c).map Lease.ip
  lease_timer : ∀ c id,
    ownerOf m.pool.timeManager id = some (.lease c) ↔ (m.leases.lookup c).map Lease.timerId = some id
  timed : m.pool.Timed

variable {m : IPv4LeaseManager} {q : IPv4Pool} {c : ClientID} {ip id leaseTime t1 t2 : UInt32}

theorem Linked.agrees (h : Linked m) : Agrees m where
  lease_iff c ip := by rw [h.lease_iff, Option.map_eq_some_iff]
  one_timer c lease hlease id := by
    rw [← ownerOf_eq_lease, h.lease_timer, hlease, Option.map_some, Option.some_inj, eq_comm]
  expiry c lease hlease := by
    have hid := ownerOf_eq_lease.1 ((h.lease_timer c lease.timerId).2 (by rw [hlease]; rfl))
    rw [fireTimer, TimeManager.fire, hid]
    simp only [Option.map_some, expireLease, value_lockGuard, hlease, value_bind, value_pure]
  without_lease c hc ip leaseTime t1 t2 := by
    simp only [releaseLease, renewLease, rebindLease, value_lockGuard, hc, value_pure, and_self]

/-- The steps that keep the bindings.  The tests are those that the operation leaves out; new
    timers get an id that no pending timer has. -/
def Sound (m : IPv4LeaseManager) (op : Op) : Prop :=
  m.pool.timeManager.Fresh ∧
    match op with
    | .createLease c .. => m.leases.lookup c = none → m.pool.TakesFree c
    | .createLeaseFromTemp c ip .. => m.leases.lookup c = none →
      (∃ offer ∈ m.pool.temporary.lookup ip, offer.1 = c) → m.pool.allocated.lookup ip = none
    | .declineLease c ip => (m.leases.lookup c).map Lease.ip = some ip
    | .adjustPool .. => m.pool.leaseManager = true → m.pool.allocated.keys = []
    | _ => True

/-! ## What the operations do to the bindings -/

theorem Linked.keeps (h : Linked m) (hq : m.pool.Keeps q) : Linked { m with pool := q } where
  lease_iff c ip := by rw [hq.allocated, h.lease_iff]
  reverse c := by rw [hq.reverseAllocated, h.reverse]
  lease_timer c id := by rw [hq.lease_timer, h.lease_timer]
  timed := hq.timed

section edits

attribute [local grind =] lookup_insert_eq lookup_erase_eq TimeManager.lookup_addTimer
  ownerOf_addTimer ownerOf_cancelTimer Callback.owner

attribute [local grind →] ownerOf_next

theorem Linked.enterLease (h : Linked m) (hc : m.leases.lookup c = none)
    (hip : m.pool.allocated.lookup ip = none) (hq : m.pool.Allocates ip c q)
    (hfresh : m.pool.timeManager.Fresh) :
    Linked ({ m with pool := q }.enterLease c ip leaseTime t1 t2) := by
  obtain ⟨hlease, hreverse, htimer, -⟩ := h
  obtain ⟨hA, hRA, hown, ⟨hT, hQ⟩, hfresh'⟩ := hq
  have hfresh := hfresh' hfresh
  refine ⟨fun c' ip' => ?_, fun c' => ?_, fun c' id' => ?_, fun ip' offer h' => ?_, fun ip' kept h' => ?_⟩ <;>
    simp only [IPv4LeaseManager.enterLease, TimeManager.addTimer_fst] at * <;> grind

theorem Linked.renew {lease : Lease} (h : Linked m) (hc : m.leases.lookup c = some lease)
    (hfresh : m.pool.timeManager.Fresh) :
    Linked ({ m with pool := { m.pool with
      timeManager := m.pool.timeManager.cancelTimer lease.timerId } }.enterLease c lease.ip
        leaseTime t1 t2) := by
  have htimer := h.lease_timer c lease.timerId
  have hip := h.lease_iff c lease.ip
  have hfresh' := hfresh.cancelTimer lease.timerId
  rw [hc] at htimer hip
  obtain ⟨hlease, hreverse, hlt, hT, hQ⟩ := h
  refine ⟨fun c' ip' => ?_, fun c' => ?_, fun c' id' => ?_, fun ip' offer h' => ?_, fun ip' kept h' => ?_⟩ <;>
    simp only [IPv4LeaseManager.enterLease, TimeManager.addTimer_fst,
      TimeManager.nextTimerId_cancelTimer] at * <;> grind [TimeManager.nextTimerId_cancelTimer]

theorem Linked.dropLease {lease : Lease} (h : Linked m) (hc : m.leases.lookup c = some lease)
    (hA : q.allocated = m.pool.allocated.erase lease.ip)
    (hRA : q.reverseAllocated = m.pool.reverseAllocated.erase c)
    (htimer : ∀ id c', ownerOf q.timeManager id = some (.lease c') ↔
      ownerOf m.pool.timeManager id = some (.lease c') ∧ id ≠ lease.timerId)
    (htimed : q.Timed) : Linked { pool := q, leases := m.leases.erase c } := by
  have hip := h.lease_iff c lease.ip
  have hid := h.lease_timer c lease.timerId
  rw [hc] at hip hid
  obtain ⟨hlease, hreverse, hlt, -⟩ := h
  refine ⟨fun c' ip' => ?_, fun c' => ?_, fun c' id' => ?_, htimed⟩ <;> grind

theorem timed_cancelLease {p : IPv4Pool} (h : p.Timed)
    (hid : ownerOf p.timeManager id = some (.lease c)) :
    { p with timeManager := p.timeManager.cancelTimer id }.Timed := by
  refine ⟨fun ip' offer h' => ?_, fun ip' kept h' => ?_⟩
  · have := h.temporary ip' offer h'
    simp only at *
    grind
  · have := h.quarantined ip' kept h'
    simp only at *
    grind

theorem timed_dropAllocated {p : IPv4Pool} (h : p.Timed)
    (hid : ownerOf p.timeManager id = some (.lease c)) :
    { p with
      allocated := p.allocated.erase ip
      reverseAllocated := p.reverseAllocated.erase c
      timeManager := p.timeManager.cancelTimer id }.Timed :=
  ⟨(timed_cancelLease h hid).temporary, (timed_cancelLease h hid).quarantined⟩

theorem Linked.dropLease_addTimer {lease : Lease} {callback : Callback} (h : Linked m)
    (hc : m.leases.lookup c = some lease) (hcallback : ∀ c, callback.owner ≠ .lease c)
    {tm : TimeManager Callback} (hfresh : tm.Fresh)
    (htm : ∀ id, ownerOf tm id =
      if id = lease.timerId then none else ownerOf m.pool.timeManager id)
    (hA : q.allocated = m.pool.allocated.erase lease.ip)
    (hRA : q.reverseAllocated = m.pool.reverseAllocated.erase c)
    (hT : q.temporary = m.pool.temporary)
    (hQ : ∀ ip kept, q.quarantined.lookup ip = some kept → m.pool.quarantined.lookup ip = some kept ∨
      kept.2 = tm.nextTimerId ∧ callback.owner = .quarantined ip)
    (hqtm : q.timeManager = (tm.addTimer callback).2) :
    Linked { pool := q, leases := m.leases.erase c } := by
  have hlt := (h.lease_timer c lease.timerId).2 (by rw [hc]; rfl)
  have htimed := h.timed
  refine h.dropLease hc hA hRA (fun id' c' => ?_) ⟨fun ip' offer h' => ?_, fun ip' kept h' => ?_⟩
  · grind
  · have := htimed.temporary ip' offer (hT ▸ h')
    grind
  · have := htimed.quarantined ip' kept
    have := hQ ip' kept h'
    grind

end edits

theorem Linked.reverse_none (h : Linked m) (hc : m.leases.lookup c = none) :
    m.pool.reverseAllocated.lookup c = none := by
  rw [h.reverse, hc]
  rfl

theorem Linked.createLease (h : Linked m) (hs : Sound m (.createLease c leaseTime t1 t2)) :
    Linked (m.createLease c leaseTime t1 t2).value.2 := by
  obtain ⟨hfresh, hfree⟩ := hs
  simp only [IPv4LeaseManager.createLease, value_lockGuard, value_ite, value_bind, value_pure]
  cases hc : m.leases.lookup c with
  | some lease => exact h
  | none =>
    obtain ⟨ip, q, hq, ⟨rfl, hkeeps⟩ | ⟨hzero, hip, halloc⟩⟩ :=
      h.timed.allocateIP (h.reverse_none hc) (hfree hc)
    · rw [hq]
      exact h.keeps hkeeps
    · rw [hq]
      simp only [if_neg hzero]
      exact h.enterLease hc hip halloc hfresh

theorem Linked.createLeaseFromTemp (h : Linked m)
    (hs : Sound m (.createLeaseFromTemp c ip leaseTime t1 t2)) :
    Linked (m.createLeaseFromTemp c ip leaseTime t1 t2).value.2 := by
  obtain ⟨hfresh, hfree⟩ := hs
  simp only [IPv4LeaseManager.createLeaseFromTemp, value_lockGuard, value_ite, value_bind, value_pure,
    IPv4Pool.activateTemporaryIP]
  cases hc : m.leases.lookup c with
  | some lease => exact h
  | none =>
    cases hT : m.pool.temporary.lookup ip with
    | none => exact h
    | some offer =>
      by_cases hclient : c = offer.1
      · have hdrop := h.timed.dropTemporary (c := c) hT
        have halloc := @IPv4Pool.Keeps.setAllocated _ _ ip c hdrop fun hfresh => hfresh.cancelTimer offer.2
        have hip := hfree hc ⟨offer, hT, hclient.symm⟩
        simpa [hclient] using h.enterLease hc hip halloc hfresh
      · simpa [hclient] using h

theorem Linked.createLeaseFromReq (h : Linked m)
    (hs : Sound m (.createLeaseFromReq c ip leaseTime t1 t2)) :
    Linked (m.createLeaseFromReq c ip leaseTime t1 t2).value.2 := by
  simp only [IPv4LeaseManager.createLeaseFromReq, value_lockGuard, value_ite, value_bind, value_pure,
    IPv4Pool.allocateRequestedIP]
  cases hc : m.leases.lookup c with
  | some lease => exact h
  | none =>
    obtain ⟨granted, q, hq, ⟨rfl, hkeeps⟩ | ⟨rfl, hip, q', hkeeps, hfresh', rfl⟩⟩ :=
      @IPv4Pool.Timed.allocateRequested m.pool ip c IPv4Pool.setAllocated h.timed
    · rw [hq]
      exact h.keeps hkeeps
    · rw [hq]
      exact h.enterLease hc hip (hkeeps.setAllocated hfresh') hs.1

theorem Linked.renewLease (h : Linked m) (hfresh : m.pool.timeManager.Fresh) :
    Linked (m.renewLease c leaseTime t1 t2).value.2 := by
  rw [IPv4LeaseManager.renewLease, value_lockGuard]
  cases hc : m.leases.lookup c with
  | none => exact h
  | some lease => exact h.renew hc hfresh

theorem Linked.rebindLease (h : Linked m) (hfresh : m.pool.timeManager.Fresh) :
    Linked (m.rebindLease c ip leaseTime t1 t2).value.2 := by
  rw [IPv4LeaseManager.rebindLease, value_lockGuard]
  cases hc : m.leases.lookup c with
  | none => exact h
  | some lease =>
    simp only [value_ite]
    split_ifs
    · exact h
    · exact h.renewLease hfresh

theorem Linked.owner_of_lease {lease : Lease} (h : Linked m) (hc : m.leases.lookup c = some lease) :
    ownerOf m.pool.timeManager lease.timerId = some (.lease c) :=
  (h.lease_timer c lease.timerId).2 (by rw [hc]; rfl)

theorem Linked.allocated_of_lease {lease : Lease} (h : Linked m)
    (hc : m.leases.lookup c = some lease) : m.pool.allocated.lookup lease.ip = some c :=
  (h.lease_iff c lease.ip).2 (by rw [hc]; rfl)

theorem Linked.releaseLease (h : Linked m) : Linked (m.releaseLease c).value.2 := by
  rw [IPv4LeaseManager.releaseLease, value_lockGuard]
  cases hc : m.leases.lookup c with
  | none => exact h
  | some lease =>
    have hip := h.allocated_of_lease hc
    simp only [value_bind, value_pure, IPv4Pool.releaseIP, value_lockGuard, IPv4Pool.isAllocated, hip,
      Option.isSome_some, if_true]
    refine h.dropLease hc rfl rfl (fun id' c' => ?_) (timed_dropAllocated h.timed (h.owner_of_lease hc))
    rw [ownerOf_cancelTimer]
    split_ifs with heq <;> simp [heq]

theorem Linked.declineLease {m' : IPv4LeaseManager} (h : Linked m) (hs : Sound m (.declineLease c ip))
    (hm' : (m.declineLease c ip).value.map Prod.snd = some m') : Linked m' := by
  obtain ⟨hfresh, hlease⟩ := hs
  obtain ⟨lease, hc, rfl⟩ := Option.map_eq_some_iff.1 hlease
  have hip := h.allocated_of_lease hc
  have hfresh' := hfresh.cancelTimer lease.timerId
  simp only [IPv4LeaseManager.declineLease, value_lockGuard, hc, value_bind, value_pure,
    IPv4Pool.setConflicted, IPv4Pool.isAllocated, hip, Option.isSome_some, if_true, Option.map_some,
    Option.some_inj, Option.getD_some] at hm'
  subst hm'
  exact h.dropLease_addTimer hc (by simp [Callback.owner]) hfresh' (ownerOf_cancelTimer _ _) rfl rfl rfl
    (fun _ _ h' => .inl h') rfl

theorem Linked.expireLease (h : Linked m) (hfresh : m.pool.timeManager.Fresh)
    (hid : m.pool.timeManager.timers.lookup id = some (.lease c)) :
    Linked (({ m with pool := { m.pool with
      timeManager := m.pool.timeManager.cancelTimer id } }.expireLease c).value) := by
  have hown := (h.lease_timer c id).1 (ownerOf_eq_lease.2 hid)
  obtain ⟨lease, hc, rfl⟩ := Option.map_eq_some_iff.1 hown
  have hip := h.allocated_of_lease hc
  simp only [IPv4LeaseManager.expireLease, value_lockGuard, hc, value_bind, value_pure, IPv4Pool.expireIP,
    IPv4Pool.isAllocated, hip, Option.isSome_some, if_true]
  refine h.dropLease_addTimer hc (by simp [Callback.owner]) (hfresh.cancelTimer lease.timerId)
    (ownerOf_cancelTimer _ _) rfl rfl rfl (fun ip' kept h' => ?_) rfl
  rw [lookup_insert_eq] at h'
  split_ifs at h' with heq
  · cases h'
    exact .inr ⟨rfl, by rw [heq]; rfl⟩
  · exact .inl h'

theorem Linked.fireTimer (h : Linked m) (hfresh : m.pool.timeManager.Fresh) :
    Linked (m.fireTimer id).value := by
  rw [IPv4LeaseManager.fireTimer]
  cases hfire : m.pool.timeManager.fire id with
  | none => exact h
  | some fired =>
    obtain ⟨callback, tm⟩ := fired
    obtain ⟨hid, rfl⟩ := TimeManager.fire_eq_some.1 hfire
    cases callback with
    | lease c => exact h.expireLease hfresh hid
    | temporary ip c => exact h.keeps (h.timed.run hid (by simp))
    | quarantined ip c => exact h.keeps (h.timed.run hid (by simp))
    | bad ip => exact h.keeps (h.timed.run hid (by simp))

theorem Linked.adjustPool {net : Option UInt32} {len : Option UInt8} {gw : Option UInt32}
    (h : Linked m) (hs : Sound m (.adjustPool net len gw)) :
    Linked { m with pool := m.pool.step (.adjustPool net len gw) } := by
  refine h.keeps ?_
  rw [IPv4Pool.step]
  unfold IPv4Pool.adjustPool
  dsimp only [value_lockGuard, value_pure]
  split_ifs with hmanager
  · have hempty : (∅ : Map UInt32 ClientID) = m.pool.allocated :=
      AList.ext (List.map_eq_nil_iff.1 (hs.2 hmanager)).symm
    exact ⟨hempty, rfl, fun _ _ => Iff.rfl, ⟨fun ip offer h' => (by cases h'), h.timed.quarantined⟩⟩
  · exact h.timed.frame rfl rfl rfl rfl rfl

/-! ## Runs -/

theorem Linked.apply {m' : IPv4LeaseManager} {op : Op} (h : Linked m) (hs : Sound m op)
    (hm' : m.apply op = some m') : Linked m' := by
  obtain ⟨hfresh, -⟩ := id hs
  cases op with
  | declineLease c ip => exact h.declineLease hs hm'
  | createLease c leaseTime t1 t2 => exact Option.some.inj hm' ▸ h.createLease hs
  | createLeaseFromTemp c ip leaseTime t1 t2 => exact Option.some.inj hm' ▸ h.createLeaseFromTemp hs
  | createLeaseFromReq c ip leaseTime t1 t2 => exact Option.some.inj hm' ▸ h.createLeaseFromReq hs
  | renewLease c leaseTime t1 t2 => exact Option.some.inj hm' ▸ h.renewLease hfresh
  | rebindLease c ip leaseTime t1 t2 => exact Option.some.inj hm' ▸ h.rebindLease hfresh
  | releaseLease c => exact Option.some.inj hm' ▸ h.releaseLease
  | adjustPool net len gw => exact Option.some.inj hm' ▸ h.adjustPool hs
  | setLeaseManager => exact Option.some.inj hm' ▸ h.keeps (h.timed.frame rfl rfl rfl rfl rfl)
  | allocateTemporaryIP c =>
    have hkeeps := @IPv4Pool.Timed.allocateTemporaryIP m.pool c h.timed hfresh
    refine Option.some.inj hm' ▸ h.keeps ?_
    rw [IPv4Pool.step]
    cases hvalue : (m.pool.allocateTemporaryIP c).value with
    | none => exact h.timed.keeps
    | some r => exact hkeeps r hvalue
  | allocateRequestedTemporaryIP ip c =>
    refine Option.some.inj hm' ▸ h.keeps ?_
    obtain ⟨granted, q, hq, ⟨-, hkeeps⟩ | ⟨-, -, q', hkeeps, hfresh', rfl⟩⟩ :=
      @IPv4Pool.Timed.allocateRequested m.pool ip c IPv4Pool.setTemporary h.timed
    · rw [IPv4Pool.step, IPv4Pool.allocateRequestedTemporaryIP, hq]
      exact hkeeps
    · rw [IPv4Pool.step, IPv4Pool.allocateRequestedTemporaryIP, hq]
      exact hkeeps.trans (hkeeps.timed.setTemporary (hfresh' hfresh))
  | clearTemporaryOffer ip => exact Option.some.inj hm' ▸ h.keeps h.timed.clearTemporaryOffer
  | excludeIP ip => exact Option.some.inj hm' ▸ h.keeps h.timed.excludeIP
  | removeExclusion ip => exact Option.some.inj hm' ▸ h.keeps (h.timed.frame rfl rfl rfl rfl rfl)
  | fireTimer id => exact Option.some.inj hm' ▸ h.fireTimer hfresh

theorem apply_ne_none {op : Op} (hs : Sound m op) : ∃ m', m.apply op = some m' := by
  cases op with
  | declineLease c ip =>
    obtain ⟨lease, hc, -⟩ := Option.map_eq_some_iff.1 hs.2
    simp only [IPv4LeaseManager.apply, IPv4LeaseManager.declineLease, value_lockGuard, hc, value_bind,
      value_pure, Option.map_some]
    exact ⟨_, rfl⟩
  | _ => exact ⟨_, rfl⟩

/-- The lease manager as it is constructed, with its pool. -/
def new (nextTimerId : UInt32) : IPv4LeaseManager := { pool := IPv4Pool.new nextTimerId }

theorem linked_new (nextTimerId : UInt32) : Linked (new nextTimerId) where
  lease_iff c ip := by simp [new, IPv4Pool.new]
  reverse c := by simp [new, IPv4Pool.new]
  lease_timer c id := by simp [new, IPv4Pool.new, ownerOf]
  timed := ⟨fun ip offer h => (by cases h), fun ip kept h => (by cases h)⟩

/-- **Agreement**: in every run whose steps are sound, every state agrees. -/
theorem agrees_of_sound {nextTimerId : UInt32} {ops : List Op}
    (h : Along (fun s op => ∀ m ∈ s, Sound m op) step (some (new nextTimerId)) ops) :
    ∀ before, before <+: ops →
      ∃ m, runFrom step (some (new nextTimerId)) before = some m ∧ Agrees m := by
  rintro before ⟨after, rfl⟩
  obtain ⟨m, hm, hlinked⟩ := Along.invariant (I := fun s => ∃ m, s = some m ∧ Linked m)
    (fun s op ⟨m, hm, hlinked⟩ hs => by
      subst hm
      obtain ⟨m', hm'⟩ := apply_ne_none (hs m rfl)
      exact ⟨m', hm', hlinked.apply (hs m rfl) hm'⟩)
    ⟨_, rfl, linked_new nextTimerId⟩ (along_append.1 h).1
  exact ⟨m, hm, hlinked.agrees⟩

/-! ## A run of one address -/

instance (p : IPv4Pool) (c : ClientID) : Decidable (p.TakesFree c) :=
  inferInstanceAs (Decidable (_ ∧ _))

instance (m : IPv4LeaseManager) : DecidablePred (Sound m)
  | .createLease .. | .createLeaseFromTemp .. | .declineLease .. | .adjustPool .. =>
    inferInstanceAs (Decidable (_ ∧ _))
  | .createLeaseFromReq .. | .renewLease .. | .rebindLease .. | .releaseLease _ |
    .setLeaseManager | .allocateTemporaryIP _ | .allocateRequestedTemporaryIP .. |
    .clearTemporaryOffer _ | .excludeIP _ | .removeExclusion _ | .fireTimer _ =>
    inferInstanceAs (Decidable (_ ∧ True))

/-- The pool 10.0.0.0/29 with 10.0.0.1 as its gateway. -/
def fiveAddresses : List Op :=
  [.setLeaseManager, .adjustPool (some 0x0A000000) (some 29) (some 0x0A000001)]

/-- An offer is taken up, renewed and declined, another lease expires. -/
theorem agrees_fiveAddresses :
    ∃ m, runFrom step (some (new 1)) (fiveAddresses ++ [.allocateTemporaryIP [1],
        .createLeaseFromTemp [1] 0x0A000006 60 30 50, .renewLease [1] 60 30 50,
        .declineLease [1] 0x0A000006, .createLeaseFromReq [2] 0x0A000002 60 30 50,
        .fireTimer 5]) = some m ∧ Agrees m :=
  agrees_of_sound (by decide) _ List.prefix_rfl

/-- A client declines an address that it does not lease, and loses its lease for it. -/
theorem not_agrees_declineLease :
    ¬ ∃ m, runFrom step (some (new 1)) (fiveAddresses ++ [.createLeaseFromReq [1] 0x0A000002 60 30 50,
        .declineLease [1] 0x0A000003]) = some m ∧ Agrees m := by
  rintro ⟨m, hm, h⟩
  have hpool : ((runFrom step (some (new 1)) (fiveAddresses ++ [.createLeaseFromReq [1] 0x0A000002 60 30 50,
      .declineLease [1] 0x0A000003])).bind fun m => m.pool.allocated.lookup 0x0A000002) = some [1] := by
    decide
  have hlease : ((runFrom step (some (new 1)) (fiveAddresses ++ [.createLeaseFromReq [1] 0x0A000002 60 30 50,
      .declineLease [1] 0x0A000003])).bind fun m => m.leases.lookup [1]) = none := by
    decide
  rw [hm, Option.bind_some] at hpool hlease
  obtain ⟨lease, hsome, -⟩ := (h.lease_iff [1] 0x0A000002).2 hpool
  rw [hlease] at hsome
  cases hsome

end IPv4LeaseManager

end VirtualRouter.Dhcp
