/-
  The mutexes of the DHCP pools and lease managers.

  A class has a mutex of its own and takes it in almost every operation.  The
  predicates of a pool take it too, and an operation that calls one of them while
  it holds the mutex takes it twice: that is the error state.

  * `Call`, one for each class: its operations, the predicates and the timer
    callbacks included;
  * `Call.relocks`: a call comes to take a mutex that is held;
  * `Call.Disciplined`: the condition under which it does not, in terms of what
    the call reads before it reaches a predicate;
  * `relocks_iff`, one for each class, with the mutexes that the caller holds.

  The last section puts the six classes together.
-/
import VirtualRouter.Dhcp.IPv4LeaseManager
import VirtualRouter.Dhcp.IPv6LeaseManager
import VirtualRouter.Dhcp.PrefixLeaseManager

namespace VirtualRouter.Dhcp

open NestedMap Locked
open VirtualRouter.Core

variable {held : List Mutex}

/-! ## DHCPv4 pool -/

namespace IPv4Pool

/-- The operations of the pool. -/
inductive Call where
  | allocateIP (clientId : ClientID)
  | allocateTemporaryIP (clientId : ClientID)
  | allocateRequestedTemporaryIP (ip : UInt32) (clientId : ClientID)
  | allocateRequestedIP (ip : UInt32) (clientId : ClientID)
  | getTemporaryIPForClient (clientId : ClientID)
  | activateTemporaryIP (ip : UInt32) (clientId : ClientID)
  | clearTemporaryOffer (ip : UInt32)
  | excludeIP (ip : UInt32)
  | removeExclusion (ip : UInt32)
  | expireIP (ip : UInt32) (client : ClientID)
  | releaseIP (ip : UInt32) (client : ClientID)
  | setConflicted (ip : UInt32)
  | isAllocated (ip : UInt32)
  | isExcluded (ip : UInt32)
  | isConflicted (ip : UInt32)
  | isTemporarilyOffered (ip : UInt32)
  | isTemporarilyOfferedTo (ip : UInt32) (id : ClientID)
  | matchIPToClient (ip : UInt32) (clientId : ClientID)
  | isReserved (ip : UInt32)
  | adjustPool (net : Option UInt32) (len : Option UInt8) (gw : Option UInt32)
  | fireTimer (timerId : UInt32)

def Call.relocks (p : IPv4Pool) : Call → List Mutex → Bool
  | .allocateIP c => (p.allocateIP c).relocks
  | .allocateTemporaryIP c => (p.allocateTemporaryIP c).relocks
  | .allocateRequestedTemporaryIP ip c => (p.allocateRequestedTemporaryIP ip c).relocks
  | .allocateRequestedIP ip c => (p.allocateRequestedIP ip c).relocks
  | .getTemporaryIPForClient c => (p.getTemporaryIPForClient c).relocks
  | .activateTemporaryIP ip c => (p.activateTemporaryIP ip c).relocks
  | .clearTemporaryOffer ip => (p.clearTemporaryOffer ip).relocks
  | .excludeIP ip => (p.excludeIP ip).relocks
  | .removeExclusion ip => (p.removeExclusion ip).relocks
  | .expireIP ip c => (p.expireIP ip c).relocks
  | .releaseIP ip c => (p.releaseIP ip c).relocks
  | .setConflicted ip => (p.setConflicted ip).relocks
  | .isAllocated ip => (p.isAllocated ip).relocks
  | .isExcluded ip => (p.isExcluded ip).relocks
  | .isConflicted ip => (p.isConflicted ip).relocks
  | .isTemporarilyOffered ip => (p.isTemporarilyOffered ip).relocks
  | .isTemporarilyOfferedTo ip c => (p.isTemporarilyOfferedTo ip c).relocks
  | .matchIPToClient ip c => (p.matchIPToClient ip c).relocks
  | .isReserved ip => (p.isReserved ip).relocks
  | .adjustPool net len gw => (p.adjustPool net len gw).relocks
  | .fireTimer id => (p.fireTimer id).relocks

/-- The search for an address ends before the scan, or the scan tests no address: all its rounds
    fall on the gateway. -/
def EndsBeforeTest (p : IPv4Pool) (clientId : ClientID) (rounds : UInt32) : Prop :=
  (p.takeQuarantined clientId).1.isSome ∨ p.release ≠ [] ∨
    ∀ i < rounds.toNat, p.scanAddress (.ofNat i) = p.gateway

/-- A requested address is refused before it is tested: it is in the quarantine of another client,
    or out of range. -/
def RefusedUntested (p : IPv4Pool) (ip : UInt32) (clientId : ClientID) : Prop :=
  (∃ client timerId, p.quarantined.lookup ip = some (client, timerId) ∧ client ≠ clientId) ∨
    p.withinRange ip = false

def Call.Disciplined (p : IPv4Pool) : Call → Prop
  | .allocateIP c =>
    (p.reverseAllocated.lookup c).isSome ∨ p.EndsBeforeTest c (p.poolSize - 2)
  | .allocateTemporaryIP c =>
    (∃ ip, p.reverseTemporary.lookup c = some ip ∧ (p.temporary.lookup ip).isSome) ∨
      p.poolSize = 2 ∨ p.EndsBeforeTest c p.poolSize
  | .allocateRequestedTemporaryIP ip c | .allocateRequestedIP ip c => p.RefusedUntested ip c
  | .excludeIP ip => p.withinRange ip = false
  | .expireIP .. | .releaseIP .. | .setConflicted .. => False
  | .fireTimer id =>
    ∀ ip c timeManager, p.timeManager.fire id ≠ some (.quarantined ip c, timeManager)
  | _ => True

section relocks
variable (p : IPv4Pool)

@[simp] theorem relocks_isAllocated (ip : UInt32) :
    (p.isAllocated ip).relocks held = decide (.poolMutex ∈ held) := by
  simp [isAllocated]

@[simp] theorem relocks_isExcluded (ip : UInt32) :
    (p.isExcluded ip).relocks held = decide (.poolMutex ∈ held) := by
  simp [isExcluded]

@[simp] theorem relocks_isReserved (ip : UInt32) :
    (p.isReserved ip).relocks held = decide (.poolMutex ∈ held) := by
  simp only [isReserved, isConflicted, relocks_or, relocks_isAllocated, relocks_isExcluded,
    relocks_lockGuard, relocks_pure]
  grind

@[simp] theorem relocks_isReservedOrOffered (ip : UInt32) :
    (p.isReservedOrOffered ip).relocks held = decide (.poolMutex ∈ held) := by
  simp only [isReservedOrOffered, isTemporarilyOffered, relocks_or, relocks_isReserved,
    relocks_lockGuard, relocks_pure]
  grind

theorem relocks_scan {taken : UInt32 → Locked Mutex Bool} (h : ∀ ip, (taken ip).relocks held = true)
    (rounds : ℕ) (i : UInt32) :
    (p.scan taken rounds i).relocks held = false ↔
      ∀ j < rounds, p.scanAddress (i + .ofNat j) = p.gateway := by
  induction rounds generalizing i with
  | zero => simp [scan]
  | succ rounds ih =>
    have hnext : (∀ j < rounds, p.scanAddress (i + 1 + .ofNat j) = p.gateway) ↔
        ∀ j < rounds, p.scanAddress (i + .ofNat (j + 1)) = p.gateway := by
      simp only [UInt32.ofNat_add, UInt32.add_assoc, UInt32.add_comm 1]
      rfl
    have hfirst : i + .ofNat 0 = i := UInt32.add_zero i
    rw [Nat.forall_lt_succ_left, hfirst, ← hnext, ← ih, scan, relocks_ite, relocks_bind, h]
    by_cases hgateway : p.scanAddress i = p.gateway <;> simp [hgateway]

end relocks

/-! ### The operations -/

variable {p : IPv4Pool}

theorem takeQuarantined_scan {clientId : ClientID} {found : Option UInt32} {q : IPv4Pool}
    (h : p.takeQuarantined clientId = (found, q)) :
    q.release = p.release ∧ q.poolSize = p.poolSize ∧ q.gateway = p.gateway ∧
      q.scanAddress = p.scanAddress := by
  unfold takeQuarantined dropQuarantined at h
  split at h
  · cases h
    exact ⟨rfl, rfl, rfl, rfl⟩
  · split at h <;> cases h <;> exact ⟨rfl, rfl, rfl, rfl⟩

theorem relocks_scan_takeQuarantined {clientId : ClientID} {q : IPv4Pool}
    (h : p.takeQuarantined clientId = (none, q)) (hrelease : q.release = [])
    {taken : UInt32 → Locked Mutex Bool} (htaken : ∀ ip, (taken ip).relocks held = true)
    (rounds : UInt32) :
    (q.scan taken rounds.toNat 0).relocks held = false ↔ p.EndsBeforeTest clientId rounds := by
  obtain ⟨hreleases, -, hgateway, hscan⟩ := takeQuarantined_scan h
  rw [relocks_scan q htaken, EndsBeforeTest, h, ← hreleases, hrelease, hgateway, hscan]
  simp

theorem relocks_allocateIP (h : Mutex.poolMutex ∉ held) (clientId : ClientID) :
    (p.allocateIP clientId).relocks held = false ↔ (Call.allocateIP clientId).Disciplined p := by
  simp only [allocateIP, relocks_lockGuard, h, decide_false, Bool.false_or, Call.Disciplined]
  cases p.reverseAllocated.lookup clientId with
  | some ip => simp
  | none =>
    rcases htake : p.takeQuarantined clientId with ⟨_ | ip, q⟩
    · cases hrelease : q.release with
      | cons newIP rest =>
        have hne : p.release ≠ [] := by
          rw [← (takeQuarantined_scan htake).1, hrelease]
          exact List.cons_ne_nil _ _
        simp [hrelease, EndsBeforeTest, hne]
      | nil =>
        simp only [hrelease]
        rw [relocks_bind_of_free, ← (takeQuarantined_scan htake).2.1,
          relocks_scan_takeQuarantined htake hrelease]
        · simp
        · simp
        · rintro (_ | ip) <;> rfl
    · simp [EndsBeforeTest, htake]

theorem relocks_offer (clientId : ClientID) :
    (allocateTemporaryIP.offer clientId p).relocks (.poolMutex :: held) = false ↔
      p.poolSize = 2 ∨ p.EndsBeforeTest clientId p.poolSize := by
  rw [allocateTemporaryIP.offer]
  rcases htake : p.takeQuarantined clientId with ⟨_ | ip, q⟩
  · cases hrelease : q.release with
    | cons newIP rest =>
      have hne : p.release ≠ [] := by
        rw [← (takeQuarantined_scan htake).1, hrelease]
        exact List.cons_ne_nil _ _
      simp [hrelease, EndsBeforeTest, hne]
    | nil =>
      simp only [hrelease, (takeQuarantined_scan htake).2.1, relocks_ite, relocks_pure]
      by_cases hsize : p.poolSize = 2
      · simp [hsize]
      · rw [if_neg hsize, relocks_bind_of_free, relocks_scan_takeQuarantined htake hrelease]
        · simp [hsize]
        · simp
        · rintro (_ | ip) <;> rfl
  · simp [EndsBeforeTest, htake]

theorem relocks_allocateTemporaryIP (h : Mutex.poolMutex ∉ held) (clientId : ClientID) :
    (p.allocateTemporaryIP clientId).relocks held = false ↔
      (Call.allocateTemporaryIP clientId).Disciplined p := by
  simp only [allocateTemporaryIP, relocks_lockGuard, h, decide_false, Bool.false_or,
    Call.Disciplined]
  cases p.reverseTemporary.lookup clientId with
  | none => simp [relocks_offer]
  | some ip =>
    cases hoffer : p.temporary.lookup ip with
    | some offer => simp [hoffer]
    | none =>
      -- the stale reverse entry is not read again
      simp only [hoffer, relocks_offer, EndsBeforeTest, takeQuarantined, scanAddress]
      grind

theorem relocks_allocateRequested (h : Mutex.poolMutex ∉ held) (ip : UInt32) (clientId : ClientID)
    (take : IPv4Pool → UInt32 → ClientID → IPv4Pool) :
    (p.allocateRequested ip clientId take).relocks held = false ↔ p.RefusedUntested ip clientId := by
  have hbook (q : IPv4Pool) : (allocateRequested.book ip clientId take q).relocks
      (.poolMutex :: held) = q.withinRange ip := by
    simp [allocateRequested.book]
  simp only [allocateRequested, relocks_lockGuard, h, decide_false, Bool.false_or, RefusedUntested]
  rcases p.quarantined.lookup ip with _ | ⟨client, timerId⟩
  · simp [hbook]
  · by_cases hclient : client = clientId
    · simp [hbook, hclient, dropQuarantined, withinRange]
    · simp [hclient]

theorem relocks_callback (h : Mutex.poolMutex ∉ held) (callback : Callback) :
    (callback.run p).relocks held = false ↔ ∀ ip c, callback ≠ .quarantined ip c := by
  cases callback <;> simp [Callback.run, h]

theorem relocks_fireTimer (h : Mutex.poolMutex ∉ held) (id : UInt32) :
    (p.fireTimer id).relocks held = false ↔ (Call.fireTimer id).Disciplined p := by
  rw [fireTimer, Call.Disciplined]
  rcases p.timeManager.fire id with _ | ⟨callback, timeManager⟩
  · simp
  · simp [relocks_callback h]

theorem relocks_iff (h : Mutex.poolMutex ∉ held) (call : Call) :
    call.relocks p held = false ↔ call.Disciplined p := by
  cases call with
  | allocateIP c => exact relocks_allocateIP h c
  | allocateTemporaryIP c => exact relocks_allocateTemporaryIP h c
  | allocateRequestedTemporaryIP ip c => exact relocks_allocateRequested h ip c _
  | allocateRequestedIP ip c => exact relocks_allocateRequested h ip c _
  | excludeIP ip => simp [Call.relocks, Call.Disciplined, excludeIP, h]
  | expireIP ip c => simp [Call.relocks, Call.Disciplined, expireIP]
  | releaseIP ip c => simp [Call.relocks, Call.Disciplined, releaseIP]
  | setConflicted ip => simp [Call.relocks, Call.Disciplined, setConflicted]
  | fireTimer id => exact relocks_fireTimer h id
  | activateTemporaryIP ip c =>
    simp only [Call.relocks, Call.Disciplined, activateTemporaryIP, relocks_lockGuard]
    cases p.temporary.lookup ip <;> simp [h]
  | clearTemporaryOffer ip =>
    simp only [Call.relocks, Call.Disciplined, clearTemporaryOffer, relocks_lockGuard]
    cases p.temporary.lookup ip <;> simp [h]
  | getTemporaryIPForClient c => simp [Call.relocks, Call.Disciplined, getTemporaryIPForClient, h]
  | removeExclusion ip => simp [Call.relocks, Call.Disciplined, removeExclusion, h]
  | isAllocated ip => simp [Call.relocks, Call.Disciplined, h]
  | isExcluded ip => simp [Call.relocks, Call.Disciplined, h]
  | isConflicted ip => simp [Call.relocks, Call.Disciplined, isConflicted, h]
  | isTemporarilyOffered ip => simp [Call.relocks, Call.Disciplined, isTemporarilyOffered, h]
  | isTemporarilyOfferedTo ip c => simp [Call.relocks, Call.Disciplined, isTemporarilyOfferedTo, h]
  | matchIPToClient ip c => simp [Call.relocks, Call.Disciplined, matchIPToClient, h]
  | isReserved ip => simp [Call.relocks, Call.Disciplined, h]
  | adjustPool net len gw => simp [Call.relocks, Call.Disciplined, adjustPool, h]

end IPv4Pool

/-! ## DHCPv4 leases -/

namespace IPv4LeaseManager

/-- The operations of the lease manager. -/
inductive Call where
  | createLeaseFromTemp (clientId : ClientID) (tempIp leaseTime t1 t2 : UInt32)
  | createLease (clientId : ClientID) (leaseTime t1 t2 : UInt32)
  | createLeaseFromReq (clientId : ClientID) (reqIp leaseTime t1 t2 : UInt32)
  | renewLease (clientId : ClientID) (leaseTime t1 t2 : UInt32)
  | rebindLease (clientId : ClientID) (ip leaseTime t1 t2 : UInt32)
  | releaseLease (clientId : ClientID)
  | declineLease (clientId : ClientID) (ip : UInt32)
  | hasLease (clientId : ClientID) (ip : UInt32)
  | match_ (clientId : ClientID) (ip : UInt32)
  | getIP (clientId : ClientID)
  | size
  | getLease (clientId : ClientID) (ip : UInt32)
  | expireLease (clientId : ClientID)
  | fireTimer (timerId : UInt32)

def Call.relocks (m : IPv4LeaseManager) : Call → List Mutex → Bool
  | .createLeaseFromTemp c ip leaseTime t1 t2 => (m.createLeaseFromTemp c ip leaseTime t1 t2).relocks
  | .createLease c leaseTime t1 t2 => (m.createLease c leaseTime t1 t2).relocks
  | .createLeaseFromReq c ip leaseTime t1 t2 => (m.createLeaseFromReq c ip leaseTime t1 t2).relocks
  | .renewLease c leaseTime t1 t2 => (m.renewLease c leaseTime t1 t2).relocks
  | .rebindLease c ip leaseTime t1 t2 => (m.rebindLease c ip leaseTime t1 t2).relocks
  | .releaseLease c => (m.releaseLease c).relocks
  | .declineLease c ip => (m.declineLease c ip).relocks
  | .hasLease c ip => (m.hasLease c ip).relocks
  | .match_ c ip => (m.match_ c ip).relocks
  | .getIP c => (m.getIP c).relocks
  | .size => m.size.relocks
  | .getLease c ip => (m.getLease c ip).relocks
  | .expireLease c => (m.expireLease c).relocks
  | .fireTimer id => (m.fireTimer id).relocks

/-- A call takes no mutex that is held: `rebindLease` renews under the mutex, and the end of a
    lease goes through a pool operation that relocks. -/
def Call.Disciplined (m : IPv4LeaseManager) : Call → Prop
  | .createLease c .. =>
    (m.leases.lookup c).isSome ∨ (IPv4Pool.Call.allocateIP c).Disciplined m.pool
  | .createLeaseFromReq c ip .. =>
    (m.leases.lookup c).isSome ∨ (IPv4Pool.Call.allocateRequestedIP ip c).Disciplined m.pool
  | .rebindLease c ip .. => ∀ lease, m.leases.lookup c = some lease → lease.ip ≠ ip
  | .releaseLease c | .declineLease c _ | .expireLease c => m.leases.lookup c = none
  | .fireTimer id =>
    ∀ callback timeManager, m.pool.timeManager.fire id = some (callback, timeManager) →
      match callback with
      | .lease c => m.leases.lookup c = none
      | callback => ∀ ip c, callback ≠ .quarantined ip c
  | _ => True

variable {m : IPv4LeaseManager}

theorem relocks_pool (p : IPv4Pool) (call : IPv4Pool.Call) :
    call.relocks p [.leaseMutex] = false ↔ call.Disciplined p :=
  IPv4Pool.relocks_iff (by simp) call

theorem relocks_createLeaseFromTemp (clientId : ClientID) (tempIp leaseTime t1 t2 : UInt32) :
    (m.createLeaseFromTemp clientId tempIp leaseTime t1 t2).relocks [] = false := by
  have hactivate : (m.pool.activateTemporaryIP tempIp clientId).relocks [.leaseMutex] = false :=
    (relocks_pool m.pool (.activateTemporaryIP tempIp clientId)).2 trivial
  simp [createLeaseFromTemp, hactivate]

theorem relocks_createLease (clientId : ClientID) (leaseTime t1 t2 : UInt32) :
    (m.createLease clientId leaseTime t1 t2).relocks [] = false ↔
      (Call.createLease clientId leaseTime t1 t2).Disciplined m := by
  rw [Call.Disciplined, ← relocks_pool m.pool (.allocateIP clientId), IPv4Pool.Call.relocks,
    createLease, relocks_lockGuard, relocks_ite, relocks_bind_of_free]
  · by_cases hlease : (m.leases.lookup clientId).isSome <;> simp [hlease]
  · intro final
    rw [relocks_ite]
    split <;> rfl

theorem relocks_createLeaseFromReq (clientId : ClientID) (reqIp leaseTime t1 t2 : UInt32) :
    (m.createLeaseFromReq clientId reqIp leaseTime t1 t2).relocks [] = false ↔
      (Call.createLeaseFromReq clientId reqIp leaseTime t1 t2).Disciplined m := by
  rw [Call.Disciplined, ← relocks_pool m.pool (.allocateRequestedIP reqIp clientId),
    IPv4Pool.Call.relocks, createLeaseFromReq, relocks_lockGuard, relocks_ite, relocks_bind_of_free]
  · by_cases hlease : (m.leases.lookup clientId).isSome <;> simp [hlease]
  · intro allocated
    rw [relocks_ite]
    split <;> rfl

theorem relocks_rebindLease (clientId : ClientID) (ip leaseTime t1 t2 : UInt32) :
    (m.rebindLease clientId ip leaseTime t1 t2).relocks [] = false ↔
      (Call.rebindLease clientId ip leaseTime t1 t2).Disciplined m := by
  rw [Call.Disciplined, rebindLease, relocks_lockGuard]
  cases m.leases.lookup clientId with
  | none => simp
  | some lease => by_cases hip : lease.ip = ip <;> simp [hip, renewLease]

theorem relocks_expireLease (clientId : ClientID) :
    (m.expireLease clientId).relocks [] = false ↔ m.leases.lookup clientId = none := by
  rw [expireLease, relocks_lockGuard]
  cases m.leases.lookup clientId with
  | none => simp
  | some lease => simp [IPv4Pool.expireIP]

theorem relocks_fireTimer (id : UInt32) :
    (m.fireTimer id).relocks [] = false ↔ (Call.fireTimer id).Disciplined m := by
  rw [fireTimer, Call.Disciplined]
  rcases m.pool.timeManager.fire id with _ | ⟨callback, timeManager⟩
  · simp
  · cases callback with
    | lease c => simp [relocks_expireLease]
    | _ => simp [IPv4Pool.Callback.run]

theorem relocks_iff (call : Call) : call.relocks m [] = false ↔ call.Disciplined m := by
  cases call with
  | createLeaseFromTemp c ip leaseTime t1 t2 =>
    exact iff_of_true (relocks_createLeaseFromTemp c ip leaseTime t1 t2) trivial
  | createLease c leaseTime t1 t2 => exact relocks_createLease c leaseTime t1 t2
  | createLeaseFromReq c ip leaseTime t1 t2 => exact relocks_createLeaseFromReq c ip leaseTime t1 t2
  | rebindLease c ip leaseTime t1 t2 => exact relocks_rebindLease c ip leaseTime t1 t2
  | releaseLease c =>
    rw [Call.relocks, releaseLease, relocks_lockGuard, Call.Disciplined]
    cases m.leases.lookup c <;> simp [IPv4Pool.releaseIP]
  | declineLease c ip =>
    rw [Call.relocks, declineLease, relocks_lockGuard, Call.Disciplined]
    cases m.leases.lookup c <;> simp [IPv4Pool.setConflicted]
  | expireLease c => exact relocks_expireLease c
  | fireTimer id => exact relocks_fireTimer id
  | renewLease c leaseTime t1 t2 =>
    refine iff_of_true ?_ trivial
    rw [Call.relocks, renewLease, relocks_lockGuard]
    cases m.leases.lookup c <;> simp
  | hasLease c ip => simp [Call.relocks, Call.Disciplined, hasLease]
  | match_ c ip => simp [Call.relocks, Call.Disciplined, match_]
  | getIP c => simp [Call.relocks, Call.Disciplined, getIP]
  | size => simp [Call.relocks, Call.Disciplined, size]
  | getLease c ip => simp [Call.relocks, Call.Disciplined, getLease]

end IPv4LeaseManager

/-! ## DHCPv6 pool -/

namespace IPv6Pool

/-- The operations of the pool. -/
inductive Call where
  | allocate (draws : ℕ → BitVec 128)
  | allocateAdvertised (key : IAKey) (draws : ℕ → BitVec 128)
  | allocateRequestedAdvertised (key : IALeaseKey) (freed : BitVec 128)
  | allocateRequested (key : IALeaseKey) (freed : BitVec 128)
  | activateAdvertised (key : IALeaseKey)
  | clearAdvertisedIP (key : IALeaseKey)
  | release (addr : BitVec 128)
  | expire (key : IALeaseKey)
  | excludeIP (addr : BitVec 128)
  | removeExclusion (addr : BitVec 128)
  | setConflicted (key : IALeaseKey)
  | cleanupBadIPs
  | isAllocated (addr : BitVec 128)
  | isQuarantined (addr : BitVec 128)
  | isExcluded (addr : BitVec 128)
  | isConflicted (addr : BitVec 128)
  | isAdvertised (addr : BitVec 128)
  | isAdvertisedKey (key : IALeaseKey)
  | isAllocatedOrExcluded (addr : BitVec 128)
  | adjustPool (network : BitVec 128) (prefixLen : UInt8)
  | fireTimer (timerId : UInt32)

def Call.relocks (p : IPv6Pool) : Call → List Mutex → Bool
  | .allocate draws => (p.allocate draws).relocks
  | .allocateAdvertised key draws => (p.allocateAdvertised key draws).relocks
  | .allocateRequestedAdvertised key freed => (p.allocateRequestedAdvertised key freed).relocks
  | .allocateRequested key freed => (p.allocateRequested key freed).relocks
  | .activateAdvertised key => (p.activateAdvertised key).relocks
  | .clearAdvertisedIP key => (p.clearAdvertisedIP key).relocks
  | .release addr => (p.release addr).relocks
  | .expire key => (p.expire key).relocks
  | .excludeIP addr => (p.excludeIP addr).relocks
  | .removeExclusion addr => (p.removeExclusion addr).relocks
  | .setConflicted key => (p.setConflicted key).relocks
  | .cleanupBadIPs => p.cleanupBadIPs.relocks
  | .isAllocated addr => (p.isAllocated addr).relocks
  | .isQuarantined addr => (p.isQuarantined addr).relocks
  | .isExcluded addr => (p.isExcluded addr).relocks
  | .isConflicted addr => (p.isConflicted addr).relocks
  | .isAdvertised addr => (p.isAdvertised addr).relocks
  | .isAdvertisedKey key => (p.isAdvertisedKey key).relocks
  | .isAllocatedOrExcluded addr => (p.isAllocatedOrExcluded addr).relocks
  | .adjustPool network len => (p.adjustPool network len).relocks
  | .fireTimer id => (p.fireTimer id).relocks

/-- A call takes no mutex that is held: the first attempt of an allocation relocks already. -/
def Call.Disciplined (p : IPv6Pool) : Call → Prop
  | .allocate _ | .allocateAdvertised .. | .expire _ | .setConflicted _ => False
  | .allocateRequestedAdvertised key _ | .allocateRequested key _ =>
    p.withinRange key.address = false
  | _ => True

theorem relocks_attempt (p : IPv6Pool) (draws : ℕ → BitVec 128) (attempts i : ℕ) :
    (p.attempt draws (attempts + 1) i).relocks (.poolMutex :: held) = true := by
  simp [attempt, isTaken, isExcluded]

theorem relocks_request (h : Mutex.poolMutex ∉ held) (p : IPv6Pool) (key : IALeaseKey)
    (freed : BitVec 128) (take : IPv6Pool → IALeaseKey → IPv6Pool) :
    (p.request key freed take).relocks held = false ↔ p.withinRange key.address = false := by
  have hrange : (p.takeQuarantined key freed).withinRange key.address =
      p.withinRange key.address := by
    unfold takeQuarantined
    split <;> rfl
  simp only [request, relocks_lockGuard, h, hrange, isRefused, isExcluded]
  cases p.withinRange key.address <;> simp

theorem relocks_iff (h : Mutex.poolMutex ∉ held) (p : IPv6Pool) (call : Call) :
    call.relocks p held = false ↔ call.Disciplined p := by
  cases call with
  | allocate draws =>
    simp only [Call.relocks, Call.Disciplined, allocate, relocks_lockGuard, relocks_bind]
    rw [maxGenerationAttempts, relocks_attempt]
    simp
  | allocateAdvertised key draws =>
    simp only [Call.relocks, Call.Disciplined, allocateAdvertised, relocks_lockGuard, relocks_bind]
    rw [maxGenerationAttempts, relocks_attempt]
    simp
  | allocateRequestedAdvertised key freed => exact relocks_request h p key freed _
  | allocateRequested key freed => exact relocks_request h p key freed _
  | expire key => simp [Call.relocks, Call.Disciplined, expire, isAllocated]
  | setConflicted key => simp [Call.relocks, Call.Disciplined, setConflicted, isAdvertisedKey]
  | activateAdvertised key =>
    simp only [Call.relocks, Call.Disciplined, activateAdvertised, relocks_lockGuard]
    cases p.advertised.lookup key <;> simp [h]
  | fireTimer id =>
    simp only [Call.relocks, Call.Disciplined, fireTimer]
    rcases p.timeManager.fire id with _ | ⟨callback, timeManager⟩
    · simp
    · cases callback <;> simp [Callback.run, h]
  | adjustPool network len =>
    simp only [Call.relocks, Call.Disciplined, adjustPool]
    split_ifs <;> simp [h]
  | isAllocatedOrExcluded addr =>
    simp [Call.relocks, Call.Disciplined, isAllocatedOrExcluded, isAllocated, isExcluded, h]
  | clearAdvertisedIP key => simp [Call.relocks, Call.Disciplined, clearAdvertisedIP, h]
  | release addr => simp [Call.relocks, Call.Disciplined, release, h]
  | excludeIP addr => simp [Call.relocks, Call.Disciplined, excludeIP, h]
  | removeExclusion addr => simp [Call.relocks, Call.Disciplined, removeExclusion, h]
  | cleanupBadIPs => simp [Call.relocks, Call.Disciplined, cleanupBadIPs, h]
  | isAllocated addr => simp [Call.relocks, Call.Disciplined, isAllocated, h]
  | isQuarantined addr => simp [Call.relocks, Call.Disciplined, isQuarantined, h]
  | isExcluded addr => simp [Call.relocks, Call.Disciplined, isExcluded, h]
  | isConflicted addr => simp [Call.relocks, Call.Disciplined, isConflicted, h]
  | isAdvertised addr => simp [Call.relocks, Call.Disciplined, isAdvertised, h]
  | isAdvertisedKey key => simp [Call.relocks, Call.Disciplined, isAdvertisedKey, h]

end IPv6Pool

/-! ## DHCPv6 leases -/

namespace IPv6LeaseManager

/-- The operations of the lease manager that take its mutex. -/
inductive Call where
  | createLease (key : IAKey) (draws : ℕ → BitVec 128)
  | createLeaseFromAdvertised (addr : BitVec 128) (key : IAKey)
  | createLeaseFromRequest (addr : BitVec 128) (key : IAKey) (freed : BitVec 128)
  | renewLease (addr : BitVec 128) (key : IAKey)
  | rebindLease (addr : BitVec 128) (key : IAKey)
  | releaseLease (addr : BitVec 128) (key : IAKey)
  | declineLease (addr : BitVec 128) (key : IAKey)
  | getIANA (key : IAKey)
  | size
  | expireLease (addr : BitVec 128) (key : IAKey)
  | fireTimer (timerId : UInt32)

def Call.relocks (m : IPv6LeaseManager) : Call → List Mutex → Bool
  | .createLease key draws => (m.createLease key draws).relocks
  | .createLeaseFromAdvertised addr key => (m.createLeaseFromAdvertised addr key).relocks
  | .createLeaseFromRequest addr key freed => (m.createLeaseFromRequest addr key freed).relocks
  | .renewLease addr key => (m.renewLease addr key).relocks
  | .rebindLease addr key => (m.rebindLease addr key).relocks
  | .releaseLease addr key => (m.releaseLease addr key).relocks
  | .declineLease addr key => (m.declineLease addr key).relocks
  | .getIANA key => (m.getIANA key).relocks
  | .size => m.size.relocks
  | .expireLease addr key => (m.expireLease addr key).relocks
  | .fireTimer id => (m.fireTimer id).relocks

/-- The end of the lease of an address goes to the pool. -/
def Expires (m : IPv6LeaseManager) (addr : BitVec 128) (key : IAKey) : Prop :=
  (m.leases.lookup key).isSome ∧ (m.leaseTimerIDs.lookup addr).isSome

def Call.Disciplined (m : IPv6LeaseManager) : Call → Prop
  | .createLease .. | .declineLease .. => False
  | .createLeaseFromRequest addr .. =>
    (m.leaseKeys.lookup addr).isSome ∧ (m.leaseTimerIDs.lookup addr).isSome ∨
      m.pool.withinRange addr = false
  | .expireLease addr key => ¬ m.Expires addr key
  | .fireTimer id =>
    ∀ addr key timeManager, m.pool.timeManager.fire id = some (.lease addr key, timeManager) →
      ¬ m.Expires addr key
  | _ => True

variable {m : IPv6LeaseManager}

theorem relocks_pool (p : IPv6Pool) (call : IPv6Pool.Call) :
    call.relocks p [.leaseMutex] = false ↔ call.Disciplined p :=
  IPv6Pool.relocks_iff (by simp) p call

theorem relocks_createLeaseFrom (addr : BitVec 128) (key : IAKey)
    (take : IPv6Pool → Locked Mutex (Dhcpv6StatusCode × IPv6Pool)) :
    (m.createLeaseFrom addr key take).relocks [] = false ↔
      (m.leaseKeys.lookup addr).isSome ∧ (m.leaseTimerIDs.lookup addr).isSome ∨
        (take m.pool).relocks [.leaseMutex] = false := by
  rw [createLeaseFrom, relocks_lockGuard]
  cases m.leaseKeys.lookup addr <;> cases m.leaseTimerIDs.lookup addr <;> simp

theorem relocks_expireLease (addr : BitVec 128) (key : IAKey) :
    (m.expireLease addr key).relocks [] = false ↔ ¬ m.Expires addr key := by
  rw [expireLease, relocks_lockGuard, Expires]
  cases m.leases.lookup key <;> cases m.leaseTimerIDs.lookup addr <;>
    simp [IPv6Pool.expire, IPv6Pool.isAllocated]

theorem relocks_iff (call : Call) : call.relocks m [] = false ↔ call.Disciplined m := by
  cases call with
  | createLease key draws =>
    have hpool : (m.pool.allocate draws).relocks [.leaseMutex] = true :=
      Bool.eq_true_of_not_eq_false (relocks_pool m.pool (.allocate draws)).1
    simp [Call.relocks, Call.Disciplined, createLease, hpool]
  | createLeaseFromAdvertised addr key =>
    have hpool : (m.pool.activateAdvertised (key.lease addr)).relocks [.leaseMutex] = false :=
      (relocks_pool m.pool (.activateAdvertised (key.lease addr))).2 trivial
    rw [Call.relocks, createLeaseFromAdvertised, relocks_createLeaseFrom]
    simp [Call.Disciplined, hpool]
  | createLeaseFromRequest addr key freed =>
    rw [Call.relocks, createLeaseFromRequest, relocks_createLeaseFrom, Call.Disciplined]
    exact or_congr_right (relocks_pool m.pool (.allocateRequested (key.lease addr) freed))
  | renewLease addr key =>
    simp only [Call.relocks, Call.Disciplined, renewLease, relocks_lockGuard]
    cases m.leaseTimer addr key <;> simp
  | rebindLease addr key =>
    simp only [Call.relocks, Call.Disciplined, rebindLease, renewLease, relocks_lockGuard]
    cases m.leaseTimer addr key <;> simp
  | releaseLease addr key =>
    simp only [Call.relocks, Call.Disciplined, releaseLease, relocks_lockGuard]
    cases m.leaseTimer addr key <;> simp [IPv6Pool.release]
  | declineLease addr key =>
    simp [Call.relocks, Call.Disciplined, declineLease, IPv6Pool.setConflicted,
      IPv6Pool.isAdvertisedKey]
  | expireLease addr key => exact relocks_expireLease addr key
  | fireTimer id =>
    rw [Call.relocks, Call.Disciplined, fireTimer]
    rcases m.pool.timeManager.fire id with _ | ⟨callback, timeManager⟩
    · simp
    · cases callback <;> simp [IPv6Pool.Callback.run, relocks_expireLease, Expires]
  | getIANA key => simp [Call.relocks, Call.Disciplined, getIANA]
  | size => simp [Call.relocks, Call.Disciplined, size]

end IPv6LeaseManager

/-! ## Prefix pool -/

namespace PrefixPool

/-- The operations of the pool. -/
inductive Call where
  | allocatePrefix (requestedLength : UInt8)
  | allocateAdvertisedPrefix (key : IAKey) (requestedLength : UInt8)
  | allocateRequestedAdvertisedPrefix (key : IAPrefixKey)
  | allocateRequestedPrefix (key : IAPrefixKey)
  | activateAdvertisedPrefix (key : IAPrefixKey)
  | releasePrefix (pfx : IPv6Prefix)
  | expirePrefix (key : IAPrefixKey)
  | setConflicted (key : IAPrefixKey)
  | excludePrefix (pfx : IPv6Prefix)
  | removeExclusion (pfx : IPv6Prefix)
  | isAllocated (pfx : IPv6Prefix)
  | isAdvertised (pfx : IPv6Prefix)
  | isQuarantined (pfx : IPv6Prefix)
  | isExcluded (pfx : IPv6Prefix)
  | isConflicted (pfx : IPv6Prefix)
  | isFull
  | adjustPool (newBase : IPv6Prefix) (newDelegationLength : ℕ)
  | fireTimer (timerId : UInt32)

def Call.relocks (p : PrefixPool) : Call → List Mutex → Bool
  | .allocatePrefix length => (p.allocatePrefix length).relocks
  | .allocateAdvertisedPrefix key length => (p.allocateAdvertisedPrefix key length).relocks
  | .allocateRequestedAdvertisedPrefix key => (p.allocateRequestedAdvertisedPrefix key).relocks
  | .allocateRequestedPrefix key => (p.allocateRequestedPrefix key).relocks
  | .activateAdvertisedPrefix key => (p.activateAdvertisedPrefix key).relocks
  | .releasePrefix pfx => (p.releasePrefix pfx).relocks
  | .expirePrefix key => (p.expirePrefix key).relocks
  | .setConflicted key => (p.setConflicted key).relocks
  | .excludePrefix pfx => (p.excludePrefix pfx).relocks
  | .removeExclusion pfx => (p.removeExclusion pfx).relocks
  | .isAllocated pfx => (p.isAllocated pfx).relocks
  | .isAdvertised pfx => (p.isAdvertised pfx).relocks
  | .isQuarantined pfx => (p.isQuarantined pfx).relocks
  | .isExcluded pfx => (p.isExcluded pfx).relocks
  | .isConflicted pfx => (p.isConflicted pfx).relocks
  | .isFull => p.isFull.relocks
  | .adjustPool base length => (p.adjustPool base length).relocks
  | .fireTimer id => (p.fireTimer id).relocks

/-- The prefixes that are tried with a hint end before one is in range. -/
def TriesNone (p : PrefixPool) (requestedLength : UInt8) : Prop :=
  p.effectiveLength requestedLength = p.base.prefixLength → p.withinRange p.base = false

def Call.Disciplined (p : PrefixPool) : Call → Prop
  | .allocatePrefix length | .allocateAdvertisedPrefix _ length => p.TriesNone length
  | .allocateRequestedAdvertisedPrefix key =>
    p.effectiveLength key.prefixLength < p.base.prefixLength ∨
      p.withinRange (.ofAddress key.address (p.effectiveLength key.prefixLength)) = false
  | .allocateRequestedPrefix key =>
    p.effectiveLength key.prefixLength < p.base.prefixLength ∨ p.withinRange key.pfx = false
  | .expirePrefix _ | .setConflicted _ => False
  | _ => True

theorem relocks_isTaken (p : PrefixPool) (pfx : IPv6Prefix) :
    (p.isTaken pfx).relocks (.poolMutex :: held) = p.withinRange pfx := by
  simp [isTaken, isAllocated]

theorem relocks_attempt_longer {p : PrefixPool} {length : UInt8}
    (h : p.base.prefixLength < length) (attempts i : ℕ) :
    (p.attempt length attempts i).relocks (.poolMutex :: held) = false := by
  induction attempts generalizing i with
  | zero => rfl
  | succ attempts ih =>
    have hrange : p.withinRange (p.generatePrefix (.ofNat 64 i) length) = false := by
      rw [withinRange, Bool.and_eq_false_iff]
      exact .inr (decide_eq_false (UInt8.not_le.2 h))
    have htaken : (p.isTaken (p.generatePrefix (.ofNat 64 i) length)).value = true := by
      simp [isTaken, hrange]
    rw [attempt, relocks_bind, relocks_isTaken, hrange, htaken, if_pos rfl, ih]
    rfl

theorem relocks_attempt_base (p : PrefixPool) :
    (p.attempt p.base.prefixLength 1 0).relocks (.poolMutex :: held) = p.withinRange p.base := by
  have hgenerated : p.generatePrefix (.ofNat 64 0) p.base.prefixLength = p.base := by
    simp [generatePrefix]
  rw [attempt, hgenerated, relocks_bind_of_free, relocks_isTaken]
  intro taken
  cases taken <;> rfl

theorem relocks_generate (h : Mutex.poolMutex ∉ held) (p : PrefixPool) (requestedLength : UInt8)
    (take : IPv6Prefix → PrefixPool) :
    (p.generate requestedLength take).relocks held = false ↔ p.TriesNone requestedLength := by
  simp only [generate, relocks_lockGuard, h, decide_false, Bool.false_or, relocks_ite, TriesNone]
  by_cases hlt : p.effectiveLength requestedLength < p.base.prefixLength
  · have hne : p.effectiveLength requestedLength ≠ p.base.prefixLength :=
      fun heq => UInt8.lt_irrefl _ (heq ▸ hlt)
    simp [hlt, hne]
  rw [if_neg hlt, relocks_bind_of_free]
  · by_cases heq : p.effectiveLength requestedLength = p.base.prefixLength
    · have hcount : min (shiftedOne (p.base.prefixLength.toNat - p.base.prefixLength.toNat)).toNat
          maxGenerationAttempts = 1 := by
        rw [Nat.sub_self]
        rfl
      rw [heq, hcount, relocks_attempt_base]
      simp
    · have hgt : p.base.prefixLength < p.effectiveLength requestedLength :=
        UInt8.lt_of_le_of_ne (UInt8.not_lt.1 hlt) (Ne.symm heq)
      simp [relocks_attempt_longer hgt, heq]
  · rintro (_ | pfx) <;> rfl

theorem withinRange_takeQuarantined (p : PrefixPool) (key : IAPrefixKey) (x y : IPv6Prefix) :
    (p.takeQuarantined key x).withinRange y = p.withinRange y := by
  unfold takeQuarantined
  split <;> rfl

theorem relocks_allocateRequestedAdvertisedPrefix (h : Mutex.poolMutex ∉ held) (p : PrefixPool)
    (key : IAPrefixKey) :
    (p.allocateRequestedAdvertisedPrefix key).relocks held = false ↔
      (Call.allocateRequestedAdvertisedPrefix key).Disciplined p := by
  simp only [allocateRequestedAdvertisedPrefix, relocks_lockGuard, h, relocks_ite,
    withinRange_takeQuarantined, Call.Disciplined, isAllocated]
  by_cases hlt : p.effectiveLength key.prefixLength < p.base.prefixLength
  · simp [hlt]
  · cases p.withinRange (.ofAddress key.address (p.effectiveLength key.prefixLength)) <;> simp [hlt]

theorem relocks_allocateRequestedPrefix (h : Mutex.poolMutex ∉ held) (p : PrefixPool)
    (key : IAPrefixKey) :
    (p.allocateRequestedPrefix key).relocks held = false ↔
      (Call.allocateRequestedPrefix key).Disciplined p := by
  simp only [allocateRequestedPrefix, relocks_lockGuard, h, relocks_ite,
    withinRange_takeQuarantined, Call.Disciplined, isAllocated]
  by_cases hlt : p.effectiveLength key.prefixLength < p.base.prefixLength
  · simp [hlt]
  · cases p.withinRange key.pfx <;> simp [hlt]

theorem relocks_iff (h : Mutex.poolMutex ∉ held) (p : PrefixPool) (call : Call) :
    call.relocks p held = false ↔ call.Disciplined p := by
  cases call with
  | allocatePrefix length => exact relocks_generate h p length _
  | allocateAdvertisedPrefix key length => exact relocks_generate h p length _
  | allocateRequestedAdvertisedPrefix key => exact relocks_allocateRequestedAdvertisedPrefix h p key
  | allocateRequestedPrefix key => exact relocks_allocateRequestedPrefix h p key
  | expirePrefix key => simp [Call.relocks, Call.Disciplined, expirePrefix, isAllocated]
  | setConflicted key => simp [Call.relocks, Call.Disciplined, setConflicted, isAllocated]
  | activateAdvertisedPrefix key =>
    simp only [Call.relocks, Call.Disciplined, activateAdvertisedPrefix, relocks_lockGuard]
    cases p.advertised.lookup key <;> simp [h]
  | fireTimer id =>
    simp only [Call.relocks, Call.Disciplined, fireTimer]
    rcases p.timeManager.fire id with _ | ⟨callback, timeManager⟩
    · simp
    · cases callback <;> simp [Callback.run, h]
  | adjustPool base length =>
    simp only [Call.relocks, Call.Disciplined, adjustPool]
    split_ifs <;> simp [h]
  | releasePrefix pfx => simp [Call.relocks, Call.Disciplined, releasePrefix, h]
  | excludePrefix pfx => simp [Call.relocks, Call.Disciplined, excludePrefix, h]
  | removeExclusion pfx => simp [Call.relocks, Call.Disciplined, removeExclusion, h]
  | isAllocated pfx => simp [Call.relocks, Call.Disciplined, isAllocated, h]
  | isAdvertised pfx => simp [Call.relocks, Call.Disciplined, isAdvertised, h]
  | isQuarantined pfx => simp [Call.relocks, Call.Disciplined, isQuarantined, h]
  | isExcluded pfx => simp [Call.relocks, Call.Disciplined, isExcluded, h]
  | isConflicted pfx => simp [Call.relocks, Call.Disciplined, isConflicted, h]
  | isFull => simp [Call.relocks, Call.Disciplined, isFull, h]

end PrefixPool

/-! ## Prefix leases -/

namespace PrefixLeaseManager

/-- The operations of the lease manager. -/
inductive Call where
  | createPrefix (key : IAKey) (length : UInt8)
  | createAnyPrefix (key : IAKey)
  | createPrefixFromAdvertised (pfx : IPv6Prefix) (key : IAKey)
  | createPrefixFromRequest (pfx : IPv6Prefix) (key : IAKey)
  | renewPrefix (pfx : IPv6Prefix) (key : IAKey)
  | rebindPrefix (pfx : IPv6Prefix) (key : IAKey)
  | releasePrefix (pfx : IPv6Prefix) (key : IAKey)
  | declinePrefix (pfx : IPv6Prefix) (key : IAKey)
  | getPrefixes (key : IAKey)
  | match_ (key : IAKey) (pfx : IPv6Prefix)
  | size
  | expirePrefix (pfx : IPv6Prefix) (key : IAKey)
  | fireTimer (timerId : UInt32)

def Call.relocks (m : PrefixLeaseManager) : Call → List Mutex → Bool
  | .createPrefix key length => (m.createPrefix key length).relocks
  | .createAnyPrefix key => (m.createAnyPrefix key).relocks
  | .createPrefixFromAdvertised pfx key => (m.createPrefixFromAdvertised pfx key).relocks
  | .createPrefixFromRequest pfx key => (m.createPrefixFromRequest pfx key).relocks
  | .renewPrefix pfx key => (m.renewPrefix pfx key).relocks
  | .rebindPrefix pfx key => (m.rebindPrefix pfx key).relocks
  | .releasePrefix pfx key => (m.releasePrefix pfx key).relocks
  | .declinePrefix pfx key => (m.declinePrefix pfx key).relocks
  | .getPrefixes key => (m.getPrefixes key).relocks
  | .match_ key pfx => (m.match_ key pfx).relocks
  | .size => m.size.relocks
  | .expirePrefix pfx key => (m.expirePrefix pfx key).relocks
  | .fireTimer id => (m.fireTimer id).relocks

/-- The end of the lease of a prefix goes to the pool. -/
def Expires (m : PrefixLeaseManager) (pfx : IPv6Prefix) (key : IAKey) : Prop :=
  (m.prefixes.lookup key).isSome ∧ (m.prefixTimerIDs.lookup pfx).isSome

def Call.Disciplined (m : PrefixLeaseManager) : Call → Prop
  | .createPrefix _ length => m.pool.TriesNone length
  | .createAnyPrefix _ => m.pool.TriesNone 0
  | .createPrefixFromRequest pfx key =>
    (m.prefixKeys.lookup pfx).isSome ∧ (m.prefixTimerIDs.lookup pfx).isSome ∨
      (PrefixPool.Call.allocateRequestedPrefix (key.prefixKey pfx)).Disciplined m.pool
  | .declinePrefix .. => False
  | .expirePrefix pfx key => ¬ m.Expires pfx key
  | .fireTimer id =>
    ∀ pfx key timeManager, m.pool.timeManager.fire id = some (.lease pfx key, timeManager) →
      ¬ m.Expires pfx key
  | _ => True

variable {m : PrefixLeaseManager}

theorem relocks_pool (p : PrefixPool) (call : PrefixPool.Call) :
    call.relocks p [.leaseMutex] = false ↔ call.Disciplined p :=
  PrefixPool.relocks_iff (by simp) p call

theorem relocks_createPrefixFrom (pfx : IPv6Prefix) (key : IAKey)
    (take : PrefixPool → Locked Mutex (Dhcpv6StatusCode × PrefixPool)) :
    (m.createPrefixFrom pfx key take).relocks [] = false ↔
      (m.prefixKeys.lookup pfx).isSome ∧ (m.prefixTimerIDs.lookup pfx).isSome ∨
        (take m.pool).relocks [.leaseMutex] = false := by
  rw [createPrefixFrom, relocks_lockGuard]
  cases m.prefixKeys.lookup pfx <;> cases m.prefixTimerIDs.lookup pfx <;> simp

theorem relocks_expirePrefix (pfx : IPv6Prefix) (key : IAKey) :
    (m.expirePrefix pfx key).relocks [] = false ↔ ¬ m.Expires pfx key := by
  rw [expirePrefix, relocks_lockGuard, Expires]
  cases m.prefixes.lookup key <;> cases m.prefixTimerIDs.lookup pfx <;>
    simp [PrefixPool.expirePrefix, PrefixPool.isAllocated]

theorem relocks_iff (call : Call) : call.relocks m [] = false ↔ call.Disciplined m := by
  cases call with
  | createPrefix key length =>
    rw [Call.Disciplined, ← PrefixPool.Call.Disciplined, ← relocks_pool, PrefixPool.Call.relocks]
    simp [Call.relocks, createPrefix]
  | createAnyPrefix key =>
    rw [Call.Disciplined, ← PrefixPool.Call.Disciplined, ← relocks_pool, PrefixPool.Call.relocks]
    simp [Call.relocks, createAnyPrefix]
  | createPrefixFromAdvertised pfx key =>
    have hpool : (m.pool.activateAdvertisedPrefix (key.prefixKey pfx)).relocks [.leaseMutex] =
        false := (relocks_pool m.pool (.activateAdvertisedPrefix (key.prefixKey pfx))).2 trivial
    rw [Call.relocks, createPrefixFromAdvertised, relocks_createPrefixFrom]
    simp [Call.Disciplined, hpool]
  | createPrefixFromRequest pfx key =>
    rw [Call.relocks, createPrefixFromRequest, relocks_createPrefixFrom, Call.Disciplined,
      relocks_bind_of_free fun _ => rfl]
    exact or_congr_right (relocks_pool m.pool (.allocateRequestedPrefix (key.prefixKey pfx)))
  | renewPrefix pfx key =>
    simp only [Call.relocks, Call.Disciplined, renewPrefix, relocks_lockGuard]
    cases m.prefixTimer pfx key <;> simp
  | rebindPrefix pfx key =>
    simp only [Call.relocks, Call.Disciplined, rebindPrefix, renewPrefix, relocks_lockGuard]
    cases m.prefixTimer pfx key <;> simp
  | releasePrefix pfx key =>
    simp only [Call.relocks, Call.Disciplined, releasePrefix, relocks_lockGuard]
    cases m.prefixTimer pfx key <;> simp [PrefixPool.releasePrefix]
  | declinePrefix pfx key =>
    simp [Call.relocks, Call.Disciplined, declinePrefix, PrefixPool.setConflicted,
      PrefixPool.isAllocated]
  | expirePrefix pfx key => exact relocks_expirePrefix pfx key
  | fireTimer id =>
    rw [Call.relocks, Call.Disciplined, fireTimer]
    rcases m.pool.timeManager.fire id with _ | ⟨callback, timeManager⟩
    · simp
    · cases callback <;> simp [PrefixPool.Callback.run, relocks_expirePrefix, Expires]
  | getPrefixes key => simp [Call.relocks, Call.Disciplined, getPrefixes]
  | match_ key pfx => simp [Call.relocks, Call.Disciplined, match_]
  | size => simp [Call.relocks, Call.Disciplined, size]

end PrefixLeaseManager

/-! ## The six classes -/

/-- An operation of a pool or a lease manager, in a state of it. -/
inductive Call where
  | ipv4Pool (p : IPv4Pool) (call : IPv4Pool.Call)
  | ipv4LeaseManager (m : IPv4LeaseManager) (call : IPv4LeaseManager.Call)
  | ipv6Pool (p : IPv6Pool) (call : IPv6Pool.Call)
  | ipv6LeaseManager (m : IPv6LeaseManager) (call : IPv6LeaseManager.Call)
  | prefixPool (p : PrefixPool) (call : PrefixPool.Call)
  | prefixLeaseManager (m : PrefixLeaseManager) (call : PrefixLeaseManager.Call)

/-- Started with the mutexes `held`, the operation takes one that is held. -/
def Call.relocks : Call → List Mutex → Bool
  | .ipv4Pool p call => call.relocks p
  | .ipv4LeaseManager m call => call.relocks m
  | .ipv6Pool p call => call.relocks p
  | .ipv6LeaseManager m call => call.relocks m
  | .prefixPool p call => call.relocks p
  | .prefixLeaseManager m call => call.relocks m

/-- What the operation reads keeps it from the predicates that relock. -/
def Call.Disciplined : Call → Prop
  | .ipv4Pool p call => call.Disciplined p
  | .ipv4LeaseManager m call => call.Disciplined m
  | .ipv6Pool p call => call.Disciplined p
  | .ipv6LeaseManager m call => call.Disciplined m
  | .prefixPool p call => call.Disciplined p
  | .prefixLeaseManager m call => call.Disciplined m

/-- Started with all mutexes free, an operation takes no mutex twice if and only if it is
    disciplined. -/
theorem Call.free_iff_disciplined (call : Call) :
    call.relocks [] = false ↔ call.Disciplined := by
  cases call with
  | ipv4Pool p call => exact IPv4Pool.relocks_iff List.not_mem_nil call
  | ipv4LeaseManager m call => exact IPv4LeaseManager.relocks_iff call
  | ipv6Pool p call => exact IPv6Pool.relocks_iff List.not_mem_nil p call
  | ipv6LeaseManager m call => exact IPv6LeaseManager.relocks_iff call
  | prefixPool p call => exact PrefixPool.relocks_iff List.not_mem_nil p call
  | prefixLeaseManager m call => exact PrefixLeaseManager.relocks_iff call

/-- The release of an address relocks, on a new pool. -/
theorem releaseIP_relocks_new : ¬ ∀ call : Call, call.relocks [] = false :=
  fun h => absurd (h (.ipv4Pool {} (.releaseIP 1 []))) (by decide)

end VirtualRouter.Dhcp
