/-
  The DHCPv6 leases (`services/dhcp/dhcpv6/IPv6LeaseManager.cpp`).

  An association may lease several addresses: `leases` has the set of each
  association, `leaseKeys` the association of each address, `leaseTimerIDs` its
  timer.  The operations hold the mutex of the manager and call the pool, which
  has a mutex of its own; `rebindLease` and `isLeased` take none.

  * `IPv6LeaseManager.startLeaseTimer`, `IPv6LeaseManager.enterLease`,
    `IPv6LeaseManager.dropLease`: the edits of a lease;
  * the operations under their names;
  * `IPv6LeaseManager.fireTimer`: a timer of the manager or of its pool fires.
-/
import VirtualRouter.Dhcp.IPv6Pool

namespace VirtualRouter.Dhcp

open NestedMap Locked
open VirtualRouter.Core

/-- `IPv6LeaseManager`, with the pool it refers to. -/
structure IPv6LeaseManager where
  pool : IPv6Pool := {}
  leases : Map IAKey (Finset (BitVec 128)) := ∅
  leaseKeys : Map (BitVec 128) IAKey := ∅
  leaseTimerIDs : Map (BitVec 128) UInt32 := ∅

namespace IPv6LeaseManager

/-! ## Edits -/

def startLeaseTimer (m : IPv6LeaseManager) (addr : BitVec 128) (key : IAKey) : IPv6LeaseManager :=
  let timer := m.pool.timeManager.addTimer (.lease addr key)
  { m with
    pool := { m.pool with timeManager := timer.2 }
    leaseTimerIDs := m.leaseTimerIDs.insert addr timer.1 }

def cancelTimer (m : IPv6LeaseManager) (timerId : UInt32) : IPv6LeaseManager :=
  { m with pool := { m.pool with timeManager := m.pool.timeManager.cancelTimer timerId } }

def enterLease (m : IPv6LeaseManager) (addr : BitVec 128) (key : IAKey) : IPv6LeaseManager :=
  { m with
    leases := insertInto m.leases key addr
    leaseKeys := m.leaseKeys.insert addr key }

def dropLease (m : IPv6LeaseManager) (addr : BitVec 128) (key : IAKey) : IPv6LeaseManager :=
  { m with
    leases := eraseFrom m.leases key addr
    leaseTimerIDs := m.leaseTimerIDs.erase addr
    leaseKeys := m.leaseKeys.erase addr }

/-! ## Operations -/

def createLease (m : IPv6LeaseManager) (key : IAKey) (draws : ℕ → BitVec 128) :
    Locked Mutex (Finset (BitVec 128) × IPv6LeaseManager) :=
  lockGuard .leaseMutex do
    let drawn ← m.pool.allocate draws
    let m := { m with pool := drawn.2 }
    if drawn.1 = 0 then pure (∅, m)
    else
      let m := (m.startLeaseTimer drawn.1 key).enterLease drawn.1 key
      pure (groupOf m.leases key, m)

/-- The body of `createLeaseFromAdvertised` and `createLeaseFromRequest`: an address that is leased
    is renewed for its association, any other is taken from the pool with `take`. -/
def createLeaseFrom (m : IPv6LeaseManager) (addr : BitVec 128) (key : IAKey)
    (take : IPv6Pool → Locked Mutex (Dhcpv6StatusCode × IPv6Pool)) :
    Locked Mutex (Dhcpv6StatusCode × IPv6LeaseManager) :=
  lockGuard .leaseMutex <|
    match m.leaseKeys.lookup addr, m.leaseTimerIDs.lookup addr with
    | some owner, some timerId =>
      if owner = key then pure (.Success, (m.cancelTimer timerId).startLeaseTimer addr key)
      else pure (.NotOnLink, m)
    | _, _ => do
      let taken ← take m.pool
      let m := { m with pool := taken.2 }
      if taken.1 ≠ .Success then pure (taken.1, m)
      else pure (.Success, (m.startLeaseTimer addr key).enterLease addr key)

def createLeaseFromAdvertised (m : IPv6LeaseManager) (addr : BitVec 128) (key : IAKey) :
    Locked Mutex (Dhcpv6StatusCode × IPv6LeaseManager) :=
  m.createLeaseFrom addr key fun pool => do
    let activated ← pool.activateAdvertised (key.lease addr)
    pure (if activated.1 then .Success else .NoAddrsAvail, activated.2)

def createLeaseFromRequest (m : IPv6LeaseManager) (addr : BitVec 128) (key : IAKey)
    (freed : BitVec 128) : Locked Mutex (Dhcpv6StatusCode × IPv6LeaseManager) :=
  m.createLeaseFrom addr key fun pool => pool.allocateRequested (key.lease addr) freed

def leaseTimer (m : IPv6LeaseManager) (addr : BitVec 128) (key : IAKey) : Option UInt32 :=
  if addr ∈ groupOf m.leases key then m.leaseTimerIDs.lookup addr else none

def renewLease (m : IPv6LeaseManager) (addr : BitVec 128) (key : IAKey) :
    Locked Mutex (Dhcpv6StatusCode × IPv6LeaseManager) :=
  lockGuard .leaseMutex <|
    match m.leaseTimer addr key with
    | none => pure (.NoBinding, m)
    | some timerId => pure (.Success, (m.cancelTimer timerId).startLeaseTimer addr key)

def rebindLease (m : IPv6LeaseManager) (addr : BitVec 128) (key : IAKey) :
    Locked Mutex (Dhcpv6StatusCode × IPv6LeaseManager) :=
  m.renewLease addr key

def releaseLease (m : IPv6LeaseManager) (addr : BitVec 128) (key : IAKey) :
    Locked Mutex (Dhcpv6StatusCode × IPv6LeaseManager) :=
  lockGuard .leaseMutex <|
    match m.leaseTimer addr key with
    | none => pure (.NoBinding, m)
    | some timerId => do
      let pool ← (m.cancelTimer timerId).pool.release addr
      pure (.Success, { m with pool }.dropLease addr key)

/-- `declineLease`: it marks the address in the pool. -/
def declineLease (m : IPv6LeaseManager) (addr : BitVec 128) (key : IAKey) :
    Locked Mutex (Dhcpv6StatusCode × IPv6LeaseManager) :=
  lockGuard .leaseMutex do
    let conflicted ← m.pool.setConflicted (key.lease addr)
    pure (if conflicted.1 then .Success else .NotOnLink, { m with pool := conflicted.2 })

def getIANA (m : IPv6LeaseManager) (key : IAKey) : Locked Mutex (Option (Finset (BitVec 128))) :=
  lockGuard .leaseMutex (pure (m.leases.lookup key))

def isLeased (m : IPv6LeaseManager) (addr : BitVec 128) (key : IAKey) : Bool :=
  addr ∈ groupOf m.leases key

def size (m : IPv6LeaseManager) : Locked Mutex ℕ :=
  lockGuard .leaseMutex (pure m.leaseKeys.entries.length)

/-- `expireLease`: it does not look whether the association leases the address. -/
def expireLease (m : IPv6LeaseManager) (addr : BitVec 128) (key : IAKey) :
    Locked Mutex IPv6LeaseManager :=
  lockGuard .leaseMutex <|
    match m.leases.lookup key, m.leaseTimerIDs.lookup addr with
    | some _, some timerId => do
      let pool ← (m.cancelTimer timerId).pool.expire (key.lease addr)
      pure ({ m with pool }.dropLease addr key)
    | _, _ => pure m

def fireTimer (m : IPv6LeaseManager) (timerId : UInt32) : Locked Mutex IPv6LeaseManager :=
  match m.pool.timeManager.fire timerId with
  | some (.lease addr key, timeManager) =>
    { m with pool := { m.pool with timeManager } }.expireLease addr key
  | some (callback, timeManager) => do
    let pool ← callback.run { m.pool with timeManager }
    pure { m with pool }
  | none => pure m

end IPv6LeaseManager

end VirtualRouter.Dhcp
