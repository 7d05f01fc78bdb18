/-
  The leases of delegated prefixes (`services/dhcp/dhcpv6/PrefixLeaseManager.cpp`).

  The operations are those of `IPv6LeaseManager` with prefixes for addresses.
  `createPrefix` is there with a length and without one; without one the pool
  is asked for length 0.

  * `PrefixLeaseManager.startPrefixLease`, `enterPrefix`, `dropPrefix`: the edits
    of a lease;
  * the operations under their names;
  * `PrefixLeaseManager.fireTimer`: a timer of the manager or of its pool fires.
-/
import VirtualRouter.Dhcp.PrefixPool

namespace VirtualRouter.Dhcp

open NestedMap Locked
open VirtualRouter.Core

/-- `PrefixLeaseManager`, with the pool it refers to. -/
structure PrefixLeaseManager where
  pool : PrefixPool
  prefixes : Map IAKey (Finset IPv6Prefix) := ∅
  prefixKeys : Map IPv6Prefix IAKey := ∅
  prefixTimerIDs : Map IPv6Prefix UInt32 := ∅

namespace PrefixLeaseManager

/-! ## Edits -/

def startPrefixLease (m : PrefixLeaseManager) (pfx : IPv6Prefix) (key : IAKey) : PrefixLeaseManager :=
  let timer := m.pool.timeManager.addTimer (.lease pfx key)
  { m with
    pool := { m.pool with timeManager := timer.2 }
    prefixTimerIDs := m.prefixTimerIDs.insert pfx timer.1 }

def cancelTimer (m : PrefixLeaseManager) (timerId : UInt32) : PrefixLeaseManager :=
  { m with pool := { m.pool with timeManager := m.pool.timeManager.cancelTimer timerId } }

def enterPrefix (m : PrefixLeaseManager) (pfx : IPv6Prefix) (key : IAKey) : PrefixLeaseManager :=
  { m with
    prefixes := insertInto m.prefixes key pfx
    prefixKeys := m.prefixKeys.insert pfx key }

def dropPrefix (m : PrefixLeaseManager) (pfx : IPv6Prefix) (key : IAKey) : PrefixLeaseManager :=
  { m with
    prefixes := eraseFrom m.prefixes key pfx
    prefixTimerIDs := m.prefixTimerIDs.erase pfx
    prefixKeys := m.prefixKeys.erase pfx }

/-! ## Operations -/

/-- `createPrefix(key, length, valid)`. -/
def createPrefix (m : PrefixLeaseManager) (key : IAKey) (length : UInt8) :
    Locked Mutex ((IPv6Prefix × Dhcpv6StatusCode) × PrefixLeaseManager) :=
  lockGuard .leaseMutex do
    let allocated ← m.pool.allocatePrefix length
    let m := { m with pool := allocated.2 }
    if allocated.1.2 ≠ .Success then pure (allocated.1, m)
    else pure (allocated.1, (m.startPrefixLease allocated.1.1 key).enterPrefix allocated.1.1 key)

/-- `createPrefix(key, valid)`. -/
def createAnyPrefix (m : PrefixLeaseManager) (key : IAKey) :
    Locked Mutex ((Dhcpv6StatusCode × Finset IPv6Prefix) × PrefixLeaseManager) :=
  lockGuard .leaseMutex do
    let allocated ← m.pool.allocatePrefix 0
    let m := { m with pool := allocated.2 }
    if allocated.1.2 ≠ .Success then pure ((allocated.1.2, {allocated.1.1}), m)
    else
      let m := (m.startPrefixLease allocated.1.1 key).enterPrefix allocated.1.1 key
      pure ((.Success, groupOf m.prefixes key), m)

/-- The body of `createPrefixFromAdvertised` and `createPrefixFromRequest`: a prefix that is leased
    is renewed for its association, any other is taken from the pool with `take`. -/
def createPrefixFrom (m : PrefixLeaseManager) (pfx : IPv6Prefix) (key : IAKey)
    (take : PrefixPool → Locked Mutex (Dhcpv6StatusCode × PrefixPool)) :
    Locked Mutex (Dhcpv6StatusCode × PrefixLeaseManager) :=
  lockGuard .leaseMutex <|
    match m.prefixKeys.lookup pfx, m.prefixTimerIDs.lookup pfx with
    | some owner, some timerId =>
      if owner = key then pure (.Success, (m.cancelTimer timerId).startPrefixLease pfx key)
      else pure (.NotOnLink, m)
    | _, _ => do
      let taken ← take m.pool
      let m := { m with pool := taken.2 }
      if taken.1 ≠ .Success then pure (taken.1, m)
      else pure (.Success, (m.startPrefixLease pfx key).enterPrefix pfx key)

def createPrefixFromAdvertised (m : PrefixLeaseManager) (pfx : IPv6Prefix) (key : IAKey) :
    Locked Mutex (Dhcpv6StatusCode × PrefixLeaseManager) :=
  m.createPrefixFrom pfx key fun pool => do
    let activated ← pool.activateAdvertisedPrefix (key.prefixKey pfx)
    pure (if activated.1 then .Success else .NotOnLink, activated.2)

def createPrefixFromRequest (m : PrefixLeaseManager) (pfx : IPv6Prefix) (key : IAKey) :
    Locked Mutex (Dhcpv6StatusCode × PrefixLeaseManager) :=
  m.createPrefixFrom pfx key fun pool => do
    let allocated ← pool.allocateRequestedPrefix (key.prefixKey pfx)
    pure (allocated.1.2, allocated.2)

def prefixTimer (m : PrefixLeaseManager) (pfx : IPv6Prefix) (key : IAKey) : Option UInt32 :=
  if pfx ∈ groupOf m.prefixes key then m.prefixTimerIDs.lookup pfx else none

def renewPrefix (m : PrefixLeaseManager) (pfx : IPv6Prefix) (key : IAKey) :
    Locked Mutex (Dhcpv6StatusCode × PrefixLeaseManager) :=
  lockGuard .leaseMutex <|
    match m.prefixTimer pfx key with
    | none => pure (.NoBinding, m)
    | some timerId => pure (.Success, (m.cancelTimer timerId).startPrefixLease pfx key)

def rebindPrefix (m : PrefixLeaseManager) (pfx : IPv6Prefix) (key : IAKey) :
    Locked Mutex (Dhcpv6StatusCode × PrefixLeaseManager) :=
  m.renewPrefix pfx key

def releasePrefix (m : PrefixLeaseManager) (pfx : IPv6Prefix) (key : IAKey) :
    Locked Mutex (Dhcpv6StatusCode × PrefixLeaseManager) :=
  lockGuard .leaseMutex <|
    match m.prefixTimer pfx key with
    | none => pure (.NoBinding, m)
    | some timerId => do
      let pool ← (m.cancelTimer timerId).pool.releasePrefix pfx
      pure (.Success, { m with pool }.dropPrefix pfx key)

/-- `declinePrefix`: it marks the prefix in the pool. -/
def declinePrefix (m : PrefixLeaseManager) (pfx : IPv6Prefix) (key : IAKey) :
    Locked Mutex (Dhcpv6StatusCode × PrefixLeaseManager) :=
  lockGuard .leaseMutex do
    let conflicted ← m.pool.setConflicted (key.prefixKey pfx)
    pure (if conflicted.1 then .Success else .NotOnLink, { m with pool := conflicted.2 })

def getPrefixes (m : PrefixLeaseManager) (key : IAKey) : Locked Mutex (Finset IPv6Prefix) :=
  lockGuard .leaseMutex (pure (groupOf m.prefixes key))

def match_ (m : PrefixLeaseManager) (key : IAKey) (pfx : IPv6Prefix) : Locked Mutex Bool :=
  lockGuard .leaseMutex (pure (m.prefixKeys.lookup pfx = some key))

def size (m : PrefixLeaseManager) : Locked Mutex ℕ :=
  lockGuard .leaseMutex (pure m.prefixKeys.entries.length)

/-- `expirePrefix`: it does not look whether the association leases the prefix. -/
def expirePrefix (m : PrefixLeaseManager) (pfx : IPv6Prefix) (key : IAKey) :
    Locked Mutex PrefixLeaseManager :=
  lockGuard .leaseMutex <|
    match m.prefixes.lookup key, m.prefixTimerIDs.lookup pfx with
    | some _, some timerId => do
      let pool ← (m.cancelTimer timerId).pool.expirePrefix (key.prefixKey pfx)
      pure ({ m with pool }.dropPrefix pfx key)
    | _, _ => pure m

def fireTimer (m : PrefixLeaseManager) (timerId : UInt32) : Locked Mutex PrefixLeaseManager :=
  match m.pool.timeManager.fire timerId with
  | some (.lease pfx key, timeManager) =>
    { m with pool := { m.pool with timeManager } }.expirePrefix pfx key
  | some (callback, timeManager) => do
    let pool ← callback.run { m.pool with timeManager }
    pure { m with pool }
  | none => pure m

end PrefixLeaseManager

end VirtualRouter.Dhcp
