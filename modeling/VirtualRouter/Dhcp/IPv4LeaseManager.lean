/-
  The DHCPv4 leases (`services/dhcp/dhcpv4/IPv4LeaseManager.cpp`).

  The operations hold `leaseMutex` and call the pool, which has a mutex of its
  own.  `declineLease` tests `it == end && it->second.ip != ip`: without a lease
  it reads through `end()`, and with one it never looks at the address.

  * `IPv4LeaseManager.enterLease`: the timer and the entry of a lease, the same
    wherever a lease is made or renewed;
  * `createLease`, `createLeaseFromTemp`, `createLeaseFromReq`, `renewLease`,
    `rebindLease`, `releaseLease`, `declineLease`, `expireLease`;
  * `IPv4LeaseManager.fireTimer`: a timer of the manager or of its pool fires.
-/
import VirtualRouter.Dhcp.IPv4Pool

namespace VirtualRouter.Dhcp

open NestedMap Locked
open VirtualRouter.Core

structure IPv4LeaseManager.Lease where
  ip : UInt32
  leaseTime : UInt32
  t1 : UInt32
  t2 : UInt32
  timerId : UInt32
  deriving DecidableEq, Repr

/-- `IPv4LeaseManager`, with the pool it refers to. -/
structure IPv4LeaseManager where
  pool : IPv4Pool
  leases : Map ClientID IPv4LeaseManager.Lease := ∅
  deriving DecidableEq

namespace IPv4LeaseManager

/-! ## Operations -/

def enterLease (m : IPv4LeaseManager) (clientId : ClientID) (ip leaseTime t1 t2 : UInt32) :
    IPv4LeaseManager :=
  let timer := m.pool.timeManager.addTimer (.lease clientId)
  { pool := { m.pool with timeManager := timer.2 }
    leases := m.leases.insert clientId { ip, leaseTime, t1, t2, timerId := timer.1 } }

def createLeaseFromTemp (m : IPv4LeaseManager) (clientId : ClientID)
    (tempIp leaseTime t1 t2 : UInt32) : Locked Mutex (Bool × IPv4LeaseManager) :=
  lockGuard .leaseMutex <|
    if (m.leases.lookup clientId).isSome then pure (false, m)
    else do
      let activated ← m.pool.activateTemporaryIP tempIp clientId
      if !activated.1 then pure (false, { m with pool := activated.2 })
      else pure (true, { m with pool := activated.2 }.enterLease clientId tempIp leaseTime t1 t2)

/-- `createLease`; address 0 is the failure of `allocateIP`. -/
def createLease (m : IPv4LeaseManager) (clientId : ClientID) (leaseTime t1 t2 : UInt32) :
    Locked Mutex (UInt32 × IPv4LeaseManager) :=
  lockGuard .leaseMutex <|
    if (m.leases.lookup clientId).isSome then pure (0, m)
    else do
      let final ← m.pool.allocateIP clientId
      if final.1 = 0 then pure (0, { m with pool := final.2 })
      else pure (final.1, { m with pool := final.2 }.enterLease clientId final.1 leaseTime t1 t2)

def createLeaseFromReq (m : IPv4LeaseManager) (clientId : ClientID)
    (reqIp leaseTime t1 t2 : UInt32) : Locked Mutex (Bool × IPv4LeaseManager) :=
  lockGuard .leaseMutex <|
    if (m.leases.lookup clientId).isSome then pure (false, m)
    else do
      let allocated ← m.pool.allocateRequestedIP reqIp clientId
      if !allocated.1 then pure (false, { m with pool := allocated.2 })
      else pure (true, { m with pool := allocated.2 }.enterLease clientId reqIp leaseTime t1 t2)

def renewLease (m : IPv4LeaseManager) (clientId : ClientID) (leaseTime t1 t2 : UInt32) :
    Locked Mutex (Bool × IPv4LeaseManager) :=
  lockGuard .leaseMutex <|
    match m.leases.lookup clientId with
    | none => pure (false, m)
    | some lease =>
      let timeManager := m.pool.timeManager.cancelTimer lease.timerId
      pure (true, { m with pool := { m.pool with timeManager } }.enterLease clientId lease.ip
        leaseTime t1 t2)

/-- `rebindLease`: it renews the lease while it holds the mutex. -/
def rebindLease (m : IPv4LeaseManager) (clientId : ClientID) (ip leaseTime t1 t2 : UInt32) :
    Locked Mutex (Bool × IPv4LeaseManager) :=
  lockGuard .leaseMutex <|
    match m.leases.lookup clientId with
    | none => pure (false, m)
    | some lease =>
      if lease.ip ≠ ip then pure (false, m) else m.renewLease clientId leaseTime t1 t2

def releaseLease (m : IPv4LeaseManager) (clientId : ClientID) :
    Locked Mutex (Bool × IPv4LeaseManager) :=
  lockGuard .leaseMutex <|
    match m.leases.lookup clientId with
    | none => pure (false, m)
    | some lease => do
      let timeManager := m.pool.timeManager.cancelTimer lease.timerId
      let pool ← { m.pool with timeManager }.releaseIP lease.ip clientId
      pure (true, { pool, leases := m.leases.erase clientId })

/-- `declineLease`; `none` is the read through `end()`. -/
def declineLease (m : IPv4LeaseManager) (clientId : ClientID) (ip : UInt32) :
    Locked Mutex (Option (Bool × IPv4LeaseManager)) :=
  lockGuard .leaseMutex <|
    match m.leases.lookup clientId with
    | none => pure none
    | some lease => do
      let timeManager := m.pool.timeManager.cancelTimer lease.timerId
      let conflicted ← { m.pool with timeManager }.setConflicted ip
      pure (some (conflicted.1, { pool := conflicted.2, leases := m.leases.erase clientId }))

def hasLease (m : IPv4LeaseManager) (clientId : ClientID) (ip : UInt32) : Locked Mutex Bool :=
  lockGuard .leaseMutex (pure ((m.leases.lookup clientId).any fun lease => lease.ip = ip))

def match_ (m : IPv4LeaseManager) (clientId : ClientID) (ip : UInt32) : Locked Mutex Bool :=
  lockGuard .leaseMutex (pure ((m.leases.lookup clientId).any fun lease => lease.ip = ip))

def getIP (m : IPv4LeaseManager) (clientId : ClientID) : Locked Mutex UInt32 :=
  lockGuard .leaseMutex (pure (((m.leases.lookup clientId).map Lease.ip).getD 0))

def size (m : IPv4LeaseManager) : Locked Mutex ℕ :=
  lockGuard .leaseMutex (pure m.leases.entries.length)

def getLease (m : IPv4LeaseManager) (clientId : ClientID) (ip : UInt32) : Locked Mutex (Option Lease) :=
  lockGuard .leaseMutex (pure ((m.leases.lookup clientId).filter fun lease => lease.ip = ip))

def expireLease (m : IPv4LeaseManager) (clientId : ClientID) : Locked Mutex IPv4LeaseManager :=
  lockGuard .leaseMutex <|
    match m.leases.lookup clientId with
    | none => pure m
    | some lease => do
      let pool ← m.pool.expireIP lease.ip clientId
      pure { pool, leases := m.leases.erase clientId }

def fireTimer (m : IPv4LeaseManager) (timerId : UInt32) : Locked Mutex IPv4LeaseManager :=
  match m.pool.timeManager.fire timerId with
  | some (.lease clientId, timeManager) =>
    { m with pool := { m.pool with timeManager } }.expireLease clientId
  | some (callback, timeManager) => do
    let pool ← callback.run { m.pool with timeManager }
    pure { m with pool }
  | none => pure m

end IPv4LeaseManager

end VirtualRouter.Dhcp
