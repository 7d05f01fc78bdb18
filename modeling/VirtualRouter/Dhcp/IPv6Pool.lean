/-
  The DHCPv6 address pool (`services/dhcp/dhcpv6/IPv6Pool.cpp`).

  Addresses are drawn at random: the draws of an operation are an argument.  An
  offer is in three containers, `advertised`, `advertisedIPs` and
  `advertisedGroups`; the groups are kept by `{duid, iaid}`, which drops the type
  of the association.  `allocateRequested` and `allocateRequestedAdvertised`
  read the key of an entry of `quarantined` after they have erased the entry:
  the address they read there is an argument too, `freed`.

  * `IPv6Pool.attempt`: the loop of `allocate` and `allocateAdvertised`;
  * `IPv6Pool.advertise`, `IPv6Pool.dropAdvertised`: the edits of an offer;
  * `IPv6Pool.Callback`: what a timer does when it fires.
-/
import VirtualRouter.Core.TimeManager
import VirtualRouter.Dhcp.DhcpInfo

namespace VirtualRouter.Dhcp

open NestedMap Locked
open VirtualRouter.Core

inductive IPv6Pool.Callback where
  /-- The offer runs out. -/
  | advertised (key : IALeaseKey)
  /-- The quarantine ends. -/
  | quarantined (key : IALeaseKey)
  /-- The address is no longer held as conflicted. -/
  | bad (addr : BitVec 128)
  /-- The lease of the address to the association expires. -/
  | lease (addr : BitVec 128) (key : IAKey)
  deriving DecidableEq

/-- `IPv6Pool`; `leaseManager` says whether one is set. -/
structure IPv6Pool where
  init : Bool := false
  base : BitVec 128 := 0
  size : BitVec 128 := 0
  leaseManager : Bool := false
  allocated : Finset (BitVec 128) := ∅
  advertised : Map IALeaseKey UInt32 := ∅
  advertisedIPs : Finset (BitVec 128) := ∅
  advertisedGroups : Map IAKey (Finset (BitVec 128)) := ∅
  quarantined : Map IALeaseKey UInt32 := ∅
  quarantinedIPs : Finset (BitVec 128) := ∅
  excluded : Finset (BitVec 128) := ∅
  bad : Map (BitVec 128) UInt32 := ∅
  timeManager : TimeManager IPv6Pool.Callback := {}

/-- The association of a lease key; its type is dropped (`{key.duid, key.iaid}`). -/
def IALeaseKey.group (key : IALeaseKey) : IAKey := { duid := key.duid, iaid := key.iaid }

/-- The lease key of an address and an association; its type is dropped
    (`{key.duid, key.iaid, addr}`). -/
def IAKey.lease (key : IAKey) (addr : BitVec 128) : IALeaseKey :=
  { duid := key.duid, iaid := key.iaid, address := addr }

namespace IPv6Pool

/-! ## Predicates -/

def slaacSafeOffset : BitVec 128 := 0x1000

def maxGenerationAttempts : ℕ := 10000

def isAllocated (p : IPv6Pool) (addr : BitVec 128) : Locked Mutex Bool :=
  lockGuard .poolMutex (pure (addr ∈ p.allocated))

def isQuarantined (p : IPv6Pool) (addr : BitVec 128) : Locked Mutex Bool :=
  lockGuard .poolMutex (pure (addr ∈ p.quarantinedIPs))

def isEUI64 (addr : BitVec 128) : Bool := (addr >>> 40) &&& 0xFFFF = 0xFFFE

def isExcluded (p : IPv6Pool) (addr : BitVec 128) : Locked Mutex Bool :=
  lockGuard .poolMutex (pure (addr ∈ p.excluded || isEUI64 addr))

def isConflicted (p : IPv6Pool) (addr : BitVec 128) : Locked Mutex Bool :=
  lockGuard .poolMutex (pure (p.bad.lookup addr).isSome)

def isAdvertised (p : IPv6Pool) (addr : BitVec 128) : Locked Mutex Bool :=
  lockGuard .poolMutex (pure (addr ∈ p.advertisedIPs))

def isAdvertisedKey (p : IPv6Pool) (key : IALeaseKey) : Locked Mutex Bool :=
  lockGuard .poolMutex (pure (p.advertised.lookup key).isSome)

def isAllocatedOrExcluded (p : IPv6Pool) (addr : BitVec 128) : Locked Mutex Bool :=
  (p.isAllocated addr).or (p.isExcluded addr)

def withinRange (p : IPv6Pool) (addr : BitVec 128) : Bool :=
  addr > p.base && addr < p.base + p.size

/-! ## Edits -/

/-- The offer of `key` is entered, with its timer. -/
def advertise (p : IPv6Pool) (key : IALeaseKey) : IPv6Pool :=
  let timer := p.timeManager.addTimer (.advertised key)
  { p with
    advertised := p.advertised.insert key timer.1
    advertisedIPs := insert key.address p.advertisedIPs
    advertisedGroups := insertInto p.advertisedGroups key.group key.address
    timeManager := timer.2 }

/-- The offer of `key` is erased; its timer stays. -/
def dropAdvertised (p : IPv6Pool) (key : IALeaseKey) : IPv6Pool :=
  { p with
    advertised := p.advertised.erase key
    advertisedIPs := p.advertisedIPs.erase key.address
    advertisedGroups := eraseFrom p.advertisedGroups key.group key.address }

/-- The quarantine of `key` ends for a request; `freed` is the address read from the erased entry. -/
def takeQuarantined (p : IPv6Pool) (key : IALeaseKey) (freed : BitVec 128) : IPv6Pool :=
  match p.quarantined.lookup key with
  | some timerId =>
    { p with
      timeManager := p.timeManager.cancelTimer timerId
      quarantined := p.quarantined.erase key
      quarantinedIPs := p.quarantinedIPs.erase freed }
  | none => p

/-! ## Allocation -/

/-- `generateRandomIP`, from what the two draws make. -/
def generateRandomIP (p : IPv6Pool) (draw : BitVec 128) : BitVec 128 :=
  p.base + (slaacSafeOffset + 1 + draw % (p.size - slaacSafeOffset - 2))

/-- The test of a random address. -/
def isTaken (p : IPv6Pool) (addr : BitVec 128) : Locked Mutex Bool :=
  (p.isExcluded addr).or ((p.isConflicted addr).or ((p.isAllocated addr).or (p.isQuarantined addr)))

/-- The attempts from the `i`-th on: the first address that is not taken. -/
def attempt (p : IPv6Pool) (draws : ℕ → BitVec 128) :
    (attempts i : ℕ) → Locked Mutex (Option (BitVec 128))
  | 0, _ => pure none
  | attempts + 1, i => do
    if ← p.isTaken (p.generateRandomIP (draws i)) then p.attempt draws attempts (i + 1)
    else pure (some (p.generateRandomIP (draws i)))

def allocate (p : IPv6Pool) (draws : ℕ → BitVec 128) : Locked Mutex (BitVec 128 × IPv6Pool) :=
  lockGuard .poolMutex do
    match ← p.attempt draws maxGenerationAttempts 0 with
    | some addr => pure (addr, { p with allocated := insert addr p.allocated })
    | none => pure (0, p)

def allocateAdvertised (p : IPv6Pool) (key : IAKey) (draws : ℕ → BitVec 128) :
    Locked Mutex (BitVec 128 × IPv6Pool) :=
  lockGuard .poolMutex do
    match ← p.attempt draws maxGenerationAttempts 0 with
    | some addr => pure (addr, p.advertise (key.lease addr))
    | none => pure (0, p)

/-- The test of a requested address. -/
def isRefused (p : IPv6Pool) (addr : BitVec 128) : Locked Mutex Bool :=
  (p.isExcluded addr).or ((p.isConflicted addr).or (p.isAdvertised addr))

/-- The body of `allocateRequestedAdvertised` and `allocateRequested`: `take` books the address. -/
def request (p : IPv6Pool) (key : IALeaseKey) (freed : BitVec 128)
    (take : IPv6Pool → IALeaseKey → IPv6Pool) : Locked Mutex (Dhcpv6StatusCode × IPv6Pool) :=
  lockGuard .poolMutex <|
    let p := p.takeQuarantined key freed
    if !p.withinRange key.address then pure (.NotOnLink, p)
    else do
      if ← p.isRefused key.address then pure (.NoAddrsAvail, p)
      else pure (.Success, take p key)

def allocateRequestedAdvertised (p : IPv6Pool) (key : IALeaseKey) (freed : BitVec 128) :
    Locked Mutex (Dhcpv6StatusCode × IPv6Pool) :=
  p.request key freed advertise

def allocateRequested (p : IPv6Pool) (key : IALeaseKey) (freed : BitVec 128) :
    Locked Mutex (Dhcpv6StatusCode × IPv6Pool) :=
  p.request key freed fun p key => { p with allocated := insert key.address p.allocated }

def activateAdvertised (p : IPv6Pool) (key : IALeaseKey) : Locked Mutex (Bool × IPv6Pool) :=
  lockGuard .poolMutex <|
    match p.advertised.lookup key with
    | none => pure (false, p)
    | some timerId =>
      let p := { p with timeManager := p.timeManager.cancelTimer timerId }.dropAdvertised key
      pure (true, { p with allocated := insert key.address p.allocated })

def clearAdvertisedIP (p : IPv6Pool) (key : IALeaseKey) : Locked Mutex IPv6Pool :=
  lockGuard .poolMutex (pure (p.dropAdvertised key))

/-! ## Release, expiry and conflicts -/

def release (p : IPv6Pool) (addr : BitVec 128) : Locked Mutex IPv6Pool :=
  lockGuard .poolMutex (pure { p with allocated := p.allocated.erase addr })

def expire (p : IPv6Pool) (key : IALeaseKey) : Locked Mutex IPv6Pool :=
  lockGuard .poolMutex do
    if ← p.isAllocated key.address then
      let timer := p.timeManager.addTimer (.quarantined key)
      pure { p with
        allocated := p.allocated.erase key.address
        quarantined := p.quarantined.insert key timer.1
        quarantinedIPs := insert key.address p.quarantinedIPs
        timeManager := timer.2 }
    else pure p

def excludeIP (p : IPv6Pool) (addr : BitVec 128) : Locked Mutex (Bool × IPv6Pool) :=
  lockGuard .poolMutex (pure (true, { p with excluded := insert addr p.excluded }))

def removeExclusion (p : IPv6Pool) (addr : BitVec 128) : Locked Mutex (Bool × IPv6Pool) :=
  lockGuard .poolMutex (pure (addr ∈ p.excluded, { p with excluded := p.excluded.erase addr }))

def setConflicted (p : IPv6Pool) (key : IALeaseKey) : Locked Mutex (Bool × IPv6Pool) :=
  lockGuard .poolMutex do
    if ← p.isAdvertisedKey key then
      let p := p.dropAdvertised key
      let timer := p.timeManager.addTimer (.bad key.address)
      pure (true, { p with bad := p.bad.insert key.address timer.1, timeManager := timer.2 })
    else pure (false, p)

def timerIds {κ : Type} (m : Map κ UInt32) : List UInt32 := m.entries.map Sigma.snd

def cleanupBadIPs (p : IPv6Pool) : Locked Mutex IPv6Pool :=
  lockGuard .poolMutex
    (pure { p with timeManager := p.timeManager.cancelTimers (timerIds p.bad), bad := ∅ })

/-! ## Configuration -/

/-- `adjustPool` (a shift by 128 leaves no bit). -/
def adjustPool (p : IPv6Pool) (network : BitVec 128) (prefixLen : UInt8) :
    Locked Mutex (Bool × IPv6Pool) :=
  if prefixLen > 128 then pure (false, p)
  else
    lockGuard .poolMutex <|
      let p := { p with size := 1 <<< (128 - prefixLen.toNat) }
      if p.size ≤ slaacSafeOffset + 2 then pure (false, p)
      else
        pure (true, { p with
          base := network
          timeManager := ((p.timeManager.cancelTimers (timerIds p.advertised)).cancelTimers
            (timerIds p.bad)).cancelTimers (timerIds p.quarantined)
          allocated := ∅
          advertised := ∅
          advertisedIPs := ∅
          advertisedGroups := ∅
          quarantined := ∅
          quarantinedIPs := ∅
          excluded := ∅
          bad := ∅
          init := true })

def setLeaseManager (p : IPv6Pool) : IPv6Pool := { p with leaseManager := true }

/-! ## Timers -/

def Callback.run (p : IPv6Pool) : Callback → Locked Mutex IPv6Pool
  | .advertised key => lockGuard .poolMutex (pure (p.dropAdvertised key))
  | .quarantined key =>
    lockGuard .poolMutex (pure { p with
      quarantined := p.quarantined.erase key
      quarantinedIPs := p.quarantinedIPs.erase key.address })
  | .bad addr => lockGuard .poolMutex (pure { p with bad := p.bad.erase addr })
  | .lease .. => pure p

def fireTimer (p : IPv6Pool) (timerId : UInt32) : Locked Mutex IPv6Pool :=
  match p.timeManager.fire timerId with
  | some (callback, timeManager) => callback.run { p with timeManager }
  | none => pure p

end IPv6Pool

end VirtualRouter.Dhcp
