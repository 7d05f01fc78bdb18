/-
  The DHCPv6 pool of delegated prefixes (`services/dhcp/dhcpv6/PrefixPool.cpp`).

  A prefix is generated from an index and a length, or requested with a length
  as a hint: `effectiveLength` is the hint or the delegation length, whichever
  is longer, and the delegation length for a hint over 64.  `withinRange` reads
  `size`, the number of delegations, as a number of addresses, and takes only
  prefixes that are no longer than the base.  A prefix that is built from a key
  has its address masked and the length 0 (`IPv6Prefix.ofAddress`), so only a
  generated prefix, whose length is set by hand, has a length.

  * `PrefixPool.attempt`: the loop of `allocatePrefix` and
    `allocateAdvertisedPrefix`;
  * the operations under their names;
  * `PrefixPool.Callback`: what a timer does when it fires.
-/
import VirtualRouter.Core.TimeManager
import VirtualRouter.Dhcp.DhcpInfo

namespace VirtualRouter.Dhcp

open NestedMap Locked
open VirtualRouter.Core

inductive PrefixPool.Callback where
  /-- The offer runs out; only `allocateAdvertisedPrefix` has put it into a group. -/
  | advertised (key : IAPrefixKey) (grouped : Bool)
  /-- The quarantine ends. -/
  | quarantined (key : IAPrefixKey)
  /-- The prefix is no longer held as conflicted. -/
  | bad (pfx : IPv6Prefix)
  /-- The lease of the prefix to the association expires. -/
  | lease (pfx : IPv6Prefix) (key : IAKey)
  deriving DecidableEq

/-- `PrefixPool`; `leaseManager` says whether one is set. -/
structure PrefixPool where
  base : IPv6Prefix
  delegationLength : UInt8
  size : BitVec 128
  allocated : Finset IPv6Prefix := ∅
  advertised : Map IAPrefixKey UInt32 := ∅
  advertisedPDs : Finset IPv6Prefix := ∅
  advertisedGroups : Map IAKey (Finset IPv6Prefix) := ∅
  quarantined : Map IAPrefixKey UInt32 := ∅
  quarantinedPDs : Finset IPv6Prefix := ∅
  excluded : Finset IPv6Prefix := ∅
  bad : Map IPv6Prefix UInt32 := ∅
  leaseManager : Bool := false
  timeManager : TimeManager PrefixPool.Callback := {}

/-- The prefix of a key (`{key.address, key.prefixLength}`). -/
def IAPrefixKey.pfx (key : IAPrefixKey) : IPv6Prefix :=
  .ofAddress key.address key.prefixLength

def IAPrefixKey.generated (key : IAPrefixKey) : IPv6Prefix where
  addr := key.address
  prefixLength := key.prefixLength

/-- The association of a key (`{key.duid, key.iaid}`). -/
def IAPrefixKey.group (key : IAPrefixKey) : IAKey := { duid := key.duid, iaid := key.iaid }

def IAKey.prefixKey (key : IAKey) (pfx : IPv6Prefix) : IAPrefixKey :=
  { duid := key.duid, iaid := key.iaid, address := pfx.addr, prefixLength := pfx.prefixLength }

namespace PrefixPool

/-- `__uint128_t(1) << n` (a shift by 128 leaves no bit). -/
def shiftedOne (n : ℕ) : BitVec 128 := 1 <<< n

def new (base : IPv6Prefix) (delegationLength : UInt8) (timeManager : TimeManager Callback) :
    PrefixPool where
  base
  delegationLength
  size := shiftedOne (delegationLength.toNat - base.prefixLength.toNat)
  timeManager

/-! ## Predicates -/

def maxGenerationAttempts : ℕ := 1000

def withinRange (p : PrefixPool) (pfx : IPv6Prefix) : Bool :=
  pfx.addr ≥ p.base.addr && pfx.addr < p.base.addr + p.size &&
    pfx.prefixLength ≤ p.base.prefixLength

def isAllocated (p : PrefixPool) (pfx : IPv6Prefix) : Locked Mutex Bool :=
  lockGuard .poolMutex (pure (pfx ∈ p.allocated))

def isAdvertised (p : PrefixPool) (pfx : IPv6Prefix) : Locked Mutex Bool :=
  lockGuard .poolMutex (pure (pfx ∈ p.advertisedPDs))

def isQuarantined (p : PrefixPool) (pfx : IPv6Prefix) : Locked Mutex Bool :=
  lockGuard .poolMutex (pure (pfx ∈ p.quarantinedPDs))

def isExcluded (p : PrefixPool) (pfx : IPv6Prefix) : Locked Mutex Bool :=
  lockGuard .poolMutex (pure (pfx ∈ p.excluded))

def isConflicted (p : PrefixPool) (pfx : IPv6Prefix) : Locked Mutex Bool :=
  lockGuard .poolMutex (pure (p.bad.lookup pfx).isSome)

def isFull (p : PrefixPool) : Locked Mutex Bool :=
  lockGuard .poolMutex <|
    let used := p.allocated.card + p.advertisedPDs.card + p.quarantinedPDs.card +
      p.bad.entries.length + p.excluded.card
    pure (used ≥ p.size.toNat)

/-! ## Allocation -/

def effectiveLength (p : PrefixPool) (requestedLength : UInt8) : UInt8 :=
  if requestedLength > 64 then p.delegationLength else max requestedLength p.delegationLength

def generatePrefix (p : PrefixPool) (index : BitVec 64) (length : UInt8) : IPv6Prefix where
  addr := p.base.addr + index.zeroExtend 128 * shiftedOne (128 - length.toNat)
  prefixLength := length

/-- The test of a generated prefix. -/
def isTaken (p : PrefixPool) (pfx : IPv6Prefix) : Locked Mutex Bool :=
  Locked.or (pure (!p.withinRange pfx)) ((p.isAllocated pfx).or ((p.isExcluded pfx).or
    ((p.isConflicted pfx).or (p.isAdvertised pfx))))

/-- The attempts from index `i` on: the first generated prefix that is not taken. -/
def attempt (p : PrefixPool) (length : UInt8) : (attempts i : ℕ) → Locked Mutex (Option IPv6Prefix)
  | 0, _ => pure none
  | attempts + 1, i => do
    if ← p.isTaken (p.generatePrefix (.ofNat 64 i) length) then p.attempt length attempts (i + 1)
    else pure (some (p.generatePrefix (.ofNat 64 i) length))

/-- The body of `allocatePrefix` and `allocateAdvertisedPrefix`: `take` books the prefix. -/
def generate (p : PrefixPool) (requestedLength : UInt8) (take : IPv6Prefix → PrefixPool) :
    Locked Mutex ((IPv6Prefix × Dhcpv6StatusCode) × PrefixPool) :=
  lockGuard .poolMutex <|
    let length := p.effectiveLength requestedLength
    if length < p.base.prefixLength then pure (({}, .UnspecFail), p)
    else do
      let count := shiftedOne (length.toNat - p.base.prefixLength.toNat)
      match ← p.attempt length (min count.toNat maxGenerationAttempts) 0 with
      | some pfx => pure ((pfx, .Success), take pfx)
      | none => pure (({}, .NoPrefixAvail), p)

def allocatePrefix (p : PrefixPool) (requestedLength : UInt8) :
    Locked Mutex ((IPv6Prefix × Dhcpv6StatusCode) × PrefixPool) :=
  p.generate requestedLength fun pfx => { p with allocated := insert pfx p.allocated }

def allocateAdvertisedPrefix (p : PrefixPool) (key : IAKey) (requestedLength : UInt8) :
    Locked Mutex ((IPv6Prefix × Dhcpv6StatusCode) × PrefixPool) :=
  p.generate requestedLength fun pfx =>
    let prefixKey := key.prefixKey pfx
    let timer := p.timeManager.addTimer (.advertised prefixKey true)
    { p with
      advertised := p.advertised.insert prefixKey timer.1
      advertisedPDs := insert pfx p.advertisedPDs
      advertisedGroups := insertInto p.advertisedGroups prefixKey.group prefixKey.pfx
      timeManager := timer.2 }

/-- The quarantine of `key` ends for a request. -/
def takeQuarantined (p : PrefixPool) (key : IAPrefixKey) (pfx : IPv6Prefix) : PrefixPool :=
  match p.quarantined.lookup key with
  | some timerId =>
    { p with
      timeManager := p.timeManager.cancelTimer timerId
      quarantined := p.quarantined.erase key
      quarantinedPDs := p.quarantinedPDs.erase pfx }
  | none => p

def allocateRequestedAdvertisedPrefix (p : PrefixPool) (key : IAPrefixKey) :
    Locked Mutex ((UInt8 × Dhcpv6StatusCode) × PrefixPool) :=
  lockGuard .poolMutex <|
    let length := p.effectiveLength key.prefixLength
    if length < p.base.prefixLength then pure ((0, .UnspecFail), p)
    else
      let pfx : IPv6Prefix := .ofAddress key.address length
      let p := p.takeQuarantined key pfx
      if !p.withinRange pfx then pure ((0, .NotOnLink), p)
      else do
        if ← Locked.or (pure (!p.withinRange pfx)) ((p.isAllocated pfx).or ((p.isExcluded pfx).or
            (p.isConflicted pfx))) then
          pure ((0, .NoPrefixAvail), p)
        else
          let timer := p.timeManager.addTimer (.advertised key false)
          pure ((length, .Success), { p with
            advertised := p.advertised.insert key timer.1
            advertisedPDs := insert pfx p.advertisedPDs
            timeManager := timer.2 })

def allocateRequestedPrefix (p : PrefixPool) (key : IAPrefixKey) :
    Locked Mutex ((UInt8 × Dhcpv6StatusCode) × PrefixPool) :=
  lockGuard .poolMutex <|
    let length := p.effectiveLength key.prefixLength
    if length < p.base.prefixLength then pure ((0, .UnspecFail), p)
    else
      let p := p.takeQuarantined key key.pfx
      if !p.withinRange key.pfx then pure ((0, .NotOnLink), p)
      else do
        if ← (p.isAllocated key.pfx).or ((p.isExcluded key.pfx).or ((p.isConflicted key.pfx).or
            (p.isAdvertised key.pfx))) then
          pure ((0, .NoPrefixAvail), p)
        else pure ((length, .Success), { p with allocated := insert key.pfx p.allocated })

def activateAdvertisedPrefix (p : PrefixPool) (key : IAPrefixKey) :
    Locked Mutex (Bool × PrefixPool) :=
  lockGuard .poolMutex <|
    match p.advertised.lookup key with
    | none => pure (false, p)
    | some timerId =>
      pure (true, { p with
        timeManager := p.timeManager.cancelTimer timerId
        advertised := p.advertised.erase key
        advertisedPDs := p.advertisedPDs.erase key.pfx
        allocated := insert key.pfx p.allocated })

/-! ## Release, expiry and conflicts -/

def releasePrefix (p : PrefixPool) (pfx : IPv6Prefix) : Locked Mutex PrefixPool :=
  lockGuard .poolMutex (pure { p with allocated := p.allocated.erase pfx })

def expirePrefix (p : PrefixPool) (key : IAPrefixKey) : Locked Mutex PrefixPool :=
  lockGuard .poolMutex do
    if ← p.isAllocated key.pfx then
      let timer := p.timeManager.addTimer (.quarantined key)
      pure { p with
        allocated := p.allocated.erase key.pfx
        quarantined := p.quarantined.insert key timer.1
        quarantinedPDs := insert key.pfx p.quarantinedPDs
        timeManager := timer.2 }
    else pure p

def setConflicted (p : PrefixPool) (key : IAPrefixKey) : Locked Mutex (Bool × PrefixPool) :=
  lockGuard .poolMutex do
    if ← p.isAllocated key.pfx then pure (false, p)
    else
      let timer := p.timeManager.addTimer (.bad key.pfx)
      pure (true, { p with bad := p.bad.insert key.pfx timer.1, timeManager := timer.2 })

def excludePrefix (p : PrefixPool) (pfx : IPv6Prefix) : Locked Mutex (Bool × PrefixPool) :=
  lockGuard .poolMutex (pure (pfx ∉ p.excluded, { p with excluded := insert pfx p.excluded }))

def removeExclusion (p : PrefixPool) (pfx : IPv6Prefix) : Locked Mutex (Bool × PrefixPool) :=
  lockGuard .poolMutex (pure (pfx ∈ p.excluded, { p with excluded := p.excluded.erase pfx }))

/-! ## Configuration -/

def timerIds {κ : Type} (m : Map κ UInt32) : List UInt32 := m.entries.map Sigma.snd

/-- `adjustPool`; the groups of the offers stay. -/
def adjustPool (p : PrefixPool) (newBase : IPv6Prefix) (newDelegationLength : ℕ) :
    Locked Mutex (Bool × PrefixPool) :=
  if newBase.prefixLength > 128 ∨ newDelegationLength > 128 ∨
      newDelegationLength < newBase.prefixLength.toNat then
    pure (false, p)
  else
    lockGuard .poolMutex
      (pure (true, { p with
        base := newBase
        delegationLength := .ofNat newDelegationLength
        size := shiftedOne (newDelegationLength - newBase.prefixLength.toNat)
        timeManager := ((p.timeManager.cancelTimers (timerIds p.bad)).cancelTimers
          (timerIds p.advertised)).cancelTimers (timerIds p.quarantined)
        allocated := ∅
        advertised := ∅
        advertisedPDs := ∅
        quarantined := ∅
        quarantinedPDs := ∅
        excluded := ∅
        bad := ∅ }))

def setLeaseManager (p : PrefixPool) : PrefixPool := { p with leaseManager := true }

/-! ## Timers -/

def Callback.run (p : PrefixPool) : Callback → Locked Mutex PrefixPool
  | .advertised key grouped =>
    lockGuard .poolMutex (pure { p with
      advertised := p.advertised.erase key
      advertisedPDs := p.advertisedPDs.erase (if grouped then key.generated else key.pfx)
      advertisedGroups :=
        if grouped then eraseFrom p.advertisedGroups key.group key.pfx else p.advertisedGroups })
  | .quarantined key =>
    lockGuard .poolMutex (pure { p with
      quarantined := p.quarantined.erase key
      quarantinedPDs := p.quarantinedPDs.erase key.pfx })
  | .bad pfx => lockGuard .poolMutex (pure { p with bad := p.bad.erase pfx })
  | .lease .. => pure p

def fireTimer (p : PrefixPool) (timerId : UInt32) : Locked Mutex PrefixPool :=
  match p.timeManager.fire timerId with
  | some (callback, timeManager) => callback.run { p with timeManager }
  | none => pure p

end PrefixPool

end VirtualRouter.Dhcp
