/-
  The DHCPv4 address pool (`services/dhcp/dhcpv4/IPv4Pool.cpp`).

  Every operation is a `Locked` computation: it holds `poolMutex`, and the
  predicates `isAllocated`, `isExcluded`, `isConflicted` and
  `isTemporarilyOffered` take it once more.  Read with `value`, an operation
  returns its result and the pool it leaves.

  * `IPv4Pool.takeQuarantined`: the block at the head of `allocateIP` and
    `allocateTemporaryIP`;
  * `IPv4Pool.scan`: the loop at their end, over the addresses from
    `currentAddress` on;
  * `IPv4Pool.Callback`: what a timer does when it fires.
-/
import VirtualRouter.Core.TimeManager
import VirtualRouter.Dhcp.DhcpInfo

namespace VirtualRouter.Dhcp

open NestedMap Locked
open VirtualRouter.Core

inductive IPv4Pool.Callback where
  /-- The offer of the address to the client runs out. -/
  | temporary (ip : UInt32) (client : ClientID)
  /-- The quarantine of the address ends. -/
  | quarantined (ip : UInt32) (client : ClientID)
  /-- The address is no longer held as conflicted. -/
  | bad (ip : UInt32)
  /-- The lease of the client expires. -/
  | lease (client : ClientID)
  deriving DecidableEq

/-- `IPv4Pool`; `leaseManager` says whether one is set. -/
structure IPv4Pool where
  broadcast : UInt32 := 0
  init : Bool := false
  baseAddress : UInt32 := 0
  lastAddress : UInt32 := 0
  currentAddress : UInt32 := 0
  poolSize : UInt32 := 0
  gateway : UInt32 := 0
  allocated : Map UInt32 ClientID := ∅
  reverseAllocated : Map ClientID UInt32 := ∅
  temporary : Map UInt32 (ClientID × UInt32) := ∅
  reverseTemporary : Map ClientID UInt32 := ∅
  quarantined : Map UInt32 (ClientID × UInt32) := ∅
  reverseQuarantined : Map ClientID UInt32 := ∅
  bad : Map UInt32 UInt32 := ∅
  excluded : Finset UInt32 := ∅
  release : List UInt32 := []
  leaseManager : Bool := false
  timeManager : TimeManager IPv4Pool.Callback := {}
  deriving DecidableEq

namespace IPv4Pool

/-! ## Predicates -/

def isAllocated (p : IPv4Pool) (ip : UInt32) : Locked Mutex Bool :=
  lockGuard .poolMutex (pure (p.allocated.lookup ip).isSome)

def isExcluded (p : IPv4Pool) (ip : UInt32) : Locked Mutex Bool :=
  lockGuard .poolMutex (pure (ip ∈ p.excluded))

def isConflicted (p : IPv4Pool) (ip : UInt32) : Locked Mutex Bool :=
  lockGuard .poolMutex (pure (p.bad.lookup ip).isSome)

/-- `isTemporarilyOffered(ip)`. -/
def isTemporarilyOffered (p : IPv4Pool) (ip : UInt32) : Locked Mutex Bool :=
  lockGuard .poolMutex (pure (p.temporary.lookup ip).isSome)

/-- `isTemporarilyOffered(ip, id)`. -/
def isTemporarilyOfferedTo (p : IPv4Pool) (ip : UInt32) (id : ClientID) : Locked Mutex Bool :=
  lockGuard .poolMutex (pure ((p.temporary.lookup ip).any fun offer => offer.1 = id))

def matchIPToClient (p : IPv4Pool) (ip : UInt32) (clientId : ClientID) : Locked Mutex Bool :=
  lockGuard .poolMutex (pure (p.allocated.lookup ip = some clientId))

def withinRange (p : IPv4Pool) (ip : UInt32) : Bool := ip > p.baseAddress && ip < p.lastAddress

def isReserved (p : IPv4Pool) (ip : UInt32) : Locked Mutex Bool :=
  (p.isAllocated ip).or ((p.isExcluded ip).or (p.isConflicted ip))

/-! ## Edits -/

/-- `allocated[ip] = clientId; reverseAllocated[clientId] = ip`. -/
def setAllocated (p : IPv4Pool) (ip : UInt32) (clientId : ClientID) : IPv4Pool :=
  { p with
    allocated := p.allocated.insert ip clientId
    reverseAllocated := p.reverseAllocated.insert clientId ip }

/-- `temporary[ip] = { clientId, addTimer(..) }; reverseTemporary[clientId] = ip`. -/
def setTemporary (p : IPv4Pool) (ip : UInt32) (clientId : ClientID) : IPv4Pool :=
  let timer := p.timeManager.addTimer (.temporary ip clientId)
  { p with
    temporary := p.temporary.insert ip (clientId, timer.1)
    reverseTemporary := p.reverseTemporary.insert clientId ip
    timeManager := timer.2 }

/-- The timer of an address in quarantine is cancelled and the address leaves it. -/
def dropQuarantined (p : IPv4Pool) (ip : UInt32) (clientId : ClientID) (timerId : UInt32) : IPv4Pool :=
  { p with
    quarantined := p.quarantined.erase ip
    reverseQuarantined := p.reverseQuarantined.erase clientId
    timeManager := p.timeManager.cancelTimer timerId }

/-! ## Allocation -/

/-- The client's address in quarantine, taken out of it; a reverse entry that leads nowhere is
    erased. -/
def takeQuarantined (p : IPv4Pool) (clientId : ClientID) : Option UInt32 × IPv4Pool :=
  match p.reverseQuarantined.lookup clientId with
  | none => (none, p)
  | some ip =>
    match p.quarantined.lookup ip with
    | some (_, timerId) => (some ip, p.dropQuarantined ip clientId timerId)
    | none => (none, { p with reverseQuarantined := p.reverseQuarantined.erase clientId })

/-- The client's address in quarantine is taken, or only the notes of the client's change. -/
theorem takeQuarantined_cases (p : IPv4Pool) (c : ClientID) :
    (∃ ip kept, p.quarantined.lookup ip = some kept ∧
        p.takeQuarantined c = (some ip, p.dropQuarantined ip c kept.2)) ∨
      ∃ q reverseQuarantined, p.takeQuarantined c = (none, q) ∧ q = { p with reverseQuarantined } := by
  rw [takeQuarantined]
  cases p.reverseQuarantined.lookup c with
  | none => exact .inr ⟨p, _, rfl, rfl⟩
  | some ip =>
    cases hQ : p.quarantined.lookup ip with
    | none => exact .inr ⟨_, p.reverseQuarantined.erase c, by simp only [hQ], rfl⟩
    | some kept => exact .inl ⟨ip, kept, hQ, by simp only [hQ]⟩

/-- The address that a scan tests in round `i`. -/
def scanAddress (p : IPv4Pool) (i : UInt32) : UInt32 :=
  p.baseAddress + 1 + (p.currentAddress - p.baseAddress - 1 + i) % (p.poolSize - 2)

/-- The scan of `rounds` addresses from round `i` on: the first that is neither the gateway nor
    taken. -/
def scan (p : IPv4Pool) (taken : UInt32 → Locked Mutex Bool) :
    (rounds : ℕ) → (i : UInt32) → Locked Mutex (Option UInt32)
  | 0, _ => pure none
  | rounds + 1, i =>
    if p.scanAddress i = p.gateway then p.scan taken rounds (i + 1)
    else do
      if ← taken (p.scanAddress i) then p.scan taken rounds (i + 1)
      else pure (some (p.scanAddress i))

def allocateIP (p : IPv4Pool) (clientId : ClientID) : Locked Mutex (UInt32 × IPv4Pool) :=
  lockGuard .poolMutex <|
    match p.reverseAllocated.lookup clientId with
    | some ip => pure (ip, p)
    | none =>
      match p.takeQuarantined clientId with
      | (some ip, p) => pure (ip, p.setAllocated ip clientId)
      | (none, p) =>
        match p.release with
        | newIP :: rest => pure (newIP, { p with release := rest }.setAllocated newIP clientId)
        | [] => do
          match ← p.scan p.isReserved (p.poolSize - 2).toNat 0 with
          | some ip => pure (ip, { p.setAllocated ip clientId with currentAddress := ip + 1 })
          | none => pure (0, p)

/-- The test of the scan of `allocateTemporaryIP`. -/
def isReservedOrOffered (p : IPv4Pool) (ip : UInt32) : Locked Mutex Bool :=
  (p.isReserved ip).or (p.isTemporarilyOffered ip)

/-- `allocateTemporaryIP`; `none` is the division by zero of its scan. -/
def allocateTemporaryIP (p : IPv4Pool) (clientId : ClientID) :
    Locked Mutex (Option (UInt32 × IPv4Pool)) :=
  lockGuard .poolMutex <|
    match p.reverseTemporary.lookup clientId with
    | some ip =>
      match p.temporary.lookup ip with
      | some (client, timerId) =>
        -- the offer keeps its client and gets a new timer
        let timer := (p.timeManager.cancelTimer timerId).addTimer (.temporary ip clientId)
        pure (some (ip, { p with
          temporary := p.temporary.insert ip (client, timer.1)
          timeManager := timer.2 }))
      | none => offer { p with reverseTemporary := p.reverseTemporary.erase clientId }
    | none => offer p
where
  /-- What follows the search for the client's own offer. -/
  offer (p : IPv4Pool) : Locked Mutex (Option (UInt32 × IPv4Pool)) :=
    match p.takeQuarantined clientId with
    | (some ip, p) => pure (some (ip, p.setTemporary ip clientId))
    | (none, p) =>
      match p.release with
      | ip :: rest => pure (some (ip, { p with release := rest }.setTemporary ip clientId))
      | [] =>
        if p.poolSize = 2 then pure none
        else do
          match ← p.scan p.isReservedOrOffered p.poolSize.toNat 0 with
          | some ip => pure (some (ip, { p.setTemporary ip clientId with currentAddress := ip + 1 }))
          | none => pure (some (0, p))

/-- The body of `allocateRequestedTemporaryIP` and `allocateRequestedIP`: the address leaves the
    client's quarantine and the release list, and `take` books it. -/
def allocateRequested (p : IPv4Pool) (ip : UInt32) (clientId : ClientID)
    (take : IPv4Pool → UInt32 → ClientID → IPv4Pool) : Locked Mutex (Bool × IPv4Pool) :=
  lockGuard .poolMutex <|
    match p.quarantined.lookup ip with
    | some (client, timerId) =>
      if client ≠ clientId then pure (false, p) else book (p.dropQuarantined ip clientId timerId)
    | none => book p
where
  /-- What follows the test of the quarantine. -/
  book (p : IPv4Pool) : Locked Mutex (Bool × IPv4Pool) :=
    if !p.withinRange ip then pure (false, p)
    else do
      if ← p.isReservedOrOffered ip then pure (false, p)
      else pure (true, take { p with release := p.release.erase ip } ip clientId)

def allocateRequestedTemporaryIP (p : IPv4Pool) (ip : UInt32) (clientId : ClientID) :
    Locked Mutex (Bool × IPv4Pool) :=
  p.allocateRequested ip clientId setTemporary

def allocateRequestedIP (p : IPv4Pool) (ip : UInt32) (clientId : ClientID) :
    Locked Mutex (Bool × IPv4Pool) :=
  p.allocateRequested ip clientId setAllocated

def getTemporaryIPForClient (p : IPv4Pool) (clientId : ClientID) : Locked Mutex UInt32 :=
  lockGuard .poolMutex (pure ((p.reverseTemporary.lookup clientId).getD 0))

def activateTemporaryIP (p : IPv4Pool) (ip : UInt32) (clientId : ClientID) :
    Locked Mutex (Bool × IPv4Pool) :=
  lockGuard .poolMutex <|
    match p.temporary.lookup ip with
    | none => pure (false, p)
    | some (client, timerId) =>
      if clientId ≠ client then pure (false, p)
      else
        pure (true, { p with
          timeManager := p.timeManager.cancelTimer timerId
          temporary := p.temporary.erase ip
          reverseTemporary := p.reverseTemporary.erase clientId }.setAllocated ip clientId)

def clearTemporaryOffer (p : IPv4Pool) (ip : UInt32) : Locked Mutex IPv4Pool :=
  lockGuard .poolMutex <|
    match p.temporary.lookup ip with
    | none => pure p
    | some (client, timerId) =>
      pure { p with
        timeManager := p.timeManager.cancelTimer timerId
        reverseTemporary := p.reverseTemporary.erase client
        temporary := p.temporary.erase ip }

/-! ## Exclusion, expiry and conflicts -/

def excludeIP (p : IPv4Pool) (ip : UInt32) : Locked Mutex (Bool × IPv4Pool) :=
  lockGuard .poolMutex <|
    if !p.withinRange ip then pure (false, p)
    else do
      if ← p.isAllocated ip then pure (false, p)
      else pure (true, { p with excluded := insert ip p.excluded })

def removeExclusion (p : IPv4Pool) (ip : UInt32) : Locked Mutex (Bool × IPv4Pool) :=
  lockGuard .poolMutex (pure (ip ∈ p.excluded, { p with excluded := p.excluded.erase ip }))

def expireIP (p : IPv4Pool) (ip : UInt32) (client : ClientID) : Locked Mutex IPv4Pool :=
  lockGuard .poolMutex do
    if ← p.isAllocated ip then
      let timer := p.timeManager.addTimer (.quarantined ip client)
      pure { p with
        allocated := p.allocated.erase ip
        reverseAllocated := p.reverseAllocated.erase client
        quarantined := p.quarantined.insert ip (client, timer.1)
        reverseQuarantined := p.reverseQuarantined.insert client ip
        timeManager := timer.2 }
    else pure p

def releaseIP (p : IPv4Pool) (ip : UInt32) (client : ClientID) : Locked Mutex IPv4Pool :=
  lockGuard .poolMutex do
    if ← p.isAllocated ip then
      pure { p with
        allocated := p.allocated.erase ip
        reverseAllocated := p.reverseAllocated.erase client }
    else pure p

def setConflicted (p : IPv4Pool) (ip : UInt32) : Locked Mutex (Bool × IPv4Pool) :=
  lockGuard .poolMutex do
    if ← p.isAllocated ip then
      let client := (p.allocated.lookup ip).getD []
      let timer := p.timeManager.addTimer (.bad ip)
      pure (true, { p with
        allocated := p.allocated.erase ip
        reverseAllocated := p.reverseAllocated.erase client
        bad := p.bad.insert ip timer.1
        timeManager := timer.2 })
    else pure (false, p)

/-! ## Configuration -/

/-- `1U << n` (a shift by 32 leaves the bit in place). -/
def shiftedOne (n : UInt32) : UInt32 := 1 <<< n

def adjustPool (p : IPv4Pool) (net : Option UInt32) (len : Option UInt8) (gw : Option UInt32) :
    Locked Mutex IPv4Pool :=
  lockGuard .poolMutex <|
    let poolSize := match len with
      | some len => if len ≤ 32 then shiftedOne (32 - len.toUInt32) else p.poolSize
      | none => p.poolSize
    let baseAddress := net.getD p.baseAddress
    let lastAddress := baseAddress + poolSize - 1
    let p := { p with
      poolSize, baseAddress, lastAddress
      gateway := gw.getD p.gateway
      broadcast := lastAddress + 1
      init := poolSize > 0 && p.leaseManager }
    pure (if p.leaseManager then
      { p with allocated := ∅, temporary := ∅, release := [], bad := ∅ }
    else p)

def setLeaseManager (p : IPv4Pool) : IPv4Pool := { p with leaseManager := true }

/-! ## Timers -/

def Callback.run (p : IPv4Pool) : Callback → Locked Mutex IPv4Pool
  | .temporary ip clientId =>
    lockGuard .poolMutex (pure { p with
      temporary := p.temporary.erase ip
      reverseTemporary := p.reverseTemporary.erase clientId })
  | .quarantined ip client =>
    lockGuard .poolMutex do
      let barred ← (p.isExcluded ip).or (p.isConflicted ip)
      pure { p with
        release := if barred then p.release else p.release ++ [ip]
        quarantined := p.quarantined.erase ip
        reverseQuarantined := p.reverseQuarantined.erase client }
  | .bad ip => lockGuard .poolMutex (pure { p with bad := p.bad.erase ip })
  | .lease _ => pure p

def fireTimer (p : IPv4Pool) (timerId : UInt32) : Locked Mutex IPv4Pool :=
  match p.timeManager.fire timerId with
  | some (callback, timeManager) => callback.run { p with timeManager }
  | none => pure p

end IPv4Pool

end VirtualRouter.Dhcp
