/-
  The address family instance (`routing/bgp/af/AddressFamilyInstance.h`): the
  way of routes from the UPDATEs of the peers through Adj-RIB-In, the decision
  process and the Loc-RIB to the VRF routing table and to Adj-RIB-Out.

  `adjRibIn` is flat, its keys being the router id of the peer, the prefix and
  the path id.  A route is a value with the address of its object; the Loc-RIB
  refers to the routes of Adj-RIB-In, and where the source compares references
  the model compares these addresses.  Every function that takes a route out of
  Adj-RIB-In first erases the Loc-RIB entry that refers to it (`removeRoute`).
  The IGP costs that `recomputeNlri` refreshes are read by nothing else and are
  not written back.  `vrf` is the VRF routing table as the NLRI policy sees it:
  the route that this process installed for a prefix.

  An established session is one that its neighbor points to; the log of a
  session is emptied when it goes down.  Left out are the pre-policy table (read
  only by `softClearInbound`), default-originate and aggregates.
-/
import VirtualRouter.Bgp.EgressPolicy
import VirtualRouter.Lib.Run

namespace VirtualRouter.Bgp

def BGP_ORIGIN_IGP : UInt8 := 0x00

def MAX_NEXTHOP : ℕ := 8

/-! ## State -/

/-- What the instance reads of a neighbor: its router id, and its session if that is established. -/
structure NeighborState where
  rid : UInt32 := 0
  session : Option PeerSession := none
  deriving DecidableEq, Repr

/-- `StaleTimerIds`: the timers that run. -/
structure StaleTimers where
  stalepath : Bool
  maxEor : Bool
  deriving DecidableEq, Repr

inductive StaleTimer where
  | stalepath
  | maxEor
  deriving DecidableEq, Repr

structure NhtEntry (ν : Type) where
  reachable : Bool := true
  nlris : List ν := []

/-- A route of the VRF table: what `buildRoute` fills in. -/
structure VrfRoute where
  adminDistance : UInt8
  metric : UInt32
  nextHops : List (UInt32 × ℕ)
  deriving DecidableEq, Repr

structure AddressFamilyInstance (ν : Type) where
  adjRibIn : Table (InKey ν) InboundRoute := ∅
  networkLocalRoutes : Table ν InboundRoute := ∅
  locRib : Table ν LocalRoute := ∅
  vrf : ν → Option VrfRoute := fun _ => none
  out : OutState ν := {}
  neighbors : Table IPAddress NeighborState := ∅
  /-- The neighbors by router id. -/
  peers : UInt32 → Option IPAddress := fun _ => none
  stalePeerNlris : UInt32 → Option (List ν) := fun _ => none
  staleTimers : UInt32 → Option StaleTimers := fun _ => none
  nhtTable : IPAddress → Option (NhtEntry ν) := fun _ => none
  nlriToNextHop : ν → Option IPAddress := fun _ => none
  pendingNhtRecompute : List ν := []
  maxPfxWarned : IPAddress → Bool := fun _ => false
  maxPfxRestart : IPAddress → Option UInt16 := fun _ => none
  /-- The events posted to the sessions. -/
  posted : List (IPAddress × FsmEvent) := []

variable {ν : Type} [DecidableEq ν]

/-! ## Ingress policy -/

def Attributes.firstAs (a : Attributes) : UInt32 :=
  match a.asPath.find? fun s => s.segmentType = BGP_AS_SEQUENCE ∧ s.asns ≠ [] with
  | some seg => seg.asns.headD 0
  | none => 0

/-- How often the AS path has our AS number, or in its regular segments that of the confederation. -/
def ownAsCount (p : ProcessConfig) (asPath : List AsPathSegment) : ℕ :=
  (asPath.map fun seg =>
    seg.asns.count p.asNum +
      if p.getConfedId ≠ p.asNum ∧
          (seg.segmentType = BGP_AS_SEQUENCE ∨ seg.segmentType = BGP_AS_SET) then
        seg.asns.count p.getConfedId
      else 0).sum

/-- How often the AS path has the local AS number of the neighbor, where that is looked for. -/
def localAsCount (n : NeighborConfig) (asPath : List AsPathSegment) : ℕ :=
  match n.localAsAs with
  | some localAs =>
    if n.localAs && !n.localAsDualAs then (asPath.map fun seg => seg.asns.count localAs).sum else 0
  | none => 0

def exceeds (limit : Option ℕ) (n : ℕ) : Bool := limit.any (· < n)

/-- `applyIngressPolicy`: whether the route is dropped. -/
def applyIngressPolicy (p : ProcessConfig) (n : NeighborConfig) (route : InboundRoute) : Bool :=
  let a := route.attrs.attrs
  -- route reflector loops, for internal peers
  (!route.ebgp && !route.confedEbgp &&
    (a.originatorId = some p.rid || a.clusterList.contains p.getClusterId)) ||
  -- AS path loops
  (if n.allowAsIn then decide (ownAsCount p a.asPath > (n.allowAsInOccurances.getD 1).toNat)
    else decide (ownAsCount p a.asPath > 0)) ||
  decide (localAsCount n a.asPath > 0) ||
  -- the first AS of an external route is that of the peer
  (route.ebgp && p.enforceFirstAs && a.firstAs != 0 && a.firstAs != route.peerAs) ||
  exceeds p.maxAsLimit a.asPathLength || exceeds p.maxCommunityLimit a.communities.length ||
  exceeds p.maxExtCommunityLimit a.extendedCommunities.length

/-! ## The VRF table -/

/-- `RibEntry::addNextHop`, for an entry whose next hops all have a gateway. -/
def addNextHop (hops : List (UInt32 × ℕ)) (addr : UInt32) (iface : ℕ) : List (UInt32 × ℕ) :=
  if hops.length ≥ MAX_NEXTHOP ∨ (addr, iface) ∈ hops then hops else hops ++ [(addr, iface)]

/-- `addHop`: `none` if the next hop does not resolve. -/
def addHop (f : FamilyConfig ν) (o : Oracle ν) (hops : List (UInt32 × ℕ)) (r : InboundRoute) :
    Option (List (UInt32 × ℕ)) :=
  if !r.attrs.path.nextHop.isIPv4 then none
  else
    match o.ribLookup r.attrs.path.nextHop with
    | none => none
    | some (length, iface) =>
      if !f.recursiveHost && length = 32 then none
      else some (addNextHop hops r.attrs.path.nextHop.v4 iface)

def computeAdminDistance (f : FamilyConfig ν) (route : InboundRoute) (nlri : ν) : UInt8 :=
  (f.distanceRange nlri).getD
    (if route.sourceNeighbor.isNone then f.distanceLocal
      else if route.ebgp then f.distanceExternal else f.distanceInternal)

/-- The metric of `buildInstall`. -/
def installMetric (f : FamilyConfig ν) (route : InboundRoute) : UInt32 :=
  match route.attrs.attrs.med with
  | some med => med
  | none => if route.sourceNeighbor.isNone then f.defaultMetric.getD 0 else 0

/-- The next hops of `buildRoute`: that of the best route, and those of the others that resolve. -/
def routeHops (f : FamilyConfig ν) (o : Oracle ν) (best : LocalRoute) :
    Option (List (UInt32 × ℕ)) :=
  (addHop f o [] best.route).map fun hops =>
    best.multipaths.foldl (fun hops r => (addHop f o hops r).getD hops) hops

/-- `buildInstall` and `buildRoute`: `none` if the next hop of the best route does not resolve. -/
def buildRoute (f : FamilyConfig ν) (o : Oracle ν) (nlri : ν) (best : LocalRoute) :
    Option VrfRoute :=
  (routeHops f o best).map fun hops =>
    ⟨computeAdminDistance f best.route nlri, installMetric f best.route, hops⟩

namespace AddressFamilyInstance

variable (cfg : Config ν) (o : Oracle ν) (s : AddressFamilyInstance ν)

def registerNht (nlri : ν) (nh : IPAddress) : AddressFamilyInstance ν :=
  if !cfg.family.nextHopTracking then s
  else
    let entry := (s.nhtTable nh).getD {}
    { s with
      nhtTable := Function.update s.nhtTable nh
        (some { entry with nlris := entry.nlris.insert nlri })
      nlriToNextHop := Function.update s.nlriToNextHop nlri (some nh) }

def unregisterNht (nlri : ν) : AddressFamilyInstance ν :=
  match s.nlriToNextHop nlri with
  | none => s
  | some nh =>
    let s := { s with nlriToNextHop := Function.update s.nlriToNextHop nlri none }
    match s.nhtTable nh with
    | none => s
    | some entry =>
      let nlris := entry.nlris.erase nlri
      { s with
        nhtTable := Function.update s.nhtTable nh
          (if nlris.isEmpty then none else some { entry with nlris := nlris }) }

/-- `installToRib`; a route whose next hop does not resolve is not installed. -/
def installToRib (nlri : ν) (best : LocalRoute) : AddressFamilyInstance ν :=
  let s := match buildRoute cfg.family o nlri best with
    | some route => { s with vrf := Function.update s.vrf nlri (some route) }
    | none => s
  s.registerNht cfg nlri best.route.attrs.path.nextHop

def withdrawFromRib (nlri : ν) : AddressFamilyInstance ν :=
  let s := s.unregisterNht nlri
  { s with vrf := Function.update s.vrf nlri none }

/-! ## The decision -/

/-- The candidates for a prefix, with their IGP costs refreshed. -/
def candidates (nlri : ν) : List InboundRoute :=
  o.order ((s.adjRibIn.entries.filter fun e => e.1.path.nlri = nlri).map fun e =>
    { e.2 with igpCost := o.igpMetricResolver e.2.attrs.path.nextHop }) ++
  (s.networkLocalRoutes.lookup nlri).toList

/-- The group of a route under deterministic MED; local routes are their own group. -/
def groupAs (r : InboundRoute) : UInt32 :=
  if r.sourceNeighbor.isSome && r.ebgp && r.attrs.attrs.firstAs != 0 then r.attrs.attrs.firstAs
  else if r.sourceNeighbor.isSome then r.peerAs
  else 0

def groupBests (c : BestPathComparator) (rs : List InboundRoute) : Table UInt32 InboundRoute :=
  rs.foldl (fun t r =>
    match t.lookup (groupAs r) with
    | none => t.insert (groupAs r) r
    | some best => if c.prefers r best then t.insert (groupAs r) r else t) ∅

def comparator : BestPathComparator :=
  ⟨cfg.family.bestPath, cfg.process.alwaysCompareMed, cfg.process.rid⟩

def additionalPool (c : BestPathComparator) (rs : List InboundRoute) (best : LocalRoute) :
    List InboundRoute :=
  (c.rankCandidates rs).filter fun r =>
    r.addr ≠ best.route.addr ∧ ¬ best.multipaths.any (·.addr = r.addr)

/-- The candidates that the decision process sees: under deterministic MED one of each group. -/
def contenders (nlri : ν) : List InboundRoute :=
  if cfg.process.deterministicMed then
    o.order ((groupBests (comparator cfg) (s.candidates o nlri)).entries.map fun e => e.2)
  else s.candidates o nlri

/-- The decision of `recomputeNlri`. -/
def decision (nlri : ν) : Option LocalRoute :=
  let c := comparator cfg
  let rs := s.contenders cfg o nlri
  (c.selectBest rs cfg.family.maximumPathsEbgp cfg.family.maximumPathsIbgp).map fun best =>
    let pool := additionalPool c rs best
    { best with
      additionalPaths := if cfg.family.additionalPathsAll then pool
        else selectAdditional cfg.family
          (fun _ => best.route.peerAs :: best.multipaths.map (·.peerAs)) pool }

/-- One round of `recomputeAdjRibOut`; neighbors without an established session are left out. -/
def advertiseRound (nlri : ν) (best : Option LocalRoute) (out : OutState ν)
    (e : (_ : IPAddress) × NeighborState) : OutState ν :=
  match e.2.session with
  | none => out
  | some ses =>
    advertiseTo cfg o (fun nh => (s.nhtTable nh).any (!·.reachable)) nlri best out e.1 ses

def recomputeAdjRibOut (nlri : ν) (best : Option LocalRoute) : AddressFamilyInstance ν :=
  { s with out := (o.order s.neighbors.entries).foldl (s.advertiseRound cfg o nlri best) s.out }

def recomputeNlri (nlri : ν) : AddressFamilyInstance ν :=
  match s.decision cfg o nlri, s.locRib.lookup nlri with
  | none, none => s
  | none, some _ =>
    recomputeAdjRibOut cfg o
      { s.withdrawFromRib nlri with locRib := s.locRib.erase nlri } nlri none
  | some best, entry =>
    -- a newly reachable prefix may be held back
    if cfg.family.dampening && entry.isNone && o.suppresses nlri then s
    else
      let bestChanged := entry.all fun e => e.route.addr ≠ best.route.addr
      let s := recomputeAdjRibOut cfg o { s with locRib := s.locRib.insert nlri best } nlri
        (some best)
      if bestChanged then s.installToRib cfg o nlri best else s

/-- The loop over the touched prefixes. -/
def recomputeAll (touched : List ν) : AddressFamilyInstance ν :=
  (o.order touched.dedup).foldl (recomputeNlri cfg o) s

/-! ## Adj-RIB-In -/

/-- The Loc-RIB without the entry of `nlri` if that refers to the route `r`. -/
def unrefer (locRib : Table ν LocalRoute) (nlri : ν) (r : InboundRoute) : Table ν LocalRoute :=
  if (locRib.lookup nlri).any (·.route.addr = r.addr) then locRib.erase nlri else locRib

/-- A route is taken out of Adj-RIB-In, after the Loc-RIB entry that refers to it. -/
def removeRoute (k : InKey ν) : AddressFamilyInstance ν :=
  match s.adjRibIn.lookup k with
  | none => s
  | some r =>
    { s with adjRibIn := s.adjRibIn.erase k, locRib := unrefer s.locRib k.path.nlri r }

/-- The prefix is no longer stale for the peer. -/
def unstale (rid : UInt32) (nlri : ν) : AddressFamilyInstance ν :=
  { s with
    stalePeerNlris := Function.update s.stalePeerNlris rid
      ((s.stalePeerNlris rid).map (·.erase nlri)) }

def peerKeys (rid : UInt32) : List (InKey ν) := s.adjRibIn.keys.filter fun k => k.peer = rid

def liveAddrs : List ℕ :=
  s.adjRibIn.entries.map (·.2.addr) ++ s.networkLocalRoutes.entries.map (·.2.addr)

def withdrawPath (rid : UInt32) (n : NlriPath ν) : AddressFamilyInstance ν :=
  (s.removeRoute ⟨rid, n⟩).unstale rid n.nlri

/-- The route made of an announcement of the neighbor at `addr`, `nbr` being the one found by the
    router id. -/
def inboundRoute (addr nbr : IPAddress) (rid : UInt32) (attrs : PathAttribute) : InboundRoute where
  addr := 0
  sourceNeighbor := some ⟨rid, nbr⟩
  weigth := (cfg.neighbor nbr).weight.getD 0
  peerAs := (cfg.neighbor addr).remoteAs.getD 0
  ebgp := (cfg.neighbor nbr).isEbgp
  confedEbgp := (cfg.neighbor nbr).isConfedEbgp
  igpCost := o.igpMetricResolver attrs.path.nextHop
  receivedTime := o.now
  attrs := attrs

/-- One announced prefix of an UPDATE: dropped by the policy, or put in place of the route before. -/
def announcePrefix (addr nbr : IPAddress) (rid : UInt32) (attrs : PathAttribute)
    (acc : AddressFamilyInstance ν × List ν) (n : NlriPath ν) : AddressFamilyInstance ν × List ν :=
  let r := inboundRoute cfg o addr nbr rid attrs
  if applyIngressPolicy cfg.process (cfg.neighbor nbr) r then acc
  else
    let s := acc.1.removeRoute ⟨rid, n⟩
    let r := { r with addr := o.alloc s.liveAddrs }
    ({ s with adjRibIn := s.adjRibIn.insert ⟨rid, n⟩ r }.unstale rid n.nlri, acc.2 ++ [n.nlri])

/-- The enforcement of `MAXIMUM_PREFIX`. -/
def enforceMaximumPrefix (addr nbr : IPAddress) (rid : UInt32) : AddressFamilyInstance ν :=
  let n := cfg.neighbor nbr
  match n.maximumPrefix with
  | none => s
  | some maxPfx =>
    let count := UInt32.ofNat (s.peerKeys rid).length
    let threshold := (n.maximumPrefixThreshold.getD 75).toUInt32
    let s := if count ≥ maxPfx * threshold / 100 then
        { s with maxPfxWarned := Function.update s.maxPfxWarned nbr true }
      else s
    if count ≥ maxPfx ∧ !n.maximumPrefixWarningOnly ∧
        (s.neighbors.lookup addr).any (·.session.isSome) then
      let s := match n.maximumPrefixRestart with
        | some minutes =>
          { s with maxPfxRestart := Function.update s.maxPfxRestart nbr (some minutes) }
        | none => s
      { s with posted := s.posted ++ [(addr, .MAX_PREFIX_REACHED)] }
    else s

/-- The router id of the neighbor at `addr`, 0 if it has none. -/
def ridOf (addr : IPAddress) : UInt32 := ((s.neighbors.lookup addr).map (·.rid)).getD 0

/-- What an UPDATE does to Adj-RIB-In, with the touched prefixes; `nbr` is the neighbor found by
    the router id. -/
def takeUpdate (addr nbr : IPAddress) (rid : UInt32) (update : ParsedUpdate ν) :
    AddressFamilyInstance ν × List ν :=
  let acc := (update.withdrawn.foldl (fun s n => s.withdrawPath rid n) s,
    update.withdrawn.map (·.nlri))
  match update.attrs with
  | none => acc
  | some attrs => update.announcements.foldl (announcePrefix cfg o addr nbr rid attrs) acc

/-- `onParsedUpdateFromPeer`, for the neighbor at `addr`. -/
def onParsedUpdateFromPeer (addr : IPAddress) (update : ParsedUpdate ν) :
    AddressFamilyInstance ν :=
  match s.peers (s.ridOf addr) with
  | none => s
  | some nbr =>
    let acc := s.takeUpdate cfg o addr nbr (s.ridOf addr) update
    (acc.1.enforceMaximumPrefix cfg addr nbr (s.ridOf addr)).recomputeAll cfg o acc.2

/-! ## Route refresh -/

def cancelStaleTimers (rid : UInt32) : AddressFamilyInstance ν :=
  match s.staleTimers rid with
  | none => s
  | some _ =>
    { s with
      staleTimers := Function.update s.staleTimers rid none
      stalePeerNlris := Function.update s.stalePeerNlris rid none }

/-- What `purgeStalePeer` does to Adj-RIB-In. -/
def dropStale (rid : UInt32) (stale : List ν) : AddressFamilyInstance ν :=
  let s := ((s.peerKeys rid).filter fun k => k.path.nlri ∈ stale).foldl
    (fun s k => s.removeRoute k) s
  { s with stalePeerNlris := Function.update s.stalePeerNlris rid none }

def purgeStalePeer (rid : UInt32) : AddressFamilyInstance ν :=
  match s.stalePeerNlris rid with
  | none => s
  | some stale => if stale.isEmpty then s else (s.dropStale rid stale).recomputeAll cfg o stale

/-- `onPeerBorr`, for a session with the router id `rid`. -/
def onPeerBorr (rid : UInt32) : AddressFamilyInstance ν :=
  let s := s.cancelStaleTimers rid
  { s with
    stalePeerNlris := Function.update s.stalePeerNlris rid
      (some ((s.stalePeerNlris rid).getD [] ∪ (s.peerKeys rid).map (·.path.nlri)))
    staleTimers := Function.update s.staleTimers rid (some ⟨true, true⟩) }

def onPeerEorr (rid : UInt32) : AddressFamilyInstance ν :=
  (s.cancelStaleTimers rid).purgeStalePeer cfg o rid

def onStaleTimer (rid : UInt32) (timer : StaleTimer) : AddressFamilyInstance ν :=
  match s.staleTimers rid, timer with
  | some ⟨true, maxEor⟩, .stalepath =>
    { s with staleTimers := Function.update s.staleTimers rid (some ⟨false, maxEor⟩) }.purgeStalePeer
      cfg o rid
  | some ⟨stalepath, true⟩, .maxEor =>
    { s with staleTimers := Function.update s.staleTimers rid (some ⟨stalepath, false⟩) }.purgeStalePeer
      cfg o rid
  | _, _ => s

/-! ## Sessions -/

/-- The per-peer state that `invalidatePeer` drops besides the routes of the peer. -/
def dropPeerState (rid : UInt32) : AddressFamilyInstance ν :=
  let s := { s with
    out := { s.out with mraiState := Function.update s.out.mraiState rid {} } }
  let s := match s.peers rid with
    | none => s
    | some nbr =>
      { s with
        maxPfxWarned := Function.update s.maxPfxWarned nbr false
        maxPfxRestart := Function.update s.maxPfxRestart nbr none
        out := s.out.setSlow nbr {} }
  let s := s.cancelStaleTimers rid
  { s with out := s.out.setOut rid [] }

/-- What `invalidatePeer` does to Adj-RIB-In. -/
def dropPeer (rid : UInt32) : AddressFamilyInstance ν :=
  (s.peerKeys rid).foldl (fun s k => s.removeRoute k) s

def invalidatePeer (rid : UInt32) : AddressFamilyInstance ν :=
  let s := s.dropPeerState rid
  (s.dropPeer rid).recomputeAll cfg o ((s.peerKeys rid).map (·.path.nlri))

/-- The loop of `scan` and `onPeerEstablished` over the Loc-RIB. -/
def scan : AddressFamilyInstance ν :=
  (o.order s.locRib.entries).foldl (fun s e => s.recomputeAdjRibOut cfg o e.1 (some e.2)) s

def sessionOf (addr : IPAddress) : Option PeerSession := (s.neighbors.lookup addr).bind (·.session)

/-- `BgpProcess::onSessionEstablished`, for this family. -/
def onSessionEstablished (addr : IPAddress) (ses : PeerSession) : AddressFamilyInstance ν :=
  let ses := (s.sessionOf addr).getD ses
  let s := { s with
    neighbors := s.neighbors.insert addr ⟨ses.peerRid, some ses⟩
    peers := Function.update s.peers ses.peerRid (some addr) }
  if ses.active && !cfg.process.updateDelay then s.scan cfg o else s

def onUpdateDelay (addr : IPAddress) : AddressFamilyInstance ν :=
  match s.sessionOf addr with
  | some ses => if ses.active then s.scan cfg o else s
  | none => s

/-- The neighbor at `addr` has no router id. -/
def clearRid (addr : IPAddress) : AddressFamilyInstance ν :=
  { s with neighbors := s.neighbors.insert addr { (s.neighbors.lookup addr).getD {} with rid := 0 } }

def deactivatePeer (rid : UInt32) : AddressFamilyInstance ν :=
  match s.peers rid with
  | none => s
  | some nbr => { s.clearRid nbr with peers := Function.update s.peers rid none }

/-- The neighbor at `addr` has no session, and the log of the one it had is closed. -/
def closeSession (addr : IPAddress) : AddressFamilyInstance ν :=
  { s with
    neighbors := s.neighbors.insert addr
      { (s.neighbors.lookup addr).getD {} with session := none }
    out := { s.out with sent := Function.update s.out.sent addr [] } }

/-- `BgpProcess::onSessionDown`; the router id of a session is not 0. -/
def onSessionDown (addr : IPAddress) : AddressFamilyInstance ν :=
  match s.sessionOf addr with
  | none => s
  | some ses =>
    let s := s.closeSession addr
    ((s.invalidatePeer cfg o ses.peerRid).deactivatePeer ses.peerRid).clearRid addr

/-- `drainMraiPending`, for a timer that runs. -/
def drainMraiPending (rid : UInt32) : AddressFamilyInstance ν :=
  let ms := s.out.mraiState rid
  if !ms.timer then s
  else
    let s := { s with
      out := { s.out.setMrai rid ⟨o.now, [], false⟩ with mraiBypassPeer := rid } }
    let s := (o.order ms.pending).foldl
      (fun s nlri => s.recomputeAdjRibOut cfg o nlri (s.locRib.lookup nlri)) s
    { s with out := { s.out with mraiBypassPeer := 0 } }

/-! ## Network routes and next hops -/

/-- The route of a `network` command. -/
def networkRoute (addr : ℕ) : InboundRoute where
  addr := addr
  weigth := 32768
  receivedTime := o.now
  attrs := { attrs := { origin := some BGP_ORIGIN_IGP, med := cfg.family.defaultMetric } }

/-- What `onNetworkRibChanged` does to the network routes. -/
def setNetwork (nlri : ν) (reachable : Bool) : AddressFamilyInstance ν :=
  let s := { s with networkLocalRoutes := s.networkLocalRoutes.erase nlri }
  if reachable then
    { s with networkLocalRoutes :=
        s.networkLocalRoutes.insert nlri (networkRoute cfg o (o.alloc s.liveAddrs)) }
  else s

def onNetworkRibChanged (nlri : ν) (reachable : Bool) : AddressFamilyInstance ν :=
  (s.setNetwork cfg o nlri reachable).recomputeNlri cfg o nlri

def onNhtChange (nh : IPAddress) (reachable : Bool) : AddressFamilyInstance ν :=
  match s.nhtTable nh with
  | none => s
  | some entry =>
    if entry.reachable = reachable then s
    else
      { s with
        nhtTable := Function.update s.nhtTable nh (some { entry with reachable := reachable })
        pendingNhtRecompute := s.pendingNhtRecompute ∪ entry.nlris }

def processNhtPending : AddressFamilyInstance ν :=
  { s with pendingNhtRecompute := [] }.recomputeAll cfg o s.pendingNhtRecompute

end AddressFamilyInstance

/-! ## Events -/

/-- What happens to an instance from outside. -/
inductive AfEvent (ν : Type) where
  | update (addr : IPAddress) (update : ParsedUpdate ν)
  | established (addr : IPAddress) (ses : PeerSession)
  | updateDelay (addr : IPAddress)
  | sessionDown (addr : IPAddress)
  | borr (addr : IPAddress)
  | eorr (addr : IPAddress)
  | staleTimer (rid : UInt32) (timer : StaleTimer)
  | networkRibChanged (nlri : ν) (reachable : Bool)
  | mraiTimer (rid : UInt32)
  | nhtChange (nh : IPAddress) (reachable : Bool)
  | nhtTimer
  | scan

/-- An event, with the configuration and the environment that its handler finds. -/
structure AfInput (ν : Type) where
  cfg : Config ν
  oracle : Oracle ν
  event : AfEvent ν

namespace AddressFamilyInstance

/-- The router id of the session of the neighbor at `addr`. -/
def sessionRid (s : AddressFamilyInstance ν) (addr : IPAddress) : Option UInt32 :=
  (s.sessionOf addr).map (·.peerRid)

/-- The handler of an event; messages come from established sessions. -/
def step (s : AddressFamilyInstance ν) (i : AfInput ν) : AddressFamilyInstance ν :=
  match i.event with
  | .update addr update => s.onParsedUpdateFromPeer i.cfg i.oracle addr update
  | .established addr ses => s.onSessionEstablished i.cfg i.oracle addr ses
  | .updateDelay addr => s.onUpdateDelay i.cfg i.oracle addr
  | .sessionDown addr => s.onSessionDown i.cfg i.oracle addr
  | .borr addr => match s.sessionRid addr with
    | some rid => s.onPeerBorr rid
    | none => s
  | .eorr addr => match s.sessionRid addr with
    | some rid => s.onPeerEorr i.cfg i.oracle rid
    | none => s
  | .staleTimer rid timer => s.onStaleTimer i.cfg i.oracle rid timer
  | .networkRibChanged nlri reachable => s.onNetworkRibChanged i.cfg i.oracle nlri reachable
  | .mraiTimer rid => s.drainMraiPending i.cfg i.oracle rid
  | .nhtChange nh reachable => s.onNhtChange nh reachable
  | .nhtTimer => s.processNhtPending i.cfg i.oracle
  | .scan => s.scan i.cfg i.oracle

end AddressFamilyInstance

/-! ## A sample environment -/

/-- Tables are iterated in order, every next hop resolves, and nothing is held back. -/
def sampleOracle : Oracle ν where
  order l := l
  order_perm l := .refl l
  alloc l := l.sum + 1
  alloc_fresh l h := by
    have := List.single_le_sum (fun _ _ => Nat.zero_le _) _ h
    omega
  now := 0
  igpMetricResolver _ := 0
  ribLookup _ := some (24, 1)
  pendingTxBytes _ := 0
  suppresses _ := false
  aggregateSuppressed _ := false
  passesOrfFilter _ _ := true
  nullRid := 0

/-- The prefix 10.0.0.0/8, and the neighbors 192.0.2.1 and 192.0.2.2. -/
def samplePrefix : UInt32 × UInt8 := (0x0A000000, 8)

def sampleNbr : IPAddress := .ofV4 0xC0000201

def sampleNbr2 : IPAddress := .ofV4 0xC0000202

/-- AS 65000 with external neighbors in AS 65001, to which nothing is deferred. -/
def sampleConfig : Config (UInt32 × UInt8) where
  process := { asNum := 65000, rid := 1 }
  neighbor _ := { remoteAs := some 65001, isEbgp := true, activate := true, advertiseInterval := 0 }

def sampleAttrs (asns : List UInt32) (nextHop : UInt32) : PathAttribute where
  attrs := { origin := some BGP_ORIGIN_IGP, asPath := [⟨BGP_AS_SEQUENCE, asns⟩] }
  path := { nextHop := .ofV4 nextHop }

def sampleInput (e : AfEvent (UInt32 × UInt8)) : AfInput (UInt32 × UInt8) :=
  ⟨sampleConfig, sampleOracle, e⟩

def sampleNbrSession : PeerSession := { peerRid := 7 }

def sampleNbr2Session : PeerSession := { peerRid := 8 }

/-- An instance with an established session to the first neighbor, whose router id is 7. -/
def sampleInstance : AddressFamilyInstance (UInt32 × UInt8) :=
  AddressFamilyInstance.step {} (sampleInput (.established sampleNbr sampleNbrSession))

def sampleUpdate (asns : List UInt32) (nextHop : UInt32) : ParsedUpdate (UInt32 × UInt8) where
  announcements := [⟨samplePrefix, 0⟩]
  attrs := some (sampleAttrs asns nextHop)

end VirtualRouter.Bgp
