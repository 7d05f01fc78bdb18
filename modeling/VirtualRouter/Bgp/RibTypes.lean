/-
  The tables of an address family (`routing/bgp/rib/RibTypes.hpp`) and the
  configuration that the instance reads (`config::Bgp`, `BgpAddressFamily`,
  `BgpAfBase`, `BgpNeighbor`, `BgpNeighborSession`).

  A hash map is an association list with distinct keys; the order in which it is
  iterated is not part of it (`Oracle.order` of `Bgp/EgressPolicy.lean`).  The
  NLRI type is a parameter, as in the source.
-/
import VirtualRouter.Bgp.BestPath

namespace VirtualRouter.Bgp

abbrev Table (κ α : Type) := AList fun _ : κ => α

/-! ## Routes on the wire -/

/-- `NlriPath`: a prefix with its ADD-PATH identifier. -/
structure NlriPath (ν : Type) where
  nlri : ν
  pathId : UInt32 := 0
  deriving DecidableEq, Repr

instance {ν : Type} [DecidableEq ν] : LawfulBEq (NlriPath ν) := inferInstance

structure Announcement (ν : Type) where
  attrs : PathAttribute
  nlri : List (NlriPath ν)
  deriving DecidableEq, Repr

/-- `BuildUpdate`: an UPDATE to send. -/
structure BuildUpdate (ν : Type) where
  withdrawn : List (NlriPath ν) := []
  announcements : List (Announcement ν) := []
  deriving DecidableEq, Repr

/-- `ParsedUpdate`: an UPDATE received; without attributes it only withdraws. -/
structure ParsedUpdate (ν : Type) where
  withdrawn : List (NlriPath ν) := []
  announcements : List (NlriPath ν) := []
  attrs : Option PathAttribute := none
  deriving DecidableEq, Repr

/-- `PerPeerOutTable`, a multimap: the prefixes sent to a peer. -/
abbrev PerPeerOutTable (ν : Type) := List (NlriPath ν × PathAttribute)

/-- The key of a route in `adjRibIn`: the router id of the peer, the prefix and the path id. -/
structure InKey (ν : Type) where
  peer : UInt32
  path : NlriPath ν
  deriving DecidableEq, Repr

/-! ## Configuration -/

/-- `config::Bgp`, with the AS number and the router id of the process. -/
structure ProcessConfig where
  asNum : UInt32 := 0
  rid : UInt32 := 0
  clusterId : Option UInt32 := none
  confederationIdentifier : Option UInt32 := none
  enforceFirstAs : Bool := true
  maxAsLimit : Option ℕ := none
  maxCommunityLimit : Option ℕ := none
  maxExtCommunityLimit : Option ℕ := none
  deterministicMed : Bool := false
  alwaysCompareMed : Bool := false
  suppressInactive : Bool := false
  clientToClientReflection : Bool := false
  /-- `BGP_UPDATE_DELAY` is set: a new session is sent the Loc-RIB by a timer. -/
  updateDelay : Bool := false

def ProcessConfig.getClusterId (p : ProcessConfig) : UInt32 := p.clusterId.getD p.rid

def ProcessConfig.getConfedId (p : ProcessConfig) : UInt32 := p.confederationIdentifier.getD p.asNum

inductive SlowPeerMode where
  | STATIC
  | DYNAMIC
  | DYNAMIC_PERMANENT
  deriving DecidableEq, Repr

/-- `config::BgpNeighborSession` and `config::BgpNeighbor` of one neighbor. -/
structure NeighborConfig where
  remoteAs : Option UInt32 := none
  isEbgp : Bool := false
  isConfedEbgp : Bool := false
  localAs : Bool := false
  localAsAs : Option UInt32 := none
  localAsDualAs : Bool := false
  localAsReplaceAs : Bool := false
  localAsNoPrepend : Bool := false
  allowAsIn : Bool := false
  allowAsInOccurances : Option UInt8 := none
  weight : Option UInt16 := none
  activate : Bool := false
  advertiseInterval : UInt16 := 30
  routeReflectorClient : Bool := false
  advertiseDiversePathMpath : Bool := false
  nextHopUnchanged : Bool := false
  nextHopSelf : Bool := false
  nextHopSelfAll : Bool := false
  sendCommunity : Bool := false
  sendCommunityBoth : Bool := false
  sendCommunityStandard : Bool := false
  sendCommunityExtended : Bool := false
  removePrivateAs : Bool := false
  removePrivateAsAll : Bool := false
  slowPeerMode : Option SlowPeerMode := none
  slowPeerDetection : Bool := false
  slowPeerDetectionThreshold : UInt16 := 300
  maximumPrefix : Option UInt32 := none
  maximumPrefixThreshold : Option UInt8 := none
  maximumPrefixRestart : Option UInt16 := none
  maximumPrefixWarningOnly : Bool := false

/-- `config::BgpAddressFamily` and its `AF_BASE`; the distances are those of the family (`BGP` or
    `MBGP`), and `distanceRange` is the first range that covers a prefix. -/
structure FamilyConfig (ν : Type) where
  bestPath : BestPathConfig := {}
  maximumPathsEbgp : ℕ := 1
  maximumPathsIbgp : ℕ := 1
  selectBackup : Bool := false
  selectBestExternal : Bool := false
  additionalPathsAll : Bool := false
  additionalPathsBest : Option UInt8 := none
  additionalGroupBest : Bool := false
  dampening : Bool := false
  distanceExternal : UInt8 := 20
  distanceInternal : UInt8 := 200
  distanceLocal : UInt8 := 200
  distanceRange : ν → Option UInt8 := fun _ => none
  defaultMetric : Option UInt32 := none
  recursiveHost : Bool := true
  nextHopTracking : Bool := true

/-- The configuration that an instance reads: the process, the family and the neighbors. -/
structure Config (ν : Type) where
  process : ProcessConfig := {}
  family : FamilyConfig ν := {}
  neighbor : IPAddress → NeighborConfig := fun _ => {}

end VirtualRouter.Bgp
