/-
  The OSPF routing table (`ospf/topology/RoutingTable.cpp`).

  * `isBetterPath`, `selectRoute`: the order of the candidates, and the route for a list of them;
  * `OspfRib.recomputePrefix`, `OspfRib.recompute`: `recomputeLocked`, for a prefix and for a set of prefixes;
  * `OspfRib.replaceArea`, `OspfRib.replaceRoute`, `OspfRib.replaceExternals`, `OspfRib.replaceExternal`,
    `OspfRib.installDiscardRoute`, `OspfRib.withdrawDiscardRoute`,
    `OspfRib.refreshIntraRangeSuppression`: the operations.

  The routing table of the VRF is a map keyed by prefix, source and process id.  A new entry of it is not
  given a process id by the code; `CallEnv` has what is in its memory, and the order in which a set of
  prefixes is visited.
-/
import VirtualRouter.Lib.KeyOrder
import VirtualRouter.Lib.NestedMap
import VirtualRouter.Ospf.TopologyTypes
import VirtualRouter.Routing.RibBucket

namespace VirtualRouter.Ospf

open NestedMap KeyOrder

/-! ## Paths and next hops -/

def deriveOspfType : OspfRouteType → RouteSource
  | .INTRA_AREA => .OSPF_INTRA
  | .INTER_AREA => .OSPF_INTER
  | .EXTERNAL => .OSPF_EXTERNAL
  | .NSSA => .OSPF_NSSA

def isIntraRangeSuppressed (pfx : IPPrefix) (ranges : Finset IPPrefix) : Bool :=
  ∃ r ∈ ranges, r.contains (addPrefixLen pfx.addr pfx.prefixLength) = true

def isBetterPath (a b : OspfPath) : Bool :=
  if a.type ≠ b.type then a.type.toNat < b.type.toNat
  else if a.cost ≠ b.cost then a.cost < b.cost
  else if a.options ≠ b.options then a.options < b.options
  else a.adminDistance < b.adminDistance

/-- The list without the next hops that have the interface of the one before. -/
def uniqueInterface : List OspfNextHop → List OspfNextHop
  | [] => []
  | [a] => [a]
  | a :: b :: l =>
    if a.interfaceId = b.interfaceId then
      match uniqueInterface (b :: l) with
      | [] => [a]
      | _ :: rest => a :: rest
    else a :: uniqueInterface (b :: l)

def addTrafficShare (nhs : List OspfNextHop) (maxPaths : ℕ) (traffMin : Bool) : List OspfNextHop :=
  if nhs.length ≤ 1 then nhs else (if traffMin then uniqueInterface nhs else nhs).take maxPaths

def mergeEcmpNextHops (bestSet : List OspfPath) : List OspfNextHop := dedupe (bestSet.flatMap OspfPath.nextHops)

/-- The route for a prefix with the path `best` of its candidates. -/
def routeOf (pfx : IPPrefix) (best : OspfPath) (canidates : List OspfPath) : OspfRoute where
  pfx := pfx
  type := best.type
  cost := best.cost
  area := best.area
  adminDistance := best.adminDistance
  options := best.options
  suppressed := best.suppressed
  paths := canidates.filter best.same

/-- The route for a list of candidates: that of the first path that no other is better than. -/
def selectRoute (pfx : IPPrefix) : List OspfPath → Option OspfRoute
  | [] => none
  | p :: ps => some (routeOf pfx (bestOf isBetterPath p ps) (p :: ps))

/-! ## The state -/

structure PrefixState where
  canidates : List OspfPath := []
  selected : OspfRoute := {}
  hasSelected : Bool := false

/-- `OspfDiscardKey`; `pfx` is the field `prefix`. -/
structure OspfDiscardKey where
  pfx : IPPrefix
  areaId : Option UInt32
  deriving DecidableEq

/-- A route in the table of the VRF; a next hop is an address with an interface. -/
structure VrfRoute where
  adminDistance : ℕ
  metric : ℕ
  nextHops : List (BitVec 128 × UInt32)
  deriving DecidableEq

/-- `OspfRib`, with the table of the VRF. -/
structure OspfRib where
  prefixStates : Map IPPrefix PrefixState := ∅
  areaIndex : Map UInt32 (Finset IPPrefix) := ∅
  processWide : Finset IPPrefix := ∅
  discardRoutes : Map OspfDiscardKey IPPrefix := ∅
  rib : Map (IPPrefix × RouteSource × ℕ) VrfRoute := ∅

/-- The process: its address family and id, and its configuration. -/
structure RibConfig where
  isV4 : Bool := true
  procId : ℕ := 1
  maximumPaths : ℕ := 4
  trafficShareMin : Bool := false
  lrcInterAreaSummary : Bool := false

/-- What a call finds: the field `processId` of the entry that is allocated for a prefix, the prefixes
    that the table of the VRF covers, and the order of the prefixes of a set. -/
structure CallEnv where
  processId : IPPrefix → ℕ
  globalRibContains : IPPrefix → Bool
  visit : Finset IPPrefix → List IPPrefix
  nodup_visit : ∀ touched, (visit touched).Nodup
  mem_visit : ∀ touched pfx, pfx ∈ visit touched ↔ pfx ∈ touched

def MAX_NEXTHOP : ℕ := 8

/-- `RibEntry::addNextHop`, for an entry whose next hops all have a gateway. -/
def addNextHop (hops : List (BitVec 128 × UInt32)) (hop : BitVec 128 × UInt32) : List (BitVec 128 × UInt32) :=
  if MAX_NEXTHOP ≤ hops.length then hops else if hop ∈ hops then hops else hops ++ [hop]

/-- The entry for the table of the VRF that `recomputeLocked` builds. -/
def vrfRoute (cfg : RibConfig) (next : OspfRoute) : VrfRoute where
  adminDistance := next.adminDistance
  metric := next.cost
  nextHops :=
    let merged := addTrafficShare (mergeEcmpNextHops next.paths) cfg.maximumPaths cfg.trafficShareMin
    (merged.map fun hop =>
      (if cfg.isV4 then (addrV4 hop.nextHop).setWidth 128 else hop.nextHop, hop.interfaceId)).foldl addNextHop []

/-! ## `recomputeLocked` -/

/-- `isIntraEffective` and `isInterEffective`; `ctx` is the area of the context. -/
def isEffective (type : OspfRouteType) (ctx : Option UInt32) (r : OspfRoute) : Bool :=
  if r.type ≠ type then false
  else if ctx.isSome ∧ r.area = ctx then !r.suppressed
  else true

/-- The change of one kind that is recorded in the context, from the old route to the next. -/
def routeChange (type : OspfRouteType) (ctx : Option UInt32) (pfx : IPPrefix) (old next : Option OspfRoute) :
    Option OspfRouteChange :=
  let oldEffective := old.any (isEffective type ctx)
  let newEffective := next.any (isEffective type ctx)
  if ctx.isSome ∧ oldEffective ≠ newEffective then
    match oldEffective, old, next with
    | true, some old, none => some { pfx := old.pfx, options := old.options, cost := old.cost, isRemoval := true }
    | true, some old, some _ => some { pfx, options := old.options, cost := old.cost, isRemoval := true }
    | _, _, some next => some { pfx, options := next.options, cost := next.cost, isRemoval := false }
    | _, _, none => none
  else none

def routeDiffers (old next : OspfRoute) : Bool :=
  !old.same next || !(old.paths.length = next.paths.length && (old.paths.zipWith OspfPath.same next.paths).all id)

/-- What `recomputeLocked` leaves behind for one prefix. -/
structure Recomputed where
  table : OspfRib
  intraChange : Option OspfRouteChange := none
  interChange : Option OspfRouteChange := none

namespace OspfRib

variable (cfg : RibConfig) (env : CallEnv) (s : OspfRib)

def canidatesIn (states : Map IPPrefix PrefixState) (pfx : IPPrefix) : List OspfPath :=
  ((states.lookup pfx).map PrefixState.canidates).getD []

def selectedIn (states : Map IPPrefix PrefixState) (pfx : IPPrefix) : Option OspfRoute :=
  match states.lookup pfx with
  | some st => if st.hasSelected then some st.selected else none
  | none => none

def lookup (pfx : IPPrefix) : Option OspfRoute := selectedIn s.prefixStates pfx

def canidatesAt (pfx : IPPrefix) : List OspfPath := canidatesIn s.prefixStates pfx

/-- `rib.removeRoute`. -/
def removeRoute (pfx : IPPrefix) (old : OspfRoute) : OspfRib :=
  { s with rib := s.rib.erase (pfx, deriveOspfType old.type, cfg.procId) }

/-- `rib.addRoute`; the process id of the entry is what is in its memory. -/
def addRoute (pfx : IPPrefix) (next : OspfRoute) : OspfRib :=
  { s with rib := s.rib.insert (pfx, deriveOspfType next.type, env.processId pfx) (vrfRoute cfg next) }

/-- The table of the VRF is brought up to date. -/
def syncRoute (pfx : IPPrefix) (old : Option OspfRoute) (next : OspfRoute) : OspfRib :=
  match old with
  | none => s.addRoute cfg env pfx next
  | some old => if routeDiffers old next then (s.removeRoute cfg pfx old).addRoute cfg env pfx next else s

/-- `recomputeLocked` for a prefix; the context is that of an area. -/
def recomputePrefix (pfx : IPPrefix) (ctx : Option UInt32) : Recomputed :=
  match s.prefixStates.lookup pfx with
  | none => { table := s }
  | some st =>
    let old := s.lookup pfx
    let next := selectRoute pfx st.canidates
    let intraChange := routeChange .INTRA_AREA ctx pfx old next
    let interChange := routeChange .INTER_AREA ctx pfx old next
    match next with
    | none =>
      let s := match old with
        | none => s
        | some old => s.removeRoute cfg pfx old
      { table := { s with prefixStates := s.prefixStates.erase pfx }, intraChange, interChange }
    | some next =>
      let s := s.syncRoute cfg env pfx old next
      { table := { s with prefixStates := s.prefixStates.insert pfx { st with selected := next, hasSelected := true } }
        intraChange, interChange }

def validateInterAreaSummaryEligibility (pfx : IPPrefix) : Bool :=
  if cfg.lrcInterAreaSummary then (s.lookup pfx).isSome else env.globalRibContains pfx

/-- The body of the loop of `recomputeLocked` for a set, in an area. -/
def recomputeStep (areaId : UInt32) (r : OspfRib × List OspfRouteChange) (pfx : IPPrefix) :
    OspfRib × List OspfRouteChange :=
  let out := r.1.recomputePrefix cfg env pfx (some areaId)
  let intra := if out.table.validateInterAreaSummaryEligibility cfg env pfx then out.intraChange.toList else []
  (out.table, r.2 ++ intra ++ out.interChange.toList)

/-- `recomputeLocked` for a set of prefixes of an area. -/
def recompute (touched : Finset IPPrefix) (areaId : UInt32) : OspfRib × List OspfRouteChange :=
  (env.visit touched).foldl (recomputeStep cfg env areaId) (s, [])

def recomputeWide (touched : Finset IPPrefix) : OspfRib :=
  (env.visit touched).foldl (fun s pfx => (s.recomputePrefix cfg env pfx none).table) s

/-! ## The operations -/

/-- The candidates with `p` are taken from the prefixes of `index`. -/
def removeCanidates (states : Map IPPrefix PrefixState) (index : Finset IPPrefix) (p : OspfPath → Bool) :
    Map IPPrefix PrefixState :=
  mapVal states fun pfx st =>
    if pfx ∈ index then { st with canidates := st.canidates.filter fun path => !p path } else st

/-- `prefixStates[pfx].canidates.push_back(path)`. -/
def pushCanidate (states : Map IPPrefix PrefixState) (e : IPPrefix × OspfPath) : Map IPPrefix PrefixState :=
  let st := (states.lookup e.1).getD {}
  states.insert e.1 { st with canidates := st.canidates ++ [e.2] }

def isAreaPath (areaId : UInt32) (p : OspfPath) : Bool := p.area = some areaId && !p.discard

def isWidePath (p : OspfPath) : Bool := p.area = none && !p.discard

def known (index : Finset IPPrefix) : Finset IPPrefix := index.filter fun pfx => (s.prefixStates.lookup pfx).isSome

/-- A path that an area gives, with the suppression by the ranges of the area. -/
def stampPath (areaId : UInt32) (ranges : Finset IPPrefix) (e : IPPrefix × OspfPath) : IPPrefix × OspfPath :=
  if e.2.type = .INTRA_AREA ∧ e.2.area = some areaId then
    (e.1, { e.2 with suppressed := isIntraRangeSuppressed e.1 ranges })
  else e

/-- `replaceArea`, up to the recomputation; `ranges` are those of the area. -/
def replaceAreaEdit (areaId : UInt32) (ranges : Finset IPPrefix) (paths : List (IPPrefix × OspfPath)) : OspfRib :=
  let index := (paths.map Prod.fst).toFinset
  { s with
    prefixStates := (paths.map (stampPath areaId ranges)).foldl pushCanidate
      (removeCanidates s.prefixStates (groupOf s.areaIndex areaId) (isAreaPath areaId))
    areaIndex := if index = ∅ then s.areaIndex.erase areaId else s.areaIndex.insert areaId index }

def replaceArea (areaId : UInt32) (ranges : Finset IPPrefix) (paths : List (IPPrefix × OspfPath)) :
    OspfRib × List OspfRouteChange :=
  (s.replaceAreaEdit areaId ranges paths).recompute cfg env
    (s.known (groupOf s.areaIndex areaId) ∪ (paths.map Prod.fst).toFinset) areaId

/-- `replaceRoute`, up to the recomputation.  It takes away the paths of no area, and the path goes in
    as it is given: the copy that is stamped is not used. -/
def replaceRouteEdit (areaId : UInt32) (pfx : IPPrefix) (path : Option OspfPath) : OspfRib :=
  let states := removeCanidates s.prefixStates {pfx} isWidePath
  let index := if pfx ∈ s.known {pfx} then eraseFrom s.areaIndex areaId pfx else s.areaIndex
  match path with
  | some path => { s with prefixStates := pushCanidate states (pfx, path), areaIndex := insertInto index areaId pfx }
  | none =>
    { s with
      prefixStates := states
      areaIndex := if groupOf index areaId = ∅ then index.erase areaId else index }

def replaceRoute (areaId : UInt32) (pfx : IPPrefix) (path : Option OspfPath) : OspfRib × List OspfRouteChange :=
  let out := (s.replaceRouteEdit areaId pfx path).recomputePrefix cfg env pfx (some areaId)
  (out.table, out.intraChange.toList ++ out.interChange.toList)

/-- `replaceExternals`, up to the recomputation. -/
def replaceExternalsEdit (paths : List (IPPrefix × OspfPath)) : OspfRib :=
  { s with
    prefixStates := paths.foldl pushCanidate (removeCanidates s.prefixStates s.processWide isWidePath)
    processWide := s.processWide ∪ (paths.map Prod.fst).toFinset }

def replaceExternals (paths : List (IPPrefix × OspfPath)) : OspfRib :=
  (s.replaceExternalsEdit paths).recomputeWide cfg env (s.known s.processWide ∪ (paths.map Prod.fst).toFinset)

/-- `replaceExternal`, up to the recomputation. -/
def replaceExternalEdit (pfx : IPPrefix) (path : Option OspfPath) : OspfRib :=
  let states := removeCanidates s.prefixStates {pfx} isWidePath
  let wide := s.processWide \ s.known {pfx}
  match path with
  | some path => { s with prefixStates := pushCanidate states (pfx, path), processWide := insert pfx wide }
  | none => { s with prefixStates := states, processWide := wide }

def replaceExternal (pfx : IPPrefix) (path : Option OspfPath) : OspfRib :=
  ((s.replaceExternalEdit pfx path).recomputePrefix cfg env pfx none).table

def discardType (key : OspfDiscardKey) : OspfRouteType := if key.areaId.isSome then .INTER_AREA else .EXTERNAL

def isDiscardPath (key : OspfDiscardKey) (p : OspfPath) : Bool :=
  p.area = key.areaId && p.type = discardType key && p.discard

def discardPath (key : OspfDiscardKey) (cost ad : ℕ) : OspfPath where
  type := discardType key
  area := key.areaId
  cost := cost
  adminDistance := ad
  discard := true

/-- The first discard route of the key gets the cost and the distance; if there is none, it is put in. -/
def setDiscard (key : OspfDiscardKey) (cost ad : ℕ) : List OspfPath → List OspfPath
  | [] => [discardPath key cost ad]
  | p :: l =>
    if isDiscardPath key p then { p with cost := cost, adminDistance := ad } :: l else p :: setDiscard key cost ad l

/-- `installDiscardRoute`, up to the recomputation. -/
def installDiscardEdit (key : OspfDiscardKey) (cost ad : ℕ) : OspfRib :=
  let st := (s.prefixStates.lookup key.pfx).getD {}
  { s with
    prefixStates := s.prefixStates.insert key.pfx { st with canidates := setDiscard key cost ad st.canidates }
    discardRoutes := s.discardRoutes.insert key key.pfx }

def installDiscardRoute (key : OspfDiscardKey) (cost ad : ℕ) : OspfRib :=
  ((s.installDiscardEdit key cost ad).recomputePrefix cfg env key.pfx none).table

/-- `withdrawDiscardRoute`, up to the recomputation. -/
def withdrawDiscardEdit (key : OspfDiscardKey) : OspfRib :=
  { s with
    prefixStates := removeCanidates s.prefixStates {key.pfx} (isDiscardPath key)
    discardRoutes := s.discardRoutes.erase key }

def withdrawDiscardRoute (key : OspfDiscardKey) : OspfRib :=
  ((s.withdrawDiscardEdit key).recomputePrefix cfg env key.pfx none).table

def isIntraOf (areaId : UInt32) (p : OspfPath) : Bool := p.type = .INTRA_AREA && p.area = some areaId

def restampPath (areaId : UInt32) (ranges : Finset IPPrefix) (pfx : IPPrefix) (p : OspfPath) : OspfPath :=
  if isIntraOf areaId p then { p with suppressed := isIntraRangeSuppressed pfx ranges } else p

/-- `refreshIntraRangeSuppression`, up to the recomputation. -/
def refreshEdit (areaId : UInt32) (ranges : Finset IPPrefix) : OspfRib :=
  { s with
    prefixStates := mapVal s.prefixStates fun pfx st =>
      if pfx ∈ groupOf s.areaIndex areaId then
        { st with canidates := st.canidates.map (restampPath areaId ranges pfx) }
      else st }

/-- The prefixes that have an intra-area path of the area whose suppression changes. -/
def refreshTouched (areaId : UInt32) (ranges : Finset IPPrefix) : Finset IPPrefix :=
  (groupOf s.areaIndex areaId).filter fun pfx =>
    (s.canidatesAt pfx).any fun p => isIntraOf areaId p && p.suppressed ≠ isIntraRangeSuppressed pfx ranges

def refreshIntraRangeSuppression (areaId : UInt32) (ranges : Finset IPPrefix) : OspfRib × List OspfRouteChange :=
  (s.refreshEdit areaId ranges).recompute cfg env (s.refreshTouched areaId ranges) areaId

end OspfRib

end VirtualRouter.Ospf
