/-
  The way out of an address family (`routing/bgp/af/AddressFamilyInstance.h`):
  the egress policy and `recomputeAdjRibOut`, with everything that it reads and
  writes per peer.

  What the code does not decide itself comes from an `Oracle`, one for each call
  from outside: the order in which hash tables are iterated, the addresses of
  new route objects, the clock, the IGP metrics, the backlog of a connection,
  and what the parts of the instance that are not modelled answer (dampening,
  aggregates, outbound route filters).

  `sent` records the UPDATEs handed to `sendUpdate` on the session of a
  neighbor.  A route of Adj-RIB-Out holds its attributes by value, so that two
  path ids are equal iff their attributes are.

  * `viewAfter`: what a peer holds after a list of UPDATEs;
  * `InStep`: one peer's table and the UPDATEs sent to it change together;
  * `advertiseTo_inStep`: so it is in every branch of `recomputeAdjRibOut`.
-/
import VirtualRouter.Bgp.RibTypes
import VirtualRouter.Lib.EntryTable

namespace VirtualRouter.Bgp

open EntryTable

/-- What one call from outside finds in its environment. -/
structure Oracle (ν : Type) where
  /-- The order in which a hash table is iterated. -/
  order : {α : Type} → List α → List α
  order_perm : ∀ {α : Type} (l : List α), (order l).Perm l
  /-- The address of a new object, none of those in use. -/
  alloc : List ℕ → ℕ
  alloc_fresh : ∀ l, alloc l ∉ l
  /-- The clock, in nanoseconds. -/
  now : ℤ
  igpMetricResolver : IPAddress → UInt64
  /-- `rib.lookup` of a next hop: the length of the entry and its first interface. -/
  ribLookup : IPAddress → Option (ℕ × ℕ)
  pendingTxBytes : IPAddress → ℕ
  /-- `DampenState::onAnnounce` holds a newly reachable prefix back. -/
  suppresses : ν → Bool
  aggregateSuppressed : ν → Bool
  /-- The filter received from a neighbor is empty or passes the prefix. -/
  passesOrfFilter : IPAddress → ν → Bool
  /-- What is read as the router id of the source neighbor of a local route, a null pointer. -/
  nullRid : UInt32

/-! ## Egress policy -/

/-- `getAsSegment` and `getConfedAsSegment`, with the AS numbers put in front of the segment. -/
def prependAs (type : UInt8) (asns : List UInt32) : List AsPathSegment → List AsPathSegment
  | [] => [⟨type, asns⟩]
  | seg :: rest =>
    if seg.segmentType = type then ⟨type, asns ++ seg.asns⟩ :: rest
    else ⟨type, asns⟩ :: seg :: rest

/-- The AS numbers that an external session puts in front of the path. -/
def egressAsns (p : ProcessConfig) (n : NeighborConfig) : List UInt32 :=
  match n.localAsAs with
  | none => [p.getConfedId]
  | some localAs =>
    if !n.localAs then [p.getConfedId]
    else if n.localAsReplaceAs then [localAs]
    else if n.localAsNoPrepend then [p.getConfedId]
    else [localAs, p.getConfedId]

/-- `applyGroupEgressPolicy`; every route has path attributes. -/
def applyGroupEgressPolicy (p : ProcessConfig) (n : NeighborConfig) (route : InboundRoute) :
    PathAttribute :=
  let pa := route.attrs
  if n.isEbgp then
    let asPath := pa.attrs.asPath.filter fun s =>
      s.segmentType ≠ BGP_AS_CONFED_SEQUENCE ∧ s.segmentType ≠ BGP_AS_CONFED_SET
    { pa with
      attrs :=
        { pa.attrs with
          localPref := none, originatorId := none, clusterList := []
          asPath := prependAs BGP_AS_SEQUENCE (egressAsns p n) asPath } }
  else if n.isConfedEbgp then
    { pa with
      attrs := { pa.attrs with
        asPath := prependAs BGP_AS_CONFED_SEQUENCE [p.asNum] pa.attrs.asPath } }
  else pa

def isPrivateAs (asn : UInt32) : Bool :=
  (64512 ≤ asn && asn ≤ 65534) || (4200000000 ≤ asn && asn ≤ 4294967294)

/-- `REMOVE_PRIVATE_AS`: private numbers go, and then the segments left empty. -/
def removePrivateAs (asPath : List AsPathSegment) : List AsPathSegment :=
  (asPath.map fun s => { s with asns := s.asns.filter fun a => !isPrivateAs a }).filter
    fun s => !s.asns.isEmpty

/-- The router id read of the source neighbor of a route. -/
def sourceRid (nullRid : UInt32) (route : InboundRoute) : UInt32 :=
  (route.sourceNeighbor.map (·.rid)).getD nullRid

/-- `applyMemberNexthop`, for a neighbor at `addr` whose session has the local address `loc`. -/
def applyMemberNexthop (p : ProcessConfig) (n : NeighborConfig) (nullRid : UInt32)
    (addr loc : IPAddress) (route : InboundRoute) (pa : PathAttribute) : PathAttribute :=
  if n.isEbgp then
    let nextHop := if !n.nextHopUnchanged || n.nextHopSelfAll then addr else pa.path.nextHop
    let sendStd := n.sendCommunity || n.sendCommunityBoth || n.sendCommunityStandard
    let sendExt := n.sendCommunityExtended || n.sendCommunityBoth
    { pa with
      path := { pa.path with nextHop := nextHop }
      attrs :=
        { pa.attrs with
          communities := if sendStd then pa.attrs.communities else []
          extendedCommunities := if sendExt then pa.attrs.extendedCommunities else []
          largeCommunities := if sendStd || sendExt then pa.attrs.largeCommunities else []
          asPath := if n.removePrivateAs || n.removePrivateAsAll then removePrivateAs pa.attrs.asPath
            else pa.attrs.asPath } }
  else if (n.nextHopSelf && sourceRid nullRid route != p.rid) || n.nextHopSelfAll then
    { pa with path := { pa.path with nextHop := loc } }
  else pa

def reflect (p : ProcessConfig) (nullRid : UInt32) (route : InboundRoute) (pa : PathAttribute) :
    PathAttribute :=
  { pa with
    attrs :=
      { pa.attrs with
        originatorId := some (pa.attrs.originatorId.getD (sourceRid nullRid route))
        clusterList := p.getClusterId :: pa.attrs.clusterList } }

/-! ## Per-peer state -/

/-- What is read of an established session; an OPEN with the router id 0 is refused. -/
structure PeerSession where
  peerRid : UInt32
  peerRid_ne : peerRid ≠ 0 := by decide
  /-- The family was negotiated. -/
  active : Bool := true
  addPathSend : Bool := false
  localAddress : IPAddress := {}
  deriving DecidableEq, Repr

/-- `MraiState`; a running timer is known by its id alone. -/
structure MraiState (ν : Type) where
  lastSent : ℤ := 0
  pending : List ν := []
  timer : Bool := false

structure SlowPeer where
  isSlowPeer : Bool := false
  slowFirstSeen : ℤ := 0

/-- What `recomputeAdjRibOut` writes: tables by router id, messages by neighbor. -/
structure OutState (ν : Type) where
  adjRibOut : UInt32 → PerPeerOutTable ν := fun _ => []
  sent : IPAddress → List (BuildUpdate ν) := fun _ => []
  mraiState : UInt32 → MraiState ν := fun _ => {}
  slowPeer : IPAddress → SlowPeer := fun _ => {}
  mraiBypassPeer : UInt32 := 0

/-! ## The paths to advertise -/

/-- `tryAdd`: a route is added once. -/
def tryAdd (acc : List InboundRoute) (r : InboundRoute) : List InboundRoute :=
  if acc.any (·.addr = r.addr) then acc else acc ++ [r]

/-- The first `n` routes of the pool. -/
def takeBest (n : UInt8) : List InboundRoute → List InboundRoute → List InboundRoute
  | [], acc => acc
  | r :: pool, acc => if acc.length ≥ n.toNat then acc else takeBest n pool (tryAdd acc r)

/-- The first route of the pool for each AS not seen. -/
def groupBest : List UInt32 → List InboundRoute → List InboundRoute → List InboundRoute
  | _, [], acc => acc
  | seen, r :: pool, acc =>
    if r.peerAs ∈ seen then groupBest seen pool acc
    else groupBest (r.peerAs :: seen) pool (tryAdd acc r)

/-- The routes of the pool that the configuration selects, `seen` being the AS numbers that the
    group selection starts with. -/
def selectAdditional {ν : Type} (f : FamilyConfig ν) (seen : List InboundRoute → List UInt32)
    (pool : List InboundRoute) : List InboundRoute :=
  let acc := match f.additionalPathsBest with
    | some n => takeBest n pool []
    | none => []
  let acc := if f.selectBackup then (pool.take 1).foldl tryAdd acc else acc
  let acc := if f.selectBestExternal then ((pool.filter (·.ebgp)).take 1).foldl tryAdd acc else acc
  if f.additionalGroupBest then groupBest (seen acc) pool acc else acc

def egressPaths {ν : Type} (f : FamilyConfig ν) (n : NeighborConfig) (addPathSend : Bool)
    (best : LocalRoute) : List InboundRoute :=
  if addPathSend then
    let paths := best.route :: if n.advertiseDiversePathMpath then best.multipaths else []
    if f.additionalPathsAll then paths ++ best.additionalPaths
    else paths ++ selectAdditional f (fun acc => (paths ++ acc).map (·.peerAs)) best.additionalPaths
  else [best.route]

/-! ## `recomputeAdjRibOut` -/

section Peer
variable {ν : Type}

namespace OutState

def sendUpdate (out : OutState ν) (addr : IPAddress) (u : BuildUpdate ν) : OutState ν :=
  { out with sent := Function.update out.sent addr (out.sent addr ++ [u]) }

def setOut (out : OutState ν) (rid : UInt32) (t : PerPeerOutTable ν) : OutState ν :=
  { out with adjRibOut := Function.update out.adjRibOut rid t }

def setMrai (out : OutState ν) (rid : UInt32) (m : MraiState ν) : OutState ν :=
  { out with mraiState := Function.update out.mraiState rid m }

def setSlow (out : OutState ν) (addr : IPAddress) (sp : SlowPeer) : OutState ν :=
  { out with slowPeer := Function.update out.slowPeer addr sp }

section Fields
variable (out : OutState ν) (addr : IPAddress) (rid : UInt32)

@[simp] theorem sendUpdate_sent (u : BuildUpdate ν) :
    (out.sendUpdate addr u).sent = Function.update out.sent addr (out.sent addr ++ [u]) := rfl

@[simp] theorem sendUpdate_adjRibOut (u : BuildUpdate ν) :
    (out.sendUpdate addr u).adjRibOut = out.adjRibOut := rfl

@[simp] theorem setOut_adjRibOut (t : PerPeerOutTable ν) :
    (out.setOut rid t).adjRibOut = Function.update out.adjRibOut rid t := rfl

@[simp] theorem setOut_sent (t : PerPeerOutTable ν) : (out.setOut rid t).sent = out.sent := rfl

@[simp] theorem setMrai_adjRibOut (m : MraiState ν) :
    (out.setMrai rid m).adjRibOut = out.adjRibOut := rfl

@[simp] theorem setMrai_sent (m : MraiState ν) : (out.setMrai rid m).sent = out.sent := rfl

@[simp] theorem setSlow_adjRibOut (sp : SlowPeer) :
    (out.setSlow addr sp).adjRibOut = out.adjRibOut := rfl

@[simp] theorem setSlow_sent (sp : SlowPeer) : (out.setSlow addr sp).sent = out.sent := rfl

end Fields

variable [DecidableEq ν]

def withdrawFromPeer (out : OutState ν) (addr : IPAddress) (rid : UInt32) (nlri : ν) : OutState ν :=
  let gone := (out.adjRibOut rid).filter fun e => e.1.nlri = nlri
  if gone.isEmpty then out
  else (out.setOut rid ((out.adjRibOut rid).filter fun e => e.1.nlri ≠ nlri)).sendUpdate addr
    { withdrawn := gone.map (·.1) }

/-- The prefix waits for the timer of the peer. -/
def defer (out : OutState ν) (rid : UInt32) (nlri : ν) : OutState ν :=
  let ms := out.mraiState rid
  out.setMrai rid { ms with pending := ms.pending.insert nlri, timer := true }

end OutState

variable [DecidableEq ν]

/-- Whole seconds between two times of the clock. -/
def elapsedSecs (now since : ℤ) : ℤ := (now - since).tdiv 1000000000

/-- The rate limit of a peer and the deferral of a slow one: the state after them, and whether the
    prefix waits. -/
def rateLimit (n : NeighborConfig) (o : Oracle ν) (nlri : ν) (out : OutState ν) (addr : IPAddress)
    (rid : UInt32) : OutState ν × Bool :=
  if rid = out.mraiBypassPeer then (out, false)
  else if n.advertiseInterval > 0 ∧
      elapsedSecs o.now (out.mraiState rid).lastSent < n.advertiseInterval.toNat then
    (out.defer rid nlri, true)
  else if n.slowPeerMode = some .STATIC then (out.defer rid nlri, true)
  else if (out.slowPeer addr).isSlowPeer then
    if o.pendingTxBytes addr > 0 then (out.defer rid nlri, true)
    else if n.slowPeerMode = some .DYNAMIC_PERMANENT then (out, false)
    else (out.setSlow addr {}, false)
  else (out, false)

/-- The checks between internal peers: `none` if the route must not go to the neighbor at `addr`,
    else whether it is reflected. -/
def reflection (cfg : Config ν) (addr : IPAddress) (best : LocalRoute) : Option Bool :=
  let n := cfg.neighbor addr
  let fromIbgp := !best.route.ebgp && !best.route.confedEbgp
  let toIbgp := !n.isEbgp && !n.isConfedEbgp
  match best.route.sourceNeighbor with
  | none => some false
  | some source =>
    let senderIsClient := (cfg.neighbor source.neighborAddress).routeReflectorClient
    if !(fromIbgp && toIbgp) then some false
    else if !senderIsClient && !n.routeReflectorClient then none
    else if source.neighborAddress = addr then none
    else if senderIsClient && n.routeReflectorClient &&
        !cfg.process.clientToClientReflection then none
    else some true

def egressAttrs (cfg : Config ν) (o : Oracle ν) (addr : IPAddress) (ses : PeerSession)
    (isReflecting : Bool) (route : InboundRoute) : PathAttribute :=
  let n := cfg.neighbor addr
  let pa := applyMemberNexthop cfg.process n o.nullRid addr ses.localAddress route
    (applyGroupEgressPolicy cfg.process n route)
  if isReflecting then reflect cfg.process o.nullRid route pa else pa

def egressPathId (ses : PeerSession) (route : InboundRoute) : UInt32 :=
  if ses.addPathSend then sourceRid 0 route else 0

/-- One round of the loop over the paths: an entry with the same attributes stays as it is. -/
def announcePath (nlri : ν) (pathId : InboundRoute → UInt32)
    (attrs : InboundRoute → PathAttribute) (acc : PerPeerOutTable ν × List (Announcement ν))
    (route : InboundRoute) : PerPeerOutTable ν × List (Announcement ν) :=
  let key : NlriPath ν := ⟨nlri, pathId route⟩
  let pa := attrs route
  if (acc.1.find? fun e => e.1 = key).any (·.2 = pa) then acc
  else ((key, pa) :: acc.1.eraseP fun e => e.1 = key, acc.2 ++ [⟨pa, [key]⟩])

/-- An entry of an ADD-PATH peer whose source is not among the paths. -/
def inactivePath (ses : PeerSession) (nlri : ν) (paths : List InboundRoute) (key : NlriPath ν) :
    Bool :=
  ses.addPathSend && decide (key.nlri = nlri) &&
    !paths.any fun r => r.sourceNeighbor.any (·.rid = key.pathId)

def detectSlow (n : NeighborConfig) (o : Oracle ν) (addr : IPAddress) (sp : SlowPeer) : SlowPeer :=
  if sp.isSlowPeer || !n.slowPeerDetection then sp
  else if o.pendingTxBytes addr > 0 then
    let firstSeen := if sp.slowFirstSeen = 0 then o.now else sp.slowFirstSeen
    ⟨n.slowPeerDetectionThreshold.toNat ≤ elapsedSecs o.now firstSeen, firstSeen⟩
  else { sp with slowFirstSeen := 0 }

/-- What a neighbor is sent for a prefix that passed the checks, and its table then. -/
def egressUpdate (cfg : Config ν) (o : Oracle ν) (nlri : ν) (best : LocalRoute) (isReflecting : Bool)
    (addr : IPAddress) (ses : PeerSession) (peerOut : PerPeerOutTable ν) :
    PerPeerOutTable ν × BuildUpdate ν :=
  let paths := egressPaths cfg.family (cfg.neighbor addr) ses.addPathSend best
  let r := paths.foldl
    (announcePath nlri (egressPathId ses) (egressAttrs cfg o addr ses isReflecting))
    (peerOut.filter fun e => !inactivePath ses nlri paths e.1, [])
  (r.1, ⟨(peerOut.filter fun e => inactivePath ses nlri paths e.1).map (·.1), r.2⟩)

/-- The part of `recomputeAdjRibOut` behind the checks. -/
def announceTo (cfg : Config ν) (o : Oracle ν) (nlri : ν) (best : LocalRoute) (isReflecting : Bool)
    (out : OutState ν) (addr : IPAddress) (ses : PeerSession) : OutState ν :=
  let r := egressUpdate cfg o nlri best isReflecting addr ses (out.adjRibOut ses.peerRid)
  let out := out.setOut ses.peerRid r.1
  let out := if r.2.announcements.isEmpty && r.2.withdrawn.isEmpty then out
    else out.sendUpdate addr r.2
  let ms := out.mraiState ses.peerRid
  let out := if r.2.announcements.isEmpty then out
    else out.setMrai ses.peerRid { ms with lastSent := o.now, pending := ms.pending.erase nlri }
  out.setSlow addr (detectSlow (cfg.neighbor addr) o addr (out.slowPeer addr))

/-- The body of `recomputeAdjRibOut` for one established neighbor; `inactive` are the next hops
    tracked as unreachable. -/
def advertiseTo (cfg : Config ν) (o : Oracle ν) (inactive : IPAddress → Bool) (nlri : ν)
    (best : Option LocalRoute) (out : OutState ν) (addr : IPAddress) (ses : PeerSession) :
    OutState ν :=
  match best with
  | none => out.withdrawFromPeer addr ses.peerRid nlri
  | some best =>
    if cfg.process.suppressInactive && best.route.sourceNeighbor.isSome &&
        inactive best.route.attrs.path.nextHop then
      out.withdrawFromPeer addr ses.peerRid nlri
    else
      match rateLimit (cfg.neighbor addr) o nlri out addr ses.peerRid with
      | (out, true) => out
      | (out, false) =>
        if !ses.active then out.withdrawFromPeer addr ses.peerRid nlri
        else
          match reflection cfg addr best with
          | none => out.withdrawFromPeer addr ses.peerRid nlri
          | some isReflecting =>
            if !(cfg.neighbor addr).activate || o.aggregateSuppressed nlri ||
                !o.passesOrfFilter addr nlri then
              out.withdrawFromPeer addr ses.peerRid nlri
            else announceTo cfg o nlri best isReflecting out addr ses

/-! ## What a peer holds -/

def announced (view : NlriPath ν → Option PathAttribute) (anns : List (Announcement ν)) :
    NlriPath ν → Option PathAttribute :=
  anns.foldl (fun v a => a.nlri.foldl (fun v k => Function.update v k (some a.attrs)) v) view

/-- What a peer makes of an UPDATE: first the withdrawals, then the announcements. -/
def applyUpdate (view : NlriPath ν → Option PathAttribute) (u : BuildUpdate ν) :
    NlriPath ν → Option PathAttribute :=
  announced (without view u.withdrawn) u.announcements

/-- What a peer holds after the UPDATEs `us`. -/
def viewAfter (us : List (BuildUpdate ν)) : NlriPath ν → Option PathAttribute :=
  us.foldl applyUpdate fun _ => none

/-- From `out` to `out'` only what belongs to one peer changed: its table in step with the UPDATEs
    sent to it, and there only the entries of `nlri`. -/
structure InStep (nlri : ν) (addr : IPAddress) (rid : UInt32) (out out' : OutState ν) : Prop where
  sent_other : ∀ a ≠ addr, out'.sent a = out.sent a
  table_other : ∀ r ≠ rid, out'.adjRibOut r = out.adjRibOut r
  entries : ∀ e : NlriPath ν × PathAttribute, e.1.nlri ≠ nlri →
    (e ∈ out'.adjRibOut rid ↔ e ∈ out.adjRibOut rid)
  mirrors : ∃ us, out'.sent addr = out.sent addr ++ us ∧
    ∀ view, Represents (out.adjRibOut rid) view →
      Represents (out'.adjRibOut rid) (us.foldl applyUpdate view)

section InStep
variable {nlri : ν} {addr : IPAddress} {rid : UInt32} {out out' out'' : OutState ν}

theorem InStep.of_eq (ht : out'.adjRibOut = out.adjRibOut) (hs : out'.sent = out.sent) :
    InStep nlri addr rid out out' where
  sent_other a _ := congrFun hs a
  table_other r _ := congrFun ht r
  entries e _ := by rw [ht]
  mirrors := ⟨[], by simp [hs], fun view h => by rw [ht]; exact h⟩

theorem InStep.trans (h₁ : InStep nlri addr rid out out') (h₂ : InStep nlri addr rid out' out'') :
    InStep nlri addr rid out out'' where
  sent_other a ha := (h₂.sent_other a ha).trans (h₁.sent_other a ha)
  table_other r hr := (h₂.table_other r hr).trans (h₁.table_other r hr)
  entries e he := (h₂.entries e he).trans (h₁.entries e he)
  mirrors := by
    obtain ⟨us₁, hs₁, hm₁⟩ := h₁.mirrors
    obtain ⟨us₂, hs₂, hm₂⟩ := h₂.mirrors
    refine ⟨us₁ ++ us₂, by rw [hs₂, hs₁, List.append_assoc], fun view h => ?_⟩
    rw [List.foldl_append]
    exact hm₂ _ (hm₁ _ h)

theorem InStep.of_send {u : BuildUpdate ν} {t : PerPeerOutTable ν}
    (hs : out'.sent = (out.sendUpdate addr u).sent) (ht : out'.adjRibOut = (out.setOut rid t).adjRibOut)
    (hentries : ∀ e : NlriPath ν × PathAttribute, e.1.nlri ≠ nlri → (e ∈ t ↔ e ∈ out.adjRibOut rid))
    (hmirrors : ∀ view, Represents (out.adjRibOut rid) view → Represents t (applyUpdate view u)) :
    InStep nlri addr rid out out' where
  sent_other a ha := by rw [hs]; exact Function.update_of_ne ha ..
  table_other r hr := by rw [ht]; exact Function.update_of_ne hr ..
  entries e he := by
    rw [ht, OutState.setOut_adjRibOut, Function.update_self]
    exact hentries e he
  mirrors := by
    refine ⟨[u], ?_, fun view h => ?_⟩
    · rw [hs, OutState.sendUpdate_sent, Function.update_self]
    · rw [ht, OutState.setOut_adjRibOut, Function.update_self]
      exact hmirrors view h

theorem withdrawFromPeer_inStep : InStep nlri addr rid out (out.withdrawFromPeer addr rid nlri) := by
  simp only [OutState.withdrawFromPeer]
  split_ifs with hgone
  · exact .of_eq rfl rfl
  · refine .of_send rfl rfl (fun e he => by simp [List.mem_filter, he]) fun view h => ?_
    simpa only [decide_not, applyUpdate, announced, List.foldl_nil] using
      h.removeKeys fun k => decide (k.nlri = nlri)

theorem mem_withdrawFromPeer {e : NlriPath ν × PathAttribute}
    (he : e ∈ (out.withdrawFromPeer addr rid nlri).adjRibOut rid) : e.1.nlri ≠ nlri := by
  simp only [OutState.withdrawFromPeer] at he
  split_ifs at he with hgone
  · intro hn
    have : e ∈ (out.adjRibOut rid).filter fun e => e.1.nlri = nlri := List.mem_filter.2 ⟨he, by simpa⟩
    rw [List.isEmpty_iff.1 hgone] at this
    cases this
  · have he : e ∈ (out.adjRibOut rid).filter fun e => e.1.nlri ≠ nlri := by
      simpa only [OutState.sendUpdate_adjRibOut, OutState.setOut_adjRibOut, Function.update_self]
        using he
    simpa using (List.mem_filter.1 he).2

theorem rateLimit_inStep (n : NeighborConfig) (o : Oracle ν) :
    InStep nlri addr rid out (rateLimit n o nlri out addr rid).1 := by
  unfold rateLimit
  split_ifs <;> exact .of_eq rfl rfl

/-! ### The announcements -/

theorem announced_concat (view : NlriPath ν → Option PathAttribute) (anns : List (Announcement ν))
    (pa : PathAttribute) (key : NlriPath ν) :
    announced view (anns ++ [⟨pa, [key]⟩]) =
      Function.update (announced view anns) key (some pa) := by
  simp [announced, List.foldl_append]

section Announce
variable (pathId : InboundRoute → UInt32) (attrs : InboundRoute → PathAttribute)

theorem announcePath_represents {view : NlriPath ν → Option PathAttribute}
    {acc : PerPeerOutTable ν × List (Announcement ν)} (h : Represents acc.1 (announced view acc.2))
    (route : InboundRoute) :
    Represents (announcePath nlri pathId attrs acc route).1
      (announced view (announcePath nlri pathId attrs acc route).2) := by
  simp only [announcePath]
  split_ifs with hsame
  · exact h
  · rw [announced_concat]
    exact h.replace _ _

theorem mem_announcePath {acc : PerPeerOutTable ν × List (Announcement ν)}
    {e : NlriPath ν × PathAttribute} (he : e.1.nlri ≠ nlri) (route : InboundRoute) :
    e ∈ (announcePath nlri pathId attrs acc route).1 ↔ e ∈ acc.1 := by
  simp only [announcePath]
  have hkey : e.1 ≠ ⟨nlri, pathId route⟩ := fun h => he (congrArg NlriPath.nlri h)
  split_ifs with hsame
  · exact Iff.rfl
  · rw [List.mem_cons, List.mem_eraseP_of_neg (by simpa using hkey)]
    exact ⟨fun h => h.resolve_left fun h => hkey (congrArg Prod.fst h), Or.inr⟩

theorem foldl_announcePath_represents {view : NlriPath ν → Option PathAttribute}
    (paths : List InboundRoute) {acc : PerPeerOutTable ν × List (Announcement ν)}
    (h : Represents acc.1 (announced view acc.2)) :
    Represents (paths.foldl (announcePath nlri pathId attrs) acc).1
      (announced view (paths.foldl (announcePath nlri pathId attrs) acc).2) := by
  induction paths generalizing acc with
  | nil => exact h
  | cons route paths ih => exact ih (announcePath_represents pathId attrs h route)

theorem mem_foldl_announcePath {e : NlriPath ν × PathAttribute} (he : e.1.nlri ≠ nlri)
    (paths : List InboundRoute) (acc : PerPeerOutTable ν × List (Announcement ν)) :
    e ∈ (paths.foldl (announcePath nlri pathId attrs) acc).1 ↔ e ∈ acc.1 := by
  induction paths generalizing acc with
  | nil => exact Iff.rfl
  | cons route paths ih => rw [List.foldl_cons, ih, mem_announcePath pathId attrs he]

end Announce

section Update
variable (cfg : Config ν) (o : Oracle ν) (best : LocalRoute) (isReflecting : Bool) (ses : PeerSession)
  (peerOut : PerPeerOutTable ν)

theorem mem_egressUpdate (addr : IPAddress) {e : NlriPath ν × PathAttribute} (he : e.1.nlri ≠ nlri) :
    e ∈ (egressUpdate cfg o nlri best isReflecting addr ses peerOut).1 ↔ e ∈ peerOut := by
  simp only [egressUpdate]
  rw [mem_foldl_announcePath _ _ he, List.mem_filter]
  simp [inactivePath, he]

theorem egressUpdate_represents (nlri : ν) (addr : IPAddress) {view : NlriPath ν → Option PathAttribute}
    (h : Represents peerOut view) :
    Represents (egressUpdate cfg o nlri best isReflecting addr ses peerOut).1
      (applyUpdate view (egressUpdate cfg o nlri best isReflecting addr ses peerOut).2) := by
  simp only [egressUpdate]
  exact foldl_announcePath_represents _ _ _ (h.removeKeys (inactivePath ses nlri _))

theorem announceTo_inStep :
    InStep nlri addr ses.peerRid out (announceTo cfg o nlri best isReflecting out addr ses) := by
  have hentries (e : NlriPath ν × PathAttribute) (he : e.1.nlri ≠ nlri) :=
    mem_egressUpdate cfg o best isReflecting ses (out.adjRibOut ses.peerRid) addr he
  have hmirrors (view : NlriPath ν → Option PathAttribute)
      (h : Represents (out.adjRibOut ses.peerRid) view) :=
    egressUpdate_represents cfg o best isReflecting ses _ nlri addr h
  simp only [announceTo]
  generalize egressUpdate cfg o nlri best isReflecting addr ses (out.adjRibOut ses.peerRid) = r
    at hentries hmirrors
  obtain ⟨t, u⟩ := r
  by_cases hempty : u.announcements.isEmpty && u.withdrawn.isEmpty
  · -- nothing is sent, and the table represents the same map
    obtain ⟨ha, hw⟩ : u.announcements = [] ∧ u.withdrawn = [] := by simpa using hempty
    have hu (view : NlriPath ν → Option PathAttribute) : applyUpdate view u = view := by
      funext k
      simp [applyUpdate, announced, without, ha, hw]
    simp only [ha, hw, List.isEmpty_nil, Bool.and_self, if_true]
    refine ⟨fun _ _ => rfl, fun r hr => Function.update_of_ne hr .., fun e he => ?_, [], by simp, ?_⟩
    · simpa using hentries e he
    · intro view h
      simpa [hu] using hmirrors view h
  · rw [if_neg hempty]
    refine .of_send (u := u) (t := t) ?_ ?_ hentries hmirrors
    · split_ifs <;> simp
    · split_ifs <;> simp

end Update

/-- **One neighbor**: every branch keeps its table in step with what it was sent. -/
theorem advertiseTo_inStep (cfg : Config ν) (o : Oracle ν) (inactive : IPAddress → Bool)
    (best : Option LocalRoute) (ses : PeerSession) :
    InStep nlri addr ses.peerRid out (advertiseTo cfg o inactive nlri best out addr ses) := by
  rcases best with _ | best
  · exact withdrawFromPeer_inStep
  · simp only [advertiseTo]
    split
    · exact withdrawFromPeer_inStep
    · have hlimit : InStep nlri addr ses.peerRid out
          (rateLimit (cfg.neighbor addr) o nlri out addr ses.peerRid).1 := rateLimit_inStep _ o
      generalize rateLimit (cfg.neighbor addr) o nlri out addr ses.peerRid = limited at hlimit
      rcases limited with ⟨out₁, _ | _⟩
      · refine hlimit.trans ?_
        simp only
        split
        · exact withdrawFromPeer_inStep
        · rcases reflection cfg addr best with _ | isReflecting
          · exact withdrawFromPeer_inStep
          · simp only
            split
            · exact withdrawFromPeer_inStep
            · exact announceTo_inStep cfg o best isReflecting ses
      · exact hlimit

end InStep

end Peer

end VirtualRouter.Bgp
