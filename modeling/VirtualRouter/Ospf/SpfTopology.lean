/-
  The graph of the shortest-path computation (`routing/ospf/spf/SpfTopology.cpp`).

  The vertices are expanded from the indices over the router and network LSAs,
  each with a check for the link back.  A pair that has passed the check is put
  into `backlinkCache`, so that expanding a vertex is a function of the cache as
  well.  The two versions of the protocol differ in how a link names what it
  leads to, which is their `Policy`.  The constructor gives each OSPFv2 router
  one LSA, and fills `net` together with `netV2ByLsId`: these are the fields of
  `SpfTopology` that the cache relies on.

  * `expandRouter`, `expandNetwork`: the expansion with the cache;
  * `SpfTopology.edges`: the edges out of a vertex, without it;
  * `CacheValid`, `expandRouter_spec`, `expandNetwork_spec`: the cache changes nothing.
-/
import VirtualRouter.Ospf.SpfTypes

namespace VirtualRouter.Ospf

/-! ## The indices -/

/-- `OSPFV2_LINK_P2P` and `OSPFV3_LINK_P2P`. -/
def LINK_P2P : UInt8 := 0x01

/-- `OSPFV2_LINK_TRANSIT` and `OSPFV3_LINK_TRANSIT`. -/
def LINK_TRANSIT : UInt8 := 0x02

structure RouterLinkV2 where
  linkId : UInt32
  linkData : UInt32
  type : UInt8
  metric : UInt16
  deriving DecidableEq, Repr

structure RouterLinkV3 where
  type : UInt8
  metric : UInt16
  interfaceId : UInt32
  neighborInterfaceId : UInt32
  neighborRouterId : UInt32
  deriving DecidableEq, Repr

/-- The indices over the LSAs: the links of each router LSA of a router, which has no entry if there
    is none, and the attached routers of each network LSA. -/
structure LsdbIndex (Link : Type) where
  rtr : UInt32 → List (List Link)
  net : UInt64 → Option (List UInt32)
  netV2ByLsId : UInt32 → Option (UInt32 × List UInt32)

/-- How a version of the protocol reads a link. -/
structure Policy (Link : Type) where
  type : Link → UInt8
  metric : Link → UInt16
  extractIfId : Link → UInt32
  /-- The router at the other end of a point-to-point link. -/
  neighbor : Link → UInt32
  /-- The links of a router that are searched for the link back. -/
  searched : List (List Link) → List Link
  /-- The network vertex of a transit link, and its attached routers. -/
  network : LsdbIndex Link → Link → Option (UInt64 × List UInt32)
  /-- The test for a link back to a network. -/
  leadsTo : Link → UInt64 → Bool

/-- `PolicyV2`: only the first LSA of a router is searched. -/
def PolicyV2 : Policy RouterLinkV2 where
  type l := l.type
  metric l := l.metric
  extractIfId l := l.linkData
  neighbor l := l.linkId
  searched lsas := lsas.head?.getD []
  network idx l := (idx.netV2ByLsId l.linkId).map fun e => (packNetwork e.1 l.linkId, e.2)
  leadsTo l id := l.linkId = networkLsId id

def PolicyV3 : Policy RouterLinkV3 where
  type l := l.type
  metric l := l.metric
  extractIfId l := l.interfaceId
  neighbor l := l.neighborRouterId
  searched lsas := lsas.flatten
  network idx l :=
    let netId := packNetwork l.neighborRouterId l.neighborInterfaceId
    (idx.net netId).map fun attached => (netId, attached)
  leadsTo l id := packNetwork l.neighborRouterId l.neighborInterfaceId = id

/-- `SpfTopology`, without the cache. -/
structure SpfTopology (Link : Type) extends LsdbIndex Link where
  policy : Policy Link
  searched_eq : ∀ rid, policy.searched (rtr rid) = (rtr rid).flatten
  net_of_network : ∀ l id attached, policy.network toLsdbIndex l = some (id, attached) →
    net id = some attached ∧ policy.leadsTo l id = true

theorem networkLsId_packNetwork (advRouter lsId : UInt32) : networkLsId (packNetwork advRouter lsId) = lsId := by
  unfold networkLsId packNetwork
  bv_normalize

theorem networkAdvRouter_packNetwork (advRouter lsId : UInt32) :
    networkAdvRouter (packNetwork advRouter lsId) = advRouter := by
  have h1 := advRouter.toNat_lt
  have h2 := lsId.toNat_lt
  have hshift : (advRouter.toUInt64 <<< 32).toNat = advRouter.toNat <<< 32 := by
    rw [UInt64.toNat_shiftLeft, UInt32.toNat_toUInt64, Nat.mod_eq_of_lt]
    · rfl
    · change advRouter.toNat <<< 32 < _
      rw [Nat.shiftLeft_eq]
      omega
  have hpack : (packNetwork advRouter lsId).toNat = advRouter.toNat * 2 ^ 32 + lsId.toNat := by
    rw [packNetwork, UInt64.toNat_or, hshift, UInt32.toNat_toUInt64,
      ← Nat.shiftLeft_add_eq_or_of_lt h2, Nat.shiftLeft_eq]
  rw [networkAdvRouter, ← UInt32.toNat_inj, UInt64.toNat_toUInt32, UInt64.toNat_shiftRight, hpack]
  change (advRouter.toNat * 2 ^ 32 + lsId.toNat) >>> 32 % 2 ^ 32 = _
  rw [Nat.shiftRight_eq_div_pow]
  omega

theorem packNetwork_inj {a b c d : UInt32} (h : packNetwork a b = packNetwork c d) : a = c ∧ b = d := by
  refine ⟨?_, ?_⟩
  · rw [← networkAdvRouter_packNetwork a b, h]
    exact networkAdvRouter_packNetwork c d
  · rw [← networkLsId_packNetwork a b, h]
    exact networkLsId_packNetwork c d

/-- A topology of OSPFv2: a router has at most one LSA, and the entries by LS id are in `net`. -/
def SpfTopology.ofV2 (idx : LsdbIndex RouterLinkV2) (hone : ∀ rid, (idx.rtr rid).length ≤ 1)
    (hnet : ∀ lsId e, idx.netV2ByLsId lsId = some e → idx.net (packNetwork e.1 lsId) = some e.2) :
    SpfTopology RouterLinkV2 where
  toLsdbIndex := idx
  policy := PolicyV2
  searched_eq rid := by
    have h := hone rid
    show (idx.rtr rid).head?.getD [] = (idx.rtr rid).flatten
    cases hlsas : idx.rtr rid with
    | nil => rfl
    | cons lsa lsas =>
      rw [hlsas, List.length_cons] at h
      obtain rfl := List.eq_nil_of_length_eq_zero (show lsas.length = 0 by omega)
      simp
  net_of_network l id attached h := by
    obtain ⟨e, he, hid⟩ := Option.map_eq_some_iff.1 h
    obtain ⟨rfl, rfl⟩ := Prod.mk.inj hid
    exact ⟨hnet l.linkId e he, decide_eq_true (networkLsId_packNetwork _ _).symm⟩

def SpfTopology.ofV3 (idx : LsdbIndex RouterLinkV3) : SpfTopology RouterLinkV3 where
  toLsdbIndex := idx
  policy := PolicyV3
  searched_eq _ := rfl
  net_of_network l id attached h := by
    obtain ⟨lsa, hlsa, hid⟩ := Option.map_eq_some_iff.1 h
    obtain ⟨rfl, rfl⟩ := Prod.mk.inj hid
    exact ⟨hlsa, decide_eq_true rfl⟩

/-! ## Expansion -/

/-- `backlinkCache`. -/
abbrev BacklinkCache : Type := List (Vertex × Vertex)

namespace SpfTopology

variable {Link : Type} (topo : SpfTopology Link)

/-- A point-to-point link to the router. -/
def p2pTo (links : List Link) (rid : UInt32) : Bool :=
  links.any fun l => topo.policy.type l = LINK_P2P && topo.policy.neighbor l = rid

def transitTo (links : List Link) (id : UInt64) : Bool :=
  links.any fun l => topo.policy.type l = LINK_TRANSIT && topo.policy.leadsTo l id

def checkBacklink (cache : BacklinkCache) (bk : Vertex × Vertex) (check : Bool) : Bool × BacklinkCache :=
  if bk ∈ cache then (true, cache) else if check then (true, bk :: cache) else (false, cache)

/-- The edge of a link of the router `rid`, with the outcome of the check. -/
def linkEdge (rid : UInt32) (cache : BacklinkCache) (l : Link) : Option SpfEdge × BacklinkCache :=
  if topo.policy.type l = LINK_P2P then
    let nbr := topo.policy.neighbor l
    if topo.rtr nbr = [] then (none, cache)
    else
      let r := checkBacklink cache (backlinkKey (.router rid) (.router nbr))
        (topo.p2pTo (topo.policy.searched (topo.rtr nbr)) rid)
      (if r.1 then some ⟨.router nbr, (topo.policy.metric l).toNat, topo.policy.extractIfId l⟩ else none, r.2)
  else if topo.policy.type l = LINK_TRANSIT then
    match topo.policy.network topo.toLsdbIndex l with
    | none => (none, cache)
    | some (netId, attached) =>
      let r := checkBacklink cache (backlinkKey (.router rid) (.network netId)) (decide (rid ∈ attached))
      (if r.1 then some ⟨.network netId, (topo.policy.metric l).toNat, topo.policy.extractIfId l⟩ else none, r.2)
  else (none, cache)

def linkEdges (rid : UInt32) : BacklinkCache → List Link → List SpfEdge × BacklinkCache
  | cache, [] => ([], cache)
  | cache, l :: links =>
    let r := topo.linkEdge rid cache l
    let rest := linkEdges rid r.2 links
    (r.1.toList ++ rest.1, rest.2)

/-- `expandRouter`; `none` if it returns false. -/
def expandRouter (cache : BacklinkCache) (rid : UInt32) : Option (List SpfEdge) × BacklinkCache :=
  if topo.rtr rid = [] then (none, cache)
  else
    let r := topo.linkEdges rid cache (topo.rtr rid).flatten
    (some r.1, r.2)

def attachedFrom (vertexId : UInt64) : BacklinkCache → List UInt32 → List UInt32 × BacklinkCache
  | cache, [] => ([], cache)
  | cache, rid :: rids =>
    if topo.rtr rid = [] then attachedFrom vertexId cache rids
    else
      let r := checkBacklink cache (backlinkKey (.router rid) (.network vertexId))
        (topo.transitTo (topo.policy.searched (topo.rtr rid)) vertexId)
      let rest := attachedFrom vertexId r.2 rids
      (if r.1 then rid :: rest.1 else rest.1, rest.2)

def expandNetwork (cache : BacklinkCache) (vertexId : UInt64) : Option (List UInt32) × BacklinkCache :=
  match topo.net vertexId with
  | none => (none, cache)
  | some attached =>
    let r := topo.attachedFrom vertexId cache attached
    (some r.1, r.2)

/-! ## The edges -/

def links (rid : UInt32) : List Link := (topo.rtr rid).flatten

/-- The edge of a link of the router `rid`, if there is a link back. -/
def linkEdge? (rid : UInt32) (l : Link) : Option SpfEdge :=
  if topo.policy.type l = LINK_P2P then
    if topo.p2pTo (topo.links (topo.policy.neighbor l)) rid then
      some ⟨.router (topo.policy.neighbor l), (topo.policy.metric l).toNat, topo.policy.extractIfId l⟩
    else none
  else if topo.policy.type l = LINK_TRANSIT then
    match topo.policy.network topo.toLsdbIndex l with
    | none => none
    | some (netId, attached) =>
      if rid ∈ attached then
        some ⟨.network netId, (topo.policy.metric l).toNat, topo.policy.extractIfId l⟩
      else none
  else none

def attachedTo (id : UInt64) : List UInt32 :=
  ((topo.net id).getD []).filter fun rid => topo.transitTo (topo.links rid) id

def edges : Vertex → List SpfEdge
  | .router rid => (topo.links rid).filterMap (topo.linkEdge? rid)
  | .network id => (topo.attachedTo id).map fun rid => ⟨.router rid, 0, 0⟩

/-! ## The cache -/

/-- Both ends have a link to the other. -/
def Adjacent : Vertex → Vertex → Prop
  | .router a, .router b => topo.p2pTo (topo.links a) b ∧ topo.p2pTo (topo.links b) a
  | .router a, .network n => (∃ attached, topo.net n = some attached ∧ a ∈ attached) ∧ topo.transitTo (topo.links a) n
  | .network n, .router a => (∃ attached, topo.net n = some attached ∧ a ∈ attached) ∧ topo.transitTo (topo.links a) n
  | .network _, .network _ => False

theorem Adjacent.symm {a b : Vertex} (h : topo.Adjacent a b) : topo.Adjacent b a := by
  cases a <;> cases b
  · exact And.comm.1 h
  · exact h
  · exact h
  · exact h

def CacheValid (cache : BacklinkCache) : Prop := ∀ a b, backlinkKey a b ∈ cache → topo.Adjacent a b

theorem cacheValid_nil : topo.CacheValid [] := fun _ _ h => absurd h List.not_mem_nil

theorem backlinkKey_inj {a b c d : Vertex} (h : backlinkKey a b = backlinkKey c d) :
    (a = c ∧ b = d) ∨ (a = d ∧ b = c) := by
  rw [backlinkKey, backlinkKey] at h
  split_ifs at h
  · exact Or.inl (Prod.mk.inj h)
  · exact Or.inr (Prod.mk.inj h)
  · exact Or.inr (And.comm.1 (Prod.mk.inj h))
  · exact Or.inl (And.comm.1 (Prod.mk.inj h))

variable {topo} {cache : BacklinkCache} {rid : UInt32}

/-- **The check with the cache is the check.** -/
theorem checkBacklink_spec (hcache : topo.CacheValid cache) {a b : Vertex} {check : Bool}
    (hcheck : check = true → topo.Adjacent a b) (hadj : topo.Adjacent a b → check = true) :
    (checkBacklink cache (backlinkKey a b) check).1 = check ∧
      topo.CacheValid (checkBacklink cache (backlinkKey a b) check).2 := by
  rw [checkBacklink]
  split_ifs with hmem hc
  · exact ⟨(hadj (hcache a b hmem)).symm, hcache⟩
  · refine ⟨hc.symm, fun c d hcd => ?_⟩
    rcases List.mem_cons.1 hcd with heq | hold
    · rcases backlinkKey_inj heq with ⟨rfl, rfl⟩ | ⟨rfl, rfl⟩
      · exact hcheck hc
      · exact (hcheck hc).symm
    · exact hcache c d hold
  · exact ⟨(Bool.not_eq_true _ ▸ hc : check = false).symm, hcache⟩

theorem p2pTo_of_mem {ls : List Link} {l : Link} (hl : l ∈ ls) (htype : topo.policy.type l = LINK_P2P) :
    topo.p2pTo ls (topo.policy.neighbor l) := by
  refine List.any_eq_true.2 ⟨l, hl, ?_⟩
  simp [htype]

theorem linkEdge_p2p (hcache : topo.CacheValid cache) {l : Link} (hl : l ∈ topo.links rid)
    (htype : topo.policy.type l = LINK_P2P) :
    (topo.linkEdge rid cache l).1 = topo.linkEdge? rid l ∧ topo.CacheValid (topo.linkEdge rid cache l).2 := by
  have hback : topo.p2pTo (topo.links rid) (topo.policy.neighbor l) := p2pTo_of_mem hl htype
  simp only [linkEdge, linkEdge?, if_pos htype]
  by_cases hnone : topo.rtr (topo.policy.neighbor l) = []
  · have hno : topo.p2pTo (topo.links (topo.policy.neighbor l)) rid = false := by
      rw [links, hnone]
      rfl
    rw [if_pos hnone, hno]
    exact ⟨rfl, hcache⟩
  · obtain ⟨hres, hvalid⟩ := checkBacklink_spec hcache (a := .router rid) (b := .router (topo.policy.neighbor l))
      (fun h => ⟨hback, h⟩) fun h => h.2
    rw [if_neg hnone, topo.searched_eq, ← links, hres]
    exact ⟨rfl, hvalid⟩

theorem linkEdge_transit (hcache : topo.CacheValid cache) {l : Link} (hl : l ∈ topo.links rid)
    (htype : topo.policy.type l = LINK_TRANSIT) :
    (topo.linkEdge rid cache l).1 = topo.linkEdge? rid l ∧ topo.CacheValid (topo.linkEdge rid cache l).2 := by
  have hp2p : topo.policy.type l ≠ LINK_P2P := by
    rw [htype]
    decide
  simp only [linkEdge, linkEdge?, if_neg hp2p, if_pos htype]
  cases hnet : topo.policy.network topo.toLsdbIndex l with
  | none => exact ⟨rfl, hcache⟩
  | some e =>
    obtain ⟨netId, attached⟩ := e
    obtain ⟨hlsa, hleads⟩ := topo.net_of_network l netId attached hnet
    have hback : topo.transitTo (topo.links rid) netId := by
      refine List.any_eq_true.2 ⟨l, hl, ?_⟩
      simp [htype, hleads]
    have hadj : topo.Adjacent (.router rid) (.network netId) → decide (rid ∈ attached) = true := by
      rintro ⟨⟨attached', hlsa', hmem⟩, -⟩
      rw [hlsa] at hlsa'
      obtain rfl := Option.some.inj hlsa'
      exact decide_eq_true hmem
    have hcheck (h : decide (rid ∈ attached) = true) : topo.Adjacent (.router rid) (.network netId) :=
      ⟨⟨attached, hlsa, of_decide_eq_true h⟩, hback⟩
    obtain ⟨hres, hvalid⟩ := checkBacklink_spec hcache hcheck hadj
    refine ⟨?_, hvalid⟩
    simp only [hres, decide_eq_true_eq]

theorem linkEdge_spec (hcache : topo.CacheValid cache) {l : Link} (hl : l ∈ topo.links rid) :
    (topo.linkEdge rid cache l).1 = topo.linkEdge? rid l ∧ topo.CacheValid (topo.linkEdge rid cache l).2 := by
  by_cases hp2p : topo.policy.type l = LINK_P2P
  · exact linkEdge_p2p hcache hl hp2p
  · by_cases htrans : topo.policy.type l = LINK_TRANSIT
    · exact linkEdge_transit hcache hl htrans
    · have hnone : topo.linkEdge rid cache l = (none, cache) := by
        rw [linkEdge, if_neg hp2p, if_neg htrans]
      rw [hnone, linkEdge?, if_neg hp2p, if_neg htrans]
      exact ⟨rfl, hcache⟩

theorem linkEdges_spec {ls : List Link} (hls : ∀ l ∈ ls, l ∈ topo.links rid) (hcache : topo.CacheValid cache) :
    (topo.linkEdges rid cache ls).1 = ls.filterMap (topo.linkEdge? rid) ∧
      topo.CacheValid (topo.linkEdges rid cache ls).2 := by
  induction ls generalizing cache with
  | nil => exact ⟨rfl, hcache⟩
  | cons l ls ih =>
    obtain ⟨hedge, hvalid⟩ := linkEdge_spec hcache (hls l (.head _))
    obtain ⟨hrest, hvalid'⟩ := ih (fun l' hl' => hls l' (.tail _ hl')) hvalid
    refine ⟨?_, hvalid'⟩
    rw [linkEdges, hedge, hrest, List.filterMap_cons]
    cases topo.linkEdge? rid l <;> rfl

/-- **A router is expanded into its edges.** -/
theorem expandRouter_spec (hcache : topo.CacheValid cache) (rid : UInt32) :
    ((topo.expandRouter cache rid).1).getD [] = topo.edges (.router rid) ∧
      topo.CacheValid (topo.expandRouter cache rid).2 := by
  rw [expandRouter]
  split_ifs with hnone
  · rw [edges, links, hnone]
    exact ⟨rfl, hcache⟩
  · exact linkEdges_spec (fun _ hl => hl) hcache

theorem attachedFrom_spec {id : UInt64} {attached rids : List UInt32} (hnet : topo.net id = some attached)
    (hrids : ∀ rid ∈ rids, rid ∈ attached) (hcache : topo.CacheValid cache) :
    (topo.attachedFrom id cache rids).1 = rids.filter (fun rid => topo.transitTo (topo.links rid) id) ∧
      topo.CacheValid (topo.attachedFrom id cache rids).2 := by
  induction rids generalizing cache with
  | nil => exact ⟨rfl, hcache⟩
  | cons rid rids ih =>
    have hrest := fun rid' hrid' => hrids rid' (List.mem_cons_of_mem _ hrid')
    rw [attachedFrom, List.filter_cons]
    by_cases hnone : topo.rtr rid = []
    · have hno : topo.transitTo (topo.links rid) id = false := by
        rw [links, hnone]
        rfl
      rw [if_pos hnone, hno, if_neg Bool.false_ne_true]
      exact ih hrest hcache
    · obtain ⟨hres, hvalid⟩ := checkBacklink_spec hcache (a := .router rid) (b := .network id)
        (fun h => ⟨⟨attached, hnet, hrids rid (.head _)⟩, h⟩) fun h => h.2
      obtain ⟨hedges, hvalid'⟩ := ih hrest hvalid
      rw [if_neg hnone, topo.searched_eq, ← links]
      refine ⟨?_, hvalid'⟩
      simp only [hres, hedges]

/-- **A network is expanded into its edges.** -/
theorem expandNetwork_spec (hcache : topo.CacheValid cache) (id : UInt64) :
    ((topo.expandNetwork cache id).1).getD [] = topo.attachedTo id ∧
      topo.CacheValid (topo.expandNetwork cache id).2 := by
  rw [expandNetwork, attachedTo]
  cases hnet : topo.net id with
  | none => exact ⟨rfl, hcache⟩
  | some attached => exact attachedFrom_spec hnet (fun _ h => h) hcache

/-! ## The graph -/

variable (topo) in
/-- There is an edge of this cost. -/
def Arc (u v : Vertex) (c : ℕ) : Prop := ∃ e ∈ topo.edges u, e.dst = v ∧ e.cost = c

def costBound : Vertex → ℕ
  | .router _ => 65535
  | .network _ => 0

theorem exists_link_of_edge {e : SpfEdge} (he : e ∈ topo.edges (.router rid)) :
    ∃ l ∈ topo.links rid, e.cost = (topo.policy.metric l).toNat := by
  obtain ⟨l, hl, hedge⟩ := List.mem_filterMap.1 he
  refine ⟨l, hl, ?_⟩
  rw [linkEdge?] at hedge
  split_ifs at hedge
  · rw [← Option.some.inj hedge]
  · split at hedge
    · cases hedge
    · split_ifs at hedge
      rw [← Option.some.inj hedge]

theorem cost_le {u : Vertex} {e : SpfEdge} (he : e ∈ topo.edges u) : e.cost ≤ costBound u := by
  cases u with
  | router rid =>
    obtain ⟨l, -, hcost⟩ := exists_link_of_edge he
    rw [hcost]
    exact Nat.le_of_lt_succ (topo.policy.metric l).toNat_lt
  | network id =>
    obtain ⟨rid, -, rfl⟩ := List.mem_map.1 he
    exact le_rfl

theorem sum_costBound_lt (s : Finset Vertex) : ∑ v ∈ s, costBound v < MAX_DIST := by
  have hcard : (s.filter fun v => v.type = 1).card ≤ 2 ^ 32 := by
    refine (Finset.card_le_card_of_injOn Vertex.id ?_ ?_).trans_eq (Finset.card_range (2 ^ 32))
    · intro v hv
      cases v with
      | router rid => exact Finset.mem_coe.2 (Finset.mem_range.2 rid.toNat_lt)
      | network id => cases (Finset.mem_filter.1 (Finset.mem_coe.1 hv)).2
    · intro v hv v' hv' heq
      have htype := (Finset.mem_filter.1 (Finset.mem_coe.1 hv)).2
      have htype' := (Finset.mem_filter.1 (Finset.mem_coe.1 hv')).2
      exact Vertex.ext_id (htype.trans htype'.symm) heq
  have hsum : ∑ v ∈ s, costBound v = ∑ v ∈ s.filter fun v => v.type = 1, 65535 := by
    rw [Finset.sum_filter]
    refine Finset.sum_congr rfl fun v _ => ?_
    cases v <;> rfl
  rw [hsum, Finset.sum_const, smul_eq_mul, MAX_DIST]
  omega

/-- **What can be reached is reached below `MAX_DIST`**: there are 2³² routers, and a walk leaves none
    of them twice. -/
theorem exists_walk_lt {root v : Vertex} {d : ℕ} (h : ShortestPath.Walk topo.Arc root v d) :
    ∃ d' < MAX_DIST, ShortestPath.Walk topo.Arc root v d' := by
  have hbound (u v : Vertex) (c : ℕ) (harc : topo.Arc u v c) : c ≤ costBound u := by
    obtain ⟨e, he, -, rfl⟩ := harc
    exact cost_le he
  obtain ⟨s, d', hwalk, hle⟩ := h.exists_le_sum hbound
  exact ⟨d', hle.trans_lt (sum_costBound_lt s), hwalk⟩

end SpfTopology

end VirtualRouter.Ospf
