/-
  The inter-area routes (`ospf/topology/RouteManager.cpp`), derived from one summary LSA when it
  comes, and from all of an area after its SPF run.

  `deriveInterAreaNetwork` looks the border router up in the table of the process, which has the best
  of all areas and has it from `extractNextHops`, that knows no addresses; `deriveInterAreaRoutes`
  asks the SPF result of the area.  The recursion of `computeNextHops` takes fuel.

  * `SummaryPolicy`: what the versions of the protocol read from an LSA;
  * `SummaryPolicy.deriveInterAreaNetwork`, `SummaryPolicy.deriveInterAreaRoutes`;
  * `attributed_of_derive`: what the full derivation attributes to a prefix;
  * `SummaryPolicy.derivesAlike_iff`: when the two agree on an LSA.
-/
import VirtualRouter.Ospf.LsaInstall
import VirtualRouter.Ospf.NextHops
import VirtualRouter.Ospf.PrefixLsaV3
import VirtualRouter.Ospf.TopologyTable

namespace VirtualRouter.Ospf

open NestedMap

/-! ## Prefixes and paths -/

/-- `IPAddress(uint32_t)`. -/
def mappedV4 (addr : UInt32) : BitVec 128 := addr.toBitVec.setWidth 128 ||| (0xFFFF : BitVec 128) <<< 32

def popcount (mask : UInt32) : ℕ := (List.range 32).countP mask.toBitVec.getLsbD

/-- `IPPrefix(ip, prefix)`. -/
def IPPrefix.ofAddr (addr : BitVec 128) (len : ℕ) : IPPrefix := ⟨addPrefixLen addr len, len⟩

def makePath (areaId : Option UInt32) (options : UInt8) (adminDistance cost : ℕ)
    (nextHops : List OspfNextHop) (type : OspfRouteType) : OspfPath :=
  { type, area := areaId, cost, adminDistance, options, nextHops }

/-- `std::numeric_limits<uint64_t>::max()`, or the sum of 64 bits. -/
def summaryDistance (maxMetricSummary : Bool) (cost : ℕ) (metric : UInt32) : ℕ :=
  if maxMetricSummary then 2 ^ 64 - 1 else (cost + metric.toNat) % 2 ^ 64

/-! ## The two versions -/

structure InterAreaRouterLsa where
  options : UInt32
  metric : UInt32
  destinationRouterId : UInt32
  deriving DecidableEq, Repr

/-- The types `InterNetworkLsa` and `InterRouterLsa` of a version. -/
structure SummaryPolicy (Net Rtr : Type) where
  pfx : LsaKey → Net → IPPrefix
  metric : Net → UInt32
  /-- The options that the full derivation gives to the path. -/
  pathOptions : Net → UInt8
  routerMetric : Rtr → UInt32

def SummaryPolicy.V2 : SummaryPolicy SummaryNetworkLsa SummaryRouterLsa where
  pfx key lsa := .ofAddr (mappedV4 key.linkStateId) (popcount lsa.networkMask)
  metric lsa := lsa.metric
  pathOptions _ := 0
  routerMetric lsa := lsa.metric

/-- The inter-area LSAs of OSPFv3. -/
def SummaryPolicy.V3 : SummaryPolicy InterAreaPrefixLsa InterAreaRouterLsa where
  pfx _ lsa := .ofAddr lsa.pfx.addr lsa.pfx.prefixLength.toNat
  metric lsa := lsa.metric
  pathOptions lsa := lsa.options
  routerMetric lsa := lsa.metric

/-- What the derivations read: the area with its SPF result, and the process with its table and its
    configuration.  The records are those of the two types of LSA, in the order of `forEachInType`;
    a record whose body is another one has none. -/
structure SummaryState (Net Rtr : Type) where
  areaId : UInt32
  ifaces : AreaInterfaces
  spf : SpfResult
  networks : List (LsaKey × LsaRecord (Option Net))
  routers : List (LsaKey × LsaRecord (Option Rtr))
  table : TopologyTable
  adminDistance : ℕ
  maxMetricSummary : Bool

/-! ## From one LSA -/

def resolveToAbrs (table : TopologyTable) (abrRid : UInt32) : Option RouterReach := table.reach.lookup abrRid

namespace SummaryPolicy

variable {Net Rtr : Type} (policy : SummaryPolicy Net Rtr) (st : SummaryState Net Rtr)

def deriveInterAreaNetwork (key : LsaKey) (header : LsaHeader) (summary : Net) :
    IPPrefix × Option OspfPath :=
  let pfx := policy.pfx key summary
  if header.age = OSPF_MAX_AGE then (pfx, none)
  else
    match resolveToAbrs st.table key.advertisingRouter with
    | none => (pfx, none)
    | some abrInfo =>
      let distance := summaryDistance st.maxMetricSummary abrInfo.cost (policy.metric summary)
      (pfx, some (makePath (some st.areaId) 0 st.adminDistance distance abrInfo.nextHops .INTER_AREA))

end SummaryPolicy

/-! ## From all LSAs -/

def resolveToAbr (ifaces : AreaInterfaces) (spf : SpfResult) (fuel : ℕ) (abrRid : UInt32)
    (nhCache : NhCache) : Option (Option (ℕ × List OspfNextHop) × NhCache) :=
  match spf.nodes (.router abrRid) with
  | none => some (none, nhCache)
  | some node => do
    let (nh, nhCache) ← computeNextHops ifaces spf fuel (.router abrRid) nhCache
    some (if nh = [] then none else some (node.dist, nh), nhCache)

/-- The loop over the records of a type, with what `make` gives for an LSA whose router is reached. -/
def resolveEach {Body β : Type} (ifaces : AreaInterfaces) (spf : SpfResult) (fuel : ℕ)
    (make : LsaKey → Body → ℕ → List OspfNextHop → β) :
    List (LsaKey × LsaRecord (Option Body)) → NhCache → Option (List β × NhCache)
  | [], nhCache => some ([], nhCache)
  | e :: rest, nhCache =>
    match e.2.body with
    | none => resolveEach ifaces spf fuel make rest nhCache
    | some lsa =>
      if e.2.header.age = OSPF_MAX_AGE then resolveEach ifaces spf fuel make rest nhCache
      else do
        let (abrInfo, nhCache) ← resolveToAbr ifaces spf fuel e.1.advertisingRouter nhCache
        let (out, nhCache) ← resolveEach ifaces spf fuel make rest nhCache
        some ((abrInfo.map fun r => make e.1 lsa r.1 r.2).toList ++ out, nhCache)

namespace SummaryPolicy

variable {Net Rtr : Type} (policy : SummaryPolicy Net Rtr) (st : SummaryState Net Rtr)

def networkRoute (key : LsaKey) (summary : Net) (dist : ℕ) (nhs : List OspfNextHop) :
    IPPrefix × OspfPath :=
  (policy.pfx key summary, makePath (some st.areaId) (policy.pathOptions summary) st.adminDistance
    (summaryDistance st.maxMetricSummary dist (policy.metric summary)) nhs .INTER_AREA)

def routerCanidate (key : LsaKey) (asbr : Rtr) (dist : ℕ) (nhs : List OspfNextHop) : OspfRouter :=
  ⟨key.linkStateId, summaryDistance st.maxMetricSummary dist (policy.routerMetric asbr), nhs⟩

/-- `deriveInterAreaRoutes`: the routes, and the table afterwards. -/
def deriveInterAreaRoutes (fuel : ℕ) : Option (List (IPPrefix × OspfPath) × TopologyTable) := do
  let (out, nhCache) ← resolveEach st.ifaces st.spf fuel (policy.networkRoute st) st.networks fun _ => none
  let (asbrs, _) ← resolveEach st.ifaces st.spf fuel (policy.routerCanidate st) st.routers nhCache
  some (out, if asbrs = [] then st.table else (st.table.updateAreaAsbrs st.areaId asbrs).2)

end SummaryPolicy

/-! ## What the loop gives -/

def Live {Body : Type} (e : LsaKey × LsaRecord (Option Body)) (lsa : Body) : Prop :=
  e.2.body = some lsa ∧ e.2.header.age ≠ OSPF_MAX_AGE

/-- The SPF result reaches the router at this distance, and there is a next hop to it. -/
def Reaches (ifaces : AreaInterfaces) (spf : SpfResult) (rid : UInt32) (dist : ℕ) : Prop :=
  ∃ node, spf.nodes (.router rid) = some node ∧ node.dist = dist ∧ ∃ nh, ChainHop ifaces spf (.router rid) nh

/-- No chain of parents of the router is endless, if it has a node. -/
def Resolvable (spf : SpfResult) (rid : UInt32) : Prop :=
  ∀ node, spf.nodes (.router rid) = some node → Acc spf.Follows (.router rid)

section Loop
variable {ifaces : AreaInterfaces} {spf : SpfResult} {rid : UInt32} {fuel : ℕ} {cache cache' : NhCache}

theorem Reaches.unique {d d' : ℕ} (h : Reaches ifaces spf rid d) (h' : Reaches ifaces spf rid d') : d = d' := by
  obtain ⟨node, hnode, hdist, -⟩ := h
  obtain ⟨node', hnode', hdist', -⟩ := h'
  obtain rfl := Option.some.inj (hnode.symm.trans hnode')
  exact hdist.symm.trans hdist'

def AbrRight (ifaces : AreaInterfaces) (spf : SpfResult) (rid : UInt32) :
    Option (ℕ × List OspfNextHop) → Prop
  | none => ∀ dist, ¬ Reaches ifaces spf rid dist
  | some r => Reaches ifaces spf rid r.1 ∧ AllHops ifaces spf (.router rid) r.2

theorem resolveToAbr_returns (h : Resolvable spf rid) : ∃ k, ∀ fuel ≥ k, ∀ cache,
    CacheRight ifaces spf cache → ∃ r cache',
      resolveToAbr ifaces spf fuel rid cache = some (r, cache') ∧
        AbrRight ifaces spf rid r ∧ CacheRight ifaces spf cache' := by
  cases hnode : spf.nodes (.router rid) with
  | none =>
    refine ⟨0, fun fuel _ cache hc => ⟨none, cache, by rw [resolveToAbr, hnode], fun dist hreach => ?_, hc⟩⟩
    obtain ⟨node, hnode', -⟩ := hreach
    rw [hnode] at hnode'
    cases hnode'
  | some node =>
    obtain ⟨k, hk⟩ := @returns_of_acc ifaces spf _ (h node hnode)
    refine ⟨k, fun fuel hfuel cache hc => ?_⟩
    obtain ⟨nhs, cache', hcall, hnhs, hc'⟩ := hk fuel hfuel cache hc
    refine ⟨if nhs = [] then none else some (node.dist, nhs), cache', ?_, ?_, hc'⟩
    · simp only [resolveToAbr, hnode, hcall, Option.bind_eq_bind, Option.bind_some]
    split_ifs with hnil
    · rintro dist ⟨-, -, -, nh, hnh⟩
      rw [← hnhs, hnil] at hnh
      cases hnh
    · obtain ⟨nh, hnh⟩ := List.exists_mem_of_ne_nil nhs hnil
      exact ⟨⟨node, hnode, rfl, nh, (hnhs nh).1 hnh⟩, hnhs⟩

theorem resolveToAbr_acc {r : Option (ℕ × List OspfNextHop)}
    (h : resolveToAbr ifaces spf fuel rid cache = some (r, cache')) (hc : CacheAcc spf cache) :
    Resolvable spf rid ∧ CacheAcc spf cache' := by
  rw [resolveToAbr] at h
  cases hnode : spf.nodes (.router rid) with
  | none =>
    rw [hnode] at h
    obtain ⟨-, rfl⟩ := Prod.mk.inj (Option.some.inj h)
    refine ⟨fun node hnode' => ?_, hc⟩
    rw [hnode] at hnode'
    cases hnode'
  | some node =>
    rw [hnode] at h
    obtain ⟨⟨nhs, cache₁⟩, hcall, hret⟩ := Option.bind_eq_some_iff.1 h
    obtain ⟨-, rfl⟩ := Prod.mk.inj (Option.some.inj hret)
    obtain ⟨hacc, hc'⟩ := acc_of_returns hcall hc
    exact ⟨fun _ _ => hacc, hc'⟩

variable {Body β : Type} {make : LsaKey → Body → ℕ → List OspfNextHop → β}

/-- What the loop is to return: for each LSA that is not of the maximal age and whose router is
    reached, what is made of it with all next hops. -/
structure EachRight (ifaces : AreaInterfaces) (spf : SpfResult)
    (make : LsaKey → Body → ℕ → List OspfNextHop → β) (l : List (LsaKey × LsaRecord (Option Body)))
    (out : List β) : Prop where
  sound : ∀ x ∈ out, ∃ e ∈ l, ∃ lsa dist nhs, Live e lsa ∧ Reaches ifaces spf e.1.advertisingRouter dist ∧
    AllHops ifaces spf (.router e.1.advertisingRouter) nhs ∧ x = make e.1 lsa dist nhs
  complete : ∀ e ∈ l, ∀ lsa dist, Live e lsa → Reaches ifaces spf e.1.advertisingRouter dist →
    ∃ nhs, AllHops ifaces spf (.router e.1.advertisingRouter) nhs ∧ make e.1 lsa dist nhs ∈ out

theorem EachRight.skip {e : LsaKey × LsaRecord (Option Body)} {l : List (LsaKey × LsaRecord (Option Body))}
    {out : List β} (h : EachRight ifaces spf make l out) (hskip : ∀ lsa, ¬ Live e lsa) :
    EachRight ifaces spf make (e :: l) out where
  sound x hx := by
    obtain ⟨e', he', hrest⟩ := h.sound x hx
    exact ⟨e', List.mem_cons_of_mem _ he', hrest⟩
  complete e' he' lsa dist hlive hreach := by
    rcases List.mem_cons.1 he' with rfl | he'
    · exact absurd hlive (hskip lsa)
    · exact h.complete e' he' lsa dist hlive hreach

theorem EachRight.cons {e : LsaKey × LsaRecord (Option Body)} {l : List (LsaKey × LsaRecord (Option Body))}
    {out : List β} (h : EachRight ifaces spf make l out) {lsa : Body} (hlive : Live e lsa)
    {r : Option (ℕ × List OspfNextHop)} (hr : AbrRight ifaces spf e.1.advertisingRouter r) :
    EachRight ifaces spf make (e :: l) ((r.map fun r => make e.1 lsa r.1 r.2).toList ++ out) where
  sound x hx := by
    rcases List.mem_append.1 hx with hx | hx
    · cases r with
      | none => cases hx
      | some r =>
        exact ⟨e, List.mem_cons_self, lsa, r.1, r.2, hlive, hr.1, hr.2, List.mem_singleton.1 hx⟩
    · obtain ⟨e', he', hrest⟩ := h.sound x hx
      exact ⟨e', List.mem_cons_of_mem _ he', hrest⟩
  complete e' he' lsa' dist hlive' hreach := by
    rcases List.mem_cons.1 he' with rfl | he'
    · cases r with
      | none => exact absurd hreach (hr dist)
      | some r =>
        obtain rfl := hreach.unique hr.1
        obtain rfl := Option.some.inj (hlive'.1.symm.trans hlive.1)
        exact ⟨r.2, hr.2, List.mem_append_left _ (List.mem_singleton.2 rfl)⟩
    · obtain ⟨nhs, hnhs, hmem⟩ := h.complete e' he' lsa' dist hlive' hreach
      exact ⟨nhs, hnhs, List.mem_append_right _ hmem⟩

/-- **The loop returns what it is to return.** -/
theorem resolveEach_returns (l : List (LsaKey × LsaRecord (Option Body)))
    (h : ∀ e ∈ l, ∀ lsa, Live e lsa → Resolvable spf e.1.advertisingRouter) :
    ∃ k, ∀ fuel ≥ k, ∀ cache, CacheRight ifaces spf cache → ∃ out cache',
      resolveEach ifaces spf fuel make l cache = some (out, cache') ∧
        EachRight ifaces spf make l out ∧ CacheRight ifaces spf cache' := by
  induction l with
  | nil =>
    exact ⟨0, fun fuel _ cache hc => ⟨[], cache, rfl, ⟨fun x hx => absurd hx List.not_mem_nil,
      fun e he => absurd he List.not_mem_nil⟩, hc⟩⟩
  | cons e l ih =>
    obtain ⟨k, hk⟩ := ih fun e' he' => h e' (List.mem_cons_of_mem _ he')
    cases hbody : e.2.body with
    | none =>
      refine ⟨k, fun fuel hfuel cache hc => ?_⟩
      obtain ⟨out, cache', hout, hright, hc'⟩ := hk fuel hfuel cache hc
      refine ⟨out, cache', by rw [resolveEach, hbody]; exact hout, hright.skip fun lsa hlive => ?_, hc'⟩
      rw [Live, hbody] at hlive
      cases hlive.1
    | some lsa =>
      by_cases hage : e.2.header.age = OSPF_MAX_AGE
      · refine ⟨k, fun fuel hfuel cache hc => ?_⟩
        obtain ⟨out, cache', hout, hright, hc'⟩ := hk fuel hfuel cache hc
        refine ⟨out, cache', ?_, hright.skip fun lsa hlive => hlive.2 hage, hc'⟩
        rw [resolveEach, hbody]
        exact (if_pos hage).trans hout
      · have hlive : Live e lsa := ⟨hbody, hage⟩
        obtain ⟨k', hk'⟩ := @resolveToAbr_returns ifaces _ _ (h e List.mem_cons_self lsa hlive)
        refine ⟨max k k', fun fuel hfuel cache hc => ?_⟩
        obtain ⟨r, cache₁, habr, hr, hc₁⟩ := hk' fuel ((le_max_right _ _).trans hfuel) cache hc
        obtain ⟨out, cache', hout, hright, hc'⟩ := hk fuel ((le_max_left _ _).trans hfuel) cache₁ hc₁
        refine ⟨_, cache', ?_, hright.cons hlive hr, hc'⟩
        simp only [resolveEach, hbody, if_neg hage, habr, hout, Option.bind_eq_bind, Option.bind_some]

/-- **Where the loop returns, no chain of parents that it follows is endless.** -/
theorem resolveEach_acc {l : List (LsaKey × LsaRecord (Option Body))} {out : List β}
    (h : resolveEach ifaces spf fuel make l cache = some (out, cache')) (hc : CacheAcc spf cache) :
    (∀ e ∈ l, ∀ lsa, Live e lsa → Resolvable spf e.1.advertisingRouter) ∧ CacheAcc spf cache' := by
  induction l generalizing cache out with
  | nil =>
    obtain ⟨-, rfl⟩ := Prod.mk.inj (Option.some.inj h)
    exact ⟨fun e he => absurd he List.not_mem_nil, hc⟩
  | cons e l ih =>
    rw [resolveEach] at h
    cases hbody : e.2.body with
    | none =>
      rw [hbody] at h
      obtain ⟨hall, hc'⟩ := ih h hc
      refine ⟨fun e' he' lsa hlive => ?_, hc'⟩
      rcases List.mem_cons.1 he' with rfl | he'
      · rw [Live, hbody] at hlive
        cases hlive.1
      · exact hall e' he' lsa hlive
    | some lsa =>
      rw [hbody] at h
      dsimp only at h
      split_ifs at h with hage
      · obtain ⟨hall, hc'⟩ := ih h hc
        refine ⟨fun e' he' lsa hlive => ?_, hc'⟩
        rcases List.mem_cons.1 he' with rfl | he'
        · exact absurd hage hlive.2
        · exact hall e' he' lsa hlive
      · obtain ⟨⟨r, cache₁⟩, habr, h⟩ := Option.bind_eq_some_iff.1 h
        obtain ⟨⟨rest, cache₂⟩, hrest, hret⟩ := Option.bind_eq_some_iff.1 h
        obtain ⟨-, rfl⟩ := Prod.mk.inj (Option.some.inj hret)
        obtain ⟨hres, hc₁⟩ := resolveToAbr_acc habr hc
        obtain ⟨hall, hc'⟩ := ih hrest hc₁
        refine ⟨fun e' he' lsa hlive => ?_, hc'⟩
        rcases List.mem_cons.1 he' with rfl | he'
        · exact hres
        · exact hall e' he' lsa hlive

end Loop

/-! ## Agreement -/

/-- What two routes are to have in common: the type, the cost and the next hops. -/
abbrev RouteView : Type := OspfRouteType × ℕ × Set OspfNextHop

def OspfPath.view (path : OspfPath) : RouteView := (path.type, path.cost, {nh | nh ∈ path.nextHops})

def attributed (out : List (IPPrefix × OspfPath)) (pfx : IPPrefix) : Set RouteView :=
  {v | ∃ path, (pfx, path) ∈ out ∧ path.view = v}

/-- The route that is derived from one LSA, if any. -/
def single (path : Option OspfPath) : Set RouteView := {v | ∃ p, path = some p ∧ p.view = v}

theorem AllHops.setOf_eq {ifaces : AreaInterfaces} {spf : SpfResult} {v : Vertex} {nhs : List OspfNextHop}
    (h : AllHops ifaces spf v nhs) : {nh | nh ∈ nhs} = {nh | ChainHop ifaces spf v nh} := Set.ext h

/-- No chain of parents is endless of a router with an LSA that is not of the maximal age. -/
def SummaryState.Returns {Net Rtr : Type} (st : SummaryState Net Rtr) : Prop :=
  (∀ e ∈ st.networks, ∀ lsa, Live e lsa → Resolvable st.spf e.1.advertisingRouter) ∧
    ∀ e ∈ st.routers, ∀ lsa, Live e lsa → Resolvable st.spf e.1.advertisingRouter

namespace SummaryPolicy

variable {Net Rtr : Type} (policy : SummaryPolicy Net Rtr) (st : SummaryState Net Rtr)

/-- The full derivation returns, and attributes to the prefix of the LSA what is derived from the LSA. -/
def DerivesAlike (key : LsaKey) (header : LsaHeader) (summary : Net) : Prop :=
  ∃ k, ∀ fuel ≥ k, ∃ out table, policy.deriveInterAreaRoutes st fuel = some (out, table) ∧
    attributed out (policy.deriveInterAreaNetwork st key header summary).1 =
      single (policy.deriveInterAreaNetwork st key header summary).2

/-- The area has the LSA for the prefix, it is not of the maximal age, and its router is reached. -/
def Offers (pfx : IPPrefix) (e : LsaKey × LsaRecord (Option Net)) (lsa : Net) (dist : ℕ) : Prop :=
  e ∈ st.networks ∧ Live e lsa ∧ policy.pfx e.1 lsa = pfx ∧
    Reaches st.ifaces st.spf e.1.advertisingRouter dist

/-- What the table records is what the SPF result of the area has for each LSA of the prefix: if the LSA
    is of the maximal age, or the table does not have its router, no LSA of the prefix has a router
    that is reached; if it has, there is one, and each has the next hops of the table, at the distance
    that makes the cost that of the table. -/
def TableFits (key : LsaKey) (header : LsaHeader) (summary : Net) : Prop :=
  match if header.age = OSPF_MAX_AGE then none else resolveToAbrs st.table key.advertisingRouter with
  | none => ∀ e lsa dist, ¬ policy.Offers st (policy.pfx key summary) e lsa dist
  | some abrInfo =>
    (∃ e lsa dist, policy.Offers st (policy.pfx key summary) e lsa dist) ∧
      ∀ e lsa dist, policy.Offers st (policy.pfx key summary) e lsa dist →
        (st.maxMetricSummary = true ∨ (dist + (policy.metric lsa).toNat) % 2 ^ 64 =
          (abrInfo.cost + (policy.metric summary).toNat) % 2 ^ 64) ∧
        ∀ nh, nh ∈ abrInfo.nextHops ↔ ChainHop st.ifaces st.spf (.router e.1.advertisingRouter) nh

variable {policy} {st}

theorem attributed_of_right {out : List (IPPrefix × OspfPath)} {pfx : IPPrefix}
    (h : EachRight st.ifaces st.spf (policy.networkRoute st) st.networks out) :
    attributed out pfx = {v | ∃ e lsa dist, policy.Offers st pfx e lsa dist ∧
      v = (.INTER_AREA, summaryDistance st.maxMetricSummary dist (policy.metric lsa),
        {nh | ChainHop st.ifaces st.spf (.router e.1.advertisingRouter) nh})} := by
  ext v
  constructor
  · rintro ⟨path, hpath, rfl⟩
    obtain ⟨e, he, lsa, dist, nhs, hlive, hreach, hnhs, heq⟩ := h.sound _ hpath
    obtain ⟨rfl, rfl⟩ := Prod.mk.inj heq
    refine ⟨e, lsa, dist, ⟨he, hlive, rfl, hreach⟩, ?_⟩
    rw [OspfPath.view, ← hnhs.setOf_eq]
    rfl
  · rintro ⟨e, lsa, dist, ⟨he, hlive, rfl, hreach⟩, rfl⟩
    obtain ⟨nhs, hnhs, hmem⟩ := h.complete e he lsa dist hlive hreach
    refine ⟨_, hmem, ?_⟩
    rw [OspfPath.view, ← hnhs.setOf_eq]
    rfl

theorem derive_returns (h : st.Returns) : ∃ k, ∀ fuel ≥ k, ∃ out table,
    policy.deriveInterAreaRoutes st fuel = some (out, table) ∧
      EachRight st.ifaces st.spf (policy.networkRoute st) st.networks out := by
  obtain ⟨k, hk⟩ := @resolveEach_returns st.ifaces st.spf _ _ (policy.networkRoute st) st.networks h.1
  obtain ⟨k', hk'⟩ := @resolveEach_returns st.ifaces st.spf _ _ (policy.routerCanidate st) st.routers h.2
  refine ⟨max k k', fun fuel hfuel => ?_⟩
  obtain ⟨out, cache, hout, hright, hc⟩ := hk fuel ((le_max_left _ _).trans hfuel) (fun _ => none) nofun
  obtain ⟨asbrs, cache', hasbrs, -, -⟩ := hk' fuel ((le_max_right _ _).trans hfuel) cache hc
  refine ⟨out, if asbrs = [] then st.table else (st.table.updateAreaAsbrs st.areaId asbrs).2, ?_, hright⟩
  simp only [deriveInterAreaRoutes, hout, hasbrs, Option.bind_eq_bind, Option.bind_some]

theorem returns_of_derive {fuel : ℕ} {out : List (IPPrefix × OspfPath)} {table : TopologyTable}
    (h : policy.deriveInterAreaRoutes st fuel = some (out, table)) : st.Returns := by
  obtain ⟨⟨_, cache⟩, hout, h⟩ := Option.bind_eq_some_iff.1 h
  obtain ⟨⟨_, cache'⟩, hasbrs, -⟩ := Option.bind_eq_some_iff.1 h
  obtain ⟨hnet, hc⟩ := resolveEach_acc hout nofun
  exact ⟨hnet, (resolveEach_acc hasbrs hc).1⟩

theorem summaryDistance_eq_iff {m : Bool} {c c' : ℕ} {a a' : UInt32} :
    summaryDistance m c a = summaryDistance m c' a' ↔
      m = true ∨ (c + a.toNat) % 2 ^ 64 = (c' + a'.toNat) % 2 ^ 64 := by
  cases m with
  | true => exact iff_of_true rfl (Or.inl rfl)
  | false => exact (or_iff_right Bool.false_ne_true).symm

theorem tableFits_iff {out : List (IPPrefix × OspfPath)} {key : LsaKey} {header : LsaHeader} {summary : Net}
    (h : EachRight st.ifaces st.spf (policy.networkRoute st) st.networks out) :
    attributed out (policy.pfx key summary) = single (policy.deriveInterAreaNetwork st key header summary).2 ↔
      policy.TableFits st key header summary := by
  have hsingle : (policy.deriveInterAreaNetwork st key header summary).2 =
      (if header.age = OSPF_MAX_AGE then none else resolveToAbrs st.table key.advertisingRouter).map
        fun abrInfo => makePath (some st.areaId) 0 st.adminDistance
          (summaryDistance st.maxMetricSummary abrInfo.cost (policy.metric summary)) abrInfo.nextHops
          .INTER_AREA := by
    rw [deriveInterAreaNetwork]
    split_ifs
    · rfl
    · dsimp only
      cases resolveToAbrs st.table key.advertisingRouter <;> rfl
  rw [attributed_of_right h, hsingle, TableFits]
  cases (if header.age = OSPF_MAX_AGE then none else resolveToAbrs st.table key.advertisingRouter) with
  | none =>
    have hnone : single none = ∅ := Set.eq_empty_of_forall_notMem fun v => by
      rintro ⟨p, hp, -⟩
      cases hp
    rw [Option.map_none, hnone, Set.eq_empty_iff_forall_notMem]
    constructor
    · intro hall e lsa dist hoffers
      exact hall _ ⟨e, lsa, dist, hoffers, rfl⟩
    · rintro hall v ⟨e, lsa, dist, hoffers, -⟩
      exact hall e lsa dist hoffers
  | some abrInfo =>
    have hsome (path : OspfPath) : single (some path) = {path.view} := by
      ext v
      constructor
      · rintro ⟨p, hp, rfl⟩
        rw [Option.some.inj hp]
        rfl
      · rintro rfl
        exact ⟨path, rfl, rfl⟩
    rw [Option.map_some, hsome, Set.eq_singleton_iff_nonempty_unique_mem]
    refine and_congr ?_ ?_
    · constructor
      · rintro ⟨v, e, lsa, dist, hoffers, -⟩
        exact ⟨e, lsa, dist, hoffers⟩
      · rintro ⟨e, lsa, dist, hoffers⟩
        exact ⟨_, e, lsa, dist, hoffers, rfl⟩
    · constructor
      · intro hall e lsa dist hoffers
        have hview := hall _ ⟨e, lsa, dist, hoffers, rfl⟩
        obtain ⟨-, hrest⟩ := Prod.mk.inj hview
        obtain ⟨hcost, hhops⟩ := Prod.mk.inj hrest
        exact ⟨summaryDistance_eq_iff.1 hcost, fun nh => (Set.ext_iff.1 hhops nh).symm⟩
      · rintro hall v ⟨e, lsa, dist, hoffers, rfl⟩
        obtain ⟨hcost, hhops⟩ := hall e lsa dist hoffers
        refine Prod.ext rfl (Prod.ext (summaryDistance_eq_iff.2 hcost) ?_)
        exact Set.ext fun nh => (hhops nh).symm

/-- **The two agree on an LSA when the full one returns and the table fits.** -/
theorem derivesAlike_iff {key : LsaKey} {header : LsaHeader} {summary : Net} :
    policy.DerivesAlike st key header summary ↔
      st.Returns ∧ policy.TableFits st key header summary := by
  have hpfx : (policy.deriveInterAreaNetwork st key header summary).1 = policy.pfx key summary := by
    rw [deriveInterAreaNetwork]
    split_ifs
    · rfl
    · dsimp only
      split <;> rfl
  constructor
  · rintro ⟨k, hk⟩
    obtain ⟨out₀, table₀, hout₀, -⟩ := hk k le_rfl
    have hret := returns_of_derive hout₀
    obtain ⟨k', hk'⟩ := @derive_returns _ _ policy st hret
    obtain ⟨out, table, hout, heq⟩ := hk (max k k') (le_max_left _ _)
    obtain ⟨_, _, hout', hright⟩ := hk' (max k k') (le_max_right _ _)
    cases hout.symm.trans hout'
    exact ⟨hret, (tableFits_iff hright).1 (hpfx ▸ heq)⟩
  · rintro ⟨hret, hfits⟩
    obtain ⟨k, hk⟩ := @derive_returns _ _ policy st hret
    refine ⟨k, fun fuel hfuel => ?_⟩
    obtain ⟨out, table, hout, hright⟩ := hk fuel hfuel
    exact ⟨out, table, hout, hpfx.symm ▸ (tableFits_iff hright).2 hfits⟩

end SummaryPolicy

end VirtualRouter.Ospf
