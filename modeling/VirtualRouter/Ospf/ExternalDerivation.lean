/-
  The external routes (`ospf/topology/RouteManager.cpp`), derived from one external LSA when it
  comes, and from all of the process.

  The two functions check the same things, the age and the router in another order.  The next hop of
  a connected route has no address, and `resolveInternalAddress` asks for it all the same: the
  exception ends the function, which is the result `none` here.

  * `ExternalPolicy.deriveExternalRoute`, `ExternalPolicy.deriveExternalRoutes`;
  * `ExternalPolicy.derivesAlike_iff`: when the two agree on an LSA;
  * `derivation_iff`: when the derivations agree, for routes between areas and for external ones.
-/
import VirtualRouter.Ospf.Derivation
import VirtualRouter.Routing.RibBucket

namespace VirtualRouter.Ospf

open NestedMap

/-! ## The forwarding address -/

/-- The look-up in the routing table of the VRF. -/
structure GlobalRib where
  v4 : BitVec 32 → Option (RibEntry 32)
  v6 : BitVec 128 → Option (RibEntry 128)

/-- `resolveInternalAddress`; `toAddr` is the constructor of `IPAddress`. -/
def resolveInternalAddress {W : ℕ} (toAddr : BitVec W → BitVec 128) (r : Option (RibEntry W)) :
    Option (Option (ℕ × List OspfNextHop)) :=
  match r with
  | none => some none
  | some r =>
    if r.nextHopCount = 0 then some none
    else
      let hopOf (hop : NextHopPath W) : Option OspfNextHop :=
        hop.nextHop.map fun a => ⟨UInt32.ofNat hop.iface, toAddr a⟩
      (r.nextHops.mapM hopOf).map fun hops => some (r.metric, hops)

/-- The type `ExternalLsa` of a version, as `ExtRec` reads it. -/
structure ExternalPolicy (Lsa : Type) where
  pfx : LsaKey → Lsa → IPPrefix
  fwd : Lsa → BitVec 128
  options : Lsa → UInt8
  metric : Lsa → UInt32
  isType2 : Lsa → Bool
  resolve : GlobalRib → BitVec 128 → Option (Option (ℕ × List OspfNextHop))

/-- The external LSAs of OSPFv2: the forwarding address 0 is `::ffff:0.0.0.0`. -/
def ExternalPolicy.V2 : ExternalPolicy ExternalLsaV2 where
  pfx key lsa := .ofAddr (mappedV4 key.linkStateId) (popcount lsa.networkMask)
  fwd lsa := mappedV4 lsa.forwardingAddress
  options _ := 0
  metric lsa := lsa.metric
  isType2 lsa := lsa.isType2
  resolve rib fwd := resolveInternalAddress (fun a => mappedV4 (UInt32.ofBitVec a)) (rib.v4 (addrV4 fwd))

def ExternalPolicy.V3 : ExternalPolicy ExternalLsaV3 where
  pfx _ lsa := .ofAddr lsa.pfx.addr lsa.pfx.prefixLength.toNat
  fwd lsa := lsa.forwardingAddress.getD 0
  options lsa := lsa.options
  metric lsa := lsa.metric
  isType2 lsa := lsa.isType2
  resolve rib fwd := resolveInternalAddress id (rib.v6 fwd)

/-- What the derivations read of the process. -/
structure ExternalState (Lsa : Type) where
  selfRid : UInt32
  globalRib : GlobalRib
  table : TopologyTable
  adminDistance : ℕ
  externalDb : List (LsaKey × LsaHeader × Lsa)

namespace ExternalPolicy

variable {Lsa : Type} (policy : ExternalPolicy Lsa) (st : ExternalState Lsa)

/-! ## The derivations -/

/-- The distance and the next hops to the forwarding address, or else to the router of the LSA. -/
def anchor (key : LsaKey) (lsa : Lsa) : Option (Option (ℕ × List OspfNextHop)) :=
  let toRouter :=
    match st.table.reach.lookup key.advertisingRouter with
    | none => none
    | some rr => if rr.nextHops = [] then none else some (rr.cost, rr.nextHops)
  if policy.fwd lsa ≠ 0 then (policy.resolve st.globalRib (policy.fwd lsa)).map fun res => res.or toRouter
  else some toRouter

def installed (lsa : Lsa) (x : ℕ) : ℕ :=
  if policy.isType2 lsa then (policy.metric lsa).toNat else (x + (policy.metric lsa).toNat) % 2 ^ 64

def externalPath (lsa : Lsa) (r : ℕ × List OspfNextHop) : Option OspfPath :=
  if r.2 = [] then none
  else some (makePath none (policy.options lsa) st.adminDistance (policy.installed lsa r.1) r.2 .EXTERNAL)

def deriveExternalRoute (key : LsaKey) (rec : LsaHeader × Lsa) : Option (IPPrefix × Option OspfPath) :=
  let pfx := policy.pfx key rec.2
  if rec.1.age = OSPF_MAX_AGE then some (pfx, none)
  else if key.advertisingRouter = 0 ∨ key.advertisingRouter = st.selfRid then some (pfx, none)
  else do
    let anchored ← policy.anchor st key rec.2
    some (pfx, anchored.bind (policy.externalPath st rec.2))

/-- The loop of `deriveExternalRoutes`. -/
def deriveEach : List (LsaKey × LsaHeader × Lsa) → Option (List (IPPrefix × OspfPath))
  | [] => some []
  | (key, header, lsa) :: rest =>
    if header.age = OSPF_MAX_AGE then deriveEach rest
    else if key.advertisingRouter = 0 ∨ key.advertisingRouter = st.selfRid then deriveEach rest
    else do
      let anchored ← policy.anchor st key lsa
      let out ← deriveEach rest
      some (((anchored.bind (policy.externalPath st lsa)).map fun path => (policy.pfx key lsa, path)).toList ++ out)

def deriveExternalRoutes : Option (List (IPPrefix × OspfPath)) := policy.deriveEach st st.externalDb

/-! ## Agreement -/

/-- Both return, and the full derivation attributes to the prefix of the LSA what is derived from it. -/
def DerivesAlike (e : LsaKey × LsaHeader × Lsa) : Prop :=
  ∃ out pfx path, policy.deriveExternalRoutes st = some out ∧
    policy.deriveExternalRoute st e.1 e.2 = some (pfx, path) ∧ attributed out pfx = single path

/-- The LSA is not of the maximal age, and it is of another router. -/
def Foreign (e : LsaKey × LsaHeader × Lsa) : Prop :=
  e.2.1.age ≠ OSPF_MAX_AGE ∧ ¬ (e.1.advertisingRouter = 0 ∨ e.1.advertisingRouter = st.selfRid)

/-- The LSA is one of another router, with this distance and these next hops. -/
def Anchored (e : LsaKey × LsaHeader × Lsa) (r : ℕ × List OspfNextHop) : Prop :=
  Foreign st e ∧ policy.anchor st e.1 e.2.2 = some (some r) ∧ r.2 ≠ []

/-- No forwarding address has a route whose next hop has no address. -/
def NoneThrows : Prop := ∀ e ∈ st.externalDb, Foreign st e → policy.anchor st e.1 e.2.2 ≠ none

/-- The LSAs of the prefix that have next hops have the cost and the next hops of this one. -/
def Alone (e : LsaKey × LsaHeader × Lsa) : Prop :=
  ∀ e' ∈ st.externalDb, policy.pfx e'.1 e'.2.2 = policy.pfx e.1 e.2.2 → ∀ r', policy.Anchored st e' r' →
    ∃ r, policy.Anchored st e r ∧ policy.installed e'.2.2 r'.1 = policy.installed e.2.2 r.1 ∧
      ∀ nh, nh ∈ r'.2 ↔ nh ∈ r.2

variable {policy} {st}

def anchorView (policy : ExternalPolicy Lsa) (lsa : Lsa) (r : ℕ × List OspfNextHop) : RouteView :=
  (.EXTERNAL, policy.installed lsa r.1, {nh | nh ∈ r.2})

theorem bind_externalPath {e : LsaKey × LsaHeader × Lsa} (hforeign : Foreign st e)
    {a : Option (ℕ × List OspfNextHop)} (ha : policy.anchor st e.1 e.2.2 = some a) (path : OspfPath) :
    a.bind (policy.externalPath st e.2.2) = some path ↔ ∃ r, policy.Anchored st e r ∧
      path = makePath none (policy.options e.2.2) st.adminDistance (policy.installed e.2.2 r.1) r.2 .EXTERNAL := by
  constructor
  · intro h
    obtain ⟨r, rfl, hpath⟩ := Option.bind_eq_some_iff.1 h
    rw [externalPath] at hpath
    split_ifs at hpath with hnil
    exact ⟨r, ⟨hforeign, ha, hnil⟩, (Option.some.inj hpath).symm⟩
  · rintro ⟨r, hr, rfl⟩
    obtain rfl := Option.some.inj (ha.symm.trans hr.2.1)
    rw [Option.bind_some, externalPath, if_neg hr.2.2]

theorem deriveExternalRoute_spec {e : LsaKey × LsaHeader × Lsa}
    (h : Foreign st e → policy.anchor st e.1 e.2.2 ≠ none) :
    ∃ path, policy.deriveExternalRoute st e.1 e.2 = some (policy.pfx e.1 e.2.2, path) ∧
      single path = {v | ∃ r, policy.Anchored st e r ∧ v = policy.anchorView e.2.2 r} := by
  have hnone (hno : ¬ Foreign st e) :
      single none = {v | ∃ r, policy.Anchored st e r ∧ v = policy.anchorView e.2.2 r} := by
    ext v
    constructor
    · rintro ⟨p, hp, -⟩
      cases hp
    · rintro ⟨r, hr, -⟩
      exact absurd hr.1 hno
  rw [deriveExternalRoute]
  by_cases hage : e.2.1.age = OSPF_MAX_AGE
  · exact ⟨none, if_pos hage, hnone fun hf => hf.1 hage⟩
  · by_cases hself : e.1.advertisingRouter = 0 ∨ e.1.advertisingRouter = st.selfRid
    · exact ⟨none, by rw [if_neg hage, if_pos hself], hnone fun hf => hf.2 hself⟩
    · obtain ⟨a, ha⟩ := Option.ne_none_iff_exists'.1 (h ⟨hage, hself⟩)
      refine ⟨a.bind (policy.externalPath st e.2.2), ?_, ?_⟩
      · simp only [if_neg hage, if_neg hself, ha, Option.bind_eq_bind, Option.bind_some]
      · ext v
        constructor
        · rintro ⟨path, hpath, rfl⟩
          obtain ⟨r, hr, rfl⟩ := (bind_externalPath ⟨hage, hself⟩ ha path).1 hpath
          exact ⟨r, hr, rfl⟩
        · rintro ⟨r, hr, rfl⟩
          exact ⟨_, (bind_externalPath ⟨hage, hself⟩ ha _).2 ⟨r, hr, rfl⟩, rfl⟩

def offered (policy : ExternalPolicy Lsa) (st : ExternalState Lsa) (l : List (LsaKey × LsaHeader × Lsa))
    (pfx : IPPrefix) : Set RouteView :=
  {v | ∃ e ∈ l, policy.pfx e.1 e.2.2 = pfx ∧ ∃ r, policy.Anchored st e r ∧ v = policy.anchorView e.2.2 r}

theorem offered_skip {e : LsaKey × LsaHeader × Lsa} (h : ¬ Foreign st e) (l : List (LsaKey × LsaHeader × Lsa))
    (pfx : IPPrefix) : policy.offered st (e :: l) pfx = policy.offered st l pfx := by
  ext v
  constructor
  · rintro ⟨e', he', hpfx, r, hr, rfl⟩
    rcases List.mem_cons.1 he' with rfl | he'
    · exact absurd hr.1 h
    · exact ⟨e', he', hpfx, r, hr, rfl⟩
  · rintro ⟨e', he', hpfx, r, hr, rfl⟩
    exact ⟨e', List.mem_cons_of_mem _ he', hpfx, r, hr, rfl⟩

theorem attributed_append (out out' : List (IPPrefix × OspfPath)) (pfx : IPPrefix) :
    attributed (out ++ out') pfx = attributed out pfx ∪ attributed out' pfx := by
  ext v
  constructor
  · rintro ⟨path, hpath, rfl⟩
    rcases List.mem_append.1 hpath with hpath | hpath
    · exact Or.inl ⟨path, hpath, rfl⟩
    · exact Or.inr ⟨path, hpath, rfl⟩
  · rintro (⟨path, hpath, rfl⟩ | ⟨path, hpath, rfl⟩)
    · exact ⟨path, List.mem_append_left _ hpath, rfl⟩
    · exact ⟨path, List.mem_append_right _ hpath, rfl⟩

theorem offered_cons {e : LsaKey × LsaHeader × Lsa} (hforeign : Foreign st e)
    {a : Option (ℕ × List OspfNextHop)} (ha : policy.anchor st e.1 e.2.2 = some a)
    (l : List (LsaKey × LsaHeader × Lsa)) (pfx : IPPrefix) :
    policy.offered st (e :: l) pfx =
      attributed ((a.bind (policy.externalPath st e.2.2)).map fun path => (policy.pfx e.1 e.2.2, path)).toList pfx ∪
        policy.offered st l pfx := by
  ext v
  constructor
  · rintro ⟨e', he', rfl, r, hr, rfl⟩
    rcases List.mem_cons.1 he' with rfl | he'
    · refine Or.inl ⟨makePath none (policy.options e'.2.2) st.adminDistance (policy.installed e'.2.2 r.1) r.2
        .EXTERNAL, ?_, rfl⟩
      rw [(bind_externalPath hforeign ha _).2 ⟨r, hr, rfl⟩]
      exact List.mem_singleton.2 rfl
    · exact Or.inr ⟨e', he', rfl, r, hr, rfl⟩
  · rintro (⟨path, hpath, rfl⟩ | ⟨e', he', hpfx, r, hr, rfl⟩)
    · obtain ⟨path', hpath', heq⟩ := Option.map_eq_some_iff.1 (Option.mem_toList.1 hpath)
      obtain ⟨rfl, rfl⟩ := Prod.mk.inj heq
      obtain ⟨r, hr, rfl⟩ := (bind_externalPath hforeign ha _).1 hpath'
      exact ⟨e, List.mem_cons_self, rfl, r, hr, rfl⟩
    · exact ⟨e', List.mem_cons_of_mem _ he', hpfx, r, hr, rfl⟩

/-- **The loop attributes to a prefix what its LSAs offer.** -/
theorem deriveEach_spec {l : List (LsaKey × LsaHeader × Lsa)}
    (h : ∀ e ∈ l, Foreign st e → policy.anchor st e.1 e.2.2 ≠ none) :
    ∃ out, policy.deriveEach st l = some out ∧ ∀ pfx, attributed out pfx = policy.offered st l pfx := by
  induction l with
  | nil =>
    refine ⟨[], rfl, fun pfx => Set.ext fun v => iff_of_false ?_ ?_⟩
    · rintro ⟨path, hpath, -⟩
      cases hpath
    · rintro ⟨e, he, -⟩
      cases he
  | cons e l ih =>
    obtain ⟨out, hout, hview⟩ := ih fun e' he' => h e' (List.mem_cons_of_mem _ he')
    obtain ⟨key, header, lsa⟩ := e
    rw [deriveEach]
    by_cases hage : header.age = OSPF_MAX_AGE
    · refine ⟨out, (if_pos hage).trans hout, fun pfx => ?_⟩
      rw [offered_skip fun hf => hf.1 hage, hview]
    · by_cases hself : key.advertisingRouter = 0 ∨ key.advertisingRouter = st.selfRid
      · refine ⟨out, by rw [if_neg hage, if_pos hself, hout], fun pfx => ?_⟩
        rw [offered_skip fun hf => hf.2 hself, hview]
      · obtain ⟨a, ha⟩ := Option.ne_none_iff_exists'.1 (h _ List.mem_cons_self ⟨hage, hself⟩)
        refine ⟨((a.bind (policy.externalPath st lsa)).map fun path => (policy.pfx key lsa, path)).toList ++ out,
          ?_, fun pfx => ?_⟩
        · dsimp only at ha
          simp only [if_neg hage, if_neg hself, ha, hout, Option.bind_eq_bind, Option.bind_some]
        · rw [attributed_append, hview]
          exact (offered_cons ⟨hage, hself⟩ ha l pfx).symm

theorem not_throws_of_deriveEach {l : List (LsaKey × LsaHeader × Lsa)} {out : List (IPPrefix × OspfPath)}
    (h : policy.deriveEach st l = some out) :
    ∀ e ∈ l, Foreign st e → policy.anchor st e.1 e.2.2 ≠ none := by
  induction l generalizing out with
  | nil => exact fun e he => absurd he List.not_mem_nil
  | cons e l ih =>
    obtain ⟨key, header, lsa⟩ := e
    rw [deriveEach] at h
    intro e' he' hforeign
    by_cases hage : header.age = OSPF_MAX_AGE
    · rw [if_pos hage] at h
      rcases List.mem_cons.1 he' with rfl | he'
      · exact absurd hage hforeign.1
      · exact ih h e' he' hforeign
    · rw [if_neg hage] at h
      by_cases hself : key.advertisingRouter = 0 ∨ key.advertisingRouter = st.selfRid
      · rw [if_pos hself] at h
        rcases List.mem_cons.1 he' with rfl | he'
        · exact absurd hself hforeign.2
        · exact ih h e' he' hforeign
      · rw [if_neg hself] at h
        obtain ⟨a, ha, h⟩ := Option.bind_eq_some_iff.1 h
        obtain ⟨rest, hrest, -⟩ := Option.bind_eq_some_iff.1 h
        rcases List.mem_cons.1 he' with rfl | he'
        · rw [ha]
          exact Option.some_ne_none a
        · exact ih hrest e' he' hforeign

theorem anchorView_eq_iff {lsa lsa' : Lsa} {r r' : ℕ × List OspfNextHop} :
    policy.anchorView lsa' r' = policy.anchorView lsa r ↔
      policy.installed lsa' r'.1 = policy.installed lsa r.1 ∧ ∀ nh, nh ∈ r'.2 ↔ nh ∈ r.2 := by
  rw [anchorView, anchorView, Prod.mk_right_inj, Prod.mk.injEq, Set.ext_iff]
  rfl

/-- **The two agree on an LSA when nothing throws and the LSAs of its prefix have its route.** -/
theorem derivesAlike_iff {e : LsaKey × LsaHeader × Lsa} (he : e ∈ st.externalDb) :
    policy.DerivesAlike st e ↔ policy.NoneThrows st ∧ policy.Alone st e := by
  have hviews (hthrows : policy.NoneThrows st) : policy.DerivesAlike st e ↔
      policy.offered st st.externalDb (policy.pfx e.1 e.2.2) =
        {v | ∃ r, policy.Anchored st e r ∧ v = policy.anchorView e.2.2 r} := by
    obtain ⟨out, hout, hview⟩ := deriveEach_spec hthrows
    obtain ⟨path, hpath, hsingle⟩ := deriveExternalRoute_spec (hthrows e he)
    rw [← hview, ← hsingle]
    constructor
    · rintro ⟨out', pfx, path', hout', hpath', heq⟩
      obtain rfl := Option.some.inj (hout.symm.trans hout')
      obtain ⟨rfl, rfl⟩ := Prod.mk.inj (Option.some.inj (hpath.symm.trans hpath'))
      exact heq
    · exact fun heq => ⟨out, _, path, hout, hpath, heq⟩
  constructor
  · intro h
    have hthrows : policy.NoneThrows st := by
      obtain ⟨out, -, -, hout, -⟩ := h
      exact not_throws_of_deriveEach hout
    refine ⟨hthrows, fun e' he' hpfx r' hr' => ?_⟩
    have hmem : policy.anchorView e'.2.2 r' ∈ policy.offered st st.externalDb (policy.pfx e.1 e.2.2) :=
      ⟨e', he', hpfx, r', hr', rfl⟩
    rw [(hviews hthrows).1 h] at hmem
    obtain ⟨r, hr, hview⟩ := hmem
    exact ⟨r, hr, anchorView_eq_iff.1 hview⟩
  · rintro ⟨hthrows, halone⟩
    rw [hviews hthrows]
    ext v
    constructor
    · rintro ⟨e', he', hpfx, r', hr', rfl⟩
      obtain ⟨r, hr, hview⟩ := halone e' he' hpfx r' hr'
      exact ⟨r, hr, anchorView_eq_iff.2 hview⟩
    · rintro ⟨r, hr, rfl⟩
      exact ⟨e, he, rfl, r, hr, rfl⟩

end ExternalPolicy

/-! ## Both kinds of routes -/

/-- An LSA that a route is derived from, in the state of its version: a summary LSA of an area, or an
    external LSA of the process. -/
inductive DerivationInput where
  | summaryV2 (st : SummaryState SummaryNetworkLsa SummaryRouterLsa) (key : LsaKey) (header : LsaHeader)
      (lsa : SummaryNetworkLsa)
  | summaryV3 (st : SummaryState InterAreaPrefixLsa InterAreaRouterLsa) (key : LsaKey) (header : LsaHeader)
      (lsa : InterAreaPrefixLsa)
  | externalV2 (st : ExternalState ExternalLsaV2) (e : {e // e ∈ st.externalDb})
  | externalV3 (st : ExternalState ExternalLsaV3) (e : {e // e ∈ st.externalDb})

namespace DerivationInput

def DerivesAlike : DerivationInput → Prop
  | summaryV2 st key header lsa => SummaryPolicy.V2.DerivesAlike st key header lsa
  | summaryV3 st key header lsa => SummaryPolicy.V3.DerivesAlike st key header lsa
  | externalV2 st e => ExternalPolicy.V2.DerivesAlike st e
  | externalV3 st e => ExternalPolicy.V3.DerivesAlike st e

/-- For a summary LSA: the full derivation returns, and the table has what the SPF result has for the LSAs
    of the prefix.  For an external LSA: nothing throws, and the LSAs of the prefix have its route. -/
def Fits : DerivationInput → Prop
  | summaryV2 st key header lsa => st.Returns ∧ SummaryPolicy.V2.TableFits st key header lsa
  | summaryV3 st key header lsa => st.Returns ∧ SummaryPolicy.V3.TableFits st key header lsa
  | externalV2 st e => ExternalPolicy.V2.NoneThrows st ∧ ExternalPolicy.V2.Alone st e
  | externalV3 st e => ExternalPolicy.V3.NoneThrows st ∧ ExternalPolicy.V3.Alone st e

end DerivationInput

/-- **When the derivations agree.** -/
theorem derivation_iff (x : DerivationInput) : x.DerivesAlike ↔ x.Fits := by
  cases x with
  | summaryV2 => exact SummaryPolicy.derivesAlike_iff
  | summaryV3 => exact SummaryPolicy.derivesAlike_iff
  | externalV2 st e => exact ExternalPolicy.derivesAlike_iff e.2
  | externalV3 st e => exact ExternalPolicy.derivesAlike_iff e.2

/-! ## A border router next door -/

/-- The SPF result of router 1 with router 2 behind its interface 5. -/
def nextDoorSpf : SpfResult where
  root := .router 1
  nodes v :=
    if v = .router 1 then some { dist := 0, confirmed := true }
    else if v = .router 2 then some { dist := 10, confirmed := true, parents := [⟨.router 1, 5, 5, 10⟩] }
    else none
  confirmedOrder := [.router 1, .router 2]

def nextDoorTraversal : Traversal nextDoorSpf where
  order := [.router 1, .router 2]
  nodup := by decide
  complete v := by
    rw [nextDoorSpf]
    dsimp only
    split_ifs with h h <;> simp [*]

def nextDoorSummary : LsaKey × LsaHeader × SummaryNetworkLsa :=
  (⟨⟨3, 2⟩, 0x0A010000⟩, {}, ⟨0xFFFF0000, 5⟩)

def nextDoor : SummaryState SummaryNetworkLsa SummaryRouterLsa where
  areaId := 0
  ifaces ifid := if ifid = 5 then some fun rid => if rid = 2 then some (mappedV4 0x0A000002) else none else none
  spf := nextDoorSpf
  networks := [(nextDoorSummary.1, ⟨0, 0, {}, some nextDoorSummary.2.2, 0, 0, 0⟩)]
  routers := []
  table := (TopologyTable.consumeSpfResult {} 0 nextDoorSpf nextDoorTraversal).2
  adminDistance := 110
  maxMetricSummary := false

theorem lookup_nextDoor : nextDoor.table.reach.lookup 2 = some ⟨10, [⟨5, 0⟩]⟩ := by
  have hhops : extractNextHops { dist := 10, confirmed := true, parents := [⟨.router 1, 5, 5, 10⟩] } = [⟨5, 0⟩] := by
    rw [extractNextHops, dedupe, sortNextHops]
    exact congrArg uniqueAdjacent (List.mergeSort_singleton _)
  have hcanidates : spfCanidates nextDoorSpf nextDoorTraversal = [⟨2, 10, [⟨5, 0⟩]⟩] := by
    simp [spfCanidates, nextDoorTraversal, spfCanidate, nextDoorSpf, hhops]
  rw [nextDoor, TopologyTable.consumeSpfResult, hcanidates]
  rfl

theorem chainHop_nextDoor {nh : OspfNextHop} :
    ChainHop nextDoor.ifaces nextDoor.spf (.router 2) nh ↔ nh = ⟨5, mappedV4 0x0A000002⟩ := by
  have hnode : nextDoor.spf.nodes (.router 2) =
      some { dist := 10, confirmed := true, parents := [⟨.router 1, 5, 5, 10⟩] } := by decide
  rw [chainHop_iff hnode]
  simp [EntryHop, nextDoor, nextDoorSpf, resolveDirectNextHop, eq_comm]

theorem not_derivation_nextDoor : ¬ ∀ x : DerivationInput, x.DerivesAlike := by
  intro h
  have hfits := (SummaryPolicy.derivesAlike_iff.1
    (h (.summaryV2 nextDoor nextDoorSummary.1 nextDoorSummary.2.1 nextDoorSummary.2.2))).2
  have hlookup : (if nextDoorSummary.2.1.age = OSPF_MAX_AGE then none
      else resolveToAbrs nextDoor.table nextDoorSummary.1.advertisingRouter) = some ⟨10, [⟨5, 0⟩]⟩ := by
    rw [if_neg (by decide)]
    exact lookup_nextDoor
  rw [SummaryPolicy.TableFits, hlookup] at hfits
  have hreach : Reaches nextDoor.ifaces nextDoor.spf 2 10 :=
    ⟨{ dist := 10, confirmed := true, parents := [⟨.router 1, 5, 5, 10⟩] }, by decide, rfl, _, chainHop_nextDoor.2 rfl⟩
  have hhop := (hfits.2 _ nextDoorSummary.2.2 10
    ⟨List.mem_singleton.2 rfl, ⟨rfl, by decide⟩, rfl, hreach⟩).2 ⟨5, 0⟩
  exact absurd (chainHop_nextDoor.1 (hhop.1 (List.mem_singleton.2 rfl))) (by decide)

end VirtualRouter.Ospf
