/-
  The next hops of a vertex (`computeNextHops` of `ospf/topology/RouteManager.cpp`).

  The function goes from a vertex to its parents and so on, up to the root, and keeps what it has
  computed in a cache; it has no set of the vertices that it is working on.  The fuel is the
  depth of the recursion.

  An edge of no cost can make two vertices parents of each other: the equal distance adds a
  parent to a vertex that is confirmed already.  The networks alone do not do so, as no edge
  leads from a network to a network.

  * `resolveDirectNextHop`, `computeNextHops`, `computeAll`;
  * `ChainHop`: the next hops at the ends of the chains of parents;
  * `computeNextHops_of_acc`, `acc_of_computeNextHops`: the recursion returns, and returns
    these, exactly for a vertex without an endless chain;
  * `nextHops_iff`: it does so for all vertices when no kept parents form a cycle of edges of
    no cost;
  * `nextHops_of_pos`: so it does where all links of the routers cost something.
-/
import VirtualRouter.Ospf.SpfFirstHops
import VirtualRouter.Ospf.TopologyTypes

namespace VirtualRouter.Ospf

open ShortestPath

/-! ## The recursion -/

abbrev AreaInterfaces : Type := UInt32 → Option (UInt32 → Option (BitVec 128))

def resolveDirectNextHop (ifaces : AreaInterfaces) (v : Vertex) (pref : ParentRef) :
    Option OspfNextHop :=
  let rid := match v with
    | .router rid => rid
    | .network id => networkAdvRouter id
  match ifaces pref.firstHopIfid with
  | none => none
  | some ntable => (ntable rid).map fun ip => ⟨pref.firstHopIfid, ip⟩

abbrev NhCache : Type := Vertex → Option (List OspfNextHop)

/-- The loop over the parents; `compute` is the recursive call. -/
def resolveParents (compute : Vertex → NhCache → Option (List OspfNextHop × NhCache))
    (direct : ParentRef → Option OspfNextHop) (root : Vertex) :
    List ParentRef → NhCache → Option (List OspfNextHop × NhCache)
  | [], cache => some ([], cache)
  | pref :: rest, cache =>
    if pref.parent = root then do
      let (nhs, cache) ← resolveParents compute direct root rest cache
      some ((direct pref).toList ++ nhs, cache)
    else do
      let (parentNhs, cache) ← compute pref.parent cache
      let (nhs, cache) ← resolveParents compute direct root rest cache
      some (parentNhs ++ nhs, cache)

def computeNextHops (ifaces : AreaInterfaces) (spf : SpfResult) :
    (fuel : ℕ) → Vertex → NhCache → Option (List OspfNextHop × NhCache)
  | 0, _, _ => none
  | fuel + 1, v, cache =>
    match cache v with
    | some nhs => some (nhs, cache)
    | none =>
      match spf.nodes v with
      | none => some ([], Function.update cache v (some []))
      | some node => do
        let (result, cache) ← resolveParents (computeNextHops ifaces spf fuel)
          (resolveDirectNextHop ifaces v) spf.root node.parents cache
        some (dedupe result, Function.update cache v (some (dedupe result)))

/-- The calls for the vertices of a list, one after the other with one cache. -/
def computeAll (ifaces : AreaInterfaces) (spf : SpfResult) (fuel : ℕ) :
    List Vertex → NhCache → Option (List (List OspfNextHop))
  | [], _ => some []
  | v :: vs, cache => do
    let (nhs, cache) ← computeNextHops ifaces spf fuel v cache
    let rest ← computeAll ifaces spf fuel vs cache
    some (nhs :: rest)

/-! ## What it is to return -/

/-- A chain of parents leads from the vertex to one whose parent is the root, and the direct next
    hop of that one is `nh`. -/
inductive ChainHop (ifaces : AreaInterfaces) (spf : SpfResult) : Vertex → OspfNextHop → Prop where
  | direct {v : Vertex} {n : SptNode} {pref : ParentRef} {nh : OspfNextHop}
      (hv : spf.nodes v = some n) (hpref : pref ∈ n.parents) (hroot : pref.parent = spf.root)
      (hnh : resolveDirectNextHop ifaces v pref = some nh) : ChainHop ifaces spf v nh
  | step {v : Vertex} {n : SptNode} {pref : ParentRef} {nh : OspfNextHop}
      (hv : spf.nodes v = some n) (hpref : pref ∈ n.parents) (hroot : pref.parent ≠ spf.root)
      (h : ChainHop ifaces spf pref.parent nh) : ChainHop ifaces spf v nh

def AllHops (ifaces : AreaInterfaces) (spf : SpfResult) (v : Vertex) (nhs : List OspfNextHop) :
    Prop :=
  ∀ nh, nh ∈ nhs ↔ ChainHop ifaces spf v nh

/-- The calls return, whatever vertices are asked for, and return all their next hops. -/
def SpfResult.ResolvesNextHops (spf : SpfResult) : Prop :=
  ∀ (ifaces : AreaInterfaces) (vs : List Vertex), ∃ fuel res,
    computeAll ifaces spf fuel vs (fun _ => none) = some res ∧
      List.Forall₂ (AllHops ifaces spf) vs res

/-- The recursion goes from `v` to its parent `u`. -/
def SpfResult.Follows (spf : SpfResult) (u v : Vertex) : Prop :=
  u ≠ spf.root ∧ ∃ n, spf.nodes v = some n ∧ ∃ pref ∈ n.parents, pref.parent = u

/-! ## The recursion returns -/

section Recursion
variable {ifaces : AreaInterfaces} {spf : SpfResult} {v : Vertex} {fuel : ℕ} {cache cache' : NhCache}
  {nhs : List OspfNextHop}

def CacheRight (ifaces : AreaInterfaces) (spf : SpfResult) (cache : NhCache) : Prop :=
  ∀ v nhs, cache v = some nhs → AllHops ifaces spf v nhs

theorem CacheRight.update (hc : CacheRight ifaces spf cache) (h : AllHops ifaces spf v nhs) :
    CacheRight ifaces spf (Function.update cache v (some nhs)) := by
  intro w m hm
  by_cases hw : w = v
  · rw [hw, Function.update_self] at hm
    rw [hw, ← Option.some.inj hm]
    exact h
  · rw [Function.update_of_ne hw] at hm
    exact hc w m hm

/-- From this depth on the call returns the next hops, whatever is cached. -/
def ReturnsFrom (ifaces : AreaInterfaces) (spf : SpfResult) (v : Vertex) (k : ℕ) : Prop :=
  ∀ fuel ≥ k, ∀ cache, CacheRight ifaces spf cache → ∃ nhs cache',
    computeNextHops ifaces spf fuel v cache = some (nhs, cache') ∧
      AllHops ifaces spf v nhs ∧ CacheRight ifaces spf cache'

/-- The next hops that the entries of `v` give. -/
def EntryHop (ifaces : AreaInterfaces) (spf : SpfResult) (v : Vertex) (prefs : List ParentRef)
    (nh : OspfNextHop) : Prop :=
  ∃ pref ∈ prefs, if pref.parent = spf.root then resolveDirectNextHop ifaces v pref = some nh
    else ChainHop ifaces spf pref.parent nh

theorem entryHop_cons {pref : ParentRef} {prefs : List ParentRef} {nh : OspfNextHop} :
    EntryHop ifaces spf v (pref :: prefs) nh ↔
      (if pref.parent = spf.root then resolveDirectNextHop ifaces v pref = some nh
        else ChainHop ifaces spf pref.parent nh) ∨ EntryHop ifaces spf v prefs nh :=
  List.exists_mem_cons_iff _ _ _

theorem chainHop_iff {n : SptNode} (hv : spf.nodes v = some n) (nh : OspfNextHop) :
    ChainHop ifaces spf v nh ↔ EntryHop ifaces spf v n.parents nh := by
  constructor
  · rintro (⟨hv', hpref, hroot, hnh⟩ | ⟨hv', hpref, hroot, h⟩)
    · obtain rfl := Option.some.inj (hv.symm.trans hv')
      exact ⟨_, hpref, by rwa [if_pos hroot]⟩
    · obtain rfl := Option.some.inj (hv.symm.trans hv')
      exact ⟨_, hpref, by rwa [if_neg hroot]⟩
  · rintro ⟨pref, hpref, h⟩
    split_ifs at h with hroot
    · exact .direct hv hpref hroot h
    · exact .step hv hpref hroot h

theorem resolveParents_returns (prefs : List ParentRef)
    (h : ∀ pref ∈ prefs, pref.parent ≠ spf.root → ∃ k, ReturnsFrom ifaces spf pref.parent k) :
    ∃ k, ∀ fuel ≥ k, ∀ cache, CacheRight ifaces spf cache → ∃ nhs cache',
      resolveParents (computeNextHops ifaces spf fuel) (resolveDirectNextHop ifaces v) spf.root prefs
        cache = some (nhs, cache') ∧
      (∀ nh, nh ∈ nhs ↔ EntryHop ifaces spf v prefs nh) ∧ CacheRight ifaces spf cache' := by
  induction prefs with
  | nil =>
    refine ⟨0, fun fuel _ cache hc => ⟨[], cache, rfl, fun nh => ?_, hc⟩⟩
    simp [EntryHop]
  | cons pref prefs ih =>
    obtain ⟨k, hk⟩ := ih fun p hp => h p (List.mem_cons_of_mem _ hp)
    by_cases hroot : pref.parent = spf.root
    · refine ⟨k, fun fuel hfuel cache hc => ?_⟩
      obtain ⟨nhs, cache', hres, hnhs, hc'⟩ := hk fuel hfuel cache hc
      refine ⟨_, cache', by rw [resolveParents, if_pos hroot, hres]; rfl, fun nh => ?_, hc'⟩
      rw [List.mem_append, Option.mem_toList, hnhs, entryHop_cons, if_pos hroot]
    · obtain ⟨k', hk'⟩ := h pref List.mem_cons_self hroot
      refine ⟨max k k', fun fuel hfuel cache hc => ?_⟩
      obtain ⟨pnhs, cache₁, hparent, hpnhs, hc₁⟩ := hk' fuel ((le_max_right _ _).trans hfuel) cache hc
      obtain ⟨nhs, cache', hres, hnhs, hc'⟩ := hk fuel ((le_max_left _ _).trans hfuel) cache₁ hc₁
      refine ⟨pnhs ++ nhs, cache', ?_, fun nh => ?_, hc'⟩
      · simp only [resolveParents, if_neg hroot, hparent, hres, Option.bind_eq_bind, Option.bind_some]
      · rw [List.mem_append, hpnhs, hnhs, entryHop_cons, if_neg hroot]

/-- **Where no chain of parents is endless, the recursion returns the next hops.** -/
theorem returns_of_acc (h : Acc spf.Follows v) : ∃ k, ReturnsFrom ifaces spf v k := by
  induction h with
  | intro v _ ih =>
    cases hv : spf.nodes v with
    | none =>
      refine ⟨1, fun fuel hfuel cache hc => ?_⟩
      obtain ⟨fuel, rfl⟩ := Nat.exists_eq_add_of_le' hfuel
      have hnil : AllHops ifaces spf v [] := by
        refine fun nh => iff_of_false List.not_mem_nil fun hnh => ?_
        rcases hnh with ⟨hv', -, -, -⟩ | ⟨hv', -, -, -⟩
        · rw [hv] at hv'
          cases hv'
        · rw [hv] at hv'
          cases hv'
      rw [computeNextHops]
      cases hcache : cache v with
      | none => exact ⟨[], _, by rw [hv], hnil, hc.update hnil⟩
      | some nhs => exact ⟨nhs, cache, rfl, hc v nhs hcache, hc⟩
    | some n =>
      obtain ⟨k, hk⟩ := resolveParents_returns (v := v) n.parents fun pref hpref hroot =>
        ih pref.parent ⟨hroot, n, hv, pref, hpref, rfl⟩
      refine ⟨k + 1, fun fuel hfuel cache hc => ?_⟩
      obtain ⟨fuel, rfl⟩ := Nat.exists_eq_add_of_le' (le_of_add_le_right hfuel)
      rw [computeNextHops]
      cases hcache : cache v with
      | some nhs => exact ⟨nhs, cache, rfl, hc v nhs hcache, hc⟩
      | none =>
        obtain ⟨nhs, cache', hres, hnhs, hc'⟩ := hk fuel (Nat.le_of_succ_le_succ hfuel) cache hc
        have hall : AllHops ifaces spf v (dedupe nhs) := by
          intro nh
          rw [mem_dedupe, hnhs, chainHop_iff hv]
        refine ⟨dedupe nhs, _, ?_, hall, hc'.update hall⟩
        simp only [hv, hres, Option.bind_eq_bind, Option.bind_some]

/-- A vertex that the recursion is never called for again has no endless chain. -/
def CacheAcc (spf : SpfResult) (cache : NhCache) : Prop :=
  ∀ v nhs, cache v = some nhs → Acc spf.Follows v

theorem CacheAcc.update (hc : CacheAcc spf cache) (h : Acc spf.Follows v) :
    CacheAcc spf (Function.update cache v (some nhs)) := by
  intro w m hm
  by_cases hw : w = v
  · rw [hw]
    exact h
  · rw [Function.update_of_ne hw] at hm
    exact hc w m hm

theorem resolveParents_acc {compute : Vertex → NhCache → Option (List OspfNextHop × NhCache)}
    (ih : ∀ {v cache nhs cache'}, compute v cache = some (nhs, cache') → CacheAcc spf cache →
      Acc spf.Follows v ∧ CacheAcc spf cache')
    {direct : ParentRef → Option OspfNextHop} {prefs : List ParentRef}
    (h : resolveParents compute direct spf.root prefs cache = some (nhs, cache'))
    (hc : CacheAcc spf cache) :
    (∀ pref ∈ prefs, pref.parent ≠ spf.root → Acc spf.Follows pref.parent) ∧
      CacheAcc spf cache' := by
  induction prefs generalizing cache nhs with
  | nil =>
    cases h
    exact ⟨fun _ hpref => absurd hpref List.not_mem_nil, hc⟩
  | cons pref prefs ihl =>
    rw [resolveParents] at h
    split_ifs at h with hroot
    · obtain ⟨⟨nhs₁, cache₁⟩, hrest, hret⟩ := Option.bind_eq_some_iff.1 h
      cases hret
      obtain ⟨hall, hc'⟩ := ihl hrest hc
      refine ⟨fun p hp hne => ?_, hc'⟩
      rcases List.mem_cons.1 hp with rfl | hp
      · exact absurd hroot hne
      · exact hall p hp hne
    · obtain ⟨⟨nhs₁, cache₁⟩, hparent, h⟩ := Option.bind_eq_some_iff.1 h
      obtain ⟨⟨nhs₂, cache₂⟩, hrest, hret⟩ := Option.bind_eq_some_iff.1 h
      cases hret
      obtain ⟨hacc, hc₁⟩ := ih hparent hc
      obtain ⟨hall, hc'⟩ := ihl hrest hc₁
      refine ⟨fun p hp hne => ?_, hc'⟩
      rcases List.mem_cons.1 hp with rfl | hp
      · exact hacc
      · exact hall p hp hne

/-- **Where the recursion returns, no chain of parents is endless.** -/
theorem acc_of_returns (h : computeNextHops ifaces spf fuel v cache = some (nhs, cache'))
    (hc : CacheAcc spf cache) : Acc spf.Follows v ∧ CacheAcc spf cache' := by
  induction fuel generalizing v cache cache' nhs with
  | zero => cases h
  | succ fuel ih =>
    rw [computeNextHops] at h
    cases hcache : cache v with
    | some m =>
      rw [hcache] at h
      cases h
      exact ⟨hc v _ hcache, hc⟩
    | none =>
      rw [hcache] at h
      dsimp only at h
      cases hv : spf.nodes v with
      | none =>
        rw [hv] at h
        cases h
        have hacc : Acc spf.Follows v := by
          refine Acc.intro v fun u hu => ?_
          obtain ⟨-, n, hn, -⟩ := hu
          rw [hv] at hn
          cases hn
        exact ⟨hacc, hc.update hacc⟩
      | some n =>
        rw [hv] at h
        obtain ⟨⟨res, cache₁⟩, hres, hret⟩ := Option.bind_eq_some_iff.1 h
        cases hret
        obtain ⟨hall, hc'⟩ := resolveParents_acc (fun hcall => ih hcall) hres hc
        have hacc : Acc spf.Follows v := by
          refine Acc.intro v fun u hu => ?_
          obtain ⟨hne, n', hn', pref, hpref, rfl⟩ := hu
          obtain rfl := Option.some.inj (hv.symm.trans hn')
          exact hall pref hpref hne
        exact ⟨hacc, hc'.update hacc⟩

theorem resolvesNextHops_iff_acc : spf.ResolvesNextHops ↔ ∀ v, Acc spf.Follows v := by
  constructor
  · intro h v
    obtain ⟨fuel, res, hres, -⟩ := h (fun _ => none) [v]
    obtain ⟨⟨nhs, cache'⟩, hcall, -⟩ := Option.bind_eq_some_iff.1 hres
    exact (acc_of_returns hcall nofun).1
  · intro h ifaces vs
    suffices hall : ∃ k, ∀ fuel ≥ k, ∀ cache, CacheRight ifaces spf cache → ∃ res,
        computeAll ifaces spf fuel vs cache = some res ∧
          List.Forall₂ (AllHops ifaces spf) vs res by
      obtain ⟨k, hk⟩ := hall
      obtain ⟨res, hres⟩ := hk k le_rfl (fun _ => none) nofun
      exact ⟨k, res, hres⟩
    induction vs with
    | nil => exact ⟨0, fun fuel _ cache _ => ⟨[], rfl, .nil⟩⟩
    | cons v vs ih =>
      obtain ⟨k, hk⟩ := @returns_of_acc ifaces spf v (h v)
      obtain ⟨k', hk'⟩ := ih
      refine ⟨max k k', fun fuel hfuel cache hc => ?_⟩
      obtain ⟨nhs, cache₁, hcall, hnhs, hc₁⟩ := hk fuel ((le_max_left _ _).trans hfuel) cache hc
      obtain ⟨res, hres, hforall⟩ := hk' fuel ((le_max_right _ _).trans hfuel) cache₁ hc₁
      refine ⟨nhs :: res, ?_, .cons hnhs hforall⟩
      simp only [computeAll, hcall, hres, Option.bind_eq_bind, Option.bind_some]

end Recursion

/-! ## Cycles of parents -/

theorem acc_of_acyclic {α : Type*} {r : α → α → Prop} {s : Set α} (hs : s.Finite)
    (hsub : ∀ a b, r a b → a ∈ s) (h : ∀ a, ¬ Relation.TransGen r a a) (b : α) : Acc r b := by
  have hfinite : Finite s := hs
  have hwf : WellFounded fun x y : s => Relation.TransGen r x.1 y.1 := by
    have : IsTrans s fun x y => Relation.TransGen r x.1 y.1 := ⟨fun _ _ _ => Relation.TransGen.trans⟩
    have : Std.Irrefl fun x y : s => Relation.TransGen r x.1 y.1 := ⟨fun x => h x.1⟩
    exact Finite.wellFounded_of_trans_of_irrefl _
  have hacc : ∀ x : s, Acc r x.1 := by
    intro x
    induction x using hwf.induction with
    | _ x ih => exact Acc.intro x.1 fun a ha => ih ⟨a, hsub a x.1 ha⟩ (.single ha)
  exact Acc.intro b fun a ha => hacc ⟨a, hsub a b ha⟩

theorem not_acc_of_cycle {α : Type*} {r : α → α → Prop} {a : α} (h : Relation.TransGen r a a) :
    ¬ Acc r a := by
  intro hacc
  have hclosure := hacc.transGen
  clear hacc
  induction hclosure with
  | intro a _ ih => exact ih a h h

section Cycle
variable {Link : Type} {topo : SpfTopology Link} {root : Vertex} {rid : UInt32} {maxPaths : UInt8}
  {fuel : ℕ} {res : SpfResult}

/-- The entry of `v` is kept: there are not as many before it as there may be paths. -/
def Kept (topo : SpfTopology Link) (root : Vertex) (maxPaths : UInt8) (order : List Vertex)
    (v : Vertex) (pr : ParentRef) : Prop :=
  ParentEntry topo root (ForwardHop topo root order) v pr ∧
    (maxPaths = 0 ∨ {p | ParentEntry topo root (ForwardHop topo root order) v p ∧
      parentLess p pr = true}.encard < maxPaths.toNat)

/-- Neither is the root, and `v` keeps an entry for an edge of no cost from `u`. -/
def ZeroParent (topo : SpfTopology Link) (root : Vertex) (maxPaths : UInt8) (order : List Vertex)
    (u v : Vertex) : Prop :=
  u ≠ root ∧ v ≠ root ∧ ∃ pr, Kept topo root maxPaths order v pr ∧ pr.parent = u ∧ pr.edgeCost = 0

/-- No entries that are kept form a cycle of edges of no cost; the order of confirmation, on which
    the first hops that are passed on depend, is that of the graph. -/
def ZeroCycleFree (topo : SpfTopology Link) (root : Vertex) (maxPaths : UInt8) : Prop :=
  ∀ order, SettleOrder topo root order →
    ∀ v, ¬ Relation.TransGen (ZeroParent topo root maxPaths order) v v

theorem root_of_runFull (h : runFull topo rid maxPaths fuel = some res) : res.root = .router rid := by
  obtain ⟨s, hinv, -, rfl⟩ := exists_of_runFull h
  exact hinv.root_eq

theorem follows_iff (h : runFull topo rid maxPaths fuel = some res) {u v : Vertex}
    (hv : v ≠ .router rid) : res.Follows u v ↔
      u ≠ .router rid ∧
        ∃ pr, Kept topo (.router rid) maxPaths res.confirmedOrder v pr ∧ pr.parent = u := by
  rw [SpfResult.Follows, root_of_runFull h]
  refine and_congr_right fun _ => ⟨?_, ?_⟩
  · rintro ⟨n, hn, pr, hpr, hu⟩
    exact ⟨pr, (mem_parents_of_runFull h hn hv pr).1 hpr, hu⟩
  · rintro ⟨pr, hkept, hu⟩
    obtain ⟨-, d, -, hd⟩ := hkept.1.tight
    obtain ⟨n, hn⟩ := ((runFull_shortestPaths h).reached v).2 (reachable_iff.2 ⟨_, hd⟩)
    exact ⟨n, hn, pr, (mem_parents_of_runFull h hn hv pr).2 hkept, hu⟩

theorem zeroParent_of_follows (h : runFull topo rid maxPaths fuel = some res) {u v : Vertex}
    (huv : Relation.TransGen res.Follows u v) (hv : v ≠ .router rid) :
    u ≠ .router rid ∧ ∃ d d', IsDist topo.Arc (.router rid) u d ∧ IsDist topo.Arc (.router rid) v d' ∧
      d ≤ d' ∧ (d = d' → Relation.TransGen
        (ZeroParent topo (.router rid) maxPaths res.confirmedOrder) u v) := by
  induction huv with
  | single hstep =>
    obtain ⟨hu, pr, hkept, rfl⟩ := (follows_iff h hv).1 hstep
    obtain ⟨-, d, hd, hd'⟩ := hkept.1.tight
    refine ⟨hu, d, _, hd, hd', Nat.le_add_right _ _, fun heq => .single ⟨hu, hv, pr, hkept, rfl, ?_⟩⟩
    exact Nat.add_eq_left.1 heq.symm
  | tail _ hstep ih =>
    obtain ⟨hw, pr, hkept, rfl⟩ := (follows_iff h hv).1 hstep
    obtain ⟨-, d₁, hd₁, hd'⟩ := hkept.1.tight
    obtain ⟨hu, d, d₂, hd, hd₂, hle, hzero⟩ := ih hw
    obtain rfl := hd₁.unique hd₂
    refine ⟨hu, d, _, hd, hd', hle.trans (Nat.le_add_right _ _), fun heq => ?_⟩
    dsimp only at heq
    refine (hzero (by omega)).tail ⟨hw, hv, pr, hkept, rfl, by omega⟩

/-- **When no chain of parents is endless**: when there are no cycles of no cost. -/
theorem acc_follows_iff (h : runFull topo rid maxPaths fuel = some res) :
    (∀ v, Acc res.Follows v) ↔ ZeroCycleFree topo (.router rid) maxPaths := by
  have hroot := root_of_runFull h
  constructor
  · intro hacc order horder v hcycle
    obtain rfl := horder.unique (settleOrder_of_runFull h)
    have hle : ∀ u w, ZeroParent topo (.router rid) maxPaths res.confirmedOrder u w →
        res.Follows u w := by
      rintro u w ⟨hu, hw, pr, hkept, hparent, -⟩
      exact (follows_iff h hw).2 ⟨hu, pr, hkept, hparent⟩
    exact not_acc_of_cycle (Relation.TransGen.mono hle v v hcycle) (hacc v)
  · intro hfree
    have hacyclic : ∀ v, ¬ Relation.TransGen res.Follows v v := by
      intro v hcycle
      obtain ⟨w, hvw, -⟩ := Relation.TransGen.head'_iff.1 hcycle
      have hv : v ≠ .router rid := hroot ▸ hvw.1
      obtain ⟨-, d, d', hd, hd', -, hzero⟩ := zeroParent_of_follows h hcycle hv
      exact hfree _ (settleOrder_of_runFull h) v (hzero (hd.unique hd'))
    -- the parents of the vertices that were found
    let parents := res.confirmedOrder.flatMap fun v =>
      ((res.nodes v).map fun n => n.parents.map ParentRef.parent).getD []
    refine acc_of_acyclic (s := {u | u ∈ parents}) (List.finite_toSet _) ?_ hacyclic
    rintro u v ⟨-, n, hn, pr, hpr, rfl⟩
    have hsp := runFull_shortestPaths h
    refine List.mem_flatMap.2 ⟨v, (hsp.listed v).2 ((hsp.reached v).1 ⟨n, hn⟩), ?_⟩
    rw [hn]
    exact List.mem_map_of_mem hpr

/-- **When the next hops are computed**: the full computation ends, and with its result the calls
    return all next hops of the vertices if and only if there are no cycles of no cost. -/
theorem nextHops_iff (topo : SpfTopology Link) (rid : UInt32) (maxPaths : UInt8) :
    ∃ k res, (∀ fuel ≥ k, runFull topo rid maxPaths fuel = some res) ∧
      (res.ResolvesNextHops ↔ ZeroCycleFree topo (.router rid) maxPaths) := by
  obtain ⟨k, res, hrun⟩ := runFull_terminates topo rid maxPaths
  refine ⟨k, res, hrun, ?_⟩
  rw [resolvesNextHops_iff_acc, acc_follows_iff (hrun k le_rfl)]

/-- The networks alone make no cycle: there is none where all links of the routers cost something. -/
theorem zeroCycleFree_of_pos (h : ∀ rid, ∀ l ∈ topo.links rid, 0 < topo.policy.metric l) :
    ZeroCycleFree topo root maxPaths := by
  have hedge : ∀ u v, ∀ order, ZeroParent topo root maxPaths order u v →
      (∃ id, u = .network id) ∧ ∃ rid, v = .router rid := by
    rintro u v order ⟨-, -, pr, hkept, rfl, hcost⟩
    have hedge := hkept.1.tight.1
    cases hu : pr.parent with
    | router rid =>
      rw [hu] at hedge
      obtain ⟨l, hl, hmetric⟩ := SpfTopology.exists_link_of_edge hedge
      rw [hcost] at hmetric
      have hpos := h rid l hl
      rw [UInt16.lt_iff_toNat_lt, ← hmetric] at hpos
      exact absurd hpos (Nat.not_lt_zero _)
    | network id =>
      rw [hu] at hedge
      obtain ⟨rid, -, heq⟩ := List.mem_map.1 hedge
      exact ⟨⟨id, rfl⟩, rid, (congrArg SpfEdge.dst heq).symm⟩
  intro order _ v hcycle
  obtain ⟨w, hvw, -⟩ := Relation.TransGen.head'_iff.1 hcycle
  obtain ⟨w', -, hwv⟩ := Relation.TransGen.tail'_iff.1 hcycle
  obtain ⟨⟨id, rfl⟩, -⟩ := hedge _ _ _ hvw
  obtain ⟨-, rid, hrid⟩ := hedge _ _ _ hwv
  cases hrid

/-- **Where all links of the routers cost something**, whatever the networks are, all next hops are
    computed. -/
theorem nextHops_of_pos {topo : SpfTopology Link}
    (h : ∀ rid, ∀ l ∈ topo.links rid, 0 < topo.policy.metric l) (rid : UInt32) (maxPaths : UInt8) :
    ∃ k res, (∀ fuel ≥ k, runFull topo rid maxPaths fuel = some res) ∧ res.ResolvesNextHops := by
  obtain ⟨k, res, hrun⟩ := runFull_terminates topo rid maxPaths
  refine ⟨k, res, hrun, ?_⟩
  rw [resolvesNextHops_iff_acc, acc_follows_iff (hrun k le_rfl)]
  exact zeroCycleFree_of_pos h

end Cycle

/-! ## Two routers that are parents of each other -/

/-- The router 1 with a link to 2, and a link of no cost between 2 and 3. -/
def zeroLinkTopology : SpfTopology RouterLinkV3 := SpfTopology.ofV3
  { rtr := fun rid =>
      if rid = 1 then [[p2pLink 1 1 2]]
      else if rid = 2 then [[p2pLink 1 1 1, p2pLink 2 0 3]]
      else if rid = 3 then [[p2pLink 1 0 2]]
      else []
    net := fun _ => none
    netV2ByLsId := fun _ => none }

/-- The next hops are returned when the link costs 7. -/
theorem nextHops_of_pos_cost :
    let topo := SpfTopology.ofV3
      { rtr := fun rid => if rid = 2 then [[p2pLink 2 7 3]] else if rid = 3 then [[p2pLink 1 7 2]] else []
        net := fun _ => none
        netV2ByLsId := fun _ => none }
    ∃ k res, (∀ fuel ≥ k, runFull topo 2 4 fuel = some res) ∧ res.ResolvesNextHops := by
  refine nextHops_of_pos (fun rid l hl => ?_) 2 4
  simp only [SpfTopology.links, SpfTopology.ofV3] at hl
  split_ifs at hl <;> simp at hl <;> subst hl <;> decide

/-- The next hops of 2 and of 3 are never returned. -/
theorem not_resolvesNextHops_zeroLink : ¬ ∀ (topo : SpfTopology RouterLinkV3) (rid : UInt32)
    (maxPaths : UInt8) (fuel : ℕ) (res : SpfResult), runFull topo rid maxPaths fuel = some res →
    res.ResolvesNextHops := by
  intro h
  have hparents : (runFull zeroLinkTopology 1 4 8).map (fun r => (r.root,
      (r.nodes (.router 2)).map SptNode.parents, (r.nodes (.router 3)).map SptNode.parents)) =
      some (.router 1, some [⟨.router 1, 1, 1, 1⟩, ⟨.router 3, 1, 1, 0⟩],
        some [⟨.router 2, 1, 2, 0⟩]) := by decide +kernel
  obtain ⟨res, hrun, hres⟩ := Option.map_eq_some_iff.1 hparents
  obtain ⟨hroot, hres⟩ := Prod.mk.inj hres
  obtain ⟨h2, h3⟩ := Prod.mk.inj hres
  obtain ⟨n, hn, hnp⟩ := Option.map_eq_some_iff.1 h2
  obtain ⟨m, hm, hmp⟩ := Option.map_eq_some_iff.1 h3
  have h32 : res.Follows (.router 3) (.router 2) :=
    ⟨by rw [hroot]; decide, n, hn, ⟨.router 3, 1, 1, 0⟩, by rw [hnp]; decide, rfl⟩
  have h23 : res.Follows (.router 2) (.router 3) :=
    ⟨by rw [hroot]; decide, m, hm, ⟨.router 2, 1, 2, 0⟩, by rw [hmp]; decide, rfl⟩
  have hacc := resolvesNextHops_iff_acc.1 (h _ _ _ _ _ hrun) (.router 2)
  exact not_acc_of_cycle ((Relation.TransGen.single h23).tail h32) hacc

end VirtualRouter.Ospf
