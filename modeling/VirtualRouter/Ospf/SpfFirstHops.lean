/-
  The first hops that the full shortest-path computation finds.

  `finalizeParents` does not pass first hops on.  They are passed on when an edge
  is relaxed, so that a vertex that gets a further parent after it was expanded
  keeps the first hop of that parent to itself.  With edges of cost zero out of
  the networks, and routers taken before networks at the same distance, this
  happens as soon as a router is reached over two networks.

  The order in which the vertices are confirmed can be told from the graph: it is
  the one in which the next vertex is the nearest of those behind a tight edge,
  routers before networks and small ids first.

  * `SettleOrder`, `settleOrder_of_runFull`, `SettleOrder.unique`: the order of confirmation;
  * `FirstHopsComplete`, `HopsForward`: all first hops are found, and when this is so;
  * `firstHopsComplete_iff`.
-/
import VirtualRouter.Ospf.SpfFinal

namespace VirtualRouter.Ospf

open ShortestPath

section
variable {Link : Type} (topo : SpfTopology Link) (root : Vertex)

/-! ## The order of confirmation -/

/-- A vertex outside of the list that a tight edge out of the list leads to. -/
def Adjoins (l : List Vertex) (v : Vertex) : Prop := v ∉ l ∧ ∃ u ∈ l, ∃ e, Tight topo root u e ∧ e.dst = v

/-- `v` is not behind `w` by distance, type and id. -/
def NotAfter (v w : Vertex) : Prop :=
  ∀ d d', IsDist topo.Arc root v d → IsDist topo.Arc root w d' → QItem.gt ⟨d, v⟩ ⟨d', w⟩ = false

/-- The order of confirmation: all vertices that can be reached, each of them the first among those
    that adjoin the ones in front of it. -/
structure SettleOrder (order : List Vertex) : Prop where
  head : order.head? = some root
  nodup : order.Nodup
  mem : ∀ v, v ∈ order ↔ Reachable topo root v
  next : ∀ l₁ v l₂, order = l₁ ++ v :: l₂ → l₁ ≠ [] →
    Adjoins topo root l₁ v ∧ ∀ w, Adjoins topo root l₁ w → NotAfter topo root v w

end

section
variable {Link : Type} {topo : SpfTopology Link} {root v w : Vertex}

theorem NotAfter.antisymm (hv : Reachable topo root v) (hw : Reachable topo root w) (h : NotAfter topo root v w)
    (h' : NotAfter topo root w v) : v = w := by
  obtain ⟨d, hd⟩ := reachable_iff.1 hv
  obtain ⟨d', hd'⟩ := reachable_iff.1 hw
  have hlt := QItem.gt_eq_false_iff.1 (h d d' hd hd')
  have hgt := QItem.gt_eq_false_iff.1 (h' d' d hd' hd)
  dsimp only at hlt hgt
  exact Vertex.ext_id (by omega) (by omega)

/-- **There is one such order.**  By induction on the number of vertices in front. -/
theorem SettleOrder.unique {o o' : List Vertex} (h : SettleOrder topo root o) (h' : SettleOrder topo root o') :
    o = o' := by
  have hperm : o.Perm o' := (List.perm_ext_iff_of_nodup h.nodup h'.nodup).2 fun v => (h.mem v).trans (h'.mem v).symm
  have hlen := hperm.length_eq
  refine List.ext_getElem hlen fun k hk hk' => ?_
  induction k using Nat.strong_induction_on with
  | _ k ih =>
    have hsplit : o = o.take k ++ o[k] :: o.drop (k + 1) := by simp
    have hsplit' : o' = o'.take k ++ o'[k] :: o'.drop (k + 1) := by simp
    have htake : o.take k = o'.take k := by
      refine List.ext_getElem (by simp [hlen]) fun j hj hj' => ?_
      have hjk : j < k := by
        rw [List.length_take] at hj
        omega
      rw [List.getElem_take, List.getElem_take]
      exact ih j hjk (by omega) (by omega)
    cases k with
    | zero =>
      have hhead := h.head
      have hhead' := h'.head
      rw [List.head?_eq_getElem?, List.getElem?_eq_getElem hk, Option.some.injEq] at hhead
      rw [List.head?_eq_getElem?, List.getElem?_eq_getElem hk', Option.some.injEq] at hhead'
      exact hhead.trans hhead'.symm
    | succ k =>
      have hne : o.take (k + 1) ≠ [] := by
        intro hnil
        have hzero := congrArg List.length hnil
        rw [List.length_take, List.length_nil] at hzero
        omega
      obtain ⟨hadj, hmin⟩ := h.next _ _ _ hsplit hne
      obtain ⟨hadj', hmin'⟩ := h'.next _ _ _ hsplit' (htake ▸ hne)
      refine NotAfter.antisymm ((h.mem _).1 (List.getElem_mem hk)) ((h'.mem _).1 (List.getElem_mem hk')) ?_ ?_
      · exact hmin _ (htake ▸ hadj')
      · exact hmin' _ (htake ▸ hadj)

variable {rid : UInt32} {maxPaths : UInt8} {fuel : ℕ} {res : SpfResult}

theorem Precedes.mem_front {l l₁ l₂ : List Vertex} {a b : Vertex} (h : Precedes l a b) (hnodup : l.Nodup)
    (heq : l = l₁ ++ b :: l₂) : a ∈ l₁ := by
  obtain ⟨m₁, m₂, heq', ha⟩ := h
  have hb : b ∉ l₁ := fun hb => (List.nodup_append'.1 (heq ▸ hnodup)).2.2 hb (.head _)
  have hb' : b ∉ m₁ := fun hb => (List.nodup_append'.1 (heq' ▸ hnodup)).2.2 hb (.head _)
  have hidx : l.idxOf b = l₁.length := by
    rw [heq, List.idxOf_append_of_notMem hb, List.idxOf_cons_self, Nat.add_zero]
  have hidx' : l.idxOf b = m₁.length := by
    rw [heq', List.idxOf_append_of_notMem hb', List.idxOf_cons_self, Nat.add_zero]
  obtain ⟨rfl, -⟩ := List.append_inj (heq.symm.trans heq') (hidx.symm.trans hidx')
  exact ha

/-- **The vertices are confirmed in that order.** -/
theorem settleOrder_of_runFull (h : runFull topo rid maxPaths fuel = some res) :
    SettleOrder topo (.router rid) res.confirmedOrder := by
  have hpaths := runFull_shortestPaths h
  obtain ⟨s, hinv, hdone, rfl⟩ := exists_of_runFull h
  refine ⟨hinv.root_first, hinv.nodup, hpaths.listed, fun l₁ v l₂ heq hne => ⟨⟨?_, ?_⟩, ?_⟩⟩
  · have hnodup := hinv.nodup
    rw [show s.res.confirmedOrder = l₁ ++ v :: l₂ from heq] at hnodup
    exact fun hv => (List.nodup_append'.1 hnodup).2.2 hv (.head _)
  · have hv : v ∈ s.res.confirmedOrder := by
      rw [show s.res.confirmedOrder = l₁ ++ v :: l₂ from heq]
      exact List.mem_append_right _ (.head _)
    obtain ⟨n, hn, -⟩ := (hinv.listed v).1 hv
    have hroot : v ≠ .router rid := by
      rintro rfl
      -- the root is the first one
      obtain ⟨a, l₁, rfl⟩ := List.exists_cons_of_ne_nil hne
      have hfirst := hinv.root_first
      have hnodup := hinv.nodup
      rw [show s.res.confirmedOrder = a :: l₁ ++ .router rid :: l₂ from heq] at hfirst hnodup
      obtain rfl : a = .router rid := Option.some.inj hfirst
      exact (List.nodup_append'.1 hnodup).2.2 (.head _) (.head _)
    obtain ⟨pr, hpr, hprec⟩ := hinv.early hv hroot hn
    exact ⟨pr.parent, hprec.mem_front hinv.nodup heq, _, ((hinv.mem_parents hdone hn hroot pr).1 hpr).tight, rfl⟩
  · rintro w ⟨hw, u, hu, e, ⟨he, d₀, hd₀, hd₁⟩, rfl⟩ d d' hd hd'
    obtain ⟨n, hn, rfl⟩ := (hinv.isDist_iff hdone u d₀).2 hd₀
    obtain ⟨m, hm, rfl⟩ := (hinv.isDist_iff hdone v d).2 hd
    rw [hd'.unique hd₁]
    exact hinv.least heq hne hu he hw hn hm

/-! ## First hops -/

/-- The first hops of a vertex are all interfaces of the root that start a shortest path to it. -/
def FirstHopsComplete (topo : SpfTopology Link) (root : Vertex) (res : SpfResult) : Prop :=
  ∀ v ≠ root, ∀ n, res.nodes v = some n → ∀ i, (∃ pr ∈ n.parents, pr.firstHopIfid = i) ↔ FirstHop topo root v i

/-- Each first hop of a vertex has an entry in which it is passed on forward in the order of
    confirmation, and the entry is not cut off. -/
def HopsForward (topo : SpfTopology Link) (root : Vertex) (maxPaths : UInt8) : Prop :=
  ∀ order, SettleOrder topo root order → ∀ v i, FirstHop topo root v i →
    ∃ pr, ParentEntry topo root (ForwardHop topo root order) v pr ∧ pr.firstHopIfid = i ∧
      (maxPaths = 0 ∨ {p | ParentEntry topo root (ForwardHop topo root order) v p ∧
        parentLess p pr = true}.encard < maxPaths.toNat)

theorem FirstHop.reachable {i : UInt32} (h : FirstHop topo root v i) : Reachable topo root v := by
  cases h with
  | direct ht _ =>
    obtain ⟨-, d, -, hd⟩ := ht
    exact reachable_iff.2 ⟨_, hd⟩
  | step _ ht _ =>
    obtain ⟨-, d, -, hd⟩ := ht
    exact reachable_iff.2 ⟨_, hd⟩

theorem ParentEntry.firstHop {order : List Vertex} {pr : ParentRef} (hroot : v ≠ root)
    (h : ParentEntry topo root (ForwardHop topo root order) v pr) : FirstHop topo root v pr.firstHopIfid := by
  have ht := h.tight
  have hhop := h.hop
  split_ifs at hhop with hparent
  · rw [hparent] at ht
    rw [hhop]
    exact .direct ht hroot
  · exact hhop.firstHop.step ht hroot

/-- **When all first hops are found**: when each of them is passed on forward. -/
theorem firstHopsComplete_iff (topo : SpfTopology Link) (rid : UInt32) (maxPaths : UInt8) :
    ∃ k res, (∀ fuel ≥ k, runFull topo rid maxPaths fuel = some res) ∧
      (FirstHopsComplete topo (.router rid) res ↔ HopsForward topo (.router rid) maxPaths) := by
  obtain ⟨k, res, hrun⟩ := runFull_terminates topo rid maxPaths
  have h := hrun k le_rfl
  have hreached := (runFull_shortestPaths h).reached
  refine ⟨k, res, hrun, ?_, ?_⟩
  · intro hcomplete order horder v i hi
    obtain rfl := horder.unique (settleOrder_of_runFull h)
    obtain ⟨n, hn⟩ := (hreached v).2 hi.reachable
    obtain ⟨pr, hpr, hhop⟩ := (hcomplete v hi.ne_root n hn i).2 hi
    obtain ⟨hentry, hkept⟩ := (mem_parents_of_runFull h hn hi.ne_root pr).1 hpr
    exact ⟨pr, hentry, hhop, hkept⟩
  · intro hforward v hv n hn i
    constructor
    · rintro ⟨pr, hpr, rfl⟩
      exact ((mem_parents_of_runFull h hn hv pr).1 hpr).1.firstHop hv
    · intro hi
      obtain ⟨pr, hentry, hhop, hkept⟩ := hforward _ (settleOrder_of_runFull h) v i hi
      exact ⟨pr, (mem_parents_of_runFull h hn hv pr).2 ⟨hentry, hkept⟩, hhop⟩

end

/-! ## First hops that are lost -/

def transitLink (interfaceId metric neighborRouterId neighborInterfaceId : ℕ) : RouterLinkV3 where
  type := LINK_TRANSIT
  metric := .ofNat metric
  interfaceId := .ofNat interfaceId
  neighborInterfaceId := .ofNat neighborInterfaceId
  neighborRouterId := .ofNat neighborRouterId

/-- The routers 1 and 2 with two networks between them, and the router 3 behind 2. -/
def twoNetworksTopology : SpfTopology RouterLinkV3 := SpfTopology.ofV3
  { rtr := fun rid =>
      if rid = 1 then [[transitLink 1 1 1 1, transitLink 2 1 1 2]]
      else if rid = 2 then [[transitLink 1 1 1 1, transitLink 2 1 1 2, p2pLink 3 1 3]]
      else if rid = 3 then [[p2pLink 1 1 2]]
      else []
    net := fun id => if id = packNetwork 1 1 ∨ id = packNetwork 1 2 then some [1, 2] else none
    netV2ByLsId := fun _ => none }

def network1 : Vertex := .network (packNetwork 1 1)

def network2 : Vertex := .network (packNetwork 1 2)

theorem encard_le_length {α : Type*} {S : Set α} (l : List α) (h : ∀ a ∈ S, a ∈ l) : S.encard ≤ l.length := by
  classical
  refine (Set.encard_le_encard (fun a ha => List.mem_toFinset.2 (h a ha))).trans ?_
  rw [Set.encard_coe_eq_coe_finsetCard]
  exact_mod_cast List.toFinset_card_le l

theorem tightEdges_twoNetworks : (runFull twoNetworksTopology 1 4 12).map (SpfResult.tightEdges twoNetworksTopology) =
    some [(.router 1, ⟨network1, 1, 1⟩), (.router 1, ⟨network2, 1, 2⟩), (network1, ⟨.router 2, 0, 0⟩),
      (.router 2, ⟨.router 3, 1, 3⟩), (network2, ⟨.router 2, 0, 0⟩)] := by
  decide +kernel

theorem tight_twoNetworks {u : Vertex} {e : SpfEdge} : Tight twoNetworksTopology (.router 1) u e ↔
    (u = .router 1 ∧ e = ⟨network1, 1, 1⟩) ∨ (u = .router 1 ∧ e = ⟨network2, 1, 2⟩) ∨
      (u = network1 ∧ e = ⟨.router 2, 0, 0⟩) ∨ (u = .router 2 ∧ e = ⟨.router 3, 1, 3⟩) ∨
      (u = network2 ∧ e = ⟨.router 2, 0, 0⟩) := by
  obtain ⟨res, hrun, hres⟩ := Option.map_eq_some_iff.1 tightEdges_twoNetworks
  rw [← mem_tightEdges hrun, hres]
  simp only [List.mem_cons, Prod.mk.injEq, List.not_mem_nil, or_false]

theorem firstHop_twoNetworks {v : Vertex} {i : UInt32} (h : FirstHop twoNetworksTopology (.router 1) v i) :
    i = 1 ∨ i = 2 := by
  induction h with
  | direct ht _ =>
    rcases tight_twoNetworks.1 ht with ⟨-, rfl⟩ | ⟨-, rfl⟩ | ⟨h, -⟩ | ⟨h, -⟩ | ⟨h, -⟩
    · exact Or.inl rfl
    · exact Or.inr rfl
    · cases h
    · exact absurd h (by decide)
    · cases h
  | step _ _ _ ih => exact ih

def twoNetworksEntries (v : Vertex) : List ParentRef :=
  if v = .router 2 then [⟨network1, 1, 0, 0⟩, ⟨network1, 2, 0, 0⟩, ⟨network2, 1, 0, 0⟩, ⟨network2, 2, 0, 0⟩]
  else if v = .router 3 then [⟨.router 2, 1, 3, 1⟩, ⟨.router 2, 2, 3, 1⟩]
  else [⟨.router 1, 1, 1, 1⟩, ⟨.router 1, 2, 2, 1⟩]

theorem mem_twoNetworksEntries {v : Vertex} {pr : ParentRef}
    (h : ParentEntry twoNetworksTopology (.router 1) (FirstHop twoNetworksTopology (.router 1)) v pr) :
    pr ∈ twoNetworksEntries v := by
  obtain ⟨ht, hhop⟩ := h
  obtain ⟨u, hop, i, c⟩ := pr
  dsimp only at ht hhop
  rcases tight_twoNetworks.1 ht with ⟨rfl, he⟩ | ⟨rfl, he⟩ | ⟨rfl, he⟩ | ⟨rfl, he⟩ | ⟨rfl, he⟩ <;>
    obtain ⟨rfl, rfl, rfl⟩ := SpfEdge.mk.inj he
  · rw [if_pos rfl] at hhop
    rw [hhop]
    decide
  · rw [if_pos rfl] at hhop
    rw [hhop]
    decide
  · rw [if_neg (by decide)] at hhop
    rcases firstHop_twoNetworks hhop with rfl | rfl <;> decide
  · rw [if_neg (by decide)] at hhop
    rcases firstHop_twoNetworks hhop with rfl | rfl <;> decide
  · rw [if_neg (by decide)] at hhop
    rcases firstHop_twoNetworks hhop with rfl | rfl <;> decide

/-- The router 3 is reached over both networks, no vertex has more than four parents, and 3 gets the
    first hop over the first network only. -/
theorem not_firstHopsComplete_twoNetworks :
    (∀ v, {pr | ParentEntry twoNetworksTopology (.router 1) (FirstHop twoNetworksTopology (.router 1)) v pr}.encard
      ≤ 4) ∧
    ∀ fuel res, runFull twoNetworksTopology 1 4 fuel = some res →
      ¬ FirstHopsComplete twoNetworksTopology (.router 1) res := by
  constructor
  · intro v
    refine (encard_le_length (twoNetworksEntries v) fun pr hpr => mem_twoNetworksEntries hpr).trans ?_
    rw [twoNetworksEntries]
    split_ifs <;> norm_num
  · intro fuel res hrun hcomplete
    have hparents : (runFull twoNetworksTopology 1 4 12).map (fun r => (r.nodes (.router 3)).map SptNode.parents) =
        some (some [⟨.router 2, 1, 3, 1⟩]) := by decide +kernel
    obtain ⟨res', hrun', hres⟩ := Option.map_eq_some_iff.1 hparents
    obtain rfl := runFull_unique hrun hrun'
    obtain ⟨n, hn, hpar⟩ := Option.map_eq_some_iff.1 hres
    have htight {u : Vertex} {e : SpfEdge} := (tight_twoNetworks (u := u) (e := e)).2
    have hfirst : FirstHop twoNetworksTopology (.router 1) network2 2 :=
      .direct (htight (Or.inr (Or.inl ⟨rfl, rfl⟩))) (by decide)
    have hsecond : FirstHop twoNetworksTopology (.router 1) (.router 2) 2 :=
      hfirst.step (htight (Or.inr (Or.inr (Or.inr (Or.inr ⟨rfl, rfl⟩))))) (by decide)
    have hthird : FirstHop twoNetworksTopology (.router 1) (.router 3) 2 :=
      hsecond.step (htight (Or.inr (Or.inr (Or.inr (Or.inl ⟨rfl, rfl⟩))))) (by decide)
    obtain ⟨pr, hpr, hhop⟩ := (hcomplete (.router 3) (by decide) n hn 2).2 hthird
    rw [hpar, List.mem_singleton] at hpr
    rw [hpr] at hhop
    exact absurd hhop (by decide)

end VirtualRouter.Ospf
