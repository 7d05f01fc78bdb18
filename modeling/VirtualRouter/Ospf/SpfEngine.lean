/-
  The full shortest-path computation (`routing/ospf/spf/SpfEngine.cpp`).

  The state is the result so far, the queue of candidates and the cache of the
  topology.  A queue item is never changed: a vertex whose distance drops is
  queued again, and the loop skips the items whose distance is no longer that of
  their vertex.  `relaxEdgeFull` and `relaxEdgeRepair` differ in one test and are
  one function with a parameter.  The order in which `finalizeParents` visits the
  nodes does not matter, since it changes each of them on its own.

  * `relaxEdge`, `expandAndRelax`, `finalizeParents`, `runFull`;
  * `relaxEdge_lower`, `relaxEdge_equal`, `relaxEdge_higher`: what relaxing an
    edge does;
  * `expandAndRelax_eq`: a vertex is expanded by relaxing its edges one by one.
-/
import VirtualRouter.Ospf.SpfTopology

namespace VirtualRouter.Ospf

/-- `RelaxInfo`, with the cache of the topology. -/
structure SpfState where
  res : SpfResult
  pq : List QItem
  cache : BacklinkCache

/-! ## Relaxation -/

/-- The first hops of an edge out of `src`: the interface of the edge if `src` is the root, and those of
    the parents of `src` otherwise. -/
def firstHops (res : SpfResult) (src : Vertex) (lastHopIfid : UInt32) : List UInt32 :=
  let hops :=
    if src = res.root then [lastHopIfid]
    else
      let inherited := ((res.nodes src).map fun n => n.parents.map (·.firstHopIfid)).getD []
      if inherited = [] then [lastHopIfid] else inherited
  uniqueAdjacent (hops.insertionSort fun a b => a ≤ b)

def addParentIfMissing (parents : List ParentRef) (pr : ParentRef) : List ParentRef :=
  if parents.any (· = pr) then parents else parents ++ [pr]

/-- `nodes.try_emplace`. -/
def SpfResult.emplace (res : SpfResult) (v : Vertex) : SpfResult :=
  match res.nodes v with
  | some _ => res
  | none => { res with nodes := Function.update res.nodes v (some {}) }

/-- The node of a vertex is replaced. -/
def SpfResult.set (res : SpfResult) (v : Vertex) (n : SptNode) : SpfResult :=
  { res with nodes := Function.update res.nodes v (some n) }

/-- One edge is relaxed; with `guarded` a vertex that is confirmed keeps its distance. -/
def relaxEdge (guarded : Bool) (src dst : Vertex) (newDist : ℕ) (lastHopIfid : UInt32) (edgeCost : ℕ)
    (s : SpfState) : SpfState :=
  let res := s.res.emplace dst
  let n := (res.nodes dst).getD {}
  let refs := (firstHops res src lastHopIfid).map fun hop => (⟨src, hop, lastHopIfid, edgeCost⟩ : ParentRef)
  if newDist < n.dist then
    if guarded && n.confirmed then { s with res := res }
    else
      { s with
        res := res.set dst { n with dist := newDist, parents := refs }
        pq := pushItem s.pq ⟨newDist, dst⟩ }
  else if newDist = n.dist then
    { s with res := res.set dst { n with parents := refs.foldl addParentIfMissing n.parents } }
  else { s with res := res }

def relaxEdgeFull := relaxEdge true

def relaxEdgeRepair := relaxEdge false

section
variable {Link : Type} (topo : SpfTopology Link)

def expandAndRelax (repairMode : Bool) (v : Vertex) (s : SpfState) : SpfState :=
  match s.res.nodes v with
  | none => s
  | some n =>
    let base := n.dist
    if base = MAX_DIST then s
    else
      let relax := if repairMode then relaxEdgeRepair else relaxEdgeFull
      match v with
      | .router rid =>
        let r := topo.expandRouter s.cache rid
        let s := { s with cache := r.2 }
        match r.1 with
        | none => s
        | some edges =>
          edges.foldl (fun s e =>
            let nd := addCost base e.cost
            if nd = MAX_DIST then s else relax v e.dst nd e.ifid e.cost s) s
      | .network id =>
        let r := topo.expandNetwork s.cache id
        let s := { s with cache := r.2 }
        match r.1 with
        | none => s
        | some attached => attached.foldl (fun s rid => relax v (.router rid) base 0 0 s) s

/-! ## The computation -/

def parentLess (a b : ParentRef) : Bool :=
  if a.parent = b.parent then
    if a.firstHopIfid ≠ b.firstHopIfid then a.firstHopIfid < b.firstHopIfid
    else if a.lastHopIfid ≠ b.lastHopIfid then a.lastHopIfid < b.lastHopIfid
    else a.edgeCost < b.edgeCost
  else vertexLess a.parent b.parent

/-- The parents are sorted, made unique, and cut off. -/
def finalParents (maxPaths : UInt8) (parents : List ParentRef) : List ParentRef :=
  let parents := uniqueAdjacent (parents.insertionSort fun a b => parentLess b a = false)
  if maxPaths > 0 ∧ parents.length > maxPaths.toNat then parents.take maxPaths.toNat else parents

def finalizeParents (maxPaths : UInt8) (res : SpfResult) : SpfResult :=
  { res with
    nodes := fun v => (res.nodes v).map fun n => { n with parents := finalParents maxPaths n.parents } }

def SpfState.confirm (s : SpfState) (v : Vertex) (n : SptNode) : SpfState :=
  { s with
    res :=
      { s.res.set v { n with confirmed := true } with
        confirmedOrder := s.res.confirmedOrder ++ [v] } }

/-- A round of the loop: the item `cur` is taken from the queue. -/
def spfRound (cur : QItem) (s : SpfState) : SpfState :=
  match s.res.nodes cur.v with
  | none => s
  | some n =>
    if cur.dist ≠ n.dist then s
    else if n.confirmed then s
    else expandAndRelax topo false cur.v (s.confirm cur.v n)

/-- The loop, for at most `fuel` rounds. -/
def spfLoop : ℕ → SpfState → Option SpfState
  | 0, _ => none
  | fuel + 1, s =>
    match s.pq with
    | [] => some s
    | cur :: pq => spfLoop fuel (spfRound topo cur { s with pq := pq })

/-- The state before the root is expanded. -/
def spfInit (root : Vertex) : SpfState where
  res :=
    { root := root
      nodes := Function.update (fun _ => none) root (some { dist := 0, confirmed := true })
      confirmedOrder := [root] }
  pq := []
  cache := []

/-- `runFull` for the router `rid`, with at most `fuel` rounds of the loop. -/
def runFull (rid : UInt32) (maxPaths : UInt8) (fuel : ℕ) : Option SpfResult :=
  (spfLoop topo fuel (expandAndRelax topo false (.router rid) (spfInit (.router rid)))).map fun s =>
    finalizeParents maxPaths s.res

end

/-! ## What relaxing an edge does -/

section
variable {s : SpfState} {src dst : Vertex} {newDist edgeCost : ℕ} {ifid : UInt32} {guarded : Bool}

def edgeRefs (res : SpfResult) (src : Vertex) (ifid : UInt32) (edgeCost : ℕ) : List ParentRef :=
  (firstHops res src ifid).map fun hop => ⟨src, hop, ifid, edgeCost⟩

theorem emplace_of_some {res : SpfResult} {v : Vertex} {n : SptNode} (h : res.nodes v = some n) :
    res.emplace v = res := by
  rw [SpfResult.emplace, h]

theorem firstHops_emplace {res : SpfResult} {m : SptNode} (hsrc : res.nodes src = some m) (v : Vertex) :
    firstHops (res.emplace v) src ifid = firstHops res src ifid := by
  cases hv : res.nodes v with
  | some n => rw [emplace_of_some hv]
  | none =>
    have hne : src ≠ v := by
      rintro rfl
      rw [hv] at hsrc
      cases hsrc
    simp only [SpfResult.emplace, hv, firstHops, Function.update_of_ne hne]

theorem getD_emplace (res : SpfResult) (v : Vertex) :
    ((res.emplace v).nodes v).getD {} = (res.nodes v).getD {} := by
  cases hv : res.nodes v with
  | some n => rw [emplace_of_some hv, hv]
  | none => simp [SpfResult.emplace, hv]

theorem set_emplace (res : SpfResult) (v : Vertex) (n : SptNode) : (res.emplace v).set v n = res.set v n := by
  cases hv : res.nodes v with
  | some m => rw [emplace_of_some hv]
  | none => simp [SpfResult.emplace, SpfResult.set, hv]

/-- **What relaxing an edge can do**: lower the distance of its end, leave a confirmed end alone, add
    parents to an end of the same distance, or nothing. -/
theorem relaxEdge_cases {m : SptNode} (hsrc : s.res.nodes src = some m) (hmax : newDist < MAX_DIST) :
    (newDist < ((s.res.nodes dst).getD {}).dist ∧ (guarded && ((s.res.nodes dst).getD {}).confirmed) = false ∧
      relaxEdge guarded src dst newDist ifid edgeCost s =
        { s with
          res := s.res.set dst { (s.res.nodes dst).getD {} with
            dist := newDist, parents := edgeRefs s.res src ifid edgeCost }
          pq := pushItem s.pq ⟨newDist, dst⟩ }) ∨
    (∃ n, s.res.nodes dst = some n ∧ newDist < n.dist ∧ guarded = true ∧ n.confirmed = true ∧
      relaxEdge guarded src dst newDist ifid edgeCost s = s) ∨
    (∃ n, s.res.nodes dst = some n ∧ newDist = n.dist ∧ relaxEdge guarded src dst newDist ifid edgeCost s =
      { s with res := s.res.set dst { n with
          parents := (edgeRefs s.res src ifid edgeCost).foldl addParentIfMissing n.parents } }) ∨
    (∃ n, s.res.nodes dst = some n ∧ n.dist < newDist ∧
      relaxEdge guarded src dst newDist ifid edgeCost s = s) := by
  have heq : relaxEdge guarded src dst newDist ifid edgeCost s =
      if newDist < ((s.res.nodes dst).getD {}).dist then
        if guarded && ((s.res.nodes dst).getD {}).confirmed then { s with res := s.res.emplace dst }
        else
          { s with
            res := s.res.set dst { (s.res.nodes dst).getD {} with
              dist := newDist, parents := edgeRefs s.res src ifid edgeCost }
            pq := pushItem s.pq ⟨newDist, dst⟩ }
      else if newDist = ((s.res.nodes dst).getD {}).dist then
        { s with res := s.res.set dst { (s.res.nodes dst).getD {} with
            parents := (edgeRefs s.res src ifid edgeCost).foldl addParentIfMissing
              ((s.res.nodes dst).getD {}).parents } }
      else { s with res := s.res.emplace dst } := by
    simp only [relaxEdge, firstHops_emplace hsrc, getD_emplace, set_emplace, edgeRefs]
  rw [heq]
  cases hdst : s.res.nodes dst with
  | none =>
    refine Or.inl ⟨hmax, ?_, ?_⟩
    · exact Bool.and_false _
    · rw [Option.getD_none, if_pos hmax, if_neg (by simp)]
  | some n =>
    have hsame : ({ s with res := s.res.emplace dst } : SpfState) = s := by rw [emplace_of_some hdst]
    simp only [Option.getD_some, hsame]
    rcases lt_trichotomy newDist n.dist with hlt | heq | hgt
    · rw [if_pos hlt]
      by_cases hconf : (guarded && n.confirmed) = true
      · rw [if_pos hconf]
        obtain ⟨hg, hc⟩ := Bool.and_eq_true_iff.1 hconf
        exact Or.inr (Or.inl ⟨n, rfl, hlt, hg, hc, rfl⟩)
      · rw [if_neg hconf]
        exact Or.inl ⟨hlt, Bool.not_eq_true _ ▸ hconf, rfl⟩
    · rw [if_neg (by omega), if_pos heq]
      exact Or.inr (Or.inr (Or.inl ⟨n, rfl, heq, rfl⟩))
    · rw [if_neg (by omega), if_neg (by omega)]
      exact Or.inr (Or.inr (Or.inr ⟨n, rfl, hgt, rfl⟩))

theorem mem_foldl_addParentIfMissing {pr : ParentRef} (refs parents : List ParentRef) :
    pr ∈ refs.foldl addParentIfMissing parents ↔ pr ∈ parents ∨ pr ∈ refs := by
  induction refs generalizing parents with
  | nil => simp
  | cons ref refs ih =>
    rw [List.foldl_cons, ih, addParentIfMissing, List.mem_cons]
    split_ifs with hmem
    · have : ref ∈ parents := by simpa using hmem
      constructor
      · rintro (h | h)
        · exact Or.inl h
        · exact Or.inr (Or.inr h)
      · rintro (h | rfl | h)
        · exact Or.inl h
        · exact Or.inl this
        · exact Or.inr h
    · rw [List.mem_append, List.mem_singleton, or_assoc]

theorem nodup_foldl_addParentIfMissing (refs : List ParentRef) {parents : List ParentRef} (h : parents.Nodup) :
    (refs.foldl addParentIfMissing parents).Nodup := by
  induction refs generalizing parents with
  | nil => exact h
  | cons ref refs ih =>
    refine ih ?_
    rw [addParentIfMissing]
    split_ifs with hmem
    · exact h
    · have hnot : ref ∉ parents := by simpa using hmem
      exact List.nodup_append'.2 ⟨h, List.nodup_singleton ref, by simpa using hnot⟩

theorem mem_firstHops_root {res : SpfResult} {hop : UInt32} : hop ∈ firstHops res res.root ifid ↔ hop = ifid := by
  rw [firstHops, if_pos rfl, mem_uniqueAdjacent, List.mem_insertionSort, List.mem_singleton]

theorem mem_firstHops {res : SpfResult} {n : SptNode} {hop : UInt32} (hroot : src ≠ res.root)
    (hsrc : res.nodes src = some n) (hne : n.parents ≠ []) :
    hop ∈ firstHops res src ifid ↔ ∃ pr ∈ n.parents, pr.firstHopIfid = hop := by
  have hmap : n.parents.map (·.firstHopIfid) ≠ [] := by simpa using hne
  simp only [firstHops, if_neg hroot, hsrc, Option.map_some, Option.getD_some, if_neg hmap, mem_uniqueAdjacent,
    List.mem_insertionSort, List.mem_map]

instance uint32_total : Std.Total fun a b : UInt32 => a ≤ b := ⟨UInt32.le_total⟩

instance uint32_isTrans : IsTrans UInt32 fun a b => a ≤ b := ⟨fun _ _ _ => UInt32.le_trans⟩

theorem nodup_firstHops (res : SpfResult) (src : Vertex) (ifid : UInt32) : (firstHops res src ifid).Nodup := by
  rw [firstHops]
  exact nodup_uniqueAdjacent (fun _ _ => UInt32.le_antisymm) (List.pairwise_insertionSort _ _)

theorem firstHops_ne_nil (res : SpfResult) (src : Vertex) (ifid : UInt32) : firstHops res src ifid ≠ [] := by
  have hne (hops : List UInt32) (h : hops ≠ []) :
      uniqueAdjacent (hops.insertionSort fun a b => a ≤ b) ≠ [] := by
    obtain ⟨hop, hhop⟩ := List.exists_mem_of_ne_nil hops h
    exact List.ne_nil_of_mem ((mem_uniqueAdjacent _).2 ((List.mem_insertionSort _).2 hhop))
  rw [firstHops]
  refine hne _ ?_
  split_ifs with hroot
  · exact List.cons_ne_nil _ _
  · dsimp only
    split_ifs with hinherited
    · exact List.cons_ne_nil _ _
    · exact hinherited

theorem nodup_edgeRefs (res : SpfResult) (src : Vertex) (ifid : UInt32) (edgeCost : ℕ) :
    (edgeRefs res src ifid edgeCost).Nodup :=
  (nodup_firstHops res src ifid).map fun _ _ hab => congrArg ParentRef.firstHopIfid hab

theorem mem_edgeRefs {res : SpfResult} {pr : ParentRef} : pr ∈ edgeRefs res src ifid edgeCost ↔
    pr.parent = src ∧ pr.lastHopIfid = ifid ∧ pr.edgeCost = edgeCost ∧ pr.firstHopIfid ∈ firstHops res src ifid := by
  rw [edgeRefs, List.mem_map]
  constructor
  · rintro ⟨hop, hhop, rfl⟩
    exact ⟨rfl, rfl, rfl, hhop⟩
  · rintro ⟨rfl, rfl, rfl, hhop⟩
    exact ⟨_, hhop, rfl⟩

end

/-! ## What expanding a vertex does -/

/-- One edge out of `v` is relaxed, unless its end is out of reach. -/
def relaxOut (guarded : Bool) (v : Vertex) (base : ℕ) (s : SpfState) (e : SpfEdge) : SpfState :=
  if addCost base e.cost = MAX_DIST then s else relaxEdge guarded v e.dst (addCost base e.cost) e.ifid e.cost s

section
variable {Link : Type} {topo : SpfTopology Link}

/-- **A vertex is expanded by relaxing its edges in turn.** -/
theorem expandAndRelax_eq {repairMode : Bool} {v : Vertex} {s : SpfState} {n : SptNode}
    (hcache : topo.CacheValid s.cache) (hv : s.res.nodes v = some n) (hmax : n.dist < MAX_DIST) :
    ∃ cache, topo.CacheValid cache ∧ expandAndRelax topo repairMode v s =
      (topo.edges v).foldl (relaxOut (!repairMode) v n.dist) { s with cache := cache } := by
  have hrelax : (if repairMode then relaxEdgeRepair else relaxEdgeFull) = relaxEdge (!repairMode) := by
    cases repairMode <;> rfl
  cases v with
  | router rid =>
    obtain ⟨hedges, hvalid⟩ := SpfTopology.expandRouter_spec hcache rid
    refine ⟨_, hvalid, ?_⟩
    rw [← hedges]
    simp only [expandAndRelax, hv, if_neg hmax.ne, hrelax]
    cases (topo.expandRouter s.cache rid).1 with
    | none => rfl
    | some edges => rfl
  | network id =>
    obtain ⟨hattached, hvalid⟩ := SpfTopology.expandNetwork_spec hcache id
    refine ⟨_, hvalid, ?_⟩
    have hzero : addCost n.dist 0 = n.dist := @addCost_eq n.dist 0 hmax
    rw [SpfTopology.edges, ← hattached, List.foldl_map]
    simp only [expandAndRelax, hv, if_neg hmax.ne, hrelax, relaxOut, hzero]
    cases (topo.expandNetwork s.cache id).1 with
    | none => rfl
    | some attached => rfl

end

end VirtualRouter.Ospf
