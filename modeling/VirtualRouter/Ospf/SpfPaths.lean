/-
  Shortest paths in the graph of a topology.

  `Tight topo root u e` says that the edge `e` out of `u` lies on a shortest
  path, and `FirstHop topo root v i` that the interface `i` of the root starts a
  shortest path to `v` that does not come back to the root.  A vertex has an
  entry for each tight edge into it and each first hop of the source of the edge.

  The costs of the edges and the number of routers keep every distance below
  `MAX_DIST`, so that `addCost` does not saturate on a shortest path.

  * `PathCost`: the cost of a path, as `addCost` counts it;
  * `pathCost_isLeast`: the distances are the least costs;
  * `Tight`, `FirstHop`, `ParentEntry`.
-/
import VirtualRouter.Ospf.SpfTopology

namespace VirtualRouter.Ospf

open ShortestPath

section
variable {Link : Type} (topo : SpfTopology Link) (root : Vertex)

inductive PathCost : Vertex → ℕ → Prop where
  | nil : PathCost root 0
  | snoc {u : Vertex} {d : ℕ} {e : SpfEdge} (h : PathCost u d) (he : e ∈ topo.edges u) :
      PathCost e.dst (addCost d e.cost)

def Reachable (v : Vertex) : Prop := ∃ d, PathCost topo root v d

/-- The edge out of `u` is on a shortest path. -/
def Tight (u : Vertex) (e : SpfEdge) : Prop :=
  e ∈ topo.edges u ∧ ∃ d, IsDist topo.Arc root u d ∧ IsDist topo.Arc root e.dst (d + e.cost)

/-- The interface of the root starts a shortest path to the vertex. -/
inductive FirstHop : Vertex → UInt32 → Prop where
  | direct {e : SpfEdge} (ht : Tight topo root root e) (hne : e.dst ≠ root) : FirstHop e.dst e.ifid
  | step {u : Vertex} {e : SpfEdge} {i : UInt32} (h : FirstHop u i) (ht : Tight topo root u e)
      (hne : e.dst ≠ root) : FirstHop e.dst i

/-- An entry of `v`: an edge of a predecessor, with a first hop of the predecessor among `Hop`. -/
structure ParentEntry (Hop : Vertex → UInt32 → Prop) (v : Vertex) (pr : ParentRef) : Prop where
  tight : Tight topo root pr.parent ⟨v, pr.edgeCost, pr.lastHopIfid⟩
  hop : if pr.parent = root then pr.firstHopIfid = pr.lastHopIfid else Hop pr.parent pr.firstHopIfid

end

section
variable {Link : Type} {topo : SpfTopology Link} {root v : Vertex} {d : ℕ}

theorem FirstHop.ne_root {i : UInt32} (h : FirstHop topo root v i) : v ≠ root := by
  cases h with
  | direct _ hne => exact hne
  | step _ _ hne => exact hne

theorem ParentEntry.mono {Hop Hop' : Vertex → UInt32 → Prop} (hmono : ∀ u i, Hop u i → Hop' u i) {pr : ParentRef}
    (h : ParentEntry topo root Hop v pr) : ParentEntry topo root Hop' v pr := by
  refine ⟨h.tight, ?_⟩
  have hhop := h.hop
  split_ifs at hhop ⊢
  · exact hhop
  · exact hmono _ _ hhop

/-! ## Costs -/

theorem cost_lt_max {u : Vertex} {e : SpfEdge} (he : e ∈ topo.edges u) : e.cost < MAX_DIST := by
  have hcost := SpfTopology.cost_le he
  have hbound : SpfTopology.costBound u ≤ 65535 := by
    cases u with
    | router rid => exact le_rfl
    | network id => exact Nat.zero_le _
  have hmax : MAX_DIST = 2 ^ 64 - 1 := rfl
  omega

theorem addCost_min {c : ℕ} (hc : c < MAX_DIST) (d : ℕ) : addCost (min d MAX_DIST) c = min (d + c) MAX_DIST := by
  rw [addCost]
  split_ifs <;> omega

/-- **The cost of a path** is its length, cut off at `MAX_DIST`. -/
theorem pathCost_iff : PathCost topo root v d ↔ ∃ d', Walk topo.Arc root v d' ∧ d = min d' MAX_DIST := by
  constructor
  · intro h
    induction h with
    | nil => exact ⟨0, .nil, rfl⟩
    | @snoc u d e _ he ih =>
      obtain ⟨d', hwalk, rfl⟩ := ih
      exact ⟨d' + e.cost, hwalk.snoc ⟨e, he, rfl, rfl⟩, addCost_min (cost_lt_max he) d'⟩
  · rintro ⟨d', hwalk, rfl⟩
    induction hwalk with
    | nil => exact .nil
    | @snoc u v d c _ harc ih =>
      obtain ⟨e, he, rfl, rfl⟩ := harc
      rw [← addCost_min (cost_lt_max he)]
      exact ih.snoc he

theorem reachable_iff : Reachable topo root v ↔ ∃ d, IsDist topo.Arc root v d := by
  constructor
  · rintro ⟨d, hd⟩
    obtain ⟨d', hwalk, -⟩ := pathCost_iff.1 hd
    exact hwalk.exists_isDist
  · rintro ⟨d, hd⟩
    exact ⟨_, pathCost_iff.2 ⟨d, hd.walk, rfl⟩⟩

theorem lt_max_of_isDist (h : IsDist topo.Arc root v d) : d < MAX_DIST := by
  obtain ⟨d', hlt, hwalk⟩ := SpfTopology.exists_walk_lt h.walk
  exact (h.le hwalk).trans_lt hlt

/-- **The distances are the least costs.** -/
theorem pathCost_isLeast (h : IsDist topo.Arc root v d) : IsLeast {d | PathCost topo root v d} d := by
  have hlt := lt_max_of_isDist h
  refine ⟨pathCost_iff.2 ⟨d, h.walk, (min_eq_left hlt.le).symm⟩, ?_⟩
  rintro x hx
  obtain ⟨d', hwalk, rfl⟩ := pathCost_iff.1 hx
  exact le_min (h.le hwalk) hlt.le

/-! ## Tight edges -/

theorem tight_iff {u : Vertex} {e : SpfEdge} {d d' : ℕ} (hu : IsDist topo.Arc root u d)
    (he : IsDist topo.Arc root e.dst d') : Tight topo root u e ↔ e ∈ topo.edges u ∧ d + e.cost = d' := by
  constructor
  · rintro ⟨hmem, d₀, hd₀, hd₀'⟩
    rw [hu.unique hd₀]
    exact ⟨hmem, hd₀'.unique he⟩
  · rintro ⟨hmem, rfl⟩
    exact ⟨hmem, d, hu, he⟩

end

end VirtualRouter.Ospf
