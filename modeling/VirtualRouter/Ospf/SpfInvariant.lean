/-
  The invariant of the full shortest-path computation.

  `SpfInv` is the invariant of the loop.  Its parameter `R` says which edges have
  been relaxed: between two rounds those out of the confirmed vertices, and while
  a vertex is expanded those of its edges that are done.  Confirmed vertices are
  no farther than the others, so that relaxing an edge never improves one of
  them; what it adds to them are parents.  The parents of a vertex are described
  with their first hops: an edge passes on the first hops that its source had
  when it was expanded, which are those of the parents in front of the source in
  the order of confirmation.

  * `SpfInv.skip`, `SpfInv.addParents`, `SpfInv.lower`: an edge that has no effect, that
    adds parents, that lowers a distance;
  * `SpfInv.relaxOut`, `SpfInv.relaxAll`: one edge, and all edges of a vertex.
-/
import VirtualRouter.Ospf.SpfEngine

namespace VirtualRouter.Ospf

open ShortestPath

/-! ## Positions in the order of confirmation -/

/-- `a` stands before `b`. -/
def Precedes (l : List Vertex) (a b : Vertex) : Prop := ∃ l₁ l₂, l = l₁ ++ b :: l₂ ∧ a ∈ l₁

theorem precedes_last {l : List Vertex} {a b : Vertex} (hb : b ∉ l) : Precedes (l ++ [b]) a b ↔ a ∈ l := by
  constructor
  · rintro ⟨l₁, l₂, heq, ha⟩
    rcases List.append_eq_append_iff.1 heq with ⟨m, rfl, hm⟩ | ⟨m, rfl, hm⟩
    · cases m with
      | nil => exact List.append_nil l ▸ ha
      | cons x m =>
        obtain ⟨rfl, hm⟩ := List.cons.inj hm
        exact absurd hm (by simp)
    · cases m with
      | nil => exact List.mem_append_left _ ha
      | cons x m =>
        obtain ⟨rfl, hm⟩ := List.cons.inj hm
        exact absurd (List.mem_append_right _ (.head _)) hb
  · exact fun ha => ⟨l, [], rfl, ha⟩

theorem precedes_append {l : List Vertex} {a b x : Vertex} (hb : b ∈ l) (hx : x ∉ l) :
    Precedes (l ++ [x]) a b ↔ Precedes l a b := by
  constructor
  · rintro ⟨l₁, l₂, heq, ha⟩
    rcases List.eq_nil_or_concat l₂ with rfl | ⟨m, y, rfl⟩
    · obtain ⟨rfl, hxb⟩ := List.append_inj' heq rfl
      obtain rfl : x = b := (List.cons.inj hxb).1
      exact absurd hb hx
    · have heq' : l ++ [x] = (l₁ ++ b :: m) ++ [y] := by simpa using heq
      exact ⟨l₁, m, (List.append_inj' heq' rfl).1, ha⟩
  · rintro ⟨l₁, l₂, rfl, ha⟩
    exact ⟨l₁, l₂ ++ [x], by simp, ha⟩

theorem not_precedes_of_last {l : List Vertex} {a x : Vertex} (hnodup : (l ++ [x]).Nodup) :
    ¬ Precedes (l ++ [x]) x a := by
  rintro ⟨l₁, l₂, heq, hx⟩
  have hnot : x ∉ l := by
    intro hmem
    exact (List.nodup_append'.1 hnodup).2.2 hmem (List.mem_singleton_self x)
  rcases List.eq_nil_or_concat l₂ with rfl | ⟨m, y, rfl⟩
  · obtain ⟨rfl, -⟩ := List.append_inj' heq rfl
    exact hnot hx
  · have heq' : l ++ [x] = (l₁ ++ a :: m) ++ [y] := by simpa using heq
    obtain ⟨rfl, -⟩ := List.append_inj' heq' rfl
    exact hnot (List.mem_append_left _ hx)

/-! ## The invariant -/

/-- A first hop that `u` had when it was expanded. -/
def EarlyHop (res : SpfResult) (u : Vertex) (hop : UInt32) : Prop :=
  ∃ n, res.nodes u = some n ∧ ∃ pr ∈ n.parents, pr.firstHopIfid = hop ∧ Precedes res.confirmedOrder pr.parent u

/-- A first hop that an edge out of `u` passes on. -/
def PassesOn (res : SpfResult) (u : Vertex) (ifid hop : UInt32) : Prop :=
  if u = res.root then hop = ifid else EarlyHop res u hop

/-- The invariant, with the edges `R` relaxed. -/
structure SpfInv {Link : Type} (topo : SpfTopology Link) (root : Vertex) (R : Vertex → SpfEdge → Prop)
    (s : SpfState) : Prop where
  root_eq : s.res.root = root
  cache : topo.CacheValid s.cache
  root_node : ∃ n, s.res.nodes root = some n ∧ n.dist = 0 ∧ n.confirmed = true
  walk : ∀ {v n}, s.res.nodes v = some n → Walk topo.Arc root v n.dist
  lt_max : ∀ {v n}, s.res.nodes v = some n → n.dist < MAX_DIST
  relaxed : ∀ {u e}, R u e → ∃ n, s.res.nodes u = some n ∧ n.confirmed = true
  closed : ∀ {u e n}, R u e → e ∈ topo.edges u → s.res.nodes u = some n → n.dist + e.cost < MAX_DIST →
    ∃ m, s.res.nodes e.dst = some m ∧ m.dist ≤ n.dist + e.cost
  queued : ∀ {v n}, s.res.nodes v = some n → n.confirmed = false → ⟨n.dist, v⟩ ∈ s.pq
  sorted : Queued s.pq
  frontier : ∀ {u v n m}, s.res.nodes u = some n → s.res.nodes v = some m → n.confirmed = true →
    m.confirmed = false → n.dist ≤ m.dist
  listed : ∀ v, v ∈ s.res.confirmedOrder ↔ ∃ n, s.res.nodes v = some n ∧ n.confirmed = true
  root_first : s.res.confirmedOrder.head? = some root
  nodup : s.res.confirmedOrder.Nodup
  /-- A vertex is confirmed before all that could be reached over edges of the vertices in front of it. -/
  least : ∀ {l₁ l₂ u v e n m}, s.res.confirmedOrder = l₁ ++ v :: l₂ → l₁ ≠ [] → u ∈ l₁ → e ∈ topo.edges u →
    e.dst ∉ l₁ → s.res.nodes u = some n → s.res.nodes v = some m →
    QItem.gt ⟨m.dist, v⟩ ⟨n.dist + e.cost, e.dst⟩ = false
  early : ∀ {v n}, v ∈ s.res.confirmedOrder → v ≠ root → s.res.nodes v = some n →
    ∃ pr ∈ n.parents, Precedes s.res.confirmedOrder pr.parent v
  monotone : s.res.confirmedOrder.Pairwise fun u v =>
    ∀ n m, s.res.nodes u = some n → s.res.nodes v = some m → n.dist ≤ m.dist
  parents_nodup : ∀ {v n}, s.res.nodes v = some n → n.parents.Nodup
  parents_ne_nil : ∀ {v n}, s.res.nodes v = some n → v ≠ root → n.parents ≠ []
  parents : ∀ {v n}, s.res.nodes v = some n → v ≠ root → ∀ pr, pr ∈ n.parents ↔
    (∃ m, s.res.nodes pr.parent = some m ∧ m.dist + pr.edgeCost = n.dist) ∧
      R pr.parent ⟨v, pr.edgeCost, pr.lastHopIfid⟩ ∧ ⟨v, pr.edgeCost, pr.lastHopIfid⟩ ∈ topo.edges pr.parent ∧
      PassesOn s.res pr.parent pr.lastHopIfid pr.firstHopIfid

/-- The edges `R`, and one more. -/
def orEdge (R : Vertex → SpfEdge → Prop) (v : Vertex) (e : SpfEdge) (u : Vertex) (e' : SpfEdge) : Prop :=
  R u e' ∨ (u = v ∧ e' = e)

section
variable {Link : Type} {topo : SpfTopology Link} {root v : Vertex} {R : Vertex → SpfEdge → Prop} {s : SpfState}
  {e : SpfEdge} {n : SptNode} {l : List Vertex}

theorem SpfInv.le_last (h : SpfInv topo root R s) (hlast : s.res.confirmedOrder = l ++ [v])
    (hv : s.res.nodes v = some n) {u : Vertex} {m : SptNode} (hu : s.res.nodes u = some m)
    (hconf : m.confirmed = true) : m.dist ≤ n.dist := by
  have hmem : u ∈ s.res.confirmedOrder := (h.listed u).2 ⟨m, hu, hconf⟩
  have hmono := h.monotone
  rw [hlast] at hmem hmono
  rcases List.mem_append.1 hmem with hl | hl
  · exact (List.pairwise_append.1 hmono).2.2 u hl v (List.mem_singleton_self v) m n hu hv
  · obtain rfl := List.mem_singleton.1 hl
    rw [hv] at hu
    obtain rfl := Option.some.inj hu
    exact le_rfl

theorem SpfInv.mem_firstHops_iff (h : SpfInv topo root R s) (hlast : s.res.confirmedOrder = l ++ [v])
    (hv : s.res.nodes v = some n) (ifid hop : UInt32) :
    hop ∈ firstHops s.res v ifid ↔ PassesOn s.res v ifid hop := by
  rw [PassesOn]
  split_ifs with hroot
  · subst hroot
    exact mem_firstHops_root
  · have hne := hroot
    rw [h.root_eq] at hne
    rw [mem_firstHops hroot hv (h.parents_ne_nil hv hne)]
    constructor
    · rintro ⟨pr, hpr, rfl⟩
      obtain ⟨-, hR, -, hpass⟩ := (h.parents hv hne pr).1 hpr
      have hmem := (h.listed pr.parent).2 (h.relaxed hR)
      rw [hlast] at hmem
      rcases List.mem_append.1 hmem with hl | hl
      · have hnodup := h.nodup
        rw [hlast] at hnodup
        have hnot : v ∉ l := fun hvl => (List.nodup_append'.1 hnodup).2.2 hvl (List.mem_singleton_self v)
        exact ⟨n, hv, pr, hpr, rfl, hlast ▸ (precedes_last hnot).2 hl⟩
      · -- an edge of the vertex to itself has passed on its own first hops
        rw [List.mem_singleton.1 hl, PassesOn, if_neg hroot] at hpass
        exact hpass
    · rintro ⟨m, hm, pr, hpr, hhop, -⟩
      rw [hv] at hm
      obtain rfl := Option.some.inj hm
      exact ⟨pr, hpr, hhop⟩

theorem passesOn_set {x u : Vertex} {n' : SptNode} {ifid hop : UInt32}
    (h : u = x → ∀ pr, Precedes s.res.confirmedOrder pr.parent u →
      (pr ∈ n'.parents ↔ ∃ n, s.res.nodes x = some n ∧ pr ∈ n.parents)) :
    PassesOn (s.res.set x n') u ifid hop ↔ PassesOn s.res u ifid hop := by
  have hroot : (s.res.set x n').root = s.res.root := rfl
  rw [PassesOn, PassesOn, hroot]
  split_ifs with hu
  · exact Iff.rfl
  rw [EarlyHop, EarlyHop]
  by_cases hux : u = x
  · subst hux
    constructor
    · rintro ⟨m, hm, pr, hpr, hhop, hprec⟩
      have hm' : n' = m := by simpa [SpfResult.set] using hm
      subst hm'
      obtain ⟨n, hn, hmem⟩ := (h rfl pr hprec).1 hpr
      exact ⟨n, hn, pr, hmem, hhop, hprec⟩
    · rintro ⟨m, hm, pr, hpr, hhop, hprec⟩
      exact ⟨n', by simp [SpfResult.set], pr, (h rfl pr hprec).2 ⟨m, hm, hpr⟩, hhop, hprec⟩
  · have hnode : (s.res.set x n').nodes u = s.res.nodes u := Function.update_of_ne hux _ _
    rw [hnode]
    rfl

/-- An edge that is not tight is relaxed without effect. -/
theorem SpfInv.skip (h : SpfInv topo root R s) (hv : s.res.nodes v = some n) (hconf : n.confirmed = true)
    (hclosed : n.dist + e.cost < MAX_DIST → ∃ m, s.res.nodes e.dst = some m ∧ m.dist ≤ n.dist + e.cost)
    (hloose : ∀ m, s.res.nodes e.dst = some m → n.dist + e.cost ≠ m.dist) :
    SpfInv topo root (orEdge R v e) s where
  root_eq := h.root_eq
  cache := h.cache
  root_node := h.root_node
  walk := h.walk
  lt_max := h.lt_max
  relaxed := by
    rintro u e' (hR | ⟨rfl, -⟩)
    · exact h.relaxed hR
    · exact ⟨n, hv, hconf⟩
  closed := by
    rintro u e' m (hR | ⟨rfl, rfl⟩) he' hm hlt
    · exact h.closed hR he' hm hlt
    · rw [hv] at hm
      obtain rfl := Option.some.inj hm
      exact hclosed hlt
  queued := h.queued
  sorted := h.sorted
  frontier := h.frontier
  listed := h.listed
  root_first := h.root_first
  nodup := h.nodup
  least := h.least
  early := h.early
  monotone := h.monotone
  parents_nodup := h.parents_nodup
  parents_ne_nil := h.parents_ne_nil
  parents := by
    intro x m hm hx pr
    rw [h.parents hm hx pr]
    refine and_congr_right fun htight => and_congr_left fun _ => ⟨Or.inl, ?_⟩
    rintro (hR | ⟨hpar, heq⟩)
    · exact hR
    · -- the edge would be tight
      obtain ⟨k, hk, hdist⟩ := htight
      rw [hpar, hv] at hk
      obtain rfl := Option.some.inj hk
      subst heq
      exact absurd hdist (hloose m hm)

theorem SpfInv.addParents (h : SpfInv topo root R s) (hlast : s.res.confirmedOrder = l ++ [v])
    (hv : s.res.nodes v = some n) (hconf : n.confirmed = true) (he : e ∈ topo.edges v) {m : SptNode}
    (hdst : s.res.nodes e.dst = some m) (heq : n.dist + e.cost = m.dist) :
    SpfInv topo root (orEdge R v e)
      { s with res := s.res.set e.dst { m with
          parents := (edgeRefs s.res v e.ifid e.cost).foldl addParentIfMissing m.parents } } := by
  obtain ⟨m', hm'⟩ : ∃ m' : SptNode, m' = { m with
    parents := (edgeRefs s.res v e.ifid e.cost).foldl addParentIfMissing m.parents } := ⟨_, rfl⟩
  rw [← hm']
  have hmem (pr : ParentRef) : pr ∈ m'.parents ↔ pr ∈ m.parents ∨ pr ∈ edgeRefs s.res v e.ifid e.cost := by
    rw [hm']
    exact mem_foldl_addParentIfMissing _ _
  have hdist : m'.dist = m.dist := by rw [hm']
  have hconf' : m'.confirmed = m.confirmed := by rw [hm']
  -- every node has the distance and the mark it had
  have hback {x : Vertex} {k : SptNode} (hk : (s.res.set e.dst m').nodes x = some k) :
      ∃ k₀, s.res.nodes x = some k₀ ∧ k₀.dist = k.dist ∧ k₀.confirmed = k.confirmed := by
    by_cases hx : x = e.dst
    · subst hx
      have hk' : m' = k := by simpa [SpfResult.set] using hk
      exact ⟨m, hdst, by rw [← hk', hdist], by rw [← hk', hconf']⟩
    · have hsame : (s.res.set e.dst m').nodes x = s.res.nodes x := Function.update_of_ne hx _ _
      exact ⟨k, hsame ▸ hk, rfl, rfl⟩
  have hforth {x : Vertex} {k₀ : SptNode} (hk₀ : s.res.nodes x = some k₀) :
      ∃ k, (s.res.set e.dst m').nodes x = some k ∧ k.dist = k₀.dist ∧ k.confirmed = k₀.confirmed := by
    by_cases hx : x = e.dst
    · subst hx
      rw [hdst] at hk₀
      obtain rfl := Option.some.inj hk₀
      exact ⟨m', by simp [SpfResult.set], hdist, hconf'⟩
    · have hsame : (s.res.set e.dst m').nodes x = s.res.nodes x := Function.update_of_ne hx _ _
      exact ⟨k₀, hsame.trans hk₀, rfl, rfl⟩
  have hpass (u : Vertex) (ifid hop : UInt32) :
      PassesOn (s.res.set e.dst m') u ifid hop ↔ PassesOn s.res u ifid hop := by
    refine passesOn_set fun hu pr hprec => ?_
    rw [hmem]
    constructor
    · rintro (hold | hnew)
      · exact ⟨m, hdst, hold⟩
      · rw [(mem_edgeRefs.1 hnew).1, hlast] at hprec
        exact absurd hprec (not_precedes_of_last (hlast ▸ h.nodup))
    · rintro ⟨k, hk, hpr⟩
      rw [hdst] at hk
      obtain rfl := Option.some.inj hk
      exact Or.inl hpr
  constructor
  case root_eq => exact h.root_eq
  case cache => exact h.cache
  case root_node =>
    obtain ⟨k₀, hk₀, hzero, hc⟩ := h.root_node
    obtain ⟨k, hk, hkd, hkc⟩ := hforth hk₀
    exact ⟨k, hk, hkd.trans hzero, hkc.trans hc⟩
  case walk =>
    intro x k hk
    obtain ⟨k₀, hk₀, hd, -⟩ := hback hk
    exact hd ▸ h.walk hk₀
  case lt_max =>
    intro x k hk
    obtain ⟨k₀, hk₀, hd, -⟩ := hback hk
    exact hd ▸ h.lt_max hk₀
  case relaxed =>
    rintro u e' (hR | ⟨rfl, -⟩)
    · obtain ⟨k₀, hk₀, hc⟩ := h.relaxed hR
      obtain ⟨k, hk, -, hkc⟩ := hforth hk₀
      exact ⟨k, hk, hkc.trans hc⟩
    · obtain ⟨k, hk, -, hkc⟩ := hforth hv
      exact ⟨k, hk, hkc.trans hconf⟩
  case closed =>
    rintro u e' k (hR | ⟨rfl, rfl⟩) he' hk hlt
    · obtain ⟨k₀, hk₀, hd, -⟩ := hback hk
      obtain ⟨j₀, hj₀, hle⟩ := h.closed hR he' hk₀ (hd.symm ▸ hlt)
      obtain ⟨j, hj, hjd, -⟩ := hforth hj₀
      exact ⟨j, hj, by omega⟩
    · obtain ⟨k₀, hk₀, hd, -⟩ := hback hk
      rw [hv] at hk₀
      obtain rfl := Option.some.inj hk₀
      obtain ⟨j, hj, hjd, -⟩ := hforth hdst
      exact ⟨j, hj, by omega⟩
  case queued =>
    intro x k hk hc
    obtain ⟨k₀, hk₀, hd, hkc⟩ := hback hk
    exact hd ▸ h.queued hk₀ (hkc.trans hc)
  case sorted => exact h.sorted
  case frontier =>
    intro x y k j hk hj hkc hjc
    obtain ⟨k₀, hk₀, hd, hc⟩ := hback hk
    obtain ⟨j₀, hj₀, hd', hc'⟩ := hback hj
    have := h.frontier hk₀ hj₀ (hc.trans hkc) (hc'.trans hjc)
    omega
  case listed =>
    intro x
    refine (h.listed x).trans ⟨?_, ?_⟩
    · rintro ⟨k₀, hk₀, hc⟩
      obtain ⟨k, hk, -, hkc⟩ := hforth hk₀
      exact ⟨k, hk, hkc.trans hc⟩
    · rintro ⟨k, hk, hc⟩
      obtain ⟨k₀, hk₀, -, hkc⟩ := hback hk
      exact ⟨k₀, hk₀, hkc.trans hc⟩
  case root_first => exact h.root_first
  case nodup => exact h.nodup
  case least =>
    intro l₁ l₂ x y e' k j hl hne hx he' hnot hk hj
    obtain ⟨k₀, hk₀, hd, -⟩ := hback hk
    obtain ⟨j₀, hj₀, hd', -⟩ := hback hj
    rw [← hd, ← hd']
    exact h.least hl hne hx he' hnot hk₀ hj₀
  case early =>
    intro x k hx hroot hk
    by_cases hxd : x = e.dst
    · subst hxd
      obtain rfl : m' = k := by simpa [SpfResult.set] using hk
      obtain ⟨pr, hpr, hprec⟩ := h.early hx hroot hdst
      exact ⟨pr, (hmem pr).2 (Or.inl hpr), hprec⟩
    · have hsame : (s.res.set e.dst m').nodes x = s.res.nodes x := Function.update_of_ne hxd _ _
      exact h.early hx hroot (hsame ▸ hk)
  case monotone =>
    refine h.monotone.imp fun {x y} hxy k j hk hj => ?_
    obtain ⟨k₀, hk₀, hd, -⟩ := hback hk
    obtain ⟨j₀, hj₀, hd', -⟩ := hback hj
    have := hxy k₀ j₀ hk₀ hj₀
    omega
  case parents_nodup =>
    intro x k hk
    by_cases hx : x = e.dst
    · subst hx
      obtain rfl : m' = k := by simpa [SpfResult.set] using hk
      rw [hm']
      exact nodup_foldl_addParentIfMissing _ (h.parents_nodup hdst)
    · have hsame : (s.res.set e.dst m').nodes x = s.res.nodes x := Function.update_of_ne hx _ _
      exact h.parents_nodup (hsame ▸ hk)
  case parents_ne_nil =>
    intro x k hk hroot
    by_cases hx : x = e.dst
    · subst hx
      obtain rfl : m' = k := by simpa [SpfResult.set] using hk
      obtain ⟨pr, hpr⟩ := List.exists_mem_of_ne_nil _ (h.parents_ne_nil hdst hroot)
      exact List.ne_nil_of_mem ((hmem pr).2 (Or.inl hpr))
    · have hsame : (s.res.set e.dst m').nodes x = s.res.nodes x := Function.update_of_ne hx _ _
      exact h.parents_ne_nil (hsame ▸ hk) hroot
  case parents =>
    intro x k hk hroot pr
    rw [hpass]
    have htight (d : ℕ) : (∃ j, (s.res.set e.dst m').nodes pr.parent = some j ∧ j.dist + pr.edgeCost = d) ↔
        ∃ j, s.res.nodes pr.parent = some j ∧ j.dist + pr.edgeCost = d := by
      constructor
      · rintro ⟨j, hj, hjd⟩
        obtain ⟨j₀, hj₀, hd, -⟩ := hback hj
        exact ⟨j₀, hj₀, by omega⟩
      · rintro ⟨j₀, hj₀, hjd⟩
        obtain ⟨j, hj, hd, -⟩ := hforth hj₀
        exact ⟨j, hj, by omega⟩
    rw [htight]
    by_cases hx : x = e.dst
    · subst hx
      obtain rfl : m' = k := by simpa [SpfResult.set] using hk
      rw [hmem, h.parents hdst hroot, hdist, mem_edgeRefs, h.mem_firstHops_iff hlast hv]
      constructor
      · rintro (⟨ht, hR, hmem, hp⟩ | ⟨hpar, hif, hcost, hp⟩)
        · exact ⟨ht, Or.inl hR, hmem, hp⟩
        · have hedge : (⟨e.dst, pr.edgeCost, pr.lastHopIfid⟩ : SpfEdge) = e := by rw [hif, hcost]
          rw [hpar, hedge, hif, hcost]
          exact ⟨⟨n, hv, heq⟩, Or.inr ⟨rfl, rfl⟩, he, hp⟩
      · rintro ⟨ht, hR | ⟨hpar, hedge⟩, hmem, hp⟩
        · exact Or.inl ⟨ht, hR, hmem, hp⟩
        · refine Or.inr ⟨hpar, (congrArg SpfEdge.ifid hedge), (congrArg SpfEdge.cost hedge), ?_⟩
          rw [← hpar, ← congrArg SpfEdge.ifid hedge]
          exact hp
    · have hsame : (s.res.set e.dst m').nodes x = s.res.nodes x := Function.update_of_ne hx _ _
      rw [h.parents (hsame ▸ hk) hroot]
      refine and_congr_right fun _ => and_congr_left fun _ => ⟨Or.inl, ?_⟩
      rintro (hR | ⟨-, hedge⟩)
      · exact hR
      · exact absurd (congrArg SpfEdge.dst hedge) hx

/-- An edge that lowers the distance of its end: the end is not confirmed, and the edge is its only
    tight one. -/
theorem SpfInv.lower (h : SpfInv topo root R s) (hlast : s.res.confirmedOrder = l ++ [v])
    (hv : s.res.nodes v = some n) (hconf : n.confirmed = true) (he : e ∈ topo.edges v)
    (hmax : n.dist + e.cost < MAX_DIST) {m : SptNode} (hm : m.confirmed = false)
    (hdst : ∀ k, s.res.nodes e.dst = some k → k.confirmed = false ∧ n.dist + e.cost < k.dist) :
    SpfInv topo root (orEdge R v e)
      { s with
        res := s.res.set e.dst { m with
          dist := n.dist + e.cost, parents := edgeRefs s.res v e.ifid e.cost }
        pq := pushItem s.pq ⟨n.dist + e.cost, e.dst⟩ } := by
  obtain ⟨m', hm'⟩ : ∃ m' : SptNode, m' = { m with
    dist := n.dist + e.cost, parents := edgeRefs s.res v e.ifid e.cost } := ⟨_, rfl⟩
  rw [← hm']
  have hdist : m'.dist = n.dist + e.cost := by rw [hm']
  have hconf' : m'.confirmed = false := by rw [hm', hm]
  have hself : (s.res.set e.dst m').nodes e.dst = some m' := Function.update_self _ _ _
  have hother {x : Vertex} (hx : x ≠ e.dst) : (s.res.set e.dst m').nodes x = s.res.nodes x :=
    Function.update_of_ne hx _ _
  -- a confirmed vertex is another one
  have hne {x : Vertex} {k : SptNode} (hk : s.res.nodes x = some k) (hc : k.confirmed = true) : x ≠ e.dst := by
    rintro rfl
    rw [(hdst k hk).1] at hc
    cases hc
  have hlist {x : Vertex} (hx : x ∈ s.res.confirmedOrder) : (s.res.set e.dst m').nodes x = s.res.nodes x := by
    obtain ⟨k, hk, hc⟩ := (h.listed x).1 hx
    exact hother (hne hk hc)
  have hne' {x : Vertex} {k : SptNode} (hk : (s.res.set e.dst m').nodes x = some k) (hc : k.confirmed = true) :
      x ≠ e.dst := by
    rintro rfl
    rw [hself] at hk
    obtain rfl := Option.some.inj hk
    rw [hconf'] at hc
    cases hc
  have hpass {u : Vertex} (hu : u ≠ e.dst) (ifid hop : UInt32) :
      PassesOn (s.res.set e.dst m') u ifid hop ↔ PassesOn s.res u ifid hop :=
    passesOn_set fun heq => absurd heq hu
  have hconfirmed {u : Vertex} {e' : SpfEdge} (hR : orEdge R v e u e') :
      ∃ k, s.res.nodes u = some k ∧ k.confirmed = true := by
    rcases hR with hR | ⟨rfl, -⟩
    · exact h.relaxed hR
    · exact ⟨n, hv, hconf⟩
  constructor
  case root_eq => exact h.root_eq
  case cache => exact h.cache
  case root_node =>
    obtain ⟨k, hk, hzero, hc⟩ := h.root_node
    exact ⟨k, (hother (hne hk hc)).trans hk, hzero, hc⟩
  case walk =>
    intro x k hk
    by_cases hx : x = e.dst
    · subst hx
      rw [hself] at hk
      obtain rfl := Option.some.inj hk
      rw [hdist]
      exact (h.walk hv).snoc ⟨e, he, rfl, rfl⟩
    · exact h.walk (hother hx ▸ hk)
  case lt_max =>
    intro x k hk
    by_cases hx : x = e.dst
    · subst hx
      rw [hself] at hk
      obtain rfl := Option.some.inj hk
      omega
    · exact h.lt_max (hother hx ▸ hk)
  case relaxed =>
    intro u e' hR
    obtain ⟨k, hk, hc⟩ := hconfirmed hR
    exact ⟨k, (hother (hne hk hc)).trans hk, hc⟩
  case closed =>
    intro u e' k hR he' hk hlt
    obtain ⟨k₀, hk₀, hc⟩ := hconfirmed hR
    rw [hother (hne hk₀ hc)] at hk
    rcases hR with hR | ⟨rfl, rfl⟩
    · obtain ⟨j, hj, hle⟩ := h.closed hR he' hk hlt
      by_cases hx : e'.dst = e.dst
      · rw [hx] at hj ⊢
        have := (hdst j hj).2
        exact ⟨m', hself, by omega⟩
      · exact ⟨j, (hother hx).trans hj, hle⟩
    · rw [hv] at hk
      obtain rfl := Option.some.inj hk
      exact ⟨m', hself, hdist.le⟩
  case queued =>
    intro x k hk hc
    rw [mem_pushItem]
    by_cases hx : x = e.dst
    · subst hx
      rw [hself] at hk
      obtain rfl := Option.some.inj hk
      exact Or.inl (by rw [hdist])
    · exact Or.inr (h.queued (hother hx ▸ hk) hc)
  case sorted => exact h.sorted.push _
  case frontier =>
    intro x y k j hk hj hkc hjc
    rw [hother (hne' hk hkc)] at hk
    by_cases hy : y = e.dst
    · subst hy
      rw [hself] at hj
      obtain rfl := Option.some.inj hj
      have := h.le_last hlast hv hk hkc
      omega
    · exact h.frontier hk (hother hy ▸ hj) hkc hjc
  case listed =>
    intro x
    refine (h.listed x).trans ⟨?_, ?_⟩
    · rintro ⟨k, hk, hc⟩
      exact ⟨k, (hother (hne hk hc)).trans hk, hc⟩
    · rintro ⟨k, hk, hc⟩
      exact ⟨k, (hother (hne' hk hc)) ▸ hk, hc⟩
  case root_first => exact h.root_first
  case nodup => exact h.nodup
  case least =>
    intro l₁ l₂ x y e' k j hl hnil hx he' hnot hk hj
    have hxl : x ∈ s.res.confirmedOrder := hl ▸ List.mem_append_left _ hx
    have hyl : y ∈ s.res.confirmedOrder := hl ▸ List.mem_append_right _ (.head _)
    exact h.least hl hnil hx he' hnot (hlist hxl ▸ hk) (hlist hyl ▸ hj)
  case early =>
    intro x k hx hroot hk
    exact h.early hx hroot (hlist hx ▸ hk)
  case monotone =>
    refine h.monotone.imp_of_mem fun {x y} hx hy hxy k j hk hj => ?_
    exact hxy k j (hlist hx ▸ hk) (hlist hy ▸ hj)
  case parents_nodup =>
    intro x k hk
    by_cases hx : x = e.dst
    · subst hx
      rw [hself] at hk
      obtain rfl := Option.some.inj hk
      rw [hm']
      exact nodup_edgeRefs _ _ _ _
    · exact h.parents_nodup (hother hx ▸ hk)
  case parents_ne_nil =>
    intro x k hk hroot
    by_cases hx : x = e.dst
    · subst hx
      rw [hself] at hk
      obtain rfl := Option.some.inj hk
      rw [hm']
      exact List.map_eq_nil_iff.not.2 (firstHops_ne_nil _ _ _)
    · exact h.parents_ne_nil (hother hx ▸ hk) hroot
  case parents =>
    intro x k hk hroot pr
    by_cases hx : x = e.dst
    · subst hx
      rw [hself] at hk
      obtain rfl := Option.some.inj hk
      have hrefs : m'.parents = edgeRefs s.res v e.ifid e.cost := by rw [hm']
      rw [hrefs, mem_edgeRefs, h.mem_firstHops_iff hlast hv, hdist]
      constructor
      · rintro ⟨hpar, hif, hcost, hp⟩
        have hedge : (⟨e.dst, pr.edgeCost, pr.lastHopIfid⟩ : SpfEdge) = e := by rw [hif, hcost]
        have hvne := hne hv hconf
        rw [hpar, hedge, hif, hcost, hpass hvne, hother hvne]
        exact ⟨⟨n, hv, rfl⟩, Or.inr ⟨rfl, rfl⟩, he, hp⟩
      · rintro ⟨⟨j, hj, hd⟩, hR, hmem, hp⟩
        obtain ⟨j₀, hj₀, hc⟩ := hconfirmed hR
        have hpne := hne hj₀ hc
        rw [hother hpne] at hj
        rw [hpass hpne] at hp
        rcases hR with hR | ⟨hpar, hedge⟩
        · -- an edge relaxed before has not reached the new distance
          have hlt := h.lt_max hv
          obtain ⟨i, hi, hle⟩ := h.closed hR hmem hj (by
            show j.dist + pr.edgeCost < MAX_DIST
            omega)
          have := (hdst i hi).2
          have hle' : i.dist ≤ j.dist + pr.edgeCost := hle
          omega
        · refine ⟨hpar, (congrArg SpfEdge.ifid hedge), (congrArg SpfEdge.cost hedge), ?_⟩
          rw [← hpar, ← congrArg SpfEdge.ifid hedge]
          exact hp
    · rw [h.parents (hother hx ▸ hk) hroot]
      constructor
      · rintro ⟨⟨j, hj, hd⟩, hR, hmem, hp⟩
        obtain ⟨j₀, hj₀, hc⟩ := h.relaxed hR
        have hpne := hne hj₀ hc
        exact ⟨⟨j, (hother hpne).trans hj, hd⟩, Or.inl hR, hmem, (hpass hpne _ _).2 hp⟩
      · rintro ⟨⟨j, hj, hd⟩, hR, hmem, hp⟩
        obtain ⟨j₀, hj₀, hc⟩ := hconfirmed hR
        have hpne := hne hj₀ hc
        rcases hR with hR | ⟨-, hedge⟩
        · exact ⟨⟨j, hother hpne ▸ hj, hd⟩, hR, hmem, (hpass hpne _ _).1 hp⟩
        · exact absurd (congrArg SpfEdge.dst hedge) hx

def Keeps (v : Vertex) (n : SptNode) (s : SpfState) : Prop :=
  ∃ n', s.res.nodes v = some n' ∧ n'.dist = n.dist ∧ n'.confirmed = n.confirmed

/-- **Relaxing an edge** of the vertex confirmed last. -/
theorem SpfInv.relaxOut (h : SpfInv topo root R s) (hlast : s.res.confirmedOrder = l ++ [v])
    (hv : s.res.nodes v = some n) (hconf : n.confirmed = true) (he : e ∈ topo.edges v) :
    SpfInv topo root (orEdge R v e) (relaxOut true v n.dist s e) ∧
      (Ospf.relaxOut true v n.dist s e).res.confirmedOrder = s.res.confirmedOrder ∧
      Keeps v n (Ospf.relaxOut true v n.dist s e) := by
  have hsame : Keeps v n s := ⟨n, hv, rfl, rfl⟩
  have hcost : e.cost ≤ 65535 := by
    refine (SpfTopology.cost_le he).trans ?_
    cases v with
    | router rid => exact le_rfl
    | network id => exact Nat.zero_le _
  have hmax : MAX_DIST = 2 ^ 64 - 1 := rfl
  by_cases hreach : n.dist + e.cost < MAX_DIST
  · have hadd := addCost_eq hreach
    rw [Ospf.relaxOut, if_neg (by omega), hadd]
    rcases @relaxEdge_cases s v e.dst (n.dist + e.cost) e.cost e.ifid true n hv hreach
      with ⟨hlt, hopen, heq⟩ | ⟨m, hm, hlt, -, hmc, -⟩ | ⟨m, hm, heqd, heq⟩ | ⟨m, hm, hgt, heq⟩
    · rw [heq]
      rw [Bool.true_and] at hopen
      refine ⟨h.lower hlast hv hconf he hreach hopen fun k hk => ?_, rfl, ?_⟩
      · rw [hk, Option.getD_some] at hlt hopen
        exact ⟨hopen, hlt⟩
      · have hne : v ≠ e.dst := by
          rintro rfl
          rw [hv, Option.getD_some, hconf] at hopen
          cases hopen
        exact ⟨n, (Function.update_of_ne hne _ _).trans hv, rfl, rfl⟩
    · -- a confirmed vertex is not farther
      have := h.le_last hlast hv hm hmc
      omega
    · rw [heq]
      refine ⟨h.addParents hlast hv hconf he hm heqd, rfl, ?_⟩
      by_cases hx : v = e.dst
      · subst hx
        rw [hv] at hm
        obtain rfl := Option.some.inj hm
        exact ⟨_, Function.update_self _ _ _, rfl, rfl⟩
      · exact ⟨n, (Function.update_of_ne hx _ _).trans hv, rfl, rfl⟩
    · rw [heq]
      refine ⟨h.skip hv hconf (fun _ => ⟨m, hm, hgt.le⟩) fun k hk => ?_, rfl, hsame⟩
      rw [hm] at hk
      obtain rfl := Option.some.inj hk
      exact hgt.ne'
  · rw [Ospf.relaxOut, if_pos (addCost_max (h.lt_max hv) (by omega) (not_lt.1 hreach))]
    refine ⟨h.skip hv hconf (fun hlt => absurd hlt hreach) fun m hm => ?_, rfl, hsame⟩
    have := h.lt_max hm
    omega

theorem SpfInv.congr {R' : Vertex → SpfEdge → Prop} (h : SpfInv topo root R s)
    (hiff : ∀ u e, e ∈ topo.edges u → (R u e ↔ R' u e))
    (hrelaxed : ∀ {u e}, R' u e → ∃ n, s.res.nodes u = some n ∧ n.confirmed = true) :
    SpfInv topo root R' s where
  root_eq := h.root_eq
  cache := h.cache
  root_node := h.root_node
  walk := h.walk
  lt_max := h.lt_max
  relaxed := hrelaxed
  closed hR he := h.closed ((hiff _ _ he).2 hR) he
  queued := h.queued
  sorted := h.sorted
  frontier := h.frontier
  listed := h.listed
  root_first := h.root_first
  nodup := h.nodup
  least := h.least
  early := h.early
  monotone := h.monotone
  parents_nodup := h.parents_nodup
  parents_ne_nil := h.parents_ne_nil
  parents hn hroot pr := by
    rw [h.parents hn hroot pr]
    refine and_congr_right fun _ => ?_
    constructor
    · rintro ⟨hR, he, hp⟩
      exact ⟨(hiff _ _ he).1 hR, he, hp⟩
    · rintro ⟨hR, he, hp⟩
      exact ⟨(hiff _ _ he).2 hR, he, hp⟩

theorem SpfInv.relaxAll {es : List SpfEdge} (hes : ∀ e ∈ es, e ∈ topo.edges v) (h : SpfInv topo root R s)
    (hlast : s.res.confirmedOrder = l ++ [v]) (hv : Keeps v n s) (hconf : n.confirmed = true) :
    SpfInv topo root (fun u e => R u e ∨ (u = v ∧ e ∈ es)) (es.foldl (Ospf.relaxOut true v n.dist) s) ∧
      (es.foldl (Ospf.relaxOut true v n.dist) s).res.confirmedOrder = s.res.confirmedOrder := by
  induction es generalizing R s with
  | nil =>
    refine ⟨h.congr (fun u e _ => by simp) fun hR => ?_, rfl⟩
    rcases hR with hR | ⟨-, hmem⟩
    · exact h.relaxed hR
    · cases hmem
  | cons e es ih =>
    obtain ⟨n', hn', hdist, hc⟩ := hv
    obtain ⟨hinv, horder, n'', hn'', hdist', hc'⟩ := h.relaxOut hlast hn' (hc.trans hconf) (hes e (.head _))
    rw [hdist] at hinv horder hn''
    obtain ⟨hinv', horder'⟩ := ih (fun e' he' => hes e' (.tail _ he')) hinv (horder.trans hlast)
      ⟨n'', hn'', hdist'.trans hdist, hc'.trans hc⟩
    refine ⟨hinv'.congr (fun u e' _ => ?_) fun {u e'} hR => ?_, horder'.trans horder⟩
    · rw [orEdge, List.mem_cons, or_assoc, ← and_or_left]
    · refine hinv'.relaxed (u := u) (e := e') ?_
      rw [orEdge, or_assoc, ← and_or_left, ← List.mem_cons]
      exact hR

end

end VirtualRouter.Ospf
