/-
  The loop of the full shortest-path computation.

  Between two rounds of the loop `SpfInv` holds with the edges of all confirmed
  vertices relaxed.  A round takes an item from the queue and drops it or
  confirms its vertex.

  * `SpfInv.expand`, `RoundInv.confirm`, `RoundInv.round`: one vertex, one round;
  * `exists_spfLoop`: the loop ends, and the invariant holds with no item left.
-/
import VirtualRouter.Ospf.SpfInvariant

namespace VirtualRouter.Ospf

open ShortestPath

section
variable {Link : Type} {topo : SpfTopology Link} {root v : Vertex} {s : SpfState} {n : SptNode} {l : List Vertex}

/-! ## Rounds -/

/-- Between two rounds the edges of all confirmed vertices are relaxed. -/
def RoundInv (topo : SpfTopology Link) (root : Vertex) (s : SpfState) : Prop :=
  SpfInv topo root (fun u _ => u ∈ s.res.confirmedOrder) s

/-- **A vertex is expanded** after it is confirmed. -/
theorem SpfInv.expand (h : SpfInv topo root (fun u _ => u ∈ l) s) (hlast : s.res.confirmedOrder = l ++ [v])
    (hv : s.res.nodes v = some n) (hconf : n.confirmed = true) :
    RoundInv topo root (expandAndRelax topo false v s) ∧
      (expandAndRelax topo false v s).res.confirmedOrder = s.res.confirmedOrder := by
  obtain ⟨cache, hcache, heq⟩ := @expandAndRelax_eq _ topo false v s n h.cache hv (h.lt_max hv)
  have hinv : SpfInv topo root (fun u _ => u ∈ l) { s with cache := cache } := { h with cache := hcache }
  obtain ⟨hall, horder⟩ := hinv.relaxAll (fun _ he => he) hlast ⟨n, hv, rfl, rfl⟩ hconf
  rw [heq]
  refine ⟨hall.congr (fun u e he => ?_) fun {u e} hR => (hall.listed u).1 hR, horder⟩
  rw [Bool.not_false, horder, hlast, List.mem_append, List.mem_singleton]
  refine or_congr_right ⟨And.left, ?_⟩
  rintro rfl
  exact ⟨rfl, he⟩

theorem RoundInv.confirm {cur : QItem} {pq : List QItem} (h : RoundInv topo root s) (hpq : s.pq = cur :: pq)
    (hv : s.res.nodes cur.v = some n) (hdist : cur.dist = n.dist) (hopen : n.confirmed = false) :
    SpfInv topo root (fun u _ => u ∈ s.res.confirmedOrder) ({ s with pq := pq }.confirm cur.v n) := by
  obtain ⟨s', hs'⟩ : ∃ s', s' = { s with pq := pq }.confirm cur.v n := ⟨_, rfl⟩
  rw [← hs']
  have hself : s'.res.nodes cur.v = some { n with confirmed := true } := by
    rw [hs']
    exact Function.update_self _ _ _
  have hother {x : Vertex} (hx : x ≠ cur.v) : s'.res.nodes x = s.res.nodes x := by
    rw [hs']
    exact Function.update_of_ne hx _ _
  have horder : s'.res.confirmedOrder = s.res.confirmedOrder ++ [cur.v] := by rw [hs']; rfl
  have hroot : s'.res.root = s.res.root := by rw [hs']; rfl
  have hqueue : s'.pq = pq := by rw [hs']; rfl
  have hnot : cur.v ∉ s.res.confirmedOrder := by
    intro hmem
    obtain ⟨k, hk, hc⟩ := (h.listed cur.v).1 hmem
    rw [hv] at hk
    obtain rfl := Option.some.inj hk
    rw [hopen] at hc
    cases hc
  have hne {x : Vertex} (hx : x ∈ s.res.confirmedOrder) : x ≠ cur.v := fun heq => hnot (heq ▸ hx)
  -- the item in front is the smallest
  have hmin {x : Vertex} {k : SptNode} (hk : s.res.nodes x = some k) (hc : k.confirmed = false) :
      QItem.gt ⟨n.dist, cur.v⟩ ⟨k.dist, x⟩ = false := by
    have hmem := h.queued hk hc
    have hsorted := h.sorted
    rw [hpq] at hmem hsorted
    rw [← hdist]
    rcases List.mem_cons.1 hmem with heq | hmem
    · rw [heq]
      exact QItem.gt_eq_false_iff.2 (Or.inr ⟨rfl, Or.inr ⟨rfl, le_rfl⟩⟩)
    · exact (List.pairwise_cons.1 hsorted).1 _ hmem
  -- nodes have the parents and the distances they had
  have hback {x : Vertex} {k : SptNode} (hk : s'.res.nodes x = some k) :
      ∃ k₀, s.res.nodes x = some k₀ ∧ k₀.dist = k.dist ∧ k₀.parents = k.parents := by
    by_cases hx : x = cur.v
    · subst hx
      rw [hself] at hk
      obtain rfl := Option.some.inj hk
      exact ⟨n, hv, rfl, rfl⟩
    · exact ⟨k, hother hx ▸ hk, rfl, rfl⟩
  have hpass {u : Vertex} (hu : u ∈ s.res.confirmedOrder) (ifid hop : UInt32) :
      PassesOn s'.res u ifid hop ↔ PassesOn s.res u ifid hop := by
    simp only [PassesOn, EarlyHop, hroot, hother (hne hu), horder, precedes_append hu hnot]
  constructor
  case root_eq => exact hroot.trans h.root_eq
  case cache =>
    rw [hs']
    exact h.cache
  case root_node =>
    obtain ⟨k, hk, hzero, hc⟩ := h.root_node
    exact ⟨k, (hother (hne ((h.listed root).2 ⟨k, hk, hc⟩))).trans hk, hzero, hc⟩
  case walk =>
    intro x k hk
    obtain ⟨k₀, hk₀, hd, -⟩ := hback hk
    exact hd ▸ h.walk hk₀
  case lt_max =>
    intro x k hk
    obtain ⟨k₀, hk₀, hd, -⟩ := hback hk
    exact hd ▸ h.lt_max hk₀
  case relaxed =>
    intro u e hR
    obtain ⟨k, hk, hc⟩ := (h.listed u).1 hR
    exact ⟨k, (hother (hne hR)).trans hk, hc⟩
  case closed =>
    intro u e k hR he hk hlt
    rw [hother (hne hR)] at hk
    obtain ⟨j, hj, hle⟩ := h.closed hR he hk hlt
    by_cases hx : e.dst = cur.v
    · rw [hx, hv] at hj
      obtain rfl := Option.some.inj hj
      exact ⟨_, (congrArg _ hx).trans hself, hle⟩
    · exact ⟨j, (hother hx).trans hj, hle⟩
  case queued =>
    intro x k hk hc
    have hx : x ≠ cur.v := by
      rintro rfl
      rw [hself] at hk
      obtain rfl := Option.some.inj hk
      cases hc
    have hmem := h.queued (hother hx ▸ hk) hc
    rw [hpq] at hmem
    rw [hqueue]
    rcases List.mem_cons.1 hmem with heq | hmem
    · exact absurd (congrArg QItem.v heq) hx
    · exact hmem
  case sorted =>
    have hsorted := h.sorted
    rw [hpq] at hsorted
    rw [hqueue]
    exact hsorted.of_cons
  case frontier =>
    intro x y k j hk hj hkc hjc
    have hy : y ≠ cur.v := by
      rintro rfl
      rw [hself] at hj
      obtain rfl := Option.some.inj hj
      cases hjc
    rw [hother hy] at hj
    by_cases hx : x = cur.v
    · subst hx
      rw [hself] at hk
      obtain rfl := Option.some.inj hk
      exact QItem.dist_le (hmin hj hjc)
    · exact h.frontier (hother hx ▸ hk) hj hkc hjc
  case listed =>
    intro x
    rw [horder, List.mem_append, List.mem_singleton]
    by_cases hx : x = cur.v
    · subst hx
      exact iff_of_true (Or.inr rfl) ⟨_, hself, rfl⟩
    · rw [hother hx, ← h.listed x]
      exact or_iff_left hx
  case root_first =>
    rw [horder, List.head?_append, h.root_first]
    rfl
  case nodup =>
    rw [horder]
    exact List.nodup_append'.2 ⟨h.nodup, List.nodup_singleton _, by simpa using hnot⟩
  case least =>
    intro l₁ l₂ x y e k j hl hnil hx he hxnot hk hj
    rw [horder] at hl
    rcases List.eq_nil_or_concat l₂ with rfl | ⟨l₂, z, rfl⟩
    · -- the new vertex: what the others have an edge to is in the queue
      obtain ⟨rfl, hcur⟩ := List.append_inj' hl rfl
      obtain rfl : cur.v = y := (List.cons.inj hcur).1
      rw [hself] at hj
      obtain rfl := Option.some.inj hj
      rw [hother (hne hx)] at hk
      by_cases hlt : k.dist + e.cost < MAX_DIST
      · obtain ⟨i, hi, hle⟩ := h.closed hx he hk hlt
        have hic : i.confirmed = false := by
          by_contra hc
          exact hxnot ((h.listed e.dst).2 ⟨i, hi, by simpa using hc⟩)
        have hfirst := hmin hi hic
        rw [QItem.gt_eq_false_iff] at hfirst ⊢
        dsimp only at hfirst ⊢
        omega
      · have hmax := h.lt_max hv
        rw [QItem.gt_eq_false_iff]
        exact Or.inl (show n.dist < k.dist + e.cost by omega)
    · have hl' : s.res.confirmedOrder ++ [cur.v] = (l₁ ++ y :: l₂) ++ [z] := by simpa using hl
      obtain ⟨hold, -⟩ := List.append_inj' hl' rfl
      have hxl : x ∈ s.res.confirmedOrder := hold ▸ List.mem_append_left _ hx
      have hyl : y ∈ s.res.confirmedOrder := hold ▸ List.mem_append_right _ (.head _)
      exact h.least hold hnil hx he hxnot (hother (hne hxl) ▸ hk) (hother (hne hyl) ▸ hj)
  case early =>
    intro x k hx hxroot hk
    rw [horder] at hx ⊢
    rcases List.mem_append.1 hx with hx | hx
    · obtain ⟨pr, hpr, hprec⟩ := h.early hx hxroot (hother (hne hx) ▸ hk)
      exact ⟨pr, hpr, (precedes_append hx hnot).2 hprec⟩
    · obtain rfl := List.mem_singleton.1 hx
      rw [hself] at hk
      obtain rfl := Option.some.inj hk
      obtain ⟨pr, hpr⟩ := List.exists_mem_of_ne_nil _ (h.parents_ne_nil hv hxroot)
      exact ⟨pr, hpr, (precedes_last hnot).2 ((h.parents hv hxroot pr).1 hpr).2.1⟩
  case monotone =>
    rw [horder]
    refine List.pairwise_append.2 ⟨h.monotone.imp fun {x y} hxy k j hk hj => ?_, List.pairwise_singleton _ _, ?_⟩
    · obtain ⟨k₀, hk₀, hd, -⟩ := hback hk
      obtain ⟨j₀, hj₀, hd', -⟩ := hback hj
      have := hxy k₀ j₀ hk₀ hj₀
      omega
    · intro x hx y hy k j hk hj
      obtain rfl := List.mem_singleton.1 hy
      rw [hself] at hj
      obtain rfl := Option.some.inj hj
      obtain ⟨k₀, hk₀, hc⟩ := (h.listed x).1 hx
      rw [hother (hne hx), hk₀] at hk
      obtain rfl := Option.some.inj hk
      show k₀.dist ≤ n.dist
      exact h.frontier hk₀ hv hc hopen
  case parents_nodup =>
    intro x k hk
    obtain ⟨k₀, hk₀, -, hp⟩ := hback hk
    exact hp ▸ h.parents_nodup hk₀
  case parents_ne_nil =>
    intro x k hk hx
    obtain ⟨k₀, hk₀, -, hp⟩ := hback hk
    exact hp ▸ h.parents_ne_nil hk₀ hx
  case parents =>
    intro x k hk hx pr
    obtain ⟨k₀, hk₀, hd, hp⟩ := hback hk
    rw [← hp, ← hd, h.parents hk₀ hx]
    constructor
    · rintro ⟨⟨j, hj, hjd⟩, hR, hmem, hpo⟩
      exact ⟨⟨j, (hother (hne hR)).trans hj, hjd⟩, hR, hmem, (hpass hR _ _).2 hpo⟩
    · rintro ⟨⟨j, hj, hjd⟩, hR, hmem, hpo⟩
      exact ⟨⟨j, hother (hne hR) ▸ hj, hjd⟩, hR, hmem, (hpass hR _ _).1 hpo⟩

theorem RoundInv.drop {cur : QItem} {pq : List QItem} (h : RoundInv topo root s) (hpq : s.pq = cur :: pq)
    (hstale : ∀ n, s.res.nodes cur.v = some n → cur.dist = n.dist → n.confirmed = true) :
    RoundInv topo root { s with pq := pq } := by
  have hsorted := h.sorted
  rw [hpq] at hsorted
  refine { h with queued := fun {x k} hk hc => ?_, sorted := hsorted.of_cons }
  have hmem := h.queued hk hc
  rw [hpq] at hmem
  rcases List.mem_cons.1 hmem with heq | hmem
  · obtain rfl : x = cur.v := congrArg QItem.v heq
    rw [hstale k hk (congrArg QItem.dist heq).symm] at hc
    cases hc
  · exact hmem

/-- **A round** drops an item, or confirms a further vertex. -/
theorem RoundInv.round {cur : QItem} {pq : List QItem} (h : RoundInv topo root s) (hpq : s.pq = cur :: pq) :
    RoundInv topo root (spfRound topo cur { s with pq := pq }) ∧
      (spfRound topo cur { s with pq := pq } = { s with pq := pq } ∨
        cur.v ∉ s.res.confirmedOrder ∧ (spfRound topo cur { s with pq := pq }).res.confirmedOrder =
          s.res.confirmedOrder ++ [cur.v]) := by
  rw [spfRound]
  cases hv : s.res.nodes cur.v with
  | none =>
    refine ⟨h.drop hpq fun n hn => ?_, Or.inl rfl⟩
    rw [hv] at hn
    cases hn
  | some n =>
    dsimp only
    split_ifs with hstale hconf
    · refine ⟨h.drop hpq fun m hm heq => ?_, Or.inl rfl⟩
      rw [hv] at hm
      obtain rfl := Option.some.inj hm
      exact absurd heq hstale
    · refine ⟨h.drop hpq fun m hm _ => ?_, Or.inl rfl⟩
      rw [hv] at hm
      obtain rfl := Option.some.inj hm
      exact hconf
    · have hopen : n.confirmed = false := Bool.not_eq_true _ ▸ hconf
      have hinv := h.confirm hpq hv (not_not.1 hstale) hopen
      obtain ⟨hround, horder⟩ := hinv.expand (v := cur.v) rfl (Function.update_self _ _ _) rfl
      refine ⟨hround, Or.inr ⟨fun hmem => ?_, horder⟩⟩
      obtain ⟨m, hm, hmc⟩ := (h.listed cur.v).1 hmem
      rw [hv] at hm
      obtain rfl := Option.some.inj hm
      exact hconf hmc

theorem spfLoop_succ_cons {cur : QItem} {pq : List QItem} (hpq : s.pq = cur :: pq) (fuel : ℕ) :
    spfLoop topo (fuel + 1) s = spfLoop topo fuel (spfRound topo cur { s with pq := pq }) := by
  rw [spfLoop, hpq]

/-- **The loop ends**: a round confirms one of the finitely many vertices or shortens the queue. -/
theorem exists_spfLoop (s : SpfState) (h : RoundInv topo root s) :
    ∃ k s', (∀ fuel ≥ k, spfLoop topo fuel s = some s') ∧ RoundInv topo root s' ∧ s'.pq = [] := by
  match hpq : s.pq with
  | [] =>
    refine ⟨1, s, fun fuel hfuel => ?_, h, hpq⟩
    obtain ⟨fuel, rfl⟩ := Nat.exists_eq_add_of_le' hfuel
    rw [spfLoop, hpq]
  | cur :: pq =>
    obtain ⟨hround, hstep⟩ := h.round hpq
    have ih := exists_spfLoop (spfRound topo cur { s with pq := pq }) hround
    obtain ⟨k, s', hloop, hinv, hempty⟩ := ih
    refine ⟨k + 1, s', fun fuel hfuel => ?_, hinv, hempty⟩
    obtain ⟨fuel, rfl⟩ := Nat.exists_eq_add_of_le' (Nat.succ_le_of_lt (Nat.lt_of_lt_of_le (Nat.succ_pos k) hfuel))
    rw [spfLoop_succ_cons hpq]
    exact hloop fuel (by omega)
termination_by (Set.ncard {v | v ∉ s.res.confirmedOrder}, s.pq.length)
decreasing_by
  rcases hstep with heq | ⟨hnot, horder⟩
  · rw [heq, hpq]
    exact Prod.Lex.right _ (Nat.lt_succ_self _)
  · refine Prod.Lex.left _ _ (Set.ncard_lt_ncard ⟨?_, fun hsub => ?_⟩ (Set.toFinite _))
    · intro v hv hmem
      exact hv (horder ▸ List.mem_append_left _ hmem)
    · exact hsub hnot (horder ▸ List.mem_append_right _ (List.mem_singleton_self _))

theorem spfInv_init (topo : SpfTopology Link) (root : Vertex) :
    SpfInv topo root (fun u _ => u ∈ ([] : List Vertex)) (spfInit root) := by
  have hself : (spfInit root).res.nodes root = some { dist := 0, confirmed := true } := by simp [spfInit]
  have honly {v : Vertex} {n : SptNode} (hn : (spfInit root).res.nodes v = some n) :
      v = root ∧ n = { dist := 0, confirmed := true } := by
    by_cases hv : v = root
    · subst hv
      rw [hself] at hn
      exact ⟨rfl, (Option.some.inj hn).symm⟩
    · have hnone : (spfInit root).res.nodes v = none := by simp [spfInit, hv]
      rw [hnone] at hn
      cases hn
  constructor
  case root_eq => rfl
  case cache => exact topo.cacheValid_nil
  case root_node => exact ⟨_, hself, rfl, rfl⟩
  case walk =>
    intro v n hn
    obtain ⟨rfl, rfl⟩ := honly hn
    exact .nil
  case lt_max =>
    intro v n hn
    obtain ⟨rfl, rfl⟩ := honly hn
    show 0 < MAX_DIST
    decide
  case relaxed => exact fun h => absurd h List.not_mem_nil
  case closed => exact fun h => absurd h List.not_mem_nil
  case queued =>
    intro v n hn hc
    obtain ⟨rfl, rfl⟩ := honly hn
    cases hc
  case sorted => exact .nil
  case frontier =>
    intro u v n m hn hm hc hc'
    obtain ⟨rfl, rfl⟩ := honly hm
    cases hc'
  case listed =>
    intro v
    constructor
    · intro hmem
      obtain rfl := List.mem_singleton.1 hmem
      exact ⟨_, hself, rfl⟩
    · rintro ⟨n, hn, -⟩
      obtain ⟨rfl, -⟩ := honly hn
      exact List.mem_singleton_self _
  case root_first => rfl
  case nodup => exact List.nodup_singleton root
  case least =>
    intro l₁ l₂ u v e n m hl hnil
    have hlen : [root].length = (l₁ ++ v :: l₂).length := congrArg List.length hl
    simp only [List.length_append, List.length_cons, List.length_nil] at hlen
    exact absurd (List.eq_nil_of_length_eq_zero (show l₁.length = 0 by omega)) hnil
  case early =>
    intro v n hv hroot
    exact absurd (List.mem_singleton.1 hv) hroot
  case monotone => exact List.pairwise_singleton _ _
  case parents_nodup =>
    intro v n hn
    obtain ⟨-, rfl⟩ := honly hn
    exact .nil
  case parents_ne_nil =>
    intro v n hn hv
    exact absurd (honly hn).1 hv
  case parents =>
    intro v n hn hv
    exact absurd (honly hn).1 hv

end

end VirtualRouter.Ospf
