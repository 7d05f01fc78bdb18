/-
  What the full shortest-path computation returns.

  When the queue is empty every vertex that was found is confirmed and no edge
  improves a distance, so that the distances are the shortest ones.  The parents
  of a vertex are its entries for the first hops that are passed on forward, from
  a vertex to one that is confirmed after it: a vertex that is expanded passes on
  the first hops it has by then.  `finalizeParents` keeps the first of the
  entries in the order of `parentLess`.

  A parent reference has a first hop, so that the limit on the paths counts a
  predecessor once for each first hop that it passes on.

  * `mem_finalParents`: the parents that are kept;
  * `RoundInv.isDist_iff`, `RoundInv.mem_parents`: the nodes after the loop;
  * `ShortestPaths`, `ParentsComplete`: what the computation should give;
  * `runFull_correct`.
-/
import VirtualRouter.Ospf.SpfFull
import VirtualRouter.Ospf.SpfPaths

namespace VirtualRouter.Ospf

open ShortestPath

/-! ## The parents that are kept -/

def ParentRef.key (pr : ParentRef) : ℕ ×ₗ ℕ ×ₗ ℕ ×ₗ ℕ ×ₗ ℕ :=
  toLex (pr.parent.type, toLex (pr.parent.id, toLex (pr.firstHopIfid.toNat, toLex (pr.lastHopIfid.toNat, pr.edgeCost))))

theorem ParentRef.key_injective : Function.Injective ParentRef.key := by
  intro a b h
  obtain ⟨htype, h⟩ := Prod.mk.inj (toLex.injective h)
  obtain ⟨hid, h⟩ := Prod.mk.inj (toLex.injective h)
  obtain ⟨hfirst, h⟩ := Prod.mk.inj (toLex.injective h)
  obtain ⟨hlast, hcost⟩ := Prod.mk.inj (toLex.injective h)
  have hparent := Vertex.ext_id htype hid
  cases a
  cases b
  simp only [ParentRef.mk.injEq]
  exact ⟨hparent, UInt32.toNat.inj hfirst, UInt32.toNat.inj hlast, hcost⟩

theorem parentLess_iff (a b : ParentRef) : parentLess a b = true ↔ a.key < b.key := by
  simp only [ParentRef.key, Prod.Lex.toLex_lt_toLex, parentLess, vertexLess]
  split_ifs with hparent hfirst hlast htype
  · rw [hparent]
    simp only [decide_eq_true_eq, lt_self_iff_false, false_or, true_and, UInt32.lt_iff_toNat_lt]
    have hne : a.firstHopIfid.toNat ≠ b.firstHopIfid.toNat := fun h => hfirst (UInt32.toNat.inj h)
    omega
  · rw [hparent, not_not.1 hfirst]
    simp only [decide_eq_true_eq, lt_self_iff_false, false_or, true_and, UInt32.lt_iff_toNat_lt]
    have hne : a.lastHopIfid.toNat ≠ b.lastHopIfid.toNat := fun h => hlast (UInt32.toNat.inj h)
    omega
  · rw [hparent, not_not.1 hfirst, not_not.1 hlast]
    simp only [decide_eq_true_eq, lt_self_iff_false, false_or, true_and]
  · simp only [decide_eq_true_eq]
    omega
  · have hne : a.parent.id ≠ b.parent.id := fun h => hparent (Vertex.ext_id (not_not.1 htype) h)
    rw [not_not.1 htype]
    simp only [decide_eq_true_eq, lt_self_iff_false, false_or, true_and]
    omega

theorem parentLess_eq_false_iff (a b : ParentRef) : parentLess a b = false ↔ b.key ≤ a.key := by
  rw [← Bool.not_eq_true, parentLess_iff, not_lt]

instance : Std.Total fun a b : ParentRef => parentLess b a = false := ⟨fun a b => by
  rw [parentLess_eq_false_iff, parentLess_eq_false_iff]
  exact le_total _ _⟩

instance : IsTrans ParentRef fun a b => parentLess b a = false := ⟨fun a b c => by
  rw [parentLess_eq_false_iff, parentLess_eq_false_iff, parentLess_eq_false_iff]
  exact le_trans⟩

theorem mem_take_of_sorted {α β : Type*} [LinearOrder β] {f : α → β} {x : α} {l : List α}
    (h : l.Pairwise fun a b => f a < f b) (k : ℕ) :
    x ∈ l.take k ↔ x ∈ l ∧ (l.filter fun a => f a < f x).length < k := by
  induction l generalizing k with
  | nil => simp
  | cons a l ih =>
    obtain ⟨hfirst, hrest⟩ := List.pairwise_cons.1 h
    cases k with
    | zero => simp
    | succ k =>
      rw [List.take_succ_cons, List.mem_cons, List.mem_cons, ih hrest, List.filter_cons]
      by_cases hx : x = a
      · subst hx
        have hnone : l.filter (fun b => f b < f x) = [] := by
          refine List.filter_eq_nil_iff.2 fun b hb => ?_
          simpa using (hfirst b hb).le
        simp [hnone]
      · by_cases hmem : x ∈ l
        · simp [hx, hmem, hfirst x hmem]
        · simp [hx, hmem]

theorem encard_filter {α : Type*} {l : List α} (h : l.Nodup) (p : α → Bool) :
    {a | a ∈ l ∧ p a = true}.encard = (l.filter p).length := by
  classical
  have heq : {a | a ∈ l ∧ p a = true} = ((l.filter p).toFinset : Set α) := by
    ext a
    simp
  rw [heq, Set.encard_coe_eq_coe_finsetCard, List.toFinset_card_of_nodup (h.filter p)]

/-- **The parents that are kept**: the first ones in the order of `parentLess`. -/
theorem mem_finalParents {maxPaths : UInt8} {parents : List ParentRef} (pr : ParentRef) :
    pr ∈ finalParents maxPaths parents ↔ pr ∈ parents ∧
      (maxPaths = 0 ∨ {p | p ∈ parents ∧ parentLess p pr = true}.encard < maxPaths.toNat) := by
  obtain ⟨l, hl⟩ : ∃ l, l = uniqueAdjacent (parents.insertionSort fun a b => parentLess b a = false) := ⟨_, rfl⟩
  have hmem (p : ParentRef) : p ∈ l ↔ p ∈ parents := by rw [hl, mem_uniqueAdjacent, List.mem_insertionSort]
  have hweak : (parents.insertionSort fun a b => parentLess b a = false).Pairwise fun a b => a.key ≤ b.key :=
    (List.pairwise_insertionSort _ parents).imp fun {a b} => (parentLess_eq_false_iff b a).1
  have hnodup : l.Nodup := by
    rw [hl]
    exact nodup_uniqueAdjacent (fun a b hab hba => ParentRef.key_injective (le_antisymm hab hba)) hweak
  have hsorted : l.Pairwise fun a b => a.key < b.key := by
    have hweak' := hweak.sublist (uniqueAdjacent_sublist _)
    rw [← hl] at hweak'
    exact (hweak'.and hnodup).imp fun hab => lt_of_le_of_ne hab.1 fun heq => hab.2 (ParentRef.key_injective heq)
  have hcount : {p | p ∈ parents ∧ parentLess p pr = true}.encard = (l.filter fun p => p.key < pr.key).length := by
    rw [← encard_filter hnodup]
    refine congrArg _ (Set.ext fun p => ?_)
    simp only [Set.mem_ofPred_eq, hmem, parentLess_iff, decide_eq_true_eq]
  have hfinal : finalParents maxPaths parents =
      if maxPaths > 0 ∧ l.length > maxPaths.toNat then l.take maxPaths.toNat else l := by rw [finalParents, ← hl]
  rw [hfinal, hcount, Nat.cast_lt]
  split_ifs with hcut
  · have hpos : maxPaths ≠ 0 := (UInt8.ne_of_lt hcut.1).symm
    rw [mem_take_of_sorted hsorted, hmem, or_iff_right hpos]
  · rw [hmem, iff_self_and]
    intro hpr
    by_cases hzero : maxPaths = 0
    · exact Or.inl hzero
    · -- the element itself is not smaller
      have hlen : l.length ≤ maxPaths.toNat := by
        by_contra hlt
        exact hcut ⟨UInt8.pos_iff_ne_zero.2 hzero, not_le.1 hlt⟩
      have hfilter : (l.filter fun p => p.key < pr.key).length < l.length := by
        refine List.length_filter_lt_length_iff_exists.2 ⟨pr, (hmem pr).2 hpr, ?_⟩
        simp
      exact Or.inr (hfilter.trans_le hlen)

/-! ## The nodes after the loop -/

inductive ForwardHop {Link : Type} (topo : SpfTopology Link) (root : Vertex) (order : List Vertex) :
    Vertex → UInt32 → Prop where
  | direct {e : SpfEdge} (ht : Tight topo root root e) (hne : e.dst ≠ root) :
      ForwardHop topo root order e.dst e.ifid
  | step {u : Vertex} {e : SpfEdge} {i : UInt32} (h : ForwardHop topo root order u i) (ht : Tight topo root u e)
      (hne : e.dst ≠ root) (hprec : Precedes order u e.dst) : ForwardHop topo root order e.dst i

theorem Precedes.idxOf_lt {l : List Vertex} (hnodup : l.Nodup) {a b : Vertex} (h : Precedes l a b) :
    l.idxOf a < l.idxOf b := by
  obtain ⟨l₁, l₂, rfl, ha⟩ := h
  have hb : b ∉ l₁ := fun hb => (List.nodup_append'.1 hnodup).2.2 hb (.head _)
  rw [List.idxOf_append_of_mem ha, List.idxOf_append_of_notMem hb, List.idxOf_cons_self]
  exact List.idxOf_lt_length_of_mem ha

theorem precedes_of_head {l : List Vertex} {a b : Vertex} (hhead : l.head? = some a) (hb : b ∈ l) (hne : b ≠ a) :
    Precedes l a b := by
  cases l with
  | nil => cases hb
  | cons x l =>
    obtain rfl : x = a := Option.some.inj hhead
    obtain ⟨l₁, l₂, rfl⟩ := List.append_of_mem ((List.mem_cons.1 hb).resolve_left hne)
    exact ⟨x :: l₁, l₂, rfl, .head _⟩

section
variable {Link : Type} {topo : SpfTopology Link} {root v : Vertex} {s : SpfState} {n : SptNode}

theorem ForwardHop.firstHop {order : List Vertex} {i : UInt32} (h : ForwardHop topo root order v i) :
    FirstHop topo root v i := by
  induction h with
  | direct ht hne => exact .direct ht hne
  | step _ ht hne _ ih => exact ih.step ht hne

theorem RoundInv.confirmed (h : RoundInv topo root s) (hdone : s.pq = []) (hv : s.res.nodes v = some n) :
    n.confirmed = true := by
  by_contra hc
  have hmem := h.queued hv (by simpa using hc)
  rw [hdone] at hmem
  cases hmem

theorem RoundInv.mem_order (h : RoundInv topo root s) (hdone : s.pq = []) (hv : s.res.nodes v = some n) :
    v ∈ s.res.confirmedOrder :=
  (h.listed v).2 ⟨n, hv, h.confirmed hdone hv⟩

/-- **The distances are the shortest ones**: no edge improves them. -/
theorem RoundInv.isDist_iff (h : RoundInv topo root s) (hdone : s.pq = []) (v : Vertex) (d : ℕ) :
    (∃ n, s.res.nodes v = some n ∧ n.dist = d) ↔ IsDist topo.Arc root v d := by
  have hlab : (s.res.nodes v).map SptNode.dist = some d ↔ IsDist topo.Arc root v d := by
    refine @isDist_iff_of_closed _ topo.Arc root (fun v => (s.res.nodes v).map SptNode.dist) MAX_DIST ?_ ?_ ?_ ?_ v d
    · obtain ⟨n, hn, hzero, -⟩ := h.root_node
      simp only [hn, Option.map_some, hzero]
    · intro v d hd
      obtain ⟨n, hn, rfl⟩ := Option.map_eq_some_iff.1 hd
      exact h.walk hn
    · rintro u v d c hd ⟨e, he, rfl, rfl⟩ hlt
      obtain ⟨n, hn, rfl⟩ := Option.map_eq_some_iff.1 hd
      obtain ⟨m, hm, hle⟩ := h.closed (h.mem_order hdone hn) he hn hlt
      exact ⟨m.dist, hle, Option.map_eq_some_iff.2 ⟨m, hm, rfl⟩⟩
    · intro v d hwalk
      exact SpfTopology.exists_walk_lt hwalk
  rw [← hlab, Option.map_eq_some_iff]

theorem RoundInv.isDist (h : RoundInv topo root s) (hdone : s.pq = []) (hv : s.res.nodes v = some n) :
    IsDist topo.Arc root v n.dist :=
  (h.isDist_iff hdone v n.dist).1 ⟨n, hv, rfl⟩

theorem RoundInv.tight_iff (h : RoundInv topo root s) (hdone : s.pq = []) (hv : s.res.nodes v = some n)
    (u : Vertex) (c : ℕ) (i : UInt32) : Tight topo root u ⟨v, c, i⟩ ↔
      (∃ m, s.res.nodes u = some m ∧ m.dist + c = n.dist) ∧ ⟨v, c, i⟩ ∈ topo.edges u := by
  have hdist := h.isDist hdone hv
  constructor
  · rintro ⟨he, d, hd, hd'⟩
    obtain ⟨m, hm, rfl⟩ := (h.isDist_iff hdone u d).2 hd
    exact ⟨⟨m, hm, hd'.unique hdist⟩, he⟩
  · rintro ⟨⟨m, hm, heq⟩, he⟩
    exact (Ospf.tight_iff (h.isDist hdone hm) hdist).2 ⟨he, heq⟩

theorem RoundInv.mem_parents_iff (h : RoundInv topo root s) (hdone : s.pq = []) (hv : s.res.nodes v = some n)
    (hroot : v ≠ root) (pr : ParentRef) : pr ∈ n.parents ↔
      Tight topo root pr.parent ⟨v, pr.edgeCost, pr.lastHopIfid⟩ ∧
        PassesOn s.res pr.parent pr.lastHopIfid pr.firstHopIfid := by
  rw [h.parents hv hroot, h.tight_iff hdone hv]
  constructor
  · rintro ⟨ht, -, he, hp⟩
    exact ⟨⟨ht, he⟩, hp⟩
  · rintro ⟨⟨⟨m, hm, heq⟩, he⟩, hp⟩
    exact ⟨⟨m, hm, heq⟩, h.mem_order hdone hm, he, hp⟩

theorem RoundInv.forwardHop_of_early (h : RoundInv topo root s) (hdone : s.pq = []) {i : UInt32} :
    ∀ u, u ≠ root → EarlyHop s.res u i → ForwardHop topo root s.res.confirmedOrder u i := by
  intro u
  induction hk : s.res.confirmedOrder.idxOf u using Nat.strong_induction_on generalizing u with
  | _ k ih =>
    rintro hu ⟨n, hn, pr, hpr, rfl, hprec⟩
    obtain ⟨ht, hpass⟩ := (h.mem_parents_iff hdone hn hu pr).1 hpr
    rw [PassesOn, h.root_eq] at hpass
    split_ifs at hpass with hparent
    · rw [hparent] at ht
      rw [hpass]
      exact .direct ht hu
    · have hlt := hprec.idxOf_lt h.nodup
      rw [hk] at hlt
      exact .step (ih _ hlt pr.parent rfl hparent hpass) ht hu hprec

theorem RoundInv.early_of_forwardHop (h : RoundInv topo root s) (hdone : s.pq = []) {u : Vertex} {i : UInt32}
    (hi : ForwardHop topo root s.res.confirmedOrder u i) : EarlyHop s.res u i := by
  induction hi with
  | @direct e ht hne =>
    obtain ⟨he, d, hd, hd'⟩ := ht
    obtain ⟨n, hn, -⟩ := (h.isDist_iff hdone e.dst _).2 hd'
    refine ⟨n, hn, ⟨root, e.ifid, e.ifid, e.cost⟩, ?_, rfl, ?_⟩
    · refine (h.mem_parents_iff hdone hn hne _).2 ⟨⟨he, d, hd, hd'⟩, ?_⟩
      rw [PassesOn, h.root_eq, if_pos rfl]
    · exact precedes_of_head h.root_first (h.mem_order hdone hn) hne
  | @step u e i hu ht hne hprec ih =>
    obtain ⟨he, d, hd, hd'⟩ := ht
    obtain ⟨n, hn, -⟩ := (h.isDist_iff hdone e.dst _).2 hd'
    refine ⟨n, hn, ⟨u, i, e.ifid, e.cost⟩, ?_, rfl, hprec⟩
    refine (h.mem_parents_iff hdone hn hne _).2 ⟨⟨he, d, hd, hd'⟩, ?_⟩
    rw [PassesOn, h.root_eq, if_neg hu.firstHop.ne_root]
    exact ih

/-- **The parents of a vertex**, before they are cut off. -/
theorem RoundInv.mem_parents (h : RoundInv topo root s) (hdone : s.pq = []) (hv : s.res.nodes v = some n)
    (hroot : v ≠ root) (pr : ParentRef) :
    pr ∈ n.parents ↔ ParentEntry topo root (ForwardHop topo root s.res.confirmedOrder) v pr := by
  rw [h.mem_parents_iff hdone hv hroot]
  constructor
  · rintro ⟨ht, hpass⟩
    refine ⟨ht, ?_⟩
    rw [PassesOn, h.root_eq] at hpass
    split_ifs at hpass ⊢ with hparent
    · exact hpass
    · exact h.forwardHop_of_early hdone _ hparent hpass
  · rintro ⟨ht, hhop⟩
    refine ⟨ht, ?_⟩
    rw [PassesOn, h.root_eq]
    split_ifs at hhop ⊢ with hparent
    · exact hhop
    · exact h.early_of_forwardHop hdone hhop

theorem RoundInv.exists_forwardHop (h : RoundInv topo root s) (hdone : s.pq = []) (hv : s.res.nodes v = some n)
    (hroot : v ≠ root) : ∃ i, ForwardHop topo root s.res.confirmedOrder v i := by
  obtain ⟨pr, hpr, hprec⟩ := h.early (h.mem_order hdone hv) hroot hv
  exact ⟨_, h.forwardHop_of_early hdone v hroot ⟨n, hv, pr, hpr, rfl, hprec⟩⟩

theorem RoundInv.loop {s' : SpfState} {fuel : ℕ} (h : RoundInv topo root s) (hloop : spfLoop topo fuel s = some s') :
    RoundInv topo root s' ∧ s'.pq = [] := by
  induction fuel generalizing s with
  | zero => cases hloop
  | succ fuel ih =>
    match hpq : s.pq with
    | [] =>
      rw [spfLoop, hpq] at hloop
      obtain rfl := Option.some.inj hloop
      exact ⟨h, hpq⟩
    | cur :: pq =>
      rw [spfLoop_succ_cons hpq] at hloop
      exact ih (h.round hpq).1 hloop

theorem roundInv_init (topo : SpfTopology Link) (root : Vertex) :
    RoundInv topo root (expandAndRelax topo false root (spfInit root)) := by
  have hroot : (spfInit root).res.nodes root = some { dist := 0, confirmed := true } := by simp [spfInit]
  exact ((spfInv_init topo root).expand rfl hroot rfl).1

/-! ## The result -/

variable {rid : UInt32} {maxPaths : UInt8} {fuel : ℕ} {res : SpfResult}

theorem exists_of_runFull (h : runFull topo rid maxPaths fuel = some res) :
    ∃ s, RoundInv topo (.router rid) s ∧ s.pq = [] ∧ res = finalizeParents maxPaths s.res := by
  obtain ⟨s, hs, rfl⟩ := Option.map_eq_some_iff.1 h
  obtain ⟨hinv, hdone⟩ := (roundInv_init topo _).loop hs
  exact ⟨s, hinv, hdone, rfl⟩

/-- **The computation ends.** -/
theorem runFull_terminates (topo : SpfTopology Link) (rid : UInt32) (maxPaths : UInt8) :
    ∃ k res, ∀ fuel ≥ k, runFull topo rid maxPaths fuel = some res := by
  obtain ⟨k, s, hloop, -, -⟩ := exists_spfLoop _ (roundInv_init topo (.router rid))
  refine ⟨k, finalizeParents maxPaths s.res, fun fuel hfuel => ?_⟩
  rw [runFull, hloop fuel hfuel]
  rfl

theorem nodes_finalizeParents {res : SpfResult} {n : SptNode} :
    (finalizeParents maxPaths res).nodes v = some n ↔
      ∃ m, res.nodes v = some m ∧ n = { m with parents := finalParents maxPaths m.parents } := by
  rw [finalizeParents, Option.map_eq_some_iff]
  constructor
  · rintro ⟨m, hm, rfl⟩
    exact ⟨m, hm, rfl⟩
  · rintro ⟨m, hm, rfl⟩
    exact ⟨m, hm, rfl⟩

/-- The distances and the order of confirmation are right. -/
structure ShortestPaths (topo : SpfTopology Link) (root : Vertex) (res : SpfResult) : Prop where
  least : ∀ v n, res.nodes v = some n → IsLeast {d | PathCost topo root v d} n.dist
  reached : ∀ v, (∃ n, res.nodes v = some n) ↔ Reachable topo root v
  listed : ∀ v, v ∈ res.confirmedOrder ↔ Reachable topo root v
  nodup : res.confirmedOrder.Nodup
  monotone : res.confirmedOrder.Pairwise fun u v =>
    ∀ n m, res.nodes u = some n → res.nodes v = some m → n.dist ≤ m.dist

/-- The parents of `v` are all the links over which a shortest path reaches it. -/
def ParentsComplete (topo : SpfTopology Link) (root : Vertex) (res : SpfResult) (v : Vertex) : Prop :=
  ∀ n, res.nodes v = some n → ∀ p i c,
    (∃ pr ∈ n.parents, pr.parent = p ∧ pr.lastHopIfid = i ∧ pr.edgeCost = c) ↔ Tight topo root p ⟨v, c, i⟩

theorem runFull_shortestPaths (h : runFull topo rid maxPaths fuel = some res) :
    ShortestPaths topo (.router rid) res := by
  obtain ⟨s, hinv, hdone, rfl⟩ := exists_of_runFull h
  have hreached (v : Vertex) : (∃ n, s.res.nodes v = some n) ↔ Reachable topo (.router rid) v := by
    rw [reachable_iff]
    constructor
    · rintro ⟨n, hn⟩
      exact ⟨_, hinv.isDist hdone hn⟩
    · rintro ⟨d, hd⟩
      obtain ⟨n, hn, -⟩ := (hinv.isDist_iff hdone v d).2 hd
      exact ⟨n, hn⟩
  constructor
  case least =>
    intro v n hn
    obtain ⟨m, hm, rfl⟩ := nodes_finalizeParents.1 hn
    have hdist := hinv.isDist hdone hm
    exact pathCost_isLeast hdist
  case reached =>
    intro v
    rw [← hreached]
    constructor
    · rintro ⟨n, hn⟩
      obtain ⟨m, hm, -⟩ := nodes_finalizeParents.1 hn
      exact ⟨m, hm⟩
    · rintro ⟨m, hm⟩
      exact ⟨_, nodes_finalizeParents.2 ⟨m, hm, rfl⟩⟩
  case listed =>
    intro v
    rw [← hreached]
    constructor
    · intro hv
      obtain ⟨n, hn, -⟩ := (hinv.listed v).1 hv
      exact ⟨n, hn⟩
    · rintro ⟨n, hn⟩
      exact hinv.mem_order hdone hn
  case nodup => exact hinv.nodup
  case monotone =>
    refine hinv.monotone.imp fun {u v} huv n m hn hm => ?_
    obtain ⟨n₀, hn₀, rfl⟩ := nodes_finalizeParents.1 hn
    obtain ⟨m₀, hm₀, rfl⟩ := nodes_finalizeParents.1 hm
    exact huv n₀ m₀ hn₀ hm₀

theorem mem_parents_of_runFull (h : runFull topo rid maxPaths fuel = some res) {n : SptNode}
    (hv : res.nodes v = some n) (hroot : v ≠ .router rid) (pr : ParentRef) :
    pr ∈ n.parents ↔ ParentEntry topo (.router rid) (ForwardHop topo (.router rid) res.confirmedOrder) v pr ∧
      (maxPaths = 0 ∨ {p | ParentEntry topo (.router rid) (ForwardHop topo (.router rid) res.confirmedOrder) v p ∧
        parentLess p pr = true}.encard < maxPaths.toNat) := by
  obtain ⟨s, hinv, hdone, rfl⟩ := exists_of_runFull h
  obtain ⟨m, hm, rfl⟩ := nodes_finalizeParents.1 hv
  show pr ∈ finalParents maxPaths m.parents ↔ _
  rw [mem_finalParents]
  simp only [hinv.mem_parents hdone hm hroot]
  rfl

/-- **No predecessor is lost** while there are no more entries than paths. -/
theorem parentsComplete_of_encard_le (h : runFull topo rid maxPaths fuel = some res) (hroot : v ≠ .router rid)
    (hcount : maxPaths = 0 ∨ {pr | ParentEntry topo (.router rid) (FirstHop topo (.router rid)) v pr}.encard ≤
      maxPaths.toNat) : ParentsComplete topo (.router rid) res v := by
  intro n hn p i c
  have hmem := mem_parents_of_runFull h hn hroot
  constructor
  · rintro ⟨pr, hpr, rfl, rfl, rfl⟩
    exact ((hmem pr).1 hpr).1.tight
  · intro ht
    -- the predecessor passes on a first hop
    have hentry : ∃ hop, ParentEntry topo (.router rid) (ForwardHop topo (.router rid) res.confirmedOrder) v
        ⟨p, hop, i, c⟩ := by
      by_cases hp : p = .router rid
      · exact ⟨i, ht, by rw [if_pos hp]⟩
      · obtain ⟨s, hinv, hdone, rfl⟩ := exists_of_runFull h
        obtain ⟨d, hd, -⟩ := ht.2
        obtain ⟨m, hm, -⟩ := (hinv.isDist_iff hdone p d).2 hd
        obtain ⟨hop, hhop⟩ := hinv.exists_forwardHop hdone hm hp
        refine ⟨hop, ht, ?_⟩
        rw [if_neg hp]
        exact hhop
    obtain ⟨hop, hentry⟩ := hentry
    refine ⟨⟨p, hop, i, c⟩, (hmem _).2 ⟨hentry, hcount.imp_right fun hle => ?_⟩, rfl, rfl, rfl⟩
    refine lt_of_lt_of_le (Set.Finite.encard_lt_encard ?_ ⟨?_, ?_⟩) hle
    · exact Set.finite_of_encard_le_coe ((Set.encard_le_encard fun q hq =>
        hq.1.mono fun _ _ hop => hop.firstHop).trans hle)
    · exact fun q hq => hq.1.mono fun _ _ hop => hop.firstHop
    · intro hsub
      have hself := (hsub (hentry.mono fun _ _ hop => hop.firstHop)).2
      rw [parentLess_iff] at hself
      exact lt_irrefl _ hself

/-- **The full computation is right**: it ends, its distances are the least costs of paths, it lists
    what can be reached by distance, and it finds all predecessors of a vertex that has no more entries
    than there may be paths. -/
theorem runFull_correct (topo : SpfTopology Link) (rid : UInt32) (maxPaths : UInt8) :
    ∃ k res, (∀ fuel ≥ k, runFull topo rid maxPaths fuel = some res) ∧ ShortestPaths topo (.router rid) res ∧
      ∀ v ≠ .router rid, maxPaths = 0 ∨
        {pr | ParentEntry topo (.router rid) (FirstHop topo (.router rid)) v pr}.encard ≤ maxPaths.toNat →
        ParentsComplete topo (.router rid) res v := by
  obtain ⟨k, res, hrun⟩ := runFull_terminates topo rid maxPaths
  refine ⟨k, res, hrun, runFull_shortestPaths (hrun k le_rfl), fun v hv hcount => ?_⟩
  exact parentsComplete_of_encard_le (hrun k le_rfl) hv hcount

/-! ## Reading the graph off the result -/

theorem spfLoop_mono {s' : SpfState} {k : ℕ} (h : spfLoop topo k s = some s') (hle : k ≤ fuel) :
    spfLoop topo fuel s = some s' := by
  induction k generalizing s fuel with
  | zero => cases h
  | succ k ih =>
    obtain ⟨fuel, rfl⟩ := Nat.exists_eq_add_of_le' (Nat.succ_le_of_lt (lt_of_lt_of_le (Nat.succ_pos k) hle))
    match hpq : s.pq with
    | [] =>
      rw [spfLoop, hpq] at h ⊢
      exact h
    | cur :: pq =>
      rw [spfLoop_succ_cons hpq] at h ⊢
      exact ih h (by omega)

theorem runFull_unique {fuel' : ℕ} {res' : SpfResult} (h : runFull topo rid maxPaths fuel = some res)
    (h' : runFull topo rid maxPaths fuel' = some res') : res = res' := by
  obtain ⟨s, hs, rfl⟩ := Option.map_eq_some_iff.1 h
  obtain ⟨s', hs', rfl⟩ := Option.map_eq_some_iff.1 h'
  have hmax := spfLoop_mono hs (le_max_left fuel fuel')
  rw [spfLoop_mono hs' (le_max_right fuel fuel')] at hmax
  rw [Option.some.inj hmax]

theorem isDist_of_runFull (h : runFull topo rid maxPaths fuel = some res) (v : Vertex) (d : ℕ) :
    (res.nodes v).map SptNode.dist = some d ↔ IsDist topo.Arc (.router rid) v d := by
  obtain ⟨s, hinv, hdone, rfl⟩ := exists_of_runFull h
  rw [← hinv.isDist_iff hdone, Option.map_eq_some_iff]
  constructor
  · rintro ⟨n, hn, rfl⟩
    obtain ⟨m, hm, rfl⟩ := nodes_finalizeParents.1 hn
    exact ⟨m, hm, rfl⟩
  · rintro ⟨m, hm, rfl⟩
    exact ⟨_, nodes_finalizeParents.2 ⟨m, hm, rfl⟩, rfl⟩

def SpfResult.tightEdges (topo : SpfTopology Link) (res : SpfResult) : List (Vertex × SpfEdge) :=
  res.confirmedOrder.flatMap fun u =>
    ((topo.edges u).filter fun e =>
      ((res.nodes u).map fun n => n.dist + e.cost) = (res.nodes e.dst).map SptNode.dist).map fun e => (u, e)

/-- **The tight edges can be read off the result.** -/
theorem mem_tightEdges (h : runFull topo rid maxPaths fuel = some res) (u : Vertex) (e : SpfEdge) :
    (u, e) ∈ res.tightEdges topo ↔ Tight topo (.router rid) u e := by
  have hdist := isDist_of_runFull h
  simp only [SpfResult.tightEdges, List.mem_flatMap, List.mem_map, List.mem_filter, Prod.mk.injEq, decide_eq_true_eq]
  constructor
  · rintro ⟨u, hu, e, ⟨he, heq⟩, rfl, rfl⟩
    obtain ⟨n, hn⟩ := ((runFull_shortestPaths h).reached u).2 (((runFull_shortestPaths h).listed u).1 hu)
    rw [hn, Option.map_some] at heq
    refine ⟨he, n.dist, (hdist u _).1 ?_, (hdist e.dst _).1 heq.symm⟩
    rw [hn, Option.map_some]
  · rintro ⟨he, d, hd, hd'⟩
    have hu := (hdist u d).2 hd
    obtain ⟨n, hn, rfl⟩ := Option.map_eq_some_iff.1 hu
    refine ⟨u, ((runFull_shortestPaths h).listed u).2 (reachable_iff.2 ⟨_, hd⟩), e, ⟨he, ?_⟩, rfl, rfl⟩
    rw [hn, Option.map_some, (hdist e.dst _).2 hd']

end

/-! ## Predecessors that are lost -/

def p2pLink (interfaceId metric neighborRouterId : ℕ) : RouterLinkV3 where
  type := LINK_P2P
  metric := .ofNat metric
  interfaceId := .ofNat interfaceId
  neighborInterfaceId := 0
  neighborRouterId := .ofNat neighborRouterId

/-- The router 9 with two links to 2 and one to 5, which is behind 2 at the same distance. -/
def parallelTopology : SpfTopology RouterLinkV3 := SpfTopology.ofV3
  { rtr := fun rid =>
      if rid = 9 then [[p2pLink 1 1 2, p2pLink 2 1 2, p2pLink 3 2 5]]
      else if rid = 2 then [[p2pLink 1 1 9, p2pLink 2 1 9, p2pLink 3 1 5]]
      else if rid = 5 then [[p2pLink 1 2 9, p2pLink 2 1 2]]
      else []
    net := fun _ => none
    netV2ByLsId := fun _ => none }

/-- Every vertex has at most two predecessors, and with two paths allowed a predecessor of 5 is lost: the
    two links to 2 give two references to the edge from 2. -/
theorem not_parentsComplete_parallel :
    (∀ v, {q : Vertex × SpfEdge | q.2.dst = v ∧ Tight parallelTopology (.router 9) q.1 q.2}.encard ≤ 2) ∧
      ∀ fuel res, runFull parallelTopology 9 2 fuel = some res →
        ¬ ParentsComplete parallelTopology (.router 9) res (.router 5) := by
  have htight : (runFull parallelTopology 9 2 8).map (SpfResult.tightEdges parallelTopology) =
      some [(.router 9, ⟨.router 2, 1, 1⟩), (.router 9, ⟨.router 2, 1, 2⟩), (.router 9, ⟨.router 5, 2, 3⟩),
        (.router 2, ⟨.router 5, 1, 3⟩)] := by decide +kernel
  have hparents : (runFull parallelTopology 9 2 8).map (fun r => (r.nodes (.router 5)).map SptNode.parents) =
      some (some [⟨.router 2, 1, 3, 1⟩, ⟨.router 2, 2, 3, 1⟩]) := by decide +kernel
  obtain ⟨res, hrun, hres⟩ := Option.map_eq_some_iff.1 htight
  have hmem (u : Vertex) (e : SpfEdge) := mem_tightEdges hrun u e
  rw [hres] at hmem
  constructor
  · intro v
    by_cases hv : v = .router 2
    · refine (Set.encard_le_encard ?_).trans_eq (Set.encard_pair (x := (.router 9, ⟨.router 2, 1, 1⟩))
        (y := (.router 9, ⟨.router 2, 1, 2⟩)) (by decide))
      rintro ⟨u, e⟩ ⟨hdst, ht⟩
      have hin := (hmem u e).2 ht
      simp only [List.mem_cons, List.not_mem_nil, or_false] at hin
      rcases hin with heq | heq | heq | heq <;> obtain ⟨rfl, rfl⟩ := Prod.mk.inj heq
      · exact Or.inl rfl
      · exact Or.inr rfl
      · subst hv
        cases hdst
      · subst hv
        cases hdst
    · refine (Set.encard_le_encard ?_).trans_eq (Set.encard_pair (x := (.router 9, ⟨.router 5, 2, 3⟩))
        (y := (.router 2, ⟨.router 5, 1, 3⟩)) (by decide))
      rintro ⟨u, e⟩ ⟨hdst, ht⟩
      have hin := (hmem u e).2 ht
      simp only [List.mem_cons, List.not_mem_nil, or_false] at hin
      rcases hin with heq | heq | heq | heq <;> obtain ⟨rfl, rfl⟩ := Prod.mk.inj heq
      · exact absurd hdst.symm hv
      · exact absurd hdst.symm hv
      · exact Or.inl rfl
      · exact Or.inr rfl
  · intro fuel res' hrun' hcomplete
    obtain rfl := runFull_unique hrun hrun'
    rw [hrun, Option.map_some, Option.some.injEq] at hparents
    obtain ⟨n, hn, hpar⟩ := Option.map_eq_some_iff.1 hparents
    obtain ⟨pr, hpr, hparent, -, -⟩ := (hcomplete n hn (.router 9) 3 2).2 ((hmem _ _).1 (by decide))
    rw [hpar] at hpr
    simp only [List.mem_cons, List.not_mem_nil, or_false] at hpr
    rcases hpr with rfl | rfl
    · cases hparent
    · cases hparent

end VirtualRouter.Ospf
