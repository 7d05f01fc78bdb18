/-
  The multipath set of `DecisionEngine::selectBest`.

  A candidate joins the best route if neither is better than the other.  As
  `better` goes on to the age of the routes (or the router ids) and to the
  addresses of the neighbors, routes that only tie on path cost are left out.

  * `TiesOnCost`: no step up to the IGP metric decides;
  * `equivalent_iff`: what `equivalent` asks for besides;
  * `multipathComplete_iff`: when the set is what path cost makes of it.
-/
import VirtualRouter.Bgp.BestPath

namespace VirtualRouter.Bgp

namespace BestPathComparator

variable (c : BestPathComparator)

/-- Weight, local preference, local origin, AS path, origin, MED, external and IGP metric leave the
    routes equal. -/
def TiesOnCost (x y : InboundRoute) : Prop :=
  x.weigth = y.weigth ∧ localPrefOrDefault x.attrs = localPrefOrDefault y.attrs ∧
    x.sourceNeighbor.isSome = y.sourceNeighbor.isSome ∧
    x.attrs.attrs.asPathLength = y.attrs.attrs.asPathLength ∧
    originRank x.attrs = originRank y.attrs ∧
    (c.compareMed x y = false ∧ c.compareMed y x = false) ∧ external x = external y ∧
    (c.config.ignoreIgpMetric = true ∨ x.igpCost = y.igpCost)

def TiesOnBreakers (x y : InboundRoute) : Prop :=
  (if c.config.compareRouterId then c.rid x = c.rid y else x.receivedTime = y.receivedTime) ∧
    (nbrAddr x).raw = (nbrAddr y).raw

instance (x y : InboundRoute) : Decidable (c.TiesOnCost x y) := by
  unfold TiesOnCost
  infer_instance

instance (x y : InboundRoute) : Decidable (c.TiesOnBreakers x y) := by
  unfold TiesOnBreakers
  infer_instance

/-- The candidates besides the best route that tie with it on path cost. -/
def costTies (l : List InboundRoute) (best : InboundRoute) : List InboundRoute :=
  l.filter fun cand => cand.addr ≠ best.addr ∧ c.TiesOnCost best cand

def fullTies (l : List InboundRoute) (best : InboundRoute) : List InboundRoute :=
  (c.costTies l best).filter fun cand => c.TiesOnBreakers best cand

def maxPaths (best : InboundRoute) (maxEPaths maxIPaths : ℕ) : ℕ :=
  if best.ebgp then maxEPaths else maxIPaths

/-- The set has as many of the routes that tie on path cost as there is room for, and no others. -/
def MultipathComplete (l : List InboundRoute) (maxEPaths maxIPaths : ℕ) : Prop :=
  ∀ r, c.selectBest l maxEPaths maxIPaths = some r → 1 < maxPaths r.route maxEPaths maxIPaths →
    r.multipaths.length =
      min (maxPaths r.route maxEPaths maxIPaths - 1) (c.costTies l r.route).length ∧
    ∀ x ∈ r.multipaths, x ∈ c.costTies l r.route

/-- Of the candidates that tie with the best one on path cost, all tie on the tie-breakers as well,
    or as many as there is room for. -/
def BreakersTie (l : List InboundRoute) (maxEPaths maxIPaths : ℕ) : Prop :=
  ∀ first rest, l = first :: rest →
    let best := KeyOrder.bestOf c.prefers first rest
    1 < maxPaths best maxEPaths maxIPaths →
      maxPaths best maxEPaths maxIPaths - 1 ≤ (c.fullTies l best).length ∨
        ∀ cand ∈ c.costTies l best, c.TiesOnBreakers best cand

/-! ## Equivalence -/

section Equivalent
variable {c} {x y : InboundRoute}

theorem outranks_trichotomy (x y : InboundRoute) : Outranks x y ∨ Ties x y ∨ Outranks y x := by
  unfold Outranks Ties
  rcases lt_trichotomy x.weigth.toNat y.weigth.toNat with hw | hw | hw
  · exact .inr (.inr (.inl hw))
  · have hw' := UInt16.toNat_inj.1 hw
    rcases lt_trichotomy (localPrefOrDefault x.attrs).toNat (localPrefOrDefault y.attrs).toNat with
      hl | hl | hl
    · exact .inr (.inr (.inr ⟨hw'.symm, hl⟩))
    · exact .inr (.inl ⟨hw', UInt32.toNat_inj.1 hl⟩)
    · exact .inl (.inr ⟨hw', hl⟩)
  · exact .inl (.inl hw)

theorem not_prefers_iff : c.prefers x y = false ∧ c.prefers y x = false ↔
    Ties x y ∧ x.sourceNeighbor.isSome = y.sourceNeighbor.isSome ∧ ¬ c.WinsFromAsPath x y ∧
      ¬ c.WinsFromAsPath y x := by
  have hlocal : ¬ LocalFirst x y ∧ ¬ LocalFirst y x ↔
      x.sourceNeighbor.isSome = y.sourceNeighbor.isSome := by
    unfold LocalFirst
    cases x.sourceNeighbor <;> cases y.sourceNeighbor <;> simp
  rw [← hlocal]
  simp only [← Bool.not_eq_true, prefers_eq_true]
  constructor
  · rintro ⟨hxy, hyx⟩
    have hties : Ties x y := by
      rcases outranks_trichotomy x y with h | h | h
      · exact absurd (.inl h) hxy
      · exact h
      · exact absurd (.inl h) hyx
    exact ⟨hties, ⟨fun h => hxy (.inr ⟨hties, .inl h⟩), fun h => hyx (.inr ⟨hties.symm, .inl h⟩)⟩,
      fun h => hxy (.inr ⟨hties, .inr h⟩), fun h => hyx (.inr ⟨hties.symm, .inr h⟩)⟩
  · rintro ⟨hties, ⟨hlxy, hlyx⟩, hwxy, hwyx⟩
    refine ⟨?_, ?_⟩
    · rintro (h | ⟨-, h | h⟩)
      · exact h.not_ties hties
      · exact hlxy h
      · exact hwxy h
    · rintro (h | ⟨-, h | h⟩)
      · exact h.not_ties hties.symm
      · exact hlyx h
      · exact hwyx h

theorem not_winsFromAsPath_iff : ¬ c.WinsFromAsPath x y ∧ ¬ c.WinsFromAsPath y x ↔
    x.attrs.attrs.asPathLength = y.attrs.attrs.asPathLength ∧ originRank x.attrs = originRank y.attrs ∧
      (¬ c.MedLower x y ∧ ¬ c.MedLower y x) ∧ c.lateKey x = c.lateKey y := by
  unfold WinsFromAsPath
  constructor
  · rintro ⟨hxy, hyx⟩
    have hpath : x.attrs.attrs.asPathLength = y.attrs.attrs.asPathLength := by
      by_contra hne
      rcases Nat.lt_or_gt_of_ne hne with h | h
      · exact hxy (.inl h)
      · exact hyx (.inl h)
    have horigin : originRank x.attrs = originRank y.attrs := by
      by_contra hne
      rcases Nat.lt_or_gt_of_ne (mt UInt8.toNat_inj.1 hne) with h | h
      · exact hxy (.inr ⟨hpath, .inl h⟩)
      · exact hyx (.inr ⟨hpath.symm, .inl h⟩)
    have hmxy : ¬ c.MedLower x y := fun h => hxy (.inr ⟨hpath, .inr ⟨horigin, .inl h⟩⟩)
    have hmyx : ¬ c.MedLower y x :=
      fun h => hyx (.inr ⟨hpath.symm, .inr ⟨horigin.symm, .inl h⟩⟩)
    refine ⟨hpath, horigin, ⟨hmxy, hmyx⟩, ?_⟩
    rcases lt_trichotomy (c.lateKey x) (c.lateKey y) with h | h | h
    · exact absurd (.inr ⟨hpath, .inr ⟨horigin, .inr ⟨hmyx, h⟩⟩⟩) hxy
    · exact h
    · exact absurd (.inr ⟨hpath.symm, .inr ⟨horigin.symm, .inr ⟨hmxy, h⟩⟩⟩) hyx
  · rintro ⟨hpath, horigin, ⟨hmxy, hmyx⟩, hlate⟩
    rw [hpath, horigin, hlate]
    simp [hmxy, hmyx]

theorem lateKey_eq_iff : c.lateKey x = c.lateKey y ↔
    (external x = external y ∧ (c.config.ignoreIgpMetric = true ∨ x.igpCost = y.igpCost)) ∧
      c.TiesOnBreakers x y := by
  have hexternal : externalKey x = externalKey y ↔ external x = external y := by
    unfold externalKey
    cases external x <;> cases external y <;> simp
  have higp : c.igpKey x = c.igpKey y ↔
      (c.config.ignoreIgpMetric = true ∨ x.igpCost = y.igpCost) := by
    unfold igpKey
    cases c.config.ignoreIgpMetric <;> simp [UInt64.toNat_inj]
  have hage : c.ageKey x = c.ageKey y ↔
      if c.config.compareRouterId then c.rid x = c.rid y else x.receivedTime = y.receivedTime := by
    unfold ageKey
    cases c.config.compareRouterId <;> simp [UInt32.toNat_inj]
  have haddr : ((nbrAddr x).raw.toNat : ℤ) = (nbrAddr y).raw.toNat ↔
      (nbrAddr x).raw = (nbrAddr y).raw := by
    rw [Nat.cast_inj, BitVec.toNat_inj]
  simp only [lateKey, List.cons.injEq, and_true, hexternal, higp, hage, haddr, TiesOnBreakers,
    and_assoc]

/-- **What `equivalent` asks for**: a tie on path cost and on the tie-breakers. -/
theorem equivalent_iff : c.equivalent x (nbrAddr x) y (nbrAddr y) = true ↔
    c.TiesOnCost x y ∧ c.TiesOnBreakers x y := by
  have hprefers : c.equivalent x (nbrAddr x) y (nbrAddr y) = true ↔
      c.prefers x y = false ∧ c.prefers y x = false := by
    simp [equivalent, prefers]
  rw [hprefers, not_prefers_iff, not_winsFromAsPath_iff, lateKey_eq_iff]
  simp only [TiesOnCost, Ties, ← compareMed_eq_true, Bool.not_eq_true, and_assoc]

end Equivalent

/-! ## The multipath set -/

theorem selectBest_cons (first : InboundRoute) (rest : List InboundRoute) (maxEPaths maxIPaths : ℕ) :
    c.selectBest (first :: rest) maxEPaths maxIPaths =
      some
        { route := KeyOrder.bestOf c.prefers first rest
          multipaths :=
            if maxPaths (KeyOrder.bestOf c.prefers first rest) maxEPaths maxIPaths > 1 then
              (c.fullTies (first :: rest) (KeyOrder.bestOf c.prefers first rest)).take
                (maxPaths (KeyOrder.bestOf c.prefers first rest) maxEPaths maxIPaths - 1)
            else [] } := by
  have hties (l : List InboundRoute) (best : InboundRoute) : (l.filter fun cand =>
      cand.addr ≠ best.addr ∧ c.equivalent best (nbrAddr best) cand (nbrAddr cand)) =
        c.fullTies l best := by
    rw [fullTies, costTies, List.filter_filter]
    refine List.filter_congr fun cand _ => ?_
    rw [Bool.eq_iff_iff]
    simp only [decide_eq_true_eq, Bool.and_eq_true, equivalent_iff]
    tauto
  simp only [selectBest, maxPaths, hties]
  rfl

/-- **The multipath set is complete iff the tie-breakers tie, too, or the room is filled without the
    others.** -/
theorem multipathComplete_iff (l : List InboundRoute) (maxEPaths maxIPaths : ℕ) :
    c.MultipathComplete l maxEPaths maxIPaths ↔ c.BreakersTie l maxEPaths maxIPaths := by
  rcases l with _ | ⟨first, rest⟩
  · constructor
    · intro _ first rest h
      cases h
    · intro _ r h
      cases h
  · unfold MultipathComplete BreakersTie
    simp only [selectBest_cons, Option.some.injEq, List.cons.injEq, forall_eq', and_imp]
    generalize hbest : KeyOrder.bestOf c.prefers first rest = best
    have hsub : (c.fullTies (first :: rest) best).Sublist (c.costTies (first :: rest) best) :=
      List.filter_sublist
    constructor
    · rintro h first' rest' rfl rfl hroom
      rw [hbest] at hroom ⊢
      obtain ⟨hlen, -⟩ := h hroom
      rw [if_pos hroom, List.length_take] at hlen
      rcases le_total (maxPaths best maxEPaths maxIPaths - 1)
        (c.fullTies (first :: rest) best).length with hle | hle
      · exact .inl hle
      · -- there was room for more: all that tie on path cost are in
        refine or_iff_not_imp_left.2 fun hlt cand hcand => ?_
        have heq : c.fullTies (first :: rest) best = c.costTies (first :: rest) best :=
          hsub.eq_of_length (by omega)
        rw [← heq] at hcand
        simpa using (List.mem_filter.1 hcand).2
    · intro h hroom
      have hcond := h first rest rfl rfl
      rw [hbest] at hcond
      rw [if_pos hroom, List.length_take]
      refine ⟨?_, fun x hx => hsub.subset (List.mem_of_mem_take hx)⟩
      rcases hcond hroom with hle | hall
      · have hlen := hsub.length_le
        omega
      · have heq : c.fullTies (first :: rest) best = c.costTies (first :: rest) best :=
          List.filter_eq_self.2 fun cand hcand => by simpa using hall cand hcand
        rw [heq]

/-- Two routes that differ in nothing but the neighbors they come from. -/
def sampleRoute (addr : ℕ) (nbr : UInt32) : InboundRoute where
  addr := addr
  sourceNeighbor := some ⟨nbr, .ofV4 nbr⟩
  peerAs := 65001

/-- There is room for two, and the set stays empty. -/
theorem not_multipathComplete :
    ¬ ({} : BestPathComparator).MultipathComplete [sampleRoute 0 1, sampleRoute 1 2] 2 1 := by
  intro h
  obtain ⟨hlen, -⟩ := h ⟨sampleRoute 0 1, [], []⟩ (by decide) (by decide)
  revert hlen
  decide

end BestPathComparator

end VirtualRouter.Bgp
