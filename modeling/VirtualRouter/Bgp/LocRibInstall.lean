/-
  The Loc-RIB and the VRF table.

  `recomputeNlri` always replaces the Loc-RIB entry, but installs it only if the
  best route is another object than before.  New attributes come with a new
  object, whose address is none of those in use, so that they are installed.
  The multipath set may change while the best route stays, and the VRF table
  keeps the next hops of the set before.

  * `Refers`: a Loc-RIB entry refers to a route that there is;
  * `Agreed`: the VRF table has the route built from the Loc-RIB entry;
  * `agreed_iff`: it does along a run iff no recomputation keeps the best route
    and changes the next hops of the multipath set.
-/
import VirtualRouter.Bgp.WithdrawPropagation

namespace VirtualRouter.Bgp

open Run

variable {ν : Type} [DecidableEq ν]

/-! ## The route built -/

section Build
variable (f : FamilyConfig ν) {o o' : Oracle ν}

omit [DecidableEq ν] in
theorem buildRoute_congr (h : o'.ribLookup = o.ribLookup) : buildRoute f o' = buildRoute f o := by
  have hadd : addHop f o' = addHop f o := by
    funext hops r
    rw [addHop, h, addHop]
  funext n e
  rw [buildRoute, routeHops, hadd, buildRoute, routeHops]

omit [DecidableEq ν] in
theorem routeHops_eq_none {e : LocalRoute} (h : e.route.attrs.path.nextHop.isIPv4 = false) :
    routeHops f o e = none := by
  rw [routeHops, addHop, h]
  rfl

omit [DecidableEq ν] in
theorem routeHops_eq_none_iff {e : LocalRoute} :
    routeHops f o e = none ↔ addHop f o [] e.route = none := by
  rw [routeHops, Option.map_eq_none_iff]

omit [DecidableEq ν] in
theorem buildRoute_eq_iff {n : ν} {e e' : LocalRoute}
    (hdistance : computeAdminDistance f e.route n = computeAdminDistance f e'.route n)
    (hmetric : installMetric f e.route = installMetric f e'.route) :
    buildRoute f o n e = buildRoute f o n e' ↔ routeHops f o e = routeHops f o e' := by
  rw [buildRoute, buildRoute, hdistance, hmetric]
  refine ⟨fun h => Option.map_injective ?_ h, fun h => by rw [h]⟩
  intro hops hops' heq
  exact congrArg VrfRoute.nextHops heq

end Build

namespace AddressFamilyInstance

/-! ## References -/

/-- The route, up to its IGP cost, is the object `r`. -/
def SameObject (r r' : InboundRoute) : Prop := r' = { r with igpCost := r'.igpCost }

/-- The route is one of the prefix in Adj-RIB-In. -/
def RefersIn (s : AddressFamilyInstance ν) (n : ν) (r : InboundRoute) : Prop :=
  ∃ k r', s.adjRibIn.lookup k = some r' ∧ k.path.nlri = n ∧ SameObject r' r

/-- The route is a candidate of the prefix. -/
def Refers (s : AddressFamilyInstance ν) (n : ν) (r : InboundRoute) : Prop :=
  RefersIn s n r ∨ ∃ r', s.networkLocalRoutes.lookup n = some r' ∧ SameObject r' r

/-- The route is in Adj-RIB-In, or it has no next hop and not the address of a route there. -/
def Traceable (s : AddressFamilyInstance ν) (n : ν) (r : InboundRoute) : Prop :=
  RefersIn s n r ∨ (r.attrs.path.nextHop.isIPv4 = false ∧
    ∀ k r', s.adjRibIn.lookup k = some r' → r'.addr ≠ r.addr)

/-- Routes have different addresses, and network routes no next hop. -/
structure Distinct (s : AddressFamilyInstance ν) : Prop where
  routes : ∀ k k' r r', s.adjRibIn.lookup k = some r → s.adjRibIn.lookup k' = some r' →
    r.addr = r'.addr → k = k'
  network : ∀ k n r r', s.adjRibIn.lookup k = some r → s.networkLocalRoutes.lookup n = some r' →
    r.addr ≠ r'.addr
  noHop : ∀ n r, s.networkLocalRoutes.lookup n = some r → r.attrs.path.nextHop.isIPv4 = false

section Refers
variable {n : ν} {s s' : AddressFamilyInstance ν} {r : InboundRoute} (cfg : Config ν) (o : Oracle ν)

theorem Refers.traceable (hs : Distinct s) (h : Refers s n r) : Traceable s n r := by
  rcases h with h | ⟨r', hr', hsame⟩
  · exact .inl h
  · refine .inr ⟨?_, fun k x hx => ?_⟩
    · rw [hsame]
      exact hs.noHop n r' hr'
    · rw [hsame]
      exact hs.network k n x r' hx hr'

theorem SameIn.refers (h : SameIn s s') : Refers s' n r ↔ Refers s n r := by
  unfold Refers RefersIn
  rw [h.adjRibIn, h.networkLocalRoutes]

theorem SameIn.distinct (h : SameIn s s') (hs : Distinct s) : Distinct s' := by
  refine ⟨?_, ?_, ?_⟩
  · rw [h.adjRibIn]
    exact hs.routes
  · rw [h.adjRibIn, h.networkLocalRoutes]
    exact hs.network
  · rw [h.networkLocalRoutes]
    exact hs.noHop

theorem decision_refers {best : LocalRoute} (h : s.decision cfg o n = some best) :
    Refers s n best.route := by
  simp only [decision, Option.map_eq_some_iff] at h
  obtain ⟨b, hb, rfl⟩ := h
  have hmem : b.route ∈ s.contenders cfg o n := by
    revert hb
    cases s.contenders cfg o n with
    | nil => simp [BestPathComparator.selectBest]
    | cons r rs =>
      intro hb
      simp only [BestPathComparator.selectBest, Option.some.injEq] at hb
      rw [← hb]
      exact KeyOrder.bestOf_mem r rs
  rcases (mem_candidates o s).1 (mem_contenders cfg o s hmem) with ⟨k, r', hk, hkn, heq⟩ | hnet
  · exact .inl ⟨k, r', hk, hkn, by rw [SameObject, heq]⟩
  · exact .inr ⟨b.route, hnet, rfl⟩

end Refers

/-! ## One recomputation -/

/-- The VRF table has the route built from the Loc-RIB entry of the prefix, if one can be built. -/
def Agreed (f : FamilyConfig ν) (o : Oracle ν) (s : AddressFamilyInstance ν) (n : ν) : Prop :=
  ∀ e route, s.locRib.lookup n = some e → buildRoute f o n e = some route → s.vrf n = some route

def KeepsHops (cfg : Config ν) (o : Oracle ν) (s : AddressFamilyInstance ν) (n : ν) : Prop :=
  ∀ e best, s.locRib.lookup n = some e → s.decision cfg o n = some best →
    e.route.addr = best.route.addr → routeHops cfg.family o e = routeHops cfg.family o best

section Recompute
variable {n : ν} {s s' : AddressFamilyInstance ν} (cfg : Config ν) (o : Oracle ν)

/-- A Loc-RIB entry with the address of the new best route is that route: the same distance and
    metric, or neither has a next hop. -/
theorem sameBest (hs : Distinct s) {e best : LocalRoute} (he : Traceable s n e.route)
    (hdecision : s.decision cfg o n = some best) (haddr : e.route.addr = best.route.addr) :
    (∃ r, SameObject r e.route ∧ SameObject r best.route) ∨
      (routeHops cfg.family o e = none ∧ routeHops cfg.family o best = none) := by
  rcases decision_refers cfg o hdecision with ⟨k, r, hk, -, hr⟩ | ⟨r, hnet, hr⟩
  · have hbest : best.route.addr = r.addr := by rw [hr]
    rcases he with ⟨k', r', hk', -, hr'⟩ | ⟨-, hother⟩
    · have he : e.route.addr = r'.addr := by rw [hr']
      have hkeys : k' = k := hs.routes k' k r' r hk' hk (by rw [← he, haddr, hbest])
      subst hkeys
      obtain rfl : r' = r := Option.some.inj (hk'.symm.trans hk)
      exact .inl ⟨r', hr', hr⟩
    · exact absurd (by rw [haddr, hbest]) (hother k r hk)
  · have hbest : best.route.addr = r.addr := by rw [hr]
    have hnone : routeHops cfg.family o best = none :=
      routeHops_eq_none _ (by rw [hr]; exact hs.noHop n r hnet)
    rcases he with ⟨k', r', hk', -, hr'⟩ | ⟨hhop, -⟩
    · have he : e.route.addr = r'.addr := by rw [hr']
      exact absurd (by rw [← he, haddr, hbest]) (hs.network k' n r' r hk' hnet)
    · exact .inr ⟨routeHops_eq_none _ hhop, hnone⟩

omit [DecidableEq ν] in
/-- What was built from an entry is what a second one with the same best route builds iff their next
    hops are the same. -/
theorem built_iff {f : FamilyConfig ν} {v : Option VrfRoute} {e best : LocalRoute}
    (hv : ∀ route, buildRoute f o n e = some route → v = some route)
    (hsame : (∃ r, SameObject r e.route ∧ SameObject r best.route) ∨
      (routeHops f o e = none ∧ routeHops f o best = none)) :
    (∀ route, buildRoute f o n best = some route → v = some route) ↔
      routeHops f o e = routeHops f o best := by
  rcases hsame with ⟨r, he, hbest⟩ | ⟨he, hbest⟩
  · have hbuild : buildRoute f o n e = buildRoute f o n best ↔ routeHops f o e = routeHops f o best :=
      buildRoute_eq_iff f (by rw [he, hbest]; rfl) (by rw [he, hbest]; rfl)
    have hnone : routeHops f o e = none ↔ routeHops f o best = none := by
      rw [routeHops_eq_none_iff, routeHops_eq_none_iff, he, hbest]
      rfl
    refine ⟨fun h => ?_, fun heq route hroute => hv route ((hbuild.2 heq).trans hroute)⟩
    cases hhops : routeHops f o best with
    | none => exact hnone.2 hhops
    | some hops =>
      obtain ⟨hops', hhops'⟩ : ∃ hops', routeHops f o e = some hops' :=
        Option.ne_none_iff_exists'.1 fun h => by simp [hnone.1 h] at hhops
      have hbuilt' := hv _ (by rw [buildRoute, hhops']; rfl)
      have hbuilt := h _ (by rw [buildRoute, hhops]; rfl)
      rw [hhops']
      exact congrArg some (congrArg VrfRoute.nextHops (Option.some.inj (hbuilt'.symm.trans hbuilt)))
  · rw [buildRoute, hbest, he]
    simp

/-- **One recomputation**: the VRF table agrees with the new entry iff the decision keeps the next
    hops or changes the best route. -/
theorem recomputeNlri_agreed_iff (hs : Distinct s)
    (href : ∀ e, s.locRib.lookup n = some e → Traceable s n e.route)
    (hagreed : Agreed cfg.family o s n) :
    Agreed cfg.family o (s.recomputeNlri cfg o n) n ↔ KeepsHops cfg o s n := by
  unfold Agreed KeepsHops
  cases hdecision : s.decision cfg o n with
  | none => simp [recomputeNlri_none cfg o hdecision]
  | some best =>
    cases hentry : s.locRib.lookup n with
    | none =>
      refine iff_of_true (fun e route he hroute => ?_) (by simp)
      by_cases hpass : (cfg.family.dampening && (s.locRib.lookup n).isNone && o.suppresses n) = true
      · -- the prefix is held back
        have hstay : s.recomputeNlri cfg o n = s := by
          simp only [recomputeNlri, hdecision, if_pos hpass]
        rw [hstay, hentry] at he
        cases he
      · obtain ⟨hlocRib, hvrf⟩ := recomputeNlri_some cfg o hdecision (Bool.not_eq_true _ ▸ hpass)
        obtain rfl := Option.some.inj (hlocRib.symm.trans he)
        rw [hvrf, hentry, hroute]
        rfl
    | some e =>
      obtain ⟨hlocRib, hvrf⟩ := recomputeNlri_some cfg o hdecision (by simp [hentry])
      rw [hentry] at hvrf
      by_cases haddr : e.route.addr = best.route.addr
      · have hkeep : (s.recomputeNlri cfg o n).vrf n = s.vrf n := by simpa [haddr] using hvrf
        have hiff := built_iff o (fun route => hagreed e route hentry)
          (sameBest cfg o hs (href e hentry) hdecision haddr)
        constructor
        · rintro h _ _ ⟨⟩ ⟨⟩ -
          exact hiff.1 fun route hroute => hkeep.symm.trans (h best route hlocRib hroute)
        · rintro h e' route he hroute
          obtain rfl := Option.some.inj (hlocRib.symm.trans he)
          exact hkeep.trans (hiff.2 (h e best rfl rfl haddr) route hroute)
      · refine iff_of_true (fun e' route he hroute => ?_) fun e' best' he hbest h => ?_
        · obtain rfl := Option.some.inj (hlocRib.symm.trans he)
          rw [hvrf, hroute]
          simp [haddr]
        · obtain rfl := Option.some.inj he
          obtain rfl := Option.some.inj hbest
          exact absurd h haddr

theorem recomputeNlri_refers {e : LocalRoute}
    (he : (s.recomputeNlri cfg o n).locRib.lookup n = some e) : Refers s n e.route := by
  cases hdecision : s.decision cfg o n with
  | none =>
    rw [recomputeNlri_none cfg o hdecision] at he
    cases he
  | some best =>
    by_cases hpass : (cfg.family.dampening && (s.locRib.lookup n).isNone && o.suppresses n) = true
    · have hstay : s.recomputeNlri cfg o n = s := by
        simp only [recomputeNlri, hdecision, if_pos hpass]
      have hentry : s.locRib.lookup n = none := by
        simp only [Bool.and_eq_true, Option.isNone_iff_eq_none] at hpass
        exact hpass.1.2
      rw [hstay, hentry] at he
      cases he
    · rw [(recomputeNlri_some cfg o hdecision (Bool.not_eq_true _ ▸ hpass)).1] at he
      obtain rfl := Option.some.inj he
      exact decision_refers cfg o hdecision

theorem SameIn.decision (h : SameIn s s') (n : ν) : s'.decision cfg o n = s.decision cfg o n := by
  simp only [AddressFamilyInstance.decision, contenders, candidates, h.adjRibIn, h.networkLocalRoutes]

/-- **The loop over the touched prefixes.** -/
theorem recomputeAll_agreed_iff {touched : List ν} (hs : Distinct s)
    (href : ∀ e, s.locRib.lookup n = some e → Traceable s n e.route)
    (hagreed : Agreed cfg.family o s n) :
    Agreed cfg.family o (s.recomputeAll cfg o touched) n ↔ (n ∈ touched → KeepsHops cfg o s n) := by
  have hmove {s s' : AddressFamilyInstance ν} (h : SameAt n s s') :
      Agreed cfg.family o s' n ↔ Agreed cfg.family o s n := by
    unfold Agreed
    rw [h.locRib, h.vrf]
  by_cases hn : n ∈ touched
  · obtain ⟨s₁, hin, hbefore, hafter⟩ := recomputeAll_at cfg o s hn
    have hkeeps : KeepsHops cfg o s₁ n ↔ KeepsHops cfg o s n := by
      unfold KeepsHops
      rw [hbefore.locRib, hin.decision]
    simp only [hn, true_implies]
    rw [hmove hafter, ← hkeeps]
    refine recomputeNlri_agreed_iff cfg o (hin.distinct hs) (fun e he => ?_) ((hmove hbefore).2 hagreed)
    rw [hbefore.locRib] at he
    have := href e he
    unfold Traceable RefersIn at this ⊢
    rwa [hin.adjRibIn]
  · rw [hmove (recomputeAll_sameAt cfg o s hn)]
    exact iff_of_true hagreed fun h => absurd h hn

theorem recomputeAll_refers {touched : List ν}
    (h : n ∉ touched → ∀ e, s.locRib.lookup n = some e → Refers s n e.route) {e : LocalRoute}
    (he : (s.recomputeAll cfg o touched).locRib.lookup n = some e) : Refers s n e.route := by
  by_cases hn : n ∈ touched
  · obtain ⟨s₁, hin, -, hafter⟩ := recomputeAll_at cfg o s hn
    rw [hafter.locRib] at he
    exact hin.refers.1 (recomputeNlri_refers cfg o he)
  · rw [(recomputeAll_sameAt cfg o s hn).locRib] at he
    exact h hn e he

end Recompute

/-! ## The edits -/

/-- Every Loc-RIB entry refers to a route that there is. -/
structure RefInv (s : AddressFamilyInstance ν) : Prop where
  distinct : Distinct s
  refers : ∀ n e, s.locRib.lookup n = some e → Refers s n e.route

/-- An edit takes Loc-RIB entries away and keeps the references. -/
structure RefEdit (s s' : AddressFamilyInstance ν) : Prop where
  sub : ∀ n e, s'.locRib.lookup n = some e → s.locRib.lookup n = some e
  refInv : RefInv s → RefInv s'

section Edits
variable {n : ν} {s s' s'' : AddressFamilyInstance ν} (cfg : Config ν) (o : Oracle ν)

theorem RefInv.of_eq (h : RefInv s) (hin : s'.adjRibIn = s.adjRibIn)
    (hnet : s'.networkLocalRoutes = s.networkLocalRoutes) (hlocRib : s'.locRib = s.locRib) :
    RefInv s' := by
  refine ⟨⟨?_, ?_, ?_⟩, ?_⟩
  · rw [hin]
    exact h.distinct.routes
  · rw [hin, hnet]
    exact h.distinct.network
  · rw [hnet]
    exact h.distinct.noHop
  · unfold Refers RefersIn
    rw [hin, hnet, hlocRib]
    exact h.refers

theorem RefEdit.of_eq (hin : s'.adjRibIn = s.adjRibIn)
    (hnet : s'.networkLocalRoutes = s.networkLocalRoutes) (hlocRib : s'.locRib = s.locRib) :
    RefEdit s s' :=
  ⟨fun n e he => by rwa [hlocRib] at he, fun h => h.of_eq hin hnet hlocRib⟩

theorem RefEdit.trans (h : RefEdit s s') (h' : RefEdit s' s'') : RefEdit s s'' :=
  ⟨fun n e he => h.sub n e (h'.sub n e he), fun hs => h'.refInv (h.refInv hs)⟩

theorem RefEdit.foldl {β : Type} {f : AddressFamilyInstance ν → β → AddressFamilyInstance ν}
    (hf : ∀ s b, RefEdit s (f s b)) (l : List β) (s : AddressFamilyInstance ν) :
    RefEdit s (l.foldl f s) := by
  induction l generalizing s with
  | nil => exact .of_eq rfl rfl rfl
  | cons b l ih => exact (hf s b).trans (ih _)

theorem lookup_unrefer {locRib : Table ν LocalRoute} {nlri : ν} {r : InboundRoute} {e : LocalRoute}
    (he : (unrefer locRib nlri r).lookup n = some e) :
    locRib.lookup n = some e ∧ (n = nlri → e.route.addr ≠ r.addr) := by
  unfold unrefer at he
  split at he
  · have hn : n ≠ nlri := by
      rintro rfl
      rw [AList.lookup_erase] at he
      cases he
    rw [AList.lookup_erase_ne hn] at he
    exact ⟨he, fun h => absurd h hn⟩
  · rename_i hany
    refine ⟨he, ?_⟩
    rintro rfl haddr
    rw [he] at hany
    simp [haddr] at hany

theorem removeRoute_refEdit (s : AddressFamilyInstance ν) (k : InKey ν) :
    RefEdit s (s.removeRoute k) := by
  have hin {k' : InKey ν} {r' : InboundRoute} (h : (s.removeRoute k).adjRibIn.lookup k' = some r') :
      s.adjRibIn.lookup k' = some r' := by
    rw [lookup_removeRoute] at h
    split at h
    · cases h
    · exact h
  have hnet := (removeRoute_inEdit s k).networkLocalRoutes
  cases hk : s.adjRibIn.lookup k with
  | none =>
    have hstay : s.removeRoute k = s := by simp only [removeRoute, hk]
    rw [hstay]
    exact .of_eq rfl rfl rfl
  | some r =>
    have hlocRib : (s.removeRoute k).locRib = unrefer s.locRib k.path.nlri r := by
      simp only [removeRoute, hk]
    refine ⟨fun n e he => ?_, fun h => ⟨⟨?_, ?_, ?_⟩, fun n e he => ?_⟩⟩
    · rw [hlocRib] at he
      exact (lookup_unrefer he).1
    · exact fun k₁ k₂ r₁ r₂ h₁ h₂ => h.distinct.routes k₁ k₂ r₁ r₂ (hin h₁) (hin h₂)
    · rw [hnet]
      exact fun k₁ m r₁ r₂ h₁ => h.distinct.network k₁ m r₁ r₂ (hin h₁)
    · rw [hnet]
      exact h.distinct.noHop
    · rw [hlocRib] at he
      obtain ⟨he, hother⟩ := lookup_unrefer he
      unfold Refers
      rw [hnet]
      rcases h.refers n e he with ⟨k', r', hk', hn, hsame⟩ | hnetwork
      · refine .inl ⟨k', r', ?_, hn, hsame⟩
        -- the entry of the route that goes was erased
        have hne : k' ≠ k := by
          rintro rfl
          obtain rfl : r = r' := Option.some.inj (hk.symm.trans hk')
          exact hother hn.symm (by rw [hsame])
        rw [lookup_removeRoute, if_neg hne]
        exact hk'
      · exact .inr hnetwork

theorem mem_liveAddrs_of_network {r : InboundRoute}
    (h : s.networkLocalRoutes.lookup n = some r) : r.addr ∈ s.liveAddrs :=
  List.mem_append_right _ (List.mem_map.2 ⟨_, AList.mem_lookup_iff.1 h, rfl⟩)

theorem mem_liveAddrs_of_route {k : InKey ν} {r : InboundRoute} (h : s.adjRibIn.lookup k = some r) :
    r.addr ∈ s.liveAddrs :=
  List.mem_append_left _ (List.mem_map.2 ⟨_, AList.mem_lookup_iff.1 h, rfl⟩)

theorem insertRoute_refInv (h : RefInv s) {k : InKey ν} (hk : s.adjRibIn.lookup k = none)
    {r : InboundRoute} (hr : r.addr ∉ s.liveAddrs) :
    RefInv { s with adjRibIn := s.adjRibIn.insert k r } := by
  have hlookup {k' : InKey ν} {r' : InboundRoute}
      (h : (s.adjRibIn.insert k r).lookup k' = some r') :
      (k' = k ∧ r' = r) ∨ s.adjRibIn.lookup k' = some r' := by
    by_cases hkk : k' = k
    · subst hkk
      rw [AList.lookup_insert] at h
      exact .inl ⟨rfl, (Option.some.inj h).symm⟩
    · rw [AList.lookup_insert_ne hkk] at h
      exact .inr h
  refine ⟨⟨fun k₁ k₂ r₁ r₂ h₁ h₂ haddr => ?_, fun k₁ m r₁ r₂ h₁ h₂ => ?_, h.distinct.noHop⟩,
    fun n e he => ?_⟩
  · rcases hlookup h₁ with ⟨rfl, rfl⟩ | hold
    · rcases hlookup h₂ with ⟨rfl, -⟩ | h₂
      · rfl
      · exact absurd (haddr ▸ mem_liveAddrs_of_route h₂) hr
    · rcases hlookup h₂ with ⟨rfl, rfl⟩ | h₂
      · exact absurd (haddr ▸ mem_liveAddrs_of_route hold) hr
      · exact h.distinct.routes k₁ k₂ r₁ r₂ hold h₂ haddr
  · rcases hlookup h₁ with ⟨rfl, rfl⟩ | h₁
    · exact fun haddr => hr (haddr ▸ mem_liveAddrs_of_network h₂)
    · exact h.distinct.network k₁ m r₁ r₂ h₁ h₂
  · rcases h.refers n e he with ⟨k', r', hk', hn, hsame⟩ | hnetwork
    · refine .inl ⟨k', r', ?_, hn, hsame⟩
      refine (AList.lookup_insert_ne ?_).trans hk'
      rintro rfl
      rw [hk] at hk'
      cases hk'
    · exact .inr hnetwork

theorem announcePrefix_refEdit (addr nbr : IPAddress) (rid : UInt32) (attrs : PathAttribute)
    (acc : AddressFamilyInstance ν × List ν) (p : NlriPath ν) :
    RefEdit acc.1 (announcePrefix cfg o addr nbr rid attrs acc p).1 := by
  simp only [announcePrefix]
  split
  · exact .of_eq rfl rfl rfl
  · refine (removeRoute_refEdit acc.1 ⟨rid, p⟩).trans ⟨fun _ _ he => he, fun h => ?_⟩
    have hnone : (acc.1.removeRoute ⟨rid, p⟩).adjRibIn.lookup ⟨rid, p⟩ = none := by
      rw [lookup_removeRoute, if_pos rfl]
    have hinsert := insertRoute_refInv h hnone (r := { inboundRoute cfg o addr nbr rid attrs with
      addr := o.alloc (acc.1.removeRoute ⟨rid, p⟩).liveAddrs }) (o.alloc_fresh _)
    exact hinsert.of_eq rfl rfl rfl

theorem takeUpdate_refEdit (s : AddressFamilyInstance ν) (addr nbr : IPAddress) (rid : UInt32)
    (update : ParsedUpdate ν) : RefEdit s (s.takeUpdate cfg o addr nbr rid update).1 := by
  have hwithdrawn : RefEdit s (update.withdrawn.foldl (fun s p => s.withdrawPath rid p) s) := by
    refine RefEdit.foldl (fun s p => ?_) _ s
    exact (removeRoute_refEdit s ⟨rid, p⟩).trans (.of_eq rfl rfl rfl)
  unfold takeUpdate
  cases update.attrs with
  | none => exact hwithdrawn
  | some attrs =>
    have hloop (ns : List (NlriPath ν)) (acc : AddressFamilyInstance ν × List ν) :
        RefEdit acc.1 (ns.foldl (announcePrefix cfg o addr nbr rid attrs) acc).1 := by
      induction ns generalizing acc with
      | nil => exact .of_eq rfl rfl rfl
      | cons p ns ih => exact (announcePrefix_refEdit cfg o addr nbr rid attrs acc p).trans (ih _)
    exact hwithdrawn.trans (hloop _ (_, _))

/-- The state before the loop over the touched prefixes. -/
structure Prepared (s : AddressFamilyInstance ν) (touched : List ν) : Prop where
  distinct : Distinct s
  traceable : ∀ n e, s.locRib.lookup n = some e → Traceable s n e.route
  refers : ∀ n, n ∉ touched → ∀ e, s.locRib.lookup n = some e → Refers s n e.route

theorem RefInv.prepared (h : RefInv s) (touched : List ν) : Prepared s touched where
  distinct := h.distinct
  traceable n e he := (h.refers n e he).traceable h.distinct
  refers n _ := h.refers n

theorem Prepared.refInv {touched : List ν} (h : Prepared s touched) :
    RefInv (s.recomputeAll cfg o touched) := by
  have hsame := recomputeAll_sameIn cfg o s touched
  refine ⟨hsame.distinct h.distinct, fun n e he => ?_⟩
  exact hsame.refers.2 (recomputeAll_refers cfg o (h.refers n) he)

omit [DecidableEq ν] in
theorem networkRoute_noHop (addr : ℕ) :
    (networkRoute cfg o addr).attrs.path.nextHop.isIPv4 = false := by
  change IPAddress.isIPv4 {} = false
  decide

theorem setNetwork_new {nlri : ν} {reachable : Bool} {r : InboundRoute}
    (hr : (s.setNetwork cfg o nlri reachable).networkLocalRoutes.lookup nlri = some r) :
    r.attrs.path.nextHop.isIPv4 = false ∧ ∀ k r', s.adjRibIn.lookup k = some r' → r'.addr ≠ r.addr := by
  cases reachable with
  | false =>
    have hnone : (s.setNetwork cfg o nlri false).networkLocalRoutes.lookup nlri = none :=
      AList.lookup_erase ..
    rw [hnone] at hr
    cases hr
  | true =>
    have hnew : (s.setNetwork cfg o nlri true).networkLocalRoutes.lookup nlri =
        some (networkRoute cfg o (o.alloc
          ({ s with networkLocalRoutes := s.networkLocalRoutes.erase nlri } :
            AddressFamilyInstance ν).liveAddrs)) := AList.lookup_insert _
    obtain rfl := Option.some.inj (hnew.symm.trans hr)
    refine ⟨networkRoute_noHop cfg o _, fun k r' hk haddr => ?_⟩
    have hmem := mem_liveAddrs_of_route
      (s := { s with networkLocalRoutes := s.networkLocalRoutes.erase nlri }) hk
    rw [haddr] at hmem
    exact o.alloc_fresh _ hmem

theorem setNetwork_prepared (h : RefInv s) (nlri : ν) (reachable : Bool) :
    Prepared (s.setNetwork cfg o nlri reachable) [nlri] := by
  obtain ⟨hin, hlocRib, -⟩ := setNetwork_ribs cfg o s nlri reachable
  have hother (n : ν) (hn : n ≠ nlri) := (setNetwork_sameAt cfg o s hn reachable).network
  refine ⟨⟨?_, fun k n r r' hk hr' => ?_, fun n r hr => ?_⟩, fun n e he => ?_, fun n hn e he => ?_⟩
  · rw [hin]
    exact h.distinct.routes
  · rw [hin] at hk
    by_cases hn : n = nlri
    · subst hn
      exact (setNetwork_new cfg o hr').2 k r hk
    · rw [hother n hn] at hr'
      exact h.distinct.network k n r r' hk hr'
  · by_cases hn : n = nlri
    · subst hn
      exact (setNetwork_new cfg o hr).1
    · rw [hother n hn] at hr
      exact h.distinct.noHop n r hr
  · rw [hlocRib] at he
    have := (h.refers n e he).traceable h.distinct
    unfold Traceable RefersIn at this ⊢
    rwa [hin]
  · rw [hlocRib] at he
    have := h.refers n e he
    unfold Refers RefersIn at this ⊢
    rwa [hin, hother n (by simpa using hn)]

end Edits

/-! ## The events -/

/-- What `purgeStalePeer` does before it recomputes, with the touched prefixes. -/
def purged (s : AddressFamilyInstance ν) (rid : UInt32) : AddressFamilyInstance ν × List ν :=
  match s.stalePeerNlris rid with
  | none => (s, [])
  | some stale => if stale.isEmpty then (s, []) else (s.dropStale rid stale, stale)

/-- What an event does before it recomputes, with the touched prefixes. -/
def edited (s : AddressFamilyInstance ν) (i : AfInput ν) : AddressFamilyInstance ν × List ν :=
  match i.event with
  | .update addr update => match s.peers (s.ridOf addr) with
    | none => (s, [])
    | some nbr =>
      let acc := s.takeUpdate i.cfg i.oracle addr nbr (s.ridOf addr) update
      (acc.1.enforceMaximumPrefix i.cfg addr nbr (s.ridOf addr), acc.2)
  | .sessionDown addr => match s.sessionOf addr with
    | none => (s, [])
    | some ses =>
      let s := (s.closeSession addr).dropPeerState ses.peerRid
      (s.dropPeer ses.peerRid, (s.peerKeys ses.peerRid).map (·.path.nlri))
  | .eorr addr => match s.sessionRid addr with
    | none => (s, [])
    | some rid => (s.cancelStaleTimers rid).purged rid
  | .staleTimer rid timer => match s.staleTimers rid, timer with
    | some ⟨true, maxEor⟩, .stalepath =>
      { s with staleTimers := Function.update s.staleTimers rid (some ⟨false, maxEor⟩) }.purged rid
    | some ⟨stalepath, true⟩, .maxEor =>
      { s with staleTimers := Function.update s.staleTimers rid (some ⟨stalepath, false⟩) }.purged rid
    | _, _ => (s, [])
  | .networkRibChanged nlri reachable => (s.setNetwork i.cfg i.oracle nlri reachable, [nlri])
  | .nhtTimer => ({ s with pendingNhtRecompute := [] }, s.pendingNhtRecompute)
  | _ => (s, [])

section Events
variable {n : ν} {s s' s'' : AddressFamilyInstance ν} (cfg : Config ν) (o : Oracle ν)

omit [DecidableEq ν] in
theorem SameRibs.refl (s : AddressFamilyInstance ν) : SameRibs s s := ⟨rfl, rfl, rfl, rfl⟩

omit [DecidableEq ν] in
theorem SameRibs.trans (h : SameRibs s s') (h' : SameRibs s' s'') : SameRibs s s'' :=
  ⟨h'.1.trans h.1, h'.2.trans h.2, h'.3.trans h.3, h'.4.trans h.4⟩

omit [DecidableEq ν] in
theorem SameRibs.foldl {β : Type} {f : AddressFamilyInstance ν → β → AddressFamilyInstance ν}
    (hf : ∀ s b, SameRibs s (f s b)) (l : List β) (s : AddressFamilyInstance ν) :
    SameRibs s (l.foldl f s) := by
  induction l generalizing s with
  | nil => exact .refl s
  | cons b l ih => exact (hf s b).trans (ih _)

theorem SameRibs.refInv (h : SameRibs s s') (hs : RefInv s) : RefInv s' :=
  hs.of_eq h.adjRibIn h.networkLocalRoutes h.locRib

theorem SameRibs.refEdit (h : SameRibs s s') : RefEdit s s' :=
  .of_eq h.adjRibIn h.networkLocalRoutes h.locRib

theorem SameRibs.agreed (h : SameRibs s s') {f : FamilyConfig ν} {o : Oracle ν} :
    Agreed f o s' n ↔ Agreed f o s n := by
  unfold Agreed
  rw [h.locRib, h.vrf]

theorem recomputeAll_nil (s : AddressFamilyInstance ν) : s.recomputeAll cfg o [] = s := by
  rw [recomputeAll, List.dedup_nil, List.Perm.eq_nil (o.order_perm [])]
  rfl

theorem recomputeAll_singleton (s : AddressFamilyInstance ν) (nlri : ν) :
    s.recomputeAll cfg o [nlri] = s.recomputeNlri cfg o nlri := by
  have hdedup : [nlri].dedup = [nlri] := List.Nodup.dedup (List.nodup_singleton nlri)
  rw [recomputeAll, hdedup, List.Perm.eq_singleton (o.order_perm [nlri])]
  rfl

theorem purgeStalePeer_eq (s : AddressFamilyInstance ν) (rid : UInt32) :
    s.purgeStalePeer cfg o rid = (s.purged rid).1.recomputeAll cfg o (s.purged rid).2 := by
  unfold purgeStalePeer purged
  cases s.stalePeerNlris rid with
  | none => exact (recomputeAll_nil cfg o s).symm
  | some stale =>
    by_cases hempty : stale.isEmpty
    · simp only [if_pos hempty, recomputeAll_nil]
    · simp only [if_neg hempty]

theorem scan_sameRibs (s : AddressFamilyInstance ν) : SameRibs s (s.scan cfg o) :=
  SameRibs.foldl (f := fun s (e : (_ : ν) × LocalRoute) => s.recomputeAdjRibOut cfg o e.1 (some e.2))
    (fun _ _ => ⟨rfl, rfl, rfl, rfl⟩) _ s

theorem drainMraiPending_sameRibs (s : AddressFamilyInstance ν) (rid : UInt32) :
    SameRibs s (s.drainMraiPending cfg o rid) := by
  simp only [drainMraiPending]
  split
  · exact .refl s
  · obtain ⟨h₁, h₂, h₃, h₄⟩ := SameRibs.foldl
      (f := fun s nlri => s.recomputeAdjRibOut cfg o nlri (s.locRib.lookup nlri))
      (fun _ _ => ⟨rfl, rfl, rfl, rfl⟩) (o.order (s.out.mraiState rid).pending)
      { s with out := { s.out.setMrai rid ⟨o.now, [], false⟩ with mraiBypassPeer := rid } }
    exact ⟨h₁, h₂, h₃, h₄⟩

/-- **The handlers**: an event edits the routes, recomputes the touched prefixes, and leaves the RIBs
    alone otherwise. -/
theorem step_sameRibs (s : AddressFamilyInstance ν) (i : AfInput ν) :
    SameRibs ((s.edited i).1.recomputeAll i.cfg i.oracle (s.edited i).2) (s.step i) := by
  unfold step edited
  cases i.event with
  | update addr update =>
    simp only [onParsedUpdateFromPeer]
    cases s.peers (s.ridOf addr) with
    | none =>
      simp only [recomputeAll_nil]
      exact .refl s
    | some nbr => exact .refl _
  | established addr ses =>
    simp only [recomputeAll_nil, onSessionEstablished]
    split
    · obtain ⟨h₁, h₂, h₃, h₄⟩ := scan_sameRibs i.cfg i.oracle { s with
        neighbors := s.neighbors.insert addr
          ⟨((s.sessionOf addr).getD ses).peerRid, some ((s.sessionOf addr).getD ses)⟩
        peers := Function.update s.peers ((s.sessionOf addr).getD ses).peerRid (some addr) }
      exact ⟨h₁, h₂, h₃, h₄⟩
    · exact ⟨rfl, rfl, rfl, rfl⟩
  | updateDelay addr =>
    simp only [recomputeAll_nil, onUpdateDelay]
    split
    · split
      · exact scan_sameRibs i.cfg i.oracle s
      · exact .refl s
    · exact .refl s
  | sessionDown addr =>
    simp only [onSessionDown]
    cases s.sessionOf addr with
    | none =>
      simp only [recomputeAll_nil]
      exact .refl s
    | some ses =>
      simp only [invalidatePeer, deactivatePeer, clearRid]
      split <;> exact ⟨rfl, rfl, rfl, rfl⟩
  | borr addr =>
    simp only [recomputeAll_nil]
    split
    · obtain ⟨h₁, h₂, h₃, h₄⟩ := (cancelStaleTimers_staleEdit s _).sameRibs
      exact ⟨h₁, h₂, h₃, h₄⟩
    · exact .refl s
  | eorr addr =>
    simp only
    cases s.sessionRid addr with
    | none =>
      simp only [recomputeAll_nil]
      exact .refl s
    | some rid =>
      simp only [onPeerEorr, purgeStalePeer_eq]
      exact .refl _
  | staleTimer rid timer =>
    simp only [onStaleTimer]
    rcases timer with _ | _ <;> rcases s.staleTimers rid with _ | ⟨_ | _, _ | _⟩ <;>
      simp only [recomputeAll_nil, purgeStalePeer_eq] <;> exact .refl _
  | networkRibChanged nlri reachable =>
    simp only [onNetworkRibChanged, recomputeAll_singleton]
    exact .refl _
  | mraiTimer rid =>
    simp only [recomputeAll_nil]
    exact drainMraiPending_sameRibs i.cfg i.oracle s rid
  | nhtChange nh reachable =>
    simp only [recomputeAll_nil, onNhtChange]
    split
    · exact .refl s
    · split
      · exact .refl s
      · exact ⟨rfl, rfl, rfl, rfl⟩
  | nhtTimer => exact .refl _
  | scan =>
    simp only [recomputeAll_nil]
    exact scan_sameRibs i.cfg i.oracle s

theorem purged_refEdit (s : AddressFamilyInstance ν) (rid : UInt32) :
    RefEdit s (s.purged rid).1 ∧ (s.purged rid).1.vrf = s.vrf := by
  have hstay : RefEdit s s := .of_eq rfl rfl rfl
  unfold purged
  cases s.stalePeerNlris rid with
  | none => exact ⟨hstay, rfl⟩
  | some stale =>
    by_cases hempty : stale.isEmpty
    · simp only [if_pos hempty]
      exact ⟨hstay, trivial⟩
    · simp only [if_neg hempty]
      exact ⟨(RefEdit.foldl removeRoute_refEdit _ s).trans (.of_eq rfl rfl rfl),
        (dropStale_inEdit s rid stale).vrf⟩

theorem edited_cases (s : AddressFamilyInstance ν) (i : AfInput ν) :
    (RefEdit s (s.edited i).1 ∧ (s.edited i).1.vrf = s.vrf) ∨
      ∃ nlri reachable, s.edited i = (s.setNetwork i.cfg i.oracle nlri reachable, [nlri]) := by
  have hstay : RefEdit s s := .of_eq rfl rfl rfl
  unfold edited
  cases i.event with
  | update addr update =>
    dsimp only
    cases s.peers (s.ridOf addr) with
    | none => exact .inl ⟨hstay, rfl⟩
    | some nbr =>
      have hsame := enforceMaximumPrefix_sameIn i.cfg
        (s.takeUpdate i.cfg i.oracle addr nbr (s.ridOf addr) update).1 addr nbr (s.ridOf addr)
      obtain ⟨hlocRib, hvrf, -⟩ := enforceMaximumPrefix_ribs i.cfg
        (s.takeUpdate i.cfg i.oracle addr nbr (s.ridOf addr) update).1 addr nbr (s.ridOf addr)
      refine .inl ⟨?_, ?_⟩
      · exact (takeUpdate_refEdit i.cfg i.oracle s addr nbr (s.ridOf addr) update).trans
          (.of_eq hsame.adjRibIn hsame.networkLocalRoutes hlocRib)
      · exact hvrf.trans (takeUpdate_inEdit i.cfg i.oracle s addr nbr (s.ridOf addr) update).vrf
  | sessionDown addr =>
    dsimp only
    cases s.sessionOf addr with
    | none => exact .inl ⟨hstay, rfl⟩
    | some ses =>
      have hclosed := closeSession_sameRibs s addr ses.peerRid
      refine .inl ⟨?_, (dropPeer_inEdit _ _).vrf.trans hclosed.vrf⟩
      exact hclosed.refEdit.trans (RefEdit.foldl removeRoute_refEdit _ _)
  | eorr addr =>
    dsimp only
    cases s.sessionRid addr with
    | none => exact .inl ⟨hstay, rfl⟩
    | some rid =>
      have hcancel := (cancelStaleTimers_staleEdit s rid).sameRibs
      obtain ⟨hedit, hvrf⟩ := purged_refEdit (s.cancelStaleTimers rid) rid
      refine .inl ⟨?_, hvrf.trans hcancel.vrf⟩
      exact hcancel.refEdit.trans hedit
  | staleTimer rid timer =>
    have hpurged (timers : Option StaleTimers) :
        RefEdit s ({ s with staleTimers := Function.update s.staleTimers rid timers }.purged rid).1 ∧
          ({ s with staleTimers := Function.update s.staleTimers rid timers }.purged rid).1.vrf =
            s.vrf := by
      obtain ⟨hedit, hvrf⟩ := purged_refEdit
        { s with staleTimers := Function.update s.staleTimers rid timers } rid
      exact ⟨⟨hedit.sub, fun h => hedit.refInv (h.of_eq rfl rfl rfl)⟩, hvrf⟩
    left
    simp only
    split
    · exact hpurged _
    · exact hpurged _
    · exact ⟨hstay, rfl⟩
  | networkRibChanged nlri reachable => exact .inr ⟨nlri, reachable, rfl⟩
  | nhtTimer => exact .inl ⟨.of_eq rfl rfl rfl, rfl⟩
  | established addr ses => exact .inl ⟨hstay, rfl⟩
  | updateDelay addr => exact .inl ⟨hstay, rfl⟩
  | borr addr => exact .inl ⟨hstay, rfl⟩
  | mraiTimer rid => exact .inl ⟨hstay, rfl⟩
  | nhtChange nh reachable => exact .inl ⟨hstay, rfl⟩
  | scan => exact .inl ⟨hstay, rfl⟩

theorem edited_prepared (h : RefInv s) (i : AfInput ν) : Prepared (s.edited i).1 (s.edited i).2 := by
  rcases edited_cases s i with ⟨hedit, -⟩ | ⟨nlri, reachable, heq⟩
  · exact (hedit.refInv h).prepared _
  · rw [heq]
    exact setNetwork_prepared i.cfg i.oracle h nlri reachable

theorem edited_agreed {f : FamilyConfig ν} (h : Agreed f o s n) (i : AfInput ν) :
    Agreed f o (s.edited i).1 n := by
  rcases edited_cases s i with ⟨hedit, hvrf⟩ | ⟨nlri, reachable, heq⟩
  · intro e route he hroute
    rw [hvrf]
    exact h e route (hedit.sub n e he) hroute
  · rw [heq]
    cases reachable <;> exact h

def KeepsAllHops (s : AddressFamilyInstance ν) (i : AfInput ν) : Prop :=
  ∀ n ∈ (s.edited i).2, KeepsHops i.cfg i.oracle (s.edited i).1 n

theorem step_refInv (h : RefInv s) (i : AfInput ν) : RefInv (s.step i) :=
  (step_sameRibs s i).refInv ((edited_prepared h i).refInv i.cfg i.oracle)

/-- **One event.** -/
theorem step_agreed_iff (h : RefInv s) {i : AfInput ν}
    (hagreed : ∀ n, Agreed i.cfg.family i.oracle s n) :
    (∀ n, Agreed i.cfg.family i.oracle (s.step i) n) ↔ KeepsAllHops s i := by
  have hprep := edited_prepared h i
  refine forall_congr' fun n => ?_
  rw [(step_sameRibs s i).agreed, recomputeAll_agreed_iff i.cfg i.oracle hprep.distinct
    (hprep.traceable n) (edited_agreed i.oracle (hagreed n) i)]

end Events

/-! ## Runs -/

theorem refInv_init : RefInv ({} : AddressFamilyInstance ν) where
  distinct :=
    { routes := by
        intro _ _ _ _ h
        cases h
      network := by
        intro _ _ _ _ h
        cases h
      noHop := by
        intro _ _ h
        cases h }
  refers _ _ h := by cases h

/-- **The VRF table has the routes built from the Loc-RIB** at each point of a run, with the family
    configuration and the lookups of next hops the same throughout, iff no event keeps the best route
    of a prefix that it recomputes and changes the next hops. -/
theorem agreed_iff (f : FamilyConfig ν) (o : Oracle ν) (is : List (AfInput ν))
    (henv : ∀ i ∈ is, i.cfg.family = f ∧ i.oracle.ribLookup = o.ribLookup) :
    (∀ ps, ps <+: is → ∀ n, Agreed f o (runFrom step {} ps) n) ↔ Along KeepsAllHops step {} is := by
  refine (along_iff_everywhere (I := RefInv) (Q := fun s => ∀ n, Agreed f o s n)
    (fun s i h => step_refInv h i) (fun s i hi h hagreed => ?_) henv refInv_init ?_).symm
  · obtain ⟨rfl, hlookup⟩ := hi
    have hmove (s : AddressFamilyInstance ν) (n : ν) :
        Agreed i.cfg.family o s n ↔ Agreed i.cfg.family i.oracle s n := by
      unfold Agreed
      rw [buildRoute_congr i.cfg.family hlookup]
    simp only [hmove] at hagreed ⊢
    exact step_agreed_iff h hagreed
  · intro n e route he
    cases he

/-- The sample configuration with two paths, where the router id decides before the age. -/
def sampleMultipathConfig : Config (UInt32 × UInt8) :=
  { sampleConfig with
    family := { maximumPathsEbgp := 2, bestPath := { compareRouterId := true } } }

/-- The sample neighbor announces two paths for a prefix, and withdraws the first. -/
def sampleMultipathRun : List (AfInput (UInt32 × UInt8)) :=
  [⟨sampleMultipathConfig, sampleOracle, .established sampleNbr sampleNbrSession⟩,
    ⟨sampleMultipathConfig, sampleOracle, .update sampleNbr
      { sampleUpdate [65001] 0xC0000201 with announcements := [⟨samplePrefix, 1⟩] }⟩,
    ⟨sampleMultipathConfig, sampleOracle, .update sampleNbr
      { sampleUpdate [65001] 0xC0000209 with announcements := [⟨samplePrefix, 2⟩] }⟩,
    ⟨sampleMultipathConfig, sampleOracle, .update sampleNbr { withdrawn := [⟨samplePrefix, 1⟩] }⟩]

theorem agreed_iff_sample :
    (∀ ps, ps <+: sampleMultipathRun →
        ∀ n, Agreed sampleMultipathConfig.family sampleOracle (runFrom step {} ps) n) ↔
      Along KeepsAllHops step {} sampleMultipathRun :=
  agreed_iff sampleMultipathConfig.family sampleOracle sampleMultipathRun (by
    intro i hi
    fin_cases hi <;> exact ⟨rfl, rfl⟩)

/-- The second path stays the best one, and the next hop of the first stays installed. -/
theorem not_agreed_sample :
    ¬ ∀ ps, ps <+: sampleMultipathRun →
      ∀ n, Agreed sampleMultipathConfig.family sampleOracle (runFrom step {} ps) n := by
  intro h
  have hbuilt : ((runFrom step {} sampleMultipathRun).locRib.lookup samplePrefix).bind
      (buildRoute sampleMultipathConfig.family sampleOracle samplePrefix) =
      some ⟨20, 0, [(0xC0000209, 1)]⟩ := by decide +kernel
  obtain ⟨e, he, hroute⟩ := Option.bind_eq_some_iff.1 hbuilt
  have hvrf := h _ (List.prefix_refl _) samplePrefix e _ he hroute
  revert hvrf
  decide +kernel

end AddressFamilyInstance

end VirtualRouter.Bgp
