/-
  The selection of successors in the DUAL engine (`eigrp/topology/DuelEngine.cpp`,
  `TopologyTable.h`).

  `routesBySource` is iterated in the order of its entries.  Of a route the
  distances, the administrative distance and the flags are kept, which is all
  that the selection reads and writes.

  The product of the best distance and the variance is taken in 64 bits, and
  `successors` keeps the order of the table, from which its first element is
  taken for the best route.

  * `bestRoute_spec`: the first loop finds the first of the nearest routes;
  * `Selection`: what the comments on the lists and on `findBestRoute` come to;
  * `selection_iff`: it holds iff the first route within the variance, as the
    code computes it, is a nearest one, and in balanced mode the product does
    not fall below a distance that is within the variance.
-/
import VirtualRouter.Types.IPPrefix

namespace VirtualRouter.Eigrp

/-- The raw bits of an `IPAddress`. -/
abbrev IPAddress := BitVec 128

/-- `std::numeric_limits<uint64_t>::max()`: the distance of a route that is not reachable. -/
def INFINITE : UInt64 := 0xFFFFFFFFFFFFFFFF

inductive TrafficShareMode where
  | BALENCED
  | MINIMUM
  deriving DecidableEq, Repr

/-- `RouteInfo` with its `ReceivedRoute`; `active` is the flag `ACTIVE`. -/
structure RouteInfo where
  reportedDistance : UInt64
  feasibleDistance : UInt64
  adminDistance : UInt8 := 90
  active : Bool := false
  isSuccessor : Bool := false
  isFeasibleSuccessor : Bool := false
  deriving DecidableEq, Repr

/-- `TopologyEntry::State`. -/
inductive EntryState where
  | ACTIVE
  | PASSIVE
  | POISENED
  deriving DecidableEq, Repr

abbrev Routes := AList fun _ : IPAddress => RouteInfo

structure TopologyEntry where
  routesBySource : Routes := ∅
  feasibleSuccessors : List IPAddress := []
  successors : List IPAddress := []
  bestFD : UInt64 := INFINITE
  bestAD : UInt8 := 255
  bestNeighbor : IPAddress := 0
  state : EntryState := .PASSIVE

abbrev Source := (_ : IPAddress) × RouteInfo

/-! ## The functions -/

def Routes.update (f : RouteInfo → RouteInfo) (rs : Routes) : Routes where
  entries := rs.entries.map fun e => ⟨e.1, f e.2⟩
  nodupKeys := by
    have h := rs.nodupKeys
    unfold List.NodupKeys at h ⊢
    simpa [List.keys, Function.comp_def] using h

/-- What the first loop keeps: `bestFD`, `bestAD` and `bestNeighbor`. -/
structure Best where
  fd : UInt64
  ad : UInt8
  nbr : IPAddress

def bestRound (best : Best) (e : Source) : Best :=
  if e.2.feasibleDistance = INFINITE then best
  else if e.2.feasibleDistance < best.fd then ⟨e.2.feasibleDistance, e.2.adminDistance, e.1⟩
  else best

def bestRoute (rs : Routes) (nbr : IPAddress) : Best :=
  rs.entries.foldl bestRound ⟨INFINITE, 255, nbr⟩

def withinVariance (best : UInt64) (variance : UInt8) (r : RouteInfo) : Bool :=
  r.feasibleDistance ≠ INFINITE ∧ r.feasibleDistance ≤ best * variance.toUInt64

/-- The route passes the feasibility condition. -/
def feasible (best : UInt64) (r : RouteInfo) : Bool :=
  r.feasibleDistance ≠ INFINITE ∧ r.reportedDistance < best

def Routes.neighbors (p : RouteInfo → Bool) (rs : Routes) : List IPAddress :=
  (rs.entries.filter fun e : Source => p e.2).map (·.1)

/-- `recalculateSuccessors`: the entry and the answer. -/
def recalculateSuccessors (trafMode : TrafficShareMode) (variance : UInt8) (entry : TopologyEntry) :
    TopologyEntry × Bool :=
  if entry.routesBySource.entries = [] then (entry, false)
  else
    let best := bestRoute entry.routesBySource entry.bestNeighbor
    let successors := entry.routesBySource.neighbors (withinVariance best.fd variance)
    let entry :=
      { entry with
        routesBySource := entry.routesBySource.update fun r =>
          { r with
            isFeasibleSuccessor := feasible best.fd r
            isSuccessor := withinVariance best.fd variance r
            active := false }
        feasibleSuccessors := entry.routesBySource.neighbors (feasible best.fd)
        successors := successors
        bestFD := best.fd
        bestAD := best.ad
        bestNeighbor := best.nbr }
    if successors = [] then ({ entry with bestFD := INFINITE }, false)
    else
      ({ entry with
          successors := if trafMode = .MINIMUM then successors.take 1 else successors
          state := .PASSIVE }, true)

/-- `findBestRoute`, with the entry found for the prefix. -/
def findBestRoute (entry : Option TopologyEntry) : Option RouteInfo :=
  entry.bind fun entry => entry.successors.head?.bind entry.routesBySource.lookup

/-! ## What is expected of them -/

namespace TopologyEntry

/-- The neighbor has a route of the distance `d`, which is finite. -/
def At (entry : TopologyEntry) (nbr : IPAddress) (d : ℕ) : Prop :=
  ∃ r, entry.routesBySource.lookup nbr = some r ∧ r.feasibleDistance ≠ INFINITE ∧
    r.feasibleDistance.toNat = d

def distances (entry : TopologyEntry) : Set ℕ := {d | ∃ nbr, entry.At nbr d}

/-- The selection in `after` is right for the routes of `entry`, the product being unbounded. -/
structure Selection (trafMode : TrafficShareMode) (variance : UInt8) (entry after : TopologyEntry) :
    Prop where
  bestFD : IsLeast entry.distances after.bestFD.toNat
  bestNeighbor : entry.At after.bestNeighbor after.bestFD.toNat
  bestNeighbor_mem : after.bestNeighbor ∈ after.successors
  balanced : trafMode = .BALENCED → ∀ nbr, nbr ∈ after.successors ↔
    ∃ d, entry.At nbr d ∧ d ≤ variance.toNat * after.bestFD.toNat
  minimum : trafMode = .MINIMUM →
    ∃ nbr, after.successors = [nbr] ∧ entry.At nbr after.bestFD.toNat
  findBestRoute : ∃ r, Eigrp.findBestRoute (some after) = some r ∧
    r.feasibleDistance = after.bestFD

/-- The first route within the variance is a nearest one; in balanced mode no distance within the
    variance is above the product. -/
structure SelectionFits (trafMode : TrafficShareMode) (variance : UInt8) (entry : TopologyEntry)
    (best : UInt64) : Prop where
  least : IsLeast entry.distances best.toNat
  first : ∃ e : Source, entry.routesBySource.entries.find?
    (fun e : Source => withinVariance best variance e.2) = some e ∧ e.2.feasibleDistance = best
  product : trafMode = .BALENCED → ∀ d ∈ entry.distances, d ≤ variance.toNat * best.toNat →
    d ≤ (best * variance.toUInt64).toNat

end TopologyEntry

/-! ## The loops -/

theorem bestRoute_spec (l : List Source) (acc : Best) :
    (l.foldl bestRound acc = acc ∧
      ∀ e ∈ l, e.2.feasibleDistance ≠ INFINITE → acc.fd ≤ e.2.feasibleDistance) ∨
    ∃ l₁ e l₂, l = l₁ ++ e :: l₂ ∧ e.2.feasibleDistance ≠ INFINITE ∧
      l.foldl bestRound acc = ⟨e.2.feasibleDistance, e.2.adminDistance, e.1⟩ ∧
      e.2.feasibleDistance < acc.fd ∧
      (∀ e' ∈ l₁, e'.2.feasibleDistance ≠ INFINITE → e.2.feasibleDistance < e'.2.feasibleDistance) ∧
      ∀ e' ∈ l₂, e'.2.feasibleDistance ≠ INFINITE → e.2.feasibleDistance ≤ e'.2.feasibleDistance := by
  induction l generalizing acc with
  | nil => exact .inl ⟨rfl, by simp⟩
  | cons x l ih =>
    rw [List.foldl_cons]
    by_cases hx : x.2.feasibleDistance ≠ INFINITE ∧ x.2.feasibleDistance < acc.fd
    · -- the route is taken
      have hround : bestRound acc x = ⟨x.2.feasibleDistance, x.2.adminDistance, x.1⟩ := by
        rw [bestRound, if_neg hx.1, if_pos hx.2]
      rw [hround]
      rcases ih ⟨x.2.feasibleDistance, x.2.adminDistance, x.1⟩ with
        ⟨hfold, hle⟩ | ⟨l₁, e, l₂, rfl, hfin, hfold, hlt, h₁, h₂⟩
      · exact .inr ⟨[], x, l, rfl, hx.1, hfold, hx.2, by simp, hle⟩
      · refine .inr ⟨x :: l₁, e, l₂, rfl, hfin, hfold, UInt64.lt_trans hlt hx.2, ?_, h₂⟩
        intro e' he' hfin'
        rcases List.mem_cons.1 he' with rfl | he'
        · exact hlt
        · exact h₁ e' he' hfin'
    · have hround : bestRound acc x = acc := by
        unfold bestRound
        split_ifs with hinf hlt
        · rfl
        · exact absurd ⟨hinf, hlt⟩ hx
        · rfl
      have hxle : x.2.feasibleDistance ≠ INFINITE → acc.fd ≤ x.2.feasibleDistance :=
        fun hfin => UInt64.not_lt.1 fun hlt => hx ⟨hfin, hlt⟩
      rw [hround]
      rcases ih acc with ⟨hfold, hle⟩ | ⟨l₁, e, l₂, rfl, hfin, hfold, hlt, h₁, h₂⟩
      · refine .inl ⟨hfold, fun e he => ?_⟩
        rcases List.mem_cons.1 he with rfl | he
        · exact hxle
        · exact hle e he
      · refine .inr ⟨x :: l₁, e, l₂, rfl, hfin, hfold, hlt, ?_, h₂⟩
        intro e' he' hfin'
        rcases List.mem_cons.1 he' with rfl | he'
        · exact UInt64.lt_of_lt_of_le hlt (hxle hfin')
        · exact h₁ e' he' hfin'

theorem Routes.lookup_update (f : RouteInfo → RouteInfo) (rs : Routes) (nbr : IPAddress) :
    (rs.update f).lookup nbr = (rs.lookup nbr).map f := by
  ext r
  rw [← Option.mem_def, AList.mem_lookup_iff, Option.map_eq_some_iff]
  unfold update
  simp only [List.mem_map]
  constructor
  · rintro ⟨e, he, heq⟩
    obtain ⟨rfl, hr⟩ := Sigma.mk.inj heq
    exact ⟨e.2, AList.mem_lookup_iff.2 he, eq_of_heq hr⟩
  · rintro ⟨r', hr', rfl⟩
    exact ⟨⟨nbr, r'⟩, AList.mem_lookup_iff.1 hr', rfl⟩

theorem Routes.mem_neighbors {p : RouteInfo → Bool} {rs : Routes} {nbr : IPAddress} :
    nbr ∈ rs.neighbors p ↔ ∃ r, rs.lookup nbr = some r ∧ p r = true := by
  unfold neighbors
  rw [List.mem_map]
  constructor
  · rintro ⟨e, he, rfl⟩
    obtain ⟨he, hp⟩ := List.mem_filter.1 he
    exact ⟨e.2, AList.mem_lookup_iff.2 he, hp⟩
  · rintro ⟨r, hr, hp⟩
    exact ⟨⟨nbr, r⟩, List.mem_filter.2 ⟨AList.mem_lookup_iff.1 hr, hp⟩, rfl⟩

theorem Routes.head?_neighbors {p : RouteInfo → Bool} {rs : Routes} :
    (rs.neighbors p).head? = (rs.entries.find? fun e : Source => p e.2).map (·.1) := by
  rw [neighbors, List.head?_map, List.head?_filter]

theorem withinVariance_iff {best : UInt64} {variance : UInt8} {r : RouteInfo} :
    withinVariance best variance r = true ↔
      r.feasibleDistance ≠ INFINITE ∧ r.feasibleDistance ≤ best * variance.toUInt64 := by
  simp [withinVariance]

theorem recalculateSuccessors_of_mem (trafMode : TrafficShareMode) (variance : UInt8)
    {entry : TopologyEntry} {best : Best}
    (hbest : bestRoute entry.routesBySource entry.bestNeighbor = best)
    (hne : entry.routesBySource.neighbors (withinVariance best.fd variance) ≠ []) :
    let after := (recalculateSuccessors trafMode variance entry).1
    after.bestFD = best.fd ∧ after.bestNeighbor = best.nbr ∧
      after.successors = (if trafMode = .MINIMUM then
        (entry.routesBySource.neighbors (withinVariance best.fd variance)).take 1
        else entry.routesBySource.neighbors (withinVariance best.fd variance)) ∧
      ∀ nbr, (after.routesBySource.lookup nbr).map (·.feasibleDistance) =
        (entry.routesBySource.lookup nbr).map (·.feasibleDistance) := by
  have hentries : entry.routesBySource.entries ≠ [] := by
    intro h
    rw [Routes.neighbors, h] at hne
    exact hne rfl
  unfold recalculateSuccessors
  simp only [hbest, if_neg hentries, if_neg hne, true_and]
  intro nbr
  rw [Routes.lookup_update, Option.map_map]
  rfl

theorem recalculateSuccessors_of_nil (trafMode : TrafficShareMode) {variance : UInt8}
    {entry : TopologyEntry}
    (hnil : entry.routesBySource.neighbors (withinVariance
      (bestRoute entry.routesBySource entry.bestNeighbor).fd variance) = []) :
    entry.routesBySource.entries = [] ∨
      (recalculateSuccessors trafMode variance entry).1.successors = [] := by
  by_cases hentries : entry.routesBySource.entries = []
  · exact .inl hentries
  · refine .inr ?_
    unfold recalculateSuccessors
    simp only [if_neg hentries, hnil, if_true]

/-! ## The selection -/

namespace TopologyEntry

variable {trafMode : TrafficShareMode} {variance : UInt8} {entry : TopologyEntry}

theorem at_of_mem {e : Source} (he : e ∈ entry.routesBySource.entries)
    (hfin : e.2.feasibleDistance ≠ INFINITE) : entry.At e.1 e.2.feasibleDistance.toNat :=
  ⟨e.2, AList.mem_lookup_iff.2 he, hfin, rfl⟩

theorem bestRoute_of_least {best : UInt64} (hleast : IsLeast entry.distances best.toNat) :
    ∃ l₁ e l₂, entry.routesBySource.entries = l₁ ++ e :: l₂ ∧ e.2.feasibleDistance = best ∧
      e.2.feasibleDistance ≠ INFINITE ∧
      bestRoute entry.routesBySource entry.bestNeighbor = ⟨best, e.2.adminDistance, e.1⟩ ∧
      ∀ e' ∈ l₁, e'.2.feasibleDistance ≠ best := by
  obtain ⟨⟨nbr, r, hr, hfin, hd⟩, hmin⟩ := hleast
  have hmem : (⟨nbr, r⟩ : Source) ∈ entry.routesBySource.entries := AList.mem_lookup_iff.1 hr
  have hbest : r.feasibleDistance = best := UInt64.toNat_inj.1 hd
  rcases bestRoute_spec entry.routesBySource.entries ⟨INFINITE, 255, entry.bestNeighbor⟩ with
    ⟨-, hle⟩ | ⟨l₁, e, l₂, hl, hefin, hfold, -, h₁, h₂⟩
  · -- a finite distance is below the bound that the loop starts with
    have hinf := UInt64.le_iff_toNat_le.1 (hle _ hmem hfin)
    have hlt := r.feasibleDistance.toNat_lt
    refine absurd (UInt64.toNat_inj.1 ?_) hfin
    have hmax : INFINITE.toNat = 2 ^ 64 - 1 := by decide
    simp only at hinf
    omega
  · have heq : e.2.feasibleDistance = best := by
      refine UInt64.toNat_inj.1 (le_antisymm ?_ (hmin ⟨e.1, at_of_mem (hl ▸ by simp) hefin⟩))
      rw [← hbest]
      rw [hl] at hmem
      rcases List.mem_append.1 hmem with hmem | hmem
      · exact (UInt64.lt_iff_toNat_lt.1 (h₁ _ hmem hfin)).le
      · rcases List.mem_cons.1 hmem with rfl | hmem
        · exact le_rfl
        · exact UInt64.le_iff_toNat_le.1 (h₂ _ hmem hfin)
    refine ⟨l₁, e, l₂, hl, heq, hefin, by rw [bestRoute, hfold, heq], fun e' he' hne => ?_⟩
    have hlt := h₁ e' he' (by rw [hne, ← heq]; exact hefin)
    rw [heq, hne] at hlt
    exact UInt64.lt_irrefl _ hlt

theorem Selection.fits
    (h : Selection trafMode variance entry (recalculateSuccessors trafMode variance entry).1) :
    SelectionFits trafMode variance entry (recalculateSuccessors trafMode variance entry).1.bestFD := by
  obtain ⟨best, hbest⟩ : ∃ best, bestRoute entry.routesBySource entry.bestNeighbor = best := ⟨_, rfl⟩
  have hne : entry.routesBySource.neighbors (withinVariance best.fd variance) ≠ [] := by
    intro hnil
    rw [← hbest] at hnil
    rcases recalculateSuccessors_of_nil trafMode hnil with hentries | hsuccessors
    · obtain ⟨r, hr, -⟩ := h.bestNeighbor
      have hmem := AList.mem_lookup_iff.1 (Option.mem_def.2 hr)
      rw [hentries] at hmem
      cases hmem
    · have hmem := h.bestNeighbor_mem
      rw [hsuccessors] at hmem
      cases hmem
  obtain ⟨hfd, -, hsuccessors, hlookup⟩ :=
    recalculateSuccessors_of_mem trafMode _ hbest hne
  have hleast := h.bestFD
  rw [hfd] at hleast ⊢
  obtain ⟨e, he⟩ : ∃ e, entry.routesBySource.entries.find?
      (fun e : Source => withinVariance best.fd variance e.2) = some e := by
    refine Option.ne_none_iff_exists'.1 fun hnone => hne ?_
    rw [← List.head?_eq_none_iff, Routes.head?_neighbors, hnone]
    rfl
  have hhead : (recalculateSuccessors trafMode variance entry).1.successors.head? = some e.1 := by
    have hfirst : (entry.routesBySource.neighbors (withinVariance best.fd variance)).head? =
        some e.1 := by
      rw [Routes.head?_neighbors, he]
      rfl
    rw [hsuccessors]
    split_ifs
    · rw [List.head?_take, if_neg (by decide), hfirst]
    · exact hfirst
  refine ⟨hleast, ⟨e, he, ?_⟩, fun hmode d hd hle => ?_⟩
  · obtain ⟨r, hr, hrd⟩ := h.findBestRoute
    have hat := hlookup e.1
    rw [Eigrp.findBestRoute, Option.bind_some, hhead, Option.bind_some] at hr
    rw [hr, AList.mem_lookup_iff.2 (List.mem_of_find?_eq_some he)] at hat
    rw [← hfd, ← hrd]
    exact (Option.some.inj hat).symm
  · obtain ⟨nbr, hnbr⟩ := hd
    have hmem := (h.balanced hmode nbr).2 ⟨d, hnbr, hfd ▸ hle⟩
    rw [hsuccessors, if_neg (by simp [hmode])] at hmem
    obtain ⟨r, hr, hwithin⟩ := Routes.mem_neighbors.1 hmem
    obtain ⟨r', hr', -, rfl⟩ := hnbr
    obtain rfl := Option.some.inj (hr.symm.trans hr')
    exact UInt64.le_iff_toNat_le.1 (withinVariance_iff.1 hwithin).2

theorem SelectionFits.first_source {best : UInt64} (h : SelectionFits trafMode variance entry best) :
    ∃ e ∈ entry.routesBySource.entries, e.2.feasibleDistance = best ∧
      e.2.feasibleDistance ≠ INFINITE ∧
      bestRoute entry.routesBySource entry.bestNeighbor = ⟨best, e.2.adminDistance, e.1⟩ ∧
      ∃ rest, entry.routesBySource.neighbors (withinVariance best variance) = e.1 :: rest := by
  obtain ⟨l₁, e, l₂, hl, hefd, hefin, hbest, hl₁⟩ := bestRoute_of_least h.least
  obtain ⟨e', hfind, he'⟩ := h.first
  have hwithin : withinVariance best variance e.2 = true := by
    have hw := List.find?_some hfind
    rw [withinVariance_iff, he'] at hw
    rw [withinVariance_iff, hefd]
    exact hw
  have hee : e' = e := by
    rw [hl, List.find?_append] at hfind
    cases hfirst : l₁.find? (fun e : Source => withinVariance best variance e.2) with
    | none => simpa [hfirst, List.find?_cons_of_pos, hwithin, eq_comm] using hfind
    | some x =>
      rw [hfirst, Option.some_or] at hfind
      obtain rfl := Option.some.inj hfind
      exact absurd he' (hl₁ _ (List.mem_of_find?_eq_some hfirst))
  subst hee
  have hhead : (entry.routesBySource.neighbors (withinVariance best variance)).head? = some e'.1 := by
    rw [Routes.head?_neighbors, hfind]
    rfl
  exact ⟨e', by rw [hl]; simp, hefd, hefin, hbest, List.head?_eq_some_iff.1 hhead⟩

theorem SelectionFits.selection {best : UInt64} (h : SelectionFits trafMode variance entry best) :
    Selection trafMode variance entry (recalculateSuccessors trafMode variance entry).1 := by
  obtain ⟨e, hmem, hefd, hefin, hbest, rest, hlist⟩ := h.first_source
  obtain ⟨hfd, hnbr, hsuccessors, hlookup⟩ := recalculateSuccessors_of_mem trafMode variance
    hbest (by rw [hlist]; simp)
  have hat : entry.At e.1 best.toNat := hefd ▸ at_of_mem hmem hefin
  simp only at hfd hnbr hsuccessors hlookup
  have hmemSuccessors : e.1 ∈ (recalculateSuccessors trafMode variance entry).1.successors := by
    rw [hsuccessors, hlist]
    split_ifs <;> simp
  refine ⟨?_, ?_, ?_, fun hmode nbr => ?_, fun hmode => ?_, ?_⟩
  · rw [hfd]
    exact h.least
  · rw [hfd, hnbr]
    exact hat
  · rw [hnbr]
    exact hmemSuccessors
  · rw [hsuccessors, if_neg (by simp [hmode]), hfd, Routes.mem_neighbors]
    constructor
    · rintro ⟨r, hr, hw⟩
      obtain ⟨hfin, hle⟩ := withinVariance_iff.1 hw
      refine ⟨_, ⟨r, hr, hfin, rfl⟩, (UInt64.le_iff_toNat_le.1 hle).trans ?_⟩
      rw [UInt64.toNat_mul, mul_comm]
      exact Nat.mod_le _ _
    · rintro ⟨d, ⟨r, hr, hfin, rfl⟩, hle⟩
      exact ⟨r, hr, withinVariance_iff.2
        ⟨hfin, UInt64.le_iff_toNat_le.2 (h.product hmode _ ⟨nbr, r, hr, hfin, rfl⟩ hle)⟩⟩
  · refine ⟨e.1, ?_, by rw [hfd]; exact hat⟩
    rw [hsuccessors, if_pos hmode, hlist]
    rfl
  · have hlookup' := hlookup e.1
    rw [AList.mem_lookup_iff.2 hmem, Option.map_some] at hlookup'
    obtain ⟨r, hr, hrd⟩ := Option.map_eq_some_iff.1 hlookup'
    refine ⟨r, ?_, by rw [hrd, hfd, hefd]⟩
    have hfirst : (recalculateSuccessors trafMode variance entry).1.successors.head? = some e.1 := by
      rw [hsuccessors, hlist]
      split_ifs <;> rfl
    rw [Eigrp.findBestRoute, Option.bind_some, hfirst, Option.bind_some, hr]

/-- **The selection is right iff the first route within the variance is a nearest one and, in
    balanced mode, the product of 64 bits leaves out no distance within the variance.** -/
theorem selection_iff (trafMode : TrafficShareMode) (variance : UInt8) (entry : TopologyEntry) :
    Selection trafMode variance entry (recalculateSuccessors trafMode variance entry).1 ↔
      ∃ best, SelectionFits trafMode variance entry best :=
  ⟨fun h => ⟨_, h.fits⟩, fun ⟨_, h⟩ => h.selection⟩

def sampleEntry : TopologyEntry where
  routesBySource := ⟨[⟨1, { reportedDistance := 50, feasibleDistance := 200 }⟩,
    ⟨2, { reportedDistance := 50, feasibleDistance := 100 }⟩], by simp⟩

/-- With the variance 2 the one at 200 comes first, in both modes. -/
theorem not_selection :
    ¬ Selection .MINIMUM 2 sampleEntry (recalculateSuccessors .MINIMUM 2 sampleEntry).1 ∧
      ¬ Selection .BALENCED 2 sampleEntry (recalculateSuccessors .BALENCED 2 sampleEntry).1 := by
  constructor
  · intro h
    have hmem := h.bestNeighbor_mem
    revert hmem
    decide
  · intro h
    obtain ⟨r, hr, hrd⟩ := h.findBestRoute
    have hfound : Eigrp.findBestRoute (some (recalculateSuccessors .BALENCED 2 sampleEntry).1) =
        some ⟨50, 200, 90, false, true, true⟩ := by decide
    obtain rfl := Option.some.inj (hfound.symm.trans hr)
    revert hrd
    decide

end TopologyEntry

end VirtualRouter.Eigrp
