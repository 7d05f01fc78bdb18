/-
  What the operations of the OSPF routing table do to the candidates and the selection of a prefix.

  * `canidatesIn_foldl_push`, `canidatesIn_remove`: the edits of the candidates;
  * `OspfRib.lookup_recomputePrefix`, `OspfRib.canidatesAt_recomputePrefix`: the recomputation of a prefix
    selects its route and leaves the candidates;
  * `OspfRib.Settled`: the route of every prefix is the one for its candidates;
  * `OspfRib.Settled.of_visited`: it is, after the recomputation of what was edited;
  * `OspfRib.canidatesAt_replaceAreaEdit`, `OspfRib.edited_replaceArea` and so on: what each operation
    edits.
-/
import VirtualRouter.Ospf.OspfRib

namespace VirtualRouter.Ospf

open NestedMap

namespace OspfRib

/-! ## Edits -/

section
variable (states : Map IPPrefix PrefixState)

def pathsFor (paths : List (IPPrefix × OspfPath)) (pfx : IPPrefix) : List OspfPath :=
  (paths.filter (·.1 = pfx)).map Prod.snd

theorem canidatesIn_remove (index : Finset IPPrefix) (p : OspfPath → Bool) (pfx : IPPrefix) :
    canidatesIn (removeCanidates states index p) pfx =
      if pfx ∈ index then (canidatesIn states pfx).filter fun path => !p path else canidatesIn states pfx := by
  rw [canidatesIn, canidatesIn, removeCanidates, lookup_mapVal]
  cases states.lookup pfx with
  | none => split_ifs <;> rfl
  | some st =>
    rw [Option.map_some, Option.map_some, Option.map_some]
    split_ifs <;> rfl

theorem selectedIn_remove (index : Finset IPPrefix) (p : OspfPath → Bool) (pfx : IPPrefix) :
    selectedIn (removeCanidates states index p) pfx = selectedIn states pfx := by
  rw [selectedIn, selectedIn, removeCanidates, lookup_mapVal]
  cases states.lookup pfx with
  | none => rfl
  | some st =>
    rw [Option.map_some]
    split_ifs <;> rfl

theorem canidatesIn_push (e : IPPrefix × OspfPath) (pfx : IPPrefix) :
    canidatesIn (pushCanidate states e) pfx =
      if e.1 = pfx then canidatesIn states pfx ++ [e.2] else canidatesIn states pfx := by
  rw [canidatesIn, canidatesIn, pushCanidate, lookup_insert_eq]
  by_cases h : e.1 = pfx
  · rw [if_pos h, if_pos h.symm, h]
    cases states.lookup pfx <;> rfl
  · rw [if_neg h, if_neg (Ne.symm h)]

theorem selectedIn_push (e : IPPrefix × OspfPath) (pfx : IPPrefix) :
    selectedIn (pushCanidate states e) pfx = selectedIn states pfx := by
  rw [selectedIn, selectedIn, pushCanidate, lookup_insert_eq]
  split_ifs with h
  · rw [h]
    cases states.lookup e.1 <;> rfl
  · rfl

theorem canidatesIn_foldl_push (paths : List (IPPrefix × OspfPath)) (pfx : IPPrefix) :
    canidatesIn (paths.foldl pushCanidate states) pfx = canidatesIn states pfx ++ pathsFor paths pfx := by
  induction paths generalizing states with
  | nil => exact (List.append_nil _).symm
  | cons e paths ih =>
    rw [List.foldl_cons, ih, canidatesIn_push, pathsFor, pathsFor, List.filter_cons]
    by_cases h : e.1 = pfx
    · rw [if_pos h, if_pos (decide_eq_true h), List.map_cons, List.append_assoc]
      rfl
    · rw [if_neg h, if_neg (by simpa using h)]

theorem selectedIn_foldl_push (paths : List (IPPrefix × OspfPath)) (pfx : IPPrefix) :
    selectedIn (paths.foldl pushCanidate states) pfx = selectedIn states pfx := by
  induction paths generalizing states with
  | nil => rfl
  | cons e paths ih => rw [List.foldl_cons, ih, selectedIn_push]

end

theorem pathsFor_eq_nil {paths : List (IPPrefix × OspfPath)} {pfx : IPPrefix}
    (h : pfx ∉ (paths.map Prod.fst).toFinset) : pathsFor paths pfx = [] := by
  rw [pathsFor, List.map_eq_nil_iff, List.filter_eq_nil_iff]
  intro e he hpfx
  exact h (List.mem_toFinset.2 (List.mem_map.2 ⟨e, he, of_decide_eq_true hpfx⟩))

theorem canidatesAt_of_not_known {s : OspfRib} {index : Finset IPPrefix} {pfx : IPPrefix} (hmem : pfx ∈ index)
    (h : pfx ∉ s.known index) : s.canidatesAt pfx = [] := by
  have hnone : s.prefixStates.lookup pfx = none := by
    rw [← Option.not_isSome_iff_eq_none]
    exact fun hsome => h (Finset.mem_filter.2 ⟨hmem, hsome⟩)
  rw [canidatesAt, canidatesIn, hnone]
  rfl

/-! ## The recomputation of a prefix -/

section
variable (cfg : RibConfig) (env : CallEnv) (s : OspfRib) (pfx : IPPrefix) (ctx : Option UInt32)

def routeFor : Option OspfRoute := selectRoute pfx (s.canidatesAt pfx)

/-- The table of the VRF is brought from one route of a prefix to the next. -/
def syncTable (old next : Option OspfRoute) : OspfRib :=
  match old, next with
  | none, none => s
  | some old, none => s.removeRoute cfg pfx old
  | old, some next => s.syncRoute cfg env pfx old next

theorem syncTable_prefixStates (old next : Option OspfRoute) :
    (s.syncTable cfg env pfx old next).prefixStates = s.prefixStates := by
  cases old <;> cases next
  · rfl
  · rfl
  · rfl
  · rw [syncTable, syncRoute]
    split_ifs <;> rfl

theorem routeChange_none (type : OspfRouteType) : routeChange type ctx pfx none none = none :=
  if_neg fun h => h.2 rfl

theorem selectRoute_eq_none_iff {l : List OspfPath} : selectRoute pfx l = none ↔ l = [] := by
  cases l with
  | nil => exact iff_of_true rfl rfl
  | cons p l => exact iff_of_false (Option.some_ne_none _) (List.cons_ne_nil p l)

/-- **The recomputation of a prefix**: the table of the VRF follows the route, and the state of the prefix
    is the candidates with the route for them. -/
theorem recomputePrefix_eq : ∃ states : Map IPPrefix PrefixState,
    s.recomputePrefix cfg env pfx ctx =
      { table := { s.syncTable cfg env pfx (s.lookup pfx) (s.routeFor pfx) with prefixStates := states }
        intraChange := routeChange .INTRA_AREA ctx pfx (s.lookup pfx) (s.routeFor pfx)
        interChange := routeChange .INTER_AREA ctx pfx (s.lookup pfx) (s.routeFor pfx) } ∧
    (∀ q, canidatesIn states q = s.canidatesAt q) ∧
    ∀ q, selectedIn states q = if q = pfx then s.routeFor pfx else s.lookup q := by
  rw [recomputePrefix]
  cases hst : s.prefixStates.lookup pfx with
  | none =>
    have hcan : s.canidatesAt pfx = [] := by rw [canidatesAt, canidatesIn, hst]; rfl
    have hold : s.lookup pfx = none := by rw [lookup, selectedIn, hst]
    have hnext : s.routeFor pfx = none := by rw [routeFor, hcan]; rfl
    refine ⟨s.prefixStates, ?_, fun q => rfl, fun q => ?_⟩
    · rw [hold, hnext, routeChange_none, routeChange_none]
      rfl
    · split_ifs with hq
      · rw [hq, hnext]
        exact hold
      · rfl
  | some st =>
    have hcan : s.canidatesAt pfx = st.canidates := by rw [canidatesAt, canidatesIn, hst]; rfl
    have hroute : selectRoute pfx st.canidates = s.routeFor pfx := by rw [routeFor, hcan]
    dsimp only
    rw [hroute]
    cases hnext : s.routeFor pfx with
    | none =>
      have hempty : st.canidates = [] := (selectRoute_eq_none_iff pfx).1 (hroute.trans hnext)
      refine ⟨s.prefixStates.erase pfx, ?_, fun q => ?_, fun q => ?_⟩
      · dsimp only
        cases s.lookup pfx <;> rfl
      · rw [canidatesIn, lookup_erase_eq]
        split_ifs with hq
        · rw [hq, hcan, hempty]
          rfl
        · rfl
      · rw [selectedIn, lookup_erase_eq]
        split_ifs <;> rfl
    | some next =>
      refine ⟨s.prefixStates.insert pfx { st with selected := next, hasSelected := true }, ?_, fun q => ?_, fun q => ?_⟩
      · have hsync : s.syncTable cfg env pfx (s.lookup pfx) (some next) = s.syncRoute cfg env pfx (s.lookup pfx) next := by
          cases s.lookup pfx <;> rfl
        have hstates := s.syncTable_prefixStates cfg env pfx (s.lookup pfx) (some next)
        rw [hsync] at hstates ⊢
        dsimp only
        rw [hstates]
      · rw [canidatesIn, lookup_insert_eq]
        split_ifs with hq
        · rw [hq, hcan]
          rfl
        · rfl
      · rw [selectedIn, lookup_insert_eq]
        split_ifs <;> rfl

theorem canidatesAt_recomputePrefix (q : IPPrefix) :
    (s.recomputePrefix cfg env pfx ctx).table.canidatesAt q = s.canidatesAt q := by
  obtain ⟨states, hrec, hcan, -⟩ := s.recomputePrefix_eq cfg env pfx ctx
  rw [hrec]
  exact hcan q

theorem lookup_recomputePrefix (q : IPPrefix) :
    (s.recomputePrefix cfg env pfx ctx).table.lookup q = if q = pfx then s.routeFor pfx else s.lookup q := by
  obtain ⟨states, hrec, -, hsel⟩ := s.recomputePrefix_eq cfg env pfx ctx
  rw [hrec]
  exact hsel q

theorem intraChange_recomputePrefix : (s.recomputePrefix cfg env pfx ctx).intraChange =
    routeChange .INTRA_AREA ctx pfx (s.lookup pfx) (s.routeFor pfx) := by
  obtain ⟨states, hrec, -⟩ := s.recomputePrefix_eq cfg env pfx ctx
  rw [hrec]

theorem interChange_recomputePrefix : (s.recomputePrefix cfg env pfx ctx).interChange =
    routeChange .INTER_AREA ctx pfx (s.lookup pfx) (s.routeFor pfx) := by
  obtain ⟨states, hrec, -⟩ := s.recomputePrefix_eq cfg env pfx ctx
  rw [hrec]

theorem rib_recomputePrefix : (s.recomputePrefix cfg env pfx ctx).table.rib =
    (s.syncTable cfg env pfx (s.lookup pfx) (s.routeFor pfx)).rib := by
  obtain ⟨states, hrec, -⟩ := s.recomputePrefix_eq cfg env pfx ctx
  rw [hrec]

structure SameIndexes (s s' : OspfRib) : Prop where
  areaIndex : s'.areaIndex = s.areaIndex
  processWide : s'.processWide = s.processWide

theorem sameIndexes_recomputePrefix : SameIndexes s (s.recomputePrefix cfg env pfx ctx).table := by
  obtain ⟨states, hrec, -⟩ := s.recomputePrefix_eq cfg env pfx ctx
  rw [hrec]
  cases s.lookup pfx <;> cases s.routeFor pfx
  · exact ⟨rfl, rfl⟩
  · exact ⟨rfl, rfl⟩
  · exact ⟨rfl, rfl⟩
  · rw [syncTable, syncRoute]
    split_ifs <;> exact ⟨rfl, rfl⟩

end

/-! ## The recomputation of a set -/

section
variable (cfg : RibConfig) (env : CallEnv) (areaId : UInt32)

/-- What a loop over prefixes has done, from `s`. -/
structure Visited (s s' : OspfRib) (l : List IPPrefix) : Prop where
  canidates : ∀ q, s'.canidatesAt q = s.canidatesAt q
  selected : ∀ q, s'.lookup q = if q ∈ l then s.routeFor q else s.lookup q
  indexes : SameIndexes s s'

variable {s s' : OspfRib} {l : List IPPrefix}

theorem Visited.nil : Visited s s [] :=
  ⟨fun _ => rfl, fun _ => (if_neg List.not_mem_nil).symm, rfl, rfl⟩

theorem Visited.routeFor_eq (h : Visited s s' l) (q : IPPrefix) : s'.routeFor q = s.routeFor q := by
  rw [routeFor, routeFor, h.canidates]

theorem Visited.recomputePrefix (h : Visited s s' l) (pfx : IPPrefix) (ctx : Option UInt32) :
    Visited s (s'.recomputePrefix cfg env pfx ctx).table (l ++ [pfx]) where
  canidates q := (canidatesAt_recomputePrefix cfg env s' pfx ctx q).trans (h.canidates q)
  selected q := by
    rw [lookup_recomputePrefix, h.selected]
    by_cases hq : q = pfx
    · rw [if_pos hq, if_pos (List.mem_append_right l (List.mem_singleton.2 hq)), hq, h.routeFor_eq]
    · have hmem : q ∈ l ++ [pfx] ↔ q ∈ l := by simp [hq]
      rw [if_neg hq]
      exact if_congr hmem.symm rfl rfl
  indexes := by
    obtain ⟨harea, hwide⟩ := sameIndexes_recomputePrefix cfg env s' pfx ctx
    exact ⟨harea.trans h.indexes.areaIndex, hwide.trans h.indexes.processWide⟩

theorem table_foldl_recomputeStep (l : List IPPrefix) (r : OspfRib × List OspfRouteChange) :
    (l.foldl (recomputeStep cfg env areaId) r).1 =
      l.foldl (fun s pfx => (s.recomputePrefix cfg env pfx (some areaId)).table) r.1 := by
  induction l generalizing r with
  | nil => rfl
  | cons pfx l ih => exact ih _

theorem visited_foldl (s : OspfRib) (ctx : Option UInt32) (l : List IPPrefix) :
    Visited s (l.foldl (fun s pfx => (s.recomputePrefix cfg env pfx ctx).table) s) l := by
  induction l using List.reverseRecOn with
  | nil => exact .nil
  | append_singleton l pfx ih =>
    rw [List.foldl_append]
    exact ih.recomputePrefix cfg env pfx ctx

theorem visited_foldl_recomputeStep (s : OspfRib) (l : List IPPrefix) :
    Visited s (l.foldl (recomputeStep cfg env areaId) (s, [])).1 l := by
  rw [table_foldl_recomputeStep]
  exact visited_foldl cfg env s (some areaId) l

theorem visited_recompute (s : OspfRib) (touched : Finset IPPrefix) :
    Visited s (s.recompute cfg env touched areaId).1 (env.visit touched) :=
  visited_foldl_recomputeStep cfg env areaId s _

theorem visited_recomputePrefix (s : OspfRib) (pfx : IPPrefix) (ctx : Option UInt32) :
    Visited s (s.recomputePrefix cfg env pfx ctx).table [pfx] :=
  Visited.nil.recomputePrefix cfg env pfx ctx

end

/-! ## Settled tables -/

/-- The route of every prefix is the one for its candidates. -/
def Settled (s : OspfRib) : Prop := ∀ q, s.lookup q = s.routeFor q

/-- The candidates were edited at the prefixes `touched` only, and nothing was selected. -/
structure Edited (s s' : OspfRib) (touched : Finset IPPrefix) : Prop where
  canidates : ∀ q ∉ touched, s'.canidatesAt q = s.canidatesAt q
  selected : ∀ q, s'.lookup q = s.lookup q

section
variable {s s' s'' : OspfRib} {touched : Finset IPPrefix} {l : List IPPrefix}

/-- **After the recomputation of what was edited** every prefix has the route for its candidates. -/
theorem Settled.of_visited (h : s.Settled) (hedit : Edited s s' touched) (hl : ∀ q ∈ touched, q ∈ l)
    (hvisit : Visited s' s'' l) : s''.Settled := by
  intro q
  rw [hvisit.selected, hvisit.routeFor_eq]
  split_ifs with hq
  · rfl
  · rw [hedit.selected, h q, routeFor, routeFor, hedit.canidates q fun hmem => hq (hl q hmem)]

end

/-! ## The edits of the operations -/

section
variable (s : OspfRib) (areaId : UInt32) (ranges : Finset IPPrefix) (pfx : IPPrefix) (path : Option OspfPath)
  (paths : List (IPPrefix × OspfPath)) (key : OspfDiscardKey) (cost ad : ℕ)

theorem canidatesAt_replaceAreaEdit (q : IPPrefix) : (s.replaceAreaEdit areaId ranges paths).canidatesAt q =
    (if q ∈ groupOf s.areaIndex areaId then (s.canidatesAt q).filter fun p => !isAreaPath areaId p
      else s.canidatesAt q) ++ pathsFor (paths.map (stampPath areaId ranges)) q := by
  rw [canidatesAt, replaceAreaEdit, canidatesIn_foldl_push, canidatesIn_remove]
  rfl

theorem stampPath_fst (e : IPPrefix × OspfPath) : (stampPath areaId ranges e).1 = e.1 := by
  rw [stampPath]
  split_ifs <;> rfl

theorem edited_replaceArea : Edited s (s.replaceAreaEdit areaId ranges paths)
    (s.known (groupOf s.areaIndex areaId) ∪ (paths.map Prod.fst).toFinset) where
  canidates q hq := by
    obtain ⟨hknown, hpaths⟩ := not_or.1 (mt Finset.mem_union.2 hq)
    have hfst : (paths.map (stampPath areaId ranges)).map Prod.fst = paths.map Prod.fst := by
      rw [List.map_map]
      exact List.map_congr_left fun e _ => stampPath_fst areaId ranges e
    rw [canidatesAt_replaceAreaEdit, pathsFor_eq_nil (by rw [hfst]; exact hpaths), List.append_nil]
    split_ifs with hmem
    · rw [canidatesAt_of_not_known hmem hknown]
      rfl
    · rfl
  selected q := by
    rw [lookup, replaceAreaEdit, selectedIn_foldl_push, selectedIn_remove]
    rfl

theorem canidatesIn_replaceWide (states : Map IPPrefix PrefixState) (q : IPPrefix) :
    canidatesIn (path.elim (removeCanidates states {pfx} isWidePath) fun p =>
        pushCanidate (removeCanidates states {pfx} isWidePath) (pfx, p)) q =
      if q = pfx then ((canidatesIn states q).filter fun p => !isWidePath p) ++ path.toList else canidatesIn states q := by
  have hremove := canidatesIn_remove states {pfx} isWidePath q
  simp only [Finset.mem_singleton] at hremove
  cases path with
  | none =>
    rw [Option.elim_none, hremove, Option.toList_none, List.append_nil]
  | some path =>
    rw [Option.elim_some, canidatesIn_push, hremove]
    by_cases h : q = pfx
    · rw [if_pos h.symm, if_pos h, if_pos h]
      rfl
    · rw [if_neg (Ne.symm h), if_neg h, if_neg h]

theorem selectedIn_replaceWide (states : Map IPPrefix PrefixState) (q : IPPrefix) :
    selectedIn (path.elim (removeCanidates states {pfx} isWidePath) fun p =>
        pushCanidate (removeCanidates states {pfx} isWidePath) (pfx, p)) q = selectedIn states q := by
  cases path with
  | none => exact selectedIn_remove states {pfx} isWidePath q
  | some path => rw [Option.elim_some, selectedIn_push, selectedIn_remove]

theorem prefixStates_replaceRouteEdit : (s.replaceRouteEdit areaId pfx path).prefixStates =
    path.elim (removeCanidates s.prefixStates {pfx} isWidePath) fun p =>
      pushCanidate (removeCanidates s.prefixStates {pfx} isWidePath) (pfx, p) := by
  cases path <;> rfl

theorem canidatesAt_replaceRouteEdit (q : IPPrefix) : (s.replaceRouteEdit areaId pfx path).canidatesAt q =
    if q = pfx then ((s.canidatesAt q).filter fun p => !isWidePath p) ++ path.toList else s.canidatesAt q := by
  rw [canidatesAt, prefixStates_replaceRouteEdit]
  exact canidatesIn_replaceWide pfx path s.prefixStates q

theorem edited_replaceRoute : Edited s (s.replaceRouteEdit areaId pfx path) {pfx} where
  canidates q hq := by
    rw [canidatesAt_replaceRouteEdit, if_neg (mt Finset.mem_singleton.2 hq)]
  selected q := by
    rw [lookup, prefixStates_replaceRouteEdit]
    exact selectedIn_replaceWide pfx path s.prefixStates q

theorem canidatesAt_replaceExternalsEdit (q : IPPrefix) : (s.replaceExternalsEdit paths).canidatesAt q =
    (if q ∈ s.processWide then (s.canidatesAt q).filter fun p => !isWidePath p else s.canidatesAt q) ++
      pathsFor paths q := by
  rw [canidatesAt, replaceExternalsEdit, canidatesIn_foldl_push, canidatesIn_remove]
  rfl

theorem edited_replaceExternals : Edited s (s.replaceExternalsEdit paths)
    (s.known s.processWide ∪ (paths.map Prod.fst).toFinset) where
  canidates q hq := by
    obtain ⟨hknown, hpaths⟩ := not_or.1 (mt Finset.mem_union.2 hq)
    rw [canidatesAt_replaceExternalsEdit, pathsFor_eq_nil hpaths, List.append_nil]
    split_ifs with hmem
    · rw [canidatesAt_of_not_known hmem hknown]
      rfl
    · rfl
  selected q := by
    rw [lookup, replaceExternalsEdit, selectedIn_foldl_push, selectedIn_remove]
    rfl

theorem prefixStates_replaceExternalEdit : (s.replaceExternalEdit pfx path).prefixStates =
    path.elim (removeCanidates s.prefixStates {pfx} isWidePath) fun p =>
      pushCanidate (removeCanidates s.prefixStates {pfx} isWidePath) (pfx, p) := by
  cases path <;> rfl

theorem canidatesAt_replaceExternalEdit (q : IPPrefix) : (s.replaceExternalEdit pfx path).canidatesAt q =
    if q = pfx then ((s.canidatesAt q).filter fun p => !isWidePath p) ++ path.toList else s.canidatesAt q := by
  rw [canidatesAt, prefixStates_replaceExternalEdit]
  exact canidatesIn_replaceWide pfx path s.prefixStates q

theorem edited_replaceExternal : Edited s (s.replaceExternalEdit pfx path) {pfx} where
  canidates q hq := by
    rw [canidatesAt_replaceExternalEdit, if_neg (mt Finset.mem_singleton.2 hq)]
  selected q := by
    rw [lookup, prefixStates_replaceExternalEdit]
    exact selectedIn_replaceWide pfx path s.prefixStates q

theorem canidatesAt_installDiscardEdit (q : IPPrefix) : (s.installDiscardEdit key cost ad).canidatesAt q =
    if q = key.pfx then setDiscard key cost ad (s.canidatesAt q) else s.canidatesAt q := by
  rw [canidatesAt, installDiscardEdit, canidatesIn, lookup_insert_eq]
  split_ifs with h
  · rw [h, canidatesAt, canidatesIn]
    cases s.prefixStates.lookup key.pfx <;> rfl
  · rfl

theorem edited_installDiscard : Edited s (s.installDiscardEdit key cost ad) {key.pfx} where
  canidates q hq := by
    rw [canidatesAt_installDiscardEdit, if_neg (mt Finset.mem_singleton.2 hq)]
  selected q := by
    rw [lookup, installDiscardEdit, selectedIn, lookup_insert_eq]
    split_ifs with h
    · rw [h, lookup, selectedIn]
      cases s.prefixStates.lookup key.pfx <;> rfl
    · rfl

theorem canidatesAt_withdrawDiscardEdit (q : IPPrefix) : (s.withdrawDiscardEdit key).canidatesAt q =
    if q = key.pfx then (s.canidatesAt q).filter fun p => !isDiscardPath key p else s.canidatesAt q := by
  have hremove := canidatesIn_remove s.prefixStates {key.pfx} (isDiscardPath key) q
  simp only [Finset.mem_singleton] at hremove
  exact hremove

theorem edited_withdrawDiscard : Edited s (s.withdrawDiscardEdit key) {key.pfx} where
  canidates q hq := by
    rw [canidatesAt_withdrawDiscardEdit, if_neg (mt Finset.mem_singleton.2 hq)]
  selected q := selectedIn_remove s.prefixStates {key.pfx} (isDiscardPath key) q

theorem canidatesAt_refreshEdit (q : IPPrefix) : (s.refreshEdit areaId ranges).canidatesAt q =
    if q ∈ groupOf s.areaIndex areaId then (s.canidatesAt q).map (restampPath areaId ranges q)
    else s.canidatesAt q := by
  rw [canidatesAt, refreshEdit, canidatesIn, lookup_mapVal, canidatesAt, canidatesIn]
  cases s.prefixStates.lookup q with
  | none => split_ifs <;> rfl
  | some st =>
    rw [Option.map_some, Option.map_some, Option.map_some]
    split_ifs <;> rfl

theorem restampPath_eq {p : OspfPath}
    (h : (isIntraOf areaId p && p.suppressed ≠ isIntraRangeSuppressed pfx ranges) = false) :
    restampPath areaId ranges pfx p = p := by
  rw [restampPath]
  split_ifs with hintra
  · rw [hintra, Bool.true_and, decide_eq_false_iff_not, not_not] at h
    rw [← h]
  · rfl

theorem edited_refresh : Edited s (s.refreshEdit areaId ranges) (s.refreshTouched areaId ranges) where
  canidates q hq := by
    rw [canidatesAt_refreshEdit]
    split_ifs with hmem
    · have hnone : ((s.canidatesAt q).any fun p =>
          isIntraOf areaId p && p.suppressed ≠ isIntraRangeSuppressed q ranges) = false :=
        Bool.eq_false_iff.2 fun hany => hq (Finset.mem_filter.2 ⟨hmem, hany⟩)
      rw [List.any_eq_false] at hnone
      refine (List.map_congr_left fun p hp => ?_).trans (List.map_id _)
      exact restampPath_eq areaId ranges q (Bool.eq_false_iff.2 (hnone p hp))
    · rfl
  selected q := by
    rw [lookup, refreshEdit, selectedIn, lookup_mapVal, lookup, selectedIn]
    cases s.prefixStates.lookup q with
    | none => rfl
    | some st =>
      rw [Option.map_some]
      dsimp only
      split_ifs <;> rfl

end

end OspfRib

end VirtualRouter.Ospf
