/-
  The changes that the OSPF routing table reports for the summaries of an area border router.

  * `applyChange`: a change takes a prefix away, or sets its cost and options;
  * `SummaryFeed.step`: the operations of one area, with the map that their changes add up to;
  * `SummaryFeed.Right`: the map has the effective intra-area and inter-area routes;
  * `Reported`: the routes before and after, of which the changes are right;
  * `SummaryFeed.feed_right_iff`: the map is right throughout a run iff this holds in every operation.

  A change of the cost alone is not reported, and when an inter-area route gives way to an intra-area
  route, the removal comes after the addition.
-/
import VirtualRouter.Lib.Run
import VirtualRouter.Ospf.Recompute

namespace VirtualRouter.Ospf

open NestedMap KeyOrder Run OspfRib

/-! ## Changes -/

abbrev Summary := ℕ × UInt8

def changeTo (c : OspfRouteChange) : Option Summary := if c.isRemoval then none else some (c.cost, c.options)

def applyChange (feed : IPPrefix → Option Summary) (c : OspfRouteChange) : IPPrefix → Option Summary :=
  fun q => if c.pfx = q then changeTo c else feed q

def summaryOf (r : OspfRoute) : Option Summary :=
  if (r.type = .INTRA_AREA ∨ r.type = .INTER_AREA) ∧ r.suppressed = false then some (r.cost, r.options) else none

/-- The changes of a prefix, in the order in which they are reported. -/
def changesAt (areaId : UInt32) (q : IPPrefix) (old next : Option OspfRoute) : List OspfRouteChange :=
  (routeChange .INTRA_AREA (some areaId) q old next).toList ++ (routeChange .INTER_AREA (some areaId) q old next).toList

/-- **What is reported rightly**: if the old and the next route of a prefix are both effective, an
    inter-area route does not give way to an intra-area route, and a route of the same type has the same
    cost and options. -/
def Reported (old next : Option OspfRoute) : Prop :=
  ∀ o ∈ old, ∀ n ∈ next, (summaryOf o).isSome → (summaryOf n).isSome →
    ¬ (o.type = .INTER_AREA ∧ n.type = .INTRA_AREA) ∧ (o.type = n.type → o.cost = n.cost ∧ o.options = n.options)

theorem Reported.refl (r : Option OspfRoute) : Reported r r := by
  intro o ho n hn _ _
  obtain rfl : o = n := Option.mem_unique ho hn
  refine ⟨?_, fun _ => ⟨rfl, rfl⟩⟩
  rintro ⟨hinter, hintra⟩
  rw [hinter] at hintra
  cases hintra

theorem foldl_applyChange (cs : List OspfRouteChange) (feed : IPPrefix → Option Summary) (q : IPPrefix) :
    cs.foldl applyChange feed q = (cs.filter (·.pfx = q)).foldl (fun _ c => changeTo c) (feed q) := by
  induction cs generalizing feed with
  | nil => rfl
  | cons c cs ih =>
    rw [List.foldl_cons, ih, List.filter_cons, applyChange]
    by_cases h : c.pfx = q
    · rw [if_pos h, if_pos (decide_eq_true h), List.foldl_cons]
    · rw [if_neg h, if_neg (by simpa using h)]

section
variable {areaId : UInt32} {q : IPPrefix} {old next : Option OspfRoute}

theorem pfx_routeChange {type : OspfRouteType} (h : ∀ r ∈ old, r.pfx = q) {c : OspfRouteChange}
    (hc : c ∈ routeChange type (some areaId) q old next) : c.pfx = q := by
  rw [routeChange.eq_def] at hc
  dsimp only at hc
  split_ifs at hc
  · split at hc
    · obtain rfl := Option.some.inj hc
      exact h _ rfl
    · obtain rfl := Option.some.inj hc
      rfl
    · obtain rfl := Option.some.inj hc
      rfl
    · cases hc
  · cases hc

theorem pfx_changesAt (h : ∀ r ∈ old, r.pfx = q) {c : OspfRouteChange} (hc : c ∈ changesAt areaId q old next) :
    c.pfx = q := by
  rcases List.mem_append.1 hc with hmem | hmem
  · exact pfx_routeChange h (Option.mem_toList.1 hmem)
  · exact pfx_routeChange h (Option.mem_toList.1 hmem)

theorem isEffective_own {type : OspfRouteType} {r : OspfRoute} (h : r.area = some areaId) :
    isEffective type (some areaId) r = (r.type = type && !r.suppressed) := by
  rw [isEffective]
  by_cases htype : r.type = type
  · rw [if_neg (not_not.2 htype), if_pos ⟨rfl, h⟩, decide_eq_true htype, Bool.true_and]
  · rw [if_pos htype, decide_eq_false htype, Bool.false_and]

theorem effective_cases (r : OspfRoute) :
    ((r.type = .INTRA_AREA && !r.suppressed) = false ∧ (r.type = .INTER_AREA && !r.suppressed) = false ∧
      summaryOf r = none) ∨
    (r.type = .INTRA_AREA ∧ r.suppressed = false) ∨ (r.type = .INTER_AREA ∧ r.suppressed = false) := by
  cases hsup : r.suppressed with
  | true => exact Or.inl ⟨Bool.and_false _, Bool.and_false _, if_neg fun h => by simp [hsup] at h⟩
  | false =>
    cases htype : r.type with
    | INTRA_AREA => exact Or.inr (Or.inl ⟨rfl, rfl⟩)
    | INTER_AREA => exact Or.inr (Or.inr ⟨rfl, rfl⟩)
    | EXTERNAL => exact Or.inl ⟨rfl, rfl, if_neg fun h => by simp [htype] at h⟩
    | NSSA => exact Or.inl ⟨rfl, rfl, if_neg fun h => by simp [htype] at h⟩

theorem summaryOf_eq {r : OspfRoute} {type : OspfRouteType} (htype : r.type = type) (hsup : r.suppressed = false)
    (h : type = .INTRA_AREA ∨ type = .INTER_AREA) : summaryOf r = some (r.cost, r.options) :=
  if_pos ⟨htype ▸ h, hsup⟩

/-- **The changes of a prefix** lead from the old summary to the next iff they report it rightly. -/
theorem foldl_changesAt_iff (hold : ∀ r ∈ old, r.area = some areaId) (hnext : ∀ r ∈ next, r.area = some areaId) :
    (changesAt areaId q old next).foldl (fun _ c => changeTo c) (old.bind summaryOf) = next.bind summaryOf ↔
      Reported old next := by
  cases old with
  | none =>
    refine iff_of_true ?_ fun o ho => absurd ho (Option.not_mem_none o)
    cases next with
    | none => rfl
    | some n =>
      have hn := hnext n rfl
      rcases effective_cases n with ⟨hintra, hinter, hsum⟩ | ⟨htype, hsup⟩ | ⟨htype, hsup⟩
      · simp [changesAt, routeChange, isEffective_own hn, hintra, hinter, hsum]
      · simp [changesAt, routeChange, isEffective_own hn, htype, hsup, changeTo, summaryOf]
      · simp [changesAt, routeChange, isEffective_own hn, htype, hsup, changeTo, summaryOf]
  | some o =>
    have ho := hold o rfl
    cases next with
    | none =>
      refine iff_of_true ?_ fun o _ n hn => absurd hn (Option.not_mem_none n)
      rcases effective_cases o with ⟨hintra, hinter, hsum⟩ | ⟨htype, hsup⟩ | ⟨htype, hsup⟩
      · simp [changesAt, routeChange, isEffective_own ho, hintra, hinter, hsum]
      · simp [changesAt, routeChange, isEffective_own ho, htype, hsup, changeTo]
      · simp [changesAt, routeChange, isEffective_own ho, htype, hsup, changeTo]
    | some n =>
      have hn := hnext n rfl
      rcases effective_cases o with ⟨hintra, hinter, hsum⟩ | ⟨htype, hsup⟩ | ⟨htype, hsup⟩
      · -- nothing was announced
        rcases effective_cases n with ⟨hintra', hinter', hsum'⟩ | ⟨htype', hsup'⟩ | ⟨htype', hsup'⟩
        · simp [changesAt, routeChange, isEffective_own ho, isEffective_own hn, Reported, *]
        · simp [changesAt, routeChange, isEffective_own ho, isEffective_own hn, Reported, changeTo, summaryOf_eq htype' hsup', *]
        · simp [changesAt, routeChange, isEffective_own ho, isEffective_own hn, Reported, changeTo, summaryOf_eq htype' hsup', *]
      · rcases effective_cases n with ⟨hintra', hinter', hsum'⟩ | ⟨htype', hsup'⟩ | ⟨htype', hsup'⟩
        · simp [changesAt, routeChange, isEffective_own ho, isEffective_own hn, Reported, changeTo, *]
        · simp [changesAt, routeChange, isEffective_own ho, isEffective_own hn, Reported, changeTo, summaryOf_eq htype hsup, summaryOf_eq htype' hsup', *]
        · simp [changesAt, routeChange, isEffective_own ho, isEffective_own hn, Reported, changeTo, summaryOf_eq htype hsup, summaryOf_eq htype' hsup', *]
      · rcases effective_cases n with ⟨hintra', hinter', hsum'⟩ | ⟨htype', hsup'⟩ | ⟨htype', hsup'⟩
        · simp [changesAt, routeChange, isEffective_own ho, isEffective_own hn, Reported, changeTo, *]
        · simp [changesAt, routeChange, isEffective_own ho, isEffective_own hn, Reported, changeTo, summaryOf_eq htype hsup, summaryOf_eq htype' hsup', *]
        · simp [changesAt, routeChange, isEffective_own ho, isEffective_own hn, Reported, changeTo, summaryOf_eq htype hsup, summaryOf_eq htype' hsup', *]

end

/-! ## The changes of a whole recomputation -/

section
variable {cfg : RibConfig} {env : CallEnv} {areaId : UInt32} {s s' s'' : OspfRib} {touched : Finset IPPrefix}
  {l : List IPPrefix}

def CallEnv.Grants (cfg : RibConfig) (env : CallEnv) : Prop :=
  ∀ (s : OspfRib) (pfx : IPPrefix), s.validateInterAreaSummaryEligibility cfg env pfx = true

theorem changes_foldl_recomputeStep (hgrant : env.Grants cfg) (s : OspfRib) (hnodup : l.Nodup) :
    (l.foldl (recomputeStep cfg env areaId) (s, [])).2 =
      l.flatMap fun q => changesAt areaId q (s.lookup q) (s.routeFor q) := by
  induction l using List.reverseRecOn with
  | nil => rfl
  | append_singleton l pfx ih =>
    obtain ⟨hl, -, hdisj⟩ := List.nodup_append.1 hnodup
    have hpfx : pfx ∉ l := fun hmem => hdisj pfx hmem pfx (List.mem_singleton_self pfx) rfl
    have hvisit := visited_foldl_recomputeStep cfg env areaId s l
    rw [List.foldl_append, List.flatMap_append, List.flatMap_singleton, ← ih hl]
    generalize l.foldl (recomputeStep cfg env areaId) (s, []) = r at hvisit ⊢
    rw [List.foldl_cons, List.foldl_nil, recomputeStep]
    dsimp only
    rw [if_pos (hgrant _ pfx), intraChange_recomputePrefix, interChange_recomputePrefix, hvisit.selected,
      if_neg hpfx, hvisit.routeFor_eq, changesAt, List.append_assoc]

theorem mem_of_selectRoute {q : IPPrefix} {paths : List OspfPath} {r : OspfRoute} (h : selectRoute q paths = some r) :
    r.pfx = q ∧ ∃ p ∈ paths, p.area = r.area := by
  cases paths with
  | nil => cases h
  | cons p ps =>
    obtain rfl := Option.some.inj h
    exact ⟨rfl, _, bestOf_mem p ps, rfl⟩

def OwnArea (areaId : UInt32) (s : OspfRib) : Prop := ∀ q, ∀ p ∈ s.canidatesAt q, p.area = some areaId

theorem OwnArea.routeFor (h : OwnArea areaId s) (q : IPPrefix) : ∀ r ∈ s.routeFor q, r.area = some areaId := by
  intro r hr
  obtain ⟨-, p, hp, harea⟩ := mem_of_selectRoute hr
  rw [← harea, h q p hp]

theorem filter_changes (hl : l.Nodup) (hpfx : ∀ q, ∀ r ∈ s.lookup q, r.pfx = q) (q : IPPrefix) :
    (l.flatMap fun q => changesAt areaId q (s.lookup q) (s.routeFor q)).filter (·.pfx = q) =
      if q ∈ l then changesAt areaId q (s.lookup q) (s.routeFor q) else [] := by
  induction l with
  | nil => rfl
  | cons k l ih =>
    obtain ⟨hk, hl'⟩ := List.nodup_cons.1 hl
    rw [List.flatMap_cons, List.filter_append, ih hl']
    by_cases hq : q = k
    · subst hq
      have hall : ∀ c ∈ changesAt areaId q (s.lookup q) (s.routeFor q), decide (c.pfx = q) = true := fun c hc =>
        decide_eq_true (pfx_changesAt (hpfx q) hc)
      rw [List.filter_eq_self.2 hall, if_neg hk, if_pos List.mem_cons_self, List.append_nil]
    · have hnone : ∀ c ∈ changesAt areaId k (s.lookup k) (s.routeFor k), ¬ decide (c.pfx = q) = true := by
        intro c hc hpq
        exact hq ((of_decide_eq_true hpq).symm.trans (pfx_changesAt (hpfx k) hc))
      rw [List.filter_eq_nil_iff.2 hnone, List.nil_append]
      exact if_congr ((List.mem_cons.trans (or_iff_right hq)).symm) rfl rfl

/-- **The changes of a recomputation** lead from the summaries of the table to those of the next iff
    every prefix is reported rightly. -/
theorem foldl_changes_iff (hset : s.Settled) (hedit : Edited s s' touched) (hl : ∀ q ∈ touched, q ∈ l)
    (hnodup : l.Nodup) (hvisit : Visited s' s'' l) (harea : OwnArea areaId s) (harea' : OwnArea areaId s')
    {feed : IPPrefix → Option Summary} (hfeed : ∀ q, feed q = (s.lookup q).bind summaryOf) :
    (∀ q, (l.flatMap fun q => changesAt areaId q (s'.lookup q) (s'.routeFor q)).foldl applyChange feed q =
      (s''.lookup q).bind summaryOf) ↔ ∀ q, Reported (s.routeFor q) (s'.routeFor q) := by
  refine forall_congr' fun q => ?_
  have hpfx : ∀ q, ∀ r ∈ s'.lookup q, r.pfx = q := by
    intro q r hr
    rw [hedit.selected, hset q] at hr
    exact (mem_of_selectRoute hr).1
  rw [foldl_applyChange, filter_changes hnodup hpfx, hvisit.selected, hfeed, hedit.selected, hset q]
  split_ifs with hq
  · exact foldl_changesAt_iff (harea.routeFor q) (harea'.routeFor q)
  · have hroute : s'.routeFor q = s.routeFor q := by
      rw [routeFor, routeFor, hedit.canidates q fun hmem => hq (hl q hmem)]
    rw [hroute]
    exact iff_of_true rfl (Reported.refl _)

end

/-! ## Runs -/

abbrev AreaPath (areaId : UInt32) :=
  {p : OspfPath // p.area = some areaId ∧ p.discard = false ∧ (p.type = .INTRA_AREA ∨ p.type = .INTER_AREA)}

/-- The table, with the map that the changes add up to. -/
structure SummaryFeed where
  table : OspfRib := {}
  feed : IPPrefix → Option Summary := fun _ => none

namespace SummaryFeed

/-- An operation of the area. -/
inductive Event (areaId : UInt32) where
  | replaceArea (env : CallEnv) (ranges : Finset IPPrefix) (paths : List (IPPrefix × AreaPath areaId))
  | replaceRoute (env : CallEnv) (pfx : IPPrefix) (path : Option (AreaPath areaId))
  | refreshIntraRangeSuppression (env : CallEnv) (ranges : Finset IPPrefix)

variable {areaId : UInt32}

def pathList (paths : List (IPPrefix × AreaPath areaId)) : List (IPPrefix × OspfPath) :=
  paths.map fun e => (e.1, e.2.1)

def Event.env : Event areaId → CallEnv
  | .replaceArea env _ _ => env
  | .replaceRoute env _ _ => env
  | .refreshIntraRangeSuppression env _ => env

/-- The table with the edits of an operation, before anything is selected. -/
def Event.edit (t : OspfRib) : Event areaId → OspfRib
  | .replaceArea _ ranges paths => t.replaceAreaEdit areaId ranges (pathList paths)
  | .replaceRoute _ pfx path => t.replaceRouteEdit areaId pfx (path.map Subtype.val)
  | .refreshIntraRangeSuppression _ ranges => t.refreshEdit areaId ranges

def Event.call (cfg : RibConfig) (t : OspfRib) : Event areaId → OspfRib × List OspfRouteChange
  | .replaceArea env ranges paths => t.replaceArea cfg env areaId ranges (pathList paths)
  | .replaceRoute env pfx path => t.replaceRoute cfg env areaId pfx (path.map Subtype.val)
  | .refreshIntraRangeSuppression env ranges => t.refreshIntraRangeSuppression cfg env areaId ranges

def step (cfg : RibConfig) (s : SummaryFeed) (e : Event areaId) : SummaryFeed where
  table := (e.call cfg s.table).1
  feed := (e.call cfg s.table).2.foldl applyChange s.feed

/-- **The summaries** are those of the effective routes. -/
def Right (s : SummaryFeed) : Prop := ∀ q, s.feed q = (s.table.lookup q).bind summaryOf

/-- The routes for the candidates before and after an operation are reported rightly. -/
def Passes (s : SummaryFeed) (e : Event areaId) : Prop :=
  ∀ q, Reported (s.table.routeFor q) ((e.edit s.table).routeFor q)

/-- The table is settled and has candidates of the area only. -/
structure Inv (areaId : UInt32) (s : SummaryFeed) : Prop where
  settled : s.table.Settled
  own : OwnArea areaId s.table

/-- What an operation does: the candidates are edited at some prefixes, and these are visited once each,
    with their changes. -/
structure Call (cfg : RibConfig) (t : OspfRib) (e : Event areaId) (l : List IPPrefix) : Prop where
  edited : ∃ touched : Finset IPPrefix, Edited t (e.edit t) touched ∧ ∀ q ∈ touched, q ∈ l
  nodup : l.Nodup
  visited : Visited (e.edit t) (e.call cfg t).1 l
  changes : e.env.Grants cfg → (e.call cfg t).2 =
    l.flatMap fun q => changesAt areaId q ((e.edit t).lookup q) ((e.edit t).routeFor q)

theorem exists_call (cfg : RibConfig) (t : OspfRib) (e : Event areaId) : ∃ l, Call cfg t e l := by
  cases e with
  | replaceArea env ranges paths =>
    exact ⟨_, ⟨_, edited_replaceArea t areaId ranges (pathList paths), fun q => (env.mem_visit _ q).2⟩,
      env.nodup_visit _, visited_recompute cfg env areaId _ _,
      fun h => changes_foldl_recomputeStep h _ (env.nodup_visit _)⟩
  | replaceRoute env pfx path =>
    refine ⟨[pfx], ⟨_, edited_replaceRoute t areaId pfx _, fun q => ?_⟩, List.nodup_singleton pfx,
      visited_recomputePrefix cfg env _ pfx _, fun _ => ?_⟩
    · exact fun hq => List.mem_singleton.2 (Finset.mem_singleton.1 hq)
    · show (recomputePrefix _ _ _ _ _).intraChange.toList ++ (recomputePrefix _ _ _ _ _).interChange.toList = _
      rw [intraChange_recomputePrefix, interChange_recomputePrefix, List.flatMap_singleton]
      rfl
  | refreshIntraRangeSuppression env ranges =>
    exact ⟨_, ⟨_, edited_refresh t areaId ranges, fun q => (env.mem_visit _ q).2⟩,
      env.nodup_visit _, visited_recompute cfg env areaId _ _,
      fun h => changes_foldl_recomputeStep h _ (env.nodup_visit _)⟩

theorem stampPath_area (ranges : Finset IPPrefix) (e : IPPrefix × OspfPath) :
    (stampPath areaId ranges e).2.area = e.2.area := by
  rw [stampPath]
  split_ifs <;> rfl

theorem restampPath_area (ranges : Finset IPPrefix) (q : IPPrefix) (p : OspfPath) :
    (restampPath areaId ranges q p).area = p.area := by
  rw [restampPath]
  split_ifs <;> rfl

theorem ownArea_edit {t : OspfRib} (h : OwnArea areaId t) (e : Event areaId) : OwnArea areaId (e.edit t) := by
  intro q p hp
  cases e with
  | replaceArea env ranges paths =>
    change p ∈ (t.replaceAreaEdit areaId ranges (pathList paths)).canidatesAt q at hp
    rw [canidatesAt_replaceAreaEdit] at hp
    rcases List.mem_append.1 hp with hold | hnew
    · split_ifs at hold
      · exact h q p (List.mem_filter.1 hold).1
      · exact h q p hold
    · obtain ⟨e, he, rfl⟩ := List.mem_map.1 hnew
      obtain ⟨⟨k, path⟩, hpath, rfl⟩ := List.mem_map.1 (List.mem_filter.1 he).1
      obtain ⟨⟨k, path⟩, -, heq⟩ := List.mem_map.1 hpath
      cases heq
      rw [stampPath_area]
      exact path.2.1
  | replaceRoute env pfx path =>
    change p ∈ (t.replaceRouteEdit areaId pfx (path.map Subtype.val)).canidatesAt q at hp
    rw [canidatesAt_replaceRouteEdit] at hp
    split_ifs at hp
    · rcases List.mem_append.1 hp with hold | hnew
      · exact h q p (List.mem_filter.1 hold).1
      · cases path with
        | none => cases hnew
        | some path =>
          obtain rfl := List.mem_singleton.1 hnew
          exact path.2.1
    · exact h q p hp
  | refreshIntraRangeSuppression env ranges =>
    change p ∈ (t.refreshEdit areaId ranges).canidatesAt q at hp
    rw [canidatesAt_refreshEdit] at hp
    split_ifs at hp
    · obtain ⟨p', hp', rfl⟩ := List.mem_map.1 hp
      rw [restampPath_area]
      exact h q p' hp'
    · exact h q p hp

variable {cfg : RibConfig} {s : SummaryFeed}

/-- **One step** keeps the table settled. -/
theorem Inv.step (h : Inv areaId s) (e : Event areaId) : Inv areaId (step cfg s e) := by
  obtain ⟨l, ⟨touched, hedit, hl⟩, -, hvisit, -⟩ := exists_call cfg s.table e
  refine ⟨h.settled.of_visited hedit hl hvisit, fun q p hp => ?_⟩
  change p ∈ (e.call cfg s.table).1.canidatesAt q at hp
  rw [hvisit.canidates] at hp
  exact ownArea_edit h.own e q p hp

/-- **One step** keeps the summaries right iff the routes are reported rightly. -/
theorem right_step_iff (h : Inv areaId s) (hright : s.Right) {e : Event areaId} (hgrant : e.env.Grants cfg) :
    (SummaryFeed.step cfg s e).Right ↔ Passes s e := by
  obtain ⟨l, ⟨touched, hedit, hl⟩, hnodup, hvisit, hchanges⟩ := exists_call cfg s.table e
  have hiff := foldl_changes_iff h.settled hedit hl hnodup hvisit h.own (ownArea_edit h.own e) hright
  rw [← hchanges hgrant] at hiff
  exact hiff

theorem inv_start : Inv areaId {} := ⟨fun _ => rfl, fun _ _ hp => absurd hp List.not_mem_nil⟩

theorem right_start : ({} : SummaryFeed).Right := fun _ => rfl

/-- **The summaries in a run** of the operations of an area, with the eligibility always granted, are
    right after every operation iff every operation reports the routes rightly. -/
theorem feed_right_iff (cfg : RibConfig) (es : List (Event areaId)) (h : ∀ e ∈ es, e.env.Grants cfg) :
    Along Passes (SummaryFeed.step cfg) {} es ↔
      ∀ ps, ps <+: es → (runFrom (SummaryFeed.step cfg) {} ps).Right :=
  along_iff_everywhere (I := Inv areaId) (Q := Right) (fun _ e hs => hs.step e)
    (fun _ _ hgrant hs hright => right_step_iff hs hright hgrant) h inv_start right_start

/-! ## The defects -/

/-- A call that finds nothing in the memory, and a table of the VRF that covers every prefix. -/
noncomputable def plainEnv : CallEnv where
  processId _ := 0
  globalRibContains _ := true
  visit := Finset.toList
  nodup_visit := Finset.nodup_toList
  mem_visit _ _ := Finset.mem_toList

theorem plainEnv_grants : plainEnv.Grants {} := fun _ _ => rfl

def netTen : IPPrefix where
  addr := 0xFFFF0A000000
  prefixLength := 8

def backbonePath (type : OspfRouteType) (h : type = .INTRA_AREA ∨ type = .INTER_AREA) (cost : ℕ) : AreaPath 0 :=
  ⟨{ type, area := some 0, cost }, rfl, rfl, h⟩

def intraPath (cost : ℕ) : AreaPath 0 := backbonePath .INTRA_AREA (Or.inl rfl) cost

def interPath (cost : ℕ) : AreaPath 0 := backbonePath .INTER_AREA (Or.inr rfl) cost

noncomputable def only (path : AreaPath 0) : Event 0 := .replaceArea plainEnv ∅ [(netTen, path)]

theorem passes_start (e : Event areaId) : Passes {} e := fun _ o ho => absurd ho (Option.not_mem_none o)

theorem right_only (path : AreaPath 0) : (runFrom (SummaryFeed.step {}) {} [only path]).Right :=
  (right_step_iff inv_start right_start plainEnv_grants).2 (passes_start (only path))

theorem stampPath_none {path : OspfPath} (h : path.suppressed = false) :
    stampPath 0 ∅ (netTen, path) = (netTen, path) := by
  have hrange : isIntraRangeSuppressed netTen ∅ = false := by
    rw [isIntraRangeSuppressed, decide_eq_false_iff_not]
    rintro ⟨r, hr, -⟩
    exact absurd hr (Finset.notMem_empty r)
  rw [stampPath, hrange, ← h]
  split_ifs <;> rfl

theorem canidates_only {a b : AreaPath 0} (ha : a.1.suppressed = false) (hb : b.1.suppressed = false) :
    (runFrom (SummaryFeed.step {}) {} [only a]).table.canidatesAt netTen = [a.1] ∧
    ((only b).edit (runFrom (SummaryFeed.step {}) {} [only a]).table).canidatesAt netTen = [b.1] := by
  obtain ⟨l, -, -, hvisit, -⟩ := exists_call {} {} (only a)
  have hold : (runFrom (SummaryFeed.step {}) {} [only a]).table.canidatesAt netTen = [a.1] := by
    refine (hvisit.canidates netTen).trans ?_
    show (OspfRib.replaceAreaEdit {} 0 ∅ (pathList [(netTen, a)])).canidatesAt netTen = _
    rw [canidatesAt_replaceAreaEdit, pathList, List.map_singleton, List.map_singleton, stampPath_none ha]
    rfl
  have hindex : groupOf (runFrom (SummaryFeed.step {}) {} [only a]).table.areaIndex 0 = {netTen} := by
    refine (congrArg (groupOf · 0) hvisit.indexes.areaIndex).trans ?_
    rfl
  refine ⟨hold, ?_⟩
  show (OspfRib.replaceAreaEdit _ 0 ∅ (pathList [(netTen, b)])).canidatesAt netTen = _
  rw [canidatesAt_replaceAreaEdit, pathList, List.map_singleton, List.map_singleton, stampPath_none hb, hindex, hold,
    if_pos (Finset.mem_singleton_self netTen)]
  have hgone : isAreaPath 0 a.1 = true := by rw [isAreaPath, a.2.1, a.2.2.1]; rfl
  rw [List.filter_singleton, hgone]
  rfl

theorem reported_of_right {a b : AreaPath 0} (ha : a.1.suppressed = false) (hb : b.1.suppressed = false)
    (h : (runFrom (SummaryFeed.step {}) {} [only a, only b]).Right) :
    Reported (selectRoute netTen [a.1]) (selectRoute netTen [b.1]) := by
  have hinv : Inv 0 (runFrom (SummaryFeed.step {}) {} [only a]) := inv_start.step (only a)
  have hpass := (right_step_iff hinv (right_only a) plainEnv_grants).1 h netTen
  obtain ⟨hold, hnew⟩ := canidates_only ha hb
  rw [OspfRib.routeFor, OspfRib.routeFor, hold, hnew] at hpass
  exact hpass

/-- The first path is announced. -/
theorem feed_right_iff_first : (runFrom (SummaryFeed.step {}) {} [only (intraPath 10)]).Right :=
  (feed_right_iff {} [only (intraPath 10)] fun e he => by rw [List.mem_singleton.1 he]; exact plainEnv_grants).1
    ⟨passes_start _, trivial⟩ _ List.prefix_rfl

/-- A new cost is not reported, and an intra-area route that takes the place of an inter-area route is
    reported and withdrawn. -/
theorem not_feed_right :
    ¬ (runFrom (SummaryFeed.step {}) {} [only (intraPath 10), only (intraPath 20)]).Right ∧
    ¬ (runFrom (SummaryFeed.step {}) {} [only (interPath 10), only (intraPath 10)]).Right := by
  constructor
  · intro h
    have hcost := ((reported_of_right rfl rfl h) _ rfl _ rfl rfl rfl).2 rfl
    exact absurd hcost.1 (show ¬ (10 : ℕ) = 20 by decide)
  · intro h
    exact ((reported_of_right rfl rfl h) _ rfl _ rfl rfl rfl).1 ⟨rfl, rfl⟩

end SummaryFeed

end VirtualRouter.Ospf
