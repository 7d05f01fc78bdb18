/-
  The ranges of an area (`syncRangeConfig`, `syncRangeSuppression`, `syncRangeRuntime` and
  `computeRangeContributors` of `ospf/area/Area.cpp`).

  A range is to stand for the routes of the area that it contains: it counts them, it is advertised
  by one summary, and a discard route keeps what it does not contain from looping.  The code sets
  `discardPresent` nowhere, it counts the routes that equal a range after it has suppressed
  those, and the loop that takes away the ranges that are not configured any more goes on with
  the iterator that `erase` returns as if that were the range it erased.  An `unordered_map` is
  walked in the order of its list.  The summaries that `reoriginateSummaries` puts into the other
  areas are left out.

  * `AreaRanges.syncRangeConfig`, `AreaRanges.syncRangeSuppression`, `AreaRanges.syncRangeRuntime`;
  * `AreaRanges.Aggregates`: what is to hold of the ranges;
  * `aggregates_iff`: it does throughout a run as long as no range contains a route and none is taken away.
-/
import VirtualRouter.Lib.Run
import VirtualRouter.Ospf.Recompute
import VirtualRouter.Ospf.SummaryFeed

namespace VirtualRouter.Ospf

open NestedMap Run

/-! ## The state -/

structure AreaRange where
  notAdvertise : Bool := false
  costOverride : Option UInt32 := none
  contributorCount : ℕ := 0
  computedMetric : UInt32 := 0
  summary : Option UInt32 := none
  discardPresent : Bool := false
  deriving DecidableEq, Repr

/-- What the functions read of the process and its configuration. -/
structure RangeConfig where
  areaId : UInt32
  isABR : Bool
  isV3 : Bool
  discardInternal : Bool
  discardInternalDistance : ℕ
  rib : RibConfig

/-- The ranges, the routing table, and the summaries that the originator of the area has by LS id.  An
    erased record that is used is remembered. -/
structure AreaRanges where
  ranges : List (IPPrefix × AreaRange) := []
  rangePrefixes : Finset IPPrefix := ∅
  rib : OspfRib := {}
  monotonicIntraId : UInt32 := 0
  summaries : UInt32 → Option (IPPrefix × UInt32) := fun _ => none
  usedErased : Bool := false

/-! ## Contributors -/

def OspfRib.getIntraAreaRoutes (s : OspfRib) (area : UInt32) : List (IPPrefix × OspfPath) :=
  s.prefixStates.entries.filterMap fun e =>
    if e.2.hasSelected && e.2.selected.type = .INTRA_AREA && e.2.selected.area = some area &&
        !e.2.selected.suppressed then
      e.2.selected.paths.head?.map fun path => (e.1, path)
    else none

abbrev RangeCounts : Type := IPPrefix → Option (ℕ × UInt32)

/-- The loop of `computeRangeContributors` over the routes. -/
def countRoute (isActive : IPPrefix → Bool) (rcs : RangeCounts) (e : IPPrefix × OspfPath) : RangeCounts :=
  if e.2.suppressed ∨ e.2.discard ∨ e.2.type ≠ .INTRA_AREA then rcs
  else if isActive e.1 = false then rcs
  else
    let r := (rcs e.1).getD (0, 0)
    Function.update rcs e.1 (some (r.1 + 1, min r.2 (UInt32.ofNat e.2.cost)))

def computeRangeContributors (intraAreaRoutes : List (IPPrefix × OspfPath))
    (activeRanges : List (IPPrefix × AreaRange)) : RangeCounts :=
  let isActive (pfx : IPPrefix) := activeRanges.any (·.1 = pfx)
  intraAreaRoutes.foldl (countRoute isActive) fun pfx => if isActive pfx then some (0, 0xFFFFFFFF) else none

/-! ## The runtime state -/

structure SummaryAction where
  lsid : UInt32
  pfx : IPPrefix
  metric : UInt32
  flush : Bool
  deriving DecidableEq, Repr

structure DiscardAction where
  pfx : IPPrefix
  metric : UInt32
  install : Bool
  deriving DecidableEq, Repr

structure RangeRound where
  ranges : List (IPPrefix × AreaRange) := []
  summaryActions : List SummaryAction := []
  discardActions : List DiscardAction := []
  monotonicIntraId : UInt32

/-- The discard of a range: nothing is done unless one is present. -/
def discardAction (pfx : IPPrefix) (r : AreaRange) (shouldDiscard : Bool) (metric : UInt32) : List DiscardAction :=
  if r.discardPresent && shouldDiscard then [⟨pfx, metric, true⟩]
  else if r.discardPresent && !shouldDiscard then [⟨pfx, 0, false⟩]
  else []

/-- A round of the loop on an area border router. -/
def syncRange (isV3 : Bool) (rcs : RangeCounts) (m : RangeRound) (e : IPPrefix × AreaRange) : RangeRound :=
  let (count, minMetric) := (rcs e.1).getD (0, 0)
  let r := e.2
  let active : Bool := 0 < count
  let metric := r.costOverride.getD minMetric
  let shouldAdvertise := active && !r.notAdvertise
  let discards := m.discardActions ++ discardAction e.1 r active metric
  let next : AreaRange := { r with contributorCount := count, computedMetric := if active then metric else 0 }
  match r.summary with
  | none =>
    if shouldAdvertise then
      let lsid := if isV3 then m.monotonicIntraId else UInt32.ofBitVec (addrV4 e.1.addr)
      { ranges := m.ranges ++ [(e.1, { next with summary := some lsid })]
        summaryActions := m.summaryActions ++ [⟨lsid, e.1, metric, false⟩]
        discardActions := discards
        monotonicIntraId := if isV3 then m.monotonicIntraId + 1 else m.monotonicIntraId }
    else { m with ranges := m.ranges ++ [(e.1, next)], discardActions := discards }
  | some lsid =>
    if shouldAdvertise = false then
      { m with
        ranges := m.ranges ++ [(e.1, { next with summary := none })]
        summaryActions := m.summaryActions ++ [⟨lsid, e.1, 0, true⟩]
        discardActions := discards }
    else if r.computedMetric ≠ metric then
      { m with
        ranges := m.ranges ++ [(e.1, next)]
        summaryActions := m.summaryActions ++ [⟨lsid, e.1, metric, false⟩]
        discardActions := discards }
    else { m with ranges := m.ranges ++ [(e.1, next)], discardActions := discards }

/-- A round of the loop on a router that is no border router any more. -/
def withdrawRange (m : RangeRound) (e : IPPrefix × AreaRange) : RangeRound :=
  { m with
    ranges := m.ranges ++ [(e.1, { e.2 with summary := none, contributorCount := 0, computedMetric := 0 })]
    summaryActions := m.summaryActions ++ e.2.summary.toList.map fun lsid => ⟨lsid, e.1, 0, true⟩
    discardActions := m.discardActions ++ if e.2.discardPresent then [⟨e.1, 0, false⟩] else [] }

/-- `originateSummary`, of the originator of the area. -/
def originateSummary (summaries : UInt32 → Option (IPPrefix × UInt32)) (a : SummaryAction) :
    UInt32 → Option (IPPrefix × UInt32) :=
  Function.update summaries a.lsid (if a.flush then none else some (a.pfx, a.metric))

def applyDiscard (cfg : RangeConfig) (env : CallEnv) (rib : OspfRib) (d : DiscardAction) : OspfRib :=
  if d.install then
    rib.installDiscardRoute cfg.rib env ⟨d.pfx, some cfg.areaId⟩ d.metric.toNat cfg.discardInternalDistance
  else rib.withdrawDiscardRoute cfg.rib env ⟨d.pfx, some cfg.areaId⟩

namespace AreaRanges

variable (cfg : RangeConfig) (env : CallEnv) (s : AreaRanges)

def execute (m : RangeRound) : AreaRanges :=
  { s with
    ranges := m.ranges
    monotonicIntraId := m.monotonicIntraId
    summaries := m.summaryActions.foldl originateSummary s.summaries
    rib := if cfg.discardInternal then m.discardActions.foldl (applyDiscard cfg env) s.rib else s.rib }

def syncRangeRuntime (intraRoutes : List (IPPrefix × OspfPath)) (abrChange : Bool) : AreaRanges :=
  let start : RangeRound := { monotonicIntraId := s.monotonicIntraId }
  if cfg.isABR = false then
    if abrChange = false then s else s.execute cfg env (s.ranges.foldl withdrawRange start)
  else
    let rcs := computeRangeContributors intraRoutes s.ranges
    s.execute cfg env (s.ranges.foldl (syncRange cfg.isV3 rcs) start)

def syncRangeSuppression (activeRanges : Finset IPPrefix) (abrChange : Bool) : AreaRanges :=
  let active := if cfg.isABR then activeRanges else ∅
  let s := { s with rib := (s.rib.refreshIntraRangeSuppression cfg.rib env cfg.areaId active).1 }
  if cfg.isABR || abrChange then
    s.syncRangeRuntime cfg env (if cfg.isABR then s.rib.getIntraAreaRoutes cfg.areaId else []) abrChange
  else s

/-! ## The configuration -/

/-- A configured range: the prefix, whether it is not advertised, and the cost. -/
abbrev RangeEntry : Type := IPPrefix × Bool × Option UInt32

/-- `ranges[pfx]` with the two fields of the configuration. -/
def configureRange : List (IPPrefix × AreaRange) → RangeEntry → List (IPPrefix × AreaRange)
  | [], (pfx, noAdv, cost) => [(pfx, { notAdvertise := noAdv, costOverride := cost })]
  | (q, r) :: rest, (pfx, noAdv, cost) =>
    if q = pfx then (q, { r with notAdvertise := noAdv, costOverride := cost }) :: rest
    else (q, r) :: configureRange rest (pfx, noAdv, cost)

/-- The loop that erases the ranges whose prefix is not in the set; it returns nothing where it reads the
    range behind the last one. -/
def pruneRanges : List (IPPrefix × AreaRange) → Finset IPPrefix →
    Option (List (IPPrefix × AreaRange) × Finset IPPrefix)
  | [], prefixes => some ([], prefixes)
  | (pfx, r) :: rest, prefixes =>
    if pfx ∈ prefixes then (pruneRanges rest prefixes).map fun out => ((pfx, r) :: out.1, out.2)
    else
      match rest.head? with
      | none => none
      | some next => pruneRanges rest (prefixes.erase next.1)

def syncRangeConfig (cfgRanges : List RangeEntry) : AreaRanges :=
  let prefixes := (cfgRanges.map Prod.fst).toFinset
  match pruneRanges (cfgRanges.foldl configureRange s.ranges) prefixes with
  | none => { s with usedErased := true }
  | some (ranges, rangePrefixes) =>
    { s with ranges, rangePrefixes }.syncRangeSuppression cfg env (ranges.map Prod.fst).toFinset false

end AreaRanges

/-! ## What is to hold -/

theorem isIPv4_mapped (x : BitVec 32) : isIPv4 (x.setWidth 128 ||| (0xFFFF : BitVec 128) <<< 32) = true := by
  have hlow : (x.setWidth 128) >>> 32 = 0 := by
    apply BitVec.eq_of_getLsbD_eq
    intro i hi
    simp
  have hhigh : ((0xFFFF : BitVec 128) <<< 32) >>> 32 = 0xFFFF := by decide
  rw [isIPv4, BitVec.ushiftRight_or_distrib, hlow, hhigh]
  decide

theorem addrV4_mapped (x : BitVec 32) : addrV4 (x.setWidth 128 ||| (0xFFFF : BitVec 128) <<< 32) = x := by
  rw [addrV4]
  ext i hi
  simp

theorem isIPv4_of_masked {a : BitVec 128} {len : ℕ} (h : isIPv4 (a &&& prefixMask 128 len) = true) :
    isIPv4 a = true := by
  rw [isIPv4, decide_eq_true_iff] at h ⊢
  have hbit := congrArg (fun v : BitVec 128 => v.getLsbD 0) h
  rw [← h]
  rw [prefixMask] at hbit ⊢
  split_ifs at hbit ⊢ with hlen
  · simp at hbit
  · -- bit 32 is in the mask, so that all bits behind it are
    have hle : 128 - len ≤ 32 := by
      simp at hbit
      omega
    apply BitVec.eq_of_getLsbD_eq
    intro i hi
    simp only [BitVec.getLsbD_ushiftRight, BitVec.getLsbD_and, BitVec.getLsbD_shiftLeft,
      BitVec.getLsbD_allOnes]
    by_cases hin : 32 + i < 128
    · have hmask : ¬ 32 + i < 128 - len := by omega
      simp [hin, hmask]
      omega
    · rw [BitVec.getLsbD_of_ge a _ (by omega)]
      rfl

theorem IPPrefix.contains_self (p : IPPrefix) : p.contains (addPrefixLen p.addr p.prefixLength) = true := by
  rw [IPPrefix.contains, addPrefixLen]
  cases hv4 : isIPv4 p.addr with
  | true =>
    rw [if_pos rfl, isIPv4_mapped, if_pos rfl, addrV4_mapped, BitVec.and_assoc, BitVec.and_self]
    simp
  | false =>
    rw [if_neg Bool.false_ne_true]
    have hmasked : isIPv4 (p.addr &&& prefixMask 128 p.prefixLength) = false := by
      by_contra h
      rw [Bool.not_eq_false] at h
      rw [isIPv4_of_masked h] at hv4
      cases hv4
    rw [hmasked, if_neg Bool.false_ne_true, BitVec.and_assoc, BitVec.and_self]
    simp

def IPPrefix.covers (range q : IPPrefix) : Bool :=
  range.prefixLength ≤ q.prefixLength && range.contains (addPrefixLen q.addr q.prefixLength)

theorem IPPrefix.covers_self (p : IPPrefix) : p.covers p = true := by
  rw [covers, p.contains_self]
  simp

def OspfRib.areaPrefixes (s : OspfRib) (area : UInt32) : List IPPrefix :=
  (s.prefixStates.entries.filter fun e =>
    e.2.hasSelected && e.2.selected.type = .INTRA_AREA && e.2.selected.area = some area).map (·.1)

/-- The number of the intra-area routes of the area that a range contains. -/
def contributors (s : OspfRib) (area : UInt32) (range : IPPrefix) : ℕ :=
  (s.areaPrefixes area).countP range.covers

/-- The area with the configuration as it was last given. -/
structure RangeRun extends AreaRanges where
  configured : List AreaRanges.RangeEntry := []

namespace RangeRun

def advertised (s : RangeRun) (range : IPPrefix) : Bool :=
  (s.configured.filter (·.1 = range)).getLast?.any fun c => !c.2.1

def Originates (s : RangeRun) (pfx : IPPrefix) : Prop := ∃ lsid metric, s.summaries lsid = some (pfx, metric)

def Discards (s : RangeRun) (area : UInt32) (pfx : IPPrefix) : Prop :=
  ∃ p ∈ s.rib.canidatesAt pfx, OspfRib.isDiscardPath ⟨pfx, some area⟩ p = true

/-- The ranges do what they are for. -/
structure Aggregates (area : UInt32) (s : RangeRun) : Prop where
  valid : s.usedErased = false
  configured : ∀ pfx, (∃ e ∈ s.ranges, e.1 = pfx) ↔ ∃ c ∈ s.configured, c.1 = pfx
  count : ∀ e ∈ s.ranges, e.2.contributorCount = contributors s.rib area e.1
  summary : ∀ e ∈ s.ranges, s.Originates e.1 ↔ s.advertised e.1 = true ∧ 0 < e.2.contributorCount
  discard : ∀ e ∈ s.ranges, s.Discards area e.1 ↔ 0 < e.2.contributorCount
  withdrawn : ∀ pfx, (∀ e ∈ s.ranges, e.1 ≠ pfx) → ¬ s.Originates pfx ∧ ¬ s.Discards area pfx

end RangeRun

/-! ## Runs -/

structure IntraPaths (area : UInt32) where
  paths : List (IPPrefix × OspfPath)
  intra : ∀ e ∈ paths, OspfRib.isIntraOf area e.2 = true ∧ e.2.discard = false

inductive RangeEvent (area : UInt32) where
  | routes (env : CallEnv) (change : IntraPaths area)
  | configure (env : CallEnv) (cfgRanges : List AreaRanges.RangeEntry)

/-- A border router that installs internal discard routes. -/
def RangeConfig.border (cfg : RangeConfig) : RangeConfig := { cfg with isABR := true, discardInternal := true }

namespace RangeRun

variable (cfg : RangeConfig)

/-- The routes change, or the configuration does.  Nothing is known once an erased record was used. -/
def step (s : RangeRun) (ev : RangeEvent cfg.areaId) : RangeRun :=
  if s.usedErased then s
  else
    match ev with
    | .routes env change =>
      let rib := (s.rib.replaceArea cfg.rib env cfg.areaId s.rangePrefixes change.paths).1
      { s with toAreaRanges := { s.toAreaRanges with rib }.syncRangeSuppression cfg.border env s.rangePrefixes false }
    | .configure env cfgRanges =>
      { toAreaRanges := s.toAreaRanges.syncRangeConfig cfg.border env cfgRanges, configured := cfgRanges }

def Keeps (s : RangeRun) : RangeEvent cfg.areaId → Prop
  | .routes _ _ => True
  | .configure _ cfgRanges => ∀ e ∈ s.ranges, e.1 ∈ cfgRanges.map Prod.fst

/-- The step takes no range away, and no range contains a route after it. -/
def Harmless (s : RangeRun) (ev : RangeEvent cfg.areaId) : Prop :=
  s.Keeps cfg ev ∧ ∀ e ∈ (s.step cfg ev).ranges, contributors (s.step cfg ev).rib cfg.areaId e.1 = 0

end RangeRun

/-! ## The ranges that are not configured any more -/

namespace AreaRanges

theorem pruneRanges_of_all {l : List (IPPrefix × AreaRange)} {prefixes : Finset IPPrefix}
    (h : ∀ e ∈ l, e.1 ∈ prefixes) : pruneRanges l prefixes = some (l, prefixes) := by
  induction l with
  | nil => rfl
  | cons e l ih =>
    rw [pruneRanges, if_pos (h e List.mem_cons_self), ih fun e' he' => h e' (List.mem_cons_of_mem _ he')]
    rfl

/-- **A range is erased, and then all that come after it**, up to the one behind the last. -/
theorem pruneRanges_of_missing {l : List (IPPrefix × AreaRange)} {prefixes : Finset IPPrefix}
    (h : ∃ e ∈ l, e.1 ∉ prefixes) : pruneRanges l prefixes = none := by
  induction l generalizing prefixes with
  | nil =>
    obtain ⟨e, he, -⟩ := h
    cases he
  | cons e l ih =>
    rw [pruneRanges]
    split_ifs with hmem
    · obtain ⟨e', he', hnot⟩ := h
      rcases List.mem_cons.1 he' with rfl | he'
      · exact absurd hmem hnot
      · rw [ih ⟨e', he', hnot⟩]
        rfl
    · cases l with
      | nil => rfl
      | cons e' l => exact ih ⟨e', List.mem_cons_self, Finset.notMem_erase _ _⟩

theorem exists_configureRange {l : List (IPPrefix × AreaRange)} {c : RangeEntry} {pfx : IPPrefix} :
    (∃ e ∈ configureRange l c, e.1 = pfx) ↔ (∃ e ∈ l, e.1 = pfx) ∨ c.1 = pfx := by
  induction l with
  | nil => simp [configureRange]
  | cons e l ih =>
    rw [configureRange]
    split_ifs with hq
    · simp only [List.exists_mem_cons_iff, hq]
      exact ⟨Or.inl, fun h => h.elim id Or.inl⟩
    · simp only [List.exists_mem_cons_iff, ih]
      exact or_assoc.symm

/-- The record of a range that contains no route, has no summary and has had no discard route. -/
def Idle (r : AreaRange) : Prop := r.contributorCount = 0 ∧ r.summary = none ∧ r.discardPresent = false

theorem idle_configureRange {l : List (IPPrefix × AreaRange)} (h : ∀ e ∈ l, Idle e.2) (c : RangeEntry) :
    ∀ e ∈ configureRange l c, Idle e.2 := by
  induction l with
  | nil =>
    intro e he
    rw [List.mem_singleton.1 he]
    exact ⟨rfl, rfl, rfl⟩
  | cons e l ih =>
    rw [configureRange]
    split_ifs
    · intro e' he'
      rcases List.mem_cons.1 he' with heq | he'
      · rw [heq]
        exact h e List.mem_cons_self
      · exact h e' (List.mem_cons_of_mem _ he')
    · intro e' he'
      rcases List.mem_cons.1 he' with heq | he'
      · rw [heq]
        exact h e List.mem_cons_self
      · exact ih (fun e'' he'' => h e'' (List.mem_cons_of_mem _ he'')) e' he'

theorem foldl_configureRange {l : List (IPPrefix × AreaRange)} (h : ∀ e ∈ l, Idle e.2) (cs : List RangeEntry) :
    (∀ e ∈ cs.foldl configureRange l, Idle e.2) ∧
      ∀ pfx, (∃ e ∈ cs.foldl configureRange l, e.1 = pfx) ↔ (∃ e ∈ l, e.1 = pfx) ∨ ∃ c ∈ cs, c.1 = pfx := by
  induction cs generalizing l with
  | nil => exact ⟨h, fun pfx => by simp⟩
  | cons c cs ih =>
    obtain ⟨hidle, hkeys⟩ := ih (idle_configureRange h c)
    refine ⟨hidle, fun pfx => ?_⟩
    rw [List.foldl_cons, hkeys, exists_configureRange, List.exists_mem_cons_iff]
    exact or_assoc

/-! ## A round without contributors -/

/-- The record after a round in which nothing is counted. -/
def settle (e : IPPrefix × AreaRange) : IPPrefix × AreaRange :=
  (e.1, { e.2 with contributorCount := 0, computedMetric := 0 })

theorem syncRange_idle {isV3 : Bool} {rcs : RangeCounts} {e : IPPrefix × AreaRange} (h : Idle e.2)
    (hcount : ((rcs e.1).getD (0, 0)).1 = 0) (m : RangeRound) :
    syncRange isV3 rcs m e = { m with ranges := m.ranges ++ [settle e] } := by
  obtain ⟨-, hsummary, hdiscard⟩ := h
  simp [syncRange, hcount, hsummary, hdiscard, discardAction, settle]

theorem foldl_syncRange_idle {isV3 : Bool} {rcs : RangeCounts} {l : List (IPPrefix × AreaRange)}
    (h : ∀ e ∈ l, Idle e.2 ∧ ((rcs e.1).getD (0, 0)).1 = 0) (m : RangeRound) :
    l.foldl (syncRange isV3 rcs) m = { m with ranges := m.ranges ++ l.map settle } := by
  induction l generalizing m with
  | nil => simp
  | cons e l ih =>
    rw [List.foldl_cons, syncRange_idle (h e List.mem_cons_self).1 (h e List.mem_cons_self).2,
      ih fun e' he' => h e' (List.mem_cons_of_mem _ he')]
    simp

theorem discardActions_foldl {isV3 : Bool} {rcs : RangeCounts} {l : List (IPPrefix × AreaRange)}
    (h : ∀ e ∈ l, e.2.discardPresent = false) (m : RangeRound) :
    (l.foldl (syncRange isV3 rcs) m).discardActions = m.discardActions := by
  induction l generalizing m with
  | nil => rfl
  | cons e l ih =>
    rw [List.foldl_cons, ih fun e' he' => h e' (List.mem_cons_of_mem _ he')]
    have hnone : discardAction e.1 e.2 (decide (0 < ((rcs e.1).getD (0, 0)).1))
        (e.2.costOverride.getD ((rcs e.1).getD (0, 0)).2) = [] := by
      simp [discardAction, h e List.mem_cons_self]
    rw [syncRange]
    simp only [hnone, List.append_nil]
    split
    · split_ifs <;> rfl
    · split_ifs <;> rfl

theorem countRoute_ne {isActive : IPPrefix → Bool} {rcs : RangeCounts} {e : IPPrefix × OspfPath} {pfx : IPPrefix}
    (h : e.1 ≠ pfx) : countRoute isActive rcs e pfx = rcs pfx := by
  rw [countRoute]
  split_ifs
  · rfl
  · rfl
  · exact Function.update_of_ne h.symm ..

theorem count_eq_zero {routes : List (IPPrefix × OspfPath)} {pfx : IPPrefix} (h : ∀ e ∈ routes, e.1 ≠ pfx)
    (ranges : List (IPPrefix × AreaRange)) :
    ((computeRangeContributors routes ranges pfx).getD (0, 0)).1 = 0 := by
  rw [computeRangeContributors]
  induction routes using List.reverseRecOn with
  | nil =>
    rw [List.foldl_nil]
    split_ifs <;> rfl
  | append_singleton routes e ih =>
    rw [List.foldl_append, List.foldl_cons, List.foldl_nil,
      countRoute_ne (h e (List.mem_append_right _ (List.mem_singleton.2 rfl)))]
    exact ih fun e' he' => h e' (List.mem_append_left _ he')

end AreaRanges

theorem OspfRib.mem_getIntraAreaRoutes {s : OspfRib} {area : UInt32} {e : IPPrefix × OspfPath}
    (h : e ∈ s.getIntraAreaRoutes area) : e.1 ∈ s.areaPrefixes area := by
  obtain ⟨x, hx, hsome⟩ := List.mem_filterMap.1 h
  split_ifs at hsome with hsel
  obtain ⟨path, -, rfl⟩ := Option.map_eq_some_iff.1 hsome
  refine List.mem_map.2 ⟨x, List.mem_filter.2 ⟨hx, ?_⟩, rfl⟩
  rw [Bool.and_eq_true] at hsel
  exact hsel.1

theorem ne_of_contributors {s : OspfRib} {area : UInt32} {range : IPPrefix} (h : contributors s area range = 0) :
    ∀ e ∈ s.getIntraAreaRoutes area, e.1 ≠ range := by
  rintro e he rfl
  rw [contributors, List.countP_eq_zero] at h
  exact h e.1 (OspfRib.mem_getIntraAreaRoutes he) e.1.covers_self

/-! ## Discard routes -/

def OspfRib.NoDiscard (s : OspfRib) : Prop := ∀ q, ∀ p ∈ s.canidatesAt q, p.discard = false

theorem OspfRib.NoDiscard.of_edit {s s' : OspfRib} {touched : List IPPrefix}
    (h : ∀ q, ∀ p ∈ s.canidatesAt q, p.discard = false) (hvisit : Visited s s' touched) : s'.NoDiscard := by
  intro q p hp
  rw [hvisit.canidates] at hp
  exact h q p hp

theorem OspfRib.NoDiscard.replaceArea {s : OspfRib} (h : s.NoDiscard) (cfg : RibConfig) (env : CallEnv)
    (area : UInt32) (ranges : Finset IPPrefix) {paths : List (IPPrefix × OspfPath)}
    (hpaths : ∀ e ∈ paths, e.2.discard = false) : (s.replaceArea cfg env area ranges paths).1.NoDiscard := by
  refine OspfRib.NoDiscard.of_edit (fun q p hp => ?_) (OspfRib.visited_recompute cfg env area _ _)
  rw [OspfRib.canidatesAt_replaceAreaEdit] at hp
  rcases List.mem_append.1 hp with hp | hp
  · split_ifs at hp
    · exact h q p (List.mem_filter.1 hp).1
    · exact h q p hp
  · obtain ⟨e, he, rfl⟩ := List.mem_map.1 hp
    obtain ⟨e', he', rfl⟩ := List.mem_map.1 (List.mem_filter.1 he).1
    rw [OspfRib.stampPath]
    split_ifs
    · exact hpaths e' he'
    · exact hpaths e' he'

theorem OspfRib.NoDiscard.refresh {s : OspfRib} (h : s.NoDiscard) (cfg : RibConfig) (env : CallEnv)
    (area : UInt32) (ranges : Finset IPPrefix) :
    (s.refreshIntraRangeSuppression cfg env area ranges).1.NoDiscard := by
  refine OspfRib.NoDiscard.of_edit (fun q p hp => ?_) (OspfRib.visited_recompute cfg env area _ _)
  rw [OspfRib.canidatesAt_refreshEdit] at hp
  split_ifs at hp
  · obtain ⟨p', hp', rfl⟩ := List.mem_map.1 hp
    rw [OspfRib.restampPath]
    split_ifs
    · exact h q p' hp'
    · exact h q p' hp'
  · exact h q p hp

/-! ## A call of `syncRangeSuppression` -/

namespace AreaRanges

/-- Nothing was advertised or discarded so far. -/
structure Unused (s : AreaRanges) : Prop where
  valid : s.usedErased = false
  idle : ∀ e ∈ s.ranges, Idle e.2
  summaries : ∀ lsid, s.summaries lsid = none
  noDiscard : s.rib.NoDiscard

section
variable {cfg : RangeConfig} {env : CallEnv} {s : AreaRanges}

/-- What the call leaves in any case, from an unused state. -/
structure Suppressed (cfg : RangeConfig) (env : CallEnv) (ranges : Finset IPPrefix) (s s' : AreaRanges) : Prop where
  valid : s'.usedErased = s.usedErased
  keys : s'.ranges.map Prod.fst = s.ranges.map Prod.fst
  rib : s'.rib = (s.rib.refreshIntraRangeSuppression cfg.rib env cfg.areaId ranges).1

theorem keys_foldl_syncRange {isV3 : Bool} {rcs : RangeCounts} (l : List (IPPrefix × AreaRange)) (m : RangeRound) :
    (l.foldl (syncRange isV3 rcs) m).ranges.map Prod.fst = m.ranges.map Prod.fst ++ l.map Prod.fst := by
  induction l generalizing m with
  | nil => simp
  | cons e l ih =>
    have hround : (syncRange isV3 rcs m e).ranges.map Prod.fst = m.ranges.map Prod.fst ++ [e.1] := by
      rw [syncRange]
      dsimp only
      split
      · split_ifs <;> simp
      · split_ifs <;> simp
    rw [List.foldl_cons, ih, hround, List.append_assoc]
    rfl

theorem syncRangeSuppression_border (ranges : Finset IPPrefix) :
    s.syncRangeSuppression cfg.border env ranges false =
      let rib := (s.rib.refreshIntraRangeSuppression cfg.rib env cfg.areaId ranges).1
      { s with rib }.execute cfg.border env
        (s.ranges.foldl (syncRange cfg.isV3 (computeRangeContributors (rib.getIntraAreaRoutes cfg.areaId) s.ranges))
          { monotonicIntraId := s.monotonicIntraId }) := rfl

theorem suppressed_syncRangeSuppression (h : s.Unused) (ranges : Finset IPPrefix) :
    Suppressed cfg env ranges s (s.syncRangeSuppression cfg.border env ranges false) := by
  rw [syncRangeSuppression_border]
  refine ⟨rfl, ?_, ?_⟩
  · exact keys_foldl_syncRange s.ranges _
  · rw [execute]
    dsimp only
    rw [discardActions_foldl fun e he => (h.idle e he).2.2]
    rfl

/-- **Where no range contains a route, the call leaves all unused.** -/
theorem unused_syncRangeSuppression (h : s.Unused) (ranges : Finset IPPrefix)
    (hcount : ∀ e ∈ s.ranges, contributors (s.rib.refreshIntraRangeSuppression cfg.rib env cfg.areaId ranges).1
      cfg.areaId e.1 = 0) :
    (s.syncRangeSuppression cfg.border env ranges false).Unused := by
  rw [syncRangeSuppression_border]
  dsimp only
  rw [foldl_syncRange_idle fun e he => ⟨h.idle e he, count_eq_zero (ne_of_contributors (hcount e he)) s.ranges⟩]
  refine ⟨h.valid, fun e he => ?_, h.summaries, h.noDiscard.refresh cfg.rib env cfg.areaId ranges⟩
  obtain ⟨e', he', rfl⟩ := List.mem_map.1 he
  exact ⟨rfl, (h.idle e' he').2⟩

end

end AreaRanges

/-! ## The invariant -/

namespace RangeRun

/-- Nothing was advertised or discarded so far, the ranges are those that are configured, and none of
    them contains a route. -/
structure Ready (area : UInt32) (s : RangeRun) : Prop where
  unused : s.toAreaRanges.Unused
  configured : ∀ pfx, (∃ e ∈ s.ranges, e.1 = pfx) ↔ ∃ c ∈ s.configured, c.1 = pfx
  uncovered : ∀ e ∈ s.ranges, contributors s.rib area e.1 = 0

variable {cfg : RangeConfig} {s : RangeRun}

theorem not_discards (h : s.rib.NoDiscard) (area : UInt32) (pfx : IPPrefix) : ¬ s.Discards area pfx := by
  rintro ⟨p, hp, hdiscard⟩
  rw [OspfRib.isDiscardPath, h pfx p hp, Bool.and_false] at hdiscard
  cases hdiscard

theorem not_originates (h : ∀ lsid, s.summaries lsid = none) (pfx : IPPrefix) : ¬ s.Originates pfx := by
  rintro ⟨lsid, metric, hsome⟩
  rw [h lsid] at hsome
  cases hsome

theorem Ready.aggregates {area : UInt32} (h : s.Ready area) : s.Aggregates area where
  valid := h.unused.valid
  configured := h.configured
  count e he := (h.unused.idle e he).1.trans (h.uncovered e he).symm
  summary e he := by
    refine iff_of_false (not_originates h.unused.summaries e.1) fun hpos => ?_
    rw [(h.unused.idle e he).1] at hpos
    exact absurd hpos.2 (lt_irrefl 0)
  discard e he := by
    refine iff_of_false (not_discards h.unused.noDiscard area e.1) fun hpos => ?_
    rw [(h.unused.idle e he).1] at hpos
    exact lt_irrefl 0 hpos
  withdrawn pfx _ := ⟨not_originates h.unused.summaries pfx, not_discards h.unused.noDiscard area pfx⟩

/-- What a step that takes no range away leaves in any case: the call of `syncRangeSuppression` in
    an unused state. -/
theorem step_of_keeps {ev : RangeEvent cfg.areaId} (h : s.Ready cfg.areaId) (hkeep : s.Keeps cfg ev) :
    ∃ (t : AreaRanges) (env : CallEnv) (ranges : Finset IPPrefix), t.Unused ∧
      (s.step cfg ev).toAreaRanges = t.syncRangeSuppression cfg.border env ranges false ∧
      ∀ pfx, (∃ e ∈ t.ranges, e.1 = pfx) ↔ ∃ c ∈ (s.step cfg ev).configured, c.1 = pfx := by
  rw [step.eq_def, h.unused.valid, if_neg Bool.false_ne_true]
  cases ev with
  | routes env change =>
    let rib := (s.rib.replaceArea cfg.rib env cfg.areaId s.rangePrefixes change.paths).1
    have hdiscard : rib.NoDiscard :=
      h.unused.noDiscard.replaceArea cfg.rib env cfg.areaId s.rangePrefixes fun e he => (change.intra e he).2
    exact ⟨{ s.toAreaRanges with rib }, env, s.rangePrefixes,
      ⟨h.unused.valid, h.unused.idle, h.unused.summaries, hdiscard⟩, rfl, h.configured⟩
  | configure env cfgRanges =>
    obtain ⟨hidle, hkeys⟩ := AreaRanges.foldl_configureRange h.unused.idle cfgRanges
    have hcfg (pfx : IPPrefix) : (∃ e ∈ cfgRanges.foldl AreaRanges.configureRange s.ranges, e.1 = pfx) ↔
        ∃ c ∈ cfgRanges, c.1 = pfx := by
      rw [hkeys]
      refine or_iff_right_of_imp ?_
      rintro ⟨e, he, rfl⟩
      obtain ⟨c, hc, heq⟩ := List.mem_map.1 (hkeep e he)
      exact ⟨c, hc, heq⟩
    have hall : ∀ e ∈ cfgRanges.foldl AreaRanges.configureRange s.ranges,
        e.1 ∈ (cfgRanges.map Prod.fst).toFinset := by
      intro e he
      obtain ⟨c, hc, heq⟩ := (hcfg e.1).1 ⟨e, he, rfl⟩
      exact List.mem_toFinset.2 (List.mem_map.2 ⟨c, hc, heq⟩)
    refine ⟨{ s.toAreaRanges with
      ranges := cfgRanges.foldl AreaRanges.configureRange s.ranges
      rangePrefixes := (cfgRanges.map Prod.fst).toFinset }, env,
      ((cfgRanges.foldl AreaRanges.configureRange s.ranges).map Prod.fst).toFinset,
      ⟨h.unused.valid, hidle, h.unused.summaries, h.unused.noDiscard⟩, ?_, hcfg⟩
    dsimp only
    rw [AreaRanges.syncRangeConfig, AreaRanges.pruneRanges_of_all hall]

theorem step_of_not_keeps {ev : RangeEvent cfg.areaId} (h : s.Ready cfg.areaId) (hkeep : ¬ s.Keeps cfg ev) :
    (s.step cfg ev).usedErased = true := by
  rw [step.eq_def, h.unused.valid, if_neg Bool.false_ne_true]
  cases ev with
  | routes env change => exact absurd trivial hkeep
  | configure env cfgRanges =>
    have hmissing : ∃ e ∈ cfgRanges.foldl AreaRanges.configureRange s.ranges,
        e.1 ∉ (cfgRanges.map Prod.fst).toFinset := by
      rw [Keeps] at hkeep
      push Not at hkeep
      obtain ⟨e, he, hnot⟩ := hkeep
      obtain ⟨e', he', heq⟩ := ((AreaRanges.foldl_configureRange h.unused.idle cfgRanges).2 e.1).2 (Or.inl ⟨e, he, rfl⟩)
      exact ⟨e', he', fun hmem => hnot (heq ▸ List.mem_toFinset.1 hmem)⟩
    dsimp only
    rw [AreaRanges.syncRangeConfig, AreaRanges.pruneRanges_of_missing hmissing]

theorem exists_key_iff {α : Type*} {l l' : List (IPPrefix × α)} (h : l.map Prod.fst = l'.map Prod.fst) (pfx : IPPrefix) :
    (∃ e ∈ l, e.1 = pfx) ↔ ∃ e ∈ l', e.1 = pfx := by
  simp only [← List.mem_map, h]

theorem Ready.step {ev : RangeEvent cfg.areaId} (h : s.Ready cfg.areaId) (hharmless : s.Harmless cfg ev) :
    (s.step cfg ev).Ready cfg.areaId := by
  obtain ⟨t, env, ranges, ht, hstep, hconf⟩ := step_of_keeps h hharmless.1
  have hsup := @AreaRanges.suppressed_syncRangeSuppression cfg env t ht ranges
  rw [← hstep] at hsup
  refine ⟨?_, fun pfx => (exists_key_iff hsup.keys pfx).trans (hconf pfx), hharmless.2⟩
  rw [hstep]
  refine AreaRanges.unused_syncRangeSuppression ht ranges fun e he => ?_
  obtain ⟨e', he', heq⟩ := (exists_key_iff hsup.keys e.1).2 ⟨e, he, rfl⟩
  rw [← hsup.rib, ← heq]
  exact hharmless.2 e' he'

theorem Ready.not_aggregates {ev : RangeEvent cfg.areaId} (h : s.Ready cfg.areaId) (hbad : ¬ s.Harmless cfg ev) :
    ¬ (s.step cfg ev).Aggregates cfg.areaId := by
  intro hagg
  by_cases hkeep : s.Keeps cfg ev
  · have hcovers : ¬ ∀ e ∈ (s.step cfg ev).ranges, contributors (s.step cfg ev).rib cfg.areaId e.1 = 0 :=
      fun hall => hbad ⟨hkeep, hall⟩
    push Not at hcovers
    obtain ⟨e, he, hne⟩ := hcovers
    obtain ⟨t, env, ranges, ht, hstep, -⟩ := step_of_keeps h hkeep
    have hsup := @AreaRanges.suppressed_syncRangeSuppression cfg env t ht ranges
    rw [← hstep] at hsup
    have hdiscard : (s.step cfg ev).rib.NoDiscard := by
      rw [hsup.rib]
      exact ht.noDiscard.refresh cfg.rib env cfg.areaId ranges
    -- the range counts a route, but its discard route is not there
    refine not_discards hdiscard cfg.areaId e.1 ((hagg.discard e he).2 ?_)
    rw [hagg.count e he]
    exact Nat.pos_of_ne_zero hne
  · have hused := step_of_not_keeps h hkeep
    rw [hagg.valid] at hused
    cases hused

end RangeRun

/-- **When the ranges aggregate throughout**: no configuration takes a range away, and after no step does a
    range contain an intra-area route of the area. -/
theorem aggregates_iff (cfg : RangeConfig) (evs : List (RangeEvent cfg.areaId)) :
    (∀ ps, ps <+: evs → (runFrom (RangeRun.step cfg) {} ps).Aggregates cfg.areaId) ↔
      Along (RangeRun.Harmless cfg) (RangeRun.step cfg) {} evs := by
  have hinit : (({} : RangeRun)).Ready cfg.areaId := by
    refine ⟨⟨rfl, fun e he => absurd he List.not_mem_nil, fun _ => rfl, fun q p hp => ?_⟩, fun pfx => ?_,
      fun e he => absurd he List.not_mem_nil⟩
    · cases hp
    · exact iff_of_false (fun ⟨_, he, _⟩ => List.not_mem_nil he) fun ⟨_, hc, _⟩ => List.not_mem_nil hc
  exact (Along.iff_everywhere (F := fun _ _ => True) (fun s ev h _ hC => RangeRun.Ready.step h hC)
    (fun s h => h.aggregates) (fun s ev h _ hC => h.not_aggregates hC) hinit (Along.of_forall fun _ _ => trivial)).symm

def areaOne : RangeConfig where
  areaId := 1
  isABR := true
  isV3 := false
  discardInternal := true
  discardInternalDistance := 110
  rib := {}

/-- The range 10.0.0.0/8 is configured and taken away again. -/
noncomputable def rangeTakenAway : List (RangeEvent areaOne.areaId) :=
  [.configure SummaryFeed.plainEnv [(⟨0xFFFF0A000000, 8⟩, false, none)], .configure SummaryFeed.plainEnv []]

theorem not_aggregates_takenAway :
    ¬ ∀ (cfg : RangeConfig) (evs : List (RangeEvent cfg.areaId)) (ps : List (RangeEvent cfg.areaId)),
      ps <+: evs → (runFrom (RangeRun.step cfg) {} ps).Aggregates cfg.areaId := by
  intro h
  have hfirst := h areaOne rangeTakenAway (rangeTakenAway.take 1) (List.take_prefix _ _)
  have hsecond := (h areaOne rangeTakenAway rangeTakenAway List.prefix_rfl).valid
  obtain ⟨e, he, -⟩ := (hfirst.configured ⟨0xFFFF0A000000, 8⟩).2 ⟨_, List.mem_singleton.2 rfl, rfl⟩
  have hprune := @AreaRanges.pruneRanges_of_missing _ (([] : List AreaRanges.RangeEntry).map Prod.fst).toFinset
    ⟨e, he, Finset.notMem_empty _⟩
  have hused : (RangeRun.step areaOne (runFrom (RangeRun.step areaOne) {} (rangeTakenAway.take 1))
      (.configure SummaryFeed.plainEnv [])).usedErased = true := by
    rw [RangeRun.step.eq_def, hfirst.valid, if_neg Bool.false_ne_true]
    dsimp only
    rw [AreaRanges.syncRangeConfig]
    dsimp only [List.foldl_nil]
    rw [hprune]
  exact Bool.false_ne_true (hsecond.symm.trans hused)

end VirtualRouter.Ospf
