/-
  The table of the routers that are reached (`ospf/topology/TopologyTable.cpp`).

  * `TopologyTable.mergeCanidates`, `TopologyTable.consumeSpfResult`, `TopologyTable.updateAreaAsbrs`,
    `TopologyTable.updateAreaAsbr`: the operations, with what they return;
  * `Reachability.step`: the same with the latest candidates of each area on the side;
  * `RightAt`: what is recorded of a router is the best of its candidates;
  * `Reachability.reach_right_iff`: the exact condition under which it is that throughout a run.

  The cost of a router never rises and its next hops are those of the last candidate, so that the
  condition is about what the areas offer before and after a step.
-/
import VirtualRouter.Lib.NestedMap
import VirtualRouter.Lib.Run
import VirtualRouter.Ospf.TopologyTypes

namespace VirtualRouter.Ospf

open NestedMap Run

/-! ## The operations -/

/-- `TopologyTable::Type`. -/
inductive ReachType where
  | INTRA
  | INTER
  deriving DecidableEq, Repr

structure ReachEntry where
  type : ReachType
  rid : UInt32
  deriving DecidableEq, Repr

def extractNextHops (node : SptNode) : List OspfNextHop :=
  dedupe ((node.parents.filter fun p => p.firstHopIfid ≠ 0).map fun p => { interfaceId := p.firstHopIfid })

/-- The order in which the nodes are visited: each vertex that has a node, once. -/
structure Traversal (spf : SpfResult) where
  order : List Vertex
  nodup : order.Nodup
  complete : ∀ v, v ∈ order ↔ (spf.nodes v).isSome

/-- The candidate for a node, in the loop of `consumeSpfResult`. -/
def spfCanidate (spf : SpfResult) (v : Vertex) : Option OspfRouter :=
  match v, spf.nodes v with
  | .router rid, some node =>
    if node.confirmed ∧ v ≠ spf.root ∧ extractNextHops node ≠ [] then
      some { rid, cost := node.dist, nextHops := extractNextHops node }
    else none
  | _, _ => none

/-- The candidates that `consumeSpfResult` collects. -/
def spfCanidates (spf : SpfResult) (t : Traversal spf) : List OspfRouter := t.order.filterMap (spfCanidate spf)

/-- `mergeCanidate`, for a router with an entry: the new entry, and whether it changed. -/
def RouterReach.merge (cur : RouterReach) (canidate : OspfRouter) : Bool × RouterReach :=
  if canidate.cost < cur.cost then (true, { cost := canidate.cost, nextHops := canidate.nextHops })
  else
    (cur.nextHops.length ≠ canidate.nextHops.length ||
        sortNextHops cur.nextHops ≠ sortNextHops canidate.nextHops,
      { cur with nextHops := dedupe canidate.nextHops })

structure TopologyTable where
  areaReach : Map UInt32 (Finset ReachEntry) := ∅
  reach : Map UInt32 RouterReach := ∅

namespace TopologyTable

variable (t : TopologyTable) (area : UInt32)

def mergeCanidate (canidate : OspfRouter) : Option Bool × TopologyTable :=
  match t.reach.lookup canidate.rid with
  | none =>
    if canidate.nextHops ≠ [] then
      (some true,
        { t with reach := t.reach.insert canidate.rid { cost := canidate.cost, nextHops := canidate.nextHops } })
    else (none, t)
  | some cur =>
    let (change, next) := cur.merge canidate
    (if change then some false else none, { t with reach := t.reach.insert canidate.rid next })

/-- The state of the loop of `mergeCanidates`. -/
structure MergeState where
  table : TopologyTable
  untouched : Finset UInt32
  change : Bool

def mergeStep (type : ReachType) (m : MergeState) (canidate : OspfRouter) : MergeState :=
  match m.table.mergeCanidate canidate with
  | (none, t) => { m with table := t, untouched := m.untouched.erase canidate.rid }
  | (some added, t) =>
    { table :=
        if added then { t with areaReach := insertInto t.areaReach area { type, rid := canidate.rid } } else t
      untouched := m.untouched.erase canidate.rid
      change := true }

def mergeCanidates (canidates : List OspfRouter) (type : ReachType) : Bool × TopologyTable :=
  let areaList := groupOf t.areaReach area
  let m := canidates.foldl (mergeStep area type)
    { table := t, untouched := (areaList.filter (·.type = type)).image ReachEntry.rid, change := false }
  (m.change || m.untouched ≠ ∅,
    { m.table with
      areaReach := m.table.areaReach.insert area
        ((groupOf m.table.areaReach area).filter fun e => ¬ (e.type = type ∧ e.rid ∈ m.untouched)) })

def consumeSpfResult (spf : SpfResult) (order : Traversal spf) : Bool × TopologyTable :=
  t.mergeCanidates area (spfCanidates spf order) .INTRA

def updateAreaAsbrs (asbrs : List OspfRouter) : Bool × TopologyTable := t.mergeCanidates area asbrs .INTER

def updateAreaAsbr (asbr : OspfRouter) (remove : Bool) : Bool × TopologyTable :=
  if remove then
    ((t.reach.lookup asbr.rid).isSome,
      { areaReach := eraseFrom t.areaReach area { type := .INTER, rid := asbr.rid }
        reach := t.reach.erase asbr.rid })
  else
    match t.mergeCanidate asbr with
    | (none, t) => (false, t)
    | (some added, t) =>
      (true, if added then { t with areaReach := insertInto t.areaReach area { type := .INTER, rid := asbr.rid } }
        else t)

end TopologyTable

/-! ## The entry of one router -/

/-- What `mergeCanidate` does to the entry of the router of the candidate. -/
def mergeEntry (cur : Option RouterReach) (canidate : OspfRouter) : Option RouterReach :=
  match cur with
  | none =>
    if canidate.nextHops ≠ [] then some { cost := canidate.cost, nextHops := canidate.nextHops } else none
  | some r => some (r.merge canidate).2

theorem RouterReach.merge_cost (r : RouterReach) (c : OspfRouter) : (r.merge c).2.cost = min r.cost c.cost := by
  rw [RouterReach.merge]
  split_ifs with h
  · exact (min_eq_right h.le).symm
  · exact (min_eq_left (not_lt.1 h)).symm

theorem RouterReach.mem_merge (r : RouterReach) (c : OspfRouter) (h : OspfNextHop) :
    h ∈ (r.merge c).2.nextHops ↔ h ∈ c.nextHops := by
  rw [RouterReach.merge]
  split_ifs
  · rfl
  · exact mem_dedupe

/-- The entry has the least of the costs, and the next hops. -/
structure Merged (costs : Set ℕ) (hops : Set OspfNextHop) (r : RouterReach) : Prop where
  least : IsLeast costs r.cost
  hops : {h | h ∈ r.nextHops} = hops

def lastHops (hops : Set OspfNextHop) (l : List OspfRouter) : Set OspfNextHop :=
  match l.getLast? with
  | none => hops
  | some c => {h | h ∈ c.nextHops}

theorem merged_foldl_some (r : RouterReach) (l : List OspfRouter) :
    ∃ r', l.foldl mergeEntry (some r) = some r' ∧
      Merged (insert r.cost {n | ∃ c ∈ l, c.cost = n}) (lastHops {h | h ∈ r.nextHops} l) r' := by
  induction l using List.reverseRecOn with
  | nil => exact ⟨r, rfl, ⟨by simp, rfl⟩⟩
  | append_singleton l c ih =>
    obtain ⟨r', hfold, hleast, -⟩ := ih
    refine ⟨(r'.merge c).2, ?_, ?_, ?_⟩
    · rw [List.foldl_append, hfold]
      rfl
    · rw [r'.merge_cost]
      have hset : insert r.cost {n | ∃ c' ∈ l ++ [c], c'.cost = n} =
          insert c.cost (insert r.cost {n | ∃ c' ∈ l, c'.cost = n}) := by
        ext n
        simp only [List.mem_append, List.mem_singleton, Set.mem_insert_iff, Set.mem_ofPred_eq, or_and_right,
          exists_or, exists_eq_left, eq_comm (a := n)]
        rw [← or_assoc, or_comm]
      rw [hset, min_comm]
      exact hleast.insert c.cost
    · rw [lastHops, List.getLast?_concat]
      ext h
      exact r'.mem_merge c h

theorem foldl_mergeEntry_none (l : List OspfRouter) :
    l.foldl mergeEntry none = (l.dropWhile fun c => c.nextHops = []).foldl mergeEntry none := by
  induction l with
  | nil => rfl
  | cons c l ih =>
    rw [List.dropWhile_cons]
    split_ifs with h
    · rw [List.foldl_cons, mergeEntry, if_neg (not_not.2 (of_decide_eq_true h))]
      exact ih
    · rfl

theorem merged_foldl_none {l : List OspfRouter} (h : (l.dropWhile fun c => c.nextHops = []) ≠ []) :
    ∃ r, l.foldl mergeEntry none = some r ∧
      Merged {n | ∃ c ∈ l.dropWhile fun c => c.nextHops = [], c.cost = n} (lastHops ∅ l) r := by
  obtain ⟨c, l', hl⟩ := List.exists_cons_of_ne_nil h
  have hc : c.nextHops ≠ [] := by
    have := List.head_dropWhile_not (fun c : OspfRouter => decide (c.nextHops = [])) h
    simpa [hl] using this
  obtain ⟨r, hfold, hleast, hhops⟩ := merged_foldl_some { cost := c.cost, nextHops := c.nextHops } l'
  refine ⟨r, ?_, ?_, ?_⟩
  · rw [foldl_mergeEntry_none, hl, List.foldl_cons, mergeEntry, if_pos hc]
    exact hfold
  · rw [hl]
    have hset : {n | ∃ c' ∈ c :: l', c'.cost = n} = insert c.cost {n | ∃ c' ∈ l', c'.cost = n} := by
      ext n
      simp [eq_comm]
    rw [hset]
    exact hleast
  · -- the last candidate is among those that are not passed over
    have hlast : l.getLast? = (c :: l').getLast? := by
      obtain ⟨l₀, hl₀⟩ := List.dropWhile_suffix (l := l) fun c => decide (c.nextHops = [])
      rw [hl] at hl₀
      rw [← hl₀, List.getLast?_append_of_ne_nil _ (List.cons_ne_nil c l')]
    rw [hhops, lastHops, lastHops, hlast, List.getLast?_cons]
    cases l'.getLast? <;> rfl

/-! ## The best of the candidates -/

def leastHops (offers : Set OspfRouter) : Set OspfNextHop :=
  {h | ∃ o ∈ offers, (∀ o' ∈ offers, o.cost ≤ o'.cost) ∧ h ∈ o.nextHops}

/-- **What is recorded of a router** that has these candidates: their least cost and exactly the next
    hops that attain it, and nothing if there is none. -/
def RightAt (offers : Set OspfRouter) : Option RouterReach → Prop
  | none => offers = ∅
  | some r => Merged {n | ∃ o ∈ offers, o.cost = n} (leastHops offers) r

/-- The candidates `before` are replaced by those `after`, of which `l` are merged: the least cost does
    not rise; the last of `l` has all the next hops of the least cost, or nothing is merged and these are
    the same as before; and a new router does not have a cheaper candidate without next hops in front. -/
def StaysBest (before after : Set OspfRouter) (l : List OspfRouter) : Prop :=
  (∀ o ∈ before, ∃ o' ∈ after, o'.cost ≤ o.cost) ∧
  leastHops after = lastHops (leastHops before) l ∧
  (before = ∅ → ∀ c ∈ l, ∃ c' ∈ l.dropWhile fun c => c.nextHops = [], c'.cost ≤ c.cost)

theorem leastHops_empty : leastHops ∅ = ∅ := by
  ext h
  simp [leastHops]

section
variable {before after : Set OspfRouter} {l : List OspfRouter}

theorem rightAt_foldl_some {r : RouterReach} (h : RightAt before (some r)) (hl : ∀ c ∈ l, c ∈ after)
    (hafter : ∀ o ∈ after, o ∈ before ∨ o ∈ l) :
    RightAt after (l.foldl mergeEntry (some r)) ↔ StaysBest before after l := by
  obtain ⟨⟨⟨o₀, ho₀, hcost₀⟩, hleast⟩, hhops⟩ := h
  obtain ⟨r', hfold, ⟨hmem', hleast'⟩, hhops'⟩ := merged_foldl_some r l
  rw [hhops] at hhops'
  have hle : r'.cost ≤ r.cost := hleast' (Set.mem_insert _ _)
  rw [hfold]
  constructor
  · rintro ⟨⟨⟨o', ho', hcost'⟩, -⟩, hafterHops⟩
    refine ⟨fun o ho => ⟨o', ho', ?_⟩, hafterHops.symm.trans hhops', fun hempty => ?_⟩
    · calc o'.cost = r'.cost := hcost'
        _ ≤ r.cost := hle
        _ ≤ o.cost := hleast ⟨o, ho, rfl⟩
    · rw [hempty] at ho₀
      exact absurd ho₀ (Set.notMem_empty o₀)
  · rintro ⟨hrise, hafterHops, -⟩
    -- no candidate is below the cost of the entry
    have hlower : ∀ o ∈ after, r'.cost ≤ o.cost := by
      intro o ho
      rcases hafter o ho with hb | hmem
      · exact hle.trans (hleast ⟨o, hb, rfl⟩)
      · exact hleast' (Set.mem_insert_of_mem _ ⟨o, hmem, rfl⟩)
    refine ⟨⟨?_, ?_⟩, hhops'.trans hafterHops.symm⟩
    · rcases hmem' with heq | ⟨c, hc, hcost⟩
      · obtain ⟨o', ho', hcost'⟩ := hrise o₀ ho₀
        refine ⟨o', ho', le_antisymm ?_ (hlower o' ho')⟩
        exact hcost'.trans_eq (hcost₀.trans heq.symm)
      · exact ⟨c, hl c hc, hcost⟩
    · rintro n ⟨o, ho, rfl⟩
      exact hlower o ho

theorem rightAt_foldl_none (h : RightAt before none) (hl : ∀ c ∈ l, c ∈ after)
    (hafter : ∀ o ∈ after, o ∈ before ∨ o ∈ l) :
    RightAt after (l.foldl mergeEntry none) ↔ StaysBest before after l := by
  obtain rfl : before = ∅ := h
  have hmem : ∀ o, o ∈ after ↔ o ∈ l := fun o => ⟨fun ho => (hafter o ho).resolve_left (Set.notMem_empty o), hl o⟩
  rw [StaysBest, leastHops_empty]
  by_cases hdrop : (l.dropWhile fun c => c.nextHops = []) = []
  · -- nothing has next hops, so nothing is recorded
    rw [foldl_mergeEntry_none, hdrop]
    constructor
    · intro hempty
      obtain rfl : after = ∅ := hempty
      obtain rfl : l = [] := List.eq_nil_iff_forall_not_mem.2 fun o ho => (hmem o).2 ho
      exact ⟨fun o ho => absurd ho (Set.notMem_empty o), leastHops_empty, fun _ c hc => absurd hc List.not_mem_nil⟩
    · rintro ⟨-, -, hskip⟩
      refine Set.eq_empty_of_forall_notMem fun o ho => ?_
      obtain ⟨c, hc, -⟩ := hskip rfl o ((hmem o).1 ho)
      exact absurd hc List.not_mem_nil
  · obtain ⟨r, hfold, ⟨⟨c, hc, hcost⟩, hleast⟩, hhops⟩ := merged_foldl_none hdrop
    have hsub : ∀ c' ∈ l.dropWhile fun c => c.nextHops = [], c' ∈ after := fun c' hc' =>
      (hmem c').2 ((List.dropWhile_suffix _).subset hc')
    rw [hfold]
    constructor
    · rintro ⟨⟨-, hlower⟩, hafterHops⟩
      refine ⟨fun o ho => absurd ho (Set.notMem_empty o), hafterHops.symm.trans hhops, fun _ c' hc' => ?_⟩
      exact ⟨c, hc, hcost.trans_le (hlower ⟨c', (hmem c').2 hc', rfl⟩)⟩
    · rintro ⟨-, hafterHops, hskip⟩
      refine ⟨⟨⟨c, hsub c hc, hcost⟩, ?_⟩, hhops.trans hafterHops.symm⟩
      rintro n ⟨o, ho, rfl⟩
      obtain ⟨c', hc', hle⟩ := hskip rfl o ((hmem o).1 ho)
      exact (hleast ⟨c', hc', rfl⟩).trans hle

/-- **One router**: after the merge its entry is right iff the candidates stay best. -/
theorem rightAt_foldl_iff {cur : Option RouterReach} (h : RightAt before cur) (hl : ∀ c ∈ l, c ∈ after)
    (hafter : ∀ o ∈ after, o ∈ before ∨ o ∈ l) :
    RightAt after (l.foldl mergeEntry cur) ↔ StaysBest before after l := by
  cases cur with
  | none => exact rightAt_foldl_none h hl hafter
  | some r => exact rightAt_foldl_some h hl hafter

end

/-! ## The whole table -/

namespace TopologyTable

theorem lookup_mergeCanidate (t : TopologyTable) (c : OspfRouter) (rid : UInt32) :
    (t.mergeCanidate c).2.reach.lookup rid =
      if c.rid = rid then mergeEntry (t.reach.lookup rid) c else t.reach.lookup rid := by
  by_cases hrid : c.rid = rid
  · subst hrid
    rw [mergeCanidate, if_pos rfl]
    cases hcur : t.reach.lookup c.rid with
    | none =>
      dsimp only
      rw [mergeEntry]
      split_ifs
      · exact AList.lookup_insert _
      · exact hcur
    | some cur => exact AList.lookup_insert _
  · rw [mergeCanidate, if_neg hrid]
    cases t.reach.lookup c.rid with
    | none =>
      dsimp only
      split_ifs
      · exact AList.lookup_insert_ne (Ne.symm hrid)
      · rfl
    | some cur => exact AList.lookup_insert_ne (Ne.symm hrid)

theorem mergeStep_reach (area : UInt32) (type : ReachType) (m : MergeState) (c : OspfRouter) :
    (mergeStep area type m c).table.reach = (m.table.mergeCanidate c).2.reach := by
  rw [mergeStep]
  split
  · rename_i hmerge
    rw [hmerge]
  · rename_i hmerge
    rw [hmerge]
    dsimp only
    split_ifs <;> rfl

theorem lookup_foldl_mergeStep (area : UInt32) (type : ReachType) (rid : UInt32) (l : List OspfRouter) :
    ∀ m : MergeState, (l.foldl (mergeStep area type) m).table.reach.lookup rid =
      (l.filter (·.rid = rid)).foldl mergeEntry (m.table.reach.lookup rid) := by
  induction l with
  | nil => exact fun m => rfl
  | cons c l ih =>
    intro m
    rw [List.foldl_cons, ih, mergeStep_reach, lookup_mergeCanidate, List.filter_cons]
    by_cases hrid : c.rid = rid
    · rw [if_pos hrid, if_pos (decide_eq_true hrid), List.foldl_cons]
    · rw [if_neg hrid, if_neg (by simpa using hrid)]

theorem lookup_mergeCanidates (t : TopologyTable) (area : UInt32) (l : List OspfRouter) (type : ReachType)
    (rid : UInt32) : (t.mergeCanidates area l type).2.reach.lookup rid =
      (l.filter (·.rid = rid)).foldl mergeEntry (t.reach.lookup rid) :=
  lookup_foldl_mergeStep area type rid l _

theorem lookup_updateAreaAsbr (t : TopologyTable) (area : UInt32) (asbr : OspfRouter) (rid : UInt32) :
    (t.updateAreaAsbr area asbr false).2.reach.lookup rid =
      ([asbr].filter (·.rid = rid)).foldl mergeEntry (t.reach.lookup rid) := by
  have hreach : (t.updateAreaAsbr area asbr false).2.reach = (t.mergeCanidate asbr).2.reach := by
    rw [updateAreaAsbr, if_neg Bool.false_ne_true]
    split
    · rename_i hmerge
      rw [hmerge]
    · rename_i hmerge
      rw [hmerge]
      dsimp only
      split_ifs <;> rfl
  rw [hreach, lookup_mergeCanidate, List.filter_cons]
  by_cases hrid : asbr.rid = rid
  · rw [if_pos hrid, if_pos (decide_eq_true hrid)]
    rfl
  · rw [if_neg hrid, if_neg (by simpa using hrid)]
    rfl

end TopologyTable

/-! ## Runs -/

/-- The table, with the latest candidates of each area. -/
structure Reachability where
  table : TopologyTable := {}
  latest : UInt32 → ReachType → List OspfRouter := fun _ _ => []

namespace Reachability

/-- An operation of the table. -/
inductive Event where
  | consumeSpfResult (area : UInt32) (spf : SpfResult) (order : Traversal spf)
  | updateAreaAsbrs (area : UInt32) (asbrs : List OspfRouter)
  | updateAreaAsbr (area : UInt32) (asbr : OspfRouter) (remove : Bool)

def give (latest : UInt32 → ReachType → List OspfRouter) (area : UInt32) (type : ReachType)
    (l : List OspfRouter) : UInt32 → ReachType → List OspfRouter :=
  fun area' type' => if area' = area ∧ type' = type then l else latest area' type'

def latestAfter (latest : UInt32 → ReachType → List OspfRouter) : Event → UInt32 → ReachType → List OspfRouter
  | .consumeSpfResult area spf order => give latest area .INTRA (spfCanidates spf order)
  | .updateAreaAsbrs area asbrs => give latest area .INTER asbrs
  | .updateAreaAsbr area asbr remove =>
    give latest area .INTER
      ((latest area .INTER).filter (·.rid ≠ asbr.rid) ++ if remove then [] else [asbr])

def step (s : Reachability) (e : Event) : Reachability where
  table := match e with
    | .consumeSpfResult area spf order => (s.table.consumeSpfResult area spf order).2
    | .updateAreaAsbrs area asbrs => (s.table.updateAreaAsbrs area asbrs).2
    | .updateAreaAsbr area asbr remove => (s.table.updateAreaAsbr area asbr remove).2
  latest := latestAfter s.latest e

def offers (latest : UInt32 → ReachType → List OspfRouter) (rid : UInt32) : Set OspfRouter :=
  {o | o.rid = rid ∧ ∃ area type, o ∈ latest area type}

def Right (s : Reachability) : Prop := ∀ rid, RightAt (offers s.latest rid) (s.table.reach.lookup rid)

def Event.canidates : Event → List OspfRouter
  | .consumeSpfResult _ spf order => spfCanidates spf order
  | .updateAreaAsbrs _ asbrs => asbrs
  | .updateAreaAsbr _ asbr remove => if remove then [] else [asbr]

/-- A removed router has no candidates left; and otherwise the candidates of each router stay best. -/
def Allowed (s : Reachability) : Event → Prop
  | .updateAreaAsbr area asbr true => offers (latestAfter s.latest (.updateAreaAsbr area asbr true)) asbr.rid = ∅
  | e => ∀ rid, StaysBest (offers s.latest rid) (offers (latestAfter s.latest e) rid)
    (e.canidates.filter (·.rid = rid))

section
variable {latest : UInt32 → ReachType → List OspfRouter} {area : UInt32} {type : ReachType}
  {l : List OspfRouter} {rid : UInt32} {o : OspfRouter}

theorem mem_offers_give : o ∈ offers (give latest area type l) rid ↔
    o.rid = rid ∧ (o ∈ l ∨ ∃ area' type', ¬ (area' = area ∧ type' = type) ∧ o ∈ latest area' type') := by
  refine and_congr_right fun _ => ⟨?_, ?_⟩
  · rintro ⟨area', type', ho⟩
    rw [give] at ho
    split_ifs at ho with h
    · exact Or.inl ho
    · exact Or.inr ⟨area', type', h, ho⟩
  · rintro (ho | ⟨area', type', h, ho⟩)
    · exact ⟨area, type, by rw [give, if_pos ⟨rfl, rfl⟩]; exact ho⟩
    · exact ⟨area', type', by rw [give, if_neg h]; exact ho⟩

theorem mem_offers_of_given (ho : o ∈ l.filter (·.rid = rid)) : o ∈ offers (give latest area type l) rid := by
  obtain ⟨hmem, hrid⟩ := List.mem_filter.1 ho
  exact mem_offers_give.2 ⟨of_decide_eq_true hrid, Or.inl hmem⟩

theorem offers_give_cases (ho : o ∈ offers (give latest area type l) rid) :
    o ∈ offers latest rid ∨ o ∈ l.filter (·.rid = rid) := by
  obtain ⟨hrid, hmem | ⟨area', type', -, hmem⟩⟩ := mem_offers_give.1 ho
  · exact Or.inr (List.mem_filter.2 ⟨hmem, decide_eq_true hrid⟩)
  · exact Or.inl ⟨hrid, area', type', hmem⟩

end

variable {s : Reachability}

theorem offers_remove_ne {area : UInt32} {asbr : OspfRouter} {rid : UInt32} (h : asbr.rid ≠ rid) :
    offers (latestAfter s.latest (.updateAreaAsbr area asbr true)) rid = offers s.latest rid := by
  ext o
  refine (mem_offers_give (l := _ ++ [])).trans (and_congr_right fun hrid => ⟨?_, ?_⟩)
  · rintro (hmem | ⟨area', type', -, hmem⟩)
    · rw [List.append_nil] at hmem
      exact ⟨area, .INTER, (List.mem_filter.1 hmem).1⟩
    · exact ⟨area', type', hmem⟩
  · rintro ⟨area', type', hmem⟩
    by_cases hat : area' = area ∧ type' = .INTER
    · obtain ⟨rfl, rfl⟩ := hat
      refine Or.inl (List.mem_append_left _ (List.mem_filter.2 ⟨hmem, ?_⟩))
      rw [hrid]
      exact decide_eq_true h.symm
    · exact Or.inr ⟨area', type', hat, hmem⟩

/-- **One step** keeps the records right iff it is allowed. -/
theorem right_step_iff (h : s.Right) (e : Event) : (s.step e).Right ↔ Allowed s e := by
  cases e with
  | consumeSpfResult area spf order =>
    refine forall_congr' fun rid => ?_
    show RightAt _ ((s.table.mergeCanidates area (spfCanidates spf order) .INTRA).2.reach.lookup rid) ↔ _
    rw [TopologyTable.lookup_mergeCanidates]
    exact rightAt_foldl_iff (h rid) (fun o => mem_offers_of_given) fun o => offers_give_cases
  | updateAreaAsbrs area asbrs =>
    refine forall_congr' fun rid => ?_
    show RightAt _ ((s.table.mergeCanidates area asbrs .INTER).2.reach.lookup rid) ↔ _
    rw [TopologyTable.lookup_mergeCanidates]
    exact rightAt_foldl_iff (h rid) (fun o => mem_offers_of_given) fun o => offers_give_cases
  | updateAreaAsbr area asbr remove =>
    cases remove with
    | false =>
      refine forall_congr' fun rid => ?_
      show RightAt _ ((s.table.updateAreaAsbr area asbr false).2.reach.lookup rid) ↔ _
      rw [TopologyTable.lookup_updateAreaAsbr]
      refine rightAt_foldl_iff (h rid) (fun o ho => ?_) fun o ho => ?_
      · obtain ⟨hmem, hrid⟩ := List.mem_filter.1 ho
        exact mem_offers_give.2 ⟨of_decide_eq_true hrid, Or.inl (List.mem_append_right _ hmem)⟩
      · rcases offers_give_cases ho with hb | hmem
        · exact Or.inl hb
        · obtain ⟨hmem, hrid⟩ := List.mem_filter.1 hmem
          rcases List.mem_append.1 hmem with hold | hnew
          · exact Or.inl ⟨of_decide_eq_true hrid, area, .INTER, (List.mem_filter.1 hold).1⟩
          · exact Or.inr (List.mem_filter.2 ⟨hnew, hrid⟩)
    | true =>
      constructor
      · intro hright
        have hentry := hright asbr.rid
        have hnone : (s.step (.updateAreaAsbr area asbr true)).table.reach.lookup asbr.rid = none :=
          AList.lookup_erase _ _
        rw [hnone] at hentry
        exact hentry
      · intro hempty rid
        show RightAt _ ((s.table.reach.erase asbr.rid).lookup rid)
        rw [lookup_erase_eq]
        split_ifs with hrid
        · subst hrid
          exact hempty
        · have hoffers : offers (latestAfter s.latest (.updateAreaAsbr area asbr true)) rid = offers s.latest rid :=
            offers_remove_ne (Ne.symm hrid)
          show RightAt (offers (latestAfter s.latest (.updateAreaAsbr area asbr true)) rid) _
          rw [hoffers]
          exact h rid

theorem right_start : ({} : Reachability).Right := by
  intro rid
  refine Set.eq_empty_of_forall_notMem ?_
  rintro o ⟨-, area, type, ho⟩
  exact absurd ho List.not_mem_nil

/-- **The table in a run** is right after every operation iff every operation is allowed. -/
theorem reach_right_iff (es : List Event) :
    Along Allowed step {} es ↔ ∀ ps, ps <+: es → (runFrom step {} ps).Right :=
  along_iff_everywhere (I := fun _ => True) (Q := Right) (E := fun _ => True) (fun _ _ _ => trivial)
    (fun _ e _ _ h => right_step_iff h e) (fun _ _ => trivial) trivial right_start

/-! ## The defects -/

def far (cost : ℕ) : OspfRouter where
  rid := 7
  cost := cost
  nextHops := [{ interfaceId := 1 }]

theorem mem_of_mem_replaced {cost : ℕ} {l : List OspfRouter} {o : OspfRouter} {area : UInt32} {type : ReachType}
    (ho : o ∈ (runFrom step {} [.updateAreaAsbrs 0 [far cost], .updateAreaAsbrs 0 l]).latest area type) : o ∈ l := by
  change o ∈ give (give _ 0 .INTER [far cost]) 0 .INTER l area type at ho
  rw [give] at ho
  split_ifs at ho with hat
  · exact ho
  · rw [give, if_neg hat] at ho
    exact absurd ho List.not_mem_nil

/-- The cost of a router does not rise, a router that no area offers stays, and a removal in one area
    takes away what another one offers. -/
theorem not_reach_right :
    ¬ (runFrom step {} [.updateAreaAsbrs 0 [far 10], .updateAreaAsbrs 0 [far 20]]).Right ∧
    ¬ (runFrom step {} [.updateAreaAsbrs 0 [far 10], .updateAreaAsbrs 0 []]).Right ∧
    ¬ (runFrom step {} [.updateAreaAsbrs 0 [far 10], .updateAreaAsbrs 1 [far 10],
      .updateAreaAsbr 1 (far 10) true]).Right := by
  refine ⟨fun h => ?_, fun h => ?_, fun h => ?_⟩
  · have hentry := h 7
    have hlook : (runFrom step {} [.updateAreaAsbrs 0 [far 10], .updateAreaAsbrs 0 [far 20]]).table.reach.lookup 7 =
        some (RouterReach.merge { cost := 10, nextHops := (far 10).nextHops } (far 20)).2 :=
      (TopologyTable.lookup_mergeCanidates _ 0 [far 20] .INTER 7).trans rfl
    rw [hlook] at hentry
    obtain ⟨⟨⟨o, ⟨-, area, type, ho⟩, hcost⟩, -⟩, -⟩ := hentry
    rw [RouterReach.merge_cost] at hcost
    obtain rfl := List.mem_singleton.1 (mem_of_mem_replaced ho)
    exact absurd hcost (by decide)
  · have hentry := h 7
    have hlook : (runFrom step {} [.updateAreaAsbrs 0 [far 10], .updateAreaAsbrs 0 []]).table.reach.lookup 7 =
        some { cost := 10, nextHops := (far 10).nextHops } :=
      (TopologyTable.lookup_mergeCanidates _ 0 [] .INTER 7).trans rfl
    rw [hlook] at hentry
    obtain ⟨⟨⟨o, ⟨-, area, type, ho⟩, -⟩, -⟩, -⟩ := hentry
    exact absurd (mem_of_mem_replaced ho) List.not_mem_nil
  · have hentry := h 7
    have hlook : (runFrom step {} [.updateAreaAsbrs 0 [far 10], .updateAreaAsbrs 1 [far 10],
        .updateAreaAsbr 1 (far 10) true]).table.reach.lookup 7 = none := AList.lookup_erase _ _
    rw [hlook] at hentry
    refine Set.notMem_empty (far 10) (hentry ▸ ?_)
    exact ⟨rfl, 0, .INTER, List.mem_singleton_self _⟩

end Reachability

end VirtualRouter.Ospf
