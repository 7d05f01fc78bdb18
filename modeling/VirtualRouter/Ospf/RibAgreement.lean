/-
  The OSPF routing table against what was given to it, and against the table of the VRF.

  * `RibHistory.step`: the operations, with the latest paths of each area, the latest external paths and
    the live discard routes on the side;
  * `RibHistory.Agrees`: the candidates are these, the selected path is a best one, and the table of the
    VRF has its route and nothing else;
  * `RibHistory.Allowed`: `replaceRoute` finds no path of the area and no external path, and each route
    that is put into the table of the VRF finds the id of the process in the memory of its entry;
  * `RibHistory.agrees_iff`: the tables agree throughout a run iff all operations are allowed.
-/
import VirtualRouter.Lib.Run
import VirtualRouter.Ospf.SummaryFeed
import VirtualRouter.Ospf.VrfSync

namespace VirtualRouter.Ospf

open NestedMap Run OspfRib

abbrev WidePath :=
  {p : OspfPath // p.area = none ∧ p.discard = false ∧ (p.type = .EXTERNAL ∨ p.type = .NSSA)}

/-- The table, with what was given to it. -/
structure RibHistory where
  table : OspfRib := {}
  areas : UInt32 → List (IPPrefix × OspfPath) := fun _ => []
  externals : List (IPPrefix × OspfPath) := []
  discards : Map OspfDiscardKey (ℕ × ℕ) := ∅

namespace RibHistory

/-! ## Operations -/

/-- An operation of the table. -/
inductive Event where
  | replaceArea (env : CallEnv) (areaId : UInt32) (ranges : Finset IPPrefix) (paths : List (IPPrefix × AreaPath areaId))
  | replaceRoute (env : CallEnv) (areaId : UInt32) (pfx : IPPrefix) (path : Option (AreaPath areaId))
  | replaceExternals (env : CallEnv) (paths : List (IPPrefix × WidePath))
  | replaceExternal (env : CallEnv) (pfx : IPPrefix) (path : Option WidePath)
  | installDiscardRoute (env : CallEnv) (key : OspfDiscardKey) (cost ad : ℕ)
  | withdrawDiscardRoute (env : CallEnv) (key : OspfDiscardKey)
  | refreshIntraRangeSuppression (env : CallEnv) (areaId : UInt32) (ranges : Finset IPPrefix)

/-- The paths without their proofs. -/
def plain {P : OspfPath → Prop} (paths : List (IPPrefix × {p : OspfPath // P p})) : List (IPPrefix × OspfPath) :=
  paths.map fun e => (e.1, e.2.1)

def setPaths (paths : List (IPPrefix × OspfPath)) (pfx : IPPrefix) (path : Option OspfPath) :
    List (IPPrefix × OspfPath) :=
  paths.filter (·.1 ≠ pfx) ++ path.toList.map fun p => (pfx, p)

def Event.env : Event → CallEnv
  | .replaceArea env .. | .replaceRoute env .. | .replaceExternals env .. | .replaceExternal env ..
  | .installDiscardRoute env .. | .withdrawDiscardRoute env .. | .refreshIntraRangeSuppression env .. => env

/-- The table with the edits of an operation, before anything is selected. -/
def Event.edit (t : OspfRib) : Event → OspfRib
  | .replaceArea _ areaId ranges paths => t.replaceAreaEdit areaId ranges (plain paths)
  | .replaceRoute _ areaId pfx path => t.replaceRouteEdit areaId pfx (path.map Subtype.val)
  | .replaceExternals _ paths => t.replaceExternalsEdit (plain paths)
  | .replaceExternal _ pfx path => t.replaceExternalEdit pfx (path.map Subtype.val)
  | .installDiscardRoute _ key cost ad => t.installDiscardEdit key cost ad
  | .withdrawDiscardRoute _ key => t.withdrawDiscardEdit key
  | .refreshIntraRangeSuppression _ areaId ranges => t.refreshEdit areaId ranges

/-- The table after an operation. -/
def Event.call (cfg : RibConfig) (t : OspfRib) : Event → OspfRib
  | .replaceArea env areaId ranges paths => (t.replaceArea cfg env areaId ranges (plain paths)).1
  | .replaceRoute env areaId pfx path => (t.replaceRoute cfg env areaId pfx (path.map Subtype.val)).1
  | .replaceExternals env paths => t.replaceExternals cfg env (plain paths)
  | .replaceExternal env pfx path => t.replaceExternal cfg env pfx (path.map Subtype.val)
  | .installDiscardRoute env key cost ad => t.installDiscardRoute cfg env key cost ad
  | .withdrawDiscardRoute env key => t.withdrawDiscardRoute cfg env key
  | .refreshIntraRangeSuppression env areaId ranges => (t.refreshIntraRangeSuppression cfg env areaId ranges).1

/-- The latest paths of each area.  A whole area is stamped with its ranges when it is given, and again when
    they change. -/
def areasAfter (areas : UInt32 → List (IPPrefix × OspfPath)) : Event → UInt32 → List (IPPrefix × OspfPath)
  | .replaceArea _ areaId ranges paths => Function.update areas areaId ((plain paths).map (stampPath areaId ranges))
  | .replaceRoute _ areaId pfx path =>
    Function.update areas areaId (setPaths (areas areaId) pfx (path.map Subtype.val))
  | .refreshIntraRangeSuppression _ areaId ranges =>
    Function.update areas areaId ((areas areaId).map fun e => (e.1, restampPath areaId ranges e.1 e.2))
  | _ => areas

def externalsAfter (externals : List (IPPrefix × OspfPath)) : Event → List (IPPrefix × OspfPath)
  | .replaceExternals _ paths => plain paths
  | .replaceExternal _ pfx path => setPaths externals pfx (path.map Subtype.val)
  | _ => externals

def discardsAfter (discards : Map OspfDiscardKey (ℕ × ℕ)) : Event → Map OspfDiscardKey (ℕ × ℕ)
  | .installDiscardRoute _ key cost ad => discards.insert key (cost, ad)
  | .withdrawDiscardRoute _ key => discards.erase key
  | _ => discards

def step (cfg : RibConfig) (s : RibHistory) (e : Event) : RibHistory where
  table := e.call cfg s.table
  areas := areasAfter s.areas e
  externals := externalsAfter s.externals e
  discards := discardsAfter s.discards e

/-! ## What is to hold -/

def isDiscardOf (areaId : Option UInt32) (p : OspfPath) : Bool := p.discard && p.area = areaId

/-- The candidates of a table are what was given. -/
structure Kept (t : OspfRib) (areas : UInt32 → List (IPPrefix × OspfPath)) (externals : List (IPPrefix × OspfPath))
    (discards : Map OspfDiscardKey (ℕ × ℕ)) : Prop where
  areas : ∀ q areaId, (t.canidatesAt q).filter (isAreaPath areaId) = pathsFor (areas areaId) q
  externals : ∀ q, (t.canidatesAt q).filter isWidePath = pathsFor externals q
  discards : ∀ q areaId, (t.canidatesAt q).filter (isDiscardOf areaId) =
    ((discards.lookup ⟨q, areaId⟩).map fun d => discardPath ⟨q, areaId⟩ d.1 d.2).toList

/-- **The tables agree**: for every prefix the candidates are the latest paths of each area, the latest
    external paths and the live discard routes; a route is selected iff there is a candidate, and it is
    that of a best one; and the table of the VRF has the entry of this route, under its source and the id
    of the process, and no other. -/
structure Agrees (cfg : RibConfig) (s : RibHistory) : Prop where
  kept : Kept s.table s.areas s.externals s.discards
  none_iff : ∀ q, s.table.lookup q = none ↔ s.table.canidatesAt q = []
  selected : ∀ q, ∀ r ∈ s.table.lookup q, IsRoute q (s.table.canidatesAt q) r
  entries : ∀ q, s.table.entriesAt q = entryOf cfg (s.table.lookup q)

/-- A single route is given by an area that has none for the prefix, and there is no external one. -/
def Fresh (s : RibHistory) : Event → Prop
  | .replaceRoute _ areaId pfx _ => pathsFor (s.areas areaId) pfx = [] ∧ pathsFor s.externals pfx = []
  | _ => True

/-- A single route is given for the first time, and each route that is put into the table of the VRF finds
    the id of the process. -/
structure Allowed (cfg : RibConfig) (s : RibHistory) (e : Event) : Prop where
  fresh : s.Fresh e
  processId : ∀ q, Installs (s.table.routeFor q) ((e.edit s.table).routeFor q) → e.env.processId q = cfg.procId

/-! ## Lists of paths -/

theorem pathsFor_append (l l' : List (IPPrefix × OspfPath)) (q : IPPrefix) :
    pathsFor (l ++ l') q = pathsFor l q ++ pathsFor l' q := by
  rw [pathsFor, List.filter_append, List.map_append]
  rfl

theorem pathsFor_setPaths (paths : List (IPPrefix × OspfPath)) (pfx q : IPPrefix) (path : Option OspfPath) :
    pathsFor (setPaths paths pfx path) q = if q = pfx then path.toList else pathsFor paths q := by
  rw [setPaths, pathsFor_append, pathsFor, pathsFor, List.filter_filter]
  split_ifs with h
  · subst h
    have hold : paths.filter (fun e => decide (e.1 = q) && decide (e.1 ≠ q)) = [] :=
      List.filter_eq_nil_iff.2 fun e _ he => by simp at he
    rw [hold]
    cases path <;> simp
  · have hold : paths.filter (fun e => decide (e.1 = q) && decide (e.1 ≠ pfx)) = paths.filter fun e => decide (e.1 = q) := by
      refine List.filter_congr fun e _ => ?_
      by_cases he : e.1 = q
      · rw [he, decide_eq_true rfl, decide_eq_true h, Bool.true_and]
      · rw [decide_eq_false he, Bool.false_and]
    rw [hold]
    cases path with
    | none => exact List.append_nil _
    | some path =>
      have hnew : ([((pfx, path) : IPPrefix × OspfPath)].filter fun e => decide (e.1 = q)) = [] :=
        List.filter_eq_nil_iff.2 fun e he => by rw [List.mem_singleton.1 he]; simpa using Ne.symm h
      rw [Option.toList_some, List.map_singleton, hnew, List.map_nil, List.append_nil]
      rfl

theorem filter_remove {f g : OspfPath → Bool} (h : ∀ p, f p = true → g p = false) (l : List OspfPath) :
    (l.filter fun p => !g p).filter f = l.filter f := by
  rw [List.filter_filter]
  refine List.filter_congr fun p _ => ?_
  cases hf : f p with
  | false => rfl
  | true => rw [h p hf]; rfl

theorem filter_remove_self (f : OspfPath → Bool) (l : List OspfPath) : (l.filter fun p => !f p).filter f = [] := by
  rw [List.filter_filter, List.filter_eq_nil_iff]
  intro p _ hp
  simp at hp

theorem filter_if_remove {f g : OspfPath → Bool} (h : ∀ p, f p = true → g p = false) (c : Prop) [Decidable c]
    (l : List OspfPath) : (if c then l.filter fun p => !g p else l).filter f = l.filter f := by
  split_ifs
  · exact filter_remove h l
  · rfl

/-! ## Kinds of paths -/

section
variable {areaId areaId' : UInt32} {area : Option UInt32} {key : OspfDiscardKey} {p : OspfPath}

theorem isAreaPath_iff : isAreaPath areaId p = true ↔ p.area = some areaId ∧ p.discard = false := by
  rw [isAreaPath, Bool.and_eq_true, decide_eq_true_eq, Bool.not_eq_true']

theorem isWidePath_iff : isWidePath p = true ↔ p.area = none ∧ p.discard = false := by
  rw [isWidePath, Bool.and_eq_true, decide_eq_true_eq, Bool.not_eq_true']

theorem isDiscardOf_iff : isDiscardOf area p = true ↔ p.discard = true ∧ p.area = area := by
  rw [isDiscardOf, Bool.and_eq_true, decide_eq_true_eq]

theorem isDiscardPath_iff :
    isDiscardPath key p = true ↔ (p.area = key.areaId ∧ p.type = discardType key) ∧ p.discard = true := by
  rw [isDiscardPath, Bool.and_eq_true, Bool.and_eq_true, decide_eq_true_eq, decide_eq_true_eq]

theorem area_ne_area (hne : areaId' ≠ areaId) (h : isAreaPath areaId' p = true) : isAreaPath areaId p = false := by
  refine Bool.eq_false_iff.2 fun h' => hne ?_
  exact Option.some.inj ((isAreaPath_iff.1 h).1.symm.trans (isAreaPath_iff.1 h').1)

theorem wide_of_area (h : isAreaPath areaId p = true) : isWidePath p = false := by
  refine Bool.eq_false_iff.2 fun h' => ?_
  have := (isAreaPath_iff.1 h).1.symm.trans (isWidePath_iff.1 h').1
  cases this

theorem area_of_wide (h : isWidePath p = true) : isAreaPath areaId p = false := by
  refine Bool.eq_false_iff.2 fun h' => ?_
  rw [wide_of_area h'] at h
  cases h

theorem area_of_discard (h : isDiscardOf area p = true) : isAreaPath areaId p = false := by
  rw [isAreaPath, (isDiscardOf_iff.1 h).1, Bool.not_true, Bool.and_false]

theorem wide_of_discard (h : isDiscardOf area p = true) : isWidePath p = false := by
  rw [isWidePath, (isDiscardOf_iff.1 h).1, Bool.not_true, Bool.and_false]

theorem discard_of_area (h : isAreaPath areaId p = true) : isDiscardOf area p = false := by
  rw [isDiscardOf, (isAreaPath_iff.1 h).2, Bool.false_and]

theorem discard_of_wide (h : isWidePath p = true) : isDiscardOf area p = false := by
  rw [isDiscardOf, (isWidePath_iff.1 h).2, Bool.false_and]

theorem area_of_discardPath (h : isDiscardPath key p = true) : isAreaPath areaId p = false := by
  rw [isAreaPath, (isDiscardPath_iff.1 h).2, Bool.not_true, Bool.and_false]

theorem wide_of_discardPath (h : isDiscardPath key p = true) : isWidePath p = false := by
  rw [isWidePath, (isDiscardPath_iff.1 h).2, Bool.not_true, Bool.and_false]

theorem discard_of_discardPath (hne : area ≠ key.areaId) (h : isDiscardPath key p = true) :
    isDiscardOf area p = false := by
  refine Bool.eq_false_iff.2 fun h' => hne ?_
  exact (isDiscardOf_iff.1 h').2.symm.trans (isDiscardPath_iff.1 h).1.1

theorem not_discardPath {f : OspfPath → Bool} (h : ∀ p, isDiscardPath key p = true → f p = false) (p : OspfPath)
    (hf : f p = true) : isDiscardPath key p = false :=
  Bool.eq_false_iff.2 fun hp => by rw [h p hp] at hf; cases hf

end

/-! ## The edits keep what was given -/

/-- The paths that were given are at the prefixes of the indexes. -/
structure Indexed (t : OspfRib) (areas : UInt32 → List (IPPrefix × OspfPath))
    (externals : List (IPPrefix × OspfPath)) : Prop where
  areas : ∀ areaId q, q ∉ groupOf t.areaIndex areaId → pathsFor (areas areaId) q = []
  wide : ∀ q, q ∉ t.processWide → pathsFor externals q = []

section
variable {t : OspfRib} {areas : UInt32 → List (IPPrefix × OspfPath)} {externals : List (IPPrefix × OspfPath)}
  {discards : Map OspfDiscardKey (ℕ × ℕ)}

theorem mem_pathsFor {paths : List (IPPrefix × OspfPath)} {q : IPPrefix} {p : OspfPath} :
    p ∈ pathsFor paths q ↔ (q, p) ∈ paths := by
  rw [pathsFor, List.mem_map]
  constructor
  · rintro ⟨⟨k, p⟩, he, rfl⟩
    obtain ⟨hmem, hk⟩ := List.mem_filter.1 he
    rw [← of_decide_eq_true hk]
    exact hmem
  · intro h
    exact ⟨(q, p), List.mem_filter.2 ⟨h, decide_eq_true rfl⟩, rfl⟩

theorem isAreaPath_stamped {areaId : UInt32} {ranges : Finset IPPrefix} {paths : List (IPPrefix × AreaPath areaId)}
    {q : IPPrefix} {p : OspfPath} (hp : p ∈ pathsFor ((plain paths).map (stampPath areaId ranges)) q) :
    isAreaPath areaId p = true := by
  obtain ⟨e, he, heq⟩ := List.mem_map.1 (mem_pathsFor.1 hp)
  obtain ⟨⟨k, path⟩, -, rfl⟩ := List.mem_map.1 he
  have hsnd : (stampPath areaId ranges (k, path.1)).2 = p := congrArg Prod.snd heq
  rw [isAreaPath_iff, ← hsnd, stampPath]
  split_ifs <;> exact ⟨path.2.1, path.2.2.1⟩

theorem kept_replaceArea (hk : Kept t areas externals discards) (hi : Indexed t areas externals) (areaId : UInt32)
    (ranges : Finset IPPrefix) (paths : List (IPPrefix × AreaPath areaId)) :
    Kept (t.replaceAreaEdit areaId ranges (plain paths))
      (Function.update areas areaId ((plain paths).map (stampPath areaId ranges))) externals discards where
  areas q areaId' := by
    rw [canidatesAt_replaceAreaEdit, List.filter_append]
    by_cases harea : areaId' = areaId
    · subst harea
      have hold : (if q ∈ groupOf t.areaIndex areaId' then (t.canidatesAt q).filter fun p => !isAreaPath areaId' p
          else t.canidatesAt q).filter (isAreaPath areaId') = [] := by
        split_ifs with hq
        · exact filter_remove_self _ _
        · rw [hk.areas, hi.areas areaId' q hq]
      rw [hold, Function.update_self, List.nil_append, List.filter_eq_self.2 fun p => isAreaPath_stamped]
    · rw [filter_if_remove fun p => area_ne_area harea, hk.areas, Function.update_of_ne harea,
        List.filter_eq_nil_iff.2 fun p hp => Bool.eq_false_iff.1 (area_ne_area (Ne.symm harea) (isAreaPath_stamped hp)),
        List.append_nil]
  externals q := by
    rw [canidatesAt_replaceAreaEdit, List.filter_append, filter_if_remove fun p => area_of_wide, hk.externals,
      List.filter_eq_nil_iff.2 fun p hp => Bool.eq_false_iff.1 (wide_of_area (isAreaPath_stamped hp)), List.append_nil]
  discards q area := by
    rw [canidatesAt_replaceAreaEdit, List.filter_append, filter_if_remove fun p => area_of_discard, hk.discards,
      List.filter_eq_nil_iff.2 fun p hp => Bool.eq_false_iff.1 (discard_of_area (isAreaPath_stamped hp)), List.append_nil]

theorem filter_toList {P : OspfPath → Prop} {f : OspfPath → Bool} (h : ∀ p, P p → f p = true)
    (path : Option {p : OspfPath // P p}) :
    (path.map Subtype.val).toList.filter f = (path.map Subtype.val).toList := by
  cases path with
  | none => rfl
  | some path => exact List.filter_eq_self.2 fun p hp => by rw [List.mem_singleton.1 hp]; exact h _ path.2

theorem filter_toList_nil {P : OspfPath → Prop} {f : OspfPath → Bool} (h : ∀ p, P p → f p = false)
    (path : Option {p : OspfPath // P p}) : (path.map Subtype.val).toList.filter f = [] := by
  cases path with
  | none => rfl
  | some path =>
    exact List.filter_eq_nil_iff.2 fun p hp => by
      rw [List.mem_singleton.1 hp]
      exact Bool.eq_false_iff.1 (h _ path.2)

theorem filter_replaceWide {canidates after : List OspfPath} {pfx q : IPPrefix} {path : Option OspfPath}
    (h : after = if q = pfx then (canidates.filter fun p => !isWidePath p) ++ path.toList else canidates)
    (f : OspfPath → Bool) : after.filter f =
      if q = pfx then (canidates.filter fun p => !isWidePath p).filter f ++ path.toList.filter f
      else canidates.filter f := by
  rw [h]
  split_ifs
  · exact List.filter_append _ _
  · rfl

theorem filter_replaceRouteEdit (areaId : UInt32) (pfx : IPPrefix) (path : Option OspfPath) (f : OspfPath → Bool)
    (q : IPPrefix) : ((t.replaceRouteEdit areaId pfx path).canidatesAt q).filter f =
      if q = pfx then ((t.canidatesAt q).filter fun p => !isWidePath p).filter f ++ path.toList.filter f
      else (t.canidatesAt q).filter f :=
  filter_replaceWide (canidatesAt_replaceRouteEdit t areaId pfx path q) f

theorem kept_replaceRoute (hk : Kept t areas externals discards) {areaId : UInt32} {pfx : IPPrefix}
    (harea : pathsFor (areas areaId) pfx = []) (hwide : pathsFor externals pfx = [])
    (path : Option (AreaPath areaId)) :
    Kept (t.replaceRouteEdit areaId pfx (path.map Subtype.val))
      (Function.update areas areaId (setPaths (areas areaId) pfx (path.map Subtype.val))) externals discards where
  areas q areaId' := by
    rw [filter_replaceRouteEdit, filter_remove fun p => wide_of_area, hk.areas]
    by_cases heq : areaId' = areaId
    · subst heq
      rw [Function.update_self, pathsFor_setPaths, filter_toList fun p hp => isAreaPath_iff.2 ⟨hp.1, hp.2.1⟩]
      split_ifs with hq
      · rw [hq, harea, List.nil_append]
      · rfl
    · rw [Function.update_of_ne heq, filter_toList_nil fun p hp =>
        area_ne_area (Ne.symm heq) (isAreaPath_iff.2 ⟨hp.1, hp.2.1⟩)]
      split_ifs
      · exact List.append_nil _
      · rfl
  externals q := by
    rw [filter_replaceRouteEdit, filter_remove_self, hk.externals, filter_toList_nil fun p hp =>
      wide_of_area (isAreaPath_iff.2 ⟨hp.1, hp.2.1⟩)]
    split_ifs with hq
    · rw [hq, hwide]
      rfl
    · rfl
  discards q area := by
    rw [filter_replaceRouteEdit, filter_remove fun p => wide_of_discard, hk.discards, filter_toList_nil fun p hp =>
      discard_of_area (isAreaPath_iff.2 ⟨hp.1, hp.2.1⟩)]
    split_ifs
    · exact List.append_nil _
    · rfl

theorem isWidePath_plain {paths : List (IPPrefix × WidePath)} {q : IPPrefix} {p : OspfPath}
    (hp : p ∈ pathsFor (plain paths) q) : isWidePath p = true := by
  obtain ⟨⟨k, path⟩, -, heq⟩ := List.mem_map.1 (mem_pathsFor.1 hp)
  have hsnd : path.1 = p := congrArg Prod.snd heq
  rw [isWidePath_iff, ← hsnd]
  exact ⟨path.2.1, path.2.2.1⟩

theorem kept_replaceExternals (hk : Kept t areas externals discards) (hi : Indexed t areas externals)
    (paths : List (IPPrefix × WidePath)) : Kept (t.replaceExternalsEdit (plain paths)) areas (plain paths) discards where
  areas q areaId := by
    rw [canidatesAt_replaceExternalsEdit, List.filter_append, filter_if_remove fun p => wide_of_area, hk.areas,
      List.filter_eq_nil_iff.2 fun p hp => Bool.eq_false_iff.1 (area_of_wide (isWidePath_plain hp)), List.append_nil]
  externals q := by
    have hold : (if q ∈ t.processWide then (t.canidatesAt q).filter fun p => !isWidePath p
        else t.canidatesAt q).filter isWidePath = [] := by
      split_ifs with hq
      · exact filter_remove_self _ _
      · rw [hk.externals, hi.wide q hq]
    rw [canidatesAt_replaceExternalsEdit, List.filter_append, hold, List.nil_append,
      List.filter_eq_self.2 fun p => isWidePath_plain]
  discards q area := by
    rw [canidatesAt_replaceExternalsEdit, List.filter_append, filter_if_remove fun p => wide_of_discard, hk.discards,
      List.filter_eq_nil_iff.2 fun p hp => Bool.eq_false_iff.1 (discard_of_wide (isWidePath_plain hp)), List.append_nil]

theorem filter_replaceExternalEdit (pfx : IPPrefix) (path : Option OspfPath) (f : OspfPath → Bool)
    (q : IPPrefix) : ((t.replaceExternalEdit pfx path).canidatesAt q).filter f =
      if q = pfx then ((t.canidatesAt q).filter fun p => !isWidePath p).filter f ++ path.toList.filter f
      else (t.canidatesAt q).filter f :=
  filter_replaceWide (canidatesAt_replaceExternalEdit t pfx path q) f

theorem kept_replaceExternal (hk : Kept t areas externals discards) (pfx : IPPrefix) (path : Option WidePath) :
    Kept (t.replaceExternalEdit pfx (path.map Subtype.val)) areas (setPaths externals pfx (path.map Subtype.val))
      discards where
  areas q areaId := by
    rw [filter_replaceExternalEdit, filter_remove fun p => wide_of_area, hk.areas, filter_toList_nil fun p hp =>
      area_of_wide (isWidePath_iff.2 ⟨hp.1, hp.2.1⟩)]
    split_ifs
    · exact List.append_nil _
    · rfl
  externals q := by
    rw [filter_replaceExternalEdit, filter_remove_self, hk.externals, filter_toList fun p hp =>
      isWidePath_iff.2 ⟨hp.1, hp.2.1⟩, pathsFor_setPaths, List.nil_append]
  discards q area := by
    rw [filter_replaceExternalEdit, filter_remove fun p => wide_of_discard, hk.discards, filter_toList_nil fun p hp =>
      discard_of_wide (isWidePath_iff.2 ⟨hp.1, hp.2.1⟩)]
    split_ifs
    · exact List.append_nil _
    · rfl

theorem filter_setDiscard {key : OspfDiscardKey} {f : OspfPath → Bool}
    (h : ∀ p, isDiscardPath key p = true → f p = false) (cost ad : ℕ) (l : List OspfPath) :
    (setDiscard key cost ad l).filter f = l.filter f := by
  induction l with
  | nil =>
    have hnew : isDiscardPath key (discardPath key cost ad) = true := isDiscardPath_iff.2 ⟨⟨rfl, rfl⟩, rfl⟩
    rw [setDiscard, List.filter_singleton, h _ hnew]
    rfl
  | cons p l ih =>
    rw [setDiscard]
    split_ifs with hp
    · have hset : isDiscardPath key { p with cost := cost, adminDistance := ad } = true :=
        isDiscardPath_iff.2 (isDiscardPath_iff.1 hp)
      rw [List.filter_cons_of_neg (Bool.eq_false_iff.1 (h _ hset)), List.filter_cons_of_neg (Bool.eq_false_iff.1 (h _ hp))]
    · rw [List.filter_cons, List.filter_cons, ih]

theorem filter_setDiscard_self (key : OspfDiscardKey) {d : Option (ℕ × ℕ)} {l : List OspfPath}
    (h : l.filter (isDiscardOf key.areaId) = (d.map fun d => discardPath key d.1 d.2).toList) (cost ad : ℕ) :
    (setDiscard key cost ad l).filter (isDiscardOf key.areaId) = [discardPath key cost ad] := by
  have hnew : isDiscardOf key.areaId (discardPath key cost ad) = true := isDiscardOf_iff.2 ⟨rfl, rfl⟩
  induction l with
  | nil =>
    rw [setDiscard, List.filter_singleton, hnew]
    rfl
  | cons p l ih =>
    by_cases hp : isDiscardOf key.areaId p = true
    · -- `p` is the discard route that was there
      rw [List.filter_cons_of_pos hp] at h
      cases d with
      | none => cases h
      | some d =>
        obtain ⟨rfl, hl⟩ := List.cons.inj h
        rw [setDiscard, if_pos (isDiscardPath_iff.2 ⟨⟨rfl, rfl⟩, rfl⟩)]
        refine (List.filter_cons_of_pos (a := discardPath key cost ad) hnew).trans ?_
        rw [hl]
    · have hother : ¬ isDiscardPath key p = true := fun hkey =>
        hp (isDiscardOf_iff.2 ⟨(isDiscardPath_iff.1 hkey).2, (isDiscardPath_iff.1 hkey).1.1⟩)
      rw [List.filter_cons_of_neg hp] at h
      rw [setDiscard, if_neg hother, List.filter_cons_of_neg hp]
      exact ih h

theorem kept_installDiscard (hk : Kept t areas externals discards) (key : OspfDiscardKey) (cost ad : ℕ) :
    Kept (t.installDiscardEdit key cost ad) areas externals (discards.insert key (cost, ad)) where
  areas q areaId := by
    rw [canidatesAt_installDiscardEdit, ← hk.areas]
    split_ifs
    · exact filter_setDiscard (fun p => area_of_discardPath) cost ad _
    · rfl
  externals q := by
    rw [canidatesAt_installDiscardEdit, ← hk.externals]
    split_ifs
    · exact filter_setDiscard (fun p => wide_of_discardPath) cost ad _
    · rfl
  discards q area := by
    rw [canidatesAt_installDiscardEdit, lookup_insert_eq]
    by_cases hkey : (⟨q, area⟩ : OspfDiscardKey) = key
    · subst hkey
      have hself : (setDiscard ⟨q, area⟩ cost ad (t.canidatesAt q)).filter (isDiscardOf area) =
          [discardPath ⟨q, area⟩ cost ad] := filter_setDiscard_self ⟨q, area⟩ (hk.discards q area) cost ad
      rw [if_pos rfl, if_pos rfl, hself]
      rfl
    · rw [if_neg hkey, ← hk.discards]
      split_ifs with hq
      · refine filter_setDiscard (fun p => discard_of_discardPath fun harea => hkey ?_) cost ad _
        rw [hq, harea]
      · rfl

theorem kept_withdrawDiscard (hk : Kept t areas externals discards) (key : OspfDiscardKey) :
    Kept (t.withdrawDiscardEdit key) areas externals (discards.erase key) where
  areas q areaId := by
    rw [canidatesAt_withdrawDiscardEdit, filter_if_remove (not_discardPath fun p => area_of_discardPath), hk.areas]
  externals q := by
    rw [canidatesAt_withdrawDiscardEdit, filter_if_remove (not_discardPath fun p => wide_of_discardPath), hk.externals]
  discards q area := by
    rw [canidatesAt_withdrawDiscardEdit, lookup_erase_eq]
    by_cases hkey : (⟨q, area⟩ : OspfDiscardKey) = key
    · subst hkey
      have hcomm : ((t.canidatesAt q).filter fun p => !isDiscardPath ⟨q, area⟩ p).filter (isDiscardOf area) =
          ((t.canidatesAt q).filter (isDiscardOf area)).filter fun p => !isDiscardPath ⟨q, area⟩ p := by
        rw [List.filter_filter, List.filter_filter]
        exact List.filter_congr fun p _ => Bool.and_comm _ _
      rw [if_pos rfl, if_pos rfl, hcomm, hk.discards]
      -- all that is left is the discard route of the key
      refine List.filter_eq_nil_iff.2 fun p hp => ?_
      obtain ⟨d, -, rfl⟩ := Option.map_eq_some_iff.1 (Option.mem_toList.1 hp)
      rw [isDiscardPath_iff.2 ⟨⟨rfl, rfl⟩, rfl⟩]
      exact Bool.false_ne_true
    · rw [if_neg hkey, ← hk.discards]
      split_ifs with hq
      · refine filter_remove (not_discardPath fun p => discard_of_discardPath fun harea => hkey ?_) _
        rw [hq, harea]
      · rfl

theorem filter_map_restamp {f : OspfPath → Bool} {areaId : UInt32} {ranges : Finset IPPrefix} {q : IPPrefix}
    (hkind : ∀ p b, f { p with suppressed := b } = f p) (l : List OspfPath) :
    (l.map (restampPath areaId ranges q)).filter f = (l.filter f).map (restampPath areaId ranges q) := by
  rw [List.filter_map]
  congr 1
  refine List.filter_congr fun p _ => ?_
  rw [Function.comp_apply, restampPath]
  split_ifs
  · exact hkind p _
  · rfl

theorem map_restamp_eq {areaId : UInt32} {ranges : Finset IPPrefix} {q : IPPrefix} {l : List OspfPath}
    (h : ∀ p ∈ l, isIntraOf areaId p = false) : l.map (restampPath areaId ranges q) = l := by
  refine (List.map_congr_left fun p hp => ?_).trans (List.map_id l)
  rw [restampPath, if_neg (Bool.eq_false_iff.1 (h p hp))]
  rfl

theorem filter_refreshEdit {f : OspfPath → Bool} (hkind : ∀ p b, f { p with suppressed := b } = f p)
    (areaId : UInt32) (ranges : Finset IPPrefix) (q : IPPrefix) :
    ((t.refreshEdit areaId ranges).canidatesAt q).filter f =
      if q ∈ groupOf t.areaIndex areaId then ((t.canidatesAt q).filter f).map (restampPath areaId ranges q)
      else (t.canidatesAt q).filter f := by
  rw [canidatesAt_refreshEdit]
  split_ifs
  · exact filter_map_restamp hkind _
  · rfl

theorem kept_refresh (hk : Kept t areas externals discards) (hi : Indexed t areas externals) (areaId : UInt32)
    (ranges : Finset IPPrefix) : Kept (t.refreshEdit areaId ranges)
      (Function.update areas areaId ((areas areaId).map fun e => (e.1, restampPath areaId ranges e.1 e.2)))
      externals discards where
  areas q areaId' := by
    rw [filter_refreshEdit fun p b => rfl, hk.areas]
    by_cases harea : areaId' = areaId
    · subst harea
      have hmap : pathsFor ((areas areaId').map fun e => (e.1, restampPath areaId' ranges e.1 e.2)) q =
          (pathsFor (areas areaId') q).map (restampPath areaId' ranges q) := by
        rw [pathsFor, pathsFor, List.filter_map, List.map_map, List.map_map]
        refine List.map_congr_left fun e he => ?_
        rw [Function.comp_apply, Function.comp_apply, of_decide_eq_true (List.mem_filter.1 he).2]
      rw [Function.update_self, hmap]
      split_ifs with hq
      · rfl
      · rw [hi.areas areaId' q hq]
        rfl
    · rw [Function.update_of_ne harea, map_restamp_eq, ite_self]
      intro p hp
      rw [← hk.areas] at hp
      have hpath := (isAreaPath_iff.1 (List.mem_filter.1 hp).2).1
      rw [isIntraOf, hpath, decide_eq_false fun heq => harea (Option.some.inj heq), Bool.and_false]
  externals q := by
    rw [filter_refreshEdit fun p b => rfl, map_restamp_eq, ite_self, hk.externals]
    intro p hp
    rw [isIntraOf, (isWidePath_iff.1 (List.mem_filter.1 hp).2).1]
    exact Bool.and_false _
  discards q area := by
    rw [filter_refreshEdit fun p b => rfl, hk.discards, map_restamp_eq, ite_self]
    intro p hp
    obtain ⟨d, -, rfl⟩ := Option.map_eq_some_iff.1 (Option.mem_toList.1 hp)
    rw [isIntraOf, discardPath, discardType]
    split_ifs <;> rfl

/-! ## The indexes -/

theorem mem_groupOf_insert {index : Map UInt32 (Finset IPPrefix)} {areaId a : UInt32} {set : Finset IPPrefix}
    {q : IPPrefix} : q ∈ groupOf (if set = ∅ then index.erase areaId else index.insert areaId set) a ↔
      if a = areaId then q ∈ set else q ∈ groupOf index a := by
  by_cases hset : set = ∅
  · rw [if_pos hset, groupOf, lookup_erase_eq, hset]
    split_ifs
    · rfl
    · rfl
  · rw [if_neg hset, groupOf, lookup_insert_eq]
    split_ifs
    · rfl
    · rfl

theorem mem_groupOf_replaceRoute {areaId a : UInt32} {pfx q : IPPrefix} {path : Option OspfPath}
    (h : ¬ (a = areaId ∧ q = pfx)) :
    q ∈ groupOf (t.replaceRouteEdit areaId pfx path).areaIndex a ↔ q ∈ groupOf t.areaIndex a := by
  have herased : q ∈ groupOf (if pfx ∈ t.known {pfx} then eraseFrom t.areaIndex areaId pfx else t.areaIndex) a ↔
      q ∈ groupOf t.areaIndex a := by
    split_ifs
    · rw [mem_groupOf_eraseFrom]
      exact and_iff_left h
    · rfl
  cases path with
  | some path =>
    rw [replaceRouteEdit, mem_groupOf_insertInto]
    exact (or_iff_right h).trans herased
  | none =>
    have hdrop (index : Map UInt32 (Finset IPPrefix)) :
        q ∈ groupOf (if groupOf index areaId = ∅ then index.erase areaId else index) a ↔ q ∈ groupOf index a := by
      split_ifs with hempty
      · rw [groupOf, lookup_erase_eq]
        split_ifs with ha
        · rw [ha, hempty]
          rfl
        · rfl
      · rfl
    exact (hdrop _).trans herased

theorem mem_groupOf_replaceRoute_self {areaId : UInt32} {pfx : IPPrefix} {path : OspfPath} :
    pfx ∈ groupOf (t.replaceRouteEdit areaId pfx (some path)).areaIndex areaId := by
  rw [replaceRouteEdit, mem_groupOf_insertInto]
  exact Or.inl ⟨rfl, rfl⟩

theorem indexed_edit (hi : Indexed t areas externals) (e : Event) :
    Indexed (e.edit t) (areasAfter areas e) (externalsAfter externals e) := by
  cases e with
  | replaceArea env areaId ranges paths =>
    refine ⟨fun a q hq => ?_, hi.wide⟩
    change q ∉ groupOf (t.replaceAreaEdit areaId ranges (plain paths)).areaIndex a at hq
    rw [replaceAreaEdit, mem_groupOf_insert] at hq
    show pathsFor (Function.update areas areaId _ a) q = []
    by_cases ha : a = areaId
    · subst ha
      rw [if_pos rfl] at hq
      have hfst : ((plain paths).map (stampPath a ranges)).map Prod.fst = (plain paths).map Prod.fst := by
        rw [List.map_map]
        exact List.map_congr_left fun e _ => stampPath_fst a ranges e
      rw [Function.update_self]
      exact pathsFor_eq_nil (by rw [hfst]; exact hq)
    · rw [if_neg ha] at hq
      rw [Function.update_of_ne ha]
      exact hi.areas a q hq
  | replaceRoute env areaId pfx path =>
    constructor
    · intro a q hq
      change q ∉ groupOf (t.replaceRouteEdit areaId pfx (path.map Subtype.val)).areaIndex a at hq
      show pathsFor (Function.update areas areaId _ a) q = []
      by_cases hat : a = areaId ∧ q = pfx
      · obtain ⟨rfl, rfl⟩ := hat
        rw [Function.update_self, pathsFor_setPaths, if_pos rfl]
        cases path with
        | none => rfl
        | some path => exact absurd mem_groupOf_replaceRoute_self hq
      · rw [mem_groupOf_replaceRoute hat] at hq
        by_cases ha : a = areaId
        · subst ha
          rw [Function.update_self, pathsFor_setPaths, if_neg fun h => hat ⟨rfl, h⟩]
          exact hi.areas a q hq
        · rw [Function.update_of_ne ha]
          exact hi.areas a q hq
    · intro q hq
      refine hi.wide q fun hmem => hq ?_
      show q ∈ (t.replaceRouteEdit areaId pfx (path.map Subtype.val)).processWide
      cases path <;> exact hmem
  | replaceExternals env paths =>
    refine ⟨hi.areas, fun q hq => ?_⟩
    obtain ⟨-, hpaths⟩ := not_or.1 (mt Finset.mem_union.2 hq)
    exact pathsFor_eq_nil hpaths
  | replaceExternal env pfx path =>
    constructor
    · intro a q hq
      refine hi.areas a q fun hmem => hq ?_
      show q ∈ groupOf (t.replaceExternalEdit pfx (path.map Subtype.val)).areaIndex a
      cases path <;> exact hmem
    · intro q hq
      change q ∉ (t.replaceExternalEdit pfx (path.map Subtype.val)).processWide at hq
      show pathsFor (setPaths externals pfx (path.map Subtype.val)) q = []
      rw [pathsFor_setPaths]
      have hwide (hne : q ≠ pfx) : q ∈ t.processWide \ t.known {pfx} ↔ q ∈ t.processWide := by
        rw [Finset.mem_sdiff]
        exact and_iff_left fun hk => hne (Finset.mem_singleton.1 (Finset.mem_filter.1 hk).1)
      cases path with
      | none =>
        split_ifs with hqp
        · rfl
        · exact hi.wide q fun hmem => hq ((hwide hqp).2 hmem)
      | some path =>
        obtain ⟨hqp, hrest⟩ := not_or.1 (mt Finset.mem_insert.2 hq)
        rw [if_neg hqp]
        exact hi.wide q fun hmem => hrest ((hwide hqp).2 hmem)
  | installDiscardRoute env key cost ad => exact ⟨hi.areas, hi.wide⟩
  | withdrawDiscardRoute env key => exact ⟨hi.areas, hi.wide⟩
  | refreshIntraRangeSuppression env areaId ranges =>
    refine ⟨fun a q hq => ?_, hi.wide⟩
    show pathsFor (Function.update areas areaId _ a) q = []
    by_cases ha : a = areaId
    · subst ha
      have hnone := hi.areas a q hq
      rw [pathsFor, List.map_eq_nil_iff, List.filter_eq_nil_iff] at hnone
      rw [Function.update_self, pathsFor, List.map_eq_nil_iff, List.filter_eq_nil_iff]
      intro e he
      obtain ⟨e', he', rfl⟩ := List.mem_map.1 he
      exact hnone e' he'
    · rw [Function.update_of_ne ha]
      exact hi.areas a q hq

end

/-! ## Steps -/

section
variable {cfg : RibConfig} {s : RibHistory} {e : Event} {t : OspfRib} {l : List IPPrefix}

theorem kept_edit (hk : Kept s.table s.areas s.externals s.discards) (hi : Indexed s.table s.areas s.externals)
    (hfresh : s.Fresh e) : Kept (e.edit s.table) (areasAfter s.areas e) (externalsAfter s.externals e)
      (discardsAfter s.discards e) := by
  cases e with
  | replaceArea env areaId ranges paths => exact kept_replaceArea hk hi areaId ranges paths
  | replaceRoute env areaId pfx path => exact kept_replaceRoute hk hfresh.1 hfresh.2 path
  | replaceExternals env paths => exact kept_replaceExternals hk hi paths
  | replaceExternal env pfx path => exact kept_replaceExternal hk pfx path
  | installDiscardRoute env key cost ad => exact kept_installDiscard hk key cost ad
  | withdrawDiscardRoute env key => exact kept_withdrawDiscard hk key
  | refreshIntraRangeSuppression env areaId ranges => exact kept_refresh hk hi areaId ranges

/-- What an operation does: the candidates are edited at some prefixes, and these are visited. -/
structure Call (cfg : RibConfig) (t : OspfRib) (e : Event) (l : List IPPrefix) : Prop where
  edited : ∃ touched : Finset IPPrefix, Edited t (e.edit t) touched ∧ ∀ q ∈ touched, q ∈ l
  synced : Synced cfg e.env (e.edit t) (e.call cfg t) l

theorem exists_call (cfg : RibConfig) (t : OspfRib) (e : Event) : ∃ l, Call cfg t e l := by
  have hone (pfx q : IPPrefix) (hq : q ∈ ({pfx} : Finset IPPrefix)) : q ∈ [pfx] :=
    List.mem_singleton.2 (Finset.mem_singleton.1 hq)
  cases e with
  | replaceArea env areaId ranges paths =>
    exact ⟨_, ⟨_, edited_replaceArea t areaId ranges (plain paths), fun q => (env.mem_visit _ q).2⟩,
      synced_recompute _ _ areaId⟩
  | replaceRoute env areaId pfx path =>
    exact ⟨[pfx], ⟨_, edited_replaceRoute t areaId pfx _, hone pfx⟩, synced_recomputePrefix _ pfx _⟩
  | replaceExternals env paths =>
    exact ⟨_, ⟨_, edited_replaceExternals t (plain paths), fun q => (env.mem_visit _ q).2⟩,
      synced_recomputeWide _ _⟩
  | replaceExternal env pfx path =>
    exact ⟨[pfx], ⟨_, edited_replaceExternal t pfx _, hone pfx⟩, synced_recomputePrefix _ pfx _⟩
  | installDiscardRoute env key cost ad =>
    exact ⟨[key.pfx], ⟨_, edited_installDiscard t key cost ad, hone key.pfx⟩, synced_recomputePrefix _ key.pfx _⟩
  | withdrawDiscardRoute env key =>
    exact ⟨[key.pfx], ⟨_, edited_withdrawDiscard t key, hone key.pfx⟩, synced_recomputePrefix _ key.pfx _⟩
  | refreshIntraRangeSuppression env areaId ranges =>
    exact ⟨_, ⟨_, edited_refresh t areaId ranges, fun q => (env.mem_visit _ q).2⟩, synced_recompute _ _ areaId⟩

theorem entriesAt_edit (t : OspfRib) (e : Event) (q : IPPrefix) : (e.edit t).entriesAt q = t.entriesAt q := by
  cases e with
  | replaceRoute env areaId pfx path =>
    show (t.replaceRouteEdit areaId pfx (path.map Subtype.val)).entriesAt q = t.entriesAt q
    cases path <;> rfl
  | replaceExternal env pfx path =>
    show (t.replaceExternalEdit pfx (path.map Subtype.val)).entriesAt q = t.entriesAt q
    cases path <;> rfl
  | _ => rfl

theorem Call.mem_of_installs (h : Call cfg t e l) {q : IPPrefix}
    (hq : Installs (t.routeFor q) ((e.edit t).routeFor q)) : q ∈ l := by
  obtain ⟨touched, hedit, hl⟩ := h.edited
  by_contra hmem
  have hroute : (e.edit t).routeFor q = t.routeFor q := by
    rw [routeFor, routeFor, hedit.canidates q fun htouched => hmem (hl q htouched)]
  rw [hroute] at hq
  exact not_installs_self _ hq

theorem Call.entries (h : Call cfg t e l) (hset : t.Settled) (q : IPPrefix) : (e.call cfg t).entriesAt q =
    if q ∈ l then syncAt cfg e.env q (t.routeFor q) ((e.edit t).routeFor q) (t.entriesAt q) else t.entriesAt q := by
  obtain ⟨touched, hedit, -⟩ := h.edited
  rw [h.synced.entries, hedit.selected, hset q, entriesAt_edit]

/-- What was given is kept and indexed, every prefix has the route for its candidates, and the table of
    the VRF has the entry of this route. -/
structure Inv (cfg : RibConfig) (s : RibHistory) : Prop where
  kept : Kept s.table s.areas s.externals s.discards
  indexed : Indexed s.table s.areas s.externals
  settled : s.table.Settled
  entries : ∀ q, s.table.entriesAt q = entryOf cfg (s.table.routeFor q)

theorem Inv.agrees (h : Inv cfg s) : Agrees cfg s where
  kept := h.kept
  none_iff q := by
    rw [h.settled q]
    exact selectRoute_eq_none_iff q
  selected q r hr := by
    rw [h.settled q] at hr
    exact isRoute_of_selectRoute hr
  entries q := by rw [h.settled q, h.entries q]

/-- **One step** that is allowed keeps the invariant. -/
theorem Inv.step (h : Inv cfg s) (hok : Allowed cfg s e) : Inv cfg (RibHistory.step cfg s e) := by
  obtain ⟨l, hcall⟩ := exists_call cfg s.table e
  obtain ⟨touched, hedit, hl⟩ := hcall.edited
  have hvisit := hcall.synced.visited
  have hkept := kept_edit h.kept h.indexed hok.fresh
  have hindexed := indexed_edit h.indexed e
  refine ⟨⟨fun q a => ?_, fun q => ?_, fun q a => ?_⟩, ⟨fun a q hq => ?_, fun q hq => ?_⟩,
    h.settled.of_visited hedit hl hvisit, fun q => ?_⟩
  · exact (congrArg (List.filter _) (hvisit.canidates q)).trans (hkept.areas q a)
  · exact (congrArg (List.filter _) (hvisit.canidates q)).trans (hkept.externals q)
  · exact (congrArg (List.filter _) (hvisit.canidates q)).trans (hkept.discards q a)
  · exact hindexed.areas a q fun hmem => hq (hvisit.indexes.areaIndex ▸ hmem)
  · exact hindexed.wide q fun hmem => hq (hvisit.indexes.processWide ▸ hmem)
  · show (e.call cfg s.table).entriesAt q = entryOf cfg ((e.call cfg s.table).routeFor q)
    rw [hcall.entries h.settled, hvisit.routeFor_eq, h.entries q]
    split_ifs with hq
    · exact syncAt_entryOf (hok.processId q)
    · rw [routeFor, routeFor, hedit.canidates q fun hmem => hq (hl q hmem)]

theorem fresh_of_kept (h : Inv cfg s) (hafter : Kept (e.edit s.table) (areasAfter s.areas e)
    (externalsAfter s.externals e) (discardsAfter s.discards e)) : s.Fresh e := by
  cases e with
  | replaceRoute env areaId pfx path =>
    constructor
    · have harea := hafter.areas pfx areaId
      change List.filter _ ((s.table.replaceRouteEdit areaId pfx (path.map Subtype.val)).canidatesAt pfx) =
        pathsFor (Function.update s.areas areaId _ areaId) pfx at harea
      rw [filter_replaceRouteEdit, if_pos rfl, filter_remove fun p => wide_of_area, h.kept.areas,
        filter_toList fun p hp => isAreaPath_iff.2 ⟨hp.1, hp.2.1⟩, Function.update_self, pathsFor_setPaths,
        if_pos rfl] at harea
      exact List.append_left_eq_self.1 harea
    · have hwide := hafter.externals pfx
      change List.filter _ ((s.table.replaceRouteEdit areaId pfx (path.map Subtype.val)).canidatesAt pfx) =
        pathsFor s.externals pfx at hwide
      rw [filter_replaceRouteEdit, if_pos rfl, filter_remove_self, filter_toList_nil fun p hp =>
        wide_of_area (isAreaPath_iff.2 ⟨hp.1, hp.2.1⟩)] at hwide
      exact hwide.symm
  | _ => trivial

/-- **An operation** after which the tables agree is allowed. -/
theorem allowed_of_agrees (h : Inv cfg s) (hafter : Agrees cfg (RibHistory.step cfg s e)) : Allowed cfg s e := by
  obtain ⟨l, hcall⟩ := exists_call cfg s.table e
  have hvisit := hcall.synced.visited
  refine ⟨fresh_of_kept h ⟨fun q a => ?_, fun q => ?_, fun q a => ?_⟩, fun q hq => ?_⟩
  · exact (congrArg (List.filter _) (hvisit.canidates q)).symm.trans (hafter.kept.areas q a)
  · exact (congrArg (List.filter _) (hvisit.canidates q)).symm.trans (hafter.kept.externals q)
  · exact (congrArg (List.filter _) (hvisit.canidates q)).symm.trans (hafter.kept.discards q a)
  · by_contra hid
    have hl := hcall.mem_of_installs hq
    have hentries := hafter.entries q
    change (e.call cfg s.table).entriesAt q = entryOf cfg ((e.call cfg s.table).lookup q) at hentries
    rw [hcall.entries h.settled, if_pos hl, hvisit.selected, if_pos hl] at hentries
    exact syncAt_ne_entryOf hq hid _ hentries

theorem inv_start : Inv cfg {} where
  kept := ⟨fun _ _ => rfl, fun _ => rfl, fun _ _ => rfl⟩
  indexed := ⟨fun _ _ _ => rfl, fun _ _ => rfl⟩
  settled := fun _ => rfl
  entries := fun _ => rfl

/-- **The tables in a run** agree after every operation iff every operation is allowed. -/
theorem agrees_iff (cfg : RibConfig) (es : List Event) :
    Along (Allowed cfg) (RibHistory.step cfg) {} es ↔
      ∀ ps, ps <+: es → Agrees cfg (runFrom (RibHistory.step cfg) {} ps) :=
  Along.iff_everywhere (I := Inv cfg) (Q := Agrees cfg) (F := fun _ _ => True) (fun _ _ hs _ hok => hs.step hok)
    (fun _ hs => hs.agrees) (fun _ _ hs _ hbad hafter => hbad (allowed_of_agrees hs hafter)) inv_start
    (Along.of_forall fun _ _ => trivial)

end

/-! ## The defects -/

/-- A call that finds an id in the memory of a new entry. -/
noncomputable def envWith (pid : ℕ) : CallEnv := { SummaryFeed.plainEnv with processId := fun _ => pid }

open SummaryFeed in
noncomputable def giveRoute (cost : ℕ) : Event := .replaceRoute (envWith 1) 0 netTen (some (interPath cost))

open SummaryFeed in
noncomputable def giveExternal : Event :=
  .replaceExternal (envWith 1) netTen (some ⟨{ type := .EXTERNAL, cost := 5 }, rfl, rfl, Or.inl rfl⟩)

open SummaryFeed in
/-- A first path of the backbone, with an id in the memory of the entry. -/
noncomputable def giveArea (pid : ℕ) : Event := .replaceArea (envWith pid) 0 ∅ [(netTen, intraPath 10)]

open SummaryFeed in
theorem installs_giveArea (pid : ℕ) :
    Installs (({} : OspfRib).routeFor netTen) (((giveArea pid).edit {}).routeFor netTen) := by
  have hcan : ((giveArea pid).edit {}).canidatesAt netTen = [(intraPath 10).1] := by
    show (OspfRib.replaceAreaEdit {} 0 ∅ (plain [(netTen, intraPath 10)])).canidatesAt netTen = _
    rw [canidatesAt_replaceAreaEdit, plain, List.map_singleton, List.map_singleton, stampPath_none rfl]
    rfl
  rw [OspfRib.routeFor, OspfRib.routeFor, hcan]
  exact trivial

open SummaryFeed in
/-- The entry of a route has the id that its memory had; `replaceRoute` leaves the old path of the area;
    and it takes away an external path. -/
theorem not_agrees :
    ¬ Agrees {} (runFrom (RibHistory.step {}) {} [giveArea 0]) ∧
    ¬ Agrees {} (runFrom (RibHistory.step {}) {} [giveRoute 10, giveRoute 20]) ∧
    ¬ Agrees {} (runFrom (RibHistory.step {}) {} [giveExternal, giveRoute 10]) := by
  refine ⟨fun h => ?_, fun h => ?_, fun h => ?_⟩
  · have hok : Allowed {} {} (giveArea 0) := allowed_of_agrees inv_start h
    exact absurd (hok.processId netTen (installs_giveArea 0)) (show ¬ (0 : ℕ) = 1 by decide)
  · have hfirst : Inv {} (RibHistory.step {} {} (giveRoute 10)) := inv_start.step ⟨⟨rfl, rfl⟩, fun _ _ => rfl⟩
    have hok : Allowed {} (RibHistory.step {} {} (giveRoute 10)) (giveRoute 20) := allowed_of_agrees hfirst h
    exact absurd hok.fresh.1 (List.cons_ne_nil (interPath 10).1 [])
  · have hfirst : Inv {} (RibHistory.step {} {} giveExternal) := inv_start.step ⟨trivial, fun _ _ => rfl⟩
    have hok : Allowed {} (RibHistory.step {} {} giveExternal) (giveRoute 10) := allowed_of_agrees hfirst h
    exact absurd hok.fresh.2 (List.cons_ne_nil _ [])

end RibHistory

end VirtualRouter.Ospf
