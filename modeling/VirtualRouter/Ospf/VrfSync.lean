/-
  The routes of the OSPF routing table in the table of the VRF.

  * `isBetterPath_iff`: the order of the candidates is that of a key, so that the selected path is one
    that no candidate is better than (`isRoute_of_selectRoute`);
  * `Installs`: a new route is put into the table of the VRF;
  * `entryOf`: what the table is to hold for a prefix, a source and a process id;
  * `OspfRib.Synced`: a loop over prefixes replaces the old route of each by the next;
  * `syncAt_entryOf`, `syncAt_ne_entryOf`: so the table holds what it is to, iff each route that is put in
    has the id of the process.
-/
import VirtualRouter.Ospf.Recompute

namespace VirtualRouter.Ospf

open NestedMap KeyOrder

/-! ## The order of the candidates -/

/-- What the candidates are compared by. -/
def OspfPath.key (p : OspfPath) : ℕ ×ₗ ℕ ×ₗ ℕ ×ₗ ℕ :=
  toLex (p.type.toNat, toLex (p.cost, toLex (p.options.toNat, p.adminDistance)))

theorem OspfRouteType.toNat_inj {a b : OspfRouteType} (h : a.toNat = b.toNat) : a = b := by
  cases a <;> cases b <;> first | rfl | cases h

theorem isBetterPath_iff (a b : OspfPath) : isBetterPath a b = true ↔ a.key < b.key := by
  simp only [OspfPath.key, Prod.Lex.toLex_lt_toLex, isBetterPath]
  split_ifs with htype hcost hoptions
  · have hne : a.type.toNat ≠ b.type.toNat := fun h => htype (OspfRouteType.toNat_inj h)
    simp only [decide_eq_true_eq]
    omega
  · rw [not_not.1 htype]
    simp only [decide_eq_true_eq, lt_self_iff_false, false_or, true_and]
    omega
  · rw [not_not.1 htype, not_not.1 hcost]
    have hne : a.options.toNat ≠ b.options.toNat := fun h => hoptions (UInt8.toNat.inj h)
    simp only [decide_eq_true_eq, lt_self_iff_false, false_or, true_and, UInt8.lt_iff_toNat_lt]
    omega
  · rw [not_not.1 htype, not_not.1 hcost, not_not.1 hoptions]
    simp only [decide_eq_true_eq, lt_self_iff_false, false_or, true_and]

/-- The route is that of a candidate that no other is better than, with all that are equal to it. -/
def IsRoute (pfx : IPPrefix) (canidates : List OspfPath) (r : OspfRoute) : Prop :=
  ∃ best ∈ canidates, (∀ p ∈ canidates, isBetterPath p best = false) ∧ r = routeOf pfx best canidates

/-- **The selected path** is a candidate that no other is better than. -/
theorem isRoute_of_selectRoute {pfx : IPPrefix} {canidates : List OspfPath} {r : OspfRoute}
    (h : selectRoute pfx canidates = some r) : IsRoute pfx canidates r := by
  cases canidates with
  | nil => cases h
  | cons p ps =>
    have hordered : OrderedBy isBetterPath OspfPath.key (p :: ps) := fun a _ b _ => isBetterPath_iff a b
    exact ⟨_, bestOf_mem p ps, hordered.strictWeakOn.bestOf_maximal, (Option.some.inj h).symm⟩

/-! ## Routes that do not differ -/

theorem OspfPath.same_refl (p : OspfPath) : p.same p = true := by simp [OspfPath.same]

theorem zipWith_same_refl (l : List OspfPath) : (l.zipWith OspfPath.same l).all id = true := by
  induction l with
  | nil => rfl
  | cons p l ih => rw [List.zipWith_cons_cons, List.all_cons, OspfPath.same_refl, ih]; rfl

theorem routeDiffers_self (r : OspfRoute) : routeDiffers r r = false := by
  have hsame : r.same r = true := by simp [OspfRoute.same]
  rw [routeDiffers, hsame, zipWith_same_refl, decide_eq_true rfl]
  rfl

theorem nextHops_of_same : ∀ {l l' : List OspfPath}, l.length = l'.length →
    (l.zipWith OspfPath.same l').all id = true → l.flatMap OspfPath.nextHops = l'.flatMap OspfPath.nextHops
  | [], [], _, _ => rfl
  | p :: l, p' :: l', hlen, hall => by
    rw [List.zipWith_cons_cons, List.all_cons, Bool.and_eq_true] at hall
    have hhops : p.nextHops = p'.nextHops := by
      have := hall.1
      simp only [id, OspfPath.same, Bool.and_eq_true, decide_eq_true_eq] at this
      exact this.2
    rw [List.flatMap_cons, List.flatMap_cons, hhops, nextHops_of_same (Nat.succ.inj hlen) hall.2]

theorem entry_of_not_differs {old next : OspfRoute} (cfg : RibConfig) (h : routeDiffers old next = false) :
    old.type = next.type ∧ vrfRoute cfg old = vrfRoute cfg next := by
  rw [routeDiffers, Bool.or_eq_false_iff, Bool.not_eq_false', Bool.not_eq_false', Bool.and_eq_true,
    decide_eq_true_eq] at h
  obtain ⟨hsame, hlen, hpaths⟩ := h
  simp only [OspfRoute.same, Bool.and_eq_true, decide_eq_true_eq] at hsame
  obtain ⟨⟨⟨⟨⟨htype, hcost⟩, -⟩, had⟩, -⟩, -⟩ := hsame
  refine ⟨htype, ?_⟩
  rw [vrfRoute, vrfRoute, mergeEcmpNextHops, mergeEcmpNextHops, nextHops_of_same hlen hpaths, hcost, had]

/-! ## The entries of a prefix -/

section
variable (cfg : RibConfig) (env : CallEnv) (pfx : IPPrefix)

/-- What the table of the VRF is to hold for a prefix that has this route. -/
def entryOf (r : Option OspfRoute) (src : RouteSource) (pid : ℕ) : Option VrfRoute :=
  match r with
  | none => none
  | some r => if src = deriveOspfType r.type ∧ pid = cfg.procId then some (vrfRoute cfg r) else none

def Installs (old next : Option OspfRoute) : Prop :=
  match old, next with
  | _, none => False
  | none, some _ => True
  | some old, some next => routeDiffers old next = true

/-- The entries of a prefix after its route has changed, of those before. -/
def syncAt (old next : Option OspfRoute) (cur : RouteSource → ℕ → Option VrfRoute) (src : RouteSource) (pid : ℕ) :
    Option VrfRoute :=
  match old, next with
  | none, none => cur src pid
  | some old, none => if src = deriveOspfType old.type ∧ pid = cfg.procId then none else cur src pid
  | none, some next =>
    if src = deriveOspfType next.type ∧ pid = env.processId pfx then some (vrfRoute cfg next) else cur src pid
  | some old, some next =>
    if routeDiffers old next then
      if src = deriveOspfType next.type ∧ pid = env.processId pfx then some (vrfRoute cfg next)
      else if src = deriveOspfType old.type ∧ pid = cfg.procId then none
      else cur src pid
    else cur src pid

variable {cfg env pfx} {old next : Option OspfRoute}

theorem not_installs_self (r : Option OspfRoute) : ¬ Installs r r := by
  cases r with
  | none => exact id
  | some r => exact (Bool.eq_false_iff.1 (routeDiffers_self r))

/-- **The entries are right again** if a route that is put in has the id of the process. -/
theorem syncAt_entryOf (h : Installs old next → env.processId pfx = cfg.procId) :
    syncAt cfg env pfx old next (entryOf cfg old) = entryOf cfg next := by
  funext src pid
  cases old with
  | none =>
    cases next with
    | none => rfl
    | some n => rw [syncAt, entryOf, h trivial]; rfl
  | some o =>
    cases next with
    | none =>
      rw [syncAt, entryOf, entryOf]
      split_ifs <;> rfl
    | some n =>
      rw [syncAt]
      split_ifs with hdiff hnew hold
      · rw [h hdiff] at hnew
        exact (if_pos hnew).symm
      · rw [h hdiff] at hnew
        exact (if_neg hnew).symm
      · rw [h hdiff] at hnew
        rw [entryOf, entryOf, if_neg hold, if_neg hnew]
      · obtain ⟨htype, hentry⟩ := entry_of_not_differs cfg (Bool.not_eq_true _ ▸ hdiff)
        rw [entryOf, entryOf, htype, hentry]

/-- **An entry is wrong** if a route is put in with another id. -/
theorem syncAt_ne_entryOf (h : Installs old next) (hid : env.processId pfx ≠ cfg.procId)
    (cur : RouteSource → ℕ → Option VrfRoute) : syncAt cfg env pfx old next cur ≠ entryOf cfg next := by
  intro heq
  cases next with
  | none => cases old <;> exact h
  | some n =>
    have hat := congrFun (congrFun heq (deriveOspfType n.type)) (env.processId pfx)
    have hnone : entryOf cfg (some n) (deriveOspfType n.type) (env.processId pfx) = none :=
      if_neg fun hand => hid hand.2
    have hsome : syncAt cfg env pfx old (some n) cur (deriveOspfType n.type) (env.processId pfx) =
        some (vrfRoute cfg n) := by
      cases old with
      | none => exact if_pos ⟨rfl, rfl⟩
      | some o =>
        have hdiff : routeDiffers o n = true := h
        rw [syncAt, if_pos hdiff, if_pos ⟨rfl, rfl⟩]
    rw [hsome, hnone] at hat
    cases hat

end

namespace OspfRib

/-! ## Loops -/

section
variable {cfg : RibConfig} {env : CallEnv} {s s' : OspfRib} {l : List IPPrefix}

def entriesAt (s : OspfRib) (pfx : IPPrefix) (src : RouteSource) (pid : ℕ) : Option VrfRoute :=
  s.rib.lookup (pfx, src, pid)

theorem entriesAt_syncTable_self (s : OspfRib) (pfx : IPPrefix) (old next : Option OspfRoute) :
    (s.syncTable cfg env pfx old next).entriesAt pfx = syncAt cfg env pfx old next (s.entriesAt pfx) := by
  funext src pid
  have hkey (src' : RouteSource) (pid' : ℕ) :
      ((pfx, src, pid) : IPPrefix × RouteSource × ℕ) = (pfx, src', pid') ↔ src = src' ∧ pid = pid' := by
    rw [Prod.mk.injEq, Prod.mk.injEq]
    exact and_iff_right rfl
  cases old with
  | none =>
    cases next with
    | none => rfl
    | some n =>
      rw [entriesAt, syncTable, syncRoute, addRoute, lookup_insert_eq, syncAt]
      exact if_congr (hkey _ _) rfl rfl
  | some o =>
    cases next with
    | none =>
      rw [entriesAt, syncTable, removeRoute, lookup_erase_eq, syncAt]
      exact if_congr (hkey _ _) rfl rfl
    | some n =>
      rw [entriesAt, syncTable, syncRoute, syncAt]
      by_cases hdiff : routeDiffers o n = true
      · rw [if_pos hdiff, if_pos hdiff, addRoute, lookup_insert_eq, removeRoute, lookup_erase_eq]
        exact if_congr (hkey _ _) rfl (if_congr (hkey _ _) rfl rfl)
      · rw [if_neg hdiff, if_neg hdiff]
        rfl

theorem entriesAt_syncTable_ne (s : OspfRib) {pfx q : IPPrefix} (h : q ≠ pfx) (old next : Option OspfRoute) :
    (s.syncTable cfg env pfx old next).entriesAt q = s.entriesAt q := by
  funext src pid
  have hkey (src' : RouteSource) (pid' : ℕ) : ((q, src, pid) : IPPrefix × RouteSource × ℕ) ≠ (pfx, src', pid') :=
    fun heq => h (Prod.mk.inj heq).1
  cases old with
  | none =>
    cases next with
    | none => rfl
    | some n => exact AList.lookup_insert_ne (hkey _ _)
  | some o =>
    cases next with
    | none => exact AList.lookup_erase_ne (hkey _ _)
    | some n =>
      rw [entriesAt, syncTable, syncRoute]
      split_ifs with hdiff
      · rw [addRoute, AList.lookup_insert_ne (hkey _ _), removeRoute, AList.lookup_erase_ne (hkey _ _)]
        rfl
      · rfl

variable (cfg env) in
/-- What a loop over prefixes has done, from `s`, with the entries of each prefix. -/
structure Synced (s s' : OspfRib) (l : List IPPrefix) : Prop where
  visited : Visited s s' l
  entries : ∀ q, s'.entriesAt q =
    if q ∈ l then syncAt cfg env q (s.lookup q) (s.routeFor q) (s.entriesAt q) else s.entriesAt q

theorem Synced.nil : Synced cfg env s s [] := ⟨.nil, fun _ => (if_neg List.not_mem_nil).symm⟩

theorem Synced.recomputePrefix (h : Synced cfg env s s' l) {pfx : IPPrefix} (hpfx : pfx ∉ l) (ctx : Option UInt32) :
    Synced cfg env s (s'.recomputePrefix cfg env pfx ctx).table (l ++ [pfx]) where
  visited := h.visited.recomputePrefix cfg env pfx ctx
  entries q := by
    have hrib : (s'.recomputePrefix cfg env pfx ctx).table.entriesAt q =
        (s'.syncTable cfg env pfx (s'.lookup pfx) (s'.routeFor pfx)).entriesAt q := by
      funext src pid
      rw [entriesAt, rib_recomputePrefix]
      rfl
    rw [hrib]
    by_cases hq : q = pfx
    · subst hq
      rw [entriesAt_syncTable_self, h.entries, if_neg hpfx, h.visited.selected, if_neg hpfx, h.visited.routeFor_eq,
        if_pos (List.mem_append_right l (List.mem_singleton_self q))]
    · have hmem : q ∈ l ++ [pfx] ↔ q ∈ l := by simp [hq]
      rw [entriesAt_syncTable_ne s' hq, h.entries]
      exact if_congr hmem.symm rfl rfl

theorem synced_recomputePrefix (s : OspfRib) (pfx : IPPrefix) (ctx : Option UInt32) :
    Synced cfg env s (s.recomputePrefix cfg env pfx ctx).table [pfx] :=
  Synced.nil.recomputePrefix List.not_mem_nil ctx

theorem synced_foldl (s : OspfRib) (ctx : Option UInt32) (hnodup : l.Nodup) :
    Synced cfg env s (l.foldl (fun s pfx => (s.recomputePrefix cfg env pfx ctx).table) s) l := by
  induction l using List.reverseRecOn with
  | nil => exact .nil
  | append_singleton l pfx ih =>
    obtain ⟨hl, -, hdisj⟩ := List.nodup_append.1 hnodup
    rw [List.foldl_append]
    exact (ih hl).recomputePrefix (fun hmem => hdisj pfx hmem pfx (List.mem_singleton_self pfx) rfl) ctx

theorem synced_recompute (s : OspfRib) (touched : Finset IPPrefix) (areaId : UInt32) :
    Synced cfg env s (s.recompute cfg env touched areaId).1 (env.visit touched) := by
  rw [recompute, table_foldl_recomputeStep]
  exact synced_foldl s (some areaId) (env.nodup_visit touched)

theorem synced_recomputeWide (s : OspfRib) (touched : Finset IPPrefix) :
    Synced cfg env s (s.recomputeWide cfg env touched) (env.visit touched) :=
  synced_foldl s none (env.nodup_visit touched)

end

end OspfRib

end VirtualRouter.Ospf
