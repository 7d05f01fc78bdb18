/-
  Prefix watches: every change of the filtered best route of a prefix is reported
  to its watches, once, and nothing else is.

  `announceRouteChange` fires the watches of a prefix if the pointer to the best
  route has moved, and a node is called if the route it remembers by a pointer
  differs from the new one.  Both pointers are into the vector of routes that has
  just been edited.  `Told` is a condition on the routes and the watch before the
  call under which they tell the truth: no best route is replaced in its slot, or
  followed there by the one behind it; with the best route of the filter that of all
  changes; and a watch that is fired remembers its best route where it stands.
-/
import VirtualRouter.Lib.Run
import VirtualRouter.Routing.RouteEdits

namespace VirtualRouter

namespace RibSystem
variable {W : ℕ}
open RouteWatcher

/-! ## What has to be reported -/

/-- The calls that a change from `rib` to `rib'` calls for: for each watch of `k`
    whose filtered best route changes, its id, function, context, and new route. -/
def prefixChanges (rib rib' : Rib W) (k : PrefixKey W) (t : List (PrefixKey W × WatchNode W)) :
    List (ℕ × ℕ × ℕ × Option (RibEntry W)) :=
  t.filterMap fun x =>
    let old := bestOf rib k x.2.filter.pass
    let new := bestOf rib' k x.2.filter.pass
    match x.2.fn with
    | .user fn ctx => if x.1 = k ∧ x.2.canceled = false ∧ routesEqual old new = false then
        some (x.2.id, fn, ctx, new) else none
    | .addrWatch _ => none

/-- The calls on behalf of prefix watches in an event, with the route they show. -/
def prefixCalls (s : RibSystem W) (e : Event W) (env : Env W) :
    List (ℕ × ℕ × ℕ × Option (RibEntry W)) :=
  (callsOf .route (s.calls e)).map fun i =>
    (i.id, i.fn, i.ctx, i.newBest.map (read (s.step e).rib env))

/-- **Prefix watches are complete**: a call of the RIB on a prefix reports what has
    changed there, once, and nothing else does.  (`clear` reports to all.) -/
def PrefixReported (s : RibSystem W) (e : Event W) : Prop :=
  match e, s.watcher.queue with
  | .exec env, .rib op :: _ => ∀ k ∈ opKey op, prefixCalls s e env =
      prefixChanges s.rib (s.step e).rib k s.watcher.prefixWatchTable
  | _, _ => callsOf .route (s.calls e) = []

instance (s : RibSystem W) (e : Event W) : Decidable (PrefixReported s e) := by
  unfold PrefixReported
  split <;> infer_instance

/-! ## When it is reported -/

/-- The watch remembers the best route of its filter, in the slot it stands in. -/
def Current (k : PrefixKey W) (b : RibBucket W) (n : WatchNode W) : Prop :=
  n.lastKnown = getBestRoute k b n.filter.pass

instance (k : PrefixKey W) (b : RibBucket W) (n : WatchNode W) : Decidable (Current k b n) := by
  unfold Current; infer_instance

/-- The watch `n` of `k` is told what the edit changes for it. -/
def Told (env : Env W) (k : PrefixKey W) (n : WatchNode W) : RouteEdit W → Prop
  | .first _ => n.lastKnown = none
  | .replace b i r e =>
    let leads := fun e => LeadsAt n.filter.pass b.routes i e
    let leadsAll := fun e => LeadsAt (fun _ => true) b.routes i e
    -- the filter's best route is not replaced in its slot, and changes with that of all
    (leads r ∨ leads e → ¬ (leads r ∧ leads e) ∧ (leadsAll r ∨ leadsAll e)) ∧
      ((leadsAll r ↔ leadsAll e) ∨ Current k b n ∨ n.lastKnown = none ∧ n.filter.pass e = true)
  | .push b e =>
    let leads := LeadsAt n.filter.pass b.routes b.routes.length e
    let leadsAll := LeadsAt (fun _ => true) b.routes b.routes.length e
    let moved := b.capacity ≤ b.routes.length
    (leads → leadsAll) ∧
      (¬ moved ∧ ¬ leadsAll ∨
        Current k b n ∧ (moved → ∀ x ∈ bestSlot n.filter.pass b.routes, Lingers env k b x.1) ∨
        n.lastKnown = none ∧ leads)
  | .drop b i r =>
    let leads := LeadsAt n.filter.pass b.routes i r
    let leadsAll := LeadsAt (fun _ => true) b.routes i r
    let follows := StepsUp (fun _ => true) b.routes i
    let alone := ∀ x ∈ b.routes.eraseIdx i, n.filter.pass x = false
    -- the next best route does not move into the slot of the filter's best one, nor of that of all
    (leads → ¬ StepsUp n.filter.pass b.routes i ∧
        (leadsAll ∧ ¬ follows ∨ ∃ x ∈ bestSlot (fun _ => true) b.routes, i < x.1)) ∧
      ((leadsAll ∧ follows ∨ ∃ x ∈ bestSlot (fun _ => true) b.routes, x.1 < i) ∨
        Current k b n ∧ (∀ x ∈ bestSlot n.filter.pass b.routes, x.1 ≤ i) ∧
          (leads → i + 1 = b.routes.length → alone ∨ Lingers env k b i) ∨
        n.lastKnown = none ∧ leads ∧ ¬ alone)
  | .same _ => True

instance (env : Env W) (k : PrefixKey W) (n : WatchNode W) (edit : RouteEdit W) :
    Decidable (Told env k n edit) := by
  cases edit <;> (unfold Told; infer_instance)

/-- The condition on the execution of a call of the RIB, for the watches of the prefix
    it is about. -/
def prefixTaskOk (rib : Rib W) (env : Env W) (w : RouteWatcher W) : Task W → Prop
  | .rib op => ∀ k ∈ opKey op, ∀ edit ∈ routeEdit rib k op, ∀ x ∈ w.prefixWatchTable,
      x.1 = k → x.2.canceled = false → proxyOf x.2 = none → Told env k x.2 edit
  | _ => True

instance (rib : Rib W) (env : Env W) (w : RouteWatcher W) (t : Task W) :
    Decidable (prefixTaskOk rib env w t) := by
  cases t <;> (unfold prefixTaskOk; infer_instance)

def prefixOk (s : RibSystem W) : Event W → Prop
  | .call _ _ => True
  | .exec env => ∀ t ∈ s.watcher.queue.head?, prefixTaskOk s.rib env s.watcher t

instance (s : RibSystem W) (e : Event W) : Decidable (prefixOk s e) := by
  cases e <;> (unfold prefixOk; infer_instance)

/-- The pointers of a watch of `k` tell the truth, for the bucket `b` announced. -/
def PointsTrue (rib rib' : Rib W) (env : Env W) (k : PrefixKey W) (b : RibBucket W)
    (n : WatchNode W) : Prop :=
  let seen := n.lastKnown.map (read rib' env)
  let old := bestOf rib k n.filter.pass
  let new := bestOf rib' k n.filter.pass
  if b.bestEntry = b.prevBest then routesEqual old new = true
  else routesEqual seen old = true ∨ (routesEqual seen new = false ∧ routesEqual old new = false)

/-! ## One announcement -/

section
variable {rib rib' : Rib W} {env : Env W} {k : PrefixKey W} {b : RibBucket W}

theorem callsOf_fireProtocol (fire : SrcPid → Bool) (cur : Option (Ptr W)) (s : Log W) :
    callsOf .route (fireProtocol rib env fire cur s).2 = callsOf .route s.2 :=
  callsOf_fireNodes_other rib env (by decide) (by decide) ..

theorem callsOf_announceProtocol (s : Log W) :
    callsOf .route (announceProtocol rib env k b s).2 = callsOf .route s.2 := by
  unfold announceProtocol
  split_ifs
  · exact callsOf_fireProtocol ..
  · cases b.prevBest <;> cases b.bestEntry <;> simp only
    · split_ifs
      · rfl
      · exact callsOf_fireProtocol ..
    · exact callsOf_fireProtocol ..
    · split_ifs
      · exact callsOf_fireProtocol ..
      · exact (callsOf_fireProtocol ..).trans (callsOf_fireProtocol ..)

theorem nodeCall_changed (he : Edited rib rib' k b) {n : WatchNode W}
    (hn : n.canceled = false → proxyOf n = none → PointsTrue rib rib' env k b n) :
    ((if b.bestEntry = b.prevBest then none
      else nodeCall rib' env .route (computeBestForPrefix k b n.filter) n).map fun i =>
        (i.id, i.fn, i.ctx, i.newBest.map (read rib' env))) =
      match n.fn with
      | .user fn ctx => if n.canceled = false ∧
          routesEqual (bestOf rib k n.filter.pass) (bestOf rib' k n.filter.pass) = false then
            some (n.id, fn, ctx, bestOf rib' k n.filter.pass) else none
      | .addrWatch _ => none := by
  cases hfn : n.fn with
  | addrWatch state =>
    have hcall : nodeCall rib' env .route (computeBestForPrefix k b n.filter) n = none := by
      rw [nodeCall, hfn]
    rw [hcall, ite_self]; rfl
  | user fn ctx =>
    cases hc : n.canceled with
    | true => rw [nodeCall_canceled rib' env hc, ite_self]; simp
    | false =>
      have hpt := hn hc (by rw [proxyOf, hfn])
      unfold PointsTrue at hpt
      simp only [true_and]
      split_ifs at hpt ⊢ with hb hr hr
      · rw [hpt] at hr; cases hr
      · rfl
      · -- the route has changed, and the node remembers another one
        have hd : Differs rib' env n (computeBestForPrefix k b n.filter) := by
          rw [Differs, he.read_computeBest]
          rcases hpt with hpt | hpt
          · rw [routesEqual_congr hpt]; exact hr
          · exact hpt.1
        rw [nodeCall, hfn]
        simp only
        rw [if_pos ⟨hc, hd⟩, Option.map_some, he.read_computeBest]
      · have hd : ¬ Differs rib' env n (computeBestForPrefix k b n.filter) := by
          rw [Differs, he.read_computeBest]
          rcases hpt with hpt | hpt
          · rw [routesEqual_congr hpt]; exact hr
          · exact absurd hpt.2 hr
        rw [nodeCall, hfn]
        simp only
        rw [if_neg fun h => hd h.2]; rfl

theorem callsOf_announceRouteChange (hk : Rib.keyOf k.1 k.2 = k) (w : RouteWatcher W) :
    callsOf .route (announceRouteChange rib' env k b (w, [])).2 =
      w.prefixWatchTable.filterMap fun x =>
        if x.1 = k then
          if b.bestEntry = b.prevBest then none
          else nodeCall rib' env .route (computeBestForPrefix k b x.2.filter) x.2
        else none := by
  simp only [announceRouteChange, hk]
  rw [callsOf_announceProtocol]
  by_cases hb : b.bestEntry = b.prevBest
  · simp only [hb, ne_eq, not_true_eq_false, if_false, if_true, ite_self]
    exact (List.filterMap_eq_nil_iff.2 fun _ _ => rfl).symm
  · simp only [hb, ne_eq, not_false_eq_true, if_true, if_false]
    refine (callsOf_fireNodes_self rib' env (by decide) ..).trans ?_
    simp only [decide_eq_true_eq]
    rfl

end

/-! ## The pointers after an edit -/

section
variable {rib rib' : Rib W} {env : Env W} {k : PrefixKey W} {b b' : RibBucket W}
  {n : WatchNode W} {i : ℕ} {r e : RibEntry W}

theorem filter_pass_congr {f : WatchFilter} (h : r.srcPid = e.srcPid) : f.pass r = f.pass e := by
  obtain ⟨hsrc, hpid⟩ := Prod.mk.inj h
  rw [WatchFilter.pass, WatchFilter.pass, hsrc, hpid]

theorem pointsTrue_of_same (h : bestOf rib' k n.filter.pass = bestOf rib k n.filter.pass)
    (hseen : b'.bestEntry ≠ b'.prevBest → routesEqual (n.lastKnown.map (read rib' env))
      (bestOf rib k n.filter.pass) = true) : PointsTrue rib rib' env k b' n := by
  simp only [PointsTrue, h]
  split_ifs with hfired
  · exact routesEqual_refl _
  · exact .inl (hseen hfired)

theorem pointsTrue_of_change (hfired : b'.bestEntry ≠ b'.prevBest)
    (h : routesEqual (n.lastKnown.map (read rib' env)) (bestOf rib k n.filter.pass) = true ∨
      routesEqual (n.lastKnown.map (read rib' env)) (bestOf rib' k n.filter.pass) = false ∧
        routesEqual (bestOf rib k n.filter.pass) (bestOf rib' k n.filter.pass) = false) :
    PointsTrue rib rib' env k b' n := by
  simp only [PointsTrue, if_neg hfired]
  exact h

theorem Current.seen (h : Current k b n) (he : Edited rib rib' k b') (hblock : b'.block = b.block) :
    n.lastKnown.map (read rib' env) = (bestSlot n.filter.pass b.routes).map fun x =>
      (b'.routes[x.1]?).getD (env.freed (.route k (b.block, x.1))) := by
  rw [h, getBestRoute, Option.map_map, ← hblock]
  exact Option.map_congr fun x _ => he.read_route env x.1

theorem Current.seen_eq (h : Current k b n) (he : Edited rib rib' k b') (hblock : b'.block = b.block)
    (ht : rib.table k = some b)
    (hstay : ∀ x ∈ bestSlot n.filter.pass b.routes, b'.routes[x.1]? = b.routes[x.1]?) :
    n.lastKnown.map (read rib' env) = bestOf rib k n.filter.pass := by
  rw [h.seen he hblock, bestOf_of_table ht]
  refine Option.map_congr fun x hx => ?_
  rw [hstay x hx, (isBest_of_bestSlot hx).slot, Option.getD_some]

/-! ### One edit -/

theorem pointsTrue_replace (hinv : Rib.Inv rib) (he : Edited rib rib' k b')
    (ht : rib.table k = some b) (hi : b.routes[i]? = some r) (hsp : r.srcPid = e.srcPid)
    (hroutes : b'.routes = b.routes.set i e) (hblock : b'.block = b.block)
    (h : Told env k n (.replace b i r e)) : PointsTrue rib rib' env k b' n := by
  simp only [Told] at h
  obtain ⟨hmoves, hknown⟩ := h
  have hlen := (List.getElem?_eq_some_iff.1 hi).1
  have hpass : n.filter.pass r = n.filter.pass e := filter_pass_congr hsp
  have hfired := he.bestEntry_eq_iff hinv ht hblock
  rw [hroutes, slot_set_iff hi] at hfired
  have hold := bestOf_of_table ht n.filter.pass
  have hnew := he.bestOf_eq n.filter.pass
  rw [hroutes] at hnew
  have hstay (hcur : Current k b n) (hr : ¬ LeadsAt n.filter.pass b.routes i r) :
      n.lastKnown.map (read rib' env) = bestOf rib k n.filter.pass := by
    refine hcur.seen_eq he hblock ht fun x hx => ?_
    rw [hroutes, List.getElem?_set_ne (slot_ne_of_not hi hr hx).symm]
  by_cases hr : LeadsAt n.filter.pass b.routes i r
  · have hpe : n.filter.pass e = true := hpass ▸ hr.1
    obtain ⟨hboth, hall⟩ := hmoves (.inl hr)
    have hle : ¬ LeadsAt n.filter.pass b.routes i e := fun hle => hboth ⟨hr, hle⟩
    have hnall : ¬ LeadsAt (fun _ => true) b.routes i e := fun hl => hle (hl.of_any hpe)
    have hmoved : b'.bestEntry ≠ b'.prevBest := fun heq =>
      hnall ((hfired.1 heq).1 (hall.resolve_right hnall))
    -- the new best route is of another process
    have hmem : e ∈ b.routes.set i e := List.mem_of_getElem? (List.getElem?_set_self hlen)
    obtain ⟨y, hy⟩ := exists_bestSlot hmem hpe
    have hyi := slot_ne_of_not (List.getElem?_set_self hlen) (mt leads_set.1 hle) hy
    have hyslot := (isBest_of_bestSlot hy).slot
    rw [List.getElem?_set_ne hyi.symm] at hyslot
    have hne := srcPid_ne (hinv.bucket _ _ ht).nodup hi hyslot hyi.symm
    rw [hy] at hnew
    rw [(leads_iff hi).1 hr] at hold
    refine pointsTrue_of_change hmoved (.inr ⟨?_, ?_⟩)
    · rw [hnew]
      rcases hknown with hsame | hcur | ⟨hnone, -⟩
      · exact absurd (hfired.2 hsame) hmoved
      · rw [hcur.seen he hblock, (leads_iff hi).1 hr, Option.map_some, hroutes,
          List.getElem?_set_self hlen]
        exact routesEqual_of_srcPid (hsp ▸ hne)
      · rw [hnone]; rfl
    · rw [hold, hnew]
      exact routesEqual_of_srcPid hne
  · by_cases hle : LeadsAt n.filter.pass b.routes i e
    · have hnall : ¬ LeadsAt (fun _ => true) b.routes i r := fun hl => hr (hl.of_any (hpass ▸ hle.1))
      have hmoved : b'.bestEntry ≠ b'.prevBest := fun heq =>
        hnall ((hfired.1 heq).2 ((hmoves (.inr hle)).2.resolve_left hnall))
      refine pointsTrue_of_change hmoved ?_
      rcases hknown with hsame | hcur | ⟨hnone, -⟩
      · exact absurd (hfired.2 hsame) hmoved
      · rw [hstay hcur hr]; exact .inl (routesEqual_refl _)
      · rw [hnone, hold, hnew, bestSlot_set hlen hle]
        obtain ⟨x, hx⟩ := exists_bestSlot (List.mem_of_getElem? hi) (hpass ▸ hle.1)
        have hne := srcPid_ne (hinv.bucket _ _ ht).nodup hi (isBest_of_bestSlot hx).slot
          (slot_ne_of_not hi hr hx).symm
        rw [hx]
        exact .inr ⟨rfl, routesEqual_of_srcPid (hsp ▸ hne.symm)⟩
    · refine pointsTrue_of_same ?_ fun hmoved => ?_
      · rw [hnew, hold, bestSlot_set_of_not hi hr hle]
      · rcases hknown with hsame | hcur | ⟨-, hpe⟩
        · exact absurd (hfired.2 hsame) hmoved
        · rw [hstay hcur hr]; exact routesEqual_refl _
        · -- the best route of all passes the filter if it has moved
          refine absurd (hfired.2 (iff_of_false (fun hl => hr (hl.of_any (hpass.trans hpe)))
            fun hl => hle (hl.of_any hpe))) hmoved

theorem pointsTrue_push (hinv : Rib.Inv rib) (he : Edited rib rib' k b')
    (ht : rib.table k = some b) (hspare : ∀ r ∈ b.routes, r.srcPid ≠ e.srcPid)
    (hroutes : b'.routes = b.routes ++ [e])
    (hblock : b'.block = if b.routes.length < b.capacity then b.block else rib.next)
    (h : Told env k n (.push b e)) : PointsTrue rib rib' env k b' n := by
  obtain ⟨hall, hknown⟩ := h
  have hold := bestOf_of_table ht n.filter.pass
  have hnew := he.bestOf_eq n.filter.pass
  rw [hroutes, bestSlot_concat] at hnew
  -- a watch that remembers its best route sees it, where it was or in what is freed
  have hseen (hcur : Current k b n) (hlinger : b.capacity ≤ b.routes.length →
      ∀ x ∈ bestSlot n.filter.pass b.routes, Lingers env k b x.1) :
      routesEqual (n.lastKnown.map (read rib' env)) (bestOf rib k n.filter.pass) = true := by
    rw [hcur, hold, getBestRoute, Option.map_map]
    cases hx : bestSlot n.filter.pass b.routes with
    | none => rfl
    | some x =>
      have hslot := (isBest_of_bestSlot hx).slot
      have hxlen := (List.getElem?_eq_some_iff.1 hslot).1
      simp only [Option.map_some, Function.comp_apply]
      by_cases hsame : b'.block = b.block
      · rw [← hsame, he.read_route env, hroutes, List.getElem?_append_left hxlen, hslot]
        exact routesEqual_refl _
      · have hmoved : b.capacity ≤ b.routes.length := by
          by_contra hroom
          exact hsame (by rw [hblock, if_pos (not_le.1 hroom)])
        rw [he.read_before env, if_neg hsame, Option.getD_none]
        exact hlinger hmoved x hx x.2 hslot
  by_cases hle : LeadsAt n.filter.pass b.routes b.routes.length e
  · have hle' := hall hle
    rw [if_pos hle] at hnew
    have hmoved : b'.bestEntry ≠ b'.prevBest := by
      rw [he.best, he.prevBest_eq hinv ht, hroutes, bestSlot_concat, if_pos hle']
      cases hx : bestSlot (fun _ => true) b.routes with
      | none => simp
      | some x =>
        have hxlen := (List.getElem?_eq_some_iff.1 (isBest_of_bestSlot hx).slot).1
        intro heq
        have hslot := congrArg Prod.snd (Option.some.inj heq)
        exact absurd hslot (Nat.ne_of_gt hxlen)
    refine pointsTrue_of_change hmoved ?_
    rcases hknown with ⟨-, hnall⟩ | ⟨hcur, hlinger⟩ | ⟨hnone, -⟩
    · exact absurd hle' hnall
    · exact .inl (hseen hcur hlinger)
    · rw [hnone, hold, hnew]
      refine .inr ⟨rfl, ?_⟩
      cases hx : bestSlot n.filter.pass b.routes with
      | none => rfl
      | some x =>
        exact routesEqual_of_srcPid (hspare x.2 (List.mem_of_getElem? (isBest_of_bestSlot hx).slot))
  · rw [if_neg hle, ← hold] at hnew
    refine pointsTrue_of_same hnew fun hmoved => ?_
    rcases hknown with ⟨hroom, hnall⟩ | ⟨hcur, hlinger⟩ | ⟨-, hle'⟩
    · refine absurd ?_ hmoved
      rw [he.bestEntry_eq_iff hinv ht (by rw [hblock, if_pos (not_le.1 hroom)]), hroutes,
        bestSlot_concat, if_neg hnall]
    · exact hseen hcur hlinger
    · exact absurd hle' hle

theorem pointsTrue_drop (hinv : Rib.Inv rib) (he : Edited rib rib' k b')
    (ht : rib.table k = some b) (hi : b.routes[i]? = some r)
    (hroutes : b'.routes = b.routes.eraseIdx i) (hblock : b'.block = b.block)
    (h : Told env k n (.drop b i r)) : PointsTrue rib rib' env k b' n := by
  obtain ⟨hmoves, hknown⟩ := h
  have hlen := (List.getElem?_eq_some_iff.1 hi).1
  have hfired := he.bestEntry_eq_iff hinv ht hblock
  rw [hroutes, slot_eraseIdx_iff hi] at hfired
  have hold := bestOf_of_table ht n.filter.pass
  have hnew := he.bestOf_eq n.filter.pass
  rw [hroutes] at hnew
  by_cases hr : LeadsAt n.filter.pass b.routes i r
  · obtain ⟨hfollows, hbehind⟩ := hmoves hr
    have hmoved : b'.bestEntry ≠ b'.prevBest := by
      rw [Ne, hfired]
      rintro (⟨hall, hf⟩ | ⟨x, hx, hlt⟩)
      · rcases hbehind with ⟨-, hnf⟩ | ⟨y, hy, hlt⟩
        · exact hnf hf
        · rw [(leads_iff hi).1 hall] at hy
          obtain rfl := Option.some.inj hy
          exact absurd hlt (lt_irrefl _)
      · rcases hbehind with ⟨hall, -⟩ | ⟨y, hy, hlt'⟩
        · rw [(leads_iff hi).1 hall] at hx
          obtain rfl := Option.some.inj hx
          exact absurd hlt (lt_irrefl _)
        · obtain rfl := Option.some.inj (hx.symm.trans hy)
          exact absurd hlt (Nat.lt_asymm hlt')
    rw [(leads_iff hi).1 hr, Option.map_some] at hold
    -- the route that follows, if there is one, comes from another slot than the next one
    have hnext (y : ℕ × RibEntry W) (hy : bestSlot n.filter.pass (b.routes.eraseIdx i) = some y) :
        ∃ m, b.routes[m]? = some y.2 ∧ m ≠ i + 1 := by
      have hslot := (isBest_of_bestSlot hy).slot
      rw [List.getElem?_eraseIdx] at hslot
      split_ifs at hslot with hlt
      · exact ⟨y.1, hslot, by omega⟩
      · refine ⟨y.1 + 1, hslot, fun heq => hfollows (stepsUp_iff.2 ⟨y.2, ?_⟩)⟩
        rw [hy, ← Nat.succ_injective heq]
    have hdiffers : routesEqual (bestOf rib k n.filter.pass) (bestOf rib' k n.filter.pass) = false := by
      rw [hold, hnew]
      cases hy : bestSlot n.filter.pass (b.routes.eraseIdx i) with
      | none => rfl
      | some y =>
        have hmem := List.mem_of_getElem? (isBest_of_bestSlot hy).slot
        exact routesEqual_of_srcPid (srcPid_ne_of_mem_eraseIdx (hinv.bucket _ _ ht).nodup hi hmem)
    refine pointsTrue_of_change hmoved ?_
    rcases hknown with hstays | ⟨hcur, -, hlast⟩ | ⟨hnone, -, hothers⟩
    · exact absurd (hfired.2 hstays) hmoved
    · rw [hcur.seen he hblock, (leads_iff hi).1 hr, Option.map_some, hroutes, List.getElem?_eraseIdx,
        if_neg (lt_irrefl i)]
      cases hx : b.routes[i + 1]? with
      | some x =>
        refine .inr ⟨?_, hdiffers⟩
        rw [hnew, Option.getD_some]
        cases hy : bestSlot n.filter.pass (b.routes.eraseIdx i) with
        | none => rfl
        | some y =>
          obtain ⟨m, hm, hmi⟩ := hnext y hy
          exact routesEqual_of_srcPid (srcPid_ne (hinv.bucket _ _ ht).nodup hx hm hmi.symm)
      | none =>
        rw [Option.getD_none]
        rcases hlast hr (by have := List.getElem?_eq_none_iff.1 hx; omega) with halone | hlinger
        · rw [hnew, bestSlot_eq_none.2 halone] at hdiffers ⊢
          exact .inr ⟨rfl, hdiffers⟩
        · rw [hold]
          exact .inl (hlinger r hi)
    · refine .inr ⟨?_, hdiffers⟩
      rw [hnone, hnew]
      push Not at hothers
      obtain ⟨x, hx, hpx⟩ := hothers
      obtain ⟨y, hy⟩ := exists_bestSlot hx (by simpa using hpx)
      rw [hy]; rfl
  · refine pointsTrue_of_same ?_ fun hmoved => ?_
    · rw [hnew, hold]
      cases hx : bestSlot n.filter.pass b.routes with
      | none => rw [bestSlot_eraseIdx_none hx]
      | some x => rw [bestSlot_eraseIdx hx (slot_ne_of_not hi hr hx)]; rfl
    · rcases hknown with hstays | ⟨hcur, hbefore, -⟩ | ⟨-, hr', -⟩
      · exact absurd (hfired.2 hstays) hmoved
      · rw [hcur.seen_eq he hblock ht fun x hx => ?_]
        · exact routesEqual_refl _
        · have hlt : x.1 < i := lt_of_le_of_ne (hbefore x hx) (slot_ne_of_not hi hr hx)
          rw [hroutes, List.getElem?_eraseIdx, if_pos hlt]
      · exact absurd hr' hr

theorem pointsTrue_of_told (hinv : Rib.Inv rib) (he : Edited rib rib' k b') {edit : RouteEdit W}
    (hd : Done rib k b' edit) (h : Told env k n edit) : PointsTrue rib rib' env k b' n := by
  cases hd with
  | @first e ht hroutes =>
    have hbest : bestSlot (fun _ => true) b'.routes = some (0, e) := by rw [hroutes]; rfl
    refine pointsTrue_of_change ?_ (.inl ?_)
    · rw [he.best, he.prev, ht, hbest]; simp
    · have hnone : n.lastKnown = none := h
      rw [hnone, bestOf, ht]; rfl
  | replace ht hi hsp hcost hroutes hblock => exact pointsTrue_replace hinv he ht hi hsp hroutes hblock h
  | push ht hspare hroutes hblock => exact pointsTrue_push hinv he ht hspare hroutes hblock h
  | drop ht hi hroutes hblock => exact pointsTrue_drop hinv he ht hi hroutes hblock h
  | same ht hroutes hblock =>
    refine pointsTrue_of_same ?_ fun hmoved => absurd ?_ hmoved
    · rw [he.bestOf_eq, bestOf_of_table ht, hroutes]
    · rw [he.bestEntry_eq_iff hinv ht hblock, hroutes]

end

/-! ## Runs -/

theorem keyOf_opKey {op : Rib.Op W} {k : PrefixKey W} (h : opKey op = some k) :
    Rib.keyOf k.1 k.2 = k := by
  cases op with
  | install e => cases h; exact Rib.keyOf_keyOf ..
  | withdraw pfx length src pid => cases h; exact Rib.keyOf_keyOf ..
  | clear => cases h

theorem prefixReported_step (s : RibSystem W) (e : Event W) (hinv : Rib.Inv s.rib)
    (hok : prefixOk s e) : PrefixReported s e := by
  unfold PrefixReported
  split
  · rename_i env op ts hq
    intro k hk
    rw [Option.mem_def] at hk
    have hok' := hok (.rib op) (by rw [hq]; rfl)
    simp only [prefixCalls, calls, step, exec_rib hq]
    cases hb : announced s.rib op with
    | none =>
      have hbest : ∀ p, bestOf (s.rib.step op) k p = bestOf s.rib k p := by
        intro p; rw [bestOf, bestOf, table_unannounced hk hb]
      simp only [execOp_unannounced hk hb, prefixChanges, hbest, routesEqual_refl]
      refine (List.filterMap_eq_nil_iff.2 fun x _ => ?_).symm
      cases x.2.fn <;> simp
    | some b =>
      have he := edited_announced hk hb
      obtain ⟨edit, hedit, hd⟩ := announced_edit hinv hk hb
      rw [execOp_announced hk hb, callsOf_announceRouteChange (keyOf_opKey hk), List.map_filterMap,
        prefixChanges]
      refine List.filterMap_congr fun x hx => ?_
      by_cases hxk : x.1 = k
      · simp only [hxk, if_true, true_and]
        exact nodeCall_changed he fun hc hproxy =>
          pointsTrue_of_told hinv he hd (hok' k hk edit hedit x hx hxk hc hproxy)
      · simp only [hxk, if_false, false_and, Option.map_none]
        cases x.2.fn <;> rfl
  · rename_i h
    rw [calls_other h]; rfl

/-- **Every change of a filtered best route is reported** to the watches of the prefix,
    once, and nothing else is, along every run in which they are told. -/
theorem prefixReported_run (es : List (Event W)) (h : Run.Along prefixOk step ({} : RibSystem W) es) :
    Run.Along PrefixReported step ({} : RibSystem W) es :=
  Run.Along.imp_of_invariant (fun s e hinv _ => ribInv_step s e hinv)
    prefixReported_step (Rib.inv_run []) h

/-- Routes appear, are displaced and disappear; the memory that is freed shows them still. -/
theorem prefixReported_run_moves : Run.Along PrefixReported step ({} : RibSystem 32)
    [.call (.watchRoute 0x0A000000 8 7 0 {}) (.plain false), .exec (.plain false),
     .call (.rib (.install ⟨0x0A000000, 8, .BGP, 1, 20, 0, 0, []⟩)) (.plain false),
     .exec (.plain false),
     .call (.watchRoute 0x0A000000 8 8 0 ⟨some .STATIC, none⟩) (.plain false), .exec (.plain false),
     .call (.rib (.install ⟨0x0A000000, 8, .STATIC, 0, 1, 0, 0, []⟩)) (.plain false),
     .exec { Env.plain false with freed := fun _ => ⟨0x0A000000, 8, .BGP, 1, 20, 0, 0, []⟩ },
     .call (.rib (.withdraw 0x0A000000 8 .STATIC 0)) (.plain false),
     .exec { Env.plain false with freed := fun _ => ⟨0x0A000000, 8, .STATIC, 0, 1, 0, 0, []⟩ },
     .call (.rib (.withdraw 0x0A000000 8 .BGP 1)) (.plain false), .exec (.plain false)] :=
  prefixReported_run _ (by decide +kernel)

/-- A route that replaces the best one in its slot is not reported. -/
theorem not_prefixReported_replaced : ¬ Run.Along PrefixReported step ({} : RibSystem 32)
    [.call (.watchRoute 0x0A000000 8 7 0 {}) (.plain false), .exec (.plain false),
     .call (.rib (.install ⟨0x0A000000, 8, .BGP, 1, 20, 0, 0, []⟩)) (.plain false),
     .exec (.plain false),
     .call (.rib (.install ⟨0x0A000000, 8, .BGP, 1, 20, 5, 0, []⟩)) (.plain false),
     .exec (.plain false)] := by
  decide +kernel

end RibSystem

end VirtualRouter
