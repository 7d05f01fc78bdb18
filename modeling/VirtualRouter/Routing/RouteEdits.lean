/-
  What a call of the RIB does to the routes of a prefix, told from the routes before it.

  A route is put over the one that its process has, behind the last one, or a route is
  taken out and those behind it move up (`RouteEdit`).  Where the best route stands
  afterwards follows from a comparison with the other routes (`LeadsAt`).

  * `bestSlot_set`, `bestSlot_concat`, `bestSlot_eraseIdx`: the best route after an edit;
  * `announced_edit`: a call announces the bucket with its edit done.
-/
import VirtualRouter.Routing.WatchCalls

namespace VirtualRouter

/-! ## The best route after an edit -/

section
variable {W : ℕ} {p : RibEntry W → Bool} {rs : List (RibEntry W)} {e r : RibEntry W} {i m : ℕ}

/-- In slot `i`, `e` is the best of the routes that pass `p`, with the routes `rs` in the other
    slots. -/
def LeadsAt (p : RibEntry W → Bool) (rs : List (RibEntry W)) (i : ℕ) (e : RibEntry W) : Prop :=
  p e = true ∧ (∀ r ∈ rs.take i, p r = true → e.better r) ∧
    ∀ r ∈ rs.drop (i + 1), p r = true → ¬ r.better e

instance (p : RibEntry W → Bool) (rs : List (RibEntry W)) (i : ℕ) (e : RibEntry W) :
    Decidable (LeadsAt p rs i e) := by unfold LeadsAt; infer_instance

theorem IsBest.unique (h : IsBest p rs i r) (h' : IsBest p rs m e) : (i, r) = (m, e) := by
  rcases lt_trichotomy i m with hlt | rfl | hlt
  · exact absurd (h'.first _ _ hlt h.slot h.pass) (h.min _ _ h'.slot h'.pass)
  · rw [Option.some.inj (h.slot.symm.trans h'.slot)]
  · exact absurd (h.first _ _ hlt h'.slot h'.pass) (h'.min _ _ h.slot h.pass)

theorem bestSlot_eq_some_iff {x : ℕ × RibEntry W} : bestSlot p rs = some x ↔ IsBest p rs x.1 x.2 := by
  refine ⟨isBest_of_bestSlot, fun h => ?_⟩
  cases hy : bestSlot p rs with
  | none =>
    have hfail := bestSlot_eq_none.1 hy _ (List.mem_of_getElem? h.slot)
    rw [h.pass] at hfail
    cases hfail
  | some y => exact congrArg some ((isBest_of_bestSlot hy).unique h)

theorem exists_bestSlot (hr : r ∈ rs) (hp : p r = true) : ∃ x, bestSlot p rs = some x := by
  refine Option.ne_none_iff_exists'.1 fun hnone => ?_
  rw [bestSlot_eq_none.1 hnone r hr] at hp
  cases hp

theorem leads_iff (h : rs[i]? = some e) : LeadsAt p rs i e ↔ bestSlot p rs = some (i, e) := by
  rw [bestSlot_eq_some_iff]
  constructor
  · rintro ⟨hpass, hbefore, hbehind⟩
    have hfirst : ∀ (j : ℕ) (r' : RibEntry W), j < i → rs[j]? = some r' → p r' = true →
        e.better r' := fun j r' hj hr' =>
      hbefore r' (List.mem_of_getElem? (by rw [List.getElem?_take_of_lt hj]; exact hr'))
    refine ⟨h, hpass, fun j r' hr' hp => ?_, hfirst⟩
    rcases lt_trichotomy j i with hlt | rfl | hlt
    · exact RibEntry.better_asymm (hfirst j r' hlt hr' hp)
    · obtain rfl := Option.some.inj (h.symm.trans hr')
      exact RibEntry.better_irrefl _
    · refine hbehind r' (List.mem_of_getElem? (i := j - (i + 1)) ?_) hp
      rw [List.getElem?_drop, Nat.add_sub_cancel' hlt]
      exact hr'
  · intro hbest
    refine ⟨hbest.pass, fun r' hr' hp => ?_, fun r' hr' hp => ?_⟩
    · obtain ⟨j, hj⟩ := List.getElem?_of_mem hr'
      rw [List.getElem?_take] at hj
      split_ifs at hj with hlt
      exact hbest.first j r' hlt hj hp
    · obtain ⟨j, hj⟩ := List.getElem?_of_mem hr'
      rw [List.getElem?_drop] at hj
      exact hbest.min _ r' hj hp

theorem leads_set : LeadsAt p (rs.set i r) i e ↔ LeadsAt p rs i e := by
  rw [LeadsAt, List.take_set_of_le le_rfl, List.drop_set_of_lt (Nat.lt_succ_self i), LeadsAt]

theorem bestSlot_set (hi : i < rs.length) (he : LeadsAt p rs i e) :
    bestSlot p (rs.set i e) = some (i, e) :=
  (leads_iff (List.getElem?_set_self hi)).1 (leads_set.2 he)

theorem slot_ne_of_not (hi : rs[i]? = some r) (hr : ¬ LeadsAt p rs i r) {x : ℕ × RibEntry W}
    (hx : bestSlot p rs = some x) : x.1 ≠ i := by
  rintro rfl
  have hslot := (isBest_of_bestSlot hx).slot
  rw [hi] at hslot
  obtain rfl := Option.some.inj hslot
  exact hr ((leads_iff hi).2 hx)

theorem bestSlot_set_of_ne (hlen : i < rs.length) {x : ℕ × RibEntry W} (hx : bestSlot p rs = some x)
    (hne : x.1 ≠ i) (he : ¬ LeadsAt p rs i e) : bestSlot p (rs.set i e) = some x := by
  have hb := isBest_of_bestSlot hx
  have hslot : (rs.set i e)[x.1]? = some x.2 := by rw [List.getElem?_set_ne hne.symm]; exact hb.slot
  cases hy : bestSlot p (rs.set i e) with
  | none =>
    have hfail := bestSlot_eq_none.1 hy _ (List.mem_of_getElem? hslot)
    rw [hb.pass] at hfail
    cases hfail
  | some y =>
    have hyb := isBest_of_bestSlot hy
    have hyi := slot_ne_of_not (List.getElem?_set_self hlen) (mt leads_set.1 he) hy
    have hyslot := hyb.slot
    rw [List.getElem?_set_ne hyi.symm] at hyslot
    rcases lt_trichotomy x.1 y.1 with hlt | heq | hlt
    · exact absurd (hyb.first _ _ hlt hslot hb.pass) (hb.min _ _ hyslot hyb.pass)
    · rw [← heq, hb.slot] at hyslot
      exact congrArg some (Prod.ext heq.symm (Option.some.inj hyslot).symm)
    · exact absurd (hb.first _ _ hlt hyslot hyb.pass) (hyb.min _ _ hslot hb.pass)

theorem bestSlot_set_of_not (hi : rs[i]? = some r) (hr : ¬ LeadsAt p rs i r) (he : ¬ LeadsAt p rs i e) :
    bestSlot p (rs.set i e) = bestSlot p rs := by
  obtain ⟨hlen, hget⟩ := List.getElem?_eq_some_iff.1 hi
  cases hx : bestSlot p rs with
  | some x => exact bestSlot_set_of_ne hlen hx (slot_ne_of_not hi hr hx) he
  | none =>
    cases hy : bestSlot p (rs.set i e) with
    | none => rfl
    | some y =>
      -- put back, the route would leave the same best one
      have hback := bestSlot_set_of_ne (e := r) (by rw [List.length_set]; exact hlen) hy
        (slot_ne_of_not (List.getElem?_set_self hlen) (mt leads_set.1 he) hy) (mt leads_set.1 hr)
      rw [List.set_set, ← hget, List.set_getElem_self, hx] at hback
      cases hback

theorem bestFrom_concat {best : Option (ℕ × RibEntry W)} :
    bestFrom p (rs ++ [e]) i best = consider p (i + rs.length) e (bestFrom p rs i best) := by
  induction rs generalizing i best with
  | nil => rfl
  | cons r rs ih =>
    rw [List.cons_append, bestFrom, ih, List.length_cons, bestFrom]
    congr 1
    omega

theorem bestSlot_concat : bestSlot p (rs ++ [e]) =
    if LeadsAt p rs rs.length e then some (rs.length, e) else bestSlot p rs := by
  rw [bestSlot, bestFrom_concat, Nat.zero_add, ← bestSlot, consider]
  refine if_congr ?_ rfl rfl
  rw [LeadsAt, List.take_length, List.drop_eq_nil_of_le (Nat.le_succ _)]
  refine and_congr_right fun _ => ?_
  cases hx : bestSlot p rs with
  | none =>
    simp only [Option.all_none, List.not_mem_nil, false_imp_iff, implies_true, and_true, true_iff]
    intro r hr hp
    rw [bestSlot_eq_none.1 hx r hr] at hp
    cases hp
  | some x =>
    have hb := isBest_of_bestSlot hx
    simp only [Option.all_some, decide_eq_true_eq, List.not_mem_nil, false_imp_iff, implies_true,
      and_true]
    constructor
    · intro h r hr hp
      obtain ⟨j, hj⟩ := List.getElem?_of_mem hr
      exact RibEntry.better_trans h (hb.min j r hj hp)
    · exact fun h => h x.2 (List.mem_of_getElem? hb.slot) hb.pass

theorem bestSlot_eraseIdx {x : ℕ × RibEntry W} (hx : bestSlot p rs = some x) (hne : x.1 ≠ i) :
    bestSlot p (rs.eraseIdx i) = some (if x.1 < i then x.1 else x.1 - 1, x.2) := by
  have hb := isBest_of_bestSlot hx
  have hget (j : ℕ) : (rs.eraseIdx i)[j]? = rs[if j < i then j else j + 1]? := by
    rw [List.getElem?_eraseIdx]
    split_ifs <;> rfl
  rw [bestSlot_eq_some_iff]
  refine ⟨?_, hb.pass, fun j r' hj hp => ?_, fun j r' hlt hj hp => ?_⟩
  · rw [hget, ← hb.slot]
    congr 1
    dsimp only
    split_ifs <;> omega
  · rw [hget] at hj
    exact hb.min _ r' hj hp
  · rw [hget] at hj
    refine hb.first _ r' ?_ hj hp
    dsimp only at hlt
    split_ifs at hlt ⊢ <;> omega

theorem bestSlot_eraseIdx_none (hx : bestSlot p rs = none) : bestSlot p (rs.eraseIdx i) = none := by
  rw [bestSlot_eq_none] at hx ⊢
  exact fun r hr => hx r (List.mem_of_mem_eraseIdx hr)

/-- With the route of slot `i` taken out, the one behind it is the best and moves into its slot. -/
def StepsUp (p : RibEntry W → Bool) (rs : List (RibEntry W)) (i : ℕ) : Prop :=
  ∃ x ∈ rs[i + 1]?, LeadsAt p (rs.eraseIdx i) i x

instance (p : RibEntry W → Bool) (rs : List (RibEntry W)) (i : ℕ) : Decidable (StepsUp p rs i) := by
  unfold StepsUp; infer_instance

theorem stepsUp_iff : StepsUp p rs i ↔ ∃ x, bestSlot p (rs.eraseIdx i) = some (i, x) := by
  have hget : (rs.eraseIdx i)[i]? = rs[i + 1]? := by
    rw [List.getElem?_eraseIdx, if_neg (lt_irrefl i)]
  constructor
  · rintro ⟨x, hx, hlead⟩
    exact ⟨x, (leads_iff (hget.trans hx)).1 hlead⟩
  · rintro ⟨x, hx⟩
    have hslot := (isBest_of_bestSlot hx).slot
    exact ⟨x, hget.symm.trans hslot, (leads_iff hslot).2 hx⟩

theorem LeadsAt.of_any (h : LeadsAt (fun _ => true) rs i e) (hp : p e = true) : LeadsAt p rs i e :=
  ⟨hp, fun r hr _ => h.2.1 r hr rfl, fun r hr _ => h.2.2 r hr rfl⟩

theorem slot_set_iff (hi : rs[i]? = some r) :
    (bestSlot p (rs.set i e)).map Prod.fst = (bestSlot p rs).map Prod.fst ↔
      (LeadsAt p rs i r ↔ LeadsAt p rs i e) := by
  have hlen := (List.getElem?_eq_some_iff.1 hi).1
  by_cases hr : LeadsAt p rs i r <;> by_cases he : LeadsAt p rs i e
  · rw [bestSlot_set hlen he, (leads_iff hi).1 hr]
    exact iff_of_true rfl (iff_of_true hr he)
  · refine iff_of_false (fun hslot => ?_) fun h => he (h.1 hr)
    rw [(leads_iff hi).1 hr] at hslot
    obtain ⟨x, hx, hxi⟩ := Option.map_eq_some_iff.1 hslot
    exact slot_ne_of_not (List.getElem?_set_self hlen) (mt leads_set.1 he) hx hxi
  · refine iff_of_false (fun hslot => ?_) fun h => hr (h.2 he)
    rw [bestSlot_set hlen he] at hslot
    obtain ⟨x, hx, hxi⟩ := Option.map_eq_some_iff.1 hslot.symm
    exact slot_ne_of_not hi hr hx hxi
  · rw [bestSlot_set_of_not hi hr he]
    exact iff_of_true rfl (iff_of_false hr he)

/-- The best route keeps its slot when a route behind it is taken out, or when the one behind it
    follows, and only then. -/
theorem slot_eraseIdx_iff (hi : rs[i]? = some r) :
    (bestSlot (fun _ => true) (rs.eraseIdx i)).map Prod.fst = (bestSlot (fun _ => true) rs).map Prod.fst ↔
      LeadsAt (fun _ => true) rs i r ∧ StepsUp (fun _ => true) rs i ∨
        ∃ x ∈ bestSlot (fun _ => true) rs, x.1 < i := by
  rw [leads_iff hi, stepsUp_iff]
  cases hx : bestSlot (fun _ => true) rs with
  | none =>
    have hfail := bestSlot_eq_none.1 hx r (List.mem_of_getElem? hi)
    cases hfail
  | some x =>
    obtain ⟨j, y⟩ := x
    by_cases hj : j = i
    · subst hj
      obtain rfl := Option.some.inj ((isBest_of_bestSlot hx).slot.symm.trans hi)
      simp only [Option.map_some, Option.map_eq_some_iff, Option.mem_some_iff]
      constructor
      · rintro ⟨z, hz, hzj⟩
        exact .inl ⟨trivial, z.2, by rw [hz, ← hzj]⟩
      · rintro (⟨-, z, hz⟩ | ⟨z, rfl, hlt⟩)
        · exact ⟨_, hz, rfl⟩
        · exact absurd hlt (lt_irrefl _)
    · rw [bestSlot_eraseIdx hx hj]
      simp only [Option.map_some, Option.some.injEq, Prod.mk.injEq, Option.mem_def]
      constructor
      · intro hslot
        refine .inr ⟨_, rfl, ?_⟩
        split_ifs at hslot with hlt
        · exact hlt
        · omega
      · rintro (⟨⟨h, -⟩, -⟩ | ⟨z, rfl, hlt⟩)
        · exact absurd h hj
        · rw [if_pos hlt]

/-! ## Routes of different processes -/

theorem srcPid_of_routesEqual (h : routesEqual (some e) (some r) = true) : e.srcPid = r.srcPid := by
  have hattrs := routesEqual_iff.1 h
  simp only [Option.map_some, Option.some.injEq, RibEntry.attrs, Prod.mk.injEq] at hattrs
  exact Prod.ext hattrs.2.2.1 hattrs.2.2.2.1

theorem routesEqual_of_srcPid (h : e.srcPid ≠ r.srcPid) : routesEqual (some e) (some r) = false :=
  Bool.not_eq_true _ ▸ mt srcPid_of_routesEqual h

theorem routesEqual_of_cost (h : ¬ e.sameCost r) : routesEqual (some r) (some e) = false := by
  refine Bool.not_eq_true _ ▸ fun heq => h ?_
  have hattrs := routesEqual_iff.1 heq
  simp only [Option.map_some, Option.some.injEq, RibEntry.attrs, Prod.mk.injEq] at hattrs
  exact ⟨hattrs.2.1, congrArg List.length hattrs.2.2.2.2, hattrs.1⟩

theorem srcPid_ne (hnd : (rs.map RibEntry.srcPid).Nodup) (hi : rs[i]? = some r) (hm : rs[m]? = some e)
    (hne : i ≠ m) : r.srcPid ≠ e.srcPid := by
  intro heq
  have hlen := (List.getElem?_eq_some_iff.1 hi).1
  refine hne ((List.getElem?_inj (by rw [List.length_map]; exact hlen) hnd).1 ?_)
  rw [List.getElem?_map, List.getElem?_map, hi, hm, Option.map_some, Option.map_some, heq]

theorem filter_srcPid (hnd : (rs.map RibEntry.srcPid).Nodup) (hi : rs[i]? = some r) :
    (rs.filter fun x => x.srcPid ≠ r.srcPid) = rs.eraseIdx i := by
  induction rs generalizing i with
  | nil => cases hi
  | cons x rs ih =>
    rw [List.map_cons, List.nodup_cons] at hnd
    cases i with
    | zero =>
      obtain rfl := Option.some.inj hi
      rw [List.filter_cons_of_neg (by simp), List.eraseIdx_cons_zero, List.filter_eq_self]
      intro y hy
      exact decide_eq_true fun heq => hnd.1 (heq ▸ List.mem_map_of_mem hy)
    | succ i =>
      rw [List.getElem?_cons_succ] at hi
      rw [List.filter_cons_of_pos, ih hnd.2 hi, List.eraseIdx_cons_succ]
      exact decide_eq_true fun heq => hnd.1 (heq ▸ List.mem_map_of_mem (List.mem_of_getElem? hi))

theorem srcPid_ne_of_mem_eraseIdx (hnd : (rs.map RibEntry.srcPid).Nodup) (hi : rs[i]? = some r)
    (he : e ∈ rs.eraseIdx i) : r.srcPid ≠ e.srcPid := by
  rw [← filter_srcPid hnd hi, List.mem_filter, decide_eq_true_eq] at he
  exact he.2.symm

end

/-! ## Edits -/

/-- What a call of the RIB does to the routes of its prefix; `b` is the bucket before it. -/
inductive RouteEdit (W : ℕ) where
  /-- the first route of the prefix -/
  | first (e : RibEntry W)
  /-- `e` over the route `r` of its process, in slot `i` -/
  | replace (b : RibBucket W) (i : ℕ) (r e : RibEntry W)
  /-- `e` behind the last route -/
  | push (b : RibBucket W) (e : RibEntry W)
  /-- the route `r` in slot `i` taken out -/
  | drop (b : RibBucket W) (i : ℕ) (r : RibEntry W)
  /-- a withdrawal that finds no route of the process, and is announced -/
  | same (b : RibBucket W)

namespace RibSystem
variable {W : ℕ}

/-- The edit of a call on the prefix `k`, if it is announced. -/
def routeEdit (rib : Rib W) (k : PrefixKey W) : Rib.Op W → Option (RouteEdit W)
  | .install e =>
    match rib.table k with
    | none => some (.first e)
    | some b =>
      match b.routes.findIdx? fun r => r.source = e.source ∧ r.processId = e.processId with
      | none => some (.push b e)
      | some i => (b.routes[i]?).bind fun r => if e.sameCost r then none else some (.replace b i r e)
  | .withdraw _ _ src pid => (rib.table k).map fun b =>
    match b.routes.findIdx? fun r => r.source = src ∧ r.processId = pid with
    | none => .same b
    | some i => ((b.routes[i]?).map (.drop b i)).getD (.same b)
  | .clear => none

/-- What the edit leaves in the bucket `b'`. -/
inductive Done (rib : Rib W) (k : PrefixKey W) (b' : RibBucket W) : RouteEdit W → Prop
  | first {e} (ht : rib.table k = none) (hroutes : b'.routes = [e]) : Done rib k b' (.first e)
  | replace {b i r e} (ht : rib.table k = some b) (hi : b.routes[i]? = some r)
      (hsp : r.srcPid = e.srcPid) (hcost : ¬ e.sameCost r) (hroutes : b'.routes = b.routes.set i e)
      (hblock : b'.block = b.block) : Done rib k b' (.replace b i r e)
  | push {b e} (ht : rib.table k = some b) (hnew : ∀ r ∈ b.routes, r.srcPid ≠ e.srcPid)
      (hroutes : b'.routes = b.routes ++ [e])
      (hblock : b'.block = if b.routes.length < b.capacity then b.block else rib.next) :
      Done rib k b' (.push b e)
  | drop {b i r} (ht : rib.table k = some b) (hi : b.routes[i]? = some r)
      (hroutes : b'.routes = b.routes.eraseIdx i) (hblock : b'.block = b.block) :
      Done rib k b' (.drop b i r)
  | same {b} (ht : rib.table k = some b) (hroutes : b'.routes = b.routes)
      (hblock : b'.block = b.block) : Done rib k b' (.same b)

theorem srcPid_eq_iff {r : RibEntry W} {src : RouteSource} {pid : ℕ} :
    r.srcPid = (src, pid) ↔ r.source = src ∧ r.processId = pid := Prod.mk.injEq .. ▸ Iff.rfl

/-- **What is announced**: the bucket with the edit of the call done. -/
theorem announced_edit {rib : Rib W} (hinv : Rib.Inv rib) {op : Rib.Op W} {k : PrefixKey W}
    {b' : RibBucket W} (hk : opKey op = some k) (hb : announced rib op = some b') :
    ∃ edit, routeEdit rib k op = some edit ∧ Done rib k b' edit := by
  cases op with
  | clear => cases hk
  | install e =>
    cases hk
    simp only [announced, Rib.installRoute] at hb
    cases ht : rib.table (Rib.keyOf e.pfx e.length) with
    | none =>
      simp only [ht] at hb
      obtain rfl := Option.some.inj hb
      exact ⟨_, by rw [routeEdit, ht], .first ht rfl⟩
    | some b =>
      simp only [ht, RibBucket.addRoute] at hb
      cases hf : b.routes.findIdx? fun r => r.source = e.source ∧ r.processId = e.processId with
      | none =>
        simp only [hf, if_true] at hb
        obtain rfl := Option.some.inj hb
        refine ⟨.push b e, by simp only [routeEdit, ht, hf], .push ht (fun r hr => ?_) ?_ ?_⟩
        · have hne := List.findIdx?_eq_none_iff.1 hf r hr
          exact fun heq => of_decide_eq_false hne (srcPid_eq_iff.1 heq)
        · exact Rib.routes_pushBack ..
        · show (b.pushBack e rib.next).block = _
          rw [RibBucket.pushBack]
          split_ifs <;> rfl
      | some i =>
        obtain ⟨hlen, hp, -⟩ := List.findIdx?_eq_some_iff_getElem.1 hf
        have hi : b.routes[i]? = some b.routes[i] := List.getElem?_eq_getElem hlen
        simp only [hf, hi, Option.any_some, decide_eq_true_eq] at hb
        by_cases hcost : e.sameCost b.routes[i]
        · rw [if_pos hcost] at hb
          cases hb
        rw [if_neg hcost] at hb
        obtain rfl := Option.some.inj hb
        refine ⟨.replace b i b.routes[i] e, ?_, .replace ht hi ?_ hcost rfl rfl⟩
        · simp only [routeEdit, ht, hf, hi, Option.bind_some, if_neg hcost]
        · exact srcPid_eq_iff.2 (of_decide_eq_true hp)
  | withdraw pfx length src pid =>
    cases hk
    simp only [announced, Rib.withdrawRoute] at hb
    cases ht : rib.table (Rib.keyOf pfx length) with
    | none => simp only [ht] at hb; cases hb
    | some b =>
      have hb' : b' = b.removeRoute src pid rib.next := by
        simp only [ht] at hb
        split_ifs at hb <;> exact (Option.some.inj hb).symm
      have hroutes := Rib.routes_removeRoute b src pid rib.next
      subst hb'
      cases hf : b.routes.findIdx? fun r => r.source = src ∧ r.processId = pid with
      | none =>
        refine ⟨.same b, by simp only [routeEdit, ht, Option.map_some, hf], .same ht ?_ rfl⟩
        rw [hroutes, List.filter_eq_self]
        intro r hr
        exact decide_eq_true fun heq =>
          of_decide_eq_false (List.findIdx?_eq_none_iff.1 hf r hr) (srcPid_eq_iff.1 heq)
      | some i =>
        obtain ⟨hlen, hp, -⟩ := List.findIdx?_eq_some_iff_getElem.1 hf
        have hi : b.routes[i]? = some b.routes[i] := List.getElem?_eq_getElem hlen
        have hsp : b.routes[i].srcPid = (src, pid) := srcPid_eq_iff.2 (of_decide_eq_true hp)
        refine ⟨.drop b i b.routes[i], ?_, .drop ht hi ?_ rfl⟩
        · simp only [routeEdit, ht, Option.map_some, hf, hi, Option.getD_some]
        · rw [hroutes, ← hsp, filter_srcPid (hinv.bucket _ _ ht).nodup hi]

end RibSystem

/-! ## The memory after an edit -/

section
variable {W : ℕ} {rib rib' : Rib W} {k : PrefixKey W} {b b' : RibBucket W}

/-- The slot goes on to show its route when its memory is freed. -/
def Lingers (env : Env W) (k : PrefixKey W) (b : RibBucket W) (i : ℕ) : Prop :=
  ∀ r ∈ b.routes[i]?, routesEqual (some (env.freed (.route k (b.block, i)))) (some r) = true

instance (env : Env W) (k : PrefixKey W) (b : RibBucket W) (i : ℕ) : Decidable (Lingers env k b i) := by
  unfold Lingers; infer_instance

/-- The prefix whose route a pointer shows. -/
def Ptr.key : Ptr W → PrefixKey W
  | .route k _ | .copy k _ => k

theorem read_step_of_ne {op : Rib.Op W} (hk : RibSystem.opKey op = some k) {q : Ptr W}
    (hne : q.key ≠ k) (env : Env W) : read (rib.step op) env q = read rib env q := by
  have htable : (rib.step op).table q.key = rib.table q.key := by
    cases op with
    | clear => cases hk
    | install e =>
      cases hk
      simp only [Rib.step, Rib.installRoute]
      split <;> exact Function.update_of_ne hne _ _
    | withdraw pfx length src pid =>
      cases hk
      simp only [Rib.step, Rib.withdrawRoute]
      split
      · rfl
      · split_ifs <;> exact Function.update_of_ne hne _ _
  cases q <;> (simp only [Ptr.key] at htable; simp only [read, htable])

theorem bestOf_of_table (ht : rib.table k = some b) (p : RibEntry W → Bool) :
    bestOf rib k p = (bestSlot p b.routes).map Prod.snd := by
  rw [bestOf, ht, Option.bind_some]

theorem Edited.read_route (he : Edited rib rib' k b') (env : Env W) (m : ℕ) :
    read rib' env (.route k (b'.block, m)) =
      (b'.routes[m]?).getD (env.freed (.route k (b'.block, m))) := by
  simp only [read, he.table]
  split_ifs with hr
  · rw [hr]; rfl
  · rw [Option.bind_some, if_pos rfl]

/-- A pointer into the memory of the bucket before shows what stands there now, unless the
    bucket has moved: then it shows what is freed. -/
theorem Edited.read_before (he : Edited rib rib' k b') (env : Env W) (i : ℕ) :
    read rib' env (.route k (b.block, i)) = (if b'.block = b.block then b'.routes[i]? else none).getD
      (env.freed (.route k (b.block, i))) := by
  split_ifs with hblock
  · rw [← hblock]; exact he.read_route env i
  · simp only [read, he.table]
    split_ifs
    · rfl
    · rw [Option.bind_some, if_neg hblock]

theorem Edited.prevBest_eq (he : Edited rib rib' k b') (hinv : Rib.Inv rib)
    (ht : rib.table k = some b) :
    b'.prevBest = (bestSlot (fun _ => true) b.routes).map fun x => (b.block, x.1) := by
  rw [he.prev, ht, Option.bind_some, (hinv.bucket _ _ ht).best]

theorem Edited.bestEntry_eq_iff (he : Edited rib rib' k b') (hinv : Rib.Inv rib)
    (ht : rib.table k = some b) (hblock : b'.block = b.block) :
    b'.bestEntry = b'.prevBest ↔ (bestSlot (fun _ => true) b'.routes).map Prod.fst =
      (bestSlot (fun _ => true) b.routes).map Prod.fst := by
  rw [he.best, he.prevBest_eq hinv ht, hblock]
  cases bestSlot (fun _ => true) b'.routes <;> cases bestSlot (fun _ => true) b.routes <;> simp

end

end VirtualRouter
