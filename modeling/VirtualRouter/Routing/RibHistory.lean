/-
  The routing table and the announcements made to it.

  `latestStep` replays the calls on a map that keeps, for every prefix and every
  protocol process, the fields of the last route announced and not withdrawn
  since.  `addRoute` discards an announcement that has the metric, the distance
  and the number of next hops of the stored route, without looking at its tag and
  its next hops; the table is that map exactly as long as no such announcement
  differs there (`announceOk`).
-/
import VirtualRouter.Routing.Rib

namespace VirtualRouter

structure RouteFields (W : ℕ) where
  metric : ℕ
  adminDistance : ℕ
  tag : ℕ
  nextHops : List (NextHopPath W)
  deriving DecidableEq

def RibEntry.fields {W : ℕ} (e : RibEntry W) : RouteFields W :=
  ⟨e.metric, e.adminDistance, e.tag, e.nextHops⟩

namespace Rib
variable {W : ℕ}

/-- For every prefix and process, the last announcement that still stands. -/
abbrev Latest (W : ℕ) := PrefixKey W → SrcPid → Option (RouteFields W)

/-- The announcement of a call. -/
def latestStep (m : Latest W) : Op W → Latest W
  | .install e => Function.update m (keyOf e.pfx e.length)
      (Function.update (m (keyOf e.pfx e.length)) e.srcPid (some e.fields))
  | .withdraw pfx length src pid => Function.update m (keyOf pfx length)
      (Function.update (m (keyOf pfx length)) (src, pid) none)
  | .clear => fun _ _ => none

/-- The routes of a bucket are exactly the announcements `a`, one per process. -/
structure Holds (rs : List (RibEntry W)) (a : SrcPid → Option (RouteFields W)) : Prop where
  nodup : (rs.map RibEntry.srcPid).Nodup
  fields : ∀ sp f, a sp = some f ↔ ∃ r ∈ rs, r.srcPid = sp ∧ r.fields = f

structure Announced (rib : Rib W) (m : Latest W) : Prop where
  routes : ∀ k b, rib.table k = some b → Holds b.routes (m k)
  key : ∀ k, (rib.table k).isSome ↔ ∃ sp, (m k sp).isSome

/-- An announcement at the cost of the stored route repeats its tag and next hops. -/
def announceOk (rib : Rib W) : Op W → Prop
  | .install e => ∀ b ∈ rib.table (keyOf e.pfx e.length), ∀ r ∈ b.routes,
      r.srcPid = e.srcPid → e.sameCost r → r.tag = e.tag ∧ r.nextHops = e.nextHops
  | _ => True

instance (rib : Rib W) (op : Op W) : Decidable (rib.announceOk op) := by
  cases op <;> (unfold announceOk; infer_instance)

/-! ## One bucket -/

section
variable {rs : List (RibEntry W)} {a : SrcPid → Option (RouteFields W)} {e : RibEntry W}

theorem holds_nil : Holds ([] : List (RibEntry W)) (fun _ => none) :=
  ⟨List.nodup_nil, fun sp f => by simp⟩

theorem Holds.eq_of_srcPid (h : Holds rs a) {r r' : RibEntry W} (hr : r ∈ rs) (hr' : r' ∈ rs)
    (hk : r.srcPid = r'.srcPid) : r = r' := List.inj_on_of_nodup_map h.nodup hr hr' hk

theorem Holds.none_iff (h : Holds rs a) : rs = [] ↔ ∀ sp, ¬ (a sp).isSome := by
  constructor
  · rintro rfl sp hs
    obtain ⟨f, hf⟩ := Option.isSome_iff_exists.1 hs
    obtain ⟨r, hr, -⟩ := (h.fields sp f).1 hf
    cases hr
  · intro hn
    refine List.eq_nil_iff_forall_not_mem.2 fun r hr => hn r.srcPid ?_
    rw [(h.fields r.srcPid r.fields).2 ⟨r, hr, rfl, rfl⟩]; rfl

/-- The route of `e` takes the place of the one its process had. -/
theorem Holds.replace {rs' : List (RibEntry W)} (h : Holds rs a)
    (hnd : (rs'.map RibEntry.srcPid).Nodup)
    (hmem : ∀ r, r ∈ rs' ↔ r = e ∨ (r ∈ rs ∧ r.srcPid ≠ e.srcPid)) :
    Holds rs' (Function.update a e.srcPid (some e.fields)) := by
  refine ⟨hnd, fun sp f => ?_⟩
  by_cases hs : sp = e.srcPid
  · subst hs
    rw [Function.update_self, Option.some.injEq]
    constructor
    · rintro rfl
      exact ⟨e, (hmem e).2 (Or.inl rfl), rfl, rfl⟩
    · rintro ⟨r, hr, hk, rfl⟩
      rcases (hmem r).1 hr with rfl | ⟨-, hne⟩
      · rfl
      · exact absurd hk hne
  · rw [Function.update_of_ne hs, h.fields]
    constructor
    · rintro ⟨r, hr, rfl, rfl⟩
      exact ⟨r, (hmem r).2 (Or.inr ⟨hr, hs⟩), rfl, rfl⟩
    · rintro ⟨r, hr, rfl, rfl⟩
      rcases (hmem r).1 hr with rfl | ⟨hr, -⟩
      · exact absurd rfl hs
      · exact ⟨r, hr, rfl, rfl⟩

theorem mem_set_srcPid {i : ℕ} {r : RibEntry W} (hnd : (rs.map RibEntry.srcPid).Nodup)
    (hi : rs[i]? = some r) (hk : r.srcPid = e.srcPid) (r' : RibEntry W) :
    r' ∈ rs.set i e ↔ r' = e ∨ (r' ∈ rs ∧ r'.srcPid ≠ e.srcPid) := by
  have hlt : i < rs.length := (List.getElem?_eq_some_iff.1 hi).1
  constructor
  · intro hr'
    obtain ⟨j, hj⟩ := List.getElem?_of_mem hr'
    rw [List.getElem?_set] at hj
    split_ifs at hj with hij
    · exact Or.inl (Option.some.inj hj).symm
    · refine Or.inr ⟨List.mem_of_getElem? hj, fun hk' => hij ?_⟩
      refine (List.getElem?_inj (by rwa [List.length_map]) hnd).1 ?_
      rw [List.getElem?_map, List.getElem?_map, hi, hj, Option.map_some, Option.map_some, hk, hk']
  · rintro (rfl | ⟨hr', hne⟩)
    · exact List.mem_set hlt _
    · obtain ⟨j, hj⟩ := List.getElem?_of_mem hr'
      have hij : i ≠ j := by
        rintro rfl
        rw [hi, Option.some.injEq] at hj
        exact hne (hj ▸ hk)
      refine List.mem_of_getElem? (i := j) ?_
      rw [List.getElem?_set_ne hij]; exact hj

theorem holds_addRoute {b : RibBucket W} {block copy : ℕ} (h : Holds b.routes a)
    (hok : ∀ r ∈ b.routes, r.srcPid = e.srcPid → e.sameCost r → r.tag = e.tag ∧ r.nextHops = e.nextHops) :
    Holds (b.addRoute e block copy).1.routes (Function.update a e.srcPid (some e.fields)) := by
  rcases addRoute_cases b e block copy with ⟨i, r, hi, hk, hc, ha⟩ | ⟨i, r, hi, hk, -, ha⟩ | ⟨hnew, ha⟩
  · have hr := List.mem_of_getElem? hi
    obtain ⟨htag, hnh⟩ := hok r hr hk hc
    have hf : r.fields = e.fields := by
      rw [RibEntry.fields, RibEntry.fields, hc.1, hc.2.2, htag, hnh]
    have hself : Function.update a e.srcPid (some e.fields) = a := by
      rw [← hf, ← (h.fields e.srcPid r.fields).2 ⟨r, hr, hk, rfl⟩]
      exact Function.update_eq_self _ _
    rw [ha, hself]; exact h
  · rw [ha]
    refine h.replace ?_ (mem_set_srcPid h.nodup hi hk)
    simp only [RibBucket.selectBest, srcPid_set hi hk]; exact h.nodup
  · rw [ha]
    simp only [RibBucket.selectBest, routes_pushBack]
    refine h.replace ?_ fun r => ?_
    · rw [List.map_append, List.map_singleton, ← List.concat_eq_append]
      refine List.Nodup.concat (fun hm => ?_) h.nodup
      obtain ⟨r, hr, hrk⟩ := List.mem_map.1 hm
      exact hnew r hr hrk
    · rw [List.mem_append, List.mem_singleton, or_comm]
      exact or_congr_right ⟨fun hr => ⟨hr, hnew r hr⟩, fun hr => hr.1⟩

theorem not_holds_addRoute {b : RibBucket W} {block copy : ℕ} (h : Holds b.routes a) {r : RibEntry W}
    (hr : r ∈ b.routes) (hk : r.srcPid = e.srcPid) (hc : e.sameCost r)
    (hd : ¬ (r.tag = e.tag ∧ r.nextHops = e.nextHops)) :
    ¬ Holds (b.addRoute e block copy).1.routes (Function.update a e.srcPid (some e.fields)) := by
  intro h'
  obtain ⟨r', hr', hk', hf⟩ := (h'.fields e.srcPid e.fields).1 (Function.update_self ..)
  have hsame : (b.addRoute e block copy).1.routes = b.routes := by
    rcases addRoute_cases b e block copy with ⟨i, r₁, -, -, -, ha⟩ | ⟨i, r₁, hi, hk₁, hc₁, -⟩ | ⟨hnew, -⟩
    · rw [ha]
    · have he := h.eq_of_srcPid (List.mem_of_getElem? hi) hr (hk₁.trans hk.symm)
      rw [he] at hc₁; exact absurd hc hc₁
    · exact absurd hk (hnew r hr)
  rw [hsame] at hr'
  have he := h.eq_of_srcPid hr' hr (hk'.trans hk.symm)
  subst he
  rw [RibEntry.fields, RibEntry.fields, RouteFields.mk.injEq] at hf
  exact hd ⟨hf.2.2.1, hf.2.2.2⟩

theorem holds_removeRoute {b : RibBucket W} (h : Holds b.routes a) (src : RouteSource) (pid copy : ℕ) :
    Holds (b.removeRoute src pid copy).routes (Function.update a (src, pid) none) := by
  rw [routes_removeRoute]
  refine ⟨h.nodup.sublist (List.Sublist.map _ List.filter_sublist), fun sp f => ?_⟩
  simp only [List.mem_filter, decide_eq_true_eq, Function.update_apply]
  split_ifs with hs
  · subst hs
    refine iff_of_false (by simp) ?_
    rintro ⟨r, ⟨-, hne⟩, hk, -⟩
    exact hne hk
  · rw [h.fields]
    constructor
    · rintro ⟨r, hr, rfl, rfl⟩
      exact ⟨r, ⟨hr, hs⟩, rfl, rfl⟩
    · rintro ⟨r, ⟨hr, -⟩, rfl, rfl⟩
      exact ⟨r, hr, rfl, rfl⟩

end

/-! ## The table -/

theorem Announced.holds {rib : Rib W} {m : Latest W} (h : Announced rib m) (k : PrefixKey W)
    (hk : rib.table k = none) : m k = fun _ => none := by
  funext sp
  by_contra hne
  have := (h.key k).2 ⟨sp, Option.isSome_iff_ne_none.2 hne⟩
  rw [hk] at this; cases this

theorem announced_update {rib : Rib W} {m : Latest W} (h : Announced rib m) {k : PrefixKey W}
    {a : SrcPid → Option (RouteFields W)} {b : Option (RibBucket W)}
    {fib : PrefixMap.PMap (BitVec W) (PrefixKey W)} {next : ℕ}
    (hb : ∀ b' ∈ b, Holds b'.routes a ∧ b'.routes ≠ []) (hnone : b = none → ∀ sp, ¬ (a sp).isSome) :
    Announced { table := Function.update rib.table k b, fib, next } (Function.update m k a) := by
  refine ⟨fun k' b' hk' => ?_, fun k' => ?_⟩
  · simp only [Function.update_apply] at hk' ⊢
    split_ifs at hk' ⊢ with he
    · exact (hb b' hk').1
    · exact h.routes k' b' hk'
  · simp only [Function.update_apply]
    split_ifs with he
    · cases b with
      | none => exact iff_of_false (by simp) fun ⟨sp, hsp⟩ => hnone rfl sp hsp
      | some b' =>
        obtain ⟨hh, hne⟩ := hb b' rfl
        refine iff_of_true rfl ?_
        by_contra hc
        exact hne (hh.none_iff.2 fun sp hsp => hc ⟨sp, hsp⟩)
    · exact h.key k'

theorem addRoute_ne_nil (b : RibBucket W) (e : RibEntry W) (block copy : ℕ) :
    (b.addRoute e block copy).1.routes ≠ [] := by
  rcases addRoute_cases b e block copy with ⟨i, r, hi, -, -, ha⟩ | ⟨i, r, hi, -, -, ha⟩ | ⟨-, ha⟩
  · rw [ha]; exact List.ne_nil_of_mem (List.mem_of_getElem? hi)
  · rw [ha]; simpa [RibBucket.selectBest] using List.ne_nil_of_mem (List.mem_of_getElem? hi)
  · rw [ha]; simp [RibBucket.selectBest, routes_pushBack]

theorem announced_step {rib : Rib W} {m : Latest W} (h : Announced rib m) {op : Op W}
    (hok : rib.announceOk op) : Announced (rib.step op) (latestStep m op) := by
  cases op with
  | install e =>
    simp only [step, installRoute, latestStep]
    cases hb : rib.table (keyOf e.pfx e.length) with
    | none =>
      refine announced_update h (fun b' hb' => ?_) (by simp)
      cases hb'
      rw [h.holds _ hb]
      exact ⟨holds_addRoute holds_nil (by simp), addRoute_ne_nil _ _ _ _⟩
    | some b =>
      refine announced_update h (fun b' hb' => ?_) (by simp)
      cases hb'
      exact ⟨holds_addRoute (h.routes _ _ hb) (hok b hb), addRoute_ne_nil _ _ _ _⟩
  | withdraw pfx length src pid =>
    simp only [step, withdrawRoute, latestStep]
    cases hb : rib.table (keyOf pfx length) with
    | none =>
      rw [h.holds _ hb, Function.update_eq_self_iff.2 rfl, ← h.holds _ hb, Function.update_eq_self]
      exact h
    | some b =>
      have hh := holds_removeRoute (h.routes _ _ hb) src pid rib.next
      simp only
      split_ifs with hemp
      · refine announced_update h (by simp) fun _ => ?_
        exact hh.none_iff.1 (empty_removeRoute.1 hemp)
      · refine announced_update h (fun b' hb' => ?_) (by simp)
        cases hb'
        exact ⟨hh, fun hnil => hemp (empty_removeRoute.2 hnil)⟩
  | clear => exact ⟨fun k b hk => by (cases hk), fun k => by simp [step, clear, latestStep]⟩

theorem not_announced_step {rib : Rib W} {m : Latest W} (h : Announced rib m) {op : Op W}
    (hok : ¬ rib.announceOk op) : ¬ Announced (rib.step op) (latestStep m op) := by
  cases op with
  | install e =>
    intro h'
    simp only [announceOk, not_forall] at hok
    obtain ⟨b, hb, r, hr, hk, hc, hd⟩ := hok
    have hb : rib.table (keyOf e.pfx e.length) = some b := hb
    simp only [step, installRoute, latestStep, hb] at h'
    have hh := h'.routes (keyOf e.pfx e.length) _ (Function.update_self ..)
    rw [Function.update_self] at hh
    exact not_holds_addRoute (h.routes _ _ hb) hr hk hc hd hh
  | withdraw => exact absurd trivial hok
  | clear => exact absurd trivial hok

theorem announced_nil : Announced ({} : Rib W) (fun _ _ => none) :=
  ⟨fun k b hk => by (cases hk), fun k => by simp⟩

/-- **The routing table is the map of latest announcements** in every state of a
    run exactly when no announcement of the run that repeats the cost of the
    stored route changes its tag or its next hops. -/
theorem announced_iff (ops : List (Op W)) :
    (∀ ops', ops' <+: ops → Announced (Run.runFrom step ({} : Rib W) ops')
      (Run.runFrom latestStep (fun _ _ => none) ops')) ↔
    Run.Along announceOk step ({} : Rib W) ops := by
  have hstep (rib : Rib W) (m : Latest W) (op : Op W) (hR : Announced rib m) (hok : rib.announceOk op) :
      Announced (rib.step op) (latestStep m op) := announced_step hR hok
  exact Run.Along.simulation_iff hstep (fun _ _ hR => hR) (fun _ _ _ hR hbad => not_announced_step hR hbad)
    announced_nil ops

/-- Two announcements of `10.0.0.0/8` that differ in their gateway only: the
    second is dropped. -/
theorem not_announced_gateway :
    ¬ ∀ ops', ops' <+: [Op.install (W := 32) ⟨0x0A000000, 8, .STATIC, 0, 1, 0, 0, [⟨some 1, 1, 1⟩]⟩,
        Op.install ⟨0x0A000000, 8, .STATIC, 0, 1, 0, 0, [⟨some 2, 1, 1⟩]⟩] →
      Announced (Run.runFrom step {} ops') (Run.runFrom latestStep (fun _ _ => none) ops') := by
  intro h
  have hlast := h _ List.prefix_rfl
  have hb := hlast.routes (0x0A000000, 8) _ rfl
  have hf := hb.fields (.STATIC, 0) ⟨0, 1, 0, [⟨some 2, 1, 1⟩]⟩
  revert hf
  decide +kernel

end Rib

end VirtualRouter
