/-
  What the recomputation of a prefix, and the edits of Adj-RIB-In before it, do
  to each prefix.

  * `decision_eq_none_iff`: there is a best route iff there is a candidate;
  * `SameAt`: nothing that belongs to a prefix differs, which holds of the
    recomputation of every other prefix and of every edit of other routes;
  * `takeUpdate_touched`: an UPDATE touches what it withdraws and what the policy
    accepts of its announcements.
-/
import VirtualRouter.Bgp.AdjRibOut

namespace VirtualRouter.Bgp

open EntryTable Run

variable {ν : Type} [DecidableEq ν]

namespace AddressFamilyInstance

/-! ## The candidates -/

/-- The prefix has a route in Adj-RIB-In or a network route. -/
def HasCandidate (s : AddressFamilyInstance ν) (n : ν) : Prop :=
  (∃ k ∈ s.adjRibIn.keys, k.path.nlri = n) ∨ s.networkLocalRoutes.lookup n ≠ none

section Decision
variable (cfg : Config ν) (o : Oracle ν) (s : AddressFamilyInstance ν)

/-- One round of the loop of `groupBests`. -/
def groupRound (c : BestPathComparator) (t : Table UInt32 InboundRoute) (r : InboundRoute) :
    Table UInt32 InboundRoute :=
  match t.lookup (groupAs r) with
  | none => t.insert (groupAs r) r
  | some best => if c.prefers r best then t.insert (groupAs r) r else t

theorem groupBests_eq (c : BestPathComparator) (rs : List InboundRoute) :
    groupBests c rs = rs.foldl (groupRound c) ∅ := rfl

theorem groupRound_eq (c : BestPathComparator) (t : Table UInt32 InboundRoute) (r : InboundRoute) :
    groupRound c t r = t.insert (groupAs r) r ∨ (groupAs r ∈ t ∧ groupRound c t r = t) := by
  unfold groupRound
  cases hlookup : t.lookup (groupAs r) with
  | none => exact .inl rfl
  | some best =>
    have hmem : groupAs r ∈ t := AList.lookup_isSome.1 (by rw [hlookup]; rfl)
    simp only
    split
    · exact .inl rfl
    · exact .inr ⟨hmem, rfl⟩

theorem mem_foldl_groupRound (c : BestPathComparator) {g : UInt32} (rs : List InboundRoute)
    {t : Table UInt32 InboundRoute} (h : g ∈ t ∨ ∃ r ∈ rs, groupAs r = g) :
    g ∈ rs.foldl (groupRound c) t := by
  induction rs generalizing t with
  | nil => simpa using h
  | cons r rs ih =>
    refine ih ?_
    rcases h with h | ⟨x, hx, rfl⟩
    · left
      rcases groupRound_eq c t r with heq | ⟨-, heq⟩
      · rw [heq]
        exact (AList.mem_insert t).2 (.inr h)
      · rw [heq]
        exact h
    · rcases List.mem_cons.1 hx with rfl | hx
      · left
        rcases groupRound_eq c t x with heq | ⟨hmem, heq⟩
        · rw [heq]
          exact (AList.mem_insert t).2 (.inl rfl)
        · rw [heq]
          exact hmem
      · exact .inr ⟨x, hx, rfl⟩

theorem lookup_foldl_groupRound (c : BestPathComparator) {g : UInt32} {r : InboundRoute}
    (rs : List InboundRoute) {t : Table UInt32 InboundRoute}
    (h : (rs.foldl (groupRound c) t).lookup g = some r) : t.lookup g = some r ∨ r ∈ rs := by
  induction rs generalizing t with
  | nil => exact .inl h
  | cons x rs ih =>
    rcases ih h with h | h
    · rcases groupRound_eq c t x with heq | ⟨-, heq⟩
      · rw [heq] at h
        by_cases hg : g = groupAs x
        · subst hg
          rw [AList.lookup_insert] at h
          obtain rfl := Option.some.inj h
          exact .inr (.head _)
        · rw [AList.lookup_insert_ne hg] at h
          exact .inl h
      · rw [heq] at h
        exact .inl h
    · exact .inr (.tail _ h)

theorem mem_contenders {n : ν} {r : InboundRoute} (hr : r ∈ s.contenders cfg o n) :
    r ∈ s.candidates o n := by
  unfold contenders at hr
  split at hr
  · obtain ⟨e, he, rfl⟩ := List.mem_map.1 ((o.order_perm _).mem_iff.1 hr)
    rw [groupBests_eq] at he
    exact (lookup_foldl_groupRound _ _ (AList.mem_lookup_iff.2 he)).resolve_left (by simp)
  · exact hr

theorem contenders_eq_nil_iff (n : ν) : s.contenders cfg o n = [] ↔ s.candidates o n = [] := by
  refine ⟨fun h => ?_, fun h => ?_⟩
  · by_contra hne
    obtain ⟨r, hr⟩ := List.exists_mem_of_ne_nil _ hne
    unfold contenders at h
    split at h
    · have hmem : groupAs r ∈ groupBests (comparator cfg) (s.candidates o n) :=
        mem_foldl_groupRound _ _ (.inr ⟨r, hr, rfl⟩)
      obtain ⟨best, hbest⟩ := Option.isSome_iff_exists.1 (AList.lookup_isSome.2 hmem)
      have : best ∈ o.order ((groupBests (comparator cfg) (s.candidates o n)).entries.map
          fun e => e.2) :=
        (o.order_perm _).mem_iff.2 (List.mem_map.2 ⟨_, AList.mem_lookup_iff.1 hbest, rfl⟩)
      rw [h] at this
      cases this
    · exact hne h
  · by_contra hne
    obtain ⟨r, hr⟩ := List.exists_mem_of_ne_nil _ hne
    have := mem_contenders cfg o s hr
    rw [h] at this
    cases this

theorem mem_candidates {n : ν} {r : InboundRoute} : r ∈ s.candidates o n ↔
    (∃ k r', s.adjRibIn.lookup k = some r' ∧ k.path.nlri = n ∧
      r = { r' with igpCost := o.igpMetricResolver r'.attrs.path.nextHop }) ∨
    s.networkLocalRoutes.lookup n = some r := by
  unfold candidates
  rw [List.mem_append, (o.order_perm _).mem_iff, Option.mem_toList]
  refine or_congr ⟨fun h => ?_, ?_⟩ Iff.rfl
  · obtain ⟨e, he, rfl⟩ := List.mem_map.1 h
    obtain ⟨he, hn⟩ := List.mem_filter.1 he
    exact ⟨e.1, e.2, AList.mem_lookup_iff.2 he, by simpa using hn, rfl⟩
  · rintro ⟨k, r', hk, hn, rfl⟩
    exact List.mem_map.2 ⟨⟨k, r'⟩, List.mem_filter.2 ⟨AList.mem_lookup_iff.1 hk, by simpa using hn⟩,
      rfl⟩

theorem mem_keys_iff {k : InKey ν} :
    k ∈ s.adjRibIn.keys ↔ ∃ r, s.adjRibIn.lookup k = some r := by
  rw [← AList.mem_keys, ← AList.lookup_isSome, Option.isSome_iff_exists]

theorem candidates_eq_nil_iff (n : ν) : s.candidates o n = [] ↔ ¬ HasCandidate s n := by
  rw [List.eq_nil_iff_forall_not_mem]
  constructor
  · rintro h (⟨k, hk, hn⟩ | hne)
    · obtain ⟨r, hr⟩ := (mem_keys_iff s).1 hk
      exact h _ ((mem_candidates o s).2 (.inl ⟨k, r, hr, hn, rfl⟩))
    · obtain ⟨r, hr⟩ := Option.ne_none_iff_exists'.1 hne
      exact h r ((mem_candidates o s).2 (.inr hr))
  · intro h r hr
    rcases (mem_candidates o s).1 hr with ⟨k, r', hk, hn, -⟩ | hr
    · exact h (.inl ⟨k, (mem_keys_iff s).2 ⟨r', hk⟩, hn⟩)
    · exact h (.inr (by rw [hr]; simp))

theorem decision_eq_none_iff (n : ν) : s.decision cfg o n = none ↔ ¬ HasCandidate s n := by
  rw [← candidates_eq_nil_iff o, ← contenders_eq_nil_iff cfg o]
  simp only [decision, Option.map_eq_none_iff]
  cases s.contenders cfg o n with
  | nil => simp [BestPathComparator.selectBest]
  | cons r rs => simp [BestPathComparator.selectBest]

end Decision

/-! ## The other prefixes -/

/-- Nothing that belongs to the prefix `n` differs. -/
structure SameAt (n : ν) (s s' : AddressFamilyInstance ν) : Prop where
  routes : ∀ k : InKey ν, k.path.nlri = n → s'.adjRibIn.lookup k = s.adjRibIn.lookup k
  network : s'.networkLocalRoutes.lookup n = s.networkLocalRoutes.lookup n
  locRib : s'.locRib.lookup n = s.locRib.lookup n
  vrf : s'.vrf n = s.vrf n
  entries : ∀ rid (e : NlriPath ν × PathAttribute), e.1.nlri = n →
    (e ∈ s'.out.adjRibOut rid ↔ e ∈ s.out.adjRibOut rid)
  sessionOf : s'.sessionOf = s.sessionOf

section SameAt
variable {n : ν} {s s' s'' : AddressFamilyInstance ν} (cfg : Config ν) (o : Oracle ν)

theorem SameAt.refl (n : ν) (s : AddressFamilyInstance ν) : SameAt n s s :=
  ⟨fun _ _ => rfl, rfl, rfl, rfl, fun _ _ _ => Iff.rfl, rfl⟩

theorem SameAt.trans (h : SameAt n s s') (h' : SameAt n s' s'') : SameAt n s s'' where
  routes k hk := (h'.routes k hk).trans (h.routes k hk)
  network := h'.network.trans h.network
  locRib := h'.locRib.trans h.locRib
  vrf := h'.vrf.trans h.vrf
  entries rid e he := (h'.entries rid e he).trans (h.entries rid e he)
  sessionOf := h'.sessionOf.trans h.sessionOf

theorem SameAt.foldl {β : Type} {f : AddressFamilyInstance ν → β → AddressFamilyInstance ν}
    {l : List β} (hf : ∀ s, ∀ b ∈ l, SameAt n s (f s b)) (s : AddressFamilyInstance ν) :
    SameAt n s (l.foldl f s) := by
  induction l generalizing s with
  | nil => exact .refl n s
  | cons b l ih => exact (hf s b (.head _)).trans (ih (fun s b hb => hf s b (.tail _ hb)) _)

theorem SameAt.hasCandidate (h : SameAt n s s') : HasCandidate s' n ↔ HasCandidate s n := by
  unfold HasCandidate
  rw [h.network]
  refine or_congr_left (exists_congr fun k => and_congr_left fun hk => ?_)
  rw [mem_keys_iff, mem_keys_iff, h.routes k hk]

theorem SameIn.sameAt (h : SameIn s s') (hlocRib : s'.locRib.lookup n = s.locRib.lookup n)
    (hvrf : s'.vrf n = s.vrf n)
    (hentries : ∀ rid (e : NlriPath ν × PathAttribute), e.1.nlri = n →
      (e ∈ s'.out.adjRibOut rid ↔ e ∈ s.out.adjRibOut rid)) : SameAt n s s' where
  routes k _ := by rw [h.adjRibIn]
  network := by rw [h.networkLocalRoutes]
  locRib := hlocRib
  vrf := hvrf
  entries := hentries
  sessionOf := sessionOf_eq h.neighbors

theorem advertiseRound_entries (s : AddressFamilyInstance ν) {nlri : ν} (best : Option LocalRoute)
    (out : OutState ν) (x : (_ : IPAddress) × NeighborState) (rid : UInt32)
    {e : NlriPath ν × PathAttribute} (he : e.1.nlri ≠ nlri) :
    e ∈ (s.advertiseRound cfg o nlri best out x).adjRibOut rid ↔ e ∈ out.adjRibOut rid := by
  unfold advertiseRound
  cases x.2.session with
  | none => exact Iff.rfl
  | some ses =>
    have hstep : InStep nlri x.1 ses.peerRid out (advertiseTo cfg o
        (fun nh => (s.nhtTable nh).any (!·.reachable)) nlri best out x.1 ses) :=
      advertiseTo_inStep cfg o _ best ses
    by_cases hr : rid = ses.peerRid
    · subst hr
      exact hstep.entries e he
    · simp only
      rw [hstep.table_other rid hr]

theorem recomputeAdjRibOut_sameAt (s : AddressFamilyInstance ν) {nlri : ν} (hn : n ≠ nlri)
    (best : Option LocalRoute) : SameAt n s (s.recomputeAdjRibOut cfg o nlri best) := by
  refine (recomputeAdjRibOut_sameIn cfg o s nlri best).sameAt rfl rfl fun rid e he => ?_
  have hne : e.1.nlri ≠ nlri := he ▸ hn
  unfold recomputeAdjRibOut
  generalize o.order s.neighbors.entries = l
  generalize s.out = out
  induction l generalizing out with
  | nil => exact Iff.rfl
  | cons x l ih => exact (ih _).trans (advertiseRound_entries cfg o s best out x rid hne)

theorem installToRib_vrf (s : AddressFamilyInstance ν) (nlri : ν) (best : LocalRoute) :
    (s.installToRib cfg o nlri best).locRib = s.locRib ∧
      (s.installToRib cfg o nlri best).vrf =
        match buildRoute cfg.family o nlri best with
        | some route => Function.update s.vrf nlri (some route)
        | none => s.vrf := by
  simp only [installToRib, registerNht]
  cases buildRoute cfg.family o nlri best <;> split <;> exact ⟨rfl, rfl⟩

theorem withdrawFromRib_vrf (s : AddressFamilyInstance ν) (nlri : ν) :
    (s.withdrawFromRib nlri).locRib = s.locRib ∧
      (s.withdrawFromRib nlri).vrf = Function.update s.vrf nlri none := by
  simp only [withdrawFromRib, unregisterNht]
  split
  · exact ⟨rfl, rfl⟩
  · split <;> exact ⟨rfl, rfl⟩

theorem installToRib_sameAt (s : AddressFamilyInstance ν) {nlri : ν} (hn : n ≠ nlri)
    (best : LocalRoute) : SameAt n s (s.installToRib cfg o nlri best) := by
  obtain ⟨hlocRib, hvrf⟩ := installToRib_vrf cfg o s nlri best
  refine (installToRib_sameIn cfg o s nlri best).sameAt (by rw [hlocRib]) ?_ fun rid e _ => ?_
  · rw [hvrf]
    cases buildRoute cfg.family o nlri best with
    | none => rfl
    | some route => exact Function.update_of_ne hn ..
  · rw [installToRib_out]

/-- **The recomputation of another prefix.** -/
theorem recomputeNlri_sameAt (s : AddressFamilyInstance ν) {nlri : ν} (hn : n ≠ nlri) :
    SameAt n s (s.recomputeNlri cfg o nlri) := by
  unfold recomputeNlri
  split
  · exact .refl n s
  · have hwithdraw : SameAt n s { s.withdrawFromRib nlri with locRib := s.locRib.erase nlri } := by
      have h := withdrawFromRib_sameIn s nlri
      refine SameIn.sameAt ⟨h.1, h.2, h.3, h.4, h.5, h.6⟩ (AList.lookup_erase_ne hn) ?_ fun rid e _ => ?_
      · change (s.withdrawFromRib nlri).vrf n = s.vrf n
        rw [(withdrawFromRib_vrf s nlri).2, Function.update_of_ne hn]
      · change e ∈ (s.withdrawFromRib nlri).out.adjRibOut rid ↔ _
        rw [withdrawFromRib_out]
    exact hwithdraw.trans (recomputeAdjRibOut_sameAt cfg o _ hn none)
  · rename_i best entry
    have hinsert : SameAt n s { s with locRib := s.locRib.insert nlri best } :=
      SameIn.sameAt ⟨rfl, rfl, rfl, rfl, rfl, rfl⟩ (AList.lookup_insert_ne hn) rfl
        fun _ _ _ => Iff.rfl
    have hout := hinsert.trans (recomputeAdjRibOut_sameAt cfg o _ hn (some best))
    simp only
    split
    · exact .refl n s
    · split
      · exact hout.trans (installToRib_sameAt cfg o _ hn best)
      · exact hout

theorem recomputeNlri_none (hdecision : s.decision cfg o n = none) :
    (s.recomputeNlri cfg o n).locRib.lookup n = none := by
  cases hentry : s.locRib.lookup n with
  | none => simp only [recomputeNlri, hdecision, hentry]
  | some entry =>
    simp only [recomputeNlri, hdecision, hentry]
    exact AList.lookup_erase n _

theorem recomputeNlri_some {best : LocalRoute} (hdecision : s.decision cfg o n = some best)
    (hpass : (cfg.family.dampening && (s.locRib.lookup n).isNone && o.suppresses n) = false) :
    (s.recomputeNlri cfg o n).locRib.lookup n = some best ∧
      (s.recomputeNlri cfg o n).vrf n =
        if (s.locRib.lookup n).all fun e => e.route.addr ≠ best.route.addr then
          (buildRoute cfg.family o n best).or (s.vrf n)
        else s.vrf n := by
  simp only [recomputeNlri, hdecision, hpass, Bool.false_eq_true, if_false]
  split
  · obtain ⟨hlocRib, hvrf⟩ := installToRib_vrf cfg o
      (recomputeAdjRibOut cfg o { s with locRib := s.locRib.insert n best } n (some best)) n best
    rw [hlocRib, hvrf]
    refine ⟨AList.lookup_insert _, ?_⟩
    cases buildRoute cfg.family o n best with
    | none => rfl
    | some route => exact Function.update_self ..
  · exact ⟨AList.lookup_insert _, rfl⟩

theorem recomputeAll_sameAt (s : AddressFamilyInstance ν) {touched : List ν} (hn : n ∉ touched) :
    SameAt n s (s.recomputeAll cfg o touched) := by
  refine SameAt.foldl (fun s nlri hnlri => recomputeNlri_sameAt cfg o s ?_) s
  rintro rfl
  exact hn (List.mem_dedup.1 ((o.order_perm _).mem_iff.1 hnlri))

/-- **A prefix of the loop**: it is recomputed once, in a state that has its routes. -/
theorem recomputeAll_at (s : AddressFamilyInstance ν) {touched : List ν} (hn : n ∈ touched) :
    ∃ s₁, SameIn s s₁ ∧ SameAt n s s₁ ∧
      SameAt n (s₁.recomputeNlri cfg o n) (s.recomputeAll cfg o touched) := by
  unfold recomputeAll
  have hmem : n ∈ o.order touched.dedup := (o.order_perm _).mem_iff.2 (List.mem_dedup.2 hn)
  have hnodup : (o.order touched.dedup).Nodup := (o.order_perm _).nodup_iff.2 (List.nodup_dedup _)
  obtain ⟨l₁, l₂, hl⟩ := List.append_of_mem hmem
  rw [hl] at hnodup ⊢
  rw [List.foldl_append, List.foldl_cons]
  obtain ⟨-, h₂, hdisj⟩ := List.nodup_append.1 hnodup
  refine ⟨l₁.foldl (recomputeNlri cfg o) s, SameIn.foldl (recomputeNlri_sameIn cfg o) l₁ s, ?_, ?_⟩
  · refine SameAt.foldl (fun s m hm => recomputeNlri_sameAt cfg o s ?_) s
    exact (hdisj m hm n (.head _)).symm
  · refine SameAt.foldl (fun s m hm => recomputeNlri_sameAt cfg o s ?_) _
    rintro rfl
    exact (List.nodup_cons.1 h₂).1 hm

/-! ## The edits -/

theorem setNetwork_ribs (s : AddressFamilyInstance ν) (nlri : ν) (reachable : Bool) :
    (s.setNetwork cfg o nlri reachable).adjRibIn = s.adjRibIn ∧
      (s.setNetwork cfg o nlri reachable).locRib = s.locRib ∧
      (s.setNetwork cfg o nlri reachable).vrf = s.vrf ∧
      (s.setNetwork cfg o nlri reachable).out = s.out ∧
      (s.setNetwork cfg o nlri reachable).neighbors = s.neighbors := by
  cases reachable <;> exact ⟨rfl, rfl, rfl, rfl, rfl⟩

theorem setNetwork_sameAt (s : AddressFamilyInstance ν) {nlri : ν} (hn : n ≠ nlri) (reachable : Bool) :
    SameAt n s (s.setNetwork cfg o nlri reachable) := by
  obtain ⟨hin, hlocRib, hvrf, hout, hneighbors⟩ := setNetwork_ribs cfg o s nlri reachable
  refine ⟨fun k _ => by rw [hin], ?_, by rw [hlocRib], by rw [hvrf], fun _ _ _ => by rw [hout],
    sessionOf_eq hneighbors⟩
  cases reachable with
  | false => exact AList.lookup_erase_ne hn
  | true => exact (AList.lookup_insert_ne hn).trans (AList.lookup_erase_ne hn)

theorem removeRoute_sameAt (s : AddressFamilyInstance ν) {k : InKey ν} (hk : k.path.nlri ≠ n) :
    SameAt n s (s.removeRoute k) := by
  have hedit := removeRoute_inEdit s k
  refine ⟨fun k' hk' => ?_, by rw [hedit.networkLocalRoutes], ?_, by rw [hedit.vrf],
    fun rid e _ => by rw [hedit.out], sessionOf_eq hedit.neighbors⟩
  · have hne : k' ≠ k := by
      rintro rfl
      exact hk hk'
    rw [lookup_removeRoute, if_neg hne]
  · unfold removeRoute
    cases s.adjRibIn.lookup k with
    | none => rfl
    | some r =>
      simp only [unrefer]
      split
      · exact AList.lookup_erase_ne hk.symm
      · rfl

theorem withdrawPath_sameAt (s : AddressFamilyInstance ν) (rid : UInt32) {p : NlriPath ν}
    (hp : p.nlri ≠ n) : SameAt n s (s.withdrawPath rid p) :=
  (removeRoute_sameAt s hp).trans ⟨fun _ _ => rfl, rfl, rfl, rfl, fun _ _ _ => Iff.rfl, rfl⟩

theorem announcePrefix_sameAt (addr nbr : IPAddress) (rid : UInt32) (attrs : PathAttribute)
    (acc : AddressFamilyInstance ν × List ν) {p : NlriPath ν} (hp : p.nlri ≠ n) :
    SameAt n acc.1 (announcePrefix cfg o addr nbr rid attrs acc p).1 := by
  simp only [announcePrefix]
  split
  · exact .refl n _
  · refine (removeRoute_sameAt (k := ⟨rid, p⟩) acc.1 hp).trans
      ⟨fun k hk => ?_, rfl, rfl, rfl, fun _ _ _ => Iff.rfl, rfl⟩
    refine AList.lookup_insert_ne ?_
    rintro rfl
    exact hp hk

theorem foldl_announcePrefix_sameAt (addr nbr : IPAddress) (rid : UInt32) (attrs : PathAttribute)
    (ns : List (NlriPath ν)) (hn : n ∉ ns.map (·.nlri)) (acc : AddressFamilyInstance ν × List ν) :
    SameAt n acc.1 (ns.foldl (announcePrefix cfg o addr nbr rid attrs) acc).1 := by
  induction ns generalizing acc with
  | nil => exact .refl n _
  | cons p ns ih =>
    rw [List.map_cons, List.mem_cons, not_or] at hn
    exact (announcePrefix_sameAt cfg o addr nbr rid attrs acc fun h => hn.1 h.symm).trans (ih hn.2 _)

def accepted (addr nbr : IPAddress) (rid : UInt32) (update : ParsedUpdate ν) : List (NlriPath ν) :=
  match update.attrs with
  | none => []
  | some attrs => if rejects cfg o addr nbr rid attrs then [] else update.announcements

theorem announcePrefix_touched {addr nbr : IPAddress} {rid : UInt32} {attrs : PathAttribute}
    (h : rejects cfg o addr nbr rid attrs = false) (ns : List (NlriPath ν))
    (acc : AddressFamilyInstance ν × List ν) :
    (ns.foldl (announcePrefix cfg o addr nbr rid attrs) acc).2 = acc.2 ++ ns.map (·.nlri) := by
  have haccept : applyIngressPolicy cfg.process (cfg.neighbor nbr)
      (inboundRoute cfg o addr nbr rid attrs) ≠ true := by simpa [rejects] using h
  induction ns generalizing acc with
  | nil => simp
  | cons p ns ih =>
    rw [List.foldl_cons, ih]
    simp only [announcePrefix, if_neg haccept, List.map_cons, List.append_assoc, List.singleton_append]

theorem takeUpdate_touched (s : AddressFamilyInstance ν) (addr nbr : IPAddress) (rid : UInt32)
    (update : ParsedUpdate ν) :
    (s.takeUpdate cfg o addr nbr rid update).2 =
      update.withdrawn.map (·.nlri) ++ (accepted cfg o addr nbr rid update).map (·.nlri) := by
  unfold takeUpdate accepted
  cases update.attrs with
  | none => simp
  | some attrs =>
    simp only
    cases hrejects : rejects cfg o addr nbr rid attrs with
    | true =>
      rw [foldl_announcePrefix_of_rejects cfg o hrejects]
      simp
    | false =>
      rw [announcePrefix_touched cfg o hrejects]
      simp

theorem takeUpdate_sameAt (s : AddressFamilyInstance ν) (addr nbr : IPAddress) (rid : UInt32)
    (update : ParsedUpdate ν) (hn : n ∉ (s.takeUpdate cfg o addr nbr rid update).2) :
    SameAt n s (s.takeUpdate cfg o addr nbr rid update).1 := by
  rw [takeUpdate_touched, List.mem_append, not_or] at hn
  obtain ⟨hw, ha⟩ := hn
  have hwithdrawn : SameAt n s (update.withdrawn.foldl (fun s p => s.withdrawPath rid p) s) := by
    refine SameAt.foldl (fun s p hp => withdrawPath_sameAt s rid ?_) s
    rintro rfl
    exact hw (List.mem_map_of_mem hp)
  unfold takeUpdate
  unfold accepted at ha
  cases hattrs : update.attrs with
  | none => exact hwithdrawn
  | some attrs =>
    rw [hattrs] at ha
    simp only at ha ⊢
    cases hrejects : rejects cfg o addr nbr rid attrs with
    | true =>
      rw [foldl_announcePrefix_of_rejects cfg o hrejects]
      exact hwithdrawn
    | false =>
      rw [hrejects, if_neg (by decide)] at ha
      exact hwithdrawn.trans (foldl_announcePrefix_sameAt cfg o addr nbr rid attrs _ ha (_, _))

theorem mem_keys_takeUpdate (s : AddressFamilyInstance ν) (addr nbr : IPAddress) (rid : UInt32)
    (update : ParsedUpdate ν) (k : InKey ν) :
    k ∈ (s.takeUpdate cfg o addr nbr rid update).1.adjRibIn.keys ↔
      (k.peer = rid ∧ k.path ∈ accepted cfg o addr nbr rid update) ∨
        (k ∈ s.adjRibIn.keys ∧ ¬ (k.peer = rid ∧ k.path ∈ update.withdrawn)) := by
  have hkeys (s : AddressFamilyInstance ν) (k : InKey ν) :
      k ∈ s.adjRibIn.keys ↔ s.inAttrs k.peer k.path ≠ none := by
    rw [mem_keys_iff, inAttrs, Ne, Option.map_eq_none_iff, ← Ne, Option.ne_none_iff_exists']
  rw [hkeys, hkeys, inAttrs_takeUpdate]
  unfold accepted
  by_cases hr : k.peer = rid
  · cases update.attrs with
    | none => by_cases hw : k.path ∈ update.withdrawn <;> simp [hr, without, hw]
    | some attrs =>
      cases hrejects : rejects cfg o addr nbr rid attrs <;>
        by_cases ha : k.path ∈ update.announcements <;>
        by_cases hw : k.path ∈ update.withdrawn <;> simp [hr, without, ha, hw, hrejects]
  · simp [hr]

theorem lookup_foldl_removeRoute (ks : List (InKey ν)) (k : InKey ν) (s : AddressFamilyInstance ν) :
    (ks.foldl (fun s k => s.removeRoute k) s).adjRibIn.lookup k =
      if k ∈ ks then none else s.adjRibIn.lookup k := by
  induction ks generalizing s with
  | nil => simp
  | cons k' ks ih =>
    rw [List.foldl_cons, ih, lookup_removeRoute]
    by_cases hk : k = k'
    · simp [hk]
    · simp [hk]

theorem foldl_removeRoute_sameAt (s : AddressFamilyInstance ν) {ks : List (InKey ν)}
    (hn : ∀ k ∈ ks, k.path.nlri ≠ n) : SameAt n s (ks.foldl (fun s k => s.removeRoute k) s) :=
  SameAt.foldl (fun s k hk => removeRoute_sameAt s (hn k hk)) s

omit [DecidableEq ν] in
theorem mem_peerKeys {rid : UInt32} {k : InKey ν} :
    k ∈ s.peerKeys rid ↔ k ∈ s.adjRibIn.keys ∧ k.peer = rid := by
  simp [peerKeys]

end SameAt

end AddressFamilyInstance

end VirtualRouter.Bgp
