/-
  When the election leaves what the procedure elects.

  The second pass, which the source always makes, changes nothing where the router has the part
  it had (`elects_finalElection`), so that the elected ids are those of the procedure.  They are
  kept on the interface only where the neighbour table has them: not for the router itself, not
  for "none", and not where nobody takes part.

  * `Segment.LocalDr`, `Segment.LocalBdr`, `Segment.NoBdr`: the cases, in terms of the routers
    that take part;
  * `Segment.complies_iff`: the election complies exactly where the interface has, in these
    cases, the value already;
  * `Segment.finalElection_agree`: two routers that see the same candidates elect the same.
-/
import VirtualRouter.Ospf.DbExchange
import VirtualRouter.Ospf.ElectionPass

namespace VirtualRouter.Ospf

open KeyOrder

/-! ## The two passes -/

/-- Router `s` takes part with the designations of its interface as its claims. -/
def ClaimsOf (s prevDr prevBdr : UInt32) (l : List Candidate) : Prop :=
  ∀ c ∈ l, c.rid = s → c.claimedDr = prevDr ∧ c.claimedBdr = prevBdr

section Passes
variable {s prevDr prevBdr : UInt32} {l : List Candidate} {d b d₁ b₁ : Option Candidate}

theorem lists_rid (c : Candidate) : (Candidate.lists s d b c).rid = c.rid := by
  rw [Candidate.lists]
  split_ifs <;> rfl

theorem lists_priority (c : Candidate) : (Candidate.lists s d b c).priority = c.priority := by
  rw [Candidate.lists]
  split_ifs <;> rfl

theorem lists_self {c : Candidate} (h : c.rid = s) :
    Candidate.lists s d b c = { c with claimedDr := ridOf d, claimedBdr := ridOf b } := if_pos h

theorem lists_other {c : Candidate} (h : c.rid ≠ s) : Candidate.lists s d b c = c := if_neg h

theorem Distinct.listed (hl : Distinct l) : Distinct (listed s d b l) := by
  rw [Distinct, List.map_map, show Candidate.rid ∘ Candidate.lists s d b = Candidate.rid from
    funext lists_rid]
  exact hl

/-- The claim that the source writes: the router's own id, or none. -/
def Candidate.plain (s : UInt32) (c : Candidate) : Candidate :=
  if c.rid = s then
    { c with
      claimedDr := if c.claimedDr = s then s else 0
      claimedBdr := if c.claimedBdr = s then s else 0 }
  else c

theorem plain_of_ne {c : Candidate} (h : c.rid ≠ s) : c.plain s = c := if_neg h

theorem redeclare_eq (hl : Distinct l) :
    redeclare s (ridOf d) (ridOf b) l = (listed s d b l).map (Candidate.plain s) := by
  induction l with
  | nil => rfl
  | cons c l ih =>
    rw [Distinct, List.map_cons, List.nodup_cons] at hl
    rw [redeclare, listed, List.map_cons, List.map_cons]
    by_cases hc : c.rid = s
    · -- no later router has this id
      have hrest : ∀ x ∈ l, (Candidate.plain s ∘ Candidate.lists s d b) x = x := by
        intro x hx
        have hne : x.rid ≠ s := fun hxs => hl.1 (List.mem_map.2 ⟨x, hx, hxs.trans hc.symm⟩)
        rw [Function.comp_apply, lists_other hne, plain_of_ne hne]
      rw [if_pos hc, List.map_map, List.map_congr_left hrest, List.map_id', lists_self hc]
      exact congrArg (· :: l) (if_pos hc).symm
    · rw [if_neg hc, lists_other hc, plain_of_ne hc, ih hl.2]

theorem plain_rid (c : Candidate) : (c.plain s).rid = c.rid := by
  rw [Candidate.plain]
  split_ifs <;> rfl

theorem unseen_plain (hs : s ≠ 0) : Unseen (Candidate.plain s) l := by
  have hself : ∀ x : UInt32, (if x = s then s else 0) = s ↔ x = s := by
    intro x
    split_ifs with hx
    · exact iff_of_true rfl hx
    · exact iff_of_false hs.symm hx
  have hclaims : ∀ c : Candidate, ((c.plain s).claimedDr = c.rid ↔ c.claimedDr = c.rid) ∧
      ((c.plain s).claimedBdr = c.rid ↔ c.claimedBdr = c.rid) := by
    intro c
    by_cases hc : c.rid = s
    · rw [Candidate.plain, if_pos hc, hc]
      exact ⟨hself c.claimedDr, hself c.claimedBdr⟩
    · rw [plain_of_ne hc]
      exact ⟨Iff.rfl, Iff.rfl⟩
  have hdr : ∀ c : Candidate, (c.plain s).DeclaresDr ↔ c.DeclaresDr := by
    intro c
    rw [Candidate.DeclaresDr, plain_rid]
    exact (hclaims c).1
  refine ⟨plain_rid, ?_, fun c _ => hdr c, fun c _ => ?_⟩
  · intro c
    rw [Candidate.plain]
    split_ifs <;> rfl
  · rw [Candidate.DeclaresBdr, hdr, plain_rid]
    exact and_congr_right fun _ => (hclaims c).2

theorem unseen_lists (hc : ClaimsOf s prevDr prevBdr l) (h : SameRole s prevDr prevBdr d b) :
    Unseen (Candidate.lists s d b) l := by
  have hdr : ∀ c ∈ l, ((Candidate.lists s d b c).DeclaresDr ↔ c.DeclaresDr) := by
    intro c hcl
    by_cases hcs : c.rid = s
    · rw [lists_self hcs, Candidate.DeclaresDr, Candidate.DeclaresDr, (hc c hcl hcs).1, hcs]
      exact h.1
    · rw [lists_other hcs]
  refine ⟨lists_rid, lists_priority, hdr, fun c hcl => ?_⟩
  refine and_congr (not_congr (hdr c hcl)) ?_
  by_cases hcs : c.rid = s
  · rw [lists_self hcs, (hc c hcl hcs).2, hcs]
    exact h.2
  · rw [lists_other hcs]

theorem Elects.unique {d' b' : Option Candidate} (h : Elects s prevDr prevBdr l d b)
    (h' : Elects s prevDr prevBdr l d' b') : d = d' ∧ b = b' := by
  obtain ⟨d₁, b₁, hpass, h⟩ := h
  obtain ⟨d₂, b₂, hpass', h'⟩ := h'
  obtain ⟨rfl, rfl⟩ := hpass.unique hpass'
  rcases h with ⟨hsame, rfl, rfl⟩ | ⟨hnew, h⟩
  · rcases h' with ⟨-, rfl, rfl⟩ | ⟨hnew, -⟩
    · exact ⟨rfl, rfl⟩
    · exact absurd hsame hnew
  · rcases h' with ⟨hsame, -, -⟩ | ⟨-, h'⟩
    · exact absurd hsame hnew
    · exact h.unique h'

theorem Elects.of_perm {l' : List Candidate} (hp : l.Perm l')
    (h : Elects s prevDr prevBdr l d b) : Elects s prevDr prevBdr l' d b := by
  obtain ⟨d₁, b₁, hpass, h⟩ := h
  refine ⟨d₁, b₁, hpass.of_perm hp, ?_⟩
  rcases h with h | ⟨hnew, h⟩
  · exact Or.inl h
  · exact Or.inr ⟨hnew, h.of_perm (hp.map _)⟩

/-- The elected routers, up to what a pass does not see. -/
def SameIds (d b d' b' : Option Candidate) : Prop :=
  ∃ f : Candidate → Candidate, (∀ c, (f c).rid = c.rid) ∧ d = d'.map f ∧ b = b'.map f

/-- **The second pass may always be made**: it elects the same ids where the router's own part
    has not changed. -/
theorem elects_of_passes (hc : ClaimsOf s prevDr prevBdr l) (h₁ : Pass l d₁ b₁)
    (h : Pass (listed s d₁ b₁ l) d b) :
    ∃ d' b', Elects s prevDr prevBdr l d' b' ∧ SameIds d b d' b' := by
  by_cases hsame : SameRole s prevDr prevBdr d₁ b₁
  · obtain ⟨hd, hb⟩ := h.unique (h₁.map (unseen_lists hc hsame))
    exact ⟨d₁, b₁, ⟨d₁, b₁, h₁, Or.inl ⟨hsame, rfl, rfl⟩⟩, _, lists_rid, hd, hb⟩
  · refine ⟨d, b, ⟨d₁, b₁, h₁, Or.inr ⟨hsame, h⟩⟩, id, fun _ => rfl, ?_, ?_⟩
    · rw [Option.map_id, id_eq]
    · rw [Option.map_id, id_eq]

theorem exists_passes (hs : s ≠ 0) (hl : Distinct l) :
    ∃ d₁ b₁ d b, Pass l d₁ b₁ ∧ Pass (listed s d₁ b₁ l) d b ∧
      runElection (redeclare s (runElection l).1 (runElection l).2 l) = (ridOf d, ridOf b) := by
  obtain ⟨d₁, b₁, h₁, hrun₁⟩ := exists_pass hl
  obtain ⟨d, b, h, -⟩ := exists_pass (hl.listed (s := s) (d := d₁) (b := b₁))
  refine ⟨d₁, b₁, d, b, h₁, h, ?_⟩
  have hplain := unseen_plain (l := listed s d₁ b₁ l) hs
  have hdistinct : Distinct ((listed s d₁ b₁ l).map (Candidate.plain s)) := by
    rw [Distinct, List.map_map, show Candidate.rid ∘ Candidate.plain s = Candidate.rid from
      funext plain_rid]
    exact hl.listed
  rw [hrun₁, redeclare_eq hl, runElection_of_pass hdistinct (h.map hplain), hplain.ridOf_map,
    hplain.ridOf_map]

end Passes

/-! ## Who is elected -/

section Standing
variable {s : UInt32} {me : Candidate} {ns : List Candidate} {d b : Option Candidate}

theorem ridOf_first_iff {P : Candidate → Prop} (hs : s ≠ 0) (hme : me.rid = s)
    (hns : ∀ n ∈ ns, n.rid ≠ s) {o : Option Candidate} (h : First P (me :: ns) o) :
    ridOf o = s ↔ P me ∧ ∀ n ∈ ns, P n → n.standing < me.standing := by
  constructor
  · intro ho
    cases o with
    | none => exact absurd ho.symm hs
    | some c =>
      rcases List.mem_cons.1 h.1.1 with rfl | hc
      · refine ⟨h.1.2, fun n hn hP => h.2 n (List.mem_cons_of_mem _ hn) hP ?_⟩
        rintro rfl
        exact hns n hn hme
      · exact absurd ho (hns c hc)
  · rintro ⟨hP, hlt⟩
    have hfirst : First P (me :: ns) (some me) := by
      refine ⟨⟨List.mem_cons_self, hP⟩, fun n hn hPn hne => ?_⟩
      exact hlt n ((List.mem_cons.1 hn).resolve_left hne) hPn
    rw [h.unique (fun _ _ _ _ => lt_asymm) hfirst]
    exact hme

theorem ridOf_ne {P : Candidate → Prop} (hs : s ≠ 0) (hns : ∀ n ∈ ns, n.rid ≠ s)
    {o : Option Candidate} (h : First P ns o) : ridOf o ≠ s := by
  cases o with
  | none => exact hs.symm
  | some c => exact hns c h.1.1

theorem Pass.dr_iff (hs : s ≠ 0) (hme : me.rid = s) (hns : ∀ n ∈ ns, n.rid ≠ s)
    (h : Pass (me :: ns) d b) : ridOf d = s ↔ ∀ n ∈ ns, n.standing < me.standing := by
  rw [ridOf_first_iff hs hme hns h.foremost_dr]
  simp

theorem Pass.bdr_iff (hs : s ≠ 0) (hme : me.rid = s) (hns : ∀ n ∈ ns, n.rid ≠ s)
    (h : Pass (me :: ns) d b) :
    ridOf b = s ↔ ¬ me.DeclaresDr ∧ ∀ n ∈ ns, ¬ n.DeclaresDr → n.standing < me.standing :=
  ridOf_first_iff hs hme hns h.foremost_bdr

theorem Pass.bdr_none_iff {l : List Candidate} (h : Pass l d b) :
    b = none ↔ ∀ c ∈ l, c.DeclaresDr := by
  have hb := h.foremost_bdr
  constructor
  · rintro rfl
    exact fun c hc => not_not.1 (hb c hc)
  · intro hall
    cases b with
    | none => rfl
    | some c => exact absurd (hall c hb.1.1) hb.1.2

/-! ## The second pass -/

/-- The router as it stands for backup: one that declares itself designated and is not elected
    declares itself nothing. -/
def Candidate.stepDown (c : Candidate) : Candidate :=
  if c.DeclaresDr then { c with claimedDr := 0, claimedBdr := 0 } else c

section SecondPass
variable {d₁ b₁ : Option Candidate} (hs : s ≠ 0) (hme : me.rid = s)
  (hns : ∀ n ∈ ns, n.rid ≠ s) (h₁ : Pass (me :: ns) d₁ b₁)

theorem lists_seniority (c : Candidate) : (Candidate.lists s d b c).seniority = c.seniority := by
  rw [Candidate.seniority, Candidate.seniority, lists_rid, lists_priority]

include hme in
theorem lists_dr_iff : (Candidate.lists s d₁ b₁ me).DeclaresDr ↔ ridOf d₁ = s := by
  rw [lists_self hme, Candidate.DeclaresDr, hme]

include hme in
theorem lists_bdr_iff :
    (Candidate.lists s d₁ b₁ me).DeclaresBdr ↔ ridOf d₁ ≠ s ∧ ridOf b₁ = s := by
  rw [Candidate.DeclaresBdr, lists_dr_iff hme, lists_self hme, hme]

theorem listed_cons (hns : ∀ n ∈ ns, n.rid ≠ s) :
    listed s d₁ b₁ (me :: ns) = Candidate.lists s d₁ b₁ me :: ns := by
  rw [listed, List.map_cons, List.map_congr_left fun n hn => lists_other (hns n hn), List.map_id']

include hs hme hns h₁

theorem second_dr_iff (h : Pass (listed s d₁ b₁ (me :: ns)) d b) :
    ridOf d = s ↔ ∀ n ∈ ns, n.standing < me.standing := by
  rw [listed_cons hns] at h
  rw [h.dr_iff hs ((lists_rid me).trans hme) hns]
  have hsen := lists_seniority (s := s) (d := d₁) (b := b₁) me
  constructor
  · intro hall
    by_contra hnot
    have hd₁ : ridOf d₁ ≠ s := fun heq => hnot ((h₁.dr_iff hs hme hns).1 heq)
    have hdr : ¬ (Candidate.lists s d₁ b₁ me).DeclaresDr := fun hdr => hd₁ ((lists_dr_iff hme).1 hdr)
    push Not at hnot
    obtain ⟨n, hn, hle⟩ := hnot
    have hlt := hall n hn
    -- the router has gone up: it is the backup of the first pass
    have hup : me.grade < (Candidate.lists s d₁ b₁ me).grade := by
      by_contra hnot
      exact (Candidate.standing_le_of_grade hsen (not_lt.1 hnot)).not_gt (hle.trans_lt hlt)
    have hb₁ : ridOf b₁ = s := by
      by_contra hb₁
      rw [Candidate.grade_of_none hdr fun hbdr => hb₁ ((lists_bdr_iff hme).1 hbdr).2] at hup
      exact Nat.not_lt_zero _ hup
    -- and the neighbour before it declares itself designated
    have hndr : n.DeclaresDr := by
      by_contra hndr
      exact hle.not_gt (((h₁.bdr_iff hs hme hns).1 hb₁).2 n hn hndr)
    have hn2 := Candidate.grade_of_dr hndr
    have hone := Candidate.grade_le_one hdr
    rcases Candidate.standing_lt_iff.1 hlt with hg | ⟨hg, -⟩ <;> omega
  · intro hall n hn
    have hd₁ := (h₁.dr_iff hs hme hns).2 hall
    refine (hall n hn).trans_le (Candidate.standing_le_of_grade hsen.symm ?_)
    rw [Candidate.grade_of_dr ((lists_dr_iff hme).2 hd₁)]
    exact Candidate.grade_le_two me

/-- After the second pass the router is backup if it is not designated, and was the first of
    those that may be backup. -/
theorem second_bdr_iff (h : Pass (listed s d₁ b₁ (me :: ns)) d b) :
    ridOf b = s ↔ ¬ (∀ n ∈ ns, n.standing < me.standing) ∧
      ∀ n ∈ ns, ¬ n.DeclaresDr → n.standing < me.stepDown.standing := by
  rw [listed_cons hns] at h
  rw [h.bdr_iff hs ((lists_rid me).trans hme) hns, lists_dr_iff hme, h₁.dr_iff hs hme hns]
  refine and_congr_right fun hnot => ?_
  have hd₁ : ridOf d₁ ≠ s := fun heq => hnot ((h₁.dr_iff hs hme hns).1 heq)
  have hsen := lists_seniority (s := s) (d := d₁) (b := b₁) me
  by_cases hdr : me.DeclaresDr
  · -- it stood for designated router: it has no claim now
    have hb₁ : ridOf b₁ ≠ s := fun heq => ((h₁.bdr_iff hs hme hns).1 heq).1 hdr
    have hnone : (Candidate.lists s d₁ b₁ me).grade = 0 :=
      Candidate.grade_of_none (fun h => hd₁ ((lists_dr_iff hme).1 h))
        fun h => hb₁ ((lists_bdr_iff hme).1 h).2
    have hdown : me.stepDown.grade = 0 := by
      rw [Candidate.stepDown, if_pos hdr]
      exact Candidate.grade_of_none (fun h => hs (hme.symm.trans h.symm))
        fun h => hs (hme.symm.trans h.2.symm)
    have hsame : (Candidate.lists s d₁ b₁ me).standing = me.stepDown.standing := by
      rw [Candidate.standing, Candidate.standing, hnone, hdown, hsen, Candidate.stepDown, if_pos hdr]
      rfl
    rw [hsame]
  · rw [Candidate.stepDown, if_neg hdr]
    by_cases hb₁ : ridOf b₁ = s
    · have hall := ((h₁.bdr_iff hs hme hns).1 hb₁).2
      refine iff_of_true (fun n hn hndr => (hall n hn hndr).trans_le ?_) hall
      refine Candidate.standing_le_of_grade hsen.symm ?_
      rw [Candidate.grade_of_bdr ((lists_bdr_iff hme).2 ⟨hd₁, hb₁⟩)]
      exact Candidate.grade_le_one hdr
    · refine iff_of_false (fun hall => hb₁ ?_) fun hall => hb₁ ?_
      · refine (h₁.bdr_iff hs hme hns).2 ⟨hdr, fun n hn hndr => (hall n hn hndr).trans_le ?_⟩
        refine Candidate.standing_le_of_grade hsen ?_
        rw [Candidate.grade_of_none (fun h => hd₁ ((lists_dr_iff hme).1 h))
          fun h => hb₁ ((lists_bdr_iff hme).1 h).2]
        exact Nat.zero_le _
      · exact (h₁.bdr_iff hs hme hns).2 ⟨hdr, hall⟩

theorem second_none_iff (h : Pass (listed s d₁ b₁ (me :: ns)) d b) :
    b = none ↔ (∀ n ∈ ns, n.DeclaresDr) ∧ ∀ n ∈ ns, n.standing < me.standing := by
  rw [listed_cons hns] at h
  rw [h.bdr_none_iff, List.forall_mem_cons, lists_dr_iff hme, h₁.dr_iff hs hme hns, and_comm]

end SecondPass

end Standing

/-! ## The interface -/

namespace Segment

variable {Body : Type} (iface : OspfInterface Body) (seg : Segment)

/-- The router is before all others: it is elected designated router. -/
def LocalDr : Prop := 0 < seg.priority ∧ ∀ n ∈ seg.others, n.standing < seg.self.standing

/-- The router is elected backup. -/
def LocalBdr : Prop :=
  0 < seg.priority ∧ ¬ seg.LocalDr ∧
    ∀ n ∈ seg.others, ¬ n.DeclaresDr → n.standing < seg.self.stepDown.standing

/-- All that remain declare themselves designated: there is no backup. -/
def NoBdr : Prop := (∀ n ∈ seg.others, n.DeclaresDr) ∧ (seg.priority = 0 ∨ seg.LocalDr)

/-- The interface has what is elected where the source does not store it. -/
def Recorded : Prop :=
  if seg.eligible = [] then
    seg.dr.rid = 0 ∧ seg.bdr.rid = 0 ∧ seg.isDr = false ∧ seg.isBdr = false
  else
    (seg.LocalDr → seg.dr.rid = seg.routerId) ∧ (seg.LocalBdr → seg.bdr.rid = seg.routerId) ∧
      (seg.NoBdr → seg.bdr.rid = 0 ∨ 0 ∈ seg.neighbors.map Prod.fst)

/-! ### The candidates -/

theorem candidate_rid {e : UInt32 × SegmentNeighbor} {c : Candidate} (h : candidate e = some c) :
    c.rid = e.1 := by
  rw [candidate] at h
  split_ifs at h
  rw [← Option.some.inj h]

theorem rid_mem_of_others {c : Candidate} (h : c ∈ seg.others) :
    c.rid ∈ seg.neighbors.map Prod.fst := by
  obtain ⟨e, he, hc⟩ := List.mem_filterMap.1 h
  rw [candidate_rid hc]
  exact List.mem_map_of_mem he

theorem others_rid_ne {c : Candidate} (h : c ∈ seg.others) : c.rid ≠ seg.routerId := by
  intro heq
  exact seg.self_absent (heq ▸ seg.rid_mem_of_others h)

theorem distinct_filterMap {m : List (UInt32 × SegmentNeighbor)}
    (h : (m.map Prod.fst).Nodup) : Distinct (m.filterMap candidate) := by
  induction m with
  | nil => exact List.nodup_nil
  | cons e m ih =>
    rw [List.map_cons, List.nodup_cons] at h
    rw [List.filterMap_cons]
    cases he : candidate e with
    | none => exact ih h.2
    | some c =>
      rw [Distinct, List.map_cons, List.nodup_cons]
      refine ⟨fun hmem => ?_, ih h.2⟩
      obtain ⟨c', hc', hrid⟩ := List.mem_map.1 hmem
      obtain ⟨e', he', hce⟩ := List.mem_filterMap.1 hc'
      rw [candidate_rid he, candidate_rid hce] at hrid
      exact h.1 (List.mem_map.2 ⟨e', he', hrid⟩)

theorem distinct_eligible : Distinct seg.eligible := by
  have hothers : Distinct seg.others := distinct_filterMap seg.nodup
  rw [eligible]
  split_ifs
  · rw [Distinct, List.map_cons, List.nodup_cons]
    refine ⟨fun hmem => ?_, hothers⟩
    obtain ⟨c, hc, hrid⟩ := List.mem_map.1 hmem
    exact seg.others_rid_ne hc hrid
  · exact hothers

theorem claimsOf_eligible :
    ClaimsOf seg.routerId seg.dr.rid seg.bdr.rid seg.eligible := by
  intro c hc hrid
  rw [eligible] at hc
  split_ifs at hc
  · rcases List.mem_cons.1 hc with rfl | hc
    · exact ⟨rfl, rfl⟩
    · exact absurd hrid (seg.others_rid_ne hc)
  · exact absurd hrid (seg.others_rid_ne hc)

theorem mem_eligible {c : Candidate} (hc : c ∈ seg.eligible) :
    c.rid = seg.routerId ∨ c.rid ∈ seg.neighbors.map Prod.fst := by
  rw [eligible] at hc
  split_ifs at hc
  · rcases List.mem_cons.1 hc with rfl | hc
    · exact Or.inl rfl
    · exact Or.inr (seg.rid_mem_of_others hc)
  · exact Or.inr (seg.rid_mem_of_others hc)

/-! ### What is elected -/

structure Outcomes (d b : Option Candidate) : Prop where
  dr : ridOf d = seg.routerId ↔ seg.LocalDr
  bdr : ridOf b = seg.routerId ↔ seg.LocalBdr
  none : b = none ↔ seg.NoBdr

theorem outcomes_second {d₁ b₁ d b : Option Candidate} (h₁ : Pass seg.eligible d₁ b₁)
    (h : Pass (listed seg.routerId d₁ b₁ seg.eligible) d b) : seg.Outcomes d b := by
  have hs := seg.routerId_ne
  have hns : ∀ n ∈ seg.others, n.rid ≠ seg.routerId := fun n => seg.others_rid_ne
  rw [eligible] at h₁ h
  by_cases hp : 0 < seg.priority
  · have hp0 : seg.priority ≠ 0 := fun h0 => by simp [h0] at hp
    rw [if_pos hp] at h₁ h
    have hdr := second_dr_iff hs rfl hns h₁ h
    have hbdr := second_bdr_iff hs rfl hns h₁ h
    have hnone := second_none_iff hs rfl hns h₁ h
    refine ⟨?_, ?_, ?_⟩
    · rw [hdr, LocalDr, and_iff_right hp]
    · rw [hbdr, LocalBdr, LocalDr, and_iff_right hp, and_iff_right hp]
    · rw [hnone, NoBdr, LocalDr, and_iff_right hp, or_iff_right hp0]
  · have hp0 : seg.priority = 0 := by
      by_contra hne
      exact hp (UInt8.pos_iff_ne_zero.2 hne)
    rw [if_neg hp] at h₁ h
    rw [listed, List.map_congr_left fun n hn => lists_other (hns n hn), List.map_id'] at h
    refine ⟨?_, ?_, ?_⟩
    · exact iff_of_false (ridOf_ne hs hns h.foremost_dr) fun hl => hp hl.1
    · exact iff_of_false (ridOf_ne hs hns h.foremost_bdr) fun hl => hp hl.1
    · rw [h.bdr_none_iff, NoBdr, or_iff_left_of_imp fun hl => absurd hl.1 hp, and_iff_left hp0]

/-- **Both passes of the source elect what the procedure elects.** -/
theorem elects_finalElection : ∃ d b,
    VirtualRouter.Ospf.Elects seg.routerId seg.dr.rid seg.bdr.rid seg.eligible d b ∧
      seg.finalElection = (ridOf d, ridOf b) ∧ seg.Outcomes d b := by
  obtain ⟨d₁, b₁, d, b, h₁, h, hrun⟩ := exists_passes seg.routerId_ne seg.distinct_eligible
  obtain ⟨d', b', helects, f, hf, rfl, rfl⟩ := elects_of_passes seg.claimsOf_eligible h₁ h
  have hid : ∀ o : Option Candidate, ridOf (o.map f) = ridOf o := by
    intro o
    cases o with
    | none => rfl
    | some c => exact hf c
  have hout := seg.outcomes_second h₁ h
  rw [hid, hid] at hrun
  refine ⟨d', b', helects, hrun, ?_⟩
  obtain ⟨hdr, hbdr, hnone⟩ := hout
  rw [hid] at hdr hbdr
  rw [Option.map_eq_none_iff] at hnone
  exact ⟨hdr, hbdr, hnone⟩

theorem elected_mem {prevDr prevBdr : UInt32} {d b : Option Candidate}
    (h : VirtualRouter.Ospf.Elects seg.routerId prevDr prevBdr seg.eligible d b) {c : Candidate}
    (hc : d = some c ∨ b = some c) : ∃ c' ∈ seg.eligible, c'.rid = c.rid := by
  have hpass : ∀ {l d b}, Pass l d b → d = some c ∨ b = some c → c ∈ l := by
    rintro l d b h (rfl | rfl)
    · exact h.foremost_dr.1.1
    · exact h.foremost_bdr.1.1
  obtain ⟨d₁, b₁, h₁, ⟨-, rfl, rfl⟩ | ⟨-, h⟩⟩ := h
  · exact ⟨c, hpass h₁ hc, rfl⟩
  · obtain ⟨c', hc', rfl⟩ := List.mem_map.1 (hpass h hc)
    exact ⟨c', hc', (lists_rid c').symm⟩

theorem elected_ne_none {prevDr prevBdr : UInt32} {d b : Option Candidate}
    (h : VirtualRouter.Ospf.Elects seg.routerId prevDr prevBdr seg.eligible d b)
    (hne : seg.eligible ≠ []) : d ≠ none := by
  rintro rfl
  obtain ⟨c, hc⟩ := List.exists_mem_of_ne_nil _ hne
  obtain ⟨d₁, b₁, h₁, ⟨-, rfl, -⟩ | ⟨-, h⟩⟩ := h
  · exact h₁.foremost_dr c hc trivial
  · exact h.foremost_dr _ (List.mem_map_of_mem hc) trivial

/-! ### What is stored -/

/-- A designation after `setDr` or `setBdr`. -/
def designation (prev : Designation) (rid : UInt32) : Designation :=
  match seg.lookup rid with
  | none => prev
  | some nbr => ⟨rid, nbr.ipAddress⟩

theorem lookup_eq_none {rid : UInt32} :
    seg.lookup rid = none ↔ rid ∉ seg.neighbors.map Prod.fst := by
  rw [lookup, List.lookup_eq_none_iff]
  constructor
  · intro h hmem
    obtain ⟨e, he, rfl⟩ := List.mem_map.1 hmem
    exact absurd (h e he) (by simp)
  · intro h e he
    rw [bne_iff_ne]
    rintro rfl
    exact h (List.mem_map_of_mem he)

theorem setDr_eq (rid : UInt32) : seg.setDr rid = { seg with dr := seg.designation seg.dr rid } := by
  rw [setDr, designation]
  cases seg.lookup rid <;> rfl

theorem setBdr_eq (rid : UInt32) :
    seg.setBdr rid = { seg with bdr := seg.designation seg.bdr rid } := by
  rw [setBdr, designation]
  cases seg.lookup rid <;> rfl

theorem names_designation (prev : Designation) (o : Option Candidate) :
    seg.Names (seg.designation prev (ridOf o)) o ↔
      ridOf o ∈ seg.neighbors.map Prod.fst ∨ prev.rid = ridOf o := by
  rw [designation]
  cases hl : seg.lookup (ridOf o) with
  | none =>
    rw [or_iff_right (seg.lookup_eq_none.1 hl)]
    cases o with
    | none => exact Iff.rfl
    | some c =>
      refine and_iff_left fun nbr hnbr => ?_
      rw [ridOf, hnbr] at hl
      cases hl
  | some nbr =>
    have hmem : ridOf o ∈ seg.neighbors.map Prod.fst := by
      by_contra hmem
      rw [seg.lookup_eq_none.2 hmem] at hl
      cases hl
    refine iff_of_true ?_ (Or.inl hmem)
    cases o with
    | none => rfl
    | some c =>
      refine ⟨rfl, fun nbr' hnbr' => ?_⟩
      rw [ridOf, hnbr'] at hl
      rw [Option.some.inj hl]

theorem names_elected_iff (prev : Designation) {o : Option Candidate}
    (ho : ∀ c, o = some c → ∃ c' ∈ seg.eligible, c'.rid = c.rid) :
    seg.Names (seg.designation prev (ridOf o)) o ↔
      (ridOf o = seg.routerId → prev.rid = seg.routerId) ∧
        (o = none → prev.rid = 0 ∨ 0 ∈ seg.neighbors.map Prod.fst) := by
  rw [names_designation]
  cases o with
  | none =>
    rw [or_comm]
    exact ⟨fun h => ⟨fun hself => absurd hself.symm seg.routerId_ne, fun _ => h⟩, fun h => h.2 rfl⟩
  | some c =>
    obtain ⟨c', hc', hrid⟩ := ho c rfl
    have hsome : some c = none → prev.rid = 0 ∨ 0 ∈ seg.neighbors.map Prod.fst := nofun
    rw [and_iff_left hsome, ridOf]
    rcases hrid ▸ seg.mem_eligible hc' with hself | hmem
    · rw [hself, or_iff_right seg.self_absent]
      exact ⟨fun h _ => h, fun h => h rfl⟩
    · refine iff_of_true (Or.inl hmem) fun hself => ?_
      exact absurd (hself ▸ hmem) seg.self_absent

theorem election_fields (hne : seg.eligible ≠ []) :
    (seg.election iface).segment.dr = seg.designation seg.dr seg.finalElection.1 ∧
    (seg.election iface).segment.bdr = seg.designation seg.bdr seg.finalElection.2 ∧
    (seg.election iface).segment.isDr = decide (seg.finalElection.1 = seg.routerId) ∧
    (seg.election iface).segment.isBdr = decide (seg.finalElection.2 = seg.routerId) := by
  rw [election, if_neg hne]
  dsimp only
  rw [setDr_eq, setBdr_eq]
  split_ifs <;> exact ⟨rfl, rfl, rfl, rfl⟩

/-- **When the election leaves what the procedure elects**, with the table in its order: where
    the interface has already what is not stored. -/
theorem elected_iff : seg.Elected (seg.election iface).segment ↔ seg.Recorded := by
  obtain ⟨d, b, helects, hfinal, hout⟩ := seg.elects_finalElection
  have hmem : ∀ c, d = some c ∨ b = some c → ∃ c' ∈ seg.eligible, c'.rid = c.rid :=
    fun c hc => seg.elected_mem helects hc
  have hiff : seg.Elected (seg.election iface).segment ↔
      seg.Names (seg.election iface).segment.dr d ∧ seg.Names (seg.election iface).segment.bdr b ∧
      ((seg.election iface).segment.isDr = true ↔ ridOf d = seg.routerId) ∧
      ((seg.election iface).segment.isBdr = true ↔ ridOf b = seg.routerId) := by
    constructor
    · rintro ⟨d', b', helects', h⟩
      obtain ⟨rfl, rfl⟩ := helects.unique helects'
      exact h
    · exact fun h => ⟨d, b, helects, h⟩
  rw [hiff, Recorded]
  split_ifs with hempty
  · -- nobody takes part: the interface stays as it is
    have hnone : d = none ∧ b = none := by
      simp only [hempty, List.not_mem_nil, false_and, exists_false] at hmem
      exact ⟨Option.eq_none_iff_forall_ne_some.2 fun c hc => hmem c (Or.inl hc),
        Option.eq_none_iff_forall_ne_some.2 fun c hc => hmem c (Or.inr hc)⟩
    obtain ⟨rfl, rfl⟩ := hnone
    have hself : ∀ x : Bool, (x = true ↔ ridOf none = seg.routerId) ↔ x = false := by
      intro x
      rw [iff_false_right fun h : ridOf none = seg.routerId => seg.routerId_ne h.symm,
        Bool.not_eq_true]
    rw [election, if_pos hempty, hself, hself]
    exact Iff.rfl
  · obtain ⟨hdr, hbdr, hisDr, hisBdr⟩ := seg.election_fields iface hempty
    rw [hdr, hbdr, hisDr, hisBdr, hfinal, decide_eq_true_iff, decide_eq_true_iff,
      seg.names_elected_iff _ fun c hc => hmem c (Or.inl hc),
      seg.names_elected_iff _ fun c hc => hmem c (Or.inr hc), hout.dr, hout.bdr, hout.none]
    constructor
    · rintro ⟨⟨hself, -⟩, ⟨hself', hnone⟩, -⟩
      exact ⟨hself, hself', hnone⟩
    · rintro ⟨hself, hself', hnone⟩
      have hd := seg.elected_ne_none helects hempty
      exact ⟨⟨hself, fun h => absurd h hd⟩, ⟨hself', hnone⟩, Iff.rfl, Iff.rfl⟩

/-! ### The order of the table -/

variable {seg} {seg' : Segment}

theorem Reordered.others (h : seg.Reordered seg') : seg'.others.Perm seg.others :=
  h.neighbors.filterMap candidate

theorem Reordered.eligible (h : seg.Reordered seg') : seg'.eligible.Perm seg.eligible := by
  rw [Segment.eligible, Segment.eligible, h.priority]
  split_ifs
  · rw [self, self, h.routerId, h.priority, h.dr, h.bdr]
    exact h.others.cons _
  · exact h.others

theorem mem_of_lookup {m : List (UInt32 × SegmentNeighbor)} {rid : UInt32}
    {nbr : SegmentNeighbor} (h : m.lookup rid = some nbr) : (rid, nbr) ∈ m := by
  obtain ⟨l₁, l₂, rfl, -⟩ := List.lookup_eq_some_iff.1 h
  exact List.mem_append_right _ List.mem_cons_self

theorem Reordered.lookup (h : seg.Reordered seg') (rid : UInt32) :
    seg'.lookup rid = seg.lookup rid := by
  have hkeys : rid ∈ seg'.neighbors.map Prod.fst ↔ rid ∈ seg.neighbors.map Prod.fst :=
    (h.neighbors.map Prod.fst).mem_iff
  cases hl : seg.lookup rid with
  | none => rw [lookup_eq_none, hkeys, ← lookup_eq_none, hl]
  | some nbr => cases hl' : seg'.lookup rid with
    | none =>
      rw [lookup_eq_none, hkeys, ← lookup_eq_none, hl] at hl'
      cases hl'
    | some nbr' =>
      have hmem' := h.neighbors.mem_iff.1 (mem_of_lookup hl')
      have heq := List.inj_on_of_nodup_map seg.nodup hmem' (mem_of_lookup hl) rfl
      exact congrArg some (Prod.ext_iff.1 heq).2

theorem Reordered.names_iff (h : seg.Reordered seg') (x : Designation) (o : Option Candidate) :
    seg'.Names x o ↔ seg.Names x o := by
  cases o with
  | none => exact Iff.rfl
  | some c => rw [Names, Names, h.lookup]

theorem Reordered.elected_iff (h : seg.Reordered seg') (out : Segment) :
    seg'.Elected out ↔ seg.Elected out := by
  refine exists_congr fun d => exists_congr fun b => ?_
  rw [h.routerId, h.dr, h.bdr, h.names_iff, h.names_iff]
  exact and_congr_left fun _ => ⟨fun hel => hel.of_perm h.eligible,
    fun hel => hel.of_perm h.eligible.symm⟩

theorem Reordered.recorded_iff (h : seg.Reordered seg') : seg'.Recorded ↔ seg.Recorded := by
  have hself : seg'.self = seg.self := by
    rw [self, self, h.routerId, h.priority, h.dr, h.bdr]
  have hothers : ∀ n, n ∈ seg'.others ↔ n ∈ seg.others := fun n => h.others.mem_iff
  have hempty : seg'.eligible = [] ↔ seg.eligible = [] := by
    rw [← List.length_eq_zero_iff, h.eligible.length_eq, List.length_eq_zero_iff]
  have hzero : 0 ∈ seg'.neighbors.map Prod.fst ↔ 0 ∈ seg.neighbors.map Prod.fst :=
    (h.neighbors.map Prod.fst).mem_iff
  simp only [Recorded, LocalDr, LocalBdr, NoBdr, hself, hothers, hempty, hzero, h.priority, h.dr,
    h.bdr, h.isDr, h.isBdr, h.routerId]

/-- **When the election complies with the procedure**, in whatever order the table is walked. -/
theorem complies_iff (iface : OspfInterface Body) (seg : Segment) :
    seg.Complies iface ↔ seg.Recorded := by
  constructor
  · intro h
    exact (seg.elected_iff iface).1 (h seg ⟨rfl, rfl, rfl, rfl, rfl, rfl, List.Perm.refl _⟩)
  · intro h seg' hseg'
    rw [← hseg'.elected_iff]
    exact (seg'.elected_iff iface).2 (hseg'.recorded_iff.2 h)

/-! ### Agreement -/

/-- The first pass gives the router the part it has. -/
def KeepsRole : Prop :=
  ((runElection seg.eligible).1 = seg.routerId ↔ seg.dr.rid = seg.routerId) ∧
    ((runElection seg.eligible).2 = seg.routerId ↔ seg.bdr.rid = seg.routerId)

theorem finalElection_of_keepsRole (h : seg.KeepsRole) :
    seg.finalElection = runElection seg.eligible := by
  obtain ⟨d₁, b₁, d, b, h₁, h₂, hrun⟩ := exists_passes seg.routerId_ne seg.distinct_eligible
  have hrun₁ := runElection_of_pass seg.distinct_eligible h₁
  rw [KeepsRole, hrun₁] at h
  have hunseen := unseen_lists seg.claimsOf_eligible h
  obtain ⟨rfl, rfl⟩ := h₂.unique (h₁.map hunseen)
  rw [hunseen.ridOf_map, hunseen.ridOf_map] at hrun
  exact hrun.trans hrun₁.symm

/-- **The routers of a segment agree**: two of them that see the same candidates, each in its own
    order, and keep the parts they have, elect the same. -/
theorem finalElection_agree {seg seg' : Segment} (hperm : seg.eligible.Perm seg'.eligible)
    (h : seg.KeepsRole) (h' : seg'.KeepsRole) : seg.finalElection = seg'.finalElection := by
  obtain ⟨d, b, hpass, hrun⟩ := exists_pass seg.distinct_eligible
  rw [seg.finalElection_of_keepsRole h, seg'.finalElection_of_keepsRole h', hrun,
    runElection_of_pass seg'.distinct_eligible (hpass.of_perm hperm)]

/-- Router 1, of priority 1, as a neighbour that has heard this router. -/
def routerOne : SegmentNeighbor where
  routerID := 1
  unicast := false
  mtu := 1500
  state := .TWOWAY
  currentSeq := 0
  priority := 1
  ipAddress := 0x0a000001

/-- Router 2 on a segment with router 1, both of priority 1, before the first election. -/
def twoRouters : Segment where
  routerId := 2
  priority := 1
  dr := {}
  bdr := {}
  isDr := false
  isBdr := false
  neighbors := [(1, routerOne)]
  routerId_ne := by decide
  nodup := by decide
  self_absent := by decide

/-- Router `rid` on a segment with `other`, when both list router 2 as designated and 1 as backup. -/
def settled (rid other : UInt32) (h0 : rid ≠ 0) (hne : rid ≠ other) : Segment where
  routerId := rid
  priority := 1
  dr := ⟨2, 0⟩
  bdr := ⟨1, 0⟩
  isDr := rid = 2
  isBdr := rid = 1
  neighbors := [(other, { routerOne with routerID := other, dr := 2, bdr := 1 })]
  routerId_ne := h0
  nodup := List.nodup_singleton _
  self_absent := by simpa using hne

/-- They go on to elect the same. -/
theorem finalElection_agree_settled :
    (settled 1 2 (by decide) (by decide)).finalElection =
      (settled 2 1 (by decide) (by decide)).finalElection :=
  finalElection_agree (List.Perm.swap _ _ _) (by rw [KeepsRole]; decide) (by rw [KeepsRole]; decide)

/-- **The router that is elected designated router is not stored as such**: router 2 is elected,
    and the interface has still no designated router. -/
theorem twoRouters_not_complies : ¬ twoRouters.Complies (DbExchange.plainInterface 2) := by
  intro h
  have hrec := (twoRouters.elected_iff (DbExchange.plainInterface 2)).1
    (h twoRouters ⟨rfl, rfl, rfl, rfl, rfl, rfl, List.Perm.refl _⟩)
  rw [Recorded, if_neg (by decide)] at hrec
  have hlocal : twoRouters.LocalDr := by
    refine ⟨by decide, fun n hn => ?_⟩
    rw [List.mem_singleton.1 (show n ∈ [⟨1, 1, 0, 0⟩] from hn), Candidate.standing_lt_iff]
    exact Or.inr ⟨by decide, by decide⟩
  exact absurd (hrec.1 hlocal) (by decide)

end Segment

end VirtualRouter.Ospf
