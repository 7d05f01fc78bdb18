/-
  One pass of the election, and the procedure it follows.

  * `runElection_of_pass`: the two loops compute steps 2 and 3;
  * `Pass.map`: a pass sees no more of the routers than their ids, priorities and declarations;
  * `Pass.foremost_dr`, `Pass.foremost_bdr`: the designated router is the first of all by
    `Candidate.standing`, and the backup the first of those that do not declare themselves
    designated.
-/
import VirtualRouter.Ospf.Election

namespace VirtualRouter.Ospf

open KeyOrder

/-- No two routers have the same id. -/
def Distinct (l : List Candidate) : Prop := (l.map Candidate.rid).Nodup

theorem Distinct.eq_of_rid {l : List Candidate} (hl : Distinct l) {x y : Candidate} (hx : x ∈ l)
    (hy : y ∈ l) (h : x.rid = y.rid) : x = y :=
  List.inj_on_of_nodup_map hl hx hy h

/-! ## The order of the routers -/

namespace Candidate

def seniority (c : Candidate) : ℕ ×ₗ ℕ := toLex (c.priority.toNat, c.rid.toNat)

theorem above_iff {a b : Candidate} : a.Above b ↔ b.seniority < a.seniority := by
  rw [Above, seniority, seniority, Prod.Lex.toLex_lt_toLex, UInt8.lt_iff_toNat_lt,
    UInt32.lt_iff_toNat_lt, ← UInt8.toNat_inj, eq_comm]

theorem best_iff {a b : Candidate} : a.best b = true ↔ a.Above b := by
  rw [best, Above]
  split_ifs with h
  · simp [h]
  · rw [ne_eq, not_not] at h
    simp [h]

theorem Above.asymm {a b : Candidate} (h : a.Above b) : ¬ b.Above a := by
  rw [above_iff] at h ⊢
  exact h.not_gt

theorem above_or {a b : Candidate} (h : a.rid ≠ b.rid) : a.Above b ∨ b.Above a := by
  rw [above_iff, above_iff]
  refine lt_or_gt_of_ne fun heq => h ?_
  have hpair := Prod.ext_iff.1 (toLex.injective heq)
  exact (UInt32.toNat_inj.1 hpair.2).symm

theorem strictWeakOn_best (l : List Candidate) : StrictWeakOn best l := by
  have h : OrderedBy best (fun c => OrderDual.toDual c.seniority) l := by
    intro x _ y _
    rw [best_iff, above_iff, OrderDual.toDual_lt_toDual]
  exact h.strictWeakOn

end Candidate

theorem foremost_unique {P : Candidate → Prop} {l : List Candidate} {o o' : Option Candidate}
    (h : Foremost Candidate.Above P l o) (h' : Foremost Candidate.Above P l o') : o = o' :=
  h.unique (fun _ _ _ _ => Candidate.Above.asymm) h'

theorem foremost_loop {l : List Candidate} (hl : Distinct l) (P : Candidate → Prop)
    [DecidablePred P] : Foremost Candidate.Above P l
      (l.foldl (fun s c => if P c then takeBest Candidate.best s c else s) none) := by
  have h := foremost_foldl (p := fun c => decide (P c)) (Candidate.strictWeakOn_best l) ?_
  · simpa only [decide_eq_true_eq, Candidate.best_iff] using h
  · intro x hx y hy hne
    rw [Candidate.best_iff, Candidate.best_iff]
    exact Candidate.above_or fun hrid => hne (hl.eq_of_rid hx hy hrid)

/-! ## The loops -/

theorem foremost_electDr {l : List Candidate} (hl : Distinct l) :
    Foremost Candidate.Above Candidate.DeclaresDr l (electDr l) :=
  foremost_loop hl Candidate.DeclaresDr

theorem electBdr_eq (l : List Candidate) :
    electBdr l =
      (l.foldl (fun s c => if c.DeclaresBdr then takeBest Candidate.best s c else s) none,
        l.foldl (fun s c => if ¬ c.DeclaresDr then takeBest Candidate.best s c else s) none) := by
  suffices h : ∀ x y : Option Candidate, l.foldl (fun s c =>
      if c.claimedDr = c.rid then s
      else (if c.claimedBdr = c.rid then takeBest Candidate.best s.1 c else s.1,
        takeBest Candidate.best s.2 c)) (x, y) =
      (l.foldl (fun s c => if c.DeclaresBdr then takeBest Candidate.best s c else s) x,
        l.foldl (fun s c => if ¬ c.DeclaresDr then takeBest Candidate.best s c else s) y) from
    h none none
  induction l with
  | nil => exact fun _ _ => rfl
  | cons c l ih =>
    intro x y
    rw [List.foldl_cons, List.foldl_cons, List.foldl_cons, ← ih]
    congr 1
    by_cases hdr : c.claimedDr = c.rid
    · simp [Candidate.DeclaresBdr, Candidate.DeclaresDr, hdr]
    · simp [Candidate.DeclaresBdr, Candidate.DeclaresDr, hdr]

theorem backup_or {l : List Candidate} {newBdr fallback : Option Candidate}
    (hclaim : Foremost Candidate.Above Candidate.DeclaresBdr l newBdr)
    (hother : Foremost Candidate.Above (fun c => ¬ c.DeclaresDr) l fallback) :
    Backup l (newBdr.or fallback) := by
  cases newBdr with
  | none => rwa [Backup, if_neg (by simpa [Foremost] using hclaim)]
  | some c => rwa [Backup, if_pos ⟨c, hclaim.1⟩]

theorem ridOf_or (newBdr fallback : Option Candidate) :
    (match newBdr with | some c => c.rid | none => ridOf fallback) =
      ridOf (newBdr.or fallback) := by
  cases newBdr <;> rfl

theorem exists_pass {l : List Candidate} (hl : Distinct l) :
    ∃ d b, Pass l d b ∧ runElection l = (ridOf d, ridOf b) := by
  have hdr := foremost_electDr hl
  have hclaim := foremost_loop hl Candidate.DeclaresBdr
  have hother := foremost_loop hl fun c => ¬ c.DeclaresDr
  rw [runElection, electBdr_eq]
  dsimp only
  generalize hd : electDr l = newDr at hdr
  generalize l.foldl (fun s c => if c.DeclaresBdr then takeBest Candidate.best s c else s) none
    = newBdr at hclaim
  generalize l.foldl (fun s c => if ¬ c.DeclaresDr then takeBest Candidate.best s c else s) none
    = fallback at hother
  have hb := backup_or hclaim hother
  cases newDr with
  | none =>
    refine ⟨_, _, ⟨hb, ?_⟩, Prod.ext (ridOf_or _ _) (ridOf_or _ _)⟩
    rw [Designated, if_neg (by simpa [Foremost] using hdr)]
  | some c =>
    refine ⟨some c, _, ⟨hb, ?_⟩, Prod.ext rfl (ridOf_or _ _)⟩
    rwa [Designated, if_pos ⟨c, hdr.1⟩]

theorem Pass.unique {l : List Candidate} {d b d' b' : Option Candidate} (h : Pass l d b)
    (h' : Pass l d' b') : d = d' ∧ b = b' := by
  have hb : b = b' := by
    have h₁ := h.backup
    have h₂ := h'.backup
    rw [Backup] at h₁ h₂
    split_ifs at h₁ h₂ with hc
    · exact foremost_unique h₁ h₂
    · exact foremost_unique h₁ h₂
  refine ⟨?_, hb⟩
  have h₁ := h.designated
  have h₂ := h'.designated
  rw [Designated] at h₁ h₂
  split_ifs at h₁ h₂ with hc
  · exact foremost_unique h₁ h₂
  · rw [h₁, h₂, hb]

/-- **One pass of the source** elects what steps 2 and 3 elect. -/
theorem runElection_of_pass {l : List Candidate} (hl : Distinct l) {d b : Option Candidate}
    (h : Pass l d b) : runElection l = (ridOf d, ridOf b) := by
  obtain ⟨d', b', h', hrun⟩ := exists_pass hl
  rw [hrun, (h.unique h').1, (h.unique h').2]

/-! ## What a pass sees of the routers -/

theorem Pass.of_perm {l l' : List Candidate} (hp : l.Perm l') {d b : Option Candidate}
    (h : Pass l d b) : Pass l' d b := by
  obtain ⟨hb, hd⟩ := h
  rw [Backup] at hb
  rw [Designated] at hd
  constructor
  · rw [Backup]
    simp only [hp.mem_iff] at hb
    split_ifs at hb ⊢
    · exact hb.of_perm hp
    · exact hb.of_perm hp
  · rw [Designated]
    simp only [hp.mem_iff] at hd
    split_ifs at hd ⊢
    · exact hd.of_perm hp
    · exact hd

/-- A change of the routers that a pass does not see. -/
structure Unseen (f : Candidate → Candidate) (l : List Candidate) : Prop where
  rid : ∀ c, (f c).rid = c.rid
  priority : ∀ c, (f c).priority = c.priority
  dr : ∀ c ∈ l, ((f c).DeclaresDr ↔ c.DeclaresDr)
  bdr : ∀ c ∈ l, ((f c).DeclaresBdr ↔ c.DeclaresBdr)

theorem Unseen.above {f : Candidate → Candidate} {l : List Candidate} (hf : Unseen f l) :
    ∀ x ∈ l, ∀ y ∈ l, x.Above y → (f x).Above (f y) := by
  intro x _ y _ h
  rwa [Candidate.Above, hf.rid, hf.rid, hf.priority, hf.priority]

theorem Unseen.exists_iff {f : Candidate → Candidate} {l : List Candidate}
    {P : Candidate → Prop} (hP : ∀ c ∈ l, (P (f c) ↔ P c)) :
    (∃ c ∈ l.map f, P c) ↔ ∃ c ∈ l, P c := by
  constructor
  · rintro ⟨_, hfc, h⟩
    obtain ⟨c, hc, rfl⟩ := List.mem_map.1 hfc
    exact ⟨c, hc, (hP c hc).1 h⟩
  · rintro ⟨c, hc, h⟩
    exact ⟨f c, List.mem_map_of_mem hc, (hP c hc).2 h⟩

theorem Unseen.ridOf_map {f : Candidate → Candidate} {l : List Candidate} (hf : Unseen f l)
    (o : Option Candidate) : ridOf (o.map f) = ridOf o := by
  cases o with
  | none => rfl
  | some c => exact hf.rid c

theorem Pass.map {l : List Candidate} {f : Candidate → Candidate} (hf : Unseen f l)
    {d b : Option Candidate} (h : Pass l d b) : Pass (l.map f) (d.map f) (b.map f) := by
  have hb := h.backup
  have hd := h.designated
  constructor
  · rw [Backup] at hb ⊢
    simp only [Unseen.exists_iff hf.bdr]
    split_ifs at hb ⊢
    · exact hb.map f hf.bdr hf.above
    · exact hb.map f (fun c hc => not_congr (hf.dr c hc)) hf.above
  · rw [Designated] at hd ⊢
    simp only [Unseen.exists_iff hf.dr]
    split_ifs at hd ⊢
    · exact hd.map f hf.dr hf.above
    · rw [hd]

/-! ## The standing of a router -/

namespace Candidate

/-- What a router declares itself: designated, backup or neither. -/
def grade (c : Candidate) : ℕ := if c.DeclaresDr then 2 else if c.DeclaresBdr then 1 else 0

/-- The order of election: what a router declares, then its priority and its id. -/
def standing (c : Candidate) : ℕ ×ₗ ℕ ×ₗ ℕ := toLex (c.grade, c.seniority)

theorem standing_lt_iff {a b : Candidate} : a.standing < b.standing ↔
    a.grade < b.grade ∨ a.grade = b.grade ∧ a.seniority < b.seniority :=
  Prod.Lex.toLex_lt_toLex

theorem grade_of_dr {c : Candidate} (h : c.DeclaresDr) : c.grade = 2 := if_pos h

theorem grade_of_bdr {c : Candidate} (h : c.DeclaresBdr) : c.grade = 1 := by
  rw [grade, if_neg h.1, if_pos h]

theorem grade_of_none {c : Candidate} (hdr : ¬ c.DeclaresDr) (hbdr : ¬ c.DeclaresBdr) :
    c.grade = 0 := by
  rw [grade, if_neg hdr, if_neg hbdr]

theorem grade_le_one {c : Candidate} (h : ¬ c.DeclaresDr) : c.grade ≤ 1 := by
  rw [grade, if_neg h]
  split_ifs <;> omega

theorem grade_le_two (c : Candidate) : c.grade ≤ 2 := by
  rw [grade]
  split_ifs <;> omega

theorem standing_lt_of_grade {a b : Candidate} (hg : b.grade < a.grade) :
    b.standing < a.standing :=
  standing_lt_iff.2 (Or.inl hg)

theorem standing_le_of_grade {a b : Candidate} (hs : a.seniority = b.seniority)
    (hg : a.grade ≤ b.grade) : a.standing ≤ b.standing := by
  rw [standing, standing, hs, Prod.Lex.toLex_le_toLex]
  rcases hg.lt_or_eq with hlt | heq
  · exact Or.inl hlt
  · exact Or.inr ⟨heq, le_rfl⟩

theorem standing_lt_of_above {a b : Candidate} (hg : b.grade = a.grade) (h : a.Above b) :
    b.standing < a.standing :=
  standing_lt_iff.2 (Or.inr ⟨hg, above_iff.1 h⟩)

end Candidate

/-- The first of a kind, by standing. -/
abbrev First (P : Candidate → Prop) (l : List Candidate) (o : Option Candidate) : Prop :=
  Foremost (fun a b => b.standing < a.standing) P l o

theorem Pass.foremost_bdr {l : List Candidate} {d b : Option Candidate} (h : Pass l d b) :
    First (fun c => ¬ c.DeclaresDr) l b := by
  have hb := h.backup
  rw [Backup] at hb
  split_ifs at hb with hc
  · cases b with
    | none =>
      obtain ⟨c, hc, hbdr⟩ := hc
      exact absurd hbdr (hb c hc)
    | some a =>
      refine ⟨⟨hb.1.1, hb.1.2.1⟩, fun c hc hdr hne => ?_⟩
      have ha := Candidate.grade_of_bdr hb.1.2
      by_cases hbdr : c.DeclaresBdr
      · refine Candidate.standing_lt_of_above ?_ (hb.2 c hc hbdr hne)
        rw [ha, Candidate.grade_of_bdr hbdr]
      · refine Candidate.standing_lt_of_grade ?_
        rw [ha, Candidate.grade_of_none hdr hbdr]
        exact zero_lt_one
  · have hzero : ∀ c ∈ l, ¬ c.DeclaresDr → c.grade = 0 := fun c hc' hdr =>
      Candidate.grade_of_none hdr fun hbdr => hc ⟨c, hc', hbdr⟩
    cases b with
    | none => exact hb
    | some a =>
      refine ⟨hb.1, fun c hc' hdr hne => ?_⟩
      refine Candidate.standing_lt_of_above ?_ (hb.2 c hc' hdr hne)
      rw [hzero c hc' hdr, hzero a hb.1.1 hb.1.2]

theorem Pass.foremost_dr {l : List Candidate} {d b : Option Candidate} (h : Pass l d b) :
    First (fun _ => True) l d := by
  have hd := h.designated
  rw [Designated] at hd
  split_ifs at hd with hc
  · cases d with
    | none =>
      obtain ⟨c, hc, hdr⟩ := hc
      exact absurd hdr (hd c hc)
    | some a =>
      refine ⟨⟨hd.1.1, trivial⟩, fun c hc _ hne => ?_⟩
      have ha := Candidate.grade_of_dr hd.1.2
      by_cases hdr : c.DeclaresDr
      · refine Candidate.standing_lt_of_above ?_ (hd.2 c hc hdr hne)
        rw [ha, Candidate.grade_of_dr hdr]
      · refine Candidate.standing_lt_of_grade ?_
        rw [ha]
        exact Nat.lt_succ_of_le (Candidate.grade_le_one hdr)
  · have hall : ∀ c ∈ l, ¬ c.DeclaresDr := fun c hc' hdr => hc ⟨c, hc', hdr⟩
    have hb := h.foremost_bdr
    rw [hd]
    cases b with
    | none => exact fun c hc' _ => hb c hc' (hall c hc')
    | some a => exact ⟨⟨hb.1.1, trivial⟩, fun c hc' _ => hb.2 c hc' (hall c hc')⟩

end VirtualRouter.Ospf
