/-
  Choosing from a list by a comparison.

  `StrictWeakOn r l` are the laws that a comparison `r` has to meet on the
  elements of `l`; a comparison that is the order of a key there meets them
  (`OrderedBy.strictWeakOn`).  `bestOf` is the loop that keeps the best element
  so far and `rank` the stable sort, best first.  `Foremost` says what the loop over the
  elements with a property is for: the one of them that is before all others, if any.
-/
import Mathlib

namespace KeyOrder

variable {α β : Type*} {r : α → α → Bool} {l : List α}

structure StrictWeakOn (r : α → α → Bool) (l : List α) : Prop where
  irrefl : ∀ x ∈ l, r x x = false
  asymm : ∀ x ∈ l, ∀ y ∈ l, r x y = true → r y x = false
  trans : ∀ x ∈ l, ∀ y ∈ l, ∀ z ∈ l, r x y = true → r y z = true → r x z = true
  incomp_trans : ∀ x ∈ l, ∀ y ∈ l, ∀ z ∈ l, r x y = false → r y x = false →
    r y z = false → r z y = false → r x z = false ∧ r z x = false

theorem StrictWeakOn.of_subset {l' : List α} (h : StrictWeakOn r l) (hs : l' ⊆ l) :
    StrictWeakOn r l' where
  irrefl x hx := h.irrefl x (hs hx)
  asymm x hx y hy := h.asymm x (hs hx) y (hs hy)
  trans x hx y hy z hz := h.trans x (hs hx) y (hs hy) z (hs hz)
  incomp_trans x hx y hy z hz := h.incomp_trans x (hs hx) y (hs hy) z (hs hz)

theorem StrictWeakOn.of_perm {l' : List α} (h : StrictWeakOn r l) (hp : l'.Perm l) :
    StrictWeakOn r l' :=
  h.of_subset hp.subset

/-- On the elements of the list, the comparison is the order of the key. -/
def OrderedBy [LT β] (r : α → α → Bool) (key : α → β) (l : List α) : Prop :=
  ∀ x ∈ l, ∀ y ∈ l, (r x y = true ↔ key x < key y)

section Key
variable [LinearOrder β] {key : α → β}

theorem OrderedBy.eq_false_iff (h : OrderedBy r key l) {x y : α} (hx : x ∈ l) (hy : y ∈ l) :
    r x y = false ↔ key y ≤ key x := by
  rw [← Bool.not_eq_true, h x hx y hy, not_lt]

/-- **The order of a key is a strict weak order.** -/
theorem OrderedBy.strictWeakOn (h : OrderedBy r key l) : StrictWeakOn r l where
  irrefl x hx := (h.eq_false_iff hx hx).2 le_rfl
  asymm x hx y hy hxy := (h.eq_false_iff hy hx).2 ((h x hx y hy).1 hxy).le
  trans x hx y hy z hz hxy hyz :=
    (h x hx z hz).2 (((h x hx y hy).1 hxy).trans ((h y hy z hz).1 hyz))
  incomp_trans := by
    intro x hx y hy z hz hxy hyx hyz hzy
    rw [h.eq_false_iff hx hy] at hxy
    rw [h.eq_false_iff hy hx] at hyx
    rw [h.eq_false_iff hy hz] at hyz
    rw [h.eq_false_iff hz hy] at hzy
    exact ⟨(h.eq_false_iff hx hz).2 (hyz.trans hxy), (h.eq_false_iff hz hx).2 (hyx.trans hzy)⟩

end Key

/-! ## The best element -/

/-- The loop over `l` that starts with `a` and takes each element that is better. -/
def bestOf (r : α → α → Bool) (a : α) (l : List α) : α :=
  l.foldl (fun best cand => if r cand best then cand else best) a

theorem bestOf_mem (a : α) (l : List α) : bestOf r a l ∈ a :: l := by
  induction l generalizing a with
  | nil => exact List.mem_singleton.2 rfl
  | cons c l ih =>
    have h := ih (if r c a then c else a)
    change bestOf r (if r c a then c else a) l ∈ a :: c :: l
    rcases List.mem_cons.1 h with h | h
    · rw [h]
      split_ifs
      · exact List.mem_cons_of_mem _ List.mem_cons_self
      · exact List.mem_cons_self
    · exact List.mem_cons_of_mem _ (List.mem_cons_of_mem _ h)

theorem bestOf_maximal {m : List α} (h : StrictWeakOn r m) : ∀ (l : List α) (a : α), a ∈ m → l ⊆ m →
    (∀ x ∈ l, r x (bestOf r a l) = false) ∧
      ∀ x ∈ m, r x a = false → r x (bestOf r a l) = false
  | [], _, _, _ => ⟨fun _ hx => absurd hx List.not_mem_nil, fun _ _ hx => hx⟩
  | c :: l, a, ha, hl => by
    have hc : c ∈ m := hl List.mem_cons_self
    have hl' : l ⊆ m := fun x hx => hl (List.mem_cons_of_mem _ hx)
    by_cases hca : r c a = true
    · have hstep : bestOf r a (c :: l) = bestOf r c l := by
        simp only [bestOf, List.foldl_cons, hca, if_true]
      obtain ⟨ih₁, ih₂⟩ := bestOf_maximal h l c hc hl'
      rw [hstep]
      refine ⟨?_, ?_⟩
      · intro x hx
        rcases List.mem_cons.1 hx with rfl | hx
        · exact ih₂ x hc (h.irrefl x hc)
        · exact ih₁ x hx
      · intro x hx hxa
        refine ih₂ x hx ?_
        by_contra hxc
        rw [Bool.not_eq_false] at hxc
        rw [h.trans x hx c hc a ha hxc hca] at hxa
        cases hxa
    · have hstep : bestOf r a (c :: l) = bestOf r a l := by
        simp only [bestOf, List.foldl_cons, hca, if_false, Bool.false_eq_true]
      obtain ⟨ih₁, ih₂⟩ := bestOf_maximal h l a ha hl'
      rw [hstep]
      refine ⟨?_, ih₂⟩
      intro x hx
      rcases List.mem_cons.1 hx with rfl | hx
      · exact ih₂ x hc (Bool.eq_false_iff.2 hca)
      · exact ih₁ x hx

/-- **The loop finds a maximal element.** -/
theorem StrictWeakOn.bestOf_maximal {a : α} (h : StrictWeakOn r (a :: l)) :
    ∀ x ∈ a :: l, r x (bestOf r a l) = false := by
  obtain ⟨h₁, h₂⟩ := KeyOrder.bestOf_maximal h l a List.mem_cons_self (List.subset_cons_self a l)
  intro x hx
  rcases List.mem_cons.1 hx with rfl | hx
  · exact h₂ x List.mem_cons_self (h.irrefl x List.mem_cons_self)
  · exact h₁ x hx

/-! ## The foremost element of a kind -/

def takeBest (r : α → α → Bool) (best : Option α) (c : α) : Option α :=
  match best with
  | none => some c
  | some b => if r c b then some c else some b

/-- The element of `l` with `P` that is before every other one, if there is one with `P`. -/
def Foremost (before : α → α → Prop) (P : α → Prop) (l : List α) : Option α → Prop
  | none => ∀ c ∈ l, ¬ P c
  | some a => (a ∈ l ∧ P a) ∧ ∀ c ∈ l, P c → c ≠ a → before a c

section Foremost
variable {before : α → α → Prop} {P : α → Prop}

theorem Foremost.unique (hasymm : ∀ x ∈ l, ∀ y ∈ l, before x y → ¬ before y x) {o o' : Option α}
    (h : Foremost before P l o) (h' : Foremost before P l o') : o = o' := by
  cases o with
  | none => cases o' with
    | none => rfl
    | some b => exact absurd h'.1.2 (h b h'.1.1)
  | some a => cases o' with
    | none => exact absurd h.1.2 (h' a h.1.1)
    | some b =>
      by_contra hne
      have hab : a ≠ b := fun hab => hne (congrArg some hab)
      exact hasymm a h.1.1 b h'.1.1 (h.2 b h'.1.1 h'.1.2 hab.symm) (h'.2 a h.1.1 h.1.2 hab)

theorem Foremost.of_perm {l' : List α} (hp : l.Perm l') {o : Option α}
    (h : Foremost before P l o) : Foremost before P l' o := by
  cases o with
  | none => exact fun c hc => h c (hp.mem_iff.2 hc)
  | some a => exact ⟨⟨hp.mem_iff.1 h.1.1, h.1.2⟩, fun c hc => h.2 c (hp.mem_iff.2 hc)⟩

/-- A change that keeps the kind and the order of the elements keeps the foremost one. -/
theorem Foremost.map {before' : β → β → Prop} {P' : β → Prop} (f : α → β)
    (hP : ∀ x ∈ l, (P' (f x) ↔ P x)) (hb : ∀ x ∈ l, ∀ y ∈ l, before x y → before' (f x) (f y))
    {o : Option α} (h : Foremost before P l o) : Foremost before' P' (l.map f) (o.map f) := by
  cases o with
  | none =>
    intro c hc
    obtain ⟨x, hx, rfl⟩ := List.mem_map.1 hc
    exact fun hPx => h x hx ((hP x hx).1 hPx)
  | some a =>
    refine ⟨⟨List.mem_map_of_mem h.1.1, (hP a h.1.1).2 h.1.2⟩, ?_⟩
    intro c hc hPc hne
    obtain ⟨x, hx, rfl⟩ := List.mem_map.1 hc
    exact hb a h.1.1 x hx (h.2 x hx ((hP x hx).1 hPc) fun hxa => hne (congrArg f hxa))

theorem foldl_takeBest_some (a : α) (l : List α) :
    l.foldl (takeBest r) (some a) = some (bestOf r a l) := by
  induction l generalizing a with
  | nil => rfl
  | cons c l ih =>
    have hround : takeBest r (some a) c = some (if r c a then c else a) := by
      rw [takeBest]
      split_ifs <;> rfl
    rw [List.foldl_cons, hround, ih]
    rfl

/-- **The loop over the elements with `p` finds the foremost of them.** -/
theorem foremost_foldl {p : α → Bool} (h : StrictWeakOn r l)
    (htotal : ∀ x ∈ l, ∀ y ∈ l, x ≠ y → r x y = true ∨ r y x = true) :
    Foremost (fun x y => r x y = true) (fun c => p c = true) l
      (l.foldl (fun best c => if p c then takeBest r best c else best) none) := by
  rw [← List.foldl_filter]
  have hsub : l.filter p ⊆ l := fun x hx => (List.mem_filter.1 hx).1
  cases hl : l.filter p with
  | nil => exact fun c hc hpc => List.not_mem_nil (hl ▸ List.mem_filter.2 ⟨hc, hpc⟩)
  | cons a m =>
    rw [hl] at hsub
    have hmem := bestOf_mem (r := r) a m
    have hmax := (h.of_subset hsub).bestOf_maximal
    rw [List.foldl_cons, takeBest, foldl_takeBest_some]
    have hbest : bestOf r a m ∈ l ∧ p (bestOf r a m) = true := by
      rw [← List.mem_filter, hl]
      exact hmem
    refine ⟨hbest, fun c hc hpc hne => ?_⟩
    have hc' : c ∈ a :: m := hl ▸ List.mem_filter.2 ⟨hc, hpc⟩
    rcases htotal c hc _ hbest.1 hne with hlt | hlt
    · rw [hmax c hc'] at hlt
      cases hlt
    · exact hlt

end Foremost

/-! ## The first of the best -/

/-- An element of the list that is better than every one before it. -/
def Leads (r : α → α → Bool) (l : List α) (a : α) : Prop :=
  ∃ before after, l = before ++ a :: after ∧ ∀ x ∈ before, r a x = true

/-- An element that is better than every one before it, with none better after it. -/
def Wins (r : α → α → Bool) (l : List α) (a : α) : Prop :=
  ∃ before after, l = before ++ a :: after ∧ (∀ x ∈ before, r a x = true) ∧ ∀ x ∈ after, r x a = false

theorem Wins.leads {a : α} (h : Wins r l a) : Leads r l a := by
  obtain ⟨before, after, hl, hbefore, -⟩ := h
  exact ⟨before, after, hl, hbefore⟩

theorem Leads.mem {a : α} (h : Leads r l a) : a ∈ l := by
  obtain ⟨before, after, rfl, -⟩ := h
  exact List.mem_append_right _ List.mem_cons_self

theorem leads_concat {a c : α} : Leads r (l ++ [c]) a ↔ Leads r l a ∨ a = c ∧ ∀ x ∈ l, r c x = true := by
  constructor
  · rintro ⟨before, after, hl, hbefore⟩
    rcases List.eq_nil_or_concat after with rfl | ⟨after, d, rfl⟩
    · obtain ⟨rfl, hc⟩ := List.append_inj' hl rfl
      obtain rfl := (List.cons.inj hc).1
      exact Or.inr ⟨rfl, hbefore⟩
    · have hl' : l ++ [c] = before ++ a :: after ++ [d] := by
        rw [hl, List.concat_eq_append, List.append_assoc, List.cons_append]
      exact Or.inl ⟨before, after, (List.append_inj' hl' rfl).1, hbefore⟩
  · rintro (⟨before, after, rfl, hbefore⟩ | ⟨rfl, hall⟩)
    · exact ⟨before, after ++ [c], by rw [List.append_assoc, List.cons_append], hbefore⟩
    · exact ⟨l, [], rfl, hall⟩

theorem foldl_takeBest_concat (c : α) :
    (l ++ [c]).foldl (takeBest r) none = takeBest r (l.foldl (takeBest r) none) c := by
  rw [List.foldl_append]
  rfl

theorem foldl_takeBest_of_wins {a : α} (h : Wins r l a) : l.foldl (takeBest r) none = some a := by
  obtain ⟨before, after, rfl, hbefore, hafter⟩ := h
  have htaken : takeBest r (before.foldl (takeBest r) none) a = some a := by
    cases hb : before with
    | nil => rfl
    | cons b m =>
      have hmem := bestOf_mem (r := r) b m
      rw [List.foldl_cons, takeBest, foldl_takeBest_some, takeBest, if_pos (hbefore _ (hb ▸ hmem))]
  rw [List.foldl_append, List.foldl_cons, htaken]
  clear htaken hbefore
  induction after with
  | nil => rfl
  | cons x after ih =>
    have hx : r x a = false := hafter x List.mem_cons_self
    have hkept : takeBest r (some a) x = some a := by
      rw [takeBest, hx, if_neg Bool.false_ne_true]
    rw [List.foldl_cons, hkept]
    exact ih fun y hy => hafter y (List.mem_cons_of_mem x hy)

theorem Wins.better_iff {a c : α} (h : StrictWeakOn r (l ++ [c])) (hwins : Wins r l a) :
    r c a = true ↔ ∀ x ∈ l, r c x = true := by
  obtain ⟨before, after, rfl, hbefore, hafter⟩ := hwins
  have hin {x : α} (hx : x ∈ before ++ a :: after) : x ∈ before ++ a :: after ++ [c] :=
    List.mem_append_left _ hx
  have ha : a ∈ before ++ a :: after := List.mem_append_right _ List.mem_cons_self
  have hc : c ∈ before ++ a :: after ++ [c] := List.mem_append_right _ List.mem_cons_self
  refine ⟨fun hca x hx => ?_, fun hall => hall a ha⟩
  rcases List.mem_append.1 hx with hmem | hmem
  · exact h.trans c hc a (hin ha) x (hin hx) hca (hbefore x hmem)
  · rcases List.mem_cons.1 hmem with rfl | hmem
    · exact hca
    · by_contra hcx
      rw [Bool.not_eq_true] at hcx
      have hxa := hafter x hmem
      cases hax : r a x with
      | true =>
        rw [h.trans c hc a (hin ha) x (hin hx) hca hax] at hcx
        cases hcx
      | false =>
        have hxc : r x c = false := by
          by_contra hxc
          rw [Bool.not_eq_false] at hxc
          rw [h.trans x (hin hx) c hc a (hin ha) hxc hca] at hxa
          cases hxa
        rw [(h.incomp_trans c hc x (hin hx) a (hin ha) hcx hxc hxa hax).1] at hca
        cases hca

/-- **The loop finds the first of the best elements.** -/
theorem foldl_takeBest_iff {a : α} (h : StrictWeakOn r l) :
    l.foldl (takeBest r) none = some a ↔ Wins r l a := by
  refine ⟨fun hfold => ?_, foldl_takeBest_of_wins⟩
  induction l using List.reverseRecOn generalizing a with
  | nil => cases hfold
  | append_singleton l c ih =>
    have hl := h.of_subset (List.subset_append_left l [c])
    rw [foldl_takeBest_concat] at hfold
    cases hbest : l.foldl (takeBest r) none with
    | none =>
      rw [hbest, takeBest, Option.some.injEq] at hfold
      have hnil : l = [] := by
        cases l with
        | nil => rfl
        | cons b m =>
          rw [List.foldl_cons, takeBest, foldl_takeBest_some] at hbest
          cases hbest
      exact ⟨[], [], by rw [hnil, hfold], fun x hx => absurd hx List.not_mem_nil,
        fun x hx => absurd hx List.not_mem_nil⟩
    | some b =>
      have hb := ih hl hbest
      rw [hbest, takeBest] at hfold
      split_ifs at hfold with hcb
      · rw [← Option.some.inj hfold]
        exact ⟨l, [], rfl, (hb.better_iff h).1 hcb, fun x hx => absurd hx List.not_mem_nil⟩
      · obtain ⟨before, after, rfl, hbefore, hafter⟩ := Option.some.inj hfold ▸ hb
        refine ⟨before, after ++ [c], by rw [List.append_assoc, List.cons_append], hbefore, fun x hx => ?_⟩
        rcases List.mem_append.1 hx with hx | hx
        · exact hafter x hx
        · rw [List.mem_singleton.1 hx, ← Option.some.inj hfold]
          exact Bool.eq_false_iff.2 hcb

theorem takeBest_eq_iff {c : α} (h : StrictWeakOn r (l ++ [c])) :
    (∀ b, l.foldl (takeBest r) none = some b → r c b = true) ↔ ∀ x ∈ l, r c x = true := by
  have hl := h.of_subset (List.subset_append_left l [c])
  cases hbest : l.foldl (takeBest r) none with
  | none =>
    cases l with
    | nil => exact ⟨fun _ x hx => absurd hx List.not_mem_nil, fun _ b hb => nomatch hb⟩
    | cons b m =>
      rw [List.foldl_cons, takeBest, foldl_takeBest_some] at hbest
      cases hbest
  | some a =>
    rw [← ((foldl_takeBest_iff hl).1 hbest).better_iff h]
    exact ⟨fun hall => hall a rfl, fun hca b hb => Option.some.inj hb ▸ hca⟩

/-! ## The stable sort -/

/-- The stable sort, best first: `a` may stand before `b` unless `b` is better. -/
def rank (r : α → α → Bool) (l : List α) : List α := l.mergeSort fun a b => !r b a

theorem rank_perm (l : List α) : (rank r l).Perm l := List.mergeSort_perm l _

section Rank
variable [LinearOrder β] {key : α → β}

theorem decide_key_trans (a b c : α) (hab : decide (key a ≤ key b) = true)
    (hbc : decide (key b ≤ key c) = true) : decide (key a ≤ key c) = true := by
  rw [decide_eq_true_eq] at *
  exact hab.trans hbc

theorem decide_key_total (a b : α) :
    (decide (key a ≤ key b) || decide (key b ≤ key a)) = true := by
  rw [Bool.or_eq_true, decide_eq_true_eq, decide_eq_true_eq]
  exact le_total _ _

theorem OrderedBy.rank_eq (h : OrderedBy r key l) :
    rank r l = l.mergeSort fun a b => decide (key a ≤ key b) := by
  have hle : ∀ a ∈ l, ∀ b ∈ l, (!r b a) = decide (key (id a) ≤ key (id b)) := by
    intro a ha b hb
    rw [Bool.eq_iff_iff, Bool.not_eq_true', h.eq_false_iff hb ha, decide_eq_true_eq]
    rfl
  have hmap := List.map_mergeSort (f := id) (s := fun a b => decide (key a ≤ key b)) hle
  rwa [List.map_id, List.map_id] at hmap

/-- **The sort puts no element before a better one.** -/
theorem OrderedBy.rank_pairwise (h : OrderedBy r key l) :
    (rank r l).Pairwise fun a b => r b a = false := by
  have hsorted : (rank r l).Pairwise fun a b => decide (key a ≤ key b) = true := by
    rw [h.rank_eq]
    exact List.pairwise_mergeSort decide_key_trans decide_key_total l
  refine hsorted.imp_of_mem fun {a b} ha hb hab => ?_
  rw [decide_eq_true_eq] at hab
  exact (h.eq_false_iff ((rank_perm l).mem_iff.1 hb) ((rank_perm l).mem_iff.1 ha)).2 hab

/-- **The sort is stable**: elements that stand in order stay in that order. -/
theorem OrderedBy.rank_stable (h : OrderedBy r key l) {m : List α} (hm : m.Sublist l)
    (hs : m.Pairwise fun a b => r b a = false) : m.Sublist (rank r l) := by
  rw [h.rank_eq]
  refine List.sublist_mergeSort decide_key_trans decide_key_total ?_ hm
  refine hs.imp_of_mem fun {a b} ha hb hab => ?_
  rw [decide_eq_true_eq]
  exact (h.eq_false_iff (hm.subset hb) (hm.subset ha)).1 hab

end Rank

end KeyOrder
