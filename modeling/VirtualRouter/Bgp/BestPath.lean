/-
  The decision process (`routing/bgp/decision/BestPath.cpp`,
  `decision/DecisionEngine.hpp`) over the routes of `rib/RibTypes.hpp`.

  A route object is identified by its address, and its path attributes are held
  by value.  What `better` reads of the source neighbor is its router id and its
  address; a route without source neighbor is local.  `std::stable_sort` is the
  stable sort of `Lib/KeyOrder.lean`.

  Step 3 of `better` prefers a local route and has no counterpart that puts a
  route of a peer behind one, so that the later steps decide that direction.

  * `BestPathLaws`: the order laws of `better`, and what the selection and the
    ranking make of them;
  * `bestPathLaws_iff`: they hold iff no route of a peer wins the later steps
    against a local route of the same weight and local preference.
-/
import VirtualRouter.Lib.KeyOrder
import VirtualRouter.Bgp.UpdateParser

namespace VirtualRouter.Bgp

open KeyOrder

def BGP_AS_SEQUENCE : UInt8 := 2
def BGP_AS_CONFED_SEQUENCE : UInt8 := 3
def BGP_AS_CONFED_SET : UInt8 := 4

/-! ## Routes -/

structure SourceNeighbor where
  rid : UInt32
  neighborAddress : IPAddress
  deriving DecidableEq, Repr

/-- `InboundRoute`; `addr` is the address of the object. -/
structure InboundRoute where
  addr : ℕ
  sourceNeighbor : Option SourceNeighbor := none
  weigth : UInt16 := 0
  peerAs : UInt32 := 0
  ebgp : Bool := true
  confedEbgp : Bool := false
  igpCost : UInt64 := 0xFFFFFFFFFFFFFFFF
  receivedTime : ℤ := 0
  attrs : PathAttribute := {}
  deriving DecidableEq, Repr

structure LocalRoute where
  route : InboundRoute
  multipaths : List InboundRoute := []
  additionalPaths : List InboundRoute := []
  deriving DecidableEq, Repr

def Attributes.asPathLength (a : Attributes) : ℕ :=
  (a.asPath.map fun seg =>
    if seg.segmentType = BGP_AS_CONFED_SEQUENCE ∨ seg.segmentType = BGP_AS_CONFED_SET then 0
    else if seg.segmentType = BGP_AS_SET then if seg.asns.isEmpty then 0 else 1
    else seg.asns.length).sum

def localPrefOrDefault (a : PathAttribute) : UInt32 := a.attrs.localPref.getD 100

def medOrDefault (a : PathAttribute) (missingAsWorst : Bool) : UInt32 :=
  match a.attrs.med with
  | none => if missingAsWorst then 0xFFFFFFFF else 0
  | some med => med

def originRank (a : PathAttribute) : UInt8 := a.attrs.origin.getD BGP_ORIGIN_INCOMPLETE

/-! ## The comparison -/

structure BestPathConfig where
  compareRouterId : Bool := false
  medMissingAsWorst : Bool := false
  ignoreIgpMetric : Bool := false
  deriving DecidableEq, Repr

/-- `BestPathComparator`, with what it reads of the process. -/
structure BestPathComparator where
  config : BestPathConfig := {}
  alwaysCompareMed : Bool := false
  routerId : UInt32 := 0
  deriving DecidableEq, Repr

namespace BestPathComparator

variable (c : BestPathComparator)

def med (r : InboundRoute) : UInt32 := medOrDefault r.attrs c.config.medMissingAsWorst

def compareMed (lhs rhs : InboundRoute) : Bool :=
  if !c.alwaysCompareMed && lhs.peerAs != rhs.peerAs then false
  else decide (c.med lhs < c.med rhs)

def external (r : InboundRoute) : Bool := r.ebgp || r.confedEbgp

def rid (r : InboundRoute) : UInt32 :=
  match r.sourceNeighbor with
  | some nbr => nbr.rid
  | none => c.routerId

/-- The steps of `better` from the length of the AS path on. -/
def betterFromAsPath (lhs : InboundRoute) (lhsNbr : IPAddress) (rhs : InboundRoute)
    (rhsNbr : IPAddress) : Bool :=
  -- 4) shortest AS_PATH
  if lhs.attrs.attrs.asPathLength ≠ rhs.attrs.attrs.asPathLength then
    decide (lhs.attrs.attrs.asPathLength < rhs.attrs.attrs.asPathLength)
  -- 5) lowest ORIGIN code
  else if originRank lhs.attrs ≠ originRank rhs.attrs then
    decide (originRank lhs.attrs < originRank rhs.attrs)
  -- 6) lowest MED
  else if c.compareMed lhs rhs then true
  else if c.compareMed rhs lhs then false
  -- 7) external before internal
  else if external lhs ≠ external rhs then external lhs
  -- 8) lowest IGP metric
  else if !c.config.ignoreIgpMetric ∧ lhs.igpCost ≠ rhs.igpCost then
    decide (lhs.igpCost < rhs.igpCost)
  -- 9/10) oldest route, or lowest router id
  else if !c.config.compareRouterId ∧ lhs.receivedTime ≠ rhs.receivedTime then
    decide (lhs.receivedTime < rhs.receivedTime)
  else if c.config.compareRouterId ∧ c.rid lhs ≠ c.rid rhs then decide (c.rid lhs < c.rid rhs)
  -- lowest neighbor address
  else decide (lhsNbr.raw < rhsNbr.raw)

def better (lhs : InboundRoute) (lhsNbr : IPAddress) (rhs : InboundRoute) (rhsNbr : IPAddress) :
    Bool :=
  -- 1) highest weight
  if lhs.weigth ≠ rhs.weigth then decide (lhs.weigth > rhs.weigth)
  -- 2) highest local-pref
  else if localPrefOrDefault lhs.attrs ≠ localPrefOrDefault rhs.attrs then
    decide (localPrefOrDefault lhs.attrs > localPrefOrDefault rhs.attrs)
  -- 3) locally originated
  else if lhs.sourceNeighbor.isNone ∧ rhs.sourceNeighbor.isSome then true
  else c.betterFromAsPath lhs lhsNbr rhs rhsNbr

/-- The address that the decision process compares: the empty one for a local route. -/
def nbrAddr (r : InboundRoute) : IPAddress :=
  match r.sourceNeighbor with
  | some nbr => nbr.neighborAddress
  | none => {}

/-- The comparison of two candidates. -/
def prefers (lhs rhs : InboundRoute) : Bool := c.better lhs (nbrAddr lhs) rhs (nbrAddr rhs)

def equivalent (lhs : InboundRoute) (lhsNbr : IPAddress) (rhs : InboundRoute) (rhsNbr : IPAddress) :
    Bool :=
  !c.better lhs lhsNbr rhs rhsNbr && !c.better rhs rhsNbr lhs lhsNbr

def selectBest (candidates : List InboundRoute) (maxEPaths maxIPaths : ℕ) : Option LocalRoute :=
  match candidates with
  | [] => none
  | first :: rest =>
    let best := KeyOrder.bestOf c.prefers first rest
    let maxPaths := if best.ebgp then maxEPaths else maxIPaths
    -- the loop over the equal routes ends when there are `maxPaths` with the best one
    let equal := candidates.filter fun cand =>
      cand.addr ≠ best.addr ∧ c.equivalent best (nbrAddr best) cand (nbrAddr cand)
    some { route := best, multipaths := if maxPaths > 1 then equal.take (maxPaths - 1) else [] }

def rankCandidates (candidates : List InboundRoute) : List InboundRoute := rank c.prefers candidates

/-! ## The steps as an order -/

/-- The MED of `lhs` is lower and may be compared. -/
def MedLower (lhs rhs : InboundRoute) : Prop :=
  (c.alwaysCompareMed = true ∨ lhs.peerAs = rhs.peerAs) ∧ (c.med lhs).toNat < (c.med rhs).toNat

theorem compareMed_eq_true (lhs rhs : InboundRoute) :
    c.compareMed lhs rhs = true ↔ c.MedLower lhs rhs := by
  unfold compareMed MedLower
  cases c.alwaysCompareMed <;> by_cases h : lhs.peerAs = rhs.peerAs <;>
    simp [h, UInt32.lt_iff_toNat_lt]

/-! The numbers that the steps behind the MED compare in turn, lower ones first. -/

def externalKey (r : InboundRoute) : ℤ := if external r then 0 else 1

def igpKey (r : InboundRoute) : ℤ := if c.config.ignoreIgpMetric then 0 else r.igpCost.toNat

def ageKey (r : InboundRoute) : ℤ :=
  if c.config.compareRouterId then (c.rid r).toNat else r.receivedTime

def lateKey (r : InboundRoute) : List ℤ :=
  [externalKey r, c.igpKey r, c.ageKey r, (nbrAddr r).raw.toNat]

/-- `lhs` wins the steps from the AS path on: a shorter path, or on equal ones a lower origin, or
    then a lower MED, or then, unless its MED is higher, the lower of the remaining numbers. -/
def WinsFromAsPath (lhs rhs : InboundRoute) : Prop :=
  lhs.attrs.attrs.asPathLength < rhs.attrs.attrs.asPathLength ∨
    (lhs.attrs.attrs.asPathLength = rhs.attrs.attrs.asPathLength ∧
      ((originRank lhs.attrs).toNat < (originRank rhs.attrs).toNat ∨
        (originRank lhs.attrs = originRank rhs.attrs ∧
          (c.MedLower lhs rhs ∨ (¬ c.MedLower rhs lhs ∧ c.lateKey lhs < c.lateKey rhs)))))

section Steps
variable (lhs rhs : InboundRoute) (t : Bool)

theorem external_step :
    (if external lhs ≠ external rhs then external lhs else t) = true ↔
      externalKey lhs < externalKey rhs ∨ (externalKey lhs = externalKey rhs ∧ t = true) := by
  unfold externalKey
  cases external lhs <;> cases external rhs <;> simp

theorem igp_step :
    (if !c.config.ignoreIgpMetric ∧ lhs.igpCost ≠ rhs.igpCost then
        decide (lhs.igpCost < rhs.igpCost) else t) = true ↔
      c.igpKey lhs < c.igpKey rhs ∨ (c.igpKey lhs = c.igpKey rhs ∧ t = true) := by
  unfold igpKey
  rcases c.config.ignoreIgpMetric with _ | _
  · by_cases h : lhs.igpCost = rhs.igpCost
    · simp [h]
    · simp [h, UInt64.lt_iff_toNat_lt, UInt64.toNat_inj]
  · simp

theorem age_step :
    (if !c.config.compareRouterId ∧ lhs.receivedTime ≠ rhs.receivedTime then
        decide (lhs.receivedTime < rhs.receivedTime)
      else if c.config.compareRouterId ∧ c.rid lhs ≠ c.rid rhs then decide (c.rid lhs < c.rid rhs)
      else t) = true ↔
      c.ageKey lhs < c.ageKey rhs ∨ (c.ageKey lhs = c.ageKey rhs ∧ t = true) := by
  unfold ageKey
  rcases c.config.compareRouterId with _ | _
  · by_cases h : lhs.receivedTime = rhs.receivedTime
    · simp [h]
    · simp [h]
  · by_cases h : c.rid lhs = c.rid rhs
    · simp [h]
    · simp [h, UInt32.lt_iff_toNat_lt, UInt32.toNat_inj]

theorem lateKey_lt_iff :
    (if external lhs ≠ external rhs then external lhs
      else if !c.config.ignoreIgpMetric ∧ lhs.igpCost ≠ rhs.igpCost then
        decide (lhs.igpCost < rhs.igpCost)
      else if !c.config.compareRouterId ∧ lhs.receivedTime ≠ rhs.receivedTime then
        decide (lhs.receivedTime < rhs.receivedTime)
      else if c.config.compareRouterId ∧ c.rid lhs ≠ c.rid rhs then decide (c.rid lhs < c.rid rhs)
      else decide ((nbrAddr lhs).raw < (nbrAddr rhs).raw)) = true ↔ c.lateKey lhs < c.lateKey rhs := by
  rw [external_step, igp_step, age_step]
  simp only [lateKey, List.cons_lt_cons_iff, decide_eq_true_eq, BitVec.lt_def, Nat.cast_lt,
    List.lt_irrefl, and_false, or_false]

end Steps

/-- **The later steps, as an order.** -/
theorem betterFromAsPath_eq_true (lhs rhs : InboundRoute) :
    c.betterFromAsPath lhs (nbrAddr lhs) rhs (nbrAddr rhs) = true ↔ c.WinsFromAsPath lhs rhs := by
  unfold betterFromAsPath WinsFromAsPath
  rcases lt_trichotomy lhs.attrs.attrs.asPathLength rhs.attrs.attrs.asPathLength with h | h | h
  · simp [h, h.ne]
  · rw [if_neg (not_not.2 h)]
    simp only [h, lt_irrefl, false_or, true_and]
    by_cases ho : originRank lhs.attrs = originRank rhs.attrs
    · rw [if_neg (not_not.2 ho)]
      simp only [ho, lt_irrefl, false_or, true_and]
      by_cases hm : c.MedLower lhs rhs
      · rw [if_pos ((c.compareMed_eq_true lhs rhs).2 hm)]
        simp [hm]
      · rw [if_neg fun h => hm ((c.compareMed_eq_true lhs rhs).1 h)]
        by_cases hm' : c.MedLower rhs lhs
        · rw [if_pos ((c.compareMed_eq_true rhs lhs).2 hm')]
          simp [hm, hm']
        · rw [if_neg fun h => hm' ((c.compareMed_eq_true rhs lhs).1 h), lateKey_lt_iff]
          simp [hm, hm']
    · rw [if_pos ho]
      simp [ho, UInt8.lt_iff_toNat_lt]
  · simp [h.ne', h.not_gt]

theorem WinsFromAsPath.asymm {c : BestPathComparator} {x y : InboundRoute} (h : c.WinsFromAsPath x y) :
    ¬ c.WinsFromAsPath y x := by
  rintro (h₁ | ⟨e₁, h₁ | ⟨e₂, h₁ | ⟨m₁, h₁⟩⟩⟩)
  · rcases h with h | ⟨e, -⟩ <;> omega
  · rcases h with h | ⟨e, h | ⟨e', -⟩⟩
    · omega
    · omega
    · rw [e'] at h₁
      exact lt_irrefl _ h₁
  · rcases h with h | ⟨-, h | ⟨-, h | ⟨m, -⟩⟩⟩
    · omega
    · rw [e₂] at h
      exact lt_irrefl _ h
    · exact lt_asymm h.2 h₁.2
    · exact m h₁
  · rcases h with h | ⟨-, h | ⟨-, h | ⟨-, h⟩⟩⟩
    · omega
    · rw [e₂] at h
      exact lt_irrefl _ h
    · exact m₁ h
    · exact lt_asymm h h₁

theorem not_winsFromAsPath_self (x : InboundRoute) : ¬ c.WinsFromAsPath x x :=
  fun h => h.asymm h

def LocalFirst (lhs rhs : InboundRoute) : Prop :=
  lhs.sourceNeighbor = none ∧ rhs.sourceNeighbor ≠ none

def Ties (lhs rhs : InboundRoute) : Prop :=
  lhs.weigth = rhs.weigth ∧ localPrefOrDefault lhs.attrs = localPrefOrDefault rhs.attrs

/-- The first two steps decide for `lhs`. -/
def Outranks (lhs rhs : InboundRoute) : Prop :=
  rhs.weigth.toNat < lhs.weigth.toNat ∨
    (lhs.weigth = rhs.weigth ∧
      (localPrefOrDefault rhs.attrs).toNat < (localPrefOrDefault lhs.attrs).toNat)

/-- **The comparison, step by step.** -/
theorem prefers_eq_true (x y : InboundRoute) : c.prefers x y = true ↔
    Outranks x y ∨ (Ties x y ∧ (LocalFirst x y ∨ c.WinsFromAsPath x y)) := by
  unfold prefers better Outranks Ties LocalFirst
  by_cases hw : x.weigth = y.weigth
  · rw [if_neg (not_not.2 hw)]
    by_cases hl : localPrefOrDefault x.attrs = localPrefOrDefault y.attrs
    · rw [if_neg (not_not.2 hl)]
      simp only [hw, hl, lt_irrefl, and_false, or_false, false_or, true_and, Option.isNone_iff_eq_none,
        Option.isSome_iff_ne_none]
      split_ifs with h3
      · simp [h3.1, h3.2]
      · rw [betterFromAsPath_eq_true]
        simp only [h3, false_or]
    · rw [if_pos hl]
      simp [hw, hl, UInt32.lt_iff_toNat_lt]
  · rw [if_pos hw]
    simp [hw, UInt16.lt_iff_toNat_lt]

/-- No route of a peer wins the later steps against a local route that it ties with. -/
def NoLocalTie (l : List InboundRoute) : Prop :=
  ∀ x ∈ l, ∀ y ∈ l, LocalFirst x y → Ties x y → ¬ c.WinsFromAsPath y x

theorem Ties.symm {x y : InboundRoute} (h : Ties x y) : Ties y x := ⟨h.1.symm, h.2.symm⟩

theorem Outranks.asymm {x y : InboundRoute} (h : Outranks x y) : ¬ Outranks y x := by
  rintro (h' | ⟨e, h'⟩)
  · rcases h with h | ⟨e, -⟩
    · omega
    · rw [e] at h'
      exact lt_irrefl _ h'
  · rcases h with h | ⟨-, h⟩
    · rw [e] at h
      exact lt_irrefl _ h
    · omega

theorem Outranks.not_ties {x y : InboundRoute} (h : Outranks x y) : ¬ Ties x y := by
  rintro ⟨hw, hl⟩
  rcases h with h | ⟨-, h⟩
  · rw [hw] at h
    exact lt_irrefl _ h
  · rw [hl] at h
    exact lt_irrefl _ h

theorem prefers_irrefl (x : InboundRoute) : c.prefers x x = false := by
  rw [← Bool.not_eq_true, prefers_eq_true]
  rintro (h | ⟨-, h | h⟩)
  · exact h.asymm h
  · exact h.2 h.1
  · exact c.not_winsFromAsPath_self x h

theorem NoLocalTie.asymm {l : List InboundRoute} (h : c.NoLocalTie l) {x y : InboundRoute}
    (hx : x ∈ l) (hy : y ∈ l) (hxy : c.prefers x y = true) : c.prefers y x = false := by
  rw [prefers_eq_true] at hxy
  rw [← Bool.not_eq_true, prefers_eq_true]
  rintro (h' | ⟨ht, h'⟩)
  · rcases hxy with hxy | ⟨ht, -⟩
    · exact hxy.asymm h'
    · exact h'.not_ties ht.symm
  · rcases hxy with hxy | ⟨-, hxy⟩
    · exact hxy.not_ties ht.symm
    · rcases hxy with hxy | hxy <;> rcases h' with h' | h'
      · exact h'.2 hxy.1
      · exact h x hx y hy hxy ht.symm h'
      · exact h y hy x hx h' ht hxy
      · exact hxy.asymm h'

/-! ## The key -/

def localKey (r : InboundRoute) : ℤ := if r.sourceNeighbor = none then 0 else 1

/-- The numbers that the steps compare in turn when the MED is always compared. -/
def key (r : InboundRoute) : List ℤ :=
  -r.weigth.toNat :: -(localPrefOrDefault r.attrs).toNat :: localKey r ::
    r.attrs.attrs.asPathLength :: (originRank r.attrs).toNat :: (c.med r).toNat :: c.lateKey r

theorem winsFromAsPath_iff_key (hacm : c.alwaysCompareMed = true) (x y : InboundRoute) :
    c.WinsFromAsPath x y ↔
      ((x.attrs.attrs.asPathLength : ℤ) :: ((originRank x.attrs).toNat : ℤ) :: ((c.med x).toNat : ℤ) ::
          c.lateKey x) <
        ((y.attrs.attrs.asPathLength : ℤ) :: ((originRank y.attrs).toNat : ℤ) ::
          ((c.med y).toNat : ℤ) :: c.lateKey y) := by
  simp only [WinsFromAsPath, MedLower, hacm, true_or, true_and, List.cons_lt_cons_iff, Nat.cast_lt,
    Nat.cast_inj, UInt8.toNat_inj]
  have hmed : ∀ {a b : ℕ} {p : Prop}, (a < b ∨ (¬ b < a ∧ p)) ↔ (a < b ∨ (a = b ∧ p)) := by
    intro a b p
    constructor
    · rintro (h | ⟨h, hp⟩)
      · exact Or.inl h
      · rcases (not_lt.1 h).lt_or_eq with h | h
        · exact Or.inl h
        · exact Or.inr ⟨h, hp⟩
    · rintro (h | ⟨h, hp⟩)
      · exact Or.inl h
      · exact Or.inr ⟨h.not_gt, hp⟩
  rw [hmed]

theorem NoLocalTie.orderedBy {l : List InboundRoute} (h : c.NoLocalTie l)
    (hacm : c.alwaysCompareMed = true) : OrderedBy c.prefers c.key l := by
  intro x hx y hy
  have hlocal : Ties x y → (LocalFirst x y ∨ c.WinsFromAsPath x y ↔
      localKey x < localKey y ∨ (localKey x = localKey y ∧ c.WinsFromAsPath x y)) := by
    intro ht
    have hno := h y hy x hx
    unfold localKey
    by_cases hxl : x.sourceNeighbor = none <;> by_cases hyl : y.sourceNeighbor = none
    · simp [LocalFirst, hxl, hyl]
    · simp [LocalFirst, hxl, hyl]
    · have hnot := hno ⟨hyl, hxl⟩ ht.symm
      simp [LocalFirst, hxl, hyl, hnot]
    · simp [LocalFirst, hxl, hyl]
  rw [prefers_eq_true, key, key, List.cons_lt_cons_iff, List.cons_lt_cons_iff, List.cons_lt_cons_iff,
    ← c.winsFromAsPath_iff_key hacm]
  unfold Outranks
  constructor
  · rintro ((hw | ⟨hw, hl⟩) | ⟨ht, hr⟩)
    · left; omega
    · right
      exact ⟨by rw [hw], Or.inl (by omega)⟩
    · right
      exact ⟨by rw [ht.1], Or.inr ⟨by rw [ht.2], (hlocal ht).1 hr⟩⟩
  · rintro (hw | ⟨hw, hl | ⟨hl, hr⟩⟩)
    · left; left; omega
    · left; right
      exact ⟨UInt16.toNat_inj.1 (by omega), by omega⟩
    · right
      have ht : Ties x y := ⟨UInt16.toNat_inj.1 (by omega), UInt32.toNat_inj.1 (by omega)⟩
      exact ⟨ht, (hlocal ht).2 hr⟩

/-! ## Selection and ranking -/

/-- What the order laws give for a candidate vector: in whatever order it comes, a maximal route is
    selected, and the ranking is sorted, stable and complete. -/
structure Selects (l : List InboundRoute) : Prop where
  strictWeak : StrictWeakOn c.prefers l
  best : ∀ l' : List InboundRoute, l'.Perm l → l ≠ [] → ∀ maxEPaths maxIPaths, ∃ r,
    c.selectBest l' maxEPaths maxIPaths = some r ∧ r.route ∈ l ∧
      ∀ x ∈ l, c.prefers x r.route = false
  best_order : ∀ l₁ l₂ : List InboundRoute, l₁.Perm l → l₂.Perm l → ∀ maxEPaths maxIPaths r₁ r₂,
    c.selectBest l₁ maxEPaths maxIPaths = some r₁ → c.selectBest l₂ maxEPaths maxIPaths = some r₂ →
      c.equivalent r₁.route (nbrAddr r₁.route) r₂.route (nbrAddr r₂.route) = true
  ranked_perm : (c.rankCandidates l).Perm l
  ranked : (c.rankCandidates l).Pairwise fun a b => c.prefers b a = false
  ranked_stable : ∀ m : List InboundRoute, m.Sublist l → (m.Pairwise fun a b => c.prefers b a = false) →
    m.Sublist (c.rankCandidates l)

/-- The laws of the comparison on the routes of `l`. -/
structure BestPathLaws (l : List InboundRoute) : Prop where
  always_compare_med : c.alwaysCompareMed = true → c.Selects l
  irrefl : ∀ x ∈ l, c.prefers x x = false
  asymm : ∀ x ∈ l, ∀ y ∈ l, c.prefers x y = true → c.prefers y x = false

theorem selectBest_route {c : BestPathComparator} {l : List InboundRoute} {maxEPaths maxIPaths : ℕ}
    {r : LocalRoute} (hr : c.selectBest l maxEPaths maxIPaths = some r)
    (h : StrictWeakOn c.prefers l) : r.route ∈ l ∧ ∀ x ∈ l, c.prefers x r.route = false := by
  rcases l with _ | ⟨first, rest⟩
  · cases hr
  · obtain rfl := Option.some.inj hr
    exact ⟨KeyOrder.bestOf_mem first rest, h.bestOf_maximal⟩

theorem NoLocalTie.selects {l : List InboundRoute} (h : c.NoLocalTie l)
    (hacm : c.alwaysCompareMed = true) : c.Selects l := by
  have hkey := h.orderedBy c hacm
  have hweak := hkey.strictWeakOn
  -- the selected route, whatever the order of the candidates
  have hbest : ∀ {l' : List InboundRoute} {maxEPaths maxIPaths r}, l'.Perm l →
      c.selectBest l' maxEPaths maxIPaths = some r →
        r.route ∈ l ∧ ∀ x ∈ l, c.prefers x r.route = false := by
    intro l' maxEPaths maxIPaths r hp hr
    obtain ⟨hmem, hmax⟩ := selectBest_route hr (hweak.of_perm hp)
    exact ⟨hp.mem_iff.1 hmem, fun x hx => hmax x (hp.mem_iff.2 hx)⟩
  refine ⟨hweak, ?_, ?_, rank_perm l, hkey.rank_pairwise, fun m hm hs => hkey.rank_stable hm hs⟩
  · intro l' hp hne maxEPaths maxIPaths
    rcases l' with _ | ⟨first, rest⟩
    · exact absurd hp.symm.eq_nil hne
    · exact ⟨_, rfl, hbest hp rfl⟩
  · intro l₁ l₂ hp₁ hp₂ maxEPaths maxIPaths r₁ r₂ hr₁ hr₂
    obtain ⟨hm₁, hmax₁⟩ := hbest hp₁ hr₁
    obtain ⟨hm₂, hmax₂⟩ := hbest hp₂ hr₂
    have h₁ := hmax₂ _ hm₁
    have h₂ := hmax₁ _ hm₂
    unfold prefers at h₁ h₂
    simp [equivalent, h₁, h₂]

/-- **The comparison is the order it should be iff no route of a peer wins the later steps against a
    local route of the same weight and local preference.** -/
theorem bestPathLaws_iff (l : List InboundRoute) : c.BestPathLaws l ↔ c.NoLocalTie l := by
  constructor
  · intro h x hx y hy hlocal hties hwins
    have hxy : c.prefers x y = true := (c.prefers_eq_true x y).2 (Or.inr ⟨hties, Or.inl hlocal⟩)
    have hyx : c.prefers y x = true :=
      (c.prefers_eq_true y x).2 (Or.inr ⟨hties.symm, Or.inr hwins⟩)
    rw [h.asymm x hx y hy hxy] at hyx
    cases hyx
  · intro h
    exact ⟨h.selects c, fun x _ => c.prefers_irrefl x, fun x hx y hy hxy => h.asymm c hx hy hxy⟩

def sampleLocal : InboundRoute where
  addr := 0
  weigth := 32768
  attrs := { attrs := { origin := some 0 } }

/-- A route of a confederation peer with the weight of a local route. -/
def sampleConfed : InboundRoute where
  addr := 1
  sourceNeighbor := some ⟨1, .ofV4 0x0A000002⟩
  weigth := 32768
  peerAs := 65001
  ebgp := false
  confedEbgp := true
  igpCost := 10
  attrs := { attrs := { origin := some 0, asPath := [⟨3, [65001]⟩] } }

/-- Each of the two routes is better than the other. -/
theorem not_bestPathLaws_sample :
    ¬ ({ alwaysCompareMed := true } : BestPathComparator).BestPathLaws
      [sampleLocal, sampleConfed] := by
  intro h
  have hasymm := h.asymm sampleLocal (by decide) sampleConfed (by decide)
  revert hasymm
  decide

end BestPathComparator

end VirtualRouter.Bgp
