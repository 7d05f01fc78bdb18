/-
  When two OSPFv3 router LSAs are the same (`RouterLsaV3::operator==`).

  The links of each side are compared in the order of `RouterLinkV3::operator<`,
  which does not look at the metric.  What `std::sort` makes of the indices of some
  links is a parameter `sort`, with the law `Sorts`: where the comparison does not
  tell links apart, their order is not said.

  * `same_iff`: the two sides are the same if their sorted links are;
  * `same_equivalence`: for each sort, the comparison is an equivalence relation;
  * `OrderIndependent`: the order of the links does not matter, and a refresh that
    reorders them is no change of the topology;
  * `orderIndependent_iff`: so it is, unless the lists are different arrangements of links
    of which two differ in the metric alone.
-/
import VirtualRouter.Lib.IndexSort
import VirtualRouter.Ospf.LsaInstall
import VirtualRouter.Ospf.RouterLsaV3

namespace VirtualRouter.Ospf

open IndexSort

/-! ## Comparison -/

/-- `RouterLinkV3::operator<`. -/
def RouterLinkV3.less (a b : RouterLinkV3) : Bool :=
  if a.type ≠ b.type then a.type < b.type
  else if a.interfaceId ≠ b.interfaceId then a.interfaceId < b.interfaceId
  else if a.neighborInterfaceId ≠ b.neighborInterfaceId then
    a.neighborInterfaceId < b.neighborInterfaceId
  else a.neighborRouterId < b.neighborRouterId

namespace RouterLsaV3

def iota (n : ℕ) : List UInt16 := (List.range n).map UInt16.ofNat

/-- `links[i]`. -/
def linkAt (links : List RouterLinkV3) (i : UInt16) : Option RouterLinkV3 := links[i.toNat]?

/-- `operator==`; `sort links` is what `std::sort` makes of the indices of `links`. -/
def same (sort : List RouterLinkV3 → List UInt16) (x y : RouterLsaV3) : Bool :=
  if x.options ≠ y.options ∨ x.links.length ≠ y.links.length then false
  else
    let a := sort x.links
    let b := sort y.links
    (a.zip b).all fun p => linkAt x.links p.1 = linkAt y.links p.2

/-- The law of `std::sort`. -/
def Sorts (sort : List RouterLinkV3 → List UInt16) : Prop :=
  ∀ links, links.length < 65536 →
    SortResult RouterLinkV3.less (linkAt links) (iota links.length) (sort links)

/-- A refresh from `x` to `y` is no change of the topology. -/
def KeepsTopology (sort : List RouterLinkV3 → List UInt16) (x y : RouterLsaV3) : Prop :=
  ∀ (p : BodyPolicy RouterLsaV3) (area : Area) (rec : LsaRecord RouterLsaV3) (ctx : LsaContext)
    (now : ℕ), p.compareLsaBody = same sort → rec.body = x → ctx.header.age ≠ OSPF_MAX_AGE →
    (area.evaluateIncomingLsa p (some rec) ctx y now).1.topologyChanged = false

def OrderIndependent (x y : RouterLsaV3) : Prop :=
  ∀ sort, Sorts sort →
    (same sort x y = true ↔ x.options = y.options ∧ x.links.Perm y.links) ∧
    (x.options = y.options → x.links.Perm y.links → KeepsTopology sort x y)

def DifferInMetric (p q : RouterLinkV3) : Prop :=
  q = { p with metric := q.metric } ∧ p.metric ≠ q.metric

instance (p q : RouterLinkV3) : Decidable (DifferInMetric p q) :=
  inferInstanceAs (Decidable (_ ∧ _))

/-! ## The order of links -/

/-- What the comparison looks at, as one number. -/
def rank (p : RouterLinkV3) : ℕ :=
  ((p.type.toNat * 2 ^ 32 + p.interfaceId.toNat) * 2 ^ 32 + p.neighborInterfaceId.toNat) * 2 ^ 32 +
    p.neighborRouterId.toNat

theorem less_iff_rank (p q : RouterLinkV3) : p.less q = true ↔ rank p < rank q := by
  have hpi := p.interfaceId.toNat_lt
  have hqi := q.interfaceId.toNat_lt
  have hpn := p.neighborInterfaceId.toNat_lt
  have hqn := q.neighborInterfaceId.toNat_lt
  have hpr := p.neighborRouterId.toNat_lt
  have hqr := q.neighborRouterId.toNat_lt
  simp only [RouterLinkV3.less, rank, ne_eq, ← UInt8.toNat_inj, ← UInt32.toNat_inj,
    UInt8.lt_iff_toNat_lt, UInt32.lt_iff_toNat_lt]
  split_ifs with htype hinterface hneighbor
  · rw [decide_eq_true_eq]
    omega
  · rw [decide_eq_true_eq]
    omega
  · rw [decide_eq_true_eq]
    omega
  · rw [decide_eq_true_eq]
    omega

theorem eq_of_rank_eq {p q : RouterLinkV3} (h : rank p = rank q) : q = { p with metric := q.metric } := by
  have hpi := p.interfaceId.toNat_lt
  have hqi := q.interfaceId.toNat_lt
  have hpn := p.neighborInterfaceId.toNat_lt
  have hqn := q.neighborInterfaceId.toNat_lt
  have hpr := p.neighborRouterId.toNat_lt
  have hqr := q.neighborRouterId.toNat_lt
  rw [rank, rank] at h
  have htype : q.type = p.type := UInt8.toNat_inj.1 (by omega)
  have hinterface : q.interfaceId = p.interfaceId := UInt32.toNat_inj.1 (by omega)
  have hneighbor : q.neighborInterfaceId = p.neighborInterfaceId := UInt32.toNat_inj.1 (by omega)
  have hrouter : q.neighborRouterId = p.neighborRouterId := UInt32.toNat_inj.1 (by omega)
  cases q
  simp only at htype hinterface hneighbor hrouter
  rw [htype, hinterface, hneighbor, hrouter]

theorem DifferInMetric.rank_eq {p q : RouterLinkV3} (h : DifferInMetric p q) : rank p = rank q := by
  rw [h.1]
  rfl

/-! ## Sorted links -/

variable {sort : List RouterLinkV3 → List UInt16} {x y z : RouterLsaV3} {links : List RouterLinkV3}

theorem map_iota (h : links.length < 65536) :
    (iota links.length).map (linkAt links) = links.map some := by
  refine List.ext_getElem (by simp [iota]) ?_
  intro i h₁ h₂
  have hi : i < links.length := by simpa using h₂
  have hmod : i % 65536 = i := Nat.mod_eq_of_lt (hi.trans h)
  simp [iota, linkAt, hmod, hi]

/-- The links in the order of a sort. -/
def arranged (sort : List RouterLinkV3 → List UInt16) (links : List RouterLinkV3) :
    List (Option RouterLinkV3) := (sort links).map (linkAt links)

theorem Sorts.arranges (hs : Sorts sort) (h : links.length < 65536) :
    ∃ L, Arranges RouterLinkV3.less links L ∧ arranged sort links = L.map some :=
  (hs links h).arranges (map_iota h)

theorem Sorts.length_sort (hs : Sorts sort) (h : links.length < 65536) :
    (sort links).length = links.length := by
  rw [(hs links h).perm.length_eq, iota, List.length_map, List.length_range]

theorem all_zip_iff {a b : List UInt16} {f g : UInt16 → Option RouterLinkV3} (h : a.length = b.length) :
    ((a.zip b).all fun p => f p.1 = g p.2) = true ↔ a.map f = b.map g := by
  induction a generalizing b with
  | nil =>
    obtain rfl : b = [] := List.length_eq_zero_iff.1 h.symm
    simp
  | cons i a ih =>
    cases b with
    | nil => cases h
    | cons j b => simp [ih (Nat.succ.inj h)]

theorem same_iff (hs : Sorts sort) (hx : x.links.length < 65536) (hy : y.links.length < 65536) :
    same sort x y = true ↔
      x.options = y.options ∧ arranged sort x.links = arranged sort y.links := by
  rw [same]
  split_ifs with hne
  · simp only [false_iff, not_and]
    intro hoptions heq
    have hlen := congrArg List.length heq
    rw [arranged, arranged, List.length_map, List.length_map, hs.length_sort hx,
      hs.length_sort hy] at hlen
    rcases hne with hne | hne
    · exact hne hoptions
    · exact hne hlen
  · obtain ⟨hoptions, hlen⟩ := not_or.1 hne
    rw [not_not] at hoptions hlen
    have hlength : (sort x.links).length = (sort y.links).length := by
      rw [hs.length_sort hx, hs.length_sort hy, hlen]
    rw [all_zip_iff hlength, arranged, arranged]
    exact ⟨fun h => ⟨hoptions, h⟩, And.right⟩

/-- For each sort the comparison is an equivalence relation. -/
theorem same_equivalence (hs : Sorts sort) :
    Equivalence fun x y : { lsa : RouterLsaV3 // lsa.links.length < 65536 } =>
      same sort x.1 y.1 = true where
  refl x := (same_iff hs x.2 x.2).2 ⟨rfl, rfl⟩
  symm {x y} h := by
    rw [same_iff hs x.2 y.2] at h
    exact (same_iff hs y.2 x.2).2 ⟨h.1.symm, h.2.symm⟩
  trans {x y z} h₁ h₂ := by
    rw [same_iff hs x.2 y.2] at h₁
    rw [same_iff hs y.2 z.2] at h₂
    exact (same_iff hs x.2 z.2).2 ⟨h₁.1.trans h₂.1, h₁.2.trans h₂.2⟩

theorem perm_of_same (hs : Sorts sort) (hx : x.links.length < 65536) (hy : y.links.length < 65536)
    (h : same sort x y = true) : x.options = y.options ∧ x.links.Perm y.links := by
  obtain ⟨hoptions, heq⟩ := (same_iff hs hx hy).1 h
  obtain ⟨L, hL, hLx⟩ := hs.arranges hx
  obtain ⟨M, hM, hMy⟩ := hs.arranges hy
  have hLM : L = M := by
    rw [hLx, hMy] at heq
    exact List.map_injective_iff.2 (Option.some_injective _) heq
  exact ⟨hoptions, hL.perm.symm.trans (hLM ▸ hM.perm)⟩

theorem exists_sorts {L M : List RouterLinkV3} (hx : x.links.length < 65536)
    (hy : y.links.length < 65536) (hL : Arranges RouterLinkV3.less x.links L)
    (hM : Arranges RouterLinkV3.less y.links M) (hne : x.links ≠ y.links) :
    ∃ sort, Sorts sort ∧ arranged sort x.links = L.map some ∧ arranged sort y.links = M.map some := by
  classical
  have hsome : ∀ links : List RouterLinkV3, ∃ a, links.length < 65536 →
      SortResult RouterLinkV3.less (linkAt links) (iota links.length) a ∧
        (links = x.links → a.map (linkAt links) = L.map some) ∧
        (links = y.links → a.map (linkAt links) = M.map some) := by
    intro links
    by_cases hlen : links.length < 65536
    · by_cases hlx : links = x.links
      · subst hlx
        obtain ⟨a, ha, haL⟩ := exists_sortResult (map_iota hlen) hL
        exact ⟨a, fun _ => ⟨ha, fun _ => haL, fun h => absurd h hne⟩⟩
      · by_cases hly : links = y.links
        · subst hly
          obtain ⟨a, ha, haM⟩ := exists_sortResult (map_iota hlen) hM
          exact ⟨a, fun _ => ⟨ha, fun h => absurd h hlx, fun _ => haM⟩⟩
        · obtain ⟨K, hK⟩ := exists_arranges less_iff_rank links
          obtain ⟨a, ha, -⟩ := exists_sortResult (map_iota hlen) hK
          exact ⟨a, fun _ => ⟨ha, fun h => absurd h hlx, fun h => absurd h hly⟩⟩
    · exact ⟨[], fun h => absurd h hlen⟩
  choose sort hsort using hsome
  exact ⟨sort, fun links h => (hsort links h).1, (hsort _ hx).2.1 rfl, (hsort _ hy).2.2 rfl⟩

/-! ## Refreshes -/

theorem keepsTopology_of_same (h : same sort x y = true) : KeepsTopology sort x y := by
  rintro p area rec ctx now hp rfl hage
  rw [Area.evaluateIncomingLsa]
  cases hvalid : ctx.checksumValid with
  | false => rfl
  | true =>
    cases hcompare : compareLsaHeaders ctx.header rec.header with
    | OLDER => rfl
    | SAME => rfl
    | NEWER =>
      simp only [Bool.not_true, Bool.false_eq_true, if_false, if_neg hage, hp, h, if_true]
      split_ifs <;> rfl

/-! ## The order of the links -/

theorem not_orderIndependent {L M : List RouterLinkV3} (hx : x.links.length < 65536)
    (hy : y.links.length < 65536) (hL : Arranges RouterLinkV3.less x.links L)
    (hM : Arranges RouterLinkV3.less y.links M) (hne : x.links ≠ y.links) (hLM : L ≠ M)
    (hoptions : x.options = y.options) (hperm : x.links.Perm y.links) : ¬ OrderIndependent x y := by
  intro h
  obtain ⟨sort, hs, hsx, hsy⟩ := exists_sorts hx hy hL hM hne
  have hsame := (same_iff hs hx hy).1 ((h sort hs).1.2 ⟨hoptions, hperm⟩)
  rw [hsx, hsy] at hsame
  exact hLM (List.map_injective_iff.2 (Option.some_injective _) hsame.2)

theorem same_of_perm (hs : Sorts sort) (hx : x.links.length < 65536) (hy : y.links.length < 65536)
    (hoptions : x.options = y.options) (hperm : x.links.Perm y.links)
    (hdiffer : ¬ ∃ p ∈ x.links, ∃ q ∈ x.links, DifferInMetric p q) : same sort x y = true := by
  obtain ⟨L, hL, hLx⟩ := hs.arranges hx
  obtain ⟨M, hM, hMy⟩ := hs.arranges hy
  have hMx : Arranges RouterLinkV3.less x.links M := ⟨hM.perm.trans hperm.symm, hM.sorted⟩
  have hLM : L = M := by
    refine arranges_unique less_iff_rank hL hMx ?_
    intro p hp q hq hrank
    have heq := eq_of_rank_eq hrank
    by_contra hpq
    refine hdiffer ⟨p, hp, q, hq, heq, ?_⟩
    intro hmetric
    rw [← hmetric] at heq
    exact hpq heq.symm
  rw [same_iff hs hx hy, hLx, hMy, hLM]
  exact ⟨hoptions, rfl⟩

/-- **The order of the links** does not matter, unless the lists are different arrangements of the
    same links, two of which differ in the metric alone. -/
theorem orderIndependent_iff (hx : x.links.length < 65536) (hy : y.links.length < 65536) :
    OrderIndependent x y ↔
      ¬ (x.options = y.options ∧ x.links.Perm y.links ∧ x.links ≠ y.links ∧
        ∃ p ∈ x.links, ∃ q ∈ x.links, DifferInMetric p q) := by
  constructor
  · rintro h ⟨hoptions, hperm, hne, p, hp, q, hq, hdiffer⟩
    have hpq : p ≠ q := by
      rintro rfl
      exact hdiffer.2 rfl
    obtain ⟨L, M, hL, hM, hLM⟩ := exists_arranges_ne less_iff_rank hp hq hdiffer.rank_eq hpq
    have hMy : Arranges RouterLinkV3.less y.links M := ⟨hM.perm.trans hperm, hM.sorted⟩
    exact not_orderIndependent hx hy hL hMy hne hLM hoptions hperm h
  · intro h sort hs
    have hsame : x.options = y.options → x.links.Perm y.links → same sort x y = true := by
      intro hoptions hperm
      by_cases hlinks : x.links = y.links
      · rw [same_iff hs hx hy, hlinks]
        exact ⟨hoptions, rfl⟩
      · exact same_of_perm hs hx hy hoptions hperm fun hdiffer =>
          h ⟨hoptions, hperm, hlinks, hdiffer⟩
    refine ⟨⟨perm_of_same hs hx hy, fun ⟨hoptions, hperm⟩ => hsame hoptions hperm⟩, ?_⟩
    intro hoptions hperm
    exact keepsTopology_of_same (hsame hoptions hperm)

/-- Links of different interfaces in two orders. -/
theorem orderIndependent_swapped :
    OrderIndependent ⟨0, [⟨1, 10, 1, 5, 9⟩, ⟨1, 20, 2, 5, 9⟩]⟩ ⟨0, [⟨1, 20, 2, 5, 9⟩, ⟨1, 10, 1, 5, 9⟩]⟩ :=
  (orderIndependent_iff (by decide) (by decide)).2 (by decide)

/-- Two parallel links, which differ in the metric alone. -/
def parallel : RouterLsaV3 := ⟨0, [⟨1, 10, 1, 5, 9⟩, ⟨1, 20, 1, 5, 9⟩]⟩

def parallelSwapped : RouterLsaV3 := ⟨0, [⟨1, 20, 1, 5, 9⟩, ⟨1, 10, 1, 5, 9⟩]⟩

/-- Some sort arranges each of them as it is, and compares them as an equivalence. -/
theorem same_equivalence_parallel : ∃ sort, arranged sort parallel.links = parallel.links.map some ∧
    Equivalence fun x y : { lsa : RouterLsaV3 // lsa.links.length < 65536 } =>
      same sort x.1 y.1 = true := by
  obtain ⟨sort, hs, harranged, -⟩ := exists_sorts (x := parallel) (y := parallelSwapped) (by decide)
    (by decide) ⟨List.Perm.refl _, by decide⟩ ⟨List.Perm.refl _, by decide⟩ (by decide)
  exact ⟨sort, harranged, same_equivalence hs⟩

/-- A reordering of parallel links is another LSA. -/
theorem parallel_links_differ : ¬ ∀ x y : RouterLsaV3, x.links.length < 65536 →
    y.links.length < 65536 → OrderIndependent x y := by
  intro h
  have hx : Arranges RouterLinkV3.less parallel.links parallel.links := ⟨List.Perm.refl _, by decide⟩
  have hy : Arranges RouterLinkV3.less parallelSwapped.links parallelSwapped.links :=
    ⟨List.Perm.refl _, by decide⟩
  exact not_orderIndependent (by decide) (by decide) hx hy (by decide) (by decide) rfl
    (List.Perm.swap _ _ _) (h parallel parallelSwapped (by decide) (by decide))

end RouterLsaV3

end VirtualRouter.Ospf
