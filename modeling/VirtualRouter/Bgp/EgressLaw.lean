/-
  What an external peer is sent: `applyEgressPolicy`, the group stage followed by
  the member stage.

  The group stage strips what is internal and puts the AS numbers of the session
  in front of the path.  The member stage comes behind it: `REMOVE_PRIVATE_AS`
  takes private numbers out of the path, those of the session among them, and
  the next hop becomes the address of the neighbor.

  * `stripped`: nothing internal is left, in every configuration;
  * `head_egressPath`: which AS number comes first;
  * `egressLaw_iff`: when the attributes are those of an external session.
-/
import VirtualRouter.Bgp.EgressPolicy

namespace VirtualRouter.Bgp

def applyEgressPolicy (p : ProcessConfig) (n : NeighborConfig) (nullRid : UInt32)
    (addr loc : IPAddress) (route : InboundRoute) : PathAttribute :=
  applyMemberNexthop p n nullRid addr loc route (applyGroupEgressPolicy p n route)

/-! ## The law -/

def AsPathSegment.IsConfed (s : AsPathSegment) : Prop :=
  s.segmentType = BGP_AS_CONFED_SEQUENCE ∨ s.segmentType = BGP_AS_CONFED_SET

instance (s : AsPathSegment) : Decidable s.IsConfed := by
  unfold AsPathSegment.IsConfed
  infer_instance

def asNumbers (asPath : List AsPathSegment) : List UInt32 := asPath.flatMap (·.asns)

/-- The first AS number of the first segment. -/
def leadingAs (asPath : List AsPathSegment) : Option UInt32 := asPath.head?.bind (·.asns.head?)

def presentedAs (p : ProcessConfig) (n : NeighborConfig) : UInt32 :=
  if n.localAs then n.localAsAs.getD p.getConfedId else p.getConfedId

def removesPrivate (n : NeighborConfig) : Bool := n.removePrivateAs || n.removePrivateAsAll

/-- `NEXT_HOP_UNCHANGED` applies. -/
def keepsNextHop (n : NeighborConfig) : Bool := n.nextHopUnchanged && !n.nextHopSelfAll

/-- The attributes are those of an external session with the local address `loc`. -/
structure EgressLaw (p : ProcessConfig) (n : NeighborConfig) (loc : IPAddress) (pa : PathAttribute) :
    Prop where
  localPref : pa.attrs.localPref = none
  originatorId : pa.attrs.originatorId = none
  clusterList : pa.attrs.clusterList = []
  confed : ∀ s ∈ pa.attrs.asPath, ¬ s.IsConfed
  first : leadingAs pa.attrs.asPath = some (presentedAs p n)
  nextHop : keepsNextHop n = false → pa.path.nextHop = loc

/-- The first AS number of the regular segments of the route that is not private. -/
def firstPublic (route : InboundRoute) : Option UInt32 :=
  (asNumbers (route.attrs.attrs.asPath.filter fun s => ¬ s.IsConfed)).find? fun a => !isPrivateAs a

/-- The session's address is that of the neighbor, or the next hop stays; the AS number presented is
    put in front and, if private numbers are removed, is not private.  The last case is a path that
    happens to go on with it. -/
structure EgressFits (p : ProcessConfig) (n : NeighborConfig) (addr loc : IPAddress)
    (route : InboundRoute) : Prop where
  nextHop : keepsNextHop n = true ∨ addr = loc
  notPrivate : removesPrivate n = true → isPrivateAs (presentedAs p n) = false
  first : (egressAsns p n).head? = some (presentedAs p n) ∨
    (removesPrivate n = true ∧ isPrivateAs p.getConfedId = true ∧
      firstPublic route = some (presentedAs p n))

/-! ## The path -/

theorem egressAsns_ne_nil (p : ProcessConfig) (n : NeighborConfig) : egressAsns p n ≠ [] := by
  unfold egressAsns
  split
  · simp
  · split_ifs <;> simp

theorem egressAsns_cases (p : ProcessConfig) (n : NeighborConfig) :
    (egressAsns p n).head? = some (presentedAs p n) ∨ egressAsns p n = [p.getConfedId] := by
  unfold egressAsns presentedAs
  rcases n.localAsAs with _ | localAs
  · exact .inr rfl
  · cases n.localAs
    · exact .inr rfl
    · cases n.localAsReplaceAs
      · cases n.localAsNoPrepend
        · exact .inl rfl
        · exact .inr rfl
      · exact .inl rfl

theorem prependAs_eq (type : UInt8) (asns : List UInt32) (asPath : List AsPathSegment) :
    ∃ tail rest, prependAs type asns asPath = ⟨type, asns ++ tail⟩ :: rest ∧
      asNumbers asPath = tail ++ asNumbers rest ∧ (∀ s ∈ rest, s ∈ asPath) := by
  rcases asPath with _ | ⟨seg, rest⟩
  · exact ⟨[], [], by simp [prependAs], rfl, by simp⟩
  · by_cases h : seg.segmentType = type
    · exact ⟨seg.asns, rest, by simp [prependAs, h], rfl, fun s hs => .tail _ hs⟩
    · exact ⟨[], seg :: rest, by simp [prependAs, h], rfl, fun s hs => hs⟩

theorem asNumbers_removePrivateAs (asPath : List AsPathSegment) :
    asNumbers (removePrivateAs asPath) = (asNumbers asPath).filter fun a => !isPrivateAs a := by
  induction asPath with
  | nil => rfl
  | cons s asPath ih =>
    have hhead : asNumbers (s :: asPath) = s.asns ++ asNumbers asPath := rfl
    rw [hhead, List.filter_append, ← ih]
    by_cases hempty : s.asns.filter (fun a => !isPrivateAs a) = []
    · simp [removePrivateAs, asNumbers, hempty]
    · simp [removePrivateAs, asNumbers, hempty]

theorem leadingAs_eq_head? {asPath : List AsPathSegment} (h : ∀ s ∈ asPath, s.asns ≠ []) :
    leadingAs asPath = (asNumbers asPath).head? := by
  rcases asPath with _ | ⟨s, asPath⟩
  · rfl
  · obtain ⟨a, l, hs⟩ := List.exists_cons_of_ne_nil (h s (.head _))
    simp [leadingAs, asNumbers, hs]

def groupPath (p : ProcessConfig) (n : NeighborConfig) (route : InboundRoute) : List AsPathSegment :=
  prependAs BGP_AS_SEQUENCE (egressAsns p n)
    (route.attrs.attrs.asPath.filter fun s => ¬ s.IsConfed)

def egressPath (p : ProcessConfig) (n : NeighborConfig) (route : InboundRoute) : List AsPathSegment :=
  if removesPrivate n then removePrivateAs (groupPath p n route) else groupPath p n route

theorem applyEgressPolicy_ebgp {p : ProcessConfig} {n : NeighborConfig} (h : n.isEbgp = true)
    (nullRid : UInt32) (addr loc : IPAddress) (route : InboundRoute) :
    let pa := applyEgressPolicy p n nullRid addr loc route
    pa.attrs.localPref = none ∧ pa.attrs.originatorId = none ∧ pa.attrs.clusterList = [] ∧
      pa.attrs.asPath = egressPath p n route ∧
      pa.path.nextHop = if keepsNextHop n then route.attrs.path.nextHop else addr := by
  have hfilter : (route.attrs.attrs.asPath.filter fun s =>
      s.segmentType ≠ BGP_AS_CONFED_SEQUENCE ∧ s.segmentType ≠ BGP_AS_CONFED_SET) =
        route.attrs.attrs.asPath.filter fun s => ¬ s.IsConfed := by
    refine List.filter_congr fun s _ => ?_
    simp [AsPathSegment.IsConfed]
  have hgroup : applyGroupEgressPolicy p n route =
      { route.attrs with
        attrs :=
          { route.attrs.attrs with
            localPref := none, originatorId := none, clusterList := []
            asPath := groupPath p n route } } := by
    rw [applyGroupEgressPolicy, if_pos h, hfilter]
    rfl
  simp only [applyEgressPolicy, hgroup, applyMemberNexthop, if_pos h, egressPath, removesPrivate,
    keepsNextHop, true_and]
  by_cases hunchanged : n.nextHopUnchanged = true <;> by_cases hself : n.nextHopSelfAll = true <;>
    simp [hunchanged, hself]

theorem not_isConfed_groupPath {p : ProcessConfig} {n : NeighborConfig} {route : InboundRoute}
    {s : AsPathSegment} (hs : s ∈ groupPath p n route) : ¬ s.IsConfed := by
  obtain ⟨tail, rest, hpath, -, hrest⟩ := prependAs_eq BGP_AS_SEQUENCE (egressAsns p n)
    (route.attrs.attrs.asPath.filter fun s => ¬ s.IsConfed)
  rw [groupPath, hpath] at hs
  rcases List.mem_cons.1 hs with rfl | hs
  · simp [AsPathSegment.IsConfed, BGP_AS_SEQUENCE, BGP_AS_CONFED_SEQUENCE, BGP_AS_CONFED_SET]
  · simpa using (List.mem_filter.1 (hrest s hs)).2

/-- **No confederation segment is left.** -/
theorem stripped {p : ProcessConfig} {n : NeighborConfig} {route : InboundRoute} {s : AsPathSegment}
    (hs : s ∈ egressPath p n route) : ¬ s.IsConfed := by
  unfold egressPath at hs
  split_ifs at hs
  · obtain ⟨s', hs', rfl⟩ := List.mem_map.1 (List.mem_filter.1 hs).1
    exact not_isConfed_groupPath (s := s') hs'
  · exact not_isConfed_groupPath hs

/-- **Which number comes first**: the first one put in front; if private numbers are removed, the
    first that is left of them and of the path. -/
theorem head_egressPath (p : ProcessConfig) (n : NeighborConfig) (route : InboundRoute) :
    leadingAs (egressPath p n route) =
      if removesPrivate n then
        ((egressAsns p n).find? fun a => !isPrivateAs a).or (firstPublic route)
      else (egressAsns p n).head? := by
  obtain ⟨tail, rest, hpath, hnumbers, -⟩ := prependAs_eq BGP_AS_SEQUENCE (egressAsns p n)
    (route.attrs.attrs.asPath.filter fun s => ¬ s.IsConfed)
  unfold egressPath
  split_ifs with hremove
  · have hne : ∀ s ∈ removePrivateAs (groupPath p n route), s.asns ≠ [] := by
      intro s hs
      simpa using (List.mem_filter.1 hs).2
    have hgroup : asNumbers (groupPath p n route) = egressAsns p n ++
        asNumbers (route.attrs.attrs.asPath.filter fun s => ¬ s.IsConfed) := by
      rw [groupPath, hpath, hnumbers]
      simp [asNumbers]
    rw [leadingAs_eq_head? hne, asNumbers_removePrivateAs, List.head?_filter, hgroup,
      List.find?_append]
    rfl
  · obtain ⟨a, l, hasns⟩ := List.exists_cons_of_ne_nil (egressAsns_ne_nil p n)
    rw [groupPath, hpath]
    simp [leadingAs, hasns]

theorem leadingAs_eq_presented_iff (p : ProcessConfig) (n : NeighborConfig) (route : InboundRoute) :
    leadingAs (egressPath p n route) = some (presentedAs p n) ↔
      (removesPrivate n = true → isPrivateAs (presentedAs p n) = false) ∧
        ((egressAsns p n).head? = some (presentedAs p n) ∨
          (removesPrivate n = true ∧ isPrivateAs p.getConfedId = true ∧
            firstPublic route = some (presentedAs p n))) := by
  rw [head_egressPath]
  cases hremove : removesPrivate n with
  | false => simp
  | true =>
    simp only [if_true, true_implies, true_and]
    -- what is found is not private
    have hfound : ((egressAsns p n).find? fun a => !isPrivateAs a).or (firstPublic route) =
        some (presentedAs p n) → isPrivateAs (presentedAs p n) = false := by
      intro h
      rcases Option.or_eq_some_iff.1 h with h | ⟨-, h⟩
      · simpa using List.find?_some h
      · simpa using List.find?_some h
    rcases egressAsns_cases p n with hhead | hconfed
    · obtain ⟨l, hl⟩ := List.head?_eq_some_iff.1 hhead
      constructor
      · exact fun h => ⟨hfound h, .inl hhead⟩
      · rintro ⟨hpublic, -⟩
        rw [hl, List.find?_cons_of_pos (by simp [hpublic]), Option.some_or]
    · rw [hconfed]
      cases hprivate : isPrivateAs p.getConfedId with
      | false =>
        rw [List.find?_cons_of_pos (by simp [hprivate]), Option.some_or]
        constructor
        · intro h
          rw [← Option.some.inj h]
          exact ⟨hprivate, .inl rfl⟩
        · rintro ⟨-, h | ⟨h, -⟩⟩
          · simpa using h
          · cases h
      | true =>
        rw [List.find?_cons_of_neg (by simp [hprivate]), List.find?_nil, Option.none_or]
        constructor
        · intro h
          refine ⟨?_, .inr ⟨rfl, h⟩⟩
          simpa using List.find?_some h
        · rintro ⟨hpublic, h | ⟨-, h⟩⟩
          · obtain h' : p.getConfedId = presentedAs p n := by simpa using h
            rw [← h', hprivate] at hpublic
            cases hpublic
          · exact h

/-! ## The law holds -/

/-- **When an external peer is sent what it should be.** -/
theorem egressLaw_iff (p : ProcessConfig) (n : NeighborConfig) (nullRid : UInt32)
    (addr loc : IPAddress) (route : InboundRoute) (h : n.isEbgp = true) :
    EgressLaw p n loc (applyEgressPolicy p n nullRid addr loc route) ↔
      EgressFits p n addr loc route := by
  obtain ⟨hlocalPref, horiginator, hcluster, hpath, hnextHop⟩ :=
    applyEgressPolicy_ebgp h nullRid addr loc route
  constructor
  · intro hlaw
    have hfirst := hlaw.first
    rw [hpath, leadingAs_eq_presented_iff] at hfirst
    refine ⟨?_, hfirst.1, hfirst.2⟩
    cases hkeep : keepsNextHop n with
    | true => exact .inl rfl
    | false =>
      have haddr := hlaw.nextHop hkeep
      rw [hnextHop, hkeep] at haddr
      exact .inr haddr
  · intro hfits
    refine ⟨hlocalPref, horiginator, hcluster, fun s hs => ?_, ?_, fun hkeep => ?_⟩
    · rw [hpath] at hs
      exact stripped hs
    · rw [hpath, leadingAs_eq_presented_iff]
      exact ⟨hfits.notPrivate, hfits.first⟩
    · rw [hnextHop, hkeep]
      exact hfits.nextHop.resolve_left (by simp [hkeep])

/-- An external neighbor in AS 100 that keeps the next hop. -/
def sampleEbgp : NeighborConfig := { remoteAs := some 100, isEbgp := true, nextHopUnchanged := true }

/-- AS 65001 sends a route with its own number in front and the next hop of the route. -/
theorem egressLaw_iff_unchanged :
    EgressLaw { asNum := 65001 } sampleEbgp (.ofV4 1) (applyEgressPolicy { asNum := 65001 } sampleEbgp 0
      (.ofV4 2) (.ofV4 1) { addr := 0 }) :=
  (egressLaw_iff { asNum := 65001 } sampleEbgp 0 (.ofV4 2) (.ofV4 1) { addr := 0 } rfl).2
    ⟨.inl rfl, fun h => absurd h (by decide), .inl rfl⟩

/-- The next hop is the neighbor itself; and AS 65001 takes its own number out of the path. -/
theorem not_egressLaw :
    ¬ EgressLaw { asNum := 65001 } { isEbgp := true } (.ofV4 1)
        (applyEgressPolicy { asNum := 65001 } { isEbgp := true } 0 (.ofV4 2) (.ofV4 1) { addr := 0 }) ∧
      ¬ EgressLaw { asNum := 65001 } { sampleEbgp with removePrivateAs := true } (.ofV4 1)
        (applyEgressPolicy { asNum := 65001 } { sampleEbgp with removePrivateAs := true } 0 (.ofV4 2)
          (.ofV4 1) { addr := 0 }) := by
  constructor
  · intro h
    have hnextHop := h.nextHop (by decide)
    revert hnextHop
    decide
  · intro h
    have hfirst := h.first
    revert hfirst
    decide

end VirtualRouter.Bgp
