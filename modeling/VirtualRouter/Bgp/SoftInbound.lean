/-
  Soft inbound clear (`softClearInbound` of `routing/bgp/af/AddressFamilyInstance.h`)
  and the pre-policy table that it replays.

  `onParsedUpdateFromPeer` stores every announcement before the policy sees it,
  and makes a route of it with the weight of the neighbor; the replay makes the
  same route without the weight.  An announcement that the policy rejects leaves
  the route before it in Adj-RIB-In, which the replay drops.

  The replay also assigns `neighborRouterId`, which `InboundRoute` does not have;
  nothing instantiates the function.

  * `Stored`: what the pre-policy table says about Adj-RIB-In, along a run;
  * `inRoute_replayInbound`: what the replay leaves there;
  * `replayed_iff`: when that is what was there before.
-/
import VirtualRouter.Bgp.RecomputeNlri

namespace VirtualRouter.Bgp

open EntryTable Run

structure SoftPreEntry where
  pa : PathAttribute
  peerAs : UInt32
  ebgp : Bool
  confedEbgp : Bool := false
  deriving DecidableEq, Repr

structure SoftInstance (ν : Type) extends AddressFamilyInstance ν where
  preAdjRibIn : UInt32 → Option (Table (NlriPath ν) SoftPreEntry) := fun _ => none

variable {ν : Type} [DecidableEq ν]

namespace SoftInstance

variable (cfg : Config ν) (o : Oracle ν)

/-! ## UPDATEs -/

/-- What an announcement of the neighbor at `addr` is stored as. -/
def preEntry (addr nbr : IPAddress) (attrs : PathAttribute) : SoftPreEntry where
  pa := attrs
  peerAs := (cfg.neighbor addr).remoteAs.getD 0
  ebgp := (cfg.neighbor nbr).isEbgp
  confedEbgp := (cfg.neighbor nbr).isConfedEbgp

def storeUpdate (addr nbr : IPAddress) (update : ParsedUpdate ν)
    (pre : Option (Table (NlriPath ν) SoftPreEntry)) : Option (Table (NlriPath ν) SoftPreEntry) :=
  let pre := pre.map fun t => update.withdrawn.foldl (fun t n => t.erase n) t
  match update.attrs with
  | none => pre
  | some attrs => some (update.announcements.foldl
      (fun t n => t.insert n (preEntry cfg addr nbr attrs)) (pre.getD ∅))

/-- `onParsedUpdateFromPeer`; `softReconfig` is SOFT_RECONFIGURATION of a neighbor. -/
def onParsedUpdateFromPeer (softReconfig : IPAddress → Bool) (s : SoftInstance ν) (addr : IPAddress)
    (update : ParsedUpdate ν) : SoftInstance ν where
  toAddressFamilyInstance := s.toAddressFamilyInstance.onParsedUpdateFromPeer cfg o addr update
  preAdjRibIn :=
    match s.peers (s.ridOf addr) with
    | none => s.preAdjRibIn
    | some nbr =>
      if softReconfig nbr then
        Function.update s.preAdjRibIn (s.ridOf addr)
          (storeUpdate cfg addr nbr update (s.preAdjRibIn (s.ridOf addr)))
      else s.preAdjRibIn

/-! ## The replay -/

/-- The route that the replay makes of an entry; its weight is that of the constructor. -/
def softRoute (nbr : IPAddress) (rid : UInt32) (e : SoftPreEntry) : InboundRoute where
  addr := 0
  sourceNeighbor := some ⟨rid, nbr⟩
  weigth := 0
  peerAs := e.peerAs
  ebgp := e.ebgp
  confedEbgp := e.confedEbgp
  igpCost := o.igpMetricResolver e.pa.path.nextHop
  receivedTime := o.now
  attrs := e.pa

def replayEntry (nbr : IPAddress) (rid : UInt32) (acc : AddressFamilyInstance ν × List ν)
    (x : (_ : NlriPath ν) × SoftPreEntry) : AddressFamilyInstance ν × List ν :=
  let r := softRoute o nbr rid x.2
  if applyIngressPolicy cfg.process (cfg.neighbor nbr) r then acc
  else
    let s := acc.1.removeRoute ⟨rid, x.1⟩
    ({ s with adjRibIn := s.adjRibIn.insert ⟨rid, x.1⟩ { r with addr := o.alloc s.liveAddrs } },
      acc.2 ++ [x.1.nlri])

/-- What `softClearInbound` does to Adj-RIB-In, with the touched prefixes. -/
def replayInbound (s : AddressFamilyInstance ν) (nbr : IPAddress) (rid : UInt32)
    (pre : Table (NlriPath ν) SoftPreEntry) : AddressFamilyInstance ν × List ν :=
  (o.order pre.entries).foldl (replayEntry cfg o nbr rid)
    (s.dropPeer rid, (s.peerKeys rid).map (·.path.nlri))

def softClearInbound (s : SoftInstance ν) (rid : UInt32) : SoftInstance ν :=
  match s.preAdjRibIn rid, s.peers rid with
  | some pre, some nbr =>
    let acc := replayInbound cfg o s.toAddressFamilyInstance nbr rid pre
    { s with toAddressFamilyInstance := acc.1.recomputeAll cfg o acc.2 }
  | _, _ => s

end SoftInstance

/-! ## What is compared -/

/-- A route without its address, the metric of its next hop and its receipt time. -/
def InboundRoute.bare (r : InboundRoute) : InboundRoute :=
  { r with addr := 0, igpCost := 0, receivedTime := 0 }

namespace AddressFamilyInstance

variable (cfg : Config ν) (o : Oracle ν) (s : AddressFamilyInstance ν)

/-- What Adj-RIB-In has of a peer: attributes, weight, peer AS, eBGP flags and source. -/
def inRoute (rid : UInt32) (n : NlriPath ν) : Option InboundRoute := s.inView InboundRoute.bare rid n

/-- The decision of `recomputeNlri` on a list of candidates. -/
def decisionOf (rs : List InboundRoute) : Option LocalRoute :=
  let c := comparator cfg
  let rs := if cfg.process.deterministicMed then
      o.order ((groupBests (comparator cfg) rs).entries.map fun e => e.2)
    else rs
  (c.selectBest rs cfg.family.maximumPathsEbgp cfg.family.maximumPathsIbgp).map fun best =>
    let pool := additionalPool c rs best
    { best with
      additionalPaths := if cfg.family.additionalPathsAll then pool
        else selectAdditional cfg.family
          (fun _ => best.route.peerAs :: best.multipaths.map (·.peerAs)) pool }

/-- A candidate without its address and its receipt time. -/
def timeless (r : InboundRoute) : InboundRoute := { r with addr := 0, receivedTime := 0 }

/-- The objects, told apart by their places. -/
def numbered (rs : List InboundRoute) : List InboundRoute :=
  rs.zipIdx.map fun x => { x.1 with addr := x.2 }

/-- **The best paths** of a prefix: what the decision makes of its candidates, receipt times
    aside, in some order of the hash tables. -/
def bestPaths (n : ν) : Set LocalRoute :=
  {b | ∃ rs, rs.Perm ((s.candidates o n).map timeless) ∧ decisionOf cfg o (numbered rs) = some b}

variable {s} {s' : AddressFamilyInstance ν}

theorem entries_perm (h : ∀ rid n, s'.inRoute rid n = s.inRoute rid n) :
    (s'.adjRibIn.entries.map fun e => (e.1, e.2.bare)).Perm
      (s.adjRibIn.entries.map fun e => (e.1, e.2.bare)) := by
  have hnodup (t : Table (InKey ν) InboundRoute) :
      (t.entries.map fun e => (e.1, InboundRoute.bare e.2)).Nodup := by
    refine List.Nodup.of_map Prod.fst ?_
    rw [List.map_map]
    exact t.nodupKeys
  have hmem (t : AddressFamilyInstance ν) (x : InKey ν × InboundRoute) :
      x ∈ t.adjRibIn.entries.map (fun e => (e.1, InboundRoute.bare e.2)) ↔
        t.inRoute x.1.peer x.1.path = some x.2 := by
    rw [inRoute, inView, Option.map_eq_some_iff, List.mem_map]
    constructor
    · rintro ⟨e, he, rfl⟩
      exact ⟨e.2, AList.mem_lookup_iff.2 he, rfl⟩
    · rintro ⟨r, hr, hbare⟩
      exact ⟨⟨x.1, r⟩, AList.mem_lookup_iff.1 hr, by rw [hbare]⟩
  refine (List.perm_ext_iff_of_nodup (hnodup _) (hnodup _)).2 fun x => ?_
  rw [hmem, hmem, h]

theorem candidates_perm (h : ∀ rid n, s'.inRoute rid n = s.inRoute rid n)
    (hnetwork : s'.networkLocalRoutes = s.networkLocalRoutes) (n : ν) :
    ((s'.candidates o n).map timeless).Perm ((s.candidates o n).map timeless) := by
  let fresh (r : InboundRoute) : InboundRoute :=
    timeless { r with igpCost := o.igpMetricResolver r.attrs.path.nextHop }
  have hflat (t : AddressFamilyInstance ν) : ((t.candidates o n).map timeless).Perm
      ((((t.adjRibIn.entries.map fun e => (e.1, e.2.bare)).filter fun x => x.1.path.nlri = n).map
        fun x => fresh x.2) ++ (t.networkLocalRoutes.lookup n).toList.map timeless) := by
    rw [candidates, List.map_append]
    refine List.Perm.append_right _ (((o.order_perm _).map timeless).trans (.of_eq ?_))
    simp only [List.map_map, List.filter_map]
    rfl
  have hafter := hflat s'
  rw [hnetwork] at hafter
  exact (hafter.trans ((((entries_perm h).filter _).map _).append_right _)).trans (hflat s).symm

theorem bestPaths_eq (h : ∀ rid n, s'.inRoute rid n = s.inRoute rid n)
    (hnetwork : s'.networkLocalRoutes = s.networkLocalRoutes) (n : ν) :
    s'.bestPaths cfg o n = s.bestPaths cfg o n := by
  have hperm := candidates_perm o h hnetwork n
  ext b
  constructor
  · rintro ⟨rs, hrs, hb⟩
    exact ⟨rs, hrs.trans hperm, hb⟩
  · rintro ⟨rs, hrs, hb⟩
    exact ⟨rs, hrs.trans hperm.symm, hb⟩

end AddressFamilyInstance

/-! ## The pre-policy table along a run -/

def SoftPreEntry.route (nbr : IPAddress) (rid : UInt32) (weigth : UInt16) (e : SoftPreEntry) :
    InboundRoute where
  addr := 0
  sourceNeighbor := some ⟨rid, nbr⟩
  weigth := weigth
  peerAs := e.peerAs
  ebgp := e.ebgp
  confedEbgp := e.confedEbgp
  igpCost := 0
  attrs := e.pa

def SoftPreEntry.rejected (cfg : Config ν) (nbr : IPAddress) (rid : UInt32) (e : SoftPreEntry) : Bool :=
  applyIngressPolicy cfg.process (cfg.neighbor nbr) (e.route nbr rid 0)

namespace SoftInstance

open AddressFamilyInstance (rejects inRoute inView inView_takeUpdate onParsedUpdateFromPeer_sameIn
  onParsedUpdateFromPeer_peers lookup_removeRoute lookup_foldl_removeRoute mem_peerKeys InEdit
  removeRoute_inEdit dropPeer_inEdit recomputeAll_sameIn bestPaths_eq)

variable (cfg : Config ν)

def preOf (s : SoftInstance ν) (rid : UInt32) (n : NlriPath ν) : Option SoftPreEntry :=
  (s.preAdjRibIn rid).bind fun t => t.lookup n

def weightOf (nbr : IPAddress) : UInt16 := (cfg.neighbor nbr).weight.getD 0

/-- **The pre-policy table says what was announced last**: without an entry there is no route, and
    for an entry that the policy accepts there is its route. -/
structure Stored (s : SoftInstance ν) (nbr : IPAddress) (rid : UInt32) : Prop where
  missing : ∀ n, s.preOf rid n = none → s.inRoute rid n = none
  accepted : ∀ n e, s.preOf rid n = some e → e.rejected cfg nbr rid = false →
    s.inRoute rid n = some (e.route nbr rid (weightOf cfg nbr))

/-- An UPDATE of the neighbor at `addr`, and its environment. -/
structure SoftInput (ν : Type) where
  oracle : Oracle ν
  addr : IPAddress
  update : ParsedUpdate ν

def updateStep (softReconfig : IPAddress → Bool) (s : SoftInstance ν) (i : SoftInput ν) :
    SoftInstance ν :=
  s.onParsedUpdateFromPeer cfg i.oracle softReconfig i.addr i.update

theorem lookup_storeUpdate (addr nbr : IPAddress) (update : ParsedUpdate ν)
    (pre : Option (Table (NlriPath ν) SoftPreEntry)) (n : NlriPath ν) :
    ((storeUpdate cfg addr nbr update pre).bind fun t => t.lookup n) =
      match update.attrs with
      | none => without (fun n => pre.bind fun t => t.lookup n) update.withdrawn n
      | some attrs =>
        if n ∈ update.announcements then some (preEntry cfg addr nbr attrs)
        else without (fun n => pre.bind fun t => t.lookup n) update.withdrawn n := by
  have herase (ws : List (NlriPath ν)) (t : Table (NlriPath ν) SoftPreEntry) :
      (ws.foldl (fun t n => t.erase n) t).lookup n = if n ∈ ws then none else t.lookup n := by
    induction ws generalizing t with
    | nil => simp
    | cons w ws ih =>
      rw [List.foldl_cons, ih]
      by_cases hn : n = w
      · subst hn
        simp
      · simp [hn, AList.lookup_erase_ne hn]
  have hinsert (e : SoftPreEntry) (ns : List (NlriPath ν)) (t : Table (NlriPath ν) SoftPreEntry) :
      (ns.foldl (fun t n => t.insert n e) t).lookup n = if n ∈ ns then some e else t.lookup n := by
    induction ns generalizing t with
    | nil => simp
    | cons a ns ih =>
      rw [List.foldl_cons, ih]
      by_cases hn : n = a
      · subst hn
        simp
      · simp [hn, AList.lookup_insert_ne hn]
  unfold storeUpdate
  cases update.attrs with
  | none =>
    cases pre with
    | none => simp [without]
    | some t => exact herase _ _
  | some attrs =>
    simp only [Option.bind_some, hinsert]
    cases pre with
    | none => simp [without]
    | some t =>
      simp only [Option.map_some, Option.getD_some, herase]
      rfl

variable {cfg} {s : SoftInstance ν} {softReconfig : IPAddress → Bool} {nbr : IPAddress} {rid : UInt32}

theorem updateStep_peers (i : SoftInput ν) :
    (s.updateStep cfg softReconfig i).neighbors = s.neighbors ∧
      (s.updateStep cfg softReconfig i).peers = s.peers :=
  onParsedUpdateFromPeer_peers cfg i.oracle s.toAddressFamilyInstance i.addr i.update

theorem Stored.of_eq (h : Stored cfg s nbr rid) {s' : SoftInstance ν}
    (hpre : s'.preOf rid = s.preOf rid) (hroute : s'.inRoute rid = s.inRoute rid) :
    Stored cfg s' nbr rid where
  missing := by rw [hpre, hroute]; exact h.missing
  accepted := by rw [hpre, hroute]; exact h.accepted

/-- What is left of the two tables after withdrawals. -/
theorem Stored.withdrawn (h : Stored cfg s nbr rid) (ws : List (NlriPath ν)) :
    (∀ n, without (s.preOf rid) ws n = none → without (s.inRoute rid) ws n = none) ∧
      ∀ n e, without (s.preOf rid) ws n = some e → e.rejected cfg nbr rid = false →
        without (s.inRoute rid) ws n = some (e.route nbr rid (weightOf cfg nbr)) := by
  constructor
  · intro n hn
    unfold without at hn ⊢
    split_ifs at hn ⊢ with hw
    · rfl
    · exact h.missing n hn
  · intro n e hn he
    unfold without at hn ⊢
    split_ifs at hn ⊢ with hw
    exact h.accepted n e hn he

theorem inRoute_updateStep (softReconfig : IPAddress → Bool) {i : SoftInput ν} {nbr' : IPAddress}
    (hpeer : s.peers (s.ridOf i.addr) = some nbr') (n : NlriPath ν) :
    (s.updateStep cfg softReconfig i).inRoute rid n =
      (s.takeUpdate cfg i.oracle i.addr nbr' (s.ridOf i.addr) i.update).1.inView
        InboundRoute.bare rid n := by
  have hsame := onParsedUpdateFromPeer_sameIn cfg i.oracle hpeer i.update
  simp only [inRoute, inView]
  rw [← hsame.adjRibIn]
  rfl

theorem Stored.updateStep_self (h : Stored cfg s nbr rid) (hnbr : s.peers rid = some nbr)
    (hsoft : softReconfig nbr = true) {i : SoftInput ν} (hr : rid = s.ridOf i.addr) :
    Stored cfg (s.updateStep cfg softReconfig i) nbr rid := by
  have hstore (n : NlriPath ν) : (s.updateStep cfg softReconfig i).preOf rid n =
      (storeUpdate cfg i.addr nbr i.update (s.preAdjRibIn rid)).bind fun t => t.lookup n := by
    simp only [preOf, SoftInstance.updateStep, SoftInstance.onParsedUpdateFromPeer, ← hr, hnbr,
      hsoft, if_true, Function.update_self]
  have hpre (n : NlriPath ν) := (hstore n).trans
    (lookup_storeUpdate cfg i.addr nbr i.update (s.preAdjRibIn rid) n)
  have hroute (n : NlriPath ν) := (inRoute_updateStep softReconfig (hr ▸ hnbr) n).trans
    (inView_takeUpdate cfg i.oracle (fun _ _ => rfl) s.toAddressFamilyInstance i.addr nbr
      (s.ridOf i.addr) rid i.update n)
  simp only [if_pos hr] at hroute
  have hkept := h.withdrawn i.update.withdrawn
  cases hattrs : i.update.attrs with
  | none =>
    simp only [hattrs, ← hr] at hpre hroute
    exact ⟨fun n hn => (hroute n).trans (hkept.1 n ((hpre n).symm.trans hn)),
      fun n e hn he => (hroute n).trans (hkept.2 n e ((hpre n).symm.trans hn) he)⟩
  | some attrs =>
    simp only [hattrs, ← hr] at hpre hroute
    refine ⟨fun n hn => ?_, fun n e hn he => ?_⟩
    · rw [hpre] at hn
      split_ifs at hn with hmem
      rw [hroute, if_neg fun hc => hmem hc.1]
      exact hkept.1 n hn
    · rw [hpre] at hn
      split_ifs at hn with hmem
      · obtain rfl := Option.some.inj hn
        rw [hroute, if_pos ⟨hmem, he⟩]
        rfl
      · rw [hroute, if_neg fun hc => hmem hc.1]
        exact hkept.2 n e hn he

theorem Stored.updateStep (h : Stored cfg s nbr rid) (hnbr : s.peers rid = some nbr)
    (hsoft : softReconfig nbr = true) (i : SoftInput ν) :
    Stored cfg (s.updateStep cfg softReconfig i) nbr rid := by
  by_cases hr : rid = s.ridOf i.addr
  · exact h.updateStep_self hnbr hsoft hr
  · cases hpeer : s.peers (s.ridOf i.addr) with
    | none =>
      refine h.of_eq ?_ ?_
      · unfold preOf
        simp only [SoftInstance.updateStep, SoftInstance.onParsedUpdateFromPeer, hpeer]
      · simp only [SoftInstance.updateStep, SoftInstance.onParsedUpdateFromPeer,
          AddressFamilyInstance.onParsedUpdateFromPeer, hpeer]
    | some nbr' =>
      refine h.of_eq ?_ ?_
      · funext n
        simp only [preOf, SoftInstance.updateStep, SoftInstance.onParsedUpdateFromPeer, hpeer]
        split_ifs
        · rw [Function.update_of_ne hr]
        · rfl
      · funext n
        rw [inRoute_updateStep softReconfig hpeer, inView_takeUpdate cfg i.oracle (fun _ _ => rfl), if_neg hr]
        rfl

/-- **Runs of UPDATEs** with soft reconfiguration keep the pre-policy table. -/
theorem Stored.run (h : Stored cfg s nbr rid) (hnbr : s.peers rid = some nbr)
    (hsoft : softReconfig nbr = true) (is : List (SoftInput ν)) :
    Stored cfg (runFrom (SoftInstance.updateStep cfg softReconfig) s is) nbr rid ∧
      (runFrom (SoftInstance.updateStep cfg softReconfig) s is).peers rid = some nbr := by
  induction is generalizing s with
  | nil => exact ⟨h, hnbr⟩
  | cons i is ih =>
    refine ih (h.updateStep hnbr hsoft i) ?_
    rw [(updateStep_peers i).2]
    exact hnbr

/-! ## The replay -/

section Replay
variable (cfg) (o : Oracle ν) (nbr : IPAddress) (rid : UInt32)

omit [DecidableEq ν] in
theorem policy_softRoute (e : SoftPreEntry) :
    applyIngressPolicy cfg.process (cfg.neighbor nbr) (softRoute o nbr rid e) =
      e.rejected cfg nbr rid := rfl

theorem inRoute_replayEntry (acc : AddressFamilyInstance ν × List ν)
    (x : (_ : NlriPath ν) × SoftPreEntry) (rid' : UInt32) (n : NlriPath ν) :
    (replayEntry cfg o nbr rid acc x).1.inRoute rid' n =
      if rid' = rid ∧ n = x.1 ∧ x.2.rejected cfg nbr rid = false then some (x.2.route nbr rid 0)
      else acc.1.inRoute rid' n := by
  simp only [replayEntry, policy_softRoute]
  by_cases hrejected : x.2.rejected cfg nbr rid = true
  · simp [hrejected]
  · rw [Bool.not_eq_true] at hrejected
    simp only [hrejected, Bool.false_eq_true, if_false, and_true, inRoute, inView]
    by_cases hk : (⟨rid', n⟩ : InKey ν) = ⟨rid, x.1⟩
    · obtain ⟨rfl, rfl⟩ := InKey.mk.inj hk
      rw [AList.lookup_insert, if_pos ⟨rfl, rfl⟩]
      rfl
    · rw [AList.lookup_insert_ne hk, lookup_removeRoute, if_neg hk, if_neg]
      rintro ⟨rfl, rfl⟩
      exact hk rfl

theorem inRoute_foldl_of_not {rid' : UInt32} {n : NlriPath ν}
    (l : List ((_ : NlriPath ν) × SoftPreEntry))
    (hl : ∀ x ∈ l, ¬ (rid' = rid ∧ n = x.1 ∧ x.2.rejected cfg nbr rid = false))
    (acc : AddressFamilyInstance ν × List ν) :
    (l.foldl (replayEntry cfg o nbr rid) acc).1.inRoute rid' n = acc.1.inRoute rid' n := by
  induction l generalizing acc with
  | nil => rfl
  | cons x l ih =>
    rw [List.forall_mem_cons] at hl
    rw [List.foldl_cons, ih hl.2, inRoute_replayEntry, if_neg hl.1]

theorem inRoute_foldl_of_mem {l : List ((_ : NlriPath ν) × SoftPreEntry)} (hl : l.NodupKeys)
    {x : (_ : NlriPath ν) × SoftPreEntry} (hx : x ∈ l) (haccept : x.2.rejected cfg nbr rid = false)
    (acc : AddressFamilyInstance ν × List ν) :
    (l.foldl (replayEntry cfg o nbr rid) acc).1.inRoute rid x.1 = some (x.2.route nbr rid 0) := by
  induction l generalizing acc with
  | nil => cases hx
  | cons y l ih =>
    rw [List.nodupKeys_cons] at hl
    rw [List.foldl_cons]
    rcases List.mem_cons.1 hx with rfl | hx
    · -- the entries behind it have other keys
      rw [inRoute_foldl_of_not cfg o nbr rid l, inRoute_replayEntry, if_pos ⟨rfl, rfl, haccept⟩]
      rintro z hz ⟨-, hkey, -⟩
      exact hl.1 (hkey ▸ List.mem_keys_of_mem hz)
    · exact ih hl.2 hx _

theorem inRoute_dropPeer (s : AddressFamilyInstance ν) (rid' : UInt32) (n : NlriPath ν) :
    (s.dropPeer rid).inRoute rid' n = if rid' = rid then none else s.inRoute rid' n := by
  simp only [inRoute, inView, AddressFamilyInstance.dropPeer, lookup_foldl_removeRoute, mem_peerKeys]
  by_cases hr : rid' = rid
  · subst hr
    by_cases hk : (⟨rid', n⟩ : InKey ν) ∈ s.adjRibIn.keys
    · simp [hk]
    · have hnone : s.adjRibIn.lookup (⟨rid', n⟩ : InKey ν) = none := AList.lookup_eq_none.2 hk
      simp [hnone]
  · simp [hr]

/-- **The replay** leaves the accepted entries of the pre-policy table, without their weight. -/
theorem inRoute_replayInbound (s : AddressFamilyInstance ν) (pre : Table (NlriPath ν) SoftPreEntry)
    (rid' : UInt32) (n : NlriPath ν) :
    (replayInbound cfg o s nbr rid pre).1.inRoute rid' n =
      if rid' = rid then
        (pre.lookup n).bind fun e => if e.rejected cfg nbr rid then none else some (e.route nbr rid 0)
      else s.inRoute rid' n := by
  have hperm := o.order_perm pre.entries
  have hkeys : (o.order pre.entries).NodupKeys := (List.perm_nodupKeys hperm).2 pre.nodupKeys
  have hmem (x) : x ∈ o.order pre.entries ↔ pre.lookup x.1 = some x.2 :=
    hperm.mem_iff.trans AList.mem_lookup_iff.symm
  unfold replayInbound
  by_cases hr : rid' = rid
  · subst hr
    rw [if_pos rfl]
    cases hpre : pre.lookup n with
    | none =>
      rw [inRoute_foldl_of_not, inRoute_dropPeer, if_pos rfl]
      · rfl
      · rintro x hx ⟨-, rfl, -⟩
        rw [(hmem x).1 hx] at hpre
        cases hpre
    | some e =>
      cases hrejected : e.rejected cfg nbr rid' with
      | false =>
        rw [inRoute_foldl_of_mem cfg o nbr rid' hkeys ((hmem ⟨n, e⟩).2 hpre) hrejected]
        simp [hrejected]
      | true =>
        rw [inRoute_foldl_of_not, inRoute_dropPeer, if_pos rfl]
        · simp [hrejected]
        · rintro x hx ⟨-, rfl, haccept⟩
          rw [(hmem x).1 hx, Option.some.injEq] at hpre
          rw [hpre, hrejected] at haccept
          cases haccept
  · rw [if_neg hr, inRoute_foldl_of_not, inRoute_dropPeer, if_neg hr]
    exact fun x _ hc => hr hc.1

theorem replayInbound_inEdit (s : AddressFamilyInstance ν) (pre : Table (NlriPath ν) SoftPreEntry) :
    InEdit s (replayInbound cfg o s nbr rid pre).1 := by
  have hround (acc : AddressFamilyInstance ν × List ν) (x : (_ : NlriPath ν) × SoftPreEntry) :
      InEdit acc.1 (replayEntry cfg o nbr rid acc x).1 := by
    simp only [replayEntry]
    split
    · exact .refl _
    · exact (removeRoute_inEdit acc.1 ⟨rid, x.1⟩).trans ⟨rfl, rfl, rfl, rfl, rfl, rfl⟩
  have hloop (l : List ((_ : NlriPath ν) × SoftPreEntry)) (acc : AddressFamilyInstance ν × List ν) :
      InEdit acc.1 (l.foldl (replayEntry cfg o nbr rid) acc).1 := by
    induction l generalizing acc with
    | nil => exact .refl _
    | cons x l ih => exact (hround acc x).trans (ih _)
  exact (dropPeer_inEdit s rid).trans (hloop _ (_, _))

end Replay

theorem softClearInbound_inRoute (o : Oracle ν) (hnbr : s.peers rid = some nbr)
    (hstored : Stored cfg s nbr rid) (rid' : UInt32) (n : NlriPath ν) :
    (s.softClearInbound cfg o rid).inRoute rid' n =
      if rid' = rid then
        (s.preOf rid n).bind fun e => if e.rejected cfg nbr rid then none else some (e.route nbr rid 0)
      else s.inRoute rid' n := by
  unfold softClearInbound preOf
  cases hpre : s.preAdjRibIn rid with
  | none =>
    by_cases hr : rid' = rid
    · subst hr
      simp only [if_true, Option.bind_none]
      exact hstored.missing n (by simp [preOf, hpre])
    · simp only [if_neg hr]
  | some pre =>
    have hsame := recomputeAll_sameIn cfg o
      (replayInbound cfg o s.toAddressFamilyInstance nbr rid pre).1
      (replayInbound cfg o s.toAddressFamilyInstance nbr rid pre).2
    simp only [hnbr, Option.bind_some]
    rw [← inRoute_replayInbound, inRoute, inRoute, inView, inView, hsame.adjRibIn]

theorem softClearInbound_network (o : Oracle ν) :
    (s.softClearInbound cfg o rid).networkLocalRoutes = s.networkLocalRoutes := by
  unfold softClearInbound
  split
  · rename_i pre nbr _ _
    exact (recomputeAll_sameIn cfg o _ _).networkLocalRoutes.trans
      (replayInbound_inEdit cfg o nbr rid s.toAddressFamilyInstance pre).networkLocalRoutes
  · rfl

/-! ## When nothing changes -/

/-- **The call is a replay**: the peer's table has the keys and the routes that it had, addresses,
    metrics and receipt times aside, and every prefix its best paths. -/
structure Replayed (cfg : Config ν) (o : Oracle ν) (s : SoftInstance ν) (rid : UInt32) : Prop where
  routes : ∀ n, (s.softClearInbound cfg o rid).inRoute rid n = s.inRoute rid n
  bestPaths : ∀ (o' : Oracle ν) (n : ν),
    (s.softClearInbound cfg o rid).bestPaths cfg o' n = s.bestPaths cfg o' n

/-- The condition: the neighbor's routes get no weight, and no route is left from before an
    announcement that the policy rejected. -/
structure Replayable (cfg : Config ν) (s : SoftInstance ν) (nbr : IPAddress) (rid : UInt32) :
    Prop where
  weight : weightOf cfg nbr = 0 ∨ ∀ n, s.inRoute rid n = none
  current : ∀ n e, s.preOf rid n = some e → e.rejected cfg nbr rid = true → s.inRoute rid n = none

theorem replayed_iff_of_stored (o : Oracle ν) (hnbr : s.peers rid = some nbr)
    (hstored : Stored cfg s nbr rid) : Replayed cfg o s rid ↔ Replayable cfg s nbr rid := by
  have hcall (n : NlriPath ν) := softClearInbound_inRoute o hnbr hstored rid n
  simp only [if_true] at hcall
  constructor
  · intro h
    have hroutes (n : NlriPath ν) := (hcall n).symm.trans (h.routes n)
    have hcurrent : ∀ n e, s.preOf rid n = some e → e.rejected cfg nbr rid = true →
        s.inRoute rid n = none := by
      intro n e hpre hrejected
      rw [← hroutes n, hpre, Option.bind_some, if_pos hrejected]
    refine ⟨or_iff_not_imp_right.2 fun hsome => ?_, hcurrent⟩
    obtain ⟨n, hn⟩ := not_forall.1 hsome
    cases hpre : s.preOf rid n with
    | none => exact absurd (hstored.missing n hpre) hn
    | some e =>
      cases hrejected : e.rejected cfg nbr rid with
      | true => exact absurd (hcurrent n e hpre hrejected) hn
      | false =>
        have hn' := hroutes n
        rw [hpre, Option.bind_some, if_neg (by simp [hrejected]), hstored.accepted n e hpre hrejected,
          Option.some.injEq] at hn'
        exact (congrArg InboundRoute.weigth hn').symm
  · intro h
    have hroutes (n : NlriPath ν) : (s.softClearInbound cfg o rid).inRoute rid n = s.inRoute rid n := by
      rw [hcall]
      cases hpre : s.preOf rid n with
      | none => exact (hstored.missing n hpre).symm
      | some e =>
        rw [Option.bind_some]
        cases hrejected : e.rejected cfg nbr rid with
        | true => exact (h.current n e hpre hrejected).symm
        | false =>
          have hroute := hstored.accepted n e hpre hrejected
          rcases h.weight with hweight | hnone
          · rw [hroute, hweight]
            rfl
          · rw [hnone] at hroute
            cases hroute
    refine ⟨hroutes, fun o' n => bestPaths_eq cfg o' (fun rid' n => ?_) (softClearInbound_network o) n⟩
    by_cases hr : rid' = rid
    · rw [hr]
      exact hroutes n
    · rw [softClearInbound_inRoute o hnbr hstored, if_neg hr]

/-- **Soft inbound clear is a replay** after any history of UPDATEs iff the state before it meets
    the condition. -/
theorem replayed_iff (o : Oracle ν) (hnbr : s.peers rid = some nbr) (hsoft : softReconfig nbr = true)
    (hroutes : ∀ n, s.inRoute rid n = none) (hpre : s.preAdjRibIn rid = none)
    (is : List (SoftInput ν)) :
    Replayed cfg o (runFrom (updateStep cfg softReconfig) s is) rid ↔
      Replayable cfg (runFrom (updateStep cfg softReconfig) s is) nbr rid := by
  have hempty (n : NlriPath ν) : s.preOf rid n = none := by rw [preOf, hpre, Option.bind_none]
  have hstart : Stored cfg s nbr rid := by
    refine ⟨fun n _ => hroutes n, fun n e hn => ?_⟩
    rw [hempty] at hn
    cases hn
  have hrun := hstart.run hnbr hsoft is
  exact replayed_iff_of_stored o hrun.2 hrun.1

/-! ### Fixed runs -/

def sampleSoftRun (cfg : Config (UInt32 × UInt8)) : SoftInstance (UInt32 × UInt8) :=
  runFrom (updateStep cfg fun _ => true) { toAddressFamilyInstance := sampleInstance }
    [⟨sampleOracle, sampleNbr, sampleUpdate [65001] 0xC0000201⟩]

/-- Without a weight the route comes back. -/
theorem replayed_iff_sample : Replayed sampleConfig sampleOracle (sampleSoftRun sampleConfig) 7 := by
  unfold sampleSoftRun
  refine (replayed_iff sampleOracle (show sampleInstance.peers 7 = some sampleNbr from rfl) rfl
    (fun _ => rfl) rfl _).2 ⟨.inl rfl, fun n e hpre hrejected => ?_⟩
  have hall : ∀ x ∈ (((sampleSoftRun sampleConfig).preAdjRibIn 7).getD ∅).entries,
      x.2.rejected sampleConfig sampleNbr 7 = false := by decide +kernel
  obtain ⟨t, ht, hlookup⟩ := Option.bind_eq_some_iff.1 hpre
  have haccepted := hall ⟨n, e⟩ (by
    rw [sampleSoftRun, ht]
    exact AList.mem_lookup_iff.1 hlookup)
  rw [haccepted] at hrejected
  cases hrejected

/-- With a weight for the neighbor the route comes back without it. -/
theorem not_replayed : ¬ ∀ weight : Option UInt16,
    Replayed { sampleConfig with neighbor := fun a => { sampleConfig.neighbor a with weight := weight } }
      sampleOracle
      (sampleSoftRun
        { sampleConfig with
          neighbor := fun a => { sampleConfig.neighbor a with weight := weight } }) 7 := by
  intro h
  have hroute := (h (some 100)).routes ⟨samplePrefix, 0⟩
  revert hroute
  decide +kernel

end SoftInstance

end VirtualRouter.Bgp
