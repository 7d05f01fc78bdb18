/-
  The indices of the shortest-path computation (the constructor of
  `routing/ospf/spf/SpfTopology.cpp`), and the edges that come of the LSAs.

  The constructor goes over the LSAs of an area.  An LSA of the maximal age is passed over, and so
  is an OSPFv2 router LSA whose LS id is not its router's id.  A link of an OSPFv2 router names a
  network by the LS id alone, so that among the network LSAs of one LS id the constructor
  selects one for `netV2ByLsId`; only those that it has selected at some time are in `net`.

  * `SpfIndex.visit`: a round of the constructor;
  * `buildIndex_rtr`, `buildIndex_netV2ByLsId`, `buildIndex_netV2`, `buildIndex_netV3`: what the
    indices hold;
  * `expandAll_eq`: any vertices, expanded one after the other, are expanded as without the cache;
  * `bidirectional`: there is an edge where the LSAs of both ends list each other, and in OSPFv2
    the network has an LSA that was selected.
-/
import VirtualRouter.Lib.KeyOrder
import VirtualRouter.Ospf.LsaInstall
import VirtualRouter.Ospf.SpfTopology

namespace VirtualRouter.Ospf

open KeyOrder

/-! ## The LSAs -/

inductive SpfBody (Link : Type) where
  | router (links : List Link)
  | network (attachedRouters : List UInt32)
  | other
  deriving DecidableEq, Repr

/-- The LSAs of an area in the order of `forEach`.  The type of an LSA decides on its body. -/
structure AreaLsdb (Link : Type) where
  records : List (LsaKey × LsaRecord (SpfBody Link))
  nodup : (records.map Prod.fst).Nodup
  routerType : UInt16
  networkType : UInt16
  router_type : ∀ e ∈ records, ∀ links, e.2.body = .router links → e.1.lsaType = routerType
  network_type : ∀ e ∈ records, ∀ attached, e.2.body = .network attached → e.1.lsaType = networkType

structure RouterEntry (Link : Type) where
  advertisingRouter : UInt32
  links : List Link
  deriving DecidableEq, Repr

/-- `NetV2ByLsId`, with the key of the record. -/
structure NetworkEntry where
  key : LsaKey
  header : LsaHeader
  lsa : List UInt32
  deriving DecidableEq, Repr

def NetworkEntry.vertexId (e : NetworkEntry) : UInt64 :=
  packNetwork e.key.advertisingRouter e.key.linkStateId

/-- `better` of the constructor. -/
def better (a b : NetworkEntry) : Bool :=
  if a.header.sequence ≠ b.header.sequence then b.header.sequence < a.header.sequence
  else if a.header.checksum ≠ b.header.checksum then b.header.checksum < a.header.checksum
  else a.header.age < b.header.age

/-! ## The constructor -/

/-- The indices over the network LSAs. -/
structure NetIndex where
  net : UInt64 → Option (List UInt32) := fun _ => none
  netV2ByLsId : UInt32 → Option NetworkEntry := fun _ => none

/-- A network LSA of OSPFv2 is entered if it is the first of its LS id, or better than the one there. -/
def NetIndex.addV2 (idx : NetIndex) (e : NetworkEntry) : NetIndex :=
  let enter : NetIndex :=
    { net := Function.update idx.net e.vertexId (some e.lsa)
      netV2ByLsId := Function.update idx.netV2ByLsId e.key.linkStateId (some e) }
  match idx.netV2ByLsId e.key.linkStateId with
  | none => enter
  | some b => if better e b then enter else idx

/-- A network LSA of OSPFv3 is entered. -/
def NetIndex.addV3 (idx : NetIndex) (e : NetworkEntry) : NetIndex :=
  { idx with net := Function.update idx.net e.vertexId (some e.lsa) }

/-- A version of the protocol, as far as the constructor asks for it. -/
inductive OspfVersion where
  | v2
  | v3
  deriving DecidableEq, Repr

/-- The indices. -/
structure SpfIndex (Link : Type) extends NetIndex where
  rtr : UInt32 → List (List Link) := fun _ => []

namespace SpfIndex

variable {Link : Type}

/-- The lambda that the constructor passes to `forEach`. -/
def visit (version : OspfVersion) (idx : SpfIndex Link) (e : LsaKey × LsaRecord (SpfBody Link)) :
    SpfIndex Link :=
  match e.2.body with
  | .router links =>
    if OSPF_MAX_AGE ≤ e.2.header.age then idx
    else if version = .v2 ∧ e.1.advertisingRouter ≠ e.1.linkStateId then idx
    else
      { idx with rtr := Function.update idx.rtr e.1.advertisingRouter
                          (idx.rtr e.1.advertisingRouter ++ [links]) }
  | .network attached =>
    if OSPF_MAX_AGE ≤ e.2.header.age then idx
    else
      let entry : NetworkEntry := ⟨e.1, e.2.header, attached⟩
      match version with
      | .v2 => { idx with toNetIndex := idx.toNetIndex.addV2 entry }
      | .v3 => { idx with toNetIndex := idx.toNetIndex.addV3 entry }
  | .other => idx

end SpfIndex

namespace AreaLsdb

variable {Link : Type} (lsdb : AreaLsdb Link) (version : OspfVersion)

/-- The constructor, up to the table of the links. -/
def buildIndex : SpfIndex Link := lsdb.records.foldl (SpfIndex.visit version) {}

/-! ## What lists what -/

def liveRouter? (e : LsaKey × LsaRecord (SpfBody Link)) : Option (RouterEntry Link) :=
  match e.2.body with
  | .router links =>
    if e.2.header.isMaxAge then none
    else if version = .v2 ∧ e.1.advertisingRouter ≠ e.1.linkStateId then none
    else some ⟨e.1.advertisingRouter, links⟩
  | _ => none

def liveNetwork? (e : LsaKey × LsaRecord (SpfBody Link)) : Option NetworkEntry :=
  match e.2.body with
  | .network attached => if e.2.header.isMaxAge then none else some ⟨e.1, e.2.header, attached⟩
  | _ => none

def routers : List (RouterEntry Link) := lsdb.records.filterMap (liveRouter? version)

def networks : List NetworkEntry := lsdb.records.filterMap liveNetwork?

def Lists (policy : Policy Link) : Vertex → Vertex → Prop
  | .router a, .router b => ∃ r ∈ lsdb.routers version, r.advertisingRouter = a ∧
      ∃ l ∈ r.links, policy.type l = LINK_P2P ∧ policy.neighbor l = b
  | .router a, .network n => ∃ r ∈ lsdb.routers version, r.advertisingRouter = a ∧
      ∃ l ∈ r.links, policy.type l = LINK_TRANSIT ∧ policy.leadsTo l n = true
  | .network n, .router a => ∃ e ∈ lsdb.networks, e.vertexId = n ∧ a ∈ e.lsa
  | .network _, .network _ => False

/-! ## The contents of the indices -/

theorem visit_router (idx : SpfIndex Link) (e : LsaKey × LsaRecord (SpfBody Link)) (a : UInt32) :
    (SpfIndex.visit version idx e).rtr a =
      idx.rtr a ++ ((liveRouter? version e).toList.filter (·.advertisingRouter = a)).map (·.links) := by
  rw [SpfIndex.visit, liveRouter?]
  cases hbody : e.2.body with
  | router links =>
    by_cases hage : OSPF_MAX_AGE ≤ e.2.header.age
    · simp [LsaHeader.isMaxAge, hage]
    · by_cases hid : version = .v2 ∧ e.1.advertisingRouter ≠ e.1.linkStateId
      · simp [LsaHeader.isMaxAge, hage, hid]
      · by_cases ha : e.1.advertisingRouter = a
        · subst ha
          simp [LsaHeader.isMaxAge, hage, hid]
        · simp [LsaHeader.isMaxAge, hage, hid, ha, Function.update_of_ne (Ne.symm ha)]
  | network attached =>
    cases version <;> by_cases hage : OSPF_MAX_AGE ≤ e.2.header.age <;> simp [hage]
  | other => simp

theorem buildIndex_rtr (a : UInt32) :
    (lsdb.buildIndex version).rtr a =
      ((lsdb.routers version).filter (·.advertisingRouter = a)).map (·.links) := by
  rw [buildIndex, routers]
  induction lsdb.records using List.reverseRecOn with
  | nil => rfl
  | append_singleton records e ih =>
    rw [List.foldl_append, List.filterMap_append, List.filter_append, List.map_append, ← ih]
    exact visit_router version _ e a

def addNetwork : NetIndex → NetworkEntry → NetIndex :=
  match version with
  | .v2 => NetIndex.addV2
  | .v3 => NetIndex.addV3

theorem visit_network (idx : SpfIndex Link) (e : LsaKey × LsaRecord (SpfBody Link)) :
    (SpfIndex.visit version idx e).toNetIndex =
      (liveNetwork? e).toList.foldl (addNetwork version) idx.toNetIndex := by
  rw [SpfIndex.visit, liveNetwork?]
  cases hbody : e.2.body with
  | router links =>
    dsimp only
    split_ifs <;> rfl
  | network attached =>
    by_cases hage : OSPF_MAX_AGE ≤ e.2.header.age
    · simp [LsaHeader.isMaxAge, hage]
    · cases version <;> simp [LsaHeader.isMaxAge, hage, addNetwork]
  | other => rfl

theorem buildIndex_toNetIndex :
    (lsdb.buildIndex version).toNetIndex = lsdb.networks.foldl (addNetwork version) {} := by
  rw [buildIndex, networks]
  induction lsdb.records using List.reverseRecOn with
  | nil => rfl
  | append_singleton records e ih =>
    have hlast : [e].filterMap liveNetwork? = (liveNetwork? e).toList := by
      rw [List.filterMap_cons]
      cases liveNetwork? e <;> rfl
    rw [List.foldl_append, List.filterMap_append, List.foldl_append, ← ih, hlast]
    exact visit_network version _ e

/-! ## Keys -/

theorem key_ext {a b : LsaKey} (htype : a.lsaType = b.lsaType)
    (hadv : a.advertisingRouter = b.advertisingRouter) (hid : a.linkStateId = b.linkStateId) : a = b := by
  obtain ⟨⟨_, _⟩, _⟩ := a
  obtain ⟨⟨_, _⟩, _⟩ := b
  cases htype
  cases hadv
  cases hid
  rfl

theorem of_liveNetwork? {r : LsaKey × LsaRecord (SpfBody Link)} {e : NetworkEntry}
    (h : liveNetwork? r = some e) : r.1 = e.key ∧ r.2.body = .network e.lsa := by
  rw [liveNetwork?] at h
  split at h
  · split_ifs at h
    obtain rfl := Option.some.inj h
    exact ⟨rfl, ‹_›⟩
  · cases h

theorem of_liveRouter?_v2 {r : LsaKey × LsaRecord (SpfBody Link)} {e : RouterEntry Link}
    (h : liveRouter? .v2 r = some e) :
    r.1.advertisingRouter = e.advertisingRouter ∧ r.1.linkStateId = e.advertisingRouter ∧
      r.2.body = .router e.links := by
  rw [liveRouter?] at h
  split at h
  · split_ifs at h with hage hid
    obtain rfl := Option.some.inj h
    have heq : r.1.advertisingRouter = r.1.linkStateId := by
      by_contra hne
      exact hid ⟨rfl, hne⟩
    exact ⟨rfl, heq.symm, ‹_›⟩
  · cases h

theorem networks_pairwise : lsdb.networks.Pairwise fun a b => a.vertexId ≠ b.vertexId := by
  rw [networks, List.pairwise_filterMap]
  refine (List.pairwise_map.1 lsdb.nodup).imp_of_mem fun {a b} ha hb hne x hx y hy heq => hne ?_
  obtain ⟨hka, hba⟩ := of_liveNetwork? hx
  obtain ⟨hkb, hbb⟩ := of_liveNetwork? hy
  obtain ⟨hadv, hid⟩ := packNetwork_inj heq
  rw [← hka, ← hkb] at hadv hid
  exact key_ext ((lsdb.network_type a ha _ hba).trans (lsdb.network_type b hb _ hbb).symm) hadv hid

theorem routers_pairwise :
    (lsdb.routers .v2).Pairwise fun a b => a.advertisingRouter ≠ b.advertisingRouter := by
  rw [routers, List.pairwise_filterMap]
  refine (List.pairwise_map.1 lsdb.nodup).imp_of_mem fun {a b} ha hb hne x hx y hy heq => hne ?_
  obtain ⟨hadva, hida, hba⟩ := of_liveRouter?_v2 hx
  obtain ⟨hadvb, hidb, hbb⟩ := of_liveRouter?_v2 hy
  exact key_ext ((lsdb.router_type a ha _ hba).trans (lsdb.router_type b hb _ hbb).symm)
    (hadva.trans (heq.trans hadvb.symm)) (hida.trans (heq.trans hidb.symm))

theorem buildIndex_rtr_length (a : UInt32) : ((lsdb.buildIndex .v2).rtr a).length ≤ 1 := by
  rw [buildIndex_rtr, List.length_map]
  have hpair := lsdb.routers_pairwise.filter (fun e => e.advertisingRouter = a)
  have hadv : ∀ e ∈ (lsdb.routers .v2).filter (fun e => e.advertisingRouter = a), e.advertisingRouter = a :=
    fun e he => of_decide_eq_true (List.mem_filter.1 he).2
  cases hrest : (lsdb.routers .v2).filter (fun e => e.advertisingRouter = a) with
  | nil => exact Nat.zero_le 1
  | cons x rest =>
    rw [hrest] at hpair hadv
    cases rest with
    | nil => exact le_rfl
    | cons y rest =>
      have hxy : x.advertisingRouter = y.advertisingRouter :=
        (hadv x List.mem_cons_self).trans (hadv y (List.mem_cons_of_mem x List.mem_cons_self)).symm
      exact absurd hxy ((List.pairwise_cons.1 hpair).1 y List.mem_cons_self)

end AreaLsdb

/-! ## The selection -/

/-- The order of `better`, as a number. -/
def NetworkEntry.rank (e : NetworkEntry) : ℕ :=
  ((2 ^ 32 - e.header.sequence.toNat) * 2 ^ 16 + (2 ^ 16 - e.header.checksum.toNat)) * 2 ^ 17 +
    e.header.age.toNat

theorem better_orderedBy (l : List NetworkEntry) : OrderedBy better NetworkEntry.rank l := by
  intro a _ b _
  have h1 := a.header.sequence.toNat_lt
  have h2 := b.header.sequence.toNat_lt
  have h3 := a.header.checksum.toNat_lt
  have h4 := b.header.checksum.toNat_lt
  have h5 := a.header.age.toNat_lt
  have h6 := b.header.age.toNat_lt
  rw [better]
  split_ifs with hseq hsum
  · rw [decide_eq_true_iff, UInt32.lt_iff_toNat_lt, NetworkEntry.rank, NetworkEntry.rank]
    rw [Ne, ← UInt32.toNat_inj] at hseq
    omega
  · rw [Ne, not_not, ← UInt32.toNat_inj] at hseq
    rw [Ne, ← UInt16.toNat_inj] at hsum
    rw [decide_eq_true_iff, UInt16.lt_iff_toNat_lt, NetworkEntry.rank, NetworkEntry.rank]
    omega
  · rw [Ne, not_not, ← UInt32.toNat_inj] at hseq
    rw [Ne, not_not, ← UInt16.toNat_inj] at hsum
    rw [decide_eq_true_iff, UInt16.lt_iff_toNat_lt, NetworkEntry.rank, NetworkEntry.rank]
    omega

namespace NetIndex

/-- The entries of an LS id. -/
def rivals (lsId : UInt32) (l : List NetworkEntry) : List NetworkEntry :=
  l.filter fun e => e.key.linkStateId = lsId

theorem rivals_concat_self (l : List NetworkEntry) (e : NetworkEntry) :
    rivals e.key.linkStateId (l ++ [e]) = rivals e.key.linkStateId l ++ [e] := by
  simp [rivals]

theorem rivals_concat_ne (l : List NetworkEntry) (e : NetworkEntry) {lsId : UInt32}
    (h : e.key.linkStateId ≠ lsId) : rivals lsId (l ++ [e]) = rivals lsId l := by
  simp [rivals, h]

theorem addV2_netV2ByLsId_self (idx : NetIndex) (e : NetworkEntry) :
    (idx.addV2 e).netV2ByLsId e.key.linkStateId =
      takeBest better (idx.netV2ByLsId e.key.linkStateId) e := by
  rw [addV2]
  cases hold : idx.netV2ByLsId e.key.linkStateId with
  | none => exact Function.update_self ..
  | some b =>
    rw [takeBest]
    dsimp only
    split_ifs
    · exact Function.update_self ..
    · exact hold

theorem addV2_netV2ByLsId_ne (idx : NetIndex) {e : NetworkEntry} {lsId : UInt32}
    (h : e.key.linkStateId ≠ lsId) : (idx.addV2 e).netV2ByLsId lsId = idx.netV2ByLsId lsId := by
  rw [addV2]
  split
  · exact Function.update_of_ne h.symm ..
  · split_ifs
    · exact Function.update_of_ne h.symm ..
    · rfl

theorem foldl_addV2_netV2ByLsId (l : List NetworkEntry) (lsId : UInt32) :
    (l.foldl addV2 {}).netV2ByLsId lsId = (rivals lsId l).foldl (takeBest better) none := by
  induction l using List.reverseRecOn with
  | nil => rfl
  | append_singleton l e ih =>
    rw [List.foldl_append]
    by_cases h : e.key.linkStateId = lsId
    · subst h
      rw [rivals_concat_self, foldl_takeBest_concat, ← ih]
      exact addV2_netV2ByLsId_self _ e
    · rw [rivals_concat_ne l e h, ← ih]
      exact addV2_netV2ByLsId_ne _ h

/-- **An LS id is led to its first best network LSA.** -/
theorem foldl_addV2_selects (l : List NetworkEntry) {lsId : UInt32} {e : NetworkEntry} :
    (l.foldl addV2 {}).netV2ByLsId lsId = some e ↔ Wins better (rivals lsId l) e := by
  rw [foldl_addV2_netV2ByLsId]
  exact foldl_takeBest_iff (better_orderedBy _).strictWeakOn

theorem leads_rivals_concat {l : List NetworkEntry} {c e : NetworkEntry} :
    Leads better (rivals e.key.linkStateId (l ++ [c])) e ↔
      Leads better (rivals e.key.linkStateId l) e ∨
        e = c ∧ ∀ x ∈ rivals c.key.linkStateId l, better c x = true := by
  by_cases h : c.key.linkStateId = e.key.linkStateId
  · rw [← h, rivals_concat_self]
    exact leads_concat
  · rw [rivals_concat_ne l c h]
    refine ⟨Or.inl, ?_⟩
    rintro (hleads | ⟨rfl, -⟩)
    · exact hleads
    · exact absurd rfl h

theorem mem_of_leads {l : List NetworkEntry} {lsId : UInt32} {e : NetworkEntry}
    (h : Leads better (rivals lsId l) e) : e ∈ l ∧ e.key.linkStateId = lsId := by
  obtain ⟨hmem, hid⟩ := List.mem_filter.1 h.mem
  exact ⟨hmem, of_decide_eq_true hid⟩

theorem addV2_of_better {idx : NetIndex} {e : NetworkEntry}
    (h : ∀ b, idx.netV2ByLsId e.key.linkStateId = some b → better e b = true) :
    (idx.addV2 e).net = Function.update idx.net e.vertexId (some e.lsa) := by
  rw [addV2]
  split
  · rfl
  · next b hb =>
    rw [if_pos (h b hb)]

theorem addV2_of_not_better {idx : NetIndex} {e : NetworkEntry}
    (h : ¬ ∀ b, idx.netV2ByLsId e.key.linkStateId = some b → better e b = true) :
    idx.addV2 e = idx := by
  push Not at h
  obtain ⟨b, hb, hne⟩ := h
  rw [addV2, hb]
  exact if_neg hne

/-- **In OSPFv2 the networks are those whose LSA was the best one when it came.** -/
theorem foldl_addV2_net {l : List NetworkEntry} (hl : l.Pairwise fun a b => a.vertexId ≠ b.vertexId)
    {n : UInt64} {attached : List UInt32} : (l.foldl addV2 {}).net n = some attached ↔
      ∃ e, Leads better (rivals e.key.linkStateId l) e ∧ e.vertexId = n ∧ e.lsa = attached := by
  induction l using List.reverseRecOn with
  | nil =>
    constructor
    · intro h
      cases h
    · rintro ⟨e, hleads, -⟩
      exact absurd (mem_of_leads hleads).1 List.not_mem_nil
  | append_singleton l c ih =>
    obtain ⟨hl', -, hother⟩ := List.pairwise_append.1 hl
    have hne : ∀ e ∈ l, e.vertexId ≠ c.vertexId := fun e he => hother e he c (List.mem_singleton.2 rfl)
    have htaken : (∀ b, (l.foldl addV2 {}).netV2ByLsId c.key.linkStateId = some b → better c b = true) ↔
        ∀ x ∈ rivals c.key.linkStateId l, better c x = true := by
      rw [foldl_addV2_netV2ByLsId]
      exact takeBest_eq_iff (better_orderedBy _).strictWeakOn
    simp only [leads_rivals_concat, ← htaken]
    rw [List.foldl_append, List.foldl_cons, List.foldl_nil]
    by_cases hbetter : ∀ b, (l.foldl addV2 {}).netV2ByLsId c.key.linkStateId = some b → better c b = true
    · rw [addV2_of_better hbetter]
      by_cases hn : n = c.vertexId
      · subst hn
        rw [Function.update_self]
        constructor
        · intro h
          exact ⟨c, Or.inr ⟨rfl, hbetter⟩, rfl, Option.some.inj h⟩
        · rintro ⟨e, hleads | ⟨rfl, -⟩, hid, hlsa⟩
          · exact absurd hid (hne e (mem_of_leads hleads).1)
          · rw [hlsa]
      · rw [Function.update_of_ne hn, ih hl']
        constructor
        · rintro ⟨e, hleads, hid, hlsa⟩
          exact ⟨e, Or.inl hleads, hid, hlsa⟩
        · rintro ⟨e, hleads | ⟨rfl, -⟩, hid, hlsa⟩
          · exact ⟨e, hleads, hid, hlsa⟩
          · exact absurd hid.symm hn
    · rw [addV2_of_not_better hbetter, ih hl']
      constructor
      · rintro ⟨e, hleads, hid, hlsa⟩
        exact ⟨e, Or.inl hleads, hid, hlsa⟩
      · rintro ⟨e, hleads | ⟨-, hall⟩, hid, hlsa⟩
        · exact ⟨e, hleads, hid, hlsa⟩
        · exact absurd hall hbetter

/-- **In OSPFv3 every network LSA is indexed.** -/
theorem foldl_addV3_net {l : List NetworkEntry} (hl : l.Pairwise fun a b => a.vertexId ≠ b.vertexId)
    {n : UInt64} {attached : List UInt32} : (l.foldl addV3 {}).net n = some attached ↔
      ∃ e ∈ l, e.vertexId = n ∧ e.lsa = attached := by
  induction l using List.reverseRecOn with
  | nil =>
    constructor
    · intro h
      cases h
    · rintro ⟨e, he, -⟩
      exact absurd he List.not_mem_nil
  | append_singleton l c ih =>
    obtain ⟨hl', -, hother⟩ := List.pairwise_append.1 hl
    have hne : ∀ e ∈ l, e.vertexId ≠ c.vertexId := fun e he => hother e he c (List.mem_singleton.2 rfl)
    rw [List.foldl_append, List.foldl_cons, List.foldl_nil, addV3]
    simp only [List.mem_append, List.mem_singleton]
    by_cases hn : n = c.vertexId
    · subst hn
      rw [Function.update_self]
      constructor
      · intro h
        exact ⟨c, Or.inr rfl, rfl, Option.some.inj h⟩
      · rintro ⟨e, he | rfl, hid, hlsa⟩
        · exact absurd hid (hne e he)
        · rw [hlsa]
    · rw [Function.update_of_ne hn, ih hl']
      constructor
      · rintro ⟨e, he, hid, hlsa⟩
        exact ⟨e, Or.inl he, hid, hlsa⟩
      · rintro ⟨e, he | rfl, hid, hlsa⟩
        · exact ⟨e, he, hid, hlsa⟩
        · exact absurd hid.symm hn

end NetIndex

/-! ## The topologies -/

namespace AreaLsdb

/-- The indices, as the expansion reads them. -/
def lsdbIndex {Link : Type} (lsdb : AreaLsdb Link) (version : OspfVersion) : LsdbIndex Link where
  rtr := (lsdb.buildIndex version).rtr
  net := (lsdb.buildIndex version).net
  netV2ByLsId lsId := ((lsdb.buildIndex version).netV2ByLsId lsId).map fun e => (e.key.advertisingRouter, e.lsa)

theorem buildIndex_netV2ByLsId {Link : Type} (lsdb : AreaLsdb Link) {lsId : UInt32} {e : NetworkEntry} :
    (lsdb.buildIndex .v2).netV2ByLsId lsId = some e ↔ Wins better (NetIndex.rivals lsId lsdb.networks) e := by
  rw [buildIndex_toNetIndex]
  exact NetIndex.foldl_addV2_selects lsdb.networks

theorem buildIndex_netV2 {Link : Type} (lsdb : AreaLsdb Link) {n : UInt64} {attached : List UInt32} :
    (lsdb.buildIndex .v2).net n = some attached ↔
      ∃ e, Leads better (NetIndex.rivals e.key.linkStateId lsdb.networks) e ∧ e.vertexId = n ∧ e.lsa = attached := by
  rw [buildIndex_toNetIndex]
  exact NetIndex.foldl_addV2_net lsdb.networks_pairwise

theorem buildIndex_netV3 {Link : Type} (lsdb : AreaLsdb Link) {n : UInt64} {attached : List UInt32} :
    (lsdb.buildIndex .v3).net n = some attached ↔
      ∃ e ∈ lsdb.networks, e.vertexId = n ∧ e.lsa = attached := by
  rw [buildIndex_toNetIndex]
  exact NetIndex.foldl_addV3_net lsdb.networks_pairwise

theorem net_of_selected {Link : Type} (lsdb : AreaLsdb Link) {lsId : UInt32} {e : UInt32 × List UInt32}
    (h : (lsdb.lsdbIndex .v2).netV2ByLsId lsId = some e) :
    (lsdb.lsdbIndex .v2).net (packNetwork e.1 lsId) = some e.2 := by
  obtain ⟨entry, hentry, rfl⟩ := Option.map_eq_some_iff.1 h
  have hleads := (lsdb.buildIndex_netV2ByLsId.1 hentry).leads
  obtain ⟨-, hid⟩ := NetIndex.mem_of_leads hleads
  subst hid
  exact lsdb.buildIndex_netV2.2 ⟨entry, hleads, rfl, rfl⟩

/-- `SpfTopology<PolicyV2>`. -/
def topologyV2 (lsdb : AreaLsdb RouterLinkV2) : SpfTopology RouterLinkV2 :=
  .ofV2 (lsdb.lsdbIndex .v2) lsdb.buildIndex_rtr_length fun _ _ => lsdb.net_of_selected

/-- `SpfTopology<PolicyV3>`. -/
def topologyV3 (lsdb : AreaLsdb RouterLinkV3) : SpfTopology RouterLinkV3 := .ofV3 (lsdb.lsdbIndex .v3)

end AreaLsdb

/-! ## Vertices, one after the other -/

namespace SpfTopology

variable {Link : Type} (topo : SpfTopology Link)

/-- `expandRouter` or `expandNetwork`. -/
def expand (cache : BacklinkCache) : Vertex → Option (List SpfEdge) × BacklinkCache
  | .router rid => topo.expandRouter cache rid
  | .network id =>
    let r := topo.expandNetwork cache id
    (r.1.map (·.map fun rid => ⟨.router rid, 0, 0⟩), r.2)

def expandAll : BacklinkCache → List Vertex → List (Option (List SpfEdge))
  | _, [] => []
  | cache, v :: vs =>
    let r := topo.expand cache v
    r.1 :: expandAll r.2 vs

/-- The expansion without the cache: each check starts with an empty one. -/
def expandUncached : Vertex → Option (List SpfEdge)
  | .router rid =>
    if topo.rtr rid = [] then none
    else some ((topo.rtr rid).flatten.filterMap fun l => (topo.linkEdge rid [] l).1)
  | .network id => (topo.net id).map fun attached =>
      (attached.filter fun rid => (topo.attachedFrom id [] [rid]).1 = [rid]).map fun rid => ⟨.router rid, 0, 0⟩

variable {topo} {cache : BacklinkCache}

theorem expandRouter_uncached (hcache : topo.CacheValid cache) (rid : UInt32) :
    (topo.expandRouter cache rid).1 = topo.expandUncached (.router rid) ∧
      topo.CacheValid (topo.expandRouter cache rid).2 := by
  rw [expandRouter, expandUncached]
  split_ifs with hnone
  · exact ⟨rfl, hcache⟩
  · obtain ⟨hedges, hvalid⟩ := linkEdges_spec (fun l (hl : l ∈ topo.links rid) => hl) hcache
    refine ⟨?_, hvalid⟩
    have huncached : (topo.rtr rid).flatten.filterMap (fun l => (topo.linkEdge rid [] l).1) =
        (topo.rtr rid).flatten.filterMap (topo.linkEdge? rid) :=
      List.filterMap_congr fun l hl => (linkEdge_spec topo.cacheValid_nil hl).1
    rw [huncached]
    exact congrArg some hedges

theorem expandNetwork_uncached (hcache : topo.CacheValid cache) (id : UInt64) :
    (topo.expand cache (.network id)).1 = topo.expandUncached (.network id) ∧
      topo.CacheValid (topo.expand cache (.network id)).2 := by
  rw [expand, expandNetwork, expandUncached]
  cases hnet : topo.net id with
  | none => exact ⟨rfl, hcache⟩
  | some attached =>
    obtain ⟨hedges, hvalid⟩ := attachedFrom_spec hnet (fun _ h => h) hcache
    refine ⟨?_, hvalid⟩
    have huncached : (attached.filter fun rid => (topo.attachedFrom id [] [rid]).1 = [rid]) =
        attached.filter fun rid => topo.transitTo (topo.links rid) id := by
      refine List.filter_congr fun rid hrid => ?_
      have hone := (attachedFrom_spec hnet
        (fun r (hr : r ∈ [rid]) => List.mem_singleton.1 hr ▸ hrid) topo.cacheValid_nil).1
      rw [hone, List.filter_singleton]
      cases topo.transitTo (topo.links rid) id <;> simp
    simp only [Option.map_some, hedges, huncached]

/-- **A vertex is expanded as without the cache.** -/
theorem expand_spec (hcache : topo.CacheValid cache) (v : Vertex) :
    (topo.expand cache v).1 = topo.expandUncached v ∧ topo.CacheValid (topo.expand cache v).2 := by
  cases v with
  | router rid => exact expandRouter_uncached hcache rid
  | network id => exact expandNetwork_uncached hcache id

theorem expandUncached_edges (v : Vertex) : (topo.expandUncached v).getD [] = topo.edges v := by
  rw [← (expand_spec topo.cacheValid_nil v).1]
  cases v with
  | router rid => exact (expandRouter_spec topo.cacheValid_nil rid).1
  | network id =>
    rw [edges, ← (expandNetwork_spec topo.cacheValid_nil id).1, expand]
    cases (topo.expandNetwork [] id).1 <;> rfl

/-- **The order of the vertices and the cache change nothing.** -/
theorem expandAll_eq (hcache : topo.CacheValid cache) (vs : List Vertex) :
    topo.expandAll cache vs = vs.map topo.expandUncached := by
  induction vs generalizing cache with
  | nil => rfl
  | cons v vs ih =>
    obtain ⟨hanswer, hvalid⟩ := expand_spec hcache v
    rw [expandAll, List.map_cons, hanswer, ih hvalid]

/-! ## Edges -/

variable (topo) in
/-- The expansion of the first vertex emits an edge to the second one. -/
def Emits (v w : Vertex) : Prop := ∃ e ∈ (topo.expandUncached v).getD [], e.dst = w

theorem mem_edges_router {rid : UInt32} {e : SpfEdge} : e ∈ topo.edges (.router rid) ↔
    ∃ l ∈ topo.links rid, topo.linkEdge? rid l = some e := List.mem_filterMap

theorem p2pTo_iff {ls : List Link} {rid : UInt32} :
    topo.p2pTo ls rid ↔ ∃ l ∈ ls, topo.policy.type l = LINK_P2P ∧ topo.policy.neighbor l = rid := by
  simp [p2pTo, List.any_eq_true]

theorem transitTo_iff {ls : List Link} {id : UInt64} :
    topo.transitTo ls id ↔ ∃ l ∈ ls, topo.policy.type l = LINK_TRANSIT ∧ topo.policy.leadsTo l id = true := by
  simp [transitTo, List.any_eq_true]

theorem emits_router_router {a b : UInt32} : topo.Emits (.router a) (.router b) ↔
    topo.p2pTo (topo.links a) b ∧ topo.p2pTo (topo.links b) a := by
  rw [Emits, expandUncached_edges]
  constructor
  · rintro ⟨e, he, hdst⟩
    obtain ⟨l, hl, hedge⟩ := mem_edges_router.1 he
    rw [linkEdge?] at hedge
    split_ifs at hedge with htype hback
    · obtain rfl := Option.some.inj hedge
      obtain rfl := Vertex.router.inj hdst
      exact ⟨p2pTo_of_mem hl htype, hback⟩
    · split at hedge
      · cases hedge
      · split_ifs at hedge
        obtain rfl := Option.some.inj hedge
        cases hdst
  · rintro ⟨hlink, hback⟩
    obtain ⟨l, hl, htype, hnbr⟩ := p2pTo_iff.1 hlink
    subst hnbr
    refine ⟨⟨.router (topo.policy.neighbor l), (topo.policy.metric l).toNat, topo.policy.extractIfId l⟩,
      mem_edges_router.2 ⟨l, hl, ?_⟩, rfl⟩
    rw [linkEdge?, if_pos htype, if_pos hback]

theorem emits_router_network {a : UInt32} {n : UInt64} : topo.Emits (.router a) (.network n) ↔
    ∃ l ∈ topo.links a, topo.policy.type l = LINK_TRANSIT ∧
      ∃ attached, topo.policy.network topo.toLsdbIndex l = some (n, attached) ∧ a ∈ attached := by
  rw [Emits, expandUncached_edges]
  constructor
  · rintro ⟨e, he, hdst⟩
    obtain ⟨l, hl, hedge⟩ := mem_edges_router.1 he
    rw [linkEdge?] at hedge
    split_ifs at hedge with htype hback htransit
    · obtain rfl := Option.some.inj hedge
      cases hdst
    · split at hedge
      · cases hedge
      · next id attached hnet =>
        split_ifs at hedge with hmem
        obtain rfl := Option.some.inj hedge
        obtain rfl := Vertex.network.inj hdst
        exact ⟨l, hl, htransit, attached, hnet, hmem⟩
  · rintro ⟨l, hl, htype, attached, hnet, hmem⟩
    have hp2p : topo.policy.type l ≠ LINK_P2P := by
      rw [htype]
      decide
    refine ⟨⟨.network n, (topo.policy.metric l).toNat, topo.policy.extractIfId l⟩,
      mem_edges_router.2 ⟨l, hl, ?_⟩, rfl⟩
    rw [linkEdge?, if_neg hp2p, if_pos htype, hnet]
    exact if_pos hmem

theorem emits_network {n : UInt64} {w : Vertex} : topo.Emits (.network n) w ↔
    ∃ a, w = .router a ∧ (∃ attached, topo.net n = some attached ∧ a ∈ attached) ∧
      topo.transitTo (topo.links a) n := by
  rw [Emits, expandUncached_edges, edges, attachedTo]
  constructor
  · rintro ⟨e, he, rfl⟩
    obtain ⟨a, ha, rfl⟩ := List.mem_map.1 he
    obtain ⟨hmem, hlink⟩ := List.mem_filter.1 ha
    cases hnet : topo.net n with
    | none =>
      rw [hnet] at hmem
      cases hmem
    | some attached =>
      rw [hnet] at hmem
      exact ⟨a, rfl, ⟨attached, rfl, hmem⟩, hlink⟩
  · rintro ⟨a, rfl, ⟨attached, hnet, hmem⟩, hlink⟩
    refine ⟨_, List.mem_map.2 ⟨a, List.mem_filter.2 ⟨?_, hlink⟩, rfl⟩, rfl⟩
    rw [hnet]
    exact hmem

end SpfTopology

/-! ## The check -/

/-- The vertices are expanded as without the cache, in any order, and there is an edge exactly where
    the LSAs of both ends list each other and `also` holds. -/
def ChecksBacklinks {Link : Type} (topo : SpfTopology Link) (lists also : Vertex → Vertex → Prop) : Prop :=
  (∀ vs, topo.expandAll [] vs = vs.map topo.expandUncached) ∧
    ∀ v w, topo.Emits v w ↔ (lists v w ∧ lists w v) ∧ also v w

namespace AreaLsdb

/-- What an edge of OSPFv2 needs besides: the LSA of a network that is led to is the one that is
    selected for its LS id, and that of a network that is left was the best one when it came. -/
def Selected {Link : Type} (lsdb : AreaLsdb Link) : Vertex → Vertex → Prop
  | .router _, .network n =>
    ∃ e, Wins better (NetIndex.rivals e.key.linkStateId lsdb.networks) e ∧ e.vertexId = n
  | .network n, _ =>
    ∃ e, Leads better (NetIndex.rivals e.key.linkStateId lsdb.networks) e ∧ e.vertexId = n
  | .router _, .router _ => True

section
variable {Link : Type} (lsdb : AreaLsdb Link) {version : OspfVersion}

theorem mem_links {topo : SpfTopology Link} (htopo : topo.toLsdbIndex = lsdb.lsdbIndex version)
    {a : UInt32} {l : Link} : l ∈ topo.links a ↔
      ∃ r ∈ lsdb.routers version, r.advertisingRouter = a ∧ l ∈ r.links := by
  have hrtr : topo.rtr a = (lsdb.buildIndex version).rtr a := by
    rw [show topo.rtr = (lsdb.lsdbIndex version).rtr from congrArg LsdbIndex.rtr htopo]
    rfl
  rw [SpfTopology.links, hrtr, buildIndex_rtr, List.mem_flatten]
  constructor
  · rintro ⟨ls, hls, hl⟩
    obtain ⟨r, hr, rfl⟩ := List.mem_map.1 hls
    obtain ⟨hmem, hadv⟩ := List.mem_filter.1 hr
    exact ⟨r, hmem, of_decide_eq_true hadv, hl⟩
  · rintro ⟨r, hr, hadv, hl⟩
    exact ⟨r.links, List.mem_map.2 ⟨r, List.mem_filter.2 ⟨hr, decide_eq_true hadv⟩, rfl⟩, hl⟩

theorem p2pTo_links {topo : SpfTopology Link} (htopo : topo.toLsdbIndex = lsdb.lsdbIndex version)
    {a b : UInt32} : topo.p2pTo (topo.links a) b ↔
      lsdb.Lists version topo.policy (.router a) (.router b) := by
  simp only [SpfTopology.p2pTo_iff, mem_links lsdb htopo, Lists]
  constructor
  · rintro ⟨l, ⟨r, hr, hadv, hl⟩, hlink⟩
    exact ⟨r, hr, hadv, l, hl, hlink⟩
  · rintro ⟨r, hr, hadv, l, hl, hlink⟩
    exact ⟨l, ⟨r, hr, hadv, hl⟩, hlink⟩

theorem lists_network {topo : SpfTopology Link} (htopo : topo.toLsdbIndex = lsdb.lsdbIndex version)
    {a : UInt32} {n : UInt64} : lsdb.Lists version topo.policy (.router a) (.network n) ↔
      ∃ l ∈ topo.links a, topo.policy.type l = LINK_TRANSIT ∧ topo.policy.leadsTo l n = true := by
  simp only [mem_links lsdb htopo, Lists]
  constructor
  · rintro ⟨r, hr, hadv, l, hl, hlink⟩
    exact ⟨l, ⟨r, hr, hadv, hl⟩, hlink⟩
  · rintro ⟨l, ⟨r, hr, hadv, hl⟩, hlink⟩
    exact ⟨r, hr, hadv, l, hl, hlink⟩

theorem networks_inj {e e' : NetworkEntry} (he : e ∈ lsdb.networks) (he' : e' ∈ lsdb.networks)
    (h : e.vertexId = e'.vertexId) : e = e' :=
  List.inj_on_of_nodup_map (List.pairwise_map.2 lsdb.networks_pairwise) he he' h

end

/-! ## OSPFv2 -/

section V2
variable (lsdb : AreaLsdb RouterLinkV2)

theorem network_V2 {l : RouterLinkV2} {n : UInt64} {attached : List UInt32} :
    lsdb.topologyV2.policy.network lsdb.topologyV2.toLsdbIndex l = some (n, attached) ↔
      ∃ e, Wins better (NetIndex.rivals e.key.linkStateId lsdb.networks) e ∧
        e.key.linkStateId = l.linkId ∧ e.vertexId = n ∧ e.lsa = attached := by
  constructor
  · intro h
    obtain ⟨_, hselected, hpair⟩ := Option.map_eq_some_iff.1 h
    obtain ⟨e, he, rfl⟩ := Option.map_eq_some_iff.1 hselected
    obtain ⟨hid, hlsa⟩ := Prod.mk.inj hpair
    have hwins := lsdb.buildIndex_netV2ByLsId.1 he
    have hlsId := (NetIndex.mem_of_leads hwins.leads).2
    rw [← hlsId] at hwins hid
    exact ⟨e, hwins, hlsId, hid, hlsa⟩
  · rintro ⟨e, hwins, hlsId, rfl, rfl⟩
    have he := lsdb.buildIndex_netV2ByLsId.2 hwins
    rw [hlsId] at he
    refine Option.map_eq_some_iff.2 ⟨_, Option.map_eq_some_iff.2 ⟨e, he, rfl⟩, ?_⟩
    rw [← hlsId]
    rfl

theorem p2p_V2 (a b : UInt32) : lsdb.topologyV2.p2pTo (lsdb.topologyV2.links a) b ↔
    lsdb.Lists .v2 PolicyV2 (.router a) (.router b) := lsdb.p2pTo_links rfl

theorem lists_V2 (a : UInt32) (n : UInt64) : lsdb.Lists .v2 PolicyV2 (.router a) (.network n) ↔
    ∃ l ∈ lsdb.topologyV2.links a, PolicyV2.type l = LINK_TRANSIT ∧ PolicyV2.leadsTo l n = true :=
  @lists_network _ lsdb .v2 lsdb.topologyV2 rfl a n

theorem leadsTo_V2 {l : RouterLinkV2} {e : NetworkEntry} :
    PolicyV2.leadsTo l e.vertexId = true ↔ e.key.linkStateId = l.linkId := by
  rw [PolicyV2, decide_eq_true_iff, NetworkEntry.vertexId, networkLsId_packNetwork]
  exact eq_comm

theorem emits_V2_network {a : UInt32} {n : UInt64} : lsdb.topologyV2.Emits (.router a) (.network n) ↔
    (lsdb.Lists .v2 PolicyV2 (.router a) (.network n) ∧ lsdb.Lists .v2 PolicyV2 (.network n) (.router a)) ∧
      lsdb.Selected (.router a) (.network n) := by
  have hlists := lsdb.lists_V2 a n
  rw [SpfTopology.emits_router_network]
  constructor
  · rintro ⟨l, hl, htype, attached, hnet, hmem⟩
    obtain ⟨e, hwins, hlsId, rfl, rfl⟩ := lsdb.network_V2.1 hnet
    have he := (NetIndex.mem_of_leads hwins.leads).1
    exact ⟨⟨hlists.2 ⟨l, hl, htype, leadsTo_V2.2 hlsId⟩, e, he, rfl, hmem⟩, e, hwins, rfl⟩
  · rintro ⟨⟨hto, e, he, hid, hmem⟩, e', hwins, hid'⟩
    obtain rfl := lsdb.networks_inj he (NetIndex.mem_of_leads hwins.leads).1 (hid.trans hid'.symm)
    obtain ⟨l, hl, htype, hleads⟩ := hlists.1 hto
    subst hid
    exact ⟨l, hl, htype, e.lsa, lsdb.network_V2.2 ⟨e, hwins, leadsTo_V2.1 hleads, rfl, rfl⟩, hmem⟩

theorem emits_V2 (v w : Vertex) : lsdb.topologyV2.Emits v w ↔
    (lsdb.Lists .v2 PolicyV2 v w ∧ lsdb.Lists .v2 PolicyV2 w v) ∧ lsdb.Selected v w := by
  cases v with
  | router a =>
    cases w with
    | router b =>
      rw [SpfTopology.emits_router_router, lsdb.p2p_V2, lsdb.p2p_V2]
      exact (and_iff_left trivial).symm
    | network n => exact lsdb.emits_V2_network
  | network n =>
    rw [SpfTopology.emits_network]
    constructor
    · rintro ⟨a, rfl, ⟨attached, hnet, hmem⟩, hlink⟩
      obtain ⟨e, hleads, hid, rfl⟩ := lsdb.buildIndex_netV2.1 hnet
      have hto := (lsdb.lists_V2 a n).2
        (SpfTopology.transitTo_iff.1 hlink)
      exact ⟨⟨⟨e, (NetIndex.mem_of_leads hleads).1, hid, hmem⟩, hto⟩, e, hleads, hid⟩
    · rintro ⟨⟨hfrom, hto⟩, e', hleads, hid'⟩
      cases w with
      | network m => exact absurd hto id
      | router a =>
        obtain ⟨e, he, hid, hmem⟩ := hfrom
        obtain rfl := lsdb.networks_inj he (NetIndex.mem_of_leads hleads).1 (hid.trans hid'.symm)
        have hlink := (lsdb.lists_V2 a n).1 hto
        exact ⟨a, rfl, ⟨e.lsa, lsdb.buildIndex_netV2.2 ⟨e, hleads, hid, rfl⟩, hmem⟩,
          SpfTopology.transitTo_iff.2 hlink⟩

end V2

/-! ## OSPFv3 -/

section V3
variable (lsdb : AreaLsdb RouterLinkV3)

theorem p2p_V3 (a b : UInt32) : lsdb.topologyV3.p2pTo (lsdb.topologyV3.links a) b ↔
    lsdb.Lists .v3 PolicyV3 (.router a) (.router b) := lsdb.p2pTo_links rfl

theorem lists_V3 (a : UInt32) (n : UInt64) : lsdb.Lists .v3 PolicyV3 (.router a) (.network n) ↔
    ∃ l ∈ lsdb.topologyV3.links a, PolicyV3.type l = LINK_TRANSIT ∧ PolicyV3.leadsTo l n = true :=
  @lists_network _ lsdb .v3 lsdb.topologyV3 rfl a n

theorem emits_V3_network {a : UInt32} {n : UInt64} : lsdb.topologyV3.Emits (.router a) (.network n) ↔
    lsdb.Lists .v3 PolicyV3 (.router a) (.network n) ∧ lsdb.Lists .v3 PolicyV3 (.network n) (.router a) := by
  have hlists := lsdb.lists_V3 a n
  rw [SpfTopology.emits_router_network]
  constructor
  · rintro ⟨l, hl, htype, attached, hnet, hmem⟩
    obtain ⟨lsa, hlsa, hpair⟩ := Option.map_eq_some_iff.1 hnet
    obtain ⟨hid, rfl⟩ := Prod.mk.inj hpair
    obtain ⟨e, he, hvertex, rfl⟩ := lsdb.buildIndex_netV3.1 hlsa
    exact ⟨hlists.2 ⟨l, hl, htype, decide_eq_true hid⟩, e, he, hvertex.trans hid, hmem⟩
  · rintro ⟨hto, e, he, hid, hmem⟩
    obtain ⟨l, hl, htype, hleads⟩ := hlists.1 hto
    have hl' : packNetwork l.neighborRouterId l.neighborInterfaceId = n := of_decide_eq_true hleads
    have hlsa := lsdb.buildIndex_netV3.2 ⟨e, he, hid.trans hl'.symm, rfl⟩
    exact ⟨l, hl, htype, e.lsa, Option.map_eq_some_iff.2 ⟨e.lsa, hlsa, by rw [hl']⟩, hmem⟩

theorem emits_V3 (v w : Vertex) : lsdb.topologyV3.Emits v w ↔
    lsdb.Lists .v3 PolicyV3 v w ∧ lsdb.Lists .v3 PolicyV3 w v := by
  cases v with
  | router a =>
    cases w with
    | router b =>
      rw [SpfTopology.emits_router_router, lsdb.p2p_V3, lsdb.p2p_V3]
    | network n => exact lsdb.emits_V3_network
  | network n =>
    rw [SpfTopology.emits_network]
    constructor
    · rintro ⟨a, rfl, ⟨attached, hnet, hmem⟩, hlink⟩
      obtain ⟨e, he, hid, rfl⟩ := lsdb.buildIndex_netV3.1 hnet
      have hto := (lsdb.lists_V3 a n).2
        (SpfTopology.transitTo_iff.1 hlink)
      exact ⟨⟨e, he, hid, hmem⟩, hto⟩
    · rintro ⟨hfrom, hto⟩
      cases w with
      | network m => exact absurd hto id
      | router a =>
        obtain ⟨e, he, hid, hmem⟩ := hfrom
        have hlink := (lsdb.lists_V3 a n).1 hto
        exact ⟨a, rfl, ⟨e.lsa, lsdb.buildIndex_netV3.2 ⟨e, he, hid, rfl⟩, hmem⟩,
          SpfTopology.transitTo_iff.2 hlink⟩

end V3

/-- **The check for the link back.**  In OSPFv3 there is an edge exactly where the LSAs of both ends
    list each other; in OSPFv2 the LSA of the network has to be selected too. -/
theorem bidirectional :
    (∀ lsdb : AreaLsdb RouterLinkV2,
      ChecksBacklinks lsdb.topologyV2 (lsdb.Lists .v2 PolicyV2) lsdb.Selected) ∧
    ∀ lsdb : AreaLsdb RouterLinkV3,
      ChecksBacklinks lsdb.topologyV3 (lsdb.Lists .v3 PolicyV3) fun _ _ => True := by
  refine ⟨fun lsdb => ⟨fun vs => ?_, lsdb.emits_V2⟩, fun lsdb => ⟨fun vs => ?_, fun v w => ?_⟩⟩
  · exact SpfTopology.expandAll_eq lsdb.topologyV2.cacheValid_nil vs
  · exact SpfTopology.expandAll_eq lsdb.topologyV3.cacheValid_nil vs
  · rw [lsdb.emits_V3, and_iff_left trivial]

/-- Router 1 has a link to a network with an LSA of router 2 and one of router 3, which both list it. -/
def twoDesignated : AreaLsdb RouterLinkV2 where
  records := [
    (⟨⟨1, 1⟩, 1⟩, ⟨0, 0, {}, .router [⟨10, 0, LINK_TRANSIT, 1⟩], 0, 0, 0⟩),
    (⟨⟨2, 2⟩, 10⟩, ⟨0, 0, {}, .network [1], 0, 0, 0⟩),
    (⟨⟨2, 3⟩, 10⟩, ⟨0, 0, {}, .network [1], 0, 0, 0⟩)]
  nodup := by decide
  routerType := 1
  networkType := 2
  router_type := by simp
  network_type := by simp

theorem twoDesignated_not_bidirectional : ¬ ((∀ lsdb : AreaLsdb RouterLinkV2,
      ChecksBacklinks lsdb.topologyV2 (lsdb.Lists .v2 PolicyV2) fun _ _ => True) ∧
    ∀ lsdb : AreaLsdb RouterLinkV3,
      ChecksBacklinks lsdb.topologyV3 (lsdb.Lists .v3 PolicyV3) fun _ _ => True) := by
  rintro ⟨h, -⟩
  have hno : ¬ twoDesignated.topologyV2.Emits (.router 1) (.network (packNetwork 3 10)) := by
    rw [SpfTopology.Emits]
    decide
  refine hno (((h twoDesignated).2 _ _).2 ⟨⟨?_, ?_⟩, trivial⟩)
  · exact ⟨⟨1, [⟨10, 0, LINK_TRANSIT, 1⟩]⟩, by decide, rfl, ⟨10, 0, LINK_TRANSIT, 1⟩, by decide, rfl, by decide⟩
  · exact ⟨⟨⟨⟨2, 3⟩, 10⟩, {}, [1]⟩, by decide, rfl, by decide⟩

end AreaLsdb

end VirtualRouter.Ospf
