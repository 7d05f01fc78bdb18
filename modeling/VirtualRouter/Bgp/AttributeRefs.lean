/-
  The references to path attributes that the route objects hold
  (`rib/RibTypes.hpp`, `af/AddressFamilyInstance.h`).

  A `RouteBase` owns one reference of the attribute manager: its constructor
  takes over a reference that the caller has counted, a move hands it on, and
  the destructor releases it.  `RouteRefs` is the manager with the route objects
  of the tables, each with the id it holds, and the table of the routes before
  the policy.  The handlers below are those of `AddressFamilyInstance` as far as
  they make, move or destroy routes.  What they are given by the rest of the
  instance is part of the event: the ingress policy, and for the recomputation
  of a prefix towards a peer the paths with their attributes after the egress
  policy.  So one event of the process is here its own edit of Adj-RIB-In
  followed by an `advertise` or a `withdraw` for each peer and prefix that is
  recomputed.

  The policy reads the attributes of a route back from the manager, and nothing
  but them tells the prefixes of one UPDATE apart.  After a rejected prefix the
  entry may be out of use; it still has its values, and with the assertions of
  `get` switched on the process would stop there.

  * `Accounted`: every count is the number of routes that hold the id, and an
    attribute set in use belongs to a route;
  * `Counts`: the manager counts a given list of ids;
  * `accounted_iff`: the counts are right in every state of a run iff each UPDATE
    that brings attributes announces a prefix.
-/
import VirtualRouter.Bgp.AttributeManagerRun
import VirtualRouter.Bgp.AddressFamily
import VirtualRouter.Bgp.UpdateNlri

namespace VirtualRouter.Bgp

open AttributeManager Run

/-! ## Routes -/

/-- Where a route object is: in the table of a peer, among the network routes, or in the table of
    what a peer was sent. -/
inductive RouteSlot (ν : Type) where
  | inbound (key : InKey ν)
  | network (nlri : ν)
  | outbound (key : InKey ν)
  deriving DecidableEq, Repr

def RouteSlot.peer {ν : Type} : RouteSlot ν → Option UInt32
  | inbound key => some key.peer
  | network _ => none
  | outbound key => some key.peer

structure RouteRefs (ν : Type) where
  attrMgr : AttributeManager Attributes Path := .empty Attributes Path
  routes : List (RouteSlot ν × UInt32) := []
  preAdjRibIn : UInt32 → Option (Table (NlriPath ν) PathAttribute) := fun _ => none

variable {ν : Type} [DecidableEq ν]

namespace RouteRefs

variable (o : Oracle ν) (s : RouteRefs ν)

def acquire (pa : PathAttribute) : UInt32 × RouteRefs ν :=
  ((s.attrMgr.acquire pa.attrs pa.path).1,
    { s with attrMgr := (s.attrMgr.acquire pa.attrs pa.path).2 })

def retain (id : UInt32) : RouteRefs ν := { s with attrMgr := (s.attrMgr.retain id).2 }

/-- `attrMgr.release`, also by the destructor of a route that is in no table. -/
def release (id : UInt32) : RouteRefs ν := { s with attrMgr := s.attrMgr.release id }

/-- A route that owns a reference to `id` is moved into a table. -/
def emplace (slot : RouteSlot ν) (id : UInt32) : RouteRefs ν :=
  { s with routes := (slot, id) :: s.routes }

def read (id : UInt32) : PathAttribute := ⟨(s.attrMgr.get id).1, (s.attrMgr.get id).2⟩

/-- The route at `slot`. -/
def find (slot : RouteSlot ν) : Option UInt32 := (s.routes.find? fun r => r.1 = slot).map (·.2)

/-- `erase` of the route at `slot`, if there is one. -/
def erase (slot : RouteSlot ν) : RouteRefs ν :=
  match s.find slot with
  | none => s
  | some id => { s.release id with routes := s.routes.eraseP fun r => r.1 = slot }

/-- The routes whose slots satisfy `p` are destroyed. -/
def eraseAll (p : RouteSlot ν → Bool) : RouteRefs ν where
  attrMgr := (o.order (s.routes.filter fun r => p r.1)).foldl (fun m r => m.release r.2) s.attrMgr
  routes := s.routes.filter fun r => !p r.1
  preAdjRibIn := s.preAdjRibIn

/-- A route takes the place of the one at `slot`. -/
def replace (slot : RouteSlot ν) (id : UInt32) : RouteRefs ν := (s.erase slot).emplace slot id

/-! ## Ingest -/

section
variable (rid : UInt32) (softReconfig : Bool)

def withdrawPath (n : NlriPath ν) : RouteRefs ν :=
  let s := s.erase (.inbound ⟨rid, n⟩)
  if softReconfig then
    { s with
      preAdjRibIn := Function.update s.preAdjRibIn rid ((s.preAdjRibIn rid).map (·.erase n)) }
  else s

/-- The copies of the announced prefixes before the policy. -/
def storePre (ns : List (NlriPath ν)) (pa : PathAttribute) : RouteRefs ν :=
  if softReconfig then
    { s with
      preAdjRibIn := Function.update s.preAdjRibIn rid
        (some (ns.foldl (fun t n => t.insert n pa) ((s.preAdjRibIn rid).getD ∅))) }
  else s

/-- A route made with a reference to `pid`: destroyed if the policy rejects it, else put in place of
    the route before. -/
def installIn (rejects : PathAttribute → Bool) (pid : UInt32) (n : NlriPath ν) : RouteRefs ν :=
  if rejects (s.read pid) then s.release pid else s.replace (.inbound ⟨rid, n⟩) pid

/-- The announcements of an UPDATE; the first one owns the reference that was acquired. -/
def announceAll (rejects : PathAttribute → Bool) (pid : UInt32) :
    Bool → RouteRefs ν → List (NlriPath ν) → RouteRefs ν
  | _, s, [] => s
  | first, s, n :: ns =>
    let s := if first then s else s.retain pid
    announceAll rejects pid false (s.installIn rid rejects pid n) ns

/-- `onParsedUpdateFromPeer`, up to the recomputation. -/
def onParsedUpdateFromPeer (rejects : PathAttribute → Bool) (update : ParsedUpdate ν) : RouteRefs ν :=
  let s := update.withdrawn.foldl (fun s n => s.withdrawPath rid softReconfig n) s
  match update.attrs with
  | none => s
  | some pa =>
    let r := s.acquire pa
    announceAll rid rejects r.1 true (r.2.storePre rid softReconfig update.announcements pa)
      update.announcements

/-- `softClearInbound`, up to the recomputation. -/
def softClearInbound (rejects : NlriPath ν → PathAttribute → Bool) : RouteRefs ν :=
  match s.preAdjRibIn rid with
  | none => s
  | some pre =>
    let s := s.eraseAll o fun slot => slot matches .inbound _ && slot.peer = some rid
    (o.order pre.entries).foldl (fun s e =>
      let r := s.acquire e.2
      r.2.installIn rid (rejects e.1) r.1 e.1) s

end

/-- `purgeStalePeer`, up to the recomputation. -/
def purgeStalePeer (rid : UInt32) (stale : List ν) : RouteRefs ν :=
  s.eraseAll o fun slot =>
    match slot with
    | .inbound key => key.peer = rid && key.path.nlri ∈ stale
    | _ => false

/-- `invalidatePeer`, up to the recomputation. -/
def invalidatePeer (rid : UInt32) : RouteRefs ν :=
  let s := { s with preAdjRibIn := Function.update s.preAdjRibIn rid none }
  let s := s.eraseAll o fun slot => slot matches .outbound _ && slot.peer = some rid
  s.eraseAll o fun slot => slot matches .inbound _ && slot.peer = some rid

/-- `onNetworkRibChanged`, up to the recomputation; `pa` are the attributes of a network route. -/
def onNetworkRibChanged (nlri : ν) (reachable : Bool) (pa : PathAttribute) : RouteRefs ν :=
  if reachable then
    let r := s.acquire pa
    r.2.replace (.network nlri) r.1
  else s.erase (.network nlri)

/-! ## Egress -/

def isSent (rid : UInt32) (nlri : ν) : RouteSlot ν → Bool
  | .outbound key => key.peer = rid && key.path.nlri = nlri
  | _ => false

def withdrawFromPeer (rid : UInt32) (nlri : ν) : RouteRefs ν := s.eraseAll o (isSent rid nlri)

/-- A path to advertise, with its path id and its attributes: an entry with the same attribute id is
    left as it is. -/
def advertisePath (rid : UInt32) (nlri : ν) (s : RouteRefs ν) (path : UInt32 × PathAttribute) :
    RouteRefs ν :=
  let r := s.acquire path.2
  let slot : RouteSlot ν := .outbound ⟨rid, nlri, path.1⟩
  if r.2.find slot = some r.1 then r.2.release r.1 else r.2.replace slot r.1

/-- The slots of a prefix in what a peer was sent, whose path is not active. -/
def isInactive (rid : UInt32) (nlri : ν) (active : UInt32 → Bool) : RouteSlot ν → Bool
  | .outbound key => key.peer = rid && key.path.nlri = nlri && !active key.path.pathId
  | _ => false

/-- `recomputeAdjRibOut` for one peer, where it does not withdraw: with ADD-PATH the entries that are
    not `active` are removed, and then the paths are advertised. -/
def advertise (rid : UInt32) (nlri : ν) (active : Option (UInt32 → Bool))
    (paths : List (UInt32 × PathAttribute)) : RouteRefs ν :=
  let s := match active with
    | none => s
    | some active => s.eraseAll o (isInactive rid nlri active)
  paths.foldl (advertisePath rid nlri) s

end RouteRefs

/-! ## Events -/

inductive RefEvent (ν : Type) where
  | update (rid : UInt32) (softReconfig : Bool) (rejects : PathAttribute → Bool)
      (update : ParsedUpdate ν)
  | softClear (rid : UInt32) (rejects : NlriPath ν → PathAttribute → Bool)
  | purgeStale (rid : UInt32) (stale : List ν)
  | peerLost (rid : UInt32)
  | networkRibChanged (nlri : ν) (reachable : Bool) (pa : PathAttribute)
  | withdraw (rid : UInt32) (nlri : ν)
  | advertise (rid : UInt32) (nlri : ν) (active : Option (UInt32 → Bool))
      (paths : List (UInt32 × PathAttribute))

namespace RouteRefs

/-- The handler of an event, with the order in which it finds the hash tables. -/
def step (s : RouteRefs ν) (i : Oracle ν × RefEvent ν) : RouteRefs ν :=
  match i.2 with
  | .update rid softReconfig rejects u => s.onParsedUpdateFromPeer rid softReconfig rejects u
  | .softClear rid rejects => s.softClearInbound i.1 rid rejects
  | .purgeStale rid stale => s.purgeStalePeer i.1 rid stale
  | .peerLost rid => s.invalidatePeer i.1 rid
  | .networkRibChanged nlri reachable pa => s.onNetworkRibChanged nlri reachable pa
  | .withdraw rid nlri => s.withdrawFromPeer i.1 rid nlri
  | .advertise rid nlri active paths => s.advertise i.1 rid nlri active paths

def takes (s : RouteRefs ν) : RefEvent ν → ℕ
  | .update _ _ _ u => 1 + u.announcements.length
  | .softClear rid _ => ((s.preAdjRibIn rid).getD ∅).entries.length
  | .networkRibChanged _ _ _ => 1
  | .advertise _ _ _ paths => paths.length
  | _ => 0

/-- The routes, with those that the event makes, fit the 32 bits of a count and of an id. -/
def Fits (s : RouteRefs ν) (i : Oracle ν × RefEvent ν) : Prop :=
  s.routes.length + s.takes i.2 + 1 < 2 ^ 32

def Announces (_ : RouteRefs ν) (i : Oracle ν × RefEvent ν) : Prop :=
  match i.2 with
  | .update _ _ _ u => u.attrs.isSome → u.announcements ≠ []
  | _ => True

def refCount (s : RouteRefs ν) (id : UInt32) : ℕ :=
  if (s.attrMgr.idToPath id).used then (s.attrMgr.idToPath id).refCount.toNat else 0

def holders (s : RouteRefs ν) (id : UInt32) : ℕ := s.routes.countP fun r => r.2 = id

/-- Every reference is that of a route. -/
structure Accounted (s : RouteRefs ν) : Prop where
  count : ∀ id, s.refCount id = s.holders id
  retained : ∀ k, (s.attrMgr.idToAttr k).used = true →
    ∃ r ∈ s.routes, (s.attrMgr.idToPath r.2).attrId = k

end RouteRefs

/-! ## Counting -/

namespace AttributeManager

variable {m m' : AttributeManager Attributes Path} {ids ids' : List UInt32} {id : UInt32}

/-- The manager counts the references to the ids of a list, and no others. -/
def Counts (m : AttributeManager Attributes Path) (ids : List UInt32) : Prop :=
  ∃ held, Inv m held ∧ (held.map (·.id)).Perm ids

theorem refsIn_eq_count (held : List (AttrRef Attributes Path)) (id : UInt32) :
    refsIn held id = (held.map (·.id)).count id := by
  rw [refsIn, List.count, List.countP_map]
  exact List.countP_congr fun r _ => by simp

theorem Counts.perm (h : Counts m ids) (hp : ids.Perm ids') : Counts m ids' := by
  obtain ⟨held, hinv, hperm⟩ := h
  exact ⟨held, hinv, hperm.trans hp⟩

theorem exists_two_fresh (h : ids.length + 1 < 2 ^ 32) :
    ∃ i j, i ≠ j ∧ i ∉ ids ∧ j ∉ ids := by
  set t : Set UInt32 := {i | i ∈ ids} with ht
  have hle : t.ncard ≤ ids.length := by
    have hcoe : t = (ids.toFinset : Set UInt32) := by
      ext i
      simp [ht]
    rw [hcoe, Set.ncard_coe_finset]
    exact List.toFinset_card_le ids
  have hadd := Set.ncard_add_ncard_compl t (Set.toFinite t) (Set.toFinite tᶜ)
  rw [card_ids] at hadd
  obtain ⟨i, j, hi, hj, hne⟩ := (Set.one_lt_ncard_iff (Set.toFinite tᶜ)).1 (by omega)
  exact ⟨i, j, hne, hi, hj⟩

theorem Counts.acquire (h : Counts m ids) (pa : PathAttribute) (hroom : ids.length + 1 < 2 ^ 32) :
    Counts (m.acquire pa.attrs pa.path).2 ((m.acquire pa.attrs pa.path).1 :: ids) := by
  obtain ⟨held, hinv, hperm⟩ := h
  have hrefs (id : UInt32) : refsIn held id = ids.count id := by
    rw [refsIn_eq_count, hperm.count_eq]
  refine ⟨_, hinv.acquire pa.attrs pa.path ?_ ?_, hperm.cons _⟩
  · intro r _ _ _
    have hle := List.count_le_length (a := r.id) (l := ids)
    rw [hrefs]
    omega
  · intro _
    obtain ⟨i, j, hne, hi, hj⟩ := exists_two_fresh hroom
    exact ⟨i, j, hne, by rw [hrefs, List.count_eq_zero_of_not_mem hi],
      by rw [hrefs, List.count_eq_zero_of_not_mem hj]⟩

theorem Counts.used_iff (h : Counts m ids) : (m.idToPath id).used = true ↔ id ∈ ids := by
  obtain ⟨held, hinv, hperm⟩ := h
  have hrefs : refsIn held id = ids.count id := by
    rw [refsIn_eq_count, hperm.count_eq]
  rw [← List.count_pos_iff, ← hrefs]
  constructor
  · exact fun hu => (hinv.holds.live id hu).2
  · intro hpos
    by_contra hno
    have hidle := hinv.holds.idle id (Bool.eq_false_iff.2 hno)
    omega

theorem Counts.count_eq (h : Counts m ids) :
    (if (m.idToPath id).used then (m.idToPath id).refCount.toNat else 0) = ids.count id := by
  split_ifs with hu
  · obtain ⟨held, hinv, hperm⟩ := h
    rw [(hinv.holds.live id hu).1, refsIn_eq_count, hperm.count_eq]
  · rw [h.used_iff] at hu
    exact (List.count_eq_zero_of_not_mem hu).symm

theorem Counts.retained (h : Counts m ids) {k : UInt32} (hk : (m.idToAttr k).used = true) :
    ∃ id ∈ ids, (m.idToPath id).attrId = k := by
  obtain ⟨held, hinv, hperm⟩ := h
  obtain ⟨id, hu, hid⟩ := hinv.attr_live k hk
  exact ⟨id, (Counts.used_iff ⟨held, hinv, hperm⟩).1 hu, hid⟩

theorem Counts.retain (h : Counts m ids) (hid : id ∈ ids) (hroom : ids.length + 1 < 2 ^ 32) :
    Counts (m.retain id).2 (id :: ids) := by
  have hu := h.used_iff.2 hid
  obtain ⟨held, hinv, hperm⟩ := h
  have hlt : ¬ id.toNat ≥ m.pathIds.count := not_le.2 (hinv.shape.pathIds.lt_count id hu)
  have hle := List.count_le_length (a := id) (l := ids)
  have hcount : refsIn held id + 1 < 2 ^ 32 := by
    rw [refsIn_eq_count, hperm.count_eq]
    omega
  have hretain := hinv.retain id hcount
  have hret : (m.retain id).1 = true := by
    simp only [AttributeManager.retain, hlt, if_false, hu, Bool.true_eq_false]
  rw [if_pos hret] at hretain
  obtain ⟨r, hr, hrid⟩ := List.countP_pos_iff.1 (hinv.holds.live id hu).2
  obtain ⟨r', hr'⟩ : ∃ r', held.find? (fun r => r.id = id) = some r' :=
    Option.isSome_iff_exists.1 (List.find?_isSome.2 ⟨r, hr, hrid⟩)
  have hid' : r'.id = id := of_decide_eq_true (List.find?_some hr' :)
  rw [hr'] at hretain
  refine ⟨_, hretain, ?_⟩
  rw [Option.toList_some, List.singleton_append, List.map_cons, hid']
  exact hperm.cons id

theorem Counts.release (h : Counts m (id :: ids)) : Counts (m.release id) ids := by
  obtain ⟨held, hinv, hperm⟩ := h
  have hpos : 0 < refsIn held id := by
    rw [refsIn_eq_count, hperm.count_eq, List.count_cons_self]
    omega
  refine ⟨_, hinv.release hpos, ?_⟩
  rw [List.perm_iff_count]
  intro i
  rw [← refsIn_eq_count, refsIn_eraseP, refsIn_eq_count, hperm.count_eq, List.count_cons]
  by_cases hi : i = id
  · simp [hi]
  · simp [hi, Ne.symm hi]

theorem get_retain (m : AttributeManager Attributes Path) (id i : UInt32) :
    (m.retain id).2.get i = m.get i := by
  simp only [AttributeManager.retain]
  split_ifs
  · rfl
  · rfl
  · by_cases hi : i = id
    · subst hi
      simp [AttributeManager.get, setRefCount]
    · simp [AttributeManager.get, setRefCount, Function.update_of_ne hi]

theorem attrs_releaseAttr (m : AttributeManager Attributes Path) (k k' : UInt32) :
    ((m.releaseAttr k).idToAttr k').attrs = (m.idToAttr k').attrs ∧
      (m.releaseAttr k).idToPath = m.idToPath := by
  have hupdate (e : AttrEntry Attributes) (he : e.attrs = (m.idToAttr k).attrs) :
      (Function.update m.idToAttr k e k').attrs = (m.idToAttr k').attrs := by
    by_cases hk : k' = k
    · rw [hk, Function.update_self, he]
    · rw [Function.update_of_ne hk]
  simp only [releaseAttr]
  split_ifs
  · exact ⟨rfl, rfl⟩
  · exact ⟨rfl, rfl⟩
  · exact ⟨rfl, rfl⟩
  · exact ⟨hupdate _ rfl, rfl⟩
  · exact ⟨hupdate _ rfl, rfl⟩

theorem get_release (m : AttributeManager Attributes Path) (id i : UInt32) :
    (m.release id).get i = m.get i := by
  have hupdate (m' : AttributeManager Attributes Path) (e : PathEntry Path)
      (hpaths : m'.idToPath = Function.update m.idToPath id e)
      (hattrs : ∀ k, (m'.idToAttr k).attrs = (m.idToAttr k).attrs)
      (hpath : e.path = (m.idToPath id).path) (hid : e.attrId = (m.idToPath id).attrId) :
      m'.get i = m.get i := by
    rw [AttributeManager.get, AttributeManager.get, hattrs, hpaths]
    by_cases hi : i = id
    · rw [hi, Function.update_self, hpath, hid]
    · rw [Function.update_of_ne hi]
  simp only [AttributeManager.release]
  split_ifs
  · rfl
  · rfl
  · rfl
  · exact hupdate _ _ rfl (fun _ => rfl) rfl rfl
  · have hpaths : (m.dropPath id).idToPath = Function.update m.idToPath id
        { m.idToPath id with refCount := (m.idToPath id).refCount - 1, used := false } := by
      simp only [dropPath, (attrs_releaseAttr _ _ 0).2]
    exact hupdate _ _ hpaths (fun k => (attrs_releaseAttr _ _ k).1) rfl rfl

end AttributeManager

namespace RouteRefs

variable (o : Oracle ν) {s : RouteRefs ν} {extra : List UInt32} {id : UInt32}

/-- The manager counts the routes of the tables and the references `extra`, which the handler at work
    owns. -/
def Owed (extra : List UInt32) (s : RouteRefs ν) : Prop :=
  Counts s.attrMgr (extra ++ s.routes.map (·.2))

section
omit [DecidableEq ν]

@[simp] theorem read_release (s : RouteRefs ν) (id i : UInt32) : (s.release id).read i = s.read i := by
  simp only [read, release, get_release]

@[simp] theorem read_retain (s : RouteRefs ν) (id i : UInt32) : (s.retain id).read i = s.read i := by
  simp only [read, retain, get_retain]

theorem Owed.acquire (h : Owed extra s) (pa : PathAttribute)
    (hroom : extra.length + s.routes.length + 1 < 2 ^ 32) :
    Owed ((s.acquire pa).1 :: extra) (s.acquire pa).2 :=
  Counts.acquire h pa (by simpa using hroom)

theorem Owed.release (h : Owed (id :: extra) s) : Owed extra (s.release id) := Counts.release h

theorem Owed.emplace (h : Owed (id :: extra) s) (slot : RouteSlot ν) :
    Owed extra (s.emplace slot id) :=
  Counts.perm h List.perm_middle.symm

theorem Owed.retain (h : Owed extra s) (hid : id ∈ s.routes.map (·.2))
    (hroom : extra.length + s.routes.length + 1 < 2 ^ 32) : Owed (id :: extra) (s.retain id) := by
  have hlen : (extra ++ s.routes.map (·.2)).length + 1 < 2 ^ 32 := by simpa using hroom
  exact Counts.retain h (List.mem_append_right _ hid) hlen

end

theorem find_eq_some {slot : RouteSlot ν} (h : s.find slot = some id) :
    ∃ rest, s.routes.Perm ((slot, id) :: rest) ∧ s.routes.eraseP (fun r => r.1 = slot) = rest := by
  obtain ⟨r, hr, rfl⟩ := Option.map_eq_some_iff.1 h
  obtain rfl : r.1 = slot := of_decide_eq_true (List.find?_some hr :)
  obtain ⟨r', l₁, l₂, hno, hr', hroutes, herase⟩ :=
    List.exists_of_eraseP (List.mem_of_find?_eq_some hr) (p := fun x => x.1 = r.1) (by simp)
  refine ⟨_, ?_, rfl⟩
  have hfirst : r' = r := by
    rw [hroutes, List.find?_append, List.find?_eq_none.2 fun x hx => by simpa using hno x hx] at hr
    simpa [hr'] using hr
  rw [herase, hroutes, hfirst]
  exact List.perm_middle

theorem Owed.erase (h : Owed extra s) (slot : RouteSlot ν) :
    Owed extra (s.erase slot) ∧ (s.erase slot).routes.length ≤ s.routes.length := by
  unfold RouteRefs.erase
  cases hfind : s.find slot with
  | none => exact ⟨h, le_rfl⟩
  | some id =>
    obtain ⟨rest, hperm, herase⟩ := find_eq_some hfind
    have hids : (extra ++ s.routes.map (·.2)).Perm (id :: (extra ++ rest.map (·.2))) :=
      ((hperm.map (·.2)).append_left extra).trans List.perm_middle
    simp only [herase]
    refine ⟨Counts.release (Counts.perm h hids), ?_⟩
    have hlen := hperm.length_eq
    rw [List.length_cons] at hlen
    omega

omit [DecidableEq ν] in
theorem counts_foldl_release (l : List (RouteSlot ν × UInt32)) {ids : List UInt32}
    {m : AttributeManager Attributes Path} (h : Counts m (l.map (·.2) ++ ids)) :
    Counts (l.foldl (fun m r => m.release r.2) m) ids := by
  induction l generalizing m with
  | nil => exact h
  | cons r l ih => exact ih (Counts.release h)

omit [DecidableEq ν] in
theorem Owed.eraseAll (h : Owed extra s) (p : RouteSlot ν → Bool) :
    Owed extra (s.eraseAll o p) ∧ (s.eraseAll o p).routes.length ≤ s.routes.length := by
  refine ⟨counts_foldl_release _ (Counts.perm h ?_), List.length_filter_le _ _⟩
  have hsplit : s.routes.Perm (o.order (s.routes.filter fun r => p r.1) ++
      s.routes.filter fun r => !p r.1) :=
    (List.filter_append_perm _ s.routes).symm.trans ((o.order_perm _).symm.append_right _)
  have hids := hsplit.map (·.2)
  rw [List.map_append] at hids
  refine (hids.append_left extra).trans ?_
  rw [← List.append_assoc, ← List.append_assoc]
  exact List.perm_append_comm.append_right _

theorem Owed.replace (h : Owed (id :: extra) s) (slot : RouteSlot ν) :
    Owed extra (s.replace slot id) ∧ (s.replace slot id).routes.length ≤ s.routes.length + 1 := by
  obtain ⟨hold, hlen⟩ := h.erase slot
  exact ⟨hold.emplace slot, Nat.succ_le_succ hlen⟩

theorem read_erase (s : RouteRefs ν) (slot : RouteSlot ν) (i : UInt32) :
    (s.erase slot).read i = s.read i := by
  unfold erase
  split
  · rfl
  · exact read_release s _ i

/-! ### Ingest -/

section Ingest
variable {rid : UInt32}

theorem Owed.withdrawPath (rid : UInt32) (softReconfig : Bool) (h : Owed extra s) (n : NlriPath ν) :
    Owed extra (s.withdrawPath rid softReconfig n) ∧
      (s.withdrawPath rid softReconfig n).routes.length ≤ s.routes.length := by
  have herase := h.erase (.inbound ⟨rid, n⟩)
  simp only [RouteRefs.withdrawPath]
  split
  · exact herase
  · exact herase

theorem Owed.withdrawAll (rid : UInt32) (softReconfig : Bool) (h : Owed extra s) (ws : List (NlriPath ν)) :
    Owed extra (ws.foldl (fun s n => s.withdrawPath rid softReconfig n) s) ∧
      (ws.foldl (fun s n => s.withdrawPath rid softReconfig n) s).routes.length ≤ s.routes.length := by
  induction ws generalizing s with
  | nil => exact ⟨h, le_rfl⟩
  | cons n ws ih =>
    obtain ⟨hstep, hlen⟩ := h.withdrawPath rid softReconfig n
    obtain ⟨hrest, hlen'⟩ := ih hstep
    exact ⟨hrest, hlen'.trans hlen⟩

theorem Owed.installIn (rid : UInt32) (rejects : PathAttribute → Bool) (h : Owed (id :: extra) s)
    (n : NlriPath ν) :
    Owed extra (s.installIn rid rejects id n) ∧
      (s.installIn rid rejects id n).routes.length ≤ s.routes.length + 1 := by
  unfold RouteRefs.installIn
  split
  · exact ⟨h.release, Nat.le_succ _⟩
  · exact h.replace _

omit [DecidableEq ν] in
theorem release_retain_of_unused (h : (s.attrMgr.idToPath id).used = false) :
    (s.retain id).release id = s := by
  have hretain : s.attrMgr.retain id = (false, s.attrMgr) := by
    simp only [AttributeManager.retain, h, if_true, ite_self]
  have hrelease : s.attrMgr.release id = s.attrMgr := by
    simp only [AttributeManager.release, h, if_true, ite_self]
  rw [RouteRefs.retain, RouteRefs.release, hretain, hrelease]

theorem Owed.announceRejected {rejects : PathAttribute → Bool} (h : Owed [] s)
    (hpol : rejects (s.read id) = true) (hroom : s.routes.length + 1 < 2 ^ 32) (ns : List (NlriPath ν)) :
    Owed [] (announceAll rid rejects id false s ns) := by
  induction ns generalizing s with
  | nil => exact h
  | cons n ns ih =>
    have hstep : (s.retain id).installIn rid rejects id n = (s.retain id).release id := by
      rw [RouteRefs.installIn, read_retain, if_pos hpol]
    simp only [announceAll, Bool.false_eq_true, if_false, hstep]
    by_cases hid : id ∈ s.routes.map (·.2)
    · have hback : Owed [] ((s.retain id).release id) := (h.retain hid (by simpa using hroom)).release
      exact ih hback (by rw [read_release, read_retain, hpol]) hroom
    · have hunused : (s.attrMgr.idToPath id).used = false := by
        by_contra hu
        exact hid (h.used_iff.1 (Bool.not_eq_false _ ▸ hu))
      rw [release_retain_of_unused hunused]
      exact ih h hpol hroom

theorem Owed.announceAccepted {rejects : PathAttribute → Bool} (ns : List (NlriPath ν))
    (h : Owed [] s) (hpol : rejects (s.read id) = false) (hid : id ∈ s.routes.map (·.2))
    (hroom : s.routes.length + ns.length + 1 < 2 ^ 32) :
    Owed [] (announceAll rid rejects id false s ns) := by
  induction ns generalizing s with
  | nil => exact h
  | cons n ns ih =>
    rw [List.length_cons] at hroom
    have hretain : Owed [id] (s.retain id) := h.retain hid (by simp; omega)
    have hpol' : rejects ((s.retain id).read id) = false := by rw [read_retain, hpol]
    obtain ⟨hstep, hlen⟩ := hretain.replace (.inbound ⟨rid, n⟩)
    have hinstall : (s.retain id).installIn rid rejects id n =
        (s.retain id).replace (.inbound ⟨rid, n⟩) id := by
      rw [RouteRefs.installIn, hpol', if_neg Bool.false_ne_true]
    simp only [announceAll, Bool.false_eq_true, if_false, hinstall]
    have hlen' : ((s.retain id).replace (.inbound ⟨rid, n⟩) id).routes.length ≤ s.routes.length + 1 := hlen
    refine ih hstep ?_ (List.mem_cons_self) (by omega)
    exact (congrArg rejects (read_erase _ _ _)).trans hpol'

theorem Owed.announceAll {rejects : PathAttribute → Bool} {ns : List (NlriPath ν)}
    (h : Owed [id] s) (hne : ns ≠ []) (hroom : s.routes.length + ns.length + 1 < 2 ^ 32) :
    Owed [] (announceAll rid rejects id true s ns) := by
  obtain ⟨n, ns, rfl⟩ := List.exists_cons_of_ne_nil hne
  rw [List.length_cons] at hroom
  simp only [RouteRefs.announceAll, if_true]
  cases hpol : rejects (s.read id) with
  | true =>
    have hinstall : s.installIn rid rejects id n = s.release id := by
      rw [RouteRefs.installIn, hpol, if_pos rfl]
    rw [hinstall]
    have hlen : (s.release id).routes.length + 1 < 2 ^ 32 := by
      change s.routes.length + 1 < 2 ^ 32
      omega
    exact h.release.announceRejected (by rw [read_release, hpol]) hlen ns
  | false =>
    have hinstall : s.installIn rid rejects id n = s.replace (.inbound ⟨rid, n⟩) id := by
      rw [RouteRefs.installIn, hpol, if_neg Bool.false_ne_true]
    rw [hinstall]
    obtain ⟨hstep, hlen⟩ := h.replace (.inbound ⟨rid, n⟩)
    refine hstep.announceAccepted ns ?_ List.mem_cons_self (by omega)
    exact (congrArg rejects (read_erase _ _ _)).trans hpol

end Ingest

/-! ### Events -/

omit [DecidableEq ν] in
theorem holders_eq_count (s : RouteRefs ν) (id : UInt32) :
    s.holders id = (s.routes.map (·.2)).count id := by
  rw [holders, List.count, List.countP_map]
  exact List.countP_congr fun r _ => by simp

omit [DecidableEq ν] in
theorem Owed.accounted (h : Owed [] s) : Accounted s where
  count id := by
    rw [holders_eq_count]
    exact Counts.count_eq h
  retained k hk := by
    obtain ⟨id, hid, hattr⟩ := Counts.retained h hk
    obtain ⟨r, hr, rfl⟩ := List.mem_map.1 hid
    exact ⟨r, hr, hattr⟩

omit [DecidableEq ν] in
theorem Owed.not_accounted (h : Owed [id] s) : ¬ Accounted s := by
  intro hacc
  have hcount : s.refCount id = s.holders id + 1 := by
    rw [holders_eq_count, RouteRefs.refCount, Counts.count_eq h, List.singleton_append,
      List.count_cons_self]
  rw [hacc.count id] at hcount
  omega

theorem Owed.onParsedUpdateFromPeer {rid : UInt32} {softReconfig : Bool}
    {rejects : PathAttribute → Bool} {u : ParsedUpdate ν} (h : Owed [] s)
    (hfits : s.routes.length + (1 + u.announcements.length) + 1 < 2 ^ 32) :
    ((u.attrs.isSome → u.announcements ≠ []) →
      Owed [] (s.onParsedUpdateFromPeer rid softReconfig rejects u)) ∧
    (¬ (u.attrs.isSome → u.announcements ≠ []) →
      ∃ id, Owed [id] (s.onParsedUpdateFromPeer rid softReconfig rejects u)) := by
  obtain ⟨hw, hlen⟩ := h.withdrawAll rid softReconfig u.withdrawn
  unfold RouteRefs.onParsedUpdateFromPeer
  cases hattrs : u.attrs with
  | none => exact ⟨fun _ => hw, fun hno => absurd (fun h => by simp at h) hno⟩
  | some pa =>
    have hacq := hw.acquire pa (by simp; omega)
    -- the copies before the policy hold no reference
    have hpre : ∀ (t : RouteRefs ν) (ns : List (NlriPath ν)) (ex : List UInt32), Owed ex t →
        Owed ex (t.storePre rid softReconfig ns pa) ∧
          (t.storePre rid softReconfig ns pa).routes = t.routes := by
      intro t ns ex ht
      unfold storePre
      split
      · exact ⟨ht, rfl⟩
      · exact ⟨ht, rfl⟩
    obtain ⟨hstored, hroutes⟩ := hpre _ u.announcements _ hacq
    refine ⟨fun hne => ?_, fun hno => ?_⟩
    · refine hstored.announceAll (hne rfl) ?_
      rw [hroutes]
      change (u.withdrawn.foldl (fun s n => s.withdrawPath rid softReconfig n) s).routes.length +
        u.announcements.length + 1 < 2 ^ 32
      omega
    · have hnil : u.announcements = [] := by
        by_contra hne
        exact hno fun _ => hne
      rw [hnil] at hstored ⊢
      exact ⟨_, hstored⟩

theorem Owed.softClearInbound {rid : UInt32} {rejects : NlriPath ν → PathAttribute → Bool}
    (h : Owed [] s)
    (hfits : s.routes.length + ((s.preAdjRibIn rid).getD ∅).entries.length + 1 < 2 ^ 32) :
    Owed [] (s.softClearInbound o rid rejects) := by
  have hfold : ∀ (l : List ((_ : NlriPath ν) × PathAttribute)) (t : RouteRefs ν), Owed [] t →
      t.routes.length + l.length + 1 < 2 ^ 32 →
      Owed [] (l.foldl (fun s e => (s.acquire e.2).2.installIn rid (rejects e.1) (s.acquire e.2).1 e.1) t) := by
    intro l
    induction l with
    | nil => exact fun _ ht _ => ht
    | cons e l ih =>
      intro t ht hroom
      rw [List.length_cons] at hroom
      obtain ⟨hstep, hlen⟩ := (ht.acquire e.2 (by simp; omega)).installIn rid (rejects e.1) e.1
      have hroutes : (t.acquire e.2).2.routes.length = t.routes.length := rfl
      exact ih _ hstep (lt_of_le_of_lt (Nat.add_le_add_right (Nat.add_le_add_right hlen _) _) (by omega))
  unfold RouteRefs.softClearInbound
  cases hpre : s.preAdjRibIn rid with
  | none => exact h
  | some pre =>
    rw [hpre, Option.getD_some] at hfits
    obtain ⟨hclear, hlen⟩ := h.eraseAll o fun slot => slot matches .inbound _ && slot.peer = some rid
    refine hfold _ _ hclear ?_
    rw [(o.order_perm _).length_eq]
    omega

theorem Owed.advertisePath (rid : UInt32) (nlri : ν) (h : Owed [] s) (path : UInt32 × PathAttribute)
    (hroom : s.routes.length + 1 < 2 ^ 32) :
    Owed [] (advertisePath rid nlri s path) ∧
      (RouteRefs.advertisePath rid nlri s path).routes.length ≤ s.routes.length + 1 := by
  have hacq := h.acquire path.2 (by simpa using hroom)
  simp only [RouteRefs.advertisePath]
  split
  · exact ⟨hacq.release, Nat.le_succ _⟩
  · exact hacq.replace _

theorem Owed.advertise {rid : UInt32} {nlri : ν} {active : Option (UInt32 → Bool)}
    {paths : List (UInt32 × PathAttribute)} (h : Owed [] s)
    (hfits : s.routes.length + paths.length + 1 < 2 ^ 32) :
    Owed [] (s.advertise o rid nlri active paths) := by
  have hfold : ∀ (l : List (UInt32 × PathAttribute)) (t : RouteRefs ν), Owed [] t →
      t.routes.length + l.length + 1 < 2 ^ 32 →
      Owed [] (l.foldl (RouteRefs.advertisePath rid nlri) t) := by
    intro l
    induction l with
    | nil => exact fun _ ht _ => ht
    | cons path l ih =>
      intro t ht hroom
      rw [List.length_cons] at hroom
      obtain ⟨hstep, hlen⟩ := ht.advertisePath rid nlri path (by omega)
      exact ih _ hstep (by omega)
  unfold RouteRefs.advertise
  cases active with
  | none => exact hfold _ _ h hfits
  | some active =>
    obtain ⟨hclear, hlen⟩ := h.eraseAll o (isInactive rid nlri active)
    exact hfold _ _ hclear
      (lt_of_le_of_lt (Nat.add_le_add_right (Nat.add_le_add_right hlen _) _) hfits)

/-- **One event**: the routes own all references afterwards, unless an UPDATE brought attributes and
    announced nothing. -/
theorem owed_step {i : Oracle ν × RefEvent ν} (h : Owed [] s) (hfits : s.Fits i) :
    (s.Announces i → Owed [] (s.step i)) ∧ (¬ s.Announces i → ∃ id, Owed [id] (s.step i)) := by
  obtain ⟨o, e⟩ := i
  have hgood (hs : Owed [] (s.step (o, e))) (hann : s.Announces (o, e)) :
      (s.Announces (o, e) → Owed [] (s.step (o, e))) ∧
        (¬ s.Announces (o, e) → ∃ id, Owed [id] (s.step (o, e))) :=
    ⟨fun _ => hs, fun hno => absurd hann hno⟩
  cases e with
  | update rid softReconfig rejects u => exact h.onParsedUpdateFromPeer hfits
  | softClear rid rejects => exact hgood (h.softClearInbound o hfits) trivial
  | purgeStale rid stale => exact hgood (h.eraseAll o _).1 trivial
  | peerLost rid =>
    have hpre : Owed [] { s with preAdjRibIn := Function.update s.preAdjRibIn rid none } := h
    exact hgood ((hpre.eraseAll o _).1.eraseAll o _).1 trivial
  | networkRibChanged nlri reachable pa =>
    refine hgood ?_ trivial
    simp only [step, onNetworkRibChanged]
    split
    · have hroom : s.routes.length + 1 + 1 < 2 ^ 32 := hfits
      exact ((h.acquire pa (by simp; omega)).replace _).1
    · exact (h.erase _).1
  | withdraw rid nlri => exact hgood (h.eraseAll o _).1 trivial
  | advertise rid nlri active paths => exact hgood (h.advertise o hfits) trivial

/-- **The counts are right in every state of a run iff each UPDATE that brings attributes announces a
    prefix.** -/
theorem accounted_iff {es : List (Oracle ν × RefEvent ν)} (hfits : Along Fits step {} es) :
    Along Announces step {} es ↔ ∀ ps, ps <+: es → Accounted (runFrom step ({} : RouteRefs ν) ps) := by
  have hstart : Owed [] ({} : RouteRefs ν) := ⟨[], inv_empty, .refl _⟩
  refine Along.iff_everywhere (I := Owed []) (fun s e hs hf hC => (owed_step hs hf).1 hC)
    (fun s hs => hs.accounted) (fun s e hs hf hno => ?_) hstart hfits
  obtain ⟨id, howed⟩ := (owed_step hs hf).2 hno
  exact howed.not_accounted

/-- A prefix is announced, advertised to another peer, and its peer is lost. -/
def lifecycle : List (Oracle (UInt32 × UInt8) × RefEvent (UInt32 × UInt8)) :=
  [(sampleOracle, .update 7 false (fun _ => false) (sampleUpdate [65001] 1)),
    (sampleOracle, .advertise 8 samplePrefix none [(0, sampleAttrs [65000, 65001] 1)]),
    (sampleOracle, .peerLost 7)]

theorem accounted_iff_lifecycle :
    Accounted (runFrom step ({} : RouteRefs (UInt32 × UInt8)) lifecycle) := by
  have hfits : Along Fits step ({} : RouteRefs (UInt32 × UInt8)) lifecycle := by
    refine ⟨?_, ?_, ?_, trivial⟩ <;> change _ + _ + 1 < 2 ^ 32 <;> decide +kernel
  exact (accounted_iff hfits).1 ⟨fun _ => List.cons_ne_nil _ _, trivial, trivial, trivial⟩ _
    List.prefix_rfl

/-- The UPDATE that is parsed from a message that withdraws a prefix and has no attributes leaves a
    reference behind, also when its peer is lost. -/
theorem not_accounted_withdraw :
    ∃ u, processUpdateNlri ipv4Nlri false { withdrawnData := [8, 8] } = .ok u ∧
      u.withdrawn = [⟨⟨0x08000000, 8⟩, 0⟩] ∧
      let s := runFrom step ({} : RouteRefs IPv4Prefix)
        [(sampleOracle, .update 7 false (fun _ => false) u), (sampleOracle, .peerLost 7)]
      s.routes = [] ∧ s.refCount 0 = 1 ∧ ¬ Accounted s := by
  refine ⟨⟨[⟨⟨0x08000000, 8⟩, 0⟩], [], some {}⟩, rfl, rfl, rfl, by decide +kernel, ?_⟩
  intro h
  have hcount := h.count 0
  revert hcount
  decide +kernel

end RouteRefs

end VirtualRouter.Bgp
