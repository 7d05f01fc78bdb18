/-
  Next-hop tracking (`registerNht`, `unregisterNht` and `onNhtChange` of
  `routing/bgp/af/AddressFamilyInstance.h`): the entries by next hop, each with
  the NLRIs that use it and a watch of the RIB, and the next hop by NLRI.

  The watches are those that the RIBs have registered, one RIB for IPv4 and one
  for IPv6, each with its own ids (`RouteWatcher.hpp`); the posted registrations
  are taken to have run.  ARP and others use the same ids.  `watchAddress`
  returns 0 for an address that has no route, and the RIB releases the watch of
  an address that has lost its last one.

  An NLRI that is installed with another next hop is registered without being
  unregistered, and stays with its old entry for good.  `fits` leaves these steps
  out, and those after which a next hop has an entry but no route to watch.
-/
import VirtualRouter.Bgp.AddressFamily
import VirtualRouter.Lib.IdPool

namespace VirtualRouter.Bgp

/-! ## The watches of a RIB -/

inductive WatchUser where
  | nht (nh : IPAddress)
  | other
  deriving DecidableEq, Repr

structure RibWatches where
  pool : IdPool := { count := 1 }
  watches : UInt32 → Option WatchUser := fun _ => none
  /-- `fib.lookup` finds a route. -/
  reachable : IPAddress → Bool := fun _ => false

namespace RibWatches

variable (r : RibWatches)

/-- A watch with a new id.  The code returns at the id 0, which no run comes to before 2³² ids. -/
def register (user : WatchUser) : UInt32 × RibWatches :=
  (r.pool.take.1,
    { r with
      pool := r.pool.take.2
      watches := Function.update r.watches r.pool.take.1 (some user) })

def watchAddress (nh : IPAddress) : UInt32 × RibWatches :=
  if !r.reachable nh then (0, r) else r.register (.nht nh)

def unwatchAddress (id : UInt32) : RibWatches :=
  match r.watches id with
  | none => r
  | some _ => { r with pool := r.pool.put id, watches := Function.update r.watches id none }

/-- The watch is canceled if its user is one of these. -/
def unwatchIf (may : WatchUser → Bool) (id : UInt32) : RibWatches :=
  if (r.watches id).any may then r.unwatchAddress id else r

/-- The ids that `allocateId` does not give: 0 and those of the watches. -/
def used (id : UInt32) : Prop := id = 0 ∨ (r.watches id).isSome

/-- Some id is left. -/
def Room : Prop := ∃ id, ¬ r.used id

structure Ok : Prop where
  pool : r.pool.Tracks r.used
  zero : r.watches 0 = none

variable {r}

theorem ok_default (reachable : IPAddress → Bool) : Ok { reachable := reachable } where
  pool := {
    mem_free id := by
      refine iff_of_false List.not_mem_nil fun ⟨hlt, hno⟩ => hno (.inl ?_)
      exact UInt32.toNat_inj.1 (Nat.lt_one_iff.1 hlt)
    nodup := List.nodup_nil
    lt_count id h := by
      rcases h with rfl | h
      · exact Nat.zero_lt_one
      · cases h }
  zero := rfl

theorem Ok.register (h : Ok r) (hroom : r.Room) (user : WatchUser) :
    Ok (r.register user).2 ∧ r.watches (r.register user).1 = none := by
  have hnew := h.pool.take_not_used hroom
  simp only [used, not_or, Option.not_isSome_iff_eq_none] at hnew
  refine ⟨⟨(h.pool.take hroom).congr fun id => ?_, ?_⟩, hnew.2⟩
  · simp only [RibWatches.register, used, Function.update_apply]
    by_cases hid : id = r.pool.take.1
    · simp [hid]
    · simp [hid]
  · exact (Function.update_of_ne (Ne.symm hnew.1) _ _).trans h.zero

theorem Ok.unwatchAddress (h : Ok r) (id : UInt32) : Ok (r.unwatchAddress id) := by
  unfold RibWatches.unwatchAddress
  cases hid : r.watches id with
  | none => exact h
  | some user =>
    have hne : id ≠ 0 := by
      rintro rfl
      rw [h.zero] at hid
      cases hid
    refine ⟨(h.pool.put (i := id) (.inr (by rw [hid]; rfl))).congr fun x => ?_, ?_⟩
    · simp only [used, Function.update_apply]
      by_cases hx : x = id
      · simp [hx, hne]
      · simp [hx]
    · exact (Function.update_of_ne hne.symm _ _).trans h.zero

theorem watches_unwatchAddress (id x : UInt32) :
    (r.unwatchAddress id).watches x = if x = id then none else r.watches x := by
  unfold RibWatches.unwatchAddress
  cases hid : r.watches id with
  | none =>
    split_ifs with hx
    · rw [hx, hid]
    · rfl
  | some user => simp only [Function.update_apply]

@[simp] theorem reachable_unwatchAddress (id : UInt32) :
    (r.unwatchAddress id).reachable = r.reachable := by
  unfold RibWatches.unwatchAddress
  split <;> rfl

end RibWatches

/-! ## The tables -/

/-- `NhtEntry`, with its watch. -/
structure WatchedEntry (ν : Type) extends NhtEntry ν where
  watchId : UInt32 := 0
  isV6 : Bool := false

structure NextHopTables (ν : Type) where
  nhtTable : IPAddress → Option (WatchedEntry ν) := fun _ => none
  nlriToNextHop : ν → Option IPAddress := fun _ => none
  /-- The RIBs for IPv4 (`false`) and IPv6. -/
  rib : Bool → RibWatches := fun _ => {}

variable {ν : Type}

namespace NextHopTables

variable (s : NextHopTables ν)

def onRib (isV6 : Bool) (f : RibWatches → RibWatches) : NextHopTables ν :=
  { s with rib := Function.update s.rib isV6 (f (s.rib isV6)) }

def onNhtChange (nh : IPAddress) (reachable : Bool) : NextHopTables ν :=
  match s.nhtTable nh with
  | none => s
  | some entry =>
    { s with nhtTable := Function.update s.nhtTable nh (some { entry with reachable := reachable }) }

def Watched (nh : IPAddress) : Prop := ∃ isV6 id, (s.rib isV6).watches id = some (.nht nh)

/-- **The index is consistent**: the two maps are inverse to each other, no entry is without an
    NLRI, and the entries are those of the next hops that are watched. -/
structure Consistent : Prop where
  mem_iff : ∀ nlri nh, (∃ e ∈ s.nhtTable nh, nlri ∈ e.nlris) ↔ s.nlriToNextHop nlri = some nh
  nonempty : ∀ nh, ∀ e ∈ s.nhtTable nh, e.nlris ≠ []
  watched : ∀ nh, s.Watched nh ↔ (s.nhtTable nh).isSome

/-- The entry of a next hop holds NLRIs, each once, and the id of its watch. -/
structure EntryOk (rib : Bool → RibWatches) (nh : IPAddress) (e : WatchedEntry ν) : Prop where
  nonempty : e.nlris ≠ []
  nodup : e.nlris.Nodup
  isV6 : e.isV6 = !nh.isIPv4
  watch : (rib e.isV6).watches e.watchId = some (.nht nh)
  reachable : (rib e.isV6).reachable nh

structure Inv : Prop where
  mem_iff : ∀ nlri nh, (∃ e ∈ s.nhtTable nh, nlri ∈ e.nlris) ↔ s.nlriToNextHop nlri = some nh
  entry : ∀ nh, ∀ e ∈ s.nhtTable nh, EntryOk s.rib nh e
  only : ∀ isV6 id nh, (s.rib isV6).watches id = some (.nht nh) →
    ∃ e ∈ s.nhtTable nh, e.isV6 = isV6 ∧ e.watchId = id
  rib : ∀ isV6, (s.rib isV6).Ok

variable {s}

theorem Inv.consistent (h : Inv s) : Consistent s where
  mem_iff := h.mem_iff
  nonempty nh e he := (h.entry nh e he).nonempty
  watched nh := by
    constructor
    · rintro ⟨isV6, id, hid⟩
      obtain ⟨e, he, -⟩ := h.only isV6 id nh hid
      exact Option.isSome_iff_exists.2 ⟨e, he⟩
    · intro hsome
      obtain ⟨e, he⟩ := Option.isSome_iff_exists.1 hsome
      exact ⟨_, _, (h.entry nh e he).watch⟩

theorem Inv.onRib (h : Inv s) (isV6 : Bool) {f : RibWatches → RibWatches}
    (hok : (f (s.rib isV6)).Ok)
    (hwatch : ∀ id nh, (f (s.rib isV6)).watches id = some (.nht nh) ↔
      (s.rib isV6).watches id = some (.nht nh))
    (hreach : ∀ nh, (s.nhtTable nh).isSome → (!nh.isIPv4) = isV6 →
      (f (s.rib isV6)).reachable nh) : Inv (s.onRib isV6 f) where
  mem_iff := h.mem_iff
  entry nh e he := by
    have hold := h.entry nh e he
    refine ⟨hold.nonempty, hold.nodup, hold.isV6, ?_, ?_⟩
    · simp only [NextHopTables.onRib, Function.update_apply]
      split_ifs with hv6
      · rw [hwatch, ← hv6]; exact hold.watch
      · exact hold.watch
    · simp only [NextHopTables.onRib, Function.update_apply]
      split_ifs with hv6
      · exact hreach nh (Option.isSome_iff_exists.2 ⟨e, he⟩) (hold.isV6.symm.trans hv6)
      · exact hold.reachable
  only v6 id nh hid := by
    refine h.only v6 id nh ?_
    simp only [NextHopTables.onRib, Function.update_apply] at hid
    split_ifs at hid with hv6
    · rw [hv6]; exact (hwatch id nh).1 hid
    · exact hid
  rib v6 := by
    simp only [NextHopTables.onRib, Function.update_apply]
    split_ifs with hv6
    · exact hok
    · exact h.rib v6

theorem Inv.reachable (h : Inv s) {nh : IPAddress} (hsome : (s.nhtTable nh).isSome) :
    (s.rib !nh.isIPv4).reachable nh := by
  obtain ⟨e, he⟩ := Option.isSome_iff_exists.1 hsome
  have hentry := h.entry nh e he
  rw [← hentry.isV6]
  exact hentry.reachable

theorem Inv.unwatchIf (h : Inv s) (isV6 : Bool) {may : WatchUser → Bool} {id : UInt32}
    (hmay : ∀ nh, (s.rib isV6).watches id = some (.nht nh) → may (.nht nh) = false) :
    Inv (s.onRib isV6 (·.unwatchIf may id)) := by
  by_cases hany : ((s.rib isV6).watches id).any may = true
  · obtain ⟨user, huser, hyes⟩ := (Option.any_eq_true ..).1 hany
    have heq : (s.rib isV6).unwatchIf may id = (s.rib isV6).unwatchAddress id := if_pos hany
    refine h.onRib isV6 ?_ (fun x nh => ?_) fun nh hsome hv6 => ?_
    · rw [heq]; exact (h.rib isV6).unwatchAddress id
    · rw [heq, RibWatches.watches_unwatchAddress]
      split_ifs with hx
      · refine iff_of_false (by simp) fun hours => ?_
        rw [hx] at hours
        have hno := hmay nh hours
        rw [huser, Option.some.injEq] at hours
        rw [hours, hno] at hyes
        cases hyes
      · rfl
    · rw [heq, RibWatches.reachable_unwatchAddress, ← hv6]
      exact h.reachable hsome
  · have heq : (s.rib isV6).unwatchIf may id = s.rib isV6 := if_neg hany
    refine h.onRib isV6 ?_ (fun x nh => ?_) fun nh hsome hv6 => ?_
    · rw [heq]; exact h.rib isV6
    · rw [heq]
    · rw [heq, ← hv6]; exact h.reachable hsome

theorem Inv.watch (h : Inv s) (isV6 : Bool) (hroom : (s.rib isV6).Room) :
    Inv (s.onRib isV6 fun r => (r.register .other).2) := by
  have hnew := (h.rib isV6).register hroom .other
  refine h.onRib isV6 hnew.1 (fun id nh => ?_) fun nh hsome hv6 => ?_
  · simp only [RibWatches.register, Function.update_apply]
    split_ifs with hid
    · refine iff_of_false (by simp) fun hours => ?_
      have hnone := hnew.2
      simp only [RibWatches.register, ← hid, hours] at hnone
      cases hnone
    · rfl
  · rw [← hv6]; exact h.reachable hsome

theorem Inv.mem_entry (h : Inv s) {nh : IPAddress} {e : WatchedEntry ν} (he : s.nhtTable nh = some e)
    (n : ν) : n ∈ e.nlris ↔ s.nlriToNextHop n = some nh := by
  rw [← h.mem_iff]
  simp [he]

theorem Inv.hop_ne (h : Inv s) {nh : IPAddress} (he : s.nhtTable nh = none) (n : ν) :
    s.nlriToNextHop n ≠ some nh := by
  rw [Ne, ← h.mem_iff]
  simp [he]

theorem inv_init {rib : Bool → RibWatches} (hrib : ∀ isV6, (rib isV6).Ok)
    (hnone : ∀ isV6 id nh, (rib isV6).watches id ≠ some (.nht nh)) :
    Inv ({ rib := rib } : NextHopTables ν) where
  mem_iff nlri nh := by simp
  entry nh e he := by cases he
  only isV6 id nh hid := absurd hid (hnone isV6 id nh)
  rib := hrib

/-! ### Registering -/

variable [DecidableEq ν] (s)

def newEntry (nh : IPAddress) : WatchedEntry ν × (Bool → RibWatches) :=
  let isV6 := !nh.isIPv4
  let (watchId, rib) := (s.rib isV6).watchAddress nh
  ({ watchId, isV6 }, Function.update s.rib isV6 rib)

/-- `registerNht`; `tracking` is BGP_NEXT_HOP_TRACKING. -/
def registerNht (tracking : Bool) (nlri : ν) (nh : IPAddress) : NextHopTables ν :=
  if !tracking then s
  else
    let (entry, rib) := match s.nhtTable nh with
      | some entry => (entry, s.rib)
      | none => s.newEntry nh
    { nhtTable := Function.update s.nhtTable nh
        (some { entry with nlris := entry.nlris.insert nlri })
      nlriToNextHop := Function.update s.nlriToNextHop nlri (some nh)
      rib }

def unregisterNht (nlri : ν) : NextHopTables ν :=
  match s.nlriToNextHop nlri with
  | none => s
  | some nh =>
    let s := { s with nlriToNextHop := Function.update s.nlriToNextHop nlri none }
    match s.nhtTable nh with
    | none => s
    | some entry =>
      let nlris := entry.nlris.erase nlri
      if nlris.isEmpty then
        { s with
          nhtTable := Function.update s.nhtTable nh none
          rib := if entry.watchId = 0 then s.rib
            else Function.update s.rib entry.isV6
              ((s.rib entry.isV6).unwatchAddress entry.watchId) }
      else
        { s with nhtTable := Function.update s.nhtTable nh (some { entry with nlris := nlris }) }

/-! ### The tables of the instance -/

structure TablesOf (i : AddressFamilyInstance ν) : Prop where
  nhtTable : ∀ nh, i.nhtTable nh = (s.nhtTable nh).map WatchedEntry.toNhtEntry
  nlriToNextHop : i.nlriToNextHop = s.nlriToNextHop

variable {s} {i : AddressFamilyInstance ν}

theorem TablesOf.registerNht (h : s.TablesOf i) (cfg : Config ν) (nlri : ν) (nh : IPAddress) :
    (s.registerNht cfg.family.nextHopTracking nlri nh).TablesOf (i.registerNht cfg nlri nh) := by
  unfold NextHopTables.registerNht AddressFamilyInstance.registerNht
  cases cfg.family.nextHopTracking with
  | false => exact h
  | true =>
    refine ⟨fun x => ?_, by simp only [Bool.not_true, Bool.false_eq_true, if_false,
      h.nlriToNextHop]⟩
    have hnh := h.nhtTable nh
    simp only [Bool.not_true, Bool.false_eq_true, if_false, Function.update_apply]
    split_ifs with hx
    · cases hentry : s.nhtTable nh <;> simp [hnh, hentry, newEntry]
    · exact h.nhtTable x

theorem TablesOf.unregisterNht (h : s.TablesOf i) (nlri : ν) :
    (s.unregisterNht nlri).TablesOf (i.unregisterNht nlri) := by
  unfold NextHopTables.unregisterNht AddressFamilyInstance.unregisterNht
  rw [h.nlriToNextHop]
  cases hn : s.nlriToNextHop nlri with
  | none => exact h
  | some nh =>
    have hnh := h.nhtTable nh
    cases hentry : s.nhtTable nh with
    | none =>
      rw [hentry] at hnh
      simp only [hnh, hentry, Option.map_none]
      exact ⟨h.nhtTable, rfl⟩
    | some entry =>
      rw [hentry] at hnh
      simp only [hnh, hentry, Option.map_some]
      by_cases hempty : (entry.nlris.erase nlri).isEmpty
      · simp only [hempty, if_true]
        refine ⟨fun x => ?_, rfl⟩
        simp only [Function.update_apply]
        split_ifs
        · rfl
        · exact h.nhtTable x
      · simp only [hempty, Bool.false_eq_true, if_false]
        refine ⟨fun x => ?_, rfl⟩
        simp only [Function.update_apply]
        split_ifs
        · rfl
        · exact h.nhtTable x

theorem TablesOf.onNhtChange (h : s.TablesOf i) (nh : IPAddress) (reachable : Bool) :
    (s.onNhtChange nh reachable).TablesOf (i.onNhtChange nh reachable) := by
  unfold NextHopTables.onNhtChange AddressFamilyInstance.onNhtChange
  have hnh := h.nhtTable nh
  cases hentry : s.nhtTable nh with
  | none =>
    rw [hentry] at hnh
    simp only [hnh, Option.map_none]
    exact h
  | some entry =>
    rw [hentry] at hnh
    simp only [hnh, Option.map_some]
    split_ifs with hreach
    · refine ⟨fun x => ?_, h.nlriToNextHop⟩
      simp only [Function.update_apply]
      split_ifs with hx
      · rw [hx, hnh, ← hreach]
      · exact h.nhtTable x
    · refine ⟨fun x => ?_, h.nlriToNextHop⟩
      simp only [Function.update_apply]
      split_ifs
      · rfl
      · exact h.nhtTable x

/-! ### Runs -/

/-- What happens to the tables and to the RIBs. -/
inductive Event (ν : Type) where
  /-- `installToRib`. -/
  | install (tracking : Bool) (nlri : ν) (nh : IPAddress)
  /-- `withdrawFromRib`. -/
  | withdraw (nlri : ν)
  | nhtChange (nh : IPAddress) (reachable : Bool)
  /-- The routes of a RIB change: these addresses have one. -/
  | routes (isV6 : Bool) (reachable : IPAddress → Bool)
  /-- The RIB releases the watch of an address without a route. -/
  | release (isV6 : Bool) (id : UInt32)
  /-- Another user registers a watch, or cancels one. -/
  | watch (isV6 : Bool)
  | unwatch (isV6 : Bool) (id : UInt32)

def step (s : NextHopTables ν) : Event ν → NextHopTables ν
  | .install tracking nlri nh => s.registerNht tracking nlri nh
  | .withdraw nlri => s.unregisterNht nlri
  | .nhtChange nh reachable => s.onNhtChange nh reachable
  | .routes isV6 reachable => s.onRib isV6 fun r => { r with reachable := reachable }
  | .release isV6 id => s.onRib isV6 fun r =>
      r.unwatchIf (fun | .nht nh => !r.reachable nh | .other => false) id
  | .watch isV6 => s.onRib isV6 fun r => (r.register .other).2
  | .unwatch isV6 id => s.onRib isV6 (·.unwatchIf (· == .other) id)

/-- The condition on a step. -/
def fits (s : NextHopTables ν) : Event ν → Prop
  | .install tracking nlri nh => tracking →
      (∀ nh' ∈ s.nlriToNextHop nlri, nh' = nh) ∧
        (s.nhtTable nh = none → (s.rib !nh.isIPv4).reachable nh ∧ (s.rib !nh.isIPv4).Room)
  | .routes isV6 reachable => ∀ nh, (s.nhtTable nh).isSome → (!nh.isIPv4) = isV6 → reachable nh
  | .watch isV6 => (s.rib isV6).Room
  | _ => True

/-! ### One step -/

/-- Where the next hop of one NLRI and the entry that goes with it are changed, the maps stay
    inverse to each other if the NLRI is in no other entry. -/
theorem mem_iff_update {t : IPAddress → Option (WatchedEntry ν)} {hop : ν → Option IPAddress}
    (h : ∀ n nh, (∃ e ∈ t nh, n ∈ e.nlris) ↔ hop n = some nh) {nlri : ν} {nh : IPAddress}
    {entry : Option (WatchedEntry ν)} {new : Option IPAddress}
    (hentry : ∀ n, (∃ e ∈ entry, n ∈ e.nlris) ↔
      if n = nlri then new = some nh else hop n = some nh)
    (hold : ∀ x ∈ hop nlri, x = nh) (hnew : ∀ x ∈ new, x = nh) (n : ν) (x : IPAddress) :
    (∃ e ∈ Function.update t nh entry x, n ∈ e.nlris) ↔
      Function.update hop nlri new n = some x := by
  simp only [Function.update_apply]
  by_cases hx : x = nh
  · subst hx
    simp only [if_true, hentry n]
    split_ifs <;> rfl
  · simp only [hx, if_false, h n x]
    split_ifs with hn
    · subst hn
      exact iff_of_false (fun hc => hx (hold x hc)) fun hc => hx (hnew x hc)
    · rfl

/-- The entry of a next hop is replaced by one with the same watch, and the next hop of one NLRI
    with it. -/
theorem Inv.replaceEntry (h : Inv s) {nlri : ν} {nh : IPAddress} {entry entry' : WatchedEntry ν}
    {new : Option IPAddress} (hentry : s.nhtTable nh = some entry)
    (hwatch : entry'.isV6 = entry.isV6 ∧ entry'.watchId = entry.watchId)
    (hlist : entry'.nlris ≠ [] ∧ entry'.nlris.Nodup)
    (hmem : ∀ n, n ∈ entry'.nlris ↔
      if n = nlri then new = some nh else s.nlriToNextHop n = some nh)
    (hold : ∀ x ∈ s.nlriToNextHop nlri, x = nh) (hnew : ∀ x ∈ new, x = nh) :
    Inv { s with
      nhtTable := Function.update s.nhtTable nh (some entry')
      nlriToNextHop := Function.update s.nlriToNextHop nlri new } where
  mem_iff := mem_iff_update h.mem_iff (fun n => by simp [hmem n]) hold hnew
  entry x e he := by
    simp only [Function.update_apply] at he
    split_ifs at he with hx
    · cases he
      have hbefore := h.entry nh entry hentry
      refine ⟨hlist.1, hlist.2, ?_, ?_, ?_⟩
      · rw [hwatch.1, hx]; exact hbefore.isV6
      · rw [hwatch.1, hwatch.2, hx]; exact hbefore.watch
      · rw [hwatch.1, hx]; exact hbefore.reachable
    · exact h.entry x e he
  only v6 id x hid := by
    obtain ⟨e, he, hv6, hid'⟩ := h.only v6 id x hid
    simp only [Function.update_apply]
    split_ifs with hx
    · rw [hx, hentry] at he
      cases he
      exact ⟨_, rfl, hwatch.1.trans hv6, hwatch.2.trans hid'⟩
    · exact ⟨e, he, hv6, hid'⟩
  rib := h.rib

theorem Inv.onNhtChange (h : Inv s) (nh : IPAddress) (reachable : Bool) :
    Inv (s.onNhtChange nh reachable) := by
  unfold NextHopTables.onNhtChange
  cases hentry : s.nhtTable nh with
  | none => exact h
  | some entry =>
    have hold := h.entry nh entry hentry
    -- the next hop of an NLRI of the entry stays as it is
    obtain ⟨nlri, hnlri⟩ := List.exists_mem_of_ne_nil _ hold.nonempty
    have hhop := (h.mem_entry hentry nlri).1 hnlri
    have hsame : Function.update s.nlriToNextHop nlri (some nh) = s.nlriToNextHop := by
      rw [← hhop, Function.update_eq_self]
    have hnew : Inv { s with
        nhtTable := Function.update s.nhtTable nh (some { entry with reachable := reachable })
        nlriToNextHop := Function.update s.nlriToNextHop nlri (some nh) } := by
      refine h.replaceEntry hentry ⟨rfl, rfl⟩ ⟨hold.nonempty, hold.nodup⟩ (fun n => ?_) (by simp [hhop])
        (by simp)
      rw [h.mem_entry hentry n]
      split_ifs with hn
      · simp [hn, hhop]
      · rfl
    rw [hsame] at hnew
    exact hnew

theorem Inv.registerNht_of_some (h : Inv s) {nlri : ν} {nh : IPAddress} {entry : WatchedEntry ν}
    (hentry : s.nhtTable nh = some entry) (hsame : ∀ x ∈ s.nlriToNextHop nlri, x = nh) :
    Inv (s.registerNht true nlri nh) := by
  have hold := h.entry nh entry hentry
  simp only [registerNht, hentry, Bool.not_true, Bool.false_eq_true, if_false]
  refine h.replaceEntry hentry ⟨rfl, rfl⟩
    ⟨List.ne_nil_of_mem (List.mem_insert_self ..), hold.nodup.insert⟩ (fun n => ?_) hsame (by simp)
  rw [List.mem_insert_iff, h.mem_entry hentry]
  split_ifs with hn <;> simp [hn]

theorem Inv.registerNht_of_none (h : Inv s) {nlri : ν} {nh : IPAddress}
    (hentry : s.nhtTable nh = none) (hsame : ∀ x ∈ s.nlriToNextHop nlri, x = nh)
    (hreach : (s.rib !nh.isIPv4).reachable nh) (hroom : (s.rib !nh.isIPv4).Room) :
    Inv (s.registerNht true nlri nh) := by
  have hnew := (h.rib !nh.isIPv4).register hroom (.nht nh)
  simp only [registerNht, hentry, newEntry, RibWatches.watchAddress, hreach, Bool.not_true,
    Bool.false_eq_true, if_false]
  -- the id of the new watch was free, so the other watches are where they were
  have hkeep {v6 : Bool} {id : UInt32} {user : WatchUser}
      (hid : (s.rib v6).watches id = some user) :
      (Function.update s.rib (!nh.isIPv4) ((s.rib !nh.isIPv4).register (.nht nh)).2 v6).watches id =
        some user := by
    simp only [Function.update_apply]
    split_ifs with hv6
    · subst hv6
      simp only [RibWatches.register, Function.update_apply]
      split_ifs with hfresh
      · have hnone := hnew.2
        simp only [RibWatches.register, ← hfresh, hid] at hnone
        cases hnone
      · exact hid
    · exact hid
  refine ⟨?_, fun x e he => ?_, fun v6 id x hid => ?_, fun v6 => ?_⟩
  · refine mem_iff_update h.mem_iff (fun n => ?_) hsame (by simp)
    have hne := h.hop_ne hentry n
    split_ifs with hn <;> simp [hn, hne]
  · simp only [Function.update_apply] at he
    split_ifs at he with hx
    · cases he
      subst hx
      refine ⟨by simp, List.nodup_nil.insert, rfl, ?_, ?_⟩
      · simp [RibWatches.register]
      · simpa [RibWatches.register] using hreach
    · have hold := h.entry x e he
      refine ⟨hold.nonempty, hold.nodup, hold.isV6, hkeep hold.watch, ?_⟩
      have hr := hold.reachable
      simp only [Function.update_apply]
      split_ifs with hv6
      · rw [hv6] at hr; exact hr
      · exact hr
  · have hcases : ((s.rib v6).watches id = some (.nht x)) ∨
        (x = nh ∧ v6 = !nh.isIPv4 ∧ id = ((s.rib !nh.isIPv4).register (.nht nh)).1) := by
      simp only [Function.update_apply] at hid
      split_ifs at hid with hv6
      · subst hv6
        simp only [RibWatches.register, Function.update_apply] at hid
        split_ifs at hid with hfresh
        · simp only [Option.some.injEq, WatchUser.nht.injEq] at hid
          exact .inr ⟨hid.symm, rfl, hfresh⟩
        · exact .inl hid
      · exact .inl hid
    rcases hcases with hold | ⟨rfl, rfl, rfl⟩
    · obtain ⟨e, he, hrest⟩ := h.only v6 id x hold
      refine ⟨e, ?_, hrest⟩
      have hx : x ≠ nh := by
        rintro rfl
        rw [hentry] at he
        cases he
      simpa only [Function.update_of_ne hx] using he
    · simp
  · simp only [Function.update_apply]
    split_ifs
    · exact hnew.1
    · exact h.rib v6

theorem Inv.dropEntry (h : Inv s) {nlri : ν} {nh : IPAddress} {entry : WatchedEntry ν}
    (hentry : s.nhtTable nh = some entry) (hlast : ∀ n ∈ entry.nlris, n = nlri)
    (hhop : s.nlriToNextHop nlri = some nh) :
    Inv { nhtTable := Function.update s.nhtTable nh none
          nlriToNextHop := Function.update s.nlriToNextHop nlri none
          rib := Function.update s.rib entry.isV6
            ((s.rib entry.isV6).unwatchAddress entry.watchId) } where
  mem_iff := by
    refine mem_iff_update h.mem_iff (fun n => ?_) (by simp [hhop]) (by simp)
    split_ifs with hn
    · simp
    · rw [← h.mem_entry hentry]
      exact iff_of_false (by simp) fun hmem => hn (hlast n hmem)
  entry x e he := by
    simp only [Function.update_apply] at he
    split_ifs at he with hx
    · cases he
    · have hkept := h.entry x e he
      refine ⟨hkept.nonempty, hkept.nodup, hkept.isV6, ?_, ?_⟩
      · simp only [Function.update_apply]
        split_ifs with hv6
        · rw [RibWatches.watches_unwatchAddress, if_neg, ← hv6]
          · exact hkept.watch
          · -- two next hops do not share a watch
            intro hid
            have hother := (h.entry nh entry hentry).watch
            rw [← hv6, ← hid, hkept.watch, Option.some.injEq, WatchUser.nht.injEq] at hother
            exact hx hother
        · exact hkept.watch
      · simp only [Function.update_apply]
        split_ifs with hv6
        · rw [RibWatches.reachable_unwatchAddress, ← hv6]
          exact hkept.reachable
        · exact hkept.reachable
  only v6 id x hid := by
    have hbefore : (s.rib v6).watches id = some (.nht x) ∧ ¬ (v6 = entry.isV6 ∧
        id = entry.watchId) := by
      simp only [Function.update_apply] at hid
      split_ifs at hid with hv6
      · rw [RibWatches.watches_unwatchAddress] at hid
        split_ifs at hid with hsameId
        subst hv6
        exact ⟨hid, fun hc => hsameId hc.2⟩
      · exact ⟨hid, fun hc => hv6 hc.1⟩
    obtain ⟨e, he, rfl, rfl⟩ := h.only v6 id x hbefore.1
    refine ⟨e, ?_, rfl, rfl⟩
    have hx : x ≠ nh := by
      rintro rfl
      rw [Option.mem_unique he hentry] at hbefore
      exact hbefore.2 ⟨rfl, rfl⟩
    simpa only [Function.update_of_ne hx] using he
  rib v6 := by
    simp only [Function.update_apply]
    split_ifs with hv6
    · exact (h.rib entry.isV6).unwatchAddress _
    · exact h.rib v6

/-- The NLRI leaves its entry, which goes with its watch if no NLRI is left. -/
theorem Inv.unregisterNht (h : Inv s) (nlri : ν) : Inv (s.unregisterNht nlri) := by
  unfold NextHopTables.unregisterNht
  cases hhop : s.nlriToNextHop nlri with
  | none => exact h
  | some nh =>
    obtain ⟨entry, hentry, hmem⟩ := (h.mem_iff nlri nh).2 hhop
    have hold := h.entry nh entry hentry
    simp only [Option.mem_def.1 hentry]
    split_ifs with hempty hzero
    · -- the watch of an entry has an id
      have hwatch := hold.watch
      rw [hzero, (h.rib entry.isV6).zero] at hwatch
      cases hwatch
    · refine h.dropEntry hentry (fun n hn => ?_) hhop
      by_contra hne
      have hleft := hold.nodup.mem_erase_iff.2 ⟨hne, hn⟩
      rw [List.isEmpty_iff.1 hempty] at hleft
      cases hleft
    · rw [List.isEmpty_iff] at hempty
      refine h.replaceEntry hentry ⟨rfl, rfl⟩ ⟨hempty, hold.nodup.erase _⟩ (fun n => ?_)
        (by simp [hhop]) (by simp)
      rw [hold.nodup.mem_erase_iff, h.mem_entry hentry]
      split_ifs with hn <;> simp [hn]

/-- **Steps that fit** keep the invariant. -/
theorem Inv.step (h : Inv s) {e : Event ν} (hfits : s.fits e) : Inv (s.step e) := by
  cases e with
  | install tracking nlri nh =>
    cases tracking with
    | false => exact h
    | true =>
      obtain ⟨hsame, hnew⟩ := hfits rfl
      cases hentry : s.nhtTable nh with
      | some entry => exact h.registerNht_of_some hentry hsame
      | none => exact h.registerNht_of_none hentry hsame (hnew hentry).1 (hnew hentry).2
  | withdraw nlri => exact h.unregisterNht nlri
  | nhtChange nh reachable => exact h.onNhtChange nh reachable
  | routes isV6 reachable =>
    exact h.onRib isV6 (f := fun r => { r with reachable := reachable })
      ⟨(h.rib isV6).pool, (h.rib isV6).zero⟩ (fun _ _ => Iff.rfl) hfits
  | release isV6 id =>
    refine h.unwatchIf isV6 fun nh hid => ?_
    obtain ⟨e, he, hv6, -⟩ := h.only isV6 id nh hid
    have hreach := (h.entry nh e he).reachable
    rw [hv6] at hreach
    simp [hreach]
  | watch isV6 => exact h.watch isV6 hfits
  | unwatch isV6 id => exact h.unwatchIf isV6 fun nh _ => by simp

/-! ### Runs -/

/-- **The index stays consistent** in every state that a run of steps that fit reaches, whatever
    other users have registered before. -/
theorem consistent_run {rib : Bool → RibWatches} (hrib : ∀ isV6, (rib isV6).Ok)
    (hnone : ∀ isV6 id nh, (rib isV6).watches id ≠ some (.nht nh)) {es : List (Event ν)}
    (hfits : Run.Along fits step { rib := rib } es) :
    ∀ ps, ps <+: es → Consistent (Run.runFrom step ({ rib := rib } : NextHopTables ν) ps) := by
  rintro ps ⟨rest, rfl⟩
  have hinv := Run.Along.invariant (I := Inv) (fun _ _ hs hC => Inv.step hs hC)
    (inv_init hrib hnone) (Run.along_append.1 hfits).1
  exact hinv.consistent

/-- A prefix that uses one next hop is withdrawn. -/
theorem consistent_run_withdraw :
    Consistent (Run.runFrom step
      ({ rib := fun _ => { reachable := fun _ => true } } : NextHopTables (UInt32 × UInt8))
      [.install true samplePrefix sampleNbr, .withdraw samplePrefix]) :=
  consistent_run (fun _ => RibWatches.ok_default _) (fun _ _ _ => by simp)
    (show Run.Along fits step _
      [.install true samplePrefix sampleNbr, .withdraw samplePrefix] from
      ⟨fun _ => ⟨by simp, fun _ => ⟨rfl, 1, by simp [RibWatches.used]⟩⟩, trivial, trivial⟩)
    _ (List.prefix_refl _)

/-- A prefix that is installed with another next hop stays with the old one. -/
theorem not_consistent_run : ¬ ∀ es : List (Event (UInt32 × UInt8)),
    (∀ e ∈ es, (∃ n nh, e = .install true n nh) ∨ ∃ n, e = .withdraw n) →
      Consistent (Run.runFrom step { rib := fun _ => { reachable := fun _ => true } } es) := by
  intro h
  have hrun := h [.install true samplePrefix sampleNbr, .install true samplePrefix sampleNbr2] <| by
    intro e he
    simp only [List.mem_cons, List.not_mem_nil, or_false] at he
    rcases he with rfl | rfl <;> exact .inl ⟨_, _, rfl⟩
  have hhop := (hrun.mem_iff samplePrefix sampleNbr).1 ⟨_, rfl, by decide +kernel⟩
  revert hhop
  decide +kernel

end NextHopTables

end VirtualRouter.Bgp
