/-
  Adj-RIB-In over runs.

  Everything behind the tables of received routes leaves them alone
  (`SameIn`), so that an UPDATE changes them by `takeUpdate` only.  It drops an
  announcement that the policy rejects without removing the route that the
  announcement replaces.

  * `inAttrs`: the attributes in the table of a peer;
  * `latestStep`: what an UPDATE makes of what the peers have announced, each
    announcement taken as a replacement;
  * `holdsLatest_iff`: the tables are that along a run iff no announcement is
    rejected that the table has a route for.
-/
import VirtualRouter.Bgp.AddressFamily

namespace VirtualRouter.Bgp

open EntryTable Run

variable {ν : Type} [DecidableEq ν]

namespace AddressFamilyInstance

/-! ## What the recomputation leaves alone -/

/-- The received routes, the network routes, the neighbors and the stale sets are the same. -/
structure SameIn (s s' : AddressFamilyInstance ν) : Prop where
  adjRibIn : s'.adjRibIn = s.adjRibIn
  networkLocalRoutes : s'.networkLocalRoutes = s.networkLocalRoutes
  neighbors : s'.neighbors = s.neighbors
  peers : s'.peers = s.peers
  stalePeerNlris : s'.stalePeerNlris = s.stalePeerNlris
  staleTimers : s'.staleTimers = s.staleTimers

section SameIn
variable {s s' s'' : AddressFamilyInstance ν} (cfg : Config ν) (o : Oracle ν)

omit [DecidableEq ν] in
theorem SameIn.refl (s : AddressFamilyInstance ν) : SameIn s s := ⟨rfl, rfl, rfl, rfl, rfl, rfl⟩

omit [DecidableEq ν] in
theorem SameIn.trans (h : SameIn s s') (h' : SameIn s' s'') : SameIn s s'' where
  adjRibIn := h'.adjRibIn.trans h.adjRibIn
  networkLocalRoutes := h'.networkLocalRoutes.trans h.networkLocalRoutes
  neighbors := h'.neighbors.trans h.neighbors
  peers := h'.peers.trans h.peers
  stalePeerNlris := h'.stalePeerNlris.trans h.stalePeerNlris
  staleTimers := h'.staleTimers.trans h.staleTimers

omit [DecidableEq ν] in
theorem SameIn.foldl {β : Type} {f : AddressFamilyInstance ν → β → AddressFamilyInstance ν}
    (hf : ∀ s b, SameIn s (f s b)) (l : List β) (s : AddressFamilyInstance ν) :
    SameIn s (l.foldl f s) := by
  induction l generalizing s with
  | nil => exact .refl s
  | cons b l ih => exact (hf s b).trans (ih _)

theorem recomputeAdjRibOut_sameIn (s : AddressFamilyInstance ν) (nlri : ν)
    (best : Option LocalRoute) : SameIn s (s.recomputeAdjRibOut cfg o nlri best) :=
  ⟨rfl, rfl, rfl, rfl, rfl, rfl⟩

theorem installToRib_sameIn (s : AddressFamilyInstance ν) (nlri : ν) (best : LocalRoute) :
    SameIn s (s.installToRib cfg o nlri best) := by
  simp only [installToRib, registerNht]
  split <;> split <;> exact ⟨rfl, rfl, rfl, rfl, rfl, rfl⟩

theorem withdrawFromRib_sameIn (s : AddressFamilyInstance ν) (nlri : ν) :
    SameIn s (s.withdrawFromRib nlri) := by
  simp only [withdrawFromRib, unregisterNht]
  split
  · exact ⟨rfl, rfl, rfl, rfl, rfl, rfl⟩
  · split <;> exact ⟨rfl, rfl, rfl, rfl, rfl, rfl⟩

theorem recomputeNlri_sameIn (s : AddressFamilyInstance ν) (nlri : ν) :
    SameIn s (s.recomputeNlri cfg o nlri) := by
  unfold recomputeNlri
  split
  · exact .refl s
  · have h := withdrawFromRib_sameIn s nlri
    exact ⟨h.adjRibIn, h.networkLocalRoutes, h.neighbors, h.peers, h.stalePeerNlris, h.staleTimers⟩
  · rename_i best entry
    have hout : SameIn s (recomputeAdjRibOut cfg o { s with locRib := s.locRib.insert nlri best } nlri
        (some best)) := ⟨rfl, rfl, rfl, rfl, rfl, rfl⟩
    simp only
    split
    · exact .refl s
    · split
      · exact hout.trans (installToRib_sameIn cfg o _ nlri best)
      · exact hout

theorem recomputeAll_sameIn (s : AddressFamilyInstance ν) (touched : List ν) :
    SameIn s (s.recomputeAll cfg o touched) :=
  SameIn.foldl (recomputeNlri_sameIn cfg o) _ s

omit [DecidableEq ν] in
theorem enforceMaximumPrefix_sameIn (s : AddressFamilyInstance ν) (addr nbr : IPAddress)
    (rid : UInt32) : SameIn s (s.enforceMaximumPrefix cfg addr nbr rid) := by
  simp only [enforceMaximumPrefix]
  split
  · exact .refl s
  · split <;> split <;> (try split) <;> exact ⟨rfl, rfl, rfl, rfl, rfl, rfl⟩

omit [DecidableEq ν] in
theorem enforceMaximumPrefix_ribs (s : AddressFamilyInstance ν) (addr nbr : IPAddress)
    (rid : UInt32) :
    (s.enforceMaximumPrefix cfg addr nbr rid).locRib = s.locRib ∧
      (s.enforceMaximumPrefix cfg addr nbr rid).vrf = s.vrf ∧
      (s.enforceMaximumPrefix cfg addr nbr rid).out = s.out := by
  simp only [enforceMaximumPrefix]
  split
  · exact ⟨rfl, rfl, rfl⟩
  · split <;> split <;> (try split) <;> exact ⟨rfl, rfl, rfl⟩

end SameIn

/-! ## What the edits of Adj-RIB-In leave alone -/

/-- Only Adj-RIB-In, the Loc-RIB and the stale sets may differ. -/
structure InEdit (s s' : AddressFamilyInstance ν) : Prop where
  networkLocalRoutes : s'.networkLocalRoutes = s.networkLocalRoutes
  neighbors : s'.neighbors = s.neighbors
  peers : s'.peers = s.peers
  staleTimers : s'.staleTimers = s.staleTimers
  vrf : s'.vrf = s.vrf
  out : s'.out = s.out

section InEdit
variable {s s' s'' : AddressFamilyInstance ν} (cfg : Config ν) (o : Oracle ν)

omit [DecidableEq ν] in
theorem InEdit.refl (s : AddressFamilyInstance ν) : InEdit s s := ⟨rfl, rfl, rfl, rfl, rfl, rfl⟩

omit [DecidableEq ν] in
theorem InEdit.trans (h : InEdit s s') (h' : InEdit s' s'') : InEdit s s'' where
  networkLocalRoutes := h'.networkLocalRoutes.trans h.networkLocalRoutes
  neighbors := h'.neighbors.trans h.neighbors
  peers := h'.peers.trans h.peers
  staleTimers := h'.staleTimers.trans h.staleTimers
  vrf := h'.vrf.trans h.vrf
  out := h'.out.trans h.out

omit [DecidableEq ν] in
theorem InEdit.foldl {β : Type} {f : AddressFamilyInstance ν → β → AddressFamilyInstance ν}
    (hf : ∀ s b, InEdit s (f s b)) (l : List β) (s : AddressFamilyInstance ν) :
    InEdit s (l.foldl f s) := by
  induction l generalizing s with
  | nil => exact .refl s
  | cons b l ih => exact (hf s b).trans (ih _)

theorem removeRoute_inEdit (s : AddressFamilyInstance ν) (k : InKey ν) :
    InEdit s (s.removeRoute k) := by
  unfold removeRoute
  split <;> exact ⟨rfl, rfl, rfl, rfl, rfl, rfl⟩

theorem withdrawPath_inEdit (s : AddressFamilyInstance ν) (rid : UInt32) (n : NlriPath ν) :
    InEdit s (s.withdrawPath rid n) :=
  (removeRoute_inEdit s ⟨rid, n⟩).trans ⟨rfl, rfl, rfl, rfl, rfl, rfl⟩

theorem announcePrefix_inEdit (addr nbr : IPAddress) (rid : UInt32) (attrs : PathAttribute)
    (acc : AddressFamilyInstance ν × List ν) (n : NlriPath ν) :
    InEdit acc.1 (announcePrefix cfg o addr nbr rid attrs acc n).1 := by
  simp only [announcePrefix]
  split
  · exact .refl _
  · exact (removeRoute_inEdit acc.1 ⟨rid, n⟩).trans ⟨rfl, rfl, rfl, rfl, rfl, rfl⟩

theorem takeUpdate_inEdit (s : AddressFamilyInstance ν) (addr nbr : IPAddress) (rid : UInt32)
    (update : ParsedUpdate ν) : InEdit s (s.takeUpdate cfg o addr nbr rid update).1 := by
  have hw := InEdit.foldl (fun s n => withdrawPath_inEdit s rid n) update.withdrawn s
  unfold takeUpdate
  cases update.attrs with
  | none => exact hw
  | some attrs =>
    simp only
    have ha (acc : AddressFamilyInstance ν × List ν) :
        InEdit acc.1 (update.announcements.foldl (announcePrefix cfg o addr nbr rid attrs) acc).1 := by
      induction update.announcements generalizing acc with
      | nil => exact .refl _
      | cons n ns ih => exact (announcePrefix_inEdit cfg o addr nbr rid attrs acc n).trans (ih _)
    exact hw.trans (ha (_, _))

theorem dropStale_inEdit (s : AddressFamilyInstance ν) (rid : UInt32) (stale : List ν) :
    InEdit s (s.dropStale rid stale) :=
  (InEdit.foldl removeRoute_inEdit _ s).trans ⟨rfl, rfl, rfl, rfl, rfl, rfl⟩

theorem dropPeer_inEdit (s : AddressFamilyInstance ν) (rid : UInt32) : InEdit s (s.dropPeer rid) :=
  InEdit.foldl removeRoute_inEdit _ s

end InEdit

/-- Only the stale sets and their timers may differ. -/
structure StaleEdit (s s' : AddressFamilyInstance ν) : Prop where
  adjRibIn : s'.adjRibIn = s.adjRibIn
  networkLocalRoutes : s'.networkLocalRoutes = s.networkLocalRoutes
  locRib : s'.locRib = s.locRib
  vrf : s'.vrf = s.vrf
  out : s'.out = s.out
  neighbors : s'.neighbors = s.neighbors
  peers : s'.peers = s.peers

omit [DecidableEq ν] in
theorem cancelStaleTimers_staleEdit (s : AddressFamilyInstance ν) (rid : UInt32) :
    StaleEdit s (s.cancelStaleTimers rid) := by
  unfold cancelStaleTimers
  split <;> exact ⟨rfl, rfl, rfl, rfl, rfl, rfl, rfl⟩

structure SameRibs (s s' : AddressFamilyInstance ν) : Prop where
  adjRibIn : s'.adjRibIn = s.adjRibIn
  networkLocalRoutes : s'.networkLocalRoutes = s.networkLocalRoutes
  locRib : s'.locRib = s.locRib
  vrf : s'.vrf = s.vrf

omit [DecidableEq ν] in
theorem StaleEdit.sameRibs {s s' : AddressFamilyInstance ν} (h : StaleEdit s s') : SameRibs s s' :=
  ⟨h.adjRibIn, h.networkLocalRoutes, h.locRib, h.vrf⟩

omit [DecidableEq ν] in
theorem closeSession_sameRibs (s : AddressFamilyInstance ν) (addr : IPAddress) (rid : UInt32) :
    SameRibs s ((s.closeSession addr).dropPeerState rid) := by
  simp only [dropPeerState, cancelStaleTimers]
  split <;> split <;> exact ⟨rfl, rfl, rfl, rfl⟩

/-! ## The tables -/

def inAttrs (s : AddressFamilyInstance ν) (rid : UInt32) (n : NlriPath ν) : Option PathAttribute :=
  (s.adjRibIn.lookup ⟨rid, n⟩).map (·.attrs)

/-- What a reader of routes finds in the table of a peer. -/
def inView {β : Type} (f : InboundRoute → β) (s : AddressFamilyInstance ν) (rid : UInt32)
    (n : NlriPath ν) : Option β := (s.adjRibIn.lookup ⟨rid, n⟩).map f

section Tables
variable (cfg : Config ν) (o : Oracle ν)

theorem SameIn.inAttrs {s s' : AddressFamilyInstance ν} (h : SameIn s s') :
    s'.inAttrs = s.inAttrs := by
  funext rid n
  rw [AddressFamilyInstance.inAttrs, h.adjRibIn, AddressFamilyInstance.inAttrs]

theorem lookup_removeRoute (s : AddressFamilyInstance ν) (k k' : InKey ν) :
    (s.removeRoute k).adjRibIn.lookup k' = if k' = k then none else s.adjRibIn.lookup k' := by
  unfold removeRoute
  cases hk : s.adjRibIn.lookup k with
  | none =>
    split_ifs with h
    · rw [h, hk]
    · rfl
  | some r =>
    split_ifs with h
    · rw [h]
      exact AList.lookup_erase k _
    · exact AList.lookup_erase_ne h

theorem lookup_withdrawPath (s : AddressFamilyInstance ν) (rid : UInt32) (n : NlriPath ν)
    (k : InKey ν) :
    (s.withdrawPath rid n).adjRibIn.lookup k = if k = ⟨rid, n⟩ then none else s.adjRibIn.lookup k :=
  lookup_removeRoute s ⟨rid, n⟩ k

theorem lookup_foldl_withdrawPath (rid : UInt32) (ws : List (NlriPath ν)) (k : InKey ν)
    (s : AddressFamilyInstance ν) :
    (ws.foldl (fun s n => s.withdrawPath rid n) s).adjRibIn.lookup k =
      if k.peer = rid ∧ k.path ∈ ws then none else s.adjRibIn.lookup k := by
  induction ws generalizing s with
  | nil => simp
  | cons n ws ih =>
    rw [List.foldl_cons, ih, lookup_withdrawPath]
    by_cases hk : k = ⟨rid, n⟩
    · simp [hk]
    · have hk' : ¬ (k.peer = rid ∧ k.path = n) := by
        rintro ⟨h₁, h₂⟩
        exact hk (by rw [← h₁, ← h₂])
      by_cases hp : k.peer = rid
      · have hn : k.path ≠ n := fun h => hk' ⟨hp, h⟩
        simp [hk, hp, hn]
      · simp [hk, hp]

/-- The policy drops what the neighbor announces with the attributes `attrs`. -/
def rejects (addr nbr : IPAddress) (rid : UInt32) (attrs : PathAttribute) : Bool :=
  applyIngressPolicy cfg.process (cfg.neighbor nbr) (inboundRoute cfg o addr nbr rid attrs)

theorem foldl_announcePrefix_of_rejects {addr nbr : IPAddress} {rid : UInt32} {attrs : PathAttribute}
    (h : rejects cfg o addr nbr rid attrs = true) (ns : List (NlriPath ν))
    (acc : AddressFamilyInstance ν × List ν) :
    ns.foldl (announcePrefix cfg o addr nbr rid attrs) acc = acc := by
  induction ns generalizing acc with
  | nil => rfl
  | cons n ns ih =>
    rw [List.foldl_cons, ih]
    exact if_pos h

section View
variable {β : Type} {f : InboundRoute → β} (hf : ∀ r a, f { r with addr := a } = f r)
include hf

theorem inView_announcePrefix {addr nbr : IPAddress} {rid : UInt32} {attrs : PathAttribute}
    (h : rejects cfg o addr nbr rid attrs = false) (n n' : NlriPath ν) (rid' : UInt32)
    (acc : AddressFamilyInstance ν × List ν) :
    (announcePrefix cfg o addr nbr rid attrs acc n).1.inView f rid' n' =
      if rid' = rid ∧ n' = n then some (f (inboundRoute cfg o addr nbr rid attrs))
      else acc.1.inView f rid' n' := by
  have haccept : applyIngressPolicy cfg.process (cfg.neighbor nbr)
      (inboundRoute cfg o addr nbr rid attrs) ≠ true := by simpa [rejects] using h
  simp only [announcePrefix, if_neg haccept, inView, unstale]
  by_cases hk : (⟨rid', n'⟩ : InKey ν) = ⟨rid, n⟩
  · obtain ⟨rfl, rfl⟩ := InKey.mk.inj hk
    rw [AList.lookup_insert, if_pos ⟨rfl, rfl⟩, Option.map_some, hf]
  · have hk' : ¬ (rid' = rid ∧ n' = n) := fun h => hk (by rw [h.1, h.2])
    rw [AList.lookup_insert_ne hk, lookup_removeRoute, if_neg hk, if_neg hk']

theorem inView_foldl_announcePrefix {addr nbr : IPAddress} {rid : UInt32} {attrs : PathAttribute}
    (h : rejects cfg o addr nbr rid attrs = false) (ns : List (NlriPath ν)) (n' : NlriPath ν)
    (rid' : UInt32) (acc : AddressFamilyInstance ν × List ν) :
    (ns.foldl (announcePrefix cfg o addr nbr rid attrs) acc).1.inView f rid' n' =
      if rid' = rid ∧ n' ∈ ns then some (f (inboundRoute cfg o addr nbr rid attrs))
      else acc.1.inView f rid' n' := by
  induction ns generalizing acc with
  | nil => simp
  | cons n ns ih =>
    rw [List.foldl_cons, ih, inView_announcePrefix cfg o hf h]
    by_cases hr : rid' = rid
    · by_cases hn : n' = n
      · simp [hr, hn]
      · simp [hr, hn]
    · simp [hr]

theorem inView_takeUpdate (s : AddressFamilyInstance ν) (addr nbr : IPAddress) (rid rid' : UInt32)
    (update : ParsedUpdate ν) (n : NlriPath ν) :
    (s.takeUpdate cfg o addr nbr rid update).1.inView f rid' n =
      if rid' = rid then
        match update.attrs with
        | none => without (s.inView f rid) update.withdrawn n
        | some attrs =>
          if n ∈ update.announcements ∧ rejects cfg o addr nbr rid attrs = false then
            some (f (inboundRoute cfg o addr nbr rid attrs))
          else without (s.inView f rid) update.withdrawn n
      else s.inView f rid' n := by
  have hwithdrawn (s : AddressFamilyInstance ν) :
      (update.withdrawn.foldl (fun s n => s.withdrawPath rid n) s).inView f rid' n =
        if rid' = rid then without (s.inView f rid) update.withdrawn n else s.inView f rid' n := by
    simp only [inView, lookup_foldl_withdrawPath, without]
    by_cases hr : rid' = rid
    · subst hr
      by_cases hn : n ∈ update.withdrawn <;> simp [hn]
    · simp [hr]
  unfold takeUpdate
  cases hattrs : update.attrs with
  | none => exact hwithdrawn s
  | some attrs =>
    simp only
    cases hrejects : rejects cfg o addr nbr rid attrs with
    | true =>
      rw [foldl_announcePrefix_of_rejects cfg o hrejects]
      simpa using hwithdrawn s
    | false =>
      rw [inView_foldl_announcePrefix cfg o hf hrejects]
      by_cases hr : rid' = rid
      · by_cases hn : n ∈ update.announcements
        · simp [hr, hn]
        · simpa [hr, hn] using hwithdrawn s
      · simpa [hr] using hwithdrawn s

end View

theorem inAttrs_takeUpdate (s : AddressFamilyInstance ν) (addr nbr : IPAddress) (rid rid' : UInt32)
    (update : ParsedUpdate ν) (n : NlriPath ν) :
    (s.takeUpdate cfg o addr nbr rid update).1.inAttrs rid' n =
      if rid' = rid then
        match update.attrs with
        | none => without (s.inAttrs rid) update.withdrawn n
        | some attrs =>
          if n ∈ update.announcements ∧ rejects cfg o addr nbr rid attrs = false then some attrs
          else without (s.inAttrs rid) update.withdrawn n
      else s.inAttrs rid' n :=
  inView_takeUpdate cfg o (fun _ _ => rfl) s addr nbr rid rid' update n

theorem onParsedUpdateFromPeer_sameIn {s : AddressFamilyInstance ν} {addr nbr : IPAddress}
    (hnbr : s.peers (s.ridOf addr) = some nbr) (update : ParsedUpdate ν) :
    SameIn (s.takeUpdate cfg o addr nbr (s.ridOf addr) update).1
      (s.onParsedUpdateFromPeer cfg o addr update) := by
  simp only [onParsedUpdateFromPeer, hnbr]
  exact (enforceMaximumPrefix_sameIn cfg _ addr nbr _).trans (recomputeAll_sameIn cfg o _ _)

theorem onParsedUpdateFromPeer_inAttrs {s : AddressFamilyInstance ν} {addr nbr : IPAddress}
    (hnbr : s.peers (s.ridOf addr) = some nbr) (update : ParsedUpdate ν) :
    (s.onParsedUpdateFromPeer cfg o addr update).inAttrs =
      (s.takeUpdate cfg o addr nbr (s.ridOf addr) update).1.inAttrs :=
  (onParsedUpdateFromPeer_sameIn cfg o hnbr update).inAttrs

theorem onParsedUpdateFromPeer_peers (s : AddressFamilyInstance ν) (addr : IPAddress)
    (update : ParsedUpdate ν) :
    (s.onParsedUpdateFromPeer cfg o addr update).neighbors = s.neighbors ∧
      (s.onParsedUpdateFromPeer cfg o addr update).peers = s.peers := by
  cases hnbr : s.peers (s.ridOf addr) with
  | none =>
    have hstay : s.onParsedUpdateFromPeer cfg o addr update = s := by
      simp only [onParsedUpdateFromPeer, hnbr]
    rw [hstay]
    exact ⟨rfl, rfl⟩
  | some nbr =>
    have hedit := takeUpdate_inEdit cfg o s addr nbr (s.ridOf addr) update
    have hsame := onParsedUpdateFromPeer_sameIn cfg o hnbr update
    exact ⟨hsame.neighbors.trans hedit.neighbors, hsame.peers.trans hedit.peers⟩

end Tables

end AddressFamilyInstance

/-! ## The latest announcements -/

/-- An UPDATE of the neighbor at `addr`. -/
structure UpdateInput (ν : Type) where
  cfg : Config ν
  oracle : Oracle ν
  addr : IPAddress
  update : ParsedUpdate ν

/-- What a peer has announced after an UPDATE: first what it withdraws goes, then each announcement
    takes the place of what was there, with nothing if the policy rejects it. -/
def replaceAll (accepts : PathAttribute → Bool) (view : NlriPath ν → Option PathAttribute)
    (update : ParsedUpdate ν) (n : NlriPath ν) : Option PathAttribute :=
  match update.attrs with
  | none => without view update.withdrawn n
  | some attrs =>
    if n ∈ update.announcements then if accepts attrs then some attrs else none
    else without view update.withdrawn n

namespace AddressFamilyInstance

def updateStep (s : AddressFamilyInstance ν) (i : UpdateInput ν) : AddressFamilyInstance ν :=
  s.step ⟨i.cfg, i.oracle, .update i.addr i.update⟩

/-- One UPDATE on what the peers have announced; the neighbors are those of `s`. -/
def latestStep (s : AddressFamilyInstance ν) (view : UInt32 → NlriPath ν → Option PathAttribute)
    (i : UpdateInput ν) : UInt32 → NlriPath ν → Option PathAttribute :=
  match s.peers (s.ridOf i.addr) with
  | none => view
  | some nbr =>
    Function.update view (s.ridOf i.addr)
      (replaceAll (fun attrs => !rejects i.cfg i.oracle i.addr nbr (s.ridOf i.addr) attrs)
        (view (s.ridOf i.addr)) i.update)

/-- At each point of the run the tables are the latest announcements. -/
def HoldsLatest (s : AddressFamilyInstance ν) (is : List (UpdateInput ν)) : Prop :=
  ∀ ps, ps <+: is → (runFrom updateStep s ps).inAttrs = runFrom (latestStep s) s.inAttrs ps

/-- The UPDATE has no announcement that the policy rejects for a route that the table holds and the
    UPDATE does not withdraw. -/
def ReplacesNone (s : AddressFamilyInstance ν) (i : UpdateInput ν) : Prop :=
  ∀ nbr attrs, s.peers (s.ridOf i.addr) = some nbr → i.update.attrs = some attrs →
    rejects i.cfg i.oracle i.addr nbr (s.ridOf i.addr) attrs = true →
    ∀ n ∈ i.update.announcements, n ∉ i.update.withdrawn →
      s.adjRibIn.lookup ⟨s.ridOf i.addr, n⟩ = none

theorem updateStep_inAttrs_iff (s : AddressFamilyInstance ν) (i : UpdateInput ν) :
    (updateStep s i).inAttrs = latestStep s s.inAttrs i ↔ ReplacesNone s i := by
  unfold ReplacesNone latestStep
  cases hnbr : s.peers (s.ridOf i.addr) with
  | none =>
    have : updateStep s i = s := by simp only [updateStep, step, onParsedUpdateFromPeer, hnbr]
    simp [this]
  | some nbr =>
    have hstep : (updateStep s i).inAttrs =
        (s.takeUpdate i.cfg i.oracle i.addr nbr (s.ridOf i.addr) i.update).1.inAttrs :=
      onParsedUpdateFromPeer_inAttrs i.cfg i.oracle hnbr i.update
    rw [hstep]
    dsimp only
    constructor
    · rintro heq _ attrs ⟨⟩ hattrs hrejects n hn hnw
      have h := congrFun (congrFun heq (s.ridOf i.addr)) n
      rw [inAttrs_takeUpdate, Function.update_self] at h
      simp only [hattrs, hrejects, replaceAll, hn, if_true, without, if_neg hnw] at h
      simpa [inAttrs] using h
    · intro hnone
      funext rid n
      rw [inAttrs_takeUpdate]
      by_cases hr : rid = s.ridOf i.addr
      · subst hr
        rw [Function.update_self, if_pos rfl, replaceAll]
        cases hattrs : i.update.attrs with
        | none => rfl
        | some attrs =>
          simp only
          by_cases hn : n ∈ i.update.announcements
          · cases hrejects : rejects i.cfg i.oracle i.addr nbr (s.ridOf i.addr) attrs with
            | false => simp [hn]
            | true =>
              have hlookup := hnone nbr attrs rfl hattrs hrejects n hn
              by_cases hnw : n ∈ i.update.withdrawn
              · simp [hn, without, hnw]
              · simp [hn, without, hnw, inAttrs, hlookup hnw]
          · simp [hn]
      · rw [if_neg hr, Function.update_of_ne hr]

theorem updateStep_peers (s : AddressFamilyInstance ν) (i : UpdateInput ν) :
    (updateStep s i).neighbors = s.neighbors ∧ (updateStep s i).peers = s.peers :=
  onParsedUpdateFromPeer_peers i.cfg i.oracle s i.addr i.update

theorem runFrom_updateStep_peers (s : AddressFamilyInstance ν) (is : List (UpdateInput ν)) :
    (runFrom updateStep s is).neighbors = s.neighbors ∧ (runFrom updateStep s is).peers = s.peers := by
  induction is generalizing s with
  | nil => exact ⟨rfl, rfl⟩
  | cons i is ih =>
    have h := ih (updateStep s i)
    have h' := updateStep_peers s i
    exact ⟨h.1.trans h'.1, h.2.trans h'.2⟩

theorem holdsLatest_concat (s : AddressFamilyInstance ν) (is : List (UpdateInput ν))
    (i : UpdateInput ν) :
    HoldsLatest s (is ++ [i]) ↔ HoldsLatest s is ∧ ReplacesNone (runFrom updateStep s is) i := by
  have hlast (h : HoldsLatest s is) :
      (runFrom updateStep s (is ++ [i])).inAttrs = runFrom (latestStep s) s.inAttrs (is ++ [i]) ↔
        ReplacesNone (runFrom updateStep s is) i := by
    obtain ⟨hn, hp⟩ := runFrom_updateStep_peers s is
    rw [runFrom_concat, runFrom_concat, ← updateStep_inAttrs_iff, ← h is (List.prefix_refl is)]
    -- the neighbors are those of the start
    simp only [latestStep, ridOf, hn, hp]
  constructor
  · intro h
    have his : HoldsLatest s is := fun ps hps => h ps (hps.trans (List.prefix_append is [i]))
    exact ⟨his, (hlast his).1 (h _ (List.prefix_refl _))⟩
  · rintro ⟨his, hi⟩ ps hps
    rcases List.prefix_concat_iff.1 hps with rfl | hps
    · exact (hlast his).2 hi
    · exact his ps hps

/-- **Adj-RIB-In holds the latest announcements** along a run of UPDATEs, from any state and of any
    peers, iff no UPDATE has a rejected announcement for a route in the table. -/
theorem holdsLatest_iff (s : AddressFamilyInstance ν) (is : List (UpdateInput ν)) :
    HoldsLatest s is ↔ Along ReplacesNone updateStep s is := by
  induction is using List.reverseRecOn with
  | nil =>
    refine iff_of_true (fun ps hps => ?_) trivial
    rw [List.prefix_nil.1 hps]
    rfl
  | append_singleton is i ih => rw [holdsLatest_concat, along_concat, ih]

def sampleUpdateInput (asns : List UInt32) : UpdateInput (UInt32 × UInt8) :=
  ⟨sampleConfig, sampleOracle, sampleNbr, sampleUpdate asns 0xC0000201⟩

/-- The peer replaces its route by one with our AS number in the path; the policy rejects that, and
    the route before it stays. -/
theorem not_holdsLatest_sample :
    ¬ HoldsLatest sampleInstance [sampleUpdateInput [65001], sampleUpdateInput [65001, 65000]] := by
  intro h
  have hpoint := congrFun (congrFun (h _ (List.prefix_refl _)) 7) ⟨samplePrefix, 0⟩
  revert hpoint
  decide +kernel

end AddressFamilyInstance

end VirtualRouter.Bgp
