/-
  Adj-RIB-Out over runs.

  The tables are kept by the router id of the peer, the messages by neighbor.
  `Mirrored` says of each established session that the UPDATEs sent on it add up
  to the table of its router id.  Two sessions with the same router id share a
  table, and an entry that one of them was sent is not sent to the other.

  * `Mirrors`: the invariant, which also says that what no session uses is
    empty;
  * `mirrored_run`: the tables mirror the peers in every run in which no session
    is established with the router id of another.
-/
import VirtualRouter.Bgp.AdjRibIn

namespace VirtualRouter.Bgp

open EntryTable Run

variable {ν : Type} [DecidableEq ν]

/-! ## The invariant -/

def UniqueRids (ses : IPAddress → Option PeerSession) : Prop :=
  ∀ a b sa sb, ses a = some sa → ses b = some sb → sa.peerRid = sb.peerRid → a = b

/-- The table of each session is what was sent on it, and the rest is empty. -/
structure Mirrors (ses : IPAddress → Option PeerSession) (out : OutState ν) : Prop where
  session : ∀ a sa, ses a = some sa → Represents (out.adjRibOut sa.peerRid) (viewAfter (out.sent a))
  sent_none : ∀ a, ses a = none → out.sent a = []
  table_none : ∀ rid, (∀ a sa, ses a = some sa → sa.peerRid ≠ rid) → out.adjRibOut rid = []

section Mirrors
variable {ses : IPAddress → Option PeerSession} {out out' : OutState ν}

theorem Mirrors.of_eq (h : Mirrors ses out) (ht : out'.adjRibOut = out.adjRibOut)
    (hs : out'.sent = out.sent) : Mirrors ses out' where
  session a sa ha := by rw [ht, hs]; exact h.session a sa ha
  sent_none a ha := by rw [hs]; exact h.sent_none a ha
  table_none rid hrid := by rw [ht]; exact h.table_none rid hrid

theorem Mirrors.inStep (huniq : UniqueRids ses) (h : Mirrors ses out) {addr : IPAddress}
    {sa : PeerSession} (ha : ses addr = some sa) {nlri : ν}
    (hstep : InStep nlri addr sa.peerRid out out') : Mirrors ses out' where
  session b sb hb := by
    by_cases hab : b = addr
    · subst hab
      obtain rfl : sa = sb := Option.some.inj (ha.symm.trans hb)
      obtain ⟨us, hsent, hmirrors⟩ := hstep.mirrors
      rw [hsent, viewAfter, List.foldl_append]
      exact hmirrors _ (h.session b sa ha)
    · have hrid : sb.peerRid ≠ sa.peerRid := fun hr => hab (huniq b addr sb sa hb ha hr)
      rw [hstep.sent_other b hab, hstep.table_other _ hrid]
      exact h.session b sb hb
  sent_none b hb := by
    have hab : b ≠ addr := by
      rintro rfl
      cases ha.symm.trans hb
    rw [hstep.sent_other b hab]
    exact h.sent_none b hb
  table_none rid hrid := by
    rw [hstep.table_other rid (hrid addr sa ha).symm]
    exact h.table_none rid hrid

/-- A new session with a router id that is not in use. -/
theorem Mirrors.establish (h : Mirrors ses out) {addr : IPAddress} (sa : PeerSession)
    (hnone : ses addr = none) (hfresh : ∀ b sb, ses b = some sb → sb.peerRid ≠ sa.peerRid) :
    Mirrors (Function.update ses addr (some sa)) out where
  session b sb hb := by
    by_cases hab : b = addr
    · subst hab
      rw [Function.update_self] at hb
      obtain rfl := Option.some.inj hb
      rw [h.sent_none b hnone, h.table_none _ hfresh]
      exact .nil
    · rw [Function.update_of_ne hab] at hb
      exact h.session b sb hb
  sent_none b hb := by
    have hab : b ≠ addr := by
      rintro rfl
      rw [Function.update_self] at hb
      cases hb
    rw [Function.update_of_ne hab] at hb
    exact h.sent_none b hb
  table_none rid hrid := by
    refine h.table_none rid fun b sb hb => hrid b sb ?_
    have hab : b ≠ addr := by
      rintro rfl
      cases hnone.symm.trans hb
    rw [Function.update_of_ne hab]
    exact hb

/-- The end of a session: its log and its table are emptied. -/
theorem Mirrors.close (huniq : UniqueRids ses) (h : Mirrors ses out) {addr : IPAddress}
    {sa : PeerSession} (ha : ses addr = some sa)
    (hs : out'.sent = Function.update out.sent addr [])
    (ht : out'.adjRibOut = Function.update out.adjRibOut sa.peerRid []) :
    Mirrors (Function.update ses addr none) out' where
  session b sb hb := by
    have hab : b ≠ addr := by
      rintro rfl
      rw [Function.update_self] at hb
      cases hb
    rw [Function.update_of_ne hab] at hb
    have hrid : sb.peerRid ≠ sa.peerRid := fun hr => hab (huniq b addr sb sa hb ha hr)
    rw [hs, ht, Function.update_of_ne hab, Function.update_of_ne hrid]
    exact h.session b sb hb
  sent_none b hb := by
    by_cases hab : b = addr
    · rw [hs, hab, Function.update_self]
    · rw [Function.update_of_ne hab] at hb
      rw [hs, Function.update_of_ne hab]
      exact h.sent_none b hb
  table_none rid hrid := by
    by_cases hr : rid = sa.peerRid
    · rw [ht, hr, Function.update_self]
    · rw [ht, Function.update_of_ne hr]
      refine h.table_none rid fun b sb hb => ?_
      by_cases hab : b = addr
      · subst hab
        obtain rfl : sa = sb := Option.some.inj (ha.symm.trans hb)
        exact fun h => hr h.symm
      · exact hrid b sb (by rw [Function.update_of_ne hab]; exact hb)

theorem UniqueRids.close (h : UniqueRids ses) (addr : IPAddress) :
    UniqueRids (Function.update ses addr none) := by
  intro a b sa sb ha hb hr
  have hne {c : IPAddress} {sc : PeerSession} (hc : Function.update ses addr none c = some sc) :
      c ≠ addr := by
    rintro rfl
    rw [Function.update_self] at hc
    cases hc
  rw [Function.update_of_ne (hne ha)] at ha
  rw [Function.update_of_ne (hne hb)] at hb
  exact h a b sa sb ha hb hr

theorem UniqueRids.establish (h : UniqueRids ses) {addr : IPAddress} (sa : PeerSession)
    (hfresh : ∀ b sb, ses b = some sb → sb.peerRid ≠ sa.peerRid) :
    UniqueRids (Function.update ses addr (some sa)) := by
  intro a b sa' sb ha hb hr
  by_cases haa : a = addr
  · by_cases hba : b = addr
    · rw [haa, hba]
    · subst haa
      rw [Function.update_self] at ha
      rw [Function.update_of_ne hba] at hb
      obtain rfl := Option.some.inj ha
      exact absurd hr.symm (hfresh b sb hb)
  · rw [Function.update_of_ne haa] at ha
    by_cases hba : b = addr
    · subst hba
      rw [Function.update_self] at hb
      obtain rfl := Option.some.inj hb
      exact absurd hr (hfresh a sa' ha)
    · rw [Function.update_of_ne hba] at hb
      exact h a b sa' sb ha hb hr

end Mirrors

namespace AddressFamilyInstance

/-! ## The recomputation -/

/-- The invariant of the instance. -/
structure OutInv (s : AddressFamilyInstance ν) : Prop where
  unique : UniqueRids s.sessionOf
  mirrors : Mirrors s.sessionOf s.out

section Recompute
variable {s s' : AddressFamilyInstance ν} (cfg : Config ν) (o : Oracle ν)

theorem OutInv.of_eq (h : OutInv s) (hn : s'.sessionOf = s.sessionOf)
    (ht : s'.out.adjRibOut = s.out.adjRibOut) (hs : s'.out.sent = s.out.sent) : OutInv s' where
  unique := by rw [hn]; exact h.unique
  mirrors := by rw [hn]; exact h.mirrors.of_eq ht hs

omit [DecidableEq ν] in
theorem sessionOf_eq (hn : s'.neighbors = s.neighbors) : s'.sessionOf = s.sessionOf := by
  funext a
  rw [sessionOf, hn, sessionOf]

omit [DecidableEq ν] in
theorem sessionOf_of_mem {e : (_ : IPAddress) × NeighborState} (he : e ∈ s.neighbors.entries) :
    s.sessionOf e.1 = e.2.session := by
  rw [sessionOf, AList.mem_lookup_iff.2 (by simpa using he)]
  rfl

theorem advertiseRound_mirrors (h : OutInv s) {nlri : ν} {best : Option LocalRoute} {out : OutState ν}
    (hout : Mirrors s.sessionOf out) {e : (_ : IPAddress) × NeighborState}
    (he : e ∈ s.neighbors.entries) :
    Mirrors s.sessionOf (s.advertiseRound cfg o nlri best out e) := by
  unfold advertiseRound
  cases hs : e.2.session with
  | none => exact hout
  | some sa =>
    exact hout.inStep h.unique ((sessionOf_of_mem he).trans hs) (advertiseTo_inStep cfg o _ best sa)

theorem recomputeAdjRibOut_outInv (h : OutInv s) (nlri : ν) (best : Option LocalRoute) :
    OutInv (s.recomputeAdjRibOut cfg o nlri best) := by
  refine ⟨h.unique, ?_⟩
  have hfold : ∀ (l : List ((_ : IPAddress) × NeighborState)), (∀ e ∈ l, e ∈ s.neighbors.entries) →
      ∀ out, Mirrors s.sessionOf out →
        Mirrors s.sessionOf (l.foldl (s.advertiseRound cfg o nlri best) out) := by
    intro l
    induction l with
    | nil => exact fun _ _ hout => hout
    | cons e l ih =>
      intro hl out hout
      exact ih (fun e' he' => hl e' (.tail _ he')) _
        (advertiseRound_mirrors cfg o h hout (hl e (.head _)))
  exact hfold _ (fun e he => (o.order_perm _).mem_iff.1 he) _ h.mirrors

theorem installToRib_out (s : AddressFamilyInstance ν) (nlri : ν) (best : LocalRoute) :
    (s.installToRib cfg o nlri best).out = s.out := by
  simp only [installToRib, registerNht]
  split <;> split <;> rfl

theorem withdrawFromRib_out (s : AddressFamilyInstance ν) (nlri : ν) :
    (s.withdrawFromRib nlri).out = s.out := by
  simp only [withdrawFromRib, unregisterNht]
  split
  · rfl
  · split <;> rfl

theorem recomputeNlri_outInv (h : OutInv s) (nlri : ν) : OutInv (s.recomputeNlri cfg o nlri) := by
  unfold recomputeNlri
  split
  · exact h
  · refine recomputeAdjRibOut_outInv cfg o (h.of_eq ?_ ?_ ?_) nlri none
    · exact sessionOf_eq (withdrawFromRib_sameIn s nlri).neighbors
    · exact congrArg OutState.adjRibOut (withdrawFromRib_out s nlri)
    · exact congrArg OutState.sent (withdrawFromRib_out s nlri)
  · rename_i best entry
    simp only
    have hout := recomputeAdjRibOut_outInv cfg o
      (s := { s with locRib := s.locRib.insert nlri best }) (h.of_eq rfl rfl rfl) nlri (some best)
    split
    · exact h
    · split
      · refine hout.of_eq (sessionOf_eq (installToRib_sameIn cfg o _ nlri best).neighbors) ?_ ?_
        · exact congrArg OutState.adjRibOut (installToRib_out cfg o _ nlri best)
        · exact congrArg OutState.sent (installToRib_out cfg o _ nlri best)
      · exact hout

theorem OutInv.foldl {β : Type} {f : AddressFamilyInstance ν → β → AddressFamilyInstance ν}
    (hf : ∀ s b, OutInv s → OutInv (f s b)) (l : List β) {s : AddressFamilyInstance ν}
    (h : OutInv s) : OutInv (l.foldl f s) := by
  induction l generalizing s with
  | nil => exact h
  | cons b l ih => exact ih (hf s b h)

theorem recomputeAll_outInv (h : OutInv s) (touched : List ν) :
    OutInv (s.recomputeAll cfg o touched) :=
  OutInv.foldl (fun _ nlri h => recomputeNlri_outInv cfg o h nlri) _ h

theorem scan_outInv (h : OutInv s) : OutInv (s.scan cfg o) :=
  OutInv.foldl (f := fun s (e : (_ : ν) × LocalRoute) => s.recomputeAdjRibOut cfg o e.1 (some e.2))
    (fun _ e h => recomputeAdjRibOut_outInv cfg o h e.1 (some e.2)) _ h

theorem InEdit.outInv (hedit : InEdit s s') (h : OutInv s) : OutInv s' :=
  h.of_eq (sessionOf_eq hedit.neighbors) (congrArg OutState.adjRibOut hedit.out)
    (congrArg OutState.sent hedit.out)

/-! ## The events -/

theorem onParsedUpdateFromPeer_outInv (h : OutInv s) (addr : IPAddress) (update : ParsedUpdate ν) :
    OutInv (s.onParsedUpdateFromPeer cfg o addr update) := by
  unfold onParsedUpdateFromPeer
  split
  · exact h
  · rename_i nbr hnbr
    have hedit := (takeUpdate_inEdit cfg o s addr nbr (s.ridOf addr) update).outInv h
    refine recomputeAll_outInv cfg o (hedit.of_eq ?_ ?_ ?_) _
    · exact sessionOf_eq (enforceMaximumPrefix_sameIn cfg _ addr nbr _).neighbors
    · exact congrArg OutState.adjRibOut (enforceMaximumPrefix_ribs cfg _ addr nbr _).2.2
    · exact congrArg OutState.sent (enforceMaximumPrefix_ribs cfg _ addr nbr _).2.2

theorem StaleEdit.outInv (hedit : StaleEdit s s') (h : OutInv s) : OutInv s' :=
  h.of_eq (sessionOf_eq hedit.neighbors) (congrArg OutState.adjRibOut hedit.out)
    (congrArg OutState.sent hedit.out)

theorem purgeStalePeer_outInv (h : OutInv s) (rid : UInt32) :
    OutInv (s.purgeStalePeer cfg o rid) := by
  unfold purgeStalePeer
  split
  · exact h
  · split
    · exact h
    · exact recomputeAll_outInv cfg o ((dropStale_inEdit s rid _).outInv h) _

theorem onStaleTimer_outInv (h : OutInv s) (rid : UInt32) (timer : StaleTimer) :
    OutInv (s.onStaleTimer cfg o rid timer) := by
  have hset (timers : Option StaleTimers) :
      OutInv { s with staleTimers := Function.update s.staleTimers rid timers } :=
    h.of_eq rfl rfl rfl
  unfold onStaleTimer
  split
  · exact purgeStalePeer_outInv cfg o (hset _) rid
  · exact purgeStalePeer_outInv cfg o (hset _) rid
  · exact h

theorem onPeerBorr_outInv (h : OutInv s) (rid : UInt32) : OutInv (s.onPeerBorr rid) :=
  ((cancelStaleTimers_staleEdit s rid).outInv h).of_eq rfl rfl rfl

theorem onPeerEorr_outInv (h : OutInv s) (rid : UInt32) : OutInv (s.onPeerEorr cfg o rid) :=
  purgeStalePeer_outInv cfg o ((cancelStaleTimers_staleEdit s rid).outInv h) rid

theorem onNetworkRibChanged_outInv (h : OutInv s) (nlri : ν) (reachable : Bool) :
    OutInv (s.onNetworkRibChanged cfg o nlri reachable) := by
  refine recomputeNlri_outInv cfg o ?_ nlri
  unfold setNetwork
  cases reachable <;> exact h.of_eq rfl rfl rfl

theorem drainMraiPending_outInv (h : OutInv s) (rid : UInt32) :
    OutInv (s.drainMraiPending cfg o rid) := by
  simp only [drainMraiPending]
  split
  · exact h
  · have hstart : OutInv { s with
        out := { s.out.setMrai rid ⟨o.now, [], false⟩ with mraiBypassPeer := rid } } :=
      h.of_eq rfl rfl rfl
    have hloop := OutInv.foldl
      (f := fun s nlri => s.recomputeAdjRibOut cfg o nlri (s.locRib.lookup nlri))
      (fun _ nlri h => recomputeAdjRibOut_outInv cfg o h nlri _)
      (o.order (s.out.mraiState rid).pending) hstart
    exact hloop.of_eq rfl rfl rfl

theorem onNhtChange_outInv (h : OutInv s) (nh : IPAddress) (reachable : Bool) :
    OutInv (s.onNhtChange nh reachable) := by
  unfold onNhtChange
  split
  · exact h
  · split
    · exact h
    · exact h.of_eq rfl rfl rfl

theorem processNhtPending_outInv (h : OutInv s) : OutInv (s.processNhtPending cfg o) :=
  recomputeAll_outInv cfg o (s := { s with pendingNhtRecompute := [] }) (h.of_eq rfl rfl rfl) _

/-! ### Sessions -/

omit [DecidableEq ν] in
theorem sessionOf_insert {addr : IPAddress} {n : NeighborState}
    (hn : s'.neighbors = s.neighbors.insert addr n) :
    s'.sessionOf = Function.update s.sessionOf addr n.session := by
  funext a
  by_cases ha : a = addr
  · subst ha
    rw [sessionOf, hn, AList.lookup_insert, Function.update_self]
    rfl
  · rw [sessionOf, hn, AList.lookup_insert_ne ha, Function.update_of_ne ha, sessionOf]

omit [DecidableEq ν] in
theorem clearRid_sessionOf (s : AddressFamilyInstance ν) (addr : IPAddress) :
    (s.clearRid addr).sessionOf = s.sessionOf := by
  rw [sessionOf_insert (s := s) rfl]
  refine Function.update_eq_self_iff.2 ?_
  unfold sessionOf
  cases s.neighbors.lookup addr <;> rfl

theorem clearRid_outInv (h : OutInv s) (addr : IPAddress) : OutInv (s.clearRid addr) :=
  h.of_eq (clearRid_sessionOf s addr) rfl rfl

theorem deactivatePeer_outInv (h : OutInv s) (rid : UInt32) : OutInv (s.deactivatePeer rid) := by
  unfold deactivatePeer
  split
  · exact h
  · exact (clearRid_outInv h _).of_eq rfl rfl rfl

omit [DecidableEq ν] in
theorem dropPeerState_out (s : AddressFamilyInstance ν) (rid : UInt32) :
    (s.dropPeerState rid).neighbors = s.neighbors ∧ (s.dropPeerState rid).out.sent = s.out.sent ∧
      (s.dropPeerState rid).out.adjRibOut = Function.update s.out.adjRibOut rid [] := by
  simp only [dropPeerState, cancelStaleTimers]
  split <;> split <;> exact ⟨rfl, rfl, rfl⟩

omit [DecidableEq ν] in
theorem closeSession_sessionOf (s : AddressFamilyInstance ν) (addr : IPAddress) (rid : UInt32) :
    ((s.closeSession addr).dropPeerState rid).sessionOf = Function.update s.sessionOf addr none :=
  (sessionOf_eq (dropPeerState_out (s.closeSession addr) rid).1).trans
    (sessionOf_insert (n := { (s.neighbors.lookup addr).getD {} with session := none }) rfl)

omit [DecidableEq ν] in
theorem establish_sessionOf (s : AddressFamilyInstance ν) (addr : IPAddress) (ses : PeerSession)
    (peers : UInt32 → Option IPAddress) :
    sessionOf { s with
      neighbors := s.neighbors.insert addr ⟨ses.peerRid, some ses⟩, peers := peers } =
      Function.update s.sessionOf addr (some ses) :=
  sessionOf_insert (n := ⟨ses.peerRid, some ses⟩) rfl

theorem closeSession_outInv (h : OutInv s) {addr : IPAddress} {ses : PeerSession}
    (hses : s.sessionOf addr = some ses) :
    OutInv ((s.closeSession addr).dropPeerState ses.peerRid) := by
  obtain ⟨-, hsent, htable⟩ := dropPeerState_out (s.closeSession addr) ses.peerRid
  refine ⟨?_, ?_⟩
  · rw [closeSession_sessionOf]
    exact h.unique.close addr
  · rw [closeSession_sessionOf]
    exact h.mirrors.close h.unique hses hsent htable

theorem onSessionDown_outInv (h : OutInv s) (addr : IPAddress) :
    OutInv (s.onSessionDown cfg o addr) := by
  unfold onSessionDown
  split
  · exact h
  · rename_i ses hses
    have hdrop := (dropPeer_inEdit _ ses.peerRid).outInv (closeSession_outInv h hses)
    exact clearRid_outInv (deactivatePeer_outInv (recomputeAll_outInv cfg o hdrop _) _) addr

/-- A session is established with a router id that no other session has. -/
def FreshRid (s : AddressFamilyInstance ν) (i : AfInput ν) : Prop :=
  match i.event with
  | .established addr ses =>
    s.sessionOf addr = none → ∀ e ∈ s.neighbors.entries, e.2.session.all (·.peerRid ≠ ses.peerRid)
  | _ => True

omit [DecidableEq ν] in
theorem FreshRid.sessionOf {i : AfInput ν} {addr : IPAddress} {ses : PeerSession}
    (hfresh : FreshRid s i) (hi : i.event = .established addr ses) (hnone : s.sessionOf addr = none)
    (b : IPAddress) (sb : PeerSession) (hb : s.sessionOf b = some sb) : sb.peerRid ≠ ses.peerRid := by
  simp only [FreshRid, hi] at hfresh
  obtain ⟨n, hn, hsb⟩ := Option.bind_eq_some_iff.1 hb
  have := hfresh hnone ⟨b, n⟩ (AList.mem_lookup_iff.1 hn)
  simpa [hsb] using this

theorem onSessionEstablished_outInv (h : OutInv s) {addr : IPAddress} {ses : PeerSession}
    (hfresh : s.sessionOf addr = none → ∀ b sb, s.sessionOf b = some sb → sb.peerRid ≠ ses.peerRid) :
    OutInv (s.onSessionEstablished cfg o addr ses) := by
  have hinsert (sa : PeerSession) (peers : UInt32 → Option IPAddress)
      (hinv : UniqueRids (Function.update s.sessionOf addr (some sa)) ∧
        Mirrors (Function.update s.sessionOf addr (some sa)) s.out) :
      OutInv { s with neighbors := s.neighbors.insert addr ⟨sa.peerRid, some sa⟩, peers := peers } := by
    rw [← establish_sessionOf s addr sa peers] at hinv
    exact ⟨hinv.1, hinv.2⟩
  have hstart : OutInv { s with
      neighbors := s.neighbors.insert addr
        ⟨((s.sessionOf addr).getD ses).peerRid, some ((s.sessionOf addr).getD ses)⟩
      peers := Function.update s.peers ((s.sessionOf addr).getD ses).peerRid (some addr) } := by
    cases hses : s.sessionOf addr with
    | none =>
      exact hinsert ses _ ⟨h.unique.establish ses (hfresh hses),
        h.mirrors.establish ses hses (hfresh hses)⟩
    | some sa =>
      -- the session stays
      refine hinsert sa _ ?_
      rw [← hses, Function.update_eq_self]
      exact ⟨h.unique, h.mirrors⟩
  simp only [onSessionEstablished]
  split
  · exact scan_outInv cfg o hstart
  · exact hstart

theorem onUpdateDelay_outInv (h : OutInv s) (addr : IPAddress) :
    OutInv (s.onUpdateDelay cfg o addr) := by
  unfold onUpdateDelay
  split
  · split
    · exact scan_outInv cfg o h
    · exact h
  · exact h

end Recompute

theorem step_outInv (s : AddressFamilyInstance ν) (i : AfInput ν) (h : OutInv s)
    (hfresh : FreshRid s i) : OutInv (s.step i) := by
  unfold step
  cases hi : i.event with
  | update addr update => exact onParsedUpdateFromPeer_outInv i.cfg i.oracle h addr update
  | established addr ses =>
    exact onSessionEstablished_outInv i.cfg i.oracle h fun hnone => hfresh.sessionOf hi hnone
  | updateDelay addr => exact onUpdateDelay_outInv i.cfg i.oracle h addr
  | sessionDown addr => exact onSessionDown_outInv i.cfg i.oracle h addr
  | borr addr =>
    simp only
    split
    · exact onPeerBorr_outInv h _
    · exact h
  | eorr addr =>
    simp only
    split
    · exact onPeerEorr_outInv i.cfg i.oracle h _
    · exact h
  | staleTimer rid timer => exact onStaleTimer_outInv i.cfg i.oracle h rid timer
  | networkRibChanged nlri reachable => exact onNetworkRibChanged_outInv i.cfg i.oracle h nlri reachable
  | mraiTimer rid => exact drainMraiPending_outInv i.cfg i.oracle h rid
  | nhtChange nh reachable => exact onNhtChange_outInv h nh reachable
  | nhtTimer => exact processNhtPending_outInv i.cfg i.oracle h
  | scan => exact scan_outInv i.cfg i.oracle h

/-! ## Runs -/

/-- The table of every session is what the UPDATEs sent on it add up to. -/
def Mirrored (s : AddressFamilyInstance ν) : Prop :=
  ∀ addr ses, s.sessionOf addr = some ses →
    Represents (s.out.adjRibOut ses.peerRid) (viewAfter (s.out.sent addr))

theorem outInv_init : OutInv ({} : AddressFamilyInstance ν) where
  unique _ _ _ _ ha := by cases ha
  mirrors :=
    { session := by
        intro a sa ha
        cases ha
      sent_none := fun _ _ => rfl
      table_none := fun _ _ => rfl }

/-- **Adj-RIB-Out mirrors the peers** in every run in which the established sessions have different
    router ids. -/
theorem mirrored_run (is : List (AfInput ν)) (hrun : Along FreshRid step {} is) :
    Mirrored (runFrom step {} is) :=
  (hrun.invariant step_outInv outInv_init).mirrors.session

/-- Two sessions, a network route, and a route of one of the peers. -/
def sampleRun : List (AfInput (UInt32 × UInt8)) :=
  [sampleInput (.established sampleNbr sampleNbrSession),
    sampleInput (.established sampleNbr2 sampleNbr2Session),
    sampleInput (.networkRibChanged samplePrefix true),
    sampleInput (.update sampleNbr (sampleUpdate [65001] 0xC0000201)),
    sampleInput (.networkRibChanged samplePrefix false)]

instance (s : AddressFamilyInstance ν) (i : AfInput ν) : Decidable (FreshRid s i) := by
  unfold FreshRid
  split <;> infer_instance

theorem mirrored_sampleRun :
    Mirrored (runFrom step {} sampleRun) := mirrored_run sampleRun (by decide +kernel)

/-- Two sessions with the router id 7 and then a network route: the first is sent the route, and the
    second finds it in the table of both. -/
theorem not_mirrored_sample :
    ¬ Mirrored (runFrom step {}
      [sampleInput (.established sampleNbr { peerRid := 7 }),
        sampleInput (.established sampleNbr2 { peerRid := 7 }),
        sampleInput (.networkRibChanged samplePrefix true)]) := by
  intro h
  have hrep := h sampleNbr2 { peerRid := 7 } (by decide +kernel)
  have hmem := (hrep.mem_iff ⟨samplePrefix, 0⟩
    (egressAttrs sampleConfig sampleOracle sampleNbr { peerRid := 7 } false
      (networkRoute sampleConfig (sampleOracle (ν := UInt32 × UInt8)) 1))).1
  revert hmem
  decide +kernel

end AddressFamilyInstance

end VirtualRouter.Bgp
