/-
  The way of a withdrawal.

  `recomputeNlri` withdraws a prefix that lost its last candidate from the VRF
  table and from the peers if the Loc-RIB has an entry for it.  What takes a
  route out of Adj-RIB-In erases that entry first, so that the loss of the last
  route of a prefix is withdrawn from nowhere; a network route that goes leaves
  the entry in place.

  * `Settled`: the invariant, for one prefix;
  * `withdrawn_run`: without dampening, and with different router ids, prefixes
    without candidates are withdrawn in every run in which no event takes the
    last routes of a prefix that is installed or advertised.
-/
import VirtualRouter.Bgp.RecomputeNlri

namespace VirtualRouter.Bgp

open EntryTable Run

variable {ν : Type} [DecidableEq ν]

def NoEntry (out : OutState ν) (rid : UInt32) (n : ν) : Prop := ∀ e ∈ out.adjRibOut rid, e.1.nlri ≠ n

theorem NoEntry.withdrawFromPeer {out : OutState ν} {rid : UInt32} {n : ν} (h : NoEntry out rid n)
    (addr : IPAddress) (rid' : UInt32) : NoEntry (out.withdrawFromPeer addr rid' n) rid n := by
  intro e he
  by_cases hr : rid = rid'
  · subst hr
    exact mem_withdrawFromPeer he
  · have hstep : InStep n addr rid' out _ := withdrawFromPeer_inStep
    rw [hstep.table_other rid hr] at he
    exact h e he

def StaleTimers.runs (t : StaleTimers) : StaleTimer → Bool
  | .stalepath => t.stalepath
  | .maxEor => t.maxEor

def AfEvent.closes : AfEvent ν → Option IPAddress
  | .sessionDown addr => some addr
  | _ => none

namespace AddressFamilyInstance

/-- The prefix is neither installed nor advertised to a peer with an established session. -/
def Clean (s : AddressFamilyInstance ν) (n : ν) : Prop :=
  s.vrf n = none ∧ ∀ a ses, s.sessionOf a = some ses → NoEntry s.out ses.peerRid n

/-- The prefix is in the Loc-RIB only with a candidate, and elsewhere only with a Loc-RIB entry. -/
structure Settled (s : AddressFamilyInstance ν) (n : ν) : Prop where
  locRib : ¬ HasCandidate s n → s.locRib.lookup n = none
  clean : s.locRib.lookup n = none → Clean s n

section Recompute
variable {n : ν} {s s' : AddressFamilyInstance ν} (cfg : Config ν) (o : Oracle ν)

theorem SameAt.clean (h : SameAt n s s') : Clean s' n ↔ Clean s n := by
  unfold Clean NoEntry
  rw [h.vrf, h.sessionOf]
  refine and_congr_right fun _ => forall_congr' fun a => forall_congr' fun ses =>
    forall_congr' fun _ => ⟨fun hno e he hen => ?_, fun hno e he hen => ?_⟩
  · exact hno e ((h.entries _ e hen).2 he) hen
  · exact hno e ((h.entries _ e hen).1 he) hen

theorem SameAt.settled (h : SameAt n s s') (hs : Settled s n) : Settled s' n where
  locRib hno := by
    rw [h.locRib]
    exact hs.locRib fun hc => hno (h.hasCandidate.2 hc)
  clean hnone := by
    rw [h.locRib] at hnone
    exact h.clean.2 (hs.clean hnone)

theorem recomputeAdjRibOut_none_noEntry (s : AddressFamilyInstance ν) (n : ν) {a : IPAddress}
    {ses : PeerSession} (ha : s.sessionOf a = some ses) :
    NoEntry (s.recomputeAdjRibOut cfg o n none).out ses.peerRid n := by
  obtain ⟨nbr, hnbr, hses⟩ := Option.bind_eq_some_iff.1 ha
  have hmem : (⟨a, nbr⟩ : (_ : IPAddress) × NeighborState) ∈ o.order s.neighbors.entries :=
    (o.order_perm _).mem_iff.2 (AList.mem_lookup_iff.1 hnbr)
  have hkeep (x : (_ : IPAddress) × NeighborState) {out : OutState ν}
      (h : NoEntry out ses.peerRid n) :
      NoEntry (s.advertiseRound cfg o n none out x) ses.peerRid n := by
    unfold advertiseRound
    cases x.2.session with
    | none => exact h
    | some sx => exact h.withdrawFromPeer x.1 sx.peerRid
  have hloop (l : List ((_ : IPAddress) × NeighborState)) (out : OutState ν)
      (h : NoEntry out ses.peerRid n ∨ ⟨a, nbr⟩ ∈ l) :
      NoEntry (l.foldl (s.advertiseRound cfg o n none) out) ses.peerRid n := by
    induction l generalizing out with
    | nil => exact h.resolve_right List.not_mem_nil
    | cons x l ih =>
      refine ih _ ?_
      rcases h with h | h
      · exact .inl (hkeep x h)
      · rcases List.mem_cons.1 h with rfl | h
        · left
          simp only [advertiseRound, hses]
          exact fun e he => mem_withdrawFromPeer he
        · exact .inr h
  exact hloop _ _ (.inr hmem)

/-- **The recomputation of a prefix** settles it, unless the prefix lost its candidates and its
    Loc-RIB entry before. -/
theorem recomputeNlri_settled (hdampening : cfg.family.dampening = false)
    (hclean : ¬ HasCandidate s n → s.locRib.lookup n = none → Clean s n) :
    Settled (s.recomputeNlri cfg o n) n := by
  have hsame := recomputeNlri_sameIn cfg o s n
  have hcand : HasCandidate (s.recomputeNlri cfg o n) n ↔ HasCandidate s n := by
    unfold HasCandidate
    rw [hsame.adjRibIn, hsame.networkLocalRoutes]
  cases hdecision : s.decision cfg o n with
  | none =>
    have hno := (decision_eq_none_iff cfg o s n).1 hdecision
    cases hentry : s.locRib.lookup n with
    | none =>
      have hstay : s.recomputeNlri cfg o n = s := by simp only [recomputeNlri, hdecision, hentry]
      rw [hstay]
      exact ⟨fun _ => hentry, fun _ => hclean hno hentry⟩
    | some entry =>
      have hgo : s.recomputeNlri cfg o n = recomputeAdjRibOut cfg o
          { s.withdrawFromRib n with locRib := s.locRib.erase n } n none := by
        simp only [recomputeNlri, hdecision, hentry]
      rw [hgo]
      refine ⟨fun _ => AList.lookup_erase n _, fun _ => ⟨?_, fun a ses ha => ?_⟩⟩
      · change (s.withdrawFromRib n).vrf n = none
        rw [(withdrawFromRib_vrf s n).2, Function.update_self]
      · exact recomputeAdjRibOut_none_noEntry cfg o _ n ha
  | some best =>
    have hentry := (recomputeNlri_some cfg o hdecision (by simp [hdampening])).1
    refine ⟨fun hno => ?_, fun hnone => ?_⟩
    · have := (decision_eq_none_iff cfg o s n).2 fun hc => hno (hcand.2 hc)
      rw [hdecision] at this
      cases this
    · rw [hentry] at hnone
      cases hnone

theorem recomputeAll_settled (hdampening : cfg.family.dampening = false) {touched : List ν}
    (h : n ∉ touched → Settled s n)
    (hclean : ¬ HasCandidate s n → s.locRib.lookup n = none → Clean s n) :
    Settled (s.recomputeAll cfg o touched) n := by
  by_cases hn : n ∈ touched
  · obtain ⟨s₁, -, hsame, hafter⟩ := recomputeAll_at cfg o s hn
    refine hafter.settled (recomputeNlri_settled cfg o hdampening fun hno hnone => ?_)
    rw [hsame.hasCandidate] at hno
    rw [hsame.locRib] at hnone
    exact hsame.clean.2 (hclean hno hnone)
  · exact (recomputeAll_sameAt cfg o s hn).settled (h hn)

theorem SameAt.of_eq (hin : s'.adjRibIn = s.adjRibIn)
    (hnet : s'.networkLocalRoutes = s.networkLocalRoutes) (hlocRib : s'.locRib = s.locRib)
    (hvrf : s'.vrf = s.vrf) (hout : s'.out.adjRibOut = s.out.adjRibOut)
    (hses : s'.sessionOf = s.sessionOf) : SameAt n s s' where
  routes k _ := by rw [hin]
  network := by rw [hnet]
  locRib := by rw [hlocRib]
  vrf := by rw [hvrf]
  entries rid e _ := by rw [hout]
  sessionOf := hses

theorem Settled.of_eq (hs : Settled s n) (hin : s'.adjRibIn = s.adjRibIn)
    (hnet : s'.networkLocalRoutes = s.networkLocalRoutes) (hlocRib : s'.locRib = s.locRib)
    (hvrf : s'.vrf = s.vrf) (hout : s'.out.adjRibOut = s.out.adjRibOut)
    (hses : s'.sessionOf = s.sessionOf) : Settled s' n :=
  SameAt.settled (.of_eq hin hnet hlocRib hvrf hout hses) hs

theorem recomputeAll_settled_of_edit (hdampening : cfg.family.dampening = false) {touched : List ν}
    (hs : Settled s n) (hsame : n ∉ touched → SameAt n s s') (hclean : Clean s' n ↔ Clean s n)
    (hlost : HasCandidate s n → ¬ HasCandidate s' n → Clean s n) :
    Settled (s'.recomputeAll cfg o touched) n := by
  refine recomputeAll_settled cfg o hdampening (fun hn => (hsame hn).settled hs) fun hno _ => ?_
  rw [hclean]
  by_cases hc : HasCandidate s n
  · exact hlost hc hno
  · exact hs.clean (hs.locRib hc)

omit [DecidableEq ν] in
theorem InEdit.clean (h : InEdit s s') : Clean s' n ↔ Clean s n := by
  unfold Clean
  rw [h.vrf, h.out, sessionOf_eq h.neighbors]

theorem recomputeAdjRibOut_settled (hs : Settled s n) {nlri : ν} {best : Option LocalRoute}
    (hbest : best = none ∨ s.locRib.lookup nlri ≠ none) :
    Settled (s.recomputeAdjRibOut cfg o nlri best) n := by
  by_cases hn : n = nlri
  · subst hn
    refine ⟨hs.locRib, fun hnone => ?_⟩
    obtain rfl := hbest.resolve_right (not_not.2 hnone)
    exact ⟨(hs.clean hnone).1, fun a ses ha => recomputeAdjRibOut_none_noEntry cfg o s n ha⟩
  · exact (recomputeAdjRibOut_sameAt cfg o s hn best).settled hs

theorem scan_settled (hs : Settled s n) : Settled (s.scan cfg o) n := by
  unfold scan
  have hmem : ∀ e ∈ o.order s.locRib.entries, s.locRib.lookup e.1 ≠ none := by
    intro e he
    rw [AList.mem_lookup_iff.2 ((o.order_perm _).mem_iff.1 he)]
    simp
  revert hmem
  generalize o.order s.locRib.entries = l
  intro hmem
  induction l generalizing s with
  | nil => exact hs
  | cons e l ih =>
    refine ih (recomputeAdjRibOut_settled cfg o hs (.inr (hmem e (.head _)))) fun e' he' => ?_
    exact hmem e' (.tail _ he')

theorem drainMraiPending_settled (hs : Settled s n) (rid : UInt32) :
    Settled (s.drainMraiPending cfg o rid) n := by
  simp only [drainMraiPending]
  split
  · exact hs
  · have hloop (l : List ν) (s : AddressFamilyInstance ν) (hs : Settled s n) : Settled
        (l.foldl (fun s nlri => s.recomputeAdjRibOut cfg o nlri (s.locRib.lookup nlri)) s) n := by
      induction l generalizing s with
      | nil => exact hs
      | cons nlri l ih =>
        refine ih _ (recomputeAdjRibOut_settled cfg o hs ?_)
        by_cases h : s.locRib.lookup nlri = none
        · exact .inl h
        · exact .inr h
    have hstart : Settled { s with
        out := { s.out.setMrai rid ⟨o.now, [], false⟩ with mraiBypassPeer := rid } } n :=
      hs.of_eq rfl rfl rfl rfl rfl rfl
    exact (hloop _ _ hstart).of_eq rfl rfl rfl rfl rfl rfl

theorem onNetworkRibChanged_settled (hdampening : cfg.family.dampening = false) (hs : Settled s n)
    (nlri : ν) (reachable : Bool) : Settled (s.onNetworkRibChanged cfg o nlri reachable) n := by
  obtain ⟨-, hlocRib, hvrf, hout, hneighbors⟩ := setNetwork_ribs cfg o s nlri reachable
  unfold onNetworkRibChanged
  by_cases hn : n = nlri
  · subst hn
    refine recomputeNlri_settled cfg o hdampening fun _ hnone => ?_
    rw [hlocRib] at hnone
    unfold Clean
    rw [hvrf, hout, sessionOf_eq hneighbors]
    exact hs.clean hnone
  · exact ((setNetwork_sameAt cfg o s hn reachable).trans (recomputeNlri_sameAt cfg o _ hn)).settled hs

theorem StaleEdit.sameAt (h : StaleEdit s s') : SameAt n s s' :=
  .of_eq h.adjRibIn h.networkLocalRoutes h.locRib h.vrf (by rw [h.out]) (sessionOf_eq h.neighbors)

end Recompute

/-! ## Lost routes -/

/-- The event takes the route of the key out of Adj-RIB-In. -/
def takes (s : AddressFamilyInstance ν) (i : AfInput ν) (k : InKey ν) : Bool :=
  match i.event with
  | .update addr update =>
    (s.peers (s.ridOf addr)).isSome && decide (k.peer = s.ridOf addr ∧ k.path ∈ update.withdrawn)
  | .sessionDown addr => decide (s.sessionRid addr = some k.peer)
  -- the end of a refresh finds a stale set only without timers
  | .eorr addr =>
    (s.staleTimers k.peer).isNone && decide (s.sessionRid addr = some k.peer) &&
      decide (k.path.nlri ∈ (s.stalePeerNlris k.peer).getD [])
  | .staleTimer rid timer =>
    (s.staleTimers rid).any (·.runs timer) && decide (k.peer = rid) &&
      decide (k.path.nlri ∈ (s.stalePeerNlris rid).getD [])
  | _ => false

def announces (s : AddressFamilyInstance ν) (i : AfInput ν) (n : ν) : Bool :=
  match i.event with
  | .update addr update =>
    (s.peers (s.ridOf addr)).any fun nbr =>
      decide (n ∈ (accepted i.cfg i.oracle addr nbr (s.ridOf addr) update).map (·.nlri))
  | _ => false

/-- The event takes every route of the prefix, and nothing replaces them. -/
def LosesLast (s : AddressFamilyInstance ν) (i : AfInput ν) (n : ν) : Prop :=
  (∀ k ∈ s.adjRibIn.keys, k.path.nlri = n → s.takes i k = true) ∧ s.announces i n = false ∧
    s.networkLocalRoutes.lookup n = none

/-- A prefix of Adj-RIB-In that loses its last routes is neither installed nor advertised on a
    session that the event leaves open. -/
def QuietLoss (s : AddressFamilyInstance ν) (i : AfInput ν) : Prop :=
  ∀ k ∈ s.adjRibIn.keys, LosesLast s i k.path.nlri → s.vrf k.path.nlri = none ∧
    ∀ e ∈ s.neighbors.entries, i.event.closes ≠ some e.1 → ∀ ses ∈ e.2.session,
      ∀ x ∈ s.out.adjRibOut ses.peerRid, x.1.nlri ≠ k.path.nlri

section Events
variable {n : ν} {s s' : AddressFamilyInstance ν} {i : AfInput ν}

theorem QuietLoss.of_lost (hquiet : QuietLoss s i) (hc : HasCandidate s n)
    (hlose : LosesLast s i n) :
    s.vrf n = none ∧ ∀ a ses, i.event.closes ≠ some a → s.sessionOf a = some ses →
      NoEntry s.out ses.peerRid n := by
  rcases hc with ⟨k, hk, rfl⟩ | hnet
  · obtain ⟨hvrf, hentries⟩ := hquiet k hk hlose
    refine ⟨hvrf, fun a ses ha hses => ?_⟩
    obtain ⟨nbr, hnbr, hses⟩ := Option.bind_eq_some_iff.1 hses
    exact hentries ⟨a, nbr⟩ (AList.mem_lookup_iff.1 hnbr) ha ses hses
  · exact absurd hlose.2.2 hnet

theorem QuietLoss.clean (hquiet : QuietLoss s i) (hopen : i.event.closes = none)
    (hc : HasCandidate s n) (hlose : LosesLast s i n) : Clean s n := by
  obtain ⟨hvrf, hentries⟩ := hquiet.of_lost hc hlose
  refine ⟨hvrf, fun a ses ha => hentries a ses ?_ ha⟩
  rw [hopen]
  exact Option.some_ne_none a |>.symm

theorem enforceMaximumPrefix_sameAt (cfg : Config ν) (s : AddressFamilyInstance ν)
    (addr nbr : IPAddress) (rid : UInt32) : SameAt n s (s.enforceMaximumPrefix cfg addr nbr rid) := by
  have hsame := enforceMaximumPrefix_sameIn cfg s addr nbr rid
  obtain ⟨hlocRib, hvrf, hout⟩ := enforceMaximumPrefix_ribs cfg s addr nbr rid
  exact .of_eq hsame.adjRibIn hsame.networkLocalRoutes hlocRib hvrf (by rw [hout])
    (sessionOf_eq hsame.neighbors)

theorem update_settled (hdampening : i.cfg.family.dampening = false) (hquiet : QuietLoss s i)
    {addr : IPAddress} {update : ParsedUpdate ν} (hi : i.event = .update addr update)
    (hs : Settled s n) : Settled (s.onParsedUpdateFromPeer i.cfg i.oracle addr update) n := by
  unfold onParsedUpdateFromPeer
  cases hnbr : s.peers (s.ridOf addr) with
  | none => exact hs
  | some nbr =>
    have hmax := enforceMaximumPrefix_sameAt (n := n) i.cfg
      (s.takeUpdate i.cfg i.oracle addr nbr (s.ridOf addr) update).1 addr nbr (s.ridOf addr)
    have hedit := takeUpdate_inEdit i.cfg i.oracle s addr nbr (s.ridOf addr) update
    refine recomputeAll_settled_of_edit i.cfg i.oracle hdampening hs (fun hn => ?_) ?_ ?_
    · exact (takeUpdate_sameAt i.cfg i.oracle s addr nbr (s.ridOf addr) update hn).trans hmax
    · exact hmax.clean.trans hedit.clean
    · intro hc hno
      rw [hmax.hasCandidate] at hno
      have hkeys : ∀ k : InKey ν, k.path.nlri = n →
          k ∉ (s.takeUpdate i.cfg i.oracle addr nbr (s.ridOf addr) update).1.adjRibIn.keys :=
        fun k hk hmem => hno (.inl ⟨k, hmem, hk⟩)
      refine hquiet.clean (by rw [hi]; rfl) hc ⟨fun k hk hkn => ?_, ?_, ?_⟩
      · have hgone := hkeys k hkn
        rw [mem_keys_takeUpdate, not_or, not_and_not_right] at hgone
        simp only [takes, hi, hnbr]
        simpa using hgone.2 hk
      · by_contra hann
        rw [Bool.not_eq_false] at hann
        simp only [announces, hi, hnbr, Option.any_some, decide_eq_true_eq] at hann
        obtain ⟨p, hp, hpn⟩ := List.mem_map.1 hann
        have hgone := hkeys ⟨s.ridOf addr, p⟩ hpn
        rw [mem_keys_takeUpdate] at hgone
        exact hgone (.inl ⟨rfl, hp⟩)
      · by_contra hnet
        refine hno (.inr ?_)
        rwa [hedit.networkLocalRoutes]

theorem purgeStalePeer_settled (cfg : Config ν) (o : Oracle ν)
    (hdampening : cfg.family.dampening = false) (hs : Settled s n) (rid : UInt32)
    (hlost : HasCandidate s n → (∀ k ∈ s.adjRibIn.keys, k.path.nlri = n →
      k.peer = rid ∧ n ∈ (s.stalePeerNlris rid).getD []) →
      s.networkLocalRoutes.lookup n = none → Clean s n) :
    Settled (s.purgeStalePeer cfg o rid) n := by
  unfold purgeStalePeer
  cases hstale : s.stalePeerNlris rid with
  | none => exact hs
  | some stale =>
    simp only
    split
    · exact hs
    · have hedit := dropStale_inEdit s rid stale
      refine recomputeAll_settled_of_edit cfg o hdampening hs (fun hn => ?_) hedit.clean fun hc hno => ?_
      · refine SameAt.trans (foldl_removeRoute_sameAt s fun k hk => ?_) (.of_eq rfl rfl rfl rfl rfl rfl)
        have hk : k.path.nlri ∈ stale := by simpa using (List.mem_filter.1 hk).2
        rintro rfl
        exact hn hk
      · refine hlost hc (fun k hk hkn => ?_) ?_
        · have hgone : k ∉ (s.dropStale rid stale).adjRibIn.keys := fun h => hno (.inl ⟨k, h, hkn⟩)
          rw [mem_keys_iff] at hgone
          simp only [dropStale, lookup_foldl_removeRoute] at hgone
          split at hgone
          · rename_i hmem
            obtain ⟨hpeer, hin⟩ := List.mem_filter.1 hmem
            rw [hstale, ← hkn]
            exact ⟨(mem_peerKeys.1 hpeer).2, by simpa using hin⟩
          · exact absurd ((mem_keys_iff s).1 hk) hgone
        · by_contra hnet
          refine hno (.inr ?_)
          rwa [hedit.networkLocalRoutes]

theorem eorr_settled (hdampening : i.cfg.family.dampening = false) (hquiet : QuietLoss s i)
    {addr : IPAddress} (hi : i.event = .eorr addr) {rid : UInt32} (hrid : s.sessionRid addr = some rid)
    (hs : Settled s n) : Settled (s.onPeerEorr i.cfg i.oracle rid) n := by
  have hcancel : SameAt n s _ := (cancelStaleTimers_staleEdit s rid).sameAt
  refine purgeStalePeer_settled i.cfg i.oracle hdampening (hcancel.settled hs) rid ?_
  rw [hcancel.hasCandidate, hcancel.network, hcancel.clean]
  intro hc hkeys hnet
  refine hquiet.clean (by rw [hi]; rfl) hc ⟨fun k hk hkn => ?_, by simp only [announces, hi], hnet⟩
  have hk' : k ∈ (s.cancelStaleTimers rid).adjRibIn.keys := by
    rw [mem_keys_iff, hcancel.routes k hkn]
    exact (mem_keys_iff s).1 hk
  obtain ⟨hpeer, hstale⟩ := hkeys k hk' hkn
  subst hpeer hkn
  simp only [takes, hi, hrid, cancelStaleTimers] at hstale ⊢
  cases htimers : s.staleTimers k.peer with
  | none => simpa [htimers] using hstale
  | some timers => simp [htimers] at hstale

theorem staleTimer_settled (hdampening : i.cfg.family.dampening = false) (hquiet : QuietLoss s i)
    {rid : UInt32} {timer : StaleTimer} (hi : i.event = .staleTimer rid timer) (hs : Settled s n) :
    Settled (s.onStaleTimer i.cfg i.oracle rid timer) n := by
  have hpurge (timers : Option StaleTimers)
      (hruns : (s.staleTimers rid).any (·.runs timer) = true) :
      Settled ({ s with staleTimers := Function.update s.staleTimers rid timers }.purgeStalePeer
        i.cfg i.oracle rid) n := by
    have hset : Settled { s with staleTimers := Function.update s.staleTimers rid timers } n :=
      hs.of_eq rfl rfl rfl rfl rfl rfl
    refine purgeStalePeer_settled i.cfg i.oracle hdampening hset rid ?_
    intro hc hkeys hnet
    refine hquiet.clean (s := s) (by rw [hi]; rfl) hc
      ⟨fun k hk hkn => ?_, by simp only [announces, hi], hnet⟩
    obtain ⟨hpeer, hstale⟩ := hkeys k hk hkn
    simp only [takes, hi, hruns]
    simpa [hkn] using And.intro hpeer hstale
  unfold onStaleTimer
  split
  · rename_i htimers
    exact hpurge _ (by rw [htimers]; rfl)
  · rename_i htimers
    exact hpurge _ (by rw [htimers]; rfl)
  · exact hs

theorem closeSession_settled (hs : Settled s n) (addr : IPAddress) (rid : UInt32) :
    Settled ((s.closeSession addr).dropPeerState rid) n ∧
      ((∀ a ses, a ≠ addr → s.sessionOf a = some ses → NoEntry s.out ses.peerRid n) → s.vrf n = none →
        Clean ((s.closeSession addr).dropPeerState rid) n) := by
  obtain ⟨-, -, htable⟩ := dropPeerState_out (s.closeSession addr) rid
  obtain ⟨hin, hnet, hlocRib, hvrf⟩ := closeSession_sameRibs s addr rid
  have hclean (h : ∀ a ses, a ≠ addr → s.sessionOf a = some ses → NoEntry s.out ses.peerRid n)
      (hnone : s.vrf n = none) : Clean ((s.closeSession addr).dropPeerState rid) n := by
    refine ⟨by rw [hvrf]; exact hnone, fun a ses ha e he => ?_⟩
    rw [closeSession_sessionOf] at ha
    have hne : a ≠ addr := by
      rintro rfl
      rw [Function.update_self] at ha
      cases ha
    rw [Function.update_of_ne hne] at ha
    rw [htable] at he
    by_cases hr : ses.peerRid = rid
    · rw [hr, Function.update_self] at he
      cases he
    · rw [Function.update_of_ne hr] at he
      exact h a ses hne ha e he
  refine ⟨⟨fun hno => ?_, fun hnone => ?_⟩, hclean⟩
  · rw [hlocRib]
    refine hs.locRib fun hc => hno ?_
    unfold HasCandidate
    rwa [hin, hnet]
  · rw [hlocRib] at hnone
    exact hclean (fun a ses _ => (hs.clean hnone).2 a ses) (hs.clean hnone).1

theorem clearRid_sameAt (s : AddressFamilyInstance ν) (addr : IPAddress) :
    SameAt n s (s.clearRid addr) :=
  .of_eq rfl rfl rfl rfl rfl (clearRid_sessionOf s addr)

theorem deactivatePeer_sameAt (s : AddressFamilyInstance ν) (rid : UInt32) :
    SameAt n s (s.deactivatePeer rid) := by
  unfold deactivatePeer
  split
  · exact .refl n s
  · exact (clearRid_sameAt s _).trans (.of_eq rfl rfl rfl rfl rfl rfl)

theorem sessionDown_settled (hdampening : i.cfg.family.dampening = false) (hquiet : QuietLoss s i)
    {addr : IPAddress} (hi : i.event = .sessionDown addr) (hs : Settled s n) :
    Settled (s.onSessionDown i.cfg i.oracle addr) n := by
  unfold onSessionDown
  cases hses : s.sessionOf addr with
  | none => exact hs
  | some ses =>
    obtain ⟨hclosed, hclean⟩ := closeSession_settled hs addr ses.peerRid
    have hribs := closeSession_sameRibs s addr ses.peerRid
    have hedit := dropPeer_inEdit ((s.closeSession addr).dropPeerState ses.peerRid) ses.peerRid
    have hdrop : Settled ((s.closeSession addr).invalidatePeer i.cfg i.oracle ses.peerRid) n := by
      refine recomputeAll_settled_of_edit i.cfg i.oracle hdampening hclosed (fun hn => ?_) hedit.clean
        fun hc hno => ?_
      · refine foldl_removeRoute_sameAt _ fun k hk => ?_
        rintro rfl
        exact hn (List.mem_map_of_mem hk)
      · unfold HasCandidate at hc
        rw [hribs.adjRibIn, hribs.networkLocalRoutes] at hc
        have hlose : LosesLast s i n := by
          refine ⟨fun k hk hkn => ?_, by simp only [announces, hi], ?_⟩
          · simp only [takes, hi, sessionRid, hses]
            by_contra hne
            refine hno (.inl ⟨k, ?_, hkn⟩)
            rw [mem_keys_iff, dropPeer, lookup_foldl_removeRoute, if_neg, hribs.adjRibIn]
            · exact (mem_keys_iff s).1 hk
            · intro hmem
              exact hne (by simp [(mem_peerKeys.1 hmem).2])
          · by_contra hnet
            refine hno (.inr ?_)
            rwa [hedit.networkLocalRoutes, hribs.networkLocalRoutes]
        obtain ⟨hvrf, hentries⟩ := hquiet.of_lost hc hlose
        refine hclean (fun a sa ha => hentries a sa ?_) hvrf
        rw [hi]
        exact fun h => ha (Option.some.inj h).symm
    exact ((deactivatePeer_sameAt _ _).trans (clearRid_sameAt _ addr)).settled hdrop

theorem established_settled (cfg : Config ν) (o : Oracle ν) (hout : OutInv s) (addr : IPAddress)
    (ses : PeerSession)
    (hfresh : s.sessionOf addr = none → ∀ b sb, s.sessionOf b = some sb → sb.peerRid ≠ ses.peerRid)
    (hs : Settled s n) : Settled (s.onSessionEstablished cfg o addr ses) n := by
  have hstart (peers : UInt32 → Option IPAddress) (sa : PeerSession)
      (hsa : (s.sessionOf addr).getD ses = sa) :
      Settled { s with neighbors := s.neighbors.insert addr ⟨sa.peerRid, some sa⟩, peers := peers } n := by
    refine ⟨hs.locRib, fun hnone => ⟨(hs.clean hnone).1, fun a sb ha => ?_⟩⟩
    rw [establish_sessionOf] at ha
    by_cases haddr : a = addr
    · subst haddr
      rw [Function.update_self] at ha
      obtain rfl := Option.some.inj ha
      cases hses : s.sessionOf a with
      | none =>
        -- the table of a new session is empty
        obtain rfl : ses = sa := by simpa [hses] using hsa
        intro e he
        rw [show _ = [] from hout.mirrors.table_none _ (hfresh hses)] at he
        cases he
      | some sb =>
        obtain rfl : sb = sa := by simpa [hses] using hsa
        exact (hs.clean hnone).2 a sb hses
    · rw [Function.update_of_ne haddr] at ha
      exact (hs.clean hnone).2 a sb ha
  simp only [onSessionEstablished]
  split
  · exact scan_settled cfg o (hstart _ _ rfl)
  · exact hstart _ _ rfl

theorem step_settled (hout : OutInv s) (hdampening : i.cfg.family.dampening = false)
    (hfresh : FreshRid s i) (hquiet : QuietLoss s i) (hs : Settled s n) : Settled (s.step i) n := by
  unfold step
  cases hi : i.event with
  | update addr update => exact update_settled hdampening hquiet hi hs
  | established addr ses =>
    exact established_settled i.cfg i.oracle hout addr ses (fun hnone => hfresh.sessionOf hi hnone) hs
  | updateDelay addr =>
    simp only [onUpdateDelay]
    split
    · split
      · exact scan_settled i.cfg i.oracle hs
      · exact hs
    · exact hs
  | sessionDown addr => exact sessionDown_settled hdampening hquiet hi hs
  | borr addr =>
    simp only
    split
    · rename_i rid _
      exact ((cancelStaleTimers_staleEdit s rid).sameAt.settled hs).of_eq rfl rfl rfl rfl rfl rfl
    · exact hs
  | eorr addr =>
    simp only
    split
    · rename_i rid hrid
      exact eorr_settled hdampening hquiet hi hrid hs
    · exact hs
  | staleTimer rid timer => exact staleTimer_settled hdampening hquiet hi hs
  | networkRibChanged nlri reachable =>
    exact onNetworkRibChanged_settled i.cfg i.oracle hdampening hs nlri reachable
  | mraiTimer rid => exact drainMraiPending_settled i.cfg i.oracle hs rid
  | nhtChange nh reachable =>
    simp only [onNhtChange]
    split
    · exact hs
    · split
      · exact hs
      · exact hs.of_eq rfl rfl rfl rfl rfl rfl
  | nhtTimer =>
    have hstart : Settled { s with pendingNhtRecompute := [] } n := hs.of_eq rfl rfl rfl rfl rfl rfl
    exact recomputeAll_settled i.cfg i.oracle hdampening (fun _ => hstart) fun _ => hstart.clean
  | scan => exact scan_settled i.cfg i.oracle hs

end Events

/-! ## Runs -/

/-- The prefix is nowhere behind Adj-RIB-In: it is not in the Loc-RIB, not installed, in no table of an
    established session, and the UPDATEs sent on each such session leave the peer without it. -/
def Withdrawn (s : AddressFamilyInstance ν) (n : ν) : Prop :=
  s.locRib.lookup n = none ∧ s.vrf n = none ∧ ∀ addr ses, s.sessionOf addr = some ses →
    NoEntry s.out ses.peerRid n ∧ ∀ pathId, viewAfter (s.out.sent addr) ⟨n, pathId⟩ = none

theorem Settled.withdrawn {s : AddressFamilyInstance ν} {n : ν} (hs : Settled s n) (hout : OutInv s)
    (hno : ¬ HasCandidate s n) : Withdrawn s n := by
  have hnone := hs.locRib hno
  obtain ⟨hvrf, hentries⟩ := hs.clean hnone
  refine ⟨hnone, hvrf, fun addr ses hses => ⟨hentries addr ses hses, fun pathId => ?_⟩⟩
  have hmirrors := hout.mirrors.session addr ses hses
  refine Option.eq_none_iff_forall_ne_some.2 fun attrs hattrs => ?_
  exact hentries addr ses hses _ ((hmirrors.mem_iff ⟨n, pathId⟩ attrs).2 hattrs) rfl

/-- No dampening, a new session has its own router id, and lost prefixes were nowhere. -/
def LosesQuietly (s : AddressFamilyInstance ν) (i : AfInput ν) : Prop :=
  i.cfg.family.dampening = false ∧ FreshRid s i ∧ QuietLoss s i

/-- **Prefixes without candidates are withdrawn** after each event of a run in which no event takes
    the last routes of a prefix that is installed or advertised. -/
theorem withdrawn_run (is : List (AfInput ν)) (hrun : Along LosesQuietly step {} is) (n : ν)
    (hno : ¬ HasCandidate (runFrom step {} is) n) : Withdrawn (runFrom step {} is) n := by
  have hinv : OutInv (runFrom step {} is) ∧ ∀ n, Settled (runFrom step {} is) n := by
    refine Along.invariant (I := fun s => OutInv s ∧ ∀ n, Settled s n)
      (fun s i hs hi => ⟨step_outInv s i hs.1 hi.2.1, fun n => ?_⟩) ⟨outInv_init, fun n => ?_⟩ hrun
    · exact step_settled hs.1 hi.1 hi.2.1 hi.2.2 (hs.2 n)
    · refine ⟨fun _ => rfl, fun _ => ⟨rfl, fun a ses ha => ?_⟩⟩
      cases ha
  exact (hinv.2 n).withdrawn hinv.1 hno

def sampleWithdraw : ParsedUpdate (UInt32 × UInt8) where
  withdrawn := [⟨samplePrefix, 0⟩]

/-- Two peers and a network route for the sample prefix: one peer withdraws its route, the session of
    the other goes down, and then the network route goes. -/
def sampleLossRun : List (AfInput (UInt32 × UInt8)) :=
  [sampleInput (.established sampleNbr sampleNbrSession),
    sampleInput (.established sampleNbr2 sampleNbr2Session),
    sampleInput (.update sampleNbr (sampleUpdate [65001] 0xC0000201)),
    sampleInput (.update sampleNbr2 (sampleUpdate [65001] 0xC0000202)),
    sampleInput (.update sampleNbr sampleWithdraw),
    sampleInput (.networkRibChanged samplePrefix true),
    sampleInput (.sessionDown sampleNbr2),
    sampleInput (.networkRibChanged samplePrefix false)]

instance (s : AddressFamilyInstance ν) (i : AfInput ν) (n : ν) : Decidable (LosesLast s i n) :=
  inferInstanceAs (Decidable (_ ∧ _ ∧ _))

instance (s : AddressFamilyInstance ν) (i : AfInput ν) : Decidable (QuietLoss s i) :=
  inferInstanceAs (Decidable (∀ k ∈ s.adjRibIn.keys, LosesLast s i k.path.nlri → _ ∧ _))

instance (s : AddressFamilyInstance ν) (i : AfInput ν) : Decidable (LosesQuietly s i) :=
  inferInstanceAs (Decidable (_ ∧ _ ∧ _))

instance (s : AddressFamilyInstance ν) (n : ν) : Decidable (HasCandidate s n) :=
  inferInstanceAs (Decidable (_ ∨ _))

theorem withdrawn_sampleLossRun :
    ¬ HasCandidate (runFrom step {} sampleLossRun) samplePrefix ∧
      Withdrawn (runFrom step {} sampleLossRun) samplePrefix :=
  have hno : ¬ HasCandidate (runFrom step {} sampleLossRun) samplePrefix := by decide +kernel
  ⟨hno, withdrawn_run sampleLossRun (by decide +kernel) samplePrefix hno⟩

/-- One peer announces a prefix and withdraws it: it stays installed, and is still advertised. -/
theorem not_withdrawn_sample :
    ¬ ∀ n, ¬ HasCandidate (runFrom step {}
        [sampleInput (.established sampleNbr { peerRid := 7 }),
          sampleInput (.update sampleNbr (sampleUpdate [65001] 0xC0000201)),
          sampleInput (.update sampleNbr sampleWithdraw)]) n →
      Withdrawn (runFrom step {}
        [sampleInput (.established sampleNbr { peerRid := 7 }),
          sampleInput (.update sampleNbr (sampleUpdate [65001] 0xC0000201)),
          sampleInput (.update sampleNbr sampleWithdraw)]) n := by
  intro h
  have hvrf := (h samplePrefix (by decide +kernel)).2.1
  revert hvrf
  decide +kernel

end AddressFamilyInstance

end VirtualRouter.Bgp
