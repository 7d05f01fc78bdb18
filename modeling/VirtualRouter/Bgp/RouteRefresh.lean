/-
  Enhanced route refresh: BORR, UPDATEs and EORR of one peer.

  `onPeerEorr` cancels the stale timers before it purges, and the cancellation
  drops the stale set with them; what is left to purge is nothing
  (`onPeerEorr_inAttrs`).

  * `PurgedAt`: what the end of a refresh promises, for the state at its BORR
    and the inputs since;
  * `purgesStale_iff`: it holds at each EORR of a run iff the peer, since the
    last BORR, announced the prefix of every route of the table again or
    withdrew the route.
-/
import VirtualRouter.Bgp.AdjRibIn

namespace VirtualRouter.Bgp

open EntryTable Run AddressFamilyInstance

variable {ν : Type} [DecidableEq ν]

inductive RefreshMessage (ν : Type) where
  | borr
  | eorr
  | update (update : ParsedUpdate ν)

/-- A message, with the configuration and the environment of its handler. -/
structure RefreshInput (ν : Type) where
  cfg : Config ν
  oracle : Oracle ν
  message : RefreshMessage ν

namespace RefreshMessage

def event (addr : IPAddress) : RefreshMessage ν → AfEvent ν
  | borr => .borr addr
  | eorr => .eorr addr
  | update u => .update addr u

def Withdraws (k : NlriPath ν) : RefreshMessage ν → Prop
  | update u => k ∈ u.withdrawn
  | _ => False

def AnnouncesPath (k : NlriPath ν) : RefreshMessage ν → Prop
  | update u => u.attrs ≠ none ∧ k ∈ u.announcements
  | _ => False

def Announces (n : ν) (m : RefreshMessage ν) : Prop := ∃ k, m.AnnouncesPath k ∧ k.nlri = n

end RefreshMessage

def refreshStep (addr : IPAddress) (s : AddressFamilyInstance ν) (i : RefreshInput ν) :
    AddressFamilyInstance ν := s.step ⟨i.cfg, i.oracle, i.message.event addr⟩

/-- The peer at `addr` is established and registered under its router id. -/
structure Registered (s : AddressFamilyInstance ν) (addr nbr : IPAddress) (rid : UInt32) : Prop where
  session : s.sessionRid addr = some rid
  ridOf : s.ridOf addr = rid
  peer : s.peers rid = some nbr

/-- The stale set of a peer lasts no longer than its timers. -/
def StaleTimed (s : AddressFamilyInstance ν) (rid : UInt32) : Prop :=
  s.staleTimers rid = none → s.stalePeerNlris rid = none

section Steps
variable {s : AddressFamilyInstance ν} {addr nbr : IPAddress} {rid : UInt32} (cfg : Config ν)
  (o : Oracle ν)

omit [DecidableEq ν] in
theorem Registered.of_eq {s' : AddressFamilyInstance ν} (h : Registered s addr nbr rid)
    (hn : s'.neighbors = s.neighbors) (hp : s'.peers = s.peers) : Registered s' addr nbr rid where
  session := by rw [sessionRid, sessionOf, hn]; exact h.session
  ridOf := by rw [AddressFamilyInstance.ridOf, hn]; exact h.ridOf
  peer := by rw [hp]; exact h.peer

/-! ## One message -/

omit [DecidableEq ν] in
theorem cancelStaleTimers_clears (h : StaleTimed s rid) :
    (s.cancelStaleTimers rid).staleTimers rid = none ∧
      (s.cancelStaleTimers rid).stalePeerNlris rid = none := by
  unfold cancelStaleTimers
  cases ht : s.staleTimers rid with
  | none => exact ⟨ht, h ht⟩
  | some t => exact ⟨Function.update_self .., Function.update_self ..⟩

theorem onPeerEorr_eq (h : StaleTimed s rid) : s.onPeerEorr cfg o rid = s.cancelStaleTimers rid := by
  simp only [onPeerEorr, purgeStalePeer, (cancelStaleTimers_clears h).2]

theorem takeUpdate_stalePeerNlris (hnone : s.stalePeerNlris rid = none) (addr nbr : IPAddress)
    (rid' : UInt32) (update : ParsedUpdate ν) :
    (s.takeUpdate cfg o addr nbr rid' update).1.stalePeerNlris rid = none := by
  have hunstale (s : AddressFamilyInstance ν) (n : ν) (h : s.stalePeerNlris rid = none) :
      (s.unstale rid' n).stalePeerNlris rid = none := by
    by_cases hr : rid = rid'
    · subst hr
      exact (Function.update_self ..).trans (by rw [h]; rfl)
    · exact (Function.update_of_ne hr ..).trans h
  have hremove (s : AddressFamilyInstance ν) (k : InKey ν) :
      (s.removeRoute k).stalePeerNlris = s.stalePeerNlris := by
    unfold removeRoute
    split <;> rfl
  have hw : ∀ (ws : List (NlriPath ν)) (s : AddressFamilyInstance ν), s.stalePeerNlris rid = none →
      (ws.foldl (fun s n => s.withdrawPath rid' n) s).stalePeerNlris rid = none := by
    intro ws
    induction ws with
    | nil => exact fun _ h => h
    | cons n ws ih => exact fun s h => ih _ (hunstale _ _ (by rw [hremove]; exact h))
  have ha (attrs : PathAttribute) : ∀ (ns : List (NlriPath ν)) (acc : AddressFamilyInstance ν × List ν),
      acc.1.stalePeerNlris rid = none →
      (ns.foldl (announcePrefix cfg o addr nbr rid' attrs) acc).1.stalePeerNlris rid = none := by
    intro ns
    induction ns with
    | nil => exact fun _ h => h
    | cons n ns ih =>
      intro acc h
      refine ih _ ?_
      simp only [announcePrefix]
      split
      · exact h
      · exact hunstale _ _ (by simpa only [hremove] using h)
  unfold takeUpdate
  cases update.attrs with
  | none => exact hw _ _ hnone
  | some attrs => exact ha attrs _ _ (hw _ _ hnone)

theorem refreshStep_keeps (i : RefreshInput ν) (h : Registered s addr nbr rid)
    (ht : StaleTimed s rid) :
    Registered (refreshStep addr s i) addr nbr rid ∧ StaleTimed (refreshStep addr s i) rid := by
  obtain ⟨cfg, o, message⟩ := i
  have hcancel := cancelStaleTimers_staleEdit s rid
  cases message with
  | borr =>
    have hstep : refreshStep addr s ⟨cfg, o, .borr⟩ = s.onPeerBorr rid := by
      simp only [refreshStep, RefreshMessage.event, step, h.session]
    rw [hstep]
    refine ⟨h.of_eq hcancel.neighbors hcancel.peers, fun hnone => ?_⟩
    cases (Function.update_self ..).symm.trans hnone
  | eorr =>
    have hstep : refreshStep addr s ⟨cfg, o, .eorr⟩ = s.cancelStaleTimers rid := by
      simp only [refreshStep, RefreshMessage.event, step, h.session, onPeerEorr_eq cfg o ht]
    rw [hstep]
    exact ⟨h.of_eq hcancel.neighbors hcancel.peers, fun _ => (cancelStaleTimers_clears ht).2⟩
  | update u =>
    have hpeers := onParsedUpdateFromPeer_peers cfg o s addr u
    refine ⟨h.of_eq hpeers.1 hpeers.2, fun hnone => ?_⟩
    have hnbr : s.peers (s.ridOf addr) = some nbr := by rw [h.ridOf]; exact h.peer
    have hsame := onParsedUpdateFromPeer_sameIn cfg o hnbr u
    change (s.onParsedUpdateFromPeer cfg o addr u).staleTimers rid = none at hnone
    change (s.onParsedUpdateFromPeer cfg o addr u).stalePeerNlris rid = none
    rw [hsame.staleTimers, (takeUpdate_inEdit cfg o s addr nbr _ u).staleTimers] at hnone
    rw [hsame.stalePeerNlris]
    exact takeUpdate_stalePeerNlris cfg o (ht hnone) addr nbr _ u

theorem refreshStep_inAttrs (i : RefreshInput ν) (h : Registered s addr nbr rid)
    (ht : StaleTimed s rid) {k : NlriPath ν} (hk : ¬ i.message.AnnouncesPath k) :
    (i.message.Withdraws k → (refreshStep addr s i).inAttrs rid k = none) ∧
      (¬ i.message.Withdraws k → (refreshStep addr s i).inAttrs rid k = s.inAttrs rid k) := by
  obtain ⟨cfg, o, message⟩ := i
  have hcancel : (s.cancelStaleTimers rid).inAttrs = s.inAttrs := by
    funext r n
    rw [inAttrs, (cancelStaleTimers_staleEdit s rid).adjRibIn, inAttrs]
  cases message with
  | borr =>
    refine ⟨False.elim, fun _ => ?_⟩
    simp only [refreshStep, RefreshMessage.event, step, h.session]
    exact congrFun (congrFun hcancel rid) k
  | eorr =>
    refine ⟨False.elim, fun _ => ?_⟩
    simp only [refreshStep, RefreshMessage.event, step, h.session, onPeerEorr_eq cfg o ht, hcancel]
  | update u =>
    have hnbr : s.peers (s.ridOf addr) = some nbr := by rw [h.ridOf]; exact h.peer
    have hstep : (refreshStep addr s ⟨cfg, o, .update u⟩).inAttrs rid k =
        without (s.inAttrs rid) u.withdrawn k := by
      simp only [refreshStep, RefreshMessage.event, step]
      rw [onParsedUpdateFromPeer_inAttrs cfg o hnbr, inAttrs_takeUpdate, h.ridOf, if_pos rfl]
      cases hattrs : u.attrs with
      | none => rfl
      | some attrs =>
        have hn : k ∉ u.announcements := fun hn => hk ⟨by simp [hattrs], hn⟩
        exact if_neg fun hc => hn hc.1
    rw [hstep]
    exact ⟨fun hw => if_pos hw, fun hw => if_neg hw⟩

end Steps

/-! ## Runs -/

section Runs
variable {s : AddressFamilyInstance ν} {addr nbr : IPAddress} {rid : UInt32}

theorem runFrom_refreshStep_keeps (h : Registered s addr nbr rid) (ht : StaleTimed s rid)
    (is : List (RefreshInput ν)) :
    Registered (runFrom (refreshStep addr) s is) addr nbr rid ∧
      StaleTimed (runFrom (refreshStep addr) s is) rid := by
  induction is generalizing s with
  | nil => exact ⟨h, ht⟩
  | cons i is ih =>
    obtain ⟨h', ht'⟩ := refreshStep_keeps i h ht
    exact ih h' ht'

theorem runFrom_refreshStep_inAttrs (h : Registered s addr nbr rid) (ht : StaleTimed s rid)
    {k : NlriPath ν} (is : List (RefreshInput ν)) (hk : ∀ i ∈ is, ¬ i.message.AnnouncesPath k) :
    ((∃ i ∈ is, i.message.Withdraws k) →
        (runFrom (refreshStep addr) s is).inAttrs rid k = none) ∧
      ((∀ i ∈ is, ¬ i.message.Withdraws k) →
        (runFrom (refreshStep addr) s is).inAttrs rid k = s.inAttrs rid k) := by
  induction is generalizing s with
  | nil => simp
  | cons i is ih =>
    obtain ⟨h', ht'⟩ := refreshStep_keeps i h ht
    obtain ⟨hgone, hsame⟩ := refreshStep_inAttrs i h ht (hk i (.head _))
    obtain ⟨ihgone, ihsame⟩ := ih h' ht' fun j hj => hk j (.tail _ hj)
    rw [runFrom_cons]
    constructor
    · rintro ⟨j, hj, hw⟩
      by_cases hrest : ∃ i ∈ is, i.message.Withdraws k
      · exact ihgone hrest
      · -- only the first message withdraws it
        rcases List.mem_cons.1 hj with rfl | hj
        · rw [ihsame fun i hi hw' => hrest ⟨i, hi, hw'⟩]
          exact hgone hw
        · exact absurd ⟨j, hj, hw⟩ hrest
    · intro hw
      rw [ihsame fun j hj => hw j (.tail _ hj)]
      exact hsame (hw i (.head _))

/-- The end of a refresh, `s` being the state at its BORR `b` and `mid` the messages between it and
    the EORR `e`: no route is left whose prefix was there at the BORR and was not announced since,
    and a route announced since, accepted and not touched again, is there. -/
structure PurgedAt (addr nbr : IPAddress) (rid : UInt32) (s : AddressFamilyInstance ν)
    (b : RefreshInput ν) (mid : List (RefreshInput ν)) (e : RefreshInput ν) : Prop where
  gone : ∀ k, (runFrom (refreshStep addr) s (b :: (mid ++ [e]))).inAttrs rid k ≠ none →
    (∃ p, s.inAttrs rid ⟨k.nlri, p⟩ ≠ none) → ∃ i ∈ mid, i.message.Announces k.nlri
  kept : ∀ m₁ i m₂ u attrs k, mid = m₁ ++ i :: m₂ → i.message = .update u →
    u.attrs = some attrs → k ∈ u.announcements → rejects i.cfg i.oracle addr nbr rid attrs = false →
    (∀ j ∈ m₂, ¬ j.message.AnnouncesPath k ∧ ¬ j.message.Withdraws k) →
    (runFrom (refreshStep addr) s (b :: (mid ++ [e]))).inAttrs rid k = some attrs

def PurgesStale (addr nbr : IPAddress) (rid : UInt32) (s : AddressFamilyInstance ν)
    (is : List (RefreshInput ν)) : Prop :=
  ∀ pre b mid e post, is = pre ++ b :: (mid ++ e :: post) → b.message = .borr →
    (∀ i ∈ mid, i.message ≠ .borr) → e.message = .eorr →
    PurgedAt addr nbr rid (runFrom (refreshStep addr) s pre) b mid e

/-- Between the last BORR and each EORR the peer announces the prefix of each route of the table
    again, or withdraws the route. -/
def RefreshesAll (addr : IPAddress) (rid : UInt32) (s : AddressFamilyInstance ν)
    (is : List (RefreshInput ν)) : Prop :=
  ∀ pre b mid e post, is = pre ++ b :: (mid ++ e :: post) → b.message = .borr →
    (∀ i ∈ mid, i.message ≠ .borr) → e.message = .eorr →
    ∀ k, (runFrom (refreshStep addr) s pre).inAttrs rid k ≠ none →
      (∃ i ∈ mid, i.message.Announces k.nlri) ∨ ∃ i ∈ mid, i.message.Withdraws k

omit [DecidableEq ν] in
theorem marker_silent {m : RefreshMessage ν} (hm : m = .borr ∨ m = .eorr) (k : NlriPath ν) :
    ¬ m.AnnouncesPath k ∧ ¬ m.Withdraws k := by
  rcases hm with rfl | rfl <;> exact ⟨id, id⟩

theorem inAttrs_of_announced (h : Registered s addr nbr rid) (ht : StaleTimed s rid)
    {i : RefreshInput ν} {u : ParsedUpdate ν} {attrs : PathAttribute} {k : NlriPath ν}
    (hi : i.message = .update u) (hattrs : u.attrs = some attrs) (hk : k ∈ u.announcements)
    (haccept : rejects i.cfg i.oracle addr nbr rid attrs = false) (rest : List (RefreshInput ν))
    (hrest : ∀ j ∈ rest, ¬ j.message.AnnouncesPath k ∧ ¬ j.message.Withdraws k) :
    (runFrom (refreshStep addr) s (i :: rest)).inAttrs rid k = some attrs := by
  obtain ⟨h', ht'⟩ := refreshStep_keeps i h ht
  have hnbr : s.peers (s.ridOf addr) = some nbr := by rw [h.ridOf]; exact h.peer
  rw [runFrom_cons, (runFrom_refreshStep_inAttrs h' ht' rest fun j hj => (hrest j hj).1).2
    fun j hj => (hrest j hj).2]
  simp only [refreshStep, hi, RefreshMessage.event, step]
  rw [onParsedUpdateFromPeer_inAttrs i.cfg i.oracle hnbr, inAttrs_takeUpdate, h.ridOf, if_pos rfl,
    hattrs]
  exact if_pos ⟨hk, haccept⟩

/-- **The purge at the end of a refresh.**  It takes place, along a run of BORRs, UPDATEs and EORRs
    of a peer with no refresh under way, iff there is nothing to purge: the peer itself announces
    each prefix again or withdraws its routes. -/
theorem purgesStale_iff (h : Registered s addr nbr rid) (hstale : s.stalePeerNlris rid = none)
    (is : List (RefreshInput ν)) :
    PurgesStale addr nbr rid s is ↔ RefreshesAll addr rid s is := by
  have hrun (pre : List (RefreshInput ν)) :=
    runFrom_refreshStep_keeps h (fun _ => hstale) pre
  refine ⟨fun hp pre b mid e post his hb hmid he k hk => ?_,
    fun hr pre b mid e post his hb hmid he => ⟨fun k hk hpresent => ?_, ?_⟩⟩
  · -- a route neither announced again nor withdrawn is still there
    by_contra hnot
    rw [not_or] at hnot
    obtain ⟨hreg, htimed⟩ := hrun pre
    have hsilent : ∀ i ∈ b :: (mid ++ [e]), ¬ i.message.AnnouncesPath k ∧ ¬ i.message.Withdraws k := by
      intro i hi
      rcases List.mem_cons.1 hi with rfl | hi
      · exact marker_silent (.inl hb) k
      rcases List.mem_append.1 hi with hi | hi
      · exact ⟨fun ha => hnot.1 ⟨i, hi, k, ha, rfl⟩, fun hw => hnot.2 ⟨i, hi, hw⟩⟩
      · rw [List.mem_singleton.1 hi]
        exact marker_silent (.inr he) k
    have hsame := (runFrom_refreshStep_inAttrs hreg htimed _ fun i hi => (hsilent i hi).1).2
      fun i hi => (hsilent i hi).2
    refine hnot.1 ((hp pre b mid e post his hb hmid he).gone k ?_ ⟨k.pathId, hk⟩)
    rw [hsame]
    exact hk
  · -- a route that is left, of a prefix not announced since, was there and was not withdrawn
    by_contra hnot
    obtain ⟨hreg, htimed⟩ := hrun pre
    have hsilent : ∀ i ∈ b :: (mid ++ [e]), ¬ i.message.AnnouncesPath k := by
      intro i hi
      rcases List.mem_cons.1 hi with rfl | hi
      · exact (marker_silent (.inl hb) k).1
      rcases List.mem_append.1 hi with hi | hi
      · exact fun ha => hnot ⟨i, hi, k, ha, rfl⟩
      · rw [List.mem_singleton.1 hi]
        exact (marker_silent (.inr he) k).1
    obtain ⟨hgone, hsame⟩ := runFrom_refreshStep_inAttrs hreg htimed _ hsilent
    by_cases hw : ∃ i ∈ b :: (mid ++ [e]), i.message.Withdraws k
    · exact hk (hgone hw)
    · rw [hsame fun i hi hw' => hw ⟨i, hi, hw'⟩] at hk
      rcases hr pre b mid e post his hb hmid he k hk with ha | ⟨i, hi, hw'⟩
      · exact hnot ha
      · exact hw ⟨i, .tail _ (List.mem_append_left _ hi), hw'⟩
  · intro m₁ i m₂ u attrs k hmid' hi hattrs hk haccept hrest
    obtain ⟨hreg, htimed⟩ := hrun (pre ++ b :: m₁)
    have hlast := inAttrs_of_announced hreg htimed hi hattrs hk haccept (m₂ ++ [e]) fun j hj => by
      rcases List.mem_append.1 hj with hj | hj
      · exact hrest j hj
      · rw [List.mem_singleton.1 hj]
        exact marker_silent (.inr he) k
    rw [← runFrom_append] at hlast
    rw [← runFrom_append, hmid']
    simpa only [List.append_assoc, List.cons_append] using hlast

end Runs

def sampleMessage (m : RefreshMessage (UInt32 × UInt8)) : RefreshInput (UInt32 × UInt8) :=
  ⟨sampleConfig, sampleOracle, m⟩

theorem purgesStale_iff_sample :
    PurgesStale sampleNbr sampleNbr 7 sampleInstance
        [sampleMessage (.update (sampleUpdate [65001] 0xC0000201)), sampleMessage .borr,
          sampleMessage .eorr] ↔
      RefreshesAll sampleNbr 7 sampleInstance
        [sampleMessage (.update (sampleUpdate [65001] 0xC0000201)), sampleMessage .borr,
          sampleMessage .eorr] :=
  purgesStale_iff ⟨by decide +kernel, by decide +kernel, by decide +kernel⟩ rfl _

/-- A route announced before the refresh and not again is still there at its end. -/
theorem not_purgesStale_sample :
    ¬ PurgesStale sampleNbr sampleNbr 7 sampleInstance
      [sampleMessage (.update (sampleUpdate [65001] 0xC0000201)), sampleMessage .borr,
        sampleMessage .eorr] := by
  intro h
  have hpurged := h [sampleMessage (.update (sampleUpdate [65001] 0xC0000201))] (sampleMessage .borr) []
    (sampleMessage .eorr) [] rfl rfl (by simp) rfl
  obtain ⟨i, hi, -⟩ := hpurged.gone ⟨samplePrefix, 0⟩ (by decide +kernel) ⟨0, by decide +kernel⟩
  cases hi

end VirtualRouter.Bgp
