/-
  `recomputeNlri` for a list of prefixes.

  The loop collects pointers to the Loc-RIB entries with a new best route and
  hands them to `installToRib` behind it.  A prefix without a best route, or one
  that is held back, returns from the middle of the body: the prefixes behind it
  are left as they are, and what was collected is not installed.  A prefix that
  comes again has its entry replaced, and a pointer collected for it dangles.

  * `recomputeAdjRibOut_sent_iff`: no neighbor is sent anything exactly if each is `UpToDate`;
  * `Related`: the states of the loop and of one call for each prefix;
  * `recomputeBatch_iff`: when the two do the same.
-/
import VirtualRouter.Bgp.AdvertiseTwice
import VirtualRouter.Bgp.LocRibInstall

namespace VirtualRouter.Bgp

variable {ν : Type} [DecidableEq ν]

/-- A call of the NLRI policy. -/
inductive RibOp (ν : Type) where
  | install (nlri : ν) (route : LocalRoute)
  | withdraw (nlri : ν)

/-- What the body of the loop does for a prefix. -/
inductive NlriOutcome where
  | unreachable (had : Bool)
  | suppressed
  | kept (best : LocalRoute)
  | changed (best : LocalRoute)

/-- The calls of the policy for a prefix. -/
def NlriOutcome.ops (nlri : ν) : NlriOutcome → List (RibOp ν)
  | .unreachable true => [.withdraw nlri]
  | .changed best => [.install nlri best]
  | _ => []

/-- The body returns. -/
def NlriOutcome.stops : NlriOutcome → Bool
  | .unreachable _ => true
  | .suppressed => true
  | _ => false

@[simp] theorem NlriOutcome.stops_kept (best : LocalRoute) :
    (NlriOutcome.kept best).stops = false := rfl

@[simp] theorem NlriOutcome.stops_changed (best : LocalRoute) :
    (NlriOutcome.changed best).stops = false := rfl

def NlriOutcome.again : NlriOutcome → NlriOutcome
  | .unreachable _ => .unreachable false
  | .suppressed => .suppressed
  | .kept best => .kept best
  | .changed best => .kept best

theorem InStep.sent_grows {nlri : ν} {addr : IPAddress} {rid : UInt32} {out out' : OutState ν}
    (h : InStep nlri addr rid out out') (a : IPAddress) : out.sent a <+: out'.sent a := by
  by_cases ha : a = addr
  · obtain ⟨us, hsent, -⟩ := h.mirrors
    rw [ha, hsent]
    exact List.prefix_append _ _
  · rw [h.sent_other a ha]

namespace AddressFamilyInstance

variable (cfg : Config ν) (o : Oracle ν)

/-! ## The loop -/

def outcome (s : AddressFamilyInstance ν) (nlri : ν) : NlriOutcome :=
  match s.decision cfg o nlri, s.locRib.lookup nlri with
  | none, entry => .unreachable entry.isSome
  | some best, entry =>
    if cfg.family.dampening && entry.isNone && o.suppresses nlri then .suppressed
    else if entry.all fun e => e.route.addr ≠ best.route.addr then .changed best
    else .kept best

def body (s : AddressFamilyInstance ν) (nlri : ν) : AddressFamilyInstance ν :=
  match s.outcome cfg o nlri with
  | .unreachable true =>
    recomputeAdjRibOut cfg o
      { s.withdrawFromRib nlri with locRib := s.locRib.erase nlri } nlri none
  | .unreachable false => s
  | .suppressed => s
  | .kept best =>
    recomputeAdjRibOut cfg o { s with locRib := s.locRib.insert nlri best } nlri (some best)
  | .changed best =>
    recomputeAdjRibOut cfg o { s with locRib := s.locRib.insert nlri best } nlri (some best)

/-- The loop and `installToRib` behind it, with the calls of the policy; `installs` are the entries
    that the collected pointers refer to.  `none` if one of them dangles when it is read. -/
def batchFrom (s : AddressFamilyInstance ν) (installs : List (ν × LocalRoute)) (dangling : Bool) :
    List ν → Option (AddressFamilyInstance ν × List (RibOp ν))
  | [] =>
    if dangling then none
    else some (installs.foldl (fun s e => s.installToRib cfg o e.1 e.2) s,
      installs.map fun e => .install e.1 e.2)
  | nlri :: nlris =>
    let out := s.outcome cfg o nlri
    let s' := s.body cfg o nlri
    if out.stops then some (s', out.ops nlri)
    else
      -- the entry of the prefix is replaced
      let dangling := dangling || decide (nlri ∈ installs.map (·.1))
      match out with
      | .changed best => s'.batchFrom (installs ++ [(nlri, best)]) dangling nlris
      | _ => s'.batchFrom installs dangling nlris

/-- `recomputeNlri`, for a list of prefixes. -/
def recomputeBatch (s : AddressFamilyInstance ν) (nlris : List ν) :
    Option (AddressFamilyInstance ν × List (RibOp ν)) := s.batchFrom cfg o [] false nlris

/-- The calls of the policy when `recomputeNlri` is called for each prefix in turn. -/
def eachOps : AddressFamilyInstance ν → List ν → List (RibOp ν)
  | _, [] => []
  | s, nlri :: nlris => (s.outcome cfg o nlri).ops nlri ++ eachOps (s.recomputeNlri cfg o nlri) nlris

theorem recomputeNlri_eq (s : AddressFamilyInstance ν) (nlri : ν) :
    s.recomputeNlri cfg o nlri =
      match s.outcome cfg o nlri with
      | .changed best => (s.body cfg o nlri).installToRib cfg o nlri best
      | _ => s.body cfg o nlri := by
  unfold recomputeNlri body outcome
  cases s.decision cfg o nlri with
  | none => cases s.locRib.lookup nlri <;> rfl
  | some best =>
    simp only
    split
    · rfl
    · split <;> rfl

/-! ## One prefix -/

section Turn
variable {cfg o} {s s' : AddressFamilyInstance ν} {n : ν}

theorem outcome_congr (hin : SameIn s s') (hentry : s'.locRib.lookup n = s.locRib.lookup n) :
    s'.outcome cfg o n = s.outcome cfg o n := by
  rw [outcome, outcome, hin.decision, hentry]

theorem unreachable_of_outcome {had : Bool} (h : s.outcome cfg o n = .unreachable had) :
    s.decision cfg o n = none ∧ had = (s.locRib.lookup n).isSome := by
  unfold outcome at h
  cases hdecision : s.decision cfg o n with
  | none =>
    rw [hdecision] at h
    exact ⟨rfl, (NlriOutcome.unreachable.inj h).symm⟩
  | some best =>
    simp only [hdecision] at h
    split_ifs at h

theorem decision_of_outcome {best : LocalRoute}
    (h : s.outcome cfg o n = .kept best ∨ s.outcome cfg o n = .changed best) :
    s.decision cfg o n = some best := by
  unfold outcome at h
  cases hdecision : s.decision cfg o n with
  | none =>
    rw [hdecision] at h
    rcases h with h | h <;> cases h
  | some best' =>
    simp only [hdecision] at h
    split_ifs at h
    · rcases h with h | h <;> cases h
    · rcases h with h | h <;> cases h
      rfl
    · rcases h with h | h <;> cases h
      rfl

theorem outcome_again (cfg : Config ν) (o : Oracle ν) (s : AddressFamilyInstance ν) (n : ν) :
    (s.recomputeNlri cfg o n).outcome cfg o n = (s.outcome cfg o n).again := by
  have hdecision := (recomputeNlri_sameIn cfg o s n).decision cfg o n
  cases hbest : s.decision cfg o n with
  | none =>
    rw [hbest] at hdecision
    simp only [outcome, hdecision, recomputeNlri_none cfg o hbest, hbest, NlriOutcome.again,
      Option.isSome_none]
  | some best =>
    rw [hbest] at hdecision
    by_cases hheld : (cfg.family.dampening && (s.locRib.lookup n).isNone && o.suppresses n) = true
    · have hout : s.outcome cfg o n = .suppressed := by simp only [outcome, hbest, hheld, if_true]
      have hstay : s.recomputeNlri cfg o n = s := by
        rw [recomputeNlri_eq]
        simp only [body, hout]
      rw [hstay, hout]
      rfl
    · rw [Bool.not_eq_true] at hheld
      have hentry := (recomputeNlri_some cfg o hbest hheld).1
      have hkept : (s.recomputeNlri cfg o n).outcome cfg o n = .kept best := by
        simp [outcome, hdecision, hentry]
      rw [hkept]
      simp only [outcome, hbest, hheld, Bool.false_eq_true, if_false]
      split_ifs <;> rfl

theorem outcome_of_ne {m : ν} (hm : m ≠ n) :
    (s.recomputeNlri cfg o n).outcome cfg o m = s.outcome cfg o m :=
  outcome_congr (recomputeNlri_sameIn cfg o s n) (recomputeNlri_sameAt cfg o s hm).locRib

theorem stops_recomputeNlri (m : ν) :
    ((s.recomputeNlri cfg o n).outcome cfg o m).stops = (s.outcome cfg o m).stops := by
  by_cases hm : m = n
  · subst hm
    rw [outcome_again]
    cases s.outcome cfg o m <;> rfl
  · rw [outcome_of_ne hm]

theorem recomputeNlri_entry {best : LocalRoute}
    (h : s.outcome cfg o n = .kept best ∨ s.outcome cfg o n = .changed best) :
    (s.recomputeNlri cfg o n).locRib.lookup n = some best ∧
      (s.recomputeNlri cfg o n).out =
        (s.recomputeAdjRibOut cfg o n (some best)).out := by
  have hbody : (s.body cfg o n).locRib = s.locRib.insert n best ∧
      (s.body cfg o n).out = (s.recomputeAdjRibOut cfg o n (some best)).out := by
    rcases h with h | h <;> simp only [body, h] <;> exact ⟨rfl, rfl⟩
  have hsame : (s.recomputeNlri cfg o n).locRib = (s.body cfg o n).locRib ∧
      (s.recomputeNlri cfg o n).out = (s.body cfg o n).out := by
    rw [recomputeNlri_eq]
    rcases h with h | h <;> rw [h]
    · exact ⟨rfl, rfl⟩
    · exact ⟨(installToRib_vrf cfg o _ n best).1, installToRib_out cfg o _ n best⟩
  rw [hsame.1, hsame.2, hbody.1, hbody.2]
  exact ⟨AList.lookup_insert _, rfl⟩

theorem foldl_advertiseRound_grows (best : Option LocalRoute) (addr : IPAddress)
    (l : List ((_ : IPAddress) × NeighborState)) (out : OutState ν) :
    out.sent addr <+: (l.foldl (s.advertiseRound cfg o n best) out).sent addr := by
  induction l generalizing out with
  | nil => exact List.prefix_rfl
  | cons e l ih =>
    refine List.IsPrefix.trans ?_ (ih _)
    unfold advertiseRound
    cases e.2.session with
    | none => exact List.prefix_rfl
    | some ses =>
      exact InStep.sent_grows (advertiseTo_inStep cfg o s.inactive best ses) addr

theorem recomputeAdjRibOut_sent_grows (best : Option LocalRoute) (addr : IPAddress) :
    s.out.sent addr <+: (s.recomputeAdjRibOut cfg o n best).out.sent addr :=
  foldl_advertiseRound_grows best addr _ _

theorem recomputeNlri_sent_grows (cfg : Config ν) (o : Oracle ν) (s : AddressFamilyInstance ν)
    (n : ν) (addr : IPAddress) : s.out.sent addr <+: (s.recomputeNlri cfg o n).out.sent addr := by
  unfold recomputeNlri
  split
  · exact List.prefix_rfl
  · rw [← withdrawFromRib_out s n]
    exact recomputeAdjRibOut_sent_grows none addr
  · simp only
    split
    · exact List.prefix_rfl
    · split
      · rw [installToRib_out]
        exact recomputeAdjRibOut_sent_grows _ addr
      · exact recomputeAdjRibOut_sent_grows _ addr

theorem foldl_sent_grows (cfg : Config ν) (o : Oracle ν) (s : AddressFamilyInstance ν) (l : List ν)
    (addr : IPAddress) : s.out.sent addr <+: (l.foldl (recomputeNlri cfg o) s).out.sent addr := by
  induction l generalizing s with
  | nil => exact List.prefix_rfl
  | cons n l ih => exact (recomputeNlri_sent_grows cfg o s n addr).trans (ih _)

end Turn

/-! ## A neighbor that is told nothing -/

end AddressFamilyInstance

/-- A neighbor is told nothing: the prefix waits, or the table has what the neighbor is to have of it. -/
def UpToDate (cfg : Config ν) (o : Oracle ν) (inactive : IPAddress → Bool) (nlri : ν)
    (best : Option LocalRoute) (out : OutState ν) (addr : IPAddress) (ses : PeerSession) : Prop :=
  waits cfg o inactive nlri best out addr ses.peerRid = true ∨
    match if withdrawsAtOnce cfg inactive best then none else offered cfg o nlri best addr ses with
    | none => NoEntry out ses.peerRid nlri
    | some (b, isReflecting) => HasPaths cfg o nlri b isReflecting addr ses (out.adjRibOut ses.peerRid)

/-- What the rounds of other neighbors than the one at `addr` read is as it was. -/
structure SameRead (addr : IPAddress) (out out' : OutState ν) : Prop where
  table : out'.adjRibOut = out.adjRibOut
  sent : out'.sent = out.sent
  lastSent : ∀ rid, (out'.mraiState rid).lastSent = (out.mraiState rid).lastSent
  slow : ∀ a ≠ addr, out'.slowPeer a = out.slowPeer a
  bypass : out'.mraiBypassPeer = out.mraiBypassPeer

section UpToDate
variable {cfg : Config ν} {o : Oracle ν} {inactive : IPAddress → Bool} {nlri : ν}
  {best : Option LocalRoute} {out out' : OutState ν} {addr : IPAddress} {ses : PeerSession}

theorem rateLimit_sameRead (n : NeighborConfig) (rid : UInt32) :
    SameRead addr out (rateLimit n o nlri out addr rid).1 := by
  rcases rateLimit_cases o nlri out addr n rid with ⟨-, h⟩ | ⟨-, sp, h⟩ <;> rw [h]
  · refine ⟨rfl, rfl, fun r => ?_, fun _ _ => rfl, rfl⟩
    by_cases hr : r = rid
    · subst hr
      simp [OutState.defer, OutState.setMrai]
    · simp [OutState.defer, OutState.setMrai, hr]
  · exact ⟨rfl, rfl, fun _ => rfl, fun a ha => Function.update_of_ne ha .., rfl⟩

theorem withdrawFromPeer_sent (h : (out.withdrawFromPeer addr ses.peerRid nlri).sent addr = out.sent addr) :
    NoEntry out ses.peerRid nlri := by
  intro e he heq
  have hgone : ((out.adjRibOut ses.peerRid).filter fun e => e.1.nlri = nlri) ≠ [] :=
    List.ne_nil_of_mem (List.mem_filter.2 ⟨he, by simpa using heq⟩)
  simp [OutState.withdrawFromPeer, OutState.sendUpdate, hgone] at h

/-- **A round for a neighbor that is up to date** sends nothing, -/
theorem UpToDate.sameRead (h : UpToDate cfg o inactive nlri best out addr ses) :
    SameRead addr out (advertiseTo cfg o inactive nlri best out addr ses) := by
  have hlimit : SameRead addr out (rateLimit (cfg.neighbor addr) o nlri out addr ses.peerRid).1 :=
    rateLimit_sameRead _ _
  cases hwaits : waits cfg o inactive nlri best out addr ses.peerRid with
  | true => exact advertiseTo_of_waits hwaits ▸ hlimit
  | false =>
    have hround := h.resolve_left (by rw [hwaits]; exact Bool.false_ne_true)
    cases hearly : withdrawsAtOnce cfg inactive best with
    | true =>
      rw [hearly, if_pos rfl] at hround
      rw [advertiseTo_eq, if_pos hearly, withdrawFromPeer_of_noEntry hround]
      exact ⟨rfl, rfl, fun _ => rfl, fun _ _ => rfl, rfl⟩
    | false =>
      rw [hearly, if_neg Bool.false_ne_true] at hround
      rcases hoffered : offered cfg o nlri best addr ses with _ | ⟨b, isReflecting⟩
      · rw [hoffered] at hround
        rw [advertiseTo_eq]
        simp only [hearly, hwaits, hoffered, Bool.false_eq_true, if_false]
        rwa [withdrawFromPeer_of_noEntry fun e he => hround e (hlimit.table ▸ he)]
      · rw [hoffered] at hround
        rw [advertiseTo_of_offered hearly hwaits hoffered]
        simp only [announceTo, hlimit.table, egressUpdate_of_hasPaths hround, List.isEmpty_nil, Bool.and_self,
          if_true]
        refine ⟨?_, hlimit.sent, hlimit.lastSent, fun a ha => ?_, hlimit.bypass⟩
        · rw [OutState.setSlow_adjRibOut, OutState.setOut_adjRibOut, hlimit.table, Function.update_eq_self]
        · exact (Function.update_of_ne ha ..).trans (hlimit.slow a ha)

/-- and no other does. -/
theorem upToDate_of_sent
    (h : (advertiseTo cfg o inactive nlri best out addr ses).sent addr = out.sent addr) :
    UpToDate cfg o inactive nlri best out addr ses := by
  have hlimit : SameRead addr out (rateLimit (cfg.neighbor addr) o nlri out addr ses.peerRid).1 :=
    rateLimit_sameRead _ _
  cases hwaits : waits cfg o inactive nlri best out addr ses.peerRid with
  | true => exact .inl hwaits
  | false =>
    refine .inr ?_
    cases hearly : withdrawsAtOnce cfg inactive best with
    | true =>
      rw [advertiseTo_eq, if_pos hearly] at h
      exact withdrawFromPeer_sent h
    | false =>
      rw [if_neg Bool.false_ne_true]
      rcases hoffered : offered cfg o nlri best addr ses with _ | ⟨b, isReflecting⟩
      · rw [advertiseTo_eq] at h
        simp only [hearly, hwaits, hoffered, Bool.false_eq_true, if_false, ← hlimit.sent] at h
        exact fun e he => withdrawFromPeer_sent h e (hlimit.table ▸ he)
      · rw [advertiseTo_sent inactive best out hearly hwaits hoffered] at h
        dsimp only at h ⊢
        split_ifs at h with hempty
        · rw [Bool.and_eq_true, List.isEmpty_iff, List.isEmpty_iff] at hempty
          exact hasPaths_of_egressUpdate hempty.2 hempty.1
        · simp at h

theorem SameRead.upToDate_iff {addr' : IPAddress} (h : SameRead addr' out out') (hne : addr ≠ addr') :
    UpToDate cfg o inactive nlri best out' addr ses ↔ UpToDate cfg o inactive nlri best out addr ses := by
  have hlimit : (rateLimit (cfg.neighbor addr) o nlri out' addr ses.peerRid).2 =
      (rateLimit (cfg.neighbor addr) o nlri out addr ses.peerRid).2 := by
    simp only [rateLimit, h.bypass, h.lastSent, h.slow addr hne]
    split_ifs <;> rfl
  simp only [UpToDate, waits, hlimit, NoEntry, h.table]

end UpToDate

namespace AddressFamilyInstance

section Told
variable {cfg : Config ν} {o : Oracle ν} {s : AddressFamilyInstance ν} {n : ν} {best : Option LocalRoute}

theorem foldl_advertiseRound_sent_iff (l : List ((_ : IPAddress) × NeighborState))
    (hl : (l.map (·.1)).Nodup) (out : OutState ν) :
    (l.foldl (s.advertiseRound cfg o n best) out).sent = out.sent ↔
      ∀ e ∈ l, ∀ ses, e.2.session = some ses → UpToDate cfg o s.inactive n best out e.1 ses := by
  induction l generalizing out with
  | nil => simp
  | cons e l ih =>
    obtain ⟨he, hl⟩ := List.nodup_cons.1 hl
    rw [List.foldl_cons, List.forall_mem_cons]
    cases hses : e.2.session with
    | none =>
      have hround : s.advertiseRound cfg o n best out e = out := by simp only [advertiseRound, hses]
      rw [hround, ih hl]
      simp
    | some ses =>
      have hround : s.advertiseRound cfg o n best out e =
          advertiseTo cfg o s.inactive n best out e.1 ses := by
        simp only [advertiseRound, hses]
        rfl
      have hothers (hup : UpToDate cfg o s.inactive n best out e.1 ses) :
          (l.foldl (s.advertiseRound cfg o n best) (s.advertiseRound cfg o n best out e)).sent = out.sent ↔
            ∀ e ∈ l, ∀ ses, e.2.session = some ses → UpToDate cfg o s.inactive n best out e.1 ses := by
        have hsame := hround ▸ hup.sameRead
        rw [← hsame.sent, ih hl]
        refine forall₂_congr fun e' he' => forall₂_congr fun ses' _ => hsame.upToDate_iff ?_
        rintro heq
        exact he (List.mem_map.2 ⟨e', he', heq⟩)
      constructor
      · intro h
        have hup : UpToDate cfg o s.inactive n best out e.1 ses := by
          have hbefore : out.sent e.1 <+: (s.advertiseRound cfg o n best out e).sent e.1 :=
            foldl_advertiseRound_grows best e.1 [e] out
          have hafter : (s.advertiseRound cfg o n best out e).sent e.1 <+: out.sent e.1 := by
            rw [← h]
            exact foldl_advertiseRound_grows best e.1 l _
          refine upToDate_of_sent ?_
          rw [← hround]
          exact hafter.eq_of_length (Nat.le_antisymm hafter.length_le hbefore.length_le)
        exact ⟨fun ses' hses' => Option.some.inj hses' ▸ hup, (hothers hup).1 h⟩
      · rintro ⟨hhead, hrest⟩
        exact (hothers (hhead ses rfl)).2 hrest

/-- **A call sends nothing** if and only if every neighbor is up to date. -/
theorem recomputeAdjRibOut_sent_iff : (s.recomputeAdjRibOut cfg o n best).out.sent = s.out.sent ↔
    ∀ addr ses, s.sessionOf addr = some ses → UpToDate cfg o s.inactive n best s.out addr ses := by
  have hperm := o.order_perm s.neighbors.entries
  refine (foldl_advertiseRound_sent_iff _ ((hperm.map _).nodup_iff.2 s.neighbors.nodupKeys) s.out).trans ?_
  constructor
  · intro h addr ses ha
    obtain ⟨nbr, hnbr, hses⟩ := Option.bind_eq_some_iff.1 ha
    exact h ⟨addr, nbr⟩ (hperm.mem_iff.2 (AList.mem_lookup_iff.1 hnbr)) ses hses
  · intro h e he ses hses
    exact h e.1 ses ((sessionOf_of_mem (hperm.mem_iff.1 he)).trans hses)

end Told

/-! ## What is due -/

variable (cfg : Config ν) (o : Oracle ν)

/-- The loop and one call for each prefix have the same effect: the Loc-RIB, the calls of the policy
    as a set, and the UPDATEs. -/
structure SameEffect (batch : AddressFamilyInstance ν × List (RibOp ν)) (s : AddressFamilyInstance ν)
    (ops : List (RibOp ν)) : Prop where
  locRib : ∀ n, batch.1.locRib.lookup n = s.locRib.lookup n
  ops : ∀ op, op ∈ batch.2 ↔ op ∈ ops
  sent : batch.1.out.sent = s.out.sent

/-- Nothing is due for a prefix: it is not in the Loc-RIB and cannot be, or it is there with the
    routes of the decision and every peer has been told. -/
def Idle (s : AddressFamilyInstance ν) (n : ν) : Prop :=
  match s.outcome cfg o n with
  | .unreachable had => had = false
  | .suppressed => True
  | .kept best => s.locRib.lookup n = some best ∧
    ∀ addr ses, s.sessionOf addr = some ses → UpToDate cfg o s.inactive n (some best) s.out addr ses
  | .changed _ => False

/-- Nothing is due for the prefixes when their turns come. -/
def IdleRun : AddressFamilyInstance ν → List ν → Prop
  | _, [] => True
  | s, n :: l => Idle cfg o s n ∧ IdleRun (s.recomputeNlri cfg o n) l

/-- A prefix with a new best route comes once, and none that stops the loop behind it; behind one that
    does nothing is due. -/
def Batchable : AddressFamilyInstance ν → List ν → Prop
  | _, [] => True
  | s, n :: l =>
    match s.outcome cfg o n with
    | .unreachable _ => IdleRun cfg o (s.recomputeNlri cfg o n) l
    | .suppressed => IdleRun cfg o (s.recomputeNlri cfg o n) l
    | .kept _ => Batchable (s.recomputeNlri cfg o n) l
    | .changed _ => (∀ m ∈ l, (s.outcome cfg o m).stops = false) ∧ n ∉ l ∧
      Batchable (s.recomputeNlri cfg o n) l

/-- The loop and one call for each prefix do the same. -/
def BatchSame (s : AddressFamilyInstance ν) (nlris : List ν) : Prop :=
  ∃ batch, s.recomputeBatch cfg o nlris = some batch ∧
    SameEffect batch (nlris.foldl (recomputeNlri cfg o) s) (eachOps cfg o s nlris)

section Idle
variable {cfg o} {s : AddressFamilyInstance ν} {n : ν}

theorem Idle.recomputeNlri (h : Idle cfg o s n) :
    (∀ m, (s.recomputeNlri cfg o n).locRib.lookup m = s.locRib.lookup m) ∧
      (s.outcome cfg o n).ops n = [] ∧ (s.recomputeNlri cfg o n).out.sent = s.out.sent := by
  unfold Idle at h
  cases hout : s.outcome cfg o n with
  | unreachable had =>
    rw [hout] at h
    subst h
    have hstay : s.recomputeNlri cfg o n = s := by
      rw [recomputeNlri_eq]
      simp only [body, hout]
    rw [hstay]
    exact ⟨fun _ => rfl, rfl, rfl⟩
  | suppressed =>
    have hstay : s.recomputeNlri cfg o n = s := by
      rw [recomputeNlri_eq]
      simp only [body, hout]
    rw [hstay]
    exact ⟨fun _ => rfl, rfl, rfl⟩
  | kept best =>
    rw [hout] at h
    obtain ⟨hentry, hsends⟩ := recomputeNlri_entry (.inl hout)
    refine ⟨fun m => ?_, rfl, by rw [hsends, recomputeAdjRibOut_sent_iff.2 h.2]⟩
    by_cases hm : m = n
    · rw [hm, hentry, h.1]
    · exact (recomputeNlri_sameAt cfg o s hm).locRib
  | changed best =>
    rw [hout] at h
    exact h.elim

theorem foldl_entry {best : LocalRoute} (l : List ν)
    (hdecision : s.decision cfg o n = some best) (hentry : s.locRib.lookup n = some best) :
    (l.foldl (recomputeNlri cfg o) s).locRib.lookup n = some best := by
  induction l generalizing s with
  | nil => exact hentry
  | cons m l ih =>
    refine ih (((recomputeNlri_sameIn cfg o s m).decision cfg o n).trans hdecision) ?_
    by_cases hm : n = m
    · subst hm
      exact (recomputeNlri_some cfg o hdecision (by simp [hentry])).1
    · exact ((recomputeNlri_sameAt cfg o s hm).locRib).trans hentry

/-- **Behind the prefix that stops the loop** one call for each prefix has no effect if and only if
    nothing is due.  `w` are the calls of the policy that were made. -/
theorem idleRun_iff {w : List (RibOp ν)} (l : List ν)
    (hw : ∀ op ∈ w, ∃ m, op = .withdraw m ∧ s.locRib.lookup m = none) :
    ((∀ m, s.locRib.lookup m = (l.foldl (recomputeNlri cfg o) s).locRib.lookup m) ∧
        (∀ op ∈ eachOps cfg o s l, op ∈ w) ∧
        s.out.sent = (l.foldl (recomputeNlri cfg o) s).out.sent) ↔
      IdleRun cfg o s l := by
  induction l generalizing s with
  | nil => exact ⟨fun _ => trivial, fun _ => ⟨fun _ => rfl, by simp [eachOps], rfl⟩⟩
  | cons n l ih =>
    have hrest (hidle : Idle cfg o s n) := ih (s := s.recomputeNlri cfg o n) fun op hop => by
      obtain ⟨m, hm, hnone⟩ := hw op hop
      exact ⟨m, hm, (hidle.recomputeNlri.1 m).trans hnone⟩
    constructor
    · rintro ⟨hlocRib, hops, hsent⟩
      have hquiet : (s.recomputeNlri cfg o n).out.sent = s.out.sent := by
        funext addr
        have hbefore := recomputeNlri_sent_grows cfg o s n addr
        have hafter := foldl_sent_grows cfg o (s.recomputeNlri cfg o n) l addr
        rw [congrFun hsent addr] at hbefore ⊢
        exact hafter.eq_of_length (Nat.le_antisymm hafter.length_le hbefore.length_le)
      have hidle : Idle cfg o s n := by
        unfold Idle
        cases hout : s.outcome cfg o n with
        | unreachable had =>
          cases had with
          | false => rfl
          | true =>
            -- the withdrawal was made before, so that the entry is gone
            obtain ⟨m, hm, hnone⟩ := hw (.withdraw n) (hops _ (by simp [eachOps, hout, NlriOutcome.ops]))
            obtain rfl := RibOp.withdraw.inj hm
            have := (unreachable_of_outcome hout).2
            rw [hnone] at this
            cases this
        | suppressed => trivial
        | kept best =>
          obtain ⟨hentry, hsends⟩ := recomputeNlri_entry (.inl hout)
          refine ⟨?_, recomputeAdjRibOut_sent_iff.1 (by rw [← hsends, hquiet])⟩
          have hdecision := ((recomputeNlri_sameIn cfg o s n).decision cfg o n).trans
            (decision_of_outcome (.inl hout))
          exact (hlocRib n).trans (foldl_entry l hdecision hentry)
        | changed best =>
          obtain ⟨m, hm, -⟩ := hw (.install n best) (hops _ (by simp [eachOps, hout, NlriOutcome.ops]))
          cases hm
      obtain ⟨hentries, hnone, -⟩ := hidle.recomputeNlri
      refine ⟨hidle, (hrest hidle).1 ⟨fun m => (hentries m).trans (hlocRib m), fun op hop => ?_, ?_⟩⟩
      · exact hops op (List.mem_append_right _ hop)
      · exact hquiet.trans hsent
    · rintro ⟨hidle, hrun⟩
      obtain ⟨hentries, hnone, hsends⟩ := hidle.recomputeNlri
      obtain ⟨hlocRib, hops, hsent⟩ := (hrest hidle).2 hrun
      refine ⟨fun m => (hentries m).symm.trans (hlocRib m), ?_, hsends.symm.trans hsent⟩
      simpa only [eachOps, hnone, List.nil_append] using hops

end Idle

/-! ## The loop and one call for each prefix -/

/-- The states agree but for what an installation changes. -/
structure Related (s s' : AddressFamilyInstance ν) : Prop extends SameIn s s' where
  locRib : s'.locRib = s.locRib
  out : s'.out = s.out
  inactive : s'.inactive = s.inactive

section Related
variable {cfg o} {s s' : AddressFamilyInstance ν} {n : ν}

omit [DecidableEq ν] in
theorem Related.refl (s : AddressFamilyInstance ν) : Related s s := ⟨.refl s, rfl, rfl, rfl⟩

theorem registerNht_inactive (s : AddressFamilyInstance ν) (nlri : ν) (nh : IPAddress) :
    (s.registerNht cfg nlri nh).inactive = s.inactive := by
  unfold registerNht
  split_ifs
  · rfl
  · funext nh'
    by_cases hnh : nh' = nh
    · subst hnh
      simp only [inactive, Function.update_self, Option.any_some]
      cases s.nhtTable nh' <;> rfl
    · simp only [inactive, Function.update_of_ne hnh]

theorem installToRib_inactive (s : AddressFamilyInstance ν) (nlri : ν) (best : LocalRoute) :
    (s.installToRib cfg o nlri best).inactive = s.inactive := by
  unfold installToRib
  rw [registerNht_inactive]
  cases buildRoute cfg.family o nlri best <;> rfl

theorem Related.install (h : Related s s') (nlri : ν) (best : LocalRoute) :
    Related (s.installToRib cfg o nlri best) s' := by
  have hin := installToRib_sameIn cfg o s nlri best
  refine ⟨⟨?_, ?_, ?_, ?_, ?_, ?_⟩, ?_, ?_, ?_⟩
  · rw [hin.adjRibIn, h.adjRibIn]
  · rw [hin.networkLocalRoutes, h.networkLocalRoutes]
  · rw [hin.neighbors, h.neighbors]
  · rw [hin.peers, h.peers]
  · rw [hin.stalePeerNlris, h.stalePeerNlris]
  · rw [hin.staleTimers, h.staleTimers]
  · rw [(installToRib_vrf cfg o s nlri best).1, h.locRib]
  · rw [installToRib_out, h.out]
  · rw [installToRib_inactive, h.inactive]

theorem Related.outcome (h : Related s s') (n : ν) : s'.outcome cfg o n = s.outcome cfg o n :=
  outcome_congr h.toSameIn (by rw [h.locRib])

theorem Related.recomputeAdjRibOut (h : Related s s') (best : LocalRoute) :
    Related
      (recomputeAdjRibOut cfg o { s with locRib := s.locRib.insert n best } n (some best))
      (recomputeAdjRibOut cfg o { s' with locRib := s'.locRib.insert n best } n (some best)) := by
  have hround : advertiseRound cfg o s' n (some best) = advertiseRound cfg o s n (some best) := by
    funext out e
    unfold advertiseRound
    cases e.2.session with
    | none => rfl
    | some ses =>
      change advertiseTo cfg o s'.inactive n (some best) out e.1 ses = _
      rw [h.inactive]
      rfl
  refine ⟨⟨h.adjRibIn, h.networkLocalRoutes, h.neighbors, h.peers, h.stalePeerNlris, h.staleTimers⟩,
    ?_, ?_, h.inactive⟩
  · change s'.locRib.insert n best = s.locRib.insert n best
    rw [h.locRib]
  · change (o.order s'.neighbors.entries).foldl (advertiseRound cfg o s' n (some best)) s'.out =
      (o.order s.neighbors.entries).foldl (advertiseRound cfg o s n (some best)) s.out
    rw [hround, h.neighbors, h.out]

/-- **One prefix** that does not stop the loop. -/
theorem Related.body (h : Related s s') (hgoes : (s.outcome cfg o n).stops = false) :
    Related (s.recomputeNlri cfg o n) (s'.body cfg o n) := by
  rw [recomputeNlri_eq]
  unfold AddressFamilyInstance.body
  rw [h.outcome n]
  cases hout : s.outcome cfg o n with
  | unreachable had => rw [hout] at hgoes; cases hgoes
  | suppressed => rw [hout] at hgoes; cases hgoes
  | kept best => exact h.recomputeAdjRibOut best
  | changed best => exact (h.recomputeAdjRibOut best).install n best

theorem recomputeNlri_of_stops (hstops : (s.outcome cfg o n).stops = true) :
    s.recomputeNlri cfg o n = s.body cfg o n := by
  rw [recomputeNlri_eq]
  cases hout : s.outcome cfg o n with
  | changed best => rw [hout] at hstops; cases hstops
  | _ => rfl

theorem foldl_installToRib (installs : List (ν × LocalRoute)) (s : AddressFamilyInstance ν) :
    (installs.foldl (fun s e => s.installToRib cfg o e.1 e.2) s).locRib = s.locRib ∧
      (installs.foldl (fun s e => s.installToRib cfg o e.1 e.2) s).out = s.out := by
  induction installs generalizing s with
  | nil => exact ⟨rfl, rfl⟩
  | cons e installs ih =>
    obtain ⟨hlocRib, hout⟩ := ih (s.installToRib cfg o e.1 e.2)
    rw [(installToRib_vrf cfg o s e.1 e.2).1] at hlocRib
    rw [installToRib_out] at hout
    exact ⟨hlocRib, hout⟩

end Related

section Batch
variable {cfg o} {s s' : AddressFamilyInstance ν} {n : ν} {installs : List (ν × LocalRoute)}
  {dangling : Bool}

theorem batchFrom_nil_iff (h : Related s s') :
    (∃ b, s'.batchFrom cfg o installs dangling [] = some b ∧
      SameEffect b s (installs.map fun e => .install e.1 e.2)) ↔ dangling = false := by
  unfold batchFrom
  cases dangling with
  | true => simp
  | false =>
    refine iff_of_true ⟨_, rfl, fun n => ?_, fun op => Iff.rfl, ?_⟩ rfl
    · rw [(foldl_installToRib installs s').1, h.locRib]
    · rw [(foldl_installToRib installs s').2, h.out]

theorem batchFrom_stop_iff (h : installs = [] → s' = s)
    (hstops : (s'.outcome cfg o n).stops = true) (hstops' : (s.outcome cfg o n).stops = true)
    (l : List ν) :
    (∃ b, s'.batchFrom cfg o installs dangling (n :: l) = some b ∧
      SameEffect b (l.foldl (recomputeNlri cfg o) (s.recomputeNlri cfg o n))
        ((installs.map fun e => .install e.1 e.2) ++ eachOps cfg o s (n :: l))) ↔
      IdleRun cfg o (s.recomputeNlri cfg o n) l ∧ installs = [] := by
  have hops (op : RibOp ν) (hop : op ∈ (s'.outcome cfg o n).ops n) :
      op = .withdraw n ∧ (s'.recomputeNlri cfg o n).locRib.lookup n = none := by
    cases hout : s'.outcome cfg o n with
    | unreachable had =>
      rw [hout] at hop
      refine ⟨?_, recomputeNlri_none cfg o (unreachable_of_outcome hout).1⟩
      cases had with
      | true => simpa [NlriOutcome.ops] using hop
      | false => cases hop
    | suppressed => rw [hout] at hop; cases hop
    | kept best => rw [hout] at hop; cases hop
    | changed best => rw [hout] at hstops; cases hstops
  simp only [batchFrom, hstops, if_true, Option.some.injEq, exists_eq_left']
  cases installs with
  | cons e installs =>
    simp only [reduceCtorEq, and_false, iff_false]
    intro hsame
    cases (hops _ ((hsame.ops (.install e.1 e.2)).2 (by simp))).1
  | nil =>
    obtain rfl := h rfl
    rw [← recomputeNlri_of_stops hstops, List.map_nil, List.nil_append, and_iff_left rfl,
      ← idleRun_iff l fun op hop => ⟨n, hops op hop⟩]
    refine ⟨fun hsame => ⟨hsame.locRib, fun op hop => ?_, hsame.sent⟩, fun hidle => ?_⟩
    · exact (hsame.ops op).2 (List.mem_append_right _ hop)
    · exact ⟨hidle.1, fun op => ⟨List.mem_append_left _, fun hop =>
        (List.mem_append.1 hop).elim id (hidle.2.1 op)⟩, hidle.2.2⟩

/-- **The loop**, for collected entries `installs`. -/
theorem batchFrom_iff (l : List ν) (h : Related s s') (heq : installs = [] → s' = s) :
    (∃ b, s'.batchFrom cfg o installs dangling l = some b ∧
      SameEffect b (l.foldl (recomputeNlri cfg o) s)
        ((installs.map fun e => .install e.1 e.2) ++ eachOps cfg o s l)) ↔
      Batchable cfg o s l ∧
        (installs ≠ [] → ∀ m ∈ l, (s.outcome cfg o m).stops = false) ∧
        ((∀ m ∈ l, (s.outcome cfg o m).stops = false) →
          dangling = false ∧ ∀ m ∈ l, m ∉ installs.map (·.1)) := by
  induction l generalizing s s' installs dangling with
  | nil => simpa [Batchable, eachOps] using batchFrom_nil_iff h
  | cons n l ih =>
    have hout : s'.outcome cfg o n = s.outcome cfg o n := h.outcome n
    cases hstops : (s.outcome cfg o n).stops with
    | true =>
      have hbatch : Batchable cfg o s (n :: l) ↔ IdleRun cfg o (s.recomputeNlri cfg o n) l := by
        unfold Batchable
        cases hcase : s.outcome cfg o n with
        | unreachable had => rfl
        | suppressed => rfl
        | kept best => rw [hcase] at hstops; cases hstops
        | changed best => rw [hcase] at hstops; cases hstops
      rw [List.foldl_cons, batchFrom_stop_iff heq (by rw [hout, hstops]) hstops l, hbatch]
      simp [hstops]
    | false =>
      have hlater : (∀ m ∈ l, ((s.recomputeNlri cfg o n).outcome cfg o m).stops = false) ↔
          ∀ m ∈ l, (s.outcome cfg o m).stops = false := by simp only [stops_recomputeNlri]
      have hbody := h.body hstops
      cases hcase : s.outcome cfg o n with
      | unreachable had => rw [hcase] at hstops; cases hstops
      | suppressed => rw [hcase] at hstops; cases hstops
      | kept best =>
        have hsame : installs = [] → s'.body cfg o n = s.recomputeNlri cfg o n := fun hempty => by
          rw [heq hempty, recomputeNlri_eq, hcase]
        simp only [batchFrom, hout, hcase, NlriOutcome.stops_kept, Bool.false_eq_true, if_false,
          List.foldl_cons, eachOps, NlriOutcome.ops, List.nil_append, Batchable, List.forall_mem_cons,
          true_and]
        rw [ih hbody hsame, hlater, Bool.or_eq_false_iff, decide_eq_false_iff_not, and_assoc]
      | changed best =>
        have hops : (installs.map fun e => RibOp.install e.1 e.2) ++ eachOps cfg o s (n :: l) =
            ((installs ++ [(n, best)]).map fun e => RibOp.install e.1 e.2) ++
              eachOps cfg o (s.recomputeNlri cfg o n) l := by
          simp [eachOps, hcase, NlriOutcome.ops]
        rw [hops]
        simp only [batchFrom, hout, hcase, NlriOutcome.stops_changed, Bool.false_eq_true, if_false,
          List.foldl_cons, Batchable, List.forall_mem_cons, true_and]
        have hkeys : (∀ m ∈ l, m ∉ (installs ++ [(n, best)]).map (·.1)) ↔
            n ∉ l ∧ ∀ m ∈ l, m ∉ installs.map (·.1) := by
          simp only [List.map_append, List.map_cons, List.map_nil, List.mem_append,
            List.mem_singleton, not_or, forall₂_and, List.forall_mem_ne']
          exact and_comm
        rw [ih hbody (by simp), hlater, Bool.or_eq_false_iff, decide_eq_false_iff_not, and_assoc, hkeys]
        -- the prefix is collected, so that none behind it may stop the loop
        constructor
        · rintro ⟨hbatch, hgo, hkeep⟩
          have hrest := hgo (by simp)
          obtain ⟨hdangling, hn, hnot, hinstalls⟩ := hkeep hrest
          exact ⟨⟨hrest, hnot, hbatch⟩, fun _ => hrest, fun _ => ⟨hdangling, hn, hinstalls⟩⟩
        · rintro ⟨⟨hrest, hnot, hbatch⟩, -, hkeep⟩
          obtain ⟨hdangling, hn, hinstalls⟩ := hkeep hrest
          exact ⟨hbatch, fun _ => hrest, fun _ => ⟨hdangling, hn, hnot, hinstalls⟩⟩

/-- **When the loop does what one call for each prefix does.** -/
theorem recomputeBatch_iff (cfg : Config ν) (o : Oracle ν) (s : AddressFamilyInstance ν)
    (nlris : List ν) : BatchSame cfg o s nlris ↔ Batchable cfg o s nlris := by
  have h : (∃ batch, s.batchFrom cfg o [] false nlris = some batch ∧ _) ↔ _ :=
    batchFrom_iff nlris (Related.refl s) fun _ => rfl
  simpa [BatchSame, recomputeBatch] using h

/-- The prefix 11.0.0.0/8, of which there is no route. -/
def unreachableSample : UInt32 × UInt8 := (0x0B000000, 8)

def batchSample : AddressFamilyInstance (UInt32 × UInt8) where
  networkLocalRoutes := AList.singleton samplePrefix (networkRoute sampleConfig sampleOracle 1)

/-- Behind the unreachable prefix the other is not looked at; in front of it that is advertised and
    not installed. -/
theorem not_batchSame :
    ¬ BatchSame sampleConfig sampleOracle batchSample [unreachableSample, samplePrefix] ∧
      ¬ BatchSame sampleConfig sampleOracle batchSample [samplePrefix, unreachableSample] := by
  constructor
  · rintro ⟨batch, hbatch, hsame⟩
    have hentry := congrArg Option.isSome (hsame.locRib samplePrefix)
    have hnone : (batchSample.recomputeBatch sampleConfig sampleOracle
        [unreachableSample, samplePrefix]).all
          (fun b => (b.1.locRib.lookup samplePrefix).isNone) = true := by decide
    rw [hbatch, Option.all_some, Option.isNone_iff_eq_none] at hnone
    rw [hnone] at hentry
    revert hentry
    decide
  · rintro ⟨batch, hbatch, hsame⟩
    have hops : (batchSample.recomputeBatch sampleConfig sampleOracle
        [samplePrefix, unreachableSample]).all (fun b => b.2.isEmpty) = true := by decide
    rw [hbatch, Option.all_some, List.isEmpty_iff] at hops
    have hinstall : eachOps sampleConfig sampleOracle batchSample [samplePrefix, unreachableSample] ≠
        [] := by
      rw [← List.isEmpty_eq_false_iff]
      decide
    obtain ⟨op, hop⟩ := List.exists_mem_of_ne_nil _ hinstall
    have := (hsame.ops op).2 hop
    rw [hops] at this
    cases this

end Batch

end AddressFamilyInstance

end VirtualRouter.Bgp
