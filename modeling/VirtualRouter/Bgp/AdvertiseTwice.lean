/-
  `recomputeAdjRibOut` called again, as the periodic scan does for ever.

  To an ADD-PATH peer a path is sent under the router id of its source neighbor,
  and under 0 if it has none.  A second call withdraws the entries whose id is
  that of no source: the entry of a local route is among them and is announced
  again behind the withdrawal.  Two paths of one neighbor share an id, and each
  takes the place of the other.

  * `advertiseTo_eq`: the outcomes of one round;
  * `recomputeAdjRibOut_peerOut`: what a call does for one peer;
  * `repeatable_iff`: when a second call sends nothing.
-/
import VirtualRouter.Bgp.WithdrawPropagation

namespace VirtualRouter.Bgp

open EntryTable

variable {ν : Type} [DecidableEq ν]

/-! ## The outcomes of one round -/

def withdrawsAtOnce (cfg : Config ν) (inactive : IPAddress → Bool) (best : Option LocalRoute) : Bool :=
  best.all fun best => cfg.process.suppressInactive && best.route.sourceNeighbor.isSome &&
    inactive best.route.attrs.path.nextHop

def waits (cfg : Config ν) (o : Oracle ν) (inactive : IPAddress → Bool) (nlri : ν)
    (best : Option LocalRoute) (out : OutState ν) (addr : IPAddress) (rid : UInt32) : Bool :=
  !withdrawsAtOnce cfg inactive best && (rateLimit (cfg.neighbor addr) o nlri out addr rid).2

/-- The route that passes the checks behind the rate limit, and whether it is reflected. -/
def offered (cfg : Config ν) (o : Oracle ν) (nlri : ν) (best : Option LocalRoute)
    (addr : IPAddress) (ses : PeerSession) : Option (LocalRoute × Bool) :=
  best.bind fun best =>
    if !ses.active then none
    else (reflection cfg addr best).bind fun isReflecting =>
      if !(cfg.neighbor addr).activate || o.aggregateSuppressed nlri || !o.passesOrfFilter addr nlri
        then none
      else some (best, isReflecting)

section Round
variable (cfg : Config ν) (o : Oracle ν) (inactive : IPAddress → Bool) (nlri : ν)
  (best : Option LocalRoute) (out : OutState ν) (addr : IPAddress) (ses : PeerSession)

theorem rateLimit_cases (n : NeighborConfig) (rid : UInt32) :
    ((rateLimit n o nlri out addr rid).2 = true ∧
        (rateLimit n o nlri out addr rid).1 = out.defer rid nlri) ∨
      ((rateLimit n o nlri out addr rid).2 = false ∧
        ∃ sp, (rateLimit n o nlri out addr rid).1 = out.setSlow addr sp) := by
  have hsame : out = out.setSlow addr (out.slowPeer addr) := by
    rw [OutState.setSlow, Function.update_eq_self]
  unfold rateLimit
  split_ifs
  · exact .inr ⟨rfl, _, hsame⟩
  · exact .inl ⟨rfl, rfl⟩
  · exact .inl ⟨rfl, rfl⟩
  · exact .inl ⟨rfl, rfl⟩
  · exact .inr ⟨rfl, _, hsame⟩
  · exact .inr ⟨rfl, {}, rfl⟩
  · exact .inr ⟨rfl, _, hsame⟩

omit [DecidableEq ν] in
theorem offered_route {cfg : Config ν} {o : Oracle ν} {nlri : ν} {best : Option LocalRoute}
    {addr : IPAddress} {ses : PeerSession} {b : LocalRoute} {isReflecting : Bool}
    (h : offered cfg o nlri best addr ses = some (b, isReflecting)) : best = some b := by
  obtain ⟨best, rfl, hchecks⟩ := Option.bind_eq_some_iff.1 h
  split at hchecks
  · cases hchecks
  · obtain ⟨isReflecting', -, hroute⟩ := Option.bind_eq_some_iff.1 hchecks
    split at hroute
    · cases hroute
    · exact congrArg some (Prod.mk.inj (Option.some.inj hroute)).1

theorem rateLimit_out (n : NeighborConfig) (rid : UInt32) :
    (rateLimit n o nlri out addr rid).1.adjRibOut = out.adjRibOut ∧
      (rateLimit n o nlri out addr rid).1.sent = out.sent ∧
      (rateLimit n o nlri out addr rid).1.mraiBypassPeer = out.mraiBypassPeer := by
  rcases rateLimit_cases o nlri out addr n rid with ⟨-, h⟩ | ⟨-, sp, h⟩ <;> rw [h] <;>
    exact ⟨rfl, rfl, rfl⟩

theorem rateLimit_again (n : NeighborConfig) (rid : UInt32)
    (h : (rateLimit n o nlri out addr rid).2 = true) :
    (rateLimit n o nlri (rateLimit n o nlri out addr rid).1 addr rid).2 = true := by
  rcases rateLimit_cases o nlri out addr n rid with ⟨-, hdefer⟩ | ⟨hpass, -⟩
  · rw [hdefer, ← h]
    simp only [rateLimit, OutState.defer, OutState.setMrai, Function.update_self]
    split_ifs <;> rfl
  · rw [h] at hpass
    cases hpass

/-- **One round**: the prefix waits, is withdrawn or announced. -/
theorem advertiseTo_eq :
    advertiseTo cfg o inactive nlri best out addr ses =
      if withdrawsAtOnce cfg inactive best then out.withdrawFromPeer addr ses.peerRid nlri
      else
        let limited := rateLimit (cfg.neighbor addr) o nlri out addr ses.peerRid
        if waits cfg o inactive nlri best out addr ses.peerRid then limited.1
        else
          match offered cfg o nlri best addr ses with
          | none => limited.1.withdrawFromPeer addr ses.peerRid nlri
          | some (best, isReflecting) =>
            announceTo cfg o nlri best isReflecting limited.1 addr ses := by
  rcases best with _ | best
  · rfl
  · have hcheck : (cfg.process.suppressInactive && best.route.sourceNeighbor.isSome &&
        inactive best.route.attrs.path.nextHop) = withdrawsAtOnce cfg inactive (some best) := rfl
    simp only [advertiseTo, waits, offered, Option.bind_some, hcheck]
    by_cases hearly : withdrawsAtOnce cfg inactive (some best) = true
    · simp only [hearly, if_true]
    · rw [Bool.not_eq_true] at hearly
      simp only [hearly, Bool.false_eq_true, if_false, Bool.not_false, Bool.true_and]
      rcases rateLimit (cfg.neighbor addr) o nlri out addr ses.peerRid with ⟨out₁, _ | _⟩
      · simp only [Bool.false_eq_true, if_false]
        cases ses.active with
        | false => simp
        | true =>
          simp only [Bool.not_true, Bool.false_eq_true, if_false]
          rcases reflection cfg addr best with _ | isReflecting
          · rfl
          · simp only [Option.bind_some]
            split_ifs <;> rfl
      · rfl

variable {cfg o inactive nlri best out addr ses}

theorem advertiseTo_of_waits (h : waits cfg o inactive nlri best out addr ses.peerRid = true) :
    advertiseTo cfg o inactive nlri best out addr ses =
      (rateLimit (cfg.neighbor addr) o nlri out addr ses.peerRid).1 := by
  have hearly : withdrawsAtOnce cfg inactive best = false := by
    rw [waits, Bool.and_eq_true, Bool.not_eq_true'] at h
    exact h.1
  rw [advertiseTo_eq]
  simp only [hearly, h, Bool.false_eq_true, if_false, if_true]

theorem advertiseTo_of_offered {b : LocalRoute} {isReflecting : Bool}
    (hearly : withdrawsAtOnce cfg inactive best = false)
    (hwaits : waits cfg o inactive nlri best out addr ses.peerRid = false)
    (hoffered : offered cfg o nlri best addr ses = some (b, isReflecting)) :
    advertiseTo cfg o inactive nlri best out addr ses =
      announceTo cfg o nlri b isReflecting
        (rateLimit (cfg.neighbor addr) o nlri out addr ses.peerRid).1 addr ses := by
  rw [advertiseTo_eq]
  simp only [hearly, hwaits, hoffered, Bool.false_eq_true, if_false]

end Round

/-! ## What belongs to one peer -/

/-- What one round reads and writes. -/
@[ext] structure PeerOut (ν : Type) where
  table : PerPeerOutTable ν
  sent : List (BuildUpdate ν)
  mrai : MraiState ν
  slow : SlowPeer
  bypass : UInt32

/-- The part of the neighbor at `addr` with the router id `rid`. -/
def OutState.peerOut (out : OutState ν) (addr : IPAddress) (rid : UInt32) : PeerOut ν :=
  ⟨out.adjRibOut rid, out.sent addr, out.mraiState rid, out.slowPeer addr, out.mraiBypassPeer⟩

section PeerOut
variable {out out' : OutState ν} {addr addr' : IPAddress} {rid rid' : UInt32}

omit [DecidableEq ν] in
theorem peerOut_eq_iff : out.peerOut addr rid = out'.peerOut addr rid ↔
    out.adjRibOut rid = out'.adjRibOut rid ∧ out.sent addr = out'.sent addr ∧
      out.mraiState rid = out'.mraiState rid ∧ out.slowPeer addr = out'.slowPeer addr ∧
      out.mraiBypassPeer = out'.mraiBypassPeer := by
  simp only [OutState.peerOut, PeerOut.mk.injEq]

/-! ### The operations are local -/

theorem peerOut_withdrawFromPeer (h : out.peerOut addr rid = out'.peerOut addr rid) (nlri : ν) :
    (out.withdrawFromPeer addr rid nlri).peerOut addr rid =
      (out'.withdrawFromPeer addr rid nlri).peerOut addr rid := by
  have hparts := peerOut_eq_iff.1 h
  simp only [OutState.withdrawFromPeer, hparts.1]
  split_ifs
  · exact h
  · simpa [peerOut_eq_iff, OutState.setOut, OutState.sendUpdate] using hparts.2

theorem peerOut_withdrawFromPeer_of_ne (ha : addr' ≠ addr) (hr : rid' ≠ rid) (nlri : ν) :
    (out.withdrawFromPeer addr rid nlri).peerOut addr' rid' = out.peerOut addr' rid' := by
  simp only [OutState.withdrawFromPeer]
  split_ifs
  · rfl
  · simp [peerOut_eq_iff, OutState.setOut, OutState.sendUpdate, ha, hr]

theorem peerOut_rateLimit (h : out.peerOut addr rid = out'.peerOut addr rid) (n : NeighborConfig)
    (o : Oracle ν) (nlri : ν) :
    (rateLimit n o nlri out addr rid).1.peerOut addr rid =
        (rateLimit n o nlri out' addr rid).1.peerOut addr rid ∧
      (rateLimit n o nlri out addr rid).2 = (rateLimit n o nlri out' addr rid).2 := by
  obtain ⟨htable, hsent, hmrai, hslow, hbypass⟩ := peerOut_eq_iff.1 h
  simp only [rateLimit, hmrai, hslow, hbypass]
  split_ifs <;>
    simp [peerOut_eq_iff, OutState.defer, OutState.setMrai, OutState.setSlow, htable, hsent, hmrai,
      hslow, hbypass]

theorem peerOut_rateLimit_of_ne (ha : addr' ≠ addr) (hr : rid' ≠ rid) (n : NeighborConfig)
    (o : Oracle ν) (nlri : ν) :
    (rateLimit n o nlri out addr rid).1.peerOut addr' rid' = out.peerOut addr' rid' := by
  rcases rateLimit_cases o nlri out addr n rid with ⟨-, h⟩ | ⟨-, sp, h⟩
  · rw [h]
    simp [peerOut_eq_iff, OutState.defer, OutState.setMrai, hr]
  · rw [h]
    simp [peerOut_eq_iff, OutState.setSlow, ha]

section Announce
variable (cfg : Config ν) (o : Oracle ν) (nlri : ν) (best : LocalRoute) (isReflecting : Bool)
  (ses : PeerSession)

theorem peerOut_announceTo (out : OutState ν) (addr : IPAddress) :
    (announceTo cfg o nlri best isReflecting out addr ses).peerOut addr ses.peerRid =
    let part := out.peerOut addr ses.peerRid
    let r := egressUpdate cfg o nlri best isReflecting addr ses part.table
    { table := r.1
      sent := if r.2.announcements.isEmpty && r.2.withdrawn.isEmpty then part.sent
        else part.sent ++ [r.2]
      mrai := if r.2.announcements.isEmpty then part.mrai
        else { part.mrai with lastSent := o.now, pending := part.mrai.pending.erase nlri }
      slow := detectSlow (cfg.neighbor addr) o addr part.slow
      bypass := part.bypass } := by
  simp only [announceTo, OutState.peerOut]
  refine PeerOut.ext ?_ ?_ ?_ ?_ ?_ <;> split_ifs <;>
    simp_all [OutState.setOut, OutState.sendUpdate, OutState.setMrai, OutState.setSlow]

theorem peerOut_announceTo_of_ne (ha : addr' ≠ addr) (hr : rid' ≠ ses.peerRid) :
    (announceTo cfg o nlri best isReflecting out addr ses).peerOut addr' rid' =
      out.peerOut addr' rid' := by
  simp only [announceTo]
  rw [peerOut_eq_iff]
  split_ifs <;>
    simp [OutState.setOut, OutState.sendUpdate, OutState.setMrai, OutState.setSlow, ha, hr]

end Announce

section Round
variable (cfg : Config ν) (o : Oracle ν) (inactive : IPAddress → Bool) (nlri : ν)
  (best : Option LocalRoute) (ses : PeerSession)

theorem waits_congr (h : out.peerOut addr rid = out'.peerOut addr rid) :
    waits cfg o inactive nlri best out addr rid = waits cfg o inactive nlri best out' addr rid := by
  rw [waits, waits, (peerOut_rateLimit h _ o nlri).2]

theorem peerOut_advertiseTo (h : out.peerOut addr ses.peerRid = out'.peerOut addr ses.peerRid) :
    (advertiseTo cfg o inactive nlri best out addr ses).peerOut addr ses.peerRid =
      (advertiseTo cfg o inactive nlri best out' addr ses).peerOut addr ses.peerRid := by
  have hlimit := (peerOut_rateLimit h (cfg.neighbor addr) o nlri).1
  rw [advertiseTo_eq, advertiseTo_eq, waits_congr cfg o inactive nlri best h]
  dsimp only
  split_ifs
  · exact peerOut_withdrawFromPeer h nlri
  · exact hlimit
  · rcases offered cfg o nlri best addr ses with _ | ⟨best, isReflecting⟩
    · exact peerOut_withdrawFromPeer hlimit nlri
    · rw [peerOut_announceTo, peerOut_announceTo, hlimit]

theorem peerOut_advertiseTo_of_ne (ha : addr' ≠ addr) (hr : rid' ≠ ses.peerRid) :
    (advertiseTo cfg o inactive nlri best out addr ses).peerOut addr' rid' =
      out.peerOut addr' rid' := by
  have hlimit : (rateLimit (cfg.neighbor addr) o nlri out addr ses.peerRid).1.peerOut addr' rid' =
      out.peerOut addr' rid' := peerOut_rateLimit_of_ne ha hr _ o nlri
  rw [advertiseTo_eq]
  dsimp only
  split_ifs
  · exact peerOut_withdrawFromPeer_of_ne ha hr nlri
  · exact hlimit
  · rcases offered cfg o nlri best addr ses with _ | ⟨best, isReflecting⟩
    · exact (peerOut_withdrawFromPeer_of_ne ha hr nlri).trans hlimit
    · exact (peerOut_announceTo_of_ne cfg o nlri best isReflecting ses ha hr).trans hlimit

end Round

end PeerOut

namespace AddressFamilyInstance

variable (cfg : Config ν) (o : Oracle ν) (s : AddressFamilyInstance ν) (nlri : ν)
  (best : Option LocalRoute)

/-- The next hops tracked as unreachable. -/
def inactive (nh : IPAddress) : Bool := (s.nhtTable nh).any (!·.reachable)

theorem foldl_advertiseRound_of_ne (huniq : UniqueRids s.sessionOf) {addr : IPAddress}
    {ses : PeerSession} (ha : s.sessionOf addr = some ses)
    {l : List ((_ : IPAddress) × NeighborState)} (hl : ∀ e ∈ l, e ∈ s.neighbors.entries)
    (hne : addr ∉ l.map (·.1)) (out : OutState ν) :
    (l.foldl (s.advertiseRound cfg o nlri best) out).peerOut addr ses.peerRid =
      out.peerOut addr ses.peerRid := by
  induction l generalizing out with
  | nil => rfl
  | cons e l ih =>
    rw [List.map_cons, List.mem_cons, not_or] at hne
    rw [List.foldl_cons, ih (fun e' he' => hl e' (.tail _ he')) hne.2]
    unfold advertiseRound
    cases hses : e.2.session with
    | none => rfl
    | some ses' =>
      refine peerOut_advertiseTo_of_ne _ _ _ _ _ _ hne.1 fun hr => hne.1 ?_
      exact huniq addr e.1 ses ses' ha ((sessionOf_of_mem (hl e (.head _))).trans hses) hr

/-- **One call for one peer** is one round for it. -/
theorem recomputeAdjRibOut_peerOut (huniq : UniqueRids s.sessionOf) {addr : IPAddress}
    {ses : PeerSession} (ha : s.sessionOf addr = some ses) :
    (s.recomputeAdjRibOut cfg o nlri best).out.peerOut addr ses.peerRid =
      (advertiseTo cfg o s.inactive nlri best s.out addr ses).peerOut addr ses.peerRid := by
  obtain ⟨nbr, hnbr, hses⟩ := Option.bind_eq_some_iff.1 ha
  have hperm := o.order_perm s.neighbors.entries
  have hmem : (⟨addr, nbr⟩ : (_ : IPAddress) × NeighborState) ∈ o.order s.neighbors.entries :=
    hperm.mem_iff.2 (AList.mem_lookup_iff.1 hnbr)
  have hnodup : ((o.order s.neighbors.entries).map (·.1)).Nodup :=
    (hperm.map _).nodup_iff.2 s.neighbors.nodupKeys
  obtain ⟨l₁, l₂, hl⟩ := List.append_of_mem hmem
  have hin : ∀ e ∈ l₁ ++ ⟨addr, nbr⟩ :: l₂, e ∈ s.neighbors.entries := fun e he =>
    hperm.mem_iff.1 (hl ▸ he)
  rw [hl, List.map_append, List.map_cons, List.nodup_middle, List.nodup_cons, List.mem_append,
    not_or] at hnodup
  change ((o.order s.neighbors.entries).foldl _ s.out).peerOut addr ses.peerRid = _
  rw [hl, List.foldl_append, List.foldl_cons,
    foldl_advertiseRound_of_ne cfg o s nlri best huniq ha
      (fun e he => hin e (List.mem_append_right _ (.tail _ he))) hnodup.1.2]
  have hround (out : OutState ν) : s.advertiseRound cfg o nlri best out ⟨addr, nbr⟩ =
      advertiseTo cfg o s.inactive nlri best out addr ses := by
    simp only [advertiseRound, hses]
    rfl
  rw [hround]
  exact peerOut_advertiseTo cfg o s.inactive nlri best ses
    (foldl_advertiseRound_of_ne cfg o s nlri best huniq ha
      (fun e he => hin e (List.mem_append_left _ he)) hnodup.1.1 _)

end AddressFamilyInstance

/-! ## The table after a call -/

/-- The attributes in the first entry of a key. -/
def held (t : PerPeerOutTable ν) (key : NlriPath ν) : Option PathAttribute :=
  (t.find? fun e => e.1 = key).map (·.2)

section Held
variable {nlri : ν} {pathId : InboundRoute → UInt32} {attrs : InboundRoute → PathAttribute}
  {acc : PerPeerOutTable ν × List (Announcement ν)} {route : InboundRoute}

theorem held_cons (e : NlriPath ν × PathAttribute) (t : PerPeerOutTable ν) (key : NlriPath ν) :
    held (e :: t) key = if e.1 = key then some e.2 else held t key := by
  by_cases h : e.1 = key <;> simp [held, h]

theorem held_eraseP_of_ne (t : PerPeerOutTable ν) {key key' : NlriPath ν} (h : key' ≠ key) :
    held (t.eraseP fun e => e.1 = key) key' = held t key' := by
  induction t with
  | nil => rfl
  | cons e t ih =>
    by_cases he : e.1 = key
    · rw [List.eraseP_cons_of_pos (by simpa using he), held_cons, if_neg (he ▸ h.symm)]
    · rw [List.eraseP_cons_of_neg (by simpa using he), held_cons, held_cons, ih]

theorem any_find?_eq (t : PerPeerOutTable ν) (key : NlriPath ν) (pa : PathAttribute) :
    (t.find? fun e => e.1 = key).any (·.2 = pa) = decide (held t key = some pa) := by
  unfold held
  cases t.find? fun e => e.1 = key <;> simp

theorem announcePath_of_held (h : held acc.1 ⟨nlri, pathId route⟩ = some (attrs route)) :
    announcePath nlri pathId attrs acc route = acc := by
  simp only [announcePath, any_find?_eq, h, decide_true, if_true]

theorem held_announcePath (acc : PerPeerOutTable ν × List (Announcement ν)) (route : InboundRoute)
    (key : NlriPath ν) : held (announcePath nlri pathId attrs acc route).1 key =
      if key = ⟨nlri, pathId route⟩ then some (attrs route) else held acc.1 key := by
  by_cases hheld : held acc.1 ⟨nlri, pathId route⟩ = some (attrs route)
  · rw [announcePath_of_held hheld]
    split_ifs with hkey
    · rw [hkey, hheld]
    · rfl
  · simp only [announcePath, any_find?_eq, decide_eq_true_eq, if_neg hheld, held_cons]
    split_ifs with h₁ h₂ h₂
    · rfl
    · exact absurd h₁.symm h₂
    · exact absurd h₂.symm h₁
    · exact held_eraseP_of_ne _ h₂

theorem of_mem_announcePath {e : NlriPath ν × PathAttribute}
    (he : e ∈ (announcePath nlri pathId attrs acc route).1) :
    e ∈ acc.1 ∨ e.1 = ⟨nlri, pathId route⟩ := by
  simp only [announcePath] at he
  split_ifs at he
  · exact .inl he
  · rcases List.mem_cons.1 he with rfl | he
    · exact .inr rfl
    · exact .inl (List.mem_of_mem_eraseP he)

theorem held_foldl_announcePath {paths : List InboundRoute}
    (hsame : ∀ r ∈ paths, pathId r = pathId route → attrs r = attrs route)
    (h : route ∈ paths ∨ held acc.1 ⟨nlri, pathId route⟩ = some (attrs route)) :
    held (paths.foldl (announcePath nlri pathId attrs) acc).1 ⟨nlri, pathId route⟩ =
      some (attrs route) := by
  induction paths generalizing acc with
  | nil => exact h.resolve_left List.not_mem_nil
  | cons r paths ih =>
    refine ih (fun r' hr' => hsame r' (.tail _ hr')) ?_
    rw [held_announcePath]
    by_cases hid : pathId r = pathId route
    · rw [if_pos (by rw [hid]), hsame r (.head _) hid]
      exact .inr rfl
    · rw [if_neg fun hkey => hid (congrArg NlriPath.pathId hkey).symm]
      refine h.imp_left fun hmem => (List.mem_cons.1 hmem).resolve_left ?_
      rintro rfl
      exact hid rfl

theorem foldl_announcePath_of_held {paths : List InboundRoute}
    (h : ∀ r ∈ paths, held acc.1 ⟨nlri, pathId r⟩ = some (attrs r)) :
    paths.foldl (announcePath nlri pathId attrs) acc = acc := by
  induction paths with
  | nil => rfl
  | cons r paths ih =>
    rw [List.foldl_cons, announcePath_of_held (h r (.head _))]
    exact ih fun r' hr' => h r' (.tail _ hr')

theorem length_foldl_announcePath (paths : List InboundRoute) :
    acc.2.length ≤ (paths.foldl (announcePath nlri pathId attrs) acc).2.length := by
  induction paths generalizing acc with
  | nil => exact le_rfl
  | cons r paths ih =>
    refine le_trans ?_ ih
    simp only [announcePath]
    split_ifs <;> simp

theorem held_of_foldl_announcePath {paths : List InboundRoute}
    (h : (paths.foldl (announcePath nlri pathId attrs) acc).2 = acc.2) :
    ∀ r ∈ paths, held acc.1 ⟨nlri, pathId r⟩ = some (attrs r) := by
  induction paths with
  | nil => simp
  | cons r paths ih =>
    rw [List.foldl_cons] at h
    by_cases hheld : held acc.1 ⟨nlri, pathId r⟩ = some (attrs r)
    · rw [announcePath_of_held hheld] at h
      exact List.forall_mem_cons.2 ⟨hheld, ih h⟩
    · have hlen : (announcePath nlri pathId attrs acc r).2.length ≤ acc.2.length :=
        h ▸ length_foldl_announcePath paths
      simp [announcePath, any_find?_eq, hheld] at hlen

theorem of_mem_foldl_announcePath {paths : List InboundRoute} {e : NlriPath ν × PathAttribute}
    (he : e ∈ (paths.foldl (announcePath nlri pathId attrs) acc).1) :
    e ∈ acc.1 ∨ ∃ r ∈ paths, e.1 = ⟨nlri, pathId r⟩ := by
  induction paths generalizing acc with
  | nil => exact .inl he
  | cons r paths ih =>
    rcases ih he with he | ⟨r', hr', hkey⟩
    · exact (of_mem_announcePath he).imp_right fun hkey => ⟨r, .head _, hkey⟩
    · exact .inr ⟨r', .tail _ hr', hkey⟩

end Held

/-! ## A second round for a peer -/

/-- A later call, for which the parts that are not modelled answer the same. -/
structure Oracle.Follows (o' o : Oracle ν) : Prop where
  now : o.now ≤ o'.now
  aggregateSuppressed : o'.aggregateSuppressed = o.aggregateSuppressed
  passesOrfFilter : o'.passesOrfFilter = o.passesOrfFilter
  nullRid : o'.nullRid = o.nullRid

omit [DecidableEq ν] in
theorem Oracle.Follows.refl (o : Oracle ν) : o.Follows o := ⟨le_rfl, rfl, rfl, rfl⟩

/-- The paths that an ADD-PATH neighbor is sent come from different neighbors. -/
def SourcesDiffer (cfg : Config ν) (addr : IPAddress) (ses : PeerSession) (best : LocalRoute) : Prop :=
  ses.addPathSend = true →
    let paths := egressPaths cfg.family (cfg.neighbor addr) ses.addPathSend best
    (∀ r ∈ paths, r.sourceNeighbor.isSome) ∧
      ∀ r ∈ paths, ∀ r' ∈ paths, sourceRid 0 r = sourceRid 0 r' → r = r'

section Again
variable {cfg : Config ν} {o o' : Oracle ν} {nlri : ν} {addr : IPAddress} {ses : PeerSession}

omit [DecidableEq ν] in
theorem mem_egressPaths {f : FamilyConfig ν} {n : NeighborConfig} {best : LocalRoute}
    {r : InboundRoute} (hr : r ∈ egressPaths f n false best) : r = best.route := by
  simpa [egressPaths] using hr

omit [DecidableEq ν] in
theorem egressAttrs_follows (h : o'.Follows o) (isReflecting : Bool) :
    egressAttrs cfg o' addr ses isReflecting = egressAttrs cfg o addr ses isReflecting := by
  funext route
  simp only [egressAttrs, h.nullRid]

omit [DecidableEq ν] in
theorem offered_follows (h : o'.Follows o) (best : Option LocalRoute) :
    offered cfg o' nlri best addr ses = offered cfg o nlri best addr ses := by
  simp only [offered, h.aggregateSuppressed, h.passesOrfFilter]

omit [DecidableEq ν] in
theorem SourcesDiffer.eq_of_pathId {best : LocalRoute} (h : SourcesDiffer cfg addr ses best)
    {r r' : InboundRoute} (hr : r ∈ egressPaths cfg.family (cfg.neighbor addr) ses.addPathSend best)
    (hr' : r' ∈ egressPaths cfg.family (cfg.neighbor addr) ses.addPathSend best)
    (hid : egressPathId ses r = egressPathId ses r') : r = r' := by
  unfold SourcesDiffer at h
  cases hadd : ses.addPathSend with
  | false =>
    rw [hadd] at hr hr'
    exact (mem_egressPaths hr).trans (mem_egressPaths hr').symm
  | true =>
    simp only [egressPathId, hadd, if_true] at hid
    exact (h hadd).2 r hr r' hr' hid

/-- The table has what the neighbor is to have of the prefix: the paths of the route with their
    attributes, and no entry that is withdrawn. -/
structure HasPaths (cfg : Config ν) (o : Oracle ν) (nlri : ν) (best : LocalRoute) (isReflecting : Bool)
    (addr : IPAddress) (ses : PeerSession) (t : PerPeerOutTable ν) : Prop where
  held : ∀ r ∈ egressPaths cfg.family (cfg.neighbor addr) ses.addPathSend best,
    held t ⟨nlri, egressPathId ses r⟩ = some (egressAttrs cfg o addr ses isReflecting r)
  active : ∀ e ∈ t, inactivePath ses nlri
    (egressPaths cfg.family (cfg.neighbor addr) ses.addPathSend best) e.1 = false

theorem filter_active {paths : List InboundRoute} {t : PerPeerOutTable ν}
    (h : ∀ e ∈ t, inactivePath ses nlri paths e.1 = false) :
    (t.filter fun e => !inactivePath ses nlri paths e.1) = t ∧
      (t.filter fun e => inactivePath ses nlri paths e.1) = [] :=
  ⟨List.filter_eq_self.2 fun e he => by simp [h e he], List.filter_eq_nil_iff.2 fun e he => by simp [h e he]⟩

theorem egressUpdate_of_hasPaths {best : LocalRoute} {isReflecting : Bool} {t : PerPeerOutTable ν}
    (h : HasPaths cfg o nlri best isReflecting addr ses t) :
    egressUpdate cfg o nlri best isReflecting addr ses t = (t, {}) := by
  obtain ⟨hstay, hgone⟩ := filter_active h.active
  simp only [egressUpdate]
  rw [hstay, hgone, foldl_announcePath_of_held h.held]
  rfl

theorem hasPaths_of_egressUpdate {best : LocalRoute} {isReflecting : Bool} {t : PerPeerOutTable ν}
    (hwithdrawn : (egressUpdate cfg o nlri best isReflecting addr ses t).2.withdrawn = [])
    (hannounced : (egressUpdate cfg o nlri best isReflecting addr ses t).2.announcements = []) :
    HasPaths cfg o nlri best isReflecting addr ses t := by
  simp only [egressUpdate] at hwithdrawn hannounced
  have hactive : ∀ e ∈ t, inactivePath ses nlri
      (egressPaths cfg.family (cfg.neighbor addr) ses.addPathSend best) e.1 = false := fun e he => by
    simpa using List.filter_eq_nil_iff.1 (List.map_eq_nil_iff.1 hwithdrawn) e he
  rw [(filter_active hactive).1] at hannounced
  exact ⟨held_of_foldl_announcePath hannounced, hactive⟩

theorem egressUpdate_again (h : o'.Follows o) {best : LocalRoute} (isReflecting : Bool)
    (hdiffer : SourcesDiffer cfg addr ses best) (t : PerPeerOutTable ν) :
    (egressUpdate cfg o' nlri best isReflecting addr ses
      (egressUpdate cfg o nlri best isReflecting addr ses t).1).2 = {} := by
  set paths := egressPaths cfg.family (cfg.neighbor addr) ses.addPathSend best with hpaths
  simp only [egressUpdate, ← hpaths, egressAttrs_follows h]
  set acc : PerPeerOutTable ν × List (Announcement ν) :=
    (t.filter fun e => !inactivePath ses nlri paths e.1, [])
  set t₁ := (paths.foldl
    (announcePath nlri (egressPathId ses) (egressAttrs cfg o addr ses isReflecting)) acc).1
  have hactive : ∀ e ∈ t₁, inactivePath ses nlri paths e.1 = false := by
    intro e he
    rcases of_mem_foldl_announcePath he with he | ⟨r, hr, hkey⟩
    · simpa using (List.mem_filter.1 he).2
    · cases hadd : ses.addPathSend with
      | false => simp [inactivePath, hadd]
      | true =>
        -- the id is that of the source
        obtain ⟨source, hsource⟩ := Option.isSome_iff_exists.1 ((hdiffer hadd).1 r hr)
        have hany : (paths.any fun r' => r'.sourceNeighbor.any (·.rid = e.1.pathId)) = true :=
          List.any_eq_true.2 ⟨r, hr, by simp [hkey, egressPathId, hadd, sourceRid, hsource]⟩
        simp [inactivePath, hany]
  refine congrArg Prod.snd (egressUpdate_of_hasPaths ⟨fun r hr => ?_, hactive⟩)
  refine held_foldl_announcePath (fun r' hr' hid => ?_) (.inl hr)
  rw [hdiffer.eq_of_pathId hr' hr hid]

theorem egressUpdate_withdraws (h : o'.Follows o) {best : LocalRoute} (isReflecting : Bool)
    (hadd : ses.addPathSend = true) {route : InboundRoute}
    (hroute : route ∈ egressPaths cfg.family (cfg.neighbor addr) ses.addPathSend best)
    (hlocal : route.sourceNeighbor = none)
    (hids : ∀ r ∈ egressPaths cfg.family (cfg.neighbor addr) ses.addPathSend best,
      egressPathId ses r = egressPathId ses route → r = route) (t : PerPeerOutTable ν) :
    (egressUpdate cfg o' nlri best isReflecting addr ses
      (egressUpdate cfg o nlri best isReflecting addr ses t).1).2.withdrawn ≠ [] := by
  set paths := egressPaths cfg.family (cfg.neighbor addr) ses.addPathSend best with hpaths
  simp only [egressUpdate, ← hpaths, egressAttrs_follows h]
  set acc : PerPeerOutTable ν × List (Announcement ν) :=
    (t.filter fun e => !inactivePath ses nlri paths e.1, [])
  have hheld : held (paths.foldl (announcePath nlri (egressPathId ses)
      (egressAttrs cfg o addr ses isReflecting)) acc).1 ⟨nlri, egressPathId ses route⟩ =
        some (egressAttrs cfg o addr ses isReflecting route) :=
    held_foldl_announcePath (fun r hr hid => by rw [hids r hr hid]) (.inl hroute)
  obtain ⟨e, he, -⟩ := Option.map_eq_some_iff.1 hheld
  have hkey : e.1 = ⟨nlri, egressPathId ses route⟩ := by simpa using List.find?_some he
  have hid : egressPathId ses route = 0 := by simp [egressPathId, hadd, sourceRid, hlocal]
  -- a path from a neighbor with the router id 0 would share the id
  have hnone : (paths.any fun r => r.sourceNeighbor.any (·.rid = e.1.pathId)) = false := by
    rw [List.any_eq_false]
    intro r hr hrid
    obtain ⟨source, hsource, hsrid⟩ : ∃ source, r.sourceNeighbor = some source ∧ source.rid = 0 := by
      cases hsource : r.sourceNeighbor with
      | none => simp [hsource] at hrid
      | some source => exact ⟨source, rfl, by simpa [hsource, hkey, hid] using hrid⟩
    have : r = route := hids r hr (by simp [egressPathId, hadd, sourceRid, hsource, hsrid, hlocal])
    rw [this, hlocal] at hsource
    cases hsource
  have hgone : inactivePath ses nlri paths e.1 = true := by
    simp only [inactivePath, hadd, hnone]
    simp [hkey]
  intro hempty
  rw [List.map_eq_nil_iff, List.filter_eq_nil_iff] at hempty
  exact hempty e (List.mem_of_find?_eq_some he) hgone

theorem withdrawFromPeer_of_noEntry {out : OutState ν} (h : NoEntry out ses.peerRid nlri) :
    out.withdrawFromPeer addr ses.peerRid nlri = out := by
  have hgone : ((out.adjRibOut ses.peerRid).filter fun e => e.1.nlri = nlri) = [] :=
    List.filter_eq_nil_iff.2 fun e he => by simpa using h e he
  simp [OutState.withdrawFromPeer, hgone]

variable (inactive : IPAddress → Bool) (best : Option LocalRoute) (out : OutState ν)

theorem advertiseTo_withdrawn {out : OutState ν} (hno : NoEntry out ses.peerRid nlri)
    (hcase : withdrawsAtOnce cfg inactive best = true ∨ offered cfg o nlri best addr ses = none) :
    (advertiseTo cfg o inactive nlri best out addr ses).sent addr = out.sent addr := by
  obtain ⟨htables, hsent, -⟩ := rateLimit_out o nlri out addr (cfg.neighbor addr) ses.peerRid
  have hlimited : NoEntry (rateLimit (cfg.neighbor addr) o nlri out addr ses.peerRid).1 ses.peerRid
      nlri := by
    unfold NoEntry
    rwa [htables]
  rw [advertiseTo_eq]
  dsimp only
  split_ifs with hearly
  · rw [withdrawFromPeer_of_noEntry hno]
  · rw [hsent]
  · rw [hcase.resolve_left hearly]
    dsimp only
    rw [withdrawFromPeer_of_noEntry hlimited, hsent]

theorem advertiseTo_table (hwaits : waits cfg o inactive nlri best out addr ses.peerRid = false) :
    (NoEntry (advertiseTo cfg o inactive nlri best out addr ses) ses.peerRid nlri ∧
        (withdrawsAtOnce cfg inactive best = true ∨ offered cfg o nlri best addr ses = none)) ∨
      ∃ b isReflecting, withdrawsAtOnce cfg inactive best = false ∧
        offered cfg o nlri best addr ses = some (b, isReflecting) ∧
        (advertiseTo cfg o inactive nlri best out addr ses).adjRibOut ses.peerRid =
          (egressUpdate cfg o nlri b isReflecting addr ses (out.adjRibOut ses.peerRid)).1 := by
  have htables := (rateLimit_out o nlri out addr (cfg.neighbor addr) ses.peerRid).1
  rw [advertiseTo_eq]
  dsimp only
  rw [hwaits, if_neg Bool.false_ne_true]
  split_ifs with hearly
  · exact .inl ⟨fun e he => mem_withdrawFromPeer he, .inl hearly⟩
  · rcases hoffered : offered cfg o nlri best addr ses with _ | ⟨b, isReflecting⟩
    · exact .inl ⟨fun e he => mem_withdrawFromPeer he, .inr rfl⟩
    · refine .inr ⟨b, isReflecting, by simpa using hearly, rfl, ?_⟩
      have hpart := peerOut_announceTo cfg o nlri b isReflecting ses
        (rateLimit (cfg.neighbor addr) o nlri out addr ses.peerRid).1 addr
      have htable := congrArg PeerOut.table hpart
      simpa only [OutState.peerOut, htables] using htable

theorem advertiseTo_sent (hearly : withdrawsAtOnce cfg inactive best = false)
    (hwaits : waits cfg o inactive nlri best out addr ses.peerRid = false) {b : LocalRoute}
    {isReflecting : Bool} (hoffered : offered cfg o nlri best addr ses = some (b, isReflecting)) :
    (advertiseTo cfg o inactive nlri best out addr ses).sent addr =
      let u := (egressUpdate cfg o nlri b isReflecting addr ses (out.adjRibOut ses.peerRid)).2
      if u.announcements.isEmpty && u.withdrawn.isEmpty then out.sent addr
      else out.sent addr ++ [u] := by
  obtain ⟨htables, hsent, -⟩ := rateLimit_out o nlri out addr (cfg.neighbor addr) ses.peerRid
  have hpart := peerOut_announceTo cfg o nlri b isReflecting ses
    (rateLimit (cfg.neighbor addr) o nlri out addr ses.peerRid).1 addr
  rw [← advertiseTo_of_offered hearly hwaits hoffered] at hpart
  simpa only [OutState.peerOut, htables, hsent] using congrArg PeerOut.sent hpart

end Again

section Twice
variable {cfg : Config ν} {o o' : Oracle ν} {inactive : IPAddress → Bool} {nlri : ν}
  {best : Option LocalRoute} {out out₁ : OutState ν} {addr : IPAddress} {ses : PeerSession}

/-- **A second round** sends nothing if the paths come from different neighbors. -/
theorem advertiseTo_again (hfollows : o'.Follows o)
    (hwaits : waits cfg o inactive nlri best out addr ses.peerRid = false)
    (hdiffer : ∀ b isReflecting, withdrawsAtOnce cfg inactive best = false →
      offered cfg o nlri best addr ses = some (b, isReflecting) → SourcesDiffer cfg addr ses b)
    (hpart : out₁.peerOut addr ses.peerRid =
      (advertiseTo cfg o inactive nlri best out addr ses).peerOut addr ses.peerRid) :
    (advertiseTo cfg o' inactive nlri best out₁ addr ses).sent addr = out₁.sent addr := by
  have htable := (peerOut_eq_iff.1 hpart).1
  rcases advertiseTo_table inactive best out hwaits with ⟨hno, hcase⟩ | ⟨b, isReflecting, hearly,
    hoffered, hannounced⟩
  · refine advertiseTo_withdrawn inactive best (fun e he => hno e ?_) ?_
    · rwa [htable] at he
    · rwa [offered_follows hfollows]
  · cases hwaits' : waits cfg o' inactive nlri best out₁ addr ses.peerRid with
    | true =>
      rw [advertiseTo_of_waits hwaits',
        (rateLimit_out o' nlri out₁ addr (cfg.neighbor addr) ses.peerRid).2.1]
    | false =>
      rw [advertiseTo_sent inactive best out₁ hearly hwaits'
        ((offered_follows hfollows best).trans hoffered), htable, hannounced,
        egressUpdate_again hfollows isReflecting (hdiffer b isReflecting hearly hoffered)]
      rfl

theorem advertiseTo_again_of_waits
    (hwaits : waits cfg o inactive nlri best out addr ses.peerRid = true)
    (hpart : out₁.peerOut addr ses.peerRid =
      (advertiseTo cfg o inactive nlri best out addr ses).peerOut addr ses.peerRid) :
    (advertiseTo cfg o inactive nlri best out₁ addr ses).sent addr = out₁.sent addr := by
  obtain ⟨hearly, hlimited⟩ : withdrawsAtOnce cfg inactive best = false ∧
      (rateLimit (cfg.neighbor addr) o nlri out addr ses.peerRid).2 = true := by
    simpa [waits] using hwaits
  rw [advertiseTo_of_waits hwaits] at hpart
  have hwaits₁ : waits cfg o inactive nlri best out₁ addr ses.peerRid = true := by
    rw [waits_congr cfg o inactive nlri best hpart, waits, hearly,
      rateLimit_again o nlri out addr _ _ hlimited]
    rfl
  rw [advertiseTo_of_waits hwaits₁,
    (rateLimit_out o nlri out₁ addr (cfg.neighbor addr) ses.peerRid).2.1]

theorem exists_follows {n : NeighborConfig} {rid : UInt32}
    (hpass : (rateLimit n o nlri out addr rid).2 = false)
    (hbypass : out₁.mraiBypassPeer = out.mraiBypassPeer) :
    ∃ o' : Oracle ν, o'.Follows o ∧ (rateLimit n o' nlri out₁ addr rid).2 = false := by
  set since := (out₁.mraiState rid).lastSent
  set later := max o.now (since + 1000000000 * n.advertiseInterval.toNat) with hlater
  refine ⟨{ o with now := later, pendingTxBytes := fun _ => 0 }, ⟨le_max_left _ _, rfl, rfl, rfl⟩, ?_⟩
  have helapsed : ¬ elapsedSecs later since < n.advertiseInterval.toNat := by
    have hle : since + 1000000000 * n.advertiseInterval.toNat ≤ later := le_max_right _ _
    rw [elapsedSecs, Int.tdiv_eq_ediv_of_nonneg (by omega)]
    omega
  have hmode : rid = out.mraiBypassPeer ∨ n.slowPeerMode ≠ some .STATIC := by
    by_contra h
    rw [not_or, not_not] at h
    simp only [rateLimit, if_neg h.1, if_pos h.2] at hpass
    split_ifs at hpass
  simp only [rateLimit, hbypass]
  split_ifs with hself hlimit hstatic hslow hbacklog hpermanent
  · rfl
  · exact absurd hlimit.2 helapsed
  · exact absurd hstatic (hmode.resolve_left hself)
  · exact absurd hbacklog (Nat.lt_irrefl 0)
  · rfl
  · rfl
  · rfl

theorem advertiseTo_resends {b : LocalRoute} {isReflecting : Bool}
    (hearly : withdrawsAtOnce cfg inactive best = false)
    (hwaits : waits cfg o inactive nlri best out addr ses.peerRid = false)
    (hoffered : offered cfg o nlri best addr ses = some (b, isReflecting))
    (hpart : out₁.peerOut addr ses.peerRid =
      (advertiseTo cfg o inactive nlri best out addr ses).peerOut addr ses.peerRid)
    (hadd : ses.addPathSend = true) {route : InboundRoute}
    (hroute : route ∈ egressPaths cfg.family (cfg.neighbor addr) ses.addPathSend b)
    (hlocal : route.sourceNeighbor = none)
    (hids : ∀ r ∈ egressPaths cfg.family (cfg.neighbor addr) ses.addPathSend b,
      egressPathId ses r = egressPathId ses route → r = route) :
    ∃ o' : Oracle ν, o'.Follows o ∧
      (advertiseTo cfg o' inactive nlri best out₁ addr ses).sent addr ≠ out₁.sent addr := by
  obtain ⟨htable, -, -, -, hbypass⟩ := peerOut_eq_iff.1 hpart
  have hpass : (rateLimit (cfg.neighbor addr) o nlri out addr ses.peerRid).2 = false := by
    simpa [waits, hearly] using hwaits
  have hsame : (advertiseTo cfg o inactive nlri best out addr ses).mraiBypassPeer =
      out.mraiBypassPeer := by
    rw [advertiseTo_of_offered hearly hwaits hoffered]
    exact (congrArg PeerOut.bypass (peerOut_announceTo cfg o nlri b isReflecting ses _ addr)).trans
      (rateLimit_out o nlri out addr (cfg.neighbor addr) ses.peerRid).2.2
  obtain ⟨o', hfollows, hpass'⟩ := exists_follows hpass (hbypass.trans hsame)
  refine ⟨o', hfollows, ?_⟩
  have hwaits' : waits cfg o' inactive nlri best out₁ addr ses.peerRid = false := by
    rw [waits, hpass', Bool.and_false]
  rcases advertiseTo_table inactive best out hwaits with ⟨-, h | h⟩ | ⟨b', isReflecting', -, hsome,
    hannounced⟩
  · rw [hearly] at h
    cases h
  · rw [hoffered] at h
    cases h
  · obtain ⟨rfl, rfl⟩ := Prod.mk.inj (Option.some.inj (hoffered.symm.trans hsome))
    have hwithdrawn : (egressUpdate cfg o' nlri b isReflecting addr ses
        (egressUpdate cfg o nlri b isReflecting addr ses (out.adjRibOut ses.peerRid)).1).2.withdrawn
          ≠ [] := egressUpdate_withdraws hfollows isReflecting hadd hroute hlocal hids _
    rw [advertiseTo_sent inactive best out₁ hearly hwaits'
      ((offered_follows hfollows best).trans hoffered), htable, hannounced]
    simp [hwithdrawn]

end Twice

namespace AddressFamilyInstance

variable (cfg : Config ν) (o : Oracle ν) (s : AddressFamilyInstance ν) (nlri : ν)
  (best : Option LocalRoute)

/-- The call announces the route `b` to the neighbor. -/
structure Announces (addr : IPAddress) (ses : PeerSession) (b : LocalRoute) (isReflecting : Bool) :
    Prop where
  session : s.sessionOf addr = some ses
  check : withdrawsAtOnce cfg s.inactive best = false
  now : waits cfg o s.inactive nlri best s.out addr ses.peerRid = false
  route : offered cfg o nlri best addr ses = some (b, isReflecting)

/-- A second call sends nothing, and the paths of a prefix have different ids. -/
structure Repeatable : Prop where
  /-- At the same time nothing is sent. -/
  same : ((s.recomputeAdjRibOut cfg o nlri best).recomputeAdjRibOut cfg o nlri best).out.sent =
    (s.recomputeAdjRibOut cfg o nlri best).out.sent
  /-- Later nothing is sent to those for which the prefix did not wait. -/
  later : ∀ o' : Oracle ν, o'.Follows o → ∀ addr ses, s.sessionOf addr = some ses →
    waits cfg o s.inactive nlri best s.out addr ses.peerRid = false →
    ((s.recomputeAdjRibOut cfg o nlri best).recomputeAdjRibOut cfg o' nlri best).out.sent addr =
      (s.recomputeAdjRibOut cfg o nlri best).out.sent addr
  distinct : ∀ addr ses b isReflecting, s.Announces cfg o nlri best addr ses b isReflecting →
    let paths := egressPaths cfg.family (cfg.neighbor addr) ses.addPathSend b
    ∀ r ∈ paths, ∀ r' ∈ paths, r ≠ r' → egressPathId ses r ≠ egressPathId ses r'

variable {cfg o s nlri best}

theorem recomputeAdjRibOut_sent_of_none {addr : IPAddress} (h : s.sessionOf addr = none) :
    (s.recomputeAdjRibOut cfg o nlri best).out.sent addr = s.out.sent addr := by
  have hloop (l : List ((_ : IPAddress) × NeighborState)) (hl : ∀ e ∈ l, e ∈ s.neighbors.entries)
      (out : OutState ν) :
      (l.foldl (s.advertiseRound cfg o nlri best) out).sent addr = out.sent addr := by
    induction l generalizing out with
    | nil => rfl
    | cons e l ih =>
      rw [List.foldl_cons, ih fun e' he' => hl e' (.tail _ he')]
      unfold advertiseRound
      cases hses : e.2.session with
      | none => rfl
      | some ses =>
        refine (advertiseTo_inStep cfg o s.inactive best ses).sent_other addr ?_
        rintro rfl
        have := (sessionOf_of_mem (hl e (.head _))).trans hses
        rw [h] at this
        cases this
  exact hloop _ (fun e he => (o.order_perm _).mem_iff.1 he) _

/-- **When a second call sends nothing.** -/
theorem repeatable_iff (huniq : UniqueRids s.sessionOf) :
    s.Repeatable cfg o nlri best ↔ ∀ addr ses b isReflecting,
      s.Announces cfg o nlri best addr ses b isReflecting → SourcesDiffer cfg addr ses b := by
  set s₁ := s.recomputeAdjRibOut cfg o nlri best with hs₁
  have hfirst {addr : IPAddress} {ses : PeerSession} (ha : s.sessionOf addr = some ses) :
      s₁.out.peerOut addr ses.peerRid =
        (advertiseTo cfg o s.inactive nlri best s.out addr ses).peerOut addr ses.peerRid :=
    recomputeAdjRibOut_peerOut cfg o s nlri best huniq ha
  have hsecond (o' : Oracle ν) {addr : IPAddress} {ses : PeerSession}
      (ha : s.sessionOf addr = some ses) :
      (s₁.recomputeAdjRibOut cfg o' nlri best).out.sent addr =
        (advertiseTo cfg o' s.inactive nlri best s₁.out addr ses).sent addr :=
    congrArg PeerOut.sent (recomputeAdjRibOut_peerOut cfg o' s₁ nlri best huniq ha)
  constructor
  · intro h addr ses b isReflecting hann hadd
    have hids : ∀ r ∈ egressPaths cfg.family (cfg.neighbor addr) ses.addPathSend b,
        ∀ r' ∈ egressPaths cfg.family (cfg.neighbor addr) ses.addPathSend b,
          egressPathId ses r = egressPathId ses r' → r = r' := fun r hr r' hr' hid =>
      by_contra fun hne => h.distinct addr ses b isReflecting hann r hr r' hr' hne hid
    refine ⟨fun r hr => ?_, fun r hr r' hr' hid => hids r hr r' hr' ?_⟩
    · by_contra hlocal
      rw [Bool.not_eq_true, Option.isSome_eq_false_iff, Option.isNone_iff_eq_none] at hlocal
      obtain ⟨o', hfollows, hresends⟩ := advertiseTo_resends hann.check hann.now hann.route
        (hfirst hann.session) hadd hr hlocal fun r' hr' hid => hids r' hr' r hr hid
      rw [← hsecond o' hann.session] at hresends
      exact hresends (h.later o' hfollows addr ses hann.session hann.now)
    · simpa only [egressPathId, hadd, if_true] using hid
  · intro h
    have hlater (o' : Oracle ν) (hfollows : o'.Follows o) (addr : IPAddress) (ses : PeerSession)
        (ha : s.sessionOf addr = some ses)
        (hwaits : waits cfg o s.inactive nlri best s.out addr ses.peerRid = false) :
        (s₁.recomputeAdjRibOut cfg o' nlri best).out.sent addr = s₁.out.sent addr := by
      rw [hsecond o' ha]
      exact advertiseTo_again hfollows hwaits
        (fun b isReflecting hearly hoffered => h addr ses b isReflecting ⟨ha, hearly, hwaits, hoffered⟩)
        (hfirst ha)
    refine ⟨?_, hlater, fun addr ses b isReflecting hann r hr r' hr' hne hid => ?_⟩
    · funext addr
      cases ha : s.sessionOf addr with
      | none => exact recomputeAdjRibOut_sent_of_none (s := s₁) ha
      | some ses =>
        cases hwaits : waits cfg o s.inactive nlri best s.out addr ses.peerRid with
        | false => exact hlater o (.refl o) addr ses ha hwaits
        | true =>
          rw [hsecond o ha]
          exact advertiseTo_again_of_waits hwaits (hfirst ha)
    · exact hne ((h addr ses b isReflecting hann).eq_of_pathId hr hr' hid)

def addPathSample : AddressFamilyInstance (UInt32 × UInt8) where
  neighbors := AList.singleton sampleNbr ⟨7, some { sampleNbrSession with addPathSend := true }⟩

/-- A route of the second neighbor, with the AS path `asns`. -/
def addPathRoute (asns : List UInt32) : InboundRoute where
  addr := asns.length
  sourceNeighbor := some ⟨9, sampleNbr2⟩
  ebgp := true
  attrs := sampleAttrs asns 0xC0000202

theorem addPathSample_uniqueRids : UniqueRids addPathSample.sessionOf := by
  have honly {a : IPAddress} {ses : PeerSession} (ha : addPathSample.sessionOf a = some ses) :
      a = sampleNbr := by
    obtain ⟨nbr, hnbr, -⟩ := Option.bind_eq_some_iff.1 ha
    have hmem := AList.mem_lookup_iff.1 hnbr
    simpa [addPathSample, AList.singleton] using (Sigma.mk.inj (List.mem_singleton.1 hmem)).1
  intro a b sa sb ha hb _
  rw [honly ha, honly hb]

/-- One route of a neighbor. -/
theorem repeatable_iff_learned : addPathSample.Repeatable sampleConfig sampleOracle samplePrefix
    (some { route := addPathRoute [65002] }) := by
  refine (repeatable_iff addPathSample_uniqueRids).2 fun addr ses b isReflecting hann hadd => ?_
  obtain rfl := Option.some.inj (offered_route hann.route)
  have hpaths : egressPaths sampleConfig.family (sampleConfig.neighbor addr) ses.addPathSend
      { route := addPathRoute [65002] } = [addPathRoute [65002]] := by
    rw [hadd]
    rfl
  rw [hpaths]
  simp [addPathRoute]

/-- A local route, and two routes of one neighbor. -/
theorem not_repeatable :
    ¬ addPathSample.Repeatable sampleConfig sampleOracle samplePrefix
        (some { route := { addr := 0 } }) ∧
      ¬ addPathSample.Repeatable { sampleConfig with family := { additionalPathsAll := true } }
        sampleOracle samplePrefix
        (some { route := addPathRoute [65002], additionalPaths := [addPathRoute [65002, 65003]] }) := by
  constructor
  · intro h
    have hsame := congrArg List.length (congrFun h.same sampleNbr)
    revert hsame
    decide
  · intro h
    have hsame := congrArg List.length (congrFun h.same sampleNbr)
    revert hsame
    decide

end AddressFamilyInstance

end VirtualRouter.Bgp
