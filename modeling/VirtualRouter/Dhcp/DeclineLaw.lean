/-
  What a decline comes to in the DHCP servers.

  A client declines an address that it has a lease of.  The DHCPv4 pool marks an
  address that is allocated as conflicted, the DHCPv6 pool one that is on offer to
  the association, the prefix pool one that is not allocated; only the DHCPv4
  manager erases the lease.  No decline returns with the mutexes as they are, since
  each pool takes its own twice.

  * `IPv4Pool.Picks`: what an allocation finds for a client;
  * `IPv4Pool.SameMarks`: the conflicted addresses and their timers stay;
  * `IPv4LeaseManager.Withholds`: and none of them is given out by a step;
  * `IPv4LeaseManager.Settled`, `Withheld`: what a decline owes, at once and later;
  * `IPv6LeaseManager.Settled`, `PrefixLeaseManager.Settled`: the same of the other two;
  * `decline_law`: which of this holds.
-/
import VirtualRouter.Dhcp.IPv4LeaseAgreement
import VirtualRouter.Dhcp.IPv6LeaseExclusive
import VirtualRouter.Dhcp.LockDiscipline
import VirtualRouter.Dhcp.PrefixDisjoint

namespace VirtualRouter.Dhcp

open NestedMap Locked Run
open VirtualRouter.Core

namespace IPv4Pool

variable {p q r : IPv4Pool} {ip id : UInt32} {c : ClientID} {tm tm' tm'' : TimeManager Callback}
  {take : IPv4Pool → UInt32 → ClientID → IPv4Pool}

/-! ## Marks -/

def SameBadTimers (tm tm' : TimeManager Callback) : Prop :=
  ∀ id ip, ownerOf tm' id = some (.bad ip) ↔ ownerOf tm id = some (.bad ip)

theorem SameBadTimers.refl (tm : TimeManager Callback) : SameBadTimers tm tm := fun _ _ => Iff.rfl

theorem SameBadTimers.trans (h : SameBadTimers tm tm') (h' : SameBadTimers tm' tm'') :
    SameBadTimers tm tm'' :=
  fun id ip => (h' id ip).trans (h id ip)

theorem sameBadTimers_cancelTimer {x : Owner} (hid : ownerOf tm id = some x)
    (hx : ∀ ip, x ≠ .bad ip) : SameBadTimers tm (tm.cancelTimer id) := by
  intro id' ip
  rw [ownerOf_cancelTimer]
  split_ifs with heq
  · rw [heq, hid, Option.some_inj]
    exact iff_of_false (by simp) (hx ip)
  · rfl

theorem sameBadTimers_addTimer {callback : Callback} (hfresh : tm.Fresh)
    (hx : ∀ ip, callback.owner ≠ .bad ip) : SameBadTimers tm (tm.addTimer callback).2 := by
  intro id ip
  rw [ownerOf_addTimer]
  split_ifs with heq
  · rw [heq, ownerOf_next hfresh, Option.some_inj]
    exact iff_of_false (hx ip) (by simp)
  · rfl

/-- The conflicted addresses are the same, with their timers. -/
structure SameMarks (p q : IPv4Pool) : Prop where
  bad : q.bad = p.bad
  timers : SameBadTimers p.timeManager q.timeManager

theorem SameMarks.refl (p : IPv4Pool) : p.SameMarks p := ⟨rfl, .refl _⟩

theorem SameMarks.trans (h : p.SameMarks q) (h' : q.SameMarks r) : p.SameMarks r :=
  ⟨h'.bad.trans h.bad, h.timers.trans h'.timers⟩

/-- A conflicted address has one timer, its own. -/
def BadTimed (p : IPv4Pool) : Prop :=
  ∀ ip id, ownerOf p.timeManager id = some (.bad ip) ↔ p.bad.lookup ip = some id

theorem SameMarks.badTimed (h : p.SameMarks q) (hp : p.BadTimed) : q.BadTimed := by
  intro ip id
  rw [h.timers, h.bad, hp]

theorem sameMarks_setTemporary (hfresh : p.timeManager.Fresh) :
    p.SameMarks (p.setTemporary ip c) :=
  ⟨rfl, sameBadTimers_addTimer hfresh (by simp [Callback.owner])⟩

theorem sameMarks_setAllocated : p.SameMarks (p.setAllocated ip c) := ⟨rfl, .refl _⟩

theorem Timed.sameMarks_dropQuarantined {kept : ClientID × UInt32} (h : p.Timed)
    (hkept : p.quarantined.lookup ip = some kept) : p.SameMarks (p.dropQuarantined ip c kept.2) :=
  ⟨rfl, sameBadTimers_cancelTimer (h.quarantined ip kept hkept) (by simp)⟩

/-! ## What an allocation finds -/

/-- What is found for a client without an address of the kind: its address in quarantine, the head of
    the release list or one that is not reserved; `take` books it. -/
inductive Picks (take : IPv4Pool → UInt32 → ClientID → IPv4Pool) (p : IPv4Pool) (c : ClientID) :
    UInt32 → IPv4Pool → Prop
  | kept {ip : UInt32} {kept : ClientID × UInt32} : p.quarantined.lookup ip = some kept →
      (p.takeQuarantined c).1 = some ip → Picks take p c ip (take (p.dropQuarantined ip c kept.2) ip c)
  | released {ip : UInt32} {rest : List UInt32} {reverseQuarantined : Map ClientID UInt32} :
      (p.takeQuarantined c).1 = none → p.release = ip :: rest →
      Picks take p c ip (take { p with reverseQuarantined, release := rest } ip c)
  | scanned {ip : UInt32} {reverseQuarantined : Map ClientID UInt32} :
      (p.isReserved ip).value = false →
      Picks take p c ip { take { p with reverseQuarantined } ip c with currentAddress := ip + 1 }
  | nothing {reverseQuarantined : Map ClientID UInt32} :
      Picks take p c 0 { p with reverseQuarantined }

theorem picks_allocateIP (hRA : p.reverseAllocated.lookup c = none)
    (hx : (p.allocateIP c).value = (ip, q)) : Picks setAllocated p c ip q := by
  rw [IPv4Pool.allocateIP, value_lockGuard] at hx
  simp only [hRA] at hx
  obtain ⟨ip', kept, hQ, htake⟩ | ⟨p', reverseQuarantined, htake, hp'⟩ := takeQuarantined_cases p c
  · simp only [htake] at hx
    cases hx
    exact .kept hQ (congrArg Prod.fst htake)
  · simp only [htake] at hx
    cases hR : p'.release with
    | cons ip rest =>
      simp only [hR] at hx
      cases hx
      subst hp'
      exact .released (congrArg Prod.fst htake) hR
    | nil =>
      simp only [hR, value_bind] at hx
      split at hx
      · next ip hip =>
        obtain ⟨i, -, hstop, rfl⟩ := stopsAt_of_scan hip
        subst hp'
        cases hx
        exact .scanned hstop.1.2
      · subst hp'
        cases hx
        exact .nothing

theorem picks_offer (hx : (allocateTemporaryIP.offer c p).value = some (ip, q)) :
    Picks setTemporary p c ip q := by
  rw [allocateTemporaryIP.offer] at hx
  obtain ⟨ip', kept, hQ, htake⟩ | ⟨p', reverseQuarantined, htake, hp'⟩ := takeQuarantined_cases p c
  · simp only [htake] at hx
    cases hx
    exact .kept hQ (congrArg Prod.fst htake)
  · simp only [htake] at hx
    cases hR : p'.release with
    | cons ip rest =>
      simp only [hR] at hx
      cases hx
      subst hp'
      exact .released (congrArg Prod.fst htake) hR
    | nil =>
      simp only [hR, value_ite, value_bind] at hx
      split_ifs at hx
      split at hx
      · next ip hip =>
        obtain ⟨i, -, hstop, rfl⟩ := stopsAt_of_scan hip
        subst hp'
        cases hx
        have hfree := hstop.1.2
        rw [value_isReservedOrOffered, Bool.or_eq_false_iff] at hfree
        exact .scanned hfree.1
      · subst hp'
        cases hx
        exact .nothing

/-- What an allocation takes for the client without a test, from the quarantine or the release list,
    is not conflicted. -/
def TakesClean (p : IPv4Pool) (c : ClientID) : Prop :=
  (∀ ip ∈ (p.takeQuarantined c).1, p.bad.lookup ip = none) ∧
    ((p.takeQuarantined c).1 = none → ∀ ip ∈ p.release.head?, p.bad.lookup ip = none)

theorem unconflicted_of_not_reserved (h : (p.isReserved ip).value = false) :
    p.bad.lookup ip = none := by
  rw [value_isReserved, Bool.or_eq_false_iff, Bool.or_eq_false_iff, Option.isSome_eq_false_iff,
    Option.isNone_iff_eq_none, Option.isSome_eq_false_iff, Option.isNone_iff_eq_none] at h
  exact h.2.2

theorem Picks.unconflicted (h : Picks take p c ip q) (hclean : p.TakesClean c) (hip : ip ≠ 0) :
    p.bad.lookup ip = none := by
  cases h with
  | kept hQ hfound => exact hclean.1 ip hfound
  | released hnone hR => exact hclean.2 hnone ip (by rw [hR]; rfl)
  | scanned hfree => exact unconflicted_of_not_reserved hfree
  | nothing => exact absurd rfl hip

theorem Picks.sameMarks (h : Picks take p c ip q) (hp : p.Timed) (hfresh : p.timeManager.Fresh)
    (htake : ∀ (q : IPv4Pool) ip, q.timeManager.Fresh → q.SameMarks (take q ip c)) : p.SameMarks q := by
  cases h with
  | @kept ip kept hQ hfound =>
    have hdrop := hp.sameMarks_dropQuarantined (c := c) hQ
    exact hdrop.trans (htake _ ip (hfresh.cancelTimer kept.2))
  | @released ip rest reverseQuarantined hnone hR =>
    have hset := htake { p with reverseQuarantined, release := rest } ip hfresh
    exact ⟨hset.bad, hset.timers⟩
  | @scanned ip reverseQuarantined hfree =>
    have hset := htake { p with reverseQuarantined } ip hfresh
    exact ⟨hset.bad, hset.timers⟩
  | nothing => exact ⟨rfl, .refl _⟩

theorem allocateTemporaryIP_cases (hx : (p.allocateTemporaryIP c).value = some (ip, q)) :
    (∃ offer, p.reverseTemporary.lookup c = some ip ∧ p.temporary.lookup ip = some offer ∧
      q = { p with
        temporary := p.temporary.insert ip (offer.1, p.timeManager.nextTimerId)
        timeManager := ((p.timeManager.cancelTimer offer.2).addTimer (.temporary ip c)).2 }) ∨
    (∀ ip ∈ p.reverseTemporary.lookup c, p.temporary.lookup ip = none) ∧
      ∃ reverseTemporary, Picks setTemporary { p with reverseTemporary } c ip q := by
  rw [IPv4Pool.allocateTemporaryIP, value_lockGuard] at hx
  cases hRT : p.reverseTemporary.lookup c with
  | none =>
    simp only [hRT] at hx
    exact .inr ⟨(by simp), p.reverseTemporary, picks_offer hx⟩
  | some ip' =>
    cases hT : p.temporary.lookup ip' with
    | none =>
      simp only [hRT, hT] at hx
      refine .inr ⟨fun x hx => ?_, p.reverseTemporary.erase c, picks_offer hx⟩
      rw [← Option.some.inj hx, hT]
    | some offer =>
      simp only [hRT, hT, value_pure, Option.some_inj, Prod.mk.injEq] at hx
      obtain ⟨rfl, rfl⟩ := hx
      exact .inl ⟨offer, rfl, hT, rfl⟩

/-- A request takes the address out of the client's quarantine, and books it if it is neither
    reserved nor on offer. -/
theorem allocateRequested_cases (p : IPv4Pool) (ip : UInt32) (c : ClientID)
    (take : IPv4Pool → UInt32 → ClientID → IPv4Pool) :
    ∃ q, (q = p ∨ ∃ kept, p.quarantined.lookup ip = some kept ∧ q = p.dropQuarantined ip c kept.2) ∧
      ((p.allocateRequested ip c take).value = (false, q) ∨
        (q.isReservedOrOffered ip).value = false ∧ (p.allocateRequested ip c take).value =
          (true, take { q with release := q.release.erase ip } ip c)) := by
  have hbook (q : IPv4Pool) : (allocateRequested.book ip c take q).value = (false, q) ∨
      (q.isReservedOrOffered ip).value = false ∧ (allocateRequested.book ip c take q).value =
        (true, take { q with release := q.release.erase ip } ip c) := by
    rw [allocateRequested.book]
    split_ifs
    · exact .inl rfl
    · rw [value_bind, value_ite]
      split_ifs with hreserved
      · exact .inl rfl
      · exact .inr ⟨Bool.not_eq_true _ ▸ hreserved, rfl⟩
  rw [allocateRequested, value_lockGuard]
  cases hQ : p.quarantined.lookup ip with
  | none => exact ⟨p, .inl rfl, hbook p⟩
  | some kept =>
    simp only [value_ite]
    split_ifs
    · exact ⟨p, .inl rfl, .inl rfl⟩
    · exact ⟨_, .inr ⟨kept, rfl, rfl⟩, hbook _⟩

theorem Timed.allocateRequested_marks (h : p.Timed) (hfresh : p.timeManager.Fresh)
    (htake : ∀ (q : IPv4Pool) ip, q.timeManager.Fresh → q.SameMarks (take q ip c)) :
    p.SameMarks (p.allocateRequested ip c take).value.2 ∧
      ((p.allocateRequested ip c take).value.1 = true → p.bad.lookup ip = none) := by
  obtain ⟨q, hq, hvalue⟩ := allocateRequested_cases p ip c take
  have hmarks : p.SameMarks q ∧ q.timeManager.Fresh := by
    obtain rfl | ⟨kept, hQ, rfl⟩ := hq
    · exact ⟨.refl _, hfresh⟩
    · exact ⟨h.sameMarks_dropQuarantined hQ, hfresh.cancelTimer kept.2⟩
  obtain hvalue | ⟨hfree, hvalue⟩ := hvalue
  · rw [hvalue]
    exact ⟨hmarks.1, (by simp)⟩
  · rw [hvalue]
    rw [value_isReservedOrOffered, Bool.or_eq_false_iff] at hfree
    have hset := htake { q with release := q.release.erase ip } ip hmarks.2
    refine ⟨hmarks.1.trans ⟨hset.bad, hset.timers⟩, fun _ => ?_⟩
    rw [← hmarks.1.bad]
    exact unconflicted_of_not_reserved hfree.1

end IPv4Pool

namespace IPv4LeaseManager

open IPv4Pool (Callback Owner ownerOf ownerOf_addTimer ownerOf_cancelTimer ownerOf_next
  ownerOf_eq_lease SameBadTimers sameBadTimers_addTimer sameBadTimers_cancelTimer SameMarks)

/-! ## The DHCPv4 decline -/

def given (r : UInt32) : Option UInt32 := if r = 0 then none else some r

def gives (m : IPv4LeaseManager) : Op → Option UInt32
  | .createLease c leaseTime t1 t2 => given (m.createLease c leaseTime t1 t2).value.1
  | .createLeaseFromTemp c ip leaseTime t1 t2 =>
    if (m.createLeaseFromTemp c ip leaseTime t1 t2).value.1 then some ip else none
  | .createLeaseFromReq c ip leaseTime t1 t2 =>
    if (m.createLeaseFromReq c ip leaseTime t1 t2).value.1 then some ip else none
  | .allocateTemporaryIP c => (m.pool.allocateTemporaryIP c).value.bind fun r => given r.1
  | .allocateRequestedTemporaryIP ip c =>
    if (m.pool.allocateRequestedTemporaryIP ip c).value.1 then some ip else none
  | _ => none

/-- The address is conflicted under this timer, and nobody has it. -/
structure Withheld (m : IPv4LeaseManager) (ip timerId : UInt32) : Prop where
  bad : m.pool.bad.lookup ip = some timerId
  allocated : m.pool.allocated.lookup ip = none
  leases : ∀ c lease, m.leases.lookup c = some lease → lease.ip ≠ ip

/-- What the decline owes at once: it succeeds, the lease and its timer are gone, and the address is
    withheld until the timer fires. -/
structure Settled (m : IPv4LeaseManager) (c : ClientID) (ip : UInt32) (m' : IPv4LeaseManager)
    (timerId : UInt32) : Prop where
  succeeds : (m.declineLease c ip).value = some (true, m')
  lease : m'.leases.lookup c = none
  timer : ∀ id, m'.pool.timeManager.timers.lookup id ≠ some (.lease c)
  withheld : m'.Withheld ip timerId
  conflict : m'.pool.timeManager.timers.lookup timerId = some (.bad ip)

/-- The decline law: what is owed at once, and that no later operation allocates or offers the
    address until its timer fires. -/
def DeclineLaw (m : IPv4LeaseManager) (c : ClientID) (ip : UInt32) (after : List Op) : Prop :=
  ∃ m' timerId, Settled m c ip m' timerId ∧
    ∀ later, later <+: after → .fireTimer timerId ∉ later →
      ∃ s, runFrom step (some m') later = some s ∧ s.Withheld ip timerId ∧
        ∀ op, later ++ [op] <+: after → s.gives op ≠ some ip

/-- The steps that keep what is withheld: an address that is given out without a test is not
    conflicted, and `adjustPool` finds none that is. -/
def Withholding (m : IPv4LeaseManager) (op : Op) : Prop :=
  Sound m op ∧
    match op with
    | .createLease c .. => m.leases.lookup c = none → m.pool.TakesClean c
    | .createLeaseFromTemp c ip .. => m.leases.lookup c = none →
      (∃ offer ∈ m.pool.temporary.lookup ip, offer.1 = c) → m.pool.bad.lookup ip = none
    | .allocateTemporaryIP c =>
      (∀ ip ∈ m.pool.reverseTemporary.lookup c, (m.pool.temporary.lookup ip).isSome →
        m.pool.bad.lookup ip = none) ∧
      ((∀ ip ∈ m.pool.reverseTemporary.lookup c, m.pool.temporary.lookup ip = none) →
        m.pool.TakesClean c)
    | .adjustPool .. => m.pool.leaseManager = true → m.pool.bad.keys = []
    | _ => True

variable {m m' : IPv4LeaseManager} {q : IPv4Pool} {c : ClientID}
  {ip id leaseTime t1 t2 : UInt32}

/-- From `m` to `m'` the marks stay, and only the address `given` may be allocated, which is not
    conflicted. -/
structure Withholds (m m' : IPv4LeaseManager) (given : Option UInt32) : Prop where
  marks : m.pool.SameMarks m'.pool
  allocated : ∀ ip, m'.pool.allocated.lookup ip ≠ none →
    m.pool.allocated.lookup ip ≠ none ∨ given = some ip
  given : ∀ ip, given = some ip → m.pool.bad.lookup ip = none

theorem Withholds.of_marks (h : m.pool.SameMarks m'.pool)
    (hallocated : ∀ ip, m'.pool.allocated.lookup ip ≠ none → m.pool.allocated.lookup ip ≠ none) :
    m.Withholds m' none :=
  ⟨h, fun ip hip => .inl (hallocated ip hip), (by simp)⟩

theorem Withholds.refl (m : IPv4LeaseManager) : m.Withholds m none :=
  .of_marks (.refl _) fun _ => id

theorem Withholds.frame (hbad : q.bad = m.pool.bad) (htm : q.timeManager = m.pool.timeManager)
    (hq : q.allocated = m.pool.allocated) : m.Withholds { m with pool := q } none :=
  .of_marks ⟨hbad, htm ▸ .refl _⟩ fun _ h => hq ▸ h

theorem Withholds.enterLease (hmarks : m.pool.SameMarks q) (hfresh : q.timeManager.Fresh)
    (hq : q.allocated = m.pool.allocated.insert ip c) (hip : m.pool.bad.lookup ip = none) :
    m.Withholds ({ m with pool := q }.enterLease c ip leaseTime t1 t2) (some ip) where
  marks := hmarks.trans ⟨rfl, sameBadTimers_addTimer hfresh (by simp [Callback.owner])⟩
  allocated ip' hip' := by
    rw [IPv4LeaseManager.enterLease, hq, lookup_insert_eq] at hip'
    split_ifs at hip' with heq
    · exact .inr (congrArg some heq.symm)
    · exact .inl hip'
  given _ h := Option.some.inj h ▸ hip

theorem Linked.withholds_createLease (h : Linked m)
    (hs : Withholding m (.createLease c leaseTime t1 t2)) :
    m.Withholds (m.createLease c leaseTime t1 t2).value.2
      (given (m.createLease c leaseTime t1 t2).value.1) := by
  obtain ⟨⟨hfresh, hfree⟩, hclean⟩ := hs
  simp only [IPv4LeaseManager.createLease, value_lockGuard, value_ite, value_bind, value_pure]
  cases hc : m.leases.lookup c with
  | some lease => exact .refl m
  | none =>
    obtain ⟨ip, q, hq, hcases⟩ := h.timed.allocateIP (h.reverse_none hc) (hfree hc)
    have hpicks := IPv4Pool.picks_allocateIP (h.reverse_none hc) hq
    have hmarks := hpicks.sameMarks h.timed hfresh fun _ _ _ => IPv4Pool.sameMarks_setAllocated
    rw [hq]
    obtain ⟨rfl, hkeeps⟩ | ⟨hzero, -, halloc⟩ := hcases
    · exact .of_marks hmarks fun ip hip => hkeeps.allocated ▸ hip
    · simp only [Option.isSome_none, Bool.false_eq_true, if_false, if_neg hzero, given]
      exact .enterLease hmarks (halloc.fresh hfresh) halloc.allocated
        (hpicks.unconflicted (hclean hc) hzero)

theorem Linked.withholds_createLeaseFromTemp (h : Linked m)
    (hs : Withholding m (.createLeaseFromTemp c ip leaseTime t1 t2)) :
    m.Withholds (m.createLeaseFromTemp c ip leaseTime t1 t2).value.2
      (if (m.createLeaseFromTemp c ip leaseTime t1 t2).value.1 then some ip else none) := by
  obtain ⟨⟨hfresh, -⟩, hclean⟩ := hs
  simp only [IPv4LeaseManager.createLeaseFromTemp, value_lockGuard, value_ite, value_bind, value_pure,
    IPv4Pool.activateTemporaryIP]
  cases hc : m.leases.lookup c with
  | some lease => exact .refl m
  | none =>
    cases hT : m.pool.temporary.lookup ip with
    | none => exact .refl m
    | some offer =>
      by_cases hclient : c = offer.1
      · have hmarks : SameMarks m.pool { m.pool with
            timeManager := m.pool.timeManager.cancelTimer offer.2
            temporary := m.pool.temporary.erase ip
            reverseTemporary := m.pool.reverseTemporary.erase c } :=
          ⟨rfl, sameBadTimers_cancelTimer (h.timed.temporary ip offer hT) (by simp)⟩
        have hset := hmarks.trans (@IPv4Pool.sameMarks_setAllocated _ ip c)
        have henter := @Withholds.enterLease m _ c ip leaseTime t1 t2 hset
          (hfresh.cancelTimer offer.2) rfl (hclean hc ⟨offer, hT, hclient.symm⟩)
        simpa [hclient] using henter
      · simpa [hclient] using .refl m

theorem Linked.withholds_createLeaseFromReq (h : Linked m) (hfresh : m.pool.timeManager.Fresh) :
    m.Withholds (m.createLeaseFromReq c ip leaseTime t1 t2).value.2
      (if (m.createLeaseFromReq c ip leaseTime t1 t2).value.1 then some ip else none) := by
  simp only [IPv4LeaseManager.createLeaseFromReq, value_lockGuard, value_ite, value_bind, value_pure]
  cases hc : m.leases.lookup c with
  | some lease => exact .refl m
  | none =>
    obtain ⟨granted, q, hq, hcases⟩ :=
      @IPv4Pool.Timed.allocateRequested m.pool ip c IPv4Pool.setAllocated h.timed
    obtain ⟨hmarks, hclean⟩ := @IPv4Pool.Timed.allocateRequested_marks m.pool ip c
      IPv4Pool.setAllocated h.timed hfresh fun _ _ _ => IPv4Pool.sameMarks_setAllocated
    rw [hq] at hmarks hclean
    rw [IPv4Pool.allocateRequestedIP, hq]
    obtain ⟨rfl, hkeeps⟩ | ⟨rfl, -, q', hkeeps, hfresh', rfl⟩ := hcases
    · exact .of_marks hmarks fun ip hip => hkeeps.allocated ▸ hip
    · have halloc := @IPv4Pool.Keeps.setAllocated _ _ ip c hkeeps hfresh'
      exact .enterLease hmarks (halloc.fresh hfresh) halloc.allocated (hclean rfl)

theorem Linked.cancelLease {lease : Lease} (h : Linked m) (hc : m.leases.lookup c = some lease) :
    SameBadTimers m.pool.timeManager (m.pool.timeManager.cancelTimer lease.timerId) :=
  sameBadTimers_cancelTimer (h.owner_of_lease hc) (by simp)

theorem Linked.withholds_renewLease (h : Linked m) (hfresh : m.pool.timeManager.Fresh) :
    m.Withholds (m.renewLease c leaseTime t1 t2).value.2 none := by
  rw [IPv4LeaseManager.renewLease, value_lockGuard]
  cases hc : m.leases.lookup c with
  | none => exact .refl m
  | some lease =>
    refine .of_marks ⟨rfl, (h.cancelLease hc).trans ?_⟩ fun _ => id
    exact sameBadTimers_addTimer (hfresh.cancelTimer lease.timerId) (by simp [Callback.owner])

theorem Linked.withholds_rebindLease (h : Linked m) (hfresh : m.pool.timeManager.Fresh) :
    m.Withholds (m.rebindLease c ip leaseTime t1 t2).value.2 none := by
  rw [IPv4LeaseManager.rebindLease, value_lockGuard]
  cases hc : m.leases.lookup c with
  | none => exact .refl m
  | some lease =>
    simp only [value_ite]
    split_ifs
    · exact .refl m
    · exact h.withholds_renewLease hfresh

theorem ne_none_of_erase {κ ν : Type} [DecidableEq κ] {a : Map κ ν} {k k' : κ}
    (h : (a.erase k).lookup k' ≠ none) : a.lookup k' ≠ none := by
  rw [lookup_erase_eq] at h
  split_ifs at h
  · exact absurd rfl h
  · exact h

theorem Linked.withholds_releaseLease (h : Linked m) :
    m.Withholds (m.releaseLease c).value.2 none := by
  rw [IPv4LeaseManager.releaseLease, value_lockGuard]
  cases hc : m.leases.lookup c with
  | none => exact .refl m
  | some lease =>
    have hip := h.allocated_of_lease hc
    simp only [value_bind, value_pure, IPv4Pool.releaseIP, value_lockGuard, IPv4Pool.isAllocated, hip,
      Option.isSome_some, if_true]
    exact .of_marks ⟨rfl, h.cancelLease hc⟩ fun _ => ne_none_of_erase

theorem Linked.withholds_allocateTemporaryIP (h : Linked m)
    (hs : Withholding m (.allocateTemporaryIP c)) :
    m.Withholds { m with pool := m.pool.step (.allocateTemporaryIP c) }
      ((m.pool.allocateTemporaryIP c).value.bind fun r => given r.1) := by
  obtain ⟨⟨hfresh, -⟩, hrenewed, hclean⟩ := hs
  have hkeeps := @IPv4Pool.Timed.allocateTemporaryIP m.pool c h.timed hfresh
  rw [IPv4Pool.step]
  cases hvalue : (m.pool.allocateTemporaryIP c).value with
  | none => exact .refl m
  | some r =>
    obtain ⟨ip, q⟩ := r
    have hallocated := (hkeeps (ip, q) hvalue).allocated
    have hpart : m.pool.SameMarks q ∧ (ip ≠ 0 → m.pool.bad.lookup ip = none) := by
      obtain ⟨offer, hRT, hT, rfl⟩ | ⟨hnone, reverseTemporary, hpicks⟩ :=
        IPv4Pool.allocateTemporaryIP_cases hvalue
      · have hcancel : SameBadTimers m.pool.timeManager (m.pool.timeManager.cancelTimer offer.2) :=
          sameBadTimers_cancelTimer (h.timed.temporary ip offer hT) (by simp)
        refine ⟨⟨rfl, hcancel.trans ?_⟩, fun _ => hrenewed ip hRT (by rw [hT]; rfl)⟩
        exact sameBadTimers_addTimer (hfresh.cancelTimer offer.2) (by simp [Callback.owner])
      · have htimed : IPv4Pool.Timed { m.pool with reverseTemporary } :=
          ⟨h.timed.temporary, h.timed.quarantined⟩
        have hmarks := hpicks.sameMarks htimed hfresh fun _ _ => IPv4Pool.sameMarks_setTemporary
        have hclean' : IPv4Pool.TakesClean { m.pool with reverseTemporary } c := by
          have htake : (IPv4Pool.takeQuarantined { m.pool with reverseTemporary } c).1 =
              (m.pool.takeQuarantined c).1 := by
            rw [IPv4Pool.takeQuarantined, IPv4Pool.takeQuarantined]
            cases m.pool.reverseQuarantined.lookup c with
            | none => rfl
            | some x => cases hQ : m.pool.quarantined.lookup x <;> simp only [hQ]
          rw [IPv4Pool.TakesClean, htake]
          exact hclean hnone
        exact ⟨⟨hmarks.bad, hmarks.timers⟩, hpicks.unconflicted hclean'⟩
    refine ⟨hpart.1, fun ip' hip' => .inl (hallocated ▸ hip'), fun ip' hip' => ?_⟩
    rw [Option.bind_some, given] at hip'
    split_ifs at hip' with hzero
    obtain rfl := Option.some.inj hip'
    exact hpart.2 hzero

theorem Linked.withholds_allocateRequestedTemporaryIP (h : Linked m)
    (hfresh : m.pool.timeManager.Fresh) :
    m.Withholds { m with pool := m.pool.step (.allocateRequestedTemporaryIP ip c) }
      (if (m.pool.allocateRequestedTemporaryIP ip c).value.1 then some ip else none) := by
  obtain ⟨hmarks, hclean⟩ := @IPv4Pool.Timed.allocateRequested_marks m.pool ip c
    IPv4Pool.setTemporary h.timed hfresh fun _ _ => IPv4Pool.sameMarks_setTemporary
  obtain ⟨granted, q, hq, hcases⟩ :=
    @IPv4Pool.Timed.allocateRequested m.pool ip c IPv4Pool.setTemporary h.timed
  rw [IPv4Pool.step, IPv4Pool.allocateRequestedTemporaryIP]
  rw [hq] at hmarks hclean ⊢
  obtain ⟨rfl, hkeeps⟩ | ⟨rfl, -, q', hkeeps, -, rfl⟩ := hcases
  · exact .of_marks hmarks fun ip hip => hkeeps.allocated ▸ hip
  · exact ⟨hmarks, fun ip' hip' => .inl (hkeeps.allocated ▸ hip'),
      fun ip' hip' => Option.some.inj hip' ▸ hclean rfl⟩

theorem Linked.withholds_clearTemporaryOffer (h : Linked m) :
    m.Withholds { m with pool := m.pool.step (.clearTemporaryOffer ip) } none := by
  rw [IPv4Pool.step, IPv4Pool.clearTemporaryOffer, value_lockGuard]
  cases hT : m.pool.temporary.lookup ip with
  | none => exact .refl m
  | some offer =>
    have hcancel : SameBadTimers m.pool.timeManager (m.pool.timeManager.cancelTimer offer.2) :=
      sameBadTimers_cancelTimer (h.timed.temporary ip offer hT) (by simp)
    exact .of_marks ⟨rfl, hcancel⟩ fun _ => id

theorem withholds_excludeIP (m : IPv4LeaseManager) (ip : UInt32) :
    m.Withholds { m with pool := m.pool.step (.excludeIP ip) } none := by
  simp only [IPv4Pool.step, IPv4Pool.excludeIP, value_lockGuard, value_ite, value_bind]
  split_ifs <;> exact .frame rfl rfl rfl

theorem Linked.withholds_fireTimer {callback : Callback} (h : Linked m)
    (hfresh : m.pool.timeManager.Fresh) (hid : m.pool.timeManager.timers.lookup id = some callback)
    (hbad : ∀ ip, callback ≠ .bad ip) : m.Withholds (m.fireTimer id).value none := by
  have howner : ownerOf m.pool.timeManager id = some callback.owner := by rw [ownerOf, hid]; rfl
  rw [IPv4LeaseManager.fireTimer, TimeManager.fire, hid, Option.map_some]
  cases callback with
  | temporary ip c => exact .of_marks ⟨rfl, sameBadTimers_cancelTimer howner (by simp [Callback.owner])⟩ fun _ h => h
  | quarantined ip c => exact .of_marks ⟨rfl, sameBadTimers_cancelTimer howner (by simp [Callback.owner])⟩ fun _ h => h
  | bad ip => exact absurd rfl (hbad ip)
  | lease c =>
    obtain ⟨lease, hc, rfl⟩ := Option.map_eq_some_iff.1 ((h.lease_timer c id).1 howner)
    have hip := h.allocated_of_lease hc
    simp only [IPv4LeaseManager.expireLease, value_lockGuard, hc, value_bind, value_pure,
      IPv4Pool.expireIP, IPv4Pool.isAllocated, hip, Option.isSome_some, if_true]
    refine .of_marks ⟨rfl, (h.cancelLease hc).trans ?_⟩ fun _ hx => ne_none_of_erase hx
    exact sameBadTimers_addTimer (hfresh.cancelTimer lease.timerId) (by simp [Callback.owner])

/-! ## What is conflicted stays so -/

/-- A conflicted address has one timer and is not allocated. -/
structure Marked (p : IPv4Pool) : Prop where
  timed : p.BadTimed
  apart : ∀ ip, p.allocated.lookup ip ≠ none → p.bad.lookup ip = none

/-- What a step leaves of the conflicted addresses. -/
structure KeepsMarks (m : IPv4LeaseManager) (op : Op) (m' : IPv4LeaseManager) : Prop where
  marked : Marked m'.pool
  bad : ∀ ip timerId, m.pool.bad.lookup ip = some timerId → op ≠ .fireTimer timerId →
    m'.pool.bad.lookup ip = some timerId
  gives : ∀ ip, m.gives op = some ip → m.pool.bad.lookup ip = none

theorem Withholds.keepsMarks {op : Op} (h : m.Withholds m' (m.gives op)) (hm : Marked m.pool) :
    m.KeepsMarks op m' where
  marked := by
    refine ⟨h.marks.badTimed hm.timed, fun ip hip => ?_⟩
    rw [h.marks.bad]
    rcases h.allocated ip hip with hip | hip
    · exact hm.apart ip hip
    · exact h.given ip hip
  bad ip timerId hip _ := by rw [h.marks.bad, hip]
  gives := h.given

theorem Linked.withheld {timerId : UInt32} (h : Linked m) (hm : Marked m.pool)
    (hbad : m.pool.bad.lookup ip = some timerId) : m.Withheld ip timerId := by
  have hallocated : m.pool.allocated.lookup ip = none := by
    by_contra hip
    rw [hm.apart ip hip] at hbad
    cases hbad
  refine ⟨hbad, hallocated, ?_⟩
  rintro c lease hc rfl
  rw [h.allocated_of_lease hc] at hallocated
  cases hallocated

/-- The pool that a decline leaves: an allocated address is conflicted under the next timer. -/
def declined (p : IPv4Pool) (ip : UInt32) (c : ClientID) (timerId : UInt32) : IPv4Pool :=
  { p with
    allocated := p.allocated.erase ip
    reverseAllocated := p.reverseAllocated.erase c
    bad := p.bad.insert ip p.timeManager.nextTimerId
    timeManager := ((p.timeManager.cancelTimer timerId).addTimer (.bad ip)).2 }

theorem marked_declined {p : IPv4Pool} (hm : Marked p) (hip : p.allocated.lookup ip = some c)
    (hid : ownerOf p.timeManager id = some (.lease c)) (hfresh : p.timeManager.Fresh) :
    Marked (declined p ip c id) := by
  have hunmarked := hm.apart ip (by rw [hip]; exact Option.some_ne_none c)
  have hnext := ownerOf_next hfresh
  obtain ⟨htimed, hapart⟩ := hm
  refine ⟨fun ip' id' => ?_, fun ip' hip' => ?_⟩
  · have := htimed ip' id'
    simp only [declined, ownerOf_addTimer, ownerOf_cancelTimer, TimeManager.nextTimerId_cancelTimer,
      lookup_insert_eq, Callback.owner]
    grind
  · have := hapart ip' (ne_none_of_erase hip')
    simp only [declined, lookup_erase_eq, lookup_insert_eq] at *
    grind

theorem value_declineLease {lease : Lease} (hc : m.leases.lookup c = some lease)
    (hip : m.pool.allocated.lookup lease.ip = some c) : (m.declineLease c lease.ip).value =
      some (true, ⟨declined m.pool lease.ip c lease.timerId, m.leases.erase c⟩) := by
  simp only [IPv4LeaseManager.declineLease, value_lockGuard, hc, value_bind, value_pure,
    IPv4Pool.setConflicted, IPv4Pool.isAllocated, hip, Option.isSome_some, if_true, Option.getD_some,
    TimeManager.addTimer_fst, TimeManager.nextTimerId_cancelTimer, declined]

theorem Linked.keepsMarks_declineLease (h : Linked m) (hm : Marked m.pool)
    (hs : Sound m (.declineLease c ip)) (hm' : m.apply (.declineLease c ip) = some m') :
    m.KeepsMarks (.declineLease c ip) m' ∧ ∃ timerId, m.Settled c ip m' timerId := by
  have hlinked := h.declineLease hs hm'
  obtain ⟨hfresh, hlease⟩ := hs
  obtain ⟨lease, hc, rfl⟩ := Option.map_eq_some_iff.1 hlease
  have hip := h.allocated_of_lease hc
  have howner := h.owner_of_lease hc
  have hunmarked := hm.apart lease.ip (by rw [hip]; exact Option.some_ne_none c)
  have hmarked := marked_declined hm hip howner hfresh
  have hvalue := value_declineLease hc hip
  rw [IPv4LeaseManager.apply, hvalue, Option.map_some, Option.some_inj] at hm'
  subst hm'
  have hbad : (declined m.pool lease.ip c lease.timerId).bad.lookup lease.ip =
      some m.pool.timeManager.nextTimerId := by
    rw [declined, lookup_insert_eq, if_pos rfl]
  refine ⟨⟨hmarked, fun ip timerId hip _ => ?_, ?_⟩, m.pool.timeManager.nextTimerId, hvalue, ?_,
    fun id hid => ?_, hlinked.withheld hmarked hbad, ?_⟩
  · rw [declined, lookup_insert_eq, if_neg, hip]
    rintro rfl
    rw [hunmarked] at hip
    cases hip
  · intro ip hip
    cases hip
  · rw [lookup_erase_eq, if_pos rfl]
  · -- the timer would be that of the erased lease
    have hlost := (hlinked.lease_timer c id).1 (ownerOf_eq_lease.2 hid)
    rw [lookup_erase_eq, if_pos rfl] at hlost
    cases hlost
  · rw [declined, TimeManager.lookup_addTimer, TimeManager.nextTimerId_cancelTimer, if_pos rfl]

theorem keepsMarks_bad {timerId : UInt32} (hm : Marked m.pool)
    (hid : m.pool.timeManager.timers.lookup timerId = some (.bad ip)) :
    m.KeepsMarks (.fireTimer timerId) (m.fireTimer timerId).value := by
  have howner : ownerOf m.pool.timeManager timerId = some (.bad ip) := by rw [ownerOf, hid]; rfl
  have hbad := (hm.timed ip timerId).1 howner
  rw [IPv4LeaseManager.fireTimer, TimeManager.fire, hid, Option.map_some]
  refine ⟨⟨fun ip' id' => ?_, fun ip' hip' => ?_⟩, fun ip' id' hip' hne => ?_, ?_⟩
  · have := hm.timed ip' id'
    have := hm.timed ip' timerId
    show ownerOf (m.pool.timeManager.cancelTimer timerId) id' = _ ↔ (m.pool.bad.erase ip).lookup ip' = _
    rw [ownerOf_cancelTimer, lookup_erase_eq]
    grind
  · show (m.pool.bad.erase ip).lookup ip' = none
    rw [lookup_erase_eq, hm.apart ip' hip', ite_self]
  · show (m.pool.bad.erase ip).lookup ip' = some id'
    rw [lookup_erase_eq, if_neg, hip']
    rintro rfl
    rw [hbad, Option.some_inj] at hip'
    exact hne (congrArg Op.fireTimer hip')
  · intro ip hip
    cases hip

theorem keepsMarks_adjustPool {net : Option UInt32} {len : Option UInt8} {gw : Option UInt32}
    (hm : Marked m.pool) (hs : Withholding m (.adjustPool net len gw)) :
    m.KeepsMarks (.adjustPool net len gw)
      { m with pool := m.pool.step (.adjustPool net len gw) } := by
  rw [IPv4Pool.step]
  unfold IPv4Pool.adjustPool
  dsimp only [value_lockGuard, value_pure]
  split_ifs with hmanager
  · have hnone (ip : UInt32) : m.pool.bad.lookup ip = none := by
      rw [AList.lookup_eq_none, AList.mem_keys, hs.2 hmanager]
      exact List.not_mem_nil
    refine ⟨⟨fun ip id => ?_, fun ip hip => rfl⟩, fun ip id hip => ?_, ?_⟩
    · exact (hm.timed ip id).trans (by rw [hnone]; exact Iff.rfl)
    · rw [hnone] at hip
      cases hip
    · intro ip hip
      cases hip
  · refine ⟨⟨hm.timed, hm.apart⟩, fun _ _ hip _ => hip, ?_⟩
    intro ip hip
    cases hip

theorem Linked.keepsMarks {op : Op} (h : Linked m) (hm : Marked m.pool) (hs : Withholding m op)
    (hm' : m.apply op = some m') : m.KeepsMarks op m' := by
  obtain ⟨hsound, -⟩ := id hs
  obtain ⟨hfresh, -⟩ := id hsound
  cases op with
  | declineLease c ip => exact (h.keepsMarks_declineLease hm hsound hm').1
  | adjustPool net len gw => exact Option.some.inj hm' ▸ keepsMarks_adjustPool hm hs
  | fireTimer id =>
    obtain rfl := Option.some.inj hm'
    cases hid : m.pool.timeManager.timers.lookup id with
    | none =>
      rw [IPv4LeaseManager.fireTimer, TimeManager.fire, hid]
      exact (Withholds.refl m).keepsMarks hm
    | some callback =>
      by_cases hbad : ∃ ip, callback = .bad ip
      · obtain ⟨ip, rfl⟩ := hbad
        exact keepsMarks_bad hm hid
      · exact (h.withholds_fireTimer hfresh hid (not_exists.1 hbad)).keepsMarks hm
  | createLease c leaseTime t1 t2 =>
    exact Option.some.inj hm' ▸ (h.withholds_createLease hs).keepsMarks hm
  | createLeaseFromTemp c ip leaseTime t1 t2 =>
    exact Option.some.inj hm' ▸ (h.withholds_createLeaseFromTemp hs).keepsMarks hm
  | createLeaseFromReq c ip leaseTime t1 t2 =>
    exact Option.some.inj hm' ▸ (h.withholds_createLeaseFromReq hfresh).keepsMarks hm
  | renewLease c leaseTime t1 t2 =>
    exact Option.some.inj hm' ▸ (h.withholds_renewLease hfresh).keepsMarks hm
  | rebindLease c ip leaseTime t1 t2 =>
    exact Option.some.inj hm' ▸ (h.withholds_rebindLease hfresh).keepsMarks hm
  | releaseLease c => exact Option.some.inj hm' ▸ h.withholds_releaseLease.keepsMarks hm
  | setLeaseManager =>
    have hframe := @Withholds.frame m (m.pool.step .setLeaseManager) rfl rfl rfl
    exact Option.some.inj hm' ▸ hframe.keepsMarks hm
  | allocateTemporaryIP c =>
    exact Option.some.inj hm' ▸ (h.withholds_allocateTemporaryIP hs).keepsMarks hm
  | allocateRequestedTemporaryIP ip c =>
    exact Option.some.inj hm' ▸ (h.withholds_allocateRequestedTemporaryIP hfresh).keepsMarks hm
  | clearTemporaryOffer ip =>
    exact Option.some.inj hm' ▸ h.withholds_clearTemporaryOffer.keepsMarks hm
  | excludeIP ip => exact Option.some.inj hm' ▸ (withholds_excludeIP m ip).keepsMarks hm
  | removeExclusion ip =>
    have hframe := @Withholds.frame m (m.pool.step (.removeExclusion ip)) rfl rfl rfl
    exact Option.some.inj hm' ▸ hframe.keepsMarks hm

/-! ## Runs -/

/-- The steps of a run that keep what is withheld. -/
abbrev WithholdingAlong (s : Option IPv4LeaseManager) (ops : List Op) : Prop :=
  Along (fun s op => ∀ m ∈ s, Withholding m op) step s ops

/-- The state of a run of such steps. -/
structure Guarded (m : IPv4LeaseManager) : Prop where
  linked : Linked m
  marked : Marked m.pool

theorem Guarded.apply {op : Op} (h : Guarded m) (hs : Withholding m op) :
    ∃ m', m.apply op = some m' ∧ Guarded m' ∧ m.KeepsMarks op m' := by
  obtain ⟨m', hm'⟩ := apply_ne_none hs.1
  have hkeeps := h.linked.keepsMarks h.marked hs hm'
  exact ⟨m', hm', ⟨h.linked.apply hs.1 hm', hkeeps.marked⟩, hkeeps⟩

/-- A conflicted address stays one until its timer fires. -/
theorem Guarded.along {timerId : UInt32} (later : List Op) (h : Guarded m)
    (hbad : m.pool.bad.lookup ip = some timerId) (hs : WithholdingAlong (some m) later)
    (hlater : .fireTimer timerId ∉ later) :
    ∃ s, runFrom step (some m) later = some s ∧ Guarded s ∧ s.pool.bad.lookup ip = some timerId := by
  induction later generalizing m with
  | nil => exact ⟨m, rfl, h, hbad⟩
  | cons op later ih =>
    rw [List.mem_cons, not_or] at hlater
    obtain ⟨m', hm', hguarded, hkeeps⟩ := h.apply (hs.1 m rfl)
    have hstep : step (some m) op = some m' := hm'
    have hrest := hs.2
    rw [hstep] at hrest
    rw [runFrom_cons, hstep]
    exact ih hguarded (hkeeps.bad ip timerId hbad fun heq => hlater.1 heq.symm) hrest hlater.2

/-- **The DHCPv4 decline**: in a run of steps that withhold, every decline keeps the decline law. -/
theorem declineLaw_of_withholding {nextTimerId : UInt32} {before after : List Op}
    (h : WithholdingAlong (some (new nextTimerId)) (before ++ .declineLease c ip :: after)) :
    ∃ m, runFrom step (some (new nextTimerId)) before = some m ∧ DeclineLaw m c ip after := by
  obtain ⟨hbefore, hrest⟩ := along_append.1 h
  obtain ⟨m, hm, hguarded⟩ := Along.invariant (I := fun s => ∃ m, s = some m ∧ Guarded m)
    (fun s op ⟨m, hm, hguarded⟩ hs => by
      subst hm
      obtain ⟨m', hm', hguarded', -⟩ := hguarded.apply (hs m rfl)
      exact ⟨m', hm', hguarded'⟩)
    ⟨_, rfl, linked_new nextTimerId, ⟨fun ip id => by simp [new, IPv4Pool.new, ownerOf], fun ip hip => absurd rfl hip⟩⟩ hbefore
  rw [hm] at hrest
  obtain ⟨hs, hafter⟩ := hrest
  obtain ⟨m', hm', hguarded', -⟩ := hguarded.apply (hs m rfl)
  obtain ⟨-, timerId, hsettled⟩ :=
    hguarded.linked.keepsMarks_declineLease hguarded.marked (hs m rfl).1 hm'
  have hstep : step (some m) (.declineLease c ip) = some m' := hm'
  rw [hstep] at hafter
  refine ⟨m, hm, m', timerId, hsettled, fun later hprefix hlater => ?_⟩
  obtain ⟨rest, rfl⟩ := hprefix
  obtain ⟨s, hrun, hs', hbad⟩ := hguarded'.along later hsettled.withheld.bad
    (along_append.1 hafter).1 hlater
  refine ⟨s, hrun, hs'.linked.withheld hs'.marked hbad, fun op hop hgives => ?_⟩
  obtain ⟨rest', hrest'⟩ := hop
  rw [← hrest'] at hafter
  have hnext := (along_concat.1 (along_append.1 hafter).1).2
  rw [hrun] at hnext
  obtain ⟨_, _, _, hkeeps⟩ := hs'.apply (hnext s rfl)
  rw [hkeeps.gives ip hgives] at hbad
  cases hbad

instance (p : IPv4Pool) (c : ClientID) : Decidable (p.TakesClean c) :=
  inferInstanceAs (Decidable (_ ∧ _))

instance (m : IPv4LeaseManager) : DecidablePred (Withholding m)
  | .createLease .. | .createLeaseFromTemp .. | .allocateTemporaryIP _ | .adjustPool .. =>
    inferInstanceAs (Decidable (_ ∧ _))
  | .createLeaseFromReq .. | .renewLease .. | .rebindLease .. | .releaseLease _ | .declineLease .. |
    .setLeaseManager | .allocateRequestedTemporaryIP .. | .clearTemporaryOffer _ | .excludeIP _ |
    .removeExclusion _ | .fireTimer _ => inferInstanceAs (Decidable (_ ∧ True))

end IPv4LeaseManager

/-! ## The DHCPv6 declines -/

structure IPv6LeaseManager.Settled (m : IPv6LeaseManager) (addr : BitVec 128) (key : IAKey) : Prop where
  succeeds : (m.declineLease addr key).value.1 = .Success
  lease : (m.declineLease addr key).value.2.isLeased addr key = false
  timer : (m.declineLease addr key).value.2.leaseTimerIDs.lookup addr = none
  conflicted : ((m.declineLease addr key).value.2.pool.bad.lookup addr).isSome = true

theorem IPv6LeaseManager.not_settled {m : IPv6LeaseManager} {addr : BitVec 128} {key : IAKey}
    (h : m.isLeased addr key = true) : ¬ m.Settled addr key := by
  intro hsettled
  have hlease : m.isLeased addr key = false := hsettled.lease
  rw [h] at hlease
  cases hlease

structure PrefixLeaseManager.Settled (m : PrefixLeaseManager) (pfx : IPv6Prefix) (key : IAKey) :
    Prop where
  succeeds : (m.declinePrefix pfx key).value.1 = .Success
  lease : pfx ∉ groupOf (m.declinePrefix pfx key).value.2.prefixes key
  timer : (m.declinePrefix pfx key).value.2.prefixTimerIDs.lookup pfx = none
  conflicted : ((m.declinePrefix pfx key).value.2.pool.bad.lookup pfx).isSome = true

theorem PrefixLeaseManager.not_settled {m : PrefixLeaseManager} {pfx : IPv6Prefix} {key : IAKey}
    (h : pfx ∈ groupOf m.prefixes key) : ¬ m.Settled pfx key :=
  fun hsettled => hsettled.lease h

/-! ## The three servers -/

theorem IPv4LeaseManager.relocks_declineLease {m : IPv4LeaseManager} {c : ClientID}
    (h : (m.leases.lookup c).isSome = true) (ip : UInt32) :
    (m.declineLease c ip).relocks [] = true := by
  have hiff := IPv4LeaseManager.relocks_iff (m := m) (.declineLease c ip)
  rw [← Bool.not_eq_false]
  intro hfree
  have hnone : m.leases.lookup c = none := hiff.1 hfree
  rw [hnone] at h
  cases h

/-- **The decline law**: with the mutexes as they are, no decline of a client with a lease returns.
    If they could be taken twice, the law would hold in the DHCPv4 runs whose steps withhold what is
    conflicted, and of no lease of the DHCPv6 managers. -/
theorem decline_law (m₄ : IPv4LeaseManager) (m₆ : IPv6LeaseManager) (mp : PrefixLeaseManager) :
    ((∀ c ip, (m₄.leases.lookup c).isSome = true → (m₄.declineLease c ip).relocks [] = true) ∧
      (∀ addr key, (m₆.declineLease addr key).relocks [] = true) ∧
      ∀ pfx key, (mp.declinePrefix pfx key).relocks [] = true) ∧
    (∀ nextTimerId before c ip after,
      IPv4LeaseManager.WithholdingAlong (some (.new nextTimerId)) (before ++ .declineLease c ip :: after) →
        ∃ m, runFrom IPv4LeaseManager.step (some (.new nextTimerId)) before = some m ∧
          m.DeclineLaw c ip after) ∧
    (∀ addr key, m₆.isLeased addr key = true → ¬ m₆.Settled addr key) ∧
    ∀ pfx key, pfx ∈ groupOf mp.prefixes key → ¬ mp.Settled pfx key := by
  refine ⟨⟨fun c ip h => m₄.relocks_declineLease h ip, fun addr key => ?_, fun pfx key => ?_⟩,
    fun _ _ _ _ _ => IPv4LeaseManager.declineLaw_of_withholding,
    fun _ _ => IPv6LeaseManager.not_settled, fun _ _ => PrefixLeaseManager.not_settled⟩
  · rw [← Bool.not_eq_false]
    exact (IPv6LeaseManager.relocks_iff (m := m₆) (.declineLease addr key)).1
  · rw [← Bool.not_eq_false]
    exact (PrefixLeaseManager.relocks_iff (m := mp) (.declinePrefix pfx key)).1

/-- The one address of `10.0.0.0/30` is leased and declined, and leased again when its timer fires. -/
theorem decline_oneAddress :
    ∃ m, runFrom IPv4LeaseManager.step (some (.new 1)) [.setLeaseManager,
        .adjustPool (some 0x0A000000) (some 30) (some 0x0A000001),
        .createLeaseFromReq [1] 0x0A000002 60 30 50] = some m ∧
      m.DeclineLaw [1] 0x0A000002 [.createLeaseFromReq [2] 0x0A000002 60 30 50, .fireTimer 2,
        .createLeaseFromReq [2] 0x0A000002 60 30 50] :=
  (decline_law (.new 1) (.new 1) { pool := .new PrefixPool.base48 48 {} }).2.1 1 _ _ _ _ (by decide)

/-- The offer of the one address is taken up, the lease expires, and another client gets the address
    that is in quarantine for the first. -/
def secondClient : List IPv4LeaseManager.Op :=
  [.setLeaseManager, .adjustPool (some 0x0A000000) (some 30) (some 0x0A000001),
    .allocateTemporaryIP [1], .createLeaseFromTemp [1] 0x0A000002 60 30 50, .fireTimer 2,
    .allocateTemporaryIP [2], .createLeaseFromTemp [2] 0x0A000002 60 30 50]

/-- An association leases an address of `2001:db8::/64`. -/
def leasedAddress : IPv6LeaseManager :=
  runFrom IPv6LeaseManager.step (.new 1) [.adjustPool IPv6LeaseManager.network 64,
    .createLeaseFromRequest (IPv6LeaseManager.network + 5) (IPv6LeaseManager.client 1) 0]

def leasedPrefix : PrefixLeaseManager :=
  (PrefixLeaseManager.createPrefixFromRequest { pool := .new PrefixPool.base48 48 {} }
    PrefixPool.base48 (IPv6LeaseManager.client 1)).value.2

/-- A leased address and a leased prefix are declined in vain, and a DHCPv4 address is declined and
    offered again from the quarantine of another client, with its conflict timer pending. -/
theorem decline_is_not_kept :
    (leasedAddress.isLeased (IPv6LeaseManager.network + 5) (IPv6LeaseManager.client 1) = true ∧
      ¬ leasedAddress.Settled (IPv6LeaseManager.network + 5) (IPv6LeaseManager.client 1)) ∧
    (PrefixPool.base48 ∈ groupOf leasedPrefix.prefixes (IPv6LeaseManager.client 1) ∧
      ¬ leasedPrefix.Settled PrefixPool.base48 (IPv6LeaseManager.client 1)) ∧
    ∃ m, runFrom IPv4LeaseManager.step (some (.new 1)) secondClient = some m ∧
      (m.leases.lookup [2]).map IPv4LeaseManager.Lease.ip = some 0x0A000002 ∧
        ¬ m.DeclineLaw [2] 0x0A000002 [.allocateTemporaryIP [1]] := by
  refine ⟨⟨by decide, fun h => absurd h.lease (by decide)⟩,
    ⟨by decide, fun h => absurd h.lease (by decide)⟩, ?_⟩
  have hlease : (runFrom IPv4LeaseManager.step (some (.new 1)) secondClient).bind
      (fun m => (m.leases.lookup [2]).map IPv4LeaseManager.Lease.ip) = some 0x0A000002 := by
    decide
  have hoffer : (runFrom IPv4LeaseManager.step (some (.new 1)) secondClient).bind (fun m =>
      (m.declineLease [2] 0x0A000002).value.bind fun r => r.2.gives (.allocateTemporaryIP [1])) =
        some 0x0A000002 := by
    decide
  obtain ⟨m, hm, hlease⟩ := Option.bind_eq_some_iff.1 hlease
  refine ⟨m, hm, hlease, ?_⟩
  rintro ⟨m', timerId, hsettled, hlater⟩
  obtain ⟨s, hs, -, hgives⟩ := hlater [] List.nil_prefix List.not_mem_nil
  obtain rfl := Option.some.inj hs
  rw [hm, Option.bind_some, hsettled.succeeds, Option.bind_some] at hoffer
  exact hgives (.allocateTemporaryIP [1]) List.prefix_rfl hoffer

end VirtualRouter.Dhcp
