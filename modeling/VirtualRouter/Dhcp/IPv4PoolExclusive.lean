/-
  Runs of the DHCPv4 pool: when no address serves two clients.

  A `Binding` is the one thing an address is used for, and `Represents p b` says
  that the containers of the pool hold the bindings `b` and nothing else.  Every
  edit of the pool changes the binding of one address, as long as the client
  that gets the address has no other of that kind.  The code does not see to
  that: the scans take addresses on offer or in quarantine, a client may be
  bound twice, and `adjustPool` clears one direction of the maps only.

  * `Exclusive`: an address is in one container at most, the maps of each pair
    are inverse, and no address has two clients;
  * `Represents`: the bindings of a pool; `Represents.exclusive`;
  * `Sound`: the steps that keep the bindings;
  * `exclusive_of_sound`: along sound steps every state is `Exclusive`.
-/
import VirtualRouter.Dhcp.IPv4Pool
import VirtualRouter.Lib.Run

namespace VirtualRouter.Dhcp

open NestedMap Locked Run
open VirtualRouter.Core

namespace IPv4Pool

/-! ## Runs -/

/-- The operations of the pool and the firing of its timers. -/
inductive Op where
  | allocateIP (clientId : ClientID)
  | allocateTemporaryIP (clientId : ClientID)
  | allocateRequestedTemporaryIP (ip : UInt32) (clientId : ClientID)
  | allocateRequestedIP (ip : UInt32) (clientId : ClientID)
  | activateTemporaryIP (ip : UInt32) (clientId : ClientID)
  | clearTemporaryOffer (ip : UInt32)
  | excludeIP (ip : UInt32)
  | removeExclusion (ip : UInt32)
  | expireIP (ip : UInt32) (client : ClientID)
  | releaseIP (ip : UInt32) (client : ClientID)
  | setConflicted (ip : UInt32)
  | adjustPool (net : Option UInt32) (len : Option UInt8) (gw : Option UInt32)
  | setLeaseManager
  | fireTimer (timerId : UInt32)
  deriving DecidableEq

/-- The pool that an operation leaves; a division by zero ends the run. -/
def step (p : IPv4Pool) : Op → IPv4Pool
  | .allocateIP c => (p.allocateIP c).value.2
  | .allocateTemporaryIP c => (p.allocateTemporaryIP c).value.elim p Prod.snd
  | .allocateRequestedTemporaryIP ip c => (p.allocateRequestedTemporaryIP ip c).value.2
  | .allocateRequestedIP ip c => (p.allocateRequestedIP ip c).value.2
  | .activateTemporaryIP ip c => (p.activateTemporaryIP ip c).value.2
  | .clearTemporaryOffer ip => (p.clearTemporaryOffer ip).value
  | .excludeIP ip => (p.excludeIP ip).value.2
  | .removeExclusion ip => (p.removeExclusion ip).value.2
  | .expireIP ip c => (p.expireIP ip c).value
  | .releaseIP ip c => (p.releaseIP ip c).value
  | .setConflicted ip => (p.setConflicted ip).value.2
  | .adjustPool net len gw => (p.adjustPool net len gw).value
  | .setLeaseManager => p.setLeaseManager
  | .fireTimer id => (p.fireTimer id).value

/-! ## Exclusivity -/

/-- The containers of the pool that hold addresses. -/
inductive Place where
  | allocated
  | temporary
  | quarantined
  | bad
  | release
  deriving DecidableEq, Repr

def At (p : IPv4Pool) : Place → UInt32 → Prop
  | .allocated, ip => ∃ c, p.allocated.lookup ip = some c
  | .temporary, ip => ∃ c id, p.temporary.lookup ip = some (c, id)
  | .quarantined, ip => ∃ c id, p.quarantined.lookup ip = some (c, id)
  | .bad, ip => (p.bad.lookup ip).isSome
  | .release, ip => ip ∈ p.release

/-- An address is leased by a client or on offer to it. -/
def Serves (p : IPv4Pool) (ip : UInt32) (c : ClientID) : Prop :=
  p.allocated.lookup ip = some c ∨ ∃ id, p.temporary.lookup ip = some (c, id)

/-- No address is in two containers or serves two clients, and the maps of each pair are inverse. -/
structure Exclusive (p : IPv4Pool) : Prop where
  one_place : ∀ ip q r, p.At q ip → p.At r ip → q = r
  allocated_inverse : ∀ ip c,
    p.allocated.lookup ip = some c ↔ p.reverseAllocated.lookup c = some ip
  temporary_inverse : ∀ ip c,
    (∃ id, p.temporary.lookup ip = some (c, id)) ↔ p.reverseTemporary.lookup c = some ip
  quarantined_inverse : ∀ ip c,
    (∃ id, p.quarantined.lookup ip = some (c, id)) ↔ p.reverseQuarantined.lookup c = some ip
  one_client : ∀ ip c c', p.Serves ip c → p.Serves ip c' → c = c'

/-! ## Bindings -/

/-- What an address is used for. -/
inductive Binding where
  | free
  | allocated (client : ClientID)
  | temporary (client : ClientID) (timerId : UInt32)
  | quarantined (client : ClientID) (timerId : UInt32)
  | bad
  | released
  deriving DecidableEq, Repr

def Binding.offeredTo : Binding → Option ClientID
  | .temporary c _ => some c
  | _ => none

/-- The client an address is in quarantine for. -/
def Binding.keptFor : Binding → Option ClientID
  | .quarantined c _ => some c
  | _ => none

theorem Binding.offeredTo_eq_some {x : Binding} {c : ClientID} :
    x.offeredTo = some c ↔ ∃ id, x = .temporary c id := by
  cases x <;> simp [offeredTo]

theorem Binding.keptFor_eq_some {x : Binding} {c : ClientID} :
    x.keptFor = some c ↔ ∃ id, x = .quarantined c id := by
  cases x <;> simp [keptFor]

/-- The containers and the timers of the pool hold the bindings `b`. -/
structure Represents (p : IPv4Pool) (b : UInt32 → Binding) : Prop where
  allocated : ∀ ip c, p.allocated.lookup ip = some c ↔ b ip = .allocated c
  reverseAllocated : ∀ ip c, p.reverseAllocated.lookup c = some ip ↔ b ip = .allocated c
  temporary : ∀ ip c id, p.temporary.lookup ip = some (c, id) ↔ b ip = .temporary c id
  reverseTemporary : ∀ ip c, p.reverseTemporary.lookup c = some ip ↔ (b ip).offeredTo = some c
  quarantined : ∀ ip c id, p.quarantined.lookup ip = some (c, id) ↔ b ip = .quarantined c id
  reverseQuarantined : ∀ ip c, p.reverseQuarantined.lookup c = some ip ↔ (b ip).keptFor = some c
  bad : ∀ ip, (p.bad.lookup ip).isSome ↔ b ip = .bad
  release : ∀ ip, ip ∈ p.release ↔ b ip = .released
  release_nodup : p.release.Nodup
  timer_temporary : ∀ id ip c,
    p.timeManager.timers.lookup id = some (.temporary ip c) ↔ b ip = .temporary c id
  timer_quarantined : ∀ id ip c,
    p.timeManager.timers.lookup id = some (.quarantined ip c) ↔ b ip = .quarantined c id

variable {p : IPv4Pool} {b : UInt32 → Binding} {ip id : UInt32} {c : ClientID}

def Binding.place : Binding → Option Place
  | .free => none
  | .allocated _ => some .allocated
  | .temporary .. => some .temporary
  | .quarantined .. => some .quarantined
  | .bad => some .bad
  | .released => some .release

theorem Represents.place_of_at (h : Represents p b) {q : Place} (hq : p.At q ip) :
    (b ip).place = some q := by
  cases q with
  | allocated =>
    obtain ⟨c, hc⟩ := hq
    rw [(h.allocated ip c).1 hc]
    rfl
  | temporary =>
    obtain ⟨c, id, hc⟩ := hq
    rw [(h.temporary ip c id).1 hc]
    rfl
  | quarantined =>
    obtain ⟨c, id, hc⟩ := hq
    rw [(h.quarantined ip c id).1 hc]
    rfl
  | bad =>
    rw [(h.bad ip).1 hq]
    rfl
  | release =>
    rw [(h.release ip).1 hq]
    rfl

theorem Represents.exclusive (h : Represents p b) : p.Exclusive where
  one_place ip q r hq hr := Option.some.inj ((h.place_of_at hq).symm.trans (h.place_of_at hr))
  allocated_inverse ip c := (h.allocated ip c).trans (h.reverseAllocated ip c).symm
  temporary_inverse ip c := by
    simp only [h.temporary, h.reverseTemporary, Binding.offeredTo_eq_some]
  quarantined_inverse ip c := by
    simp only [h.quarantined, h.reverseQuarantined, Binding.keptFor_eq_some]
  one_client ip c c' hc hc' := by
    simp only [Serves, h.allocated, h.temporary] at hc hc'
    obtain hc | ⟨id, hc⟩ := hc <;> obtain hc' | ⟨id', hc'⟩ := hc' <;>
      simp_all

/-! ## Edits of one address -/

section edits

attribute [local grind =] lookup_insert_eq lookup_erase_eq TimeManager.lookup_addTimer
  TimeManager.lookup_cancelTimer Function.update_apply TimeManager.Fresh Binding.offeredTo Binding.keptFor

theorem Represents.setAllocated (h : Represents p b) (hip : b ip = .free)
    (hc : ∀ ip', b ip' ≠ .allocated c) :
    Represents (p.setAllocated ip c) (Function.update b ip (.allocated c)) := by
  obtain ⟨hA, hRA, hT, hRT, hQ, hRQ, hB, hR, hnd, htT, htQ⟩ := h
  constructor <;> simp only [IPv4Pool.setAllocated] <;> grind

theorem Represents.setTemporary (h : Represents p b) (hip : b ip = .free)
    (hc : ∀ ip', (b ip').offeredTo ≠ some c) (hfresh : p.timeManager.Fresh) :
    Represents (p.setTemporary ip c)
      (Function.update b ip (.temporary c p.timeManager.nextTimerId)) := by
  obtain ⟨hA, hRA, hT, hRT, hQ, hRQ, hB, hR, hnd, htT, htQ⟩ := h
  constructor <;> simp only [IPv4Pool.setTemporary, TimeManager.addTimer_fst] <;> grind

theorem Represents.dropQuarantined (h : Represents p b) (hip : b ip = .quarantined c id) :
    Represents (p.dropQuarantined ip c id) (Function.update b ip .free) := by
  have htimer := (h.timer_quarantined id ip c).2 hip
  have hreverse := (h.reverseQuarantined ip c).2 (Binding.keptFor_eq_some.2 ⟨id, hip⟩)
  obtain ⟨hA, hRA, hT, hRT, hQ, hRQ, hB, hR, hnd, htT, htQ⟩ := h
  constructor <;> simp only [IPv4Pool.dropQuarantined] <;> grind

theorem Represents.eraseRelease (h : Represents p b) (hip : b ip = .released ∨ b ip = .free) :
    Represents { p with release := p.release.erase ip } (Function.update b ip .free) := by
  obtain ⟨hA, hRA, hT, hRT, hQ, hRQ, hB, hR, hnd, htT, htQ⟩ := h
  have hmem (ip' : UInt32) : ip' ∈ p.release.erase ip ↔ ip' ≠ ip ∧ ip' ∈ p.release :=
    hnd.mem_erase_iff
  have hnd' : (p.release.erase ip).Nodup := hnd.erase ip
  constructor <;> grind

theorem Represents.dropTemporary (h : Represents p b) (hip : b ip = .temporary c id) :
    Represents { p with
      timeManager := p.timeManager.cancelTimer id
      temporary := p.temporary.erase ip
      reverseTemporary := p.reverseTemporary.erase c } (Function.update b ip .free) := by
  have htimer := (h.timer_temporary id ip c).2 hip
  have hreverse := (h.reverseTemporary ip c).2 (Binding.offeredTo_eq_some.2 ⟨id, hip⟩)
  obtain ⟨hA, hRA, hT, hRT, hQ, hRQ, hB, hR, hnd, htT, htQ⟩ := h
  constructor <;> simp only <;> grind

theorem Represents.renewTemporary (h : Represents p b) (hip : b ip = .temporary c id)
    (hfresh : p.timeManager.Fresh) :
    Represents { p with
      temporary := p.temporary.insert ip (c, p.timeManager.nextTimerId)
      timeManager := ((p.timeManager.cancelTimer id).addTimer (.temporary ip c)).2 }
      (Function.update b ip (.temporary c p.timeManager.nextTimerId)) := by
  have htimer := (h.timer_temporary id ip c).2 hip
  obtain ⟨hA, hRA, hT, hRT, hQ, hRQ, hB, hR, hnd, htT, htQ⟩ := h
  constructor <;> simp only <;> grind [TimeManager.nextTimerId_cancelTimer]

theorem Represents.dropAllocated (h : Represents p b) (hip : b ip = .allocated c) :
    Represents { p with
      allocated := p.allocated.erase ip
      reverseAllocated := p.reverseAllocated.erase c } (Function.update b ip .free) := by
  have hreverse := (h.reverseAllocated ip c).2 hip
  obtain ⟨hA, hRA, hT, hRT, hQ, hRQ, hB, hR, hnd, htT, htQ⟩ := h
  constructor <;> simp only <;> grind

theorem Represents.setQuarantined (h : Represents p b) (hip : b ip = .free)
    (hc : ∀ ip', (b ip').keptFor ≠ some c) (hfresh : p.timeManager.Fresh) :
    Represents { p with
      quarantined := p.quarantined.insert ip (c, p.timeManager.nextTimerId)
      reverseQuarantined := p.reverseQuarantined.insert c ip
      timeManager := (p.timeManager.addTimer (.quarantined ip c)).2 }
      (Function.update b ip (.quarantined c p.timeManager.nextTimerId)) := by
  obtain ⟨hA, hRA, hT, hRT, hQ, hRQ, hB, hR, hnd, htT, htQ⟩ := h
  constructor <;> simp only <;> grind

theorem Represents.setBad (h : Represents p b) (hip : b ip = .free) (hfresh : p.timeManager.Fresh) :
    Represents { p with
      bad := p.bad.insert ip p.timeManager.nextTimerId
      timeManager := (p.timeManager.addTimer (.bad ip)).2 } (Function.update b ip .bad) := by
  obtain ⟨hA, hRA, hT, hRT, hQ, hRQ, hB, hR, hnd, htT, htQ⟩ := h
  constructor <;> simp only <;> grind

theorem Represents.pushRelease (h : Represents p b) (hip : b ip = .free) :
    Represents { p with release := p.release ++ [ip] } (Function.update b ip .released) := by
  obtain ⟨hA, hRA, hT, hRT, hQ, hRQ, hB, hR, hnd, htT, htQ⟩ := h
  constructor <;> grind

end edits

/-! ## Sound steps -/

/-- A scan stops in round `i`: it comes there, and the address is neither the gateway nor taken. -/
def StopsAt (p : IPv4Pool) (taken : UInt32 → Locked Mutex Bool) (i : ℕ) : Prop :=
  (p.scanAddress (.ofNat i) ≠ p.gateway ∧ (taken (p.scanAddress (.ofNat i))).value = false) ∧
    ∀ j < i, p.scanAddress (.ofNat j) = p.gateway ∨ (taken (p.scanAddress (.ofNat j))).value = true

/-- A request of the client for the address is granted. -/
def Bookable (p : IPv4Pool) (ip : UInt32) (c : ClientID) : Prop :=
  (∀ kept ∈ p.quarantined.lookup ip, kept.1 = c) ∧ p.withinRange ip = true ∧
    (p.isReservedOrOffered ip).value = false

/-- The steps that keep the bindings.  The tests are those that the operation leaves out; new
    timers get an id that no pending timer has. -/
def Sound (p : IPv4Pool) (op : Op) : Prop :=
  p.timeManager.Fresh ∧
    match op with
    | .allocateIP c =>
      p.reverseAllocated.lookup c = none → (p.takeQuarantined c).1 = none → p.release = [] →
        ∀ i < (p.poolSize - 2).toNat, p.StopsAt p.isReserved i →
          p.temporary.lookup (p.scanAddress (.ofNat i)) = none ∧
            p.quarantined.lookup (p.scanAddress (.ofNat i)) = none
    | .allocateTemporaryIP c =>
      p.reverseTemporary.lookup c = none → (p.takeQuarantined c).1 = none → p.release = [] →
        p.poolSize ≠ 2 → ∀ i < p.poolSize.toNat, p.StopsAt p.isReservedOrOffered i →
          p.quarantined.lookup (p.scanAddress (.ofNat i)) = none
    | .allocateRequestedTemporaryIP ip c =>
      p.Bookable ip c → p.reverseTemporary.lookup c = none
    | .allocateRequestedIP ip c => p.Bookable ip c → p.reverseAllocated.lookup c = none
    | .activateTemporaryIP ip c =>
      (∃ offer ∈ p.temporary.lookup ip, offer.1 = c) → p.reverseAllocated.lookup c = none
    | .expireIP ip c =>
      ∀ owner ∈ p.allocated.lookup ip, owner = c ∧ p.reverseQuarantined.lookup c = none
    | .releaseIP ip c => ∀ owner ∈ p.allocated.lookup ip, owner = c
    | .adjustPool .. => p.leaseManager = true → p.allocated.keys = [] ∧ p.temporary.keys = []
    | _ => True

/-! ## What the operations do to the bindings -/

theorem scan_eq_some {taken : UInt32 → Locked Mutex Bool} {rounds : ℕ} {i : UInt32}
    (h : (p.scan taken rounds i).value = some ip) :
    ∃ j < rounds, p.scanAddress (i + .ofNat j) = ip ∧ ip ≠ p.gateway ∧ (taken ip).value = false ∧
      ∀ k < j, p.scanAddress (i + .ofNat k) = p.gateway ∨
        (taken (p.scanAddress (i + .ofNat k))).value = true := by
  induction rounds generalizing i with
  | zero => simp [scan] at h
  | succ rounds ih =>
    have hzero : i + UInt32.ofNat 0 = i := UInt32.add_zero i
    have hsucc (k : ℕ) : i + UInt32.ofNat (k + 1) = i + 1 + UInt32.ofNat k := by
      rw [UInt32.ofNat_add, UInt32.add_comm (UInt32.ofNat k), UInt32.add_assoc]
      rfl
    -- a round that is passed over puts the rest of the scan one further
    have hpassed (hskip : p.scanAddress i = p.gateway ∨ (taken (p.scanAddress i)).value = true)
        (hrest : (p.scan taken rounds (i + 1)).value = some ip) :
        ∃ j < rounds + 1, p.scanAddress (i + .ofNat j) = ip ∧ ip ≠ p.gateway ∧
          (taken ip).value = false ∧ ∀ k < j, p.scanAddress (i + .ofNat k) = p.gateway ∨
            (taken (p.scanAddress (i + .ofNat k))).value = true := by
      obtain ⟨j, hj, hip, hgw, hfree, hbefore⟩ := ih hrest
      refine ⟨j + 1, by omega, by rw [hsucc, hip], hgw, hfree, fun k hk => ?_⟩
      cases k with
      | zero => rwa [hzero]
      | succ k =>
        rw [hsucc]
        exact hbefore k (by omega)
    rw [scan] at h
    split_ifs at h with hgw
    · exact hpassed (.inl hgw) h
    · rw [value_bind] at h
      cases htaken : (taken (p.scanAddress i)).value with
      | true => exact hpassed (.inr htaken) (by simpa [htaken] using h)
      | false =>
        obtain rfl : p.scanAddress i = ip := by simpa [htaken] using h
        exact ⟨0, by omega, by rw [hzero], hgw, htaken, fun k hk => by omega⟩

theorem stopsAt_of_scan {taken : UInt32 → Locked Mutex Bool} {rounds : ℕ}
    (h : (p.scan taken rounds 0).value = some ip) :
    ∃ i < rounds, p.StopsAt taken i ∧ p.scanAddress (.ofNat i) = ip := by
  obtain ⟨i, hi, hip, hgw, hfree, hbefore⟩ := scan_eq_some h
  rw [UInt32.zero_add] at hip
  subst hip
  exact ⟨i, hi, ⟨⟨hgw, hfree⟩, fun j hj => by simpa using hbefore j hj⟩, rfl⟩

theorem value_isReserved (p : IPv4Pool) (ip : UInt32) :
    (p.isReserved ip).value =
      ((p.allocated.lookup ip).isSome || (decide (ip ∈ p.excluded) || (p.bad.lookup ip).isSome)) := by
  simp [isReserved, isAllocated, isExcluded, isConflicted]

theorem value_isReservedOrOffered (p : IPv4Pool) (ip : UInt32) :
    (p.isReservedOrOffered ip).value =
      ((p.isReserved ip).value || (p.temporary.lookup ip).isSome) := by
  simp [isReservedOrOffered, isTemporarilyOffered]

theorem Represents.not_allocated (h : Represents p b) (hc : p.reverseAllocated.lookup c = none) :
    ∀ ip, b ip ≠ .allocated c := by
  intro ip hip
  rw [(h.reverseAllocated ip c).2 hip] at hc
  cases hc

theorem Represents.not_offered (h : Represents p b) (hc : p.reverseTemporary.lookup c = none) :
    ∀ ip, (b ip).offeredTo ≠ some c := by
  intro ip hip
  rw [(h.reverseTemporary ip c).2 hip] at hc
  cases hc

theorem Represents.not_kept (h : Represents p b) (hc : p.reverseQuarantined.lookup c = none) :
    ∀ ip, (b ip).keptFor ≠ some c := by
  intro ip hip
  rw [(h.reverseQuarantined ip c).2 hip] at hc
  cases hc

theorem Represents.free (h : Represents p b) (hreserved : (p.isReserved ip).value = false)
    (hT : p.temporary.lookup ip = none) (hQ : p.quarantined.lookup ip = none)
    (hR : ip ∉ p.release) : b ip = .free := by
  rw [value_isReserved] at hreserved
  simp only [Bool.or_eq_false_iff] at hreserved
  cases hb : b ip with
  | free => rfl
  | allocated c => simp [(h.allocated ip c).2 hb] at hreserved
  | temporary c id => simp [(h.temporary ip c id).2 hb] at hT
  | quarantined c id => simp [(h.quarantined ip c id).2 hb] at hQ
  | bad => simp [(h.bad ip).2 hb] at hreserved
  | released => exact absurd ((h.release ip).2 hb) hR

theorem ne_allocated_update (hc : ∀ ip', b ip' ≠ .allocated c) (ip' : UInt32) :
    Function.update b ip .free ip' ≠ .allocated c := by
  rw [Function.update_apply]
  split
  · exact fun h => by cases h
  · exact hc ip'

theorem offeredTo_update_ne (hc : ∀ ip', (b ip').offeredTo ≠ some c) (ip' : UInt32) :
    (Function.update b ip .free ip').offeredTo ≠ some c := by
  rw [Function.update_apply]
  split
  · exact fun h => by cases h
  · exact hc ip'

theorem takeQuarantined_some (h : Represents p b) (hip : (p.takeQuarantined c).1 = some ip) :
    ∃ id, b ip = .quarantined c id ∧ (p.takeQuarantined c).2 = p.dropQuarantined ip c id := by
  rw [takeQuarantined] at hip ⊢
  cases hRQ : p.reverseQuarantined.lookup c with
  | none => simp [hRQ] at hip
  | some kept =>
    obtain ⟨id, hid⟩ := Binding.keptFor_eq_some.1 ((h.reverseQuarantined kept c).1 hRQ)
    have hQ := (h.quarantined kept c id).2 hid
    simp only [hRQ, hQ, Option.some.injEq] at hip ⊢
    subst hip
    exact ⟨id, hid, rfl⟩

theorem takeQuarantined_none (h : Represents p b) (hnone : (p.takeQuarantined c).1 = none) :
    (p.takeQuarantined c).2 = p := by
  rw [takeQuarantined] at hnone ⊢
  cases hRQ : p.reverseQuarantined.lookup c with
  | none => rfl
  | some kept =>
    obtain ⟨id, hid⟩ := Binding.keptFor_eq_some.1 ((h.reverseQuarantined kept c).1 hRQ)
    have hQ := (h.quarantined kept c id).2 hid
    simp [hRQ, hQ] at hnone

theorem Represents.popRelease {rest : List UInt32} (h : Represents p b) (hR : p.release = ip :: rest) :
    Represents { p with release := rest } (Function.update b ip .free) := by
  have herase : rest = p.release.erase ip := by rw [hR, List.erase_cons_head]
  rw [herase]
  exact h.eraseRelease (.inl ((h.release ip).1 (by rw [hR]; exact List.mem_cons_self)))

theorem Represents.setCurrentAddress (h : Represents p b) (current : UInt32) :
    Represents { p with currentAddress := current } b :=
  ⟨h.allocated, h.reverseAllocated, h.temporary, h.reverseTemporary, h.quarantined,
    h.reverseQuarantined, h.bad, h.release, h.release_nodup, h.timer_temporary, h.timer_quarantined⟩

theorem Represents.allocateIP (h : Represents p b) (hs : p.Sound (.allocateIP c)) :
    ∃ b', Represents (p.allocateIP c).value.2 b' := by
  rw [IPv4Pool.allocateIP, value_lockGuard]
  cases hRA : p.reverseAllocated.lookup c with
  | some ip => exact ⟨b, h⟩
  | none =>
    have hc := h.not_allocated hRA
    have hnone := takeQuarantined_none (c := c) h
    have hsome (ip : UInt32) := @takeQuarantined_some p b ip c h
    have hscan := hs.2 hRA
    obtain ⟨kept, p', htake⟩ : ∃ kept p', p.takeQuarantined c = (kept, p') := ⟨_, _, rfl⟩
    rw [htake] at hnone hsome hscan
    simp only [htake]
    cases kept with
    | some ip =>
      obtain ⟨id, hid, rfl⟩ := hsome ip rfl
      exact ⟨_, (h.dropQuarantined hid).setAllocated (Function.update_self ..) (ne_allocated_update hc)⟩
    | none =>
      obtain rfl : p' = p := hnone rfl
      cases hR : p'.release with
      | cons ip rest =>
        simp only [hR]
        exact ⟨_, (h.popRelease hR).setAllocated (Function.update_self ..) (ne_allocated_update hc)⟩
      | nil =>
        simp only [hR, value_bind]
        cases hip : (p'.scan p'.isReserved (p'.poolSize - 2).toNat 0).value with
        | none => exact ⟨b, h⟩
        | some ip =>
          obtain ⟨i, hi, hstop, rfl⟩ := stopsAt_of_scan hip
          obtain ⟨hT, hQ⟩ := hscan rfl hR i hi hstop
          have hfree := h.free hstop.1.2 hT hQ (by rw [hR]; exact List.not_mem_nil)
          exact ⟨_, (h.setAllocated hfree hc).setCurrentAddress _⟩

theorem Represents.allocateTemporaryIP (h : Represents p b) (hs : p.Sound (.allocateTemporaryIP c)) :
    ∃ b', Represents ((p.allocateTemporaryIP c).value.elim p Prod.snd) b' := by
  obtain ⟨hfresh, hscan⟩ := hs
  rw [IPv4Pool.allocateTemporaryIP, value_lockGuard]
  cases hRT : p.reverseTemporary.lookup c with
  | some ip =>
    obtain ⟨id, hid⟩ := Binding.offeredTo_eq_some.1 ((h.reverseTemporary ip c).1 hRT)
    simp only [(h.temporary ip c id).2 hid]
    exact ⟨_, h.renewTemporary hid hfresh⟩
  | none =>
    have hc := h.not_offered hRT
    have hnone := takeQuarantined_none (c := c) h
    have hsome (ip : UInt32) := @takeQuarantined_some p b ip c h
    have hscan := hscan hRT
    simp only [allocateTemporaryIP.offer]
    obtain ⟨kept, p', htake⟩ : ∃ kept p', p.takeQuarantined c = (kept, p') := ⟨_, _, rfl⟩
    rw [htake] at hnone hsome hscan
    simp only [htake]
    cases kept with
    | some ip =>
      obtain ⟨id, hid, rfl⟩ := hsome ip rfl
      have hdrop := h.dropQuarantined hid
      have hfresh' : (p.dropQuarantined ip c id).timeManager.Fresh := hfresh.cancelTimer id
      exact ⟨_, hdrop.setTemporary (Function.update_self ..) (offeredTo_update_ne hc) hfresh'⟩
    | none =>
      obtain rfl : p' = p := hnone rfl
      cases hR : p'.release with
      | cons ip rest =>
        simp only [hR]
        exact ⟨_, (h.popRelease hR).setTemporary (Function.update_self ..) (offeredTo_update_ne hc) hfresh⟩
      | nil =>
        simp only [hR, value_ite]
        split_ifs with hsize
        · exact ⟨b, h⟩
        · rw [value_bind]
          cases hip : (p'.scan p'.isReservedOrOffered p'.poolSize.toNat 0).value with
          | none => exact ⟨b, h⟩
          | some ip =>
            obtain ⟨i, hi, hstop, rfl⟩ := stopsAt_of_scan hip
            have hQ := hscan rfl hR hsize i hi hstop
            have hfree := hstop.1.2
            rw [value_isReservedOrOffered, Bool.or_eq_false_iff, Option.isSome_eq_false_iff,
              Option.isNone_iff_eq_none] at hfree
            have hfree := h.free hfree.1 hfree.2 hQ (by rw [hR]; exact List.not_mem_nil)
            exact ⟨_, (h.setTemporary hfree hc hfresh).setCurrentAddress _⟩

/-- A request that is granted finds the address free, out of quarantine and of the release list. -/
theorem Represents.book (h : Represents p b) {take : IPv4Pool → UInt32 → ClientID → IPv4Pool}
    (hQ : p.quarantined.lookup ip = none)
    (htake : p.withinRange ip = true → (p.isReservedOrOffered ip).value = false →
      ∀ b', Represents { p with release := p.release.erase ip } b' → b' = Function.update b ip .free →
        ∃ b'', Represents (take { p with release := p.release.erase ip } ip c) b'') :
    ∃ b', Represents (allocateRequested.book ip c take p).value.2 b' := by
  rw [allocateRequested.book]
  split_ifs with hrange
  · exact ⟨b, h⟩
  · rw [value_bind, value_ite]
    split_ifs with hreserved
    · exact ⟨b, h⟩
    · rw [Bool.not_eq_true] at hreserved
      have hparts := hreserved
      rw [value_isReservedOrOffered, Bool.or_eq_false_iff, Option.isSome_eq_false_iff,
        Option.isNone_iff_eq_none] at hparts
      have hR : b ip = .released ∨ b ip = .free := by
        by_cases hR : ip ∈ p.release
        · exact .inl ((h.release ip).1 hR)
        · exact .inr (h.free hparts.1 hparts.2 hQ hR)
      exact htake (by simpa using hrange) hreserved _ (h.eraseRelease hR) rfl

theorem Represents.allocateRequested (h : Represents p b)
    {take : IPv4Pool → UInt32 → ClientID → IPv4Pool}
    (htake : p.Bookable ip c → ∀ p' b', Represents p' b' → b' ip = .free →
      (∀ ip' c', b' ip' = .allocated c' → b ip' = .allocated c') →
      (∀ ip' c', (b' ip').offeredTo = some c' → (b ip').offeredTo = some c') →
      (p.timeManager.Fresh → p'.timeManager.Fresh) → ∃ b'', Represents (take p' ip c) b'') :
    ∃ b', Represents (p.allocateRequested ip c take).value.2 b' := by
  have hfree {b : UInt32 → Binding} (ip' : UInt32) (c' : ClientID) :
      Function.update b ip .free ip' = .allocated c' → b ip' = .allocated c' := by
    rw [Function.update_apply]
    split
    · exact fun h => by cases h
    · exact id
  have hfree' {b : UInt32 → Binding} (ip' : UInt32) (c' : ClientID) :
      (Function.update b ip .free ip').offeredTo = some c' → (b ip').offeredTo = some c' := by
    rw [Function.update_apply]
    split
    · exact fun h => by cases h
    · exact id
  rw [IPv4Pool.allocateRequested, value_lockGuard]
  cases hQ : p.quarantined.lookup ip with
  | none =>
    refine h.book hQ fun hrange hreserved b' h' hb' => ?_
    subst hb'
    exact htake ⟨by simp [hQ], hrange, hreserved⟩ _ _ h' (Function.update_self ..) hfree hfree' id
  | some kept =>
    obtain ⟨client, id⟩ := kept
    simp only [value_ite]
    split_ifs with hclient
    · exact ⟨b, h⟩
    · obtain rfl : client = c := not_not.1 hclient
      have hdrop := h.dropQuarantined ((h.quarantined ip client id).1 hQ)
      refine hdrop.book (by simp [IPv4Pool.dropQuarantined]) fun hrange hreserved b' h' hb' => ?_
      subst hb'
      refine htake ⟨by simp [hQ], hrange, hreserved⟩ _ _ h' (Function.update_self ..) ?_ ?_ ?_
      · exact fun ip' c' hip' => hfree ip' c' (hfree ip' c' hip')
      · exact fun ip' c' hip' => hfree' ip' c' (hfree' ip' c' hip')
      · exact fun hfresh => hfresh.cancelTimer id

theorem Represents.allocateRequestedTemporaryIP (h : Represents p b)
    (hs : p.Sound (.allocateRequestedTemporaryIP ip c)) :
    ∃ b', Represents (p.allocateRequestedTemporaryIP ip c).value.2 b' := by
  obtain ⟨hfresh, hnone⟩ := hs
  refine h.allocateRequested fun hbook p' b' h' hip _ hoffered hfresh' => ?_
  have hc := h.not_offered (hnone hbook)
  exact ⟨_, h'.setTemporary hip (fun ip' hip' => hc ip' (hoffered ip' c hip')) (hfresh' hfresh)⟩

theorem Represents.allocateRequestedIP (h : Represents p b)
    (hs : p.Sound (.allocateRequestedIP ip c)) :
    ∃ b', Represents (p.allocateRequestedIP ip c).value.2 b' := by
  refine h.allocateRequested fun hbook p' b' h' hip hallocated _ _ => ?_
  have hc := h.not_allocated (hs.2 hbook)
  exact ⟨_, h'.setAllocated hip fun ip' hip' => hc ip' (hallocated ip' c hip')⟩

theorem Represents.activateTemporaryIP (h : Represents p b)
    (hs : p.Sound (.activateTemporaryIP ip c)) :
    ∃ b', Represents (p.activateTemporaryIP ip c).value.2 b' := by
  rw [IPv4Pool.activateTemporaryIP, value_lockGuard]
  cases hT : p.temporary.lookup ip with
  | none => exact ⟨b, h⟩
  | some offer =>
    obtain ⟨client, id⟩ := offer
    simp only [value_ite]
    split_ifs with hclient
    · exact ⟨b, h⟩
    · obtain rfl : c = client := not_not.1 hclient
      have hc := h.not_allocated (hs.2 ⟨_, hT, rfl⟩)
      have hdrop := h.dropTemporary ((h.temporary ip c id).1 hT)
      exact ⟨_, hdrop.setAllocated (Function.update_self ..) (ne_allocated_update hc)⟩

theorem Represents.clearTemporaryOffer (h : Represents p b) :
    ∃ b', Represents (p.clearTemporaryOffer ip).value b' := by
  rw [IPv4Pool.clearTemporaryOffer, value_lockGuard]
  cases hT : p.temporary.lookup ip with
  | none => exact ⟨b, h⟩
  | some offer => exact ⟨_, h.dropTemporary ((h.temporary ip offer.1 offer.2).1 hT)⟩

theorem Represents.setExcluded (h : Represents p b) (excluded : Finset UInt32) :
    Represents { p with excluded } b :=
  ⟨h.allocated, h.reverseAllocated, h.temporary, h.reverseTemporary, h.quarantined,
    h.reverseQuarantined, h.bad, h.release, h.release_nodup, h.timer_temporary, h.timer_quarantined⟩

theorem Represents.excludeIP (h : Represents p b) : Represents (p.excludeIP ip).value.2 b := by
  simp only [IPv4Pool.excludeIP, value_lockGuard, value_ite, value_bind]
  split_ifs
  · exact h
  · exact h
  · exact h.setExcluded _

theorem Represents.expireIP (h : Represents p b) (hs : p.Sound (.expireIP ip c)) :
    ∃ b', Represents (p.expireIP ip c).value b' := by
  simp only [IPv4Pool.expireIP, value_lockGuard, value_bind, isAllocated, value_pure]
  cases hA : p.allocated.lookup ip with
  | none => exact ⟨b, h⟩
  | some owner =>
    obtain ⟨rfl, hnone⟩ := hs.2 owner hA
    have hdrop := h.dropAllocated ((h.allocated ip owner).1 hA)
    have hc := h.not_kept hnone
    refine ⟨_, hdrop.setQuarantined (Function.update_self ..) (fun ip' => ?_) hs.1⟩
    rw [Function.update_apply]
    split
    · exact fun h => by cases h
    · exact hc ip'

theorem Represents.releaseIP (h : Represents p b) (hs : p.Sound (.releaseIP ip c)) :
    ∃ b', Represents (p.releaseIP ip c).value b' := by
  simp only [IPv4Pool.releaseIP, value_lockGuard, value_bind, isAllocated, value_pure]
  cases hA : p.allocated.lookup ip with
  | none => exact ⟨b, h⟩
  | some owner =>
    obtain rfl := hs.2 owner hA
    exact ⟨_, h.dropAllocated ((h.allocated ip owner).1 hA)⟩

theorem Represents.setConflicted (h : Represents p b) (hs : p.Sound (.setConflicted ip)) :
    ∃ b', Represents (p.setConflicted ip).value.2 b' := by
  simp only [IPv4Pool.setConflicted, value_lockGuard, value_bind, isAllocated, value_pure]
  cases hA : p.allocated.lookup ip with
  | none => exact ⟨b, h⟩
  | some owner =>
    have hdrop := h.dropAllocated ((h.allocated ip owner).1 hA)
    exact ⟨_, hdrop.setBad (Function.update_self ..) hs.1⟩

/-- What `adjustPool` leaves of a binding. -/
def Binding.adjusted : Binding → Binding
  | .quarantined c id => .quarantined c id
  | _ => .free

theorem Represents.adjustPool {net : Option UInt32} {len : Option UInt8} {gw : Option UInt32}
    (h : Represents p b) (hs : p.Sound (.adjustPool net len gw)) :
    ∃ b', Represents (p.adjustPool net len gw).value b' := by
  unfold IPv4Pool.adjustPool
  dsimp only [value_lockGuard, value_pure]
  split_ifs with hmanager
  · obtain ⟨hA, hT⟩ := hs.2 hmanager
    have hA' (ip : UInt32) (c : ClientID) : b ip ≠ .allocated c := by
      intro hip
      have hmem := AList.lookup_isSome.1 (Option.isSome_of_eq_some ((h.allocated ip c).2 hip))
      rw [AList.mem_keys, hA] at hmem
      cases hmem
    have hT' (ip : UInt32) (c : ClientID) (id : UInt32) : b ip ≠ .temporary c id := by
      intro hip
      have hmem := AList.lookup_isSome.1 (Option.isSome_of_eq_some ((h.temporary ip c id).2 hip))
      rw [AList.mem_keys, hT] at hmem
      cases hmem
    have hadjusted (ip : UInt32) (x : Binding) (hx : x.adjusted = x) (hfree : x ≠ .free) :
        (b ip).adjusted = x ↔ b ip = x := by
      constructor
      · intro hip
        cases hb : b ip <;> rw [hb] at hip <;> first | exact hip | exact absurd hip.symm hfree
      · rintro rfl
        exact hx
    refine ⟨fun ip => (b ip).adjusted, ?_, ?_, ?_, ?_, ?_, ?_, ?_, ?_, List.nodup_nil, ?_, ?_⟩
    · intro ip c
      cases hb : b ip <;> simp [Binding.adjusted]
    · intro ip c
      rw [h.reverseAllocated]
      cases hb : b ip <;> simp [Binding.adjusted]
      exact fun _ => hA' ip _ hb
    · intro ip c id
      cases hb : b ip <;> simp [Binding.adjusted]
    · intro ip c
      rw [h.reverseTemporary]
      cases hb : b ip <;> simp [Binding.adjusted, Binding.offeredTo]
      exact fun _ => hT' ip _ _ hb
    · intro ip c id
      rw [h.quarantined, hadjusted ip _ rfl (by simp)]
    · intro ip c
      rw [h.reverseQuarantined]
      cases hb : b ip <;> simp [Binding.adjusted, Binding.keptFor]
    · intro ip
      cases hb : b ip <;> simp [Binding.adjusted]
    · intro ip
      cases hb : b ip <;> simp [Binding.adjusted]
    · intro id ip c
      rw [h.timer_temporary]
      cases hb : b ip <;> simp [Binding.adjusted]
      exact fun _ _ => hT' ip _ _ hb
    · intro id ip c
      rw [h.timer_quarantined, hadjusted ip _ rfl (by simp)]
  · exact ⟨b, h.allocated, h.reverseAllocated, h.temporary, h.reverseTemporary, h.quarantined,
      h.reverseQuarantined, h.bad, h.release, h.release_nodup, h.timer_temporary, h.timer_quarantined⟩

theorem Represents.dropTimer {callback : Callback} (h : Represents p b)
    (hid : p.timeManager.timers.lookup id = some callback)
    (hT : ∀ ip c, callback ≠ .temporary ip c) (hQ : ∀ ip c, callback ≠ .quarantined ip c) :
    Represents { p with timeManager := p.timeManager.cancelTimer id } b where
  __ := h
  timer_temporary id' ip c := by
    rw [TimeManager.lookup_cancelTimer, ← h.timer_temporary]
    split_ifs with heq
    · subst heq
      rw [hid, Option.some_inj]
      exact iff_of_false (by simp) (hT ip c)
    · rfl
  timer_quarantined id' ip c := by
    rw [TimeManager.lookup_cancelTimer, ← h.timer_quarantined]
    split_ifs with heq
    · subst heq
      rw [hid, Option.some_inj]
      exact iff_of_false (by simp) (hQ ip c)
    · rfl

theorem Represents.dropBad (h : Represents p b) (ip : UInt32) :
    ∃ b', Represents { p with bad := p.bad.erase ip } b' := by
  by_cases hip : b ip = .bad
  · refine ⟨Function.update b ip .free, ?_⟩
    obtain ⟨hA, hRA, hT, hRT, hQ, hRQ, hB, hR, hnd, htT, htQ⟩ := h
    constructor <;> simp only <;>
      grind [lookup_erase_eq, Function.update_apply, Binding.offeredTo, Binding.keptFor]
  · refine ⟨b, { h with bad := fun ip' => ?_ }⟩
    rw [lookup_erase_eq]
    split_ifs with heq
    · subst heq
      simp [hip]
    · exact h.bad ip'

theorem Represents.fireTimer (h : Represents p b) :
    ∃ b', Represents (p.fireTimer id).value b' := by
  rw [IPv4Pool.fireTimer]
  cases hfire : p.timeManager.fire id with
  | none => exact ⟨b, h⟩
  | some fired =>
    obtain ⟨callback, tm⟩ := fired
    obtain ⟨hid, rfl⟩ := TimeManager.fire_eq_some.1 hfire
    cases callback with
    | temporary ip c => exact ⟨_, h.dropTemporary ((h.timer_temporary id ip c).1 hid)⟩
    | quarantined ip c =>
      have hdrop := h.dropQuarantined ((h.timer_quarantined id ip c).1 hid)
      simp only [Callback.run, value_lockGuard, value_bind, value_pure]
      split_ifs
      · exact ⟨_, hdrop⟩
      · exact ⟨_, hdrop.pushRelease (Function.update_self ..)⟩
    | bad ip => exact (h.dropTimer hid (by simp) (by simp)).dropBad ip
    | lease c => exact ⟨b, h.dropTimer hid (by simp) (by simp)⟩

/-! ## Runs -/

/-- A sound step takes a pool that holds bindings to one that does. -/
theorem Represents.step {op : Op} (h : Represents p b) (hs : p.Sound op) :
    ∃ b', Represents (p.step op) b' := by
  cases op with
  | allocateIP c => exact h.allocateIP hs
  | allocateTemporaryIP c => exact h.allocateTemporaryIP hs
  | allocateRequestedTemporaryIP ip c => exact h.allocateRequestedTemporaryIP hs
  | allocateRequestedIP ip c => exact h.allocateRequestedIP hs
  | activateTemporaryIP ip c => exact h.activateTemporaryIP hs
  | clearTemporaryOffer ip => exact h.clearTemporaryOffer
  | excludeIP ip => exact ⟨b, h.excludeIP⟩
  | removeExclusion ip => exact ⟨b, h.setExcluded _⟩
  | expireIP ip c => exact h.expireIP hs
  | releaseIP ip c => exact h.releaseIP hs
  | setConflicted ip => exact h.setConflicted hs
  | adjustPool net len gw => exact h.adjustPool hs
  | setLeaseManager =>
    exact ⟨b, h.allocated, h.reverseAllocated, h.temporary, h.reverseTemporary, h.quarantined,
      h.reverseQuarantined, h.bad, h.release, h.release_nodup, h.timer_temporary, h.timer_quarantined⟩
  | fireTimer id => exact h.fireTimer

/-- The pool as it is constructed; the counter of timer ids is shared with others. -/
def new (nextTimerId : UInt32) : IPv4Pool := { timeManager := { nextTimerId } }

theorem represents_new (nextTimerId : UInt32) : (new nextTimerId).Represents fun _ => .free := by
  constructor <;> simp [new, Binding.offeredTo, Binding.keptFor]

/-- **Exclusivity**: in every run whose steps are sound, every state is exclusive. -/
theorem exclusive_of_sound {nextTimerId : UInt32} {ops : List Op}
    (h : Along Sound step (new nextTimerId) ops) :
    ∀ before, before <+: ops → (runFrom step (new nextTimerId) before).Exclusive := by
  rintro before ⟨after, rfl⟩
  obtain ⟨b, hb⟩ := Along.invariant (I := fun p => ∃ b, Represents p b)
    (fun _ _ ⟨_, hb⟩ hs => hb.step hs) ⟨_, represents_new nextTimerId⟩ (along_append.1 h).1
  exact hb.exclusive

/-! ## A run of one address -/

instance (p : IPv4Pool) (taken : UInt32 → Locked Mutex Bool) (i : ℕ) :
    Decidable (p.StopsAt taken i) :=
  inferInstanceAs (Decidable (_ ∧ _))

instance (p : IPv4Pool) (ip : UInt32) (c : ClientID) : Decidable (p.Bookable ip c) :=
  inferInstanceAs (Decidable (_ ∧ _))

instance (p : IPv4Pool) : DecidablePred p.Sound
  | .allocateIP _ | .allocateTemporaryIP _ | .allocateRequestedTemporaryIP .. |
    .allocateRequestedIP .. | .activateTemporaryIP .. | .expireIP .. | .releaseIP .. |
    .adjustPool .. => inferInstanceAs (Decidable (_ ∧ _))
  | .clearTemporaryOffer _ | .excludeIP _ | .removeExclusion _ | .setConflicted _ |
    .setLeaseManager | .fireTimer _ => inferInstanceAs (Decidable (_ ∧ True))

/-- The pool 10.0.0.0/30 with 10.0.0.1 as its gateway has one address to give. -/
def oneAddress : List Op :=
  [.setLeaseManager, .adjustPool (some 0x0A000000) (some 30) (some 0x0A000001)]

/-- The offer of that address is taken up, expires and runs out. -/
theorem exclusive_oneAddress :
    (runFrom step (new 1) (oneAddress ++ [.allocateTemporaryIP [1],
      .activateTemporaryIP 0x0A000002 [1], .expireIP 0x0A000002 [1], .fireTimer 2,
      .allocateTemporaryIP [2]])).Exclusive :=
  exclusive_of_sound (by decide) _ List.prefix_rfl

/-- The address is on offer to one client and allocated to another. -/
theorem not_exclusive_allocateIP :
    ¬ (runFrom step (new 1) (oneAddress ++ [.allocateTemporaryIP [1], .allocateIP [2]])).Exclusive := by
  intro h
  have hallocated : (runFrom step (new 1) (oneAddress ++ [.allocateTemporaryIP [1], .allocateIP [2]])).At
      .allocated 0x0A000002 := ⟨[2], by decide⟩
  have htemporary : (runFrom step (new 1) (oneAddress ++ [.allocateTemporaryIP [1], .allocateIP [2]])).At
      .temporary 0x0A000002 := ⟨[1], 1, by decide⟩
  exact absurd (h.one_place _ _ _ hallocated htemporary) (by decide)

end IPv4Pool

end VirtualRouter.Dhcp
