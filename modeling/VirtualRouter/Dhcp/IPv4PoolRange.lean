/-
  Which addresses the DHCPv4 pool gives out.

  A scan looks only at addresses of its range, and at all of them if its offsets do
  not wrap; the addresses that are handed out without a scan (to a client that has
  one, from a quarantine, from the release list) were in range when they came there,
  and are not looked at again.  A request tests everything but the gateway, and
  pools of one or two addresses break the arithmetic of the scan.

  * `Admissible`: strictly inside the network, and not the gateway, excluded or
    conflicted;
  * `HandsOut`: what the pool has out, or holds to give out, satisfies a predicate;
  * `Lawful`: what an allocation owes, `ExactScan`: its arithmetic without a wrap;
  * `Meets`: the steps that keep the addresses admissible, and the scans that cover
    the range;
  * `lawful_along`: along such steps every allocation is lawful.
-/
import VirtualRouter.Dhcp.IPv4PoolExclusive

namespace VirtualRouter.Dhcp

open NestedMap Locked Run
open VirtualRouter.Core

namespace IPv4Pool

/-! ## What is given out -/

/-- Strictly between the network address and the broadcast address. -/
def InNetwork (p : IPv4Pool) (ip : UInt32) : Prop :=
  p.baseAddress.toNat < ip.toNat ∧ ip.toNat + 1 < p.baseAddress.toNat + p.poolSize.toNat

/-- An address that may be given out. -/
structure Admissible (p : IPv4Pool) (ip : UInt32) : Prop where
  inNetwork : p.InNetwork ip
  gateway : ip ≠ p.gateway
  excluded : ip ∉ p.excluded
  conflicted : (p.bad.lookup ip).isSome = false

/-- The answer `r` of an allocation: an admissible address, or 0 if all of them are taken. -/
structure Answers (p : IPv4Pool) (taken : UInt32 → Bool) (r : UInt32) : Prop where
  admissible : r ≠ 0 → p.Admissible r
  complete : r = 0 → ∀ ip, p.Admissible ip → taken ip = true

/-- What the allocations owe; `allocateTemporaryIP` does not divide by zero. -/
def Lawful (p : IPv4Pool) : Op → Prop
  | .allocateIP c => p.Answers (fun ip => (p.allocated.lookup ip).isSome) (p.allocateIP c).value.1
  | .allocateTemporaryIP c => ∃ r, (p.allocateTemporaryIP c).value = some r ∧
      p.Answers (fun ip => (p.allocated.lookup ip).isSome || (p.temporary.lookup ip).isSome) r.1
  | .allocateRequestedTemporaryIP ip c =>
    (p.allocateRequestedTemporaryIP ip c).value.1 = true → p.Admissible ip
  | .allocateRequestedIP ip c => (p.allocateRequestedIP ip c).value.1 = true → p.Admissible ip
  | _ => True

/-! ## Scans -/

/-- `allocateIP` comes to its scan. -/
def Scans (p : IPv4Pool) (c : ClientID) : Prop :=
  p.reverseAllocated.lookup c = none ∧ (p.takeQuarantined c).1 = none ∧ p.release = []

/-- `allocateTemporaryIP` comes to its scan. -/
def ScansTemporary (p : IPv4Pool) (c : ClientID) : Prop :=
  (∀ ip, p.reverseTemporary.lookup c = some ip → p.temporary.lookup ip = none) ∧
    (p.takeQuarantined c).1 = none ∧ p.release = []

def cursorOffset (p : IPv4Pool) : UInt32 := p.currentAddress - p.baseAddress - 1

/-- The pool has its two outer addresses and lies below the end of the address space, and the
    offsets of a scan of `rounds` addresses do not come over it. -/
structure CanScan (p : IPv4Pool) (rounds : ℕ) : Prop where
  two_le : 2 ≤ p.poolSize.toNat
  fits : p.baseAddress.toNat + p.poolSize.toNat ≤ 2 ^ 32
  cursor : p.cursorOffset.toNat + rounds ≤ 2 ^ 32

structure ExactScan (p : IPv4Pool) (rounds : ℕ) : Prop where
  size : 2 ≤ p.poolSize.toNat
  cursor : p.baseAddress.toNat + 1 ≤ p.currentAddress.toNat
  offset : ∀ i < rounds, p.currentAddress.toNat - p.baseAddress.toNat - 1 + i < 2 ^ 32
  address : ∀ i < rounds, p.baseAddress.toNat + 1 +
    (p.currentAddress.toNat - p.baseAddress.toNat - 1 + i) % (p.poolSize.toNat - 2) < 2 ^ 32

def NoWrap (p : IPv4Pool) : Op → Prop
  | .allocateIP c => p.Scans c → p.ExactScan (p.poolSize - 2).toNat
  | .allocateTemporaryIP c => p.ScansTemporary c → p.ExactScan p.poolSize.toNat
  | _ => True

section scan
variable {p : IPv4Pool} {ip : UInt32} {rounds : ℕ} {taken : UInt32 → Locked Mutex Bool}

theorem scan_eq_none {i : UInt32} (h : (p.scan taken rounds i).value = none) :
    ∀ j < rounds, p.scanAddress (i + .ofNat j) = p.gateway ∨
      (taken (p.scanAddress (i + .ofNat j))).value = true := by
  induction rounds generalizing i with
  | zero => simp
  | succ rounds ih =>
    have hzero : i + UInt32.ofNat 0 = i := UInt32.add_zero i
    have hsucc (k : ℕ) : i + UInt32.ofNat (k + 1) = i + 1 + UInt32.ofNat k := by
      rw [UInt32.ofNat_add, UInt32.add_comm (UInt32.ofNat k), UInt32.add_assoc]
      rfl
    have hpassed (hskip : p.scanAddress i = p.gateway ∨ (taken (p.scanAddress i)).value = true)
        (hrest : (p.scan taken rounds (i + 1)).value = none) :
        ∀ j < rounds + 1, p.scanAddress (i + .ofNat j) = p.gateway ∨
          (taken (p.scanAddress (i + .ofNat j))).value = true := by
      intro j hj
      cases j with
      | zero => rwa [hzero]
      | succ j =>
        rw [hsucc]
        exact ih hrest j (by omega)
    rw [scan] at h
    split_ifs at h with hgw
    · exact hpassed (.inl hgw) h
    · rw [value_bind] at h
      cases htaken : (taken (p.scanAddress i)).value with
      | true => exact hpassed (.inr htaken) (by simpa [htaken] using h)
      | false => simp [htaken] at h

theorem size_sub_two (h : p.CanScan rounds) : (p.poolSize - 2).toNat = p.poolSize.toNat - 2 := by
  have hle : (2 : UInt32) ≤ p.poolSize := UInt32.le_iff_toNat_le.mpr h.two_le
  rw [UInt32.toNat_sub_of_le _ _ hle]
  rfl

theorem scanAddress_toNat (h : p.CanScan rounds) (hsize : 2 < p.poolSize.toNat) (i : UInt32) :
    (p.scanAddress i).toNat =
      p.baseAddress.toNat + 1 + (p.cursorOffset + i).toNat % (p.poolSize.toNat - 2) := by
  have hmod := Nat.mod_lt (p.cursorOffset + i).toNat (show p.poolSize.toNat - 2 > 0 by omega)
  have hfits := h.fits
  have hone : (1 : UInt32).toNat = 1 := rfl
  rw [scanAddress, UInt32.toNat_add, UInt32.toNat_add, UInt32.toNat_mod, size_sub_two h, hone,
    ← cursorOffset]
  omega

theorem inNetwork_scanAddress (h : p.CanScan rounds) (hsize : 2 < p.poolSize.toNat) (i : UInt32) :
    p.InNetwork (p.scanAddress i) := by
  have hmod := Nat.mod_lt (p.cursorOffset + i).toNat (show p.poolSize.toNat - 2 > 0 by omega)
  rw [InNetwork, scanAddress_toNat h hsize]
  omega

theorem mod_covers {n t : ℕ} (start : ℕ) (ht : t < n) : ∃ i < n, (start + i) % n = t := by
  have hn : 0 < n := by omega
  have hstart := Nat.mod_lt start hn
  refine ⟨(t + n - start % n) % n, Nat.mod_lt _ hn, ?_⟩
  rw [Nat.add_mod, Nat.mod_mod, ← Nat.add_mod_mod, Nat.mod_mod, Nat.add_mod_mod,
    show start % n + (t + n - start % n) = t + n by omega, Nat.add_mod_right, Nat.mod_eq_of_lt ht]

theorem scan_covers (h : p.CanScan rounds) (hrounds : p.poolSize.toNat - 2 ≤ rounds)
    (hip : p.InNetwork ip) : ∃ i < rounds, p.scanAddress (.ofNat i) = ip := by
  obtain ⟨hlow, hhigh⟩ := hip
  have hsize : 2 < p.poolSize.toNat := by omega
  obtain ⟨i, hi, hmod⟩ := mod_covers p.cursorOffset.toNat
    (show ip.toNat - p.baseAddress.toNat - 1 < p.poolSize.toNat - 2 by omega)
  have hcursor := h.cursor
  have hsum : (p.cursorOffset + UInt32.ofNat i).toNat = p.cursorOffset.toNat + i := by
    rw [UInt32.toNat_add, UInt32.toNat_ofNat']
    omega
  refine ⟨i, by omega, UInt32.toNat_inj.mp ?_⟩
  rw [scanAddress_toNat h hsize, hsum, hmod]
  omega

theorem CanScan.exact (h : p.CanScan rounds) (hcursor : p.baseAddress < p.currentAddress)
    (hrounds : p.poolSize = 2 → rounds = 0) : p.ExactScan rounds := by
  have hlt := UInt32.lt_iff_toNat_lt.mp hcursor
  have hone : (1 : UInt32).toNat = 1 := rfl
  have hle : p.baseAddress ≤ p.currentAddress := UInt32.le_of_lt hcursor
  have hsub := UInt32.toNat_sub_of_le _ _ hle
  have hle' : (1 : UInt32) ≤ p.currentAddress - p.baseAddress := by
    rw [UInt32.le_iff_toNat_le, hsub, hone]
    omega
  have hoffset : p.cursorOffset.toNat = p.currentAddress.toNat - p.baseAddress.toNat - 1 := by
    rw [cursorOffset, UInt32.toNat_sub_of_le _ _ hle', hsub, hone]
  have hfits := h.fits
  have hend := h.cursor
  refine ⟨h.two_le, by omega, fun i hi => by omega, fun i hi => ?_⟩
  have hsize : p.poolSize.toNat ≠ 2 := by
    intro heq
    have hzero := hrounds (UInt32.toNat_inj.mp heq)
    omega
  have htwo := h.two_le
  have hmod := Nat.mod_lt (p.currentAddress.toNat - p.baseAddress.toNat - 1 + i)
    (show p.poolSize.toNat - 2 > 0 by omega)
  omega

end scan

/-! ## What is out -/

/-- Every address that a client has or is offered, that is in quarantine, that waits on the release
    list or that a timer will put there satisfies `A`. -/
structure HandsOut (p : IPv4Pool) (A : UInt32 → Prop) : Prop where
  allocated : ∀ ip c, p.allocated.lookup ip = some c → A ip
  reverseAllocated : ∀ ip c, p.reverseAllocated.lookup c = some ip → A ip
  temporary : ∀ ip offer, p.temporary.lookup ip = some offer → A ip
  quarantined : ∀ ip kept, p.quarantined.lookup ip = some kept → A ip
  release : ∀ ip ∈ p.release, A ip
  timers : ∀ id ip c, p.timeManager.timers.lookup id = some (.quarantined ip c) → A ip

variable {p : IPv4Pool} {A B : UInt32 → Prop} {ip id : UInt32} {c client : ClientID}

theorem HandsOut.mono (h : p.HandsOut A) (hAB : ∀ ip, A ip → B ip) : p.HandsOut B :=
  ⟨fun ip c hc => hAB ip (h.allocated ip c hc), fun ip c hc => hAB ip (h.reverseAllocated ip c hc),
    fun ip o ho => hAB ip (h.temporary ip o ho), fun ip o ho => hAB ip (h.quarantined ip o ho),
    fun ip hip => hAB ip (h.release ip hip), fun id ip c hc => hAB ip (h.timers id ip c hc)⟩

theorem HandsOut.and (hA : p.HandsOut A) (hB : p.HandsOut B) : p.HandsOut fun ip => A ip ∧ B ip :=
  ⟨fun ip c hc => ⟨hA.allocated ip c hc, hB.allocated ip c hc⟩,
    fun ip c hc => ⟨hA.reverseAllocated ip c hc, hB.reverseAllocated ip c hc⟩,
    fun ip o ho => ⟨hA.temporary ip o ho, hB.temporary ip o ho⟩,
    fun ip o ho => ⟨hA.quarantined ip o ho, hB.quarantined ip o ho⟩,
    fun ip hip => ⟨hA.release ip hip, hB.release ip hip⟩,
    fun id ip c hc => ⟨hA.timers id ip c hc, hB.timers id ip c hc⟩⟩

section edits

attribute [local grind =] lookup_insert_eq lookup_erase_eq TimeManager.lookup_addTimer
  TimeManager.lookup_cancelTimer

theorem HandsOut.setAllocated (h : p.HandsOut A) (hip : A ip) : (p.setAllocated ip c).HandsOut A := by
  obtain ⟨hA, hRA, hT, hQ, hR, htQ⟩ := h
  constructor <;> simp only [IPv4Pool.setAllocated] <;> grind

theorem HandsOut.setTemporary (h : p.HandsOut A) (hip : A ip) : (p.setTemporary ip c).HandsOut A := by
  obtain ⟨hA, hRA, hT, hQ, hR, htQ⟩ := h
  constructor <;> simp only [IPv4Pool.setTemporary] <;> grind

theorem HandsOut.dropQuarantined (h : p.HandsOut A) : (p.dropQuarantined ip c id).HandsOut A := by
  obtain ⟨hA, hRA, hT, hQ, hR, htQ⟩ := h
  constructor <;> simp only [IPv4Pool.dropQuarantined] <;> grind

theorem HandsOut.renewTemporary (h : p.HandsOut A) (hip : A ip) : HandsOut { p with
      temporary := p.temporary.insert ip (client, p.timeManager.nextTimerId)
      timeManager := ((p.timeManager.cancelTimer id).addTimer (.temporary ip c)).2 } A := by
  obtain ⟨hA, hRA, hT, hQ, hR, htQ⟩ := h
  constructor <;> simp only <;> grind

theorem HandsOut.dropTemporary (h : p.HandsOut A) : HandsOut { p with
      timeManager := p.timeManager.cancelTimer id
      temporary := p.temporary.erase ip
      reverseTemporary := p.reverseTemporary.erase c } A := by
  obtain ⟨hA, hRA, hT, hQ, hR, htQ⟩ := h
  constructor <;> simp only <;> grind

theorem HandsOut.endQuarantine (h : p.HandsOut A) : HandsOut { p with
      timeManager := p.timeManager.cancelTimer id
      quarantined := p.quarantined.erase ip
      reverseQuarantined := p.reverseQuarantined.erase c } A := by
  obtain ⟨hA, hRA, hT, hQ, hR, htQ⟩ := h
  constructor <;> simp only <;> grind

theorem HandsOut.dropAllocated (h : p.HandsOut A) : HandsOut { p with
      allocated := p.allocated.erase ip
      reverseAllocated := p.reverseAllocated.erase c } A := by
  obtain ⟨hA, hRA, hT, hQ, hR, htQ⟩ := h
  constructor <;> simp only <;> grind

theorem HandsOut.setQuarantined (h : p.HandsOut A) (hip : A ip) : HandsOut { p with
      quarantined := p.quarantined.insert ip (c, p.timeManager.nextTimerId)
      reverseQuarantined := p.reverseQuarantined.insert c ip
      timeManager := (p.timeManager.addTimer (.quarantined ip c)).2 } A := by
  obtain ⟨hA, hRA, hT, hQ, hR, htQ⟩ := h
  constructor <;> simp only <;> grind

theorem HandsOut.setBad (h : p.HandsOut A) (bad : Map UInt32 UInt32) : HandsOut { p with
      bad
      timeManager := (p.timeManager.addTimer (.bad ip)).2 } A := by
  obtain ⟨hA, hRA, hT, hQ, hR, htQ⟩ := h
  constructor <;> simp only <;> grind

theorem HandsOut.setRelease (h : p.HandsOut A) {release : List UInt32}
    (hrelease : ∀ ip ∈ release, A ip) : HandsOut { p with release } A :=
  { h with release := hrelease }

theorem HandsOut.cancelTimer (h : p.HandsOut A) :
    HandsOut { p with timeManager := p.timeManager.cancelTimer id } A := by
  obtain ⟨hA, hRA, hT, hQ, hR, htQ⟩ := h
  constructor <;> simp only <;> grind

end edits

/-- The range, the gateway and what is barred are the same. -/
structure SameConfig (p q : IPv4Pool) : Prop where
  baseAddress : q.baseAddress = p.baseAddress
  poolSize : q.poolSize = p.poolSize
  lastAddress : q.lastAddress = p.lastAddress
  gateway : q.gateway = p.gateway
  excluded : q.excluded = p.excluded
  bad : q.bad = p.bad

/-- Two pools that differ in nothing that an allocation tests or gives out. -/
structure Like (p q : IPv4Pool) : Prop where
  config : p.SameConfig q
  cursor : q.currentAddress = p.currentAddress
  allocated : q.allocated = p.allocated
  temporary : q.temporary = p.temporary
  release : q.release = p.release
  keeps : ∀ A, p.HandsOut A → q.HandsOut A

variable {q : IPv4Pool}

theorem SameConfig.refl (p : IPv4Pool) : p.SameConfig p := ⟨rfl, rfl, rfl, rfl, rfl, rfl⟩

theorem SameConfig.trans {r : IPv4Pool} (h : p.SameConfig q) (h' : q.SameConfig r) : p.SameConfig r :=
  ⟨h'.1.trans h.1, h'.2.trans h.2, h'.3.trans h.3, h'.4.trans h.4, h'.5.trans h.5, h'.6.trans h.6⟩

theorem SameConfig.admissible (h : p.SameConfig q) : q.Admissible ip ↔ p.Admissible ip := by
  constructor
  · rintro ⟨hin, h₂, h₃, h₄⟩
    rw [InNetwork, h.baseAddress, h.poolSize] at hin
    exact ⟨hin, h.gateway ▸ h₂, h.excluded ▸ h₃, h.bad ▸ h₄⟩
  · rintro ⟨hin, h₂, h₃, h₄⟩
    rw [InNetwork, ← h.baseAddress, ← h.poolSize] at hin
    exact ⟨hin, h.gateway ▸ h₂, h.excluded ▸ h₃, h.bad ▸ h₄⟩

theorem Like.trans {r : IPv4Pool} (h : p.Like q) (h' : q.Like r) : p.Like r :=
  ⟨h.1.trans h'.1, h'.2.trans h.2, h'.3.trans h.3, h'.4.trans h.4, h'.5.trans h.5,
    fun A hA => h'.keeps A (h.keeps A hA)⟩

theorem Like.canScan {rounds : ℕ} (h : p.Like q) (hcan : p.CanScan rounds) : q.CanScan rounds := by
  obtain ⟨h₁, h₂, h₃⟩ := hcan
  rw [cursorOffset, ← h.config.baseAddress, ← h.cursor] at h₃
  rw [← h.config.poolSize] at h₁
  rw [← h.config.baseAddress, ← h.config.poolSize] at h₂
  exact ⟨h₁, h₂, h₃⟩

theorem like_refl (p : IPv4Pool) : p.Like p := ⟨.refl p, rfl, rfl, rfl, rfl, fun _ h => h⟩

theorem like_reverseQuarantined (p : IPv4Pool) (reverseQuarantined : Map ClientID UInt32) :
    p.Like { p with reverseQuarantined } :=
  ⟨⟨rfl, rfl, rfl, rfl, rfl, rfl⟩, rfl, rfl, rfl, rfl, fun _ h => { h with }⟩

theorem like_reverseTemporary (p : IPv4Pool) (reverseTemporary : Map ClientID UInt32) :
    p.Like { p with reverseTemporary } :=
  ⟨⟨rfl, rfl, rfl, rfl, rfl, rfl⟩, rfl, rfl, rfl, rfl, fun _ h => { h with }⟩

theorem like_dropQuarantined (p : IPv4Pool) (ip : UInt32) (c : ClientID) (id : UInt32) :
    p.Like (p.dropQuarantined ip c id) :=
  ⟨⟨rfl, rfl, rfl, rfl, rfl, rfl⟩, rfl, rfl, rfl, rfl, fun _ h => h.dropQuarantined⟩

/-- What `adjustPool` leaves of the range. -/
structure Configured (p : IPv4Pool) : Prop where
  size : 0 < p.poolSize.toNat
  last : p.lastAddress = p.baseAddress + p.poolSize - 1

/-- All that is out is admissible. -/
structure InRange (p : IPv4Pool) : Prop where
  configured : p.Configured
  keeps : p.HandsOut p.Admissible

theorem InRange.of_same (h : p.InRange) (hsame : p.SameConfig q) (hkeep : q.HandsOut p.Admissible) :
    q.InRange where
  configured := by
    refine ⟨hsame.poolSize ▸ h.configured.size, ?_⟩
    rw [hsame.lastAddress, hsame.baseAddress, hsame.poolSize, h.configured.last]
  keeps := hkeep.mono fun _ => hsame.admissible.mpr

/-! ## Allocations -/

theorem Admissible.of_not_reserved (hip : p.InNetwork ip) (hgw : ip ≠ p.gateway)
    (hreserved : (p.isReserved ip).value = false) : p.Admissible ip := by
  rw [value_isReserved] at hreserved
  simp only [Bool.or_eq_false_iff, decide_eq_false_iff_not] at hreserved
  exact ⟨hip, hgw, hreserved.2.1, hreserved.2.2⟩

theorem Admissible.isReserved (h : p.Admissible ip) :
    (p.isReserved ip).value = (p.allocated.lookup ip).isSome := by
  rw [value_isReserved, h.conflicted, decide_eq_false h.excluded]
  simp

theorem Admissible.ne_zero (h : p.Admissible ip) : ip ≠ 0 := by
  rintro rfl
  exact Nat.not_lt_zero _ h.inNetwork.1

theorem Admissible.answers {taken : UInt32 → Bool} (h : p.Admissible ip) : p.Answers taken ip :=
  ⟨fun _ => h, fun hzero => absurd hzero h.ne_zero⟩

section
variable {rounds : ℕ} {taken : UInt32 → Locked Mutex Bool}

theorem scan_admissible (h : p.CanScan rounds) (hsize : 0 < rounds → 2 < p.poolSize.toNat)
    (htaken : ∀ ip, (taken ip).value = false → (p.isReserved ip).value = false)
    (hip : (p.scan taken rounds 0).value = some ip) : p.Admissible ip := by
  obtain ⟨i, hi, rfl, hgw, hfree, -⟩ := scan_eq_some hip
  exact .of_not_reserved (inNetwork_scanAddress h (hsize (by omega)) _) hgw (htaken _ hfree)

theorem scan_complete (h : p.CanScan rounds) (hrounds : p.poolSize.toNat - 2 ≤ rounds)
    (hnone : (p.scan taken rounds 0).value = none) (hip : p.Admissible ip) :
    (taken ip).value = true := by
  obtain ⟨i, hi, rfl⟩ := scan_covers h hrounds hip.inNetwork
  have htested := scan_eq_none hnone i hi
  rw [UInt32.zero_add] at htested
  exact htested.resolve_left hip.gateway

end

theorem allocateIP_lawful (h : p.InRange) (hscan : p.Scans c → p.CanScan (p.poolSize - 2).toNat) :
    (p.allocateIP c).value.2.InRange ∧ p.Lawful (.allocateIP c) := by
  rw [Lawful, allocateIP, value_lockGuard]
  cases hRA : p.reverseAllocated.lookup c with
  | some ip => exact ⟨h, (h.keeps.reverseAllocated ip c hRA).answers⟩
  | none =>
    obtain ⟨ip, kept, hQ, htake⟩ | ⟨q, reverseQuarantined, htake, hq⟩ := p.takeQuarantined_cases c
    · have hip := h.keeps.quarantined ip kept hQ
      simp only [htake]
      refine ⟨h.of_same ⟨rfl, rfl, rfl, rfl, rfl, rfl⟩ ?_, hip.answers⟩
      exact h.keeps.dropQuarantined.setAllocated hip
    · have hlike : p.Like q := hq ▸ p.like_reverseQuarantined reverseQuarantined
      have hkeep := hlike.keeps _ h.keeps
      simp only [htake]
      cases hR : q.release with
      | cons ip rest =>
        have hmem : ∀ x ∈ ip :: rest, p.Admissible x := hR ▸ hkeep.release
        have hrest := hkeep.setRelease fun x hx => hmem x (List.mem_cons_of_mem ip hx)
        have hip := hmem ip List.mem_cons_self
        exact ⟨h.of_same { hlike.config with } (hrest.setAllocated hip), hip.answers⟩
      | nil =>
        have hcan := hlike.canScan (hscan ⟨hRA, by rw [htake], hlike.release ▸ hR⟩)
        rw [← hlike.config.poolSize] at hcan
        have hsize := size_sub_two hcan
        simp only [value_bind]
        cases hip : (q.scan q.isReserved (q.poolSize - 2).toNat 0).value with
        | some ip =>
          have hip := hlike.config.admissible.mp (scan_admissible hcan (by omega) (fun _ h => h) hip)
          have hset := hkeep.setAllocated (c := c) hip
          exact ⟨h.of_same { hlike.config with } { hset with }, hip.answers⟩
        | none =>
          refine ⟨h.of_same hlike.config hkeep, fun hne => absurd rfl hne, fun _ x hx => ?_⟩
          have hx' := hlike.config.admissible.mpr hx
          rw [← hlike.allocated, ← hx'.isReserved]
          exact scan_complete hcan (by omega) hip hx'

theorem offer_lawful (hq : p.Like q) (h : p.InRange)
    (hscan : (q.takeQuarantined c).1 = none → q.release = [] →
      p.poolSize ≠ 2 ∧ p.CanScan p.poolSize.toNat) :
    ∃ r, (allocateTemporaryIP.offer c q).value = some r ∧ r.2.InRange ∧
      p.Answers (fun ip => (p.allocated.lookup ip).isSome || (p.temporary.lookup ip).isSome) r.1 := by
  rw [allocateTemporaryIP.offer]
  obtain ⟨ip, kept, hQ, htake⟩ | ⟨q', reverseQuarantined, htake, hq'⟩ := q.takeQuarantined_cases c
  · have hkeep := hq.keeps _ h.keeps
    have hip := hkeep.quarantined ip kept hQ
    simp only [htake]
    refine ⟨_, rfl, h.of_same { hq.config with } ?_, hip.answers⟩
    exact hkeep.dropQuarantined.setTemporary hip
  · have hlike : q.Like q' := hq' ▸ q.like_reverseQuarantined reverseQuarantined
    have hlike' := hq.trans hlike
    have hkeep := hlike'.keeps _ h.keeps
    simp only [htake]
    cases hR : q'.release with
    | cons ip rest =>
      have hmem : ∀ x ∈ ip :: rest, p.Admissible x := hR ▸ hkeep.release
      have hrest := hkeep.setRelease fun x hx => hmem x (List.mem_cons_of_mem ip hx)
      have hip := hmem ip List.mem_cons_self
      exact ⟨_, rfl, h.of_same { hlike'.config with } (hrest.setTemporary hip), hip.answers⟩
    | nil =>
      obtain ⟨hsize, hcan⟩ := hscan (by rw [htake]) (hlike.release ▸ hR)
      have hcan := hlike'.canScan hcan
      rw [← hlike'.config.poolSize] at hcan hsize
      have htwo : q'.poolSize.toNat ≠ 2 := fun heq => hsize (UInt32.toNat_inj.mp heq)
      have hmin := hcan.two_le
      rw [if_neg hsize]
      simp only [value_bind]
      cases hip : (q'.scan q'.isReservedOrOffered q'.poolSize.toNat 0).value with
      | some ip =>
        have htaken (x : UInt32) (hx : (q'.isReservedOrOffered x).value = false) :
            (q'.isReserved x).value = false := by
          rw [value_isReservedOrOffered, Bool.or_eq_false_iff] at hx
          exact hx.1
        have hip := hlike'.config.admissible.mp (scan_admissible hcan (by omega) htaken hip)
        have hset := hkeep.setTemporary (c := c) hip
        exact ⟨_, rfl, h.of_same { hlike'.config with } { hset with }, hip.answers⟩
      | none =>
        refine ⟨_, rfl, h.of_same hlike'.config hkeep, fun hne => absurd rfl hne, fun _ x hx => ?_⟩
        have hx' := hlike'.config.admissible.mpr hx
        rw [← hlike'.allocated, ← hlike'.temporary, ← hx'.isReserved, ← value_isReservedOrOffered]
        exact scan_complete hcan (by omega) hip hx'

theorem allocateTemporaryIP_lawful (h : p.InRange)
    (hscan : p.ScansTemporary c → p.poolSize ≠ 2 ∧ p.CanScan p.poolSize.toNat) :
    ((p.allocateTemporaryIP c).value.elim p Prod.snd).InRange ∧
      p.Lawful (.allocateTemporaryIP c) := by
  rw [Lawful, allocateTemporaryIP, value_lockGuard]
  cases hRT : p.reverseTemporary.lookup c with
  | none =>
    obtain ⟨r, hr, hrange, hanswers⟩ := offer_lawful p.like_refl h fun hnone hR =>
      hscan ⟨by simp [hRT], hnone, hR⟩
    simp only [hr]
    exact ⟨hrange, r, rfl, hanswers⟩
  | some ip =>
    cases hT : p.temporary.lookup ip with
    | some offered =>
      have hip := h.keeps.temporary ip offered hT
      simp only [hT]
      refine ⟨h.of_same ⟨rfl, rfl, rfl, rfl, rfl, rfl⟩ ?_, _, rfl, hip.answers⟩
      exact h.keeps.renewTemporary hip
    | none =>
      simp only [hT]
      have htake : ({ p with reverseTemporary := p.reverseTemporary.erase c }.takeQuarantined c).1 =
          (p.takeQuarantined c).1 := by
        rw [takeQuarantined, takeQuarantined]
        cases p.reverseQuarantined.lookup c with
        | none => rfl
        | some x => cases hQ : p.quarantined.lookup x <;> simp only [hQ]
      obtain ⟨r, hr, hrange, hanswers⟩ := offer_lawful (p.like_reverseTemporary _) h fun hnone hR =>
        hscan ⟨by simp [hRT, hT], htake ▸ hnone, hR⟩
      simp only [hr]
      exact ⟨hrange, r, rfl, hanswers⟩

/-! ## Requests -/

theorem inNetwork_of_withinRange (h : p.Configured) (hip : p.withinRange ip = true) :
    p.InNetwork ip := by
  have hone : (1 : UInt32).toNat = 1 := rfl
  have hbase := p.baseAddress.toNat_lt
  have hsize := p.poolSize.toNat_lt
  have hpos := h.size
  simp only [withinRange, h.last, Bool.and_eq_true, decide_eq_true_eq, GT.gt, UInt32.lt_iff_toNat_lt,
    UInt32.toNat_sub, UInt32.toNat_add, hone] at hip
  rw [InNetwork]
  omega

/-- `take` books an address for the client and leaves the configuration. -/
structure Books (take : IPv4Pool → UInt32 → ClientID → IPv4Pool) : Prop where
  config : ∀ (q : IPv4Pool) ip c, q.SameConfig (take q ip c)
  keeps : ∀ A (q : IPv4Pool) ip c, q.HandsOut A → A ip → (take q ip c).HandsOut A

theorem books_setAllocated : Books setAllocated where
  config _ _ _ := ⟨rfl, rfl, rfl, rfl, rfl, rfl⟩
  keeps _ _ _ _ := HandsOut.setAllocated

theorem books_setTemporary : Books setTemporary where
  config _ _ _ := ⟨rfl, rfl, rfl, rfl, rfl, rfl⟩
  keeps _ _ _ _ := HandsOut.setTemporary

section
variable {take : IPv4Pool → UInt32 → ClientID → IPv4Pool}

theorem book_lawful (htake : Books take) (hq : p.Like q) (h : p.InRange) (hgw : ip ≠ p.gateway) :
    (allocateRequested.book ip c take q).value.2.InRange ∧
      ((allocateRequested.book ip c take q).value.1 = true → p.Admissible ip) := by
  have hkeep := hq.keeps _ h.keeps
  have hrange' := h.of_same hq.config hkeep
  rw [allocateRequested.book]
  split_ifs with hrange
  · exact ⟨hrange', fun h => absurd h (by simp)⟩
  · rw [value_bind, value_ite]
    split_ifs with hreserved
    · exact ⟨hrange', fun h => absurd h (by simp)⟩
    · rw [value_isReservedOrOffered, Bool.or_eq_true, not_or, Bool.not_eq_true] at hreserved
      have hin := inNetwork_of_withinRange hrange'.configured (by simpa using hrange)
      have hgw' : ip ≠ q.gateway := hq.config.gateway ▸ hgw
      have hip := hq.config.admissible.mp (.of_not_reserved hin hgw' hreserved.1)
      have herase := hkeep.setRelease fun x hx =>
        hkeep.release x (List.mem_of_mem_erase (a := x) (b := ip) hx)
      have hsame : p.SameConfig { q with release := q.release.erase ip } := { hq.config with }
      exact ⟨h.of_same (hsame.trans (htake.config ..)) (htake.keeps _ _ _ _ herase hip), fun _ => hip⟩

theorem allocateRequested_lawful (htake : Books take) (h : p.InRange) (hgw : ip ≠ p.gateway) :
    (p.allocateRequested ip c take).value.2.InRange ∧
      ((p.allocateRequested ip c take).value.1 = true → p.Admissible ip) := by
  rw [allocateRequested, value_lockGuard]
  cases hQ : p.quarantined.lookup ip with
  | none => exact book_lawful htake p.like_refl h hgw
  | some kept =>
    simp only [value_ite]
    split_ifs with hclient
    · exact ⟨h, fun h => absurd h (by simp)⟩
    · exact book_lawful htake (p.like_dropQuarantined ip c kept.2) h hgw

end

/-! ## Steps -/

/-- The steps that keep what is out admissible, and the scans that cover the range. -/
def Meets (p : IPv4Pool) : Op → Prop
  | .allocateIP c => p.Scans c → p.CanScan (p.poolSize - 2).toNat
  | .allocateTemporaryIP c => p.ScansTemporary c → p.poolSize ≠ 2 ∧ p.CanScan p.poolSize.toNat
  | .allocateRequestedTemporaryIP ip _ | .allocateRequestedIP ip _ => ip ≠ p.gateway
  | .excludeIP ip => p.allocated.lookup ip = none → p.HandsOut (· ≠ ip)
  | .setConflicted ip => ∀ owner, p.allocated.lookup ip = some owner →
      HandsOut { p with
        allocated := p.allocated.erase ip
        reverseAllocated := p.reverseAllocated.erase owner } (· ≠ ip)
  | .adjustPool net len gw => len ≠ some 0 ∧
      (p.adjustPool net len gw).value.HandsOut (p.adjustPool net len gw).value.Admissible
  | _ => True

theorem excludeIP_inRange (h : p.InRange) (hmeets : p.Meets (.excludeIP ip)) :
    (p.excludeIP ip).value.2.InRange := by
  simp only [excludeIP, value_lockGuard, value_ite, value_bind]
  split_ifs with hrange hallocated
  · exact h
  · exact h
  · have hfree := hmeets (by simpa [isAllocated] using hallocated)
    refine ⟨⟨h.configured.1, h.configured.2⟩, ?_⟩
    have hboth := h.keeps.and hfree
    have hkeep : HandsOut { p with excluded := insert ip p.excluded }
        fun x => p.Admissible x ∧ x ≠ ip := { hboth with }
    refine hkeep.mono fun x hx => ⟨hx.1.1, hx.1.2, ?_, hx.1.4⟩
    show x ∉ insert ip p.excluded
    rw [Finset.mem_insert, not_or]
    exact ⟨hx.2, hx.1.excluded⟩

theorem setConflicted_inRange (h : p.InRange) (hmeets : p.Meets (.setConflicted ip)) :
    (p.setConflicted ip).value.2.InRange := by
  simp only [setConflicted, value_lockGuard, value_bind, isAllocated, value_pure]
  cases hA : p.allocated.lookup ip with
  | none => exact h
  | some owner =>
    have hboth := h.keeps.dropAllocated.and (hmeets owner hA)
    refine ⟨⟨h.configured.1, h.configured.2⟩, HandsOut.setBad (hboth.mono fun x hx => ?_) _⟩
    refine ⟨hx.1.1, hx.1.2, hx.1.3, ?_⟩
    show ((p.bad.insert ip _).lookup x).isSome = false
    rw [lookup_insert_eq, if_neg hx.2, hx.1.conflicted]

theorem shiftedOne_pos {n : UInt32} (hn : n.toNat < 32) : 0 < (shiftedOne n).toNat := by
  have hone : (1 : UInt32).toNat = 1 := rfl
  have hpow : 2 ^ n.toNat < 2 ^ 32 := Nat.pow_lt_pow_right (by decide) hn
  rw [shiftedOne, UInt32.toNat_shiftLeft, hone, Nat.mod_eq_of_lt hn, Nat.one_shiftLeft,
    Nat.mod_eq_of_lt hpow]
  exact Nat.two_pow_pos _

theorem configured_adjustPool {net : Option UInt32} {len : Option UInt8} {gw : Option UInt32}
    (hsize : (∃ l, len = some l ∧ l ≤ 32) ∨ 0 < p.poolSize.toNat) (hlen : len ≠ some 0) :
    (p.adjustPool net len gw).value.Configured := by
  have hshift : ∀ l, len = some l → l ≤ 32 → 0 < (shiftedOne (32 - l.toUInt32)).toNat := by
    intro l hl h32
    have hl' : l.toNat ≤ 32 := UInt8.le_iff_toNat_le.mp h32
    have hnat : l.toUInt32.toNat = l.toNat := UInt8.toNat_toUInt32 l
    have hle : l.toUInt32 ≤ 32 := by
      rw [UInt32.le_iff_toNat_le]
      exact hnat.trans_le hl'
    have hzero : l.toNat ≠ 0 := fun h => hlen (hl.trans (congrArg some (UInt8.toNat_inj.mp h)))
    have hlit : (32 : UInt32).toNat = 32 := rfl
    refine shiftedOne_pos ?_
    rw [UInt32.toNat_sub_of_le _ _ hle]
    omega
  unfold adjustPool
  dsimp only [value_lockGuard, value_pure]
  cases len with
  | none =>
    have hpos := hsize.resolve_left (by simp)
    split_ifs <;> exact ⟨hpos, rfl⟩
  | some l =>
    by_cases hl : l ≤ 32
    · simp only [if_pos hl]
      split_ifs <;> exact ⟨hshift l rfl hl, rfl⟩
    · have hpos : 0 < p.poolSize.toNat := by
        refine hsize.resolve_left ?_
        rintro ⟨l', hl', hle⟩
        obtain rfl := Option.some.inj hl'
        exact hl hle
      simp only [if_neg hl]
      split_ifs <;> exact ⟨hpos, rfl⟩

theorem adjustPool_inRange {net : Option UInt32} {len : Option UInt8} {gw : Option UInt32}
    (h : p.InRange) (hmeets : p.Meets (.adjustPool net len gw)) :
    (p.adjustPool net len gw).value.InRange :=
  ⟨configured_adjustPool (.inr h.configured.size) hmeets.1, hmeets.2⟩

theorem InRange.lift (h : p.InRange)
    (hsame : q.baseAddress = p.baseAddress ∧ q.poolSize = p.poolSize ∧
      q.lastAddress = p.lastAddress ∧ q.gateway = p.gateway)
    (hexcluded : q.excluded ⊆ p.excluded)
    (hbad : ∀ ip, (p.bad.lookup ip).isSome = false → (q.bad.lookup ip).isSome = false)
    (hkeeps : q.HandsOut p.Admissible) : q.InRange := by
  obtain ⟨hbase, hsize, hlast, hgw⟩ := hsame
  refine ⟨⟨hsize ▸ h.configured.1, ?_⟩, hkeeps.mono fun x hx => ⟨?_, hgw ▸ hx.2, ?_, hbad x hx.4⟩⟩
  · rw [hlast, hbase, hsize, h.configured.last]
  · rw [InNetwork, hbase, hsize]
    exact hx.1
  · exact fun hmem => hx.3 (hexcluded hmem)

theorem fireTimer_inRange (h : p.InRange) : (p.fireTimer id).value.InRange := by
  rw [fireTimer, TimeManager.fire]
  cases hid : p.timeManager.timers.lookup id with
  | none => exact h
  | some callback =>
    have hfired : InRange { p with timeManager := p.timeManager.cancelTimer id } :=
      h.of_same ⟨rfl, rfl, rfl, rfl, rfl, rfl⟩ h.keeps.cancelTimer
    cases callback with
    | temporary ip client =>
      refine h.of_same ⟨rfl, rfl, rfl, rfl, rfl, rfl⟩ ?_
      exact h.keeps.dropTemporary
    | quarantined ip client =>
      have hip : p.Admissible ip := h.keeps.timers id ip client hid
      have hrelease : ∀ x ∈ p.release ++ [ip], p.Admissible x := by
        intro x hx
        rcases List.mem_append.mp hx with hx | hx
        · exact h.keeps.release x hx
        · rwa [List.mem_singleton.mp hx]
      have hkeep : HandsOut { p with
          timeManager := p.timeManager.cancelTimer id
          quarantined := p.quarantined.erase ip
          reverseQuarantined := p.reverseQuarantined.erase client } p.Admissible :=
        h.keeps.endQuarantine
      simp only [Option.map_some, Callback.run, value_lockGuard, value_bind, value_pure]
      split_ifs
      · exact h.of_same ⟨rfl, rfl, rfl, rfl, rfl, rfl⟩ hkeep
      · exact h.of_same ⟨rfl, rfl, rfl, rfl, rfl, rfl⟩ (hkeep.setRelease hrelease)
    | bad ip =>
      refine hfired.lift ⟨rfl, rfl, rfl, rfl⟩ subset_rfl (fun x hx => ?_) { hfired.keeps with }
      show ((p.bad.erase ip).lookup x).isSome = false
      rw [lookup_erase_eq]
      split_ifs
      · rfl
      · exact hx
    | lease client => exact hfired

theorem activateTemporaryIP_inRange (h : p.InRange) :
    (p.activateTemporaryIP ip c).value.2.InRange := by
  rw [activateTemporaryIP, value_lockGuard]
  cases hT : p.temporary.lookup ip with
  | none => exact h
  | some offered =>
    simp only [value_ite]
    split_ifs with hclient
    · exact h
    · refine h.of_same ⟨rfl, rfl, rfl, rfl, rfl, rfl⟩ ?_
      exact h.keeps.dropTemporary.setAllocated (h.keeps.temporary ip offered hT)

theorem clearTemporaryOffer_inRange (h : p.InRange) : (p.clearTemporaryOffer ip).value.InRange := by
  rw [clearTemporaryOffer, value_lockGuard]
  cases hT : p.temporary.lookup ip with
  | none => exact h
  | some offered => exact h.of_same ⟨rfl, rfl, rfl, rfl, rfl, rfl⟩ h.keeps.dropTemporary

theorem expireIP_inRange (h : p.InRange) : (p.expireIP ip c).value.InRange := by
  simp only [expireIP, value_lockGuard, value_bind, isAllocated, value_pure]
  cases hA : p.allocated.lookup ip with
  | none => exact h
  | some owner =>
    refine h.of_same ⟨rfl, rfl, rfl, rfl, rfl, rfl⟩ ?_
    exact h.keeps.dropAllocated.setQuarantined (h.keeps.allocated ip owner hA)

theorem releaseIP_inRange (h : p.InRange) : (p.releaseIP ip c).value.InRange := by
  simp only [releaseIP, value_lockGuard, value_bind, isAllocated, value_pure]
  cases hA : p.allocated.lookup ip with
  | none => exact h
  | some owner => exact h.of_same ⟨rfl, rfl, rfl, rfl, rfl, rfl⟩ h.keeps.dropAllocated

theorem step_inRange (h : p.InRange) (op : Op) (hmeets : p.Meets op) : (p.step op).InRange := by
  cases op with
  | allocateIP c => exact (allocateIP_lawful h hmeets).1
  | allocateTemporaryIP c => exact (allocateTemporaryIP_lawful h hmeets).1
  | allocateRequestedTemporaryIP ip c =>
    exact (allocateRequested_lawful books_setTemporary h hmeets).1
  | allocateRequestedIP ip c => exact (allocateRequested_lawful books_setAllocated h hmeets).1
  | activateTemporaryIP ip c => exact activateTemporaryIP_inRange h
  | clearTemporaryOffer ip => exact clearTemporaryOffer_inRange h
  | excludeIP ip => exact excludeIP_inRange h hmeets
  | removeExclusion ip =>
    have hsub := Finset.erase_subset ip p.excluded
    exact h.lift ⟨rfl, rfl, rfl, rfl⟩ hsub (fun _ h => h) { h.keeps with }
  | expireIP ip c => exact expireIP_inRange h
  | releaseIP ip c => exact releaseIP_inRange h
  | setConflicted ip => exact setConflicted_inRange h hmeets
  | adjustPool net len gw => exact adjustPool_inRange h hmeets
  | setLeaseManager => exact h.of_same ⟨rfl, rfl, rfl, rfl, rfl, rfl⟩ { h.keeps with }
  | fireTimer id => exact fireTimer_inRange h

theorem lawful_of_meets (h : p.InRange) (op : Op) (hmeets : p.Meets op) : p.Lawful op := by
  cases op with
  | allocateIP c => exact (allocateIP_lawful h hmeets).2
  | allocateTemporaryIP c => exact (allocateTemporaryIP_lawful h hmeets).2
  | allocateRequestedTemporaryIP ip c =>
    exact (allocateRequested_lawful books_setTemporary h hmeets).2
  | allocateRequestedIP ip c => exact (allocateRequested_lawful books_setAllocated h hmeets).2
  | _ => trivial

theorem noWrap_of_meets (hcursor : p.baseAddress < p.currentAddress) (op : Op) (hmeets : p.Meets op) :
    p.NoWrap op := by
  cases op with
  | allocateIP c =>
    intro hscans
    refine (hmeets hscans).exact hcursor fun hsize => ?_
    rw [hsize]
    rfl
  | allocateTemporaryIP c =>
    intro hscans
    obtain ⟨hsize, hcan⟩ := hmeets hscans
    exact hcan.exact hcursor fun htwo => absurd htwo hsize
  | _ => trivial

/-! ## Runs -/

/-- A new pool that `adjustPool` has configured. -/
def configured (leaseManager : Bool) (net : UInt32) (len : UInt8) (gw : Option UInt32) : IPv4Pool :=
  (adjustPool { leaseManager } (some net) (some len) gw).value

section
variable {leaseManager : Bool} {net : UInt32} {len : UInt8} {gw : Option UInt32}

theorem keeps_configured (A : UInt32 → Prop) : (configured leaseManager net len gw).HandsOut A := by
  unfold configured adjustPool
  dsimp only [value_lockGuard, value_pure]
  split_ifs <;> constructor <;> intros <;> contradiction

theorem inRange_configured (hlen : len ≠ 0) (hle : len ≤ 32) :
    (configured leaseManager net len gw).InRange :=
  ⟨configured_adjustPool (.inl ⟨len, rfl, hle⟩) (by simpa using hlen), keeps_configured _⟩

end

/-- **Along steps that keep the addresses admissible every allocation is lawful**, and from a cursor
    behind the base address no scan wraps. -/
theorem lawful_along (leaseManager : Bool) {net : UInt32} {len : UInt8} {gw : Option UInt32}
    (hlen : len ≠ 0) (hle : len ≤ 32) {ops : List Op}
    (h : Along Meets step (configured leaseManager net len gw) ops) :
    Along (fun p op => p.Lawful op ∧ (p.baseAddress < p.currentAddress → p.NoWrap op)) step
      (configured leaseManager net len gw) ops :=
  h.imp_of_invariant (I := InRange) (fun _ op hp hmeets => step_inRange hp op hmeets)
    (fun _ op hp hmeets =>
      ⟨lawful_of_meets hp op hmeets, fun hcursor => noWrap_of_meets hcursor op hmeets⟩)
    (inRange_configured hlen hle)

/-- An exclusion in `10.0.0.0/24`, and two allocations for a client. -/
theorem lawful_along_excluded : Along (fun p op => p.Lawful op ∧
      (p.baseAddress < p.currentAddress → p.NoWrap op)) step
    (configured false 0x0A000000 24 (some 0x0A000001))
    [.excludeIP 0x0A000002, .allocateIP [1], .allocateIP [1]] := by
  refine lawful_along false (by decide) (by decide)
    ⟨fun _ => keeps_configured _, fun _ => ?_, ?_, trivial⟩
  · exact ⟨by decide, by decide, by decide⟩
  · intro hscans
    exact absurd hscans.1 (by decide)

/-- A request for the gateway of `10.0.0.0/24` is granted. -/
theorem grants_gateway : ¬ ∀ leaseManager net len gw ops op, len ≤ 32 →
    (runFrom step (configured leaseManager net len gw) ops).Lawful op ∧
      (runFrom step (configured leaseManager net len gw) ops).NoWrap op := by
  intro h
  obtain ⟨hlawful, -⟩ := h false 0x0A000000 24 (some 0x0A000001) []
    (.allocateRequestedIP 0x0A000001 [1]) (by decide)
  have hgranted := hlawful (by decide)
  exact hgranted.gateway rfl

end IPv4Pool

end VirtualRouter.Dhcp
