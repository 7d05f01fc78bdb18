/-
  The lengths in an OPEN message (`computeCapabilityLen`, `appendCapabilities`, `BgpTx::buildOpen`).

  * `computeCapabilityLen_eq`: what is counted, modulo 2^16;
  * `length_appendCapabilities`: what is reserved, parameter by parameter;
  * `counted_eq`: the difference of the two;
  * `openLength_iff`: the fields of the message are right if there is none.

  A parameter with 252 bytes of data or more is counted with its data and reserved without: the
  full fragment of a list has 252.  The families of graceful restart and of LLGR are counted in
  fragments and appended as one parameter.  Without families, graceful restart is counted 2^64
  times, which is 0 in 16 bits.
-/
import VirtualRouter.Bgp.OpenExchange

namespace VirtualRouter.Bgp

open Bytes Utils

/-! ## What is counted and what is reserved -/

/-- The bytes counted for `n` entries, with `head` bytes in front of each fragment. -/
def countedFragments (head blockSize n : ℕ) : ℕ :=
  n / getFragSize blockSize * (4 + head + getFragSize blockSize * blockSize) +
    if n % getFragSize blockSize = 0 then 0 else 4 + head + n % getFragSize blockSize * blockSize

/-- The bytes reserved for `n` entries in fragments, none for a full one. -/
def reservedFragments (blockSize n : ℕ) : ℕ :=
  if n % getFragSize blockSize = 0 then 0 else 4 + n % getFragSize blockSize * blockSize

/-- The bytes that `openParam` reserves for `len` bytes of data. -/
def reservedParam (len : ℕ) : ℕ := (4 + len) % 256

namespace Capabilities
variable (caps : Capabilities)

def fqdnLen : ℕ := 1 + caps.hostname.length + 1 + caps.domain.length

def sendsLlgr : Bool := caps.llgr && !caps.llgrFamilies.isEmpty

/-- What `computeCapabilityLen` counts. -/
def counted : ℕ :=
  caps.mpFamilies.length * 8 + caps.routeRefresh.toNat * 4 + caps.orfEntries.length * 11 +
  countedFragments 0 6 caps.extendedNextHopEntries.length + caps.extendedMessage.toNat * 4 +
  (if caps.gracefulRestart then countedFragments 2 4 caps.gracefulFamilies.length else 0) +
  caps.asn32bit.toNat * 8 + countedFragments 0 4 caps.multiSessionFamilies.length +
  countedFragments 0 4 caps.addPathFamilies.length + caps.enhancedRouteRefresh.toNat * 4 +
  (if caps.sendsLlgr then countedFragments 0 7 caps.llgrFamilies.length else 0) +
  (if caps.fqdn then 4 + caps.fqdnLen % 256 else 0) + caps.linkLocalNextHop.toNat * 4

/-- What `appendCapabilities` reserves. -/
def reserved : ℕ :=
  caps.mpFamilies.length * 8 + caps.routeRefresh.toNat * 4 + caps.orfEntries.length * 11 +
  reservedFragments 6 caps.extendedNextHopEntries.length + caps.extendedMessage.toNat * 4 +
  (if caps.gracefulRestart then reservedParam (2 + caps.gracefulFamilies.length * 4) else 0) +
  caps.asn32bit.toNat * 8 + reservedFragments 4 caps.multiSessionFamilies.length +
  reservedFragments 4 caps.addPathFamilies.length + caps.enhancedRouteRefresh.toNat * 4 +
  (if caps.sendsLlgr then reservedParam (caps.llgrFamilies.length * 7) else 0) +
  (if caps.fqdn then reservedParam caps.fqdnLen else 0) + caps.linkLocalNextHop.toNat * 4

/-- The bytes counted and not reserved: 256 for each full fragment, and what the parameters of
    graceful restart, LLGR and FQDN lack. -/
def excess : ℤ :=
  256 * (caps.extendedNextHopEntries.length / 42 + caps.multiSessionFamilies.length / 63 +
    caps.addPathFamilies.length / 63 : ℕ) +
  (if caps.gracefulRestart then
    (countedFragments 2 4 caps.gracefulFamilies.length : ℤ) -
      reservedParam (2 + caps.gracefulFamilies.length * 4) else 0) +
  (if caps.sendsLlgr then
    (countedFragments 0 7 caps.llgrFamilies.length : ℤ) - reservedParam (caps.llgrFamilies.length * 7)
    else 0) +
  (if caps.fqdn then ((4 + caps.fqdnLen % 256 : ℕ) : ℤ) - reservedParam caps.fqdnLen else 0)

theorem counted_eq : (caps.counted : ℤ) = caps.reserved + caps.excess := by
  have h6 : (countedFragments 0 6 caps.extendedNextHopEntries.length : ℤ) =
      256 * (caps.extendedNextHopEntries.length / 42 : ℕ) +
        reservedFragments 6 caps.extendedNextHopEntries.length := by
    simp only [countedFragments, reservedFragments, getFragSize]
    push_cast
    omega
  have h4 (n : ℕ) : (countedFragments 0 4 n : ℤ) = 256 * (n / 63 : ℕ) + reservedFragments 4 n := by
    simp only [countedFragments, reservedFragments, getFragSize]
    push_cast
    omega
  rw [counted, reserved, excess]
  push_cast
  rw [h6, h4, h4]
  split_ifs <;> push_cast <;> ring

end Capabilities

/-! ## `computeCapabilityLen` -/

theorem addParam_ofNat (c : ℕ) (d : UInt8) :
    addParam (UInt16.ofNat c) d = UInt16.ofNat (c + (4 + d.toNat)) := by
  rw [addParam, UInt16.ofNat_add, UInt16.ofNat_add]
  congr 2
  apply UInt16.toNat_inj.mp
  have := d.toNat_lt
  simp

theorem addIf_ofNat (b : Bool) {f : UInt16 → UInt16} {k : ℕ}
    (hf : ∀ c, f (UInt16.ofNat c) = UInt16.ofNat (c + k)) (c : ℕ) :
    addIf b f (UInt16.ofNat c) = UInt16.ofNat (c + if b then k else 0) := by
  cases b with
  | false => rfl
  | true => exact hf c

theorem foldl_addParam {α : Type*} (d : UInt8) (l : List α) (c : ℕ) :
    l.foldl (fun c _ => addParam c d) (UInt16.ofNat c) = UInt16.ofNat (c + l.length * (4 + d.toNat)) := by
  induction l generalizing c with
  | nil => simp
  | cons e l ih =>
    rw [List.foldl_cons, addParam_ofNat, ih, List.length_cons]
    congr 1
    ring

theorem iterate_addParam (d : UInt8) (n c : ℕ) :
    (addParam · d)^[n] (UInt16.ofNat c) = UInt16.ofNat (c + n * (4 + d.toNat)) := by
  induction n generalizing c with
  | zero => simp
  | succ n ih =>
    rw [Function.iterate_succ_apply, addParam_ofNat, ih]
    congr 1
    ring

theorem ofNat_congr {a b : ℕ} (h : a ≡ b [MOD 2 ^ 16]) : UInt16.ofNat a = UInt16.ofNat b := by
  apply UInt16.toNat_inj.mp
  rw [UInt16.toNat_ofNat', UInt16.toNat_ofNat']
  exact h

theorem addFragments_ofNat (head blockSize : ℕ) (hpos : 0 < getFragSize blockSize)
    (hfit : head + getFragSize blockSize * blockSize < 256) (n c : ℕ) :
    addFragments head blockSize n (UInt16.ofNat c) =
      UInt16.ofNat (c + countedFragments head blockSize n) := by
  set fs := getFragSize blockSize with hfs
  set R := (getFragments fs n + (2 ^ 64 - 1)) % 2 ^ 64 with hR
  set K := 4 + (head + fs * blockSize) with hK
  have hrounds : R + 1 ≡ getFragments fs n [MOD 2 ^ 16] := by
    simp only [Nat.ModEq, hR]
    omega
  have hbyte {k : ℕ} (hk : k < 256) : (UInt8.ofNat k).toNat = k := by
    rw [UInt8.toNat_ofNat']
    exact Nat.mod_eq_of_lt hk
  have hmul : R * K + K ≡ getFragments fs n * K [MOD 2 ^ 16] := by
    have h := hrounds.mul_right K
    rwa [Nat.succ_mul] at h
  have hlast : (n % fs) * blockSize ≤ fs * blockSize :=
    Nat.mul_le_mul_right _ (Nat.mod_lt n hpos).le
  simp only [addFragments, countedFragments, ← hfs]
  rw [← hR, iterate_addParam, hbyte hfit, addParam_ofNat]
  apply ofNat_congr
  rw [getFragments_eq hpos] at hmul
  split_ifs at hmul ⊢ with hr
  · -- the last fragment is full
    rw [hbyte hfit, Nat.add_assoc]
    refine Nat.ModEq.add_left c ?_
    simpa [hK, Nat.add_assoc] using hmul
  · rw [hbyte (by omega), Nat.add_assoc]
    refine Nat.ModEq.add_left c ?_
    have hcancel : R * K ≡ n / fs * K [MOD 2 ^ 16] := by
      rw [Nat.succ_mul] at hmul
      exact Nat.ModEq.add_right_cancel' K hmul
    have h := hcancel.add_right (4 + (head + n % fs * blockSize))
    simpa [hK, Nat.add_assoc] using h

theorem countedFragments_nil (head blockSize : ℕ) : countedFragments head blockSize 0 = 0 := by
  simp [countedFragments]

theorem addIf_fragments {α : Type*} (head blockSize : ℕ) (hpos : 0 < getFragSize blockSize)
    (hfit : head + getFragSize blockSize * blockSize < 256) (l : List α) (c : ℕ) :
    addIf (!l.isEmpty) (addFragments head blockSize l.length) (UInt16.ofNat c) =
      UInt16.ofNat (c + countedFragments head blockSize l.length) := by
  rw [addIf_ofNat _ (addFragments_ofNat head blockSize hpos hfit l.length)]
  cases l with
  | nil => rw [List.length_nil, countedFragments_nil]; rfl
  | cons e l => rfl

theorem addIf_param (b : Bool) (d : UInt8) (c : ℕ) :
    addIf b (addParam · d) (UInt16.ofNat c) = UInt16.ofNat (c + b.toNat * (4 + d.toNat)) := by
  rw [addIf_ofNat b (addParam_ofNat · d)]
  cases b <;> simp

theorem computeCapabilityLen_eq (caps : Capabilities) :
    computeCapabilityLen caps = UInt16.ofNat caps.counted := by
  have hfqdn : caps.fqdn.toNat *
      (4 + (UInt8.ofNat (1 + caps.hostname.length + 1 + caps.domain.length)).toNat) =
      if caps.fqdn then 4 + caps.fqdnLen % 256 else 0 := by
    rw [UInt8.toNat_ofNat']
    cases caps.fqdn <;> simp [Capabilities.fqdnLen]
  have hllgr := addIf_ofNat caps.sendsLlgr
    (addFragments_ofNat 0 7 (by decide) (by decide) caps.llgrFamilies.length)
  have hgraceful := addIf_ofNat caps.gracefulRestart
    (addFragments_ofNat 2 4 (by decide) (by decide) caps.gracefulFamilies.length)
  have hnextHop := addIf_fragments 0 6 (by decide) (by decide) caps.extendedNextHopEntries
  have hmulti := addIf_fragments 0 4 (by decide) (by decide) caps.multiSessionFamilies
  have haddPath := addIf_fragments 0 4 (by decide) (by decide) caps.addPathFamilies
  rw [Capabilities.sendsLlgr] at hllgr
  rw [computeCapabilityLen, show (0 : UInt16) = UInt16.ofNat 0 from rfl]
  simp only [foldl_addParam, addIf_param, hnextHop, hgraceful, hmulti, haddPath, hllgr, hfqdn,
    Capabilities.counted, Capabilities.sendsLlgr]
  congr 1
  simp

/-! ## `appendCapabilities` -/

theorem length_openParam_mod (code : UInt8) (data : List UInt8) :
    (openParam code data).length = reservedParam data.length := by
  have hsiz : (UInt8.ofNat data.length + 4).toNat = reservedParam data.length := by
    rw [UInt8.toNat_add, UInt8.toNat_ofNat', reservedParam]
    change (data.length % 256 + 4) % 256 = _
    omega
  simp only [openParam, hsiz, List.length_take, List.length_cons]
  rw [min_eq_left]
  have := Nat.mod_le (4 + data.length) 256
  rw [reservedParam]
  omega

theorem reservedParam_of_le {len : ℕ} (h : len ≤ 251) : reservedParam len = 4 + len :=
  Nat.mod_eq_of_lt (by omega)

theorem length_flatten_params {α : Type*} (code : UInt8) {size : ℕ} {block : α → List UInt8}
    (hsize : ∀ e, (block e).length = size) (h : size ≤ 251) (l : List α) :
    (l.map fun e => openParam code (block e)).flatten.length = l.length * (4 + size) := by
  rw [List.length_flatten, List.map_map]
  have hlen : ∀ e ∈ l, (List.length ∘ fun e => openParam code (block e)) e = 4 + size := by
    intro e _
    rw [Function.comp_apply, length_openParam_mod, hsize, reservedParam_of_le h]
  rw [List.map_congr_left hlen]
  simp

theorem length_flagParam (flag : Bool) (code : UInt8) :
    (flagParam flag code).flatten.length = flag.toNat * 4 := by
  cases flag with
  | false => rfl
  | true =>
    rw [flagParam, if_pos rfl, List.flatten_singleton, length_openParam_mod]
    rfl

theorem length_ifParam {c : Prop} [Decidable c] (code : UInt8) (data : List UInt8) :
    (if c then [openParam code data] else []).flatten.length =
      if c then reservedParam data.length else 0 := by
  split_ifs
  · rw [List.flatten_singleton, length_openParam_mod]
  · rfl

theorem length_fragments {α : Type*} (code : UInt8) {blockSize : ℕ} {block : α → List UInt8}
    (hsize : ∀ e, (block e).length = blockSize)
    (hfull : getFragSize blockSize * blockSize = 252) (l : List α) :
    (fragments code blockSize block l).flatten.length = reservedFragments blockSize l.length := by
  set fs := getFragSize blockSize with hfs
  have hpos : 0 < fs := Nat.pos_of_mul_pos_right (b := blockSize) (by omega)
  -- the size of a fragment
  have hfrag (f : ℕ) : (openParam code (((l.drop (f * fs)).take (min fs (l.length - f * fs))).flatMap
      block)).length = reservedParam (min fs (l.length - f * fs) * blockSize) := by
    rw [length_openParam_mod, length_flatMap_block hsize, List.length_take, List.length_drop,
      min_eq_left (Nat.min_le_right _ _)]
  have hfull' : ∀ f ∈ List.range (l.length / fs),
      reservedParam (min fs (l.length - f * fs) * blockSize) = 0 := by
    intro f hf
    have hle := Nat.mul_le_mul_right fs (Nat.succ_le_of_lt (List.mem_range.mp hf))
    have hdiv := Nat.div_mul_le_self l.length fs
    rw [Nat.succ_mul] at hle
    rw [min_eq_left (by omega), hfull]
    rfl
  have hsum : ((List.range (l.length / fs)).map fun f =>
      reservedParam (min fs (l.length - f * fs) * blockSize)).sum = 0 := by
    rw [List.map_congr_left hfull']
    simp
  rw [fragments, List.length_flatten, List.map_map]
  simp only [Function.comp_def, ← hfs, hfrag, getFragments_eq hpos, reservedFragments]
  split_ifs with hr
  · exact hsum
  · have hlast : l.length - l.length / fs * fs = l.length % fs := by
      rw [Nat.mul_comm, Nat.mod_eq_sub_mul_div]
    have hlt := Nat.mod_lt l.length hpos
    have hbytes : l.length % fs * blockSize < fs * blockSize :=
      Nat.mul_lt_mul_of_pos_right hlt (Nat.pos_of_mul_pos_left (a := fs) (by omega))
    rw [List.range_succ, List.map_append, List.sum_append, hsum, List.map_singleton,
      List.sum_singleton, hlast, min_eq_right hlt.le, reservedParam_of_le (by omega), Nat.zero_add]

/-- **The bytes appended**, parameter by parameter. -/
theorem length_appendCapabilities (caps : Capabilities) :
    (appendCapabilities caps).flatten.length = caps.reserved := by
  have hmp := length_flatten_params BGP_CAPABILITY_MULTIPROTOCOL
    (fun e => show (mpBlock e).length = 4 from rfl) (by decide) caps.mpFamilies
  have horf := length_flatten_params BGP_CAPABILITY_OUTBOUND_FILTER
    (fun e => show (orfBlock e).length = 7 from rfl) (by decide) caps.orfEntries
  have hnextHop := length_fragments BGP_CAPABILITY_EXTENDED_NEXT_HOP length_extendedNextHopBlock
    (by decide) caps.extendedNextHopEntries
  have hmulti := length_fragments BGP_CAPABILITY_MULTI_SESSION length_multiSessionBlock
    (by decide) caps.multiSessionFamilies
  have haddPath := length_fragments BGP_CAPABILITY_ADD_PATH length_addPathBlock
    (by decide) caps.addPathFamilies
  have hasn : (if caps.asn32bit then reservedParam 4 else 0) = caps.asn32bit.toNat * 8 := by
    cases caps.asn32bit <;> rfl
  have hfqdn : (fqdnData caps).length = caps.fqdnLen := by
    simp only [fqdnData, Capabilities.fqdnLen, List.length_cons, List.length_append]
    omega
  simp only [appendCapabilities, List.flatten_append, List.length_append, hmp, horf, hnextHop, hmulti,
    haddPath, length_flagParam, length_ifParam, length_flatMap_block length_gracefulBlock,
    length_flatMap_block length_llgrBlock, length_writeU16, length_writeU32, hasn, hfqdn,
    Capabilities.reserved, Capabilities.sendsLlgr]
  rfl

/-! ## The message -/

/-- The parameter length that a reader of the message finds, in one byte or in the two behind it. -/
def announcedLen (msg : BytePtr) : ℕ :=
  if msg 28 = 255 then (readU16 (msg.add 29)).toNat else (msg 28).toNat

/-- The lengths of the OPEN message of `s`: what is counted is what is appended, and the fields say
    so, as far as 16 bits go. -/
structure OpenAgrees (s : Session) : Prop where
  counted : (appendCapabilities s.localCaps).flatten.length < 2 ^ 16 →
    (computeCapabilityLen s.localCaps).toNat = (appendCapabilities s.localCaps).flatten.length
  parameters : (appendCapabilities s.localCaps).flatten.length < 2 ^ 16 →
    announcedLen (ofList (appended (buildOpen s))) = (appendCapabilities s.localCaps).flatten.length
  header : (appended (buildOpen s)).length < 2 ^ 16 →
    (readU16 ((ofList (appended (buildOpen s))).add 16)).toNat = (appended (buildOpen s)).length

theorem announcedLen_buildOpen (s : Session) :
    announcedLen (ofList (appended (buildOpen s))) = (computeCapabilityLen s.localCaps).toNat := by
  have hholds := holds_ofList (appended (buildOpen s))
  nth_rewrite 2 [appended_buildOpen] at hholds
  rw [List.flatten_append] at hholds
  obtain ⟨hfixed, hrest⟩ := holds_append.mp hholds.right
  have hlen : ofList (appended (buildOpen s)) 28 = _ := (openFixed_holds hfixed).2.2.2.2
  have hext := hrest.left
  change Holds (((ofList (appended (buildOpen s))).add 19).add 10) _ at hext
  rw [add_add] at hext
  rw [announcedLen, hlen]
  generalize computeCapabilityLen s.localCaps = capSize at *
  by_cases hge : capSize ≥ 255
  · rw [if_pos hge, if_pos rfl]
    rw [extendedLen, if_pos hge, List.flatten_singleton] at hext
    rw [readU16_holds hext]
  · have hlt := UInt16.lt_iff_toNat_lt.mp (UInt16.not_le.mp hge)
    have hsmall : capSize.toUInt8.toNat = capSize.toNat := by
      rw [UInt16.toNat_toUInt8]
      exact Nat.mod_eq_of_lt (lt_trans hlt (by decide))
    have hne : capSize.toUInt8 ≠ 255 := by
      intro h
      rw [h] at hsmall
      exact absurd hlt (hsmall ▸ by decide)
    rw [if_neg hge, if_neg hne, hsmall]

theorem length_buildOpen (s : Session) :
    (appended (buildOpen s)).length = 29 + (if computeCapabilityLen s.localCaps ≥ 255 then 2 else 0) +
      (appendCapabilities s.localCaps).flatten.length := by
  have hheader : (openHeader s).length = 19 := rfl
  rw [appended_buildOpen, List.flatten_append, List.length_append, List.length_append,
    List.length_append, hheader, extendedLen]
  split_ifs <;> simp [openFixed] <;> omega

theorem headerLen_buildOpen (s : Session) :
    readU16 ((ofList (appended (buildOpen s))).add 16) =
      10 + (if computeCapabilityLen s.localCaps ≥ 255 then 2 else 0) + computeCapabilityLen s.localCaps +
        19 := by
  have hholds := (holds_ofList (appended (buildOpen s)))
  nth_rewrite 2 [appended_buildOpen] at hholds
  have hheader := hholds.left
  rw [openHeader, buildHeader] at hheader
  exact readU16_holds hheader.left.right

/-- The counter holds the number of bytes appended if there is no excess. -/
theorem counted_iff (caps : Capabilities) (h : caps.reserved < 2 ^ 16) :
    (computeCapabilityLen caps).toNat = caps.reserved ↔ (2 ^ 16 : ℤ) ∣ caps.excess := by
  have hcounted := caps.counted_eq
  rw [computeCapabilityLen_eq, UInt16.toNat_ofNat']
  omega

/-- **The lengths of an OPEN message** agree if and only if the bytes counted and not reserved are
    none modulo 2^16, or the message is too long for its length fields. -/
theorem openLength_iff (s : Session) :
    OpenAgrees s ↔ 2 ^ 16 ≤ s.localCaps.reserved ∨ (2 ^ 16 : ℤ) ∣ s.localCaps.excess := by
  constructor
  · intro h
    by_cases hlt : s.localCaps.reserved < 2 ^ 16
    · have hcounted := h.counted
      rw [length_appendCapabilities] at hcounted
      exact Or.inr ((counted_iff _ hlt).mp (hcounted hlt))
    · exact Or.inl (not_lt.mp hlt)
  · intro h
    have hagree : s.localCaps.reserved < 2 ^ 16 →
        (computeCapabilityLen s.localCaps).toNat = s.localCaps.reserved := by
      intro hlt
      exact (counted_iff _ hlt).mpr (h.resolve_left (not_le.mpr hlt))
    constructor
    · rw [length_appendCapabilities]
      exact hagree
    · rw [length_appendCapabilities, announcedLen_buildOpen]
      exact hagree
    · intro hlt
      rw [length_buildOpen, length_appendCapabilities] at hlt ⊢
      have hcap := hagree (by omega)
      rw [headerLen_buildOpen]
      split_ifs at hlt ⊢ <;> simp <;> omega

def gracefulSession : Session :=
  { localCaps := { gracefulRestart := true } }

/-- The OPEN message of 35 bytes says that it has 29, and that it has no parameters. -/
theorem not_openLength : ¬ ∀ s : Session, OpenAgrees s := by
  intro h
  have hcounted := (h gracefulSession).counted
  rw [computeCapabilityLen_eq] at hcounted
  revert hcounted
  decide

end VirtualRouter.Bgp
