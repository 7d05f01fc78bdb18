/-
  The checksum of an OSPFv2 LSA: `ChecksumFletcher`
  (`ospf/transmission/OspfFletcher.hpp`), the bytes that the bodies feed to it
  (`appendChecksum`) and the receiver's test (`verifyOspfFletcher` in `RxV2.cpp`).

  * `ChecksumFletcher.Reduced`: what the accumulator always satisfies; it is then
    determined by its sums mod 255 (`ChecksumFletcher.ext_sums`);
  * `LsaBodyV2.FedAsWritten`: the bodies that feed the bytes they write;
  * `Balanced`: the LSAs whose plain sums are check octets.

  The check value is the two sums as they are, where the receiver wants octets
  that make both sums vanish.
-/
import VirtualRouter.Lib.Fletcher
import VirtualRouter.Ospf.LsaBodyV2

namespace VirtualRouter.Ospf

open Bytes Utils

structure ChecksumFletcher where
  c0 : UInt16 := 0
  c1 : UInt16 := 0
  deriving DecidableEq, Repr

namespace ChecksumFletcher

/-- `if (c >= 255) c -= 255`. -/
def reduce (c : UInt16) : UInt16 := if 255 ≤ c then c - 255 else c

def add (c : ChecksumFletcher) (b : UInt8) : ChecksumFletcher :=
  let c0 := reduce (c.c0 + b.toUInt16)
  { c0, c1 := reduce (c.c1 + c0) }

def addU32 (c : ChecksumFletcher) (b : UInt32) : ChecksumFletcher :=
  (((c.add (b >>> 24).toUInt8).add ((b >>> 16) &&& 0xFF).toUInt8).add
    ((b >>> 8) &&& 0xFF).toUInt8).add (b &&& 0xFF).toUInt8

def addU16 (c : ChecksumFletcher) (b : UInt16) : ChecksumFletcher :=
  (c.add ((b >>> 8) &&& 0xFF).toUInt8).add (b &&& 0xFF).toUInt8

def addBytes (c : ChecksumFletcher) (data : List UInt8) : ChecksumFletcher := data.foldl add c

def finalize (c : ChecksumFletcher) : UInt16 := c.c1 <<< 8 ||| c.c0

end ChecksumFletcher

def verifyOspfFletcher (lsa : List UInt8) (len : UInt16) : Bool :=
  if len < 20 then false
  else (ChecksumFletcher.addBytes {} ((lsa.drop 2).take (len.toNat - 2))).finalize = 0

namespace LsaBodyV2

/-- The links of a router LSA in `appendChecksum`. -/
def appendLink (check : ChecksumFletcher) (link : RouterLinkV2) : ChecksumFletcher :=
  (((check.addU32 link.linkId).addU32 link.linkData).add link.type).addU16 link.metric

def appendChecksum (body : LsaBodyV2) (check : ChecksumFletcher) : ChecksumFletcher :=
  match body with
  | .router lsa =>
    lsa.links.foldl appendLink ((check.add lsa.flags).addU16 (UInt16.ofNat lsa.links.length))
  | .network lsa =>
    lsa.attachedRouters.foldl ChecksumFletcher.addU32 (check.addU32 lsa.networkMask)
  | .summaryNetwork lsa => (check.addU32 lsa.networkMask).addU32 lsa.metric
  | .summaryRouter lsa => check.addU32 (lsa.metric ||| 0x00FFFFFF)
  | .external lsa =>
    (((check.addU32 lsa.networkMask).addU32 lsa.metricWord).addU32 lsa.forwardingAddress).addU32
      lsa.routeTag
  | .opaqueLsa lsa => check.addBytes lsa.payload

end LsaBodyV2

/-- The fields of `Ospfv2LSAHeader` that are not computed from the LSA. -/
structure LsaWireHeader where
  age : UInt16
  options : UInt8
  type : UInt8
  lsID : UInt32
  advRouter : UInt32
  seqNum : UInt32
  deriving DecidableEq, Repr

def LsaWireHeader.before (h : LsaWireHeader) : List UInt8 :=
  [h.options, h.type] ++ writeU32 h.lsID ++ writeU32 h.advRouter ++ writeU32 h.seqNum

/-- The bytes of the LSA after its checksum: its length and its body. -/
def afterChecksum (body : List UInt8) : List UInt8 :=
  writeU16 (20 + UInt16.ofNat body.length) ++ body

def LsaWireHeader.emit (h : LsaWireHeader) (body : List UInt8) (checksum : UInt16) : List UInt8 :=
  writeU16 h.age ++ (h.before ++ writeU16 checksum ++ afterChecksum body)

def LsaWireHeader.checkValue (h : LsaWireHeader) (body : List UInt8) : UInt16 :=
  (ChecksumFletcher.addBytes {} ((h.emit body 0).drop 2)).finalize

/-! ## The accumulator and its sums -/

namespace ChecksumFletcher

variable {c d : ChecksumFletcher}

structure Reduced (c : ChecksumFletcher) : Prop where
  c0 : c.c0.toNat < 255
  c1 : c.c1.toNat < 255

theorem reduced_zero : ({} : ChecksumFletcher).Reduced := ⟨by decide, by decide⟩

def sums (c : ChecksumFletcher) : ZMod 255 × ZMod 255 := (c.c0.toNat, c.c1.toNat)

theorem ext_sums (hc : c.Reduced) (hd : d.Reduced) (h : c.sums = d.sums) : c = d := by
  have hcast : ∀ {m n : ℕ}, m < 255 → n < 255 → (m : ZMod 255) = n → m = n := by
    intro m n hm hn hmn
    have hmod := (ZMod.natCast_eq_natCast_iff' m n 255).1 hmn
    rwa [Nat.mod_eq_of_lt hm, Nat.mod_eq_of_lt hn] at hmod
  obtain ⟨h0, h1⟩ := Prod.ext_iff.1 h
  have h0' := UInt16.toNat_inj.1 (hcast hc.c0 hd.c0 h0)
  have h1' := UInt16.toNat_inj.1 (hcast hc.c1 hd.c1 h1)
  obtain ⟨c0, c1⟩ := c
  obtain ⟨d0, d1⟩ := d
  simp only at h0' h1'
  rw [h0', h1']

theorem reduce_spec {c : UInt16} (h : c.toNat < 510) :
    (reduce c).toNat < 255 ∧ ((reduce c).toNat : ZMod 255) = c.toNat := by
  rw [reduce]
  split_ifs with hle
  · have hle' : 255 ≤ c.toNat := UInt16.le_iff_toNat_le.1 hle
    have hsub : (c - 255).toNat = c.toNat - 255 := UInt16.toNat_sub_of_le _ _ hle
    rw [hsub]
    refine ⟨by omega, ?_⟩
    rw [Nat.cast_sub hle']
    have h255 : ((255 : ℕ) : ZMod 255) = 0 := ZMod.natCast_self 255
    rw [h255, sub_zero]
  · have hlt : c.toNat < 255 := by
      by_contra hge
      exact hle (UInt16.le_iff_toNat_le.2 (Nat.le_of_not_lt hge))
    exact ⟨hlt, rfl⟩

theorem add_spec (hc : c.Reduced) (b : UInt8) :
    (c.add b).Reduced ∧ (c.add b).sums = Fletcher.feed c.sums (b.toNat : ZMod 255) := by
  have hb : b.toNat < 256 := b.toNat_lt
  have h0 := hc.c0
  have h1 := hc.c1
  have hsum0 : (c.c0 + b.toUInt16).toNat = c.c0.toNat + b.toNat := by
    rw [UInt16.toNat_add, UInt8.toNat_toUInt16]
    omega
  obtain ⟨hlt0, hcast0⟩ := reduce_spec (c := c.c0 + b.toUInt16) (by omega)
  have hsum1 : (c.c1 + reduce (c.c0 + b.toUInt16)).toNat =
      c.c1.toNat + (reduce (c.c0 + b.toUInt16)).toNat := by
    rw [UInt16.toNat_add]
    omega
  obtain ⟨hlt1, hcast1⟩ := reduce_spec (c := c.c1 + reduce (c.c0 + b.toUInt16)) (by omega)
  refine ⟨⟨hlt0, hlt1⟩, ?_⟩
  rw [hsum0, Nat.cast_add] at hcast0
  rw [hsum1, Nat.cast_add, hcast0] at hcast1
  exact Prod.ext hcast0 hcast1

def residues (l : List UInt8) : List (ZMod 255) := l.map fun b => (b.toNat : ZMod 255)

theorem addBytes_spec (hc : c.Reduced) (l : List UInt8) :
    (c.addBytes l).Reduced ∧ (c.addBytes l).sums = Fletcher.feedAll c.sums (residues l) := by
  induction l generalizing c with
  | nil => exact ⟨hc, rfl⟩
  | cons b l ih =>
    obtain ⟨hadd, hsums⟩ := add_spec hc b
    obtain ⟨hrest, hsums'⟩ := ih hadd
    rw [hsums] at hsums'
    exact ⟨hrest, hsums'⟩

theorem addBytes_append (c : ChecksumFletcher) (l r : List UInt8) :
    c.addBytes (l ++ r) = (c.addBytes l).addBytes r :=
  List.foldl_append

theorem toUInt8_and (b : UInt32) : (b &&& 0xFF).toUInt8 = b.toUInt8 := by
  refine UInt8.toNat_inj.1 ?_
  rw [UInt32.toNat_toUInt8, UInt32.toNat_toUInt8, UInt32.toNat_and]
  have hmask : b.toNat &&& (255 : ℕ) = b.toNat % 2 ^ 8 := Nat.and_two_pow_sub_one_eq_mod b.toNat 8
  show (b.toNat &&& 255) % 2 ^ 8 = _
  rw [hmask, Nat.mod_mod]

theorem addU32_eq (c : ChecksumFletcher) (b : UInt32) : c.addU32 b = c.addBytes (writeU32 b) := by
  rw [addU32, toUInt8_and, toUInt8_and, toUInt8_and]
  rfl

theorem foldl_addU32 (c : ChecksumFletcher) (rs : List UInt32) :
    rs.foldl addU32 c = c.addBytes (rs.flatMap writeU32) := by
  induction rs generalizing c with
  | nil => rfl
  | cons r rs ih => rw [List.foldl_cons, ih, addU32_eq, List.flatMap_cons, addBytes_append]

theorem toNat_finalize (hc : c.Reduced) : c.finalize.toNat = 2 ^ 8 * c.c1.toNat + c.c0.toNat := by
  have h0 := hc.c0
  have h1 := hc.c1
  have hshift : (c.c1 <<< 8).toNat = 2 ^ 8 * c.c1.toNat := by
    rw [UInt16.toNat_shiftLeft, Nat.shiftLeft_eq]
    show c.c1.toNat * 2 ^ 8 % 2 ^ 16 = _
    omega
  rw [finalize, UInt16.toNat_or, hshift, Nat.two_pow_add_eq_or_of_lt (by omega)]

theorem finalize_eq_zero (hc : c.Reduced) : c.finalize = 0 ↔ c.sums = (0, 0) := by
  have htoNat := toNat_finalize hc
  constructor
  · intro h
    rw [h, UInt16.toNat_zero] at htoNat
    have h0 : c.c0.toNat = 0 := by omega
    have h1 : c.c1.toNat = 0 := by omega
    simp [sums, h0, h1]
  · intro h
    have hzero : c = {} := ext_sums hc reduced_zero (by rw [h]; rfl)
    rw [hzero]
    rfl

theorem residues_finalize (hc : c.Reduced) :
    residues (writeU16 c.finalize) = [c.sums.2, c.sums.1] := by
  have h0 := hc.c0
  have h1 := hc.c1
  have htoNat := toNat_finalize hc
  have hhigh : (c.finalize >>> 8).toUInt8.toNat = c.c1.toNat := by
    rw [UInt16.toNat_toUInt8, UInt16.toNat_shiftRight, Nat.shiftRight_eq_div_pow, htoNat]
    show (2 ^ 8 * c.c1.toNat + c.c0.toNat) / 2 ^ 8 % 2 ^ 8 = _
    omega
  have hlow : c.finalize.toUInt8.toNat = c.c0.toNat := by
    rw [UInt16.toNat_toUInt8, htoNat]
    omega
  simp only [residues, writeU16, List.map_cons, List.map_nil, hhigh, hlow, sums]

theorem length_of_feeds {u w : List UInt8}
    (h : ∀ c : ChecksumFletcher, c.Reduced → c.addBytes u = c.addBytes w) :
    (u.length : ZMod 255) = w.length := by
  have hsums : ∀ c : ChecksumFletcher, c.Reduced →
      u.length * c.sums.1 + Fletcher.weighted (residues u) =
        w.length * c.sums.1 + Fletcher.weighted (residues w) := by
    intro c hc
    have hu := (addBytes_spec hc u).2
    have hw := (addBytes_spec hc w).2
    rw [h c hc, hw, Fletcher.feedAll_eq, Fletcher.feedAll_eq] at hu
    have hsecond := (Prod.ext_iff.1 hu).2
    simp only [residues, List.length_map] at hsecond ⊢
    linear_combination -hsecond
  have hzero := hsums {} reduced_zero
  have hone := hsums { c0 := 1 } ⟨by decide, by decide⟩
  have h0 : ({} : ChecksumFletcher).sums.1 = 0 := rfl
  have h1 : ({ c0 := 1 } : ChecksumFletcher).sums.1 = 1 := Nat.cast_one
  rw [h0] at hzero
  rw [h1] at hone
  linear_combination hone - hzero

end ChecksumFletcher

/-! ## What the bodies feed -/

namespace LsaBodyV2

open ChecksumFletcher

variable {body : LsaBodyV2}

/-- `appendChecksum` does to every accumulator what the bytes `w` do. -/
def Feeds (body : LsaBodyV2) (w : List UInt8) : Prop :=
  ∀ c : ChecksumFletcher, c.Reduced → body.appendChecksum c = c.addBytes w

/-- The bodies that feed the bytes they write: the zero bytes of a router LSA and the first word of
    a summary LSA for a router are left out. -/
def FedAsWritten : LsaBodyV2 → Prop
  | .router _ | .summaryRouter _ => False
  | .network _ | .summaryNetwork _ | .opaqueLsa _ => True
  | .external lsa => lsa.isType2 → lsa.metric &&& 0x7FFFFFFF < 0x01000000

theorem toNat_metricWord_high {lsa : ExternalLsaV2} (h2 : lsa.isType2 = true) :
    (lsa.metricWord >>> 24).toUInt8.toNat = 128 + (lsa.metric &&& 0x7FFFFFFF).toNat / 2 ^ 24 := by
  have hmask : (lsa.metric &&& 0x7FFFFFFF).toNat = lsa.metric.toNat % 2 ^ 31 := by
    rw [UInt32.toNat_and]
    exact Nat.and_two_pow_sub_one_eq_mod lsa.metric.toNat 31
  have hlt : (lsa.metric &&& 0x7FFFFFFF).toNat < 2 ^ 31 := by omega
  have hword : lsa.metricWord.toNat = 2 ^ 31 * 1 + (lsa.metric &&& 0x7FFFFFFF).toNat := by
    rw [ExternalLsaV2.metricWord, if_pos h2, UInt32.toNat_or, Nat.two_pow_add_eq_or_of_lt hlt,
      Nat.or_comm]
    rfl
  rw [UInt32.toNat_toUInt8, UInt32.toNat_shiftRight, hword, Nat.shiftRight_eq_div_pow]
  show (2 ^ 31 * 1 + (lsa.metric &&& 0x7FFFFFFF).toNat) / 2 ^ 24 % 2 ^ 8 = _
  omega

def fedExternal (lsa : ExternalLsaV2) : List UInt8 :=
  writeU32 lsa.networkMask ++ writeU32 lsa.metricWord ++ writeU32 lsa.forwardingAddress ++
    writeU32 lsa.routeTag

theorem appendChecksum_external (lsa : ExternalLsaV2) (c : ChecksumFletcher) :
    (LsaBodyV2.external lsa).appendChecksum c = c.addBytes (fedExternal lsa) := by
  simp only [appendChecksum, fedExternal, addU32_eq, addBytes_append]

theorem feeds_external {lsa : ExternalLsaV2} (h2 : lsa.isType2 = true)
    (h : (LsaBodyV2.external lsa).Feeds (LsaBodyV2.external lsa).wire) :
    lsa.metric &&& 0x7FFFFFFF < 0x01000000 := by
  have hfed := (addBytes_spec reduced_zero (fedExternal lsa)).2
  rw [← appendChecksum_external, h {} reduced_zero, (addBytes_spec reduced_zero _).2,
    Fletcher.feedAll_eq, Fletcher.feedAll_eq] at hfed
  have hfirst := (Prod.ext_iff.1 hfed).1
  have hhigh := toNat_metricWord_high h2
  have hlt : (lsa.metric &&& 0x7FFFFFFF).toNat / 2 ^ 24 < 128 := by
    have hbyte := (lsa.metricWord >>> 24).toUInt8.toNat_lt
    omega
  have hcast : ((128 : ℕ) : ZMod 255) =
      ((128 + (lsa.metric &&& 0x7FFFFFFF).toNat / 2 ^ 24 : ℕ) : ZMod 255) := by
    rw [← hhigh]
    simp only [wire, fedExternal, ExternalLsaV2.metricBytes, if_pos h2, residues, List.map_append,
      List.sum_append] at hfirst
    simp [writeU32] at hfirst
    simpa using hfirst
  have hmod := (ZMod.natCast_eq_natCast_iff' _ _ _).1 hcast
  refine UInt32.lt_iff_toNat_lt.2 ?_
  show (lsa.metric &&& 0x7FFFFFFF).toNat < 2 ^ 24
  omega

theorem feeds_wire_iff (hfits : body.Fits) : body.Feeds body.wire ↔ body.FedAsWritten := by
  cases body with
  | router lsa =>
    have hlinks : lsa.links = [] := hfits
    refine iff_of_false (fun h => ?_) not_false
    have happend : ∀ c : ChecksumFletcher,
        (LsaBodyV2.router lsa).appendChecksum c = c.addBytes [lsa.flags, 0, 0] := by
      intro c
      rw [appendChecksum, hlinks]
      rfl
    have hlen := length_of_feeds fun c hc => (happend c).symm.trans (h c hc)
    exact absurd hlen (show ¬ ((3 : ℕ) : ZMod 255) = (4 : ℕ) by decide)
  | network lsa =>
    refine iff_of_true (fun c _ => ?_) trivial
    rw [appendChecksum, foldl_addU32, addU32_eq, ← addBytes_append, wire]
  | summaryNetwork lsa =>
    refine iff_of_true (fun c _ => ?_) trivial
    rw [appendChecksum, addU32_eq, addU32_eq, ← addBytes_append, wire]
  | summaryRouter lsa =>
    refine iff_of_false (fun h => ?_) not_false
    have hlen := length_of_feeds fun c hc => (addU32_eq c _).symm.trans (h c hc)
    exact absurd hlen (show ¬ ((4 : ℕ) : ZMod 255) = (8 : ℕ) by decide)
  | external lsa =>
    constructor
    · intro h h2
      exact feeds_external h2 h
    · intro h c _
      rw [appendChecksum_external, fedExternal, wire]
      cases h2 : lsa.isType2 with
      | false => rw [ExternalLsaV2.metricBytes, h2, if_neg Bool.false_ne_true]
      | true =>
        have hhigh := toNat_metricWord_high h2
        have hsmall : (lsa.metric &&& 0x7FFFFFFF).toNat < 2 ^ 24 := UInt32.lt_iff_toNat_lt.1 (h h2)
        have hbyte : (lsa.metricWord >>> 24).toUInt8 = 0x80 := by
          refine UInt8.toNat_inj.1 (hhigh.trans ?_)
          show 128 + (lsa.metric &&& 0x7FFFFFFF).toNat / 2 ^ 24 = 128
          omega
        have hword : 0x80 :: (writeU32 lsa.metricWord).tail = writeU32 lsa.metricWord := by
          rw [writeU32, hbyte]
          rfl
        rw [ExternalLsaV2.metricBytes, if_pos h2, hword]
  | opaqueLsa lsa => exact iff_of_true (fun c _ => rfl) trivial

end LsaBodyV2

/-! ## What the receiver accepts -/

section
open ChecksumFletcher

variable (h : LsaWireHeader) (body : List UInt8)

theorem emit_drop (checksum : UInt16) :
    (h.emit body checksum).drop 2 = h.before ++ writeU16 checksum ++ afterChecksum body := rfl

/-- The sum of the bytes of the LSA with a zero checksum field, without its age. -/
def byteSum : ℕ := (((h.emit body 0).drop 2).map UInt8.toNat).sum

/-- The sum in which a byte counts as often as there are bytes from it to the end. -/
def weightedSum : ℕ := Fletcher.weighted (((h.emit body 0).drop 2).map UInt8.toNat)

/-- The plain sums are check octets: twice the first and the second cancel, and so does the first
    times the number of bytes that follow the checksum, and five. -/
def Balanced : Prop :=
  255 ∣ 2 * byteSum h body + weightedSum h body ∧ 255 ∣ (body.length + 7) * byteSum h body

theorem sums_zero_checksum :
    (ChecksumFletcher.addBytes {} ((h.emit body 0).drop 2)).sums =
      ((byteSum h body : ZMod 255), (weightedSum h body : ZMod 255)) := by
  have hres : residues ((h.emit body 0).drop 2) =
      (((h.emit body 0).drop 2).map UInt8.toNat).map (Nat.cast : ℕ → ZMod 255) := by
    rw [residues, List.map_map]
    rfl
  have hzero : ({} : ChecksumFletcher).sums = (0, 0) := rfl
  rw [(addBytes_spec reduced_zero _).2, Fletcher.feedAll_eq, hzero, hres, Fletcher.weighted_natCast,
    byteSum, weightedSum, Nat.cast_list_sum, mul_zero, zero_add, zero_add, zero_add]

theorem sums_checksum {checksum : UInt16} {x y : ZMod 255}
    (hoctets : residues (writeU16 checksum) = [x, y]) :
    (ChecksumFletcher.addBytes {} ((h.emit body checksum).drop 2)).sums =
      ((byteSum h body : ZMod 255) + x + y,
        (weightedSum h body : ZMod 255) + (body.length + 4) * x + (body.length + 3) * y) := by
  have hzero : ({} : ChecksumFletcher).sums = (0, 0) := rfl
  have hplain := sums_zero_checksum h body
  have hoctets0 : residues (writeU16 0) = [0, 0] := rfl
  have happend : ∀ u v : List UInt8, residues (u ++ v) = residues u ++ residues v :=
    fun u v => List.map_append
  have hlen : (residues (afterChecksum body)).length = body.length + 2 := by
    simp [residues, afterChecksum, Nat.add_comm]
  rw [(addBytes_spec reduced_zero _).2, Fletcher.feedAll_eq, hzero, emit_drop, happend, happend] at hplain ⊢
  rw [hoctets0] at hplain
  rw [hoctets]
  obtain ⟨hfirst, hsecond⟩ := Prod.ext_iff.1 hplain
  simp only [Fletcher.weighted_append, Fletcher.weighted, List.sum_append, List.sum_cons,
    List.sum_nil, List.length_cons, List.length_nil, hlen] at hfirst hsecond ⊢
  push_cast at hfirst hsecond ⊢
  refine Prod.ext ?_ ?_
  · rw [← hfirst]
    ring
  · rw [← hsecond]
    ring

theorem checkValue_iff :
    (ChecksumFletcher.addBytes {} ((h.emit body (h.checkValue body)).drop 2)).finalize = 0 ↔
      Balanced h body := by
  have hreduced := (addBytes_spec reduced_zero ((h.emit body 0).drop 2)).1
  have hoctets := residues_finalize hreduced
  rw [sums_zero_checksum] at hoctets
  have hdvd : ∀ n : ℕ, 255 ∣ n ↔ (n : ZMod 255) = 0 := fun n => (ZMod.natCast_eq_zero_iff n 255).symm
  rw [finalize_eq_zero (addBytes_spec reduced_zero _).1, LsaWireHeader.checkValue,
    sums_checksum h body hoctets, Prod.mk_inj, Balanced, hdvd, hdvd]
  push_cast
  constructor
  · rintro ⟨hfirst, hsecond⟩
    refine ⟨by linear_combination hfirst, ?_⟩
    linear_combination (body.length + 5) * hfirst - hsecond
  · rintro ⟨hfirst, hsecond⟩
    refine ⟨by linear_combination hfirst, ?_⟩
    linear_combination (body.length + 5) * hfirst - hsecond

theorem length_emit (checksum : UInt16) : (h.emit body checksum).length = 20 + body.length := by
  simp only [LsaWireHeader.emit, LsaWireHeader.before, afterChecksum, List.length_append,
    length_writeU16, length_writeU32, List.length_cons, List.length_nil]
  omega

/-- **The receiver's test** of an LSA that was sent with its check value. -/
theorem verify_emit_iff (hlen : body.length < 65536) :
    verifyOspfFletcher (h.emit body (h.checkValue body)) (20 + UInt16.ofNat body.length) = true ↔
      20 + body.length < 65536 ∧ Balanced h body := by
  have htoNat : (20 + UInt16.ofNat body.length).toNat = (20 + body.length) % 65536 := by
    rw [UInt16.toNat_add, UInt16.toNat_ofNat']
    show (20 + body.length % 65536) % 65536 = _
    omega
  rw [verifyOspfFletcher]
  by_cases hwrap : 20 + body.length < 65536
  · rw [Nat.mod_eq_of_lt hwrap] at htoNat
    have hlarge : ¬ 20 + UInt16.ofNat body.length < 20 := by
      intro hlt
      have hlt' := UInt16.lt_iff_toNat_lt.1 hlt
      rw [htoNat] at hlt'
      exact absurd hlt' (by simp)
    have htake : ((h.emit body (h.checkValue body)).drop 2).take
        ((20 + UInt16.ofNat body.length).toNat - 2) = (h.emit body (h.checkValue body)).drop 2 := by
      rw [List.take_of_length_le]
      rw [List.length_drop, length_emit, htoNat]
    rw [if_neg hlarge, htake, decide_eq_true_iff, checkValue_iff, and_iff_right hwrap]
  · have hsmall : 20 + UInt16.ofNat body.length < 20 := by
      refine UInt16.lt_iff_toNat_lt.2 ?_
      rw [htoNat]
      show (20 + body.length) % 65536 < 20
      omega
    rw [if_pos hsmall]
    exact iff_of_false nofun fun hand => hwrap hand.1

end

/-! ## Agreement -/

/-- The body feeds what it writes, and the LSA that is sent with its check value is accepted. -/
def ChecksumAgrees (h : LsaWireHeader) (body : LsaBodyV2) : Prop :=
  ∃ w : List UInt8, w.length = body.size.toNat ∧
    (∀ buf : List UInt8, body.size.toNat ≤ buf.length →
      body.buildBody buf body.size = .ok (written w buf)) ∧
    body.Feeds w ∧
    verifyOspfFletcher (h.emit w (h.checkValue w)) (20 + UInt16.ofNat w.length) = true

theorem ChecksumAgrees.wire {h : LsaWireHeader} {body : LsaBodyV2} (hagree : ChecksumAgrees h body) :
    body.Fits ∧ body.Feeds body.wire ∧ body.wire.length < 65536 ∧
      verifyOspfFletcher (h.emit body.wire (h.checkValue body.wire))
        (20 + UInt16.ofNat body.wire.length) = true := by
  obtain ⟨w, hlen, hbuild, hfeeds, hverify⟩ := hagree
  have hok := hbuild (List.replicate body.size.toNat 0) (by simp)
  have hfits : body.Fits := by
    by_contra hfits
    rw [LsaBodyV2.buildBody_not_fits hfits] at hok
    cases hok
  have hwire := LsaBodyV2.length_wire hfits
  have hw : w = body.wire := by
    rw [LsaBodyV2.buildBody_fits hfits (by simp)] at hok
    have heq := Except.ok.inj hok
    rw [written, written, hlen, hwire] at heq
    exact (List.append_cancel_right heq).symm
  rw [hw] at hfeeds hverify
  exact ⟨hfits, hfeeds, hwire ▸ body.size.toNat_lt, hverify⟩

/-- **The checksum of an LSA**: sender and receiver agree if and only if the body is written, feeds
    every byte it writes, fits with its header and is balanced. -/
theorem checksumAgrees_iff (h : LsaWireHeader) (body : LsaBodyV2) :
    ChecksumAgrees h body ↔
      body.Fits ∧ body.FedAsWritten ∧ 20 + body.size.toNat < 65536 ∧ Balanced h body.wire := by
  constructor
  · intro hagree
    obtain ⟨hfits, hfeeds, hlt, hverify⟩ := hagree.wire
    rw [verify_emit_iff h _ hlt, LsaBodyV2.length_wire hfits] at hverify
    exact ⟨hfits, (LsaBodyV2.feeds_wire_iff hfits).1 hfeeds, hverify⟩
  · rintro ⟨hfits, hfed, hverify⟩
    have hlen := LsaBodyV2.length_wire hfits
    have hlt : body.wire.length < 65536 := hlen ▸ body.size.toNat_lt
    refine ⟨body.wire, hlen, fun buf hbuf => LsaBodyV2.buildBody_fits hfits hbuf,
      (LsaBodyV2.feeds_wire_iff hfits).2 hfed, ?_⟩
    rw [verify_emit_iff h _ hlt, hlen]
    exact hverify

/-- A summary LSA for 10.0.0.0/24 is refused by its receiver. -/
theorem not_checksumAgrees_summary : ¬ ∀ (h : LsaWireHeader) (body : LsaBodyV2),
    body.InWireRange → ChecksumAgrees h body := by
  intro hall
  have hagree := hall
    { age := 1, options := 2, type := 3, lsID := 0x0A000000, advRouter := 0x01010101,
      seqNum := 0x80000001 }
    (.summaryNetwork { networkMask := 0xFFFFFF00, metric := 20 })
    (show (20 : UInt32) < 0x01000000 by decide)
  obtain ⟨-, -, hlt, hverify⟩ := hagree.wire
  rw [verify_emit_iff _ _ hlt] at hverify
  exact absurd hverify.2.1 (by decide)

end VirtualRouter.Ospf
