/-
  The codec of an IPv4 prefix on its own (`ExampleNlri` in `routing/bgp/af/Nlri.hpp`).

  * `ExampleNlri.readBytes`: the loop with its `shift`, which goes below 0 after four bytes;
  * `ExampleNlri.decodeNlri`: a prefix from a buffer of which nothing is known;
    `decodeNlri_eq` relates it to the one that stays in its span;
  * `ExampleNlri.codec_iff`: of all networks five come back, and a buffer is read as it should be
    only if the address repeats the length byte.

  What comes back is `n` where the address is read from the length byte on.
-/
import VirtualRouter.Bgp.UpdateRoundTrip

namespace VirtualRouter.Bgp

open Bytes Utils

namespace ExampleNlri

/-! ## The decoder -/

/-- `T(p[i]) << shift`; from the width of the type on the result is undefined. -/
def shl (v : UInt32) (shift : UInt64) : Option UInt32 :=
  if shift < 32 then some (v <<< shift.toUInt32) else none

/-- The rounds of `readBytes` from `i` on. -/
def readBytesFrom (p : BytePtr) : ℕ → ℕ → UInt32 → UInt64 → Option UInt32
  | 0, _, val, _ => some val
  | n + 1, i, val, shift => do
    let byte ← shl (p i).toUInt32 shift
    readBytesFrom p n (i + 1) (val ||| byte) (shift - 8)

/-- `readBytes<uint32_t>`, with a `shift` of type `size_t`. -/
def readBytes (p : BytePtr) (n : ℕ) : Option UInt32 := readBytesFrom p n 0 0 24

/-- `decodeNlri`: the prefix and the number of bytes consumed, 0 of which stands for an error. -/
def decodeNlri (buf : BytePtr) : Option (IPv4Prefix × ℕ) := do
  let prefixLength := buf 0
  let bytes := prefixBytes prefixLength
  let addr ← readBytes buf bytes
  return (⟨addr, prefixLength⟩, 1 + bytes)

/-! ## What is expected of it -/

/-- `v4Mask`: the bits of the network. -/
def v4Mask (len : UInt8) : UInt32 := if len = 0 then 0 else 0xFFFFFFFF <<< (32 - len.toUInt32)

def HostBitsZero (n : IPv4Prefix) : Prop := n.addr &&& v4Mask n.prefixLength = n.addr

instance (n : IPv4Prefix) : Decidable (HostBitsZero n) := inferInstanceAs (Decidable (_ = _))

/-- Where a prefix was written, it is read, and no more than it. -/
def RoundTrips (n : IPv4Prefix) : Prop :=
  ∀ buf, Holds buf (encodeNlri n) → decodeNlri buf = some (n, nlriEncodedSize n)

/-- The big-endian value of the bytes behind the length byte, in the high positions. -/
def addressValue (buf : BytePtr) : UInt32 :=
  readU32 fun i => if i < prefixBytes (buf 0) then buf (i + 1) else 0

/-- A length of more than 32 bits is rejected, and otherwise the address is the one in the buffer. -/
def ReadsAddress (buf : BytePtr) : Prop :=
  ∃ n c, decodeNlri buf = some (n, c) ∧ (32 < buf 0 ∧ c = 0 ∨ n.addr = addressValue buf)

/-- The networks whose address repeats the length. -/
def survivors : List IPv4Prefix :=
  [⟨0, 0⟩, ⟨0x08000000, 8⟩, ⟨0x10100000, 16⟩, ⟨0x18181800, 24⟩, ⟨0x20202020, 32⟩]

/-! ## The loop -/

theorem readBytes_of_le (p : BytePtr) {n : ℕ} (hn : n ≤ 4) :
    readBytes p n = some (Bgp.readBytes p n) := by
  have hcases : n = 0 ∨ n = 1 ∨ n = 2 ∨ n = 3 ∨ n = 4 := by omega
  rcases hcases with rfl | rfl | rfl | rfl | rfl <;> rfl

theorem readBytes_of_gt (p : BytePtr) {n : ℕ} (hn : 4 < n) : readBytes p n = none := by
  obtain ⟨m, rfl⟩ : ∃ m, n = m + 5 := ⟨n - 5, by omega⟩
  rfl

theorem prefixBytes_le_iff (len : UInt8) : prefixBytes len ≤ 4 ↔ len ≤ 32 := by
  rw [prefixBytes, UInt8.le_iff_toNat_le]
  show _ ↔ len.toNat ≤ 32
  omega

theorem decodeNlri_of_le {buf : BytePtr} (h : buf 0 ≤ 32) :
    decodeNlri buf =
      some (⟨Bgp.readBytes buf (prefixBytes (buf 0)), buf 0⟩, 1 + prefixBytes (buf 0)) := by
  rw [decodeNlri, readBytes_of_le _ ((prefixBytes_le_iff _).mpr h)]
  rfl

theorem decodeNlri_of_gt {buf : BytePtr} (h : ¬ buf 0 ≤ 32) : decodeNlri buf = none := by
  rw [← prefixBytes_le_iff, not_le] at h
  rw [decodeNlri, readBytes_of_gt _ h]
  rfl

theorem decodeNlri_eq {data : List UInt8} {pos : ℕ}
    (h : pos + (1 + prefixBytes (ofList data pos)) ≤ data.length) :
    Bgp.decodeNlri data pos =
      match decodeNlri ((ofList data).add pos) with
      | some r => .ok r
      | none => .error .outside := by
  rw [Bgp.decodeNlri, rd8_ok (by omega), ok_bind]
  by_cases hlen : ofList data pos ≤ 32
  · have hk := (prefixBytes_le_iff _).mpr hlen
    rw [decodeNlri_of_le hlen]
    simp only [not_lt.2 hk, if_false]
    rw [readAt_ok (by omega), ok_bind]
    rfl
  · have hk := (prefixBytes_le_iff _).not.mpr hlen
    rw [decodeNlri_of_gt hlen]
    simp only [not_le.1 hk, if_true]

/-! ## Round trip -/

theorem readBytes_eq_addressValue_iff {buf : BytePtr} (h : buf 0 ≤ 32) :
    Bgp.readBytes buf (prefixBytes (buf 0)) = addressValue buf ↔
      ∀ i < prefixBytes (buf 0), buf (i + 1) = buf 0 := by
  have hk := (prefixBytes_le_iff _).mpr h
  rw [readBytes_eq _ hk, addressValue, eq_readU32_iff, writeU32_readU32]
  obtain ⟨k, hkeq⟩ : ∃ k, k = prefixBytes (buf 0) := ⟨_, rfl⟩
  rw [← hkeq] at hk ⊢
  have hcases : k = 0 ∨ k = 1 ∨ k = 2 ∨ k = 3 ∨ k = 4 := by omega
  rcases hcases with rfl | rfl | rfl | rfl | rfl <;> simp [Nat.forall_lt_succ_right] <;> grind

theorem readsAddress_iff (buf : BytePtr) :
    ReadsAddress buf ↔ buf 0 ≤ 32 ∧ ∀ i < prefixBytes (buf 0), buf (i + 1) = buf 0 := by
  constructor
  · rintro ⟨n, c, hdecode, h⟩
    by_cases hlen : buf 0 ≤ 32
    · rw [decodeNlri_of_le hlen, Option.some.injEq, Prod.mk.injEq] at hdecode
      obtain ⟨rfl, rfl⟩ := hdecode
      rcases h with ⟨hgt, -⟩ | haddr
      · exact absurd hlen (UInt8.not_le.mpr hgt)
      · exact ⟨hlen, (readBytes_eq_addressValue_iff hlen).mp haddr⟩
    · rw [decodeNlri_of_gt hlen] at hdecode
      exact absurd hdecode (by simp)
  · rintro ⟨hlen, hsame⟩
    exact ⟨_, _, decodeNlri_of_le hlen, Or.inr ((readBytes_eq_addressValue_iff hlen).mpr hsame)⟩

theorem decodeNlri_holds {n : IPv4Prefix} (hn : n.prefixLength ≤ 32) {buf : BytePtr}
    (h : Holds buf (encodeNlri n)) : decodeNlri buf = some (reread n, nlriEncodedSize n) := by
  have hfirst : buf 0 = n.prefixLength := h 0 (by simp [encodeNlri])
  have hk := prefixBytes_le hn
  have haddr : Bgp.readBytes buf (prefixBytes n.prefixLength) =
      Bgp.readBytes (ofList (encodeNlri n)) (prefixBytes n.prefixLength) := by
    refine readBytes_congr hk fun i hi => h i ?_
    rw [length_encodeNlri, nlriEncodedSize]
    omega
  rw [decodeNlri_of_le (hfirst ▸ hn), hfirst, haddr]
  rfl

theorem roundTrips_iff_repeats {n : IPv4Prefix} (hn : n.prefixLength ≤ 32) :
    RoundTrips n ↔ n.Repeats := by
  rw [← reread_eq_iff hn]
  constructor
  · intro h
    have hread := h _ (holds_ofList _)
    rw [decodeNlri_holds hn (holds_ofList _), Option.some.injEq, Prod.mk.injEq] at hread
    exact hread.1
  · intro h buf hbuf
    rw [decodeNlri_holds hn hbuf, h]

theorem repeats_iff_survivors {n : IPv4Prefix} (hn : n.prefixLength ≤ 32) (hhost : HostBitsZero n) :
    n.Repeats ↔ n ∈ survivors := by
  -- a prefix that repeats its length is determined by it
  have hall : ∀ len : Fin 33,
      let m : IPv4Prefix := ⟨Bgp.readBytes (fun _ => UInt8.ofNat len) (prefixBytes (UInt8.ofNat len)),
        UInt8.ofNat len⟩
      HostBitsZero m → m ∈ survivors := by decide +kernel
  constructor
  · intro hrep
    have hlt : n.prefixLength.toNat < 33 := by
      have := UInt8.le_iff_toNat_le.mp hn
      simp only [UInt8.toNat_ofNat] at this
      omega
    have hlen : UInt8.ofNat n.prefixLength.toNat = n.prefixLength := UInt8.ofNat_toNat
    have hm := hall ⟨_, hlt⟩
    simp only [hlen] at hm
    have hn' : (⟨Bgp.readBytes (fun _ => n.prefixLength) (prefixBytes n.prefixLength), n.prefixLength⟩ :
        IPv4Prefix) = n := by
      obtain ⟨addr, len⟩ := n
      exact congrArg (IPv4Prefix.mk · len) hrep.symm
    rw [hn'] at hm
    exact hm hhost
  · intro hmem
    have hrep : ∀ m ∈ survivors, m.Repeats := by decide
    exact hrep n hmem

/-- **The codec of a prefix**: of all networks five come back, and of all buffers those are read as
    they should be in which the length is at most 32 and all bytes of the address are equal to it. -/
theorem codec_iff (n : IPv4Prefix) (hn : n.prefixLength ≤ 32) (hhost : HostBitsZero n)
    (buf : BytePtr) :
    (RoundTrips n ↔ n ∈ survivors) ∧
      (ReadsAddress buf ↔ buf 0 ≤ 32 ∧ ∀ i < prefixBytes (buf 0), buf (i + 1) = buf 0) :=
  ⟨(roundTrips_iff_repeats hn).trans (repeats_iff_survivors hn hhost), readsAddress_iff buf⟩

theorem codec_iff_loopback :
    (RoundTrips ⟨0x7F000000, 8⟩ ↔ (⟨0x7F000000, 8⟩ : IPv4Prefix) ∈ survivors) ∧
      (ReadsAddress (ofList [8, 127]) ↔ ofList [8, 127] 0 ≤ 32 ∧
        ∀ i < prefixBytes (ofList [8, 127] 0), ofList [8, 127] (i + 1) = ofList [8, 127] 0) :=
  codec_iff _ (by decide) (by decide) _

/-- `10.0.0.0/8` goes out as `08 0a` and comes back as `8.0.0.0/8`; a length of 255 is not rejected. -/
theorem not_codec :
    decodeNlri (ofList (encodeNlri ⟨0x0A000000, 8⟩)) = some (⟨0x08000000, 8⟩, 2) ∧
      (¬ ∀ n : IPv4Prefix, n.prefixLength ≤ 32 → HostBitsZero n → RoundTrips n) ∧
      ¬ ∀ buf, ReadsAddress buf := by
  refine ⟨by decide, fun h => ?_, fun h => ?_⟩
  · have hread := h ⟨0x0A000000, 8⟩ (by decide) (by decide) _ (holds_ofList _)
    revert hread
    decide
  · obtain ⟨n, c, hdecode, -⟩ := h fun _ => 255
    revert hdecode
    rw [decodeNlri_of_gt (by decide)]
    simp

end ExampleNlri

end VirtualRouter.Bgp
