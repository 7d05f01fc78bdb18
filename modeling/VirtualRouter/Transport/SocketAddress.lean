/-
  Socket addresses (`transport/tcp/TcpTypes.hpp`), on a little-endian host.

  * `TcpIpAdapter.writeSocketaddr`, `TcpIpAdapter.readSockaddr`: an address and a port in
    a `sockaddr_storage`;
  * `TcpIpAdapter.RoundTrips`: they come back, and the bytes are in network order;
  * `TcpIpAdapter.sockaddr_roundTrips_iff`: so it is for IPv6, and for the IPv4 addresses that read
    the same from both ends.

  An IPv6 address is copied byte by byte, most significant first, and an IPv4 address is
  stored as the integer that it is.
-/
import VirtualRouter.Bgp.PathAttributes

namespace VirtualRouter.Transport

open Bytes Utils Bgp

/-! ## Host order -/

/-- A `uint16_t` in memory. -/
def storeU16 (v : UInt16) : List UInt8 := [v.toUInt8, (v >>> 8).toUInt8]

def storeU32 (v : UInt32) : List UInt8 :=
  [v.toUInt8, (v >>> 8).toUInt8, (v >>> 16).toUInt8, (v >>> 24).toUInt8]

def loadU16 (p : BytePtr) : UInt16 := (p 0).toUInt16 ||| (p 1).toUInt16 <<< 8

/-- `htons`, and `ntohs`. -/
def htons (v : UInt16) : UInt16 := v <<< 8 ||| v >>> 8

/-- The bytes read the same from both ends. -/
def Palindrome (v : UInt32) : Prop :=
  (v >>> 24).toUInt8 = v.toUInt8 ∧ (v >>> 16).toUInt8 = (v >>> 8).toUInt8

instance (v : UInt32) : Decidable (Palindrome v) := inferInstanceAs (Decidable (_ ∧ _))

/-- `v6raw`: the byte `i` in network order is the byte `15 - i` in memory. -/
def v6raw (raw : BitVec 128) : List UInt8 :=
  (List.range 16).map fun i => UInt8.ofBitVec ((raw >>> (8 * (15 - i))).setWidth 8)

def readU128 (p : BytePtr) : BitVec 128 :=
  (List.range 16).foldl (fun result i => result <<< 8 ||| (p i).toBitVec.setWidth 128) 0

/-! ## The adapter -/

namespace TcpIpAdapter

def AF_INET : UInt16 := 2

def AF_INET6 : UInt16 := 10

def af (ip : IPAddress) : UInt16 := if ip.isIPv4 then AF_INET else AF_INET6

def storageSize : ℕ := 128

/-- The address as it is written: `sin_addr`, or `sin6_addr`. -/
def addressBytes (ip : IPAddress) : List UInt8 :=
  if ip.isIPv4 then storeU32 ip.v4 else v6raw ip.raw

/-- The members of the structure, from `sin_family` or `sin6_family` on. -/
def members (ip : IPAddress) (port : UInt16) : List UInt8 :=
  storeU16 (af ip) ++ storeU16 (htons port) ++
    if ip.isIPv4 then addressBytes ip ++ List.replicate 8 0
    else List.replicate 4 0 ++ addressBytes ip ++ List.replicate 4 0

/-- `writeSocketaddr`: the storage and the length of the structure in it. -/
def writeSocketaddr (ip : IPAddress) (port : UInt16) : List UInt8 × ℕ :=
  let bytes := members ip port
  (bytes ++ List.replicate (storageSize - bytes.length) 0, bytes.length)

/-- `readSockaddr`; `none` leaves the address and the port as they were. -/
def readSockaddr (p : BytePtr) : Option (IPAddress × UInt16) :=
  if loadU16 p = AF_INET then
    some (IPAddress.ofV4 (readU32 (p.add 4)), htons (loadU16 (p.add 2)))
  else if loadU16 p = AF_INET6 then some (⟨readU128 (p.add 8)⟩, htons (loadU16 (p.add 2)))
  else none

/-! ## Round trip -/

def networkBytes (ip : IPAddress) : List UInt8 :=
  if ip.isIPv4 then writeU32 ip.v4 else (List.range 16).map fun i =>
    UInt8.ofBitVec (ip.raw.extractLsb' (8 * (15 - i)) 8)

def addressOffset (ip : IPAddress) : ℕ := if ip.isIPv4 then 4 else 8

/-- What was written is read back, and the address is in network order. -/
structure RoundTrips (ip : IPAddress) (port : UInt16) : Prop where
  read : readSockaddr (ofList (writeSocketaddr ip port).1) = some (ip, port)
  network : Holds ((ofList (writeSocketaddr ip port).1).add (addressOffset ip)) (networkBytes ip)

theorem loadU16_holds {p : BytePtr} {v : UInt16} (h : Holds p (storeU16 v)) : loadU16 p = v := by
  simp only [storeU16, holds_cons, add_apply] at h
  obtain ⟨h0, h1, -⟩ := h
  rw [loadU16, h0, h1]
  apply UInt16.toBitVec_inj.mp
  ext i hi
  simp [-UInt16.toUInt16_toUInt8]
  grind

theorem htons_htons (v : UInt16) : htons (htons v) = v := by
  apply UInt16.toBitVec_inj.mp
  ext i hi
  simp [htons]
  grind

theorem foldl_v6raw {p : BytePtr} {raw : BitVec 128} (h : Holds p (v6raw raw)) {k : ℕ} (hk : k ≤ 16) :
    (List.range k).foldl (fun (result : BitVec 128) (i : ℕ) =>
      result <<< 8 ||| (p i).toBitVec.setWidth 128) 0 = raw >>> (128 - 8 * k) := by
  induction k with
  | zero =>
    apply BitVec.eq_of_getLsbD_eq
    intro i hi
    simp
  | succ k ih =>
    have hbyte : p k = UInt8.ofBitVec ((raw >>> (8 * (15 - k))).setWidth 8) := by
      have hp := h k (by simpa [v6raw] using hk)
      rw [hp, List.getD_eq_getElem _ _ (by simpa [v6raw] using hk)]
      simp [v6raw]
    rw [List.range_succ, List.foldl_append, ih (by omega), List.foldl_cons, List.foldl_nil, hbyte]
    apply BitVec.eq_of_getLsbD_eq
    intro i hi
    simp only [BitVec.getLsbD_or, BitVec.getLsbD_shiftLeft, BitVec.getLsbD_ushiftRight,
      BitVec.getLsbD_setWidth]
    by_cases hi8 : i < 8
    · have hsum : 8 * (15 - k) + i = 128 - 8 * (k + 1) + i := by omega
      simp [hi, hi8, hsum]
    · have hsum : 128 - 8 * k + (i - 8) = 128 - 8 * (k + 1) + i := by omega
      simp [hi, hi8, hsum]

theorem readU128_holds {p : BytePtr} {raw : BitVec 128} (h : Holds p (v6raw raw)) :
    readU128 p = raw := by
  rw [readU128, foldl_v6raw h le_rfl]
  simp

theorem storeU32_eq_writeU32_iff (v : UInt32) : storeU32 v = writeU32 v ↔ Palindrome v := by
  simp only [storeU32, writeU32, Palindrome, List.cons.injEq, and_true]
  constructor
  · rintro ⟨h0, h1, -, -⟩
    exact ⟨h0.symm, h1.symm⟩
  · rintro ⟨h0, h1⟩
    exact ⟨h0.symm, h1.symm, h1, h0⟩

theorem holds_members (ip : IPAddress) (port : UInt16) :
    Holds (ofList (writeSocketaddr ip port).1) (members ip port) :=
  (holds_ofList _).left

theorem loadU16_family (ip : IPAddress) (port : UInt16) :
    loadU16 (ofList (writeSocketaddr ip port).1) = af ip :=
  loadU16_holds (holds_members ip port).left.left

theorem htons_loadU16_port (ip : IPAddress) (port : UInt16) :
    htons (loadU16 ((ofList (writeSocketaddr ip port).1).add 2)) = port := by
  have hport : loadU16 ((ofList (writeSocketaddr ip port).1).add 2) = htons port :=
    loadU16_holds (holds_members ip port).left.right
  rw [hport, htons_htons]

theorem holds_addressBytes (ip : IPAddress) (port : UInt16) :
    Holds ((ofList (writeSocketaddr ip port).1).add (addressOffset ip)) (addressBytes ip) := by
  have h := (holds_members ip port).right
  cases hv : ip.isIPv4 with
  | true =>
    rw [if_pos hv] at h
    simpa [addressOffset, hv, storeU16] using h.left
  | false =>
    rw [if_neg (by simp [hv])] at h
    simpa [addressOffset, hv, storeU16] using h.left.right

theorem networkBytes_ipv6 {ip : IPAddress} (hv : ip.isIPv4 = false) :
    networkBytes ip = addressBytes ip := by
  rw [networkBytes, addressBytes, hv]
  rfl

theorem roundTrips_ipv6 {ip : IPAddress} (hv : ip.isIPv4 = false) (port : UInt16) :
    RoundTrips ip port := by
  have haddr := holds_addressBytes ip port
  constructor
  · have hoff : addressOffset ip = 8 := by rw [addressOffset, hv]; rfl
    have hbytes : addressBytes ip = v6raw ip.raw := by rw [addressBytes, hv]; rfl
    rw [hoff, hbytes] at haddr
    have haf : af ip = AF_INET6 := by rw [af, hv]; rfl
    rw [readSockaddr, loadU16_family, htons_loadU16_port, haf, if_neg (by decide), if_pos rfl,
      readU128_holds haddr]
  · rw [networkBytes_ipv6 hv]
    exact haddr

theorem roundTrips_ipv4 {ip : IPAddress} (hv : ip.isIPv4 = true) (port : UInt16) :
    RoundTrips ip port ↔ Palindrome ip.v4 := by
  have haddr := holds_addressBytes ip port
  have hoff : addressOffset ip = 4 := by rw [addressOffset, hv]; rfl
  have hbytes : addressBytes ip = storeU32 ip.v4 := by rw [addressBytes, hv]; rfl
  have hnet : networkBytes ip = writeU32 ip.v4 := by rw [networkBytes, hv]; rfl
  rw [hbytes] at haddr
  constructor
  · intro h
    have hnetwork := h.network
    rw [hnet] at hnetwork
    rw [← storeU32_eq_writeU32_iff, ← haddr.take_eq, ← hnetwork.take_eq]
    rfl
  · intro h
    rw [(storeU32_eq_writeU32_iff _).mpr h] at haddr
    constructor
    · have haf : af ip = AF_INET := by rw [af, hv]; rfl
      rw [hoff] at haddr
      rw [readSockaddr, loadU16_family, htons_loadU16_port, haf, if_pos rfl, readU32_holds haddr,
        (IPAddress.ofV4_v4_iff ip).mpr hv]
    · rw [hnet]
      exact haddr

/-- An address comes back, in network order on the way, if it is IPv6 or a palindrome. -/
theorem sockaddr_roundTrips_iff (ip : IPAddress) (port : UInt16) :
    RoundTrips ip port ↔ ip.isIPv4 = false ∨ Palindrome ip.v4 := by
  cases hv : ip.isIPv4 with
  | true => simpa using roundTrips_ipv4 hv port
  | false => simpa using roundTrips_ipv6 hv port

/-- `10.0.0.1` goes out as `01 00 00 0a`, and comes back as `1.0.0.10`. -/
theorem not_sockaddr_roundTrips :
    readSockaddr (ofList (writeSocketaddr (IPAddress.ofV4 0x0A000001) 179).1) =
        some (IPAddress.ofV4 0x0100000A, 179) ∧
      ¬ ∀ (ip : IPAddress) (port : UInt16), RoundTrips ip port := by
  refine ⟨by decide, fun h => ?_⟩
  have hread := (h (IPAddress.ofV4 0x0A000001) 179).read
  revert hread
  decide

end TcpIpAdapter

end VirtualRouter.Transport
