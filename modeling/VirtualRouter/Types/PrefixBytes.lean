/-
  Prefixes made of wire bytes (`types/IPAddress.cpp`, `utils/ByteUtils.hpp`).

  `readBytes` takes a number of bytes, and the constructors give it a number of
  bits: it reads eight times the bytes of the prefix, or goes on until its
  `shift` falls below 0, where the shift is undefined.

  * `Reading`: a value with the number of bytes read for it;
  * `count_readBytes`: how far the loop reads;
  * `readBytes_some`, `readBytes_none`: what it makes of no more bytes than the type has,
    and that it makes nothing of more;
  * `IPv6Prefix.fromBytes_short`, `IPv6Prefix.fromBytes_long`: what is read for an IPv6 prefix;
  * `fromBytes_iff`: a constructor that masks the address reads what it should
    only for the length 0; one that keeps the address reads all of its bytes,
    which is right if the length ends in the last one and the rest is 0.
-/
import VirtualRouter.Lib.Bytes
import VirtualRouter.Types.IPPrefix

namespace VirtualRouter.Types

open Bytes PrefixMap

/-! ## Reading -/

/-- What is made of the first `count` bytes; `none` after an undefined shift. -/
structure Reading (α : Type) where
  count : ℕ
  value : Option α
  deriving DecidableEq

def Reading.map {α β : Type} (f : α → β) (r : Reading α) : Reading β := ⟨r.count, r.value.map f⟩

def Reading.bind {α β : Type} (r : Reading α) (f : α → Option β) : Reading β :=
  ⟨r.count, r.value.bind f⟩

/-- The rounds of `readBytes` from `i` on, with its `shift` of type `size_t`. -/
def readBytesFrom (w : ℕ) (p : BytePtr) : ℕ → ℕ → BitVec w → UInt64 → Reading (BitVec w)
  | 0, i, val, _ => ⟨i, some val⟩
  | n + 1, i, val, shift =>
    match shl ((p i).toBitVec.setWidth w) shift.toNat with
    | none => ⟨i + 1, none⟩
    | some byte => readBytesFrom w p n (i + 1) (val ||| byte) (shift - 8)

/-- `readBytes<T>`, for a type of `w` bits. -/
def readBytes (w : ℕ) (p : BytePtr) (n : ℕ) : Reading (BitVec w) :=
  readBytesFrom w p n 0 0 (UInt64.ofNat (w - 8))

def bigEndian (l : List UInt8) : ℕ := l.foldl (fun v b => v * 256 + b.toNat) 0

/-- `readU32` and `readU128`: all bytes of a type of `w` bits. -/
def readWord (w : ℕ) (p : BytePtr) : Reading (BitVec w) :=
  ⟨w / 8, some (BitVec.ofNat w (bigEndian (p.take (w / 8))))⟩

/-! ## The constructors -/

/-- `(prefix + 7) / 8`. -/
def prefixBytes (len : UInt8) : ℕ := (len.toNat + 7) / 8

/-- The address of `addPrefixLen`. -/
def maskLen {w : ℕ} (addr : BitVec w) (len : UInt8) : Option (BitVec w) :=
  if len = 0 then some 0 else (highBits w len).map (addr &&& ·)

/-- `addPrefixLen` of the three classes; that of `IPv6Prefix` leaves the length. -/
def IPv4Prefix.addPrefixLen (p : IPv4Prefix) (len : UInt8) : Option IPv4Prefix :=
  (maskLen p.addr len).map fun addr => ⟨addr, len⟩

def IPv6Prefix.addPrefixLen (p : IPv6Prefix) (len : UInt8) : Option IPv6Prefix :=
  (maskLen p.addr len).map fun addr => { p with addr := addr }

def IPPrefix.addPrefixLen (p : IPPrefix) (len : UInt8) : Option IPPrefix :=
  if isIPv4 p.addr then (maskLen (v4 p.addr) len).map fun addr => ⟨ofV4 addr, len⟩
  else (maskLen p.addr len).map fun addr => ⟨addr, len⟩

/-- `IPv4Prefix(bytes, prefix, maintainAddress)`. -/
def IPv4Prefix.fromBytes (p : BytePtr) (len : UInt8) (maintainAddress : Bool) : Reading IPv4Prefix :=
  if maintainAddress then (readWord 32 p).map fun addr => ⟨addr, len⟩
  else (readBytes 32 p (prefixBytes len * 8)).bind fun addr =>
    ({ addr := addr } : IPv4Prefix).addPrefixLen len

/-- `IPv6Prefix(bytes, prefix, maintainAddress)`. -/
def IPv6Prefix.fromBytes (p : BytePtr) (len : UInt8) (maintainAddress : Bool) : Reading IPv6Prefix :=
  if maintainAddress then (readWord 128 p).map fun addr => ⟨addr, len⟩
  else (readBytes 128 p (prefixBytes len * 8)).bind fun addr =>
    ({ addr := addr } : IPv6Prefix).addPrefixLen len

inductive AddressFamily where
  | IPv4
  | IPv6
  deriving DecidableEq, Repr

/-- `IPPrefix(ip, prefix, family, maintainAddress)`. -/
def IPPrefix.fromBytes (p : BytePtr) (len : UInt8) (family : AddressFamily) (maintainAddress : Bool) :
    Reading IPPrefix :=
  match family with
  | .IPv4 =>
    if maintainAddress then (readWord 32 p).map fun addr => ⟨ofV4 addr, len⟩
    else (readBytes 32 p (prefixBytes len * 8)).bind fun addr =>
      ({ addr := ofV4 addr } : IPPrefix).addPrefixLen len
  | .IPv6 =>
    if maintainAddress then (readWord 128 p).map fun addr => ⟨addr, len⟩
    else (readBytes 128 p (prefixBytes len * 8)).bind fun addr =>
      ({ addr := addr } : IPPrefix).addPrefixLen len

/-! ## What is expected of them -/

/-- The first bytes, left-aligned, with the bits beyond the length cleared. -/
def networkAddress (w : ℕ) (p : BytePtr) (len : UInt8) : BitVec w :=
  mask (BitVec.ofNat w (bigEndian (p.take (prefixBytes len))) <<< (w - 8 * prefixBytes len))
    len.toNat

def IPv4Prefix.ReadsPrefix (p : BytePtr) (len : UInt8) (maintainAddress : Bool) : Prop :=
  fromBytes p len maintainAddress = ⟨prefixBytes len, some ⟨networkAddress 32 p len, len⟩⟩

def IPv6Prefix.ReadsPrefix (p : BytePtr) (len : UInt8) (maintainAddress : Bool) : Prop :=
  fromBytes p len maintainAddress = ⟨prefixBytes len, some ⟨networkAddress 128 p len, len⟩⟩

def IPPrefix.ReadsPrefix (p : BytePtr) (len : UInt8) (family : AddressFamily)
    (maintainAddress : Bool) : Prop :=
  fromBytes p len family maintainAddress = ⟨prefixBytes len, some
    (match family with
      | .IPv4 => ⟨ofV4 (networkAddress 32 p len), len⟩
      | .IPv6 => ⟨networkAddress 128 p len, len⟩)⟩

/-- Without `maintainAddress` the length is 0; with it the length ends in the last byte and the bits
    behind it are 0. -/
def ReadsRight (w : ℕ) (p : BytePtr) (len : UInt8) (maintainAddress : Bool) : Prop :=
  if maintainAddress then
    prefixBytes len = w / 8 ∧
      mask (BitVec.ofNat w (bigEndian (p.take (w / 8)))) len.toNat =
        BitVec.ofNat w (bigEndian (p.take (w / 8)))
  else len = 0

/-! ## The loop -/

theorem shl_some {w : ℕ} (v : BitVec w) {n : ℕ} (h : n < w) : shl v (n : ℤ) = some (v <<< n) := by
  rw [shl, if_pos (by omega), Int.toNat_natCast]

theorem shl_none {w : ℕ} (v : BitVec w) {n : ℕ} (h : w ≤ n) : shl v (n : ℤ) = none := by
  rw [shl, if_neg (by omega)]

section
variable {m i : ℕ}

theorem toNat_shift (hm : m < 2 ^ 32) :
    (UInt64.ofNat (8 * (m - 1 - i))).toNat = 8 * (m - 1 - i) :=
  UInt64.toNat_ofNat_of_lt' (by simp [UInt64.size]; omega)

theorem shift_next (hm : m < 2 ^ 32) (hi : i + 1 < m) :
    UInt64.ofNat (8 * (m - 1 - i)) - 8 = UInt64.ofNat (8 * (m - 1 - (i + 1))) := by
  apply UInt64.toNat_inj.1
  have height : (8 : UInt64) ≤ UInt64.ofNat (8 * (m - 1 - i)) := by
    rw [UInt64.le_iff_toNat_le, toNat_shift hm]
    show 8 ≤ _
    omega
  rw [UInt64.toNat_sub_of_le _ _ height, toNat_shift hm, toNat_shift hm]
  show 8 * (m - 1 - i) - 8 = _
  omega

end

def byteBit (p : BytePtr) (j : ℕ) : Bool := (p (j / 8)).toBitVec.getMsbD (j % 8)

theorem getMsbD_or_byte {m i : ℕ} (hi : i < m) {val : BitVec (8 * m)} {p : BytePtr}
    (h : ∀ j, val.getMsbD j = (decide (j < 8 * i) && byteBit p j)) (j : ℕ) :
    (val ||| (p i).toBitVec.setWidth (8 * m) <<< (8 * (m - 1 - i))).getMsbD j =
      (decide (j < 8 * (i + 1)) && byteBit p j) := by
  rw [BitVec.getMsbD_or, h, BitVec.getMsbD_shiftLeft, BitVec.getMsbD_setWidth]
  by_cases hbefore : j < 8 * i
  · have hhigh : ¬ 8 * m - 8 ≤ j + 8 * (m - 1 - i) := by omega
    simp [hbefore, hhigh, show j < 8 * (i + 1) by omega]
  · by_cases hin : j < 8 * (i + 1)
    · -- the bits of the byte `i`
      have hlow : 8 * m - 8 ≤ j + 8 * (m - 1 - i) := by omega
      have hbyte : j / 8 = i := by omega
      have hbit : j + 8 * (m - 1 - i) + 8 - 8 * m = j % 8 := by omega
      simp [hbefore, hin, hlow, byteBit, hbyte, hbit]
    · have hover : 8 ≤ j + 8 * (m - 1 - i) + 8 - 8 * m := by omega
      simp [hbefore, hin, BitVec.getMsbD_of_ge _ _ hover]

theorem readBytesFrom_some {m : ℕ} (hm : m < 2 ^ 32) (p : BytePtr) : ∀ (n i : ℕ)
    (val : BitVec (8 * m)) (shift : UInt64), i + n ≤ m →
      (0 < n → shift = UInt64.ofNat (8 * (m - 1 - i))) →
      (∀ j, val.getMsbD j = (decide (j < 8 * i) && byteBit p j)) →
      ∃ v, readBytesFrom (8 * m) p n i val shift = ⟨i + n, some v⟩ ∧
        ∀ j, v.getMsbD j = (decide (j < 8 * (i + n)) && byteBit p j) := by
  intro n
  induction n with
  | zero =>
    intro i val shift _ _ hval
    exact ⟨val, rfl, hval⟩
  | succ n ih =>
    intro i val shift hle hshift hval
    have hnext : 0 < n →
        UInt64.ofNat (8 * (m - 1 - i)) - 8 = UInt64.ofNat (8 * (m - 1 - (i + 1))) := by
      intro hn
      exact shift_next hm (by omega)
    obtain ⟨v, hv, hbits⟩ := ih (i + 1) _ _ (by omega) hnext (getMsbD_or_byte (by omega) hval)
    refine ⟨v, ?_, by rwa [show i + (n + 1) = i + 1 + n by omega]⟩
    rw [readBytesFrom, hshift (Nat.succ_pos n), toNat_shift hm, shl_some _ (by omega)]
    simp only [hv]
    rw [show i + 1 + n = i + (n + 1) by omega]

theorem readBytes_some {m n : ℕ} (hm : m < 2 ^ 32) (h : n ≤ m) (p : BytePtr) :
    ∃ v, readBytes (8 * m) p n = ⟨n, some v⟩ ∧
      ∀ j, v.getMsbD j = (decide (j < 8 * n) && byteBit p j) := by
  have hstart := readBytesFrom_some hm p n 0 0 (UInt64.ofNat (8 * m - 8)) (by omega)
    (fun _ => by rw [show 8 * m - 8 = 8 * (m - 1 - 0) by omega]) (by simp)
  rwa [Nat.zero_add] at hstart

theorem readBytesFrom_none {m : ℕ} (hm : m < 2 ^ 32) (p : BytePtr) : ∀ (n i : ℕ)
    (val : BitVec (8 * m)), i < m → m < i + n →
      readBytesFrom (8 * m) p n i val (UInt64.ofNat (8 * (m - 1 - i))) = ⟨m + 1, none⟩ := by
  intro n
  induction n with
  | zero => omega
  | succ n ih =>
    intro i val hi hn
    rw [readBytesFrom, toNat_shift hm, shl_some _ (by omega)]
    by_cases hlast : i + 1 < m
    · simp only [shift_next hm hlast]
      exact ih (i + 1) _ hlast (by omega)
    · -- the type is full: the next shift is out of range
      obtain rfl : m = i + 1 := by omega
      obtain ⟨n, rfl⟩ : ∃ k, n = k + 1 := ⟨n - 1, by omega⟩
      have hzero : UInt64.ofNat (8 * (i + 1 - 1 - i)) - 8 = 0xFFFFFFFFFFFFFFF8 := by
        rw [show 8 * (i + 1 - 1 - i) = 0 by omega]
        decide
      have hbig : (0xFFFFFFFFFFFFFFF8 : UInt64).toNat = 2 ^ 64 - 8 := by decide
      simp only [hzero]
      rw [readBytesFrom, hbig, shl_none _ (by omega)]

theorem readBytes_none {m n : ℕ} (h0 : 0 < m) (hm : m < 2 ^ 32) (h : m < n) (p : BytePtr) :
    readBytes (8 * m) p n = ⟨m + 1, none⟩ := by
  have hstart := readBytesFrom_none hm p n 0 0 h0 (by omega)
  rwa [show 8 * (m - 1 - 0) = 8 * m - 8 by omega] at hstart

/-- **How far the loop reads.** -/
theorem count_readBytes {m : ℕ} (h0 : 0 < m) (hm : m < 2 ^ 32) (p : BytePtr) (n : ℕ) :
    (readBytes (8 * m) p n).count = min n (m + 1) := by
  rcases Nat.lt_or_ge m n with h | h
  · rw [readBytes_none h0 hm h]
    show m + 1 = _
    omega
  · obtain ⟨v, hv, -⟩ := readBytes_some hm h p
    rw [hv]
    show n = _
    omega

/-! ## The constructors read what they should -/

theorem prefixBytes_eq_zero {len : UInt8} : prefixBytes len = 0 ↔ len = 0 := by
  rw [← UInt8.toNat_inj, prefixBytes]
  show _ ↔ len.toNat = 0
  omega

section Constructors
variable {α : Type} {m : ℕ} {p : BytePtr} {len : UInt8}

theorem masked_read_iff (h0 : 0 < m) (hm : m < 2 ^ 32) (hlen : len.toNat ≤ 8 * m)
    {f : BitVec (8 * m) → Option α} {x : α} (hzero : len = 0 → f 0 = some x) :
    (readBytes (8 * m) p (prefixBytes len * 8)).bind f = ⟨prefixBytes len, some x⟩ ↔ len = 0 := by
  constructor
  · intro h
    have hcount := congrArg Reading.count h
    rw [Reading.bind, count_readBytes h0 hm] at hcount
    have hle : prefixBytes len ≤ m := by
      rw [prefixBytes]
      omega
    refine prefixBytes_eq_zero.1 ?_
    simp only at hcount
    omega
  · intro h
    rw [prefixBytes_eq_zero.2 h]
    simp only [readBytes, readBytesFrom, Reading.bind, Option.bind_some]
    rw [hzero h]

theorem kept_read_iff {g : BitVec (8 * m) → α} (hg : Function.Injective g) :
    (readWord (8 * m) p).map g = ⟨prefixBytes len, some (g (networkAddress (8 * m) p len))⟩ ↔
      ReadsRight (8 * m) p len true := by
  have hwidth : 8 * m / 8 = m := by omega
  simp only [readWord, Reading.map, ReadsRight, if_true, Reading.mk.injEq, Option.map_some,
    Option.some.injEq, hg.eq_iff, hwidth]
  constructor
  · rintro ⟨hbytes, haddr⟩
    refine ⟨hbytes.symm, ?_⟩
    rw [networkAddress, ← hbytes, Nat.sub_self, BitVec.shiftLeft_zero] at haddr
    exact haddr.symm
  · rintro ⟨hbytes, haddr⟩
    refine ⟨hbytes.symm, ?_⟩
    rw [networkAddress, hbytes, Nat.sub_self, BitVec.shiftLeft_zero]
    exact haddr.symm

end Constructors

theorem networkAddress_zero (w : ℕ) (p : BytePtr) : networkAddress w p 0 = 0 := by
  refine Address.ext_bits _ _ fun i => ?_
  simp [networkAddress, bit_bitVec]

theorem ofV4_injective : Function.Injective ofV4 := by
  intro a b h
  have hlow (v : BitVec 32) : (ofV4 v).setWidth 32 = v := by
    ext i hi
    simp [ofV4]
  rw [← hlow a, h, hlow]

/-- **What is read of the wire**: the constructors are right for the length 0, and with
    `maintainAddress` for an address of full length without host bits. -/
theorem fromBytes_iff (p : BytePtr) (len : UInt8) (maintainAddress : Bool) :
    (len.toNat ≤ 32 → (IPv4Prefix.ReadsPrefix p len maintainAddress ↔
      ReadsRight 32 p len maintainAddress)) ∧
    (len.toNat ≤ 128 → (IPv6Prefix.ReadsPrefix p len maintainAddress ↔
      ReadsRight 128 p len maintainAddress)) ∧
    (len.toNat ≤ 32 → (IPPrefix.ReadsPrefix p len .IPv4 maintainAddress ↔
      ReadsRight 32 p len maintainAddress)) ∧
    (len.toNat ≤ 128 → (IPPrefix.ReadsPrefix p len .IPv6 maintainAddress ↔
      ReadsRight 128 p len maintainAddress)) := by
  cases maintainAddress with
  | true =>
    refine ⟨fun _ => ?_, fun _ => ?_, fun _ => ?_, fun _ => ?_⟩
    · exact kept_read_iff (m := 4) (g := fun addr => (⟨addr, len⟩ : IPv4Prefix))
        fun a b h => congrArg IPv4Prefix.addr h
    · exact kept_read_iff (m := 16) (g := fun addr => (⟨addr, len⟩ : IPv6Prefix))
        fun a b h => congrArg IPv6Prefix.addr h
    · exact kept_read_iff (m := 4) (g := fun addr => (⟨ofV4 addr, len⟩ : IPPrefix))
        fun a b h => ofV4_injective (congrArg IPPrefix.addr h)
    · exact kept_read_iff (m := 16) (g := fun addr => (⟨addr, len⟩ : IPPrefix))
        fun a b h => congrArg IPPrefix.addr h
  | false =>
    refine ⟨fun h => ?_, fun h => ?_, fun h => ?_, fun h => ?_⟩
    · refine masked_read_iff (m := 4) (by omega) (by omega) h ?_
      rintro rfl
      rw [networkAddress_zero 32]
      rfl
    · refine masked_read_iff (m := 16) (by omega) (by omega) h ?_
      rintro rfl
      rw [networkAddress_zero 128]
      rfl
    · refine masked_read_iff (m := 4) (by omega) (by omega) h ?_
      rintro rfl
      rw [networkAddress_zero 32]
      exact show ({ addr := ofV4 0 } : IPPrefix).addPrefixLen 0 = some ⟨ofV4 0, 0⟩ by decide
    · refine masked_read_iff (m := 16) (by omega) (by omega) h ?_
      rintro rfl
      rw [networkAddress_zero 128]
      exact show ({ addr := 0 } : IPPrefix).addPrefixLen 0 = some ⟨0, 0⟩ by decide

/-! ## IPv6 prefixes without their host bits -/

section
variable {len : UInt8}

theorem maskLen_some {w : ℕ} (addr : BitVec w) (h : len.toNat ≤ w) :
    maskLen addr len = some (mask addr len.toNat) := by
  by_cases h0 : len = 0
  · rw [maskLen, if_pos h0, h0]
    refine congrArg some (Address.ext_bits _ _ fun i => ?_)
    simp [bit_bitVec]
  · rw [maskLen, if_neg h0, highBits_of_le h0 h]
    rfl

/-- A length of one or two bytes: eight times the bytes are read, the bits behind the length are
    cleared, and the length is lost. -/
theorem IPv6Prefix.fromBytes_short (h : prefixBytes len ≤ 2) (p : BytePtr) :
    ∃ addr, fromBytes p len false = ⟨prefixBytes len * 8, some ⟨addr, 0⟩⟩ ∧
      ∀ j, addr.getMsbD j = (decide (j < len.toNat) && byteBit p j) := by
  have hlen : len.toNat ≤ 8 * prefixBytes len := by
    rw [prefixBytes]
    omega
  obtain ⟨v, hv, hbits⟩ : ∃ v : BitVec 128, readBytes 128 p (prefixBytes len * 8) =
      ⟨prefixBytes len * 8, some v⟩ ∧
        ∀ j, v.getMsbD j = (decide (j < 8 * (prefixBytes len * 8)) && byteBit p j) :=
    readBytes_some (m := 16) (by omega) (by omega) p
  refine ⟨mask v len.toNat, ?_, ?_⟩
  · rw [fromBytes, if_neg Bool.false_ne_true, hv, Reading.bind]
    simp only [Option.bind_some, addPrefixLen]
    rw [maskLen_some v (by omega)]
    rfl
  · intro j
    rw [← bit_bitVec, bit_mask, bit_bitVec, hbits]
    by_cases hj : j < len.toNat
    · simp [hj, show j < 8 * (prefixBytes len * 8) by omega]
    · simp [hj]

theorem IPv6Prefix.fromBytes_long (h : 2 < prefixBytes len) (p : BytePtr) :
    fromBytes p len false = ⟨17, none⟩ := by
  have hread : readBytes 128 p (prefixBytes len * 8) = ⟨17, none⟩ :=
    readBytes_none (m := 16) (by omega) (by omega) (by omega) p
  rw [fromBytes, if_neg Bool.false_ne_true, hread]
  rfl

end

/-- The default routes of both families. -/
theorem fromBytes_iff_default :
    IPv4Prefix.ReadsPrefix (ofList []) 0 false ∧ IPv6Prefix.ReadsPrefix (ofList []) 0 false ∧
      IPPrefix.ReadsPrefix (ofList []) 0 .IPv4 false ∧
      IPPrefix.ReadsPrefix (ofList []) 0 .IPv6 false := by
  obtain ⟨h₁, h₂, h₃, h₄⟩ := fromBytes_iff (ofList []) 0 false
  exact ⟨(h₁ (by decide)).2 rfl, (h₂ (by decide)).2 rfl, (h₃ (by decide)).2 rfl,
    (h₄ (by decide)).2 rfl⟩

/-- 10.0.0.0/8: the fifth byte is shifted by a negative number; 0a00::/8: seven bytes too many. -/
theorem not_readsPrefix :
    ¬ IPv4Prefix.ReadsPrefix (ofList [10, 0, 0, 0]) 8 false ∧
      ¬ IPv6Prefix.ReadsPrefix (ofList [10]) 8 false ∧
      ¬ IPPrefix.ReadsPrefix (ofList [10, 0, 0, 0]) 8 .IPv4 false := by
  refine ⟨fun h => ?_, fun h => ?_, fun h => ?_⟩
  · have hcount : 5 = 1 := congrArg Reading.count h
    omega
  · have hcount : 8 = 1 := congrArg Reading.count h
    omega
  · have hcount : 5 = 1 := congrArg Reading.count h
    omega

end VirtualRouter.Types
