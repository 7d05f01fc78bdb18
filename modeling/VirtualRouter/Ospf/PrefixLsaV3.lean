/-
  The bodies of the OSPFv3 LSAs that carry prefixes (`ospf/ospfv3/database`).

  For each type its parser `build`, its serialiser `buildBody` and its `size`.  A
  parser reads the buffer `l`, a serialiser writes the buffer `buf`; they stop with
  `oob` at an access outside of it, with `shift` where the constructor of a prefix
  shifts by an undefined amount, and with `refused` where the code returns
  `std::nullopt` or `false`.
-/
import VirtualRouter.Lib.BoundedWrite
import VirtualRouter.Types.PrefixBytes
import VirtualRouter.Utils.ByteUtils

namespace VirtualRouter.Ospf

open Bytes Utils VirtualRouter.Types

inductive PrefixStop where
  | oob
  | shift
  | refused
  deriving DecidableEq, Repr

def readBuf {α : Type} (l : List UInt8) (i n : ℕ) (f : BytePtr → α) : Except PrefixStop α :=
  readAt .oob l i n f

def storeBuf (buf : List UInt8) (off : ℕ) (bytes : List UInt8) : Except PrefixStop (List UInt8) :=
  writeAt .oob buf off bytes

/-- `IPv6Prefix(buf + i, len)`. -/
def readPrefix (l : List UInt8) (i : ℕ) (len : UInt8) : Except PrefixStop IPv6Prefix :=
  let r := IPv6Prefix.fromBytes ((ofList l).add i) len false
  if i + r.count ≤ l.length then
    match r.value with
    | some p => .ok p
    | none => .error .shift
  else .error .oob

/-- `writeBytes`: the high `n` bytes, as far as the value has them. -/
def writeHigh {w : ℕ} (val : BitVec w) (n : ℕ) : List UInt8 :=
  (List.range n).map fun i => UInt8.ofBitVec ((val >>> (w - 8 * (i + 1))).setWidth 8)

def writeU128 (val : BitVec 128) : List UInt8 := writeHigh val 16

def readU128 (p : BytePtr) : BitVec 128 := BitVec.ofNat 128 (bigEndian (p.take 16))

/-! ## Intra-area prefixes -/

structure IntraAreaPrefix where
  options : UInt8
  metric : UInt16
  pfx : IPv6Prefix
  deriving DecidableEq

structure IntraAreaPrefixLsa where
  referencedLsaType : UInt16
  referencedLinkStateId : UInt32
  referencedAdvRouter : UInt32
  prefixes : List IntraAreaPrefix
  deriving DecidableEq

namespace IntraAreaPrefixLsa

/-- The loop of `build` over `n` prefixes. -/
def buildPrefixes (l : List UInt8) (len : UInt16) :
    (n off : ℕ) → Except PrefixStop (List IntraAreaPrefix)
  | 0, _ => .ok []
  | n + 1, off => do
    if len.toNat < off + 4 then .error .refused
    else
      let plen ← readBuf l off 1 (· 0)
      let options ← readBuf l (off + 1) 1 (· 0)
      let metric ← readBuf l (off + 2) 2 readU16
      if len.toNat < off + 4 + prefixBytes plen then .error .refused
      else
        let pfx ← readPrefix l (off + 4) plen
        let prefixes ← buildPrefixes l len n (off + 4 + prefixBytes plen)
        return { options, metric, pfx } :: prefixes

def build (l : List UInt8) (len : UInt16) : Except PrefixStop IntraAreaPrefixLsa := do
  if len.toNat < 12 then .error .refused
  else
    let prefixCount ← readBuf l 0 2 readU16
    let referencedLsaType ← readBuf l 2 2 readU16
    let referencedLinkStateId ← readBuf l 4 4 readU32
    let referencedAdvRouter ← readBuf l 8 4 readU32
    let prefixes ← buildPrefixes l len prefixCount.toNat 12
    return { referencedLsaType, referencedLinkStateId, referencedAdvRouter, prefixes }

/-- The loop of `buildBody`. -/
def storePrefixes (len : UInt16) :
    List IntraAreaPrefix → (off : ℕ) → (buf : List UInt8) → Except PrefixStop (List UInt8)
  | [], _, buf => .ok buf
  | p :: ps, off, buf => do
    if len.toNat < off + 4 then .error .refused
    else
      let buf ← storeBuf buf off [p.pfx.prefixLength]
      let buf ← storeBuf buf (off + 1) [p.options]
      let buf ← storeBuf buf (off + 2) (writeU16 p.metric)
      let bytes := prefixBytes p.pfx.prefixLength
      if len.toNat < off + 4 + bytes then .error .refused
      else
        let buf ← storeBuf buf (off + 4) (writeHigh p.pfx.addr bytes)
        storePrefixes len ps (off + 4 + bytes) buf

def buildBody (lsa : IntraAreaPrefixLsa) (buf : List UInt8) (len : UInt16) :
    Except PrefixStop (List UInt8) := do
  if len.toNat < 12 then .error .refused
  else
    let buf ← storeBuf buf 0 (writeU16 (UInt16.ofNat lsa.prefixes.length))
    let buf ← storeBuf buf 2 (writeU16 lsa.referencedLsaType)
    let buf ← storeBuf buf 4 (writeU32 lsa.referencedLinkStateId)
    let buf ← storeBuf buf 8 (writeU32 lsa.referencedAdvRouter)
    storePrefixes len lsa.prefixes 12 buf

def size (lsa : IntraAreaPrefixLsa) : UInt16 :=
  lsa.prefixes.foldl (fun len p => len + UInt16.ofNat (4 + prefixBytes p.pfx.prefixLength)) 12

end IntraAreaPrefixLsa

/-! ## Links -/

structure LinkLsaPrefix where
  options : UInt8
  pfx : IPv6Prefix
  deriving DecidableEq

structure LinkLsa where
  priority : UInt8
  options : UInt32
  localLink : BitVec 128
  prefixes : List LinkLsaPrefix
  deriving DecidableEq

namespace LinkLsa

/-- The loop of `build`; `off` does not move over the bytes of a prefix. -/
def buildPrefixes (l : List UInt8) (len : UInt16) :
    (n off : ℕ) → Except PrefixStop (List LinkLsaPrefix)
  | 0, _ => .ok []
  | n + 1, off => do
    if len.toNat < off + 2 then .error .refused
    else
      let plen ← readBuf l off 1 (· 0)
      let options ← readBuf l (off + 1) 1 (· 0)
      if len.toNat < off + 2 + prefixBytes plen then .error .refused
      else
        let pfx ← readPrefix l (off + 2) plen
        let prefixes ← buildPrefixes l len n (off + 2)
        return { options, pfx } :: prefixes

def build (l : List UInt8) (len : UInt16) : Except PrefixStop LinkLsa := do
  if len.toNat < 21 then .error .refused
  else
    let priority ← readBuf l 0 1 (· 0)
    let options ← readBuf l 1 3 readU24
    let localLink ← readBuf l 4 16 readU128
    let prefixList ← readBuf l 20 1 (· 0)
    let prefixes ← buildPrefixes l len prefixList.toNat 21
    return { priority, options, localLink, prefixes }

/-- The loop of `buildBody`; `off` does not move over the bytes of a prefix. -/
def storePrefixes (len : UInt16) :
    List LinkLsaPrefix → (off : ℕ) → (buf : List UInt8) → Except PrefixStop (List UInt8)
  | [], _, buf => .ok buf
  | p :: ps, off, buf => do
    if len.toNat < off + 2 then .error .refused
    else
      let buf ← storeBuf buf off [p.pfx.prefixLength]
      let buf ← storeBuf buf (off + 1) [p.options]
      let bytes := prefixBytes p.pfx.prefixLength
      if len.toNat < off + 2 + bytes then .error .refused
      else
        let buf ← storeBuf buf (off + 2) (writeHigh p.pfx.addr bytes)
        storePrefixes len ps (off + 2) buf

def buildBody (lsa : LinkLsa) (buf : List UInt8) (len : UInt16) :
    Except PrefixStop (List UInt8) := do
  if len.toNat < 20 then .error .refused
  else
    let buf ← storeBuf buf 0 [lsa.priority]
    let buf ← storeBuf buf 1 (writeU24 lsa.options)
    let buf ← storeBuf buf 4 (writeU128 lsa.localLink)
    let buf ← storeBuf buf 20 [UInt8.ofNat lsa.prefixes.length]
    storePrefixes len lsa.prefixes 21 buf

/-- `LinkLsa::size`: the fixed fields are counted as 20 bytes. -/
def size (lsa : LinkLsa) : UInt16 :=
  lsa.prefixes.foldl (fun len p => len + UInt16.ofNat (2 + prefixBytes p.pfx.prefixLength)) 20

end LinkLsa

/-! ## Inter-area prefixes -/

structure InterAreaPrefixLsa where
  metric : UInt32
  options : UInt8
  pfx : IPv6Prefix
  deriving DecidableEq

namespace InterAreaPrefixLsa

/-- The bytes of `prefixWords` words. -/
def wordBytes (len : UInt8) : ℕ := (len.toNat + 31) / 32 * 4

def build (l : List UInt8) (len : UInt16) : Except PrefixStop InterAreaPrefixLsa := do
  if len.toNat < 8 then .error .refused
  else
    let zero ← readBuf l 0 1 (· 0)
    if zero ≠ 0 then .error .refused
    else
      let metric ← readBuf l 1 3 readU24
      let prefixLen ← readBuf l 4 1 (· 0)
      let options ← readBuf l 5 1 (· 0)
      let reserved ← readBuf l 6 2 readU16
      if reserved ≠ 0 then .error .refused
      else if 16 < wordBytes prefixLen then .error .refused
      else if len.toNat < 8 + wordBytes prefixLen then .error .refused
      else
        let pfx ← readPrefix l 8 prefixLen
        let n := len.toNat - (8 + wordBytes prefixLen)
        let trailing ← readBuf l (8 + wordBytes prefixLen) n (·.take n)
        if trailing.any (· ≠ 0) then .error .refused
        else return { metric, options, pfx }

def buildBody (lsa : InterAreaPrefixLsa) (buf : List UInt8) (len : UInt16) :
    Except PrefixStop (List UInt8) := do
  if len.toNat < 8 then .error .refused
  else
    let buf ← storeBuf buf 0 [0]
    let buf ← storeBuf buf 1 (writeU24 lsa.metric)
    let buf ← storeBuf buf 4 [lsa.pfx.prefixLength]
    let buf ← storeBuf buf 5 [lsa.options]
    let buf ← storeBuf buf 6 [0]
    let buf ← storeBuf buf 7 [0]
    let bytes := wordBytes lsa.pfx.prefixLength
    if len.toNat < 8 + bytes then .error .refused
    else storeBuf buf 8 (writeHigh lsa.pfx.addr bytes)

def size (lsa : InterAreaPrefixLsa) : UInt16 := UInt16.ofNat (8 + wordBytes lsa.pfx.prefixLength)

end InterAreaPrefixLsa

/-! ## External LSAs -/

structure ExternalLsaV3 where
  metric : UInt32
  options : UInt8
  referencedLsType : UInt16
  pfx : IPv6Prefix
  isType2 : Bool
  forwardingAddress : Option (BitVec 128)
  routeTag : Option UInt32
  referencedLsId : Option UInt32
  deriving DecidableEq

namespace ExternalLsaV3

/-- An optional field of `n` bytes at `off`, and the offset behind it. -/
def readOptional {α : Type} (l : List UInt8) (len : UInt16) (present : Bool) (off n : ℕ)
    (f : BytePtr → α) : Except PrefixStop (Option α × ℕ) := do
  if present then
    if len.toNat < off + n then .error .refused
    else
      let field ← readBuf l off n f
      return (some field, off + n)
  else return (none, off)

def build (l : List UInt8) (len : UInt16) : Except PrefixStop ExternalLsaV3 := do
  if len.toNat < 8 then .error .refused
  else
    let exOpts ← readBuf l 0 1 (· 0)
    let isType2 := exOpts &&& 0x04 ≠ 0
    let metric ← readBuf l 1 3 readU24
    let prefixLen ← readBuf l 4 1 (· 0)
    let options ← readBuf l 5 1 (· 0)
    let referencedLsType ← readBuf l 6 2 readU16
    if 128 < prefixLen then .error .refused
    else if len.toNat < 8 + prefixBytes prefixLen then .error .refused
    else
      let pfx ← readPrefix l 8 prefixLen
      let pfx := { pfx with prefixLength := prefixLen }
      let off := 8 + prefixBytes prefixLen
      let (forwardingAddress, off) ← readOptional l len (exOpts &&& 0x02 ≠ 0) off 16 readU128
      let (routeTag, off) ← readOptional l len (exOpts &&& 0x01 ≠ 0) off 4 readU32
      let (referencedLsId, off) ← readOptional l len (referencedLsType ≠ 0) off 4 readU32
      if off ≠ len.toNat then .error .refused
      else
        return { metric, options, referencedLsType, pfx, isType2, forwardingAddress, routeTag,
                 referencedLsId }

/-- `exOpts |= flag`, on the first byte as it was. -/
def orFirst (buf : List UInt8) (flag : UInt8) : Except PrefixStop (List UInt8) := do
  let exOpts ← readBuf buf 0 1 (· 0)
  storeBuf buf 0 [exOpts ||| flag]

/-- An optional field with its flag, at `off`, and the offset behind it. -/
def storeOptional (len : UInt16) (field : Option (List UInt8)) (flag : UInt8) (buf : List UInt8)
    (off : ℕ) : Except PrefixStop (List UInt8 × ℕ) :=
  match field with
  | none => .ok (buf, off)
  | some bytes => do
    let buf ← orFirst buf flag
    if len.toNat < off + bytes.length then .error .refused
    else
      let buf ← storeBuf buf off bytes
      return (buf, off + bytes.length)

def buildBody (lsa : ExternalLsaV3) (buf : List UInt8) (len : UInt16) :
    Except PrefixStop (List UInt8) := do
  if len.toNat < 8 then .error .refused
  else
    let buf ← (if lsa.isType2 then orFirst buf 0x04 else .ok buf)
    let buf ← storeBuf buf 1 (writeU24 lsa.metric)
    let buf ← storeBuf buf 4 [lsa.pfx.prefixLength]
    let buf ← storeBuf buf 5 [lsa.options]
    let buf ← storeBuf buf 6 (writeU16 lsa.referencedLsType)
    let bytes := prefixBytes lsa.pfx.prefixLength
    if len.toNat < 8 + bytes then .error .refused
    else
      let buf ← storeBuf buf 8 (writeHigh lsa.pfx.addr bytes)
      let (buf, off) ← storeOptional len (lsa.forwardingAddress.map writeU128) 0x02 buf (8 + bytes)
      let (buf, off) ← storeOptional len (lsa.routeTag.map writeU32) 0x01 buf off
      if lsa.referencedLsType ≠ 0 then
        match lsa.referencedLsId with
        | none => .error .refused
        | some id => if len.toNat < off + 4 then .error .refused else storeBuf buf off (writeU32 id)
      else .ok buf

def size (lsa : ExternalLsaV3) : UInt16 :=
  let len := 8 + prefixBytes lsa.pfx.prefixLength
  let len := if lsa.forwardingAddress.isSome then len + 16 else len
  let len := if lsa.routeTag.isSome then len + 4 else len
  let len := if lsa.referencedLsId.isSome then len + 4 else len
  UInt16.ofNat len

end ExternalLsaV3

/-! ## All four -/

inductive PrefixLsaType where
  | intraAreaPrefix
  | link
  | interAreaPrefix
  | external
  deriving DecidableEq

inductive PrefixLsa where
  | intraAreaPrefix (lsa : IntraAreaPrefixLsa)
  | link (lsa : LinkLsa)
  | interAreaPrefix (lsa : InterAreaPrefixLsa)
  | external (lsa : ExternalLsaV3)
  deriving DecidableEq

namespace PrefixLsa

def type : PrefixLsa → PrefixLsaType
  | .intraAreaPrefix _ => .intraAreaPrefix
  | .link _ => .link
  | .interAreaPrefix _ => .interAreaPrefix
  | .external _ => .external

def build (t : PrefixLsaType) (l : List UInt8) (len : UInt16) : Except PrefixStop PrefixLsa :=
  match t with
  | .intraAreaPrefix => (IntraAreaPrefixLsa.build l len).map .intraAreaPrefix
  | .link => (LinkLsa.build l len).map .link
  | .interAreaPrefix => (InterAreaPrefixLsa.build l len).map .interAreaPrefix
  | .external => (ExternalLsaV3.build l len).map .external

def buildBody : PrefixLsa → List UInt8 → UInt16 → Except PrefixStop (List UInt8)
  | .intraAreaPrefix lsa => lsa.buildBody
  | .link lsa => lsa.buildBody
  | .interAreaPrefix lsa => lsa.buildBody
  | .external lsa => lsa.buildBody

def size : PrefixLsa → UInt16
  | .intraAreaPrefix lsa => lsa.size
  | .link lsa => lsa.size
  | .interAreaPrefix lsa => lsa.size
  | .external lsa => lsa.size

end PrefixLsa

end VirtualRouter.Ospf
