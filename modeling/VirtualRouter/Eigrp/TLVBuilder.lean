/-
  The route options of EIGRP (`eigrp/rtp/TLVBuilder.cpp`, `TLVBuilder.h`,
  `eigrp/rtp/EigrpPacketBuilder.cpp`, `packet/headers/EigrpHeader.hpp`,
  `packet/TlvOptions.hpp`).

  An option is decoded and encoded in blocks: the next hop and the head of a named
  route, the metric, what an external route adds, the destination.  Some blocks
  compare what they need with the size that they were given; the next hop, the
  head of a named route, the length of the attributes and the length of the
  prefix are read without a check, and the prefix is read as a whole address.
  A classic metric moves on by one byte more than it is written with.  A wide
  route has its next hop written to the start of the option.

  `encodeRouteOption` is given the size of the whole buffer and a pointer behind
  the options that are there, and returns its offset in eight bits.

  * `parseEigrpOptions`, `decodeRoute`: the readers;
  * `encodeRouteOption`, `appendRoutes`: the writers.
-/
import VirtualRouter.Lib.BoundedWrite
import VirtualRouter.Utils.ByteUtils
import VirtualRouter.Types.PrefixBytes
import VirtualRouter.Eigrp.DuelEngine

namespace VirtualRouter.Eigrp

open Bytes Utils VirtualRouter.Types

/-! ## Routes -/

structure External where
  originRouter : UInt32 := 0
  originAS : UInt32 := 0
  externalMetric : UInt32 := 0
  type : UInt8 := 0
  flags : UInt8 := 0
  deriving DecidableEq

structure Wide where
  topology : UInt16 := 0
  afi : UInt16 := 0
  rid : UInt32 := 0
  priority : UInt8 := 0
  data : List UInt8 := []
  deriving DecidableEq

/-- `ReceivedRoute`; `isExternal` is `routeType == RouteType::EXTERNAL`. -/
structure ReceivedRoute where
  ipPrefix : IPPrefix := {}
  nextHop : IPAddress := 0
  originInterface : UInt32 := 0
  reportedDistance : UInt64 := 0
  feasibleDistance : UInt64 := 0
  delay : UInt64 := 0
  bandwidth : UInt64 := 0
  mtu : UInt16 := 0
  reliability : UInt8 := 0
  load : UInt8 := 0
  hopCount : UInt8 := 0
  tag : UInt32 := 0
  external : External := {}
  wide : Wide := {}
  flags : UInt8 := 0
  isExternal : Bool := false
  deriving DecidableEq

inductive TLVType where
  | LEGACY_V4
  | LEGACY_V6
  | WIDE
  deriving DecidableEq, Repr

def TLVType.code : TLVType → UInt16
  | .LEGACY_V4 => 0x0100
  | .LEGACY_V6 => 0x0400
  | .WIDE => 0x0600

def isExternal (t : UInt16) : Bool := t &&& 0x00FF = 0x0003

def isWide (t : UInt16) : Bool := t &&& 0xFF00 ≠ 0x0100

def isNamed (t : UInt16) : Bool := t &&& 0xFF00 = 0x0600

def ipSize (v6 : Bool) : ℕ := if v6 then 16 else 4

/-- The bytes of a prefix: `static_cast<uint8_t>((plen + 7) / 8)`. -/
def prefSize (plen : UInt8) : ℕ := prefixBytes plen % 256

/-- `IPAddress(bytes, af)`. -/
def addressAt (v6 : Bool) (p : BytePtr) : IPAddress :=
  if v6 then BitVec.ofNat 128 (bigEndian (p.take 16))
  else ofV4 (BitVec.ofNat 32 (bigEndian (p.take 4)))

/-! ## Options -/

/-- `packet::TLV16Option`, with the bytes of its value. -/
structure TLV16Option where
  type : UInt16
  length : UInt16
  value : List UInt8
  deriving DecidableEq

/-- `parseEigrpOptions`, from an offset on: the answer and the options. -/
def parseEigrpOptions : List UInt8 → Bool × List TLV16Option
  | t₁ :: t₀ :: l₁ :: l₀ :: rest =>
    let type := readU16 (ofList [t₁, t₀])
    let length := readU16 (ofList [l₁, l₀])
    if length < 4 ∨ rest.length + 4 < length.toNat then (false, [])
    else
      let opts := parseEigrpOptions (rest.drop (length.toNat - 4))
      (opts.1, ⟨type, length, rest.take (length.toNat - 4)⟩ :: opts.2)
  | rest => (rest.isEmpty, [])
  termination_by data => data.length

/-! ## Decoding -/

/-- Why `decodeRoute` stops. -/
inductive DecodeStop where
  /-- A read leaves the value. -/
  | outside
  /-- `std::nullopt`. -/
  | refused
  deriving DecidableEq, Repr

/-- `RouteData` of a decoder. -/
structure RouteData where
  value : List UInt8
  v6 : Bool
  r : ReceivedRoute
  offset : ℕ := 0

namespace RouteData

def checkSize (data : RouteData) (n : ℕ) : Except DecodeStop Unit :=
  if data.offset + n > data.value.length then .error .refused else .ok ()

/-- `n` bytes behind the offset, from `k` on. -/
def read {α : Type} (data : RouteData) (k n : ℕ) (f : BytePtr → α) : Except DecodeStop α :=
  readAt .outside data.value (data.offset + k) n f

def readU8 (data : RouteData) (k : ℕ) : Except DecodeStop UInt8 := data.read k 1 fun p => p 0

def decodeNextHop (data : RouteData) : Except DecodeStop RouteData := do
  let nextHop ← data.read 0 (ipSize data.v6) (addressAt data.v6)
  return { data with r := { data.r with nextHop }, offset := data.offset + ipSize data.v6 }

def decodeNamed (data : RouteData) : Except DecodeStop RouteData := do
  let topology ← data.read 0 2 readU16
  let afi ← data.read 2 2 readU16
  let rid ← data.read 4 4 readU32
  return { data with
    r := { data.r with wide := { data.r.wide with topology, afi, rid } }
    offset := data.offset + 8 }

def decodeExternal (data : RouteData) : Except DecodeStop RouteData := do
  data.checkSize 20
  let originRouter ← data.read 0 4 readU32
  let originAS ← data.read 4 4 readU32
  let tag ← data.read 8 4 readU32
  let externalMetric ← data.read 12 4 readU32
  let type ← data.readU8 18
  let flags ← data.readU8 19
  return { data with
    r := { data.r with tag, external := { originRouter, originAS, externalMetric, type, flags } }
    offset := data.offset + 20 }

def classicDelay (dl : UInt32) : UInt64 :=
  if dl ≠ 0 then dl.toUInt64 * 10 * 1000000 / 256 else dl.toUInt64

def classicBandwidth (bw : UInt32) : UInt64 :=
  if bw ≠ 0 then 10000000 * 256 / bw.toUInt64 else bw.toUInt64

def boundDelay (bound delay : UInt64) : UInt64 := if delay > bound then INFINITE else delay

/-- The offset moves on by 17, of which 16 bytes were checked. -/
def decodeClassicMetric (data : RouteData) : Except DecodeStop RouteData := do
  data.checkSize 16
  let dl ← data.read 0 4 readU32
  let bw ← data.read 4 4 readU32
  let mtu ← data.read 8 3 readU24
  let hopCount ← data.readU8 11
  let reliability ← data.readU8 12
  let load ← data.readU8 13
  let tag ← data.readU8 14
  let flags ← data.readU8 15
  return { data with
    r := { data.r with
      delay := boundDelay 0xFFFFFF (classicDelay dl)
      bandwidth := classicBandwidth bw
      mtu := mtu.toUInt16
      hopCount, reliability, load, flags
      tag := tag.toUInt32 }
    offset := data.offset + 17 }

/-- The length of the attributes, in eight bits. -/
def attLen (count : UInt8) : ℕ := (count * 2).toNat

def decodeWideMetric (data : RouteData) : Except DecodeStop RouteData := do
  let count ← data.readU8 0
  let data := { data with offset := data.offset + 1 }
  data.checkSize (28 + attLen count)
  let priority ← data.readU8 0
  let reliability ← data.readU8 1
  let load ← data.readU8 2
  let mtu ← data.read 3 3 readU24
  let hopCount ← data.readU8 6
  let delay ← data.read 7 6 readU48
  let bandwidth ← data.read 13 6 readU48
  let flags ← data.readU8 21
  let attributes ← data.read 23 (attLen count) fun p => p.take (attLen count)
  return { data with
    r := { data.r with
      delay := boundDelay 0xFFFFFFFF delay
      mtu := mtu.toUInt16
      bandwidth, hopCount, reliability, load, flags
      wide := { data.r.wide with
        priority
        data := if attLen count ≠ 0 then attributes else data.r.wide.data } }
    offset := data.offset + (23 + attLen count) }

def decodeDestination (data : RouteData) : Except DecodeStop RouteData := do
  let plen ← data.readU8 0
  let data := { data with offset := data.offset + 1 }
  data.checkSize (prefSize plen)
  let addr ← data.read 0 (ipSize data.v6) (addressAt data.v6)
  return { data with
    r := { data.r with ipPrefix := ⟨addr, plen⟩ }
    offset := data.offset + prefSize plen }

end RouteData

def optionally {ε α : Type} (c : Bool) (f : α → Except ε α) (a : α) : Except ε α :=
  if c then f a else .ok a

/-- What the decoder starts from: `ReceivedRoute r{}` and `IPPrefix(af)`. -/
def decodeStart (routeOpt : TLV16Option) (originIface : UInt32) (af : AddressFamily) : RouteData where
  value := routeOpt.value
  v6 := af = .IPv6
  r := {
    originInterface := originIface
    ipPrefix := { addr := if af = .IPv4 then ofV4 0 else 0 } }

def decodeRoute (routeOpt : TLV16Option) (originIface : UInt32) (af : AddressFamily) :
    Except DecodeStop ReceivedRoute := do
  let data := decodeStart routeOpt originIface af
  let data ←
    (if isWide routeOpt.type then do
      let data ← optionally (isNamed routeOpt.type) RouteData.decodeNamed data
      let data ← data.decodeWideMetric
      let data ← data.decodeNextHop
      let data ← optionally (isExternal routeOpt.type) RouteData.decodeExternal data
      data.decodeDestination
    else do
      let data ← data.decodeNextHop
      let data ← optionally (isExternal routeOpt.type) RouteData.decodeExternal data
      let data ← data.decodeClassicMetric
      data.decodeDestination)
  return data.r

/-! ## Encoding -/

/-- Why `encodeRouteOption` stops. -/
inductive EncodeStop where
  /-- A write leaves the buffer. -/
  | outside
  /-- A block does not fit by its check; the buffer keeps what was written. -/
  | refused (buffer : List UInt8)
  deriving DecidableEq

/-- `writeBytes`: the high `n` bytes, as far as the value has them. -/
def writeBytes {w : ℕ} (val : BitVec w) (n : ℕ) : List UInt8 :=
  (List.range n).map fun i => UInt8.ofBitVec ((val >>> (w - 8 * (i + 1))).setWidth 8)

def writeIpAddr (v6 : Bool) (ip : IPAddress) : List UInt8 :=
  if v6 then writeBytes ip 16 else writeBytes (v4 ip) 4

structure EigrpInterface where
  nextHopSelf : Bool
  ifaceAddress : IPAddress

/-- `RouteData` of an encoder: the buffer, and `out` and `offset` in it; `out` may be null. -/
structure OutData where
  buffer : List UInt8
  out : Option ℕ
  valueSize : ℕ
  v6 : Bool
  offset : ℕ := 0

namespace OutData

def checkSize (data : OutData) (n : ℕ) : Except EncodeStop Unit :=
  if data.offset + n > data.valueSize then .error (.refused data.buffer) else .ok ()

def writeTo (data : OutData) (k : ℕ) (bytes : List UInt8) : Except EncodeStop OutData :=
  match data.out with
  | none => .error .outside
  | some out => do
    let buffer ← writeAt .outside data.buffer (out + k) bytes
    return { data with buffer }

def write (data : OutData) (bytes : List UInt8) : Except EncodeStop OutData := do
  let data ← data.writeTo data.offset bytes
  return { data with offset := data.offset + bytes.length }

def skip (data : OutData) (n : ℕ) : OutData := { data with offset := data.offset + n }

def encodeNextHop (iface : EigrpInterface) (r : ReceivedRoute) (data : OutData) :
    Except EncodeStop OutData := do
  let data ← data.writeTo 0
    (writeIpAddr data.v6 (if iface.nextHopSelf then iface.ifaceAddress else r.nextHop))
  return data.skip (ipSize data.v6)

def encodeNamed (r : ReceivedRoute) (data : OutData) : Except EncodeStop OutData := do
  let data ← data.write (writeU16 r.wide.topology)
  let data ← data.write (writeU16 r.wide.afi)
  data.write (writeU32 r.wide.rid)

def encodeExternal (r : ReceivedRoute) (data : OutData) : Except EncodeStop OutData := do
  data.checkSize 20
  let data ← data.write (writeU32 r.external.originRouter)
  let data ← data.write (writeU32 r.external.originAS)
  let data ← data.write (writeU32 r.tag)
  let data ← data.write (writeU32 r.external.externalMetric)
  let data ← (data.skip 2).write [r.external.type]
  data.write [r.external.flags]

def scaledDelay (delay : UInt64) : UInt32 :=
  if delay ≠ 0 ∧ delay ≠ INFINITE then (delay * 256 / (10 * 1000000)).toUInt32 else delay.toUInt32

/-- The bandwidth in the units of a classic metric. -/
def scaledBW (bw : UInt64) : UInt32 :=
  if bw ≠ 0 ∧ bw ≠ INFINITE then
    (10000000 * 256 / (if bw > 10000000 then 10000000 else bw)).toUInt32
  else bw.toUInt32

def encodeClassicMetric (r : ReceivedRoute) (delay bw : UInt64) (data : OutData) :
    Except EncodeStop OutData := do
  data.checkSize 16
  let data ← data.write (writeU32 (scaledDelay delay))
  let data ← data.write (writeU32 (scaledBW bw))
  let data ← data.write (writeU24 r.mtu.toUInt32)
  data.write [r.hopCount + 1, r.reliability, r.load, r.tag.toUInt8, r.flags]

/-- The flags are one byte of the two that the offset moves on. -/
def encodeWideMetric (r : ReceivedRoute) (delay bw : UInt64) (data : OutData) :
    Except EncodeStop OutData := do
  data.checkSize (28 + r.wide.data.length)
  let data ← data.write [(r.wide.data.length / 2).toUInt8, 0, r.reliability, r.load]
  let data ← data.write (writeU24 r.mtu.toUInt32)
  let data ← data.write [r.hopCount + 1]
  let data ← data.write (writeU48 delay)
  let data ← data.write (writeU48 bw)
  let data ← data.write (writeU16 0)
  let data ← data.write [r.flags]
  let data := data.skip 1
  if r.wide.data.length ≠ 0 then data.write r.wide.data else return data

def encodeDestination (r : ReceivedRoute) (data : OutData) : Except EncodeStop OutData := do
  let plen := r.ipPrefix.prefixLength
  data.checkSize (prefSize plen)
  let data ← data.write [plen]
  data.write
    (if data.v6 then writeBytes r.ipPrefix.addr (prefSize plen)
    else writeBytes (v4 r.ipPrefix.addr) (prefSize plen))

end OutData

def sentDelay (r : ReceivedRoute) (currentDelay : UInt64) : UInt64 :=
  if r.delay = INFINITE then r.delay else r.delay + currentDelay / 10 * 10000000

/-- The blocks of an option. -/
def encodeValue (iface : EigrpInterface) (data : OutData) (r : ReceivedRoute)
    (currentBandwidth currentDelay : UInt64) (type : UInt16) : Except EncodeStop OutData :=
  let delay := sentDelay r currentDelay
  let bw := min r.bandwidth currentBandwidth
  if isWide type then do
    let data ← optionally (isNamed type) (OutData.encodeNamed r) data
    let data ← data.encodeWideMetric r delay bw
    let data ← data.encodeNextHop iface r
    let data ← optionally (isExternal type) (OutData.encodeExternal r) data
    data.encodeDestination r
  else do
    let data ← data.encodeNextHop iface r
    let data ← optionally (isExternal type) (OutData.encodeExternal r) data
    let data ← data.encodeClassicMetric r delay bw
    data.encodeDestination r

/-- What `encodeRouteOption` leaves: the buffer, the route and the value it returns. -/
structure Encoded where
  buffer : List UInt8
  route : ReceivedRoute
  length : UInt8

def encodeStart (buffer : List UInt8) (out : Option ℕ) (maxSize : ℕ) (r : ReceivedRoute) : OutData where
  buffer := buffer
  out := out
  valueSize := maxSize
  v6 := !isIPv4 r.ipPrefix.addr

def encodeRouteOption (iface : EigrpInterface) (buffer : List UInt8) (out : Option ℕ) (maxSize : ℕ)
    (r : ReceivedRoute) (currentBandwidth currentDelay : UInt64) (type : UInt16) :
    Except EncodeStop Encoded :=
  match encodeValue iface (encodeStart buffer out maxSize r) r currentBandwidth currentDelay type with
  | .ok data =>
    .ok ⟨data.buffer, { r with bandwidth := min r.bandwidth currentBandwidth }, data.offset.toUInt8⟩
  | .error (.refused buffer) => .ok ⟨buffer, r, 0⟩
  | .error .outside => .error .outside

/-! ## The buffer of a packet -/

/-- `packet::TLV16BufferManager`: `buffer` is the memory of its `len` bytes. -/
structure TLV16BufferManager where
  buffer : List UInt8
  offset : ℕ := 0
  deriving DecidableEq

namespace TLV16BufferManager

def maxSize (tlv : TLV16BufferManager) : ℕ := tlv.buffer.length

def getNextValBuf (tlv : TLV16BufferManager) (size : ℕ) : Option ℕ :=
  if tlv.offset + 4 + size > tlv.maxSize then none else some (tlv.offset + 4)

/-- `append` of a value that is in place; `none` if there is no room. -/
def append (tlv : TLV16BufferManager) (type length : UInt16) (valueSize : ℕ) :
    Option TLV16BufferManager :=
  if tlv.offset + 4 + valueSize > tlv.maxSize then none
  else
    some {
      buffer := tlv.buffer.take tlv.offset ++ (writeU16 type ++ writeU16 length) ++
        tlv.buffer.drop (tlv.offset + 4)
      offset := tlv.offset + 4 + valueSize }

end TLV16BufferManager

def routeOptionType (version : TLVType) (r : ReceivedRoute) : UInt16 :=
  if r.isExternal then version.code ||| 3 else version.code ||| 2

/-- One round of `appendRoutes`: what it leaves, and whether the loop goes on. -/
structure Attempt where
  tlv : TLV16BufferManager
  route : ReceivedRoute
  appended : Bool

/-- What `appendRoutes` leaves: the buffer, the routes and the number of options. -/
structure Appended where
  tlv : TLV16BufferManager
  routes : List ReceivedRoute
  appended : ℕ

section
variable (iface : EigrpInterface) (bw delay : UInt64) (tlvVersion : TLVType)

/-- The call of `encodeRouteOption` by `appendRoutes`. -/
def encodeNext (tlv : TLV16BufferManager) (r : ReceivedRoute) : Except EncodeStop Encoded :=
  encodeRouteOption iface tlv.buffer (tlv.getNextValBuf 0) tlv.maxSize r bw delay
    (routeOptionType tlvVersion r)

def appendRoute (tlv : TLV16BufferManager) (r : ReceivedRoute) : Except EncodeStop Attempt := do
  let e ← encodeNext iface bw delay tlvVersion tlv r
  let tlv := { tlv with buffer := e.buffer }
  if e.length = 0 then return ⟨tlv, e.route, false⟩
  else
    match tlv.append (routeOptionType tlvVersion r) (e.length.toUInt16 + 4) e.length.toNat with
    | none => return ⟨tlv, e.route, false⟩
    | some tlv => return ⟨tlv, e.route, true⟩

def appendRoutes (tlv : TLV16BufferManager) : List ReceivedRoute → Except EncodeStop Appended
  | [] => .ok ⟨tlv, [], 0⟩
  | r :: routes => do
    let a ← appendRoute iface bw delay tlvVersion tlv r
    if a.appended then do
      let rest ← appendRoutes a.tlv routes
      return ⟨rest.tlv, a.route :: rest.routes, rest.appended + 1⟩
    else return ⟨a.tlv, a.route :: routes, 0⟩

end

end VirtualRouter.Eigrp
