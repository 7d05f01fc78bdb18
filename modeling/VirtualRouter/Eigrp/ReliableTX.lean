/-
  The updates of EIGRP (`eigrp/rtp/ReliableTX.cpp`, `eigrp/rtp/EigrpPacketBuilder.cpp`,
  `eigrp/interface/TopologyController.cpp`, `eigrp/interface/AuthHandler.cpp`,
  `processing/PacketBuilder.hpp`, `packet/TlvOptions.hpp`).

  A send goes through the formats in use on the interface, and builds packets for
  each of them until `info.sent` has reached the number of the routes.  The counter
  is that of the send: it is not set back between two formats.  A packet is built
  in a frame, of which the options may use as much as the MTU leaves behind the
  headers, counted in sixteen bits; the ring is taken to have one.

  The loop of a format need not end, and is given a number of rounds.

  * `createUpdate`, `versionedUpdate`: a packet, and the packets of a format;
  * `sendFullTopology`, `sendUpdate`, `sendPoisenedUpdate`: the sends.
-/
import VirtualRouter.Eigrp.TLVBuilder

namespace VirtualRouter.Eigrp

open Bytes Utils VirtualRouter.Types

/-! ## Frames -/

def MaxPacketSize : ℕ := 2048

def MaxHeaders : ℕ := 16

def EthernetHeader.fixedSize : ℕ := 14
def EigrpHeader.fixedSize : ℕ := 20
def ipHeaderSize (af : AddressFamily) : ℕ := if af = .IPv4 then 20 else 40

/-- The frames that are taken one after the other, with what is in their `size` bytes. -/
structure Frames where
  size : ℕ
  payload : ℕ → List UInt8
  length_payload : ∀ i, (payload i).length = size

structure PacketBuilder where
  headerCount : ℕ := 0
  bufferOffset : ℕ := 0

def PacketBuilder.reserveHeader (b : PacketBuilder) (size : ℕ) : Option PacketBuilder :=
  if b.headerCount ≥ MaxHeaders ∨ b.bufferOffset + size > MaxPacketSize then none
  else some { headerCount := b.headerCount + 1, bufferOffset := b.bufferOffset + size }

def PacketBuilder.reserve (b : PacketBuilder) (size : ℕ) : PacketBuilder :=
  (b.reserveHeader size).getD b

/-- `createPacket`: `ethernet::reserve` and the header of the address family. -/
def createPacket (af : AddressFamily) : PacketBuilder :=
  (({} : PacketBuilder).reserve EthernetHeader.fixedSize).reserve (ipHeaderSize af)

/-! ## The interface -/

inductive AuthType where
  | NONE
  | MD5
  | SHA256
  deriving DecidableEq, Repr

def AuthType.code : AuthType → UInt16
  | .NONE => 0
  | .MD5 => 2
  | .SHA256 => 3

structure StubConfig where
  isStub : Bool := false
  advertiseConnected : Bool := true
  advertiseLeakMap : Bool := false
  advertiseStatic : Bool := true
  advertiseSummary : Bool := true
  advertiseRedistributed : Bool := true
  receiveOnly : Bool := false

structure SendInterface extends EigrpInterface where
  af : AddressFamily
  mtu : UInt16
  bandwidth : UInt64
  interfaceKey : UInt32
  passive : Bool := false
  splitHorizon : Bool := true
  multicastEnabled : Bool := true
  authType : AuthType := .NONE
  keychain : Option (List UInt8) := none
  stubEnabled : Bool := false
  stub : StubConfig := {}
  /-- `getNTable().size()`. -/
  neighbors : ℕ
  /-- The keys of `tlvTypes`. -/
  tlvTypes : List TLVType

/-! ## The options of a packet -/

/-- `packet::TLV16BufferManager` in a frame: `buffer` is what is behind the header, of which `len`
    bytes may be used. -/
structure FrameTLVs where
  buffer : List UInt8
  len : ℕ
  offset : ℕ := 0

/-- What a round of `appendRoutes` leaves. -/
structure FrameAttempt where
  tlv : FrameTLVs
  route : ReceivedRoute
  appended : Bool

/-- What `appendRoutes` leaves. -/
structure FrameAppended where
  tlv : FrameTLVs
  routes : List ReceivedRoute
  appended : ℕ

namespace FrameTLVs

def getNextValBuf (tlv : FrameTLVs) (size : ℕ) : Option ℕ :=
  if tlv.offset + 4 + size > tlv.len then none else some (tlv.offset + 4)

def writeValue (tlv : FrameTLVs) (out : Option ℕ) (bytes : List UInt8) : Except EncodeStop FrameTLVs :=
  match out with
  | none => .error .outside
  | some out => do
    let buffer ← writeAt .outside tlv.buffer out bytes
    return { tlv with buffer }

/-- `append` of a value that is in place; `none` if there is no room. -/
def append (tlv : FrameTLVs) (type length : UInt16) (valueSize : ℕ) :
    Except EncodeStop (Option FrameTLVs) :=
  if tlv.offset + 4 + valueSize > tlv.len then .ok none
  else do
    let buffer ← writeAt .outside tlv.buffer tlv.offset (writeU16 type ++ writeU16 length)
    return some { tlv with buffer, offset := tlv.offset + 4 + valueSize }

def getSpan (tlv : FrameTLVs) : List UInt8 := tlv.buffer.take tlv.offset

section
variable (iface : EigrpInterface) (bw delay : UInt64) (tlvVersion : TLVType)

/-- The call of `encodeRouteOption` by `appendRoutes`. -/
def encodeNext (tlv : FrameTLVs) (r : ReceivedRoute) : Except EncodeStop Encoded :=
  encodeRouteOption iface tlv.buffer (tlv.getNextValBuf 0) tlv.len r bw delay
    (routeOptionType tlvVersion r)

def appendRoute (tlv : FrameTLVs) (r : ReceivedRoute) : Except EncodeStop FrameAttempt := do
  let e ← tlv.encodeNext iface bw delay tlvVersion r
  let tlv := { tlv with buffer := e.buffer }
  if e.length = 0 then return ⟨tlv, e.route, false⟩
  else
    match ← tlv.append (routeOptionType tlvVersion r) (e.length.toUInt16 + 4) e.length.toNat with
    | none => return ⟨tlv, e.route, false⟩
    | some tlv => return ⟨tlv, e.route, true⟩

def appendRoutes (tlv : FrameTLVs) : List ReceivedRoute → Except EncodeStop FrameAppended
  | [] => .ok ⟨tlv, [], 0⟩
  | r :: routes => do
    let a ← tlv.appendRoute iface bw delay tlvVersion r
    if a.appended then do
      let rest ← appendRoutes a.tlv routes
      return ⟨rest.tlv, a.route :: rest.routes, rest.appended + 1⟩
    else return ⟨a.tlv, a.route :: routes, 0⟩

end

end FrameTLVs

/-! ## The options in front of the routes -/

section
variable (iface : SendInterface)

/-- The length of the digest: 16 bytes of MD5, 32 of SHA-256. -/
def digestLen : AuthType → ℕ
  | .NONE => 0
  | .MD5 => 16
  | .SHA256 => 32

/-- The bytes that `buildAuthTLV` writes first. -/
def authValue (authType : AuthType) : List UInt8 :=
  writeU16 authType.code ++ writeU16 (digestLen authType).toUInt16 ++
    List.replicate (16 + digestLen authType) 0

/-- `buildAuthTLV` at `out`: the size of the value, or zero. -/
def buildAuthTLV (tlv : FrameTLVs) (out : ℕ) : Except EncodeStop (FrameTLVs × ℕ) :=
  if iface.authType = .NONE then .ok (tlv, 0)
  else do
    let tlv ← tlv.writeValue (some out) (authValue iface.authType)
    match if iface.authType = .SHA256 then iface.keychain else none with
    | none => return (tlv, 20 + digestLen iface.authType)
    | some keyPayload =>
      if keyPayload.isEmpty ∨ keyPayload.length > 32 then return (tlv, 0)
      else do
        let tlv ← tlv.writeValue (some (out + 20)) keyPayload
        return (tlv, 20 + digestLen iface.authType)

def appendAuthTLV (tlv : FrameTLVs) : Except EncodeStop FrameTLVs :=
  if iface.authType = .NONE then .ok tlv
  else
    match tlv.getNextValBuf 52 with
    | none => .ok tlv
    | some out => do
      let (tlv, valSize) ← buildAuthTLV iface tlv out
      if valSize = 0 then return tlv
      else return (← tlv.append 0x0002 (valSize + 4).toUInt16 valSize).getD tlv

/-- The value of `encodeStubOption`. -/
def stubFlags (stub : StubConfig) : UInt16 :=
  (if stub.advertiseConnected then 0x0001 else 0) |||
  (if stub.advertiseStatic then 0x0002 else 0) |||
  (if stub.advertiseSummary then 0x0004 else 0) |||
  (if stub.advertiseRedistributed then 0x0008 else 0) |||
  (if stub.advertiseLeakMap then 0x0010 else 0) |||
  (if stub.receiveOnly then 0x0020 else 0)

/-- `appendStubTLV`: the pointer to the value is not looked at. -/
def appendStubTLV (tlv : FrameTLVs) : Except EncodeStop FrameTLVs :=
  if iface.stubEnabled then do
    let tlv ← tlv.writeValue (tlv.getNextValBuf 0) (writeU16 (stubFlags iface.stub))
    return (← tlv.append 0x0006 6 2).getD tlv
  else .ok tlv

end

/-! ## Packets -/

/-- An update that is handed to `transmitReliable`: its header, the format that it was built for and
    the bytes behind the header. -/
structure UpdatePacket where
  sequence : UInt32
  version : TLVType
  trail : List UInt8
  flagInit : Bool := false
  flagRestart : Bool := false
  flagEndOfTable : Bool := false
  unicast : Bool := false
  deriving DecidableEq

/-- `PktInfo`, as it stays during a send. -/
structure PktInfo where
  bandwidthMetric : UInt64
  delay : UInt64
  mtu : UInt16

/-- What the rounds of a send share: `info.sent`, the routes as the encoder leaves them, the next
    sequence number, the frames taken and the packets. -/
structure Sending where
  sent : ℕ := 0
  routes : List ReceivedRoute
  nextSeq : UInt32
  taken : ℕ := 0
  packets : List UpdatePacket := []

inductive SendStop where
  /-- A write leaves the frame. -/
  | outside
  /-- The rounds are used up. -/
  | unfinished
  deriving DecidableEq, Repr

section
variable (iface : SendInterface) (frames : Frames) (info : PktInfo) (version : TLVType)

/-- `buildHeader`: the header is reserved and written, unless there is no room for it. -/
def buildHeader (builder : PacketBuilder) : Except EncodeStop (Option PacketBuilder) :=
  match builder.reserveHeader EigrpHeader.fixedSize with
  | none => .ok none
  | some builder =>
    if builder.bufferOffset > frames.size then .error .outside else .ok (some builder)

/-- The size that the options may have.  The header is subtracted twice. -/
def maxSize (builder : PacketBuilder) : UInt16 :=
  info.mtu - (builder.bufferOffset + EigrpHeader.fixedSize).toUInt16

/-- The options in front of the routes. -/
def leadingTLVs (tlv : FrameTLVs) : Except EncodeStop FrameTLVs := do
  let tlv ← appendAuthTLV iface tlv
  appendStubTLV iface tlv

/-- `createUpdate`, in the frame that was taken last. -/
def createUpdate (s : Sending) : Except EncodeStop (Option UpdatePacket × Sending) := do
  let seqNum := s.nextSeq
  let s := { s with nextSeq := if seqNum = 0xFFFFFFFF then 1 else seqNum + 1 }
  match ← buildHeader frames (createPacket iface.af) with
  | none => return (none, s)
  | some builder =>
    let tlv ← leadingTLVs iface {
      buffer := (frames.payload s.taken).drop builder.bufferOffset
      len := (maxSize info builder).toNat }
    let a ← tlv.appendRoutes iface.toEigrpInterface info.bandwidthMetric info.delay version
      (s.routes.drop s.sent)
    return (some { sequence := seqNum, version, trail := a.tlv.getSpan },
      { s with sent := s.sent + a.appended, routes := s.routes.take s.sent ++ a.routes })

/-- A round of `versionedUpdate`; `mark` sets the flags, from whether the packet is the first one of
    its format and whether all routes have been sent.  The first result is the new `first`. -/
def updateRound (mark : Bool → Bool → UpdatePacket → UpdatePacket) (first : Bool) (s : Sending) :
    Except EncodeStop (Bool × Sending) := do
  match ← createUpdate iface frames info version s with
  | (none, s) => return (first, { s with taken := s.taken + 1 })
  | (some packet, s) =>
    let packet := mark first (s.sent ≥ s.routes.length ∧ s.routes.length > 0) packet
    return (false, { s with taken := s.taken + 1, packets := s.packets ++ [packet] })

/-- The loop of `versionedUpdate`. -/
def versionedLoop (mark : Bool → Bool → UpdatePacket → UpdatePacket) :
    ℕ → Bool → Sending → Except SendStop Sending
  | 0, _, _ => .error .unfinished
  | fuel + 1, first, s =>
    match updateRound iface frames info version mark first s with
    | .error _ => .error .outside
    | .ok (first, s) =>
      if s.sent < s.routes.length then versionedLoop mark fuel first s else .ok s

end

/-- `versionedUpdate` for each format, which all share the counter. -/
def sendVersions (iface : SendInterface) (frames : Frames) (info : PktInfo)
    (mark : Bool → Bool → UpdatePacket → UpdatePacket) (fuel : ℕ) :
    List TLVType → Sending → Except SendStop Sending
  | [], s => .ok s
  | version :: versions, s => do
    let s ← versionedLoop iface frames info version mark fuel true s
    sendVersions iface frames info mark fuel versions s

/-! ## Routes to advertise -/

inductive RouteType where
  | INTERNAL
  | EXTERNAL
  | SUMMARY
  | CONNECTED
  | STATIC
  | WITHDRAW
  deriving DecidableEq, Repr

/-- What is read of a `TopologyEntry`: the interfaces that it is suppressed on, and whether it is
    active. -/
structure EntryView where
  suppression : List UInt32 := []
  active : Bool := false

/-- `RouteInfo`, as an interface advertises it. -/
structure TopologyRoute where
  routeInfo : ReceivedRoute
  routeType : RouteType
  topology : Option EntryView := none
  external : routeInfo.isExternal = decide (routeType = .EXTERNAL)

section
variable (iface : SendInterface)

def EntryView.hidden (entry : EntryView) : Bool :=
  iface.interfaceKey ∈ entry.suppression ∨ entry.active

def StubConfig.allows (stub : StubConfig) : RouteType → Bool
  | .CONNECTED => stub.advertiseConnected
  | .STATIC => stub.advertiseStatic
  | .EXTERNAL => stub.advertiseRedistributed
  | .SUMMARY => stub.advertiseSummary
  | _ => true

def TopologyRoute.advertisable (route : TopologyRoute) : Bool :=
  !(iface.splitHorizon && decide (route.routeInfo.originInterface = iface.interfaceKey) &&
    decide (route.routeType ≠ .SUMMARY)) &&
  (!iface.stub.isStub || iface.stub.allows route.routeType)

/-- `getAdvertisableRoutes`, of the entries with the routes of their best neighbours. -/
def getAdvertisableRoutes (entries : List (EntryView × Option TopologyRoute)) : List TopologyRoute :=
  if iface.passive then []
  else
    entries.filterMap fun e =>
      if e.1.hidden iface then none else e.2.filter (TopologyRoute.advertisable iface)

def filterAdvertisableRoutes (routes : List TopologyRoute) : List TopologyRoute :=
  if routes.isEmpty || iface.passive then []
  else
    routes.filter fun route =>
      !(route.topology.any (EntryView.hidden iface)) && route.advertisable iface

/-! ## Sends -/

/-- The formats of a send: that of the neighbour, or those in use on the interface. -/
def formats (neighbor : Option TLVType) : List TLVType :=
  match neighbor with
  | some tlvType => [tlvType]
  | none => iface.tlvTypes

inductive Resync where
  | NONE
  | INIT
  | REPLY
  deriving DecidableEq, Repr

def markFull (unicast : Bool) (resync : Resync) (first last : Bool) (packet : UpdatePacket) :
    UpdatePacket where
  sequence := packet.sequence
  version := packet.version
  trail := packet.trail
  flagInit := if resync ≠ .REPLY then first else packet.flagInit
  flagRestart := if resync ≠ .NONE then first else packet.flagRestart
  flagEndOfTable := if last then true else packet.flagEndOfTable
  unicast := unicast

def markUpdate (neighbor : Option TLVType) (_first _last : Bool) (packet : UpdatePacket) :
    UpdatePacket :=
  { packet with unicast := neighbor.isSome }

/-- `info`, with the delay that the send adds. -/
def pktInfo (delay : UInt64) : PktInfo where
  bandwidthMetric := (iface.bandwidth / 1000).toUInt32.toUInt64
  delay := delay
  mtu := iface.mtu

variable (frames : Frames) (nextSeq : UInt32)

def startSending (routes : List TopologyRoute) : Sending where
  routes := routes.map TopologyRoute.routeInfo
  nextSeq := nextSeq

/-- `sendFullTopology` to a neighbour whose flag `fullSent` is given; `firstFullSend` is the flag of
    the transport. -/
def sendFullTopology (fullSent firstFullSend : Bool) (resync : Resync)
    (entries : List (EntryView × Option TopologyRoute)) (fuel : ℕ) : Except SendStop Sending :=
  let allRoutes := getAdvertisableRoutes iface entries
  let s := startSending nextSeq allRoutes
  if iface.passive then .ok s
  else if fullSent then .ok s
  else if allRoutes.isEmpty then .ok s
  else
    sendVersions iface frames (pktInfo iface 0)
      (markFull (!iface.multicastEnabled || firstFullSend) resync) fuel iface.tlvTypes s

def sendUpdate (neighbor : Option TLVType) (inputRoutes : List TopologyRoute) (fuel : ℕ) :
    Except SendStop Sending :=
  let routes := filterAdvertisableRoutes iface inputRoutes
  let s := startSending nextSeq routes
  if iface.passive ∨ iface.neighbors = 0 then .ok s
  else if routes.isEmpty then .ok s
  else
    sendVersions iface frames (pktInfo iface 0) (markUpdate neighbor) fuel (formats iface neighbor) s

def sendPoisenedUpdate (neighbor : Option TLVType) (inputRoutes : List TopologyRoute) (fuel : ℕ) :
    Except SendStop Sending :=
  let s := startSending nextSeq inputRoutes
  if iface.passive ∨ iface.neighbors = 0 then .ok s
  else
    sendVersions iface frames (pktInfo iface INFINITE) (markUpdate neighbor) fuel
      (formats iface neighbor) s

end

end VirtualRouter.Eigrp
