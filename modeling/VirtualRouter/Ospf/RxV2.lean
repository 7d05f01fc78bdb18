/-
  What the OSPFv2 receive path reads (`ospf/ospfv2/transmission/RxV2.cpp`).

  The handlers with their checks and reads; what they do to the router is left
  out, as it decides no read.  A packet stops with `oob` at a byte outside of it and
  with `rounds` where a loop goes on for more rounds than it has bytes.

  * `RxEnv`: the configuration and the state that the handlers compare with;
  * `handleIncoming` and the handlers it calls.

  The payload begins after the common header of 24 bytes, and `payloadSize` is the
  length that this header declares, which counts it.
-/
import VirtualRouter.Ospf.OspfFletcher

namespace VirtualRouter.Ospf

open Bytes Utils

/-! ## What is compared -/

inductive AuthType where
  | NULL_
  | SIMPLE
  | CRYPTO
  deriving DecidableEq, Repr

/-- `Neighbor::State`. -/
inductive NeighborState where
  | DOWN
  | ATTEMPT
  | INIT
  | TWOWAY
  | EXSTART
  | EXCHANGE
  | LOADING
  | FULL
  deriving DecidableEq, Repr

def NeighborState.rank : NeighborState → ℕ
  | .DOWN => 0
  | .ATTEMPT => 1
  | .INIT => 2
  | .TWOWAY => 3
  | .EXSTART => 4
  | .EXCHANGE => 5
  | .LOADING => 6
  | .FULL => 7

/-- `Neighbor`, as far as it decides a read. -/
structure RxNeighbor where
  state : NeighborState
  unicast : Bool
  mtu : UInt16
  lastAuthSeq : UInt32
  deriving Repr

/-- The router as a received packet finds it; `hmac` is MD5's. -/
structure RxEnv where
  passive : Bool
  routerId : UInt32
  areaId : UInt32
  authType : AuthType
  authSecret : Option UInt64
  authKey : Option (BitVec 128)
  authKeyId : Option UInt8
  helloInterval : UInt16
  deadInterval : UInt32
  multiAccess : Bool
  mask : UInt32
  mtuIgnore : Bool
  externalRouting : Bool
  nssa : Bool
  addressFamilySupport : Bool
  opaqueEnabled : Bool
  lookup : UInt32 → Option RxNeighbor
  hmac : (data : List UInt8) → (key : BitVec 128) → List UInt8

/-- `flagmanager::testOption`: the options are the bits from 8 on. -/
def testOption (flags : UInt32) (optionBit : UInt8) : Bool :=
  flags &&& (1 <<< (8 + optionBit).toUInt32) ≠ 0

/-- `processOptions`, as far as it returns. -/
def RxEnv.processOptions (env : RxEnv) (options : UInt8) : Bool :=
  env.externalRouting = testOption options.toUInt32 1 ∧ env.nssa = testOption options.toUInt32 3 ∧
    env.addressFamilySupport = testOption options.toUInt32 8

structure Ospfv2Header where
  version : UInt8
  type : UInt8
  packetLen : UInt16
  routerID : UInt32
  areaID : UInt32
  checksum : UInt16
  authType : UInt16
  authentication : List UInt8

def parseHeader (p : BytePtr) : Ospfv2Header where
  version := p 0
  type := p 1
  packetLen := readU16 (p.add 2)
  routerID := readU32 (p.add 4)
  areaID := readU32 (p.add 8)
  checksum := readU16 (p.add 12)
  authType := readU16 (p.add 14)
  authentication := (p.add 16).take 8

/-- `Ospfv2LSAHeader`, as far as it is read. -/
structure Ospfv2LSAHeader where
  type : UInt8
  lsID : UInt32
  len : UInt16

def parseLsaHeader (p : BytePtr) : Ospfv2LSAHeader where
  type := p 3
  lsID := readU32 (p.add 4)
  len := readU16 (p.add 18)

/-- `HeaderInfo`; `payload` is the packet from its 24th byte on. -/
structure HeaderInfo where
  payloadSize : ℕ
  authSize : ℕ

def payload : ℕ := 24

/-! ## Authentication -/

def RxEnv.processOspfSimpleAuthentication (env : RxEnv) (hdr : Ospfv2Header) : Bool :=
  match env.authSecret with
  | none => true
  | some secret => hdr.authType = 1 ∧ hdr.authentication = writeU64 secret

/-- `processOspfCryptoAuthentication`: the size of the digest, or `none` if it fails. -/
def RxEnv.processOspfCryptoAuthentication (env : RxEnv) (neighbor : Option RxNeighbor)
    (hdr : Ospfv2Header) (pkt : List UInt8) : Except Stop (Option ℕ) :=
  match env.authKeyId, env.authKey with
  | some _, some key =>
    if pkt.length < hdr.packetLen.toNat + 16 then .ok none
    else if hdr.authType ≠ 2 then .ok none
    else if (hdr.authentication.getD 2 0).toNat ≠ key.toNat then .ok none
    else if hdr.authentication.getD 3 0 ≠ 16 then .ok none
    else match neighbor with
      | none => .error .null
      | some nbr =>
        if readU32 ((ofList hdr.authentication).add 4) ≤ nbr.lastAuthSeq then .ok none
        else do
          let data ← readPacket pkt 0 hdr.packetLen.toNat (·.take hdr.packetLen.toNat)
          let digest ← readPacket pkt hdr.packetLen.toNat 16 (·.take 16)
          return if env.hmac data key = digest then some 16 else none
  | _, _ => .ok (some 0)

/-- The checksum of the packet; the length is an unsigned difference. -/
def checksumPasses (hdr : Ospfv2Header) (pkt : List UInt8) : Except Stop Bool := do
  let head ← readPacket pkt 0 12 (·.take 12)
  let len := (hdr.packetLen.toNat + (2 ^ 64 - 14)) % 2 ^ 64
  let rest ← readPacket pkt 14 len (·.take len)
  let check := (ChecksumFletcher.addBytes {} head).addBytes rest
  return check.finalize = hdr.checksum

def RxEnv.authenticate (env : RxEnv) (neighbor : Option RxNeighbor) (hdr : Ospfv2Header)
    (pkt : List UInt8) : Except Stop (Option ℕ) :=
  match env.authType with
  | .CRYPTO => env.processOspfCryptoAuthentication neighbor hdr pkt
  | .SIMPLE =>
    if env.processOspfSimpleAuthentication hdr then do
      let ok ← checksumPasses hdr pkt
      return if ok then some 0 else none
    else .ok none
  | .NULL_ => do
    let ok ← checksumPasses hdr pkt
    return if ok then some 0 else none

/-! ## Hello -/

/-- The loop over the neighbor list. -/
def findRid (pkt : List UInt8) (routerId : UInt32) (listSize : ℕ) :
    (fuel i : ℕ) → Except Stop Bool
  | 0, _ => .error .rounds
  | fuel + 1, i => do
    if i < listSize then
      let rid ← readPacket pkt (payload + 20 + i) 4 readU32
      if rid = routerId then .ok true else findRid pkt routerId listSize fuel (i + 4)
    else .ok false

/-- The end of `processHello`, once the neighbor's list has been searched. -/
def RxEnv.readPriority (env : RxEnv) (pkt : List UInt8) : Except Stop Unit := do
  let _ ← readPacket pkt (payload + 7) 1 (· 0)
  if env.multiAccess then
    let _ ← readPacket pkt (payload + 12) 4 readU32
    let _ ← readPacket pkt (payload + 16) 4 readU32
    .ok ()
  else .ok ()

/-- `processHello` from the neighbor list on. -/
def RxEnv.processNeighborList (env : RxEnv) (info : HeaderInfo) (pkt : List UInt8) :
    Except Stop Unit := do
  if env.multiAccess then
    let listSize := info.payloadSize - 20
    if listSize % 4 ≠ 0 then .ok ()
    else
      let ridFound ← findRid pkt env.routerId listSize pkt.length 0
      if ridFound then env.readPriority pkt else .ok ()
  else env.readPriority pkt

/-- `processHello` from the options on; a new neighbor is not full. -/
def RxEnv.processHelloOptions (env : RxEnv) (info : HeaderInfo) (neighbor : Option RxNeighbor)
    (pkt : List UInt8) : Except Stop Unit := do
  if (neighbor.map RxNeighbor.state) = some .FULL then env.processNeighborList info pkt
  else
    let options ← readPacket pkt (payload + 6) 1 (· 0)
    if env.processOptions options then env.processNeighborList info pkt else .ok ()

def RxEnv.processHello (env : RxEnv) (info : HeaderInfo) (neighbor : Option RxNeighbor)
    (pkt : List UInt8) : Except Stop Unit := do
  if info.payloadSize < 20 then .ok ()
  else
    let helloInterval ← readPacket pkt (payload + 4) 2 readU16
    if helloInterval ≠ env.helloInterval then .ok ()
    else
      let deadInterval ← readPacket pkt (payload + 8) 4 readU32
      if deadInterval ≠ env.deadInterval then .ok ()
      else if env.multiAccess then
        let mask ← readPacket pkt payload 4 readU32
        if mask ≠ env.mask then .ok () else env.processHelloOptions info neighbor pkt
      else env.processHelloOptions info neighbor pkt

/-! ## Headers and requests -/

/-- `while (info.offset < info.payloadSize)` over entries of `size` bytes, in `processDBD`,
    `processLSAck` and `processLSRequest`: whether the loop was left at its condition. -/
def readEntries (pkt : List UInt8) (size payloadSize : ℕ) : (fuel offset : ℕ) → Except Stop Bool
  | 0, _ => .error .rounds
  | fuel + 1, offset => do
    if offset < payloadSize then
      if payloadSize < offset + size then .ok false
      else
        let _ ← readPacket pkt (payload + offset) size (·.take size)
        readEntries pkt size payloadSize fuel (offset + size)
    else .ok true

def processLSAck (info : HeaderInfo) (pkt : List UInt8) : Except Stop Unit := do
  let _ ← readEntries pkt 20 info.payloadSize pkt.length 0
  .ok ()

def processLSRequest (info : HeaderInfo) (pkt : List UInt8) : Except Stop Unit := do
  if info.payloadSize % 12 ≠ 0 then .ok ()
  else
    let _ ← readEntries pkt 12 info.payloadSize pkt.length 0
    .ok ()

/-! ## Link-local signalling -/

/-- The extended options and the authentication of a data block: the loop over its TLVs from
    `offset` on, whether it was left at its condition. -/
def RxEnv.readTlvs (env : RxEnv) (pkt : List UInt8) (lastAuthSeq : UInt32) (authEnabled : Bool)
    (llsBase llsLen : ℕ) : (fuel offset : ℕ) → Except Stop Bool
  | 0, _ => .error .rounds
  | fuel + 1, offset => do
    if offset + 4 < llsLen then
      let type ← readPacket pkt (llsBase + offset) 2 readU16
      let size ← readPacket pkt (llsBase + offset + 2) 2 readU16
      if type = 1 then
        if size ≠ 4 ∨ llsLen < offset + 8 then .ok false
        else
          let _ ← readPacket pkt (llsBase + offset + 4) 4 readU32
          env.readTlvs pkt lastAuthSeq authEnabled llsBase llsLen fuel (offset + 8)
      else if type = 2 then
        if !authEnabled ∨ size ≠ 20 ∨ llsLen < offset + 24 then .ok false
        else
          let seq ← readPacket pkt (llsBase + offset + 4) 4 readU32
          if seq < lastAuthSeq then .ok false
          else
            let data ← readPacket pkt llsBase (llsLen - 16) (·.take (llsLen - 16))
            let digest ← readPacket pkt (llsBase + llsLen - 16) 16 (·.take 16)
            if env.hmac data (env.authKey.getD 0) ≠ digest then .ok false
            else env.readTlvs pkt lastAuthSeq authEnabled llsBase llsLen fuel (offset + 24)
      else if llsLen < offset + 4 + size.toNat then .ok false
      else env.readTlvs pkt lastAuthSeq authEnabled llsBase llsLen fuel (offset + 4 + size.toNat)
    else .ok true

def RxEnv.processLLSDataBlock (env : RxEnv) (info : HeaderInfo) (nbr : RxNeighbor)
    (pkt : List UInt8) (offset : ℕ) : Except Stop Unit := do
  if offset + info.authSize ≠ info.payloadSize then .ok ()
  else
    let llsBase := payload + info.payloadSize
    if pkt.length < info.payloadSize + 4 then .ok ()
    else
      let llsLen ← readPacket pkt (llsBase + 2) 2 readU16
      if llsLen.toNat < 4 ∨ pkt.length < info.payloadSize + llsLen.toNat then .ok ()
      else
        let authEnabled := env.authType = .CRYPTO ∧ env.authKey.isSome ∧ env.authKeyId.isSome
        let done ← env.readTlvs pkt nbr.lastAuthSeq authEnabled llsBase llsLen.toNat pkt.length 4
        if done ∧ ¬ authEnabled then
          let _ ← readPacket pkt (llsBase + 2) (llsLen.toNat - 2) (·.take (llsLen.toNat - 2))
          let _ ← readPacket pkt llsBase 2 readU16
          .ok ()
        else .ok ()

/-! ## Database description -/

/-- The end of `processDBD`: the data block, if the options have the EA bit. -/
def RxEnv.readDataBlock (env : RxEnv) (info : HeaderInfo) (nbr : RxNeighbor) (pkt : List UInt8)
    (options : UInt8) (offset : ℕ) : Except Stop Unit :=
  if testOption options.toUInt32 4 then env.processLLSDataBlock info nbr pkt offset else .ok ()

/-- `processDBD` from the sequence number on. -/
def RxEnv.processDescriptions (env : RxEnv) (info : HeaderInfo) (nbr : RxNeighbor)
    (pkt : List UInt8) (options : UInt8) : Except Stop Unit := do
  let _ ← readPacket pkt (payload + 4) 4 readU32
  let flags ← readPacket pkt (payload + 3) 1 (· 0)
  if flags &&& 0x04 ≠ 0 then
    if info.payloadSize ≠ 8 then .ok ()
    else env.readDataBlock info nbr pkt options 8
  else if nbr.state = .EXCHANGE then
    let done ← readEntries pkt 20 info.payloadSize pkt.length 8
    if done then env.readDataBlock info nbr pkt options info.payloadSize else .ok ()
  else env.readDataBlock info nbr pkt options 8

def RxEnv.processDBD (env : RxEnv) (info : HeaderInfo) (nbr : RxNeighbor) (pkt : List UInt8) :
    Except Stop Unit := do
  if nbr.state.rank < NeighborState.EXSTART.rank then .ok ()
  else if info.payloadSize < 8 then .ok ()
  else if (info.payloadSize - 8) % 20 ≠ 0 then .ok ()
  else
    let options ← readPacket pkt (payload + 2) 1 (· 0)
    if !env.processOptions options then .ok ()
    else if env.mtuIgnore then
      let mtu ← readPacket pkt payload 2 readU16
      if nbr.mtu ≠ mtu then .ok () else env.processDescriptions info nbr pkt options
    else env.processDescriptions info nbr pkt options

/-! ## Link state update -/

def RxEnv.buildLsaBody (env : RxEnv) (type : UInt8) (pkt : List UInt8) (pos : ℕ) (len : UInt16)
    (lsId : UInt32) : Except Stop LsaBodyV2 :=
  if type = 1 then .router <$> RouterLsaV2.build pkt pos len
  else if type = 2 then .network <$> NetworkLsaV2.build pkt pos len
  else if type = 3 then .summaryNetwork <$> SummaryNetworkLsa.build pkt pos len
  else if type = 4 then .summaryRouter <$> SummaryRouterLsa.build pkt pos len
  else if type = 5 ∨ type = 7 then .external <$> ExternalLsaV2.build pkt pos len
  else if type = 9 ∨ type = 10 ∨ type = 11 then
    if env.opaqueEnabled then .opaqueLsa <$> OpaqueLsaV2.build lsId pkt pos len
    else .error .refused
  else .error .refused

/-- The test of the checksum and the parse of the body; a body that is refused is passed over. -/
def RxEnv.readLsa (env : RxEnv) (pkt : List UInt8) (pos : ℕ) (hdr : Ospfv2LSAHeader) :
    Except Stop Unit := do
  let _ ← readPacket pkt (pos + 2) (hdr.len.toNat - 2) (·.take (hdr.len.toNat - 2))
  match env.buildLsaBody hdr.type pkt (pos + 20) (hdr.len - 20) hdr.lsID with
  | .error .oob => .error .oob
  | .error .rounds => .error .rounds
  | _ => .ok ()

/-- The loop of `processLSUpdate` over the LSAs that are left. -/
def RxEnv.readLsas (env : RxEnv) (info : HeaderInfo) (pkt : List UInt8) :
    (fuel left offset : ℕ) → Except Stop Unit
  | _, 0, _ => .ok ()
  | 0, _ + 1, _ => .error .rounds
  | fuel + 1, left + 1, offset => do
    if info.payloadSize < offset + 20 then .ok ()
    else
      let hdr ← readPacket pkt (payload + offset) 20 parseLsaHeader
      if hdr.len.toNat < 20 then .ok ()
      else if info.payloadSize < offset + hdr.len.toNat then .ok ()
      else
        env.readLsa pkt (payload + offset) hdr
        env.readLsas info pkt fuel left (offset + hdr.len.toNat)

/-- The count of the LSAs as an `int`: a negative one is no round. -/
def lsuRounds (lsuSize : UInt32) : ℕ := if lsuSize.toNat < 2 ^ 31 then lsuSize.toNat else 0

def RxEnv.processLSUpdate (env : RxEnv) (info : HeaderInfo) (nbr : RxNeighbor) (pkt : List UInt8) :
    Except Stop Unit := do
  if info.payloadSize < 4 then .ok ()
  else if nbr.state.rank < NeighborState.EXCHANGE.rank then .ok ()
  else
    let lsuSize ← readPacket pkt payload 4 readU32
    env.readLsas info pkt pkt.length (lsuRounds lsuSize) 4

/-! ## Dispatch -/

/-- The switch over the packet type. -/
def RxEnv.dispatch (env : RxEnv) (hdr : Ospfv2Header) (info : HeaderInfo)
    (neighbor : Option RxNeighbor) (multicast : Bool) (pkt : List UInt8) : Except Stop Unit :=
  if hdr.type = 1 then
    if (neighbor.map RxNeighbor.unicast) = some multicast then .ok ()
    else env.processHello info neighbor pkt
  else match neighbor with
    | none => .ok ()
    | some nbr =>
      if hdr.type = 2 then env.processDBD info nbr pkt
      else if hdr.type = 5 then processLSAck info pkt
      else if hdr.type = 3 then processLSRequest info pkt
      else if hdr.type = 4 then env.processLSUpdate info nbr pkt
      else .ok ()

def RxEnv.handleIncoming (env : RxEnv) (pkt : List UInt8) (multicast : Bool) : Except Stop Unit := do
  if env.passive then .ok ()
  else
    let hdr ← readPacket pkt 0 24 parseHeader
    if hdr.version ≠ 2 ∨ hdr.areaID ≠ env.areaId ∨ pkt.length < hdr.packetLen.toNat then .ok ()
    else
      let neighbor := env.lookup hdr.routerID
      let auth ← env.authenticate neighbor hdr pkt
      match auth with
      | none => .ok ()
      | some authSize =>
        if hdr.routerID = env.routerId ∨ hdr.type < 1 ∨ 5 < hdr.type then .ok ()
        else
          env.dispatch hdr { payloadSize := hdr.packetLen.toNat, authSize } neighbor multicast pkt

end VirtualRouter.Ospf
