/-
  The capabilities of an OPEN message (`routing/bgp/session/Capabilities.hpp`),
  as they are written (`appendCapabilities` and `computeCapabilityLen` of
  `BgpTx.cpp`) and read (`BgpRx::parseCapabilities`).

  Each call of `openParam` reserves one span, and `appendCapabilities` is the
  list of the bytes that end up in these spans: the writes of a span, cut at the
  number of bytes reserved, which is computed in eight bits.  A loop over the
  entries of a capability is the list of what its rounds read.
-/
import VirtualRouter.Bgp.BgpTypes

namespace VirtualRouter.Bgp

open Bytes Utils

/-! ## The data -/

structure GracefulRestartFamily where
  family : AfiSafi
  forwardingStatePreserved : Bool
  deriving DecidableEq, Repr

structure LlgrFamily where
  family : AfiSafi
  staleTime : UInt32
  flags : UInt8
  deriving DecidableEq, Repr

structure AddPathFamily where
  family : AfiSafi
  sendReceive : UInt8
  deriving DecidableEq, Repr

structure OrfEntry where
  family : AfiSafi
  orfType : UInt8
  sendReceive : UInt8
  deriving DecidableEq, Repr

structure ExtendedNextHop where
  family : AfiSafi
  nextHopAfi : UInt16
  deriving DecidableEq, Repr

/-- `Capabilities`; a string is its bytes. -/
@[ext] structure Capabilities where
  mpFamilies : List AfiSafi := []
  routeRefresh : Bool := false
  enhancedRouteRefresh : Bool := false
  asn32bit : Bool := false
  asn : UInt32 := 0
  extendedMessage : Bool := false
  gracefulRestart : Bool := false
  restarting : Bool := false
  restartTime : UInt16 := 0
  gracefulFamilies : List GracefulRestartFamily := []
  llgr : Bool := false
  llgrFamilies : List LlgrFamily := []
  multiSess : Bool := false
  multiSessionFamilies : List AfiSafi := []
  addPath : Bool := false
  addPathFamilies : List AddPathFamily := []
  outboundRouteFiltering : Bool := false
  orfEntries : List OrfEntry := []
  extendedNextHop : Bool := false
  extendedNextHopEntries : List ExtendedNextHop := []
  multipleLabels : Bool := false
  labeledFamilies : List AfiSafi := []
  routeTargetConstraint : Bool := false
  RtConstraintFamily : List AfiSafi := []
  bgpsec : Bool := false
  bgpsecFamilies : List AfiSafi := []
  fqdn : Bool := false
  hostname : List UInt8 := []
  domain : List UInt8 := []
  linkLocalNextHop : Bool := false
  deriving DecidableEq, Repr

def BGP_PARAMETER_CAPABILITY : UInt8 := 0x02

def BGP_CAPABILITY_MULTIPROTOCOL : UInt8 := 0x01
def BGP_CAPABILITY_ROUTE_REFRESH : UInt8 := 0x02
def BGP_CAPABILITY_OUTBOUND_FILTER : UInt8 := 0x03
def BGP_CAPABILITY_EXTENDED_NEXT_HOP : UInt8 := 0x05
def BGP_CAPABILITY_EXTENDED_MESSAGE : UInt8 := 0x06
def BGP_CAPABILITY_BGP_SEC : UInt8 := 0x07
def BGP_CAPABILITY_MULTIPLE_LABELS : UInt8 := 0x08
def BGP_CAPABILITY_GRACEFUL_RESTART : UInt8 := 64
def BGP_CAPABILITY_32_BIT_AS : UInt8 := 65
def BGP_CAPABILITY_MULTI_SESSION : UInt8 := 68
def BGP_CAPABILITY_ADD_PATH : UInt8 := 69
def BGP_CAPABILITY_ENHANCED_ROUTE_REFRESH : UInt8 := 70
def BGP_CAPABILITY_LLGR : UInt8 := 71
def BGP_CAPABILITY_FQDN : UInt8 := 73
def BGP_CAPABILITY_LINK_LOCAL_NEXT_HOP : UInt8 := 77

/-! ## Writing -/

/-- `openParam` and the writes behind the pointer it returns.  The sizes are `uint8_t`. -/
def openParam (code : UInt8) (data : List UInt8) : List UInt8 :=
  let dataSize := UInt8.ofNat data.length
  let siz := dataSize + 4
  (BGP_PARAMETER_CAPABILITY :: (dataSize + 2) :: code :: dataSize :: data).take siz.toNat

def getFragSize (blockSize : ℕ) : ℕ := 253 / blockSize

def getFragments (fragSize blockCount : ℕ) : ℕ := (blockCount + fragSize - 1) / fragSize

/-- A capability with a list of entries of `blockSize` bytes, cut into fragments. -/
def fragments {α : Type*} (code : UInt8) (blockSize : ℕ) (block : α → List UInt8) (entries : List α) :
    List (List UInt8) :=
  let fragSize := getFragSize blockSize
  (List.range (getFragments fragSize entries.length)).map fun f =>
    let startIdx := f * fragSize
    let entriesInThisFrag := min fragSize (entries.length - startIdx)
    openParam code (((entries.drop startIdx).take entriesInThisFrag).flatMap block)

def mpBlock (fam : AfiSafi) : List UInt8 := writeU16 fam.afi ++ [0, fam.safi]

def orfBlock (entry : OrfEntry) : List UInt8 :=
  writeU16 entry.family.afi ++ [0, entry.family.safi, 1, entry.orfType, entry.sendReceive]

def extendedNextHopBlock (entry : ExtendedNextHop) : List UInt8 :=
  writeU16 entry.family.afi ++ writeU16 entry.family.safi.toUInt16 ++ writeU16 entry.nextHopAfi

def gracefulBlock (gf : GracefulRestartFamily) : List UInt8 :=
  writeU16 gf.family.afi ++ [gf.family.safi, if gf.forwardingStatePreserved then 0x80 else 0x00]

def multiSessionBlock (entry : AfiSafi) : List UInt8 := writeU16 entry.afi ++ [entry.safi, 0]

def addPathBlock (entry : AddPathFamily) : List UInt8 :=
  writeU16 entry.family.afi ++ [entry.family.safi, entry.sendReceive]

def llgrBlock (lf : LlgrFamily) : List UInt8 :=
  writeU16 lf.family.afi ++ [lf.family.safi, lf.flags] ++ writeU24 (lf.staleTime &&& 0x00FFFFFF)

def flagsTime (caps : Capabilities) : UInt16 :=
  if caps.restarting then caps.restartTime &&& 0x0FFF ||| 0x8000 else caps.restartTime &&& 0x0FFF

def fqdnData (caps : Capabilities) : List UInt8 :=
  UInt8.ofNat caps.hostname.length :: caps.hostname ++
    UInt8.ofNat caps.domain.length :: caps.domain

/-- A capability without data. -/
def flagParam (flag : Bool) (code : UInt8) : List (List UInt8) :=
  if flag then [openParam code []] else []

/-- `appendCapabilities`: the parameters in the order they are appended. -/
def appendCapabilities (caps : Capabilities) : List (List UInt8) :=
  (caps.mpFamilies.map fun fam => openParam BGP_CAPABILITY_MULTIPROTOCOL (mpBlock fam)) ++
  flagParam caps.routeRefresh BGP_CAPABILITY_ROUTE_REFRESH ++
  (caps.orfEntries.map fun entry => openParam BGP_CAPABILITY_OUTBOUND_FILTER (orfBlock entry)) ++
  fragments BGP_CAPABILITY_EXTENDED_NEXT_HOP 6 extendedNextHopBlock caps.extendedNextHopEntries ++
  flagParam caps.extendedMessage BGP_CAPABILITY_EXTENDED_MESSAGE ++
  (if caps.gracefulRestart then
    [openParam BGP_CAPABILITY_GRACEFUL_RESTART
      (writeU16 (flagsTime caps) ++ caps.gracefulFamilies.flatMap gracefulBlock)]
  else []) ++
  (if caps.asn32bit then [openParam BGP_CAPABILITY_32_BIT_AS (writeU32 caps.asn)] else []) ++
  fragments BGP_CAPABILITY_MULTI_SESSION 4 multiSessionBlock caps.multiSessionFamilies ++
  fragments BGP_CAPABILITY_ADD_PATH 4 addPathBlock caps.addPathFamilies ++
  flagParam caps.enhancedRouteRefresh BGP_CAPABILITY_ENHANCED_ROUTE_REFRESH ++
  (if caps.llgr && !caps.llgrFamilies.isEmpty then
    [openParam BGP_CAPABILITY_LLGR (caps.llgrFamilies.flatMap llgrBlock)]
  else []) ++
  (if caps.fqdn then [openParam BGP_CAPABILITY_FQDN (fqdnData caps)] else []) ++
  flagParam caps.linkLocalNextHop BGP_CAPABILITY_LINK_LOCAL_NEXT_HOP

/-! ## Counting -/

/-- `addParam` of `computeCapabilityLen`. -/
def addParam (capSize : UInt16) (dataSize : UInt8) : UInt16 := capSize + (4 + dataSize.toUInt16)

/-- The parameters of a fragmented list of `total` entries, `head` bytes in front of each
    fragment.  The bound `frags - 1` of the loop is a `size_t`. -/
def addFragments (head blockSize total : ℕ) (capSize : UInt16) : UInt16 :=
  let fragSize := getFragSize blockSize
  let frags := getFragments fragSize total
  let remainder := total % fragSize
  addParam
    ((addParam · (UInt8.ofNat (head + fragSize * blockSize)))^[(frags + (2 ^ 64 - 1)) % 2 ^ 64] capSize)
    (UInt8.ofNat (head + (if remainder = 0 then fragSize else remainder) * blockSize))

/-- A step of `computeCapabilityLen` under a condition. -/
def addIf (c : Bool) (f : UInt16 → UInt16) (capSize : UInt16) : UInt16 :=
  if c then f capSize else capSize

/-- `computeCapabilityLen`: the length that the OPEN message announces. -/
def computeCapabilityLen (caps : Capabilities) : UInt16 :=
  let capSize : UInt16 := 0
  let capSize := caps.mpFamilies.foldl (fun c _ => addParam c 4) capSize
  let capSize := addIf caps.routeRefresh (addParam · 0) capSize
  let capSize := caps.orfEntries.foldl (fun c _ => addParam c 7) capSize
  let capSize := addIf (!caps.extendedNextHopEntries.isEmpty)
    (addFragments 0 6 caps.extendedNextHopEntries.length) capSize
  let capSize := addIf caps.extendedMessage (addParam · 0) capSize
  -- this one and LLGR are counted in fragments but appended as one parameter
  let capSize := addIf caps.gracefulRestart (addFragments 2 4 caps.gracefulFamilies.length) capSize
  let capSize := addIf caps.asn32bit (addParam · 4) capSize
  let capSize := addIf (!caps.multiSessionFamilies.isEmpty)
    (addFragments 0 4 caps.multiSessionFamilies.length) capSize
  let capSize := addIf (!caps.addPathFamilies.isEmpty)
    (addFragments 0 4 caps.addPathFamilies.length) capSize
  let capSize := addIf caps.enhancedRouteRefresh (addParam · 0) capSize
  let capSize := addIf (caps.llgr && !caps.llgrFamilies.isEmpty)
    (addFragments 0 7 caps.llgrFamilies.length) capSize
  let capSize := addIf caps.fqdn
    (addParam · (UInt8.ofNat (1 + caps.hostname.length + 1 + caps.domain.length))) capSize
  addIf caps.linkLocalNextHop (addParam · 0) capSize

/-! ## Reading -/

/-- What the rounds `i = 0, 1, …` of a loop over `n` entries of `size` bytes at `p` read. -/
def readEntries {α : Type*} (p : BytePtr) (size n : ℕ) (read : BytePtr → α) : List α :=
  (List.range n).map fun i => read (p.add (size * i))

/-- The `switch` of `parseCapabilities` on the capability `type` with `len` bytes at `p`. -/
def parseCapability (type : UInt8) (len : ℕ) (p : BytePtr) (out : Capabilities) : Capabilities :=
  if type = BGP_CAPABILITY_MULTIPROTOCOL then
    if len = 4 then { out with mpFamilies := out.mpFamilies ++ [⟨readU16 p, p 3⟩] } else out
  else if type = BGP_CAPABILITY_ROUTE_REFRESH then
    if len = 0 then { out with routeRefresh := true } else out
  else if type = BGP_CAPABILITY_ENHANCED_ROUTE_REFRESH then
    if len = 0 then { out with enhancedRouteRefresh := true } else out
  else if type = BGP_CAPABILITY_OUTBOUND_FILTER then
    if len ≥ 5 then
      let family : AfiSafi := ⟨readU16 p, p 2⟩
      let count := (p 3).toNat
      { out with
        orfEntries := out.orfEntries ++
          readEntries (p.add 4) 2 (min count ((len - 4) / 2)) fun q => ⟨family, q 0, q 1⟩
        outboundRouteFiltering := true }
    else out
  else if type = BGP_CAPABILITY_EXTENDED_NEXT_HOP then
    { out with
      extendedNextHopEntries := out.extendedNextHopEntries ++
        readEntries p 6 (len / 6) fun q => ⟨⟨readU16 q, q 2⟩, readU16 (q.add 4)⟩
      extendedNextHop := out.extendedNextHop || decide (len ≥ 6) }
  else if type = BGP_CAPABILITY_EXTENDED_MESSAGE then
    if len = 0 then { out with extendedMessage := true } else out
  else if type = BGP_CAPABILITY_BGP_SEC then
    if len = 3 then
      { out with bgpsecFamilies := out.bgpsecFamilies ++ [⟨readU16 p, p 2⟩], bgpsec := true }
    else out
  else if type = BGP_CAPABILITY_MULTIPLE_LABELS then
    if len ≥ 3 then
      { out with
        labeledFamilies := out.labeledFamilies ++ [⟨readU16 p, p 2⟩]
        multipleLabels := true }
    else out
  else if type = BGP_CAPABILITY_GRACEFUL_RESTART then
    if len ≥ 2 then
      let flagsTime := readU16 p
      { out with
        gracefulRestart := true
        restarting := flagsTime &&& 0x8000 != 0
        restartTime := flagsTime &&& 0x0FFF
        gracefulFamilies := out.gracefulFamilies ++
          readEntries (p.add 2) 4 ((len - 2) / 4) fun q =>
            ⟨⟨readU16 q, q 2⟩, q 3 &&& 0x80 != 0⟩ }
    else out
  else if type = BGP_CAPABILITY_32_BIT_AS then
    if len = 4 then { out with asn32bit := true, asn := readU32 p } else out
  else if type = BGP_CAPABILITY_MULTI_SESSION then
    { out with
      multiSessionFamilies := out.multiSessionFamilies ++
        readEntries p 4 (len / 4) fun q => ⟨readU16 q, q 2⟩
      multiSess := out.multiSess || decide (len ≥ 4) }
  else if type = BGP_CAPABILITY_ADD_PATH then
    { out with
      addPathFamilies := out.addPathFamilies ++
        readEntries p 4 (len / 4) fun q => ⟨⟨readU16 q, q 2⟩, q 3⟩
      addPath := out.addPath || decide (len ≥ 4) }
  else if type = BGP_CAPABILITY_LLGR then
    { out with
      llgrFamilies := out.llgrFamilies ++
        readEntries p 7 (len / 7) fun q => ⟨⟨readU16 q, q 2⟩, readU24 (q.add 4), q 3⟩
      llgr := out.llgr || decide (len ≥ 7) }
  else if type = BGP_CAPABILITY_FQDN then
    if len ≥ 1 then
      let hnLen := (p 0).toNat
      if 1 + hnLen ≤ len then
        let domainOff := 1 + hnLen
        let domLen := (p domainOff).toNat
        { out with
          hostname := (p.add 1).take hnLen
          domain :=
            if domainOff + 1 ≤ len ∧ domainOff + 1 + domLen ≤ len then
              (p.add (domainOff + 1)).take domLen
            else out.domain
          fqdn := true }
      else out
    else out
  else if type = BGP_CAPABILITY_LINK_LOCAL_NEXT_HOP then
    if len = 0 then { out with linkLocalNextHop := true } else out
  else out

/-- The loop of `parseCapabilities` from `idx` on; each round moves `idx` by two or more, so
    that `size` rounds are enough. -/
def parseCapabilitiesFrom (data : BytePtr) (size : ℕ) : ℕ → ℕ → Capabilities → Capabilities
  | 0, _, out => out
  | n + 1, idx, out =>
    if idx + 2 ≤ size then
      let type := data idx
      let len := (data (idx + 1)).toNat
      if idx + 2 + len > size then out
      else
        parseCapabilitiesFrom data size n (idx + (2 + len))
          (parseCapability type len (data.add (idx + 2)) out)
    else out

/-- `parseCapabilities` on a span of `size` bytes. -/
def parseCapabilities (data : BytePtr) (size : ℕ) (out : Capabilities) : Capabilities :=
  parseCapabilitiesFrom data size size 0 out

end VirtualRouter.Bgp
