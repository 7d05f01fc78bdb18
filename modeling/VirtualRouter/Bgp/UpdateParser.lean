/-
  The handler of UPDATE messages (`BgpRx::processUpdate`,
  `BgpRx::parsePathAttributes`).

  A span is the list of its bytes.  The functions stop with the error that the
  source leaves in its `error` argument, or with `outside` where they read a byte
  outside the span at hand or form a sub-span that is not inside it: the value of
  an attribute is such a span.  What the code does behind that point depends on
  memory that is not its own.

  The NLRI decoders of the address families are the argument `afs` of
  `processUpdate`.
-/
import VirtualRouter.Lib.BoundedRead
import VirtualRouter.Bgp.PathAttributes

namespace VirtualRouter.Bgp

open Bytes Utils

def BGP_AFI_IPV6 : UInt16 := 0x0002

def BGP_ORIGIN_INCOMPLETE : UInt8 := 0x02

def BGP_AS_SET : UInt8 := 1

def BGP_NOTIFICATION_UPDATE_MALFORMED_ATTR_LIST : UInt16 := 0x0301
def BGP_NOTIFICATION_UPDATE_UNRECOGNIZED_ATTR : UInt16 := 0x0302
def BGP_NOTIFICATION_UPDATE_ATTR_FLAG : UInt16 := 0x0304
def BGP_NOTIFICATION_UPDATE_ATTR_LENGTH : UInt16 := 0x0305
def BGP_NOTIFICATION_UPDATE_INVALID_ORIGIN : UInt16 := 0x0306
def BGP_NOTIFICATION_UPDATE_MALFORMED_AS_PATH : UInt16 := 0x030B

/-! ## Reads -/

inductive Stop where
  | error (n : Notification)
  | outside
  deriving DecidableEq, Repr

abbrev Rx := Except Stop

def rd8 (l : List UInt8) (i : ℕ) : Rx UInt8 := readAt .outside l i 1 fun p => p 0

def rdU16 (l : List UInt8) (i : ℕ) : Rx UInt16 := readAt .outside l i 2 readU16

def rdU32 (l : List UInt8) (i : ℕ) : Rx UInt32 := readAt .outside l i 4 readU32

def rdU64 (l : List UInt8) (i : ℕ) : Rx UInt64 := readAt .outside l i 8 readU64

/-- `memcpy` of 16 bytes into the `raw` field of an address, on a little-endian host. -/
def rawOfBytes (p : BytePtr) : BitVec 128 :=
  (List.range 16).foldr (fun i raw => raw <<< 8 ||| (p i).toBitVec.setWidth 128) 0

def rdRaw (l : List UInt8) (i : ℕ) : Rx IPAddress := readAt .outside l i 16 fun p => ⟨rawOfBytes p⟩

/-- An address of four bytes. -/
def rdV4 (l : List UInt8) (i : ℕ) : Rx IPAddress := readAt .outside l i 4 fun p => .ofV4 (readU32 p)

theorem rd8_ok {l : List UInt8} {i : ℕ} (h : i < l.length) : rd8 l i = .ok (ofList l i) := readAt_ok h

theorem rdU16_ok {l : List UInt8} {i : ℕ} (h : i + 2 ≤ l.length) :
    rdU16 l i = .ok (readU16 ((ofList l).add i)) := readAt_ok h

def failWith (code : UInt16) : Stop := .error ⟨code, []⟩

/-! ## The state -/

structure IncomingUpdate where
  attrs : Attributes := {}
  path : Path := {}
  afi : AfiSafi := ⟨BGP_AFI_IPV4, BGP_SAFI_UNICAST⟩
  withdrawnData : List UInt8 := []
  nlriData : List UInt8 := []

/-- The variables of the loop of `parsePathAttributes`. -/
structure ParseState where
  update : IncomingUpdate := {}
  reachAfi : Option AfiSafi := none
  unreachAfi : Option AfiSafi := none

def ParseState.attrs (s : ParseState) : Attributes := s.update.attrs

def ParseState.setAttrs (s : ParseState) (attrs : Attributes) : ParseState :=
  { s with update := { s.update with attrs := attrs } }

/-- What `parsePathAttributes` reads of the session: the negotiated width of AS numbers and the
    attribute types that are configured to be discarded or to withdraw the routes. -/
structure RxConfig where
  asn32bit : Bool
  discard : UInt8 → Bool := fun _ => false
  withdraw : UInt8 → Bool := fun _ => false

structure RxAttr where
  flags : UInt8
  type : UInt8
  val : List UInt8
  deriving DecidableEq, Repr

namespace RxAttr

def optional (a : RxAttr) : Bool := a.flags &&& BGP_ATTR_FLAG_OPTIONAL != 0

def transitive (a : RxAttr) : Bool := a.flags &&& BGP_ATTR_FLAG_TRANSITIVE != 0

def wellKnown (a : RxAttr) : Bool := !a.optional && a.transitive

/-- `wellKnownFlagError`. -/
def flagError (a : RxAttr) : Stop := .error ⟨BGP_NOTIFICATION_UPDATE_ATTR_FLAG, a.val⟩

end RxAttr

def lengthError : Stop := failWith BGP_NOTIFICATION_UPDATE_ATTR_LENGTH

/-! ## The attributes -/

section
variable (a : RxAttr) (s : ParseState)

def decodeFixed {α : Type} (len : ℕ) (rd : List UInt8 → ℕ → Rx α) (set : α → Attributes) : Rx ParseState :=
  if a.val.length ≠ len then .error lengthError
  else do
    let v ← rd a.val 0
    return s.setAttrs (set v)

def decodeList {α : Type} (size : ℕ) (rd : List UInt8 → ℕ → Rx α) (set : List α → Attributes) :
    Rx ParseState :=
  if a.val.length % size ≠ 0 then .error lengthError
  else do
    let vs ← readMany (rd a.val) size (a.val.length / size) 0
    return s.setAttrs (set vs)

def decodeOrigin : Rx ParseState :=
  if !a.wellKnown then .error a.flagError
  else if a.val.length ≠ 1 then .error lengthError
  else do
    let orig ← rd8 a.val 0
    if orig > BGP_ORIGIN_INCOMPLETE then .error (failWith BGP_NOTIFICATION_UPDATE_INVALID_ORIGIN)
    else return s.setAttrs { s.attrs with origin := some orig }

def asnBytes (use4 : Bool) : ℕ := if use4 then 4 else 2

def rdAsn (use4 : Bool) (l : List UInt8) (i : ℕ) : Rx UInt32 :=
  readAt .outside l i (asnBytes use4) fun p => if use4 then readU32 p else (readU16 p).toUInt32

/-- The loop over the segments of an `AS_PATH` from `ap` on. -/
def asPathFrom (use4 : Bool) (val : List UInt8) : ℕ → ℕ → List AsPathSegment → Rx (List AsPathSegment)
  | 0, _, segs => .ok segs
  | n + 1, ap, segs =>
    if ap + 2 ≤ val.length then do
      let segType ← rd8 val ap
      let segLen ← rd8 val (ap + 1)
      -- the check adds the size of an AS number where it should multiply by it
      if ap + 2 + segLen.toNat + asnBytes use4 > val.length then
        .error (failWith BGP_NOTIFICATION_UPDATE_MALFORMED_AS_PATH)
      else do
        let asns ← readMany (rdAsn use4 val) (asnBytes use4) segLen.toNat (ap + 2)
        asPathFrom use4 val n (ap + 2 + segLen.toNat * asnBytes use4) (segs ++ [⟨segType, asns⟩])
    else .ok segs

def decodeAsPath (use4 : Bool) : Rx ParseState :=
  if !a.wellKnown then .error a.flagError
  else do
    let asPath ← asPathFrom use4 a.val a.val.length 0 s.attrs.asPath
    return s.setAttrs { s.attrs with asPath := asPath }

/-- The loop over the segments of an `AS4_PATH` from `ap` on. -/
def as4PathFrom (val : List UInt8) : ℕ → ℕ → List AsPathSegment → Rx (List AsPathSegment)
  | 0, _, segs => .ok segs
  | n + 1, ap, segs =>
    if ap + 2 ≤ val.length then do
      let segType ← rd8 val ap
      let segLen ← rd8 val (ap + 1)
      if ap + 2 + segLen.toNat * 4 > val.length then .ok segs
      else do
        let asns ← readMany (rdAsn true val) 4 segLen.toNat (ap + 2)
        as4PathFrom val n (ap + 2 + segLen.toNat * 4) (segs ++ [⟨segType, asns⟩])
    else .ok segs

def decodeAs4Path : Rx ParseState := do
  let as4Path ← as4PathFrom a.val a.val.length 0 s.attrs.as4Path
  return s.setAttrs { s.attrs with as4Path := as4Path }

def decodeNextHop : Rx ParseState :=
  if !a.wellKnown then .error a.flagError
  else if a.val.length ≠ 4 then .error lengthError
  else do
    let nextHop ← rdV4 a.val 0
    return { s with update := { s.update with path := { s.update.path with nextHop := nextHop } } }

def decodeLocalPref : Rx ParseState :=
  if !a.wellKnown then .error a.flagError
  else decodeFixed a s 4 rdU32 fun v => { s.attrs with localPref := some v }

def rdAggregator (use4 : Bool) (l : List UInt8) (i : ℕ) : Rx Aggregator :=
  if use4 then do
    let asn ← rdU32 l i
    let speaker ← rdV4 l (i + 4)
    return ⟨asn, speaker⟩
  else do
    let asn ← rdU16 l i
    let speaker ← rdV4 l (i + 2)
    return ⟨asn.toUInt32, speaker⟩

def rdLargeCommunity (l : List UInt8) (i : ℕ) : Rx (UInt32 × UInt32 × UInt32) :=
  readAt .outside l i 12 fun p => (readU32 p, readU32 (p.add 4), readU32 (p.add 8))

def decodeAigp : Rx ParseState :=
  if a.val.length ≥ 11 then do
    let type ← rd8 a.val 0
    let len ← rdU16 a.val 1
    if type = 1 ∧ len = 11 then do
      let v ← rdU64 a.val 3
      return s.setAttrs { s.attrs with aigp := some v }
    else return s
  else return s

def decodeUnknown : Rx ParseState :=
  if !a.optional then .error (.error ⟨BGP_NOTIFICATION_UPDATE_UNRECOGNIZED_ATTR, a.val⟩)
  else if a.transitive then
    .ok (s.setAttrs { s.attrs with
      unknownTransitive := s.attrs.unknownTransitive ++
        [⟨a.flags ||| BGP_ATTR_FLAG_PARTIAL, a.type, a.val⟩] })
  else .ok s

/-! ### Multiprotocol attributes -/

/-- The next hop of `MP_REACH_NLRI`. -/
def mpNextHop (afi : UInt16) (nhLen : ℕ) (val : List UInt8) (path : Path) : Rx Path :=
  if afi = BGP_AFI_IPV6 then
    if nhLen = 16 then do
      let nextHop ← rdRaw val 4
      return { path with nextHop := nextHop }
    else if nhLen = 32 then do
      let nextHop ← rdRaw val 4
      let linkLocal ← rdRaw val 20
      return { path with nextHop := nextHop, linkLocal := some linkLocal }
    else .ok path
  else if nhLen = 4 then do
    let nextHop ← rdV4 val 4
    return { path with nextHop := nextHop }
  else if nhLen = 12 then do
    let rd ← rdU64 val 4
    let nextHop ← rdV4 val 12
    return { path with rd := some rd, nextHop := nextHop }
  else .ok path

/-- The loop that skips the SNPAs: the position behind them. -/
def snpaFrom (val : List UInt8) : ℕ → ℕ → Rx ℕ
  | 0, mpPos => .ok mpPos
  | count + 1, mpPos =>
    if mpPos < val.length then do
      let snpaLen ← rd8 val mpPos
      snpaFrom val count (mpPos + 1 + (snpaLen.toNat + 1) / 2)
    else .ok mpPos

/-- The NLRI of `MP_REACH_NLRI`; its length is a difference of `size_t` values. -/
def mpNlri (mpPos : ℕ) (val : List UInt8) (nlriData : List UInt8) : Rx (List UInt8) :=
  if mpPos ≥ val.length then .ok nlriData
  else do
    let snpaCount ← rd8 val mpPos
    let mpPos ← snpaFrom val snpaCount.toNat (mpPos + 1)
    subspan .outside val mpPos ((val.length + 2 ^ 64 - mpPos) % 2 ^ 64)

/-- The family differs from the one of the other multiprotocol attribute. -/
def otherFamily (seen : Option AfiSafi) (family : AfiSafi) : Bool := seen.any (· ≠ family)

def decodeMpReach : Rx ParseState :=
  if a.val.length < 4 then .error lengthError
  else do
    let afi ← rdU16 a.val 0
    let safi ← rd8 a.val 2
    let nhLen ← rd8 a.val 3
    if 4 + nhLen.toNat > a.val.length then .error lengthError
    else if otherFamily s.unreachAfi ⟨afi, safi⟩ then
      .error (failWith BGP_NOTIFICATION_UPDATE_MALFORMED_ATTR_LIST)
    else do
      let path ← mpNextHop afi nhLen.toNat a.val s.update.path
      let nlriData ← mpNlri (4 + nhLen.toNat) a.val s.update.nlriData
      return { s with
        update := { s.update with path := path, nlriData := nlriData }
        reachAfi := some ⟨afi, safi⟩ }

def decodeMpUnreach : Rx ParseState :=
  if a.val.length < 3 then .error lengthError
  else do
    let afi ← rdU16 a.val 0
    let safi ← rd8 a.val 2
    if otherFamily s.reachAfi ⟨afi, safi⟩ then
      .error (failWith BGP_NOTIFICATION_UPDATE_MALFORMED_ATTR_LIST)
    else do
      let withdrawnData ← subspan .outside a.val 3 (a.val.length - 3)
      return { s with
        update := { s.update with withdrawnData := withdrawnData }
        unreachAfi := some ⟨afi, safi⟩ }

/-- The body of the loop for an attribute: the configured ranges, and the `switch`. -/
def decodeAttr (cfg : RxConfig) : Rx ParseState :=
  if cfg.discard a.type then .ok s
  else if cfg.withdraw a.type then .error (.error {})
  else if a.type = BGP_ATTR_ORIGIN then decodeOrigin a s
  else if a.type = BGP_ATTR_AS_PATH then decodeAsPath a s cfg.asn32bit
  else if a.type = BGP_ATTR_NEXT_HOP then decodeNextHop a s
  else if a.type = BGP_ATTR_MULTI_EXIT_DISC then
    decodeFixed a s 4 rdU32 fun v => { s.attrs with med := some v }
  else if a.type = BGP_ATTR_LOCAL_PREF then decodeLocalPref a s
  else if a.type = BGP_ATTR_AGGREGATOR then
    decodeFixed a s (if cfg.asn32bit then 8 else 6) (rdAggregator cfg.asn32bit) fun v =>
      { s.attrs with asAggregator := some v }
  else if a.type = BGP_ATTR_COMMUNITIES then
    decodeList a s 4 rdU32 fun vs => { s.attrs with communities := s.attrs.communities ++ vs }
  else if a.type = BGP_ATTR_ORIGINATOR_ID then
    decodeFixed a s 4 rdU32 fun v => { s.attrs with originatorId := some v }
  else if a.type = BGP_ATTR_CLUSTER_LIST then
    decodeList a s 4 rdU32 fun vs => { s.attrs with clusterList := s.attrs.clusterList ++ vs }
  else if a.type = BGP_ATTR_MP_REACH_NLRI then decodeMpReach a s
  else if a.type = BGP_ATTR_MP_UNREACH_NLRI then decodeMpUnreach a s
  else if a.type = BGP_ATTR_AS4_PATH then decodeAs4Path a s
  else if a.type = BGP_ATTR_AS4_AGGREGATOR then
    decodeFixed a s 8 (rdAggregator true) fun v => { s.attrs with as4Aggregator := some v }
  else if a.type = BGP_ATTR_AIGP then decodeAigp a s
  else if a.type = BGP_ATTR_LARGE_COMMUNITIES then
    decodeList a s 12 rdLargeCommunity fun vs =>
      { s.attrs with largeCommunities := s.attrs.largeCommunities ++ vs }
  else decodeUnknown a s

end

/-! ## The loop over the attributes -/

/-- The value of an attribute at `pos`, and the position behind it. -/
def readValue (data : List UInt8) (flags type : UInt8) (pos attrLen : ℕ) : Rx (RxAttr × ℕ) :=
  if pos + attrLen > data.length then .error lengthError
  else do
    let val ← subspan .outside data pos attrLen
    return (⟨flags, type, val⟩, pos + attrLen)

/-- An attribute at `pos`, and the position behind it. -/
def readAttr (data : List UInt8) (pos : ℕ) : Rx (RxAttr × ℕ) :=
  if pos + 2 > data.length then .error (failWith BGP_NOTIFICATION_UPDATE_MALFORMED_ATTR_LIST)
  else do
    let flags ← rd8 data pos
    let type ← rd8 data (pos + 1)
    if flags &&& BGP_ATTR_FLAG_EXTENDED_LENGTH ≠ 0 then
      if pos + 2 + 2 > data.length then .error lengthError
      else do
        let attrLen ← rdU16 data (pos + 2)
        readValue data flags type (pos + 4) attrLen.toNat
    else if pos + 2 + 1 > data.length then .error lengthError
    else do
      let attrLen ← rd8 data (pos + 2)
      readValue data flags type (pos + 3) attrLen.toNat

/-- The loop of `parsePathAttributes` from `pos` on; each round moves `pos`. -/
def parseAttrsFrom (cfg : RxConfig) (data : List UInt8) : ℕ → ℕ → ParseState → Rx ParseState
  | 0, _, s => .ok s
  | n + 1, pos, s =>
    if pos < data.length then do
      let r ← readAttr data pos
      let s ← decodeAttr r.1 s cfg
      parseAttrsFrom cfg data n r.2 s
    else .ok s

/-- `countHops`. -/
def segHops (seg : AsPathSegment) : ℕ :=
  if seg.segmentType = BGP_AS_SET then (if seg.asns.isEmpty then 0 else 1) else seg.asns.length

def countHops (segs : List AsPathSegment) : ℕ := (segs.map segHops).sum

/-- The segments of the first `toKeep` hops; the last one is cut. -/
def keepHops : List AsPathSegment → ℕ → List AsPathSegment
  | [], _ => []
  | seg :: segs, toKeep =>
    if toKeep = 0 then []
    else if segHops seg ≤ toKeep then seg :: keepHops segs (toKeep - segHops seg)
    else [{ seg with asns := seg.asns.take toKeep }]

/-- The reconstruction of the path from `AS4_PATH`. -/
def mergeAs4 (cfg : RxConfig) (attrs : Attributes) : Attributes :=
  if !cfg.asn32bit && !attrs.as4Path.isEmpty then
    let toKeep := countHops attrs.asPath - countHops attrs.as4Path
    { attrs with asPath := keepHops attrs.asPath toKeep ++ attrs.as4Path, as4Path := [] }
  else attrs

def ParseState.family (s : ParseState) : AfiSafi :=
  (s.reachAfi.or s.unreachAfi).getD ⟨BGP_AFI_IPV4, BGP_SAFI_UNICAST⟩

def parsePathAttributes (cfg : RxConfig) (data : List UInt8) (update : IncomingUpdate) :
    Rx IncomingUpdate := do
  let s ← parseAttrsFrom cfg data data.length 0 { update := update }
  return { s.update with attrs := mergeAs4 cfg s.update.attrs, afi := s.family }

/-! ## The message -/

/-- The update is given to its address family; `afs` are the families that are enabled, with the
    error that each of them returns for an update. -/
def visitFamily (afs : AfiSafi → Option (IncomingUpdate → Option Notification)) (update : IncomingUpdate) :
    Rx Unit :=
  match afs update.afi with
  | none => .error (failWith BGP_NOTIFICATION_UPDATE_MALFORMED_ATTR_LIST)
  | some onUpdateFromPeer =>
    match onUpdateFromPeer update with
    | none => .ok ()
    | some error => .error (.error error)

/-- `processUpdate` behind the attributes. -/
def deliverUpdate (afs : AfiSafi → Option (IncomingUpdate → Option Notification)) (payload : List UInt8)
    (offset : ℕ) (update : IncomingUpdate) : Rx Unit :=
  if update.afi = ⟨BGP_AFI_IPV4, BGP_SAFI_UNICAST⟩ then do
    let nlriData ← subspan .outside payload offset (payload.length - offset)
    visitFamily afs { update with nlriData := nlriData }
  else visitFamily afs update

/-- The withdrawn routes of a message and the span of its attributes, which starts at the
    position given. -/
def readUpdate (payload : List UInt8) : Rx (List UInt8 × ℕ × List UInt8) :=
  if payload.length < 4 then .error (failWith BGP_NOTIFICATION_UPDATE_MALFORMED_ATTR_LIST)
  else do
    let withdrawnLen ← rdU16 payload 0
    if 2 + withdrawnLen.toNat > payload.length then
      .error (failWith BGP_NOTIFICATION_UPDATE_MALFORMED_AS_PATH)
    else do
      let withdrawnData ← subspan .outside payload 2 withdrawnLen.toNat
      if 2 + withdrawnLen.toNat + 2 > payload.length then
        .error (failWith BGP_NOTIFICATION_UPDATE_MALFORMED_ATTR_LIST)
      else do
        let attrLen ← rdU16 payload (2 + withdrawnLen.toNat)
        if 2 + withdrawnLen.toNat + 2 + attrLen.toNat > payload.length then
          .error (failWith BGP_NOTIFICATION_UPDATE_MALFORMED_ATTR_LIST)
        else do
          let data ← subspan .outside payload (2 + withdrawnLen.toNat + 2) attrLen.toNat
          return (withdrawnData, 2 + withdrawnLen.toNat + 2, data)

/-- `processUpdate`.  Attributes that withdraw the routes leave no error, and the message is
    dropped. -/
def processUpdate (cfg : RxConfig) (afs : AfiSafi → Option (IncomingUpdate → Option Notification))
    (payload : List UInt8) : Rx Unit := do
  let r ← readUpdate payload
  let update : IncomingUpdate := { withdrawnData := r.1 }
  if r.2.2 = [] then deliverUpdate afs payload r.2.1 update
  else
    match parsePathAttributes cfg r.2.2 update with
    | .ok update => deliverUpdate afs payload (r.2.1 + r.2.2.length) update
    | .error (.error error) => if error.code = 0 then .ok () else .error (.error error)
    | .error .outside => .error .outside

end VirtualRouter.Bgp
