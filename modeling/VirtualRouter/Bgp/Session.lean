/-
  A BGP session (`routing/bgp/session/Session.cpp`): what the encoders read of
  it and what the handler of OPEN does to it.

  A connection is its id.  The configuration that the modelled functions read
  stands in the session, an unset option being `none`, and `posted` is the queue
  of the events posted to the state machine.  `Capabilities::supportsFamily` and
  `NegotiatedCapabilities::canSendOrf` are declared and not defined in the
  repository: they are the two functions of `CapabilityFns`.

  * `negotiateCapabilities`, `verifyConnection`, `getMultiSession`;
  * `onOpenReceived`.
-/
import VirtualRouter.Bgp.Capabilities

namespace VirtualRouter.Bgp

open Bytes Utils

def kAsTrans : UInt32 := 23456

def BGP_AFI_IPV4 : UInt16 := 0x0001
def BGP_SAFI_UNICAST : UInt8 := 0x01

def BGP_ADD_PATH_RECEIVE : UInt8 := 0x01
def BGP_ADD_PATH_SEND : UInt8 := 0x02

def BGP_ORF_RECEIVE : UInt8 := 0x01
def BGP_ORF_SEND : UInt8 := 0x02

def BGP_NOTIFICATION_OPEN_UNSUPPORTED_VERSION : UInt16 := 0x0201

/-! ## The data -/

structure NegotiatedCapabilities where
  asn32bit : Bool := false
  routeRefresh : Bool := false
  enhancedRR : Bool := false
  gracefulRestart : Bool := false
  llgr : Bool := false
  extendedMessage : Bool := false
  addpath : Bool := false
  multiSess : Bool := false
  linkLocalNextHop : Bool := false
  orf : Bool := false
  addPathFamilies : List AddPathFamily := []
  grFamilies : List GracefulRestartFamily := []
  llgrFamilies : List LlgrFamily := []
  orfEntries : List OrfEntry := []
  activeFamilies : Finset AfiSafi := ∅
  multiSessionFamilies : Finset AfiSafi := ∅

/-- The queries on capabilities that the repository declares and does not define. -/
structure CapabilityFns where
  supportsFamily : Capabilities → AfiSafi → Bool
  canSendOrf : NegotiatedCapabilities → AfiSafi → UInt8 → Bool

/-- `IPPrefix`: the address is held in 128 bits, an IPv4 address behind `0xFFFF`. -/
structure IPPrefix where
  addr : BitVec 128
  prefixLength : UInt8
  deriving DecidableEq, Repr

structure OrfPrefixEntry where
  action : UInt8
  matching : UInt8
  sequence : UInt32
  minLen : UInt8
  maxLen : UInt8
  pfx : IPPrefix
  deriving DecidableEq, Repr

inductive MultiSessionConn where
  | session
  | connection
  deriving DecidableEq, Repr

/-- `MultiSession`, without the child sessions. -/
structure MultiSession where
  connections : UInt64 → Option MultiSessionConn := fun _ => none

def MultiSession.close (ms : MultiSession) (id : UInt64) : MultiSession :=
  if ms.connections id = some .connection then ⟨Function.update ms.connections id none⟩ else ms

structure Session where
  localCaps : Capabilities := {}
  peerCaps : Capabilities := {}
  negotiated : NegotiatedCapabilities := {}
  holdTime : UInt16 := 180
  peerRouterId : UInt32 := 0
  activeConn : Option UInt64 := none
  passiveConn : Option UInt64 := none
  primaryConn : Option UInt64 := none
  multiSession : AfiSafi ⊕ MultiSession := .inr {}
  established : Bool := false
  posted : List FsmEvent := []
  -- configuration of the process and of the neighbor
  routerId : UInt32 := 0
  minimumHoldtime : Option UInt16 := none
  remoteAs : Option UInt32 := none
  orfOutbound : AfiSafi → List OrfPrefixEntry := fun _ => []

namespace Session

variable (F : CapabilityFns)

/-! ## Queries and events -/

def getMultiSession (s : Session) : Option MultiSession :=
  if !s.established || !s.localCaps.multiSess then none else s.multiSession.getRight?

def verifyConnection (s : Session) (cid : UInt64) : Bool :=
  s.activeConn = some cid || s.passiveConn = some cid

def postEvent (s : Session) (event : FsmEvent) : Session :=
  { s with posted := s.posted ++ [event] }

def onOpenReceived (s : Session) : Session := s.postEvent .BGP_OPEN

/-! ## Negotiation -/

def agreedAddPath (lap pap : AddPathFamily) : UInt8 :=
  (if lap.sendReceive &&& BGP_ADD_PATH_SEND ≠ 0 ∧ pap.sendReceive &&& BGP_ADD_PATH_RECEIVE ≠ 0 then
    BGP_ADD_PATH_SEND else 0) |||
  (if lap.sendReceive &&& BGP_ADD_PATH_RECEIVE ≠ 0 ∧ pap.sendReceive &&& BGP_ADD_PATH_SEND ≠ 0 then
    BGP_ADD_PATH_RECEIVE else 0)

/-- The directions of ORF both sides agree on, from the local side. -/
def agreedOrf (loe poe : OrfEntry) : UInt8 :=
  (if loe.sendReceive &&& BGP_ORF_SEND ≠ 0 ∧ poe.sendReceive &&& BGP_ORF_RECEIVE ≠ 0 then
    BGP_ORF_SEND else 0) |||
  (if loe.sendReceive &&& BGP_ORF_RECEIVE ≠ 0 ∧ poe.sendReceive &&& BGP_ORF_SEND ≠ 0 then
    BGP_ORF_RECEIVE else 0)

/-- The families of the capability loops: the entry of `peer` that the inner loop stops at. -/
def addPathFamilies (mine peer : List AddPathFamily) : List AddPathFamily :=
  mine.filterMap fun lap =>
    match peer.find? (fun pap => lap.family = pap.family) with
    | none => none
    | some pap => if agreedAddPath lap pap ≠ 0 then some ⟨lap.family, agreedAddPath lap pap⟩ else none

def orfEntries (mine peer : List OrfEntry) : List OrfEntry :=
  mine.filterMap fun loe =>
    match peer.find? (fun poe => loe.family = poe.family ∧ loe.orfType = poe.orfType) with
    | none => none
    | some poe =>
      if agreedOrf loe poe ≠ 0 then some ⟨loe.family, loe.orfType, agreedOrf loe poe⟩ else none

def llgrFamilies (mine peer : List LlgrFamily) : List LlgrFamily :=
  mine.filterMap fun llf =>
    (peer.find? fun plf => llf.family = plf.family).map fun plf =>
      ⟨llf.family, min llf.staleTime plf.staleTime, llf.flags &&& plf.flags⟩

def grFamilies (mine peer : List GracefulRestartFamily) : List GracefulRestartFamily :=
  mine.filterMap fun lgf => peer.find? fun pgf => lgf.family = pgf.family

/-- The families that are active before a child session restricts them to its own. -/
def activeFamilies (s : Session) : Finset AfiSafi :=
  let common := (s.localCaps.mpFamilies.filter fun lf => F.supportsFamily s.peerCaps lf).toFinset
  if s.peerCaps.mpFamilies.isEmpty then insert ⟨BGP_AFI_IPV4, BGP_SAFI_UNICAST⟩ common else common

def negotiateCapabilities (s : Session) : Session :=
  let mine := s.localCaps
  let peer := s.peerCaps
  let multi := if mine.multiSess then
    mine.multiSessionFamilies.filter fun lsf => lsf ∈ peer.multiSessionFamilies else []
  let addPath := addPathFamilies mine.addPathFamilies peer.addPathFamilies
  let orf := orfEntries mine.orfEntries peer.orfEntries
  let llgr := if mine.llgr && peer.llgr then llgrFamilies mine.llgrFamilies peer.llgrFamilies else []
  let gracefulRestart := mine.gracefulRestart && peer.gracefulRestart
  { s with
    negotiated :=
      { asn32bit := mine.asn32bit && peer.asn32bit
        routeRefresh := mine.routeRefresh && peer.routeRefresh
        enhancedRR := mine.enhancedRouteRefresh && peer.enhancedRouteRefresh
        gracefulRestart := gracefulRestart
        llgr := !llgr.isEmpty
        extendedMessage := mine.extendedMessage && peer.extendedMessage
        addpath := !addPath.isEmpty
        multiSess := !multi.isEmpty
        linkLocalNextHop := mine.linkLocalNextHop && peer.linkLocalNextHop
        orf := !orf.isEmpty
        addPathFamilies := addPath
        grFamilies :=
          if gracefulRestart then grFamilies mine.gracefulFamilies peer.gracefulFamilies else []
        llgrFamilies := llgr
        orfEntries := orf
        activeFamilies :=
          match s.multiSession with
          | .inl family => if F.supportsFamily peer family then {family} else ∅
          | .inr _ => activeFamilies F s
        multiSessionFamilies := multi.toFinset } }

end Session

end VirtualRouter.Bgp
