/-
  The data of routers and routes (`ospf/topology/TopologyTypes.hpp`).

  * `OspfNextHop`, `OspfNextHop.less`: a next hop, and the order of the next hops;
  * `OspfRouter`, `RouterReach`: a router that an area reaches, and how it is reached;
  * `dedupe`: the next hops in order, each once;
  * `OspfPath`, `OspfRoute`, `OspfRouteChange`: a candidate for a prefix, the route that is selected, and
    what is reported of it;
  * `IPPrefix`, `IPPrefix.contains`: a prefix, and the addresses in it (`types/IPAddress.h`).

  Costs are natural numbers: they are copied and compared only.
-/
import VirtualRouter.Ospf.SpfTypes

namespace VirtualRouter.Ospf

/-- `OspfNextHop`; the address has 128 bits. -/
structure OspfNextHop where
  interfaceId : UInt32 := 0
  nextHop : BitVec 128 := 0
  deriving DecidableEq, Repr

/-- `OspfNextHop::operator<`. -/
def OspfNextHop.less (a b : OspfNextHop) : Bool :=
  a.interfaceId < b.interfaceId || (a.interfaceId = b.interfaceId && a.nextHop < b.nextHop)

structure OspfRouter where
  rid : UInt32
  cost : ℕ
  nextHops : List OspfNextHop
  deriving DecidableEq, Repr

structure RouterReach where
  cost : ℕ
  nextHops : List OspfNextHop
  deriving DecidableEq, Repr

/-- `std::sort`. -/
def sortNextHops (nh : List OspfNextHop) : List OspfNextHop := nh.mergeSort fun a b => !b.less a

def dedupe (nh : List OspfNextHop) : List OspfNextHop := uniqueAdjacent (sortNextHops nh)

@[simp] theorem mem_dedupe {nh : List OspfNextHop} {h : OspfNextHop} : h ∈ dedupe nh ↔ h ∈ nh := by
  rw [dedupe, mem_uniqueAdjacent, sortNextHops, List.mem_mergeSort]

/-! ## Prefixes -/

/-- `isIPv4`: the address is one of 32 bits behind `0xFFFF`. -/
def isIPv4 (addr : BitVec 128) : Bool := addr >>> 32 = 0xFFFF

/-- `v4`. -/
def addrV4 (addr : BitVec 128) : BitVec 32 := addr.setWidth 32

/-- `v4Mask` and `v6Mask`. -/
def prefixMask (width len : ℕ) : BitVec width := if len = 0 then 0 else BitVec.allOnes width <<< (width - len)

def addPrefixLen (addr : BitVec 128) (len : ℕ) : BitVec 128 :=
  if isIPv4 addr then (addrV4 addr &&& prefixMask 32 len).setWidth 128 ||| (0xFFFF : BitVec 128) <<< 32
  else addr &&& prefixMask 128 len

structure IPPrefix where
  addr : BitVec 128 := 0
  prefixLength : ℕ := 0
  deriving DecidableEq, Repr

/-- `IPPrefix::contains`, for an address. -/
def IPPrefix.contains (p : IPPrefix) (ip : BitVec 128) : Bool :=
  if isIPv4 ip then
    isIPv4 p.addr && addrV4 p.addr &&& prefixMask 32 p.prefixLength = addrV4 ip &&& prefixMask 32 p.prefixLength
  else
    !isIPv4 p.addr && p.addr &&& prefixMask 128 p.prefixLength = ip &&& prefixMask 128 p.prefixLength

/-! ## Routes -/

inductive OspfRouteType where
  | INTRA_AREA
  | INTER_AREA
  | EXTERNAL
  | NSSA
  deriving DecidableEq, Repr

def OspfRouteType.toNat : OspfRouteType → ℕ
  | .INTRA_AREA => 0
  | .INTER_AREA => 1
  | .EXTERNAL => 2
  | .NSSA => 3

structure OspfPath where
  type : OspfRouteType := .INTRA_AREA
  area : Option UInt32 := none
  cost : ℕ := 0
  adminDistance : ℕ := 0
  options : UInt8 := 0
  discard : Bool := false
  suppressed : Bool := false
  nextHops : List OspfNextHop := []
  deriving DecidableEq, Repr

/-- `operator==` of paths, which leaves out the two flags. -/
def OspfPath.same (a b : OspfPath) : Bool :=
  a.options = b.options && a.area = b.area && a.type = b.type && a.cost = b.cost &&
    a.adminDistance = b.adminDistance && a.nextHops = b.nextHops

/-- `OspfRoute`; `pfx` is the field `prefix`. -/
structure OspfRoute where
  pfx : IPPrefix := {}
  options : UInt8 := 0
  cost : ℕ := 0
  adminDistance : ℕ := 0
  type : OspfRouteType := .INTRA_AREA
  area : Option UInt32 := none
  suppressed : Bool := false
  paths : List OspfPath := []
  deriving DecidableEq, Repr

/-- `operator==` of routes. -/
def OspfRoute.same (a b : OspfRoute) : Bool :=
  a.type = b.type && a.cost = b.cost && a.options = b.options && a.adminDistance = b.adminDistance &&
    a.area = b.area && a.suppressed = b.suppressed

structure OspfRouteChange where
  pfx : IPPrefix
  options : UInt8
  cost : ℕ
  isRemoval : Bool
  deriving DecidableEq, Repr

end VirtualRouter.Ospf
