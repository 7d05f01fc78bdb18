/-
  What the DHCP pools share (`services/dhcp/DhcpInfo.hpp`, `dhcpv6/Dhcpv6.h`).

  A client identifier is compared by its bytes, the keys of identity
  associations by their fields.  `Mutex` names the two mutexes of a family: that
  of its pool and that of its lease manager.
-/
import VirtualRouter.Lib.Locked
import VirtualRouter.Lib.PrefixMap

namespace VirtualRouter.Dhcp

/-- `ClientID`: its bytes. -/
abbrev ClientID := List UInt8

inductive Mutex where
  | poolMutex
  | leaseMutex
  deriving DecidableEq, Repr

inductive IAType where
  | IA_NA
  | IA_TA
  deriving DecidableEq, Repr

structure IAKey where
  duid : ClientID
  iaid : UInt32
  type : IAType := .IA_NA
  deriving DecidableEq, Repr

structure IALeaseKey where
  duid : ClientID
  iaid : UInt32
  address : BitVec 128
  type : IAType := .IA_NA
  deriving DecidableEq, Repr

structure IAPrefixKey where
  duid : ClientID
  iaid : UInt32
  address : BitVec 128
  prefixLength : UInt8
  deriving DecidableEq, Repr

structure IPv6Prefix where
  addr : BitVec 128 := 0
  prefixLength : UInt8 := 0
  deriving DecidableEq, Repr

/-- `IPv6Prefix(ip, prefix)`, with `maintainAddress` false (`types/IPAddress.cpp`): `addPrefixLen`
    masks the address, and the length stays 0.  A length over 128 is a shift by a negative count,
    which is undefined; here it keeps the address. -/
def IPv6Prefix.ofAddress (ip : BitVec 128) (prefixLen : UInt8) : IPv6Prefix where
  addr := PrefixMap.mask ip prefixLen.toNat

/-- The status codes that pools and lease managers return (`Dhcpv6StatusCode`). -/
inductive Dhcpv6StatusCode where
  | Success
  | UnspecFail
  | NoAddrsAvail
  | NoBinding
  | NotOnLink
  | NoPrefixAvail
  deriving DecidableEq, Repr

end VirtualRouter.Dhcp
