/-
  The prefixes of an UPDATE (`routing/bgp/af/Nlri.hpp`, `BgpRx::processUpdate<N>`).

  `NlriPolicy` is what the templates use of an address family; `ipv4Nlri` is the
  one of IPv4 unicast.  `decodeNlri` reads the bytes of the address from the
  length byte on, where `encodeNlri` has written them behind it, and it does not
  look at the bound of its span: a read outside of it is `outside`, and so is a
  length of more than 32 bits, for which `readBytes` shifts by a negative amount.
-/
import VirtualRouter.Bgp.RibTypes
import VirtualRouter.Bgp.UpdateParser

namespace VirtualRouter.Bgp

open Bytes Utils

/-! ## Prefixes -/

structure IPv4Prefix where
  addr : UInt32
  prefixLength : UInt8
  deriving DecidableEq, Repr

def prefixBytes (prefixLength : UInt8) : ℕ := (prefixLength.toNat + 7) / 8

/-- `readBytes<uint32_t>`: `n` bytes, at most four, in the high positions. -/
def readBytes (p : BytePtr) (n : ℕ) : UInt32 :=
  (List.range n).foldl (fun val i => val ||| (p i).toUInt32 <<< UInt32.ofNat (24 - 8 * i)) 0

/-- What the templates for UPDATEs use of an address family. -/
structure NlriPolicy (ν : Type) where
  nlriEncodedSize : ν → ℕ
  encodeNlri : ν → List UInt8
  /-- the prefix at a position of a span, and the number of bytes it takes -/
  decodeNlri : List UInt8 → ℕ → Rx (ν × ℕ)

def nlriEncodedSize (n : IPv4Prefix) : ℕ := 1 + prefixBytes n.prefixLength

def encodeNlri (n : IPv4Prefix) : List UInt8 :=
  n.prefixLength :: writeBytes n.addr.toBitVec (prefixBytes n.prefixLength)

def decodeNlri (data : List UInt8) (pos : ℕ) : Rx (IPv4Prefix × ℕ) := do
  let prefixLength ← rd8 data pos
  let bytes := prefixBytes prefixLength
  if bytes > 4 then .error .outside
  else do
    let addr ← readAt .outside data pos bytes fun p => readBytes p bytes
    return (⟨addr, prefixLength⟩, 1 + bytes)

def ipv4Nlri : NlriPolicy IPv4Prefix := ⟨nlriEncodedSize, encodeNlri, decodeNlri⟩

/-! ## Reading -/

section
variable {ν : Type} (N : NlriPolicy ν) (addPath : Bool)

def malformed : Stop := failWith BGP_NOTIFICATION_UPDATE_MALFORMED_ATTR_LIST

def readPathId (data : List UInt8) (pos : ℕ) : Rx (UInt32 × ℕ) :=
  if addPath then
    if pos + 4 > data.length then .error malformed
    else do
      let pathId ← rdU32 data pos
      return (pathId, pos + 4)
  else return (0, pos)

/-- A prefix with its path id, and the position behind it. -/
def readNlri (data : List UInt8) (pos : ℕ) : Rx (NlriPath ν × ℕ) := do
  let r ← readPathId addPath data pos
  let d ← N.decodeNlri data r.2
  if d.2 = 0 ∨ r.2 + d.2 > data.length then .error malformed
  else return (⟨d.1, r.1⟩, r.2 + d.2)

/-- The loop over a span of prefixes; each round moves `pos`, and the first argument bounds their
    number. -/
def nlriFrom (data : List UInt8) : ℕ → ℕ → Rx (List (NlriPath ν))
  | 0, _ => .ok []
  | n + 1, pos =>
    if pos < data.length then do
      let r ← readNlri N addPath data pos
      let rest ← nlriFrom data n r.2
      return r.1 :: rest
    else .ok []

/-- `BgpRx::processUpdate<N>`. -/
def processUpdateNlri (uinfo : IncomingUpdate) : Rx (ParsedUpdate ν) := do
  let withdrawn ← nlriFrom N addPath uinfo.withdrawnData uinfo.withdrawnData.length 0
  let announcements ← nlriFrom N addPath uinfo.nlriData uinfo.nlriData.length 0
  return ⟨withdrawn, announcements, some ⟨uinfo.attrs, uinfo.path⟩⟩

end

end VirtualRouter.Bgp
