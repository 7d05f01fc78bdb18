/-
  The bodies of the OSPFv2 LSAs (`ospf/ospfv2/database`).

  For each type its parser `build`, its serialiser `buildBody` and its `size`.  A
  parser reads the packet `l` from `pos` on; it stops with `oob` at a read outside
  of the packet, with `rounds` if a loop goes on for more rounds than the packet has
  bytes, and with `refused` where the code returns `std::nullopt` or `false`.

  * `LsaBodyV2.wire`: the bytes of a body;
  * `LsaBodyV2.Fits`: the bodies that are written;
  * `LsaBodyV2.RoundTrips`: `buildBody` writes `size` bytes that `build` reads back.

  `size` counts four bytes for a link of a router LSA, and `buildBody` wants
  twelve: a router LSA with links is never written.
-/
import VirtualRouter.Lib.BoundedWrite
import VirtualRouter.Ospf.SpfTopology
import VirtualRouter.Utils.ByteUtils

namespace VirtualRouter.Ospf

open Bytes Utils

/-- Why a parser or a serialiser stops: a read or write outside, a loop that goes on for more rounds
    than the packet has bytes, a null pointer, or the source's own check. -/
inductive Stop where
  | oob
  | rounds
  | null
  | refused
  deriving DecidableEq, Repr

def readPacket {α : Type} (l : List UInt8) (i n : ℕ) (f : BytePtr → α) : Except Stop α :=
  readAt .oob l i n f

def store (buf : List UInt8) (off : ℕ) (bytes : List UInt8) : Except Stop (List UInt8) :=
  writeAt .oob buf off bytes

/-! ## Router LSAs -/

structure RouterLsaV2 where
  flags : UInt8
  links : List RouterLinkV2
  deriving DecidableEq, Repr

namespace RouterLsaV2

def buildLinks (l : List UInt8) (pos : ℕ) (len : UInt16) :
    (fuel linkNum offset : ℕ) → Except Stop (List RouterLinkV2)
  | _, 0, _ => .ok []
  | 0, _ + 1, _ => .error .rounds
  | fuel + 1, linkNum + 1, offset => do
    if len.toNat < offset + 12 then .error .refused
    else
      let linkId ← readPacket l (pos + offset) 4 readU32
      -- two of the four bytes are read
      let linkData ← readPacket l (pos + offset + 4) 2 readU16
      let type ← readPacket l (pos + offset + 8) 1 (· 0)
      let tosCount ← readPacket l (pos + offset + 9) 1 (· 0)
      let metric ← readPacket l (pos + offset + 10) 2 readU16
      let tosBytes := tosCount.toNat * 4
      if len.toNat < offset + 12 + tosBytes then .error .refused
      else
        let links ← buildLinks l pos len fuel linkNum (offset + 12 + tosBytes)
        return { linkId, linkData := linkData.toUInt32, type, metric } :: links

def build (l : List UInt8) (pos : ℕ) (len : UInt16) : Except Stop RouterLsaV2 := do
  if len.toNat < 4 then .error .refused
  else
    let flags ← readPacket l pos 1 (· 0)
    let linkNum ← readPacket l (pos + 2) 2 readU16
    let links ← buildLinks l pos len l.length linkNum.toNat 4
    return { flags, links }

/-- The loop of `buildBody`; `off` moves within an entry before it moves on by twelve. -/
def storeLinks : List RouterLinkV2 → (off : ℕ) → (buf : List UInt8) → Except Stop (List UInt8)
  | [], _, buf => .ok buf
  | link :: links, off, buf => do
    let buf ← store buf off (writeU32 link.linkId)
    let buf ← store buf (off + 4) (writeU32 link.linkData)
    let buf ← store buf off [link.type]
    let buf ← store buf (off + 1) [0]
    let buf ← store buf (off + 2) (writeU16 link.metric)
    storeLinks links (off + 2 + 12) buf

def buildBody (lsa : RouterLsaV2) (buf : List UInt8) (len : UInt16) : Except Stop (List UInt8) := do
  if lsa.links.length * 12 + 4 ≠ len.toNat then .error .refused
  else
    let buf ← store buf 0 [lsa.flags]
    let buf ← store buf 1 [0]
    let buf ← store buf 2 (writeU16 (UInt16.ofNat lsa.links.length))
    storeLinks lsa.links 4 buf

def size (lsa : RouterLsaV2) : UInt16 := 4 + UInt16.ofNat (4 * lsa.links.length)

end RouterLsaV2

/-! ## Network LSAs -/

structure NetworkLsaV2 where
  networkMask : UInt32
  attachedRouters : List UInt32
  deriving DecidableEq, Repr

namespace NetworkLsaV2

def buildRouters (l : List UInt8) (pos : ℕ) (len : UInt16) :
    (fuel offset : ℕ) → Except Stop (List UInt32)
  | 0, _ => .error .rounds
  | fuel + 1, offset => do
    if offset + 4 ≤ len.toNat then
      let rid ← readPacket l (pos + offset) 4 readU32
      let rids ← buildRouters l pos len fuel (offset + 4)
      return rid :: rids
    else .ok []

def build (l : List UInt8) (pos : ℕ) (len : UInt16) : Except Stop NetworkLsaV2 := do
  if len.toNat < 4 then .error .refused
  else
    let networkMask ← readPacket l pos 4 readU32
    if (len.toNat - 4) % 4 ≠ 0 then .error .refused
    else
      let attachedRouters ← buildRouters l pos len l.length 4
      return { networkMask, attachedRouters }

def storeRouters : List UInt32 → (off : ℕ) → (buf : List UInt8) → Except Stop (List UInt8)
  | [], _, buf => .ok buf
  | r :: rs, off, buf => do
    let buf ← store buf off (writeU32 r)
    storeRouters rs (off + 4) buf

def buildBody (lsa : NetworkLsaV2) (buf : List UInt8) (len : UInt16) : Except Stop (List UInt8) := do
  if lsa.attachedRouters.length * 4 + 4 ≠ len.toNat then .error .refused
  else
    let buf ← store buf 0 (writeU32 lsa.networkMask)
    storeRouters lsa.attachedRouters 4 buf

def size (lsa : NetworkLsaV2) : UInt16 := UInt16.ofNat (4 + 4 * lsa.attachedRouters.length)

end NetworkLsaV2

/-! ## Summary LSAs -/

structure SummaryNetworkLsa where
  networkMask : UInt32
  metric : UInt32
  deriving DecidableEq, Repr

namespace SummaryNetworkLsa

def build (l : List UInt8) (pos : ℕ) (len : UInt16) : Except Stop SummaryNetworkLsa := do
  if len ≠ 8 then .error .refused
  else
    let networkMask ← readPacket l pos 4 readU32
    let metricWord ← readPacket l (pos + 4) 4 readU32
    return { networkMask, metric := metricWord &&& 0x00FFFFFF }

def buildBody (lsa : SummaryNetworkLsa) (buf : List UInt8) (len : UInt16) :
    Except Stop (List UInt8) := do
  if len ≠ 8 then .error .refused
  else
    let buf ← store buf 0 (writeU32 lsa.networkMask)
    store buf 4 (writeU32 lsa.metric)

def size : UInt16 := 8

end SummaryNetworkLsa

structure SummaryRouterLsa where
  metric : UInt32
  deriving DecidableEq, Repr

namespace SummaryRouterLsa

def build (l : List UInt8) (pos : ℕ) (len : UInt16) : Except Stop SummaryRouterLsa := do
  if len ≠ 8 then .error .refused
  else
    let reserved ← readPacket l pos 4 readU32
    if reserved ≠ 0 then .error .refused
    else
      let metricWord ← readPacket l (pos + 4) 4 readU32
      return { metric := metricWord &&& 0x00FFFFFF }

def buildBody (lsa : SummaryRouterLsa) (buf : List UInt8) (len : UInt16) :
    Except Stop (List UInt8) := do
  if len ≠ 8 then .error .refused
  else
    let buf ← store buf 0 (writeU32 0)
    store buf 4 (writeU32 lsa.metric)

def size : UInt16 := 8

end SummaryRouterLsa

/-! ## External LSAs -/

structure ExternalLsaV2 where
  networkMask : UInt32
  metric : UInt32
  isType2 : Bool
  forwardingAddress : UInt32
  routeTag : UInt32
  deriving DecidableEq, Repr

namespace ExternalLsaV2

def build (l : List UInt8) (pos : ℕ) (len : UInt16) : Except Stop ExternalLsaV2 := do
  if len ≠ 16 then .error .refused
  else
    let networkMask ← readPacket l pos 4 readU32
    let metricWord ← readPacket l (pos + 4) 4 readU32
    let forwardingAddress ← readPacket l (pos + 8) 4 readU32
    let routeTag ← readPacket l (pos + 12) 4 readU32
    return {
      networkMask
      metric := metricWord &&& 0x7FFFFFFF
      isType2 := metricWord &&& 0x80000000 ≠ 0
      forwardingAddress
      routeTag }

/-- The metric with the bit of a type 2 metric, in `buildBody` and `appendChecksum`. -/
def metricWord (lsa : ExternalLsaV2) : UInt32 :=
  let metricWord := lsa.metric &&& 0x7FFFFFFF
  if lsa.isType2 then metricWord ||| 0x80000000 else metricWord

/-- `if (isType2) buf[4] = 0x80`. -/
def storeType2 (lsa : ExternalLsaV2) (buf : List UInt8) : Except Stop (List UInt8) :=
  if lsa.isType2 then store buf 4 [0x80] else .ok buf

def buildBody (lsa : ExternalLsaV2) (buf : List UInt8) (len : UInt16) :
    Except Stop (List UInt8) := do
  if len ≠ 16 then .error .refused
  else
    let buf ← store buf 0 (writeU32 lsa.networkMask)
    let buf ← store buf 4 (writeU32 lsa.metricWord)
    let buf ← lsa.storeType2 buf
    let buf ← store buf 8 (writeU32 lsa.forwardingAddress)
    store buf 12 (writeU32 lsa.routeTag)

def size : UInt16 := 16

def metricBytes (lsa : ExternalLsaV2) : List UInt8 :=
  if lsa.isType2 then 0x80 :: (writeU32 lsa.metricWord).tail else writeU32 lsa.metricWord

@[simp] theorem length_metricBytes (lsa : ExternalLsaV2) : lsa.metricBytes.length = 4 := by
  rw [metricBytes]
  split_ifs <;> rfl

end ExternalLsaV2

/-! ## Opaque LSAs -/

structure OpaqueLsaV2 where
  opaqueType : UInt8
  opaqueId : UInt32
  payload : List UInt8
  deriving DecidableEq, Repr

namespace OpaqueLsaV2

def build (linkStateId : UInt32) (l : List UInt8) (pos : ℕ) (len : UInt16) :
    Except Stop OpaqueLsaV2 := do
  let payload ← readPacket l pos len.toNat (·.take len.toNat)
  return {
    opaqueType := (linkStateId >>> 24).toUInt8
    opaqueId := linkStateId &&& 0x00FFFFFF
    payload }

def buildBody (lsa : OpaqueLsaV2) (buf : List UInt8) (len : UInt16) : Except Stop (List UInt8) :=
  if len.toNat < lsa.payload.length then .error .refused
  else store buf 0 lsa.payload

def size (lsa : OpaqueLsaV2) : UInt16 := UInt16.ofNat lsa.payload.length

end OpaqueLsaV2

/-! ## Bodies of every type -/

/-- The bodies of OSPFv2 in `LsaBody`. -/
inductive LsaBodyV2 where
  | router (lsa : RouterLsaV2)
  | network (lsa : NetworkLsaV2)
  | summaryNetwork (lsa : SummaryNetworkLsa)
  | summaryRouter (lsa : SummaryRouterLsa)
  | external (lsa : ExternalLsaV2)
  | opaqueLsa (lsa : OpaqueLsaV2)
  deriving DecidableEq, Repr

namespace LsaBodyV2

def size : LsaBodyV2 → UInt16
  | .router lsa => lsa.size
  | .network lsa => lsa.size
  | .summaryNetwork _ => SummaryNetworkLsa.size
  | .summaryRouter _ => SummaryRouterLsa.size
  | .external _ => ExternalLsaV2.size
  | .opaqueLsa lsa => lsa.size

def buildBody : LsaBodyV2 → (buf : List UInt8) → (len : UInt16) → Except Stop (List UInt8)
  | .router lsa => lsa.buildBody
  | .network lsa => lsa.buildBody
  | .summaryNetwork lsa => lsa.buildBody
  | .summaryRouter lsa => lsa.buildBody
  | .external lsa => lsa.buildBody
  | .opaqueLsa lsa => lsa.buildBody

/-- The parser of the body's type; an opaque LSA has its type and number in the link state id. -/
def rebuild (body : LsaBodyV2) (l : List UInt8) (pos : ℕ) (len : UInt16) : Except Stop LsaBodyV2 :=
  match body with
  | .router _ => .router <$> RouterLsaV2.build l pos len
  | .network _ => .network <$> NetworkLsaV2.build l pos len
  | .summaryNetwork _ => .summaryNetwork <$> SummaryNetworkLsa.build l pos len
  | .summaryRouter _ => .summaryRouter <$> SummaryRouterLsa.build l pos len
  | .external _ => .external <$> ExternalLsaV2.build l pos len
  | .opaqueLsa lsa =>
    .opaqueLsa <$> OpaqueLsaV2.build (lsa.opaqueType.toUInt32 <<< 24 ||| lsa.opaqueId) l pos len

def InWireRange : LsaBodyV2 → Prop
  | .router _ | .network _ => True
  | .summaryNetwork lsa => lsa.metric < 0x01000000
  | .summaryRouter lsa => lsa.metric < 0x01000000
  | .external lsa => lsa.metric < 0x01000000
  | .opaqueLsa lsa => lsa.opaqueId < 0x01000000

/-- `buildBody` succeeds in any buffer that is long enough and writes the first `size` bytes and no
    others, from which `build` returns the body. -/
def RoundTrips (body : LsaBodyV2) : Prop :=
  ∃ bytes : List UInt8, bytes.length = body.size.toNat ∧
    (∀ buf : List UInt8, body.size.toNat ≤ buf.length →
      body.buildBody buf body.size = .ok (written bytes buf)) ∧
    body.rebuild bytes 0 body.size = .ok body

/-- The bodies that are written: no router LSA with links, and no list that is too long. -/
def Fits : LsaBodyV2 → Prop
  | .router lsa => lsa.links = []
  | .network lsa => 4 + 4 * lsa.attachedRouters.length < 65536
  | .summaryNetwork _ | .summaryRouter _ | .external _ => True
  | .opaqueLsa lsa => lsa.payload.length < 65536

/-- The bytes of a body that fits. -/
def wire : LsaBodyV2 → List UInt8
  | .router lsa => [lsa.flags, 0] ++ writeU16 0
  | .network lsa => writeU32 lsa.networkMask ++ lsa.attachedRouters.flatMap writeU32
  | .summaryNetwork lsa => writeU32 lsa.networkMask ++ writeU32 lsa.metric
  | .summaryRouter lsa => writeU32 0 ++ writeU32 lsa.metric
  | .external lsa =>
    writeU32 lsa.networkMask ++ lsa.metricBytes ++ writeU32 lsa.forwardingAddress ++
      writeU32 lsa.routeTag
  | .opaqueLsa lsa => lsa.payload

variable {body : LsaBodyV2} {buf : List UInt8}

theorem toNat_size_network (lsa : NetworkLsaV2) :
    (LsaBodyV2.network lsa).size.toNat = (4 + 4 * lsa.attachedRouters.length) % 65536 := by
  simp [size, NetworkLsaV2.size]

theorem toNat_size_router (lsa : RouterLsaV2) :
    (LsaBodyV2.router lsa).size.toNat = (4 + 4 * lsa.links.length) % 65536 := by
  simp [size, RouterLsaV2.size, UInt16.toNat_add]

theorem length_flatMap_writeU32 (rs : List UInt32) :
    (rs.flatMap writeU32).length = 4 * rs.length := by
  simp [Nat.mul_comm]

theorem length_wire (h : body.Fits) : body.wire.length = body.size.toNat := by
  cases body with
  | router lsa =>
    have hlinks : lsa.links = [] := h
    rw [toNat_size_router, hlinks]
    rfl
  | network lsa =>
    have hlen : 4 + 4 * lsa.attachedRouters.length < 65536 := h
    rw [toNat_size_network, Nat.mod_eq_of_lt hlen, wire, List.length_append, length_writeU32,
      length_flatMap_writeU32]
  | summaryNetwork lsa => rfl
  | summaryRouter lsa => rfl
  | external lsa => simp [wire, size, ExternalLsaV2.size]
  | opaqueLsa lsa =>
    have hlen : lsa.payload.length < 65536 := h
    simp [wire, size, OpaqueLsaV2.size, Nat.mod_eq_of_lt hlen]

/-! ## Serialising -/

theorem store_next {w bytes : List UInt8} {off : ℕ} (hoff : off = w.length)
    (h : w.length + bytes.length ≤ buf.length) :
    store (written w buf) off bytes = .ok (written (w ++ bytes) buf) :=
  writeAt_next hoff h

theorem store_zero {bytes : List UInt8} (h : bytes.length ≤ buf.length) :
    store buf 0 bytes = .ok (written bytes buf) :=
  writeAt_zero h

theorem storeRouters_next {rs : List UInt32} {w : List UInt8} {off : ℕ} (hoff : off = w.length)
    (h : w.length + 4 * rs.length ≤ buf.length) :
    NetworkLsaV2.storeRouters rs off (written w buf) =
      .ok (written (w ++ rs.flatMap writeU32) buf) := by
  induction rs generalizing w off with
  | nil => simp [NetworkLsaV2.storeRouters]
  | cons r rs ih =>
    rw [List.length_cons] at h
    have hfirst : store (written w buf) off (writeU32 r) = .ok (written (w ++ writeU32 r) buf) :=
      store_next hoff (by simp; omega)
    rw [NetworkLsaV2.storeRouters, hfirst, ok_bind, ih (by simp [hoff]) (by simp; omega),
      List.flatMap_cons, List.append_assoc]

theorem storeType2_next (lsa : ExternalLsaV2) (h : 8 ≤ buf.length) :
    lsa.storeType2 (written (writeU32 lsa.networkMask ++ writeU32 lsa.metricWord) buf) =
      .ok (written (writeU32 lsa.networkMask ++ lsa.metricBytes) buf) := by
  rw [ExternalLsaV2.storeType2, ExternalLsaV2.metricBytes]
  cases lsa.isType2 with
  | false => rfl
  | true =>
    have hinside : writeAt Stop.oob
        (written (writeU32 lsa.networkMask ++ writeU32 lsa.metricWord) buf) 4 [0x80] =
          .ok (written (writeU32 lsa.networkMask ++ [0x80] ++ (writeU32 lsa.metricWord).tail) buf) :=
      writeAt_inside (v := (writeU32 lsa.metricWord).take 1) rfl rfl rfl h
    rw [List.append_assoc] at hinside
    exact hinside

theorem buildBody_fits (h : body.Fits) (hbuf : body.size.toNat ≤ buf.length) :
    body.buildBody buf body.size = .ok (written body.wire buf) := by
  have hlen := length_wire h
  cases body with
  | router lsa =>
    have hlinks : lsa.links = [] := h
    have hsize : (LsaBodyV2.router lsa).size = 4 := by simp [size, RouterLsaV2.size, hlinks]
    rw [hsize] at hbuf ⊢
    have hbuf4 : 4 ≤ buf.length := hbuf
    rw [buildBody, RouterLsaV2.buildBody, hlinks, if_neg (by decide)]
    rw [store_zero (by simp; omega), ok_bind, store_next (by rfl) (by simp; omega), ok_bind,
      store_next (by rfl) (by simp; omega), ok_bind]
    rfl
  | network lsa =>
    have hfits : 4 + 4 * lsa.attachedRouters.length < 65536 := h
    have hsize := toNat_size_network lsa
    rw [Nat.mod_eq_of_lt hfits] at hsize
    rw [hsize] at hbuf
    rw [buildBody, NetworkLsaV2.buildBody, if_neg (by omega), store_zero (by simp; omega), ok_bind,
      storeRouters_next (by rfl) (by simpa using hbuf), wire]
  | summaryNetwork lsa =>
    have hbuf8 : 8 ≤ buf.length := hbuf
    have hsize : (LsaBodyV2.summaryNetwork lsa).size = 8 := rfl
    rw [buildBody, SummaryNetworkLsa.buildBody, if_neg (not_not_intro hsize), store_zero (by simp; omega),
      ok_bind, store_next (by rfl) (by simp; omega), wire]
  | summaryRouter lsa =>
    have hbuf8 : 8 ≤ buf.length := hbuf
    have hsize : (LsaBodyV2.summaryRouter lsa).size = 8 := rfl
    rw [buildBody, SummaryRouterLsa.buildBody, if_neg (not_not_intro hsize), store_zero (by simp; omega),
      ok_bind, store_next (by rfl) (by simp; omega), wire]
  | external lsa =>
    have hbuf16 : 16 ≤ buf.length := hbuf
    have hsize : (LsaBodyV2.external lsa).size = 16 := rfl
    rw [buildBody, ExternalLsaV2.buildBody, if_neg (not_not_intro hsize), store_zero (by simp; omega), ok_bind,
      store_next (by rfl) (by simp; omega), ok_bind, storeType2_next lsa (by omega), ok_bind, wire]
    rw [store_next (by simp) (by simp; omega), ok_bind, store_next (by simp) (by simp; omega)]
  | opaqueLsa lsa =>
    rw [wire] at hlen
    rw [buildBody, OpaqueLsaV2.buildBody, if_neg (by omega), store_zero (by omega), wire]

theorem buildBody_not_fits (h : ¬ body.Fits) : body.buildBody buf body.size = .error .refused := by
  cases body with
  | router lsa =>
    have hlinks : lsa.links ≠ [] := h
    have hpos : 0 < lsa.links.length := List.length_pos_iff.2 hlinks
    have hsize := toNat_size_router lsa
    rw [buildBody, RouterLsaV2.buildBody, if_pos (by omega)]
  | network lsa =>
    have hfits : ¬ 4 + 4 * lsa.attachedRouters.length < 65536 := h
    have hsize := toNat_size_network lsa
    rw [buildBody, NetworkLsaV2.buildBody, if_pos (by omega)]
  | summaryNetwork lsa => exact absurd trivial h
  | summaryRouter lsa => exact absurd trivial h
  | external lsa => exact absurd trivial h
  | opaqueLsa lsa =>
    have hfits : ¬ lsa.payload.length < 65536 := h
    have hsize : (LsaBodyV2.opaqueLsa lsa).size.toNat = lsa.payload.length % 65536 := by
      simp [size, OpaqueLsaV2.size]
    rw [buildBody, OpaqueLsaV2.buildBody, if_pos (by omega)]

/-! ## Parsing -/

variable {l rest : List UInt8} {i : ℕ}

theorem readPacket_byte {b : UInt8} (h : l.drop i = b :: rest) :
    readPacket l i 1 (· 0) = .ok b := readAt_byte h

theorem readPacket_u16 {v : UInt16} (h : l.drop i = writeU16 v ++ rest) :
    readPacket l i 2 readU16 = .ok v := readAt_u16 h

theorem readPacket_u32 {v : UInt32} (h : l.drop i = writeU32 v ++ rest) :
    readPacket l i 4 readU32 = .ok v := readAt_u32 h

theorem buildRouters_wire {rs : List UInt32} {len : UInt16} {fuel offset : ℕ}
    (h : l.drop offset = rs.flatMap writeU32) (hlen : len.toNat = offset + 4 * rs.length)
    (hfuel : rs.length < fuel) : NetworkLsaV2.buildRouters l 0 len fuel offset = .ok rs := by
  induction rs generalizing fuel offset with
  | nil =>
    obtain ⟨fuel, rfl⟩ := Nat.exists_eq_succ_of_ne_zero (Nat.ne_of_gt hfuel)
    rw [NetworkLsaV2.buildRouters, if_neg (by simp at hlen; omega)]
  | cons r rs ih =>
    rw [List.length_cons] at hlen hfuel
    obtain ⟨fuel, rfl⟩ := Nat.exists_eq_succ_of_ne_zero (Nat.ne_of_gt (Nat.zero_lt_of_lt hfuel))
    have hrest : NetworkLsaV2.buildRouters l 0 len fuel (offset + 4) = .ok rs :=
      ih (drop_of_drop h) (by omega) (by omega)
    rw [NetworkLsaV2.buildRouters, if_pos (by omega), Nat.zero_add, readPacket_u32 h, ok_bind, hrest]
    rfl

theorem and_metric {metric : UInt32} (h : metric < 0x01000000) : metric &&& 0x00FFFFFF = metric := by
  have hlt : metric.toNat < 2 ^ 24 := UInt32.lt_iff_toNat_lt.1 h
  refine UInt32.toNat_inj.1 ?_
  rw [UInt32.toNat_and]
  exact (Nat.and_two_pow_sub_one_eq_mod metric.toNat 24).trans (Nat.mod_eq_of_lt hlt)

theorem toNat_metricWord {lsa : ExternalLsaV2} (h : lsa.metric < 0x01000000) :
    lsa.metricWord.toNat = (if lsa.isType2 then 2 ^ 31 else 0) + lsa.metric.toNat := by
  have hlt : lsa.metric.toNat < 2 ^ 24 := UInt32.lt_iff_toNat_lt.1 h
  have hmask : (lsa.metric &&& 0x7FFFFFFF).toNat = lsa.metric.toNat := by
    rw [UInt32.toNat_and]
    exact (Nat.and_two_pow_sub_one_eq_mod lsa.metric.toNat 31).trans (Nat.mod_eq_of_lt (by omega))
  rw [ExternalLsaV2.metricWord]
  cases lsa.isType2 with
  | false => simpa using hmask
  | true =>
    have hor : 2 ^ 31 * 1 + lsa.metric.toNat = 2 ^ 31 * 1 ||| lsa.metric.toNat :=
      Nat.two_pow_add_eq_or_of_lt (by omega) 1
    simp only [if_true, UInt32.toNat_or, hmask]
    rw [Nat.or_comm]
    exact hor.symm

theorem metricBytes_eq {lsa : ExternalLsaV2} (h : lsa.metric < 0x01000000) :
    lsa.metricBytes = writeU32 lsa.metricWord := by
  have hlt : lsa.metric.toNat < 2 ^ 24 := UInt32.lt_iff_toNat_lt.1 h
  have hword := toNat_metricWord h
  rw [ExternalLsaV2.metricBytes]
  cases ht : lsa.isType2 with
  | false => rfl
  | true =>
    rw [ht] at hword
    have hbyte : (lsa.metricWord >>> 24).toUInt8 = 0x80 := by
      refine UInt8.toNat_inj.1 ?_
      rw [UInt32.toNat_toUInt8, UInt32.toNat_shiftRight, hword, Nat.shiftRight_eq_div_pow]
      simp only [if_true]
      show (2 ^ 31 + lsa.metric.toNat) / 2 ^ 24 % 256 = 128
      omega
    rw [if_pos rfl, writeU32, hbyte]
    rfl

theorem metricWord_metric {lsa : ExternalLsaV2} (h : lsa.metric < 0x01000000) :
    lsa.metricWord &&& 0x7FFFFFFF = lsa.metric := by
  have hlt : lsa.metric.toNat < 2 ^ 24 := UInt32.lt_iff_toNat_lt.1 h
  refine UInt32.toNat_inj.1 ?_
  rw [UInt32.toNat_and]
  refine (Nat.and_two_pow_sub_one_eq_mod lsa.metricWord.toNat 31).trans ?_
  rw [toNat_metricWord h]
  split_ifs <;> omega

theorem metricWord_type2 {lsa : ExternalLsaV2} (h : lsa.metric < 0x01000000) :
    decide (lsa.metricWord &&& 0x80000000 ≠ 0) = lsa.isType2 := by
  have hlt : lsa.metric.toNat < 2 ^ 24 := UInt32.lt_iff_toNat_lt.1 h
  have hbit : (lsa.metricWord &&& 0x80000000).toNat = (lsa.metricWord.toNat.testBit 31).toNat * 2 ^ 31 := by
    rw [UInt32.toNat_and]
    exact Nat.and_two_pow _ 31
  have htest : lsa.metricWord.toNat.testBit 31 = lsa.isType2 := by
    rw [toNat_metricWord h, Nat.testBit_eq_decide_div_mod_eq]
    cases lsa.isType2 with
    | false =>
      simp
      omega
    | true =>
      simp
      omega
  rw [htest] at hbit
  cases ht : lsa.isType2 with
  | false =>
    have hzero : lsa.metricWord &&& 0x80000000 = 0 := UInt32.toNat_inj.1 (by simpa [ht] using hbit)
    simp [hzero]
  | true =>
    have hne : lsa.metricWord &&& 0x80000000 ≠ 0 := by
      intro hzero
      rw [hzero, ht] at hbit
      cases hbit
    simp [hne]

theorem linkStateId_opaque {lsa : OpaqueLsaV2} (h : lsa.opaqueId < 0x01000000) :
    ((lsa.opaqueType.toUInt32 <<< 24 ||| lsa.opaqueId) >>> 24).toUInt8 = lsa.opaqueType ∧
      (lsa.opaqueType.toUInt32 <<< 24 ||| lsa.opaqueId) &&& 0x00FFFFFF = lsa.opaqueId := by
  have hid : lsa.opaqueId.toNat < 2 ^ 24 := UInt32.lt_iff_toNat_lt.1 h
  have htype : lsa.opaqueType.toNat < 256 := lsa.opaqueType.toNat_lt
  have hword : (lsa.opaqueType.toUInt32 <<< 24 ||| lsa.opaqueId).toNat =
      2 ^ 24 * lsa.opaqueType.toNat + lsa.opaqueId.toNat := by
    have hshift : (lsa.opaqueType.toUInt32 <<< 24).toNat = 2 ^ 24 * lsa.opaqueType.toNat := by
      rw [UInt32.toNat_shiftLeft, UInt8.toNat_toUInt32, Nat.shiftLeft_eq]
      show lsa.opaqueType.toNat * 2 ^ 24 % 2 ^ 32 = _
      omega
    rw [UInt32.toNat_or, hshift, Nat.two_pow_add_eq_or_of_lt hid]
  constructor
  · refine UInt8.toNat_inj.1 ?_
    rw [UInt32.toNat_toUInt8, UInt32.toNat_shiftRight, hword, Nat.shiftRight_eq_div_pow]
    show (2 ^ 24 * lsa.opaqueType.toNat + lsa.opaqueId.toNat) / 2 ^ 24 % 256 = _
    omega
  · refine UInt32.toNat_inj.1 ?_
    rw [UInt32.toNat_and, hword]
    refine (Nat.and_two_pow_sub_one_eq_mod _ 24).trans ?_
    omega

theorem rebuild_wire (h : body.Fits) (hrange : body.InWireRange) :
    body.rebuild body.wire 0 body.size = .ok body := by
  cases body with
  | router lsa =>
    obtain ⟨flags, links⟩ := lsa
    obtain rfl : links = [] := h
    have hflags : readPacket (LsaBodyV2.router { flags, links := [] }).wire 0 1 (· 0) = .ok flags :=
      readPacket_byte rfl
    have hnum : readPacket (LsaBodyV2.router { flags, links := [] }).wire 2 2 readU16 = .ok 0 :=
      readPacket_u16 (List.append_nil _).symm
    have hsize : (LsaBodyV2.router { flags, links := [] }).size = 4 := rfl
    rw [rebuild, RouterLsaV2.build, hsize, if_neg (by decide), hflags, ok_bind, hnum]
    rfl
  | network lsa =>
    have hlen : 4 + 4 * lsa.attachedRouters.length < 65536 := h
    have hsize : lsa.size.toNat = 4 + 4 * lsa.attachedRouters.length :=
      (toNat_size_network lsa).trans (Nat.mod_eq_of_lt hlen)
    have hmask : readPacket (LsaBodyV2.network lsa).wire 0 4 readU32 = .ok lsa.networkMask :=
      readPacket_u32 rfl
    have hrouters : NetworkLsaV2.buildRouters (LsaBodyV2.network lsa).wire 0 lsa.size
        (LsaBodyV2.network lsa).wire.length 4 = .ok lsa.attachedRouters :=
      buildRouters_wire rfl hsize (by rw [length_wire h, size]; omega)
    rw [rebuild, size, NetworkLsaV2.build, if_neg (by omega), hmask, ok_bind, if_neg (by omega),
      hrouters]
    rfl
  | summaryNetwork lsa =>
    have hmask : readPacket (LsaBodyV2.summaryNetwork lsa).wire 0 4 readU32 = .ok lsa.networkMask :=
      readPacket_u32 rfl
    have hmetric : readPacket (LsaBodyV2.summaryNetwork lsa).wire 4 4 readU32 = .ok lsa.metric :=
      readPacket_u32 (List.append_nil _).symm
    have hsize : (LsaBodyV2.summaryNetwork lsa).size = 8 := rfl
    rw [rebuild, SummaryNetworkLsa.build, if_neg (not_not_intro hsize), hmask, ok_bind, hmetric,
      ok_bind, and_metric hrange]
    rfl
  | summaryRouter lsa =>
    have hzero : readPacket (LsaBodyV2.summaryRouter lsa).wire 0 4 readU32 = .ok 0 :=
      readPacket_u32 rfl
    have hmetric : readPacket (LsaBodyV2.summaryRouter lsa).wire 4 4 readU32 = .ok lsa.metric :=
      readPacket_u32 (List.append_nil _).symm
    have hsize : (LsaBodyV2.summaryRouter lsa).size = 8 := rfl
    rw [rebuild, SummaryRouterLsa.build, if_neg (not_not_intro hsize), hzero, ok_bind,
      if_neg (not_not_intro rfl), hmetric, ok_bind, and_metric hrange]
    rfl
  | external lsa =>
    have hwire : (LsaBodyV2.external lsa).wire = writeU32 lsa.networkMask ++
        (writeU32 lsa.metricWord ++ (writeU32 lsa.forwardingAddress ++ writeU32 lsa.routeTag)) := by
      rw [wire, metricBytes_eq hrange, List.append_assoc, List.append_assoc]
    have hmask : readPacket (LsaBodyV2.external lsa).wire 0 4 readU32 = .ok lsa.networkMask :=
      readPacket_u32 hwire
    have hmetric : readPacket (LsaBodyV2.external lsa).wire 4 4 readU32 = .ok lsa.metricWord :=
      readPacket_u32 (by rw [hwire]; rfl)
    have hforward : readPacket (LsaBodyV2.external lsa).wire 8 4 readU32 =
        .ok lsa.forwardingAddress :=
      readPacket_u32 (by rw [hwire]; rfl)
    have htag : readPacket (LsaBodyV2.external lsa).wire 12 4 readU32 = .ok lsa.routeTag :=
      readPacket_u32 (by rw [hwire]; exact (List.append_nil _).symm)
    have hsize : (LsaBodyV2.external lsa).size = 16 := rfl
    rw [rebuild, ExternalLsaV2.build, if_neg (not_not_intro hsize), hmask, ok_bind, hmetric, ok_bind,
      hforward, ok_bind, htag, ok_bind, metricWord_metric hrange, metricWord_type2 hrange]
    rfl
  | opaqueLsa lsa =>
    have hlen : lsa.payload.length < 65536 := h
    have hsize : (LsaBodyV2.opaqueLsa lsa).size.toNat = lsa.payload.length :=
      (length_wire h).symm
    have hpayload : readPacket (LsaBodyV2.opaqueLsa lsa).wire 0 lsa.payload.length
        (·.take lsa.payload.length) = .ok lsa.payload := by
      rw [readPacket, readAt_ok (by rw [wire, Nat.zero_add]), add_zero]
      exact congrArg Except.ok (holds_ofList lsa.payload).take_eq
    obtain ⟨htype, hid⟩ := linkStateId_opaque hrange
    rw [rebuild, OpaqueLsaV2.build, hsize, hpayload, ok_bind, htype, hid]
    rfl

theorem not_roundTrips (h : ¬ body.Fits) : ¬ body.RoundTrips := by
  rintro ⟨bytes, -, hbuild, -⟩
  have hok := hbuild (List.replicate body.size.toNat 0) (by simp)
  rw [buildBody_not_fits h] at hok
  cases hok

/-- **The bodies of OSPFv2**: a body is written and read back if and only if it is not a router
    LSA with links (and its list is not too long for the length field). -/
theorem roundTrips_iff_fits (hrange : body.InWireRange) : body.RoundTrips ↔ body.Fits := by
  constructor
  · intro h
    by_contra hfits
    exact not_roundTrips hfits h
  · intro h
    exact ⟨body.wire, length_wire h, fun buf hbuf => buildBody_fits h hbuf, rebuild_wire h hrange⟩

theorem roundTrips_iff_fits_asbr :
    (LsaBodyV2.summaryRouter { metric := 20 }).RoundTrips ↔
      (LsaBodyV2.summaryRouter { metric := 20 }).Fits :=
  roundTrips_iff_fits (show (20 : UInt32) < 0x01000000 by decide)

/-- A router LSA with one link is not written. -/
theorem not_roundTrips_one_link : ¬ ∀ body : LsaBodyV2, body.InWireRange → body.RoundTrips := by
  intro h
  refine not_roundTrips ?_ (h (.router ⟨0, [⟨1, 2, 1, 10⟩]⟩) trivial)
  exact List.cons_ne_nil _ _

end LsaBodyV2

end VirtualRouter.Ospf
