/-
  The bounds of the route options.

  Each decoder and encoder goes through blocks of its own, and the blocks of an
  option are theirs in sequence; that a block fits is a matter of the length of
  the value, of the byte that counts the attributes and of the length of the
  prefix.  The writers are told the size of the whole buffer and have what is
  left of it.

  * `parseEigrpOptions_bytes`: the options of an accepted list are its bytes;
  * `inside_decodeRoute_iff`: which options are read inside their values;
  * `sound_iff`: which calls write inside the buffer and return what they wrote;
  * `tlvBounds_iff`: both, for every list of options and every list of routes.
-/
import VirtualRouter.Lib.CheckedBlocks
import VirtualRouter.Eigrp.TLVBuilder

namespace VirtualRouter.Eigrp

open Bytes Utils VirtualRouter.Types

/-! ## The blocks of a decoder -/

def nextHopBlocks (v6 : Bool) (off : ℕ) : List Block := [⟨0, off + ipSize v6⟩]

def namedBlocks (off : ℕ) : List Block := [⟨0, off + 8⟩]

def externalBlocks (off : ℕ) : List Block := [⟨off + 20, off + 20⟩]

def classicBlocks (off : ℕ) : List Block := [⟨off + 16, off + 16⟩]

/-- The attributes of a wide metric at `off`. -/
def attLenAt (value : List UInt8) (off : ℕ) : ℕ := RouteData.attLen (value.getD off 0)

def wideBlocks (value : List UInt8) (off : ℕ) : List Block :=
  [⟨0, off + 1⟩, ⟨off + 1 + (28 + attLenAt value off), off + 1 + 23 + attLenAt value off⟩]

def destinationBlocks (value : List UInt8) (v6 : Bool) (off : ℕ) : List Block :=
  [⟨0, off + 1⟩, ⟨off + 1 + prefSize (value.getD off 0), off + 1 + ipSize v6⟩]

/-- What an optional part of `n` bytes adds. -/
def extra (c : Bool) (n : ℕ) : ℕ := if c then n else 0

def wideEnd (routeOpt : TLV16Option) : ℕ :=
  extra (isNamed routeOpt.type) 8 + 1 +
    (23 + attLenAt routeOpt.value (extra (isNamed routeOpt.type) 8))

/-- The blocks of an option, as `decodeRoute` goes through them. -/
def decodeBlocks (routeOpt : TLV16Option) (af : AddressFamily) : List Block :=
  let v6 := af = .IPv6
  let ext := isExternal routeOpt.type
  if isWide routeOpt.type then
    (if isNamed routeOpt.type then namedBlocks 0 else []) ++
      (wideBlocks routeOpt.value (extra (isNamed routeOpt.type) 8) ++
        (nextHopBlocks v6 (wideEnd routeOpt) ++
          ((if ext then externalBlocks (wideEnd routeOpt + ipSize v6) else []) ++
            destinationBlocks routeOpt.value v6 (wideEnd routeOpt + ipSize v6 + extra ext 20))))
  else
    nextHopBlocks v6 0 ++
      ((if ext then externalBlocks (ipSize v6) else []) ++
        (classicBlocks (ipSize v6 + extra ext 20) ++
          destinationBlocks routeOpt.value v6 (ipSize v6 + extra ext 20 + 17)))

/-! ## What the decoders do -/

/-- The state of a decoder at an offset. -/
def RouteData.At (value : List UInt8) (v6 : Bool) (off : ℕ) (data : RouteData) : Prop :=
  data.value = value ∧ data.v6 = v6 ∧ data.offset = off

/-- The program goes through the blocks of a value. -/
abbrev Decodes {α : Type} (value : List UInt8) (bs : List Block) (x : Except DecodeStop α)
    (Q : α → Prop) : Prop :=
  Follows DecodeStop.outside (· ≠ .outside) value.length value.length bs x Q

section Decoders
variable {value : List UInt8} {v6 : Bool} {off : ℕ} {data : RouteData}

theorem RouteData.At.checkSize (h : data.At value v6 off) (n : ℕ) :
    Decodes value [⟨off + n, 0⟩] (data.checkSize n) fun _ => True := by
  obtain ⟨rfl, -, rfl⟩ := h
  exact follows_check (by simp)

theorem RouteData.At.read {α : Type} (h : data.At value v6 off) (k n : ℕ) (f : BytePtr → α) :
    Decodes value [⟨0, off + k + n⟩] (data.read k n f)
      fun a => a = f ((ofList value).add (off + k)) := by
  obtain ⟨rfl, -, rfl⟩ := h
  exact follows_readAt rfl

theorem RouteData.At.readU8 (h : data.At value v6 off) (k : ℕ) :
    Decodes value [⟨0, off + k + 1⟩] (data.readU8 k) fun a => a = value.getD (off + k) 0 :=
  h.read k 1 fun p => p 0

theorem decodeNextHop_follows (h : data.At value v6 off) :
    Decodes value (nextHopBlocks v6 off) data.decodeNextHop (RouteData.At value v6 (off + ipSize v6)) := by
  have hread := h.read 0 (ipSize data.v6) (addressAt data.v6)
  obtain ⟨rfl, rfl, rfl⟩ := h
  exact hread.bind fun _ _ => follows_ok ⟨rfl, rfl, rfl⟩

theorem decodeNamed_follows (h : data.At value v6 off) :
    Decodes value (namedBlocks off) data.decodeNamed (RouteData.At value v6 (off + 8)) := by
  have hall : Decodes value [⟨0, off + 0 + 2⟩, ⟨0, off + 2 + 2⟩, ⟨0, off + 4 + 4⟩] data.decodeNamed
      (RouteData.At value v6 (off + 8)) := by
    refine (h.read 0 2 readU16).bind fun _ _ => (h.read 2 2 readU16).bind fun _ _ =>
      (h.read 4 4 readU32).bind fun _ _ => ?_
    obtain ⟨rfl, rfl, rfl⟩ := h
    exact follows_ok ⟨rfl, rfl, rfl⟩
  exact (hall.merge (by omega)).merge (by omega)

theorem decodeExternal_follows (h : data.At value v6 off) :
    Decodes value (externalBlocks off) data.decodeExternal (RouteData.At value v6 (off + 20)) := by
  refine Follows.within [off + 0 + 4, off + 4 + 4, off + 8 + 4, off + 12 + 4, off + 18 + 1]
    (by simp) (Nat.zero_le _) ?_
  refine (h.checkSize 20).bind fun _ _ => (h.read 0 4 readU32).bind fun _ _ =>
    (h.read 4 4 readU32).bind fun _ _ => (h.read 8 4 readU32).bind fun _ _ =>
    (h.read 12 4 readU32).bind fun _ _ => (h.readU8 18).bind fun _ _ =>
    (h.readU8 19).bind fun _ _ => ?_
  obtain ⟨rfl, rfl, rfl⟩ := h
  exact follows_ok ⟨rfl, rfl, rfl⟩

theorem decodeClassicMetric_follows (h : data.At value v6 off) :
    Decodes value (classicBlocks off) data.decodeClassicMetric
      (RouteData.At value v6 (off + 17)) := by
  refine Follows.within [off + 0 + 4, off + 4 + 4, off + 8 + 3, off + 11 + 1, off + 12 + 1,
    off + 13 + 1, off + 14 + 1] (by simp) (Nat.zero_le _) ?_
  refine (h.checkSize 16).bind fun _ _ => (h.read 0 4 readU32).bind fun _ _ =>
    (h.read 4 4 readU32).bind fun _ _ => (h.read 8 3 readU24).bind fun _ _ =>
    (h.readU8 11).bind fun _ _ => (h.readU8 12).bind fun _ _ => (h.readU8 13).bind fun _ _ =>
    (h.readU8 14).bind fun _ _ => (h.readU8 15).bind fun _ _ => ?_
  obtain ⟨rfl, rfl, rfl⟩ := h
  exact follows_ok ⟨rfl, rfl, rfl⟩

theorem RouteData.At.next (h : data.At value v6 off) :
    RouteData.At value v6 (off + 1) { data with offset := data.offset + 1 } :=
  ⟨h.1, h.2.1, congrArg (· + 1) h.2.2⟩

theorem decodeWideMetric_follows (h : data.At value v6 off) :
    Decodes value (wideBlocks value off) data.decodeWideMetric
      (RouteData.At value v6 (off + 1 + (23 + attLenAt value off))) := by
  refine (h.readU8 0).bind fun count hcount => ?_
  have hatt : RouteData.attLen count = attLenAt value off := by rw [hcount, attLenAt, Nat.add_zero]
  have hnext := h.next
  rw [← hatt]
  refine Follows.within [off + 1 + 0 + 1, off + 1 + 1 + 1, off + 1 + 2 + 1, off + 1 + 3 + 3,
    off + 1 + 6 + 1, off + 1 + 7 + 6, off + 1 + 13 + 6, off + 1 + 21 + 1]
    (by simp; omega) (Nat.zero_le _) ?_
  refine (hnext.checkSize (28 + RouteData.attLen count)).bind fun _ _ =>
    (hnext.readU8 0).bind fun _ _ => (hnext.readU8 1).bind fun _ _ => (hnext.readU8 2).bind fun _ _ =>
    (hnext.read 3 3 readU24).bind fun _ _ => (hnext.readU8 6).bind fun _ _ =>
    (hnext.read 7 6 readU48).bind fun _ _ => (hnext.read 13 6 readU48).bind fun _ _ =>
    (hnext.readU8 21).bind fun _ _ =>
    (hnext.read 23 (RouteData.attLen count) fun p => p.take (RouteData.attLen count)).bind
      fun _ _ => ?_
  obtain ⟨rfl, rfl, rfl⟩ := h
  exact follows_ok ⟨rfl, rfl, rfl⟩

theorem decodeDestination_follows (h : data.At value v6 off) :
    Decodes value (destinationBlocks value v6 off) data.decodeDestination fun _ => True := by
  refine (h.readU8 0).bind fun plen hplen => ?_
  have hnext := h.next
  have hv6 : data.v6 = v6 := h.2.1
  rw [Nat.add_zero] at hplen
  rw [← hplen, ← hv6]
  refine Follows.within [] (by simp) (Nat.zero_le _) ?_
  exact (hnext.checkSize (prefSize plen)).bind fun _ _ =>
    (hnext.read 0 (ipSize data.v6) (addressAt data.v6)).bind fun _ _ => follows_ok trivial

theorem optionally_follows {ε α : Type} {oob : ε} {R : ε → Prop} {size room : ℕ} {c : Bool} {bs : List Block}
    {f : α → Except ε α} {a : α} {Q : α → Prop} (hsome : c = true → Follows oob R size room bs (f a) Q)
    (hnone : c = false → Q a) : Follows oob R size room (if c then bs else []) (optionally c f a) Q := by
  cases c with
  | true => exact hsome rfl
  | false => exact follows_ok (hnone rfl)

end Decoders

theorem decodeRoute_follows (routeOpt : TLV16Option) (originIface : UInt32) (af : AddressFamily) :
    Decodes routeOpt.value (decodeBlocks routeOpt af) (decodeRoute routeOpt originIface af)
      fun _ => True := by
  have hstart : RouteData.At routeOpt.value (af = .IPv6) 0 (decodeStart routeOpt originIface af) :=
    ⟨rfl, rfl, rfl⟩
  have hnamed : ∀ {data : RouteData}, data.At routeOpt.value (af = .IPv6) 0 →
      Decodes routeOpt.value (if isNamed routeOpt.type then namedBlocks 0 else [])
        (optionally (isNamed routeOpt.type) RouteData.decodeNamed data)
        (RouteData.At routeOpt.value (af = .IPv6) (extra (isNamed routeOpt.type) 8)) := by
    intro data h
    refine optionally_follows (fun hc => ?_) fun hc => ?_
    · simpa [extra, hc] using decodeNamed_follows h
    · simpa [extra, hc] using h
  have hexternal : ∀ {data : RouteData} {off : ℕ}, data.At routeOpt.value (af = .IPv6) off →
      Decodes routeOpt.value (if isExternal routeOpt.type then externalBlocks off else [])
        (optionally (isExternal routeOpt.type) RouteData.decodeExternal data)
        (RouteData.At routeOpt.value (af = .IPv6) (off + extra (isExternal routeOpt.type) 20)) := by
    intro data off h
    refine optionally_follows (fun hc => ?_) fun hc => ?_
    · simpa [extra, hc] using decodeExternal_follows h
    · simpa [extra, hc] using h
  rw [decodeBlocks, decodeRoute]
  refine Follows.bind_ok (Q := fun _ => True) ?_ fun _ _ => trivial
  by_cases hwide : isWide routeOpt.type = true
  · rw [if_pos hwide, if_pos hwide]
    exact (hnamed hstart).bind fun _ h₁ => (decodeWideMetric_follows h₁).bind fun _ h₂ =>
      (decodeNextHop_follows h₂).bind fun _ h₃ => (hexternal h₃).bind fun _ h₄ =>
      decodeDestination_follows h₄
  · rw [if_neg hwide, if_neg hwide]
    refine (decodeNextHop_follows hstart).bind fun _ h₁ => ?_
    rw [Nat.zero_add] at h₁
    exact (hexternal h₁).bind fun _ h₂ => (decodeClassicMetric_follows h₂).bind fun _ h₃ =>
      decodeDestination_follows h₃

/-- **Which options are read inside their values.** -/
theorem inside_decodeRoute_iff (routeOpt : TLV16Option) (originIface : UInt32) (af : AddressFamily) :
    Inside .outside (decodeRoute routeOpt originIface af) ↔
      Fits routeOpt.value.length routeOpt.value.length (decodeBlocks routeOpt af) :=
  (decodeRoute_follows routeOpt originIface af).inside_iff fun _ h => h

/-! ## The blocks of an encoder -/

/-- A wide metric with `n` bytes of attributes; without them the last byte written is the first of
    the flags. -/
def wideOutBlocks (n off : ℕ) : List Block :=
  [⟨off + (28 + n), if n = 0 then off + 23 else off + 24 + n⟩]

def destinationOutBlocks (plen : UInt8) (off : ℕ) : List Block :=
  [⟨off + prefSize plen, off + 1 + prefSize plen⟩]

section
variable (r : ReceivedRoute) (type : UInt16)

def isV6 : Bool := !isIPv4 r.ipPrefix.addr

/-- Where the next hop of a wide option ends, as the offset counts it. -/
def wideOutEnd : ℕ := extra (isNamed type) 8 + (24 + r.wide.data.length) + ipSize (isV6 r)

def destinationAt : ℕ :=
  if isWide type then wideOutEnd r type + extra (isExternal type) 20
  else ipSize (isV6 r) + extra (isExternal type) 20 + 16

def encodedSize : ℕ := destinationAt r type + 1 + prefSize r.ipPrefix.prefixLength

/-- The blocks of an option, as `encodeRouteOption` goes through them. -/
def encodeBlocks : List Block :=
  let ext := isExternal type
  if isWide type then
    (if isNamed type then [⟨0, 8⟩] else []) ++
      (wideOutBlocks r.wide.data.length (extra (isNamed type) 8) ++
        ([⟨0, ipSize (isV6 r)⟩] ++
          ((if ext then [⟨wideOutEnd r type + 20, wideOutEnd r type + 20⟩] else []) ++
            destinationOutBlocks r.ipPrefix.prefixLength (destinationAt r type))))
  else
    [⟨0, ipSize (isV6 r)⟩] ++
      ((if ext then [⟨ipSize (isV6 r) + 20, ipSize (isV6 r) + 20⟩] else []) ++
        ([⟨ipSize (isV6 r) + extra ext 20 + 16, ipSize (isV6 r) + extra ext 20 + 16⟩] ++
          destinationOutBlocks r.ipPrefix.prefixLength (destinationAt r type)))

end

/-! ## What the encoders do -/

/-- The room for an option at `start` in a buffer of `mem` bytes of which `size` may be used; its
    pointer is null where no byte of it would be. -/
def room (mem size start : ℕ) : ℕ := if start > size then 0 else mem - start

theorem room_self (size start : ℕ) : room size size start = size - start := by
  rw [room]
  split_ifs <;> omega

/-- The state of an encoder at an offset, with the option at `start` of the buffer `before` and a
    size of `size`.  What stands before the option is kept. -/
structure OutData.At (before : List UInt8) (size start : ℕ) (v6 : Bool) (off : ℕ) (data : OutData) :
    Prop where
  buffer : data.buffer.length = before.length
  kept : data.buffer.take start = before.take start
  valueSize : data.valueSize = size
  out : data.out = if start > size then none else some start
  v6 : data.v6 = v6
  offset : data.offset = off

/-- The encoder stops with a buffer in which what stands before the option is kept. -/
def Refused (before : List UInt8) (start : ℕ) (e : EncodeStop) : Prop :=
  ∃ after, e = .refused after ∧ after.length = before.length ∧ after.take start = before.take start

theorem Refused.ne_outside {before : List UInt8} {start : ℕ} {e : EncodeStop}
    (h : Refused before start e) : e ≠ .outside := by
  obtain ⟨after, rfl, -⟩ := h
  exact fun h => by cases h

/-- The program goes through the blocks of an option. -/
abbrev Encodes {α : Type} (before : List UInt8) (size start : ℕ) (bs : List Block)
    (x : Except EncodeStop α) (Q : α → Prop) : Prop :=
  Follows EncodeStop.outside (Refused before start) size (room before.length size start) bs x Q

@[simp] theorem length_writeBytes {w : ℕ} (val : BitVec w) (n : ℕ) : (writeBytes val n).length = n := by
  simp [writeBytes]

theorem length_writeIpAddr (v6 : Bool) (ip : IPAddress) : (writeIpAddr v6 ip).length = ipSize v6 := by
  cases v6 <;> exact length_writeBytes ..

section Encoders
variable {before bytes : List UInt8} {size start off : ℕ} {v6 : Bool} {data : OutData}
  {r : ReceivedRoute} {iface : EigrpInterface} {delay bw : UInt64}

namespace OutData.At

theorem skip (h : data.At before size start v6 off) (n : ℕ) : At before size start v6 (off + n) (data.skip n) :=
  { h with offset := congrArg (· + n) h.offset }

theorem checkSize (h : data.At before size start v6 off) (n : ℕ) :
    Encodes before size start [⟨off + n, 0⟩] (data.checkSize n) fun _ => True := by
  rw [OutData.checkSize, h.offset, h.valueSize]
  exact follows_check ⟨_, rfl, h.buffer, h.kept⟩

theorem writeTo (h : data.At before size start v6 off) (k : ℕ) (bytes : List UInt8)
    (hpos : 0 < k + bytes.length) :
    Encodes before size start [⟨0, k + bytes.length⟩] (data.writeTo k bytes) (At before size start v6 off) := by
  rw [OutData.writeTo, h.out]
  by_cases hnull : start > size
  · rw [if_pos hnull]
    refine Follows.leave (Nat.zero_le _) (show room before.length size start < _ from ?_)
    rwa [room, if_pos hnull]
  · rw [if_neg hnull]
    show Encodes before size start _ (writeAt .outside data.buffer (start + k) bytes >>= _) _
    have hlen := h.buffer
    have hroom : room before.length size start = before.length - start := if_neg hnull
    by_cases hfit : k + bytes.length ≤ before.length - start
    · rw [writeAt, if_pos (by omega)]
      refine Follows.pass (Nat.zero_le _) (hroom ▸ hfit) (follows_ok
        { h with out := (if_neg hnull).symm, buffer := ?_, kept := ?_ })
      · simp only [List.length_append, List.length_take, List.length_drop]
        omega
      · rw [List.append_assoc, List.take_append_of_le_length (by rw [List.length_take]; omega),
          List.take_take, Nat.min_eq_left (Nat.le_add_right _ _)]
        exact h.kept
    · rw [writeAt, if_neg (by omega)]
      exact Follows.leave (Nat.zero_le _) (hroom ▸ not_le.mp hfit)

theorem write (h : data.At before size start v6 off) (n : ℕ) (hn : bytes.length = n) (hpos : 0 < off + n) :
    Encodes before size start [⟨0, off + n⟩] (data.write bytes) (At before size start v6 (off + n)) := by
  subst hn
  rw [OutData.write, h.offset]
  exact (h.writeTo off bytes hpos).bind_ok fun _ h' => { h' with offset := congrArg (· + _) h'.offset }

end OutData.At

theorem encodeNextHop_follows (h : data.At before size start v6 off) :
    Encodes before size start [⟨0, ipSize v6⟩] (data.encodeNextHop iface r)
      (OutData.At before size start v6 (off + ipSize v6)) := by
  rw [OutData.encodeNextHop, h.v6]
  have hlen : ∀ ip, 0 + (writeIpAddr v6 ip).length = ipSize v6 := by simp [length_writeIpAddr]
  have hpos : 0 < ipSize v6 := by cases v6 <;> decide
  have hwrite := h.writeTo 0
    (writeIpAddr v6 (if iface.nextHopSelf then iface.ifaceAddress else r.nextHop))
    (by rw [hlen]; exact hpos)
  rw [hlen] at hwrite
  exact hwrite.bind_ok fun _ h' => by
    rw [h'.v6]
    exact h'.skip _

theorem encodeNamed_follows (h : data.At before size start v6 off) :
    Encodes before size start [⟨0, off + 8⟩] (data.encodeNamed r) (OutData.At before size start v6 (off + 8)) := by
  have hall : Encodes before size start [⟨0, off + 2⟩, ⟨0, off + 2 + 2⟩, ⟨0, off + 2 + 2 + 4⟩]
      (data.encodeNamed r) (OutData.At before size start v6 (off + 2 + 2 + 4)) :=
    (h.write 2 rfl (by omega)).bind fun _ h => (h.write 2 rfl (by omega)).bind fun _ h =>
      h.write 4 rfl (by omega)
  exact (hall.merge (by omega)).merge (by omega)

theorem encodeExternal_follows (h : data.At before size start v6 off) :
    Encodes before size start [⟨off + 20, off + 20⟩] (data.encodeExternal r)
      (OutData.At before size start v6 (off + 20)) := by
  refine Follows.within [off + 4, off + 4 + 4, off + 4 + 4 + 4, off + 4 + 4 + 4 + 4,
    off + 4 + 4 + 4 + 4 + 2 + 1] (by simp) (Nat.zero_le _) ?_
  exact (h.checkSize 20).bind fun _ _ => (h.write 4 rfl (by omega)).bind fun _ h =>
    (h.write 4 rfl (by omega)).bind fun _ h => (h.write 4 rfl (by omega)).bind fun _ h =>
    (h.write 4 rfl (by omega)).bind fun _ h => ((h.skip 2).write 1 rfl (by omega)).bind fun _ h =>
    h.write 1 rfl (by omega)

theorem encodeClassicMetric_follows (h : data.At before size start v6 off) :
    Encodes before size start [⟨off + 16, off + 16⟩] (data.encodeClassicMetric r delay bw)
      (OutData.At before size start v6 (off + 16)) := by
  refine Follows.within [off + 4, off + 4 + 4, off + 4 + 4 + 3] (by simp) (Nat.zero_le _) ?_
  exact (h.checkSize 16).bind fun _ _ => (h.write 4 rfl (by omega)).bind fun _ h =>
    (h.write 4 rfl (by omega)).bind fun _ h => (h.write 3 rfl (by omega)).bind fun _ h =>
    h.write 5 rfl (by omega)

theorem encodeWideFields_follows (h : data.At before size start v6 off) {bs : List Block}
    {Q : OutData → Prop} {last : OutData → Except EncodeStop OutData}
    (hlast : ∀ d, OutData.At before size start v6 (off + 23) d → Encodes before size start bs (last d) Q) :
    Encodes before size start
      (⟨off + (28 + r.wide.data.length), 0⟩ :: ⟨0, off + 4⟩ :: ⟨0, off + 7⟩ :: ⟨0, off + 8⟩ ::
        ⟨0, off + 14⟩ :: ⟨0, off + 20⟩ :: ⟨0, off + 22⟩ :: ⟨0, off + 23⟩ :: bs)
      (do
        data.checkSize (28 + r.wide.data.length)
        let data ← data.write [(r.wide.data.length / 2).toUInt8, 0, r.reliability, r.load]
        let data ← data.write (writeU24 r.mtu.toUInt32)
        let data ← data.write [r.hopCount + 1]
        let data ← data.write (writeU48 delay)
        let data ← data.write (writeU48 bw)
        let data ← data.write (writeU16 0)
        let data ← data.write [r.flags]
        last data) Q :=
  (h.checkSize _).bind fun _ _ => (h.write 4 rfl (by omega)).bind fun _ h =>
    (h.write 3 rfl (by omega)).bind fun _ h => (h.write 1 rfl (by omega)).bind fun _ h =>
    (h.write 6 rfl (by omega)).bind fun _ h => (h.write 6 rfl (by omega)).bind fun _ h =>
    (h.write 2 rfl (by omega)).bind fun _ h => (h.write 1 rfl (by omega)).bind hlast

theorem encodeWideMetric_follows (h : data.At before size start v6 off) :
    Encodes before size start (wideOutBlocks r.wide.data.length off) (data.encodeWideMetric r delay bw)
      (OutData.At before size start v6 (off + (24 + r.wide.data.length))) := by
  rw [wideOutBlocks]
  by_cases hw : r.wide.data.length = 0
  · rw [if_pos hw]
    refine Follows.within [off + 4, off + 7, off + 8, off + 14, off + 20, off + 22] (by simp)
      (Nat.zero_le _) (encodeWideFields_follows h fun d hd => ?_)
    rw [if_neg (not_not.mpr hw), hw]
    exact follows_ok (hd.skip 1)
  · rw [if_neg hw]
    refine Follows.within [off + 4, off + 7, off + 8, off + 14, off + 20, off + 22, off + 23]
      (by simp; omega) (Nat.zero_le _) (encodeWideFields_follows h fun d hd => ?_)
    rw [if_pos hw, ← Nat.add_assoc]
    exact (hd.skip 1).write r.wide.data.length rfl (by omega)

theorem encodeDestination_follows (h : data.At before size start v6 off) :
    Encodes before size start (destinationOutBlocks r.ipPrefix.prefixLength off) (data.encodeDestination r)
      (OutData.At before size start v6 (off + 1 + prefSize r.ipPrefix.prefixLength)) := by
  refine Follows.within [off + 1] (by simp) (Nat.zero_le _) ?_
  refine (h.checkSize _).bind fun _ _ => (h.write 1 rfl (by omega)).bind fun d hd => ?_
  refine hd.write _ ?_ (by omega)
  split_ifs <;> exact length_writeBytes ..

end Encoders

theorem encodeValue_follows (iface : EigrpInterface) (r : ReceivedRoute) (bw delay : UInt64)
    (type : UInt16) {before : List UInt8} {size start : ℕ} {data : OutData} (h : data.At before size start (isV6 r) 0) :
    Encodes before size start (encodeBlocks r type) (encodeValue iface data r bw delay type)
      (OutData.At before size start (isV6 r) (encodedSize r type)) := by
  have hnamed : ∀ {data : OutData}, data.At before size start (isV6 r) 0 →
      Encodes before size start (if isNamed type then [⟨0, 8⟩] else [])
        (optionally (isNamed type) (OutData.encodeNamed r) data)
        (OutData.At before size start (isV6 r) (extra (isNamed type) 8)) := by
    intro data h
    refine optionally_follows (fun hc => ?_) fun hc => ?_
    · simpa [extra, hc] using encodeNamed_follows h
    · simpa [extra, hc] using h
  have hexternal : ∀ {data : OutData} {off : ℕ}, data.At before size start (isV6 r) off →
      Encodes before size start (if isExternal type then [⟨off + 20, off + 20⟩] else [])
        (optionally (isExternal type) (OutData.encodeExternal r) data)
        (OutData.At before size start (isV6 r) (off + extra (isExternal type) 20)) := by
    intro data off h
    refine optionally_follows (fun hc => ?_) fun hc => ?_
    · simpa [extra, hc] using encodeExternal_follows h
    · simpa [extra, hc] using h
  rw [encodeBlocks, encodeValue, encodedSize, destinationAt]
  by_cases hwide : isWide type = true
  · simp only [if_pos hwide]
    exact (hnamed h).bind fun _ h₁ => (encodeWideMetric_follows h₁).bind fun _ h₂ =>
      (encodeNextHop_follows h₂).bind fun _ h₃ => (hexternal h₃).bind fun _ h₄ =>
      encodeDestination_follows h₄
  · simp only [if_neg hwide]
    refine (encodeNextHop_follows h).bind fun _ h₁ => ?_
    rw [Nat.zero_add] at h₁
    exact (hexternal h₁).bind fun _ h₂ => (encodeClassicMetric_follows h₂).bind fun _ h₃ =>
      encodeDestination_follows h₃

/-! ## The calls of `appendRoutes` -/

section
variable (iface : EigrpInterface) (bw delay : UInt64) (tlvVersion : TLVType)

/-- The call writes inside what is left of the buffer, and returns the bytes of the option. -/
def Sound (tlv : TLV16BufferManager) (r : ReceivedRoute) : Prop :=
  Inside .outside (encodeNext iface bw delay tlvVersion tlv r) ∧
    ∀ e data, encodeNext iface bw delay tlvVersion tlv r = .ok e →
      encodeValue iface
        (encodeStart tlv.buffer (tlv.getNextValBuf 0) tlv.maxSize r) r bw delay
        (routeOptionType tlvVersion r) = .ok data →
      e.length.toNat = data.offset

def EachCall (P : TLV16BufferManager → ReceivedRoute → Prop) :
    TLV16BufferManager → List ReceivedRoute → Prop
  | _, [] => True
  | tlv, r :: routes =>
    P tlv r ∧ ∀ a, appendRoute iface bw delay tlvVersion tlv r = .ok a → a.appended = true →
      EachCall P a.tlv routes

end

/-- The option fits into a buffer of `size` bytes of which `off` are used: what passes its checks
    ends inside the rest, and the option has at most 255 bytes. -/
def CallFits (tlvVersion : TLVType) (size off : ℕ) (r : ReceivedRoute) : Prop :=
  Fits size (size - (off + 4)) (encodeBlocks r (routeOptionType tlvVersion r)) ∧
    (Passes size (encodeBlocks r (routeOptionType tlvVersion r)) →
      encodedSize r (routeOptionType tlvVersion r) ≤ 255)

/-- The options fit one behind the other, up to the first that does not pass its checks. -/
def AppendFits (tlvVersion : TLVType) (size : ℕ) : ℕ → List ReceivedRoute → Prop
  | _, [] => True
  | off, r :: routes =>
    CallFits tlvVersion size off r ∧
      (Passes size (encodeBlocks r (routeOptionType tlvVersion r)) →
        AppendFits tlvVersion size (off + 4 + encodedSize r (routeOptionType tlvVersion r)) routes)

section
variable {iface : EigrpInterface} {bw delay : UInt64} {tlvVersion : TLVType} {tlv : TLV16BufferManager}
  {r : ReceivedRoute}

theorem encodeStart_at {buffer : List UInt8} {maxSize start : ℕ} :
    (encodeStart buffer (if start > maxSize then none else some start) maxSize r).At
      buffer maxSize start (isV6 r) 0 :=
  ⟨rfl, rfl, rfl, rfl, rfl, rfl⟩

variable {buffer : List UInt8} {maxSize start : ℕ} {type : UInt16}

variable (iface bw delay) in
theorem encodeRouteOption_cases
    (hfit : Fits maxSize (room buffer.length maxSize start) (encodeBlocks r type)) :
    (Passes maxSize (encodeBlocks r type) ∧
      ∃ data, encodeValue iface (encodeStart buffer (if start > maxSize then none else some start)
          maxSize r) r bw delay type = .ok data ∧
        data.At buffer maxSize start (isV6 r) (encodedSize r type) ∧
        encodeRouteOption iface buffer (if start > maxSize then none else some start) maxSize r bw
          delay type = .ok ⟨data.buffer, { r with bandwidth := min r.bandwidth bw }, data.offset.toUInt8⟩) ∨
    (¬ Passes maxSize (encodeBlocks r type) ∧
      ∃ after, encodeValue iface (encodeStart buffer (if start > maxSize then none else some start)
          maxSize r) r bw delay type = .error (.refused after) ∧
        (after.length = buffer.length ∧ after.take start = buffer.take start) ∧
        encodeRouteOption iface buffer (if start > maxSize then none else some start) maxSize r bw
          delay type = .ok ⟨after, r, 0⟩) := by
  have hfollows := encodeValue_follows iface r bw delay type (@encodeStart_at r buffer maxSize start)
  rcases hfollows.ok_or_refused hfit with ⟨hpass, data, hdata, hat⟩ | ⟨hpass, e, he, hrefused⟩
  · refine .inl ⟨hpass, data, hdata, hat, ?_⟩
    rw [encodeRouteOption, hdata]
  · obtain ⟨after, rfl, hkept⟩ := he
    refine .inr ⟨hpass, after, hrefused, hkept, ?_⟩
    rw [encodeRouteOption, hrefused]

theorem inside_encodeRouteOption_iff :
    Inside .outside (encodeRouteOption iface buffer (if start > maxSize then none else some start)
      maxSize r bw delay type) ↔
    Fits maxSize (room buffer.length maxSize start) (encodeBlocks r type) := by
  have hfollows := encodeValue_follows iface r bw delay type (@encodeStart_at r buffer maxSize start)
  rw [← hfollows.inside_iff fun _ => Refused.ne_outside, encodeRouteOption, Inside, Inside]
  split <;> simp_all

variable (iface bw delay) in
theorem encodeNext_cases
    (hfit : Fits tlv.buffer.length (tlv.buffer.length - (tlv.offset + 4))
      (encodeBlocks r (routeOptionType tlvVersion r))) :
    (Passes tlv.buffer.length (encodeBlocks r (routeOptionType tlvVersion r)) ∧
      ∃ data, encodeValue iface (encodeStart tlv.buffer (tlv.getNextValBuf 0) tlv.maxSize r) r bw delay
          (routeOptionType tlvVersion r) = .ok data ∧
        data.At tlv.buffer tlv.buffer.length (tlv.offset + 4) (isV6 r)
          (encodedSize r (routeOptionType tlvVersion r)) ∧
        encodeNext iface bw delay tlvVersion tlv r =
          .ok ⟨data.buffer, { r with bandwidth := min r.bandwidth bw }, data.offset.toUInt8⟩) ∨
    (¬ Passes tlv.buffer.length (encodeBlocks r (routeOptionType tlvVersion r)) ∧
      ∃ buffer, encodeValue iface (encodeStart tlv.buffer (tlv.getNextValBuf 0) tlv.maxSize r) r bw
          delay (routeOptionType tlvVersion r) = .error (.refused buffer) ∧
        buffer.length = tlv.buffer.length ∧
        encodeNext iface bw delay tlvVersion tlv r = .ok ⟨buffer, r, 0⟩) := by
  rw [← room_self] at hfit
  rcases encodeRouteOption_cases iface bw delay hfit with h | ⟨hpass, after, hrefused, hkept, hnext⟩
  · exact .inl h
  · exact .inr ⟨hpass, after, hrefused, hkept.1, hnext⟩

theorem inside_encodeNext_iff : Inside .outside (encodeNext iface bw delay tlvVersion tlv r) ↔
    Fits tlv.buffer.length (tlv.buffer.length - (tlv.offset + 4))
      (encodeBlocks r (routeOptionType tlvVersion r)) := by
  rw [← room_self]
  exact inside_encodeRouteOption_iff

/-- **Which calls are sound.** -/
theorem sound_iff : Sound iface bw delay tlvVersion tlv r ↔
    CallFits tlvVersion tlv.buffer.length tlv.offset r := by
  rw [Sound, CallFits, inside_encodeNext_iff]
  refine and_congr_right fun hfit => ?_
  rcases encodeNext_cases iface bw delay hfit with
    ⟨hpass, data, hdata, hat, hnext⟩ | ⟨hpass, buffer, hrefused, -, hnext⟩
  · have hlength : ∀ n : ℕ, n.toUInt8.toNat = n ↔ n ≤ 255 := by
      intro n
      simp only [Nat.toUInt8_eq, UInt8.toNat_ofNat']
      omega
    rw [← hat.offset, ← hlength]
    constructor
    · exact fun h _ => h _ _ hnext hdata
    · intro h e d he hd
      rw [hnext] at he
      rw [hdata] at hd
      obtain rfl := Except.ok.inj he
      obtain rfl := Except.ok.inj hd
      exact h hpass
  · refine iff_of_true (fun e data _ hdata => ?_) fun h => absurd h hpass
    rw [hrefused] at hdata
    cases hdata

theorem ipSize_pos (v6 : Bool) : 4 ≤ ipSize v6 := by cases v6 <;> decide

theorem passes_encodeBlocks_iff {size : ℕ} : Passes size (encodeBlocks r type) ↔
    encodedSize r type ≤ size + 1 := by
  have hip := ipSize_pos (isV6 r)
  rw [encodeBlocks, encodedSize, destinationAt]
  by_cases hwide : isWide type = true
  · by_cases hnamed : isNamed type = true <;> by_cases hext : isExternal type = true <;>
      simp [Passes, wideOutBlocks, destinationOutBlocks, hwide, hnamed, hext, wideOutEnd, extra] <;> omega
  · by_cases hext : isExternal type = true <;>
      simp [Passes, destinationOutBlocks, hwide, hext, extra] <;> omega

theorem last_encodeBlocks_iff {room : ℕ} : (∀ b ∈ encodeBlocks r type, b.last ≤ room) ↔
    encodedSize r type ≤ room := by
  have hip := ipSize_pos (isV6 r)
  rw [encodeBlocks, encodedSize, destinationAt]
  by_cases hwide : isWide type = true
  · by_cases hnamed : isNamed type = true <;> by_cases hext : isExternal type = true <;>
      by_cases hatt : r.wide.data.length = 0 <;>
      simp [wideOutBlocks, destinationOutBlocks, hwide, hnamed, hext, hatt, wideOutEnd, extra] <;> omega
  · by_cases hext : isExternal type = true <;>
      simp [destinationOutBlocks, hwide, hext, extra] <;> omega

theorem encodedSize_le {size room : ℕ} (hfit : Fits size room (encodeBlocks r type))
    (hpass : Passes size (encodeBlocks r type)) : encodedSize r type ≤ room :=
  last_encodeBlocks_iff.mp (hpass.fits_iff.mp hfit)

theorem encodedSize_pos : 0 < encodedSize r type := Nat.add_pos_left (Nat.succ_pos _) _

variable (iface bw delay) in
/-- **One round**: the loop goes on behind an option that passed its checks. -/
theorem appendRoute_of_fits (hcall : CallFits tlvVersion tlv.buffer.length tlv.offset r) :
    ∃ a, appendRoute iface bw delay tlvVersion tlv r = .ok a ∧
      (a.appended = true ↔
        Passes tlv.buffer.length (encodeBlocks r (routeOptionType tlvVersion r))) ∧
      (a.appended = true → a.tlv.buffer.length = tlv.buffer.length ∧
        a.tlv.offset = tlv.offset + 4 + encodedSize r (routeOptionType tlvVersion r)) := by
  rcases encodeNext_cases iface bw delay hcall.1 with
    ⟨hpass, data, hdata, hat, hnext⟩ | ⟨hpass, buffer, hrefused, -, hnext⟩
  · have hroom := encodedSize_le hcall.1 hpass
    have hsize := hcall.2 hpass
    have hpos : 0 < encodedSize r (routeOptionType tlvVersion r) := encodedSize_pos
    have hlength : data.offset.toUInt8.toNat = encodedSize r (routeOptionType tlvVersion r) := by
      rw [hat.offset, Nat.toUInt8_eq, UInt8.toNat_ofNat']
      omega
    have hne : data.offset.toUInt8 ≠ 0 := by
      intro h
      rw [h] at hlength
      exact hpos.ne hlength
    rw [appendRoute, hnext, ok_bind]
    simp only [if_neg hne, TLV16BufferManager.append, TLV16BufferManager.maxSize, hlength]
    rw [if_neg (by rw [hat.buffer]; omega)]
    refine ⟨_, rfl, iff_of_true rfl hpass, fun _ => ⟨?_, rfl⟩⟩
    simp only [List.length_append, List.length_take, List.length_drop, length_writeU16, hat.buffer]
    omega
  · rw [appendRoute, hnext, ok_bind]
    exact ⟨_, rfl, iff_of_false (by simp) hpass, fun h => absurd h (by simp)⟩

theorem inside_appendRoutes_iff : ∀ {routes : List ReceivedRoute} {tlv : TLV16BufferManager},
    Inside .outside (appendRoutes iface bw delay tlvVersion tlv routes) ↔
      EachCall iface bw delay tlvVersion
        (fun tlv r => Inside .outside (encodeNext iface bw delay tlvVersion tlv r)) tlv routes
  | [], _ => iff_of_true (inside_ok _) trivial
  | r :: routes, tlv => by
    rw [appendRoutes, EachCall]
    cases hnext : encodeNext iface bw delay tlvVersion tlv r with
    | error e =>
      have hround : appendRoute iface bw delay tlvVersion tlv r = .error e := by
        rw [appendRoute, hnext, error_bind]
      rw [hround, error_bind]
      exact ⟨fun h => ⟨fun herr => h (congrArg _ (Except.error.inj herr)), fun a ha => by cases ha⟩,
        fun h herr => h.1 (congrArg _ (Except.error.inj herr))⟩
    | ok e =>
      obtain ⟨a, ha⟩ : ∃ a, appendRoute iface bw delay tlvVersion tlv r = .ok a := by
        rw [appendRoute, hnext, ok_bind]
        split_ifs
        · exact ⟨_, rfl⟩
        · simp only
          split <;> exact ⟨_, rfl⟩
      rw [ha, ok_bind, and_iff_right (inside_ok e)]
      have hrest := @inside_appendRoutes_iff routes a.tlv
      split_ifs with hgoes
      · constructor
        · intro h b hb _
          obtain rfl := Except.ok.inj hb
          refine hrest.mp fun herr => h ?_
          rw [herr, error_bind]
        · intro h
          exact (hrest.mpr (h a rfl hgoes)).bind fun _ _ => inside_ok _
      · refine iff_of_true (inside_ok _) fun b hb happended => ?_
        obtain rfl := Except.ok.inj hb
        exact absurd happended hgoes

/-- **The calls for a list of routes.** -/
theorem eachCall_sound_iff : ∀ {routes : List ReceivedRoute} {tlv : TLV16BufferManager},
    EachCall iface bw delay tlvVersion (Sound iface bw delay tlvVersion) tlv routes ↔
      AppendFits tlvVersion tlv.buffer.length tlv.offset routes
  | [], _ => Iff.rfl
  | r :: routes, tlv => by
    rw [EachCall, AppendFits, sound_iff]
    refine and_congr_right fun hcall => ?_
    obtain ⟨a, ha, happended, hnext⟩ :=
      appendRoute_of_fits iface bw delay hcall
    have hrest := @eachCall_sound_iff routes a.tlv
    rw [← happended]
    constructor
    · intro h hgoes
      have := hrest.mp (h a ha hgoes)
      rwa [(hnext hgoes).1, (hnext hgoes).2] at this
    · intro h b hb hgoes
      rw [ha] at hb
      obtain rfl := Except.ok.inj hb
      refine hrest.mpr ?_
      rw [(hnext hgoes).1, (hnext hgoes).2]
      exact h hgoes

end

/-! ## Accepted options -/

def TLV16Option.bytes (opt : TLV16Option) : List UInt8 :=
  writeU16 opt.type ++ (writeU16 opt.length ++ opt.value)

/-- The options of an accepted list are its bytes, with lengths that are those of the options. -/
theorem parseEigrpOptions_bytes {data : List UInt8} {opts : List TLV16Option}
    (h : parseEigrpOptions data = (true, opts)) :
    data = opts.flatMap TLV16Option.bytes ∧ ∀ opt ∈ opts, opt.length.toNat = opt.bytes.length := by
  induction data using parseEigrpOptions.induct generalizing opts with
  | case1 t₁ t₀ l₁ l₀ rest length =>
    rename_i hbad
    rw [parseEigrpOptions, if_pos hbad] at h
    cases h
  | case2 t₁ t₀ l₁ l₀ rest length =>
    rename_i hgood ih
    rw [parseEigrpOptions, if_neg hgood] at h
    obtain ⟨hrest, hopts⟩ := Prod.mk.inj h
    obtain rfl := hopts
    obtain ⟨hdata, hlengths⟩ := ih (Prod.ext hrest rfl)
    have hlen : 4 ≤ (readU16 (ofList [l₁, l₀])).toNat :=
      UInt16.le_iff_toNat_le.mp (UInt16.not_lt.mp (not_or.mp hgood).1)
    have hle : (readU16 (ofList [l₁, l₀])).toNat ≤ rest.length + 4 := not_lt.mp (not_or.mp hgood).2
    rw [List.flatMap_cons, ← hdata, TLV16Option.bytes, writeU16_readU16, writeU16_readU16]
    refine ⟨?_, List.forall_mem_cons.mpr ⟨?_, hlengths⟩⟩
    · simp only [List.cons_append, List.nil_append]
      exact congrArg _ (congrArg _ (congrArg _ (congrArg _ (List.take_append_drop _ rest).symm)))
    · simp only [TLV16Option.bytes, List.length_append, length_writeU16, List.length_take]
      omega
  | case3 rest hshort =>
    rw [parseEigrpOptions.eq_2 rest hshort] at h
    obtain ⟨hempty, rfl⟩ := Prod.mk.inj h
    exact ⟨by simpa using hempty, by simp⟩

/-! ## Both together -/

/-- The options of an accepted list are decoded inside their values. -/
def BoundedDecode (data : List UInt8) (originIface : UInt32) (af : AddressFamily) : Prop :=
  ∀ opts, parseEigrpOptions data = (true, opts) →
    ∀ opt ∈ opts, Inside .outside (decodeRoute opt originIface af)

/-- The blocks of the options of an accepted list end inside their values, as far as their checks
    let the decoder go. -/
def DecodeFits (data : List UInt8) (af : AddressFamily) : Prop :=
  ∀ opts, parseEigrpOptions data = (true, opts) →
    ∀ opt ∈ opts, Fits opt.value.length opt.value.length (decodeBlocks opt af)

/-- **The bounds of the route options**: exactly when both directions keep them. -/
theorem tlvBounds_iff (data : List UInt8) (originIface : UInt32) (af : AddressFamily)
    (iface : EigrpInterface) (bw delay : UInt64) (tlvVersion : TLVType) (tlv : TLV16BufferManager)
    (routes : List ReceivedRoute) :
    (BoundedDecode data originIface af ∧
      EachCall iface bw delay tlvVersion (Sound iface bw delay tlvVersion) tlv routes) ↔
    (DecodeFits data af ∧ AppendFits tlvVersion tlv.buffer.length tlv.offset routes) := by
  simp only [BoundedDecode, DecodeFits, inside_decodeRoute_iff, eachCall_sound_iff]

/-- A classic route to 10.1.1.0/24, as `encodeRouteOption` writes it. -/
def classicUpdate : List UInt8 :=
  [0x01, 0x02, 0, 28] ++ [0, 0, 0, 0] ++ List.replicate 16 0 ++ [24, 10, 1, 1]

/-- It is a list of one option. -/
theorem parseEigrpOptions_bytes_classic :
    classicUpdate = [⟨0x0102, 28, classicUpdate.drop 4⟩].flatMap TLV16Option.bytes := by
  refine (parseEigrpOptions_bytes ?_).1
  simp [classicUpdate, parseEigrpOptions, readU16, ofList]
  decide

/-- The length of the prefix is looked for one byte too far, and the address is read up to two bytes
    behind the value; an option is written behind a buffer of 40 bytes that has 30 in it. -/
theorem bounds_are_left :
    ¬ BoundedDecode classicUpdate 0 .IPv4 ∧
    ¬ EachCall ⟨false, 0⟩ 0 0 .LEGACY_V4 (Sound ⟨false, 0⟩ 0 0 .LEGACY_V4)
      ⟨List.replicate 40 0, 30⟩ [{ ipPrefix := { addr := ofV4 0 } }] := by
  constructor
  · intro h
    have haccept : parseEigrpOptions classicUpdate = (true, [⟨0x0102, 28, classicUpdate.drop 4⟩]) := by
      simp [classicUpdate, parseEigrpOptions, readU16, ofList]
      decide
    have hinside := h _ haccept _ (List.mem_singleton_self _)
    rw [inside_decodeRoute_iff] at hinside
    revert hinside
    decide
  · rw [eachCall_sound_iff]
    exact fun h => absurd h.1.1 (by decide)

end VirtualRouter.Eigrp
