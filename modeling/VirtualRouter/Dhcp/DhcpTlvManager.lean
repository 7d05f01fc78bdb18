/-
  Writing the options of a DHCPv4 message over its three fields
  (`services/dhcp/dhcpv4/DhcpTlvManager.hpp`, `packet/TlvOptions.hpp`), and reading
  them back (`DhcpServer::handlePacket`).

  `appendTLV` puts an option into the main field, into `file` or into `serverName`,
  by two flags that stay set once they are.  `sname` is set from the start, so that
  every option goes into `serverName`; `sendOffer` writes the overload option by
  `file` alone, and `handlePacket` reads bit 0 as `file` and bit 1 as `serverName`.
  The form for 32-bit values writes the value first and then appends it from a null
  pointer.

  * `TLV8BufferManager`, `DhcpTLVManager`, `appendTLV`, `appendTLV32`: the writers;
  * `offer`: a run of calls and the end of `sendOffer`; `receive`: the reader;
  * `offer_inside`: no write leaves the fields;
  * `optionsRoundTrip_iff`: the reader finds the options that were appended only where none was.
-/
import VirtualRouter.Lib.BoundedWrite
import VirtualRouter.Utils.ByteUtils
import VirtualRouter.Dhcp.DhcpOptions

namespace VirtualRouter.Dhcp

open Bytes

def DHCP_OPTION_OVERLOAD : UInt8 := 0x34
def DHCP_OPTION_AUTHENTICATION : UInt8 := 0x5A

/-- Why a writer stops. -/
inductive TlvFault where
  /-- A write leaves the field. -/
  | outside
  /-- `memcpy` reads from a null pointer. -/
  | nullSource
  deriving DecidableEq, Repr

/-- `packet::TLV8BufferManager`, with the bytes of its buffer. -/
structure TLV8BufferManager where
  buffer : List UInt8
  offset : ℕ
  len : ℕ
  deriving DecidableEq, Repr

/-- What `memcpy` reads from `value`, which may be null. -/
def source (value : Option (List UInt8)) (size : ℕ) : Except TlvFault (List UInt8) :=
  if size = 0 then .ok []
  else
    match value with
    | none => .error .nullSource
    | some bytes => .ok (bytes.take size)

namespace TLV8BufferManager

def getNextValBuf (m : TLV8BufferManager) (size : UInt8) : Option ℕ :=
  if m.offset + 2 + size.toNat > m.len then none else some (m.offset + 2)

def hasRoom (m : TLV8BufferManager) (size : ℕ) : Bool := m.offset + 2 + size ≤ m.len

def store (m : TLV8BufferManager) (pos : ℕ) (bytes : List UInt8) :
    Except TlvFault TLV8BufferManager := do
  let buffer ← writeAt .outside m.buffer pos bytes
  return { m with buffer }

def append (m : TLV8BufferManager) (type length : UInt8) (value : Option (List UInt8))
    (valueSize : ℕ) : Except TlvFault (Bool × TLV8BufferManager) :=
  if m.offset + 2 + valueSize > m.len then .ok (false, m)
  else do
    let m ← m.store m.offset [type, length]
    let bytes ← source value valueSize
    let m ← m.store (m.offset + 2) bytes
    return (true, { m with offset := m.offset + 2 + valueSize })

def getSpan (m : TLV8BufferManager) : List UInt8 := m.buffer.take m.offset

/-- A value of four bytes, written where the next option has its value and then appended. -/
def put32 (m : TLV8BufferManager) (size type : UInt8) (value : UInt32) :
    Except TlvFault (Option TLV8BufferManager) :=
  match m.getNextValBuf size with
  | none => .ok none
  | some pos => do
    let m ← m.store pos (Utils.writeU32 value)
    let r ← m.append type 4 none 4
    return some r.2

end TLV8BufferManager

/-- `DhcpTLVManager`; `requestList` is the list of option 55, if there is one. -/
structure DhcpTLVManager where
  auth : Bool
  file : Bool := false
  sname : Bool := true
  tlv : TLV8BufferManager
  tlvFile : TLV8BufferManager
  tlvSname : TLV8BufferManager
  requestList : Option (List UInt8) := none

structure OptionFields where
  trail : List UInt8
  file : List UInt8
  serverName : List UInt8
  file_length : file.length = 128
  serverName_length : serverName.length = 64

namespace DhcpTLVManager

/-- The constructor, over a message whose trail has room for `size` bytes. -/
def create (dhcp : OptionFields) (isAuth : Bool) (requests : Option (List UInt8)) :
    DhcpTLVManager where
  auth := isAuth
  tlv := ⟨dhcp.trail, 0, dhcp.trail.length⟩
  tlvFile := ⟨dhcp.file, 0, 128⟩
  tlvSname := ⟨dhcp.serverName, 0, 64⟩
  requestList := requests

/-- The room that the main field keeps for the overload, the authentication and the END. -/
def spare (tlv : DhcpTLVManager) : ℕ := if tlv.auth then 34 else 0

def zeroRequested (tlv : DhcpTLVManager) (type : UInt8) : DhcpTLVManager :=
  { tlv with requestList := tlv.requestList.map fun l => l.map fun t => if t = type then 0 else t }

end DhcpTLVManager

def appendTLV (tlv : DhcpTLVManager) (type size : UInt8) (value : List UInt8) :
    Except TlvFault (Bool × DhcpTLVManager) :=
  if !tlv.file && !tlv.sname && tlv.tlv.hasRoom (size.toNat + 5 + tlv.spare) then do
    let r ← tlv.tlv.append type size (some value) size.toNat
    return (true, { tlv with tlv := r.2 })
  else if !tlv.sname && tlv.tlvFile.hasRoom size.toNat then do
    let r ← tlv.tlvFile.append type size (some value) size.toNat
    return (true, { tlv with file := true, tlvFile := r.2 })
  else if tlv.tlvSname.hasRoom size.toNat then do
    let r ← tlv.tlvSname.append type size (some value) size.toNat
    return (true, { tlv with sname := true, tlvSname := r.2 })
  else .ok (false, tlv)

/-- The part of `appendTLV` for a 32-bit value behind the main field. -/
def appendTLV32Behind (tlv : DhcpTLVManager) (type : UInt8) (value : UInt32) :
    Except TlvFault (Bool × DhcpTLVManager) := do
  let file ← (if !tlv.sname then tlv.tlvFile.put32 4 type value else .ok none)
  let tlv := if !tlv.sname then { tlv with file := true } else tlv
  match file with
  | some m => return (true, { tlv with tlvFile := m }.zeroRequested type)
  | none =>
    let sname ← tlv.tlvSname.put32 4 type value
    let tlv := { tlv with sname := true }
    match sname with
    | some m => return (true, { tlv with tlvSname := m }.zeroRequested type)
    | none => return (false, tlv)

def appendTLV32 (tlv : DhcpTLVManager) (type : UInt8) (value : UInt32) :
    Except TlvFault (Bool × DhcpTLVManager) := do
  let main ← (if !tlv.file && !tlv.sname && tlv.tlv.hasRoom (9 + tlv.spare) then
      tlv.tlv.put32 9 type value
    else .ok none)
  match main with
  | some m => return (true, { tlv with tlv := m }.zeroRequested type)
  | none => appendTLV32Behind tlv type value

/-- A call of `appendTLV`. -/
inductive TlvCall where
  | bytes (type size : UInt8) (value : List UInt8) (hvalue : value.length = size.toNat)
  | u32 (type : UInt8) (value : UInt32)

namespace TlvCall

def content : TlvCall → OptionContent
  | bytes type _ value _ => (type, value)
  | u32 type value => (type, Utils.writeU32 value)

def run (tlv : DhcpTLVManager) : TlvCall → Except TlvFault (Bool × DhcpTLVManager)
  | bytes type size value _ => appendTLV tlv type size value
  | u32 type value => appendTLV32 tlv type value

end TlvCall

/-- A sequence of calls: the options for which `appendTLV` returned true, and the manager. -/
def runCalls (tlv : DhcpTLVManager) :
    List TlvCall → Except TlvFault (List OptionContent × DhcpTLVManager)
  | [] => .ok ([], tlv)
  | call :: calls => do
    let r ← call.run tlv
    let rest ← runCalls r.2 calls
    return (if r.1 then call.content :: rest.1 else rest.1, rest.2)

/-- `appendAuthOptions` for a client with a key: the replay counter, and the digest of the message
    as far as it is written. -/
def appendAuthOptions (counter : UInt64) (generateHMAC : List UInt8 → List UInt8)
    (tlv : TLV8BufferManager) : Except TlvFault TLV8BufferManager :=
  match tlv.getNextValBuf 27 with
  | none => .ok tlv
  | some authOpt => do
    let r ← tlv.append DHCP_OPTION_AUTHENTICATION 27 none 27
    let m ← r.2.store authOpt ([1, 1, 0] ++ Utils.writeU64 counter ++ List.replicate 16 0)
    m.store (authOpt + 11) ((generateHMAC m.getSpan).take 16)

/-- The end of `sendOffer`. -/
def finishOffer (counter : UInt64) (generateHMAC : List UInt8 → List UInt8) (tlv : DhcpTLVManager) :
    Except TlvFault TLV8BufferManager := do
  let overload : UInt8 := if tlv.sname then 3 else 2
  let main ← (if tlv.file then do
      let r ← tlv.tlv.append DHCP_OPTION_OVERLOAD 1 (some [overload]) 1
      return r.2
    else .ok tlv.tlv)
  let main ← (if tlv.auth then appendAuthOptions counter generateHMAC main else .ok main)
  let r ← main.append DHCP_OPTION_END 0 none 0
  return r.2

/-- What is sent: the trail as far as it was written, and the two fields. -/
structure OptionMessage where
  trail : List UInt8
  file : List UInt8
  serverName : List UInt8

/-- The calls on a new manager and the end of `sendOffer`: the options for which `appendTLV`
    returned true, and the message. -/
def offer (counter : UInt64) (generateHMAC : List UInt8 → List UInt8) (dhcp : OptionFields)
    (isAuth : Bool) (requests : Option (List UInt8)) (calls : List TlvCall) :
    Except TlvFault (List OptionContent × OptionMessage) := do
  let r ← runCalls (DhcpTLVManager.create dhcp isAuth requests) calls
  let main ← finishOffer counter generateHMAC r.2
  return (r.1, ⟨main.getSpan, r.2.tlvFile.buffer, r.2.tlvSname.buffer⟩)

/-- `overload` after the loop of `handlePacket` over the options. -/
def overloadOf (options : List OptionContent) : UInt8 :=
  options.foldl (fun overload o =>
    match o with
    | (type, [value]) => if type = DHCP_OPTION_OVERLOAD then value else overload
    | _ => overload) 0

/-- The options of a message in `handlePacket`, as its parsing leaves them; `none` where it returns
    for a trail that is not parsed or does not end in an END. -/
def receive (msg : OptionMessage) : Option (List OptionContent) :=
  let r := contents msg.trail (parseDhcpOptions msg.trail false)
  let overload := overloadOf r.2
  if r.1 = false then none
  else
    match r.2.getLast? with
    | none => none
    | some last =>
      if last.1 = DHCP_OPTION_END then
        let options :=
          if overload &&& 1 ≠ 0 then
            r.2.dropLast ++ (contents msg.file (parseDhcpOptions msg.file true)).2 ++ [last]
          else r.2
        some (if overload &&& 2 ≠ 0 then
          options ++ (contents msg.serverName (parseDhcpOptions msg.serverName false)).2
        else options)
      else none

/-! ## No write leaves its field -/

/-- The program stops at no write outside, and what it returns satisfies `P`. -/
def Safe {α : Type} (x : Except TlvFault α) (P : α → Prop) : Prop :=
  Inside TlvFault.outside x ∧ Yields x P

section
variable {α β : Type} {x : Except TlvFault α} {P : α → Prop} {Q : β → Prop}

theorem safe_ok {a : α} (h : P a) : Safe (.ok a) P := ⟨inside_ok a, yields_ok h⟩

theorem safe_null : Safe (.error .nullSource) P := ⟨by simp [Inside], yields_error⟩

theorem Safe.bind (hx : Safe x P) {f : α → Except TlvFault β} (hf : ∀ a, P a → Safe (f a) Q) :
    Safe (x >>= f) Q :=
  ⟨hx.1.bind fun a ha => (hf a (hx.2 a ha)).1, .bind fun a ha => (hf a (hx.2 a ha)).2⟩

theorem Safe.ite {c : Prop} [Decidable c] {y : Except TlvFault α} (hx : c → Safe x P)
    (hy : ¬ c → Safe y P) : Safe (if c then x else y) P :=
  ⟨.ite (fun h => (hx h).1) fun h => (hy h).1, .ite (fun h => (hx h).2) fun h => (hy h).2⟩

theorem Safe.mono {Q : α → Prop} (h : Safe x P) (hPQ : ∀ a, P a → Q a) : Safe x Q :=
  ⟨h.1, fun a ha => hPQ a (h.2 a ha)⟩

end

namespace TLV8BufferManager

/-- The buffer of the field, as long as it was, and the manager inside it. -/
structure Fits (size : ℕ) (m : TLV8BufferManager) : Prop where
  buffer : m.buffer.length = size
  len : m.len ≤ size
  offset : m.offset ≤ m.len

variable {size pos n : ℕ} {m : TLV8BufferManager} {bytes : List UInt8} {value : Option (List UInt8)}
  {type length : UInt8}

theorem Fits.store (h : m.Fits size) (hpos : pos + bytes.length ≤ m.len) :
    Safe (m.store pos bytes) fun m' => m'.Fits size ∧ m'.offset = m.offset ∧ m'.len = m.len := by
  have hroom : pos + bytes.length ≤ m.buffer.length := by
    rw [h.buffer]
    exact hpos.trans h.len
  rw [TLV8BufferManager.store, writeAt, if_pos hroom]
  refine safe_ok ⟨⟨?_, h.len, h.offset⟩, rfl, rfl⟩
  rw [← h.buffer]
  simp only [List.length_append, List.length_take, List.length_drop]
  omega

theorem store_ok (h : pos + bytes.length ≤ m.buffer.length) : m.store pos bytes =
    .ok { m with buffer := m.buffer.take pos ++ bytes ++ m.buffer.drop (pos + bytes.length) } := by
  rw [TLV8BufferManager.store, writeAt, if_pos h]
  rfl

theorem source_safe : Safe (source value n) fun bytes => bytes.length ≤ n := by
  refine .ite (fun _ => safe_ok (Nat.zero_le _)) fun _ => ?_
  cases value with
  | none => exact safe_null
  | some bytes => exact safe_ok (List.length_take_le n bytes)

theorem Fits.append (h : m.Fits size) :
    Safe (m.append type length value n) fun r => r.2.Fits size ∧ r.2.len = m.len := by
  refine .ite (fun _ => safe_ok ⟨h, rfl⟩) fun hroom => ?_
  have hfits : m.offset + 2 + n ≤ m.len := not_lt.mp hroom
  refine .bind (h.store (show m.offset + 2 ≤ m.len by omega)) ?_
  rintro m₁ ⟨h₁, hoffset, hlen⟩
  refine .bind source_safe fun bytes hbytes => ?_
  refine .bind (h₁.store (by omega)) ?_
  rintro m₂ ⟨h₂, hoffset₂, hlen₂⟩
  have hoff : m₂.offset + 2 + n ≤ m₂.len := by omega
  exact safe_ok ⟨⟨h₂.buffer, h₂.len, hoff⟩, hlen₂.trans hlen⟩

theorem Fits.append_null (h : m.Fits size) (hn : 0 < n) (hroom : m.offset + 2 + n ≤ m.len) :
    m.append type length none n = .error .nullSource := by
  have hbuf : m.offset + [type, length].length ≤ m.buffer.length := by
    rw [h.buffer]
    exact (show m.offset + 2 ≤ m.len by omega).trans h.len
  rw [TLV8BufferManager.append, if_neg (not_lt.mpr hroom), store_ok hbuf, ok_bind, source,
    if_neg (Nat.ne_of_gt hn)]
  rfl

theorem append_first (type length : UInt8) (hoffset : m.offset = 0) (hlen : m.len = m.buffer.length) :
    ∃ r, m.append type length none 0 = .ok r ∧
      r.2.getSpan = if 2 ≤ m.len then [type, length] else [] := by
  by_cases hroom : 2 ≤ m.len
  · have hbuf : m.offset + [type, length].length ≤ m.buffer.length := by
      rw [hoffset, ← hlen]
      exact hroom
    have hbuf' : m.offset + 2 + ([] : List UInt8).length ≤
        (m.buffer.take m.offset ++ [type, length] ++ m.buffer.drop (m.offset + 2)).length := by
      simp only [List.length_append, List.length_take, List.length_drop, List.length_cons,
        List.length_nil]
      omega
    rw [append, if_neg (by omega), store_ok hbuf, ok_bind, source, if_pos rfl, ok_bind,
      store_ok hbuf', ok_bind, if_pos hroom]
    refine ⟨_, rfl, ?_⟩
    simp [getSpan, hoffset]
  · rw [append, if_pos (by omega), if_neg hroom]
    refine ⟨_, rfl, ?_⟩
    simp [getSpan, hoffset]

theorem getNextValBuf_eq {size : UInt8} (h : m.getNextValBuf size = some pos) :
    pos = m.offset + 2 ∧ pos + size.toNat ≤ m.len := by
  rw [getNextValBuf] at h
  split_ifs at h with hroom
  cases h
  omega

theorem Fits.put32 {room : UInt8} (hroom : 4 ≤ room.toNat) {v : UInt32} (h : m.Fits size) :
    Safe (m.put32 room type v) fun r => ∀ m' ∈ r, m'.Fits size := by
  rw [TLV8BufferManager.put32]
  cases hbuf : m.getNextValBuf room with
  | none => exact safe_ok (by simp)
  | some pos =>
    obtain ⟨-, hpos⟩ := getNextValBuf_eq hbuf
    have hlen : (Utils.writeU32 v).length = 4 := rfl
    refine .bind (h.store (by omega)) ?_
    rintro m₁ ⟨h₁, -, -⟩
    refine .bind h₁.append fun r hr => safe_ok ?_
    simpa using hr.1

end TLV8BufferManager

/-- The three fields, of the sizes that they have. -/
structure DhcpTLVManager.Fits (size : ℕ) (tlv : DhcpTLVManager) : Prop where
  main : tlv.tlv.Fits size
  file : tlv.tlvFile.Fits 128
  sname : tlv.tlvSname.Fits 64

section
variable {size : ℕ} {tlv : DhcpTLVManager}

theorem create_fits (dhcp : OptionFields) (isAuth : Bool) (requests : Option (List UInt8)) :
    (DhcpTLVManager.create dhcp isAuth requests).Fits dhcp.trail.length :=
  ⟨⟨rfl, le_rfl, Nat.zero_le _⟩, ⟨dhcp.file_length, le_rfl, Nat.zero_le _⟩,
    ⟨dhcp.serverName_length, le_rfl, Nat.zero_le _⟩⟩

theorem appendTLV_safe (h : tlv.Fits size) (type n : UInt8) (value : List UInt8) :
    Safe (appendTLV tlv type n value) fun r => r.2.Fits size := by
  refine .ite (fun _ => ?_) fun _ => .ite (fun _ => ?_) fun _ => .ite (fun _ => ?_) fun _ => safe_ok h
  · exact .bind h.main.append fun r ⟨hr, _⟩ => safe_ok ⟨hr, h.file, h.sname⟩
  · exact .bind h.file.append fun r ⟨hr, _⟩ => safe_ok ⟨h.main, hr, h.sname⟩
  · exact .bind h.sname.append fun r ⟨hr, _⟩ => safe_ok ⟨h.main, h.file, hr⟩

theorem appendTLV32Behind_safe (h : tlv.Fits size) (type : UInt8) (value : UInt32) :
    Safe (appendTLV32Behind tlv type value) fun r => r.2.Fits size := by
  have hfile : Safe (if !tlv.sname then tlv.tlvFile.put32 4 type value else .ok none)
      fun r => ∀ m ∈ r, m.Fits 128 :=
    .ite (fun _ => h.file.put32 (by decide)) fun _ => safe_ok (by simp)
  refine hfile.bind fun file hfile => ?_
  have hflag : (if !tlv.sname then { tlv with file := true } else tlv).Fits size := by
    split_ifs
    · exact ⟨h.main, h.file, h.sname⟩
    · exact h
  cases file with
  | some m => exact safe_ok ⟨hflag.main, hfile m rfl, hflag.sname⟩
  | none =>
    refine Safe.bind (hflag.sname.put32 (by decide)) fun sname hsname => ?_
    cases sname with
    | some m => exact safe_ok ⟨hflag.main, hflag.file, hsname m rfl⟩
    | none => exact safe_ok ⟨hflag.main, hflag.file, hflag.sname⟩

theorem appendTLV32_safe (h : tlv.Fits size) (type : UInt8) (value : UInt32) :
    Safe (appendTLV32 tlv type value) fun r => r.2.Fits size := by
  have hmain : Safe (if !tlv.file && !tlv.sname && tlv.tlv.hasRoom (9 + tlv.spare) then
      tlv.tlv.put32 9 type value else .ok none) fun r => ∀ m ∈ r, m.Fits size :=
    .ite (fun _ => h.main.put32 (by decide)) fun _ => safe_ok (by simp)
  refine hmain.bind fun main hmain => ?_
  cases main with
  | some m => exact safe_ok ⟨hmain m rfl, h.file, h.sname⟩
  | none => exact appendTLV32Behind_safe h type value

theorem TlvCall.run_safe (h : tlv.Fits size) : ∀ call : TlvCall,
    Safe (call.run tlv) fun r => r.2.Fits size
  | .bytes type n value _ => appendTLV_safe h type n value
  | .u32 type value => appendTLV32_safe h type value

theorem runCalls_safe {calls : List TlvCall} (h : tlv.Fits size) :
    Safe (runCalls tlv calls) fun r => r.2.Fits size := by
  induction calls generalizing tlv with
  | nil => exact safe_ok h
  | cons call calls ih =>
    exact .bind (call.run_safe h) fun r hr => .bind (ih hr) fun rest hrest => safe_ok hrest

variable {counter : UInt64} {generateHMAC : List UInt8 → List UInt8}

theorem appendAuthOptions_safe {m : TLV8BufferManager} (h : m.Fits size) :
    Safe (appendAuthOptions counter generateHMAC m) fun m' => m'.Fits size := by
  rw [appendAuthOptions]
  cases hbuf : m.getNextValBuf 27 with
  | none => exact safe_ok h
  | some authOpt =>
    obtain ⟨-, hroom⟩ := TLV8BufferManager.getNextValBuf_eq hbuf
    have h27 : (27 : UInt8).toNat = 27 := rfl
    refine .bind h.append ?_
    rintro r ⟨hr, hlen⟩
    have hopt : ([1, 1, 0] ++ Utils.writeU64 counter ++ List.replicate 16 0).length = 27 := rfl
    refine .bind (hr.store (by omega)) ?_
    rintro m₁ ⟨h₁, -, hlen₁⟩
    have hdigest : ((generateHMAC m₁.getSpan).take 16).length ≤ 16 := List.length_take_le _ _
    exact (h₁.store (by omega)).mono fun _ hm => hm.1

theorem finishOffer_safe (h : tlv.Fits size) :
    Safe (finishOffer counter generateHMAC tlv) fun m => m.Fits size := by
  have hoverload : Safe (if tlv.file then do
      let r ← tlv.tlv.append DHCP_OPTION_OVERLOAD 1 (some [if tlv.sname then 3 else 2]) 1
      return r.2
    else .ok tlv.tlv) fun m => m.Fits size :=
    .ite (fun _ => .bind h.main.append fun r hr => safe_ok hr.1) fun _ => safe_ok h.main
  refine hoverload.bind fun main hmain => ?_
  have hauth : Safe (if tlv.auth then appendAuthOptions counter generateHMAC main else .ok main)
      fun m => m.Fits size :=
    .ite (fun _ => appendAuthOptions_safe hmain) fun _ => safe_ok hmain
  refine hauth.bind fun main hmain => ?_
  exact .bind hmain.append fun r hr => safe_ok hr.1

/-- **No write leaves the three fields**, for any sequence of calls. -/
theorem offer_inside (dhcp : OptionFields) (isAuth : Bool) (requests : Option (List UInt8))
    (calls : List TlvCall) :
    offer counter generateHMAC dhcp isAuth requests calls ≠ .error .outside := by
  have hrun : Safe (offer counter generateHMAC dhcp isAuth requests calls) fun _ => True :=
    .bind (runCalls_safe (create_fits dhcp isAuth requests)) fun r hr =>
      .bind (finishOffer_safe hr) fun m _ => safe_ok trivial
  exact hrun.1

end

/-! ## What is read back -/

/-- Every option goes into `serverName`: the flags are as they were set, and the main field has
    nothing from `appendTLV`. -/
structure SnameOnly (main : TLV8BufferManager) (isAuth : Bool) (tlv : DhcpTLVManager) : Prop where
  file : tlv.file = false
  sname : tlv.sname = true
  main : tlv.tlv = main
  auth : tlv.auth = isAuth

section
variable {main : TLV8BufferManager} {isAuth : Bool} {tlv : DhcpTLVManager} {type size : UInt8}
  {value : List UInt8} {calls : List TlvCall}

theorem appendTLV_sname (h : tlv.sname = true) :
    appendTLV tlv type size value =
      if tlv.tlvSname.hasRoom size.toNat then do
        let r ← tlv.tlvSname.append type size (some value) size.toNat
        return (true, { tlv with sname := true, tlvSname := r.2 })
      else .ok (false, tlv) := by
  simp only [appendTLV, h, Bool.not_true, Bool.and_false, Bool.false_and, Bool.false_eq_true,
    if_false]

theorem appendTLV32_sname (h : tlv.sname = true) {v : UInt32} :
    appendTLV32 tlv type v = do
      let sname ← tlv.tlvSname.put32 4 type v
      match sname with
      | some m => return (true, { tlv with sname := true, tlvSname := m }.zeroRequested type)
      | none => return (false, { tlv with sname := true }) := by
  simp only [appendTLV32, appendTLV32Behind, h, Bool.not_true, Bool.and_false, Bool.false_and,
    Bool.false_eq_true, if_false, ok_bind]

theorem SnameOnly.run (h : SnameOnly main isAuth tlv) (call : TlvCall) :
    Yields (call.run tlv) fun r => SnameOnly main isAuth r.2 := by
  cases call with
  | bytes type size value =>
    rw [TlvCall.run, appendTLV_sname h.sname]
    refine .ite (fun _ => .bind fun r _ => ?_) fun _ => yields_ok h
    exact yields_ok ⟨h.file, rfl, h.main, h.auth⟩
  | u32 type v =>
    rw [TlvCall.run, appendTLV32_sname h.sname]
    refine .bind fun sname _ => ?_
    cases sname <;> exact yields_ok ⟨h.file, rfl, h.main, h.auth⟩

theorem SnameOnly.runCalls (h : SnameOnly main isAuth tlv) :
    Yields (runCalls tlv calls) fun r => SnameOnly main isAuth r.2 := by
  induction calls generalizing tlv with
  | nil => exact yields_ok h
  | cons call calls ih =>
    exact .bind fun r hr => .bind fun rest hrest => yields_ok (ih (h.run call r hr) rest hrest)

/-- Only a value that does not fit into the empty `serverName` is refused there. -/
def TlvCall.TooLong : TlvCall → Prop
  | .bytes _ size _ _ => 62 < size.toNat
  | .u32 _ _ => False

/-- Nothing is in `serverName`. -/
structure Unused (tlv : DhcpTLVManager) : Prop where
  sname : tlv.sname = true
  offset : tlv.tlvSname.offset = 0
  len : tlv.tlvSname.len = 64

theorem hasRoom_unused (h : Unused tlv) {n : ℕ} : tlv.tlvSname.hasRoom n = true ↔ n ≤ 62 := by
  rw [TLV8BufferManager.hasRoom, h.offset, h.len, decide_eq_true_iff]
  omega

theorem put32_unused (h : Unused tlv) {v : UInt32} (hfits : tlv.tlvSname.Fits 64) :
    tlv.tlvSname.put32 4 type v = .error .nullSource := by
  have hlen := h.len
  have hoffset := h.offset
  have hbuf := hfits.buffer
  have h4 : (4 : UInt8).toNat = 4 := rfl
  have hvalue : (Utils.writeU32 v).length = 4 := rfl
  have hroom : tlv.tlvSname.getNextValBuf 4 = some (tlv.tlvSname.offset + 2) := if_neg (by omega)
  have hstored := hfits.store
    (show tlv.tlvSname.offset + 2 + (Utils.writeU32 v).length ≤ tlv.tlvSname.len by omega)
  rw [TLV8BufferManager.put32, hroom]
  dsimp only
  cases hm : tlv.tlvSname.store (tlv.tlvSname.offset + 2) (Utils.writeU32 v) with
  | error e =>
    rw [TLV8BufferManager.store_ok (by omega)] at hm
    cases hm
  | ok m =>
    obtain ⟨hm, hoffset', hlen'⟩ := hstored.2 m hm
    rw [ok_bind, hm.append_null (by decide) (by omega)]
    rfl

theorem run_unused (h : Unused tlv) (hfits : tlv.tlvSname.Fits 64) {call : TlvCall}
    {r : Bool × DhcpTLVManager} (hrun : call.run tlv = .ok r) :
    r.1 = true ∨ (r = (false, tlv) ∧ call.TooLong) := by
  cases call with
  | bytes type size value =>
    rw [TlvCall.run, appendTLV_sname h.sname] at hrun
    split_ifs at hrun with hroom
    · obtain ⟨m, -, hrun⟩ := bind_eq_ok.mp hrun
      cases hrun
      exact .inl rfl
    · cases hrun
      rw [hasRoom_unused h] at hroom
      exact .inr ⟨rfl, not_le.mp hroom⟩
  | u32 type v =>
    rw [TlvCall.run, appendTLV32_sname h.sname, put32_unused h hfits] at hrun
    cases hrun

theorem run_tooLong (h : Unused tlv) {call : TlvCall} (hlong : call.TooLong) :
    call.run tlv = .ok (false, tlv) := by
  cases call with
  | bytes type size value =>
    have hroom : ¬ tlv.tlvSname.hasRoom size.toNat = true := by
      rw [hasRoom_unused h]
      exact not_le.mpr hlong
    rw [TlvCall.run, appendTLV_sname h.sname, if_neg hroom]
  | u32 => exact hlong.elim

theorem tooLong_of_none (h : Unused tlv) (hfits : tlv.tlvSname.Fits 64) {tlv' : DhcpTLVManager}
    (hrun : runCalls tlv calls = .ok ([], tlv')) : ∀ call ∈ calls, call.TooLong := by
  induction calls with
  | nil => simp
  | cons call calls ih =>
    obtain ⟨r, hr, hrun⟩ := bind_eq_ok.mp hrun
    obtain ⟨rest, hrest, hrun⟩ := bind_eq_ok.mp hrun
    have hnone := congrArg Prod.fst (Except.ok.inj hrun)
    rcases run_unused h hfits hr with htrue | ⟨rfl, hlong⟩
    · simp [htrue] at hnone
    · obtain ⟨appended, tlv''⟩ := rest
      obtain rfl : appended = [] := hnone
      cases hrun
      exact List.forall_mem_cons.mpr ⟨hlong, ih hrest⟩

theorem runCalls_tooLong (h : Unused tlv) (hlong : ∀ call ∈ calls, call.TooLong) :
    runCalls tlv calls = .ok ([], tlv) := by
  induction calls with
  | nil => rfl
  | cons call calls ih =>
    obtain ⟨hcall, hcalls⟩ := List.forall_mem_cons.mp hlong
    rw [runCalls, run_tooLong h hcall, ok_bind, ih hcalls, ok_bind]
    rfl

theorem finishOffer_sname (counter : UInt64) (generateHMAC : List UInt8 → List UInt8)
    {trail : List UInt8} (h : SnameOnly ⟨trail, 0, trail.length⟩ isAuth tlv) :
    (isAuth = true ∧ 29 ≤ trail.length → finishOffer counter generateHMAC tlv = .error .nullSource) ∧
    (¬ (isAuth = true ∧ 29 ≤ trail.length) → ∃ m, finishOffer counter generateHMAC tlv = .ok m ∧
      m.getSpan = if 2 ≤ trail.length then [DHCP_OPTION_END, 0] else []) := by
  have hfits : (⟨trail, 0, trail.length⟩ : TLV8BufferManager).Fits trail.length :=
    ⟨rfl, le_rfl, Nat.zero_le _⟩
  have h27 : (27 : UInt8).toNat = 27 := rfl
  have hfinish : finishOffer counter generateHMAC tlv = do
      let main ← (if isAuth then appendAuthOptions counter generateHMAC ⟨trail, 0, trail.length⟩
        else .ok ⟨trail, 0, trail.length⟩)
      let r ← main.append DHCP_OPTION_END 0 none 0
      return r.2 := by
    rw [finishOffer, h.file, h.main, h.auth]
    rfl
  obtain ⟨r, hr, hspan⟩ := TLV8BufferManager.append_first DHCP_OPTION_END 0
    (show (⟨trail, 0, trail.length⟩ : TLV8BufferManager).offset = 0 from rfl) rfl
  rw [hfinish]
  constructor
  · rintro ⟨rfl, hroom⟩
    have hbuf : (⟨trail, 0, trail.length⟩ : TLV8BufferManager).getNextValBuf 27 = some 2 :=
      if_neg (by simp only [h27]; omega)
    have hlen : 0 + 2 + 27 ≤ trail.length := hroom
    rw [if_pos rfl, appendAuthOptions, hbuf]
    dsimp only
    rw [hfits.append_null (by decide) hlen]
    rfl
  · intro hnone
    have hmain : (if isAuth then appendAuthOptions counter generateHMAC ⟨trail, 0, trail.length⟩
        else .ok ⟨trail, 0, trail.length⟩) = .ok ⟨trail, 0, trail.length⟩ := by
      split_ifs with hauth
      · have hshort : trail.length < 29 := not_le.mp fun h => hnone ⟨hauth, h⟩
        have hbuf : (⟨trail, 0, trail.length⟩ : TLV8BufferManager).getNextValBuf 27 = none :=
          if_pos (by simp only [h27]; omega)
        rw [appendAuthOptions, hbuf]
      · rfl
    rw [hmain, ok_bind, hr, ok_bind]
    exact ⟨r.2, rfl, hspan⟩

theorem receive_end (file serverName : List UInt8) :
    receive ⟨[DHCP_OPTION_END, 0], file, serverName⟩ = some [(DHCP_OPTION_END, [])] := by
  have hscan : scan false [DHCP_OPTION_END, 0] = (true, [(DHCP_OPTION_END, [])]) := by
    simp [scan]
  rw [receive, parseDhcpOptions_content, hscan]
  rfl

theorem receive_nil (file serverName : List UInt8) : receive ⟨[], file, serverName⟩ = none := by
  have hscan : scan false [] = (true, []) := by simp [scan]
  rw [receive, parseDhcpOptions_content, hscan]
  rfl

end

/-- The options that the end of `sendOffer` puts into the main field itself. -/
def ownOptions : List UInt8 := [DHCP_OPTION_OVERLOAD, DHCP_OPTION_AUTHENTICATION, DHCP_OPTION_END]

/-- The message is sent, and the reader finds in it, beside what the end of `sendOffer` adds, the
    options for which `appendTLV` returned true, in order and with their values. -/
def RoundTrip (counter : UInt64) (generateHMAC : List UInt8 → List UInt8) (dhcp : OptionFields)
    (isAuth : Bool) (requests : Option (List UInt8)) (calls : List TlvCall) : Prop :=
  ∃ appended msg received,
    offer counter generateHMAC dhcp isAuth requests calls = .ok (appended, msg) ∧
    receive msg = some received ∧ received.filter (fun o => o.1 ∉ ownOptions) = appended

section
variable {counter : UInt64} {generateHMAC : List UInt8 → List UInt8} {dhcp : OptionFields}
  {isAuth : Bool} {requests : Option (List UInt8)} {calls : List TlvCall}

theorem create_sname : SnameOnly ⟨dhcp.trail, 0, dhcp.trail.length⟩ isAuth
    (DhcpTLVManager.create dhcp isAuth requests) := ⟨rfl, rfl, rfl, rfl⟩

theorem create_unused : Unused (DhcpTLVManager.create dhcp isAuth requests) := ⟨rfl, rfl, rfl⟩

theorem RoundTrip.tooLong (h : RoundTrip counter generateHMAC dhcp isAuth requests calls) :
    (∀ call ∈ calls, call.TooLong) ∧ 2 ≤ dhcp.trail.length ∧
      (isAuth = true → dhcp.trail.length < 29) := by
  obtain ⟨appended, msg, received, hoffer, hreceive, hfilter⟩ := h
  obtain ⟨r, hr, hoffer⟩ := bind_eq_ok.mp hoffer
  obtain ⟨main, hmain, hoffer⟩ := bind_eq_ok.mp hoffer
  cases hoffer
  obtain ⟨hnull, hsent⟩ := finishOffer_sname counter generateHMAC (create_sname.runCalls r hr)
  have hauth : ¬ (isAuth = true ∧ 29 ≤ dhcp.trail.length) := by
    intro h
    rw [hnull h] at hmain
    cases hmain
  obtain ⟨m, hm, hspan⟩ := hsent hauth
  obtain rfl : m = main := Except.ok.inj (hm.symm.trans hmain)
  by_cases hroom : 2 ≤ dhcp.trail.length
  · -- only the END is received
    rw [hspan, if_pos hroom, receive_end] at hreceive
    cases hreceive
    obtain ⟨appended, tlv⟩ := r
    obtain rfl : appended = [] := hfilter.symm
    have hlong := tooLong_of_none create_unused (create_fits dhcp isAuth requests).sname hr
    exact ⟨hlong, hroom, fun h => not_le.mp fun hlen => hauth ⟨h, hlen⟩⟩
  · rw [hspan, if_neg hroom, receive_nil] at hreceive
    cases hreceive

theorem roundTrip_of_tooLong (hlong : ∀ call ∈ calls, call.TooLong) (hroom : 2 ≤ dhcp.trail.length)
    (hauth : isAuth = true → dhcp.trail.length < 29) :
    RoundTrip counter generateHMAC dhcp isAuth requests calls := by
  have hnull : ¬ (isAuth = true ∧ 29 ≤ dhcp.trail.length) :=
    fun h => absurd (hauth h.1) (not_lt.mpr h.2)
  have hsname : SnameOnly ⟨dhcp.trail, 0, dhcp.trail.length⟩ isAuth
    (DhcpTLVManager.create dhcp isAuth requests) := create_sname
  obtain ⟨m, hm, hspan⟩ := (finishOffer_sname counter generateHMAC hsname).2 hnull
  refine ⟨[], ⟨m.getSpan, dhcp.file, dhcp.serverName⟩, [(DHCP_OPTION_END, [])], ?_, ?_, by decide⟩
  · rw [offer, runCalls_tooLong create_unused hlong, ok_bind]
    dsimp only
    rw [hm, ok_bind]
    rfl
  · rw [hspan, if_pos hroom]
    exact receive_end _ _

end

/-- **The options survive only where there are none**: no call appends one, the END has room in the
    message, and no authentication option has. -/
theorem optionsRoundTrip_iff (counter : UInt64) (generateHMAC : List UInt8 → List UInt8)
    (dhcp : OptionFields) (isAuth : Bool) (requests : Option (List UInt8)) (calls : List TlvCall) :
    offer counter generateHMAC dhcp isAuth requests calls ≠ .error .outside ∧
      (RoundTrip counter generateHMAC dhcp isAuth requests calls ↔
        (∀ call ∈ calls, call.TooLong) ∧ 2 ≤ dhcp.trail.length ∧
          (isAuth = true → dhcp.trail.length < 29)) :=
  ⟨offer_inside dhcp isAuth requests calls, RoundTrip.tooLong, fun ⟨hlong, hroom, hauth⟩ =>
    roundTrip_of_tooLong hlong hroom hauth⟩

/-- A subnet mask in `serverName` is not found again. -/
theorem loses_option : ¬ ∀ counter generateHMAC dhcp isAuth requests calls,
    RoundTrip counter generateHMAC dhcp isAuth requests calls := by
  intro h
  have hloses := h 0 (fun _ => [])
    ⟨List.replicate 300 0, List.replicate 128 0, List.replicate 64 0, rfl, rfl⟩ false none
    [.bytes 0x01 4 [255, 255, 255, 0] rfl]
  exact absurd (hloses.tooLong.1 _ List.mem_cons_self) (show ¬ 62 < (4 : UInt8).toNat by decide)

end VirtualRouter.Dhcp
