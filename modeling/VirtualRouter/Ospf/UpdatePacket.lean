/-
  The link state update of OSPFv2, byte by byte (`TxV2.cpp`, `RxV2.cpp`).

  * `UpdateTx.buildLSAHeader`, `UpdateTx.buildLSABody`: an LSA at the offset of the builder;
  * `UpdateTx.addLSUpdates`, `UpdateTx.buildLSUpdate`: the packet;
  * `updateLsas`: the LSAs that `processLSUpdate` finds in it;
  * `UpdateTx.Arrives`: the packet is built, and what was taken is found;
  * `UpdateTx.not_arrives`: so it is for no list.

  `none` is an access out of range, or a loop that does not end.  Besides the count that is
  tested before it is set, the header of an LSA and its body are written to the same place,
  and two bytes of the four that are read as the count.
-/
import VirtualRouter.Ospf.ReliableFlooding

namespace VirtualRouter.Ospf

open Bytes Utils

/-! ## Transmission -/

/-- What `buildLSUpdate` reads: the frame, the configuration of the interface, the time, and the
    records in memory. -/
structure UpdateTx where
  /-- `getMaxHeaderSize`, for what is behind the header. -/
  maxSize : ℕ
  /-- What the new frame holds. -/
  frame : BytePtr
  floodReduction : Bool
  transmitDelay : UInt16
  /-- `getMaxRetransmission`. -/
  limit : UInt8
  now : ℕ
  records : ℕ → Option (LsaRecord (Option LsaBodyV2))

def LsaBodyV2.sentAs (type : UInt8) : LsaBodyV2 → Bool
  | .router _ => type = 1
  | .network _ => type = 2
  | .summaryNetwork _ => type = 3
  | .summaryRouter _ => type = 4
  | .external _ => type = 5 || type = 7
  | .opaqueLsa _ => false

namespace UpdateTx

variable (tx : UpdateTx)

def calculateAge (record : LsaRecord (Option LsaBodyV2)) : UInt16 :=
  let dna := record.header.age &&& 0x8000 ≠ 0
  let age := (record.header.age &&& 0x7FFF).toUInt32
  let age := if dna then age else age + (UInt16.ofNat (tx.now - record.lastRefreshTime)).toUInt32
  let age := age + tx.transmitDelay.toUInt32
  let age := if age > OSPF_MAX_AGE.toUInt32 then OSPF_MAX_AGE.toUInt32 else age
  let dnaOut := age ≠ 3600 ∧ tx.floodReduction
  if dnaOut then age.toUInt16 ||| 0x8000 else age.toUInt16

def headerBytes (key : LsaKey) (record : LsaRecord (Option LsaBodyV2)) : List UInt8 :=
  let calcs := bodyPolicyV2.runLsaCalculations record.header key record.body
  writeU16 (tx.calculateAge record) ++ [record.header.options, key.lsaType.toUInt8] ++
    writeU32 key.linkStateId ++ writeU32 key.advertisingRouter ++ writeU32 record.header.sequence ++
    writeU16 calcs.1 ++ writeU16 calcs.2

/-- `buildLSAHeader`: the offset is moved before the header is written. -/
def buildLSAHeader (b : OspfBuilder) (key : LsaKey) (record : LsaRecord (Option LsaBodyV2)) :
    Option OspfBuilder :=
  if b.hasRoom 20 then
    let offset := b.offset + 20
    some { b with offset, buf := overwrite b.buf offset (tx.headerBytes key record) }
  else none

/-- `buildLSABody`, into the room that the packet has. -/
def buildLSABody (b : OspfBuilder) (record : LsaRecord (Option LsaBodyV2)) (type : UInt8) :
    Except Stop OspfBuilder :=
  match record.body with
  | none => .error .refused
  | some body =>
    if body.sentAs type then do
      let room := (b.buf.add b.offset).take (b.maxSize - b.offset)
      let bytes ← body.buildBody room (record.header.length - 20)
      return { b with buf := overwrite b.buf b.offset bytes }
    else .error .refused

/-- One LSA: the builder behind it, `some none` if it is not added. -/
def addLSUpdate (b : OspfBuilder) (key : LsaKey) (record : LsaRecord (Option LsaBodyV2)) :
    Option (Option OspfBuilder) :=
  if !b.hasRoom record.header.length.toNat then some none
  else match tx.buildLSAHeader b key record with
    | none => some none
    | some b => match buildLSABody b record key.lsaType.toUInt8 with
      | .ok b => some (some { b with offset := b.offset + record.header.length.toNat - 20 })
      | .error .refused => some none
      | .error _ => none

/-- `addLSUpdates`: the LSAs it takes, and the builder and the list after them. -/
def addLSUpdates : (fuel : ℕ) → OspfBuilder → RetransmissionList LsaKey LsaRecordRef →
    Option (List LsaRecordRef × OspfBuilder × RetransmissionList LsaKey LsaRecordRef)
  | 0, _, _ => none
  | fuel + 1, b, list => do
    let (next, list) ← list.nextInBurst
    match next with
    | none => some ([], b, list)
    | some ref =>
      let record ← tx.records ref.record
      match ← tx.addLSUpdate b ref.key record with
      | none => some ([], b, list)
      | some b =>
        let list ← list.markBurst ref.key tx.limit
        let (refs, b, list) ← addLSUpdates fuel b list
        some (ref :: refs, b, list)

def newBuilder : OspfBuilder where
  buf := tx.frame
  offset := 2
  maxSize := tx.maxSize

def updatePacket (b : OspfBuilder) (updSent : ℕ) : OspfPacket :=
  OspfInterface.finalizeHeader { b with buf := overwrite b.buf 0 (writeU16 (UInt16.ofNat updSent)) } false

/-- `buildLSUpdate`: `sent` is tested before the number of LSAs is added to it. -/
def buildLSUpdate (fuel : ℕ) (list : RetransmissionList LsaKey LsaRecordRef) :
    Option (Option OspfPacket × RetransmissionList LsaKey LsaRecordRef) := do
  let sent := 0
  let (refs, b, list) ← tx.addLSUpdates fuel tx.newBuilder list
  if sent = 0 then some (none, list)
  else if refs.length = 0 then some (none, list)
  else some (some (updatePacket b refs.length), list)

end UpdateTx

/-! ## Reception -/

structure UpdateLsa where
  offset : ℕ
  key : LsaKey
  header : LsaHeader
  body : LsaBodyV2

section
variable (env : RxEnv) (payloadSize : ℕ) (payload : BytePtr)

/-- The loop of `processLSUpdate` over the LSAs that are left; the ones without a body are passed
    over. -/
def readUpdateLsas : (left offset : ℕ) → List UpdateLsa
  | 0, _ => []
  | left + 1, offset =>
    let (key, hdr) := OspfInterface.readEntry (payload.add offset)
    let hdr := { hdr with options := payload (offset + 2) }
    if payloadSize < offset + 20 ∨ hdr.length < 20 ∨ payloadSize < offset + hdr.length.toNat then []
    else
      let rest := readUpdateLsas left (offset + hdr.length.toNat)
      match env.buildLsaBody key.lsaType.toUInt8 (payload.take payloadSize) (offset + 20)
          (hdr.length - 20) key.linkStateId with
      | .ok body => ⟨offset, key, hdr, body⟩ :: rest
      | .error _ => rest

def updateLsas : List UpdateLsa :=
  if payloadSize < 4 then [] else readUpdateLsas env payloadSize payload (lsuRounds (readU32 payload)) 4

end

/-! ## What is expected -/

/-- The LSA is the one that `ref` refers to. -/
structure UpdateLsa.IsOf (records : ℕ → Option (LsaRecord (Option LsaBodyV2))) (lsa : UpdateLsa)
    (ref : LsaRecordRef) : Prop where
  key : lsa.key = ref.key
  record : ∃ record, records ref.record = some record ∧
    lsa.header.sequence = record.header.sequence ∧ lsa.header.options = record.header.options ∧
    record.body = some lsa.body

/-- The LSAs are one behind the other and in the packet. -/
def Apart (payloadSize : ℕ) (lsas : List UpdateLsa) : Prop :=
  lsas.Pairwise (fun a b => a.offset + a.header.length.toNat ≤ b.offset) ∧
    ∀ lsa ∈ lsas, 20 ≤ lsa.header.length.toNat ∧ lsa.offset + lsa.header.length.toNat ≤ payloadSize

def FirstFits (tx : UpdateTx) (list : RetransmissionList LsaKey LsaRecordRef) : Prop :=
  ∃ ref record, list.outbound.head? = some ref ∧ tx.records ref.record = some record ∧
    4 + record.header.length.toNat ≤ tx.maxSize

namespace UpdateTx

variable (tx : UpdateTx) (env : RxEnv)

/-- The packet is built, and its LSAs are the ones that were taken, as many as it says. -/
def Arrives (fuel : ℕ) (list : RetransmissionList LsaKey LsaRecordRef) : Prop :=
  ∃ refs b list' pkt, tx.addLSUpdates fuel tx.newBuilder list = some (refs, b, list') ∧
    tx.buildLSUpdate fuel list = some (some pkt, list') ∧
    List.Forall₂ (UpdateLsa.IsOf tx.records) (updateLsas env pkt.packetLen.toNat pkt.payload) refs ∧
    (readU32 pkt.payload).toNat = refs.length ∧
    Apart pkt.packetLen.toNat (updateLsas env pkt.packetLen.toNat pkt.payload)

/-- **An update is never built**, for any list, any records and any frame. -/
theorem not_arrives (fuel : ℕ) (list : RetransmissionList LsaKey LsaRecordRef) :
    ¬ tx.Arrives env fuel list := by
  rintro ⟨refs, b, list', pkt, hadd, hbuild, -⟩
  rw [buildLSUpdate, hadd] at hbuild
  simp at hbuild

/-- A packet of 1456 bytes, and the summary of 10.0.0.0/8 in the database. -/
def oneSummary : UpdateTx where
  maxSize := 1456
  frame _ := 0
  floodReduction := false
  transmitDelay := 1
  limit := 24
  now := 0
  records _ := some {
    installTime := 0
    lastRefreshTime := 0
    header := { sequence := 0x80000001, length := 28 }
    body := some (.summaryNetwork ⟨0xFF000000, 10⟩)
    incomingInterface := 0
    incomingNeighbor := 0
    flags := 0 }

def summaryList : RetransmissionList LsaKey LsaRecordRef where
  outbound := [⟨⟨⟨3, 9⟩, 0x0A000000⟩, 0⟩]
  burstRemaining := 1

/-- The one LSA of the list would fit. -/
theorem not_arrives_summary :
    ¬ ∀ (tx : UpdateTx) (env : RxEnv) (fuel : ℕ) (list : RetransmissionList LsaKey LsaRecordRef),
      FirstFits tx list → tx.Arrives env fuel list := by
  intro h
  obtain ⟨refs, b, list', pkt, hadd, hbuild, -⟩ := h oneSummary
    { passive := false, routerId := 1, areaId := 0, authType := .NULL_, authSecret := none,
      authKey := none, authKeyId := none, helloInterval := 10, deadInterval := 40, multiAccess := true,
      mask := 0, mtuIgnore := false, externalRouting := true, nssa := false,
      addressFamilySupport := false, opaqueEnabled := false, lookup := fun _ => none,
      hmac := fun _ _ => [] } 2 summaryList ⟨_, _, rfl, rfl, by decide⟩
  rw [buildLSUpdate, hadd] at hbuild
  simp at hbuild

theorem overwrite_of_lt (p : BytePtr) {off i : ℕ} (bs : List UInt8) (h : i < off) :
    overwrite p off bs i = p i := if_neg (by omega)

end UpdateTx

end VirtualRouter.Ospf
