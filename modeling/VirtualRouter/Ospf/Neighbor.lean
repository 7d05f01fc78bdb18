/-
  An OSPF neighbour and its state (`ospf/neighbor/Neighbor.cpp`).

  * `OspfInterface.setState`: the state machine, with fuel, as it calls itself; the
    packets it sends come with the neighbour;
  * `OspfInterface.sendInitDBD`, `OspfInterface.sendDBD`, `OspfInterface.processDBD`: the
    database descriptions;
  * `OspfInterface.setState_terminates_iff`: when it returns.

  A packet is what its receiver reads: the length of the header and the bytes behind
  it.  They are those that the frame had before, where nothing is written; a builder
  moves its offset before it writes, so that a database description is written behind
  the room that was made for it.  The request list is the retransmission list of the
  neighbour, where a write out of range changes nothing; the update list, the flooding
  and the requests that are sent are left out.
-/
import VirtualRouter.Ospf.LsaInstall
import VirtualRouter.Ospf.RetransmissionList
import VirtualRouter.Ospf.RxV2

namespace VirtualRouter.Ospf

open NestedMap Bytes Utils

/-! ## Neighbours -/

inductive Role where
  | SLAVE
  | MASTER
  | NONE
  deriving DecidableEq, Repr

structure Neighbor where
  routerID : UInt32
  unicast : Bool
  mtu : UInt16
  state : NeighborState
  currentSeq : UInt32
  role : Role := .NONE
  currentDbd : Option LsaKey := none
  dr : UInt32 := 0
  bdr : UInt32 := 0
  priority : UInt8 := 0
  lsrs : RetransmissionList LsaKey LsaKey := {}

namespace Neighbor

def isDr (nbr : Neighbor) : Bool := nbr.dr = nbr.routerID

def isBdr (nbr : Neighbor) : Bool := nbr.bdr = nbr.routerID

/-- `lsrs().getActive()`. -/
def active (nbr : Neighbor) : Bool := !nbr.lsrs.outbound.isEmpty

/-- `lsrs().add(key, key)`; a write outside the list is taken to leave it. -/
def addRequest (nbr : Neighbor) (key : LsaKey) : Neighbor :=
  { nbr with lsrs := (nbr.lsrs.add key key).getD nbr.lsrs }

end Neighbor

/-- The default `LsaKey`. -/
def noKey : LsaKey := ⟨⟨0, 0⟩, 0⟩

/-! ## Database descriptions -/

/-- A packet on its way: the length in its header, and the bytes behind the header. -/
structure OspfPacket where
  packetLen : UInt16
  payload : BytePtr
  /-- It was sent by `sendInitDBD`: nothing reads this. -/
  initial : Bool := false

/-- The interface, with the configuration that its neighbours' handlers read. -/
structure OspfInterface (Body : Type) extends RxEnv where
  ifaceMtu : UInt16
  flags : UInt32
  lls : Bool
  /-- `getMaxHeaderSize`, for what is behind the header. -/
  maxSize : ℕ
  /-- What a new frame holds. -/
  frame : BytePtr
  db : LsdbTable Body

def overwrite (p : BytePtr) (off : ℕ) (bs : List UInt8) : BytePtr := fun i =>
  if off ≤ i ∧ i < off + bs.length then bs.getD (i - off) 0 else p i

/-- `setBit`, of the bit `mask` of one byte. -/
def setBit (b mask : UInt8) (value : Bool) : UInt8 := if value then b ||| mask else b &&& ~~~mask

structure OspfBuilder where
  buf : BytePtr
  offset : ℕ
  maxSize : ℕ

namespace OspfBuilder

def hasRoom (b : OspfBuilder) (s : ℕ) : Bool := b.offset + s ≤ b.maxSize

/-- A flag of the DBD header at `pos`: `setFlagI`, `setFlagM`, `setFlagMS`. -/
def setFlag (b : OspfBuilder) (pos : ℕ) (mask : UInt8) (value : Bool) : OspfBuilder :=
  { b with buf := overwrite b.buf (pos + 3) [setBit (b.buf (pos + 3)) mask value] }

def buildCopyLSAHeader (b : OspfBuilder) (key : LsaKey) (hdr : LsaHeader) : Option OspfBuilder :=
  if b.hasRoom 20 then
    let offset := b.offset + 20
    some { b with
      offset
      buf := overwrite b.buf offset (writeU16 hdr.age ++ [hdr.options, key.lsaType.toUInt8] ++
        writeU32 key.linkStateId ++ writeU32 key.advertisingRouter ++ writeU32 hdr.sequence ++
        writeU16 hdr.checksum ++ writeU16 hdr.length) }
  else none

end OspfBuilder

namespace OspfInterface

variable {Body : Type} (iface : OspfInterface Body)

/-- `buildDBD`: the builder, and where the header was written.  The flag I is set from the
    options. -/
def buildDBD (b : OspfBuilder) (nbr : Neighbor) : Option (OspfBuilder × ℕ) :=
  if b.hasRoom 8 then
    let pos := b.offset + 8
    let options := iface.flags.toUInt8
    let options := if iface.lls then options ||| 0x10 else options
    let b := { b with offset := pos }.setFlag pos 0x04 (options ≠ 0)
    let b := { b with buf := overwrite b.buf pos (writeU16 iface.ifaceMtu) }
    some ({ b with buf := overwrite b.buf (pos + 4) (writeU32 nbr.currentSeq) }, pos)
  else none

/-- The loop of `buildDescriptions`; `prev` is the key before the ones that are left, if any. -/
def describe (b : OspfBuilder) (prev : Option LsaKey) :
    List (LsaKey × LsaRecord Body) → OspfBuilder × Option LsaKey
  | [] => (b, none)
  | (key, rec) :: rest =>
    match b.buildCopyLSAHeader key rec.header with
    | some b => describe b (some key) rest
    | none => match prev with
      | some prev => (b, some prev)
      | none => describe b (some key) rest

def buildDescriptions (b : OspfBuilder) (nbr : Neighbor) : OspfBuilder × Neighbor :=
  match nbr.currentDbd with
  | none => (b, nbr)
  | some current =>
    let lsdb := iface.db.iterable
    let done := lsdb.takeWhile fun e => !current.less e.1
    let (b, currentDbd) := describe b (done.getLast?.map Prod.fst) (lsdb.drop done.length)
    (b, { nbr with currentDbd })

/-- `finalizeHeader`, as far as the length. -/
def finalizeHeader (b : OspfBuilder) (initial : Bool) : OspfPacket where
  packetLen := UInt16.ofNat (b.offset + 24)
  payload := b.buf
  initial := initial

def newBuilder : OspfBuilder where
  buf := iface.frame
  offset := 0
  maxSize := iface.maxSize

def sendInitDBD (nbr : Neighbor) : List OspfPacket :=
  match iface.buildDBD iface.newBuilder nbr with
  | none => []
  | some (b, pos) =>
    let b := ((b.setFlag pos 0x04 true).setFlag pos 0x02 true).setFlag pos 0x01 true
    [finalizeHeader { b with offset := 8 } true]

def sendDBD (nbr : Neighbor) : Neighbor × List OspfPacket :=
  let nbr := if nbr.role = .MASTER then { nbr with currentSeq := nbr.currentSeq + 1 } else nbr
  match iface.buildDBD iface.newBuilder nbr with
  | none => (nbr, [])
  | some (b, pos) =>
    let (b, nbr) := iface.buildDescriptions b nbr
    let b := if nbr.currentDbd.isSome then b.setFlag pos 0x02 true else b
    (nbr, [finalizeHeader b false])

@[simp] theorem buildDescriptions_state (b : OspfBuilder) (nbr : Neighbor) :
    (iface.buildDescriptions b nbr).2.state = nbr.state := by
  rw [buildDescriptions]
  cases nbr.currentDbd <;> rfl

@[simp] theorem buildDescriptions_lsrs (b : OspfBuilder) (nbr : Neighbor) :
    (iface.buildDescriptions b nbr).2.lsrs = nbr.lsrs := by
  rw [buildDescriptions]
  cases nbr.currentDbd <;> rfl

@[simp] theorem sendDBD_state (nbr : Neighbor) : (iface.sendDBD nbr).1.state = nbr.state := by
  rw [sendDBD]
  split_ifs <;> split <;> simp

@[simp] theorem buildDescriptions_role (b : OspfBuilder) (nbr : Neighbor) :
    (iface.buildDescriptions b nbr).2.role = nbr.role := by
  rw [buildDescriptions]
  cases nbr.currentDbd <;> rfl

@[simp] theorem sendDBD_role (nbr : Neighbor) : (iface.sendDBD nbr).1.role = nbr.role := by
  rw [sendDBD]
  split_ifs <;> split <;> simp

@[simp] theorem sendDBD_lsrs (nbr : Neighbor) : (iface.sendDBD nbr).1.lsrs = nbr.lsrs := by
  rw [sendDBD]
  split_ifs <;> split <;> simp

/-! ## The state machine -/

def setState : (fuel : ℕ) → Neighbor → NeighborState → Option (Neighbor × List OspfPacket)
  | 0, _, _ => none
  | fuel + 1, nbr, s =>
    match s with
    | .DOWN => some ({ nbr with lsrs := nbr.lsrs.clear, state := s }, [])
    | .ATTEMPT | .INIT => some ({ nbr with state := s }, [])
    | .TWOWAY =>
      let nbr := { nbr with state := s }
      if iface.multiAccess ∧ !nbr.isDr ∧ !nbr.isBdr then some (nbr, [])
      else setState fuel nbr .EXSTART
    | .EXSTART =>
      if nbr.state ≠ .EXSTART then
        let nbr := { nbr with lsrs := nbr.lsrs.clear, state := s }
        some (nbr, iface.sendInitDBD nbr)
      else some (nbr, [])
    | .EXCHANGE =>
      if nbr.state = .EXSTART then
        let nbr := { nbr with state := s, currentDbd := some noKey }
        if nbr.role = .MASTER then some (iface.sendDBD nbr) else some (nbr, [])
      else some (nbr, [])
    | .LOADING =>
      if nbr.state = .EXCHANGE then
        if !nbr.active then setState fuel nbr .LOADING
        else some ({ nbr with state := s }, [])
      else some (nbr, [])
    | .FULL =>
      if nbr.state = .EXCHANGE ∨ nbr.state = .LOADING then some ({ nbr with state := s }, [])
      else some (nbr, [])

/-- The call that does not return: an exchange ends and nothing was requested. -/
def Loops (nbr : Neighbor) (s : NeighborState) : Prop :=
  nbr.state = .EXCHANGE ∧ s = .LOADING ∧ nbr.active = false

theorem setState_loops {nbr : Neighbor} {s : NeighborState} (h : Loops nbr s) (fuel : ℕ) :
    iface.setState fuel nbr s = none := by
  obtain ⟨hstate, rfl, hidle⟩ := h
  induction fuel with
  | zero => rfl
  | succ fuel ih =>
    rw [setState]
    simp only [hstate, hidle, if_true, Bool.not_false]
    exact ih

theorem setState_returns {nbr : Neighbor} {s : NeighborState} (h : ¬ Loops nbr s) (fuel : ℕ) :
    ∃ r, iface.setState (fuel + 2) nbr s = some r := by
  cases s with
  | DOWN => exact ⟨_, rfl⟩
  | ATTEMPT => exact ⟨_, rfl⟩
  | INIT => exact ⟨_, rfl⟩
  | TWOWAY =>
    rw [setState]
    split_ifs
    · exact ⟨_, rfl⟩
    · exact ⟨_, rfl⟩
  | EXSTART =>
    rw [setState]
    split_ifs <;> exact ⟨_, rfl⟩
  | EXCHANGE =>
    rw [setState]
    dsimp only
    split_ifs <;> exact ⟨_, rfl⟩
  | LOADING =>
    rw [setState]
    split_ifs with hstate hactive
    · refine absurd ⟨hstate, rfl, ?_⟩ h
      simpa using hactive
    · exact ⟨_, rfl⟩
    · exact ⟨_, rfl⟩
  | FULL =>
    rw [setState]
    split_ifs <;> exact ⟨_, rfl⟩

/-- **When the state machine returns**: unless an exchange ends and nothing was requested. -/
theorem setState_terminates_iff (nbr : Neighbor) (s : NeighborState) :
    (∃ fuel r, iface.setState fuel nbr s = some r) ↔ ¬ Loops nbr s := by
  constructor
  · rintro ⟨fuel, r, hr⟩ hloops
    rw [iface.setState_loops hloops fuel] at hr
    cases hr
  · intro h
    exact ⟨2, iface.setState_returns h 0⟩

theorem setState_spec {fuel : ℕ} {nbr nbr' : Neighbor} {s : NeighborState} {sent : List OspfPacket}
    (h : iface.setState fuel nbr s = some (nbr', sent)) :
    (nbr'.lsrs = nbr.lsrs ∨ nbr'.state.rank ≤ NeighborState.EXSTART.rank ∧ nbr'.lsrs = {}) ∧
    (nbr'.state = nbr.state ∨ nbr'.state = s ∨ s = .TWOWAY ∧ nbr'.state = .EXSTART) ∧
    nbr'.role = nbr.role := by
  induction fuel generalizing nbr s with
  | zero => cases h
  | succ fuel ih =>
    cases s with
    | DOWN =>
      cases h
      exact ⟨Or.inr ⟨Nat.zero_le _, rfl⟩, Or.inr (Or.inl rfl), rfl⟩
    | ATTEMPT =>
      cases h
      exact ⟨Or.inl rfl, Or.inr (Or.inl rfl), rfl⟩
    | INIT =>
      cases h
      exact ⟨Or.inl rfl, Or.inr (Or.inl rfl), rfl⟩
    | TWOWAY =>
      rw [setState] at h
      split_ifs at h
      · cases h
        exact ⟨Or.inl rfl, Or.inr (Or.inl rfl), rfl⟩
      · obtain ⟨hlsrs, hstate, hrole⟩ := ih h
        refine ⟨hlsrs, ?_, hrole⟩
        rcases hstate with hstate | hstate | ⟨hne, -⟩
        · exact Or.inr (Or.inl hstate)
        · exact Or.inr (Or.inr ⟨rfl, hstate⟩)
        · cases hne
    | EXSTART =>
      rw [setState] at h
      split_ifs at h
      · cases h
        exact ⟨Or.inr ⟨le_rfl, rfl⟩, Or.inr (Or.inl rfl), rfl⟩
      · cases h
        exact ⟨Or.inl rfl, Or.inl rfl, rfl⟩
    | EXCHANGE =>
      rw [setState] at h
      dsimp only at h
      split_ifs at h
      · have hnbr := (congrArg Prod.fst (Option.some.inj h)).symm
        dsimp only at hnbr
        rw [hnbr, sendDBD_lsrs, sendDBD_state, sendDBD_role]
        exact ⟨Or.inl rfl, Or.inr (Or.inl rfl), rfl⟩
      · cases h
        exact ⟨Or.inl rfl, Or.inr (Or.inl rfl), rfl⟩
      · cases h
        exact ⟨Or.inl rfl, Or.inl rfl, rfl⟩
    | LOADING =>
      rw [setState] at h
      split_ifs at h
      · exact ih h
      · cases h
        exact ⟨Or.inl rfl, Or.inr (Or.inl rfl), rfl⟩
      · cases h
        exact ⟨Or.inl rfl, Or.inl rfl, rfl⟩
    | FULL =>
      rw [setState] at h
      split_ifs at h
      · cases h
        exact ⟨Or.inl rfl, Or.inr (Or.inl rfl), rfl⟩
      · cases h
        exact ⟨Or.inl rfl, Or.inl rfl, rfl⟩

/-! ## Receiving a description -/

def compareLSASummary (hdr : LsaHeader) (key : LsaKey) : Bool :=
  match iface.db.find key with
  | none => true
  | some existing => compareLsaHeaders hdr existing.header = .NEWER

/-- The key and the header of an LSA header at `p`. -/
def readEntry (p : BytePtr) : LsaKey × LsaHeader :=
  (⟨⟨(p 3).toUInt16, readU32 (p.add 8)⟩, readU32 (p.add 4)⟩,
    { sequence := readU32 (p.add 12)
      checksum := readU16 (p.add 16)
      length := readU16 (p.add 18)
      age := readU16 p })

/-- The keys for which `lsrs().add` is called: the packet has a whole number of entries. -/
def requests (payloadSize : ℕ) (payload : BytePtr) : List LsaKey :=
  let entries := (List.range ((payloadSize - 8) / 20)).map fun i => readEntry (payload.add (8 + 20 * i))
  (entries.filter fun e => iface.compareLSASummary e.2 e.1).map Prod.fst

/-- What `processDBD` leaves: the neighbour, the packets it sends, the keys it requests, and whether
    it goes back to EXSTART and whether it ends the exchange. -/
structure DbdOutcome where
  nbr : Neighbor
  sent : List OspfPacket := []
  requested : List LsaKey := []
  restarted : Bool := false
  ended : Bool := false

/-- The outcome of a call of `setState`. -/
def outcome (sent : List OspfPacket) (restarted : Bool) (r : Neighbor × List OspfPacket) :
    DbdOutcome where
  nbr := r.1
  sent := sent ++ r.2
  restarted := restarted

/-- The flag I is set. -/
def processInit (fuel : ℕ) (nbr : Neighbor) (payloadSize : ℕ) (sequence : UInt32) :
    Option DbdOutcome :=
  if payloadSize ≠ 8 then some { nbr }
  else if iface.routerId < nbr.routerID then
    let ack := sequence = nbr.currentSeq
    let nbr := { nbr with role := .MASTER }
    if nbr.state ≠ .EXSTART then do
      let (nbr, sent) ← iface.setState fuel nbr .EXSTART
      if ack then (iface.setState fuel nbr .EXCHANGE).map (outcome sent true)
      else some { nbr, sent, restarted := true }
    else if ack then (iface.setState fuel nbr .EXCHANGE).map (outcome [] false)
    else some { nbr }
  else
    let nbr := { nbr with role := .SLAVE, currentSeq := sequence }
    (iface.setState fuel nbr .EXCHANGE).map (outcome (iface.sendInitDBD nbr) false)

/-- The flag I is not set, and the neighbour is in EXCHANGE: the sequence number is not looked at. -/
def processDescriptions (fuel : ℕ) (nbr : Neighbor) (payloadSize : ℕ) (payload : BytePtr) :
    Option DbdOutcome :=
  let requested := iface.requests payloadSize payload
  let nbr := requested.foldl Neighbor.addRequest nbr
  if nbr.currentDbd.isSome ∨ payload 3 &&& 0x02 ≠ 0 ∨ nbr.role = .SLAVE then
    let (nbr, sent) := iface.sendDBD nbr
    some { nbr, sent, requested }
  else (iface.setState fuel nbr .LOADING).map fun r =>
    { outcome [] false r with requested, ended := true }

/-- The checks of `processDBD` that leave the neighbour as it is. -/
def dbdFits (nbr : Neighbor) (payloadSize : ℕ) : Bool :=
  NeighborState.EXSTART.rank ≤ nbr.state.rank ∧ 8 ≤ payloadSize ∧ (payloadSize - 8) % 20 = 0

/-- `processDBD`, without the data block; `none` if it does not return. -/
def processDBD (fuel : ℕ) (nbr : Neighbor) (payloadSize : ℕ) (payload : BytePtr) :
    Option DbdOutcome :=
  if !dbdFits nbr payloadSize then some { nbr }
  else if !iface.processOptions (payload 2) ∨ iface.mtuIgnore ∧ nbr.mtu ≠ readU16 payload then
    (iface.setState fuel nbr .DOWN).map (outcome [] false)
  else if payload 3 &&& 0x04 ≠ 0 then
    iface.processInit fuel nbr payloadSize (readU32 (payload.add 4))
  else if nbr.state = .EXCHANGE then iface.processDescriptions fuel nbr payloadSize payload
  else some { nbr }

end OspfInterface

end VirtualRouter.Ospf
