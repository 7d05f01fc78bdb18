/-
  OPEN messages between two sessions: what `buildOpen` sends of one and what
  `processOpen` makes of it in the other.

  * `appended_buildOpen`: the bytes of the message;
  * `not_openContract`: no pair of sessions exchanges OPEN messages as it should.
-/
import VirtualRouter.Bgp.BgpOpen
import VirtualRouter.Bgp.CapabilityRoundTrip

namespace VirtualRouter.Bgp

open Bytes Utils Run

/-- The OPEN message of `sender`, without the header. -/
def openPayload (sender : Session) : List UInt8 := (appended (buildOpen sender)).drop headerSize

/-! ## The bytes of an OPEN message -/

def openFixed (as2 hold : UInt16) (rid : UInt32) (paramLen : UInt8) : List UInt8 :=
  BGP_VERSION :: writeU16 as2 ++ writeU16 hold ++ writeU32 rid ++ [paramLen]

theorem appended_open (as2 hold : UInt16) (rid : UInt32) (paramLen : UInt8) (header : List UInt8)
    (spans : List (List UInt8)) (hheader : header.length = headerSize) :
    appended ([.reserve (headerSize + openSize), .write 0 19 [BGP_VERSION], .write 0 20 (writeU16 as2),
      .write 0 22 (writeU16 hold), .write 0 24 (writeU32 rid), .write 0 28 [paramLen]] ++
      spanActs 1 spans ++ [.write 0 0 header]) =
      header ++ (openFixed as2 hold rid paramLen ++ spans.flatten) := by
  have hfirst : runFrom appendStep [] [.reserve (headerSize + openSize), .write 0 19 [BGP_VERSION],
      .write 0 20 (writeU16 as2), .write 0 22 (writeU16 hold), .write 0 24 (writeU32 rid),
      .write 0 28 [paramLen]] = [List.replicate headerSize 0 ++ openFixed as2 hold rid paramLen] := rfl
  have hspans := runFrom_spanActs spans [List.replicate headerSize 0 ++ openFixed as2 hold rid paramLen]
  rw [appended, runFrom_concat, runFrom_append, hfirst]
  rw [List.length_singleton] at hspans
  rw [hspans]
  have hlast : TxBlock.overwrite (List.replicate headerSize 0 ++ openFixed as2 hold rid paramLen) 0 header =
      header ++ openFixed as2 hold rid paramLen := by
    rw [TxBlock.overwrite, List.take_zero, List.nil_append, Nat.zero_add, hheader]
    rfl
  have hstep : appendStep ([List.replicate headerSize 0 ++ openFixed as2 hold rid paramLen] ++ spans)
      (.write 0 0 header) = (header ++ openFixed as2 hold rid paramLen) :: spans := by
    rw [List.singleton_append, appendStep, List.modify_zero_cons, hlast, List.take_of_length_le]
    rw [List.length_append, List.length_append, hheader, List.length_replicate]
  rw [hstep, List.flatten_cons, List.append_assoc]

/-- The spans between the fixed part and the capabilities. -/
def extendedLen (capSize : UInt16) : List (List UInt8) :=
  if capSize ≥ 255 then [writeU16 capSize] else []

def openHeader (s : Session) : List UInt8 :=
  buildHeader .OPEN (10 + (if computeCapabilityLen s.localCaps ≥ 255 then 2 else 0) +
    computeCapabilityLen s.localCaps)

theorem appended_buildOpen (s : Session) :
    appended (buildOpen s) = openHeader s ++
      (openFixed (myAs2 s.localCaps.asn) s.holdTime s.routerId
        (if computeCapabilityLen s.localCaps ≥ 255 then 255
          else (computeCapabilityLen s.localCaps).toUInt8) ++
      (extendedLen (computeCapabilityLen s.localCaps) ++ appendCapabilities s.localCaps).flatten) := by
  rw [buildOpen, openHeader, extendedLen]
  generalize computeCapabilityLen s.localCaps = capSize
  split_ifs
  · exact appended_open _ _ _ _ _ (writeU16 capSize :: appendCapabilities s.localCaps) rfl
  · exact appended_open _ _ _ _ _ _ rfl

theorem openFixed_holds {as2 hold : UInt16} {rid : UInt32} {paramLen : UInt8} {p : BytePtr}
    (h : Holds p (openFixed as2 hold rid paramLen)) :
    p 0 = BGP_VERSION ∧ readU16 (p.add 1) = as2 ∧ readU16 (p.add 3) = hold ∧
      readU32 (p.add 5) = rid ∧ p 9 = paramLen := by
  obtain ⟨hfront, hlen⟩ := holds_append.mp h
  obtain ⟨hfront, hrid⟩ := holds_append.mp hfront
  obtain ⟨hfront, hhold⟩ := holds_append.mp hfront
  obtain ⟨hversion, has⟩ := holds_cons.mp hfront
  exact ⟨hversion, readU16_holds has, readU16_holds hhold, readU32_holds hrid, (holds_cons.mp hlen).1⟩

/-! ## The exchange -/

/-- A pair of sessions that should come up: configured for each other's AS number, valid
    router ids and hold times, no minimum hold time, and the receiver has a connection. -/
structure Paired (sender receiver : Session) : Prop where
  as_sender : receiver.remoteAs = some sender.localCaps.asn
  as_receiver : sender.remoteAs = some receiver.localCaps.asn
  routerIds : badIdentifier sender.routerId = false ∧ badIdentifier receiver.routerId = false
  holdTimes : badHoldTime sender.holdTime = false ∧ badHoldTime receiver.holdTime = false
  minimum : sender.minimumHoldtime = none ∧ receiver.minimumHoldtime = none
  connected : ∃ cid, receiver.verifyConnection cid = true

/-- `receiver` accepts the OPEN message of `sender` on connection `cid`. -/
structure Accepts (F : CapabilityFns) (sender receiver : Session) (cid : UInt64) : Prop where
  ok : (processOpen F receiver cid (openPayload sender)).ok = true
  posted : (processOpen F receiver cid (openPayload sender)).session.posted =
    receiver.posted ++ [.BGP_OPEN]
  routerId : (processOpen F receiver cid (openPayload sender)).session.peerRouterId = sender.routerId
  holdTime : (processOpen F receiver cid (openPayload sender)).session.holdTime = sender.holdTime

/-- `receiver` takes the OPEN message of `sender` on its own connections and on no other. -/
def OpenContract (F : CapabilityFns) (sender receiver : Session) : Prop :=
  ∀ cid, (receiver.verifyConnection cid = true → Accepts F sender receiver cid) ∧
    (receiver.verifyConnection cid = false →
      (processOpen F receiver cid (openPayload sender)).ok = false)

/-- **No pair of sessions exchanges OPEN messages as it should.** -/
theorem not_openContract (F : CapabilityFns) {sender receiver : Session}
    (h : Paired sender receiver) : ¬ OpenContract F sender receiver := by
  intro hcontract
  obtain ⟨cid, hcid⟩ := h.connected
  have hok := ((hcontract cid).1 hcid).ok
  rw [processOpen_own F hcid] at hok
  cases hok

def documentedFns : CapabilityFns where
  supportsFamily caps fam := fam ∈ caps.mpFamilies
  canSendOrf neg fam orfType := neg.orfEntries.any fun entry =>
    entry.family = fam && entry.orfType = orfType && entry.sendReceive &&& BGP_ORF_SEND ≠ 0

/-- A session with the capabilities of `buildLocalCapabilities`. -/
def sampleSession (asn remoteAs routerId : UInt32) (cid : UInt64) : Session where
  localCaps :=
    { asn32bit := true
      asn := asn
      routeRefresh := true
      enhancedRouteRefresh := true
      extendedMessage := true
      linkLocalNextHop := true }
  routerId := routerId
  remoteAs := some remoteAs
  passiveConn := some cid
  primaryConn := some cid

theorem paired_sample :
    Paired (sampleSession 65001 70000 0x0A000001 1) (sampleSession 70000 65001 0x0A000002 2) :=
  ⟨rfl, rfl, by decide, by decide, ⟨rfl, rfl⟩, 2, by decide⟩

theorem not_openContract_sample : ¬ OpenContract documentedFns
    (sampleSession 65001 70000 0x0A000001 1) (sampleSession 70000 65001 0x0A000002 2) :=
  not_openContract documentedFns paired_sample

/-- The OPEN of the peer is refused on the connection of the session, and accepted on another. -/
theorem openContract_inverted_sample :
    (processOpen documentedFns (sampleSession 70000 65001 0x0A000002 2) 2
        (openPayload (sampleSession 65001 70000 0x0A000001 1))).ok = false ∧
      (processOpen documentedFns (sampleSession 70000 65001 0x0A000002 2) 7
        (openPayload (sampleSession 65001 70000 0x0A000001 1))).ok = true ∧
      ¬ OpenContract documentedFns (sampleSession 65001 70000 0x0A000001 1)
        (sampleSession 70000 65001 0x0A000002 2) := by
  have hown : (processOpen documentedFns (sampleSession 70000 65001 0x0A000002 2) 2
      (openPayload (sampleSession 65001 70000 0x0A000001 1))).ok = false := by decide +kernel
  refine ⟨hown, by decide +kernel, ?_⟩
  intro hcontract
  have hok := ((hcontract 2).1 (by decide)).ok
  rw [hown] at hok
  cases hok

end VirtualRouter.Bgp
