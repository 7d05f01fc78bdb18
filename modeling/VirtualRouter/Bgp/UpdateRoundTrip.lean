/-
  UPDATE messages from `buildUpdate` to `processUpdate`, for IPv4 unicast.

  Three things go wrong between the two.  `decodeNlri` reads the address from the
  length byte on, so that only prefixes come back whose address repeats their
  length.  `buildUpdate` puts the withdrawn prefixes behind the attributes, where
  the parser looks for them in front of their length: a message that withdraws
  is read with its parts shifted.  And the attributes have the losses of
  `Bgp/AttributeRoundTrip.lean`.

  `findAddPath` is declared and not defined in the repository; it is a parameter,
  of which `FindsAddPath` says what its documentation does.

  * `updateInfo`: what `processUpdate` hands to the address family;
  * `nlriFrom_written`: the prefixes that are read from a list of entries;
  * `zeros_of_shifted`: what is read shifted by two bytes and comes back is zero;
  * `Returns`: the condition; `updateRoundTrip_iff`.
-/
import VirtualRouter.Bgp.AttributeRoundTrip
import VirtualRouter.Bgp.UpdateBuilder

namespace VirtualRouter.Bgp

open Bytes Utils

/-! ## The receiver -/

/-- What `processUpdate` hands to the address family of the message; `none` if the message is dropped
    without an error. -/
def updateInfo (cfg : RxConfig) (payload : List UInt8) : Rx (Option IncomingUpdate) := do
  let r ← readUpdate payload
  let deliver (offset : ℕ) (update : IncomingUpdate) : Rx (Option IncomingUpdate) :=
    if update.afi = ipv4uni then do
      let nlriData ← subspan .outside payload offset (payload.length - offset)
      return some { update with nlriData := nlriData }
    else return some update
  let update : IncomingUpdate := { withdrawnData := r.1 }
  if r.2.2 = [] then deliver r.2.1 update
  else
    match parsePathAttributes cfg r.2.2 update with
    | .ok update => deliver (r.2.1 + r.2.2.length) update
    | .error (.error error) => if error.code = 0 then .ok none else .error (.error error)
    | .error .outside => .error .outside

theorem processUpdate_eq (cfg : RxConfig) (afs : AfiSafi → Option (IncomingUpdate → Option Notification))
    (payload : List UInt8) :
    processUpdate cfg afs payload = updateInfo cfg payload >>= fun info =>
      match info with
      | none => .ok ()
      | some update => visitFamily afs update := by
  have hdeliver (offset : ℕ) (update : IncomingUpdate) : deliverUpdate afs payload offset update =
      (if update.afi = ipv4uni then do
        let nlriData ← subspan .outside payload offset (payload.length - offset)
        return some { update with nlriData := nlriData }
      else return some update : Rx (Option IncomingUpdate)) >>= fun info =>
        match info with
        | none => .ok ()
        | some update => visitFamily afs update := by
    rw [deliverUpdate, ipv4uni]
    split
    · cases subspan Stop.outside payload offset (payload.length - offset) <;> rfl
    · rfl
  unfold processUpdate updateInfo
  cases readUpdate payload with
  | error e => rfl
  | ok r =>
    simp only [ok_bind, hdeliver]
    split
    · rfl
    · cases parsePathAttributes cfg r.2.2 { withdrawnData := r.1 } with
      | ok update => rfl
      | error e =>
        cases e with
        | outside => rfl
        | error error =>
          simp only
          split <;> rfl

/-- A `findAddPath`. -/
abbrev FindAddPath := NegotiatedCapabilities → AfiSafi → Option AddPathFamily

/-- `findAddPath` finds the entry of a family if there is one. -/
def FindsAddPath (findAddPath : FindAddPath) : Prop :=
  ∀ neg family, (findAddPath neg family).isSome = neg.addPathFamilies.any fun ap => ap.family = family

/-- The configuration of the receiver, without filters for attributes. -/
def UpdateSession.rxConfig (ses : UpdateSession) : RxConfig := { asn32bit := ses.negotiated.asn32bit }

def receiveUpdate (findAddPath : FindAddPath) (ses : UpdateSession) (payload : List UInt8) :
    Rx (Option (ParsedUpdate IPv4Prefix)) := do
  match ← updateInfo ses.rxConfig payload with
  | none => return none
  | some info =>
    if info.afi = ipv4uni then do
      let update ← processUpdateNlri ipv4Nlri (findAddPath ses.negotiated ipv4uni).isSome info
      return some update
    else return none

/-! ## The property -/

/-- A message of the session: its marker, its length and its type. -/
structure FramedUpdate (ses : UpdateSession) (m : List UInt8) : Prop where
  marker : (ofList m).take 16 = BGP_MARKER
  length : (readU16 ((ofList m).add 16)).toNat = m.length
  type : ofList m 18 = MessageType.UPDATE.code
  limit : m.length ≤ ses.maxMsg

/-- The announced prefixes with their attributes. -/
def ParsedUpdate.carried (p : ParsedUpdate IPv4Prefix) : List (NlriPath IPv4Prefix × PathAttribute) :=
  p.attrs.elim [] fun pa => p.announcements.map fun n => (n, pa)

/-- A prefix has come with the attributes it was sent with. -/
def SamePath (ebgp : Bool) (got want : NlriPath IPv4Prefix × PathAttribute) : Prop :=
  got.1 = want.1 ∧ SameAttributes ebgp want.2 { attrs := got.2.attrs, path := got.2.path }

/-- The messages of an update are framed, and are received as what was to be sent. -/
def UpdateRoundTrip (findAddPath : FindAddPath) (ses : UpdateSession) (update : BuildUpdate IPv4Prefix) :
    Prop :=
  ∃ msgs ps, buildUpdate ses update = some msgs ∧ (∀ m ∈ msgs, FramedUpdate ses m) ∧
    List.Forall₂ (fun m p => receiveUpdate findAddPath ses (m.drop headerSize) = .ok (some p)) msgs ps ∧
    ps.flatMap ParsedUpdate.withdrawn = update.withdrawn ∧
    List.Forall₂ (SamePath ses.ebgp) (ps.flatMap ParsedUpdate.carried)
      (update.announcements.flatMap fun a => a.nlri.map fun n => (n, a.attrs))

/-- The bytes of the attributes are parsed as those of an IPv4 unicast update that withdraws nothing,
    and give the attributes back. -/
def AttrsReturn (ses : UpdateSession) (pa : PathAttribute) : Prop :=
  ∃ u, parsePathAttributes ses.rxConfig (ses.attrSpans pa).flatten {} = .ok u ∧ u.afi = ipv4uni ∧
    u.withdrawnData = [] ∧ SameAttributes ses.ebgp pa u

/-- The bytes of the address that are sent are all equal to the length, and the others are 0. -/
def IPv4Prefix.Repeats (n : IPv4Prefix) : Prop :=
  n.addr = readBytes (fun _ => n.prefixLength) (prefixBytes n.prefixLength)

instance (n : IPv4Prefix) : Decidable n.Repeats := inferInstanceAs (Decidable (_ = _))

/-- The attributes that come back: those that the parser takes, and with AS numbers of two bytes a path
    that it puts together again. -/
def AttrsKept (ses : UpdateSession) (pa : PathAttribute) : Prop :=
  pa.Decodable ses.negotiated.asn32bit ∧ (ses.negotiated.asn32bit = false → pa.PathKept)

/-- What comes back: announcements without withdrawals, or withdrawals of the default route. -/
structure Returns (ses : UpdateSession) (update : BuildUpdate IPv4Prefix) : Prop where
  announced : ∀ a ∈ update.announcements, ∀ n ∈ a.nlri,
    AttrsKept ses a.attrs ∧ n.nlri.Repeats ∧ (ses.addPath = false → n.pathId = 0)
  withdrawn : update.withdrawn = [] ∨
    update.announcements = [] ∧ ∀ n ∈ update.withdrawn, n = ⟨⟨0, 0⟩, 0⟩

/-! ## Attributes -/

/-- The segments have a length of one byte. -/
def ParseState.Short (s : ParseState) : Prop :=
  (∀ seg ∈ s.attrs.asPath, seg.asns.length ≤ 255) ∧ ∀ seg ∈ s.attrs.as4Path, seg.asns.length ≤ 255

section
variable {use4 : Bool} {a : RxAttr} {s : ParseState} {data : List UInt8} {x y : ℕ × ParseState}

/-- A segment that is read behind short ones has the length that a byte says. -/
theorem short_append {segs : List AsPathSegment} (h : ∀ seg ∈ segs, seg.asns.length ≤ 255)
    {segLen segType : UInt8} {asns : List UInt32} (hlen : asns.length = segLen.toNat) :
    ∀ seg ∈ segs ++ [⟨segType, asns⟩], seg.asns.length ≤ 255 := by
  intro seg hseg
  rcases List.mem_append.1 hseg with hseg | hseg
  · exact h seg hseg
  · obtain rfl := List.mem_singleton.1 hseg
    have hbyte := segLen.toNat_lt
    show asns.length ≤ 255
    omega

theorem yields_short (val : List UInt8) : ∀ (n ap : ℕ) (segs : List AsPathSegment),
    (∀ seg ∈ segs, seg.asns.length ≤ 255) →
    Yields (asPathFrom use4 val n ap segs) fun p => ∀ seg ∈ p, seg.asns.length ≤ 255
  | 0, ap, segs, hsegs => yields_ok hsegs
  | n + 1, ap, segs, hsegs => by
    refine .ite (fun _ => ?_) fun _ => yields_ok hsegs
    refine .bind fun segType _ => .bind fun segLen _ => .ite (fun _ => yields_error) fun _ => ?_
    exact .bind fun asns hread => yields_short val n _ _ (short_append hsegs (readMany_length hread))

theorem yields_short4 (val : List UInt8) : ∀ (n ap : ℕ) (segs : List AsPathSegment),
    (∀ seg ∈ segs, seg.asns.length ≤ 255) →
    Yields (as4PathFrom val n ap segs) fun p => ∀ seg ∈ p, seg.asns.length ≤ 255
  | 0, ap, segs, hsegs => yields_ok hsegs
  | n + 1, ap, segs, hsegs => by
    refine .ite (fun _ => ?_) fun _ => yields_ok hsegs
    refine .bind fun segType _ => .bind fun segLen _ => .ite (fun _ => yields_ok hsegs) fun _ => ?_
    exact .bind fun asns hread => yields_short4 val n _ _ (short_append hsegs (readMany_length hread))

theorem short_decodeAttr (hs : s.Short) : Yields (decodeAttr a s (unfiltered use4)) ParseState.Short := by
  have hfixed {α : Type} {len : ℕ} {rd : List UInt8 → ℕ → Rx α} {set : α → Attributes}
      (hset : ∀ v, (set v).asPath = s.attrs.asPath ∧ (set v).as4Path = s.attrs.as4Path) :
      Yields (decodeFixed a s len rd set) ParseState.Short :=
    .ite (fun _ => yields_error) fun _ => .bind fun v _ =>
      yields_ok ⟨(hset v).1.symm ▸ hs.1, (hset v).2.symm ▸ hs.2⟩
  have hlist {α : Type} {size : ℕ} {rd : List UInt8 → ℕ → Rx α} {set : List α → Attributes}
      (hset : ∀ vs, (set vs).asPath = s.attrs.asPath ∧ (set vs).as4Path = s.attrs.as4Path) :
      Yields (decodeList a s size rd set) ParseState.Short :=
    .ite (fun _ => yields_error) fun _ => .bind fun vs _ =>
      yields_ok ⟨(hset vs).1.symm ▸ hs.1, (hset vs).2.symm ▸ hs.2⟩
  unfold decodeAttr
  refine .ite (fun _ => yields_ok hs) fun _ => .ite (fun _ => yields_error) fun _ =>
    .ite (fun _ => ?_) fun _ => .ite (fun _ => ?_) fun _ => .ite (fun _ => ?_) fun _ =>
    .ite (fun _ => hfixed fun _ => ⟨rfl, rfl⟩) fun _ =>
    .ite (fun _ => .ite (fun _ => yields_error) fun _ => hfixed fun _ => ⟨rfl, rfl⟩) fun _ =>
    .ite (fun _ => hfixed fun _ => ⟨rfl, rfl⟩) fun _ => .ite (fun _ => hlist fun _ => ⟨rfl, rfl⟩) fun _ =>
    .ite (fun _ => hfixed fun _ => ⟨rfl, rfl⟩) fun _ => .ite (fun _ => hlist fun _ => ⟨rfl, rfl⟩) fun _ =>
    .ite (fun _ => ?_) fun _ => .ite (fun _ => ?_) fun _ => .ite (fun _ => ?_) fun _ =>
    .ite (fun _ => hfixed fun _ => ⟨rfl, rfl⟩) fun _ => .ite (fun _ => ?_) fun _ =>
    .ite (fun _ => hlist fun _ => ⟨rfl, rfl⟩) fun _ => ?_
  case refine_1 =>
    exact .ite (fun _ => yields_error) fun _ => .ite (fun _ => yields_error) fun _ => .bind fun _ _ =>
      .ite (fun _ => yields_error) fun _ => yields_ok hs
  case refine_2 =>
    exact .ite (fun _ => yields_error) fun _ => .bind fun p hp =>
      yields_ok ⟨yields_short a.val _ 0 _ hs.1 p hp, hs.2⟩
  case refine_3 =>
    exact .ite (fun _ => yields_error) fun _ => .ite (fun _ => yields_error) fun _ => .bind fun _ _ => yields_ok hs
  case refine_4 =>
    refine .ite (fun _ => yields_error) fun _ => .bind fun _ _ => .bind fun _ _ => .bind fun _ _ => ?_
    exact .ite (fun _ => yields_error) fun _ => .ite (fun _ => yields_error) fun _ =>
      .bind fun _ _ => .bind fun _ _ => yields_ok hs
  case refine_5 =>
    refine .ite (fun _ => yields_error) fun _ => .bind fun _ _ => .bind fun _ _ => ?_
    exact .ite (fun _ => yields_error) fun _ => .bind fun _ _ => yields_ok hs
  case refine_6 => exact .bind fun p hp => yields_ok ⟨hs.1, yields_short4 a.val _ 0 _ hs.2 p hp⟩
  case refine_7 =>
    refine .ite (fun _ => ?_) fun _ => yields_ok hs
    exact .bind fun _ _ => .bind fun _ _ => .ite (fun _ => .bind fun _ _ => yields_ok hs) fun _ => yields_ok hs
  case refine_8 =>
    exact .ite (fun _ => yields_error) fun _ => .ite (fun _ => yields_ok hs) fun _ => yields_ok hs

theorem short_run (h : Reaches (unfiltered use4) data x y) (hx : x.2.Short) : y.2.Short := by
  induction h with
  | refl => exact hx
  | tail _ hstep ih =>
    obtain ⟨a, -, hdecode⟩ := hstep
    exact short_decodeAttr ih _ hdecode

theorem ParseState.Short.merged (h : s.Short) (cfg : RxConfig) :
    ∀ seg ∈ (mergeAs4 cfg s.attrs).asPath, seg.asns.length ≤ 255 := by
  rw [mergeAs4]
  split_ifs
  · refine List.forall_mem_append.2 ⟨mem_keepHops h.1 (fun seg n hseg => ?_) _, h.2⟩
    rw [List.length_take]
    exact (min_le_right _ _).trans hseg
  · exact h.1

theorem valueLen_le {ebgp : Bool} {pa : PathAttribute} {attr : TxAttr} (h : attr ∈ pathAttrs use4 ebgp pa) :
    attr.valueLen ≤ (appendPathAttrs use4 ebgp pa).2 := by
  have hle := List.le_sum_of_mem (List.mem_map_of_mem (f := fun a : TxAttr => attrHdrSize a.valueLen) h)
  exact (Nat.le_add_right _ _).trans hle

theorem asLen_le {ebgp : Bool} {pa : PathAttribute} :
    asLen use4 pa.attrs.asPath ≤ (appendPathAttrs use4 ebgp pa).2 ∧
      (use4 = false → asLen true (as4Segments pa.attrs.as4Path) ≤ (appendPathAttrs use4 ebgp pa).2) := by
  have hmem : ∀ attr ∈ asPathAttr use4 pa.attrs.asPath ++ as4PathAttr use4 pa.attrs.as4Path,
      attr ∈ pathAttrs use4 ebgp pa := by
    intro attr h
    rw [pathAttrs_eq, headAttrs]
    simp only [List.mem_append] at h ⊢
    tauto
  have hnil (use4 : Bool) {segs : List AsPathSegment} (h : segs.isEmpty = true) : asLen use4 segs = 0 := by
    rw [List.isEmpty_iff.1 h]
    rfl
  constructor
  · by_cases hempty : pa.attrs.asPath.isEmpty = true
    · rw [hnil _ hempty]
      exact Nat.zero_le _
    · rw [asPathAttr, if_neg hempty] at hmem
      exact valueLen_le (hmem _ (List.mem_append_left _ (List.mem_singleton.2 rfl)))
  · rintro rfl
    by_cases hempty : (as4Segments pa.attrs.as4Path).isEmpty = true
    · rw [hnil _ hempty]
      exact Nat.zero_le _
    · rw [as4PathAttr, Bool.false_or, if_neg hempty] at hmem
      exact valueLen_le (hmem _ (List.mem_append_right _ (List.mem_singleton.2 rfl)))

end

/-- The attributes that fit a message and come back are those that are kept. -/
theorem attrsReturn_iff {ses : UpdateSession} {pa : PathAttribute} (hfits : ses.attrBytes pa ≤ 65535) :
    AttrsReturn ses pa ↔ AttrsKept ses pa := by
  obtain ⟨hasPath, has4⟩ : asLen ses.negotiated.asn32bit pa.attrs.asPath ≤ ses.attrBytes pa ∧
      (ses.negotiated.asn32bit = false → asLen true (as4Segments pa.attrs.as4Path) ≤ ses.attrBytes pa) :=
    asLen_le
  have hpath : pa.pathRead ses.negotiated.asn32bit = pa.attrs.asPath ↔
      (ses.negotiated.asn32bit = false → pa.PathKept) := by
    rw [← pathRead_false_iff]
    cases ses.negotiated.asn32bit with
    | false => simp
    | true => simp [pathRead_true]
  rw [AttrsKept, ← hpath]
  constructor
  · rintro ⟨u, hparse, -, -, hsame⟩
    obtain ⟨s, hend, rfl⟩ := parsePathAttributes_ok_iff.1 hparse
    have hshort : ∀ seg ∈ pa.attrs.asPath, seg.asns.length ≤ 255 := by
      obtain ⟨pos, hreach, -⟩ := hend
      rw [← hsame.asPath]
      exact (short_run hreach ⟨by simp [ParseState.attrs], by simp [ParseState.attrs]⟩).merged _
    have hkept := hsame
    rw [mergeAs4_eq] at hkept
    have hdecodable := decodable_of_ends hshort (hasPath.trans hfits) (fun h2 => (has4 h2).trans hfits) hend
      { hkept with asPath := rfl }
    refine ⟨hdecodable, (sameAttributes_updateRead_iff ses.ebgp hdecodable).1 ?_⟩
    rwa [← Except.ok.inj (hparse.symm.trans (parsePathAttributes_written ses.ebgp hdecodable))]
  · rintro ⟨h, hread⟩
    exact ⟨_, parsePathAttributes_written ses.ebgp h, rfl, rfl,
      (sameAttributes_updateRead_iff ses.ebgp h).2 hread⟩

/-! ## Prefixes -/

/-- The prefix that is read where `n` was written. -/
def reread (n : IPv4Prefix) : IPv4Prefix :=
  ⟨readBytes (ofList (encodeNlri n)) (prefixBytes n.prefixLength), n.prefixLength⟩

/-- A prefix with its path id, as it is read where `n` was written. -/
def rereadPath (addPath : Bool) (n : NlriPath IPv4Prefix) : NlriPath IPv4Prefix :=
  ⟨reread n.nlri, if addPath then n.pathId else 0⟩

theorem prefixBytes_le {len : UInt8} (h : len ≤ 32) : prefixBytes len ≤ 4 := by
  have hle : len.toNat ≤ 32 := UInt8.le_iff_toNat_le.1 h
  rw [prefixBytes]
  omega

theorem readBytes_eq (p : BytePtr) {k : ℕ} (hk : k ≤ 4) :
    readBytes p k = readU32 fun i => if i < k then p i else 0 := by
  have hcases : k = 0 ∨ k = 1 ∨ k = 2 ∨ k = 3 ∨ k = 4 := by omega
  rcases hcases with rfl | rfl | rfl | rfl | rfl <;> simp [readBytes, readU32, List.range_succ]

theorem writeBytes_eq (addr : UInt32) {k : ℕ} (hk : k ≤ 4) :
    writeBytes addr.toBitVec k = (writeU32 addr).take k := by
  have hbyte (j : ℕ) (hj : j < 4) :
      UInt8.ofBitVec ((addr.toBitVec >>> (32 - 8 - 8 * j)).setWidth 8) = (writeU32 addr).getD j 0 := by
    have hcases : j = 0 ∨ j = 1 ∨ j = 2 ∨ j = 3 := by omega
    rcases hcases with rfl | rfl | rfl | rfl <;> rfl
  refine List.ext_getElem (by simp [writeBytes, hk]) fun j h₁ h₂ => ?_
  have hj : j < k := by simpa [writeBytes] using h₁
  simp only [writeBytes, List.getElem_map, List.getElem_range, List.getElem_take, hbyte j (by omega)]
  exact List.getD_eq_getElem _ _ _

theorem eq_readU32_iff {addr : UInt32} {p : BytePtr} :
    addr = readU32 p ↔ writeU32 addr = [p 0, p 1, p 2, p 3] := by
  constructor
  · rintro rfl
    exact writeU32_readU32 p
  · intro h
    have hholds : Holds p (writeU32 addr) := by
      rw [h]
      simp [holds_cons]
    exact (readU32_holds hholds).symm

theorem reread_eq_iff {n : IPv4Prefix} (h : n.prefixLength ≤ 32) : reread n = n ↔ n.Repeats := by
  obtain ⟨addr, len⟩ := n
  have hk := prefixBytes_le h
  obtain ⟨k, hkeq⟩ : ∃ k, k = prefixBytes len := ⟨_, rfl⟩
  rw [← hkeq] at hk
  obtain ⟨w₀, w₁, w₂, w₃, hw⟩ : ∃ a b c d, writeU32 addr = [a, b, c, d] := ⟨_, _, _, _, rfl⟩
  simp only [reread, IPv4Prefix.Repeats, IPv4Prefix.mk.injEq, and_true, encodeNlri, ← hkeq,
    readBytes_eq _ hk, writeBytes_eq _ hk, hw]
  rw [eq_comm, eq_readU32_iff, eq_readU32_iff, hw]
  have hcases : k = 0 ∨ k = 1 ∨ k = 2 ∨ k = 3 ∨ k = 4 := by omega
  rcases hcases with rfl | rfl | rfl | rfl | rfl <;> simp [ofList] <;> grind

theorem readBytes_congr {p q : BytePtr} {k : ℕ} (hk : k ≤ 4) (h : ∀ i, i < k → p i = q i) :
    readBytes p k = readBytes q k := by
  rw [readBytes_eq p hk, readBytes_eq q hk]
  refine congrArg readU32 (funext fun i => ?_)
  split_ifs with hi
  · exact h i hi
  · rfl

theorem decodeNlri_written {n : IPv4Prefix} (hn : n.prefixLength ≤ 32) {data rest : List UInt8} {pos : ℕ}
    (h : data.drop pos = encodeNlri n ++ rest) :
    decodeNlri data pos = .ok (reread n, nlriEncodedSize n) := by
  have hk := prefixBytes_le hn
  have hlen : pos + nlriEncodedSize n ≤ data.length := by
    rw [← length_encodeNlri]
    exact le_of_drop h (by simp [encodeNlri])
  have hholds := holds_drop h
  rw [nlriEncodedSize] at hlen
  have hfirst : ofList data pos = n.prefixLength := hholds 0 (by simp [encodeNlri])
  have haddr : readBytes ((ofList data).add pos) (prefixBytes n.prefixLength) =
      readBytes (ofList (encodeNlri n)) (prefixBytes n.prefixLength) := by
    refine readBytes_congr hk fun i hi => hholds i ?_
    rw [length_encodeNlri, nlriEncodedSize]
    omega
  rw [decodeNlri, rd8_ok (by omega), ok_bind, hfirst]
  simp only [not_lt.2 hk, if_false]
  rw [readAt_ok (by omega), ok_bind, haddr]
  rfl

theorem readNlri_written {addPath : Bool} {n : NlriPath IPv4Prefix} (hn : n.nlri.prefixLength ≤ 32)
    {data rest : List UInt8} {pos : ℕ} (h : data.drop pos = entryBytes addPath n ++ rest) :
    readNlri ipv4Nlri addPath data pos = .ok (rereadPath addPath n, pos + entrySize addPath n) := by
  have hlen : pos + entrySize addPath n ≤ data.length := by
    rw [← length_entryBytes]
    exact le_of_drop h (by rw [length_entryBytes]; exact entrySize_pos _ _)
  cases addPath with
  | false =>
    have hdecode := decodeNlri_written hn (h : data.drop pos = encodeNlri n.nlri ++ rest)
    have hsize : entrySize false n = nlriEncodedSize n.nlri := Nat.zero_add _
    rw [hsize] at hlen ⊢
    have hpos : nlriEncodedSize n.nlri ≠ 0 := by rw [nlriEncodedSize]; omega
    simp only [readNlri, readPathId, Bool.false_eq_true, if_false, pure_bind, ipv4Nlri, hdecode, ok_bind,
      hpos, false_or, not_lt.2 hlen, gt_iff_lt]
    rfl
  | true =>
    have hentry : data.drop pos = writeU32 n.pathId ++ (encodeNlri n.nlri ++ rest) := by
      rw [h, entryBytes, if_pos rfl, List.append_assoc]
    have hsize : entrySize true n = 4 + nlriEncodedSize n.nlri := rfl
    rw [hsize] at hlen ⊢
    have hdecode := decodeNlri_written hn (drop_of_drop hentry)
    rw [length_writeU32] at hdecode
    have hid : rdU32 data pos = .ok n.pathId := by
      rw [rdU32, readAt_ok (by omega), readU32_holds (holds_drop hentry)]
    have hroom : ¬ pos + 4 > data.length := by omega
    have hroom' : ¬ pos + 4 + nlriEncodedSize n.nlri > data.length := by omega
    have hpos : nlriEncodedSize n.nlri ≠ 0 := by rw [nlriEncodedSize]; omega
    simp only [readNlri, readPathId, if_true, hroom, if_false, hid, ok_bind, pure_bind, ipv4Nlri, hdecode,
      hpos, false_or, hroom']
    rw [← Nat.add_assoc]
    rfl

/-- **What is read from a list of entries.** -/
theorem nlriFrom_written {addPath : Bool} {ns : List (NlriPath IPv4Prefix)}
    (hns : ∀ n ∈ ns, n.nlri.prefixLength ≤ 32) {data : List UInt8} {fuel pos : ℕ} (hfuel : ns.length ≤ fuel)
    (hpos : pos ≤ data.length) (h : data.drop pos = ns.flatMap (entryBytes addPath)) :
    nlriFrom ipv4Nlri addPath data fuel pos = .ok (ns.map (rereadPath addPath)) := by
  induction ns generalizing fuel pos with
  | nil =>
    have hend : ¬ pos < data.length := by
      rw [List.flatMap_nil, List.drop_eq_nil_iff] at h
      omega
    cases fuel with
    | zero => rfl
    | succ fuel => rw [nlriFrom, if_neg hend]; rfl
  | cons n ns ih =>
    obtain ⟨fuel, rfl⟩ : ∃ f, fuel = f + 1 := ⟨fuel - 1, by rw [List.length_cons] at hfuel; omega⟩
    rw [List.flatMap_cons] at h
    have hread := readNlri_written (hns n (.head _)) h
    have hlen : pos + entrySize addPath n ≤ data.length := by
      rw [← length_entryBytes]
      exact le_of_drop h (by rw [length_entryBytes]; exact entrySize_pos _ _)
    have hentry := entrySize_pos addPath n
    have hrest := drop_of_drop h
    rw [length_entryBytes] at hrest
    have ih' := ih (fun m hm => hns m (.tail _ hm)) (Nat.le_of_succ_le_succ hfuel) hlen hrest
    rw [nlriFrom, if_pos (by omega), hread, ok_bind]
    simp only [ih', ok_bind]
    rfl

/-! ## Prefixes that were read -/

theorem encode_decoded {data : List UInt8} {pos c : ℕ} {n : IPv4Prefix}
    (h : decodeNlri data pos = .ok (n, c)) : c = nlriEncodedSize n ∧ n.prefixLength = ofList data pos ∧
      encodeNlri n = ofList data pos :: ((ofList data).add pos).take (prefixBytes n.prefixLength) ∧
      n.addr = readBytes ((ofList data).add pos) (prefixBytes n.prefixLength) := by
  rw [decodeNlri] at h
  obtain ⟨len, hlen, h⟩ := bind_eq_ok.1 h
  have hread : len = ofList data pos := by
    rw [rd8, readAt] at hlen
    split at hlen
    · exact (Except.ok.inj hlen).symm
    · cases hlen
  dsimp only at h
  split at h
  · cases h
  · rename_i hk
    obtain ⟨addr, haddr, h⟩ := bind_eq_ok.1 h
    obtain ⟨rfl, rfl⟩ := Prod.mk.inj (Except.ok.inj h)
    have haddr' : addr = readBytes ((ofList data).add pos) (prefixBytes len) := by
      rw [readAt] at haddr
      split at haddr
      · exact (Except.ok.inj haddr).symm
      · cases haddr
    refine ⟨rfl, hread, ?_, haddr'⟩
    have hk' : prefixBytes len ≤ 4 := not_lt.1 hk
    rw [encodeNlri, writeBytes_eq _ hk', haddr', readBytes_eq _ hk', writeU32_readU32, ← hread]
    refine congrArg (len :: ·) ?_
    obtain ⟨k, hkeq⟩ : ∃ k, k = prefixBytes len := ⟨_, rfl⟩
    rw [← hkeq] at hk' ⊢
    have hcases : k = 0 ∨ k = 1 ∨ k = 2 ∨ k = 3 ∨ k = 4 := by omega
    rcases hcases with rfl | rfl | rfl | rfl | rfl <;> simp [BytePtr.take, List.range_succ]

/-- The bytes `l` are those at `pos`, or each of them the byte before. -/
def Trails (data : List UInt8) (pos : ℕ) (l : List UInt8) : Prop :=
  ∀ i, i < l.length → ofList l i = ofList data (pos + i) ∨
    0 < i ∧ ofList l i = ofList data (pos + i - 1)

theorem Trails.append {data l r : List UInt8} {pos : ℕ} (hl : Trails data pos l)
    (hr : Trails data (pos + l.length) r) : Trails data pos (l ++ r) := by
  intro i hi
  by_cases hil : i < l.length
  · have hsame : ofList (l ++ r) i = ofList l i := by
      simp [ofList, List.getElem?_append_left hil]
    rw [hsame]
    exact hl i hil
  · have hsame : ofList (l ++ r) i = ofList r (i - l.length) := by
      simp [ofList, List.getElem?_append_right (not_lt.1 hil)]
    have hpos : pos + l.length + (i - l.length) = pos + i := by omega
    rw [List.length_append] at hi
    have hbyte := hr (i - l.length) (by omega)
    rw [hsame, ← hpos]
    exact hbyte.imp id fun h => ⟨by omega, h.2⟩

theorem trails_decoded {data : List UInt8} {pos c : ℕ} {n : IPv4Prefix}
    (h : decodeNlri data pos = .ok (n, c)) : Trails data pos (encodeNlri n) := by
  obtain ⟨-, -, henc, -⟩ := encode_decoded h
  intro i hi
  rw [henc] at hi ⊢
  cases i with
  | zero => exact Or.inl rfl
  | succ i =>
    right
    rw [List.length_cons, length_take] at hi
    refine ⟨Nat.succ_pos i, ?_⟩
    have hi' : i < prefixBytes n.prefixLength := by omega
    simp [ofList, BytePtr.take, List.getElem?_range hi']

theorem readNlri_spec {addPath : Bool} {data : List UInt8} {pos pos' : ℕ} {n : NlriPath IPv4Prefix}
    (h : readNlri ipv4Nlri addPath data pos = .ok (n, pos')) :
    pos' = pos + entrySize addPath n ∧ pos' ≤ data.length ∧ Trails data pos (entryBytes addPath n) ∧
      ((∀ i, ofList data i = 0) → n = ⟨⟨0, 0⟩, 0⟩) := by
  rw [readNlri] at h
  obtain ⟨⟨id, at_⟩, hid, h⟩ := bind_eq_ok.1 h
  obtain ⟨⟨nlri, c⟩, hdecode, h⟩ := bind_eq_ok.1 h
  dsimp only at hdecode h
  split at h
  · cases h
  · rename_i hfits
    obtain ⟨rfl, rfl⟩ := Prod.mk.inj (Except.ok.inj h)
    obtain ⟨rfl, hlen, -, haddr⟩ := encode_decoded hdecode
    have hzero : (∀ i, ofList data i = 0) → nlri = ⟨0, 0⟩ := by
      intro hz
      obtain ⟨addr, len⟩ := nlri
      obtain rfl : len = 0 := hlen.trans (hz _)
      have hbytes : prefixBytes 0 = 0 := by decide
      have haddr0 : addr = readBytes ((ofList data).add at_) (prefixBytes 0) := haddr
      rw [haddr0, hbytes]
      rfl
    have htrails := trails_decoded hdecode
    cases addPath with
    | false =>
      obtain ⟨rfl, rfl⟩ := Prod.mk.inj (Except.ok.inj hid)
      refine ⟨?_, by omega, htrails, fun hz => by rw [hzero hz]⟩
      rw [entrySize, if_neg Bool.false_ne_true, Nat.zero_add]
    | true =>
      rw [readPathId, if_pos rfl] at hid
      split at hid
      · cases hid
      · rename_i hroom
        rw [rdU32, readAt_ok (by omega), ok_bind] at hid
        obtain ⟨rfl, rfl⟩ := Prod.mk.inj (Except.ok.inj hid)
        refine ⟨?_, by omega, ?_, fun hz => ?_⟩
        · exact Nat.add_assoc _ _ _
        · have hbytes : entryBytes true ⟨nlri, readU32 ((ofList data).add pos)⟩ =
              [ofList data (pos + 0), ofList data (pos + 1), ofList data (pos + 2), ofList data (pos + 3)] ++
                encodeNlri nlri :=
            congrArg (· ++ encodeNlri nlri) (writeU32_readU32 _)
          rw [hbytes]
          refine Trails.append (fun i hi => Or.inl ?_) htrails
          have hlt : i < 4 := hi
          have hcases : i = 0 ∨ i = 1 ∨ i = 2 ∨ i = 3 := by omega
          rcases hcases with rfl | rfl | rfl | rfl <;> rfl
        · have hid0 : readU32 ((ofList data).add pos) = 0 := by
            simp only [readU32, Bytes.add_apply, hz]
            decide
          rw [hzero hz, hid0]

theorem nlriFrom_spec {addPath : Bool} {data : List UInt8} {fuel pos : ℕ} {ns : List (NlriPath IPv4Prefix)}
    (h : nlriFrom ipv4Nlri addPath data fuel pos = .ok ns) (hfuel : data.length ≤ fuel + pos)
    (hpos : pos ≤ data.length) :
    pos + entriesSize addPath ns = data.length ∧ Trails data pos (ns.flatMap (entryBytes addPath)) ∧
      ((∀ i, ofList data i = 0) → ∀ n ∈ ns, n = ⟨⟨0, 0⟩, 0⟩) := by
  induction fuel generalizing pos ns with
  | zero =>
    obtain rfl := Except.ok.inj h
    refine ⟨?_, fun i hi => absurd hi (Nat.not_lt_zero i), fun _ n hn => by cases hn⟩
    simp only [entriesSize, List.map_nil, List.sum_nil]
    omega
  | succ fuel ih =>
    rw [nlriFrom] at h
    split at h
    · obtain ⟨⟨n, pos'⟩, hread, h⟩ := bind_eq_ok.1 h
      obtain ⟨rest, hrest, h⟩ := bind_eq_ok.1 h
      obtain rfl := Except.ok.inj h
      obtain ⟨rfl, hle, htrails, hzero⟩ := readNlri_spec hread
      have hentry := entrySize_pos addPath n
      obtain ⟨hsum, htrails', hzero'⟩ := ih hrest (by omega) hle
      refine ⟨?_, ?_, fun hz => List.forall_mem_cons.2 ⟨hzero hz, hzero' hz⟩⟩
      · simp only [entriesSize, List.map_cons, List.sum_cons] at hsum ⊢
        omega
      · rw [List.flatMap_cons]
        refine htrails.append ?_
        rw [length_entryBytes]
        exact htrails'
    · obtain rfl := Except.ok.inj h
      refine ⟨?_, fun i hi => absurd hi (Nat.not_lt_zero i), fun _ n hn => by cases hn⟩
      simp only [entriesSize, List.map_nil, List.sum_nil]
      omega

/-- Prefixes that come back although they are read two bytes too early, behind two zeros, are all
    the default route. -/
theorem zeros_of_shifted {addPath : Bool} {data : List UInt8} {ns : List (NlriPath IPv4Prefix)}
    (h : nlriFrom ipv4Nlri addPath data data.length 0 = .ok ns)
    (hdata : data = (0 :: 0 :: ns.flatMap (entryBytes addPath)).take data.length) :
    ∀ n ∈ ns, n = ⟨⟨0, 0⟩, 0⟩ := by
  obtain ⟨hsize, htrails, hzero⟩ := nlriFrom_spec h (by omega) (Nat.zero_le _)
  rw [Nat.zero_add, ← length_entries] at hsize
  refine hzero fun i => ?_
  -- each byte is one that was read before it
  induction i using Nat.strong_induction_on with
  | _ i ih =>
    by_cases hi : i < data.length
    · have hget : ofList data i = ofList (0 :: 0 :: ns.flatMap (entryBytes addPath)) i := by
        rw [hdata]
        simp [ofList, hi]
      rw [hget]
      rcases i with _ | _ | i
      · rfl
      · rfl
      · change ofList (ns.flatMap (entryBytes addPath)) i = 0
        rcases htrails i (by omega) with hb | ⟨hpos, hb⟩
        · rw [hb]
          exact ih (0 + i) (by omega)
        · rw [hb]
          exact ih (0 + i - 1) (by omega)
    · simp [ofList, List.getElem?_eq_none (not_lt.1 hi)]

/-! ## Messages -/

section
variable {ses : UpdateSession}

theorem framedUpdate_bytes {c : UpdateContent} (hfits : headerSize + c.size ses ≤ ses.maxMsg) :
    FramedUpdate ses (c.bytes ses) := by
  have hmax := (maxMsg_bounds ses).2
  have hhead : headerSize = 19 := rfl
  have hlen : (c.bytes ses).length = headerSize + c.size ses := by
    rw [UpdateContent.bytes, List.length_append, UpdateContent.length_payload]
    rfl
  have hbytes : c.bytes ses = BGP_MARKER ++ (writeU16 (UInt16.ofNat (c.size ses) + 19) ++
      (MessageType.UPDATE.code :: c.payload ses)) := by
    simp only [UpdateContent.bytes, buildHeader, List.append_assoc, List.singleton_append]
  have hmarker : BGP_MARKER.length = 16 := rfl
  have hfield : (UInt16.ofNat (c.size ses) + 19).toNat = (c.bytes ses).length := by
    have hofnat : UInt16.ofNat (c.size ses) + 19 = UInt16.ofNat (c.size ses + 19) := by
      rw [UInt16.ofNat_add]
      rfl
    rw [hofnat, hlen, UInt16.toNat_ofNat_of_lt' (by simp only [UInt16.size]; omega)]
    omega
  have hdrop : (c.bytes ses).drop 16 = writeU16 (UInt16.ofNat (c.size ses) + 19) ++
      (MessageType.UPDATE.code :: c.payload ses) := by
    rw [hbytes, ← hmarker, List.drop_left]
  refine ⟨?_, ?_, ?_, ?_⟩
  · rw [hbytes]
    rfl
  · rw [readU16_holds (holds_drop hdrop), hfield]
  · rw [hbytes]
    rfl
  · rw [hlen]
    exact hfits

theorem readUpdate_announce {c : UpdateContent} (hwd : c.wd = [])
    (hfits : headerSize + c.size ses ≤ ses.maxMsg) :
    readUpdate (c.payload ses) = .ok ([], 4, c.attrData ses) := by
  have hmax := (maxMsg_bounds ses).2
  have hlen := c.length_payload ses
  have hsize : c.size ses = 4 + 0 + (c.attrData ses).length + entriesSize ses.addPath c.nlri := by
    rw [UpdateContent.size, hwd]
    rfl
  obtain ⟨payload, hpayload⟩ : ∃ p, p = c.payload ses := ⟨_, rfl⟩
  rw [← hpayload] at hlen ⊢
  have hparts : payload = writeU16 0 ++ (writeU16 (UInt16.ofNat (c.attrData ses).length) ++
      (c.attrData ses ++ c.nlri.flatMap (entryBytes ses.addPath))) := by
    rw [hpayload, UpdateContent.payload, hwd, List.flatMap_nil, List.append_nil, List.append_assoc,
      List.append_assoc]
    rfl
  have hdrop : payload.drop 2 = writeU16 (UInt16.ofNat (c.attrData ses).length) ++
      (c.attrData ses ++ c.nlri.flatMap (entryBytes ses.addPath)) := by
    rw [hparts]
    rfl
  have hdrop0 : payload.drop 0 = _ := hparts
  have hdrop' : payload.drop 4 = c.attrData ses ++ c.nlri.flatMap (entryBytes ses.addPath) :=
    drop_of_drop hdrop
  have hhead : headerSize = 19 := rfl
  have hwdLen : rdU16 payload 0 = .ok 0 := by
    rw [rdU16_ok (by omega), readU16_holds (holds_drop hdrop0)]
  have hattrLen : rdU16 payload 2 = .ok (UInt16.ofNat (c.attrData ses).length) := by
    rw [rdU16_ok (by omega), readU16_holds (holds_drop hdrop)]
  have hnat : (UInt16.ofNat (c.attrData ses).length).toNat = (c.attrData ses).length :=
    UInt16.toNat_ofNat_of_lt' (by simp only [UInt16.size]; omega)
  have h1 : ¬ payload.length < 4 := by omega
  have h2 : ¬ payload.length < 2 + 0 := by omega
  have h4 : ¬ payload.length < 2 + 0 + 2 + (c.attrData ses).length := by omega
  simp only [readUpdate, h1, if_false, hwdLen, ok_bind, gt_iff_lt, UInt16.toNat_zero, h2,
    subspan_ok (show 2 + 0 ≤ payload.length by omega), List.take_zero, hattrLen, hnat, h4,
    subspan_drop hdrop' (by omega)]
  rfl

theorem attrSpans_ne_nil (ses : UpdateSession) (pa : PathAttribute) : (ses.attrSpans pa).flatten ≠ [] := by
  intro hnil
  have hzero : ses.attrBytes pa = 0 := by rw [attrBytes_eq, hnil, List.length_nil]
  have hmem : attrHdrSize 4 ∈ (pathAttrs ses.negotiated.asn32bit ses.ebgp pa).map fun a =>
      attrHdrSize a.valueLen := by
    refine List.mem_map.2 ⟨⟨BGP_ATTR_FLAG_TRANSITIVE, BGP_ATTR_NEXT_HOP, 4,
      [writeU32 pa.path.nextHop.v4]⟩, ?_, rfl⟩
    simp [pathAttrs]
  have hle := List.single_le_sum (fun _ _ => Nat.zero_le _) _ hmem
  have hsum : ((pathAttrs ses.negotiated.asn32bit ses.ebgp pa).map fun a => attrHdrSize a.valueLen).sum = 0 := by
    simpa only [UpdateSession.attrBytes, appendPathAttrs] using hzero
  rw [hsum] at hle
  exact absurd hle (by decide)

theorem receiveUpdate_announce {findAddPath : FindAddPath} (hfind : FindsAddPath findAddPath)
    {c : UpdateContent} {pa : PathAttribute} (hpa : c.attrs = some pa) (hwd : c.wd = [])
    (hlens : ∀ n ∈ c.nlri, n.nlri.prefixLength ≤ 32) (hfits : headerSize + c.size ses ≤ ses.maxMsg)
    (p : ParsedUpdate IPv4Prefix) :
    receiveUpdate findAddPath ses (c.payload ses) = .ok (some p) ↔
      ∃ u, parsePathAttributes ses.rxConfig (ses.attrSpans pa).flatten {} = .ok u ∧ u.afi = ipv4uni ∧
        nlriFrom ipv4Nlri ses.addPath u.withdrawnData u.withdrawnData.length 0 = .ok p.withdrawn ∧
        p.announcements = c.nlri.map (rereadPath ses.addPath) ∧ p.attrs = some ⟨u.attrs, u.path⟩ := by
  have hlen := c.length_payload ses
  have hdata : c.attrData ses = (ses.attrSpans pa).flatten := by
    rw [UpdateContent.attrData, hpa, Option.elim_some]
  have hsize : c.size ses = 4 + 0 + (c.attrData ses).length + entriesSize ses.addPath c.nlri := by
    rw [UpdateContent.size, hwd]
    rfl
  -- the announced prefixes are what is left behind the attributes
  have hrest : (c.payload ses).drop (4 + (c.attrData ses).length) =
      c.nlri.flatMap (entryBytes ses.addPath) := by
    have hfour : (writeU16 (UInt16.ofNat (entriesSize ses.addPath c.wd)) ++
        writeU16 (UInt16.ofNat (c.attrData ses).length) ++ c.attrData ses).length =
        4 + (c.attrData ses).length := by
      simp only [List.length_append, length_writeU16]
    rw [UpdateContent.payload, hwd, List.flatMap_nil, List.append_nil, ← hwd, ← hfour, List.drop_left]
  have hspan : subspan Stop.outside (c.payload ses) (4 + (c.attrData ses).length)
      ((c.payload ses).length - (4 + (c.attrData ses).length)) =
      .ok (c.nlri.flatMap (entryBytes ses.addPath)) := by
    rw [subspan_ok (by omega), hrest, List.take_of_length_le]
    rw [length_entries]
    omega
  have hnlri : nlriFrom ipv4Nlri ses.addPath (c.nlri.flatMap (entryBytes ses.addPath))
      (c.nlri.flatMap (entryBytes ses.addPath)).length 0 = .ok (c.nlri.map (rereadPath ses.addPath)) := by
    refine nlriFrom_written hlens ?_ (Nat.zero_le _) rfl
    rw [length_entries]
    exact length_le_entriesSize _ _
  have hadd : (findAddPath ses.negotiated ipv4uni).isSome = ses.addPath := hfind _ _
  have hne : c.attrData ses ≠ [] := hdata ▸ attrSpans_ne_nil ses pa
  rw [← hdata]
  simp only [receiveUpdate, updateInfo, readUpdate_announce hwd hfits, ok_bind, hne, if_false]
  cases hparse : parsePathAttributes ses.rxConfig (c.attrData ses) {} with
  | error e =>
    refine iff_of_false ?_ (by simp)
    intro h
    cases e with
    | outside => cases h
    | error error =>
      dsimp only at h
      split at h
      · cases h
      · cases h
  | ok u =>
    by_cases hafi : u.afi = ipv4uni
    · simp only [hafi, if_true, hspan, ok_bind, pure_bind, processUpdateNlri, hadd, hnlri]
      constructor
      · intro h
        obtain ⟨q, hq, h⟩ := bind_eq_ok.1 h
        obtain ⟨w, hw, hq⟩ := bind_eq_ok.1 hq
        obtain rfl := Except.ok.inj hq
        obtain rfl := Option.some.inj (Except.ok.inj h)
        exact ⟨u, rfl, hafi, hw, rfl, rfl⟩
      · rintro ⟨u', hu', -, hw, hann, hattrs⟩
        obtain rfl := Except.ok.inj hu'
        obtain ⟨w, a, at_⟩ := p
        simp only at hw hann hattrs
        rw [hw, ok_bind, hann, hattrs]
        rfl
    · simp only [hafi, if_false, pure_bind]
      refine iff_of_false (fun h => by cases h) ?_
      rintro ⟨u', hu', hafi', -⟩
      obtain rfl := Except.ok.inj hu'
      exact hafi hafi'

theorem payload_drain {c : UpdateContent} (hattrs : c.attrs = none) (hnlri : c.nlri = [])
    {wd : List UInt8} (hbytes : wd = c.wd.flatMap (entryBytes ses.addPath)) :
    c.payload ses = writeU16 (UInt16.ofNat wd.length) ++ (0 :: 0 :: wd) := by
  have hwd : wd.length = entriesSize ses.addPath c.wd := by rw [hbytes, length_entries]
  have hdata : c.attrData ses = [] := by rw [UpdateContent.attrData, hattrs, Option.elim_none]
  rw [UpdateContent.payload, hdata, hnlri, ← hwd, ← hbytes, List.flatMap_nil, List.append_nil,
    List.append_nil, List.append_assoc]
  rfl

/-- A message that only withdraws is cut two bytes too early, and what is read as the length of its
    attributes has to be 0. -/
theorem readUpdate_drain {c : UpdateContent} (hattrs : c.attrs = none) (hnlri : c.nlri = [])
    (hfits : headerSize + c.size ses ≤ ses.maxMsg) {wd : List UInt8}
    (hbytes : wd = c.wd.flatMap (entryBytes ses.addPath)) :
    readUpdate (c.payload ses) =
      if readU16 ((ofList (c.payload ses)).add (2 + wd.length)) = 0 then
        .ok ((0 :: 0 :: wd).take wd.length, 2 + wd.length + 2, [])
      else .error malformed := by
  have hmax := (maxMsg_bounds ses).2
  have hhead : headerSize = 19 := rfl
  have hparts := payload_drain hattrs hnlri hbytes
  have hlen : (c.payload ses).length = 4 + wd.length := by
    rw [hparts, List.length_append, length_writeU16, List.length_cons, List.length_cons]
    omega
  have hsize : c.size ses = 4 + wd.length := by rw [← hlen, c.length_payload]
  obtain ⟨payload, hpayload⟩ : ∃ p, p = c.payload ses := ⟨_, rfl⟩
  rw [← hpayload] at hlen hparts ⊢
  have hdrop0 : payload.drop 0 = _ := hparts
  have hdrop : payload.drop 2 = 0 :: 0 :: wd := by
    rw [hparts]
    rfl
  have hnat : (UInt16.ofNat wd.length).toNat = wd.length :=
    UInt16.toNat_ofNat_of_lt' (by simp only [UInt16.size]; omega)
  have hwdLen : rdU16 payload 0 = .ok (UInt16.ofNat wd.length) := by
    rw [rdU16_ok (by omega), readU16_holds (holds_drop hdrop0)]
  have h1 : ¬ payload.length < 4 := by omega
  have h2 : ¬ payload.length < 2 + wd.length := by omega
  have h3 : ¬ payload.length < 2 + wd.length + 2 := by omega
  simp only [readUpdate, h1, if_false, hwdLen, ok_bind, gt_iff_lt, hnat, h2,
    subspan_ok (show 2 + wd.length ≤ payload.length by omega), hdrop, h3,
    rdU16_ok (show 2 + wd.length + 2 ≤ payload.length by omega)]
  split_ifs with hlong hzero hzero
  · rw [hzero] at hlong
    simp at hlong
    omega
  · rfl
  · rw [hzero, UInt16.toNat_zero, subspan_ok (by omega), List.take_zero]
    rfl
  · have hpos : (readU16 ((ofList payload).add (2 + wd.length))).toNat ≠ 0 := fun h0 =>
      hzero (UInt16.toNat_inj.1 h0)
    omega

theorem receiveUpdate_drain {findAddPath : FindAddPath} (hfind : FindsAddPath findAddPath)
    {c : UpdateContent} (hattrs : c.attrs = none) (hnlri : c.nlri = [])
    (hfits : headerSize + c.size ses ≤ ses.maxMsg) {wd : List UInt8}
    (hbytes : wd = c.wd.flatMap (entryBytes ses.addPath)) (p : ParsedUpdate IPv4Prefix) :
    receiveUpdate findAddPath ses (c.payload ses) = .ok (some p) ↔
      readU16 ((ofList (c.payload ses)).add (2 + wd.length)) = 0 ∧
      nlriFrom ipv4Nlri ses.addPath ((0 :: 0 :: wd).take wd.length) wd.length 0 = .ok p.withdrawn ∧
      p.announcements = [] ∧ p.attrs = some {} := by
  have hlen : (c.payload ses).length = 2 + wd.length + 2 := by
    rw [payload_drain hattrs hnlri hbytes, List.length_append, length_writeU16, List.length_cons,
      List.length_cons]
    omega
  have hread := readUpdate_drain hattrs hnlri hfits hbytes
  have hadd : (findAddPath ses.negotiated ipv4uni).isSome = ses.addPath := hfind _ _
  have htake : ((0 :: 0 :: wd).take wd.length).length = wd.length := by
    rw [List.length_take, List.length_cons, List.length_cons]
    omega
  by_cases hzero : readU16 ((ofList (c.payload ses)).add (2 + wd.length)) = 0
  · rw [if_pos hzero] at hread
    have hspan : subspan Stop.outside (c.payload ses) (2 + wd.length + 2)
        ((c.payload ses).length - (2 + wd.length + 2)) = .ok [] := by
      rw [subspan_ok (by omega), hlen, Nat.sub_self, List.take_zero]
    have hinfo : updateInfo ses.rxConfig (c.payload ses) =
        .ok (some { withdrawnData := (0 :: 0 :: wd).take wd.length }) := by
      rw [updateInfo, hread]
      simp only [ok_bind, if_true, hspan]
      rfl
    rw [receiveUpdate, hinfo, ok_bind]
    dsimp only
    rw [if_pos (show (⟨BGP_AFI_IPV4, BGP_SAFI_UNICAST⟩ : AfiSafi) = ipv4uni from rfl)]
    simp only [processUpdateNlri, hadd, htake, List.length_nil, nlriFrom, ok_bind]
    constructor
    · intro h
      obtain ⟨q, hq, h⟩ := bind_eq_ok.1 h
      obtain ⟨w, hw, hq⟩ := bind_eq_ok.1 hq
      obtain rfl := Except.ok.inj hq
      obtain rfl := Option.some.inj (Except.ok.inj h)
      exact ⟨hzero, hw, rfl, rfl⟩
    · rintro ⟨-, hw, hann, hattrs⟩
      obtain ⟨w, a, at_⟩ := p
      simp only at hw hann hattrs
      rw [hw, ok_bind, hann, hattrs]
      rfl
  · rw [if_neg hzero] at hread
    refine iff_of_false ?_ fun h => hzero h.1
    rw [receiveUpdate, updateInfo, hread]
    intro h
    cases h

theorem receiveUpdate_zeros {findAddPath : FindAddPath} (hfind : FindsAddPath findAddPath)
    {c : UpdateContent} (hattrs : c.attrs = none) (hnlri : c.nlri = [])
    (hfits : headerSize + c.size ses ≤ ses.maxMsg) (hwd : ∀ n ∈ c.wd, n = ⟨⟨0, 0⟩, 0⟩) :
    receiveUpdate findAddPath ses (c.payload ses) = .ok (some ⟨c.wd, [], some {}⟩) := by
  have hentry : entryBytes ses.addPath ⟨⟨0, 0⟩, 0⟩ = List.replicate (entrySize ses.addPath ⟨⟨0, 0⟩, 0⟩) 0 := by
    cases ses.addPath <;> decide
  have hrep : c.wd = List.replicate c.wd.length ⟨⟨0, 0⟩, 0⟩ := List.eq_replicate_iff.2 ⟨rfl, hwd⟩
  have hzeros : c.wd.flatMap (entryBytes ses.addPath) =
      List.replicate (c.wd.flatMap (entryBytes ses.addPath)).length 0 := by
    refine List.eq_replicate_iff.2 ⟨rfl, fun b hb => ?_⟩
    obtain ⟨n, hn, hb⟩ := List.mem_flatMap.1 hb
    rw [hwd n hn, hentry] at hb
    exact List.eq_of_mem_replicate hb
  obtain ⟨wd, hbytes⟩ : ∃ wd, wd = c.wd.flatMap (entryBytes ses.addPath) := ⟨_, rfl⟩
  have hshift : (0 :: 0 :: wd).take wd.length = wd := by
    rw [← hbytes] at hzeros
    rw [hzeros]
    change (List.replicate (wd.length + 2) 0).take _ = _
    simp
  have hbyte (j : ℕ) : ofList (c.payload ses) (2 + j) = 0 := by
    have hdrop : (c.payload ses).drop 2 = List.replicate (wd.length + 2) 0 := by
      rw [payload_drain hattrs hnlri hbytes]
      change 0 :: 0 :: wd = 0 :: 0 :: List.replicate wd.length 0
      rw [← hbytes] at hzeros
      rw [← hzeros]
    have hget : ofList (c.payload ses) (2 + j) = ((c.payload ses).drop 2).getD j 0 := by
      simp [ofList]
    rw [hget, hdrop]
    by_cases hj : j < wd.length + 2
    · simp [hj]
    · simp [not_lt.1 hj]
  refine (receiveUpdate_drain hfind hattrs hnlri hfits hbytes _).2 ⟨?_, ?_, rfl, rfl⟩
  · simp only [readU16, Bytes.add_apply, hbyte, Nat.add_assoc]
    rfl
  · have hsame : c.wd.map (rereadPath ses.addPath) = c.wd := by
      refine (List.map_congr_left fun n hn => ?_).trans (List.map_id c.wd)
      rw [hwd n hn]
      cases ses.addPath <;> decide
    have hlens : ∀ n ∈ c.wd, n.nlri.prefixLength ≤ 32 := by
      intro n hn
      rw [hwd n hn]
      decide
    have hcount : c.wd.length ≤ wd.length := by
      rw [hbytes, length_entries]
      exact length_le_entriesSize _ _
    have hread := nlriFrom_written hlens hcount (Nat.zero_le _) (hbytes : wd.drop 0 = _)
    rw [hshift, hread, hsame]

end

/-! ## What returns comes back -/

section
variable {findAddPath : FindAddPath} {ses : UpdateSession} {update : BuildUpdate IPv4Prefix}
  {cs : List UpdateContent}

theorem roundTrip_of_each (hbuild : buildUpdate ses update = some (cs.map (·.bytes ses)))
    (hmsgs : Messages ses update cs)
    (h : ∀ c ∈ cs, ∃ p, receiveUpdate findAddPath ses (c.payload ses) = .ok (some p) ∧
      p.withdrawn = c.wd ∧ List.Forall₂ (SamePath ses.ebgp) p.carried c.announced) :
    UpdateRoundTrip findAddPath ses update := by
  have hps : ∀ cs : List UpdateContent, (∀ c ∈ cs, ∃ p, receiveUpdate findAddPath ses (c.payload ses) =
      .ok (some p) ∧ p.withdrawn = c.wd ∧ List.Forall₂ (SamePath ses.ebgp) p.carried c.announced) →
      ∃ ps : List (ParsedUpdate IPv4Prefix),
        List.Forall₂ (fun m p => receiveUpdate findAddPath ses (m.drop headerSize) = .ok (some p))
          (cs.map (·.bytes ses)) ps ∧
        ps.flatMap ParsedUpdate.withdrawn = cs.flatMap UpdateContent.wd ∧
        List.Forall₂ (SamePath ses.ebgp) (ps.flatMap ParsedUpdate.carried)
          (cs.flatMap UpdateContent.announced) := by
    intro cs
    induction cs with
    | nil => exact fun _ => ⟨[], .nil, rfl, .nil⟩
    | cons c cs ih =>
      intro h
      obtain ⟨p, hreceive, hwd, hsame⟩ := h c (.head _)
      obtain ⟨ps, hall, hwds, hsames⟩ := ih fun d hd => h d (.tail _ hd)
      refine ⟨p :: ps, .cons hreceive hall, ?_, ?_⟩
      · rw [List.flatMap_cons, List.flatMap_cons, hwd, hwds]
      · exact List.rel_append hsame hsames
  obtain ⟨ps, hall, hwds, hsames⟩ := hps cs h
  refine ⟨_, ps, hbuild, ?_, hall, hwds.trans hmsgs.wd_eq, hmsgs.nlri_eq ▸ hsames⟩
  intro m hm
  obtain ⟨c, hc, rfl⟩ := List.mem_map.1 hm
  exact framedUpdate_bytes (hmsgs.fits c hc)

theorem Messages.mem_nlri (hmsgs : Messages ses update cs) {c : UpdateContent} (hc : c ∈ cs)
    {pa : PathAttribute} (hpa : c.attrs = some pa) {n : NlriPath IPv4Prefix} (hn : n ∈ c.nlri) :
    ∃ a ∈ update.announcements, n ∈ a.nlri ∧ a.attrs = pa := by
  have hmem : (n, pa) ∈ cs.flatMap UpdateContent.announced := by
    refine List.mem_flatMap.2 ⟨c, hc, ?_⟩
    rw [UpdateContent.announced, hpa, Option.elim_some]
    exact List.mem_map_of_mem hn
  rw [hmsgs.nlri_eq] at hmem
  obtain ⟨a, ha, hmem⟩ := List.mem_flatMap.1 hmem
  obtain ⟨n', hn', heq⟩ := List.mem_map.1 hmem
  obtain ⟨rfl, rfl⟩ := Prod.mk.inj heq
  exact ⟨a, ha, hn', rfl⟩

def PrefixLengths (update : BuildUpdate IPv4Prefix) : Prop :=
  (∀ n ∈ update.withdrawn, n.nlri.prefixLength ≤ 32) ∧
    ∀ a ∈ update.announcements, ∀ n ∈ a.nlri, n.nlri.prefixLength ≤ 32

theorem rereadPath_eq_iff {addPath : Bool} {n : NlriPath IPv4Prefix} (h : n.nlri.prefixLength ≤ 32) :
    rereadPath addPath n = n ↔ n.nlri.Repeats ∧ (addPath = false → n.pathId = 0) := by
  rw [← reread_eq_iff h]
  obtain ⟨nlri, id⟩ := n
  cases addPath <;> simp [rereadPath, eq_comm]

theorem attrBytes_le (hroom : RoomFor ses update) {a : Announcement IPv4Prefix} (ha : a ∈ update.announcements)
    {n : NlriPath IPv4Prefix} (hn : n ∈ a.nlri) : ses.attrBytes a.attrs ≤ 65535 := by
  have hfits := hroom a ha n (List.mem_append_left _ hn)
  have hmax := (maxMsg_bounds ses).2
  omega

theorem roundTrip_of_returns (hfind : FindsAddPath findAddPath) (hroom : RoomFor ses update)
    (hlens : PrefixLengths update) (h : Returns ses update) : UpdateRoundTrip findAddPath ses update := by
  obtain ⟨cs, hbuild, hmsgs⟩ := buildUpdate_messages hroom
  refine roundTrip_of_each hbuild hmsgs fun c hc => ?_
  have hfits := hmsgs.fits c hc
  have hwdmem : ∀ n ∈ c.wd, n ∈ update.withdrawn := by
    intro n hn
    rw [← hmsgs.wd_eq]
    exact List.mem_flatMap.2 ⟨c, hc, hn⟩
  by_cases hann : update.announcements = []
  · obtain ⟨hattrs, hnlri⟩ := hmsgs.drained hann c hc
    have hzero : ∀ n ∈ c.wd, n = ⟨⟨0, 0⟩, 0⟩ := by
      intro n hn
      rcases h.withdrawn with hnil | ⟨-, hall⟩
      · rw [hnil] at hwdmem
        cases hwdmem n hn
      · exact hall n (hwdmem n hn)
    refine ⟨_, receiveUpdate_zeros hfind hattrs hnlri hfits hzero, rfl, ?_⟩
    rw [UpdateContent.announced, hattrs, Option.elim_none]
    exact .nil
  · obtain ⟨a, -, hpa⟩ := hmsgs.announced hann c hc
    have hwd : c.wd = [] := by
      rcases h.withdrawn with hnil | ⟨hnil, -⟩
      · rw [hnil] at hwdmem
        exact List.eq_nil_iff_forall_not_mem.2 fun n hn => by cases hwdmem n hn
      · exact absurd hnil hann
    have hlens' : ∀ n ∈ c.nlri, n.nlri.prefixLength ≤ 32 := by
      intro n hn
      obtain ⟨b, hb, hnb, -⟩ := hmsgs.mem_nlri hc hpa hn
      exact hlens.2 b hb n hnb
    have hreturn : ∀ n ∈ c.nlri, AttrsReturn ses a.attrs ∧ rereadPath ses.addPath n = n := by
      intro n hn
      obtain ⟨b, hb, hnb, hattrs⟩ := hmsgs.mem_nlri hc hpa hn
      obtain ⟨hret, hrep⟩ := h.announced b hb n hnb
      have hbytes := attrBytes_le hroom hb hnb
      exact ⟨hattrs ▸ (attrsReturn_iff hbytes).2 hret, (rereadPath_eq_iff (hlens' n hn)).2 hrep⟩
    -- a message without withdrawals announces a prefix
    obtain ⟨n₀, hn₀⟩ := List.exists_mem_of_ne_nil _ (by simpa [hwd] using hmsgs.nonempty c hc)
    obtain ⟨u, hparse, hafi, hnone, hsame⟩ := (hreturn n₀ hn₀).1
    have hmap : c.nlri.map (rereadPath ses.addPath) = c.nlri :=
      (List.map_congr_left fun n hn => (hreturn n hn).2).trans (List.map_id _)
    refine ⟨⟨[], c.nlri, some ⟨u.attrs, u.path⟩⟩,
      (receiveUpdate_announce hfind hpa hwd hlens' hfits _).2 ⟨u, hparse, hafi, ?_, hmap.symm, rfl⟩,
      hwd.symm, ?_⟩
    · rw [hnone]
      rfl
    · rw [UpdateContent.announced, hpa, Option.elim_some, ParsedUpdate.carried, Option.elim_some,
        List.forall₂_map_left_iff, List.forall₂_map_right_iff, List.forall₂_same]
      exact fun n _ => ⟨rfl, ⟨hsame.origin, hsame.asPath, hsame.nextHop, hsame.med, hsame.localPref,
        hsame.atomicAggregate, hsame.asAggregator, hsame.communities, hsame.originatorId,
        hsame.clusterList, hsame.extendedCommunities, hsame.aigp, hsame.largeCommunities,
        hsame.unknownTransitive⟩⟩

/-! ## What comes back returns -/

theorem append_inj_of_size {addPath : Bool} {l₁ l₂ r₁ r₂ : List (NlriPath IPv4Prefix)}
    (h : l₁ ++ r₁ = l₂ ++ r₂) (hsize : entriesSize addPath l₁ = entriesSize addPath l₂) :
    l₁ = l₂ ∧ r₁ = r₂ := by
  have hnil {l : List (NlriPath IPv4Prefix)} (h0 : entriesSize addPath l = 0) : l = [] := by
    have := length_le_entriesSize addPath l
    exact List.eq_nil_of_length_eq_zero (by omega)
  rcases List.append_eq_append_iff.1 h with ⟨a, rfl, rfl⟩ | ⟨a, rfl, rfl⟩
  · rw [entriesSize_append] at hsize
    obtain rfl := hnil (l := a) (by omega)
    simp
  · rw [entriesSize_append] at hsize
    obtain rfl := hnil (l := a) (by omega)
    simp

theorem forall₂_mem_left {α β : Type} {P Q : α → β → Prop} {as : List α} {bs : List β}
    (hP : List.Forall₂ P as bs) (hQ : List.Forall₂ Q as bs) {a : α} (ha : a ∈ as) :
    ∃ b ∈ bs, P a b ∧ Q a b := by
  induction hP with
  | nil => cases ha
  | cons hp _ ih =>
    cases hQ with
    | cons hq hqs =>
      rcases List.mem_cons.1 ha with rfl | ha
      · exact ⟨_, .head _, hp, hq⟩
      · obtain ⟨b, hb, hPQ⟩ := ih hqs ha
        exact ⟨b, .tail _ hb, hPQ⟩

theorem withdrawn_each {ps : List (ParsedUpdate IPv4Prefix)}
    (hsize : List.Forall₂ (fun c p => entriesSize ses.addPath (ParsedUpdate.withdrawn p) =
      entriesSize ses.addPath (UpdateContent.wd c)) cs ps)
    (h : ps.flatMap ParsedUpdate.withdrawn = cs.flatMap UpdateContent.wd) :
    List.Forall₂ (fun c p => p.withdrawn = c.wd) cs ps := by
  induction hsize with
  | nil => exact .nil
  | cons hc _ ih =>
    rw [List.flatMap_cons, List.flatMap_cons] at h
    obtain ⟨hhead, htail⟩ := append_inj_of_size h hc
    exact .cons hhead (ih htail)

theorem announced_each {R : NlriPath IPv4Prefix × PathAttribute → NlriPath IPv4Prefix × PathAttribute → Prop}
    {ps : List (ParsedUpdate IPv4Prefix)}
    (hlen : List.Forall₂ (fun c p => (ParsedUpdate.carried p).length = (UpdateContent.announced c).length)
      cs ps)
    (h : List.Forall₂ R (ps.flatMap ParsedUpdate.carried) (cs.flatMap UpdateContent.announced)) :
    List.Forall₂ (fun c p => List.Forall₂ R p.carried c.announced) cs ps := by
  induction hlen with
  | nil => exact .nil
  | @cons c p cs ps hc _ ih =>
    rw [List.flatMap_cons, List.flatMap_cons] at h
    have hhead := List.forall₂_take (p.carried.length) h
    have htail := List.forall₂_drop (p.carried.length) h
    rw [List.take_left, hc, List.take_left] at hhead
    rw [List.drop_left, hc, List.drop_left] at htail
    exact .cons hhead (ih htail)

theorem returns_of_roundTrip (hfind : FindsAddPath findAddPath) (hroom : RoomFor ses update)
    (hlens : PrefixLengths update) (hpure : update.withdrawn = [] ∨ update.announcements = [])
    (h : UpdateRoundTrip findAddPath ses update) : Returns ses update := by
  obtain ⟨cs, hbuild, hmsgs⟩ := buildUpdate_messages hroom
  obtain ⟨msgs, ps, hbuild', -, hall, hwds, hsames⟩ := h
  obtain rfl : cs.map (·.bytes ses) = msgs := Option.some.inj (hbuild.symm.trans hbuild')
  rw [List.forall₂_map_left_iff] at hall
  by_cases hann : update.announcements = []
  · refine ⟨fun a ha => absurd (hann ▸ ha) List.not_mem_nil, Or.inr ⟨hann, ?_⟩⟩
    -- what each message withdraws is read two bytes too early
    have hread : List.Forall₂ (fun c p => ∃ wd, wd = (UpdateContent.wd c).flatMap (entryBytes ses.addPath) ∧
        nlriFrom ipv4Nlri ses.addPath ((0 :: 0 :: wd).take wd.length) wd.length 0 =
          .ok (ParsedUpdate.withdrawn p)) cs ps := by
      refine (List.forall₂_iff_zip.1 hall).elim fun hlen hzip => List.forall₂_iff_zip.2 ⟨hlen, ?_⟩
      intro c p hmem
      have hc := (List.of_mem_zip hmem).1
      obtain ⟨hattrs, hnlri⟩ := hmsgs.drained hann c hc
      exact ⟨_, rfl, ((receiveUpdate_drain hfind hattrs hnlri (hmsgs.fits c hc) rfl p).1 (hzip hmem)).2.1⟩
    have hsize : List.Forall₂ (fun c p => entriesSize ses.addPath (ParsedUpdate.withdrawn p) =
        entriesSize ses.addPath (UpdateContent.wd c)) cs ps := by
      refine hread.imp ?_
      rintro c p ⟨wd, hwd, hnlri⟩
      have htake : ((0 :: 0 :: wd).take wd.length).length = wd.length := by
        rw [List.length_take, List.length_cons, List.length_cons]
        omega
      have hspec := (nlriFrom_spec hnlri (by omega) (Nat.zero_le _)).1
      rw [Nat.zero_add, htake, hwd, length_entries] at hspec
      exact hspec
    have heach := withdrawn_each hsize (hwds.trans hmsgs.wd_eq.symm)
    intro n hn
    rw [← hmsgs.wd_eq] at hn
    obtain ⟨c, hc, hnc⟩ := List.mem_flatMap.1 hn
    obtain ⟨p, -, ⟨wd, hwd, hnlri⟩, hsame⟩ := forall₂_mem_left hread heach hc
    rw [hsame] at hnlri
    obtain ⟨data, hdata⟩ : ∃ data, data = (0 :: 0 :: wd).take wd.length := ⟨_, rfl⟩
    have hlen : data.length = wd.length := by
      rw [hdata, List.length_take, List.length_cons, List.length_cons]
      omega
    rw [← hdata, ← hlen] at hnlri
    refine zeros_of_shifted hnlri ?_ n hnc
    rw [← hwd, hlen]
    exact hdata
  · have hnil : update.withdrawn = [] := hpure.resolve_right hann
    refine ⟨?_, Or.inl hnil⟩
    have hwd : ∀ c ∈ cs, c.wd = [] := List.flatMap_eq_nil_iff.1 (hmsgs.wd_eq.trans hnil)
    -- what is read of each message
    have hread : List.Forall₂ (fun c p => ∃ pa u, UpdateContent.attrs c = some pa ∧
        parsePathAttributes ses.rxConfig (ses.attrSpans pa).flatten {} = .ok u ∧ u.afi = ipv4uni ∧
        nlriFrom ipv4Nlri ses.addPath u.withdrawnData u.withdrawnData.length 0 = .ok p.withdrawn ∧
        p.announcements = c.nlri.map (rereadPath ses.addPath) ∧ p.attrs = some ⟨u.attrs, u.path⟩) cs ps := by
      refine (List.forall₂_iff_zip.1 hall).elim fun hlen hzip => List.forall₂_iff_zip.2 ⟨hlen, ?_⟩
      intro c p hmem
      have hc := (List.of_mem_zip hmem).1
      obtain ⟨a, -, hpa⟩ := hmsgs.announced hann c hc
      have hlens' : ∀ n ∈ c.nlri, n.nlri.prefixLength ≤ 32 := by
        intro n hn
        obtain ⟨b, hb, hnb, -⟩ := hmsgs.mem_nlri hc hpa hn
        exact hlens.2 b hb n hnb
      obtain ⟨u, hu⟩ := (receiveUpdate_announce hfind hpa (hwd c hc) hlens' (hmsgs.fits c hc) p).1 (hzip hmem)
      exact ⟨a.attrs, u, hpa, hu⟩
    have hlen : List.Forall₂ (fun c p => (ParsedUpdate.carried p).length =
        (UpdateContent.announced c).length) cs ps := by
      refine hread.imp ?_
      rintro c p ⟨pa, u, hpa, -, -, -, hann, hattrs⟩
      rw [ParsedUpdate.carried, UpdateContent.announced, hattrs, hpa, Option.elim_some, Option.elim_some,
        hann, List.length_map, List.length_map, List.length_map]
    rw [← hmsgs.nlri_eq] at hsames
    have heach := announced_each hlen hsames
    intro a ha n hn
    have hmem : (n, a.attrs) ∈ cs.flatMap UpdateContent.announced := by
      rw [hmsgs.nlri_eq]
      exact List.mem_flatMap.2 ⟨a, ha, List.mem_map_of_mem hn⟩
    obtain ⟨c, hc, hmem⟩ := List.mem_flatMap.1 hmem
    obtain ⟨p, hp, ⟨pa, u, hpa, hparse, hafi, hnlri, hanns, hattrs⟩, hsame⟩ := forall₂_mem_left hread heach hc
    rw [UpdateContent.announced, hpa, Option.elim_some] at hmem hsame
    obtain ⟨n', hn', heq⟩ := List.mem_map.1 hmem
    obtain ⟨rfl, rfl⟩ := Prod.mk.inj heq
    rw [ParsedUpdate.carried, hattrs, Option.elim_some, hanns, List.map_map, List.forall₂_map_left_iff,
      List.forall₂_map_right_iff, List.forall₂_same] at hsame
    obtain ⟨hn₁, hsame₁⟩ := hsame n' hn'
    refine ⟨(attrsReturn_iff (attrBytes_le hroom ha hn)).1 ⟨u, hparse, hafi, ?_, ⟨hsame₁.origin, hsame₁.asPath, hsame₁.nextHop, hsame₁.med,
      hsame₁.localPref, hsame₁.atomicAggregate, hsame₁.asAggregator, hsame₁.communities,
      hsame₁.originatorId, hsame₁.clusterList, hsame₁.extendedCommunities, hsame₁.aigp,
      hsame₁.largeCommunities, hsame₁.unknownTransitive⟩⟩, (rereadPath_eq_iff (hlens.2 a ha n' hn)).1 hn₁⟩
    -- nothing is withdrawn, so that there is nothing to withdraw in the message
    have hnone : p.withdrawn = [] := List.flatMap_eq_nil_iff.1 (hwds.trans hnil) p hp
    rw [hnone] at hnlri
    have hsize := (nlriFrom_spec hnlri (by omega) (Nat.zero_le _)).1
    exact List.eq_nil_of_length_eq_zero hsize.symm

/-- **The messages of an update**, for every session and every update whose attributes leave room: the
    encoder comes to its end, each message has its length and keeps the limit, what returns comes back,
    and among the updates that do not withdraw and announce at once nothing else does. -/
theorem updateRoundTrip_iff (hfind : FindsAddPath findAddPath) (hroom : RoomFor ses update)
    (hlens : PrefixLengths update) :
    (∃ msgs, buildUpdate ses update = some msgs ∧ ∀ m ∈ msgs, FramedUpdate ses m) ∧
      (Returns ses update → UpdateRoundTrip findAddPath ses update) ∧
      (update.withdrawn = [] ∨ update.announcements = [] →
        UpdateRoundTrip findAddPath ses update → Returns ses update) := by
  refine ⟨?_, roundTrip_of_returns hfind hroom hlens, returns_of_roundTrip hfind hroom hlens⟩
  obtain ⟨cs, hbuild, hmsgs⟩ := buildUpdate_messages hroom
  refine ⟨_, hbuild, fun m hm => ?_⟩
  obtain ⟨c, hc, rfl⟩ := List.mem_map.1 hm
  exact framedUpdate_bytes (hmsgs.fits c hc)

end

/-! ## Samples -/

/-- The search that the documentation of `findAddPath` describes. -/
def searchAddPath : FindAddPath := fun neg family => neg.addPathFamilies.find? fun ap => ap.family = family

theorem findsAddPath_search : FindsAddPath searchAddPath := by
  intro neg family
  rw [Bool.eq_iff_iff, searchAddPath, List.find?_isSome, List.any_eq_true]

def sampleUpdateSession : UpdateSession := ⟨{ asn32bit := true }, false⟩

/-- An update that announces a prefix with the attributes of `samplePath`. -/
def announceOne (n : IPv4Prefix) : BuildUpdate IPv4Prefix := { announcements := [⟨samplePath, [⟨n, 0⟩]⟩] }

theorem prefixLengths_announceOne {n : IPv4Prefix} (h : n.prefixLength ≤ 32) :
    PrefixLengths (announceOne n) := by
  refine ⟨fun m hm => absurd hm List.not_mem_nil, fun a ha m hm => ?_⟩
  obtain rfl := List.mem_singleton.1 ha
  obtain rfl := List.mem_singleton.1 hm
  exact h

theorem roomFor_announceOne (n : IPv4Prefix) : RoomFor sampleUpdateSession (announceOne n) := by
  intro a ha m hm
  obtain rfl := List.mem_singleton.1 ha
  have hsize := entrySize_le sampleUpdateSession.addPath m
  have hattrs : sampleUpdateSession.attrBytes samplePath ≤ 200 := by decide +kernel
  have hmax := (maxMsg_bounds sampleUpdateSession).1
  have hhead : headerSize = 19 := rfl
  show headerSize + 4 + sampleUpdateSession.attrBytes samplePath + entrySize sampleUpdateSession.addPath m ≤ _
  omega

/-- 8.0.0.0/8 comes back. -/
theorem updateRoundTrip_iff_sample :
    UpdateRoundTrip searchAddPath sampleUpdateSession (announceOne ⟨0x08000000, 8⟩) := by
  refine (updateRoundTrip_iff findsAddPath_search (roomFor_announceOne _)
    (prefixLengths_announceOne (by decide))).2.1 ⟨?_, Or.inl rfl⟩
  intro a ha n hn
  obtain rfl := List.mem_singleton.1 ha
  obtain rfl := List.mem_singleton.1 hn
  exact ⟨⟨faithful_samplePath.decodable (by decide), fun h2 => by cases h2⟩, by decide, fun _ => rfl⟩

/-- 10.0.0.0/8 announced, 10.0.0.0/8 withdrawn, and 10.0.0.0/8 withdrawn with an announcement of
    8.0.0.0/8 do not. -/
theorem not_updateRoundTrip_sample :
    ¬ UpdateRoundTrip searchAddPath sampleUpdateSession (announceOne ⟨0x0A000000, 8⟩) ∧
    ¬ UpdateRoundTrip searchAddPath sampleUpdateSession { withdrawn := [⟨⟨0x0A000000, 8⟩, 0⟩] } ∧
    ¬ UpdateRoundTrip searchAddPath sampleUpdateSession
      { announceOne ⟨0x08000000, 8⟩ with withdrawn := [⟨⟨0x0A000000, 8⟩, 0⟩] } := by
  refine ⟨fun h => ?_, fun h => ?_, ?_⟩
  · have hreturns := returns_of_roundTrip findsAddPath_search (roomFor_announceOne _)
      (prefixLengths_announceOne (by decide)) (Or.inl rfl) h
    exact absurd (hreturns.announced _ (.head _) _ (.head _)).2.1 (by decide)
  · have hreturns := returns_of_roundTrip findsAddPath_search (fun a ha => absurd ha List.not_mem_nil)
      ⟨by simp, fun a ha => absurd ha List.not_mem_nil⟩ (Or.inr rfl) h
    rcases hreturns.withdrawn with hnil | ⟨-, hzero⟩
    · cases hnil
    · exact absurd (hzero _ (.head _)) (by decide)
  · rintro ⟨msgs, ps, hbuild, -, hall, hwds, -⟩
    -- the attributes are read as withdrawn prefixes, and the last of them is cut off
    have hrefused : ((buildUpdate sampleUpdateSession { announceOne ⟨0x08000000, 8⟩ with
        withdrawn := [⟨⟨0x0A000000, 8⟩, 0⟩] }).getD []).all fun m =>
          (receiveUpdate searchAddPath sampleUpdateSession (m.drop headerSize)).toOption.isNone := by
      decide +kernel
    rw [hbuild, Option.getD_some, List.all_eq_true] at hrefused
    cases hall with
    | nil => cases hwds
    | cons hreceive _ =>
      have hnone := hrefused _ (.head _)
      rw [hreceive] at hnone
      cases hnone

end VirtualRouter.Bgp
