/-
  Which sends of EIGRP carry every route in packets with options.

  The loop of a format ends when the counter has reached the number of the routes,
  and finds it there if another format was sent before: that format gets one packet
  without routes.  A list without routes gets one as well where it is not looked at
  before the loop.

  * `Fills`: the routes fill packets in the frames of an interface;
  * `versionedLoop_iff`: the loop of one format carries its routes iff there are any
    and they fill packets;
  * `Packetised`: what a send owes;
  * `packetisation_iff`: a send meets it exactly if nothing is to be sent, or there is
    one format and the routes fill packets.
-/
import VirtualRouter.Eigrp.UpdatePacket

namespace VirtualRouter.Eigrp

open Bytes Utils VirtualRouter.Types

/-! ## The frame of an interface -/

def headerEnd (af : AddressFamily) : ℕ :=
  EthernetHeader.fixedSize + ipHeaderSize af + EigrpHeader.fixedSize

/-- The bytes of a frame behind the header. -/
def bodyRoom (iface : SendInterface) (frames : Frames) : ℕ := frames.size - headerEnd iface.af

/-- The bytes that the options may use. -/
def bodySize (iface : SendInterface) (mtu : UInt16) : ℕ :=
  (mtu - (headerEnd iface.af + EigrpHeader.fixedSize).toUInt16).toNat

/-- The bytes of the packet, from the header of the address family on. -/
def UpdatePacket.size (af : AddressFamily) (p : UpdatePacket) : ℕ :=
  ipHeaderSize af + EigrpHeader.fixedSize + p.trail.length

def UpdatePacket.routeTLVs (p : UpdatePacket) : List TLV16Option :=
  (parseEigrpOptions p.trail).2.filter fun opt => opt.type ∈ routeTypes

def Fills (iface : SendInterface) (frames : Frames) (mtu : UInt16) (version : TLVType)
    (routes : List ReceivedRoute) : Prop :=
  ∃ head, headSize iface (bodyRoom iface frames) (bodySize iface mtu) = some head ∧
    Packs {
      mem := bodyRoom iface frames
      len := bodySize iface mtu
      head := head
      limit := mtu.toNat - (ipHeaderSize iface.af + EigrpHeader.fixedSize) }
      head (routes.map (optionSize version))

section
variable {iface : SendInterface} {frames : Frames} {info : PktInfo} {version : TLVType}

theorem buildHeader_createPacket : buildHeader frames (createPacket iface.af) =
    if headerEnd iface.af > frames.size then .error .outside
    else .ok (some ⟨3, headerEnd iface.af⟩) := by
  rw [buildHeader]
  cases iface.af <;> rfl

theorem not_fills_of_lt (h : frames.size < headerEnd iface.af) {mtu : UInt16}
    {routes : List ReceivedRoute} (hne : routes ≠ []) : ¬ Fills iface frames mtu version routes := by
  rintro ⟨head, -, hpacks⟩
  obtain ⟨r, routes, rfl⟩ := List.exists_cons_of_ne_nil hne
  have hmem := hpacks.1.2
  have hroom : bodyRoom iface frames = 0 := Nat.sub_eq_zero_of_le h.le
  simp only [hroom] at hmem
  omega

end

/-! ## A round -/

def Marks (mark : Bool → Bool → UpdatePacket → UpdatePacket) : Prop :=
  ∀ first last p, (mark first last p).version = p.version ∧ (mark first last p).trail = p.trail

theorem marks_markFull (unicast : Bool) (resync : Resync) : Marks (markFull unicast resync) :=
  fun _ _ _ => ⟨rfl, rfl⟩

theorem marks_markUpdate (neighbor : Option TLVType) : Marks (markUpdate neighbor) :=
  fun _ _ _ => ⟨rfl, rfl⟩

def Sending.left (bw : UInt64) (s : Sending) : List ReceivedRoute :=
  (s.routes.map (capped bw)).drop s.sent

section
variable (iface : SendInterface) (frames : Frames) (info : PktInfo) (version : TLVType)
  {mark : Bool → Bool → UpdatePacket → UpdatePacket}

/-- What a round does: it stops, or hands out a packet `p` with the options `os`. -/
structure RoundOk (s s' : Sending) (p : UpdatePacket) (os : List TLV16Option) : Prop where
  packets : s'.packets = s.packets ++ [p]
  format : p.version = version
  routeTLVs : p.routeTLVs = os
  left : s'.left info.bandwidthMetric = (s.left info.bandwidthMetric).drop os.length
  length : s'.routes.length = s.routes.length
  sent : s'.sent = s.sent + os.length
  sent_le : s'.sent ≤ s'.routes.length
  empty : Fills iface frames info.mtu version []
  progress : s.left info.bandwidthMetric ≠ [] →
    Fills iface frames info.mtu version (s.left info.bandwidthMetric) → os ≠ []
  fills_iff : Fills iface frames info.mtu version (s.left info.bandwidthMetric) ↔
    List.Forall₂ (IsOption iface.toEigrpInterface info.bandwidthMetric info.delay version)
      ((s.left info.bandwidthMetric).take os.length) os ∧
    (os ≠ [] → p.size iface.af ≤ info.mtu.toNat) ∧
    Fills iface frames info.mtu version (s'.left info.bandwidthMetric)

variable {iface frames info version}

theorem left_eq (s : Sending) (bw : UInt64) :
    s.left bw = (s.routes.drop s.sent).map (capped bw) := List.map_drop.symm

theorem map_optionSize_capped (bw : UInt64) (routes : List ReceivedRoute) :
    (routes.map (capped bw)).map (optionSize version) = routes.map (optionSize version) := by
  rw [List.map_map]
  rfl

theorem fills_capped (bw : UInt64) {mtu : UInt16} {routes : List ReceivedRoute} :
    Fills iface frames mtu version (routes.map (capped bw)) ↔
      Fills iface frames mtu version routes := by
  rw [Fills, Fills, map_optionSize_capped]

theorem forall₂_isOption_capped {routes : List ReceivedRoute} {os : List TLV16Option} :
    List.Forall₂ (IsOption iface.toEigrpInterface info.bandwidthMetric info.delay version)
      (routes.map (capped info.bandwidthMetric)) os ↔
    List.Forall₂ (IsOption iface.toEigrpInterface info.bandwidthMetric info.delay version) routes os := by
  rw [List.forall₂_map_left_iff]
  simp only [isOption_capped]

theorem routeTLVs_of_carries {p : UpdatePacket} {tlv : FrameTLVs} {mem len : ℕ}
    {opts os : List TLV16Option} (hp : p.trail = tlv.getSpan) (htlv : tlv.Carries mem len (opts ++ os))
    (hopts : ∀ opt ∈ opts, opt.type ∉ routeTypes) (hos : ∀ opt ∈ os, opt.type ∈ routeTypes) :
    p.routeTLVs = os := by
  rw [UpdatePacket.routeTLVs, hp, htlv.parse, List.filter_append,
    List.filter_eq_nil_iff.mpr (by simpa using hopts), List.filter_eq_self.mpr (by simpa using hos),
    List.nil_append]

variable (iface frames info version) in
/-- **One round.** -/
theorem updateRound_cases (hmark : Marks mark) {s : Sending} (hs : s.sent ≤ s.routes.length)
    (first : Bool) :
    (updateRound iface frames info version mark first s = .error .outside ∧
      (s.left info.bandwidthMetric ≠ [] →
        ¬ Fills iface frames info.mtu version (s.left info.bandwidthMetric))) ∨
    ∃ s' p os, updateRound iface frames info version mark first s = .ok (false, s') ∧
      RoundOk iface frames info version s s' p os := by
  rw [updateRound, createUpdate, buildHeader_createPacket]
  by_cases hframe : headerEnd iface.af > frames.size
  · rw [if_pos hframe]
    exact .inl ⟨rfl, not_fills_of_lt hframe⟩
  · rw [if_neg hframe, ok_bind]
    simp only
    have hstart : FrameTLVs.Carries (bodyRoom iface frames) (bodySize iface info.mtu) [] {
        buffer := (frames.payload s.taken).drop (headerEnd iface.af)
        len := (maxSize info ⟨3, headerEnd iface.af⟩).toNat } :=
      ⟨by rw [List.length_drop, frames.length_payload]; rfl, rfl, rfl, rfl, by simp⟩
    have hlead := leadingTLVs_leading iface hstart
    generalize leadingTLVs iface _ = x at hlead
    generalize hhead : headSize iface (bodyRoom iface frames) (bodySize iface info.mtu) = head at hlead
    cases hlead with
    | outside =>
      refine .inl ⟨rfl, fun _ => ?_⟩
      rintro ⟨head, hsome, -⟩
      rw [hhead] at hsome
      cases hsome
    | @ok tlv opts htlv htypes =>
      rw [ok_bind]
      let w : Window := {
        mem := bodyRoom iface frames
        len := bodySize iface info.mtu
        head := tlv.offset
        limit := info.mtu.toNat - (ipHeaderSize iface.af + EigrpHeader.fixedSize) }
      have hfills : ∀ routes : List ReceivedRoute, Fills iface frames info.mtu version
          (routes.map (capped info.bandwidthMetric)) ↔
            Packs w tlv.offset (routes.map (optionSize version)) := by
        intro routes
        rw [Fills, map_optionSize_capped]
        constructor
        · rintro ⟨head, hsome, hpacks⟩
          rw [hhead] at hsome
          obtain rfl := Option.some.inj hsome
          exact hpacks
        · exact fun hpacks => ⟨tlv.offset, hhead, hpacks⟩
      rcases appendRoutes_cases iface.toEigrpInterface info.bandwidthMetric info.delay version w
          (s.routes.drop s.sent) htlv with ⟨hrun, hnot⟩ | ⟨a, os, hrun, hfilled, hprogress, hiff⟩
      · refine .inl ⟨by simp only [hrun]; rfl, fun _ hleft => hnot ?_⟩
        rw [left_eq] at hleft
        exact (hfills _).mp hleft
      · simp only [hrun, ok_bind]
        have hroutes : (s.routes.take s.sent ++ a.routes).map (capped info.bandwidthMetric) =
            s.routes.map (capped info.bandwidthMetric) := by
          rw [List.map_append, hfilled.routes, ← List.map_append, List.take_append_drop]
        have hlength := congrArg List.length hroutes
        rw [List.length_map, List.length_map] at hlength
        have hle := hfilled.le
        rw [List.length_drop] at hle
        have hcount : os.length = a.appended := hfilled.length
        have hoffset : a.tlv.getSpan.length = a.tlv.offset := by
          rw [hfilled.tlv.span, hfilled.tlv.offset]
        let last : Bool := s.sent + a.appended ≥ (s.routes.take s.sent ++ a.routes).length ∧
          (s.routes.take s.sent ++ a.routes).length > 0
        let p := mark first last { sequence := s.nextSeq, version, trail := a.tlv.getSpan }
        have htrail : p.trail = a.tlv.getSpan := (hmark _ _ _).2
        refine .inr ⟨_, p, os, rfl, ?_⟩
        constructor
        case packets => rfl
        case format => exact (hmark _ _ _).1
        case routeTLVs =>
          exact routeTLVs_of_carries htrail hfilled.tlv htypes hfilled.types
        case left =>
          simp only [Sending.left, hroutes, hcount, List.drop_drop]
        case length => exact hlength
        case sent => simp only [hcount]
        case sent_le =>
          simp only [hlength]
          omega
        case empty => exact (hfills []).mpr trivial
        case progress =>
          intro hne hleft
          rw [left_eq] at hne hleft
          have hpacks := (hfills _).mp hleft
          obtain ⟨r, rest, hrest⟩ := List.exists_cons_of_ne_nil (mt List.map_eq_nil_iff.mpr hne)
          rw [hrest, List.map_cons] at hpacks
          obtain ⟨-, hsmall, hroom, -⟩ := (@packs_head_cons w _ _).mp hpacks
          exact hprogress r rest hrest hsmall hroom
        case fills_iff =>
          have hlimit : os ≠ [] → (p.size iface.af ≤ info.mtu.toNat ↔ a.tlv.offset ≤ w.limit) := by
            intro hne
            have hpos : 0 < a.tlv.offset := by
              obtain ⟨opt, rest, rfl⟩ := List.exists_cons_of_ne_nil hne
              rw [hfilled.tlv.offset, List.flatMap_append, List.flatMap_cons]
              simp only [List.length_append, TLV16Option.length_bytes]
              omega
            rw [UpdatePacket.size, htrail, hoffset]
            show _ ↔ a.tlv.offset ≤ info.mtu.toNat - (ipHeaderSize iface.af + EigrpHeader.fixedSize)
            omega
          have hrest : Sending.left info.bandwidthMetric { s with
              sent := s.sent + a.appended, routes := s.routes.take s.sent ++ a.routes } =
              ((s.routes.drop s.sent).drop a.appended).map (capped info.bandwidthMetric) := by
            simp only [Sending.left, hroutes, List.map_drop, List.drop_drop]
          rw [left_eq, hfills, hiff, ← List.map_take, forall₂_isOption_capped, hcount]
          refine and_congr_right fun _ => and_congr ?_ ?_
          · exact forall_congr' fun hne => (hlimit hne).symm
          · rw [← hfills, ← hrest]
            rfl

end

/-! ## The loop of a format -/

section
variable (iface : SendInterface) (frames : Frames) (info : PktInfo) (version : TLVType)
  {mark : Bool → Bool → UpdatePacket → UpdatePacket}

/-- The packets carry the routes in order, each packet some of them, and none exceeds the MTU. -/
structure Delivered (routes : List ReceivedRoute) (packets : List UpdatePacket) : Prop where
  carried : List.Forall₂ (IsOption iface.toEigrpInterface info.bandwidthMetric info.delay version)
    routes (packets.flatMap UpdatePacket.routeTLVs)
  nonempty : ∀ p ∈ packets, p.routeTLVs ≠ []
  bounded : ∀ p ∈ packets, p.size iface.af ≤ info.mtu.toNat

/-- What the loop of a format leaves: its packets `new`, and no route. -/
structure LoopOk (s s' : Sending) (new : List UpdatePacket) : Prop where
  packets : s'.packets = s.packets ++ new
  format : ∀ p ∈ new, p.version = version
  sent_le : s'.sent ≤ s'.routes.length
  left : s'.left info.bandwidthMetric = []
  idle : s.left info.bandwidthMetric = [] → ∃ p ∈ new, p.routeTLVs = []
  fills : Delivered iface info version (s.left info.bandwidthMetric) new →
    Fills iface frames info.mtu version (s.left info.bandwidthMetric)

section
variable {iface frames info version}

theorem left_eq_nil_iff {s : Sending} {bw : UInt64} : s.left bw = [] ↔ s.routes.length ≤ s.sent := by
  rw [Sending.left, List.drop_eq_nil_iff, List.length_map]

theorem RoundOk.last {s s' : Sending} {p : UpdatePacket} {os : List TLV16Option}
    (h : RoundOk iface frames info version s s' p os) (hdone : s'.left info.bandwidthMetric = []) :
    LoopOk iface frames info version s s' [p] := by
  constructor
  case packets => exact h.packets
  case format => simpa using h.format
  case sent_le => exact h.sent_le
  case left => exact hdone
  case idle =>
    intro hnone
    have hlen := h.sent
    have hle := h.sent_le
    rw [left_eq_nil_iff] at hnone
    rw [h.length, h.sent] at hle
    exact ⟨p, by simp, by rw [h.routeTLVs]; exact List.length_eq_zero_iff.mp (by omega)⟩
  case fills =>
    intro hdelivered
    have hcarried := hdelivered.carried
    rw [List.flatMap_cons, List.flatMap_nil, List.append_nil, h.routeTLVs] at hcarried
    rw [h.fills_iff, hdone]
    refine ⟨?_, fun _ => hdelivered.bounded p (by simp), h.empty⟩
    rwa [← hcarried.length_eq, List.take_length]

theorem RoundOk.cons {s s' s'' : Sending} {p : UpdatePacket} {os : List TLV16Option}
    {new : List UpdatePacket} (h : RoundOk iface frames info version s s' p os)
    (hmore : s'.sent < s'.routes.length) (hloop : LoopOk iface frames info version s' s'' new) :
    LoopOk iface frames info version s s'' (p :: new) := by
  constructor
  case packets => rw [hloop.packets, h.packets, List.append_assoc]; rfl
  case format => exact List.forall_mem_cons.mpr ⟨h.format, hloop.format⟩
  case sent_le => exact hloop.sent_le
  case left => exact hloop.left
  case idle =>
    intro hnone
    have hsent := h.sent
    have hlength := h.length
    have hle := left_eq_nil_iff.mp hnone
    omega
  case fills =>
    intro hdelivered
    have hcarried := hdelivered.carried
    rw [List.flatMap_cons, h.routeTLVs] at hcarried
    refine h.fills_iff.mpr ⟨List.forall₂_take_append _ _ _ hcarried,
      fun _ => hdelivered.bounded p (by simp), hloop.fills ⟨?_, ?_, ?_⟩⟩
    · rw [h.left]
      exact List.forall₂_drop_append _ _ _ hcarried
    · exact fun q hq => hdelivered.nonempty q (List.mem_cons_of_mem _ hq)
    · exact fun q hq => hdelivered.bounded q (List.mem_cons_of_mem _ hq)

/-- **The loop**, if it ends. -/
theorem versionedLoop_ok (hmark : Marks mark) : ∀ {fuel : ℕ} {first : Bool} {s s' : Sending},
    s.sent ≤ s.routes.length →
    versionedLoop iface frames info version mark fuel first s = .ok s' →
    ∃ new, LoopOk iface frames info version s s' new
  | 0, _, _, _, _, h => by cases h
  | fuel + 1, first, s, s', hs, h => by
    rw [versionedLoop] at h
    rcases updateRound_cases iface frames info version hmark hs first with
      ⟨hround, -⟩ | ⟨s₁, p, os, hround, hok⟩
    · rw [hround] at h
      cases h
    · simp only [hround] at h
      split_ifs at h with hmore
      · obtain ⟨new, hloop⟩ := versionedLoop_ok hmark hok.sent_le h
        exact ⟨p :: new, hok.cons hmore hloop⟩
      · obtain rfl := Except.ok.inj h
        exact ⟨[p], hok.last (left_eq_nil_iff.mpr (not_lt.mp hmore))⟩

theorem RoundOk.delivers {s s' : Sending} {p : UpdatePacket} {os : List TLV16Option}
    {new : List UpdatePacket} (h : RoundOk iface frames info version s s' p os) (hos : os ≠ [])
    (hfills : Fills iface frames info.mtu version (s.left info.bandwidthMetric))
    (hnew : Delivered iface info version (s'.left info.bandwidthMetric) new) :
    Delivered iface info version (s.left info.bandwidthMetric) (p :: new) := by
  obtain ⟨hopts, hsize, -⟩ := h.fills_iff.mp hfills
  constructor
  case carried =>
    have hcarried := hnew.carried
    rw [h.left] at hcarried
    rw [List.flatMap_cons, h.routeTLVs, ← List.take_append_drop os.length (s.left _)]
    exact List.rel_append hopts hcarried
  case nonempty => exact List.forall_mem_cons.mpr ⟨h.routeTLVs ▸ hos, hnew.nonempty⟩
  case bounded => exact List.forall_mem_cons.mpr ⟨hsize hos, hnew.bounded⟩

/-- **The loop ends** if the routes fill packets: each round takes one of them. -/
theorem versionedLoop_delivers (hmark : Marks mark) : ∀ (n : ℕ) (first : Bool) {s : Sending},
    s.sent ≤ s.routes.length → (s.left info.bandwidthMetric).length = n →
    s.left info.bandwidthMetric ≠ [] →
    Fills iface frames info.mtu version (s.left info.bandwidthMetric) →
    ∃ fuel s' new, versionedLoop iface frames info version mark fuel first s = .ok s' ∧
      s'.packets = s.packets ++ new ∧ (∀ p ∈ new, p.version = version) ∧
      Delivered iface info version (s.left info.bandwidthMetric) new := by
  intro n
  induction n using Nat.strong_induction_on with
  | _ n ih =>
    intro first s hs hn hne hfills
    rcases updateRound_cases iface frames info version hmark hs first with
      ⟨-, hnot⟩ | ⟨s₁, p, os, hround, hok⟩
    · exact absurd hfills (hnot hne)
    · have hos := hok.progress hne hfills
      by_cases hmore : s₁.sent < s₁.routes.length
      · have hleft : s₁.left info.bandwidthMetric ≠ [] :=
          fun h => (left_eq_nil_iff.mp h).not_gt hmore
        have hshorter : (s₁.left info.bandwidthMetric).length < n := by
          have hpos := List.length_pos_of_ne_nil hos
          have hlen := List.length_pos_of_ne_nil hne
          rw [hok.left, List.length_drop]
          omega
        obtain ⟨fuel, s', new, hloop, hpackets, hformat, hdelivered⟩ :=
          ih _ hshorter false hok.sent_le rfl hleft (hok.fills_iff.mp hfills).2.2
        refine ⟨fuel + 1, s', p :: new, ?_, ?_, List.forall_mem_cons.mpr ⟨hok.format, hformat⟩,
          hok.delivers hos hfills hdelivered⟩
        · simp only [versionedLoop, hround, if_pos hmore, hloop]
        · rw [hpackets, hok.packets, List.append_assoc]
          rfl
      · have hdone := (@left_eq_nil_iff s₁ info.bandwidthMetric).mpr (not_lt.mp hmore)
        refine ⟨1, s₁, [p], ?_, hok.packets, by simpa using hok.format,
          hok.delivers hos hfills ?_⟩
        · simp only [versionedLoop, hround, if_neg hmore]
        · rw [hdone]
          exact ⟨.nil, by simp, by simp⟩

theorem sendVersions_ok (hmark : Marks mark) {fuel : ℕ} : ∀ {versions : List TLVType} {s s' : Sending},
    s.sent ≤ s.routes.length → sendVersions iface frames info mark fuel versions s = .ok s' →
    ∃ new, s'.packets = s.packets ++ new
  | [], _, _, _, h => ⟨[], by rw [List.append_nil, Except.ok.inj h]⟩
  | version :: versions, s, s', hs, h => by
    rw [sendVersions] at h
    cases hloop : versionedLoop iface frames info version mark fuel true s with
    | error e =>
      rw [hloop] at h
      cases h
    | ok s₁ =>
      rw [hloop, ok_bind] at h
      obtain ⟨new, hok⟩ := versionedLoop_ok hmark hs hloop
      obtain ⟨rest, hrest⟩ := sendVersions_ok hmark hok.sent_le h
      exact ⟨new ++ rest, by rw [hrest, hok.packets, List.append_assoc]⟩

theorem sendVersions_two (hmark : Marks mark) {fuel : ℕ} {v₁ v₂ : TLVType} {versions : List TLVType}
    {s s' : Sending} (hs : s.sent ≤ s.routes.length)
    (h : sendVersions iface frames info mark fuel (v₁ :: v₂ :: versions) s = .ok s') :
    ∃ p ∈ s'.packets, p.routeTLVs = [] := by
  rw [sendVersions] at h
  cases hfirst : versionedLoop iface frames info v₁ mark fuel true s with
  | error e =>
    rw [hfirst] at h
    cases h
  | ok s₁ =>
    rw [hfirst, ok_bind, sendVersions] at h
    obtain ⟨new₁, hok₁⟩ := versionedLoop_ok hmark hs hfirst
    cases hsecond : versionedLoop iface frames info v₂ mark fuel true s₁ with
    | error e =>
      rw [hsecond] at h
      cases h
    | ok s₂ =>
      rw [hsecond, ok_bind] at h
      obtain ⟨new₂, hok₂⟩ := versionedLoop_ok hmark hok₁.sent_le hsecond
      obtain ⟨rest, hrest⟩ := sendVersions_ok hmark hok₂.sent_le h
      obtain ⟨p, hp, hempty⟩ := hok₂.idle hok₁.left
      refine ⟨p, ?_, hempty⟩
      rw [hrest, hok₂.packets]
      exact List.mem_append_left _ (List.mem_append_right _ hp)

end

end

/-! ## Sends -/

/-- A call of `sendFullTopology`, `sendUpdate` or `sendPoisenedUpdate`. -/
inductive SendCall where
  | fullTopology (fullSent firstFullSend : Bool) (resync : Resync)
      (entries : List (EntryView × Option TopologyRoute))
  | update (neighbor : Option TLVType) (inputRoutes : List TopologyRoute)
  | poisened (neighbor : Option TLVType) (inputRoutes : List TopologyRoute)

namespace SendCall

section
variable (iface : SendInterface)

/-- Nothing is to be sent: the interface is passive or has no neighbours, or the neighbour has the
    topology. -/
def silent : SendCall → Prop
  | fullTopology fullSent _ _ _ => iface.passive ∨ fullSent
  | update _ _ | poisened _ _ => iface.passive ∨ iface.neighbors = 0

def routes : SendCall → List ReceivedRoute
  | fullTopology _ _ _ entries => (getAdvertisableRoutes iface entries).map TopologyRoute.routeInfo
  | update _ inputRoutes => (filterAdvertisableRoutes iface inputRoutes).map TopologyRoute.routeInfo
  | poisened _ inputRoutes => inputRoutes.map TopologyRoute.routeInfo

/-- The formats in use. -/
def versions : SendCall → List TLVType
  | fullTopology _ _ _ _ => iface.tlvTypes
  | update neighbor _ | poisened neighbor _ => formats iface neighbor

def info : SendCall → PktInfo
  | fullTopology _ _ _ _ | update _ _ => pktInfo iface 0
  | poisened _ _ => pktInfo iface INFINITE

def looksAtRoutes : SendCall → Prop
  | fullTopology _ _ _ _ | update _ _ => True
  | poisened _ _ => False

variable (frames : Frames) (nextSeq : UInt32)

/-- The call, with a number of rounds for each format. -/
def run (fuel : ℕ) : SendCall → Except SendStop Sending
  | fullTopology fullSent firstFullSend resync entries =>
    sendFullTopology iface frames nextSeq fullSent firstFullSend resync entries fuel
  | update neighbor inputRoutes => sendUpdate iface frames nextSeq neighbor inputRoutes fuel
  | poisened neighbor inputRoutes => sendPoisenedUpdate iface frames nextSeq neighbor inputRoutes fuel

/-- **What a send owes**: it returns, and for each format every route of the list has its option in
    exactly one of the packets built for it, in order; no packet exceeds the MTU, and none is without
    such an option. -/
def Packetised (call : SendCall) : Prop :=
  ∃ fuel s, call.run iface frames nextSeq fuel = .ok s ∧
    (¬ call.silent iface →
      (∀ version ∈ call.versions iface,
        List.Forall₂ (IsOption iface.toEigrpInterface (call.info iface).bandwidthMetric
          (call.info iface).delay version) (call.routes iface)
          ((s.packets.filter fun p => p.version = version).flatMap UpdatePacket.routeTLVs)) ∧
      ∀ p ∈ s.packets, p.routeTLVs ≠ [] ∧ p.size iface.af ≤ iface.mtu.toNat)

end

variable {iface : SendInterface} {frames : Frames} {nextSeq : UInt32}

def start (iface : SendInterface) (nextSeq : UInt32) (call : SendCall) : Sending where
  routes := call.routes iface
  nextSeq := nextSeq

theorem run_eq (call : SendCall) : ∃ mark, Marks mark ∧ ∀ fuel,
    (call.silent iface ∨ (call.looksAtRoutes ∧ call.routes iface = []) →
      call.run iface frames nextSeq fuel = .ok (call.start iface nextSeq)) ∧
    (¬ (call.silent iface ∨ (call.looksAtRoutes ∧ call.routes iface = [])) →
      call.run iface frames nextSeq fuel =
        sendVersions iface frames (call.info iface) mark fuel (call.versions iface)
          (call.start iface nextSeq)) := by
  cases call with
  | fullTopology fullSent firstFullSend resync entries =>
    refine ⟨markFull (!iface.multicastEnabled || firstFullSend) resync, marks_markFull _ _,
      fun fuel => ?_⟩
    simp only [silent, looksAtRoutes, routes, run, sendFullTopology, true_and, List.map_eq_nil_iff]
    constructor
    · intro h
      split_ifs with h₁ h₂ h₃
      · rfl
      · rfl
      · rfl
      · rw [List.isEmpty_iff] at h₃
        tauto
    · intro h
      rw [if_neg (by tauto), if_neg (by tauto), if_neg (by rw [List.isEmpty_iff]; tauto)]
      rfl
  | update neighbor inputRoutes =>
    refine ⟨markUpdate neighbor, marks_markUpdate neighbor, fun fuel => ?_⟩
    simp only [silent, looksAtRoutes, routes, run, sendUpdate, true_and, List.map_eq_nil_iff]
    constructor
    · intro h
      split_ifs with h₁ h₂
      · rfl
      · rfl
      · rw [List.isEmpty_iff] at h₂
        tauto
    · intro h
      rw [if_neg (by tauto), if_neg (by rw [List.isEmpty_iff]; tauto)]
      rfl
  | poisened neighbor inputRoutes =>
    refine ⟨markUpdate neighbor, marks_markUpdate neighbor, fun fuel => ?_⟩
    simp only [silent, looksAtRoutes, run, sendPoisenedUpdate, false_and, or_false]
    exact ⟨fun h => if_pos h, fun h => if_neg h⟩

/-- **Which sends carry their routes**: those where nothing is to be sent, and those with one format
    whose routes fill packets. -/
theorem packetisation_iff (iface : SendInterface) (frames : Frames) (nextSeq : UInt32)
    (call : SendCall) :
    call.Packetised iface frames nextSeq ↔
      call.silent iface ∨ call.versions iface = [] ∨
      (call.looksAtRoutes ∧ call.routes iface = []) ∨
      ∃ version, call.versions iface = [version] ∧ call.routes iface ≠ [] ∧
        Fills iface frames iface.mtu version (call.routes iface) := by
  obtain ⟨mark, hmark, hrun⟩ := @run_eq iface frames nextSeq call
  by_cases hquiet : call.silent iface ∨ (call.looksAtRoutes ∧ call.routes iface = [])
  · refine iff_of_true ⟨0, _, (hrun 0).1 hquiet, fun hsilent => ?_⟩ (by tauto)
    have hnone := (hquiet.resolve_left hsilent).2
    rw [hnone]
    exact ⟨fun _ _ => .nil, fun p hp => by cases hp⟩
  · have hsilent : ¬ call.silent iface := fun h => hquiet (.inl h)
    have hleft : (call.start iface nextSeq).left (call.info iface).bandwidthMetric =
        (call.routes iface).map (capped (call.info iface).bandwidthMetric) := rfl
    have hmtu : (call.info iface).mtu = iface.mtu := by cases call <;> rfl
    constructor
    · rintro ⟨fuel, s, hs, hlaw⟩
      obtain ⟨hcarried, hpackets⟩ := hlaw hsilent
      rw [(hrun fuel).2 hquiet] at hs
      generalize call.versions iface = versions at hs hcarried
      match versions with
      | [] => exact .inr (.inl rfl)
      | v₁ :: v₂ :: versions =>
        obtain ⟨p, hp, hempty⟩ := sendVersions_two hmark (Nat.zero_le _) hs
        exact absurd hempty (hpackets p hp).1
      | [version] =>
        rw [sendVersions] at hs
        cases hloop : versionedLoop iface frames (call.info iface) version mark fuel true
            (call.start iface nextSeq) with
        | error e =>
          rw [hloop] at hs
          cases hs
        | ok s₁ =>
          rw [hloop, ok_bind] at hs
          obtain rfl := Except.ok.inj hs
          obtain ⟨new, hok⟩ := versionedLoop_ok hmark (Nat.zero_le _) hloop
          have hnew : s₁.packets = new := hok.packets
          have hall : s₁.packets.filter (fun p => p.version = version) = s₁.packets := by
            rw [hnew]
            exact List.filter_eq_self.mpr (by simpa using hok.format)
          have hopts := hcarried version (by simp)
          rw [hall] at hopts
          refine .inr (.inr (.inr ⟨version, rfl, fun hnone => ?_, ?_⟩))
          · obtain ⟨p, hp, hempty⟩ := hok.idle (by rw [hleft, hnone]; rfl)
            exact (hpackets p (hnew ▸ hp)).1 hempty
          · rw [← hmtu, ← fills_capped (call.info iface).bandwidthMetric, ← hleft]
            refine hok.fills ⟨?_, fun p hp => (hpackets p (hnew ▸ hp)).1, fun p hp => ?_⟩
            · rw [hleft, ← hnew]
              exact forall₂_isOption_capped.mpr hopts
            · rw [hmtu]
              exact (hpackets p (hnew ▸ hp)).2
    · rintro (h | hnone | h | ⟨version, hversion, hne, hfills⟩)
      · exact absurd h hsilent
      · refine ⟨0, call.start iface nextSeq, ?_, fun _ => ⟨?_, fun p hp => by cases hp⟩⟩
        · rw [(hrun 0).2 hquiet, hnone]
          rfl
        · rw [hnone]
          exact fun version h => by cases h
      · exact absurd (.inr h) hquiet
      · rw [← hmtu, ← fills_capped (call.info iface).bandwidthMetric, ← hleft] at hfills
        obtain ⟨fuel, s', new, hloop, hpackets, hformat, hdelivered⟩ :=
          versionedLoop_delivers hmark _ true (Nat.zero_le _) rfl
            (by rw [hleft]; exact mt List.map_eq_nil_iff.mp hne) hfills
        have hnew : s'.packets = new := hpackets
        refine ⟨fuel, s', ?_, fun _ => ⟨fun v hv => ?_, fun p hp => ?_⟩⟩
        · rw [(hrun fuel).2 hquiet, hversion, sendVersions, hloop]
          rfl
        · rw [hversion, List.mem_singleton] at hv
          subst hv
          rw [hnew, List.filter_eq_self.mpr (by simpa using hformat)]
          exact forall₂_isOption_capped.mp (hleft ▸ hdelivered.carried)
        · rw [hnew] at hp
          exact ⟨hdelivered.nonempty p hp, hmtu ▸ hdelivered.bounded p hp⟩

def twoFormats : SendInterface where
  nextHopSelf := false
  ifaceAddress := 0
  af := .IPv4
  mtu := 1500
  bandwidth := 1000000000
  interfaceKey := 1
  neighbors := 2
  tlvTypes := [.LEGACY_V4, .WIDE]

def ringFrames : Frames where
  size := 2016
  payload _ := List.replicate 2016 0
  length_payload _ := List.length_replicate

def internalRoute : TopologyRoute where
  routeInfo := { ipPrefix := ⟨ofV4 0x0A010100, 24⟩, bandwidth := 1000000 }
  routeType := .INTERNAL
  external := rfl

/-- The route fills a packet of either format; the second one is sent without it. -/
theorem second_format_has_no_routes :
    (∀ version ∈ twoFormats.tlvTypes, Fills twoFormats ringFrames twoFormats.mtu version
      [internalRoute.routeInfo]) ∧
    ¬ Packetised twoFormats ringFrames 1 (.update none [internalRoute]) := by
  constructor
  · intro version hversion
    refine ⟨0, rfl, packs_head_cons.mpr ?_⟩
    rcases List.mem_cons.mp hversion with rfl | hversion
    · exact ⟨by decide, by decide, by decide, by decide, trivial⟩
    · rw [List.mem_singleton.mp hversion]
      exact ⟨by decide, by decide, by decide, by decide, trivial⟩
  · rintro ⟨fuel, s, hs, hlaw⟩
    have hsilent : ¬ silent twoFormats (.update none [internalRoute]) := by
      rintro (h | h) <;> cases h
    have hrun : run twoFormats ringFrames 1 fuel (.update none [internalRoute]) =
        sendVersions twoFormats ringFrames (pktInfo twoFormats 0) (markUpdate none) fuel
          [.LEGACY_V4, .WIDE] (startSending 1 [internalRoute]) := rfl
    rw [hrun] at hs
    obtain ⟨p, hp, hempty⟩ :=
      sendVersions_two (marks_markUpdate none) (Nat.zero_le _) hs
    exact ((hlaw hsilent).2 p hp).1 hempty

end SendCall

end VirtualRouter.Eigrp
