/-
  What a packet of EIGRP updates carries.

  A packet takes the routes in order, up to the first whose option does not fit
  into what is left of it; that one is written all the same, behind the bytes that
  the options may use, or to a null pointer if fewer than four of them are left.

  * `parseEigrpOptions_flatMap`: the bytes of options are parsed into them;
  * `appendRoutes_whole`: over a whole buffer the loop is that of `TLV16BufferManager`;
  * `FrameTLVs.Carries`: the options in a packet, as a receiver parses them;
  * `IsOption`: an option that the encoder writes for a route;
  * `Packs`: options of given sizes fill packets one behind the other;
  * `appendRoutes_cases`: what one packet takes;
  * `leadingTLVs_leading`: what stands in front of the routes.
-/
import VirtualRouter.Eigrp.TLVBounds
import VirtualRouter.Eigrp.ReliableTX

namespace VirtualRouter.Eigrp

open Bytes Utils VirtualRouter.Types

/-! ## Options that are parsed -/

def TLV16Option.Sized (opt : TLV16Option) : Prop := opt.length.toNat = opt.bytes.length

theorem TLV16Option.length_bytes (opt : TLV16Option) : opt.bytes.length = 4 + opt.value.length := by
  simp only [bytes, List.length_append, length_writeU16]
  omega

theorem parseEigrpOptions_bytes_append {opt : TLV16Option} (h : opt.Sized) (rest : List UInt8) :
    parseEigrpOptions (opt.bytes ++ rest) =
      ((parseEigrpOptions rest).1, opt :: (parseEigrpOptions rest).2) := by
  obtain ⟨type, length, value⟩ := opt
  have hlen : length.toNat = 4 + value.length := h.trans (TLV16Option.length_bytes _)
  have htype : readU16 (ofList [(type >>> 8).toUInt8, type.toUInt8]) = type :=
    readU16_holds (holds_ofList _)
  have hlength : readU16 (ofList [(length >>> 8).toUInt8, length.toUInt8]) = length :=
    readU16_holds (holds_ofList _)
  have hge : ¬ length < 4 := by
    rw [UInt16.lt_iff_toNat_lt, hlen]
    exact not_lt.mpr (Nat.le_add_right 4 _)
  have hvalue : length.toNat - 4 = value.length := by omega
  simp only [TLV16Option.bytes, writeU16, List.cons_append, List.nil_append]
  rw [parseEigrpOptions]
  simp only [htype, hlength, hvalue]
  rw [if_neg (not_or.mpr ⟨hge, by rw [List.length_append]; omega⟩), List.drop_left, List.take_left]

/-- **Round trip**: the bytes of options are parsed into them. -/
theorem parseEigrpOptions_flatMap {opts : List TLV16Option} (h : ∀ opt ∈ opts, opt.Sized) :
    parseEigrpOptions (opts.flatMap TLV16Option.bytes) = (true, opts) := by
  induction opts with
  | nil => rw [List.flatMap_nil, parseEigrpOptions.eq_def]; rfl
  | cons opt opts ih =>
    rw [List.forall_mem_cons] at h
    rw [List.flatMap_cons, parseEigrpOptions_bytes_append h.1, ih h.2]

/-! ## The options in a packet -/

/-- The manager over a whole buffer. -/
def TLV16BufferManager.whole (tlv : TLV16BufferManager) : FrameTLVs :=
  ⟨tlv.buffer, tlv.buffer.length, tlv.offset⟩

theorem append_whole (tlv : TLV16BufferManager) (type length : UInt16) (valueSize : ℕ) :
    tlv.whole.append type length valueSize =
      .ok ((tlv.append type length valueSize).map TLV16BufferManager.whole) := by
  unfold FrameTLVs.append TLV16BufferManager.append
  change (if tlv.offset + 4 + valueSize > tlv.maxSize then _ else _) = _
  split_ifs with hfull
  · rfl
  · have hheader : (writeU16 type ++ writeU16 length).length = 4 := by
      rw [List.length_append, length_writeU16, length_writeU16]
    have hroom : tlv.offset + 4 + valueSize ≤ tlv.buffer.length := not_lt.mp hfull
    simp only [TLV16BufferManager.whole]
    rw [writeAt, hheader, if_pos (by omega), ok_bind, Option.map_some, TLV16BufferManager.whole]
    simp only [List.length_append, List.length_take, List.length_drop, length_writeU16, pure, Except.pure]
    congr 3
    omega

section
variable {iface : EigrpInterface} {bw delay : UInt64} {version : TLVType}

theorem appendRoute_whole {tlv : TLV16BufferManager} {r : ReceivedRoute}
    (hcall : CallFits version tlv.buffer.length tlv.offset r) :
    tlv.whole.appendRoute iface bw delay version r =
      (appendRoute iface bw delay version tlv r).map fun a => ⟨a.tlv.whole, a.route, a.appended⟩ := by
  obtain ⟨e, he, hkept⟩ : ∃ e, encodeNext iface bw delay version tlv r = .ok e ∧
      e.buffer.length = tlv.buffer.length := by
    rcases encodeNext_cases iface bw delay hcall.1 with
      ⟨-, data, -, hat, hnext⟩ | ⟨-, buffer, -, hkept, hnext⟩
    · exact ⟨_, hnext, hat.buffer⟩
    · exact ⟨_, hnext, hkept⟩
  have hencode : tlv.whole.encodeNext iface bw delay version r = .ok e := he
  have hwhole : { tlv.whole with buffer := e.buffer } = { tlv with buffer := e.buffer }.whole := by
    rw [TLV16BufferManager.whole, TLV16BufferManager.whole, hkept]
  rw [FrameTLVs.appendRoute, appendRoute, hencode, he, ok_bind, ok_bind]
  simp only [hwhole, append_whole, ok_bind]
  split_ifs with hzero
  · rfl
  · cases TLV16BufferManager.append { tlv with buffer := e.buffer } (routeOptionType version r)
      (e.length.toUInt16 + 4) e.length.toNat <;> rfl

/-- **One loop**: over a whole buffer the packets fill as the manager of the options does. -/
theorem appendRoutes_whole {routes : List ReceivedRoute} {tlv : TLV16BufferManager}
    (h : AppendFits version tlv.buffer.length tlv.offset routes) :
    tlv.whole.appendRoutes iface bw delay version routes =
      (appendRoutes iface bw delay version tlv routes).map fun a =>
        ⟨a.tlv.whole, a.routes, a.appended⟩ := by
  induction routes generalizing tlv with
  | nil => rfl
  | cons r routes ih =>
    obtain ⟨hcall, hrest⟩ := h
    obtain ⟨a, ha, happended, hnext⟩ := appendRoute_of_fits iface bw delay hcall
    rw [FrameTLVs.appendRoutes, appendRoutes, appendRoute_whole hcall, ha, ok_bind, Except.map, ok_bind]
    simp only
    split_ifs with hgoes
    · rw [ih (by rw [(hnext hgoes).1, (hnext hgoes).2]; exact hrest (happended.mp hgoes))]
      cases appendRoutes iface bw delay version a.tlv routes <;> rfl
    · rfl

end

/-- The manager has `mem` bytes behind the header, may use `len` of them and has written `opts`. -/
structure FrameTLVs.Carries (mem len : ℕ) (opts : List TLV16Option) (tlv : FrameTLVs) : Prop where
  buffer : tlv.buffer.length = mem
  len : tlv.len = len
  offset : tlv.offset = (opts.flatMap TLV16Option.bytes).length
  span : tlv.getSpan = opts.flatMap TLV16Option.bytes
  sized : ∀ opt ∈ opts, opt.Sized

namespace FrameTLVs.Carries

variable {mem len : ℕ} {opts : List TLV16Option} {tlv : FrameTLVs}

theorem kept (h : tlv.Carries mem len opts) {buffer : List UInt8} {start : ℕ}
    (hstart : tlv.offset ≤ start) (hlen : buffer.length = tlv.buffer.length)
    (hkept : buffer.take start = tlv.buffer.take start) :
    Carries mem len opts { tlv with buffer } := by
  refine { h with buffer := hlen.trans h.buffer, span := ?_ }
  have htake := congrArg (List.take tlv.offset) hkept
  rw [List.take_take, List.take_take, Nat.min_eq_left hstart] at htake
  exact htake.trans h.span

theorem append (h : tlv.Carries mem len opts) (type : UInt16) {length : UInt16} {n : ℕ}
    (hlength : length.toNat = 4 + n) (hmem : tlv.offset + 4 + n ≤ mem)
    (hlen : tlv.offset + 4 + n ≤ len) :
    ∃ after, tlv.append type length n = .ok (some after) ∧
      after.Carries mem len
        (opts ++ [⟨type, length, (tlv.buffer.drop (tlv.offset + 4)).take n⟩]) ∧
      after.offset = tlv.offset + 4 + n := by
  have hbuffer := h.buffer
  have hvalue : ((tlv.buffer.drop (tlv.offset + 4)).take n).length = n := by
    rw [List.length_take, List.length_drop]
    omega
  have hwrite : writeAt EncodeStop.outside tlv.buffer tlv.offset (writeU16 type ++ writeU16 length) =
      .ok (tlv.getSpan ++ (writeU16 type ++ writeU16 length) ++ tlv.buffer.drop (tlv.offset + 4)) :=
    if_pos (show tlv.offset + 4 ≤ tlv.buffer.length by omega)
  have hspan : tlv.getSpan.length = tlv.offset := by
    rw [getSpan, List.length_take]
    omega
  refine ⟨{ tlv with
    buffer := tlv.getSpan ++ (writeU16 type ++ writeU16 length) ++ tlv.buffer.drop (tlv.offset + 4)
    offset := tlv.offset + 4 + n }, ?_, ?_, rfl⟩
  · rw [FrameTLVs.append, if_neg (by rw [h.len]; omega), hwrite]
    rfl
  · have hbytes : (opts ++ ([⟨type, length, (tlv.buffer.drop (tlv.offset + 4)).take n⟩] :
        List TLV16Option)).flatMap TLV16Option.bytes = tlv.getSpan ++ (writeU16 type ++ writeU16 length) ++
          (tlv.buffer.drop (tlv.offset + 4)).take n := by
      rw [List.flatMap_append, ← h.span, List.flatMap_cons, List.flatMap_nil, TLV16Option.bytes]
      simp only [List.append_assoc, List.append_nil]
    constructor
    · simp only [List.length_append, hspan, List.length_drop, length_writeU16]
      omega
    · exact h.len
    · rw [hbytes]
      simp only [List.length_append, hspan, hvalue, length_writeU16]
    · rw [hbytes, getSpan]
      have hhead : (tlv.getSpan ++ (writeU16 type ++ writeU16 length)).length = tlv.offset + 4 := by
        simp only [List.length_append, hspan, length_writeU16]
      rw [← hhead, List.take_length_add_append]
    · intro opt hopt
      rcases List.mem_append.mp hopt with hopt | hopt
      · exact h.sized opt hopt
      · rw [List.mem_singleton.mp hopt, TLV16Option.Sized, TLV16Option.length_bytes, hvalue]
        exact hlength

theorem append_none (h : tlv.Carries mem len opts) {type length : UInt16} {n : ℕ}
    (hlen : len < tlv.offset + 4 + n) : tlv.append type length n = .ok none :=
  if_pos (by rw [h.len]; exact hlen)

theorem getNextValBuf (h : tlv.Carries mem len opts) {size : ℕ} (hle : tlv.offset + 4 + size ≤ len) :
    tlv.getNextValBuf size = some (tlv.offset + 4) :=
  if_neg (by rw [h.len]; exact not_lt.mpr hle)

theorem getNextValBuf_none (h : tlv.Carries mem len opts) {size : ℕ}
    (hlt : len < tlv.offset + 4 + size) : tlv.getNextValBuf size = none :=
  if_pos (by rw [h.len]; exact hlt)

theorem writeValue (h : tlv.Carries mem len opts) {out : ℕ} (bytes : List UInt8)
    (hout : tlv.offset ≤ out) (hmem : out + bytes.length ≤ mem) :
    ∃ after, tlv.writeValue (some out) bytes = .ok after ∧ after.Carries mem len opts := by
  have hbuffer := h.buffer
  have hwrite : writeAt EncodeStop.outside tlv.buffer out bytes =
      .ok (tlv.buffer.take out ++ bytes ++ tlv.buffer.drop (out + bytes.length)) :=
    if_pos (by omega)
  refine ⟨_, by rw [FrameTLVs.writeValue, hwrite]; rfl, h.kept hout ?_ ?_⟩
  · simp only [List.length_append, List.length_take, List.length_drop]
    omega
  · have htake : (tlv.buffer.take out).length = out := by
      rw [List.length_take]
      omega
    rw [List.append_assoc, List.take_append_of_le_length htake.ge, List.take_take, min_self]

theorem writeValue_outside (h : tlv.Carries mem len opts) {out : ℕ} {bytes : List UInt8}
    (hmem : mem < out + bytes.length) : tlv.writeValue (some out) bytes = .error .outside := by
  have hwrite : writeAt EncodeStop.outside tlv.buffer out bytes = .error .outside :=
    if_neg (by rw [h.buffer]; omega)
  rw [FrameTLVs.writeValue, hwrite]
  rfl

theorem parse (h : tlv.Carries mem len opts) : parseEigrpOptions tlv.getSpan = (true, opts) := by
  rw [h.span, parseEigrpOptions_flatMap h.sized]

end FrameTLVs.Carries

/-! ## A route -/

/-- The route as the encoder leaves it. -/
def capped (bw : UInt64) (r : ReceivedRoute) : ReceivedRoute :=
  { r with bandwidth := min r.bandwidth bw }

def optionSize (version : TLVType) (r : ReceivedRoute) : ℕ :=
  encodedSize r (routeOptionType version r)

/-- The encoder stays in the frame, if the option passes its checks. -/
abbrev Written (len mem off size : ℕ) : Prop := off + 4 ≤ len ∧ off + 4 + size ≤ mem

section
variable (iface : EigrpInterface) (bw delay : UInt64) (version : TLVType)

/-- The option has the bytes that the encoder writes for the route, in some buffer. -/
def IsOption (r : ReceivedRoute) (opt : TLV16Option) : Prop :=
  opt.type = routeOptionType version r ∧
    ∃ buffer start maxSize data, start ≤ maxSize ∧
      encodeValue iface (encodeStart buffer (some start) maxSize r) r bw delay
        (routeOptionType version r) = .ok data ∧
      opt.value = (data.buffer.drop start).take data.offset

end

section
variable {iface : EigrpInterface} {bw delay : UInt64} {version : TLVType} {r : ReceivedRoute}

theorem min_min_right (a b : UInt64) : min (min a b) b = min a b := by
  show (if (if a ≤ b then a else b) ≤ b then (if a ≤ b then a else b) else b) = if a ≤ b then a else b
  split_ifs <;> simp_all

theorem capped_capped : capped bw (capped bw r) = capped bw r :=
  congrArg (fun bandwidth => { r with bandwidth }) (min_min_right r.bandwidth bw)

theorem encodeValue_capped {data : OutData} {type : UInt16} :
    encodeValue iface data (capped bw r) bw delay type = encodeValue iface data r bw delay type := by
  have hmin : min (capped bw r).bandwidth bw = min r.bandwidth bw := min_min_right r.bandwidth bw
  rw [encodeValue, encodeValue, hmin]
  rfl

theorem isOption_capped {opt : TLV16Option} :
    IsOption iface bw delay version (capped bw r) opt ↔ IsOption iface bw delay version r opt := by
  simp only [IsOption, encodeValue_capped]
  rfl

theorem room_pos_iff {mem len start size : ℕ} (hpos : 0 < size) :
    size ≤ room mem len start ↔ start ≤ len ∧ start + size ≤ mem := by
  rw [room]
  split_ifs <;> omega

theorem IsOption.length_value {opt : TLV16Option} (h : IsOption iface bw delay version r opt) :
    opt.value.length = optionSize version r := by
  obtain ⟨-, buffer, start, maxSize, data, hstart, hdata, hvalue⟩ := h
  have hptr : (if start > maxSize then none else some start) = some start := if_neg (not_lt.mpr hstart)
  have hfollows := encodeValue_follows iface r bw delay (routeOptionType version r)
    (@encodeStart_at r buffer maxSize start)
  rw [hptr, hdata] at hfollows
  have hfit := (hfollows.inside_iff fun _ => Refused.ne_outside).mp (inside_ok _)
  rcases hfollows.ok_or_refused hfit with ⟨hpass, data', hok, hat⟩ | ⟨-, e, -, herror⟩
  · obtain rfl := Except.ok.inj hok
    have hle := (room_pos_iff encodedSize_pos).mp (encodedSize_le hfit hpass)
    rw [hvalue, List.length_take, List.length_drop, hat.offset, hat.buffer]
    exact Nat.min_eq_left (by omega)
  · cases herror

variable {mem len : ℕ} {opts : List TLV16Option} {tlv : FrameTLVs}

theorem fits_iff_written {off : ℕ} (hpass : Passes len (encodeBlocks r (routeOptionType version r))) :
    Fits len (room mem len (off + 4)) (encodeBlocks r (routeOptionType version r)) ↔
      Written len mem off (optionSize version r) := by
  rw [hpass.fits_iff, last_encodeBlocks_iff, room_pos_iff encodedSize_pos]
  rfl

/-- What a round of `appendRoutes` comes to: a write outside, the end of the packet, or an option. -/
inductive Round (iface : EigrpInterface) (bw delay : UInt64) (version : TLVType) (mem len : ℕ)
    (opts : List TLV16Option) (off : ℕ) (r : ReceivedRoute) : Except EncodeStop FrameAttempt → Prop
  | outside
      (hwritten : optionSize version r ≤ len + 1 → ¬ Written len mem off (optionSize version r)) :
      Round iface bw delay version mem len opts off r (.error .outside)
  | full {a : FrameAttempt} (happended : a.appended = false) (hroute : capped bw a.route = capped bw r)
      (htlv : a.tlv.Carries mem len opts)
      (hwritten : optionSize version r ≤ len + 1 → Written len mem off (optionSize version r))
      (hfull : optionSize version r ≤ 255 → len < off + 4 + optionSize version r) :
      Round iface bw delay version mem len opts off r (.ok a)
  | option {a : FrameAttempt} {opt : TLV16Option} (happended : a.appended = true)
      (hroute : capped bw a.route = capped bw r) (htlv : a.tlv.Carries mem len (opts ++ [opt]))
      (htype : opt.type = routeOptionType version r)
      (hwritten : Written len mem off (optionSize version r))
      (hopt : IsOption iface bw delay version r opt ↔ optionSize version r ≤ 255)
      (hnext : optionSize version r ≤ 255 → a.tlv.offset = off + 4 + optionSize version r ∧
        off + 4 + optionSize version r ≤ len) :
      Round iface bw delay version mem len opts off r (.ok a)

variable (iface bw delay version r) in
/-- **One round.** -/
theorem appendRoute_round (h : tlv.Carries mem len opts) :
    Round iface bw delay version mem len opts tlv.offset r
      (tlv.appendRoute iface bw delay version r) := by
  obtain rfl := h.len
  have hptr : tlv.encodeNext iface bw delay version r =
      encodeRouteOption iface tlv.buffer
        (if tlv.offset + 4 > tlv.len then none else some (tlv.offset + 4)) tlv.len r bw delay
        (routeOptionType version r) := rfl
  rw [FrameTLVs.appendRoute, hptr]
  by_cases hfit : Fits tlv.len (room tlv.buffer.length tlv.len (tlv.offset + 4))
      (encodeBlocks r (routeOptionType version r))
  · rcases encodeRouteOption_cases iface bw delay hfit with
      ⟨hpass, data, hdata, hat, hnext⟩ | ⟨hpass, after, -, ⟨hlength, hkept⟩, hnext⟩
    · rw [h.buffer] at hfit
      have hwritten := (fits_iff_written hpass).mp hfit
      have htlv := h.kept (Nat.le_add_right _ 4) hat.buffer hat.kept
      have hmod : data.offset.toUInt8.toNat = optionSize version r % 256 := by
        rw [hat.offset, Nat.toUInt8_eq, UInt8.toNat_ofNat']
        rfl
      rw [hnext, ok_bind]
      by_cases hzero : data.offset.toUInt8 = 0
      · simp only [if_pos hzero]
        refine .full rfl capped_capped htlv (fun _ => hwritten) fun hle => ?_
        have hpos : 0 < optionSize version r := encodedSize_pos
        rw [hzero, Nat.mod_eq_of_lt (by omega)] at hmod
        exact absurd hmod hpos.ne
      · simp only [if_neg hzero]
        by_cases hroom : tlv.offset + 4 + data.offset.toUInt8.toNat ≤ tlv.len
        · have hlen4 : (data.offset.toUInt8.toUInt16 + 4).toNat = 4 + data.offset.toUInt8.toNat := by
            have := data.offset.toUInt8.toNat_lt
            rw [UInt16.toNat_add, UInt8.toNat_toUInt16]
            simp only [UInt16.reduceToNat]
            omega
          have hle := Nat.mod_le (optionSize version r) 256
          have hmem := hwritten.2
          obtain ⟨next, happend, hcarries, hoffset⟩ :=
            FrameTLVs.Carries.append htlv (routeOptionType version r) hlen4
              (show tlv.offset + 4 + _ ≤ mem by omega) hroom
          rw [happend, ok_bind]
          refine .option rfl capped_capped hcarries rfl hwritten ⟨fun hopt => ?_, fun hle => ?_⟩
            fun hle => ?_
          · have hvalue := hopt.length_value
            rw [List.length_take, hmod] at hvalue
            omega
          · refine ⟨rfl, tlv.buffer, tlv.offset + 4, tlv.len, data, hwritten.1, ?_, ?_⟩
            · rwa [if_neg (not_lt.mpr hwritten.1)] at hdata
            · rw [hmod, hat.offset, Nat.mod_eq_of_lt (Nat.lt_succ_of_le hle)]
              rfl
          · rw [hmod, Nat.mod_eq_of_lt (Nat.lt_succ_of_le hle)] at hoffset hroom
            exact ⟨hoffset, hroom⟩
        · rw [FrameTLVs.Carries.append_none htlv (not_le.mp hroom), ok_bind]
          refine .full rfl capped_capped htlv (fun _ => hwritten) fun hle => ?_
          rw [hmod, Nat.mod_eq_of_lt (Nat.lt_succ_of_le hle)] at hroom
          exact not_le.mp hroom
    · rw [hnext, ok_bind]
      have hlarge := mt passes_encodeBlocks_iff.mpr hpass
      refine .full rfl rfl (h.kept (Nat.le_add_right _ 4) hlength hkept)
        (fun hle => absurd hle hlarge) fun _ => ?_
      rw [optionSize]
      omega
  · have houtside : encodeRouteOption iface tlv.buffer
        (if tlv.offset + 4 > tlv.len then none else some (tlv.offset + 4)) tlv.len r bw delay
        (routeOptionType version r) = .error .outside :=
      by_contra fun hinside => hfit (inside_encodeRouteOption_iff.mp hinside)
    rw [houtside]
    refine .outside fun hle hwritten => hfit ?_
    rw [h.buffer]
    exact (fits_iff_written (passes_encodeBlocks_iff.mpr hle)).mpr hwritten

end

/-! ## A packet -/

/-- The room of a packet: the bytes of the frame behind the header, those that the options may use,
    those in front of the routes, and those that the MTU allows. -/
structure Window where
  mem : ℕ
  len : ℕ
  head : ℕ
  limit : ℕ

/-- Options of these sizes fill packets from an offset on: each is written inside the frame and has
    at most 255 bytes, and ends in its packet or in the next one, which it opens. -/
def Packs (w : Window) : ℕ → List ℕ → Prop
  | _, [] => True
  | off, size :: sizes =>
    Written w.len w.mem off size ∧ size ≤ 255 ∧
      if off + 4 + size ≤ w.len then off + 4 + size ≤ w.limit ∧ Packs w (off + 4 + size) sizes
      else
        Written w.len w.mem w.head size ∧ w.head + 4 + size ≤ w.len ∧
          w.head + 4 + size ≤ w.limit ∧ Packs w (w.head + 4 + size) sizes

section
variable {w : Window} {off size : ℕ} {sizes : List ℕ}

theorem packs_head_cons : Packs w w.head (size :: sizes) ↔
    Written w.len w.mem w.head size ∧ size ≤ 255 ∧ w.head + 4 + size ≤ w.len ∧
      w.head + 4 + size ≤ w.limit ∧ Packs w (w.head + 4 + size) sizes := by
  rw [Packs]
  split_ifs with h
  · simp only [h, true_and]
  · simp only [h, false_and, and_false]

theorem packs_cons_of_le (h : off + 4 + size ≤ w.len) : Packs w off (size :: sizes) ↔
    Written w.len w.mem off size ∧ size ≤ 255 ∧ off + 4 + size ≤ w.limit ∧
      Packs w (off + 4 + size) sizes := by
  rw [Packs, if_pos h]

theorem packs_cons_of_lt (h : w.len < off + 4 + size) : Packs w off (size :: sizes) ↔
    Written w.len w.mem off size ∧ Packs w w.head (size :: sizes) := by
  rw [Packs, if_neg (not_le.mpr h), packs_head_cons]
  tauto

theorem Packs.size_le (h : Packs w off (size :: sizes)) : size ≤ w.len := by
  by_cases hle : off + 4 + size ≤ w.len
  · omega
  · have := (packs_head_cons.mp ((packs_cons_of_lt (not_le.mp hle)).mp h).2).2.2.1
    omega

end

def routeTypes : List UInt16 := [0x0102, 0x0103, 0x0402, 0x0403, 0x0602, 0x0603]

theorem routeOptionType_mem (version : TLVType) (r : ReceivedRoute) :
    routeOptionType version r ∈ routeTypes := by
  rw [routeOptionType]
  split_ifs <;> cases version <;> decide

/-! ## The options in front of the routes -/

section
variable (iface : SendInterface)

def keyRefused : Bool :=
  iface.authType = .SHA256 ∧ iface.keychain.any fun key => key.isEmpty ∨ key.length > 32

/-- The bytes of the authentication option; `none` if it leaves the frame. -/
def authSize (mem len : ℕ) : Option ℕ :=
  if iface.authType = .NONE ∨ len < 56 then some 0
  else if mem < 24 + digestLen iface.authType then none
  else if keyRefused iface then some 0 else some (24 + digestLen iface.authType)

/-- Where the stub option ends that begins at `off`. -/
def stubEnd (mem len off : ℕ) : Option ℕ :=
  if iface.stubEnabled then
    if len < off + 4 ∨ mem < off + 6 then none else some (if len < off + 6 then off else off + 6)
  else some off

def headSize (mem len : ℕ) : Option ℕ := (authSize iface mem len).bind (stubEnd iface mem len)

end

/-- What the options in front of the routes come to, `size` being where they should end. -/
inductive Leading (mem len : ℕ) : Option ℕ → Except EncodeStop FrameTLVs → Prop
  | outside : Leading mem len none (.error .outside)
  | ok {tlv : FrameTLVs} {opts : List TLV16Option} (htlv : tlv.Carries mem len opts)
      (htypes : ∀ opt ∈ opts, opt.type ∉ routeTypes) : Leading mem len (some tlv.offset) (.ok tlv)

section
variable {iface : SendInterface} {mem len : ℕ} {tlv : FrameTLVs} {opts : List TLV16Option}

theorem length_authValue (authType : AuthType) :
    (authValue authType).length = 20 + digestLen authType := by
  simp only [authValue, List.length_append, length_writeU16, List.length_replicate]
  omega

theorem buildAuthTLV_cases (h : tlv.Carries mem len opts) {out : ℕ} (hout : tlv.offset ≤ out)
    (hauth : iface.authType ≠ .NONE) :
    (mem < out + (20 + digestLen iface.authType) ∧ buildAuthTLV iface tlv out = .error .outside) ∨
    (out + (20 + digestLen iface.authType) ≤ mem ∧
      ∃ after, buildAuthTLV iface tlv out =
          .ok (after, if keyRefused iface then 0 else 20 + digestLen iface.authType) ∧
        after.Carries mem len opts) := by
  rw [buildAuthTLV, if_neg hauth]
  rcases lt_or_ge mem (out + (20 + digestLen iface.authType)) with hmem | hmem
  · refine .inl ⟨hmem, ?_⟩
    rw [h.writeValue_outside (by rwa [length_authValue])]
    rfl
  · refine .inr ⟨hmem, ?_⟩
    obtain ⟨after, hafter, hcarries⟩ :=
      h.writeValue (authValue iface.authType) hout (by rwa [length_authValue])
    have hoffset : after.offset = tlv.offset := hcarries.offset.trans h.offset.symm
    rw [hafter, ok_bind]
    by_cases hsha : iface.authType = .SHA256
    · rw [if_pos hsha]
      cases hkey : iface.keychain with
      | none => exact ⟨after, by simp [keyRefused, hkey]; rfl, hcarries⟩
      | some key =>
        by_cases hbad : key.isEmpty ∨ key.length > 32
        · refine ⟨after, ?_, hcarries⟩
          have hrefused : keyRefused iface = true := by simpa [keyRefused, hsha, hkey] using hbad
          simp only [if_pos hbad, hrefused, if_true]
          rfl
        · have hkept : keyRefused iface = false := by simpa [keyRefused, hsha, hkey] using hbad
          have hsize : digestLen iface.authType = 32 := by rw [hsha]; rfl
          have hshort : key.length ≤ 32 := not_lt.mp (not_or.mp hbad).2
          obtain ⟨last, hlast, hcarried⟩ :=
            hcarries.writeValue key (show after.offset ≤ out + 20 by omega) (by omega)
          refine ⟨last, ?_, hcarried⟩
          simp only [if_neg hbad, hlast, ok_bind, hkept]
          rfl
    · rw [if_neg hsha]
      exact ⟨after, by simp [keyRefused, hsha]; rfl, hcarries⟩

theorem digestLen_le (authType : AuthType) : digestLen authType ≤ 32 := by
  cases authType <;> decide

variable (iface) in
theorem appendAuthTLV_leading (h : tlv.Carries mem len []) :
    Leading mem len (authSize iface mem len) (appendAuthTLV iface tlv) := by
  have hoff : tlv.offset = 0 := h.offset
  have hstart : Leading mem len (some 0) (.ok tlv) := by
    rw [← hoff]
    exact .ok h (by simp)
  rw [authSize, appendAuthTLV]
  by_cases hnone : iface.authType = .NONE
  · rwa [if_pos (.inl hnone), if_pos hnone]
  · rw [if_neg hnone]
    by_cases hroom : len < 56
    · rw [if_pos (.inr hroom), h.getNextValBuf_none (by omega)]
      exact hstart
    · rw [if_neg (by tauto), h.getNextValBuf (by omega)]
      have hdigest := digestLen_le iface.authType
      rcases buildAuthTLV_cases h (Nat.le_add_right _ 4) hnone with
        ⟨hmem, hbuild⟩ | ⟨hmem, after, hbuild, hcarries⟩
      · rw [if_pos (by omega)]
        simp only [hbuild]
        exact .outside
      · have hafter : after.offset = 0 := hcarries.offset
        rw [if_neg (by omega)]
        simp only [hbuild, ok_bind]
        by_cases hrefused : keyRefused iface = true
        · simp only [if_pos hrefused, if_true]
          rw [← hafter]
          exact .ok hcarries (by simp)
        · have hlength : (20 + digestLen iface.authType + 4).toUInt16.toNat =
              4 + (20 + digestLen iface.authType) := by
            rw [Nat.toUInt16_eq, UInt16.toNat_ofNat']
            omega
          obtain ⟨next, hnext, hcarried, hend⟩ := hcarries.append 2 hlength (by omega) (by omega)
          simp only [if_neg hrefused]
          rw [if_neg (by omega), hnext, ok_bind,
            show 24 + digestLen iface.authType = next.offset by omega]
          refine .ok hcarried fun opt hopt => ?_
          rw [List.mem_singleton.mp hopt]
          exact show (2 : UInt16) ∉ routeTypes by decide

theorem appendStubTLV_leading (h : tlv.Carries mem len opts)
    (htypes : ∀ opt ∈ opts, opt.type ∉ routeTypes) :
    Leading mem len (stubEnd iface mem len tlv.offset) (appendStubTLV iface tlv) := by
  rw [stubEnd, appendStubTLV]
  by_cases hstub : iface.stubEnabled = true
  · rw [if_pos hstub, if_pos hstub]
    have hbytes : (writeU16 (stubFlags iface.stub)).length = 2 := rfl
    by_cases hnull : len < tlv.offset + 4
    · rw [if_pos (.inl hnull), h.getNextValBuf_none (by omega)]
      exact .outside
    · rw [h.getNextValBuf (by omega)]
      by_cases hmem : mem < tlv.offset + 6
      · rw [if_pos (.inr hmem), h.writeValue_outside (by rw [hbytes]; omega)]
        exact .outside
      · rw [if_neg (by tauto)]
        obtain ⟨after, hafter, hcarries⟩ := h.writeValue (writeU16 (stubFlags iface.stub))
          (Nat.le_add_right _ 4) (by rw [hbytes]; omega)
        have hoffset : after.offset = tlv.offset := hcarries.offset.trans h.offset.symm
        rw [hafter, ok_bind]
        by_cases hroom : len < tlv.offset + 6
        · rw [if_pos hroom, hcarries.append_none (by omega), ok_bind, ← hoffset]
          exact .ok hcarries htypes
        · obtain ⟨next, hnext, hcarried, hend⟩ :=
            hcarries.append 6 (show (6 : UInt16).toNat = 4 + 2 from rfl) (by omega) (by omega)
          rw [if_neg hroom, hnext, ok_bind, show tlv.offset + 6 = next.offset by omega]
          refine .ok hcarried fun opt hopt => ?_
          rcases List.mem_append.mp hopt with hopt | hopt
          · exact htypes opt hopt
          · rw [List.mem_singleton.mp hopt]
            exact show (6 : UInt16) ∉ routeTypes by decide
  · rw [if_neg hstub, if_neg hstub]
    exact .ok h htypes

variable (iface) in
theorem leadingTLVs_leading (h : tlv.Carries mem len []) :
    Leading mem len (headSize iface mem len) (leadingTLVs iface tlv) := by
  have hauth := appendAuthTLV_leading iface h
  rw [headSize, leadingTLVs]
  generalize authSize iface mem len = size at hauth
  generalize appendAuthTLV iface tlv = x at hauth
  cases hauth with
  | outside => exact .outside
  | ok htlv htypes => exact appendStubTLV_leading htlv htypes

end

section
variable {iface : EigrpInterface} {bw delay : UInt64} {version : TLVType}

/-- What `appendRoutes` does to a packet with the options `opts`: it appends `os`. -/
structure Filled (bw : UInt64) (mem len : ℕ) (opts os : List TLV16Option) (routes : List ReceivedRoute)
    (a : FrameAppended) : Prop where
  tlv : a.tlv.Carries mem len (opts ++ os)
  length : os.length = a.appended
  le : a.appended ≤ routes.length
  routes : a.routes.map (capped bw) = routes.map (capped bw)
  types : ∀ opt ∈ os, opt.type ∈ routeTypes

theorem Filled.offset_le {mem len : ℕ} {opts os : List TLV16Option} {routes : List ReceivedRoute}
    {a : FrameAppended} {tlv : FrameTLVs} (hfilled : Filled bw mem len opts os routes a)
    (h : tlv.Carries mem len opts) :
    tlv.offset ≤ a.tlv.offset ∧ (os = [] → a.tlv.offset = tlv.offset) := by
  rw [hfilled.tlv.offset, h.offset, List.flatMap_append, List.length_append]
  exact ⟨Nat.le_add_right _ _, fun hos => by rw [hos]; rfl⟩

variable (iface bw delay version) in
/-- **One packet**: the routes fill packets from here on iff those that were appended have their
    options, and the others fill packets that they open. -/
theorem appendRoutes_cases (w : Window) (routes : List ReceivedRoute) :
    ∀ {tlv : FrameTLVs} {opts : List TLV16Option}, tlv.Carries w.mem w.len opts →
      (tlv.appendRoutes iface bw delay version routes = .error .outside ∧
        ¬ Packs w tlv.offset (routes.map (optionSize version))) ∨
      ∃ a os, tlv.appendRoutes iface bw delay version routes = .ok a ∧
        Filled bw w.mem w.len opts os routes a ∧
        (∀ r rs, routes = r :: rs → optionSize version r ≤ 255 →
          tlv.offset + 4 + optionSize version r ≤ w.len → os ≠ []) ∧
        (Packs w tlv.offset (routes.map (optionSize version)) ↔
          List.Forall₂ (IsOption iface bw delay version) (routes.take a.appended) os ∧
          (os ≠ [] → a.tlv.offset ≤ w.limit) ∧
          Packs w w.head ((routes.drop a.appended).map (optionSize version))) := by
  induction routes with
  | nil =>
    intro tlv opts h
    refine .inr ⟨⟨tlv, [], 0⟩, [], rfl, ?_, ?_, ?_⟩
    · exact ⟨by rwa [List.append_nil], rfl, le_rfl, rfl, by simp⟩
    · exact fun r rs h => by cases h
    · exact iff_of_true trivial ⟨.nil, fun h => absurd rfl h, trivial⟩
  | cons r routes ih =>
    intro tlv opts h
    have hround := appendRoute_round iface bw delay version r h
    rw [FrameTLVs.appendRoutes, List.map_cons]
    generalize tlv.appendRoute iface bw delay version r = x at hround
    cases hround with
    | outside hwritten =>
      refine .inl ⟨rfl, fun hpacks => hwritten ?_ ?_⟩
      · exact hpacks.size_le.trans (Nat.le_succ _)
      · exact hpacks.1
    | @full a happended hroute htlv hwritten hfull =>
      refine .inr ⟨⟨a.tlv, a.route :: routes, 0⟩, [], ?_, ?_, ?_, ?_⟩
      · rw [ok_bind, happended]
        rfl
      · exact ⟨by rwa [List.append_nil], rfl, Nat.zero_le _, by rw [List.map_cons, hroute]; rfl, by simp⟩
      · rintro _ _ ⟨⟩ hsmall hle
        exact absurd hle (not_le.mpr (hfull hsmall))
      · constructor
        · intro hpacks
          exact ⟨.nil, fun h => absurd rfl h, ((packs_cons_of_lt (hfull hpacks.2.1)).mp hpacks).2⟩
        · rintro ⟨-, -, hpacks⟩
          have hle := hpacks.size_le.trans (Nat.le_succ _)
          exact (packs_cons_of_lt (hfull (packs_head_cons.mp hpacks).2.1)).mpr ⟨hwritten hle, hpacks⟩
    | @option a opt happended hroute htlv htype hwritten hopt hnext =>
      rw [ok_bind, if_pos happended]
      rcases ih htlv with ⟨hrest, hnot⟩ | ⟨b, os, hrest, hfilled, -, hiff⟩
      · refine .inl ⟨by rw [hrest]; rfl, fun hpacks => hnot ?_⟩
        obtain ⟨hoffset, hle⟩ := hnext hpacks.2.1
        rw [hoffset]
        exact ((packs_cons_of_le hle).mp hpacks).2.2.2
      · refine .inr ⟨⟨b.tlv, a.route :: b.routes, b.appended + 1⟩, opt :: os, by rw [hrest]; rfl, ?_,
          fun _ _ _ _ _ => List.cons_ne_nil _ _, ?_⟩
        · constructor
          · have := hfilled.tlv
            rwa [List.append_assoc] at this
          · rw [List.length_cons, hfilled.length]
          · exact Nat.succ_le_succ hfilled.le
          · rw [List.map_cons, hroute, hfilled.routes, List.map_cons]
          · refine List.forall_mem_cons.mpr ⟨?_, hfilled.types⟩
            rw [htype]
            exact routeOptionType_mem version r
        · rw [List.take_succ_cons, List.drop_succ_cons, List.forall₂_cons]
          have hoffsets := hfilled.offset_le htlv
          constructor
          · intro hpacks
            obtain ⟨hoffset, hle⟩ := hnext hpacks.2.1
            obtain ⟨-, hsmall, hlimit, hpacked⟩ := (packs_cons_of_le hle).mp hpacks
            rw [← hoffset] at hlimit hpacked
            obtain ⟨hopts, hlast, hhead⟩ := hiff.mp hpacked
            refine ⟨⟨hopt.mpr hsmall, hopts⟩, fun _ => ?_, hhead⟩
            by_cases hos : os = []
            · rwa [hoffsets.2 hos]
            · exact hlast hos
          · rintro ⟨⟨hfirst, hopts⟩, hlast, hhead⟩
            have hsmall := hopt.mp hfirst
            obtain ⟨hoffset, hle⟩ := hnext hsmall
            have hlimit := hlast (List.cons_ne_nil _ _)
            refine (packs_cons_of_le hle).mpr ⟨hwritten, hsmall, ?_, ?_⟩
            · exact hoffset ▸ hoffsets.1.trans hlimit
            · exact hoffset ▸ hiff.mpr ⟨hopts, fun _ => hlimit, hhead⟩

end

end VirtualRouter.Eigrp
