/-
  Path attributes from `appendPathAttrs` to `parsePathAttributes`, over a session
  with AS numbers of four bytes, or of two, on both sides.

  The parser has no case for `ATOMIC_AGGREGATE` and for `EXTENDED_COMMUNITIES`, its
  check of an AS path refuses a last segment of fewer than two AS numbers, a next
  hop or an aggregator has room for an IPv4 address only, and the flags and lengths
  of unknown attributes are rewritten on the way.

  * `readAttr_written`, `Decodes.reaches`: attributes that were written are read;
  * `decodes_head`, `decodes_tail`: what they do to the state of the parser;
  * `PathAttribute.Faithful`: the attributes that none of the above concerns;
  * `pathRead_false_iff`: the paths that come back from two bytes and `AS4_PATH`;
  * `attrsRoundTrip_of_faithful`: they come back as they were sent;
  * `faithful_of_attrsRoundTrip`: no others do.  What the parser puts into its state
    costs bytes, and there are none left for what was not sent.
-/
import VirtualRouter.Bgp.As4Merge
import VirtualRouter.Bgp.AttributeCost

namespace VirtualRouter.Bgp

open Bytes Utils

variable {use4 : Bool}

/-! ## An attribute that was written is read -/

section
variable {data rest value : List UInt8} {flags type : UInt8} {pos : ℕ}

theorem readValue_written (h : data.drop pos = value ++ rest) (hpos : pos ≤ data.length) :
    readValue data flags type pos value.length = .ok (⟨flags, type, value⟩, pos + value.length) := by
  have hlen : pos + value.length ≤ data.length := by
    have := congrArg List.length h
    simp only [List.length_drop, List.length_append] at this
    omega
  rw [readValue, if_neg (by omega), subspan_drop h hlen, ok_bind]
  rfl

theorem readAttr_long {len : UInt16} (hflags : flags &&& BGP_ATTR_FLAG_EXTENDED_LENGTH ≠ 0)
    (hlen : len.toNat = value.length) (h : data.drop pos = ([flags, type] ++ writeU16 len) ++ (value ++ rest)) :
    readAttr data pos = .ok (⟨flags, type, value⟩, pos + 4 + value.length) := by
  have hhdr : pos + 4 ≤ data.length := le_of_drop h (by simp)
  obtain ⟨hfirst, hlast⟩ := holds_append.mp (holds_drop h)
  simp only [holds_cons, add_apply, Nat.add_zero] at hfirst
  have hread : readU16 ((ofList data).add (pos + 2)) = len := by
    rw [add_add] at hlast
    exact readU16_holds hlast
  have hvalue : data.drop (pos + 4) = value ++ rest := drop_of_drop h
  rw [readAttr, if_neg (by omega), rd8_ok (by omega), ok_bind, rd8_ok (by omega), ok_bind, hfirst.1,
    hfirst.2.1, if_pos hflags, if_neg (by omega), rdU16_ok (by omega), ok_bind, hread, hlen,
    readValue_written hvalue hhdr]

theorem readAttr_short {len : UInt8} (hflags : flags &&& BGP_ATTR_FLAG_EXTENDED_LENGTH = 0)
    (hlen : len.toNat = value.length) (h : data.drop pos = [flags, type, len] ++ (value ++ rest)) :
    readAttr data pos = .ok (⟨flags, type, value⟩, pos + 3 + value.length) := by
  have hhdr : pos + 3 ≤ data.length := le_of_drop h (by simp)
  have hfirst := holds_drop h
  simp only [holds_cons, add_apply, Nat.add_zero] at hfirst
  have hvalue : data.drop (pos + 3) = value ++ rest := drop_of_drop h
  rw [readAttr, if_neg (by omega), rd8_ok (by omega), ok_bind, rd8_ok (by omega), ok_bind, hfirst.1,
    hfirst.2.1, if_neg (not_not.mpr hflags), if_neg (by omega), rd8_ok (by omega), ok_bind,
    hfirst.2.2.1, hlen, readValue_written hvalue hhdr]

end

def TxAttr.rx (a : TxAttr) : RxAttr :=
  ⟨if a.valueLen > 255 then a.flags ||| BGP_ATTR_FLAG_EXTENDED_LENGTH else a.flags, a.type,
    a.value.flatten⟩

/-- The header says how long the value is. -/
structure TxAttr.Framed (a : TxAttr) : Prop where
  sized : a.Sized
  fits : a.valueLen ≤ 65535
  short : a.valueLen ≤ 255 → a.flags &&& BGP_ATTR_FLAG_EXTENDED_LENGTH = 0

theorem or_extended (flags : UInt8) :
    (flags ||| BGP_ATTR_FLAG_EXTENDED_LENGTH) &&& BGP_ATTR_FLAG_EXTENDED_LENGTH ≠ 0 := by
  revert flags
  exact forall_flags (by decide +kernel)

theorem readAttr_written {a : TxAttr} (h : a.Framed) {data rest : List UInt8} {pos : ℕ}
    (hdata : data.drop pos = a.spans.flatten ++ rest) :
    readAttr data pos = .ok (a.rx, pos + a.spans.flatten.length) := by
  have hsized : a.value.flatten.length = a.valueLen := h.sized
  have hfits := h.fits
  rw [TxAttr.spans, List.flatten_cons, List.append_assoc] at hdata
  rw [TxAttr.rx, TxAttr.spans, List.flatten_cons, List.length_append]
  by_cases hlong : a.valueLen > 255
  · rw [appendAttrHdr, if_pos hlong] at hdata ⊢
    have hlen : (UInt16.ofNat a.valueLen).toNat = a.value.flatten.length := by
      rw [hsized, UInt16.toNat_ofNat_of_lt' (by simp [UInt16.size]; omega)]
    rw [readAttr_long (or_extended _) hlen hdata, if_pos hlong, Nat.add_assoc]
    rfl
  · rw [appendAttrHdr, if_neg hlong] at hdata ⊢
    have hlen : (UInt8.ofNat a.valueLen).toNat = a.value.flatten.length := by
      rw [hsized, UInt8.toNat_ofNat_of_lt' (by simp [UInt8.size]; omega)]
    rw [readAttr_short (h.short (by omega)) hlen hdata, if_neg hlong, Nat.add_assoc]
    rfl

/-! ## Attributes that are decoded -/

/-- The attributes are framed, and take the parser from one state to another. -/
inductive Decodes (use4 : Bool) : List TxAttr → ParseState → ParseState → Prop where
  | nil (s : ParseState) : Decodes use4 [] s s
  | cons {a : TxAttr} {as : List TxAttr} {s s₁ s₂ : ParseState} (hframed : a.Framed)
      (hdecode : decodeAttr a.rx s (unfiltered use4) = .ok s₁) (has : Decodes use4 as s₁ s₂) :
      Decodes use4 (a :: as) s s₂

theorem Decodes.append {as bs : List TxAttr} {s s₁ s₂ : ParseState} (has : Decodes use4 as s s₁)
    (hbs : Decodes use4 bs s₁ s₂) : Decodes use4 (as ++ bs) s s₂ := by
  induction has with
  | nil => exact hbs
  | cons hframed hdecode _ ih => exact .cons hframed hdecode (ih hbs)

theorem Decodes.one {a : TxAttr} {s s₁ : ParseState} (hframed : a.Framed)
    (hdecode : decodeAttr a.rx s (unfiltered use4) = .ok s₁) : Decodes use4 [a] s s₁ :=
  .cons hframed hdecode (.nil s₁)

theorem Decodes.reaches {as : List TxAttr} {s s' : ParseState} (h : Decodes use4 as s s')
    {data rest : List UInt8} {pos : ℕ} (hdata : data.drop pos = (as.flatMap TxAttr.spans).flatten ++ rest) :
    Reaches (unfiltered use4) data (pos, s) (pos + (as.flatMap TxAttr.spans).flatten.length, s') := by
  induction h generalizing pos with
  | nil => exact .refl
  | cons hframed hdecode _ ih =>
    rw [List.flatMap_cons, List.flatten_append, List.append_assoc] at hdata
    rw [List.flatMap_cons, List.flatten_append, List.length_append, ← Nat.add_assoc]
    exact .head ⟨_, readAttr_written hframed hdata, hdecode⟩ (ih (drop_of_drop hdata))

/-! ## The values -/

theorem rdU32_written (v : UInt32) : rdU32 (writeU32 v) 0 = .ok v := by
  rw [rdU32, readAt_ok (by simp), Bytes.add_zero, readU32_holds (holds_ofList _)]

theorem rdV4_written (v : UInt32) : rdV4 (writeU32 v) 0 = .ok (.ofV4 v) := by
  rw [rdV4, readAt_ok (by simp), Bytes.add_zero, readU32_holds (holds_ofList _)]

theorem toUInt32_myAs2 {asn : UInt32} (h : asn ≤ 65535) : (myAs2 asn).toUInt32 = asn := by
  rw [myAs2, if_neg (UInt32.not_lt.mpr h)]
  refine UInt32.toNat_inj.mp ?_
  rw [UInt16.toNat_toUInt32, UInt32.toNat_toUInt16]
  exact Nat.mod_eq_of_lt (Nat.lt_succ_of_le (UInt32.le_iff_toNat_le.mp h))

theorem rdAggregator_narrow {agg : Aggregator} (h : agg.asn ≤ 65535) :
    rdAggregator false (writeU16 (myAs2 agg.asn) ++ writeU32 agg.speaker.v4) 0 =
      .ok ⟨agg.asn, .ofV4 agg.speaker.v4⟩ := by
  have hlen : (writeU16 (myAs2 agg.asn) ++ writeU32 agg.speaker.v4).length = 6 := rfl
  obtain ⟨hasn, hspeaker⟩ := holds_append.mp
    (holds_ofList (writeU16 (myAs2 agg.asn) ++ writeU32 agg.speaker.v4))
  have hv4 : readU32 ((ofList (writeU16 (myAs2 agg.asn) ++ writeU32 agg.speaker.v4)).add (0 + 2)) =
      agg.speaker.v4 := readU32_holds hspeaker
  rw [rdAggregator, if_neg Bool.false_ne_true, rdU16_ok (by omega), ok_bind, rdV4, readAt_ok (by omega),
    ok_bind, Bytes.add_zero, readU16_holds hasn, toUInt32_myAs2 h, hv4]
  rfl

theorem rdAggregator_written (agg : Aggregator) :
    rdAggregator true (aggregatorSpan agg) 0 = .ok ⟨agg.asn, .ofV4 agg.speaker.v4⟩ := by
  have hlen : (aggregatorSpan agg).length = 8 := rfl
  obtain ⟨hasn, hspeaker⟩ := holds_append.mp (holds_ofList (aggregatorSpan agg))
  have hv4 : readU32 ((ofList (aggregatorSpan agg)).add (0 + 4)) = agg.speaker.v4 :=
    readU32_holds hspeaker
  rw [rdAggregator, if_pos rfl, rdU32, readAt_ok (by omega), ok_bind, rdV4, readAt_ok (by omega), ok_bind,
    Bytes.add_zero, readU32_holds hasn, hv4]
  rfl

theorem readLargeCommunity_holds {lc : UInt32 × UInt32 × UInt32} {p : BytePtr}
    (h : Holds p (largeCommunitySpan lc)) : (readU32 p, readU32 (p.add 4), readU32 (p.add 8)) = lc := by
  obtain ⟨hfront, hlast⟩ := holds_append.mp h
  obtain ⟨hfirst, hsecond⟩ := holds_append.mp hfront
  rw [readU32_holds hfirst]
  rw [show readU32 (p.add 4) = lc.2.1 from readU32_holds hsecond,
    show readU32 (p.add 8) = lc.2.2 from readU32_holds hlast]

theorem decodeFixed_written {α : Type} {a : RxAttr} {s : ParseState} {len : ℕ}
    {rd : List UInt8 → ℕ → Rx α} {set : α → Attributes} {v : α} (hlen : a.val.length = len)
    (hread : rd a.val 0 = .ok v) : decodeFixed a s len rd set = .ok (s.setAttrs (set v)) := by
  rw [decodeFixed, if_neg (not_not.mpr hlen), hread, ok_bind]
  rfl

/-! ## The AS path -/

/-- The AS number that is read where `asn` was written. -/
def sentAsn (use4 : Bool) (asn : UInt32) : UInt32 := if use4 then asn else (myAs2 asn).toUInt32

def AsPathSegment.sent (use4 : Bool) (seg : AsPathSegment) : AsPathSegment :=
  { seg with asns := seg.asns.map (sentAsn use4) }

@[simp] theorem AsPathSegment.sent_true (seg : AsPathSegment) : seg.sent true = seg := by
  have hid : sentAsn true = id := rfl
  rw [AsPathSegment.sent, hid, List.map_id]

theorem map_sent (segs : List AsPathSegment) : segs.map (·.sent true) = segs := by simp

def LastPasses (segs : List AsPathSegment) : Prop := ∀ seg ∈ segs.getLast?, 2 ≤ seg.asns.length

theorem lastPasses_cons_cons {seg seg' : AsPathSegment} {segs : List AsPathSegment} :
    LastPasses (seg :: seg' :: segs) ↔ LastPasses (seg' :: segs) := by
  simp [LastPasses, List.getLast?_cons_cons]

theorem asLen_cons (seg : AsPathSegment) (segs : List AsPathSegment) :
    asLen use4 (seg :: segs) = 2 + seg.asns.length * asnBytes use4 + asLen use4 segs := by
  simp [asLen, asnBytes]

theorem asnBytes_cases (use4 : Bool) : asnBytes use4 = 2 ∨ asnBytes use4 = 4 := by
  cases use4 <;> simp [asnBytes]

theorem LastPasses.asLen_le {segs : List AsPathSegment} (h : LastPasses segs) (hne : segs ≠ []) :
    2 + 2 * asnBytes use4 ≤ asLen use4 segs := by
  induction segs with
  | nil => exact absurd rfl hne
  | cons seg segs ih =>
    rw [asLen_cons]
    cases segs with
    | nil =>
      have := Nat.mul_le_mul_right (asnBytes use4) (h seg rfl)
      omega
    | cons seg' segs =>
      have := ih (lastPasses_cons_cons.mp h) (by simp)
      omega

section
variable {val : List UInt8}

theorem length_asnSpan (asn : UInt32) : (asnSpan use4 asn).length = asnBytes use4 := by
  cases use4 <;> rfl

theorem readAsn_holds {asn : UInt32} {p : BytePtr} (h : Holds p (asnSpan use4 asn)) :
    (if use4 then readU32 p else (readU16 p).toUInt32) = sentAsn use4 asn := by
  cases use4 with
  | false => exact congrArg UInt16.toUInt32 (readU16_holds h)
  | true => exact readU32_holds h

/-- What the loops over the segments read of one. -/
theorem reads_segment {seg : AsPathSegment} {segs : List AsPathSegment} (h255 : seg.asns.length ≤ 255)
    {ap : ℕ} (h : val.drop ap = ((seg :: segs).flatMap (segSpans use4)).flatten) :
    ap + 2 ≤ val.length ∧ rd8 val ap = .ok seg.segmentType ∧
      rd8 val (ap + 1) = .ok (UInt8.ofNat seg.asns.length) ∧
      (UInt8.ofNat seg.asns.length).toNat = seg.asns.length ∧
      readMany (rdAsn use4 val) (asnBytes use4) seg.asns.length (ap + 2) =
        .ok (seg.asns.map (sentAsn use4)) := by
  have hcut : val.drop ap = [seg.segmentType, UInt8.ofNat seg.asns.length] ++
      ((seg.asns.map (asnSpan use4)).flatten ++ (segs.flatMap (segSpans use4)).flatten) := by
    rw [h, List.flatMap_cons, List.flatten_append, segSpans, List.flatten_cons, List.append_assoc]
  have hhdr : ap + 2 ≤ val.length := le_of_drop hcut (by simp)
  have hfirst := holds_drop hcut
  simp only [holds_cons, add_apply, Nat.add_zero] at hfirst
  have hasns : val.drop (ap + 2) = (seg.asns.map (asnSpan use4)).flatten ++
      (segs.flatMap (segSpans use4)).flatten := drop_of_drop hcut
  have hend : ap + 2 + seg.asns.length * asnBytes use4 ≤ val.length := by
    have hsize : (seg.asns.map (asnSpan use4)).flatten.length = seg.asns.length * asnBytes use4 :=
      length_flatten_map length_asnSpan seg.asns
    have := congrArg List.length hasns
    simp only [List.length_drop, List.length_append, hsize] at this
    omega
  refine ⟨hhdr, ?_, ?_, UInt8.toNat_ofNat_of_lt' (by simp [UInt8.size]; omega), ?_⟩
  · rw [rd8_ok (by omega), hfirst.1]
  · rw [rd8_ok (by omega), hfirst.2.1]
  · have hhold := holds_drop hasns
    rw [← List.flatMap_def] at hhold
    exact readMany_holds length_asnSpan (fun _ _ hasn => readAsn_holds hasn) hhold hend

theorem asPathFrom_segment {seg : AsPathSegment} {segs : List AsPathSegment} (h255 : seg.asns.length ≤ 255)
    {n ap : ℕ} (acc : List AsPathSegment)
    (h : val.drop ap = ((seg :: segs).flatMap (segSpans use4)).flatten) :
    asPathFrom use4 val (n + 1) ap acc =
      if ap + 2 + seg.asns.length + asnBytes use4 > val.length then
        .error (failWith BGP_NOTIFICATION_UPDATE_MALFORMED_AS_PATH)
      else asPathFrom use4 val n (ap + 2 + seg.asns.length * asnBytes use4) (acc ++ [seg.sent use4]) := by
  obtain ⟨hhdr, htype, hcount, hlen, hmany⟩ := reads_segment h255 h
  rw [asPathFrom, if_pos hhdr, htype, ok_bind, hcount, ok_bind, hlen]
  refine if_congr Iff.rfl rfl ?_
  rw [hmany, ok_bind]
  rfl

theorem length_of_drop_segs {ap : ℕ} {seg : AsPathSegment} {segs : List AsPathSegment}
    (h : val.drop ap = ((seg :: segs).flatMap (segSpans use4)).flatten) :
    val.length = ap + 2 + seg.asns.length * asnBytes use4 + asLen use4 segs := by
  have hlen := congrArg List.length h
  rw [List.length_drop, length_segSpans, asLen_cons] at hlen
  omega

theorem drop_segment {ap : ℕ} {seg : AsPathSegment} {segs : List AsPathSegment}
    (h : val.drop ap = ((seg :: segs).flatMap (segSpans use4)).flatten) :
    val.drop (ap + 2 + seg.asns.length * asnBytes use4) = (segs.flatMap (segSpans use4)).flatten := by
  rw [List.flatMap_cons, List.flatten_append] at h
  have hseg : (segSpans use4 seg).flatten.length = 2 + seg.asns.length * asnBytes use4 := by
    rw [segSpans, List.flatten_cons, List.length_append, length_flatten_map length_asnSpan]
    rfl
  have hdrop := drop_of_drop h
  rwa [hseg, ← Nat.add_assoc] at hdrop

theorem asPathFrom_written {segs : List AsPathSegment} (h255 : ∀ seg ∈ segs, seg.asns.length ≤ 255)
    (hlast : LastPasses segs) : ∀ {n ap : ℕ} (acc : List AsPathSegment), val.length ≤ n + ap →
    val.drop ap = (segs.flatMap (segSpans use4)).flatten →
    asPathFrom use4 val n ap acc = .ok (acc ++ segs.map (·.sent use4)) := by
  induction segs with
  | nil =>
    intro n ap acc _ h
    have hend : val.length ≤ ap := List.drop_eq_nil_iff.mp h
    cases n with
    | zero => rw [asPathFrom, List.map_nil, List.append_nil]
    | succ n => rw [asPathFrom, if_neg (by omega), List.map_nil, List.append_nil]
  | cons seg segs ih =>
    intro n ap acc hfuel h
    have hlen := length_of_drop_segs h
    obtain ⟨n, rfl⟩ : ∃ m, n = m + 1 := ⟨n - 1, by omega⟩
    -- behind a segment that is not the last one are the bytes of the last one
    have hpass : ¬ ap + 2 + seg.asns.length + asnBytes use4 > val.length := by
      rcases asnBytes_cases use4 with hbytes | hbytes <;> rw [hbytes] at hlen ⊢
      all_goals
        cases segs with
        | nil =>
          have := hlast seg rfl
          omega
        | cons seg' segs =>
          have hrest : 2 + 2 * asnBytes use4 ≤ asLen use4 (seg' :: segs) :=
            (lastPasses_cons_cons.mp hlast).asLen_le (by simp)
          omega
    have htail : LastPasses segs := by
      cases segs with
      | nil => simp [LastPasses]
      | cons seg' segs => exact lastPasses_cons_cons.mp hlast
    rw [asPathFrom_segment (h255 seg List.mem_cons_self) acc h, if_neg hpass,
      ih (fun s hs => h255 s (List.mem_cons_of_mem _ hs)) htail _ (by omega) (drop_segment h),
      List.append_assoc]
    rfl

theorem asPathFrom_refused {segs : List AsPathSegment} (h255 : ∀ seg ∈ segs, seg.asns.length ≤ 255)
    (hlast : ¬ LastPasses segs) : ∀ {n ap : ℕ} (acc : List AsPathSegment), val.length ≤ n + ap →
    val.drop ap = (segs.flatMap (segSpans use4)).flatten →
    ∃ e, asPathFrom use4 val n ap acc = .error e := by
  induction segs with
  | nil => exact absurd (by simp [LastPasses]) hlast
  | cons seg segs ih =>
    intro n ap acc hfuel h
    have hlen := length_of_drop_segs h
    obtain ⟨n, rfl⟩ : ∃ m, n = m + 1 := ⟨n - 1, by omega⟩
    rw [asPathFrom_segment (h255 seg List.mem_cons_self) acc h]
    by_cases hcheck : ap + 2 + seg.asns.length + asnBytes use4 > val.length
    · exact ⟨_, if_pos hcheck⟩
    · rw [if_neg hcheck]
      refine ih (fun s hs => h255 s (List.mem_cons_of_mem _ hs)) ?_ _ (by omega) (drop_segment h)
      cases segs with
      | nil =>
        have hempty : asLen use4 [] = 0 := rfl
        refine absurd ?_ hlast
        intro s hs
        obtain rfl : seg = s := by simpa using hs
        rcases asnBytes_cases use4 with hbytes | hbytes <;> rw [hbytes] at hlen hcheck <;> omega
      | cons seg' segs => rwa [← lastPasses_cons_cons]

/-! ### `AS4_PATH` -/

theorem as4PathFrom_ok (val : List UInt8) : ∀ (n ap : ℕ) (segs : List AsPathSegment),
    ∃ p, as4PathFrom val n ap segs = .ok p
  | 0, _, segs => ⟨segs, rfl⟩
  | n + 1, ap, segs => by
    rw [as4PathFrom]
    split_ifs with hhdr
    · rw [rd8_ok (by omega), ok_bind, rd8_ok (by omega), ok_bind]
      split_ifs with hlen
      · exact ⟨segs, rfl⟩
      · have hread : ap + 2 + (ofList val (ap + 1)).toNat * 4 ≤ val.length := by omega
        rw [show readMany (rdAsn true val) 4 _ (ap + 2) = _ from readMany_ok hread, ok_bind]
        exact as4PathFrom_ok val n _ _
    · exact ⟨segs, rfl⟩

def as4Value (segs : List AsPathSegment) : List UInt8 := ((as4Segments segs).flatMap (segSpans true)).flatten

/-- The segments that are read where the `AS4_PATH` of `segs` was written: `as4Segments segs`, if each
    has a length of one byte. -/
def as4Read (segs : List AsPathSegment) : List AsPathSegment :=
  (as4PathFrom (as4Value segs) (as4Value segs).length 0 []).toOption.getD []

theorem as4PathFrom_written {segs : List AsPathSegment} (h255 : ∀ seg ∈ segs, seg.asns.length ≤ 255) :
    ∀ {n ap : ℕ} (acc : List AsPathSegment), val.length ≤ n + ap →
    val.drop ap = (segs.flatMap (segSpans true)).flatten → as4PathFrom val n ap acc = .ok (acc ++ segs) := by
  induction segs with
  | nil =>
    intro n ap acc _ h
    have hend : val.length ≤ ap := List.drop_eq_nil_iff.mp h
    cases n with
    | zero => rw [as4PathFrom, List.append_nil]
    | succ n => rw [as4PathFrom, if_neg (by omega), List.append_nil]
  | cons seg segs ih =>
    intro n ap acc hfuel h
    have hbytes := length_of_drop_segs h
    have hrest := drop_segment h
    obtain ⟨n, rfl⟩ : ∃ m, n = m + 1 := ⟨n - 1, by omega⟩
    obtain ⟨hhdr, htype, hcount, hlen, hmany⟩ := reads_segment (h255 seg List.mem_cons_self) h
    simp only [asnBytes, if_true] at hbytes hrest hmany
    rw [as4PathFrom, if_pos hhdr, htype, ok_bind, hcount, ok_bind, hlen, if_neg (by omega), hmany, ok_bind,
      ih (fun s hs => h255 s (List.mem_cons_of_mem _ hs)) _ (by omega) hrest, List.append_assoc]
    exact congrArg (fun s => Except.ok (acc ++ s :: segs)) seg.sent_true

theorem as4Read_eq {segs : List AsPathSegment} (h255 : ∀ seg ∈ as4Segments segs, seg.asns.length ≤ 255) :
    as4Read segs = as4Segments segs := by
  rw [as4Read, as4PathFrom_written h255 _ (by omega) rfl]
  rfl

end

/-! ## The attributes of a path -/

section
variable {s : ParseState}

theorem decodes_optAttr {α : Type} {flags type : UInt8} {len : ℕ} {span : α → List UInt8} {o : Option α}
    {s' : ParseState} (hlen : ∀ v, (span v).length = len) (h255 : len ≤ 255)
    (hflags : flags &&& BGP_ATTR_FLAG_EXTENDED_LENGTH = 0) (hnone : o = none → s' = s)
    (h : ∀ v, o = some v → decodeAttr ⟨flags, type, span v⟩ s (unfiltered use4) = .ok s') :
    Decodes use4 (optAttr flags type len span o) s s' := by
  cases o with
  | none =>
    rw [hnone rfl]
    exact .nil s
  | some v =>
    refine .one ⟨?_, h255.trans (by decide), fun _ => hflags⟩ ?_
    · simp [TxAttr.Sized, hlen]
    · rw [TxAttr.rx, if_neg (by simpa using h255)]
      simpa using h v rfl

theorem decodes_u32 {flags type : UInt8} {o : Option UInt32} {set : UInt32 → Attributes} {s' : ParseState}
    (hflags : flags &&& BGP_ATTR_FLAG_EXTENDED_LENGTH = 0) (hnone : o = none → s' = s)
    (hsome : ∀ v, o = some v → s' = s.setAttrs (set v))
    (h : ∀ v, decodeAttr ⟨flags, type, writeU32 v⟩ s (unfiltered use4) =
      decodeFixed ⟨flags, type, writeU32 v⟩ s 4 rdU32 set) :
    Decodes use4 (optAttr flags type 4 writeU32 o) s s' := by
  refine decodes_optAttr length_writeU32 (by decide) hflags hnone fun v hv => ?_
  rw [h, hsome v hv]
  exact decodeFixed_written rfl (rdU32_written v)

theorem decodes_list {α : Type} {flags type : UInt8} {size : ℕ} {span : α → List UInt8} {f : BytePtr → α}
    {l : List α} {set : List α → Attributes} {s' : ParseState} (hpos : 0 < size)
    (hsize : ∀ v, (span v).length = size) (hread : ∀ v p, Holds p (span v) → f p = v)
    (hfits : l.length * size ≤ 65535) (hflags : flags &&& BGP_ATTR_FLAG_EXTENDED_LENGTH = 0)
    (hnil : l = [] → s' = s) (hset : s' = s.setAttrs (set l))
    (h : ∀ flags val, decodeAttr ⟨flags, type, val⟩ s (unfiltered use4) =
      decodeList ⟨flags, type, val⟩ s size (fun l i => readAt .outside l i size f) set) :
    Decodes use4 (listAttr flags type size span l) s s' := by
  rw [listAttr]
  split_ifs with hempty
  · rw [hnil (List.isEmpty_iff.mp hempty)]
    exact .nil s
  have hlen : (l.map span).flatten.length = l.length * size := length_flatten_map hsize l
  refine .one ⟨hlen, hfits, fun _ => hflags⟩ ?_
  have hhold : Holds ((ofList (l.map span).flatten).add 0) (l.flatMap span) := by
    rw [Bytes.add_zero, List.flatMap_def]
    exact holds_ofList _
  have hmany : readMany (fun i => readAt Stop.outside (l.map span).flatten i size f) size l.length 0 = .ok l := by
    rw [readMany_holds (g := id) hsize hread hhold (by omega), List.map_id]
  rw [TxAttr.rx, h, hset, decodeList, if_neg (by simp [hlen]), hlen, Nat.mul_div_cancel _ hpos, hmany, ok_bind]
  rfl

theorem wellKnown_transitive (type : UInt8) (val : List UInt8) :
    ¬ (!RxAttr.wellKnown ⟨BGP_ATTR_FLAG_TRANSITIVE, type, val⟩) = true := by
  simp only [RxAttr.wellKnown, RxAttr.optional, RxAttr.transitive]
  decide

theorem wellKnown_extended (type : UInt8) (val : List UInt8) :
    ¬ (!RxAttr.wellKnown ⟨BGP_ATTR_FLAG_TRANSITIVE ||| BGP_ATTR_FLAG_EXTENDED_LENGTH, type, val⟩) = true := by
  simp only [RxAttr.wellKnown, RxAttr.optional, RxAttr.transitive]
  decide

theorem decodes_origin {o : Option UInt8} (h : ∀ v ∈ o, v ≤ BGP_ORIGIN_INCOMPLETE) :
    Decodes use4 (optAttr BGP_ATTR_FLAG_TRANSITIVE BGP_ATTR_ORIGIN 1 (fun o => [o]) o) s
      (s.setAttrs { s.attrs with origin := o.or s.attrs.origin }) := by
  refine decodes_optAttr (fun _ => rfl) (by decide) rfl (by rintro rfl; rfl) ?_
  rintro v rfl
  show decodeOrigin ⟨BGP_ATTR_FLAG_TRANSITIVE, BGP_ATTR_ORIGIN, [v]⟩ s = _
  have hread : rd8 [v] 0 = .ok v := rfl
  rw [decodeOrigin, if_neg (wellKnown_transitive _ _), if_neg (by simp), hread, ok_bind,
    if_neg (UInt8.not_lt.mpr (h v rfl))]
  rfl

theorem decodes_med (o : Option UInt32) :
    Decodes use4 (optAttr BGP_ATTR_FLAG_OPTIONAL BGP_ATTR_MULTI_EXIT_DISC 4 writeU32 o) s
      (s.setAttrs { s.attrs with med := o.or s.attrs.med }) :=
  decodes_u32 rfl (by rintro rfl; rfl) (by rintro v rfl; rfl) fun _ => rfl

theorem decodes_localPref (o : Option UInt32) :
    Decodes use4 (optAttr BGP_ATTR_FLAG_TRANSITIVE BGP_ATTR_LOCAL_PREF 4 writeU32 o) s
      (s.setAttrs { s.attrs with localPref := o.or s.attrs.localPref }) := by
  refine decodes_optAttr length_writeU32 (by decide) rfl (by rintro rfl; rfl) ?_
  rintro v rfl
  show decodeLocalPref ⟨BGP_ATTR_FLAG_TRANSITIVE, BGP_ATTR_LOCAL_PREF, writeU32 v⟩ s = _
  rw [decodeLocalPref, if_neg (wellKnown_transitive _ _)]
  exact decodeFixed_written rfl (rdU32_written v)

theorem decodes_originatorId (o : Option UInt32) :
    Decodes use4 (optAttr BGP_ATTR_FLAG_OPTIONAL BGP_ATTR_ORIGINATOR_ID 4 writeU32 o) s
      (s.setAttrs { s.attrs with originatorId := o.or s.attrs.originatorId }) :=
  decodes_u32 rfl (by rintro rfl; rfl) (by rintro v rfl; rfl) fun _ => rfl

theorem aggregatorAttrs_eq {o : Option Aggregator} (h : use4 = false → ∀ agg ∈ o, agg.asn ≤ 65535) :
    aggregatorAttrs use4 o = optAttr optionalTransitive BGP_ATTR_AGGREGATOR (if use4 then 8 else 6)
      (fun agg => if use4 then aggregatorSpan agg else writeU16 (myAs2 agg.asn) ++ writeU32 agg.speaker.v4) o := by
  cases o with
  | none => rfl
  | some agg =>
    cases use4 with
    | true => rfl
    | false => rw [aggregatorAttrs, if_neg Bool.false_ne_true, if_neg (UInt32.not_lt.mpr (h rfl agg rfl))]; rfl

theorem decodes_aggregator {o : Option Aggregator} (h : ∀ agg ∈ o, agg.speaker.isIPv4 = true)
    (hasn : use4 = false → ∀ agg ∈ o, agg.asn ≤ 65535) :
    Decodes use4 (aggregatorAttrs use4 o) s
      (s.setAttrs { s.attrs with asAggregator := o.or s.attrs.asAggregator }) := by
  rw [aggregatorAttrs_eq hasn]
  refine decodes_optAttr (fun _ => by cases use4 <;> rfl) (by split_ifs <;> decide) rfl (by rintro rfl; rfl) ?_
  rintro agg rfl
  have hv4 := (IPAddress.ofV4_v4_iff _).mpr (h agg rfl)
  cases use4 with
  | true =>
    show decodeFixed ⟨optionalTransitive, BGP_ATTR_AGGREGATOR, aggregatorSpan agg⟩ s 8 (rdAggregator true)
      (fun agg => { s.attrs with asAggregator := some agg }) = _
    refine decodeFixed_written rfl ?_
    rw [rdAggregator_written, hv4]
  | false =>
    rw [if_neg Bool.false_ne_true]
    show decodeFixed
      ⟨optionalTransitive, BGP_ATTR_AGGREGATOR, writeU16 (myAs2 agg.asn) ++ writeU32 agg.speaker.v4⟩ s 6
      (rdAggregator false) (fun agg => { s.attrs with asAggregator := some agg }) = _
    refine decodeFixed_written rfl ?_
    rw [rdAggregator_narrow (hasn rfl agg rfl), hv4]

theorem decodes_aigp (o : Option UInt64) :
    Decodes use4 (optAttr BGP_ATTR_FLAG_OPTIONAL BGP_ATTR_AIGP 11 (fun v => 1 :: writeU16 11 ++ writeU64 v) o) s
      (s.setAttrs { s.attrs with aigp := o.or s.attrs.aigp }) := by
  refine decodes_optAttr (fun _ => rfl) (by decide) rfl (by rintro rfl; rfl) ?_
  rintro v rfl
  show decodeAigp ⟨BGP_ATTR_FLAG_OPTIONAL, BGP_ATTR_AIGP, 1 :: writeU16 11 ++ writeU64 v⟩ s = _
  have hlen : (1 :: writeU16 11 ++ writeU64 v).length = 11 := rfl
  have hhold : Holds (ofList (1 :: writeU16 11 ++ writeU64 v)) ([1] ++ writeU16 11 ++ writeU64 v) :=
    holds_ofList _
  have hread : rdU64 (1 :: writeU16 11 ++ writeU64 v) 3 = .ok v := by
    rw [rdU64, readAt_ok (by omega)]
    exact congrArg Except.ok (readU64_holds hhold.right)
  have hlen16 : rdU16 (1 :: writeU16 11 ++ writeU64 v) 1 = .ok 11 := by
    rw [rdU16_ok (by omega)]
    exact congrArg Except.ok (readU16_holds hhold.left.right)
  rw [decodeAigp, if_pos (by rw [hlen]), rd8_ok (by rw [hlen]; decide), ok_bind, hlen16, ok_bind,
    if_pos ⟨rfl, rfl⟩, hread, ok_bind]
  rfl

theorem decodes_communities {l : List UInt32} (h : l.length * 4 ≤ 65535) :
    Decodes use4 (listAttr optionalTransitive BGP_ATTR_COMMUNITIES 4 writeU32 l) s
      (s.setAttrs { s.attrs with communities := s.attrs.communities ++ l }) :=
  decodes_list (by decide) length_writeU32 (fun _ _ => readU32_holds) h rfl
    (by rintro rfl; rw [List.append_nil]; rfl) rfl fun _ _ => rfl

theorem decodes_clusterList {l : List UInt32} (h : l.length * 4 ≤ 65535) :
    Decodes use4 (listAttr BGP_ATTR_FLAG_OPTIONAL BGP_ATTR_CLUSTER_LIST 4 writeU32 l) s
      (s.setAttrs { s.attrs with clusterList := s.attrs.clusterList ++ l }) :=
  decodes_list (by decide) length_writeU32 (fun _ _ => readU32_holds) h rfl
    (by rintro rfl; rw [List.append_nil]; rfl) rfl fun _ _ => rfl

theorem decodes_largeCommunities {l : List (UInt32 × UInt32 × UInt32)} (h : l.length * 12 ≤ 65535) :
    Decodes use4 (listAttr optionalTransitive BGP_ATTR_LARGE_COMMUNITIES 12 largeCommunitySpan l) s
      (s.setAttrs { s.attrs with largeCommunities := s.attrs.largeCommunities ++ l }) :=
  decodes_list (by decide) (fun _ => rfl) (fun _ _ => readLargeCommunity_holds) h rfl
    (by rintro rfl; rw [List.append_nil]; rfl) rfl fun _ _ => rfl

theorem decodes_nextHop (addr : UInt32) :
    Decodes use4 [⟨BGP_ATTR_FLAG_TRANSITIVE, BGP_ATTR_NEXT_HOP, 4, [writeU32 addr]⟩] s
      { s with update := { s.update with path := { s.update.path with nextHop := .ofV4 addr } } } := by
  show Decodes use4 (optAttr BGP_ATTR_FLAG_TRANSITIVE BGP_ATTR_NEXT_HOP 4 writeU32 (some addr)) s _
  refine decodes_optAttr length_writeU32 (by decide) rfl (by simp) ?_
  intro v hv
  obtain rfl := Option.some.inj hv
  show decodeNextHop ⟨BGP_ATTR_FLAG_TRANSITIVE, BGP_ATTR_NEXT_HOP, writeU32 addr⟩ s = _
  rw [decodeNextHop, if_neg (wellKnown_transitive _ _), if_neg (by simp), rdV4_written, ok_bind]
  rfl

theorem wellKnown_asPath (segs : List AsPathSegment) (use4 : Bool) :
    ∀ a ∈ asPathAttr use4 segs, ¬ (!a.rx.wellKnown) = true := by
  intro a ha
  rw [asPathAttr] at ha
  split_ifs at ha
  · cases ha
  · obtain rfl := List.mem_singleton.mp ha
    unfold TxAttr.rx
    split_ifs
    · exact wellKnown_extended _ _
    · exact wellKnown_transitive _ _

theorem decodes_asPath {segs : List AsPathSegment} (h255 : ∀ seg ∈ segs, seg.asns.length ≤ 255)
    (hlast : LastPasses segs) (hfits : asLen use4 segs ≤ 65535) :
    Decodes use4 (asPathAttr use4 segs) s
      (s.setAttrs { s.attrs with asPath := s.attrs.asPath ++ segs.map (·.sent use4) }) := by
  have hflags := wellKnown_asPath segs use4
  rw [asPathAttr] at hflags ⊢
  split_ifs at hflags ⊢ with hempty
  · rw [List.isEmpty_iff.mp hempty, List.map_nil, List.append_nil]
    exact .nil s
  · have hshort : BGP_ATTR_FLAG_TRANSITIVE &&& BGP_ATTR_FLAG_EXTENDED_LENGTH = 0 := rfl
    refine .one ⟨length_segSpans use4 segs, hfits, fun _ => hshort⟩ ?_
    show decodeAsPath _ s use4 = _
    rw [decodeAsPath, if_neg (hflags _ (List.mem_singleton.mpr rfl)),
      asPathFrom_written h255 hlast _ (by omega) rfl, ok_bind]
    rfl

theorem decodes_as4Path {segs : List AsPathSegment} (hfits : use4 = false → asLen true (as4Segments segs) ≤ 65535)
    (hnone : s.attrs.as4Path = []) : Decodes use4 (as4PathAttr use4 segs) s
      (s.setAttrs { s.attrs with as4Path := if use4 then [] else as4Read segs }) := by
  cases use4 with
  | true =>
    rw [if_pos rfl, ← hnone]
    exact .nil s
  | false =>
    rw [as4PathAttr, Bool.false_or, if_neg Bool.false_ne_true]
    obtain ⟨p, hp⟩ := as4PathFrom_ok (as4Value segs) (as4Value segs).length 0 []
    have hread : as4Read segs = p := by rw [as4Read, hp]; rfl
    rw [hread]
    split_ifs with hempty
    · have hnil : p = [] := by
        rw [← hread, as4Read, as4Value, List.isEmpty_iff.mp hempty]
        rfl
      rw [hnil, ← hnone]
      exact .nil s
    · have hshort : optionalTransitive &&& BGP_ATTR_FLAG_EXTENDED_LENGTH = 0 := rfl
      refine .one ⟨length_segSpans true _, hfits rfl, fun _ => hshort⟩ ?_
      show (as4PathFrom (as4Value segs) (as4Value segs).length 0 s.attrs.as4Path >>= _) = _
      rw [hnone, hp]
      rfl

theorem decodeAttr_asPath_refused {segs : List AsPathSegment}
    (h255 : ∀ seg ∈ segs, seg.asns.length ≤ 255) (hlast : ¬ LastPasses segs) :
    ∃ a, asPathAttr use4 segs = [a] ∧ ∀ s s', decodeAttr a.rx s (unfiltered use4) ≠ .ok s' := by
  have hempty : ¬ segs.isEmpty = true := by
    intro h
    rw [List.isEmpty_iff.mp h] at hlast
    exact hlast (by simp [LastPasses])
  have hflags := wellKnown_asPath segs use4
  rw [asPathAttr, if_neg hempty] at hflags ⊢
  refine ⟨_, rfl, fun s s' hok => ?_⟩
  have hok' : decodeAsPath _ s use4 = .ok s' := hok
  obtain ⟨e, herror⟩ := asPathFrom_refused h255 hlast s.attrs.asPath
    (show (segs.flatMap (segSpans use4)).flatten.length ≤ (segs.flatMap (segSpans use4)).flatten.length + 0
      from le_rfl) rfl
  rw [decodeAsPath, if_neg (hflags _ (List.mem_singleton.mpr rfl))] at hok'
  obtain ⟨p, hp, -⟩ := bind_eq_ok.mp hok'
  cases herror.symm.trans hp

end

/-! ## Unknown attributes -/

structure UnknownAttribute.Kept (ua : UnknownAttribute) : Prop where
  received : ua.Received
  extended : ua.rx.extended = true ↔ 255 < ua.value.length

theorem or_flag_eq (flags : UInt8) :
    (flags &&& BGP_ATTR_FLAG_PARTIAL ≠ 0 → flags ||| BGP_ATTR_FLAG_PARTIAL = flags) ∧
      (flags &&& BGP_ATTR_FLAG_EXTENDED_LENGTH ≠ 0 → flags ||| BGP_ATTR_FLAG_EXTENDED_LENGTH = flags) := by
  revert flags
  exact forall_flags (by decide +kernel)

theorem UnknownAttribute.Received.length_le {ua : UnknownAttribute} (h : ua.Received) :
    ua.value.length ≤ 65535 := by
  have hlen := h.length
  rw [RxAttr.maxLen] at hlen
  split_ifs at hlen <;> omega

theorem UnknownAttribute.Kept.rx_eq {ua : UnknownAttribute} (h : ua.Kept) : (unknownAttr ua).rx = ua.rx := by
  have hpartial := (or_flag_eq ua.flags).1 h.received.flagPartial
  rw [TxAttr.rx, unknownAttr, hpartial, UnknownAttribute.rx, List.flatten_singleton]
  by_cases hlong : ua.value.length > 255
  · rw [if_pos hlong, (or_flag_eq ua.flags).2 (by simpa [RxAttr.extended, UnknownAttribute.rx] using h.extended.mpr hlong)]
  · rw [if_neg hlong]

theorem UnknownAttribute.Kept.framed {ua : UnknownAttribute} (h : ua.Kept) : (unknownAttr ua).Framed := by
  refine ⟨by simp [TxAttr.Sized, unknownAttr], h.received.length_le, fun hshort => ?_⟩
  have hext : ¬ ua.rx.extended = true := by
    rw [h.extended]
    exact Nat.not_lt.mpr hshort
  rw [unknownAttr, (or_partialFlag ua.flags).2.2.1]
  simpa [RxAttr.extended, UnknownAttribute.rx] using hext

theorem decodes_unknown {l : List UnknownAttribute} (h : ∀ ua ∈ l, ua.Kept) : ∀ s : ParseState,
    Decodes use4 (l.map unknownAttr) s
      (s.setAttrs { s.attrs with unknownTransitive := s.attrs.unknownTransitive ++ l }) := by
  induction l with
  | nil =>
    intro s
    rw [List.append_nil]
    exact .nil s
  | cons ua l ih =>
    intro s
    have hua := h ua List.mem_cons_self
    have hrest := ih fun ua' hmem => h ua' (List.mem_cons_of_mem _ hmem)
    have hdecode : decodeAttr (unknownAttr ua).rx s (unfiltered use4) =
        .ok (s.setAttrs { s.attrs with unknownTransitive := s.attrs.unknownTransitive ++ [ua] }) := by
      rw [hua.rx_eq, decodeAttr_unknown hua.received.type, decodeUnknown, hua.received.optional,
        hua.received.transitive, if_neg (by decide), if_pos rfl, UnknownAttribute.rx,
        (or_flag_eq ua.flags).1 hua.received.flagPartial]
    have hcons := Decodes.cons hua.framed hdecode (hrest _)
    simpa only [ParseState.setAttrs, ParseState.attrs, List.append_assoc, List.singleton_append,
      List.map_cons] using hcons

/-! ## The round trip -/

/-- The update has the attributes of `pa`. -/
structure SameAttributes (ebgp : Bool) (pa : PathAttribute) (u : IncomingUpdate) : Prop where
  origin : u.attrs.origin = pa.attrs.origin
  asPath : u.attrs.asPath = pa.attrs.asPath
  nextHop : u.path.nextHop = pa.path.nextHop
  med : u.attrs.med = pa.attrs.med
  localPref : ebgp = false → u.attrs.localPref = pa.attrs.localPref
  atomicAggregate : u.attrs.atomicAggregate = pa.attrs.atomicAggregate
  asAggregator : u.attrs.asAggregator = pa.attrs.asAggregator
  communities : u.attrs.communities = pa.attrs.communities
  originatorId : u.attrs.originatorId = pa.attrs.originatorId
  clusterList : u.attrs.clusterList = pa.attrs.clusterList
  extendedCommunities : u.attrs.extendedCommunities = pa.attrs.extendedCommunities
  aigp : u.attrs.aigp = pa.attrs.aigp
  largeCommunities : u.attrs.largeCommunities = pa.attrs.largeCommunities
  unknownTransitive : u.attrs.unknownTransitive = pa.attrs.unknownTransitive

/-- The bytes appended for `pa` are parsed, and give its attributes. -/
def AttrsRoundTrip (ebgp : Bool) (pa : PathAttribute) : Prop :=
  ∃ u, parsePathAttributes fourByte (appendPathAttrs true ebgp pa).1.flatten {} = .ok u ∧
    SameAttributes ebgp pa u

structure PathAttribute.Faithful (pa : PathAttribute) : Prop where
  origin : ∀ o ∈ pa.attrs.origin, o ≤ BGP_ORIGIN_INCOMPLETE
  asPath : LastPasses pa.attrs.asPath
  asPathFits : asLen true pa.attrs.asPath ≤ 65535
  nextHop : pa.path.nextHop.isIPv4 = true
  atomicAggregate : pa.attrs.atomicAggregate = false
  asAggregator : ∀ agg ∈ pa.attrs.asAggregator, agg.speaker.isIPv4 = true
  communities : pa.attrs.communities.length * 4 ≤ 65535
  clusterList : pa.attrs.clusterList.length * 4 ≤ 65535
  extendedCommunities : pa.attrs.extendedCommunities = []
  largeCommunities : pa.attrs.largeCommunities.length * 12 ≤ 65535
  unknownTransitive : ∀ ua ∈ pa.attrs.unknownTransitive, ua.Kept

/-- The path that the parser makes of `AS_PATH` and `AS4_PATH`. -/
def PathAttribute.pathRead (use4 : Bool) (pa : PathAttribute) : List AsPathSegment :=
  (mergeAs4 (unfiltered use4) {
    asPath := pa.attrs.asPath.map (·.sent use4)
    as4Path := if use4 then [] else as4Read pa.attrs.as4Path }).asPath

/-- The attributes that the parser takes.  The path may come back as another one. -/
structure PathAttribute.Decodable (use4 : Bool) (pa : PathAttribute) : Prop where
  short : ∀ seg ∈ pa.attrs.asPath, seg.asns.length ≤ 255
  last : LastPasses pa.attrs.asPath
  fits : asLen use4 pa.attrs.asPath ≤ 65535
  as4Fits : use4 = false → asLen true (as4Segments pa.attrs.as4Path) ≤ 65535
  aggregator : use4 = false → ∀ agg ∈ pa.attrs.asAggregator, agg.asn ≤ 65535
  apart : PathAttribute.Faithful { pa with attrs := { pa.attrs with asPath := [] } }

theorem PathAttribute.Faithful.decodable {pa : PathAttribute} (h : pa.Faithful)
    (h255 : ∀ seg ∈ pa.attrs.asPath, seg.asns.length ≤ 255) : pa.Decodable true :=
  ⟨h255, h.asPath, h.asPathFits, by simp, by simp,
    { h with asPath := by simp [LastPasses], asPathFits := Nat.zero_le _ }⟩

theorem PathAttribute.Decodable.faithful {pa : PathAttribute} (h : pa.Decodable true) : pa.Faithful :=
  { h.apart with asPath := h.last, asPathFits := h.fits }

theorem parsePathAttributes_ok_iff {data : List UInt8} {u : IncomingUpdate} :
    parsePathAttributes (unfiltered use4) data {} = .ok u ↔ ∃ s, Ends (unfiltered use4) data (0, {}) s ∧
      u = { s.update with attrs := mergeAs4 (unfiltered use4) s.attrs, afi := s.family } := by
  rw [parsePathAttributes, bind_eq_ok]
  refine exists_congr fun s => ?_
  rw [parseAttrsFrom_ok_iff data.length 0 {} s (by omega)]
  refine and_congr_right fun _ => ?_
  constructor
  · intro h
    exact (Except.ok.inj h).symm
  · rintro rfl
    rfl

/-! ### What is faithful comes back -/

section
variable {pa : PathAttribute}

def headAttrs (use4 : Bool) (pa : PathAttribute) : List TxAttr :=
  optAttr BGP_ATTR_FLAG_TRANSITIVE BGP_ATTR_ORIGIN 1 (fun o => [o]) pa.attrs.origin ++
  asPathAttr use4 pa.attrs.asPath ++ as4PathAttr use4 pa.attrs.as4Path ++
  [⟨BGP_ATTR_FLAG_TRANSITIVE, BGP_ATTR_NEXT_HOP, 4, [writeU32 pa.path.nextHop.v4]⟩]

def tailAttrs (use4 ebgp : Bool) (pa : PathAttribute) : List TxAttr :=
  optAttr BGP_ATTR_FLAG_OPTIONAL BGP_ATTR_MULTI_EXIT_DISC 4 writeU32 pa.attrs.med ++
  (if ebgp then [] else
    optAttr BGP_ATTR_FLAG_TRANSITIVE BGP_ATTR_LOCAL_PREF 4 writeU32 pa.attrs.localPref) ++
  (if pa.attrs.atomicAggregate then
    [⟨BGP_ATTR_FLAG_TRANSITIVE, BGP_ATTR_ATOMIC_AGGREGATE, 0, []⟩] else []) ++
  aggregatorAttrs use4 pa.attrs.asAggregator ++
  listAttr optionalTransitive BGP_ATTR_COMMUNITIES 4 writeU32 pa.attrs.communities ++
  optAttr BGP_ATTR_FLAG_OPTIONAL BGP_ATTR_ORIGINATOR_ID 4 writeU32 pa.attrs.originatorId ++
  listAttr BGP_ATTR_FLAG_OPTIONAL BGP_ATTR_CLUSTER_LIST 4 writeU32 pa.attrs.clusterList ++
  listAttr optionalTransitive BGP_ATTR_EXTENDED_COMMUNITIES 8 writeU64 pa.attrs.extendedCommunities ++
  optAttr BGP_ATTR_FLAG_OPTIONAL BGP_ATTR_AIGP 11 (fun v => 1 :: writeU16 11 ++ writeU64 v) pa.attrs.aigp ++
  listAttr optionalTransitive BGP_ATTR_LARGE_COMMUNITIES 12 largeCommunitySpan pa.attrs.largeCommunities ++
  pa.attrs.unknownTransitive.map unknownAttr

theorem pathAttrs_eq (ebgp : Bool) (pa : PathAttribute) :
    pathAttrs use4 ebgp pa = headAttrs use4 pa ++ tailAttrs use4 ebgp pa := by
  simp only [pathAttrs, headAttrs, tailAttrs, List.append_assoc]

def headState (use4 : Bool) (pa : PathAttribute) : ParseState where
  update := { attrs := { origin := pa.attrs.origin
                         asPath := pa.attrs.asPath.map (·.sent use4)
                         as4Path := if use4 then [] else as4Read pa.attrs.as4Path }
              path := { nextHop := .ofV4 pa.path.nextHop.v4 } }

theorem decodes_head (h255 : ∀ seg ∈ pa.attrs.asPath, seg.asns.length ≤ 255)
    (horigin : ∀ o ∈ pa.attrs.origin, o ≤ BGP_ORIGIN_INCOMPLETE) (hlast : LastPasses pa.attrs.asPath)
    (hfits : asLen use4 pa.attrs.asPath ≤ 65535)
    (has4 : use4 = false → asLen true (as4Segments pa.attrs.as4Path) ≤ 65535) :
    Decodes use4 (headAttrs use4 pa) {} (headState use4 pa) := by
  have h := (((decodes_origin (s := {}) horigin).append (decodes_asPath h255 hlast hfits)).append
    (decodes_as4Path has4 rfl)).append (decodes_nextHop pa.path.nextHop.v4)
  simpa only [headAttrs, headState, ParseState.setAttrs, ParseState.attrs, Option.or_none,
    List.nil_append] using h

def tailState (use4 ebgp : Bool) (pa : PathAttribute) : ParseState where
  update := { attrs := { pa.attrs with
                asPath := pa.attrs.asPath.map (·.sent use4)
                as4Path := if use4 then [] else as4Read pa.attrs.as4Path
                as4Aggregator := none
                localPref := if ebgp then none else pa.attrs.localPref
                atomicAggregate := false, extendedCommunities := [] }
              path := { nextHop := .ofV4 pa.path.nextHop.v4 } }

theorem decodes_tail (ebgp : Bool) (h : pa.Decodable use4) :
    Decodes use4 (tailAttrs use4 ebgp pa) (headState use4 pa) (tailState use4 ebgp pa) := by
  have hlocal : ∀ s : ParseState, Decodes use4 (if ebgp then [] else
      optAttr BGP_ATTR_FLAG_TRANSITIVE BGP_ATTR_LOCAL_PREF 4 writeU32 pa.attrs.localPref) s
      (s.setAttrs { s.attrs with
        localPref := (if ebgp then none else pa.attrs.localPref).or s.attrs.localPref }) := by
    intro s
    cases ebgp with
    | false => exact decodes_localPref pa.attrs.localPref
    | true => exact .nil s
  have hatomic : (if pa.attrs.atomicAggregate then
      [(⟨BGP_ATTR_FLAG_TRANSITIVE, BGP_ATTR_ATOMIC_AGGREGATE, 0, []⟩ : TxAttr)] else []) = [] := by
    rw [show pa.attrs.atomicAggregate = false from h.apart.atomicAggregate]
    rfl
  have hext : listAttr optionalTransitive BGP_ATTR_EXTENDED_COMMUNITIES 8 writeU64
      pa.attrs.extendedCommunities = [] := by
    rw [show pa.attrs.extendedCommunities = [] from h.apart.extendedCommunities]
    rfl
  rw [tailAttrs, hatomic, hext, List.append_nil, List.append_nil]
  have hrun := ((((((((decodes_med (s := headState use4 pa) pa.attrs.med).append (hlocal _)).append
    (decodes_aggregator h.apart.asAggregator h.aggregator)).append
    (decodes_communities h.apart.communities)).append
    (decodes_originatorId pa.attrs.originatorId)).append (decodes_clusterList h.apart.clusterList)).append
    (decodes_aigp pa.attrs.aigp)).append (decodes_largeCommunities h.apart.largeCommunities)).append
    (decodes_unknown h.apart.unknownTransitive _)
  simpa only [headState, tailState, ParseState.setAttrs, ParseState.attrs, Option.or_none,
    List.nil_append] using hrun

/-- The spans of the attributes, cut behind the next hop. -/
theorem spans_eq (ebgp : Bool) (pa : PathAttribute) : (appendPathAttrs use4 ebgp pa).1.flatten =
    ((headAttrs use4 pa).flatMap TxAttr.spans).flatten ++
      ((tailAttrs use4 ebgp pa).flatMap TxAttr.spans).flatten := by
  rw [appendPathAttrs, pathAttrs_eq, List.flatMap_append, List.flatten_append]

/-- What is received where the attributes were written. -/
def updateRead (use4 ebgp : Bool) (pa : PathAttribute) : IncomingUpdate :=
  { (tailState use4 ebgp pa).update with attrs := mergeAs4 (unfiltered use4) (tailState use4 ebgp pa).attrs }

theorem parsePathAttributes_written (ebgp : Bool) (h : pa.Decodable use4) :
    parsePathAttributes (unfiltered use4) (appendPathAttrs use4 ebgp pa).1.flatten {} =
      .ok (updateRead use4 ebgp pa) := by
  have hall := (decodes_head h.short h.apart.origin h.last h.fits h.as4Fits).append (decodes_tail ebgp h)
  have hdata : (appendPathAttrs use4 ebgp pa).1.flatten.drop 0 =
      ((headAttrs use4 pa ++ tailAttrs use4 ebgp pa).flatMap TxAttr.spans).flatten ++ [] := by
    rw [List.drop_zero, spans_eq, List.append_nil, List.flatMap_append, List.flatten_append]
  have hreach := hall.reaches hdata
  refine parsePathAttributes_ok_iff.mpr ⟨tailState use4 ebgp pa, ⟨_, hreach, ?_⟩, rfl⟩
  rw [← List.append_nil ((headAttrs use4 pa ++ tailAttrs use4 ebgp pa).flatMap TxAttr.spans).flatten, ← hdata,
    List.drop_zero, Nat.zero_add]

/-- Only the paths are merged. -/
theorem mergeAs4_eq (cfg : RxConfig) (attrs : Attributes) : mergeAs4 cfg attrs =
    { attrs with asPath := (mergeAs4 cfg attrs).asPath, as4Path := (mergeAs4 cfg attrs).as4Path } := by
  rw [mergeAs4]
  split_ifs <;> rfl

theorem updateRead_asPath (ebgp : Bool) (pa : PathAttribute) :
    (updateRead use4 ebgp pa).attrs.asPath = pa.pathRead use4 := by
  rw [updateRead, PathAttribute.pathRead, mergeAs4, mergeAs4]
  dsimp only [tailState, ParseState.attrs]
  split_ifs <;> rfl

/-- The attributes come back if the path does. -/
theorem sameAttributes_updateRead_iff (ebgp : Bool) (h : pa.Decodable use4) :
    SameAttributes ebgp pa (updateRead use4 ebgp pa) ↔ pa.pathRead use4 = pa.attrs.asPath := by
  rw [← updateRead_asPath ebgp]
  refine ⟨SameAttributes.asPath, fun hpath => ?_⟩
  rw [updateRead] at hpath ⊢
  rw [mergeAs4_eq]
  constructor
  case asPath => exact hpath
  case nextHop => exact (IPAddress.ofV4_v4_iff _).mpr h.apart.nextHop
  case atomicAggregate => exact h.apart.atomicAggregate.symm
  case extendedCommunities => exact h.apart.extendedCommunities.symm
  case localPref =>
    rintro rfl
    rfl
  all_goals rfl

theorem pathRead_true (pa : PathAttribute) : pa.pathRead true = pa.attrs.asPath := map_sent _

/-! ### AS numbers of two bytes -/

/-- A path that comes back from AS numbers of two bytes: its end is what `AS4_PATH` says, two bytes hold
    what stands in front, and if there is such an end that part ends in a hop. -/
def PathAttribute.PathKept (pa : PathAttribute) : Prop :=
  ∃ front, pa.attrs.asPath = front ++ as4Read pa.attrs.as4Path ∧
    (∀ seg ∈ front, ∀ asn ∈ seg.asns, asn ≤ 65535) ∧
    (as4Read pa.attrs.as4Path ≠ [] → ∀ seg ∈ front.getLast?, segHops seg ≠ 0)

theorem sent_eq {seg : AsPathSegment} (h : ∀ asn ∈ seg.asns, asn ≤ 65535) : seg.sent false = seg := by
  have hasns : seg.asns.map (sentAsn false) = seg.asns.map id :=
    List.map_congr_left fun asn hasn => toUInt32_myAs2 (h asn hasn)
  rw [AsPathSegment.sent, hasns, List.map_id]

theorem narrow_sent {segs : List AsPathSegment} :
    ∀ seg ∈ segs.map (·.sent false), ∀ asn ∈ seg.asns, asn ≤ 65535 := by
  intro seg hseg asn hasn
  obtain ⟨seg', -, rfl⟩ := List.mem_map.mp hseg
  obtain ⟨asn', -, rfl⟩ := List.mem_map.mp hasn
  exact toUInt32_le _

theorem countHops_sent (segs : List AsPathSegment) :
    countHops (segs.map (·.sent false)) = countHops segs := by
  rw [countHops, List.map_map, countHops]
  refine congrArg List.sum (List.map_congr_left fun seg _ => ?_)
  simp [segHops, AsPathSegment.sent]

theorem countHops_cons (seg : AsPathSegment) (segs : List AsPathSegment) :
    countHops (seg :: segs) = segHops seg + countHops segs := by
  simp [countHops]

theorem keepHops_zero (segs : List AsPathSegment) : keepHops segs 0 = [] := by
  cases segs <;> simp [keepHops]

theorem keepHops_append {front : List AsPathSegment} (rest : List AsPathSegment)
    (hlast : ∀ seg ∈ front.getLast?, segHops seg ≠ 0) :
    keepHops (front ++ rest) (countHops front) = front := by
  induction front with
  | nil => exact keepHops_zero rest
  | cons seg front ih =>
    rw [List.cons_append, countHops_cons, keepHops, if_pos (Nat.le_add_right _ _), Nat.add_sub_cancel_left]
    cases front with
    | nil =>
      have hpos : segHops seg + countHops [] ≠ 0 := hlast seg rfl
      rw [ih (by simp), if_neg hpos]
    | cons seg' front =>
      have hrest := ih fun s hs => hlast s (by rwa [List.getLast?_cons_cons])
      have hpos : countHops (seg' :: front) ≠ 0 := by
        intro hzero
        rw [hzero, keepHops_zero] at hrest
        cases hrest
      rw [hrest, if_neg (by omega)]

theorem keepHops_last {segs : List AsPathSegment} {toKeep : ℕ} (h : toKeep ≤ countHops segs) :
    ∀ seg ∈ (keepHops segs toKeep).getLast?, segHops seg ≠ 0 := by
  induction segs generalizing toKeep with
  | nil => simp [keepHops]
  | cons seg segs ih =>
    rw [countHops_cons] at h
    intro s hs
    rw [keepHops] at hs
    split_ifs at hs with hzero hfits
    · cases hs
    · have hrest : toKeep - segHops seg ≤ countHops segs := by omega
      cases hkept : keepHops segs (toKeep - segHops seg) with
      | nil =>
        rw [hkept] at hs
        obtain rfl : seg = s := Option.some.inj hs
        have hcount := countHops_keepHops hrest
        rw [hkept, countHops, List.map_nil, List.sum_nil] at hcount
        omega
      | cons s' kept =>
        rw [hkept, List.getLast?_cons_cons, ← hkept] at hs
        exact ih hrest s hs
    · obtain rfl : AsPathSegment.mk seg.segmentType (seg.asns.take toKeep) = s := Option.some.inj hs
      rw [← length_segHops, hops_cut hzero hfits, List.length_take, length_segHops]
      omega

theorem mem_keepHops {P : AsPathSegment → Prop} {segs : List AsPathSegment} (h : ∀ seg ∈ segs, P seg)
    (hcut : ∀ seg n, P seg → P { seg with asns := seg.asns.take n }) (toKeep : ℕ) :
    ∀ seg ∈ keepHops segs toKeep, P seg := by
  induction segs generalizing toKeep with
  | nil => simp [keepHops]
  | cons seg segs ih =>
    have hhead := h seg List.mem_cons_self
    rw [keepHops]
    split_ifs
    · simp
    · exact List.forall_mem_cons.mpr ⟨hhead, ih (fun s hs => h s (List.mem_cons_of_mem _ hs)) _⟩
    · simpa using hcut seg toKeep hhead

theorem pathRead_false_iff : pa.pathRead false = pa.attrs.asPath ↔ pa.PathKept := by
  obtain ⟨as4, has4⟩ : ∃ as4, as4 = as4Read pa.attrs.as4Path := ⟨_, rfl⟩
  rw [PathAttribute.pathRead, mergeAs4_asPath _ rfl, PathAttribute.PathKept]
  simp only [Bool.false_eq_true, if_false, ← has4, countHops_sent]
  constructor
  · intro h
    split_ifs at h with hnone
    · refine ⟨pa.attrs.asPath, by rw [hnone, List.append_nil], ?_, fun hne => absurd hnone hne⟩
      rw [← h]
      exact narrow_sent
    · refine ⟨_, h.symm, mem_keepHops narrow_sent ?_ _, fun _ => keepHops_last ?_⟩
      · exact fun seg n hseg asn hasn => hseg asn (List.mem_of_mem_take hasn)
      · rw [countHops_sent]
        exact Nat.sub_le _ _
  · rintro ⟨front, hpath, hnarrow, hlast⟩
    have hfront : front.map (·.sent false) = front :=
      (List.map_congr_left fun seg hseg => sent_eq (hnarrow seg hseg)).trans (List.map_id _)
    rw [hpath]
    split_ifs with hnone
    · rw [hnone, List.append_nil, hfront]
    · have hcount : countHops (front ++ as4) - countHops as4 = countHops front := by
        rw [countHops, List.map_append, List.sum_append]
        exact Nat.add_sub_cancel _ _
      rw [hcount, List.map_append, hfront, keepHops_append _ (hlast hnone)]

theorem attrsRoundTrip_of_faithful (ebgp : Bool)
    (h255 : ∀ seg ∈ pa.attrs.asPath, seg.asns.length ≤ 255) (h : pa.Faithful) : AttrsRoundTrip ebgp pa :=
  ⟨_, parsePathAttributes_written ebgp (h.decodable h255),
    (sameAttributes_updateRead_iff ebgp (h.decodable h255)).mpr (pathRead_true pa)⟩

/-! ### What comes back is faithful -/

def wireSize (as : List TxAttr) : ℕ := (as.map fun a => attrHdrSize a.valueLen).sum

theorem wireSize_append (as bs : List TxAttr) : wireSize (as ++ bs) = wireSize as + wireSize bs := by
  simp [wireSize]

theorem wireSize_optAttr {α : Type} (flags type : UInt8) (len : ℕ) (span : α → List UInt8) (o : Option α) :
    wireSize (optAttr flags type len span o) = optCost (attrHdrSize len) o := by
  cases o <;> simp [wireSize, optAttr, optCost]

theorem listCost_eq {α : Type} (flags type : UInt8) {size : ℕ} (hpos : 0 < size) (span : α → List UInt8)
    (l : List α) : listCost (l.length * size) =
      wireSize (listAttr flags type size span l) + if l.length * size > 65535 then 1 else 0 := by
  cases l with
  | nil => simp [listCost, wireSize, listAttr]
  | cons a l =>
    have hne : ¬ (a :: l).length * size = 0 := by
      rw [Nat.mul_eq_zero]
      simp only [List.length_cons]
      omega
    have hsize : wireSize (listAttr flags type size span (a :: l)) = attrHdrSize ((a :: l).length * size) := by
      simp [wireSize, listAttr]
    rw [listCost, if_neg hne, hsize]

theorem wireSize_unknown (l : List UnknownAttribute) :
    wireSize (l.map unknownAttr) = (l.map fun ua => attrHdrSize ua.value.length).sum := by
  rw [wireSize, List.map_map]
  rfl

theorem UnknownAttribute.Received.size_le {ua : UnknownAttribute} (h : ua.Received) :
    attrHdrSize ua.value.length ≤ unknownCost ua ∧
      (attrHdrSize ua.value.length = unknownCost ua → ua.Kept) := by
  have hlen := h.length
  rw [RxAttr.maxLen] at hlen
  rw [attrHdrSize, unknownCost, RxAttr.hdrLen]
  by_cases hext : ua.rx.extended = true
  · rw [if_pos hext] at hlen ⊢
    refine ⟨by split_ifs <;> omega, fun heq => ⟨h, iff_of_true hext ?_⟩⟩
    split_ifs at heq <;> omega
  · rw [if_neg hext] at hlen ⊢
    rw [if_neg (by omega)]
    exact ⟨by omega, fun _ => ⟨h, iff_of_false hext (by omega)⟩⟩

theorem kept_of_sum_le {l : List UnknownAttribute} (h : ∀ ua ∈ l, ua.Received)
    (hsum : (l.map unknownCost).sum ≤ (l.map fun ua => attrHdrSize ua.value.length).sum) :
    ∀ ua ∈ l, ua.Kept := by
  intro ua hua
  refine (h ua hua).size_le.2 (le_antisymm (h ua hua).size_le.1 (not_lt.mp fun hlt => ?_))
  have hless := List.sum_lt_sum (fun ua => attrHdrSize ua.value.length) unknownCost
    (fun ua hua => (h ua hua).size_le.1) ⟨ua, hua, hlt⟩
  omega

theorem received_sum_le {l : List UnknownAttribute} (h : ∀ ua ∈ l, ua.Received) :
    (l.map fun ua => attrHdrSize ua.value.length).sum ≤ (l.map unknownCost).sum :=
  List.sum_le_sum fun ua hua => (h ua hua).size_le.1

theorem lastPasses_of_ends {ebgp : Bool} {s : ParseState}
    (h255 : ∀ seg ∈ pa.attrs.asPath, seg.asns.length ≤ 255)
    (horigin : ∀ o ∈ pa.attrs.origin, o ≤ BGP_ORIGIN_INCOMPLETE)
    (hfits : asLen use4 pa.attrs.asPath ≤ 65535)
    (hend : Ends (unfiltered use4) (appendPathAttrs use4 ebgp pa).1.flatten (0, {}) s) :
    LastPasses pa.attrs.asPath := by
  by_contra hlast
  obtain ⟨a, ha, hrefused⟩ : ∃ a, asPathAttr use4 pa.attrs.asPath = [a] ∧
      ∀ s s', decodeAttr a.rx s (unfiltered use4) ≠ .ok s' := decodeAttr_asPath_refused h255 hlast
  have hframed : a.Framed := by
    have hmem : a ∈ asPathAttr use4 pa.attrs.asPath := by simp [ha]
    rw [asPathAttr] at hmem
    split_ifs at hmem
    · cases hmem
    · obtain rfl := List.mem_singleton.mp hmem
      have hshort : BGP_ATTR_FLAG_TRANSITIVE &&& BGP_ATTR_FLAG_EXTENDED_LENGTH = 0 := rfl
      exact ⟨length_segSpans use4 _, hfits, fun _ => hshort⟩
  set origins := optAttr BGP_ATTR_FLAG_TRANSITIVE BGP_ATTR_ORIGIN 1 (fun o => [o]) pa.attrs.origin
  obtain ⟨rest, hdata⟩ : ∃ rest, (appendPathAttrs use4 ebgp pa).1.flatten.drop 0 =
      (origins.flatMap TxAttr.spans).flatten ++ (a.spans.flatten ++ rest) := by
    rw [List.drop_zero, spans_eq, headAttrs, ha]
    simp only [List.flatMap_append, List.flatten_append, List.append_assoc, List.flatMap_singleton]
    exact ⟨_, rfl⟩
  have hfirst : Decodes use4 origins {} _ := decodes_origin horigin
  have hreach := hfirst.reaches hdata
  have hrest := drop_of_drop hdata
  have hread := readAttr_written hframed hrest
  refine not_ends (readAttr_moves hread).1 ?_ ((ends_reaches hreach).mp hend)
  rintro y ⟨b, hb, hdecode⟩
  obtain ⟨rfl, -⟩ := Prod.mk.inj (Except.ok.inj (hread.symm.trans hb))
  exact hrefused _ _ hdecode

theorem wireSize_tail (ebgp : Bool) (hatomic : pa.attrs.atomicAggregate = false)
    (hext : pa.attrs.extendedCommunities = [])
    (hasn : use4 = false → ∀ agg ∈ pa.attrs.asAggregator, agg.asn ≤ 65535) :
    wireSize (tailAttrs use4 ebgp pa) =
      optCost 7 pa.attrs.med + optCost 7 (if ebgp then none else pa.attrs.localPref) +
        optCost (if use4 then 11 else 9) pa.attrs.asAggregator +
        wireSize (listAttr optionalTransitive BGP_ATTR_COMMUNITIES 4 writeU32 pa.attrs.communities) +
        optCost 7 pa.attrs.originatorId +
        wireSize (listAttr BGP_ATTR_FLAG_OPTIONAL BGP_ATTR_CLUSTER_LIST 4 writeU32 pa.attrs.clusterList) +
        optCost 14 pa.attrs.aigp +
        wireSize (listAttr optionalTransitive BGP_ATTR_LARGE_COMMUNITIES 12 largeCommunitySpan
          pa.attrs.largeCommunities) +
        (pa.attrs.unknownTransitive.map fun ua => attrHdrSize ua.value.length).sum := by
  have hlocal : wireSize (if ebgp then [] else
      optAttr BGP_ATTR_FLAG_TRANSITIVE BGP_ATTR_LOCAL_PREF 4 writeU32 pa.attrs.localPref) =
      optCost 7 (if ebgp then none else pa.attrs.localPref) := by
    cases ebgp with
    | false => exact wireSize_optAttr _ _ _ _ _
    | true => rfl
  have hagg : wireSize (aggregatorAttrs use4 pa.attrs.asAggregator) =
      optCost (if use4 then 11 else 9) pa.attrs.asAggregator := by
    rw [aggregatorAttrs_eq hasn, wireSize_optAttr]
    cases use4 <;> rfl
  have hempty : wireSize [] = 0 := rfl
  have hnone : listAttr optionalTransitive BGP_ATTR_EXTENDED_COMMUNITIES 8 writeU64 [] = [] := rfl
  rw [tailAttrs, hatomic, hext, hnone, if_neg Bool.false_ne_true]
  simp only [wireSize_append, wireSize_optAttr, wireSize_unknown, hlocal, hagg, hempty, Nat.add_zero]
  rfl

/-- The head of the attributes costs what is sent for it, and more if the path has more than 65535
    bytes. -/
theorem headCost_eq (pa : PathAttribute) : headCost true pa.attrs + 7 =
    wireSize (headAttrs true pa) + if asLen true pa.attrs.asPath > 65535 then 1 else 0 := by
  have hnh : wireSize [⟨BGP_ATTR_FLAG_TRANSITIVE, BGP_ATTR_NEXT_HOP, 4, [writeU32 pa.path.nextHop.v4]⟩] = 7 := rfl
  have hpath : listCost (asLen true pa.attrs.asPath) = wireSize (asPathAttr true pa.attrs.asPath) +
      if asLen true pa.attrs.asPath > 65535 then 1 else 0 := by
    cases pa.attrs.asPath with
    | nil => rfl
    | cons seg segs =>
      have hne : ¬ asLen true (seg :: segs) = 0 := by
        rw [asLen_cons]
        omega
      have hsize : wireSize (asPathAttr true (seg :: segs)) = attrHdrSize (asLen true (seg :: segs)) := by
        simp [wireSize, asPathAttr]
      rw [listCost, if_neg hne, hsize]
  have has4 : as4PathAttr true pa.attrs.as4Path = [] := if_pos rfl
  rw [headCost, headAttrs, has4, List.append_nil, wireSize_append, wireSize_append, wireSize_optAttr, hnh,
    hpath]
  simp only [show attrHdrSize 1 = 4 from rfl]
  omega

/-- A state with the attributes of `pa` costs what is sent behind the next hop.  Where it does not
    cost more, the lengths fit and the unknown attributes are kept. -/
theorem tailCost_spec {ebgp : Bool} {u : IncomingUpdate} (hsame : SameAttributes ebgp pa u)
    (hsound : Sound use4 u.attrs) : wireSize (tailAttrs use4 ebgp pa) ≤ tailCost use4 u.attrs ∧
      (tailCost use4 u.attrs ≤ wireSize (tailAttrs use4 ebgp pa) →
        pa.attrs.communities.length * 4 ≤ 65535 ∧ pa.attrs.clusterList.length * 4 ≤ 65535 ∧
          pa.attrs.largeCommunities.length * 12 ≤ 65535 ∧ ∀ ua ∈ pa.attrs.unknownTransitive, ua.Kept) := by
  have hatomic : pa.attrs.atomicAggregate = false := hsame.atomicAggregate ▸ hsound.atomicAggregate
  have hext : pa.attrs.extendedCommunities = [] := hsame.extendedCommunities ▸ hsound.extendedCommunities
  have hreceived : ∀ ua ∈ pa.attrs.unknownTransitive, ua.Received := by
    rw [← hsame.unknownTransitive]
    exact hsound.unknownTransitive
  have hunknown := received_sum_le hreceived
  have hasn : use4 = false → ∀ agg ∈ pa.attrs.asAggregator, agg.asn ≤ 65535 := fun h2 agg hagg =>
    (hsound.asAggregator agg (hsame.asAggregator ▸ hagg)).2 h2
  have hlocal : optCost 7 (if ebgp then none else pa.attrs.localPref) ≤ optCost 7 u.attrs.localPref := by
    cases ebgp with
    | false => exact (congrArg (optCost 7) (hsame.localPref rfl)).ge
    | true => exact Nat.zero_le _
  rw [wireSize_tail ebgp hatomic hext hasn, tailCost, hsame.med, hsame.asAggregator, hsame.communities,
    hsame.originatorId, hsame.clusterList, hsame.aigp, hsame.largeCommunities, hsame.unknownTransitive,
    listCost_eq optionalTransitive BGP_ATTR_COMMUNITIES (by decide) writeU32,
    listCost_eq BGP_ATTR_FLAG_OPTIONAL BGP_ATTR_CLUSTER_LIST (by decide) writeU32,
    listCost_eq optionalTransitive BGP_ATTR_LARGE_COMMUNITIES (by decide) largeCommunitySpan]
  refine ⟨by omega, fun hcost => ⟨?_, ?_, ?_, kept_of_sum_le hreceived (by omega)⟩⟩
  · by_contra hover
    rw [if_pos (not_le.mp hover)] at hcost
    omega
  · by_contra hover
    rw [if_pos (not_le.mp hover)] at hcost
    omega
  · by_contra hover
    rw [if_pos (not_le.mp hover)] at hcost
    omega

theorem length_data (ebgp : Bool) (pa : PathAttribute) : (appendPathAttrs use4 ebgp pa).1.flatten.length =
    wireSize (headAttrs use4 pa) + wireSize (tailAttrs use4 ebgp pa) := by
  rw [← attrSize_eq, appendPathAttrs, pathAttrs_eq, ← wireSize_append]
  rfl

theorem asPath_fits {ebgp : Bool} {s : ParseState} (hnh : pa.path.nextHop ≠ {})
    (hend : Ends fourByte (appendPathAttrs true ebgp pa).1.flatten (0, {}) s)
    (hsame : SameAttributes ebgp pa s.update) (hsound : Sound true s.attrs) :
    asLen true pa.attrs.asPath ≤ 65535 := by
  by_contra hover
  have hcost := cost_ends true {} hend (Nat.zero_le _)
  have hinit : cost true true {} {} = 0 := rfl
  have hhead : headCost true s.attrs = headCost true pa.attrs := by
    rw [headCost, headCost, ← hsame.origin, ← hsame.asPath]
    rfl
  have htail := (tailCost_spec hsame hsound).1
  have hprice : nextHopCost {} s.update.path.nextHop = 7 := by
    rw [hsame.nextHop]
    exact if_neg hnh
  have heq := headCost_eq pa
  rw [if_pos (not_le.mp hover)] at heq
  rw [hinit, cost, if_pos rfl, hhead, hprice, length_data] at hcost
  have htail' : wireSize (tailAttrs true ebgp pa) ≤ tailCost true s.attrs := htail
  omega

theorem cost_le_wireSize {ebgp : Bool} {s : ParseState}
    (hhead : Decodes use4 (headAttrs use4 pa) {} (headState use4 pa))
    (hend : Ends (unfiltered use4) (appendPathAttrs use4 ebgp pa).1.flatten (0, {}) s) :
    cost use4 false (.ofV4 pa.path.nextHop.v4) s ≤ wireSize (tailAttrs use4 ebgp pa) := by
  have hdata : (appendPathAttrs use4 ebgp pa).1.flatten = _ := spans_eq ebgp pa
  have hsized : ∀ a ∈ headAttrs use4 pa, a.Sized := by
    intro a ha
    refine sized_pathAttrs use4 ebgp pa a ?_
    rw [pathAttrs_eq]
    exact List.mem_append_left _ ha
  have hsize : ((headAttrs use4 pa).flatMap TxAttr.spans).flatten.length = wireSize (headAttrs use4 pa) :=
    (length_spans hsized).symm
  have hlen : (appendPathAttrs use4 ebgp pa).1.flatten.length = _ := length_data ebgp pa
  have hreach := hhead.reaches (List.drop_zero.trans hdata)
  have hinit : cost use4 false (.ofV4 pa.path.nextHop.v4) (headState use4 pa) = 0 := by
    simp [cost, tailCost, headState, ParseState.attrs, nextHopCost, optCost, listCost]
  have hcost := cost_ends false (.ofV4 pa.path.nextHop.v4) ((ends_reaches hreach).mp hend) (by omega)
  rw [hinit] at hcost
  omega

/-- What comes back, but for the path, was decodable. -/
theorem decodable_of_ends {ebgp : Bool} {s : ParseState}
    (h255 : ∀ seg ∈ pa.attrs.asPath, seg.asns.length ≤ 255) (hfits : asLen use4 pa.attrs.asPath ≤ 65535)
    (has4 : use4 = false → asLen true (as4Segments pa.attrs.as4Path) ≤ 65535)
    (hend : Ends (unfiltered use4) (appendPathAttrs use4 ebgp pa).1.flatten (0, {}) s)
    (hsame : SameAttributes ebgp { pa with attrs := { pa.attrs with asPath := s.attrs.asPath } } s.update) :
    pa.Decodable use4 := by
  have hsound : Sound use4 s.attrs := by
    obtain ⟨pos, hreach, -⟩ := hend
    exact sound_run hreach sound_init
  have horigin : ∀ o ∈ pa.attrs.origin, o ≤ BGP_ORIGIN_INCOMPLETE := by
    rw [← show s.attrs.origin = pa.attrs.origin from hsame.origin]
    exact hsound.origin
  have hlast := lastPasses_of_ends h255 horigin hfits hend
  have hcost := cost_le_wireSize (decodes_head h255 horigin hlast hfits has4) hend
  obtain ⟨hle, htail⟩ := tailCost_spec hsame hsound
  rw [cost, if_neg Bool.false_ne_true] at hcost
  -- what is sent is what the state costs at least, so that nothing is left for another next hop
  have hnh : nextHopCost (.ofV4 pa.path.nextHop.v4) s.update.path.nextHop = 0 := by
    have hle' : wireSize (tailAttrs use4 ebgp pa) ≤ tailCost use4 s.attrs := hle
    omega
  obtain ⟨hcomm, hcluster, hlarge, hkept⟩ := htail (by
    show tailCost use4 s.attrs ≤ wireSize (tailAttrs use4 ebgp pa)
    omega)
  have hagg : s.attrs.asAggregator = pa.attrs.asAggregator := hsame.asAggregator
  refine ⟨h255, hlast, hfits, has4, fun h2 agg hmem => (hsound.asAggregator agg (hagg ▸ hmem)).2 h2, horigin,
    by simp [LastPasses], Nat.zero_le _, ?_, ?_, fun agg hmem => (hsound.asAggregator agg (hagg ▸ hmem)).1,
    hcomm, hcluster, ?_, hlarge, hkept⟩
  · rw [← IPAddress.ofV4_v4_iff]
    rw [nextHopCost, hsame.nextHop] at hnh
    split_ifs at hnh with hsent
    exact hsent.symm
  · exact hsame.atomicAggregate ▸ hsound.atomicAggregate
  · exact hsame.extendedCommunities ▸ hsound.extendedCommunities

theorem faithful_of_attrsRoundTrip {ebgp : Bool} (h255 : ∀ seg ∈ pa.attrs.asPath, seg.asns.length ≤ 255)
    (hfits : asLen true pa.attrs.asPath ≤ 65535 ∨ pa.path.nextHop ≠ {}) (h : AttrsRoundTrip ebgp pa) :
    pa.Faithful := by
  obtain ⟨u, hparse, hsame⟩ := h
  obtain ⟨s, hend, rfl⟩ := parsePathAttributes_ok_iff.mp hparse
  have hupdate : SameAttributes ebgp pa s.update := { hsame with }
  have hsound : Sound true s.attrs := by
    obtain ⟨pos, hreach, -⟩ := hend
    exact sound_run hreach sound_init
  have hfits : asLen true pa.attrs.asPath ≤ 65535 :=
    hfits.elim id fun hnh => asPath_fits hnh hend hupdate hsound
  exact (decodable_of_ends h255 hfits (by simp) hend { hupdate with asPath := rfl }).faithful

/-- **What is faithful comes back, and what comes back is faithful.**  Left out of the second half is
    a path of more than 65535 bytes with the next hop that the parser starts with: its length does
    not fit the header, and what the parser makes of the rest depends on the AS numbers. -/
theorem attrsRoundTrip_iff (ebgp : Bool) (pa : PathAttribute)
    (h255 : ∀ seg ∈ pa.attrs.asPath, seg.asns.length ≤ 255) :
    (pa.Faithful → AttrsRoundTrip ebgp pa) ∧
      (asLen true pa.attrs.asPath ≤ 65535 ∨ pa.path.nextHop ≠ {} → AttrsRoundTrip ebgp pa → pa.Faithful) :=
  ⟨attrsRoundTrip_of_faithful ebgp h255, faithful_of_attrsRoundTrip h255⟩

end

def samplePath : PathAttribute where
  attrs := {
    origin := some 0
    asPath := [⟨2, [65001, 65002]⟩]
    localPref := some 100
    med := some 10
    asAggregator := some ⟨65001, .ofV4 0x0A000001⟩
    communities := [0xFDE90001]
    largeCommunities := [(65001, 1, 2)]
    originatorId := some 7
    clusterList := [8]
    aigp := some 9
    unknownTransitive := [⟨0xE0, 99, [1, 2, 3]⟩] }
  path := { nextHop := .ofV4 0x0A000002 }

theorem kept_sample : UnknownAttribute.Kept ⟨0xE0, 99, [1, 2, 3]⟩ where
  received := ⟨by decide, by decide, by decide, by decide, by decide⟩
  extended := by decide

theorem faithful_samplePath : samplePath.Faithful := by
  constructor
  case origin =>
    intro o ho
    obtain rfl : _ = o := Option.some.inj ho
    decide
  case asPath =>
    intro seg hseg
    obtain rfl : _ = seg := Option.some.inj hseg
    decide
  case asPathFits => decide
  case nextHop => exact isIPv4_ofV4 _
  case atomicAggregate => rfl
  case asAggregator =>
    intro agg hagg
    obtain rfl : _ = agg := Option.some.inj hagg
    exact isIPv4_ofV4 _
  case communities => decide
  case clusterList => decide
  case extendedCommunities => rfl
  case largeCommunities => decide
  case unknownTransitive =>
    intro ua hua
    obtain rfl := List.mem_singleton.mp hua
    exact kept_sample

theorem attrsRoundTrip_iff_sample : AttrsRoundTrip false samplePath :=
  (attrsRoundTrip_iff false samplePath (by decide)).1 faithful_samplePath

def neighborPath : PathAttribute where
  attrs := { origin := some 0, asPath := [⟨2, [65001]⟩] }
  path := { nextHop := .ofV4 0x0A000002 }

def aggregatePath : PathAttribute where
  attrs := { origin := some 0, atomicAggregate := true }
  path := { nextHop := .ofV4 0x0A000002 }

theorem not_attrsRoundTrip_sample : ¬ AttrsRoundTrip true neighborPath ∧ ¬ AttrsRoundTrip true aggregatePath := by
  have hneighbor : parsePathAttributes fourByte (appendPathAttrs true true neighborPath).1.flatten {} =
      .error (failWith BGP_NOTIFICATION_UPDATE_MALFORMED_AS_PATH) := rfl
  have haggregate : parsePathAttributes fourByte (appendPathAttrs true true aggregatePath).1.flatten {} =
      .error (failWith BGP_NOTIFICATION_UPDATE_UNRECOGNIZED_ATTR) := rfl
  constructor
  · rintro ⟨u, hparse, -⟩
    cases hneighbor.symm.trans hparse
  · rintro ⟨u, hparse, -⟩
    cases haggregate.symm.trans hparse

end VirtualRouter.Bgp
