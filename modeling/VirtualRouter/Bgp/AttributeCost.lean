/-
  What the parser of path attributes can make of a stream of bytes.

  * `Outcome`: what one attribute does to the state (`yields_decodeAttr`);
  * `Sound`: what holds of every state that the parser reaches;
  * `cost`: a state has its price in bytes, and no round puts more into the state
    than it reads (`cost_step`, `cost_run`).

  AS numbers have four bytes or two, and no attribute is configured to be discarded
  or to withdraw the routes.
-/
import VirtualRouter.Bgp.AttributeLoop

namespace VirtualRouter.Bgp

open Bytes Utils

/-- No attribute is filtered. -/
abbrev unfiltered (use4 : Bool) : RxConfig := { asn32bit := use4 }

abbrev fourByte : RxConfig := unfiltered true

variable {use4 : Bool}

/-- The types that the `switch` of the parser has a case for. -/
def decodedTypes : List UInt8 :=
  [BGP_ATTR_ORIGIN, BGP_ATTR_AS_PATH, BGP_ATTR_NEXT_HOP, BGP_ATTR_MULTI_EXIT_DISC, BGP_ATTR_LOCAL_PREF,
    BGP_ATTR_AGGREGATOR, BGP_ATTR_COMMUNITIES, BGP_ATTR_ORIGINATOR_ID, BGP_ATTR_CLUSTER_LIST,
    BGP_ATTR_MP_REACH_NLRI, BGP_ATTR_MP_UNREACH_NLRI, BGP_ATTR_AS4_PATH, BGP_ATTR_AS4_AGGREGATOR,
    BGP_ATTR_AIGP, BGP_ATTR_LARGE_COMMUNITIES]

theorem decodeAttr_unknown {a : RxAttr} (h : a.type ∉ decodedTypes) (s : ParseState) :
    decodeAttr a s (unfiltered use4) = decodeUnknown a s := by
  simp only [decodedTypes, List.mem_cons, List.not_mem_nil, or_false, not_or] at h
  simp [decodeAttr, h]

/-! ## Outcomes -/

/-- What an attribute does to the state. -/
inductive Outcome (use4 : Bool) (a : RxAttr) (s : ParseState) : ParseState → Prop where
  | same : Outcome use4 a s s
  | path {s' : ParseState} (h : s'.attrs = s.attrs)
      (hnh : s'.update.path.nextHop = s.update.path.nextHop ∨ 4 ≤ a.val.length) : Outcome use4 a s s'
  | origin {o : UInt8} (h : a.val.length = 1) (ho : o ≤ BGP_ORIGIN_INCOMPLETE) :
      Outcome use4 a s (s.setAttrs { s.attrs with origin := some o })
  | asPath {p : List AsPathSegment} (h : asLen use4 p ≤ asLen use4 s.attrs.asPath + a.val.length) :
      Outcome use4 a s (s.setAttrs { s.attrs with asPath := p })
  | as4Path (p : List AsPathSegment) : Outcome use4 a s (s.setAttrs { s.attrs with as4Path := p })
  | as4Aggregator (agg : Aggregator) :
      Outcome use4 a s (s.setAttrs { s.attrs with as4Aggregator := some agg })
  | med (v : UInt32) (h : a.val.length = 4) : Outcome use4 a s (s.setAttrs { s.attrs with med := some v })
  | localPref (v : UInt32) (h : a.val.length = 4) :
      Outcome use4 a s (s.setAttrs { s.attrs with localPref := some v })
  | aggregator {agg : Aggregator} (h : a.val.length = if use4 then 8 else 6)
      (hagg : agg.speaker.isIPv4 = true ∧ (use4 = false → agg.asn ≤ 65535)) :
      Outcome use4 a s (s.setAttrs { s.attrs with asAggregator := some agg })
  | communities {vs : List UInt32} (h : vs.length * 4 = a.val.length) :
      Outcome use4 a s (s.setAttrs { s.attrs with communities := s.attrs.communities ++ vs })
  | originatorId (v : UInt32) (h : a.val.length = 4) :
      Outcome use4 a s (s.setAttrs { s.attrs with originatorId := some v })
  | clusterList {vs : List UInt32} (h : vs.length * 4 = a.val.length) :
      Outcome use4 a s (s.setAttrs { s.attrs with clusterList := s.attrs.clusterList ++ vs })
  | aigp (v : UInt64) (h : 11 ≤ a.val.length) : Outcome use4 a s (s.setAttrs { s.attrs with aigp := some v })
  | largeCommunities {vs : List (UInt32 × UInt32 × UInt32)} (h : vs.length * 12 = a.val.length) :
      Outcome use4 a s (s.setAttrs { s.attrs with largeCommunities := s.attrs.largeCommunities ++ vs })
  | unknown (ht : a.type ∉ decodedTypes) (hopt : a.optional = true) (htrans : a.transitive = true) :
      Outcome use4 a s (s.setAttrs { s.attrs with
        unknownTransitive := s.attrs.unknownTransitive ++
          [⟨a.flags ||| BGP_ATTR_FLAG_PARTIAL, a.type, a.val⟩] })

section
variable {a : RxAttr} {s : ParseState}

theorem yields_decodeFixed {α : Type} {len : ℕ} {rd : List UInt8 → ℕ → Rx α} {set : α → Attributes}
    (h : ∀ v, a.val.length = len → rd a.val 0 = .ok v → Outcome use4 a s (s.setAttrs (set v))) :
    Yields (decodeFixed a s len rd set) (Outcome use4 a s) :=
  .ite (fun _ => yields_error) fun hlen => .bind fun v hread => yields_ok (h v (not_not.mp hlen) hread)

theorem yields_decodeList {α : Type} {size : ℕ} {rd : List UInt8 → ℕ → Rx α} {set : List α → Attributes}
    (h : ∀ vs : List α, vs.length * size = a.val.length → Outcome use4 a s (s.setAttrs (set vs))) :
    Yields (decodeList a s size rd set) (Outcome use4 a s) := by
  refine .ite (fun _ => yields_error) fun hlen => .bind fun vs hread => yields_ok (h vs ?_)
  rw [readMany_length hread]
  exact Nat.div_mul_cancel (Nat.dvd_of_mod_eq_zero (not_not.mp hlen))

theorem yields_decodeOrigin : Yields (decodeOrigin a s) (Outcome use4 a s) := by
  refine .ite (fun _ => yields_error) fun _ => .ite (fun _ => yields_error) fun hlen => .bind fun o _ => ?_
  exact .ite (fun _ => yields_error) fun ho => yields_ok (.origin (not_not.mp hlen) (UInt8.not_lt.mp ho))

theorem yields_asPathFrom (val : List UInt8) : ∀ (n ap : ℕ) (segs : List AsPathSegment), ap ≤ val.length →
    Yields (asPathFrom use4 val n ap segs) fun p => asLen use4 p + ap ≤ asLen use4 segs + val.length
  | 0, ap, segs, hap => yields_ok (by omega)
  | n + 1, ap, segs, hap => by
    refine .ite (fun hhdr => ?_) fun _ => yields_ok (by omega)
    refine .bind fun segType _ => .bind fun segLen _ => .ite (fun _ => yields_error) fun _ => ?_
    refine .bind fun asns hread => ?_
    have hlen : asns.length = segLen.toNat := readMany_length hread
    have hend : ap + 2 + segLen.toNat * asnBytes use4 ≤ val.length := by
      rcases Nat.eq_zero_or_pos segLen.toNat with hzero | hpos
      · rw [hzero, Nat.zero_mul]
        omega
      · by_contra hout
        cases (readMany_oob hpos (not_le.mp hout)).symm.trans hread
    intro p hp
    have hrest := yields_asPathFrom val n _ _ hend p hp
    have hsegs : asLen use4 (segs ++ [⟨segType, asns⟩]) = asLen use4 segs + (2 + segLen.toNat * asnBytes use4) := by
      simp [asLen, hlen, asnBytes]
    omega

theorem yields_decodeAsPath : Yields (decodeAsPath a s use4) (Outcome use4 a s) := by
  refine .ite (fun _ => yields_error) fun _ => .bind fun p hp => yields_ok (.asPath ?_)
  exact yields_asPathFrom a.val _ 0 _ (Nat.zero_le _) p hp

theorem yields_decodeAs4Path : Yields (decodeAs4Path a s) (Outcome use4 a s) :=
  .bind fun p _ => yields_ok (.as4Path p)

theorem yields_decodeNextHop : Yields (decodeNextHop a s) (Outcome use4 a s) := by
  refine .ite (fun _ => yields_error) fun _ => .ite (fun _ => yields_error) fun hlen => .bind fun _ _ => ?_
  exact yields_ok (.path rfl (.inr (not_not.mp hlen).ge))

theorem isIPv4_ofV4 (addr : UInt32) : (IPAddress.ofV4 addr).isIPv4 = true :=
  (IPAddress.ofV4_v4_iff _).mp (by rw [IPAddress.v4_ofV4])

/-- A value of two bytes in a word of four. -/
theorem toUInt32_le (v : UInt16) : v.toUInt32 ≤ 65535 := by
  rw [UInt32.le_iff_toNat_le, UInt16.toNat_toUInt32]
  exact Nat.le_of_lt_succ v.toNat_lt

theorem yields_rdAggregator {l : List UInt8} {i : ℕ} :
    Yields (rdAggregator use4 l i) fun agg =>
      agg.speaker.isIPv4 = true ∧ (use4 = false → agg.asn ≤ 65535) := by
  have hv4 (i : ℕ) : Yields (rdV4 l i) fun speaker => speaker.isIPv4 = true :=
    .ite (fun _ => yields_ok (isIPv4_ofV4 _)) fun _ => yields_error
  refine .ite (fun h4 => .bind fun asn _ => .bind fun speaker hread => ?_)
    fun _ => .bind fun asn _ => .bind fun speaker hread => ?_
  · exact yields_ok ⟨hv4 _ speaker hread, fun h2 => by simp [h4] at h2⟩
  · exact yields_ok ⟨hv4 _ speaker hread, fun _ => toUInt32_le _⟩

theorem yields_decodeMpReach : Yields (decodeMpReach a s) (Outcome use4 a s) := by
  refine .ite (fun _ => yields_error) fun hlen => .bind fun afi _ => .bind fun safi _ => .bind fun nhLen _ => ?_
  refine .ite (fun _ => yields_error) fun _ => .ite (fun _ => yields_error) fun _ => ?_
  exact .bind fun path _ => .bind fun nlriData _ => yields_ok (.path rfl (.inr (not_lt.mp hlen)))

theorem yields_decodeMpUnreach : Yields (decodeMpUnreach a s) (Outcome use4 a s) := by
  refine .ite (fun _ => yields_error) fun _ => .bind fun afi _ => .bind fun safi _ => ?_
  exact .ite (fun _ => yields_error) fun _ => .bind fun withdrawnData _ => yields_ok (.path rfl (.inl rfl))

theorem yields_decodeAigp : Yields (decodeAigp a s) (Outcome use4 a s) := by
  refine .ite (fun hlen => ?_) fun _ => yields_ok .same
  refine .bind fun type _ => .bind fun len _ => .ite (fun _ => ?_) fun _ => yields_ok .same
  exact .bind fun v _ => yields_ok (.aigp v hlen)

theorem yields_decodeUnknown (ht : a.type ∉ decodedTypes) : Yields (decodeUnknown a s) (Outcome use4 a s) := by
  refine .ite (fun _ => yields_error) fun hopt => .ite (fun htrans => ?_) fun _ => yields_ok .same
  exact yields_ok (.unknown ht (by simpa using hopt) htrans)

/-- **What an attribute does to the state.** -/
theorem yields_decodeAttr : Yields (decodeAttr a s (unfiltered use4)) (Outcome use4 a s) := by
  unfold decodeAttr
  refine .ite (fun _ => yields_ok .same) fun _ => .ite (fun _ => yields_error) fun _ =>
    .ite (fun _ => yields_decodeOrigin) fun h1 => .ite (fun _ => yields_decodeAsPath) fun h2 =>
    .ite (fun _ => yields_decodeNextHop) fun h3 =>
    .ite (fun _ => yields_decodeFixed fun v hlen _ => .med v hlen) fun h4 =>
    .ite (fun _ => .ite (fun _ => yields_error) fun _ =>
      yields_decodeFixed fun v hlen _ => .localPref v hlen) fun h5 =>
    .ite (fun _ => yields_decodeFixed fun agg hlen hread =>
      .aggregator hlen (yields_rdAggregator agg hread)) fun h6 =>
    .ite (fun _ => yields_decodeList fun _ hlen => .communities hlen) fun h7 =>
    .ite (fun _ => yields_decodeFixed fun v hlen _ => .originatorId v hlen) fun h8 =>
    .ite (fun _ => yields_decodeList fun _ hlen => .clusterList hlen) fun h9 =>
    .ite (fun _ => yields_decodeMpReach) fun h10 => .ite (fun _ => yields_decodeMpUnreach) fun h11 =>
    .ite (fun _ => yields_decodeAs4Path) fun h12 =>
    .ite (fun _ => yields_decodeFixed fun agg _ _ => .as4Aggregator agg) fun h13 =>
    .ite (fun _ => yields_decodeAigp) fun h14 =>
    .ite (fun _ => yields_decodeList fun _ hlen => .largeCommunities hlen) fun h15 =>
    yields_decodeUnknown ?_
  simp [decodedTypes, h1, h2, h3, h4, h5, h6, h7, h8, h9, h10, h11, h12, h13, h14, h15]

end

/-! ## What the parser returns -/

theorem forall_flags {P : UInt8 → Prop} (h : ∀ v : BitVec 8, P ⟨v⟩) (flags : UInt8) : P flags :=
  h flags.toBitVec

theorem or_partialFlag (flags : UInt8) :
    (flags ||| BGP_ATTR_FLAG_PARTIAL) &&& BGP_ATTR_FLAG_OPTIONAL = flags &&& BGP_ATTR_FLAG_OPTIONAL ∧
      (flags ||| BGP_ATTR_FLAG_PARTIAL) &&& BGP_ATTR_FLAG_TRANSITIVE =
        flags &&& BGP_ATTR_FLAG_TRANSITIVE ∧
      (flags ||| BGP_ATTR_FLAG_PARTIAL) &&& BGP_ATTR_FLAG_EXTENDED_LENGTH =
        flags &&& BGP_ATTR_FLAG_EXTENDED_LENGTH ∧
      (flags ||| BGP_ATTR_FLAG_PARTIAL) &&& BGP_ATTR_FLAG_PARTIAL ≠ 0 := by
  revert flags
  exact forall_flags (by decide +kernel)

def UnknownAttribute.rx (ua : UnknownAttribute) : RxAttr := ⟨ua.flags, ua.type, ua.value⟩

structure UnknownAttribute.Received (ua : UnknownAttribute) : Prop where
  type : ua.type ∉ decodedTypes
  optional : ua.rx.optional = true
  transitive : ua.rx.transitive = true
  flagPartial : ua.flags &&& BGP_ATTR_FLAG_PARTIAL ≠ 0
  length : ua.value.length ≤ ua.rx.maxLen

theorem received_flagged {a : RxAttr} (ht : a.type ∉ decodedTypes) (hopt : a.optional = true)
    (htrans : a.transitive = true) (hlen : a.val.length ≤ a.maxLen) :
    UnknownAttribute.Received ⟨a.flags ||| BGP_ATTR_FLAG_PARTIAL, a.type, a.val⟩ := by
  obtain ⟨hopt', htrans', hext, hpartial⟩ := or_partialFlag a.flags
  refine ⟨ht, ?_, ?_, hpartial, ?_⟩
  · rwa [UnknownAttribute.rx, RxAttr.optional, hopt']
  · rwa [UnknownAttribute.rx, RxAttr.transitive, htrans']
  · rwa [UnknownAttribute.rx, RxAttr.maxLen, RxAttr.extended, hext]

/-- What holds of the attributes that the parser returns. -/
structure Sound (use4 : Bool) (attrs : Attributes) : Prop where
  origin : ∀ o ∈ attrs.origin, o ≤ BGP_ORIGIN_INCOMPLETE
  atomicAggregate : attrs.atomicAggregate = false
  asAggregator : ∀ agg ∈ attrs.asAggregator,
    agg.speaker.isIPv4 = true ∧ (use4 = false → agg.asn ≤ 65535)
  extendedCommunities : attrs.extendedCommunities = []
  unknownTransitive : ∀ ua ∈ attrs.unknownTransitive, ua.Received

theorem sound_init : Sound use4 {} := by
  constructor <;> simp

section
variable {a : RxAttr} {s s' : ParseState}

theorem Sound.outcome (h : Outcome use4 a s s') (hlen : a.val.length ≤ a.maxLen) (hs : Sound use4 s.attrs) :
    Sound use4 s'.attrs := by
  cases h with
  | same => exact hs
  | path hattrs => rwa [hattrs]
  | origin _ ho =>
    refine { hs with origin := fun o hmem => ?_ }
    obtain rfl := Option.mem_some.mp hmem
    exact ho
  | asPath | as4Path | as4Aggregator | med | localPref | communities | originatorId | clusterList | aigp
  | largeCommunities => exact { hs with }
  | aggregator _ hagg =>
    refine { hs with asAggregator := fun agg hmem => ?_ }
    obtain rfl := Option.mem_some.mp hmem
    exact hagg
  | unknown ht hopt htrans =>
    refine { hs with unknownTransitive := fun ua hmem => ?_ }
    rcases List.mem_append.mp hmem with hmem | hmem
    · exact hs.unknownTransitive ua hmem
    · obtain rfl := List.mem_singleton.mp hmem
      exact received_flagged ht hopt htrans hlen

/-! ## What a state costs -/

/-- The price of a field that is set by an attribute of `n` bytes. -/
def optCost {α : Type} (n : ℕ) (o : Option α) : ℕ := if o.isSome then n else 0

/-- The price of a list of `n` bytes: one attribute, or at least two if its length has more than
    16 bits. -/
def listCost (n : ℕ) : ℕ := if n = 0 then 0 else attrHdrSize n + if n > 65535 then 1 else 0

def unknownCost (ua : UnknownAttribute) : ℕ := ua.rx.hdrLen + ua.value.length

/-- The price of another next hop than `nh`. -/
def nextHopCost (nh nh' : IPAddress) : ℕ := if nh' = nh then 0 else 7

/-- The price of what is sent in front of the next hop. -/
def headCost (use4 : Bool) (attrs : Attributes) : ℕ :=
  optCost 4 attrs.origin + listCost (asLen use4 attrs.asPath)

/-- The price of what is sent behind the next hop. -/
def tailCost (use4 : Bool) (attrs : Attributes) : ℕ :=
  optCost 7 attrs.med + optCost 7 attrs.localPref + optCost (if use4 then 11 else 9) attrs.asAggregator +
    listCost (attrs.communities.length * 4) + optCost 7 attrs.originatorId +
    listCost (attrs.clusterList.length * 4) + optCost 14 attrs.aigp +
    listCost (attrs.largeCommunities.length * 12) + (attrs.unknownTransitive.map unknownCost).sum

/-- The bytes that the parser reads at least before it has the state, from one with the next hop
    `nh`; what is sent in front of the next hop counts if `head`. -/
def cost (use4 head : Bool) (nh : IPAddress) (s : ParseState) : ℕ :=
  (if head then headCost use4 s.attrs else 0) + nextHopCost nh s.update.path.nextHop +
    tailCost use4 s.attrs

theorem optCost_some {α : Type} (n : ℕ) (v : α) : optCost n (some v) = n := rfl

theorem listCost_add {n m : ℕ} (h : m ≤ n + a.val.length) (hlen : a.val.length ≤ a.maxLen) :
    listCost m ≤ listCost n + (a.hdrLen + a.val.length) := by
  rw [RxAttr.maxLen] at hlen
  rw [RxAttr.hdrLen, listCost, listCost, attrHdrSize, attrHdrSize]
  split_ifs at hlen ⊢ <;> omega

theorem nextHopCost_le (nh nh' : IPAddress) : nextHopCost nh nh' ≤ 7 := by
  rw [nextHopCost]
  split_ifs <;> omega

theorem unknownCost_flagged (a : RxAttr) :
    unknownCost ⟨a.flags ||| BGP_ATTR_FLAG_PARTIAL, a.type, a.val⟩ = a.hdrLen + a.val.length := by
  rw [unknownCost, UnknownAttribute.rx, RxAttr.hdrLen, RxAttr.extended, (or_partialFlag a.flags).2.2.1]
  rfl

/-- **An attribute puts no more into the state than it has bytes.** -/
theorem cost_outcome (head : Bool) (nh : IPAddress) (h : Outcome use4 a s s')
    (hlen : a.val.length ≤ a.maxLen) :
    cost use4 head nh s' ≤ cost use4 head nh s + (a.hdrLen + a.val.length) := by
  have hhdr := a.three_le_hdrLen
  cases h with
  | same => omega
  | path hattrs hnh =>
    have hprice := nextHopCost_le nh s'.update.path.nextHop
    rw [cost, cost, hattrs]
    rcases hnh with hnh | hval
    · rw [hnh]
      omega
    · omega
  | as4Path | as4Aggregator => exact Nat.le_add_right _ _
  | origin hval =>
    simp only [cost, headCost, tailCost, ParseState.setAttrs, ParseState.attrs, optCost_some]
    split_ifs <;> omega
  | asPath hval =>
    have hcost := listCost_add hval hlen
    simp only [cost, headCost, tailCost, ParseState.setAttrs, ParseState.attrs] at hcost ⊢
    split_ifs <;> omega
  | aggregator hval =>
    simp only [cost, headCost, tailCost, ParseState.setAttrs, ParseState.attrs, optCost_some]
    cases use4 <;> simp only [if_true, Bool.false_eq_true, if_false] at hval ⊢ <;> omega
  | med _ hval | localPref _ hval | originatorId _ hval | aigp _ hval =>
    simp only [cost, headCost, tailCost, ParseState.setAttrs, ParseState.attrs, optCost_some]
    omega
  | @communities vs hval =>
    have hcost : listCost ((s.attrs.communities ++ vs).length * 4) ≤ _ :=
      listCost_add (by rw [List.length_append, Nat.add_mul, hval]) hlen
    simp only [cost, headCost, tailCost, ParseState.setAttrs, ParseState.attrs] at hcost ⊢
    omega
  | @clusterList vs hval =>
    have hcost : listCost ((s.attrs.clusterList ++ vs).length * 4) ≤ _ :=
      listCost_add (by rw [List.length_append, Nat.add_mul, hval]) hlen
    simp only [cost, headCost, tailCost, ParseState.setAttrs, ParseState.attrs] at hcost ⊢
    omega
  | @largeCommunities vs hval =>
    have hcost : listCost ((s.attrs.largeCommunities ++ vs).length * 12) ≤ _ :=
      listCost_add (by rw [List.length_append, Nat.add_mul, hval]) hlen
    simp only [cost, headCost, tailCost, ParseState.setAttrs, ParseState.attrs] at hcost ⊢
    omega
  | unknown =>
    simp only [cost, headCost, tailCost, ParseState.setAttrs, ParseState.attrs, List.map_append,
      List.map_cons, List.map_nil, List.sum_append, List.sum_cons, List.sum_nil, unknownCost_flagged]
    omega

end

/-! ## Runs -/

section
variable {data : List UInt8} {x y : ℕ × ParseState}

theorem sound_run (h : Reaches (unfiltered use4) data x y) (hx : Sound use4 x.2.attrs) :
    Sound use4 y.2.attrs := by
  induction h with
  | refl => exact hx
  | tail _ hstep ih =>
    obtain ⟨a, hread, hdecode⟩ := hstep
    exact ih.outcome (yields_decodeAttr _ hdecode) (readAttr_spec hread).2.2

/-- **A run puts no more into the state than it reads.** -/
theorem cost_run (head : Bool) (nh : IPAddress) (h : Reaches (unfiltered use4) data x y) :
    cost use4 head nh y.2 + x.1 ≤ cost use4 head nh x.2 + y.1 := by
  induction h with
  | refl => exact le_rfl
  | tail _ hstep ih =>
    obtain ⟨a, hread, hdecode⟩ := hstep
    obtain ⟨hnext, -, hlen⟩ := readAttr_spec hread
    have hcost := cost_outcome head nh (yields_decodeAttr _ hdecode) hlen
    omega

theorem pos_run {cfg : RxConfig} (h : Reaches cfg data x y) (hx : x.1 ≤ data.length) :
    y.1 ≤ data.length := by
  induction h with
  | refl => exact hx
  | tail _ hstep _ =>
    obtain ⟨a, hread, -⟩ := hstep
    exact (readAttr_spec hread).2.1

theorem cost_ends (head : Bool) (nh : IPAddress) {s : ParseState} (h : Ends (unfiltered use4) data x s)
    (hx : x.1 ≤ data.length) : cost use4 head nh s + x.1 ≤ cost use4 head nh x.2 + data.length := by
  obtain ⟨pos, hreach, hend⟩ := h
  have hpos := pos_run hreach hx
  have hcost := cost_run head nh hreach
  exact hcost.trans (Nat.add_le_add_left hpos _)

end

end VirtualRouter.Bgp
