/-
  Path attributes (`routing/bgp/attributes/AttributeTypes.hpp`) and how they are
  written (`BgpTx::appendAttrHdr`, `BgpTx::appendPathAttrs`).

  `TxAttr` is one call of `appendAttrHdr` with the spans that are reserved and
  filled behind it; `pathAttrs` lists these calls in the order of the source, and
  `appendPathAttrs` is the list of all spans and the size that it returns.

  `attrSize_eq`: the size returned is the number of bytes appended.
-/
import VirtualRouter.Bgp.BgpTx
import VirtualRouter.Bgp.CapabilityRoundTrip

namespace VirtualRouter.Bgp

open Bytes Utils

/-! ## The data -/

/-- `IPAddress`: 128 bits, an IPv4 address behind `0xFFFF`. -/
structure IPAddress where
  raw : BitVec 128 := 0
  deriving DecidableEq, Repr

namespace IPAddress

/-- The address of a `uint32_t`. -/
def ofV4 (addr : UInt32) : IPAddress := ⟨addr.toBitVec.setWidth 128 ||| (0xFFFF : BitVec 128) <<< 32⟩

/-- `v4`: the low 32 bits. -/
def v4 (a : IPAddress) : UInt32 := UInt32.ofBitVec (a.raw.setWidth 32)

def isIPv4 (a : IPAddress) : Bool := a.raw >>> 32 = 0xFFFF

theorem v4_ofV4 (addr : UInt32) : (ofV4 addr).v4 = addr := by
  apply UInt32.toBitVec_inj.mp
  ext i hi
  simp [v4, ofV4]

theorem ofV4_v4_iff (a : IPAddress) : ofV4 a.v4 = a ↔ a.isIPv4 = true := by
  obtain ⟨r⟩ := a
  simp only [ofV4, v4, isIPv4, IPAddress.mk.injEq, decide_eq_true_eq]
  constructor
  · intro h
    have hlow : ((r.setWidth 32).setWidth 128) >>> 32 = 0 := by
      apply BitVec.eq_of_getLsbD_eq
      intro i hi
      simp
    have hhigh : ((0xFFFF : BitVec 128) <<< 32) >>> 32 = 0xFFFF := by decide
    rw [← h, BitVec.ushiftRight_or_distrib, hlow, hhigh]
    decide
  · intro h
    apply BitVec.eq_of_getLsbD_eq
    intro i hi
    have hbit := congrArg (fun v => v.getLsbD (i - 32)) h
    simp only [BitVec.getLsbD_ushiftRight] at hbit
    simp only [BitVec.getLsbD_or, BitVec.getLsbD_setWidth, BitVec.getLsbD_shiftLeft, ← hbit]
    by_cases hlow : i < 32
    · simp [hlow, hi]
    · have hshift : 32 + (i - 32) = i := by omega
      simp [hlow, hi, hshift]

end IPAddress

structure AsPathSegment where
  segmentType : UInt8
  asns : List UInt32
  deriving DecidableEq, Repr

structure UnknownAttribute where
  flags : UInt8
  type : UInt8
  value : List UInt8
  deriving DecidableEq, Repr

structure Aggregator where
  asn : UInt32
  speaker : IPAddress
  deriving DecidableEq, Repr

/-- `Path`, without the family, which neither side reads. -/
structure Path where
  nextHop : IPAddress := {}
  linkLocal : Option IPAddress := none
  rd : Option UInt64 := none
  deriving DecidableEq, Repr

/-- `Attributes`; a large community is a triple. -/
structure Attributes where
  origin : Option UInt8 := none
  asPath : List AsPathSegment := []
  as4Path : List AsPathSegment := []
  localPref : Option UInt32 := none
  atomicAggregate : Bool := false
  med : Option UInt32 := none
  asAggregator : Option Aggregator := none
  as4Aggregator : Option Aggregator := none
  communities : List UInt32 := []
  extendedCommunities : List UInt64 := []
  largeCommunities : List (UInt32 × UInt32 × UInt32) := []
  originatorId : Option UInt32 := none
  clusterList : List UInt32 := []
  aigp : Option UInt64 := none
  unknownTransitive : List UnknownAttribute := []
  deriving DecidableEq, Repr

structure PathAttribute where
  attrs : Attributes := {}
  path : Path := {}
  deriving DecidableEq, Repr

def BGP_ATTR_ORIGIN : UInt8 := 1
def BGP_ATTR_AS_PATH : UInt8 := 2
def BGP_ATTR_NEXT_HOP : UInt8 := 3
def BGP_ATTR_MULTI_EXIT_DISC : UInt8 := 4
def BGP_ATTR_LOCAL_PREF : UInt8 := 5
def BGP_ATTR_ATOMIC_AGGREGATE : UInt8 := 6
def BGP_ATTR_AGGREGATOR : UInt8 := 7
def BGP_ATTR_COMMUNITIES : UInt8 := 8
def BGP_ATTR_ORIGINATOR_ID : UInt8 := 9
def BGP_ATTR_CLUSTER_LIST : UInt8 := 10
def BGP_ATTR_MP_REACH_NLRI : UInt8 := 14
def BGP_ATTR_MP_UNREACH_NLRI : UInt8 := 15
def BGP_ATTR_EXTENDED_COMMUNITIES : UInt8 := 16
def BGP_ATTR_AS4_PATH : UInt8 := 17
def BGP_ATTR_AS4_AGGREGATOR : UInt8 := 18
def BGP_ATTR_AIGP : UInt8 := 26
def BGP_ATTR_LARGE_COMMUNITIES : UInt8 := 32

def BGP_ATTR_FLAG_OPTIONAL : UInt8 := 0x80
def BGP_ATTR_FLAG_TRANSITIVE : UInt8 := 0x40
def BGP_ATTR_FLAG_PARTIAL : UInt8 := 0x20
def BGP_ATTR_FLAG_EXTENDED_LENGTH : UInt8 := 0x10

/-! ## Writing -/

/-- `appendAttrHdr`: the span of the header. -/
def appendAttrHdr (flags type : UInt8) (valueLen : ℕ) : List UInt8 :=
  if valueLen > 255 then
    [flags ||| BGP_ATTR_FLAG_EXTENDED_LENGTH, type] ++ writeU16 (UInt16.ofNat valueLen)
  else [flags, type, UInt8.ofNat valueLen]

/-- What `appendAttrHdr` adds to `attrsSize`. -/
def attrHdrSize (valueLen : ℕ) : ℕ := valueLen + if valueLen > 255 then 4 else 3

/-- An attribute: the arguments of `appendAttrHdr` and the spans of the value. -/
structure TxAttr where
  flags : UInt8
  type : UInt8
  valueLen : ℕ
  value : List (List UInt8)

/-- The flags of the attributes that have two of them. -/
def optionalTransitive : UInt8 := BGP_ATTR_FLAG_OPTIONAL ||| BGP_ATTR_FLAG_TRANSITIVE

def asnSpan (use4 : Bool) (asn : UInt32) : List UInt8 :=
  if use4 then writeU32 asn else writeU16 (myAs2 asn)

def segSpans (use4 : Bool) (seg : AsPathSegment) : List (List UInt8) :=
  [seg.segmentType, UInt8.ofNat seg.asns.length] :: seg.asns.map (asnSpan use4)

/-- The length that is computed for a path. -/
def asLen (use4 : Bool) (segs : List AsPathSegment) : ℕ :=
  (segs.map fun seg => 2 + seg.asns.length * if use4 then 4 else 2).sum

/-- The segments of the `AS4_PATH` attribute: the AS numbers that two bytes do not hold. -/
def as4Segments (segs : List AsPathSegment) : List AsPathSegment :=
  (segs.map fun seg => { seg with asns := seg.asns.filter (· > 65535) }).filter (!·.asns.isEmpty)

def aggregatorSpan (agg : Aggregator) : List UInt8 := writeU32 agg.asn ++ writeU32 agg.speaker.v4

def largeCommunitySpan (lc : UInt32 × UInt32 × UInt32) : List UInt8 :=
  writeU32 lc.1 ++ writeU32 lc.2.1 ++ writeU32 lc.2.2

def listAttr {α : Type} (flags type : UInt8) (size : ℕ) (span : α → List UInt8) (l : List α) :
    List TxAttr :=
  if l.isEmpty then [] else [⟨flags, type, l.length * size, l.map span⟩]

/-- An attribute of `len` bytes, which is left out when it is not set. -/
def optAttr {α : Type} (flags type : UInt8) (len : ℕ) (span : α → List UInt8) (o : Option α) :
    List TxAttr :=
  (o.map fun a => (⟨flags, type, len, [span a]⟩ : TxAttr)).toList

def aggregatorAttrs (use4 : Bool) (o : Option Aggregator) : List TxAttr :=
  match o with
  | none => []
  | some agg =>
    if use4 then [⟨optionalTransitive, BGP_ATTR_AGGREGATOR, 8, [aggregatorSpan agg]⟩]
    else
      ⟨optionalTransitive, BGP_ATTR_AGGREGATOR, 6, [writeU16 (myAs2 agg.asn) ++ writeU32 agg.speaker.v4]⟩ ::
        if agg.asn > 65535 then
          [⟨optionalTransitive, BGP_ATTR_AS4_AGGREGATOR, 8, [aggregatorSpan agg]⟩]
        else []

def asPathAttr (use4 : Bool) (segs : List AsPathSegment) : List TxAttr :=
  if segs.isEmpty then []
  else [⟨BGP_ATTR_FLAG_TRANSITIVE, BGP_ATTR_AS_PATH, asLen use4 segs, segs.flatMap (segSpans use4)⟩]

def as4PathAttr (use4 : Bool) (segs : List AsPathSegment) : List TxAttr :=
  if use4 || (as4Segments segs).isEmpty then []
  else [⟨optionalTransitive, BGP_ATTR_AS4_PATH, asLen true (as4Segments segs),
    (as4Segments segs).flatMap (segSpans true)⟩]

def unknownAttr (ua : UnknownAttribute) : TxAttr :=
  ⟨ua.flags ||| BGP_ATTR_FLAG_PARTIAL, ua.type, ua.value.length, [ua.value]⟩

def pathAttrs (use4 ebgp : Bool) (pa : PathAttribute) : List TxAttr :=
  optAttr BGP_ATTR_FLAG_TRANSITIVE BGP_ATTR_ORIGIN 1 (fun o => [o]) pa.attrs.origin ++
  asPathAttr use4 pa.attrs.asPath ++
  as4PathAttr use4 pa.attrs.as4Path ++
  [⟨BGP_ATTR_FLAG_TRANSITIVE, BGP_ATTR_NEXT_HOP, 4, [writeU32 pa.path.nextHop.v4]⟩] ++
  optAttr BGP_ATTR_FLAG_OPTIONAL BGP_ATTR_MULTI_EXIT_DISC 4 writeU32 pa.attrs.med ++
  (if ebgp then [] else
    optAttr BGP_ATTR_FLAG_TRANSITIVE BGP_ATTR_LOCAL_PREF 4 writeU32 pa.attrs.localPref) ++
  (if pa.attrs.atomicAggregate then
    [⟨BGP_ATTR_FLAG_TRANSITIVE, BGP_ATTR_ATOMIC_AGGREGATE, 0, []⟩] else []) ++
  aggregatorAttrs use4 pa.attrs.asAggregator ++
  listAttr optionalTransitive BGP_ATTR_COMMUNITIES 4 writeU32 pa.attrs.communities ++
  optAttr BGP_ATTR_FLAG_OPTIONAL BGP_ATTR_ORIGINATOR_ID 4 writeU32 pa.attrs.originatorId ++
  listAttr BGP_ATTR_FLAG_OPTIONAL BGP_ATTR_CLUSTER_LIST 4 writeU32 pa.attrs.clusterList ++
  listAttr optionalTransitive BGP_ATTR_EXTENDED_COMMUNITIES 8 writeU64 pa.attrs.extendedCommunities ++
  optAttr BGP_ATTR_FLAG_OPTIONAL BGP_ATTR_AIGP 11 (fun v => 1 :: writeU16 11 ++ writeU64 v) pa.attrs.aigp ++
  listAttr optionalTransitive BGP_ATTR_LARGE_COMMUNITIES 12 largeCommunitySpan pa.attrs.largeCommunities ++
  pa.attrs.unknownTransitive.map unknownAttr

def TxAttr.spans (a : TxAttr) : List (List UInt8) := appendAttrHdr a.flags a.type a.valueLen :: a.value

/-- `appendPathAttrs`: the spans, and the size returned. -/
def appendPathAttrs (use4 ebgp : Bool) (pa : PathAttribute) : List (List UInt8) × ℕ :=
  ((pathAttrs use4 ebgp pa).flatMap TxAttr.spans,
    ((pathAttrs use4 ebgp pa).map fun a => attrHdrSize a.valueLen).sum)

/-! ## Sizes -/

/-- The length announced is the length of the value. -/
def TxAttr.Sized (a : TxAttr) : Prop := a.value.flatten.length = a.valueLen

theorem length_flatten_map {α : Type} {span : α → List UInt8} {size : ℕ}
    (h : ∀ a, (span a).length = size) (l : List α) : (l.map span).flatten.length = l.length * size := by
  rw [← List.flatMap_def]
  exact length_flatMap_block h l

theorem sized_optAttr {α : Type} {flags type : UInt8} {len : ℕ} {span : α → List UInt8}
    (h : ∀ a, (span a).length = len) (o : Option α) : ∀ a ∈ optAttr flags type len span o, a.Sized := by
  intro a ha
  cases o with
  | none => cases ha
  | some v =>
    obtain rfl := List.mem_singleton.mp ha
    simp [TxAttr.Sized, h]

theorem sized_listAttr {α : Type} {flags type : UInt8} {size : ℕ} {span : α → List UInt8}
    (h : ∀ a, (span a).length = size) (l : List α) : ∀ a ∈ listAttr flags type size span l, a.Sized := by
  intro a ha
  rw [listAttr] at ha
  split_ifs at ha
  · cases ha
  · obtain rfl := List.mem_singleton.mp ha
    exact length_flatten_map h l

theorem length_segSpans (use4 : Bool) (segs : List AsPathSegment) :
    (segs.flatMap (segSpans use4)).flatten.length = asLen use4 segs := by
  have hasn : ∀ asn, (asnSpan use4 asn).length = if use4 then 4 else 2 := by
    intro asn
    cases use4 <;> rfl
  induction segs with
  | nil => rfl
  | cons seg segs ih =>
    rw [List.flatMap_cons, List.flatten_append, List.length_append, ih, segSpans, List.flatten_cons,
      List.length_append, length_flatten_map hasn]
    simp [asLen]

theorem sized_pathAttrs (use4 ebgp : Bool) (pa : PathAttribute) :
    ∀ a ∈ pathAttrs use4 ebgp pa, a.Sized := by
  have happ : ∀ {l r : List TxAttr}, (∀ a ∈ l, a.Sized) → (∀ a ∈ r, a.Sized) → ∀ a ∈ l ++ r, a.Sized :=
    fun hl hr a ha => (List.mem_append.mp ha).elim (hl a) (hr a)
  have hone : ∀ {a : TxAttr}, a.Sized → ∀ b ∈ [a], b.Sized := by
    intro a h b hb
    rwa [List.mem_singleton.mp hb]
  have hempty : ∀ b ∈ ([] : List TxAttr), b.Sized := by simp
  refine happ (happ (happ (happ (happ (happ (happ (happ (happ (happ (happ (happ (happ (happ
    ?_ ?_) ?_) ?_) ?_) ?_) ?_) ?_) ?_) ?_) ?_) ?_) ?_) ?_) ?_
  · refine sized_optAttr ?_ _
    intro o
    rfl
  · rw [asPathAttr]
    split_ifs
    · exact hempty
    · exact hone (length_segSpans use4 _)
  · rw [as4PathAttr]
    split_ifs
    · exact hempty
    · exact hone (length_segSpans true _)
  · exact hone rfl
  · exact sized_optAttr length_writeU32 _
  · split_ifs
    · exact hempty
    · exact sized_optAttr length_writeU32 _
  · split_ifs
    · exact hone rfl
    · exact hempty
  · unfold aggregatorAttrs
    split
    · exact hempty
    · split_ifs
      · exact hone rfl
      · intro a ha
        rcases List.mem_pair.mp ha with rfl | rfl
        · rfl
        · rfl
      · exact hone rfl
  · exact sized_listAttr length_writeU32 _
  · exact sized_optAttr length_writeU32 _
  · exact sized_listAttr length_writeU32 _
  · exact sized_listAttr length_writeU64 _
  · refine sized_optAttr ?_ _
    intro v
    rfl
  · refine sized_listAttr ?_ _
    intro lc
    rfl
  · intro a ha
    obtain ⟨ua, -, rfl⟩ := List.mem_map.mp ha
    simp [TxAttr.Sized, unknownAttr]

theorem length_appendAttrHdr (flags type : UInt8) (valueLen : ℕ) :
    (appendAttrHdr flags type valueLen).length + valueLen = attrHdrSize valueLen := by
  rw [appendAttrHdr, attrHdrSize]
  split_ifs
  · simp only [List.length_append, List.length_cons, List.length_nil, length_writeU16]
    omega
  · simp only [List.length_cons, List.length_nil]
    omega

theorem length_spans {as : List TxAttr} (h : ∀ a ∈ as, a.Sized) :
    (as.map fun a => attrHdrSize a.valueLen).sum = (as.flatMap TxAttr.spans).flatten.length := by
  induction as with
  | nil => rfl
  | cons a as ih =>
    have hhdr := length_appendAttrHdr a.flags a.type a.valueLen
    have ha : a.value.flatten.length = a.valueLen := h a List.mem_cons_self
    rw [List.map_cons, List.sum_cons, ih fun b hb => h b (List.mem_cons_of_mem _ hb),
      List.flatMap_cons, List.flatten_append, List.length_append, TxAttr.spans, List.flatten_cons,
      List.length_append, ha, hhdr]

/-- **The size returned is the number of bytes appended.** -/
theorem attrSize_eq (use4 ebgp : Bool) (pa : PathAttribute) :
    (appendPathAttrs use4 ebgp pa).2 = (appendPathAttrs use4 ebgp pa).1.flatten.length := by
  have h := length_spans (sized_pathAttrs use4 ebgp pa)
  simpa only [appendPathAttrs] using h

end VirtualRouter.Bgp
