/-
  The bounds of the UPDATE parser.

  `processUpdate` leaves the bounds of the payload or of an attribute in two
  places: the check of an `AS_PATH` segment lets segments pass whose AS numbers
  go on behind the attribute, and the loop over the SNPAs of `MP_REACH_NLRI` goes
  past its end, so that the length of the NLRI wraps around.

  * `AsPathInside`, `SnpaInside`: the attribute is not of that kind;
  * `decodeAttr_inside_iff`: an attribute is decoded in bounds iff it is inside;
  * `processUpdate_inside_iff`: a message is processed in bounds iff the attributes
    that the parser reaches are inside.
-/
import VirtualRouter.Bgp.AttributeLoop

namespace VirtualRouter.Bgp

open Bytes Utils

abbrev InBounds {α : Type} (x : Rx α) : Prop := Inside Stop.outside x

theorem inBounds_failWith {α : Type} (code : UInt16) : InBounds (.error (failWith code) : Rx α) := by
  simp [inside_error, failWith]

theorem inBounds_error {α : Type} (n : Notification) : InBounds (.error (.error n) : Rx α) := by
  simp [inside_error]

/-! ## The two places -/

/-- The AS numbers of every segment that passes the check of `asPathFrom` are in the value. -/
def AsPathInside (use4 : Bool) (val : List UInt8) : ℕ → ℕ → Prop
  | 0, _ => True
  | n + 1, ap =>
    let segLen := (ofList val (ap + 1)).toNat
    ap + 2 ≤ val.length → ap + 2 + segLen + asnBytes use4 ≤ val.length →
      ap + 2 + segLen * asnBytes use4 ≤ val.length ∧
        AsPathInside use4 val n (ap + 2 + segLen * asnBytes use4)

def SnpaInside (val : List UInt8) : ℕ → ℕ → Prop
  | 0, mpPos => mpPos ≤ val.length
  | count + 1, mpPos =>
    mpPos ≤ val.length ∧ (mpPos < val.length →
      SnpaInside val count (mpPos + 1 + ((ofList val mpPos).toNat + 1) / 2))

/-- The NLRI of an `MP_REACH_NLRI` that passes the checks are a part of its value. -/
def MpReachInside (a : RxAttr) (s : ParseState) : Prop :=
  let p := ofList a.val
  let nhLen := (p 3).toNat
  4 + nhLen < a.val.length → otherFamily s.unreachAfi ⟨readU16 p, p 2⟩ = false →
    SnpaInside a.val (p (4 + nhLen)).toNat (4 + nhLen + 1)

/-- The attribute is decoded: its type is in none of the configured ranges. -/
def RxConfig.takes (cfg : RxConfig) (a : RxAttr) : Bool := !cfg.discard a.type && !cfg.withdraw a.type

structure AttrInside (cfg : RxConfig) (s : ParseState) (a : RxAttr) : Prop where
  asPath : cfg.takes a = true → a.type = BGP_ATTR_AS_PATH → a.wellKnown = true →
    AsPathInside cfg.asn32bit a.val a.val.length 0
  mpReach : cfg.takes a = true → a.type = BGP_ATTR_MP_REACH_NLRI → MpReachInside a s

theorem asPathFrom_inside_iff (use4 : Bool) (val : List UInt8) : ∀ (n ap : ℕ) (segs : List AsPathSegment),
    InBounds (asPathFrom use4 val n ap segs) ↔ AsPathInside use4 val n ap
  | 0, _, segs => iff_of_true (inside_ok segs) trivial
  | n + 1, ap, segs => by
    rw [asPathFrom, AsPathInside]
    by_cases hap : ap + 2 ≤ val.length
    · rw [if_pos hap, rd8_ok (by omega), ok_bind, rd8_ok (by omega), ok_bind]
      set segLen := ofList val (ap + 1)
      by_cases hcheck : ap + 2 + segLen.toNat + asnBytes use4 > val.length
      · rw [if_pos hcheck]
        refine iff_of_true (inBounds_failWith _) fun _ hpass => ?_
        omega
      · rw [if_neg hcheck]
        have hpass : ap + 2 + segLen.toNat + asnBytes use4 ≤ val.length := by omega
        by_cases hfits : ap + 2 + segLen.toNat * asnBytes use4 ≤ val.length
        · rw [show readMany (rdAsn use4 val) (asnBytes use4) segLen.toNat (ap + 2) = _ from
            readMany_ok hfits, ok_bind, asPathFrom_inside_iff use4 val n]
          exact ⟨fun h _ _ => ⟨hfits, h⟩, fun h => (h hap hpass).2⟩
        · -- the last AS number of the segment is read behind the value
          have hpos : 0 < segLen.toNat := by
            rcases Nat.eq_zero_or_pos segLen.toNat with hzero | hpos
            · rw [hzero] at hfits
              omega
            · exact hpos
          rw [show readMany (rdAsn use4 val) (asnBytes use4) segLen.toNat (ap + 2) = _ from
            readMany_oob hpos (by omega), error_bind]
          refine iff_of_false (by simp [inside_error]) fun h => hfits (h hap hpass).1
    · rw [if_neg hap]
      exact iff_of_true (inside_ok segs) fun h => absurd h hap

theorem snpaFrom_spec (val : List UInt8) : ∀ count mpPos : ℕ,
    ∃ last, snpaFrom val count mpPos = .ok last ∧ (last ≤ val.length ↔ SnpaInside val count mpPos)
  | 0, mpPos => ⟨mpPos, rfl, Iff.rfl⟩
  | count + 1, mpPos => by
    rw [snpaFrom, SnpaInside]
    by_cases hpos : mpPos < val.length
    · obtain ⟨last, hloop, hiff⟩ :=
        snpaFrom_spec val count (mpPos + 1 + ((ofList val mpPos).toNat + 1) / 2)
      refine ⟨last, ?_, ?_⟩
      · rw [if_pos hpos, rd8_ok hpos, ok_bind]
        exact hloop
      · rw [hiff]
        exact ⟨fun h => ⟨hpos.le, fun _ => h⟩, fun h => h.2 hpos⟩
    · refine ⟨mpPos, if_neg hpos, ?_⟩
      exact ⟨fun h => ⟨h, fun h' => absurd h' hpos⟩, fun h => h.1⟩

theorem mpNlri_inside_iff (mpPos : ℕ) (val nlriData : List UInt8) :
    InBounds (mpNlri mpPos val nlriData) ↔
      (mpPos < val.length → SnpaInside val (ofList val mpPos).toNat (mpPos + 1)) := by
  rw [mpNlri]
  by_cases hpos : mpPos ≥ val.length
  · rw [if_pos hpos]
    exact iff_of_true (inside_ok nlriData) fun h => absurd h (by omega)
  · obtain ⟨last, hloop, hiff⟩ := snpaFrom_spec val (ofList val mpPos).toNat (mpPos + 1)
    rw [if_neg hpos, rd8_ok (by omega), ok_bind, hloop, ok_bind, ← hiff]
    have hlt : mpPos < val.length := by omega
    by_cases hlast : last ≤ val.length
    · refine iff_of_true (inside_subspan ?_) fun _ => hlast
      have := Nat.mod_le (val.length - last) (2 ^ 64)
      rw [show val.length + 2 ^ 64 - last = val.length - last + 2 ^ 64 by omega, Nat.add_mod_right]
      omega
    · refine iff_of_false ?_ fun h => hlast (h hlt)
      rw [subspan_oob (by omega)]
      simp [inside_error]

/-! ## The other attributes -/

section
variable {a : RxAttr} {s : ParseState}

theorem inBounds_decodeFixed {α : Type} {len : ℕ} {rd : List UInt8 → ℕ → Rx α} {set : α → Attributes}
    (h : a.val.length = len → InBounds (rd a.val 0)) : InBounds (decodeFixed a s len rd set) := by
  refine .ite (fun _ => inBounds_failWith _) fun hlen => ?_
  exact (h (not_not.mp hlen)).bind fun _ _ => inside_pure _

theorem inBounds_decodeList {α : Type} {size : ℕ} {f : BytePtr → α} {set : List α → Attributes} :
    InBounds (decodeList a s size (fun l i => readAt .outside l i size f) set) := by
  refine .ite (fun _ => inBounds_failWith _) fun _ => ?_
  have hlen : 0 + a.val.length / size * size ≤ a.val.length := by
    rw [Nat.zero_add]
    exact Nat.div_mul_le_self _ _
  rw [readMany_ok hlen, ok_bind]
  exact inside_pure _

theorem inBounds_rdAggregator {use4 : Bool} (h : a.val.length = if use4 then 8 else 6) :
    InBounds (rdAggregator use4 a.val 0) := by
  cases use4 with
  | false =>
    rw [if_neg (by decide)] at h
    exact (inside_readAt (by omega)).bind fun _ _ => (inside_readAt (by omega)).bind fun _ _ => inside_pure _
  | true =>
    rw [if_pos rfl] at h
    exact (inside_readAt (by omega)).bind fun _ _ => (inside_readAt (by omega)).bind fun _ _ => inside_pure _

theorem inBounds_decodeOrigin : InBounds (decodeOrigin a s) := by
  refine .ite (fun _ => inBounds_error _) fun _ => .ite (fun _ => inBounds_failWith _) fun hlen => ?_
  refine (inside_readAt (by omega)).bind fun orig _ => ?_
  exact .ite (fun _ => inBounds_failWith _) fun _ => inside_pure _

theorem inBounds_decodeNextHop : InBounds (decodeNextHop a s) := by
  refine .ite (fun _ => inBounds_error _) fun _ => .ite (fun _ => inBounds_failWith _) fun hlen => ?_
  exact (inside_readAt (by omega)).bind fun _ _ => inside_pure _

theorem inBounds_decodeLocalPref : InBounds (decodeLocalPref a s) := by
  refine .ite (fun _ => inBounds_error _) fun _ => inBounds_decodeFixed fun hlen => ?_
  exact inside_readAt (by omega)

theorem inBounds_as4PathFrom (val : List UInt8) : ∀ (n ap : ℕ) (segs : List AsPathSegment),
    InBounds (as4PathFrom val n ap segs)
  | 0, _, segs => inside_ok segs
  | n + 1, ap, segs => by
    refine .ite (fun hap => ?_) fun _ => inside_ok segs
    refine (inside_readAt (by omega)).bind fun segType _ => (inside_readAt (by omega)).bind fun segLen _ => ?_
    refine .ite (fun _ => inside_ok segs) fun hfits => ?_
    have hread : ap + 2 + segLen.toNat * 4 ≤ val.length := by omega
    rw [show readMany (rdAsn true val) 4 segLen.toNat (ap + 2) = _ from readMany_ok hread, ok_bind]
    exact inBounds_as4PathFrom val n _ _

theorem inBounds_decodeAigp : InBounds (decodeAigp a s) := by
  refine .ite (fun hlen => ?_) fun _ => inside_pure _
  refine (inside_readAt (by omega)).bind fun type _ => (inside_readAt (by omega)).bind fun len _ => ?_
  exact .ite (fun _ => (inside_readAt (by omega)).bind fun _ _ => inside_pure _) fun _ => inside_pure _

theorem inBounds_decodeUnknown : InBounds (decodeUnknown a s) :=
  .ite (fun _ => inBounds_error _) fun _ => .ite (fun _ => inside_ok _) fun _ => inside_ok _

theorem inBounds_decodeMpUnreach : InBounds (decodeMpUnreach a s) := by
  refine .ite (fun _ => inBounds_failWith _) fun hlen => ?_
  refine (inside_readAt (by omega)).bind fun afi _ => (inside_readAt (by omega)).bind fun safi _ => ?_
  refine .ite (fun _ => inBounds_failWith _) fun _ => ?_
  exact (inside_subspan (by omega)).bind fun _ _ => inside_pure _

theorem mpNextHop_ok (afi : UInt16) {nhLen : ℕ} {val : List UInt8} (h : 4 + nhLen ≤ val.length)
    (path : Path) : ∃ path', mpNextHop afi nhLen val path = .ok path' := by
  unfold mpNextHop rdRaw rdV4 rdU64
  split_ifs
  · exact ⟨_, by rw [readAt_ok (by omega), ok_bind]; rfl⟩
  · exact ⟨_, by rw [readAt_ok (by omega), ok_bind, readAt_ok (by omega), ok_bind]; rfl⟩
  · exact ⟨path, rfl⟩
  · exact ⟨_, by rw [readAt_ok (by omega), ok_bind]; rfl⟩
  · exact ⟨_, by rw [readAt_ok (by omega), ok_bind, readAt_ok (by omega), ok_bind]; rfl⟩
  · exact ⟨path, rfl⟩

/-! ## One attribute -/

theorem decodeAsPath_inside_iff (use4 : Bool) :
    InBounds (decodeAsPath a s use4) ↔
      (a.wellKnown = true → AsPathInside use4 a.val a.val.length 0) := by
  rw [decodeAsPath]
  cases hflags : a.wellKnown with
  | false =>
    rw [if_pos (by decide)]
    exact iff_of_true (inBounds_error _) fun h => absurd h (by decide)
  | true =>
    rw [if_neg (by decide), ← asPathFrom_inside_iff use4 a.val a.val.length 0 s.attrs.asPath]
    constructor
    · intro h _ hout
      exact h (by rw [hout, error_bind])
    · intro h
      exact (h rfl).bind fun _ _ => inside_pure _

theorem decodeMpReach_inside_iff : InBounds (decodeMpReach a s) ↔ MpReachInside a s := by
  rw [decodeMpReach, MpReachInside]
  by_cases hlen : a.val.length < 4
  · rw [if_pos hlen]
    exact iff_of_true (inBounds_failWith _) fun h => absurd h (by omega)
  · rw [if_neg hlen, rdU16_ok (by omega), ok_bind, rd8_ok (by omega), ok_bind, rd8_ok (by omega),
      ok_bind, Bytes.add_zero]
    set nhLen := (ofList a.val 3).toNat
    by_cases hnh : 4 + nhLen > a.val.length
    · rw [if_pos hnh]
      exact iff_of_true (inBounds_failWith _) fun h => absurd h (by omega)
    · rw [if_neg hnh]
      cases hfam : otherFamily s.unreachAfi ⟨readU16 (ofList a.val), ofList a.val 2⟩ with
      | true =>
        rw [if_pos rfl]
        exact iff_of_true (inBounds_failWith _) fun _ h => absurd h (by decide)
      | false =>
        rw [if_neg (by decide)]
        have hnlri := mpNlri_inside_iff (4 + nhLen) a.val s.update.nlriData
        obtain ⟨path, hpath⟩ := mpNextHop_ok (readU16 (ofList a.val))
          (show 4 + nhLen ≤ a.val.length by omega) s.update.path
        rw [hpath, ok_bind]
        constructor
        · intro h hlt _
          exact hnlri.mp (fun hout => h (by rw [hout, error_bind])) hlt
        · intro h
          exact (hnlri.mpr fun hlt => h hlt rfl).bind fun _ _ => inside_pure _

theorem inBounds_decodeAttr (cfg : RxConfig) (h : a.type ≠ BGP_ATTR_AS_PATH)
    (h' : a.type ≠ BGP_ATTR_MP_REACH_NLRI) : InBounds (decodeAttr a s cfg) := by
  unfold decodeAttr
  rw [if_neg h, if_neg h']
  refine .ite (fun _ => inside_ok s) fun _ => .ite (fun _ => inBounds_error _) fun _ =>
    .ite (fun _ => inBounds_decodeOrigin) fun _ => .ite (fun _ => inBounds_decodeNextHop) fun _ =>
    .ite (fun _ => inBounds_decodeFixed fun hlen => inside_readAt (by omega)) fun _ =>
    .ite (fun _ => inBounds_decodeLocalPref) fun _ =>
    .ite (fun _ => inBounds_decodeFixed inBounds_rdAggregator) fun _ =>
    .ite (fun _ => inBounds_decodeList) fun _ =>
    .ite (fun _ => inBounds_decodeFixed fun hlen => inside_readAt (by omega)) fun _ =>
    .ite (fun _ => inBounds_decodeList) fun _ =>
    .ite (fun _ => inBounds_decodeMpUnreach) fun _ => .ite (fun _ => ?_) fun _ =>
    .ite (fun _ => inBounds_decodeFixed fun hlen => inBounds_rdAggregator hlen) fun _ =>
    .ite (fun _ => inBounds_decodeAigp) fun _ => .ite (fun _ => inBounds_decodeList) fun _ =>
    inBounds_decodeUnknown
  exact (inBounds_as4PathFrom a.val _ _ _).bind fun _ _ => inside_pure _

/-- **An attribute is decoded in bounds iff it is inside.** -/
theorem decodeAttr_inside_iff (cfg : RxConfig) : InBounds (decodeAttr a s cfg) ↔ AttrInside cfg s a := by
  by_cases htakes : cfg.takes a = true
  · obtain ⟨hdiscard, hwithdraw⟩ : cfg.discard a.type = false ∧ cfg.withdraw a.type = false := by
      simpa [RxConfig.takes] using htakes
    by_cases hpath : a.type = BGP_ATTR_AS_PATH
    · have hother : ¬ a.type = BGP_ATTR_MP_REACH_NLRI := by rw [hpath]; decide
      have hdecode : decodeAttr a s cfg = decodeAsPath a s cfg.asn32bit := by
        rw [decodeAttr, hdiscard, hwithdraw, hpath]
        rfl
      rw [hdecode, decodeAsPath_inside_iff]
      exact ⟨fun h => ⟨fun _ _ => h, fun _ hreach => absurd hreach hother⟩, fun h => h.asPath htakes hpath⟩
    · by_cases hreach : a.type = BGP_ATTR_MP_REACH_NLRI
      · have hdecode : decodeAttr a s cfg = decodeMpReach a s := by
          rw [decodeAttr, hdiscard, hwithdraw, hreach]
          rfl
        rw [hdecode, decodeMpReach_inside_iff]
        exact ⟨fun h => ⟨fun _ h' => absurd h' hpath, fun _ _ => h⟩, fun h => h.mpReach htakes hreach⟩
      · refine iff_of_true (inBounds_decodeAttr cfg hpath hreach) ⟨?_, ?_⟩
        · intro _ h
          exact absurd h hpath
        · intro _ h
          exact absurd h hreach
  · -- the attribute is not decoded at all
    refine iff_of_true ?_ ⟨fun h => absurd h htakes, fun h => absurd h htakes⟩
    unfold decodeAttr
    refine .ite (fun _ => inside_ok s) fun hdiscard => .ite (fun _ => inBounds_error _) fun hwithdraw => ?_
    exact absurd (by simp [RxConfig.takes, hdiscard, hwithdraw]) htakes

end

/-! ## The loop over the attributes -/

theorem inBounds_readValue {data : List UInt8} {flags type : UInt8} {pos attrLen : ℕ} :
    InBounds (readValue data flags type pos attrLen) := by
  refine .ite (fun _ => inBounds_failWith _) fun hlen => ?_
  exact (inside_subspan (by omega)).bind fun _ _ => inside_pure _

theorem inBounds_readAttr (data : List UInt8) (pos : ℕ) : InBounds (readAttr data pos) := by
  refine .ite (fun _ => inBounds_failWith _) fun hpos => ?_
  refine (inside_readAt (by omega)).bind fun flags _ => (inside_readAt (by omega)).bind fun type _ => ?_
  refine .ite (fun _ => .ite (fun _ => inBounds_failWith _) fun hlen => ?_) fun _ =>
    .ite (fun _ => inBounds_failWith _) fun hlen => ?_
  · exact (inside_readAt (by omega)).bind fun _ _ => inBounds_readValue
  · exact (inside_readAt (by omega)).bind fun _ _ => inBounds_readValue

/-- The attribute at a position of the loop, if there is one, keeps its parser in bounds. -/
def InsideAt (cfg : RxConfig) (data : List UInt8) (x : ℕ × ParseState) : Prop :=
  ∀ a next, readAttr data x.1 = .ok (a, next) → AttrInside cfg x.2 a

section
variable {cfg : RxConfig} {data : List UInt8} {x : ℕ × ParseState}

theorem forall_reaches {Q : ℕ × ParseState → Prop} :
    (∀ y, Reaches cfg data x y → Q y) ↔
      Q x ∧ ∀ y, ParseStep cfg data x y → ∀ z, Reaches cfg data y z → Q z := by
  constructor
  · intro h
    exact ⟨h x .refl, fun y hstep z hreach => h z (.head hstep hreach)⟩
  · rintro ⟨hx, hnext⟩ y hreach
    rcases hreach.cases_head with rfl | ⟨z, hstep, hreach⟩
    · exact hx
    · exact hnext z hstep y hreach

theorem forall_reaches_end (h : ∀ r, readAttr data x.1 ≠ .ok r) :
    ∀ y, Reaches cfg data x y → InsideAt cfg data y := by
  refine forall_reaches.mpr ⟨fun a next hread => absurd hread (h _), ?_⟩
  rintro y ⟨a, hread, -⟩
  exact absurd hread (h _)

theorem parseAttrsFrom_inside_iff : ∀ (n pos : ℕ) (s : ParseState), data.length ≤ n + pos →
    (InBounds (parseAttrsFrom cfg data n pos s) ↔
      ∀ y, Reaches cfg data (pos, s) y → InsideAt cfg data y)
  | 0, pos, s, hfuel => by
    refine iff_of_true (inside_ok s) (forall_reaches_end fun r hread => ?_)
    have := (readAttr_moves hread).1
    omega
  | n + 1, pos, s, hfuel => by
    rw [parseAttrsFrom]
    by_cases hpos : pos < data.length
    · rw [if_pos hpos]
      cases hread : readAttr data pos with
      | error e =>
        refine iff_of_true ?_ (forall_reaches_end fun r hr => ?_)
        · intro h
          obtain rfl := Except.error.inj h
          exact inBounds_readAttr data pos hread
        · rw [hread] at hr
          cases hr
      | ok r =>
        rw [ok_bind, forall_reaches]
        have hself : InsideAt cfg data (pos, s) ↔ InBounds (decodeAttr r.1 s cfg) := by
          rw [decodeAttr_inside_iff]
          constructor
          · intro h
            exact h r.1 r.2 hread
          · intro h a next hread'
            obtain rfl : r = (a, next) := Except.ok.inj (hread.symm.trans hread')
            exact h
        cases hdecode : decodeAttr r.1 s cfg with
        | error e =>
          rw [error_bind, hself, hdecode]
          refine ⟨fun h => ⟨h, ?_⟩, fun h => h.1⟩
          rintro y ⟨a, hread', hstep⟩
          obtain rfl : r = (a, y.1) := Except.ok.inj (hread.symm.trans hread')
          rw [hdecode] at hstep
          cases hstep
        | ok s' =>
          have hmoves := (readAttr_moves hread).2
          rw [ok_bind, parseAttrsFrom_inside_iff n r.2 s' (by omega)]
          constructor
          · intro h
            refine ⟨hself.mpr (by rw [hdecode]; exact inside_ok s'), ?_⟩
            rintro y ⟨a, hread', hstep⟩
            obtain rfl : r = (a, y.1) := Except.ok.inj (hread.symm.trans hread')
            obtain rfl : s' = y.2 := Except.ok.inj (hdecode.symm.trans hstep)
            exact h
          · rintro ⟨-, h⟩
            exact h (r.2, s') ⟨r.1, hread, hdecode⟩
    · rw [if_neg hpos]
      refine iff_of_true (inside_ok s) (forall_reaches_end fun r hread => ?_)
      exact hpos (readAttr_moves hread).1

theorem parsePathAttributes_inside_iff (update : IncomingUpdate) :
    InBounds (parsePathAttributes cfg data update) ↔
      ∀ y, Reaches cfg data (0, { update := update }) y → InsideAt cfg data y := by
  rw [← parseAttrsFrom_inside_iff data.length 0 _ (by omega), parsePathAttributes]
  constructor
  · intro h hout
    exact h (by rw [hout, error_bind])
  · intro h
    exact h.bind fun _ _ => inside_pure _

end

/-! ## The message -/

theorem readUpdate_inside (payload : List UInt8) : InBounds (readUpdate payload) ∧
    ∀ r, readUpdate payload = .ok r → r.2.1 + r.2.2.length ≤ payload.length := by
  rw [readUpdate]
  by_cases hlen : payload.length < 4
  · rw [if_pos hlen]
    exact ⟨inBounds_failWith _, fun r h => by cases h⟩
  · rw [if_neg hlen, rdU16_ok (by omega), ok_bind]
    set withdrawnLen := (readU16 ((ofList payload).add 0)).toNat
    by_cases hwithdrawn : 2 + withdrawnLen > payload.length
    · rw [if_pos hwithdrawn]
      exact ⟨inBounds_failWith _, fun r h => by cases h⟩
    · rw [if_neg hwithdrawn, subspan_ok (by omega), ok_bind]
      by_cases hattrs : 2 + withdrawnLen + 2 > payload.length
      · rw [if_pos hattrs]
        exact ⟨inBounds_failWith _, fun r h => by cases h⟩
      · rw [if_neg hattrs, rdU16_ok (by omega), ok_bind]
        set attrLen := (readU16 ((ofList payload).add (2 + withdrawnLen))).toNat
        by_cases hend : 2 + withdrawnLen + 2 + attrLen > payload.length
        · rw [if_pos hend]
          exact ⟨inBounds_failWith _, fun r h => by cases h⟩
        · rw [if_neg hend, subspan_ok (by omega), ok_bind]
          refine ⟨inside_pure _, ?_⟩
          rintro r h
          obtain rfl := Except.ok.inj h
          simp only [List.length_take, List.length_drop]
          omega

section
variable {afs : AfiSafi → Option (IncomingUpdate → Option Notification)} {update : IncomingUpdate}

theorem inBounds_visitFamily : InBounds (visitFamily afs update) := by
  unfold visitFamily
  split
  · exact inBounds_failWith _
  · split
    · exact inside_ok ()
    · exact inBounds_error _

theorem inBounds_deliverUpdate {payload : List UInt8} {offset : ℕ} (h : offset ≤ payload.length) :
    InBounds (deliverUpdate afs payload offset update) := by
  refine .ite (fun _ => ?_) fun _ => inBounds_visitFamily
  exact (inside_subspan (by omega)).bind fun _ _ => inBounds_visitFamily

end

/-- Every attribute that the parser comes to in a message is inside. -/
def UpdateInside (cfg : RxConfig) (payload : List UInt8) : Prop :=
  ∀ withdrawnData offset data, readUpdate payload = .ok (withdrawnData, offset, data) →
    ∀ y, Reaches cfg data (0, { update := { withdrawnData := withdrawnData } }) y → InsideAt cfg data y

/-- **A message is processed in bounds iff the attributes that the parser comes to are inside.** -/
theorem processUpdate_inside_iff (cfg : RxConfig)
    (afs : AfiSafi → Option (IncomingUpdate → Option Notification)) (payload : List UInt8) :
    InBounds (processUpdate cfg afs payload) ↔ UpdateInside cfg payload := by
  obtain ⟨hread, hend⟩ := readUpdate_inside payload
  rw [processUpdate, UpdateInside]
  cases hupdate : readUpdate payload with
  | error e =>
    rw [error_bind]
    refine iff_of_true (fun h => ?_) fun _ _ _ h => by cases h
    obtain rfl := Except.error.inj h
    exact hread hupdate
  | ok r =>
    obtain ⟨withdrawnData, offset, data⟩ := r
    have hoffset := hend _ hupdate
    rw [ok_bind]
    have hiff : InBounds (parsePathAttributes cfg data { withdrawnData := withdrawnData }) ↔
        ∀ w o d, (.ok (withdrawnData, offset, data) : Rx _) = .ok (w, o, d) →
          ∀ y, Reaches cfg d (0, { update := { withdrawnData := w } }) y → InsideAt cfg d y := by
      rw [parsePathAttributes_inside_iff]
      constructor
      · intro h w o d hok
        obtain ⟨rfl, rfl, rfl⟩ : withdrawnData = w ∧ offset = o ∧ data = d := by simpa using hok
        exact h
      · intro h
        exact h _ _ _ rfl
    rw [← hiff]
    by_cases hdata : data = []
    · subst hdata
      rw [if_pos rfl]
      exact iff_of_true (inBounds_deliverUpdate (by simpa using hoffset)) (inside_ok _)
    · rw [if_neg hdata]
      cases parsePathAttributes cfg data { withdrawnData := withdrawnData } with
      | ok update => exact iff_of_true (inBounds_deliverUpdate hoffset) (inside_ok update)
      | error e =>
        cases e with
        | outside => exact iff_of_false (fun h => h rfl) fun h => h rfl
        | error n => exact iff_of_true (.ite (fun _ => inside_ok ()) fun _ => inBounds_error n) (inBounds_error n)

/-- A segment of two AS numbers of which only one and a half are there, and an SNPA that announces
    more than is left. -/
theorem processUpdate_outside_sample :
    ¬ InBounds (processUpdate { asn32bit := true } (fun _ => none)
        [0, 0, 0, 11, 0x40, 2, 8, 2, 2, 0, 0, 0, 1, 0, 0]) ∧
      ¬ InBounds (processUpdate { asn32bit := true } (fun _ => none)
        [0, 0, 0, 9, 0x80, 14, 6, 0, 1, 1, 0, 1, 9]) := by
  constructor
  · intro h
    exact h rfl
  · intro h
    exact h rfl

end VirtualRouter.Bgp
