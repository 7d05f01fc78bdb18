/-
  The composite metric (`eigrp/interface/InterfaceMetrics.cpp`).

  The products are taken in 64 and 128 bits.  With the values that a decoder
  admits none of them wraps around, as the delay is bounded and the scaled
  bandwidth is at most 655360000000.  Two cases are set apart: a bandwidth of 0
  counts as nothing, as if it were infinite, and a denominator of 0 makes the
  distance of a reachable route infinite, to which the local metric is added.

  * `metric`: the formula, unbounded;
  * `calculateCompositeMetric_toNat`: the code computes it;
  * `metric_mono`: it is monotone for bandwidths that are not 0;
  * `Lawful`: what is expected of the distances of a set of routes;
  * `metricLaw_iff`: it holds for all routes that can be decoded iff the K values
    leave both cases out, and always for the routes outside them.
-/
import VirtualRouter.Eigrp.TLVBuilder

namespace VirtualRouter.Eigrp

open Bytes Utils VirtualRouter.Types

structure KValue where
  k1_Bandwidth : UInt8 := 1
  k2_Load : UInt8 := 0
  k3_Delay : UInt8 := 1
  k4_Reliability : UInt8 := 0
  k5_MTU : UInt8 := 0
  k6_Power : UInt8 := 0
  deriving DecidableEq, Repr

/-! ## The functions -/

def scaledBandwidth (bandwidth : UInt64) : UInt64 :=
  if bandwidth > 0 then 10000000 * 65536 / bandwidth else 0

def scaledMicroseconds (delay : UInt64) : UInt64 := delay / 1000000 * 65536

def loadTerm (k : KValue) (load : UInt8) (bandwidth : UInt64) : UInt64 :=
  if k.k2_Load ≠ 0 then k.k2_Load.toUInt64 * scaledBandwidth bandwidth / (256 - load.toUInt64) else 0

/-- An `unsigned __int128`. -/
abbrev UInt128 := BitVec 128

def baseMetric (k : KValue) (load : UInt8) (delay bandwidth : UInt64) : UInt128 :=
  BitVec.ofNat 128 k.k1_Bandwidth.toNat * (scaledBandwidth bandwidth).toBitVec.setWidth 128 +
      (loadTerm k load bandwidth).toBitVec.setWidth 128 +
    BitVec.ofNat 128 k.k3_Delay.toNat * (scaledMicroseconds delay).toBitVec.setWidth 128

def calculateCompositeMetric (k : KValue) (load reliability : UInt8) (delay bandwidth : UInt64) :
    UInt64 :=
  let base := baseMetric k load delay bandwidth
  if k.k5_MTU = 0 then UInt64.ofBitVec (base.setWidth 64)
  else
    let denominator := k.k4_Reliability.toUInt64 + reliability.toUInt64
    if denominator = 0 then INFINITE
    else
      let tmp := base * BitVec.ofNat 128 k.k5_MTU.toNat / denominator.toBitVec.setWidth 128
      UInt64.ofBitVec (tmp.setWidth 64)

/-- `getLocalMetric`, of an interface with the bandwidth `hw`. -/
def getLocalMetric (k : KValue) (hw : UInt64) : UInt64 :=
  calculateCompositeMetric k 1 255 0 (hw / 1000)

def addRouteMetric (k : KValue) (hw : UInt64) (route : ReceivedRoute) : ReceivedRoute :=
  if route.delay = INFINITE then
    { route with feasibleDistance := INFINITE, reportedDistance := INFINITE }
  else
    let distance := calculateCompositeMetric k route.load route.reliability route.delay route.bandwidth
    { route with reportedDistance := distance, feasibleDistance := distance + getLocalMetric k hw }

/-! ## What is expected of them -/

def bandwidthShare (bandwidth : ℕ) : ℕ := if bandwidth = 0 then 0 else 655360000000 / bandwidth

def base (k : KValue) (load delay bandwidth : ℕ) : ℕ :=
  k.k1_Bandwidth.toNat * bandwidthShare bandwidth +
      k.k2_Load.toNat * bandwidthShare bandwidth / (256 - load) +
    k.k3_Delay.toNat * (delay / 1000000 * 65536)

def metric (k : KValue) (load reliability delay bandwidth : ℕ) : ℕ :=
  if k.k5_MTU = 0 then base k load delay bandwidth
  else base k load delay bandwidth * k.k5_MTU.toNat / (k.k4_Reliability.toNat + reliability)

def Decoded (r : ReceivedRoute) : Prop :=
  ∃ routeOpt originIface af, decodeRoute routeOpt originIface af = .ok r

structure Worse (r s : ReceivedRoute) : Prop where
  delay : r.delay ≤ s.delay
  load : r.load ≤ s.load
  bandwidth : s.bandwidth ≤ r.bandwidth
  reliability : s.reliability ≤ r.reliability

/-- The distances of the routes in `R`, on an interface with the bandwidth `hw`: they are those of
    the formula without a wrap-around, a reachable route stays reachable, and a worse route is not
    nearer. -/
structure Lawful (k : KValue) (hw : UInt64) (R : ReceivedRoute → Prop) : Prop where
  reported : ∀ r, R r → r.delay ≠ INFINITE →
    (addRouteMetric k hw r).reportedDistance.toNat =
      metric k r.load.toNat r.reliability.toNat r.delay.toNat r.bandwidth.toNat
  feasible : ∀ r, R r → r.delay ≠ INFINITE →
    (addRouteMetric k hw r).feasibleDistance.toNat =
      (addRouteMetric k hw r).reportedDistance.toNat + (getLocalMetric k hw).toNat
  reported_le : ∀ r, R r →
    (addRouteMetric k hw r).reportedDistance ≤ (addRouteMetric k hw r).feasibleDistance
  reachable : ∀ r, R r → r.delay ≠ INFINITE → (addRouteMetric k hw r).feasibleDistance < INFINITE
  monotone : ∀ r s, R r → R s → Worse r s →
    (addRouteMetric k hw r).reportedDistance ≤ (addRouteMetric k hw s).reportedDistance ∧
    (addRouteMetric k hw r).feasibleDistance ≤ (addRouteMetric k hw s).feasibleDistance

/-- The K values do not look at the bandwidth, and the reliability alone does not divide. -/
def Harmless (k : KValue) : Prop :=
  (k.k1_Bandwidth = 0 ∧ k.k2_Load = 0) ∧ (k.k5_MTU = 0 ∨ k.k4_Reliability ≠ 0)

/-- The route is outside the two cases. -/
def Regular (k : KValue) (r : ReceivedRoute) : Prop :=
  (r.bandwidth ≠ 0 ∨ k.k1_Bandwidth = 0 ∧ k.k2_Load = 0) ∧
    (k.k5_MTU = 0 ∨ k.k4_Reliability ≠ 0 ∨ r.reliability ≠ 0)

/-! ## The formula -/

section
variable {k : KValue} {load load' rel rel' delay delay' bw bw' : ℕ}

theorem bandwidthShare_le (bw : ℕ) : bandwidthShare bw ≤ 655360000000 := by
  rw [bandwidthShare]
  split_ifs
  · exact Nat.zero_le _
  · exact Nat.div_le_self ..

theorem bandwidthShare_anti (hbw : bw' ≤ bw) (hpos : bw' ≠ 0) :
    bandwidthShare bw ≤ bandwidthShare bw' := by
  rw [bandwidthShare, bandwidthShare, if_neg hpos, if_neg (by omega)]
  exact Nat.div_le_div_left hbw (Nat.pos_of_ne_zero hpos)

theorem base_mono (hdelay : delay ≤ delay') (hload : load ≤ load') (hload' : load' < 256)
    (hbw : bw' ≤ bw) (hpos : bw' ≠ 0 ∨ k.k1_Bandwidth = 0 ∧ k.k2_Load = 0) :
    base k load delay bw ≤ base k load' delay' bw' := by
  have hshare : k.k1_Bandwidth.toNat * bandwidthShare bw ≤ k.k1_Bandwidth.toNat * bandwidthShare bw' ∧
      k.k2_Load.toNat * bandwidthShare bw ≤ k.k2_Load.toNat * bandwidthShare bw' := by
    rcases hpos with hpos | ⟨h1, h2⟩
    · have := bandwidthShare_anti hbw hpos
      exact ⟨Nat.mul_le_mul_left _ this, Nat.mul_le_mul_left _ this⟩
    · simp [h1, h2]
  have hterm : k.k2_Load.toNat * bandwidthShare bw / (256 - load) ≤
      k.k2_Load.toNat * bandwidthShare bw' / (256 - load') :=
    (Nat.div_le_div_right hshare.2).trans (Nat.div_le_div_left (by omega) (by omega))
  have hdelays : delay / 1000000 * 65536 ≤ delay' / 1000000 * 65536 :=
    Nat.mul_le_mul_right _ (Nat.div_le_div_right hdelay)
  exact Nat.add_le_add (Nat.add_le_add hshare.1 hterm) (Nat.mul_le_mul_left _ hdelays)

/-- **The formula is monotone.** -/
theorem metric_mono (hdelay : delay ≤ delay') (hload : load ≤ load') (hload' : load' < 256)
    (hbw : bw' ≤ bw) (hpos : bw' ≠ 0 ∨ k.k1_Bandwidth = 0 ∧ k.k2_Load = 0) (hrel : rel' ≤ rel)
    (hden : k.k5_MTU = 0 ∨ k.k4_Reliability.toNat + rel' ≠ 0) :
    metric k load rel delay bw ≤ metric k load' rel' delay' bw' := by
  have hbase := base_mono hdelay hload hload' hbw hpos
  rw [metric, metric]
  split_ifs with h5
  · exact hbase
  · have hden := hden.resolve_left h5
    exact (Nat.div_le_div_right (Nat.mul_le_mul_right _ hbase)).trans
      (Nat.div_le_div_left (by omega) (by omega))

variable (k load bw) in
theorem base_lt (hdelay : delay ≤ 0xFFFFFFFF) : base k load delay bw < 2 ^ 50 := by
  have h1 := k.k1_Bandwidth.toNat_lt
  have h2 := k.k2_Load.toNat_lt
  have h3 := k.k3_Delay.toNat_lt
  have hshare := bandwidthShare_le bw
  have hbw : k.k1_Bandwidth.toNat * bandwidthShare bw ≤ 255 * 655360000000 :=
    Nat.mul_le_mul (by omega) hshare
  have hload : k.k2_Load.toNat * bandwidthShare bw / (256 - load) ≤ 255 * 655360000000 :=
    (Nat.div_le_self ..).trans (Nat.mul_le_mul (by omega) hshare)
  have hdelays : k.k3_Delay.toNat * (delay / 1000000 * 65536) ≤ 255 * (4294 * 65536) :=
    Nat.mul_le_mul (by omega) (by omega)
  rw [base]
  omega

variable (k load rel bw) in
theorem metric_lt (hdelay : delay ≤ 0xFFFFFFFF) : metric k load rel delay bw < 2 ^ 58 := by
  have hbase := base_lt k load bw hdelay
  have h5 := k.k5_MTU.toNat_lt
  rw [metric]
  split_ifs
  · omega
  · refine (Nat.div_le_self ..).trans_lt ?_
    calc base k load delay bw * k.k5_MTU.toNat
        ≤ base k load delay bw * 255 := Nat.mul_le_mul_left _ (by omega)
      _ < 2 ^ 58 := by omega

end

/-! ## The code computes the formula -/

section
variable {k : KValue} {load rel : UInt8} {delay bw : UInt64}

theorem scaledBandwidth_toNat (bw : UInt64) : (scaledBandwidth bw).toNat = bandwidthShare bw.toNat := by
  have hpos : bw > 0 ↔ ¬ bw.toNat = 0 := by
    rw [gt_iff_lt, UInt64.lt_iff_toNat_lt, UInt64.toNat_zero]
    omega
  rw [scaledBandwidth, bandwidthShare]
  by_cases h : bw.toNat = 0
  · rw [if_neg (by simp [hpos, h]), if_pos h, UInt64.toNat_zero]
  · rw [if_pos (hpos.mpr h), if_neg h, UInt64.toNat_div]
    rfl

theorem scaledMicroseconds_toNat (h : delay.toNat ≤ 0xFFFFFFFF) :
    (scaledMicroseconds delay).toNat = delay.toNat / 1000000 * 65536 := by
  rw [scaledMicroseconds, UInt64.toNat_mul, UInt64.toNat_div]
  exact Nat.mod_eq_of_lt (by simp; omega)

theorem loadTerm_toNat (k : KValue) (load : UInt8) (bw : UInt64) :
    (loadTerm k load bw).toNat = k.k2_Load.toNat * bandwidthShare bw.toNat / (256 - load.toNat) := by
  rw [loadTerm]
  split_ifs with h2
  · have hshare := bandwidthShare_le bw.toNat
    have hk := k.k2_Load.toNat_lt
    have hload := load.toNat_lt
    have hprod : k.k2_Load.toNat * bandwidthShare bw.toNat ≤ 255 * 655360000000 :=
      Nat.mul_le_mul (by omega) hshare
    have hsub : (256 - load.toUInt64).toNat = 256 - load.toNat := by
      rw [UInt64.toNat_sub_of_le _ _ (by rw [UInt64.le_iff_toNat_le]; simp; omega)]
      rfl
    rw [UInt64.toNat_div, UInt64.toNat_mul, hsub, scaledBandwidth_toNat, UInt8.toNat_toUInt64,
      Nat.mod_eq_of_lt (by omega)]
  · rw [not_not.mp h2]
    simp

variable (k load bw) in
theorem baseMetric_toNat (h : delay.toNat ≤ 0xFFFFFFFF) :
    (baseMetric k load delay bw).toNat = base k load.toNat delay.toNat bw.toNat := by
  have hlt := base_lt k load.toNat bw.toNat h
  have hword : ∀ v : UInt64, (v.toBitVec.setWidth 128).toNat = v.toNat := by
    intro v
    rw [BitVec.toNat_setWidth_of_le (by omega)]
    rfl
  have hbyte : ∀ v : UInt8, (BitVec.ofNat 128 v.toNat).toNat = v.toNat := by
    intro v
    have := v.toNat_lt
    rw [BitVec.toNat_ofNat]
    omega
  rw [base] at hlt ⊢
  rw [baseMetric]
  simp only [BitVec.toNat_add, BitVec.toNat_mul, hword, hbyte, scaledBandwidth_toNat, loadTerm_toNat,
    scaledMicroseconds_toNat h, Nat.mod_add_mod, Nat.add_mod_mod]
  exact Nat.mod_eq_of_lt (by omega)

variable (load bw) in
/-- **The code computes the formula** for a delay that a decoder admits. -/
theorem calculateCompositeMetric_toNat (h : delay.toNat ≤ 0xFFFFFFFF)
    (hden : k.k5_MTU = 0 ∨ k.k4_Reliability.toNat + rel.toNat ≠ 0) :
    (calculateCompositeMetric k load rel delay bw).toNat =
      metric k load.toNat rel.toNat delay.toNat bw.toNat := by
  have hbase := baseMetric_toNat k load bw h
  have hlt := base_lt k load.toNat bw.toNat h
  have hmetric := metric_lt k load.toNat rel.toNat bw.toNat h
  rw [calculateCompositeMetric]
  rw [metric] at hmetric ⊢
  by_cases h5 : k.k5_MTU = 0
  · rw [if_pos h5, if_pos h5, UInt64.toNat_ofBitVec, BitVec.toNat_setWidth, hbase]
    exact Nat.mod_eq_of_lt (by omega)
  · rw [if_neg h5] at hmetric
    have hk5 := k.k5_MTU.toNat_lt
    have hk4 := k.k4_Reliability.toNat_lt
    have hrel := rel.toNat_lt
    have hsum : (k.k4_Reliability.toUInt64 + rel.toUInt64).toNat =
        k.k4_Reliability.toNat + rel.toNat := by
      rw [UInt64.toNat_add, UInt8.toNat_toUInt64, UInt8.toNat_toUInt64]
      omega
    have hne : k.k4_Reliability.toUInt64 + rel.toUInt64 ≠ 0 := by
      intro h0
      rw [h0] at hsum
      exact hden.resolve_left h5 hsum.symm
    have hprod : (baseMetric k load delay bw * BitVec.ofNat 128 k.k5_MTU.toNat).toNat =
        base k load.toNat delay.toNat bw.toNat * k.k5_MTU.toNat := by
      have hle : base k load.toNat delay.toNat bw.toNat * k.k5_MTU.toNat ≤ 2 ^ 50 * 255 :=
        Nat.mul_le_mul hlt.le (by omega)
      rw [BitVec.toNat_mul, hbase, BitVec.toNat_ofNat, Nat.mod_eq_of_lt (show k.k5_MTU.toNat < 2 ^ 128 by omega)]
      exact Nat.mod_eq_of_lt (by omega)
    simp only [if_neg h5, if_neg hne]
    rw [UInt64.toNat_ofBitVec, BitVec.toNat_setWidth, BitVec.toNat_udiv, hprod,
      BitVec.toNat_setWidth_of_le (by omega), UInt64.toNat_toBitVec, hsum]
    exact Nat.mod_eq_of_lt (by omega)

end

/-! ## What a decoder admits -/

/-- The delay is infinite or bounded. -/
def Admitted (r : ReceivedRoute) : Prop := r.delay = INFINITE ∨ r.delay.toNat ≤ 0xFFFFFFFF

section
variable {data : RouteData}

theorem admitted_boundDelay {bound delay : UInt64} (hbound : bound.toNat ≤ 0xFFFFFFFF) :
    RouteData.boundDelay bound delay = INFINITE ∨
      (RouteData.boundDelay bound delay).toNat ≤ 0xFFFFFFFF := by
  rw [RouteData.boundDelay]
  split_ifs with h
  · exact .inl rfl
  · exact .inr ((UInt64.le_iff_toNat_le.mp (UInt64.not_lt.mp h)).trans hbound)

theorem decodeNextHop_admitted (h : Admitted data.r) :
    Yields data.decodeNextHop fun d => Admitted d.r :=
  Yields.bind fun _ _ => yields_ok h

theorem decodeExternal_admitted (h : Admitted data.r) :
    Yields data.decodeExternal fun d => Admitted d.r :=
  Yields.bind fun _ _ => Yields.bind fun _ _ => Yields.bind fun _ _ => Yields.bind fun _ _ =>
    Yields.bind fun _ _ => Yields.bind fun _ _ => Yields.bind fun _ _ => yields_ok h

theorem decodeDestination_admitted (h : Admitted data.r) :
    Yields data.decodeDestination fun d => Admitted d.r :=
  Yields.bind fun _ _ => Yields.bind fun _ _ => Yields.bind fun _ _ => yields_ok h

theorem decodeClassicMetric_admitted : Yields data.decodeClassicMetric fun d => Admitted d.r :=
  Yields.bind fun _ _ => Yields.bind fun _ _ => Yields.bind fun _ _ => Yields.bind fun _ _ =>
    Yields.bind fun _ _ => Yields.bind fun _ _ => Yields.bind fun _ _ => Yields.bind fun _ _ =>
    Yields.bind fun _ _ => yields_ok (admitted_boundDelay (by decide))

theorem decodeWideMetric_admitted : Yields data.decodeWideMetric fun d => Admitted d.r :=
  Yields.bind fun _ _ => Yields.bind fun _ _ => Yields.bind fun _ _ => Yields.bind fun _ _ =>
    Yields.bind fun _ _ => Yields.bind fun _ _ => Yields.bind fun _ _ => Yields.bind fun _ _ =>
    Yields.bind fun _ _ => Yields.bind fun _ _ => Yields.bind fun _ _ =>
    yields_ok (admitted_boundDelay (by decide))

theorem optionally_yields {ε α : Type} {c : Bool} {f : α → Except ε α} {a : α} {P : α → Prop}
    (hf : Yields (f a) P) (ha : P a) : Yields (optionally c f a) P := by
  cases c with
  | true => exact hf
  | false => exact yields_ok ha

end

/-- **What is decoded is admitted.** -/
theorem Decoded.admitted {r : ReceivedRoute} (h : Decoded r) : Admitted r := by
  obtain ⟨routeOpt, originIface, af, hr⟩ := h
  have hall : Yields (decodeRoute routeOpt originIface af) Admitted := by
    rw [decodeRoute]
    refine Yields.bind fun data hdata => yields_ok ?_
    refine (?_ : Yields _ fun d : RouteData => Admitted d.r) data hdata
    refine Yields.ite (fun _ => ?_) fun _ => ?_
    · refine Yields.bind fun d _ => Yields.bind fun d hd => Yields.bind fun d' hd' =>
        Yields.bind fun d'' hd'' => ?_
      have h₁ := decodeWideMetric_admitted _ hd
      have h₂ := decodeNextHop_admitted h₁ _ hd'
      exact decodeDestination_admitted (optionally_yields (decodeExternal_admitted h₂) h₂ _ hd'')
    · exact Yields.bind fun d _ => Yields.bind fun d _ => Yields.bind fun d hd =>
        decodeDestination_admitted (decodeClassicMetric_admitted _ hd)
  exact hall r hr

/-! ## The law -/

section
variable {k : KValue} {hw : UInt64} {r s : ReceivedRoute} {R R' : ReceivedRoute → Prop}

theorem Lawful.mono (hR : ∀ r, R' r → R r) (h : Lawful k hw R) : Lawful k hw R' where
  reported r hr := h.reported r (hR r hr)
  feasible r hr := h.feasible r (hR r hr)
  reported_le r hr := h.reported_le r (hR r hr)
  reachable r hr := h.reachable r (hR r hr)
  monotone r s hr hs := h.monotone r s (hR r hr) (hR s hs)

theorem le_INFINITE (d : UInt64) : d ≤ INFINITE := by
  have := d.toNat_lt
  rw [UInt64.le_iff_toNat_le]
  show d.toNat ≤ 2 ^ 64 - 1
  omega

theorem addRouteMetric_unreachable (h : r.delay = INFINITE) :
    (addRouteMetric k hw r).reportedDistance = INFINITE ∧
      (addRouteMetric k hw r).feasibleDistance = INFINITE := by
  rw [addRouteMetric, if_pos h]
  exact ⟨rfl, rfl⟩

variable (k hw) in
theorem addRouteMetric_of_reachable (h : r.delay ≠ INFINITE) :
    (addRouteMetric k hw r).reportedDistance =
        calculateCompositeMetric k r.load r.reliability r.delay r.bandwidth ∧
      (addRouteMetric k hw r).feasibleDistance =
        calculateCompositeMetric k r.load r.reliability r.delay r.bandwidth + getLocalMetric k hw := by
  rw [addRouteMetric, if_neg h]
  exact ⟨rfl, rfl⟩

theorem getLocalMetric_lt (k : KValue) (hw : UInt64) : (getLocalMetric k hw).toNat < 2 ^ 58 := by
  rw [getLocalMetric, calculateCompositeMetric_toNat _ _ (by decide) (.inr (by simp))]
  exact metric_lt _ _ _ _ (by decide)

theorem Regular.bandwidth (h : Regular k r) :
    r.bandwidth.toNat ≠ 0 ∨ k.k1_Bandwidth = 0 ∧ k.k2_Load = 0 :=
  h.1.imp (fun hne h0 => hne (UInt64.toNat_inj.mp h0)) id

theorem Regular.denominator (h : Regular k r) :
    k.k5_MTU = 0 ∨ k.k4_Reliability.toNat + r.reliability.toNat ≠ 0 := by
  refine h.2.imp id fun hne hsum => ?_
  rcases hne with h4 | hrel
  · exact h4 (UInt8.toNat_inj.mp (by rw [UInt8.toNat_zero]; omega))
  · exact hrel (UInt8.toNat_inj.mp (by rw [UInt8.toNat_zero]; omega))

theorem addRouteMetric_reachable (hadmitted : Admitted r) (hregular : Regular k r)
    (h : r.delay ≠ INFINITE) :
    (addRouteMetric k hw r).reportedDistance.toNat =
        metric k r.load.toNat r.reliability.toNat r.delay.toNat r.bandwidth.toNat ∧
      (addRouteMetric k hw r).reportedDistance.toNat < 2 ^ 58 ∧
      (addRouteMetric k hw r).feasibleDistance.toNat =
        (addRouteMetric k hw r).reportedDistance.toNat + (getLocalMetric k hw).toNat := by
  have hdelay := hadmitted.resolve_left h
  have hcode := calculateCompositeMetric_toNat r.load r.bandwidth hdelay hregular.denominator
  have hlt := metric_lt k r.load.toNat r.reliability.toNat r.bandwidth.toNat hdelay
  have hlocal := getLocalMetric_lt k hw
  obtain ⟨hreported, hfeasible⟩ := addRouteMetric_of_reachable k hw h
  rw [hfeasible, hreported]
  refine ⟨hcode, hcode ▸ hlt, ?_⟩
  rw [UInt64.toNat_add]
  exact Nat.mod_eq_of_lt (by omega)

/-- **The law for regular routes.** -/
theorem lawful_regular (k : KValue) (hw : UInt64) :
    Lawful k hw fun r => Decoded r ∧ Regular k r where
  reported r hr h := (addRouteMetric_reachable hr.1.admitted hr.2 h).1
  feasible r hr h := (addRouteMetric_reachable hr.1.admitted hr.2 h).2.2
  reported_le r hr := by
    by_cases h : r.delay = INFINITE
    · rw [(addRouteMetric_unreachable h).1, (addRouteMetric_unreachable h).2]
      exact UInt64.le_refl _
    · rw [UInt64.le_iff_toNat_le, (addRouteMetric_reachable hr.1.admitted hr.2 h).2.2]
      exact Nat.le_add_right ..
  reachable r hr h := by
    obtain ⟨-, hlt, hfeasible⟩ := addRouteMetric_reachable hr.1.admitted hr.2 h
    have hlocal := getLocalMetric_lt k hw
    rw [UInt64.lt_iff_toNat_lt, hfeasible]
    show _ < 2 ^ 64 - 1
    omega
  monotone r s hr hs hworse := by
    by_cases h : s.delay = INFINITE
    · rw [(addRouteMetric_unreachable h).1, (addRouteMetric_unreachable h).2]
      exact ⟨le_INFINITE _, le_INFINITE _⟩
    · have hbound := hs.1.admitted.resolve_left h
      have hdelay := UInt64.le_iff_toNat_le.mp hworse.delay
      have hreach : r.delay ≠ INFINITE := by
        intro h
        rw [h] at hdelay
        exact absurd (hdelay.trans hbound) (by decide)
      obtain ⟨hr1, -, hr2⟩ := addRouteMetric_reachable hr.1.admitted hr.2 hreach
      obtain ⟨hs1, -, hs2⟩ := addRouteMetric_reachable hs.1.admitted hs.2 h
      have hle : (addRouteMetric k hw r).reportedDistance.toNat ≤
          (addRouteMetric k hw s).reportedDistance.toNat := by
        rw [hr1, hs1]
        exact metric_mono hdelay (UInt8.le_iff_toNat_le.mp hworse.load) s.load.toNat_lt
          (UInt64.le_iff_toNat_le.mp hworse.bandwidth) hs.2.bandwidth
          (UInt8.le_iff_toNat_le.mp hworse.reliability) hs.2.denominator
      rw [UInt64.le_iff_toNat_le, UInt64.le_iff_toNat_le, hr2, hs2]
      exact ⟨hle, Nat.add_le_add_right hle _⟩

end

/-- A named route with the given reliability and bandwidth, the other components of its metric 0. -/
def namedRoute (reliability bandwidth : UInt8) : TLV16Option where
  type := 0x0602
  length := 45
  value := List.replicate 10 0 ++ [reliability] ++ List.replicate 16 0 ++ [bandwidth] ++
    List.replicate 13 0

def components (r : ReceivedRoute) : UInt64 × UInt8 × UInt8 × UInt64 :=
  (r.delay, r.load, r.reliability, r.bandwidth)

theorem decoded_of_components {routeOpt : TLV16Option} {c : UInt64 × UInt8 × UInt8 × UInt64}
    (h : (decodeRoute routeOpt 0 .IPv4).toOption.map components = some c) :
    ∃ r, Decoded r ∧ components r = c := by
  cases hr : decodeRoute routeOpt 0 .IPv4 with
  | error e =>
    rw [hr] at h
    cases h
  | ok r =>
    rw [hr] at h
    exact ⟨r, ⟨_, _, _, hr⟩, Option.some.inj h⟩

theorem decoded_slow : ∃ r, Decoded r ∧ components r = (0, 0, 255, 1) :=
  decoded_of_components (show (decodeRoute (namedRoute 255 1) _ _).toOption.map _ = _ by decide)

theorem decoded_noBandwidth : ∃ r, Decoded r ∧ components r = (0, 0, 255, 0) :=
  decoded_of_components (show (decodeRoute (namedRoute 255 0) _ _).toOption.map _ = _ by decide)

theorem decoded_unreliable : ∃ r, Decoded r ∧ components r = (0, 0, 0, 1) :=
  decoded_of_components (show (decodeRoute (namedRoute 0 1) _ _).toOption.map _ = _ by decide)

theorem worse_noBandwidth {r s : ReceivedRoute} (hr : components r = (0, 0, 255, 1))
    (hs : components s = (0, 0, 255, 0)) : Worse r s := by
  simp only [components, Prod.mk.injEq] at hr hs
  obtain ⟨hrd, hrl, hrr, hrb⟩ := hr
  obtain ⟨hsd, hsl, hsr, hsb⟩ := hs
  constructor
  · rw [hrd, hsd]; decide
  · rw [hrl, hsl]; decide
  · rw [hrb, hsb]; decide
  · rw [hrr, hsr]; decide

section
variable {k : KValue} {hw : UInt64}

theorem Lawful.bandwidth (h : Lawful k hw Decoded) : k.k1_Bandwidth = 0 ∧ k.k2_Load = 0 := by
  obtain ⟨r, hr, hcr⟩ := decoded_slow
  obtain ⟨s, hs, hcs⟩ := decoded_noBandwidth
  have hworse := worse_noBandwidth hcr hcs
  simp only [components, Prod.mk.injEq] at hcr hcs
  obtain ⟨hrd, hrl, hrr, hrb⟩ := hcr
  obtain ⟨hsd, hsl, hsr, hsb⟩ := hcs
  have hle := UInt64.le_iff_toNat_le.mp (h.monotone r s hr hs hworse).1
  rw [h.reported r hr (by rw [hrd]; decide), h.reported s hs (by rw [hsd]; decide), hrd, hrl, hrr, hrb,
    hsd, hsl, hsr, hsb] at hle
  have hzero : metric k 0 255 0 0 = 0 := by simp [metric, base, bandwidthShare]
  have hmetric : metric k 0 255 0 1 = 0 := Nat.le_zero.mp (hle.trans hzero.le)
  -- the base is below the denominator, and one share of the bandwidth is above it
  have hbase : base k 0 0 1 < 511 := by
    have hk4 := k.k4_Reliability.toNat_lt
    rw [metric] at hmetric
    split_ifs at hmetric with h5
    · omega
    · have h5' : 0 < k.k5_MTU.toNat := Nat.pos_of_ne_zero fun h0 => h5 (UInt8.toNat_inj.mp h0)
      rw [Nat.div_eq_zero_iff_lt (by omega)] at hmetric
      exact (Nat.le_mul_of_pos_right _ h5').trans_lt (hmetric.trans (by omega))
  simp only [base, show bandwidthShare 1 = 655360000000 from rfl] at hbase
  refine ⟨UInt8.toNat_inj.mp ?_, UInt8.toNat_inj.mp ?_⟩
  · rw [UInt8.toNat_zero]
    omega
  · rw [UInt8.toNat_zero]
    omega

/-- With a denominator that is the reliability, the unreliable route is not reachable. -/
theorem Lawful.denominator (h : Lawful k hw Decoded) : k.k5_MTU = 0 ∨ k.k4_Reliability ≠ 0 := by
  obtain ⟨r, hr, hcr⟩ := decoded_unreliable
  simp only [components, Prod.mk.injEq] at hcr
  obtain ⟨hrd, hrl, hrr, hrb⟩ := hcr
  by_contra hneg
  rw [not_or, not_not] at hneg
  obtain ⟨h5, h4⟩ := hneg
  have hreach : r.delay ≠ INFINITE := by rw [hrd]; decide
  have hreported := h.reported r hr hreach
  have hcode : (addRouteMetric k hw r).reportedDistance = INFINITE := by
    rw [(addRouteMetric_of_reachable k hw hreach).1, calculateCompositeMetric]
    simp [h5, h4, hrr]
  rw [hcode, hrr, metric, if_neg h5, h4] at hreported
  simp [INFINITE] at hreported

/-- **The metric law**: for all routes that can be decoded it holds iff the K values are harmless,
    and whatever they are it holds for the regular routes. -/
theorem metricLaw_iff (k : KValue) (hw : UInt64) :
    (Lawful k hw Decoded ↔ Harmless k) ∧ Lawful k hw fun r => Decoded r ∧ Regular k r := by
  refine ⟨⟨fun h => ⟨h.bandwidth, h.denominator⟩, fun h => ?_⟩, lawful_regular k hw⟩
  refine (lawful_regular k hw).mono fun r hr => ⟨hr, .inr h.1, ?_⟩
  exact h.2.imp_right .inl

end

/-- With the K values of the default the route without bandwidth has the distance 0, and the slow
    one that of its bandwidth; with `k5` alone a reachable route has the infinite distance, and the
    sum with the local metric wraps around. -/
theorem noBandwidth_is_nearer :
    ¬ Lawful {} 1000000000 Decoded ∧ ¬ Lawful { k5_MTU := 1 } 1000000000 Decoded := by
  obtain ⟨r, hr, hcr⟩ := decoded_slow
  obtain ⟨s, hs, hcs⟩ := decoded_noBandwidth
  obtain ⟨t, ht, hct⟩ := decoded_unreliable
  have hworse := worse_noBandwidth hcr hcs
  simp only [components, Prod.mk.injEq] at hcr hcs hct
  obtain ⟨hrd, hrl, hrr, hrb⟩ := hcr
  obtain ⟨hsd, hsl, hsr, hsb⟩ := hcs
  obtain ⟨htd, htl, htr, htb⟩ := hct
  constructor
  · intro h
    have hle := (h.monotone r s hr hs hworse).1
    rw [(addRouteMetric_of_reachable _ _ (by rw [hrd]; decide)).1,
      (addRouteMetric_of_reachable _ _ (by rw [hsd]; decide)).1, hrd, hrl, hrr, hrb, hsd, hsl, hsr, hsb] at hle
    exact absurd hle (by decide)
  · intro h
    have hle := h.reported_le t ht
    rw [(addRouteMetric_of_reachable _ _ (by rw [htd]; decide)).1,
      (addRouteMetric_of_reachable _ _ (by rw [htd]; decide)).2, htd, htl, htr, htb] at hle
    exact absurd hle (by decide)

end VirtualRouter.Eigrp
