/-
  What a peer reads of the capabilities written to it.

  `arrived caps` says field by field what `parseCapabilities` makes of the
  parameters that `appendCapabilities` writes for `caps`.  The two sides differ
  in places: the ORF capability is read one byte too early, the SAFI of an
  extended next hop entry is written in two bytes and its first byte read, a
  full fragment of 252 bytes overflows the eight-bit span size, and a flag
  without entries is not sent.

  * `parseParams_appendCapabilities`: reading what was written gives
    `arrived caps`;
  * `roundTrip_iff`: the values that survive the round trip are exactly those
    that are `Faithful`;
  * `not_roundTrip_orf`: one with an ORF entry does not.
-/
import VirtualRouter.Bgp.Capabilities

namespace VirtualRouter.Bgp

open Bytes Utils

/-- `parseCapabilities` on the value of a parameter. -/
def parseParam (out : Capabilities) (param : List UInt8) : Capabilities :=
  parseCapabilities (ofList (param.drop 2)) (param.drop 2).length out

/-- `parseCapabilities` on each parameter in turn. -/
def parseParams (params : List (List UInt8)) (out : Capabilities) : Capabilities :=
  params.foldl parseParam out

theorem parseParams_append (ps qs : List (List UInt8)) (out : Capabilities) :
    parseParams (ps ++ qs) out = parseParams qs (parseParams ps out) := List.foldl_append

@[simp] theorem parseParams_nil (out : Capabilities) : parseParams [] out = out := rfl

@[simp] theorem parseParams_singleton (p : List UInt8) (out : Capabilities) :
    parseParams [p] out = parseParam out p := rfl

/-! ## One parameter -/

theorem openParam_eq (code : UInt8) {data : List UInt8} (h : data.length ≤ 251) :
    openParam code data = BGP_PARAMETER_CAPABILITY :: (UInt8.ofNat data.length + 2) :: code ::
      UInt8.ofNat data.length :: data := by
  have hsiz : (UInt8.ofNat data.length + 4).toNat = data.length + 4 := by
    rw [UInt8.toNat_add, UInt8.toNat_ofNat']
    change (data.length % 256 + 4) % 256 = data.length + 4
    omega
  rw [openParam]
  simp only [hsiz]
  exact List.take_of_length_le (by simp)

theorem drop_openParam (code : UInt8) {data : List UInt8} (h : 252 ≤ data.length)
    (h' : data.length ≤ 253) : (openParam code data).drop 2 = [] := by
  have hsiz : (UInt8.ofNat data.length + 4).toNat ≤ 2 := by
    rw [UInt8.toNat_add, UInt8.toNat_ofNat']
    change (data.length % 256 + 4) % 256 ≤ 2
    omega
  rw [openParam]
  apply List.drop_eq_nil_of_le
  exact (List.length_take_le _ _).trans hsiz

theorem parseParam_empty {param : List UInt8} (h : param.drop 2 = []) (out : Capabilities) :
    parseParam out param = out := by
  rw [parseParam, h]
  rfl

theorem parseCapabilities_single {p : BytePtr} {code : UInt8} {data : List UInt8}
    (h : data.length ≤ 251) (hhold : Holds p (code :: UInt8.ofNat data.length :: data))
    (out : Capabilities) :
    parseCapabilities p (data.length + 2) out = parseCapability code data.length (p.add 2) out := by
  obtain ⟨h0, hrest⟩ := holds_cons.mp hhold
  obtain ⟨h1, -⟩ := holds_cons.mp hrest
  have hlen : (UInt8.ofNat data.length).toNat = data.length := by
    rw [UInt8.toNat_ofNat']
    change data.length % 256 = data.length
    omega
  simp only [add_apply, Nat.add_zero] at h1
  simp only [parseCapabilities, parseCapabilitiesFrom, Nat.zero_add, h0, h1, hlen]
  rw [if_pos (by omega), if_neg (by omega), if_neg (by omega)]

theorem parseParam_openParam (code : UInt8) {data : List UInt8} (h : data.length ≤ 251) :
    ∃ p, Holds p data ∧
      ∀ out, parseParam out (openParam code data) = parseCapability code data.length p out := by
  have hhold := holds_ofList (code :: UInt8.ofNat data.length :: data)
  have hdata := (holds_cons.mp (holds_cons.mp hhold).2).2
  rw [add_add] at hdata
  refine ⟨_, hdata, fun out => ?_⟩
  rw [parseParam, openParam_eq code h, List.drop_succ_cons, List.drop_succ_cons, List.drop_zero]
  exact parseCapabilities_single h hhold out

/-! ## Entries -/

theorem readEntries_holds {α β : Type*} {size : ℕ} {block : α → List UInt8} {read : BytePtr → β}
    {f : α → β} (hsize : ∀ e, (block e).length = size)
    (hread : ∀ e p, Holds p (block e) → read p = f e) {l : List α} :
    ∀ {p : BytePtr}, Holds p (l.flatMap block) → readEntries p size l.length read = l.map f := by
  induction l with
  | nil => exact fun _ => rfl
  | cons e l ih =>
    intro p h
    rw [List.flatMap_cons] at h
    have htail := ih h.right
    rw [hsize] at htail
    rw [readEntries, List.length_cons, List.range_succ_eq_map, List.map_cons, List.map_map,
      List.map_cons, Nat.mul_zero, Bytes.add_zero, hread e p h.left]
    congr 1
    rw [← htail, readEntries]
    apply List.map_congr_left
    intro i _
    rw [Function.comp_apply, add_add, Nat.mul_succ, Nat.add_comm]

theorem length_flatMap_block {α : Type*} {size : ℕ} {block : α → List UInt8}
    (hsize : ∀ e, (block e).length = size) (l : List α) :
    (l.flatMap block).length = l.length * size := by
  rw [List.length_flatMap, List.map_congr_left fun e _ => hsize e]
  simp

/-! ## Fragments -/

def lastFragment {α : Type*} (fragSize : ℕ) (l : List α) : List α :=
  l.drop (l.length / fragSize * fragSize)

theorem length_lastFragment {α : Type*} (fragSize : ℕ) (l : List α) :
    (lastFragment fragSize l).length = l.length % fragSize := by
  rw [lastFragment, List.length_drop, Nat.mul_comm, Nat.mod_eq_sub_mul_div]

theorem lastFragment_eq_iff {α : Type*} {fragSize : ℕ} (hpos : 0 < fragSize) (l : List α) :
    lastFragment fragSize l = l ↔ l.length < fragSize := by
  constructor
  · intro h
    have hlen := congrArg List.length h
    rw [length_lastFragment] at hlen
    exact hlen ▸ Nat.mod_lt _ hpos
  · intro h
    rw [lastFragment, Nat.div_eq_of_lt h, Nat.zero_mul, List.drop_zero]

theorem getFragments_eq {fragSize : ℕ} (hpos : 0 < fragSize) (n : ℕ) :
    getFragments fragSize n = n / fragSize + if n % fragSize = 0 then 0 else 1 := by
  have hdiv := Nat.div_add_mod n fragSize
  have hlt := Nat.mod_lt n hpos
  set q := n / fragSize
  set r := n % fragSize
  rw [getFragments, ← hdiv, show fragSize * q + r + fragSize - 1 = r + fragSize - 1 + fragSize * q by
    omega, Nat.add_mul_div_left _ _ hpos]
  split
  · rename_i hr
    rw [hr, Nat.zero_add, Nat.div_eq_of_lt (by omega)]
    omega
  · rw [show r + fragSize - 1 = r - 1 + fragSize by omega, Nat.add_div_right _ hpos,
      Nat.div_eq_of_lt (by omega)]
    omega

theorem parseParams_empty {ps : List (List UInt8)} (h : ∀ p ∈ ps, p.drop 2 = [])
    (out : Capabilities) : parseParams ps out = out := by
  induction ps with
  | nil => rfl
  | cons p ps ih =>
    rw [parseParams, List.foldl_cons, parseParam_empty (h p (by simp))]
    exact ih fun q hq => h q (by simp [hq])

/-- **Only the last, incomplete fragment arrives**: a full one has 252 bytes. -/
theorem parseParams_fragments {α : Type*} (code : UInt8) {blockSize fs : ℕ}
    {block : α → List UInt8} (hsize : ∀ e, (block e).length = blockSize)
    (hfs : getFragSize blockSize = fs) (hfull : fs * blockSize = 252) {out : Capabilities}
    {u : List α → Capabilities} (hnil : u [] = out)
    (hupd : ∀ l p, Holds p (l.flatMap block) →
      parseCapability code (l.flatMap block).length p out = u l) (l : List α) :
    parseParams (fragments code blockSize block l) out = u (lastFragment fs l) := by
  have hpos : 0 < fs := Nat.pos_of_mul_pos_right (b := blockSize) (by omega)
  have hlen := length_lastFragment fs l
  have hskip : ∀ p ∈ (List.range (l.length / fs)).map fun f =>
      openParam code (((l.drop (f * fs)).take (min fs (l.length - f * fs))).flatMap block),
      p.drop 2 = [] := by
    intro p hp
    obtain ⟨f, hf, rfl⟩ := List.mem_map.mp hp
    rw [List.mem_range] at hf
    have hroom : fs ≤ l.length - f * fs := by
      have hle := Nat.mul_le_mul_right fs (Nat.succ_le_of_lt hf)
      have hdiv := Nat.div_mul_le_self l.length fs
      rw [Nat.succ_mul] at hle
      omega
    have hbytes : (((l.drop (f * fs)).take (min fs (l.length - f * fs))).flatMap block).length = 252 := by
      rw [length_flatMap_block hsize, List.length_take, List.length_drop, ← hfull]
      congr 1
      omega
    exact drop_openParam code (by omega) (by omega)
  rw [fragments, hfs]
  simp only [getFragments_eq hpos]
  by_cases hr : l.length % fs = 0
  · rw [if_pos hr, Nat.add_zero, parseParams_empty hskip,
      List.length_eq_zero_iff.mp (hlen.trans hr), hnil]
  · -- the fragment behind the full ones takes all that is left
    have hlast : (l.drop (l.length / fs * fs)).take (min fs (l.length - l.length / fs * fs)) =
        lastFragment fs l := by
      have hdiv := Nat.div_add_mod' l.length fs
      have hlt := Nat.mod_lt l.length hpos
      rw [Nat.min_eq_right (by omega)]
      exact List.take_of_length_le (by rw [List.length_drop])
    have hbytes : ((lastFragment fs l).flatMap block).length ≤ 251 := by
      rw [length_flatMap_block hsize, hlen]
      have hlt : l.length % fs * blockSize < fs * blockSize :=
        Nat.mul_lt_mul_of_pos_right (Nat.mod_lt _ hpos) (Nat.pos_of_mul_pos_left (a := fs) (by omega))
      omega
    obtain ⟨p, hp, hrun⟩ := parseParam_openParam code hbytes
    rw [if_neg hr, List.range_succ, List.map_append, parseParams_append, parseParams_empty hskip,
      List.map_singleton, parseParams_singleton, hlast, hrun, hupd _ p hp]

/-! ## One capability after the other -/

theorem parseParams_mp (l : List AfiSafi) (out : Capabilities) :
    parseParams (l.map fun fam => openParam BGP_CAPABILITY_MULTIPROTOCOL (mpBlock fam)) out =
      { out with mpFamilies := out.mpFamilies ++ l } := by
  induction l generalizing out with
  | nil => simp
  | cons fam l ih =>
    obtain ⟨p, hp, hrun⟩ := parseParam_openParam BGP_CAPABILITY_MULTIPROTOCOL
      (show (mpBlock fam).length ≤ 251 by simp [mpBlock])
    have hafi : readU16 p = fam.afi := readU16_holds hp.left
    have hsafi : p 3 = fam.safi := hp 3 (by simp [mpBlock])
    have hone : parseParam out (openParam BGP_CAPABILITY_MULTIPROTOCOL (mpBlock fam)) =
        { out with mpFamilies := out.mpFamilies ++ [fam] } := by
      rw [hrun]
      change { out with mpFamilies := out.mpFamilies ++ [(⟨readU16 p, p 3⟩ : AfiSafi)] } = _
      rw [hafi, hsafi]
    rw [List.map_cons, parseParams, List.foldl_cons, hone]
    refine (ih _).trans ?_
    simp

def orfRead (entry : OrfEntry) : List OrfEntry :=
  if entry.family.safi = 0 then [] else [⟨⟨entry.family.afi, 0⟩, 1, entry.orfType⟩]

theorem parseParam_orf (entry : OrfEntry) (out : Capabilities) :
    parseParam out (openParam BGP_CAPABILITY_OUTBOUND_FILTER (orfBlock entry)) =
      { out with orfEntries := out.orfEntries ++ orfRead entry, outboundRouteFiltering := true } := by
  obtain ⟨p, hp, hrun⟩ := parseParam_openParam BGP_CAPABILITY_OUTBOUND_FILTER
    (show (orfBlock entry).length ≤ 251 by simp [orfBlock])
  have hafi : readU16 p = entry.family.afi := readU16_holds hp.left
  have hlen : (orfBlock entry).length = 7 := rfl
  have hsize : ∀ i, i < 7 → i < (orfBlock entry).length := fun i hi => hlen ▸ hi
  have h2 : p 2 = 0 := hp 2 (hsize 2 (by decide))
  have h3 : p 3 = entry.family.safi := hp 3 (hsize 3 (by decide))
  have h4 : p 4 = 1 := hp 4 (hsize 4 (by decide))
  have h5 : p 5 = entry.orfType := hp 5 (hsize 5 (by decide))
  rw [hrun, hlen]
  change { out with
    orfEntries := out.orfEntries ++
      readEntries (p.add 4) 2 (min (p 3).toNat 1) fun q => (⟨⟨readU16 p, p 2⟩, q 0, q 1⟩ : OrfEntry)
    outboundRouteFiltering := true } = _
  congr 2
  rw [orfRead, hafi, h2, h3]
  split
  · rename_i hz
    rw [hz]
    rfl
  · rename_i hnz
    have hpos : 0 < entry.family.safi.toNat := by
      rw [Nat.pos_iff_ne_zero]
      intro hz
      exact hnz (UInt8.toNat_inj.mp hz)
    rw [Nat.min_eq_right hpos]
    simp [readEntries, h4, h5]

theorem parseParams_orf (l : List OrfEntry) (out : Capabilities) :
    parseParams (l.map fun entry => openParam BGP_CAPABILITY_OUTBOUND_FILTER (orfBlock entry)) out =
      { out with
        orfEntries := out.orfEntries ++ l.flatMap orfRead
        outboundRouteFiltering := out.outboundRouteFiltering || !l.isEmpty } := by
  induction l generalizing out with
  | nil => simp
  | cons entry l ih =>
    rw [List.map_cons, parseParams, List.foldl_cons, parseParam_orf]
    refine (ih _).trans ?_
    simp

theorem length_extendedNextHopBlock (e : ExtendedNextHop) : (extendedNextHopBlock e).length = 6 := rfl

theorem length_multiSessionBlock (e : AfiSafi) : (multiSessionBlock e).length = 4 := rfl

theorem length_addPathBlock (e : AddPathFamily) : (addPathBlock e).length = 4 := rfl

theorem length_gracefulBlock (e : GracefulRestartFamily) : (gracefulBlock e).length = 4 := rfl

theorem length_llgrBlock (e : LlgrFamily) : (llgrBlock e).length = 7 := rfl

theorem entries_len {α : Type*} {size : ℕ} {block : α → List UInt8} (hpos : 0 < size)
    (hsize : ∀ e, (block e).length = size) (l : List α) :
    (l.flatMap block).length / size = l.length ∧
      decide ((l.flatMap block).length ≥ size) = !l.isEmpty := by
  rw [length_flatMap_block hsize]
  refine ⟨Nat.mul_div_cancel _ hpos, ?_⟩
  cases l with
  | nil => simpa using hpos.ne'
  | cons e l => simp [Nat.succ_mul]

def nextHopRead (e : ExtendedNextHop) : ExtendedNextHop := ⟨⟨e.family.afi, 0⟩, e.nextHopAfi⟩

theorem high_byte_zero (x : UInt8) : (x.toUInt16 >>> 8).toUInt8 = 0 := by
  apply UInt8.toNat_inj.mp
  rw [UInt16.toNat_toUInt8, UInt16.toNat_shiftRight, UInt8.toNat_toUInt16]
  have hx := x.toNat_lt
  change x.toNat >>> 8 % 256 = 0
  rw [Nat.shiftRight_eq_div_pow]
  omega

theorem parseParams_extendedNextHop (l : List ExtendedNextHop) (out : Capabilities) :
    parseParams (fragments BGP_CAPABILITY_EXTENDED_NEXT_HOP 6 extendedNextHopBlock l) out =
      { out with
        extendedNextHopEntries := out.extendedNextHopEntries ++ (lastFragment 42 l).map nextHopRead
        extendedNextHop := out.extendedNextHop || !(lastFragment 42 l).isEmpty } := by
  refine parseParams_fragments _ length_extendedNextHopBlock rfl rfl
    (u := fun l => { out with
      extendedNextHopEntries := out.extendedNextHopEntries ++ l.map nextHopRead
      extendedNextHop := out.extendedNextHop || !l.isEmpty }) (by simp) (fun l p hp => ?_) l
  obtain ⟨hcount, hflag⟩ := entries_len (by decide) length_extendedNextHopBlock l
  change { out with
    extendedNextHopEntries := out.extendedNextHopEntries ++
      readEntries p 6 ((l.flatMap extendedNextHopBlock).length / 6) _
    extendedNextHop := out.extendedNextHop || decide _ } = _
  rw [hcount, hflag, readEntries_holds (f := nextHopRead) length_extendedNextHopBlock ?_ hp]
  intro e q hq
  have hafi : readU16 q = e.family.afi := readU16_holds hq.left.left
  have hnh : readU16 (q.add 4) = e.nextHopAfi := readU16_holds hq.right
  have hsafi : q 2 = 0 := (hq 2 (by simp [extendedNextHopBlock])).trans (high_byte_zero _)
  rw [hafi, hnh, hsafi]
  rfl

theorem parseParams_multiSession (l : List AfiSafi) (out : Capabilities) :
    parseParams (fragments BGP_CAPABILITY_MULTI_SESSION 4 multiSessionBlock l) out =
      { out with
        multiSessionFamilies := out.multiSessionFamilies ++ lastFragment 63 l
        multiSess := out.multiSess || !(lastFragment 63 l).isEmpty } := by
  refine parseParams_fragments _ length_multiSessionBlock rfl rfl
    (u := fun l => { out with
      multiSessionFamilies := out.multiSessionFamilies ++ l
      multiSess := out.multiSess || !l.isEmpty }) (by simp) (fun l p hp => ?_) l
  obtain ⟨hcount, hflag⟩ := entries_len (by decide) length_multiSessionBlock l
  change { out with
    multiSessionFamilies := out.multiSessionFamilies ++
      readEntries p 4 ((l.flatMap multiSessionBlock).length / 4) _
    multiSess := out.multiSess || decide _ } = _
  rw [hcount, hflag, readEntries_holds (f := id) length_multiSessionBlock ?_ hp, List.map_id]
  intro e q hq
  have hafi : readU16 q = e.afi := readU16_holds hq.left
  have hsafi : q 2 = e.safi := hq 2 (by simp [multiSessionBlock])
  rw [hafi, hsafi]
  rfl

theorem parseParams_addPath (l : List AddPathFamily) (out : Capabilities) :
    parseParams (fragments BGP_CAPABILITY_ADD_PATH 4 addPathBlock l) out =
      { out with
        addPathFamilies := out.addPathFamilies ++ lastFragment 63 l
        addPath := out.addPath || !(lastFragment 63 l).isEmpty } := by
  refine parseParams_fragments _ length_addPathBlock rfl rfl
    (u := fun l => { out with
      addPathFamilies := out.addPathFamilies ++ l
      addPath := out.addPath || !l.isEmpty }) (by simp) (fun l p hp => ?_) l
  obtain ⟨hcount, hflag⟩ := entries_len (by decide) length_addPathBlock l
  change { out with
    addPathFamilies := out.addPathFamilies ++
      readEntries p 4 ((l.flatMap addPathBlock).length / 4) _
    addPath := out.addPath || decide _ } = _
  rw [hcount, hflag, readEntries_holds (f := id) length_addPathBlock ?_ hp, List.map_id]
  intro e q hq
  have hafi : readU16 q = e.family.afi := readU16_holds hq.left
  have hsafi : q 2 = e.family.safi := hq 2 (by simp [addPathBlock])
  have hmode : q 3 = e.sendReceive := hq 3 (by simp [addPathBlock])
  rw [hafi, hsafi, hmode]
  rfl

theorem parseParams_routeRefresh (flag : Bool) (out : Capabilities) :
    parseParams (flagParam flag BGP_CAPABILITY_ROUTE_REFRESH) out =
      { out with routeRefresh := out.routeRefresh || flag } := by
  cases flag
  · simp [flagParam]
  · rw [Bool.or_true]
    rfl

theorem parseParams_extendedMessage (flag : Bool) (out : Capabilities) :
    parseParams (flagParam flag BGP_CAPABILITY_EXTENDED_MESSAGE) out =
      { out with extendedMessage := out.extendedMessage || flag } := by
  cases flag
  · simp [flagParam]
  · rw [Bool.or_true]
    rfl

theorem parseParams_enhancedRouteRefresh (flag : Bool) (out : Capabilities) :
    parseParams (flagParam flag BGP_CAPABILITY_ENHANCED_ROUTE_REFRESH) out =
      { out with enhancedRouteRefresh := out.enhancedRouteRefresh || flag } := by
  cases flag
  · simp [flagParam]
  · rw [Bool.or_true]
    rfl

theorem parseParams_linkLocalNextHop (flag : Bool) (out : Capabilities) :
    parseParams (flagParam flag BGP_CAPABILITY_LINK_LOCAL_NEXT_HOP) out =
      { out with linkLocalNextHop := out.linkLocalNextHop || flag } := by
  cases flag
  · simp [flagParam]
  · rw [Bool.or_true]
    rfl

theorem flagsTime_time (caps : Capabilities) :
    flagsTime caps &&& 0x0FFF = caps.restartTime &&& 0x0FFF := by
  unfold flagsTime
  split
  · apply UInt16.toBitVec_inj.mp
    ext i hi
    interval_cases i <;> simp
  · rw [UInt16.and_assoc]
    rfl

theorem flagsTime_restarting (caps : Capabilities) :
    (flagsTime caps &&& 0x8000 != 0) = caps.restarting := by
  unfold flagsTime
  split
  · rename_i h
    have hbit : (caps.restartTime &&& 0x0FFF ||| 0x8000) &&& 0x8000 = 0x8000 := by
      apply UInt16.toBitVec_inj.mp
      ext i hi
      interval_cases i <;> simp
    rw [hbit, h]
    rfl
  · rename_i h
    have hbit : caps.restartTime &&& 0x0FFF &&& 0x8000 = 0 := by
      rw [UInt16.and_assoc]
      exact UInt16.and_zero
    rw [hbit, Bool.not_eq_true] at *
    rw [h]
    rfl

theorem parseParam_graceful {caps : Capabilities} (hfit : caps.gracefulFamilies.length ≤ 62)
    (out : Capabilities) :
    parseParam out (openParam BGP_CAPABILITY_GRACEFUL_RESTART
      (writeU16 (flagsTime caps) ++ caps.gracefulFamilies.flatMap gracefulBlock)) =
      { out with
        gracefulRestart := true
        restarting := caps.restarting
        restartTime := caps.restartTime &&& 0x0FFF
        gracefulFamilies := out.gracefulFamilies ++ caps.gracefulFamilies } := by
  have hblocks := length_flatMap_block length_gracefulBlock caps.gracefulFamilies
  have hlen : (writeU16 (flagsTime caps) ++ caps.gracefulFamilies.flatMap gracefulBlock).length =
      2 + caps.gracefulFamilies.length * 4 := by
    rw [List.length_append, hblocks, length_writeU16]
  obtain ⟨p, hp, hrun⟩ := parseParam_openParam BGP_CAPABILITY_GRACEFUL_RESTART (hlen.trans_le (by omega))
  have hft : readU16 p = flagsTime caps := readU16_holds hp.left
  have hfam : Holds (p.add 2) (caps.gracefulFamilies.flatMap gracefulBlock) := hp.right
  have hcount : (2 + caps.gracefulFamilies.length * 4 - 2) / 4 = caps.gracefulFamilies.length := by
    omega
  rw [hrun, hlen]
  change (if 2 + caps.gracefulFamilies.length * 4 ≥ 2 then { out with
      gracefulRestart := true
      restarting := readU16 p &&& 0x8000 != 0
      restartTime := readU16 p &&& 0x0FFF
      gracefulFamilies := out.gracefulFamilies ++
        readEntries (p.add 2) 4 ((2 + caps.gracefulFamilies.length * 4 - 2) / 4) _ }
    else out) = _
  rw [if_pos (by omega), hft, flagsTime_time, flagsTime_restarting, hcount,
    readEntries_holds (f := id) length_gracefulBlock ?_ hfam, List.map_id]
  intro e q hq
  have hafi : readU16 q = e.family.afi := readU16_holds hq.left
  have hsafi : q 2 = e.family.safi := hq 2 (by simp [gracefulBlock])
  have hflag : q 3 = if e.forwardingStatePreserved then 0x80 else 0x00 :=
    hq 3 (by simp [gracefulBlock])
  rw [hafi, hsafi, hflag]
  obtain ⟨family, preserved⟩ := e
  cases preserved <;> simp

theorem parseParam_asn (asn : UInt32) (out : Capabilities) :
    parseParam out (openParam BGP_CAPABILITY_32_BIT_AS (writeU32 asn)) =
      { out with asn32bit := true, asn := asn } := by
  obtain ⟨p, hp, hrun⟩ := parseParam_openParam BGP_CAPABILITY_32_BIT_AS
    (show (writeU32 asn).length ≤ 251 by simp)
  rw [hrun]
  change { out with asn32bit := true, asn := readU32 p } = _
  rw [readU32_holds hp]

/-- A stale time is sent in 24 bits. -/
def llgrRead (lf : LlgrFamily) : LlgrFamily := { lf with staleTime := lf.staleTime &&& 0x00FFFFFF }

theorem parseParam_llgr {l : List LlgrFamily} (hfit : l.length ≤ 35) (out : Capabilities) :
    parseParam out (openParam BGP_CAPABILITY_LLGR (l.flatMap llgrBlock)) =
      { out with
        llgrFamilies := out.llgrFamilies ++ l.map llgrRead
        llgr := out.llgr || !l.isEmpty } := by
  have hblocks := length_flatMap_block length_llgrBlock l
  obtain ⟨p, hp, hrun⟩ := parseParam_openParam BGP_CAPABILITY_LLGR (hblocks.trans_le (by omega))
  obtain ⟨hcount, hflag⟩ := entries_len (by decide) length_llgrBlock l
  rw [hrun]
  change { out with
    llgrFamilies := out.llgrFamilies ++ readEntries p 7 ((l.flatMap llgrBlock).length / 7) _
    llgr := out.llgr || decide _ } = _
  rw [hcount, hflag, readEntries_holds (f := llgrRead) length_llgrBlock ?_ hp]
  intro e q hq
  have hafi : readU16 q = e.family.afi := readU16_holds hq.left.left
  have hsafi : q 2 = e.family.safi := hq 2 (by simp [llgrBlock])
  have hflags : q 3 = e.flags := hq 3 (by simp [llgrBlock])
  have hstale : readU24 (q.add 4) = e.staleTime &&& 0x00FFFFFF := by
    refine (readU24_holds hq.right).trans ?_
    rw [UInt32.and_assoc, UInt32.and_self]
  rw [hafi, hsafi, hflags, hstale]
  rfl

theorem length_fqdnData (caps : Capabilities) :
    (fqdnData caps).length = 2 + caps.hostname.length + caps.domain.length := by
  simp [fqdnData]
  omega

theorem parseParam_fqdn {caps : Capabilities}
    (hfit : 2 + caps.hostname.length + caps.domain.length ≤ 251) (out : Capabilities) :
    parseParam out (openParam BGP_CAPABILITY_FQDN (fqdnData caps)) =
      { out with hostname := caps.hostname, domain := caps.domain, fqdn := true } := by
  have hlen := length_fqdnData caps
  obtain ⟨p, hp, hrun⟩ := parseParam_openParam BGP_CAPABILITY_FQDN (hlen.trans_le (by omega))
  obtain ⟨h0, htail⟩ := holds_cons.mp hp
  have hsize : ∀ {n : ℕ}, n ≤ 251 → (UInt8.ofNat n).toNat = n := by
    intro n hn
    rw [UInt8.toNat_ofNat']
    change n % 256 = n
    omega
  have hhn : (p 0).toNat = caps.hostname.length := by rw [h0, hsize (by omega)]
  have hdom := htail.right
  obtain ⟨h1, hdom⟩ := holds_cons.mp hdom
  rw [add_add, add_add, ← Nat.add_assoc] at hdom
  rw [add_add, add_apply, Nat.add_zero] at h1
  have hdn : (p (1 + caps.hostname.length)).toNat = caps.domain.length := by
    rw [h1, hsize (by omega)]
  rw [hrun, hlen]
  change (if 2 + caps.hostname.length + caps.domain.length ≥ 1 then
    if 1 + (p 0).toNat ≤ 2 + caps.hostname.length + caps.domain.length then { out with
      hostname := (p.add 1).take (p 0).toNat
      domain :=
        if 1 + (p 0).toNat + 1 ≤ 2 + caps.hostname.length + caps.domain.length ∧
            1 + (p 0).toNat + 1 + (p (1 + (p 0).toNat)).toNat ≤
              2 + caps.hostname.length + caps.domain.length then
          (p.add (1 + (p 0).toNat + 1)).take (p (1 + (p 0).toNat)).toNat
        else out.domain
      fqdn := true }
    else out else out) = _
  rw [hhn, hdn, if_pos (by omega), if_pos (by omega), if_pos (by omega), htail.left.take_eq,
    hdom.take_eq]

/-! ## What arrives -/

structure Capabilities.Fits (caps : Capabilities) : Prop where
  graceful : 2 + 4 * caps.gracefulFamilies.length + 2 ≤ 255
  llgr : 7 * caps.llgrFamilies.length + 2 ≤ 255
  fqdn : 2 + caps.hostname.length + caps.domain.length + 2 ≤ 255

/-- The LLGR families that are sent: none with 36 of them, whose 252 bytes overflow the span. -/
def llgrSent (caps : Capabilities) : List LlgrFamily :=
  if caps.llgr ∧ caps.llgrFamilies.length ≤ 35 then caps.llgrFamilies.map llgrRead else []

def fqdnSent (caps : Capabilities) : Bool :=
  caps.fqdn && decide (2 + caps.hostname.length + caps.domain.length ≤ 251)

/-- What the peer reads of the capabilities. -/
def arrived (caps : Capabilities) : Capabilities where
  mpFamilies := caps.mpFamilies
  routeRefresh := caps.routeRefresh
  enhancedRouteRefresh := caps.enhancedRouteRefresh
  asn32bit := caps.asn32bit
  asn := if caps.asn32bit then caps.asn else 0
  extendedMessage := caps.extendedMessage
  gracefulRestart := caps.gracefulRestart
  restarting := caps.gracefulRestart && caps.restarting
  restartTime := if caps.gracefulRestart then caps.restartTime &&& 0x0FFF else 0
  gracefulFamilies := if caps.gracefulRestart then caps.gracefulFamilies else []
  llgr := !(llgrSent caps).isEmpty
  llgrFamilies := llgrSent caps
  multiSess := !(lastFragment 63 caps.multiSessionFamilies).isEmpty
  multiSessionFamilies := lastFragment 63 caps.multiSessionFamilies
  addPath := !(lastFragment 63 caps.addPathFamilies).isEmpty
  addPathFamilies := lastFragment 63 caps.addPathFamilies
  outboundRouteFiltering := !caps.orfEntries.isEmpty
  orfEntries := caps.orfEntries.flatMap orfRead
  extendedNextHop := !(lastFragment 42 caps.extendedNextHopEntries).isEmpty
  extendedNextHopEntries := (lastFragment 42 caps.extendedNextHopEntries).map nextHopRead
  fqdn := fqdnSent caps
  hostname := if fqdnSent caps then caps.hostname else []
  domain := if fqdnSent caps then caps.domain else []
  linkLocalNextHop := caps.linkLocalNextHop

theorem parseParams_graceful {caps : Capabilities} (hfit : caps.Fits) {out : Capabilities}
    (h1 : out.gracefulRestart = false) (h2 : out.restarting = false) (h3 : out.restartTime = 0)
    (h4 : out.gracefulFamilies = []) :
    parseParams (if caps.gracefulRestart then
      [openParam BGP_CAPABILITY_GRACEFUL_RESTART
        (writeU16 (flagsTime caps) ++ caps.gracefulFamilies.flatMap gracefulBlock)]
      else []) out =
      { out with
        gracefulRestart := caps.gracefulRestart
        restarting := caps.gracefulRestart && caps.restarting
        restartTime := if caps.gracefulRestart then caps.restartTime &&& 0x0FFF else 0
        gracefulFamilies := if caps.gracefulRestart then caps.gracefulFamilies else [] } := by
  have hlen := hfit.graceful
  cases hgr : caps.gracefulRestart
  · obtain ⟨⟩ := out
    simp_all
  · simp [parseParam_graceful (show caps.gracefulFamilies.length ≤ 62 by omega), h4]

theorem parseParams_asn (caps : Capabilities) {out : Capabilities} (h1 : out.asn32bit = false)
    (h2 : out.asn = 0) :
    parseParams (if caps.asn32bit then [openParam BGP_CAPABILITY_32_BIT_AS (writeU32 caps.asn)]
      else []) out =
      { out with
        asn32bit := caps.asn32bit
        asn := if caps.asn32bit then caps.asn else 0 } := by
  cases caps.asn32bit
  · obtain ⟨⟩ := out
    simp_all
  · simp [parseParam_asn]

theorem parseParams_llgr {caps : Capabilities} (hfit : caps.Fits) {out : Capabilities}
    (h1 : out.llgr = false) (h2 : out.llgrFamilies = []) :
    parseParams (if caps.llgr && !caps.llgrFamilies.isEmpty then
      [openParam BGP_CAPABILITY_LLGR (caps.llgrFamilies.flatMap llgrBlock)] else []) out =
      { out with llgr := !(llgrSent caps).isEmpty, llgrFamilies := llgrSent caps } := by
  have hlen := hfit.llgr
  have hbytes := length_flatMap_block length_llgrBlock caps.llgrFamilies
  have hsame : out = { out with llgr := false, llgrFamilies := [] } := by
    obtain ⟨⟩ := out
    simp_all
  by_cases hsent : caps.llgr ∧ caps.llgrFamilies.length ≤ 35
  · rw [llgrSent, if_pos hsent, hsent.1, Bool.true_and]
    cases hl : caps.llgrFamilies with
    | nil => simpa using hsame
    | cons lf l =>
      rw [← hl, if_pos (by simp [hl]), parseParams_singleton, parseParam_llgr hsent.2, h1, h2, hl]
      simp
  · rw [llgrSent, if_neg hsent]
    split
    · rename_i hl
      rw [Bool.and_eq_true] at hl
      have h36 : caps.llgrFamilies.length = 36 := by
        have hgt : ¬ caps.llgrFamilies.length ≤ 35 := fun hle => hsent ⟨hl.1, hle⟩
        omega
      rw [parseParams_singleton, parseParam_empty (drop_openParam _ (by omega) (by omega))]
      exact hsame
    · exact hsame

theorem parseParams_fqdn {caps : Capabilities} (hfit : caps.Fits) {out : Capabilities}
    (h1 : out.fqdn = false) (h2 : out.hostname = []) (h3 : out.domain = []) :
    parseParams (if caps.fqdn then [openParam BGP_CAPABILITY_FQDN (fqdnData caps)] else []) out =
      { out with
        fqdn := fqdnSent caps
        hostname := if fqdnSent caps then caps.hostname else []
        domain := if fqdnSent caps then caps.domain else [] } := by
  have hlen := hfit.fqdn
  have hbytes := length_fqdnData caps
  have hsame : out = { out with fqdn := false, hostname := [], domain := [] } := by
    obtain ⟨⟩ := out
    simp_all
  rw [fqdnSent]
  cases caps.fqdn
  · simpa using hsame
  · rw [Bool.true_and, if_pos rfl, parseParams_singleton]
    by_cases hle : 2 + caps.hostname.length + caps.domain.length ≤ 251
    · rw [parseParam_fqdn hle, decide_eq_true hle]
      rfl
    · rw [parseParam_empty (drop_openParam _ (by omega) (by omega)), decide_eq_false hle]
      exact hsame

/-- **The two sides together**: reading what was written for `caps` gives `arrived caps`. -/
theorem parseParams_appendCapabilities {caps : Capabilities} (hfit : caps.Fits) :
    parseParams (appendCapabilities caps) {} = arrived caps := by
  simp only [appendCapabilities, parseParams_append, parseParams_mp, parseParams_routeRefresh,
    parseParams_orf, parseParams_extendedNextHop, parseParams_extendedMessage,
    parseParams_graceful hfit, parseParams_asn, parseParams_multiSession, parseParams_addPath,
    parseParams_enhancedRouteRefresh, parseParams_llgr hfit, parseParams_fqdn hfit,
    parseParams_linkLocalNextHop]
  simp [arrived]

/-! ## The round trip -/

/-- The fields that an OPEN message is to carry over; the families of the multiple-label, route
    target and BGPsec capabilities are not among them. -/
def advertised (caps : Capabilities) : Capabilities :=
  { caps with labeledFamilies := [], RtConstraintFamily := [], bgpsecFamilies := [] }

/-- Reading the parameters written for `caps` gives the same capabilities. -/
def RoundTrips (caps : Capabilities) : Prop :=
  advertised (parseParams (appendCapabilities caps) {}) = advertised caps

/-- The capabilities that survive: no ORF entries, SAFI 0 in the extended next hop entries,
    fragmented lists shorter than one fragment, LLGR and FQDN data of at most 251 bytes, times
    within their fields, flags that say what the lists say, and nothing of the capabilities that
    are not written. -/
structure Faithful (caps : Capabilities) : Prop where
  orf : caps.orfEntries = [] ∧ caps.outboundRouteFiltering = false
  nextHop : caps.extendedNextHopEntries.length < 42 ∧
    (∀ e ∈ caps.extendedNextHopEntries, e.family.safi = 0) ∧
    caps.extendedNextHop = !caps.extendedNextHopEntries.isEmpty
  multiSession : caps.multiSessionFamilies.length < 63 ∧
    caps.multiSess = !caps.multiSessionFamilies.isEmpty
  addPath : caps.addPathFamilies.length < 63 ∧ caps.addPath = !caps.addPathFamilies.isEmpty
  graceful : caps.gracefulRestart = true ∧ caps.restartTime < 0x1000 ∨
    caps.gracefulRestart = false ∧ caps.restarting = false ∧ caps.restartTime = 0 ∧
      caps.gracefulFamilies = []
  asn : caps.asn32bit = true ∨ caps.asn = 0
  llgr : caps.llgrFamilies.length ≤ 35 ∧ (∀ lf ∈ caps.llgrFamilies, lf.staleTime < 0x1000000) ∧
    caps.llgr = !caps.llgrFamilies.isEmpty
  fqdn : caps.fqdn = true ∧ 2 + caps.hostname.length + caps.domain.length ≤ 251 ∨
    caps.fqdn = false ∧ caps.hostname = [] ∧ caps.domain = []
  unsent : caps.multipleLabels = false ∧ caps.routeTargetConstraint = false ∧ caps.bgpsec = false

theorem and_mask_eq_iff16 (x : UInt16) : x &&& 0x0FFF = x ↔ x < 0x1000 := by
  rw [← UInt16.toNat_inj, UInt16.toNat_and, UInt16.lt_iff_toNat_lt]
  change x.toNat &&& (2 ^ 12 - 1) = _ ↔ _ < 2 ^ 12
  rw [Nat.and_two_pow_sub_one_eq_mod]
  omega

theorem and_mask_eq_iff32 (x : UInt32) : x &&& 0x00FFFFFF = x ↔ x < 0x1000000 := by
  rw [← UInt32.toNat_inj, UInt32.toNat_and, UInt32.lt_iff_toNat_lt]
  change x.toNat &&& (2 ^ 24 - 1) = _ ↔ _ < 2 ^ 24
  rw [Nat.and_two_pow_sub_one_eq_mod]
  omega

theorem map_eq_self_iff {α : Type*} {f : α → α} {l : List α} : l.map f = l ↔ ∀ e ∈ l, f e = e := by
  conv_lhs => rhs; rw [← List.map_id l]
  rw [List.map_inj_left]
  rfl

theorem orf_roundTrip_iff (l : List OrfEntry) : l.flatMap orfRead = l ↔ l = [] := by
  refine ⟨fun h => ?_, fun h => by rw [h]; rfl⟩
  have hzero : ∀ e ∈ l, e.family.safi = 0 := by
    intro e he
    rw [← h, List.mem_flatMap] at he
    obtain ⟨e', -, he'⟩ := he
    unfold orfRead at he'
    split at he'
    · cases he'
    · rw [List.mem_singleton] at he'
      rw [he']
  rw [← h, List.flatMap_eq_nil_iff]
  intro e he
  rw [orfRead, if_pos (hzero e he)]

theorem nextHop_roundTrip_iff (l : List ExtendedNextHop) :
    (lastFragment 42 l).map nextHopRead = l ↔ l.length < 42 ∧ ∀ e ∈ l, e.family.safi = 0 := by
  have hread : ∀ e : ExtendedNextHop, nextHopRead e = e ↔ e.family.safi = 0 := by
    rintro ⟨⟨afi, safi⟩, nh⟩
    simp [nextHopRead, eq_comm]
  constructor
  · intro h
    have hlen := congrArg List.length h
    rw [List.length_map, length_lastFragment] at hlen
    have hlt : l.length < 42 := by omega
    rw [(lastFragment_eq_iff (by decide) l).mpr hlt, map_eq_self_iff] at h
    exact ⟨hlt, fun e he => (hread e).mp (h e he)⟩
  · rintro ⟨hlt, hz⟩
    rw [(lastFragment_eq_iff (by decide) l).mpr hlt, map_eq_self_iff]
    exact fun e he => (hread e).mpr (hz e he)

theorem llgr_roundTrip_iff (caps : Capabilities) :
    (!(llgrSent caps).isEmpty) = caps.llgr ∧ llgrSent caps = caps.llgrFamilies ↔
      caps.llgrFamilies.length ≤ 35 ∧ (∀ lf ∈ caps.llgrFamilies, lf.staleTime < 0x1000000) ∧
        caps.llgr = !caps.llgrFamilies.isEmpty := by
  have hread : ∀ lf : LlgrFamily, llgrRead lf = lf ↔ lf.staleTime < 0x1000000 := by
    rintro ⟨fam, st, fl⟩
    simp [llgrRead, and_mask_eq_iff32]
  constructor
  · rintro ⟨hflag, hfam⟩
    rw [hfam] at hflag
    by_cases hsent : caps.llgr ∧ caps.llgrFamilies.length ≤ 35
    · rw [llgrSent, if_pos hsent, map_eq_self_iff] at hfam
      exact ⟨hsent.2, fun lf hlf => (hread lf).mp (hfam lf hlf), hflag.symm⟩
    · rw [llgrSent, if_neg hsent] at hfam
      rw [← hfam] at hflag ⊢
      exact ⟨by simp, by simp, hflag.symm⟩
  · rintro ⟨hlen, hst, hflag⟩
    have hsent : llgrSent caps = caps.llgrFamilies := by
      cases hl : caps.llgrFamilies with
      | nil => simp [llgrSent, hl]
      | cons lf l =>
        rw [llgrSent, if_pos ⟨by rw [hflag, hl]; rfl, hlen⟩, ← hl, map_eq_self_iff]
        exact fun lf hlf => (hread lf).mpr (hst lf hlf)
    rw [hsent]
    exact ⟨hflag.symm, rfl⟩

/-- **The capabilities that survive the round trip** are exactly the faithful ones. -/
theorem roundTrip_iff (caps : Capabilities) (hfit : caps.Fits) : RoundTrips caps ↔ Faithful caps := by
  have hllgr := llgr_roundTrip_iff caps
  have horf := orf_roundTrip_iff caps.orfEntries
  have hnh := nextHop_roundTrip_iff caps.extendedNextHopEntries
  have hms := lastFragment_eq_iff (by decide : 0 < 63) caps.multiSessionFamilies
  have hap := lastFragment_eq_iff (by decide : 0 < 63) caps.addPathFamilies
  have hnh' := lastFragment_eq_iff (by decide : 0 < 42) caps.extendedNextHopEntries
  rw [RoundTrips, parseParams_appendCapabilities hfit, Capabilities.ext_iff]
  simp only [advertised, arrived]
  constructor
  · rintro ⟨-, -, -, -, hasn, -, -, hrs, hrt, hgf, hll, hllf, hmsf, hmsl, hapf, hapl, horff, horfl,
      hnhf, hnhl, hml, -, hrtc, -, hsec, -, hfq, hhost, hdom, -⟩
    obtain ⟨hnhlen, hnhz⟩ := hnh.mp hnhl
    rw [hnh'.mpr hnhlen] at hnhf
    rw [hmsl] at hmsf
    rw [hapl] at hapf
    have hnil := horf.mp horfl
    constructor
    · exact ⟨hnil, by rw [← horff, hnil]; rfl⟩
    · exact ⟨hnhlen, hnhz, hnhf.symm⟩
    · exact ⟨hms.mp hmsl, hmsf.symm⟩
    · exact ⟨hap.mp hapl, hapf.symm⟩
    · cases hgr : caps.gracefulRestart
      · rw [hgr] at hrs hrt hgf
        exact .inr ⟨rfl, hrs.symm, hrt.symm, hgf.symm⟩
      · rw [hgr] at hrt
        exact .inl ⟨rfl, (and_mask_eq_iff16 _).mp hrt⟩
    · cases ha : caps.asn32bit
      · rw [ha] at hasn
        exact .inr hasn.symm
      · exact .inl rfl
    · exact hllgr.mp ⟨hll, hllf⟩
    · cases hf : fqdnSent caps
      · rw [hf] at hfq hhost hdom
        exact .inr ⟨hfq.symm, hhost.symm, hdom.symm⟩
      · rw [fqdnSent, Bool.and_eq_true, decide_eq_true_eq] at hf
        exact .inl hf
    · exact ⟨hml.symm, hrtc.symm, hsec.symm⟩
  · rintro ⟨⟨horfl, horff⟩, ⟨hnhlen, hnhz, hnhf⟩, ⟨hmsl, hmsf⟩, ⟨hapl, hapf⟩, hgr, hasn, hll, hfq,
      hml, hrtc, hsec⟩
    obtain ⟨hllf, hllfam⟩ := hllgr.mpr hll
    have hasn' : (if caps.asn32bit then caps.asn else 0) = caps.asn := by
      rcases hasn with h | h <;> simp [h]
    have hsent : fqdnSent caps = caps.fqdn := by
      rcases hfq with ⟨h, hle⟩ | ⟨h, -⟩ <;> simp [fqdnSent, h]
      exact hle
    refine ⟨trivial, trivial, trivial, trivial, hasn', trivial, trivial, ?_, ?_, ?_, hllf, hllfam,
      ?_, hms.mpr hmsl, ?_, hap.mpr hapl, ?_, horf.mpr horfl, ?_, hnh.mpr ⟨hnhlen, hnhz⟩, hml.symm,
      trivial, hrtc.symm, trivial, hsec.symm, trivial, hsent, ?_, ?_, trivial⟩
    · rcases hgr with ⟨h, -⟩ | ⟨h, hr, -⟩ <;> simp [*]
    · rcases hgr with ⟨h, ht⟩ | ⟨h, -, ht, -⟩
      · rw [h, if_pos rfl]
        exact (and_mask_eq_iff16 _).mpr ht
      · simp [h, ht]
    · rcases hgr with ⟨h, -⟩ | ⟨h, -, -, hf⟩ <;> simp [*]
    · rw [hms.mpr hmsl, hmsf]
    · rw [hap.mpr hapl, hapf]
    · rw [horfl, horff]
      rfl
    · rw [hnh'.mpr hnhlen, hnhf]
    · rcases hfq with ⟨h, -⟩ | ⟨h, hh, -⟩ <;> simp [*]
    · rcases hfq with ⟨h, -⟩ | ⟨h, -, hd⟩ <;> simp [*]

/-- Capabilities as a session advertises them, without ORF. -/
def sampleCaps : Capabilities where
  mpFamilies := [⟨1, 1⟩, ⟨2, 1⟩]
  routeRefresh := true
  enhancedRouteRefresh := true
  asn32bit := true
  asn := 4200000001
  extendedMessage := true
  gracefulRestart := true
  restarting := true
  restartTime := 120
  gracefulFamilies := [⟨⟨1, 1⟩, true⟩]
  addPath := true
  addPathFamilies := [⟨⟨1, 1⟩, 3⟩]
  linkLocalNextHop := true

theorem roundTrip_iff_sample : RoundTrips sampleCaps :=
  (roundTrip_iff sampleCaps ⟨by decide, by decide, by decide⟩).mpr
    ⟨by decide, by decide, by decide, by decide, by decide, by decide, by decide, by decide,
      by decide⟩

/-- An ORF entry for IPv4 unicast is read with SAFI 0, and its type as the direction. -/
theorem not_roundTrip_orf : ¬ ∀ caps : Capabilities, caps.Fits → RoundTrips caps := by
  intro h
  have hrt := h { orfEntries := [⟨⟨1, 1⟩, 64, 3⟩], outboundRouteFiltering := true }
    ⟨by decide, by decide, by decide⟩
  have horf := congrArg Capabilities.orfEntries hrt
  revert horf
  decide +kernel

end VirtualRouter.Bgp
