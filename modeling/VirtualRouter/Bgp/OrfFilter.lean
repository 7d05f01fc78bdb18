/-
  Outbound route filters (`BgpRx::processRouteRefresh` and
  `NeighborAf::updateOrfFilter`), for the messages of `buildRouteRefresh`.

  The builder writes the prefix of an entry as its address is an IPv4 or an IPv6
  one, the receiver reads it as the family of the message is; so an IPv6 prefix
  that stands behind `0xFFFF` comes back as another one, or makes `writeBytes`
  shift by a negative amount.  Of an entry REMOVE-ALL only the first byte is sent.

  * `parseOrf_bytes_iff`: the entries that come back as they were sent;
  * `Replays`: the list of the receiver is the replay of the entries, by sequence;
  * `synchronised_iff`: when both hold along any number of messages.
-/
import VirtualRouter.Bgp.BgpTx
import VirtualRouter.Bgp.UpdateParser
import VirtualRouter.Lib.EntryTable

namespace VirtualRouter.Bgp

open Bytes Utils Run EntryTable

def BGP_ORF_ACTION_REMOVE : UInt8 := 0x01

/-! ## The list -/

namespace OrfPrefixEntry

/-- `OrfPrefixEntry e{}`. -/
def blank : OrfPrefixEntry := ⟨0, 0, 0, 0, 0, ⟨0, 0⟩⟩

end OrfPrefixEntry

def updateOrfEntry (orfFilter : List OrfPrefixEntry) (e : OrfPrefixEntry) : List OrfPrefixEntry :=
  if e.action = BGP_ORF_ACTION_REMOVE_ALL then []
  else
    let it := orfFilter.findIdx? fun f => f.sequence = e.sequence
    if e.action = BGP_ORF_ACTION_REMOVE then it.elim orfFilter orfFilter.eraseIdx
    else it.elim (orfFilter ++ [e]) fun i => orfFilter.set i e

def updateOrfFilter (orfFilter entries : List OrfPrefixEntry) : List OrfPrefixEntry :=
  (entries.foldl updateOrfEntry orfFilter).mergeSort fun a b => a.sequence ≤ b.sequence

/-! ## The receiver -/

/-- `readBytes`, to a number of `w` bits: `n` bytes in the high positions. -/
def readHigh (w : ℕ) (p : BytePtr) (n : ℕ) : BitVec w :=
  (List.range n).foldl (fun val i => val ||| (p i).toBitVec.setWidth w <<< (w - 8 - 8 * i)) 0

/-- `setV6` or `setV4`, by the family. -/
def orfAddress (afi : UInt16) (p : BytePtr) (n : ℕ) : BitVec 128 :=
  if afi = BGP_AFI_IPV6 then readHigh 128 p n
  else (readHigh 32 p n).setWidth 128 ||| (0xFFFF : BitVec 128) <<< 32

def parseOrfEntries (afi : UInt16) : List UInt8 → List OrfPrefixEntry
  | [] => []
  | actionMatch :: rest =>
    let e := { OrfPrefixEntry.blank with
      action := (actionMatch >>> 6) &&& 0x03, matching := actionMatch &&& 0x01 }
    if e.action = BGP_ORF_ACTION_REMOVE_ALL then e :: parseOrfEntries afi rest
    else
      match rest with
      | s₀ :: s₁ :: s₂ :: s₃ :: minLen :: maxLen :: prefixLen :: pfx =>
        let prefixBytes := (prefixLen.toNat + 7) / 8
        if pfx.length < prefixBytes then []
        else
          { e with
            sequence := readU32 (ofList [s₀, s₁, s₂, s₃]), minLen, maxLen
            pfx := ⟨orfAddress afi (ofList pfx) prefixBytes, prefixLen⟩ } ::
          parseOrfEntries afi (pfx.drop prefixBytes)
      | _ => []
termination_by bytes => bytes.length

def parseOrf (afi : UInt16) : List UInt8 → List OrfPrefixEntry
  | orfType :: hi :: lo :: rest =>
    let orfLen := (readU16 (ofList [hi, lo])).toNat
    if rest.length < orfLen then []
    else
      (if orfType = BGP_ORF_TYPE_PREFIX_LIST then parseOrfEntries afi (rest.take orfLen) else []) ++
        parseOrf afi (rest.drop orfLen)
  | _ => []
termination_by bytes => bytes.length

structure RouteRefreshRequest where
  family : AfiSafi
  orfEntries : List OrfPrefixEntry
  /-- What the family is called for: `refreshPeer`, `onPeerBorr` or `onPeerEorr`. -/
  refresh : Option RouteRefreshReason
  deriving DecidableEq, Repr

/-- What the family is called for, by the second byte of the message. -/
def refreshFor (subtype : UInt8) (orfEntries : List OrfPrefixEntry) : Option RouteRefreshReason :=
  if !orfEntries.isEmpty then if subtype = BGP_ORF_WHEN_IMMEDIATE then some .Normal else none
  else if subtype = RouteRefreshReason.Borr.code then some .Borr
  else if subtype = RouteRefreshReason.Eorr.code then some .Eorr
  else some .Normal

/-- `processRouteRefresh`, up to the calls that it makes. -/
def processRouteRefresh (canReceiveOrf : AfiSafi → UInt8 → Bool) :
    List UInt8 → Except Notification RouteRefreshRequest
  | a₀ :: a₁ :: subtype :: safi :: orfs =>
    let family : AfiSafi := ⟨readU16 (ofList [a₀, a₁]), safi⟩
    let orfEntries := if canReceiveOrf family BGP_ORF_TYPE_PREFIX_LIST then parseOrf family.afi orfs else []
    .ok ⟨family, orfEntries, refreshFor subtype orfEntries⟩
  | payload => .error ⟨BGP_NOTIFICATION_HEADER_BAD_MESSAGE_LENGTH,
      writeU16 (UInt16.ofNat (headerSize + payload.length))⟩

def receiveRouteRefresh (canReceiveOrf : AfiSafi → UInt8 → Bool)
    (orfFilter : AfiSafi → List OrfPrefixEntry) (payload : List UInt8) :
    AfiSafi → List OrfPrefixEntry :=
  match processRouteRefresh canReceiveOrf payload with
  | .error _ => orfFilter
  | .ok r =>
    if r.orfEntries.isEmpty then orfFilter
    else Function.update orfFilter r.family (updateOrfFilter (orfFilter r.family) r.orfEntries)

/-! ## The replay -/

/-- What an entry does to the prefix list, which is a map by sequence. -/
def replayOne (f : UInt32 → Option OrfPrefixEntry) (e : OrfPrefixEntry) :
    UInt32 → Option OrfPrefixEntry :=
  if e.action = BGP_ORF_ACTION_REMOVE_ALL then fun _ => none
  else Function.update f e.sequence (if e.action = BGP_ORF_ACTION_REMOVE then none else some e)

def replay (entries : List OrfPrefixEntry) : UInt32 → Option OrfPrefixEntry :=
  entries.foldl replayOne fun _ => none

def keyed (orfFilter : List OrfPrefixEntry) : List (UInt32 × OrfPrefixEntry) :=
  orfFilter.map fun e => (e.sequence, e)

/-- **The list is the map**: sorted by sequence, no sequence twice, and under each the entry that
    the map has. -/
structure Replays (orfFilter : List OrfPrefixEntry) (f : UInt32 → Option OrfPrefixEntry) : Prop where
  sorted : orfFilter.Pairwise fun a b => a.sequence < b.sequence
  entries : Represents (keyed orfFilter) f

theorem keyed_eraseP (orfFilter : List OrfPrefixEntry) (k : UInt32) :
    keyed (orfFilter.eraseP fun f => f.sequence = k) = (keyed orfFilter).eraseP fun x => x.1 = k := by
  rw [keyed, keyed, List.eraseP_map]
  rfl

theorem updateOrfEntry_represents {orfFilter : List OrfPrefixEntry}
    {f : UInt32 → Option OrfPrefixEntry} (h : Represents (keyed orfFilter) f) (e : OrfPrefixEntry) :
    Represents (keyed (updateOrfEntry orfFilter e)) (replayOne f e) := by
  have hat := @List.eraseP_eq_eraseIdx _ orfFilter fun f => f.sequence = e.sequence
  unfold updateOrfEntry replayOne
  split_ifs with hall hremove
  · exact Represents.nil
  · have hrest := h.erase e.sequence
    rw [← keyed_eraseP, hat] at hrest
    cases hidx : orfFilter.findIdx? fun f => f.sequence = e.sequence <;> rwa [hidx] at hrest
  · have hnew := h.replace e.sequence e
    rw [← keyed_eraseP, hat] at hnew
    cases hidx : orfFilter.findIdx? fun f => f.sequence = e.sequence with
    | none =>
      rw [hidx] at hnew
      refine hnew.of_perm ?_
      simp only [Option.elim_none, keyed, List.map_append, List.map_cons, List.map_nil]
      exact List.perm_append_singleton _ _
    | some i =>
      obtain ⟨hi, -⟩ := List.findIdx?_eq_some_iff_getElem.1 hidx
      rw [hidx] at hnew
      exact hnew.of_perm
        ((List.set_perm_cons_eraseIdx hi e).map fun e : OrfPrefixEntry => (e.sequence, e))

theorem updateOrfFilter_replays {orfFilter : List OrfPrefixEntry}
    {f : UInt32 → Option OrfPrefixEntry} (h : Replays orfFilter f) (entries : List OrfPrefixEntry) :
    Replays (updateOrfFilter orfFilter entries) (entries.foldl replayOne f) := by
  have hloop : Represents (keyed (entries.foldl updateOrfEntry orfFilter))
      (entries.foldl replayOne f) := by
    have hstart := h.entries
    clear h
    induction entries generalizing orfFilter f with
    | nil => exact hstart
    | cons e entries ih => exact ih (updateOrfEntry_represents hstart e)
  have hperm := List.mergeSort_perm (entries.foldl updateOrfEntry orfFilter)
    fun a b => decide (a.sequence ≤ b.sequence)
  have hentries : Represents (keyed (updateOrfFilter orfFilter entries)) _ :=
    hloop.of_perm (hperm.map _)
  refine ⟨?_, hentries⟩
  have hle : (updateOrfFilter orfFilter entries).Pairwise fun a b => a.sequence ≤ b.sequence := by
    refine (List.pairwise_mergeSort (fun a b c => ?_) (fun a b => ?_) _).imp of_decide_eq_true
    · simpa using UInt32.le_trans
    · simpa using UInt32.le_total a.sequence b.sequence
  have hne : (updateOrfFilter orfFilter entries).Pairwise fun a b => a.sequence ≠ b.sequence := by
    have hnodup := hentries.nodup
    rw [keyed, List.map_map] at hnodup
    exact List.pairwise_map.1 hnodup
  exact (hle.and hne).imp fun ⟨h₁, h₂⟩ => UInt32.lt_of_le_of_ne h₁ h₂

theorem replays_nil : Replays [] fun _ => none := ⟨List.Pairwise.nil, Represents.nil⟩

/-! ## The bytes of an entry -/

section
variable {w n : ℕ} {p : BytePtr}

theorem getLsbD_foldl_or (f : ℕ → BitVec w) (l : List ℕ) (v : BitVec w) (j : ℕ) :
    (l.foldl (fun v i => v ||| f i) v).getLsbD j = (v.getLsbD j || l.any fun i => (f i).getLsbD j) := by
  induction l generalizing v with
  | nil => simp
  | cons i l ih => simp [ih, Bool.or_assoc]

theorem readHigh_writeBytes {k : ℕ} {val : BitVec (8 * k)} (hn : n ≤ k)
    (hhost : val <<< (8 * n) = 0) (hp : Holds p (writeBytes val n)) : readHigh (8 * k) p n = val := by
  have hbyte (i : ℕ) (hi : i < n) :
      p i = UInt8.ofBitVec ((val >>> (8 * k - 8 - 8 * i)).setWidth 8) := by
    rw [hp i (by simpa [writeBytes] using hi), List.getD_eq_getElem _ _ (by simpa [writeBytes] using hi)]
    simp [writeBytes]
  apply BitVec.eq_of_getLsbD_eq
  intro j hj
  rw [readHigh, getLsbD_foldl_or, show (0 : BitVec (8 * k)).getLsbD j = false from BitVec.getLsbD_zero,
    Bool.false_or]
  by_cases hlow : j < 8 * k - 8 * n
  · -- a host bit: 0 in the number, and in none of the bytes
    have hzero : val.getLsbD j = false := by
      have hbit := congrArg (fun v => v.getLsbD (8 * n + j)) hhost
      rw [BitVec.getLsbD_eq_getElem hj]
      simpa [show 8 * n + j < 8 * k by omega] using hbit
    rw [hzero, List.any_eq_false]
    intro i hi
    have hin := List.mem_range.1 hi
    simp [show j < 8 * k - 8 - 8 * i by omega]
  · -- the byte that the bit stands in
    obtain ⟨i, hi, hfrom, hto⟩ : ∃ i < n, 8 * k - 8 - 8 * i ≤ j ∧ j < 8 * k - 8 * i := by
      refine ⟨k - 1 - j / 8, by omega, by omega, by omega⟩
    cases hval : val.getLsbD j with
    | true =>
      rw [List.any_eq_true]
      refine ⟨i, List.mem_range.2 hi, ?_⟩
      rw [hbyte i hi]
      simp [hj, hval, show j - (8 * k - 8 - 8 * i) < 8 by omega,
        show ¬ j < 8 * k - 8 - 8 * i by omega,
        show 8 * k - 8 - 8 * i + (j - (8 * k - 8 - 8 * i)) = j by omega,
        show j - (8 * k - 8 - 8 * i) < 8 * k by omega]
    | false =>
      rw [List.any_eq_false]
      intro i' hi'
      rw [hbyte i' (List.mem_range.1 hi')]
      by_cases hin : j < 8 * k - 8 - 8 * i'
      · simp [hin]
      · simp [hval, hin, show 8 * k - 8 - 8 * i' + (j - (8 * k - 8 - 8 * i')) = j by omega]

end

theorem action_of_byte (action matching : UInt8) :
    ((action <<< 6 ||| (matching &&& 0x01)) >>> 6) &&& 0x03 = action &&& 0x03 := by
  apply UInt8.toBitVec_inj.mp
  ext i hi
  have hcases : i = 0 ∨ i = 1 ∨ i = 2 ∨ i = 3 ∨ i = 4 ∨ i = 5 ∨ i = 6 ∨ i = 7 := by omega
  rcases hcases with rfl | rfl | rfl | rfl | rfl | rfl | rfl | rfl <;> simp

theorem matching_of_byte (action matching : UInt8) :
    (action <<< 6 ||| (matching &&& 0x01)) &&& 0x01 = matching &&& 0x01 := by
  apply UInt8.toBitVec_inj.mp
  ext i hi
  have hcases : i = 0 ∨ i = 1 ∨ i = 2 ∨ i = 3 ∨ i = 4 ∨ i = 5 ∨ i = 6 ∨ i = 7 := by omega
  rcases hcases with rfl | rfl | rfl | rfl | rfl | rfl | rfl | rfl <;> simp

theorem and_three_eq_iff (a : UInt8) : a &&& 0x03 = a ↔ a < 4 := by
  rw [← UInt8.toNat_inj, UInt8.toNat_and, UInt8.lt_iff_toNat_lt,
    show (0x03 : UInt8).toNat = 2 ^ 2 - 1 from rfl, Nat.and_two_pow_sub_one_eq_mod,
    show (4 : UInt8).toNat = 4 from rfl]
  omega

theorem and_one_eq_iff (a : UInt8) : a &&& 0x01 = a ↔ a < 2 := by
  rw [← UInt8.toNat_inj, UInt8.toNat_and, UInt8.lt_iff_toNat_lt,
    show (0x01 : UInt8).toNat = 2 ^ 1 - 1 from rfl, Nat.and_two_pow_sub_one_eq_mod,
    show (2 : UInt8).toNat = 2 from rfl]
  omega

namespace OrfPrefixEntry

/-- `writeBytes` is asked for no more bytes than the address has. -/
def Written (e : OrfPrefixEntry) : Prop :=
  e.action ≠ BGP_ORF_ACTION_REMOVE_ALL → e.pfxBytes ≤ if e.pfx.isIPv4 then 4 else 16

/-- The prefix length is within the width of the family, and the host bits behind the last byte
    sent are 0. -/
def InFamily (afi : UInt16) (e : OrfPrefixEntry) : Prop :=
  if afi = BGP_AFI_IPV6 then e.pfx.prefixLength ≤ 128 ∧ e.pfx.addr <<< (8 * e.pfxBytes) = 0
  else e.pfx.prefixLength ≤ 32 ∧ e.pfx.addr.setWidth 32 <<< (8 * e.pfxBytes) = 0

/-- What a message can carry: action and match in their bits, nothing more for REMOVE-ALL, and
    an address that is stored as one of the family. -/
structure Travels (afi : UInt16) (e : OrfPrefixEntry) : Prop where
  action : e.action < 4
  matching : e.matching < 2
  removeAll : e.action = BGP_ORF_ACTION_REMOVE_ALL →
    e = { blank with action := e.action, matching := e.matching }
  family : e.action ≠ BGP_ORF_ACTION_REMOVE_ALL → (e.pfx.isIPv4 = true ↔ afi ≠ BGP_AFI_IPV6)

variable {afi : UInt16} {e : OrfPrefixEntry}

theorem pfxBytes_le {k : ℕ} (h : e.pfx.prefixLength.toNat ≤ 8 * k) : e.pfxBytes ≤ k := by
  rw [pfxBytes]
  omega

theorem length_writeBytes {w : ℕ} (val : BitVec w) (n : ℕ) : (writeBytes val n).length = n := by
  simp [writeBytes]

theorem isIPv4_iff (p : IPPrefix) :
    p.isIPv4 = true ↔ (p.addr.setWidth 32).setWidth 128 ||| (0xFFFF : BitVec 128) <<< 32 = p.addr := by
  have h := IPAddress.ofV4_v4_iff ⟨p.addr⟩
  simp only [IPAddress.ofV4, IPAddress.v4, IPAddress.mk.injEq, IPAddress.isIPv4] at h
  exact h.symm

theorem setWidth_mapped (x : BitVec 32) :
    (x.setWidth 128 ||| (0xFFFF : BitVec 128) <<< 32).setWidth 32 = x := by
  ext i hi
  simp

theorem orfAddress_eq_iff (hwritten : e.Written) (hne : e.action ≠ BGP_ORF_ACTION_REMOVE_ALL)
    (hfam : e.InFamily afi) (rest : List UInt8) :
    orfAddress afi (ofList ((if e.pfx.isIPv4 then writeBytes (e.pfx.addr.setWidth 32) e.pfxBytes
      else writeBytes e.pfx.addr e.pfxBytes) ++ rest)) e.pfxBytes = e.pfx.addr ↔
      (e.pfx.isIPv4 = true ↔ afi ≠ BGP_AFI_IPV6) := by
  have hbytes := hwritten hne
  unfold InFamily at hfam
  unfold orfAddress
  by_cases hafi : afi = BGP_AFI_IPV6
  · simp only [hafi, if_true] at hfam ⊢
    cases hv4 : e.pfx.isIPv4 with
    | false =>
      simp only [hv4, Bool.false_eq_true, if_false] at hbytes ⊢
      refine iff_of_true ?_ (by simp)
      exact readHigh_writeBytes (k := 16) hbytes hfam.2 (holds_append.1 (holds_ofList _)).1
    | true =>
      -- the bits of `0xFFFF` would be host bits
      simp only [hv4, if_true] at hbytes
      refine iff_of_false (fun _ => ?_) (by simp)
      have hmapped : e.pfx.addr >>> 32 = 0xFFFF := of_decide_eq_true hv4
      have hset := congrArg (fun v => v.getLsbD 0) hmapped
      have hzero := congrArg (fun v => v.getLsbD (8 * e.pfxBytes + 32)) hfam.2
      simp only [BitVec.getLsbD_ushiftRight, BitVec.getLsbD_shiftLeft, Nat.add_zero,
        Nat.add_sub_cancel_left] at hset hzero
      rw [hset] at hzero
      simp [show 8 * e.pfxBytes + 32 < 128 by omega] at hzero
  · simp only [hafi, if_false] at hfam ⊢
    cases hv4 : e.pfx.isIPv4 with
    | false =>
      refine iff_of_false (fun heq => ?_) (by simp [hafi])
      have hmapped : e.pfx.isIPv4 = true := by
        rw [isIPv4_iff, ← heq, setWidth_mapped]
      rw [hv4] at hmapped
      cases hmapped
    | true =>
      simp only [hv4, if_true] at hbytes ⊢
      refine iff_of_true ?_ (by simp [hafi])
      rw [readHigh_writeBytes (k := 4) hbytes hfam.2 (holds_append.1 (holds_ofList _)).1]
      exact (isIPv4_iff e.pfx).1 hv4

theorem parse_removeAll (rest : List UInt8) (h : e.action &&& 0x03 = BGP_ORF_ACTION_REMOVE_ALL) :
    parseOrfEntries afi ((e.action <<< 6 ||| (e.matching &&& 0x01)) :: rest) =
      { blank with action := BGP_ORF_ACTION_REMOVE_ALL, matching := e.matching &&& 0x01 } ::
        parseOrfEntries afi rest := by
  rw [parseOrfEntries.eq_def]
  simp only [action_of_byte, matching_of_byte, h, if_true]

theorem parse_entry (rest : List UInt8) (h : e.action &&& 0x03 ≠ BGP_ORF_ACTION_REMOVE_ALL)
    (hne : e.action ≠ BGP_ORF_ACTION_REMOVE_ALL) :
    parseOrfEntries afi (e.bytes ++ rest) =
      { e with
        action := e.action &&& 0x03, matching := e.matching &&& 0x01
        pfx := ⟨orfAddress afi (ofList ((if e.pfx.isIPv4 then
          writeBytes (e.pfx.addr.setWidth 32) e.pfxBytes else writeBytes e.pfx.addr e.pfxBytes) ++
            rest)) e.pfxBytes, e.pfx.prefixLength⟩ } :: parseOrfEntries afi rest := by
  generalize hpfx : (if e.pfx.isIPv4 then writeBytes (e.pfx.addr.setWidth 32) e.pfxBytes
    else writeBytes e.pfx.addr e.pfxBytes) = pfx
  have hlen : pfx.length = e.pfxBytes := by
    rw [← hpfx]
    split_ifs <;> exact length_writeBytes _ _
  obtain ⟨s₀, s₁, s₂, s₃, hseq⟩ : ∃ a b c d, writeU32 e.sequence = [a, b, c, d] := ⟨_, _, _, _, rfl⟩
  have hread : readU32 (ofList [s₀, s₁, s₂, s₃]) = e.sequence := by
    rw [← hseq]
    exact readU32_holds (holds_ofList _)
  have hbytes : e.bytes ++ rest = (e.action <<< 6 ||| (e.matching &&& 0x01)) :: s₀ :: s₁ :: s₂ ::
      s₃ :: e.minLen :: e.maxLen :: e.pfx.prefixLength :: (pfx ++ rest) := by
    simp only [OrfPrefixEntry.bytes, if_neg hne, hseq, hpfx, List.cons_append, List.nil_append]
  rw [hbytes, parseOrfEntries]
  simp only [action_of_byte, matching_of_byte, if_neg h, hread]
  change (if (pfx ++ rest).length < e.pfxBytes then _ else _) = _
  rw [if_neg (by rw [List.length_append]; omega)]
  have hdrop : (pfx ++ rest).drop e.pfxBytes = rest := List.drop_left' hlen
  exact congrArg _ (congrArg _ hdrop)

/-- **One entry** comes back, in front of the others, iff it can travel. -/
theorem parse_bytes_iff (hwritten : e.Written) (hfam : e.InFamily afi) (rest : List UInt8)
    (l : List OrfPrefixEntry) :
    parseOrfEntries afi (e.bytes ++ rest) = e :: l ↔ e.Travels afi ∧ parseOrfEntries afi rest = l := by
  by_cases hall : e.action = BGP_ORF_ACTION_REMOVE_ALL
  · have hbytes : e.bytes ++ rest = (e.action <<< 6 ||| (e.matching &&& 0x01)) :: rest := by
      simp only [OrfPrefixEntry.bytes, if_pos hall, List.singleton_append]
    rw [hbytes, parse_removeAll rest (by rw [hall]; rfl), List.cons_eq_cons]
    refine and_congr_left fun _ => ⟨fun heq => ?_, fun htravels => ?_⟩
    · have hmatch := congrArg OrfPrefixEntry.matching heq
      refine ⟨by rw [hall]; decide, (and_one_eq_iff _).1 hmatch, fun _ => ?_, fun hne => (hne hall).elim⟩
      rw [hall, ← hmatch]
      exact heq.symm
    · rw [(and_one_eq_iff _).2 htravels.matching, ← hall]
      exact (htravels.removeAll hall).symm
  · by_cases hbits : e.action &&& 0x03 = BGP_ORF_ACTION_REMOVE_ALL
    · -- an action with further bits, that is read as REMOVE-ALL
      refine iff_of_false (fun heq => hall ?_) fun htravels => hall ?_
      · have hbytes : ∃ tail, e.bytes ++ rest =
            (e.action <<< 6 ||| (e.matching &&& 0x01)) :: tail := by
          simp only [OrfPrefixEntry.bytes, if_neg hall, List.cons_append]
          exact ⟨_, rfl⟩
        obtain ⟨tail, htail⟩ := hbytes
        rw [htail, parse_removeAll tail hbits, List.cons_eq_cons] at heq
        exact (congrArg OrfPrefixEntry.action heq.1).symm
      · rw [← hbits]
        exact ((and_three_eq_iff _).2 htravels.1.action).symm
    · rw [parse_entry rest hbits hall, List.cons_eq_cons]
      refine and_congr_left fun _ => ⟨fun heq => ?_, fun htravels => ?_⟩
      · have haddr := congrArg (fun x => x.pfx.addr) heq
        exact ⟨(and_three_eq_iff _).1 (congrArg OrfPrefixEntry.action heq),
          (and_one_eq_iff _).1 (congrArg OrfPrefixEntry.matching heq), fun h => (hall h).elim,
          fun _ => (orfAddress_eq_iff hwritten hall hfam rest).1 haddr⟩
      · have haddr := (orfAddress_eq_iff hwritten hall hfam rest).2 (htravels.family hall)
        rw [haddr, (and_three_eq_iff _).2 htravels.action, (and_one_eq_iff _).2 htravels.matching]

theorem Travels.written (h : e.Travels afi) (hfam : e.InFamily afi) : e.Written := by
  intro hne
  have hiff := h.family hne
  unfold InFamily at hfam
  by_cases hafi : afi = BGP_AFI_IPV6
  · rw [if_pos hafi] at hfam
    have hv4 : e.pfx.isIPv4 = false := by
      simpa [hafi] using hiff
    rw [if_neg (by simp [hv4])]
    exact pfxBytes_le (UInt8.le_iff_toNat_le.1 hfam.1)
  · rw [if_neg hafi] at hfam
    rw [if_pos (hiff.2 hafi)]
    exact pfxBytes_le (UInt8.le_iff_toNat_le.1 hfam.1)

end OrfPrefixEntry

/-- **The entries** come back as they were sent, written within their addresses, iff each of
    them can travel. -/
theorem parseOrf_bytes_iff {afi : UInt16} {l : List OrfPrefixEntry}
    (hfam : ∀ e ∈ l, e.InFamily afi) :
    ((∀ e ∈ l, e.Written) ∧ parseOrfEntries afi (l.flatMap OrfPrefixEntry.bytes) = l) ↔
      ∀ e ∈ l, e.Travels afi := by
  constructor
  · rintro ⟨hwritten, hparse⟩
    induction l with
    | nil => simp
    | cons e l ih =>
      rw [List.forall_mem_cons] at hfam hwritten ⊢
      rw [List.flatMap_cons, OrfPrefixEntry.parse_bytes_iff hwritten.1 hfam.1] at hparse
      exact ⟨hparse.1, ih hfam.2 hwritten.2 hparse.2⟩
  · intro htravels
    refine ⟨fun e he => (htravels e he).written (hfam e he), ?_⟩
    induction l with
    | nil => rw [List.flatMap_nil, parseOrfEntries]
    | cons e l ih =>
      rw [List.forall_mem_cons] at hfam htravels
      rw [List.flatMap_cons, OrfPrefixEntry.parse_bytes_iff (htravels.1.written hfam.1) hfam.1]
      exact ⟨htravels.1, ih hfam.2 htravels.2⟩

/-! ## Messages -/

section
variable (F : CapabilityFns) (session : Session) (family : AfiSafi) (reason : RouteRefreshReason)

/-- What `processRouteRefresh` is given of the message: the bytes behind the header. -/
def routeRefreshPayload : List UInt8 :=
  (appended (buildRouteRefresh F session family reason)).drop headerSize

variable {F session family reason}

theorem orfPayload_toNat (l : List OrfPrefixEntry) :
    (orfPayload l).toNat = (l.flatMap OrfPrefixEntry.bytes).length % 2 ^ 16 := by
  have hone (e : OrfPrefixEntry) : (if e.action = BGP_ORF_ACTION_REMOVE_ALL then 1
      else UInt16.ofNat (8 + e.pfxBytes)).toNat = e.bytes.length % 2 ^ 16 := by
    unfold OrfPrefixEntry.bytes
    split_ifs
    · rfl
    all_goals
      rw [UInt16.toNat_ofNat']
      simp only [List.length_append, List.length_cons, List.length_nil, length_writeU32,
        OrfPrefixEntry.length_writeBytes]
  have hloop : ∀ (l : List OrfPrefixEntry) (n : UInt16), (l.foldl (fun n e =>
      n + if e.action = BGP_ORF_ACTION_REMOVE_ALL then 1 else UInt16.ofNat (8 + e.pfxBytes)) n).toNat =
        (n.toNat + (l.flatMap OrfPrefixEntry.bytes).length) % 2 ^ 16 := by
    intro l
    induction l with
    | nil =>
      intro n
      have hn := n.toNat_lt
      simp only [List.foldl_nil, List.flatMap_nil, List.length_nil, Nat.add_zero]
      omega
    | cons e l ih =>
      intro n
      rw [List.foldl_cons, ih, UInt16.toNat_add, hone, List.flatMap_cons, List.length_append]
      omega
  rw [orfPayload, hloop]
  exact congrArg (· % 2 ^ 16) (Nat.zero_add _)

theorem routeRefreshPayload_nil (F : CapabilityFns) (reason : RouteRefreshReason)
    (hnil : session.orfOutbound family = []) :
    ∃ subtype, routeRefreshPayload F session family reason =
      writeU16 family.afi ++ [subtype, family.safi] := by
  refine ⟨if !session.negotiated.enhancedRR && reason ≠ .Normal then RouteRefreshReason.Normal.code
    else reason.code, ?_⟩
  simp only [routeRefreshPayload, buildRouteRefresh, hnil, List.isEmpty_nil, Bool.not_true,
    Bool.false_and, Bool.false_eq_true, if_false]
  rfl

theorem routeRefreshPayload_orf (hne : session.orfOutbound family ≠ [])
    (hsend : F.canSendOrf session.negotiated family BGP_ORF_TYPE_PREFIX_LIST = true) :
    routeRefreshPayload F session family reason =
      writeU16 family.afi ++ [BGP_ORF_WHEN_IMMEDIATE, family.safi] ++
        (BGP_ORF_TYPE_PREFIX_LIST :: writeU16 (orfPayload (session.orfOutbound family)) ++
          (session.orfOutbound family).flatMap OrfPrefixEntry.bytes) := by
  have hspans := runFrom_spanActs ([buildHeader .ROUTE_REFRESH
      (4 + 3 + orfPayload (session.orfOutbound family)),
    writeU16 family.afi ++ [BGP_ORF_WHEN_IMMEDIATE, family.safi],
    BGP_ORF_TYPE_PREFIX_LIST :: writeU16 (orfPayload (session.orfOutbound family))] ++
      (session.orfOutbound family).map OrfPrefixEntry.bytes) []
  have hempty : (session.orfOutbound family).isEmpty = false := by simpa using hne
  simp only [routeRefreshPayload, appended, buildRouteRefresh, hempty, hsend, Bool.not_false,
    Bool.and_self, if_true]
  rw [show ([] : List (List UInt8)).length = 0 from rfl] at hspans
  rw [hspans]
  simp only [List.nil_append, List.cons_append, List.flatten_cons, List.append_assoc]
  exact List.drop_left' rfl

theorem processRouteRefresh_family {can : AfiSafi → UInt8 → Bool}
    (hreceive : can family BGP_ORF_TYPE_PREFIX_LIST = true) (subtype : UInt8) (orfs : List UInt8) :
    processRouteRefresh can (writeU16 family.afi ++ [subtype, family.safi] ++ orfs) =
      .ok ⟨family, parseOrf family.afi orfs, refreshFor subtype (parseOrf family.afi orfs)⟩ := by
  have hafi : readU16 (ofList (writeU16 family.afi)) = family.afi := readU16_holds (holds_ofList _)
  simp only [writeU16, List.cons_append, List.nil_append, processRouteRefresh]
  rw [← writeU16, hafi, hreceive, if_pos rfl]

theorem processRouteRefresh_payload {can : AfiSafi → UInt8 → Bool} (reason : RouteRefreshReason)
    (hsend : F.canSendOrf session.negotiated family BGP_ORF_TYPE_PREFIX_LIST = true)
    (hreceive : can family BGP_ORF_TYPE_PREFIX_LIST = true)
    (hsize : ((session.orfOutbound family).flatMap OrfPrefixEntry.bytes).length < 2 ^ 16) :
    ∃ refresh, processRouteRefresh can (routeRefreshPayload F session family reason) =
      .ok ⟨family, parseOrfEntries family.afi
        ((session.orfOutbound family).flatMap OrfPrefixEntry.bytes), refresh⟩ := by
  by_cases hnil : session.orfOutbound family = []
  · obtain ⟨subtype, hpayload⟩ := routeRefreshPayload_nil F reason hnil
    have hok := processRouteRefresh_family hreceive subtype []
    rw [List.append_nil, parseOrf.eq_def] at hok
    rw [hpayload, hnil, List.flatMap_nil, parseOrfEntries]
    exact ⟨_, hok⟩
  · have hlen : (readU16 (ofList (writeU16 (orfPayload (session.orfOutbound family))))).toNat =
        ((session.orfOutbound family).flatMap OrfPrefixEntry.bytes).length := by
      rw [readU16_holds (holds_ofList _), orfPayload_toNat, Nat.mod_eq_of_lt hsize]
    have hparse : parseOrf family.afi (BGP_ORF_TYPE_PREFIX_LIST ::
        writeU16 (orfPayload (session.orfOutbound family)) ++
          (session.orfOutbound family).flatMap OrfPrefixEntry.bytes) =
        parseOrfEntries family.afi ((session.orfOutbound family).flatMap OrfPrefixEntry.bytes) := by
      simp only [writeU16, List.cons_append, List.nil_append]
      rw [parseOrf, ← writeU16, hlen, if_neg (lt_irrefl _), if_pos rfl, List.take_length,
        List.drop_length, parseOrf.eq_def, List.append_nil]
    have hok := processRouteRefresh_family hreceive BGP_ORF_WHEN_IMMEDIATE
      (BGP_ORF_TYPE_PREFIX_LIST :: writeU16 (orfPayload (session.orfOutbound family)) ++
        (session.orfOutbound family).flatMap OrfPrefixEntry.bytes)
    rw [hparse] at hok
    rw [routeRefreshPayload_orf hnil hsend]
    exact ⟨_, hok⟩

variable (F) in
/-- **The message arrives**: it is written within the addresses, and decodes to the entries of
    the list, in order. -/
def Arrives (can : AfiSafi → UInt8 → Bool) (family : AfiSafi)
    (m : Session × RouteRefreshReason) : Prop :=
  (∀ e ∈ m.1.orfOutbound family, e.Written) ∧
    ∃ refresh, processRouteRefresh can (routeRefreshPayload F m.1 family m.2) =
      .ok ⟨family, m.1.orfOutbound family, refresh⟩

/-- The lists of the receiver after messages of the family, from the start of the session. -/
def orfReceived (F : CapabilityFns) (can : AfiSafi → UInt8 → Bool) (family : AfiSafi)
    (msgs : List (Session × RouteRefreshReason)) : AfiSafi → List OrfPrefixEntry :=
  runFrom (fun orfFilter m => receiveRouteRefresh can orfFilter (routeRefreshPayload F m.1 family m.2))
    (fun _ => []) msgs

/-- **Synchronised**: every message arrives, and the list is the replay of all that was sent. -/
structure Synchronised (F : CapabilityFns) (can : AfiSafi → UInt8 → Bool) (family : AfiSafi)
    (msgs : List (Session × RouteRefreshReason)) : Prop where
  arrive : ∀ m ∈ msgs, Arrives F can family m
  filter : Replays (orfReceived F can family msgs family)
    (replay (msgs.flatMap fun m => m.1.orfOutbound family))

theorem replays_receive {can : AfiSafi → UInt8 → Bool} {orfFilter : AfiSafi → List OrfPrefixEntry}
    {f : UInt32 → Option OrfPrefixEntry} (h : Replays (orfFilter family) f)
    {m : Session × RouteRefreshReason} (hm : Arrives F can family m) :
    Replays (receiveRouteRefresh can orfFilter (routeRefreshPayload F m.1 family m.2) family)
      ((m.1.orfOutbound family).foldl replayOne f) := by
  obtain ⟨refresh, hok⟩ := hm.2
  rw [receiveRouteRefresh, hok]
  dsimp only
  split_ifs with hempty
  · rw [List.isEmpty_iff.1 hempty]
    exact h
  · rw [Function.update_self]
    exact updateOrfFilter_replays h _

/-- The negotiated direction, and lists of the family that fit in one message. -/
structure Sendable (F : CapabilityFns) (family : AfiSafi) (m : Session × RouteRefreshReason) :
    Prop where
  send : F.canSendOrf m.1.negotiated family BGP_ORF_TYPE_PREFIX_LIST = true
  size : ((m.1.orfOutbound family).flatMap OrfPrefixEntry.bytes).length < 2 ^ 16
  family : ∀ e ∈ m.1.orfOutbound family, e.InFamily family.afi

theorem arrives_iff {can : AfiSafi → UInt8 → Bool}
    (hreceive : can family BGP_ORF_TYPE_PREFIX_LIST = true) {m : Session × RouteRefreshReason}
    (hm : Sendable F family m) :
    Arrives F can family m ↔ ∀ e ∈ m.1.orfOutbound family, e.Travels family.afi := by
  obtain ⟨refresh, hok⟩ :=
    processRouteRefresh_payload m.2 hm.send hreceive hm.size
  rw [← parseOrf_bytes_iff hm.family]
  refine and_congr_right fun _ => ?_
  rw [hok]
  simp

/-- **Prefix lists are synchronised**, over any number of messages, iff each entry sent can
    travel. -/
theorem synchronised_iff {can : AfiSafi → UInt8 → Bool}
    (hreceive : can family BGP_ORF_TYPE_PREFIX_LIST = true)
    {msgs : List (Session × RouteRefreshReason)} (hmsgs : ∀ m ∈ msgs, Sendable F family m) :
    Synchronised F can family msgs ↔
      ∀ m ∈ msgs, ∀ e ∈ m.1.orfOutbound family, e.Travels family.afi := by
  constructor
  · intro h m hm
    exact (arrives_iff hreceive (hmsgs m hm)).1 (h.arrive m hm)
  · intro htravels
    have harrive (m) (hm : m ∈ msgs) := (arrives_iff hreceive (hmsgs m hm)).2 (htravels m hm)
    refine ⟨harrive, ?_⟩
    -- from any lists that agree with a map, over the messages that are left
    have hrun : ∀ (msgs : List (Session × RouteRefreshReason)),
        (∀ m ∈ msgs, Arrives F can family m) →
        ∀ (orfFilter : AfiSafi → List OrfPrefixEntry) (f : UInt32 → Option OrfPrefixEntry),
          Replays (orfFilter family) f →
          Replays (runFrom (fun orfFilter m =>
              receiveRouteRefresh can orfFilter (routeRefreshPayload F m.1 family m.2))
            orfFilter msgs family)
            ((msgs.flatMap fun m => m.1.orfOutbound family).foldl replayOne f) := by
      intro msgs
      induction msgs with
      | nil => exact fun _ _ _ h => h
      | cons m msgs ih =>
        intro hall orfFilter f h
        rw [List.forall_mem_cons] at hall
        rw [runFrom_cons, List.flatMap_cons, List.foldl_append]
        exact ih hall.2 _ _ (replays_receive h hall.1)
    exact hrun msgs harrive _ _ replays_nil

end

/-! ### Fixed lists -/

def orfNegotiated : CapabilityFns where
  supportsFamily _ _ := true
  canSendOrf _ _ _ := true

/-- A session that sends one entry: permit the prefix, from /16 to /24. -/
def sampleOrfSession (pfx : IPPrefix) : Session :=
  { orfOutbound := fun _ => [⟨0, 0, 5, 16, 24, pfx⟩] }

/-- 10.0.0.0/8 in the IPv4 list. -/
theorem synchronised_iff_ipv4 :
    Synchronised orfNegotiated (fun _ _ => true) ⟨1, 1⟩
      [(sampleOrfSession ⟨(IPAddress.ofV4 0x0A000000).raw, 8⟩, .Normal)] := by
  refine (synchronised_iff rfl fun m hm => ?_).2 fun m hm e he => ?_
  · rw [List.mem_singleton.1 hm]
    refine ⟨rfl, by decide, fun e he => ?_⟩
    rw [List.mem_singleton.1 he]
    unfold OrfPrefixEntry.InFamily
    decide
  · rw [List.mem_singleton.1 hm] at he
    rw [List.mem_singleton.1 he]
    exact ⟨by decide, by decide, fun h => absurd h (by decide), fun _ => by decide⟩

/-- ::ffff:10.0.0.0/104 in the IPv6 list: `writeBytes` is asked for 13 of 4 bytes. -/
theorem not_synchronised : ¬ ∀ (family : AfiSafi) (m : Session × RouteRefreshReason),
    Sendable orfNegotiated family m → Synchronised orfNegotiated (fun _ _ => true) family [m] := by
  intro h
  have hsendable : Sendable orfNegotiated ⟨2, 1⟩
      (sampleOrfSession ⟨(IPAddress.ofV4 0x0A000000).raw, 104⟩, .Normal) := by
    refine ⟨rfl, by decide, fun e he => ?_⟩
    rw [List.mem_singleton.1 he]
    unfold OrfPrefixEntry.InFamily
    decide
  have harrive := (h _ _ hsendable).arrive _ (List.mem_singleton_self _)
  have hbytes := harrive.1 _ (List.mem_singleton_self _)
  exact absurd (hbytes (by decide)) (by decide)

end VirtualRouter.Bgp
