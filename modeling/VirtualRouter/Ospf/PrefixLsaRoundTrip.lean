/-
  The OSPFv3 LSAs that carry prefixes, written and read back.

  A prefix that is read has the length 0, and only the external LSA sets the length
  afterwards.  A link LSA counts its fixed fields as one byte too few, and an external
  LSA adds its flags to what is in the first byte of the buffer.

  * `PrefixLsa.RoundTrips`: `buildBody` fills a buffer of `size` bytes as it fills one of
    zeros, and `build` reads the LSA back;
  * `PrefixLsa.Returns`: the LSAs and buffers for which this is so;
  * `PrefixLsa.prefixCodec_iff`: so it is, and a parser stays in its buffer where it `Reads`.
-/
import VirtualRouter.Ospf.PrefixLsaReads

namespace VirtualRouter.Ospf

open Bytes Utils VirtualRouter.Types PrefixMap

/-! ## What a round trip is -/

/-- At most 128 bits, and no host bits. -/
structure WellFormed (p : IPv6Prefix) : Prop where
  length : p.prefixLength.toNat ≤ 128
  host : mask p.addr p.prefixLength.toNat = p.addr

def ExternalLsaV3.flags (lsa : ExternalLsaV3) : UInt8 :=
  (if lsa.isType2 then 0x04 else 0) ||| (if lsa.forwardingAddress.isSome then 0x02 else 0) |||
    (if lsa.routeTag.isSome then 0x01 else 0)

namespace PrefixLsa

/-- The values that the fields on the wire have room for. -/
def InRange : PrefixLsa → Prop
  | .intraAreaPrefix lsa =>
    lsa.prefixes.length < 65536 ∧
      12 + (lsa.prefixes.map fun p => 4 + prefixBytes p.pfx.prefixLength).sum < 65536 ∧
      ∀ p ∈ lsa.prefixes, WellFormed p.pfx
  | .link lsa =>
    lsa.prefixes.length < 256 ∧
      21 + (lsa.prefixes.map fun p => 2 + prefixBytes p.pfx.prefixLength).sum < 65536 ∧
      lsa.options < 0x01000000 ∧ ∀ p ∈ lsa.prefixes, WellFormed p.pfx
  | .interAreaPrefix lsa => lsa.metric < 0x01000000 ∧ WellFormed lsa.pfx
  | .external lsa =>
    lsa.metric < 0x01000000 ∧ WellFormed lsa.pfx ∧
      (lsa.referencedLsId.isSome ↔ lsa.referencedLsType ≠ 0)

/-- `buildBody` fills the buffer as it fills one of zeros, and `build` reads the LSA back. -/
def RoundTrips (lsa : PrefixLsa) (buf : List UInt8) : Prop :=
  ∃ bytes : List UInt8, bytes.length = lsa.size.toNat ∧
    lsa.buildBody (List.replicate lsa.size.toNat 0) lsa.size = .ok bytes ∧
    lsa.buildBody buf lsa.size = .ok bytes ∧ build lsa.type bytes lsa.size = .ok lsa

/-- Prefixes of length 0; no link LSA; an external LSA whose prefix is of at most two bytes with
    eight times its bytes behind it, in a buffer with none but its flags in the first byte. -/
def Returns (buf : List UInt8) : PrefixLsa → Prop
  | .intraAreaPrefix lsa => ∀ p ∈ lsa.prefixes, p.pfx.prefixLength = 0
  | .link _ => False
  | .interAreaPrefix lsa => lsa.pfx.prefixLength = 0
  | .external lsa =>
    ofList buf 0 ||| lsa.flags = lsa.flags ∧ prefixBytes lsa.pfx.prefixLength ≤ 2 ∧
      8 + 8 * prefixBytes lsa.pfx.prefixLength ≤ lsa.size.toNat

end PrefixLsa

theorem map_ok_iff {ε α β : Type} {x : Except ε α} {f : α → β} {a : α} (hf : Function.Injective f) :
    x.map f = .ok (f a) ↔ x = .ok a := by
  cases x with
  | error e => simp [Except.map]
  | ok b => simp [Except.map, hf.eq_iff]

/-! ## Writing in order -/

variable {buf w bytes : List UInt8} {off n : ℕ} {len : UInt16} {b : UInt8}

theorem storeBuf_next (hoff : off = w.length) (h : w.length + bytes.length ≤ buf.length) :
    storeBuf (written w buf) off bytes = .ok (written (w ++ bytes) buf) := writeAt_next hoff h

theorem storeBuf_zero (h : bytes.length ≤ buf.length) :
    storeBuf buf 0 bytes = .ok (written bytes buf) := writeAt_zero h

theorem written_full (h : buf.length = w.length) : written w buf = w := by
  rw [written, ← h, List.drop_length, List.append_nil]

@[simp] theorem length_writeHigh {w : ℕ} (val : BitVec w) (n : ℕ) : (writeHigh val n).length = n := by
  simp [writeHigh]

@[simp] theorem length_writeU128 (val : BitVec 128) : (writeU128 val).length = 16 :=
  length_writeHigh val 16

@[simp] theorem writeHigh_zero {w : ℕ} (val : BitVec w) : writeHigh val 0 = [] := rfl

theorem prefixBytes_zero : prefixBytes 0 = 0 := rfl

theorem WellFormed.eq_zero {p : IPv6Prefix} (h : WellFormed p) (h0 : p.prefixLength = 0) :
    p = ⟨0, 0⟩ := by
  have hhost := h.host
  rw [h0] at hhost
  have hzero : mask p.addr 0 = (0 : BitVec 128) := by
    refine Address.ext_bits _ _ fun i => ?_
    simp [bit_bitVec]
  cases p
  simp only at h0 hhost hzero
  rw [h0, ← hhost]
  exact congrArg (IPv6Prefix.mk · 0) hzero

theorem readPrefix_zero {l : List UInt8} {i : ℕ} (h : i ≤ l.length) :
    readPrefix l i 0 = .ok ⟨0, 0⟩ := by
  have hr : IPv6Prefix.fromBytes ((ofList l).add i) 0 false = ⟨0, some ⟨0, 0⟩⟩ := rfl
  rw [readPrefix, hr]
  exact if_pos h

theorem toNat_foldl_add {α : Type} (f : α → ℕ) (ps : List α) (a : UInt16) :
    (ps.foldl (fun len p => len + UInt16.ofNat (f p)) a).toNat =
      (a.toNat + (ps.map f).sum) % 65536 := by
  induction ps generalizing a with
  | nil => exact (Nat.mod_eq_of_lt a.toNat_lt).symm
  | cons p ps ih =>
    rw [List.foldl_cons, ih, UInt16.toNat_add, UInt16.toNat_ofNat', List.map_cons, List.sum_cons]
    omega

theorem sum_prefixBytes {α : Type} {head : ℕ} {plen : α → UInt8} {ps : List α}
    (hzero : ∀ p ∈ ps, plen p = 0) :
    (ps.map fun p => head + prefixBytes (plen p)).sum = head * ps.length := by
  induction ps with
  | nil => rfl
  | cons p ps ih =>
    obtain ⟨hp, hps⟩ := List.forall_mem_cons.1 hzero
    rw [List.map_cons, List.sum_cons, ih hps, hp, prefixBytes_zero, List.length_cons, Nat.mul_succ]
    omega

/-! ## Intra-area prefixes -/

namespace IntraAreaPrefixLsa

/-- The bytes of prefixes of length 0. -/
def entries (ps : List IntraAreaPrefix) : List UInt8 :=
  ps.flatMap fun p => [0, p.options] ++ writeU16 p.metric

@[simp] theorem length_entries (ps : List IntraAreaPrefix) : (entries ps).length = 4 * ps.length := by
  simp [entries, Nat.mul_comm]

theorem entries_cons (p : IntraAreaPrefix) (ps : List IntraAreaPrefix) :
    entries (p :: ps) = [0, p.options] ++ writeU16 p.metric ++ entries ps := List.flatMap_cons

theorem storePrefixes_next {ps : List IntraAreaPrefix} (hzero : ∀ p ∈ ps, p.pfx = ⟨0, 0⟩)
    (hoff : off = w.length) (hlen : off + 4 * ps.length ≤ len.toNat)
    (hbuf : off + 4 * ps.length ≤ buf.length) :
    storePrefixes len ps off (written w buf) = .ok (written (w ++ entries ps) buf) := by
  induction ps generalizing off w with
  | nil => simp [storePrefixes, entries]
  | cons p ps ih =>
    obtain ⟨hp, hps⟩ := List.forall_mem_cons.1 hzero
    rw [List.length_cons] at hlen hbuf
    have hbytes : prefixBytes p.pfx.prefixLength = 0 := by rw [hp, prefixBytes_zero]
    rw [storePrefixes, if_neg (by omega), storeBuf_next hoff (by simp; omega), ok_bind,
      storeBuf_next (by simp [hoff]) (by simp; omega), ok_bind,
      storeBuf_next (by simp [hoff]) (by simp; omega), ok_bind]
    simp only
    rw [if_neg (by omega), hbytes, storeBuf_next (by simp [hoff]) (by simp; omega), ok_bind,
      ih hps (by simp [hoff]) (by omega) (by omega), entries_cons, hp]
    simp [List.append_assoc]

/-- The bytes of an LSA with prefixes of length 0. -/
def wire (lsa : IntraAreaPrefixLsa) : List UInt8 :=
  writeU16 (UInt16.ofNat lsa.prefixes.length) ++ writeU16 lsa.referencedLsaType ++
    writeU32 lsa.referencedLinkStateId ++ writeU32 lsa.referencedAdvRouter ++ entries lsa.prefixes

theorem length_wire (lsa : IntraAreaPrefixLsa) : lsa.wire.length = 12 + 4 * lsa.prefixes.length := by
  simp only [wire, List.length_append, length_writeU16, length_writeU32, length_entries]

theorem buildBody_wire {lsa : IntraAreaPrefixLsa} (hzero : ∀ p ∈ lsa.prefixes, p.pfx = ⟨0, 0⟩)
    (hlen : len.toNat = 12 + 4 * lsa.prefixes.length) (hbuf : buf.length = len.toNat) :
    lsa.buildBody buf len = .ok lsa.wire := by
  rw [buildBody, if_neg (by omega), storeBuf_zero (by simp; omega), ok_bind,
    storeBuf_next (by rfl) (by simp; omega), ok_bind,
    storeBuf_next (by rfl) (by simp; omega), ok_bind,
    storeBuf_next (by rfl) (by simp; omega), ok_bind,
    storePrefixes_next hzero (by rfl) (by omega) (by omega), ← wire,
    written_full (by rw [length_wire, hbuf, hlen])]

theorem buildPrefixes_entries {l rest : List UInt8} {ps : List IntraAreaPrefix}
    (hzero : ∀ p ∈ ps, p.pfx = ⟨0, 0⟩) (h : l.drop off = entries ps ++ rest)
    (hlen : off + 4 * ps.length ≤ len.toNat) (hl : off + 4 * ps.length ≤ l.length) :
    buildPrefixes l len ps.length off = .ok ps := by
  induction ps generalizing off with
  | nil => rfl
  | cons p ps ih =>
    obtain ⟨hp, hps⟩ := List.forall_mem_cons.1 hzero
    rw [List.length_cons] at hlen hl ⊢
    have hplen : readBuf l off 1 (· 0) = .ok 0 := readAt_byte h
    have hoptions : l.drop (off + 1) = p.options :: (writeU16 p.metric ++ (entries ps ++ rest)) := by
      rw [← List.drop_drop, h]
      rfl
    have hmetric : l.drop (off + 2) = writeU16 p.metric ++ (entries ps ++ rest) := by
      rw [← List.drop_drop, h]
      rfl
    have hopt : readBuf l (off + 1) 1 (· 0) = .ok p.options := readAt_byte hoptions
    have hmet : readBuf l (off + 2) 2 readU16 = .ok p.metric := readAt_u16 hmetric
    have hrest : buildPrefixes l len ps.length (off + 4) = .ok ps :=
      ih hps (drop_of_drop hmetric) (by omega) (by omega)
    rw [buildPrefixes, if_neg (by omega), hplen, ok_bind, hopt, ok_bind, hmet, ok_bind,
      prefixBytes_zero, if_neg (by omega), readPrefix_zero (by omega), ok_bind, Nat.add_zero, hrest,
      ok_bind, ← hp]
    rfl

theorem build_wire {lsa : IntraAreaPrefixLsa} (hzero : ∀ p ∈ lsa.prefixes, p.pfx = ⟨0, 0⟩)
    (hcount : lsa.prefixes.length < 65536) (hlen : len.toNat = 12 + 4 * lsa.prefixes.length) :
    build lsa.wire len = .ok lsa := by
  have hwire := length_wire lsa
  have hnum : readBuf lsa.wire 0 2 readU16 = .ok (UInt16.ofNat lsa.prefixes.length) :=
    readAt_u16 (show lsa.wire = _ ++ lsa.wire.drop 2 from rfl)
  have htype : readBuf lsa.wire 2 2 readU16 = .ok lsa.referencedLsaType :=
    readAt_u16 (show lsa.wire.drop 2 = _ ++ lsa.wire.drop 4 from rfl)
  have hid : readBuf lsa.wire 4 4 readU32 = .ok lsa.referencedLinkStateId :=
    readAt_u32 (show lsa.wire.drop 4 = _ ++ lsa.wire.drop 8 from rfl)
  have hrouter : readBuf lsa.wire 8 4 readU32 = .ok lsa.referencedAdvRouter :=
    readAt_u32 (show lsa.wire.drop 8 = _ ++ lsa.wire.drop 12 from rfl)
  have hprefixes : buildPrefixes lsa.wire len lsa.prefixes.length 12 = .ok lsa.prefixes :=
    buildPrefixes_entries hzero (show lsa.wire.drop 12 = _ ++ [] from (List.append_nil _).symm)
      (by omega) (by omega)
  have hnat : (UInt16.ofNat lsa.prefixes.length).toNat = lsa.prefixes.length := by
    rw [UInt16.toNat_ofNat']
    exact Nat.mod_eq_of_lt hcount
  rw [build, if_neg (by omega), hnum, ok_bind, htype, ok_bind, hid, ok_bind, hrouter, ok_bind, hnat,
    hprefixes]
  rfl

theorem toNat_size {lsa : IntraAreaPrefixLsa} (hzero : ∀ p ∈ lsa.prefixes, p.pfx.prefixLength = 0)
    (h : 12 + 4 * lsa.prefixes.length < 65536) :
    lsa.size.toNat = 12 + 4 * lsa.prefixes.length := by
  rw [size, toNat_foldl_add (fun p : IntraAreaPrefix => 4 + prefixBytes p.pfx.prefixLength),
    sum_prefixBytes hzero]
  exact Nat.mod_eq_of_lt h

theorem build_length {l : List UInt8} {lsa : IntraAreaPrefixLsa} (hlen : len.toNat = l.length)
    (h : build l len = .ok lsa) : ∀ p ∈ lsa.prefixes, p.pfx.prefixLength = 0 := by
  rw [build] at h
  split_ifs at h with hshort
  obtain ⟨n, -, h⟩ := bind_eq_ok.1 h
  obtain ⟨type, -, h⟩ := bind_eq_ok.1 h
  obtain ⟨id, -, h⟩ := bind_eq_ok.1 h
  obtain ⟨router, -, h⟩ := bind_eq_ok.1 h
  obtain ⟨ps, hps, h⟩ := bind_eq_ok.1 h
  obtain rfl := Except.ok.inj h
  intro p hp
  obtain ⟨j, pfx, rfl, hpfx⟩ := loop_length (fun _ => rfl) (buildPrefixes_succ hlen) hps p hp
  exact hpfx

theorem roundTrips_iff {lsa : IntraAreaPrefixLsa}
    (hrange : PrefixLsa.InRange (.intraAreaPrefix lsa)) (hbuf : buf.length = lsa.size.toNat) :
    PrefixLsa.RoundTrips (.intraAreaPrefix lsa) buf ↔
      PrefixLsa.Returns buf (.intraAreaPrefix lsa) := by
  obtain ⟨hcount, hsum, hpfx⟩ := hrange
  constructor
  · rintro ⟨bytes, hlen, -, -, hbuild⟩
    exact build_length hlen.symm ((map_ok_iff fun _ _ => PrefixLsa.intraAreaPrefix.inj).1 hbuild)
  · intro hzero
    have hzero' : ∀ p ∈ lsa.prefixes, p.pfx = ⟨0, 0⟩ := fun p hp => (hpfx p hp).eq_zero (hzero p hp)
    rw [sum_prefixBytes hzero] at hsum
    have hsize := toNat_size hzero hsum
    refine ⟨lsa.wire, by rw [length_wire]; exact hsize.symm, ?_, ?_, ?_⟩
    · exact buildBody_wire hzero' hsize List.length_replicate
    · exact buildBody_wire hzero' hsize hbuf
    · exact congrArg (Except.map _) (build_wire hzero' hcount hsize)

end IntraAreaPrefixLsa

/-! ## Links -/

namespace LinkLsa

theorem build_length {l : List UInt8} {lsa : LinkLsa} (hlen : len.toNat = l.length)
    (h : build l len = .ok lsa) : ∀ p ∈ lsa.prefixes, p.pfx.prefixLength = 0 := by
  rw [build] at h
  split_ifs at h with hshort
  obtain ⟨priority, -, h⟩ := bind_eq_ok.1 h
  obtain ⟨options, -, h⟩ := bind_eq_ok.1 h
  obtain ⟨localLink, -, h⟩ := bind_eq_ok.1 h
  obtain ⟨n, -, h⟩ := bind_eq_ok.1 h
  obtain ⟨ps, hps, h⟩ := bind_eq_ok.1 h
  obtain rfl := Except.ok.inj h
  intro p hp
  obtain ⟨j, pfx, rfl, hpfx⟩ := loop_length (fun _ => rfl) (buildPrefixes_succ hlen) hps p hp
  exact hpfx

theorem toNat_size {lsa : LinkLsa} (hzero : ∀ p ∈ lsa.prefixes, p.pfx.prefixLength = 0)
    (h : 20 + 2 * lsa.prefixes.length < 65536) :
    lsa.size.toNat = 20 + 2 * lsa.prefixes.length := by
  rw [size, toNat_foldl_add (fun p : LinkLsaPrefix => 2 + prefixBytes p.pfx.prefixLength),
    sum_prefixBytes hzero]
  exact Nat.mod_eq_of_lt h

theorem le_of_storePrefixes {ps : List LinkLsaPrefix} {out : List UInt8}
    (h : storePrefixes len ps off buf = .ok out) (hne : ps ≠ []) :
    off + 2 * ps.length ≤ len.toNat := by
  induction ps generalizing off buf with
  | nil => exact absurd rfl hne
  | cons p ps ih =>
    rw [storePrefixes] at h
    split_ifs at h with hhead
    obtain ⟨buf₁, -, h⟩ := bind_eq_ok.1 h
    obtain ⟨buf₂, -, h⟩ := bind_eq_ok.1 h
    simp only at h
    split_ifs at h with hbytes
    obtain ⟨buf₃, -, h⟩ := bind_eq_ok.1 h
    rw [List.length_cons]
    cases ps with
    | nil =>
      rw [List.length_nil]
      omega
    | cons q qs =>
      have hrest := ih h (List.cons_ne_nil q qs)
      omega

theorem buildBody_ne {lsa : LinkLsa} (hlen : len.toNat = 20 + 2 * lsa.prefixes.length)
    (hbuf : buf.length = len.toNat) (out : List UInt8) : lsa.buildBody buf len ≠ .ok out := by
  intro h
  rw [buildBody, if_neg (by omega), storeBuf_zero (by simp; omega), ok_bind,
    storeBuf_next (by rfl) (by simp; omega), ok_bind,
    storeBuf_next (by rfl) (by simp; omega), ok_bind] at h
  obtain ⟨buf₁, hcount, h⟩ := bind_eq_ok.1 h
  by_cases hnil : lsa.prefixes = []
  · -- the number of prefixes is stored behind the buffer
    rw [hnil] at hlen hcount
    have hwritten : (written ([lsa.priority] ++ writeU24 lsa.options ++ writeU128 lsa.localLink)
        buf).length = 20 := by
      rw [length_written (by simp; omega), hbuf, hlen]
      rfl
    rw [storeBuf, writeAt, if_neg (by rw [hwritten, List.length_singleton]; omega)] at hcount
    cases hcount
  · have hle := le_of_storePrefixes h hnil
    omega

theorem not_roundTrips {lsa : LinkLsa} (hrange : PrefixLsa.InRange (.link lsa)) :
    ¬ PrefixLsa.RoundTrips (.link lsa) buf := by
  rintro ⟨bytes, hlen, hbody, -, hbuild⟩
  have hzero := build_length hlen.symm ((map_ok_iff fun _ _ => PrefixLsa.link.inj).1 hbuild)
  have hsum := hrange.2.1
  rw [sum_prefixBytes hzero] at hsum
  exact buildBody_ne (toNat_size hzero (by omega)) List.length_replicate bytes hbody

end LinkLsa

/-! ## Inter-area prefixes -/

theorem and_u24 {metric : UInt32} (h : metric < 0x01000000) : metric &&& 0xFFFFFF = metric := by
  have hlt : metric.toNat < 2 ^ 24 := UInt32.lt_iff_toNat_lt.1 h
  refine UInt32.toNat_inj.1 ?_
  rw [UInt32.toNat_and]
  exact (Nat.and_two_pow_sub_one_eq_mod metric.toNat 24).trans (Nat.mod_eq_of_lt hlt)

namespace InterAreaPrefixLsa

theorem build_length {l : List UInt8} {lsa : InterAreaPrefixLsa} (h : build l len = .ok lsa) :
    lsa.pfx.prefixLength = 0 := by
  rw [build] at h
  split_ifs at h with hshort
  obtain ⟨zero, -, h⟩ := bind_eq_ok.1 h
  split_ifs at h with hz
  obtain ⟨metric, -, h⟩ := bind_eq_ok.1 h
  obtain ⟨plen, -, h⟩ := bind_eq_ok.1 h
  obtain ⟨options, -, h⟩ := bind_eq_ok.1 h
  obtain ⟨reserved, -, h⟩ := bind_eq_ok.1 h
  split_ifs at h with hreserved hwords hbytes
  obtain ⟨pfx, hpfx, h⟩ := bind_eq_ok.1 h
  obtain ⟨trailing, -, h⟩ := bind_eq_ok.1 h
  split_ifs at h with htrailing
  obtain rfl := Except.ok.inj h
  exact (readPrefix_length hpfx).2

/-- The bytes of an LSA with a prefix of length 0. -/
def wire (lsa : InterAreaPrefixLsa) : List UInt8 :=
  [0] ++ writeU24 lsa.metric ++ [0] ++ [lsa.options] ++ [0] ++ [0]

theorem buildBody_wire {lsa : InterAreaPrefixLsa} (hzero : lsa.pfx.prefixLength = 0)
    (hbuf : buf.length = 8) : lsa.buildBody buf 8 = .ok lsa.wire := by
  have hwords : wordBytes 0 = 0 := rfl
  rw [buildBody, hzero, hwords, if_neg (by decide), storeBuf_zero (by simp; omega), ok_bind,
    storeBuf_next (by rfl) (by simp; omega), ok_bind,
    storeBuf_next (by rfl) (by simp; omega), ok_bind,
    storeBuf_next (by rfl) (by simp; omega), ok_bind,
    storeBuf_next (by rfl) (by simp; omega), ok_bind,
    storeBuf_next (by rfl) (by simp; omega), ok_bind]
  simp only
  rw [if_neg (by decide), storeBuf_next (by rfl) (by simp; omega), writeHigh_zero, List.append_nil,
    ← wire, written_full hbuf]

theorem build_wire {lsa : InterAreaPrefixLsa} (hpfx : lsa.pfx = ⟨0, 0⟩)
    (hmetric : lsa.metric < 0x01000000) : build lsa.wire 8 = .ok lsa := by
  have hwords : wordBytes 0 = 0 := rfl
  have hzero : readBuf lsa.wire 0 1 (· 0) = .ok 0 := readAt_byte rfl
  have hmet : readBuf lsa.wire 1 3 readU24 = .ok (lsa.metric &&& 0xFFFFFF) :=
    readAt_u24 (show lsa.wire.drop 1 = _ ++ lsa.wire.drop 4 from rfl)
  have hplen : readBuf lsa.wire 4 1 (· 0) = .ok 0 := readAt_byte rfl
  have hoptions : readBuf lsa.wire 5 1 (· 0) = .ok lsa.options := readAt_byte rfl
  have hreserved : readBuf lsa.wire 6 2 readU16 = .ok 0 := 
    readAt_u16 (show lsa.wire.drop 6 = _ ++ [] from rfl)
  rw [build, if_neg (by decide), hzero, ok_bind, if_neg (not_not_intro rfl), hmet, ok_bind, hplen,
    ok_bind, hoptions, ok_bind, hreserved, ok_bind, if_neg (not_not_intro rfl), hwords,
    if_neg (by decide), if_neg (by decide), readPrefix_zero (l := lsa.wire) (i := 8) (Nat.le_refl 8), ok_bind,
    and_u24 hmetric,
    ← hpfx]
  rfl

theorem roundTrips_iff {lsa : InterAreaPrefixLsa}
    (hrange : PrefixLsa.InRange (.interAreaPrefix lsa)) (hbuf : buf.length = lsa.size.toNat) :
    PrefixLsa.RoundTrips (.interAreaPrefix lsa) buf ↔
      PrefixLsa.Returns buf (.interAreaPrefix lsa) := by
  obtain ⟨hmetric, hpfx⟩ := hrange
  constructor
  · rintro ⟨bytes, -, -, -, hbuild⟩
    exact build_length ((map_ok_iff fun _ _ => PrefixLsa.interAreaPrefix.inj).1 hbuild)
  · intro hzero
    have hzero' : lsa.pfx.prefixLength = 0 := hzero
    have hsize : lsa.size = 8 := by
      rw [size, hzero']
      rfl
    have hbuf8 : buf.length = 8 := by
      rw [hbuf, hsize]
      rfl
    refine ⟨lsa.wire, ?_, ?_, ?_, ?_⟩
    · exact (congrArg UInt16.toNat hsize).symm
    · show lsa.buildBody (List.replicate lsa.size.toNat 0) lsa.size = _
      rw [hsize]
      exact buildBody_wire hzero' rfl
    · show lsa.buildBody buf lsa.size = _
      rw [hsize]
      exact buildBody_wire hzero' hbuf8
    · show (build lsa.wire lsa.size).map PrefixLsa.interAreaPrefix = _
      rw [hsize, build_wire (hpfx.eq_zero hzero') hmetric]
      rfl

end InterAreaPrefixLsa

/-! ## External LSAs -/

section
variable {p : BytePtr}

theorem byteBit_holds {addr : BitVec 128} (hn : n ≤ 16) (h : Holds p (writeHigh addr n)) {j : ℕ}
    (hj : j < 8 * n) : byteBit p j = addr.getMsbD j := by
  have hbyte : p (j / 8) = UInt8.ofBitVec ((addr >>> (128 - 8 * (j / 8 + 1))).setWidth 8) := by
    rw [h _ (by rw [length_writeHigh]; omega), List.getD_eq_getElem _ _ (by rw [length_writeHigh]; omega)]
    simp [writeHigh]
  have hplace : j % 8 + 128 - 8 - (128 - 8 * (j / 8 + 1)) = j := by omega
  have hbehind : ¬ j % 8 + 128 - 8 < 128 - 8 * (j / 8 + 1) := by omega
  have hin : j % 8 + 128 - 8 < 128 := by omega
  rw [byteBit, hbyte, UInt8.toBitVec_ofBitVec, BitVec.getMsbD_setWidth, BitVec.getMsbD_ushiftRight,
    hplace, decide_eq_true hin, decide_eq_false hbehind]
  simp

theorem bigEndian_writeHigh (val : BitVec 128) (hn : n ≤ 16) :
    bigEndian (writeHigh val n) = val.toNat / 2 ^ (128 - 8 * n) := by
  induction n with
  | zero => exact (Nat.div_eq_of_lt val.isLt).symm
  | succ n ih =>
    have hsplit : writeHigh val (n + 1) =
        writeHigh val n ++ [UInt8.ofBitVec ((val >>> (128 - 8 * (n + 1))).setWidth 8)] := by
      rw [writeHigh, List.range_succ, List.map_append, ← writeHigh]
      rfl
    have hbyte : (UInt8.ofBitVec ((val >>> (128 - 8 * (n + 1))).setWidth 8)).toNat =
        val.toNat / 2 ^ (128 - 8 * (n + 1)) % 256 := by
      rw [UInt8.toNat_ofBitVec, BitVec.toNat_setWidth, BitVec.toNat_ushiftRight,
        Nat.shiftRight_eq_div_pow]
    have hpow : 2 ^ (128 - 8 * n) = 2 ^ (128 - 8 * (n + 1)) * 256 := by
      rw [show 128 - 8 * n = 128 - 8 * (n + 1) + 8 by omega, Nat.pow_add]
    rw [hsplit, bigEndian, List.foldl_append, ← bigEndian, ih (by omega), hpow,
      ← Nat.div_div_eq_div_mul]
    simp only [List.foldl_cons, List.foldl_nil, hbyte]
    omega

theorem readU128_holds {val : BitVec 128} (h : Holds p (writeU128 val)) : readU128 p = val := by
  have htake : p.take 16 = writeHigh val 16 := by
    have heq := h.take_eq
    rwa [length_writeU128] at heq
  rw [readU128, htake, bigEndian_writeHigh val (Nat.le_refl 16), Nat.pow_zero, Nat.div_one]
  rw [BitVec.ofNat_toNat, BitVec.setWidth_eq]

end

namespace ExternalLsaV3

def bytesOf {α : Type} (field : Option α) (enc : α → List UInt8) : List UInt8 :=
  (field.map enc).getD []

def fields (lsa : ExternalLsaV3) : List UInt8 :=
  writeU24 lsa.metric ++ [lsa.pfx.prefixLength] ++ [lsa.options] ++ writeU16 lsa.referencedLsType ++
    writeHigh lsa.pfx.addr (prefixBytes lsa.pfx.prefixLength) ++
    bytesOf lsa.forwardingAddress writeU128 ++ bytesOf lsa.routeTag writeU32 ++
    bytesOf lsa.referencedLsId writeU32

theorem toNat_size (lsa : ExternalLsaV3) : lsa.size.toNat = 1 + lsa.fields.length := by
  have hbytes : prefixBytes lsa.pfx.prefixLength ≤ 32 := by
    have hlt := lsa.pfx.prefixLength.toNat_lt
    rw [prefixBytes]
    omega
  rw [size, UInt16.toNat_ofNat']
  simp only [fields, bytesOf, List.length_append, length_writeU24, length_writeU16, length_writeHigh,
    List.length_singleton]
  cases lsa.forwardingAddress <;> cases lsa.routeTag <;> cases lsa.referencedLsId <;>
    simp <;> omega

/-! ### Writing -/

theorem orFirst_written {flag : UInt8} (h : w.length + 1 ≤ buf.length) :
    orFirst (written (b :: w) buf) flag = .ok (written ((b ||| flag) :: w) buf) := by
  have hread : readBuf (written (b :: w) buf) 0 1 (· 0) = .ok b := readAt_byte rfl
  have hinside : writeAt PrefixStop.oob (written (b :: w) buf) 0 [b ||| flag] =
      .ok (written ([] ++ [b ||| flag] ++ w) buf) :=
    writeAt_inside (u := []) (v := [b]) rfl rfl rfl h
  rw [orFirst, hread, ok_bind]
  exact hinside

theorem storeOptional_next {α : Type} {field : Option α} {enc : α → List UInt8} {flag : UInt8}
    (hoff : off = w.length + 1) (hlen : off + (bytesOf field enc).length ≤ len.toNat)
    (hbuf : off + (bytesOf field enc).length ≤ buf.length) :
    storeOptional len (field.map enc) flag (written (b :: w) buf) off =
      .ok (written ((b ||| if field.isSome then flag else 0) :: (w ++ bytesOf field enc)) buf,
        off + (bytesOf field enc).length) := by
  cases field with
  | none => simp [storeOptional, bytesOf]
  | some v =>
    have hbytes : bytesOf (some v) enc = enc v := rfl
    rw [hbytes] at hlen hbuf ⊢
    rw [Option.map_some, storeOptional, orFirst_written (by omega), ok_bind, if_neg (by omega),
      storeBuf_next (by rw [hoff, List.length_cons]) (by rw [List.length_cons]; omega), ok_bind]
    rfl

theorem storeType2_written (isType2 : Bool) (h : 1 ≤ buf.length) :
    (if isType2 then orFirst (written [b] buf) 0x04 else .ok (written [b] buf)) =
      .ok (written [b ||| if isType2 then 0x04 else 0] buf) := by
  cases isType2 with
  | false => simp
  | true => exact orFirst_written (w := []) h

theorem buildBody_written {lsa : ExternalLsaV3}
    (hid : lsa.referencedLsId.isSome ↔ lsa.referencedLsType ≠ 0)
    (hlen : len.toNat = 1 + lsa.fields.length) (hbuf : buf.length = len.toNat) :
    lsa.buildBody (written [b] buf) len = .ok ((b ||| lsa.flags) :: lsa.fields) := by
  have hfull : buf.length = ((b ||| lsa.flags) :: lsa.fields).length := by
    rw [hbuf, hlen, List.length_cons, Nat.add_comm]
  rw [hlen] at hbuf
  simp only [fields, List.length_append, length_writeU24, length_writeU16, length_writeHigh,
    List.length_singleton] at hlen hbuf
  rw [buildBody, if_neg (by omega), storeType2_written _ (by omega), ok_bind,
    storeBuf_next (by rfl) (by simp; omega), ok_bind,
    storeBuf_next (by rfl) (by simp; omega), ok_bind,
    storeBuf_next (by rfl) (by simp; omega), ok_bind,
    storeBuf_next (by rfl) (by simp; omega), ok_bind]
  simp only
  rw [if_neg (by omega), storeBuf_next (by rfl) (by simp; omega), ok_bind]
  simp only [List.cons_append, List.nil_append]
  rw [storeOptional_next (by simp; omega) (by omega) (by omega), ok_bind,
    storeOptional_next (by simp; omega) (by omega) (by omega), ok_bind]
  have hflags : ((b ||| if lsa.isType2 then 0x04 else 0) |||
      if lsa.forwardingAddress.isSome then 0x02 else 0) |||
        (if lsa.routeTag.isSome then 0x01 else 0) = b ||| lsa.flags := by
    rw [flags, UInt8.or_assoc, UInt8.or_assoc, UInt8.or_assoc]
  rw [hflags]
  cases hopt : lsa.referencedLsId with
  | none =>
    have htype : ¬ lsa.referencedLsType ≠ 0 := by
      rw [← hid, hopt]
      exact Bool.false_ne_true
    rw [if_neg htype]
    refine congrArg Except.ok ((congrArg (written · buf) ?_).trans (written_full hfull))
    simp [fields, hopt, bytesOf]
  | some id =>
    have htype : lsa.referencedLsType ≠ 0 := by
      rw [← hid, hopt]
      rfl
    have hbytes : (bytesOf lsa.referencedLsId writeU32).length = 4 := by
      rw [hopt]
      rfl
    rw [if_pos htype]
    simp only
    rw [if_neg (by omega), storeBuf_next (by simp; omega) (by simp; omega)]
    refine congrArg Except.ok ((congrArg (written · buf) ?_).trans (written_full hfull))
    simp [fields, hopt, bytesOf]

/-! ### Reading -/

theorem readable_of_build {l : List UInt8} {lsa : ExternalLsaV3} (h : build l len = .ok lsa) :
    Readable l 8 lsa.pfx.prefixLength := by
  rw [build] at h
  split_ifs at h with hshort
  obtain ⟨exOpts, -, h⟩ := bind_eq_ok.1 h
  obtain ⟨metric, -, h⟩ := bind_eq_ok.1 h
  obtain ⟨plen, -, h⟩ := bind_eq_ok.1 h
  obtain ⟨options, -, h⟩ := bind_eq_ok.1 h
  obtain ⟨type, -, h⟩ := bind_eq_ok.1 h
  split_ifs at h with hlong hbytes
  obtain ⟨pfx, hpfx, h⟩ := bind_eq_ok.1 h
  obtain ⟨⟨forwardingAddress, off₁⟩, -, h⟩ := bind_eq_ok.1 h
  obtain ⟨⟨routeTag, off₂⟩, -, h⟩ := bind_eq_ok.1 h
  obtain ⟨⟨referencedLsId, off₃⟩, -, h⟩ := bind_eq_ok.1 h
  simp only at h
  split_ifs at h with hoff
  obtain rfl := Except.ok.inj h
  exact (readPrefix_length hpfx).1

theorem readOptional_bytesOf {α : Type} {field : Option α} {enc : α → List UInt8} {n : ℕ}
    {f : BytePtr → α} {l rest : List UInt8} (hn : 0 < n) (henc : ∀ v, (enc v).length = n)
    (hread : ∀ v p, Holds p (enc v) → f p = v) (h : l.drop off = bytesOf field enc ++ rest)
    (hlen : off + (bytesOf field enc).length ≤ len.toNat) :
    readOptional l len field.isSome off n f = .ok (field, off + (bytesOf field enc).length) := by
  cases field with
  | none => rfl
  | some v =>
    have hbytes : bytesOf (some v) enc = enc v := rfl
    rw [hbytes] at h hlen ⊢
    have hfield : readBuf l off n f = .ok (f ((ofList l).add off)) := readAt_drop h (henc v) hn
    rw [henc] at hlen ⊢
    rw [readOptional, Option.isSome_some, if_pos rfl, if_neg (by omega), hfield, ok_bind,
      hread v _ (holds_drop h)]
    rfl

theorem flags_bits (lsa : ExternalLsaV3) :
    decide (lsa.flags &&& 0x04 ≠ 0) = lsa.isType2 ∧
      decide (lsa.flags &&& 0x02 ≠ 0) = lsa.forwardingAddress.isSome ∧
      decide (lsa.flags &&& 0x01 ≠ 0) = lsa.routeTag.isSome := by
  rw [flags]
  cases lsa.isType2 <;> cases lsa.forwardingAddress.isSome <;> cases lsa.routeTag.isSome <;> decide

theorem build_fields {lsa : ExternalLsaV3} (hrange : PrefixLsa.InRange (.external lsa))
    (hlen : len.toNat = 1 + lsa.fields.length)
    (hreadable : Readable (lsa.flags :: lsa.fields) 8 lsa.pfx.prefixLength) :
    build (lsa.flags :: lsa.fields) len = .ok lsa := by
  obtain ⟨hmetric, hpfx, hid⟩ := hrange
  generalize hl : lsa.flags :: lsa.fields = l at *
  have hfields : lsa.fields = writeU24 lsa.metric ++ ([lsa.pfx.prefixLength] ++ ([lsa.options] ++
      (writeU16 lsa.referencedLsType ++
        (writeHigh lsa.pfx.addr (prefixBytes lsa.pfx.prefixLength) ++
          (bytesOf lsa.forwardingAddress writeU128 ++ (bytesOf lsa.routeTag writeU32 ++
            bytesOf lsa.referencedLsId writeU32)))))) := by
    simp only [fields, List.append_assoc]
  -- what is left of the buffer at each offset
  have h1 : l.drop 1 = _ := (congrArg (List.drop 1) hl.symm).trans hfields
  have h4 : l.drop 4 = _ := drop_of_drop h1
  have h5 : l.drop 5 = _ := drop_of_drop h4
  have h6 : l.drop 6 = _ := drop_of_drop h5
  have h8 : l.drop 8 = _ := drop_of_drop h6
  have hforward := drop_of_drop h8
  rw [length_writeHigh] at hforward
  have htag := drop_of_drop hforward
  have hls := drop_of_drop htag
  have hexOpts : readBuf l 0 1 (· 0) = .ok lsa.flags := readAt_byte hl.symm
  have hmet : readBuf l 1 3 readU24 = .ok (lsa.metric &&& 0xFFFFFF) := readAt_u24 h1
  have hplen : readBuf l 4 1 (· 0) = .ok lsa.pfx.prefixLength := readAt_byte h4
  have hoptions : readBuf l 5 1 (· 0) = .ok lsa.options := readAt_byte h5
  have htype : readBuf l 6 2 readU16 = .ok lsa.referencedLsType := readAt_u16 h6
  obtain ⟨hbit4, hbit2, hbit1⟩ := lsa.flags_bits
  have hbitId : decide (lsa.referencedLsType ≠ 0) = lsa.referencedLsId.isSome := by
    rw [Bool.eq_iff_iff, decide_eq_true_eq, hid]
  have hlong : ¬ 128 < lsa.pfx.prefixLength := UInt8.not_lt.2 (UInt8.le_iff_toNat_le.2 hpfx.length)
  rw [hfields] at hlen
  simp only [List.length_append, length_writeU24, length_writeU16, length_writeHigh,
    List.length_singleton] at hlen
  obtain ⟨addr, haddr, hbits⟩ := readPrefix_eq hreadable
  have heq : addr = lsa.pfx.addr := by
    refine Address.ext_bits _ _ fun j => ?_
    have hhost := congrArg (fun a : BitVec 128 => bit a j) hpfx.host
    simp only [bit_mask] at hhost
    rw [bit_bitVec, bit_bitVec] at *
    rw [hbits, ← hhost]
    by_cases hj : j < lsa.pfx.prefixLength.toNat
    · have hle : j < 8 * prefixBytes lsa.pfx.prefixLength := by
        rw [prefixBytes]
        omega
      rw [byteBit_holds (by have := hreadable.1; omega) (holds_drop h8) hle]
    · simp [hj]
  rw [build, if_neg (by omega), hexOpts, ok_bind, hmet, ok_bind, hplen, ok_bind, hoptions, ok_bind,
    htype, ok_bind, if_neg hlong, if_neg (by omega), haddr, ok_bind, hbit2, hbit1, hbitId, hbit4]
  simp only
  rw [readOptional_bytesOf (by omega) length_writeU128 (fun _ _ => readU128_holds) hforward (by omega),
    ok_bind]
  simp only
  rw [readOptional_bytesOf (by omega) length_writeU32 (fun _ _ => readU32_holds) htag (by omega),
    ok_bind]
  simp only
  rw [readOptional_bytesOf (by omega) length_writeU32 (fun _ _ => readU32_holds)
    (hls.trans (List.append_nil _).symm) (by omega), ok_bind]
  simp only
  rw [if_neg (not_not_intro (by omega)), and_u24 hmetric, heq]
  rfl

theorem roundTrips_iff {lsa : ExternalLsaV3} (hrange : PrefixLsa.InRange (.external lsa))
    (hbuf : buf.length = lsa.size.toNat) :
    PrefixLsa.RoundTrips (.external lsa) buf ↔ PrefixLsa.Returns buf (.external lsa) := by
  have hid := hrange.2.2
  have hsize := lsa.toNat_size
  have hzeros : lsa.buildBody (List.replicate lsa.size.toNat 0) lsa.size =
      .ok (lsa.flags :: lsa.fields) := by
    have hcons : List.replicate lsa.size.toNat (0 : UInt8) =
        written [0] (List.replicate lsa.size.toNat 0) := by
      rw [hsize, Nat.add_comm, List.replicate_succ]
      rfl
    rw [hcons, buildBody_written hid hsize List.length_replicate, UInt8.zero_or]
  obtain ⟨b, tail, rfl⟩ : ∃ b tail, buf = b :: tail :=
    List.exists_cons_of_length_pos (by omega)
  have hbody : lsa.buildBody (b :: tail) lsa.size = .ok ((b ||| lsa.flags) :: lsa.fields) :=
    @buildBody_written (b :: tail) _ b lsa hid hsize hbuf
  have hlength : (lsa.flags :: lsa.fields).length = lsa.size.toNat := by
    rw [List.length_cons, hsize, Nat.add_comm]
  constructor
  · rintro ⟨bytes, hlen, hz, hb, hbuild⟩
    obtain rfl := Except.ok.inj (hzeros.symm.trans hz)
    have hsame := Except.ok.inj (hbody.symm.trans hb)
    have hreadable := readable_of_build ((map_ok_iff fun _ _ => PrefixLsa.external.inj).1 hbuild)
    rw [Readable, hlength] at hreadable
    exact ⟨(List.cons.inj hsame).1, hreadable⟩
  · rintro ⟨hflags, hreadable⟩
    have hflags' : b ||| lsa.flags = lsa.flags := hflags
    rw [hflags'] at hbody
    rw [← hlength] at hreadable
    exact ⟨_, hlength, hzeros, hbody, congrArg (Except.map _) (build_fields hrange hsize hreadable)⟩

end ExternalLsaV3

/-! ## All four -/

namespace PrefixLsa

/-- **The codec of the LSAs with prefixes**: an LSA comes back out of a buffer exactly if it and the
    buffer are such that it `Returns`, and a parser stays in its buffer exactly where it `Reads`. -/
theorem prefixCodec_iff (lsa : PrefixLsa) (buf : List UInt8) (t : PrefixLsaType) (l : List UInt8) (len : UInt16) :
    (lsa.InRange → buf.length = lsa.size.toNat → (lsa.RoundTrips buf ↔ lsa.Returns buf)) ∧
      (len.toNat = l.length → (Stays (build t l len) ↔ Reads t l)) := by
  refine ⟨?_, fun hlen => stays_build_iff hlen t⟩
  intro hrange hbuf
  cases lsa with
  | intraAreaPrefix lsa => exact IntraAreaPrefixLsa.roundTrips_iff hrange hbuf
  | link lsa => exact iff_of_false (LinkLsa.not_roundTrips hrange) id
  | interAreaPrefix lsa => exact InterAreaPrefixLsa.roundTrips_iff hrange hbuf
  | external lsa => exact ExternalLsaV3.roundTrips_iff hrange hbuf

/-- A default route with a metric of type 2 in a buffer of zeros, and the body of another one. -/
theorem prefixCodec_iff_default :
    RoundTrips (.external ⟨20, 0, 0, ⟨0, 0⟩, true, none, none, none⟩) (List.replicate 8 0) ∧
      Stays (build .interAreaPrefix [0, 0, 0, 10, 0, 0, 0, 0] 8) := by
  have hpfx : WellFormed ⟨0, 0⟩ := ⟨by decide, by decide⟩
  have hrange : InRange (.external ⟨20, 0, 0, ⟨0, 0⟩, true, none, none, none⟩) :=
    ⟨by decide, hpfx, by decide⟩
  obtain ⟨hreturns, hreads⟩ := prefixCodec_iff (.external ⟨20, 0, 0, ⟨0, 0⟩, true, none, none, none⟩)
    (List.replicate 8 0) .interAreaPrefix [0, 0, 0, 10, 0, 0, 0, 0] 8
  refine ⟨(hreturns hrange (by decide)).2 ⟨by decide, by decide, by decide⟩, (hreads (by decide)).2 ?_⟩
  intro _ _ _ _ _
  exact ⟨by decide, by decide⟩

/-- fd00::/8 in an intra-area prefix LSA does not come back. -/
theorem not_roundTrips_fd00 : ¬ ((∀ (lsa : PrefixLsa) (buf : List UInt8), lsa.InRange →
      buf.length = lsa.size.toNat → lsa.RoundTrips buf) ∧
    ∀ (t : PrefixLsaType) (l : List UInt8) (len : UInt16), len.toNat = l.length →
      Stays (build t l len)) := by
  rintro ⟨h, -⟩
  have hpfx : WellFormed ⟨0xfd000000000000000000000000000000, 8⟩ := ⟨by decide, by decide⟩
  have hrange : InRange (.intraAreaPrefix ⟨0x2001, 0, 1,
      [⟨0, 10, ⟨0xfd000000000000000000000000000000, 8⟩⟩]⟩) :=
    ⟨by decide, by decide, by simpa using hpfx⟩
  have htrips := h _ (List.replicate 17 0) hrange (by decide)
  have hlength := (IntraAreaPrefixLsa.roundTrips_iff hrange (by decide)).1 htrips _
    List.mem_cons_self
  exact absurd hlength (by decide)

end PrefixLsa

end VirtualRouter.Ospf
