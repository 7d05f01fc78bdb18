/-
  The database descriptions that a whole exchange builds (`ospf/ospfv2/transmission/TxV2.cpp`).

  `buildDescriptions` is called on a new packet until it leaves no key to go on from.

  * `OspfInterface.rounds`: these calls, each with the packet that it built;
  * `OspfInterface.Describes`: what they are to do;
  * `OspfInterface.rounds_copy`: which headers they copy: those of all records in the order of
    their keys, except that of the smallest key there can be;
  * `OspfInterface.describes_iff`: a header is written behind the room that was made for it, so
    that they do what they are to do only where there is nothing to describe.
-/
import VirtualRouter.Ospf.DbExchange
import VirtualRouter.Ospf.RecordRefs
import VirtualRouter.Ospf.UpdatePacket

namespace VirtualRouter.Ospf

open NestedMap Bytes Utils

variable {Body : Type}

/-! ## The order of the keys -/

namespace LsaKey

/-- The place of a key in the order. -/
def rank (k : LsaKey) : ℕ :=
  (k.lsaType.toNat * 2 ^ 32 + k.advertisingRouter.toNat) * 2 ^ 32 + k.linkStateId.toNat

theorem less_iff (a b : LsaKey) : a.less b = true ↔ a.rank < b.rank := by
  have h1 := a.advertisingRouter.toNat_lt
  have h2 := b.advertisingRouter.toNat_lt
  have h3 := a.linkStateId.toNat_lt
  have h4 := b.linkStateId.toNat_lt
  rw [less, rank, rank]
  split_ifs with htype hrtr
  · rw [decide_eq_true_iff, UInt16.lt_iff_toNat_lt]
    rw [ne_eq, ← UInt16.toNat_inj] at htype
    omega
  · rw [decide_eq_true_iff, UInt32.lt_iff_toNat_lt]
    rw [ne_eq, not_not] at htype
    rw [ne_eq, ← UInt32.toNat_inj] at hrtr
    rw [htype]
    omega
  · rw [decide_eq_true_iff, UInt32.lt_iff_toNat_lt]
    rw [ne_eq, not_not] at htype hrtr
    rw [htype, hrtr]
    omega

theorem rank_inj {a b : LsaKey} (h : a.rank = b.rank) : a = b := by
  have h1 := a.advertisingRouter.toNat_lt
  have h2 := b.advertisingRouter.toNat_lt
  have h3 := a.linkStateId.toNat_lt
  have h4 := b.linkStateId.toNat_lt
  rw [rank, rank] at h
  have htype : a.lsaType = b.lsaType := UInt16.toNat_inj.1 (by omega)
  have hrtr : a.advertisingRouter = b.advertisingRouter := UInt32.toNat_inj.1 (by omega)
  have hid : a.linkStateId = b.linkStateId := UInt32.toNat_inj.1 (by omega)
  obtain ⟨⟨aType, aRtr⟩, aId⟩ := a
  obtain ⟨⟨bType, bRtr⟩, bId⟩ := b
  dsimp only at htype hrtr hid
  rw [htype, hrtr, hid]

theorem noKey_less_iff (k : LsaKey) : noKey.less k = true ↔ k ≠ noKey := by
  rw [less_iff]
  constructor
  · rintro h rfl
    exact lt_irrefl _ h
  · intro h
    exact Nat.pos_of_ne_zero fun h0 => h (rank_inj h0)

end LsaKey

namespace LsdbTable

variable (t : LsdbTable Body)

theorem pairwise_iterable : t.iterable.Pairwise fun a b => a.1.less b.1 = true := by
  have hrel : ∀ a b : LsaKey × LsaRecord Body, b.1.less a.1 = false ↔ a.1.rank ≤ b.1.rank := by
    intro a b
    rw [← not_lt, ← LsaKey.less_iff, Bool.not_eq_true]
  have hsorted : t.iterable.Pairwise fun a b => b.1.less a.1 = false := by
    have htotal : Std.Total fun a b : LsaKey × LsaRecord Body => b.1.less a.1 = false :=
      ⟨fun a b => by rw [hrel, hrel]; exact le_total _ _⟩
    have htrans : IsTrans (LsaKey × LsaRecord Body) fun a b => b.1.less a.1 = false :=
      ⟨fun a b c => by rw [hrel, hrel, hrel]; exact le_trans⟩
    exact List.pairwise_insertionSort _ _
  have hne : t.iterable.Pairwise fun a b => a.1 ≠ b.1 := List.pairwise_map.1 t.nodup_iterable
  refine (hsorted.and hne).imp fun {a b} h => ?_
  rw [LsaKey.less_iff]
  exact ((hrel a b).1 h.1).lt_of_ne fun heq => h.2 (LsaKey.rank_inj heq)

end LsdbTable

theorem drop_takeWhile_less {l : List (LsaKey × LsaRecord Body)}
    (h : l.Pairwise fun a b => a.1.less b.1 = true) (c : LsaKey) :
    l.drop (l.takeWhile fun e => !c.less e.1).length = l.filter fun e => c.less e.1 := by
  induction l with
  | nil => rfl
  | cons e l ih =>
    obtain ⟨he, hl⟩ := List.pairwise_cons.1 h
    rw [List.takeWhile_cons]
    cases hc : c.less e.1 with
    | false =>
      rw [List.filter_cons_of_neg (by simp [hc])]
      exact ih hl
    | true =>
      have hall : ∀ e' ∈ e :: l, c.less e'.1 = true := by
        intro e' he'
        rcases List.mem_cons.1 he' with rfl | he'
        · exact hc
        · rw [LsaKey.less_iff] at hc ⊢
          exact hc.trans ((LsaKey.less_iff _ _).1 (he e' he'))
      rw [List.filter_eq_self.2 hall]
      rfl

/-! ## The calls -/

def headerBytes (e : LsaKey × LsaRecord Body) : List UInt8 :=
  writeU16 e.2.header.age ++ [e.2.header.options, e.1.lsaType.toUInt8] ++
    writeU32 e.1.linkStateId ++ writeU32 e.1.advertisingRouter ++ writeU32 e.2.header.sequence ++
    writeU16 e.2.header.checksum ++ writeU16 e.2.header.length

/-- What is described in a packet whose descriptions begin at `start`: its bytes up to the offset,
    20 for each. -/
def OspfBuilder.slots (start : ℕ) (b : OspfBuilder) : List (List UInt8) :=
  (List.range ((b.offset - start) / 20)).map fun i => (b.buf.add (start + 20 * i)).take 20

namespace OspfInterface

variable (iface : OspfInterface Body) (start size : ℕ)

/-- A call of `buildDescriptions` on a new packet, which holds `frame`; the descriptions begin at
    `start`.  There is none when no key is left. -/
def round (frame : BytePtr) (s : Neighbor × List OspfBuilder) : Neighbor × List OspfBuilder :=
  match s.1.currentDbd with
  | none => s
  | some _ =>
    let (b, nbr) := iface.buildDescriptions ⟨frame, start, size⟩ s.1
    (nbr, s.2 ++ [b])

/-- The first `n` calls, with the packets they built. -/
def rounds (frame : ℕ → BytePtr) (nbr : Neighbor) : ℕ → Neighbor × List OspfBuilder
  | 0 => (nbr, [])
  | n + 1 => iface.round start size (frame n) (rounds frame nbr n)

/-- Whatever the packets hold before: the calls come to an end, what is described in their packets
    is every record in the order of the keys, and no byte behind `size` is written. -/
def Describes : Prop :=
  ∀ (frame : ℕ → BytePtr) (nbr : Neighbor), nbr.currentDbd = some noKey →
    ∃ n, (iface.rounds start size frame nbr n).1.currentDbd = none ∧
      (iface.rounds start size frame nbr n).2.flatMap (OspfBuilder.slots start) =
        iface.db.iterable.map headerBytes ∧
      ∀ j b, (iface.rounds start size frame nbr n).2[j]? = some b →
        ∀ i, size ≤ i → b.buf i = frame j i

end OspfInterface

/-! ## One call -/

namespace OspfBuilder

def copyHeader (b : OspfBuilder) (e : LsaKey × LsaRecord Body) : OspfBuilder :=
  { b with offset := b.offset + 20, buf := overwrite b.buf (b.offset + 20) (headerBytes e) }

def copyHeaders (b : OspfBuilder) (l : List (LsaKey × LsaRecord Body)) : OspfBuilder :=
  l.foldl copyHeader b

def room (b : OspfBuilder) : ℕ := (b.maxSize - b.offset) / 20

theorem buildCopyLSAHeader_eq (b : OspfBuilder) (e : LsaKey × LsaRecord Body) :
    b.buildCopyLSAHeader e.1 e.2.header = if 0 < b.room then some (b.copyHeader e) else none := by
  have hroom : b.hasRoom 20 = true ↔ 0 < b.room := by
    rw [hasRoom, decide_eq_true_iff, room, Nat.div_pos_iff]
    omega
  rw [buildCopyLSAHeader]
  by_cases h : 0 < b.room
  · rw [if_pos (hroom.2 h), if_pos h]
    rfl
  · rw [if_neg fun hr => h (hroom.1 hr), if_neg h]

theorem room_copyHeader (b : OspfBuilder) (e : LsaKey × LsaRecord Body) :
    (b.copyHeader e).room = b.room - 1 := by
  rw [room, room, copyHeader]
  dsimp only
  omega

theorem copyHeaders_offset (l : List (LsaKey × LsaRecord Body)) (b : OspfBuilder) :
    (b.copyHeaders l).offset = b.offset + 20 * l.length := by
  induction l generalizing b with
  | nil => rfl
  | cons e l ih =>
    rw [copyHeaders, List.foldl_cons, ← copyHeaders, ih, copyHeader, List.length_cons]
    dsimp only
    ring

theorem copyHeaders_front (l : List (LsaKey × LsaRecord Body)) (b : OspfBuilder) {i : ℕ}
    (hi : i < b.offset + 20) : (b.copyHeaders l).buf i = b.buf i := by
  induction l generalizing b with
  | nil => rfl
  | cons e l ih =>
    rw [copyHeaders, List.foldl_cons, ← copyHeaders, ih]
    · exact UpdateTx.overwrite_of_lt _ _ hi
    · rw [copyHeader]
      dsimp only
      omega

end OspfBuilder

namespace OspfInterface

variable (iface : OspfInterface Body)

theorem getLast?_cons_key (e : LsaKey × LsaRecord Body) (l : List (LsaKey × LsaRecord Body)) :
    (e :: l).getLast?.map Prod.fst = some ((l.getLast?.map Prod.fst).getD e.1) := by
  rw [List.getLast?_cons]
  cases l.getLast? <;> rfl

/-- The loop copies as many headers as there is room for, and stops at the key of the last one;
    where there is room for none, it does so at the key before. -/
theorem describe_some (l : List (LsaKey × LsaRecord Body)) (b : OspfBuilder) (prev : LsaKey) :
    describe b (some prev) l = (b.copyHeaders (l.take b.room),
      if l.length ≤ b.room then none
      else some (((l.take b.room).getLast?.map Prod.fst).getD prev)) := by
  induction l generalizing b prev with
  | nil =>
    rw [describe, List.take_nil, List.length_nil, if_pos (Nat.zero_le _)]
    rfl
  | cons e l ih =>
    rw [describe, OspfBuilder.buildCopyLSAHeader_eq]
    cases hroom : b.room with
    | zero =>
      rw [if_neg (lt_irrefl 0), if_neg (by simp)]
      rfl
    | succ k =>
      have hk : (b.copyHeader e).room = k := by
        rw [OspfBuilder.room_copyHeader, hroom]
        rfl
      rw [if_pos (Nat.succ_pos k)]
      dsimp only
      rw [ih, hk, List.take_succ_cons, List.length_cons, OspfBuilder.copyHeaders,
        OspfBuilder.copyHeaders, List.foldl_cons]
      congr 1
      simp only [Nat.add_le_add_iff_right, getLast?_cons_key, Option.getD_some]

theorem describe_eq (l : List (LsaKey × LsaRecord Body)) (b : OspfBuilder) (hroom : 0 < b.room)
    (prev : Option LsaKey) : describe b prev l = (b.copyHeaders (l.take b.room),
      if l.length ≤ b.room then none else (l.take b.room).getLast?.map Prod.fst) := by
  cases l with
  | nil =>
    rw [describe, List.take_nil, List.length_nil, if_pos (Nat.zero_le _)]
    rfl
  | cons e l =>
    obtain ⟨k, hk⟩ := Nat.exists_eq_succ_of_ne_zero hroom.ne'
    have hk' : (b.copyHeader e).room = k := by
      rw [OspfBuilder.room_copyHeader, hk]
      rfl
    have hfirst : describe b prev (e :: l) = describe (b.copyHeader e) (some e.1) l := by
      rw [describe.eq_def]
      dsimp only
      rw [OspfBuilder.buildCopyLSAHeader_eq, if_pos hroom]
    rw [hfirst, describe_some, hk', hk, List.take_succ_cons, List.length_cons]
    simp only [Nat.succ_eq_add_one, Nat.add_le_add_iff_right, getLast?_cons_key]
    rfl

def behind (c : LsaKey) : List (LsaKey × LsaRecord Body) :=
  iface.db.iterable.filter fun e => c.less e.1

/-- **What one call copies**: the first records behind the key, as many as there is room for. -/
theorem buildDescriptions_eq {b : OspfBuilder} (hroom : 0 < b.room) {nbr : Neighbor} {c : LsaKey}
    (hc : nbr.currentDbd = some c) : iface.buildDescriptions b nbr =
      (b.copyHeaders ((iface.behind c).take b.room),
        { nbr with currentDbd := if (iface.behind c).length ≤ b.room then none
            else ((iface.behind c).take b.room).getLast?.map Prod.fst }) := by
  rw [buildDescriptions, hc]
  dsimp only
  rw [drop_takeWhile_less iface.db.pairwise_iterable, ← behind, describe_eq _ _ hroom]

theorem filter_less_append {front back : List (LsaKey × LsaRecord Body)}
    {e : LsaKey × LsaRecord Body}
    (h : (front ++ e :: back).Pairwise fun a b => a.1.less b.1 = true) :
    (front ++ e :: back).filter (fun x => e.1.less x.1) = back := by
  obtain ⟨-, hback, hcross⟩ := List.pairwise_append.1 h
  have hfront : ∀ x ∈ front, ¬ e.1.less x.1 = true := by
    intro x hx
    have hlt := hcross x hx e List.mem_cons_self
    rw [LsaKey.less_iff] at hlt ⊢
    exact hlt.not_gt
  have hself : ¬ e.1.less e.1 = true := by
    rw [LsaKey.less_iff]
    exact lt_irrefl _
  rw [List.filter_append, List.filter_eq_nil_iff.2 hfront, List.nil_append,
    List.filter_cons_of_neg (p := fun x : LsaKey × LsaRecord Body => e.1.less x.1) hself]
  exact List.filter_eq_self.2 (List.pairwise_cons.1 hback).1

theorem behind_getLast {c : LsaKey} {k : ℕ} (hk : 0 < k) (hlen : k ≤ (iface.behind c).length) :
    ∃ c', ((iface.behind c).take k).getLast?.map Prod.fst = some c' ∧
      iface.behind c' = (iface.behind c).drop k := by
  have hsorted : (iface.behind c).Pairwise fun a b => a.1.less b.1 = true :=
    iface.db.pairwise_iterable.filter _
  have hlt : k - 1 < (iface.behind c).length := by omega
  have htake : (iface.behind c).take k =
      (iface.behind c).take (k - 1) ++ [(iface.behind c)[k - 1]] := by
    rw [← List.take_succ_eq_append_getElem hlt, Nat.sub_add_cancel hk]
  have hsplit := List.take_append_drop k (iface.behind c)
  rw [htake, List.append_assoc, List.singleton_append] at hsplit
  generalize (iface.behind c)[k - 1] = e at htake hsplit
  refine ⟨e.1, by rw [htake, List.getLast?_concat]; rfl, ?_⟩
  -- what is behind `e` is behind `c`
  have hce : c.less e.1 = true := by
    have hmem : e ∈ iface.behind c := hsplit ▸ List.mem_append_right _ List.mem_cons_self
    exact (List.mem_filter.1 hmem).2
  have hbehind : iface.behind e.1 = (iface.behind c).filter fun x => e.1.less x.1 := by
    rw [behind, behind, List.filter_filter]
    refine List.filter_congr fun x _ => ?_
    cases hx : e.1.less x.1 with
    | false => rfl
    | true =>
      rw [LsaKey.less_iff] at hx hce
      exact ((LsaKey.less_iff _ _).2 (hce.trans hx)).symm
  have hrest := filter_less_append (hsplit.symm ▸ hsorted)
  rwa [hsplit, ← hbehind] at hrest

/-! ## All calls -/

/-- The packets hold the headers of `l`, a part of it each. -/
def Copies (start size : ℕ) (frame : ℕ → BytePtr) (built : List OspfBuilder)
    (l : List (LsaKey × LsaRecord Body)) : Prop :=
  ∃ parts : List (List (LsaKey × LsaRecord Body)), parts.flatten = l ∧
    built = parts.mapIdx fun j part => OspfBuilder.copyHeaders ⟨frame j, start, size⟩ part

theorem Copies.concat {start size : ℕ} {frame : ℕ → BytePtr} {built : List OspfBuilder}
    {l part : List (LsaKey × LsaRecord Body)} (h : Copies start size frame built l) :
    Copies start size frame
      (built ++ [OspfBuilder.copyHeaders ⟨frame built.length, start, size⟩ part]) (l ++ part) := by
  obtain ⟨parts, rfl, rfl⟩ := h
  refine ⟨parts ++ [part], ?_, ?_⟩
  · rw [List.flatten_append, List.flatten_singleton]
  · rw [List.mapIdx_concat, List.length_mapIdx]

/-- After `n` calls that began at `c`: the headers of `l` are copied, and the rest is left. -/
inductive Progress (start size : ℕ) (frame : ℕ → BytePtr) (c : LsaKey) (n : ℕ)
    (s : Neighbor × List OspfBuilder) : Prop where
  | goesOn (c' : LsaKey) (l : List (LsaKey × LsaRecord Body)) (key : s.1.currentDbd = some c')
      (calls : s.2.length = n) (copies : Copies start size frame s.2 l) (len : n ≤ l.length)
      (rest : l ++ iface.behind c' = iface.behind c)
  | done (key : s.1.currentDbd = none) (copies : Copies start size frame s.2 (iface.behind c))

variable {iface} {start size : ℕ} {frame : ℕ → BytePtr} {nbr : Neighbor} {c : LsaKey}

theorem Progress.exists_copies {n : ℕ} {s : Neighbor × List OspfBuilder}
    (h : iface.Progress start size frame c n s) :
    ∃ l : List (LsaKey × LsaRecord Body), Copies start size frame s.2 l := by
  cases h with
  | goesOn c' l key calls copies len rest => exact ⟨l, copies⟩
  | done key copies => exact ⟨_, copies⟩

/-- A call goes on where the one before stopped. -/
theorem Progress.round (hroom : start + 20 ≤ size) {n : ℕ} {s : Neighbor × List OspfBuilder}
    (h : iface.Progress start size frame c n s) :
    iface.Progress start size frame c (n + 1) (iface.round start size (frame n) s) := by
  obtain ⟨nbr, built⟩ := s
  cases h with
  | done key copies =>
    rw [OspfInterface.round, key]
    exact .done key copies
  | goesOn c' l key calls copies len rest =>
    dsimp only at key calls copies
    subst calls
    have hpos : 0 < (⟨frame built.length, start, size⟩ : OspfBuilder).room := by
      rw [OspfBuilder.room]
      dsimp only
      omega
    rw [OspfInterface.round, key]
    dsimp only
    rw [iface.buildDescriptions_eq hpos key]
    generalize (⟨frame built.length, start, size⟩ : OspfBuilder).room = k at hpos
    have hcopies := @Copies.concat _ _ _ _ _ _ ((iface.behind c').take k) copies
    by_cases hlen : (iface.behind c').length ≤ k
    · refine .done (if_pos hlen) ?_
      rw [List.take_of_length_le hlen] at hcopies ⊢
      rwa [← rest]
    · obtain ⟨c'', hlast, hbehind⟩ := iface.behind_getLast hpos (not_le.1 hlen).le
      refine .goesOn c'' _ ((if_neg hlen).trans hlast) ?_ hcopies ?_ ?_
      · rw [List.length_append, List.length_singleton]
      · rw [List.length_append, List.length_take, Nat.min_eq_left (not_le.1 hlen).le]
        omega
      · rw [hbehind, List.append_assoc, List.take_append_drop, rest]

theorem progress_rounds (hroom : start + 20 ≤ size) (hc : nbr.currentDbd = some c) (n : ℕ) :
    iface.Progress start size frame c n (iface.rounds start size frame nbr n) := by
  induction n with
  | zero => exact .goesOn c [] hc rfl ⟨[], rfl, rfl⟩ le_rfl rfl
  | succ n ih => exact ih.round hroom

/-- **What the calls copy**: they come to an end, and have copied the header of every record but
    that of `noKey`, in the order of the keys and each once. -/
theorem rounds_copy (hroom : start + 20 ≤ size) (hc : nbr.currentDbd = some noKey) :
    ∃ n, (iface.rounds start size frame nbr n).1.currentDbd = none ∧
      Copies start size frame (iface.rounds start size frame nbr n).2
        (iface.db.iterable.filter fun e => e.1 ≠ noKey) := by
  have hbehind : iface.behind noKey = iface.db.iterable.filter fun e => e.1 ≠ noKey := by
    refine List.filter_congr fun e _ => ?_
    rw [Bool.eq_iff_iff, LsaKey.noKey_less_iff, decide_eq_true_iff]
  refine ⟨(iface.behind noKey).length + 1, ?_⟩
  rw [← hbehind]
  cases @progress_rounds _ iface _ _ frame _ _ hroom hc
    ((iface.behind noKey).length + 1) with
  | done key copies => exact ⟨key, copies⟩
  | goesOn c' l key calls copies len rest =>
    have hlen := congrArg List.length rest
    rw [List.length_append] at hlen
    omega

/-! ## When all is described -/

theorem head?_slots {buf : BytePtr} {part : List (LsaKey × LsaRecord Body)} {bytes : List UInt8}
    (h : ((OspfBuilder.copyHeaders ⟨buf, start, size⟩ part).slots start).head? = some bytes) :
    bytes = (buf.add start).take 20 := by
  rw [OspfBuilder.slots, OspfBuilder.copyHeaders_offset, Nat.add_sub_cancel_left,
    Nat.mul_div_cancel_left _ (by omega), List.head?_map] at h
  cases part with
  | nil => cases h
  | cons e part =>
    rw [List.length_cons, List.range_succ_eq_map, List.head?_cons, Option.map_some,
      Option.some.injEq] at h
    rw [← h]
    refine List.map_congr_left fun i hi => ?_
    rw [add_apply, add_apply, Nat.mul_zero, Nat.add_zero]
    exact OspfBuilder.copyHeaders_front _ _ (Nat.add_lt_add_left (List.mem_range.1 hi) start)

/-- Where there is a record, the calls do not describe it, whatever there is room for. -/
theorem not_describes (hroom : start + 20 ≤ size) (hne : iface.db.iterable ≠ []) :
    ¬ iface.Describes start size := by
  intro h
  obtain ⟨e, rest, hdb⟩ := List.exists_cons_of_ne_nil hne
  -- the packets hold a byte that is not the first of the header
  let v := (headerBytes e).headD 0
  let nbr : Neighbor := {
    routerID := 0
    unicast := false
    mtu := 1500
    state := .EXCHANGE
    currentSeq := 0
    currentDbd := some noKey }
  obtain ⟨n, -, hslots, -⟩ := h (fun _ _ => v + 1) nbr rfl
  obtain ⟨l, parts, -, hbuilt⟩ :=
    (@progress_rounds _ iface _ _ _ nbr _ hroom rfl n).exists_copies
  have hfirst := congrArg List.head? hslots
  rw [hbuilt, hdb, List.map_cons, List.head?_cons, List.head?_flatMap] at hfirst
  obtain ⟨b, hb, hhead⟩ := List.exists_of_findSome?_eq_some hfirst
  obtain ⟨j, hj, rfl⟩ := List.mem_mapIdx.1 hb
  have hbytes := congrArg (fun bytes => bytes.headD 0) (head?_slots hhead)
  have hv : v = v + 1 := hbytes
  simp at hv

/-- **When the calls describe the database**: when it is empty. -/
theorem describes_iff (iface : OspfInterface Body) (hroom : start + 20 ≤ size) :
    iface.Describes start size ↔ iface.db.iterable = [] := by
  constructor
  · intro h
    by_contra hne
    exact not_describes hroom hne h
  · intro hempty frame nbr hc
    have hpos : 0 < (⟨frame 0, start, size⟩ : OspfBuilder).room := by
      rw [OspfBuilder.room]
      dsimp only
      omega
    have hcall : iface.rounds start size frame nbr 1 =
        ({ nbr with currentDbd := none }, [⟨frame 0, start, size⟩]) := by
      rw [rounds, rounds, round, hc]
      dsimp only
      rw [iface.buildDescriptions_eq hpos hc, behind, hempty, List.filter_nil, List.take_nil,
        List.length_nil, if_pos (Nat.zero_le _)]
      rfl
    refine ⟨1, ?_⟩
    rw [hcall, hempty]
    refine ⟨rfl, ?_, ?_⟩
    · simp [OspfBuilder.slots]
    · intro j b hj i _
      cases j with
      | zero =>
        rw [List.getElem?_cons_zero, Option.some.injEq] at hj
        rw [← hj]
      | succ j => cases hj

def oneRecord : OspfInterface Unit :=
  { DbExchange.plainInterface 2 with
    db := ({} : LsdbTable Unit).upsertMeta
      { key := ⟨⟨1, 0x01010101⟩, 0x01010101⟩, header := {} } 0 0 }

/-- Its header is copied. -/
theorem rounds_copy_oneRecord :
    let nbr : Neighbor :=
      { routerID := 0, unicast := false, mtu := 1500, state := .EXCHANGE, currentSeq := 0,
        currentDbd := some noKey }
    ∃ n, (oneRecord.rounds 8 1456 (fun _ _ => 0) nbr n).1.currentDbd = none ∧
      Copies 8 1456 (fun _ _ => 0) (oneRecord.rounds 8 1456 (fun _ _ => 0) nbr n).2
        (oneRecord.db.iterable.filter fun e => e.1 ≠ noKey) :=
  rounds_copy (by decide) rfl

/-- **Its header is written behind the packet**, which holds something else in its place. -/
theorem not_describes_oneRecord : ¬ oneRecord.Describes 8 1456 :=
  not_describes (by decide) (List.cons_ne_nil _ _)

/-- The empty database is described. -/
theorem describes_empty : 8 + 20 ≤ 1456 ∧ (DbExchange.plainInterface 2).Describes 8 1456 :=
  ⟨by decide, (describes_iff (DbExchange.plainInterface 2) (by decide)).2 rfl⟩

end OspfInterface

end VirtualRouter.Ospf
