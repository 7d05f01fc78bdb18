/-
  What the parsers of the OSPFv3 LSAs that carry prefixes read.

  The constructor of a prefix reads eight times the bytes of the prefix and leaves
  its length 0.

  * `readPrefix_eq`, `readPrefix_ne`: what the constructor makes of a place in a buffer;
  * `Stays`: a parser stays in its buffer, with a rule for each way to compose it;
    `stays_loop` is the rule for the loops over prefixes;
  * `PrefixLsa.Reads`: at each prefix that a parser comes to, what the constructor reads
    is there;
  * `PrefixLsa.stays_build_iff`: a parser stays inside of exactly these buffers.
-/
import VirtualRouter.Ospf.PrefixLsaV3

namespace VirtualRouter.Ospf

open Bytes Utils VirtualRouter.Types PrefixMap

variable {α β : Type} {l rest : List UInt8} {i n off : ℕ} {len : UInt16}

/-! ## Prefixes -/

/-- The length is of at most two bytes, and eight times its bytes are left. -/
def Readable (l : List UInt8) (i : ℕ) (len : UInt8) : Prop :=
  prefixBytes len ≤ 2 ∧ i + 8 * prefixBytes len ≤ l.length

theorem readPrefix_eq {plen : UInt8} (h : Readable l i plen) :
    ∃ addr, readPrefix l i plen = .ok ⟨addr, 0⟩ ∧
      ∀ j, addr.getMsbD j = (decide (j < plen.toNat) && byteBit ((ofList l).add i) j) := by
  obtain ⟨addr, haddr, hbits⟩ := IPv6Prefix.fromBytes_short h.1 ((ofList l).add i)
  refine ⟨addr, ?_, hbits⟩
  have hin : i + prefixBytes plen * 8 ≤ l.length := by
    rw [Nat.mul_comm]
    exact h.2
  rw [readPrefix, haddr]
  exact if_pos hin

theorem readPrefix_ne {plen : UInt8} (h : ¬ Readable l i plen) :
    readPrefix l i plen = .error .oob ∨ readPrefix l i plen = .error .shift := by
  rw [readPrefix]
  by_cases hshort : prefixBytes plen ≤ 2
  · obtain ⟨addr, haddr, -⟩ := IPv6Prefix.fromBytes_short hshort ((ofList l).add i)
    have hout : ¬ i + prefixBytes plen * 8 ≤ l.length := fun hin => h ⟨hshort, by omega⟩
    rw [haddr]
    exact Or.inl (if_neg hout)
  · rw [IPv6Prefix.fromBytes_long (not_le.1 hshort)]
    simp only
    split_ifs
    · exact Or.inr rfl
    · exact Or.inl rfl

theorem readPrefix_length {plen : UInt8} {p : IPv6Prefix} (h : readPrefix l i plen = .ok p) :
    Readable l i plen ∧ p.prefixLength = 0 := by
  by_cases hreadable : Readable l i plen
  · obtain ⟨addr, haddr, -⟩ := readPrefix_eq hreadable
    rw [haddr] at h
    obtain rfl := Except.ok.inj h
    exact ⟨hreadable, rfl⟩
  · rcases readPrefix_ne hreadable with he | he
    · rw [he] at h
      cases h
    · rw [he] at h
      cases h

/-! ## Parsers that stay in the buffer -/

def Stays (x : Except PrefixStop α) : Prop := x ≠ .error .oob ∧ x ≠ .error .shift

theorem stays_ok (a : α) : Stays (.ok a) := by simp [Stays]

theorem stays_refused : Stays (.error .refused : Except PrefixStop α) := by simp [Stays]

theorem stays_bind_iff {x : Except PrefixStop α} {f : α → Except PrefixStop β} :
    Stays (x >>= f) ↔ Stays x ∧ ∀ a, x = .ok a → Stays (f a) := by
  cases x with
  | error e => simp [Stays]
  | ok a => simp [Stays]

theorem stays_ite_iff {c : Prop} [Decidable c] {x : Except PrefixStop α} :
    Stays (if c then .error .refused else x) ↔ (¬ c → Stays x) := by
  split_ifs with h
  · exact iff_of_true stays_refused fun hn => absurd h hn
  · exact ⟨fun hx _ => hx, fun hx => hx h⟩

theorem stays_map_iff {x : Except PrefixStop α} {f : α → β} : Stays (x.map f) ↔ Stays x := by
  cases x with
  | error e => simp [Stays, Except.map]
  | ok a => simp [Stays, Except.map]

theorem stays_readPrefix_iff {plen : UInt8} : Stays (readPrefix l i plen) ↔ Readable l i plen := by
  by_cases h : Readable l i plen
  · obtain ⟨addr, haddr, -⟩ := readPrefix_eq h
    rw [haddr]
    exact iff_of_true (stays_ok _) h
  · rcases readPrefix_ne h with he | he
    · simp [he, Stays, h]
    · simp [he, Stays, h]

theorem readBuf_ok {f : BytePtr → α} (h : i + n ≤ l.length) :
    readBuf l i n f = .ok (f ((ofList l).add i)) := readAt_ok h

/-- The places and lengths of the prefixes that a loop comes to: behind `head` bytes each, up to
    the first that is not inside; `moves` is whether it goes on behind the bytes of a prefix. -/
def places (l : List UInt8) (head : ℕ) (moves : Bool) : (n off : ℕ) → List (ℕ × UInt8)
  | 0, _ => []
  | n + 1, off =>
    let plen := ofList l off
    if l.length < off + head + prefixBytes plen then []
    else (off + head, plen) ::
      places l head moves n (off + head + if moves then prefixBytes plen else 0)

section Loop
variable {head : ℕ} {moves : Bool} {loop : ℕ → ℕ → Except PrefixStop (List α)}
  {entry : ℕ → IPv6Prefix → α} (hzero : ∀ off, loop 0 off = .ok [])
  (hsucc : ∀ n off, loop (n + 1) off =
    if l.length < off + head + prefixBytes (ofList l off) then .error .refused
    else do
      let p ← readPrefix l (off + head) (ofList l off)
      let ps ← loop n (off + head + if moves then prefixBytes (ofList l off) else 0)
      return entry off p :: ps)
include hzero hsucc

theorem stays_loop : Stays (loop n off) ↔ ∀ e ∈ places l head moves n off, Readable l e.1 e.2 := by
  induction n generalizing off with
  | zero =>
    rw [hzero, places]
    exact iff_of_true (stays_ok _) (by simp)
  | succ n ih =>
    rw [hsucc, places]
    by_cases hout : l.length < off + head + prefixBytes (ofList l off)
    · rw [if_pos hout, if_pos hout]
      exact iff_of_true stays_refused (by simp)
    · rw [if_neg hout, if_neg hout, stays_bind_iff, stays_readPrefix_iff, List.forall_mem_cons]
      refine and_congr_right fun hreadable => ?_
      obtain ⟨addr, haddr, -⟩ := readPrefix_eq hreadable
      rw [haddr, ← ih]
      constructor
      · intro h
        exact (stays_bind_iff.1 (h _ rfl)).1
      · intro h p _
        exact stays_bind_iff.2 ⟨h, fun ps _ => stays_ok _⟩

theorem loop_length {as : List α} (h : loop n off = .ok as) :
    ∀ a ∈ as, ∃ j p, a = entry j p ∧ p.prefixLength = 0 := by
  induction n generalizing off as with
  | zero =>
    rw [hzero] at h
    obtain rfl := Except.ok.inj h
    simp
  | succ n ih =>
    rw [hsucc] at h
    by_cases hout : l.length < off + head + prefixBytes (ofList l off)
    · rw [if_pos hout] at h
      cases h
    rw [if_neg hout] at h
    obtain ⟨p, hp, h⟩ := bind_eq_ok.1 h
    obtain ⟨ps, hps, h⟩ := bind_eq_ok.1 h
    obtain rfl := Except.ok.inj h
    refine List.forall_mem_cons.2 ⟨⟨off, p, rfl, (readPrefix_length hp).2⟩, ?_⟩
    exact ih hps

end Loop

namespace PrefixLsa

/-- What the constructor reads is there, at each prefix that the parser comes to. -/
def Reads (t : PrefixLsaType) (l : List UInt8) : Prop :=
  match t with
  | .intraAreaPrefix =>
    12 ≤ l.length → ∀ e ∈ places l 4 true (readU16 (ofList l)).toNat 12, Readable l e.1 e.2
  | .link => 21 ≤ l.length → ∀ e ∈ places l 2 false (ofList l 20).toNat 21, Readable l e.1 e.2
  | .interAreaPrefix =>
    8 ≤ l.length → ofList l 0 = 0 → readU16 ((ofList l).add 6) = 0 →
      InterAreaPrefixLsa.wordBytes (ofList l 4) ≤ 16 →
      8 + InterAreaPrefixLsa.wordBytes (ofList l 4) ≤ l.length → Readable l 8 (ofList l 4)
  | .external =>
    8 ≤ l.length → ofList l 4 ≤ 128 → 8 + prefixBytes (ofList l 4) ≤ l.length →
      Readable l 8 (ofList l 4)

end PrefixLsa

section
variable (hlen : len.toNat = l.length)
include hlen

theorem IntraAreaPrefixLsa.buildPrefixes_succ (n off : ℕ) : buildPrefixes l len (n + 1) off =
    if l.length < off + 4 + prefixBytes (ofList l off) then .error .refused
    else do
      let p ← readPrefix l (off + 4) (ofList l off)
      let ps ← buildPrefixes l len n (off + 4 + if true then prefixBytes (ofList l off) else 0)
      return ({ options := ofList l (off + 1), metric := readU16 ((ofList l).add (off + 2)), pfx := p } :
        IntraAreaPrefix) :: ps := by
  rw [buildPrefixes, hlen]
  by_cases hhead : l.length < off + 4
  · rw [if_pos hhead, if_pos (by omega)]
  · rw [if_neg hhead, readBuf_ok (by omega), ok_bind, readBuf_ok (by omega), ok_bind,
      readBuf_ok (by omega), ok_bind]
    rfl

theorem LinkLsa.buildPrefixes_succ (n off : ℕ) : buildPrefixes l len (n + 1) off =
    if l.length < off + 2 + prefixBytes (ofList l off) then .error .refused
    else do
      let p ← readPrefix l (off + 2) (ofList l off)
      let ps ← buildPrefixes l len n (off + 2 + if false then prefixBytes (ofList l off) else 0)
      return ({ options := ofList l (off + 1), pfx := p } : LinkLsaPrefix) :: ps := by
  rw [buildPrefixes, hlen]
  by_cases hhead : l.length < off + 2
  · rw [if_pos hhead, if_pos (by omega)]
  · rw [if_neg hhead, readBuf_ok (by omega), ok_bind, readBuf_ok (by omega), ok_bind]
    rfl

theorem IntraAreaPrefixLsa.stays_build_iff :
    Stays (build l len) ↔ PrefixLsa.Reads .intraAreaPrefix l := by
  rw [build, hlen, PrefixLsa.Reads, stays_ite_iff, not_lt]
  refine forall_congr' fun hshort => ?_
  rw [readBuf_ok (by omega), ok_bind, readBuf_ok (by omega), ok_bind, readBuf_ok (by omega), ok_bind,
    readBuf_ok (by omega), ok_bind, stays_bind_iff, add_zero,
    stays_loop (fun _ => rfl) (buildPrefixes_succ hlen)]
  exact and_iff_left fun _ _ => stays_ok _

theorem LinkLsa.stays_build_iff : Stays (build l len) ↔ PrefixLsa.Reads .link l := by
  rw [build, hlen, PrefixLsa.Reads, stays_ite_iff, not_lt]
  refine forall_congr' fun hshort => ?_
  rw [readBuf_ok (by omega), ok_bind, readBuf_ok (by omega), ok_bind, readBuf_ok (by omega), ok_bind,
    readBuf_ok (by omega), ok_bind, stays_bind_iff,
    stays_loop (fun _ => rfl) (buildPrefixes_succ hlen)]
  exact and_iff_left fun _ _ => stays_ok _

theorem InterAreaPrefixLsa.stays_build_iff :
    Stays (build l len) ↔ PrefixLsa.Reads .interAreaPrefix l := by
  rw [build, hlen, PrefixLsa.Reads, stays_ite_iff, not_lt]
  refine forall_congr' fun hshort => ?_
  rw [readBuf_ok (by omega), ok_bind, stays_ite_iff, not_not, add_zero]
  refine forall_congr' fun hz => ?_
  rw [readBuf_ok (by omega), ok_bind, readBuf_ok (by omega), ok_bind, readBuf_ok (by omega), ok_bind,
    readBuf_ok (by omega), ok_bind, stays_ite_iff, not_not]
  refine forall_congr' fun hreserved => ?_
  rw [stays_ite_iff, not_lt]
  refine forall_congr' fun hwords => ?_
  rw [stays_ite_iff, not_lt]
  refine forall_congr' fun hbytes => ?_
  rw [stays_bind_iff, stays_readPrefix_iff]
  refine and_iff_left fun p _ => ?_
  simp only
  rw [readBuf_ok (Nat.add_sub_of_le hbytes).le, ok_bind, stays_ite_iff]
  exact fun _ => stays_ok _

theorem ExternalLsaV3.stays_readOptional {present : Bool} {f : BytePtr → α} :
    Stays (readOptional l len present off n f) := by
  rw [readOptional, hlen]
  cases present with
  | false => exact stays_ok _
  | true =>
    rw [if_pos rfl, stays_ite_iff, not_lt]
    intro hin
    rw [readBuf_ok hin]
    exact stays_ok _

theorem ExternalLsaV3.stays_build_iff : Stays (build l len) ↔ PrefixLsa.Reads .external l := by
  rw [build, hlen, PrefixLsa.Reads, stays_ite_iff, not_lt]
  refine forall_congr' fun hshort => ?_
  rw [readBuf_ok (by omega), ok_bind, readBuf_ok (by omega), ok_bind, readBuf_ok (by omega), ok_bind,
    readBuf_ok (by omega), ok_bind, readBuf_ok (by omega), ok_bind, stays_ite_iff, UInt8.not_lt]
  refine forall_congr' fun hlong => ?_
  rw [stays_ite_iff, not_lt]
  refine forall_congr' fun hbytes => ?_
  rw [stays_bind_iff, stays_readPrefix_iff]
  refine and_iff_left fun p _ => ?_
  refine stays_bind_iff.2 ⟨stays_readOptional hlen, fun x _ => ?_⟩
  refine stays_bind_iff.2 ⟨stays_readOptional hlen, fun y _ => ?_⟩
  refine stays_bind_iff.2 ⟨stays_readOptional hlen, fun z _ => ?_⟩
  rw [stays_ite_iff]
  exact fun _ => stays_ok _

theorem PrefixLsa.stays_build_iff (t : PrefixLsaType) : Stays (build t l len) ↔ Reads t l := by
  cases t with
  | intraAreaPrefix => exact stays_map_iff.trans (IntraAreaPrefixLsa.stays_build_iff hlen)
  | link => exact stays_map_iff.trans (LinkLsa.stays_build_iff hlen)
  | interAreaPrefix => exact stays_map_iff.trans (InterAreaPrefixLsa.stays_build_iff hlen)
  | external => exact stays_map_iff.trans (ExternalLsaV3.stays_build_iff hlen)

end

end VirtualRouter.Ospf
