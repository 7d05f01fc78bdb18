/-
  The open-addressing hash map `types/StableHashMap.hpp`.

  The control bytes and the slots are functions of the index; the 31 bytes of
  padding behind the last control byte are never written and stay `EMPTY`.  A
  node is its contents, and `slotsId` tells the slot arrays of different
  rehashes apart, as the pointer `slots.data()` does.  `Key` equality is the
  equality of the type, the load factor is the default `0.875f`, and every
  allocation succeeds.

  `probe` reads windows of 32 control bytes; `none` is its `std::abort()`.
  `Reaches t h i` says that the walk of the hash `h` gets to slot `i`, no
  window before the one with `i` having an `EMPTY` byte.

  * `probe_of_reaches`: a key is found where its walk reaches it;
  * `probe_of_absent`: without the key, the probe ends at a free byte that the
    walk reaches, which may be one of the padding;
  * `probe_isSome`: the probe ends if a slot is `EMPTY` or the table is small.
-/
import VirtualRouter.Lib.SingleFloat
import VirtualRouter.Lib.Run

namespace VirtualRouter

/-- `StableHashMap::Node`. -/
structure HashNode (Key Value : Type*) where
  key : Key
  value : Value
  fullHash : UInt64
  deriving DecidableEq

structure StableHashMap (Key Value : Type*) where
  control : ℕ → UInt8
  slots : ℕ → Option (HashNode Key Value)
  numLive : ℕ
  numFilled : ℕ
  capacity : ℕ
  slotsId : ℕ := 0

namespace StableHashMap

open Run

variable {Key Value : Type*}

def EMPTY : UInt8 := 0x80

def DELETED : UInt8 := 0xFE

/-- The fingerprint `emplace`, `find` and `erase` use. -/
def fingerprint (hash : UInt64) : UInt8 := (hash >>> 57 &&& 0x7F).toUInt8

/-- The fingerprint `insertIntoTable` uses. -/
def rehashFingerprint (hash : UInt64) : UInt8 := ((hash >>> 57 ^^^ hash >>> 40) &&& 0x7F).toUInt8

variable (t : StableHashMap Key Value)

/-- `p & mask()`. -/
def slotOf (p : ℕ) : ℕ := p &&& (t.capacity - 1)

/-- The first of the 32 control bytes at `pos` that satisfies `P`, as `movemask` and `ctz`
    find it. -/
def firstInWindow (pos : ℕ) (P : ℕ → Bool) : Option ℕ :=
  ((List.range 32).map (pos + ·)).find? P

/-! ## Probing -/

inductive ProbeResult (Key Value : Type*) where
  | found (node : HashNode Key Value) (slot : ℕ)
  | missing (insertSlot : ℕ)

section

variable [DecidableEq Key]

/-- The control byte at `p` matches and its slot holds the key. -/
def hits (key : Key) (hash : UInt64) (fp : UInt8) (p : ℕ) : Bool :=
  t.control p == fp &&
    (t.slots (t.slotOf p)).any fun e => e.fullHash == hash && decide (e.key = key)

/-- The loop of `probe`, for at most `n` more windows. -/
def probeFrom (key : Key) (hash : UInt64) (fp : UInt8) :
    ℕ → ℕ → Option ℕ → Option (ProbeResult Key Value)
  | 0, _, _ => none
  | n + 1, pos, firstTombstone =>
    match firstInWindow pos (t.hits key hash fp) with
    | some p => (t.slots (t.slotOf p)).map (.found · (t.slotOf p))
    | none =>
      let firstTombstone := firstTombstone.or
        ((firstInWindow pos fun p => t.control p == DELETED).map t.slotOf)
      match firstInWindow pos fun p => t.control p == EMPTY with
      | some p => some (.missing (firstTombstone.getD (t.slotOf p)))
      | none => probeFrom key hash fp n (t.slotOf (pos + 32)) firstTombstone

/-- `probe`: it gives up after `capacity + 1` windows. -/
def probe (key : Key) (hash : UInt64) (fp : UInt8) : Option (ProbeResult Key Value) :=
  t.probeFrom key hash fp (t.capacity + 1) (t.slotOf hash.toNat) none

end

/-! ## Rehashing -/

def ofCapacity (capacity slotsId : ℕ) : StableHashMap Key Value :=
  ⟨fun _ => EMPTY, fun _ => none, 0, 0, capacity, slotsId⟩

/-- `insertIntoTable`: the first `EMPTY` slot from the home slot on, past the end at the front
    again.  A table with no `EMPTY` slot, on which the loop would not end, is left. -/
def insertIntoTable (node : HashNode Key Value) : StableHashMap Key Value :=
  let home := t.slotOf node.fullHash.toNat
  match ((List.range t.capacity).map fun i => t.slotOf (home + i)).find?
      fun p => t.control p == EMPTY with
  | some p =>
    { t with
      control := Function.update t.control p (rehashFingerprint node.fullHash)
      slots := Function.update t.slots p (some node) }
  | none => t

/-- The nodes `rehash` inserts again, in slot order. -/
def liveNodes : List (HashNode Key Value) :=
  (List.range t.capacity).filterMap fun i =>
    if t.control i ≠ EMPTY ∧ t.control i ≠ DELETED then t.slots i else none

/-- The capacity `rehash` makes of the requested one: at least `numLive`, and a power of two. -/
def roundedCap (newCap : ℕ) : ℕ :=
  let newCap := if newCap < t.numLive then t.numLive else newCap
  if newCap &&& (newCap - 1) ≠ 0 then 2 ^ (Nat.log2 newCap + 1) else newCap

/-- The table `rehash` builds: the live nodes inserted one by one. -/
def rebuilt (newCap : ℕ) : StableHashMap Key Value :=
  runFrom insertIntoTable (ofCapacity newCap (t.slotsId + 1)) t.liveNodes

def rehash (newCap : ℕ) : StableHashMap Key Value :=
  let newCap := t.roundedCap newCap
  if newCap = t.capacity then t
  else { t.rebuilt newCap with numLive := t.numLive, numFilled := t.numLive }

/-- The test of `rehashIfNeeded`.  `capacity` is a power of two, so that its product with
    `0.875f` is exact; `numFilled` is rounded to single precision. -/
def needsRehash : Bool :=
  t.numFilled == t.capacity || 7 * t.capacity < 8 * SingleFloat.truncDiv t.numFilled 1

def rehashIfNeeded : StableHashMap Key Value :=
  if t.needsRehash then t.rehash (t.capacity * 2) else t

/-! ## Where a walk gets to -/

/-- The start of the `k`-th window of the walk of `h`. -/
def windowAt (h : UInt64) (k : ℕ) : ℕ := (h.toNat + 32 * k) % t.capacity

/-- The `k`-th window has no `EMPTY` byte. -/
def Full (h : UInt64) (k : ℕ) : Prop := ∀ r < 32, t.control (t.windowAt h k + r) ≠ EMPTY

/-- The byte at `p` lies in the `k`-th window. -/
def InWindow (h : UInt64) (k p : ℕ) : Prop := t.windowAt h k ≤ p ∧ p < t.windowAt h k + 32

/-- The walk of `h` gets to the slot `i`: no window before one with `i` has an `EMPTY` byte. -/
def Reaches (h : UInt64) (i : ℕ) : Prop :=
  i < t.capacity ∧ ∃ k ≤ t.capacity, (∀ j < k, t.Full h j) ∧ t.InWindow h k i

/-- A byte that `emplace` may write. -/
def Free (p : ℕ) : Prop := t.control p = EMPTY ∨ t.control p = DELETED

/-- The capacity is a power of two and the padding is `EMPTY`. -/
structure Shape : Prop where
  pow : ∃ n, t.capacity = 2 ^ n
  pad : ∀ p, t.capacity ≤ p → t.control p = EMPTY

variable {t}

theorem firstInWindow_some {pos p : ℕ} {P : ℕ → Bool} (h : firstInWindow pos P = some p) :
    pos ≤ p ∧ p < pos + 32 ∧ P p ∧ ∀ q, pos ≤ q → q < p → P q = false := by
  rw [firstInWindow, List.find?_map, Option.map_eq_some_iff] at h
  obtain ⟨i, hi, rfl⟩ := h
  rw [List.find?_range_eq_some] at hi
  obtain ⟨hp, hmem, hfirst⟩ := hi
  rw [List.mem_range] at hmem
  refine ⟨by omega, by omega, hp, fun q hq hqp => ?_⟩
  have hj := hfirst (q - pos) (by omega)
  rw [Function.comp_apply, Nat.add_sub_cancel' hq] at hj
  simpa using hj

theorem firstInWindow_none {pos : ℕ} {P : ℕ → Bool} (h : firstInWindow pos P = none) {p : ℕ}
    (hp : pos ≤ p) (hp' : p < pos + 32) : P p = false := by
  rw [firstInWindow, List.find?_eq_none] at h
  have hmem : p ∈ (List.range 32).map (pos + ·) :=
    List.mem_map.mpr ⟨p - pos, List.mem_range.mpr (by omega), by omega⟩
  simpa using h p hmem

namespace Shape

theorem capacity_pos (hs : t.Shape) : 0 < t.capacity := by
  obtain ⟨n, hn⟩ := hs.pow
  rw [hn]
  exact Nat.two_pow_pos n

theorem slotOf_eq (hs : t.Shape) (p : ℕ) : t.slotOf p = p % t.capacity := by
  obtain ⟨n, hn⟩ := hs.pow
  rw [slotOf, hn, Nat.and_two_pow_sub_one_eq_mod]

theorem slotOf_of_lt (hs : t.Shape) {p : ℕ} (hp : p < t.capacity) : t.slotOf p = p := by
  rw [hs.slotOf_eq, Nat.mod_eq_of_lt hp]

theorem lt_of_ne_empty (hs : t.Shape) {p : ℕ} (hp : t.control p ≠ EMPTY) : p < t.capacity :=
  Nat.lt_of_not_le fun h => hp (hs.pad p h)

theorem windowAt_zero (hs : t.Shape) (h : UInt64) : t.slotOf h.toNat = t.windowAt h 0 := by
  rw [hs.slotOf_eq, windowAt, Nat.mul_zero, Nat.add_zero]

theorem windowAt_succ (hs : t.Shape) (h : UInt64) (k : ℕ) :
    t.slotOf (t.windowAt h k + 32) = t.windowAt h (k + 1) := by
  rw [hs.slotOf_eq, windowAt, windowAt, Nat.mod_add_mod, Nat.mul_add, Nat.mul_one, Nat.add_assoc]

end Shape

theorem not_full_of_empty {h : UInt64} {k p : ℕ} (hp : t.InWindow h k p)
    (he : t.control p = EMPTY) : ¬ t.Full h k := by
  intro hf
  apply hf (p - t.windowAt h k) (by have := hp.2; omega)
  rwa [Nat.add_sub_cancel' hp.1]

theorem Shape.full_le (hs : t.Shape) {h : UInt64} {k : ℕ} (hf : t.Full h k) :
    t.windowAt h k + 32 ≤ t.capacity := by
  by_contra hlt
  have hk : t.windowAt h k < t.capacity := Nat.mod_lt _ hs.capacity_pos
  exact not_full_of_empty ⟨hk.le, by omega⟩ (hs.pad _ le_rfl) hf

/-- The windows of a walk cover the table: some window among the first `capacity + 1` has an
    `EMPTY` byte. -/
theorem Shape.exists_not_full (hs : t.Shape) (h : UInt64)
    (he : 32 ≤ t.capacity → ∃ i < t.capacity, t.control i = EMPTY) :
    ∃ k ≤ t.capacity, ¬ t.Full h k := by
  by_contra hall
  push Not at hall
  have hle := fun k hk => hs.full_le (hall k hk)
  obtain ⟨i, hi, hempty⟩ := he (by have := hle 0 (Nat.zero_le _); omega)
  -- the window that starts at most 31 slots before `i`, going round
  set c := t.capacity
  set d := (i + (c - h.toNat % c)) % c with hd
  have hc : 0 < c := hs.capacity_pos
  have hdc : d < c := Nat.mod_lt _ hc
  have hk : d / 32 ≤ c := (Nat.div_le_self _ _).trans hdc.le
  have hwin : t.windowAt h (d / 32) + d % 32 = i := by
    have hsum : (t.windowAt h (d / 32) + d % 32) % c = i := by
      have hmod : h.toNat % c < c := Nat.mod_lt _ hc
      calc (t.windowAt h (d / 32) + d % 32) % c
          = (h.toNat + (32 * (d / 32) + d % 32)) % c := by
            rw [windowAt, Nat.mod_add_mod, Nat.add_assoc]
        _ = (h.toNat + d) % c := by rw [Nat.div_add_mod]
        _ = (h.toNat % c + (i + (c - h.toNat % c))) % c := by
            rw [hd, Nat.add_mod_mod, Nat.mod_add_mod]
        _ = (i + c) % c := by congr 1; omega
        _ = i := by rw [Nat.add_mod_right, Nat.mod_eq_of_lt hi]
    have hend := hle (d / 32) hk
    rwa [Nat.mod_eq_of_lt (by omega)] at hsum
  apply hall (d / 32) hk (d % 32) (Nat.mod_lt _ (by decide))
  rw [hwin, hempty]

/-! ## What the probe returns -/

variable {h : UInt64}

def Absent (t : StableHashMap Key Value) (key : Key) : Prop :=
  ∀ i < t.capacity, ∀ e, t.slots i = some e → e.key ≠ key

/-- The slot `i`, and no other, holds the node `e`. -/
structure HoldsOnly (t : StableHashMap Key Value) (i : ℕ) (e : HashNode Key Value) : Prop where
  slot : t.slots i = some e
  only : ∀ j < t.capacity, ∀ e', t.slots j = some e' → e'.key = e.key → j = i

/-- The free byte `p` where a probe without match ends, from window `k` on: the walk gets to
    it, and if it is one of the padding, the walk gets to no free slot. -/
structure EndsAt (t : StableHashMap Key Value) (h : UInt64) (k n s p : ℕ) : Prop where
  free : t.Free p
  slot : s = t.slotOf p
  reached : ∃ k' ≥ k, k' < k + n ∧ (∀ j, k ≤ j → j < k' → t.Full h j) ∧ t.InWindow h k' p
  real : p < t.capacity ∨ ∀ k' ≥ k, (∀ j, k ≤ j → j < k' → t.Full h j) →
    ∀ q < t.capacity, t.InWindow h k' q → ¬ t.Free q

theorem full_of_firstInWindow_none {k : ℕ}
    (hnone : firstInWindow (t.windowAt h k) (fun p => t.control p == EMPTY) = none) :
    t.Full h k := by
  intro r hr
  simpa using firstInWindow_none hnone (Nat.le_add_right _ r) (by omega)

theorem not_free_of_none {k q : ℕ} (hq : t.InWindow h k q) (hempty : t.control q ≠ EMPTY)
    (hnone : firstInWindow (t.windowAt h k) (fun p => t.control p == DELETED) = none) :
    ¬ t.Free q := by
  rintro (he | hd)
  · exact hempty he
  · have hmiss := firstInWindow_none hnone hq.1 hq.2
    simp [hd] at hmiss

theorem EndsAt.of_succ {k n s p : ℕ} (hfull : t.Full h k)
    (hnone : firstInWindow (t.windowAt h k) (fun p => t.control p == DELETED) = none)
    (hend : EndsAt t h (k + 1) n s p) : EndsAt t h k (n + 1) s p where
  free := hend.free
  slot := hend.slot
  reached := by
    obtain ⟨k', hk, hk', hf, hin⟩ := hend.reached
    refine ⟨k', by omega, by omega, fun j hj hj' => ?_, hin⟩
    obtain rfl | hlt := eq_or_lt_of_le hj
    · exact hfull
    · exact hf j hlt hj'
  real := by
    refine hend.real.imp_right fun hno k' hk' hf q hq hin => ?_
    obtain rfl | hlt := eq_or_lt_of_le hk'
    · refine not_free_of_none hin (fun he => not_full_of_empty hin he hfull) hnone
    · exact hno k' hlt (fun j hj hj' => hf j (by omega) hj') q hq hin

section

variable [DecidableEq Key] {key : Key} {fp : UInt8}

theorem hits_iff {p : ℕ} : t.hits key h fp p ↔
    t.control p = fp ∧ ∃ e, t.slots (t.slotOf p) = some e ∧ e.fullHash = h ∧ e.key = key := by
  cases hslot : t.slots (t.slotOf p) <;> simp [hits, hslot]

theorem probeFrom_found (hs : t.Shape) {i : ℕ} {e : HashNode Key Value} (hi : t.HoldsOnly i e)
    (hfp : t.control i ≠ EMPTY) {k' : ℕ} (hin : t.InWindow e.fullHash k' i) :
    ∀ {n k : ℕ} {tomb : Option ℕ}, k ≤ k' → k' < k + n → (∀ j, k ≤ j → j < k' → t.Full e.fullHash j) →
      t.probeFrom e.key e.fullHash (t.control i) n (t.windowAt e.fullHash k) tomb =
        some (.found e i) := by
  have hcap : i < t.capacity := hs.lt_of_ne_empty hfp
  intro n
  induction n with
  | zero => intro k tomb hk hk'; omega
  | succ n ih =>
    intro k tomb hk hk' hfull
    rw [probeFrom]
    split
    · -- a match in this window is the node: no other slot has its key
      rename_i p hp
      obtain ⟨-, -, hhit, -⟩ := firstInWindow_some hp
      obtain ⟨hc, e', he', -, hkey⟩ := hits_iff.mp hhit
      have hpc : p < t.capacity := hs.lt_of_ne_empty (hc ▸ hfp)
      rw [hs.slotOf_of_lt hpc] at he' ⊢
      have hpi : p = i := hi.only p hpc e' he' hkey
      rw [hpi, hi.slot]
      rfl
    · rename_i hnone
      have hne : k ≠ k' := by
        rintro rfl
        have hmiss := firstInWindow_none hnone hin.1 hin.2
        have hhit : t.hits e.key e.fullHash (t.control i) i :=
          hits_iff.mpr ⟨rfl, e, by rw [hs.slotOf_of_lt hcap, hi.slot], rfl, rfl⟩
        rw [hhit] at hmiss
        cases hmiss
      have hf := hfull k le_rfl (by omega)
      split
      · rename_i p hp
        obtain ⟨hp1, hp2, hempty, -⟩ := firstInWindow_some hp
        exact absurd hf (not_full_of_empty ⟨hp1, hp2⟩ (by simpa using hempty))
      · rw [hs.windowAt_succ]
        exact ih (by omega) (by omega) fun j hj hj' => hfull j (by omega) hj'

/-- **A key is found where its walk reaches it.** -/
theorem probe_of_reaches (hs : t.Shape) {i : ℕ} {e : HashNode Key Value} (hi : t.HoldsOnly i e)
    (hfp : t.control i = fingerprint e.fullHash) (hne : t.control i ≠ EMPTY)
    (hr : t.Reaches e.fullHash i) :
    t.probe e.key e.fullHash (fingerprint e.fullHash) = some (.found e i) := by
  obtain ⟨-, k, hk, hfull, hin⟩ := hr
  rw [probe, hs.windowAt_zero, ← hfp]
  exact probeFrom_found hs hi hne hin (Nat.zero_le k) (by omega) fun j _ hj => hfull j hj

theorem not_hits (hs : t.Shape) (habs : t.Absent key) (p : ℕ) : t.hits key h fp p = false := by
  by_contra hhit
  rw [Bool.not_eq_false] at hhit
  obtain ⟨-, e, he, -, hkey⟩ := hits_iff.mp hhit
  refine habs (t.slotOf p) ?_ e he hkey
  rw [hs.slotOf_eq]
  exact Nat.mod_lt _ hs.capacity_pos

theorem firstInWindow_hits (hs : t.Shape) (habs : t.Absent key) (pos : ℕ) :
    firstInWindow pos (t.hits key h fp) = none := by
  rw [firstInWindow, List.find?_eq_none]
  intro p _
  simp [not_hits hs habs p]

theorem probeFrom_tombstone (hs : t.Shape) (habs : t.Absent key) {s : ℕ} :
    ∀ {n pos : ℕ} {r : ProbeResult Key Value},
      t.probeFrom key h fp n pos (some s) = some r → r = .missing s := by
  intro n
  induction n with
  | zero => intro pos r hr; cases hr
  | succ n ih =>
    intro pos r hr
    rw [probeFrom, firstInWindow_hits hs habs] at hr
    dsimp only [Option.or] at hr
    split at hr
    · cases hr
      rfl
    · exact ih hr

theorem probeFrom_absent (hs : t.Shape) (habs : t.Absent key) :
    ∀ {n k : ℕ} {r : ProbeResult Key Value},
      t.probeFrom key h fp n (t.windowAt h k) none = some r →
      ∃ s p, r = .missing s ∧ EndsAt t h k n s p := by
  intro n
  induction n with
  | zero => intro k r hr; cases hr
  | succ n ih =>
    intro k r hr
    rw [probeFrom, firstInWindow_hits hs habs] at hr
    dsimp only at hr
    cases hdel : firstInWindow (t.windowAt h k) fun p => t.control p == DELETED with
    | some d =>
      -- the first tombstone is the insert slot, whatever the windows after it show
      obtain ⟨hd1, hd2, hd, -⟩ := firstInWindow_some hdel
      have hd : t.control d = DELETED := by simpa using hd
      have hmiss : r = .missing (t.slotOf d) := by
        rw [hdel] at hr
        dsimp only [Option.map, Option.or] at hr
        split at hr
        · cases hr
          rfl
        · exact probeFrom_tombstone hs habs hr
      refine ⟨t.slotOf d, d, hmiss, .inr hd, rfl, ⟨k, le_rfl, by omega, ?_, hd1, hd2⟩, .inl ?_⟩
      · intro j hj hj'
        omega
      · apply hs.lt_of_ne_empty
        rw [hd]
        decide
    | none =>
      rw [hdel] at hr
      dsimp only [Option.map, Option.or] at hr
      split at hr
      · rename_i p hp
        obtain ⟨hp1, hp2, hempty, hfirst⟩ := firstInWindow_some hp
        have hempty : t.control p = EMPTY := by simpa using hempty
        cases hr
        refine ⟨t.slotOf p, p, rfl, .inl hempty, rfl, ⟨k, le_rfl, by omega, ?_, hp1, hp2⟩, ?_⟩
        · intro j hj hj'
          omega
        · refine (Nat.lt_or_ge p t.capacity).imp_right fun hpad k' hk' hf q hq hin => ?_
          obtain rfl | hlt := eq_or_lt_of_le hk'
          · have hqe : t.control q ≠ EMPTY := by simpa using hfirst q hin.1 (by omega)
            exact not_free_of_none hin hqe hdel
          · exact absurd (hf k le_rfl hlt) (not_full_of_empty ⟨hp1, hp2⟩ hempty)
      · rename_i hnone
        rw [hs.windowAt_succ] at hr
        obtain ⟨s, p, hmiss, hend⟩ := ih hr
        exact ⟨s, p, hmiss, hend.of_succ (full_of_firstInWindow_none hnone) hdel⟩

/-- **Without the key, the probe ends at a free byte that the walk gets to**: at a slot, if
    the walk gets to a free one. -/
theorem probe_of_absent (hs : t.Shape) (habs : t.Absent key) {r : ProbeResult Key Value}
    (hr : t.probe key h fp = some r) :
    ∃ s, r = .missing s ∧ s < t.capacity ∧
      ((∃ i, t.Reaches h i ∧ t.Free i) → t.Reaches h s ∧ t.Free s) := by
  rw [probe, hs.windowAt_zero] at hr
  obtain ⟨s, p, rfl, hend⟩ := probeFrom_absent hs habs hr
  refine ⟨s, rfl, ?_, ?_⟩
  · rw [hend.slot, hs.slotOf_eq]
    exact Nat.mod_lt _ hs.capacity_pos
  · rintro ⟨i, ⟨hi, k, -, hfull, hin⟩, hfree⟩
    have hp : p < t.capacity := by
      refine hend.real.resolve_right fun hno => ?_
      exact hno k (Nat.zero_le k) (fun j _ hj => hfull j hj) i hi hin hfree
    have hsp : s = p := by rw [hend.slot, hs.slotOf_of_lt hp]
    subst hsp
    obtain ⟨k', -, hk', hfull', hin'⟩ := hend.reached
    exact ⟨⟨hp, k', by omega, fun j hj => hfull' j (Nat.zero_le j) hj, hin'⟩, hend.free⟩

theorem probeFrom_isSome (hs : t.Shape) {k' : ℕ} (hk' : ¬ t.Full h k') :
    ∀ {n k : ℕ} {tomb : Option ℕ}, k ≤ k' → k' < k + n →
      (t.probeFrom key h fp n (t.windowAt h k) tomb).isSome := by
  intro n
  induction n with
  | zero => intro k tomb hk hlt; omega
  | succ n ih =>
    intro k tomb hk hlt
    rw [probeFrom]
    split
    · rename_i p hp
      obtain ⟨-, -, hhit, -⟩ := firstInWindow_some hp
      obtain ⟨-, e, he, -⟩ := hits_iff.mp hhit
      simp [he]
    · split
      · rfl
      · rename_i hnone
        have hne : k ≠ k' := by
          rintro rfl
          exact hk' (full_of_firstInWindow_none hnone)
        rw [hs.windowAt_succ]
        exact ih (by omega) (by omega)

/-- **The probe ends** if some slot is `EMPTY` or every window reaches the padding. -/
theorem probe_isSome (hs : t.Shape) (he : 32 ≤ t.capacity → ∃ i < t.capacity, t.control i = EMPTY)
    (key : Key) (h : UInt64) (fp : UInt8) : (t.probe key h fp).isSome := by
  obtain ⟨k, hk, hnot⟩ := hs.exists_not_full h he
  rw [probe, hs.windowAt_zero]
  exact probeFrom_isSome hs hnot (Nat.zero_le k) (by omega)

end

/-! ## The operations -/

/-- The constructor: the smallest power of two that is at least 8 and `initialCapacity`. -/
def init (initialCapacity : ℕ) : StableHashMap Key Value :=
  ofCapacity (2 ^ Nat.clog 2 (max initialCapacity 8)) 0

/-- An iterator: the slot array it was made for and an index in it. -/
structure Iter where
  slotsId : ℕ
  idx : ℕ
  deriving DecidableEq, Repr

/-- `end()`. -/
def endIter : Iter := ⟨t.slotsId, t.capacity⟩

def size : ℕ := t.numLive

/-- Store a node with the fingerprint `fp` in slot `i`. -/
def put (i : ℕ) (node : HashNode Key Value) (fp : UInt8) : StableHashMap Key Value :=
  { t with
    slots := Function.update t.slots i (some node)
    control := Function.update t.control i fp }

/-- Free slot `i`: the tail of both `erase` functions. -/
def remove (i : ℕ) : StableHashMap Key Value :=
  { t with
    slots := Function.update t.slots i none
    control := Function.update t.control i DELETED
    numLive := t.numLive - 1 }

/-- `erase(Iterator)`. -/
def eraseAt (it : Iter) : StableHashMap Key Value :=
  if it = t.endIter then t
  else if (t.slots it.idx).isSome then t.remove it.idx
  else t

def reserve (n : ℕ) : StableHashMap Key Value :=
  if n > t.numLive then t.rehash (SingleFloat.truncDiv (8 * SingleFloat.truncDiv n 1) 7 + 1) else t

def clear : StableHashMap Key Value :=
  { t with
    control := fun i => if i < t.capacity then EMPTY else t.control i
    slots := fun i =>
      if i < t.capacity ∧ t.control i ≠ EMPTY ∧ t.control i ≠ DELETED then none else t.slots i
    numLive := 0
    numFilled := 0 }

section

variable [DecidableEq Key] (hashFn : Key → UInt64)

/-- `emplace`.  The insert slot is that of the probe before the rehash. -/
def emplace (key : Key) (value : Value) : Option (StableHashMap Key Value) :=
  let hash := hashFn key
  let fp := fingerprint hash
  (t.probe key hash fp).map fun
    | .found node slot =>
      { t with slots := Function.update t.slots slot (some { node with value }) }
    | .missing insertSlot =>
      let t' := t.rehashIfNeeded
      { t'.put insertSlot ⟨key, value, hash⟩ fp with
        numLive := t'.numLive + 1, numFilled := t'.numFilled + 1 }

/-- `find`: the value of the element found, `some none` for `end()`. -/
def find (key : Key) : Option (Option Value) :=
  (t.probe key (hashFn key) (fingerprint (hashFn key))).map fun
    | .found node _ => some node.value
    | .missing _ => none

/-- `operator[]`, which emplaces `Value{}` for a key it does not find. -/
def subscript [Inhabited Value] (key : Key) : Option (StableHashMap Key Value) :=
  (t.find hashFn key).bind fun
    | some _ => some t
    | none => t.emplace hashFn key default

/-- `erase(const Key&)`. -/
def erase (key : Key) : Option (StableHashMap Key Value) :=
  (t.probe key (hashFn key) (fingerprint (hashFn key))).map fun
    | .found _ slot => t.remove slot
    | .missing _ => t

end

end StableHashMap

end VirtualRouter
