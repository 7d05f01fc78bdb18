/-
  `StableHashMap` against a finite map, over whole runs.

  `Op` is an operation and `step` its effect; `replay` is the finite map the
  operations describe, in which `emplace` overwrites and `operator[]` keeps or
  puts `Value{}`.  `Refines` connects the two: the table is `Sound` (each node
  is where the walk of its hash gets to), its counters bound its used bytes,
  and its nodes are the entries of the map.

  The code breaks the refinement in four ways: an insert slot taken from the
  padding, an insert slot kept across a rehash, nodes inserted again with
  another fingerprint or behind the end of the array, and iterators kept across
  a rehash.  `OpOk` is the state before an operation in which none of them
  happens.

  * `Refines.step`: such an operation keeps `Refines`;
  * `refines_run`: in every run of such operations `find` and `size` are those of
    the replayed map;
  * `not_refines_collision`: two keys that share the last slot of a table of 8.
-/
import VirtualRouter.Types.StableHashMap

namespace VirtualRouter.StableHashMap

open Run

variable {Key Value : Type*}

/-! ## Fingerprints -/

theorem toNat_and_127 (x : UInt64) : (x &&& 0x7F).toUInt8.toNat < 128 := by
  rw [UInt64.toNat_toUInt8, UInt64.toNat_and]
  have hle : x.toNat &&& (0x7F : UInt64).toNat ≤ 127 := Nat.and_le_right
  omega

theorem ne_marker_of_lt {c : UInt8} (h : c.toNat < 128) : c ≠ EMPTY ∧ c ≠ DELETED := by
  constructor <;> rintro rfl <;> revert h <;> decide

theorem fingerprint_ne (h : UInt64) : fingerprint h ≠ EMPTY ∧ fingerprint h ≠ DELETED :=
  ne_marker_of_lt (toNat_and_127 _)

theorem rehashFingerprint_eq {h : UInt64} (h40 : h >>> 40 &&& 0x7F = 0) :
    rehashFingerprint h = fingerprint h := by
  have hdistrib : (h >>> 57 ^^^ h >>> 40) &&& (0x7F : UInt64) =
      (h >>> 57 &&& (0x7F : UInt64)) ^^^ (h >>> 40 &&& (0x7F : UInt64)) := by
    apply UInt64.toBitVec_inj.mp
    ext i hi
    simp [Bool.and_xor_distrib_right]
  rw [rehashFingerprint, fingerprint, hdistrib, h40, UInt64.xor_zero]

/-! ## Sound tables -/

/-- Every node sits where the walk of its hash gets to, under its fingerprint; no key has two
    nodes, and the other slots are free. -/
structure Sound (hashFn : Key → UInt64) (t : StableHashMap Key Value) : Prop where
  shape : t.Shape
  bound : ∀ i e, t.slots i = some e → i < t.capacity
  hash : ∀ i e, t.slots i = some e → e.fullHash = hashFn e.key
  print : ∀ i e, t.slots i = some e → t.control i = fingerprint e.fullHash
  free : ∀ i, t.slots i = none → t.Free i
  unique : ∀ i j e e', t.slots i = some e → t.slots j = some e' → e.key = e'.key → i = j
  reach : ∀ i e, t.slots i = some e → t.Reaches e.fullHash i

variable {hashFn : Key → UInt64} {t t' : StableHashMap Key Value} {e : HashNode Key Value} {i : ℕ}

/-- A walk does not lose a slot when bytes other than `EMPTY` are written. -/
theorem Reaches.mono {h : UInt64} (hr : t.Reaches h i) (hcap : t'.capacity = t.capacity)
    (hc : ∀ p, t'.control p = EMPTY → t.control p = EMPTY) : t'.Reaches h i := by
  obtain ⟨hi, k, hk, hfull, hin⟩ := hr
  have hwin : ∀ j, t'.windowAt h j = t.windowAt h j := fun j => by rw [windowAt, windowAt, hcap]
  refine ⟨hcap ▸ hi, k, hcap ▸ hk, fun j hj r hr he => ?_, ?_⟩
  · rw [hwin] at he
    exact hfull j hj r hr (hc _ he)
  · rw [InWindow, hwin]
    exact hin

namespace Sound

theorem of_eq (hs : Sound hashFn t) (hc : t'.control = t.control) (hsl : t'.slots = t.slots)
    (hcap : t'.capacity = t.capacity) : Sound hashFn t' := by
  obtain ⟨c, s, l, f, cap, id⟩ := t
  obtain ⟨c', s', l', f', cap', id'⟩ := t'
  cases hc
  cases hsl
  cases hcap
  exact ⟨⟨hs.shape.pow, hs.shape.pad⟩, hs.bound, hs.hash, hs.print, hs.free, hs.unique, hs.reach⟩

theorem used (hs : Sound hashFn t) (he : t.slots i = some e) :
    t.control i ≠ EMPTY ∧ t.control i ≠ DELETED := by
  rw [hs.print i e he]
  exact fingerprint_ne _

theorem slot_of_free (hs : Sound hashFn t) (hf : t.Free i) : t.slots i = none := by
  cases hslot : t.slots i with
  | none => rfl
  | some e =>
    obtain ⟨h1, h2⟩ := hs.used hslot
    exact absurd hf (not_or.mpr ⟨h1, h2⟩)

theorem holdsOnly (hs : Sound hashFn t) (he : t.slots i = some e) : t.HoldsOnly i e :=
  ⟨he, fun j _ e' he' hkey => hs.unique j i e' e he' he hkey⟩

/-- A node stored in a free slot its walk gets to. -/
theorem put (hs : Sound hashFn t) (habs : t.Absent e.key) (hhash : e.fullHash = hashFn e.key)
    (hr : t.Reaches e.fullHash i) (hf : t.Free i) :
    Sound hashFn (t.put i e (fingerprint e.fullHash)) := by
  have hmono : ∀ p, (t.put i e (fingerprint e.fullHash)).control p = EMPTY → t.control p = EMPTY := by
    intro p hp
    by_cases hpi : p = i
    · simp [StableHashMap.put, hpi, (fingerprint_ne _).1] at hp
    · simpa [StableHashMap.put, hpi] using hp
  have hcases : ∀ j e', (t.put i e (fingerprint e.fullHash)).slots j = some e' →
      j = i ∧ e' = e ∨ j ≠ i ∧ t.slots j = some e' := by
    intro j e' he'
    by_cases hji : j = i
    · subst hji
      simp only [StableHashMap.put, Function.update_self, Option.some.injEq] at he'
      exact .inl ⟨rfl, he'.symm⟩
    · simp only [StableHashMap.put, Function.update_of_ne hji] at he'
      exact .inr ⟨hji, he'⟩
  constructor
  · refine ⟨hs.shape.pow, fun p hp => ?_⟩
    have hpi : p ≠ i := by
      rintro rfl
      exact absurd hr.1 (Nat.not_lt.mpr hp)
    simpa [StableHashMap.put, hpi] using hs.shape.pad p hp
  · intro j e' he'
    obtain ⟨rfl, rfl⟩ | ⟨-, he'⟩ := hcases j e' he'
    · exact hr.1
    · exact hs.bound j e' he'
  · intro j e' he'
    obtain ⟨rfl, rfl⟩ | ⟨-, he'⟩ := hcases j e' he'
    · exact hhash
    · exact hs.hash j e' he'
  · intro j e' he'
    obtain ⟨rfl, rfl⟩ | ⟨hji, he'⟩ := hcases j e' he'
    · simp [StableHashMap.put]
    · simpa [StableHashMap.put, hji] using hs.print j e' he'
  · intro j hj
    by_cases hji : j = i
    · simp [StableHashMap.put, hji] at hj
    · simp only [StableHashMap.put, Function.update_of_ne hji] at hj
      simpa [StableHashMap.put, Free, hji] using hs.free j hj
  · intro j j' e₁ e₂ h₁ h₂ hkey
    obtain ⟨hj, he₁⟩ | ⟨-, h₁⟩ := hcases j e₁ h₁ <;>
      obtain ⟨hj', he₂⟩ | ⟨-, h₂⟩ := hcases j' e₂ h₂
    · rw [hj, hj']
    · exact absurd (he₁ ▸ hkey.symm) (habs j' (hs.bound j' e₂ h₂) e₂ h₂)
    · exact absurd (he₂ ▸ hkey) (habs j (hs.bound j e₁ h₁) e₁ h₁)
    · exact hs.unique j j' e₁ e₂ h₁ h₂ hkey
  · intro j e' he'
    obtain ⟨rfl, rfl⟩ | ⟨-, he'⟩ := hcases j e' he'
    · exact hr.mono rfl hmono
    · exact (hs.reach j e' he').mono rfl hmono

theorem remove (hs : Sound hashFn t) (hi : i < t.capacity) : Sound hashFn (t.remove i) := by
  have hmono : ∀ p, (t.remove i).control p = EMPTY → t.control p = EMPTY := by
    intro p hp
    by_cases hpi : p = i
    · simp [StableHashMap.remove, hpi, EMPTY, DELETED] at hp
    · simpa [StableHashMap.remove, hpi] using hp
  have hcases : ∀ j e', (t.remove i).slots j = some e' → j ≠ i ∧ t.slots j = some e' := by
    intro j e' he'
    by_cases hji : j = i
    · simp [StableHashMap.remove, hji] at he'
    · simp only [StableHashMap.remove, Function.update_of_ne hji] at he'
      exact ⟨hji, he'⟩
  constructor
  · refine ⟨hs.shape.pow, fun p hp => ?_⟩
    have hpi : p ≠ i := by
      rintro rfl
      exact absurd hi (Nat.not_lt.mpr hp)
    simpa [StableHashMap.remove, hpi] using hs.shape.pad p hp
  · exact fun j e' he' => hs.bound j e' (hcases j e' he').2
  · exact fun j e' he' => hs.hash j e' (hcases j e' he').2
  · intro j e' he'
    obtain ⟨hji, he'⟩ := hcases j e' he'
    simpa [StableHashMap.remove, hji] using hs.print j e' he'
  · intro j hj
    by_cases hji : j = i
    · exact .inr (by simp [StableHashMap.remove, hji])
    · simp only [StableHashMap.remove, Function.update_of_ne hji] at hj
      simpa [StableHashMap.remove, Free, hji] using hs.free j hj
  · exact fun j j' e₁ e₂ h₁ h₂ hkey => hs.unique j j' e₁ e₂ (hcases j e₁ h₁).2 (hcases j' e₂ h₂).2 hkey
  · exact fun j e' he' => (hs.reach j e' (hcases j e' he').2).mono rfl hmono

end Sound

/-! ## Rehashing -/

/-- The slots with a byte other than `EMPTY`. -/
def used (t : StableHashMap Key Value) : Finset ℕ :=
  (Finset.range t.capacity).filter fun i => t.control i ≠ EMPTY

theorem mem_used : i ∈ t.used ↔ i < t.capacity ∧ t.control i ≠ EMPTY := by
  rw [used, Finset.mem_filter, Finset.mem_range]

theorem exists_empty (h : t.used.card < t.capacity) : ∃ i < t.capacity, t.control i = EMPTY := by
  by_contra hall
  push Not at hall
  have heq : t.used = Finset.range t.capacity :=
    Finset.filter_true_of_mem fun i hi => hall i (Finset.mem_range.mp hi)
  rw [heq, Finset.card_range] at h
  exact lt_irrefl _ h

theorem card_used_le {c : UInt8} (hcap : t'.capacity = t.capacity)
    (hc : t'.control = Function.update t.control i c) : t'.used.card ≤ t.used.card + 1 := by
  refine (Finset.card_le_card fun j hj => ?_).trans (Finset.card_insert_le i t.used)
  rw [mem_used, hcap, hc] at hj
  rw [Finset.mem_insert, mem_used]
  by_cases hji : j = i
  · exact .inl hji
  · rw [Function.update_of_ne hji] at hj
    exact .inr hj

/-- The node `e` can be inserted again: bits 40 to 46 of its hash are zero, and there is an
    `EMPTY` slot from its home slot to the end of the array, or its home slot is a multiple of
    32, where the windows go round as `insertIntoTable` does. -/
def PlaceOk (t : StableHashMap Key Value) (e : HashNode Key Value) : Prop :=
  e.fullHash >>> 40 &&& 0x7F = 0 ∧
    ((∃ p < t.capacity, t.slotOf e.fullHash.toNat ≤ p ∧ t.control p = EMPTY) ∨
      32 ≤ t.capacity ∧ t.slotOf e.fullHash.toNat % 32 = 0)

theorem Shape.reaches_linear (hs : t.Shape) {h : UInt64} (hi : i < t.capacity)
    (hfirst : ∀ j < i, t.control (t.slotOf (t.slotOf h.toNat + j)) ≠ EMPTY)
    (halign : ∀ k r, r < 32 → 32 * k + r ≤ i →
      t.windowAt h k + r = t.slotOf (t.slotOf h.toNat + (32 * k + r))) :
    t.Reaches h (t.slotOf (t.slotOf h.toNat + i)) := by
  have hlt : i % 32 < 32 := Nat.mod_lt _ (by decide)
  refine ⟨?_, i / 32, (Nat.div_le_self _ _).trans hi.le, fun j hj r hr => ?_, ?_⟩
  · rw [hs.slotOf_eq]
    exact Nat.mod_lt _ hs.capacity_pos
  · rw [halign j r hr (by omega)]
    exact hfirst _ (by omega)
  · have hin := halign (i / 32) (i % 32) hlt (by omega)
    rw [Nat.div_add_mod] at hin
    rw [InWindow, ← hin]
    omega

theorem Shape.windowAt_home (hs : t.Shape) (h : UInt64) (k : ℕ) :
    t.windowAt h k = (t.slotOf h.toNat + 32 * k) % t.capacity := by
  rw [windowAt, hs.slotOf_eq, Nat.mod_add_mod]

/-- **`insertIntoTable`** puts such a node in an `EMPTY` slot that its walk gets to. -/
theorem Sound.insertIntoTable (hs : Sound hashFn t)
    (hroom : ∃ q < t.capacity, t.control q = EMPTY) (hok : t.PlaceOk e) :
    ∃ p, t.insertIntoTable e = t.put p e (fingerprint e.fullHash) ∧
      t.Reaches e.fullHash p ∧ t.control p = EMPTY := by
  have hsh := hs.shape
  set c := t.capacity with hc
  set home := t.slotOf e.fullHash.toNat with hhome
  have hcpos : 0 < c := hsh.capacity_pos
  have hhomelt : home < c := by
    rw [hhome, hsh.slotOf_eq]
    exact Nat.mod_lt _ hcpos
  rw [StableHashMap.insertIntoTable]
  simp only [List.find?_map, ← hc, ← hhome]
  cases hfind : (List.range c).find?
      ((fun p => t.control p == EMPTY) ∘ fun i => t.slotOf (home + i)) with
  | none =>
    -- every slot is some number of steps behind the home slot
    exfalso
    obtain ⟨q, hq, hempty⟩ := hroom
    rw [List.find?_eq_none] at hfind
    have hmem : (q + (c - home)) % c ∈ List.range c := List.mem_range.mpr (Nat.mod_lt _ hcpos)
    apply hfind _ hmem
    have hslot : t.slotOf (home + (q + (c - home)) % c) = q := by
      rw [hsh.slotOf_eq, ← hc, Nat.add_mod_mod, show home + (q + (c - home)) = q + c by omega,
        Nat.add_mod_right, Nat.mod_eq_of_lt hq]
    simp [hslot, hempty]
  | some i =>
    rw [List.find?_range_eq_some] at hfind
    obtain ⟨hempty, hi, hfirst⟩ := hfind
    rw [List.mem_range] at hi
    have hempty : t.control (t.slotOf (home + i)) = EMPTY := by simpa using hempty
    have hfirst : ∀ j < i, t.control (t.slotOf (home + j)) ≠ EMPTY := by
      intro j hj
      simpa using hfirst j hj
    refine ⟨t.slotOf (home + i), ?_, hsh.reaches_linear hi hfirst ?_, hempty⟩
    · simp [StableHashMap.put, rehashFingerprint_eq hok.1, hc]
    · intro k r hr hle
      rw [hsh.windowAt_home, ← hhome, hsh.slotOf_eq, ← hc]
      obtain ⟨q, hq, hqhome, hqe⟩ | ⟨hc32, hh32⟩ := hok.2
      · have hiq : i ≤ q - home := by
          by_contra hlt
          apply hfirst (q - home) (by omega)
          rw [Nat.add_sub_cancel' hqhome, hsh.slotOf_of_lt hq, hqe]
        rw [Nat.mod_eq_of_lt (by omega), Nat.mod_eq_of_lt (by omega)]
        omega
      · have h32 : 32 ∣ c := by
          obtain ⟨n, hn⟩ := hsh.pow
          rw [← hc] at hn
          rw [← hc, hn] at hc32
          rw [hn]
          have hn5 : 5 ≤ n := (Nat.pow_le_pow_iff_right (a := 2) (by decide)).mp hc32
          exact pow_dvd_pow 2 hn5
        -- both sides of a window boundary are multiples of 32
        have hmod : (home + 32 * k) % c % 32 = 0 := by
          rw [← hhome] at hh32
          rw [Nat.mod_mod_of_dvd _ h32]
          omega
        have hlt : (home + 32 * k) % c < c := Nat.mod_lt _ hcpos
        calc (home + 32 * k) % c + r = ((home + 32 * k) % c + r) % c :=
              (Nat.mod_eq_of_lt (by omega)).symm
          _ = (home + (32 * k + r)) % c := by rw [Nat.mod_add_mod, Nat.add_assoc]

/-- **The rehash loop**: nodes of distinct new keys, each of which can be inserted when its
    turn comes, are all in the table afterwards. -/
theorem Sound.insertAll {l : List (HashNode Key Value)} :
    ∀ {t : StableHashMap Key Value}, Sound hashFn t → (∀ e ∈ l, e.fullHash = hashFn e.key) →
      (l.map (·.key)).Nodup → (∀ e ∈ l, t.Absent e.key) → t.used.card + l.length ≤ t.capacity →
      Along PlaceOk StableHashMap.insertIntoTable t l →
      let t' := runFrom StableHashMap.insertIntoTable t l
      Sound hashFn t' ∧ t'.capacity = t.capacity ∧ t'.used.card ≤ t.used.card + l.length ∧
        ∀ e, (∃ i, t'.slots i = some e) ↔ (∃ i, t.slots i = some e) ∨ e ∈ l := by
  induction l with
  | nil =>
    intro t hs _ _ _ _ _
    exact ⟨hs, rfl, le_rfl, by simp⟩
  | cons e l ih =>
    intro t hs hhash hnodup habs hcard halong
    obtain ⟨hok, halong⟩ := halong
    rw [List.length_cons] at hcard
    obtain ⟨p, hp, hreach, hempty⟩ :=
      hs.insertIntoTable (exists_empty (by omega)) hok
    rw [hp] at halong
    have hs' := hs.put (habs e (by simp)) (hhash e (by simp)) hreach (.inl hempty)
    have hused : (t.put p e (fingerprint e.fullHash)).used.card ≤ t.used.card + 1 :=
      card_used_le rfl rfl
    rw [List.map_cons, List.nodup_cons] at hnodup
    have hslots : ∀ e', (∃ i, (t.put p e (fingerprint e.fullHash)).slots i = some e') ↔
        e' = e ∨ ∃ i, t.slots i = some e' := by
      intro e'
      have hpnone := hs.slot_of_free (.inl hempty)
      constructor
      · rintro ⟨i, hi⟩
        by_cases hip : i = p
        · simp only [StableHashMap.put, hip, Function.update_self, Option.some.injEq] at hi
          exact .inl hi.symm
        · simp only [StableHashMap.put, Function.update_of_ne hip] at hi
          exact .inr ⟨i, hi⟩
      · rintro (rfl | ⟨i, hi⟩)
        · exact ⟨p, by simp [StableHashMap.put]⟩
        · have hip : i ≠ p := by
            rintro rfl
            rw [hpnone] at hi
            cases hi
          exact ⟨i, by simpa [StableHashMap.put, hip] using hi⟩
    have habs' : ∀ e' ∈ l, (t.put p e (fingerprint e.fullHash)).Absent e'.key := by
      intro e' he' i hi e'' he''
      obtain rfl | ⟨j, hj⟩ := (hslots e'').mp ⟨i, he''⟩
      · rintro hkey
        exact hnodup.1 (hkey ▸ List.mem_map_of_mem he')
      · exact habs e' (by simp [he']) j (hs.bound j e'' hj) e'' hj
    have hcard' : (t.put p e (fingerprint e.fullHash)).used.card + l.length ≤ t.capacity := by
      omega
    obtain ⟨h1, h2, h3, h4⟩ :=
      ih hs' (fun e' he' => hhash e' (by simp [he'])) hnodup.2 habs' hcard' halong
    rw [runFrom_cons, hp]
    refine ⟨h1, h2, ?_, fun e' => ?_⟩
    · rw [List.length_cons]
      omega
    · rw [h4, hslots, List.mem_cons]
      tauto

theorem sound_ofCapacity {cap : ℕ} (hcap : ∃ n, cap = 2 ^ n) (id : ℕ) :
    Sound hashFn (ofCapacity cap id : StableHashMap Key Value) := by
  constructor
  · exact ⟨hcap, fun _ _ => rfl⟩
  all_goals simp [ofCapacity, Free]

theorem used_ofCapacity (cap id : ℕ) : (ofCapacity cap id : StableHashMap Key Value).used = ∅ := by
  simp [used, ofCapacity]

theorem eq_two_pow_of_and_eq_zero {n : ℕ} (hn : 0 < n) (h : n &&& (n - 1) = 0) :
    n = 2 ^ Nat.log2 n := by
  by_contra hne
  have hlo := Nat.log2_self_le hn.ne'
  have hhi := @Nat.lt_log2_self n
  set e := Nat.log2 n
  rw [pow_succ] at hhi
  have hbit : ∀ m, 2 ^ e ≤ m → m < 2 ^ e * 2 → m.testBit e = true := by
    intro m h1 h2
    have hdiv : m / 2 ^ e = 1 := by
      rw [Nat.div_eq_iff (Nat.two_pow_pos e)]
      omega
    rw [Nat.testBit_eq_decide_div_mod_eq, hdiv]
    rfl
  have hand : (n &&& (n - 1)).testBit e = true := by
    rw [Nat.testBit_and, hbit n hlo (by omega), hbit (n - 1) (by omega) (by omega), Bool.and_self]
  rw [h, Nat.zero_testBit] at hand
  cases hand

theorem le_roundedCap (t : StableHashMap Key Value) (n : ℕ) : n ≤ t.roundedCap n := by
  unfold roundedCap
  set c := if n < t.numLive then t.numLive else n
  have hc : n ≤ c := by
    unfold c
    split <;> omega
  dsimp only
  split
  · exact hc.trans (Nat.lt_log2_self).le
  · exact hc

theorem roundedCap_pow (t : StableHashMap Key Value) {n : ℕ} (hn : 0 < n) :
    ∃ k, t.roundedCap n = 2 ^ k := by
  unfold roundedCap
  set c := if n < t.numLive then t.numLive else n
  have hc : 0 < c := by
    unfold c
    split <;> omega
  dsimp only
  split
  · exact ⟨_, rfl⟩
  · rename_i h
    rw [not_not] at h
    exact ⟨_, eq_two_pow_of_and_eq_zero hc h⟩

theorem Sound.mem_liveNodes (hs : Sound hashFn t) :
    e ∈ t.liveNodes ↔ ∃ i, t.slots i = some e := by
  rw [liveNodes, List.mem_filterMap]
  constructor
  · rintro ⟨i, -, hi⟩
    split at hi
    · exact ⟨i, hi⟩
    · cases hi
  · rintro ⟨i, hi⟩
    refine ⟨i, List.mem_range.mpr (hs.bound i e hi), ?_⟩
    rw [if_pos (hs.used hi), hi]

theorem Sound.nodup_liveNodes (hs : Sound hashFn t) : (t.liveNodes.map (·.key)).Nodup := by
  rw [liveNodes, List.map_filterMap]
  refine List.nodup_range.filterMap fun i j k hi hj => ?_
  simp only [Option.mem_def, Option.map_eq_some_iff] at hi hj
  obtain ⟨e, he, rfl⟩ := hi
  obtain ⟨e', he', hkey⟩ := hj
  split at he
  · split at he'
    · exact hs.unique i j e e' he he' hkey.symm
    · cases he'
  · cases he

/-! ## The finite map -/

/-- The counters bound the slots in use, and leave a slot in a table that windows can miss the
    padding of. -/
structure Counts (t : StableHashMap Key Value) : Prop where
  live_le : t.numLive ≤ t.numFilled
  filled_le : t.numFilled ≤ t.capacity
  filled_lt : 32 ≤ t.capacity → t.numFilled < t.capacity
  used_le : t.used.card ≤ t.numFilled

/-- The table holds the entries of the finite map `m`. -/
structure Refines (hashFn : Key → UInt64) (t : StableHashMap Key Value) (m : Key → Option Value) :
    Prop where
  sound : Sound hashFn t
  counts : Counts t
  entries : ∀ k v, m k = some v ↔ ∃ i e, t.slots i = some e ∧ e.key = k ∧ e.value = v
  size : ∃ K : Finset Key, (∀ k, k ∈ K ↔ (m k).isSome) ∧ t.numLive = K.card

namespace Refines

variable {m : Key → Option Value}

theorem absent_iff (h : Refines hashFn t m) (k : Key) : t.Absent k ↔ m k = none := by
  constructor
  · intro habs
    by_contra hne
    obtain ⟨v, hv⟩ := Option.ne_none_iff_exists'.mp hne
    obtain ⟨i, e, he, hkey, -⟩ := (h.entries k v).mp hv
    exact habs i (h.sound.bound i e he) e he hkey
  · intro hnone i _ e he hkey
    have hsome := (h.entries k e.value).mpr ⟨i, e, he, hkey, rfl⟩
    rw [hnone] at hsome
    cases hsome

theorem exists_empty (h : Refines hashFn t m) (h32 : 32 ≤ t.capacity) :
    ∃ i < t.capacity, t.control i = EMPTY :=
  StableHashMap.exists_empty (h.counts.used_le.trans_lt (h.counts.filled_lt h32))

variable [DecidableEq Key]

theorem probe_some (h : Refines hashFn t m) (he : t.slots i = some e) :
    t.probe e.key (hashFn e.key) (fingerprint (hashFn e.key)) = some (.found e i) := by
  have hs := h.sound
  rw [← hs.hash i e he]
  exact probe_of_reaches hs.shape (hs.holdsOnly he) (hs.print i e he) (hs.used he).1 (hs.reach i e he)

theorem probe_none (h : Refines hashFn t m) {k : Key} (hk : m k = none) :
    ∃ s, t.probe k (hashFn k) (fingerprint (hashFn k)) = some (.missing s) ∧ s < t.capacity ∧
      ((∃ i, t.Reaches (hashFn k) i ∧ t.Free i) → t.Reaches (hashFn k) s ∧ t.Free s) := by
  obtain ⟨r, hr⟩ := Option.isSome_iff_exists.mp
    (probe_isSome h.sound.shape h.exists_empty k (hashFn k) (fingerprint (hashFn k)))
  obtain ⟨s, rfl, hs⟩ := probe_of_absent h.sound.shape ((h.absent_iff k).mpr hk) hr
  exact ⟨s, hr, hs⟩

/-- **`find` looks the key up in the map.** -/
theorem find_eq (h : Refines hashFn t m) (k : Key) : t.find hashFn k = some (m k) := by
  cases hk : m k with
  | none =>
    obtain ⟨s, hs, -⟩ := h.probe_none hk
    rw [find, hs]
    rfl
  | some v =>
    obtain ⟨i, e, he, rfl, rfl⟩ := (h.entries k v).mp hk
    rw [find, h.probe_some he]
    rfl

/-- A new key stored in a free slot that its walk gets to. -/
theorem put (h : Refines hashFn t m) {k : Key} {v : Value} (hk : m k = none)
    (hr : t.Reaches (hashFn k) i) (hf : t.Free i) (hle : t.numFilled + 1 ≤ t.capacity)
    (hlt : 32 ≤ t.capacity → t.numFilled + 1 < t.capacity) :
    Refines hashFn { t.put i ⟨k, v, hashFn k⟩ (fingerprint (hashFn k)) with
      numLive := t.numLive + 1, numFilled := t.numFilled + 1 } (Function.update m k (some v)) := by
  have hnone := h.sound.slot_of_free hf
  have habs := (h.absent_iff k).mpr hk
  constructor
  · have hs := h.sound.put (e := ⟨k, v, hashFn k⟩) habs rfl hr hf
    exact hs.of_eq rfl rfl rfl
  · refine ⟨Nat.add_le_add_right h.counts.live_le 1, hle, hlt, ?_⟩
    have hused : (t.put i ⟨k, v, hashFn k⟩ (fingerprint (hashFn k))).used.card ≤ t.used.card + 1 :=
      card_used_le rfl rfl
    exact hused.trans (Nat.add_le_add_right h.counts.used_le 1)
  · intro k' v'
    by_cases hkk : k' = k
    · subst hkk
      rw [Function.update_self, Option.some.injEq]
      constructor
      · rintro rfl
        exact ⟨i, _, Function.update_self .., rfl, rfl⟩
      · rintro ⟨j, e, he, hkey, rfl⟩
        by_cases hji : j = i
        · simp only [StableHashMap.put, hji, Function.update_self, Option.some.injEq] at he
          rw [← he]
        · simp only [StableHashMap.put, Function.update_of_ne hji] at he
          exact absurd hkey (habs j (h.sound.bound j e he) e he)
    · rw [Function.update_of_ne hkk, h.entries]
      constructor
      · rintro ⟨j, e, he, hkey, hval⟩
        have hji : j ≠ i := by
          rintro rfl
          rw [hnone] at he
          cases he
        exact ⟨j, e, by simpa [StableHashMap.put, hji] using he, hkey, hval⟩
      · rintro ⟨j, e, he, hkey, hval⟩
        by_cases hji : j = i
        · simp only [StableHashMap.put, hji, Function.update_self, Option.some.injEq] at he
          rw [← he] at hkey
          exact absurd hkey.symm hkk
        · exact ⟨j, e, by simpa [StableHashMap.put, hji] using he, hkey, hval⟩
  · obtain ⟨K, hK, hcard⟩ := h.size
    refine ⟨insert k K, fun k' => ?_, ?_⟩
    · by_cases hkk : k' = k
      · simp [hkk]
      · simp [hkk, hK]
    · have hnot : k ∉ K := by simp [hK, hk]
      rw [Finset.card_insert_of_notMem hnot, hcard]

theorem setValue (h : Refines hashFn t m) (he : t.slots i = some e) (v : Value) :
    Refines hashFn { t with slots := Function.update t.slots i (some { e with value := v }) }
      (Function.update m e.key (some v)) := by
  -- every slot keeps its key and hash
  have hcases : ∀ j e', Function.update t.slots i (some { e with value := v }) j = some e' →
      ∃ e₀, t.slots j = some e₀ ∧ e'.key = e₀.key ∧ e'.fullHash = e₀.fullHash ∧
        (j ≠ i → e' = e₀) ∧ (j = i → e'.value = v) := by
    intro j e' he'
    by_cases hji : j = i
    · subst hji
      simp only [Function.update_self, Option.some.injEq] at he'
      subst he'
      exact ⟨e, he, rfl, rfl, fun hne => absurd rfl hne, fun _ => rfl⟩
    · rw [Function.update_of_ne hji] at he'
      exact ⟨e', he', rfl, rfl, fun _ => rfl, fun hc => absurd hc hji⟩
  have hs := h.sound
  constructor
  · constructor
    · exact ⟨hs.shape.pow, hs.shape.pad⟩
    · intro j e' he'
      obtain ⟨e₀, h0, -⟩ := hcases j e' he'
      exact hs.bound j e₀ h0
    · intro j e' he'
      obtain ⟨e₀, h0, hk, hh, -⟩ := hcases j e' he'
      rw [hk, hh]
      exact hs.hash j e₀ h0
    · intro j e' he'
      obtain ⟨e₀, h0, -, hh, -⟩ := hcases j e' he'
      rw [hh]
      exact hs.print j e₀ h0
    · intro j hj
      by_cases hji : j = i
      · simp [hji] at hj
      · exact hs.free j (by simpa [Function.update_of_ne hji] using hj)
    · intro j j' e₁ e₂ h₁ h₂ hkey
      obtain ⟨e₁', h₁', hk₁, -⟩ := hcases j e₁ h₁
      obtain ⟨e₂', h₂', hk₂, -⟩ := hcases j' e₂ h₂
      exact hs.unique j j' e₁' e₂' h₁' h₂' (by rw [← hk₁, ← hk₂, hkey])
    · intro j e' he'
      obtain ⟨e₀, h0, -, hh, -⟩ := hcases j e' he'
      rw [hh]
      exact (hs.reach j e₀ h0).mono rfl fun _ hp => hp
  · exact ⟨h.counts.live_le, h.counts.filled_le, h.counts.filled_lt, h.counts.used_le⟩
  · intro k' v'
    by_cases hkk : k' = e.key
    · subst hkk
      rw [Function.update_self, Option.some.injEq]
      constructor
      · rintro rfl
        exact ⟨i, _, Function.update_self .., rfl, rfl⟩
      · rintro ⟨j, e', he', hkey, rfl⟩
        obtain ⟨e₀, h0, hk, -, -, hv⟩ := hcases j e' he'
        exact (hv (hs.unique j i e₀ e h0 he (hk.symm.trans hkey))).symm
    · rw [Function.update_of_ne hkk, h.entries]
      constructor
      · rintro ⟨j, e', he', rfl, hval⟩
        have hji : j ≠ i := by
          rintro rfl
          rw [he, Option.some.injEq] at he'
          exact hkk (he' ▸ rfl)
        exact ⟨j, e', by simpa [Function.update_of_ne hji] using he', rfl, hval⟩
      · rintro ⟨j, e', he', hkey, hval⟩
        obtain ⟨e₀, h0, hk, -, hne, -⟩ := hcases j e' he'
        have hji : j ≠ i := by
          rintro rfl
          rw [h0, Option.some.injEq] at he
          exact hkk (by rw [← hkey, hk, he])
        rw [hne hji] at hkey hval
        exact ⟨j, e₀, h0, hkey, hval⟩
  · obtain ⟨K, hK, hcard⟩ := h.size
    have hmem : (m e.key).isSome := by
      rw [(h.entries e.key e.value).mpr ⟨i, e, he, rfl, rfl⟩]
      rfl
    refine ⟨K, fun k' => ?_, hcard⟩
    by_cases hkk : k' = e.key
    · simp [hkk, hK, hmem]
    · rw [Function.update_of_ne hkk, hK]

theorem remove (h : Refines hashFn t m) (he : t.slots i = some e) :
    Refines hashFn (t.remove i) (Function.update m e.key none) := by
  have hs := h.sound
  obtain ⟨K, hK, hcard⟩ := h.size
  have hmem : e.key ∈ K := by
    rw [hK, (h.entries e.key e.value).mpr ⟨i, e, he, rfl, rfl⟩]
    rfl
  have hpos : 0 < t.numLive := by
    rw [hcard]
    exact Finset.card_pos.mpr ⟨_, hmem⟩
  constructor
  · exact hs.remove (hs.bound i e he)
  · refine ⟨(Nat.sub_le _ _).trans h.counts.live_le, h.counts.filled_le, h.counts.filled_lt, ?_⟩
    -- the tombstone was a used slot before
    refine (Finset.card_le_card fun j hj => ?_).trans h.counts.used_le
    rw [mem_used] at hj ⊢
    refine ⟨hj.1, ?_⟩
    by_cases hji : j = i
    · exact hji ▸ (hs.used he).1
    · simpa [StableHashMap.remove, hji] using hj.2
  · intro k' v'
    by_cases hkk : k' = e.key
    · subst hkk
      rw [Function.update_self]
      refine iff_of_false (by simp) ?_
      rintro ⟨j, e', he', hkey, -⟩
      by_cases hji : j = i
      · simp [StableHashMap.remove, hji] at he'
      · simp only [StableHashMap.remove, Function.update_of_ne hji] at he'
        exact absurd (hs.unique j i e' e he' he hkey) hji
    · rw [Function.update_of_ne hkk, h.entries]
      constructor
      · rintro ⟨j, e', he', rfl, hval⟩
        have hji : j ≠ i := by
          rintro rfl
          rw [he, Option.some.injEq] at he'
          exact hkk (he' ▸ rfl)
        exact ⟨j, e', by simpa [StableHashMap.remove, hji] using he', rfl, hval⟩
      · rintro ⟨j, e', he', hkey, hval⟩
        by_cases hji : j = i
        · simp [StableHashMap.remove, hji] at he'
        · exact ⟨j, e', by simpa [StableHashMap.remove, hji] using he', hkey, hval⟩
  · refine ⟨K.erase e.key, fun k' => ?_, ?_⟩
    · by_cases hkk : k' = e.key
      · simp [hkk]
      · simp [hkk, hK]
    · rw [Finset.card_erase_of_mem hmem, ← hcard]
      rfl

omit [DecidableEq Key] in
theorem clear (h : Refines hashFn t m) : Refines hashFn t.clear fun _ => none := by
  have hslots : ∀ i, t.clear.slots i = none := by
    intro i
    cases hi : t.slots i with
    | none => simp [StableHashMap.clear, hi]
    | some e => simp [StableHashMap.clear, h.sound.bound i e hi, h.sound.used hi]
  have hcontrol : ∀ i, t.clear.control i = EMPTY := by
    intro i
    by_cases hi : i < t.capacity
    · simp [StableHashMap.clear, hi]
    · simp [StableHashMap.clear, hi, h.sound.shape.pad i (Nat.not_lt.mp hi)]
  constructor
  · constructor
    · exact ⟨h.sound.shape.pow, fun i _ => hcontrol i⟩
    all_goals simp [hslots, Free, hcontrol]
  · refine ⟨le_rfl, Nat.zero_le _, fun _ => h.sound.shape.capacity_pos, ?_⟩
    have hused : t.clear.used = ∅ := by
      ext i
      simp [mem_used, hcontrol]
    rw [hused]
    exact Nat.zero_le _
  · simp [hslots]
  · exact ⟨∅, by simp, rfl⟩

end Refines

/-- A rehash to `newCap` moves every node to where it is found again. -/
def RehashOk (t : StableHashMap Key Value) (newCap : ℕ) : Prop :=
  t.roundedCap newCap ≠ t.capacity →
    Along PlaceOk insertIntoTable (ofCapacity (t.roundedCap newCap) (t.slotsId + 1)) t.liveNodes

variable {m : Key → Option Value}

theorem Refines.length_liveNodes [DecidableEq Key] (h : Refines hashFn t m) :
    t.liveNodes.length ≤ t.numLive := by
  obtain ⟨K, hK, hcard⟩ := h.size
  rw [hcard, ← List.length_map (·.key), ← List.toFinset_card_of_nodup h.sound.nodup_liveNodes]
  refine Finset.card_le_card fun k hk => ?_
  rw [List.mem_toFinset, List.mem_map] at hk
  obtain ⟨e, he, rfl⟩ := hk
  obtain ⟨i, hi⟩ := h.sound.mem_liveNodes.mp he
  rw [hK, (h.entries e.key e.value).mpr ⟨i, e, hi, rfl, rfl⟩]
  rfl

/-- **A rehash keeps the map.** -/
theorem Refines.rehash [DecidableEq Key] (h : Refines hashFn t m) {newCap : ℕ}
    (hlt : t.numLive < newCap) (hok : t.RehashOk newCap) : Refines hashFn (t.rehash newCap) m := by
  rw [StableHashMap.rehash]
  set cap := t.roundedCap newCap with hcap
  dsimp only
  split
  · exact h
  · rename_i hne
    have hle : newCap ≤ cap := le_roundedCap t newCap
    have hlen := h.length_liveNodes
    have hempty : Sound hashFn (ofCapacity cap (t.slotsId + 1) : StableHashMap Key Value) :=
      sound_ofCapacity (roundedCap_pow t (Nat.zero_lt_of_lt hlt)) _
    obtain ⟨hs, hc, hused, hnodes⟩ := hempty.insertAll
      (fun e he => by
        obtain ⟨i, hi⟩ := h.sound.mem_liveNodes.mp he
        exact h.sound.hash i e hi)
      h.sound.nodup_liveNodes (fun e _ => by simp [Absent, ofCapacity])
      (by
        rw [used_ofCapacity, Finset.card_empty, Nat.zero_add]
        exact (hlen.trans hlt.le).trans hle) (hok hne)
    rw [used_ofCapacity, Finset.card_empty, Nat.zero_add] at hused
    have hnodes : ∀ e, (∃ i, (t.rebuilt cap).slots i = some e) ↔ ∃ i, t.slots i = some e := by
      intro e
      rw [← h.sound.mem_liveNodes, rebuilt, hnodes]
      simp [ofCapacity]
    have hc : (t.rebuilt cap).capacity = cap := hc
    constructor
    · exact hs.of_eq rfl rfl rfl
    · constructor
      · exact le_rfl
      · change t.numLive ≤ (t.rebuilt cap).capacity
        omega
      · intro _
        change t.numLive < (t.rebuilt cap).capacity
        omega
      · exact hused.trans hlen
    · intro k v
      rw [h.entries]
      constructor
      · rintro ⟨i, e, he, hkey, hval⟩
        obtain ⟨j, hj⟩ := (hnodes e).mpr ⟨i, he⟩
        exact ⟨j, e, hj, hkey, hval⟩
      · rintro ⟨i, e, he, hkey, hval⟩
        obtain ⟨j, hj⟩ := (hnodes e).mp ⟨i, he⟩
        exact ⟨j, e, hj, hkey, hval⟩
    · exact h.size

/-! ## Operations and runs -/

/-- An operation of the map.  An erased iterator carries, as a ghost, the key of the element
    it was obtained for, `none` for `end()`. -/
inductive Op (Key Value : Type*) where
  | emplace (key : Key) (value : Value)
  | subscript (key : Key)
  | erase (key : Key)
  | eraseAt (pos : Iter) (elem : Option Key)
  | reserve (n : ℕ)
  | clear

section

variable [DecidableEq Key] [Inhabited Value]

/-- An operation on the map; `none` after an `abort()`. -/
def step (hashFn : Key → UInt64) (s : Option (StableHashMap Key Value)) (op : Op Key Value) :
    Option (StableHashMap Key Value) :=
  s.bind fun t => match op with
    | .emplace key value => t.emplace hashFn key value
    | .subscript key => t.subscript hashFn key
    | .erase key => t.erase hashFn key
    | .eraseAt pos _ => some (t.eraseAt pos)
    | .reserve n => some (t.reserve n)
    | .clear => some t.clear

/-- The finite map after an operation. -/
def replayStep (m : Key → Option Value) : Op Key Value → Key → Option Value
  | .emplace key value => Function.update m key (some value)
  | .subscript key => Function.update m key (some ((m key).getD default))
  | .erase key => Function.update m key none
  | .eraseAt _ (some key) => Function.update m key none
  | .eraseAt _ none => m
  | .reserve _ => m
  | .clear => fun _ => none

/-- The finite map the operations describe. -/
def replay (ops : List (Op Key Value)) : Key → Option Value :=
  runFrom replayStep (fun _ => none) ops

end

/-- The slot that `emplace` computes for a key that is not in the table. -/
def insertSlot [DecidableEq Key] (hashFn : Key → UInt64) (t : StableHashMap Key Value) (key : Key) :
    Option ℕ :=
  match t.probe key (hashFn key) (fingerprint (hashFn key)) with
  | some (.missing s) => some s
  | _ => none

/-- A new key can be emplaced: its walk gets to a free slot before the padding; if the table
    is rehashed first, the nodes can be inserted again, and the slot computed before is free in
    the new table, on the walk of the key. -/
def EmplaceOk [DecidableEq Key] (hashFn : Key → UInt64) (t : StableHashMap Key Value) (key : Key) :
    Prop :=
  t.Absent key →
    if t.needsRehash then
      t.RehashOk (t.capacity * 2) ∧ ∀ s ∈ t.insertSlot hashFn key,
        t.rehashIfNeeded.Reaches (hashFn key) s ∧ t.rehashIfNeeded.Free s
    else ∃ i < t.capacity, t.Reaches (hashFn key) i ∧ t.Free i

/-- The iterator is `end()`, or its slot holds the element it was obtained for. -/
def IterOk (t : StableHashMap Key Value) (pos : Iter) : Option Key → Prop
  | none => pos = t.endIter
  | some key => (t.slots pos.idx).map (·.key) = some key

/-- The state in which an operation does not run into one of the defects. -/
def OpOk [DecidableEq Key] (hashFn : Key → UInt64) :
    Option (StableHashMap Key Value) → Op Key Value → Prop
  | none, _ => False
  | some t, .emplace key _ => t.EmplaceOk hashFn key
  | some t, .subscript key => t.EmplaceOk hashFn key
  | some _, .erase _ => True
  | some t, .eraseAt pos elem => t.IterOk pos elem
  | some t, .reserve n =>
    n > t.numLive → t.RehashOk (SingleFloat.truncDiv (8 * SingleFloat.truncDiv n 1) 7 + 1)
  | some _, .clear => True

theorem le_reserveCap (n : ℕ) : n ≤ SingleFloat.truncDiv (8 * SingleFloat.truncDiv n 1) 7 + 1 := by
  have h1 := SingleFloat.le_truncDiv n 1
  have h2 := SingleFloat.le_truncDiv (8 * SingleFloat.truncDiv n 1) 7
  rw [Nat.div_one] at h1
  norm_num at h1 h2
  omega

/-- A table that needs no rehash has a slot to spare. -/
theorem Counts.room (hc : Counts t) (hn : t.needsRehash = false) :
    t.numFilled + 1 ≤ t.capacity ∧ (32 ≤ t.capacity → t.numFilled + 1 < t.capacity) := by
  simp only [needsRehash, Bool.or_eq_false_iff, beq_eq_false_iff_ne, decide_eq_false_iff_not] at hn
  obtain ⟨hne, hfull⟩ := hn
  have hle := hc.filled_le
  have hround := SingleFloat.le_truncDiv t.numFilled 1
  rw [Nat.div_one] at hround
  norm_num at hround
  constructor
  · omega
  · intro h32
    omega

theorem capacity_insertIntoTable (t : StableHashMap Key Value) (e : HashNode Key Value) :
    (t.insertIntoTable e).capacity = t.capacity := by
  rw [insertIntoTable]
  split <;> rfl

theorem capacity_insertAll {l : List (HashNode Key Value)} :
    ∀ {t : StableHashMap Key Value}, (runFrom insertIntoTable t l).capacity = t.capacity := by
  induction l with
  | nil => exact rfl
  | cons e l ih =>
    intro t
    rw [runFrom_cons, ih, capacity_insertIntoTable]

theorem Counts.room_rehash (hc : Counts t) (hpos : 0 < t.capacity) :
    let t' := t.rehash (t.capacity * 2)
    t'.numFilled + 1 ≤ t'.capacity ∧ (32 ≤ t'.capacity → t'.numFilled + 1 < t'.capacity) := by
  have hle := le_roundedCap t (t.capacity * 2)
  have hlive := hc.live_le.trans hc.filled_le
  have hne : t.roundedCap (t.capacity * 2) ≠ t.capacity := by omega
  have hcap : (t.rebuilt (t.roundedCap (t.capacity * 2))).capacity =
      t.roundedCap (t.capacity * 2) := capacity_insertAll
  simp only [rehash, if_neg hne, hcap]
  omega

namespace Refines

variable [DecidableEq Key]

theorem rehashIfNeeded (h : Refines hashFn t m)
    (hok : t.needsRehash → t.RehashOk (t.capacity * 2)) :
    Refines hashFn t.rehashIfNeeded m ∧
      t.rehashIfNeeded.numFilled + 1 ≤ t.rehashIfNeeded.capacity ∧
      (32 ≤ t.rehashIfNeeded.capacity →
        t.rehashIfNeeded.numFilled + 1 < t.rehashIfNeeded.capacity) := by
  have hpos := h.sound.shape.capacity_pos
  have hlive := h.counts.live_le.trans h.counts.filled_le
  rw [StableHashMap.rehashIfNeeded]
  split
  · rename_i hn
    exact ⟨h.rehash (by omega) (hok hn), h.counts.room_rehash hpos⟩
  · rename_i hn
    exact ⟨h, h.counts.room (by simpa using hn)⟩

theorem emplace (h : Refines hashFn t m) {k : Key} (v : Value) (hok : t.EmplaceOk hashFn k) :
    ∃ t', t.emplace hashFn k v = some t' ∧ Refines hashFn t' (Function.update m k (some v)) := by
  cases hk : m k with
  | some v₀ =>
    obtain ⟨i, e, he, rfl, -⟩ := (h.entries k v₀).mp hk
    refine ⟨_, ?_, h.setValue he v⟩
    rw [StableHashMap.emplace]
    simp only [h.probe_some he, Option.map_some]
  | none =>
    obtain ⟨s, hs, -, hfree⟩ := h.probe_none hk
    have hok := hok ((h.absent_iff k).mpr hk)
    have hslot : t.insertSlot hashFn k = some s := by rw [insertSlot, hs]
    obtain ⟨h', hle, hlt⟩ := h.rehashIfNeeded fun hn => by
      rw [if_pos hn] at hok
      exact hok.1
    have hput : t.rehashIfNeeded.Reaches (hashFn k) s ∧ t.rehashIfNeeded.Free s := by
      by_cases hn : t.needsRehash
      · rw [if_pos hn] at hok
        exact hok.2 s hslot
      · rw [if_neg hn] at hok
        rw [StableHashMap.rehashIfNeeded, if_neg hn]
        obtain ⟨i, -, hi⟩ := hok
        exact hfree ⟨i, hi⟩
    refine ⟨_, ?_, h'.put hk hput.1 hput.2 hle hlt⟩
    rw [StableHashMap.emplace]
    simp only [hs, Option.map_some]

theorem subscript [Inhabited Value] (h : Refines hashFn t m) {k : Key}
    (hok : t.EmplaceOk hashFn k) : ∃ t', t.subscript hashFn k = some t' ∧
      Refines hashFn t' (Function.update m k (some ((m k).getD default))) := by
  rw [StableHashMap.subscript, h.find_eq, Option.bind_some]
  cases hk : m k with
  | some v =>
    refine ⟨t, rfl, ?_⟩
    rw [Option.getD_some, ← hk, Function.update_eq_self]
    exact h
  | none => exact h.emplace default hok

theorem erase (h : Refines hashFn t m) (k : Key) :
    ∃ t', t.erase hashFn k = some t' ∧ Refines hashFn t' (Function.update m k none) := by
  cases hk : m k with
  | some v =>
    obtain ⟨i, e, he, rfl, -⟩ := (h.entries k v).mp hk
    refine ⟨_, ?_, h.remove he⟩
    rw [StableHashMap.erase, h.probe_some he]
    rfl
  | none =>
    obtain ⟨s, hs, -⟩ := h.probe_none hk
    refine ⟨t, ?_, ?_⟩
    · rw [StableHashMap.erase, hs]
      rfl
    · rw [← hk, Function.update_eq_self]
      exact h

theorem eraseAt (h : Refines hashFn t m) {pos : Iter} {k : Key} (hpos : t.IterOk pos (some k)) :
    Refines hashFn (t.eraseAt pos) (Function.update m k none) := by
  obtain ⟨e, he, rfl⟩ := Option.map_eq_some_iff.mp hpos
  have hne : pos ≠ t.endIter := by
    rintro rfl
    exact lt_irrefl _ (h.sound.bound _ e he)
  rw [StableHashMap.eraseAt, if_neg hne, if_pos (by rw [he]; rfl)]
  exact h.remove he

omit [DecidableEq Key] in
theorem eraseAt_end (h : Refines hashFn t m) {pos : Iter} (hpos : t.IterOk pos none) :
    Refines hashFn (t.eraseAt pos) m := by
  have hend : pos = t.endIter := hpos
  rw [StableHashMap.eraseAt, if_pos hend]
  exact h

theorem reserve (h : Refines hashFn t m) {n : ℕ} (hok : n > t.numLive →
    t.RehashOk (SingleFloat.truncDiv (8 * SingleFloat.truncDiv n 1) 7 + 1)) :
    Refines hashFn (t.reserve n) m := by
  rw [StableHashMap.reserve]
  split
  · rename_i hn
    exact h.rehash (Nat.lt_of_lt_of_le hn (le_reserveCap n)) (hok hn)
  · exact h

/-- **An operation outside the defects acts on the table as on the map.** -/
theorem step [Inhabited Value] (h : Refines hashFn t m) {op : Op Key Value}
    (hok : OpOk hashFn (some t) op) :
    ∃ t', StableHashMap.step hashFn (some t) op = some t' ∧ Refines hashFn t' (replayStep m op) := by
  cases op with
  | emplace k v => exact h.emplace v hok
  | subscript k => exact h.subscript hok
  | erase k => exact h.erase k
  | eraseAt pos elem =>
    cases elem with
    | none => exact ⟨_, rfl, h.eraseAt_end hok⟩
    | some k => exact ⟨_, rfl, h.eraseAt hok⟩
  | reserve n => exact ⟨_, rfl, h.reserve hok⟩
  | clear => exact ⟨_, rfl, h.clear⟩

end Refines

theorem refines_init (hashFn : Key → UInt64) (initialCapacity : ℕ) :
    Refines hashFn (init initialCapacity : StableHashMap Key Value) fun _ => none := by
  have hs : Sound hashFn (init initialCapacity : StableHashMap Key Value) :=
    sound_ofCapacity ⟨Nat.clog 2 (max initialCapacity 8), rfl⟩ 0
  constructor
  · exact hs
  · refine ⟨le_rfl, Nat.zero_le _, fun _ => hs.shape.capacity_pos, ?_⟩
    rw [init, used_ofCapacity]
    exact Nat.zero_le _
  · simp [init, ofCapacity]
  · exact ⟨∅, by simp, rfl⟩

/-- **The map refines a finite map, outside its defects**: in every run whose operations meet
    `OpOk`, no probe aborts, `find` gives for every key what the operations say, and `size()`
    is the number of the keys they leave. -/
theorem refines_run [DecidableEq Key] [Inhabited Value] (hashFn : Key → UInt64)
    (initialCapacity : ℕ) (ops : List (Op Key Value))
    (hok : Along (OpOk hashFn) (step hashFn) (some (init initialCapacity)) ops) :
    ∃ t, runFrom (step hashFn) (some (init initialCapacity)) ops = some t ∧
      (∀ k, t.find hashFn k = some (replay ops k)) ∧
      ∃ K : Finset Key, (∀ k, k ∈ K ↔ (replay ops k).isSome) ∧ t.size = K.card := by
  have hsim : ∃ t, runFrom (step hashFn) (some (init initialCapacity)) ops = some t ∧
      Refines hashFn t (runFrom replayStep (fun _ => none) ops) :=
    Along.simulation (R := fun s m => ∃ t, s = some t ∧ Refines hashFn t m)
      (fun s m op => by
        rintro ⟨t, rfl, h⟩ hop
        exact h.step hop)
      ⟨init initialCapacity, rfl, refines_init hashFn initialCapacity⟩ hok
  obtain ⟨t, ht, h⟩ := hsim
  exact ⟨t, ht, h.find_eq, h.size⟩

section

variable (t)

instance (h : UInt64) (k : ℕ) : Decidable (t.Full h k) :=
  inferInstanceAs (Decidable (∀ r < 32, _))

instance (h : UInt64) (k p : ℕ) : Decidable (t.InWindow h k p) :=
  inferInstanceAs (Decidable (_ ∧ _))

instance (h : UInt64) (i : ℕ) : Decidable (t.Reaches h i) :=
  inferInstanceAs (Decidable (_ ∧ ∃ k ≤ t.capacity, (∀ j < k, t.Full h j) ∧ t.InWindow h k i))

instance (p : ℕ) : Decidable (t.Free p) := inferInstanceAs (Decidable (_ ∨ _))

instance (e : HashNode Key Value) : Decidable (t.PlaceOk e) :=
  inferInstanceAs (Decidable (_ ∧ ((∃ p < t.capacity, _) ∨ _)))

instance (newCap : ℕ) : Decidable (t.RehashOk newCap) := inferInstanceAs (Decidable (_ → _))

variable [DecidableEq Key]

instance (key : Key) : Decidable (t.Absent key) :=
  decidable_of_iff (∀ i < t.capacity, ∀ e ∈ t.slots i, e.key ≠ key) Iff.rfl

instance (hashFn : Key → UInt64) (key : Key) : Decidable (t.EmplaceOk hashFn key) :=
  inferInstanceAs (Decidable (_ → if t.needsRehash then _ else ∃ i < t.capacity, _))

instance (pos : Iter) : ∀ elem : Option Key, Decidable (t.IterOk pos elem)
  | none => inferInstanceAs (Decidable (_ = _))
  | some _ => inferInstanceAs (Decidable (_ = _))

instance (hashFn : Key → UInt64) :
    ∀ (s : Option (StableHashMap Key Value)) (op : Op Key Value), Decidable (OpOk hashFn s op)
  | none, _ => isFalse id
  | some _, .emplace _ _ => inferInstanceAs (Decidable (EmplaceOk _ _ _))
  | some _, .subscript _ => inferInstanceAs (Decidable (EmplaceOk _ _ _))
  | some _, .erase _ => isTrue trivial
  | some _, .eraseAt _ _ => inferInstanceAs (Decidable (IterOk _ _ _))
  | some _, .reserve _ => inferInstanceAs (Decidable (_ → _))
  | some _, .clear => isTrue trivial

end

/-- A run with all operations, a rehash among them, under the identity as hash. -/
theorem refines_run_mixed :
    let ops : List (Op ℕ ℕ) := [.emplace 1 10, .subscript 2, .emplace 1 11, .erase 2,
      .eraseAt ⟨0, 1⟩ (some 1), .emplace 5 50, .reserve 20, .emplace 3 30, .clear, .emplace 4 40]
    ∃ t, runFrom (step UInt64.ofNat) (some (init 8)) ops = some t ∧
      (∀ k, t.find UInt64.ofNat k = some (replay ops k)) ∧
      ∃ K : Finset ℕ, (∀ k, k ∈ K ↔ (replay ops k).isSome) ∧ t.size = K.card :=
  refines_run UInt64.ofNat 8 _ (by decide +kernel)

/-- Two keys whose home is the last slot of a table of 8: the second is put in slot 0, which
    its walk never gets to. -/
theorem not_refines_collision :
    ¬ ∀ (hashFn : ℕ → UInt64) (ops : List (Op ℕ ℕ)),
      ∃ t, runFrom (step hashFn) (some (init 8)) ops = some t ∧
        ∀ k, t.find hashFn k = some (replay ops k) := by
  intro h
  obtain ⟨t, ht, hfind⟩ := h (fun _ => 7) [.emplace 0 10, .emplace 1 11]
  have hend : (runFrom (step fun _ => 7) (some (init 8))
      [.emplace 0 10, .emplace 1 11]).bind (·.find (fun _ : ℕ => 7) 1) = some (none : Option ℕ) := by
    decide +kernel
  rw [ht, Option.bind_some, hfind 1] at hend
  cases hend

end VirtualRouter.StableHashMap
