/-
  The child slots of the forwarding table's trie.

  `Fib` instantiates the trie with a stride of eight bits.  `FANOUT` is the
  eight-bit value of `1u << 8`, which is zero, so `isEmpty` and `forEach` visit
  no child: everything below the root is invisible to them.  The bookkeeping is
  right exactly as long as nothing is stored below the root, that is, while no
  prefix longer than eight bits is inserted, and while the eight-bit entry count
  of the root does not wrap (`rootInsertOk`).
-/
import VirtualRouter.Lib.Run
import VirtualRouter.Types.LpcTriePrefixes

namespace VirtualRouter

open PrefixMap

/-- IPv4 addresses and the stride of `Fib`. -/
def LpcParams.fib4 : LpcParams := ⟨4, 8, LpcParams.four_mem, by decide⟩

namespace LpcTrie

variable (P : LpcParams) {α : Type}

/-- The entry `p` is stored in a node of the tree. -/
inductive Stored (p : PrefixEntry P.W α) : Node P.W α → Prop
  | here {d : NodeData P.W α} {slots : ℕ → Node P.W α} : p ∈ d.prefixes → Stored p (.node d slots)
  | child {d : NodeData P.W α} {slots : ℕ → Node P.W α} {i : ℕ} :
      Stored p (slots i) → Stored p (.node d slots)

/-- `n` is the tree or one of the trees below it. -/
inductive Subtree (n : Node P.W α) : Node P.W α → Prop
  | refl : Subtree n n
  | child {d : NodeData P.W α} {slots : ℕ → Node P.W α} {i : ℕ} :
      Subtree n (slots i) → Subtree n (.node d slots)

/-- The bookkeeping of the child slots, for a trie whose live prefixes are `m`. -/
structure ChildrenTracked (t : Node P.W α) (m : PMap (BitVec P.W) α) : Prop where
  /-- `isEmpty` holds only of a node whose subtree stores no prefix -/
  empty : ∀ d slots, Subtree P (.node d slots) t → isEmpty P d slots = true →
    ∀ p, ¬ Stored P p (.node d slots)
  /-- an erasure, with its pruning, loses no other entry -/
  erase : ∀ pfx len p, Stored P p t → p.key ≠ key P pfx len → Stored P p (erase P t pfx len).1
  nodup : (forEach P t).Nodup
  visits : ∀ p, p ∈ forEach P t ↔ m p.key = some p.ptr

def rootInsertOk (t : Node P.W α) (k : BitVec P.W × ℕ) : Prop :=
  k.2 ≤ 8 ∧ match t with
    | .null => True
    | .node d _ => (findPrefix d.prefixes k.1 k.2).isSome ∨ d.prefixes.length < 255

def rootOpOk (t : Node P.W α) : Op P α → Prop
  | .insert pfx len _ => len > P.W ∨ rootInsertOk P t (key P pfx len)
  | .erase _ _ => True

instance (t : Node P.W α) (k : BitVec P.W × ℕ) : Decidable (rootInsertOk P t k) := by
  unfold rootInsertOk
  cases t <;> infer_instance

instance (t : Node P.W α) (op : Op P α) : Decidable (rootOpOk P t op) := by
  cases op <;> (unfold rootOpOk; infer_instance)

/-- A root without children that holds the entries of `m`. -/
structure RootHolds (d : NodeData P.W α) (slots : ℕ → Node P.W α) (m : PMap (BitVec P.W) α) :
    Prop where
  skip : d.skipLen = 0
  leaf : ∀ i, slots i = .null
  nodup : KeysNodup d.prefixes
  count : d.prefixes.length ≤ 255
  short : ∀ p ∈ d.prefixes, p.len ≤ 8
  find : ∀ k, findPtr d.prefixes k = m k

def RootOnly (t : Node P.W α) (m : PMap (BitVec P.W) α) : Prop :=
  match t with
  | .null => ∀ k, m k = none
  | .node d slots => RootHolds P d slots m

variable {P} {d : NodeData P.W α} {slots : ℕ → Node P.W α} {t : Node P.W α}
  {m : PMap (BitVec P.W) α} {k : BitVec P.W × ℕ} {v : α}

/-! ## What such a state gives -/

theorem FANOUT_eight (hS : P.S = 8) : P.FANOUT = 0 := by
  rw [LpcParams.FANOUT, hS]; rfl

theorem forEach_eight (hS : P.S = 8) : forEach P (.node d slots) = d.prefixes := by
  simp [forEach, FANOUT_eight hS]

theorem stored_leaf {p : PrefixEntry P.W α} (h : ∀ i, slots i = .null) :
    Stored P p (.node d slots) ↔ p ∈ d.prefixes := by
  refine ⟨fun hp => ?_, .here⟩
  cases hp with
  | here hp => exact hp
  | child hp => rw [h] at hp; cases hp

theorem eraseAt_leaf (h : RootHolds P d slots m) :
    eraseAt P false (.node d slots) k.1 k.2 0 =
      (removePrefix k.1 k.2 d.prefixes).map fun ps =>
        .node { d with prefixes := ps, best := localBest ps } slots := by
  have hm : skipMatches d k.1 = true := by simp [skipMatches, h.skip]
  simp only [eraseAt, hm, Bool.not_true, Bool.false_eq_true, if_false, Bool.and_false]
  cases removePrefix k.1 k.2 d.prefixes with
  | some ps => rfl
  | none =>
    simp only [h.leaf, eraseAt]
    split_ifs <;> rfl

theorem childrenTracked_of_rootOnly (hS : P.S = 8) (h : RootOnly P t m) : ChildrenTracked P t m := by
  cases t with
  | null =>
    refine ⟨fun d slots hs => ?_, fun _ _ p hp => ?_, List.nodup_nil, fun p => ?_⟩
    · cases hs
    · cases hp
    · rw [h]; simp [forEach]
  | node d slots =>
    have hr : RootHolds P d slots m := h
    refine ⟨fun d' slots' hs he p hp => ?_, fun pfx len p hp hne => ?_, ?_, fun p => ?_⟩
    · cases hs with
      | refl =>
        rw [stored_leaf hr.leaf] at hp
        simp only [isEmpty, Bool.and_eq_true, List.isEmpty_iff] at he
        rw [he.1] at hp; cases hp
      | child hs => rw [hr.leaf] at hs; cases hs
    · have hroot := eraseAt_leaf (k := key P pfx len) hr
      rw [stored_leaf hr.leaf] at hp
      unfold erase
      split_ifs
      · exact .here hp
      · simp only [key] at hroot
        rw [hroot]
        cases hps : removePrefix (applyMask (toHostOrder pfx) len) len d.prefixes with
        | none => exact .here hp
        | some ps =>
          obtain ⟨q, hqk, hperm⟩ := removePrefix_eq_some (k := key P pfx len) hps
          rcases List.mem_cons.1 (hperm.mem_iff.1 hp) with rfl | hmem
          · exact absurd hqk hne
          · exact .here hmem
    · rw [forEach_eight hS]; exact hr.nodup.of_map _
    · rw [forEach_eight hS, ← hr.find, findPtr_eq_some hr.nodup]
      refine ⟨fun hp => ⟨p, hp, rfl, rfl⟩, ?_⟩
      rintro ⟨q, hq, hk, hv⟩
      have : q = p := by
        obtain ⟨hl, ha⟩ := key_eq_iff.1 hk
        cases q; cases p; simp_all [PrefixEntry.key]
      exact this ▸ hq

/-! ## Steps -/

theorem insertAt_root (slots : ℕ → Node P.W α) (v : α) (hS : P.S = 8) (hskip : d.skipLen = 0)
    (hk : k.2 ≤ 8) :
    insertAt P (.node d slots) k.1 k.2 v 0 = .node { d with
      prefixes := insertPrefix d.prefixes k.1 k.2 v
      best := localBest (insertPrefix d.prefixes k.1 k.2 v) } slots := by
  have h1 : splitAtMismatch P k.1 0 (.node d slots) = .node d slots := by
    simp [splitAtMismatch, hskip]
  rw [insertAt, h1]
  simp only [hskip, hS]
  rw [if_pos (by omega)]

theorem insertAt_root_long (slots : ℕ → Node P.W α) (v : α) (hS : P.S = 8) (hskip : d.skipLen = 0)
    (hk : 8 < k.2) :
    ∃ slots', insertAt P (.node d slots) k.1 k.2 v 0 = .node d slots' := by
  have h1 : splitAtMismatch P k.1 0 (.node d slots) = .node d slots := by
    simp [splitAtMismatch, hskip]
  rw [insertAt, h1]
  simp only [hskip, hS]
  rw [if_neg (by omega)]
  cases slots (strideIdx P k.1 (0 + 0)) with
  | null => exact ⟨_, rfl⟩
  | node => exact ⟨_, rfl⟩

theorem rootHolds_ensureRoot (h : RootOnly P t m) : ∃ d slots, ensureRoot P t = .node d slots ∧
    RootHolds P d slots m ∧ (rootInsertOk P t k ↔ rootInsertOk P (.node d slots) k) := by
  cases t with
  | null =>
    refine ⟨{}, noChildren, rfl, ⟨rfl, fun _ => rfl, by simp [KeysNodup], by simp, by simp, fun k => ?_⟩, ?_⟩
    · rw [h k]; rfl
    · simp [rootInsertOk]
  | node d slots => exact ⟨d, slots, rfl, h, Iff.rfl⟩

theorem RootHolds.insert (h : RootHolds P d slots m) (hok : rootInsertOk P (.node d slots) k)
    (b : Option α) : RootHolds P { d with prefixes := insertPrefix d.prefixes k.1 k.2 v, best := b } slots
      (Function.update m k (some v)) := by
  obtain ⟨hlen, hroom⟩ := hok
  have hcap : (findPtr d.prefixes k).isSome ∨ d.prefixes.length < 255 :=
    hroom.imp_left fun h' => by simpa [findPtr] using h'
  refine ⟨h.skip, h.leaf, keysNodup_insertPrefix h.nodup hcap, length_insertPrefix hcap h.count,
    fun p hp => ?_, fun k' => ?_⟩
  · rcases key_mem_insertPrefix hcap hp with hpk | ⟨q, hq, hqk⟩
    · rw [← hpk] at hlen; exact hlen
    · have := h.short q hq
      rwa [show q.len = p.len from congrArg Prod.snd hqk] at this
  · simp only
    rw [findPtr_insertPrefix h.nodup hcap, Function.update_apply, h.find]

theorem RootHolds.erase (h : RootHolds P d slots m) {ps : List (PrefixEntry P.W α)}
    (hps : removePrefix k.1 k.2 d.prefixes = some ps) (b : Option α) :
    RootHolds P { d with prefixes := ps, best := b } slots (Function.update m k none) := by
  obtain ⟨p, hpk, hperm⟩ := removePrefix_eq_some hps
  have hnd := (hperm.map PrefixEntry.key).nodup_iff.1 h.nodup
  rw [List.map_cons, List.nodup_cons, hpk] at hnd
  have hlen := hperm.length_eq
  rw [List.length_cons] at hlen
  have hcount := h.count
  refine ⟨h.skip, h.leaf, hnd.2, by simp only; omega,
    fun q hq => h.short q (hperm.mem_iff.2 (List.mem_cons_of_mem _ hq)), fun k' => ?_⟩
  rw [Function.update_apply, ← h.find, findPtr_perm h.nodup hperm k']
  split_ifs with hk
  · rw [hk]; exact findPtr_eq_none.2 fun q hq he => hnd.1 (he ▸ List.mem_map_of_mem hq)
  · exact (findPtr_cons_neg (fun h' => hk (h'.symm.trans hpk)) _).symm

theorem rootOnly_step (hS : P.S = 8) (h : RootOnly P t m) {op : Op P α} (hok : rootOpOk P t op) :
    RootOnly P (step P t op) (mapStep P m op) := by
  cases op with
  | insert pfx len v =>
    simp only [step, LpcTrie.insert, mapStep]
    by_cases hlen : len > P.W
    · simpa only [if_pos hlen] using h
    · simp only [if_neg hlen]
      obtain ⟨d, slots, he, hr, hiff⟩ := rootHolds_ensureRoot (k := key P pfx len) h
      have hins := hiff.1 (hok.resolve_left hlen)
      have hroot := insertAt_root slots v hS hr.skip hins.1
      simp only [key] at hroot ⊢
      rw [he, hroot]
      exact hr.insert hins _
  | erase pfx len =>
    simp only [step, LpcTrie.erase, mapStep]
    by_cases hlen : len > P.W
    · simpa only [if_pos hlen] using h
    · simp only [if_neg hlen]
      cases t with
      | null =>
        intro k
        rw [Function.update_apply, h k]; split_ifs <;> rfl
      | node d slots =>
        have hr : RootHolds P d slots m := h
        have hroot := eraseAt_leaf (k := key P pfx len) hr
        simp only [key] at hroot ⊢
        rw [hroot]
        cases hps : removePrefix (applyMask (toHostOrder pfx) len) len d.prefixes with
        | some ps => exact hr.erase (k := (applyMask (toHostOrder pfx) len, len)) hps _
        | none =>
          have hnone := (hr.find (key P pfx len)).symm.trans
            (findPtr_eq_none.2 (removePrefix_eq_none (k := key P pfx len).1 hps))
          have hm : Function.update m (key P pfx len) none = m := by
            rw [← hnone]; exact Function.update_eq_self _ _
          simp only [key] at hm
          simp only [Option.map_none, hm]
          exact hr

theorem not_visits_of_not_ok (hS : P.S = 8) (h : RootOnly P t m) {op : Op P α}
    (hok : ¬ rootOpOk P t op) : ¬ ChildrenTracked P (step P t op) (mapStep P m op) := by
  cases op with
  | erase pfx len => exact absurd trivial hok
  | insert pfx len v =>
    intro hc
    simp only [rootOpOk, not_or] at hok
    obtain ⟨hlen, hins⟩ := hok
    obtain ⟨d, slots, he, hr, hiff⟩ := rootHolds_ensureRoot (k := key P pfx len) h
    rw [hiff] at hins
    set k := key P pfx len with hk
    have hvis := (hc.visits ⟨k.1, v, k.2⟩).2 (by
      simp only [mapStep, if_neg hlen, PrefixEntry.key, ← hk, Function.update_self])
    simp only [step, LpcTrie.insert, if_neg hlen, he,
      show applyMask (toHostOrder pfx) len = k.1 from rfl] at hvis
    rw [show len = k.2 from rfl] at hvis
    by_cases hshort : k.2 ≤ 8
    · -- the root is full: the count of the new list wraps to zero
      have hfull : ¬ ((findPrefix d.prefixes k.1 k.2).isSome ∨ d.prefixes.length < 255) :=
        fun h' => hins ⟨hshort, h'⟩
      rw [not_or] at hfull
      have hcount := hr.count
      have h256 : (d.prefixes.length + 1) % 256 = 0 := by omega
      rw [insertAt_root _ _ hS hr.skip hshort, forEach_eight hS, insertPrefix, if_neg hfull.1] at hvis
      simp [h256] at hvis
    · obtain ⟨slots', hs'⟩ := insertAt_root_long slots v hS hr.skip (not_le.1 hshort)
      rw [hs', forEach_eight hS] at hvis
      exact hshort (hr.short _ hvis)

/-! ## Runs -/

/-- **The bookkeeping of the forwarding trie**: with a stride of eight bits it is
    right in every state of a run exactly when every insertion of the run ends
    on the root and leaves its entry count below 256. -/
theorem childrenTracked_iff (hS : P.S = 8) (ops : List (Op P α)) :
    (∀ ops', ops' <+: ops → ChildrenTracked P (Run.runFrom (step P) .null ops')
      (Run.runFrom (mapStep P) (fun _ => none) ops')) ↔
    Run.Along (rootOpOk P) (step P) .null ops := by
  have hstep (t : Node P.W α) (m : PMap (BitVec P.W) α) (op : Op P α) (hR : RootOnly P t m)
      (hok : rootOpOk P t op) : RootOnly P (step P t op) (mapStep P m op) := rootOnly_step hS hR hok
  have hnil : RootOnly P (.null : Node P.W α) (fun _ => none) := fun _ => rfl
  exact Run.Along.simulation_iff hstep (fun _ _ hR => childrenTracked_of_rootOnly hS hR)
    (fun _ _ _ hR hbad => not_visits_of_not_ok hS hR hbad) hnil ops

/-- A default route and two short prefixes, one of them erased. -/
theorem childrenTracked_short :
    ChildrenTracked LpcParams.fib4
      (Run.runFrom (step LpcParams.fib4) .null
        [.insert (bytes4 0 0 0 0) 0 1, .insert (bytes4 10 0 0 0) 8 2, .insert (bytes4 128 0 0 0) 1 3,
          .erase (bytes4 10 0 0 0) 8])
      (Run.runFrom (mapStep LpcParams.fib4) (fun _ => none)
        [.insert (bytes4 0 0 0 0) 0 1, .insert (bytes4 10 0 0 0) 8 2, .insert (bytes4 128 0 0 0) 1 3,
          .erase (bytes4 10 0 0 0) 8]) :=
  (childrenTracked_iff rfl _).2 (by decide +kernel) _ List.prefix_rfl

/-- `10.1.0.0/16` is stored below the root and never visited. -/
theorem not_childrenTracked_long :
    ¬ ChildrenTracked LpcParams.fib4
      (Run.runFrom (step LpcParams.fib4) .null [.insert (bytes4 10 1 0 0) 16 1])
      (Run.runFrom (mapStep LpcParams.fib4) (fun _ => none) [.insert (bytes4 10 1 0 0) 16 1]) := by
  intro h
  have hv := h.visits ⟨BitVec.ofNat _ 0x0A010000, 1, 16⟩
  revert hv
  decide +kernel

end LpcTrie

end VirtualRouter
