/-
  Longest-prefix match in the trie.

  `lookup` walks the bits of the address and keeps the last cached `best` it
  sees.  It is right when every entry sits on the node whose path is the entry
  itself (`ExactLen`), and when the cache of every node on the walk is the entry
  of the node or, on a node without one, null or the entry of the nearest node
  above that has one (`LpmAt`).

  `lpmInsertOk` and `lpmEraseOk` single out the calls that keep this.  The
  others go wrong as follows: an entry is stored on a node whose path is shorter
  or longer than the entry (`lookup` never compares the bits in between), a
  split lands within the last `S` compressed bits, the cache of a node with an
  entry is overwritten by the cache of its parent on the way down, or the entry
  of a node changes while nodes below still cache the old one.
-/
import VirtualRouter.Types.LpcTrieExact

namespace VirtualRouter

open PrefixMap

namespace LpcTrie

variable (P : LpcParams) {α : Type}

/-- Every entry is as long as the path to its node. -/
inductive ExactLen : Node P.W α → ℕ → Prop
  | null {pos : ℕ} : ExactLen .null pos
  | node {d : NodeData P.W α} {slots : ℕ → Node P.W α} {pos : ℕ} :
      (∀ p ∈ d.prefixes, p.len = pos + d.skipLen) →
      (∀ i, ExactLen (slots i) (pos + d.skipLen + P.S)) → ExactLen (.node d slots) pos

/-- The cache of a node without entry is null or inherited; `c` is the entry of
    the nearest node above that has one. -/
def CacheOk (d : NodeData P.W α) (c : Option α) : Prop :=
  d.best = localBest d.prefixes ∨ (localBest d.prefixes = none ∧ d.best = c)

/-- The nodes on the walk of `q` hold the prefixes of `q`, with the right caches. -/
def LpmAt : Node P.W α → ℕ → BitVec P.W → Option α → Prop
  | .null, _, _, _ => True
  | .node d slots, pos, q, c => AgreeOn q d.skipPattern pos (pos + d.skipLen) →
      (∀ p ∈ d.prefixes, p.key = (mask q (pos + d.skipLen), pos + d.skipLen)) ∧ CacheOk P d c ∧
      LpmAt (slots (strideIdx P q (pos + d.skipLen))) (pos + d.skipLen + P.S) q
        ((localBest d.prefixes).or c)

/-! ## The calls that keep the invariant -/

/-- No node below, down to the next one with an entry, caches a pointer. -/
def noInherited : Node P.W α → Bool
  | .null => true
  | .node d slots => !d.prefixes.isEmpty ||
      (d.best.isNone && (List.range 256).all fun i => noInherited (slots i))

def noneInherit (slots : ℕ → Node P.W α) : Bool :=
  (List.range 256).all fun i => noInherited P (slots i)

/-- The insertion of `k` at a node reached after `pos` bits; `inherits` says that
    the parent has a cached pointer, which overwrites the one of the node. -/
def lpmInsertOk [DecidableEq α] (v : α) : Node P.W α → BitVec P.W × ℕ → ℕ → Bool → Bool
  | .null, _, _, _ => true
  | .node d slots, k, pos, inherits =>
    let matched := commonSkipLen k.1 d.skipPattern pos d.skipLen
    if matched < d.skipLen then
      decide (strideIdx P d.skipPattern (pos + matched) < P.FANOUT) &&
      decide (matched + P.S ≤ d.skipLen) &&
      (decide (pos + matched + P.S < k.2) ||
        (decide (k.2 = pos + matched) && (!d.prefixes.isEmpty || noneInherit P slots)))
    else
      let e := pos + d.skipLen
      if e ≥ k.2 ∨ k.2 - e ≤ P.S then
        decide (k.2 = e) && (decide (localBest d.prefixes = some v) || noneInherit P slots)
      else
        let idx := strideIdx P k.1 e
        decide (idx < P.FANOUT) && (!inherits || d.prefixes.isEmpty) &&
          lpmInsertOk v (slots idx) k (e + P.S) (inherits || d.best.isSome)

/-- The erasure of `k` leaves no inherited copy of its pointer. -/
def lpmEraseOk : Node P.W α → BitVec P.W × ℕ → ℕ → Bool
  | .null, _, _ => true
  | .node d slots, k, pos =>
    let e := pos + d.skipLen
    if !skipMatches d k.1 then true
    else if (findPrefix d.prefixes k.1 k.2).isSome then noneInherit P slots
    else if e ≥ P.W then true
    else lpmEraseOk (slots (strideIdx P k.1 e)) k (e + P.S)

def lpmOpOk [DecidableEq α] (t : Node P.W α) : Op P α → Bool
  | .insert pfx len v =>
    decide (len > P.W) || lpmInsertOk P v (ensureRoot P t) (key P pfx len) 0 false
  | .erase pfx len => decide (len > P.W) || lpmEraseOk P t (key P pfx len) 0

/-! ## Lookup -/

variable {P} {d : NodeData P.W α} {slots : ℕ → Node P.W α} {pos : ℕ} {k : BitVec P.W × ℕ} {v : α}
  {q : BitVec P.W} {c : Option α}

theorem lookupExactFrom_short {m : BitVec P.W} {l : ℕ}
    (hp : ∀ p ∈ d.prefixes, p.len = pos + d.skipLen) (hl : l < pos + d.skipLen)
    (hs : ∀ i, lookupExactFrom P (slots i) m l (pos + d.skipLen + P.S) = none) :
    lookupExactFrom P (.node d slots) m l pos = none := by
  have hnot : findPrefix d.prefixes m l = none := by
    rw [findPrefix, List.find?_eq_none]
    intro p hp'
    have := hp p hp'
    simp only [decide_eq_true_iff]
    omega
  simp only [lookupExactFrom, hnot, hs, ite_self]

theorem ExactLen.lookup_none {n : Node P.W α} {m : BitVec P.W} {l : ℕ} (h : ExactLen P n pos)
    (hl : l < pos) : lookupExactFrom P n m l pos = none := by
  induction n generalizing pos with
  | null => rfl
  | node d slots ih =>
    cases h with
    | node hp hs =>
    exact lookupExactFrom_short hp (by omega) fun i => ih i (hs i) (by omega)

theorem below_short (hs : ∀ i, ExactLen P (slots i) (pos + P.S)) {k : BitVec P.W × ℕ}
    (hl : k.2 < pos + P.S) : below P slots k pos = none := by
  unfold below
  split_ifs
  · rfl
  · exact (hs _).lookup_none hl

theorem prefixes_cases {x : BitVec P.W × ℕ} (hnd : KeysNodup d.prefixes)
    (h : ∀ p ∈ d.prefixes, p.key = x) :
    (d.prefixes = [] ∧ localBest d.prefixes = none) ∨
      ∃ v, d.prefixes = [⟨x.1, v, x.2⟩] ∧ localBest d.prefixes = some v := by
  rcases hp : d.prefixes with _ | ⟨p, ps⟩
  · exact Or.inl ⟨rfl, rfl⟩
  · rw [hp] at h hnd
    have hpk := h p List.mem_cons_self
    have hps : ps = [] := by
      refine List.eq_nil_iff_forall_not_mem.2 fun p' hp' => ?_
      simp only [KeysNodup, List.map_cons, List.nodup_cons] at hnd
      refine hnd.1 ?_
      rw [hpk, ← h p' (List.mem_cons_of_mem _ hp')]
      exact List.mem_map_of_mem hp'
    subst hps
    refine Or.inr ⟨p.ptr, ?_, rfl⟩
    rw [← hpk]; rfl

theorem lookupExactFrom_mask (h : NodeOk P d slots pos)
    (hs : ∀ i, ExactLen P (slots i) (pos + d.skipLen + P.S))
    (ha : AgreeOn q d.skipPattern pos (pos + d.skipLen))
    (hk : ∀ p ∈ d.prefixes, p.key = (mask q (pos + d.skipLen), pos + d.skipLen))
    (l : ℕ) (hl : l ≤ P.W) (hlt : pos + d.skipLen ≤ l) :
    lookupExactFrom P (.node d slots) (mask q l) l pos =
      if l = pos + d.skipLen then localBest d.prefixes
      else lookupExactFrom P (slots (strideIdx P q (pos + d.skipLen))) (mask q l) l
        (pos + d.skipLen + P.S) := by
  have ha' : AgreeOn (mask q l) d.skipPattern pos (pos + d.skipLen) := (mask_agreeOn q hlt).trans ha
  rw [lookupExactFrom_agree (k := (mask q l, l)) h ha']
  have hS := P.hS
  split_ifs with he
  · rw [below_short hs (k := (mask q l, l)) (by simp only; omega), Option.or_none]
    rcases prefixes_cases h.nodup hk with ⟨hp, hb⟩ | ⟨v, hp, hb⟩
    · rw [hp]; rfl
    · rw [hb, hp, findPtr_cons_pos (by rw [he]; rfl)]
  · have hnone : findPtr d.prefixes (mask q l, l) = none :=
      findPtr_eq_none.2 fun p hp he' => he ((congrArg Prod.snd ((hk p hp).symm.trans he')).symm)
    rw [hnone, Option.none_or, below, if_neg (by omega)]
    by_cases hst : pos + d.skipLen + P.S ≤ l
    · rw [(strideIdx_eq_iff P (a := mask q l) (b := q) (by omega)).2 (mask_agreeOn q hst)]
    · rw [(hs _).lookup_none (by omega), (hs _).lookup_none (by omega)]

/-- The value found by `lookup` on the walk of `q` is the longest exact match
    of a prefix of `q`. -/
theorem lookupFrom_eq {n : Node P.W α} (hwf : Wf P n pos) (hex : ExactLen P n pos)
    (h : LpmAt P n pos q c) : lookupFrom P n q pos c =
      (longest (fun l => lookupExactFrom P n (mask q l) l pos) P.W).or c := by
  induction n generalizing pos c with
  | null =>
    have hnone : longest (fun l => lookupExactFrom P (.null : Node P.W α) (mask q l) l pos) P.W = none :=
      longest_eq_none.2 fun _ _ => rfl
    rw [hnone]; rfl
  | node d slots ih =>
    cases hwf with
    | node hn hs =>
    cases hex with
    | node hp hxs =>
    have hshort : ∀ m l, l < pos + d.skipLen → lookupExactFrom P (.node d slots) m l pos = none :=
      fun m l hl => lookupExactFrom_short hp hl fun i => (hxs i).lookup_none (by omega)
    by_cases ha : AgreeOn q d.skipPattern pos (pos + d.skipLen)
    · obtain ⟨hk, hcache, hch⟩ := h ha
      have hbest : d.best.or c = (localBest d.prefixes).or c := by
        rcases hcache with hb | ⟨hl, hb⟩
        · rw [hb]
        · rw [hb, hl]; simp
      have hS := P.hS
      have hmask := lookupExactFrom_mask hn hxs ha hk
      have hchild : ∀ l ≤ pos + d.skipLen,
          lookupExactFrom P (slots (strideIdx P q (pos + d.skipLen))) (mask q l) l
            (pos + d.skipLen + P.S) = none := fun l hl => (hxs _).lookup_none (by omega)
      have hlong := longest_eq_or
        (f := fun l => lookupExactFrom P (.node d slots) (mask q l) l pos) hn.le
        (fun l hl => hshort _ l hl)
        (fun l hl hW => (hmask l hW hl.le).trans (if_neg hl.ne')) hchild
      simp only [hmask _ hn.le le_rfl, if_true] at hlong
      simp only [lookupFrom, (skipMatches_iff hn.mask hn.le).2 ha, Bool.not_true, Bool.false_eq_true,
        if_false, hbest]
      rw [hlong]
      split_ifs with hW
      · rw [longest_eq_none.2 fun l hl => hchild l (by omega), Option.none_or]
      · rw [ih _ (hs _) (hxs _) hch, Option.or_assoc]
    · have hm : skipMatches d q = false := by
        rw [← Bool.not_eq_true, skipMatches_iff hn.mask hn.le]; exact ha
      have hnone : ∀ l ≤ P.W, lookupExactFrom P (.node d slots) (mask q l) l pos = none := by
        intro l _
        by_cases hl : l < pos + d.skipLen
        · exact hshort _ l hl
        · refine lookupExactFrom_disagree (k := (mask q l, l)) hn fun h' => ha ?_
          exact (mask_agreeOn q (not_lt.1 hl)).symm.trans h'
      rw [longest_eq_none.2 hnone]
      simp only [lookupFrom, hm, Bool.not_false, if_true, Option.none_or]

/-! ## The context of a subtree -/

theorem localBest_ne_none {ps : List (PrefixEntry P.W α)} (h : ps ≠ []) : localBest ps ≠ none := by
  simpa [localBest] using h

theorem noInherited_slot (h : noneInherit P slots = true) (q : BitVec P.W) (e : ℕ) :
    noInherited P (slots (strideIdx P q e)) = true := by
  refine List.all_eq_true.1 h _ (List.mem_range.2 ?_)
  exact Nat.mod_lt _ (by decide)

/-- Where no cache is inherited, the entry above the subtree does not matter. -/
theorem LpmAt.change {n : Node P.W α} {c c' : Option α} (hn : noInherited P n = true)
    (h : LpmAt P n pos q c) : LpmAt P n pos q c' := by
  induction n generalizing pos c c' with
  | null => trivial
  | node d slots ih =>
    intro ha
    obtain ⟨hk, hcache, hch⟩ := h ha
    simp only [noInherited, Bool.or_eq_true, Bool.and_eq_true, Bool.not_eq_true',
      Option.isNone_iff_eq_none] at hn
    rcases hn with hne | ⟨hb, hall⟩
    · have hsome : localBest d.prefixes ≠ none := localBest_ne_none (by simpa using hne)
      refine ⟨hk, Or.inl (hcache.resolve_right fun h' => hsome h'.1), ?_⟩
      obtain ⟨v, hv⟩ := Option.ne_none_iff_exists'.1 hsome
      rw [hv] at hch ⊢
      exact hch
    · have hbl : d.best = localBest d.prefixes := by
        rcases hcache with h' | ⟨h', -⟩
        · exact h'
        · rw [h', hb]
      exact ⟨hk, Or.inl hbl, ih _ (noInherited_slot hall q _) hch⟩

variable (P)

/-- The invariant of a subtree reached by the first `pos` bits of `m`. -/
structure LpmOn (n : Node P.W α) (pos : ℕ) (m : BitVec P.W) (c : Option α) : Prop where
  exact : ExactLen P n pos
  walk : ∀ q, AgreeOn q m 0 pos → LpmAt P n pos q c

variable {P} {m : BitVec P.W}

theorem LpmOn.null : LpmOn P (.null : Node P.W α) pos m c := ⟨.null, fun _ _ => trivial⟩

theorem LpmOn.slot (h : LpmOn P (.node d slots) pos m c)
    (ha : AgreeOn m d.skipPattern pos (pos + d.skipLen)) (hW : pos + d.skipLen + P.S ≤ P.W) :
    LpmOn P (slots (strideIdx P m (pos + d.skipLen))) (pos + d.skipLen + P.S) m
      ((localBest d.prefixes).or c) := by
  cases h.exact with
  | node hp hs =>
  refine ⟨hs _, fun q hq => ?_⟩
  have hq' : AgreeOn q d.skipPattern pos (pos + d.skipLen) :=
    (hq.mono (by omega) (by omega)).trans ha
  have hch := (h.walk q (hq.mono le_rfl (by omega)) hq').2.2
  rwa [(strideIdx_eq_iff P (a := q) (b := m) hW).2 (hq.mono (by omega) le_rfl)] at hch

theorem LpmOn.keys (h : LpmOn P (.node d slots) pos m c)
    (ha : AgreeOn m d.skipPattern pos (pos + d.skipLen)) :
    (∀ p ∈ d.prefixes, p.key = (mask m (pos + d.skipLen), pos + d.skipLen)) ∧ CacheOk P d c :=
  ⟨(h.walk m (AgreeOn.refl _ _ _) ha).1, (h.walk m (AgreeOn.refl _ _ _) ha).2.1⟩

/-! ## Insertion -/

theorem insertPrefix_same (hnd : KeysNodup d.prefixes) (h : ∀ p ∈ d.prefixes, p.key = k) :
    insertPrefix d.prefixes k.1 k.2 v = [⟨k.1, v, k.2⟩] := by
  rcases prefixes_cases hnd h with ⟨hp, -⟩ | ⟨w, hp, -⟩
  · rw [hp]; rfl
  · rw [hp]; simp [insertPrefix, findPrefix, setPtr]

theorem lpmOn_here (h : LpmOn P (.node d slots) pos k.1 c) (hnd : KeysNodup d.prefixes)
    (ha : AgreeOn k.1 d.skipPattern pos (pos + d.skipLen)) (hk : k.2 = pos + d.skipLen)
    (hmask : mask k.1 k.2 = k.1) (hctx : localBest d.prefixes = some v ∨ noneInherit P slots = true) :
    LpmOn P (.node { d with
      prefixes := insertPrefix d.prefixes k.1 k.2 v
      best := localBest (insertPrefix d.prefixes k.1 k.2 v) } slots) pos k.1 c := by
  have hkeys : ∀ p ∈ d.prefixes, p.key = k := fun p hp => by
    rw [(h.keys ha).1 p hp, ← hk, hmask]
  rw [insertPrefix_same hnd hkeys]
  cases h.exact with
  | node hp hs =>
  refine ⟨.node (fun p hp => ?_) hs, fun q hq hqs => ⟨fun p hp => ?_, Or.inl rfl, ?_⟩⟩
  · rw [List.mem_singleton.1 hp]; exact hk
  · have hqk : AgreeOn q k.1 0 k.2 := by
      rw [hk]; exact hq.append (hqs.trans ha.symm)
    rw [List.mem_singleton.1 hp]
    simp only [PrefixEntry.key, ← hk, ← eq_mask_of_agreeOn hmask hqk]
  · have hch := (h.walk q hq hqs).2.2
    rcases hctx with hv | hno
    · rw [hv] at hch; exact hch
    · exact hch.change (noInherited_slot hno q _)

theorem lpmOn_below (h : LpmOn P (.node d slots) pos m c)
    (ha : AgreeOn m d.skipPattern pos (pos + d.skipLen)) (hW : pos + d.skipLen + P.S ≤ P.W)
    {n : Node P.W α} (hc : LpmOn P n (pos + d.skipLen + P.S) m ((localBest d.prefixes).or c)) :
    LpmOn P (.node d (Function.update slots (strideIdx P m (pos + d.skipLen)) n)) pos m c := by
  cases h.exact with
  | node hp hs =>
  refine ⟨.node hp fun i => ?_, fun q hq hqs => ?_⟩
  · by_cases hi : i = strideIdx P m (pos + d.skipLen)
    · rw [hi, Function.update_self]; exact hc.exact
    · rw [Function.update_of_ne hi]; exact hs i
  · obtain ⟨hk, hcache, hch⟩ := h.walk q hq hqs
    refine ⟨hk, hcache, ?_⟩
    by_cases hi : strideIdx P q (pos + d.skipLen) = strideIdx P m (pos + d.skipLen)
    · have hqm := (strideIdx_eq_iff P (a := q) (b := m) hW).1 hi
      rw [hi, Function.update_self]
      exact hc.walk q ((hq.append (hqs.trans ha.symm)).append hqm)
    · rw [Function.update_of_ne hi]; exact hch

theorem lpmOn_leaf (b : Option α) (hk : pos < k.2) (hW : k.2 ≤ P.W) (hmask : mask k.1 k.2 = k.1) :
    LpmOn P (newLeaf P k.1 k.2 v pos b) pos k.1 c := by
  have hrem : k.2 - pos > 0 := by omega
  have h255 : ¬ k.2 - pos > 255 := by have := P.W_le; omega
  have hend : pos + (k.2 - pos) = k.2 := by omega
  have hps : insertPrefix [] k.1 k.2 v = [⟨k.1, v, k.2⟩] := rfl
  simp only [newLeaf, if_pos hrem, if_neg h255, updateBest, hps]
  refine ⟨.node (fun p hp => ?_) fun _ => .null, fun q hq hqs => ⟨fun p hp => ?_, Or.inl rfl, trivial⟩⟩
  · rw [List.mem_singleton.1 hp]; exact hend.symm
  · simp only [hend] at hqs ⊢
    rw [List.mem_singleton.1 hp]
    simp only [PrefixEntry.key, ← eq_mask_of_agreeOn hmask (hq.append hqs)]

theorem lpmOn_updateBest {b : Option α} (h : LpmOn P (.node d slots) pos m c)
    (hb : b = none ∨ b = c) (hd : b.isSome → d.prefixes = []) :
    LpmOn P (.node { d with best := b.or d.best } slots) pos m c := by
  cases h.exact with
  | node hp hs =>
  refine ⟨.node hp hs, fun q hq hqs => ?_⟩
  obtain ⟨hk, hcache, hch⟩ := h.walk q hq hqs
  refine ⟨hk, ?_, hch⟩
  cases b with
  | none => exact hcache
  | some w =>
    obtain rfl : some w = c := hb.resolve_left (by simp)
    exact Or.inr ⟨by rw [hd rfl]; rfl, rfl⟩

/-! ### Splitting -/

theorem lower_eq (hn : NodeOk P d slots pos) {x : BitVec P.W × ℕ}
    (h : ∀ p ∈ d.prefixes, p.key = x) (matched : ℕ) :
    (lowerData d pos matched).prefixes = d.prefixes := by
  have hperm := lower_perm hn matched
  rcases prefixes_cases hn.nodup h with ⟨hp, -⟩ | ⟨w, hp, -⟩
  · rw [hp] at hperm ⊢; exact List.perm_nil.1 hperm
  · rw [hp] at hperm ⊢; exact List.perm_singleton.1 hperm

theorem lpmOn_split {matched : ℕ} (hn : NodeOk P d slots pos) (h : LpmOn P (.node d slots) pos m c)
    (hal : matched + P.S ≤ d.skipLen) :
    LpmOn P (splitNode P d slots pos matched) pos m c := by
  have hle := hn.le
  have hlow : pos + matched + P.S + (d.skipLen - (matched + P.S)) = pos + d.skipLen := by omega
  rw [splitNode_eq]
  cases h.exact with
  | node hp hs =>
  refine ⟨.node (by simp [upperData]) fun i => ?_, fun q hq hqs => ⟨by simp [upperData], Or.inl rfl, ?_⟩⟩
  · by_cases hi : i = strideIdx P d.skipPattern (pos + matched)
    · rw [hi, Function.update_self]
      refine .node (fun p hp' => ?_) fun j => ?_
      · simp only [upperData, lowerData, hlow]
        exact hp p ((lower_perm hn matched).mem_iff.1 hp')
      · simp only [upperData, lowerData, hlow]; exact hs j
    · rw [Function.update_of_ne hi]; exact .null
  · simp only [upperData] at hqs ⊢
    by_cases hi : strideIdx P q (pos + matched) = strideIdx P d.skipPattern (pos + matched)
    · rw [hi, Function.update_self]
      intro hql
      have hqd := (strideIdx_eq_iff P (a := q) (b := d.skipPattern) (by omega)).1 hi
      have hqall : AgreeOn q d.skipPattern pos (pos + d.skipLen) := by
        refine (hqs.append hqd).append ?_
        simp only [lowerData, hlow] at hql
        by_cases h0 : d.skipLen > matched + P.S
        · rwa [if_pos h0] at hql
        · exact agreeOn_empty _ _ (by omega)
      obtain ⟨hk, hcache, hch⟩ := h.walk q hq hqall
      have hpe := lower_eq hn hk matched
      refine ⟨fun p hp => ?_, Or.inl rfl, ?_⟩
      · rw [hpe] at hp
        simp only [lowerData, hlow]
        exact hk p hp
      · rw [hpe]
        simp only [lowerData, hlow]
        exact hch
    · rw [Function.update_of_ne hi]; trivial

theorem noneInherit_split {matched i : ℕ} (hn : NodeOk P d slots pos)
    (h : d.prefixes ≠ [] ∨ noneInherit P slots = true) :
    noneInherit P (Function.update noChildren i (.node (lowerData d pos matched) slots)) = true := by
  refine List.all_eq_true.2 fun j _ => ?_
  have hperm := lower_perm hn matched
  by_cases hj : j = i
  · rw [hj, Function.update_self]
    simp only [noInherited, Bool.or_eq_true, Bool.and_eq_true, Bool.not_eq_true']
    by_cases hnil : d.prefixes = []
    · have hlow : (lowerData d pos matched).prefixes = [] := by
        rw [hnil] at hperm; exact List.perm_nil.1 hperm
      refine Or.inr ⟨?_, h.resolve_left (by simp [hnil])⟩
      rw [show (lowerData d pos matched).best = localBest (lowerData d pos matched).prefixes from rfl,
        hlow]; rfl
    · refine Or.inl ?_
      rw [List.isEmpty_eq_false_iff]
      exact fun hlow => hnil (by rw [hlow] at hperm; exact List.nil_perm.1 hperm)
  · rw [Function.update_of_ne hj]; rfl

/-! ### The descent -/

theorem agreeOn_of_match (hn : NodeOk P d slots pos)
    (hm : ¬ commonSkipLen k.1 d.skipPattern pos d.skipLen < d.skipLen) :
    AgreeOn k.1 d.skipPattern pos (pos + d.skipLen) := by
  rw [← commonSkipLen_eq_iff P.W_le hn.le]
  have := commonSkipLen_le k.1 d.skipPattern pos d.skipLen
  omega

/-- The cache handed down to a child is null or the entry above the child. -/
theorem CacheOk.inherit {b : Option α} (h : CacheOk P d c) (hb : b = none ∨ b = c)
    (hd : b.isSome → d.prefixes = []) :
    b.or d.best = none ∨ b.or d.best = (localBest d.prefixes).or c := by
  cases b with
  | none =>
    rw [Option.none_or]
    rcases h with h | ⟨hl, h⟩
    · rw [h]
      cases localBest d.prefixes with
      | none => exact Or.inl rfl
      | some w => exact Or.inr rfl
    · rw [hl, h]; exact Or.inr rfl
  | some w =>
    obtain rfl : some w = c := hb.resolve_left (by simp)
    rw [hd rfl]; exact Or.inr rfl

variable [DecidableEq α]

theorem lpmInsertOk_match {inh : Bool}
    (h : ¬ commonSkipLen k.1 d.skipPattern pos d.skipLen < d.skipLen) :
    lpmInsertOk P v (.node d slots) k pos inh =
      if pos + d.skipLen ≥ k.2 ∨ k.2 - (pos + d.skipLen) ≤ P.S then
        decide (k.2 = pos + d.skipLen) &&
          (decide (localBest d.prefixes = some v) || noneInherit P slots)
      else decide (strideIdx P k.1 (pos + d.skipLen) < P.FANOUT) &&
        (!inh || d.prefixes.isEmpty) &&
        lpmInsertOk P v (slots (strideIdx P k.1 (pos + d.skipLen))) k (pos + d.skipLen + P.S)
          (inh || d.best.isSome) := by
  simp only [lpmInsertOk, if_neg h]

theorem lpmInsertOk_split {inh : Bool} (h : commonSkipLen k.1 d.skipPattern pos d.skipLen < d.skipLen)
    (hok : lpmInsertOk P v (.node d slots) k pos inh = true) :
    let matched := commonSkipLen k.1 d.skipPattern pos d.skipLen
    strideIdx P d.skipPattern (pos + matched) < P.FANOUT ∧ matched + P.S ≤ d.skipLen ∧
      (pos + matched + P.S < k.2 ∨
        k.2 = pos + matched ∧ (d.prefixes ≠ [] ∨ noneInherit P slots = true)) := by
  simpa only [lpmInsertOk, if_pos h, Bool.and_eq_true, Bool.or_eq_true, decide_eq_true_iff,
    Bool.not_eq_true', List.isEmpty_eq_false_iff, and_assoc] using hok

theorem insertOk_of_lpm {n : Node P.W α} {inh : Bool} (hwf : Wf P n pos) (h : LpmOn P n pos k.1 c)
    (hW : k.2 ≤ P.W) (hok : lpmInsertOk P v n k pos inh = true) : insertOk P n k pos = true := by
  induction n generalizing pos c inh with
  | null => rfl
  | node d slots ih =>
    cases hwf with
    | node hn hs =>
    have hle := hn.le
    by_cases hm : commonSkipLen k.1 d.skipPattern pos d.skipLen < d.skipLen
    · obtain ⟨hidx, hal, -⟩ := lpmInsertOk_split hm hok
      simp only [insertOk, if_pos hm, splitOk, Bool.and_eq_true, Bool.or_eq_true, decide_eq_true_iff]
      exact ⟨⟨by omega, hidx⟩, Or.inl hal⟩
    · have ha := agreeOn_of_match hn hm
      rw [lpmInsertOk_match hm] at hok
      rw [insertOk_match hm]
      split_ifs at hok ⊢ with hend
      · simp only [Bool.and_eq_true, decide_eq_true_iff] at hok
        have hlen : d.prefixes.length < 255 := by
          rcases prefixes_cases hn.nodup (h.keys ha).1 with ⟨hp, -⟩ | ⟨w, hp, -⟩ <;> simp [hp]
        have hbelow : below P slots k (pos + d.skipLen) = none := by
          cases h.exact with
          | node hp hs' => exact below_short hs' (by have := P.hS; omega)
        simp [endOk, hlen, hbelow]
      · simp only [Bool.and_eq_true, decide_eq_true_iff] at hok ⊢
        exact ⟨hok.1.1, ih _ (hs _) (h.slot ha (by omega)) hok.2⟩

theorem lpmOn_insert_split {b : Option α} (hn : NodeOk P d slots pos)
    (hm : commonSkipLen k.1 d.skipPattern pos d.skipLen < d.skipLen)
    (h : LpmOn P (.node d slots) pos k.1 c) (hW : k.2 ≤ P.W) (hmask : mask k.1 k.2 = k.1)
    {inh : Bool} (hok : lpmInsertOk P v (.node d slots) k pos inh = true) :
    LpmOn P (insertAt P (.node { d with best := b } slots) k.1 k.2 v pos) pos k.1 c := by
  obtain ⟨hidx, hal, hcase⟩ := lpmInsertOk_split hm hok
  have hspec := commonSkipLen_spec P.W_le hn.le (a := k.1) (b := d.skipPattern)
  rw [insertAt_splitNode { d with best := b } _ _ _ _ _ hm]
  simp only
  set matched := commonSkipLen k.1 d.skipPattern pos d.skipLen with hmatched
  have hsplit : splitNode P { d with best := b } slots pos matched = splitNode P d slots pos matched := rfl
  have hS := P.hS
  have hle := hn.le
  have hon := lpmOn_split hn h hal
  have hself : commonSkipLen k.1 d.skipPattern pos matched = matched := commonSkipLen_self _ _ _ _
  have hup : (upperData d pos matched).skipLen = matched := rfl
  have hag : AgreeOn k.1 (upperData d pos matched).skipPattern pos (pos + matched) := hspec.2.1
  rw [splitNode_eq] at hon
  rw [hsplit, splitNode_eq]
  rw [insertAt_match _ _ _ _ _ _ (by simp only [upperData, hself, lt_irrefl, not_false_eq_true])]
  rcases hcase with hlong | ⟨hk, hctx⟩
  · -- the key takes an empty slot of the upper node
    have hne : strideIdx P k.1 (pos + matched) ≠ strideIdx P d.skipPattern (pos + matched) := by
      rw [Ne, strideIdx_eq_iff P (by omega)]
      exact fun h' => hspec.2.2 hm (h' _ le_rfl (by omega))
    rw [if_neg (by rw [hup]; omega)]
    refine lpmOn_below hon hag (by rw [hup]; omega) ?_
    simp only [hup, Function.update_of_ne hne, noChildren]
    exact lpmOn_leaf _ (by omega) hW hmask
  · rw [if_pos (by rw [hup]; omega)]
    exact lpmOn_here hon (by simp [KeysNodup, upperData]) hag hk hmask
      (Or.inr (noneInherit_split hn hctx))

/-- **Insertion keeps the invariant** below the first `pos` bits of the key. -/
theorem lpmOn_insertAt (hW : k.2 ≤ P.W) (hmask : mask k.1 k.2 = k.1) {n : Node P.W α} (hne : n ≠ .null)
    (hwf : Wf P n pos) {b : Option α} (hb : b = none ∨ b = c) (h : LpmOn P n pos k.1 c)
    (hok : lpmInsertOk P v n k pos b.isSome = true) :
    LpmOn P (insertAt P (updateBest b n) k.1 k.2 v pos) pos k.1 c := by
  induction n generalizing pos b c with
  | null => exact absurd rfl hne
  | node d slots ih =>
    cases hwf with
    | node hn hs =>
    simp only [updateBest]
    by_cases hm : commonSkipLen k.1 d.skipPattern pos d.skipLen < d.skipLen
    · exact lpmOn_insert_split hn hm h hW hmask hok
    · have ha := agreeOn_of_match hn hm
      rw [lpmInsertOk_match hm] at hok
      rw [insertAt_match { d with best := b.or d.best } _ _ _ _ _ hm]
      simp only
      split_ifs at hok ⊢ with hend
      · simp only [Bool.and_eq_true, Bool.or_eq_true, decide_eq_true_iff] at hok
        exact lpmOn_here h hn.nodup ha hok.1 hmask hok.2
      · simp only [Bool.and_eq_true, Bool.or_eq_true, decide_eq_true_iff, Bool.not_eq_true',
          List.isEmpty_iff] at hok
        obtain ⟨⟨-, hinh⟩, hrec⟩ := hok
        have hd : b.isSome → d.prefixes = [] := fun hb' => hinh.resolve_left (by simp [hb'])
        refine lpmOn_below (lpmOn_updateBest h hb hd) ha (by simp only; omega) ?_
        have hslot := h.slot ha (by omega)
        have hwfs := hs (strideIdx P k.1 (pos + d.skipLen))
        have hbest := (h.keys ha).2.inherit hb hd
        simp only at hbest ⊢
        have ihc := @ih (strideIdx P k.1 (pos + d.skipLen))
        cases hc : slots (strideIdx P k.1 (pos + d.skipLen)) with
        | null => exact lpmOn_leaf _ (by omega) hW hmask
        | node cd cs =>
          rw [hc] at hslot hwfs hrec ihc
          exact ihc (by simp) hwfs hbest hslot (by rw [Option.isSome_or]; exact hrec)

/-! ## Erasure -/

omit [DecidableEq α] in
theorem lpmOn_localBest (h : LpmOn P (.node d slots) pos m c) :
    LpmOn P (.node { d with best := localBest d.prefixes } slots) pos m c := by
  cases h.exact with
  | node hp hs =>
  refine ⟨.node hp hs, fun q hq hqs => ?_⟩
  obtain ⟨hk, -, hch⟩ := h.walk q hq hqs
  exact ⟨hk, Or.inl rfl, hch⟩

omit [DecidableEq α] in
theorem lpmOn_removed (h : LpmOn P (.node d slots) pos m c) (hno : noneInherit P slots = true) :
    LpmOn P (.node { d with prefixes := [], best := none } slots) pos m c := by
  cases h.exact with
  | node hp hs =>
  refine ⟨.node (by simp) hs, fun q hq hqs => ⟨by simp, Or.inl rfl, ?_⟩⟩
  exact (h.walk q hq hqs).2.2.change (noInherited_slot hno q _)

omit [DecidableEq α] in
/-- **Erasure keeps the invariant** below the first `pos` bits of the key. -/
theorem lpmOn_eraseAt {n n' : Node P.W α} {hp : Bool} (hwf : Wf P n pos) (h : LpmOn P n pos k.1 c)
    (hok : lpmEraseOk P n k pos = true) (he : eraseAt P hp n k.1 k.2 pos = some n') :
    LpmOn P n' pos k.1 c := by
  induction n generalizing pos c hp n' with
  | null => simp [eraseAt] at he
  | node d slots ih =>
    cases hwf with
    | node hn hs =>
    by_cases ha : AgreeOn k.1 d.skipPattern pos (pos + d.skipLen)
    · have hm := (skipMatches_iff hn.mask hn.le).2 ha
      simp only [eraseAt, hm, Bool.not_true, Bool.false_eq_true, if_false] at he
      simp only [lpmEraseOk, hm, Bool.not_true, Bool.false_eq_true, if_false] at hok
      cases hps : removePrefix k.1 k.2 d.prefixes with
      | some ps =>
        obtain ⟨p, hpk, hperm⟩ := removePrefix_eq_some hps
        have hnil : ps = [] := by
          rcases prefixes_cases hn.nodup (h.keys ha).1 with ⟨hp, -⟩ | ⟨w, hp, -⟩
          · rw [hp] at hperm; exact absurd hperm.symm.eq_nil (by simp)
          · rw [hp] at hperm; exact (List.cons.inj (List.singleton_perm.1 hperm)).2.symm
        rw [if_pos (findPrefix_isSome.2 ⟨p, hperm.mem_iff.2 List.mem_cons_self, hpk⟩)] at hok
        subst hnil
        simp only [hps, Option.some.injEq] at he
        rw [← he]
        split_ifs
        · exact LpmOn.null
        · exact lpmOn_removed h hok
      | none =>
        have hnf : ¬ (findPrefix d.prefixes k.1 k.2).isSome = true := by
          rw [findPrefix_isSome]
          rintro ⟨p, hp, hpk⟩
          exact removePrefix_eq_none.1 hps p hp hpk
        rw [if_neg hnf] at hok
        simp only [hps] at he
        split_ifs at he hok with hge
        cases hc : eraseAt P true (slots (strideIdx P k.1 (pos + d.skipLen))) k.1 k.2
            (pos + d.skipLen + P.S) with
        | none => simp [hc] at he
        | some ch =>
          simp only [hc, Option.some.injEq] at he
          rw [← he]
          have hW : pos + d.skipLen + P.S ≤ P.W := by
            have hwfs := hs (strideIdx P k.1 (pos + d.skipLen))
            cases hsl : slots (strideIdx P k.1 (pos + d.skipLen)) with
            | null => rw [hsl] at hc; simp [eraseAt] at hc
            | node cd cs =>
              rw [hsl] at hwfs
              cases hwfs with
              | node hcn _ => have := hcn.le; omega
          exact lpmOn_below (lpmOn_localBest h) ha hW (ih _ (hs _) (h.slot ha hW) hok hc)
    · have hm : skipMatches d k.1 = false := by
        rw [← Bool.not_eq_true, skipMatches_iff hn.mask hn.le]; exact ha
      simp [eraseAt, hm] at he

/-! ## Histories -/

variable (P)

/-- The trie answers longest-prefix matches as the map `m` does: null exactly
    when no prefix of the address is in `m`, and otherwise the pointer of the
    longest one. -/
structure LpmRefines (t : Node P.W α) (m : PMap (BitVec P.W) α) : Prop where
  lookup : ∀ a, lookup P t a = lpm m a
  lookup_none : ∀ a, LpcTrie.lookup P t a = none ↔ ∀ l ≤ P.W, m (mask a l, l) = none

variable {P}

/-- The state of a history. -/
structure LpmTracks (t : Node P.W α) (m : PMap (BitVec P.W) α) : Prop where
  tracks : Tracks t m
  on : ∀ a, LpmOn P t 0 a none

omit [DecidableEq α] in
theorem lpmOn_ensureRoot {t : Node P.W α} {a : BitVec P.W} (h : LpmOn P t 0 a none) :
    LpmOn P (ensureRoot P t) 0 a none := by
  cases t with
  | null =>
    exact ⟨.node (by simp) fun _ => .null, fun q _ _ => ⟨by simp, Or.inl rfl, trivial⟩⟩
  | node => exact h

omit [DecidableEq α] in
theorem lpmOn_root {t : Node P.W α} {a : BitVec P.W} (h : LpmOn P t 0 a none) (a' : BitVec P.W) :
    LpmOn P t 0 a' none := ⟨h.exact, fun q _ => h.walk q (agreeOn_empty _ _ le_rfl)⟩

theorem mask_key (pfx : Fin P.N → BitVec 8) (len : ℕ) :
    mask (key P pfx len).1 (key P pfx len).2 = (key P pfx len).1 := by
  simp only [key, applyMask_eq, mask_mask_self]

theorem lpmTracks_step {t : Node P.W α} {m : PMap (BitVec P.W) α} (h : LpmTracks t m) {op : Op P α}
    (hok : lpmOpOk P t op = true) : LpmTracks (step P t op) (mapStep P m op) := by
  cases op with
  | insert pfx len v =>
    by_cases hlen : len > P.W
    · simpa only [step, insert, mapStep, if_pos hlen] using h
    · simp only [lpmOpOk, decide_eq_false hlen, Bool.false_or] at hok
      have hW : (key P pfx len).2 ≤ P.W := not_lt.1 hlen
      have hon := lpmOn_ensureRoot (h.on (key P pfx len).1)
      have hwf := wf_ensureRoot h.tracks.wf
      refine ⟨tracks_step h.tracks ?_, lpmOn_root (a := (key P pfx len).1) ?_⟩
      · simp only [opOk, insertOk_of_lpm hwf hon hW hok, Bool.or_true]
      · have hins := lpmOn_insertAt hW (mask_key pfx len) (ensureRoot_ne t) hwf
          (b := none) (Or.inl rfl) hon hok
        rw [updateBest_none] at hins
        simp only [step, insert, if_neg hlen]
        exact hins
  | erase pfx len =>
    by_cases hlen : len > P.W
    · simpa only [step, erase, mapStep, if_pos hlen] using h
    · simp only [lpmOpOk, decide_eq_false hlen, Bool.false_or] at hok
      refine ⟨tracks_step h.tracks rfl, lpmOn_root (a := (key P pfx len).1) ?_⟩
      simp only [step, erase, if_neg hlen]
      cases he : eraseAt P false t (applyMask (toHostOrder pfx) len) len 0 with
      | none => exact h.on _
      | some t' => exact lpmOn_eraseAt h.tracks.wf (h.on _) hok he

omit [DecidableEq α] in
theorem lpmRefines_of_tracks {t : Node P.W α} {m : PMap (BitVec P.W) α} (h : LpmTracks t m) :
    LpmRefines P t m := by
  have hl : ∀ a, lookup P t a = lpm m a := by
    intro a
    rw [lookup, lookupFrom_eq h.tracks.wf (h.on a).exact ((h.on a).walk a (AgreeOn.refl _ _ _)),
      Option.or_none]
    exact longest_congr fun l hl => h.tracks.lookup (mask a l, l) hl
  exact ⟨hl, fun a => by rw [hl]; exact longest_eq_none⟩

/-- **Longest-prefix match of the replayed calls**, along every history whose
    calls keep the caches exact. -/
theorem lpmRefines_replay (ops : List (Op P α))
    (h : Run.Along (fun t op => lpmOpOk P t op = true) (step P) .null ops) :
    LpmRefines P (Run.runFrom (step P) .null ops) (Run.runFrom (mapStep P) (fun _ => none) ops) := by
  have hstep : ∀ (t : Node P.W α) (m : PMap (BitVec P.W) α) (op : Op P α), LpmTracks t m →
      lpmOpOk P t op = true → LpmTracks (step P t op) (mapStep P m op) :=
    fun _ _ _ hR hok => lpmTracks_step hR hok
  exact lpmRefines_of_tracks
    (Run.Along.simulation hstep ⟨tracks_nil, fun _ => LpmOn.null⟩ h)

/-- A nested pair, a split within the compressed bits, a default route and an
    erasure. -/
theorem lpmRefines_replay_nested :
    LpmRefines LpcParams.v4
      (Run.runFrom (step LpcParams.v4) .null
        [.insert (bytes4 10 0 0 0) 8 1, .insert (bytes4 10 1 1 0) 24 2,
          .insert (bytes4 10 2 2 0) 24 3, .insert (bytes4 0 0 0 0) 0 4, .erase (bytes4 10 1 1 0) 24])
      (Run.runFrom (mapStep LpcParams.v4) (fun _ => none)
        [.insert (bytes4 10 0 0 0) 8 1, .insert (bytes4 10 1 1 0) 24 2,
          .insert (bytes4 10 2 2 0) 24 3, .insert (bytes4 0 0 0 0) 0 4, .erase (bytes4 10 1 1 0) 24]) :=
  lpmRefines_replay _ (by decide +kernel)

/-- `128.0.0.0/1` ends on the root, whose path is empty: the lookup of `0.0.0.0`
    finds it as well. -/
theorem not_lpmRefines_root :
    ¬ LpmRefines LpcParams.v4
      (Run.runFrom (step LpcParams.v4) .null [.insert (bytes4 128 0 0 0) 1 1])
      (Run.runFrom (mapStep LpcParams.v4) (fun _ => none) [.insert (bytes4 128 0 0 0) 1 1]) := by
  intro h
  have hl := h.lookup 0
  revert hl
  decide +kernel

end LpcTrie

end VirtualRouter
