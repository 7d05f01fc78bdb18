/-
  The Patricia trie as a map of prefixes.

  `Wf` is the representation invariant: below a node, every prefix agrees with
  the node's up to the node's bit and lies on the side of its own bit there; it
  is longer than the bit it was routed by, and it is no shorter prefix of the
  node's own.  Under `Wf` the exact walk finds every stored prefix, and the walk
  of an address meets the stored prefixes of the address in order of length.

  `insertOk` and `eraseOk` single out the calls that keep it.  The others go
  wrong as follows: an inserted prefix is routed by a bit beyond its length (in
  particular below a node with bit `W`, where no walk goes on), ends below a
  longer prefix that it covers, or is spliced above a shorter one whose length
  is at most the new routing bit; an erased node with children keeps its prefix
  with a default value.
-/
import VirtualRouter.Lib.Run
import VirtualRouter.Types.RadixTreeBits

namespace VirtualRouter

open PrefixMap

namespace RadixTree

variable {N : ℕ} {α : Type}

def NodeData.key (n : NodeData N α) : Bytes N × ℕ := (n.pfx, n.length)

/-- The nodes of a tree. -/
inductive Mem (m : NodeData N α) : Node N α → Prop
  | here {l r : Node N α} : Mem m (.node m l r)
  | left {n : NodeData N α} {l r : Node N α} : Mem m l → Mem m (.node n l r)
  | right {n : NodeData N α} {l r : Node N α} : Mem m r → Mem m (.node n l r)

/-- A key, with the routing bit of its node, that may stand below `n` on side `dir`. -/
structure Side (n : NodeData N α) (dir : Bool) (k : Bytes N × ℕ) (b : ℕ) : Prop where
  agree : AgreeOn k.1 n.pfx 0 n.bit
  side : bit k.1 n.bit = dir
  lt : n.bit < b
  long : n.bit < k.2
  /-- it does not cover the prefix of the node -/
  nested : k.2 ≤ n.length → ¬ AgreeOn k.1 n.pfx 0 k.2

structure KeyOk (k : Bytes N × ℕ) : Prop where
  masked : mask k.1 k.2 = k.1
  le : k.2 ≤ W N

/-- The representation invariant. -/
inductive Wf : Node N α → Prop
  | null : Wf .null
  | node {n : NodeData N α} {l r : Node N α} : KeyOk n.key → n.bit ≤ W N →
      (∀ m, Mem m l → Side n false m.key m.bit) → (∀ m, Mem m r → Side n true m.key m.bit) →
      Wf l → Wf r → Wf (.node n l r)

/-! ## The calls that keep the invariant -/

/-- The insertion of `k` keeps every prefix on its walk. -/
def insertOk : Node N α → Bytes N × ℕ → Prop
  | .null, _ => True
  | .node n l r, k =>
    if n.isKey k.1 k.2 then True
    else if diffbit n.pfx k.1 < n.bit then diffbit n.pfx k.1 < n.length
    else n.bit < k.2 ∧ ¬ (k.2 < n.length ∧ prefixCovers n.pfx k.1 k.2 = true) ∧
      if bitAt k.1 n.bit then insertOk r k else insertOk l k

/-- The node of `k`, if the walk meets it, has no children. -/
def eraseOk : Node N α → Bytes N × ℕ → Prop
  | .null, _ => True
  | .node n l r, k =>
    if n.isKey k.1 k.2 then (l.isNull && r.isNull) = true
    else if n.bit ≥ W N then True
    else if bitAt k.1 n.bit then eraseOk r k else eraseOk l k

instance insertOk.decidable : ∀ (t : Node N α) (k : Bytes N × ℕ), Decidable (insertOk t k)
  | .null, _ => isTrue trivial
  | .node n l r, k =>
    have := insertOk.decidable l k
    have := insertOk.decidable r k
    by unfold insertOk; infer_instance

instance eraseOk.decidable : ∀ (t : Node N α) (k : Bytes N × ℕ), Decidable (eraseOk t k)
  | .null, _ => isTrue trivial
  | .node n l r, k =>
    have := eraseOk.decidable l k
    have := eraseOk.decidable r k
    by unfold eraseOk; infer_instance

/-- The condition on a call; the length of an inserted prefix is at most `W`. -/
def opOk (t : Node N α) : Op N α → Prop
  | .insert pfx len _ => len ≤ W N ∧ insertOk t (key pfx len)
  | .erase pfx len => eraseOk t (key pfx len)

instance (t : Node N α) (op : Op N α) : Decidable (opOk t op) := by
  cases op <;> (unfold opOk; infer_instance)

/-! ## Exact match -/

variable {t l r : Node N α} {n m : NodeData N α} {k : Bytes N × ℕ} {v : α} {a : Bytes N}

theorem isKey_iff : n.isKey k.1 k.2 ↔ n.key = k := by
  rw [NodeData.isKey, NodeData.key, Prod.ext_iff]; exact and_comm

/-- The child of a node that the walk of `a` takes. -/
def childOf (n : NodeData N α) (l r : Node N α) (a : Bytes N) : Node N α :=
  if bitAt a n.bit then r else l

theorem mem_childOf (h : Mem m (childOf n l r a)) : Mem m (.node n l r) := by
  unfold childOf at h
  split_ifs at h
  · exact .right h
  · exact .left h

theorem mem_of_lookupExactFrom : ∀ {t : Node N α}, lookupExactFrom t k.1 k.2 = some v →
    ∃ m, Mem m t ∧ m.key = k ∧ m.value = v
  | .null, h => by simp [lookupExactFrom] at h
  | .node n l r, h => by
    unfold lookupExactFrom at h
    split_ifs at h with hk hW hd
    · exact ⟨n, .here, isKey_iff.1 hk, by simpa using h⟩
    · obtain ⟨m, hm, he⟩ := mem_of_lookupExactFrom h
      exact ⟨m, .right hm, he⟩
    · obtain ⟨m, hm, he⟩ := mem_of_lookupExactFrom h
      exact ⟨m, .left hm, he⟩

theorem lookupExactFrom_eq_none (h : ∀ m, Mem m t → m.key ≠ k) : lookupExactFrom t k.1 k.2 = none := by
  cases hl : lookupExactFrom t k.1 k.2 with
  | none => rfl
  | some v =>
    obtain ⟨m, hm, he, -⟩ := mem_of_lookupExactFrom hl
    exact absurd he (h m hm)

theorem Wf.side (h : Wf (.node n l r)) (hm : Mem m (childOf n l r a)) :
    Side n (bitAt a n.bit) m.key m.bit := by
  cases h with
  | node _ _ hl hr _ _ =>
  unfold childOf at hm
  split_ifs at hm with hd
  · rw [hd]; exact hr m hm
  · rw [Bool.not_eq_true] at hd
    rw [hd]; exact hl m hm

theorem Wf.childOf (h : Wf (.node n l r)) (a : Bytes N) : Wf (childOf n l r a) := by
  cases h with
  | node _ _ _ _ wl wr =>
  unfold RadixTree.childOf
  split_ifs
  · exact wr
  · exact wl

theorem Wf.keyOk (h : Wf t) (hm : Mem m t) : KeyOk m.key ∧ m.bit ≤ W N := by
  induction h with
  | null => cases hm
  | node hk hb _ _ _ _ ihl ihr =>
    cases hm with
    | here => exact ⟨hk, hb⟩
    | left hm => exact ihl hm
    | right hm => exact ihr hm

theorem Wf.no_child (h : Wf (.node n l r)) (hW : W N ≤ n.bit) (hm : Mem m (RadixTree.childOf n l r a)) :
    False := by
  have hlong := (h.side hm).long
  have hle := ((h.childOf a).keyOk hm).1.le
  omega

theorem lookupExactFrom_node (h : Wf (.node n l r)) :
    lookupExactFrom (.node n l r) k.1 k.2 =
      if n.key = k then some n.value else lookupExactFrom (childOf n l r k.1) k.1 k.2 := by
  rw [lookupExactFrom]
  simp only [isKey_iff]
  split_ifs with hk hW hd
  · rfl
  · exact (lookupExactFrom_eq_none fun m hm => absurd hm fun hm => h.no_child hW hm).symm
  · rw [childOf, if_pos hd]
  · rw [childOf, if_neg hd]

/-! ## Longest match -/

theorem lookupExactFrom_mask (h : Wf (.node n l r)) (len : ℕ) :
    lookupExactFrom (.node n l r) (mask a len) len =
      if n.key = (mask a len, len) then some n.value
      else lookupExactFrom (childOf n l r a) (mask a len) len := by
  rw [lookupExactFrom_node (k := (mask a len, len)) h]
  by_cases hlt : n.bit < len
  · have hb : bitAt (mask a len) n.bit = bitAt a n.bit := by
      rw [← bit_bytes, bit_mask, decide_eq_true hlt, Bool.true_and]; rfl
    simp only [childOf, hb]
  · have hnone : ∀ a', lookupExactFrom (childOf n l r a') (mask a len) len = none := by
      intro a'
      refine lookupExactFrom_eq_none (k := (mask a len, len)) fun m hm he => hlt ?_
      have := (h.side hm).long
      rwa [he] at this
    simp only [hnone]

theorem Wf.childOf_null (h : Wf (.node n l r)) (hW : W N ≤ n.bit) (a : Bytes N) :
    RadixTree.childOf n l r a = .null := by
  cases hc : RadixTree.childOf n l r a with
  | null => rfl
  | node m l' r' => exact (h.no_child (a := a) hW (by rw [hc]; exact .here)).elim

theorem lookupFrom_node (h : Wf (.node n l r)) (best : Option α) :
    lookupFrom (.node n l r) a best = lookupFrom (childOf n l r a) a
      (if prefixCovers a n.pfx n.length then some n.value else best) := by
  rw [lookupFrom]
  by_cases hW : n.bit ≥ W N
  · rw [if_pos hW, h.childOf_null hW]; rfl
  · rw [if_neg hW, childOf]
    by_cases hd : bitAt a n.bit = true
    · rw [if_pos hd, if_pos hd]
    · rw [if_neg hd, if_neg hd]

theorem lookupExactFrom_shorter (h : Wf (.node n l r)) (ha : AgreeOn a n.pfx 0 n.length) {len : ℕ}
    (hlen : len ≤ n.length) : lookupExactFrom (childOf n l r a) (mask a len) len = none := by
  refine lookupExactFrom_eq_none (k := (mask a len, len)) fun m hm he => ?_
  have hnest := (h.side hm).nested
  rw [he] at hnest
  exact hnest hlen ((mask_agreeOn a le_rfl).trans (ha.mono le_rfl hlen))

/-- **The walk of an address** finds its longest stored prefix. -/
theorem lookupFrom_eq (h : Wf t) (best : Option α) : lookupFrom t a best =
    (longest (fun len => lookupExactFrom t (mask a len) len) (W N)).or best := by
  induction t generalizing best with
  | null =>
    have hnone : longest (fun len => lookupExactFrom (.null : Node N α) (mask a len) len) (W N) = none :=
      longest_eq_none.2 fun _ _ => rfl
    rw [hnone]; rfl
  | node n l r ihl ihr =>
    have hk := (h.keyOk .here).1
    have hcov : prefixCovers a n.pfx n.length = true ↔ AgreeOn a n.pfx 0 n.length :=
      prefixCovers_iff hk.masked hk.le
    have ih : ∀ b, lookupFrom (childOf n l r a) a b =
        (longest (fun len => lookupExactFrom (childOf n l r a) (mask a len) len) (W N)).or b := by
      have hc := h.childOf a
      unfold childOf at hc ⊢
      split_ifs at hc ⊢
      · exact ihr hc
      · exact ihl hc
    have hmask := fun len => lookupExactFrom_mask (a := a) h len
    rw [lookupFrom_node h, ih]
    by_cases ha : AgreeOn a n.pfx 0 n.length
    · have hkey : n.key = (mask a n.length, n.length) :=
        Prod.ext (eq_mask_of_agreeOn hk.masked ha) rfl
      have hne : ∀ len, len ≠ n.length → n.key ≠ (mask a len, len) :=
        fun len hlen he => hlen (congrArg Prod.snd he).symm
      have hlong := longest_eq_or
        (f := fun len => lookupExactFrom (.node n l r) (mask a len) len) hk.le
        (fun len hlen => by
          rw [hmask, if_neg (hne len hlen.ne)]; exact lookupExactFrom_shorter h ha hlen.le)
        (fun len hlen _ => by rw [hmask, if_neg (hne len hlen.ne')])
        (fun len hlen => lookupExactFrom_shorter h ha hlen)
      simp only [NodeData.key] at hlong
      rw [if_pos (hcov.2 ha), hlong, hmask, if_pos hkey, Option.or_assoc]
      rfl
    · have hne : ∀ len, n.key ≠ (mask a len, len) := by
        intro len he
        refine ha ?_
        have hpfx : n.pfx = mask a len := congrArg Prod.fst he
        have hlen : n.length = len := congrArg Prod.snd he
        rw [hpfx, hlen]; exact (mask_agreeOn a le_rfl).symm
      rw [if_neg (fun hc => ha (hcov.1 hc))]
      congr 1
      exact longest_congr fun len _ => by rw [hmask, if_neg (hne len)]

/-! ## A node, seen from the side of a walk -/

/-- The node `n` with `c` on side `dir` and `o` on the other. -/
def mkNode (n : NodeData N α) (dir : Bool) (c o : Node N α) : Node N α :=
  if dir then .node n o c else .node n c o

/-- The child that the walk of `a` does not take. -/
def otherOf (n : NodeData N α) (l r : Node N α) (a : Bytes N) : Node N α :=
  if bitAt a n.bit then l else r

variable {c o : Node N α} {dir : Bool}

theorem node_eq_mkNode (n : NodeData N α) (l r : Node N α) (a : Bytes N) :
    .node n l r = mkNode n (bitAt a n.bit) (childOf n l r a) (otherOf n l r a) := by
  unfold mkNode childOf otherOf
  split_ifs <;> rfl

theorem mem_mkNode : Mem m (mkNode n dir c o) ↔ m = n ∨ Mem m c ∨ Mem m o := by
  unfold mkNode
  constructor
  · intro h
    split_ifs at h
    · cases h with
      | here => exact Or.inl rfl
      | left h => exact Or.inr (Or.inr h)
      | right h => exact Or.inr (Or.inl h)
    · cases h with
      | here => exact Or.inl rfl
      | left h => exact Or.inr (Or.inl h)
      | right h => exact Or.inr (Or.inr h)
  · rintro (rfl | h | h)
    · split_ifs <;> exact .here
    · split_ifs
      · exact .right h
      · exact .left h
    · split_ifs
      · exact .left h
      · exact .right h

theorem wf_mkNode : Wf (mkNode n dir c o) ↔ (KeyOk n.key ∧ n.bit ≤ W N) ∧
    (∀ m, Mem m c → Side n dir m.key m.bit) ∧ (∀ m, Mem m o → Side n (!dir) m.key m.bit) ∧
    Wf c ∧ Wf o := by
  cases dir with
  | true =>
    constructor
    · rintro (_ | ⟨hk, hb, hl, hr, wl, wr⟩)
      exact ⟨⟨hk, hb⟩, hr, hl, wr, wl⟩
    · rintro ⟨⟨hk, hb⟩, hr, hl, wr, wl⟩
      exact .node hk hb hl hr wl wr
  | false =>
    constructor
    · rintro (_ | ⟨hk, hb, hl, hr, wl, wr⟩)
      exact ⟨⟨hk, hb⟩, hl, hr, wl, wr⟩
    · rintro ⟨⟨hk, hb⟩, hl, hr, wl, wr⟩
      exact .node hk hb hl hr wl wr

theorem lookupExactFrom_mkNode (h : Wf (mkNode n dir c o)) :
    lookupExactFrom (mkNode n dir c o) k.1 k.2 =
      if n.key = k then some n.value
      else if bitAt k.1 n.bit = dir then lookupExactFrom c k.1 k.2
      else lookupExactFrom o k.1 k.2 := by
  cases dir with
  | true =>
    refine (lookupExactFrom_node h).trans ?_
    simp only [childOf]
    split_ifs <;> rfl
  | false =>
    refine (lookupExactFrom_node h).trans ?_
    simp only [childOf]
    cases bitAt k.1 n.bit <;> simp

/-! ## Insertion -/

theorem insertRec_node (n : NodeData N α) (l r : Node N α) (k : Bytes N × ℕ) (v : α) :
    insertRec (.node n l r) k.1 k.2 v =
      if n.key = k then .node { n with value := v } l r
      else if diffbit n.pfx k.1 < n.bit then
        mkNode ⟨k.1, k.2, diffbit n.pfx k.1, v⟩ (bitAt k.1 (diffbit n.pfx k.1)) .null (.node n l r)
      else mkNode n (bitAt k.1 n.bit) (insertRec (childOf n l r k.1) k.1 k.2 v)
        (otherOf n l r k.1) := by
  rw [insertRec]
  simp only [isKey_iff, mkNode, childOf, otherOf]
  split_ifs <;> rfl

theorem insertOk_node (n : NodeData N α) (l r : Node N α) (k : Bytes N × ℕ) :
    insertOk (.node n l r) k ↔
      if n.key = k then True
      else if diffbit n.pfx k.1 < n.bit then diffbit n.pfx k.1 < n.length
      else n.bit < k.2 ∧ ¬ (k.2 < n.length ∧ prefixCovers n.pfx k.1 k.2 = true) ∧
        insertOk (childOf n l r k.1) k := by
  rw [insertOk]
  simp only [isKey_iff, childOf]
  split_ifs <;> rfl

/-- The node has the key and the routing bit of a node of `t`. -/
def OldShape (t : Node N α) (m : NodeData N α) : Prop :=
  ∃ m₀, Mem m₀ t ∧ m₀.key = m.key ∧ m₀.bit = m.bit

/-- The effect of inserting `k` into a tree whose nodes agree with it on the
    first `lo` bits. -/
structure Inserted (t t' : Node N α) (k : Bytes N × ℕ) (v : α) (lo : ℕ) : Prop where
  wf : Wf t'
  mem : ∀ m, Mem m t' → OldShape t m ∨ (m.key = k ∧ lo ≤ m.bit)
  lookup : ∀ k' : Bytes N × ℕ, lookupExactFrom t' k'.1 k'.2 =
    if k' = k then some v else lookupExactFrom t k'.1 k'.2

theorem inserted_leaf {lo : ℕ} (hk : KeyOk k) (hlo : lo ≤ W N) :
    Inserted .null (.node ⟨k.1, k.2, W N, v⟩ .null .null) k v lo := by
  have hwf : Wf (.node ⟨k.1, k.2, W N, v⟩ .null .null) := by
    refine .node hk le_rfl (fun m hm => ?_) (fun m hm => ?_) .null .null <;> cases hm
  refine ⟨hwf, fun m hm => ?_, fun k' => ?_⟩
  · cases hm with
    | here => exact Or.inr ⟨rfl, hlo⟩
    | left hm => cases hm
    | right hm => cases hm
  · rw [lookupExactFrom_node hwf]
    have hnull : ∀ a, childOf (⟨k.1, k.2, W N, v⟩ : NodeData N α) .null .null a = .null := by
      intro a; unfold childOf; split_ifs <;> rfl
    rw [hnull]
    simp only [NodeData.key, eq_comm (a := k')]
    rfl

theorem inserted_same (h : Wf (.node n l r)) (hk : n.key = k) (lo : ℕ) :
    Inserted (.node n l r) (.node { n with value := v } l r) k v lo := by
  cases h with
  | node hko hb hl hr wl wr =>
  have hwf' : Wf (.node { n with value := v } l r) := by
    refine .node hko hb (fun m hm => ?_) (fun m hm => ?_) wl wr
    · exact ⟨(hl m hm).1, (hl m hm).2, (hl m hm).3, (hl m hm).4, (hl m hm).5⟩
    · exact ⟨(hr m hm).1, (hr m hm).2, (hr m hm).3, (hr m hm).4, (hr m hm).5⟩
  refine ⟨hwf', fun m hm => Or.inl ?_, fun k' => ?_⟩
  · cases hm with
    | here => exact ⟨n, .here, rfl, rfl⟩
    | left hm => exact ⟨m, .left hm, rfl, rfl⟩
    | right hm => exact ⟨m, .right hm, rfl, rfl⟩
  · rw [lookupExactFrom_node hwf', lookupExactFrom_node (.node hko hb hl hr wl wr)]
    have hkey : ({ n with value := v } : NodeData N α).key = k := hk
    by_cases he : k' = k
    · rw [if_pos he, hkey, if_pos he.symm]
    · rw [if_neg he, hkey, hk, if_neg (fun h' => he h'.symm), if_neg (fun h' => he h'.symm)]; rfl

theorem inserted_splice {lo : ℕ} (h : Wf (.node n l r)) (hk : KeyOk k)
    (hag : AgreeOn n.pfx k.1 0 lo) (hd : diffbit n.pfx k.1 < n.bit)
    (hlen : diffbit n.pfx k.1 < n.length) :
    Inserted (.node n l r)
      (mkNode ⟨k.1, k.2, diffbit n.pfx k.1, v⟩ (bitAt k.1 (diffbit n.pfx k.1)) .null (.node n l r))
      k v lo := by
  set d := diffbit n.pfx k.1 with hd_def
  obtain ⟨-, hbefore, hat⟩ := diffbit_spec n.pfx k.1
  rw [← hd_def] at hbefore hat
  have hbit := (h.keyOk .here).2
  have hat := hat (by omega)
  -- every node of the tree shares the bits of `n` up to the new routing bit
  have hall : ∀ m, Mem m (.node n l r) → AgreeOn m.pfx n.pfx 0 (d + 1) ∧ d < m.bit ∧ d < m.length := by
    intro m hm
    rw [node_eq_mkNode n l r k.1] at hm h
    obtain ⟨-, hc, ho, -, -⟩ := wf_mkNode.1 h
    rcases mem_mkNode.1 hm with rfl | hm | hm
    · exact ⟨AgreeOn.refl _ _ _, hd, hlen⟩
    · have := hc m hm
      exact ⟨this.agree.mono le_rfl (by omega), hd.trans this.lt, hd.trans this.long⟩
    · have := ho m hm
      exact ⟨this.agree.mono le_rfl (by omega), hd.trans this.lt, hd.trans this.long⟩
  have hdiff : ∀ m, Mem m (.node n l r) → bit m.pfx d ≠ bit k.1 d := fun m hm => by
    rw [(hall m hm).1 d (Nat.zero_le _) (by omega)]; exact hat
  have hwf : Wf (mkNode ⟨k.1, k.2, d, v⟩ (bitAt k.1 d) .null (.node n l r)) := by
    refine wf_mkNode.2 ⟨⟨hk, by simp only; omega⟩, fun m hm => by (cases hm), fun m hm => ?_, .null, h⟩
    obtain ⟨hag', hb', hl'⟩ := hall m hm
    refine ⟨?_, ?_, hb', hl', fun _ hcov => hdiff m hm (hcov d (Nat.zero_le _) hl')⟩
    · exact (hag'.mono le_rfl (by simp only; omega)).trans hbefore
    · have := hdiff m hm
      simp only [NodeData.key, bit_bytes] at this ⊢
      cases h1 : bitAt m.pfx d <;> cases h2 : bitAt k.1 d <;> simp_all
  refine ⟨hwf, fun m hm => ?_, fun k' => ?_⟩
  · rcases mem_mkNode.1 hm with rfl | hm | hm
    · refine Or.inr ⟨rfl, ?_⟩
      by_contra hlt
      exact hat (hag d (Nat.zero_le _) (by simp only at hlt; omega))
    · cases hm
    · exact Or.inl ⟨m, hm, rfl, rfl⟩
  · rw [lookupExactFrom_mkNode hwf]
    simp only [NodeData.key, eq_comm (b := k')]
    split_ifs with he hside
    · rfl
    · refine (lookupExactFrom_eq_none (k := k') fun m hm hmk => hdiff m hm ?_).symm
      rw [show m.pfx = k'.1 from congrArg Prod.fst hmk]; exact hside
    · rfl

theorem inserted_child {lo : ℕ} (h : Wf (.node n l r)) (hk : KeyOk k) (hne : n.key ≠ k)
    (hd : n.bit ≤ diffbit n.pfx k.1) (hlen : n.bit < k.2)
    (hcov : ¬ (k.2 < n.length ∧ prefixCovers n.pfx k.1 k.2 = true))
    (hlo : lo ≤ n.bit + 1)
    (hc : Inserted (childOf n l r k.1) c k v (n.bit + 1)) :
    Inserted (.node n l r) (mkNode n (bitAt k.1 n.bit) c (otherOf n l r k.1)) k v lo := by
  have hpfx : AgreeOn k.1 n.pfx 0 n.bit := ((diffbit_spec n.pfx k.1).2.1.mono le_rfl hd).symm
  have hside : ∀ b, n.bit < b → Side n (bitAt k.1 n.bit) k b := by
    refine fun b hb => ⟨hpfx, rfl, hb, hlen, fun hle hag => ?_⟩
    rcases Nat.lt_or_eq_of_le hle with hlt | heq
    · exact hcov ⟨hlt, (prefixCovers_iff hk.masked hk.le).2 hag.symm⟩
    · have hmask := (h.keyOk .here).1.masked
      refine hne (Prod.ext ?_ heq.symm)
      have := eq_mask_of_agreeOn (a := k.1) hmask (by simp only [NodeData.key, ← heq]; exact hag)
      rw [this]; simp only [NodeData.key, ← heq]; exact hk.masked
  have hold := h
  rw [node_eq_mkNode n l r k.1] at h
  obtain ⟨hn, hcs, hos, -, wo⟩ := wf_mkNode.1 h
  have hwf : Wf (mkNode n (bitAt k.1 n.bit) c (otherOf n l r k.1)) := by
    refine wf_mkNode.2 ⟨hn, fun m hm => ?_, hos, hc.wf, wo⟩
    rcases hc.mem m hm with ⟨m₀, hm₀, hkey, hbit⟩ | ⟨hkey, hbit⟩
    · rw [← hkey, ← hbit]; exact hcs m₀ hm₀
    · rw [hkey]; exact hside _ (by omega)
  refine ⟨hwf, fun m hm => ?_, fun k' => ?_⟩
  · rcases mem_mkNode.1 hm with rfl | hm | hm
    · exact Or.inl ⟨m, .here, rfl, rfl⟩
    · rcases hc.mem m hm with ⟨m₀, hm₀, hkey, hbit⟩ | ⟨hkey, hbit⟩
      · exact Or.inl ⟨m₀, mem_childOf hm₀, hkey, hbit⟩
      · exact Or.inr ⟨hkey, by omega⟩
    · refine Or.inl ⟨m, ?_, rfl, rfl⟩
      rw [node_eq_mkNode n l r k.1]; exact mem_mkNode.2 (Or.inr (Or.inr hm))
  · rw [lookupExactFrom_mkNode hwf, node_eq_mkNode n l r k.1, lookupExactFrom_mkNode h, hc.lookup]
    by_cases he : k' = k
    · subst he; rw [if_neg hne, if_pos rfl, if_pos rfl, if_pos rfl]
    · simp only [if_neg he]

/-- **Insertion adds the key** and changes no other exact match. -/
theorem inserted_insertRec {lo : ℕ} (hk : KeyOk k) (hlo : lo ≤ W N) (h : Wf t)
    (hag : ∀ m, Mem m t → AgreeOn m.pfx k.1 0 lo ∧ lo ≤ m.bit + 1) (hok : insertOk t k) :
    Inserted t (insertRec t k.1 k.2 v) k v lo := by
  induction t generalizing lo with
  | null => exact inserted_leaf hk hlo
  | node n l r ihl ihr =>
    rw [insertOk_node] at hok
    rw [insertRec_node]
    split_ifs at hok ⊢ with hkey hd
    · exact inserted_same h hkey lo
    · exact inserted_splice h hk (hag n .here).1 hd hok
    · obtain ⟨hlen, hcov, hrec⟩ := hok
      refine inserted_child h hk hkey (not_lt.1 hd) hlen hcov (hag n .here).2 ?_
      have hW := hk.le
      have hpfx := (diffbit_spec n.pfx k.1).2.1.mono le_rfl (not_lt.1 hd)
      have hchild : ∀ m, Mem m (childOf n l r k.1) →
          AgreeOn m.pfx k.1 0 (n.bit + 1) ∧ n.bit + 1 ≤ m.bit + 1 := by
        intro m hm
        have hs := h.side hm
        refine ⟨?_, by have := hs.lt; omega⟩
        refine (hs.agree.trans hpfx).append fun i h₁ h₂ => ?_
        obtain rfl : i = n.bit := by omega
        exact hs.side
      have hwf := h.childOf k.1
      unfold childOf at hchild hrec hwf ⊢
      split_ifs at hchild hrec hwf ⊢
      · exact ihr (by omega) hwf hchild hrec
      · exact ihl (by omega) hwf hchild hrec

/-! ## Erasure -/

variable [Inhabited α]

theorem eraseRec_node (n : NodeData N α) (l r : Node N α) (k : Bytes N × ℕ) (hne : n.key ≠ k)
    (hW : ¬ n.bit ≥ W N) :
    eraseRec (.node n l r) k.1 k.2 = (eraseRec (childOf n l r k.1) k.1 k.2).unlink fun c =>
      mkNode n (bitAt k.1 n.bit) c (otherOf n l r k.1) := by
  rw [eraseRec]
  simp only [isKey_iff, if_neg hne, if_neg hW, mkNode, childOf, otherOf]
  split_ifs <;> rfl

theorem eraseRec_ne_remove (hne : n.key ≠ k) : eraseRec (.node n l r) k.1 k.2 ≠ .remove := by
  by_cases hW : n.bit ≥ W N
  · simp only [eraseRec, isKey_iff, if_neg hne, if_pos hW]; simp
  · rw [eraseRec_node n l r k hne hW]
    cases eraseRec (childOf n l r k.1) k.1 k.2 <;> simp [EraseResult.unlink]

/-- The effect of erasing `k`. -/
structure Erased (t t' : Node N α) (k : Bytes N × ℕ) : Prop where
  wf : Wf t'
  mem : ∀ m, Mem m t' → Mem m t
  lookup : ∀ k' : Bytes N × ℕ, lookupExactFrom t' k'.1 k'.2 =
    if k' = k then none else lookupExactFrom t k'.1 k'.2

omit [Inhabited α] in
theorem erased_child (h : Wf (.node n l r)) (hne : n.key ≠ k)
    (hc : Erased (childOf n l r k.1) c k) :
    Erased (.node n l r) (mkNode n (bitAt k.1 n.bit) c (otherOf n l r k.1)) k := by
  rw [node_eq_mkNode n l r k.1] at h ⊢
  obtain ⟨hn, hcs, hos, -, wo⟩ := wf_mkNode.1 h
  have hwf : Wf (mkNode n (bitAt k.1 n.bit) c (otherOf n l r k.1)) :=
    wf_mkNode.2 ⟨hn, fun m hm => hcs m (hc.mem m hm), hos, hc.wf, wo⟩
  refine ⟨hwf, fun m hm => ?_, fun k' => ?_⟩
  · exact mem_mkNode.2 ((mem_mkNode.1 hm).imp_right (Or.imp_left (hc.mem m)))
  · rw [lookupExactFrom_mkNode hwf, lookupExactFrom_mkNode h, hc.lookup]
    by_cases he : k' = k
    · subst he; rw [if_neg hne, if_pos rfl, if_pos rfl, if_pos rfl]
    · simp only [if_neg he]

omit [Inhabited α] in
theorem erased_leaf (h : Wf (.node n .null .null)) (hk : n.key = k) :
    Erased (.node n .null .null) .null k := by
  refine ⟨.null, fun m hm => by (cases hm), fun k' => ?_⟩
  have hnull : childOf n .null .null k'.1 = .null := by unfold childOf; split_ifs <;> rfl
  rw [lookupExactFrom_node h, hnull, hk]
  by_cases he : k' = k
  · rw [if_pos he]; rfl
  · rw [if_neg he, if_neg (fun h' => he h'.symm)]

omit [Inhabited α] in
theorem eq_null_of_isNull (h : t.isNull = true) : t = .null := by
  cases t with
  | null => rfl
  | node => simp [Node.isNull] at h

/-- **Erasure removes the key** if it is stored, and nothing else. -/
theorem eraseRec_spec (h : Wf t) (hok : eraseOk t k) :
    match eraseRec t k.1 k.2 with
    | .notFound => lookupExactFrom t k.1 k.2 = none
    | .remove => Erased t .null k
    | .keep t' => Erased t t' k := by
  induction t with
  | null => rfl
  | node n l r ihl ihr =>
    by_cases hk : n.key = k
    · simp only [eraseOk, isKey_iff, if_pos hk] at hok
      simp only [eraseRec, isKey_iff, if_pos hk, hok, if_true]
      rw [Bool.and_eq_true] at hok
      obtain rfl := eq_null_of_isNull hok.1
      obtain rfl := eq_null_of_isNull hok.2
      exact erased_leaf h hk
    · by_cases hW : n.bit ≥ W N
      · simp only [eraseRec, isKey_iff, if_neg hk, if_pos hW]
        rw [lookupExactFrom_node h, if_neg hk, h.childOf_null hW]; rfl
      · rw [eraseRec_node n l r k hk hW]
        have ih : match eraseRec (childOf n l r k.1) k.1 k.2 with
            | .notFound => lookupExactFrom (childOf n l r k.1) k.1 k.2 = none
            | .remove => Erased (childOf n l r k.1) .null k
            | .keep t' => Erased (childOf n l r k.1) t' k := by
          have hwf := h.childOf k.1
          simp only [eraseOk, isKey_iff, if_neg hk, if_neg hW] at hok
          unfold childOf at hwf ⊢
          split_ifs at hok hwf ⊢
          · exact ihr hwf hok
          · exact ihl hwf hok
        cases he : eraseRec (childOf n l r k.1) k.1 k.2 with
        | notFound =>
          rw [he] at ih
          simp only [EraseResult.unlink]
          rw [lookupExactFrom_node h, if_neg hk]; exact ih
        | remove => rw [he] at ih; exact erased_child h hk ih
        | keep c => rw [he] at ih; exact erased_child h hk ih

/-! ## Histories -/

/-- The state of a history: the tree is well formed and its exact matches are
    the map. -/
structure Tracks (t : Node N α) (m : PMap (Bytes N) α) : Prop where
  wf : Wf t
  lookup : ∀ k : Bytes N × ℕ, lookupExactFrom t k.1 k.2 = m k

/-- The tree answers exact and longest matches as the map `m` does. -/
structure Refines (t : Node N α) (m : PMap (Bytes N) α) : Prop where
  lookupExact : ∀ pfx len, lookupExact t pfx len = m (key pfx len)
  lookup : ∀ a, lookup t a = lpm m a
  lookup_none : ∀ a, RadixTree.lookup t a = none ↔ ∀ len ≤ W N, m (mask a len, len) = none

omit [Inhabited α] in
theorem refines_of_tracks {m : PMap (Bytes N) α} (h : Tracks t m) : Refines t m := by
  have hl : ∀ a, lookup t a = lpm m a := by
    intro a
    rw [lookup, lookupFrom_eq h.wf, Option.or_none]
    exact longest_congr fun len _ => h.lookup (mask a len, len)
  exact ⟨fun pfx len => h.lookup (key pfx len), hl, fun a => by rw [hl]; exact longest_eq_none⟩

theorem tracks_erase {m : PMap (Bytes N) α} (h : Tracks t m) (pfx : Bytes N) (len : ℕ)
    (hok : eraseOk t (key pfx len)) :
    Tracks (erase t pfx len).1 (Function.update m (key pfx len) none) := by
  have hdone : ∀ {t'}, Erased t t' (key pfx len) → Tracks t' (Function.update m (key pfx len) none) := by
    refine fun he => ⟨he.wf, fun k => ?_⟩
    rw [he.lookup, h.lookup, Function.update_apply]
  have hsame : lookupExactFrom t (key pfx len).1 (key pfx len).2 = none →
      Tracks t (Function.update m (key pfx len) none) := by
    intro hnone
    rw [h.lookup] at hnone
    rw [← hnone, Function.update_eq_self]; exact h
  have hspec := eraseRec_spec h.wf hok
  unfold erase
  cases t with
  | null => exact hsame rfl
  | node n l r =>
    simp only [show applyMask pfx len = (key pfx len).1 from rfl]
    by_cases hk : n.key = key pfx len
    · have hk' : n.isKey (key pfx len).1 len := isKey_iff.2 hk
      simp only [eraseOk, if_pos (isKey_iff.2 hk)] at hok
      rw [if_pos hk', if_pos hok]
      rw [Bool.and_eq_true] at hok
      obtain rfl := eq_null_of_isNull hok.1
      obtain rfl := eq_null_of_isNull hok.2
      exact hdone (erased_leaf h.wf hk)
    · have hk' : ¬ n.isKey (key pfx len).1 len := fun h' => hk (isKey_iff.1 h')
      rw [if_neg hk']
      simp only [key] at hspec ⊢
      cases he : eraseRec (.node n l r) (applyMask pfx len) len with
      | notFound => rw [he] at hspec; exact hsame hspec
      | keep t' => rw [he] at hspec; exact hdone hspec
      | remove =>
        -- only a node with the key itself asks to be unlinked
        exact absurd he (eraseRec_ne_remove (k := key pfx len) hk)

theorem keyOk_key (pfx : Bytes N) {len : ℕ} (h : len ≤ W N) : KeyOk (key pfx len) :=
  ⟨mask_mask_self pfx len, h⟩

theorem tracks_step {m : PMap (Bytes N) α} (h : Tracks t m) {op : Op N α} (hok : opOk t op) :
    Tracks (step t op) (mapStep m op) := by
  cases op with
  | insert pfx len v =>
    have hins := inserted_insertRec (v := v) (keyOk_key pfx hok.1) (Nat.zero_le _) h.wf
      (fun m _ => ⟨agreeOn_empty _ _ le_rfl, Nat.zero_le _⟩) hok.2
    refine ⟨hins.wf, fun k => ?_⟩
    simp only [mapStep, Function.update_apply, ← h.lookup]
    exact hins.lookup k
  | erase pfx len => exact tracks_erase h pfx len hok

/-- **The tree refines the map of its calls**, along every history whose calls
    keep the invariant. -/
theorem refines_replay (ops : List (Op N α)) (h : Run.Along opOk step .null ops) :
    Refines (Run.runFrom step .null ops) (Run.runFrom mapStep (fun _ => none) ops) := by
  have hstep : ∀ (t : Node N α) (m : PMap (Bytes N) α) (op : Op N α), Tracks t m → opOk t op →
      Tracks (step t op) (mapStep m op) := fun _ _ _ hR hok => tracks_step hR hok
  have hnil : Tracks (.null : Node N α) (fun _ => none) := ⟨.null, fun _ => rfl⟩
  exact refines_of_tracks (Run.Along.simulation hstep hnil h)

def bytes4 (a b c d : BitVec 8) : Bytes 4 := ![a, b, c, d]

/-- A prefix inserted after a longer one below it, an erasure and a replacement. -/
theorem refines_replay_nested :
    Refines
      (Run.runFrom step .null
        [.insert (bytes4 10 1 0 0) 16 1, .insert (bytes4 10 0 0 0) 8 2,
          .insert (bytes4 192 168 0 0) 16 3, .erase (bytes4 10 1 0 0) 16,
          .insert (bytes4 10 0 0 0) 8 4])
      (Run.runFrom mapStep (fun _ => none)
        [.insert (bytes4 10 1 0 0) 16 1, .insert (bytes4 10 0 0 0) 8 2,
          .insert (bytes4 192 168 0 0) 16 3, .erase (bytes4 10 1 0 0) 16,
          .insert (bytes4 10 0 0 0) 8 4]) :=
  refines_replay _ (by decide +kernel)

/-- `10.0.0.0/16` has the bytes of `10.0.0.0/8` and is linked below its node,
    where no lookup goes on. -/
theorem not_refines_nested :
    ¬ Refines
      (Run.runFrom step .null [.insert (bytes4 10 0 0 0) 8 1, .insert (bytes4 10 0 0 0) 16 2])
      (Run.runFrom mapStep (fun _ => none)
        [.insert (bytes4 10 0 0 0) 8 1, .insert (bytes4 10 0 0 0) 16 2]) := by
  intro h
  have hl := h.lookupExact (bytes4 10 0 0 0) 16
  revert hl
  decide +kernel

end RadixTree

end VirtualRouter
