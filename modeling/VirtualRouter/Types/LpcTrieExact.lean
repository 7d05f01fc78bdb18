/-
  Exact matching in the trie.

  `Wf` is the representation invariant of the exact walk: every node compares
  the bits of its own position, stores each key once and at a depth where the
  walk of the key finds it first, and uses only slots of its `ChildArray`.
  `insertOk` singles out the insertions that keep it.  The others go wrong in
  one of four ways: they split a node within the last `S` compressed bits while
  its contents depend on later bits (the contents are all moved under the slot
  of one stored pattern), they end above the node that already stores the key
  (which stays below as a second copy), they overflow the entry count of a
  node, or they use a slot beyond `FANOUT`.
-/
import VirtualRouter.Lib.Run
import VirtualRouter.Types.LpcTrieBits
import VirtualRouter.Types.LpcTriePrefixes

namespace VirtualRouter

open PrefixMap

namespace LpcTrie

variable (P : LpcParams) {α : Type}

/-- The exact walk below a node whose compressed bits end at `e`. -/
def below (slots : ℕ → Node P.W α) (k : BitVec P.W × ℕ) (e : ℕ) : Option α :=
  if e ≥ P.W then none else lookupExactFrom P (slots (strideIdx P k.1 e)) k.1 k.2 (e + P.S)

/-- What the exact walk needs of a node reached after `pos` bits. -/
structure NodeOk (d : NodeData P.W α) (slots : ℕ → Node P.W α) (pos : ℕ) : Prop where
  mask : d.skipMask = makeMask pos d.skipLen
  le : pos + d.skipLen ≤ P.W
  nodup : KeysNodup d.prefixes
  count : d.prefixes.length ≤ 255
  /-- an entry is at most one stride longer than the path to its node -/
  fits : ∀ p ∈ d.prefixes, p.len ≤ pos + d.skipLen + P.S
  /-- a key stored here is not met again further down -/
  once : ∀ p ∈ d.prefixes, below P slots p.key (pos + d.skipLen) = none
  inArray : ∀ i, slots i ≠ .null → i < P.FANOUT

/-- The representation invariant of the exact walk. -/
inductive Wf : Node P.W α → ℕ → Prop
  | null {pos : ℕ} : Wf .null pos
  | node {d : NodeData P.W α} {slots : ℕ → Node P.W α} {pos : ℕ} : NodeOk P d slots pos →
      (∀ i, Wf (slots i) (pos + d.skipLen + P.S)) → Wf (.node d slots) pos

/-! ## The insertions that keep the invariant -/

/-- A split keeps the contents of the node findable: the branching stride lies
    within the compressed bits, or the node is a leaf whose entries all take the
    slot computed from its pattern. -/
def splitOk (d : NodeData P.W α) (slots : ℕ → Node P.W α) (pos matched : ℕ) : Bool :=
  let branchPos := pos + matched
  let oldIdx := strideIdx P d.skipPattern branchPos
  decide (branchPos + P.S ≤ P.W) && decide (oldIdx < P.FANOUT) &&
    (decide (matched + P.S ≤ d.skipLen) ||
      ((List.range 256).all (fun i => (slots i).isNull) &&
        d.prefixes.all fun p => decide (strideIdx P p.addr branchPos = oldIdx)))

/-- Storing `k` on a node ending at `e` leaves no second copy further down, and
    the node has room for it. -/
def endOk (d : NodeData P.W α) (slots : ℕ → Node P.W α) (k : BitVec P.W × ℕ) (e : ℕ) : Bool :=
  (findPrefix d.prefixes k.1 k.2).isSome ||
    (decide (d.prefixes.length < 255) && (below P slots k e).isNone)

/-- The insertion of `k` at a node reached after `pos` bits keeps every key findable. -/
def insertOk : Node P.W α → BitVec P.W × ℕ → ℕ → Bool
  | .null, _, _ => true
  | .node d slots, k, pos =>
    let matched := commonSkipLen k.1 d.skipPattern pos d.skipLen
    if matched < d.skipLen then splitOk P d slots pos matched
    else
      let e := pos + d.skipLen
      if e ≥ k.2 ∨ k.2 - e ≤ P.S then endOk P d slots k e
      else
        let idx := strideIdx P k.1 e
        decide (idx < P.FANOUT) && insertOk (slots idx) k (e + P.S)

def opOk (t : Node P.W α) : Op P α → Bool
  | .insert pfx len _ => decide (len > P.W) || insertOk P (ensureRoot P t) (key P pfx len) 0
  | .erase _ _ => true

/-! ## One node -/

variable {P} {d : NodeData P.W α} {slots : ℕ → Node P.W α} {pos : ℕ} {k : BitVec P.W × ℕ} {v : α}

theorem below_null (h : ∀ i, slots i = .null) (k : BitVec P.W × ℕ) (e : ℕ) :
    below P slots k e = none := by
  unfold below
  split_ifs
  · rfl
  · rw [h]; rfl

@[simp] theorem below_noChildren (k : BitVec P.W × ℕ) (e : ℕ) :
    below P (noChildren : ℕ → Node P.W α) k e = none := below_null (fun _ => rfl) k e

theorem lookupExactFrom_agree (h : NodeOk P d slots pos)
    (ha : AgreeOn k.1 d.skipPattern pos (pos + d.skipLen)) :
    lookupExactFrom P (.node d slots) k.1 k.2 pos =
      (findPtr d.prefixes k).or (below P slots k (pos + d.skipLen)) := by
  unfold lookupExactFrom
  rw [(skipMatches_iff h.mask h.le).2 ha]
  simp only [Bool.not_true, Bool.false_eq_true, if_false, findPtr, below]
  cases findPrefix d.prefixes k.1 k.2 <;> rfl

theorem lookupExactFrom_disagree (h : NodeOk P d slots pos)
    (ha : ¬ AgreeOn k.1 d.skipPattern pos (pos + d.skipLen)) :
    lookupExactFrom P (.node d slots) k.1 k.2 pos = none := by
  have hm : skipMatches d k.1 = false := by
    rw [← Bool.not_eq_true, skipMatches_iff h.mask h.le]; exact ha
  unfold lookupExactFrom
  rw [hm]; rfl

@[simp] theorem lookupExactFrom_updateBest (b : Option α) (n : Node P.W α) (m : BitVec P.W)
    (l pos : ℕ) : lookupExactFrom P (updateBest b n) m l pos = lookupExactFrom P n m l pos := by
  cases n <;> rfl

theorem Wf.updateBest {n : Node P.W α} (b : Option α) (h : Wf P n pos) :
    Wf P (updateBest b n) pos := by
  cases h with
  | null => exact .null
  | node hn hs => exact .node ⟨hn.mask, hn.le, hn.nodup, hn.count, hn.fits, hn.once, hn.inArray⟩ hs

/-- The effect of inserting `k`: the tree stays well formed, and only the walk of
    `k` changes. -/
structure Inserted (n n' : Node P.W α) (k : BitVec P.W × ℕ) (v : α) (pos : ℕ) : Prop where
  wf : Wf P n' pos
  notNull : n' ≠ .null
  lookup : ∀ k' : BitVec P.W × ℕ, lookupExactFrom P n' k'.1 k'.2 pos =
    if k' = k then some v else lookupExactFrom P n k'.1 k'.2 pos

theorem inserted_here (h : NodeOk P d slots pos) (hs : ∀ i, Wf P (slots i) (pos + d.skipLen + P.S))
    (ha : AgreeOn k.1 d.skipPattern pos (pos + d.skipLen)) (hk : k.2 ≤ pos + d.skipLen + P.S)
    (hok : endOk P d slots k (pos + d.skipLen) = true) (b : Option α) :
    Inserted (.node d slots)
      (.node { d with prefixes := insertPrefix d.prefixes k.1 k.2 v, best := b } slots) k v pos := by
  simp only [endOk, Bool.or_eq_true, Bool.and_eq_true, decide_eq_true_iff, Option.isNone_iff_eq_none]
    at hok
  have hcap : (findPtr d.prefixes k).isSome ∨ d.prefixes.length < 255 :=
    hok.imp (fun h => by simpa [findPtr] using h) (·.1)
  have hbelow : below P slots k (pos + d.skipLen) = none := by
    rcases hok with hf | ⟨-, hb⟩
    · obtain ⟨p, hp, rfl⟩ := findPrefix_isSome.1 hf
      exact h.once p hp
    · exact hb
  have hn : NodeOk P { d with prefixes := insertPrefix d.prefixes k.1 k.2 v, best := b } slots pos := by
    refine ⟨h.mask, h.le, keysNodup_insertPrefix h.nodup hcap, length_insertPrefix hcap h.count,
      fun p hp => ?_, fun p hp => ?_, h.inArray⟩
    · rcases key_mem_insertPrefix hcap hp with hpk | ⟨q, hq, hqk⟩
      · rw [← hpk] at hk; exact hk
      · have := h.fits q hq
        rwa [show q.len = p.len from congrArg Prod.snd hqk] at this
    · rcases key_mem_insertPrefix hcap hp with hpk | ⟨q, hq, hqk⟩
      · rw [hpk]; exact hbelow
      · rw [← hqk]; exact h.once q hq
  refine ⟨.node hn hs, by simp, fun k' => ?_⟩
  by_cases ha' : AgreeOn k'.1 d.skipPattern pos (pos + d.skipLen)
  · rw [lookupExactFrom_agree hn ha', lookupExactFrom_agree h ha']
    simp only [findPtr_insertPrefix h.nodup hcap]
    split_ifs
    · rfl
    · rfl
  · have hne : k' ≠ k := fun he => ha' (he ▸ ha)
    rw [lookupExactFrom_disagree hn ha', lookupExactFrom_disagree h ha', if_neg hne]

theorem inserted_below (h : NodeOk P d slots pos) (hs : ∀ i, Wf P (slots i) (pos + d.skipLen + P.S))
    (ha : AgreeOn k.1 d.skipPattern pos (pos + d.skipLen)) (hk : pos + d.skipLen + P.S < k.2)
    (hW : k.2 ≤ P.W) (hidx : strideIdx P k.1 (pos + d.skipLen) < P.FANOUT) {c : Node P.W α}
    (hc : Inserted (slots (strideIdx P k.1 (pos + d.skipLen))) c k v (pos + d.skipLen + P.S)) :
    Inserted (.node d slots)
      (.node d (Function.update slots (strideIdx P k.1 (pos + d.skipLen)) c)) k v pos := by
  set idx := strideIdx P k.1 (pos + d.skipLen) with hidx_def
  have hlt : ¬ pos + d.skipLen ≥ P.W := by omega
  -- the walk of a key below the node, after the slot has been replaced
  have hb : ∀ k' : BitVec P.W × ℕ, below P (Function.update slots idx c) k' (pos + d.skipLen) =
      if k' = k then some v else below P slots k' (pos + d.skipLen) := by
    intro k'
    unfold below
    rw [if_neg hlt, if_neg hlt]
    by_cases hi : strideIdx P k'.1 (pos + d.skipLen) = idx
    · rw [hi, Function.update_self, hc.lookup]
    · have hne : k' ≠ k := fun he => hi (by rw [he])
      rw [Function.update_of_ne hi, if_neg hne]
  have hnot : ∀ p ∈ d.prefixes, p.key ≠ k := by
    intro p hp he
    have := h.fits p hp
    rw [show p.len = k.2 from congrArg Prod.snd he] at this
    omega
  have hn : NodeOk P d (Function.update slots idx c) pos := by
    refine ⟨h.mask, h.le, h.nodup, h.count, h.fits, fun p hp => ?_, fun i hi => ?_⟩
    · rw [hb, if_neg (hnot p hp)]; exact h.once p hp
    · by_cases he : i = idx
      · rw [he]; exact hidx
      · rw [Function.update_of_ne he] at hi; exact h.inArray i hi
  refine ⟨.node hn fun i => ?_, by simp, fun k' => ?_⟩
  · by_cases he : i = idx
    · rw [he, Function.update_self]; exact hc.wf
    · rw [Function.update_of_ne he]; exact hs i
  · by_cases ha' : AgreeOn k'.1 d.skipPattern pos (pos + d.skipLen)
    · rw [lookupExactFrom_agree hn ha', lookupExactFrom_agree h ha', hb]
      by_cases he : k' = k
      · rw [if_pos he, if_pos he, he, findPtr_eq_none.2 hnot]; rfl
      · rw [if_neg he, if_neg he]
    · have hne : k' ≠ k := fun he => ha' (he ▸ ha)
      rw [lookupExactFrom_disagree hn ha', lookupExactFrom_disagree h ha', if_neg hne]

theorem inserted_leaf (b : Option α) (hk : pos < k.2) (hW : k.2 ≤ P.W) :
    Inserted .null (newLeaf P k.1 k.2 v pos b) k v pos := by
  have hrem : k.2 - pos > 0 := by omega
  have h255 : ¬ k.2 - pos > 255 := by have := P.W_le; omega
  have hps : insertPrefix [] k.1 k.2 v = [⟨k.1, v, k.2⟩] := rfl
  simp only [newLeaf, if_pos hrem, if_neg h255, updateBest, hps]
  set d : NodeData P.W α :=
    ⟨k.1, makeMask pos (k.2 - pos), k.2 - pos, (some v).or b, [⟨k.1, v, k.2⟩]⟩ with hd
  have hend : pos + d.skipLen = k.2 := by simp only [hd]; omega
  have hn : NodeOk P d noChildren pos := by
    refine ⟨rfl, by omega, by simp [KeysNodup, hd], by simp [hd], fun p hp => ?_,
      fun p _ => below_noChildren _ _, fun i hi => absurd rfl hi⟩
    simp only [hd, List.mem_singleton] at hp
    subst hp; simp only; omega
  refine ⟨.node hn fun _ => .null, by simp, fun k' => ?_⟩
  rw [show lookupExactFrom P (.null : Node P.W α) k'.1 k'.2 pos = none from rfl]
  by_cases he : k' = k
  · rw [if_pos he, he, lookupExactFrom_agree hn (AgreeOn.refl _ _ _), findPtr_cons_pos (by rfl)]; rfl
  · rw [if_neg he]
    by_cases ha : AgreeOn k'.1 d.skipPattern pos (pos + d.skipLen)
    · rw [lookupExactFrom_agree hn ha, below_noChildren, Option.or_none]
      exact findPtr_eq_none.2 fun p hp => by
        rw [List.mem_singleton.1 hp]; exact fun h => he h.symm
    · exact lookupExactFrom_disagree hn ha

/-! ## Splitting a node -/

/-- The node `splitNode` leaves in place of the original. -/
def upperData (d : NodeData P.W α) (pos matched : ℕ) : NodeData P.W α :=
  { skipPattern := d.skipPattern, skipLen := matched, skipMask := makeMask pos matched }

/-- The node `splitNode` moves the contents to. -/
def lowerData (d : NodeData P.W α) (pos matched : ℕ) : NodeData P.W α :=
  let subPrefixes := d.prefixes.foldl (fun ps p => insertPrefix ps p.addr p.len p.ptr) []
  { skipPattern := if d.skipLen > matched + P.S then d.skipPattern else 0
    skipMask := makeMask (pos + matched + P.S) (d.skipLen - (matched + P.S))
    skipLen := d.skipLen - (matched + P.S)
    best := localBest subPrefixes
    prefixes := subPrefixes }

theorem splitNode_eq (d : NodeData P.W α) (slots : ℕ → Node P.W α) (pos matched : ℕ) :
    splitNode P d slots pos matched = .node (upperData d pos matched)
      (Function.update noChildren (strideIdx P d.skipPattern (pos + matched))
        (.node (lowerData d pos matched) slots)) := by
  unfold splitNode upperData lowerData
  by_cases h : d.skipLen > matched + P.S
  · simp only [if_pos h]
  · have h0 : d.skipLen - (matched + P.S) = 0 := by omega
    simp only [if_neg h, h0, makeMask_zero]

theorem lower_perm (h : NodeOk P d slots pos) (matched : ℕ) :
    (lowerData d pos matched).prefixes.Perm d.prefixes := by
  have := @reinsert_perm _ _ d.prefixes [] (by simpa using h.nodup) (by simpa using h.count)
  simpa [lowerData] using this

/-- **Splitting keeps the contents**: the tree stays well formed and every walk
    gives what it gave before. -/
theorem split_spec {matched : ℕ} (h : NodeOk P d slots pos)
    (hs : ∀ i, Wf P (slots i) (pos + d.skipLen + P.S)) (hlt : matched < d.skipLen)
    (hok : splitOk P d slots pos matched = true) :
    Wf P (splitNode P d slots pos matched) pos ∧
      ∀ k : BitVec P.W × ℕ, lookupExactFrom P (splitNode P d slots pos matched) k.1 k.2 pos =
        lookupExactFrom P (.node d slots) k.1 k.2 pos := by
  have hS := P.hS
  have hle := h.le
  simp only [splitOk, Bool.and_eq_true, Bool.or_eq_true, decide_eq_true_iff, List.all_eq_true,
    List.mem_range] at hok
  obtain ⟨⟨hbW, hold⟩, hcase⟩ := hok
  rw [splitNode_eq]
  set oldIdx := strideIdx P d.skipPattern (pos + matched) with hold_def
  set low := lowerData d pos matched with hlow
  have hperm : low.prefixes.Perm d.prefixes := lower_perm h matched
  have hnd : KeysNodup low.prefixes := (hperm.map _).nodup_iff.2 h.nodup
  have hfp : ∀ k', findPtr low.prefixes k' = findPtr d.prefixes k' := fun k' => findPtr_perm hnd hperm k'
  have hll : low.skipLen = d.skipLen - (matched + P.S) := rfl
  have hlp : 0 < low.skipLen → low.skipPattern = d.skipPattern := fun h0 => by
    simp only [hlow, lowerData]; rw [if_pos (by omega)]
  -- in a short split the node is a leaf, so its slots are null
  have hnull : ¬ matched + P.S ≤ d.skipLen → ∀ i, slots i = .null := by
    intro hna i
    obtain hal | ⟨hnull, -⟩ := hcase
    · exact absurd hal hna
    · by_contra hi
      have hF : P.FANOUT < 256 := Nat.mod_lt _ (by decide)
      have := hnull i ((h.inArray i hi).trans hF)
      cases hsi : slots i with
      | null => exact hi hsi
      | node => rw [hsi] at this; simp [Node.isNull] at this
  have hlowOk : NodeOk P low slots (pos + matched + P.S) := by
    refine ⟨rfl, by omega, hnd, hperm.length_eq ▸ h.count, fun p hp => ?_, fun p hp => ?_, h.inArray⟩
    · have := h.fits p (hperm.mem_iff.1 hp); omega
    · by_cases hal : matched + P.S ≤ d.skipLen
      · rw [show pos + matched + P.S + low.skipLen = pos + d.skipLen by omega]
        exact h.once p (hperm.mem_iff.1 hp)
      · exact below_null (hnull hal) _ _
  have hlowWf : Wf P (.node low slots) (pos + matched + P.S) := by
    refine .node hlowOk fun i => ?_
    by_cases hal : matched + P.S ≤ d.skipLen
    · rw [show pos + matched + P.S + low.skipLen = pos + d.skipLen by omega]; exact hs i
    · rw [hnull hal i]; exact .null
  have hupOk : NodeOk P (upperData d pos matched)
      (Function.update noChildren oldIdx (.node low slots)) pos := by
    refine ⟨rfl, by simp only [upperData]; omega, by simp [KeysNodup, upperData], by simp [upperData],
      by simp [upperData], by simp [upperData], fun i hi => ?_⟩
    by_cases he : i = oldIdx
    · rw [he]; exact hold
    · rw [Function.update_of_ne he] at hi; exact absurd rfl hi
  refine ⟨.node hupOk fun i => ?_, fun k => ?_⟩
  · by_cases he : i = oldIdx
    · rw [he, Function.update_self]; exact hlowWf
    · rw [Function.update_of_ne he]; exact .null
  -- the walk of `k` in the two trees
  have hbr : ¬ pos + matched ≥ P.W := by omega
  have hbelow : below P (Function.update noChildren oldIdx (.node low slots)) k (pos + matched) =
      if strideIdx P k.1 (pos + matched) = oldIdx then
        lookupExactFrom P (.node low slots) k.1 k.2 (pos + matched + P.S) else none := by
    unfold below
    rw [if_neg hbr]
    split_ifs with hi
    · rw [hi, Function.update_self]
    · rw [Function.update_of_ne hi]; rfl
  have hup : ∀ hag : AgreeOn k.1 d.skipPattern pos (pos + matched),
      lookupExactFrom P (.node (upperData d pos matched)
        (Function.update noChildren oldIdx (.node low slots))) k.1 k.2 pos =
      if strideIdx P k.1 (pos + matched) = oldIdx then
        lookupExactFrom P (.node low slots) k.1 k.2 (pos + matched + P.S) else none := by
    intro hag
    rw [lookupExactFrom_agree hupOk hag, ← hbelow]; rfl
  have hidx : strideIdx P k.1 (pos + matched) = oldIdx ↔
      AgreeOn k.1 d.skipPattern (pos + matched) (pos + matched + P.S) := strideIdx_eq_iff P hbW
  by_cases hag : AgreeOn k.1 d.skipPattern pos (pos + matched)
  · rw [hup hag]
    by_cases hi : strideIdx P k.1 (pos + matched) = oldIdx
    · rw [if_pos hi]
      have hag2 := hag.append (hidx.1 hi)
      by_cases hal : matched + P.S ≤ d.skipLen
      · have hend : pos + matched + P.S + low.skipLen = pos + d.skipLen := by omega
        by_cases hag3 : AgreeOn k.1 d.skipPattern pos (pos + d.skipLen)
        · have hag4 : AgreeOn k.1 low.skipPattern (pos + matched + P.S)
              (pos + matched + P.S + low.skipLen) := by
            rcases Nat.eq_zero_or_pos low.skipLen with h0 | h0
            · exact agreeOn_empty _ _ (by omega)
            · rw [hlp h0]; exact hag3.mono (by omega) (by omega)
          rw [lookupExactFrom_agree hlowOk hag4, lookupExactFrom_agree h hag3, hfp, hend]
        · have hpos : 0 < low.skipLen := by
            by_contra h0
            exact hag3 (by rwa [show pos + d.skipLen = pos + matched + P.S by omega])
          rw [lookupExactFrom_disagree h hag3, lookupExactFrom_disagree hlowOk]
          rw [hlp hpos, hend]
          exact fun h' => hag3 (hag2.append h')
      · have hag3 : AgreeOn k.1 d.skipPattern pos (pos + d.skipLen) := hag2.mono le_rfl (by omega)
        have hag4 : AgreeOn k.1 low.skipPattern (pos + matched + P.S)
            (pos + matched + P.S + low.skipLen) := agreeOn_empty _ _ (by omega)
        rw [lookupExactFrom_agree hlowOk hag4, lookupExactFrom_agree h hag3, hfp,
          below_null (hnull hal), below_null (hnull hal)]
    · rw [if_neg hi]
      by_cases hag3 : AgreeOn k.1 d.skipPattern pos (pos + d.skipLen)
      · -- only a short split can separate `k` from the pattern here, and then `k` is not stored
        have hal : ¬ matched + P.S ≤ d.skipLen := fun hal =>
          hi (hidx.2 (hag3.mono (by omega) (by omega)))
        obtain hal' | ⟨-, hall⟩ := hcase
        · exact absurd hal' hal
        · have hnot : findPtr d.prefixes k = none := by
            refine findPtr_eq_none.2 fun p hp he => hi ?_
            rw [← he]; exact hall p hp
          rw [lookupExactFrom_agree h hag3, hnot, below_null (hnull hal)]; rfl
      · exact (lookupExactFrom_disagree h hag3).symm
  · rw [lookupExactFrom_disagree hupOk hag, lookupExactFrom_disagree h]
    exact fun h' => hag (h'.mono le_rfl (by omega))

/-! ## Insertion -/

theorem insertAt_splitNode (d : NodeData P.W α) (slots : ℕ → Node P.W α) (m : BitVec P.W) (l : ℕ)
    (v : α) (pos : ℕ) (h : commonSkipLen m d.skipPattern pos d.skipLen < d.skipLen) :
    insertAt P (.node d slots) m l v pos =
      insertAt P (splitNode P d slots pos (commonSkipLen m d.skipPattern pos d.skipLen)) m l v pos := by
  set c := commonSkipLen m d.skipPattern pos d.skipLen with hc
  have h1 : splitAtMismatch P m pos (.node d slots) = splitNode P d slots pos c := by
    simp only [splitAtMismatch, ← hc]
    rw [if_pos ⟨by omega, h⟩]
  have h2 : splitAtMismatch P m pos (splitNode P d slots pos c) = splitNode P d slots pos c := by
    have hself : commonSkipLen m d.skipPattern pos c = c := commonSkipLen_self m d.skipPattern pos _
    rw [splitNode_eq]
    simp only [splitAtMismatch, upperData, hself, lt_irrefl, and_false, if_false]
  rw [insertAt, insertAt, h1, h2]

theorem insertAt_match (d : NodeData P.W α) (slots : ℕ → Node P.W α) (m : BitVec P.W) (l : ℕ)
    (v : α) (pos : ℕ) (h : ¬ commonSkipLen m d.skipPattern pos d.skipLen < d.skipLen) :
    insertAt P (.node d slots) m l v pos =
      if pos + d.skipLen ≥ l ∨ l - (pos + d.skipLen) ≤ P.S then
        .node { d with
          prefixes := insertPrefix d.prefixes m l v
          best := localBest (insertPrefix d.prefixes m l v) } slots
      else .node d (Function.update slots (strideIdx P m (pos + d.skipLen))
        (match slots (strideIdx P m (pos + d.skipLen)) with
          | .null => newLeaf P m l v (pos + d.skipLen + P.S) d.best
          | .node cd cs => insertAt P (updateBest d.best (.node cd cs)) m l v
              (pos + d.skipLen + P.S))) := by
  have h1 : splitAtMismatch P m pos (.node d slots) = .node d slots := by
    simp only [splitAtMismatch]; rw [if_neg (fun h' => h h'.2)]
  rw [insertAt, h1]
  simp only
  split_ifs
  · rfl
  · cases slots (strideIdx P m (pos + d.skipLen)) <;> rfl

theorem insertOk_match (h : ¬ commonSkipLen k.1 d.skipPattern pos d.skipLen < d.skipLen) :
    insertOk P (.node d slots) k pos =
      if pos + d.skipLen ≥ k.2 ∨ k.2 - (pos + d.skipLen) ≤ P.S then
        endOk P d slots k (pos + d.skipLen)
      else decide (strideIdx P k.1 (pos + d.skipLen) < P.FANOUT) &&
        insertOk P (slots (strideIdx P k.1 (pos + d.skipLen))) k (pos + d.skipLen + P.S) := by
  simp only [insertOk, if_neg h]

/-- Insertion at a node whose compressed bits agree with the key, given the
    effect of the insertion on the child it descends into. -/
theorem inserted_match (h : NodeOk P d slots pos) (hs : ∀ i, Wf P (slots i) (pos + d.skipLen + P.S))
    (hm : ¬ commonSkipLen k.1 d.skipPattern pos d.skipLen < d.skipLen) (hW : k.2 ≤ P.W)
    (hok : insertOk P (.node d slots) k pos = true)
    (ih : ∀ cd cs, slots (strideIdx P k.1 (pos + d.skipLen)) = .node cd cs →
      insertOk P (.node cd cs) k (pos + d.skipLen + P.S) = true →
      Inserted (.node cd cs) (insertAt P (updateBest d.best (.node cd cs)) k.1 k.2 v
        (pos + d.skipLen + P.S)) k v (pos + d.skipLen + P.S)) :
    Inserted (.node d slots) (insertAt P (.node d slots) k.1 k.2 v pos) k v pos := by
  have ha : AgreeOn k.1 d.skipPattern pos (pos + d.skipLen) := by
    rw [← commonSkipLen_eq_iff P.W_le h.le]
    have := commonSkipLen_le k.1 d.skipPattern pos d.skipLen
    omega
  rw [insertOk_match hm] at hok
  rw [insertAt_match _ _ _ _ _ _ hm]
  by_cases hend : pos + d.skipLen ≥ k.2 ∨ k.2 - (pos + d.skipLen) ≤ P.S
  · rw [if_pos hend]
    rw [if_pos hend] at hok
    exact inserted_here h hs ha (by omega) hok _
  · rw [if_neg hend]
    rw [if_neg hend, Bool.and_eq_true, decide_eq_true_iff] at hok
    refine inserted_below h hs ha (by omega) hW hok.1 ?_
    cases hc : slots (strideIdx P k.1 (pos + d.skipLen)) with
    | null => exact inserted_leaf _ (by omega) hW
    | node cd cs => exact ih cd cs hc (hc ▸ hok.2)

theorem insertOk_split {matched : ℕ} (h : NodeOk P d slots pos)
    (hm : matched = commonSkipLen k.1 d.skipPattern pos d.skipLen) (hlt : matched < d.skipLen)
    (hok : splitOk P d slots pos matched = true) :
    strideIdx P k.1 (pos + matched) ≠ strideIdx P d.skipPattern (pos + matched) ∧
      insertOk P (splitNode P d slots pos matched) k pos = true := by
  simp only [splitOk, Bool.and_eq_true, decide_eq_true_iff] at hok
  obtain ⟨⟨hbW, hold⟩, -⟩ := hok
  have hdiff := (commonSkipLen_spec P.W_le h.le (a := k.1) (b := d.skipPattern)).2.2 (hm ▸ hlt)
  rw [← hm] at hdiff
  have hS := P.hS
  have hne : strideIdx P k.1 (pos + matched) ≠ strideIdx P d.skipPattern (pos + matched) := by
    rw [Ne, strideIdx_eq_iff P hbW]
    exact fun hag => hdiff (hag _ le_rfl (by omega))
  refine ⟨hne, ?_⟩
  have hself : commonSkipLen k.1 d.skipPattern pos matched = matched := by
    rw [hm]; exact commonSkipLen_self _ _ _ _
  have hup : (upperData d pos matched).skipLen = matched := rfl
  rw [splitNode_eq, insertOk_match (by simp only [upperData, hself, lt_irrefl, not_false_eq_true])]
  by_cases hend : pos + matched ≥ k.2 ∨ k.2 - (pos + matched) ≤ P.S
  · have hb : below P (Function.update noChildren (strideIdx P d.skipPattern (pos + matched))
        (.node (lowerData d pos matched) slots)) k (pos + matched) = none := by
      unfold below
      split_ifs
      · rfl
      · rw [Function.update_of_ne hne]; rfl
    rw [if_pos (by rw [hup]; exact hend)]
    simp [endOk, upperData, hb]
  · have hlt2 := strideIdx_lt P (a := k.1) hbW
    rw [← FANOUT_eq P (by omega)] at hlt2
    rw [if_neg (by rw [hup]; exact hend), hup, Function.update_of_ne hne]
    simp [hlt2, noChildren, insertOk]

theorem Inserted.of_updateBest {n n' : Node P.W α} {b : Option α}
    (h : Inserted (updateBest b n) n' k v pos) : Inserted n n' k v pos :=
  ⟨h.wf, h.notNull, fun k' => by rw [h.lookup, lookupExactFrom_updateBest]⟩

theorem inserted_node (hW : k.2 ≤ P.W) (hwf : Wf P (.node d slots) pos)
    (hok : insertOk P (.node d slots) k pos = true)
    (ih : ∀ cd cs, slots (strideIdx P k.1 (pos + d.skipLen)) = .node cd cs →
      insertOk P (.node cd cs) k (pos + d.skipLen + P.S) = true →
      Inserted (.node cd cs) (insertAt P (updateBest d.best (.node cd cs)) k.1 k.2 v
        (pos + d.skipLen + P.S)) k v (pos + d.skipLen + P.S)) :
    Inserted (.node d slots) (insertAt P (.node d slots) k.1 k.2 v pos) k v pos := by
  cases hwf with
  | node h hs =>
  by_cases hlt : commonSkipLen k.1 d.skipPattern pos d.skipLen < d.skipLen
  · set c := commonSkipLen k.1 d.skipPattern pos d.skipLen with hc
    have hsok : splitOk P d slots pos c = true := by
      simpa only [insertOk, ← hc, if_pos hlt] using hok
    obtain ⟨hwf', hl⟩ := split_spec h hs hlt hsok
    obtain ⟨hne, hok'⟩ := insertOk_split h hc hlt hsok
    rw [insertAt_splitNode _ _ _ _ _ _ hlt, ← hc]
    suffices hins : Inserted (splitNode P d slots pos c)
        (insertAt P (splitNode P d slots pos c) k.1 k.2 v pos) k v pos from
      ⟨hins.wf, hins.notNull, fun k' => by rw [hins.lookup, hl]⟩
    rw [splitNode_eq] at hwf' hok' ⊢
    cases hwf' with
    | node h' hs' =>
    -- the slot of `k` in the split node is empty, so there is no descent
    refine inserted_match h' hs' ?_ hW hok' fun cd cs hcd => ?_
    · simp only [upperData, hc, commonSkipLen_self, lt_irrefl, not_false_eq_true]
    · simp only [upperData] at hcd
      rw [Function.update_of_ne hne] at hcd; cases hcd
  · exact inserted_match h hs hlt hW hok ih

/-- **Insertion adds the key** and changes no other exact match. -/
theorem inserted_insertAt (hW : k.2 ≤ P.W) {n : Node P.W α} (hn : n ≠ .null) (hwf : Wf P n pos)
    (hok : insertOk P n k pos = true) (b : Option α) :
    Inserted n (insertAt P (updateBest b n) k.1 k.2 v pos) k v pos := by
  induction n generalizing pos b with
  | null => exact absurd rfl hn
  | node d slots ih =>
    have hwf' : Wf P (.node { d with best := b.or d.best } slots) pos := hwf.updateBest b
    refine Inserted.of_updateBest (b := b) (inserted_node hW hwf' hok fun cd cs hcd hokc => ?_)
    cases hwf' with
    | node h hs =>
    have hi := hs (strideIdx P k.1 (pos + d.skipLen))
    have := ih (strideIdx P k.1 (pos + d.skipLen)) (by simp at hcd; simp [hcd]) hi
    simp only at hcd
    rw [hcd] at this
    exact this hokc _

/-! ## Erasure -/

/-- The effect of erasing `k`. -/
structure Erased (n n' : Node P.W α) (k : BitVec P.W × ℕ) (pos : ℕ) : Prop where
  wf : Wf P n' pos
  lookup : ∀ k' : BitVec P.W × ℕ, lookupExactFrom P n' k'.1 k'.2 pos =
    if k' = k then none else lookupExactFrom P n k'.1 k'.2 pos

theorem isEmpty_iff (h : NodeOk P d slots pos) :
    isEmpty P d slots = true ↔ d.prefixes = [] ∧ ∀ i, slots i = .null := by
  simp only [isEmpty, Bool.and_eq_true, List.isEmpty_iff, List.all_eq_true, List.mem_range]
  refine and_congr_right fun _ => ⟨fun hall i => ?_, fun hall i _ => by rw [hall]; rfl⟩
  by_contra hi
  have := hall i (h.inArray i hi)
  cases hsi : slots i with
  | null => exact hi hsi
  | node => rw [hsi] at this; simp [Node.isNull] at this

theorem erased_here (h : NodeOk P d slots pos) (hs : ∀ i, Wf P (slots i) (pos + d.skipLen + P.S))
    (ha : AgreeOn k.1 d.skipPattern pos (pos + d.skipLen)) {ps : List (PrefixEntry P.W α)}
    (hps : removePrefix k.1 k.2 d.prefixes = some ps) (b : Option α) (prune : Bool) :
    Erased (.node d slots)
      (if isEmpty P { d with prefixes := ps, best := b } slots && prune then .null
        else .node { d with prefixes := ps, best := b } slots) k pos := by
  obtain ⟨p, hpk, hperm⟩ := removePrefix_eq_some hps
  have hsub : ∀ q ∈ ps, q ∈ d.prefixes := fun q hq => hperm.mem_iff.2 (List.mem_cons_of_mem _ hq)
  have hnd := (hperm.map PrefixEntry.key).nodup_iff.1 h.nodup
  rw [List.map_cons, List.nodup_cons, hpk] at hnd
  have hnot : ∀ q ∈ ps, q.key ≠ k := fun q hq he => hnd.1 (he ▸ List.mem_map_of_mem hq)
  have hn : NodeOk P { d with prefixes := ps, best := b } slots pos :=
    ⟨h.mask, h.le, hnd.2, by have := hperm.length_eq; have := h.count; simp at *; omega,
      fun q hq => h.fits q (hsub q hq), fun q hq => h.once q (hsub q hq), h.inArray⟩
  have hl : ∀ k' : BitVec P.W × ℕ,
      lookupExactFrom P (.node { d with prefixes := ps, best := b } slots) k'.1 k'.2 pos =
        if k' = k then none else lookupExactFrom P (.node d slots) k'.1 k'.2 pos := by
    intro k'
    by_cases ha' : AgreeOn k'.1 d.skipPattern pos (pos + d.skipLen)
    · rw [lookupExactFrom_agree hn ha', lookupExactFrom_agree h ha']
      by_cases he : k' = k
      · have hbelow : below P slots k (pos + d.skipLen) = none := by
          rw [← hpk]; exact h.once p (hperm.mem_iff.2 List.mem_cons_self)
        rw [if_pos he, he, findPtr_eq_none.2 hnot, hbelow]; rfl
      · rw [if_neg he, findPtr_perm h.nodup hperm k',
          findPtr_cons_neg (fun h' => he (h'.symm.trans hpk))]
    · have hne : k' ≠ k := fun he => ha' (he ▸ ha)
      rw [lookupExactFrom_disagree hn ha', lookupExactFrom_disagree h ha', if_neg hne]
  split_ifs with hprune
  · obtain ⟨hnil, hnull⟩ := (isEmpty_iff hn).1 (Bool.and_eq_true _ _ ▸ hprune).1
    refine ⟨.null, fun k' => ?_⟩
    rw [← hl k']
    by_cases ha' : AgreeOn k'.1 d.skipPattern pos (pos + d.skipLen)
    · rw [lookupExactFrom_agree hn ha', below_null hnull, hnil]; rfl
    · rw [lookupExactFrom_disagree hn ha']; rfl
  · exact ⟨.node hn hs, hl⟩

theorem erased_below (h : NodeOk P d slots pos) (hs : ∀ i, Wf P (slots i) (pos + d.skipLen + P.S))
    (ha : AgreeOn k.1 d.skipPattern pos (pos + d.skipLen)) (hlt : pos + d.skipLen < P.W)
    (hnot : ∀ p ∈ d.prefixes, p.key ≠ k) (b : Option α) {c : Node P.W α}
    (hin : slots (strideIdx P k.1 (pos + d.skipLen)) ≠ .null)
    (hc : Erased (slots (strideIdx P k.1 (pos + d.skipLen))) c k (pos + d.skipLen + P.S)) :
    Erased (.node d slots) (.node { d with best := b }
      (Function.update slots (strideIdx P k.1 (pos + d.skipLen)) c)) k pos := by
  set idx := strideIdx P k.1 (pos + d.skipLen) with hidx
  have hge : ¬ pos + d.skipLen ≥ P.W := by omega
  have hb : ∀ k' : BitVec P.W × ℕ, below P (Function.update slots idx c) k' (pos + d.skipLen) =
      if k' = k then none else below P slots k' (pos + d.skipLen) := by
    intro k'
    unfold below
    rw [if_neg hge, if_neg hge]
    by_cases hi : strideIdx P k'.1 (pos + d.skipLen) = idx
    · rw [hi, Function.update_self, hc.lookup]
    · have hne : k' ≠ k := fun he => hi (by rw [he])
      rw [Function.update_of_ne hi, if_neg hne]
  have hn : NodeOk P { d with best := b } (Function.update slots idx c) pos := by
    refine ⟨h.mask, h.le, h.nodup, h.count, h.fits, fun p hp => ?_, fun i hi => ?_⟩
    · simp only [hb]
      rw [h.once p hp]; split_ifs <;> rfl
    · by_cases he : i = idx
      · rw [he]; exact h.inArray idx hin
      · rw [Function.update_of_ne he] at hi; exact h.inArray i hi
  refine ⟨.node hn fun i => ?_, fun k' => ?_⟩
  · by_cases he : i = idx
    · rw [he, Function.update_self]; exact hc.wf
    · rw [Function.update_of_ne he]; exact hs i
  · by_cases ha' : AgreeOn k'.1 d.skipPattern pos (pos + d.skipLen)
    · rw [lookupExactFrom_agree hn ha', lookupExactFrom_agree h ha']
      simp only [hb]
      by_cases he : k' = k
      · rw [if_pos he, if_pos he, he, findPtr_eq_none.2 hnot]; rfl
      · rw [if_neg he, if_neg he]
    · have hne : k' ≠ k := fun he => ha' (he ▸ ha)
      rw [lookupExactFrom_disagree hn ha', lookupExactFrom_disagree h ha', if_neg hne]

/-- **Erasure removes the key** if the walk finds it, and nothing else. -/
theorem eraseAt_spec {n : Node P.W α} (hwf : Wf P n pos) (hp : Bool) :
    match eraseAt P hp n k.1 k.2 pos with
    | none => lookupExactFrom P n k.1 k.2 pos = none
    | some n' => (lookupExactFrom P n k.1 k.2 pos).isSome ∧ Erased n n' k pos := by
  induction n generalizing pos hp with
  | null => rfl
  | node d slots ih =>
    cases hwf with
    | node h hs =>
    by_cases ha : AgreeOn k.1 d.skipPattern pos (pos + d.skipLen)
    · simp only [eraseAt, (skipMatches_iff h.mask h.le).2 ha, Bool.not_true, Bool.false_eq_true,
        if_false, lookupExactFrom_agree h ha]
      cases hps : removePrefix k.1 k.2 d.prefixes with
      | some ps =>
        obtain ⟨p, rfl, hperm⟩ := removePrefix_eq_some hps
        have hsome : findPtr d.prefixes p.key = some p.ptr :=
          (findPtr_eq_some h.nodup).2 ⟨p, hperm.mem_iff.2 List.mem_cons_self, rfl, rfl⟩
        exact ⟨by rw [hsome]; rfl, erased_here h hs ha hps _ _⟩
      | none =>
        have hnot := removePrefix_eq_none.1 hps
        rw [findPtr_eq_none.2 hnot, Option.none_or]
        by_cases hge : pos + d.skipLen ≥ P.W
        · simp only [if_pos hge, below]
        · simp only [if_neg hge, below]
          have ihc := ih (strideIdx P k.1 (pos + d.skipLen)) (hs _) true
          cases hc : eraseAt P true (slots (strideIdx P k.1 (pos + d.skipLen))) k.1 k.2
              (pos + d.skipLen + P.S) with
          | none => rw [hc] at ihc; exact ihc
          | some c =>
            rw [hc] at ihc
            refine ⟨ihc.1, erased_below h hs ha (by omega) hnot _ (fun hnull => ?_) ihc.2⟩
            rw [hnull] at hc; simp [eraseAt] at hc
    · have hm : skipMatches d k.1 = false := by
        rw [← Bool.not_eq_true, skipMatches_iff h.mask h.le]; exact ha
      simp only [eraseAt, hm, Bool.not_false, if_true]
      exact lookupExactFrom_disagree h ha

/-! ## Histories -/

variable (P)

/-- The trie answers exact matches and erasures as the map `m` does. -/
structure ExactRefines (t : Node P.W α) (m : PMap (BitVec P.W) α) : Prop where
  lookup : ∀ pfx len, lookupExact P t pfx len = m (key P pfx len)
  erase_iff : ∀ pfx len, (erase P t pfx len).2 = true ↔ (m (key P pfx len)).isSome
  erase_other : ∀ pfx len pfx' len', key P pfx' len' ≠ key P pfx len →
    lookupExact P (erase P t pfx len).1 pfx' len' = lookupExact P t pfx' len'

variable {P}

/-- The state of a history: the trie is well formed and its walks give the map. -/
structure Tracks (t : Node P.W α) (m : PMap (BitVec P.W) α) : Prop where
  wf : Wf P t 0
  lookup : ∀ k : BitVec P.W × ℕ, k.2 ≤ P.W → lookupExactFrom P t k.1 k.2 0 = m k
  short : ∀ k : BitVec P.W × ℕ, P.W < k.2 → m k = none

theorem wf_ensureRoot {t : Node P.W α} (h : Wf P t 0) : Wf P (ensureRoot P t) 0 := by
  cases t with
  | null =>
    refine .node ⟨by simp, by simp, by simp [KeysNodup], by simp, by simp, by simp,
      fun i hi => absurd rfl hi⟩ fun _ => .null
  | node => exact h

theorem lookupExactFrom_ensureRoot (t : Node P.W α) (k : BitVec P.W × ℕ) :
    lookupExactFrom P (ensureRoot P t) k.1 k.2 0 = lookupExactFrom P t k.1 k.2 0 := by
  cases t with
  | null =>
    simp only [ensureRoot, lookupExactFrom, findPrefix, List.find?_nil, noChildren]
    split_ifs <;> rfl
  | node => rfl

theorem ensureRoot_ne (t : Node P.W α) : ensureRoot P t ≠ .null := by
  cases t <;> simp [ensureRoot]

theorem updateBest_none (n : Node P.W α) : updateBest none n = n := by cases n <;> rfl

theorem tracks_step {t : Node P.W α} {m : PMap (BitVec P.W) α} (h : Tracks t m) {op : Op P α}
    (hok : opOk P t op = true) : Tracks (step P t op) (mapStep P m op) := by
  cases op with
  | insert pfx len v =>
    simp only [step, insert, mapStep]
    by_cases hlen : len > P.W
    · simpa only [if_pos hlen] using h
    · simp only [if_neg hlen]
      simp only [opOk, decide_eq_false hlen, Bool.false_or] at hok
      have hins := inserted_insertAt (k := key P pfx len) (v := v) (not_lt.1 hlen)
        (ensureRoot_ne t) (wf_ensureRoot h.wf) hok none
      rw [updateBest_none] at hins
      refine ⟨hins.wf, fun k hk => ?_, fun k hk => ?_⟩
      · have := hins.lookup k
        rw [lookupExactFrom_ensureRoot, h.lookup k hk] at this
        rw [Function.update_apply]; exact this
      · have hne : k ≠ key P pfx len := fun he => by rw [he] at hk; exact hlen hk
        rw [Function.update_of_ne hne]; exact h.short k hk
  | erase pfx len =>
    simp only [step, erase, mapStep]
    by_cases hlen : len > P.W
    · simpa only [if_pos hlen] using h
    · simp only [if_neg hlen]
      have hspec := eraseAt_spec (k := key P pfx len) h.wf false
      have hshort : ∀ k : BitVec P.W × ℕ, P.W < k.2 → Function.update m (key P pfx len) none k = none := by
        intro k hk
        rw [Function.update_apply, h.short k hk]; split_ifs <;> rfl
      simp only [key] at hspec ⊢
      cases he : eraseAt P false t (applyMask (toHostOrder pfx) len) len 0 with
      | none =>
        rw [he] at hspec
        refine ⟨h.wf, fun k hk => ?_, hshort⟩
        rw [Function.update_apply, h.lookup k hk]
        split_ifs with hk'
        · rw [hk', ← h.lookup _ (not_lt.1 hlen)]; exact hspec
        · rfl
      | some t' =>
        rw [he] at hspec
        refine ⟨hspec.2.wf, fun k hk => ?_, hshort⟩
        rw [Function.update_apply, ← h.lookup k hk]; exact hspec.2.lookup k

theorem lookupExact_of_tracks {t : Node P.W α} {m : PMap (BitVec P.W) α} (h : Tracks t m)
    (pfx : Fin P.N → BitVec 8) (len : ℕ) : lookupExact P t pfx len = m (key P pfx len) := by
  unfold lookupExact
  split_ifs with hlen
  · exact (h.short (key P pfx len) hlen).symm
  · exact h.lookup (key P pfx len) (not_lt.1 hlen)

theorem exactRefines_of_tracks {t : Node P.W α} {m : PMap (BitVec P.W) α} (h : Tracks t m) :
    ExactRefines P t m := by
  refine ⟨lookupExact_of_tracks h, fun pfx len => ?_, fun pfx len pfx' len' hne => ?_⟩
  · unfold erase
    split_ifs with hlen
    · simp [h.short (key P pfx len) hlen]
    · have hspec := eraseAt_spec (k := key P pfx len) h.wf false
      rw [h.lookup (key P pfx len) (not_lt.1 hlen)] at hspec
      simp only [key] at hspec ⊢
      cases he : eraseAt P false t (applyMask (toHostOrder pfx) len) len 0 with
      | none => rw [he] at hspec; simp [hspec]
      | some t' => rw [he] at hspec; simp [hspec.1]
  · have h' : Tracks (erase P t pfx len).1 _ := @tracks_step _ _ _ _ h (.erase pfx len) rfl
    rw [lookupExact_of_tracks h', lookupExact_of_tracks h, mapStep]
    split_ifs
    · rfl
    · rw [Function.update_of_ne hne]

theorem tracks_nil : Tracks (.null : Node P.W α) (fun _ => none) :=
  ⟨.null, fun _ _ => rfl, fun _ _ => rfl⟩

theorem tracks_run {ops : List (Op P α)}
    (h : Run.Along (fun t op => opOk P t op = true) (step P) .null ops) :
    Tracks (Run.runFrom (step P) .null ops) (Run.runFrom (mapStep P) (fun _ => none) ops) := by
  have hstep : ∀ (t : Node P.W α) (m : PMap (BitVec P.W) α) (op : Op P α), Tracks t m →
      opOk P t op = true → Tracks (step P t op) (mapStep P m op) :=
    fun _ _ _ hR hok => tracks_step hR hok
  exact Run.Along.simulation hstep tracks_nil h

/-- **The trie refines the finite map of its calls**, along every history whose
    insertions keep the invariant. -/
theorem exactRefines_replay (ops : List (Op P α))
    (h : Run.Along (fun t op => opOk P t op = true) (step P) .null ops) :
    ExactRefines P (Run.runFrom (step P) .null ops) (Run.runFrom (mapStep P) (fun _ => none) ops) :=
  exactRefines_of_tracks (tracks_run h)

/-- Nested and diverging prefixes, one of them erased again. -/
theorem exactRefines_replay_nested :
    ExactRefines LpcParams.v4
      (Run.runFrom (step LpcParams.v4) .null
        [.insert (bytes4 10 0 0 0) 8 1, .insert (bytes4 10 1 0 0) 16 2,
          .insert (bytes4 10 2 0 0) 16 3, .erase (bytes4 10 1 0 0) 16])
      (Run.runFrom (mapStep LpcParams.v4) (fun _ => none)
        [.insert (bytes4 10 0 0 0) 8 1, .insert (bytes4 10 1 0 0) 16 2,
          .insert (bytes4 10 2 0 0) 16 3, .erase (bytes4 10 1 0 0) 16]) :=
  exactRefines_replay _ (by decide +kernel)

/-- A split within the last stride loses `10.128.0.0/9`: the contents of the node
    of `10.0.0.0/8` all move under the slot of the bits `1000`. -/
theorem not_exactRefines_split :
    ¬ ExactRefines LpcParams.v4
      (Run.runFrom (step LpcParams.v4) .null
        [.insert (bytes4 10 0 0 0) 8 1, .insert (bytes4 10 128 0 0) 9 2,
          .insert (bytes4 8 0 0 0) 8 3])
      (Run.runFrom (mapStep LpcParams.v4) (fun _ => none)
        [.insert (bytes4 10 0 0 0) 8 1, .insert (bytes4 10 128 0 0) 9 2,
          .insert (bytes4 8 0 0 0) 8 3]) := by
  intro h
  have hl := h.lookup (bytes4 10 128 0 0) 9
  revert hl
  decide +kernel

end LpcTrie

end VirtualRouter
