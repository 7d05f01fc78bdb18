/-
  The level-compressed trie of `types/LpcTrie.hpp`.

  A node holds the bits compressed into it (`skipPattern`, `skipMask`,
  `skipLen`), the cached `best` pointer, the prefixes that end in it, sorted by
  length and then address, and one child slot per value of the next `S` bits.
  A null `Node*` is `Node.null`; an unallocated `ChildArray` is the array whose
  slots are all null, which no function of the source tells apart from it.
  `T*` is modelled by a type `α` of non-null pointers, and by `Option α` where
  the source returns or caches a pointer that may be null.

  `insertAt`, `splitNode` and `eraseAt` edit the tree in place in the source;
  here they return the edited subtree.  `FANOUT` is computed in eight bits as
  in the source, so it is `0` for `S = 8`; a slot is read and written at any
  index, also beyond `FANOUT`, as an access past the end of `slots` that lands
  in memory would be.
-/
import VirtualRouter.Lib.PrefixMap

namespace VirtualRouter

open PrefixMap

/-- The template parameters of `LPCTrie`: the address has `N` bytes and a level
    consumes `S` bits.  The values of `N` are those for which `AddrT` has
    exactly `8 * N` bits. -/
structure LpcParams where
  N : ℕ
  S : ℕ
  hN : N ∈ [1, 2, 4, 8, 16]
  hS : 1 ≤ S ∧ S ≤ 8

namespace LpcParams
variable (P : LpcParams)

/-- Total bits. -/
def W : ℕ := P.N * 8

/-- Children per node: `static_cast<uint8_t>(1u << S)`. -/
def FANOUT : ℕ := 2 ^ P.S % 256

/-- Stride mask: `static_cast<AddrT>(FANOUT - 1u)`, the subtraction being one
    of 32-bit unsigned integers. -/
def SMASK : BitVec P.W := BitVec.ofNat P.W ((2 ^ 32 + P.FANOUT - 1) % 2 ^ 32)

theorem W_ge : 8 ≤ P.W := by
  have h := P.hN
  simp only [List.mem_cons, List.not_mem_nil, or_false] at h
  unfold W; omega

theorem W_le : P.W ≤ 128 := by
  have h := P.hN
  simp only [List.mem_cons, List.not_mem_nil, or_false] at h
  unfold W; omega

theorem four_mem : 4 ∈ [1, 2, 4, 8, 16] := by decide

def v4 : LpcParams := ⟨4, 4, four_mem, by decide⟩

end LpcParams

namespace LpcTrie

structure PrefixEntry (W : ℕ) (α : Type) where
  addr : BitVec W
  ptr : α
  len : ℕ
  deriving DecidableEq

/-- `PrefixEntry::operator<`. -/
def PrefixEntry.lt {W : ℕ} {α : Type} (p q : PrefixEntry W α) : Prop :=
  if p.len ≠ q.len then p.len < q.len else p.addr < q.addr

instance {W : ℕ} {α : Type} (p q : PrefixEntry W α) : Decidable (p.lt q) := by
  unfold PrefixEntry.lt; infer_instance

/-- The fields of a `Node` other than its child slots. -/
structure NodeData (W : ℕ) (α : Type) where
  skipPattern : BitVec W := 0
  skipMask : BitVec W := 0
  skipLen : ℕ := 0
  best : Option α := none
  prefixes : List (PrefixEntry W α) := []

/-- A `Node*`. -/
inductive Node (W : ℕ) (α : Type) where
  | null
  | node (d : NodeData W α) (slots : ℕ → Node W α)

/-- The slots of a node without a `ChildArray`. -/
def noChildren {W : ℕ} {α : Type} : ℕ → Node W α := fun _ => .null

def Node.isNull {W : ℕ} {α : Type} : Node W α → Bool
  | .null => true
  | .node .. => false

section
variable {W : ℕ} {α : Type}

/-! ## The prefixes of a node -/

def findPrefix (ps : List (PrefixEntry W α)) (addr : BitVec W) (len : ℕ) :
    Option (PrefixEntry W α) :=
  ps.find? fun p => p.len = len ∧ p.addr = addr

/-- `ex->ptr = ptr` on the entry found by `findPrefix`. -/
def setPtr (addr : BitVec W) (len : ℕ) (ptr : α) :
    List (PrefixEntry W α) → List (PrefixEntry W α)
  | [] => []
  | p :: ps => if p.len = len ∧ p.addr = addr then { p with ptr } :: ps
      else p :: setPtr addr len ptr ps

/-- `insertPrefix`.  `nPrefixes` is a `uint8_t`: the 256th entry makes the new
    count zero and the node loses its prefixes. -/
def insertPrefix (ps : List (PrefixEntry W α)) (addr : BitVec W) (len : ℕ) (ptr : α) :
    List (PrefixEntry W α) :=
  if (findPrefix ps addr len).isSome then setPtr addr len ptr ps
  else
    let newCount := (ps.length + 1) % 256
    let entry : PrefixEntry W α := { addr, ptr, len }
    ((ps ++ [entry]).insertionSort fun p q => ¬ PrefixEntry.lt q p).take newCount

/-- `removePrefix`: the list without the entry, if there is one. -/
def removePrefix (addr : BitVec W) (len : ℕ) :
    List (PrefixEntry W α) → Option (List (PrefixEntry W α))
  | [] => none
  | p :: ps => if p.len = len ∧ p.addr = addr then some ps
      else (removePrefix addr len ps).map (p :: ·)

/-- `localBest`: the last entry of the sorted list. -/
def localBest (ps : List (PrefixEntry W α)) : Option α := ps.getLast?.map (·.ptr)

/-! ## Address arithmetic -/

/-- `toHostOrder`: the first byte is the most significant. -/
def toHostOrder {N : ℕ} (net : Fin N → BitVec 8) : BitVec W :=
  (List.finRange N).foldl (fun v i => (v <<< 8) ||| (net i).setWidth W) 0

/-- `applyMask`: zero the host bits beyond `len`. -/
def applyMask (addr : BitVec W) (len : ℕ) : BitVec W :=
  if len = 0 then 0
  else if len ≥ W then addr
  else addr &&& (BitVec.allOnes W <<< (W - len))

/-- `makeMask`: `len` one-bits from bit position `pos`. -/
def makeMask (pos len : ℕ) : BitVec W :=
  if len = 0 then 0
  else if len ≥ W then BitVec.allOnes W
  else (((1 : BitVec W) <<< len) - 1) <<< (W - pos - len)

/-- The bit tested by `commonSkipLen`; the shift is a `uint16_t`. -/
def bitFromTop (a : BitVec W) (bitPos : ℕ) : BitVec W :=
  (a >>> ((65536 + W - bitPos - 1) % 65536)) &&& 1

/-- `commonSkipLen`: how many of the `maxBits` bits from `pos` agree. -/
def commonSkipLen (a b : BitVec W) : ℕ → ℕ → ℕ
  | _, 0 => 0
  | pos, maxBits + 1 =>
    if bitFromTop a pos ≠ bitFromTop b pos then 0 else commonSkipLen a b (pos + 1) maxBits + 1

/-- The check of the compressed bits: `((addr ^ skipPattern) & skipMask) == 0`
    unless nothing is compressed. -/
def skipMatches (d : NodeData W α) (addr : BitVec W) : Bool :=
  d.skipLen = 0 ∨ (addr ^^^ d.skipPattern) &&& d.skipMask = 0

def updateBest (entry : Option α) : Node W α → Node W α
  | .null => .null
  | .node d slots => .node { d with best := entry.or d.best } slots

end

section
variable (P : LpcParams) {α : Type}

/-- The index of the next `S` bits; `shift` is a `uint16_t`, `idx` a `uint8_t`. -/
def strideIdx (addr : BitVec P.W) (pos : ℕ) : ℕ :=
  let shift := (65536 + P.W - pos - P.S) % 65536
  ((addr >>> shift) &&& P.SMASK).toNat % 256

def isEmpty (d : NodeData P.W α) (slots : ℕ → Node P.W α) : Bool :=
  d.prefixes.isEmpty && (List.range P.FANOUT).all fun i => (slots i).isNull

/-! ## Lookup -/

/-- The loop of `lookup`, at a node reached after `pos` bits. -/
def lookupFrom : Node P.W α → BitVec P.W → ℕ → Option α → Option α
  | .null, _, _, best => best
  | .node d slots, addr, pos, best =>
    if !skipMatches d addr then best
    else
      let pos := pos + d.skipLen
      let best := d.best.or best
      if pos ≥ P.W then best
      else lookupFrom (slots (strideIdx P addr pos)) addr (pos + P.S) best

def lookup (root : Node P.W α) (addr : BitVec P.W) : Option α := lookupFrom P root addr 0 none

/-- The loop of `lookupExact`. -/
def lookupExactFrom : Node P.W α → BitVec P.W → ℕ → ℕ → Option α
  | .null, _, _, _ => none
  | .node d slots, masked, len, pos =>
    if !skipMatches d masked then none
    else
      let pos := pos + d.skipLen
      match findPrefix d.prefixes masked len with
      | some e => some e.ptr
      | none =>
        if pos ≥ P.W then none
        else lookupExactFrom (slots (strideIdx P masked pos)) masked len (pos + P.S)

def lookupExact (root : Node P.W α) (pfx : Fin P.N → BitVec 8) (len : ℕ) : Option α :=
  if len > P.W then none
  else lookupExactFrom P root (applyMask (toHostOrder pfx) len) len 0

/-! ## Insertion -/

/-- The restructuring of `splitNode`: the data of the node moves to a new child
    below the first `matchLen` compressed bits. -/
def splitNode (d : NodeData P.W α) (slots : ℕ → Node P.W α) (pos matchLen : ℕ) : Node P.W α :=
  let branchPos := pos + matchLen
  let subPos := branchPos + P.S
  let subSkip : NodeData P.W α :=
    if d.skipLen > matchLen + P.S then
      { skipLen := d.skipLen - (matchLen + P.S), skipPattern := d.skipPattern,
        skipMask := makeMask subPos (d.skipLen - (matchLen + P.S)) }
    else {}
  -- the prefixes are inserted one by one into the new node
  let subPrefixes := d.prefixes.foldl (fun ps p => insertPrefix ps p.addr p.len p.ptr) []
  let sub : Node P.W α :=
    .node { subSkip with prefixes := subPrefixes, best := localBest subPrefixes } slots
  let oldIdx := strideIdx P d.skipPattern branchPos
  .node { skipPattern := d.skipPattern, skipLen := matchLen, skipMask := makeMask pos matchLen,
          best := none, prefixes := [] }
    (Function.update noChildren oldIdx sub)

/-- The leaf `insertAt` creates below a node with cached pointer `parentBest`. -/
def newLeaf (pfx : BitVec P.W) (len : ℕ) (entry : α) (pos : ℕ) (parentBest : Option α) :
    Node P.W α :=
  let remaining := len - pos
  let skipLen := if remaining > 255 then 255 else remaining
  let leaf : NodeData P.W α :=
    if remaining > 0 then { skipLen, skipPattern := pfx, skipMask := makeMask pos skipLen } else {}
  updateBest (some entry)
    (.node { leaf with best := parentBest, prefixes := insertPrefix [] pfx len entry } noChildren)

/-- Step 1 of `insertAt`: the node, split where its compressed bits stop agreeing
    with `pfx`.  `splitNode` ends by calling `insertAt` again on the node it has
    restructured, whose compressed bits all agree (`insertAt_splitNode`), so the
    call goes on with steps 2 and 3. -/
def splitAtMismatch (pfx : BitVec P.W) (pos : ℕ) : Node P.W α → Node P.W α
  | .null => .null
  | .node d slots =>
    let matched := commonSkipLen pfx d.skipPattern pos d.skipLen
    if d.skipLen > 0 ∧ matched < d.skipLen then splitNode P d slots pos matched
    else .node d slots

def insertAt (n : Node P.W α) (pfx : BitVec P.W) (len : ℕ) (entry : α) (pos : ℕ) : Node P.W α :=
  match splitAtMismatch P pfx pos n with
  | .null => .null
  | .node d slots =>
    let pos' := pos + d.skipLen
    if pos' ≥ len ∨ len - pos' ≤ P.S then
      -- the prefix terminates on this node
      let ps := insertPrefix d.prefixes pfx len entry
      .node { d with prefixes := ps, best := localBest ps } slots
    else
      let idx := strideIdx P pfx pos'
      match slots idx with
      | .null =>
        .node d (Function.update slots idx (newLeaf P pfx len entry (pos' + P.S) d.best))
      | .node cd cslots =>
        -- the child takes over the parent's cached pointer before the descent
        .node d (Function.update slots idx
          (insertAt (updateBest d.best (.node cd cslots)) pfx len entry (pos' + P.S)))
termination_by len - pos
decreasing_by
  have := P.hS
  omega

/-- The root `insert` works on: a fresh node if there is none yet. -/
def ensureRoot : Node P.W α → Node P.W α
  | .null => .node {} noChildren
  | n => n

/-- `insert`: the tree after the call, and its result. -/
def insert (root : Node P.W α) (pfx : Fin P.N → BitVec 8) (len : ℕ) (entry : α) :
    Node P.W α × Bool :=
  if len > P.W then (root, false)
  else
    let masked := applyMask (toHostOrder pfx) len
    (insertAt P (ensureRoot P root) masked len entry 0, true)

/-! ## Erasure -/

/-- `eraseAt`: `none` when nothing is removed, otherwise the subtree left, which
    is null when the node was pruned; only a node with a parent is. -/
def eraseAt (hasParent : Bool) : Node P.W α → BitVec P.W → ℕ → ℕ → Option (Node P.W α)
  | .null, _, _, _ => none
  | .node d slots, pfx, len, pos =>
    if !skipMatches d pfx then none
    else
      let pos := pos + d.skipLen
      match removePrefix pfx len d.prefixes with
      | some ps =>
        let d' := { d with prefixes := ps, best := localBest ps }
        some (if isEmpty P d' slots && hasParent then .null else .node d' slots)
      | none =>
        if pos ≥ P.W then none
        else
          let idx := strideIdx P pfx pos
          match eraseAt true (slots idx) pfx len (pos + P.S) with
          | none => none
          | some child =>
            some (.node { d with best := localBest d.prefixes } (Function.update slots idx child))

/-- `erase`: the tree after the call, and its result. -/
def erase (root : Node P.W α) (pfx : Fin P.N → BitVec 8) (len : ℕ) : Node P.W α × Bool :=
  if len > P.W then (root, false)
  else match eraseAt P false root (applyMask (toHostOrder pfx) len) len 0 with
    | none => (root, false)
    | some root' => (root', true)

/-- `forEach`: the entries visited, in order. -/
def forEach : Node P.W α → List (PrefixEntry P.W α)
  | .null => []
  | .node d slots => d.prefixes ++ (List.range P.FANOUT).flatMap fun i => forEach (slots i)

def bytes4 (a b c d : BitVec 8) : Fin 4 → BitVec 8 := ![a, b, c, d]

/-! ## Histories -/

/-- A call that changes the trie. -/
inductive Op (α : Type) where
  | insert (pfx : Fin P.N → BitVec 8) (len : ℕ) (ptr : α)
  | erase (pfx : Fin P.N → BitVec 8) (len : ℕ)

/-- The key a call is about: the masked prefix and its length. -/
def key (pfx : Fin P.N → BitVec 8) (len : ℕ) : BitVec P.W × ℕ :=
  (applyMask (toHostOrder pfx) len, len)

def step (t : Node P.W α) : Op P α → Node P.W α
  | .insert pfx len ptr => (insert P t pfx len ptr).1
  | .erase pfx len => (erase P t pfx len).1

/-- The same call on a finite map of prefixes; a call with a length over `W` is
    refused. -/
def mapStep (m : PMap (BitVec P.W) α) : Op P α → PMap (BitVec P.W) α
  | .insert pfx len ptr => if len > P.W then m else Function.update m (key P pfx len) (some ptr)
  | .erase pfx len => if len > P.W then m else Function.update m (key P pfx len) none

end

end LpcTrie

end VirtualRouter
