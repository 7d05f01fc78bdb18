/-
  The binary Patricia trie of `types/RadixTree.hpp`.

  A node stores a prefix, its length, the index of the bit that routes a walk
  left or right (`W` on a node that is not routed through) and a value.  A null
  `Node*` is `Node.null`; `insertRec` and `eraseRec` edit the tree in place in
  the source and return the edited subtree here.  `lookup` and `lookupExact`
  return a pointer to a value or null, here an `Option`.  `length` is a
  `uint8_t` that is only copied and compared, and a natural number here.
-/
import VirtualRouter.Lib.PrefixMap

namespace VirtualRouter

open PrefixMap

namespace RadixTree

/-- An address: `N` bytes in network order. -/
abbrev Bytes (N : ℕ) := Fin N → BitVec 8

section
variable {N : ℕ}

/-- Total number of addressable bits. -/
def W (N : ℕ) : ℕ := N * 8

/-- The byte mask `0xFF00u >> rem`, as a `uint8_t`. -/
def remMask (rem : ℕ) : BitVec 8 := ((0xFF00 : BitVec 32) >>> rem).setWidth 8

def bitAt (addr : Bytes N) (i : ℕ) : Bool :=
  if h : i < W N then
    ((addr ⟨i >>> 3, by rw [Nat.shiftRight_eq_div_pow]; unfold W at h; omega⟩ >>> (7 - i % 8))
      &&& 1) ≠ 0
  else false

/-- `applyMask`: clear the bits from `len` on. -/
def applyMask (pfx : Bytes N) (len : ℕ) : Bytes N :=
  if len ≥ W N then pfx
  else
    let full := len >>> 3
    let rem := len % 8
    fun i =>
      if i.val < full then pfx i
      else if i.val = full ∧ rem ≠ 0 then pfx i &&& remMask rem
      else 0

/-- `prefixCovers`: the first `len` bits of `addr` are those of `pfx`. -/
def prefixCovers (addr pfx : Bytes N) (len : ℕ) : Bool :=
  if len = 0 then true
  else
    let full := len >>> 3
    let rem := len % 8
    (List.finRange N).all fun i =>
      if i.val < full then addr i = pfx i
      else if i.val = full ∧ rem ≠ 0 then (addr i &&& remMask rem) = pfx i
      else true

/-- `diffbit`: the first bit that differs, `W` if there is none. -/
def diffbit (a b : Bytes N) : ℕ :=
  match (List.finRange N).find? fun i => a i ^^^ b i ≠ 0 with
  | some i => i.val * 8 + (((a i ^^^ b i).setWidth 32).clz.toNat - 24)
  | none => W N

end

/-- The fields of a `Node` other than its children. -/
structure NodeData (N : ℕ) (α : Type) where
  pfx : Bytes N
  length : ℕ
  bit : ℕ
  value : α

/-- A `Node*`. -/
inductive Node (N : ℕ) (α : Type) where
  | null
  | node (n : NodeData N α) (left right : Node N α)

section
variable {N : ℕ} {α : Type}

def Node.isNull : Node N α → Bool
  | .null => true
  | .node .. => false

def NodeData.isKey (n : NodeData N α) (pfx : Bytes N) (len : ℕ) : Prop :=
  n.length = len ∧ n.pfx = pfx

instance (n : NodeData N α) (pfx : Bytes N) (len : ℕ) : Decidable (n.isKey pfx len) := by
  unfold NodeData.isKey; infer_instance

/-! ## Lookup -/

/-- The loop of `lookup`. -/
def lookupFrom : Node N α → Bytes N → Option α → Option α
  | .null, _, best => best
  | .node n left right, addr, best =>
    let best := if prefixCovers addr n.pfx n.length then some n.value else best
    if n.bit ≥ W N then best
    else if bitAt addr n.bit then lookupFrom right addr best
    else lookupFrom left addr best

def lookup (root : Node N α) (addr : Bytes N) : Option α := lookupFrom root addr none

/-- The loop of `lookupExact`. -/
def lookupExactFrom : Node N α → Bytes N → ℕ → Option α
  | .null, _, _ => none
  | .node n left right, masked, len =>
    if n.isKey masked len then some n.value
    else if n.bit ≥ W N then none
    else if bitAt masked n.bit then lookupExactFrom right masked len
    else lookupExactFrom left masked len

def lookupExact (root : Node N α) (pfx : Bytes N) (len : ℕ) : Option α :=
  lookupExactFrom root (applyMask pfx len) len

/-! ## Insertion -/

def insertRec : Node N α → Bytes N → ℕ → α → Node N α
  | .null, pfx, len, value => .node { pfx, length := len, bit := W N, value } .null .null
  | .node n left right, pfx, len, value =>
    if n.isKey pfx len then .node { n with value } left right
    else
      let d := diffbit n.pfx pfx
      if d < n.bit then
        let parent : NodeData N α := { pfx, length := len, bit := d, value }
        if bitAt pfx d then .node parent (.node n left right) .null
        else .node parent .null (.node n left right)
      else if bitAt pfx n.bit then .node n left (insertRec right pfx len value)
      else .node n (insertRec left pfx len value) right

def insert (root : Node N α) (pfx : Bytes N) (len : ℕ) (value : α) : Node N α :=
  insertRec root (applyMask pfx len) len value

/-! ## Erasure -/

/-- The result codes of `eraseRec`; with `keep` comes the subtree left. -/
inductive EraseResult (N : ℕ) (α : Type) where
  | keep (n : Node N α)
  | remove
  | notFound

variable [Inhabited α]

/-- What the caller of `eraseRec` does with the code of the child. -/
def EraseResult.unlink (wrap : Node N α → Node N α) : EraseResult N α → EraseResult N α
  | .keep c => .keep (wrap c)
  | .remove => .keep (wrap .null)
  | .notFound => .notFound

def eraseRec : Node N α → Bytes N → ℕ → EraseResult N α
  | .null, _, _ => .notFound
  | .node n left right, pfx, len =>
    if n.isKey pfx len then
      if left.isNull && right.isNull then .remove
      else .keep (.node { n with value := default } left right)
    else if n.bit ≥ W N then .notFound
    else if bitAt pfx n.bit then (eraseRec right pfx len).unlink fun c => .node n left c
    else (eraseRec left pfx len).unlink fun c => .node n c right

/-- `erase`: the tree after the call, and its result.  The root is tested before
    the recursion starts, and unlinked from the tree itself. -/
def erase (root : Node N α) (pfx : Bytes N) (len : ℕ) : Node N α × Bool :=
  let masked := applyMask pfx len
  match root with
  | .null => (.null, false)
  | .node n left right =>
    if n.isKey masked len then
      if left.isNull && right.isNull then (.null, true)
      else (.node { n with value := default } left right, true)
    else match eraseRec (.node n left right) masked len with
      | .keep root' => (root', true)
      | .remove => (.node n left right, true)
      | .notFound => (.node n left right, false)

/-! ## Histories -/

/-- A call that changes the tree. -/
inductive Op (N : ℕ) (α : Type) where
  | insert (pfx : Bytes N) (len : ℕ) (value : α)
  | erase (pfx : Bytes N) (len : ℕ)

def key (pfx : Bytes N) (len : ℕ) : Bytes N × ℕ := (applyMask pfx len, len)

def step (t : Node N α) : Op N α → Node N α
  | .insert pfx len value => insert t pfx len value
  | .erase pfx len => (erase t pfx len).1

def mapStep (m : PMap (Bytes N) α) : Op N α → PMap (Bytes N) α
  | .insert pfx len value => Function.update m (key pfx len) (some value)
  | .erase pfx len => Function.update m (key pfx len) none

end

end RadixTree

end VirtualRouter
