/-
  The manager of path attributes (`routing/bgp/attributes/AttributeManager.hpp`).

  Attribute sets and paths are interned at two levels.  `idToAttr` and
  `idToPath` are the entries of an id, their sizes stand in the id pools with
  the free ids.  A hash map whose hash and equality are consistent is the
  function it computes.  The reference counts are `uint32_t` and wrap.

  A user of the manager holds references: `Shared` is the manager with the list
  of the references that were obtained by `acquire` or by `retain` and not
  released, each with the value it was acquired for.
-/
import VirtualRouter.Lib.IdPool

namespace VirtualRouter.Bgp

/-! ## The data -/

structure AttrEntry (A : Type*) where
  attrs : A
  refCount : UInt32 := 0
  used : Bool := false

structure PathEntry (P : Type*) where
  path : P
  attrId : UInt32 := 0
  refCount : UInt32 := 0
  used : Bool := false

structure AttributeManager (A P : Type*) where
  attrToId : A → Option UInt32
  idToAttr : UInt32 → AttrEntry A
  attrIds : IdPool := {}
  pathToId : UInt32 × P → Option UInt32
  idToPath : UInt32 → PathEntry P
  pathIds : IdPool := {}

namespace AttributeManager

variable {A P : Type*}

def empty (A P : Type*) [Inhabited A] [Inhabited P] : AttributeManager A P where
  attrToId _ := none
  idToAttr _ := ⟨default, 0, false⟩
  pathToId _ := none
  idToPath _ := ⟨default, 0, 0, false⟩

variable (m : AttributeManager A P)

/-! ## Operations -/

def setRefCount (id refCount : UInt32) : AttributeManager A P :=
  { m with
    idToPath := Function.update m.idToPath id { m.idToPath id with refCount := refCount } }

/-- The id of the attribute set, the first half of `acquire`. -/
def acquireAttr [DecidableEq A] (attrs : A) : UInt32 × AttributeManager A P :=
  match m.attrToId attrs with
  | some attrId => (attrId, m)
  | none =>
    let attrId := m.attrIds.take.1
    (attrId,
      { m with
        attrIds := m.attrIds.take.2
        idToAttr := Function.update m.idToAttr attrId ⟨attrs, 0, true⟩
        attrToId := Function.update m.attrToId attrs (some attrId) })

/-- A new path with one reference, under the id `id` of the pool. -/
def addPath [DecidableEq P] (attrId : UInt32) (path : P) (id : UInt32) (ids : IdPool) :
    AttributeManager A P :=
  let attrEntry := m.idToAttr attrId
  { m with
    idToAttr := Function.update m.idToAttr attrId
      { attrEntry with refCount := attrEntry.refCount + 1 }
    pathIds := ids
    idToPath := Function.update m.idToPath id ⟨path, attrId, 1, true⟩
    pathToId := Function.update m.pathToId (attrId, path) (some id) }

/-- The id of the path with an attribute set, the second half of `acquire`. -/
def acquirePath [DecidableEq P] (attrId : UInt32) (path : P) : UInt32 × AttributeManager A P :=
  match m.pathToId (attrId, path) with
  | some pathId => (pathId, m.setRefCount pathId ((m.idToPath pathId).refCount + 1))
  | none => (m.pathIds.take.1, m.addPath attrId path m.pathIds.take.1 m.pathIds.take.2)

def acquire [DecidableEq A] [DecidableEq P] (attrs : A) (path : P) : UInt32 × AttributeManager A P :=
  (m.acquireAttr attrs).2.acquirePath (m.acquireAttr attrs).1 path

def retain (id : UInt32) : Bool × AttributeManager A P :=
  let entry := m.idToPath id
  if id.toNat ≥ m.pathIds.count then (false, m)
  else if entry.used = false then (false, m)
  else (true, m.setRefCount id (entry.refCount + 1))

def releaseAttr [DecidableEq A] (id : UInt32) : AttributeManager A P :=
  let entry := m.idToAttr id
  if id.toNat ≥ m.attrIds.count then m
  else if entry.used = false then m
  else if entry.refCount = 0 then m
  else if entry.refCount - 1 > 0 then
    { m with idToAttr := Function.update m.idToAttr id { entry with refCount := entry.refCount - 1 } }
  else
    { m with
      attrToId := Function.update m.attrToId entry.attrs none
      idToAttr := Function.update m.idToAttr id
        { entry with refCount := entry.refCount - 1, used := false }
      attrIds := m.attrIds.put id }

def dropPath [DecidableEq A] [DecidableEq P] (id : UInt32) : AttributeManager A P :=
  let entry := m.idToPath id
  let m := { m with pathToId := Function.update m.pathToId (entry.attrId, entry.path) none }
  let m := m.releaseAttr entry.attrId
  { m with
    idToPath := Function.update m.idToPath id
      { entry with refCount := entry.refCount - 1, used := false }
    pathIds := m.pathIds.put id }

def release [DecidableEq A] [DecidableEq P] (id : UInt32) : AttributeManager A P :=
  let entry := m.idToPath id
  if id.toNat ≥ m.pathIds.count then m
  else if entry.used = false then m
  else if entry.refCount = 0 then m
  else if entry.refCount - 1 > 0 then m.setRefCount id (entry.refCount - 1)
  else m.dropPath id

def Valid (id : UInt32) : Prop :=
  id.toNat < m.pathIds.count ∧ (m.idToPath id).used = true ∧
    (m.idToPath id).attrId.toNat < m.attrIds.count

/-- `get`: the attributes and the path of an id. -/
def get (id : UInt32) : A × P := ((m.idToAttr (m.idToPath id).attrId).attrs, (m.idToPath id).path)

end AttributeManager

/-! ## References -/

/-- A reference: an id, and what it was acquired for. -/
structure AttrRef (A P : Type*) where
  id : UInt32
  attrs : A
  path : P

/-- The manager and the references held. -/
structure Shared (A P : Type*) where
  manager : AttributeManager A P
  held : List (AttrRef A P) := []

inductive AttrOp (A P : Type*) where
  | acquire (attrs : A) (path : P)
  | retain (id : UInt32)
  | release (id : UInt32)

namespace Shared

variable {A P : Type*} [DecidableEq A] [DecidableEq P] (s : Shared A P)

def acquire (attrs : A) (path : P) : Shared A P where
  manager := (s.manager.acquire attrs path).2
  held := ⟨(s.manager.acquire attrs path).1, attrs, path⟩ :: s.held

/-- A reference that is retained has the value of the one it is copied from. -/
def retain (id : UInt32) : Shared A P where
  manager := (s.manager.retain id).2
  held :=
    if (s.manager.retain id).1 then (s.held.find? fun r => r.id = id).toList ++ s.held else s.held

def release (id : UInt32) : Shared A P where
  manager := s.manager.release id
  held := s.held.eraseP fun r => r.id = id

def step : AttrOp A P → Shared A P
  | .acquire attrs path => s.acquire attrs path
  | .retain id => s.retain id
  | .release id => s.release id

def refs (id : UInt32) : ℕ := s.held.countP fun r => r.id = id

/-- Only what is held is released. -/
def Legal : AttrOp A P → Prop
  | .release id => 0 < s.refs id
  | _ => True

/-- There is room in the 32 bits of a count and of an id: a reference leaves the count below
    `2 ^ 32`, and a new pair leaves an id without reference. -/
def Fits : AttrOp A P → Prop
  | .acquire attrs path =>
    (∀ r ∈ s.held, r.attrs = attrs → r.path = path → s.refs r.id + 1 < 2 ^ 32) ∧
    ((∀ r ∈ s.held, ¬ (r.attrs = attrs ∧ r.path = path)) →
      ∃ i j, i ≠ j ∧ s.refs i = 0 ∧ s.refs j = 0)
  | .retain id => s.refs id + 1 < 2 ^ 32
  | .release _ => True

end Shared

end VirtualRouter.Bgp
