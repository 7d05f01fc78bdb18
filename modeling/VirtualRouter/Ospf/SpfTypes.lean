/-
  The data of the OSPF shortest-path computation (`routing/ospf/spf/SpfTypes.hpp`).

  A router vertex carries a router id of 32 bits and a network vertex a packed
  pair of 64 bits, so that the type of a vertex cannot disagree with its id.
  Costs and distances are natural numbers; `MAX_DIST` stands for the largest
  64-bit value, which the code uses for a vertex that is not reached.

  * `Vertex`, `packNetwork`, `networkLsId`;
  * `SpfEdge`, `ParentRef`, `SptNode`, `SpfResult`, `QItem`;
  * `uniqueAdjacent`: `std::unique`.
-/
import VirtualRouter.Lib.ShortestPath

namespace VirtualRouter.Ospf

/-! ## Vertices -/

inductive Vertex where
  | router (rid : UInt32)
  | network (id : UInt64)
  deriving DecidableEq, Repr

/-- `VertexType` as a number. -/
def Vertex.type : Vertex → ℕ
  | .router _ => 1
  | .network _ => 2

def Vertex.id : Vertex → ℕ
  | .router rid => rid.toNat
  | .network id => id.toNat

theorem Vertex.type_lt : ∀ v : Vertex, v.type < 3
  | .router _ => show 1 < 3 by decide
  | .network _ => show 2 < 3 by decide

theorem Vertex.id_lt : ∀ v : Vertex, v.id < 2 ^ 64
  | .router rid => rid.toNat_lt.trans (by decide)
  | .network id => id.toNat_lt

def vertexLess (a b : Vertex) : Bool := if a.type ≠ b.type then a.type < b.type else a.id < b.id

theorem Vertex.ext_id {a b : Vertex} (htype : a.type = b.type) (hid : a.id = b.id) : a = b := by
  cases a with
  | router a =>
    cases b with
    | router b => rw [UInt32.toNat.inj hid]
    | network b => cases htype
  | network a =>
    cases b with
    | router b => cases htype
    | network b => rw [UInt64.toNat.inj hid]

instance : Finite Vertex := by
  let f (v : Vertex) : Fin 3 × Fin (2 ^ 64) := (⟨v.type, v.type_lt⟩, ⟨v.id, v.id_lt⟩)
  refine Finite.of_injective f fun a b hab => ?_
  obtain ⟨htype, hid⟩ := Prod.mk.inj hab
  exact Vertex.ext_id (congrArg Fin.val htype) (congrArg Fin.val hid)

def packNetwork (advRouter lsId : UInt32) : UInt64 := (advRouter.toUInt64 <<< 32) ||| lsId.toUInt64

def networkAdvRouter (packed : UInt64) : UInt32 := (packed >>> 32).toUInt32

def networkLsId (packed : UInt64) : UInt32 := (packed &&& 0xFFFFFFFF).toUInt32

/-- The order of the vertices is that of their types and then that of their ids. -/
def BacklinkKey.ordered (a b : Vertex) : Bool := a.type < b.type || (a.type = b.type && a.id ≤ b.id)

/-- `BacklinkKey`: a pair of vertices, the smaller one first. -/
def backlinkKey (a b : Vertex) : Vertex × Vertex := if BacklinkKey.ordered a b then (a, b) else (b, a)

/-! ## The computation -/

/-- `std::numeric_limits<uint64_t>::max()`. -/
def MAX_DIST : ℕ := 2 ^ 64 - 1

/-- `SpfEdge`; `dst` is the field `to`. -/
structure SpfEdge where
  dst : Vertex
  cost : ℕ
  ifid : UInt32
  deriving DecidableEq, Repr

structure ParentRef where
  parent : Vertex
  firstHopIfid : UInt32
  lastHopIfid : UInt32
  edgeCost : ℕ
  deriving DecidableEq, Repr

structure SptNode where
  dist : ℕ := MAX_DIST
  confirmed : Bool := false
  parents : List ParentRef := []
  deriving DecidableEq, Repr

/-- `SpfResult`; a vertex without a node has no entry. -/
structure SpfResult where
  root : Vertex
  nodes : Vertex → Option SptNode
  confirmedOrder : List Vertex

structure QItem where
  dist : ℕ
  v : Vertex
  deriving DecidableEq, Repr

/-- `QItem::operator>`. -/
def QItem.gt (a b : QItem) : Bool :=
  if a.dist ≠ b.dist then a.dist > b.dist
  else if a.v.type ≠ b.v.type then a.v.type > b.v.type
  else a.v.id > b.v.id

/-- The queue, as the list of its items in the order in which they are taken. -/
def pushItem (pq : List QItem) (item : QItem) : List QItem :=
  pq.orderedInsert (fun a b => a.gt b = false) item

def addCost (base cost : ℕ) : ℕ :=
  if base = MAX_DIST then base else if base > MAX_DIST - cost then MAX_DIST else base + cost

theorem addCost_eq {base cost : ℕ} (h : base + cost < MAX_DIST) : addCost base cost = base + cost := by
  rw [addCost, if_neg (by omega), if_neg (by omega)]

theorem addCost_max {base cost : ℕ} (hbase : base < MAX_DIST) (hcost : cost ≤ MAX_DIST)
    (h : MAX_DIST ≤ base + cost) : addCost base cost = MAX_DIST := by
  rw [addCost, if_neg (by omega)]
  split_ifs
  · rfl
  · omega

/-! ## The queue -/

theorem QItem.gt_eq_false_iff {a b : QItem} : a.gt b = false ↔
    a.dist < b.dist ∨ a.dist = b.dist ∧ (a.v.type < b.v.type ∨ a.v.type = b.v.type ∧ a.v.id ≤ b.v.id) := by
  rw [QItem.gt]
  split_ifs with hdist htype
  · simp only [gt_iff_lt, decide_eq_false_iff_not]
    omega
  · simp only [gt_iff_lt, decide_eq_false_iff_not]
    omega
  · simp only [gt_iff_lt, decide_eq_false_iff_not]
    omega

theorem QItem.dist_le {a b : QItem} (h : a.gt b = false) : a.dist ≤ b.dist := by
  rw [QItem.gt_eq_false_iff] at h
  omega

instance : Std.Total fun a b : QItem => a.gt b = false := ⟨fun a b => by
  simp only [QItem.gt_eq_false_iff]
  omega⟩

instance : IsTrans QItem fun a b => a.gt b = false := ⟨fun a b c => by
  simp only [QItem.gt_eq_false_iff]
  omega⟩

def Queued (pq : List QItem) : Prop := pq.Pairwise fun a b => a.gt b = false

theorem Queued.push {pq : List QItem} (h : Queued pq) (item : QItem) : Queued (pushItem pq item) :=
  List.Pairwise.orderedInsert item pq h

theorem mem_pushItem {pq : List QItem} {item x : QItem} : x ∈ pushItem pq item ↔ x = item ∨ x ∈ pq :=
  List.mem_orderedInsert _

/-! ## `std::unique` -/

/-- The list without the elements that equal the one before them. -/
def uniqueAdjacent {α : Type} [DecidableEq α] : List α → List α
  | [] => []
  | [a] => [a]
  | a :: b :: l => if a = b then uniqueAdjacent (b :: l) else a :: uniqueAdjacent (b :: l)

section
variable {α : Type} [DecidableEq α]

theorem mem_uniqueAdjacent {x : α} (l : List α) : x ∈ uniqueAdjacent l ↔ x ∈ l := by
  induction l using uniqueAdjacent.induct with
  | case1 => rfl
  | case2 a => rfl
  | case3 a l ih =>
    rw [uniqueAdjacent, if_pos rfl, ih]
    simp
  | case4 a b l hne ih =>
    rw [uniqueAdjacent, if_neg hne, List.mem_cons, ih]
    simp

theorem uniqueAdjacent_sublist (l : List α) : (uniqueAdjacent l).Sublist l := by
  induction l using uniqueAdjacent.induct with
  | case1 => exact .refl _
  | case2 a => exact .refl _
  | case3 a l ih =>
    rw [uniqueAdjacent, if_pos rfl]
    exact ih.cons _
  | case4 a b l hne ih =>
    rw [uniqueAdjacent, if_neg hne]
    exact ih.cons_cons _

theorem nodup_uniqueAdjacent {r : α → α → Prop} (hanti : ∀ a b, r a b → r b a → a = b) {l : List α}
    (h : l.Pairwise r) : (uniqueAdjacent l).Nodup := by
  induction l using uniqueAdjacent.induct with
  | case1 => exact .nil
  | case2 a => exact List.nodup_singleton a
  | case3 a l ih =>
    rw [uniqueAdjacent, if_pos rfl]
    exact ih h.of_cons
  | case4 a b l hne ih =>
    rw [uniqueAdjacent, if_neg hne, List.nodup_cons, mem_uniqueAdjacent]
    refine ⟨fun hmem => hne ?_, ih h.of_cons⟩
    rw [List.pairwise_cons, List.pairwise_cons] at h
    rcases List.mem_cons.1 hmem with heq | hmem
    · exact heq
    · exact hanti a b (h.1 b (.head _)) (h.2.1 a hmem)

end

end VirtualRouter.Ospf
