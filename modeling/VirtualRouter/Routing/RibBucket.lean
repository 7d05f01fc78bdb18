/-
  The routes of one prefix: `rib/RibEntry.hpp` and `rib/RibBucket.hpp`.

  A bucket keeps its routes in a vector and remembers the best one by a pointer
  into it.  The storage is modelled as far as pointers show it: `block` is the
  address of the vector's memory, a pointer to a route is the block with the
  slot of the route, and `pushBack` moves to a new block when the capacity is
  used up.  The copy of the best route that the forwarding table reads is kept
  with its own heap address.  Addresses of new memory are parameters of the
  operations.

  `topInfo` is left out (no function of the bucket, the RIB or the watcher reads
  it), and of the array `nextHops` the first `nextHopCount` elements are kept.
-/
import Mathlib

namespace VirtualRouter

inductive RouteSource where
  | DYNAMIC
  | CONNECTED
  | STATIC
  | EIGRP_INTERNAL
  | EIGRP_EXTERNAL
  | OSPF_INTRA
  | OSPF_INTER
  | OSPF_EXTERNAL
  | OSPF_NSSA
  | BGP
  | RIP
  | UNKNOWN
  deriving DecidableEq

structure NextHopPath (W : ℕ) where
  nextHop : Option (BitVec W)
  iface : ℕ
  weight : ℕ
  deriving DecidableEq

structure RibEntry (W : ℕ) where
  pfx : BitVec W
  length : ℕ
  source : RouteSource
  processId : ℕ
  adminDistance : ℕ
  metric : ℕ
  tag : ℕ := 0
  nextHops : List (NextHopPath W) := []
  deriving DecidableEq

/-- A protocol process: the source and the process id. -/
abbrev SrcPid := RouteSource × ℕ

namespace RibEntry
variable {W : ℕ}

def nextHopCount (e : RibEntry W) : ℕ := e.nextHops.length

def srcPid (e : RibEntry W) : SrcPid := (e.source, e.processId)

/-- `e` is preferred to `b`: lower distance, then lower metric. -/
def better (e b : RibEntry W) : Prop :=
  e.adminDistance < b.adminDistance ∨ (e.adminDistance = b.adminDistance ∧ e.metric < b.metric)

instance (e b : RibEntry W) : Decidable (e.better b) := by unfold better; infer_instance

theorem better_trans {a b c : RibEntry W} (h : a.better b) (h' : ¬ c.better b) : a.better c := by
  unfold better at *; omega

theorem better_irrefl (a : RibEntry W) : ¬ a.better a := by unfold better; omega

theorem better_asymm {a b : RibEntry W} (h : a.better b) : ¬ b.better a := by
  unfold better at *; omega

/-- The fields `addRoute` compares before it discards an announcement. -/
def sameCost (e r : RibEntry W) : Prop :=
  r.metric = e.metric ∧ r.nextHopCount = e.nextHopCount ∧ r.adminDistance = e.adminDistance

instance (e r : RibEntry W) : Decidable (e.sameCost r) := by unfold sameCost; infer_instance

end RibEntry

/-! ## The best route of a list -/

section
variable {W : ℕ} (p : RibEntry W → Bool)

/-- The body of the loop of `selectBest` and of the `getBestRoute` overloads, at
    the route `r` in slot `i`; `p` is the filter. -/
def consider (i : ℕ) (r : RibEntry W) (best : Option (ℕ × RibEntry W)) : Option (ℕ × RibEntry W) :=
  if p r ∧ best.all (fun x => r.better x.2) then some (i, r) else best

def bestFrom : List (RibEntry W) → ℕ → Option (ℕ × RibEntry W) → Option (ℕ × RibEntry W)
  | [], _, best => best
  | r :: rs, i, best => bestFrom rs (i + 1) (consider p i r best)

/-- The best route that passes `p`, with its slot. -/
def bestSlot (rs : List (RibEntry W)) : Option (ℕ × RibEntry W) := bestFrom p rs 0 none

/-- The slot holds a route that passes `p`, none that passes `p` is better, and
    it is better than all of them before it. -/
structure IsBest (rs : List (RibEntry W)) (i : ℕ) (r : RibEntry W) : Prop where
  slot : rs[i]? = some r
  pass : p r = true
  min : ∀ (j : ℕ) (r' : RibEntry W), rs[j]? = some r' → p r' = true → ¬ r'.better r
  first : ∀ (j : ℕ) (r' : RibEntry W), j < i → rs[j]? = some r' → p r' = true → r.better r'

variable {p} {rs : List (RibEntry W)} {r b : RibEntry W} {i : ℕ}

theorem getElem?_concat_cases {j : ℕ} {r' : RibEntry W} (h : (rs ++ [r])[j]? = some r') :
    rs[j]? = some r' ∨ r' = r := by
  rw [List.getElem?_append] at h
  split_ifs at h
  · exact Or.inl h
  · rw [List.getElem?_singleton] at h
    split_ifs at h
    exact Or.inr (Option.some.inj h).symm

theorem IsBest.concat (h : IsBest p rs i b) (hr : p r = true → ¬ r.better b) :
    IsBest p (rs ++ [r]) i b := by
  have hi : i < rs.length := (List.getElem?_eq_some_iff.1 h.slot).1
  refine ⟨by rw [List.getElem?_append_left hi]; exact h.slot, h.pass, fun j r' hj hp => ?_,
    fun j r' hj hr' hp => ?_⟩
  · rcases getElem?_concat_cases hj with hd | rfl
    · exact h.min j r' hd hp
    · exact hr hp
  · rw [List.getElem?_append_left (hj.trans hi)] at hr'
    exact h.first j r' hj hr' hp

theorem isBest_concat_last (hp : p r = true) (h : ∀ r' ∈ rs, p r' = true → r.better r') :
    IsBest p (rs ++ [r]) rs.length r := by
  refine ⟨by simp, hp, fun j r' hj hp' => ?_, fun j r' hj hr' hp' => ?_⟩
  · rcases getElem?_concat_cases hj with hd | rfl
    · exact RibEntry.better_asymm (h r' (List.mem_of_getElem? hd) hp')
    · exact r'.better_irrefl
  · rw [List.getElem?_append_left hj] at hr'
    exact h r' (List.mem_of_getElem? hr') hp'

/-- What the loop has found after the routes `rs`. -/
def Found (p : RibEntry W → Bool) (rs : List (RibEntry W)) : Option (ℕ × RibEntry W) → Prop
  | none => ∀ r ∈ rs, p r = false
  | some x => IsBest p rs x.1 x.2

theorem found_consider {best : Option (ℕ × RibEntry W)} (h : Found p rs best) :
    Found p (rs ++ [r]) (consider p rs.length r best) := by
  unfold consider
  cases best with
  | none =>
    by_cases hp : p r = true
    · rw [if_pos ⟨hp, rfl⟩]
      refine isBest_concat_last hp fun r' hr' hp' => ?_
      rw [h r' hr'] at hp'; cases hp'
    · rw [if_neg fun h' => hp h'.1]
      intro r' hr'
      rcases List.mem_append.1 hr' with hd | hr
      · exact h r' hd
      · rw [List.mem_singleton.1 hr]; simpa using hp
  | some x =>
    simp only [Option.all_some, decide_eq_true_eq]
    split_ifs with hb
    · refine isBest_concat_last hb.1 fun r' hr' hp' => ?_
      obtain ⟨j, hj⟩ := List.getElem?_of_mem hr'
      exact RibEntry.better_trans hb.2 (IsBest.min h j r' hj hp')
    · exact IsBest.concat h fun hp hb' => hb ⟨hp, hb'⟩

theorem found_bestFrom {todo : List (RibEntry W)} {best : Option (ℕ × RibEntry W)}
    (h : Found p rs best) : Found p (rs ++ todo) (bestFrom p todo rs.length best) := by
  induction todo generalizing rs best with
  | nil => simpa [bestFrom] using h
  | cons r todo ih =>
    have hlen : (rs ++ [r]).length = rs.length + 1 := by simp
    rw [bestFrom, ← hlen, List.append_cons]
    exact ih (found_consider h)

theorem found_bestSlot (p : RibEntry W → Bool) (rs : List (RibEntry W)) :
    Found p rs (bestSlot p rs) := by
  have h : Found p ([] : List (RibEntry W)) none := fun _ hr => absurd hr (by simp)
  exact @found_bestFrom W p [] rs none h

theorem isBest_of_bestSlot {x : ℕ × RibEntry W} (h : bestSlot p rs = some x) :
    IsBest p rs x.1 x.2 := by
  have := found_bestSlot p rs
  rwa [h] at this

theorem bestSlot_eq_none : bestSlot p rs = none ↔ ∀ r ∈ rs, p r = false := by
  have hf := found_bestSlot p rs
  constructor
  · intro h
    rw [h] at hf; exact hf
  · intro h
    cases hb : bestSlot p rs with
    | none => rfl
    | some x =>
      have hbest := isBest_of_bestSlot hb
      have hpass := hbest.pass
      rw [h _ (List.mem_of_getElem? hbest.slot)] at hpass
      cases hpass

end

/-! ## The bucket -/

abbrev RoutePtr := ℕ × ℕ

structure RibBucket (W : ℕ) where
  routes : List (RibEntry W) := []
  block : ℕ := 0
  capacity : ℕ := 0
  bestEntry : Option RoutePtr := none
  prevBest : Option RoutePtr := none
  /-- the heap copy of the best route, with its address -/
  fibEntry : Option (ℕ × RibEntry W) := none

namespace RibBucket
variable {W : ℕ} (b : RibBucket W)

/-- `selectBest`; the new heap copy gets the address `copy`. -/
def selectBest (copy : ℕ) : RibBucket W :=
  let best := bestSlot (fun _ => true) b.routes
  { b with
    prevBest := b.bestEntry
    bestEntry := best.map fun x => (b.block, x.1)
    fibEntry := best.map fun x => (copy, x.2) }

/-- `routes.push_back(*e)`: without spare capacity the vector moves to `block`. -/
def pushBack (e : RibEntry W) (block : ℕ) : RibBucket W :=
  if b.routes.length < b.capacity then { b with routes := b.routes ++ [e] }
  else { b with routes := b.routes ++ [e], block, capacity := max 1 (2 * b.capacity) }

/-- `addRoute`: the bucket after the call, and its result. -/
def addRoute (e : RibEntry W) (block copy : ℕ) : RibBucket W × Bool :=
  match b.routes.findIdx? fun r => r.source = e.source ∧ r.processId = e.processId with
  | some i =>
    if (b.routes[i]?).any fun r => e.sameCost r then (b, false)
    else ({ b with routes := b.routes.set i e }.selectBest copy, true)
  | none => ((b.pushBack e block).selectBest copy, true)

def removeRoute (src : RouteSource) (pid : ℕ) (copy : ℕ) : RibBucket W :=
  { b with routes := b.routes.filter fun r => ¬ (r.source = src ∧ r.processId = pid) }.selectBest copy

def empty : Bool := b.fibEntry.isNone

end RibBucket

end VirtualRouter
