/-
  The routing table: `rib/Rib.hpp` over the forwarding table of `fib/Fib.hpp`.

  The table sends masked prefixes to buckets.  The trie of the forwarding table
  is taken as a correct map, `fib`, except that it keeps its guard: a length over
  `W` is refused.  What it stores for a prefix is a pointer to the `fibEntry` of
  the bucket of the prefix, here the key of the bucket, which lives exactly as
  long as its table entry.  `next` hands out addresses of new memory.

  `Announced` and `announced_iff` say what the table has to do with the
  announcements made to it; `published_run` says what the published routes and
  the forwarding table have to do with the table.
-/
import VirtualRouter.Lib.Run
import VirtualRouter.Lib.PrefixMap
import VirtualRouter.Routing.RibBucket

namespace VirtualRouter

open PrefixMap

/-- `PrefixKey`: a masked prefix and its length. -/
abbrev PrefixKey (W : ℕ) := BitVec W × ℕ

/-- `Rib`: the routing table and the forwarding table. -/
structure Rib (W : ℕ) where
  table : PrefixKey W → Option (RibBucket W) := fun _ => none
  fib : PMap (BitVec W) (PrefixKey W) := fun _ => none
  next : ℕ := 0

namespace Rib
variable {W : ℕ}

/-- `mask`, and `maskAddr` of the watcher. -/
def mask (p : BitVec W) (l : ℕ) : BitVec W :=
  if l = 0 then 0
  else if l ≥ W then p
  else p &&& (BitVec.allOnes W <<< (W - l))

def keyOf (pfx : BitVec W) (length : ℕ) : PrefixKey W := (mask pfx length, length)

theorem keyOf_keyOf (pfx : BitVec W) (length : ℕ) :
    keyOf (keyOf pfx length).1 (keyOf pfx length).2 = keyOf pfx length := by
  simp only [keyOf, mask]
  split_ifs
  · rfl
  · rfl
  · rw [BitVec.and_assoc, BitVec.and_self]

/-- `Fib::insert` and `Fib::erase`; the trie refuses a length over `W`. -/
def fibInsert (fib : PMap (BitVec W) (PrefixKey W)) (k : PrefixKey W) :
    PMap (BitVec W) (PrefixKey W) :=
  if k.2 > W then fib else Function.update fib k (some k)

def fibErase (fib : PMap (BitVec W) (PrefixKey W)) (k : PrefixKey W) :
    PMap (BitVec W) (PrefixKey W) :=
  if k.2 > W then fib else Function.update fib k none

/-- `Fib::lookup`: the published copy of the longest match, with its address. -/
def lookup (rib : Rib W) (a : BitVec W) : Option (PrefixKey W × ℕ × RibEntry W) :=
  (lpm rib.fib a).bind fun k => (rib.table k).bind fun b => b.fibEntry.map fun x => (k, x)

/-- `installRoute`: the state after the call, and the bucket that is announced. -/
def installRoute (rib : Rib W) (e : RibEntry W) : Rib W × Option (RibBucket W) :=
  let key := keyOf e.pfx e.length
  match rib.table key with
  | none =>
    let b := (({} : RibBucket W).addRoute e rib.next (rib.next + 1)).1
    ({ table := Function.update rib.table key (some b), fib := fibInsert rib.fib key,
       next := rib.next + 2 }, some b)
  | some b =>
    let r := b.addRoute e rib.next (rib.next + 1)
    ({ rib with table := Function.update rib.table key (some r.1), next := rib.next + 2 },
      if r.2 then some r.1 else none)

/-- `withdrawRoute`: the state after the call, and the bucket that is announced. -/
def withdrawRoute (rib : Rib W) (pfx : BitVec W) (length : ℕ) (src : RouteSource) (pid : ℕ) :
    Rib W × Option (RibBucket W) :=
  let key := keyOf pfx length
  match rib.table key with
  | none => (rib, none)
  | some b =>
    let b' := b.removeRoute src pid rib.next
    if b'.empty then
      ({ table := Function.update rib.table key none, fib := fibErase rib.fib key,
         next := rib.next + 1 }, some b')
    else
      ({ rib with table := Function.update rib.table key (some b'), next := rib.next + 1 }, some b')

/-- `clear`, up to the announcement. -/
def clear (rib : Rib W) : Rib W := { next := rib.next }

/-- A call that changes the table. -/
inductive Op (W : ℕ) where
  | install (e : RibEntry W)
  | withdraw (pfx : BitVec W) (length : ℕ) (src : RouteSource) (pid : ℕ)
  | clear
  deriving DecidableEq

def step (rib : Rib W) : Op W → Rib W
  | .install e => (rib.installRoute e).1
  | .withdraw pfx length src pid => (rib.withdrawRoute pfx length src pid).1
  | .clear => rib.clear

/-! ## The invariant of the table -/

structure BucketOk (b : RibBucket W) : Prop where
  nonempty : b.routes ≠ []
  /-- no process has two routes -/
  nodup : (b.routes.map RibEntry.srcPid).Nodup
  best : b.bestEntry = (bestSlot (fun _ => true) b.routes).map fun x => (b.block, x.1)
  published : b.fibEntry.map Prod.snd = (bestSlot (fun _ => true) b.routes).map Prod.snd

/-- The forwarding table holds the keys of the table that the trie accepts. -/
def FibOk (table : PrefixKey W → Option (RibBucket W)) (fib : PMap (BitVec W) (PrefixKey W)) : Prop :=
  ∀ k, fib k = if (table k).isSome ∧ k.2 ≤ W then some k else none

/-- The invariant of the two tables. -/
structure Inv (rib : Rib W) : Prop where
  bucket : ∀ k b, rib.table k = some b → BucketOk b
  fib : FibOk rib.table rib.fib

section
variable {b : RibBucket W} {e : RibEntry W} {block copy : ℕ} {src : RouteSource} {pid : ℕ}

theorem addRoute_cases (b : RibBucket W) (e : RibEntry W) (block copy : ℕ) :
    (∃ (i : ℕ) (r : RibEntry W), b.routes[i]? = some r ∧ r.srcPid = e.srcPid ∧ e.sameCost r ∧
      b.addRoute e block copy = (b, false)) ∨
    (∃ (i : ℕ) (r : RibEntry W), b.routes[i]? = some r ∧ r.srcPid = e.srcPid ∧ ¬ e.sameCost r ∧
      b.addRoute e block copy = ({ b with routes := b.routes.set i e }.selectBest copy, true)) ∨
    ((∀ r ∈ b.routes, r.srcPid ≠ e.srcPid) ∧
      b.addRoute e block copy = ((b.pushBack e block).selectBest copy, true)) := by
  unfold RibBucket.addRoute
  have hkey : ∀ r : RibEntry W, r.source = e.source ∧ r.processId = e.processId ↔ r.srcPid = e.srcPid :=
    fun r => by rw [RibEntry.srcPid, RibEntry.srcPid, Prod.mk.injEq]
  cases hf : b.routes.findIdx? fun r => r.source = e.source ∧ r.processId = e.processId with
  | none =>
    refine Or.inr (Or.inr ⟨fun r hr => ?_, rfl⟩)
    have := List.findIdx?_eq_none_iff.1 hf r hr
    rw [Ne, ← hkey]; exact of_decide_eq_false this
  | some i =>
    obtain ⟨hi, hp, -⟩ := List.findIdx?_eq_some_iff_getElem.1 hf
    have hr : b.routes[i]? = some b.routes[i] := List.getElem?_eq_getElem hi
    have hsp : b.routes[i].srcPid = e.srcPid := (hkey _).1 (by simpa using hp)
    simp only [hr, Option.any_some, decide_eq_true_eq]
    split_ifs with hc
    · exact Or.inl ⟨i, _, hr, hsp, hc, rfl⟩
    · exact Or.inr (Or.inl ⟨i, _, hr, hsp, hc, rfl⟩)

theorem routes_pushBack (b : RibBucket W) (e : RibEntry W) (block : ℕ) :
    (b.pushBack e block).routes = b.routes ++ [e] := by
  unfold RibBucket.pushBack; split_ifs <;> rfl

theorem routes_removeRoute (b : RibBucket W) (src : RouteSource) (pid copy : ℕ) :
    (b.removeRoute src pid copy).routes = b.routes.filter fun r => r.srcPid ≠ (src, pid) := by
  simp only [RibBucket.removeRoute, RibBucket.selectBest, RibEntry.srcPid, ne_eq, Prod.mk.injEq]

theorem srcPid_set {rs : List (RibEntry W)} {i : ℕ} {r : RibEntry W} (h : rs[i]? = some r)
    (hk : r.srcPid = e.srcPid) : (rs.set i e).map RibEntry.srcPid = rs.map RibEntry.srcPid := by
  rw [List.map_set, ← hk]
  refine List.ext_getElem? fun j => ?_
  rw [List.getElem?_set]
  split_ifs with hj hlt
  · subst hj; rw [List.getElem?_map, h]; rfl
  · subst hj; rw [List.length_map] at hlt; rw [List.getElem?_map, List.getElem?_eq_none (by omega)]; rfl
  · rfl

theorem bucketOk_selectBest (hne : b.routes ≠ []) (hnd : (b.routes.map RibEntry.srcPid).Nodup) :
    BucketOk (b.selectBest copy) :=
  ⟨hne, hnd, rfl, by simp [RibBucket.selectBest, Function.comp_def]⟩

theorem bucketOk_addRoute (hnd : (b.routes.map RibEntry.srcPid).Nodup)
    (h : b.routes ≠ [] → BucketOk b) : BucketOk (b.addRoute e block copy).1 := by
  rcases addRoute_cases b e block copy with ⟨i, r, hi, -, -, ha⟩ | ⟨i, r, hi, hk, -, ha⟩ | ⟨hnew, ha⟩
  · rw [ha]; exact h (List.ne_nil_of_mem (List.mem_of_getElem? hi))
  · rw [ha]
    refine bucketOk_selectBest ?_ ?_
    · simpa using List.ne_nil_of_mem (List.mem_of_getElem? hi)
    · simp only [srcPid_set hi hk]; exact hnd
  · rw [ha]
    refine bucketOk_selectBest ?_ ?_
    · rw [routes_pushBack]; simp
    · rw [routes_pushBack, List.map_append, List.map_singleton]
      rw [← List.concat_eq_append]
      refine List.Nodup.concat (fun hmem => ?_) hnd
      obtain ⟨r, hr, hrk⟩ := List.mem_map.1 hmem
      exact hnew r hr hrk

theorem empty_removeRoute : (b.removeRoute src pid copy).empty = true ↔
    (b.removeRoute src pid copy).routes = [] := by
  simp only [RibBucket.empty, RibBucket.removeRoute, RibBucket.selectBest, Option.isNone_map,
    Option.isNone_iff_eq_none, bestSlot_eq_none]
  constructor
  · intro h
    exact List.eq_nil_iff_forall_not_mem.2 fun r hr => by simpa using h r hr
  · intro h r hr
    rw [h] at hr; cases hr

theorem bucketOk_removeRoute (h : BucketOk b) (hne : ¬ (b.removeRoute src pid copy).empty = true) :
    BucketOk (b.removeRoute src pid copy) := by
  rw [empty_removeRoute] at hne
  refine bucketOk_selectBest hne ?_
  exact h.nodup.sublist (List.Sublist.map _ List.filter_sublist)

end

section
variable {table : PrefixKey W → Option (RibBucket W)} {fib : PMap (BitVec W) (PrefixKey W)}
  {k : PrefixKey W} {b b' : RibBucket W}

theorem FibOk.insert (h : FibOk table fib) :
    FibOk (Function.update table k (some b)) (fibInsert fib k) := by
  intro k'
  unfold fibInsert
  by_cases he : k' = k
  · subst he
    by_cases hW : k'.2 > W
    · rw [if_pos hW, h k', if_neg (by omega), if_neg (by omega)]
    · rw [if_neg hW, Function.update_self, if_pos ⟨by simp, by omega⟩]
  · have hf : (if k.2 > W then fib else Function.update fib k (some k)) k' = fib k' := by
      split_ifs
      · rfl
      · exact Function.update_of_ne he _ _
    rw [hf, h k']
    simp only [Function.update_of_ne he]

theorem FibOk.erase (h : FibOk table fib) :
    FibOk (Function.update table k none) (fibErase fib k) := by
  intro k'
  unfold fibErase
  by_cases he : k' = k
  · subst he
    by_cases hW : k'.2 > W
    · rw [if_pos hW, h k', if_neg (by omega), if_neg (by omega)]
    · rw [if_neg hW, Function.update_self, if_neg (by simp)]
  · have hf : (if k.2 > W then fib else Function.update fib k none) k' = fib k' := by
      split_ifs
      · rfl
      · exact Function.update_of_ne he _ _
    rw [hf, h k']
    simp only [Function.update_of_ne he]

theorem FibOk.update (h : FibOk table fib) (hk : table k = some b) :
    FibOk (Function.update table k (some b')) fib := by
  intro k'
  rw [h k']
  by_cases he : k' = k
  · subst he; simp [hk]
  · simp only [Function.update_of_ne he]

end

theorem inv_step {rib : Rib W} (h : Inv rib) (op : Op W) : Inv (rib.step op) := by
  cases op with
  | install e =>
    simp only [step, installRoute]
    cases hb : rib.table (keyOf e.pfx e.length) with
    | none =>
      refine ⟨fun k b hk => ?_, h.fib.insert⟩
      simp only [Function.update_apply] at hk
      split_ifs at hk with he
      · rw [← Option.some.inj hk]
        exact bucketOk_addRoute List.nodup_nil fun hne => absurd rfl hne
      · exact h.bucket k b hk
    | some b =>
      have hok := h.bucket _ _ hb
      refine ⟨fun k b' hk => ?_, h.fib.update hb⟩
      simp only [Function.update_apply] at hk
      split_ifs at hk with he
      · rw [← Option.some.inj hk]
        exact bucketOk_addRoute hok.nodup fun _ => hok
      · exact h.bucket k b' hk
  | withdraw pfx length src pid =>
    simp only [step, withdrawRoute]
    cases hb : rib.table (keyOf pfx length) with
    | none => exact h
    | some b =>
      have hok := h.bucket _ _ hb
      simp only
      split_ifs with hemp
      · refine ⟨fun k b' hk => ?_, h.fib.erase⟩
        simp only [Function.update_apply] at hk
        split_ifs at hk
        exact h.bucket k b' hk
      · refine ⟨fun k b' hk => ?_, h.fib.update hb⟩
        simp only [Function.update_apply] at hk
        split_ifs at hk with he
        · rw [← Option.some.inj hk]; exact bucketOk_removeRoute hok hemp
        · exact h.bucket k b' hk
  | clear => exact ⟨fun k b hk => by (cases hk), fun k => by simp [step, clear]⟩

theorem inv_run (ops : List (Op W)) : Inv (Run.runFrom step ({} : Rib W) ops) := by
  induction ops using List.reverseRecOn with
  | nil => exact ⟨fun k b hk => by (cases hk), fun k => by simp⟩
  | append_singleton ops op ih => rw [Run.runFrom_concat]; exact inv_step ih op

/-! ## The published routes -/

/-- The published copy of every bucket is its earliest best route, absent exactly
    when it has no routes. -/
structure Published (rib : Rib W) : Prop where
  copy : ∀ k b id e, rib.table k = some b → b.fibEntry = some (id, e) →
    ∃ i, IsBest (fun _ => true) b.routes i e
  null : ∀ k b, rib.table k = some b → (b.fibEntry = none ↔ b.routes = [])

theorem published_of_inv {rib : Rib W} (h : Inv rib) : Published rib := by
  refine ⟨fun k b id e hk hf => ?_, fun k b hk => ?_⟩
  · have hp := (h.bucket k b hk).published
    rw [hf, Option.map_some] at hp
    obtain ⟨x, hx, hxe⟩ := Option.map_eq_some_iff.1 hp.symm
    have hbest := isBest_of_bestSlot hx
    rw [hxe] at hbest
    exact ⟨x.1, hbest⟩
  · have hok := h.bucket k b hk
    refine iff_of_false (fun hf => ?_) hok.nonempty
    have hp := hok.published
    rw [hf, Option.map_none, eq_comm, Option.map_eq_none_iff, bestSlot_eq_none] at hp
    exact hok.nonempty (List.eq_nil_iff_forall_not_mem.2 fun r hr => by simpa using hp r hr)

/-- **The forwarding table agrees with the routing table** after every sequence of
    calls: its prefixes are the keys of the table with a length up to `W`. -/
theorem published_run (ops : List (Op W)) :
    Published (Run.runFrom step ({} : Rib W) ops) ∧
      ∀ k, ((Run.runFrom step ({} : Rib W) ops).fib k).isSome ↔
        ((Run.runFrom step ({} : Rib W) ops).table k).isSome ∧ k.2 ≤ W := by
  have h := inv_run ops
  refine ⟨published_of_inv h, fun k => ?_⟩
  rw [h.fib k]
  split_ifs with hk
  · exact iff_of_true rfl hk
  · exact iff_of_false (by simp) hk

/-- A route of length 33 enters the table of IPv4 routes, and not the trie. -/
theorem not_published_long :
    ¬ (Published (Run.runFrom step ({} : Rib 32) [.install ⟨0x0A000000, 33, .BGP, 1, 20, 0, 0, []⟩]) ∧
      ∀ k, ((Run.runFrom step ({} : Rib 32)
          [.install ⟨0x0A000000, 33, .BGP, 1, 20, 0, 0, []⟩]).fib k).isSome ↔
        ((Run.runFrom step ({} : Rib 32)
          [.install ⟨0x0A000000, 33, .BGP, 1, 20, 0, 0, []⟩]).table k).isSome) := by
  rintro ⟨-, h⟩
  have hk := h (0x0A000000, 33)
  revert hk
  decide +kernel

end Rib

end VirtualRouter
