/-
  Ids of 32 bits that are recycled.

  A pool holds the number of ids that were ever taken and a stack of those that
  were put back.  `Tracks p used`: the ids in use are those taken and not put
  back, and an id that is not in use stands on the stack exactly once.  Taking
  an id keeps this as long as one of the `2 ^ 32` ids is not in use, putting
  one back always does.
-/
import Mathlib

/-- The free ids, the one put back last first, and the number of ids ever taken. -/
structure IdPool where
  free : List UInt32 := []
  count : ℕ := 0
  deriving DecidableEq, Repr

namespace IdPool

variable {p : IdPool} {used : UInt32 → Prop}

/-- A free id, or else the next new one, cut to 32 bits. -/
def take (p : IdPool) : UInt32 × IdPool :=
  match p.free with
  | id :: rest => (id, { p with free := rest })
  | [] => (UInt32.ofNat p.count, { p with count := p.count + 1 })

def put (p : IdPool) (id : UInt32) : IdPool := { p with free := id :: p.free }

/-- The ids in use are those taken and not put back. -/
structure Tracks (p : IdPool) (used : UInt32 → Prop) : Prop where
  mem_free : ∀ id, id ∈ p.free ↔ id.toNat < p.count ∧ ¬ used id
  nodup : p.free.Nodup
  lt_count : ∀ id, used id → id.toNat < p.count

theorem tracks_empty : Tracks {} fun _ => False where
  mem_free id := by simp
  nodup := List.nodup_nil
  lt_count id h := h.elim

theorem Tracks.count_lt (h : Tracks p used) (hfree : p.free = []) (hroom : ∃ id, ¬ used id) :
    p.count < 2 ^ 32 := by
  obtain ⟨id, hid⟩ := hroom
  have hcount : ¬ id.toNat < p.count := by
    intro hlt
    have hmem := (h.mem_free id).2 ⟨hlt, hid⟩
    rw [hfree] at hmem
    exact absurd hmem List.not_mem_nil
  have hsize := id.toNat_lt
  omega

theorem toNat_take_nil (h : Tracks p used) (hfree : p.free = []) (hroom : ∃ id, ¬ used id) :
    p.take.1.toNat = p.count := by
  have hlt := h.count_lt hfree hroom
  simp only [take, hfree]
  rw [UInt32.toNat_ofNat']
  exact Nat.mod_eq_of_lt hlt

theorem Tracks.take_not_used (h : Tracks p used) (hroom : ∃ id, ¬ used id) : ¬ used p.take.1 := by
  rcases hfree : p.free with _ | ⟨id, rest⟩
  · intro hused
    have hlt := h.lt_count _ hused
    rw [toNat_take_nil h hfree hroom] at hlt
    exact lt_irrefl _ hlt
  · have hmem := (h.mem_free id).1 (by rw [hfree]; exact List.mem_cons_self)
    simp only [take, hfree]
    exact hmem.2

/-- **Taking an id** adds it to those in use. -/
theorem Tracks.take (h : Tracks p used) (hroom : ∃ id, ¬ used id) :
    Tracks p.take.2 fun id => used id ∨ id = p.take.1 := by
  rcases hfree : p.free with _ | ⟨i, rest⟩
  · have htake := toNat_take_nil h hfree hroom
    have hpool : p.take.2 = { free := [], count := p.count + 1 } := by
      simp only [IdPool.take, hfree]
    rw [hpool]
    refine ⟨?_, List.nodup_nil, ?_⟩
    · intro id
      refine ⟨fun hmem => absurd hmem List.not_mem_nil, ?_⟩
      rintro ⟨hlt, hno⟩
      change id.toNat < p.count + 1 at hlt
      rw [not_or] at hno
      have hne : id.toNat ≠ p.count := fun he => hno.2 (UInt32.toNat_inj.1 (he.trans htake.symm))
      have hmem := (h.mem_free id).2 ⟨by omega, hno.1⟩
      rwa [hfree] at hmem
    · rintro id (hid | rfl)
      · exact Nat.lt_succ_of_lt (h.lt_count id hid)
      · rw [htake]
        exact Nat.lt_succ_self _
  · have hpool : p.take = (i, { p with free := rest }) := by simp only [IdPool.take, hfree]
    have hnodup := h.nodup
    rw [hfree] at hnodup
    rw [hpool]
    refine ⟨?_, hnodup.of_cons, ?_⟩
    · intro id
      have hmem := h.mem_free id
      rw [hfree, List.mem_cons] at hmem
      constructor
      · intro hid
        obtain ⟨hlt, hno⟩ := hmem.1 (Or.inr hid)
        refine ⟨hlt, ?_⟩
        rintro (hu | rfl)
        · exact hno hu
        · exact (List.nodup_cons.1 hnodup).1 hid
      · rintro ⟨hlt, hno⟩
        rw [not_or] at hno
        rcases hmem.2 ⟨hlt, hno.1⟩ with he | hid
        · exact absurd he hno.2
        · exact hid
    · rintro id (hid | rfl)
      · exact h.lt_count id hid
      · exact ((h.mem_free id).1 (by rw [hfree]; exact List.mem_cons_self)).1

/-- **Putting an id back** takes it from those in use. -/
theorem Tracks.put (h : Tracks p used) {i : UInt32} (hi : used i) :
    Tracks (p.put i) fun id => used id ∧ id ≠ i where
  mem_free id := by
    simp only [IdPool.put, List.mem_cons]
    rw [h.mem_free id]
    by_cases hid : id = i
    · subst hid
      simp [h.lt_count id hi]
    · simp [hid]
  nodup := List.nodup_cons.2 ⟨fun hmem => ((h.mem_free i).1 hmem).2 hi, h.nodup⟩
  lt_count id hid := h.lt_count id hid.1

theorem Tracks.congr {used' : UInt32 → Prop} (h : Tracks p used) (he : ∀ id, used' id ↔ used id) :
    Tracks p used' where
  mem_free id := by rw [h.mem_free id, he id]
  nodup := h.nodup
  lt_count id hid := h.lt_count id ((he id).1 hid)

theorem Tracks.count_free (h : Tracks p used) (hnone : ∀ id, ¬ used id) (id : UInt32) :
    p.free.count id = if id.toNat < p.count then 1 else 0 := by
  split_ifs with hlt
  · exact List.count_eq_one_of_mem h.nodup ((h.mem_free id).2 ⟨hlt, hnone id⟩)
  · exact List.count_eq_zero_of_not_mem fun hmem => hlt ((h.mem_free id).1 hmem).1

end IdPool
