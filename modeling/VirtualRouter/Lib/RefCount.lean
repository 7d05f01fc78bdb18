/-
  Reference counts of 32 bits.

  Named handles point to objects or to nothing, and each object has a counter.

  * `holders`: how many handles point to an object;
  * `inc`, `dec`: the counter of the object a pointer points to;
  * `Counted`: every counter is the number of handles, modulo 2^32;
  * `Counted.insert`, `Counted.erase`, `Counted.assign`: a handle is made, destroyed or made to
    point elsewhere;
  * `Counted.move`, `Counted.moveAssign`: the same, from a handle that is left without an object.
-/
import VirtualRouter.Lib.NestedMap

namespace RefCount

open NestedMap

variable {ι α : Type*} [DecidableEq α]

def holders (m : Map ι (Option α)) (a : α) : ℕ := m.entries.countP fun e => e.2 = some a

def inc (p : Option α) (cnt : α → UInt32) : α → UInt32 := fun a => if p = some a then cnt a + 1 else cnt a

def dec (p : Option α) (cnt : α → UInt32) : α → UInt32 := fun a => if p = some a then cnt a - 1 else cnt a

def points (p : Option α) (a : α) : ℕ := if p = some a then 1 else 0

@[simp] theorem points_none (a : α) : points none a = 0 := rfl

/-! ## Holders -/

theorem holders_le_size (m : Map ι (Option α)) (a : α) : holders m a ≤ m.entries.length :=
  List.countP_le_length

section
variable [DecidableEq ι] {m : Map ι (Option α)} {i : ι} {p q : Option α}

theorem holders_erase (h : m.lookup i = some p) (a : α) :
    holders (m.erase i) a + points p a = holders m a := by
  have hmem : i ∈ m.entries.keys := AList.lookup_isSome.mp (by rw [h]; rfl)
  obtain ⟨b, l₁, l₂, -, hentries, herase⟩ := List.exists_of_kerase hmem
  obtain rfl : b = p := by
    have hb : (⟨i, b⟩ : Sigma fun _ : ι => Option α) ∈ m.entries := by rw [hentries]; simp
    have := AList.mem_lookup_iff.mpr hb
    rw [h] at this
    exact (Option.some.inj this).symm
  show (List.kerase i m.entries).countP _ + _ = m.entries.countP _
  rw [herase, hentries, List.countP_append, List.countP_append, List.countP_cons, points]
  simp only [decide_eq_true_eq]
  omega

theorem holders_insert_erase (a : α) : holders (m.insert i q) a = points q a + holders (m.erase i) a := by
  show (List.kinsert i q m.entries).countP _ = _ + (List.kerase i m.entries).countP _
  rw [List.kinsert, List.countP_cons, points, Nat.add_comm]
  simp only [decide_eq_true_eq]

theorem holders_insert (h : m.lookup i = none) (a : α) :
    holders (m.insert i p) a = holders m a + points p a := by
  have herase : m.erase i = m := AList.ext (List.kerase_of_notMem_keys (AList.lookup_eq_none.mp h))
  rw [holders_insert_erase, herase, Nat.add_comm]

theorem holders_assign (h : m.lookup i = some p) (a : α) :
    holders (m.insert i q) a + points p a = holders m a + points q a := by
  rw [holders_insert_erase, ← holders_erase h]
  omega

end

/-! ## The number of handles -/

section
variable [DecidableEq ι] {m : Map ι (Option α)} {i : ι} {p q : Option α}

omit [DecidableEq α]

theorem length_erase_le (i : ι) : (m.erase i).entries.length ≤ m.entries.length :=
  (List.kerase_sublist i m.entries).length_le

theorem length_insert_le : (m.insert i p).entries.length ≤ m.entries.length + 1 :=
  Nat.succ_le_succ (length_erase_le i)

theorem length_assign_le (h : m.lookup i = some p) : (m.insert i q).entries.length ≤ m.entries.length := by
  have hmem : i ∈ m.entries.keys := AList.lookup_isSome.mp (by rw [h]; rfl)
  obtain ⟨b, l₁, l₂, -, hentries, herase⟩ := List.exists_of_kerase hmem
  show (List.kerase i m.entries).length + 1 ≤ m.entries.length
  rw [herase, hentries, List.length_append, List.length_append, List.length_cons]
  omega

end

/-! ## Counters -/

def Counted (m : Map ι (Option α)) (cnt : α → UInt32) : Prop := ∀ a, cnt a = UInt32.ofNat (holders m a)

theorem ofNat_points (p : Option α) (a : α) : UInt32.ofNat (points p a) = if p = some a then 1 else 0 := by
  rw [points]
  split_ifs <;> rfl

theorem inc_eq (p : Option α) (cnt : α → UInt32) (a : α) : inc p cnt a = cnt a + UInt32.ofNat (points p a) := by
  rw [inc, ofNat_points]
  split_ifs <;> simp

theorem dec_eq (p : Option α) (cnt : α → UInt32) (a : α) : dec p cnt a = cnt a - UInt32.ofNat (points p a) := by
  rw [dec, ofNat_points]
  split_ifs <;> simp

theorem counted_empty : Counted (∅ : Map ι (Option α)) fun _ => 0 := fun _ => rfl

section
variable {m : Map ι (Option α)} {cnt : α → UInt32} {i j : ι} {p q : Option α}

theorem Counted.toNat_eq (h : Counted m cnt) (hfew : m.entries.length < 2 ^ 32) (a : α) :
    (cnt a).toNat = holders m a := by
  rw [h a, UInt32.toNat_ofNat']
  exact Nat.mod_eq_of_lt (lt_of_le_of_lt (holders_le_size m a) hfew)

variable [DecidableEq ι]

theorem Counted.insert (h : Counted m cnt) (hi : m.lookup i = none) :
    Counted (m.insert i p) (inc p cnt) := by
  intro a
  rw [inc_eq, h a, holders_insert hi, UInt32.ofNat_add]

theorem Counted.erase (h : Counted m cnt) (hi : m.lookup i = some p) :
    Counted (m.erase i) (dec p cnt) := by
  intro a
  rw [dec_eq, h a, ← holders_erase hi, UInt32.ofNat_add]
  exact UInt32.add_sub_cancel _ _

theorem Counted.assign (h : Counted m cnt) (hi : m.lookup i = some p) :
    Counted (m.insert i q) (inc q (dec p cnt)) := by
  intro a
  have hcount := congrArg UInt32.ofNat (holders_assign (q := q) hi a)
  rw [UInt32.ofNat_add, UInt32.ofNat_add] at hcount
  rw [inc_eq, dec_eq, h a]
  grind

/-- The object goes from `j` to the new handle `i`. -/
theorem Counted.move (h : Counted m cnt) (hi : m.lookup i = none) (hj : m.lookup j = some p) :
    Counted ((m.insert i p).insert j none) cnt := by
  intro a
  have hne : j ≠ i := by
    rintro rfl
    rw [hi] at hj
    cases hj
  have hj' : (m.insert i p).lookup j = some p := by rw [AList.lookup_insert_ne hne, hj]
  have hcount := holders_assign (q := none) hj' a
  rw [holders_insert hi, points_none] at hcount
  rw [h a]
  congr 1
  omega

theorem Counted.moveAssign (h : Counted m cnt) (hne : j ≠ i) (hi : m.lookup i = some p)
    (hj : m.lookup j = some q) : Counted ((m.insert i q).insert j none) (dec p cnt) := by
  intro a
  have hj' : (m.insert i q).lookup j = some q := by rw [AList.lookup_insert_ne hne, hj]
  have hcount := holders_assign (q := none) hj' a
  have hcount' := holders_assign (q := q) hi a
  rw [points_none] at hcount
  have hsum : holders ((m.insert i q).insert j none) a + points p a = holders m a := by omega
  rw [dec_eq, h a, ← hsum, UInt32.ofNat_add]
  exact UInt32.add_sub_cancel _ _

end

end RefCount
