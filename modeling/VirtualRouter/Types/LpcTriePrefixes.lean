/-
  The prefixes of one trie node: what `findPrefix`, `insertPrefix` and
  `removePrefix` do to the set of entries, whatever their order.
-/
import VirtualRouter.Types.LpcTrie

namespace VirtualRouter

open PrefixMap

namespace LpcTrie

section
variable {W : ℕ} {α : Type}

def PrefixEntry.key (p : PrefixEntry W α) : BitVec W × ℕ := (p.addr, p.len)

/-- The pointer `findPrefix` finds. -/
def findPtr (ps : List (PrefixEntry W α)) (k : BitVec W × ℕ) : Option α :=
  (findPrefix ps k.1 k.2).map (·.ptr)

def KeysNodup (ps : List (PrefixEntry W α)) : Prop := (ps.map PrefixEntry.key).Nodup

theorem key_eq_iff {p : PrefixEntry W α} {k : BitVec W × ℕ} :
    p.key = k ↔ p.len = k.2 ∧ p.addr = k.1 := by
  rw [PrefixEntry.key, Prod.ext_iff]; exact and_comm

theorem mem_of_findPrefix {ps : List (PrefixEntry W α)} {k : BitVec W × ℕ} {p : PrefixEntry W α}
    (h : findPrefix ps k.1 k.2 = some p) : p ∈ ps ∧ p.key = k :=
  ⟨List.mem_of_find?_eq_some h, key_eq_iff.2 (by simpa using List.find?_some h)⟩

theorem findPrefix_of_mem {ps : List (PrefixEntry W α)} (hnd : KeysNodup ps) {p : PrefixEntry W α}
    (hp : p ∈ ps) : findPrefix ps p.addr p.len = some p := by
  induction ps with
  | nil => simp at hp
  | cons q ps ih =>
    simp only [KeysNodup, List.map_cons, List.nodup_cons, List.mem_map, not_exists, not_and] at hnd
    rcases List.mem_cons.1 hp with rfl | hp
    · simp [findPrefix]
    · have hne : ¬ (q.len = p.len ∧ q.addr = p.addr) := fun h =>
        hnd.1 p hp (key_eq_iff.2 ⟨h.1.symm, h.2.symm⟩)
      simp only [findPrefix, List.find?_cons, decide_eq_false hne] at ih ⊢
      exact ih hnd.2 hp

theorem findPtr_eq_some {ps : List (PrefixEntry W α)} (hnd : KeysNodup ps) {k : BitVec W × ℕ}
    {v : α} : findPtr ps k = some v ↔ ∃ p ∈ ps, p.key = k ∧ p.ptr = v := by
  simp only [findPtr, Option.map_eq_some_iff]
  constructor
  · rintro ⟨p, hp, rfl⟩
    exact ⟨p, (mem_of_findPrefix hp).1, (mem_of_findPrefix hp).2, rfl⟩
  · rintro ⟨p, hp, rfl, rfl⟩
    exact ⟨p, findPrefix_of_mem hnd hp, rfl⟩

theorem findPtr_eq_none {ps : List (PrefixEntry W α)} {k : BitVec W × ℕ} :
    findPtr ps k = none ↔ ∀ p ∈ ps, p.key ≠ k := by
  simp only [findPtr, Option.map_eq_none_iff, findPrefix, List.find?_eq_none, decide_eq_true_iff]
  exact forall₂_congr fun p _ => not_congr key_eq_iff.symm

theorem findPtr_perm {ps qs : List (PrefixEntry W α)} (hnd : KeysNodup ps) (h : ps.Perm qs)
    (k : BitVec W × ℕ) : findPtr ps k = findPtr qs k := by
  have hnd' : KeysNodup qs := (h.map _).nodup_iff.1 hnd
  ext v
  rw [findPtr_eq_some hnd, findPtr_eq_some hnd']
  exact exists_congr fun p => and_congr_left' h.mem_iff

/-! ### Updating a list -/

theorem setPtr_keys (k : BitVec W × ℕ) (v : α) : ∀ ps : List (PrefixEntry W α),
    (setPtr k.1 k.2 v ps).map PrefixEntry.key = ps.map PrefixEntry.key
  | [] => rfl
  | p :: ps => by
    unfold setPtr
    split_ifs with h
    · rfl
    · simp [setPtr_keys k v ps]

theorem findPtr_cons_pos {p : PrefixEntry W α} {k : BitVec W × ℕ} (h : p.key = k)
    (ps : List (PrefixEntry W α)) : findPtr (p :: ps) k = some p.ptr := by
  simp [findPtr, findPrefix, key_eq_iff.1 h]

theorem findPtr_cons_neg {p : PrefixEntry W α} {k : BitVec W × ℕ} (h : p.key ≠ k)
    (ps : List (PrefixEntry W α)) : findPtr (p :: ps) k = findPtr ps k := by
  simp only [findPtr, findPrefix, List.find?_cons, decide_eq_false (fun h' => h (key_eq_iff.2 h'))]

theorem findPtr_setPtr {k : BitVec W × ℕ} {v : α} {ps : List (PrefixEntry W α)}
    (h : ∃ p ∈ ps, p.key = k) (k' : BitVec W × ℕ) :
    findPtr (setPtr k.1 k.2 v ps) k' = if k' = k then some v else findPtr ps k' := by
  induction ps with
  | nil => simp at h
  | cons p ps ih =>
    unfold setPtr
    by_cases hp : p.key = k
    · rw [if_pos (key_eq_iff.1 hp)]
      by_cases hk : k' = k
      · subst hk; rw [if_pos rfl, findPtr_cons_pos (by exact hp)]
      · have hne : p.key ≠ k' := fun h' => hk (h'.symm.trans hp)
        rw [if_neg hk, findPtr_cons_neg (by exact hne), findPtr_cons_neg hne]
    · have h' : ∃ q ∈ ps, q.key = k := by
        obtain ⟨q, hq, hqk⟩ := h
        rcases List.mem_cons.1 hq with rfl | hq
        · exact absurd hqk hp
        · exact ⟨q, hq, hqk⟩
      rw [if_neg (fun h' => hp (key_eq_iff.2 h'))]
      by_cases hpk : p.key = k'
      · have hne : k' ≠ k := fun h => hp (hpk.trans h)
        rw [if_neg hne, findPtr_cons_pos hpk, findPtr_cons_pos hpk]
      · rw [findPtr_cons_neg hpk, findPtr_cons_neg hpk, ih h']

theorem findPrefix_isSome {ps : List (PrefixEntry W α)} {k : BitVec W × ℕ} :
    (findPrefix ps k.1 k.2).isSome = true ↔ ∃ p ∈ ps, p.key = k := by
  simp only [findPrefix, List.find?_isSome, decide_eq_true_iff, key_eq_iff]

theorem insertPrefix_perm {ps : List (PrefixEntry W α)} {k : BitVec W × ℕ} (v : α)
    (hk : ∀ p ∈ ps, p.key ≠ k) (hlen : ps.length < 255) :
    (insertPrefix ps k.1 k.2 v).Perm (⟨k.1, v, k.2⟩ :: ps) := by
  have hf : ¬ (findPrefix ps k.1 k.2).isSome = true := by
    rw [findPrefix_isSome]; rintro ⟨p, hp, hpk⟩; exact hk p hp hpk
  unfold insertPrefix
  rw [if_neg hf]
  simp only
  rw [List.take_of_length_le]
  · exact (List.perm_insertionSort _ _).trans (List.perm_append_singleton _ _)
  · simp only [List.length_insertionSort, List.length_append, List.length_singleton]
    omega

section
variable {ps : List (PrefixEntry W α)} {k : BitVec W × ℕ} {v : α}
  (hnd : KeysNodup ps) (hcap : (findPtr ps k).isSome ∨ ps.length < 255)
include hcap

theorem insertPrefix_cases : ((∃ p ∈ ps, p.key = k) ∧ insertPrefix ps k.1 k.2 v = setPtr k.1 k.2 v ps) ∨
    ((∀ p ∈ ps, p.key ≠ k) ∧ (insertPrefix ps k.1 k.2 v).Perm (⟨k.1, v, k.2⟩ :: ps) ∧
      ps.length < 255) := by
  by_cases hk : ∃ p ∈ ps, p.key = k
  · refine Or.inl ⟨hk, ?_⟩
    unfold insertPrefix
    rw [if_pos (findPrefix_isSome.2 hk)]
  · have hk' : ∀ p ∈ ps, p.key ≠ k := fun p hp hpk => hk ⟨p, hp, hpk⟩
    have hlen : ps.length < 255 := by
      rcases hcap with h | h
      · rw [findPtr_eq_none.2 hk'] at h; simp at h
      · exact h
    exact Or.inr ⟨hk', insertPrefix_perm v hk' hlen, hlen⟩

include hnd

theorem keysNodup_insertPrefix : KeysNodup (insertPrefix ps k.1 k.2 v) := by
  rcases insertPrefix_cases (v := v) hcap with ⟨-, he⟩ | ⟨hk, hp, -⟩
  · rw [he, KeysNodup, setPtr_keys]; exact hnd
  · refine ((hp.map PrefixEntry.key).nodup_iff).2 (List.nodup_cons.2 ⟨?_, hnd⟩)
    rintro hm
    obtain ⟨p, hp, hpk⟩ := List.mem_map.1 hm
    exact hk p hp hpk

theorem findPtr_insertPrefix (k' : BitVec W × ℕ) :
    findPtr (insertPrefix ps k.1 k.2 v) k' = if k' = k then some v else findPtr ps k' := by
  rcases insertPrefix_cases (v := v) hcap with ⟨hk, he⟩ | ⟨-, hp, -⟩
  · rw [he, findPtr_setPtr hk]
  · rw [findPtr_perm (keysNodup_insertPrefix hnd hcap) hp]
    by_cases hk' : k' = k
    · subst hk'; rw [if_pos rfl, findPtr_cons_pos (by rfl)]
    · rw [if_neg hk', findPtr_cons_neg (fun h => hk' h.symm)]

omit hnd in
theorem length_insertPrefix (hle : ps.length ≤ 255) : (insertPrefix ps k.1 k.2 v).length ≤ 255 := by
  rcases insertPrefix_cases (v := v) hcap with ⟨-, he⟩ | ⟨-, hp, hlt⟩
  · have := congrArg List.length (setPtr_keys k v ps)
    simp only [List.length_map] at this
    rw [he]; omega
  · rw [hp.length_eq, List.length_cons]; omega

omit hnd in
theorem key_mem_insertPrefix {p : PrefixEntry W α} (hp : p ∈ insertPrefix ps k.1 k.2 v) :
    p.key = k ∨ ∃ q ∈ ps, q.key = p.key := by
  rcases insertPrefix_cases (v := v) hcap with ⟨-, he⟩ | ⟨-, hperm, -⟩
  · have := List.mem_map_of_mem (f := PrefixEntry.key) hp
    rw [he, setPtr_keys, List.mem_map] at this
    exact Or.inr this
  · rcases List.mem_cons.1 (hperm.mem_iff.1 hp) with rfl | hp
    · exact Or.inl rfl
    · exact Or.inr ⟨p, hp, rfl⟩

end

theorem reinsert_perm : ∀ {ps acc : List (PrefixEntry W α)}, KeysNodup (acc ++ ps) →
    (acc ++ ps).length ≤ 255 →
    (ps.foldl (fun qs p => insertPrefix qs p.addr p.len p.ptr) acc).Perm (acc ++ ps)
  | [], acc, _, _ => by simp
  | p :: ps, acc, hnd, hlen => by
    simp only [KeysNodup, List.map_append, List.map_cons, List.nodup_append, List.nodup_cons] at hnd
    simp only [List.length_append, List.length_cons] at hlen
    have hk : ∀ q ∈ acc, q.key ≠ p.key := fun q hq =>
      hnd.2.2 _ (List.mem_map_of_mem hq) _ List.mem_cons_self
    have hp : (insertPrefix acc p.addr p.len p.ptr).Perm (acc ++ [p]) :=
      (insertPrefix_perm (k := p.key) p.ptr hk (by omega)).trans
        (List.perm_append_singleton _ _).symm
    have hp' : (insertPrefix acc p.addr p.len p.ptr ++ ps).Perm (acc ++ p :: ps) := by
      simpa using hp.append_right ps
    rw [List.foldl_cons]
    refine (reinsert_perm ?_ ?_).trans hp'
    · refine (hp'.map PrefixEntry.key).nodup_iff.2 ?_
      simp only [List.map_append, List.map_cons, List.nodup_append, List.nodup_cons]
      exact hnd
    · rw [hp'.length_eq]; simp; omega

theorem removePrefix_eq_none {k : BitVec W × ℕ} : ∀ {ps : List (PrefixEntry W α)},
    removePrefix k.1 k.2 ps = none ↔ ∀ p ∈ ps, p.key ≠ k
  | [] => by simp [removePrefix]
  | p :: ps => by
    unfold removePrefix
    split_ifs with h
    · simp [key_eq_iff.2 h]
    · rw [Option.map_eq_none_iff, removePrefix_eq_none]
      simp [show p.key ≠ k from fun h' => h (key_eq_iff.1 h')]

theorem removePrefix_eq_some {k : BitVec W × ℕ} : ∀ {ps qs : List (PrefixEntry W α)},
    removePrefix k.1 k.2 ps = some qs → ∃ p, p.key = k ∧ ps.Perm (p :: qs)
  | [], _, h => by simp [removePrefix] at h
  | p :: ps, qs, h => by
    unfold removePrefix at h
    split_ifs at h with hp
    · cases h; exact ⟨p, key_eq_iff.2 hp, List.Perm.refl _⟩
    · obtain ⟨qs', hq, rfl⟩ := Option.map_eq_some_iff.1 h
      obtain ⟨q, hqk, hperm⟩ := removePrefix_eq_some hq
      exact ⟨q, hqk, (hperm.cons p).trans (List.Perm.swap ..)⟩

end

end LpcTrie

end VirtualRouter
