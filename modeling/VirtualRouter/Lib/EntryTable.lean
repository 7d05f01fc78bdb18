/-
  Lists of entries that represent a partial map.

  A multimap is kept as the list of its entries.  `Represents t f` says that it
  holds one entry for each key of the map `f` and no other; removing the keys of
  a predicate and replacing the entry of a key keep the relation, with the same
  edit of the map.
-/
import Mathlib

namespace EntryTable

variable {κ α : Type*} [DecidableEq κ] {t : List (κ × α)} {f : κ → Option α}

/-- The entries `t` are those of the map `f`, one for each key. -/
structure Represents (t : List (κ × α)) (f : κ → Option α) : Prop where
  nodup : (t.map Prod.fst).Nodup
  mem_iff : ∀ k a, (k, a) ∈ t ↔ f k = some a

def without (f : κ → Option α) (ks : List κ) (k : κ) : Option α := if k ∈ ks then none else f k

omit [DecidableEq κ] in
theorem Represents.nil : Represents ([] : List (κ × α)) fun _ => none :=
  ⟨List.nodup_nil, by simp⟩

omit [DecidableEq κ] in
/-- Removing keys: `f'` agrees with `f` on the keys that stay and has no other. -/
theorem Represents.filter (h : Represents t f) (p : κ → Bool) {f' : κ → Option α}
    (hpos : ∀ k, p k = true → f' k = f k) (hneg : ∀ k, p k = false → f' k = none) :
    Represents (t.filter fun e => p e.1) f' where
  nodup := h.nodup.sublist (List.filter_sublist.map _)
  mem_iff k a := by
    rw [List.mem_filter, h.mem_iff]
    cases hp : p k with
    | true => simp [hpos k hp]
    | false => simp [hneg k hp]

theorem Represents.removeKeys (h : Represents t f) (p : κ → Bool) :
    Represents (t.filter fun e => !p e.1) (without f ((t.filter fun e => p e.1).map fun e => e.1)) := by
  refine h.filter (fun k => !p k) (fun k hk => if_neg fun hmem => ?_) fun k hk => ?_
  · obtain ⟨e, he, rfl⟩ := List.mem_map.1 hmem
    rw [(List.mem_filter.1 he).2] at hk
    cases hk
  · -- a key that is removed and not listed is not in the table
    rw [Bool.not_eq_false'] at hk
    refine ite_eq_left_iff.2 fun hmem => Option.eq_none_iff_forall_not_mem.2 fun a ha => hmem ?_
    exact List.mem_map.2 ⟨(k, a), List.mem_filter.2 ⟨(h.mem_iff k a).2 ha, hk⟩, rfl⟩

omit [DecidableEq κ] in
theorem Represents.of_perm (h : Represents t f) {t' : List (κ × α)} (hp : t'.Perm t) :
    Represents t' f where
  nodup := ((hp.map Prod.fst).nodup_iff).2 h.nodup
  mem_iff k a := hp.mem_iff.trans (h.mem_iff k a)

theorem eraseP_eq_filter (hn : (t.map Prod.fst).Nodup) (k : κ) :
    (t.eraseP fun e => e.1 = k) = t.filter fun e => decide (e.1 ≠ k) := by
  induction t with
  | nil => rfl
  | cons e t ih =>
    rw [List.map_cons, List.nodup_cons] at hn
    by_cases he : e.1 = k
    · rw [List.eraseP_cons_of_pos (by simpa using he), List.filter_cons_of_neg (by simpa using he)]
      refine (List.filter_eq_self.2 fun x hx => ?_).symm
      have : x.1 ≠ e.1 := fun hxe => hn.1 (hxe ▸ List.mem_map_of_mem hx)
      simpa [← he] using this
    · rw [List.eraseP_cons_of_neg (by simpa using he), List.filter_cons_of_pos (by simpa using he),
        ih hn.2]

/-- Removing the entry of a key, if it has one. -/
theorem Represents.erase (h : Represents t f) (k : κ) :
    Represents (t.eraseP fun e => e.1 = k) (Function.update f k none) := by
  rw [eraseP_eq_filter h.nodup]
  refine h.filter (fun k' => decide (k' ≠ k)) (fun k' hk' => ?_) fun k' hk' => ?_
  · exact Function.update_of_ne (of_decide_eq_true hk') _ _
  · rw [not_not.1 (of_decide_eq_false hk'), Function.update_self]

theorem Represents.replace (h : Represents t f) (k : κ) (a : α) :
    Represents ((k, a) :: t.eraseP fun e => e.1 = k) (Function.update f k (some a)) := by
  have hrest := h.erase k
  refine ⟨?_, fun k' a' => ?_⟩
  · rw [List.map_cons, List.nodup_cons]
    refine ⟨fun hk => ?_, hrest.nodup⟩
    obtain ⟨⟨_, a'⟩, hx, rfl⟩ := List.mem_map.1 hk
    have hnone := (hrest.mem_iff _ a').1 hx
    rw [Function.update_self] at hnone
    cases hnone
  · rw [List.mem_cons, hrest.mem_iff]
    by_cases hk : k' = k
    · subst hk
      simp [eq_comm]
    · simp [hk]

end EntryTable
