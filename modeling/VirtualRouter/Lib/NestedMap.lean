/-
  Maps of maps.

  `Map κ α` is a finite map.  An index that groups entries is a map of maps
  whose inner maps are made on demand and dropped when they get empty;
  `lookup₂` finds an entry through both levels, and the edits of one entry act
  on `lookup₂` as they do on a plain map.  `groupOf`, `insertInto` and
  `eraseFrom` are the same for an index whose entries are sets.
-/
import Mathlib

namespace NestedMap

abbrev Map (κ α : Type*) := AList fun _ : κ => α

variable {κ κ' α : Type*} [DecidableEq κ] [DecidableEq κ']

theorem lookup_insert_eq (m : Map κ α) (k k' : κ) (a : α) :
    (m.insert k a).lookup k' = if k' = k then some a else m.lookup k' := by
  split_ifs with h
  · subst h
    exact AList.lookup_insert m
  · exact AList.lookup_insert_ne h

theorem lookup_erase_eq (m : Map κ α) (k k' : κ) :
    (m.erase k).lookup k' = if k' = k then none else m.lookup k' := by
  split_ifs with h
  · subst h
    exact AList.lookup_erase k' m
  · exact AList.lookup_erase_ne h

def reject (m : Map κ α) (p : κ → α → Bool) : Map κ α where
  entries := m.entries.filter fun e => !p e.1 e.2
  nodupKeys := m.nodupKeys.sublist List.filter_sublist

theorem lookup_reject (m : Map κ α) (p : κ → α → Bool) (k : κ) :
    (reject m p).lookup k = (m.lookup k).filter fun a => !p k a := by
  refine Option.ext fun a => ?_
  rw [Option.filter_eq_some_iff]
  constructor
  · intro h
    have hmem := AList.mem_lookup_iff.1 h
    obtain ⟨hmem, hp⟩ := List.mem_filter.1 hmem
    exact ⟨AList.mem_lookup_iff.2 hmem, hp⟩
  · rintro ⟨h, hp⟩
    exact AList.mem_lookup_iff.2 (List.mem_filter.2 ⟨AList.mem_lookup_iff.1 h, hp⟩)

def mapVal (m : Map κ α) (f : κ → α → α) : Map κ α where
  entries := m.entries.map fun e => ⟨e.1, f e.1 e.2⟩
  nodupKeys := by
    have hkeys : List.keys (m.entries.map fun e => (⟨e.1, f e.1 e.2⟩ : Sigma fun _ : κ => α)) = m.keys := by
      rw [List.keys, AList.keys, List.keys, List.map_map]
      rfl
    show (List.keys _).Nodup
    rw [hkeys]
    exact m.keys_nodup

theorem lookup_mapVal (m : Map κ α) (f : κ → α → α) (k : κ) : (mapVal m f).lookup k = (m.lookup k).map (f k) := by
  refine Option.ext fun a => ?_
  rw [Option.map_eq_some_iff]
  constructor
  · intro h
    obtain ⟨⟨k', b⟩, hmem, heq⟩ := List.mem_map.1 (AList.mem_lookup_iff.1 h)
    cases heq
    exact ⟨b, AList.mem_lookup_iff.2 hmem, rfl⟩
  · rintro ⟨b, hb, rfl⟩
    exact AList.mem_lookup_iff.2 (List.mem_map.2 ⟨⟨k, b⟩, AList.mem_lookup_iff.1 hb, rfl⟩)

def lookup₂ (m : Map κ (Map κ' α)) (k : κ) (k' : κ') : Option α := (m.lookup k).bind fun inner => inner.lookup k'

/-- An entry of the map of `k`, which is made if there is none. -/
def insert₂ (m : Map κ (Map κ' α)) (k : κ) (k' : κ') (a : α) : Map κ (Map κ' α) :=
  m.insert k (((m.lookup k).getD ∅).insert k' a)

/-- An entry is erased; the map of `k` is made if there is none, and dropped if it is empty. -/
def erase₂ (m : Map κ (Map κ' α)) (k : κ) (k' : κ') : Map κ (Map κ' α) :=
  let inner := ((m.lookup k).getD ∅).erase k'
  if inner.entries = [] then m.erase k else m.insert k inner

theorem lookup_getD (m : Map κ (Map κ' α)) (k : κ) (k' : κ') : ((m.lookup k).getD ∅).lookup k' = lookup₂ m k k' := by
  rw [lookup₂]
  cases m.lookup k <;> rfl

theorem lookup_insert₂ (m : Map κ (Map κ' α)) (k i : κ) (k' i' : κ') (a : α) :
    lookup₂ (insert₂ m k k' a) i i' = if i = k ∧ i' = k' then some a else lookup₂ m i i' := by
  rw [lookup₂, insert₂, lookup_insert_eq]
  by_cases hi : i = k
  · subst hi
    rw [if_pos rfl, Option.bind_some, lookup_insert_eq, lookup_getD]
    simp
  · rw [if_neg hi, if_neg (fun h => hi h.1)]
    rfl

theorem lookup_erase₂ (m : Map κ (Map κ' α)) (k i : κ) (k' i' : κ') :
    lookup₂ (erase₂ m k k') i i' = if i = k ∧ i' = k' then none else lookup₂ m i i' := by
  have hinner : (((m.lookup k).getD ∅).erase k').lookup i' = if i' = k' then none else lookup₂ m k i' := by
    rw [lookup_erase_eq, lookup_getD]
  by_cases hi : i = k
  · subst hi
    rw [erase₂]
    split_ifs with hempty hkey hkey
    · rw [lookup₂, lookup_erase_eq, if_pos rfl]
      rfl
    · rw [lookup₂, lookup_erase_eq, if_pos rfl, Option.bind_none]
      rw [if_neg (fun h => hkey ⟨rfl, h⟩)] at hinner
      rw [← hinner, AList.lookup, hempty]
      rfl
    · rw [lookup₂, lookup_insert_eq, if_pos rfl, Option.bind_some, hinner, if_pos hkey.2]
    · rw [lookup₂, lookup_insert_eq, if_pos rfl, Option.bind_some, hinner, if_neg (fun h => hkey ⟨rfl, h⟩)]
  · rw [if_neg (fun h => hi h.1), erase₂, lookup₂]
    split_ifs with hempty
    · rw [lookup_erase_eq, if_neg hi]
      rfl
    · rw [lookup_insert_eq, if_neg hi]
      rfl

/-! ## Sets in a map -/

section sets
variable {β : Type*} [DecidableEq β]

def groupOf (m : Map κ (Finset β)) (k : κ) : Finset β := (m.lookup k).getD ∅

def insertInto (m : Map κ (Finset β)) (k : κ) (a : β) : Map κ (Finset β) :=
  m.insert k (insert a (groupOf m k))

/-- An element is taken out of the set of `k`, which goes if it is empty. -/
def eraseFrom (m : Map κ (Finset β)) (k : κ) (a : β) : Map κ (Finset β) :=
  if (groupOf m k).erase a = ∅ then m.erase k else m.insert k ((groupOf m k).erase a)

omit [DecidableEq β] in
@[simp] theorem groupOf_empty (k : κ) : groupOf (∅ : Map κ (Finset β)) k = ∅ := rfl

theorem mem_groupOf_insertInto (m : Map κ (Finset β)) (k k' : κ) (a a' : β) :
    a' ∈ groupOf (insertInto m k a) k' ↔ k' = k ∧ a' = a ∨ a' ∈ groupOf m k' := by
  rw [groupOf, insertInto, lookup_insert_eq]
  split_ifs with hk
  · subst hk
    simp
  · simp [hk, groupOf]

theorem mem_groupOf_eraseFrom (m : Map κ (Finset β)) (k k' : κ) (a a' : β) :
    a' ∈ groupOf (eraseFrom m k a) k' ↔ a' ∈ groupOf m k' ∧ ¬ (k' = k ∧ a' = a) := by
  have hset : groupOf (eraseFrom m k a) k' =
      if k' = k then (groupOf m k).erase a else groupOf m k' := by
    rw [eraseFrom, groupOf]
    split_ifs with hempty hk hk
    · rw [lookup_erase_eq, if_pos hk, hempty]
      rfl
    · rw [lookup_erase_eq, if_neg hk]
      rfl
    · rw [lookup_insert_eq, if_pos hk]
      rfl
    · rw [lookup_insert_eq, if_neg hk]
      rfl
  rw [hset]
  split_ifs with hk
  · subst hk
    simp [and_comm]
  · simp [hk]

end sets

end NestedMap
