/-
  Runs of the manager of path attributes.

  `Shape` says how the two levels of entries, their maps, their id pools and
  the counts of the attribute sets fit together, `Holds` that the references
  held are counted and give their values.  `acquire` goes through a state in
  which a new attribute set has no path yet (`HasAttr`); what the release of
  the last reference changes is said once (`Dropped`).

  `hashConsed_run`: in every run that releases only what is held, keeps each
  count below `2 ^ 32` and leaves an id for a new pair, a held id gives the
  value it was acquired for, ids are equal iff the values are, an attribute set
  counts the paths that use it, and every id is free once all is released.
-/
import VirtualRouter.Lib.Run
import VirtualRouter.Bgp.AttributeManager
import VirtualRouter.Bgp.PathAttributes

namespace VirtualRouter.Bgp

open Run

/-! ## The invariant -/

namespace AttributeManager

variable {A P : Type*} {m : AttributeManager A P}

def usersOf (m : AttributeManager A P) (k : UInt32) : Set UInt32 :=
  {id | (m.idToPath id).used = true ∧ (m.idToPath id).attrId = k}

/-- The two levels and their maps fit together. -/
structure Shape (m : AttributeManager A P) : Prop where
  attrIds : m.attrIds.Tracks fun k => (m.idToAttr k).used = true
  pathIds : m.pathIds.Tracks fun id => (m.idToPath id).used = true
  attr_map : ∀ a k, m.attrToId a = some k ↔ (m.idToAttr k).used = true ∧ (m.idToAttr k).attrs = a
  path_map : ∀ k p id, m.pathToId (k, p) = some id ↔
    (m.idToPath id).used = true ∧ (m.idToPath id).attrId = k ∧ (m.idToPath id).path = p
  path_attr : ∀ id, (m.idToPath id).used = true → (m.idToAttr (m.idToPath id).attrId).used = true
  attr_count : ∀ k, (m.idToAttr k).used = true → (m.idToAttr k).refCount.toNat = (m.usersOf k).ncard

def refsIn (held : List (AttrRef A P)) (id : UInt32) : ℕ := held.countP fun r => r.id = id

/-- The references held are counted, and give the values they were acquired for. -/
structure Holds (m : AttributeManager A P) (held : List (AttrRef A P)) : Prop where
  live : ∀ id, (m.idToPath id).used = true →
    (m.idToPath id).refCount.toNat = refsIn held id ∧ 0 < refsIn held id
  idle : ∀ id, (m.idToPath id).used = false → refsIn held id = 0
  value : ∀ r ∈ held, m.get r.id = (r.attrs, r.path)

/-- The manager with the references held; every attribute set in use has a path. -/
structure Inv (m : AttributeManager A P) (held : List (AttrRef A P)) : Prop where
  shape : Shape m
  holds : Holds m held
  attr_live : ∀ k, (m.idToAttr k).used = true → (m.usersOf k).Nonempty

theorem refsIn_pos {held : List (AttrRef A P)} {r : AttrRef A P} (hr : r ∈ held) :
    0 < refsIn held r.id :=
  List.countP_pos_iff.2 ⟨r, hr, decide_eq_true rfl⟩

theorem refsIn_cons (held : List (AttrRef A P)) (r : AttrRef A P) (id : UInt32) :
    refsIn (r :: held) id = refsIn held id + if r.id = id then 1 else 0 := by
  simp [refsIn, List.countP_cons]

theorem Holds.used {held : List (AttrRef A P)} (h : Holds m held) {r : AttrRef A P} (hr : r ∈ held) :
    (m.idToPath r.id).used = true := by
  by_contra hu
  have h0 := h.idle r.id (Bool.eq_false_iff.2 hu)
  have hpos := refsIn_pos hr
  omega

theorem inv_empty [Inhabited A] [Inhabited P] : Inv (empty A P) [] where
  shape :=
    { attrIds := IdPool.tracks_empty.congr fun k => by simp [empty]
      pathIds := IdPool.tracks_empty.congr fun id => by simp [empty]
      attr_map := by simp [empty]
      path_map := by simp [empty]
      path_attr := by simp [empty]
      attr_count := by simp [empty] }
  holds :=
    { live := by simp [empty]
      idle := by simp [refsIn]
      value := by simp }
  attr_live := by simp [empty]

/-! ### Setting a reference count -/

section SetRefCount
variable (m : AttributeManager A P) (i c id : UInt32)

@[simp] theorem setRefCount_used :
    ((m.setRefCount i c).idToPath id).used = (m.idToPath id).used := by
  by_cases h : id = i
  · subst h
    simp [setRefCount]
  · simp [setRefCount, h]

@[simp] theorem setRefCount_attrId :
    ((m.setRefCount i c).idToPath id).attrId = (m.idToPath id).attrId := by
  by_cases h : id = i
  · subst h
    simp [setRefCount]
  · simp [setRefCount, h]

@[simp] theorem setRefCount_path :
    ((m.setRefCount i c).idToPath id).path = (m.idToPath id).path := by
  by_cases h : id = i
  · subst h
    simp [setRefCount]
  · simp [setRefCount, h]

theorem setRefCount_refCount :
    ((m.setRefCount i c).idToPath id).refCount = if id = i then c else (m.idToPath id).refCount := by
  by_cases h : id = i
  · subst h
    simp [setRefCount]
  · simp [setRefCount, h]

@[simp] theorem setRefCount_get : (m.setRefCount i c).get id = m.get id := by
  have hattr : (m.setRefCount i c).idToAttr = m.idToAttr := rfl
  simp only [get, hattr, setRefCount_attrId, setRefCount_path]

@[simp] theorem setRefCount_usersOf : (m.setRefCount i c).usersOf id = m.usersOf id := by
  ext j
  simp [usersOf]

end SetRefCount

theorem Shape.setRefCount (h : Shape m) (i c : UInt32) : Shape (m.setRefCount i c) where
  attrIds := h.attrIds
  pathIds := h.pathIds.congr fun id => by rw [setRefCount_used]
  attr_map := h.attr_map
  path_map k p id := by
    rw [setRefCount_used, setRefCount_attrId, setRefCount_path]
    exact h.path_map k p id
  path_attr id hid := by
    rw [setRefCount_used] at hid
    rw [setRefCount_attrId]
    exact h.path_attr id hid
  attr_count k hk := by
    rw [setRefCount_usersOf]
    exact h.attr_count k hk

theorem Inv.addRef {held : List (AttrRef A P)} (h : Inv m held) {r : AttrRef A P}
    (hu : (m.idToPath r.id).used = true) (hv : m.get r.id = (r.attrs, r.path))
    (hroom : refsIn held r.id + 1 < 2 ^ 32) :
    Inv (m.setRefCount r.id ((m.idToPath r.id).refCount + 1)) (r :: held) where
  shape := h.shape.setRefCount _ _
  holds :=
    { live := by
        intro id hid
        rw [setRefCount_used] at hid
        obtain ⟨hc, hpos⟩ := h.holds.live id hid
        rw [setRefCount_refCount, refsIn_cons]
        by_cases hi : id = r.id
        · subst hi
          rw [if_pos rfl, if_pos rfl, UInt32.toNat_add, hc]
          exact ⟨Nat.mod_eq_of_lt hroom, Nat.succ_pos _⟩
        · rw [if_neg hi, if_neg (Ne.symm hi)]
          exact ⟨hc, hpos⟩
      idle := by
        intro id hid
        rw [setRefCount_used] at hid
        rw [refsIn_cons, h.holds.idle id hid, if_neg]
        intro hi
        rw [← hi, hu] at hid
        cases hid
      value := by
        intro r' hr'
        rw [setRefCount_get]
        rcases List.mem_cons.1 hr' with rfl | hr'
        · exact hv
        · exact h.holds.value r' hr' }
  attr_live k hk := by
    rw [setRefCount_usersOf]
    exact h.attr_live k hk

/-! ### Acquiring -/

theorem usersOf_eq_empty (h : Shape m) {k : UInt32} (hk : (m.idToAttr k).used = false) :
    m.usersOf k = ∅ := by
  ext id
  simp only [usersOf, Set.mem_ofPred_eq, Set.mem_empty_iff_false, iff_false]
  rintro ⟨hu, rfl⟩
  rw [h.path_attr id hu] at hk
  cases hk

theorem Inv.attr_room {held : List (AttrRef A P)} (h : Inv m held)
    (hroom : ∃ id, (m.idToPath id).used = false) : ∃ k, ¬ (m.idToAttr k).used = true := by
  by_contra hall
  push Not at hall
  obtain ⟨id, hid⟩ := hroom
  have himage : (fun i => (m.idToPath i).attrId) '' {i | (m.idToPath i).used = true} = Set.univ := by
    ext k
    simp only [Set.mem_image, Set.mem_ofPred_eq, Set.mem_univ, iff_true]
    exact h.attr_live k (hall k)
  have hlt : {i | (m.idToPath i).used = true}.ncard < (Set.univ : Set UInt32).ncard := by
    refine Set.ncard_lt_ncard ?_ (Set.toFinite _)
    refine (Set.ssubset_univ_iff).2 fun he => ?_
    have hmem : id ∈ {i | (m.idToPath i).used = true} := he ▸ Set.mem_univ id
    rw [Set.mem_ofPred_eq, hid] at hmem
    cases hmem
  have hle := Set.ncard_image_le (f := fun i => (m.idToPath i).attrId)
    (Set.toFinite {i | (m.idToPath i).used = true})
  rw [himage] at hle
  omega

/-- What the first half of `acquire` hands on. -/
structure HasAttr (m m' : AttributeManager A P) (held : List (AttrRef A P)) (k : UInt32) (attrs : A) :
    Prop where
  shape : Shape m'
  holds : Holds m' held
  used : (m'.idToAttr k).used = true
  attrs : (m'.idToAttr k).attrs = attrs
  attr_live : ∀ k', k' ≠ k → (m'.idToAttr k').used = true → (m'.usersOf k').Nonempty
  idToPath : m'.idToPath = m.idToPath

section Attr
variable [DecidableEq A] {held : List (AttrRef A P)}

theorem hasAttr_acquireAttr (h : Inv m held) (attrs : A)
    (hroom : m.attrToId attrs = none → ∃ id, (m.idToPath id).used = false) :
    HasAttr m (m.acquireAttr attrs).2 held (m.acquireAttr attrs).1 attrs := by
  rcases hfind : m.attrToId attrs with _ | k
  · have hattr := h.attr_room (hroom hfind)
    have hnew : ¬ (m.idToAttr m.attrIds.take.1).used = true :=
      h.shape.attrIds.take_not_used hattr
    have hnew' : (m.idToAttr m.attrIds.take.1).used = false := Bool.eq_false_iff.2 hnew
    have hne : ∀ {id}, (m.idToPath id).used = true → (m.idToPath id).attrId ≠ m.attrIds.take.1 :=
      fun hid he => hnew (he ▸ h.shape.path_attr _ hid)
    have htracks := h.shape.attrIds.take hattr
    simp only [acquireAttr, hfind]
    generalize m.attrIds.take.1 = k at *
    refine ⟨⟨?_, h.shape.pathIds, ?_, h.shape.path_map, ?_, ?_⟩, ⟨h.holds.live, h.holds.idle, ?_⟩,
      ?_, ?_, ?_, rfl⟩
    · refine htracks.congr fun k' => ?_
      by_cases hk : k' = k
      · simp [hk]
      · simp [hk]
    · intro a k'
      by_cases ha : a = attrs
      · subst ha
        by_cases hk : k' = k
        · simp [hk]
        · have hno : ¬ ((m.idToAttr k').used = true ∧ (m.idToAttr k').attrs = a) := by
            rw [← h.shape.attr_map, hfind]
            simp
          simpa [hk, Ne.symm hk] using hno
      · by_cases hk : k' = k
        · subst hk
          have hno : m.attrToId a ≠ some k' := fun he => hnew ((h.shape.attr_map a k').1 he).1
          simp [ha, Ne.symm ha, hno]
        · simpa [ha, hk] using h.shape.attr_map a k'
    · intro id hid
      simpa [Function.update_of_ne (hne hid)] using h.shape.path_attr id hid
    · intro k' hk'
      by_cases hk : k' = k
      · subst hk
        have hnone := usersOf_eq_empty h.shape hnew'
        simp only [usersOf] at hnone
        simp [usersOf, hnone]
      · simp only [Function.update_of_ne hk] at hk' ⊢
        exact h.shape.attr_count k' hk'
    · intro r hr
      have hval := h.holds.value r hr
      simpa [get, Function.update_of_ne (hne (h.holds.used hr))] using hval
    · simp
    · simp
    · intro k' hk hk'
      simp only [Function.update_of_ne hk] at hk'
      exact h.attr_live k' hk'
  · have hk := (h.shape.attr_map attrs k).1 hfind
    simp only [acquireAttr, hfind]
    exact ⟨h.shape, h.holds, hk.1, hk.2, fun k' _ hk' => h.attr_live k' hk', rfl⟩

end Attr

theorem card_ids : Nat.card UInt32 = 2 ^ 32 := by
  rw [Nat.card_congr (α := UInt32) (β := Fin (2 ^ 32)) ⟨UInt32.toFin, UInt32.ofFin, fun _ => rfl,
    fun _ => rfl⟩, Nat.card_fin]

theorem ncard_lt {t : Set UInt32} {i j : UInt32} (hij : i ≠ j) (hi : i ∉ t) (hj : j ∉ t) :
    t.ncard + 1 < 2 ^ 32 := by
  have hsub : insert i (insert j t) ⊆ (Set.univ : Set UInt32) := Set.subset_univ _
  have hcard := Set.ncard_le_ncard hsub (Set.toFinite _)
  rw [Set.ncard_insert_of_notMem (by simp [hij, hi]) (Set.toFinite _),
    Set.ncard_insert_of_notMem hj (Set.toFinite _), Set.ncard_univ, card_ids] at hcard
  omega

section AddPath
variable [DecidableEq P] (m : AttributeManager A P) (k : UInt32) (path : P) (id : UInt32) (ids : IdPool)

theorem addPath_idToPath (id' : UInt32) :
    (m.addPath k path id ids).idToPath id' = if id' = id then ⟨path, k, 1, true⟩ else m.idToPath id' := by
  by_cases h : id' = id <;> simp [addPath, h]

theorem addPath_attr_used (k' : UInt32) :
    ((m.addPath k path id ids).idToAttr k').used = (m.idToAttr k').used := by
  by_cases h : k' = k
  · subst h
    simp [addPath]
  · simp [addPath, h]

theorem addPath_attr_attrs (k' : UInt32) :
    ((m.addPath k path id ids).idToAttr k').attrs = (m.idToAttr k').attrs := by
  by_cases h : k' = k
  · subst h
    simp [addPath]
  · simp [addPath, h]

theorem addPath_attr_refCount (k' : UInt32) :
    ((m.addPath k path id ids).idToAttr k').refCount =
      if k' = k then (m.idToAttr k').refCount + 1 else (m.idToAttr k').refCount := by
  by_cases h : k' = k
  · subst h
    simp [addPath]
  · simp [addPath, h]

variable {m id}

theorem addPath_usersOf (hid : (m.idToPath id).used = false) (k' : UInt32) :
    (m.addPath k path id ids).usersOf k' =
      if k' = k then insert id (m.usersOf k') else m.usersOf k' := by
  ext id'
  simp only [usersOf, addPath_idToPath]
  by_cases he : id' = id
  · subst he
    by_cases hk : k' = k
    · simp [hk]
    · simp [hk, hid, Ne.symm hk]
  · by_cases hk : k' = k
    · simp [he, hk]
    · simp [he, hk]

end AddPath

section Path
variable [DecidableEq P] {held : List (AttrRef A P)} {m' : AttributeManager A P} {k : UInt32}
  {attrs : A}

theorem HasAttr.shape_addPath (h : HasAttr m m' held k attrs) {path : P} {id : UInt32} {ids : IdPool}
    (hnone : m'.pathToId (k, path) = none) (hid : (m'.idToPath id).used = false)
    (hids : ids.Tracks fun id' => (m'.idToPath id').used = true ∨ id' = id)
    (hroom : (m'.usersOf k).ncard + 1 < 2 ^ 32) : Shape (m'.addPath k path id ids) where
  attrIds := h.shape.attrIds.congr fun k' => by rw [addPath_attr_used]
  pathIds := by
    refine hids.congr fun id' => ?_
    rw [addPath_idToPath]
    by_cases he : id' = id <;> simp [he]
  attr_map a k' := by
    rw [addPath_attr_used, addPath_attr_attrs]
    exact h.shape.attr_map a k'
  path_map k' p id' := by
    rw [addPath_idToPath]
    have hold := h.shape.path_map k' p id'
    by_cases hkey : (k', p) = (k, path)
    · obtain ⟨rfl, rfl⟩ := Prod.mk.inj hkey
      by_cases he : id' = id
      · simp [addPath, he]
      · rw [hnone] at hold
        simpa [addPath, he, Ne.symm he] using hold
    · by_cases he : id' = id
      · have hne : m'.pathToId (k', p) ≠ some id' := by
          intro heq
          rw [hold, he, hid] at heq
          cases heq.1
        have hne' : ¬ (k = k' ∧ path = p) := fun hp => hkey (by rw [hp.1, hp.2])
        simpa [addPath, he, Function.update_of_ne hkey, hne'] using he ▸ hne
      · simpa [addPath, he, Function.update_of_ne hkey] using hold
  path_attr id' hid' := by
    rw [addPath_attr_used, addPath_idToPath]
    rw [addPath_idToPath] at hid'
    by_cases he : id' = id
    · rw [if_pos he]
      exact h.used
    · rw [if_neg he] at hid' ⊢
      exact h.shape.path_attr id' hid'
  attr_count k' hk' := by
    rw [addPath_attr_used] at hk'
    have hold := h.shape.attr_count k' hk'
    rw [addPath_attr_refCount, addPath_usersOf k path ids hid]
    by_cases hk : k' = k
    · subst hk
      have hout : id ∉ m'.usersOf k' := by
        rintro ⟨hu, -⟩
        rw [hid] at hu
        cases hu
      rw [if_pos rfl, if_pos rfl, Set.ncard_insert_of_notMem hout (Set.toFinite _), UInt32.toNat_add,
        hold]
      exact Nat.mod_eq_of_lt hroom
    · rw [if_neg hk, if_neg hk]
      exact hold

theorem HasAttr.newPath (h : HasAttr m m' held k attrs) {path : P}
    (hnone : m'.pathToId (k, path) = none)
    (hroom : ∃ i j, i ≠ j ∧ (m.idToPath i).used = false ∧ (m.idToPath j).used = false) :
    Inv (m'.acquirePath k path).2 (⟨(m'.acquirePath k path).1, attrs, path⟩ :: held) := by
  rw [← h.idToPath] at hroom
  obtain ⟨i, j, hij, hi, hj⟩ := hroom
  have hfree : ∃ id, ¬ (m'.idToPath id).used = true := ⟨i, Bool.eq_false_iff.1 hi⟩
  have hid : (m'.idToPath m'.pathIds.take.1).used = false :=
    Bool.eq_false_iff.2 (h.shape.pathIds.take_not_used hfree)
  have hids := h.shape.pathIds.take hfree
  have hout : ∀ {l}, (m'.idToPath l).used = false → l ∉ m'.usersOf k := by
    rintro l hl ⟨hu, -⟩
    rw [hl] at hu
    cases hu
  simp only [acquirePath, hnone]
  generalize m'.pathIds.take.1 = id at *
  refine ⟨h.shape_addPath hnone hid hids (ncard_lt hij (hout hi) (hout hj)), ⟨?_, ?_, ?_⟩, ?_⟩
  · intro id' hid'
    rw [addPath_idToPath] at hid' ⊢
    rw [refsIn_cons]
    by_cases he : id' = id
    · subst he
      rw [if_pos rfl, if_pos rfl, h.holds.idle id' hid]
      exact ⟨rfl, Nat.one_pos⟩
    · rw [if_neg he] at hid' ⊢
      rw [if_neg (Ne.symm he)]
      exact h.holds.live id' hid'
  · intro id' hid'
    rw [addPath_idToPath] at hid'
    rw [refsIn_cons]
    by_cases he : id' = id
    · rw [if_pos he] at hid'
      cases hid'
    · rw [if_neg he] at hid'
      rw [if_neg (Ne.symm he), h.holds.idle id' hid']
  · intro r hr
    rw [get, addPath_attr_attrs, addPath_idToPath]
    rcases List.mem_cons.1 hr with rfl | hmem
    · rw [if_pos rfl, h.attrs]
    · have hne : r.id ≠ id := by
        intro he
        rw [← he, h.holds.used hmem] at hid
        cases hid
      rw [if_neg hne]
      exact h.holds.value r hmem
  · intro k' hk'
    rw [addPath_attr_used] at hk'
    rw [addPath_usersOf k path _ hid]
    by_cases hk : k' = k
    · rw [if_pos hk]
      exact Set.insert_nonempty _ _
    · rw [if_neg hk]
      exact h.attr_live k' hk hk'

end Path

/-- **Acquiring** adds a reference. -/
theorem Inv.acquire [DecidableEq A] [DecidableEq P] {held : List (AttrRef A P)} (h : Inv m held)
    (attrs : A) (path : P)
    (hcount : ∀ r ∈ held, r.attrs = attrs → r.path = path → refsIn held r.id + 1 < 2 ^ 32)
    (hroom : (∀ r ∈ held, ¬ (r.attrs = attrs ∧ r.path = path)) →
      ∃ i j, i ≠ j ∧ refsIn held i = 0 ∧ refsIn held j = 0) :
    Inv (m.acquire attrs path).2 (⟨(m.acquire attrs path).1, attrs, path⟩ :: held) := by
  have hidle : ∀ {id}, refsIn held id = 0 → (m.idToPath id).used = false := by
    intro id h0
    by_contra hu
    have hpos := (h.holds.live id (Bool.not_eq_false _ ▸ hu)).2
    omega
  -- a live path with these attributes and this path has a reference
  have hheld : ∀ {id}, (m.idToPath id).used = true → ∃ r ∈ held, r.id = id := by
    intro id hu
    obtain ⟨r, hr, hrid⟩ := List.countP_pos_iff.1 (h.holds.live id hu).2
    exact ⟨r, hr, of_decide_eq_true hrid⟩
  have hnew : (∀ id, (m.idToPath id).used = true → m.get id ≠ (attrs, path)) →
      ∃ i j, i ≠ j ∧ (m.idToPath i).used = false ∧ (m.idToPath j).used = false := by
    intro hno
    obtain ⟨i, j, hij, hi, hj⟩ := hroom fun r hr hv =>
      hno r.id (h.holds.used hr) ((h.holds.value r hr).trans (by rw [hv.1, hv.2]))
    exact ⟨i, j, hij, hidle hi, hidle hj⟩
  have hattr : HasAttr m (m.acquireAttr attrs).2 held (m.acquireAttr attrs).1 attrs := by
    refine hasAttr_acquireAttr h attrs fun hnone => ?_
    obtain ⟨i, -, -, hi, -⟩ := hnew fun id hu hget => by
      have hmap := (h.shape.attr_map attrs (m.idToPath id).attrId).2
        ⟨h.shape.path_attr id hu, congrArg Prod.fst hget⟩
      rw [hnone] at hmap
      cases hmap
    exact ⟨i, hi⟩
  unfold AttributeManager.acquire
  generalize (m.acquireAttr attrs).1 = k at *
  generalize (m.acquireAttr attrs).2 = m' at *
  rcases hfind : m'.pathToId (k, path) with _ | id
  · refine hattr.newPath hfind (hnew fun id hu hget => ?_)
    obtain ⟨r, hr, rfl⟩ := hheld hu
    have hget' : m'.get r.id = (attrs, path) := by
      rw [hattr.holds.value r hr, ← h.holds.value r hr, hget]
    rw [← hattr.idToPath] at hu
    -- both attribute ids stand for the same set
    have hmap := (hattr.shape.attr_map attrs (m'.idToPath r.id).attrId).2
      ⟨hattr.shape.path_attr r.id hu, congrArg Prod.fst hget'⟩
    have hk := (hattr.shape.attr_map attrs k).2 ⟨hattr.used, hattr.attrs⟩
    have hfound := (hattr.shape.path_map k path r.id).2
      ⟨hu, Option.some.inj (hmap.symm.trans hk), congrArg Prod.snd hget'⟩
    rw [hfind] at hfound
    cases hfound
  · obtain ⟨hu, hk, hp⟩ := (hattr.shape.path_map k path id).1 hfind
    have hget : m'.get id = (attrs, path) := by
      rw [get, hk, hattr.attrs, hp]
    have hinv : Inv m' held := by
      refine ⟨hattr.shape, hattr.holds, fun k' hk' => ?_⟩
      by_cases he : k' = k
      · exact ⟨id, hu, hk.trans he.symm⟩
      · exact hattr.attr_live k' he hk'
    rw [acquirePath, hfind]
    refine hinv.addRef (r := ⟨id, attrs, path⟩) hu hget ?_
    obtain ⟨r, hr, rfl⟩ := hheld (hattr.idToPath ▸ hu)
    have hval := (hattr.holds.value r hr).symm.trans hget
    exact hcount r hr (congrArg Prod.fst hval) (congrArg Prod.snd hval)

/-- **Retaining** adds a reference to a live path, and is refused for another id. -/
theorem Inv.retain {held : List (AttrRef A P)} (h : Inv m held) (id : UInt32)
    (hcount : refsIn held id + 1 < 2 ^ 32) :
    Inv (m.retain id).2
      (if (m.retain id).1 then (held.find? fun r => r.id = id).toList ++ held else held) := by
  by_cases hu : (m.idToPath id).used = true
  · have hlt : ¬ id.toNat ≥ m.pathIds.count := not_le.2 (h.shape.pathIds.lt_count id hu)
    obtain ⟨r, hr, hrid⟩ := List.countP_pos_iff.1 (h.holds.live id hu).2
    obtain ⟨r', hr'⟩ : ∃ r', held.find? (fun r => r.id = id) = some r' :=
      Option.isSome_iff_exists.1 (List.find?_isSome.2 ⟨r, hr, hrid⟩)
    have hid : r'.id = id := by
      have hdec := List.find?_some hr'
      exact of_decide_eq_true hdec
    simp only [AttributeManager.retain, hlt, if_false, hu, Bool.true_eq_false, if_true, hr']
    subst hid
    exact h.addRef hu (h.holds.value r' (List.mem_of_find?_eq_some hr')) hcount
  · have hsame : m.retain id = (false, m) := by
      simp only [AttributeManager.retain, Bool.eq_false_iff.2 hu, if_true, ite_self]
    rw [hsame]
    exact h

/-! ### Releasing -/

theorem refsIn_eraseP (held : List (AttrRef A P)) (i id : UInt32) :
    refsIn (held.eraseP fun r => r.id = i) id =
      refsIn held id - if id = i then 1 else 0 := by
  induction held with
  | nil => simp [refsIn]
  | cons r held ih =>
    by_cases hr : r.id = i
    · rw [List.eraseP_cons_of_pos (by simpa using hr), refsIn_cons, hr]
      by_cases hi : id = i
      · simp [hi]
      · simp [hi, Ne.symm hi]
    · rw [List.eraseP_cons_of_neg (by simpa using hr), refsIn_cons, refsIn_cons, ih]
      by_cases hi : id = i
      · subst hi
        simp [hr]
      · simp [hi]

theorem toNat_sub_one {c : UInt32} (h : c ≠ 0) : (c - 1).toNat = c.toNat - 1 := by
  have hpos : 0 < c.toNat := Nat.pos_of_ne_zero fun h0 => h (UInt32.toNat_inj.1 h0)
  have hle : (1 : UInt32) ≤ c := UInt32.le_iff_toNat_le.2 hpos
  exact UInt32.toNat_sub_of_le _ _ hle

section Release
variable [DecidableEq A] [DecidableEq P] {held : List (AttrRef A P)} {id : UInt32}

/-- The manager behind `dropPath`, field by field; `last` says that the attribute set goes too. -/
structure Dropped (m m' : AttributeManager A P) (id : UInt32) (last : Prop) : Prop where
  idToPath : ∀ i, (m'.idToPath i).attrId = (m.idToPath i).attrId ∧
    (m'.idToPath i).path = (m.idToPath i).path ∧
    ((m'.idToPath i).used = true ↔ (m.idToPath i).used = true ∧ i ≠ id) ∧
    (i ≠ id → (m'.idToPath i).refCount = (m.idToPath i).refCount)
  pathToId : m'.pathToId =
    Function.update m.pathToId ((m.idToPath id).attrId, (m.idToPath id).path) none
  pathIds : m'.pathIds = m.pathIds.put id
  attr : ∀ k, (m'.idToAttr k).attrs = (m.idToAttr k).attrs ∧
    ((m'.idToAttr k).used = true ↔
      (m.idToAttr k).used = true ∧ ¬ (last ∧ k = (m.idToPath id).attrId)) ∧
    (m'.idToAttr k).refCount =
      if k = (m.idToPath id).attrId then (m.idToAttr k).refCount - 1 else (m.idToAttr k).refCount
  attrToId : (last → m'.attrToId =
      Function.update m.attrToId (m.idToAttr (m.idToPath id).attrId).attrs none) ∧
    (¬ last → m'.attrToId = m.attrToId)
  attrIds : (last → m'.attrIds = m.attrIds.put (m.idToPath id).attrId) ∧
    (¬ last → m'.attrIds = m.attrIds)

theorem dropped_dropPath (h : Shape m) (hu : (m.idToPath id).used = true) :
    Dropped m (m.dropPath id) id ((m.usersOf (m.idToPath id).attrId).ncard = 1) := by
  have hk := h.path_attr id hu
  have hcount := h.attr_count _ hk
  have hmem : id ∈ m.usersOf (m.idToPath id).attrId := ⟨hu, rfl⟩
  have hncard : 0 < (m.usersOf (m.idToPath id).attrId).ncard :=
    (Set.ncard_pos (Set.toFinite _)).2 ⟨id, hmem⟩
  have hne : (m.idToAttr (m.idToPath id).attrId).refCount ≠ 0 := by
    intro h0
    rw [h0] at hcount
    change 0 = _ at hcount
    omega
  have hgt : (m.idToAttr (m.idToPath id).attrId).refCount - 1 > 0 ↔
      (m.usersOf (m.idToPath id).attrId).ncard ≠ 1 := by
    rw [gt_iff_lt, UInt32.lt_iff_toNat_lt, toNat_sub_one hne, hcount]
    change 0 < _ ↔ _
    omega
  have hlt : ¬ (m.idToPath id).attrId.toNat ≥ m.attrIds.count := not_le.2 (h.attrIds.lt_count _ hk)
  -- the entry of the path, the same in both cases
  have hpath : ∀ i,
      let e := Function.update m.idToPath id
        { m.idToPath id with refCount := (m.idToPath id).refCount - 1, used := false }
      (e i).attrId = (m.idToPath i).attrId ∧ (e i).path = (m.idToPath i).path ∧
        ((e i).used = true ↔ (m.idToPath i).used = true ∧ i ≠ id) ∧
        (i ≠ id → (e i).refCount = (m.idToPath i).refCount) := by
    intro i
    by_cases hi : i = id
    · subst hi
      simp
    · simp [hi]
  simp only [dropPath, releaseAttr, hlt, if_false, hk, Bool.true_eq_false, hne]
  by_cases hlast : (m.usersOf (m.idToPath id).attrId).ncard = 1
  · have hno : ¬ (m.idToAttr (m.idToPath id).attrId).refCount - 1 > 0 := fun hg => hgt.1 hg hlast
    simp only [hno, if_false]
    refine ⟨hpath, rfl, rfl, ?_, ⟨fun _ => rfl, fun hn => absurd hlast hn⟩,
      ⟨fun _ => rfl, fun hn => absurd hlast hn⟩⟩
    intro k
    by_cases he : k = (m.idToPath id).attrId
    · simp [he, hlast]
    · simp [he]
  · have hyes : (m.idToAttr (m.idToPath id).attrId).refCount - 1 > 0 := hgt.2 hlast
    simp only [hyes, if_true]
    refine ⟨hpath, rfl, rfl, ?_, ⟨fun hl => absurd hl hlast, fun _ => rfl⟩,
      ⟨fun hl => absurd hl hlast, fun _ => rfl⟩⟩
    intro k
    by_cases he : k = (m.idToPath id).attrId
    · simp [he, hlast, hk]
    · simp [he]

variable {m' : AttributeManager A P} {last : Prop}

theorem Dropped.usersOf (h : Dropped m m' id last) (k : UInt32) :
    m'.usersOf k = m.usersOf k \ {id} := by
  ext i
  obtain ⟨ha, -, hu, -⟩ := h.idToPath i
  simp only [AttributeManager.usersOf, Set.mem_ofPred_eq, Set.mem_sdiff, Set.mem_singleton_iff]
  rw [ha, hu]
  tauto

theorem Dropped.shape (hd : Dropped m m' id last) (h : Shape m) (hu : (m.idToPath id).used = true)
    (hlast : last ↔ (m.usersOf (m.idToPath id).attrId).ncard = 1) : Shape m' where
  attrIds := by
    by_cases hl : last
    · rw [hd.attrIds.1 hl]
      refine (h.attrIds.put (h.path_attr id hu)).congr fun k => ?_
      rw [(hd.attr k).2.1]
      simp [hl]
    · rw [hd.attrIds.2 hl]
      refine h.attrIds.congr fun k => ?_
      rw [(hd.attr k).2.1]
      simp [hl]
  pathIds := by
    rw [hd.pathIds]
    exact (h.pathIds.put hu).congr fun i => (hd.idToPath i).2.2.1
  attr_map a k := by
    have hold := h.attr_map a k
    rw [(hd.attr k).1, (hd.attr k).2.1]
    by_cases hl : last
    · rw [hd.attrToId.1 hl]
      by_cases ha : a = (m.idToAttr (m.idToPath id).attrId).attrs
      · -- the id of this set is the one that goes
        have hmap := (h.attr_map a (m.idToPath id).attrId).2 ⟨h.path_attr id hu, ha.symm⟩
        subst ha
        simp only [Function.update_self, reduceCtorEq, false_iff]
        rintro ⟨⟨hk, hno⟩, he⟩
        have hmap' := (h.attr_map _ k).2 ⟨hk, he⟩
        exact hno ⟨hl, Option.some.inj (hmap'.symm.trans hmap)⟩
      · rw [Function.update_of_ne ha, hold]
        constructor
        · rintro ⟨hk, he⟩
          exact ⟨⟨hk, fun hc => ha (by rw [← he, hc.2])⟩, he⟩
        · rintro ⟨⟨hk, -⟩, he⟩
          exact ⟨hk, he⟩
    · rw [hd.attrToId.2 hl, hold]
      simp [hl]
  path_map k p i := by
    have hold := h.path_map k p i
    obtain ⟨ha, hp, hui, -⟩ := hd.idToPath i
    rw [ha, hp, hui, hd.pathToId]
    by_cases hkey : (k, p) = ((m.idToPath id).attrId, (m.idToPath id).path)
    · obtain ⟨rfl, rfl⟩ := Prod.mk.inj hkey
      have hmap := (h.path_map _ _ id).2 ⟨hu, rfl, rfl⟩
      simp only [Function.update_self, reduceCtorEq, false_iff]
      rintro ⟨⟨hi, hne⟩, ha', hp'⟩
      have hmap' := (h.path_map _ _ i).2 ⟨hi, ha', hp'⟩
      exact hne (Option.some.inj (hmap'.symm.trans hmap))
    · rw [Function.update_of_ne hkey, hold]
      constructor
      · rintro ⟨hi, ha', hp'⟩
        refine ⟨⟨hi, ?_⟩, ha', hp'⟩
        rintro rfl
        exact hkey (by rw [ha', hp'])
      · rintro ⟨⟨hi, -⟩, ha', hp'⟩
        exact ⟨hi, ha', hp'⟩
  path_attr i hi := by
    obtain ⟨ha, -, hui, -⟩ := hd.idToPath i
    obtain ⟨hi, hne⟩ := hui.1 hi
    rw [ha, (hd.attr _).2.1]
    refine ⟨h.path_attr i hi, ?_⟩
    rintro ⟨hl, he⟩
    -- two paths would use a set that has one
    obtain ⟨j, hj⟩ := Set.ncard_eq_one.1 (hlast.1 hl)
    have hid : id ∈ ({j} : Set UInt32) := hj ▸ ⟨hu, rfl⟩
    have hii : i ∈ ({j} : Set UInt32) := hj ▸ ⟨hi, he⟩
    exact hne (hii.trans hid.symm)
  attr_count k hk := by
    obtain ⟨-, huk, hrc⟩ := hd.attr k
    obtain ⟨hk, hno⟩ := huk.1 hk
    have hold := h.attr_count k hk
    rw [hrc, hd.usersOf]
    by_cases he : k = (m.idToPath id).attrId
    · have hmem : id ∈ m.usersOf k := ⟨hu, he.symm⟩
      have hpos : 0 < (m.usersOf k).ncard := (Set.ncard_pos (Set.toFinite _)).2 ⟨id, hmem⟩
      have hne : (m.idToAttr k).refCount ≠ 0 := by
        intro h0
        rw [h0] at hold
        change 0 = _ at hold
        omega
      rw [if_pos he, toNat_sub_one hne, Set.ncard_sdiff_singleton_of_mem hmem, hold]
    · have hout : id ∉ m.usersOf k := fun hmem => he hmem.2.symm
      rw [if_neg he, Set.sdiff_singleton_eq_self hout]
      exact hold

/-- **Releasing** takes a reference away. -/
theorem Inv.release (h : Inv m held) (hheld : 0 < refsIn held id) :
    Inv (m.release id) (held.eraseP fun r => r.id = id) := by
  have hu : (m.idToPath id).used = true := by
    by_contra hno
    rw [h.holds.idle id (Bool.eq_false_iff.2 hno)] at hheld
    exact lt_irrefl _ hheld
  have hlt : ¬ id.toNat ≥ m.pathIds.count := not_le.2 (h.shape.pathIds.lt_count id hu)
  have hcount := (h.holds.live id hu).1
  have hne : (m.idToPath id).refCount ≠ 0 := by
    intro h0
    rw [h0] at hcount
    change 0 = _ at hcount
    omega
  have hgt : (m.idToPath id).refCount - 1 > 0 ↔ 1 < refsIn held id := by
    rw [gt_iff_lt, UInt32.lt_iff_toNat_lt, toNat_sub_one hne, hcount]
    change 0 < _ ↔ _
    omega
  have hvalue : ∀ r ∈ held.eraseP fun r => r.id = id, m.get r.id = (r.attrs, r.path) :=
    fun r hr => h.holds.value r (List.mem_of_mem_eraseP hr)
  simp only [AttributeManager.release, hlt, if_false, hu, Bool.true_eq_false, hne, hgt]
  split_ifs with hone
  · refine ⟨h.shape.setRefCount _ _, ⟨?_, ?_, ?_⟩, ?_⟩
    · intro i hi
      rw [setRefCount_used] at hi
      rw [setRefCount_refCount, refsIn_eraseP]
      obtain ⟨hc, hpos⟩ := h.holds.live i hi
      by_cases he : i = id
      · subst he
        rw [if_pos rfl, if_pos rfl, toNat_sub_one hne, hc]
        exact ⟨rfl, by omega⟩
      · rw [if_neg he, if_neg he]
        exact ⟨hc, hpos⟩
    · intro i hi
      rw [setRefCount_used] at hi
      rw [refsIn_eraseP, h.holds.idle i hi, Nat.zero_sub]
    · intro r hr
      rw [setRefCount_get]
      exact hvalue r hr
    · intro k hk
      rw [setRefCount_usersOf]
      exact h.attr_live k hk
  · have hd := dropped_dropPath h.shape hu
    have hzero : refsIn (held.eraseP fun r => r.id = id) id = 0 := by
      rw [refsIn_eraseP, if_pos rfl]
      omega
    refine ⟨hd.shape h.shape hu Iff.rfl, ⟨?_, ?_, ?_⟩, ?_⟩
    · intro i hi
      obtain ⟨-, -, hui, hrc⟩ := hd.idToPath i
      obtain ⟨hi, he⟩ := hui.1 hi
      rw [hrc he, refsIn_eraseP, if_neg he]
      exact h.holds.live i hi
    · intro i hi
      by_cases he : i = id
      · rw [he, hzero]
      · have hno : (m.idToPath i).used = false := by
          by_contra hyes
          rw [(hd.idToPath i).2.2.1.2 ⟨Bool.not_eq_false _ ▸ hyes, he⟩] at hi
          cases hi
        rw [refsIn_eraseP, h.holds.idle i hno, Nat.zero_sub]
    · intro r hr
      obtain ⟨ha, hp, -, -⟩ := hd.idToPath r.id
      rw [get, ha, hp, (hd.attr _).1]
      exact hvalue r hr
    · intro k hk
      obtain ⟨hk, hno⟩ := (hd.attr k).2.1.1 hk
      rw [hd.usersOf]
      by_cases he : k = (m.idToPath id).attrId
      · -- the set has another path, or it would be gone
        have hmem : id ∈ m.usersOf k := ⟨hu, he.symm⟩
        refine (Set.ncard_pos (Set.toFinite _)).1 ?_
        rw [Set.ncard_sdiff_singleton_of_mem hmem]
        have hpos : 0 < (m.usersOf k).ncard := (Set.ncard_pos (Set.toFinite _)).2 ⟨id, hmem⟩
        have hone' : (m.usersOf k).ncard ≠ 1 := fun h1 => hno ⟨by rwa [← he], he⟩
        omega
      · have hout : id ∉ m.usersOf k := fun hmem => he hmem.2.symm
        rw [Set.sdiff_singleton_eq_self hout]
        exact h.attr_live k hk

end Release

end AttributeManager

/-! ## Runs -/

namespace Shared

open AttributeManager

variable {A P : Type*} [DecidableEq A] [DecidableEq P]

/-- What the manager promises for the references held. -/
structure HashConsed (s : Shared A P) : Prop where
  get : ∀ r ∈ s.held, s.manager.Valid r.id ∧ s.manager.get r.id = (r.attrs, r.path)
  ids : ∀ r ∈ s.held, ∀ r' ∈ s.held, r.id = r'.id ↔ r.attrs = r'.attrs ∧ r.path = r'.path
  attr_used : ∀ r ∈ s.held, (s.manager.idToAttr (s.manager.idToPath r.id).attrId).used = true
  attr_count : ∀ k, (s.manager.idToAttr k).used = true → (s.manager.idToAttr k).refCount.toNat =
    {id | 0 < s.refs id ∧ (s.manager.idToPath id).attrId = k}.ncard
  released : s.held = [] → ∀ id : UInt32,
    s.manager.pathIds.free.count id = (if id.toNat < s.manager.pathIds.count then 1 else 0) ∧
    s.manager.attrIds.free.count id = (if id.toNat < s.manager.attrIds.count then 1 else 0)

theorem inv_step {s : Shared A P} {op : AttrOp A P} (h : Inv s.manager s.held)
    (hop : s.Legal op ∧ s.Fits op) : Inv (s.step op).manager (s.step op).held := by
  cases op with
  | acquire attrs path => exact h.acquire attrs path hop.2.1 hop.2.2
  | retain id => exact h.retain id hop.2
  | release id => exact h.release hop.1

omit [DecidableEq A] [DecidableEq P] in
theorem live_iff {s : Shared A P} (h : Inv s.manager s.held) (id : UInt32) :
    0 < s.refs id ↔ (s.manager.idToPath id).used = true := by
  constructor
  · intro hpos
    by_contra hno
    have h0 : s.refs id = 0 := h.holds.idle id (Bool.eq_false_iff.2 hno)
    omega
  · exact fun hu => (h.holds.live id hu).2

omit [DecidableEq A] [DecidableEq P] in
theorem hashConsed_of_inv {s : Shared A P} (h : Inv s.manager s.held) : HashConsed s where
  get r hr := by
    have hu := h.holds.used hr
    exact ⟨⟨h.shape.pathIds.lt_count _ hu, hu, h.shape.attrIds.lt_count _ (h.shape.path_attr _ hu)⟩,
      h.holds.value r hr⟩
  ids r hr r' hr' := by
    have hv := h.holds.value r hr
    have hv' := h.holds.value r' hr'
    constructor
    · intro hid
      rw [← hid, hv] at hv'
      exact Prod.mk.inj hv'
    · rintro ⟨ha, hp⟩
      -- equal values have the same attribute id, and then the same path id
      have hu := h.holds.used hr
      have hu' := h.holds.used hr'
      have hmap := (h.shape.attr_map r.attrs _).2 ⟨h.shape.path_attr _ hu, congrArg Prod.fst hv⟩
      have hmap' := (h.shape.attr_map r.attrs _).2
        ⟨h.shape.path_attr _ hu', (congrArg Prod.fst hv').trans ha.symm⟩
      have hpath := (h.shape.path_map _ r.path r.id).2 ⟨hu, rfl, congrArg Prod.snd hv⟩
      have hpath' := (h.shape.path_map _ r.path r'.id).2
        ⟨hu', rfl, (congrArg Prod.snd hv').trans hp.symm⟩
      rw [← Option.some.inj (hmap.symm.trans hmap'), hpath] at hpath'
      exact Option.some.inj hpath'
  attr_used r hr := h.shape.path_attr _ (h.holds.used hr)
  attr_count k hk := by
    simp only [live_iff h]
    exact h.shape.attr_count k hk
  released hnil id := by
    have hpath : ∀ i, ¬ (s.manager.idToPath i).used = true := by
      intro i hu
      have hpos := (live_iff h i).2 hu
      rw [refs, hnil] at hpos
      exact absurd hpos (lt_irrefl 0)
    have hattr : ∀ k, ¬ (s.manager.idToAttr k).used = true := by
      intro k hk
      obtain ⟨i, hi, -⟩ := h.attr_live k hk
      exact hpath i hi
    exact ⟨h.shape.pathIds.count_free hpath id, h.shape.attrIds.count_free hattr id⟩

/-- **Hash-consing over runs.** -/
theorem hashConsed_run [Inhabited A] [Inhabited P] {ops : List (AttrOp A P)}
    (h : Along (fun s op => s.Legal op ∧ s.Fits op) step ⟨empty A P, []⟩ ops) :
    HashConsed (runFrom step ⟨empty A P, []⟩ ops) :=
  hashConsed_of_inv (Along.invariant (I := fun s => Inv s.manager s.held)
    (fun _ _ hs hop => inv_step hs hop) inv_empty h)

instance : Inhabited Attributes := ⟨{}⟩

instance : Inhabited Path := ⟨{}⟩

/-- A pair is acquired and retained, and released once. -/
theorem hashConsed_run_sample :
    HashConsed (runFrom step ⟨empty Attributes Path, []⟩ [.acquire {} {}, .retain 0, .release 0]) :=
  hashConsed_run ⟨⟨trivial, fun _ h => absurd h List.not_mem_nil, fun _ => ⟨0, 1, by decide, rfl, rfl⟩⟩,
    ⟨trivial, show 1 + 1 < 2 ^ 32 by decide⟩, ⟨show 0 < 2 by decide, trivial⟩, trivial⟩

/-! ### A count that wraps -/

section Wrap
variable (attrs : A) (path path' : P)

/-- `n` references to one pair, under the ids 0; nothing is known about another path. -/
structure Counted (n : ℕ) (s : Shared A P) : Prop where
  attrToId : s.manager.attrToId attrs = some 0
  idToAttr : s.manager.idToAttr 0 = ⟨attrs, 1, true⟩
  attrIds : s.manager.attrIds = ⟨[], 1⟩
  pathToId : s.manager.pathToId (0, path) = some 0
  pathToId' : s.manager.pathToId (0, path') = none
  idToPath : s.manager.idToPath 0 = ⟨path, 0, UInt32.ofNat n, true⟩
  pathIds : s.manager.pathIds = ⟨[], 1⟩
  held : s.held = List.replicate n ⟨0, attrs, path⟩

variable {attrs path path'}

theorem counted_one [Inhabited A] [Inhabited P] (hne : path' ≠ path) :
    Counted attrs path path' 1 (acquire ⟨empty A P, []⟩ attrs path) := by
  refine ⟨?_, ?_, rfl, ?_, ?_, ?_, rfl, rfl⟩ <;>
    simp [acquire, AttributeManager.acquire, acquireAttr, acquirePath, addPath, empty, IdPool.take,
      hne]

theorem Counted.acquire {n : ℕ} {s : Shared A P} (h : Counted attrs path path' n s) :
    Counted attrs path path' (n + 1) (s.acquire attrs path) := by
  have hacq : s.manager.acquire attrs path =
      (0, s.manager.setRefCount 0 (UInt32.ofNat n + 1)) := by
    simp only [AttributeManager.acquire, acquireAttr, h.attrToId, acquirePath, h.pathToId, h.idToPath]
  refine ⟨?_, ?_, ?_, ?_, ?_, ?_, ?_, ?_⟩ <;> simp only [Shared.acquire, hacq]
  · exact h.attrToId
  · exact h.idToAttr
  · exact h.attrIds
  · exact h.pathToId
  · exact h.pathToId'
  · simp [setRefCount, h.idToPath, UInt32.ofNat_add]
  · exact h.pathIds
  · rw [h.held]
    rfl

theorem counted_run [Inhabited A] [Inhabited P] (hne : path' ≠ path) (n : ℕ) :
    Counted attrs path path' (n + 1)
      (runFrom step ⟨empty A P, []⟩ (List.replicate (n + 1) (.acquire attrs path))) := by
  induction n with
  | zero => exact counted_one hne
  | succ n ih =>
    rw [List.replicate_succ', runFrom_concat]
    exact ih.acquire

theorem legal_replicate (n : ℕ) : ∀ (s : Shared A P),
    Along Legal step s (List.replicate n (.acquire attrs path)) := by
  induction n with
  | zero => exact fun _ => trivial
  | succ n ih => exact fun s => ⟨trivial, ih _⟩

/-- The count is 1 although the pair is held more often: the id goes with the next release, and
    another path takes it. -/
theorem Counted.get_reused {n : ℕ} {s : Shared A P} (h : Counted attrs path path' n s)
    (hn : UInt32.ofNat n = 1) (hne : path' ≠ path) :
    ((s.release 0).acquire attrs path').manager.get 0 = (attrs, path') := by
  have hpath : s.manager.idToPath 0 = ⟨path, 0, 1, true⟩ := by rw [h.idToPath, hn]
  have hrel : s.manager.release 0 = s.manager.dropPath 0 := by
    simp [AttributeManager.release, h.pathIds, hpath]
  have hattr : (s.manager.dropPath 0).attrToId attrs = none ∧
      (s.manager.dropPath 0).attrIds = ⟨[0], 1⟩ := by
    simp [dropPath, releaseAttr, hpath, h.idToAttr, h.attrIds, IdPool.put]
  have hfree : (s.manager.dropPath 0).pathIds = ⟨[0], 1⟩ ∧
      (s.manager.dropPath 0).pathToId (0, path') = none := by
    simp [dropPath, releaseAttr, hpath, h.idToAttr, h.attrIds, h.pathIds, IdPool.put, hne,
      h.pathToId']
  simp only [Shared.acquire, Shared.release, hrel, AttributeManager.acquire, acquireAttr, hattr.1,
    hattr.2, IdPool.take, acquirePath, hfree.1, hfree.2]
  simp [AttributeManager.get, addPath]

end Wrap

/-- `n` references to one pair, one release, and another path. -/
def wrapOps (n : ℕ) : List (AttrOp Attributes Path) :=
  List.replicate n (.acquire {} {}) ++ [.release 0, .acquire {} { nextHop := .ofV4 0x0A000002 }]

theorem wrapped {n : ℕ} (hn : UInt32.ofNat (n + 2) = 1) :
    Along Legal step ⟨empty Attributes Path, []⟩ (wrapOps (n + 2)) ∧
      ¬ HashConsed (runFrom step ⟨empty Attributes Path, []⟩ (wrapOps (n + 2))) := by
  have hne : ({ nextHop := .ofV4 0x0A000002 } : Path) ≠ {} := by decide
  have hcount : Counted ({} : Attributes) _ _ _ _ := counted_run hne (n + 1)
  have hheld : (runFrom step (⟨empty Attributes Path, []⟩ : Shared Attributes Path)
      (List.replicate (n + 2) (.acquire {} {}))).held = ⟨0, {}, {}⟩ :: ⟨0, {}, {}⟩ ::
        List.replicate n ⟨0, {}, {}⟩ := hcount.held
  unfold wrapOps
  rw [along_append, runFrom_append]
  generalize runFrom step (⟨empty Attributes Path, []⟩ : Shared Attributes Path)
    (List.replicate (n + 2) (.acquire {} {})) = s at *
  refine ⟨⟨legal_replicate _ _, ⟨?_, trivial, trivial⟩⟩, ?_⟩
  · change 0 < s.refs 0
    rw [refs, hheld]
    simp
  · intro h
    have hmem : (⟨0, {}, {}⟩ : AttrRef Attributes Path) ∈
        ((s.release 0).acquire {} { nextHop := .ofV4 0x0A000002 }).held := by
      simp [Shared.acquire, Shared.release, hheld]
    have hget := (h.get _ hmem).2
    change ((s.release 0).acquire {} { nextHop := .ofV4 0x0A000002 }).manager.get 0 = _ at hget
    rw [hcount.get_reused hn hne] at hget
    exact hne (congrArg Prod.snd hget)

/-- With `2 ^ 32 + 1` references to one pair the count has wrapped to 1. -/
theorem not_hashConsed_wrapped :
    Along Legal step ⟨empty Attributes Path, []⟩ (wrapOps (2 ^ 32 + 1)) ∧
      ¬ HashConsed (runFrom step ⟨empty Attributes Path, []⟩ (wrapOps (2 ^ 32 + 1))) :=
  wrapped (n := 2 ^ 32 - 1) (by decide)

end Shared

end VirtualRouter.Bgp
