/-
  The link-state database of an area (`routing/ospf/database/LsdbTable.cpp`).

  `dbStorage` owns the records; `db`, `typeDb` and `advDb` point into it.  A
  pointer is the address of a node of `dbStorage`, and a new node gets an address
  that no node had before.  The body of a record is a parameter.

  `purgeIf` erases from `db` alone.  The record stays in `dbStorage`, and since
  `upsertMeta` fills the indexes only for a key that `dbStorage` does not have,
  `db` never gets the key back.

  * `LsdbTable.upsertMeta`, `LsdbTable.erase`, `LsdbTable.ageAll`, `LsdbTable.purgeIf`;
  * `LsdbTable.Agree`: the indexes hold the keys of `dbStorage`;
  * `LsdbTable.Linked`: what holds in every state;
  * `consistent_iff`: the indexes agree as long as nothing is purged.
-/
import VirtualRouter.Lib.NestedMap
import VirtualRouter.Lib.Run

namespace VirtualRouter.Ospf

open NestedMap Run

structure LsaAdvKey where
  lsaType : UInt16
  advertisingRouter : UInt32
  deriving DecidableEq, Repr

structure LsaKey extends LsaAdvKey where
  linkStateId : UInt32
  deriving DecidableEq, Repr

/-- `LsaKey::operator<`. -/
def LsaKey.less (a b : LsaKey) : Bool :=
  if a.lsaType ≠ b.lsaType then a.lsaType < b.lsaType
  else if a.advertisingRouter ≠ b.advertisingRouter then a.advertisingRouter < b.advertisingRouter
  else a.linkStateId < b.linkStateId

structure LsaHeader where
  sequence : UInt32 := 0
  checksum : UInt16 := 0
  length : UInt16 := 0
  age : UInt16 := 0
  options : UInt8 := 0
  deriving DecidableEq, Repr

structure LsaRecord (Body : Type) where
  installTime : ℕ
  lastRefreshTime : ℕ
  header : LsaHeader
  body : Body
  incomingInterface : UInt32
  incomingNeighbor : UInt32
  flags : UInt8
  deriving DecidableEq, Repr

/-- `IncomingLsaContext`, as far as the table reads it. -/
structure IncomingLsaContext where
  key : LsaKey
  header : LsaHeader
  incomingInterface : UInt32 := 0
  incomingNeighbor : UInt32 := 0
  deriving DecidableEq, Repr

structure LsaNode (Body : Type) where
  addr : ℕ
  record : LsaRecord Body
  deriving DecidableEq, Repr

structure LsdbTable (Body : Type) where
  db : Map LsaKey ℕ := ∅
  typeDb : Map UInt32 (Map LsaKey ℕ) := ∅
  advDb : Map LsaAdvKey (Map UInt32 ℕ) := ∅
  dbStorage : Map LsaKey (LsaNode Body) := ∅
  /-- The first address that was not used yet. -/
  fresh : ℕ := 0

namespace LsdbTable

variable {Body : Type} (t : LsdbTable Body)

/-! ## Lookup -/

def deref (addr : ℕ) : Option (LsaRecord Body) :=
  (t.dbStorage.entries.find? fun e => e.2.addr = addr).map fun e => e.2.record

def find (key : LsaKey) : Option (LsaRecord Body) := (t.db.lookup key).bind t.deref

/-- `forEachInType`: the keys and the records that are visited.  The source does not check that the
    type has an entry. -/
def forEachInType (type : UInt32) : List (LsaKey × LsaRecord Body) :=
  ((t.typeDb.lookup type).getD ∅).entries.filterMap fun e => (t.deref e.2).map fun r => (e.1, r)

def forEachInAdv (advRtr : LsaAdvKey) : List (UInt32 × LsaRecord Body) :=
  ((t.advDb.lookup advRtr).getD ∅).entries.filterMap fun e => (t.deref e.2).map fun r => (e.1, r)

/-- `getIterableLSDB`: the records in the order of their keys. -/
def iterable : List (LsaKey × LsaRecord Body) :=
  (t.dbStorage.entries.map fun e => (e.1, e.2.record)).insertionSort fun a b => b.1.less a.1 = false

/-! ## Mutation -/

def eraseKey (key : LsaKey) : LsdbTable Body :=
  { t with
    db := t.db.erase key
    advDb := erase₂ t.advDb key.toLsaAdvKey key.linkStateId
    typeDb := erase₂ t.typeDb key.lsaType.toUInt32 key
    dbStorage := t.dbStorage.erase key }

def erase (key : LsaKey) : Bool × LsdbTable Body := ((t.dbStorage.lookup key).isSome, t.eraseKey key)

def clear : LsdbTable Body := { t with db := ∅, advDb := ∅, typeDb := ∅, dbStorage := ∅ }

/-- `upsertMeta` at the time `now`; a new record has the body `default`. -/
def upsertMeta [Inhabited Body] (lsa : IncomingLsaContext) (flags : UInt8) (now : ℕ) : LsdbTable Body :=
  match t.dbStorage.lookup lsa.key with
  | none =>
    let node : LsaNode Body := ⟨t.fresh, ⟨now, now, lsa.header, default, lsa.incomingInterface, lsa.incomingNeighbor, flags⟩⟩
    { db := t.db.insert lsa.key t.fresh
      advDb := insert₂ t.advDb lsa.key.toLsaAdvKey lsa.key.linkStateId t.fresh
      typeDb := insert₂ t.typeDb lsa.key.lsaType.toUInt32 lsa.key t.fresh
      dbStorage := t.dbStorage.insert lsa.key node
      fresh := t.fresh + 1 }
  | some node =>
    let updated := { node.record with
      header := lsa.header
      flags := flags
      incomingInterface := lsa.incomingInterface
      incomingNeighbor := lsa.incomingNeighbor
      lastRefreshTime := now }
    { t with dbStorage := t.dbStorage.insert lsa.key { node with record := updated } }

/-- `upsertBody`; `body` is what `emplaceBody` puts into the record. -/
def upsertBody [Inhabited Body] (lsa : IncomingLsaContext) (flags : UInt8) (now : ℕ) (body : Body) : LsdbTable Body :=
  let t := t.upsertMeta lsa flags now
  { t with dbStorage := mapVal t.dbStorage fun k node =>
      if k = lsa.key then { node with record := { node.record with body := body } } else node }

def saturatingAddAge (a b maxAge : UInt16) : UInt16 :=
  if a.toNat + b.toNat ≥ maxAge.toNat then maxAge else .ofNat (a.toNat + b.toNat)

/-- A node with its age advanced. -/
def aged (deltaAge maxAge : UInt16) (node : LsaNode Body) : LsaNode Body :=
  { node with record := { node.record with header := { node.record.header with
      age := saturatingAddAge node.record.header.age deltaAge maxAge } } }

/-- A step of the loop over `dbStorage`. -/
def ageStep (deltaAge maxAge : UInt16) (eraseExpired : Bool) (r : ℕ × LsdbTable Body) (key : LsaKey) :
    ℕ × LsdbTable Body :=
  match r.2.dbStorage.lookup key with
  | none => r
  | some node =>
    let node := aged deltaAge maxAge node
    let t := { r.2 with dbStorage := r.2.dbStorage.insert key node }
    if node.record.header.age ≥ maxAge then (r.1 + 1, if eraseExpired then t.eraseKey key else t) else (r.1, t)

/-- `ageAll`; the count is that of the expired records. -/
def ageAll (deltaAge maxAge : UInt16) (eraseExpired : Bool) : ℕ × LsdbTable Body :=
  (t.iterable.map Prod.fst).foldl (ageStep deltaAge maxAge eraseExpired) (0, t)

def purged (pred : LsaKey → LsaRecord Body → Bool) (key : LsaKey) (addr : ℕ) : Bool := (t.deref addr).any (pred key)

/-- `purgeIf`: the loop runs over `db` and erases from it. -/
def purgeIf (pred : LsaKey → LsaRecord Body → Bool) : ℕ × LsdbTable Body :=
  (t.db.entries.countP fun e => t.purged pred e.1 e.2, { t with db := reject t.db (t.purged pred) })

def purgeExpired (maxAge : UInt16) : ℕ × LsdbTable Body := t.purgeIf fun _ r => r.header.age ≥ maxAge

/-- The operations. -/
inductive Op (Body : Type) where
  | upsertMeta (lsa : IncomingLsaContext) (flags : UInt8) (now : ℕ)
  | upsertBody (lsa : IncomingLsaContext) (flags : UInt8) (now : ℕ) (body : Body)
  | erase (key : LsaKey)
  | ageAll (deltaAge maxAge : UInt16) (eraseExpired : Bool)
  | purgeIf (pred : LsaKey → LsaRecord Body → Bool)
  | purgeExpired (maxAge : UInt16)
  | clear

def step [Inhabited Body] (t : LsdbTable Body) : Op Body → LsdbTable Body
  | .upsertMeta lsa flags now => t.upsertMeta lsa flags now
  | .upsertBody lsa flags now body => t.upsertBody lsa flags now body
  | .erase key => (t.erase key).2
  | .ageAll deltaAge maxAge eraseExpired => (t.ageAll deltaAge maxAge eraseExpired).2
  | .purgeIf pred => (t.purgeIf pred).2
  | .purgeExpired maxAge => (t.purgeExpired maxAge).2
  | .clear => t.clear

/-! ## Agreement -/

/-- `dbStorage` has the key at this address. -/
def Owns (key : LsaKey) (addr : ℕ) : Prop := ∃ node, t.dbStorage.lookup key = some node ∧ node.addr = addr

/-- **The indexes agree**: they hold the keys of `dbStorage`, with pointers to its records. -/
structure Agree : Prop where
  db : ∀ key addr, t.db.lookup key = some addr ↔ t.Owns key addr
  typeDb : ∀ type key addr, lookup₂ t.typeDb type key = some addr ↔ key.lsaType.toUInt32 = type ∧ t.Owns key addr
  advDb : ∀ adv id addr, lookup₂ t.advDb adv id = some addr ↔ t.Owns ⟨adv, id⟩ addr

/-- The key is found by `find`, by the iterations over its type and its advertiser, and by the ordered
    iteration. -/
def Found (key : LsaKey) : Prop :=
  ∃ r, t.find key = some r ∧ (key, r) ∈ t.forEachInType key.lsaType.toUInt32 ∧
    (key.linkStateId, r) ∈ t.forEachInAdv key.toLsaAdvKey ∧ (key, r) ∈ t.iterable

/-- The indexes agree, and a key that is put in is found. -/
structure Consistent [Inhabited Body] : Prop where
  agree : t.Agree
  meta_found : ∀ lsa flags now, (t.upsertMeta lsa flags now).Found lsa.key
  body_found : ∀ lsa flags now body, (t.upsertBody lsa flags now body).Found lsa.key

/-- What every operation keeps: `typeDb` and `advDb` hold the keys of `dbStorage`, and `db` some of
    them. -/
structure Linked : Prop where
  db : ∀ key addr, t.db.lookup key = some addr → t.Owns key addr
  typeDb : ∀ type key addr, lookup₂ t.typeDb type key = some addr ↔ key.lsaType.toUInt32 = type ∧ t.Owns key addr
  advDb : ∀ adv id addr, lookup₂ t.advDb adv id = some addr ↔ t.Owns ⟨adv, id⟩ addr
  inj : ∀ key key' addr, t.Owns key addr → t.Owns key' addr → key = key'
  fresh : ∀ key addr, t.Owns key addr → addr < t.fresh

variable {t}

theorem Linked.agree_iff (h : t.Linked) : t.Agree ↔ ∀ key addr, t.Owns key addr → t.db.lookup key = some addr :=
  ⟨fun ha key addr => (ha.db key addr).2, fun hall =>
    ⟨fun key addr => ⟨h.db key addr, hall key addr⟩, h.typeDb, h.advDb⟩⟩

theorem linked_empty : ({} : LsdbTable Body).Linked where
  db key addr h := by cases h
  typeDb type key addr := by
    refine iff_of_false ?_ ?_
    · rintro ⟨⟩
    · rintro ⟨-, node, h, -⟩
      cases h
  advDb adv id addr := by
    refine iff_of_false ?_ ?_
    · rintro ⟨⟩
    · rintro ⟨node, h, -⟩
      cases h
  inj key key' addr h := by
    obtain ⟨node, h, -⟩ := h
    cases h
  fresh key addr h := by
    obtain ⟨node, h, -⟩ := h
    cases h

theorem linked_clear (t : LsdbTable Body) : t.clear.Linked :=
  { linked_empty with fresh := fun key addr h => absurd h (by rintro ⟨node, h, -⟩; cases h) }

theorem Linked.congr {t' : LsdbTable Body} (h : t.Linked) (hdb : t'.db = t.db) (htype : t'.typeDb = t.typeDb)
    (hadv : t'.advDb = t.advDb) (hfresh : t'.fresh = t.fresh) (howns : ∀ key addr, t'.Owns key addr ↔ t.Owns key addr) :
    t'.Linked where
  db key addr hk := (howns key addr).2 (h.db key addr (hdb ▸ hk))
  typeDb type key addr := by rw [htype, h.typeDb, howns]
  advDb adv id addr := by rw [hadv, h.advDb, howns]
  inj key key' addr hk hk' := h.inj key key' addr ((howns _ _).1 hk) ((howns _ _).1 hk')
  fresh key addr hk := hfresh ▸ h.fresh key addr ((howns _ _).1 hk)

theorem Agree.congr {t' : LsdbTable Body} (h : t.Agree) (hdb : t'.db = t.db) (htype : t'.typeDb = t.typeDb)
    (hadv : t'.advDb = t.advDb) (howns : ∀ key addr, t'.Owns key addr ↔ t.Owns key addr) : t'.Agree where
  db key addr := by rw [hdb, h.db, howns]
  typeDb type key addr := by rw [htype, h.typeDb, howns]
  advDb adv id addr := by rw [hadv, h.advDb, howns]

theorem owns_insert {t' : LsdbTable Body} {key : LsaKey} {node node' : LsaNode Body}
    (hnode : t.dbStorage.lookup key = some node) (haddr : node'.addr = node.addr)
    (ht' : t'.dbStorage = t.dbStorage.insert key node') (k : LsaKey) (addr : ℕ) : t'.Owns k addr ↔ t.Owns k addr := by
  rw [Owns, Owns, ht', lookup_insert_eq]
  split_ifs with hk
  · subst hk
    rw [hnode]
    simp [haddr]
  · exact Iff.rfl

/-! ## Erasing -/

theorem owns_eraseKey (key k : LsaKey) (addr : ℕ) : (t.eraseKey key).Owns k addr ↔ k ≠ key ∧ t.Owns k addr := by
  rw [Owns, Owns, eraseKey, lookup_erase_eq]
  split_ifs with hk
  · simp [hk]
  · simp [hk]

theorem Linked.eraseKey (h : t.Linked) (key : LsaKey) : (t.eraseKey key).Linked where
  db k addr hk := by
    rw [LsdbTable.eraseKey, lookup_erase_eq] at hk
    split_ifs at hk with heq
    exact (owns_eraseKey key k addr).2 ⟨heq, h.db k addr hk⟩
  typeDb type k addr := by
    rw [owns_eraseKey, LsdbTable.eraseKey, lookup_erase₂]
    split_ifs with heq
    · simp [heq.2]
    · rw [h.typeDb]
      constructor
      · rintro ⟨rfl, ho⟩
        exact ⟨rfl, fun hk => heq ⟨by rw [hk], hk⟩, ho⟩
      · rintro ⟨rfl, -, ho⟩
        exact ⟨rfl, ho⟩
  advDb adv id addr := by
    rw [owns_eraseKey, LsdbTable.eraseKey, lookup_erase₂]
    split_ifs with heq
    · obtain ⟨rfl, rfl⟩ := heq
      simp
    · rw [h.advDb]
      refine (and_iff_right fun hk => heq ?_).symm
      subst hk
      exact ⟨rfl, rfl⟩
  inj k k' addr hk hk' := h.inj k k' addr ((owns_eraseKey _ _ _).1 hk).2 ((owns_eraseKey _ _ _).1 hk').2
  fresh k addr hk := h.fresh k addr ((owns_eraseKey _ _ _).1 hk).2

theorem Agree.eraseKey (hl : t.Linked) (h : t.Agree) (key : LsaKey) : (t.eraseKey key).Agree := by
  refine (hl.eraseKey key).agree_iff.2 fun k addr hk => ?_
  obtain ⟨hne, ho⟩ := (owns_eraseKey key k addr).1 hk
  rw [LsdbTable.eraseKey, lookup_erase_eq, if_neg hne]
  exact (h.db k addr).2 ho

/-! ## Putting in -/

section
variable [Inhabited Body] {lsa : IncomingLsaContext} {flags : UInt8} {now : ℕ}

theorem owns_upsertMeta_none (hnone : t.dbStorage.lookup lsa.key = none) (k : LsaKey) (addr : ℕ) :
    (t.upsertMeta lsa flags now).Owns k addr ↔ (k = lsa.key ∧ addr = t.fresh) ∨ t.Owns k addr := by
  simp only [Owns, upsertMeta, hnone, lookup_insert_eq]
  split_ifs with hk
  · subst hk
    rw [hnone]
    simp [eq_comm]
  · simp [hk]

theorem owns_upsertMeta_some {node : LsaNode Body} (hnode : t.dbStorage.lookup lsa.key = some node) (k : LsaKey)
    (addr : ℕ) : (t.upsertMeta lsa flags now).Owns k addr ↔ t.Owns k addr := by
  obtain ⟨node', hstore, haddr⟩ : ∃ node' : LsaNode Body,
      (t.upsertMeta lsa flags now).dbStorage = t.dbStorage.insert lsa.key node' ∧ node'.addr = node.addr := by
    simp only [upsertMeta, hnode]
    exact ⟨_, rfl, rfl⟩
  exact owns_insert hnode haddr hstore k addr

theorem Linked.upsertMeta (h : t.Linked) : (t.upsertMeta lsa flags now).Linked := by
  cases hnode : t.dbStorage.lookup lsa.key with
  | some node =>
    have howns := @owns_upsertMeta_some _ t _ lsa flags now node hnode
    refine h.congr ?_ ?_ ?_ ?_ howns <;> rw [LsdbTable.upsertMeta, hnode]
  | none =>
    have howns := @owns_upsertMeta_none _ t _ lsa flags now hnode
    have hnot (addr : ℕ) : ¬ t.Owns lsa.key addr := by
      rintro ⟨node, hn, -⟩
      rw [hnode] at hn
      cases hn
    have hnew (k : LsaKey) : ¬ t.Owns k t.fresh := fun hk => lt_irrefl _ (h.fresh k _ hk)
    constructor
    · intro k addr hk
      rw [howns]
      simp only [LsdbTable.upsertMeta, hnode, lookup_insert_eq] at hk
      split_ifs at hk with heq
      · exact Or.inl ⟨heq, (Option.some.inj hk).symm⟩
      · exact Or.inr (h.db k addr hk)
    · intro type k addr
      rw [howns]
      simp only [LsdbTable.upsertMeta, hnode, lookup_insert₂]
      split_ifs with heq
      · obtain ⟨rfl, rfl⟩ := heq
        simp [hnot, eq_comm]
      · rw [h.typeDb]
        constructor
        · rintro ⟨hty, ho⟩
          exact ⟨hty, Or.inr ho⟩
        · rintro ⟨rfl, ⟨rfl, -⟩ | ho⟩
          · exact absurd ⟨rfl, rfl⟩ heq
          · exact ⟨rfl, ho⟩
    · intro adv id addr
      rw [howns]
      simp only [LsdbTable.upsertMeta, hnode, lookup_insert₂]
      split_ifs with heq
      · obtain ⟨rfl, rfl⟩ := heq
        simp [hnot, eq_comm]
      · rw [h.advDb]
        refine (or_iff_right ?_).symm
        rintro ⟨hk, -⟩
        rw [← hk] at heq
        exact heq ⟨rfl, rfl⟩
    · intro k k' addr hk hk'
      rw [howns] at hk hk'
      rcases hk with ⟨rfl, rfl⟩ | hk
      · rcases hk' with ⟨rfl, -⟩ | hk'
        · rfl
        · exact absurd hk' (hnew _)
      · rcases hk' with ⟨rfl, rfl⟩ | hk'
        · exact absurd hk (hnew _)
        · exact h.inj k k' addr hk hk'
    · intro k addr hk
      rw [howns] at hk
      simp only [LsdbTable.upsertMeta, hnode]
      rcases hk with ⟨-, rfl⟩ | hk
      · exact Nat.lt_succ_self _
      · exact Nat.lt_succ_of_lt (h.fresh k addr hk)

theorem Agree.upsertMeta (hl : t.Linked) (h : t.Agree) : (t.upsertMeta lsa flags now).Agree := by
  refine hl.upsertMeta.agree_iff.2 fun k addr hk => ?_
  cases hnode : t.dbStorage.lookup lsa.key with
  | some node =>
    rw [owns_upsertMeta_some hnode] at hk
    simp only [LsdbTable.upsertMeta, hnode]
    exact (h.db k addr).2 hk
  | none =>
    rw [owns_upsertMeta_none hnode] at hk
    simp only [LsdbTable.upsertMeta, hnode, lookup_insert_eq]
    split_ifs with heq
    · subst heq
      rcases hk with ⟨-, rfl⟩ | ⟨node, hn, -⟩
      · rfl
      · rw [hnode] at hn
        cases hn
    · exact (h.db k addr).2 (hk.resolve_left fun hk => heq hk.1)

theorem owns_upsertBody (body : Body) (k : LsaKey) (addr : ℕ) :
    (t.upsertBody lsa flags now body).Owns k addr ↔ (t.upsertMeta lsa flags now).Owns k addr := by
  simp only [Owns, upsertBody, lookup_mapVal]
  constructor
  · rintro ⟨node, hnode, rfl⟩
    obtain ⟨node', hnode', rfl⟩ := Option.map_eq_some_iff.1 hnode
    refine ⟨node', hnode', ?_⟩
    split_ifs <;> rfl
  · rintro ⟨node, hnode, rfl⟩
    refine ⟨_, Option.map_eq_some_iff.2 ⟨node, hnode, rfl⟩, ?_⟩
    split_ifs <;> rfl

theorem Linked.upsertBody (h : t.Linked) (body : Body) : (t.upsertBody lsa flags now body).Linked :=
  h.upsertMeta.congr rfl rfl rfl rfl (owns_upsertBody body)

theorem Agree.upsertBody (hl : t.Linked) (h : t.Agree) (body : Body) : (t.upsertBody lsa flags now body).Agree :=
  (h.upsertMeta hl).congr rfl rfl rfl (owns_upsertBody body)

end

/-! ## Aging -/

theorem ageStep_cases (deltaAge maxAge : UInt16) (eraseExpired : Bool) (r : ℕ × LsdbTable Body) (key : LsaKey) :
    ∃ t' : LsdbTable Body, (t'.db = r.2.db ∧ t'.typeDb = r.2.typeDb ∧ t'.advDb = r.2.advDb ∧ t'.fresh = r.2.fresh ∧
      ∀ k addr, t'.Owns k addr ↔ r.2.Owns k addr) ∧
      ((ageStep deltaAge maxAge eraseExpired r key).2 = t' ∨
        (ageStep deltaAge maxAge eraseExpired r key).2 = t'.eraseKey key) := by
  rw [ageStep]
  cases hnode : r.2.dbStorage.lookup key with
  | none => exact ⟨r.2, ⟨rfl, rfl, rfl, rfl, fun _ _ => Iff.rfl⟩, Or.inl rfl⟩
  | some node =>
    obtain ⟨t', ht'⟩ : ∃ t', t' = { r.2 with dbStorage := r.2.dbStorage.insert key (aged deltaAge maxAge node) } :=
      ⟨_, rfl⟩
    have howns := @owns_insert _ r.2 t' key node (aged deltaAge maxAge node) hnode rfl (by rw [ht'])
    refine ⟨t', ⟨by rw [ht'], by rw [ht'], by rw [ht'], by rw [ht'], howns⟩, ?_⟩
    dsimp only
    rw [← ht']
    split_ifs
    · exact Or.inr rfl
    · exact Or.inl rfl
    · exact Or.inl rfl

theorem ageAll_induction {P : LsdbTable Body → Prop} (ht : P t)
    (hcongr : ∀ t t' : LsdbTable Body, P t → t'.db = t.db → t'.typeDb = t.typeDb → t'.advDb = t.advDb →
      t'.fresh = t.fresh → (∀ k addr, t'.Owns k addr ↔ t.Owns k addr) → P t')
    (herase : ∀ (t : LsdbTable Body) key, P t → P (t.eraseKey key)) (deltaAge maxAge : UInt16) (eraseExpired : Bool) :
    P (t.ageAll deltaAge maxAge eraseExpired).2 := by
  rw [ageAll]
  generalize t.iterable.map Prod.fst = keys
  have hfold (r : ℕ × LsdbTable Body) (hr : P r.2) : P (keys.foldl (ageStep deltaAge maxAge eraseExpired) r).2 := by
    induction keys generalizing r with
    | nil => exact hr
    | cons key keys ih =>
      refine ih _ ?_
      obtain ⟨t', ⟨hdb, htype, hadv, hfresh, howns⟩, heq | heq⟩ := ageStep_cases deltaAge maxAge eraseExpired r key
      · exact heq ▸ hcongr r.2 t' hr hdb htype hadv hfresh howns
      · exact heq ▸ herase t' key (hcongr r.2 t' hr hdb htype hadv hfresh howns)
  exact hfold (0, t) ht

theorem Linked.ageAll (h : t.Linked) (deltaAge maxAge : UInt16) (eraseExpired : Bool) :
    (t.ageAll deltaAge maxAge eraseExpired).2.Linked :=
  ageAll_induction h (fun _ _ h => h.congr) (fun _ key h => h.eraseKey key) deltaAge maxAge eraseExpired

theorem Agree.ageAll (hl : t.Linked) (h : t.Agree) (deltaAge maxAge : UInt16) (eraseExpired : Bool) :
    (t.ageAll deltaAge maxAge eraseExpired).2.Agree := by
  refine (ageAll_induction (P := fun t => t.Linked ∧ t.Agree) ⟨hl, h⟩ ?_ ?_ deltaAge maxAge eraseExpired).2
  · rintro t t' ⟨hl, h⟩ hdb htype hadv hfresh howns
    exact ⟨hl.congr hdb htype hadv hfresh howns, h.congr hdb htype hadv howns⟩
  · rintro t key ⟨hl, h⟩
    exact ⟨hl.eraseKey key, h.eraseKey hl key⟩

/-! ## Purging -/

theorem Linked.purgeIf (h : t.Linked) (pred : LsaKey → LsaRecord Body → Bool) : (t.purgeIf pred).2.Linked where
  db key addr hk := by
    have hlook : (reject t.db (t.purged pred)).lookup key = some addr := hk
    rw [lookup_reject, Option.filter_eq_some_iff] at hlook
    exact h.db key addr hlook.1
  typeDb := h.typeDb
  advDb := h.advDb
  inj := h.inj
  fresh := h.fresh

def PurgesNothing (t : LsdbTable Body) : Op Body → Prop
  | .purgeIf pred => ∀ key r, t.find key = some r → pred key r = false
  | .purgeExpired maxAge => ∀ key r, t.find key = some r → r.header.age < maxAge
  | _ => True

theorem Linked.deref_eq (h : t.Linked) {key : LsaKey} {node : LsaNode Body} (hnode : t.dbStorage.lookup key = some node) :
    t.deref node.addr = some node.record := by
  have hmem := AList.mem_lookup_iff.1 hnode
  rw [deref]
  cases hfind : t.dbStorage.entries.find? fun e => decide (e.2.addr = node.addr) with
  | none =>
    rw [List.find?_eq_none] at hfind
    exact absurd (hfind _ hmem) (by simp)
  | some e =>
    -- no other record is at the address
    have haddr : e.2.addr = node.addr := by simpa using List.find?_some hfind
    have he : t.dbStorage.lookup e.1 = some e.2 := AList.mem_lookup_iff.2 (List.mem_of_find?_eq_some hfind)
    have hkey := h.inj e.1 key node.addr ⟨e.2, he, haddr⟩ ⟨node, hnode, rfl⟩
    rw [hkey, hnode] at he
    rw [Option.map_some, ← Option.some.inj he]

theorem Agree.purgeIf_iff (hl : t.Linked) (h : t.Agree) (pred : LsaKey → LsaRecord Body → Bool) :
    (t.purgeIf pred).2.Agree ↔ ∀ key r, t.find key = some r → pred key r = false := by
  have hlookup (key : LsaKey) : (t.purgeIf pred).2.db.lookup key = (t.db.lookup key).filter fun a => !t.purged pred key a :=
    lookup_reject _ _ _
  rw [(hl.purgeIf pred).agree_iff]
  constructor
  · intro hall key r hfind
    obtain ⟨addr, hkey, hr⟩ := Option.bind_eq_some_iff.1 hfind
    have hstays := hall key addr ((h.db key addr).1 hkey)
    rw [hlookup, Option.filter_eq_some_iff, purged, hr] at hstays
    simpa using hstays.2
  · intro hall key addr ho
    have hkey := (h.db key addr).2 ho
    rw [hlookup, hkey, Option.filter_eq_some_iff]
    refine ⟨rfl, ?_⟩
    obtain ⟨node, hnode, rfl⟩ := ho
    have hr := hl.deref_eq hnode
    have hfalse := hall key node.record (by rw [find, hkey, Option.bind_some, hr])
    rw [purged, hr]
    simpa using hfalse

/-! ## Runs -/

theorem Agree.found (hl : t.Linked) (h : t.Agree) {key : LsaKey} {addr : ℕ} (ho : t.Owns key addr) : t.Found key := by
  have hdb := (h.db key addr).2 ho
  have htype := (h.typeDb _ key addr).2 ⟨rfl, ho⟩
  have hadv := (h.advDb key.toLsaAdvKey key.linkStateId addr).2 ho
  obtain ⟨node, hnode, rfl⟩ := ho
  have hr := hl.deref_eq hnode
  refine ⟨node.record, ?_, ?_, ?_, ?_⟩
  · rw [find, hdb, Option.bind_some, hr]
  · rw [← lookup_getD] at htype
    refine List.mem_filterMap.2 ⟨⟨key, node.addr⟩, AList.mem_lookup_iff.1 htype, ?_⟩
    rw [hr]
    rfl
  · rw [← lookup_getD] at hadv
    refine List.mem_filterMap.2 ⟨⟨key.linkStateId, node.addr⟩, AList.mem_lookup_iff.1 hadv, ?_⟩
    rw [hr]
    rfl
  · rw [iterable, List.mem_insertionSort]
    exact List.mem_map.2 ⟨⟨key, node⟩, AList.mem_lookup_iff.1 hnode, rfl⟩

theorem agree_clear (t : LsdbTable Body) : t.clear.Agree := by
  have howns (key : LsaKey) (addr : ℕ) : ¬ t.clear.Owns key addr := by
    rintro ⟨node, h, -⟩
    cases h
  constructor
  · exact fun key addr => iff_of_false (by rintro ⟨⟩) (howns key addr)
  · exact fun type key addr => iff_of_false (by rintro ⟨⟩) fun h => howns key addr h.2
  · exact fun adv id addr => iff_of_false (by rintro ⟨⟩) (howns _ addr)

theorem agree_empty : ({} : LsdbTable Body).Agree := agree_clear {}

section
variable [Inhabited Body]

theorem Linked.step (h : t.Linked) (op : Op Body) : (t.step op).Linked := by
  cases op with
  | upsertMeta lsa flags now => exact h.upsertMeta
  | upsertBody lsa flags now body => exact h.upsertBody body
  | erase key => exact h.eraseKey key
  | ageAll deltaAge maxAge eraseExpired => exact h.ageAll deltaAge maxAge eraseExpired
  | purgeIf pred => exact h.purgeIf pred
  | purgeExpired maxAge => exact h.purgeIf _
  | clear => exact linked_clear t

/-- **One operation** keeps the agreement exactly when it purges nothing. -/
theorem Agree.step_iff (hl : t.Linked) (h : t.Agree) (op : Op Body) : (t.step op).Agree ↔ PurgesNothing t op := by
  cases op with
  | upsertMeta lsa flags now => exact iff_of_true (h.upsertMeta hl) trivial
  | upsertBody lsa flags now body => exact iff_of_true (h.upsertBody hl body) trivial
  | erase key => exact iff_of_true (h.eraseKey hl key) trivial
  | ageAll deltaAge maxAge eraseExpired => exact iff_of_true (h.ageAll hl deltaAge maxAge eraseExpired) trivial
  | purgeIf pred => exact h.purgeIf_iff hl pred
  | purgeExpired maxAge =>
    refine (h.purgeIf_iff hl _).trans (forall_congr' fun key => forall_congr' fun r => imp_congr_right fun _ => ?_)
    rw [decide_eq_false_iff_not, ge_iff_le, UInt16.not_le]
  | clear => exact iff_of_true (agree_clear t) trivial

theorem exists_owns_upsertMeta (lsa : IncomingLsaContext) (flags : UInt8) (now : ℕ) :
    ∃ addr, (t.upsertMeta lsa flags now).Owns lsa.key addr := by
  cases hnode : t.dbStorage.lookup lsa.key with
  | none => exact ⟨t.fresh, (owns_upsertMeta_none hnode _ _).2 (Or.inl ⟨rfl, rfl⟩)⟩
  | some node => exact ⟨node.addr, (owns_upsertMeta_some hnode _ _).2 ⟨node, hnode, rfl⟩⟩

theorem Agree.consistent (hl : t.Linked) (h : t.Agree) : t.Consistent where
  agree := h
  meta_found lsa flags now := by
    obtain ⟨addr, ho⟩ := exists_owns_upsertMeta (t := t) lsa flags now
    exact (h.upsertMeta hl).found hl.upsertMeta ho
  body_found lsa flags now body := by
    obtain ⟨addr, ho⟩ := exists_owns_upsertMeta (t := t) lsa flags now
    exact (h.upsertBody hl body).found (hl.upsertBody body) ((owns_upsertBody body _ _).2 ho)

/-- **When the indexes agree throughout**: as long as no record is purged. -/
theorem consistent_iff (ops : List (Op Body)) :
    (∀ ps, ps <+: ops → (runFrom step ({} : LsdbTable Body) ps).Consistent) ↔ Along PurgesNothing step {} ops := by
  have hlinked : ({} : LsdbTable Body).Linked := linked_empty
  have hstep (t : LsdbTable Body) (op : Op Body) (_ : True) (hl : t.Linked) (h : t.Consistent) :
      (t.step op).Consistent ↔ PurgesNothing t op := by
    rw [← h.agree.step_iff hl]
    exact ⟨Consistent.agree, fun ha => ha.consistent (hl.step op)⟩
  exact (along_iff_everywhere (fun t op (h : t.Linked) => h.step op) hstep (fun _ _ => trivial) hlinked
    (agree_empty.consistent hlinked)).symm

end

def expiredLsa : IncomingLsaContext where
  key := ⟨⟨1, 9⟩, 9⟩
  header := { age := 3600 }

/-- A record is purged, and `find` does not see its key any more after it is put in again. -/
theorem not_consistent_expired :
    ¬ ∀ ps, ps <+: [Op.upsertMeta expiredLsa 0 0, .purgeExpired 3600, .upsertMeta expiredLsa 0 1] →
      (runFrom step ({} : LsdbTable Unit) ps).Consistent := by
  intro h
  obtain ⟨r, hr, -⟩ := (h [.upsertMeta expiredLsa 0 0, .purgeExpired 3600] ⟨_, rfl⟩).meta_found expiredLsa 0 1
  have hnone : ((runFrom step ({} : LsdbTable Unit)
      [.upsertMeta expiredLsa 0 0, .purgeExpired 3600]).upsertMeta expiredLsa 0 1).find expiredLsa.key = none := by
    decide
  rw [hnone] at hr
  cases hr

end LsdbTable

end VirtualRouter.Ospf
