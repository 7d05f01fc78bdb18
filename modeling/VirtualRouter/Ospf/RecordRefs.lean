/-
  The handles of LSA records (`LsaRecordRef` in `ospf/database/LSDB.hpp`).

  * `RecordRefs.step`: the operations of the database, and what happens to a handle;
  * `RecordRefs.Kept`: the counts are those of the handles, and no record in use is dropped;
  * `RecordRefs.Allowed`: nothing is dropped while a handle points to it, and no handle is
    made without a record where the memory holds a pointer;
  * `RecordRefs.kept_of_allowed`: the counts are kept in every run along it.

  The handles of all queues and lists are numbered.  The default constructor leaves the pointer as it
  is, and no operation of the database reads a count.
-/
import VirtualRouter.Lib.RefCount
import VirtualRouter.Ospf.LsdbTable

namespace VirtualRouter.Ospf

open Run NestedMap RefCount

/-- The database with the counts of its records, by their addresses, and the pointers of the handles. -/
structure RecordRefs (Body : Type) where
  table : LsdbTable Body := {}
  refCnt : ℕ → UInt32 := fun _ => 0
  handles : Map ℕ (Option ℕ) := ∅

namespace RecordRefs

variable {Body : Type} [Inhabited Body] (s : RecordRefs Body)

/-- An operation of the database, or of a handle. -/
inductive Event (Body : Type) where
  | table (op : LsdbTable.Op Body)
  /-- `LsaRecordRef(key, record)`, for the record of the key. -/
  | construct (i : ℕ) (key : LsaKey)
  /-- `LsaRecordRef()`; `memory` is what the pointer was before. -/
  | constructDefault (i : ℕ) (memory : Option ℕ)
  | constructCopy (i j : ℕ)
  | constructMove (i j : ℕ)
  | assignCopy (i j : ℕ)
  | assignMove (i j : ℕ)
  | destroy (i : ℕ)

/-- An operation of the database; the count of a new record is 0. -/
def tableStep (op : LsdbTable.Op Body) : RecordRefs Body :=
  { s with
    table := s.table.step op
    refCnt := fun a => if s.table.fresh ≤ a then 0 else s.refCnt a }

/-- The handle `i` is made with the pointer `p`, which is counted. -/
def make (i : ℕ) (p : Option ℕ) : RecordRefs Body :=
  { s with refCnt := inc p s.refCnt, handles := s.handles.insert i p }

/-- One event; one that needs a handle that is not there does not happen, nor does one that makes a
    handle that is there. -/
def step (s : RecordRefs Body) : Event Body → RecordRefs Body
  | .table op => s.tableStep op
  | .construct i key =>
    match s.handles.lookup i, s.table.dbStorage.lookup key with
    | none, some node => s.make i (some node.addr)
    | _, _ => s
  | .constructDefault i memory =>
    match s.handles.lookup i with
    | none => { s with handles := s.handles.insert i memory }
    | some _ => s
  | .constructCopy i j =>
    match s.handles.lookup i, s.handles.lookup j with
    | none, some p => s.make i p
    | _, _ => s
  | .constructMove i j =>
    match s.handles.lookup i, s.handles.lookup j with
    | none, some p => { s with handles := (s.handles.insert i p).insert j none }
    | _, _ => s
  | .assignCopy i j =>
    match s.handles.lookup i, s.handles.lookup j with
    | some p, some q =>
      if i = j then s
      else { s with refCnt := inc q (dec p s.refCnt), handles := s.handles.insert i q }
    | _, _ => s
  | .assignMove i j =>
    match s.handles.lookup i, s.handles.lookup j with
    | some p, some q =>
      if i = j then s
      else { s with refCnt := dec p s.refCnt, handles := (s.handles.insert i q).insert j none }
    | _, _ => s
  | .destroy i =>
    match s.handles.lookup i with
    | some p => { s with refCnt := dec p s.refCnt, handles := s.handles.erase i }
    | none => s

/-! ## What is to hold -/

/-- Each count is the number of handles that point to the record. -/
def Exact : Prop := ∀ key addr, s.table.Owns key addr → (s.refCnt addr).toNat = holders s.handles addr

/-- **The counts are kept** in this step: they are right after it, and no record that it removes was
    counted. -/
structure Kept (s : RecordRefs Body) (e : Event Body) : Prop where
  exact : (s.step e).Exact
  unused : ∀ key addr, s.table.Owns key addr → ¬ (s.step e).table.Owns key addr → s.refCnt addr = 0

def Drops (key : LsaKey) (node : LsaNode Body) : LsdbTable.Op Body → Prop
  | .erase k => key = k
  | .ageAll deltaAge maxAge eraseExpired =>
    eraseExpired ∧ maxAge ≤ LsdbTable.saturatingAddAge node.record.header.age deltaAge maxAge
  | .clear => True
  | _ => False

/-- A record that is removed has the count 0; the default constructor finds a null pointer; and there
    are fewer handles than a count can hold. -/
def Allowed (s : RecordRefs Body) : Event Body → Prop
  | .table op => ∀ key node, s.table.dbStorage.lookup key = some node → Drops key node op →
    s.refCnt node.addr = 0
  | .constructDefault _ memory => memory = none ∧ s.handles.entries.length + 1 < 2 ^ 32
  | .construct _ _ | .constructCopy _ _ | .constructMove _ _ => s.handles.entries.length + 1 < 2 ^ 32
  | _ => True

end RecordRefs

/-! ## The records that an operation keeps -/

namespace LsdbTable

variable {Body : Type} {t : LsdbTable Body}

theorem ageStep_lookup_ne {deltaAge maxAge : UInt16} {eraseExpired : Bool} {r : ℕ × LsdbTable Body}
    {key k : LsaKey} (hne : key ≠ k) :
    (ageStep deltaAge maxAge eraseExpired r k).2.dbStorage.lookup key = r.2.dbStorage.lookup key := by
  rw [ageStep]
  cases hnode : r.2.dbStorage.lookup k with
  | none => rfl
  | some node =>
    dsimp only
    split_ifs
    · rw [eraseKey, AList.lookup_erase_ne hne, AList.lookup_insert_ne hne]
    · exact AList.lookup_insert_ne hne
    · exact AList.lookup_insert_ne hne

theorem ageStep_owns {deltaAge maxAge : UInt16} {eraseExpired : Bool} {r : ℕ × LsdbTable Body}
    {key : LsaKey} {node : LsaNode Body} (hnode : r.2.dbStorage.lookup key = some node)
    (hage : eraseExpired = true → ¬ maxAge ≤ saturatingAddAge node.record.header.age deltaAge maxAge) :
    (ageStep deltaAge maxAge eraseExpired r key).2.Owns key node.addr := by
  rw [ageStep, hnode]
  dsimp only
  split_ifs with hexpired herase
  · exact absurd hexpired (hage herase)
  · exact ⟨_, AList.lookup_insert _, rfl⟩
  · exact ⟨_, AList.lookup_insert _, rfl⟩

theorem foldl_ageStep_owns {deltaAge maxAge : UInt16} {eraseExpired : Bool} {key : LsaKey}
    {node : LsaNode Body} {keys : List LsaKey} (hnodup : keys.Nodup)
    (hage : eraseExpired = true → ¬ maxAge ≤ saturatingAddAge node.record.header.age deltaAge maxAge) :
    ∀ r : ℕ × LsdbTable Body, (key ∈ keys → r.2.dbStorage.lookup key = some node) →
      r.2.Owns key node.addr →
      (keys.foldl (ageStep deltaAge maxAge eraseExpired) r).2.Owns key node.addr := by
  induction keys with
  | nil => exact fun r _ ho => ho
  | cons k keys ih =>
    intro r hlook ho
    obtain ⟨hk, hnodup'⟩ := List.nodup_cons.1 hnodup
    refine ih hnodup' _ ?_ ?_
    · intro hmem
      have hne : key ≠ k := by
        rintro rfl
        exact hk hmem
      rw [ageStep_lookup_ne hne]
      exact hlook (List.mem_cons_of_mem k hmem)
    · by_cases hne : key = k
      · subst hne
        exact ageStep_owns (hlook List.mem_cons_self) hage
      · rw [Owns, ageStep_lookup_ne hne]
        exact ho

theorem nodup_iterable (t : LsdbTable Body) : (t.iterable.map Prod.fst).Nodup := by
  have hperm := (List.perm_insertionSort (fun a b : LsaKey × LsaRecord Body => b.1.less a.1 = false)
    (t.dbStorage.entries.map fun e => (e.1, e.2.record))).map Prod.fst
  rw [iterable]
  refine hperm.nodup_iff.2 ?_
  rw [List.map_map]
  exact t.dbStorage.nodupKeys

variable [Inhabited Body]

theorem owns_step_of_not_drops {op : Op Body} {key : LsaKey} {node : LsaNode Body}
    (hnode : t.dbStorage.lookup key = some node) (h : ¬ RecordRefs.Drops key node op) :
    (t.step op).Owns key node.addr := by
  have ho : t.Owns key node.addr := ⟨node, hnode, rfl⟩
  have hmeta : ∀ lsa flags now, (t.upsertMeta lsa flags now).Owns key node.addr := by
    intro lsa flags now
    cases hlsa : t.dbStorage.lookup lsa.key with
    | none => exact (owns_upsertMeta_none hlsa _ _).2 (Or.inr ho)
    | some node' => exact (owns_upsertMeta_some hlsa _ _).2 ho
  cases op with
  | upsertMeta lsa flags now => exact hmeta lsa flags now
  | upsertBody lsa flags now body => exact (owns_upsertBody body _ _).2 (hmeta lsa flags now)
  | erase k => exact (owns_eraseKey k key _).2 ⟨h, ho⟩
  | ageAll deltaAge maxAge eraseExpired =>
    exact foldl_ageStep_owns t.nodup_iterable (fun he hage => h ⟨he, hage⟩) (0, t) (fun _ => hnode) ho
  | purgeIf pred => exact ho
  | purgeExpired maxAge => exact ho
  | clear => exact absurd trivial h

end LsdbTable

namespace RecordRefs

variable {Body : Type} {s : RecordRefs Body}

/-! ## The invariant -/

/-- The counters are right, the handles point to records, and there are fewer than a count can hold. -/
structure Inv (s : RecordRefs Body) : Prop where
  linked : s.table.Linked
  counted : Counted s.handles s.refCnt
  pointed : ∀ i addr, s.handles.lookup i = some (some addr) → ∃ key, s.table.Owns key addr
  few : s.handles.entries.length < 2 ^ 32

theorem Inv.start : ({} : RecordRefs Body).Inv where
  linked := LsdbTable.linked_empty
  counted := counted_empty
  pointed i addr h := by cases h
  few := show 0 < 2 ^ 32 by decide

theorem Inv.exact (h : s.Inv) : s.Exact := fun _ addr _ => h.counted.toNat_eq h.few addr

theorem holders_pos {m : Map ℕ (Option ℕ)} {i addr : ℕ} (h : m.lookup i = some (some addr)) :
    0 < holders m addr := by
  have := holders_erase h addr
  rw [points, if_pos rfl] at this
  omega

theorem Inv.handles (h : s.Inv) {refCnt : ℕ → UInt32} {m : Map ℕ (Option ℕ)} (hcounted : Counted m refCnt)
    (hpointed : ∀ i addr, m.lookup i = some (some addr) → ∃ key, s.table.Owns key addr)
    (hfew : m.entries.length < 2 ^ 32) : Inv { s with refCnt, handles := m } :=
  ⟨h.linked, hcounted, hpointed, hfew⟩

theorem Inv.pointed_insert (h : s.Inv) {i : ℕ} {p : Option ℕ}
    (hp : ∀ addr, p = some addr → ∃ key, s.table.Owns key addr) (k addr : ℕ)
    (hk : (s.handles.insert i p).lookup k = some (some addr)) : ∃ key, s.table.Owns key addr := by
  rw [lookup_insert_eq] at hk
  split_ifs at hk
  · exact hp addr (Option.some.inj hk)
  · exact h.pointed k addr hk

theorem Inv.pointed_of (h : s.Inv) {j : ℕ} {p : Option ℕ} (hj : s.handles.lookup j = some p) (addr : ℕ)
    (hp : p = some addr) : ∃ key, s.table.Owns key addr :=
  h.pointed j addr (by rw [hj, hp])

theorem Inv.pointed_move (h : s.Inv) {i j : ℕ} {p : Option ℕ} (hj : s.handles.lookup j = some p)
    (k addr : ℕ) (hk : ((s.handles.insert i p).insert j none).lookup k = some (some addr)) :
    ∃ key, s.table.Owns key addr := by
  rw [lookup_insert_eq] at hk
  split_ifs at hk
  · exact absurd (Option.some.inj hk) (Option.some_ne_none addr).symm
  · exact h.pointed_insert (h.pointed_of hj) k addr hk

/-- A handle is made with a pointer to a record, or with a null pointer. -/
theorem Inv.make (h : s.Inv) {i : ℕ} {p : Option ℕ} (hi : s.handles.lookup i = none)
    (hp : ∀ addr, p = some addr → ∃ key, s.table.Owns key addr)
    (hroom : s.handles.entries.length + 1 < 2 ^ 32) : (s.make i p).Inv :=
  h.handles (h.counted.insert hi) (h.pointed_insert hp) (lt_of_le_of_lt length_insert_le hroom)

variable [Inhabited Body]

theorem Inv.tableStep (h : s.Inv) {op : LsdbTable.Op Body}
    (hop : ∀ key node, s.table.dbStorage.lookup key = some node → Drops key node op →
      s.refCnt node.addr = 0) : (s.tableStep op).Inv where
  linked := h.linked.step op
  counted addr := by
    show (if s.table.fresh ≤ addr then 0 else s.refCnt addr) = _
    split_ifs with hfresh
    · -- no handle points to an address that was not used yet
      have hzero : holders s.handles addr = 0 := by
        rw [holders, List.countP_eq_zero]
        intro e he hpoint
        obtain ⟨key, hown⟩ := h.pointed e.1 addr
          ((AList.mem_lookup_iff.2 he).trans (congrArg some (of_decide_eq_true hpoint)))
        exact absurd (h.linked.fresh key addr hown) (not_lt.2 hfresh)
      exact (congrArg UInt32.ofNat hzero).symm
    · exact h.counted addr
  pointed i addr hi := by
    obtain ⟨key, node, hnode, rfl⟩ := h.pointed i addr hi
    refine ⟨key, LsdbTable.owns_step_of_not_drops hnode fun hdrop => ?_⟩
    have hzero := h.counted.toNat_eq h.few node.addr
    rw [hop key node hnode hdrop] at hzero
    have := holders_pos hi
    exact absurd hzero.symm this.ne'
  few := h.few

/-- **One step** keeps the invariant if it is allowed. -/
theorem Inv.step (h : s.Inv) {e : Event Body} (hok : Allowed s e) : (RecordRefs.step s e).Inv := by
  cases e with
  | table op => exact h.tableStep hok
  | construct i key =>
    rw [RecordRefs.step]
    split
    · rename_i node hi hnode
      exact h.make hi (fun addr haddr => ⟨key, node, hnode, Option.some.inj haddr⟩) hok
    · exact h
  | constructDefault i memory =>
    obtain ⟨rfl, hroom⟩ := hok
    rw [RecordRefs.step]
    split
    · rename_i hi
      -- a null pointer is not counted
      have hinc : inc none s.refCnt = s.refCnt := funext fun addr => if_neg (Option.some_ne_none addr).symm
      have hcounted : Counted (s.handles.insert i none) (inc none s.refCnt) := h.counted.insert hi
      rw [hinc] at hcounted
      exact h.handles hcounted (h.pointed_insert fun addr hp => absurd hp (Option.some_ne_none addr).symm)
        (lt_of_le_of_lt length_insert_le hroom)
    · exact h
  | constructCopy i j =>
    rw [RecordRefs.step]
    split
    · rename_i p hi hj
      exact h.make hi (h.pointed_of hj) hok
    · exact h
  | constructMove i j =>
    rw [RecordRefs.step]
    split
    · rename_i p hi hj
      have hj' : (s.handles.insert i p).lookup j = some p := by
        rw [lookup_insert_eq, hj]
        split_ifs <;> rfl
      exact h.handles (h.counted.move hi hj) (h.pointed_move hj)
        (lt_of_le_of_lt ((length_assign_le hj').trans length_insert_le) hok)
    · exact h
  | assignCopy i j =>
    rw [RecordRefs.step]
    split
    · rename_i p q hi hj
      split_ifs
      · exact h
      · exact h.handles (h.counted.assign hi) (h.pointed_insert (h.pointed_of hj))
          (lt_of_le_of_lt (length_assign_le hi) h.few)
    · exact h
  | assignMove i j =>
    rw [RecordRefs.step]
    split
    · rename_i p q hi hj
      split_ifs with hij
      · exact h
      · have hj' : (s.handles.insert i q).lookup j = some q := by
          rw [AList.lookup_insert_ne (Ne.symm hij), hj]
        exact h.handles (h.counted.moveAssign (Ne.symm hij) hi hj) (h.pointed_move hj)
          (lt_of_le_of_lt ((length_assign_le hj').trans (length_assign_le hi)) h.few)
    · exact h
  | destroy i =>
    rw [RecordRefs.step]
    split
    · rename_i p hi
      refine h.handles (h.counted.erase hi) (fun k addr hk => ?_)
        (lt_of_le_of_lt (length_erase_le i) h.few)
      rw [lookup_erase_eq] at hk
      split_ifs at hk
      exact h.pointed k addr hk
    · exact h

theorem step_table_of_not_op {e : Event Body} (h : ∀ op, e ≠ .table op) :
    (RecordRefs.step s e).table = s.table := by
  cases e with
  | table op => exact absurd rfl (h op)
  | _ =>
    rw [RecordRefs.step]
    repeat' split
    all_goals rfl

theorem unused_of_allowed {e : Event Body} (hok : Allowed s e) (key : LsaKey) (addr : ℕ)
    (hown : s.table.Owns key addr) (hgone : ¬ (RecordRefs.step s e).table.Owns key addr) :
    s.refCnt addr = 0 := by
  by_cases hop : ∃ op, e = .table op
  · obtain ⟨op, rfl⟩ := hop
    obtain ⟨node, hnode, rfl⟩ := hown
    by_contra hcount
    refine hgone (LsdbTable.owns_step_of_not_drops hnode fun hdrop => ?_)
    exact hcount (hok key node hnode hdrop)
  · rw [step_table_of_not_op fun op he => hop ⟨op, he⟩] at hgone
    exact absurd hown hgone

/-- **The counts in a run**: they are those of the handles, and no record with a count is removed, as
    long as every event is allowed. -/
theorem kept_of_allowed (es : List (Event Body)) (h : Along Allowed RecordRefs.step {} es) :
    Along Kept RecordRefs.step ({} : RecordRefs Body) es :=
  Along.imp_of_invariant (I := Inv) (fun _ _ hs hok => hs.step hok)
    (fun _ _ hs hok => ⟨(hs.step hok).exact, unused_of_allowed hok⟩) Inv.start h

/-! ## The defects -/

def routerLsa : IncomingLsaContext where
  key := ⟨⟨1, 9⟩, 9⟩
  header := { age := 3599 }

/-- The LSA is put in, listed for retransmission, acknowledged and removed. -/
theorem kept_of_allowed_acked :
    Along Kept RecordRefs.step ({} : RecordRefs Unit) [.table (.upsertMeta routerLsa 0 0),
      .construct 0 routerLsa.key, .constructDefault 1 none, .assignCopy 1 0, .destroy 1, .destroy 0,
      .table (.erase routerLsa.key)] := by
  refine kept_of_allowed _ ⟨fun _ _ _ hdrop => hdrop.elim, ?_, ⟨rfl, ?_⟩, trivial, trivial, trivial, ?_, trivial⟩
  · show 0 + 1 < 2 ^ 32
    decide
  · show 1 + 1 < 2 ^ 32
    decide
  · rintro key node hnode rfl
    obtain rfl := Option.some.inj hnode
    rfl

/-- An LSA expires while it is on a list; and a handle is made where a pointer to it was left. -/
theorem not_kept :
    ¬ Along Kept RecordRefs.step ({} : RecordRefs Unit) [.table (.upsertMeta routerLsa 0 0),
      .construct 0 routerLsa.key, .table (.ageAll 1 3600 true)] ∧
    ¬ Along Kept RecordRefs.step ({} : RecordRefs Unit) [.table (.upsertMeta routerLsa 0 0),
      .construct 0 routerLsa.key, .constructDefault 1 (some 0), .assignCopy 1 0] := by
  constructor
  · rintro ⟨-, -, hage, -⟩
    have hzero := hage.unused routerLsa.key 0 ⟨_, rfl, rfl⟩ (by
      rintro ⟨node, hnode, -⟩
      cases hnode)
    exact absurd hzero (by decide)
  · rintro ⟨-, -, -, hassign, -⟩
    have hcount := hassign.exact routerLsa.key 0 ⟨_, rfl, rfl⟩
    exact absurd hcount (by decide)

end RecordRefs

end VirtualRouter.Ospf
