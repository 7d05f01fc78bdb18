/-
  The retransmission list of an OSPF neighbour (`ospf/neighbor/RetransmissionList.hpp`).

  Two parallel vectors of records and keys, and a map from a key to its index and
  to the number of its retransmissions; a burst goes round the vectors with a
  cursor and a budget.  `none` is an access out of range.

  * `RetransmissionList.step`: the operations;
  * `RetransmissionList.Queue.step`: the keyed queue they are meant for;
  * `RetransmissionList.Refines`: a run agrees with the queue, with its indices
    right, its accesses in range and its bursts complete.

  `add` takes the index of a new entry from the size after the record was
  appended, so that no entry has a place in the vectors.
-/
import Mathlib
import VirtualRouter.Lib.NestedMap

namespace VirtualRouter.Ospf

open NestedMap

structure RetransmissionList.OutboundInfo where
  index : ℕ
  retransmissions : UInt8 := 0
  deriving DecidableEq, Repr

/-- `RetransmissionList`, without the timers' numbers. -/
structure RetransmissionList (κ ρ : Type) [DecidableEq κ] where
  cursor : ℕ := 0
  burstRemaining : UInt32 := 0
  outboundInfo : Map κ RetransmissionList.OutboundInfo := ∅
  outboundKeys : List κ := []
  outbound : List ρ := []

namespace RetransmissionList

variable {κ ρ α : Type} [DecidableEq κ]

def setAt (xs : List α) (i : ℕ) (a : α) : Option (List α) :=
  if i < xs.length then some (xs.set i a) else none

/-- `pop_back`. -/
def popBack (xs : List α) : Option (List α) :=
  if xs.isEmpty then none else some xs.dropLast

/-! ## Operations -/

def add (l : RetransmissionList κ ρ) (key : κ) (record : ρ) : Option (RetransmissionList κ ρ) :=
  match l.outboundInfo.lookup key with
  | some info => do
    let outbound ← setAt l.outbound info.index record
    some { l with outbound }
  | none =>
    let outbound := l.outbound ++ [record]
    some { l with
      outbound
      outboundKeys := l.outboundKeys ++ [key]
      outboundInfo := l.outboundInfo.insert key { index := outbound.length } }

def has (l : RetransmissionList κ ρ) (key : κ) : Bool := (l.outboundInfo.lookup key).isSome

def get (l : RetransmissionList κ ρ) (key : κ) : Option (Option ρ) :=
  match l.outboundInfo.lookup key with
  | none => some none
  | some info => l.outbound[info.index]?.map some

/-- The last entry takes the place of the entry at `idx`. -/
def moveLast (l : RetransmissionList κ ρ) (idx last : ℕ) : Option (RetransmissionList κ ρ) := do
  let record ← l.outbound[last]?
  let outbound ← setAt l.outbound idx record
  let key ← l.outboundKeys[last]?
  let outboundKeys ← setAt l.outboundKeys idx key
  let info := (l.outboundInfo.lookup key).getD { index := 0 }
  some { l with
    outbound
    outboundKeys
    outboundInfo := l.outboundInfo.insert key { info with index := idx } }

def erase (l : RetransmissionList κ ρ) (key : κ) : Option (Bool × RetransmissionList κ ρ) :=
  match l.outboundInfo.lookup key with
  | none => some (false, l)
  | some info => do
    let last := l.outbound.length - 1
    let l ← if info.index ≠ last then l.moveLast info.index last else some l
    let outbound ← popBack l.outbound
    let outboundKeys ← popBack l.outboundKeys
    let cursor := if outbound.length ≤ l.cursor then 0 else l.cursor
    let burstRemaining := if 0 < l.burstRemaining then l.burstRemaining - 1 else l.burstRemaining
    some (true, {
      outbound
      outboundKeys
      outboundInfo := l.outboundInfo.erase key
      cursor := if outbound.isEmpty then 0 else cursor
      burstRemaining := if outbound.isEmpty then 0 else burstRemaining })

def clear (_ : RetransmissionList κ ρ) : RetransmissionList κ ρ := {}

def beginRetransmitBurst (l : RetransmissionList κ ρ) : RetransmissionList κ ρ :=
  { l with
    burstRemaining := UInt32.ofNat l.outbound.length
    cursor := if l.outbound.length ≤ l.cursor then 0 else l.cursor }

def nextInBurst (l : RetransmissionList κ ρ) : Option (Option ρ × RetransmissionList κ ρ) :=
  if l.burstRemaining = 0 ∨ l.outbound.isEmpty then some (none, l)
  else
    let l := { l with cursor := if l.outbound.length ≤ l.cursor then 0 else l.cursor }
    l.outbound[l.cursor]?.map fun record => (some record, l)

/-- `cursor = (cursor + 1) % outbound.size()` and `--burstRemaining`. -/
def advance (l : RetransmissionList κ ρ) : Option (RetransmissionList κ ρ) :=
  if l.outbound.isEmpty then none
  else some { l with
    cursor := (l.cursor + 1) % l.outbound.length
    burstRemaining := l.burstRemaining - 1 }

/-- `markBurst`; `limit` is what `getMaxRetransmission` returns. -/
def markBurst (l : RetransmissionList κ ρ) (key : κ) (limit : UInt8) :
    Option (RetransmissionList κ ρ) :=
  match l.outboundInfo.lookup key with
  | none => some l
  | some info => do
    let l ← l.advance
    let info := { info with retransmissions := info.retransmissions + 1 }
    let l := { l with outboundInfo := l.outboundInfo.insert key info }
    if limit ≤ info.retransmissions then (l.erase key).map Prod.snd
    else l.advance

/-! ## The keyed queue -/

/-- A call of the list. -/
inductive Op (κ ρ : Type) where
  | add (key : κ) (record : ρ)
  | erase (key : κ)
  | clear
  | beginRetransmitBurst
  | nextInBurst
  | markBurst (key : κ) (limit : UInt8)

def step (l : RetransmissionList κ ρ) : Op κ ρ → Option (RetransmissionList κ ρ)
  | .add key record => l.add key record
  | .erase key => (l.erase key).map Prod.snd
  | .clear => some l.clear
  | .beginRetransmitBurst => some l.beginRetransmitBurst
  | .nextInBurst => l.nextInBurst.map Prod.snd
  | .markBurst key limit => l.markBurst key limit

/-- What the list is meant to hold: for each key the record of its last `add`, and how often it was
    sent. -/
abbrev Queue (κ ρ : Type) [DecidableEq κ] := Map κ (ρ × UInt8)

/-- The queue after a call; `markBurst` removes an entry that was sent `limit` times. -/
def Queue.step (s : Queue κ ρ) : Op κ ρ → Queue κ ρ
  | .add key record => s.insert key (record, ((s.lookup key).map Prod.snd).getD 0)
  | .erase key => s.erase key
  | .clear => ∅
  | .beginRetransmitBurst | .nextInBurst => s
  | .markBurst key limit =>
    match s.lookup key with
    | none => s
    | some (record, sent) =>
      if limit ≤ sent + 1 then s.erase key else s.insert key (record, sent + 1)

/-- The list holds what the queue holds, each entry at its index. -/
structure Tracks (l : RetransmissionList κ ρ) (s : Queue κ ρ) : Prop where
  get : ∀ k, l.get k = some ((s.lookup k).map Prod.fst)
  has : ∀ k, l.has k = (s.lookup k).isSome
  index : ∀ k (info : OutboundInfo), l.outboundInfo.lookup k = some info →
    l.outboundKeys[info.index]? = some k ∧ l.outbound[info.index]? = (s.lookup k).map Prod.fst

/-- The rest of a burst, driven as `addLSRequests` and `addLSUpdates` do: the records it presents,
    each with the budget that is left.  `none` is a burst that has not ended. -/
def driveBurst (keyOf : ρ → κ) (limit : UInt8) :
    (fuel : ℕ) → RetransmissionList κ ρ → Option (List (ρ × UInt32))
  | 0, _ => none
  | fuel + 1, l => do
    let (next, l) ← l.nextInBurst
    match next with
    | none => some []
    | some record =>
      let l ← l.markBurst (keyOf record) limit
      let rest ← driveBurst keyOf limit fuel l
      some ((record, l.burstRemaining) :: rest)

/-- A burst that starts now ends after each entry once, and its budget only falls. -/
def BurstOnce (keyOf : ρ → κ) (l : RetransmissionList κ ρ) : Prop :=
  ∀ limit : UInt8, 0 < limit →
    ∃ fuel out, driveBurst keyOf limit fuel l.beginRetransmitBurst = some out ∧
      (out.map Prod.fst).Perm l.outbound ∧
      (l.beginRetransmitBurst.burstRemaining :: out.map Prod.snd).Pairwise (· ≥ ·)

/-- In every state of the run the list is the queue and its bursts are complete, and every call's
    accesses are in range. -/
def Refines (keyOf : ρ → κ) (l : RetransmissionList κ ρ) (s : Queue κ ρ) : List (Op κ ρ) → Prop
  | [] => l.Tracks s ∧ l.BurstOnce keyOf
  | op :: ops => (l.Tracks s ∧ l.BurstOnce keyOf) ∧
    ∃ l', l.step op = some l' ∧ Refines keyOf l' (Queue.step s op) ops

/-! ## The first entry -/

variable {keyOf : ρ → κ} {l : RetransmissionList κ ρ} {s : Queue κ ρ}

theorem Refines.now {ops : List (Op κ ρ)} (h : Refines keyOf l s ops) : l.Tracks s := by
  cases ops with
  | nil => exact h.1
  | cons op ops => exact h.1.1

theorem add_new {key : κ} (record : ρ) (hnew : l.outboundInfo.lookup key = none) :
    ∃ l' info, l.add key record = some l' ∧ l'.outboundInfo.lookup key = some info ∧
      l'.outbound[info.index]? = none := by
  refine ⟨_, { index := (l.outbound ++ [record]).length }, by rw [add, hnew], ?_, ?_⟩
  · exact AList.lookup_insert _
  · exact List.getElem?_eq_none le_rfl

theorem not_refines_add {key : κ} {record : ρ} {ops : List (Op κ ρ)}
    (hnew : l.outboundInfo.lookup key = none) : ¬ Refines keyOf l s (.add key record :: ops) := by
  rintro ⟨-, l', hl', hrest⟩
  obtain ⟨l'', info, hadd, hinfo, hout⟩ := add_new record hnew
  have heq : l'' = l' := Option.some.inj (hadd.symm.trans hl')
  subst heq
  have hget := hrest.now.get key
  simp [RetransmissionList.get, hinfo, hout] at hget

/-! ## The empty list -/

theorem tracks_nil : ({} : RetransmissionList κ ρ).Tracks ∅ where
  get k := rfl
  has k := rfl
  index k info h := by cases h

theorem burstOnce_nil : ({} : RetransmissionList κ ρ).BurstOnce keyOf := by
  intro limit _
  exact ⟨1, [], rfl, List.Perm.nil, List.pairwise_singleton _ _⟩

theorem step_nil (op : Op κ ρ) (hop : ∀ key record, op ≠ .add key record) :
    ({} : RetransmissionList κ ρ).step op = some {} ∧ Queue.step (∅ : Queue κ ρ) op = ∅ := by
  cases op with
  | add key record => exact absurd rfl (hop key record)
  | erase key => exact ⟨rfl, rfl⟩
  | clear => exact ⟨rfl, rfl⟩
  | beginRetransmitBurst => exact ⟨rfl, rfl⟩
  | nextInBurst => exact ⟨rfl, rfl⟩
  | markBurst key limit => exact ⟨rfl, rfl⟩

/-- **The retransmission list**: a run is that of a keyed queue only if nothing is added. -/
theorem refines_iff_no_add (keyOf : ρ → κ) (ops : List (Op κ ρ)) :
    Refines keyOf {} ∅ ops ↔ ∀ key record, .add key record ∉ ops := by
  induction ops with
  | nil => exact iff_of_true ⟨tracks_nil, burstOnce_nil⟩ nofun
  | cons op ops ih =>
    by_cases hop : ∃ key record, op = .add key record
    · obtain ⟨key, record, rfl⟩ := hop
      exact iff_of_false (not_refines_add rfl) fun h => h key record List.mem_cons_self
    · have hop' : ∀ key record, op ≠ .add key record := fun key record h => hop ⟨key, record, h⟩
      obtain ⟨hstep, hqueue⟩ := step_nil op hop'
      constructor
      · rintro ⟨-, l', hl', hrest⟩ key record hmem
        rw [hstep] at hl'
        cases hl'
        rw [hqueue] at hrest
        rcases List.mem_cons.1 hmem with heq | hmem
        · exact hop' key record heq.symm
        · exact ih.1 hrest key record hmem
      · intro h
        refine ⟨⟨tracks_nil, burstOnce_nil⟩, {}, hstep, ?_⟩
        rw [hqueue]
        exact ih.2 fun key record hmem => h key record (List.mem_cons_of_mem _ hmem)

/-- The first request that is put on the list is not found there. -/
theorem not_refines_first : ¬ ∀ (keyOf : ℕ → ℕ) (ops : List (Op ℕ ℕ)), Refines keyOf {} ∅ ops :=
  fun h => not_refines_add rfl (h id [.add 7 7])

end RetransmissionList

end VirtualRouter.Ospf
