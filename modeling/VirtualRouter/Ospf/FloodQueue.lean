/-
  The flood queue of an OSPF area (`ospf/area/FloodQueue.hpp`).

  A ring of slots, each with a sequence number that says for which position of
  which lap it is free or full.  One thread runs: a compare-and-swap fails only
  if the value has changed.  The counters are numbers, as nobody counts up to
  2^64.

  * `FloodQueue.enqueueLoop`, `FloodQueue.dequeueLoop`: the loops, with fuel;
    `none` is a loop that has not ended, or a slot that is read empty;
  * `FloodQueue.Fifo`: a run of calls behaves as a queue;
  * `FloodQueue.Filled`: what the queue is until its slots are used up.

  After a compare-and-swap the code uses the new position where it means the old
  one, so a slot that was filled is never seen as full: nothing is dequeued, and
  the ring goes wrong as soon as it comes round, in one or two slots.
-/
import Mathlib

namespace VirtualRouter.Ospf

inductive FloodReason where
  | REFRESH
  | UPDATE
  | FLUSH
  deriving DecidableEq, Repr

structure FloodInfo where
  reason : FloodReason := .REFRESH
  deriving DecidableEq, Repr

/-- `FloodQueue::Slot`; `storage` holds a record or is raw. -/
structure FloodQueue.Slot (α : Type) where
  seq : ℕ := 0
  info : FloodInfo := {}
  storage : Option α := none
  deriving DecidableEq

structure FloodQueue (α : Type) where
  cap : ℕ
  slots : List (FloodQueue.Slot α)
  head : ℕ := 0
  tail : ℕ := 0
  count : ℕ := 0
  deriving DecidableEq

namespace FloodQueue

variable {α : Type}

def new (α : Type) (capacity : ℕ) : FloodQueue α where
  cap := capacity
  slots := (List.range capacity).map fun i => { seq := i }

/-- `slots[pos % cap]`. -/
def slotAt (q : FloodQueue α) (pos : ℕ) : Option (Slot α) := q.slots[pos % q.cap]?

/-- `slots[pos % cap]` is replaced. -/
def setSlot (q : FloodQueue α) (pos : ℕ) (slot : Slot α) : FloodQueue α :=
  { q with slots := q.slots.set (pos % q.cap) slot }

@[simp] theorem setSlot_cap (q : FloodQueue α) (pos : ℕ) (slot : Slot α) :
    (q.setSlot pos slot).cap = q.cap := rfl

@[simp] theorem setSlot_head (q : FloodQueue α) (pos : ℕ) (slot : Slot α) :
    (q.setSlot pos slot).head = q.head := rfl

@[simp] theorem setSlot_count (q : FloodQueue α) (pos : ℕ) (slot : Slot α) :
    (q.setSlot pos slot).count = q.count := rfl

/-! ## Operations -/

/-- The loop of `enqueueImpl`; `localTail` is the tail it has read last. -/
def enqueueLoop (item : α) (r : FloodInfo) :
    (fuel : ℕ) → (q : FloodQueue α) → (localTail : ℕ) → Option (Bool × FloodQueue α)
  | 0, _, _ => none
  | fuel + 1, q, localTail => do
    let slot ← q.slotAt q.tail
    let dif : ℤ := slot.seq - q.tail
    if dif = 0 then
      if q.tail = localTail then
        -- the swap has advanced the tail, and the slot takes its number from the new one
        let tail := q.tail + 1
        let q := q.setSlot q.tail { seq := tail + 1, info := r, storage := some item }
        some (true, { q with tail, count := q.count + 1 })
      else enqueueLoop item r fuel q q.tail
    else if dif < 0 then some (false, q)
    else enqueueLoop item r fuel q q.tail

def enqueue (fuel : ℕ) (q : FloodQueue α) (item : α) (r : FloodInfo) : Option (Bool × FloodQueue α) :=
  enqueueLoop item r fuel q q.tail

/-- How many of the `available` positions from `head + k` on are full, `k` of them counted. -/
def countFull (q : FloodQueue α) : (available k : ℕ) → ℕ
  | 0, k => k
  | available + 1, k =>
    if (q.slotAt (q.head + k)).any fun slot => slot.seq = q.head + k + 1 then
      q.countFull available (k + 1)
    else k

/-- The records of the `k` positions from `head + i` on are moved out. -/
def takeSlots (q : FloodQueue α) : (k i : ℕ) → Option (List (FloodInfo × α) × FloodQueue α)
  | 0, _ => some ([], q)
  | k + 1, i => do
    let pos := q.head + i
    let slot ← q.slotAt pos
    let item ← slot.storage
    let (out, q) ← takeSlots (q.setSlot pos { slot with seq := pos + q.cap, storage := none }) k (i + 1)
    some ((slot.info, item) :: out, q)

/-- The loop of `tryDequeueBatch`: the batch that a round moves out is not returned. -/
def dequeueLoop : (fuel : ℕ) → (q : FloodQueue α) → Option (List (FloodInfo × α) × FloodQueue α)
  | 0, _ => none
  | fuel + 1, q =>
    if q.count = 0 then some ([], q)
    else
      let k := q.countFull q.count 0
      if k = 0 then some ([], q)
      else do
        let (_, q) ← { q with head := q.head + k }.takeSlots k 0
        dequeueLoop fuel { q with count := q.count - k }

def tryDequeueBatch (fuel : ℕ) (q : FloodQueue α) : Option (List (FloodInfo × α) × FloodQueue α) :=
  dequeueLoop fuel q

/-! ## The queue as a FIFO -/

/-- A call of the queue. -/
inductive Op (α : Type) where
  | enqueue (item : α) (r : FloodInfo)
  | tryDequeueBatch

/-- The items that wait, from the head on; a slot counts once. -/
def waiting (q : FloodQueue α) : List (Option (FloodInfo × α)) :=
  (List.range q.count).map fun i =>
    if i < q.cap then
      (q.slotAt (q.head + i)).bind fun slot => slot.storage.map fun item => (slot.info, item)
    else none

/-- The run of `ops` behaves as a queue, after `accepted` was accepted and `returned` returned: in
    every state the items returned and those that wait are the items accepted, every call ends, and
    `full` is reported only if `cap` items wait. -/
def Fifo (q : FloodQueue α) (accepted returned : List (FloodInfo × α)) : List (Op α) → Prop
  | [] => returned.map some ++ q.waiting = accepted.map some
  | op :: ops => returned.map some ++ q.waiting = accepted.map some ∧
    match op with
    | .enqueue item r => ∃ fuel ok q', q.enqueue fuel item r = some (ok, q') ∧
        (ok = false → q.waiting.length = q.cap) ∧
        Fifo q' (if ok then accepted ++ [(r, item)] else accepted) returned ops
    | .tryDequeueBatch => ∃ fuel batch q', q.tryDequeueBatch fuel = some (batch, q') ∧
        Fifo q' accepted (returned ++ batch) ops

def offered (ops : List (Op α)) : ℕ :=
  ops.countP fun op => match op with
    | .enqueue .. => true
    | .tryDequeueBatch => false

/-! ## Until the ring comes round -/

/-- The queue has accepted `xs` and no slot was used twice. -/
structure Filled (q : FloodQueue α) (xs : List (FloodInfo × α)) : Prop where
  pos : 0 < q.cap
  fits : xs.length ≤ q.cap
  length : q.slots.length = q.cap
  head : q.head = 0
  tail : q.tail = xs.length
  count : q.count = xs.length
  used : ∀ (i : ℕ) (x : FloodInfo × α), xs[i]? = some x →
    q.slots[i]? = some { seq := i + 2, info := x.1, storage := some x.2 }
  unused : ∀ i, xs.length ≤ i → i < q.cap → q.slots[i]? = some { seq := i }

theorem filled_new {capacity : ℕ} (h : 0 < capacity) : (new α capacity).Filled [] where
  pos := h
  fits := Nat.zero_le _
  length := by simp [new]
  head := rfl
  tail := rfl
  count := rfl
  used i x hx := by simp at hx
  unused i _ hi := by
    have hi' : i < capacity := hi
    simp [new, hi']

variable {q : FloodQueue α} {xs : List (FloodInfo × α)}

theorem Filled.waiting_eq (h : q.Filled xs) : q.waiting = xs.map some := by
  refine List.ext_getElem? fun i => ?_
  rw [waiting, h.count, h.head, List.getElem?_map, List.getElem?_map]
  by_cases hi : i < xs.length
  · have hcap : i % q.cap = i := Nat.mod_eq_of_lt (hi.trans_le h.fits)
    have hslot := h.used i xs[i] (List.getElem?_eq_getElem hi)
    simp [hi, slotAt, hcap, hslot, hi.trans_le h.fits]
  · simp [hi]

theorem Filled.dequeue (h : q.Filled xs) (fuel : ℕ) :
    q.tryDequeueBatch (fuel + 1) = some ([], q) := by
  rw [tryDequeueBatch, dequeueLoop]
  split_ifs with hcount
  · rfl
  · have hlen : 0 < xs.length := by
      rw [← h.count]
      exact Nat.pos_of_ne_zero hcount
    have hslot := h.used 0 xs[0] (List.getElem?_eq_getElem hlen)
    have hfull : q.countFull q.count 0 = 0 := by
      obtain ⟨n, hn⟩ := Nat.exists_eq_succ_of_ne_zero hcount
      rw [hn, countFull, slotAt, h.head, Nat.add_zero, Nat.zero_mod, hslot]
      simp
    simp [hfull]

theorem Filled.enqueue (h : q.Filled xs) (hfree : xs.length < q.cap) (item : α) (r : FloodInfo) :
    ∃ q', (∀ fuel, q.enqueue (fuel + 1) item r = some (true, q')) ∧ q'.Filled (xs ++ [(r, item)]) ∧
      q'.cap = q.cap := by
  have hmod : xs.length % q.cap = xs.length := Nat.mod_eq_of_lt hfree
  have hslot : q.slotAt q.tail = some { seq := xs.length } := by
    rw [slotAt, h.tail, hmod]
    exact h.unused _ le_rfl hfree
  refine ⟨{ q.setSlot xs.length { seq := xs.length + 2, info := r, storage := some item } with
    tail := xs.length + 1, count := q.count + 1 }, fun fuel => ?_, ?_, rfl⟩
  · rw [FloodQueue.enqueue, enqueueLoop, hslot]
    simp [h.tail]
  · constructor
    · exact h.pos
    · rw [List.length_append, List.length_singleton]
      exact hfree
    · simpa [setSlot] using h.length
    · exact h.head
    · simp
    · simp [h.count]
    · intro i x hx
      simp only [setSlot, hmod]
      obtain hi | rfl | hi := Nat.lt_trichotomy i xs.length
      · rw [List.getElem?_append_left hi] at hx
        rw [List.getElem?_set_ne (Nat.ne_of_gt hi)]
        exact h.used i x hx
      · rw [List.getElem?_concat_length] at hx
        cases hx
        rw [List.getElem?_set_self (h.length ▸ hfree)]
      · rw [List.getElem?_eq_none (by simpa using hi)] at hx
        cases hx
    · intro i hle hi
      rw [List.length_append, List.length_singleton] at hle
      simp only [setSlot, hmod]
      rw [List.getElem?_set_ne (by omega)]
      exact h.unused i (by omega) hi

theorem Filled.enqueueLoop_full (h : q.Filled xs) (hfull : xs.length = q.cap) (item : α)
    (r : FloodInfo) (fuel : ℕ) :
    q.enqueue (fuel + 1) item r =
      if q.cap = 1 then q.enqueue fuel item r
      else if q.cap = 2 then
        some (true, { q.setSlot 2 { seq := 4, info := r, storage := some item } with
          tail := 3, count := 3 })
      else some (false, q) := by
  have hlen : 0 < xs.length := hfull ▸ h.pos
  have hslot : q.slotAt q.tail =
      some { seq := 2, info := xs[0].1, storage := some xs[0].2 } := by
    rw [slotAt, h.tail, hfull, Nat.mod_self]
    exact h.used 0 xs[0] (List.getElem?_eq_getElem hlen)
  have hcount : q.count = q.cap := h.count.trans hfull
  have htail : q.tail = q.cap := h.tail.trans hfull
  have hpos := h.pos
  rw [FloodQueue.enqueue, enqueueLoop, hslot]
  by_cases h1 : q.cap = 1
  · simp [htail, h1, FloodQueue.enqueue]
  by_cases h2 : q.cap = 2
  · simp [htail, h2, hcount]
  · have hdif : (2 : ℤ) - q.cap ≠ 0 := by omega
    have hneg : 2 < q.cap := by omega
    simp [htail, hdif, hneg, h1, h2]

theorem Filled.enqueue_forever (h : q.Filled xs) (hfull : xs.length = q.cap) (hcap : q.cap = 1)
    (item : α) (r : FloodInfo) (fuel : ℕ) : q.enqueue fuel item r = none := by
  induction fuel with
  | zero => rfl
  | succ fuel ih => rw [h.enqueueLoop_full hfull, if_pos hcap, ih]

/-! ## Runs -/

/-- Every run begins in a state in which the items returned and those that wait are those accepted. -/
theorem Fifo.now {accepted returned : List (FloodInfo × α)} {ops : List (Op α)}
    (h : q.Fifo accepted returned ops) : returned.map some ++ q.waiting = accepted.map some := by
  cases ops with
  | nil => exact h
  | cons op ops => exact h.1

theorem lost_item (hcap : q.cap = 2) (hfull : xs.length = q.cap) (item : α)
    (r : FloodInfo) (ops : List (Op α)) :
    ¬ Fifo { q.setSlot 2 { seq := 4, info := r, storage := some item } with tail := 3, count := 3 }
      (xs ++ [(r, item)]) [] ops := by
  intro hfifo
  have hthird := congrArg (fun l => l[2]?) hfifo.now
  have hlen : xs.length = 2 := hfull.trans hcap
  simp [waiting, hcap, hlen] at hthird

theorem Filled.fifo_iff (h : q.Filled xs) (ops : List (Op α)) :
    q.Fifo xs [] ops ↔ 3 ≤ q.cap ∨ xs.length + offered ops ≤ q.cap := by
  induction ops generalizing q xs with
  | nil => simp [Fifo, h.waiting_eq, offered, h.fits]
  | cons op ops ih =>
    have hnow : [].map some ++ q.waiting = xs.map some := h.waiting_eq
    cases op with
    | tryDequeueBatch =>
      rw [Fifo, and_iff_right hnow]
      have hoffered : offered (.tryDequeueBatch :: ops) = offered ops := rfl
      rw [hoffered, ← ih h]
      constructor
      · rintro ⟨fuel, batch, q', hq', hrest⟩
        cases fuel with
        | zero => cases hq'
        | succ fuel =>
          rw [h.dequeue] at hq'
          cases hq'
          exact hrest
      · exact fun hrest => ⟨1, [], q, h.dequeue 0, hrest⟩
    | enqueue item r =>
      rw [Fifo, and_iff_right hnow]
      have hoffered : offered (.enqueue item r :: ops) = offered ops + 1 := by
        rw [offered, List.countP_cons_of_pos rfl]
        rfl
      have hpos := h.pos
      rw [hoffered]
      obtain hfree | hfull := h.fits.lt_or_eq
      · -- the item is accepted
        obtain ⟨q', hq', hfilled, hcap⟩ := h.enqueue hfree item r
        have hiff := ih hfilled
        rw [hcap, List.length_append, List.length_singleton] at hiff
        rw [Nat.add_comm (offered ops), ← Nat.add_assoc, ← hiff]
        constructor
        · rintro ⟨fuel, ok, p, hp, -, hrest⟩
          cases fuel with
          | zero => cases hp
          | succ fuel =>
            rw [hq'] at hp
            cases hp
            exact hrest
        · exact fun hrest => ⟨1, true, q', hq' 0, nofun, hrest⟩
      · have hstep := h.enqueueLoop_full hfull item r
        by_cases h3 : 3 ≤ q.cap
        · -- the queue is full, and says so
          refine iff_of_true ⟨1, false, q, ?_, fun _ => ?_, (ih h).2 (.inl h3)⟩ (.inl h3)
          · rw [hstep, if_neg (by omega), if_neg (by omega)]
          · rw [h.waiting_eq, List.length_map, hfull]
        · refine iff_of_false ?_ (by omega)
          rintro ⟨fuel, ok, p, hp, -, hrest⟩
          by_cases h1 : q.cap = 1
          · rw [h.enqueue_forever hfull h1] at hp
            cases hp
          · -- the first slot is taken again, and an item is lost
            have h2 : q.cap = 2 := by omega
            cases fuel with
            | zero => cases hp
            | succ fuel =>
              rw [hstep, if_neg h1, if_pos h2] at hp
              cases hp
              exact lost_item h2 hfull item r ops hrest

/-- **The flood queue**: its runs are those of a queue if it has at least three slots, or if no
    more items are offered than it has slots. -/
theorem fifo_iff_capacity {capacity : ℕ} (h : 1 ≤ capacity) (ops : List (Op α)) :
    (new α capacity).Fifo [] [] ops ↔ 3 ≤ capacity ∨ offered ops ≤ capacity := by
  have hiff := (filled_new (α := α) h).fifo_iff ops
  rwa [List.length_nil, Nat.zero_add] at hiff

theorem fifo_iff_capacity_four :
    (new ℕ 4).Fifo [] [] [.enqueue 7 {}, .tryDequeueBatch] ↔ 3 ≤ 4 ∨ 1 ≤ 4 :=
  fifo_iff_capacity (by decide) [.enqueue 7 {}, .tryDequeueBatch]

/-- A queue of one slot does not come back from its second item. -/
theorem not_fifo_one_slot : ¬ ∀ (capacity : ℕ) (ops : List (Op ℕ)), 1 ≤ capacity →
    (new ℕ capacity).Fifo [] [] ops := by
  intro h
  have hfifo := h 1 [.enqueue 7 {}, .enqueue 8 {}] le_rfl
  rw [(filled_new (α := ℕ) Nat.one_pos).fifo_iff] at hfifo
  exact absurd hfifo (by decide)

end FloodQueue

end VirtualRouter.Ospf
