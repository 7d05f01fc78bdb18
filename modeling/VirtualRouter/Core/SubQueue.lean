/-
  The ring of a process queue's tasks (`ControlScheduler::SubQueue`,
  `core/ControlScheduler.h`).

  Any number of calls put tasks in and take tasks out at once.  A call goes
  from one access of a shared word to the next, the calls are interleaved in
  any order, and a weak exchange may fail for no reason (`spurious`).  Positions
  count up; they are natural numbers, where the words of the code have 64 bits.
  A slot's sequence word says which position it is free for, or holds a task of.

  `Inv` ties the words to the calls in progress.  From it: two calls are never
  at one slot (`slot_exclusive`), the ring is a bounded queue whose steps are
  the two exchanges (`ring_queueStep`), a task is run once and is the one its
  position was given (`ran_once`), and what a call that gives up has seen
  (`gives_up`).
-/
import VirtualRouter.Lib.Run

namespace VirtualRouter.Core

open Run

/-- Where a call is: the access it makes next. -/
inductive Pc (α : Type) where
  | idle
  | returned (result : Bool)
  | emplaceHead (task : α)
  | emplaceSeq (task : α) (pos : ℕ)
  | emplaceCas (task : α) (pos : ℕ)
  | emplaceSet (task : α) (pos : ℕ)
  | emplaceStore (task : α) (pos : ℕ)
  | consumeTail (run : Bool)
  | consumeSeq (run : Bool) (pos : ℕ)
  | consumeCas (run : Bool) (pos : ℕ)
  | consumeRun (run : Bool) (pos : ℕ)
  | consumeClean (pos : ℕ)
  | consumeStore (pos : ℕ)
  deriving DecidableEq

/-- The words of the ring.  `emplaced` are the tasks put in so far, by position. -/
structure Ring (α : Type) where
  head : ℕ := 0
  tail : ℕ := 0
  seq : ℕ → ℕ := id
  task : ℕ → Option α := fun _ => none
  emplaced : List α := []

def Ring.setSeq {α : Type} (i n : ℕ) (r : Ring α) : Ring α :=
  { r with seq := Function.update r.seq i n }

def Ring.setTask {α : Type} (i : ℕ) (task : Option α) (r : Ring α) : Ring α :=
  { r with task := Function.update r.task i task }

/-- The ring with the calls on it, and the tasks run so far, with their positions. -/
structure SubQueue (α : Type) where
  ring : Ring α := {}
  calls : ℕ → Pc α := fun _ => .idle
  ran : List (ℕ × α) := []

/-- The position a call has won, and whether it puts a task in there. -/
def Pc.won {α : Type} : Pc α → Option (ℕ × Bool)
  | .emplaceSet _ pos | .emplaceStore _ pos => some (pos, true)
  | .consumeRun _ pos | .consumeClean pos | .consumeStore pos => some (pos, false)
  | _ => none

/-- The task of a call that has no position for it yet. -/
def Pc.offered {α : Type} : Pc α → Option α
  | .emplaceHead task | .emplaceSeq task _ | .emplaceCas task _ => some task
  | _ => none

namespace SubQueue

variable {α : Type}

/-- `pos & mask`, for a ring of `2 ^ bits` slots. -/
def slot (bits pos : ℕ) : ℕ := pos &&& (2 ^ bits - 1)

/-- One access.  A failed exchange loads the word it failed on. -/
def access (bits : ℕ) (spurious : Bool) (r : Ring α) : Pc α → Ring α × Pc α
  | .idle => (r, .idle)
  | .returned result => (r, .returned result)
  | .emplaceHead task => (r, .emplaceSeq task r.head)
  | .emplaceSeq task pos =>
    let seq := r.seq (slot bits pos)
    if seq = pos then (r, .emplaceCas task pos)
    else if seq < pos then (r, .returned false)
    else (r, .emplaceHead task)
  | .emplaceCas task pos =>
    if r.head = pos ∧ spurious = false then
      ({ r with head := pos + 1, emplaced := r.emplaced ++ [task] }, .emplaceSet task pos)
    else (r, .emplaceSeq task r.head)
  | .emplaceSet task pos => (r.setTask (slot bits pos) (some task), .emplaceStore task pos)
  | .emplaceStore _ pos => (r.setSeq (slot bits pos) (pos + 1), .returned true)
  | .consumeTail run => (r, .consumeSeq run r.tail)
  | .consumeSeq run pos =>
    let seq := r.seq (slot bits pos)
    if seq = pos + 1 then (r, .consumeCas run pos)
    else if seq < pos + 1 then (r, .returned false)
    else (r, .consumeTail run)
  | .consumeCas run pos =>
    if r.tail = pos ∧ spurious = false then ({ r with tail := pos + 1 }, .consumeRun run pos)
    else (r, .consumeSeq run r.tail)
  | .consumeRun _ pos => (r, .consumeClean pos)
  | .consumeClean pos => (r.setTask (slot bits pos) none, .consumeStore pos)
  | .consumeStore pos => (r.setSeq (slot bits pos) (pos + 2 ^ bits), .returned true)

def runs (bits : ℕ) (r : Ring α) : Pc α → Option (ℕ × α)
  | .consumeRun true pos => (r.task (slot bits pos)).map (pos, ·)
  | _ => none

/-- A call starts, or makes its next access. -/
inductive Event (α : Type) where
  | tryEmplace (c : ℕ) (task : α)
  | tryConsumeOne (c : ℕ) (run : Bool)
  | advance (c : ℕ) (spurious : Bool)

def begin (c : ℕ) (pc : Pc α) (s : SubQueue α) : SubQueue α :=
  match s.calls c with
  | .idle | .returned _ => { s with calls := Function.update s.calls c pc }
  | _ => s

def advance (bits c : ℕ) (spurious : Bool) (s : SubQueue α) : SubQueue α where
  ring := (access bits spurious s.ring (s.calls c)).1
  calls := Function.update s.calls c (access bits spurious s.ring (s.calls c)).2
  ran := s.ran ++ (runs bits s.ring (s.calls c)).toList

def step (bits : ℕ) (s : SubQueue α) : Event α → SubQueue α
  | .tryEmplace c task => s.begin c (.emplaceHead task)
  | .tryConsumeOne c run => s.begin c (.consumeTail run)
  | .advance c spurious => s.advance bits c spurious

/-- The task of the call that makes an access. -/
def offered (s : SubQueue α) : Event α → Option α
  | .advance c _ => (s.calls c).offered
  | _ => none

/-! ### Positions and slots -/

theorem slot_eq_mod (bits pos : ℕ) : slot bits pos = pos % 2 ^ bits :=
  Nat.and_two_pow_sub_one_eq_mod pos bits

@[simp] theorem slot_add (bits pos : ℕ) : slot bits (pos + 2 ^ bits) = slot bits pos := by
  simp [slot_eq_mod]

theorem eq_of_slot {bits p q : ℕ} (h : slot bits p = slot bits q) (hp : p < q + 2 ^ bits)
    (hq : q < p + 2 ^ bits) : p = q := by
  rw [slot_eq_mod, slot_eq_mod] at h
  rcases Nat.le_total p q with hle | hle
  · obtain ⟨k, hk⟩ := (Nat.modEq_iff_dvd' hle).1 h
    have : k = 0 := by
      by_contra hne
      have := Nat.le_mul_of_pos_right (2 ^ bits) (Nat.pos_of_ne_zero hne)
      omega
    subst this
    omega
  · obtain ⟨k, hk⟩ := (Nat.modEq_iff_dvd' hle).1 h.symm
    have : k = 0 := by
      by_contra hne
      have := Nat.le_mul_of_pos_right (2 ^ bits) (Nat.pos_of_ne_zero hne)
      omega
    subst this
    omega

theorem slot_succ_ne {bits p : ℕ} (hbits : 0 < bits) : slot bits (p + 1) ≠ slot bits p := by
  intro h
  have h2 : 2 ≤ 2 ^ bits := Nat.le_self_pow hbits.ne' 2
  have := eq_of_slot h (by omega) (by omega)
  omega

/-! ### The invariant -/

/-- The slot of `p` is free for the task of position `p`. -/
structure Free (bits : ℕ) (r : Ring α) (p : ℕ) : Prop where
  seq : r.seq (slot bits p) = p
  tail_le : r.tail ≤ p
  lt_tail : p < r.tail + 2 ^ bits

/-- The slot of `p` has the task of position `p`. -/
structure Full (bits : ℕ) (r : Ring α) (p : ℕ) : Prop where
  seq : r.seq (slot bits p) = p + 1
  lt_head : p < r.head
  head_le : r.head ≤ p + 2 ^ bits

/-- The slot of `p` has the very task put in at `p`. -/
def Has (bits : ℕ) (r : Ring α) (p : ℕ) (task : α) : Prop :=
  r.emplaced[p]? = some task ∧ r.task (slot bits p) = some task

/-- What a call knows of the words. -/
def Local (bits : ℕ) (r : Ring α) : Pc α → Prop
  | .emplaceSeq _ pos => pos ≤ r.head
  | .emplaceCas _ pos => pos ≤ r.head ∧ pos ≤ r.seq (slot bits pos)
  | .emplaceSet task pos => Free bits r pos ∧ r.emplaced[pos]? = some task
  | .emplaceStore task pos => Free bits r pos ∧ Has bits r pos task
  | .consumeSeq _ pos => pos ≤ r.tail
  | .consumeCas _ pos => pos ≤ r.tail ∧ pos + 1 ≤ r.seq (slot bits pos)
  | .consumeRun _ pos => Full bits r pos ∧ pos < r.tail ∧ ∃ task, Has bits r pos task
  | .consumeClean pos | .consumeStore pos => Full bits r pos ∧ pos < r.tail
  | _ => True

structure Fits (bits : ℕ) (r : Ring α) : Prop where
  tail_le : r.tail ≤ r.head
  head_le : r.head ≤ r.tail + 2 ^ bits
  length : r.emplaced.length = r.head
  slots : ∀ q, ∃ p, slot bits p = slot bits q ∧ (Free bits r p ∨ Full bits r p)

/-- The words and the calls fit together: what is neither free nor has a task is some call's. -/
structure Inv (bits : ℕ) (r : Ring α) (calls : ℕ → Pc α) : Prop extends Fits bits r where
  knows : ∀ c, Local bits r (calls c)
  alone : ∀ c c' w, (calls c).won = some w → (calls c').won = some w → c = c'
  writer : ∀ p, Free bits r p → p < r.head → ∃ c, (calls c).won = some (p, true)
  reader : ∀ p, Full bits r p → p < r.tail → ∃ c, (calls c).won = some (p, false)
  content : ∀ p, Full bits r p → r.tail ≤ p → ∃ task, Has bits r p task

variable {bits : ℕ} {r : Ring α} {calls : ℕ → Pc α}

theorem Free.unique {p q : ℕ} (hp : Free bits r p) (hq : Free bits r q)
    (h : slot bits p = slot bits q) : p = q := by
  rw [← hp.seq, h, hq.seq]

theorem Full.unique {p q : ℕ} (hp : Full bits r p) (hq : Full bits r q)
    (h : slot bits p = slot bits q) : p = q := by
  have := hp.seq
  rw [h, hq.seq] at this
  omega

theorem Free.slot_ne (hbits : 0 < bits) {p q : ℕ} (hp : Free bits r p) (hq : Full bits r q) :
    slot bits p ≠ slot bits q := by
  intro h
  have hpq : p = q + 1 := by rw [← hp.seq, h, hq.seq]
  exact slot_succ_ne hbits (hpq ▸ h)

theorem Fits.free_head (hr : Fits bits r) (hbits : 0 < bits)
    (hseq : r.head ≤ r.seq (slot bits r.head)) : Free bits r r.head := by
  obtain ⟨p, hslot, hfree | hfull⟩ := hr.slots r.head
  · have hp := hfree.seq
    rw [hslot] at hp
    have := hr.tail_le
    have := hfree.lt_tail
    obtain rfl : p = r.head := eq_of_slot hslot (by omega) (by omega)
    exact hfree
  · have hp := hfull.seq
    rw [hslot] at hp
    have hlt := hfull.lt_head
    have : r.head = p + 1 := by omega
    rw [this] at hslot
    exact absurd hslot.symm (slot_succ_ne hbits)

theorem Fits.full_tail (hr : Fits bits r) (hseq : r.tail + 1 ≤ r.seq (slot bits r.tail)) :
    Full bits r r.tail := by
  obtain ⟨p, hslot, hfree | hfull⟩ := hr.slots r.tail
  · have hp := hfree.seq
    rw [hslot] at hp
    have := hfree.lt_tail
    obtain rfl : p = r.tail := eq_of_slot hslot (by omega) (by omega)
    omega
  · have hp := hfull.seq
    rw [hslot] at hp
    have := hfull.lt_head
    have := hr.head_le
    obtain rfl : p = r.tail := eq_of_slot hslot (by omega) (by omega)
    exact hfull

/-! ### What each access does to the slots -/

theorem free_emplaceCas {p : ℕ} (task : α) :
    Free bits { r with head := r.head + 1, emplaced := r.emplaced ++ [task] } p ↔ Free bits r p :=
  ⟨fun h => ⟨h.1, h.2, h.3⟩, fun h => ⟨h.1, h.2, h.3⟩⟩

theorem full_emplaceCas (hbits : 0 < bits) (p : ℕ) (task : α) (hhead : Free bits r r.head) :
    Full bits { r with head := r.head + 1, emplaced := r.emplaced ++ [task] } p ↔ Full bits r p := by
  constructor
  · intro h
    refine ⟨h.seq, ?_, (Nat.le_succ _).trans h.head_le⟩
    have hlt : p < r.head + 1 := h.lt_head
    have hne : p ≠ r.head := by
      rintro rfl
      have := h.seq
      rw [hhead.seq] at this
      omega
    omega
  · intro h
    refine ⟨h.seq, h.lt_head.trans (Nat.lt_succ_self _), ?_⟩
    have hne : r.head ≠ p + 2 ^ bits := fun heq =>
      hhead.slot_ne hbits h (by rw [heq, slot_add])
    have := h.head_le
    dsimp only
    omega

theorem free_consumeCas (hbits : 0 < bits) {p : ℕ} (htail : Full bits r r.tail) :
    Free bits { r with tail := r.tail + 1 } p ↔ Free bits r p := by
  constructor
  · intro h
    have hne : p ≠ r.tail + 2 ^ bits := by
      rintro rfl
      have hseq := h.seq
      rw [slot_add, htail.seq] at hseq
      have := slot_add bits r.tail
      rw [← hseq] at this
      exact slot_succ_ne hbits this
    have := h.tail_le
    have := h.lt_tail
    dsimp only at *
    exact ⟨h.seq, by omega, by omega⟩
  · intro h
    have hne : p ≠ r.tail := fun heq => h.slot_ne hbits htail (by rw [heq])
    have := h.tail_le
    have := h.lt_tail
    exact ⟨h.seq, by dsimp only; omega, by dsimp only; omega⟩

theorem full_consumeCas {p : ℕ} : Full bits { r with tail := r.tail + 1 } p ↔ Full bits r p :=
  ⟨fun h => ⟨h.1, h.2, h.3⟩, fun h => ⟨h.1, h.2, h.3⟩⟩

theorem free_setTask {p i : ℕ} {x : Option α} : Free bits (r.setTask i x) p ↔ Free bits r p :=
  ⟨fun h => ⟨h.1, h.2, h.3⟩, fun h => ⟨h.1, h.2, h.3⟩⟩

theorem full_setTask {p i : ℕ} {x : Option α} : Full bits (r.setTask i x) p ↔ Full bits r p :=
  ⟨fun h => ⟨h.1, h.2, h.3⟩, fun h => ⟨h.1, h.2, h.3⟩⟩

theorem setSeq_seq (i n j : ℕ) : (r.setSeq i n).seq j = if j = i then n else r.seq j := by
  simp [Ring.setSeq, Function.update_apply]

theorem setTask_task (i : ℕ) (x : Option α) (j : ℕ) :
    (r.setTask i x).task j = if j = i then x else r.task j := by
  simp [Ring.setTask, Function.update_apply]

theorem free_setSeq_of_ne {p i n : ℕ} (h : slot bits p ≠ i) :
    Free bits (r.setSeq i n) p ↔ Free bits r p := by
  constructor <;> intro hp <;> refine ⟨?_, hp.2, hp.3⟩ <;> simpa [setSeq_seq, h] using hp.seq

theorem full_setSeq_of_ne {p i n : ℕ} (h : slot bits p ≠ i) :
    Full bits (r.setSeq i n) p ↔ Full bits r p := by
  constructor <;> intro hp <;> refine ⟨?_, hp.2, hp.3⟩ <;> simpa [setSeq_seq, h] using hp.seq

theorem ne_of_slot_ne {p q : ℕ} (h : slot bits p ≠ slot bits q) : p ≠ q := by
  rintro rfl
  exact h rfl

theorem free_emplaceStore (hbits : 0 < bits) {p pos : ℕ} (hpos : Free bits r pos) :
    Free bits (r.setSeq (slot bits pos) (pos + 1)) p ↔ Free bits r p ∧ p ≠ pos := by
  by_cases hslot : slot bits p = slot bits pos
  · refine iff_of_false (fun h => ?_) fun h => h.2 (h.1.unique hpos hslot)
    have hseq := h.seq
    rw [setSeq_seq, if_pos hslot] at hseq
    rw [← hseq] at hslot
    exact slot_succ_ne hbits hslot
  · rw [free_setSeq_of_ne hslot]
    exact (and_iff_left (ne_of_slot_ne hslot)).symm

theorem full_emplaceStore (hbits : 0 < bits) {p pos : ℕ} (hr : Fits bits r) (hpos : Free bits r pos)
    (hlt : pos < r.head) :
    Full bits (r.setSeq (slot bits pos) (pos + 1)) p ↔ Full bits r p ∨ p = pos := by
  by_cases hslot : slot bits p = slot bits pos
  · constructor
    · intro h
      have hseq := h.seq
      rw [setSeq_seq, if_pos hslot] at hseq
      exact .inr (by omega)
    · rintro (h | rfl)
      · exact absurd hslot.symm (hpos.slot_ne hbits h)
      · exact ⟨by simp [setSeq_seq], hlt, hr.head_le.trans (Nat.add_le_add_right hpos.tail_le _)⟩
  · rw [full_setSeq_of_ne hslot]
    exact (or_iff_left (ne_of_slot_ne hslot)).symm

theorem free_consumeStore (hbits : 0 < bits) {p pos : ℕ} (hr : Fits bits r) (hpos : Full bits r pos)
    (hlt : pos < r.tail) :
    Free bits (r.setSeq (slot bits pos) (pos + 2 ^ bits)) p ↔
      Free bits r p ∨ p = pos + 2 ^ bits := by
  by_cases hslot : slot bits p = slot bits pos
  · constructor
    · intro h
      have hseq := h.seq
      rw [setSeq_seq, if_pos hslot] at hseq
      exact .inr hseq.symm
    · rintro (h | rfl)
      · exact absurd hslot (h.slot_ne hbits hpos)
      · exact ⟨by simp [setSeq_seq], hr.tail_le.trans hpos.head_le, Nat.add_lt_add_right hlt _⟩
  · rw [free_setSeq_of_ne hslot, or_iff_left]
    rintro rfl
    exact hslot (slot_add bits pos)

theorem full_consumeStore {p pos : ℕ} (hbits : 0 < bits) (hpos : Full bits r pos) :
    Full bits (r.setSeq (slot bits pos) (pos + 2 ^ bits)) p ↔ Full bits r p ∧ p ≠ pos := by
  by_cases hslot : slot bits p = slot bits pos
  · refine iff_of_false (fun h => ?_) fun h => h.2 (h.1.unique hpos hslot)
    have hseq := h.seq
    have hnext := slot_add bits pos
    rw [setSeq_seq, if_pos hslot] at hseq
    rw [hseq, ← hslot] at hnext
    exact slot_succ_ne hbits hnext
  · rw [full_setSeq_of_ne hslot]
    exact (and_iff_left (ne_of_slot_ne hslot)).symm

/-! ### Every access keeps the invariant -/

theorem Fits.lt_head (hr : Fits bits r) {p : ℕ} {task : α} (h : r.emplaced[p]? = some task) :
    p < r.head := by
  rw [← hr.length]
  exact (List.getElem?_eq_some_iff.1 h).1

theorem Inv.free_of_won (hs : Inv bits r calls) {c p : ℕ} (h : (calls c).won = some (p, true)) :
    Free bits r p ∧ p < r.head := by
  have hknows := hs.knows c
  cases hpc : calls c <;> simp only [hpc, Pc.won, Option.some.injEq, Prod.mk.injEq, reduceCtorEq,
    and_false, and_true] at h <;> subst h <;> rw [hpc] at hknows
  · exact ⟨hknows.1, hs.lt_head hknows.2⟩
  · exact ⟨hknows.1, hs.lt_head hknows.2.1⟩

theorem Inv.full_of_won (hs : Inv bits r calls) {c p : ℕ} (h : (calls c).won = some (p, false)) :
    Full bits r p ∧ p < r.tail := by
  have hknows := hs.knows c
  cases hpc : calls c <;> simp only [hpc, Pc.won, Option.some.injEq, Prod.mk.injEq, reduceCtorEq,
    and_false, and_true] at h <;> subst h <;> rw [hpc] at hknows
  · exact ⟨hknows.1, hknows.2.1⟩
  · exact hknows
  · exact hknows

theorem Inv.slot_ne (hs : Inv bits r calls) (hbits : 0 < bits) {c c' p p' : ℕ} {b b' : Bool}
    (hc : c ≠ c') (h : (calls c).won = some (p, b)) (h' : (calls c').won = some (p', b')) :
    slot bits p ≠ slot bits p' := by
  intro hslot
  cases b with
  | true =>
    cases b' with
    | true =>
      obtain rfl := (hs.free_of_won h).1.unique (hs.free_of_won h').1 hslot
      exact hc (hs.alone c c' _ h h')
    | false => exact (hs.free_of_won h).1.slot_ne hbits (hs.full_of_won h').1 hslot
  | false =>
    cases b' with
    | true => exact (hs.free_of_won h').1.slot_ne hbits (hs.full_of_won h).1 hslot.symm
    | false =>
      obtain rfl := (hs.full_of_won h).1.unique (hs.full_of_won h').1 hslot
      exact hc (hs.alone c c' _ h h')

/-- What a call knows stays true when the words grow and its slot is left alone. -/
theorem Local.mono {r' : Ring α} {pc : Pc α} (h : Local bits r pc) (hhead : r.head ≤ r'.head)
    (htail : r.tail ≤ r'.tail) (hseq : ∀ i, r.seq i ≤ r'.seq i)
    (hemplaced : r.emplaced <+: r'.emplaced)
    (hfree : ∀ p, pc.won = some (p, true) → Free bits r p → Free bits r' p)
    (hfull : ∀ p, pc.won = some (p, false) → Full bits r p → Full bits r' p)
    (htask : ∀ p b, pc.won = some (p, b) → r'.task (slot bits p) = r.task (slot bits p)) :
    Local bits r' pc := by
  have hget {p : ℕ} {task : α} (hp : r.emplaced[p]? = some task) : r'.emplaced[p]? = some task := by
    obtain ⟨rest, hrest⟩ := hemplaced
    rw [← hrest, List.getElem?_append_left (List.getElem?_eq_some_iff.1 hp).1]
    exact hp
  cases pc with
  | idle | returned | emplaceHead | consumeTail => trivial
  | emplaceSeq task pos => exact h.trans hhead
  | emplaceCas task pos => exact ⟨h.1.trans hhead, h.2.trans (hseq _)⟩
  | emplaceSet task pos => exact ⟨hfree pos rfl h.1, hget h.2⟩
  | emplaceStore task pos =>
    exact ⟨hfree pos rfl h.1, hget h.2.1, (htask pos true rfl).trans h.2.2⟩
  | consumeSeq run pos => exact h.trans htail
  | consumeCas run pos => exact ⟨h.1.trans htail, h.2.trans (hseq _)⟩
  | consumeRun run pos =>
    obtain ⟨hpos, hlt, task, hget', htask'⟩ := h
    exact ⟨hfull pos rfl hpos, hlt.trans_le htail, task, hget hget',
      (htask pos false rfl).trans htask'⟩
  | consumeClean pos => exact ⟨hfull pos rfl h.1, h.2.trans_le htail⟩
  | consumeStore pos => exact ⟨hfull pos rfl h.1, h.2.trans_le htail⟩

/-- One call moves to `pc` and the words to `r'`: what remains to be said of the others. -/
theorem Inv.moved {r' : Ring α} {c : ℕ} {pc : Pc α} (hs : Inv bits r calls) (hfits : Fits bits r')
    (hpc : Local bits r' pc) (hothers : ∀ c', c' ≠ c → Local bits r' (calls c'))
    (halone : ∀ c' w, c' ≠ c → pc.won = some w → (calls c').won ≠ some w)
    (hwriter : ∀ p, Free bits r' p → p < r'.head → pc.won = some (p, true) ∨
      Free bits r p ∧ p < r.head ∧ (calls c).won ≠ some (p, true))
    (hreader : ∀ p, Full bits r' p → p < r'.tail → pc.won = some (p, false) ∨
      Full bits r p ∧ p < r.tail ∧ (calls c).won ≠ some (p, false))
    (hcontent : ∀ p, Full bits r' p → r'.tail ≤ p → ∃ task, Has bits r' p task) :
    Inv bits r' (Function.update calls c pc) := by
  have hself : Function.update calls c pc c = pc := Function.update_self ..
  have hne {c' : ℕ} (h : c' ≠ c) : Function.update calls c pc c' = calls c' :=
    Function.update_of_ne h ..
  refine ⟨hfits, ?_, ?_, ?_, ?_, hcontent⟩
  · intro c'
    by_cases h : c' = c
    · rw [h, hself]
      exact hpc
    · rw [hne h]
      exact hothers c' h
  · intro c' c'' w h' h''
    by_cases hc' : c' = c <;> by_cases hc'' : c'' = c
    · rw [hc', hc'']
    · rw [hc', hself] at h'
      rw [hne hc''] at h''
      exact absurd h'' (halone c'' w hc'' h')
    · rw [hne hc'] at h'
      rw [hc'', hself] at h''
      exact absurd h' (halone c' w hc' h'')
    · rw [hne hc'] at h'
      rw [hne hc''] at h''
      exact hs.alone c' c'' w h' h''
  · intro p hp hlt
    rcases hwriter p hp hlt with hnew | ⟨hfree, hlt', hold⟩
    · exact ⟨c, by rw [hself, hnew]⟩
    · obtain ⟨c', hc'⟩ := hs.writer p hfree hlt'
      have h : c' ≠ c := fun heq => hold (heq ▸ hc')
      exact ⟨c', by rw [hne h, hc']⟩
  · intro p hp hlt
    rcases hreader p hp hlt with hnew | ⟨hfull, hlt', hold⟩
    · exact ⟨c, by rw [hself, hnew]⟩
    · obtain ⟨c', hc'⟩ := hs.reader p hfull hlt'
      have h : c' ≠ c := fun heq => hold (heq ▸ hc')
      exact ⟨c', by rw [hne h, hc']⟩

/-- A call that moves on, winning and storing nothing. -/
theorem Inv.kept (hs : Inv bits r calls) {c : ℕ} {pc : Pc α} (hwon : pc.won = (calls c).won)
    (hpc : Local bits r pc) : Inv bits r (Function.update calls c pc) := by
  refine hs.moved hs.toFits hpc (fun c' _ => hs.knows c') ?_ ?_ ?_ hs.content
  · intro c' w hne hw h
    exact hne (hs.alone c' c w h (hwon ▸ hw))
  · intro p hp hlt
    by_cases h : pc.won = some (p, true)
    · exact .inl h
    · exact .inr ⟨hp, hlt, hwon ▸ h⟩
  · intro p hp hlt
    by_cases h : pc.won = some (p, false)
    · exact .inl h
    · exact .inr ⟨hp, hlt, hwon ▸ h⟩

theorem Inv.emplaceCas (hs : Inv bits r calls) (hbits : 0 < bits) {c : ℕ} {task : α}
    (hpc : calls c = .emplaceCas task r.head) :
    Inv bits { r with head := r.head + 1, emplaced := r.emplaced ++ [task] }
      (Function.update calls c (.emplaceSet task r.head)) := by
  have hknows := hs.knows c
  rw [hpc] at hknows
  have hhead : Free bits r r.head := hs.free_head hbits hknows.2
  have hfull (p : ℕ) := full_emplaceCas hbits p task hhead
  have hlast : (r.emplaced ++ [task])[r.head]? = some task := by
    rw [← hs.length]
    simp
  have hpre {p : ℕ} {t : α} (h : r.emplaced[p]? = some t) : (r.emplaced ++ [task])[p]? = some t := by
    rw [List.getElem?_append_left (List.getElem?_eq_some_iff.1 h).1]
    exact h
  refine hs.moved ⟨?_, ?_, ?_, ?_⟩ ⟨(free_emplaceCas task).2 hhead, hlast⟩ ?_ ?_ ?_ ?_ ?_
  · exact hs.tail_le.trans (Nat.le_succ _)
  · exact hhead.lt_tail
  · simp [hs.length]
  · intro q
    obtain ⟨p, hslot, hp⟩ := hs.slots q
    exact ⟨p, hslot, hp.imp (free_emplaceCas task).2 (hfull p).2⟩
  · intro c' _
    refine (hs.knows c').mono (Nat.le_succ _) le_rfl (fun _ => le_rfl) (List.prefix_append ..)
      (fun p _ => (free_emplaceCas task).2) (fun p _ => (hfull p).2) fun _ _ _ => rfl
  · intro c' w _ hw hc'
    obtain rfl := Option.some.inj hw
    exact absurd (hs.free_of_won hc').2 (lt_irrefl _)
  · intro p hp hlt
    rw [free_emplaceCas] at hp
    by_cases h : p = r.head
    · exact .inl (by rw [h]; rfl)
    · exact .inr ⟨hp, by dsimp only at hlt; omega, by simp [hpc, Pc.won]⟩
  · intro p hp hlt
    exact .inr ⟨(hfull p).1 hp, hlt, by simp [hpc, Pc.won]⟩
  · intro p hp hle
    obtain ⟨t, hget, htask⟩ := hs.content p ((hfull p).1 hp) hle
    exact ⟨t, hpre hget, htask⟩

theorem Inv.setTask (hs : Inv bits r calls) (hbits : 0 < bits) {c pos : ℕ} {b : Bool} {pc : Pc α}
    {x : Option α} (hold : (calls c).won = some (pos, b)) (hnew : pc.won = some (pos, b))
    (hpc : Local bits (r.setTask (slot bits pos) x) pc) :
    Inv bits (r.setTask (slot bits pos) x) (Function.update calls c pc) := by
  refine hs.moved ⟨hs.tail_le, hs.head_le, hs.length, ?_⟩ hpc ?_ ?_ ?_ ?_ ?_
  · intro q
    obtain ⟨p, hslot, hp⟩ := hs.slots q
    exact ⟨p, hslot, hp.imp free_setTask.2 full_setTask.2⟩
  · intro c' hne
    refine (hs.knows c').mono le_rfl le_rfl (fun _ => le_rfl) (List.prefix_refl _)
      (fun p _ => free_setTask.2) (fun p _ => full_setTask.2) fun p b' hp => ?_
    rw [setTask_task, if_neg (hs.slot_ne hbits hne hp hold)]
  · intro c' w hne hw h
    exact hne (hs.alone c' c w h (hold.trans (hnew ▸ hw)))
  · intro p hp hlt
    by_cases h : pc.won = some (p, true)
    · exact .inl h
    · exact .inr ⟨free_setTask.1 hp, hlt, by rwa [hold, ← hnew]⟩
  · intro p hp hlt
    by_cases h : pc.won = some (p, false)
    · exact .inl h
    · exact .inr ⟨full_setTask.1 hp, hlt, by rwa [hold, ← hnew]⟩
  · intro p hp hle
    rw [full_setTask] at hp
    obtain ⟨task, hget, htask⟩ := hs.content p hp hle
    refine ⟨task, hget, ?_⟩
    -- a task that is neither won nor taken is not at this slot
    rw [setTask_task, if_neg, htask]
    intro hslot
    cases b with
    | true => exact (hs.free_of_won hold).1.slot_ne hbits hp hslot.symm
    | false =>
      obtain ⟨hfull, hlt⟩ := hs.full_of_won hold
      have := hp.unique hfull hslot
      have : r.tail ≤ p := hle
      omega

theorem Inv.emplaceStore (hs : Inv bits r calls) (hbits : 0 < bits) {c pos : ℕ} {task : α}
    (hpc : calls c = .emplaceStore task pos) :
    Inv bits (r.setSeq (slot bits pos) (pos + 1)) (Function.update calls c (.returned true)) := by
  have hwon : (calls c).won = some (pos, true) := by rw [hpc]; rfl
  obtain ⟨hpos, hlt⟩ := hs.free_of_won hwon
  have hhas : Has bits r pos task := by
    have hknows := hs.knows c
    rw [hpc] at hknows
    exact hknows.2
  have hfull (p : ℕ) := full_emplaceStore hbits (p := p) hs.toFits hpos hlt
  have hfree (p : ℕ) := free_emplaceStore hbits (p := p) hpos
  refine hs.moved ⟨hs.tail_le, hs.head_le, hs.length, ?_⟩ trivial ?_ ?_ ?_ ?_ ?_
  · intro q
    obtain ⟨p, hslot, hp | hp⟩ := hs.slots q
    · by_cases h : p = pos
      · exact ⟨p, hslot, .inr ((hfull p).2 (.inr h))⟩
      · exact ⟨p, hslot, .inl ((hfree p).2 ⟨hp, h⟩)⟩
    · exact ⟨p, hslot, .inr ((hfull p).2 (.inl hp))⟩
  · intro c' hne
    refine (hs.knows c').mono le_rfl le_rfl (fun i => ?_) (List.prefix_refl _) ?_ ?_
      fun _ _ _ => rfl
    · rw [setSeq_seq]
      split
      · next hi => rw [hi, hpos.seq]; exact Nat.le_succ _
      · exact le_rfl
    · intro p hp hfree'
      exact (hfree p).2 ⟨hfree', ne_of_slot_ne (hs.slot_ne hbits hne hp hwon)⟩
    · exact fun p _ hfull' => (hfull p).2 (.inl hfull')
  · exact fun c' w _ hw => absurd hw (by simp [Pc.won])
  · intro p hp hlt'
    obtain ⟨hp, hne⟩ := (hfree p).1 hp
    exact .inr ⟨hp, hlt', by simp [hwon, Ne.symm hne]⟩
  · intro p hp hlt'
    rcases (hfull p).1 hp with hp | rfl
    · exact .inr ⟨hp, hlt', by simp [hwon]⟩
    · exact absurd hpos.tail_le (Nat.not_le.2 hlt')
  · intro p hp hle
    rcases (hfull p).1 hp with hp | rfl
    · exact hs.content p hp hle
    · exact ⟨task, hhas⟩

theorem Inv.consumeCas (hs : Inv bits r calls) (hbits : 0 < bits) {c : ℕ} {run : Bool}
    (hpc : calls c = .consumeCas run r.tail) :
    Inv bits { r with tail := r.tail + 1 } (Function.update calls c (.consumeRun run r.tail)) := by
  have hknows := hs.knows c
  rw [hpc] at hknows
  have htail : Full bits r r.tail := hs.full_tail hknows.2
  have hfree (p : ℕ) := free_consumeCas hbits (p := p) htail
  refine hs.moved ⟨htail.lt_head, ?_, hs.length, ?_⟩
    ⟨full_consumeCas.2 htail, Nat.lt_succ_self _, hs.content _ htail le_rfl⟩ ?_ ?_ ?_ ?_ ?_
  · exact hs.head_le.trans (Nat.add_le_add_right (Nat.le_succ _) _)
  · intro q
    obtain ⟨p, hslot, hp⟩ := hs.slots q
    exact ⟨p, hslot, hp.imp (hfree p).2 full_consumeCas.2⟩
  · intro c' _
    exact (hs.knows c').mono le_rfl (Nat.le_succ _) (fun _ => le_rfl) (List.prefix_refl _)
      (fun p _ => (hfree p).2) (fun p _ => full_consumeCas.2) fun _ _ _ => rfl
  · intro c' w _ hw hc'
    obtain rfl := Option.some.inj hw
    exact absurd (hs.full_of_won hc').2 (lt_irrefl _)
  · intro p hp hlt
    exact .inr ⟨(hfree p).1 hp, hlt, by simp [hpc, Pc.won]⟩
  · intro p hp hlt
    by_cases h : p = r.tail
    · exact .inl (by rw [h]; rfl)
    · exact .inr ⟨full_consumeCas.1 hp, by dsimp only at hlt; omega, by simp [hpc, Pc.won]⟩
  · intro p hp hle
    exact hs.content p (full_consumeCas.1 hp) ((Nat.le_succ _).trans hle)

theorem Inv.consumeStore (hs : Inv bits r calls) (hbits : 0 < bits) {c pos : ℕ}
    (hpc : calls c = .consumeStore pos) :
    Inv bits (r.setSeq (slot bits pos) (pos + 2 ^ bits))
      (Function.update calls c (.returned true)) := by
  have hwon : (calls c).won = some (pos, false) := by rw [hpc]; rfl
  obtain ⟨hpos, hlt⟩ := hs.full_of_won hwon
  have hfree (p : ℕ) := free_consumeStore hbits (p := p) hs.toFits hpos hlt
  have hfull (p : ℕ) := full_consumeStore hbits (p := p) hpos
  have hring : 1 ≤ 2 ^ bits := Nat.one_le_two_pow
  refine hs.moved ⟨hs.tail_le, hs.head_le, hs.length, ?_⟩ trivial ?_ ?_ ?_ ?_ ?_
  · intro q
    obtain ⟨p, hslot, hp | hp⟩ := hs.slots q
    · exact ⟨p, hslot, .inl ((hfree p).2 (.inl hp))⟩
    · by_cases h : p = pos
      · refine ⟨pos + 2 ^ bits, ?_, .inl ((hfree _).2 (.inr rfl))⟩
        rw [slot_add, ← h, hslot]
      · exact ⟨p, hslot, .inr ((hfull p).2 ⟨hp, h⟩)⟩
  · intro c' hne
    refine (hs.knows c').mono le_rfl le_rfl (fun i => ?_) (List.prefix_refl _) ?_ ?_
      fun _ _ _ => rfl
    · rw [setSeq_seq]
      split
      · next hi => rw [hi, hpos.seq]; omega
      · exact le_rfl
    · exact fun p _ hfree' => (hfree p).2 (.inl hfree')
    · intro p hp hfull'
      exact (hfull p).2 ⟨hfull', ne_of_slot_ne (hs.slot_ne hbits hne hp hwon)⟩
  · exact fun c' w _ hw => absurd hw (by simp [Pc.won])
  · intro p hp hlt'
    rcases (hfree p).1 hp with hp | rfl
    · exact .inr ⟨hp, hlt', by simp [hwon]⟩
    · exact absurd hpos.head_le (Nat.not_le.2 hlt')
  · intro p hp hlt'
    obtain ⟨hp, hne⟩ := (hfull p).1 hp
    exact .inr ⟨hp, hlt', by simp [hwon, Ne.symm hne]⟩
  · intro p hp hle
    exact hs.content p ((hfull p).1 hp).1 hle

/-- **The step**: every access, whether or not the exchange fails, keeps the invariant. -/
theorem Inv.access (hs : Inv bits r calls) (hbits : 0 < bits) (c : ℕ) (spurious : Bool) :
    Inv bits (access bits spurious r (calls c)).1
      (Function.update calls c (access bits spurious r (calls c)).2) := by
  have hknows := hs.knows c
  cases hpc : calls c with
  | idle => exact hs.kept (by rw [hpc]; rfl) trivial
  | returned result => exact hs.kept (by rw [hpc]; rfl) trivial
  | emplaceHead task => exact hs.kept (by rw [hpc]; rfl) (le_refl r.head)
  | emplaceSeq task pos =>
    rw [hpc] at hknows
    simp only [SubQueue.access]
    split
    · next hseq => exact hs.kept (by rw [hpc]; rfl) ⟨hknows, hseq.ge⟩
    · split
      · exact hs.kept (by rw [hpc]; rfl) trivial
      · exact hs.kept (by rw [hpc]; rfl) trivial
  | emplaceCas task pos =>
    simp only [SubQueue.access]
    split
    · next h =>
      obtain ⟨rfl, -⟩ := h
      exact hs.emplaceCas hbits hpc
    · exact hs.kept (by rw [hpc]; rfl) (le_refl r.head)
  | emplaceSet task pos =>
    rw [hpc] at hknows
    refine hs.setTask hbits (b := true) (by rw [hpc]; rfl) rfl ⟨free_setTask.2 hknows.1, hknows.2, ?_⟩
    rw [setTask_task, if_pos rfl]
  | emplaceStore task pos => exact hs.emplaceStore hbits hpc
  | consumeTail run => exact hs.kept (by rw [hpc]; rfl) (le_refl r.tail)
  | consumeSeq run pos =>
    rw [hpc] at hknows
    simp only [SubQueue.access]
    split
    · next hseq => exact hs.kept (by rw [hpc]; rfl) ⟨hknows, hseq.ge⟩
    · split
      · exact hs.kept (by rw [hpc]; rfl) trivial
      · exact hs.kept (by rw [hpc]; rfl) trivial
  | consumeCas run pos =>
    simp only [SubQueue.access]
    split
    · next h =>
      obtain ⟨rfl, -⟩ := h
      exact hs.consumeCas hbits hpc
    · exact hs.kept (by rw [hpc]; rfl) (le_refl r.tail)
  | consumeRun run pos =>
    rw [hpc] at hknows
    exact hs.kept (by rw [hpc]; rfl) ⟨hknows.1, hknows.2.1⟩
  | consumeClean pos =>
    rw [hpc] at hknows
    exact hs.setTask hbits (b := false) (by rw [hpc]; rfl) rfl ⟨full_setTask.2 hknows.1, hknows.2⟩
  | consumeStore pos => exact hs.consumeStore hbits hpc

/-- A task that was run is the one put in at its position, and no call is about to run it again. -/
structure RanOnce (s : SubQueue α) : Prop where
  own : ∀ x ∈ s.ran, s.ring.emplaced[x.1]? = some x.2
  taken : ∀ x ∈ s.ran, x.1 < s.ring.tail
  done : ∀ x ∈ s.ran, ∀ c run, s.calls c ≠ .consumeRun run x.1
  nodup : (s.ran.map Prod.fst).Nodup

theorem begin_cases (s : SubQueue α) (c : ℕ) (pc : Pc α) :
    s.begin c pc = s ∨
      (s.calls c).won = none ∧ s.begin c pc = { s with calls := Function.update s.calls c pc } := by
  rw [begin]
  split
  · next h => exact .inr ⟨by rw [h]; rfl, rfl⟩
  · next h => exact .inr ⟨by rw [h]; rfl, rfl⟩
  · exact .inl rfl

theorem Inv.begin {s : SubQueue α} (hs : Inv bits s.ring s.calls) (c : ℕ) {pc : Pc α}
    (hwon : pc.won = none) (hpc : Local bits s.ring pc) :
    Inv bits (s.begin c pc).ring (s.begin c pc).calls := by
  rcases begin_cases s c pc with h | ⟨hold, h⟩
  · rw [h]
    exact hs
  · rw [h]
    exact hs.kept (hwon.trans hold.symm) hpc

theorem Inv.step {s : SubQueue α} (hs : Inv bits s.ring s.calls) (hbits : 0 < bits) (e : Event α) :
    Inv bits (step bits s e).ring (SubQueue.step bits s e).calls := by
  cases e with
  | tryEmplace c task => exact hs.begin c rfl trivial
  | tryConsumeOne c run => exact hs.begin c rfl trivial
  | advance c spurious => exact hs.access hbits c spurious

/-- The ring after `init`. -/
def init : SubQueue α := {}

theorem inv_init (bits : ℕ) : Inv bits (init : SubQueue α).ring (init : SubQueue α).calls := by
  refine ⟨⟨le_rfl, Nat.zero_le _, rfl, fun q => ?_⟩, fun _ => trivial, ?_, ?_, ?_, ?_⟩
  · have hlt : slot bits q < 2 ^ bits := by
      rw [slot_eq_mod]
      exact Nat.mod_lt _ Nat.one_le_two_pow
    have hslot : slot bits (slot bits q) = slot bits q := by
      rw [slot_eq_mod bits (slot bits q), Nat.mod_eq_of_lt hlt]
    exact ⟨slot bits q, hslot, .inl ⟨hslot, Nat.zero_le _, by simpa [init] using hlt⟩⟩
  · exact fun c c' w h => by simp [init, Pc.won] at h
  · exact fun p _ hlt => absurd hlt (Nat.not_lt_zero p)
  · exact fun p _ hlt => absurd hlt (Nat.not_lt_zero p)
  · exact fun p hp => absurd hp.lt_head (Nat.not_lt_zero p)

theorem inv_runFrom (hbits : 0 < bits) (es : List (Event α)) :
    Inv bits (runFrom (step bits) init es).ring (runFrom (step bits) init es).calls :=
  Along.invariant (I := fun s : SubQueue α => Inv bits s.ring s.calls) (C := fun _ _ => True)
    (fun _ e hs _ => hs.step hbits e) (inv_init bits) (Along.of_forall fun _ _ => trivial)

/-- **One call at a slot**: whatever the interleaving, two calls that have won positions are at
    different slots, so a slot's task is never touched by two calls at once. -/
theorem slot_exclusive (hbits : 0 < bits) (es : List (Event α)) {c c' p p' : ℕ} {b b' : Bool}
    (hc : c ≠ c') (h : ((runFrom (step bits) init es).calls c).won = some (p, b))
    (h' : ((runFrom (step bits) init es).calls c').won = some (p', b')) :
    slot bits p ≠ slot bits p' :=
  (inv_runFrom hbits es).slot_ne hbits hc h h'

/-- Two calls put tasks in, and a third takes the first one while the second is not done. -/
def overlapping : List (Event ℕ) :=
  [.tryEmplace 0 10, .tryEmplace 1 20, .advance 0 false, .advance 1 false, .advance 0 false,
    .advance 1 false, .advance 0 false, .advance 1 false, .advance 1 false, .advance 1 false,
    .advance 0 false, .advance 0 false, .tryConsumeOne 2 true, .advance 2 false, .advance 2 false,
    .advance 2 false]

theorem slot_exclusive_overlapping : slot 1 1 ≠ slot 1 0 :=
  slot_exclusive Nat.one_pos overlapping (by decide : 1 ≠ 2) (show _ = some (1, true) from rfl)
    (show _ = some (0, false) from rfl)

/-! ### The ring is a bounded queue -/

/-- The tasks in the queue: put in, and not yet won by a call that takes them out. -/
def queue (r : Ring α) : List α := r.emplaced.drop r.tail

/-- One step of a queue of at most `capacity` tasks, by a call that puts `offered` in. -/
inductive QueueStep (capacity : ℕ) (offered : Option α) : List α → List α → Prop
  | stay (q : List α) : QueueStep capacity offered q q
  | put (q : List α) (task : α) (h : q.length < capacity) (ho : offered = some task) :
      QueueStep capacity offered q (q ++ [task])
  | take (task : α) (q : List α) : QueueStep capacity offered (task :: q) q

theorem Fits.length_queue (hr : Fits bits r) : (queue r).length = r.head - r.tail := by
  rw [queue, List.length_drop, hr.length]

theorem queue_emplaceCas (hr : Fits bits r) (task : α) :
    queue { r with head := r.head + 1, emplaced := r.emplaced ++ [task] } = queue r ++ [task] :=
  List.drop_append_of_le_length (hr.length ▸ hr.tail_le)

theorem queue_consumeCas (hr : Fits bits r) (h : r.tail < r.head) :
    ∃ task, r.emplaced[r.tail]? = some task ∧
      queue r = task :: queue { r with tail := r.tail + 1 } := by
  have hlt : r.tail < r.emplaced.length := hr.length ▸ h
  exact ⟨r.emplaced[r.tail], List.getElem?_eq_getElem hlt, List.drop_eq_getElem_cons hlt⟩

theorem Inv.queueStep (hs : Inv bits r calls) (hbits : 0 < bits) (c : ℕ) (spurious : Bool) :
    QueueStep (2 ^ bits) (calls c).offered (queue r)
      (queue (SubQueue.access bits spurious r (calls c)).1) := by
  have hknows := hs.knows c
  cases hpc : calls c <;> simp only [SubQueue.access]
  case emplaceCas task pos =>
    rw [hpc] at hknows
    split
    · next h =>
      obtain ⟨rfl, -⟩ := h
      rw [queue_emplaceCas hs.toFits]
      refine .put _ _ ?_ rfl
      rw [hs.length_queue]
      have := (hs.free_head hbits hknows.2).lt_tail
      have := hs.tail_le
      omega
    · exact .stay _
  case consumeCas run pos =>
    rw [hpc] at hknows
    split
    · next h =>
      obtain ⟨rfl, -⟩ := h
      obtain ⟨task, -, hqueue⟩ := queue_consumeCas hs.toFits (hs.full_tail hknows.2).lt_head
      rw [hqueue]
      exact .take task _
    · exact .stay _
  case emplaceSeq => split_ifs <;> exact .stay _
  case consumeSeq => split_ifs <;> exact .stay _
  all_goals exact .stay _

theorem begin_ring (s : SubQueue α) (c : ℕ) (pc : Pc α) : (s.begin c pc).ring = s.ring := by
  rcases begin_cases s c pc with h | ⟨-, h⟩ <;> rw [h]

/-- **The ring is a bounded queue**: in any interleaving a step leaves the queue as it is, puts the
    task of its call at its end while it has fewer than the capacity, or takes the first one. -/
theorem ring_queueStep (hbits : 0 < bits) (es : List (Event α)) (e : Event α) :
    QueueStep (2 ^ bits) ((runFrom (step bits) init es).offered e)
      (queue (runFrom (step bits) init es).ring)
      (queue (runFrom (step bits) init (es ++ [e])).ring) := by
  rw [runFrom_concat]
  have hs := inv_runFrom hbits es
  cases e with
  | tryEmplace c task =>
    rw [step, begin_ring]
    exact .stay _
  | tryConsumeOne c run =>
    rw [step, begin_ring]
    exact .stay _
  | advance c spurious => exact hs.queueStep hbits c spurious

theorem ring_queueStep_overlapping :
    QueueStep 2 none [20]
      (queue (runFrom (step 1) init (overlapping ++ [Event.advance 2 false])).ring) :=
  ring_queueStep Nat.one_pos overlapping (.advance 2 false)

/-! ### A task is run once, and it is the position's own -/

theorem RanOnce.begin {s : SubQueue α} (h : s.RanOnce) (c : ℕ) {pc : Pc α}
    (hpc : ∀ run pos, pc ≠ .consumeRun run pos) : (s.begin c pc).RanOnce := by
  rcases begin_cases s c pc with heq | ⟨-, heq⟩
  · rw [heq]
    exact h
  · rw [heq]
    refine ⟨h.own, h.taken, fun x hx c' run hcall => ?_, h.nodup⟩
    dsimp only at hcall
    rw [Function.update_apply] at hcall
    split at hcall
    · exact hpc run x.1 hcall
    · exact h.done x hx c' run hcall

theorem emplaced_access (bits : ℕ) (spurious : Bool) (r : Ring α) (pc : Pc α) :
    r.emplaced <+: (access bits spurious r pc).1.emplaced := by
  cases pc <;> simp only [access] <;> (try split_ifs) <;> simp [Ring.setSeq, Ring.setTask]

theorem tail_access (bits : ℕ) (spurious : Bool) (r : Ring α) (pc : Pc α) :
    r.tail ≤ (access bits spurious r pc).1.tail := by
  cases pc <;> simp only [access] <;> (try split_ifs) <;> simp [Ring.setSeq, Ring.setTask]
  all_goals omega

theorem access_consumeRun {spurious run : Bool} {pc : Pc α} {pos : ℕ}
    (h : (access bits spurious r pc).2 = .consumeRun run pos) : pos = r.tail := by
  cases pc <;> simp only [access] at h <;> (try split_ifs at h) <;> simp_all

theorem runs_eq_some {pc : Pc α} {x : ℕ × α} :
    runs bits r pc = some x ↔ pc = .consumeRun true x.1 ∧ r.task (slot bits x.1) = some x.2 := by
  obtain ⟨pos, task⟩ := x
  constructor
  · intro h
    unfold runs at h
    split at h
    · obtain ⟨t, ht, heq⟩ := Option.map_eq_some_iff.1 h
      cases heq
      exact ⟨rfl, ht⟩
    · cases h
  · rintro ⟨rfl, h⟩
    simp [runs, h]

theorem RanOnce.advance {s : SubQueue α} (h : s.RanOnce) (hs : Inv bits s.ring s.calls) (c : ℕ)
    (spurious : Bool) : (s.advance bits c spurious).RanOnce := by
  have hknows := hs.knows c
  -- the task that this access runs
  have hnew {x : ℕ × α} (hx : runs bits s.ring (s.calls c) = some x) :
      s.ring.emplaced[x.1]? = some x.2 ∧ x.1 < s.ring.tail ∧ s.calls c = .consumeRun true x.1 := by
    obtain ⟨hpc, htask⟩ := runs_eq_some.1 hx
    rw [hpc] at hknows
    obtain ⟨-, hlt, task, hget, hslot⟩ := hknows
    rw [htask] at hslot
    exact ⟨hslot ▸ hget, hlt, hpc⟩
  have hmem {x : ℕ × α} (hx : x ∈ (s.advance bits c spurious).ran) :
      x ∈ s.ran ∨ runs bits s.ring (s.calls c) = some x := by
    simpa [SubQueue.advance, Option.mem_toList] using hx
  have hknown {x : ℕ × α} (hx : x ∈ (s.advance bits c spurious).ran) :
      s.ring.emplaced[x.1]? = some x.2 ∧ x.1 < s.ring.tail := by
    rcases hmem hx with hx | hx
    · exact ⟨h.own x hx, h.taken x hx⟩
    · exact ⟨(hnew hx).1, (hnew hx).2.1⟩
  refine ⟨fun x hx => ?_, fun x hx => ?_, fun x hx c' run hcall => ?_, ?_⟩
  · obtain ⟨rest, hrest⟩ := emplaced_access bits spurious s.ring (s.calls c)
    have hget := (hknown hx).1
    rw [SubQueue.advance, ← hrest, List.getElem?_append_left (List.getElem?_eq_some_iff.1 hget).1]
    exact hget
  · exact (hknown hx).2.trans_le (tail_access bits spurious s.ring (s.calls c))
  · simp only [SubQueue.advance, Function.update_apply] at hcall
    split at hcall
    · have := access_consumeRun hcall
      have := (hknown hx).2
      omega
    · next hne =>
      rcases hmem hx with hx | hx
      · exact h.done x hx c' run hcall
      · obtain ⟨-, -, hpc⟩ := hnew hx
        exact hne (hs.alone c' c (x.1, false) (by rw [hcall]; rfl) (by rw [hpc]; rfl))
  · rw [SubQueue.advance, List.map_append, List.nodup_append]
    refine ⟨h.nodup, ?_, ?_⟩
    · cases runs bits s.ring (s.calls c) <;> simp
    · rintro p hp q hq rfl
      obtain ⟨x, hx, rfl⟩ := List.mem_map.1 hp
      obtain ⟨y, hy, hxy⟩ := List.mem_map.1 hq
      obtain ⟨-, -, hpc⟩ := hnew (by simpa using hy)
      exact h.done x hx c true (by rw [hpc, hxy])

theorem ranOnce_runFrom (hbits : 0 < bits) (es : List (Event α)) :
    (runFrom (step bits) init es).RanOnce := by
  refine (Along.invariant (I := fun s : SubQueue α => Inv bits s.ring s.calls ∧ s.RanOnce)
    (C := fun _ _ => True) (fun s e hs _ => ⟨hs.1.step hbits e, ?_⟩) ⟨inv_init bits, ?_⟩
    (Along.of_forall fun _ _ => trivial)).2
  · cases e with
    | tryEmplace c task => exact hs.2.begin c (by simp)
    | tryConsumeOne c run => exact hs.2.begin c (by simp)
    | advance c spurious => exact hs.2.advance hs.1 c spurious
  · exact ⟨by simp [init], by simp [init], by simp [init], by simp [init]⟩

/-- **A task is run at most once**, and what is run at a position is the task put in there. -/
theorem ran_once (hbits : 0 < bits) (es : List (Event α)) :
    ((runFrom (step bits) init es).ran.map Prod.fst).Nodup ∧
      ∀ x ∈ (runFrom (step bits) init es).ran,
        (runFrom (step bits) init es).ring.emplaced[x.1]? = some x.2 :=
  ⟨(ranOnce_runFrom hbits es).nodup, (ranOnce_runFrom hbits es).own⟩

theorem ran_once_overlapping :
    (runFrom (step 1) init (overlapping ++ [Event.advance 2 false])).ran = [(0, 10)] ∧
      ((runFrom (step 1) init (overlapping ++ [Event.advance 2 false])).ran.map Prod.fst).Nodup :=
  ⟨rfl, (ran_once Nat.one_pos (overlapping ++ [Event.advance 2 false])).1⟩

/-! ### What a call that gives up has seen -/

/-- A call gives up putting a task in when the slot of the head still has the task of a ring before:
    the queue is full, or a call is taking that task. -/
theorem Inv.full (hs : Inv bits r calls) {c pos : ℕ} {task : α}
    (hpc : calls c = .emplaceSeq task pos) (hseq : r.seq (slot bits pos) < pos) :
    pos = r.head ∧ ((queue r).length = 2 ^ bits ∨
      ∃ c' p, (calls c').won = some (p, false) ∧ p + 2 ^ bits = r.head) := by
  have hle : pos ≤ r.head := by
    have hknows := hs.knows c
    rwa [hpc] at hknows
  have hhead := hs.head_le
  have htail := hs.tail_le
  obtain ⟨p, hslot, hfree | hfull⟩ := hs.slots pos
  · have hp := hfree.seq
    rw [hslot] at hp
    have hback : p + 2 ^ bits ≤ pos := by
      by_contra hlt
      have := eq_of_slot hslot (by omega) (by omega)
      omega
    have := hfree.tail_le
    refine ⟨by omega, .inl ?_⟩
    rw [hs.length_queue]
    omega
  · have hp := hfull.seq
    rw [hslot] at hp
    have hback : p + 2 ^ bits ≤ pos := by
      by_contra hlt
      have := eq_of_slot hslot (by omega) (by omega)
      omega
    have := hfull.head_le
    refine ⟨by omega, ?_⟩
    by_cases hlt : p < r.tail
    · obtain ⟨c', hc'⟩ := hs.reader p hfull hlt
      exact .inr ⟨c', p, hc', by omega⟩
    · refine .inl ?_
      rw [hs.length_queue]
      omega

/-- A call gives up taking a task when the queue is empty, or its first task is still being put in. -/
theorem Inv.empty (hs : Inv bits r calls) {c pos : ℕ} {run : Bool}
    (hpc : calls c = .consumeSeq run pos) (hseq : r.seq (slot bits pos) < pos + 1) :
    pos = r.tail ∧ (queue r = [] ∨ ∃ c', (calls c').won = some (r.tail, true)) := by
  have hle : pos ≤ r.tail := by
    have hknows := hs.knows c
    rwa [hpc] at hknows
  have hhead := hs.head_le
  have htail := hs.tail_le
  obtain ⟨p, hslot, hfree | hfull⟩ := hs.slots pos
  · have hp := hfree.seq
    rw [hslot] at hp
    have := hfree.tail_le
    obtain rfl : p = r.tail := by omega
    refine ⟨by omega, ?_⟩
    by_cases hlt : r.tail < r.head
    · exact .inr (hs.writer _ hfree hlt)
    · refine .inl (List.eq_nil_of_length_eq_zero ?_)
      rw [hs.length_queue]
      omega
  · have hp := hfull.seq
    rw [hslot] at hp
    have hback : p + 2 ^ bits ≤ pos := by
      by_contra hlt
      have := eq_of_slot hslot (by omega) (by omega)
      omega
    have := hfull.head_le
    refine ⟨by omega, .inl (List.eq_nil_of_length_eq_zero ?_)⟩
    rw [hs.length_queue]
    omega

theorem advance_calls (bits c : ℕ) (spurious : Bool) (s : SubQueue α) :
    (s.advance bits c spurious).calls c = (access bits spurious s.ring (s.calls c)).2 :=
  Function.update_self ..

/-- **Giving up**: `tryEmplace` returns false only on a full queue or while the task of the head's
    slot is being taken, and `tryConsumeOne` only on an empty queue or while its first task is being
    put in. -/
theorem gives_up (hbits : 0 < bits) (es : List (Event α)) (c : ℕ) (spurious : Bool)
    (h : ((runFrom (step bits) init (es ++ [.advance c spurious])).calls c) = .returned false) :
    let s := runFrom (step bits) init es
    (∀ task pos, s.calls c = .emplaceSeq task pos → (queue s.ring).length = 2 ^ bits ∨
      ∃ c' p, (s.calls c').won = some (p, false) ∧ p + 2 ^ bits = s.ring.head) ∧
    (∀ run pos, s.calls c = .consumeSeq run pos → queue s.ring = [] ∨
      ∃ c', (s.calls c').won = some (s.ring.tail, true)) := by
  intro s
  have hs : Inv bits s.ring s.calls := inv_runFrom hbits es
  rw [runFrom_concat, step, advance_calls] at h
  constructor
  · intro task pos hpc
    refine (hs.full hpc ?_).2
    change (access bits spurious s.ring (s.calls c)).2 = _ at h
    rw [hpc] at h
    simp only [access] at h
    split_ifs at h with _ hlt
    exact hlt
  · intro run pos hpc
    refine (hs.empty hpc ?_).2
    change (access bits spurious s.ring (s.calls c)).2 = _ at h
    rw [hpc] at h
    simp only [access] at h
    split_ifs at h with _ hlt
    exact hlt

theorem gives_up_init :
    queue (runFrom (step 1) (init : SubQueue ℕ) [.tryConsumeOne 0 true, .advance 0 false]).ring = [] ∨
      ∃ c', ((runFrom (step 1) (init : SubQueue ℕ) [.tryConsumeOne 0 true, .advance 0 false]).calls
        c').won = some (0, true) :=
  (gives_up Nat.one_pos [.tryConsumeOne 0 true, .advance 0 false] 0 false rfl).2 true 0 rfl

end SubQueue

end VirtualRouter.Core
