/-
  The transmit buffer (`transport/tcp/tx/TxBuffer.cpp`): a chain of blocks of
  `B` bytes each, as a byte queue.

  The chain is the list of its blocks, head first.  The bytes of a block are a
  function of the offset; the cursors are `uint32_t`, so that they are updated
  and subtracted modulo `2 ^ 32`.  The pool is an allocator: an argument says
  for each place of the source that takes a block whether it gets one, and
  what memory is found in it.  All buffers have the pool, so that the tests for
  a null pool are left out.  A span is the place it starts at and its length.

  * `unread` is the queue that the buffer stands for, `room` what can still be
    written behind it;
  * `Wf`: the cursors are in order and the counters count;
  * `TxSystem` runs several buffers of one pool; `QueueStep` says what each call
    does to the queues and `Readable` what `peek` and a reading loop see;
    `queue_run`: both hold in every state of every run.
-/
import VirtualRouter.Lib.Run

namespace VirtualRouter

/-- Subtraction of two `uint32_t`. -/
def u32sub (a b : ℕ) : ℕ := (a + 2 ^ 32 - b) % 2 ^ 32

/-- Addition of two `uint32_t`. -/
def u32add (a b : ℕ) : ℕ := (a + b) % 2 ^ 32

theorem u32sub_eq {a b : ℕ} (h : b ≤ a) (ha : a < 2 ^ 32) : u32sub a b = a - b := by
  rw [u32sub, show a + 2 ^ 32 - b = (a - b) + 2 ^ 32 by omega, Nat.add_mod_right,
    Nat.mod_eq_of_lt (by omega)]

theorem u32add_eq {a b c : ℕ} (h : a + b ≤ c) (hc : c < 2 ^ 32) : u32add a b = a + b :=
  Nat.mod_eq_of_lt (by omega)

/-! ## Blocks -/

structure TxBlock where
  data : ℕ → UInt8
  rd : ℕ := 0
  wr : ℕ := 0

namespace TxBlock

/-- The bytes between the cursors. -/
def unread (b : TxBlock) : List UInt8 := (List.range' b.rd (b.wr - b.rd)).map b.data

/-- The bytes behind the write cursor, in a block of `B` bytes. -/
def room (B : ℕ) (b : TxBlock) : List UInt8 := (List.range' b.wr (B - b.wr)).map b.data

/-- `bytes` written into the memory from offset `pos` on. -/
def put (b : TxBlock) (pos : ℕ) (bytes : List UInt8) : TxBlock :=
  { b with data := fun i => if i < pos then b.data i else (bytes[i - pos]?).getD (b.data i) }

def Ordered (B : ℕ) (b : TxBlock) : Prop := b.rd ≤ b.wr ∧ b.wr ≤ B

theorem length_unread (b : TxBlock) : b.unread.length = b.wr - b.rd := by simp [unread]

theorem unread_commit {b : TxBlock} {B : ℕ} (h : b.Ordered B) (n : ℕ) (hn : n ≤ B - b.wr) :
    unread { b with wr := b.wr + n } = b.unread ++ (b.room B).take n := by
  obtain ⟨m, hm⟩ : ∃ m, B - b.wr = n + m := ⟨B - b.wr - n, by omega⟩
  rw [unread, unread, room, ← List.map_take, ← List.map_append, hm, ← List.range'_append_1,
    List.take_left' List.length_range']
  have hsplit : b.wr + n - b.rd = (b.wr - b.rd) + n := by have := h.1; omega
  have hstart : b.rd + (b.wr - b.rd) = b.wr := by have := h.1; omega
  rw [hsplit, ← List.range'_append_1, hstart]

theorem room_commit (b : TxBlock) (B n : ℕ) : room B { b with wr := b.wr + n } = (b.room B).drop n := by
  rw [room, room, ← List.map_drop, List.drop_range', Nat.sub_add_eq, Nat.mul_one]

theorem unread_consume (b : TxBlock) (n : ℕ) :
    unread { b with rd := b.rd + n } = b.unread.drop n := by
  rw [unread, unread, ← List.map_drop, List.drop_range', Nat.sub_add_eq, Nat.mul_one]

/-- `l` with `bytes` written over it from position `at_` on. -/
def overwrite (l : List UInt8) (at_ : ℕ) (bytes : List UInt8) : List UInt8 :=
  l.take at_ ++ bytes ++ l.drop (at_ + bytes.length)

theorem unread_put {b : TxBlock} {pos : ℕ} (bytes : List UInt8) (h : b.wr ≤ pos) :
    (b.put pos bytes).unread = b.unread := by
  refine List.map_congr_left fun i hi => ?_
  have hi' : b.rd ≤ i ∧ i < b.rd + (b.wr - b.rd) := List.mem_range'_1.1 hi
  exact if_pos (by omega)

theorem room_put {b : TxBlock} {B at_ : ℕ} {bytes : List UInt8}
    (h : at_ + bytes.length ≤ (b.room B).length) :
    (b.put (b.wr + at_) bytes).room B = overwrite (b.room B) at_ bytes := by
  -- the room before, under and behind the bytes written
  obtain ⟨r, hr⟩ : ∃ r, B - b.wr = at_ + bytes.length + r :=
    ⟨B - b.wr - (at_ + bytes.length), by simp [room] at h; omega⟩
  have hsplit : List.range' b.wr (B - b.wr) = List.range' b.wr at_ ++
      List.range' (b.wr + at_) bytes.length ++ List.range' (b.wr + (at_ + bytes.length)) r := by
    rw [hr, List.range'_append_1, List.range'_append_1]
  have hbefore : (List.range' b.wr at_).map (b.put (b.wr + at_) bytes).data =
      (List.range' b.wr at_).map b.data := by
    refine List.map_congr_left fun i hi => ?_
    exact if_pos (List.mem_range'_1.1 hi).2
  have hunder : (List.range' (b.wr + at_) bytes.length).map (b.put (b.wr + at_) bytes).data = bytes := by
    refine List.ext_getElem (by simp) fun i hi hi' => ?_
    simp [put, hi']
  have hbehind : (List.range' (b.wr + (at_ + bytes.length)) r).map (b.put (b.wr + at_) bytes).data =
      (List.range' (b.wr + (at_ + bytes.length)) r).map b.data := by
    refine List.map_congr_left fun i hi => ?_
    have hi' := (List.mem_range'_1.1 hi).1
    simp only [put]
    rw [if_neg (by omega), List.getElem?_eq_none (by omega), Option.getD_none]
  have hroom : (b.put (b.wr + at_) bytes).room B = (List.range' b.wr at_).map b.data ++ bytes ++
      (List.range' (b.wr + (at_ + bytes.length)) r).map b.data := by
    calc (b.put (b.wr + at_) bytes).room B
        = (List.range' b.wr (B - b.wr)).map (b.put (b.wr + at_) bytes).data := rfl
      _ = _ := by rw [hsplit, List.map_append, List.map_append, hbefore, hunder, hbehind]
  have htake : (List.range' b.wr (B - b.wr)).take at_ = List.range' b.wr at_ := by
    rw [hsplit, List.append_assoc, List.take_left' List.length_range']
  have hdrop : (List.range' b.wr (B - b.wr)).drop (at_ + bytes.length) =
      List.range' (b.wr + (at_ + bytes.length)) r := by
    rw [hsplit, List.drop_left' (by simp)]
  rw [hroom, overwrite, room, ← List.map_take, ← List.map_drop, htake, hdrop]

end TxBlock

/-! ## The buffer -/

/-- Memory that the pool hands out, if it does. -/
abbrev Alloc := Option (ℕ → UInt8)

structure TxBuffer where
  blocks : List TxBlock := []
  sizeBytes : ℕ := 0
  capacityBytes : ℕ := 0

/-- A writable span: the index of its block in the chain, its offset there, its length. -/
structure TxSpan where
  block : ℕ
  off : ℕ
  len : ℕ
  deriving DecidableEq, Repr

namespace TxBuffer

section
variable (B : ℕ)

def appendNewBlock (b : TxBuffer) : Alloc → TxBuffer
  | none => b
  | some d =>
    { b with blocks := b.blocks ++ [{ data := d }], capacityBytes := b.capacityBytes + B }

def tailSpan (b : TxBuffer) : TxSpan :=
  match b.blocks.getLast? with
  | none => ⟨0, 0, 0⟩
  | some t => ⟨b.blocks.length - 1, t.wr, B - t.wr⟩

/-- `reserveSpan`; the two allocations are those of an empty chain and of a full tail. -/
def reserveSpan (b : TxBuffer) (minBytes : ℕ) (first second : Alloc) : TxBuffer × TxSpan :=
  let b := if b.blocks = [] then b.appendNewBlock B first else b
  match b.blocks.getLast? with
  | none => (b, ⟨0, 0, 0⟩)
  | some t =>
    let b := if B - t.wr < minBytes then b.appendNewBlock B second else b
    (b, b.tailSpan B)

/-- Writing through a span, `at_` bytes behind its start. -/
def write (b : TxBuffer) (span : TxSpan) (at_ : ℕ) (bytes : List UInt8) : TxBuffer :=
  { b with blocks := b.blocks.modify span.block fun blk => blk.put (span.off + at_) bytes }

def commit (b : TxBuffer) (n : ℕ) : TxBuffer :=
  match b.blocks.getLast? with
  | none => b
  | some t =>
    if n = 0 then b
    else
      let slack := B - t.wr
      let n := if n > slack then slack else n
      { b with
        blocks := b.blocks.dropLast ++ [{ t with wr := u32add t.wr (n % 2 ^ 32) }]
        sizeBytes := b.sizeBytes + n }

/-- The loop of `peek`: the bytes shown. -/
def peekFrom : List TxBlock → ℕ → List UInt8
  | [], _ => []
  | blk :: rest, remaining =>
    let readable := u32sub blk.wr blk.rd
    if remaining < readable then
      (List.range' (blk.rd + remaining) (readable - remaining)).map blk.data
    else peekFrom rest (remaining - readable)

def peek (b : TxBuffer) (offset : ℕ) : List UInt8 :=
  if b.blocks = [] then []
  else if offset ≥ b.sizeBytes then []
  else peekFrom b.blocks offset

/-- The loop of `consume`, from a head block on: the chain left, the bytes consumed and the
    number of blocks released. -/
def consumeFrom : List TxBlock → ℕ → List TxBlock × ℕ × ℕ
  | [], _ => ([], 0, 0)
  | blk :: rest, remaining =>
    if remaining = 0 then (blk :: rest, 0, 0)
    else
      let avail := u32sub blk.wr blk.rd
      if avail = 0 then
        let r := consumeFrom rest remaining
        (r.1, r.2.1, r.2.2 + 1)
      else
        let take := min avail remaining
        let blk := { blk with rd := u32add blk.rd (take % 2 ^ 32) }
        if blk.rd = blk.wr then
          let r := consumeFrom rest (remaining - take)
          (r.1, r.2.1 + take, r.2.2 + 1)
        else
          -- then `take` was all that remained, and the loop ends
          (blk :: rest, take, 0)

/-- `consume`: the number of bytes consumed and the buffer left. -/
def consume (b : TxBuffer) (n : ℕ) : ℕ × TxBuffer :=
  if b.blocks = [] ∨ n = 0 ∨ b.sizeBytes = 0 then (0, b)
  else
    let r := consumeFrom b.blocks (min n b.sizeBytes)
    (r.2.1, ⟨r.1, b.sizeBytes - r.2.1, b.capacityBytes - r.2.2 * B⟩)

/-- `spliceFrom` another buffer of the pool: this buffer and the other one. -/
def spliceFrom (b other : TxBuffer) : TxBuffer × TxBuffer :=
  if other.blocks = [] then (b, other)
  else (⟨b.blocks ++ other.blocks, b.sizeBytes + other.sizeBytes,
    b.capacityBytes + other.capacityBytes⟩, {})

def reset (_ : TxBuffer) : TxBuffer := {}

end

/-! ## What the buffer stands for -/

def unread (b : TxBuffer) : List UInt8 := b.blocks.flatMap TxBlock.unread

/-- The bytes behind the write cursor of the tail. -/
def room (B : ℕ) (b : TxBuffer) : List UInt8 := (b.blocks.getLast?.map (TxBlock.room B)).getD []

/-- The cursors are in order, `sizeBytes` is the sum of `wr - rd` over the chain and
    `capacityBytes` counts the blocks. -/
structure Wf (B : ℕ) (b : TxBuffer) : Prop where
  ordered : ∀ blk ∈ b.blocks, blk.Ordered B
  size : b.sizeBytes = (b.blocks.map fun blk => blk.wr - blk.rd).sum
  capacity : b.capacityBytes = b.blocks.length * B

section
variable {B : ℕ} {b : TxBuffer}

theorem length_unread (h : b.Wf B) : b.unread.length = b.sizeBytes := by
  rw [unread, List.length_flatMap, h.size]
  congr 1
  exact List.map_congr_left fun blk _ => blk.length_unread

theorem wf_empty : ({} : TxBuffer).Wf B := ⟨by simp, rfl, (Nat.zero_mul B).symm⟩

/-! ### Reserving and writing -/

theorem Wf.appendNewBlock (h : b.Wf B) (a : Alloc) : (b.appendNewBlock B a).Wf B := by
  cases a with
  | none => exact h
  | some d =>
    refine ⟨fun blk hblk => ?_, ?_, ?_⟩
    · rcases List.mem_append.1 hblk with hblk | hblk
      · exact h.ordered blk hblk
      · rw [List.mem_singleton.1 hblk]; exact ⟨le_rfl, Nat.zero_le B⟩
    · simp [TxBuffer.appendNewBlock, h.size]
    · simp [TxBuffer.appendNewBlock, h.capacity, Nat.succ_mul]

theorem unread_appendNewBlock (b : TxBuffer) (a : Alloc) :
    (b.appendNewBlock B a).unread = b.unread := by
  cases a with
  | none => rfl
  | some d => simp [TxBuffer.appendNewBlock, unread, TxBlock.unread]

theorem len_tailSpan (b : TxBuffer) : (b.tailSpan B).len = (b.room B).length := by
  rw [tailSpan, room]
  cases b.blocks.getLast? with
  | none => rfl
  | some t => simp [TxBlock.room]

theorem reserveSpan_spec (b : TxBuffer) (minBytes : ℕ) (first second : Alloc) :
    ((b.reserveSpan B minBytes first second).1.unread = b.unread) ∧
      (b.Wf B → (b.reserveSpan B minBytes first second).1.Wf B) ∧
      (b.reserveSpan B minBytes first second).2 =
        (b.reserveSpan B minBytes first second).1.tailSpan B := by
  have hfirst : ∃ b₁ : TxBuffer, b₁.unread = b.unread ∧ (b.Wf B → b₁.Wf B) ∧
      b₁ = if b.blocks = [] then b.appendNewBlock B first else b := by
    refine ⟨_, ?_, ?_, rfl⟩
    · split_ifs
      · exact unread_appendNewBlock b first
      · rfl
    · intro h
      split_ifs
      · exact h.appendNewBlock first
      · exact h
  obtain ⟨b₁, hunread, hwf, hb₁⟩ := hfirst
  simp only [reserveSpan, ← hb₁]
  cases ht : b₁.blocks.getLast? with
  | none => exact ⟨hunread, hwf, by rw [tailSpan, ht]⟩
  | some t =>
    dsimp only
    split_ifs
    · exact ⟨(unread_appendNewBlock b₁ second).trans hunread, fun h => (hwf h).appendNewBlock second, rfl⟩
    · exact ⟨hunread, hwf, rfl⟩

/-- Writing changes the memory of a block and nothing else. -/
theorem Wf.write (h : b.Wf B) (span : TxSpan) (at_ : ℕ) (bytes : List UInt8) :
    (b.write span at_ bytes).Wf B := by
  have hcursors : ∀ f : TxBlock → ℕ, (∀ blk d, f { blk with data := d } = f blk) →
      (b.write span at_ bytes).blocks.map f = b.blocks.map f := by
    intro f hf
    refine List.ext_getElem? fun i => ?_
    simp only [TxBuffer.write, List.getElem?_map, List.getElem?_modify]
    cases b.blocks[i]? with
    | none => rfl
    | some blk =>
      simp only [Option.map_some]
      split_ifs
      · exact congrArg some (hf blk _)
      · rfl
  refine ⟨fun blk hblk => ?_, ?_, ?_⟩
  · obtain ⟨i, hi⟩ := List.mem_iff_getElem?.1 hblk
    rw [TxBuffer.write, List.getElem?_modify] at hi
    obtain ⟨blk₀, hblk₀, hi⟩ := Option.map_eq_some_iff.1 hi
    have hord := h.ordered blk₀ (List.mem_of_getElem? hblk₀)
    subst hi
    split_ifs
    · exact hord
    · exact hord
  · rw [hcursors (fun blk => blk.wr - blk.rd) fun _ _ => rfl]; exact h.size
  · rw [TxBuffer.write, List.length_modify]; exact h.capacity

theorem unread_write {span : TxSpan} {at_ : ℕ} {bytes : List UInt8}
    (hspan : ∀ blk, b.blocks[span.block]? = some blk → blk.wr ≤ span.off) :
    (b.write span at_ bytes).unread = b.unread := by
  rw [unread, unread, List.flatMap_def, List.flatMap_def]
  congr 1
  refine List.ext_getElem? fun i => ?_
  simp only [TxBuffer.write, List.getElem?_map, List.getElem?_modify]
  cases hi : b.blocks[i]? with
  | none => rfl
  | some blk =>
    simp only [Option.map_some]
    split_ifs with hspan_i
    · subst hspan_i
      exact congrArg some (TxBlock.unread_put bytes ((hspan blk hi).trans (Nat.le_add_right _ _)))
    · rfl

theorem room_write (b : TxBuffer) {at_ : ℕ} {bytes : List UInt8}
    (h : at_ + bytes.length ≤ (b.room B).length) :
    (b.write (b.tailSpan B) at_ bytes).room B = TxBlock.overwrite (b.room B) at_ bytes := by
  cases ht : b.blocks.getLast? with
  | none =>
    have hnil : b.room B = [] := by rw [room, ht]; rfl
    have hbytes : bytes = [] := by
      rw [hnil, List.length_nil] at h
      exact List.length_eq_zero_iff.1 (by omega)
    rw [hnil, hbytes]
    simp [TxBuffer.write, room, TxBlock.overwrite, List.getLast?_eq_none_iff.1 ht]
  | some t =>
    have hroom : b.room B = t.room B := by rw [room, ht]; rfl
    rw [hroom] at h ⊢
    -- the tail is the block that the span points into
    have htail : (b.write (b.tailSpan B) at_ bytes).blocks.getLast? =
        some (t.put (t.wr + at_) bytes) := by
      rw [tailSpan, ht]
      rw [List.getLast?_eq_getElem?] at ht
      simp only [TxBuffer.write, List.getLast?_eq_getElem?, List.length_modify]
      rw [List.getElem?_modify_eq, ht]
      rfl
    rw [room, htail]
    exact TxBlock.room_put h

/-! ### Committing -/

theorem unread_concat (bs : List TxBlock) (t : TxBlock) (n c : ℕ) :
    (⟨bs ++ [t], n, c⟩ : TxBuffer).unread = bs.flatMap TxBlock.unread ++ t.unread := by
  simp [unread]

theorem commit_spec (hB : B < 2 ^ 32) (h : b.Wf B) (n : ℕ) :
    (b.commit B n).Wf B ∧ (b.commit B n).unread = b.unread ++ (b.room B).take n ∧
      (b.commit B n).room B = (b.room B).drop n := by
  cases ht : b.blocks.getLast? with
  | none => simp [commit, room, ht, h]
  | some t =>
    have hroom : b.room B = t.room B := by rw [room, ht]; rfl
    have hord := h.ordered t (List.mem_of_getLast? ht)
    obtain ⟨bs, hbs⟩ := List.getLast?_eq_some_iff.1 ht
    by_cases hn : n = 0
    · have hcommit : b.commit B n = b := by simp [commit, ht, hn]
      rw [hcommit, hn]
      simp [h]
    · -- the number of bytes committed
      obtain ⟨m, hm, hm'⟩ : ∃ m, m = min n (B - t.wr) ∧ m ≤ B - t.wr := ⟨_, rfl, min_le_right _ _⟩
      have hclamp : (if n > B - t.wr then B - t.wr else n) = m := by
        rw [hm]; split_ifs <;> omega
      have hwr : u32add t.wr (m % 2 ^ 32) = t.wr + m := by
        rw [Nat.mod_eq_of_lt (by omega)]
        exact u32add_eq (by have := hord.2; omega) hB
      have hcommit : b.commit B n =
          ⟨bs ++ [{ t with wr := t.wr + m }], b.sizeBytes + m, b.capacityBytes⟩ := by
        simp only [commit, ht, if_neg hn, hclamp, hwr]
        rw [hbs, List.dropLast_concat]
      have hlen : (t.room B).length = B - t.wr := by simp [TxBlock.room]
      have htake : (t.room B).take n = (t.room B).take m := by
        rw [hm, ← hlen, ← List.take_take, List.take_length]
      have hdrop : (t.room B).drop n = (t.room B).drop m := by
        by_cases hle : n ≤ B - t.wr
        · rw [hm, min_eq_left hle]
        · rw [List.drop_eq_nil_of_le (by omega), List.drop_eq_nil_of_le (by omega)]
      rw [hcommit, hroom, htake, hdrop]
      refine ⟨⟨fun blk hblk => ?_, ?_, ?_⟩, ?_, ?_⟩
      · rcases List.mem_append.1 hblk with hblk | hblk
        · exact h.ordered blk (by rw [hbs]; exact List.mem_append_left _ hblk)
        · rw [List.mem_singleton.1 hblk]
          exact ⟨hord.1.trans (Nat.le_add_right _ _), by have := hord.2; simp only; omega⟩
      · have hsize := h.size
        simp only [hbs, List.map_append, List.map_cons, List.map_nil, List.sum_append,
          List.sum_cons, List.sum_nil] at hsize ⊢
        have := hord.1
        omega
      · have hcap := h.capacity
        rw [hbs] at hcap
        simpa using hcap
      · rw [unread_concat, TxBlock.unread_commit hord m hm', ← List.append_assoc, unread, hbs]
        simp
      · simp only [room, List.getLast?_concat, Option.map_some, Option.getD_some]
        exact TxBlock.room_commit t B m

/-! ### Reading -/

theorem peekFrom_spec (hB : B < 2 ^ 32) : ∀ {blocks : List TxBlock},
    (∀ blk ∈ blocks, blk.Ordered B) → ∀ {offset : ℕ},
    offset < (blocks.flatMap TxBlock.unread).length →
      peekFrom blocks offset ≠ [] ∧ peekFrom blocks offset <+: (blocks.flatMap TxBlock.unread).drop offset
  | [], _, offset, hoff => by simp at hoff
  | blk :: rest, hord, offset, hoff => by
    have hblk := hord blk List.mem_cons_self
    have hread : u32sub blk.wr blk.rd = blk.wr - blk.rd :=
      u32sub_eq hblk.1 (hblk.2.trans_lt hB)
    have hlen := blk.length_unread
    rw [List.flatMap_cons] at hoff ⊢
    simp only [peekFrom, hread]
    split_ifs with hlt
    · have hspan : (List.range' (blk.rd + offset) (blk.wr - blk.rd - offset)).map blk.data =
          blk.unread.drop offset := by
        rw [TxBlock.unread, ← List.map_drop, List.drop_range', Nat.mul_one]
      rw [hspan, List.drop_append_of_le_length (by omega)]
      refine ⟨fun hnil => ?_, List.prefix_append _ _⟩
      have := List.drop_eq_nil_iff.1 hnil
      omega
    · have hrest : offset - (blk.wr - blk.rd) < (rest.flatMap TxBlock.unread).length := by
        rw [List.length_append] at hoff; omega
      rw [List.drop_append, List.drop_eq_nil_of_le (by omega), List.nil_append, hlen]
      exact peekFrom_spec hB (fun b hb => hord b (List.mem_cons_of_mem _ hb)) hrest

theorem peek_spec (hB : B < 2 ^ 32) (h : b.Wf B) {offset : ℕ} (hoff : offset < b.sizeBytes) :
    b.peek offset ≠ [] ∧ b.peek offset <+: b.unread.drop offset := by
  have hoff' : offset < (b.blocks.flatMap TxBlock.unread).length := by
    rw [← length_unread h] at hoff; exact hoff
  have hne : b.blocks ≠ [] := by
    intro hnil; rw [hnil] at hoff'; simp at hoff'
  rw [peek, if_neg hne, if_neg (by omega)]
  exact peekFrom_spec hB h.ordered hoff'

theorem consumeFrom_spec (hB : B < 2 ^ 32) : ∀ {blocks : List TxBlock},
    (∀ blk ∈ blocks, blk.Ordered B) → ∀ {n : ℕ}, n ≤ (blocks.flatMap TxBlock.unread).length →
      (∀ blk ∈ (consumeFrom blocks n).1, blk.Ordered B) ∧
      (consumeFrom blocks n).1.flatMap TxBlock.unread = (blocks.flatMap TxBlock.unread).drop n ∧
      (consumeFrom blocks n).2.1 = n ∧
      (consumeFrom blocks n).1.length + (consumeFrom blocks n).2.2 = blocks.length
  | [], _, n, hn => by
    have hn0 : n = 0 := by simpa using hn
    simp [consumeFrom, hn0]
  | blk :: rest, hord, n, hn => by
    have hblk := hord blk List.mem_cons_self
    have hrest := fun b hb => hord b (List.mem_cons_of_mem _ hb)
    have hread : u32sub blk.wr blk.rd = blk.wr - blk.rd :=
      u32sub_eq hblk.1 (hblk.2.trans_lt hB)
    have hlen := blk.length_unread
    rw [List.flatMap_cons, List.length_append] at hn
    have hrd : u32add blk.rd (min (blk.wr - blk.rd) n % 2 ^ 32) = blk.rd + min (blk.wr - blk.rd) n := by
      rw [Nat.mod_eq_of_lt (by have := hblk.2; omega)]
      exact u32add_eq (by have := hblk.1; have := hblk.2; omega) hB
    simp only [consumeFrom, hread, hrd, List.flatMap_cons]
    split_ifs with hn0 havail hdone
    · simp only [hn0, List.drop_zero, List.flatMap_cons, Nat.add_zero, and_true]
      exact hord
    · -- an empty block
      have hempty : blk.unread = [] := List.length_eq_zero_iff.1 (by omega)
      obtain ⟨h₁, h₂, h₃, h₄⟩ := consumeFrom_spec hB hrest (n := n) (by omega)
      refine ⟨h₁, ?_, h₃, ?_⟩
      · rw [h₂, hempty, List.nil_append]
      · simp only [List.length_cons]; omega
    · -- the block is read to its end
      obtain ⟨h₁, h₂, h₃, h₄⟩ := consumeFrom_spec hB hrest (n := n - min (blk.wr - blk.rd) n) (by omega)
      refine ⟨h₁, ?_, ?_, ?_⟩
      · have hle : blk.unread.length ≤ n := by omega
        rw [h₂, List.drop_append, List.drop_eq_nil_of_le hle, List.nil_append, hlen]
        congr 1
        omega
      · simp only [h₃]; omega
      · simp only [List.length_cons]; omega
    · -- the block keeps bytes, and nothing remains to be consumed
      have hmin : min (blk.wr - blk.rd) n = n := by have := hblk.1; omega
      rw [hmin] at hdone ⊢
      refine ⟨fun b hb => ?_, ?_, rfl, rfl⟩
      · rcases List.mem_cons.1 hb with rfl | hb
        · exact ⟨by have := hblk.1; simp only; omega, hblk.2⟩
        · exact hrest b hb
      · rw [List.flatMap_cons, TxBlock.unread_consume, List.drop_append_of_le_length]
        have := hblk.1
        omega

theorem consume_spec (hB : B < 2 ^ 32) (h : b.Wf B) (n : ℕ) :
    (b.consume B n).2.Wf B ∧ (b.consume B n).2.unread = b.unread.drop n ∧
      (b.consume B n).1 = min n b.sizeBytes := by
  have hlen := length_unread h
  rw [consume]
  split_ifs with hnone
  · refine ⟨h, ?_, ?_⟩
    · rcases hnone with hnil | rfl | hsize
      · simp [unread, hnil]
      · rfl
      · rw [List.length_eq_zero_iff.1 (hlen.trans hsize), List.drop_nil]
    · rcases hnone with hnil | rfl | hsize
      · rw [h.size, hnil]; simp
      · simp
      · rw [hsize]; simp
  · obtain ⟨h₁, h₂, h₃, h₄⟩ := consumeFrom_spec hB h.ordered (n := min n b.sizeBytes)
      (by change _ ≤ b.unread.length; omega)
    have hdrop : b.unread.drop (min n b.sizeBytes) = b.unread.drop n := by
      by_cases hle : n ≤ b.sizeBytes
      · rw [min_eq_left hle]
      · rw [List.drop_eq_nil_of_le (by omega), List.drop_eq_nil_of_le (by omega)]
    have hunread : (consumeFrom b.blocks (min n b.sizeBytes)).1.flatMap TxBlock.unread =
        b.unread.drop n := h₂.trans hdrop
    refine ⟨⟨h₁, ?_, ?_⟩, hunread, h₃⟩
    · have hsum := congrArg List.length hunread
      rw [List.length_flatMap, List.length_drop, hlen] at hsum
      simp only [TxBlock.length_unread] at hsum
      simp only [h₃, hsum]
      omega
    · have hcap := h.capacity
      simp only
      rw [hcap, ← h₄, Nat.add_mul, Nat.add_sub_cancel]

/-- Reading as `TcpEngine::flush` does when the socket takes all it is given: `peek` at the
    front and `consume` what it shows.  `fuel` bounds the number of rounds. -/
def readAll (B : ℕ) : ℕ → TxBuffer → List UInt8
  | 0, _ => []
  | fuel + 1, b =>
    if b.peek 0 = [] then [] else b.peek 0 ++ readAll B fuel (b.consume B (b.peek 0).length).2

theorem readAll_eq (hB : B < 2 ^ 32) : ∀ {fuel : ℕ} {b : TxBuffer}, b.Wf B → b.sizeBytes ≤ fuel →
    readAll B fuel b = b.unread
  | 0, b, h, hfuel => by
    have hlen := length_unread h
    rw [List.length_eq_zero_iff.1 (by omega : b.unread.length = 0)]
    rfl
  | fuel + 1, b, h, hfuel => by
    have hlen := length_unread h
    rw [readAll]
    split_ifs with hpeek
    · by_cases hsize : 0 < b.sizeBytes
      · exact absurd hpeek (peek_spec hB h hsize).1
      · exact (List.length_eq_zero_iff.1 (by omega)).symm
    · have hsize : 0 < b.sizeBytes := by
        by_contra hsize
        exact hpeek (by simp [peek, Nat.eq_zero_of_not_pos hsize])
      obtain ⟨hne, hprefix⟩ := peek_spec hB h hsize
      rw [List.drop_zero] at hprefix
      obtain ⟨hwf, hunread, -⟩ := consume_spec hB h (b.peek 0).length
      have hpos := List.length_pos_iff.2 hne
      have hlen' := length_unread hwf
      rw [hunread, List.length_drop, hlen] at hlen'
      rw [readAll_eq hB hwf (by omega), hunread]
      obtain ⟨rest, hrest⟩ := hprefix
      rw [← hrest, List.drop_left]

end

end TxBuffer

/-! ## Several buffers of one pool -/

/-- The buffers of one pool, and for each whether it has a span that may be written to: the one
    reserved last, without the bytes committed since.  It starts at the write cursor of the
    tail, and the calls that the documentation names invalidate it. -/
structure TxSystem where
  buf : ℕ → TxBuffer := fun _ => {}
  writable : ℕ → Bool := fun _ => false

namespace TxSystem

inductive Event where
  | reserve (i minBytes : ℕ) (first second : Alloc)
  | write (i at_ : ℕ) (bytes : List UInt8)
  | commit (i n : ℕ)
  | consume (i n : ℕ)
  | splice (i j : ℕ)
  | reset (i : ℕ)

variable (B : ℕ)

def set (s : TxSystem) (i : ℕ) (b : TxBuffer) (writable : Bool) : TxSystem :=
  ⟨Function.update s.buf i b, Function.update s.writable i writable⟩

def InSpan (s : TxSystem) (i at_ : ℕ) (bytes : List UInt8) : Prop :=
  s.writable i = true ∧ at_ + bytes.length ≤ ((s.buf i).tailSpan B).len

instance (s : TxSystem) (i at_ : ℕ) (bytes : List UInt8) : Decidable (InSpan B s i at_ bytes) := by
  unfold InSpan; infer_instance

def step (s : TxSystem) : Event → TxSystem
  | .reserve i minBytes first second =>
    s.set i ((s.buf i).reserveSpan B minBytes first second).1 true
  | .write i at_ bytes =>
    if InSpan B s i at_ bytes then
      s.set i ((s.buf i).write ((s.buf i).tailSpan B) at_ bytes) true
    else s
  | .commit i n => s.set i ((s.buf i).commit B n) (s.writable i)
  | .consume i n => s.set i ((s.buf i).consume B n).2 false
  | .splice i j =>
    if i = j then s
    else
      let r := (s.buf i).spliceFrom (s.buf j)
      (s.set i r.1 false).set j r.2 false
  | .reset i => s.set i (s.buf i).reset false

def queues (s : TxSystem) (i : ℕ) : List UInt8 := (s.buf i).unread

/-- A family of byte queues under the calls; `room` are the bytes that were written into the
    spans and not committed. -/
def queueStep (room queue : ℕ → List UInt8) : Event → ℕ → List UInt8
  | .commit i n => Function.update queue i (queue i ++ (room i).take n)
  | .consume i n => Function.update queue i ((queue i).drop n)
  | .splice i j =>
    if i = j then queue
    else Function.update (Function.update queue i (queue i ++ queue j)) j []
  | .reset i => Function.update queue i []
  | _ => queue

/-- What a call does: to the queues what it does to byte queues, and to the room of its buffer
    what was written and committed; `reserveSpan` returns the room as a span, `consume` the
    number of bytes it took. -/
structure QueueStep (s : TxSystem) (e : Event) : Prop where
  queues : queues (s.step B e) = queueStep (fun i => (s.buf i).room B) s.queues e
  reserve : ∀ i minBytes first second, e = .reserve i minBytes first second →
    ((s.buf i).reserveSpan B minBytes first second).2 = ((s.step B e).buf i).tailSpan B ∧
      (((s.step B e).buf i).tailSpan B).len = (((s.step B e).buf i).room B).length
  write : ∀ i at_ bytes, e = .write i at_ bytes → InSpan B s i at_ bytes →
    ((s.step B e).buf i).room B = TxBlock.overwrite ((s.buf i).room B) at_ bytes
  commit : ∀ i n, e = .commit i n → ((s.step B e).buf i).room B = ((s.buf i).room B).drop n
  consume : ∀ i n, e = .consume i n → ((s.buf i).consume B n).1 = min n (s.queues i).length

/-- What reading sees: `size` is the length of the queue, `peek` a non-empty piece of it from
    any unread byte on, and reading to the end yields all of it. -/
structure Readable (s : TxSystem) (i : ℕ) : Prop where
  wf : (s.buf i).Wf B
  size : (s.buf i).sizeBytes = (s.queues i).length
  peek : ∀ offset < (s.buf i).sizeBytes, (s.buf i).peek offset ≠ [] ∧
    (s.buf i).peek offset <+: (s.queues i).drop offset
  readAll : TxBuffer.readAll B (s.buf i).sizeBytes (s.buf i) = s.queues i

section
variable {B : ℕ}

theorem readable_of_wf (hB : B < 2 ^ 32) {s : TxSystem} {i : ℕ} (h : (s.buf i).Wf B) :
    Readable B s i :=
  ⟨h, (TxBuffer.length_unread h).symm, fun _ hoff => TxBuffer.peek_spec hB h hoff,
    TxBuffer.readAll_eq hB h le_rfl⟩

@[simp] theorem buf_set (s : TxSystem) (i : ℕ) (b : TxBuffer) (w : Bool) :
    (s.set i b w).buf = Function.update s.buf i b := rfl

theorem queues_set (s : TxSystem) (i : ℕ) (b : TxBuffer) (w : Bool) :
    queues (s.set i b w) = Function.update s.queues i b.unread := by
  funext k
  by_cases hk : k = i
  · subst hk; simp [queues]
  · simp [queues, hk]

theorem queues_set_self {s : TxSystem} {i : ℕ} {b : TxBuffer} (w : Bool)
    (h : b.unread = (s.buf i).unread) : queues (s.set i b w) = s.queues := by
  rw [queues_set, h]
  exact Function.update_eq_self i s.queues

theorem wf_set {s : TxSystem} (hs : ∀ k, (s.buf k).Wf B) {i : ℕ} {b : TxBuffer} (hb : b.Wf B)
    (w : Bool) (k : ℕ) : ((s.set i b w).buf k).Wf B := by
  by_cases hk : k = i
  · subst hk; simpa using hb
  · simpa [hk] using hs k

theorem wr_le_tailSpan (b : TxBuffer) :
    ∀ blk, b.blocks[(b.tailSpan B).block]? = some blk → blk.wr ≤ (b.tailSpan B).off := by
  intro blk hblk
  rw [TxBuffer.tailSpan] at hblk ⊢
  cases ht : b.blocks.getLast? with
  | none => simp [List.getLast?_eq_none_iff.1 ht] at hblk
  | some t =>
    rw [ht] at hblk
    rw [List.getLast?_eq_getElem?] at ht
    rw [ht] at hblk
    cases hblk
    exact le_rfl

theorem splice_spec {b other : TxBuffer} (hb : b.Wf B) (ho : other.Wf B) :
    (b.spliceFrom other).1.Wf B ∧ (b.spliceFrom other).2.Wf B ∧
      (b.spliceFrom other).1.unread = b.unread ++ other.unread ∧
      (b.spliceFrom other).2.unread = [] := by
  rw [TxBuffer.spliceFrom]
  split_ifs with hnil
  · have hunread : other.unread = [] := by simp [TxBuffer.unread, hnil]
    exact ⟨hb, ho, by rw [hunread, List.append_nil], hunread⟩
  · refine ⟨⟨fun blk hblk => ?_, ?_, ?_⟩, TxBuffer.wf_empty, by simp [TxBuffer.unread], rfl⟩
    · rcases List.mem_append.1 hblk with hblk | hblk
      · exact hb.ordered blk hblk
      · exact ho.ordered blk hblk
    · simp [hb.size, ho.size]
    · simp [hb.capacity, ho.capacity, Nat.add_mul]

theorem wf_step (hB : B < 2 ^ 32) {s : TxSystem} (hs : ∀ k, (s.buf k).Wf B) (e : Event) :
    ∀ k, ((s.step B e).buf k).Wf B := by
  cases e with
  | reserve i minBytes first second =>
    exact wf_set hs ((TxBuffer.reserveSpan_spec (s.buf i) minBytes first second).2.1 (hs i)) true
  | write i at_ bytes =>
    simp only [step]
    split_ifs
    · exact wf_set hs ((hs i).write _ _ _) true
    · exact hs
  | commit i n => exact wf_set hs (TxBuffer.commit_spec hB (hs i) n).1 _
  | consume i n => exact wf_set hs (TxBuffer.consume_spec hB (hs i) n).1 false
  | splice i j =>
    obtain ⟨h₁, h₂, -, -⟩ := splice_spec (hs i) (hs j)
    simp only [step]
    split_ifs
    · exact hs
    · exact wf_set (wf_set hs h₁ false) h₂ false
  | reset i => exact wf_set hs TxBuffer.wf_empty false

theorem queueStep_of_wf (hB : B < 2 ^ 32) {s : TxSystem} (hs : ∀ k, (s.buf k).Wf B) (e : Event) :
    QueueStep B s e := by
  refine ⟨?_, ?_, ?_, ?_, ?_⟩
  · cases e with
    | reserve i minBytes first second =>
      exact queues_set_self true (TxBuffer.reserveSpan_spec (s.buf i) minBytes first second).1
    | write i at_ bytes =>
      simp only [step, queueStep]
      split_ifs
      · exact queues_set_self true (TxBuffer.unread_write (wr_le_tailSpan _))
      · rfl
    | commit i n => rw [step, queues_set, (TxBuffer.commit_spec hB (hs i) n).2.1]; rfl
    | consume i n => rw [step, queues_set, (TxBuffer.consume_spec hB (hs i) n).2.1]; rfl
    | splice i j =>
      obtain ⟨-, -, h₃, h₄⟩ := splice_spec (hs i) (hs j)
      simp only [step, queueStep]
      split_ifs
      · rfl
      · rw [queues_set, queues_set, h₃, h₄]; rfl
    | reset i => rw [step, queues_set]; rfl
  · rintro i minBytes first second rfl
    have hspan := (TxBuffer.reserveSpan_spec (B := B) (s.buf i) minBytes first second).2.2
    simp only [step, buf_set, Function.update_self]
    exact ⟨hspan, TxBuffer.len_tailSpan _⟩
  · rintro i at_ bytes rfl hin
    simp only [step, if_pos hin, buf_set, Function.update_self]
    exact TxBuffer.room_write _ (by rw [← TxBuffer.len_tailSpan]; exact hin.2)
  · rintro i n rfl
    simp only [step, buf_set, Function.update_self]
    exact (TxBuffer.commit_spec hB (hs i) n).2.2
  · rintro i n rfl
    rw [(TxBuffer.consume_spec hB (hs i) n).2.2, queues, TxBuffer.length_unread (hs i)]

/-- **A transmit buffer is a byte queue**: in every state of every run of the buffers of a pool,
    each buffer reads as its queue, and every call does to the queues what it does to byte
    queues. -/
theorem queue_run (hB : B < 2 ^ 32) (es : List Event) :
    (∀ i, Readable B (Run.runFrom (step B) {} es) i) ∧ Run.Along (QueueStep B) (step B) {} es := by
  have hwf : ∀ s : TxSystem, (∀ k, (s.buf k).Wf B) → ∀ fs, (∀ k, ((Run.runFrom (step B) s fs).buf k).Wf B) ∧
      Run.Along (QueueStep B) (step B) s fs := by
    intro s hs fs
    induction fs generalizing s with
    | nil => exact ⟨hs, trivial⟩
    | cons e fs ih =>
      obtain ⟨h₁, h₂⟩ := ih (s.step B e) (wf_step hB hs e)
      exact ⟨h₁, queueStep_of_wf hB hs e, h₂⟩
  obtain ⟨h₁, h₂⟩ := hwf {} (fun _ => TxBuffer.wf_empty) es
  exact ⟨fun i => readable_of_wf hB (h₁ i), h₂⟩

/-- Blocks of the size that the pool is configured with. -/
theorem queue_run_default :
    (∀ i, Readable 4096 (Run.runFrom (step 4096) {} [.reserve 0 2 (some fun _ => 0) none,
      .write 0 0 [1, 2], .commit 0 2, .consume 0 1, .splice 1 0]) i) ∧
      Run.Along (QueueStep 4096) (step 4096) {} [.reserve 0 2 (some fun _ => 0) none,
        .write 0 0 [1, 2], .commit 0 2, .consume 0 1, .splice 1 0] :=
  queue_run (by decide) _

end

end TxSystem

end VirtualRouter
