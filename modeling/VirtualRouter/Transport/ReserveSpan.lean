/-
  What `reserveSpan` promises (`transport/tcp/tx/TxBuffer.h`): an empty span, or one of
  at least as many bytes as were asked for, inside its block.

  * `TxBuffer.reserveSpanFrom`: `reserveSpan` on the pool of the buffer, if it has one;
  * `TxBuffer.Honoured`: the promise;
  * `TxBuffer.Served`: the pool gives a block where one is needed, of enough bytes;
  * `TxBuffer.honoured_iff`: in every state of the buffers of a pool, one is the other.

  A block that the pool does not give leaves the old tail where it is, and the span
  behind it is returned, however short; nor is a request compared with the size of a
  block.
-/
import VirtualRouter.Transport.TxBuffer
import VirtualRouter.Transport.TxBufferPool

namespace VirtualRouter

open Run

/-! ## The write cursors -/

namespace TxBuffer

def CursorsIn (B : ℕ) (b : TxBuffer) : Prop := ∀ blk ∈ b.blocks, blk.wr ≤ B

variable {B : ℕ} {b : TxBuffer}

theorem CursorsIn.appendNewBlock (h : b.CursorsIn B) (a : Alloc) : (b.appendNewBlock B a).CursorsIn B := by
  cases a with
  | none => exact h
  | some d =>
    intro blk hblk
    rcases List.mem_append.1 hblk with hblk | hblk
    · exact h blk hblk
    · rw [List.mem_singleton.1 hblk]
      exact Nat.zero_le B

theorem CursorsIn.reserveSpan (h : b.CursorsIn B) (minBytes : ℕ) (first second : Alloc) :
    (b.reserveSpan B minBytes first second).1.CursorsIn B := by
  obtain ⟨b₁, hb₁⟩ : ∃ b₁, b₁ = if b.blocks = [] then b.appendNewBlock B first else b := ⟨_, rfl⟩
  have hfirst : b₁.CursorsIn B := by
    rw [hb₁]
    split_ifs
    · exact h.appendNewBlock first
    · exact h
  simp only [TxBuffer.reserveSpan, ← hb₁]
  split
  · exact hfirst
  · dsimp only
    split_ifs
    · exact hfirst.appendNewBlock second
    · exact hfirst

theorem CursorsIn.write (h : b.CursorsIn B) (span : TxSpan) (at_ : ℕ) (bytes : List UInt8) :
    (b.write span at_ bytes).CursorsIn B := by
  intro blk hblk
  obtain ⟨i, hi⟩ := List.mem_iff_getElem?.1 hblk
  rw [TxBuffer.write, List.getElem?_modify] at hi
  obtain ⟨blk₀, hblk₀, hi⟩ := Option.map_eq_some_iff.1 hi
  have hle := h blk₀ (List.mem_of_getElem? hblk₀)
  subst hi
  split_ifs
  · exact hle
  · exact hle

theorem CursorsIn.commit (h : b.CursorsIn B) (n : ℕ) : (b.commit B n).CursorsIn B := by
  rw [TxBuffer.commit]
  cases htail : b.blocks.getLast? with
  | none => exact h
  | some t =>
    dsimp only
    split_ifs with hn hclamp
    · exact h
    all_goals
      intro blk hblk
      rcases List.mem_append.1 hblk with hblk | hblk
      · exact h blk (List.mem_of_mem_dropLast hblk)
      · have ht := h t (List.mem_of_getLast? htail)
        rw [List.mem_singleton.1 hblk]
        refine (Nat.mod_le _ _).trans ?_
        have hmod := Nat.mod_le n (2 ^ 32)
        have hmod' := Nat.mod_le (B - t.wr) (2 ^ 32)
        omega

theorem consumeFrom_wr : ∀ (blocks : List TxBlock) (n : ℕ), ∀ blk ∈ (consumeFrom blocks n).1,
    ∃ blk₀ ∈ blocks, blk.wr = blk₀.wr
  | [], _, blk, hblk => by cases hblk
  | b :: rest, n, blk, hblk => by
    have ih (m : ℕ) (hblk : blk ∈ (consumeFrom rest m).1) : ∃ blk₀ ∈ b :: rest, blk.wr = blk₀.wr := by
      obtain ⟨blk₀, hmem, hwr⟩ := consumeFrom_wr rest m blk hblk
      exact ⟨blk₀, List.mem_cons_of_mem _ hmem, hwr⟩
    rw [consumeFrom] at hblk
    dsimp only at hblk
    split_ifs at hblk
    · exact ⟨blk, hblk, rfl⟩
    · exact ih n hblk
    · exact ih _ hblk
    · rcases List.mem_cons.1 hblk with rfl | hblk
      · exact ⟨b, List.mem_cons_self, rfl⟩
      · exact ⟨blk, List.mem_cons_of_mem _ hblk, rfl⟩

theorem CursorsIn.consume (h : b.CursorsIn B) (n : ℕ) : (b.consume B n).2.CursorsIn B := by
  rw [TxBuffer.consume]
  split_ifs
  · exact h
  · intro blk hblk
    obtain ⟨blk₀, hmem, hwr⟩ := consumeFrom_wr _ _ blk hblk
    rw [hwr]
    exact h blk₀ hmem

end TxBuffer

namespace TxSystem

open TxBuffer

variable {B : ℕ} {s : TxSystem}

theorem cursorsIn_set (hs : ∀ k, (s.buf k).CursorsIn B) {i : ℕ} {b : TxBuffer}
    (hb : b.CursorsIn B) (w : Bool) (k : ℕ) : ((s.set i b w).buf k).CursorsIn B := by
  by_cases hk : k = i
  · subst hk
    simpa using hb
  · simpa [hk] using hs k

theorem cursorsIn_step (hs : ∀ k, (s.buf k).CursorsIn B) (e : Event) :
    ∀ k, ((s.step B e).buf k).CursorsIn B := by
  cases e with
  | reserve i minBytes first second =>
    exact cursorsIn_set hs ((hs i).reserveSpan minBytes first second) true
  | write i at_ bytes =>
    simp only [step]
    split_ifs
    · exact cursorsIn_set hs ((hs i).write _ _ _) true
    · exact hs
  | commit i n => exact cursorsIn_set hs ((hs i).commit n) _
  | consume i n => exact cursorsIn_set hs ((hs i).consume n) false
  | splice i j =>
    have hnil : ({} : TxBuffer).CursorsIn B := by simp [CursorsIn]
    simp only [step]
    split_ifs
    · exact hs
    · rw [spliceFrom]
      split_ifs
      · exact cursorsIn_set (cursorsIn_set hs (hs i) false) (hs j) false
      · refine cursorsIn_set (cursorsIn_set hs (fun blk hblk => ?_) false) hnil false
        exact (List.mem_append.1 hblk).elim (hs i blk) (hs j blk)
  | reset i =>
    have hnil : ({} : TxBuffer).CursorsIn B := by simp [CursorsIn]
    exact cursorsIn_set hs hnil false

theorem cursorsIn_run (es : List Event) : ∀ k, ((runFrom (step B) {} es).buf k).CursorsIn B := by
  have hall : Along (fun _ _ => True) (step B) {} es := Along.of_forall fun _ _ => trivial
  exact Along.invariant (I := fun s => ∀ k, (s.buf k).CursorsIn B)
    (fun _ e hs _ => cursorsIn_step hs e) (fun _ _ h => absurd h List.not_mem_nil) hall

end TxSystem

/-! ## The promise -/

namespace TxBuffer

variable {B : ℕ}

/-- What a block of the pool holds, if the pool gives one. -/
def alloc (memory : ℕ → ℕ → UInt8) (block : Option ℕ) : Alloc := block.map memory

/-- `reserveSpan` on the pool of the buffer, which a buffer that was moved away has not; `new₁` and
    `new₂` say whether the pool gets memory. -/
def reserveSpanFrom (pool : Option TxBufferPool) (memory : ℕ → ℕ → UInt8) (new₁ new₂ : Bool)
    (b : TxBuffer) (minBytes : ℕ) : TxBuffer × TxSpan :=
  match pool with
  | none => (b, ⟨0, 0, 0⟩)
  | some p =>
    let first := p.pop new₁
    let second := (if b.blocks = [] then first.2 else p).pop new₂
    b.reserveSpan p.cfg.blockSize minBytes (alloc memory first.1) (alloc memory second.1)

/-- The span is empty, or has the bytes that were asked for inside its block. -/
def Honoured (B minBytes : ℕ) (span : TxSpan) : Prop :=
  span.len = 0 ∨ minBytes ≤ span.len ∧ span.off + minBytes ≤ B

/-- The bytes behind the write cursor of the tail are enough.  Without a tail, the pool has no block
    or its blocks are large enough; behind a tail that is too short, its next block is large enough,
    or it has none and the tail is full. -/
def Served (B minBytes : ℕ) (b : TxBuffer) (first second : Option ℕ) : Prop :=
  if b.blocks = [] then first = none ∨ minBytes ≤ B
  else minBytes ≤ (b.tailSpan B).len ∨
    if second.isSome then minBytes ≤ B else (b.tailSpan B).len = 0

theorem tailSpan_appendNewBlock (b : TxBuffer) (d : ℕ → UInt8) :
    (b.appendNewBlock B (some d)).tailSpan B = ⟨b.blocks.length, 0, B⟩ := by
  simp [appendNewBlock, tailSpan]

theorem honoured_tailSpan {b : TxBuffer} (h : b.CursorsIn B) (minBytes : ℕ) :
    Honoured B minBytes (b.tailSpan B) ↔
      (b.tailSpan B).len = 0 ∨ minBytes ≤ (b.tailSpan B).len := by
  have hend : (b.tailSpan B).len ≠ 0 → (b.tailSpan B).off + (b.tailSpan B).len = B := by
    intro hlen
    rw [tailSpan] at hlen ⊢
    cases htail : b.blocks.getLast? with
    | none => simp [htail] at hlen
    | some t =>
      have ht := h t (List.mem_of_getLast? htail)
      show t.wr + (B - t.wr) = B
      omega
  constructor
  · exact fun hon => hon.imp_right And.left
  · rintro (hlen | hlen)
    · exact Or.inl hlen
    · by_cases hzero : (b.tailSpan B).len = 0
      · exact Or.inl hzero
      · have := hend hzero
        exact Or.inr ⟨hlen, by omega⟩

theorem tailSpan_of_getLast {b : TxBuffer} {t : TxBlock} (h : b.blocks.getLast? = some t) :
    b.tailSpan B = ⟨b.blocks.length - 1, t.wr, B - t.wr⟩ := by rw [tailSpan, h]

theorem len_reserveSpan (b : TxBuffer) (minBytes : ℕ) (memory : ℕ → ℕ → UInt8)
    (first second : Option ℕ) :
    (b.reserveSpan B minBytes (alloc memory first) (alloc memory second)).2.len =
      if b.blocks = [] then if first.isSome then B else 0
      else if (b.tailSpan B).len < minBytes ∧ second.isSome then B else (b.tailSpan B).len := by
  by_cases hnil : b.blocks = []
  · rw [if_pos hnil, reserveSpan, if_pos hnil]
    cases first with
    | none => simp [alloc, appendNewBlock, hnil]
    | some k =>
      -- the new block is all room, and so is the one behind it
      have hlast : (b.appendNewBlock B (alloc memory (some k))).blocks.getLast? =
          some { data := memory k } := by simp [alloc, appendNewBlock]
      rw [hlast]
      dsimp only
      rw [Option.isSome_some, if_pos rfl]
      split_ifs
      · cases second with
        | none =>
          rw [show alloc memory none = none from rfl, appendNewBlock, tailSpan_of_getLast hlast]
          rfl
        | some k' => rw [show alloc memory (some k') = some (memory k') from rfl, tailSpan_appendNewBlock]
      · rw [tailSpan_of_getLast hlast]
        rfl
  · obtain ⟨t, ht⟩ := Option.ne_none_iff_exists'.1 fun h => hnil (List.getLast?_eq_none_iff.1 h)
    have hspan := tailSpan_of_getLast (B := B) ht
    rw [if_neg hnil, reserveSpan, if_neg hnil, ht]
    dsimp only
    rw [hspan]
    cases second with
    | none =>
      rw [show alloc memory none = none from rfl, appendNewBlock, ite_self, hspan]
      simp
    | some k =>
      rw [show alloc memory (some k) = some (memory k) from rfl]
      dsimp only
      split_ifs with hshort hboth hboth
      · rw [tailSpan_appendNewBlock]
      · exact absurd ⟨hshort, rfl⟩ hboth
      · exact absurd hboth.1 hshort
      · rw [hspan]

theorem honoured_reserveSpan (hB : 0 < B) {b : TxBuffer} (h : b.CursorsIn B) (minBytes : ℕ)
    (memory : ℕ → ℕ → UInt8) (first second : Option ℕ) :
    Honoured B minBytes (b.reserveSpan B minBytes (alloc memory first) (alloc memory second)).2 ↔
      Served B minBytes b first second := by
  rw [(reserveSpan_spec b minBytes _ _).2.2, honoured_tailSpan (h.reserveSpan minBytes _ _),
    ← (reserveSpan_spec b minBytes _ _).2.2, len_reserveSpan, Served]
  by_cases hnil : b.blocks = []
  · rw [if_pos hnil, if_pos hnil]
    cases first with
    | none => simp
    | some k => simp [hB.ne']
  · rw [if_neg hnil, if_neg hnil]
    cases second with
    | none =>
      simp only [Option.isSome_none, Bool.false_eq_true, and_false, if_false]
      exact Or.comm
    | some k =>
      simp only [Option.isSome_some, and_true, if_true]
      split_ifs with hshort
      · constructor
        · rintro (hzero | hlen)
          · exact absurd hzero hB.ne'
          · exact Or.inr hlen
        · rintro (hlen | hlen)
          · exact absurd hshort (Nat.not_lt.2 hlen)
          · exact Or.inr hlen
      · have henough := Nat.not_lt.1 hshort
        exact iff_of_true (Or.inr henough) (Or.inl henough)

/-- A pool that was constructed from `c`, in any state. -/
def poolFrom (c : PoolConfig) (freeList : List ℕ) (totalBlocks : ℕ)
    (block : ℕ → TxBufferPool.Block) : TxBufferPool :=
  { TxBufferPool.init c with freeList, totalBlocks, block }

/-- **What `reserveSpan` returns**, for every state of the buffers of a pool, every state of the pool
    and every request: the promise is kept if and only if the request is served.  A buffer without a
    pool always keeps it. -/
theorem honoured_iff (c : PoolConfig) (freeList : List ℕ) (totalBlocks : ℕ)
    (block : ℕ → TxBufferPool.Block) (memory : ℕ → ℕ → UInt8) (new₁ new₂ : Bool)
    (es : List TxSystem.Event) (i minBytes : ℕ) :
    let p := poolFrom c freeList totalBlocks block
    let B := p.cfg.blockSize
    let b := (runFrom (TxSystem.step B) {} es).buf i
    let first := p.pop new₁
    (Honoured B minBytes (reserveSpanFrom (some p) memory new₁ new₂ b minBytes).2 ↔
      Served B minBytes b first.1 ((if b.blocks = [] then first.2 else p).pop new₂).1) ∧
    Honoured B minBytes (reserveSpanFrom none memory new₁ new₂ b minBytes).2 := by
  intro p B b first
  have hB : 0 < B := by
    show 0 < if c.blockSize < 256 then 256 else c.blockSize
    split_ifs <;> omega
  exact ⟨honoured_reserveSpan hB (TxSystem.cursorsIn_run es i) minBytes memory _ _, Or.inl rfl⟩

/-- The last block is half full when the pool is empty: the span is too short.  A block is too small for
    the request, though the pool has more. -/
theorem not_honoured :
    (¬ ∀ (c : PoolConfig) (freeList : List ℕ) (totalBlocks : ℕ) (block : ℕ → TxBufferPool.Block)
      (memory : ℕ → ℕ → UInt8) (new₁ new₂ : Bool) (es : List TxSystem.Event) (i minBytes : ℕ),
      let p := poolFrom c freeList totalBlocks block
      Honoured p.cfg.blockSize minBytes (reserveSpanFrom (some p) memory new₁ new₂
        ((runFrom (TxSystem.step p.cfg.blockSize) {} es).buf i) minBytes).2) ∧
    ¬ Honoured 256 512 (reserveSpanFrom (some (poolFrom { blockSize := 256 } [0, 1, 2, 3] 4 fun _ => {}))
      (fun _ _ => 0) false false {} 512).2 := by
  refine ⟨fun h => ?_, ?_⟩
  · have hshort := h { blockSize := 256 } [] 2 (fun _ => {}) (fun _ _ => 0) false false
      [.reserve 0 128 (some fun _ => 0) none, .commit 0 128] 0 200
    revert hshort
    unfold Honoured
    decide +kernel
  · unfold Honoured
    decide +kernel

end TxBuffer

end VirtualRouter
