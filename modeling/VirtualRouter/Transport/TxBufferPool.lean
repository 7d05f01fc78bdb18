/-
  The block pool of the transmit buffers (`transport/tcp/tx/TxBufferPool.cpp`),
  used by one thread.

  A block is a number, the blocks of a pool being those below `totalBlocks` in
  the order of their allocation, and the free list is the list of its blocks,
  top first: the compare-and-swap loops of `atomicPop` and `atomicPush` are a
  pop and a push when nobody interferes.  `operator new` may fail; whether it
  does is an argument.  `PoolSystem` adds who uses the pool: `owners` lists the
  references that have been handed out and not released.

  * `Conserves`: after the step each block is either free or owned, and a
    block returned by `pop` is a fresh one with one reference;
  * `conserves_iff`: so it is along a run exactly if no `pop` of the run ever
    gets memory, since `pop` takes a block and returns the one below it.
-/
import VirtualRouter.Lib.Run

namespace VirtualRouter

/-! ## The pool -/

structure PoolConfig where
  blockSize : ℕ := 4096
  slabBlocks : ℕ := 128
  /-- `0`: unlimited. -/
  maxBlocks : ℕ := 0
  deriving DecidableEq, Repr

namespace TxBufferPool

/-- The header of a block; the cursors and the count are `uint32_t`. -/
structure Block where
  refs : ℕ := 0
  rd : ℕ := 0
  wr : ℕ := 0
  deriving DecidableEq, Repr

end TxBufferPool

structure TxBufferPool where
  cfg : PoolConfig
  freeList : List ℕ := []
  totalBlocks : ℕ := 0
  block : ℕ → TxBufferPool.Block := fun _ => {}

namespace TxBufferPool

def init (c : PoolConfig) : TxBufferPool :=
  { cfg := { c with
      blockSize := if c.blockSize < 256 then 256 else c.blockSize
      slabBlocks := if c.slabBlocks = 0 then 1 else c.slabBlocks } }

def atomicPop (p : TxBufferPool) : Option ℕ × TxBufferPool :=
  match p.freeList with
  | [] => (none, p)
  | b :: bs => (some b, { p with freeList := bs })

def atomicPush (p : TxBufferPool) (b : ℕ) : TxBufferPool := { p with freeList := b :: p.freeList }

def setBlock (p : TxBufferPool) (b : ℕ) (blk : Block) : TxBufferPool :=
  { p with block := Function.update p.block b blk }

/-- The loop of `grow` over the blocks of a slab that starts at block `first`. -/
def growLoop (first : ℕ) : ℕ → TxBufferPool → TxBufferPool
  | 0, p => p
  | n + 1, p => growLoop (first + 1) n ((p.setBlock first {}).atomicPush first)

/-- `grow`; `alloc` says whether `operator new` succeeds. -/
def grow (p : TxBufferPool) (blocks : ℕ) (alloc : Bool) : TxBufferPool :=
  if blocks = 0 then p
  else if p.cfg.maxBlocks ≠ 0 ∧ p.totalBlocks ≥ p.cfg.maxBlocks then p
  else
    let blocks := if p.cfg.maxBlocks ≠ 0 then min blocks (p.cfg.maxBlocks - p.totalBlocks) else blocks
    if alloc then
      { growLoop p.totalBlocks blocks p with totalBlocks := p.totalBlocks + blocks }
    else p

/-- `pop`: the block that is set up is not the one that is returned. -/
def pop (p : TxBufferPool) (alloc : Bool) : Option ℕ × TxBufferPool :=
  let r := match p.atomicPop with
    | (some b, p) => (some b, p)
    | (none, p) => (p.grow p.cfg.slabBlocks alloc).atomicPop
  match r with
  | (none, p) => (none, p)
  | (some b, p) => (p.setBlock b ⟨1, 0, 0⟩).atomicPop

def addRef (p : TxBufferPool) (b : ℕ) : TxBufferPool :=
  p.setBlock b { p.block b with refs := ((p.block b).refs + 1) % 2 ^ 32 }

/-- `release`: `fetch_sub` on the count, and back to the free list at the last reference. -/
def release (p : TxBufferPool) (b : ℕ) : TxBufferPool :=
  let prev := (p.block b).refs
  let p := p.setBlock b { p.block b with refs := (prev + 2 ^ 32 - 1) % 2 ^ 32 }
  if prev = 1 then (p.setBlock b { p.block b with rd := 0, wr := 0 }).atomicPush b else p

theorem freeList_growLoop (n first : ℕ) (p : TxBufferPool) :
    (growLoop first n p).freeList = (List.range' first n).reverse ++ p.freeList := by
  induction n generalizing first p with
  | zero => rfl
  | succ n ih => rw [growLoop, ih, List.range'_succ]; simp [atomicPush, setBlock]

/-- The pool from which `pop` takes its first block. -/
def refill (p : TxBufferPool) (alloc : Bool) : TxBufferPool :=
  if p.freeList = [] then p.grow p.cfg.slabBlocks alloc else p

theorem pop_taken {p : TxBufferPool} {alloc : Bool} {b : ℕ} {bs : List ℕ}
    (h : (p.refill alloc).freeList = b :: bs) :
    (p.pop alloc).1 = bs.head? ∧ (p.pop alloc).2.freeList = bs.tail ∧
      (p.pop alloc).2.totalBlocks = (p.refill alloc).totalBlocks := by
  have htwo : p.pop alloc = ({ p.refill alloc with freeList := bs }.setBlock b ⟨1, 0, 0⟩).atomicPop := by
    unfold refill at h ⊢
    split_ifs at h ⊢ with hempty
    · simp only [pop, atomicPop, hempty, h]
    · simp only [pop, atomicPop, h]
  rw [htwo]
  cases bs <;> exact ⟨rfl, rfl, rfl⟩

theorem pop_empty {p : TxBufferPool} {alloc : Bool} (hp : p.freeList = [])
    (h : p.refill alloc = p) : p.pop alloc = (none, p) := by
  rw [refill, if_pos hp] at h
  simp only [pop, atomicPop, hp, h]

theorem grow_false (p : TxBufferPool) (n : ℕ) : p.grow n false = p := by
  simp only [grow]
  split_ifs <;> first | rfl | contradiction

theorem grow_true {p : TxBufferPool} {blocks : ℕ} (hblocks : blocks ≠ 0) (hp : p.freeList = [])
    (htotal : p.totalBlocks = 0) : ∃ n, (p.grow blocks true).totalBlocks = n + 1 ∧
      (p.grow blocks true).freeList = n :: (List.range n).reverse := by
  have hslab : ∀ m, m ≠ 0 → ∃ n, 0 + m = n + 1 ∧
      (growLoop 0 m p).freeList = n :: (List.range n).reverse := by
    intro m hm
    obtain ⟨n, rfl⟩ := Nat.exists_eq_succ_of_ne_zero hm
    refine ⟨n, Nat.zero_add _, ?_⟩
    rw [freeList_growLoop, hp, List.append_nil, ← List.range_eq_range', List.range_succ,
      List.reverse_append]
    rfl
  simp only [grow, hblocks, htotal, if_true, if_false]
  split_ifs with hmax hlim
  · exact absurd (Nat.le_zero.1 hmax.2) hmax.1
  · exact hslab _ (by omega)
  · exact hslab _ hblocks

end TxBufferPool

/-! ## The pool and its users -/

/-- A pool and the references that its users hold, one entry each. -/
structure PoolSystem where
  pool : TxBufferPool
  owners : List ℕ := []

namespace PoolSystem

inductive Event where
  | pop (alloc : Bool)
  | addRef (b : ℕ)
  | release (b : ℕ)
  /-- An owner moves the cursors of its block. -/
  | write (b rd wr : ℕ)
  deriving DecidableEq, Repr

def init (c : PoolConfig) : PoolSystem := ⟨.init c, []⟩

/-- One call.  Only the holder of a reference touches a block, and each reference is released
    once. -/
def step (s : PoolSystem) : Event → PoolSystem
  | .pop alloc => ⟨(s.pool.pop alloc).2, (s.pool.pop alloc).1.toList ++ s.owners⟩
  | .addRef b => if b ∈ s.owners then ⟨s.pool.addRef b, b :: s.owners⟩ else s
  | .release b => if b ∈ s.owners then ⟨s.pool.release b, s.owners.erase b⟩ else s
  | .write b rd wr =>
    if b ∈ s.owners then ⟨s.pool.setBlock b { s.pool.block b with rd := rd, wr := wr }, s.owners⟩
    else s

/-- Every block is either free or owned, and there are no others. -/
structure Conserved (s : PoolSystem) : Prop where
  somewhere : ∀ b < s.pool.totalBlocks, b ∈ s.pool.freeList ∨ b ∈ s.owners
  disjoint : ∀ b ∈ s.pool.freeList, b ∉ s.owners
  total : s.pool.freeList.length + s.owners.dedup.length = s.pool.totalBlocks

/-- The step keeps the blocks, and a block that it returns has one reference and empty
    cursors. -/
def Conserves (s : PoolSystem) (e : Event) : Prop :=
  Conserved (s.step e) ∧
    ∀ alloc, e = .pop alloc → ∀ b ∈ (s.pool.pop alloc).1, (s.step e).pool.block b = ⟨1, 0, 0⟩

/-- The pool of a system in which no `pop` has got memory yet. -/
structure Untouched (s : PoolSystem) : Prop where
  freeList : s.pool.freeList = []
  totalBlocks : s.pool.totalBlocks = 0
  slabBlocks : s.pool.cfg.slabBlocks ≠ 0
  owners : s.owners = []

theorem untouched_init (c : PoolConfig) : Untouched (init c) := by
  refine ⟨rfl, rfl, ?_, rfl⟩
  simp only [init, TxBufferPool.init]
  split_ifs with h
  · exact Nat.one_ne_zero
  · exact h

theorem Untouched.conserved {s : PoolSystem} (h : Untouched s) : Conserved s := by
  refine ⟨fun b hb => ?_, fun b hb => ?_, ?_⟩
  · rw [h.totalBlocks] at hb; omega
  · rw [h.freeList] at hb; cases hb
  · rw [h.freeList, h.owners, h.totalBlocks]; rfl

theorem Untouched.step_eq {s : PoolSystem} (h : Untouched s) {e : Event} (he : e ≠ .pop true) :
    s.step e = s := by
  cases e with
  | pop alloc =>
    have halloc : alloc = false := by simpa using he
    subst halloc
    have hrefill : s.pool.refill false = s.pool := by
      rw [TxBufferPool.refill, TxBufferPool.grow_false, ite_self]
    rw [step, TxBufferPool.pop_empty h.freeList hrefill]
    rfl
  | addRef b => simp [step, h.owners]
  | release b => simp [step, h.owners]
  | write b rd wr => simp [step, h.owners]

theorem Untouched.not_conserved {s : PoolSystem} (h : Untouched s) :
    ¬ Conserved (s.step (.pop true)) := by
  intro hc
  have hrefill : s.pool.refill true = s.pool.grow s.pool.cfg.slabBlocks true := by
    rw [TxBufferPool.refill, if_pos h.freeList]
  obtain ⟨n, htotal, hfree⟩ := TxBufferPool.grow_true h.slabBlocks h.freeList h.totalBlocks
  rw [← hrefill] at htotal hfree
  obtain ⟨hret, hfree', htotal'⟩ := TxBufferPool.pop_taken hfree
  have hn := hc.somewhere n (by rw [step, htotal', htotal]; exact Nat.lt_succ_self n)
  have hnot : n ∉ (List.range n).reverse := by simp
  rcases hn with hn | hn
  · rw [step, hfree'] at hn
    exact hnot (List.mem_of_mem_tail hn)
  · rw [step, hret, h.owners, List.append_nil] at hn
    exact hnot (List.mem_of_mem_head? (Option.mem_toList.1 hn))

/-- **Blocks are conserved exactly along the runs in which no `pop` gets memory.** -/
theorem conserves_iff (c : PoolConfig) (es : List Event) :
    Run.Along Conserves step (init c) es ↔ Event.pop true ∉ es := by
  -- as long as the run gets no memory, the system stays as it is
  suffices hrun : ∀ s, Untouched s → (Run.Along Conserves step s es ↔ Event.pop true ∉ es) from
    hrun _ (untouched_init c)
  induction es with
  | nil => simp [Run.Along]
  | cons e es ih =>
    intro s hs
    rw [Run.Along, List.mem_cons, not_or]
    by_cases he : e = .pop true
    · subst he
      exact ⟨fun h => absurd h.1.1 hs.not_conserved, fun h => absurd rfl h.1⟩
    · have hstep := hs.step_eq he
      rw [hstep, ih s hs]
      refine and_congr_left' ⟨fun _ heq => he heq.symm, fun _ => ⟨?_, fun alloc ha b hb => ?_⟩⟩
      · rw [hstep]; exact hs.conserved
      · -- the `pop` returned nothing
        have howners : (s.step e).owners = [] := by rw [hstep]; exact hs.owners
        subst ha
        rw [step] at howners
        obtain ⟨hret, -⟩ := List.append_eq_nil_iff.1 howners
        rw [Option.mem_def.1 hb] at hret
        cases hret

/-- The only block of the pool is lost with the first `pop`. -/
theorem not_conserves_pop : ¬ Run.Along Conserves step (init { slabBlocks := 1 }) [.pop true] :=
  fun h => (untouched_init _).not_conserved h.1.1

end PoolSystem

end VirtualRouter
