/-
  The encoders of BGP messages (`routing/bgp/transport/BgpTx.cpp`).

  An encoder is the list of what it does to the connection: it reserves spans,
  and it writes through the spans it reserved so far, which it names by their
  number.  `build` runs such a list on the transmit buffer of the connection;
  the memory that the pool hands out is an argument, a pair for each
  `reserveSpan`.  `appended` is the message that the encoder means to send: each
  `reserveSpan(n)` read as `n` bytes appended.

  What an encoder writes behind the bytes it reserved stays in the memory of the
  block.  `openParam` asserts that it has not to (`dataSize + 2 <= 253`), and
  these bytes are left out there.

  * `unread_build`: no encoder changes the queue of the buffer;
  * `not_growsByMessage`: so that none of them adds a message to it;
  * `growsByMessage_commit`: a `commit` of the reserved bytes would have added
    just the message, for one in one span.
-/
import VirtualRouter.Transport.TxBuffer
import VirtualRouter.Bgp.Session

namespace VirtualRouter.Bgp

open Bytes Utils Run

/-! ## Encoders -/

/-- What an encoder does to the connection. -/
inductive TxAct where
  | reserve (minBytes : ℕ)
  /-- a write through the span that call `k` of `reserveSpan` returned -/
  | write (k at_ : ℕ) (bytes : List UInt8)
  deriving DecidableEq, Repr

/-- Spans that are reserved and filled one after the other, from span `k` on. -/
def spanActs : ℕ → List (List UInt8) → List TxAct
  | _, [] => []
  | k, bytes :: rest => .reserve bytes.length :: .write k 0 bytes :: spanActs (k + 1) rest

/-- `BgpOpenHeader::fixedSize`. -/
def openSize : ℕ := 10

def BGP_VERSION : UInt8 := 0x04

def BGP_ORF_TYPE_PREFIX_LIST : UInt8 := 64
def BGP_ORF_ACTION_REMOVE_ALL : UInt8 := 0x02
def BGP_ORF_WHEN_IMMEDIATE : UInt8 := 0x00

def buildHeader (type : MessageType) (payloadSize : UInt16) : List UInt8 :=
  BGP_MARKER ++ writeU16 (payloadSize + 19) ++ [type.code]

/-- The AS number in the two bytes of the OPEN message. -/
def myAs2 (localAs : UInt32) : UInt16 :=
  if localAs > 65535 then kAsTrans.toUInt16 else localAs.toUInt16

def buildOpen (session : Session) : List TxAct :=
  let caps := session.localCaps
  let capSize := computeCapabilityLen caps
  [.reserve (headerSize + openSize), .write 0 19 [BGP_VERSION], .write 0 20 (writeU16 (myAs2 caps.asn)),
    .write 0 22 (writeU16 session.holdTime), .write 0 24 (writeU32 session.routerId)] ++
  (if capSize ≥ 255 then [.write 0 28 [255], .reserve 2, .write 1 0 (writeU16 capSize)]
    else [.write 0 28 [capSize.toUInt8]]) ++
  spanActs (if capSize ≥ 255 then 2 else 1) (appendCapabilities caps) ++
  [.write 0 0 (buildHeader .OPEN (10 + (if capSize ≥ 255 then 2 else 0) + capSize))]

def buildNotification (notification : Notification) : List TxAct :=
  if notification.code = 0 then []
  else
    let notifSize := (UInt8.ofNat (2 + notification.data.length)).toUInt16
    [.reserve (headerSize + notifSize.toNat), .write 0 19 (writeU16 notification.code),
      .write 0 21 notification.data, .write 0 0 (buildHeader .NOTIFICATION notifSize)]

def buildKeepalive : List TxAct :=
  [.reserve headerSize, .write 0 0 (buildHeader .KEEPALIVE 0)]

inductive RouteRefreshReason where
  | Normal
  | Borr
  | Eorr
  deriving DecidableEq, Repr

def RouteRefreshReason.code : RouteRefreshReason → UInt8
  | Normal => 0
  | Borr => 1
  | Eorr => 2

/-- `writeBytes`: the `n` most significant bytes of `val`. -/
def writeBytes {w : ℕ} (val : BitVec w) (n : ℕ) : List UInt8 :=
  (List.range n).map fun i => UInt8.ofBitVec ((val >>> (w - 8 - 8 * i)).setWidth 8)

def IPPrefix.isIPv4 (p : IPPrefix) : Bool := p.addr >>> 32 = 0xFFFF

def OrfPrefixEntry.pfxBytes (e : OrfPrefixEntry) : ℕ := (e.pfx.prefixLength.toNat + 7) / 8

def OrfPrefixEntry.bytes (e : OrfPrefixEntry) : List UInt8 :=
  let am := e.action <<< 6 ||| (e.matching &&& 0x01)
  if e.action = BGP_ORF_ACTION_REMOVE_ALL then [am]
  else
    am :: writeU32 e.sequence ++ [e.minLen, e.maxLen, e.pfx.prefixLength] ++
      if e.pfx.isIPv4 then writeBytes (e.pfx.addr.setWidth 32) e.pfxBytes
      else writeBytes e.pfx.addr e.pfxBytes

def orfPayload (orfOutbound : List OrfPrefixEntry) : UInt16 :=
  orfOutbound.foldl (fun n e =>
    n + if e.action = BGP_ORF_ACTION_REMOVE_ALL then 1 else UInt16.ofNat (8 + e.pfxBytes)) 0

def buildRouteRefresh (F : CapabilityFns) (session : Session) (family : AfiSafi)
    (reason : RouteRefreshReason) : List TxAct :=
  let neg := session.negotiated
  let subtype := if !neg.enhancedRR && reason ≠ .Normal then RouteRefreshReason.Normal.code
    else reason.code
  let orfOutbound := session.orfOutbound family
  if !orfOutbound.isEmpty && F.canSendOrf neg family BGP_ORF_TYPE_PREFIX_LIST then
    spanActs 0 (
      [buildHeader .ROUTE_REFRESH (4 + 3 + orfPayload orfOutbound),
        writeU16 family.afi ++ [BGP_ORF_WHEN_IMMEDIATE, family.safi],
        BGP_ORF_TYPE_PREFIX_LIST :: writeU16 (orfPayload orfOutbound)] ++
      orfOutbound.map OrfPrefixEntry.bytes)
  else
    [.reserve (headerSize + 4), .write 0 0 (buildHeader .ROUTE_REFRESH 4),
      .write 0 19 (writeU16 family.afi), .write 0 21 [subtype], .write 0 22 [family.safi]]

inductive Encoder where
  | open_ (session : Session)
  | notification (n : Notification)
  | keepalive
  | routeRefresh (session : Session) (family : AfiSafi) (reason : RouteRefreshReason)

def Encoder.acts (F : CapabilityFns) : Encoder → List TxAct
  | open_ session => buildOpen session
  | notification n => buildNotification n
  | keepalive => buildKeepalive
  | routeRefresh session family reason => buildRouteRefresh F session family reason

def Encoder.type : Encoder → MessageType
  | open_ _ => .OPEN
  | notification _ => .NOTIFICATION
  | keepalive => .KEEPALIVE
  | routeRefresh _ _ _ => .ROUTE_REFRESH

/-! ## Encoders on the transmit buffer -/

/-- The buffer of the connection and the spans that the encoder got so far. -/
structure TxState where
  buf : TxBuffer
  spans : List TxSpan := []

/-- The pool: for each `reserveSpan` of an encoder what its two allocations return. -/
abbrev TxPool := ℕ → Alloc × Alloc

section
variable (B : ℕ) (pool : TxPool)

def TxState.step (s : TxState) : TxAct → TxState
  | .reserve minBytes =>
    let r := s.buf.reserveSpan B minBytes (pool s.spans.length).1 (pool s.spans.length).2
    ⟨r.1, s.spans ++ [r.2]⟩
  | .write k at_ bytes =>
    match s.spans[k]? with
    | none => s
    | some span => { s with buf := s.buf.write span at_ bytes }

/-- The buffer that the actions leave. -/
def build (buf : TxBuffer) (acts : List TxAct) : TxBuffer :=
  (runFrom (TxState.step B pool) ⟨buf, []⟩ acts).buf

end

/-! ## The message meant -/

/-- The spans of the message, each reserved one as long as asked for. -/
def appendStep (spans : List (List UInt8)) : TxAct → List (List UInt8)
  | .reserve minBytes => spans ++ [List.replicate minBytes 0]
  | .write k at_ bytes =>
    spans.modify k fun span => (TxBlock.overwrite span at_ bytes).take span.length

def appended (acts : List TxAct) : List UInt8 := (runFrom appendStep [] acts).flatten

theorem runFrom_spanActs (bs spans : List (List UInt8)) :
    runFrom appendStep spans (spanActs spans.length bs) = spans ++ bs := by
  induction bs generalizing spans with
  | nil => simp [spanActs]
  | cons b bs ih =>
    have hspan : appendStep (appendStep spans (.reserve b.length)) (.write spans.length 0 b) =
        spans ++ [b] := by
      simp [appendStep, TxBlock.overwrite, List.modify_eq_take_drop]
    have hlen : spans.length + 1 = (spans ++ [b]).length := by simp
    rw [spanActs, runFrom_cons, runFrom_cons, hspan, hlen, ih, List.append_assoc, List.singleton_append]

/-! ## The queue -/

/-- The queue grew by one message: the marker, a length that counts the bytes added, the type
    and a body. -/
def GrowsByMessage (before after : TxBuffer) (type : MessageType) : Prop :=
  ∃ body : List UInt8, headerSize + body.length < 2 ^ 16 ∧
    after.unread = before.unread ++ (BGP_MARKER ++
      writeU16 (UInt16.ofNat (headerSize + body.length)) ++ [type.code] ++ body)

/-- The spans start behind what is committed in their blocks. -/
def TxState.Behind (s : TxState) : Prop :=
  ∀ span ∈ s.spans, ∀ blk, s.buf.blocks[span.block]? = some blk → blk.wr ≤ span.off

section
variable {B : ℕ} {pool : TxPool}

theorem blocks_reserveSpan (b : TxBuffer) (minBytes : ℕ) (first second : Alloc) {i : ℕ} {blk : TxBlock}
    (h : (b.reserveSpan B minBytes first second).1.blocks[i]? = some blk) :
    b.blocks[i]? = some blk ∨ blk.wr = 0 := by
  have happend : ∀ (b : TxBuffer) (a : Alloc), (b.appendNewBlock B a).blocks[i]? = some blk →
      b.blocks[i]? = some blk ∨ blk.wr = 0 := by
    intro b a h
    cases a with
    | none => exact Or.inl h
    | some d =>
      rw [TxBuffer.appendNewBlock, List.getElem?_append] at h
      split_ifs at h with hi
      · exact Or.inl h
      · obtain rfl := List.mem_singleton.1 (List.mem_of_getElem? h)
        exact Or.inr rfl
  obtain ⟨b₁, hb₁⟩ : ∃ b₁, b₁ = if b.blocks = [] then b.appendNewBlock B first else b := ⟨_, rfl⟩
  have hfirst : b₁.blocks[i]? = some blk → b.blocks[i]? = some blk ∨ blk.wr = 0 := by
    intro h
    rw [hb₁] at h
    split_ifs at h
    · exact happend b first h
    · exact Or.inl h
  simp only [TxBuffer.reserveSpan, ← hb₁] at h
  split at h
  · exact hfirst h
  · dsimp only at h
    split_ifs at h
    · rcases happend b₁ second h with h | h
      · exact hfirst h
      · exact Or.inr h
    · exact hfirst h

theorem step_behind {s : TxState} (h : s.Behind) (a : TxAct) :
    (s.step B pool a).Behind ∧ (s.step B pool a).buf.unread = s.buf.unread := by
  cases a with
  | reserve minBytes =>
    obtain ⟨hunread, -, hspan⟩ := TxBuffer.reserveSpan_spec (B := B) s.buf minBytes
      (pool s.spans.length).1 (pool s.spans.length).2
    refine ⟨?_, hunread⟩
    intro span hmem blk hblk
    rcases List.mem_append.1 hmem with hmem | hmem
    · rcases blocks_reserveSpan _ _ _ _ hblk with hold | hnew
      · exact h span hmem blk hold
      · rw [hnew]; exact Nat.zero_le _
    · obtain rfl := List.mem_singleton.1 hmem
      simp only [hspan] at hblk ⊢
      exact TxSystem.wr_le_tailSpan _ blk hblk
  | write k at_ bytes =>
    rw [TxState.step]
    cases hk : s.spans[k]? with
    | none => exact ⟨h, rfl⟩
    | some span =>
      have hspan := h span (List.mem_of_getElem? hk)
      refine ⟨?_, TxBuffer.unread_write hspan⟩
      intro span' hmem blk hblk
      simp only [TxBuffer.write, List.getElem?_modify] at hblk
      obtain ⟨blk₀, hblk₀, rfl⟩ := Option.map_eq_some_iff.1 hblk
      have hle := h span' hmem blk₀ hblk₀
      split_ifs
      · exact hle
      · exact hle

/-- **No encoder changes the queue**: what it wrote is never committed. -/
theorem unread_build (buf : TxBuffer) (acts : List TxAct) :
    (build B pool buf acts).unread = buf.unread := by
  have hrun : ∀ s : TxState, s.Behind →
      (runFrom (TxState.step B pool) s acts).buf.unread = s.buf.unread := by
    induction acts with
    | nil => intro s _; rfl
    | cons a acts ih =>
      intro s hs
      have hstep : (s.step B pool a).Behind ∧ (s.step B pool a).buf.unread = s.buf.unread :=
        step_behind hs a
      rw [runFrom_cons, ih _ hstep.1, hstep.2]
  exact hrun ⟨buf, []⟩ (by intro span hspan; simp at hspan)

/-- **No message is queued**, by any encoder, for any session, on any buffer and with any
    pool. -/
theorem not_growsByMessage (F : CapabilityFns) (B : ℕ) (pool : TxPool) (buf : TxBuffer)
    (e : Encoder) : ¬ GrowsByMessage buf (build B pool buf (e.acts F)) e.type := by
  rintro ⟨body, -, hunread⟩
  rw [unread_build] at hunread
  have hlen := congrArg List.length hunread
  simp [BGP_MARKER] at hlen

/-- A KEEPALIVE on a new connection, with a pool that hands out blocks of 4096 bytes. -/
theorem not_growsByMessage_keepalive :
    ¬ GrowsByMessage {} (build 4096 (fun _ => (some fun _ => 0, some fun _ => 0)) {} buildKeepalive)
      .KEEPALIVE := by
  rintro ⟨body, -, hunread⟩
  have hempty : (build 4096 (fun _ => (some fun _ => 0, some fun _ => 0)) {} buildKeepalive).unread = [] := by
    rfl
  rw [hempty] at hunread
  have hlen := congrArg List.length hunread
  simp [BGP_MARKER] at hlen

/-! ## What a commit would have queued -/

theorem room_reserveSpan (b : TxBuffer) {minBytes : ℕ} {d₁ d₂ : ℕ → UInt8} (h : minBytes ≤ B) :
    minBytes ≤ ((b.reserveSpan B minBytes (some d₁) (some d₂)).1.room B).length := by
  have hnew : ∀ (b : TxBuffer) (d : ℕ → UInt8),
      ((b.appendNewBlock B (some d)).room B).length = B := by
    intro b d
    simp [TxBuffer.appendNewBlock, TxBuffer.room, TxBlock.room]
  obtain ⟨b₁, hb₁⟩ : ∃ b₁, b₁ = if b.blocks = [] then b.appendNewBlock B (some d₁) else b := ⟨_, rfl⟩
  have hne : b₁.blocks ≠ [] := by
    rw [hb₁]
    split_ifs with hnil
    · simp [TxBuffer.appendNewBlock]
    · exact hnil
  obtain ⟨t, ht⟩ := Option.ne_none_iff_exists'.1 (mt List.getLast?_eq_none_iff.1 hne)
  simp only [TxBuffer.reserveSpan, ← hb₁, ht]
  split_ifs with hslack
  · rw [hnew]; exact h
  · simp only [TxBuffer.room, ht, Option.map_some, Option.getD_some, TxBlock.room, List.length_map,
      List.length_range']
    omega

/-- **What is missing**: a message written through one span is queued, byte for byte, when its
    bytes are committed. -/
theorem growsByMessage_commit (hB : B < 2 ^ 32) {buf : TxBuffer} (hbuf : buf.Wf B)
    (hpool : ∀ k, (pool k).1.isSome ∧ (pool k).2.isSome) (type : MessageType) (body : List UInt8)
    (hsize : headerSize + body.length ≤ B) :
    ((build B pool buf (spanActs 0 [buildHeader type (UInt16.ofNat body.length) ++ body])).commit B
      (headerSize + body.length)).unread =
        buf.unread ++ (buildHeader type (UInt16.ofNat body.length) ++ body) := by
  obtain ⟨d₁, hd₁⟩ := Option.isSome_iff_exists.1 (hpool 0).1
  obtain ⟨d₂, hd₂⟩ := Option.isSome_iff_exists.1 (hpool 0).2
  set bytes := buildHeader type (UInt16.ofNat body.length) ++ body with hbytes
  have hlen : bytes.length = headerSize + body.length := by
    have hmarker : BGP_MARKER.length = 16 := rfl
    simp only [hbytes, buildHeader, List.length_append, length_writeU16, hmarker, headerSize,
      List.length_singleton]
  obtain ⟨hunread, hwf, hspan⟩ := TxBuffer.reserveSpan_spec (B := B) buf bytes.length (some d₁) (some d₂)
  set r := buf.reserveSpan B bytes.length (some d₁) (some d₂)
  have hbuild : build B pool buf (spanActs 0 [bytes]) = r.1.write (r.1.tailSpan B) 0 bytes := by
    simp only [build, spanActs, runFrom_cons, runFrom_nil, TxState.step, List.length_nil, hd₁, hd₂]
    simp [r, hspan]
  have hroom : 0 + bytes.length ≤ (r.1.room B).length := by
    rw [Nat.zero_add]
    exact room_reserveSpan buf (hlen ▸ hsize)
  obtain ⟨-, hcommit, -⟩ := TxBuffer.commit_spec hB ((hwf hbuf).write (r.1.tailSpan B) 0 bytes)
    (headerSize + body.length)
  have htake : (TxBlock.overwrite (r.1.room B) 0 bytes).take (headerSize + body.length) = bytes := by
    rw [TxBlock.overwrite, List.take_zero, List.nil_append, ← hlen, List.take_left]
  rw [hbuild, hcommit, TxBuffer.unread_write (TxSystem.wr_le_tailSpan _), hunread,
    TxBuffer.room_write _ hroom, htake]

end

/-- A KEEPALIVE that is committed. -/
theorem growsByMessage_commit_keepalive :
    ((build 4096 (fun _ => (some fun _ => 0, some fun _ => 0)) {}
      (spanActs 0 [buildHeader .KEEPALIVE 0])).commit 4096 19).unread = buildHeader .KEEPALIVE 0 :=
  growsByMessage_commit (by decide) TxBuffer.wf_empty (fun _ => ⟨rfl, rfl⟩) .KEEPALIVE []
    (by decide)

end VirtualRouter.Bgp
