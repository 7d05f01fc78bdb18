/-
  Framing of the received BGP bytes (`BgpRx::handleIncoming`).

  The session is a type `σ` with the operations `handleIncoming` uses on it:
  the message handlers, `sendNotification`, `postEvent` and the negotiated
  `extendedMessage` flag, which a handler may change.  `round` is one turn of
  the `while` loop, `handleIncoming` the loop, and `feed` a receive: the bytes
  not committed so far are presented again in front of the new chunk.

  * `round_message`, `round_incomplete`: a complete message in front is handled and
    committed, an incomplete one is left for the next receive;
  * `feed_prefix`: after any receive, exactly the messages complete by then have
    been handled;
  * `feed_chunks`: however the stream is cut into chunks, the handlers see the
    same messages and the whole stream is committed.
-/
import VirtualRouter.Lib.Run
import VirtualRouter.Transport.RxBuffer
import VirtualRouter.Bgp.BgpTypes

namespace VirtualRouter.Bgp

open Bytes Utils Run

/-- What a message handler leaves: the session, its result and its `error` argument. -/
structure Handled (σ : Type*) where
  session : σ
  ok : Bool
  error : Notification := {}

/-- The operations of a session that `handleIncoming` uses. -/
structure SessionOps (σ : Type*) where
  extendedMessage : σ → Bool
  sendNotification : σ → Notification → σ
  postEvent : σ → FsmEvent → σ
  processOpen : σ → UInt64 → List UInt8 → Handled σ
  processUpdate : σ → List UInt8 → Handled σ
  processNotification : σ → List UInt8 → Handled σ
  processKeepalive : σ → List UInt8 → Handled σ
  processRouteRefresh : σ → List UInt8 → Handled σ

structure Call where
  type : MessageType
  payload : List UInt8
  deriving DecidableEq, Repr

variable {σ : Type*} (I : SessionOps σ) (cid : UInt64)

namespace SessionOps

/-- A malformed header: notify the peer and the state machine. -/
def headerError (s : σ) (error : Notification) : σ :=
  I.postEvent (I.sendNotification s error) .BGP_HEADER_ERR

/-- The `switch` of `handleIncoming`: the session after the handler of the message type and
    its failure path, and whether the handler succeeded. -/
def dispatch (s : σ) (c : Call) : σ × Bool :=
  match c.type with
  | .OPEN =>
    let r := I.processOpen s cid c.payload
    if r.ok then (r.session, true)
    else (I.postEvent (I.sendNotification r.session r.error) .BGP_OPEN_MSG_ERR, false)
  | .UPDATE =>
    let r := I.processUpdate s c.payload
    if r.ok then (r.session, true)
    else (I.postEvent (I.sendNotification r.session r.error) .UPDATE_MSG_ERR, false)
  | .NOTIFICATION =>
    let r := I.processNotification s c.payload
    (r.session, r.ok)
  | .KEEPALIVE =>
    let r := I.processKeepalive s c.payload
    if r.ok then (r.session, true)
    else (I.postEvent (I.sendNotification r.session r.error) .BGP_HEADER_ERR, false)
  | .ROUTE_REFRESH =>
    let r := I.processRouteRefresh s c.payload
    if r.ok then (r.session, true)
    else (I.sendNotification r.session r.error, false)

/-- The longest message the session accepts. -/
def maxLen (s : σ) : UInt16 :=
  if I.extendedMessage s then kExtendedMessageLen else kMaxMessageLen

end SessionOps

/-- How a turn of the loop ends: `break` for more bytes, `return` with nothing committed, or
    a message handled and committed. -/
inductive Round (σ : Type*) where
  | wait
  | abort (s : σ)
  | handled (s : σ) (c : Call) (length : ℕ) (ok : Bool)

/-- One turn of the loop of `handleIncoming` on the view `buf`. -/
def round (s : σ) (buf : List UInt8) : Round σ :=
  if buf.length < headerSize then .wait
  else
    let hdr := ofList buf
    if hdr.take 16 ≠ BGP_MARKER then
      .abort (I.headerError s ⟨BGP_NOTIFICATION_HEADER_CONNECTION_NOT_SYNCED, []⟩)
    else
      let length := readU16 (hdr.add 16)
      if length.toNat < headerSize then
        .abort (I.headerError s ⟨BGP_NOTIFICATION_HEADER_BAD_MESSAGE_LENGTH, writeU16 length⟩)
      else if length > I.maxLen s then
        .abort (I.headerError s ⟨BGP_NOTIFICATION_HEADER_BAD_MESSAGE_LENGTH, writeU16 length⟩)
      else if buf.length < length.toNat then .wait
      else
        let payload := (buf.drop headerSize).take (length.toNat - headerSize)
        match MessageType.ofCode (hdr 18) with
        | none => .abort (I.headerError s ⟨BGP_NOTIFICATION_HEADER_BAD_MESSAGE_TYPE, [hdr 18]⟩)
        | some t =>
          let r := I.dispatch cid s ⟨t, payload⟩
          .handled r.1 ⟨t, payload⟩ length.toNat r.2

theorem round_handled {s s' : σ} {buf : List UInt8} {c : Call} {n : ℕ} {ok : Bool}
    (h : round I cid s buf = .handled s' c n ok) : headerSize ≤ n ∧ n ≤ buf.length := by
  unfold round at h
  split at h
  · cases h
  · dsimp only at h
    repeat' split at h
    all_goals cases h
    omega

/-- `handleIncoming`: the session and the consumer it leaves, and the handlers it called. -/
def handleIncoming (s : σ) (consumer : RxConsumer) : σ × RxConsumer × List Call :=
  match _h : round I cid s consumer.get with
  | .wait => (s, consumer, [])
  | .abort s' => (s', consumer, [])
  | .handled s' c length ok =>
    if ok then
      let r := handleIncoming s' (consumer.commit length)
      (r.1, r.2.1, c :: r.2.2)
    else (s', consumer.commit length, [c])
termination_by consumer.get.length
decreasing_by
  have hn := round_handled I cid _h
  simp only [RxConsumer.get, RxConsumer.commit, List.length_drop, headerSize] at hn ⊢
  omega

theorem handleIncoming_wait {s : σ} {c : RxConsumer} (h : round I cid s c.get = .wait) :
    handleIncoming I cid s c = (s, c, []) := by
  rw [handleIncoming]
  split <;> simp_all

theorem handleIncoming_handled {s s' : σ} {c : RxConsumer} {call : Call} {n : ℕ}
    (h : round I cid s c.get = .handled s' call n true) :
    handleIncoming I cid s c =
      ((handleIncoming I cid s' (c.commit n)).1, (handleIncoming I cid s' (c.commit n)).2.1,
        call :: (handleIncoming I cid s' (c.commit n)).2.2) := by
  rw [handleIncoming]
  split <;> simp_all

/-! ## Well-formed messages -/

/-- The handler call a message asks for; the type byte of a well-formed message has a type. -/
def callOf (m : List UInt8) : Call :=
  ⟨(MessageType.ofCode (ofList m 18)).getD .KEEPALIVE, m.drop headerSize⟩

/-- A complete message that the session in state `s` accepts: marker, its own length within
    the limit of the session, a known type, and a handler that succeeds. -/
structure MessageOk (s : σ) (m : List UInt8) : Prop where
  header : headerSize ≤ m.length
  marker : (ofList m).take 16 = BGP_MARKER
  length : (readU16 ((ofList m).add 16)).toNat = m.length
  limit : m.length ≤ (I.maxLen s).toNat
  type : (MessageType.ofCode (ofList m 18)).isSome
  success : (I.dispatch cid s (callOf m)).2 = true

def afterMessage (s : σ) (m : List UInt8) : σ := (I.dispatch cid s (callOf m)).1

theorem ofList_append {v w : List UInt8} {i : ℕ} (hi : i < v.length) :
    ofList (v ++ w) i = ofList v i := by
  simp [ofList, List.getD_eq_getElem?_getD, List.getElem?_append_left hi]

theorem header_congr {v w : List UInt8} (h : ∀ i, i < headerSize → ofList v i = ofList w i) :
    (ofList v).take 16 = (ofList w).take 16 ∧
      readU16 ((ofList v).add 16) = readU16 ((ofList w).add 16) ∧ ofList v 18 = ofList w 18 := by
  refine ⟨?_, ?_, h 18 (by decide)⟩
  · apply List.map_congr_left
    intro i hi
    rw [List.mem_range] at hi
    exact h i (by rw [headerSize]; omega)
  · simp only [readU16, add_apply]
    rw [h (16 + 0) (by decide), h (16 + 1) (by decide)]

variable {I cid}

/-- **A complete message in front of the view is handled and committed.** -/
theorem round_message {s : σ} {m : List UInt8} (hm : MessageOk I cid s m) (rest : List UInt8) :
    round I cid s (m ++ rest) = .handled (afterMessage I cid s m) (callOf m) m.length true := by
  have hh := hm.header
  obtain ⟨hmark, hlen, htype⟩ := header_congr (v := m ++ rest) (w := m) fun i hi =>
    ofList_append (hi.trans_le hh)
  obtain ⟨t, ht⟩ := Option.isSome_iff_exists.mp hm.type
  have hcall : callOf m = ⟨t, m.drop headerSize⟩ := by rw [callOf, ht]; rfl
  have hlimit : ¬ readU16 ((ofList m).add 16) > I.maxLen s := by
    rw [gt_iff_lt, UInt16.lt_iff_toNat_lt, hm.length]
    exact Nat.not_lt.mpr hm.limit
  have hpay : ((m ++ rest).drop headerSize).take (m.length - headerSize) = m.drop headerSize := by
    rw [List.drop_append_of_le_length hh, List.take_left' (by simp)]
  have hsucc := hm.success
  rw [hcall] at hsucc
  simp only [round, hmark, hlen, htype, hm.marker, hm.length, ht, hpay, hcall, hsucc, afterMessage,
    if_neg hlimit, ne_eq, not_true, if_false, if_neg (Nat.not_lt.mpr hh)]
  simp only [List.length_append]
  rw [if_neg (by omega), if_neg (by omega)]

/-- **An incomplete message is left for the next receive.** -/
theorem round_incomplete {s : σ} {m v w : List UInt8} (hm : MessageOk I cid s m) (hv : v ++ w = m)
    (hw : v.length < m.length) : round I cid s v = .wait := by
  by_cases hh : v.length < headerSize
  · simp only [round, hh, if_true]
  · obtain ⟨hmark, hlen, htype⟩ := header_congr (v := v) (w := m) fun i hi => by
      rw [← hv, ofList_append (by omega)]
    have hlimit : ¬ readU16 ((ofList m).add 16) > I.maxLen s := by
      rw [gt_iff_lt, UInt16.lt_iff_toNat_lt, hm.length]
      exact Nat.not_lt.mpr hm.limit
    simp only [round, hmark, hlen, htype, hm.marker, hm.length, if_neg hlimit, ne_eq, not_true,
      if_false, if_neg hh, if_neg (Nat.not_lt.mpr hm.header), if_pos hw]

/-- `v` is the front of the stream `rest` and ends inside its first message. -/
structure EndsInFirst (rest : List (List UInt8)) (v w : List UInt8) : Prop where
  front : v ++ w = rest.flatten
  short : ∀ m, rest.head? = some m → v.length < m.length

/-- **The loop**: on a view that is the front of a stream of well-formed messages it handles
    and commits those that are complete. -/
theorem handleIncoming_stream {msgs : List (List UInt8)} :
    ∀ {s : σ} {c : RxConsumer} {w : List UInt8},
      Along (MessageOk I cid) (afterMessage I cid) s msgs → c.get ++ w = msgs.flatten →
      ∃ done rest v, msgs = done ++ rest ∧ c.get = done.flatten ++ v ∧ EndsInFirst rest v w ∧
        handleIncoming I cid s c = (runFrom (afterMessage I cid) s done,
          c.commit done.flatten.length, done.map callOf) := by
  induction msgs with
  | nil =>
    intro s c w _ hw
    have hv : c.get = [] := (List.append_eq_nil_iff.mp hw).1
    have hwait : round I cid s c.get = .wait := by
      rw [hv]
      rfl
    exact ⟨[], [], [], rfl, by simp [hv], ⟨by simpa [hv] using hw, by simp⟩,
      by simp [handleIncoming_wait I cid hwait, RxConsumer.commit]⟩
  | cons m ms ih =>
    intro s c w hok hw
    obtain ⟨hm, hms⟩ := hok
    rw [List.flatten_cons] at hw
    by_cases hshort : c.get.length < m.length
    · obtain ⟨w', hw'⟩ : ∃ w', c.get ++ w' = m := by
        obtain ⟨a, ha, -⟩ | ⟨a, ha, -⟩ := List.append_eq_append_iff.mp hw
        · exact ⟨a, ha.symm⟩
        · rw [ha, List.length_append] at hshort
          omega
      refine ⟨[], m :: ms, c.get, rfl, rfl, ⟨by simpa using hw, ?_⟩, ?_⟩
      · rintro m' ⟨⟩
        exact hshort
      · simp [handleIncoming_wait I cid (round_incomplete hm hw' hshort), RxConsumer.commit]
    · obtain ⟨v, hv, hvw⟩ : ∃ v, c.get = m ++ v ∧ v ++ w = ms.flatten := by
        obtain ⟨a, ha, hb⟩ | ⟨a, ha, hb⟩ := List.append_eq_append_iff.mp hw
        · have ha0 : a = [] := by
            rw [ha, List.length_append] at hshort
            exact List.length_eq_zero_iff.mp (by omega)
          exact ⟨[], by simp [ha, ha0], by simpa [ha0] using hb⟩
        · exact ⟨a, ha, hb.symm⟩
      have hget : (c.commit m.length).get = v := by
        rw [RxConsumer.get] at hv
        rw [RxConsumer.get, RxConsumer.commit, ← List.drop_drop, hv, List.drop_left]
      obtain ⟨done, rest, v', rfl, hv', hend, hrun⟩ := ih hms (by rwa [hget])
      rw [hget] at hv'
      refine ⟨m :: done, rest, v', rfl, by simp [hv, hv'], hend, ?_⟩
      have hround := round_message hm v
      rw [← hv] at hround
      rw [handleIncoming_handled I cid hround, hrun]
      simp [RxConsumer.commit, Nat.add_assoc]

/-! ## Receives -/

/-- A connection: the session, the bytes presented but not committed, and as ghosts the
    handlers called and the number of bytes committed so far. -/
@[ext] structure RxLink (σ : Type*) where
  session : σ
  held : List UInt8 := []
  calls : List Call := []
  committed : ℕ := 0

/-- A receive of `chunk`: the bytes held are presented again in front of it. -/
def feed (I : SessionOps σ) (cid : UInt64) (x : RxLink σ) (chunk : List UInt8) : RxLink σ :=
  let r := handleIncoming I cid x.session ⟨x.held ++ chunk, 0⟩
  ⟨r.1, r.2.1.get, x.calls ++ r.2.2, x.committed + r.2.1.consumed⟩

/-- The messages `done` have been handled and committed, `x.held` is the front of the next
    one, and `w` is still to come. -/
structure Framed (I : SessionOps σ) (cid : UInt64) (s : σ) (done rest : List (List UInt8))
    (w : List UInt8) (x : RxLink σ) : Prop where
  session : x.session = runFrom (afterMessage I cid) s done
  calls : x.calls = done.map callOf
  committed : x.committed = done.flatten.length
  held : EndsInFirst rest x.held w

theorem feed_step {s : σ} {done rest : List (List UInt8)} {chunk w : List UInt8} {x : RxLink σ}
    (hok : Along (MessageOk I cid) (afterMessage I cid) s (done ++ rest))
    (hx : Framed I cid s done rest (chunk ++ w) x) :
    ∃ done' rest', done ++ rest = done' ++ rest' ∧
      Framed I cid s done' rest' w (feed I cid x chunk) := by
  have hrest := (along_append.mp hok).2
  rw [← hx.session] at hrest
  obtain ⟨new, rest', v, rfl, hv, hend, hrun⟩ :=
    handleIncoming_stream (c := ⟨x.held ++ chunk, 0⟩) (w := w) hrest (by
      rw [← hx.held.front]
      simp [RxConsumer.get])
  refine ⟨done ++ new, rest', by simp, ?_⟩
  constructor
  · rw [feed, hrun, runFrom_append, ← hx.session]
  · rw [feed, hrun, hx.calls, List.map_append]
  · rw [feed, hrun, hx.committed]
    simp [RxConsumer.commit]
  · have hget : (feed I cid x chunk).held = v := by
      rw [RxConsumer.get, List.drop_zero] at hv
      simp only at hv
      rw [feed, hrun]
      simp [RxConsumer.get, RxConsumer.commit, hv]
    rwa [hget]

/-- **Every receive**: after any chunks of the stream, exactly the messages complete by then
    have been handled. -/
theorem feed_prefix {s : σ} {msgs : List (List UInt8)}
    (hok : Along (MessageOk I cid) (afterMessage I cid) s msgs) :
    ∀ {chunks : List (List UInt8)} {w : List UInt8} {done rest : List (List UInt8)} {x : RxLink σ},
      msgs = done ++ rest → Framed I cid s done rest (chunks.flatten ++ w) x →
      ∃ done' rest', msgs = done' ++ rest' ∧
        Framed I cid s done' rest' w (runFrom (feed I cid) x chunks)
  | [], _, done, rest, _, hsplit, hx => ⟨done, rest, hsplit, by simpa using hx⟩
  | chunk :: chunks, w, done, rest, x, hsplit, hx => by
    rw [hsplit] at hok
    have hx' : Framed I cid s done rest (chunk ++ (chunks.flatten ++ w)) x := by simpa using hx
    obtain ⟨done', rest', hsplit', hstep⟩ := feed_step hok hx'
    rw [← hsplit] at hok
    rw [runFrom_cons]
    exact feed_prefix hok (hsplit.trans hsplit') hstep

theorem framed_init (I : SessionOps σ) (cid : UInt64) (s : σ) {msgs : List (List UInt8)}
    (hpos : ∀ m ∈ msgs, 0 < m.length) : Framed I cid s [] msgs msgs.flatten ⟨s, [], [], 0⟩ := by
  constructor
  · rfl
  · rfl
  · rfl
  · refine ⟨rfl, fun m hm => hpos m ?_⟩
    exact List.mem_of_mem_head? hm

/-- Once the whole stream has arrived, all its messages have been handled. -/
theorem Framed.complete {s : σ} {done rest : List (List UInt8)} {x : RxLink σ}
    (hx : Framed I cid s done rest [] x) : rest = [] ∧ x.held = [] := by
  have hfront := hx.held.front
  rw [List.append_nil] at hfront
  cases rest with
  | nil => exact ⟨rfl, by simpa using hfront⟩
  | cons m ms =>
    have hshort := hx.held.short m rfl
    rw [hfront, List.flatten_cons, List.length_append] at hshort
    omega

theorem MessageOk.pos {s : σ} {m : List UInt8} (h : MessageOk I cid s m) : 0 < m.length :=
  Nat.lt_of_lt_of_le (by decide) h.header

theorem pos_of_along {msgs : List (List UInt8)} :
    ∀ {s : σ}, Along (MessageOk I cid) (afterMessage I cid) s msgs → ∀ m ∈ msgs, 0 < m.length := by
  induction msgs with
  | nil => simp
  | cons m ms ih =>
    rintro s ⟨hm, hms⟩ m' hm'
    obtain rfl | hmem := List.mem_cons.mp hm'
    · exact hm.pos
    · exact ih hms m' hmem

theorem feed_all {s : σ} {msgs chunks : List (List UInt8)}
    (hok : Along (MessageOk I cid) (afterMessage I cid) s msgs)
    (hchunks : chunks.flatten = msgs.flatten) :
    runFrom (feed I cid) ⟨s, [], [], 0⟩ chunks =
      ⟨runFrom (afterMessage I cid) s msgs, [], msgs.map callOf, msgs.flatten.length⟩ := by
  have hinit := framed_init I cid s (pos_of_along hok)
  rw [← hchunks, ← List.append_nil chunks.flatten] at hinit
  obtain ⟨done, rest, hsplit, hx⟩ := feed_prefix hok (List.nil_append msgs).symm hinit
  obtain ⟨rfl, hheld⟩ := hx.complete
  rw [List.append_nil] at hsplit
  subst hsplit
  ext1
  · exact hx.session
  · exact hheld
  · exact hx.calls
  · exact hx.committed

/-- **Framing does not depend on the segmentation**: for every stream of messages the session
    accepts one after the other, and every way to cut it into chunks, the chunks make the
    handler calls that the whole stream makes at once, which are those of its messages in
    order, and all bytes of the stream are committed. -/
theorem feed_chunks {σ : Type*} (I : SessionOps σ) (cid : UInt64) (s : σ)
    (msgs chunks : List (List UInt8))
    (hok : Along (MessageOk I cid) (afterMessage I cid) s msgs)
    (hchunks : chunks.flatten = msgs.flatten) :
    let whole := runFrom (feed I cid) ⟨s, [], [], 0⟩ [msgs.flatten]
    let cut := runFrom (feed I cid) ⟨s, [], [], 0⟩ chunks
    cut = whole ∧ cut.calls = msgs.map callOf ∧ cut.committed = msgs.flatten.length ∧
      cut.held = [] := by
  have hwhole := @feed_all _ I cid s msgs [msgs.flatten] hok (by simp)
  have hcut := feed_all hok hchunks
  simp only [hwhole, hcut, and_self]

/-- A session that accepts every message and counts the handler calls. -/
def countingOps : SessionOps ℕ where
  extendedMessage _ := false
  sendNotification s _ := s
  postEvent s _ := s
  processOpen s _ _ := ⟨s + 1, true, {}⟩
  processUpdate s _ := ⟨s + 1, true, {}⟩
  processNotification s _ := ⟨s + 1, true, {}⟩
  processKeepalive s payload := ⟨s + 1, payload.isEmpty, {}⟩
  processRouteRefresh s _ := ⟨s + 1, true, {}⟩

def keepalive : List UInt8 := BGP_MARKER ++ [0, 19, 4]

theorem keepalive_ok (cid : UInt64) (s : ℕ) : MessageOk countingOps cid s keepalive where
  header := by decide
  marker := by decide
  length := by decide
  limit := by
    change keepalive.length ≤ kMaxMessageLen.toNat
    decide
  type := by decide
  success := rfl

/-- Two KEEPALIVE messages that arrive in three chunks, cut inside both. -/
theorem feed_chunks_keepalives :
    let whole := runFrom (feed countingOps 1) ⟨0, [], [], 0⟩ [keepalive ++ keepalive]
    let cut := runFrom (feed countingOps 1) ⟨0, [], [], 0⟩
      [keepalive.take 7, keepalive.drop 7 ++ keepalive.take 18, keepalive.drop 18]
    cut = whole ∧ cut.calls = [callOf keepalive, callOf keepalive] ∧ cut.committed = 38 ∧
      cut.held = [] :=
  feed_chunks countingOps 1 0 [keepalive, keepalive] _
    ⟨keepalive_ok 1 0, keepalive_ok 1 _, trivial⟩ rfl

end VirtualRouter.Bgp
