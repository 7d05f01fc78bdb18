/-
  Reliable flooding to one OSPF neighbour (`routing/ospf/transmission/PacketDispatcher.cpp`).

  * `Sender.addLSRequests`, `Sender.addLSUpdates`: a packet is filled from a burst;
  * `Sender.sendReliableLSRequest`, `Sender.sendReliableLSUpdate` and the timers;
  * `Sender.processLSAck`, `Sender.processLSRequest`: what the neighbour sends;
  * `Sender.step`: an event, with what is owed to the neighbour since;
  * `Sender.Lawful`: what is owed is on its list, a timer runs for it, and every timer
    offers it again; an acknowledged instance leaves the list;
  * `Sender.lawful_of_allowed`: the runs in which that holds.

  A record is an address, and its header is read where the source reads it.  `faulted`
  is an access out of range, or a loop that does not end.  The channel loses and
  repeats packets: the events of a run are any packets at all.  The pacing timer may
  fire at any time.
-/
import VirtualRouter.Lib.Run
import VirtualRouter.Ospf.Neighbor

namespace VirtualRouter.Ospf

open Run Bytes Utils NestedMap

def OSPFV2_LSA_OPAQUE_LINK : UInt16 := 9

/-- `LsaRecordRef`: the key, and where the record is. -/
structure LsaRecordRef where
  key : LsaKey
  record : ℕ
  deriving DecidableEq

inductive FloodPacket where
  | lsRequest (keys : List LsaKey)
  | lsUpdate (lsas : List (LsaKey × LsaHeader))

/-- The configuration of the interface, and what is outside the dispatcher. -/
structure FloodConfig where
  /-- `DATABASE_FILTER`. -/
  filter : Bool
  floodReduction : Bool
  /-- `getMaxRetransmission`. -/
  limit : UInt8
  /-- `getMaxHeaderSize`. -/
  maxSize : ℕ
  /-- What `buildLSABody` returns. -/
  buildLSABody : LsaRecordRef → Bool
  opaqueEnabled : Bool
  /-- `lsdb().find`. -/
  find : LsaKey → Option ℕ

/-- An LSA instance that was passed on, and how often its timer has fired since. -/
structure OwedLsa where
  ref : LsaRecordRef
  header : LsaHeader
  retransmissions : ℕ := 0

/-- The dispatcher and the neighbour's lists, with the history of what is owed. -/
structure Sender where
  lsus : RetransmissionList LsaKey LsaRecordRef := {}
  lsrs : RetransmissionList LsaKey LsaKey := {}
  multicastLsus : RetransmissionList LsaKey LsaRecordRef := {}
  lsuTimer : Bool := false
  lsrTimer : Bool := false
  /-- The headers of the records. -/
  records : ℕ → Option LsaHeader
  /-- The packets of this event. -/
  out : List FloodPacket := []
  owedUpdates : List OwedLsa := []
  owedRequests : List LsaKey := []
  faulted : Bool := false

namespace Sender

variable (cfg : FloodConfig)

/-! ## Packets -/

/-- `addLSRequests`: the keys that are sent, and the list after them. -/
def addLSRequests : (fuel offset : ℕ) → RetransmissionList LsaKey LsaKey →
    Option (List LsaKey × RetransmissionList LsaKey LsaKey)
  | 0, _, _ => none
  | fuel + 1, offset, list =>
    if cfg.maxSize < offset + 12 then some ([], list)
    else do
      let (next, list) ← list.nextInBurst
      match next with
      | none => some ([], list)
      | some key =>
        let list ← list.markBurst key cfg.limit
        let (keys, list) ← addLSRequests fuel (offset + 12) list
        some (key :: keys, list)

/-- `addLSUpdates`: the LSAs that are sent, and the list after them. -/
def addLSUpdates (records : ℕ → Option LsaHeader) :
    (fuel offset : ℕ) → RetransmissionList LsaKey LsaRecordRef →
    Option (List (LsaKey × LsaHeader) × RetransmissionList LsaKey LsaRecordRef)
  | 0, _, _ => none
  | fuel + 1, offset, list => do
    let (next, list) ← list.nextInBurst
    match next with
    | none => some ([], list)
    | some ref =>
      let header ← records ref.record
      if cfg.maxSize < offset + header.length.toNat ∨ cfg.maxSize < offset + 20 ∨
          !cfg.buildLSABody ref then some ([], list)
      else
        let list ← list.markBurst ref.key cfg.limit
        let (lsas, list) ← addLSUpdates records fuel (offset + header.length.toNat) list
        some ((ref.key, header) :: lsas, list)

def buildLSRequest (list : RetransmissionList LsaKey LsaKey) :
    Option (Option FloodPacket × RetransmissionList LsaKey LsaKey) := do
  let (keys, list) ← addLSRequests cfg (cfg.maxSize + 2) 0 list
  if keys.length = 0 then some (none, list) else some (some (.lsRequest keys), list)

/-- `buildLSUpdate`: the count that is tested first is the one of before. -/
def buildLSUpdate (records : ℕ → Option LsaHeader) (list : RetransmissionList LsaKey LsaRecordRef) :
    Option (Option FloodPacket × RetransmissionList LsaKey LsaRecordRef) := do
  let sent := 0
  let (lsas, list) ← addLSUpdates cfg records (cfg.maxSize + 2) 2 list
  if sent = 0 then some (none, list)
  else if lsas.length = 0 then some (none, list)
  else some (some (.lsUpdate lsas), list)

def fault (s : Sender) : Sender := { s with faulted := true }

/-- `onLsrPacingTimer`, with `sendLSRequest`. -/
def onLsrPacingTimer (s : Sender) : Sender :=
  match buildLSRequest cfg s.lsrs with
  | none => s.fault
  | some (pkt, lsrs) => { s with lsrs, out := s.out ++ pkt.toList }

/-- `onLsuPacingTimer`, with `sendLSUpdate`, for the neighbour or for the multicast list. -/
def onLsuPacingTimer (s : Sender) (multicast : Bool) : Sender :=
  if multicast then
    match buildLSUpdate cfg s.records s.multicastLsus with
    | none => s.fault
    | some (pkt, multicastLsus) => { s with multicastLsus, out := s.out ++ pkt.toList }
  else
    match buildLSUpdate cfg s.records s.lsus with
    | none => s.fault
    | some (pkt, lsus) => { s with lsus, out := s.out ++ pkt.toList }

/-! ## Sending -/

/-- `sendReliableLSRequest`: the keys are added to a copy of the list. -/
def sendReliableLSRequest (s : Sender) (keys : List LsaKey) : Sender :=
  match keys.foldlM (fun lsrs key => lsrs.add key key) s.lsrs with
  | none => s.fault
  | some _ => onLsrPacingTimer cfg s

/-- The LSA is not put on the lists. -/
def heldBack (info : FloodInfo) : Bool := cfg.filter || cfg.floodReduction && info.reason = .REFRESH

/-- The loop of `sendReliableLSUpdate` over the LSAs, for one list. -/
def addUpdates (updates : List (FloodInfo × LsaRecordRef))
    (list : RetransmissionList LsaKey LsaRecordRef) :
    Option (RetransmissionList LsaKey LsaRecordRef) :=
  updates.foldlM (fun list u => if heldBack cfg u.1 then some list else list.add u.2.key u.2) list

/-- `sendReliableLSUpdate`; only the multicast branch starts the timer. -/
def sendReliableLSUpdate (s : Sender) (multicast : Bool)
    (updates : List (FloodInfo × LsaRecordRef)) : Sender :=
  if multicast then
    match addUpdates cfg updates s.multicastLsus, addUpdates cfg updates s.lsus with
    | some multicastLsus, some lsus =>
      onLsuPacingTimer cfg { s with multicastLsus, lsus, lsuTimer := true } true
    | _, _ => s.fault
  else
    match addUpdates cfg updates s.lsus with
    | some lsus => onLsuPacingTimer cfg { s with lsus } false
    | none => s.fault

def onLsuRetransmissionTimer (s : Sender) : Sender :=
  let lsus := s.lsus.beginRetransmitBurst
  onLsuPacingTimer cfg { s with lsus, lsuTimer := !lsus.outbound.isEmpty } false

def onLsrRetransmissionTimer (s : Sender) : Sender :=
  let lsrs := s.lsrs.beginRetransmitBurst
  onLsrPacingTimer cfg { s with lsrs, lsrTimer := !lsrs.outbound.isEmpty }

/-! ## Receiving -/

/-- The LSA headers of an acknowledgment. -/
def ackEntries (payloadSize : ℕ) (payload : BytePtr) : List (LsaKey × LsaHeader) :=
  (List.range (payloadSize / 20)).map fun i => OspfInterface.readEntry (payload.add (20 * i))

/-- The loop body of `processLSAck`: the whole header is compared. -/
def ackEntry (records : ℕ → Option LsaHeader) (lsus : RetransmissionList LsaKey LsaRecordRef)
    (entry : LsaKey × LsaHeader) : Option (RetransmissionList LsaKey LsaRecordRef) := do
  match ← lsus.get entry.1 with
  | none => some lsus
  | some ref =>
    let header ← records ref.record
    if header = entry.2 then (lsus.erase entry.1).map Prod.snd else some lsus

def processLSAck (s : Sender) (payloadSize : ℕ) (payload : BytePtr) : Sender :=
  match (ackEntries payloadSize payload).foldlM (ackEntry s.records) s.lsus with
  | none => s.fault
  | some lsus => { s with lsus }

/-- The records that `processLSRequest` passes on. -/
def requestedRecords (payloadSize : ℕ) (payload : BytePtr) : List (FloodInfo × LsaRecordRef) :=
  if payloadSize % 12 ≠ 0 then []
  else
    (List.range (payloadSize / 12)).filterMap fun i =>
      let p := payload.add (12 * i)
      let key : LsaKey := ⟨⟨(readU32 p).toUInt16, readU32 (p.add 4)⟩, readU32 (p.add 8)⟩
      match cfg.find key with
      | none => none
      | some record =>
        if key.lsaType < OSPFV2_LSA_OPAQUE_LINK ∨ cfg.opaqueEnabled then
          some ({ reason := .UPDATE }, { key, record })
        else none

def processLSRequest (s : Sender) (payloadSize : ℕ) (payload : BytePtr) : Sender :=
  if payloadSize % 12 ≠ 0 then s
  else sendReliableLSUpdate cfg s false (requestedRecords cfg payloadSize payload)

/-! ## Events -/

/-- What happens. -/
inductive Event where
  | request (keys : List LsaKey)
  | update (multicast : Bool) (updates : List (FloodInfo × LsaRecordRef))
  | lsRequest (payloadSize : ℕ) (payload : BytePtr)
  | lsAck (payloadSize : ℕ) (payload : BytePtr)
  /-- An update answers the requests of the keys. -/
  | answer (keys : List LsaKey)
  | lsuTimer
  | lsrTimer
  | lsuPacing (multicast : Bool)
  | lsrPacing
  /-- A record gets a new header, by its age or by a new instance, or is erased. -/
  | store (record : ℕ) (header : Option LsaHeader)

/-- A newer instance. -/
def supersedes (header : LsaHeader) (o : OwedLsa) : Bool := compareLsaHeaders header o.header = .NEWER

/-- The header acknowledges the instance that is listed: the sequence number, the checksum and the
    age are those of the record. -/
def acknowledges (records : ℕ → Option LsaHeader) (entry : LsaKey × LsaHeader)
    (ref : LsaRecordRef) : Bool :=
  entry.1 = ref.key ∧ (records ref.record).any fun header => compareLsaHeaders entry.2 header = .SAME

/-- The LSAs are owed, and no longer what they supersede. -/
def owe (records : ℕ → Option LsaHeader) (owed : List OwedLsa)
    (updates : List (FloodInfo × LsaRecordRef)) : List OwedLsa :=
  updates.foldl (fun owed u => match records u.2.record with
    | none => owed
    | some header =>
      owed.filter (fun o => !(o.ref.key = u.2.key ∧ supersedes header o)) ++ [{ ref := u.2, header }])
    owed

/-- What is owed after an event, before the code acts. -/
def note (s : Sender) : Event → Sender
  | .request keys => { s with owedRequests := s.owedRequests ++ keys }
  | .update _ updates => { s with owedUpdates := owe s.records s.owedUpdates updates }
  | .lsRequest payloadSize payload =>
    { s with owedUpdates := owe s.records s.owedUpdates (requestedRecords cfg payloadSize payload) }
  | .lsAck payloadSize payload =>
    { s with
      owedUpdates := s.owedUpdates.filter fun o =>
        !(ackEntries payloadSize payload).any fun entry => acknowledges s.records entry o.ref }
  | .answer keys => { s with owedRequests := s.owedRequests.filter fun key => key ∉ keys }
  | .lsuTimer =>
    -- an LSA that was offered as often as the limit says is given up
    if s.lsuTimer then
      { s with
        owedUpdates := (s.owedUpdates.map fun o =>
          { o with retransmissions := o.retransmissions + 1 }).filter fun o =>
            o.retransmissions < cfg.limit.toNat }
    else s
  | .store record header =>
    { s with
      records := Function.update s.records record header
      owedUpdates := s.owedUpdates.filter fun o =>
        !(o.ref.record = record ∧ header.any fun header => supersedes header o) }
  | .lsrTimer | .lsuPacing _ | .lsrPacing => s

/-- What the code does; a timer fires only if it was started. -/
def act (s : Sender) : Event → Sender
  | .request keys => sendReliableLSRequest cfg s keys
  | .update multicast updates => sendReliableLSUpdate cfg s multicast updates
  | .lsRequest payloadSize payload => processLSRequest cfg s payloadSize payload
  | .lsAck payloadSize payload => processLSAck s payloadSize payload
  | .lsuTimer => if s.lsuTimer then onLsuRetransmissionTimer cfg s else s
  | .lsrTimer => if s.lsrTimer then onLsrRetransmissionTimer cfg s else s
  | .lsuPacing multicast => onLsuPacingTimer cfg s multicast
  | .lsrPacing => onLsrPacingTimer cfg s
  | .answer _ | .store _ _ => s

def step (s : Sender) (e : Event) : Sender := act cfg { note cfg s e with out := [] } e

/-- The neighbour is FULL, after an exchange that asked for the keys. -/
def start (records : ℕ → Option LsaHeader) (requested : List LsaKey) : Sender where
  records := records
  lsrs := requested.foldl (fun lsrs key => (lsrs.add key key).getD lsrs) {}

/-! ## What is to hold -/

/-- The packets of the event and of the pacing timer that fires `n` times after it. -/
def updatesSent (s : Sender) (e : Event) (n : ℕ) : List FloodPacket :=
  ((fun s => onLsuPacingTimer cfg s false)^[n] (step cfg s e)).out

def requestsSent (s : Sender) (e : Event) (n : ℕ) : List FloodPacket :=
  ((onLsrPacingTimer cfg)^[n] (step cfg s e)).out

/-- **Reliable flooding**, at one event: all accesses are in range; what is owed is on the neighbour's
    own list, and a timer runs for it; a timer that fires offers it again; and an acknowledged
    instance is removed. -/
structure Lawful (s : Sender) (e : Event) : Prop where
  returns : (step cfg s e).faulted = false
  updates : ∀ o ∈ (step cfg s e).owedUpdates, o.ref ∈ (step cfg s e).lsus.outbound
  requests : ∀ key ∈ (step cfg s e).owedRequests, key ∈ (step cfg s e).lsrs.outbound
  lsuTimer : (step cfg s e).owedUpdates ≠ [] → (step cfg s e).lsuTimer
  lsrTimer : (step cfg s e).owedRequests ≠ [] → (step cfg s e).lsrTimer
  updatesOffered : e = .lsuTimer → s.lsuTimer → ∀ o ∈ s.owedUpdates,
    ∃ n lsas header, .lsUpdate lsas ∈ updatesSent cfg s e n ∧ (o.ref.key, header) ∈ lsas
  requestsOffered : e = .lsrTimer → s.lsrTimer → ∀ key ∈ s.owedRequests,
    ∃ n keys, .lsRequest keys ∈ requestsSent cfg s e n ∧ key ∈ keys
  acknowledged : ∀ payloadSize payload, e = .lsAck payloadSize payload →
    ∀ entry ∈ ackEntries payloadSize payload, ∀ ref ∈ s.lsus.outbound,
      acknowledges s.records entry ref → ref ∉ (step cfg s e).lsus.outbound

/-- The LSAs can be passed on: none is held back, each key is new, and a timer runs or is started. -/
def Fresh (s : Sender) (multicast : Bool) (updates : List (FloodInfo × LsaRecordRef)) : Prop :=
  (∀ u ∈ updates, heldBack cfg u.1 = false ∧ s.lsus.outboundInfo.lookup u.2.key = none) ∧
    (updates.map fun u => u.2.key).Nodup ∧ (updates ≠ [] → multicast ∨ s.lsuTimer)

/-- The event does not reach one of the defects: no key is passed to `sendReliableLSRequest`; LSAs
    that are passed on are fresh; an acknowledgment names no listed key; and the timer of the updates
    finds an empty list. -/
def Allowed (s : Sender) : Event → Prop
  | .request keys => keys = []
  | .update multicast updates => Fresh cfg s multicast updates
  | .lsRequest payloadSize payload => Fresh cfg s false (requestedRecords cfg payloadSize payload)
  | .lsAck payloadSize payload =>
    ∀ entry ∈ ackEntries payloadSize payload, s.lsus.outboundInfo.lookup entry.1 = none
  | .lsuTimer => s.lsuTimer → s.lsus.outbound = []
  | .answer _ | .lsrTimer | .lsuPacing _ | .lsrPacing | .store _ _ => True

/-! ## No burst -/

variable {cfg} {s : Sender}

theorem nextInBurst_idle {ρ : Type} {list : RetransmissionList LsaKey ρ}
    (h : list.burstRemaining = 0) : list.nextInBurst = some (none, list) :=
  if_pos (Or.inl h)

theorem buildLSRequest_idle {list : RetransmissionList LsaKey LsaKey}
    (h : list.burstRemaining = 0) : buildLSRequest cfg list = some (none, list) := by
  rw [buildLSRequest, addLSRequests, nextInBurst_idle h]
  split_ifs <;> rfl

theorem buildLSUpdate_idle {records : ℕ → Option LsaHeader}
    {list : RetransmissionList LsaKey LsaRecordRef} (h : list.burstRemaining = 0) :
    buildLSUpdate cfg records list = some (none, list) := by
  rw [buildLSUpdate, addLSUpdates, nextInBurst_idle h]
  rfl

theorem onLsrPacingTimer_idle (h : s.lsrs.burstRemaining = 0) : onLsrPacingTimer cfg s = s := by
  rw [onLsrPacingTimer, buildLSRequest_idle h]
  simp

theorem onLsuPacingTimer_idle {multicast : Bool} (h : s.lsus.burstRemaining = 0)
    (hmulti : s.multicastLsus.burstRemaining = 0) : onLsuPacingTimer cfg s multicast = s := by
  rw [onLsuPacingTimer]
  split_ifs
  · rw [buildLSUpdate_idle hmulti]
    simp
  · rw [buildLSUpdate_idle h]
    simp

/-! ## New entries -/

/-- What the loop over fresh LSAs leaves: they are put behind what was listed. -/
structure Appended (list list' : RetransmissionList LsaKey LsaRecordRef) (refs : List LsaRecordRef) :
    Prop where
  outbound : list'.outbound = list.outbound ++ refs
  burst : list'.burstRemaining = list.burstRemaining
  known : ∀ key, (list'.outboundInfo.lookup key).isSome ↔
    (list.outboundInfo.lookup key).isSome ∨ key ∈ refs.map LsaRecordRef.key

theorem add_appended {list : RetransmissionList LsaKey LsaRecordRef} {ref : LsaRecordRef}
    (h : list.outboundInfo.lookup ref.key = none) :
    ∃ list', list.add ref.key ref = some list' ∧ Appended list list' [ref] := by
  rw [RetransmissionList.add, h]
  refine ⟨_, rfl, rfl, rfl, fun key => ?_⟩
  dsimp only
  by_cases hkey : key = ref.key
  · subst hkey
    simp
  · rw [AList.lookup_insert_ne hkey]
    simp [hkey]

theorem addUpdates_appended (updates : List (FloodInfo × LsaRecordRef)) :
    ∀ {list : RetransmissionList LsaKey LsaRecordRef},
      (∀ u ∈ updates, heldBack cfg u.1 = false ∧ list.outboundInfo.lookup u.2.key = none) →
      (updates.map fun u => u.2.key).Nodup →
      ∃ list', addUpdates cfg updates list = some list' ∧
        Appended list list' (updates.map Prod.snd) := by
  induction updates with
  | nil =>
    intro list _ _
    refine ⟨list, rfl, ?_, rfl, fun key => ?_⟩
    · simp
    · simp
  | cons u updates ih =>
    intro list hnew hnodup
    obtain ⟨hheld, hlookup⟩ := hnew u List.mem_cons_self
    obtain ⟨list₁, hadd, happ⟩ := add_appended hlookup
    rw [List.map_cons, List.nodup_cons] at hnodup
    have hnew₁ : ∀ v ∈ updates, heldBack cfg v.1 = false ∧
        list₁.outboundInfo.lookup v.2.key = none := by
      intro v hv
      obtain ⟨hheld', hlookup'⟩ := hnew v (List.mem_cons_of_mem _ hv)
      refine ⟨hheld', Option.not_isSome_iff_eq_none.1 fun hsome => ?_⟩
      rcases (happ.known _).1 hsome with hsome | hkey
      · rw [hlookup'] at hsome
        cases hsome
      · have hkey' : v.2.key = u.2.key := by simpa using hkey
        exact hnodup.1 (hkey' ▸ List.mem_map_of_mem hv)
    obtain ⟨list', hrest, happ'⟩ := ih hnew₁ hnodup.2
    refine ⟨list', ?_, ?_, ?_, fun key => ?_⟩
    · rw [addUpdates, List.foldlM_cons, hheld, if_neg Bool.false_ne_true, hadd]
      exact hrest
    · rw [happ'.outbound, happ.outbound]
      simp
    · rw [happ'.burst, happ.burst]
    · rw [happ'.known, happ.known]
      simp [or_assoc]

theorem foldlM_ackEntry {records : ℕ → Option LsaHeader}
    {lsus : RetransmissionList LsaKey LsaRecordRef} (entries : List (LsaKey × LsaHeader))
    (h : ∀ entry ∈ entries, lsus.outboundInfo.lookup entry.1 = none) :
    entries.foldlM (ackEntry records) lsus = some lsus := by
  induction entries with
  | nil => rfl
  | cons entry entries ih =>
    have hget : lsus.get entry.1 = some none := by
      rw [RetransmissionList.get, h entry List.mem_cons_self]
    rw [List.foldlM_cons, ackEntry, hget]
    exact ih fun e he => h e (List.mem_cons_of_mem _ he)

theorem mem_owe {records : ℕ → Option LsaHeader} (updates : List (FloodInfo × LsaRecordRef)) :
    ∀ {owed : List OwedLsa} {o : OwedLsa}, o ∈ owe records owed updates →
      o ∈ owed ∨ o.ref ∈ updates.map Prod.snd := by
  induction updates with
  | nil => exact fun h => Or.inl h
  | cons u updates ih =>
    intro owed o h
    rw [owe, List.foldl_cons] at h
    rcases ih h with h | h
    · cases hrecord : records u.2.record with
      | none =>
        rw [hrecord] at h
        exact Or.inl h
      | some header =>
        rw [hrecord] at h
        rcases List.mem_append.1 h with h | h
        · exact Or.inl (List.mem_filter.1 h).1
        · rw [List.mem_singleton] at h
          subst h
          exact Or.inr List.mem_cons_self
    · exact Or.inr (List.mem_cons_of_mem _ h)

/-! ## Invariant -/

/-- Invariant of the runs that keep to `Allowed`. -/
structure Inv (s : Sender) : Prop where
  returns : s.faulted = false
  updates : ∀ o ∈ s.owedUpdates, o.ref ∈ s.lsus.outbound
  requests : s.owedRequests = []
  timer : s.owedUpdates ≠ [] → s.lsuTimer
  known : ∀ ref ∈ s.lsus.outbound, (s.lsus.outboundInfo.lookup ref.key).isSome
  multicast : ∀ key, (s.multicastLsus.outboundInfo.lookup key).isSome →
    (s.lsus.outboundInfo.lookup key).isSome
  lsus_idle : s.lsus.burstRemaining = 0
  lsrs_idle : s.lsrs.burstRemaining = 0
  multicast_idle : s.multicastLsus.burstRemaining = 0
  lsrTimer : s.lsrTimer = false

theorem foldl_add_burst (keys : List LsaKey) : ∀ list : RetransmissionList LsaKey LsaKey,
    (keys.foldl (fun lsrs key => (lsrs.add key key).getD lsrs) list).burstRemaining =
      list.burstRemaining := by
  induction keys with
  | nil => exact fun _ => rfl
  | cons key keys ih =>
    intro list
    rw [List.foldl_cons, ih, RetransmissionList.add]
    cases list.outboundInfo.lookup key with
    | none => rfl
    | some info =>
      dsimp only
      rw [RetransmissionList.setAt]
      split_ifs <;> rfl

theorem Inv.start (records : ℕ → Option LsaHeader) (requested : List LsaKey) :
    Inv (start records requested) where
  returns := rfl
  updates := nofun
  requests := rfl
  timer h := absurd rfl h
  known := nofun
  multicast := nofun
  lsus_idle := rfl
  lsrs_idle := foldl_add_burst requested {}
  multicast_idle := rfl
  lsrTimer := rfl

theorem Inv.less (h : Inv s) {owed : List OwedLsa} (hsub : owed ⊆ s.owedUpdates)
    (records : ℕ → Option LsaHeader) :
    Inv { s with records, owedUpdates := owed, out := [] } where
  returns := h.returns
  updates o ho := h.updates o (hsub ho)
  requests := h.requests
  timer hne := h.timer fun hnil => hne (List.subset_nil.1 (hnil ▸ hsub))
  known := h.known
  multicast := h.multicast
  lsus_idle := h.lsus_idle
  lsrs_idle := h.lsrs_idle
  multicast_idle := h.multicast_idle
  lsrTimer := h.lsrTimer

theorem Inv.send (h : Inv s) {multicast : Bool} {updates : List (FloodInfo × LsaRecordRef)}
    (hfresh : Fresh cfg s multicast updates) :
    Inv (sendReliableLSUpdate cfg
      { s with owedUpdates := owe s.records s.owedUpdates updates, out := [] } multicast updates) := by
  obtain ⟨hnew, hnodup, htimer⟩ := hfresh
  obtain ⟨lsus, hlsus, happ⟩ := addUpdates_appended updates hnew hnodup
  have howed : ∀ o ∈ owe s.records s.owedUpdates updates, o.ref ∈ lsus.outbound := by
    intro o ho
    rw [happ.outbound, List.mem_append]
    exact (mem_owe updates ho).imp (h.updates o) id
  have hrunning : owe s.records s.owedUpdates updates ≠ [] → multicast ∨ s.lsuTimer := by
    intro hne
    obtain ⟨o, ho⟩ := List.exists_mem_of_ne_nil _ hne
    rcases mem_owe updates ho with ho | ho
    · exact Or.inr (h.timer (List.ne_nil_of_mem ho))
    · exact htimer fun hnil => by simp [hnil] at ho
  have hknown : ∀ ref ∈ lsus.outbound, (lsus.outboundInfo.lookup ref.key).isSome := by
    intro ref href
    rw [happ.outbound, List.mem_append] at href
    exact (happ.known _).2 (href.imp (h.known ref) (List.mem_map_of_mem ·))
  rw [sendReliableLSUpdate]
  dsimp only
  rw [hlsus]
  split_ifs with hmulti
  · -- the multicast list has no key that the neighbour's own list has not
    have hnew' : ∀ u ∈ updates, heldBack cfg u.1 = false ∧
        s.multicastLsus.outboundInfo.lookup u.2.key = none := by
      intro u hu
      obtain ⟨hheld, hlookup⟩ := hnew u hu
      refine ⟨hheld, Option.not_isSome_iff_eq_none.1 fun hsome => ?_⟩
      have hsome' := h.multicast _ hsome
      rw [hlookup] at hsome'
      cases hsome'
    obtain ⟨mlsus, hmlsus, happ'⟩ := addUpdates_appended updates hnew' hnodup
    rw [hmlsus]
    dsimp only
    have hidle : lsus.burstRemaining = 0 := happ.burst.trans h.lsus_idle
    have hmidle : mlsus.burstRemaining = 0 := happ'.burst.trans h.multicast_idle
    rw [onLsuPacingTimer_idle hidle hmidle]
    exact {
      returns := h.returns
      updates := howed
      requests := h.requests
      timer := fun _ => rfl
      known := hknown
      multicast := fun key hkey =>
        (happ.known key).2 (((happ'.known key).1 hkey).imp_left (h.multicast key))
      lsus_idle := hidle
      lsrs_idle := h.lsrs_idle
      multicast_idle := hmidle
      lsrTimer := h.lsrTimer }
  · dsimp only
    have hidle : lsus.burstRemaining = 0 := happ.burst.trans h.lsus_idle
    rw [onLsuPacingTimer_idle hidle]
    swap
    · exact h.multicast_idle
    exact {
      returns := h.returns
      updates := howed
      requests := h.requests
      timer := fun hne => (hrunning hne).resolve_left hmulti
      known := hknown
      multicast := fun key hkey => (happ.known key).2 (Or.inl (h.multicast key hkey))
      lsus_idle := hidle
      lsrs_idle := h.lsrs_idle
      multicast_idle := h.multicast_idle
      lsrTimer := h.lsrTimer }

/-- **Every event** that is allowed keeps the invariant. -/
theorem Inv.step (h : Inv s) {e : Event} (hallowed : Allowed cfg s e) : Inv (step cfg s e) := by
  have hsame : Inv { s with out := [] } := h.less (List.Subset.refl _) s.records
  rw [Sender.step]
  cases e with
  | request keys =>
    obtain rfl : keys = [] := hallowed
    have hnote : note cfg s (.request []) = s := by simp [note]
    rw [hnote]
    show Inv (onLsrPacingTimer cfg { s with out := [] })
    rw [onLsrPacingTimer_idle hsame.lsrs_idle]
    exact hsame
  | update multicast updates => exact h.send hallowed
  | lsRequest payloadSize payload =>
    show Inv (processLSRequest cfg _ payloadSize payload)
    rw [processLSRequest]
    split_ifs with hsize
    · have hnone : requestedRecords cfg payloadSize payload = [] := if_pos hsize
      rw [note, hnone]
      exact hsame
    · exact h.send hallowed
  | lsAck payloadSize payload =>
    show Inv (processLSAck _ payloadSize payload)
    rw [processLSAck, note]
    dsimp only
    rw [foldlM_ackEntry _ hallowed]
    exact h.less (List.filter_subset_self _) s.records
  | answer keys =>
    show Inv { s with owedRequests := s.owedRequests.filter fun key => key ∉ keys, out := [] }
    rw [h.requests]
    exact { hsame with requests := rfl }
  | lsuTimer =>
    rw [act, note]
    by_cases htimer : s.lsuTimer = true
    · have hlist : s.lsus.outbound = [] := hallowed htimer
      have howed : s.owedUpdates = [] := by
        rw [List.eq_nil_iff_forall_not_mem]
        intro o ho
        have href := h.updates o ho
        rw [hlist] at href
        cases href
      rw [if_pos htimer]
      dsimp only
      rw [if_pos htimer, onLsuRetransmissionTimer, onLsuPacingTimer_idle]
      · exact {
          returns := h.returns
          updates := by simp [howed]
          requests := h.requests
          timer := by simp [howed]
          known := h.known
          multicast := h.multicast
          lsus_idle := by
            show UInt32.ofNat s.lsus.outbound.length = 0
            rw [hlist]
            rfl
          lsrs_idle := h.lsrs_idle
          multicast_idle := h.multicast_idle
          lsrTimer := h.lsrTimer }
      · show UInt32.ofNat s.lsus.outbound.length = 0
        rw [hlist]
        rfl
      · exact h.multicast_idle
    · rw [if_neg htimer]
      dsimp only
      rw [if_neg htimer]
      exact hsame
  | lsrTimer =>
    rw [act, note]
    dsimp only
    rw [if_neg (Bool.eq_false_iff.1 h.lsrTimer)]
    exact hsame
  | lsuPacing multicast =>
    show Inv (onLsuPacingTimer cfg { s with out := [] } multicast)
    rw [onLsuPacingTimer_idle hsame.lsus_idle hsame.multicast_idle]
    exact hsame
  | lsrPacing =>
    show Inv (onLsrPacingTimer cfg { s with out := [] })
    rw [onLsrPacingTimer_idle hsame.lsrs_idle]
    exact hsame
  | store record header => exact h.less (List.filter_subset_self _) _

theorem Inv.lawful (h : Inv s) {e : Event} (hallowed : Allowed cfg s e) : Lawful cfg s e where
  returns := (h.step hallowed).returns
  updates := (h.step hallowed).updates
  requests key hkey := by
    rw [(h.step hallowed).requests] at hkey
    cases hkey
  lsuTimer := (h.step hallowed).timer
  lsrTimer hne := absurd (h.step hallowed).requests hne
  updatesOffered := by
    rintro rfl htimer o ho
    have href := h.updates o ho
    rw [hallowed htimer] at href
    cases href
  requestsOffered := by
    rintro rfl htimer
    rw [h.lsrTimer] at htimer
    cases htimer
  acknowledged := by
    rintro payloadSize payload rfl entry hentry ref href hack
    have hsome := h.known ref href
    rw [acknowledges, decide_eq_true_eq] at hack
    rw [← hack.1, hallowed entry hentry] at hsome
    cases hsome

/-- **When flooding is reliable**: in every run that does not reach a defect. -/
theorem lawful_of_allowed (cfg : FloodConfig) (records : ℕ → Option LsaHeader)
    (requested : List LsaKey) (es : List Event)
    (h : Along (Allowed cfg) (step cfg) (start records requested) es) :
    Along (Lawful cfg) (step cfg) (start records requested) es :=
  h.imp_of_invariant (fun _ _ hs hC => hs.step hC) (fun _ _ hs hC => hs.lawful hC)
    (Inv.start records requested)

/-! ## The defects -/

theorem buildLSUpdate_none {records : ℕ → Option LsaHeader}
    {list : RetransmissionList LsaKey LsaRecordRef}
    {r : Option FloodPacket × RetransmissionList LsaKey LsaRecordRef}
    (h : buildLSUpdate cfg records list = some r) : r.1 = none := by
  rw [buildLSUpdate] at h
  obtain ⟨⟨lsas, list'⟩, -, hr⟩ := Option.bind_eq_some_iff.1 h
  dsimp only at hr
  rw [if_pos rfl] at hr
  cases hr
  rfl

theorem onLsuPacingTimer_out (cfg : FloodConfig) (s : Sender) (multicast : Bool) :
    (onLsuPacingTimer cfg s multicast).out = s.out := by
  rw [onLsuPacingTimer]
  split_ifs
  · cases hbuild : buildLSUpdate cfg s.records s.multicastLsus with
    | none => rfl
    | some r =>
      have hnone := buildLSUpdate_none hbuild
      dsimp only
      rw [hnone, Option.toList_none, List.append_nil]
  · cases hbuild : buildLSUpdate cfg s.records s.lsus with
    | none => rfl
    | some r =>
      have hnone := buildLSUpdate_none hbuild
      dsimp only
      rw [hnone, Option.toList_none, List.append_nil]

theorem updatesSent_lsuTimer (s : Sender) (n : ℕ) : updatesSent cfg s .lsuTimer n = [] := by
  rw [updatesSent]
  induction n with
  | zero =>
    show (act cfg { note cfg s .lsuTimer with out := [] } .lsuTimer).out = []
    rw [act]
    split_ifs
    · rw [onLsuRetransmissionTimer, onLsuPacingTimer_out]
    · rfl
  | succ n ih =>
    rw [Function.iterate_succ', Function.comp_apply, onLsuPacingTimer_out]
    exact ih

/-- A timer that fires for an owed LSA breaks the law. -/
theorem not_lawful_lsuTimer (htimer : s.lsuTimer) (howed : s.owedUpdates ≠ []) :
    ¬ Lawful cfg s .lsuTimer := by
  intro h
  obtain ⟨o, ho⟩ := List.exists_mem_of_ne_nil _ howed
  obtain ⟨n, lsas, header, hsent, -⟩ := h.updatesOffered rfl htimer o ho
  rw [updatesSent_lsuTimer] at hsent
  cases hsent

/-! ## One LSA -/

/-- Nothing is held back, and every body can be built. -/
def plainConfig : FloodConfig where
  filter := false
  floodReduction := false
  limit := 24
  maxSize := 1456
  buildLSABody _ := true
  opaqueEnabled := false
  find _ := none

/-- The router LSA of 1.1.1.1. -/
def routerRef : LsaRecordRef where
  key := ⟨⟨1, 0x01010101⟩, 0x01010101⟩
  record := 0

def routerHeader : LsaHeader where
  sequence := 0x80000001
  checksum := 0x1234
  length := 36
  age := 1

def oneRecord : Sender :=
  start (fun record => if record = 0 then some routerHeader else none) []

/-- It is passed on to all neighbours. -/
def flood : Event := .update true [({ reason := .UPDATE }, routerRef)]

/-- It is acknowledged, with the age and the options of the record. -/
def floodAck : Event :=
  .lsAck 20 (ofList [0, 1, 0, 1, 1, 1, 1, 1, 1, 1, 1, 1, 128, 0, 0, 1, 18, 52, 0, 36])

/-- The LSA waits for its acknowledgment, and its record ages. -/
theorem lawful_flood : Along (Lawful plainConfig) (step plainConfig) oneRecord
    [flood, .lsuPacing true, .store 0 (some { routerHeader with age := 2 }), .lsrTimer] := by
  refine lawful_of_allowed plainConfig _ [] _ ⟨⟨?_, ?_, fun _ => Or.inl rfl⟩, trivial, trivial, trivial,
    trivial⟩
  · intro u hu
    rw [List.mem_singleton] at hu
    subst hu
    exact ⟨rfl, rfl⟩
  · exact List.nodup_singleton _

/-- The flooded LSA is not offered when its timer fires, its acknowledgment is looked up out of range,
    and a request is not on the list. -/
theorem not_lawful_flood :
    (¬ ∀ (cfg : FloodConfig) (records : ℕ → Option LsaHeader) (requested : List LsaKey)
      (es : List Event), Along (Lawful cfg) (step cfg) (start records requested) es) ∧
    ¬ Along (Lawful plainConfig) (step plainConfig) oneRecord [flood, .lsuTimer] ∧
    ¬ Along (Lawful plainConfig) (step plainConfig) oneRecord [flood, floodAck] ∧
    ¬ Along (Lawful plainConfig) (step plainConfig) oneRecord [.request [routerRef.key]] := by
  have htimer : ¬ Along (Lawful plainConfig) (step plainConfig) oneRecord [flood, .lsuTimer] := by
    rintro ⟨-, h, -⟩
    refine not_lawful_lsuTimer rfl ?_ h
    have howed : (step plainConfig oneRecord flood).owedUpdates.length = 1 := rfl
    intro hnil
    rw [hnil] at howed
    cases howed
  refine ⟨fun h => htimer (h _ _ _ _), htimer, ?_, ?_⟩
  · rintro ⟨-, h, -⟩
    have hfault : (step plainConfig (step plainConfig oneRecord flood) floodAck).faulted = true := by
      decide +kernel
    rw [h.returns] at hfault
    cases hfault
  · rintro ⟨h, -⟩
    have hlisted := h.requests routerRef.key (by decide +kernel)
    revert hlisted
    decide +kernel

end Sender

end VirtualRouter.Ospf
