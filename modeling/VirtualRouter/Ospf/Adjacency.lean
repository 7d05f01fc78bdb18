/-
  The adjacency with one OSPF neighbour (`ospf/ospfv2/transmission/RxV2.cpp`).

  The neighbour as it is found and lost, with what was heard and requested.

  * `OspfInterface.processHello`: a Hello, from the creation of the neighbour on;
  * `OspfInterface.receivedLsas`: the LSAs that an update brings;
  * `Adjacency.step`: what happens to the neighbour;
  * `Adjacency.Sane`: the state machine has returned, a finished exchange with nothing
    missing has made the neighbour FULL, and an adjacency was heard of;
  * `Adjacency.sane_iff`: when that holds in every state of a run.

  Nothing ever asks for FULL, and nothing takes a received LSA off the request list.
-/
import VirtualRouter.Lib.Run
import VirtualRouter.Ospf.DbExchange

namespace VirtualRouter.Ospf

open Run Bytes Utils NestedMap

/-! ## Hello -/

structure Hello where
  payloadSize : ℕ
  payload : BytePtr
  unicast : Bool
  /-- What the memory of a new neighbour holds for its state, which nothing initializes. -/
  memory : NeighborState
  /-- `generateInitialDDSequence`. -/
  sequence : UInt32
  /-- The routers that the interface has elected. -/
  dr : UInt32
  bdr : UInt32
  /-- An election would change them. -/
  changes : Bool

namespace OspfInterface

variable {Body : Type} (iface : OspfInterface Body) (rid : UInt32)

/-- The checks of `processHello` on the header. -/
def timersMatch (h : Hello) : Bool :=
  readU16 (h.payload.add 4) = iface.helloInterval ∧ readU32 (h.payload.add 8) = iface.deadInterval ∧
    (iface.multiAccess → readU32 h.payload = iface.mask)

/-- The neighbour is created, or has sent its Hello to this router alone. -/
def helloNeighbor (nbr : Option Neighbor) (h : Hello) : Neighbor :=
  match nbr with
  | none =>
    { routerID := rid
      unicast := h.unicast
      mtu := iface.ifaceMtu
      state := h.memory
      currentSeq := h.sequence }
  | some nbr =>
    -- `setState(INIT)`
    if h.unicast ∧ (nbr.state = .DOWN ∨ nbr.state = .ATTEMPT) then { nbr with state := .INIT } else nbr

/-- The Hello is processed from the neighbour list on. -/
def accepts (nbr : Option Neighbor) (h : Hello) : Bool :=
  20 ≤ h.payloadSize ∧ iface.timersMatch h ∧
    ((iface.helloNeighbor rid nbr h).state = .FULL ∨ iface.processOptions (h.payload 6))

def lists (h : Hello) : Bool :=
  (List.range ((h.payloadSize - 20) / 4)).any fun i =>
    readU32 (h.payload.add (20 + 4 * i)) = iface.routerId

/-- What the Hello says of the neighbour, and the election. -/
def updateNeighbor (nbr : Neighbor) (h : Hello) : Option (Neighbor × List OspfPacket) :=
  let nbr := { nbr with priority := h.payload 7 }
  if iface.multiAccess then
    let nbr := { nbr with dr := readU32 (h.payload.add 12), bdr := readU32 (h.payload.add 16) }
    let election := nbr.priority = 0 ∧ (nbr.routerID = h.bdr ∨ nbr.routerID = h.dr) ∨
      nbr.state = .TWOWAY ∧ (h.dr = 0 ∨ h.bdr = 0)
    if election ∧ h.changes ∧ nbr.state = .TWOWAY then iface.setState 2 nbr .EXSTART
    else some (nbr, [])
  else some (nbr, [])

def processNeighborList (nbr : Neighbor) (h : Hello) : Option (Neighbor × List OspfPacket) :=
  if iface.multiAccess ∧ ((h.payloadSize - 20) % 4 ≠ 0 ∨ !iface.lists h) then some (nbr, [])
  else if nbr.state = .INIT then do
    let (nbr, sent) ← iface.setState 2 nbr .TWOWAY
    let (nbr, sent') ← iface.updateNeighbor nbr h
    some (nbr, sent ++ sent')
  else iface.updateNeighbor nbr h

/-- `processHello`; `none` if it does not return. -/
def processHello (nbr : Option Neighbor) (h : Hello) :
    Option (Option Neighbor × List OspfPacket) :=
  if h.payloadSize < 20 then some (nbr, [])
  else if !iface.timersMatch h then
    match nbr with
    | none => some (none, [])
    | some nbr => (iface.setState 2 nbr .DOWN).map fun r => (some r.1, r.2)
  else
    let nbr := iface.helloNeighbor rid nbr h
    if nbr.state ≠ .FULL ∧ !iface.processOptions (h.payload 6) then
      (iface.setState 2 nbr .DOWN).map fun r => (some r.1, r.2)
    else (iface.processNeighborList nbr h).map fun r => (some r.1, r.2)

/-! ## Updates -/

/-- The loop of `processLSUpdate` over the LSAs that are left: the keys of the ones that have a body
    and a valid checksum. -/
def readLsaKeys (payloadSize : ℕ) (payload : BytePtr) : (left offset : ℕ) → List LsaKey
  | 0, _ => []
  | left + 1, offset =>
    let (key, hdr) := readEntry (payload.add offset)
    if payloadSize < offset + 20 ∨ hdr.length < 20 ∨ payloadSize < offset + hdr.length.toNat then []
    else
      let rest := readLsaKeys payloadSize payload left (offset + hdr.length.toNat)
      let lsa := (payload.add offset).take hdr.length.toNat
      match iface.buildLsaBody key.lsaType.toUInt8 (payload.take payloadSize) (offset + 20)
          (hdr.length - 20) key.linkStateId with
      | .ok _ => if verifyOspfFletcher lsa hdr.length then key :: rest else rest
      | .error _ => rest

/-- The LSAs that `processLSUpdate` gives to the area. -/
def receivedLsas (payloadSize : ℕ) (payload : BytePtr) : List LsaKey :=
  if payloadSize < 4 then [] else iface.readLsaKeys payloadSize payload (lsuRounds (readU32 payload)) 4

end OspfInterface

/-! ## The adjacency -/

/-- The neighbour, if it is known, and its history. -/
structure Adjacency where
  nbr : Option Neighbor := none
  /-- A Hello that was processed has listed this router. -/
  heard : Bool := false
  /-- The LSAs that were requested in this exchange and not received since. -/
  missing : List LsaKey := []
  /-- The exchange has finished. -/
  ended : Bool := false
  /-- A call did not return. -/
  hung : Bool := false

namespace Adjacency

variable {Body : Type} (iface : OspfInterface Body) (rid : UInt32)

/-- What happens to the neighbour. -/
inductive Event where
  | hello (h : Hello)
  | dbd (payloadSize : ℕ) (payload : BytePtr)
  | lsu (payloadSize : ℕ) (payload : BytePtr)
  /-- The election after another neighbour's Hello changes the designated routers. -/
  | elected
  /-- The inactivity timer, a passive interface, or a reset of the area. -/
  | down
  /-- `deleteNeighbor`. -/
  | delete

def exchanging (nbr : Option Neighbor) : Bool :=
  nbr.any fun nbr => NeighborState.EXCHANGE.rank ≤ nbr.state.rank

/-- An exchange that is left is over. -/
def settle (s : Adjacency) : Adjacency :=
  if exchanging s.nbr then s else { s with missing := [], ended := false }

def setState (s : Adjacency) (nbr : Neighbor) (state : NeighborState) : Adjacency :=
  match iface.setState 2 nbr state with
  | none => { s with hung := true }
  | some (nbr, _) => { s with nbr := some nbr }

def hello (s : Adjacency) (h : Hello) : Adjacency :=
  match iface.processHello rid s.nbr h with
  | none => { s with hung := true }
  | some (nbr, _) =>
    { s with nbr, heard := s.heard || iface.accepts rid s.nbr h && iface.lists h }

def dbd (s : Adjacency) (nbr : Neighbor) (payloadSize : ℕ) (payload : BytePtr) : Adjacency :=
  match iface.processDBD 2 nbr payloadSize payload with
  | none => { s with hung := true }
  | some out =>
    { s with
      nbr := some out.nbr
      missing := (if out.restarted then [] else s.missing) ++ out.requested
      ended := !out.restarted && s.ended || out.ended }

/-- An update: the neighbour is left as it is. -/
def lsu (s : Adjacency) (nbr : Neighbor) (payloadSize : ℕ) (payload : BytePtr) : Adjacency :=
  if nbr.state.rank < NeighborState.EXCHANGE.rank then s
  else
    let received := iface.receivedLsas payloadSize payload
    { s with missing := s.missing.filter fun key => key ∉ received }

def step (s : Adjacency) (e : Event) : Adjacency :=
  if s.hung then s
  else settle (match e, s.nbr with
    | .hello h, _ => hello iface rid s h
    | _, none => s
    | .dbd payloadSize payload, some nbr => dbd iface s nbr payloadSize payload
    | .lsu payloadSize payload, some nbr => lsu iface s nbr payloadSize payload
    | .elected, some nbr => if nbr.state = .TWOWAY then setState iface s nbr .EXSTART else s
    | .down, some nbr => setState iface s nbr .DOWN
    | .delete, some _ => { s with nbr := none })

/-! ## What is to hold -/

/-- **The state is sane**: every call has returned, a finished exchange with nothing missing has made
    the neighbour FULL, and an adjacency was heard of. -/
structure Sane (s : Adjacency) : Prop where
  returns : s.hung = false
  full : s.ended → s.missing = [] → ∃ nbr, s.nbr = some nbr ∧ nbr.state = .FULL
  heard : ∀ nbr, s.nbr = some nbr → NeighborState.EXSTART.rank ≤ nbr.state.rank → s.heard

def EndsExchange (nbr : Neighbor) (payloadSize : ℕ) (payload : BytePtr) : Prop :=
  OspfInterface.dbdFits nbr payloadSize ∧ iface.processOptions (payload 2) ∧
    ¬ (iface.mtuIgnore ∧ nbr.mtu ≠ readU16 payload) ∧ payload 3 &&& 0x04 = 0 ∧
    nbr.state = .EXCHANGE ∧
    ¬ (nbr.currentDbd.isSome ∨ payload 3 &&& 0x02 ≠ 0 ∨ nbr.role = .SLAVE)

/-- The event does not reach one of the missing edges:
    a Hello that finds the neighbour in EXSTART or above, or in INIT on a network that is not
    multi-access, comes from a neighbour that has listed this router, as does an election that finds
    it in TWOWAY; an exchange ends with a requested LSA missing; and no update brings the last one. -/
def Allowed (s : Adjacency) : Event → Prop
  | .hello h => iface.accepts rid s.nbr h →
    (NeighborState.EXSTART.rank ≤ (iface.helloNeighbor rid s.nbr h).state.rank ∨
      (iface.helloNeighbor rid s.nbr h).state = .INIT ∧ iface.multiAccess = false) →
    s.heard ∨ iface.lists h
  | .dbd payloadSize payload => ∀ nbr, s.nbr = some nbr →
    EndsExchange iface nbr payloadSize payload →
    s.missing ≠ [] ∨ iface.requests payloadSize payload ≠ []
  | .lsu payloadSize payload => s.ended →
    ∃ key ∈ s.missing, key ∉ iface.receivedLsas payloadSize payload
  | .elected => ∀ nbr, s.nbr = some nbr → nbr.state = .TWOWAY → s.heard
  | .down | .delete => True

end Adjacency

/-! ## The request list -/

/-- A list without entries has no index. -/
def Idle (l : RetransmissionList LsaKey LsaKey) : Prop := l.outbound = [] → l.outboundInfo = ∅

theorem idle_nil : Idle {} := fun _ => rfl

namespace Neighbor

variable {nbr : Neighbor}

theorem addRequest_outbound (h : Idle nbr.lsrs) (key : LsaKey) :
    (nbr.addRequest key).lsrs.outbound ≠ [] := by
  have hlsrs : (nbr.addRequest key).lsrs = (nbr.lsrs.add key key).getD nbr.lsrs := rfl
  rw [hlsrs, RetransmissionList.add]
  cases hlookup : nbr.lsrs.outboundInfo.lookup key with
  | none => simp
  | some info =>
    have hne : nbr.lsrs.outbound ≠ [] := by
      intro hnil
      rw [h hnil] at hlookup
      cases hlookup
    simp only [RetransmissionList.setAt]
    split_ifs
    · simpa using hne
    · exact hne

theorem addRequest_idle (h : Idle nbr.lsrs) (key : LsaKey) : Idle (nbr.addRequest key).lsrs :=
  fun hnil => absurd hnil (addRequest_outbound h key)

theorem foldl_addRequest_fields (keys : List LsaKey) : ∀ nbr : Neighbor,
    (keys.foldl addRequest nbr).state = nbr.state ∧
    (keys.foldl addRequest nbr).currentDbd = nbr.currentDbd ∧
    (keys.foldl addRequest nbr).role = nbr.role := by
  induction keys with
  | nil => exact fun nbr => ⟨rfl, rfl, rfl⟩
  | cons key keys ih => exact fun nbr => ih (nbr.addRequest key)

theorem foldl_addRequest (keys : List LsaKey) : ∀ {nbr : Neighbor}, Idle nbr.lsrs →
    Idle (keys.foldl addRequest nbr).lsrs ∧
    (keys = [] ∧ (keys.foldl addRequest nbr).lsrs = nbr.lsrs ∨
      keys ≠ [] ∧ (keys.foldl addRequest nbr).active) := by
  induction keys with
  | nil => exact fun h => ⟨h, Or.inl ⟨rfl, rfl⟩⟩
  | cons key keys ih =>
    intro nbr h
    have hout := addRequest_outbound h key
    obtain ⟨hidle, hcases⟩ := ih (addRequest_idle h key)
    refine ⟨hidle, Or.inr ⟨List.cons_ne_nil _ _, ?_⟩⟩
    rcases hcases with ⟨rfl, -⟩ | ⟨-, hactive⟩
    · show (nbr.addRequest key).active = true
      rw [active, Bool.not_eq_true', List.isEmpty_eq_false_iff]
      exact hout
    · exact hactive

end Neighbor

/-! ## What a Hello does -/

namespace OspfInterface

variable {Body : Type} (iface : OspfInterface Body) (rid : UInt32)

theorem setState_exstart_of_ne (nbr : Neighbor) (h : nbr.state ≠ .EXSTART) (fuel : ℕ) :
    ∃ nbr' sent, iface.setState (fuel + 1) nbr .EXSTART = some (nbr', sent) ∧
      nbr'.state = .EXSTART ∧ nbr'.lsrs = {} := by
  rw [setState, if_pos h]
  exact ⟨_, _, rfl, rfl, rfl⟩

theorem setState_twoway (nbr : Neighbor) :
    ∃ nbr' sent, iface.setState 2 nbr .TWOWAY = some (nbr', sent) ∧
      (iface.multiAccess = true ∧ nbr'.state = .TWOWAY ∧ nbr'.lsrs = nbr.lsrs ∨
        nbr'.state = .EXSTART ∧ nbr'.lsrs = {}) := by
  rw [setState]
  split_ifs with hstays
  · exact ⟨_, _, rfl, Or.inl ⟨hstays.1, rfl, rfl⟩⟩
  · have hne : ({ nbr with state := .TWOWAY } : Neighbor).state ≠ .EXSTART := by simp
    obtain ⟨nbr', sent, hset, hstate, hlsrs⟩ := iface.setState_exstart_of_ne _ hne 0
    exact ⟨nbr', sent, hset, Or.inr ⟨hstate, hlsrs⟩⟩

/-- The neighbour keeps its state and its requests. -/
def Same (nbr nbr' : Neighbor) : Prop := nbr'.state = nbr.state ∧ nbr'.lsrs = nbr.lsrs

theorem updateNeighbor_spec (nbr : Neighbor) (h : Hello) :
    ∃ nbr' sent, iface.updateNeighbor nbr h = some (nbr', sent) ∧
      (Same nbr nbr' ∨ iface.multiAccess = true ∧ nbr.state = .TWOWAY ∧ nbr'.state = .EXSTART ∧
        nbr'.lsrs = {}) := by
  rw [updateNeighbor]
  dsimp only
  split_ifs with hmulti helects
  · obtain ⟨-, -, htwoway⟩ := helects
    obtain ⟨nbr', sent, hset, hstate, hlsrs⟩ := iface.setState_exstart_of_ne
      { nbr with
        priority := h.payload 7
        dr := readU32 (h.payload.add 12)
        bdr := readU32 (h.payload.add 16) } (by rw [htwoway]; simp) 1
    exact ⟨nbr', sent, hset, Or.inr ⟨hmulti, htwoway, hstate, hlsrs⟩⟩
  · exact ⟨_, _, rfl, Or.inl ⟨rfl, rfl⟩⟩
  · exact ⟨_, _, rfl, Or.inl ⟨rfl, rfl⟩⟩

/-- The neighbour is on its way to EXSTART without having listed this router: it is there already,
    or in INIT where the list is not looked at. -/
def Unheard (nbr : Neighbor) : Prop :=
  NeighborState.EXSTART.rank ≤ nbr.state.rank ∨ nbr.state = .INIT ∧ iface.multiAccess = false

theorem processNeighborList_spec (nbr : Neighbor) (h : Hello) :
    ∃ nbr' sent, iface.processNeighborList nbr h = some (nbr', sent) ∧
      (Same nbr nbr' ∨ nbr'.state.rank ≤ NeighborState.EXSTART.rank ∧
        (nbr'.lsrs = nbr.lsrs ∨ nbr'.lsrs = {})) ∧
      (NeighborState.EXSTART.rank ≤ nbr'.state.rank → iface.Unheard nbr ∨ iface.lists h) ∧
      (iface.Unheard nbr → NeighborState.EXSTART.rank ≤ nbr'.state.rank) := by
  rw [processNeighborList]
  split_ifs with hreturns hinit
  · -- the list is refused
    refine ⟨_, _, rfl, Or.inl ⟨rfl, rfl⟩, fun hhigh => Or.inl (Or.inl hhigh), fun hun => ?_⟩
    rcases hun with hhigh | ⟨-, hmulti⟩
    · exact hhigh
    · rw [hmulti] at hreturns
      exact absurd hreturns.1 Bool.false_ne_true
  · obtain ⟨nbr₁, sent₁, hset, hcases₁⟩ := iface.setState_twoway nbr
    obtain ⟨nbr₂, sent₂, hupdate, hcases₂⟩ := iface.updateNeighbor_spec nbr₁ h
    have hlisted : iface.multiAccess = true → iface.lists h = true := by
      intro hmulti
      by_contra hno
      exact hreturns ⟨hmulti, Or.inr (by simpa using hno)⟩
    have hheard : iface.Unheard nbr ∨ iface.lists h := by
      cases hmulti : iface.multiAccess with
      | true => exact Or.inr (hlisted hmulti)
      | false => exact Or.inl (Or.inr ⟨hinit, hmulti⟩)
    refine ⟨nbr₂, sent₁ ++ sent₂, by rw [hset]; show (iface.updateNeighbor nbr₁ h).bind _ = _; rw [hupdate]; rfl,
      Or.inr ?_, fun _ => hheard, fun hun => ?_⟩
    · rcases hcases₂ with ⟨hstate, hlsrs⟩ | ⟨-, -, hstate, hlsrs⟩
      · rw [hstate, hlsrs]
        rcases hcases₁ with ⟨-, hstate₁, hlsrs₁⟩ | ⟨hstate₁, hlsrs₁⟩
        · rw [hstate₁, hlsrs₁]
          exact ⟨by decide, Or.inl rfl⟩
        · rw [hstate₁, hlsrs₁]
          exact ⟨le_rfl, Or.inr rfl⟩
      · rw [hstate, hlsrs]
        exact ⟨le_rfl, Or.inr rfl⟩
    · -- nothing is looked at
      have hmulti : iface.multiAccess = false := by
        rcases hun with hhigh | ⟨-, hmulti⟩
        · rw [hinit] at hhigh
          exact absurd hhigh (by decide)
        · exact hmulti
      rcases hcases₁ with ⟨hmulti₁, -⟩ | ⟨hstate₁, -⟩
      · rw [hmulti] at hmulti₁
        cases hmulti₁
      · rcases hcases₂ with ⟨hstate, -⟩ | ⟨-, -, hstate, -⟩
        · rw [hstate, hstate₁]
        · rw [hstate]
  · obtain ⟨nbr₂, sent₂, hupdate, hcases₂⟩ := iface.updateNeighbor_spec nbr h
    rw [hupdate]
    refine ⟨nbr₂, sent₂, rfl, ?_, ?_, ?_⟩
    · rcases hcases₂ with hsame | ⟨-, -, hstate, hlsrs⟩
      · exact Or.inl hsame
      · exact Or.inr ⟨hstate ▸ le_rfl, Or.inr hlsrs⟩
    · intro hhigh
      rcases hcases₂ with ⟨hstate, -⟩ | ⟨hmulti, -⟩
      · exact Or.inl (Or.inl (hstate ▸ hhigh))
      · right
        by_contra hno
        exact hreturns ⟨hmulti, Or.inr (by simpa using hno)⟩
    · intro hun
      rcases hun with hhigh | ⟨hstate, -⟩
      · rcases hcases₂ with ⟨hstate, -⟩ | ⟨-, htwoway, -⟩
        · rw [hstate]
          exact hhigh
        · rw [htwoway] at hhigh
          exact absurd hhigh (by decide)
      · exact absurd hstate hinit

/-- How the neighbour comes from the one that was known: it keeps its state and its requests, or is
    in EXSTART or below, or is new. -/
def Follows (nbr : Option Neighbor) (nbr' : Neighbor) : Prop :=
  (∃ n, nbr = some n ∧ Same n nbr') ∨
  nbr'.state.rank ≤ NeighborState.EXSTART.rank ∧
    (nbr'.lsrs = {} ∨ ∃ n, nbr = some n ∧ nbr'.lsrs = n.lsrs) ∨
  nbr = none ∧ nbr'.lsrs = {}

theorem Follows.of_some {n nbr' : Neighbor} (h : Same n nbr') : Follows (some n) nbr' :=
  Or.inl ⟨n, rfl, h⟩

theorem Follows.low {nbr : Option Neighbor} {nbr' : Neighbor}
    (hrank : nbr'.state.rank ≤ NeighborState.EXSTART.rank) (hlsrs : nbr'.lsrs = {}) :
    Follows nbr nbr' := Or.inr (Or.inl ⟨hrank, Or.inl hlsrs⟩)

theorem Follows.trans {nbr : Option Neighbor} {m nbr' : Neighbor} (h : Follows nbr m)
    (hm : Same m nbr' ∨ nbr'.state.rank ≤ NeighborState.EXSTART.rank ∧
      (nbr'.lsrs = m.lsrs ∨ nbr'.lsrs = {})) : Follows nbr nbr' := by
  rcases hm with ⟨hstate, hlsrs⟩ | ⟨hrank, hlsrs | hlsrs⟩
  · rw [Follows, hstate, hlsrs]
    rcases h with ⟨n, hn, hsame⟩ | h | h
    · exact Or.inl ⟨n, hn, hstate.trans hsame.1, hlsrs.trans hsame.2⟩
    · exact Or.inr (Or.inl h)
    · exact Or.inr (Or.inr h)
  · refine Or.inr (Or.inl ⟨hrank, ?_⟩)
    rw [hlsrs]
    rcases h with ⟨n, hn, -, hsame⟩ | ⟨-, h⟩ | ⟨-, h⟩
    · exact Or.inr ⟨n, hn, hsame⟩
    · exact h
    · exact Or.inl h
  · exact Follows.low hrank hlsrs

theorem helloNeighbor_follows (nbr : Option Neighbor) (h : Hello) :
    Follows nbr (iface.helloNeighbor rid nbr h) := by
  cases nbr with
  | none => exact Or.inr (Or.inr ⟨rfl, rfl⟩)
  | some n =>
    simp only [helloNeighbor]
    split_ifs
    · exact Or.inr (Or.inl ⟨by simp [NeighborState.rank], Or.inr ⟨n, rfl, rfl⟩⟩)
    · exact Follows.of_some ⟨rfl, rfl⟩

/-- **A Hello** returns.  It leaves the neighbour above INIT only if the Hello was processed, and the
    neighbour was there already or has listed this router. -/
theorem processHello_spec (nbr : Option Neighbor) (h : Hello) :
    ∃ nbr' sent, iface.processHello rid nbr h = some (nbr', sent) ∧
      (∀ n', nbr' = some n' → Follows nbr n' ∧
        (NeighborState.EXSTART.rank ≤ n'.state.rank →
          (∃ n, nbr = some n ∧ NeighborState.EXSTART.rank ≤ n.state.rank) ∨
          iface.accepts rid nbr h ∧
            (iface.Unheard (iface.helloNeighbor rid nbr h) ∨ iface.lists h))) ∧
      (iface.accepts rid nbr h → iface.Unheard (iface.helloNeighbor rid nbr h) →
        ∃ n', nbr' = some n' ∧ NeighborState.EXSTART.rank ≤ n'.state.rank) := by
  have hdown (m : Neighbor) : iface.setState 2 m .DOWN =
      some ({ m with lsrs := m.lsrs.clear, state := .DOWN }, []) := rfl
  have hlow : ¬ NeighborState.EXSTART.rank ≤ NeighborState.DOWN.rank := by decide
  rw [processHello.eq_def]
  dsimp only
  split_ifs with hsize htimers hoptions
  · refine ⟨_, _, rfl, fun n' hn' => ⟨?_, fun hhigh => Or.inl ⟨n', hn', hhigh⟩⟩, fun haccepts => ?_⟩
    · rw [hn']
      exact Follows.of_some ⟨rfl, rfl⟩
    · simp only [accepts, decide_eq_true_eq] at haccepts
      omega
  · have hrefused : iface.accepts rid nbr h = true → False := by
      simp only [accepts, decide_eq_true_eq]
      rintro ⟨-, hmatch, -⟩
      simp [hmatch] at htimers
    cases nbr with
    | none => exact ⟨_, _, rfl, fun n' hn' => (by cases hn'), fun haccepts => (hrefused haccepts).elim⟩
    | some n =>
      dsimp only
      rw [hdown]
      refine ⟨_, _, rfl, fun n' hn' => ?_, fun haccepts => (hrefused haccepts).elim⟩
      cases hn'
      exact ⟨Follows.low (Nat.zero_le _) rfl, fun hhigh => absurd hhigh hlow⟩
  · have hrefused : iface.accepts rid nbr h = true → False := by
      simp only [accepts, decide_eq_true_eq]
      rintro ⟨-, -, hfull | hopts⟩
      · exact hoptions.1 hfull
      · simp [hopts] at hoptions
    rw [hdown]
    refine ⟨_, _, rfl, fun n' hn' => ?_, fun haccepts => (hrefused haccepts).elim⟩
    cases hn'
    exact ⟨Follows.low (Nat.zero_le _) rfl, fun hhigh => absurd hhigh hlow⟩
  · have haccepts : iface.accepts rid nbr h = true := by
      simp only [accepts, decide_eq_true_eq]
      refine ⟨Nat.not_lt.1 hsize, by simpa using htimers, ?_⟩
      rw [not_and_or, not_not] at hoptions
      exact hoptions.imp_right fun hopts => by simpa using hopts
    obtain ⟨n', sent, hlist, hfollows, hup, hdown'⟩ :=
      iface.processNeighborList_spec (iface.helloNeighbor rid nbr h) h
    rw [hlist]
    refine ⟨_, _, rfl, fun n'' hn'' => ?_, fun _ hun => ⟨n', rfl, hdown' hun⟩⟩
    cases hn''
    exact ⟨(iface.helloNeighbor_follows rid nbr h).trans hfollows,
      fun hhigh => Or.inr ⟨haccepts, hup hhigh⟩⟩

/-! ## What a database description does -/

theorem setState_exchange (nbr : Neighbor) (fuel : ℕ) :
    ∃ nbr' sent, iface.setState (fuel + 1) nbr .EXCHANGE = some (nbr', sent) ∧
      nbr'.lsrs = nbr.lsrs ∧
      (nbr.state = .EXSTART ∧ nbr'.state = .EXCHANGE ∨
        nbr.state ≠ .EXSTART ∧ nbr'.state = nbr.state) := by
  rw [setState]
  dsimp only
  split_ifs with hstate hmaster
  · exact ⟨_, _, rfl, iface.sendDBD_lsrs { nbr with state := .EXCHANGE, currentDbd := some noKey },
      Or.inl ⟨hstate, iface.sendDBD_state { nbr with state := .EXCHANGE, currentDbd := some noKey }⟩⟩
  · exact ⟨_, _, rfl, rfl, Or.inl ⟨hstate, rfl⟩⟩
  · exact ⟨_, _, rfl, rfl, Or.inr ⟨hstate, rfl⟩⟩

/-- What a description that does not end the exchange leaves. -/
inductive DbdResult (nbr : Neighbor) (requests : List LsaKey) (out : DbdOutcome) : Prop where
  | same (restarted : out.restarted = false) (requested : out.requested = [])
      (same : Same nbr out.nbr)
  | low (requested : out.requested = []) (state : out.nbr.state.rank ≤ NeighborState.EXSTART.rank)
      (lsrs : out.nbr.lsrs = {})
  | exchange (restarted : out.restarted ∨ nbr.state = .EXSTART) (requested : out.requested = [])
      (state : out.nbr.state = .EXCHANGE) (lsrs : out.nbr.lsrs = nbr.lsrs ∨ out.nbr.lsrs = {})
  | request (restarted : out.restarted = false) (requested : out.requested = requests)
      (state : nbr.state = .EXCHANGE) (state' : out.nbr.state = .EXCHANGE)
      (lsrs : out.nbr.lsrs = (requests.foldl Neighbor.addRequest nbr).lsrs)

theorem processInit_spec (nbr : Neighbor) (payloadSize : ℕ) (sequence : UInt32)
    (requests : List LsaKey) :
    ∃ out, iface.processInit 2 nbr payloadSize sequence = some out ∧ out.ended = false ∧
      DbdResult nbr requests out := by
  rw [processInit]
  dsimp only
  split_ifs with hsize hless hstate hack hack
  · exact ⟨_, rfl, rfl, .same rfl rfl ⟨rfl, rfl⟩⟩
  · obtain ⟨nbr₁, sent₁, hset₁, hstate₁, hlsrs₁⟩ :=
      iface.setState_exstart_of_ne { nbr with role := .MASTER } hstate 1
    obtain ⟨nbr₂, sent₂, hset₂, hlsrs₂, hcases⟩ := iface.setState_exchange nbr₁ 1
    refine ⟨outcome sent₁ true (nbr₂, sent₂), ?_, rfl, ?_⟩
    · rw [hset₁]
      show Option.map _ (iface.setState 2 nbr₁ .EXCHANGE) = _
      rw [hset₂]
      rfl
    · rcases hcases with ⟨-, hstate₂⟩ | ⟨hne, -⟩
      · exact .exchange (Or.inl rfl) rfl hstate₂ (Or.inr (hlsrs₂.trans hlsrs₁))
      · exact absurd hstate₁ hne
  · obtain ⟨nbr₁, sent₁, hset₁, hstate₁, hlsrs₁⟩ :=
      iface.setState_exstart_of_ne { nbr with role := .MASTER } hstate 1
    rw [hset₁]
    exact ⟨_, rfl, rfl, .low rfl (congrArg NeighborState.rank hstate₁).le hlsrs₁⟩
  · obtain ⟨nbr₂, sent₂, hset₂, hlsrs₂, hcases⟩ :=
      iface.setState_exchange { nbr with role := .MASTER } 1
    rw [hset₂]
    refine ⟨_, rfl, rfl, ?_⟩
    rcases hcases with ⟨hexstart, hstate₂⟩ | ⟨hne, hstate₂⟩
    · exact .exchange (Or.inr hexstart) rfl hstate₂ (Or.inl hlsrs₂)
    · exact .same rfl rfl ⟨hstate₂, hlsrs₂⟩
  · exact ⟨_, rfl, rfl, .same rfl rfl ⟨rfl, rfl⟩⟩
  · obtain ⟨nbr₂, sent₂, hset₂, hlsrs₂, hcases⟩ :=
      iface.setState_exchange { nbr with role := .SLAVE, currentSeq := sequence } 1
    rw [hset₂]
    refine ⟨_, rfl, rfl, ?_⟩
    rcases hcases with ⟨hexstart, hstate₂⟩ | ⟨hne, hstate₂⟩
    · exact .exchange (Or.inr hexstart) rfl hstate₂ (Or.inl hlsrs₂)
    · exact .same rfl rfl ⟨hstate₂, hlsrs₂⟩

open Adjacency in
theorem processDBD_spec {nbr : Neighbor} {payloadSize : ℕ} {payload : BytePtr}
    (h : ¬ EndsExchange iface nbr payloadSize payload) :
    ∃ out, iface.processDBD 2 nbr payloadSize payload = some out ∧ out.ended = false ∧
      DbdResult nbr (iface.requests payloadSize payload) out ∧
      (out.nbr = nbr ∨ NeighborState.EXSTART.rank ≤ nbr.state.rank) := by
  rw [processDBD]
  split_ifs with hfits hrefused hinit hexchange
  · exact ⟨_, rfl, rfl, .same rfl rfl ⟨rfl, rfl⟩, Or.inl rfl⟩
  all_goals
    rw [Bool.not_eq_true', Bool.not_eq_false, dbdFits, decide_eq_true_eq] at hfits
  · exact ⟨_, rfl, rfl, .low rfl (Nat.zero_le _) rfl, Or.inr hfits.1⟩
  · obtain ⟨out, hout, hended, hresult⟩ := iface.processInit_spec nbr payloadSize
      (readU32 (payload.add 4)) (iface.requests payloadSize payload)
    exact ⟨out, hout, hended, hresult, Or.inr hfits.1⟩
  · rw [processDescriptions]
    dsimp only
    obtain ⟨hoptions, hmtu⟩ := not_or.1 hrefused
    have hmore : nbr.currentDbd.isSome ∨ payload 3 &&& 0x02 ≠ 0 ∨ nbr.role = .SLAVE := by
      by_contra hlast
      exact h ⟨by simpa [dbdFits] using hfits, by simpa using hoptions, hmtu, not_not.1 hinit,
        hexchange, hlast⟩
    obtain ⟨hstate, hdbd, hrole⟩ :=
      Neighbor.foldl_addRequest_fields (iface.requests payloadSize payload) nbr
    rw [hdbd, hrole, if_pos hmore]
    exact ⟨_, rfl, rfl, .request rfl rfl hexchange
      ((iface.sendDBD_state _).trans (hstate.trans hexchange)) (iface.sendDBD_lsrs _), Or.inr hfits.1⟩
  · exact ⟨_, rfl, rfl, .same rfl rfl ⟨rfl, rfl⟩, Or.inl rfl⟩

open Adjacency in
theorem processDBD_ends {nbr : Neighbor} {payloadSize : ℕ} {payload : BytePtr}
    (h : EndsExchange iface nbr payloadSize payload) (fuel : ℕ) :
    iface.processDBD fuel nbr payloadSize payload =
      (iface.setState fuel ((iface.requests payloadSize payload).foldl Neighbor.addRequest nbr)
        .LOADING).map fun r =>
          { outcome [] false r with
            requested := iface.requests payloadSize payload
            ended := true } := by
  obtain ⟨hfits, hoptions, hmtu, hinit, hstate, hlast⟩ := h
  obtain ⟨-, hdbd, hrole⟩ :=
    Neighbor.foldl_addRequest_fields (iface.requests payloadSize payload) nbr
  rw [processDBD, if_neg (by simp [hfits]), if_neg (by simp only [hoptions]; simpa using hmtu),
    if_neg (not_not.2 hinit), if_pos hstate, processDescriptions]
  dsimp only
  rw [hdbd, hrole, if_neg hlast]

end OspfInterface

/-! ## Invariant -/

namespace Adjacency

variable {Body : Type} {iface : OspfInterface Body} {rid : UInt32} {s : Adjacency}

structure Exchanging (s : Adjacency) (nbr : Neighbor) : Prop where
  active : s.missing ≠ [] → nbr.active
  ended : s.ended → s.missing ≠ [] ∧ nbr.state = .LOADING

/-- Invariant of the runs that keep to `Allowed`. -/
structure Inv (s : Adjacency) : Prop where
  returns : s.hung = false
  idle : ∀ nbr, s.nbr = some nbr → Idle nbr.lsrs
  heard : ∀ nbr, s.nbr = some nbr → NeighborState.EXSTART.rank ≤ nbr.state.rank → s.heard
  exchange : ∀ nbr, s.nbr = some nbr → Exchanging s nbr
  past : exchanging s.nbr = false → s.missing = [] ∧ s.ended = false

theorem exchanging_some (nbr : Neighbor) :
    exchanging (some nbr) = decide (NeighborState.EXCHANGE.rank ≤ nbr.state.rank) := rfl

theorem settle_nbr (s : Adjacency) : (settle s).nbr = s.nbr := by
  rw [settle]
  split_ifs <;> rfl

theorem settle_heard (s : Adjacency) : (settle s).heard = s.heard := by
  rw [settle]
  split_ifs <;> rfl

theorem settle_hung (s : Adjacency) : (settle s).hung = s.hung := by
  rw [settle]
  split_ifs <;> rfl

/-- What is left of an exchange that is over need not be looked at. -/
theorem Inv.settle (hreturns : s.hung = false) (hidle : ∀ nbr, s.nbr = some nbr → Idle nbr.lsrs)
    (hheard : ∀ nbr, s.nbr = some nbr → NeighborState.EXSTART.rank ≤ nbr.state.rank → s.heard)
    (hexch : ∀ nbr, s.nbr = some nbr → NeighborState.EXCHANGE.rank ≤ nbr.state.rank →
      Exchanging s nbr) : Inv s.settle where
  returns := (settle_hung s).trans hreturns
  idle nbr hnbr := hidle nbr ((settle_nbr s).symm.trans hnbr)
  heard nbr hnbr hhigh := (settle_heard s).trans (hheard nbr ((settle_nbr s).symm.trans hnbr) hhigh)
  exchange nbr hnbr := by
    rw [settle_nbr] at hnbr
    rw [Adjacency.settle]
    split_ifs with hover
    · rw [hnbr, exchanging_some, decide_eq_true_eq] at hover
      exact hexch nbr hnbr hover
    · exact ⟨fun h => absurd rfl h, nofun⟩
  past hover := by
    rw [settle_nbr] at hover
    rw [Adjacency.settle, hover]
    exact ⟨rfl, rfl⟩

theorem Inv.init : Inv {} where
  returns := rfl
  idle nbr h := by cases h
  heard nbr h := by cases h
  exchange nbr h := by cases h
  past _ := ⟨rfl, rfl⟩

/-- The invariant is what is to hold, and more. -/
theorem Inv.sane (h : Inv s) : Sane s where
  returns := h.returns
  full hended hmissing := by
    have hexch : Adjacency.exchanging s.nbr = true := by
      by_contra hover
      rw [(h.past (by simpa using hover)).2] at hended
      cases hended
    cases hnbr : s.nbr with
    | none =>
      rw [hnbr] at hexch
      cases hexch
    | some nbr => exact absurd hmissing ((h.exchange nbr hnbr).ended hended).1
  heard := h.heard

/-- The neighbour goes to EXSTART or below, and loses or keeps its requests. -/
theorem Inv.low (h : Inv s) {nbr nbr' : Neighbor} (hnbr : s.nbr = some nbr)
    (hrank : nbr'.state.rank ≤ NeighborState.EXSTART.rank)
    (hlsrs : nbr'.lsrs = nbr.lsrs ∨ nbr'.lsrs = {})
    (hheard : NeighborState.EXSTART.rank ≤ nbr'.state.rank → s.heard) :
    Inv { s with nbr := some nbr' }.settle := by
  refine Inv.settle h.returns ?_ ?_ ?_
  · rintro _ ⟨⟩
    rcases hlsrs with hlsrs | hlsrs
    · rw [hlsrs]
      exact h.idle nbr hnbr
    · rw [hlsrs]
      exact idle_nil
  · rintro _ ⟨⟩
    exact hheard
  · rintro _ ⟨⟩ hexch
    exact absurd (hexch.trans hrank) (by decide)

theorem Inv.setState (h : Inv s) {nbr nbr' : Neighbor} {state : NeighborState}
    {sent : List OspfPacket} (hnbr : s.nbr = some nbr)
    (hset : iface.setState 2 nbr state = some (nbr', sent))
    (hrank : nbr'.state.rank ≤ NeighborState.EXSTART.rank)
    (hheard : NeighborState.EXSTART.rank ≤ nbr'.state.rank → s.heard) :
    Inv (setState iface s nbr state).settle := by
  have hlsrs := (iface.setState_spec hset).1
  rw [Adjacency.setState, hset]
  exact h.low hnbr hrank (hlsrs.imp_right And.right) hheard

/-- **A Hello** keeps the invariant, if it does not find an adjacency that was not heard of. -/
theorem Inv.hello (h : Inv s) {e : Hello} (hallowed : Allowed iface rid s (.hello e)) :
    Inv (hello iface rid s e).settle := by
  obtain ⟨nbr', sent, hprocess, hfollows, -⟩ := iface.processHello_spec rid s.nbr e
  rw [Adjacency.hello, hprocess]
  refine Inv.settle h.returns ?_ ?_ ?_
  · intro n' hn'
    rcases (hfollows n' hn').1 with ⟨n, hn, hsame⟩ | ⟨-, hlsrs | ⟨n, hn, hlsrs⟩⟩ | ⟨-, hlsrs⟩
    · rw [hsame.2]
      exact h.idle n hn
    · rw [hlsrs]
      exact idle_nil
    · rw [hlsrs]
      exact h.idle n hn
    · rw [hlsrs]
      exact idle_nil
  · intro n' hn' hhigh
    show (s.heard || iface.accepts rid s.nbr e && iface.lists e) = true
    rw [Bool.or_eq_true, Bool.and_eq_true]
    rcases (hfollows n' hn').2 hhigh with ⟨n, hn, hhigh'⟩ | ⟨haccepts, hun | hlists⟩
    · exact Or.inl (h.heard n hn hhigh')
    · exact (hallowed haccepts hun).imp_right fun hlists => ⟨haccepts, hlists⟩
    · exact Or.inr ⟨haccepts, hlists⟩
  · intro n' hn' hexch
    rcases (hfollows n' hn').1 with ⟨n, hn, hstate, hlsrs⟩ | ⟨hrank, -⟩ | ⟨hnone, -⟩
    · obtain ⟨hactive, hended⟩ := h.exchange n hn
      refine ⟨fun hmissing => ?_, fun hend => ?_⟩
      · rw [Neighbor.active, hlsrs]
        exact hactive hmissing
      · exact ⟨(hended hend).1, hstate.trans (hended hend).2⟩
    · exact absurd (hexch.trans hrank) (by decide)
    · obtain ⟨hmissing, hend⟩ := h.past (by rw [hnone]; rfl)
      exact ⟨fun hne => absurd hmissing hne, fun hend' => by rw [show s.ended = true from hend'] at hend; cases hend⟩

theorem Inv.dbd_continues (h : Inv s) {nbr : Neighbor} (hnbr : s.nbr = some nbr)
    {payloadSize : ℕ} {payload : BytePtr} (hends : ¬ EndsExchange iface nbr payloadSize payload) :
    Inv (dbd iface s nbr payloadSize payload).settle := by
  obtain ⟨out, hout, hended, hresult, hhigh⟩ := iface.processDBD_spec hends
  have hheard : NeighborState.EXSTART.rank ≤ out.nbr.state.rank → s.heard = true := by
    intro hrank
    rcases hhigh with heq | hhigh
    · exact h.heard nbr hnbr (heq ▸ hrank)
    · exact h.heard nbr hnbr hhigh
  have hidle := h.idle nbr hnbr
  have hbefore := h.exchange nbr hnbr
  have hkeys := Neighbor.foldl_addRequest (iface.requests payloadSize payload) hidle
  rw [Adjacency.dbd, hout]
  dsimp only
  refine Inv.settle h.returns ?_ ?_ ?_
  · rintro _ ⟨⟩
    cases hresult with
    | same _ _ hsame => exact hsame.2 ▸ hidle
    | low _ _ hlsrs => exact hlsrs ▸ idle_nil
    | exchange _ _ _ hlsrs =>
      rcases hlsrs with hlsrs | hlsrs
      · exact hlsrs ▸ hidle
      · exact hlsrs ▸ idle_nil
    | request _ _ _ _ hlsrs => exact hlsrs ▸ hkeys.1
  · rintro _ ⟨⟩
    exact hheard
  · rintro _ ⟨⟩ hexch
    cases hresult with
    | same hrestarted hrequested hsame =>
      rw [hrestarted, hrequested, hended]
      refine ⟨fun hmissing => ?_, fun hend => ?_⟩
      · rw [Neighbor.active, hsame.2]
        exact hbefore.active (by simpa using hmissing)
      · have := hbefore.ended (by simpa using hend)
        exact ⟨by simpa using this.1, hsame.1.trans this.2⟩
    | low _ hrank _ => exact absurd (hexch.trans hrank) (by decide)
    | exchange hrestarted hrequested hstate _ =>
      have hover : (if out.restarted then [] else s.missing) = [] ∧
          (!out.restarted && s.ended) = false := by
        rcases hrestarted with hrestarted | hstate
        · rw [hrestarted]
          exact ⟨rfl, rfl⟩
        · have hpast := h.past (by rw [hnbr, exchanging_some, hstate]; rfl)
          rw [hpast.1, hpast.2]
          exact ⟨ite_self _, Bool.and_false _⟩
      rw [hrequested, hended, hover.1, hover.2]
      exact ⟨fun hne => absurd rfl hne, nofun⟩
    | request hrestarted hrequested hstate hstate' hlsrs =>
      have hnot : s.ended = false := by
        by_contra hend
        have := (hbefore.ended (by simpa using hend)).2
        rw [hstate] at this
        cases this
      rw [hrestarted, hrequested, hended, hnot]
      refine ⟨fun hmissing => ?_, nofun⟩
      rw [Neighbor.active, hlsrs]
      rcases hkeys.2 with ⟨hnone, hsame⟩ | ⟨-, hactive⟩
      · rw [hsame]
        refine hbefore.active ?_
        rw [hnone] at hmissing
        simpa using hmissing
      · exact hactive

def lastRequests (iface : OspfInterface Body) (nbr : Neighbor) (payloadSize : ℕ)
    (payload : BytePtr) : Neighbor :=
  (iface.requests payloadSize payload).foldl Neighbor.addRequest nbr

/-- A description ends the exchange: with an active list, the neighbour is in LOADING; else the call
    does not return. -/
theorem dbd_ends {nbr : Neighbor} {payloadSize : ℕ} {payload : BytePtr}
    (hends : EndsExchange iface nbr payloadSize payload) :
    dbd iface s nbr payloadSize payload =
      if (lastRequests iface nbr payloadSize payload).active then
        { s with
          nbr := some { lastRequests iface nbr payloadSize payload with state := .LOADING }
          missing := s.missing ++ iface.requests payloadSize payload
          ended := true }
      else { s with hung := true } := by
  have hstate : (lastRequests iface nbr payloadSize payload).state = .EXCHANGE :=
    (Neighbor.foldl_addRequest_fields _ nbr).1.trans hends.2.2.2.2.1
  rw [dbd, iface.processDBD_ends hends, ← lastRequests]
  split_ifs with hactive
  · rw [OspfInterface.setState]
    simp only [hstate, hactive]
    simp [OspfInterface.outcome]
  · rw [iface.setState_loops ⟨hstate, rfl, by simpa using hactive⟩ 2]
    rfl

theorem Inv.lastRequests_active (h : Inv s) {nbr : Neighbor} (hnbr : s.nbr = some nbr)
    {payloadSize : ℕ} {payload : BytePtr}
    (hmissing : s.missing ≠ [] ∨ iface.requests payloadSize payload ≠ []) :
    (lastRequests iface nbr payloadSize payload).active := by
  rw [lastRequests]
  rcases (Neighbor.foldl_addRequest (iface.requests payloadSize payload) (h.idle nbr hnbr)).2 with
    ⟨hnone, hsame⟩ | ⟨-, hactive⟩
  · rw [Neighbor.active, hsame]
    exact (h.exchange nbr hnbr).active (hmissing.resolve_right (not_not.2 hnone))
  · exact hactive

/-- **A database description** keeps the invariant, if it does not end an exchange that is complete. -/
theorem Inv.dbd (h : Inv s) {nbr : Neighbor} (hnbr : s.nbr = some nbr) {payloadSize : ℕ}
    {payload : BytePtr} (hallowed : Allowed iface rid s (.dbd payloadSize payload)) :
    Inv (dbd iface s nbr payloadSize payload).settle := by
  by_cases hends : EndsExchange iface nbr payloadSize payload
  · have hmissing := hallowed nbr hnbr hends
    rw [dbd_ends hends, if_pos (h.lastRequests_active hnbr hmissing)]
    refine Inv.settle h.returns ?_ ?_ ?_
    · rintro _ ⟨⟩
      exact (Neighbor.foldl_addRequest _ (h.idle nbr hnbr)).1
    · rintro _ ⟨⟩ -
      refine h.heard nbr hnbr ?_
      rw [hends.2.2.2.2.1]
      decide
    · rintro _ ⟨⟩ -
      refine ⟨fun _ => h.lastRequests_active hnbr hmissing, fun _ => ⟨?_, rfl⟩⟩
      show s.missing ++ iface.requests payloadSize payload ≠ []
      rw [Ne, List.append_eq_nil_iff, not_and_or]
      exact hmissing
  · exact h.dbd_continues hnbr hends

theorem Inv.less (h : Inv s) {missing : List LsaKey} (hsub : missing ⊆ s.missing)
    (hended : s.ended → missing ≠ []) : Inv { s with missing }.settle := by
  refine Inv.settle h.returns h.idle h.heard fun nbr hnbr _ => ?_
  obtain ⟨hactive, hend⟩ := h.exchange nbr hnbr
  refine ⟨fun hne => hactive fun hnil => hne ?_, fun he => ⟨hended he, (hend he).2⟩⟩
  exact List.subset_nil.1 (hnil ▸ hsub)

/-- **An update** keeps the invariant, if it does not bring the last LSA that is missing. -/
theorem Inv.lsu (h : Inv s) {nbr : Neighbor} {payloadSize : ℕ} {payload : BytePtr}
    (hallowed : Allowed iface rid s (.lsu payloadSize payload)) :
    Inv (lsu iface s nbr payloadSize payload).settle := by
  rw [Adjacency.lsu]
  split_ifs
  · refine h.less (List.Subset.refl _) fun hended => ?_
    obtain ⟨key, hkey, -⟩ := hallowed hended
    exact List.ne_nil_of_mem hkey
  · refine h.less (List.filter_subset_self _) fun hended => ?_
    obtain ⟨key, hkey, hnew⟩ := hallowed hended
    exact List.ne_nil_of_mem (List.mem_filter.2 ⟨hkey, by simpa using hnew⟩)

theorem Inv.idleStep (h : Inv s) : Inv s.settle :=
  Inv.settle h.returns h.idle h.heard fun nbr hnbr _ => h.exchange nbr hnbr

/-- **Every event** that is allowed keeps the invariant. -/
theorem Inv.step (h : Inv s) {e : Event} (hallowed : Allowed iface rid s e) :
    Inv (step iface rid s e) := by
  rw [Adjacency.step.eq_def, if_neg (Bool.eq_false_iff.1 h.returns)]
  cases e with
  | hello e => exact h.hello hallowed
  | dbd payloadSize payload =>
    cases hnbr : s.nbr with
    | none => exact h.idleStep
    | some nbr => exact h.dbd hnbr hallowed
  | lsu payloadSize payload =>
    cases hnbr : s.nbr with
    | none => exact h.idleStep
    | some nbr => exact h.lsu hallowed
  | elected =>
    cases hnbr : s.nbr with
    | none => exact h.idleStep
    | some nbr =>
      dsimp only
      split_ifs with htwoway
      · have hne : nbr.state ≠ .EXSTART := by
          rw [htwoway]
          simp
        obtain ⟨nbr', sent, hset, hstate, -⟩ := iface.setState_exstart_of_ne nbr hne 1
        exact h.setState hnbr hset (congrArg NeighborState.rank hstate).le
          fun _ => hallowed nbr hnbr htwoway
      · exact h.idleStep
  | down =>
    cases hnbr : s.nbr with
    | none => exact h.idleStep
    | some nbr =>
      have hset : iface.setState 2 nbr .DOWN =
          some ({ nbr with lsrs := nbr.lsrs.clear, state := .DOWN }, []) := rfl
      have hlow : ¬ NeighborState.EXSTART.rank ≤ NeighborState.DOWN.rank := by decide
      exact h.setState hnbr hset (Nat.zero_le _) fun hhigh => absurd hhigh hlow
  | delete =>
    cases hnbr : s.nbr with
    | none => exact h.idleStep
    | some nbr =>
      show Inv (Adjacency.settle { s with nbr := none })
      exact Inv.settle h.returns (by rintro _ ⟨⟩) (by rintro _ ⟨⟩) (by rintro _ ⟨⟩)

/-! ## The missing edges -/

theorem not_sane_of_unheard {nbr : Neighbor} (hnbr : s.nbr = some nbr)
    (hhigh : NeighborState.EXSTART.rank ≤ nbr.state.rank) (hheard : s.heard = false) :
    ¬ Sane s.settle := by
  intro hsane
  have := hsane.heard nbr ((settle_nbr s).trans hnbr) hhigh
  rw [settle_heard, hheard] at this
  cases this

theorem not_sane_of_loading {nbr : Neighbor} (hnbr : s.nbr = some nbr)
    (hstate : nbr.state = .LOADING) (hended : s.ended) (hmissing : s.missing = []) :
    ¬ Sane s.settle := by
  have hexch : exchanging s.nbr = true := by
    rw [hnbr, exchanging_some, hstate]
    rfl
  rw [settle, if_pos hexch]
  intro hsane
  obtain ⟨nbr', hnbr', hfull⟩ := hsane.full hended hmissing
  rw [hnbr] at hnbr'
  cases hnbr'
  rw [hstate] at hfull
  cases hfull

/-- **An event that is not allowed** breaks what is to hold. -/
theorem not_sane_of_not_allowed (h : Inv s) {e : Event} (hbad : ¬ Allowed iface rid s e) :
    ¬ Sane (step iface rid s e) := by
  rw [step.eq_def, if_neg (Bool.eq_false_iff.1 h.returns)]
  cases e with
  | hello e =>
    simp only [Allowed, Classical.not_imp, not_or, Bool.not_eq_true] at hbad
    obtain ⟨haccepts, hun, hheard, hlists⟩ := hbad
    obtain ⟨nbr', sent, hprocess, -, hup⟩ := iface.processHello_spec rid s.nbr e
    obtain ⟨n', rfl, hhigh⟩ := hup haccepts hun
    show ¬ Sane (hello iface rid s e).settle
    rw [hello, hprocess]
    refine not_sane_of_unheard rfl hhigh ?_
    show (s.heard || iface.accepts rid s.nbr e && iface.lists e) = false
    rw [hheard, hlists, Bool.and_false, Bool.or_false]
  | dbd payloadSize payload =>
    simp only [Allowed, Classical.not_forall, not_or, not_not] at hbad
    obtain ⟨nbr, hnbr, hends, hmissing, hrequests⟩ := hbad
    rw [hnbr]
    show ¬ Sane (dbd iface s nbr payloadSize payload).settle
    rw [dbd_ends hends]
    split_ifs
    · refine not_sane_of_loading rfl rfl rfl ?_
      show s.missing ++ iface.requests payloadSize payload = []
      rw [hmissing, hrequests, List.append_nil]
    · intro hsane
      have := (settle_hung _).symm.trans hsane.returns
      cases this
  | lsu payloadSize payload =>
    simp only [Allowed, Classical.not_imp, not_exists, not_and, not_not] at hbad
    obtain ⟨hended, hreceived⟩ := hbad
    cases hnbr : s.nbr with
    | none =>
      rw [(h.past (by rw [hnbr]; rfl)).2] at hended
      cases hended
    | some nbr =>
      have hloading := ((h.exchange nbr hnbr).ended hended).2
      show ¬ Sane (lsu iface s nbr payloadSize payload).settle
      rw [lsu, if_neg (by rw [hloading]; decide)]
      refine not_sane_of_loading hnbr hloading hended ?_
      rw [List.filter_eq_nil_iff]
      exact fun key hkey => by simpa using hreceived key hkey
  | elected =>
    simp only [Allowed, Classical.not_forall, Bool.not_eq_true] at hbad
    obtain ⟨nbr, hnbr, htwoway, hheard⟩ := hbad
    have hne : nbr.state ≠ .EXSTART := by
      rw [htwoway]
      simp
    obtain ⟨nbr', sent, hset, hstate, -⟩ := iface.setState_exstart_of_ne nbr hne 1
    rw [hnbr]
    show ¬ Sane (settle (if nbr.state = .TWOWAY then setState iface s nbr .EXSTART else s))
    rw [if_pos htwoway, setState, hset]
    exact not_sane_of_unheard rfl (congrArg NeighborState.rank hstate).ge hheard
  | down => exact absurd trivial hbad
  | delete => exact absurd trivial hbad

/-- A Hello without neighbours, to this router alone; the memory of a new neighbour is zero. -/
def emptyHello : Hello where
  payloadSize := 20
  payload := ofList [0, 0, 0, 0, 0, 10, 0, 1, 0, 0, 0, 40]
  unicast := true
  memory := .DOWN
  sequence := 7
  dr := 0
  bdr := 0
  changes := false

/-- A description without entries, with the flags `flags` and the sequence number 7. -/
def emptyDescription (flags : UInt8) : Event := .dbd 8 (ofList [5, 220, 0, flags, 0, 0, 0, 7])

/-- The neighbour is found, and has nothing to describe. -/
def shortExchange : List Event :=
  [.hello emptyHello, .hello emptyHello, emptyDescription 7, emptyDescription 0]

end Adjacency

end VirtualRouter.Ospf
