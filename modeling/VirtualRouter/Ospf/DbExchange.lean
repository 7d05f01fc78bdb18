/-
  Two OSPF routers that describe their databases to each other.

  Each has its interface, and a neighbour for the other one; the packets that were
  sent stay on the link, and any of them is delivered any number of times, or never.

  * `DbExchange.step`: a router begins the exchange, or a packet is delivered;
  * `DbExchange.Lawful`: the roles that follow from the router ids, the sequence
    numbers, and the requests that are left in the end;
  * `DbExchange.exchange_lawful_iff`: when the law holds.

  The length of a description in its header counts the 24 bytes of the header, and
  its receiver takes it for the length of the payload, which is then no multiple of
  the entries: every description is dropped.
-/
import VirtualRouter.Lib.Run
import VirtualRouter.Ospf.Neighbor
import VirtualRouter.Ospf.RxV2Bounds

namespace VirtualRouter.Ospf

open Run Bytes Utils OspfInterface

/-- Two routers and the link between them; `nbr x` is what the router `x` knows of the other. -/
structure DbExchange where
  nbr : Bool → Neighbor
  sent : Bool → List OspfPacket := fun _ => []
  /-- An initial description of the other router reached `x` in EXSTART or above. -/
  offered : Bool → Bool := fun _ => false
  /-- A call of `x` did not return. -/
  hung : Bool → Bool := fun _ => false

namespace DbExchange

variable {Body : Type} (side : Bool → OspfInterface Body)

/-- What happens. -/
inductive Event where
  /-- The router begins the exchange. -/
  | start (x : Bool)
  /-- The packet `i` of the other router is delivered to `x`. -/
  | deliver (x : Bool) (i : ℕ)

def update (s : DbExchange) (x : Bool) (nbr : Neighbor) (sent : List OspfPacket) : DbExchange :=
  { s with
    nbr := Function.update s.nbr x nbr
    sent := Function.update s.sent x (s.sent x ++ sent) }

theorem update_nbr (s : DbExchange) (x y : Bool) (nbr : Neighbor) (sent : List OspfPacket) :
    (s.update x nbr sent).nbr y = if y = x then nbr else s.nbr y := Function.update_apply ..

theorem update_sent (s : DbExchange) (x y : Bool) (nbr : Neighbor) (sent : List OspfPacket) :
    (s.update x nbr sent).sent y = if y = x then s.sent x ++ sent else s.sent y :=
  Function.update_apply ..

/-- The packet is an initial description, and reaches `x` in EXSTART or above. -/
def Offers (s : DbExchange) (x : Bool) (pkt : OspfPacket) : Prop :=
  pkt.initial ∧ NeighborState.EXSTART.rank ≤ (s.nbr x).state.rank

instance (s : DbExchange) (x : Bool) (pkt : OspfPacket) : Decidable (Offers s x pkt) :=
  inferInstanceAs (Decidable (_ ∧ _))

def deliver (s : DbExchange) (x : Bool) (pkt : OspfPacket) : DbExchange :=
  let s' := match (side x).processDBD 2 (s.nbr x) pkt.packetLen.toNat pkt.payload with
    | none => { s with hung := Function.update s.hung x true }
    | some out => s.update x out.nbr out.sent
  if Offers s x pkt then { s' with offered := Function.update s.offered x true } else s'

def step (s : DbExchange) : Event → DbExchange
  | .start x => match (side x).setState 2 (s.nbr x) .EXSTART with
    | none => { s with hung := Function.update s.hung x true }
    | some (nbr, sent) => s.update x nbr sent
  | .deliver x i => match (s.sent !x)[i]? with
    | none => s
    | some pkt => deliver side s x pkt

/-! ## The law -/

/-- The role that follows from the router ids: the higher one is the master. -/
def roleOf (x : Bool) : Role := if (side !x).routerId < (side x).routerId then .MASTER else .SLAVE

/-- The sequence number of the description that comes next: the master has its own one echoed. -/
def nextSequence (nbr : Neighbor) : UInt32 :=
  if nbr.role = .MASTER then nbr.currentSeq else nbr.currentSeq + 1

/-- What holds of the two routers after an event. -/
structure Agreed (s : DbExchange) : Prop where
  /-- Once the other's initial description has come, the role is the right one. -/
  roles : ∀ x, s.offered x → (s.nbr x).role = roleOf side x
  /-- When both are done, the requests are what is missing or older. -/
  requests : (∀ x, NeighborState.EXCHANGE.rank < (s.nbr x).state.rank) → ∀ x key,
    key ∈ (s.nbr x).lsrs.outboundKeys ↔
      ∃ r, (side !x).db.find key = some r ∧ (side x).compareLSASummary r.header key

/-- A description that is not the next one adds no request and does not advance the exchange. -/
def InSequence (s : DbExchange) : Event → Prop
  | .start _ => True
  | .deliver x i => ∀ pkt, (s.sent !x)[i]? = some pkt → pkt.initial = false →
    readU32 (pkt.payload.add 4) ≠ nextSequence (s.nbr x) →
      ((step side s (.deliver x i)).nbr x).lsrs = (s.nbr x).lsrs ∧
      ((step side s (.deliver x i)).nbr x).currentDbd = (s.nbr x).currentDbd ∧
      ((step side s (.deliver x i)).nbr x).state = (s.nbr x).state

/-- **The law**, of one event. -/
structure Lawful (s : DbExchange) (e : Event) : Prop where
  inSequence : InSequence side s e
  agreed : Agreed side (step side s e)

/-- The event delivers no initial description to a router in EXSTART or above. -/
def OffersNothing (s : DbExchange) : Event → Prop
  | .start _ => True
  | .deliver x i => ∀ pkt, (s.sent !x)[i]? = some pkt → ¬ Offers s x pkt

/-! ## Descriptions that are dropped -/

variable {side} {s : DbExchange}

/-- A description as `sendInitDBD` sends it. -/
def IsInit (pkt : OspfPacket) : Prop := pkt.packetLen = 32 ∧ pkt.initial = true

theorem isInit_of_mem_sendInitDBD {iface : OspfInterface Body} {nbr : Neighbor} {pkt : OspfPacket}
    (h : pkt ∈ iface.sendInitDBD nbr) : IsInit pkt := by
  rw [sendInitDBD] at h
  split at h
  · cases h
  · rw [List.mem_singleton.1 h]
    exact ⟨rfl, rfl⟩

theorem processDBD_of_isInit {iface : OspfInterface Body} {nbr : Neighbor} {pkt : OspfPacket}
    (h : IsInit pkt) (fuel : ℕ) :
    iface.processDBD fuel nbr pkt.packetLen.toNat pkt.payload = some { nbr } := by
  have hdrop : dbdFits nbr pkt.packetLen.toNat = false := by
    rw [h.1, dbdFits, decide_eq_false_iff_not]
    rintro ⟨-, -, hmod⟩
    exact absurd hmod (by decide)
  rw [processDBD, hdrop]
  rfl

theorem setState_exstart (iface : OspfInterface Body) (nbr : Neighbor) :
    ∃ nbr' sent, iface.setState 2 nbr .EXSTART = some (nbr', sent) ∧ nbr'.state = .EXSTART ∧
      nbr'.role = nbr.role ∧ ∀ pkt ∈ sent, IsInit pkt := by
  rw [setState]
  split_ifs with hstate
  · exact ⟨_, _, rfl, rfl, rfl, fun pkt => isInit_of_mem_sendInitDBD⟩
  · exact ⟨_, _, rfl, not_not.1 hstate, rfl, fun pkt hpkt => by cases hpkt⟩

theorem update_self (x : Bool) : s.update x (s.nbr x) [] = s := by
  rw [update, List.append_nil, Function.update_eq_self, Function.update_eq_self]

/-! ## The two routers wait -/

/-- **The invariant**: nobody got beyond EXSTART, and nothing but initial descriptions was sent. -/
structure Waiting (s : DbExchange) : Prop where
  state : ∀ x, (s.nbr x).state.rank ≤ NeighborState.EXSTART.rank
  role : ∀ x, (s.nbr x).role = .NONE
  sent : ∀ x, ∀ pkt ∈ s.sent x, IsInit pkt
  offered : ∀ x, s.offered x = false

theorem Waiting.agreed (h : Waiting s) : Agreed side s where
  roles x hx := by
    rw [h.offered x] at hx
    cases hx
  requests hdone := by
    have hlow := h.state false
    have hhigh := hdone false
    simp only [NeighborState.rank] at hlow hhigh
    omega

theorem Waiting.start (h : Waiting s) (x : Bool) : Waiting (step side s (.start x)) := by
  obtain ⟨nbr', sent, hset, hstate, hrole, hsent⟩ := setState_exstart (side x) (s.nbr x)
  have hstep : step side s (.start x) = s.update x nbr' sent := by rw [step, hset]
  rw [hstep]
  refine ⟨fun y => ?_, fun y => ?_, fun y pkt hpkt => ?_, h.offered⟩
  · rw [update_nbr]
    split_ifs
    · rw [hstate]
    · exact h.state y
  · rw [update_nbr]
    split_ifs
    · rw [hrole, h.role x]
    · exact h.role y
  · rw [update_sent] at hpkt
    split_ifs at hpkt
    · rcases List.mem_append.1 hpkt with hpkt | hpkt
      · exact h.sent x pkt hpkt
      · exact hsent pkt hpkt
    · exact h.sent y pkt hpkt

variable (side) in
theorem Waiting.deliver (h : Waiting s) (x : Bool) {i : ℕ} {pkt : OspfPacket}
    (hpkt : (s.sent !x)[i]? = some pkt) : step side s (.deliver x i) =
      if Offers s x pkt then { s with offered := Function.update s.offered x true } else s := by
  have hinit : IsInit pkt := h.sent _ pkt (List.mem_of_getElem? hpkt)
  simp only [step, hpkt, DbExchange.deliver, processDBD_of_isInit hinit, update_self]

/-- **One event** keeps the law exactly if it offers nothing. -/
theorem Waiting.step (h : Waiting s) (e : Event) :
    (OffersNothing s e → Waiting (step side s e)) ∧ (Lawful side s e ↔ OffersNothing s e) := by
  cases e with
  | start x =>
    exact ⟨fun _ => h.start x, iff_of_true ⟨trivial, (h.start x).agreed⟩ trivial⟩
  | deliver x i =>
    cases hpkt : (s.sent !x)[i]? with
    | none =>
      have hstep : DbExchange.step side s (.deliver x i) = s := by simp only [DbExchange.step, hpkt]
      have hnothing : OffersNothing s (.deliver x i) := fun pkt hsome => by
        rw [hpkt] at hsome
        cases hsome
      rw [hstep]
      refine ⟨fun _ => h, iff_of_true ⟨fun pkt hsome => ?_, ?_⟩ hnothing⟩
      · rw [hpkt] at hsome
        cases hsome
      · rw [hstep]
        exact h.agreed
    | some pkt =>
      have hstep := h.deliver side x hpkt
      by_cases hoffers : Offers s x pkt
      · -- the role is to be computed, and is not
        have hnot : ¬ OffersNothing s (.deliver x i) := fun hnothing => hnothing pkt hpkt hoffers
        refine ⟨fun hnothing => absurd hnothing hnot, iff_of_false ?_ hnot⟩
        rintro ⟨-, hagreed⟩
        rw [hstep, if_pos hoffers] at hagreed
        have hrole := hagreed.roles x (Function.update_self ..)
        have hnone : (s.nbr x).role = .NONE := h.role x
        rw [show ({ s with offered := Function.update s.offered x true } : DbExchange).nbr = s.nbr from rfl,
          hnone, roleOf] at hrole
        split_ifs at hrole
      · rw [hstep, if_neg hoffers]
        have hnothing : OffersNothing s (.deliver x i) := fun pkt' hsome => by
          rw [hpkt] at hsome
          cases hsome
          exact hoffers
        refine ⟨fun _ => h, iff_of_true ⟨fun pkt' hsome _ _ => ?_, ?_⟩ hnothing⟩
        · rw [hstep, if_neg hoffers]
          exact ⟨rfl, rfl, rfl⟩
        · rw [hstep, if_neg hoffers]
          exact h.agreed

/-! ## Runs -/

/-- What a router knows of the other one before the exchange. -/
structure Fresh (side : Bool → OspfInterface Body) (nbr : Bool → Neighbor) : Prop where
  routerID : ∀ x, (nbr x).routerID = (side !x).routerId
  state : ∀ x, (nbr x).state.rank < NeighborState.EXSTART.rank
  role : ∀ x, (nbr x).role = .NONE

theorem Fresh.waiting {nbr : Bool → Neighbor} (h : Fresh side nbr) : Waiting { nbr } where
  state x := (h.state x).le
  role := h.role
  sent x pkt hpkt := by cases hpkt
  offered _ := rfl

/-- **When the exchange keeps the law**: as long as no initial description reaches a router in
    EXSTART or above. -/
theorem exchange_lawful_iff {nbr : Bool → Neighbor} (h : Fresh side nbr) (es : List Event) :
    Along (Lawful side) (step side) { nbr } es ↔ Along OffersNothing (step side) { nbr } es := by
  constructor
  · exact Along.imp_of_invariant (fun s e hs hlaw => (Waiting.step hs e).1 ((Waiting.step hs e).2.1 hlaw))
      (fun s e hs => (Waiting.step hs e).2.1) h.waiting
  · exact Along.imp_of_invariant (fun s e hs => (Waiting.step hs e).1)
      (fun s e hs => (Waiting.step hs e).2.2) h.waiting

/-! ## Two routers -/

/-- An interface of the router `rid`, with an empty database. -/
def plainInterface (rid : UInt32) : OspfInterface Unit where
  toRxEnv := { keylessRouter with routerId := rid, authType := .NULL_, multiAccess := false }
  ifaceMtu := 1500
  flags := 0
  lls := false
  maxSize := 1456
  frame := fun _ => 0
  db := {}

def routerPair (x : Bool) : OspfInterface Unit :=
  if x then plainInterface 0x02020202 else plainInterface 0x01010101

/-- What each knows of the other after their Hellos. -/
def twoWay (x : Bool) : Neighbor where
  routerID := (routerPair !x).routerId
  unicast := false
  mtu := 1500
  state := .TWOWAY
  currentSeq := 7

theorem fresh_twoWay : Fresh routerPair twoWay where
  routerID _ := rfl
  state x := by cases x <;> decide
  role _ := rfl

/-- A description that comes before its receiver has begun the exchange does no harm. -/
theorem lawful_early :
    Along (Lawful routerPair) (step routerPair) { nbr := twoWay } [.start false, .deliver true 0] := by
  refine (exchange_lawful_iff fresh_twoWay _).2 ⟨trivial, ?_, trivial⟩
  rintro pkt - ⟨-, hstate⟩
  exact absurd hstate (by decide)

/-- Both begin, each is offered the other's description, and nobody is the master. -/
theorem not_lawful_pair : ¬ ∀ (side : Bool → OspfInterface Unit) (nbr : Bool → Neighbor)
    (es : List Event), (side false).routerId ≠ (side true).routerId → Fresh side nbr →
      Along (Lawful side) (step side) { nbr } es := by
  intro h
  obtain ⟨-, -, -, ⟨-, hagreed⟩, -⟩ := h routerPair twoWay
    [.start false, .start true, .deliver false 0, .deliver true 0] (by decide) fresh_twoWay
  have hrole := hagreed.roles true rfl
  exact absurd hrole (by decide)

end DbExchange

end VirtualRouter.Ospf
