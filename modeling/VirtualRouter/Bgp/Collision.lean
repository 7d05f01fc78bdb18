/-
  Connection collisions: two sessions that each have an active and a passive
  connection to the other.

  The active connection of one side is the passive connection of the other, so
  that the two sides keep the same connection if the one with the higher router
  id keeps its active and the other its passive one.  `resolveCollision` closes
  the right connection on both sides.  Its result says whether the active
  connection is kept, though, and the machine takes it for the whole session:
  the side with the lower router id tells the peer on the connection it should
  keep, closes that one as well, and is idle.

  * `Peering.step`: the steps by which the two sides take an OPEN;
  * `Colliding`, `Resolved`: where the collision starts, and where it should end;
  * `bgpOpen_lower`, `bgpOpen_higher`: an OPEN on either side;
  * `Settled.run`: what a run leaves, and `not_resolved_of_colliding`.
-/
import VirtualRouter.Bgp.FsmOutcome
import VirtualRouter.Lib.Run

namespace VirtualRouter.Bgp

open Run

/-! ## Two sessions -/

inductive Side where
  | left
  | right
  deriving DecidableEq, Repr

def Side.other : Side → Side
  | .left => .right
  | .right => .left

abbrev Peering : Type := Side → FsmSession

/-- A side reads an OPEN of the peer, or its machine takes the event that was posted for it. -/
inductive OpenStep where
  | receive (side : Side) (peerHold : UInt16)
  | handle (side : Side) (conn : Option UInt64)
  deriving DecidableEq, Repr

def OpenStep.side : OpenStep → Side
  | .receive side _ => side
  | .handle side _ => side

def OpenStep.input (peerRid : UInt32) : OpenStep → FsmInput
  | .receive _ peerHold => .processOpen peerHold peerRid
  | .handle _ conn => .event .BGP_OPEN conn

def Peering.step (p : Peering) (e : OpenStep) : Peering :=
  Function.update p e.side ((p e.side).step (e.input (p e.side.other).routerId))

def HandledByBoth (es : List OpenStep) : Prop := ∀ side, ∃ conn, OpenStep.handle side conn ∈ es

/-- Both sides know the router id of the other and wait for a KEEPALIVE or are established, with a
    connection in each direction. -/
structure Colliding (p : Peering) : Prop where
  distinct : (p .left).routerId ≠ (p .right).routerId
  peerRid : ∀ side, (p side).peerRouterId = (p side.other).routerId
  state : ∀ side, (p side).state = .OPEN_CONFIRMED ∨ (p side).state = .ESTABLISHED
  active : ∀ side, (p side).activeConn.isSome
  passive : ∀ side, (p side).passiveConn.isSome

/-- `q` keeps the connection of `p` that the side with the higher router id initiated, and no side is
    idle. -/
structure Resolved (p q : Peering) : Prop where
  active : ∀ side, (q side).activeConn =
    if (p side).routerId > (p side.other).routerId then (p side).activeConn else none
  passive : ∀ side, (q side).passiveConn =
    if (p side).routerId > (p side.other).routerId then none else (p side).passiveConn
  state : ∀ side, (q side).state ≠ .IDLE

/-! ## An OPEN on one side -/

/-- The ids and the state are those of `s₀`. -/
structure Same (s₀ s : FsmSession) : Prop where
  routerId : s.routerId = s₀.routerId
  peerRouterId : s.peerRouterId = s₀.peerRouterId
  state : s.state = s₀.state

/-- The connections are still those of `s₀`. -/
structure Undecided (s₀ s : FsmSession) : Prop extends Same s₀ s where
  active : s.activeConn = s₀.activeConn
  passive : s.passiveConn = s₀.passiveConn

/-- The passive connection of `s₀` is closed. -/
structure KeptActive (s₀ s : FsmSession) : Prop extends Same s₀ s where
  active : s.activeConn = s₀.activeConn
  passive : s.passiveConn = none

/-- The session has no connection and is idle. -/
structure Fallen (s₀ s : FsmSession) : Prop where
  routerId : s.routerId = s₀.routerId
  state : s.state = .IDLE
  active : s.activeConn = none
  passive : s.passiveConn = none

section
variable {s₀ s : FsmSession} {conn : Option UInt64}

theorem processEvent_bgpOpen (h : s.state = .OPEN_CONFIRMED ∨ s.state = .ESTABLISHED) :
    s.processEvent conn .BGP_OPEN = s.onCollision := by
  rcases h with h | h
  · rw [FsmSession.processEvent, h]
    rfl
  · rw [FsmSession.processEvent, h]
    rfl

theorem shouldKeep_outgoing {localRid peerRid : UInt32} (hne : localRid ≠ peerRid) :
    shouldKeep true localRid peerRid = decide (localRid > peerRid) := by
  rw [shouldKeep, if_neg hne]
  by_cases hgt : localRid > peerRid
  · rw [if_pos hgt, decide_eq_true hgt]
  · rw [if_neg hgt, decide_eq_false hgt, Bool.not_true]

/-- **The side with the higher router id** closes its passive connection and goes on. -/
theorem bgpOpen_higher (hstate : s.state = .OPEN_CONFIRMED ∨ s.state = .ESTABLISHED)
    (hactive : s.activeConn.isSome) (hrid : s.routerId > s.peerRouterId) :
    KeptActive s (s.processEvent conn .BGP_OPEN) := by
  have hkeep : shouldKeep true s.routerId s.peerRouterId = true := by
    rw [shouldKeep_outgoing (UInt32.ne_of_lt hrid).symm, decide_eq_true hrid]
  rw [processEvent_bgpOpen hstate]
  cases hpassive : s.passiveConn with
  | none =>
    have hsame : s.onCollision = s := by
      simp [FsmSession.onCollision, Session.resolveCollision, hactive, hkeep, hpassive]
    rw [hsame]
    exact ⟨⟨rfl, rfl, rfl⟩, rfl, hpassive⟩
  | some id =>
    have hclose : s.onCollision = { s with toSession := s.toSession.closePassiveConnection } := by
      simp [FsmSession.onCollision, Session.resolveCollision, hactive, hkeep, hpassive]
    rw [hclose]
    exact ⟨⟨rfl, rfl, rfl⟩, rfl, rfl⟩

/-- **The side with the lower router id** closes its active connection, and is then reset. -/
theorem bgpOpen_lower (hstate : s.state = .OPEN_CONFIRMED ∨ s.state = .ESTABLISHED)
    (hactive : s.activeConn.isSome) (hrid : s.routerId < s.peerRouterId) :
    Fallen s (s.processEvent conn .BGP_OPEN) := by
  have hkeep : shouldKeep true s.routerId s.peerRouterId = false := by
    rw [shouldKeep_outgoing (UInt32.ne_of_lt hrid), decide_eq_false (UInt32.lt_asymm hrid)]
  have hreset : s.onCollision =
      { s with toSession := s.toSession.closeActiveConnection }.resetToIdle
        (some BGP_NOTIFICATION_CEASE_COLLISION_RESOLUTION) := by
    simp [FsmSession.onCollision, Session.resolveCollision, hactive, hkeep]
  obtain ⟨l, hl⟩ := FsmSession.resetToIdle_eq { s with toSession := s.toSession.closeActiveConnection }
    (some BGP_NOTIFICATION_CEASE_COLLISION_RESOLUTION)
  rw [processEvent_bgpOpen hstate, hreset, hl]
  exact ⟨rfl, rfl, rfl, rfl⟩

end

/-! ## Runs -/

/-- What one side has come to: before its first OPEN is handled nothing has happened, and then the
    router ids decide. -/
def Settled (s₀ s : FsmSession) : Prop :=
  if s₀.routerId > s₀.peerRouterId then KeptActive s₀ s else Fallen s₀ s

section
variable {s₀ s : FsmSession} {conn : Option UInt64} {peerHold : UInt16}

theorem Undecided.receive (h : Undecided s₀ s) :
    Undecided s₀ (s.step (.processOpen peerHold s₀.peerRouterId)) :=
  ⟨⟨h.routerId, rfl, h.state⟩, h.active, h.passive⟩

theorem Settled.receive (h : Settled s₀ s) : Settled s₀ (s.step (.processOpen peerHold s₀.peerRouterId)) := by
  rw [Settled] at h ⊢
  split_ifs at h ⊢ with hrid
  · exact ⟨⟨h.routerId, rfl, h.state⟩, h.active, h.passive⟩
  · exact ⟨h.routerId, h.state, h.active, h.passive⟩

variable (hstate : s₀.state = .OPEN_CONFIRMED ∨ s₀.state = .ESTABLISHED) (hactive : s₀.activeConn.isSome)
include hstate hactive

theorem Undecided.handle (hne : s₀.routerId ≠ s₀.peerRouterId) (h : Undecided s₀ s) :
    Settled s₀ (s.step (.event .BGP_OPEN conn)) := by
  have hstate' := h.state ▸ hstate
  have hactive' : s.activeConn.isSome := h.active ▸ hactive
  rw [Settled]
  split_ifs with hrid
  · have hkept : KeptActive s (s.processEvent conn .BGP_OPEN) := by
      refine bgpOpen_higher hstate' hactive' ?_
      rwa [h.routerId, h.peerRouterId]
    exact ⟨⟨hkept.routerId.trans h.routerId, hkept.peerRouterId.trans h.peerRouterId,
      hkept.state.trans h.state⟩, hkept.active.trans h.active, hkept.passive⟩
  · have hfallen : Fallen s (s.processEvent conn .BGP_OPEN) := by
      refine bgpOpen_lower hstate' hactive' ?_
      rw [h.routerId, h.peerRouterId]
      exact UInt32.lt_of_le_of_ne (UInt32.not_lt.1 hrid) hne
    exact ⟨hfallen.routerId.trans h.routerId, hfallen.state, hfallen.active, hfallen.passive⟩

theorem Settled.handle (h : Settled s₀ s) : Settled s₀ (s.step (.event .BGP_OPEN conn)) := by
  rw [Settled] at h ⊢
  split_ifs at h ⊢ with hrid
  · have hkept : KeptActive s (s.processEvent conn .BGP_OPEN) := by
      refine bgpOpen_higher (h.state ▸ hstate) (h.active ▸ hactive) ?_
      rwa [h.routerId, h.peerRouterId]
    exact ⟨⟨hkept.routerId.trans h.routerId, hkept.peerRouterId.trans h.peerRouterId,
      hkept.state.trans h.state⟩, hkept.active.trans h.active, hkept.passive⟩
  · -- an idle machine ignores the event
    have hidle : s.step (.event .BGP_OPEN conn) = s := by
      rw [FsmSession.step, FsmSession.processEvent, h.state]
      rfl
    rwa [hidle]

end

section
variable {p q : Peering} {side : Side} {e : OpenStep} {es : List OpenStep}

/-- Where a run from `p` can be. -/
def Underway (p q : Peering) : Prop := ∀ side, Undecided (p side) (q side) ∨ Settled (p side) (q side)

theorem Settled.routerId {s₀ s : FsmSession} (h : Settled s₀ s) : s.routerId = s₀.routerId := by
  rw [Settled] at h
  split_ifs at h
  · exact h.routerId
  · exact h.routerId

theorem Underway.routerId (h : Underway p q) (side : Side) : (q side).routerId = (p side).routerId :=
  (h side).elim (·.routerId) Settled.routerId

theorem Colliding.ne (h : Colliding p) : ∀ side, (p side).routerId ≠ (p side).peerRouterId
  | .left => fun heq => h.distinct (heq.trans (h.peerRid .left))
  | .right => fun heq => h.distinct (heq.trans (h.peerRid .right)).symm

theorem Peering.step_of_ne (h : side ≠ e.side) : q.step e side = q side := Function.update_of_ne h _ _

theorem Peering.step_side : q.step e e.side = (q e.side).step (e.input (q e.side.other).routerId) :=
  Function.update_self _ _ _

theorem Settled.step (h : Colliding p) (hq : Underway p q) (side : Side) (hs : Settled (p side) (q side)) :
    Settled (p side) (q.step e side) := by
  by_cases hside : side = e.side
  · subst hside
    rw [Peering.step_side, hq.routerId, ← h.peerRid]
    cases e with
    | receive _ peerHold => exact hs.receive
    | handle _ conn => exact hs.handle (h.state _) (h.active _)
  · rwa [Peering.step_of_ne hside]

theorem settled_of_handle (h : Colliding p) (hq : Underway p q) (side : Side) (conn : Option UInt64) :
    Settled (p side) (q.step (.handle side conn) side) := by
  rcases hq side with hs | hs
  · exact Peering.step_side (q := q) (e := .handle side conn) ▸
      hs.handle (h.state side) (h.active side) (h.ne side)
  · exact hs.step h hq side

theorem Underway.step (h : Colliding p) (hq : Underway p q) : Underway p (q.step e) := by
  intro side
  rcases hq side with hs | hs
  · by_cases hside : side = e.side
    · subst hside
      cases e with
      | receive side peerHold =>
        refine Or.inl ?_
        rw [Peering.step_side, hq.routerId, ← h.peerRid]
        exact hs.receive
      | handle side conn => exact Or.inr (settled_of_handle h hq side conn)
    · rw [Peering.step_of_ne hside]
      exact Or.inl hs
  · exact Or.inr (hs.step h hq side)

theorem Underway.run (h : Colliding p) (hq : Underway p q) (es : List OpenStep) :
    Underway p (runFrom Peering.step q es) := by
  induction es generalizing q with
  | nil => exact hq
  | cons e es ih => exact ih (hq.step h)

theorem Settled.run (h : Colliding p) (hq : Underway p q) (hs : Settled (p side) (q side))
    (es : List OpenStep) : Settled (p side) (runFrom Peering.step q es side) := by
  induction es generalizing q with
  | nil => exact hs
  | cons e es ih => exact ih (hq.step h) (hs.step h hq side)

/-- **After every order of the steps in which a side handles an OPEN** the side with the higher router
    id has its active connection and its state, and the other one nothing. -/
theorem settled_of_handled (h : Colliding p) {conn : Option UInt64} (hmem : OpenStep.handle side conn ∈ es) :
    Settled (p side) (runFrom Peering.step p es side) := by
  have hstart : Underway p p := fun side => Or.inl ⟨⟨rfl, rfl, rfl⟩, rfl, rfl⟩
  obtain ⟨before, after, rfl⟩ := List.append_of_mem hmem
  have hbefore := hstart.run h before
  rw [runFrom_append, runFrom_cons]
  exact Settled.run h (hbefore.step h) (settled_of_handle h hbefore side conn) after

theorem Colliding.exists_lower (h : Colliding p) :
    ∃ side, ¬ (p side).routerId > (p side).peerRouterId := by
  by_contra hno
  push Not at hno
  have hleft := hno .left
  have hright := hno .right
  rw [h.peerRid] at hleft hright
  exact UInt32.lt_asymm hleft hright

/-- **No collision is resolved**: in whatever order the two sides handle their OPENs, the side with the
    lower router id is idle and has no connection. -/
theorem not_resolved_of_colliding (h : Colliding p) (hboth : HandledByBoth es) :
    ¬ Resolved p (runFrom Peering.step p es) := by
  intro hres
  obtain ⟨side, hlower⟩ := h.exists_lower
  obtain ⟨conn, hmem⟩ := hboth side
  have hsettled := settled_of_handled h hmem
  rw [Settled, if_neg hlower] at hsettled
  exact hres.state side hsettled.state

end

/-- A confirmed session with connection 1 to the peer and connection 2 from it. -/
def collidingSession (routerId peerRouterId : UInt32) : FsmSession where
  routerId := routerId
  peerRouterId := peerRouterId
  activeConn := some 1
  passiveConn := some 2
  primaryConn := some 2
  state := .OPEN_CONFIRMED

/-- Router 10.0.0.1 on the left and router 10.0.0.2 on the right. -/
def samplePeering : Peering
  | .left => collidingSession 0x0A000001 0x0A000002
  | .right => collidingSession 0x0A000002 0x0A000001

theorem colliding_sample : Colliding samplePeering := by
  constructor
  case distinct => decide
  all_goals
    intro side
    cases side <;> decide

theorem not_resolved_of_colliding_sample :
    ¬ Resolved samplePeering (runFrom Peering.step samplePeering [.handle .right none, .handle .left none]) :=
  not_resolved_of_colliding colliding_sample fun side => ⟨none, by cases side <;> decide⟩

/-- Both orders leave the left side idle. -/
theorem not_resolved_sample :
    Colliding samplePeering ∧
      ¬ Resolved samplePeering (runFrom Peering.step samplePeering [.handle .left none, .handle .right none]) ∧
      ¬ Resolved samplePeering (runFrom Peering.step samplePeering [.handle .right none, .handle .left none]) :=
  ⟨colliding_sample, fun h => h.state .left rfl, fun h => h.state .left rfl⟩

end VirtualRouter.Bgp
