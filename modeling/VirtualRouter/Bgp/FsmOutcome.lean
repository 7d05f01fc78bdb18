/-
  What one event can do to a session (`Fsm::processEvent`).

  `Outcome s event s'` lists the cases, with the state, the hold time and the
  hold timer before and after; `Frame s s'` says what every event keeps and
  which calls it makes.  All handlers are covered by `effect_processEvent`:
  nothing behind this module unfolds them.
-/
import VirtualRouter.Bgp.Fsm

namespace VirtualRouter.Bgp

namespace FsmSession

def BeforeOpen (state : FsmState) : Prop := state = .IDLE ∨ state = .CONNECT ∨ state = .ACTIVE

structure SameHold (s s' : FsmSession) : Prop where
  holdTime : s'.holdTime = s.holdTime
  holdTimer : s'.timers.holdTimer = s.timers.holdTimer

def HoldTimerKept (s s' : FsmSession) : Prop :=
  s'.timers.holdTimer = s.timers.holdTimer ∨
    ((s.state = .OPEN_CONFIRMED ∨ s.state = .ESTABLISHED) ∧ s.holdTime ≠ 0 ∧
      s'.timers.holdTimer.isSome)

/-- The cases of an event. -/
inductive Outcome (s : FsmSession) (event : FsmEvent) (s' : FsmSession) : Prop
  /-- The state is kept; the hold timer may be restarted. -/
  | stay (state : s'.state = s.state) (holdTime : s'.holdTime = s.holdTime)
      (holdTimer : HoldTimerKept s s')
  /-- A connection is awaited. -/
  | await (src : BeforeOpen s.state) (dst : BeforeOpen s'.state) (hold : SameHold s s')
  | reset (src : s.state ≠ .IDLE) (state : s'.state = .IDLE) (holdTime : s'.holdTime = s.holdTime)
      (holdTimer : s'.timers.holdTimer = none)
  /-- The connection is up. -/
  | sendOpen (src : s.state = .CONNECT ∨ s.state = .ACTIVE)
      (event : event = .TCP_CONNECTION_CONFIRMED ∨ event = .TCP_CR_ACKED)
      (state : s'.state = .OPEN_SENT) (hold : SameHold s s')
  /-- The connection is lost before the peer's OPEN. -/
  | connectionLost (src : s.state = .OPEN_SENT) (state : s'.state = .ACTIVE)
      (holdTime : s'.holdTime = s.holdTime) (holdTimer : s'.timers.holdTimer = none)
  /-- The peer's OPEN comes before the connection is reported. -/
  | openInConnect (src : s.state = .CONNECT)
      (event : event = .BGP_OPEN ∨ event = .BGP_OPEN_DELAY_OPEN_TIMER)
      (state : s'.state = .OPEN_CONFIRMED) (hold : SameHold s s')
  /-- The peer's OPEN answers ours. -/
  | negotiated (src : s.state = .OPEN_SENT) (event : event = .BGP_OPEN)
      (state : s'.state = .OPEN_CONFIRMED) (holdTime : s'.holdTime = min s.holdTime s.cfgHoldtime)
      (keepalive : s'.holdTime ≠ 0 → s'.keepaliveInterval < s'.holdTime)
      (holdTimer : s'.holdTime ≠ 0 → s'.timers.holdTimer.isSome)
  | established (src : s.state = .OPEN_CONFIRMED) (event : event = .KEEPALIVE_MSG)
      (state : s'.state = .ESTABLISHED) (holdTime : s'.holdTime = s.holdTime)
      (holdTimer : HoldTimerKept s s')

/-- What an event keeps, and the calls it makes. -/
structure Frame (s s' : FsmSession) : Prop where
  cfgHoldtime : s'.cfgHoldtime = s.cfgHoldtime
  multiSession : s'.multiSession = s.multiSession
  calls : s'.calls = s.calls ++ if s'.state = s.state then [] else
    told s.multiSession.isLeft s.state s'.state ++ told s.multiSession.isLeft s.state s'.state

structure Effect (s : FsmSession) (event : FsmEvent) (s' : FsmSession) : Prop where
  outcome : Outcome s event s'
  frame : Frame s s'

variable (s : FsmSession) (event : FsmEvent) (conn : Option UInt64)

/-! ## The shared parts of the handlers -/

theorem frame_transitionTo {t : FsmSession} {newState : FsmState} (hcfg : t.cfgHoldtime = s.cfgHoldtime)
    (hms : t.multiSession = s.multiSession) (hcalls : t.calls = s.calls) (hstate : t.state = s.state)
    (hne : newState ≠ s.state) : Frame s (t.transitionTo newState) := by
  refine ⟨hcfg, hms, ?_⟩
  have hnew : (t.transitionTo newState).state = newState := rfl
  rw [hnew, if_neg hne, ← hms, ← hstate, ← hcalls, ← List.append_assoc]
  rfl

theorem Frame.of_eq {t : FsmSession} (hcfg : t.cfgHoldtime = s.cfgHoldtime)
    (hms : t.multiSession = s.multiSession) (hcalls : t.calls = s.calls)
    (hstate : t.state = s.state) : Frame s t :=
  ⟨hcfg, hms, by rw [hcalls, if_pos hstate, List.append_nil]⟩

theorem sendNotification_eq (code : UInt16) :
    ∃ l, s.sendNotification code = { s with sent := l } := by
  unfold sendNotification
  split_ifs
  · exact ⟨s.sent, rfl⟩
  · exact ⟨_, rfl⟩

theorem resetToIdle_eq (code : Option UInt16) :
    ∃ l, s.resetToIdle code =
      ({ s with
          toSession := s.toSession.closeAllConnections
          timers := { s.timers.cancelAll with connectionRetryCount := 0 }
          sent := l } : FsmSession).transitionTo .IDLE := by
  rcases code with _ | code
  · exact ⟨_, rfl⟩
  · obtain ⟨l, hl⟩ := sendNotification_eq
      (s.onTimers fun t => { t.cancelAll with connectionRetryCount := 0 }) code
    refine ⟨l, ?_⟩
    simp only [resetToIdle, hl]
    rfl

theorem effect_resetToIdle (hs : s.state ≠ .IDLE) (code : Option UInt16) :
    Effect s event (s.resetToIdle code) := by
  obtain ⟨l, hl⟩ := resetToIdle_eq s code
  rw [hl]
  exact ⟨.reset hs rfl rfl rfl, frame_transitionTo s rfl rfl rfl rfl hs.symm⟩

theorem initiateConnection_holdTime (t : Session) :
    (t.initiateConnection conn).holdTime = t.holdTime := by
  cases conn <;> rfl

theorem initiateConnection_multiSession (t : Session) :
    (t.initiateConnection conn).multiSession = t.multiSession := by
  cases conn <;> rfl

theorem resolveCollision_eq (t : Session) (rid : UInt32) : ∃ a p q,
    (t.resolveCollision rid).2 = { t with activeConn := a, passiveConn := p, primaryConn := q } := by
  dsimp only [Session.resolveCollision]
  split_ifs
  all_goals exact ⟨_, _, _, rfl⟩

/-! ## The handlers -/

theorem restartHold_holdTimer (hs : s.state = .OPEN_CONFIRMED ∨ s.state = .ESTABLISHED) :
    HoldTimerKept s s.restartHold := by
  unfold restartHold HoldTimerKept
  split_ifs with h0
  · simp only [onTimers, SessionTimers.restartHoldTimer]
    split_ifs
    · exact Or.inl rfl
    · exact Or.inr ⟨hs, h0, rfl⟩
  · exact Or.inl rfl

theorem restartHold_eq : ∃ t, s.restartHold = { s with timers := t } := by
  unfold restartHold
  split_ifs
  · exact ⟨_, rfl⟩
  · exact ⟨s.timers, rfl⟩

theorem restartKeepaliveTimer_holdTimer (t : SessionTimers) :
    t.restartKeepaliveTimer.holdTimer = t.holdTimer := by
  unfold SessionTimers.restartKeepaliveTimer
  split_ifs
  · rfl
  · rfl

theorem startIdleHoldTimer_eq (interval : ℕ) : ∃ l t, s.startIdleHoldTimer interval =
    { s with posted := l, timers := { s.timers with idleHoldTimer := t } } := by
  unfold startIdleHoldTimer
  split_ifs
  · exact ⟨_, _, rfl⟩
  · exact ⟨s.posted, _, rfl⟩

theorem effect_handleIdle (hs : s.state = .IDLE) : Effect s event (s.handleIdle conn event) := by
  have hstart : Effect s event (s.startActive conn) :=
    ⟨.await (Or.inl hs) (Or.inr (Or.inl rfl)) ⟨initiateConnection_holdTime conn _, rfl⟩,
      frame_transitionTo s rfl (initiateConnection_multiSession conn _) rfl rfl (by rw [hs]; decide)⟩
  cases event
  case MANUAL_START | AUTOMATIC_START | IDLE_HOLD_TIMER_EXPIRES => exact hstart
  case MANUAL_START_PASSIVE_TCP | AUTOMATIC_START_PASSIVE_TCP =>
    exact ⟨.await (Or.inl hs) (Or.inr (Or.inr rfl)) ⟨rfl, rfl⟩,
      frame_transitionTo s rfl rfl rfl rfl (by rw [hs]; decide)⟩
  case AUTOMATIC_START_DAMP | AUTOMATIC_START_DAMP_PASSIVE_TCP =>
    simp only [handleIdle]
    obtain ⟨l, t, h⟩ := startIdleHoldTimer_eq s
      (if 5 <<< min s.timers.connectionRetryCount.toNat 4 > 120 then 120
        else 5 <<< min s.timers.connectionRetryCount.toNat 4)
    rw [h]
    exact ⟨.stay rfl rfl (Or.inl rfl), Frame.of_eq s rfl rfl rfl rfl⟩
  all_goals exact ⟨.stay rfl rfl (Or.inl rfl), Frame.of_eq s rfl rfl rfl rfl⟩

theorem effect_sendOpenAndWait (hs : s.state = .CONNECT ∨ s.state = .ACTIVE)
    (he : event = .TCP_CONNECTION_CONFIRMED ∨ event = .TCP_CR_ACKED) :
    Effect s event s.sendOpenAndWait := by
  refine ⟨.sendOpen hs he rfl ⟨rfl, rfl⟩, frame_transitionTo s rfl rfl rfl rfl ?_⟩
  rcases hs with hs | hs <;> rw [hs] <;> decide

theorem effect_manualStop (hs : s.state ≠ .IDLE) : Effect s event s.manualStop :=
  ⟨.reset hs rfl rfl rfl, frame_transitionTo s rfl rfl rfl rfl hs.symm⟩

theorem effect_handleConnect_open (hs : s.state = .CONNECT)
    (he : event = .BGP_OPEN ∨ event = .BGP_OPEN_DELAY_OPEN_TIMER) :
    Effect s event (s.handleConnect conn .BGP_OPEN) := by
  have hne : FsmState.OPEN_CONFIRMED ≠ s.state := by rw [hs]; decide
  simp only [handleConnect]
  split_ifs
  · exact ⟨.openInConnect hs he rfl ⟨rfl, rfl⟩, frame_transitionTo s rfl rfl rfl rfl hne⟩
  · exact ⟨.openInConnect hs he rfl ⟨rfl, rfl⟩, frame_transitionTo s rfl rfl rfl rfl hne⟩

theorem effect_handleConnect (hs : s.state = .CONNECT) :
    Effect s event (s.handleConnect conn event) := by
  have hne : s.state ≠ .IDLE := by rw [hs]; decide
  cases event
  case MANUAL_STOP => exact effect_manualStop s _ hne
  case CONNECTION_RETRY_TIMER_EXPIRES =>
    exact ⟨.stay rfl (initiateConnection_holdTime conn _) (Or.inl rfl),
      Frame.of_eq s rfl (initiateConnection_multiSession conn _) rfl rfl⟩
  case TCP_CONNECTION_CONFIRMED => exact effect_sendOpenAndWait s _ (Or.inl hs) (Or.inl rfl)
  case TCP_CR_ACKED => exact effect_sendOpenAndWait s _ (Or.inl hs) (Or.inr rfl)
  case TCP_CONNECTION_FAILS =>
    exact ⟨.await (Or.inr (Or.inl hs)) (Or.inr (Or.inr rfl)) ⟨rfl, rfl⟩,
      frame_transitionTo s rfl rfl rfl rfl (by rw [hs]; decide)⟩
  case TCP_CONNECTION_VALID | TCP_CR_INVALID =>
    exact ⟨.stay rfl rfl (Or.inl rfl), Frame.of_eq s rfl rfl rfl rfl⟩
  case BGP_OPEN => exact effect_handleConnect_open s _ conn hs (Or.inl rfl)
  case BGP_OPEN_DELAY_OPEN_TIMER => exact effect_handleConnect_open s _ conn hs (Or.inr rfl)
  all_goals
    simp only [handleConnect]
    exact effect_resetToIdle s _ hne _

theorem effect_handleActive (hs : s.state = .ACTIVE) :
    Effect s event (s.handleActive conn event) := by
  have hne : s.state ≠ .IDLE := by rw [hs]; decide
  cases event
  case MANUAL_STOP => exact effect_manualStop s _ hne
  case CONNECTION_RETRY_TIMER_EXPIRES =>
    exact ⟨.await (Or.inr (Or.inr hs)) (Or.inr (Or.inl rfl))
        ⟨initiateConnection_holdTime conn _, rfl⟩,
      frame_transitionTo s rfl (initiateConnection_multiSession conn _) rfl rfl (by rw [hs]; decide)⟩
  case TCP_CONNECTION_CONFIRMED => exact effect_sendOpenAndWait s _ (Or.inr hs) (Or.inl rfl)
  case TCP_CR_ACKED => exact effect_sendOpenAndWait s _ (Or.inr hs) (Or.inr rfl)
  case TCP_CONNECTION_FAILS =>
    exact ⟨.stay rfl rfl (Or.inl rfl), Frame.of_eq s rfl rfl rfl rfl⟩
  all_goals
    simp only [handleActive]
    exact effect_resetToIdle s _ hne _

theorem negotiatedKeepalive_lt {minHt : UInt16} (h : minHt ≠ 0) :
    s.negotiatedKeepalive minHt < minHt := by
  unfold negotiatedKeepalive
  rw [if_neg h]
  split_ifs with hka
  · exact hka.2
  · have hpos : 0 < minHt.toNat := Nat.pos_of_ne_zero fun h0 => h (UInt16.toNat_inj.1 h0)
    rw [UInt16.lt_iff_toNat_lt, UInt16.toNat_div]
    exact Nat.div_lt_self hpos (by decide)

theorem effect_negotiateHold (hs : s.state = .OPEN_SENT) : Effect s .BGP_OPEN s.negotiateHold := by
  have hne : FsmState.OPEN_CONFIRMED ≠ s.state := by rw [hs]; decide
  by_cases h0 : min s.holdTime s.cfgHoldtime = 0
  · simp only [negotiateHold]
    rw [if_neg (not_not.2 h0)]
    exact ⟨.negotiated hs rfl rfl rfl (fun h => absurd h0 h) (fun h => absurd h0 h),
      frame_transitionTo s rfl rfl rfl rfl hne⟩
  · have hpos : (min s.holdTime s.cfgHoldtime).toNat ≠ 0 := fun h => h0 (UInt16.toNat_inj.1 h)
    simp only [negotiateHold]
    rw [if_pos h0]
    refine ⟨.negotiated hs rfl rfl rfl (fun _ => negotiatedKeepalive_lt s h0) (fun _ => ?_),
      frame_transitionTo s rfl rfl rfl rfl hne⟩
    simp only [transitionTo, onFsmTransition, onTimers, SessionTimers.startHoldTimer,
      SessionTimers.startKeepaliveTimer, if_neg hpos, Option.isSome_some]

theorem effect_handleOpenSent (hs : s.state = .OPEN_SENT) :
    Effect s event (s.handleOpenSent event) := by
  have hne : s.state ≠ .IDLE := by rw [hs]; decide
  cases event
  case TCP_CONNECTION_FAILS =>
    exact ⟨.connectionLost hs rfl rfl rfl,
      frame_transitionTo s rfl rfl rfl rfl (by rw [hs]; decide)⟩
  case BGP_OPEN =>
    simp only [handleOpenSent]
    split_ifs
    · exact effect_resetToIdle s _ hne _
    · exact effect_negotiateHold s hs
  all_goals
    simp only [handleOpenSent]
    exact effect_resetToIdle s _ hne _

theorem effect_onCollision (hne : s.state ≠ .IDLE) : Effect s event s.onCollision := by
  obtain ⟨a, p, q, h⟩ := resolveCollision_eq s.toSession s.peerRouterId
  simp only [onCollision]
  split_ifs
  · rw [h]
    exact ⟨.stay rfl rfl (Or.inl rfl), Frame.of_eq s rfl rfl rfl rfl⟩
  · obtain ⟨l, hl⟩ := resetToIdle_eq
      { s with toSession := (s.toSession.resolveCollision s.peerRouterId).2 }
      (some BGP_NOTIFICATION_CEASE_COLLISION_RESOLUTION)
    rw [hl, h]
    exact ⟨.reset hne rfl rfl rfl, frame_transitionTo s rfl rfl rfl rfl hne.symm⟩

theorem effect_restartHold (hs : s.state = .ESTABLISHED) : Effect s event s.restartHold := by
  obtain ⟨t, h⟩ := restartHold_eq s
  have htimer := restartHold_holdTimer s (Or.inr hs)
  rw [h] at htimer ⊢
  exact ⟨.stay rfl rfl htimer, Frame.of_eq s rfl rfl rfl rfl⟩

theorem effect_keepaliveTimer :
    Effect s event (s.sendKeepalive.onTimers (·.restartKeepaliveTimer)) :=
  ⟨.stay rfl rfl (Or.inl (restartKeepaliveTimer_holdTimer _)), Frame.of_eq s rfl rfl rfl rfl⟩

theorem effect_handleOpenConfirm (hs : s.state = .OPEN_CONFIRMED) :
    Effect s event (s.handleOpenConfirm event) := by
  have hne : s.state ≠ .IDLE := by rw [hs]; decide
  cases event
  case KEEPALIVE_TIMER_EXPIRES => exact effect_keepaliveTimer s _
  case BGP_OPEN => exact effect_onCollision s _ hne
  case KEEPALIVE_MSG =>
    obtain ⟨t, h⟩ := restartHold_eq s
    have htimer := restartHold_holdTimer s (Or.inl hs)
    simp only [handleOpenConfirm]
    rw [h] at htimer ⊢
    exact ⟨.established hs rfl rfl rfl htimer,
      frame_transitionTo s rfl rfl rfl rfl (by rw [hs]; decide)⟩
  all_goals
    simp only [handleOpenConfirm]
    exact effect_resetToIdle s _ hne _

theorem effect_handleEstablished (hs : s.state = .ESTABLISHED) :
    Effect s event (s.handleEstablished event) := by
  have hne : s.state ≠ .IDLE := by rw [hs]; decide
  cases event
  case KEEPALIVE_TIMER_EXPIRES => exact effect_keepaliveTimer s _
  case BGP_OPEN => exact effect_onCollision s _ hne
  case KEEPALIVE_MSG | UPDATE_MSG => exact effect_restartHold s _ hs
  case MANUAL_STOP | AUTOMATIC_STOP | HOLD_TIMER_EXPIRES | TCP_CONNECTION_FAILS | BGP_HEADER_ERR
    | BGP_OPEN_MSG_ERR | NOTIF_MSG_VER_ERR | NOTIF_MSG | UPDATE_MSG_ERR | BFD_DOWN
    | MAX_PREFIX_REACHED =>
    simp only [handleEstablished]
    exact effect_resetToIdle s _ hne _
  all_goals exact ⟨.stay rfl rfl (Or.inl rfl), Frame.of_eq s rfl rfl rfl rfl⟩

/-- **What an event can do.** -/
theorem effect_processEvent : Effect s event (s.processEvent conn event) := by
  unfold processEvent
  cases hs : s.state with
  | IDLE => exact effect_handleIdle s event conn hs
  | CONNECT => exact effect_handleConnect s event conn hs
  | ACTIVE => exact effect_handleActive s event conn hs
  | OPEN_SENT => exact effect_handleOpenSent s event hs
  | OPEN_CONFIRMED => exact effect_handleOpenConfirm s event hs
  | ESTABLISHED => exact effect_handleEstablished s event hs

end FsmSession

end VirtualRouter.Bgp
