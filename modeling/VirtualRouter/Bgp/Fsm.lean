/-
  The state machine of a BGP session (`routing/bgp/session/Fsm.cpp`) with the
  timers (`SessionTimers.cpp`) and the session functions it uses.

  A timer is the number of seconds it was started with, from its start until it
  is cancelled; the event that it posts when it fires is an input of the run.
  `sent` are the messages put on the primary connection and `calls` the calls
  made to the process.  What `tcp.connect` returns is an argument of the step:
  the id of the connection, or nothing.  The child sessions that an established
  multi-session starts have machines of their own and are left out.

  * `FsmSession.processEvent` and the handlers of the six states;
  * `FsmSession.step`: the inputs of a session, which are the events, an OPEN
    that the parser accepts, and an accepted connection.
-/
import VirtualRouter.Bgp.BgpOpen
import VirtualRouter.Bgp.UpdateParser

namespace VirtualRouter.Bgp

def kConnectRetryInterval : ℕ := 30

def BGP_NOTIFICATION_HOLD_TIMER_EXPIRED : UInt16 := 0x0400
def BGP_NOTIFICATION_FSM_OPEN_SENT : UInt16 := 0x0501
def BGP_NOTIFICATION_FSM_OPEN_CONFIRM : UInt16 := 0x0502
def BGP_NOTIFICATION_FSM_ESTABLISH : UInt16 := 0x0503
def BGP_NOTIFICATION_CEASE_MAX_PREFIXES : UInt16 := 0x0601
def BGP_NOTIFICATION_CEASE_ADMIN_SHUT : UInt16 := 0x0602
def BGP_NOTIFICATION_CEASE_ADMIN_RESET : UInt16 := 0x0604
def BGP_NOTIFICATION_CEASE_COLLISION_RESOLUTION : UInt16 := 0x0607
def BGP_NOTIFICATION_CEASE_BFD_DOWN : UInt16 := 0x060A

inductive FsmState where
  | IDLE
  | CONNECT
  | ACTIVE
  | OPEN_SENT
  | OPEN_CONFIRMED
  | ESTABLISHED
  deriving DecidableEq, Repr

/-! ## Timers -/

/-- `SessionTimers`: a timer that runs is `some` of its interval. -/
structure SessionTimers where
  connectionRetryTimer : Option ℕ := none
  holdTimer : Option ℕ := none
  keepaliveTimer : Option ℕ := none
  idleHoldTimer : Option ℕ := none
  lastHoldTime : ℕ := 0
  lastKeepaliveInterval : ℕ := 0
  connectionRetryCount : UInt32 := 0
  deriving DecidableEq, Repr

namespace SessionTimers

variable (t : SessionTimers)

def startConnectRetry (interval : ℕ) : SessionTimers :=
  { t with connectionRetryTimer := some interval }

def stopConnectRetry : SessionTimers := { t with connectionRetryTimer := none }

def startHoldTimer (holdTime : ℕ) : SessionTimers :=
  { t with lastHoldTime := holdTime, holdTimer := if holdTime = 0 then none else some holdTime }

def restartHoldTimer : SessionTimers :=
  if t.lastHoldTime = 0 then t else { t with holdTimer := some t.lastHoldTime }

def stopHoldTimer : SessionTimers := { t with holdTimer := none }

def startKeepaliveTimer (interval : ℕ) : SessionTimers :=
  { t with
    lastKeepaliveInterval := interval
    keepaliveTimer := if interval = 0 then none else some interval }

def restartKeepaliveTimer : SessionTimers :=
  if t.lastKeepaliveInterval = 0 then t else { t with keepaliveTimer := some t.lastKeepaliveInterval }

def stopKeepaliveTimer : SessionTimers := { t with keepaliveTimer := none }

def cancelAll : SessionTimers :=
  { t with
    connectionRetryTimer := none
    holdTimer := none
    keepaliveTimer := none
    idleHoldTimer := none }

end SessionTimers

/-! ## Connections -/

def shouldKeep (isOutgoing : Bool) (localRid peerRid : UInt32) : Bool :=
  if localRid = peerRid then false
  else if localRid > peerRid then isOutgoing
  else !isOutgoing

namespace Session

variable (s : Session)

def acceptConnection (conn : UInt64) : Session :=
  { s with passiveConn := some conn, primaryConn := some conn }.postEvent .TCP_CONNECTION_CONFIRMED

/-- `initiateConnection`, with what `tcp.connect` returns. -/
def initiateConnection (conn : Option UInt64) : Session :=
  match conn with
  | some id => { s with activeConn := some id, primaryConn := some id }
  | none => { s with activeConn := none }.postEvent .TCP_CONNECTION_FAILS

def closeActiveConnection : Session :=
  { s with activeConn := none, primaryConn := s.passiveConn }

def closePassiveConnection : Session :=
  { s with passiveConn := none, primaryConn := s.activeConn }

def closeAllConnections : Session :=
  { s with activeConn := none, passiveConn := none, primaryConn := none }

/-- `resolveCollision`: the session is kept, and what is left of its connections. -/
def resolveCollision (incomingPeerRid : UInt32) : Bool × Session :=
  let outgoing := s.activeConn.isSome
  let keep := shouldKeep outgoing s.routerId incomingPeerRid
  (keep,
    if !keep then
      if outgoing then s.closeActiveConnection else s.closePassiveConnection
    else if outgoing && s.passiveConn.isSome then s.closePassiveConnection
    else if !outgoing && s.activeConn.isSome then s.closeActiveConnection
    else s)

end Session

/-! ## The machine -/

inductive FsmMessage where
  | OPEN (holdTime : UInt16)
  | KEEPALIVE
  | NOTIFICATION (code : UInt16)
  deriving DecidableEq, Repr

inductive ProcessCall where
  | onSessionEstablished
  | onSessionDown
  deriving DecidableEq, Repr

structure FsmSession extends Session where
  state : FsmState := .IDLE
  passiveMode : Bool := false
  keepaliveInterval : UInt16 := 60
  timers : SessionTimers := {}
  sent : List FsmMessage := []
  calls : List ProcessCall := []
  -- configuration of the neighbor
  cfgHoldtime : UInt16 := 180
  cfgKeepaliveInterval : UInt16 := 60

namespace FsmSession

variable (s : FsmSession)

/-- The constructor of a base session: the configured times, and the callback of the machine. -/
def new (base : Session) (cfgHoldtime cfgKeepaliveInterval : UInt16) : FsmSession :=
  { base with
    holdTime := cfgHoldtime
    multiSession := .inr {}
    established := false
    keepaliveInterval :=
      if 0 < cfgKeepaliveInterval ∧ cfgKeepaliveInterval < cfgHoldtime then cfgKeepaliveInterval
      else cfgHoldtime / 3
    cfgHoldtime := cfgHoldtime
    cfgKeepaliveInterval := cfgKeepaliveInterval }

/-- A message is written only with a primary connection. -/
def send (m : FsmMessage) : FsmSession :=
  { s with sent := s.sent ++ if s.primaryConn.isSome then [m] else [] }

def sendOpen : FsmSession := s.send (.OPEN s.holdTime)

def sendKeepalive : FsmSession := s.send .KEEPALIVE

def sendNotification (code : UInt16) : FsmSession :=
  if code = 0 then s else s.send (.NOTIFICATION code)

def closeAllConnections : FsmSession := { s with toSession := s.toSession.closeAllConnections }

def initiateOutgoingTcp (conn : Option UInt64) : FsmSession :=
  { s with toSession := s.toSession.initiateConnection conn }

/-- The session's timers, changed by `f`. -/
def onTimers (f : SessionTimers → SessionTimers) : FsmSession := { s with timers := f s.timers }

def startIdleHoldTimer (interval : ℕ) : FsmSession :=
  if interval = 0 then
    { s with
      toSession := s.toSession.postEvent .IDLE_HOLD_TIMER_EXPIRES
      timers := { s.timers with idleHoldTimer := none } }
  else { s with timers := { s.timers with idleHoldTimer := some interval } }

/-- The calls of `Session::onFsmTransition`: a base session tells the process. -/
def told (isChild : Bool) (src dst : FsmState) : List ProcessCall :=
  if dst = .ESTABLISHED then if !isChild then [.onSessionEstablished] else []
  else if src = .ESTABLISHED then if !isChild then [.onSessionDown] else []
  else []

def onFsmTransition (src dst : FsmState) : FsmSession :=
  { s with calls := s.calls ++ told s.multiSession.isLeft src dst }

/-- `transitionTo`: the session is told, and then the registered callback, which the constructor of
    the session sets to the same function. -/
def transitionTo (newState : FsmState) : FsmSession :=
  let src := s.state
  let s := { s with state := newState, established := decide (newState = FsmState.ESTABLISHED) }
  (s.onFsmTransition src newState).onFsmTransition src newState

/-- `resetToIdle`; `notifCode` is the notification sent, if one is. -/
def resetToIdle (notifCode : Option UInt16) : FsmSession :=
  let s := s.onTimers fun t => { t.cancelAll with connectionRetryCount := 0 }
  let s := match notifCode with
    | some code => s.sendNotification code
    | none => s
  s.closeAllConnections.transitionTo .IDLE

def startActive (conn : Option UInt64) : FsmSession :=
  let s := { s with passiveMode := false }
  let s := s.onTimers fun t => { t with connectionRetryCount := 0 }.startConnectRetry kConnectRetryInterval
  (s.initiateOutgoingTcp conn).transitionTo .CONNECT

def handleIdle (conn : Option UInt64) (event : FsmEvent) : FsmSession :=
  match event with
  | .MANUAL_START | .AUTOMATIC_START => s.startActive conn
  | .MANUAL_START_PASSIVE_TCP | .AUTOMATIC_START_PASSIVE_TCP =>
    let s := { s with passiveMode := true }
    let s := s.onTimers fun t =>
      { t with connectionRetryCount := 0 }.startConnectRetry kConnectRetryInterval
    s.transitionTo .ACTIVE
  | .AUTOMATIC_START_DAMP | .AUTOMATIC_START_DAMP_PASSIVE_TCP =>
    let secs := 5 <<< min s.timers.connectionRetryCount.toNat 4
    s.startIdleHoldTimer (if secs > 120 then 120 else secs)
  | .IDLE_HOLD_TIMER_EXPIRES => s.startActive conn
  | _ => s

def manualStop : FsmSession :=
  let s := (s.onTimers (·.cancelAll)).closeAllConnections
  (s.onTimers fun t => { t with connectionRetryCount := 0 }).transitionTo .IDLE

def sendOpenAndWait : FsmSession :=
  (s.onTimers (·.stopConnectRetry)).sendOpen.transitionTo .OPEN_SENT

def handleConnect (conn : Option UInt64) (event : FsmEvent) : FsmSession :=
  match event with
  | .MANUAL_STOP => s.manualStop
  | .CONNECTION_RETRY_TIMER_EXPIRES =>
    (s.closeAllConnections.onTimers (·.startConnectRetry kConnectRetryInterval)).initiateOutgoingTcp
      conn
  | .TCP_CONNECTION_CONFIRMED | .TCP_CR_ACKED => s.sendOpenAndWait
  | .TCP_CONNECTION_FAILS =>
    (s.closeAllConnections.onTimers (·.startConnectRetry kConnectRetryInterval)).transitionTo .ACTIVE
  | .TCP_CONNECTION_VALID | .TCP_CR_INVALID => s
  | .BGP_OPEN_DELAY_OPEN_TIMER | .BGP_OPEN =>
    let s := (s.onTimers (·.stopConnectRetry)).sendOpen.sendKeepalive
    let ht := s.holdTime
    let s := if ht ≠ 0 then s.onTimers (·.startKeepaliveTimer (ht / 3).toNat) else s
    s.transitionTo .OPEN_CONFIRMED
  | .BGP_HEADER_ERR | .BGP_OPEN_MSG_ERR => s.resetToIdle (some BGP_NOTIFICATION_FSM_OPEN_SENT)
  | .AUTOMATIC_STOP => s.resetToIdle none
  | _ => s.resetToIdle (some BGP_NOTIFICATION_FSM_OPEN_SENT)

def handleActive (conn : Option UInt64) (event : FsmEvent) : FsmSession :=
  match event with
  | .MANUAL_STOP => s.manualStop
  | .CONNECTION_RETRY_TIMER_EXPIRES =>
    ((s.onTimers (·.startConnectRetry kConnectRetryInterval)).initiateOutgoingTcp conn).transitionTo
      .CONNECT
  | .TCP_CONNECTION_CONFIRMED | .TCP_CR_ACKED => s.sendOpenAndWait
  | .TCP_CONNECTION_FAILS =>
    s.closeAllConnections.onTimers (·.startConnectRetry kConnectRetryInterval)
  | .BGP_HEADER_ERR | .BGP_OPEN_MSG_ERR => s.resetToIdle (some BGP_NOTIFICATION_FSM_OPEN_SENT)
  | .AUTOMATIC_STOP => s.resetToIdle none
  | _ => s.resetToIdle (some BGP_NOTIFICATION_FSM_OPEN_SENT)

/-- The peer's hold time is below the configured minimum. -/
def unacceptableHold : Bool :=
  match s.minimumHoldtime with
  | none => false
  | some minHt => s.holdTime ≠ 0 && s.holdTime < minHt

/-- The keepalive interval for the negotiated hold time: the configured one if it is shorter. -/
def negotiatedKeepalive (minHt : UInt16) : UInt16 :=
  if minHt = 0 then 0
  else if 0 < s.cfgKeepaliveInterval ∧ s.cfgKeepaliveInterval < minHt then s.cfgKeepaliveInterval
  else minHt / 3

/-- `handleOpenSent` with the peer's OPEN. -/
def negotiateHold : FsmSession :=
  let minHt := min s.holdTime s.cfgHoldtime
  let kaInterval := s.negotiatedKeepalive minHt
  let s := { s with holdTime := minHt, keepaliveInterval := kaInterval }
  let s := (s.onTimers (·.stopConnectRetry)).sendKeepalive
  let s :=
    if minHt ≠ 0 then
      s.onTimers fun t => (t.startHoldTimer minHt.toNat).startKeepaliveTimer kaInterval.toNat
    else s.onTimers fun t => t.stopHoldTimer.stopKeepaliveTimer
  s.transitionTo .OPEN_CONFIRMED

def handleOpenSent (event : FsmEvent) : FsmSession :=
  match event with
  | .MANUAL_STOP => s.resetToIdle (some BGP_NOTIFICATION_CEASE_ADMIN_SHUT)
  | .AUTOMATIC_STOP => s.resetToIdle (some BGP_NOTIFICATION_CEASE_ADMIN_RESET)
  | .HOLD_TIMER_EXPIRES => s.resetToIdle (some BGP_NOTIFICATION_HOLD_TIMER_EXPIRED)
  | .TCP_CONNECTION_FAILS =>
    let s := (s.onTimers (·.stopHoldTimer)).closeAllConnections
    (s.onTimers (·.startConnectRetry kConnectRetryInterval)).transitionTo .ACTIVE
  | .BGP_OPEN =>
    if s.unacceptableHold then s.resetToIdle (some BGP_NOTIFICATION_OPEN_UNACCEPTABLE_HOLD)
    else s.negotiateHold
  | .OPEN_COLLISION_DUMP => s.resetToIdle (some BGP_NOTIFICATION_CEASE_COLLISION_RESOLUTION)
  | .BGP_HEADER_ERR => s.resetToIdle (some BGP_NOTIFICATION_HEADER_BAD_MESSAGE_TYPE)
  | .BGP_OPEN_MSG_ERR => s.resetToIdle none
  | .NOTIF_MSG_VER_ERR | .NOTIF_MSG => s.resetToIdle none
  | .KEEPALIVE_MSG | .UPDATE_MSG_ERR | .UPDATE_MSG =>
    s.resetToIdle (some BGP_NOTIFICATION_FSM_OPEN_SENT)
  | _ => s.resetToIdle (some BGP_NOTIFICATION_FSM_OPEN_SENT)

/-- A second OPEN: the session goes on if it wins the collision. -/
def onCollision : FsmSession :=
  let r := s.toSession.resolveCollision s.peerRouterId
  let s := { s with toSession := r.2 }
  if r.1 then s else s.resetToIdle (some BGP_NOTIFICATION_CEASE_COLLISION_RESOLUTION)

def restartHold : FsmSession := if s.holdTime ≠ 0 then s.onTimers (·.restartHoldTimer) else s

def handleOpenConfirm (event : FsmEvent) : FsmSession :=
  match event with
  | .MANUAL_STOP => s.resetToIdle (some BGP_NOTIFICATION_CEASE_ADMIN_SHUT)
  | .AUTOMATIC_STOP => s.resetToIdle (some BGP_NOTIFICATION_CEASE_ADMIN_RESET)
  | .HOLD_TIMER_EXPIRES => s.resetToIdle (some BGP_NOTIFICATION_HOLD_TIMER_EXPIRED)
  | .KEEPALIVE_TIMER_EXPIRES => s.sendKeepalive.onTimers (·.restartKeepaliveTimer)
  | .TCP_CONNECTION_FAILS => s.resetToIdle none
  | .BGP_OPEN => s.onCollision
  | .OPEN_COLLISION_DUMP => s.resetToIdle (some BGP_NOTIFICATION_CEASE_COLLISION_RESOLUTION)
  | .BGP_HEADER_ERR => s.resetToIdle (some BGP_NOTIFICATION_HEADER_BAD_MESSAGE_TYPE)
  | .BGP_OPEN_MSG_ERR => s.resetToIdle (some BGP_NOTIFICATION_OPEN_UNSUPPORTED_PARAMETER)
  | .NOTIF_MSG_VER_ERR | .NOTIF_MSG => s.resetToIdle none
  | .KEEPALIVE_MSG => (s.restartHold.onTimers (·.stopConnectRetry)).transitionTo .ESTABLISHED
  | .UPDATE_MSG => s.resetToIdle (some BGP_NOTIFICATION_FSM_OPEN_CONFIRM)
  | .UPDATE_MSG_ERR => s.resetToIdle (some BGP_NOTIFICATION_UPDATE_MALFORMED_ATTR_LIST)
  | _ => s.resetToIdle (some BGP_NOTIFICATION_FSM_OPEN_CONFIRM)

def handleEstablished (event : FsmEvent) : FsmSession :=
  match event with
  | .MANUAL_STOP => s.resetToIdle (some BGP_NOTIFICATION_CEASE_ADMIN_SHUT)
  | .AUTOMATIC_STOP => s.resetToIdle (some BGP_NOTIFICATION_CEASE_ADMIN_RESET)
  | .HOLD_TIMER_EXPIRES => s.resetToIdle (some BGP_NOTIFICATION_HOLD_TIMER_EXPIRED)
  | .KEEPALIVE_TIMER_EXPIRES => s.sendKeepalive.onTimers (·.restartKeepaliveTimer)
  | .TCP_CONNECTION_FAILS => s.resetToIdle none
  | .BGP_OPEN => s.onCollision
  | .BGP_HEADER_ERR => s.resetToIdle (some BGP_NOTIFICATION_HEADER_BAD_MESSAGE_TYPE)
  | .BGP_OPEN_MSG_ERR => s.resetToIdle (some BGP_NOTIFICATION_FSM_ESTABLISH)
  | .NOTIF_MSG_VER_ERR | .NOTIF_MSG => s.resetToIdle none
  | .KEEPALIVE_MSG | .UPDATE_MSG => s.restartHold
  | .UPDATE_MSG_ERR => s.resetToIdle (some BGP_NOTIFICATION_UPDATE_MALFORMED_ATTR_LIST)
  | .ROUTE_REFRESH => s
  | .BFD_DOWN => s.resetToIdle (some BGP_NOTIFICATION_CEASE_BFD_DOWN)
  | .BFD_UP => s
  | .MAX_PREFIX_REACHED => s.resetToIdle (some BGP_NOTIFICATION_CEASE_MAX_PREFIXES)
  | _ => s

def processEvent (conn : Option UInt64) (event : FsmEvent) : FsmSession :=
  match s.state with
  | .IDLE => s.handleIdle conn event
  | .CONNECT => s.handleConnect conn event
  | .ACTIVE => s.handleActive conn event
  | .OPEN_SENT => s.handleOpenSent event
  | .OPEN_CONFIRMED => s.handleOpenConfirm event
  | .ESTABLISHED => s.handleEstablished event

end FsmSession

/-- An input of a session: an event, with what `tcp.connect` would return; an OPEN that
    `processOpen` accepts; a connection from the peer. -/
inductive FsmInput where
  | event (event : FsmEvent) (conn : Option UInt64)
  | processOpen (peerHold : UInt16) (peerRid : UInt32)
  | acceptConnection (conn : UInt64)
  deriving DecidableEq, Repr

def FsmSession.step (s : FsmSession) : FsmInput → FsmSession
  | .event event conn => s.processEvent conn event
  | .processOpen peerHold peerRid =>
    { s with
      toSession :=
        { s.toSession with holdTime := peerHold, peerRouterId := peerRid }.onOpenReceived }
  | .acceptConnection conn => { s with toSession := s.toSession.acceptConnection conn }

end VirtualRouter.Bgp
