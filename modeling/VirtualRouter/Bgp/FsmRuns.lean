/-
  Runs of the state machine of a session: the hold timer, and the calls that
  tell the process that the session is up or down.

  The machine arms the hold timer on the way from OPEN_SENT to OPEN_CONFIRMED
  only.  It enters OPEN_SENT without one, and so it does OPEN_CONFIRMED when
  the peer's OPEN is handled in CONNECT.

  * `holdTimerSafe_iff`: the runs in which the hold timer guards every state
    that needs one, and every OPEN_CONFIRMED is entered with the negotiated
    times;
  * `notificationsExact_iff`: the runs in which the process is told once about
    every session that comes up or goes down.
-/
import VirtualRouter.Lib.Run
import VirtualRouter.Bgp.FsmOutcome

namespace VirtualRouter.Bgp

open Run

namespace FsmSession

/-! ## The hold timer -/

structure HoldSafe (s : FsmSession) : Prop where
  openSent : s.state = .OPEN_SENT → s.timers.holdTimer.isSome
  confirmed : s.state = .OPEN_CONFIRMED ∨ s.state = .ESTABLISHED → s.holdTime ≠ 0 →
    s.timers.holdTimer.isSome

/-- A session, with the hold time of the last OPEN accepted from the peer. -/
structure Watched where
  session : FsmSession
  peerHold : Option UInt16 := none

def Watched.step (w : Watched) (i : FsmInput) : Watched where
  session := w.session.step i
  peerHold := match i with
    | .processOpen peerHold _ => some peerHold
    | _ => w.peerHold

def EntersNegotiated (w : Watched) (i : FsmInput) : Prop :=
  w.session.state ≠ .OPEN_CONFIRMED → (w.session.step i).state = .OPEN_CONFIRMED →
    (∀ peer, w.peerHold = some peer →
      (w.session.step i).holdTime = min peer w.session.cfgHoldtime) ∧
    ((w.session.step i).holdTime ≠ 0 →
      (w.session.step i).keepaliveInterval < (w.session.step i).holdTime)

/-- An input is handled as it should be. -/
def HoldTimerSafe (w : Watched) (i : FsmInput) : Prop :=
  HoldSafe (w.session.step i) ∧ EntersNegotiated w i

def KeepsHoldTimer (s : FsmSession) : FsmInput → Prop
  | .event event _ =>
    (s.state = .CONNECT ∨ s.state = .ACTIVE →
      event ≠ .TCP_CONNECTION_CONFIRMED ∧ event ≠ .TCP_CR_ACKED) ∧
    (s.state = .CONNECT → event = .BGP_OPEN ∨ event = .BGP_OPEN_DELAY_OPEN_TIMER → s.holdTime = 0)
  | .processOpen peerHold _ =>
    s.state = .OPEN_CONFIRMED ∨ s.state = .ESTABLISHED → peerHold ≠ 0 → s.timers.holdTimer.isSome
  | .acceptConnection _ => True

theorem HoldTimerKept.isSome {s s' : FsmSession} (h : HoldTimerKept s s')
    (hs : s.timers.holdTimer.isSome) : s'.timers.holdTimer.isSome := by
  rcases h with h | h
  · rw [h]
    exact hs
  · exact h.2.2

theorem beforeOpen_ne {s : FsmSession} (h : BeforeOpen s.state) :
    s.state ≠ .OPEN_SENT ∧ s.state ≠ .OPEN_CONFIRMED ∧ s.state ≠ .ESTABLISHED := by
  rcases h with h | h | h <;> rw [h] <;> decide

theorem HoldSafe.of_beforeOpen {s : FsmSession} (h : BeforeOpen s.state) : HoldSafe s := by
  obtain ⟨h₁, h₂, h₃⟩ := beforeOpen_ne h
  exact ⟨fun h => absurd h h₁, fun h => absurd h (not_or.2 ⟨h₂, h₃⟩)⟩

/-- **The hold timer over one event**: nothing but the excluded inputs loses it. -/
theorem HoldSafe.processEvent {s : FsmSession} {event : FsmEvent} {conn : Option UInt64}
    (hs : HoldSafe s) (hi : KeepsHoldTimer s (.event event conn)) :
    HoldSafe (s.processEvent conn event) := by
  rcases (effect_processEvent s event conn).outcome with
    ⟨hst, hht, htm⟩ | ⟨_, hdst, _⟩ | ⟨_, hst, _, _⟩ | ⟨hsrc, hev, _, _⟩ | ⟨_, hst, _, _⟩ |
    ⟨hsrc, hev, hst, hold⟩ | ⟨_, _, hst, _, _, htm⟩ | ⟨hsrc, _, hst, hht, htm⟩
  · refine ⟨fun h => ?_, fun h h0 => ?_⟩
    · exact htm.isSome (hs.openSent (hst ▸ h))
    · exact htm.isSome (hs.confirmed (hst ▸ h) (hht ▸ h0))
  · exact .of_beforeOpen hdst
  · exact .of_beforeOpen (Or.inl hst)
  · exact absurd hev (not_or.2 (hi.1 hsrc))
  · exact .of_beforeOpen (Or.inr (Or.inr hst))
  · have h0 := hi.2 hsrc hev
    refine ⟨fun h => ?_, fun _ hne => absurd (hold.holdTime.trans h0) hne⟩
    rw [hst] at h
    cases h
  · refine ⟨fun h => ?_, fun _ h0 => htm h0⟩
    rw [hst] at h
    cases h
  · refine ⟨fun h => ?_, fun _ h0 => htm.isSome (hs.confirmed (Or.inl hsrc) (hht ▸ h0))⟩
    rw [hst] at h
    cases h

theorem HoldSafe.step {s : FsmSession} {i : FsmInput} (hs : HoldSafe s) (hi : KeepsHoldTimer s i) :
    HoldSafe (s.step i) := by
  cases i with
  | event event conn => exact hs.processEvent hi
  | processOpen peerHold peerRid => exact ⟨hs.openSent, hi⟩
  | acceptConnection conn => exact ⟨hs.openSent, hs.confirmed⟩

theorem step_cfgHoldtime (s : FsmSession) (i : FsmInput) : (s.step i).cfgHoldtime = s.cfgHoldtime := by
  cases i with
  | event event conn => exact (effect_processEvent s event conn).frame.cfgHoldtime
  | processOpen | acceptConnection => rfl

theorem holdTime_min_idem (a b : UInt16) : min (min a b) b = min a b := by
  show (if (if a ≤ b then a else b) ≤ b then (if a ≤ b then a else b) else b) = if a ≤ b then a else b
  split_ifs <;> simp_all

def HoldsPeer (w : Watched) : Prop :=
  ∀ peer, w.peerHold = some peer →
    w.session.holdTime = peer ∨ w.session.holdTime = min peer w.session.cfgHoldtime

theorem HoldsPeer.processEvent {w : Watched} (hw : HoldsPeer w) (event : FsmEvent)
    (conn : Option UInt64) : HoldsPeer (w.step (.event event conn)) := by
  intro peer hpeer
  have hcfg := step_cfgHoldtime w.session (.event event conn)
  have hsame : (w.session.processEvent conn event).holdTime = w.session.holdTime →
      (w.step (.event event conn)).session.holdTime = peer ∨
        (w.step (.event event conn)).session.holdTime =
          min peer (w.step (.event event conn)).session.cfgHoldtime := by
    intro h
    rcases hw peer hpeer with hp | hp
    · exact Or.inl (h.trans hp)
    · exact Or.inr ((h.trans hp).trans (congrArg _ hcfg.symm))
  rcases (effect_processEvent w.session event conn).outcome with
    ⟨_, hht, _⟩ | ⟨_, _, hold⟩ | ⟨_, _, hht, _⟩ | ⟨_, _, _, hold⟩ | ⟨_, _, hht, _⟩ |
    ⟨_, _, _, hold⟩ | ⟨_, _, _, hht, _, _⟩ | ⟨_, _, _, hht, _⟩
  · exact hsame hht
  · exact hsame hold.holdTime
  · exact hsame hht
  · exact hsame hold.holdTime
  · exact hsame hht
  · exact hsame hold.holdTime
  · -- negotiating again what was negotiated changes nothing
    right
    rcases hw peer hpeer with hp | hp
    · exact hht.trans ((congrArg (min · _) hp).trans (congrArg _ hcfg.symm))
    · exact hht.trans ((congrArg (min · _) hp).trans
        ((holdTime_min_idem _ _).trans (congrArg _ hcfg.symm)))
  · exact hsame hht

theorem HoldsPeer.step {w : Watched} (hw : HoldsPeer w) (i : FsmInput) : HoldsPeer (w.step i) := by
  cases i with
  | event event conn => exact hw.processEvent event conn
  | processOpen peerHold peerRid =>
    intro peer hpeer
    exact Or.inl (Option.some.inj hpeer)
  | acceptConnection conn => exact hw

theorem entersNegotiated {w : Watched} (hw : HoldsPeer w) {i : FsmInput}
    (hi : KeepsHoldTimer w.session i) : EntersNegotiated w i := by
  intro hsrc hdst
  cases i with
  | processOpen | acceptConnection => exact absurd hdst hsrc
  | event event conn =>
    rcases (effect_processEvent w.session event conn).outcome with
      ⟨hst, _, _⟩ | ⟨_, hbefore, _⟩ | ⟨_, hst, _, _⟩ | ⟨_, _, hst, _⟩ | ⟨_, hst, _, _⟩ |
      ⟨hcon, hev, _, hold⟩ | ⟨_, _, _, hht, hka, _⟩ | ⟨_, _, hst, _, _⟩
    · exact absurd (hst.symm.trans hdst) hsrc
    · exact absurd hdst (beforeOpen_ne hbefore).2.1
    · exact absurd (hst.symm.trans hdst) (by decide)
    · exact absurd (hst.symm.trans hdst) (by decide)
    · exact absurd (hst.symm.trans hdst) (by decide)
    · have h0 : w.session.holdTime = 0 := hi.2 hcon hev
      have hzero : (w.session.step (.event event conn)).holdTime = 0 := hold.holdTime.trans h0
      refine ⟨fun peer hpeer => ?_, fun hne => absurd hzero hne⟩
      rw [hzero]
      rcases hw peer hpeer with hp | hp
      · rw [← hp, h0]
        exact (if_pos UInt16.zero_le).symm
      · rw [← hp, h0]
    · refine ⟨fun peer hpeer => ?_, hka⟩
      rcases hw peer hpeer with hp | hp
      · exact hht.trans (congrArg (min · _) hp)
      · exact hht.trans ((congrArg (min · _) hp).trans (holdTime_min_idem _ _))
    · exact absurd (hst.symm.trans hdst) (by decide)

/-! ### Runs that are handled as they should be -/

/-- What a run without an unguarded state keeps: no OPEN has been sent, and no hold timer runs. -/
structure NeverArmed (s : FsmSession) : Prop where
  state : s.state ≠ .OPEN_SENT
  holdTimer : s.timers.holdTimer = none
  holdTime : s.state = .OPEN_CONFIRMED ∨ s.state = .ESTABLISHED → s.holdTime = 0

theorem NeverArmed.of_beforeOpen {s : FsmSession} (h : BeforeOpen s.state)
    (htm : s.timers.holdTimer = none) : NeverArmed s := by
  obtain ⟨h₁, h₂, h₃⟩ := beforeOpen_ne h
  exact ⟨h₁, htm, fun h => absurd h (not_or.2 ⟨h₂, h₃⟩)⟩

theorem HoldSafe.holdTime_eq_zero {s : FsmSession} (hs : HoldSafe s) (htm : s.timers.holdTimer = none)
    (hst : s.state = .OPEN_CONFIRMED ∨ s.state = .ESTABLISHED) : s.holdTime = 0 := by
  by_contra h0
  have harmed := hs.confirmed hst h0
  rw [htm] at harmed
  cases harmed

theorem NeverArmed.processEvent {s : FsmSession} {event : FsmEvent} {conn : Option UInt64}
    (hs : NeverArmed s) (hsafe : HoldSafe (s.processEvent conn event)) :
    NeverArmed (s.processEvent conn event) := by
  have hkept : ∀ {s' : FsmSession}, HoldTimerKept s s' → s'.timers.holdTimer = none := by
    rintro s' (h | ⟨hst, h0, _⟩)
    · exact h.trans hs.holdTimer
    · exact absurd (hs.holdTime hst) h0
  rcases (effect_processEvent s event conn).outcome with
    ⟨hst, hht, htm⟩ | ⟨_, hdst, hold⟩ | ⟨_, hst, _, htm⟩ | ⟨_, _, hst, hold⟩ | ⟨hsrc, _, _, _⟩ |
    ⟨_, _, hst, hold⟩ | ⟨hsrc, _, _, _, _, _⟩ | ⟨hsrc, _, hst, hht, htm⟩
  · exact ⟨hst ▸ hs.state, hkept htm, fun h => hht.trans (hs.holdTime (hst ▸ h))⟩
  · exact .of_beforeOpen hdst (hold.holdTimer.trans hs.holdTimer)
  · exact .of_beforeOpen (Or.inl hst) htm
  · have harmed := hsafe.openSent hst
    rw [hold.holdTimer, hs.holdTimer] at harmed
    cases harmed
  · exact absurd hsrc hs.state
  · have htm := hold.holdTimer.trans hs.holdTimer
    exact ⟨by rw [hst]; decide, htm, fun h => hsafe.holdTime_eq_zero htm h⟩
  · exact absurd hsrc hs.state
  · exact ⟨by rw [hst]; decide, hkept htm, fun h => hsafe.holdTime_eq_zero (hkept htm) h⟩

theorem NeverArmed.step {s : FsmSession} {i : FsmInput} (hs : NeverArmed s)
    (hsafe : HoldSafe (s.step i)) : NeverArmed (s.step i) := by
  cases i with
  | event event conn => exact hs.processEvent hsafe
  | processOpen peerHold peerRid =>
    exact ⟨hs.state, hs.holdTimer, fun h => hsafe.holdTime_eq_zero hs.holdTimer h⟩
  | acceptConnection conn => exact ⟨hs.state, hs.holdTimer, hs.holdTime⟩

theorem processEvent_connected {s : FsmSession} {event : FsmEvent} (conn : Option UInt64)
    (hs : s.state = .CONNECT ∨ s.state = .ACTIVE)
    (he : event = .TCP_CONNECTION_CONFIRMED ∨ event = .TCP_CR_ACKED) :
    s.processEvent conn event = s.sendOpenAndWait := by
  rcases hs with hs | hs <;> rcases he with rfl | rfl <;>
    simp only [processEvent, hs, handleConnect, handleActive]

theorem processEvent_openInConnect {s : FsmSession} {event : FsmEvent} (conn : Option UInt64)
    (hs : s.state = .CONNECT) (he : event = .BGP_OPEN ∨ event = .BGP_OPEN_DELAY_OPEN_TIMER) :
    (s.processEvent conn event).state = .OPEN_CONFIRMED ∧
      SameHold s (s.processEvent conn event) := by
  have heq : s.processEvent conn event = s.handleConnect conn .BGP_OPEN := by
    rcases he with rfl | rfl <;> simp only [processEvent, hs, handleConnect]
  rw [heq]
  refine ⟨rfl, ?_⟩
  simp only [handleConnect]
  split_ifs
  · exact ⟨rfl, rfl⟩
  · exact ⟨rfl, rfl⟩

theorem NeverArmed.keepsHoldTimer {s : FsmSession} {i : FsmInput} (hs : NeverArmed s)
    (hsafe : HoldSafe (s.step i)) : KeepsHoldTimer s i := by
  cases i with
  | acceptConnection => trivial
  | processOpen peerHold peerRid => exact hsafe.confirmed
  | event event conn =>
    constructor
    · intro hsrc
      by_contra hev
      have hev : event = .TCP_CONNECTION_CONFIRMED ∨ event = .TCP_CR_ACKED := by tauto
      have hsent : s.step (.event event conn) = s.sendOpenAndWait :=
        processEvent_connected conn hsrc hev
      rw [hsent] at hsafe
      have harmed : s.timers.holdTimer.isSome := hsafe.openSent rfl
      rw [hs.holdTimer] at harmed
      cases harmed
    · intro hsrc hev
      obtain ⟨hst, hold⟩ := processEvent_openInConnect conn hsrc hev
      rw [← hold.holdTime]
      exact hsafe.holdTime_eq_zero (hold.holdTimer.trans hs.holdTimer) (Or.inl hst)

/-- **The hold timer guards a run iff** no step finds a connection up in CONNECT or ACTIVE, the
    peer's hold time is zero for an OPEN that is handled in CONNECT, and a later OPEN gives a session
    without hold timer no hold time. -/
theorem holdTimerSafe_iff (base : Session) (cfgHoldtime cfgKeepaliveInterval : UInt16)
    (inputs : List FsmInput) :
    Along HoldTimerSafe Watched.step ⟨new base cfgHoldtime cfgKeepaliveInterval, none⟩ inputs ↔
      Along (fun w i => KeepsHoldTimer w.session i) Watched.step
        ⟨new base cfgHoldtime cfgKeepaliveInterval, none⟩ inputs := by
  constructor
  · refine Along.imp_of_invariant (I := fun w => NeverArmed w.session) ?_ ?_ ?_
    · intro w i hw hi
      exact hw.step hi.1
    · intro w i hw hi
      exact hw.keepsHoldTimer hi.1
    · exact .of_beforeOpen (Or.inl rfl) rfl
  · refine Along.imp_of_invariant (I := fun w => HoldSafe w.session ∧ HoldsPeer w) ?_ ?_ ?_
    · intro w i hw hi
      exact ⟨hw.1.step hi, hw.2.step i⟩
    · intro w i hw hi
      exact ⟨hw.1.step hi, entersNegotiated hw.2 hi⟩
    · exact ⟨.of_beforeOpen (Or.inl rfl), fun peer h => nomatch h⟩

/-- A connection that comes up in CONNECT waits for the peer's OPEN without a hold timer. -/
theorem not_holdTimerSafe_connected :
    ¬ Along HoldTimerSafe Watched.step ⟨new {} 180 60, none⟩
      [.event .MANUAL_START (some 1), .event .TCP_CR_ACKED none] := by
  intro h
  have harmed := h.2.1.1.openSent rfl
  cases harmed

/-! ## Telling the process -/

def entries (s : FsmSession) : List FsmInput → ℕ
  | [] => 0
  | i :: is =>
    (if s.state ≠ .ESTABLISHED ∧ (s.step i).state = .ESTABLISHED then 1 else 0) + entries (s.step i) is

def exits (s : FsmSession) : List FsmInput → ℕ
  | [] => 0
  | i :: is =>
    (if s.state = .ESTABLISHED ∧ (s.step i).state ≠ .ESTABLISHED then 1 else 0) + exits (s.step i) is

/-- The calls alternate, beginning with `next`. -/
def Alternates : ProcessCall → List ProcessCall → Prop
  | _, [] => True
  | .onSessionEstablished, c :: cs => c = .onSessionEstablished ∧ Alternates .onSessionDown cs
  | .onSessionDown, c :: cs => c = .onSessionDown ∧ Alternates .onSessionEstablished cs

/-- The process is told once about every session that comes up or goes down, in turn. -/
structure NotificationsExact (s : FsmSession) (inputs : List FsmInput) : Prop where
  alternate : Alternates .onSessionEstablished (runFrom step s inputs).calls
  established : (runFrom step s inputs).calls.count .onSessionEstablished = entries s inputs
  down : (runFrom step s inputs).calls.count .onSessionDown = exits s inputs

/-- The input does not bring the session up. -/
def StaysDown (s : FsmSession) (i : FsmInput) : Prop :=
  ¬ (s.state = .OPEN_CONFIRMED ∧ ∃ conn, i = .event .KEEPALIVE_MSG conn)

theorem frame_step (s : FsmSession) (i : FsmInput) : Frame s (s.step i) := by
  cases i with
  | event event conn => exact (effect_processEvent s event conn).frame
  | processOpen | acceptConnection => exact Frame.of_eq s rfl rfl rfl rfl

theorem count_established_step {s : FsmSession} (hbase : s.multiSession.isLeft = false)
    (i : FsmInput) : (s.step i).calls.count .onSessionEstablished =
      s.calls.count .onSessionEstablished +
        2 * if s.state ≠ .ESTABLISHED ∧ (s.step i).state = .ESTABLISHED then 1 else 0 := by
  rw [(frame_step s i).calls, List.count_append, hbase]
  congr 1
  by_cases hsame : (s.step i).state = s.state
  · rw [if_pos hsame, if_neg (fun h => h.1 (hsame ▸ h.2))]
    rfl
  · rw [if_neg hsame, List.count_append, ← two_mul]
    congr 1
    by_cases hup : (s.step i).state = .ESTABLISHED
    · rw [if_pos ⟨fun h => hsame (hup.trans h.symm), hup⟩]
      simp [told, hup]
    · rw [if_neg (fun h => hup h.2)]
      by_cases hdown : s.state = .ESTABLISHED
      · simp [told, hup, hdown]
      · simp [told, hup, hdown]

theorem step_isBase {s : FsmSession} (hbase : s.multiSession.isLeft = false) (i : FsmInput) :
    (s.step i).multiSession.isLeft = false := by
  rw [(frame_step s i).multiSession]
  exact hbase

theorem count_established_run : ∀ (inputs : List FsmInput) {s : FsmSession},
    s.multiSession.isLeft = false →
      (runFrom step s inputs).calls.count .onSessionEstablished =
        s.calls.count .onSessionEstablished + 2 * entries s inputs
  | [], s, _ => by simp [entries]
  | i :: is, s, hbase => by
    rw [runFrom_cons, count_established_run is (step_isBase hbase i), count_established_step hbase,
      entries, Nat.mul_add, Nat.add_assoc]

theorem processEvent_keepalive {s : FsmSession} (hs : s.state = .OPEN_CONFIRMED)
    (conn : Option UInt64) : (s.processEvent conn .KEEPALIVE_MSG).state = .ESTABLISHED := by
  simp only [processEvent, hs, handleOpenConfirm]
  rfl

theorem StaysDown.state {s : FsmSession} {i : FsmInput} (h : StaysDown s i)
    (hs : s.state ≠ .ESTABLISHED) : (s.step i).state ≠ .ESTABLISHED := by
  cases i with
  | processOpen | acceptConnection => exact hs
  | event event conn =>
    intro hup
    rcases (effect_processEvent s event conn).outcome with
      ⟨hst, _, _⟩ | ⟨_, hdst, _⟩ | ⟨_, hst, _, _⟩ | ⟨_, _, hst, _⟩ | ⟨_, hst, _, _⟩ |
      ⟨_, _, hst, _⟩ | ⟨_, _, hst, _, _, _⟩ | ⟨hsrc, rfl, _, _, _⟩
    · exact hs (hst.symm.trans hup)
    · exact (beforeOpen_ne hdst).2.2 hup
    · exact absurd (hst.symm.trans hup) (by decide)
    · exact absurd (hst.symm.trans hup) (by decide)
    · exact absurd (hst.symm.trans hup) (by decide)
    · exact absurd (hst.symm.trans hup) (by decide)
    · exact absurd (hst.symm.trans hup) (by decide)
    · exact h ⟨hsrc, conn, rfl⟩

theorem staysDown_of_entries : ∀ (inputs : List FsmInput) {s : FsmSession},
    s.state ≠ .ESTABLISHED → entries s inputs = 0 → Along StaysDown step s inputs
  | [], _, _, _ => trivial
  | i :: is, s, hs, h => by
    rw [entries, Nat.add_eq_zero_iff] at h
    have hdown : (s.step i).state ≠ .ESTABLISHED := by
      intro hup
      rw [if_pos ⟨hs, hup⟩] at h
      exact absurd h.1 one_ne_zero
    refine ⟨?_, staysDown_of_entries is hdown h.2⟩
    rintro ⟨hc, conn, rfl⟩
    exact hdown (processEvent_keepalive hc conn)

theorem silent_of_staysDown : ∀ (inputs : List FsmInput) {s : FsmSession},
    s.state ≠ .ESTABLISHED → Along StaysDown step s inputs →
      (runFrom step s inputs).calls = s.calls ∧ entries s inputs = 0 ∧ exits s inputs = 0
  | [], _, _, _ => ⟨rfl, rfl, rfl⟩
  | i :: is, s, hs, h => by
    have hdown := h.1.state hs
    obtain ⟨hcalls, hentries, hexits⟩ := silent_of_staysDown is hdown h.2
    have htold : (s.step i).calls = s.calls := by
      rw [(frame_step s i).calls]
      split_ifs
      · exact List.append_nil _
      · simp [told, hs, hdown]
    refine ⟨hcalls.trans htold, ?_, ?_⟩
    · rw [entries, hentries, if_neg (fun h => hdown h.2)]
    · rw [exits, hexits, if_neg (fun h => hs h.1)]

/-- **The process is told once about each change iff the session never comes up**: every entry into
    ESTABLISHED is reported twice. -/
theorem notificationsExact_iff (base : Session) (cfgHoldtime cfgKeepaliveInterval : UInt16)
    (inputs : List FsmInput) :
    NotificationsExact (new base cfgHoldtime cfgKeepaliveInterval) inputs ↔
      Along StaysDown step (new base cfgHoldtime cfgKeepaliveInterval) inputs := by
  have hs : (new base cfgHoldtime cfgKeepaliveInterval).state ≠ .ESTABLISHED := by
    intro h
    cases h
  constructor
  · intro h
    have hcount := count_established_run inputs
      (s := new base cfgHoldtime cfgKeepaliveInterval) rfl
    rw [h.established] at hcount
    have hnil : (new base cfgHoldtime cfgKeepaliveInterval).calls.count .onSessionEstablished = 0 := rfl
    exact staysDown_of_entries inputs hs (by omega)
  · intro h
    obtain ⟨hcalls, hentries, hexits⟩ := silent_of_staysDown inputs hs h
    have hnil : (runFrom step (new base cfgHoldtime cfgKeepaliveInterval) inputs).calls = [] := hcalls
    exact ⟨by rw [hnil]; trivial, by rw [hnil, hentries]; rfl, by rw [hnil, hexits]; rfl⟩

/-- The process is told twice about a session that comes up once. -/
theorem not_notificationsExact_established :
    ¬ NotificationsExact (new {} 180 60)
      [.event .MANUAL_START (some 1), .event .TCP_CR_ACKED none, .processOpen 90 7,
        .event .BGP_OPEN none, .event .KEEPALIVE_MSG none] := by
  intro h
  have hcount := h.established
  revert hcount
  decide

end FsmSession

end VirtualRouter.Bgp
