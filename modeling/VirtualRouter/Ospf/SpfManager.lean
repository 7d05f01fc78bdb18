/-
  When SPF runs (`ospf/spf/SpfManager.cpp`).

  A request posts a callback behind a delay that doubles up to a bound and
  respects the hold time since the last run; requests made while a callback is
  pending join it, and requests made by the run itself post the next one.  The
  callers and the callback are tasks of the process's queue, so a handler runs
  alone; the clock moves between its readings by any amount, and the queue may
  refuse a post, or drop the callback when it is full at that moment (`Call.posted`).

  `no_request_lost`: every request has its callback, exactly as long as no post
  is refused; `no_run_after_refusal`: after a refused post SPF never runs again.
  `runs_apart`: the hold time lies between two runs, whatever is requested when.
  `served_within`: a callback is due after the longest of the three delays at the latest.
-/
import VirtualRouter.Lib.Run

namespace VirtualRouter.Ospf

open Run

/-- The configured delays, in milliseconds. -/
structure SpfThrottle where
  delay : UInt32
  hold : UInt32
  maxHold : UInt32

/-- Times are in nanoseconds; 0 is the clock's epoch, a run that was never made. -/
structure SpfManager where
  requested : Bool := false
  spfScheduled : Bool := false
  spfRunning : Bool := false
  reschedule : Bool := false
  lastSpfTime : ℕ := 0
  currentDelayMs : UInt32 := 0
  deriving DecidableEq

def ofMillis (ms : UInt32) : ℕ := ms.toNat * 1000000

/-- The manager with the callbacks it has posted, by deadline, and the runs made, the last first,
    with the times of start and end. -/
structure SpfTimeline where
  clock : ℕ
  mgr : SpfManager := {}
  timers : List ℕ := []
  runs : List (ℕ × ℕ) := []
  deriving DecidableEq

/-- What one call finds: the time that passes before each of its readings of the clock, and whether
    the queue takes its post. -/
structure Call where
  delayRead : ℕ
  postRead : ℕ
  posted : Bool

namespace SpfTimeline

variable (cfg : SpfThrottle)

def wait (δ : ℕ) (s : SpfTimeline) : SpfTimeline := { s with clock := s.clock + δ }

/-- `computeNextDelay`, the backoff: `prev * 2` wraps. -/
def backoff (prev : UInt32) : UInt32 :=
  if prev = 0 then cfg.delay else min (prev * 2) cfg.maxHold

/-- `computeNextDelay`, what is left of the hold time. -/
def holdRemaining (now last : ℕ) : UInt32 :=
  if last ≠ 0 then
    let elapsed := (now - last) / 1000000
    if elapsed < cfg.hold.toNat then UInt32.ofNat (cfg.hold.toNat - elapsed) else 0
  else 0

def computeNextDelay (now : ℕ) (m : SpfManager) : UInt32 × SpfManager :=
  let backoff := backoff cfg m.currentDelayMs
  (max backoff (holdRemaining cfg now m.lastSpfTime), { m with currentDelayMs := backoff })

/-- The flag is set before the post, and stays set when the post is refused. -/
def scheduleSpf (delayMs : UInt32) (posted : Bool) (s : SpfTimeline) : SpfTimeline :=
  if s.mgr.spfScheduled then s
  else
    { s with
      mgr := { s.mgr with spfScheduled := true }
      timers := if posted then s.timers ++ [s.clock + ofMillis delayMs] else s.timers }

/-- The delay is computed at one reading of the clock, the deadline at the next. -/
def computeAndSchedule (call : Call) (s : SpfTimeline) : SpfTimeline :=
  let s := s.wait call.delayRead
  let (next, mgr) := computeNextDelay cfg s.clock s.mgr
  ({ s with mgr }.wait call.postRead).scheduleSpf next call.posted

def requestSpf (call : Call) (s : SpfTimeline) : SpfTimeline :=
  let s := { s with mgr := { s.mgr with requested := true } }
  if s.mgr.spfRunning then { s with mgr := { s.mgr with reschedule := true } }
  else if s.mgr.spfScheduled then s
  else s.computeAndSchedule cfg call

/-- `runSpf`, as the manager sees it: it takes time, and what it changes may request SPF again. -/
def runSpf (duration : ℕ) (nested : List Call) (s : SpfTimeline) : SpfTimeline :=
  (nested.foldl (fun s call => s.requestSpf cfg call) s).wait duration

def onSpfTimer (duration : ℕ) (nested : List Call) (call : Call) (s : SpfTimeline) : SpfTimeline :=
  let s := { s with mgr := { s.mgr with spfScheduled := false } }
  if s.mgr.spfRunning then s
  else
    let start := s.clock
    let s := { s with mgr := { s.mgr with spfRunning := true, requested := false } }
    let s := s.runSpf cfg duration nested
    let s := { s with
      mgr := { s.mgr with lastSpfTime := s.clock, spfRunning := false }
      runs := (start, s.clock) :: s.runs }
    if s.mgr.reschedule then
      ({ s with mgr := { s.mgr with reschedule := false } }).computeAndSchedule cfg call
    else { s with mgr := { s.mgr with currentDelayMs := 0 } }

/-- Time passes, SPF is requested, or a pending callback runs. -/
inductive Event where
  | wait (δ : ℕ)
  | request (call : Call)
  | timer (i duration : ℕ) (nested : List Call) (call : Call)

/-- A callback does not run before its deadline. -/
def step (s : SpfTimeline) : Event → SpfTimeline
  | .wait δ => s.wait δ
  | .request call => s.requestSpf cfg call
  | .timer i duration nested call =>
    match s.timers[i]? with
    | none => s
    | some deadline =>
      if deadline ≤ s.clock then
        { s with timers := s.timers.eraseIdx i }.onSpfTimer cfg duration nested call
      else s

/-- Between two tasks nothing runs, and at most one callback is pending, under the flag. -/
structure Sound (s : SpfTimeline) : Prop where
  running : s.mgr.spfRunning = false
  reschedule : s.mgr.reschedule = false
  timers : s.timers = [] ∨ s.mgr.spfScheduled = true ∧ ∃ deadline, s.timers = [deadline]

variable {cfg}

/-! ### The delay -/

theorem toNat_min (a b : UInt32) : (min a b).toNat = min a.toNat b.toNat := by
  simp only [min]
  split <;> simp_all [UInt32.le_iff_toNat_le]

theorem toNat_max (a b : UInt32) : (max a b).toNat = max a.toNat b.toNat := by
  simp only [max]
  split <;> simp_all [UInt32.le_iff_toNat_le]

def longest (cfg : SpfThrottle) : ℕ := ofMillis (max cfg.delay (max cfg.hold cfg.maxHold))

theorem holdRemaining_le (cfg : SpfThrottle) (now last : ℕ) :
    (holdRemaining cfg now last).toNat ≤ cfg.hold.toNat := by
  rw [holdRemaining]
  split
  · dsimp only
    split
    · rw [UInt32.toNat_ofNat']
      exact (Nat.mod_le _ _).trans (Nat.sub_le _ _)
    · exact Nat.zero_le _
  · exact Nat.zero_le _

theorem hold_le_holdRemaining {now last : ℕ} (hlast : last ≠ 0) (hle : last ≤ now) :
    last + ofMillis cfg.hold ≤ now + ofMillis (holdRemaining cfg now last) := by
  have hlt := cfg.hold.toNat_lt
  rw [holdRemaining, if_pos hlast]
  dsimp only [ofMillis]
  split
  · rw [UInt32.toNat_ofNat', Nat.mod_eq_of_lt (by omega)]
    omega
  · rw [UInt32.toNat_zero]
    omega

theorem backoff_le (cfg : SpfThrottle) (prev : UInt32) :
    (backoff cfg prev).toNat ≤ max cfg.delay.toNat cfg.maxHold.toNat := by
  rw [backoff]
  split
  · exact le_max_left _ _
  · rw [toNat_min]
    exact (min_le_right _ _).trans (le_max_right _ _)

theorem computeNextDelay_le_longest (now : ℕ) (m : SpfManager) :
    ofMillis (computeNextDelay cfg now m).1 ≤ longest cfg := by
  have hbackoff := backoff_le cfg m.currentDelayMs
  have hhold := holdRemaining_le cfg now m.lastSpfTime
  rw [computeNextDelay, longest, ofMillis, ofMillis, toNat_max, toNat_max, toNat_max]
  exact Nat.mul_le_mul_right _ (by omega)

theorem hold_le_computeNextDelay {now : ℕ} {m : SpfManager} (hlast : m.lastSpfTime ≠ 0)
    (hle : m.lastSpfTime ≤ now) :
    m.lastSpfTime + ofMillis cfg.hold ≤ now + ofMillis (computeNextDelay cfg now m).1 := by
  refine (hold_le_holdRemaining hlast hle).trans (Nat.add_le_add_left ?_ _)
  rw [computeNextDelay, ofMillis, ofMillis, toNat_max]
  exact Nat.mul_le_mul_right _ (le_max_right _ _)

/-! ### What each call does -/

theorem computeAndSchedule_eq (cfg : SpfThrottle) {s : SpfTimeline} (call : Call) (h : s.mgr.spfScheduled = false) :
    ∃ (b : UInt32) (deadline : ℕ),
      s.computeAndSchedule cfg call =
        { s with
          clock := s.clock + call.delayRead + call.postRead
          mgr := { s.mgr with spfScheduled := true, currentDelayMs := b }
          timers := if call.posted then s.timers ++ [deadline] else s.timers } ∧
      deadline ≤ s.clock + call.delayRead + call.postRead + longest cfg ∧
      (s.mgr.lastSpfTime ≠ 0 → s.mgr.lastSpfTime ≤ s.clock →
        s.mgr.lastSpfTime + ofMillis cfg.hold ≤ deadline) := by
  refine ⟨backoff cfg s.mgr.currentDelayMs, s.clock + call.delayRead + call.postRead +
    ofMillis (computeNextDelay cfg (s.clock + call.delayRead) s.mgr).1, ?_, ?_, ?_⟩
  · simp [computeAndSchedule, scheduleSpf, wait, computeNextDelay, h]
  · exact Nat.add_le_add_left (computeNextDelay_le_longest _ s.mgr) _
  · intro hlast hle
    refine (hold_le_computeNextDelay hlast (hle.trans (Nat.le_add_right _ call.delayRead))).trans ?_
    exact Nat.add_le_add_right (Nat.le_add_right _ _) _

theorem runSpf_eq {s : SpfTimeline} (duration : ℕ) (nested : List Call)
    (h : s.mgr.spfRunning = true) :
    s.runSpf cfg duration nested =
      { s with
        clock := s.clock + duration
        mgr := { s.mgr with
          requested := s.mgr.requested || !nested.isEmpty
          reschedule := s.mgr.reschedule || !nested.isEmpty } } := by
  rw [runSpf]
  induction nested generalizing s with
  | nil => simp [wait]
  | cons call nested ih =>
    rw [List.foldl_cons, ih (by simp [requestSpf, h])]
    simp [requestSpf, h]

/-- The state a run of SPF leaves, before it posts the next callback; `again`, when it was requested
    meanwhile. -/
def ran (duration : ℕ) (again : Bool) (s : SpfTimeline) : SpfTimeline where
  clock := s.clock + duration
  mgr := { s.mgr with
    requested := again, spfScheduled := false, lastSpfTime := s.clock + duration }
  timers := []
  runs := (s.clock, s.clock + duration) :: s.runs

def ask (s : SpfTimeline) : SpfTimeline := { s with mgr := { s.mgr with requested := true } }

def rest (s : SpfTimeline) : SpfTimeline := { s with mgr := { s.mgr with currentDelayMs := 0 } }

theorem Sound.timer {s : SpfTimeline} (hs : s.Sound) {i deadline : ℕ}
    (hget : s.timers[i]? = some deadline) : s.timers = [deadline] ∧ i = 0 := by
  rcases hs.timers with h | ⟨-, d, h⟩
  · rw [h] at hget
    cases hget
  · rw [h] at hget ⊢
    cases i with
    | zero => simpa using hget
    | succ i => simp at hget

theorem Sound.timers_eq_nil {s : SpfTimeline} (hs : s.Sound) (h : s.mgr.spfScheduled = false) :
    s.timers = [] :=
  hs.timers.resolve_right fun h' => by simp [h] at h'

theorem step_request {s : SpfTimeline} (hs : s.Sound) (call : Call) :
    step cfg s (.request call) =
      if s.mgr.spfScheduled then s.ask else s.ask.computeAndSchedule cfg call := by
  simp [step, requestSpf, ask, hs.running]

theorem step_timer {s : SpfTimeline} (hs : s.Sound) {i deadline duration : ℕ} {nested : List Call}
    {call : Call} (hget : s.timers[i]? = some deadline) (hdue : deadline ≤ s.clock) :
    step cfg s (.timer i duration nested call) =
      if nested = [] then (s.ran duration false).rest
      else (s.ran duration true).computeAndSchedule cfg call := by
  obtain ⟨htimers, rfl⟩ := hs.timer hget
  simp only [step, hget, if_pos hdue, onSpfTimer, hs.running, Bool.false_eq_true, if_false]
  rw [runSpf_eq _ _ rfl]
  cases nested with
  | nil => simp [ran, rest, htimers, hs.running, hs.reschedule]
  | cons c nested => simp [ran, htimers, hs.running, hs.reschedule]

theorem step_timer_idle {s : SpfTimeline} {i duration : ℕ} {nested : List Call} {call : Call}
    (h : ¬ ∃ deadline, s.timers[i]? = some deadline ∧ deadline ≤ s.clock) :
    step cfg s (.timer i duration nested call) = s := by
  simp only [step]
  split
  · rfl
  · next deadline hget => rw [if_neg fun hdue => h ⟨deadline, hget, hdue⟩]

def Posted (s : SpfTimeline) : Event → Prop
  | .wait _ => True
  | .request call => s.mgr.spfScheduled = false → call.posted = true
  | .timer i _ nested call =>
    (∃ deadline, s.timers[i]? = some deadline ∧ deadline ≤ s.clock) → nested ≠ [] →
      call.posted = true

/-- What a step does: it posts nothing and runs nothing, it posts the first callback, or it runs SPF
    and may post the next. -/
inductive Stepped (cfg : SpfThrottle) (s : SpfTimeline) (e : Event) : SpfTimeline → Prop
  | idle (δ : ℕ) (hposted : s.Posted e) : Stepped cfg s e (s.wait δ)
  | joined (h : s.mgr.spfScheduled = true) (hposted : s.Posted e) : Stepped cfg s e s.ask
  | first (call : Call) (h : s.mgr.spfScheduled = false)
      (hposted : s.Posted e ↔ call.posted = true) :
      Stepped cfg s e (s.ask.computeAndSchedule cfg call)
  | last (deadline duration : ℕ) (h : s.timers = [deadline]) (hdue : deadline ≤ s.clock)
      (hposted : s.Posted e) : Stepped cfg s e (s.ran duration false).rest
  | again (deadline duration : ℕ) (call : Call) (h : s.timers = [deadline])
      (hdue : deadline ≤ s.clock) (hposted : s.Posted e ↔ call.posted = true) :
      Stepped cfg s e ((s.ran duration true).computeAndSchedule cfg call)

theorem stepped (cfg : SpfThrottle) {s : SpfTimeline} (hs : s.Sound) (e : Event) :
    Stepped cfg s e (step cfg s e) := by
  cases e with
  | wait δ => exact .idle δ trivial
  | request call =>
    rw [step_request hs]
    cases h : s.mgr.spfScheduled with
    | true => exact .joined h fun h' => by simp [h] at h'
    | false => exact .first call h (by simp [Posted, h])
  | timer i duration nested call =>
    by_cases hdue : ∃ deadline, s.timers[i]? = some deadline ∧ deadline ≤ s.clock
    · obtain ⟨deadline, hget, hle⟩ := hdue
      obtain ⟨htimers, -⟩ := hs.timer hget
      have hfires : ∃ d, s.timers[i]? = some d ∧ d ≤ s.clock := ⟨deadline, hget, hle⟩
      rw [step_timer hs hget hle]
      split
      · next hnil => exact .last deadline duration htimers hle fun _ h => absurd hnil h
      · next hnil =>
        exact .again deadline duration call htimers hle
          ⟨fun h => h hfires hnil, fun h _ _ => h⟩
    · rw [step_timer_idle hdue]
      exact .idle 0 fun h => absurd h hdue

theorem pending_posted {timers : List ℕ} (h : timers = []) {posted : Bool} {deadline : ℕ} :
    (if posted then timers ++ [deadline] else timers) = [] ∨
      true = true ∧ ∃ d, (if posted then timers ++ [deadline] else timers) = [d] := by
  cases posted with
  | false => exact .inl h
  | true => exact .inr ⟨rfl, deadline, by simp [h]⟩

theorem Stepped.sound {s s' : SpfTimeline} {e : Event} (h : Stepped cfg s e s') (hs : s.Sound) :
    s'.Sound := by
  cases h with
  | idle => exact ⟨hs.running, hs.reschedule, hs.timers⟩
  | joined => exact ⟨hs.running, hs.reschedule, hs.timers⟩
  | first call h =>
    obtain ⟨b, deadline, heq, -, -⟩ := computeAndSchedule_eq cfg (s := s.ask) call h
    rw [heq]
    exact ⟨hs.running, hs.reschedule, pending_posted (hs.timers_eq_nil h)⟩
  | last => exact ⟨hs.running, hs.reschedule, .inl rfl⟩
  | again deadline duration call =>
    obtain ⟨b, deadline, heq, -, -⟩ := computeAndSchedule_eq cfg (s := s.ran duration true) call rfl
    rw [heq]
    exact ⟨hs.running, hs.reschedule, pending_posted rfl⟩

/-! ### Every request has its callback -/

/-- No request is without a callback. -/
def Served (s : SpfTimeline) : Prop := s.mgr.requested = true → s.timers ≠ []

/-- The flags say what is pending. -/
structure Armed (s : SpfTimeline) : Prop extends Sound s where
  served : s.Served
  scheduled : s.mgr.spfScheduled = true → s.timers ≠ []

/-- A callback is on the way, says the flag, and none is. -/
structure Stuck (s : SpfTimeline) : Prop extends Sound s where
  scheduled : s.mgr.spfScheduled = true
  none_pending : s.timers = []

theorem armed_computeAndSchedule {s : SpfTimeline} {call : Call} (h : s.mgr.spfScheduled = false)
    (hs : (s.computeAndSchedule cfg call).Sound) (hposted : call.posted = true) :
    (s.computeAndSchedule cfg call).Armed := by
  obtain ⟨b, deadline, heq, -, -⟩ := computeAndSchedule_eq cfg call h
  have hpending : (s.computeAndSchedule cfg call).timers ≠ [] := by simp [heq, hposted]
  exact ⟨hs, fun _ => hpending, fun _ => hpending⟩

theorem stuck_computeAndSchedule {s : SpfTimeline} {call : Call} (h : s.mgr.spfScheduled = false)
    (hs : (s.computeAndSchedule cfg call).Sound) (htimers : s.timers = [])
    (hrequested : s.mgr.requested = true) (hposted : ¬ call.posted = true) :
    (s.computeAndSchedule cfg call).Stuck ∧
      (s.computeAndSchedule cfg call).mgr.requested = true := by
  obtain ⟨b, deadline, heq, -, -⟩ := computeAndSchedule_eq cfg call h
  rw [heq] at hs ⊢
  exact ⟨⟨hs, rfl, by simp [hposted, htimers]⟩, hrequested⟩

theorem Stepped.armed {s s' : SpfTimeline} {e : Event} (h : Stepped cfg s e s') (hs : s.Armed)
    (he : s.Posted e) : s'.Armed := by
  have hsound := h.sound hs.toSound
  cases h with
  | idle => exact ⟨hsound, hs.served, hs.scheduled⟩
  | joined hflag => exact ⟨hsound, fun _ => hs.scheduled hflag, hs.scheduled⟩
  | first call hflag hposted => exact armed_computeAndSchedule hflag hsound (hposted.1 he)
  | last => exact ⟨hsound, by simp [Served, rest, ran], by simp [rest, ran]⟩
  | again _ _ call _ _ hposted => exact armed_computeAndSchedule rfl hsound (hposted.1 he)

/-- A refused post leaves the flag set, and nothing to clear it. -/
theorem Stepped.refused {s s' : SpfTimeline} {e : Event} (h : Stepped cfg s e s') (hs : s.Armed)
    (he : ¬ s.Posted e) : s'.Stuck ∧ s'.mgr.requested = true := by
  have hsound := h.sound hs.toSound
  cases h with
  | idle _ hposted => exact absurd hposted he
  | joined _ hposted => exact absurd hposted he
  | first call hflag hposted =>
    exact stuck_computeAndSchedule hflag hsound (hs.timers_eq_nil hflag) rfl (he ∘ hposted.2)
  | last _ _ _ _ hposted => exact absurd hposted he
  | again _ _ call _ _ hposted =>
    exact stuck_computeAndSchedule rfl hsound rfl rfl (he ∘ hposted.2)

theorem Stepped.stuck {s s' : SpfTimeline} {e : Event} (h : Stepped cfg s e s') (hs : s.Stuck) :
    s'.Stuck ∧ s'.runs = s.runs := by
  have hsound := h.sound hs.toSound
  cases h with
  | idle => exact ⟨⟨hsound, hs.scheduled, hs.none_pending⟩, rfl⟩
  | joined => exact ⟨⟨hsound, hs.scheduled, hs.none_pending⟩, rfl⟩
  | first call hflag => simp [hs.scheduled] at hflag
  | last _ _ h => simp [hs.none_pending] at h
  | again _ _ _ h => simp [hs.none_pending] at h

def start (boot : ℕ) : SpfTimeline := { clock := boot }

theorem armed_start (boot : ℕ) : (start boot).Armed :=
  ⟨⟨rfl, rfl, .inl rfl⟩, by simp [Served, start], by simp [start]⟩

theorem Stuck.runFrom {s : SpfTimeline} (hs : s.Stuck) (es : List Event) :
    (runFrom (step cfg) s es).runs = s.runs := by
  induction es generalizing s with
  | nil => rfl
  | cons e es ih =>
    obtain ⟨hstuck, hruns⟩ := (stepped cfg hs.toSound e).stuck hs
    rw [runFrom_cons, ih hstuck, hruns]

theorem Armed.stuck_of_refused {s : SpfTimeline} (hs : s.Armed) {es : List Event}
    (h : ¬ Along Posted (step cfg) s es) : (Run.runFrom (step cfg) s es).Stuck := by
  induction es using List.reverseRecOn with
  | nil => exact absurd trivial h
  | append_singleton es e ih =>
    rw [along_concat] at h
    rw [runFrom_concat]
    by_cases hes : Along Posted (step cfg) s es
    · have harmed : (Run.runFrom (step cfg) s es).Armed :=
        Along.invariant (I := Armed) (fun s e hs he => (stepped cfg hs.toSound e).armed hs he) hs hes
      exact ((stepped cfg harmed.toSound e).refused harmed fun he => h ⟨hes, he⟩).1
    · have hstuck := ih hes
      exact ((stepped cfg hstuck.toSound e).stuck hstuck).1

/-- **No request is lost**, in any order of requests, runs and waits, exactly as long as the queue
    refuses no post. -/
theorem no_request_lost (boot : ℕ) (es : List Event) :
    Along Posted (step cfg) (start boot) es ↔
      ∀ ps, ps <+: es → (Run.runFrom (step cfg) (start boot) ps).Served :=
  Along.iff_everywhere (I := Armed) (F := fun _ _ => True)
    (fun _ e hs _ he => (stepped cfg hs.toSound e).armed hs he) (fun _ hs => hs.served)
    (fun _ e hs _ he hserved =>
      let ⟨hstuck, hrequested⟩ := (stepped cfg hs.toSound e).refused hs he
      hserved hrequested hstuck.none_pending)
    (armed_start boot) (Along.of_forall fun _ _ => trivial)

/-- **After a refused post SPF never runs again**, whatever is requested and whatever the queue
    takes from then on. -/
theorem no_run_after_refusal (boot : ℕ) (es fs : List Event)
    (h : ¬ Along Posted (step cfg) (start boot) es) :
    (Run.runFrom (step cfg) (start boot) (es ++ fs)).runs =
      (Run.runFrom (step cfg) (start boot) es).runs := by
  rw [runFrom_append]
  exact ((armed_start boot).stuck_of_refused h).runFrom fs

def defaultThrottle : SpfThrottle := ⟨5000, 10000, 10000⟩

theorem no_run_after_refusal_request :
    (runFrom (step defaultThrottle) (start 1)
      ([.request ⟨0, 0, false⟩] ++ [.wait 5000000000, .request ⟨0, 0, true⟩])).runs = [] :=
  no_run_after_refusal 1 _ _ (by simp [Along, Posted, start])

/-! ### Runs are apart, and callbacks are due in time -/

/-- `later` starts the hold time after `earlier` has ended. -/
def Apart (cfg : SpfThrottle) (later earlier : ℕ × ℕ) : Prop :=
  earlier.2 + ofMillis cfg.hold ≤ later.1

/-- The runs are apart, and so is the pending callback from the last of them. -/
structure Paced (cfg : SpfThrottle) (s : SpfTimeline) : Prop extends Sound s where
  last : ∀ r ∈ s.runs.head?, s.mgr.lastSpfTime = r.2
  ended : ∀ r ∈ s.runs, 0 < r.2 ∧ r.2 ≤ s.clock
  clock_pos : 0 < s.clock
  apart : s.runs.IsChain (Apart cfg)
  due : ∀ deadline ∈ s.timers, deadline ≤ s.clock + longest cfg ∧
    ∀ r ∈ s.runs.head?, r.2 + ofMillis cfg.hold ≤ deadline

theorem Paced.computeAndSchedule {s : SpfTimeline} (hs : s.Paced cfg)
    (h : s.mgr.spfScheduled = false) (call : Call)
    (hsound : (s.computeAndSchedule cfg call).Sound) :
    (s.computeAndSchedule cfg call).Paced cfg := by
  have htimers := hs.timers_eq_nil h
  obtain ⟨b, deadline, heq, hle, hhold⟩ := computeAndSchedule_eq cfg call h
  rw [heq] at hsound ⊢
  refine ⟨hsound, hs.last, fun r hr => ?_, ?_, hs.apart, fun d hd => ?_⟩
  · obtain ⟨hpos, hclock⟩ := hs.ended r hr
    exact ⟨hpos, by dsimp only; omega⟩
  · have := hs.clock_pos
    dsimp only
    omega
  · have hd : d = deadline := by
      cases hposted : call.posted <;> simp_all
    subst hd
    refine ⟨hle, fun r hr => ?_⟩
    have hlast := hs.last r hr
    obtain ⟨hpos, hclock⟩ := hs.ended r (List.mem_of_mem_head? hr)
    rw [← hlast]
    exact hhold (by omega) (by omega)

theorem Paced.wait {s : SpfTimeline} (hs : s.Paced cfg) (δ : ℕ) : (s.wait δ).Paced cfg where
  running := hs.running
  reschedule := hs.reschedule
  timers := hs.timers
  last := hs.last
  ended r hr := ⟨(hs.ended r hr).1, (hs.ended r hr).2.trans (Nat.le_add_right ..)⟩
  clock_pos := Nat.add_pos_left hs.clock_pos δ
  apart := hs.apart
  due deadline hd :=
    ⟨(hs.due deadline hd).1.trans (Nat.add_le_add_right (Nat.le_add_right ..) _),
      (hs.due deadline hd).2⟩

theorem Paced.ask {s : SpfTimeline} (hs : s.Paced cfg) : s.ask.Paced cfg :=
  ⟨⟨hs.running, hs.reschedule, hs.timers⟩, hs.last, hs.ended, hs.clock_pos, hs.apart, hs.due⟩

/-- A run starts no earlier than its callback was due. -/
theorem Paced.ran {s : SpfTimeline} (hs : s.Paced cfg) {deadline : ℕ} (h : s.timers = [deadline])
    (hdue : deadline ≤ s.clock) (duration : ℕ) (again : Bool) :
    (s.ran duration again).Paced cfg where
  running := hs.running
  reschedule := hs.reschedule
  timers := .inl rfl
  last := by simp [SpfTimeline.ran]
  ended r hr := by
    have hpos := hs.clock_pos
    rcases List.mem_cons.1 hr with rfl | hr
    · simp only [SpfTimeline.ran]
      omega
    · obtain ⟨hrpos, hclock⟩ := hs.ended r hr
      exact ⟨hrpos, hclock.trans (Nat.le_add_right ..)⟩
  clock_pos := Nat.add_pos_left hs.clock_pos duration
  apart := by
    refine List.isChain_cons.2 ⟨fun r hr => ?_, hs.apart⟩
    exact ((hs.due deadline (by simp [h])).2 r hr).trans hdue
  due d hd := by simp [SpfTimeline.ran] at hd

theorem Stepped.paced {s s' : SpfTimeline} {e : Event} (h : Stepped cfg s e s') (hs : s.Paced cfg) :
    s'.Paced cfg := by
  have hsound := h.sound hs.toSound
  cases h with
  | idle δ => exact hs.wait δ
  | joined => exact hs.ask
  | first call hflag => exact hs.ask.computeAndSchedule hflag call hsound
  | last deadline duration h hdue =>
    have hran := hs.ran h hdue duration false
    exact ⟨hsound, hran.last, hran.ended, hran.clock_pos, hran.apart, hran.due⟩
  | again deadline duration call h hdue =>
    exact (hs.ran h hdue duration true).computeAndSchedule rfl call hsound

theorem paced_runFrom {boot : ℕ} (hboot : 0 < boot) (es : List Event) :
    (runFrom (step cfg) (start boot) es).Paced cfg :=
  Along.invariant (I := Paced cfg) (C := fun _ _ => True)
    (fun _ e hs _ => (stepped cfg hs.toSound e).paced hs)
    ⟨(armed_start boot).toSound, by simp [start], by simp [start], hboot, by simp [start],
      by simp [start]⟩
    (Along.of_forall fun _ _ => trivial)

/-- **The hold time lies between two runs**: however requests, waits and callbacks follow each
    other and whatever is posted, a run starts the hold time after the one before it has ended. -/
theorem runs_apart {boot : ℕ} (hboot : 0 < boot) (es : List Event) :
    (runFrom (step cfg) (start boot) es).runs.IsChain fun later earlier =>
      earlier.2 + ofMillis cfg.hold ≤ later.1 :=
  (paced_runFrom hboot es).apart

def requestTwice : List Event :=
  [.request ⟨0, 0, true⟩, .wait 5000000000, .timer 0 7 [⟨0, 0, true⟩] ⟨0, 0, true⟩,
    .wait 10000000000, .timer 0 7 [] ⟨0, 0, true⟩]

theorem runs_apart_requestTwice :
    (runFrom (step defaultThrottle) (start 1) requestTwice).runs.length = 2 ∧
      (runFrom (step defaultThrottle) (start 1) requestTwice).runs.IsChain fun later earlier =>
        earlier.2 + ofMillis defaultThrottle.hold ≤ later.1 :=
  ⟨by decide, runs_apart Nat.one_pos requestTwice⟩

/-- **Requests are served in time**: where the queue refuses no post, SPF runs as soon as the longest
    of the three delays has passed since the request, unless it ran before. -/
theorem served_within {boot : ℕ} (hboot : 0 < boot) {es : List Event}
    (hes : Along Posted (step cfg) (start boot) es)
    (h : (runFrom (step cfg) (start boot) es).mgr.requested = true) {δ : ℕ} (hδ : longest cfg ≤ δ)
    (duration : ℕ) (nested : List Call) (call : Call) :
    let s := runFrom (step cfg) (start boot) es
    (runFrom (step cfg) s [.wait δ, .timer 0 duration nested call]).runs =
      (s.clock + δ, s.clock + δ + duration) :: s.runs := by
  intro s
  have hpaced : s.Paced cfg := paced_runFrom hboot es
  have harmed : s.Armed := Along.invariant (I := Armed)
    (fun _ e hs he => (stepped cfg hs.toSound e).armed hs he) (armed_start boot) hes
  obtain ⟨deadline, htimers⟩ : ∃ deadline, s.timers = [deadline] :=
    (harmed.timers.resolve_left (harmed.served h)).2
  have hdue := (hpaced.due deadline (by simp [htimers])).1
  have hget : (s.wait δ).timers[0]? = some deadline := by simp [wait, htimers]
  rw [runFrom_cons, runFrom_cons, runFrom_nil]
  change (step cfg (s.wait δ) _).runs = _
  rw [step_timer (hpaced.wait δ).toSound hget (by simp only [wait]; omega)]
  split
  · rfl
  · obtain ⟨b, d, heq, -, -⟩ :=
      computeAndSchedule_eq cfg (s := (s.wait δ).ran duration true) call rfl
    rw [heq]
    rfl

theorem served_within_request :
    (runFrom (step defaultThrottle) (runFrom (step defaultThrottle) (start 1) [.request ⟨0, 0, true⟩])
      [.wait 10000000000, .timer 0 7 [] ⟨0, 0, true⟩]).runs = [(10000000001, 10000000008)] :=
  served_within Nat.one_pos (by simp [Along, Posted]) (by decide)
    (by decide) 7 [] ⟨0, 0, true⟩

end SpfTimeline

end VirtualRouter.Ospf
