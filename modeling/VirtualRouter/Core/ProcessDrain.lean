/-
  Who drains a process queue (`ControlScheduler::post`, `drainProcessQueue` and
  the closing of `destroyProcessQueue`, `core/ControlScheduler.cpp`).

  A post puts its task in and then sets the `scheduled` word; the one who finds
  it clear hands a drain to the pool.  A drain takes tasks in turn from the
  subqueues, clears the word when it finds none, and looks once more.  Agents
  are the posts, the closings and the drains in progress, and go from one
  access of the shared state to the next, interleaved in any order; the
  subqueues are the bounded queues of `SubQueue`, whose tasks are put in by one
  access and seen from the next one on: they move as the ring does
  (`sub_queueStep`), and whether it has room is part of the event.  What a closing
  waits for before it frees the queue is left out.

  `one_drain`: at most one agent takes tasks to run, so tasks never overlap.
  `no_lost_task`: a task that can be seen has an agent, or a drain in the pool,
  on its way to it.  `all_run_in_order`: when nobody is at work every task has
  been run, those of a subqueue in the order they were put in, unless the queue
  was closed.
-/
import VirtualRouter.Core.SubQueue

namespace VirtualRouter.Core

open Run

/-- Where an agent is: the access it makes next.  `rr` is the subqueue a drain tries first. -/
inductive Stage (α : Type) where
  | idle
  | emplace (sub : ℕ) (task : α)
  | publish (sub : ℕ)
  | exchange
  | enqueue
  | closing (sub : ℕ)
  | readClosed (rr : ℕ)
  | take (rr : ℕ) (run : Bool) (tried : ℕ)
  | run (rr : ℕ) (run : Bool) (sub : ℕ) (task : α)
  | afterTask (rr : ℕ) (run : Bool)
  | unschedule (rr : ℕ)
  | checkClosed (rr : ℕ)
  | discard (sub : ℕ)
  | look (rr : ℕ) (sub : ℕ)
  | reclaim (rr : ℕ)
  deriving DecidableEq

namespace Stage

variable {α : Type}

/-- The agent has set the word: it will hand a drain to the pool, or is the drain. -/
def holds : Stage α → Bool
  | .enqueue | .readClosed _ | .take .. | .run .. | .afterTask .. | .unschedule _ => true
  | _ => false

/-- The agent has not looked at subqueue `i` yet, or has seen a task and goes for the word. -/
def watches (i : ℕ) : Stage α → Bool
  | .exchange | .checkClosed _ | .reclaim _ => true
  | .look _ j | .discard j => j ≤ i
  | _ => false

/-- The task taken and not yet run, with its subqueue. -/
def inHand : Stage α → List (ℕ × α)
  | .run _ _ i task => [(i, task)]
  | _ => []

/-- A drain that found the queue closed, and takes tasks only to drop them. -/
def drops : Stage α → Bool
  | .take _ go _ | .run _ go _ _ | .afterTask _ go => !go
  | .discard _ => true
  | _ => false

/-- The task that the agent puts in subqueue `i` next. -/
def offered (i : ℕ) : Stage α → Option α
  | .emplace j task => if j = i then some task else none
  | _ => none

theorem holds_of_inHand {stage : Stage α} (h : stage.inHand ≠ []) : stage.holds = true := by
  cases stage <;> simp_all [inHand, holds]

end Stage

/-- A task in a subqueue, who put it there, and whether its slot's word is stored. -/
structure Posted (α : Type) where
  agent : ℕ
  task : α
  visible : Bool
  deriving DecidableEq

/-- The shared state of a process queue, with the drains handed to the pool and the agents.  `put` are
    the tasks put in a subqueue so far, and `ran` those run so far, with their subqueues. -/
structure DrainState (α : Type) where
  closed : Bool := false
  scheduled : Bool := false
  sub : ℕ → List (Posted α) := fun _ => []
  jobs : ℕ := 0
  agents : ℕ → Stage α := fun _ => .idle
  put : ℕ → List α := fun _ => []
  ran : List (ℕ × α) := []

namespace DrainState

variable {α : Type}

def setStage (a : ℕ) (stage : Stage α) (s : DrainState α) : DrainState α :=
  { s with agents := Function.update s.agents a stage }

def setSub (i : ℕ) (tasks : List (Posted α)) (s : DrainState α) : DrainState α :=
  { s with sub := Function.update s.sub i tasks }

/-- A task is put in, and cannot be seen yet. -/
def add (i : ℕ) (p : Posted α) (s : DrainState α) : DrainState α :=
  { s with
    sub := Function.update s.sub i (s.sub i ++ [p])
    put := Function.update s.put i (s.put i ++ [p.task]) }

/-- The tasks that agent `a` has put in subqueue `i` can be seen. -/
def reveal (i a : ℕ) (s : DrainState α) : DrainState α :=
  s.setSub i ((s.sub i).map fun p => if p.agent = a then { p with visible := true } else p)

def hasItem (s : DrainState α) (i : ℕ) : Bool :=
  match s.sub i with
  | [] => false
  | p :: _ => p.visible

/-- The next access of agent `a`, for `n` subqueues; `ok` says whether the ring or the pool has
    room. -/
def advance (n a : ℕ) (ok : Bool) (s : DrainState α) : DrainState α :=
  match s.agents a with
  | .idle => s
  | .emplace i task =>
    if ok then (s.add i ⟨a, task, false⟩).setStage a (.publish i)
    else s.setStage a .idle
  | .publish i => (s.reveal i a).setStage a .exchange
  | .exchange =>
    if s.scheduled then s.setStage a .idle
    else { s with scheduled := true }.setStage a .enqueue
  | .enqueue => if ok then { s with jobs := s.jobs + 1 }.setStage a .idle else s
  | .closing i =>
    if i < n then
      if s.hasItem i then s.setStage a .exchange else s.setStage a (.closing (i + 1))
    else s.setStage a .idle
  | .readClosed rr => s.setStage a (.take rr (!s.closed) 0)
  | .take rr run tried =>
    if tried < n then
      let i := if rr + tried < n then rr + tried else rr + tried - n
      match s.sub i with
      | p :: tasks =>
        if p.visible then
          (s.setSub i tasks).setStage a (.run (if i + 1 = n then 0 else i + 1) run i p.task)
        else s.setStage a (.take rr run (tried + 1))
      | [] => s.setStage a (.take rr run (tried + 1))
    else s.setStage a (.unschedule rr)
  | .run rr run i task =>
    { s with ran := if run then s.ran ++ [(i, task)] else s.ran }.setStage a (.afterTask rr run)
  | .afterTask rr run =>
    if s.closed then s.setStage a (.unschedule rr) else s.setStage a (.take rr run 0)
  | .unschedule rr => { s with scheduled := false }.setStage a (.checkClosed rr)
  | .checkClosed rr =>
    if s.closed then s.setStage a (.discard 0) else s.setStage a (.look rr 0)
  | .discard i =>
    if i < n then
      match s.sub i with
      | p :: tasks =>
        if p.visible then s.setSub i tasks else s.setStage a (.discard (i + 1))
      | [] => s.setStage a (.discard (i + 1))
    else s.setStage a .idle
  | .look rr i =>
    if i < n then
      if s.hasItem i then s.setStage a (.reclaim rr) else s.setStage a (.look rr (i + 1))
    else s.setStage a .idle
  | .reclaim rr =>
    if s.scheduled then s.setStage a .idle
    else { s with scheduled := true }.setStage a (.readClosed rr)

/-- An agent starts a post, a closing or a drain from the pool, or makes its next access. -/
inductive Event (α : Type) where
  | post (a sub : ℕ) (task : α)
  | close (a : ℕ) (self : Bool)
  | drain (a : ℕ)
  | advance (a : ℕ) (ok : Bool)

/-- A post to a closed queue is refused; one that has passed the check goes on.  A task that closes
    its own queue leaves the rest to its drain. -/
def step (n : ℕ) (s : DrainState α) : Event α → DrainState α
  | .post a i task =>
    match s.agents a with
    | .idle => if s.closed = false ∧ i < n then s.setStage a (.emplace i task) else s
    | _ => s
  | .close a self =>
    match s.agents a with
    | .idle => { s with closed := true }.setStage a (if self then .idle else .closing 0)
    | _ => s
  | .drain a =>
    match s.agents a with
    | .idle => if 0 < s.jobs then { s with jobs := s.jobs - 1 }.setStage a (.readClosed 0) else s
    | _ => s
  | .advance a ok => s.advance n a ok

/-- What agent `a` has done to the state by its access.  Where it only moves on (`moves`) it holds the
    word and has a task in hand as before, and it turns from a subqueue with a task to be seen only
    when the word is set. -/
inductive Access (n : ℕ) (s : DrainState α) (a : ℕ) : DrainState α → Prop
  | stays : Access n s a s
  | moves {old stage : Stage α} (hstage : s.agents a = old)
      (hsame : stage.holds = old.holds ∧ stage.inHand = old.inHand)
      (hdrops : s.closed = false → old.drops = false → stage.drops = false)
      (hpub : ∀ i, old ≠ .publish i)
      (hwatches : ∀ i < n, s.hasItem i = true → old.watches i = true →
        s.scheduled = true ∨ stage.watches i = true) :
      Access n s a (s.setStage a stage)
  | adds {i : ℕ} {task : α} (hstage : s.agents a = .emplace i task) :
      Access n s a ((s.add i ⟨a, task, false⟩).setStage a (.publish i))
  | reveals {i : ℕ} (hstage : s.agents a = .publish i) :
      Access n s a ((s.reveal i a).setStage a .exchange)
  | sets {stage : Stage α} (hclear : s.scheduled = false) (hholds : stage.holds = true)
      (hhand : stage.inHand = (s.agents a).inHand) (hdrops : stage.drops = false)
      (hpub : ∀ i, s.agents a ≠ .publish i) :
      Access n s a ({ s with scheduled := true }.setStage a stage)
  | submits (hstage : s.agents a = .enqueue) :
      Access n s a ({ s with jobs := s.jobs + 1 }.setStage a .idle)
  | starts (hstage : s.agents a = .idle) (hjob : 0 < s.jobs) :
      Access n s a ({ s with jobs := s.jobs - 1 }.setStage a (.readClosed 0))
  | takes {rr rr' i tried : ℕ} {run : Bool} {p : Posted α} {tasks : List (Posted α)}
      (hstage : s.agents a = .take rr run tried) (hsub : s.sub i = p :: tasks) :
      Access n s a ((s.setSub i tasks).setStage a (.run rr' run i p.task))
  | runs {rr i : ℕ} {run : Bool} {task : α} (hstage : s.agents a = .run rr run i task) :
      Access n s a ({ s with ran := if run then s.ran ++ [(i, task)] else s.ran }.setStage a
        (.afterTask rr run))
  | clears {rr : ℕ} (hstage : s.agents a = .unschedule rr) :
      Access n s a ({ s with scheduled := false }.setStage a (.checkClosed rr))
  | discards {i : ℕ} {p : Posted α} {tasks : List (Posted α)} (hstage : s.agents a = .discard i)
      (hsub : s.sub i = p :: tasks) :
      Access n s a (s.setSub i tasks)

theorem hasItem_of_cons {s : DrainState α} {i : ℕ} {p : Posted α} {tasks : List (Posted α)}
    (h : s.sub i = p :: tasks) : s.hasItem i = p.visible := by
  simp [hasItem, h]

/-- An agent passes subqueue `i`, which has no task to be seen, and still looks at those behind it. -/
theorem passes {s : DrainState α} {n i : ℕ} (stage : Stage α) (hno : s.hasItem i = false)
    (hstage : ∀ j, i < j → stage.watches j = true) :
    ∀ j < n, s.hasItem j = true → i ≤ j → s.scheduled = true ∨ stage.watches j = true := by
  intro j _ hitem hij
  have hne : i ≠ j := fun heq => by simp [← heq, hno] at hitem
  exact .inr (hstage j (by omega))

theorem advance_access (n a : ℕ) (ok : Bool) (s : DrainState α) :
    s.Access n a (s.advance n a ok) := by
  rw [advance]
  cases hstage : s.agents a with
  | idle => exact .stays
  | emplace i task =>
    dsimp only
    split
    · exact .adds hstage
    · exact .moves hstage ⟨rfl, rfl⟩ (fun _ _ => rfl) (by simp) (by simp [Stage.watches])
  | publish i => exact .reveals hstage
  | exchange =>
    dsimp only
    split
    · next hset => exact .moves hstage ⟨rfl, rfl⟩ (fun _ _ => rfl) (by simp) (by simp [hset])
    · next hclear =>
      exact .sets (by simpa using hclear) rfl (by rw [hstage]; rfl) rfl (by simp [hstage])
  | enqueue =>
    dsimp only
    split
    · exact .submits hstage
    · exact .stays
  | closing i =>
    dsimp only
    split_ifs <;>
      exact .moves hstage ⟨rfl, rfl⟩ (fun _ _ => rfl) (by simp) (by simp [Stage.watches])
  | readClosed rr =>
    exact .moves hstage ⟨rfl, rfl⟩ (fun hopen _ => by simp [Stage.drops, hopen]) (by simp)
      (by simp [Stage.watches])
  | take rr run tried =>
    dsimp only
    generalize (if rr + tried < n then rr + tried else rr + tried - n) = i
    split
    · split
      · next p tasks hsub =>
        split
        · exact .takes hstage hsub
        · exact .moves hstage ⟨rfl, rfl⟩ (fun _ => id) (by simp) (by simp [Stage.watches])
      · exact .moves hstage ⟨rfl, rfl⟩ (fun _ => id) (by simp) (by simp [Stage.watches])
    · exact .moves hstage ⟨rfl, rfl⟩ (fun _ _ => rfl) (by simp) (by simp [Stage.watches])
  | run rr run i task => exact .runs hstage
  | afterTask rr run =>
    dsimp only
    split
    · exact .moves hstage ⟨rfl, rfl⟩ (fun _ _ => rfl) (by simp) (by simp [Stage.watches])
    · exact .moves hstage ⟨rfl, rfl⟩ (fun _ => id) (by simp) (by simp [Stage.watches])
  | unschedule rr => exact .clears hstage
  | checkClosed rr =>
    dsimp only
    split
    · next hclosed =>
      exact .moves hstage ⟨rfl, rfl⟩ (fun hopen => by simp [hopen] at hclosed) (by simp)
        (by simp [Stage.watches])
    · exact .moves hstage ⟨rfl, rfl⟩ (fun _ _ => rfl) (by simp) (by simp [Stage.watches])
  | discard i =>
    dsimp only
    split
    · split
      · next p tasks hsub =>
        split
        · exact .discards hstage hsub
        · next hhidden =>
          exact .moves hstage ⟨rfl, rfl⟩ (fun _ => id) (by simp) (by
            simpa [Stage.watches] using passes (.discard (i + 1))
              ((hasItem_of_cons hsub).trans (by simpa using hhidden)) (by simp [Stage.watches]))
      · next hsub =>
        exact .moves hstage ⟨rfl, rfl⟩ (fun _ => id) (by simp) (by
          simpa [Stage.watches] using passes (s := s) (.discard (i + 1))
            (by simp [hasItem, hsub]) (by simp [Stage.watches]))
    · exact .moves hstage ⟨rfl, rfl⟩ (fun _ _ => rfl) (by simp) (by simp [Stage.watches]; omega)
  | look rr i =>
    dsimp only
    split
    · split
      · exact .moves hstage ⟨rfl, rfl⟩ (fun _ _ => rfl) (by simp) (by simp [Stage.watches])
      · next hno =>
        exact .moves hstage ⟨rfl, rfl⟩ (fun _ _ => rfl) (by simp) (by
          simpa [Stage.watches] using passes (.look rr (i + 1)) (by simpa using hno)
            (by simp [Stage.watches]))
    · exact .moves hstage ⟨rfl, rfl⟩ (fun _ _ => rfl) (by simp) (by simp [Stage.watches]; omega)
  | reclaim rr =>
    dsimp only
    split
    · next hset => exact .moves hstage ⟨rfl, rfl⟩ (fun _ _ => rfl) (by simp) (by simp [hset])
    · next hclear =>
      exact .sets (by simpa using hclear) rfl (by rw [hstage]; rfl) rfl (by simp [hstage])

theorem step_cases (n : ℕ) (s : DrainState α) (e : Event α) :
    (∃ a, s.Access n a (step n s e)) ∨
      ∃ a self, e = .close a self ∧ s.agents a = .idle ∧
        step n s e = { s with closed := true }.setStage a (if self then .idle else .closing 0) := by
  cases e with
  | post a i task =>
    refine .inl ⟨a, ?_⟩
    simp only [step]
    split
    · next hidle =>
      split
      · exact .moves hidle ⟨rfl, rfl⟩ (fun _ _ => rfl) (by simp) (by simp [Stage.watches])
      · exact .stays
    · exact .stays
  | close a self =>
    simp only [step]
    split
    · next hidle => exact .inr ⟨a, self, rfl, hidle, rfl⟩
    · exact .inl ⟨a, .stays⟩
  | drain a =>
    refine .inl ⟨a, ?_⟩
    simp only [step]
    split
    · next hidle =>
      split
      · next hjob => exact .starts hidle hjob
      · exact .stays
    · exact .stays
  | advance a ok => exact .inl ⟨a, advance_access n a ok s⟩

/-! ### The subqueues are queues -/

theorem Access.queueStep {n a : ℕ} {s s' : DrainState α} (h : s.Access n a s') (i : ℕ) :
    ∃ capacity, SubQueue.QueueStep capacity ((s.agents a).offered i)
      ((s.sub i).map (·.task)) ((s'.sub i).map (·.task)) := by
  have htake {j : ℕ} {p : Posted α} {tasks : List (Posted α)} (hsub : s.sub j = p :: tasks) :
      SubQueue.QueueStep 0 ((s.agents a).offered i) ((s.sub i).map (·.task))
        (((s.setSub j tasks).sub i).map (·.task)) := by
    by_cases hi : i = j
    · subst hi
      simp only [setSub, Function.update_self, hsub]
      exact .take ..
    · simp only [setSub, Function.update_of_ne hi]
      exact .stay _
  cases h with
  | @adds j task hstage =>
    by_cases hi : i = j
    · subst hi
      refine ⟨(s.sub i).length + 1, ?_⟩
      simp only [hstage, setStage, add, Function.update_self, List.map_append]
      exact .put _ task (by simp) (if_pos rfl)
    · refine ⟨0, ?_⟩
      simp only [setStage, add, Function.update_of_ne hi]
      exact .stay _
  | @reveals j hstage =>
    refine ⟨0, ?_⟩
    have hsame : ((s.reveal j a).sub i).map (·.task) = (s.sub i).map (·.task) := by
      by_cases hi : i = j
      · subst hi
        simp only [reveal, setSub, Function.update_self, List.map_map]
        refine List.map_congr_left fun p _ => ?_
        rw [Function.comp_apply]
        split_ifs <;> rfl
      · simp only [reveal, setSub, Function.update_of_ne hi]
    simp only [setStage, hsame]
    exact .stay _
  | takes _ hsub => exact ⟨0, htake hsub⟩
  | discards _ hsub => exact ⟨0, htake hsub⟩
  | _ => exact ⟨0, .stay _⟩

/-- **The subqueues move as the rings do**: a step leaves the tasks of a subqueue, puts the task of
    the agent at their end, or takes the first one. -/
theorem sub_queueStep (n : ℕ) (s : DrainState α) (e : Event α) (i : ℕ) :
    ∃ capacity a, SubQueue.QueueStep capacity ((s.agents a).offered i)
      ((s.sub i).map (·.task)) (((step n s e).sub i).map (·.task)) := by
  rcases step_cases n s e with ⟨a, h⟩ | ⟨a, self, -, -, h⟩
  · obtain ⟨capacity, hstep⟩ := h.queueStep i
    exact ⟨capacity, a, hstep⟩
  · exact ⟨0, a, by rw [h]; exact .stay _⟩

/-! ### The word is held by one -/

/-- Set, the word is held by the drain in the pool or by one agent; clear, by none. -/
structure Held (s : DrainState α) : Prop where
  jobs_le : s.jobs ≤ 1
  clear : s.scheduled = false → s.jobs = 0 ∧ ∀ a, (s.agents a).holds = false
  held : s.scheduled = true → s.jobs = 1 ∨ ∃ a, (s.agents a).holds = true
  pooled : s.jobs = 1 → ∀ a, (s.agents a).holds = false
  alone : ∀ a b, (s.agents a).holds = true → (s.agents b).holds = true → a = b

theorem Held.of_holds {s : DrainState α} (h : s.Held) {a : ℕ} (ha : (s.agents a).holds = true) :
    s.scheduled = true ∧ s.jobs = 0 := by
  constructor
  · by_contra hclear
    have := (h.clear (by simpa using hclear)).2 a
    simp [ha] at this
  · by_contra hjobs
    have := h.pooled (by have := h.jobs_le; omega) a
    simp [ha] at this

/-- An agent moves without taking or giving the word. -/
theorem Held.kept {s s' : DrainState α} {a : ℕ} {stage : Stage α} (h : s.Held)
    (hword : s'.scheduled = s.scheduled) (hjobs : s'.jobs = s.jobs)
    (hagents : s'.agents = Function.update s.agents a stage)
    (hholds : stage.holds = (s.agents a).holds) : s'.Held := by
  have hsame (b : ℕ) : (s'.agents b).holds = (s.agents b).holds := by
    rw [hagents, Function.update_apply]
    split
    · next hb => rw [hb, hholds]
    · rfl
  refine ⟨?_, ?_, ?_, ?_, ?_⟩
  · rw [hjobs]
    exact h.jobs_le
  · simpa only [hword, hjobs, hsame] using h.clear
  · simpa only [hword, hjobs, hsame] using h.held
  · simpa only [hjobs, hsame] using h.pooled
  · simpa only [hsame] using h.alone

/-- Nobody holds the word, and an agent comes to hold it: it found the word clear and set it, or it
    is the drain that left the pool. -/
theorem Held.taken {s s' : DrainState α} {a : ℕ} {stage : Stage α}
    (hfree : ∀ b, (s.agents b).holds = false) (hword : s'.scheduled = true) (hjobs : s'.jobs = 0)
    (hagents : s'.agents = Function.update s.agents a stage) (hholds : stage.holds = true) :
    s'.Held := by
  have hself : (s'.agents a).holds = true := by rw [hagents, Function.update_self, hholds]
  have hother {b : ℕ} (hb : (s'.agents b).holds = true) : b = a := by
    by_contra hne
    rw [hagents, Function.update_of_ne hne, hfree b] at hb
    cases hb
  refine ⟨by omega, fun hno => ?_, fun _ => .inr ⟨a, hself⟩, fun hone => by omega,
    fun b c hb hc => ?_⟩
  · rw [hword] at hno
    cases hno
  · rw [hother hb, hother hc]

/-- The holder of the word moves on without it. -/
theorem Held.given {s s' : DrainState α} {a : ℕ} {stage : Stage α} (h : s.Held)
    (hold : (s.agents a).holds = true) (hagents : s'.agents = Function.update s.agents a stage)
    (hholds : stage.holds = false)
    (hnext : s'.scheduled = false ∧ s'.jobs = 0 ∨ s'.scheduled = true ∧ s'.jobs = 1) : s'.Held := by
  have hfree (b : ℕ) : (s'.agents b).holds = false := by
    rw [hagents, Function.update_apply]
    split
    · exact hholds
    · next hne =>
      by_contra hb
      exact hne (h.alone b a (by simpa using hb) hold)
  have hnone {b : ℕ} {P : Prop} (hb : (s'.agents b).holds = true) : P := by
    rw [hfree b] at hb
    cases hb
  rcases hnext with ⟨hword, hjobs⟩ | ⟨hword, hjobs⟩
  · exact ⟨by omega, fun _ => ⟨hjobs, hfree⟩, fun hset => by simp [hword] at hset,
      fun hone => by omega, fun b c hb _ => hnone hb⟩
  · exact ⟨by omega, fun hclear => by simp [hword] at hclear, fun _ => .inl hjobs, fun _ => hfree,
      fun b c hb _ => hnone hb⟩

theorem Held.access {n a : ℕ} {s s' : DrainState α} (h : s.Held) (hs' : s.Access n a s') :
    s'.Held := by
  cases hs' with
  | stays => exact h
  | moves hstage hsame => exact h.kept rfl rfl rfl (hstage ▸ hsame.1)
  | adds hstage => exact h.kept rfl rfl rfl (by rw [hstage]; rfl)
  | reveals hstage => exact h.kept rfl rfl rfl (by rw [hstage]; rfl)
  | sets hclear hholds =>
    obtain ⟨hjobs, hfree⟩ := h.clear hclear
    exact .taken hfree rfl hjobs rfl hholds
  | submits hstage =>
    obtain ⟨hword, hjobs⟩ := h.of_holds (a := a) (by rw [hstage]; rfl)
    exact h.given (by rw [hstage]; rfl) rfl rfl (.inr ⟨hword, by simp [setStage, hjobs]⟩)
  | starts hstage hjob =>
    have hone : s.jobs = 1 := le_antisymm h.jobs_le hjob
    have hfree := h.pooled hone
    have hword : s.scheduled = true := by
      by_contra hclear
      have := (h.clear (by simpa using hclear)).1
      omega
    exact .taken hfree hword (by simp [setStage, hone]) rfl rfl
  | takes hstage => exact h.kept rfl rfl rfl (by rw [hstage]; rfl)
  | runs hstage => exact h.kept rfl rfl rfl (by rw [hstage]; rfl)
  | clears hstage =>
    obtain ⟨hword, hjobs⟩ := h.of_holds (a := a) (by rw [hstage]; rfl)
    exact h.given (by rw [hstage]; rfl) rfl rfl (.inl ⟨rfl, hjobs⟩)
  | discards hstage _ => exact h.kept rfl rfl (Function.update_eq_self a s.agents).symm rfl

theorem Held.step {s : DrainState α} (h : s.Held) (n : ℕ) (e : Event α) : (step n s e).Held := by
  rcases step_cases n s e with ⟨a, hs'⟩ | ⟨a, self, -, hidle, hs'⟩
  · exact h.access hs'
  · rw [hs']
    exact h.kept rfl rfl rfl (by rw [hidle]; cases self <;> rfl)

theorem held_init : ({} : DrainState α).Held where
  jobs_le := Nat.zero_le 1
  clear _ := ⟨rfl, fun _ => rfl⟩
  held h := by cases h
  pooled _ _ := rfl
  alone a b h := by cases h

theorem held_runFrom (n : ℕ) (es : List (Event α)) : (runFrom (step n) ({} : DrainState α) es).Held :=
  Along.invariant (I := Held) (C := fun _ _ => True) (fun _ e h _ => h.step n e) held_init
    (Along.of_forall fun _ _ => trivial)

/-- **Tasks never overlap**: in any interleaving of posts, closings and drains, two agents that take
    or run tasks are one, and then no other drain is in the pool. -/
theorem one_drain (n : ℕ) (es : List (Event α)) (a b : ℕ)
    (ha : ((runFrom (step n) ({} : DrainState α) es).agents a).holds = true)
    (hb : ((runFrom (step n) ({} : DrainState α) es).agents b).holds = true) :
    a = b ∧ (runFrom (step n) ({} : DrainState α) es).jobs = 0 :=
  ⟨(held_runFrom n es).alone a b ha hb, ((held_runFrom n es).of_holds ha).2⟩

/-- A task is posted, and another one to the second subqueue while the first is drained. -/
def postTwice : List (Event ℕ) :=
  ([.post 0 0 10, .advance 0 true, .advance 0 true, .advance 0 true, .advance 0 true, .drain 1,
    .advance 1 true, .post 0 1 20, .advance 0 true, .advance 0 true, .advance 1 true,
    .advance 0 true] : List (Event ℕ)) ++ List.replicate 14 (.advance 1 true)

theorem one_drain_postTwice :
    1 = 1 ∧ (runFrom (step 2) ({} : DrainState ℕ) (postTwice.take 8)).jobs = 0 :=
  one_drain 2 (postTwice.take 8) 1 1 (by decide) (by decide)

/-! ### A task that can be seen is not lost -/

/-- Who sees to subqueue `i`: the holder of the word, or an agent that will still look at it. -/
def Watched (s : DrainState α) (i : ℕ) : Prop :=
  s.scheduled = true ∨ ∃ a, (s.agents a).watches i = true

def Seen (n : ℕ) (s : DrainState α) : Prop := ∀ i < n, s.hasItem i = true → s.Watched i

theorem Watched.kept {s s' : DrainState α} {i a : ℕ} {stage : Stage α} (h : s.Watched i)
    (hword : s.scheduled = true → s'.scheduled = true)
    (hagents : s'.agents = Function.update s.agents a stage)
    (hwatches : (s.agents a).watches i = true → s'.scheduled = true ∨ stage.watches i = true) :
    s'.Watched i := by
  rcases h with h | ⟨b, hb⟩
  · exact .inl (hword h)
  · by_cases hba : b = a
    · subst hba
      refine (hwatches hb).imp id fun h => ⟨b, ?_⟩
      rw [hagents, Function.update_self, h]
    · exact .inr ⟨b, by rw [hagents, Function.update_of_ne hba, hb]⟩

theorem Watched.self {s s' : DrainState α} {i a : ℕ} {stage : Stage α}
    (hagents : s'.agents = Function.update s.agents a stage) (hwatches : stage.watches i = true) :
    s'.Watched i := .inr ⟨a, by rw [hagents, Function.update_self, hwatches]⟩

theorem hasItem_add {s : DrainState α} {i j : ℕ} {p : Posted α} (hp : p.visible = false)
    (h : (s.add i p).hasItem j = true) : s.hasItem j = true := by
  simp only [hasItem, add, Function.update_apply] at h ⊢
  by_cases hj : j = i
  · subst hj
    cases hsub : s.sub j with
    | nil => simp [hsub, hp] at h
    | cons q tasks => simpa [hsub] using h
  · simpa [hj] using h

theorem hasItem_setSub_of_ne {s : DrainState α} {i j : ℕ} {tasks : List (Posted α)} (hj : j ≠ i) :
    (s.setSub i tasks).hasItem j = s.hasItem j := by
  simp [hasItem, setSub, Function.update_of_ne hj]

theorem Seen.access {n a : ℕ} {s s' : DrainState α} (hs : s.Seen n) (hheld : s.Held)
    (hs' : s.Access n a s') : s'.Seen n := by
  intro j hj hitem
  cases hs' with
  | stays => exact hs j hj hitem
  | moves hstage _ _ _ hwatches =>
    exact (hs j hj hitem).kept id rfl (hstage ▸ hwatches j hj hitem)
  | adds hstage =>
    exact (hs j hj (hasItem_add rfl hitem)).kept id rfl (by simp [hstage, Stage.watches])
  | reveals hstage => exact Watched.self (s := s) rfl rfl
  | sets => exact .inl rfl
  | submits hstage => exact (hs j hj hitem).kept id rfl (by simp [hstage, Stage.watches])
  | starts hstage => exact (hs j hj hitem).kept id rfl (by simp [hstage, Stage.watches])
  | takes hstage => exact .inl (hheld.of_holds (a := a) (by rw [hstage]; rfl)).1
  | runs hstage => exact .inl (hheld.of_holds (a := a) (by rw [hstage]; rfl)).1
  | clears hstage => exact Watched.self (s := s) rfl rfl
  | @discards i _ _ hstage _ =>
    -- the drain stays where it is, and looks at the next task of this subqueue
    by_cases hji : j = i
    · exact .inr ⟨a, by simp [setSub, hstage, Stage.watches, hji]⟩
    · rw [hasItem_setSub_of_ne hji] at hitem
      exact hs j hj hitem

theorem Seen.step {n : ℕ} {s : DrainState α} (hs : s.Seen n) (hheld : s.Held) (e : Event α) :
    (step n s e).Seen n := by
  rcases step_cases n s e with ⟨a, hs'⟩ | ⟨a, self, -, hidle, hs'⟩
  · exact hs.access hheld hs'
  · rw [hs']
    exact fun j hj hitem => (hs j hj hitem).kept id rfl (by simp [hidle, Stage.watches])

theorem seen_runFrom (n : ℕ) (es : List (Event α)) :
    (runFrom (step n) ({} : DrainState α) es).Seen n :=
  (Along.invariant (I := fun s : DrainState α => s.Held ∧ s.Seen n) (C := fun _ _ => True)
    (fun _ e h _ => ⟨h.1.step n e, h.2.step h.1 e⟩)
    ⟨held_init, fun _ _ h => by cases h⟩ (Along.of_forall fun _ _ => trivial)).2

/-- **No task is lost**: whenever a subqueue has a task to be seen, a drain is in the pool, an agent
    holds the word, or an agent has yet to look at the subqueue or to set the word. -/
theorem no_lost_task (n : ℕ) (es : List (Event α)) {i : ℕ} (hi : i < n)
    (hitem : (runFrom (step n) ({} : DrainState α) es).hasItem i = true) :
    let s := runFrom (step n) ({} : DrainState α) es
    s.jobs = 1 ∨ ∃ a, (s.agents a).holds = true ∨ (s.agents a).watches i = true := by
  intro s
  rcases seen_runFrom n es i hi hitem with hword | ⟨a, ha⟩
  · exact ((held_runFrom n es).held hword).imp id fun ⟨a, ha⟩ => ⟨a, .inl ha⟩
  · exact .inr ⟨a, .inr ha⟩

theorem no_lost_task_postTwice :
    (runFrom (step 2) ({} : DrainState ℕ) (postTwice.take 4)).jobs = 1 ∨
      ∃ a, ((runFrom (step 2) ({} : DrainState ℕ) (postTwice.take 4)).agents a).holds = true ∨
        ((runFrom (step 2) ({} : DrainState ℕ) (postTwice.take 4)).agents a).watches 0 = true :=
  no_lost_task 2 (postTwice.take 4) (by decide : 0 < 2) (by decide)

/-! ### Every task is run, in order -/

/-- The tasks of subqueue `i` in a list of tasks with their subqueues. -/
def of (i : ℕ) (l : List (ℕ × α)) : List α := (l.filter fun x => x.1 = i).map Prod.snd

@[simp] theorem of_append (i : ℕ) (l l' : List (ℕ × α)) : of i (l ++ l') = of i l ++ of i l' := by
  simp [of]

/-- While the queue is open: what is put in is what has been run, is in hand, or waits, in order, and
    what cannot be seen is being put in. -/
structure Ordered (s : DrainState α) : Prop where
  opened : s.closed = false
  keeps : ∀ a, (s.agents a).drops = false
  hidden : ∀ i, ∀ p ∈ s.sub i, p.visible = false → s.agents p.agent = .publish i
  order : ∀ a, (∀ b, b ≠ a → (s.agents b).inHand = []) →
    ∀ i, s.put i = of i (s.ran ++ (s.agents a).inHand) ++ (s.sub i).map Posted.task

/-- An agent moves on, and the tasks stay where they are. -/
theorem Ordered.kept {s s' : DrainState α} {a : ℕ} {stage : Stage α} (h : s.Ordered)
    (hagents : s'.agents = Function.update s.agents a stage) (hclosed : s'.closed = s.closed)
    (hsub : s'.sub = s.sub) (hput : s'.put = s.put) (hran : s'.ran = s.ran)
    (hkeeps : stage.drops = false) (hhand : stage.inHand = (s.agents a).inHand)
    (hhidden : ∀ i, s.agents a = .publish i → stage = .publish i) : s'.Ordered := by
  have hsame (b : ℕ) : (s'.agents b).inHand = (s.agents b).inHand := by
    rw [hagents, Function.update_apply]
    split
    · next hb => rw [hb, hhand]
    · rfl
  refine ⟨hclosed ▸ h.opened, fun b => ?_, fun i p hp hvis => ?_, fun b hb i => ?_⟩
  · rw [hagents, Function.update_apply]
    split
    · exact hkeeps
    · exact h.keeps b
  · have hpub := h.hidden i p (hsub ▸ hp) hvis
    rw [hagents, Function.update_apply]
    split
    · next hpa => exact hhidden i (hpa ▸ hpub)
    · exact hpub
  · rw [hput, hran, hsub, hsame]
    exact h.order b (fun c hc => by rw [← hsame, hb c hc]) i

/-- A task is put in at the end, to be seen by the agent's next access. -/
theorem Ordered.add {s : DrainState α} {a i : ℕ} {task : α} (h : s.Ordered)
    (hstage : s.agents a = .emplace i task) :
    ((s.add i ⟨a, task, false⟩).setStage a (.publish i)).Ordered := by
  have hsame (b : ℕ) : (Function.update s.agents a (.publish i) b).inHand = (s.agents b).inHand := by
    rw [Function.update_apply]
    split
    · next hb => rw [hb, hstage]; rfl
    · rfl
  refine ⟨h.opened, fun b => ?_, fun j p hp hvis => ?_, fun b hb j => ?_⟩
  · simp only [setStage, DrainState.add, Function.update_apply]
    split
    · rfl
    · exact h.keeps b
  · simp only [setStage, DrainState.add, Function.update_apply] at hp ⊢
    have hold (hp : p ∈ s.sub j) : (if p.agent = a then .publish i else s.agents p.agent) =
        Stage.publish (α := α) j := by
      have hpub := h.hidden j p hp hvis
      rw [if_neg fun hpa => by simp [hpa, hstage] at hpub, hpub]
    split at hp
    · next hji =>
      rcases List.mem_append.1 hp with hp | hp
      · exact hold (hji ▸ hp)
      · obtain rfl := List.mem_singleton.1 hp
        rw [if_pos rfl, hji]
    · exact hold hp
  · have horder := h.order b (fun c hc => (hsame c).symm.trans (hb c hc)) j
    simp only [setStage, DrainState.add] at horder ⊢
    rw [hsame b]
    by_cases hji : j = i
    · subst hji
      simp only [Function.update_self, List.map_append, ← List.append_assoc, ← horder]
      rfl
    · rw [Function.update_of_ne hji, Function.update_of_ne hji, horder]

theorem Ordered.reveal {s : DrainState α} {a i : ℕ} (h : s.Ordered)
    (hstage : s.agents a = .publish i) : ((s.reveal i a).setStage a .exchange).Ordered := by
  have hsame (b : ℕ) : (Function.update s.agents a .exchange b).inHand = (s.agents b).inHand := by
    rw [Function.update_apply]
    split
    · next hb => rw [hb, hstage]; rfl
    · rfl
  -- an agent puts in one task at a time
  have hother {j : ℕ} {p : Posted α} (hp : p ∈ s.sub j) (hvis : p.visible = false)
      (hne : j ≠ i ∨ p.agent ≠ a) : p.agent ≠ a := by
    rintro rfl
    have hpub := h.hidden j p hp hvis
    rw [hstage] at hpub
    cases hpub
    simp at hne
  refine ⟨h.opened, fun b => ?_, fun j p hp hvis => ?_, fun b hb j => ?_⟩
  · simp only [setStage, DrainState.reveal, setSub, Function.update_apply]
    split
    · rfl
    · exact h.keeps b
  · simp only [setStage, DrainState.reveal, setSub, Function.update_apply] at hp ⊢
    split at hp
    · next hji =>
      obtain ⟨q, hq, rfl⟩ := List.mem_map.1 hp
      by_cases hqa : q.agent = a
      · simp [hqa] at hvis
      · rw [if_neg hqa] at hvis ⊢
        rw [if_neg hqa]
        exact h.hidden j q (hji ▸ hq) hvis
    · next hji =>
      rw [if_neg (hother hp hvis (.inl hji))]
      exact h.hidden j p hp hvis
  · have horder := h.order b (fun c hc => (hsame c).symm.trans (hb c hc)) j
    have htasks : ((s.reveal i a).sub j).map Posted.task = (s.sub j).map Posted.task := by
      simp only [DrainState.reveal, setSub, Function.update_apply]
      split
      · next hji =>
        rw [List.map_map, hji]
        refine List.map_congr_left fun q _ => ?_
        simp only [Function.comp]
        split <;> rfl
      · rfl
    change s.put j = of j (s.ran ++ (Function.update s.agents a .exchange b).inHand) ++
      ((s.reveal i a).sub j).map Posted.task
    rw [hsame b, htasks, horder]

/-- The drain takes the first task of a subqueue: it is in hand instead of waiting. -/
theorem Ordered.take {s : DrainState α} (h : s.Ordered) (hheld : s.Held) {a rr i tried rr' : ℕ}
    {p : Posted α} {tasks : List (Posted α)} (hstage : s.agents a = .take rr true tried)
    (hsub : s.sub i = p :: tasks) :
    ((s.setSub i tasks).setStage a (.run rr' true i p.task)).Ordered := by
  have hnone (b : ℕ) : (s.agents b).inHand = [] := by
    by_contra hb
    have := hheld.alone b a (Stage.holds_of_inHand hb) (by rw [hstage]; rfl)
    rw [this, hstage] at hb
    exact hb rfl
  refine ⟨h.opened, fun b => ?_, fun j q hq hvis => ?_, fun b hb j => ?_⟩
  · simp only [setStage, setSub, Function.update_apply]
    split
    · rfl
    · exact h.keeps b
  · have hpub : s.agents q.agent = .publish j := by
      refine h.hidden j q ?_ hvis
      simp only [setStage, setSub, Function.update_apply] at hq
      split at hq
      · next hji => rw [hji, hsub]; exact .tail _ hq
      · exact hq
    have hqa : q.agent ≠ a := fun hqa => by simp [hqa, hstage] at hpub
    simp only [setStage, setSub, Function.update_of_ne hqa, hpub]
  · obtain rfl : b = a := by
      by_contra hne
      have := hb a (Ne.symm hne)
      simp [setStage, Stage.inHand] at this
    have horder := h.order b (fun c _ => hnone c) j
    rw [hnone b, List.append_nil] at horder
    simp only [setStage, setSub, Function.update_self, Stage.inHand, of_append]
    rw [horder]
    by_cases hji : j = i
    · subst hji
      simp [hsub, of]
    · simp [Function.update_of_ne hji, of, Ne.symm hji]

theorem Ordered.run {s : DrainState α} (h : s.Ordered) (hheld : s.Held) {a rr i : ℕ} {task : α}
    (hstage : s.agents a = .run rr true i task) :
    ({ s with ran := s.ran ++ [(i, task)] }.setStage a (.afterTask rr true)).Ordered := by
  have hothers (b : ℕ) (hne : b ≠ a) : (s.agents b).inHand = [] := by
    by_contra hb
    exact hne (hheld.alone b a (Stage.holds_of_inHand hb) (by rw [hstage]; rfl))
  have hnone (b : ℕ) : (Function.update s.agents a (.afterTask rr true) b).inHand = [] := by
    by_cases hb : b = a
    · rw [hb, Function.update_self]
      rfl
    · rw [Function.update_of_ne hb, hothers b hb]
  refine ⟨h.opened, fun b => ?_, fun j q hq hvis => ?_, fun b _ j => ?_⟩
  · simp only [setStage, Function.update_apply]
    split
    · rfl
    · exact h.keeps b
  · have hpub := h.hidden j q hq hvis
    have hqa : q.agent ≠ a := fun hqa => by simp [hqa, hstage] at hpub
    simp only [setStage, Function.update_of_ne hqa, hpub]
  · have horder := h.order a hothers j
    rw [hstage] at horder
    simp only [setStage, hnone b, List.append_nil]
    exact horder

theorem Ordered.access {n a : ℕ} {s s' : DrainState α} (h : s.Ordered) (hheld : s.Held)
    (hs' : s.Access n a s') : s'.Ordered := by
  have hkeeps := h.keeps a
  cases hs' with
  | stays => exact h
  | moves hstage hsame hdrops hpub =>
    subst hstage
    exact h.kept rfl rfl rfl rfl rfl (hdrops h.opened hkeeps) hsame.2 (fun i hi => absurd hi (hpub i))
  | adds hstage => exact h.add hstage
  | reveals hstage => exact h.reveal hstage
  | sets _ _ hhand hdrops hpub =>
    exact h.kept rfl rfl rfl rfl rfl hdrops hhand (fun i hi => absurd hi (hpub i))
  | submits hstage => exact h.kept rfl rfl rfl rfl rfl rfl (by rw [hstage]; rfl) (by simp [hstage])
  | starts hstage => exact h.kept rfl rfl rfl rfl rfl rfl (by rw [hstage]; rfl) (by simp [hstage])
  | @takes _ _ _ _ run _ _ hstage hsub =>
    obtain rfl : run = true := by simpa [hstage, Stage.drops] using hkeeps
    exact h.take hheld hstage hsub
  | @runs _ _ run _ hstage =>
    obtain rfl : run = true := by simpa [hstage, Stage.drops] using hkeeps
    exact h.run hheld hstage
  | clears hstage => exact h.kept rfl rfl rfl rfl rfl rfl (by rw [hstage]; rfl) (by simp [hstage])
  | discards hstage _ => simp [hstage, Stage.drops] at hkeeps

/-- Nobody closes the queue. -/
def Event.keepsOpen : Event α → Bool
  | .close .. => false
  | _ => true

theorem Ordered.step {s : DrainState α} (h : s.Ordered) (hheld : s.Held) (n : ℕ) {e : Event α}
    (he : e.keepsOpen = true) : (step n s e).Ordered := by
  rcases step_cases n s e with ⟨a, hs'⟩ | ⟨a, self, rfl, -⟩
  · exact h.access hheld hs'
  · cases he

theorem ordered_runFrom (n : ℕ) {es : List (Event α)} (hes : ∀ e ∈ es, e.keepsOpen = true) :
    (runFrom (step n) ({} : DrainState α) es).Ordered := by
  induction es using List.reverseRecOn with
  | nil =>
    exact ⟨rfl, fun _ => rfl, fun _ p hp => absurd hp (List.not_mem_nil (a := p)), fun _ _ _ => rfl⟩
  | append_singleton es e ih =>
    rw [runFrom_concat]
    exact (ih fun e' he' => hes e' (List.mem_append_left _ he')).step (held_runFrom n es) n
      (hes e (by simp))

/-- **Every task is run, in order**: while nobody closes the queue, whatever the interleaving, once
    the agents are idle and the pool has no drain, the tasks run are those put in, those of a subqueue
    in the order they were put in, and none waits. -/
theorem all_run_in_order (n : ℕ) {es : List (Event α)} (hes : ∀ e ∈ es, e.keepsOpen = true)
    (hidle : ∀ a, (runFrom (step n) ({} : DrainState α) es).agents a = .idle)
    (hjobs : (runFrom (step n) ({} : DrainState α) es).jobs = 0) {i : ℕ} (hi : i < n) :
    of i (runFrom (step n) ({} : DrainState α) es).ran =
        (runFrom (step n) ({} : DrainState α) es).put i ∧
      (runFrom (step n) ({} : DrainState α) es).sub i = [] := by
  have hheld := held_runFrom n es
  have hseen := seen_runFrom n es i hi
  have hordered := ordered_runFrom n hes
  generalize runFrom (step n) ({} : DrainState α) es = s at *
  have hclear : s.scheduled ≠ true := by
    intro hword
    rcases hheld.held hword with hone | ⟨a, ha⟩
    · omega
    · rw [hidle a] at ha
      cases ha
  have hempty : s.sub i = [] := by
    cases hsub : s.sub i with
    | nil => rfl
    | cons p tasks =>
      exfalso
      cases hvis : p.visible with
      | false =>
        have hpub := hordered.hidden i p (by simp [hsub]) hvis
        rw [hidle] at hpub
        cases hpub
      | true =>
        rcases hseen (by rw [hasItem_of_cons hsub, hvis]) with hword | ⟨a, ha⟩
        · exact hclear hword
        · rw [hidle a] at ha
          cases ha
  refine ⟨?_, hempty⟩
  have horder := hordered.order 0 (fun b _ => by rw [hidle b]; rfl) i
  rw [hidle 0, hempty] at horder
  simpa [Stage.inHand] using horder.symm

theorem all_run_in_order_postTwice :
    of 1 (runFrom (step 2) ({} : DrainState ℕ) postTwice).ran = [20] :=
  (all_run_in_order 2 (by decide) (fun a => by
    rcases a with _ | _ | a <;> rfl) (by decide) (by decide : 1 < 2)).1

end DrainState

end VirtualRouter.Core
