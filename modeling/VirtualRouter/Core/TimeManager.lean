/-
  One-shot timers (`core/TimeManager.cpp`).

  A timer is a pending callback under an id; a callback is a value that its
  owner gives a meaning.  Deadlines are left out: any pending timer may be the
  next to fire.  `cancelTimer` of the code erases the first timer with the deadline
  of the one it looked up; no two deadlines are taken to be equal, so that it is
  the timer of the id that goes.  Ids come from a counter of 32 bits, so an id is fresh only as
  long as no pending timer has it (`TimeManager.Fresh`).
-/
import VirtualRouter.Lib.NestedMap

namespace VirtualRouter.Core

open NestedMap

/-- The pending timers and the counter of ids. -/
structure TimeManager (κ : Type) where
  nextTimerId : UInt32 := 1
  timers : Map UInt32 κ := ∅
  deriving DecidableEq

namespace TimeManager

variable {κ : Type}

/-- `addTimer`: the timer's id, and the timers with it. -/
def addTimer (tm : TimeManager κ) (callback : κ) : UInt32 × TimeManager κ :=
  (tm.nextTimerId,
    { nextTimerId := tm.nextTimerId + 1, timers := tm.timers.insert tm.nextTimerId callback })

def cancelTimer (tm : TimeManager κ) (timerId : UInt32) : TimeManager κ :=
  { tm with timers := tm.timers.erase timerId }

def cancelTimers (tm : TimeManager κ) (timerIds : List UInt32) : TimeManager κ :=
  timerIds.foldl cancelTimer tm

/-- The callback of a timer that is due; it is no longer pending when it runs. -/
def fire (tm : TimeManager κ) (timerId : UInt32) : Option (κ × TimeManager κ) :=
  (tm.timers.lookup timerId).map fun callback => (callback, tm.cancelTimer timerId)

def Fresh (tm : TimeManager κ) : Prop := tm.timers.lookup tm.nextTimerId = none

instance (tm : TimeManager κ) : Decidable tm.Fresh :=
  decidable_of_iff ((tm.timers.lookup tm.nextTimerId).isNone = true) Option.isNone_iff_eq_none

@[simp] theorem addTimer_fst (tm : TimeManager κ) (callback : κ) :
    (tm.addTimer callback).1 = tm.nextTimerId := rfl

theorem lookup_addTimer (tm : TimeManager κ) (callback : κ) (id : UInt32) :
    (tm.addTimer callback).2.timers.lookup id =
      if id = tm.nextTimerId then some callback else tm.timers.lookup id :=
  lookup_insert_eq ..

theorem lookup_cancelTimer (tm : TimeManager κ) (timerId id : UInt32) :
    (tm.cancelTimer timerId).timers.lookup id = if id = timerId then none else tm.timers.lookup id :=
  lookup_erase_eq ..

@[simp] theorem nextTimerId_cancelTimer (tm : TimeManager κ) (timerId : UInt32) :
    (tm.cancelTimer timerId).nextTimerId = tm.nextTimerId := rfl

theorem cancelTimer_self (tm : TimeManager κ) (timerId : UInt32) :
    (tm.cancelTimer timerId).cancelTimer timerId = tm.cancelTimer timerId := by
  simp only [cancelTimer, mk.injEq, true_and]
  refine AList.ext ?_
  rw [AList.erase]
  exact List.kerase_of_notMem_keys (List.notMem_keys_kerase timerId tm.timers.nodupKeys)

theorem Fresh.cancelTimer {tm : TimeManager κ} (h : tm.Fresh) (timerId : UInt32) :
    (tm.cancelTimer timerId).Fresh := by
  rw [Fresh, nextTimerId_cancelTimer, lookup_cancelTimer]
  split
  · rfl
  · exact h

theorem lookup_cancelTimers (tm : TimeManager κ) (timerIds : List UInt32) (id : UInt32) :
    (tm.cancelTimers timerIds).timers.lookup id =
      if id ∈ timerIds then none else tm.timers.lookup id := by
  rw [cancelTimers]
  induction timerIds generalizing tm with
  | nil => simp
  | cons timerId timerIds ih =>
    rw [List.foldl_cons, ih, lookup_cancelTimer]
    by_cases hid : id = timerId <;> simp [hid]

theorem fire_eq_some {tm tm' : TimeManager κ} {timerId : UInt32} {callback : κ} :
    tm.fire timerId = some (callback, tm') ↔
      tm.timers.lookup timerId = some callback ∧ tm' = tm.cancelTimer timerId := by
  rw [fire, Option.map_eq_some_iff]
  constructor
  · rintro ⟨callback', h, heq⟩
    obtain ⟨rfl, rfl⟩ := Prod.mk.inj heq
    exact ⟨h, rfl⟩
  · rintro ⟨h, rfl⟩
    exact ⟨callback, h, rfl⟩

end TimeManager

end VirtualRouter.Core
