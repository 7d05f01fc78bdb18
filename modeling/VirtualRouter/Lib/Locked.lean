/-
  Computations that take non-recursive mutexes.

  A `Locked μ α` is a computation with the mutexes it takes: `value` is what it
  returns when taking a mutex does nothing else, and `relocks held` says
  whether it comes to take a mutex that is held at that point, when its caller
  holds `held`.  Up to that point the two readings of a mutex agree, so
  `relocks []` is the exact condition under which the computation fails when
  started with all mutexes free.  `lockGuard m x` holds `m` while `x` runs.

  The value never depends on the mutexes: a fact about what a computation does
  is proved of `value`, by `simp` with the equations below, and a fact about
  its locking of `relocks`.
-/
import Mathlib

/-- A computation that returns a value and takes mutexes on its way. -/
structure Locked (μ α : Type*) where
  value : α
  relocks : List μ → Bool

namespace Locked

variable {μ α β : Type}

instance : Monad (Locked μ) where
  pure a := ⟨a, fun _ => false⟩
  bind x f := ⟨(f x.value).value, fun held => x.relocks held || (f x.value).relocks held⟩

/-- `x || y`: `y` is not run when `x` returns `true`. -/
def or (x y : Locked μ Bool) : Locked μ Bool := do
  if ← x then pure true else y

/-- `x` while `m` is held (`std::lock_guard`). -/
def lockGuard [DecidableEq μ] (m : μ) (x : Locked μ α) : Locked μ α where
  value := x.value
  relocks held := decide (m ∈ held) || x.relocks (m :: held)

@[simp] theorem value_pure (a : α) : (pure a : Locked μ α).value = a := rfl

@[simp] theorem value_bind (x : Locked μ α) (f : α → Locked μ β) :
    (x >>= f).value = (f x.value).value := rfl

@[simp] theorem relocks_pure (a : α) (held : List μ) :
    (pure a : Locked μ α).relocks held = false := rfl

@[simp] theorem relocks_bind (x : Locked μ α) (f : α → Locked μ β) (held : List μ) :
    (x >>= f).relocks held = (x.relocks held || (f x.value).relocks held) := rfl

theorem relocks_bind_of_free {x : Locked μ α} {f : α → Locked μ β} {held : List μ}
    (h : ∀ a, (f a).relocks held = false) : (x >>= f).relocks held = x.relocks held := by
  rw [relocks_bind, h, Bool.or_false]

@[simp] theorem value_ite (c : Prop) [Decidable c] (x y : Locked μ α) :
    (if c then x else y).value = if c then x.value else y.value := by split <;> rfl

@[simp] theorem relocks_ite (c : Prop) [Decidable c] (x y : Locked μ α) (held : List μ) :
    (if c then x else y).relocks held = if c then x.relocks held else y.relocks held := by
  split <;> rfl

@[simp] theorem value_or (x y : Locked μ Bool) : (x.or y).value = (x.value || y.value) := by
  rw [or, value_bind, value_ite, value_pure]
  cases x.value <;> rfl

@[simp] theorem relocks_or (x y : Locked μ Bool) (held : List μ) :
    (x.or y).relocks held = (x.relocks held || (!x.value && y.relocks held)) := by
  rw [or, relocks_bind, relocks_ite, relocks_pure]
  cases x.value <;> rfl

section lockGuard
variable [DecidableEq μ]

@[simp] theorem value_lockGuard (m : μ) (x : Locked μ α) : (lockGuard m x).value = x.value := rfl

@[simp] theorem relocks_lockGuard (m : μ) (x : Locked μ α) (held : List μ) :
    (lockGuard m x).relocks held = (decide (m ∈ held) || x.relocks (m :: held)) := rfl

end lockGuard

end Locked
