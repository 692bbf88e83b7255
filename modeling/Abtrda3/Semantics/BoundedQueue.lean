import Mathlib.Data.List.Basic

/-! A bounded first-in first-out queue with one writer and one reader. The bound is
a field of the queue, so an overfull queue cannot be written down. -/
namespace Abtrda3.Semantics

structure BoundedQueue (α : Type) where
  capacity : Nat
  items : List α
  bounded : items.length ≤ capacity
  deriving DecidableEq, Repr

namespace BoundedQueue

variable {α : Type}

def empty (capacity : Nat) : BoundedQueue α := ⟨capacity,[],Nat.zero_le _⟩

def tryPush (queue : BoundedQueue α) (value : α) : Option (BoundedQueue α) :=
  if room : queue.items.length < queue.capacity then
    some ⟨queue.capacity,queue.items ++ [value],by simp only [List.length_append,List.length_singleton]; omega⟩
  else none

def front (queue : BoundedQueue α) : Option α := queue.items.head?

def pop (queue : BoundedQueue α) : BoundedQueue α :=
  ⟨queue.capacity,queue.items.tail,by
    have := queue.bounded
    simp only [List.length_tail]
    omega⟩

def drop (queue : BoundedQueue α) (count : Nat) : BoundedQueue α :=
  ⟨queue.capacity,queue.items.drop count,by
    have := queue.bounded
    simp only [List.length_drop]
    omega⟩

def Full (queue : BoundedQueue α) : Prop := queue.items.length = queue.capacity

instance (queue : BoundedQueue α) : Decidable queue.Full := inferInstanceAs (Decidable (_ = _))

@[simp] theorem pop_items (queue : BoundedQueue α) : queue.pop.items = queue.items.tail := rfl

theorem tryPush_some {queue next : BoundedQueue α} {value : α} (pushed : queue.tryPush value = some next) :
    next.items = queue.items ++ [value] ∧ next.capacity = queue.capacity := by
  unfold tryPush at pushed
  split at pushed
  · cases Option.some.inj pushed
    exact ⟨rfl,rfl⟩
  · contradiction

theorem tryPush_none {queue : BoundedQueue α} {value : α} (refused : queue.tryPush value = none) : queue.Full := by
  unfold tryPush at refused
  split at refused
  · contradiction
  next full => exact Nat.le_antisymm queue.bounded (Nat.le_of_not_lt full)

end BoundedQueue

end Abtrda3.Semantics
