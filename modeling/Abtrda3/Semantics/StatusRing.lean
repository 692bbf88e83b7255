import Abtrda3.Semantics.WrappingCounter
import Mathlib.Logic.Function.Basic

/-! A ring without shared indices: each slot says for itself whether it holds an item, and
both ends go round on private cursors. `Pending` relates the slots to the list of items
that were put in and not taken out. -/
namespace Abtrda3.Semantics.StatusRing

variable {α : Type} {size low : Nat} {slots : Nat → Option α} {items : List α} {value : α}

def follow (size position : Nat) : Nat := if position + 1 = size then 0 else position + 1

theorem follow_mod (some : 0 < size) (count : Nat) : follow size (count % size) = (count + 1) % size := by
  have below := Nat.mod_lt count some
  have onward : (count + 1) % size = (count % size + 1) % size := (Nat.mod_add_mod count size 1).symm
  rw [onward,follow]
  split
  · next last => rw [last,Nat.mod_self]
  · exact (Nat.mod_eq_of_lt (by omega)).symm

structure Pending (size : Nat) (slots : Nat → Option α) (low : Nat) (items : List α) : Prop where
  bounded : items.length ≤ size
  stored : ∀ i (bound : i < items.length), slots ((low + i) % size) = some items[i]
  others : ∀ position, position < size → slots position ≠ none → ∃ i, i < items.length ∧ (low + i) % size = position

namespace Pending

theorem empty (free : ∀ position, position < size → slots position = none) : Pending size slots low [] := by
  refine ⟨Nat.zero_le size,fun i bound => absurd bound (Nat.not_lt_zero i),?_⟩
  intro position inside full
  exact absurd (free position inside) full

/-- Whoever finds the next slot empty may fill it. -/
theorem put (pending : Pending size slots low items) (some : 0 < size)
    (free : slots ((low + items.length) % size) = none) (value : α) :
    Pending size (Function.update slots ((low + items.length) % size) value) low (items ++ [value]) := by
  obtain ⟨bounded,stored,others⟩ := pending
  have room : items.length < size := by
    rcases Nat.lt_or_eq_of_le bounded with room | full
    · exact room
    · have first := stored 0 (by omega)
      rw [full,Nat.add_mod_right] at free
      rw [Nat.add_zero,free] at first
      contradiction
  refine ⟨?_,?_,?_⟩
  · rw [List.length_append,List.length_singleton]
    exact room
  · intro i bound
    rw [List.length_append,List.length_singleton] at bound
    rcases Nat.lt_or_eq_of_le (Nat.le_of_lt_succ bound) with old | rfl
    · have apart := WrappingCounter.mod_ne_of_window (Nat.add_lt_add_left old low)
        (by omega : low + items.length < low + i + size)
      rw [Function.update_of_ne apart,List.getElem_append_left old]
      exact stored i old
    · rw [Function.update_self,List.getElem_append_right (Nat.le_refl _)]
      simp
  · intro position inside full
    rw [List.length_append,List.length_singleton]
    rcases eq_or_ne position ((low + items.length) % size) with rfl | apart
    · exact ⟨items.length,Nat.lt_succ_self _,rfl⟩
    · rw [Function.update_of_ne apart] at full
      obtain ⟨i,bound,here⟩ := others position inside full
      exact ⟨i,by omega,here⟩

/-- Whoever finds the first slot full finds the oldest item in it. -/
theorem take (pending : Pending size slots low items) (some : 0 < size) (full : slots (low % size) = .some value) :
    ∃ rest, items = value::rest ∧ Pending size (Function.update slots (low % size) none) (low + 1) rest := by
  obtain ⟨bounded,stored,others⟩ := pending
  cases items with
  | nil =>
    obtain ⟨i,bound,_⟩ := others (low % size) (Nat.mod_lt low some) (by rw [full]; exact Option.some_ne_none value)
    exact absurd bound (Nat.not_lt_zero i)
  | cons first rest =>
    have here := stored 0 (Nat.zero_lt_succ _)
    rw [Nat.add_zero,full] at here
    cases Option.some.inj here
    rw [List.length_cons] at bounded
    refine ⟨rest,rfl,by omega,?_,?_⟩
    · intro i bound
      have apart := WrappingCounter.mod_ne_of_window (by omega : low < low + 1 + i) (by omega : low + 1 + i < low + size)
      have later := stored (i + 1) (Nat.succ_lt_succ bound)
      rw [Function.update_of_ne apart.symm,Nat.add_assoc,Nat.add_comm 1 i]
      exact later
    · intro position inside kept
      rcases eq_or_ne position (low % size) with rfl | apart
      · rw [Function.update_self] at kept
        contradiction
      · rw [Function.update_of_ne apart] at kept
        obtain ⟨i,bound,there⟩ := others position inside kept
        cases i with
        | zero => exact absurd there.symm apart
        | succ i =>
          refine ⟨i,Nat.lt_of_succ_lt_succ bound,?_⟩
          rw [Nat.add_assoc,Nat.add_comm 1 i]
          exact there

end Pending

end Abtrda3.Semantics.StatusRing
