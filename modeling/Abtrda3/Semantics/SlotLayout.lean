import Abtrda3.Semantics.ByteMemory

/-! Areas of memory, and slots of one size laid out one after another, each with a header
before its data. -/
namespace Abtrda3.Semantics

structure Area where
  base : Nat
  size : Nat
  deriving DecidableEq, Repr

namespace Area

def Inside (inner outer : Area) : Prop := outer.base ≤ inner.base ∧ inner.base + inner.size ≤ outer.base + outer.size

def Apart (first second : Area) : Prop :=
  first.base + first.size ≤ second.base ∨ second.base + second.size ≤ first.base

instance (inner outer : Area) : Decidable (inner.Inside outer) := inferInstanceAs (Decidable (_ ∧ _))

instance (first second : Area) : Decidable (first.Apart second) := inferInstanceAs (Decidable (_ ∨ _))

end Area

structure SlotLayout where
  stride : Nat
  header : Nat
  room : Nat
  whole : header + room ≤ stride

namespace SlotLayout

def data (layout : SlotLayout) (slot : Nat) : Area := ⟨slot * layout.stride + layout.header,layout.room⟩

def head (layout : SlotLayout) (slot : Nat) : Area := ⟨slot * layout.stride,layout.header⟩

theorem next_le (layout : SlotLayout) {first second : Nat} (order : first < second) :
    first * layout.stride + layout.stride ≤ second * layout.stride := by
  rw [← Nat.succ_mul]
  exact Nat.mul_le_mul_right _ order

theorem data_apart (layout : SlotLayout) {first second : Nat} (different : first ≠ second) :
    (layout.data first).Apart (layout.data second) := by
  have whole := layout.whole
  unfold Area.Apart data
  dsimp only
  rcases Nat.lt_or_gt_of_ne different with before | after
  · have next := layout.next_le before
    omega
  · have next := layout.next_le after
    omega

theorem data_apart_head (layout : SlotLayout) (first second : Nat) : (layout.data first).Apart (layout.head second) := by
  have whole := layout.whole
  unfold Area.Apart data head
  dsimp only
  rcases Nat.lt_trichotomy first second with before | rfl | after
  · have next := layout.next_le before
    omega
  · omega
  · have next := layout.next_le after
    omega

theorem inside_iff (layout : SlotLayout) (slot length : Nat) :
    Area.Inside ⟨(layout.data slot).base,length⟩ (layout.data slot) ↔ length ≤ layout.room := by
  unfold Area.Inside data
  dsimp only
  omega

def stampAll (layout : SlotLayout) (slots : List Nat) (memory : ByteMemory) (bytes : List (BitVec 8)) : ByteMemory :=
  slots.foldl (fun memory slot => memory.write (layout.data slot).base bytes) memory

theorem stampAll_of_base (layout : SlotLayout) {indices : List Nat} {place number : Nat → Nat}
    (starts : ∀ i ∈ indices, place i = (layout.data (number i)).base) (memory : ByteMemory) (bytes : List (BitVec 8)) :
    indices.foldl (fun memory i => memory.write (place i) bytes) memory =
      layout.stampAll (indices.map number) memory bytes := by
  induction indices generalizing memory with
  | nil => rfl
  | cons i rest ih =>
    rw [List.forall_mem_cons] at starts
    rw [List.foldl_cons,starts.1,ih starts.2]
    rfl

end SlotLayout

end Abtrda3.Semantics
