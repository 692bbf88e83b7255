import Mathlib.Data.List.Basic

/-! Flat byte memory as a function of the address, written and read in runs of bytes. -/
namespace Abtrda3.Semantics

abbrev ByteMemory := Nat → BitVec 8

namespace ByteMemory

def write (memory : ByteMemory) (base : Nat) (bytes : List (BitVec 8)) : ByteMemory :=
  fun address => if base ≤ address then bytes[address - base]?.getD (memory address) else memory address

def read (memory : ByteMemory) (base count : Nat) : List (BitVec 8) :=
  (List.range count).map (fun i => memory (base + i))

theorem read_length (memory : ByteMemory) (base count : Nat) : (memory.read base count).length = count := by
  simp [read]

theorem read_getElem? (memory : ByteMemory) {base count i : Nat} (inside : i < count) :
    (memory.read base count)[i]? = some (memory (base + i)) := by
  simp [read,inside]

theorem read_take (memory : ByteMemory) {base count first : Nat} (fits : first ≤ count) :
    (memory.read base count).take first = memory.read base first := by
  rw [read,read,← List.map_take,List.take_range,Nat.min_eq_left fits]

theorem read_append (memory : ByteMemory) (base first second : Nat) :
    memory.read base (first + second) = memory.read base first ++ memory.read (base + first) second := by
  simp [read,List.range_add,Nat.add_assoc,Function.comp_def]

theorem read_drop (memory : ByteMemory) (base count first : Nat) :
    (memory.read base count).drop first = memory.read (base + first) (count - first) := by
  apply List.ext_getElem
  · simp [read]
  · intro i _ _
    simp [read,Nat.add_assoc]

theorem write_outside (memory : ByteMemory) {base address : Nat} {bytes : List (BitVec 8)}
    (outside : address < base ∨ base + bytes.length ≤ address) : memory.write base bytes address = memory address := by
  unfold write
  split
  · rw [List.getElem?_eq_none (by omega)]
    rfl
  · rfl

theorem write_singleton (memory : ByteMemory) (base address : Nat) (byte : BitVec 8) :
    memory.write base [byte] address = if address = base then byte else memory address := by
  rcases Nat.lt_trichotomy address base with below | rfl | above
  · rw [write_outside memory (.inl below),if_neg (by omega)]
  · simp [write]
  · rw [write_outside memory (.inr above),if_neg (by omega)]

theorem write_copy (memory other : ByteMemory) (base source count address : Nat) :
    memory.write base (other.read source count) address =
      if base ≤ address ∧ address < base + count then other (source + (address - base)) else memory address := by
  split
  · next inside =>
    have within : address - base < count := by omega
    rw [write,if_pos inside.1,read_getElem? other within,Option.getD_some]
  · next outside =>
    exact write_outside memory (by rw [read_length]; omega)

theorem write_read (memory other : ByteMemory) (count address : Nat) :
    memory.write 0 (other.read 0 count) address = if address < count then other address else memory address := by
  simp [write_copy]

theorem read_write_same (memory : ByteMemory) (base : Nat) (bytes : List (BitVec 8)) :
    (memory.write base bytes).read base bytes.length = bytes := by
  apply List.ext_getElem
  · rw [read_length]
  · intro i left right
    simp [read,write,List.getElem?_eq_getElem right]

theorem read_write_apart (memory : ByteMemory) {base other count : Nat} {bytes : List (BitVec 8)}
    (apart : base + count ≤ other ∨ other + bytes.length ≤ base) :
    (memory.write other bytes).read base count = memory.read base count := by
  unfold read
  apply List.map_congr_left
  intro i member
  have inside := List.mem_range.mp member
  exact write_outside memory (by omega)

end ByteMemory

end Abtrda3.Semantics
