import Mathlib.Algebra.Group.Nat.Defs
import Mathlib.Data.BitVec

/-! Fields of a word, as a union of two layouts shares them: a field written in one layout
is read back through any field of the other that lies inside it, and every field that
lies apart from it is left alone. -/
namespace Abtrda3.Semantics.BitField

variable {n width : Nat}

def field (word : BitVec n) (offset width : Nat) : BitVec width := word.extractLsb' offset width

def setField (word : BitVec n) (offset : Nat) (value : BitVec width) : BitVec n :=
  (word &&& ~~~((BitVec.allOnes width).setWidth n <<< offset)) ||| (value.setWidth n <<< offset)

theorem getLsbD_field (word : BitVec n) (offset width i : Nat) :
    (field word offset width).getLsbD i = (decide (i < width) && word.getLsbD (offset + i)) :=
  BitVec.getLsbD_extractLsb' offset width word i

theorem getLsbD_setField (word : BitVec n) (offset : Nat) (value : BitVec width) {i : Nat} (here : i < n) :
    (setField word offset value).getLsbD i =
      if offset ≤ i ∧ i < offset + width then value.getLsbD (i - offset) else word.getLsbD i := by
  have low : i - offset < n := by omega
  rw [setField,BitVec.getLsbD_or,BitVec.getLsbD_and,BitVec.getLsbD_not,BitVec.getLsbD_shiftLeft,
    BitVec.getLsbD_shiftLeft,BitVec.getLsbD_setWidth,BitVec.getLsbD_setWidth,BitVec.getLsbD_allOnes]
  by_cases before : i < offset
  · have outside : ¬ (offset ≤ i ∧ i < offset + width) := by omega
    simp [here,before,outside]
  · by_cases after : offset + width ≤ i
    · have outside : ¬ (offset ≤ i ∧ i < offset + width) := by omega
      have beyond : ¬ i - offset < width := by omega
      have zero : value.getLsbD (i - offset) = false := BitVec.getLsbD_of_ge value _ (by omega)
      simp [here,outside,beyond,zero]
    · have inside : offset ≤ i ∧ i < offset + width := by omega
      have within : i - offset < width := by omega
      simp only [here,before,low,inside,within,decide_true,decide_false,Bool.not_false,Bool.true_and,Bool.and_true,
        Bool.not_true,Bool.and_false,Bool.false_or,and_self,if_true]

theorem field_setField_inside (word : BitVec n) (offset : Nat) (value : BitVec width) (start len : Nat)
    (fits : offset + width ≤ n) (inside : start + len ≤ width) :
    field (setField word offset value) (offset + start) len = field value start len := by
  apply BitVec.eq_of_getLsbD_eq
  intro i within
  rw [getLsbD_field,getLsbD_field,getLsbD_setField word offset value (by omega),if_pos (by omega),Nat.add_assoc,
    Nat.add_sub_cancel_left]

theorem field_setField_self (word : BitVec n) (offset : Nat) (value : BitVec width) (fits : offset + width ≤ n) :
    field (setField word offset value) offset width = value := by
  apply BitVec.eq_of_getLsbD_eq
  intro i within
  rw [getLsbD_field,getLsbD_setField word offset value (by omega),if_pos (by omega),Nat.add_sub_cancel_left,
    decide_eq_true within,Bool.true_and]

theorem field_setField_apart (word : BitVec n) (offset : Nat) (value : BitVec width) {start len : Nat}
    (fits : start + len ≤ n) (apart : start + len ≤ offset ∨ offset + width ≤ start) :
    field (setField word offset value) start len = field word start len := by
  apply BitVec.eq_of_getLsbD_eq
  intro i within
  rw [getLsbD_field,getLsbD_field,getLsbD_setField word offset value (by omega),if_neg (by omega)]

theorem field_or (first second : BitVec n) (offset width : Nat) :
    field (first ||| second) offset width = field first offset width ||| field second offset width :=
  BitVec.extractLsb'_or

/-- A value shifted to its field is read back there, as far as it fits. -/
theorem field_shiftLeft (value : BitVec n) (offset width : Nat) (fits : offset + width ≤ n) :
    field (value <<< offset) offset width = value.setWidth width := by
  apply BitVec.eq_of_getLsbD_eq
  intro i within
  have inside : offset + i < n := by omega
  have above : ¬ offset + i < offset := by omega
  rw [getLsbD_field,BitVec.getLsbD_shiftLeft,BitVec.getLsbD_setWidth,Nat.add_sub_cancel_left]
  simp only [within,inside,above,decide_true,decide_false,Bool.not_false,Bool.true_and]

theorem field_shiftLeft_below (value : BitVec n) {offset start len : Nat} (below : start + len ≤ offset) :
    field (value <<< offset) start len = 0 := by
  apply BitVec.eq_of_getLsbD_eq
  intro i within
  have low : start + i < offset := by omega
  rw [getLsbD_field,BitVec.getLsbD_shiftLeft]
  simp [low]

theorem field_shiftLeft_above (value : BitVec n) {offset bits start len : Nat} (small : value.toNat < 2^bits)
    (above : offset + bits ≤ start) : field (value <<< offset) start len = 0 := by
  apply BitVec.eq_of_getLsbD_eq
  intro i within
  have high : 2^bits ≤ 2^(start + i - offset) := Nat.pow_le_pow_right (by decide) (by omega)
  have zero : value.getLsbD (start + i - offset) = false := Nat.testBit_lt_two_pow (Nat.lt_of_lt_of_le small high)
  rw [getLsbD_field,BitVec.getLsbD_shiftLeft,zero]
  simp

theorem field_low (value : BitVec n) {width : Nat} (fits : width ≤ n) : field value 0 width = value.setWidth width := by
  have shifted := field_shiftLeft value 0 width (by omega)
  rw [BitVec.shiftLeft_zero] at shifted
  exact shifted

theorem field_above (value : BitVec n) {bits start len : Nat} (small : value.toNat < 2^bits) (above : bits ≤ start) :
    field value start len = 0 := by
  have shifted : field (value <<< 0) start len = 0 := field_shiftLeft_above value small (by omega)
  rw [BitVec.shiftLeft_zero] at shifted
  exact shifted

theorem toNat_lt_of_shiftRight {value : BitVec n} {bits : Nat} (gone : value >>> bits = 0) : value.toNat < 2^bits := by
  have zero := congrArg BitVec.toNat gone
  rw [BitVec.toNat_ushiftRight,Nat.shiftRight_eq_div_pow] at zero
  exact (Nat.div_eq_zero_iff_lt (Nat.two_pow_pos bits)).mp (by simpa using zero)

end Abtrda3.Semantics.BitField
