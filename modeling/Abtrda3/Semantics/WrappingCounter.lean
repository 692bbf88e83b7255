import Mathlib.Data.List.Nodup
import Mathlib.Data.Nat.Bitwise
import Mathlib.Data.Nat.ModEq
import Mathlib.Logic.Function.Basic

/-! Fixed-width counters that only move forward. A counter of width `w` holds the
count of some event modulo `2^w`; differences, masked indices and lap parities of
counters are read off the unbounded counts they stand for. The last part is about
positions of a ring inside one window of its size, about the list of the positions that
a run of counts goes through, and about tables written position by position. -/
namespace Abtrda3.Semantics.WrappingCounter

theorem ofNat_succ (w count : Nat) : BitVec.ofNat w count + 1 = BitVec.ofNat w (count + 1) := by
  rw [BitVec.ofNat_add]
  rfl

theorem ofNat_toNat_mod (w count : Nat) : (BitVec.ofNat w count).toNat = count % 2^w := by
  simp

theorem sub_ofNat (w : Nat) {later earlier : Nat} (order : earlier ≤ later) :
    BitVec.ofNat w later - BitVec.ofNat w earlier = BitVec.ofNat w (later - earlier) := by
  obtain ⟨gap,rfl⟩ := Nat.exists_eq_add_of_le order
  rw [BitVec.ofNat_add,Nat.add_sub_cancel_left,BitVec.add_comm]
  exact BitVec.add_sub_cancel ..

theorem sub_toNat {w later earlier : Nat} (order : earlier ≤ later) (near : later - earlier < 2^w) :
    (BitVec.ofNat w later - BitVec.ofNat w earlier).toNat = later - earlier := by
  rw [sub_ofNat w order,ofNat_toNat_mod,Nat.mod_eq_of_lt near]

/-- Read as a signed number, the difference of two counter words is the true difference
while that stays within half the number space. -/
theorem sub_toInt {width : Nat} {n m : Nat} (behind : m ≤ n + 2^width) (ahead : n < m + 2^width) :
    (BitVec.ofNat (width + 1) n - BitVec.ofNat (width + 1) m).toInt = (n : Int) - m := by
  have read (k : Nat) : (BitVec.ofNat (width + 1) k).toInt = (k : Int).bmod (2^(width + 1)) := by
    rw [← BitVec.ofInt_natCast,BitVec.toInt_ofInt]
  rw [BitVec.toInt_sub,read,read,Int.sub_bmod_bmod,Int.bmod_sub_bmod]
  have half : ((2^width : Nat) : Int) = 2^width := by push_cast; rfl
  apply Int.bmod_eq_of_le <;> rw [Nat.pow_succ] <;> push_cast <;> omega

theorem mask_toNat {w k : Nat} (fits : k ≤ w) (count : Nat) :
    (BitVec.ofNat w count &&& (BitVec.ofNat w (2^k) - 1)).toNat = count % 2^k := by
  have divides : 2^k ∣ 2^w := Nat.pow_dvd_pow 2 fits
  have pos : 0 < 2^k := Nat.two_pow_pos k
  have mask : (BitVec.ofNat w (2^k) - 1).toNat = 2^k - 1 := by
    have one : (1 : BitVec w) = BitVec.ofNat w 1 := rfl
    rw [one,sub_toNat pos (lt_of_lt_of_le (Nat.sub_lt pos Nat.one_pos) (Nat.le_of_dvd (Nat.two_pow_pos w) divides))]
  rw [BitVec.toNat_and,mask,Nat.and_two_pow_sub_one_eq_mod,ofNat_toNat_mod,Nat.mod_mod_of_dvd _ divides]

/-- Clearing the bits under the mask rounds down. -/
theorem unmask_toNat {w k : Nat} (fits : k ≤ w) (word : BitVec w) :
    (word &&& ~~~(BitVec.ofNat w (2^k) - 1)).toNat = word.toNat / 2^k * 2^k := by
  have apart : (word &&& ~~~(BitVec.ofNat w (2^k) - 1)) &&& (word &&& (BitVec.ofNat w (2^k) - 1)) = 0 := by
    apply BitVec.eq_of_getLsbD_eq
    intro i below
    simp only [BitVec.getLsbD_and,BitVec.getLsbD_not,below]
    cases word.getLsbD i <;> cases (BitVec.ofNat w (2^k) - 1).getLsbD i <;> simp
  have whole : (word &&& ~~~(BitVec.ofNat w (2^k) - 1)) + (word &&& (BitVec.ofNat w (2^k) - 1)) = word := by
    rw [BitVec.add_eq_or_of_and_eq_zero _ _ apart]
    apply BitVec.eq_of_getLsbD_eq
    intro i below
    simp only [BitVec.getLsbD_or,BitVec.getLsbD_and,BitVec.getLsbD_not,below]
    cases word.getLsbD i <;> cases (BitVec.ofNat w (2^k) - 1).getLsbD i <;> rfl
  have low := mask_toNat fits word.toNat
  rw [BitVec.ofNat_toNat,BitVec.setWidth_eq] at low
  have sum := congrArg BitVec.toNat whole
  rw [BitVec.toNat_add_of_and_eq_zero apart,low] at sum
  have parts := Nat.div_add_mod' word.toNat (2^k)
  omega

/-- A ring index kept reduced is stepped by adding one and masking. -/
theorem masked_succ {w k : Nat} (fits : k ≤ w) (count : Nat) :
    (BitVec.ofNat w (count % 2^k) + 1) &&& (BitVec.ofNat w (2^k) - 1) = BitVec.ofNat w ((count + 1) % 2^k) := by
  have pos := Nat.two_pow_pos k
  have below := Nat.mod_lt (count + 1) pos
  have wide : 2^k ≤ 2^w := Nat.pow_le_pow_right (by decide) fits
  apply BitVec.eq_of_toNat_eq
  rw [ofNat_succ,mask_toNat fits,ofNat_toNat_mod,Nat.mod_eq_of_lt (by omega : (count + 1) % 2^k < 2^w),Nat.mod_add_mod]

theorem masked_pred {w k : Nat} (fits : k ≤ w) (count : Nat) :
    (BitVec.ofNat w (count % 2^k) - 1) &&& (BitVec.ofNat w (2^k) - 1) = BitVec.ofNat w ((count + (2^k - 1)) % 2^k) := by
  have pos := Nat.two_pow_pos k
  have wide : 2^k ≤ 2^w := Nat.pow_le_pow_right (by decide) fits
  have one : (1 : BitVec w) = BitVec.ofNat w 1 := rfl
  have below := Nat.mod_lt count pos
  rw [← Nat.mod_add_mod count]
  generalize count % 2^k = index at below
  rcases Nat.eq_zero_or_pos index with zero | some
  · have ones : BitVec.ofNat w index - 1 = BitVec.allOnes w := by
      rw [zero]
      exact (BitVec.zero_sub _).trans BitVec.neg_one_eq_allOnes
    rw [ones,BitVec.allOnes_and,one,sub_ofNat w pos,zero,Nat.zero_add,Nat.mod_eq_of_lt (by omega)]
  · have lap : index + (2^k - 1) = index - 1 + 2^k := by omega
    apply BitVec.eq_of_toNat_eq
    rw [one,sub_ofNat w some,← one,mask_toNat fits,lap,Nat.add_mod_right,ofNat_toNat_mod]
    have small : (index - 1) % 2^k = index - 1 := Nat.mod_eq_of_lt (by omega)
    have narrow : (index - 1) % 2^w = index - 1 := Nat.mod_eq_of_lt (by omega)
    exact small.trans (narrow.symm.trans (by rw [small]))

theorem low_bits {w v : Nat} (narrow : v ≤ w) (count : Nat) :
    (BitVec.ofNat w count &&& BitVec.ofNat w (2^v - 1)).setWidth v = BitVec.ofNat v count := by
  apply BitVec.eq_of_toNat_eq
  have divides : 2^v ∣ 2^w := Nat.pow_dvd_pow 2 narrow
  have below : 2^v - 1 < 2^w := by
    have := Nat.le_of_dvd (Nat.two_pow_pos w) divides
    have := Nat.two_pow_pos v
    omega
  rw [BitVec.toNat_setWidth,BitVec.toNat_and,ofNat_toNat_mod,ofNat_toNat_mod,ofNat_toNat_mod,
    Nat.mod_eq_of_lt below,Nat.and_two_pow_sub_one_eq_mod,Nat.mod_mod,Nat.mod_mod_of_dvd _ divides]

/-- The bit just above the mask is the parity of the lap the count is in. -/
theorem lap_bit {w k : Nat} (fits : k < w) (count : Nat) :
    (BitVec.ofNat w count &&& BitVec.ofNat w (2^k)) ≠ 0 ↔ count / 2^k % 2 = 1 := by
  have below : 2^k < 2^w := Nat.pow_lt_pow_right (by omega) fits
  have value : (BitVec.ofNat w count &&& BitVec.ofNat w (2^k)).toNat =
      (count % 2^w) &&& 2^k := by
    rw [BitVec.toNat_and,ofNat_toNat_mod,ofNat_toNat_mod,Nat.mod_eq_of_lt below]
  have bit : (count % 2^w).testBit k = decide (count / 2^k % 2 = 1) := by
    rw [Nat.testBit_mod_two_pow,Nat.testBit_eq_decide_div_mod_eq]
    simp [fits]
  rw [Ne,← BitVec.toNat_inj,value,Nat.and_two_pow,bit]
  by_cases odd : count / 2^k % 2 = 1 <;> simp [odd]

theorem ofNat_eq_iff (w : Nat) {later earlier : Nat} (order : earlier ≤ later) (near : later - earlier < 2^w) :
    BitVec.ofNat w later = BitVec.ofNat w earlier ↔ later = earlier := by
  constructor
  · intro same
    have gap := sub_toNat order near
    rw [same,BitVec.sub_self] at gap
    have zero : later - earlier = 0 := by simpa using gap.symm
    omega
  · intro same
    rw [same]

theorem mod_ne_of_window {size low high : Nat} (order : low < high) (window : high < low + size) :
    low % size ≠ high % size := by
  intro same
  have gap : size ∣ high - low := (Nat.modEq_iff_dvd' order.le).mp same
  have := Nat.le_of_dvd (by omega) gap
  omega

theorem mod_inj_of_window {size base first second : Nat} (lowFirst : base ≤ first) (lowSecond : base ≤ second)
    (highFirst : first < base + size) (highSecond : second < base + size)
    (same : first % size = second % size) : first = second := by
  rcases lt_trichotomy first second with less | equal | greater
  · exact absurd same (mod_ne_of_window less (by omega))
  · exact equal
  · exact absurd same.symm (mod_ne_of_window greater (by omega))

/-- The distance between two positions of a ring is the distance of the counts, up to laps. -/
theorem gap_mod {size later earlier : Nat} (some : 0 < size) (order : earlier ≤ later) :
    (later % size + size - earlier % size) % size = (later - earlier) % size := by
  have below := Nat.mod_lt earlier some
  have sum : later % size + size - earlier % size + earlier % size = later % size + size := by omega
  apply Nat.ModEq.add_right_cancel' earlier
  calc later % size + size - earlier % size + earlier
      ≡ later % size + size - earlier % size + earlier % size [MOD size] := (Nat.mod_modEq earlier size).symm.add_left _
    _ = later % size + size := sum
    _ ≡ later [MOD size] := (Nat.mod_modEq (later % size + size) size).symm.trans (by
        rw [Nat.add_mod_right]
        exact (Nat.mod_modEq _ _).trans (Nat.mod_modEq _ _))
    _ = later - earlier + earlier := (Nat.sub_add_cancel order).symm

/-- Every ring position is taken by exactly one count of a full window. -/
theorem exists_mod_eq_of_window {size position : Nat} (base : Nat) (inside : position < size) :
    ∃ count, base ≤ count ∧ count < base + size ∧ count % size = position := by
  have pos : 0 < size := by omega
  have low := Nat.mod_lt base pos
  have split := Nat.div_add_mod base size
  by_cases ahead : base % size ≤ position
  · refine ⟨base - base % size + position,by omega,by omega,?_⟩
    have whole : base - base % size = size * (base / size) := by omega
    rw [whole,Nat.mul_add_mod,Nat.mod_eq_of_lt inside]
  · refine ⟨base - base % size + size + position,by omega,by omega,?_⟩
    have whole : base - base % size = size * (base / size) := by omega
    rw [whole,Nat.add_assoc,Nat.mul_add_mod,Nat.add_mod_left,Nat.mod_eq_of_lt inside]

def window (w size base count : Nat) : List (BitVec w) :=
  (List.range' base count).map (fun n => BitVec.ofNat w (n % size))

section window

variable {w size base count : Nat}

@[simp] theorem window_length : (window w size base count).length = count := by
  simp [window]

@[simp] theorem window_zero : window w size base 0 = [] := rfl

theorem window_succ : window w size base (count + 1) = BitVec.ofNat w (base % size) :: window w size (base + 1) count := by
  simp [window,List.range'_succ]

theorem window_append (more : Nat) :
    window w size base count ++ window w size (base + count) more = window w size base (count + more) := by
  rw [window,window,window,← List.map_append]
  congr 1
  simp

theorem window_snoc :
    window w size base (count + 1) = window w size base count ++ [BitVec.ofNat w ((base + count) % size)] := by
  rw [← window_append]
  rfl

theorem window_lap : window w size (size + base) count = window w size base count := by
  induction count generalizing base with
  | zero => rfl
  | succ count ih => rw [window_succ,window_succ,Nat.add_mod_left,Nat.add_assoc,ih]

theorem window_getElem? {i : Nat} (inside : i < count) :
    (window w size base count)[i]? = some (BitVec.ofNat w ((base + i) % size)) := by
  simp [window,inside]

theorem window_take {first : Nat} (fits : first ≤ count) :
    (window w size base count).take first = window w size base first := by
  obtain ⟨more,rfl⟩ := Nat.exists_eq_add_of_le fits
  rw [← window_append,List.take_append_of_le_length (by simp),List.take_of_length_le (by simp)]

theorem window_drop {first : Nat} (fits : first ≤ count) :
    (window w size base count).drop first = window w size (base + first) (count - first) := by
  obtain ⟨more,rfl⟩ := Nat.exists_eq_add_of_le fits
  rw [← window_append,List.drop_append_of_le_length (by simp),List.drop_of_length_le (by simp),
    Nat.add_sub_cancel_left]
  rfl

theorem window_of_isPrefix {ids : List (BitVec w)} (start : ids <+: window w size base count) :
    ids = window w size base ids.length := by
  have fits : ids.length ≤ count := by simpa using start.length_le
  rw [← window_take fits]
  exact List.prefix_iff_eq_take.mp start

/-- The position after a window is among its own exactly when the window spans the ring. -/
theorem next_mem_window_iff (base count : Nat) (some : 0 < size) (fits : size ≤ 2^w) :
    BitVec.ofNat w ((base + count) % size) ∈ window w size base count ↔ size ≤ count := by
  have value {n : Nat} : (BitVec.ofNat w (n % size)).toNat = n % size := by
    have below := Nat.mod_lt n some
    rw [ofNat_toNat_mod]
    exact Nat.mod_eq_of_lt (by omega)
  rw [window,List.mem_map]
  constructor
  · rintro ⟨n,member,same⟩
    have range := List.mem_range'_1.mp member
    have equal := congrArg BitVec.toNat same
    rw [value,value] at equal
    by_contra short
    exact mod_ne_of_window range.2 (by omega) equal
  · intro long
    refine ⟨base + count - size,List.mem_range'_1.mpr ⟨by omega,by omega⟩,?_⟩
    have lap : base + count = base + count - size + size := by omega
    rw [lap,Nat.add_sub_cancel,Nat.add_mod_right]

/-- A window as long as the ring goes through every position once. -/
theorem window_perm (fits : size ≤ 2^w) : ((window w size base size).map BitVec.toNat).Perm (List.range size) := by
  have values : (window w size base size).map BitVec.toNat = (List.range' base size).map (· % size) := by
    rw [window,List.map_map]
    apply List.map_congr_left
    intro n member
    have pos : 0 < size := by
      have := List.mem_range'_1.mp member
      omega
    have below := Nat.mod_lt n pos
    simp only [Function.comp_apply,ofNat_toNat_mod]
    exact Nat.mod_eq_of_lt (by omega)
  rw [values]
  rw [List.perm_ext_iff_of_nodup]
  · intro position
    rw [List.mem_map,List.mem_range]
    constructor
    · rintro ⟨n,member,rfl⟩
      have := List.mem_range'_1.mp member
      exact Nat.mod_lt n (by omega)
    · intro inside
      obtain ⟨n,low,high,same⟩ := exists_mod_eq_of_window base inside
      exact ⟨n,List.mem_range'_1.mpr ⟨low,high⟩,same⟩
  · apply List.Nodup.map_on
    · intro first memberFirst second memberSecond same
      obtain ⟨lowFirst,highFirst⟩ := List.mem_range'_1.mp memberFirst
      obtain ⟨lowSecond,highSecond⟩ := List.mem_range'_1.mp memberSecond
      exact mod_inj_of_window lowFirst lowSecond highFirst highSecond same
    · exact List.nodup_range'
  · exact List.nodup_range

end window

theorem foldl_update_range {α : Type} (write : Nat → α → α) (table : Nat → α) (count i : Nat) :
    (List.range count).foldl (fun table i => Function.update table i (write i (table i))) table i =
      if i < count then write i (table i) else table i := by
  induction count generalizing i with
  | zero => rfl
  | succ count ih =>
    rw [List.range_succ,List.foldl_append,List.foldl_cons,List.foldl_nil]
    by_cases last : i = count
    · rw [last,Function.update_self,ih,if_neg (Nat.lt_irrefl count),if_pos (Nat.lt_succ_self count)]
    · rw [Function.update_of_ne last,ih]
      by_cases before : i < count
      · rw [if_pos before,if_pos (Nat.lt_succ_of_lt before)]
      · rw [if_neg before,if_neg (by omega)]

end Abtrda3.Semantics.WrappingCounter
