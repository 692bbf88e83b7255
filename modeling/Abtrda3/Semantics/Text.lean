import Mathlib.Algebra.Group.Nat.Defs
import Mathlib.Data.List.Basic

/-! Texts as C reads them. A run is a stretch of characters of one kind that the rest of the
text does not go on with; scanning splits a text into such runs in one way only. A number
is written in hexadecimal by `Nat.toDigits` and read back by `hexNumeral`. A C string ends
at its first NUL. -/
namespace Abtrda3.Semantics.Text

section runs

variable {α : Type} {p : α → Bool} {text digits rest : List α}

structure Run (p : α → Bool) (text digits rest : List α) : Prop where
  split : text = digits ++ rest
  all : ∀ c ∈ digits, p c = true
  stops : ∀ c ∈ rest.head?, p c = false

theorem dropWhile_of_stops (stops : ∀ c ∈ rest.head?, p c = false) : rest.dropWhile p = rest := by
  cases rest with
  | nil => rfl
  | cons c rest => rw [List.dropWhile_cons_of_neg (by rw [stops c rfl]; decide)]

theorem takeWhile_of_stops (stops : ∀ c ∈ rest.head?, p c = false) : rest.takeWhile p = [] := by
  cases rest with
  | nil => rfl
  | cons c rest => rw [List.takeWhile_cons_of_neg (by rw [stops c rfl]; decide)]

theorem Run.takeWhile (run : Run p text digits rest) : text.takeWhile p = digits := by
  rw [run.split,List.takeWhile_append_of_pos run.all,takeWhile_of_stops run.stops,List.append_nil]

theorem Run.dropWhile (run : Run p text digits rest) : text.dropWhile p = rest := by
  rw [run.split,List.dropWhile_append_of_pos run.all,dropWhile_of_stops run.stops]

theorem run_span (p : α → Bool) (text : List α) : Run p text (text.takeWhile p) (text.dropWhile p) := by
  refine ⟨List.takeWhile_append_dropWhile.symm,?_,?_⟩
  · intro c member
    exact List.all_eq_true.mp List.all_takeWhile c member
  · intro c head
    have stopped := List.head?_dropWhile_not p text
    rw [Option.mem_def.mp head] at stopped
    exact stopped

end runs

def expect (c : Char) : List Char → Option (List Char)
  | [] => none
  | first::rest => if first = c then some rest else none

theorem expect_cons (c : Char) (rest : List Char) : expect c (c::rest) = some rest := if_pos rfl

theorem expect_eq_some {c : Char} {text rest : List Char} (read : expect c text = some rest) : text = c::rest := by
  cases text with
  | nil => cases read
  | cons first tail =>
    by_cases same : first = c
    · rw [same,expect_cons] at read
      rw [same,Option.some.inj read]
    · cases (if_neg same).symm.trans read

def isSpace (c : Char) : Bool := c ∈ [' ','\t','\n','\x0b','\x0c','\r']

def scanSign : List Char → List Char × List Char
  | [] => ([],[])
  | c::text => if c = '+' ∨ c = '-' then ([c],text) else ([],c::text)

theorem scanSign_split (text : List Char) :
    text = (scanSign text).1 ++ (scanSign text).2 ∧ ∀ c ∈ (scanSign text).1, c = '+' ∨ c = '-' := by
  unfold scanSign
  split
  · exact ⟨rfl,fun c none => nomatch none⟩
  · split
    · next sign => exact ⟨rfl,List.forall_mem_singleton.mpr sign⟩
    · exact ⟨rfl,fun c none => nomatch none⟩

theorem scanSign_of_head {text : List Char} (plain : ∀ c ∈ text.head?, ¬(c = '+' ∨ c = '-')) :
    scanSign text = ([],text) := by
  cases text with
  | nil => rfl
  | cons c text => exact if_neg (plain c rfl)

theorem isDigit_apart {c : Char} (digit : c.isDigit = true) : isSpace c = false ∧ ¬(c = '+' ∨ c = '-') := by
  constructor
  · cases space : isSpace c with
    | false => rfl
    | true =>
      simp only [isSpace,List.mem_cons,List.not_mem_nil,or_false,decide_eq_true_eq] at space
      rcases space with rfl | rfl | rfl | rfl | rfl | rfl <;> cases digit
  · rintro (rfl | rfl) <;> cases digit

def cString (s : List Char) : List Char := s.takeWhile (· ≠ '\x00')

theorem cString_of_noNul {s : List Char} (noNul : '\x00' ∉ s) : cString s = s := by
  unfold cString
  rw [← List.append_nil s,List.takeWhile_append_of_pos]
  · rfl
  · intro c member
    rw [decide_eq_true_iff]
    rintro rfl
    exact noNul member

def isHexDigit (c : Char) : Bool := c.isDigit || ('a' ≤ c && c ≤ 'f') || ('A' ≤ c && c ≤ 'F')

def hexValue (c : Char) : Nat :=
  if c.isDigit then c.toNat - 48 else if 'a' ≤ c ∧ c ≤ 'f' then c.toNat - 87 else c.toNat - 55

def hexNumeral (digits : List Char) : Nat := digits.foldl (fun n c => 16 * n + hexValue c) 0

theorem hexValue_digitChar : ∀ n < 16, hexValue n.digitChar = n := by decide

theorem isHexDigit_digitChar : ∀ n < 16, isHexDigit n.digitChar = true := by decide

theorem hexNumeral_snoc (digits : List Char) (c : Char) :
    hexNumeral (digits ++ [c]) = 16 * hexNumeral digits + hexValue c := by
  unfold hexNumeral
  rw [List.foldl_append]
  rfl

theorem hexValue_lt {c : Char} (hex : isHexDigit c = true) : hexValue c < 16 := by
  have letter (high : Char) (upTo : c ≤ high) : c.toNat ≤ high.toNat := by
    simpa [Char.le_def,UInt32.le_iff_toNat_le] using upTo
  unfold hexValue
  split
  · next digit =>
    have bound : c.toNat ≤ 57 := by
      simp only [Char.isDigit,Bool.and_eq_true,decide_eq_true_eq,UInt32.le_iff_toNat_le] at digit
      exact digit.2
    omega
  · next other =>
    split
    · next lower =>
      have bound : c.toNat ≤ 102 := letter 'f' lower.2
      omega
    · next notLower =>
      simp only [isHexDigit,Bool.or_eq_true,Bool.and_eq_true,decide_eq_true_eq] at hex
      have upper := hex.resolve_left (not_or.mpr ⟨other,notLower⟩)
      have bound : c.toNat ≤ 70 := letter 'F' upper.2
      omega

theorem hexNumeral_lt {digits : List Char} (hex : ∀ c ∈ digits, isHexDigit c = true) :
    hexNumeral digits < 16^digits.length := by
  have bounded (n : Nat) : digits.foldl (fun n c => 16 * n + hexValue c) n < (n + 1) * 16^digits.length := by
    induction digits generalizing n with
    | nil => rw [List.length_nil,Nat.pow_zero,Nat.mul_one]; exact Nat.lt_succ_self n
    | cons c digits ih =>
      rw [List.forall_mem_cons] at hex
      have low := hexValue_lt hex.1
      calc digits.foldl (fun n c => 16 * n + hexValue c) (16 * n + hexValue c)
          < (16 * n + hexValue c + 1) * 16^digits.length := ih hex.2 _
        _ ≤ ((n + 1) * 16) * 16^digits.length := Nat.mul_le_mul_right _ (by omega)
        _ = (n + 1) * 16^(digits.length + 1) := by rw [Nat.pow_succ',Nat.mul_assoc]
  have whole := bounded 0
  rwa [Nat.zero_add,Nat.one_mul] at whole

theorem hexNumeral_toDigits (n : Nat) : hexNumeral (Nat.toDigits 16 n) = n := by
  induction n using Nat.strongRecOn with
  | ind n ih =>
    rcases Nat.lt_or_ge n 16 with small | large
    · rw [Nat.toDigits_of_lt_base small]
      exact (Nat.zero_add _).trans (hexValue_digitChar n small)
    · rw [Nat.toDigits_of_base_le (by decide) large,hexNumeral_snoc,ih (n / 16) (by omega),
        hexValue_digitChar (n % 16) (by omega)]
      omega

theorem isHexDigit_of_mem_toDigits (n : Nat) : ∀ c ∈ Nat.toDigits 16 n, isHexDigit c = true := by
  induction n using Nat.strongRecOn with
  | ind n ih =>
    intro c member
    rcases Nat.lt_or_ge n 16 with small | large
    · rw [Nat.toDigits_of_lt_base small,List.mem_singleton] at member
      rw [member]
      exact isHexDigit_digitChar n small
    · rw [Nat.toDigits_of_base_le (by decide) large,List.mem_append,List.mem_singleton] at member
      rcases member with high | low
      · exact ih (n / 16) (by omega) c high
      · rw [low]
        exact isHexDigit_digitChar (n % 16) (by omega)

end Abtrda3.Semantics.Text
