import Abtrda3.Semantics.Text
import Mathlib.Data.BitVec

/-! `pci::bdfFromName`: the PCI address in a predictable interface name. The numbers of the
name are read into `unsigned`, wrapping, and masked before they are written into the
address; the address is returned if a device of that address exists. -/
namespace Abtrda3.PciName
open Abtrda3.Semantics.Text

def readDigits (out : BitVec 32) : List Char → BitVec 32 × List Char
  | [] => (out,[])
  | c::rest =>
    if c.isDigit then readDigits (out * 10 + BitVec.ofNat 32 (c.toNat - '0'.toNat)) rest else (out,c::rest)

def readDec (text : List Char) : Option (BitVec 32 × List Char) :=
  let read := readDigits 0 text
  if read.2.length < text.length then some read else none

def readFunc : List Char → Option (BitVec 32)
  | 'f' :: text => (readDec text).map (·.1)
  | _ => some 0

def hex02 (n : Nat) : List Char := if n < 16 then '0' :: Nat.toDigits 16 n else Nat.toDigits 16 n

/-- The format "0000:%02x:%02x.%x". -/
def bdfText (bus dev func : Nat) : List Char :=
  ['0','0','0','0',':'] ++ (hex02 bus ++ ':' :: (hex02 dev ++ '.' :: Nat.toDigits 16 func))

def atLeast (size : Nat) (text : List Char) : Option (List Char) := if text.length < size then none else some text

def confirmed (present : List Char → Bool) (bdf : List Char) : Option (List Char) := if present bdf then some bdf else none

def address (present : List Char → Bool) (ifname : List Char) : Option (List Char) := do
  let text ← atLeast 5 ifname
  let text ← expect 'e' text
  let text ← expect 'n' text
  let text ← expect 'p' text
  let (bus,text) ← readDec text
  let text ← expect 's' text
  let (dev,text) ← readDec text
  let func ← readFunc text
  confirmed present (bdfText (bus &&& 0xFF).toNat (dev &&& 0xFF).toNat (func &&& 0xF).toNat)

def bdfFromName (present : List Char → Bool) (ifname : List Char) : List Char := (address present ifname).getD []

abbrev decimal (digits : List Char) : Nat := Nat.ofDigitChars 10 digits 0

def Number (text : List Char) (n : Nat) (rest : List Char) : Prop :=
  ∃ digits, digits ≠ [] ∧ Run Char.isDigit text digits rest ∧ decimal digits = n

inductive Function : List Char → Nat → Prop
  | absent (rest) (plain : rest.head? ≠ some 'f') : Function rest 0
  | given (text rest n) (funcIs : Number text n rest) : Function ('f' :: text) n

/-- The name starts with enp<bus>s<dev> or enp<bus>s<dev>f<func>; without a function number
the function is 0. -/
inductive Begins : List Char → Nat → Nat → Nat → Prop
  | enp (text middle rest bus dev func) (busIs : Number text bus ('s' :: middle)) (devIs : Number middle dev rest)
      (funcIs : Function rest func) : Begins ('e' :: 'n' :: 'p' :: text) bus dev func

/-- The accumulator is the number read so far modulo 2^32. -/
theorem readDigits_append {digits rest : List Char} (all : ∀ c ∈ digits, c.isDigit = true)
    (stops : ∀ c ∈ rest.head?, c.isDigit = false) (n : Nat) :
    readDigits (BitVec.ofNat 32 n) (digits ++ rest) = (BitVec.ofNat 32 (Nat.ofDigitChars 10 digits n),rest) := by
  induction digits generalizing n with
  | nil =>
    cases rest with
    | nil => rfl
    | cons c rest => exact if_neg (by rw [stops c rfl]; decide)
  | cons c digits ih =>
    rw [List.forall_mem_cons] at all
    have next : BitVec.ofNat 32 n * 10 + BitVec.ofNat 32 (c.toNat - '0'.toNat) =
        BitVec.ofNat 32 (10 * n + (c.toNat - '0'.toNat)) := by
      rw [BitVec.ofNat_add,BitVec.ofNat_mul,BitVec.mul_comm]
      rfl
    rw [Nat.ofDigitChars_cons,← ih all.2]
    change (if c.isDigit then _ else _) = _
    rw [if_pos all.1,next]
    rfl

variable {text rest : List Char}

theorem readDec_number {n : Nat} (number : Number text n rest) :
    readDec text = some (BitVec.ofNat 32 n,rest) := by
  obtain ⟨digits,some,run,rfl⟩ := number
  have read := readDigits_append run.all run.stops 0
  rw [← run.split] at read
  have shorter : rest.length < text.length := by
    have first := List.length_pos_iff.mpr some
    rw [run.split,List.length_append]
    omega
  unfold readDec
  rw [show (0 : BitVec 32) = BitVec.ofNat 32 0 from rfl,read]
  exact if_pos shorter

theorem number_of_readDec {word : BitVec 32} (read : readDec text = some (word,rest)) :
    ∃ n, Number text n rest := by
  have run := run_span Char.isDigit text
  have whole := readDigits_append run.all run.stops 0
  rw [← run.split] at whole
  unfold readDec at read
  rw [show (0 : BitVec 32) = BitVec.ofNat 32 0 from rfl,whole] at read
  dsimp only at read
  split at read
  · next shorter =>
    cases read
    refine ⟨_,_,?_,run,rfl⟩
    intro none
    rw [congrArg List.length run.split,none,List.nil_append] at shorter
    exact Nat.lt_irrefl _ shorter
  · cases read

private theorem masked_byte (n : Nat) : (BitVec.ofNat 32 n &&& 0xFF).toNat = n % 256 := by
  rw [BitVec.toNat_and,BitVec.toNat_ofNat]
  change n % 2^32 &&& (2^8 - 1) = _
  rw [Nat.and_two_pow_sub_one_eq_mod]
  omega

private theorem masked_nibble (n : Nat) : (BitVec.ofNat 32 n &&& 0xF).toNat = n % 16 := by
  rw [BitVec.toNat_and,BitVec.toNat_ofNat]
  change n % 2^32 &&& (2^4 - 1) = _
  rw [Nat.and_two_pow_sub_one_eq_mod]
  omega

private theorem number_length {n : Nat} (number : Number text n rest) :
    rest.length < text.length := by
  obtain ⟨digits,some,run,_⟩ := number
  have first := List.length_pos_iff.mpr some
  rw [run.split,List.length_append]
  omega

private theorem readFunc_function {text : List Char} {n : Nat} (function : Function text n) :
    readFunc text = some (BitVec.ofNat 32 n) := by
  cases function with
  | absent rest plain =>
    unfold readFunc
    split
    · exact absurd rfl plain
    · rfl
  | given text rest n funcIs =>
    change (readDec text).map (·.1) = _
    rw [readDec_number funcIs]
    rfl

private theorem function_of_readFunc {text : List Char} {word : BitVec 32} (read : readFunc text = some word) :
    ∃ n, Function text n := by
  unfold readFunc at read
  split at read
  · next text =>
    obtain ⟨⟨word,rest⟩,found,_⟩ := Option.map_eq_some_iff.mp read
    obtain ⟨n,number⟩ := number_of_readDec found
    exact ⟨n,.given text rest n number⟩
  · next plain =>
    refine ⟨0,.absent text ?_⟩
    intro head
    obtain ⟨rest,rfl⟩ := List.head?_eq_some_iff.mp head
    exact plain rest rfl

private theorem atLeast_eq_some {size : Nat} (read : atLeast size text = some rest) :
    text = rest := by
  unfold atLeast at read
  split at read
  · cases read
  · exact Option.some.inj read

variable {name : List Char} {bus dev func : Nat} {present : List Char → Bool}

theorem address_begins (begins : Begins name bus dev func)
    (present : List Char → Bool) :
    address present name = confirmed present (bdfText (bus % 256) (dev % 256) (func % 16)) := by
  obtain ⟨text,middle,rest,_,_,_,busIs,devIs,funcIs⟩ := begins
  have first := number_length busIs
  have second := number_length devIs
  have long : atLeast 5 ('e' :: 'n' :: 'p' :: text) = some ('e' :: 'n' :: 'p' :: text) := by
    refine if_neg ?_
    simp only [List.length_cons] at first ⊢
    omega
  unfold address
  simp only [Option.bind_eq_bind,long,Option.bind_some,expect_cons,readDec_number busIs,readDec_number devIs,
    readFunc_function funcIs,masked_byte,masked_nibble]

private theorem begins_of_address {name bdf : List Char}
    (found : address present name = some bdf) :
    ∃ bus dev func, Begins name bus dev func := by
  unfold address at found
  simp only [Option.bind_eq_bind,Option.bind_eq_some_iff] at found
  obtain ⟨_,whole,_,e,_,n,text,p,⟨_,_⟩,busRead,middle,s,⟨_,rest⟩,devRead,_,funcRead,_⟩ := found
  dsimp only at s funcRead
  rw [expect_eq_some s] at busRead
  rw [atLeast_eq_some whole,expect_eq_some e,expect_eq_some n,expect_eq_some p]
  obtain ⟨_,busIs⟩ := number_of_readDec busRead
  obtain ⟨_,devIs⟩ := number_of_readDec devRead
  obtain ⟨_,funcIs⟩ := function_of_readFunc funcRead
  exact ⟨_,_,_,.enp text middle rest _ _ _ busIs devIs funcIs⟩

theorem bdfFromName_begins (begins : Begins name bus dev func)
    (present : List Char → Bool) :
    bdfFromName present name =
      if present (bdfText (bus % 256) (dev % 256) (func % 16)) then
        bdfText (bus % 256) (dev % 256) (func % 16) else [] := by
  unfold bdfFromName
  rw [address_begins begins present]
  unfold confirmed
  split <;> rfl

private theorem begins_of_bdfFromName
    (found : bdfFromName present name ≠ []) :
    ∃ bus dev func, Begins name bus dev func := by
  cases read : address present name with
  | none =>
    unfold bdfFromName at found
    rw [read] at found
    exact absurd rfl found
  | some bdf => exact begins_of_address read

private theorem hex02_digits (n : Nat) : ∀ c ∈ hex02 n, isHexDigit c = true := by
  unfold hex02
  split
  · rw [List.forall_mem_cons]
    exact ⟨by decide,isHexDigit_of_mem_toDigits n⟩
  · exact isHexDigit_of_mem_toDigits n

theorem hexNumeral_hex02 (n : Nat) : hexNumeral (hex02 n) = n := by
  unfold hex02
  split
  · exact hexNumeral_toDigits n
  · exact hexNumeral_toDigits n

theorem hex02_run (n : Nat) (separator : Char) (rest : List Char) (other : isHexDigit separator = false) :
    Run isHexDigit (hex02 n ++ separator :: rest) (hex02 n) (separator :: rest) := by
  refine ⟨rfl,hex02_digits n,?_⟩
  rintro c ⟨⟩
  exact other

theorem bdfText_injective {bus dev func bus' dev' func' : Nat} (same : bdfText bus dev func = bdfText bus' dev' func') :
    bus = bus' ∧ dev = dev' ∧ func = func' := by
  have tail := List.append_cancel_left same
  have busRun := hex02_run bus ':' (hex02 dev ++ '.' :: Nat.toDigits 16 func) (by decide)
  have busRun' := hex02_run bus' ':' (hex02 dev' ++ '.' :: Nat.toDigits 16 func') (by decide)
  rw [tail] at busRun
  have busSame : hex02 bus = hex02 bus' := busRun.takeWhile.symm.trans busRun'.takeWhile
  have afterBus := List.cons.inj (busRun.dropWhile.symm.trans busRun'.dropWhile)
  have devRun := hex02_run dev '.' (Nat.toDigits 16 func) (by decide)
  have devRun' := hex02_run dev' '.' (Nat.toDigits 16 func') (by decide)
  rw [afterBus.2] at devRun
  have devSame : hex02 dev = hex02 dev' := devRun.takeWhile.symm.trans devRun'.takeWhile
  have afterDev := List.cons.inj (devRun.dropWhile.symm.trans devRun'.dropWhile)
  refine ⟨?_,?_,?_⟩
  · rw [← hexNumeral_hex02 bus,busSame,hexNumeral_hex02]
  · rw [← hexNumeral_hex02 dev,devSame,hexNumeral_hex02]
  · rw [← hexNumeral_toDigits func,afterDev.2,hexNumeral_toDigits]

private theorem bdfText_ne_nil (bus dev func : Nat) : bdfText bus dev func ≠ [] := List.cons_ne_nil _ _

/-- A returned address is that of the name's own numbers exactly if they fit into one. -/
theorem exact_iff (begins : Begins name bus dev func)
    (found : bdfFromName present name ≠ []) :
    bdfFromName present name = bdfText bus dev func ↔ bus < 256 ∧ dev < 256 ∧ func < 16 := by
  rw [bdfFromName_begins begins present] at found ⊢
  split at found
  · next there =>
    rw [if_pos there]
    constructor
    · intro same
      obtain ⟨busSame,devSame,funcSame⟩ := bdfText_injective same
      omega
    · rintro ⟨busFits,devFits,funcFits⟩
      rw [Nat.mod_eq_of_lt busFits,Nat.mod_eq_of_lt devFits,Nat.mod_eq_of_lt funcFits]
  · exact absurd rfl found

def deviceName (bus dev : Nat) (port : List Char) : List Char :=
  'e' :: 'n' :: 'p' :: (Nat.toDigits 10 bus ++ 's' :: (Nat.toDigits 10 dev ++ port))

def functionName (bus dev func : Nat) (port : List Char) : List Char :=
  deviceName bus dev ('f' :: (Nat.toDigits 10 func ++ port))

theorem number_toDigits (n : Nat) {rest : List Char} (stops : ∀ c ∈ rest.head?, c.isDigit = false) :
    Number (Nat.toDigits 10 n ++ rest) n rest := by
  refine ⟨Nat.toDigits 10 n,Nat.toDigits_ne_nil,⟨rfl,?_,stops⟩,Nat.ofDigitChars_toDigits (by decide) (by decide)⟩
  intro c member
  exact Nat.isDigit_of_mem_toDigits (by decide) (by decide) member

theorem stops_cons {c : Char} (other : c.isDigit = false) (rest : List Char) :
    ∀ d ∈ (c::rest).head?, d.isDigit = false := by
  rintro d ⟨⟩
  exact other

theorem begins_deviceName (bus dev : Nat) {port : List Char} (stops : ∀ c ∈ port.head?, c.isDigit = false)
    (plain : port.head? ≠ some 'f') : Begins (deviceName bus dev port) bus dev 0 :=
  .enp _ _ _ _ _ _ (number_toDigits bus (stops_cons (by decide) _)) (number_toDigits dev stops) (.absent port plain)

theorem begins_functionName (bus dev func : Nat) {port : List Char} (stops : ∀ c ∈ port.head?, c.isDigit = false) :
    Begins (functionName bus dev func port) bus dev func :=
  .enp _ _ _ _ _ _ (number_toDigits bus (stops_cons (by decide) _)) (number_toDigits dev (stops_cons (by decide) _))
    (.given _ port func (number_toDigits func stops))

private theorem bdfFromName_present
    (begins : Begins name bus dev func) (busFits : bus < 256) (devFits : dev < 256) (funcFits : func < 16)
    (there : present (bdfText bus dev func) = true) : bdfFromName present name = bdfText bus dev func := by
  rw [bdfFromName_begins begins present,Nat.mod_eq_of_lt busFits,Nat.mod_eq_of_lt devFits,Nat.mod_eq_of_lt funcFits,
    if_pos there]

/-- A returned address has the numbers of the name, where those fit into an address, and only
there; the name of an existing device gives its address back. -/
theorem bdfFromName_exact (present : List Char → Bool) :
    (∀ name, bdfFromName present name ≠ [] →
      (∃ bus dev func, Begins name bus dev func) ∧
      ∀ bus dev func, Begins name bus dev func →
        (bdfFromName present name = bdfText bus dev func ↔ bus < 256 ∧ dev < 256 ∧ func < 16)) ∧
    ∀ (bus dev func : Nat) (port : List Char), bus < 256 → dev < 32 → func < 8 →
      present (bdfText bus dev func) = true → (∀ c ∈ port.head?, c.isDigit = false) →
      bdfFromName present (functionName bus dev func port) = bdfText bus dev func ∧
        (func = 0 → port.head? ≠ some 'f' → bdfFromName present (deviceName bus dev port) = bdfText bus dev func) := by
  refine ⟨?_,?_⟩
  · intro name found
    exact ⟨begins_of_bdfFromName found,fun bus dev func begins => exact_iff begins found⟩
  · intro bus dev func port busFits devFits funcFits there stops
    refine ⟨?_,?_⟩
    · exact bdfFromName_present (begins_functionName bus dev func stops) busFits (by omega) (by omega) there
    · rintro rfl plain
      exact bdfFromName_present (begins_deviceName bus dev stops plain) busFits (by omega) (by omega) there

def onlyDevice (bus dev func : Nat) : List Char → Bool := fun bdf => bdf == bdfText bus dev func

theorem bdfFromName_exact_port :
    bdfFromName (onlyDevice 59 0 1) (functionName 59 0 1 ['n','p','0']) = bdfText 59 0 1 ∧
      (bdfFromName (onlyDevice 59 0 1) (functionName 59 0 1 ['n','p','0']) = bdfText 59 0 1 ↔ 59 < 256 ∧ 0 < 256 ∧
        1 < 16) := by
  have stops : ∀ c ∈ ['n','p','0'].head?, c.isDigit = false := stops_cons (by decide) _
  have back := ((bdfFromName_exact (onlyDevice 59 0 1)).2 59 0 1 ['n','p','0'] (by decide) (by decide) (by decide)
    (beq_self_eq_true _) stops).1
  refine ⟨back,?_⟩
  refine ((bdfFromName_exact (onlyDevice 59 0 1)).1 (functionName 59 0 1 ['n','p','0']) ?_).2 59 0 1
    (begins_functionName 59 0 1 stops)
  rw [back]
  exact bdfText_ne_nil 59 0 1

theorem bdfFromName_aliases_device
    (begins : Begins name bus dev func) (there : present (bdfText (bus % 256) (dev % 256) (func % 16)) = true) :
    bdfFromName present name = bdfText (bus % 256) (dev % 256) (func % 16) := by
  rw [bdfFromName_begins begins present,if_pos there]

/-- enp259s0, enp4294967299s0 and enp3s0f16 all give the address of the card at 0000:03:00.0. -/
theorem bdfFromName_aliases :
    (Begins (deviceName 259 0 []) 259 0 0 ∧ bdfFromName (onlyDevice 3 0 0) (deviceName 259 0 []) = bdfText 3 0 0 ∧
      bdfText 3 0 0 ≠ bdfText 259 0 0) ∧
    (Begins (deviceName 4294967299 0 []) 4294967299 0 0 ∧
      bdfFromName (onlyDevice 3 0 0) (deviceName 4294967299 0 []) = bdfText 3 0 0) ∧
    Begins (functionName 3 0 16 []) 3 0 16 ∧ bdfFromName (onlyDevice 3 0 0) (functionName 3 0 16 []) = bdfText 3 0 0 := by
  have none : ∀ c ∈ ([] : List Char).head?, c.isDigit = false := fun c empty => nomatch empty
  have first := begins_deviceName 259 0 none (by decide)
  have second := begins_deviceName 4294967299 0 none (by decide)
  have third := begins_functionName 3 0 16 none
  have apart : bdfText 3 0 0 ≠ bdfText 259 0 0 := fun same => absurd (bdfText_injective same).1 (by decide)
  exact ⟨⟨first,bdfFromName_aliases_device first (beq_self_eq_true _),apart⟩,
    ⟨second,bdfFromName_aliases_device second (beq_self_eq_true _)⟩,third,
    bdfFromName_aliases_device third (beq_self_eq_true _)⟩

end Abtrda3.PciName
