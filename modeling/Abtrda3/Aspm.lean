import Abtrda3.Semantics.ByteMemory
import Abtrda3.Semantics.Loop

/-! `Intel_I210::disableASPM`: walk the capability list of the card's configuration space
from the pointer at 0x34, and clear the ASPM bits of the Link Control register of the
first PCI Express capability. The pointers are data of the card: nothing in the walk
bounds the number of its turns. -/
namespace Abtrda3.Aspm
open Abtrda3.Semantics Abtrda3.Semantics.Loop

/-- What the kernel answers: whether the file opens, and how many bytes each `pread` and
`pwrite` moves, in the order of the calls. An error moves none. -/
structure Kernel where
  opened : Bool
  moved : Nat → Nat

inductive Pc
  | openConfig
  | readPointer
  | loop
  | readId
  | readLinkCtl
  | writeLinkCtl (linkCtl : BitVec 16)
  | report (written : Bool)
  | readNext
  | close
  | returned
  deriving DecidableEq, Repr

structure State where
  pc : Pc
  capPtr : BitVec 8
  config : ByteMemory
  calls : Nat

def start (config : ByteMemory) : State := ⟨.openConfig,0,config,0⟩

def Kernel.transfer (kernel : Kernel) (s : State) (size : Nat) : Nat := min (kernel.moved s.calls) size

def linkControl (capPtr : BitVec 8) : Nat := capPtr.toNat + 0x10

def loadU16 (config : ByteMemory) (offset : Nat) : BitVec 16 := config (offset + 1) ++ config offset

def storeU16 (word : BitVec 16) : List (BitVec 8) := [word.setWidth 8,(word >>> 8).setWidth 8]

def step (kernel : Kernel) (s : State) : Option State :=
  match s.pc with
  | .openConfig => some {s with pc := if kernel.opened then .readPointer else .returned}
  | .readPointer =>
    if kernel.transfer s 1 = 1 then some {s with pc := .loop, capPtr := s.config 0x34, calls := s.calls + 1}
    else some {s with pc := .close, calls := s.calls + 1}
  | .loop => some {s with pc := if s.capPtr = 0 then .close else .readId}
  | .readId =>
    if kernel.transfer s 1 = 1 then
      some {s with pc := if s.config s.capPtr.toNat = 0x10 then .readLinkCtl else .readNext, calls := s.calls + 1}
    else some {s with pc := .close, calls := s.calls + 1}
  | .readLinkCtl =>
    if kernel.transfer s 2 = 2 then
      some {s with pc := .writeLinkCtl (loadU16 s.config (linkControl s.capPtr) &&& ~~~0x0003), calls := s.calls + 1}
    else some {s with pc := .close, calls := s.calls + 1}
  | .writeLinkCtl linkCtl =>
    some {s with pc := .report (kernel.transfer s 2 = 2),
                 config := s.config.write (linkControl s.capPtr) ((storeU16 linkCtl).take (kernel.transfer s 2)),
                 calls := s.calls + 1}
  | .report _ => some {s with pc := .close}
  | .readNext =>
    if kernel.transfer s 1 = 1 then
      some {s with pc := .loop, capPtr := s.config (s.capPtr.toNat + 1), calls := s.calls + 1}
    else some {s with pc := .close, calls := s.calls + 1}
  | .close => some {s with pc := .returned}
  | .returned => none

def pointer (config : ByteMemory) : Nat → BitVec 8
  | 0 => config 0x34
  | k + 1 => config ((pointer config k).toNat + 1)

def Listed (config : ByteMemory) (cap : Nat) : Prop :=
  ∃ k, (∀ j ≤ k, pointer config j ≠ 0) ∧ cap = (pointer config k).toNat

/-- The list comes to its end or to a PCI Express capability. -/
def Ends (config : ByteMemory) : Prop :=
  ∃ k, pointer config k = 0 ∨ config (pointer config k).toNat = 0x10

def clearAspm (config : ByteMemory) (cap : Nat) : ByteMemory := config.write (cap + 0x10) [config (cap + 0x10) &&& 0xFC]

/-- Nothing is changed but bits 1:0 of the Link Control register of a listed PCI Express capability. -/
def Framed (config later : ByteMemory) : Prop :=
  later = config ∨ ∃ cap, Listed config cap ∧ config cap = 0x10 ∧ later = clearAspm config cap

private theorem append_low (high low : BitVec 8) : (high ++ low).setWidth 8 = low := by
  apply BitVec.eq_of_getLsbD_eq
  intro i inside
  rw [BitVec.getLsbD_setWidth,BitVec.getLsbD_append,if_pos inside,decide_eq_true inside,Bool.true_and]

private theorem append_high (high low : BitVec 8) : ((high ++ low) >>> 8).setWidth 8 = high := by
  apply BitVec.eq_of_getLsbD_eq
  intro i inside
  rw [BitVec.getLsbD_setWidth,BitVec.getLsbD_ushiftRight,BitVec.getLsbD_append,if_neg (by omega),
    Nat.add_sub_cancel_left,decide_eq_true inside,Bool.true_and]

private theorem storeU16_masked (config : ByteMemory) (offset : Nat) :
    storeU16 (loadU16 config offset &&& ~~~0x0003) = [config offset &&& 0xFC,config (offset + 1)] := by
  have lowMask : (~~~0x0003 : BitVec 16).setWidth 8 = 0xFC := rfl
  have highMask : ((~~~0x0003 : BitVec 16) >>> 8).setWidth 8 = BitVec.allOnes 8 := rfl
  unfold storeU16 loadU16
  rw [BitVec.setWidth_and,append_low,lowMask,BitVec.ushiftRight_and_distrib,BitVec.setWidth_and,append_high,highMask,
    BitVec.and_allOnes]

private theorem write_masked (config : ByteMemory) (cap count : Nat) :
    config.write (cap + 0x10) ([config (cap + 0x10) &&& 0xFC,config (cap + 0x10 + 1)].take count) = config ∨
      config.write (cap + 0x10) ([config (cap + 0x10) &&& 0xFC,config (cap + 0x10 + 1)].take count) =
        clearAspm config cap := by
  match count with
  | 0 =>
    left
    funext address
    apply ByteMemory.write_outside
    exact (Nat.lt_or_ge address (cap + 0x10)).imp id id
  | 1 => right; rfl
  | count + 2 =>
    right
    funext address
    unfold clearAspm
    rw [List.take_of_length_le (Nat.le_add_left 2 count)]
    by_cases upper : address = cap + 0x10 + 1
    · rw [upper]
      simp [ByteMemory.write]
    · by_cases lower : address = cap + 0x10
      · rw [lower]
        simp [ByteMemory.write]
      · rw [ByteMemory.write_outside config (by simp only [List.length_cons,List.length_nil]; omega),
          ByteMemory.write_outside config (by simp only [List.length_cons,List.length_nil]; omega)]

def Arrived (config : ByteMemory) (capPtr : BitVec 8) : Prop :=
  ∃ k, (∀ j < k, pointer config j ≠ 0) ∧ capPtr = pointer config k

variable {config : ByteMemory} {kernel : Kernel}

theorem Arrived.listed {capPtr : BitVec 8} (arrived : Arrived config capPtr)
    (more : capPtr ≠ 0) : Listed config capPtr.toNat := by
  obtain ⟨k,before,rfl⟩ := arrived
  refine ⟨k,?_,rfl⟩
  intro j upTo
  rcases Nat.lt_or_eq_of_le upTo with less | rfl
  · exact before j less
  · exact more

theorem Listed.next {capPtr : BitVec 8} (listed : Listed config capPtr.toNat) :
    Arrived config (config (capPtr.toNat + 1)) := by
  obtain ⟨k,upTo,same⟩ := listed
  refine ⟨k + 1,fun j less => upTo j (Nat.le_of_lt_succ less),?_⟩
  rw [pointer,same]

def Walked (config : ByteMemory) (s : State) : Prop :=
  match s.pc with
  | .openConfig | .readPointer => s.config = config
  | .loop => s.config = config ∧ Arrived config s.capPtr
  | .readId | .readNext => s.config = config ∧ Listed config s.capPtr.toNat
  | .readLinkCtl => s.config = config ∧ Listed config s.capPtr.toNat ∧ config s.capPtr.toNat = 0x10
  | .writeLinkCtl linkCtl =>
    s.config = config ∧ (Listed config s.capPtr.toNat ∧ config s.capPtr.toNat = 0x10) ∧
      linkCtl = loadU16 config (linkControl s.capPtr) &&& ~~~0x0003
  | .report _ | .close | .returned => Framed config s.config

theorem read_cases {s t full : State} {size : Nat}
    (moved : (if kernel.transfer s size = size then some full else some {s with pc := .close, calls := s.calls + 1}) =
      some t) :
    t = full ∨ t = {s with pc := .close, calls := s.calls + 1} := by
  split at moved
  · exact .inl (Option.some.inj moved).symm
  · exact .inr (Option.some.inj moved).symm

private theorem step_walked (kernel : Kernel) (s t : State) (walked : Walked config s)
    (moved : step kernel s = some t) : Walked config t := by
  obtain ⟨pc,capPtr,memory,calls⟩ := s
  cases pc with
  | openConfig =>
    cases moved
    change memory = config at walked
    cases kernel.opened with
    | false => exact .inl walked
    | true => exact walked
  | readPointer =>
    change memory = config at walked
    subst memory
    rcases read_cases moved with rfl | rfl
    · exact ⟨rfl,0,fun j less => absurd less (Nat.not_lt_zero j),rfl⟩
    · exact .inl rfl
  | loop =>
    obtain ⟨same,arrived⟩ := walked
    cases moved
    by_cases ended : capPtr = 0
    · rw [if_pos ended]
      exact .inl same
    · rw [if_neg ended]
      exact ⟨same,arrived.listed ended⟩
  | readId =>
    obtain ⟨same,listed⟩ := walked
    dsimp only at same listed
    subst memory
    rcases read_cases moved with rfl | rfl
    · by_cases express : config capPtr.toNat = 0x10
      · rw [if_pos express]
        exact ⟨rfl,listed,express⟩
      · rw [if_neg express]
        exact ⟨rfl,listed⟩
    · exact .inl rfl
  | readLinkCtl =>
    obtain ⟨same,found⟩ := walked
    dsimp only at same found
    subst memory
    rcases read_cases moved with rfl | rfl
    · exact ⟨rfl,found,rfl⟩
    · exact .inl rfl
  | writeLinkCtl linkCtl =>
    obtain ⟨same,⟨listed,express⟩,masked⟩ := walked
    dsimp only at same listed express masked
    subst memory linkCtl
    cases moved
    change Framed config (config.write (linkControl capPtr) _)
    rw [storeU16_masked]
    rcases write_masked config capPtr.toNat _ with none | cleared
    · exact .inl none
    · exact .inr ⟨capPtr.toNat,listed,express,cleared⟩
  | report written =>
    cases moved
    exact walked
  | readNext =>
    obtain ⟨same,listed⟩ := walked
    dsimp only at same listed
    subst memory
    rcases read_cases moved with rfl | rfl
    · exact ⟨rfl,listed.next⟩
    · exact .inl rfl
  | close =>
    cases moved
    exact walked
  | returned => cases moved

theorem Walked.framed {s : State} (walked : Walked config s) : Framed config s.config := by
  obtain ⟨pc,capPtr,memory,calls⟩ := s
  cases pc with
  | openConfig | readPointer => exact .inl walked
  | loop | readId | readNext | readLinkCtl | writeLinkCtl => exact .inl walked.1
  | report | close | returned => exact walked

private theorem reached_framed {t : State}
    (reached : Reaches (step kernel) (start config) t) : Framed config t.config :=
  (reached.invariant (Walked config) (step_walked kernel) rfl).framed

def remaining : Pc → Nat
  | .readLinkCtl => 4
  | .writeLinkCtl _ => 3
  | .report _ => 2
  | .close => 1
  | .returned => 0
  | .openConfig | .readPointer | .loop | .readId | .readNext => 5

private theorem step_remaining {s t : State} (out : remaining s.pc < 5) (moved : step kernel s = some t) :
    remaining t.pc < remaining s.pc := by
  obtain ⟨pc,capPtr,memory,calls⟩ := s
  cases pc with
  | openConfig | readPointer | loop | readId | readNext => exact absurd out (Nat.lt_irrefl 5)
  | readLinkCtl =>
    unfold step at moved
    dsimp only at moved
    split at moved
    · cases moved
      exact Nat.lt_succ_self 3
    · cases moved
      exact show 1 < 4 by decide
  | writeLinkCtl | report | close => cases moved; exact Nat.lt_succ_self _
  | returned => cases moved

theorem halts_out {s : State} (out : remaining s.pc < 5) : Halts (step kernel) s := by
  refine halts_of_measure (fun s => remaining s.pc < 5) (fun s => remaining s.pc) ?_ out
  intro s t outside moved
  have less := step_remaining outside moved
  exact ⟨Nat.lt_trans less outside,less⟩

theorem halts_before {s t : State} (moved : step kernel s = some t) (after : Halts (step kernel) t) :
    Halts (step kernel) s := after.of_reaches (Reaches.one moved)

theorem halts_close (kernel : Kernel) (capPtr : BitVec 8) (config : ByteMemory) (calls : Nat) :
    Halts (step kernel) ⟨.close,capPtr,config,calls⟩ := halts_out (show 1 < 5 by decide)

private theorem halts_express (kernel : Kernel) (capPtr : BitVec 8) (config : ByteMemory) (calls : Nat) :
    Halts (step kernel) ⟨.readLinkCtl,capPtr,config,calls⟩ := halts_out (show 4 < 5 by decide)

theorem halts_turn {k calls : Nat}
    (onward : pointer config k ≠ 0 → config (pointer config k).toNat ≠ 0x10 →
      Halts (step kernel) ⟨.loop,pointer config (k + 1),config,calls + 1 + 1⟩) :
    Halts (step kernel) ⟨.loop,pointer config k,config,calls⟩ := by
  refine halts_before rfl ?_
  dsimp only
  by_cases zero : pointer config k = 0
  · rw [if_pos zero]
    exact halts_close kernel _ _ _
  · rw [if_neg zero]
    by_cases read : kernel.transfer ⟨.readId,pointer config k,config,calls⟩ 1 = 1
    · refine halts_before (if_pos read) ?_
      dsimp only
      by_cases express : config (pointer config k).toNat = 0x10
      · rw [if_pos express]
        exact halts_express kernel _ _ _
      · rw [if_neg express]
        by_cases next : kernel.transfer ⟨.readNext,pointer config k,config,calls + 1⟩ 1 = 1
        · exact halts_before (if_pos next) (onward zero express)
        · exact halts_before (if_neg next) (halts_close kernel _ _ _)
    · exact halts_before (if_neg read) (halts_close kernel _ _ _)

/-- From the pointer that is `more` capabilities short of the end of the list. -/
theorem halts_loop (kernel : Kernel) (config : ByteMemory) (more k calls : Nat)
    (ends : pointer config (k + more) = 0 ∨ config (pointer config (k + more)).toNat = 0x10) :
    Halts (step kernel) ⟨.loop,pointer config k,config,calls⟩ := by
  induction more generalizing k calls with
  | zero =>
    apply halts_turn
    intro pointed other
    exact absurd ends (not_or.mpr ⟨pointed,other⟩)
  | succ more ih =>
    apply halts_turn
    intro _ _
    refine ih (k + 1) (calls + 1 + 1) ?_
    rwa [Nat.add_right_comm k 1 more]

private theorem halts_of_ends (kernel : Kernel) (ends : Ends config) :
    Halts (step kernel) (start config) := by
  obtain ⟨k,ended⟩ := ends
  refine halts_before rfl ?_
  cases kernel.opened with
  | false => exact halts_out (show 0 < 5 by decide)
  | true =>
    by_cases read : kernel.transfer ⟨.readPointer,0,config,0⟩ 1 = 1
    · refine halts_before (if_pos read) ?_
      refine halts_loop kernel config k 0 1 ?_
      rwa [Nat.zero_add]
    · exact halts_before (if_neg read) (halts_close kernel _ _ _)

def fullReads : Kernel := ⟨true,fun _ => 2⟩

def Circling (config : ByteMemory) (s : State) : Prop :=
  s.config = config ∧
    match s.pc with
    | .openConfig | .readPointer => True
    | .loop | .readId | .readNext => ∃ k, s.capPtr = pointer config k
    | _ => False

private theorem circling_goes_on (endless : ¬Ends config) (s : State) (circling : Circling config s) :
    ∃ t, step fullReads s = some t ∧ Circling config t := by
  obtain ⟨pc,capPtr,memory,calls⟩ := s
  obtain ⟨same,here⟩ := circling
  dsimp only at same
  subst memory
  cases pc with
  | openConfig => exact ⟨_,rfl,rfl,trivial⟩
  | readPointer => exact ⟨_,rfl,rfl,0,rfl⟩
  | loop =>
    obtain ⟨k,rfl⟩ := here
    refine ⟨_,rfl,rfl,?_⟩
    dsimp only
    rw [if_neg (fun zero => endless ⟨k,.inl zero⟩)]
    exact ⟨k,rfl⟩
  | readId =>
    obtain ⟨k,rfl⟩ := here
    refine ⟨_,rfl,rfl,?_⟩
    dsimp only
    rw [if_neg (fun express => endless ⟨k,.inr express⟩)]
    exact ⟨k,rfl⟩
  | readNext =>
    obtain ⟨k,rfl⟩ := here
    exact ⟨_,rfl,rfl,k + 1,rfl⟩
  | readLinkCtl | writeLinkCtl | report | close | returned => exact absurd here id

theorem endless_of_not_ends (endless : ¬Ends config) : ¬Halts (step fullReads) (start config) :=
  not_halts_of_invariant _ (circling_goes_on endless) ⟨rfl,trivial⟩

/-- The walk ends under every pattern of short reads exactly if the list does; whether it
ends or not, it leaves everything but the two ASPM bits as they are. -/
theorem disableASPM_halts_iff (config : ByteMemory) :
    ((∀ kernel, Halts (step kernel) (start config)) ↔ Ends config) ∧
      ∀ kernel t, Reaches (step kernel) (start config) t → Framed config t.config := by
  refine ⟨⟨?_,?_⟩,?_⟩
  · intro halts
    by_contra endless
    exact endless_of_not_ends endless (halts fullReads)
  · intro ends kernel
    exact halts_of_ends kernel ends
  · intro kernel t reached
    exact reached_framed reached

def labConfig : ByteMemory := fun address =>
  match address with
  | 0x34 => 0x40
  | 0x40 => 0x01
  | 0x41 => 0xA0
  | 0xA0 => 0x10
  | 0xB0 => 0x43
  | _ => 0

theorem disableASPM_halts_iff_lab :
    (∀ kernel, Halts (step kernel) (start labConfig)) ∧
      ∃ t, Reaches (step fullReads) (start labConfig) t ∧ t.config 0xB0 = 0x40 ∧ Framed labConfig t.config := by
  refine ⟨(disableASPM_halts_iff labConfig).1.mpr ⟨1,.inr rfl⟩,turns (step fullReads) 12 (start labConfig),
    reaches_turns _ _ _,rfl,?_⟩
  exact (disableASPM_halts_iff labConfig).2 fullReads _ (reaches_turns _ _ _)

private theorem pointer_of_selfLoop {capPtr : BitVec 8} (first : config 0x34 = capPtr)
    (next : config (capPtr.toNat + 1) = capPtr) (k : Nat) : pointer config k = capPtr := by
  induction k with
  | zero => exact first
  | succ k ih => rw [pointer,ih,next]

private theorem not_ends_of_selfLoop (capPtr : BitVec 8) (first : config 0x34 = capPtr)
    (next : config (capPtr.toNat + 1) = capPtr) (pointed : capPtr ≠ 0) (other : config capPtr.toNat ≠ 0x10) :
    ¬Ends config := by
  rintro ⟨k,zero | express⟩
  · exact pointed (pointer_of_selfLoop first next k ▸ zero)
  · rw [pointer_of_selfLoop first next k] at express
    exact other express

def deadDevice : ByteMemory := fun _ => 0xFF

/-- One capability, an MSI at 0x40, that names itself as the next. -/
def cyclicConfig : ByteMemory := fun address =>
  match address with
  | 0x34 => 0x40
  | 0x40 => 0x05
  | 0x41 => 0x40
  | _ => 0

theorem disableASPM_endless :
    ¬Halts (step fullReads) (start cyclicConfig) ∧ ¬Halts (step fullReads) (start deadDevice) := by
  constructor
  · apply endless_of_not_ends
    exact not_ends_of_selfLoop 0x40 rfl rfl (by decide) (by decide)
  · apply endless_of_not_ends
    exact not_ends_of_selfLoop 0xFF rfl rfl (by decide) (by decide)

end Abtrda3.Aspm
