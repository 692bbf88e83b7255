import Abtrda3.I210Init

/-! The order in which the I210 has to be told. A monitor follows the calls of the driver and
keeps what the card has been told since its reset; it refuses a call out of the order the
registers ask for. A queue's tail is moved only after its enable bit has been read back, a
direction is enabled only over a ring that the card knows, and memory the card may write to
is given up only when the direction is off. What each part of `init` tells the card follows. -/
namespace Abtrda3.I210Order
open Abtrda3.I210 Abtrda3.I210Init Abtrda3.Semantics.Interaction Abtrda3.Semantics.Interaction.Program

/-- What the card has been told. A register is as it was last written since the reset. -/
structure Setup where
  bar : Bool
  reg : Nat → Option (BitVec 32)
  rxSeen : Bool
  txSeen : Bool
  held : Region → Option (BitVec 64)
  described : Nat → Bool
  warned : List Checked

namespace Setup

def start : Setup := ⟨false,fun _ => none,false,false,fun _ => none,fun _ => false,[]⟩

def on (s : Setup) (offset : Nat) (bit : BitVec 32) : Bool :=
  match s.reg offset with
  | some value => value &&& bit ≠ 0
  | none => false

def receiving (s : Setup) : Bool := s.on Reg.rctl rctlRxen

def transmitting (s : Setup) : Bool := s.on Reg.tctl tctlEn

def rxProgrammed (p : Params) (s : Setup) : Bool :=
  match s.held .rxRing with
  | none => false
  | some base =>
    (s.held .rxBuffer).isSome && s.reg Reg.rdbal0 = some (base.setWidth 32) &&
      s.reg Reg.rdbah0 = some ((base >>> 32).setWidth 32) &&
      s.reg Reg.rdlen0 = some (BitVec.ofNat 32 (ringBytes p.numRxDesc)) && (s.reg Reg.srrctl0).isSome &&
      (List.range p.numRxDesc).all s.described

def txProgrammed (p : Params) (s : Setup) : Bool :=
  match s.held .txRing with
  | none => false
  | some base =>
    (s.held .txBuffer).isSome && s.reg Reg.tdbal0 = some (base.setWidth 32) &&
      s.reg Reg.tdbah0 = some ((base >>> 32).setWidth 32) &&
      s.reg Reg.tdlen0 = some (BitVec.ofNat 32 (ringBytes p.numTxDesc))

def ordered (p : Params) (s : Setup) (offset : Nat) (value : BitVec 32) : Bool :=
  if offset = Reg.rctl then value &&& rctlRxen = 0 || s.rxProgrammed p
  else if offset = Reg.tctl then value &&& tctlEn = 0 || (s.txProgrammed p && s.txSeen)
  else if offset = Reg.rdt0 then value = 0 || s.rxSeen
  else if offset = Reg.tdt0 then s.txSeen && s.transmitting
  else if offset ∈ [Reg.rdbal0,Reg.rdbah0,Reg.rdlen0,Reg.srrctl0] then !s.receiving
  else if offset ∈ [Reg.tdbal0,Reg.tdbah0,Reg.tdlen0] then !s.transmitting
  else true

def permitted (p : Params) (s : Setup) : Call → Bool
  | .readReg _ => s.bar
  | .writeReg offset value => s.bar && s.ordered p offset value
  | .allocate region _ => (s.held region).isNone
  | .free .rxRing | .free .rxBuffer => !s.receiving
  | .free .txRing | .free .txBuffer => !s.transmitting
  | .closeBar => !s.receiving && !s.transmitting
  | _ => true

def see (s : Setup) (offset : Nat) (value : BitVec 32) : Setup :=
  {s with rxSeen := s.rxSeen || (offset = Reg.rxdctl0 && value &&& rxdctlEnable ≠ 0 && s.on Reg.rxdctl0 rxdctlEnable),
          txSeen := s.txSeen || (offset = Reg.txdctl0 && value &&& txdctlEnable ≠ 0 && s.on Reg.txdctl0 txdctlEnable)}

def set (s : Setup) (offset : Nat) (value : BitVec 32) : Setup :=
  {s with reg := Function.update s.reg offset (some value), rxSeen := s.rxSeen && offset ≠ Reg.rxdctl0,
          txSeen := s.txSeen && offset ≠ Reg.txdctl0}

def forget (s : Setup) : Setup := {s with reg := fun _ => none, rxSeen := false, txSeen := false}

def effect (p : Params) (s : Setup) : Exchange Call Reply → Setup
  | ⟨.openBar,opened⟩ => {s with bar := opened}
  | ⟨.closeBar,_⟩ => {s with bar := false}
  | ⟨.readReg offset,value⟩ => s.see offset value
  | ⟨.writeReg offset value,_⟩ =>
    if offset = Reg.ctrl ∧ value &&& ctrlDevRst ≠ 0 then s.forget else s.set offset value
  | ⟨.storeRx slot pktAddr hdrAddr,_⟩ =>
    {s with described := Function.update s.described slot (pktAddr = I210Receive.slotAddr p slot && hdrAddr = 0)}
  | ⟨.allocate region _,base⟩ => {s with held := Function.update s.held region base}
  | ⟨.free region,_⟩ => {s with held := Function.update s.held region none}
  | ⟨.print (.warn what _ _),_⟩ => {s with warned := s.warned ++ [what]}
  | _ => s

end Setup

def watch (p : Params) (s : Setup) (exchange : Exchange Call Reply) : Option Setup :=
  if s.permitted p exchange.request then some (s.effect p exchange) else none

variable {p : Params} {allows : Setup → Exchange Call Reply → Prop} {s t u : Setup}

theorem safe_request {request : Call} {post : Reply request → Setup → Prop} (ok : s.permitted p request = true)
    (after : ∀ reply, allows s ⟨request,reply⟩ → post reply (s.effect p ⟨request,reply⟩)) :
    Safe (watch p) allows s (ask request) post := by
  rw [safe_ask]
  intro reply allowed
  exact ⟨_,if_pos ok,after reply allowed⟩

variable {offset : Nat}

theorem safe_readReg {post : BitVec 32 → Setup → Prop} (mapped : s.bar = true)
    (after : ∀ value, allows s ⟨.readReg offset,value⟩ → post value (s.see offset value)) :
    Safe (watch p) allows s (readReg offset) post := safe_request mapped after

theorem safe_writeReg {value : BitVec 32} {post : Unit → Setup → Prop} (mapped : s.bar = true)
    (order : s.ordered p offset value = true) (other : offset ≠ Reg.ctrl) (after : post () (s.set offset value)) :
    Safe (watch p) allows s (writeReg offset value) post := by
  refine safe_request (by rw [Setup.permitted,mapped,order]; rfl) (fun _ _ => ?_)
  rw [Setup.effect,if_neg (fun ctrl => other ctrl.1)]
  exact after

structure Frame (regs : Nat → Prop) (memory : Region → Prop) (names : List Checked) (s t : Setup) : Prop where
  bar : t.bar = s.bar
  reg : ∀ offset, ¬ regs offset → t.reg offset = s.reg offset
  rxSeen : ¬ regs Reg.rxdctl0 → s.rxSeen = true → t.rxSeen = true
  txSeen : ¬ regs Reg.txdctl0 → s.txSeen = true → t.txSeen = true
  held : ∀ region, ¬ memory region → t.held region = s.held region
  described : ¬ memory .rxRing → t.described = s.described
  warned : ∀ what ∈ t.warned, what ∈ s.warned ∨ what ∈ names

namespace Frame

variable {regs wider : Nat → Prop} {memory more : Region → Prop} {names others : List Checked}

theorem refl (s : Setup) : Frame regs memory names s s :=
  ⟨rfl,fun _ _ => rfl,fun _ seen => seen,fun _ seen => seen,fun _ _ => rfl,fun _ => rfl,fun _ said => .inl said⟩

theorem trans (first : Frame regs memory names s t) (second : Frame regs memory names t u) :
    Frame regs memory names s u where
  bar := second.bar.trans first.bar
  reg offset outside := (second.reg offset outside).trans (first.reg offset outside)
  rxSeen outside seen := second.rxSeen outside (first.rxSeen outside seen)
  txSeen outside seen := second.txSeen outside (first.txSeen outside seen)
  held region outside := (second.held region outside).trans (first.held region outside)
  described outside := (second.described outside).trans (first.described outside)
  warned what said := by
    rcases second.warned what said with before | listed
    · exact first.warned what before
    · exact .inr listed

theorem mono (frame : Frame regs memory names s t) (regs : ∀ offset, regs offset → wider offset)
    (memory : ∀ region, memory region → more region) (names : ∀ what ∈ names, what ∈ others) :
    Frame wider more others s t where
  bar := frame.bar
  reg offset outside := frame.reg offset (fun inside => outside (regs offset inside))
  rxSeen outside := frame.rxSeen (fun inside => outside (regs _ inside))
  txSeen outside := frame.txSeen (fun inside => outside (regs _ inside))
  held region outside := frame.held region (fun inside => outside (memory region inside))
  described outside := frame.described (fun inside => outside (memory _ inside))
  warned what said := (frame.warned what said).imp id (names what)

theorem silent (frame : Frame regs memory [] s t) (silent : s.warned = []) :
    t.warned = [] := by
  rw [List.eq_nil_iff_forall_not_mem]
  intro what said
  rcases frame.warned what said with before | never
  · rw [silent] at before
    cases before
  · cases never

end Frame

@[simp] theorem reg_set_self (s : Setup) (offset : Nat) (value : BitVec 32) :
    (s.set offset value).reg offset = some value := by
  simp only [Setup.set,Function.update_self]

theorem frame_see (s : Setup) (offset : Nat) (value : BitVec 32) :
    Frame (fun _ => False) (fun _ => False) [] s (s.see offset value) :=
  ⟨rfl,fun _ _ => rfl,fun _ seen => by simp [Setup.see,seen],fun _ seen => by simp [Setup.see,seen],fun _ _ => rfl,
    fun _ => rfl,fun _ said => .inl said⟩

theorem frame_set (s : Setup) (offset : Nat) (value : BitVec 32) :
    Frame (· = offset) (fun _ => False) [] s (s.set offset value) where
  bar := rfl
  reg other outside := Function.update_of_ne outside _ _
  rxSeen outside seen := by simp [Setup.set,seen,Ne.symm outside]
  txSeen outside seen := by simp [Setup.set,seen,Ne.symm outside]
  held _ _ := rfl
  described _ := rfl
  warned _ said := .inl said

/-- The registers that may be written at any time. -/
def plain (offset : Nat) : Bool :=
  offset ∉ [Reg.ctrl,Reg.rctl,Reg.tctl,Reg.rdt0,Reg.tdt0,Reg.rdbal0,Reg.rdbah0,Reg.rdlen0,Reg.srrctl0,Reg.tdbal0,
    Reg.tdbah0,Reg.tdlen0]

theorem ordered_plain (free : plain offset = true) (value : BitVec 32) :
    s.ordered p offset value = true := by
  simp only [plain,decide_eq_true_eq,List.mem_cons,List.not_mem_nil,or_false,not_or] at free
  obtain ⟨_,rctl,tctl,rdt,tdt,rdbal,rdbah,rdlen,srrctl,tdbal,tdbah,tdlen⟩ := free
  simp [Setup.ordered,rctl,tctl,rdt,tdt,rdbal,rdbah,rdlen,srrctl,tdbal,tdbah,tdlen]

theorem not_ctrl_of_plain (free : plain offset = true) : offset ≠ Reg.ctrl := by
  rintro rfl
  cases free

variable (p allows) in
/-- With BAR0 mapped, the program writes no register but those named, takes no memory and warns of nothing. -/
def Quiet (regs : Nat → Prop) (program : Driver α) : Prop :=
  Within (watch p) allows (fun s => s.bar = true) (Frame regs (fun _ => False) []) program

section Quiet

variable {α β ι : Type} {regs : Nat → Prop}

theorem quiet_done (value : α) : Quiet p allows regs (.done value) := within_done Frame.refl value

theorem Quiet.bind {program : Driver α} {f : α → Driver β} (before : Quiet p allows regs program)
    (after : ∀ value, Quiet p allows regs (f value)) : Quiet p allows regs (program.bind f) :=
  Within.bind Frame.trans before after

theorem Quiet.attempts {turn : Driver (Option α)} (body : Quiet p allows regs turn) (n : Nat) :
    Quiet p allows regs (attempts turn n) := Within.attempts Frame.refl Frame.trans body n

theorem Quiet.each {body : ι → Driver Unit} (items : List ι) (turn : ∀ i ∈ items, Quiet p allows regs (body i)) :
    Quiet p allows regs (each body items) := Within.each Frame.refl Frame.trans items turn

theorem quiet_readReg (offset : Nat) : Quiet p allows regs (readReg offset) := by
  intro s mapped
  refine safe_readReg mapped (fun value _ => ⟨mapped,?_⟩)
  exact (frame_see s offset value).mono (fun _ => False.elim) (fun _ => id) (fun _ => id)

theorem quiet_writeReg {offset : Nat} (free : plain offset = true) (inside : regs offset) (value : BitVec 32) :
    Quiet p allows regs (writeReg offset value) := by
  intro s mapped
  refine safe_writeReg mapped (ordered_plain free value) (not_ctrl_of_plain free) ⟨mapped,?_⟩
  exact (frame_set s offset value).mono (fun _ same => same ▸ inside) (fun _ => id) (fun _ => id)

theorem quiet_sleep (microseconds : Nat) : Quiet p allows regs (sleep microseconds) :=
  fun s mapped => safe_request rfl (fun _ _ => ⟨mapped,Frame.refl s⟩)

theorem quiet_print {report : Report} (calm : ∀ what value expected, report ≠ .warn what value expected) :
    Quiet p allows regs (print report) := by
  intro s mapped
  refine safe_request rfl (fun reply _ => ?_)
  have same : s.effect p ⟨.print report,reply⟩ = s := by
    cases report with
    | warn what value expected => exact absurd rfl (calm what value expected)
    | _ => rfl
  rw [same]
  exact ⟨mapped,Frame.refl s⟩

theorem quiet_pollReg (offset : Nat) (test : BitVec 32 → Bool) (pause turns : Nat) :
    Quiet p allows regs (pollReg offset test pause turns) := by
  apply Quiet.attempts
  refine (quiet_readReg offset).bind (fun value => ?_)
  split
  · exact quiet_done _
  · exact (quiet_sleep pause).bind (fun _ => quiet_done _)

theorem quiet_clearBits {offset : Nat} (free : plain offset = true) (inside : regs offset) (mask : BitVec 32) :
    Quiet p allows regs (clearBits offset mask) :=
  (quiet_readReg offset).bind (fun _ => quiet_writeReg free inside _)

theorem quiet_writePhy (reg : BitVec 32) (value : BitVec 16) (inside : regs Reg.mdic) :
    Quiet p allows regs (writePhy reg value) := by
  refine (quiet_writeReg rfl inside _).bind (fun _ => ?_)
  refine (quiet_pollReg _ _ _ _).bind (fun answer => ?_)
  cases answer with
  | some mdic => exact quiet_done _
  | none => exact (quiet_print (by simp)).bind (fun _ => quiet_done _)

theorem quiet_readPhy (reg : BitVec 32) (inside : regs Reg.mdic) : Quiet p allows regs (readPhy reg) := by
  refine (quiet_writeReg rfl inside _).bind (fun _ => ?_)
  refine (quiet_pollReg _ _ _ _).bind (fun answer => ?_)
  cases answer with
  | some mdic =>
    dsimp only
    split
    · exact (quiet_print (by simp)).bind (fun _ => quiet_done _)
    · exact quiet_done _
  | none => exact (quiet_print (by simp)).bind (fun _ => quiet_done _)

theorem quiet_initPhy (inside : regs Reg.mdic) : Quiet p allows regs initPhy := by
  refine (quiet_writePhy _ _ inside).bind (fun written => ?_)
  cases written with
  | false => exact (quiet_print (by simp)).bind (fun _ => quiet_done _)
  | true =>
    refine Quiet.bind (Quiet.attempts ?_ 100) (fun _ => ?_)
    · refine (quiet_readPhy _ inside).bind (fun bmcr => ?_)
      split
      · exact quiet_done _
      · exact (quiet_sleep _).bind (fun _ => quiet_done _)
    · refine Quiet.bind ?_ (fun _ => quiet_done _)
      refine (quiet_writePhy _ _ inside).bind (fun _ => ?_)
      refine (quiet_writePhy _ _ inside).bind (fun _ => ?_)
      exact (quiet_writePhy _ _ inside).bind (fun _ => quiet_print (by simp))

theorem quiet_readMacAddress : Quiet p allows regs readMacAddress := by
  refine (quiet_readReg _).bind (fun _ => ?_)
  refine (quiet_readReg _).bind (fun _ => ?_)
  exact (quiet_print (by simp)).bind (fun _ => quiet_done _)

theorem quiet_waitLink : Quiet p allows regs waitLink := by
  refine Quiet.bind (Quiet.attempts ?_ 5) (fun up => ?_)
  · refine Quiet.bind ((quiet_readReg _).bind (fun _ => quiet_done _)) (fun up => ?_)
    split
    · exact Quiet.bind ((quiet_readReg _).bind (fun _ => quiet_done _)) (fun _ => quiet_done _)
    · exact (quiet_sleep _).bind (fun _ => quiet_done _)
  · cases up with
    | some speed => exact quiet_print (by simp)
    | none => exact quiet_print (by simp)

private theorem plain_mta (i : Nat) (inside : i < 128) : plain (Reg.mtaBase + i * 4) = true := by
  simp only [plain,Reg.mtaBase,Reg.ctrl,Reg.rctl,Reg.tctl,Reg.rdt0,Reg.tdt0,Reg.rdbal0,Reg.rdbah0,Reg.rdlen0,Reg.srrctl0,
    Reg.tdbal0,Reg.tdbah0,Reg.tdlen0,decide_eq_true_eq,List.mem_cons,List.not_mem_nil,or_false,not_or]
  omega

theorem quiet_zeroMulticastTable : Quiet p allows (fun offset => 0x5200 ≤ offset ∧ offset < 0x5400) zeroMulticastTable := by
  refine Quiet.each _ (fun i listed => ?_)
  have inside := List.mem_range.mp listed
  refine quiet_writeReg (plain_mta i inside) ?_ 0
  unfold Reg.mtaBase
  omega

end Quiet

section Bits

theorem cleared_and (value mask : BitVec 32) : value &&& ~~~mask &&& mask = 0 := by
  rw [BitVec.and_assoc,BitVec.and_comm (~~~mask),BitVec.and_not_self]
  exact BitVec.and_zero

private theorem and_part {value mask part : BitVec 32} (clear : value &&& mask = 0) (inside : part &&& mask = part) :
    value &&& part = 0 := by
  rw [← inside,BitVec.and_comm part,← BitVec.and_assoc,clear]
  exact BitVec.zero_and

theorem or_and_bit (value : BitVec 32) {bit : BitVec 32} (nonzero : bit ≠ 0) : (value ||| bit) &&& bit ≠ 0 := by
  intro zero
  apply nonzero
  rw [← zero]
  ext i inside
  rw [BitVec.getElem_and,BitVec.getElem_or]
  cases bit[i] <;> simp

private theorem or_and_clear {value other bit : BitVec 32} (mask : BitVec 32) (first : value &&& bit = 0)
    (second : other &&& bit = 0) :
    (value ||| other) &&& mask &&& bit = 0 := by
  have both : (value ||| other) &&& bit = 0 := by
    rw [BitVec.and_comm,BitVec.and_or_distrib_left,BitVec.and_comm bit,BitVec.and_comm bit,first,second]
    rfl
  rw [BitVec.and_assoc,BitVec.and_comm mask,← BitVec.and_assoc,both]
  exact BitVec.zero_and

end Bits

def Cleared (s : Setup) (offset : Nat) (mask : BitVec 32) : Prop := ∃ value, s.reg offset = some value ∧ value &&& mask = 0

theorem Cleared.part {mask part : BitVec 32} (clear : Cleared s offset mask)
    (inside : part &&& mask = part) :
    Cleared s offset part := by
  obtain ⟨value,written,zero⟩ := clear
  exact ⟨value,written,and_part zero inside⟩

section Framed

variable {regs : Nat → Prop} {memory : Region → Prop} {names : List Checked} (frame : Frame regs memory names s t)
include frame

theorem Frame.cleared {offset : Nat} {mask : BitVec 32} (outside : ¬ regs offset) (clear : Cleared s offset mask) :
    Cleared t offset mask := by
  obtain ⟨value,written,zero⟩ := clear
  exact ⟨value,(frame.reg offset outside).trans written,zero⟩

theorem Frame.on {offset : Nat} (outside : ¬ regs offset) (bit : BitVec 32) : t.on offset bit = s.on offset bit := by
  unfold Setup.on
  rw [frame.reg offset outside]

theorem Frame.rxProgrammed (outside : ∀ offset ∈ [Reg.rdbal0,Reg.rdbah0,Reg.rdlen0,Reg.srrctl0], ¬ regs offset)
    (kept : ∀ region ∈ [Region.rxRing,Region.rxBuffer], ¬ memory region) : t.rxProgrammed p = s.rxProgrammed p := by
  simp only [List.forall_mem_cons,List.not_mem_nil,false_imp_iff,implies_true,and_true] at outside kept
  unfold Setup.rxProgrammed
  rw [frame.held _ kept.1,frame.held _ kept.2,frame.reg _ outside.1,frame.reg _ outside.2.1,frame.reg _ outside.2.2.1,
    frame.reg _ outside.2.2.2,frame.described kept.1]

theorem Frame.txProgrammed (outside : ∀ offset ∈ [Reg.tdbal0,Reg.tdbah0,Reg.tdlen0], ¬ regs offset)
    (kept : ∀ region ∈ [Region.txRing,Region.txBuffer], ¬ memory region) : t.txProgrammed p = s.txProgrammed p := by
  simp only [List.forall_mem_cons,List.not_mem_nil,false_imp_iff,implies_true,and_true] at outside kept
  unfold Setup.txProgrammed
  rw [frame.held _ kept.1,frame.held _ kept.2,frame.reg _ outside.1,frame.reg _ outside.2.1,frame.reg _ outside.2.2]

end Framed

/-- The receiver runs over a ring the card knows, with its queue seen enabled. -/
structure RxUp (p : Params) (s : Setup) : Prop where
  programmed : s.rxProgrammed p = true
  receiving : s.receiving = true
  seen : s.rxSeen = true

structure TxUp (p : Params) (s : Setup) : Prop where
  programmed : s.txProgrammed p = true
  transmitting : s.transmitting = true
  seen : s.txSeen = true

def rxKeys : List Nat := [Reg.rdbal0,Reg.rdbah0,Reg.rdlen0,Reg.srrctl0,Reg.rctl,Reg.rxdctl0]

def txKeys : List Nat := [Reg.tdbal0,Reg.tdbah0,Reg.tdlen0,Reg.tctl,Reg.txdctl0]

theorem RxUp.store {slot : Nat} (up : RxUp p s) : RxUp p {s with described := Function.update s.described slot true} := by
  refine ⟨?_,up.receiving,up.seen⟩
  have programmed := up.programmed
  unfold Setup.rxProgrammed at programmed ⊢
  dsimp only
  cases base : s.held .rxRing with
  | none => simp [base] at programmed
  | some base' =>
    rw [base] at programmed
    simp only [Bool.and_eq_true,List.all_eq_true] at programmed ⊢
    refine ⟨programmed.1,fun i listed => ?_⟩
    by_cases here : i = slot
    · rw [here,Function.update_self]
    · rw [Function.update_of_ne here]
      exact programmed.2 i listed

theorem RxUp.frame {regs : Nat → Prop} {memory : Region → Prop} {names : List Checked} (up : RxUp p s)
    (frame : Frame regs memory names s t) (outside : ∀ offset ∈ rxKeys, ¬ regs offset)
    (kept : ∀ region ∈ [Region.rxRing,Region.rxBuffer], ¬ memory region) : RxUp p t := by
  refine ⟨(frame.rxProgrammed ?_ kept).trans up.programmed,(frame.on (outside _ (by simp [rxKeys])) _).trans up.receiving,
    frame.rxSeen (outside _ (by simp [rxKeys])) up.seen⟩
  intro offset listed
  exact outside offset (List.mem_append_left [Reg.rctl,Reg.rxdctl0] listed)

theorem TxUp.frame {regs : Nat → Prop} {memory : Region → Prop} {names : List Checked} (up : TxUp p s)
    (frame : Frame regs memory names s t) (outside : ∀ offset ∈ txKeys, ¬ regs offset)
    (kept : ∀ region ∈ [Region.txRing,Region.txBuffer], ¬ memory region) : TxUp p t := by
  refine ⟨(frame.txProgrammed ?_ kept).trans up.programmed,
      (frame.on (outside _ (by simp [txKeys])) _).trans up.transmitting,
    frame.txSeen (outside _ (by simp [txKeys])) up.seen⟩
  intro offset listed
  exact outside offset (List.mem_append_left [Reg.tctl,Reg.txdctl0] listed)

theorem clearBits_spec {mask : BitVec 32} (mapped : s.bar = true) (other : offset ≠ Reg.ctrl)
    (order : ∀ value, (s.see offset value).ordered p offset (value &&& ~~~mask) = true) :
    Safe (watch p) allows s (clearBits offset mask) (fun _ t => t.bar = true ∧
      Frame (· = offset) (fun _ => False) [] s t ∧ Cleared t offset mask) := by
  refine safe_bind.mpr (safe_readReg mapped (fun value _ => ?_))
  refine safe_writeReg mapped (order value) other ⟨mapped,?_,_,reg_set_self _ _ _,cleared_and value mask⟩
  refine Frame.trans ?_ (frame_set (s.see offset value) offset _)
  exact (frame_see s offset value).mono (fun _ => False.elim) (fun _ => id) (fun _ => id)

theorem clearBits_plain (mapped : s.bar = true) (free : plain offset = true) (mask : BitVec 32) :
    Safe (watch p) allows s (clearBits offset mask) (fun _ t => t.bar = true ∧
      Frame (· = offset) (fun _ => False) [] s t ∧ Cleared t offset mask) :=
  clearBits_spec mapped (not_ctrl_of_plain free) (fun _ => ordered_plain free _)

theorem writeReg_plain (mapped : s.bar = true) (free : plain offset = true) (value : BitVec 32) :
    Safe (watch p) allows s (writeReg offset value) (fun _ t => t.bar = true ∧
      Frame (· = offset) (fun _ => False) [] s t ∧ t.reg offset = some value) :=
  safe_writeReg mapped (ordered_plain free value) (not_ctrl_of_plain free)
    ⟨mapped,frame_set s offset value,reg_set_self s offset value⟩

def irqRegs (offset : Nat) : Prop :=
  offset = Reg.imc ∨ offset = Reg.eimc ∨ (Reg.eitr0 ≤ offset ∧ offset < Reg.eitr0 + 20) ∨ offset = Reg.wuc

instance : DecidablePred irqRegs := fun _ => inferInstanceAs (Decidable (_ ∨ _))

private theorem plain_eitr {i : Nat} (inside : i < 5) : plain (Reg.eitr0 + 4 * i) = true := by
  simp only [plain,Reg.eitr0,Reg.ctrl,Reg.rctl,Reg.tctl,Reg.rdt0,Reg.tdt0,Reg.rdbal0,Reg.rdbah0,Reg.rdlen0,Reg.srrctl0,
    Reg.tdbal0,Reg.tdbah0,Reg.tdlen0,decide_eq_true_eq,List.mem_cons,List.not_mem_nil,or_false,not_or]
  omega

theorem quiet_disableInterrupts : Quiet p allows irqRegs disableInterrupts := by
  refine (quiet_writeReg rfl (.inl rfl) _).bind (fun _ => ?_)
  refine (quiet_writeReg rfl (.inr (.inl rfl)) _).bind (fun _ => ?_)
  refine (quiet_readReg _).bind (fun _ => ?_)
  refine (quiet_readReg _).bind (fun _ => ?_)
  refine Quiet.bind (Quiet.each _ (fun i listed => ?_)) (fun _ => quiet_writeReg rfl (.inr (.inr (.inr rfl))) _)
  have inside := List.mem_range.mp listed
  exact quiet_writeReg (plain_eitr inside) (.inr (.inr (.inl (by omega)))) _

private theorem writesEitr_spec (mapped : s.bar = true) :
    Safe (watch p) allows s (each (fun i => writeReg (Reg.eitr0 + 4 * i) 0xFFFF) (List.range 5))
      (fun _ t => t.bar = true ∧ t.reg Reg.eitr0 = some 0xFFFF) := by
  refine safe_bind.mpr (safe_writeReg mapped (ordered_plain rfl _) (by decide) ?_)
  have rest : Quiet p allows (fun offset => Reg.eitr0 < offset)
      (each (fun i => writeReg (Reg.eitr0 + 4 * i) 0xFFFF) [1,2,3,4]) := by
    refine Quiet.each _ (fun i listed => ?_)
    have inside : 0 < i ∧ i < 5 := by
      simp only [List.mem_cons,List.not_mem_nil,or_false] at listed
      omega
    exact quiet_writeReg (plain_eitr inside.2) (by omega) _
  refine (rest (s.set Reg.eitr0 0xFFFF) mapped).mono (fun _ t after => ⟨after.1,?_⟩)
  rw [after.2.reg _ (Nat.lt_irrefl _)]
  exact reg_set_self s _ _

theorem disableInterrupts_spec (mapped : s.bar = true) :
    Safe (watch p) allows s disableInterrupts (fun _ t => (t.bar = true ∧ Frame irqRegs (fun _ => False) [] s t) ∧
      t.reg Reg.eitr0 = some 0xFFFF) := by
  refine (quiet_disableInterrupts s mapped).and ?_
  have mask (offset : Nat) (free : plain offset = true) : Quiet p allows (fun _ => True) (writeReg offset irqDisableAll) :=
    quiet_writeReg free trivial _
  refine (mask Reg.imc rfl).then mapped (fun _ t mapped _ => ?_)
  refine (mask Reg.eimc rfl).then mapped (fun _ t mapped _ => ?_)
  have look (offset : Nat) : Quiet p allows (fun _ => True) (readReg offset) := quiet_readReg offset
  refine (look Reg.icr).then mapped (fun _ t mapped _ => ?_)
  refine (look Reg.eicr).then mapped (fun _ t mapped _ => ?_)
  refine safe_bind.mpr ((writesEitr_spec mapped).mono ?_)
  rintro _ u ⟨mapped,written⟩
  refine (writeReg_plain mapped rfl 0).mono (fun _ v after => ?_)
  exact (after.2.1.reg _ (by decide)).trans written

def powerRegs : List Nat :=
  [Reg.eeer,Reg.ipcnfg,Reg.dmacr,Reg.dmctlx,Reg.pciemisc,Reg.ctrlExt]

private theorem quiet_disableEEE : Quiet p allows (· ∈ powerRegs) disableEEE := by
  refine (quiet_clearBits rfl (by simp [powerRegs]) _).bind (fun _ => ?_)
  refine (quiet_clearBits rfl (by simp [powerRegs]) _).bind (fun _ => ?_)
  refine (quiet_writeReg rfl (by simp [powerRegs]) _).bind (fun _ => ?_)
  refine (quiet_writeReg rfl (by simp [powerRegs]) _).bind (fun _ => ?_)
  refine (quiet_clearBits rfl (by simp [powerRegs]) _).bind (fun _ => ?_)
  exact (quiet_clearBits rfl (by simp [powerRegs]) _).bind (fun _ => quiet_print (by simp))

structure PowerOff (s : Setup) : Prop where
  eeer : Cleared s Reg.eeer 0x00070000
  ipcnfg : Cleared s Reg.ipcnfg 0x0000000C
  dmacr : Cleared s Reg.dmacr 0x80000000
  pciemisc : Cleared s Reg.pciemisc 0x00000080
  ctrlExt : Cleared s Reg.ctrlExt 0x00300000

theorem PowerOff.frame {regs : Nat → Prop} {memory : Region → Prop} {names : List Checked} (off : PowerOff s)
    (frame : Frame regs memory names s t) (outside : ∀ offset ∈ powerRegs, ¬ regs offset) : PowerOff t where
  eeer := frame.cleared (outside _ (by simp [powerRegs])) off.eeer
  ipcnfg := frame.cleared (outside _ (by simp [powerRegs])) off.ipcnfg
  dmacr := frame.cleared (outside _ (by simp [powerRegs])) off.dmacr
  pciemisc := frame.cleared (outside _ (by simp [powerRegs])) off.pciemisc
  ctrlExt := frame.cleared (outside _ (by simp [powerRegs])) off.ctrlExt

theorem disableEEE_spec (mapped : s.bar = true) :
    Safe (watch p) allows s disableEEE (fun _ t => (t.bar = true ∧ Frame (· ∈ powerRegs) (fun _ => False) [] s t) ∧
      PowerOff t) := by
  refine (quiet_disableEEE s mapped).and ?_
  refine safe_bind.mpr ((clearBits_plain mapped rfl _).mono ?_)
  rintro _ t1 ⟨mapped,_,eeer⟩
  refine safe_bind.mpr ((clearBits_plain mapped rfl _).mono ?_)
  rintro _ t2 ⟨mapped,frame2,ipcnfg⟩
  refine safe_bind.mpr ((writeReg_plain mapped rfl _).mono ?_)
  rintro _ t3 ⟨mapped,frame3,dmacr⟩
  refine safe_bind.mpr ((writeReg_plain mapped rfl _).mono ?_)
  rintro _ t4 ⟨mapped,frame4,_⟩
  refine safe_bind.mpr ((clearBits_plain mapped rfl _).mono ?_)
  rintro _ t5 ⟨mapped,frame5,pciemisc⟩
  refine safe_bind.mpr ((clearBits_plain mapped rfl _).mono ?_)
  rintro _ t6 ⟨mapped,frame6,ctrlExt⟩
  refine safe_request rfl (fun _ _ => ⟨?_,?_,?_,?_,ctrlExt⟩)
  · exact frame6.cleared (by decide) (frame5.cleared (by decide) (frame4.cleared (by decide) (frame3.cleared (by decide)
      (frame2.cleared (by decide) eeer))))
  · exact frame6.cleared (by decide) (frame5.cleared (by decide)
      (frame4.cleared (by decide) (frame3.cleared (by decide) ipcnfg)))
  · exact frame6.cleared (by decide) (frame5.cleared (by decide) (frame4.cleared (by decide) ⟨0,dmacr,by decide⟩))
  · exact frame6.cleared (by decide) pciemisc

private theorem permitted_ctrl (mapped : s.bar = true) (value : BitVec 32) :
    s.permitted p (.writeReg Reg.ctrl value) = true := by
  rw [Setup.permitted,mapped]
  rfl

private theorem quiet_waitReset : Quiet p allows (fun _ => False) (do
    sleep 5000
    let complete ← pollReg Reg.status (fun status => status &&& statusPfRstDone ≠ 0) 10000 100
    print (if complete.isSome then .resetComplete else .resetTimeout)) := by
  refine (quiet_sleep _).bind (fun _ => ?_)
  refine (quiet_pollReg _ _ _ _).bind (fun complete => quiet_print ?_)
  split <;> simp

theorem reset_spec (mapped : s.bar = true) :
    Safe (watch p) allows s reset (fun _ t => t.bar = true ∧ Frame (fun _ => False) (fun _ => False) [] s.forget t) := by
  refine safe_bind.mpr (safe_readReg mapped (fun (ctrl : BitVec 32) _ => ?_))
  refine safe_bind.mpr (safe_request (permitted_ctrl mapped _) (fun reply _ => ?_))
  have restarted : (s.see Reg.ctrl ctrl).effect p ⟨.writeReg Reg.ctrl (ctrl ||| ctrlDevRst),reply⟩ = s.forget :=
    if_pos ⟨rfl,or_and_bit ctrl (by decide)⟩
  rw [restarted]
  exact quiet_waitReset s.forget mapped

def Steady (allows : Setup → Exchange Call Reply → Prop) : Prop :=
  ∀ s value, allows s ⟨.readReg Reg.ctrl,value⟩ → (show BitVec 32 from value) &&& ctrlDevRst = 0

theorem setLinkUp_spec (mapped : s.bar = true) :
    Safe (watch p) allows s setLinkUp (fun _ t => t.bar = true ∧
      (Frame (fun _ => False) (fun _ => False) [] s.forget t ∧ ¬ Steady allows ∨
        Frame (· = Reg.ctrl) (fun _ => False) [] s t ∧ Cleared t Reg.ctrl (ctrlRfce ||| ctrlTfce))) := by
  refine safe_bind.mpr (safe_readReg mapped (fun (ctrl : BitVec 32) allowed => ?_))
  refine safe_request (permitted_ctrl mapped _) (fun reply _ => ?_)
  by_cases again : ((ctrl ||| ctrlSlu) &&& ~~~(ctrlFrcspd ||| ctrlFrcdplx ||| ctrlRfce ||| ctrlTfce)) &&& ctrlDevRst ≠ 0
  · have restarted : (s.see Reg.ctrl ctrl).effect p ⟨.writeReg Reg.ctrl
        ((ctrl ||| ctrlSlu) &&& ~~~(ctrlFrcspd ||| ctrlFrcdplx ||| ctrlRfce ||| ctrlTfce)),reply⟩ = s.forget :=
      if_pos ⟨rfl,again⟩
    rw [restarted]
    refine ⟨mapped,.inl ⟨Frame.refl _,fun steady => again ?_⟩⟩
    exact or_and_clear _ (steady s ctrl allowed) (by decide)
  · have written : (s.see Reg.ctrl ctrl).effect p ⟨.writeReg Reg.ctrl
        ((ctrl ||| ctrlSlu) &&& ~~~(ctrlFrcspd ||| ctrlFrcdplx ||| ctrlRfce ||| ctrlTfce)),reply⟩ =
        (s.see Reg.ctrl ctrl).set Reg.ctrl ((ctrl ||| ctrlSlu) &&&
          ~~~(ctrlFrcspd ||| ctrlFrcdplx ||| ctrlRfce ||| ctrlTfce)) :=
      if_neg (fun both => again both.2)
    rw [written]
    refine ⟨mapped,.inr ⟨?_,_,reg_set_self _ _ _,?_⟩⟩
    · exact ((frame_see s Reg.ctrl ctrl).mono (fun _ => False.elim) (fun _ => id) (fun _ => id)).trans (frame_set _ _ _)
    · exact and_part (cleared_and (ctrl ||| ctrlSlu) _) (by decide)

/-- A poll that ends with a value ends right after reading it. -/
theorem pollReg_spec {test : BitVec 32 → Bool} {pause turns : Nat} (inv : Setup → Prop)
    (mapped : ∀ u, inv u → u.bar = true) (looks : ∀ u value, inv u → inv (u.see offset value)) (start : inv s) :
    Safe (watch p) allows s (pollReg offset test pause turns) (fun answer t => inv t ∧
      ∀ value ∈ answer, test value = true ∧ ∃ u, inv u ∧ t = u.see offset value) := by
  refine (safe_attempts inv (fun value t => inv t ∧ test value = true ∧ ∃ u, inv u ∧ t = u.see offset value) ?_ turns
    start).mono ?_
  · intro u holds
    refine safe_bind.mpr (safe_readReg (mapped u holds) (fun value _ => ?_))
    cases found : test value with
    | true => exact ⟨looks u value holds,found,u,holds,rfl⟩
    | false => exact safe_bind.mpr (safe_request rfl (fun _ _ => looks u value holds))
  · rintro answer t holds
    cases answer with
    | none => exact ⟨holds,fun _ found => nomatch found⟩
    | some value =>
      refine ⟨holds.1,fun other found => ?_⟩
      cases found
      exact holds.2

theorem on_of_reg {value bit : BitVec 32} (written : s.reg offset = some value) (set : value &&& bit ≠ 0) :
    s.on offset bit = true := by
  rw [Setup.on,written]
  exact decide_eq_true set

theorem allocate_spec (regs : Nat → Prop) (memory : Region → Prop) (region : Region) (size : Nat)
    (empty : s.held region = none) (inside : memory region) :
    Safe (watch p) allows s (allocate region size) (fun base t =>
      (t.reg = s.reg ∧ t.held = Function.update s.held region base) ∧ Frame regs memory [] s t) := by
  refine safe_request (by rw [Setup.permitted,empty]; rfl) (fun base _ => ⟨⟨rfl,rfl⟩,?_⟩)
  refine ⟨rfl,fun _ _ => rfl,fun _ => id,fun _ => id,fun other outside => ?_,fun _ => rfl,fun _ => .inl⟩
  apply Function.update_of_ne
  rintro rfl
  exact outside inside

end Abtrda3.I210Order
