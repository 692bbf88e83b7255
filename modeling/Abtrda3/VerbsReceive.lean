import Abtrda3.Semantics.ByteMemory
import Abtrda3.Semantics.Machine
import Abtrda3.Semantics.WrappingCounter
import Mathlib.Logic.Function.Basic

/-! The direct receive path of the Verbs backend next to the card. A word in device
byte order is known by the host value it stands for. The receive queue is
written once; a repost is a doorbell store. The card takes posted positions, writes
frames into the addresses found there and completes positions in order, each with the
parity of its lap in the owner bit. A release is cut between its two doorbells. -/
namespace Abtrda3.VerbsReceive
open Abtrda3.Semantics Abtrda3.Semantics.Machine

structure BigEndian (w : Nat) where
  host : BitVec w
  deriving DecidableEq, Repr

structure Params where
  depthBits : Nat
  wqeBits : Nat
  cqeBits : Nat
  maxFrame : BitVec 16
  buf : BitVec 64
  lkey : BitVec 32
  depth : depthBits ≤ 15
  depthInRq : depthBits ≤ wqeBits
  rqBound : wqeBits ≤ 16
  depthInCq : depthBits ≤ cqeBits
  cqBound : cqeBits < 32
  inSpace : buf.toNat + maxFrame.toNat * (1 + 2^depthBits) ≤ 2^64

namespace Params

def rqDepth (p : Params) : Nat := 2^p.depthBits

def rqWqeCnt (p : Params) : Nat := 2^p.wqeBits

def cqeCnt (p : Params) : Nat := 2^p.cqeBits

end Params

structure DataSeg where
  byteCount : BigEndian 32
  lkey : BigEndian 32
  addr : BigEndian 64
  deriving DecidableEq, Repr

structure Cqe where
  opOwn : BitVec 8
  wqeCounter : BigEndian 16
  byteCnt : BigEndian 32
  deriving DecidableEq, Repr

def cqeInvalid : BitVec 8 := 0xf

def cqeRespSend : BitVec 8 := 2

def cqeOwnerMask : BitVec 8 := 1

inductive Pc
  | idle
  | held
  | consuming
  deriving DecidableEq, Repr

structure Wqe where
  counter : BitVec 16
  byteCount : Nat
  addr : BitVec 64
  frame : Option (List (BitVec 8))
  deriving DecidableEq, Repr

inductive Completion
  | good (addr : BitVec 64) (frame : List (BitVec 8))
  | failed
  deriving DecidableEq, Repr

structure State where
  pc : Pc
  cqCi : BitVec 32
  rqHead : BitVec 32
  lastSlot : BitVec 16
  rqDbrec : BigEndian 32
  cqDbrec : BigEndian 32
  rq : Nat → DataSeg
  cq : Nat → Cqe
  memory : ByteMemory
  nicRq : BitVec 16
  inFlight : List Wqe
  completions : List Completion
  returned : List (BitVec 64 × List (BitVec 8))

inductive Event
  | tryReceive
  | release
  | advance
  | take
  | dma (position : Nat) (frame : List (BitVec 8))
  | complete (opOwn : BitVec 8)
  deriving DecidableEq, Repr

def rxSlot (p : Params) (s : BitVec 16) : BitVec 64 :=
  p.buf + BitVec.ofNat 64 (p.maxFrame.toNat * (1 + s.toNat))

def dataSeg (p : Params) (position : Nat) : DataSeg :=
  let s : BitVec 16 := (BitVec.ofNat 32 position &&& (BitVec.ofNat 32 p.rqDepth - 1)).setWidth 16
  ⟨⟨p.maxFrame.setWidth 32⟩,⟨p.lkey⟩,⟨rxSlot p s⟩⟩

def prewriteRq (p : Params) (rq : Nat → DataSeg) : Nat → DataSeg :=
  (List.range p.rqWqeCnt).foldl (fun rq position => Function.update rq position (dataSeg p position)) rq

def ringRq (s : State) : State :=
  {s with rqHead := s.rqHead + 1, rqDbrec := ⟨(s.rqHead + 1) &&& 0xffff⟩}

def start (p : Params) : State :=
  let head := BitVec.ofNat 32 p.rqDepth
  ⟨.idle,0,head,0,⟨head &&& 0xffff⟩,⟨0⟩,prewriteRq p (fun _ => ⟨⟨0⟩,⟨0⟩,⟨0⟩⟩),fun _ => ⟨0xf1,⟨0⟩,⟨0⟩⟩,fun _ => 0,0,[],[],[]⟩

def tryReceive (p : Params) (s : State) : State :=
  let cqe := s.cq (s.cqCi &&& (BitVec.ofNat 32 p.cqeCnt - 1)).toNat
  let opcode := cqe.opOwn >>> 4
  let owner : BitVec 8 := if s.cqCi &&& BitVec.ofNat 32 p.cqeCnt ≠ 0 then 1 else 0
  if opcode = cqeInvalid ∨ cqe.opOwn &&& cqeOwnerMask ≠ owner then s
  else if opcode ≠ cqeRespSend then {ringRq s with pc := .consuming}
  else
    let slot := cqe.wqeCounter.host &&& (BitVec.ofNat 16 p.rqDepth - 1)
    {s with lastSlot := slot, pc := .held,
            returned := s.returned ++ [(rxSlot p slot,s.memory.read (rxSlot p slot).toNat cqe.byteCnt.host.toNat)]}

def advanceCq (s : State) : State :=
  {s with cqCi := s.cqCi + 1, cqDbrec := ⟨(s.cqCi + 1) &&& 0xffffff⟩, pc := .idle}

def posted (s : State) : BitVec 16 := s.rqDbrec.host.setWidth 16 - s.nicRq

def positionAt (p : Params) (counter : BitVec 16) : Nat := counter.toNat % p.rqWqeCnt

def take (p : Params) (s : State) : Option State :=
  if posted s = 0 then none
  else
    let seg := s.rq (positionAt p s.nicRq)
    some {s with nicRq := s.nicRq + 1,
                 inFlight := s.inFlight ++ [⟨s.nicRq,seg.byteCount.host.toNat,seg.addr.host,none⟩]}

def dma (s : State) (position : Nat) (frame : List (BitVec 8)) : Option State :=
  s.inFlight[position]?.bind fun wqe =>
    if wqe.frame = none ∧ frame.length ≤ wqe.byteCount then
      some {s with memory := s.memory.write wqe.addr.toNat frame,
                   inFlight := s.inFlight.set position {wqe with frame := some frame}}
    else none

def lapParity (p : Params) (count : Nat) : BitVec 8 := BitVec.ofNat 8 (count / p.cqeCnt % 2)

def outcome (opOwn : BitVec 8) (wqe : Wqe) : Option (Cqe × Completion) :=
  if opOwn >>> 4 = cqeRespSend then
    wqe.frame.map fun frame =>
      (⟨opOwn,⟨wqe.counter⟩,⟨BitVec.ofNat 32 frame.length⟩⟩,.good wqe.addr frame)
  else some (⟨opOwn,⟨wqe.counter⟩,⟨0⟩⟩,.failed)

def unread (s : State) : Nat := (BitVec.ofNat 24 s.completions.length - s.cqDbrec.host.setWidth 24).toNat

def complete (p : Params) (s : State) (opOwn : BitVec 8) : Option State :=
  let count := s.completions.length
  if opOwn &&& cqeOwnerMask = lapParity p count ∧ opOwn >>> 4 ≠ cqeInvalid ∧ unread s < p.cqeCnt then
    s.inFlight.head?.bind fun wqe =>
      (outcome opOwn wqe).map fun (cqe,completion) =>
        {s with cq := Function.update s.cq (count % p.cqeCnt) cqe, inFlight := s.inFlight.tail,
                completions := s.completions ++ [completion]}
  else none

def step (p : Params) (s : State) : Event → Option State
  | .tryReceive => if s.pc = .idle then some (tryReceive p s) else none
  | .release => if s.pc = .held then some {ringRq s with pc := .consuming} else none
  | .advance => if s.pc = .consuming then some (advanceCq s) else none
  | .take => take p s
  | .dma position frame => dma s position frame
  | .complete opOwn => complete p s opOwn

def slotOf (p : Params) (counter : BitVec 16) : BitVec 16 := counter &&& (BitVec.ofNat 16 p.rqDepth - 1)

def nicOwned (p : Params) (s : State) : List (BitVec 16) :=
  (s.inFlight.map Wqe.counter ++
    (List.range (posted s).toNat).map fun i => s.nicRq + BitVec.ofNat 16 i).map (slotOf p)

def goods : List Completion → List (BitVec 64 × List (BitVec 8))
  | [] => []
  | .good addr frame::rest => (addr,frame)::goods rest
  | .failed::rest => goods rest

def reposted : Pc → Nat
  | .consuming => 1
  | _ => 0

def handled : Pc → Nat
  | .idle => 0
  | _ => 1

def Completion.frame? : Completion → Option (List (BitVec 8))
  | .good _ frame => some frame
  | .failed => none

def frames (s : State) : List (Option (List (BitVec 8))) :=
  s.completions.map Completion.frame? ++ s.inFlight.map Wqe.frame

def slotAddr (p : Params) (n : Nat) : BitVec 64 := rxSlot p (BitVec.ofNat 16 (n % p.rqDepth))

def Reports (n : Nat) (cqe : Cqe) : Completion → Prop
  | .good _ frame => cqe.opOwn >>> 4 = cqeRespSend ∧ cqe.wqeCounter.host = BitVec.ofNat 16 n ∧
      cqe.byteCnt.host.toNat = frame.length
  | .failed => cqe.opOwn >>> 4 ≠ cqeRespSend

structure Inv (p : Params) (s : State) (consumed : Nat) : Prop where
  ci : s.cqCi = BitVec.ofNat 32 consumed
  head : s.rqHead = BitVec.ofNat 32 (consumed + p.rqDepth + reposted s.pc)
  rqDoorbell : s.rqDbrec.host.setWidth 16 = BitVec.ofNat 16 (consumed + p.rqDepth + reposted s.pc)
  cqDoorbell : s.cqDbrec.host.setWidth 24 = BitVec.ofNat 24 consumed
  taken : s.nicRq = BitVec.ofNat 16 (s.completions.length + s.inFlight.length)
  written : ∀ position < p.rqWqeCnt, s.rq position = dataSeg p position
  behind : consumed + handled s.pc ≤ s.completions.length
  window : s.completions.length + s.inFlight.length ≤ consumed + p.rqDepth + reposted s.pc
  fits : s.completions.length ≤ consumed + p.cqeCnt
  queue : ∀ n completion, s.completions[n]? = some completion → s.completions.length ≤ n + p.cqeCnt →
    (s.cq (n % p.cqeCnt)).opOwn &&& cqeOwnerMask = lapParity p n ∧
      (s.cq (n % p.cqeCnt)).opOwn >>> 4 ≠ cqeInvalid ∧ Reports n (s.cq (n % p.cqeCnt)) completion
  blank : ∀ n, s.completions.length ≤ n → n < p.cqeCnt → (s.cq n).opOwn >>> 4 = cqeInvalid
  flights : ∀ i wqe, s.inFlight[i]? = some wqe →
    wqe.counter = BitVec.ofNat 16 (s.completions.length + i) ∧
      wqe.addr = slotAddr p (s.completions.length + i) ∧ wqe.byteCount = p.maxFrame.toNat
  landed : ∀ n addr frame, s.completions[n]? = some (.good addr frame) → addr = slotAddr p n
  intact : ∀ n frame, consumed + reposted s.pc ≤ n → (frames s)[n]? = some (some frame) →
    frame.length ≤ p.maxFrame.toNat ∧ s.memory.read (slotAddr p n).toNat frame.length = frame
  log : s.returned = goods (s.completions.take (consumed + handled s.pc))
  current : s.pc = .held → s.lastSlot = BitVec.ofNat 16 (consumed % p.rqDepth) ∧
    ∃ addr frame, s.completions[consumed]? = some (.good addr frame)

variable {p : Params} {s t : State} {consumed : Nat}

private theorem low_sixteen (count : Nat) :
    (BitVec.ofNat 32 count &&& 0xffff).setWidth 16 = BitVec.ofNat 16 count :=
  WrappingCounter.low_bits (by decide : 16 ≤ 32) count

private theorem low_twentyfour (count : Nat) :
    (BitVec.ofNat 32 count &&& 0xffffff).setWidth 24 = BitVec.ofNat 24 count :=
  WrappingCounter.low_bits (by decide : 24 ≤ 32) count

theorem rqDepth_pos (p : Params) : 0 < p.rqDepth := Nat.two_pow_pos p.depthBits

theorem rqDepth_le (p : Params) : p.rqDepth ≤ 2^15 := Nat.pow_le_pow_right (by decide) p.depth

private theorem cqeCnt_pos (p : Params) : 0 < p.cqeCnt := Nat.two_pow_pos p.cqeBits

theorem slotOf_ofNat (p : Params) (n : Nat) : slotOf p (BitVec.ofNat 16 n) = BitVec.ofNat 16 (n % p.rqDepth) := by
  apply BitVec.eq_of_toNat_eq
  have below := Nat.mod_lt n (rqDepth_pos p)
  have small := rqDepth_le p
  rw [slotOf,BitVec.toNat_ofNat,Nat.mod_eq_of_lt (by omega)]
  exact WrappingCounter.mask_toNat (Nat.le_trans p.depth (by decide)) n

private theorem dataSeg_addr (p : Params) (position : Nat) : (dataSeg p position).addr.host = slotAddr p position := by
  have masked : (BitVec.ofNat 32 position &&& (BitVec.ofNat 32 p.rqDepth - 1)).setWidth 16 =
      BitVec.ofNat 16 (position % p.rqDepth) := by
    apply BitVec.eq_of_toNat_eq
    rw [BitVec.toNat_setWidth,BitVec.toNat_ofNat]
    exact congrArg (· % 2^16) (WrappingCounter.mask_toNat (Nat.le_trans p.depth (by decide)) position)
  simp only [dataSeg,masked,slotAddr]

private theorem dataSeg_taken (p : Params) (n : Nat) :
    (dataSeg p (positionAt p (BitVec.ofNat 16 n))).addr.host = slotAddr p n := by
  have rqDivides : p.rqWqeCnt ∣ 2^16 := Nat.pow_dvd_pow 2 p.rqBound
  have depthDivides : p.rqDepth ∣ p.rqWqeCnt := Nat.pow_dvd_pow 2 p.depthInRq
  rw [dataSeg_addr,slotAddr,positionAt,WrappingCounter.ofNat_toNat_mod,Nat.mod_mod_of_dvd _ rqDivides,
    Nat.mod_mod_of_dvd _ depthDivides]
  rfl

private theorem prewriteRq_apply (p : Params) (rq : Nat → DataSeg) {position : Nat} (inside : position < p.rqWqeCnt) :
    prewriteRq p rq position = dataSeg p position := by
  exact (WrappingCounter.foldl_update_range (fun position _ => dataSeg p position) rq _ position).trans (if_pos inside)

private theorem slotAddr_toNat (p : Params) (n : Nat) :
    (slotAddr p n).toNat = p.buf.toNat + p.maxFrame.toNat * (1 + n % p.rqDepth) := by
  have below := Nat.mod_lt n (rqDepth_pos p)
  have small := rqDepth_le p
  have space := p.inSpace
  have scaled : p.maxFrame.toNat * (1 + n % p.rqDepth) ≤ p.maxFrame.toNat * (1 + 2^p.depthBits) :=
    Nat.mul_le_mul_left _ (Nat.add_le_add_left below.le 1)
  have strict : p.buf.toNat + p.maxFrame.toNat * (1 + n % p.rqDepth) < 2^64 := by
    rcases Nat.eq_zero_or_pos p.maxFrame.toNat with zero | pos
    · rw [zero,Nat.zero_mul]
      exact p.buf.isLt
    · have := Nat.mul_lt_mul_of_pos_left (Nat.add_lt_add_left below 1) pos
      rw [Params.rqDepth] at this
      exact Nat.lt_of_lt_of_le (Nat.add_lt_add_left this _) space
  rw [slotAddr,rxSlot,BitVec.toNat_add,WrappingCounter.ofNat_toNat_mod,WrappingCounter.ofNat_toNat_mod,
    Nat.mod_eq_of_lt (by omega : n % p.rqDepth < 2^16),Nat.mod_eq_of_lt (by omega : p.maxFrame.toNat * _ < 2^64),
    Nat.mod_eq_of_lt strict]

/-- Frames of different slots lie in disjoint parts of the buffer. -/
theorem slots_apart (p : Params) {n m count other : Nat} (different : n % p.rqDepth ≠ m % p.rqDepth)
    (short : count ≤ p.maxFrame.toNat) (otherShort : other ≤ p.maxFrame.toNat) :
    (slotAddr p n).toNat + count ≤ (slotAddr p m).toNat ∨ (slotAddr p m).toNat + other ≤ (slotAddr p n).toNat := by
  rw [slotAddr_toNat,slotAddr_toNat]
  rcases Nat.lt_or_gt_of_ne different with less | greater
  · have gap := Nat.mul_le_mul_left p.maxFrame.toNat (by omega : 1 + n % p.rqDepth + 1 ≤ 1 + m % p.rqDepth)
    rw [Nat.mul_succ] at gap
    omega
  · have gap := Nat.mul_le_mul_left p.maxFrame.toNat (by omega : 1 + m % p.rqDepth + 1 ≤ 1 + n % p.rqDepth)
    rw [Nat.mul_succ] at gap
    omega

private theorem ownerBit_eq (p : Params) (count : Nat) :
    (if BitVec.ofNat 32 count &&& BitVec.ofNat 32 p.cqeCnt ≠ 0 then 1 else 0 : BitVec 8) = lapParity p count := by
  have bit := WrappingCounter.lap_bit p.cqBound count
  unfold lapParity
  change (if BitVec.ofNat 32 count &&& BitVec.ofNat 32 (2^p.cqeBits) ≠ 0 then _ else _) =
      BitVec.ofNat 8 (count / 2^p.cqeBits % 2)
  rcases Nat.mod_two_eq_zero_or_one (count / 2^p.cqeBits) with even | odd
  · rw [if_neg (by rw [bit]; omega),even]
    rfl
  · rw [if_pos (bit.mpr odd),odd]
    rfl

private theorem lapParity_next (p : Params) (count : Nat) : lapParity p (count + p.cqeCnt) ≠ lapParity p count := by
  unfold lapParity
  rw [Nat.add_div_right _ (cqeCnt_pos p)]
  rcases Nat.mod_two_eq_zero_or_one (count / p.cqeCnt) with even | odd
  · rw [even,Nat.add_mod,even]
    decide
  · rw [odd,Nat.add_mod,odd]
    decide

theorem start_inv (p : Params) : Inv p (start p) 0 := by
  refine ⟨rfl,?_,?_,?_,rfl,?_,Nat.le_refl 0,Nat.zero_le _,Nat.zero_le _,?_,?_,?_,?_,?_,rfl,?_⟩
  · simp only [start,reposted,Nat.zero_add,Nat.add_zero]
  · simp only [start,reposted,Nat.zero_add,Nat.add_zero]
    exact low_sixteen _
  · rfl
  · intro position inside
    exact prewriteRq_apply p _ inside
  · intro n completion found
    simp [start] at found
  · intro n _ _
    change (0xf1#8) >>> 4 = cqeInvalid
    decide
  · intro i wqe found
    simp [start] at found
  · intro n addr frame found
    simp [start] at found
  · intro n frame _ found
    simp [start,frames] at found
  · intro held
    simp [start] at held

private theorem frames_completed {n : Nat} {completion : Completion} (found : s.completions[n]? = some completion) :
    (frames s)[n]? = some completion.frame? := by
  obtain ⟨inside,_⟩ := List.getElem?_eq_some_iff.mp found
  rw [frames,List.getElem?_append_left (by rw [List.length_map]; exact inside),List.getElem?_map,found]
  rfl

theorem Inv.entry_stale (inv : Inv p s consumed) (drained : consumed = s.completions.length) :
    (s.cq (consumed % p.cqeCnt)).opOwn >>> 4 = cqeInvalid ∨
      (s.cq (consumed % p.cqeCnt)).opOwn &&& cqeOwnerMask ≠ lapParity p consumed := by
  by_cases lap : consumed < p.cqeCnt
  · left
    rw [Nat.mod_eq_of_lt lap]
    exact inv.blank consumed drained.ge lap
  · right
    obtain ⟨earlier,sum⟩ := Nat.exists_eq_add_of_le (Nat.le_of_not_lt lap)
    have inside : earlier < s.completions.length := by
      have := cqeCnt_pos p
      omega
    obtain ⟨owner,_⟩ := inv.queue earlier _ (List.getElem?_eq_getElem inside) (by omega)
    rw [sum,Nat.add_mod_left,owner,Nat.add_comm]
    exact (lapParity_next p earlier).symm

theorem Inv.tryReceive_cases (inv : Inv p s consumed) (here : s.pc = .idle) :
    (consumed = s.completions.length ∧ tryReceive p s = s) ∨
    (∃ addr frame, s.completions[consumed]? = some (.good addr frame) ∧
      tryReceive p s = {s with lastSlot := BitVec.ofNat 16 (consumed % p.rqDepth), pc := .held,
                               returned := s.returned ++ [(addr,frame)]}) ∨
    (s.completions[consumed]? = some .failed ∧ tryReceive p s = {ringRq s with pc := .consuming}) := by
  have index : (s.cqCi &&& (BitVec.ofNat 32 p.cqeCnt - 1)).toNat = consumed % p.cqeCnt := by
    rw [inv.ci]
    exact WrappingCounter.mask_toNat p.cqBound.le consumed
  have owner := ownerBit_eq p consumed
  rw [← inv.ci] at owner
  unfold tryReceive
  dsimp only
  rw [index,owner]
  have behind := inv.behind
  rw [here,handled,Nat.add_zero] at behind
  rcases Nat.eq_or_lt_of_le behind with drained | waiting
  · left
    exact ⟨drained,if_pos (inv.entry_stale drained)⟩
  · right
    have found := List.getElem?_eq_getElem waiting
    obtain ⟨parity,valid,report⟩ := inv.queue consumed _ found inv.fits
    rw [if_neg (by rw [not_or]; exact ⟨valid,not_not.mpr parity⟩)]
    cases completion : s.completions[consumed] with
    | good addr frame =>
      left
      rw [completion] at found report
      obtain ⟨opcode,counter,length⟩ := report
      have slot : (s.cq (consumed % p.cqeCnt)).wqeCounter.host &&& (BitVec.ofNat 16 p.rqDepth - 1) =
          BitVec.ofNat 16 (consumed % p.rqDepth) := by
        rw [counter]
        exact slotOf_ofNat p consumed
      obtain ⟨_,bytes⟩ := inv.intact consumed frame (by rw [here]; rfl) (frames_completed found)
      refine ⟨addr,frame,found,?_⟩
      rw [if_neg (not_not.mpr opcode),slot,length,← slotAddr,bytes,inv.landed consumed addr frame found]
    | failed =>
      right
      rw [completion] at found report
      exact ⟨found,if_pos report⟩

private theorem goods_append (first second : List Completion) : goods (first ++ second) = goods first ++ goods second := by
  induction first with
  | nil => rfl
  | cons completion rest ih =>
    cases completion with
    | good addr frame => exact congrArg ((addr,frame)::·) ih
    | failed => exact ih

theorem goods_take_succ {completions : List Completion} {n : Nat} {completion : Completion}
    (found : completions[n]? = some completion) :
    goods (completions.take (n + 1)) = goods (completions.take n) ++ goods [completion] := by
  rw [List.take_add_one,found,goods_append]
  rfl

private theorem consuming_inv (inv : Inv p s consumed) (outside : reposted s.pc = 0)
    (more : consumed < s.completions.length)
    (log : s.returned = goods (s.completions.take (consumed + 1))) :
    Inv p {ringRq s with pc := .consuming} consumed := by
  have head := inv.head
  have window := inv.window
  rw [outside,Nat.add_zero] at head window
  have next : s.rqHead + 1 = BitVec.ofNat 32 (consumed + p.rqDepth + 1) := by
    rw [head,WrappingCounter.ofNat_succ]
  refine ⟨inv.ci,next,?_,inv.cqDoorbell,inv.taken,inv.written,more,?_,inv.fits,inv.queue,inv.blank,inv.flights,
    inv.landed,?_,log,?_⟩
  · change ((s.rqHead + 1) &&& 0xffff).setWidth 16 = _
    rw [next,low_sixteen]
    rfl
  · exact Nat.le_succ_of_le window
  · intro n frame low found
    apply inv.intact n frame
    · rw [outside]
      exact Nat.le_of_succ_le low
    · exact found
  · intro held
    cases held

private theorem tryReceive_inv (inv : Inv p s consumed) (here : s.pc = .idle) : Inv p (tryReceive p s) consumed := by
  have log := inv.log
  rw [here,handled,Nat.add_zero] at log
  rcases inv.tryReceive_cases here with ⟨_,same⟩ | ⟨addr,frame,found,same⟩ | ⟨found,same⟩
  · rw [same]
    exact inv
  · obtain ⟨inside,_⟩ := List.getElem?_eq_some_iff.mp found
    obtain ⟨ci,head,rqDoorbell,cqDoorbell,taken,written,_,window,fits,queue,blank,flights,landed,intact,_,_⟩ := inv
    rw [here] at head rqDoorbell window intact
    rw [same]
    refine ⟨ci,head,rqDoorbell,cqDoorbell,taken,written,inside,window,fits,queue,blank,flights,landed,intact,?_,?_⟩
    · change s.returned ++ [(addr,frame)] = goods (s.completions.take (consumed + 1))
      rw [goods_take_succ found,log]
      rfl
    · intro _
      exact ⟨rfl,addr,frame,found⟩
  · obtain ⟨inside,_⟩ := List.getElem?_eq_some_iff.mp found
    rw [same]
    apply consuming_inv inv
    · rw [here]
      rfl
    · exact inside
    · rw [goods_take_succ found,log]
      exact (List.append_nil _).symm

theorem release_inv (inv : Inv p s consumed) (here : s.pc = .held) :
    Inv p {ringRq s with pc := .consuming} consumed := by
  have behind := inv.behind
  have log := inv.log
  rw [here] at behind log
  apply consuming_inv inv
  · rw [here]
    rfl
  · exact behind
  · exact log

private theorem advance_inv (inv : Inv p s consumed) (here : s.pc = .consuming) : Inv p (advanceCq s) (consumed + 1) := by
  obtain ⟨ci,head,rqDoorbell,_,taken,written,behind,window,fits,queue,blank,flights,landed,intact,log,_⟩ := inv
  rw [here] at head rqDoorbell behind window intact log
  have swap : consumed + p.rqDepth + 1 = consumed + 1 + p.rqDepth := by omega
  simp only [reposted,handled] at head rqDoorbell behind window intact log
  rw [swap] at head rqDoorbell window
  have next : s.cqCi + 1 = BitVec.ofNat 32 (consumed + 1) := by
    rw [ci,WrappingCounter.ofNat_succ]
  refine ⟨next,head,rqDoorbell,?_,taken,written,behind,window,?_,queue,blank,flights,landed,intact,log,?_⟩
  · change ((s.cqCi + 1) &&& 0xffffff).setWidth 24 = _
    rw [next,low_twentyfour]
  · exact Nat.le_trans fits (by omega)
  · intro held
    cases held

theorem Inv.posted_eq (inv : Inv p s consumed) : (posted s).toNat =
    consumed + p.rqDepth + reposted s.pc - (s.completions.length + s.inFlight.length) := by
  have small := rqDepth_le p
  have behind := inv.behind
  have window := inv.window
  have one : reposted s.pc ≤ 1 := by cases s.pc <;> decide
  rw [posted,inv.rqDoorbell,inv.taken]
  apply WrappingCounter.sub_toNat
  · exact window
  · omega

private theorem take_inv (inv : Inv p s consumed) (moved : take p s = some t) : Inv p t consumed := by
  have count := inv.posted_eq
  obtain ⟨ci,head,rqDoorbell,cqDoorbell,taken,written,behind,window,fits,queue,blank,flights,landed,intact,log,
      current⟩ := inv
  unfold take at moved
  split at moved
  · exact absurd moved (by simp)
  next some =>
    cases moved
    have room : (posted s).toNat ≠ 0 := by
      intro zero
      exact some (BitVec.eq_of_toNat_eq zero)
    have segment : s.rq (positionAt p s.nicRq) = dataSeg p (positionAt p s.nicRq) :=
      written _ (Nat.mod_lt _ (Nat.two_pow_pos p.wqeBits))
    refine ⟨ci,head,rqDoorbell,cqDoorbell,?_,written,behind,?_,fits,queue,blank,?_,landed,?_,log,current⟩
    · change s.nicRq + 1 = _
      rw [taken,WrappingCounter.ofNat_succ,List.length_append]
      rfl
    · rw [List.length_append,List.length_singleton]
      dsimp only
      omega
    · intro i wqe found
      rcases log_snoc_cases found with old | ⟨rfl,rfl⟩
      · exact flights i wqe old
      · refine ⟨taken,?_,?_⟩
        · dsimp only
          rw [segment,taken,dataSeg_taken]
        · dsimp only
          rw [segment]
          exact BitVec.toNat_setWidth_of_le (by decide)
    · intro n frame low found
      rw [frames,List.map_append,← List.append_assoc] at found
      rcases log_snoc_cases found with old | ⟨_,empty⟩
      · exact intact n frame low old
      · cases empty

theorem Inv.repost_behind (inv : Inv p s consumed) : consumed + reposted s.pc ≤ s.completions.length := by
  have behind := inv.behind
  have : reposted s.pc ≤ handled s.pc := by cases s.pc <;> decide
  omega

private theorem dma_inv (inv : Inv p s consumed) {position : Nat} {frame : List (BitVec 8)}
    (moved : dma s position frame = some t) : Inv p t consumed := by
  have ahead := inv.repost_behind
  obtain ⟨ci,head,rqDoorbell,cqDoorbell,taken,written,behind,window,fits,queue,blank,flights,landed,intact,log,
      current⟩ := inv
  obtain ⟨wqe,found,ok⟩ := Option.bind_eq_some_iff.mp moved
  obtain ⟨inside,_⟩ := List.getElem?_eq_some_iff.mp found
  obtain ⟨counter,address,bytes⟩ := flights position wqe found
  split at ok
  next fresh =>
    cases ok
    obtain ⟨_,short⟩ := fresh
    rw [bytes] at short
    refine ⟨ci,head,rqDoorbell,cqDoorbell,?_,written,behind,?_,fits,queue,blank,?_,landed,?_,log,current⟩
    · dsimp only
      rw [taken,List.length_set]
    · dsimp only
      rw [List.length_set]
      exact window
    · intro i other here
      rw [List.getElem?_set] at here
      split at here
      next same =>
        cases here
        rw [← same]
        exact ⟨counter,address,bytes⟩
      · exact flights i other here
    · intro n other low here
      have place : frames {s with memory := s.memory.write wqe.addr.toNat frame,
                                  inFlight := s.inFlight.set position {wqe with frame := some frame}} =
          (frames s).set (s.completions.length + position) (some frame) := by
        simp [frames,List.map_set]
      rw [place,List.getElem?_set] at here
      dsimp only
      rw [address]
      split at here
      next same =>
        subst same
        split at here
        · cases here
          exact ⟨short,ByteMemory.read_write_same ..⟩
        · cases here
      next different =>
        obtain ⟨length,content⟩ := intact n other low here
        refine ⟨length,?_⟩
        rw [ByteMemory.read_write_apart,content]
        apply slots_apart p _ length short
        obtain ⟨below,_⟩ := List.getElem?_eq_some_iff.mp here
        simp only [frames,List.length_append,List.length_map] at below
        intro same
        apply different
        exact WrappingCounter.mod_inj_of_window (Nat.le_add_right_of_le ahead) low (by omega) (by omega) same.symm
  · cases ok

theorem Inv.unread_eq (inv : Inv p s consumed) : unread s = s.completions.length - consumed := by
  have small := rqDepth_le p
  have behind := inv.behind
  have window := inv.window
  have one : reposted s.pc ≤ 1 := by cases s.pc <;> decide
  rw [unread,inv.cqDoorbell]
  apply WrappingCounter.sub_toNat
  · omega
  · omega

theorem outcome_cases {opOwn : BitVec 8} {wqe : Wqe} {cqe : Cqe} {completion : Completion}
    (found : outcome opOwn wqe = some (cqe,completion)) :
    cqe.opOwn = opOwn ∧ cqe.wqeCounter.host = wqe.counter ∧
      ((opOwn >>> 4 = cqeRespSend ∧ ∃ frame, wqe.frame = some frame ∧ completion = .good wqe.addr frame ∧
          cqe.byteCnt.host = BitVec.ofNat 32 frame.length) ∨
        (opOwn >>> 4 ≠ cqeRespSend ∧ completion = .failed)) := by
  unfold outcome at found
  split at found
  next send =>
    obtain ⟨frame,written,same⟩ := Option.map_eq_some_iff.mp found
    cases same
    exact ⟨rfl,rfl,.inl ⟨send,frame,written,rfl,rfl⟩⟩
  next other =>
    cases found
    exact ⟨rfl,rfl,.inr ⟨other,rfl⟩⟩

private theorem frames_head {wqe : Wqe} {rest : List Wqe} (flight : s.inFlight = wqe::rest) :
    (frames s)[s.completions.length]? = some wqe.frame := by
  simp [frames,flight]

private theorem complete_cases {opOwn : BitVec 8} (moved : complete p s opOwn = some t) :
    opOwn &&& cqeOwnerMask = lapParity p s.completions.length ∧ opOwn >>> 4 ≠ cqeInvalid ∧ unread s < p.cqeCnt ∧
      ∃ wqe rest cqe completion, s.inFlight = wqe::rest ∧ outcome opOwn wqe = some (cqe,completion) ∧
        t = {s with cq := Function.update s.cq (s.completions.length % p.cqeCnt) cqe, inFlight := rest,
                    completions := s.completions ++ [completion]} := by
  obtain ⟨⟨parity,valid,room⟩,moved⟩ := Option.ite_none_right_eq_some.mp moved
  obtain ⟨wqe,first,moved⟩ := Option.bind_eq_some_iff.mp moved
  obtain ⟨⟨cqe,completion⟩,result,rfl⟩ := Option.map_eq_some_iff.mp moved
  refine ⟨parity,valid,room,wqe,s.inFlight.tail,cqe,completion,?_,result,rfl⟩
  exact (List.cons_head?_tail first).symm

section complete

variable {opOwn : BitVec 8} {wqe : Wqe} {rest : List Wqe} {cqe : Cqe} {completion : Completion}

theorem Inv.reports_outcome (inv : Inv p s consumed) (flight : s.inFlight = wqe::rest)
    (result : outcome opOwn wqe = some (cqe,completion)) : Reports s.completions.length cqe completion := by
  obtain ⟨counter,_⟩ := inv.flights 0 wqe (by rw [flight]; rfl)
  rw [Nat.add_zero] at counter
  obtain ⟨own,number,shape⟩ := outcome_cases result
  rcases shape with ⟨send,frame,filled,rfl,bytes⟩ | ⟨other,rfl⟩
  · obtain ⟨short,_⟩ := inv.intact s.completions.length frame inv.repost_behind (by rw [frames_head flight,filled])
    have small := p.maxFrame.isLt
    refine ⟨by rw [own]; exact send,by rw [number,counter],?_⟩
    rw [bytes,WrappingCounter.ofNat_toNat_mod,Nat.mod_eq_of_lt (by omega)]
  · change cqe.opOwn >>> 4 ≠ cqeRespSend
    rw [own]
    exact other

private theorem frames_complete (flight : s.inFlight = wqe::rest) (result : outcome opOwn wqe = some (cqe,completion))
    {cq : Nat → Cqe} {n : Nat} {frame : List (BitVec 8)}
    (found : (frames {s with cq := cq, inFlight := rest, completions := s.completions ++ [completion]})[n]? =
      some (some frame)) :
    (frames s)[n]? = some (some frame) := by
  have replaced : frames {s with cq := cq, inFlight := rest, completions := s.completions ++ [completion]} =
      (frames s).set s.completions.length completion.frame? := by
    simp [frames,flight]
  rw [replaced,List.getElem?_set] at found
  split at found
  next here =>
    subst here
    obtain ⟨_,kept⟩ := Option.ite_none_right_eq_some.mp found
    rw [frames_head flight]
    obtain ⟨_,_,⟨_,_,filled,rfl,_⟩ | ⟨_,rfl⟩⟩ := outcome_cases result
    · rw [filled]
      exact kept
    · cases kept
  · exact found

private theorem complete_inv (inv : Inv p s consumed) (moved : complete p s opOwn = some t) : Inv p t consumed := by
  have count := inv.unread_eq
  obtain ⟨parity,valid,room,wqe,rest,cqe,completion,flight,result,rfl⟩ := complete_cases moved
  have reports := inv.reports_outcome flight result
  obtain ⟨ci,head,rqDoorbell,cqDoorbell,taken,written,behind,window,fits,queue,blank,flights,landed,intact,log,
      current⟩ := inv
  obtain ⟨_,address,_⟩ := flights 0 wqe (by rw [flight]; rfl)
  obtain ⟨own,_,shape⟩ := outcome_cases result
  rw [flight,List.length_cons] at taken window
  have length : (s.completions ++ [completion]).length = s.completions.length + 1 := by
    rw [List.length_append]
    rfl
  refine ⟨ci,head,rqDoorbell,cqDoorbell,?_,written,?_,?_,?_,?_,?_,?_,?_,?_,?_,?_⟩
  · dsimp only
    rw [taken,length,Nat.add_assoc,Nat.add_comm 1]
  · dsimp only
    rw [length]
    exact Nat.le_succ_of_le behind
  · dsimp only
    rw [length]
    omega
  · dsimp only
    rw [length]
    omega
  · intro n found here near
    dsimp only at here near ⊢
    rw [length] at near
    rcases log_snoc_cases here with old | ⟨rfl,rfl⟩
    · obtain ⟨inside,_⟩ := List.getElem?_eq_some_iff.mp old
      rw [Function.update_of_ne (WrappingCounter.mod_ne_of_window inside (by omega))]
      exact queue n found old (by omega)
    · rw [Function.update_self,own]
      exact ⟨parity,valid,reports⟩
  · intro n past inside
    dsimp only at past ⊢
    rw [length] at past
    rw [Function.update_of_ne]
    · exact blank n (by omega) inside
    · rw [Nat.mod_eq_of_lt (by omega)]
      omega
  · intro i later found
    dsimp only at found ⊢
    rw [length,Nat.add_assoc,Nat.add_comm 1]
    exact flights (i + 1) later (by rw [flight]; exact found)
  · intro n addr frame found
    rcases log_snoc_cases found with old | ⟨rfl,rfl⟩
    · exact landed n addr frame old
    · rcases shape with ⟨_,_,_,same,_⟩ | ⟨_,same⟩
      · cases same
        exact address
      · cases same
  · exact fun n frame above found => intact n frame above (frames_complete flight result found)
  · dsimp only
    rw [List.take_append_of_le_length behind]
    exact log
  · intro held
    obtain ⟨slot,addr,frame,found⟩ := current held
    obtain ⟨inside,_⟩ := List.getElem?_eq_some_iff.mp found
    refine ⟨slot,addr,frame,?_⟩
    dsimp only
    rw [List.getElem?_append_left inside,found]

end complete

theorem step_inv (inv : Inv p s consumed) {event : Event} (moved : step p s event = some t) :
    Inv p t (consumed + [event].count .advance) := by
  cases event with
  | tryReceive =>
    obtain ⟨here,same⟩ := Option.ite_none_right_eq_some.mp moved
    cases same
    exact tryReceive_inv inv here
  | release =>
    obtain ⟨here,same⟩ := Option.ite_none_right_eq_some.mp moved
    cases same
    exact release_inv inv here
  | advance =>
    obtain ⟨here,same⟩ := Option.ite_none_right_eq_some.mp moved
    cases same
    exact advance_inv inv here
  | take => exact take_inv inv moved
  | dma position frame => exact dma_inv inv moved
  | complete opOwn => exact complete_inv inv moved

private theorem run_inv (inv : Inv p s consumed) {events : List Event} (ran : run (step p) s events = some t) :
    Inv p t (consumed + events.count .advance) := by
  induction events generalizing s consumed with
  | nil =>
    cases ran
    exact inv
  | cons event rest ih =>
    obtain ⟨next,moved,after⟩ := run_cons_some ran
    have later := ih (step_inv inv moved) after
    rw [Nat.add_assoc,← List.count_append] at later
    exact later

theorem Inv.lastSlot_notOwned (inv : Inv p s consumed) (here : s.pc = .held) : s.lastSlot ∉ nicOwned p s := by
  have behind := inv.behind
  have window := inv.window
  have room := inv.posted_eq
  rw [here] at behind window room
  simp only [handled,reposted,Nat.add_zero] at behind window room
  have free (n : Nat) (low : s.completions.length ≤ n) (high : n < consumed + p.rqDepth) :
      slotOf p (BitVec.ofNat 16 n) ≠ s.lastSlot := by
    have small := rqDepth_le p
    have below := Nat.mod_lt n (rqDepth_pos p)
    have current := Nat.mod_lt consumed (rqDepth_pos p)
    rw [slotOf_ofNat,(inv.current here).1]
    intro same
    have values := congrArg BitVec.toNat same
    rw [WrappingCounter.ofNat_toNat_mod,WrappingCounter.ofNat_toNat_mod,
      Nat.mod_eq_of_lt (by omega : n % p.rqDepth < 2^16),
      Nat.mod_eq_of_lt (by omega : consumed % p.rqDepth < 2^16)] at values
    exact WrappingCounter.mod_ne_of_window (by omega) high values.symm
  intro owned
  obtain ⟨counter,member,same⟩ := List.mem_map.mp owned
  rcases List.mem_append.mp member with flying | waiting
  · obtain ⟨wqe,inFlight,rfl⟩ := List.mem_map.mp flying
    obtain ⟨i,found⟩ := List.mem_iff_getElem?.mp inFlight
    obtain ⟨inside,_⟩ := List.getElem?_eq_some_iff.mp found
    obtain ⟨number,_⟩ := inv.flights i wqe found
    rw [number] at same
    exact free _ (Nat.le_add_right _ _) (by omega) same
  · obtain ⟨i,inside,rfl⟩ := List.mem_map.mp waiting
    have below := List.mem_range.mp inside
    rw [inv.taken,← BitVec.ofNat_add] at same
    exact free _ (by omega) (by omega) same

theorem Inv.held_frame (inv : Inv p s consumed) (here : s.pc = .held) :
    ∃ addr frame, s.returned.getLast? = some (addr,frame) ∧ addr = rxSlot p s.lastSlot ∧
      s.memory.read addr.toNat frame.length = frame := by
  obtain ⟨slot,addr,frame,found⟩ := inv.current here
  have address := inv.landed consumed addr frame found
  have log := inv.log
  rw [here] at log
  change s.returned = goods (s.completions.take (consumed + 1)) at log
  rw [goods_take_succ found] at log
  obtain ⟨_,content⟩ := inv.intact consumed frame (by rw [here]; rfl) (frames_completed found)
  refine ⟨addr,frame,?_,?_,?_⟩
  · rw [log]
    exact List.getLast?_concat
  · rw [slot,address,slotAddr]
  · rw [address,content]

/-- What every run of the receive path keeps, whatever the card does in between: the
frames handed out are the good completions in order, each from the slot it was written
to; a waiting completion is never overlooked and an old one never taken again; the two
heads stay one ring apart; the slot in hand is out of the card's reach. -/
theorem returned_in_order {events : List Event} (ran : run (step p) (start p) events = some s) :
    s.cqCi = BitVec.ofNat 32 (events.count .advance) ∧
    events.count .advance + handled s.pc ≤ s.completions.length ∧
    s.returned = goods (s.completions.take (events.count .advance + handled s.pc)) ∧
    (s.pc = .idle → (tryReceive p s = s ↔ events.count .advance = s.completions.length)) ∧
    (s.pc ≠ .consuming → s.rqHead - s.cqCi = BitVec.ofNat 32 p.rqDepth ∧
      (s.inFlight ≠ [] → unread s < p.cqeCnt)) ∧
    (s.pc = .held → s.lastSlot ∉ nicOwned p s ∧
      ∃ addr frame, s.returned.getLast? = some (addr,frame) ∧ addr = rxSlot p s.lastSlot ∧
        s.memory.read addr.toNat frame.length = frame) := by
  have inv := run_inv (start_inv p) ran
  rw [Nat.zero_add] at inv
  refine ⟨inv.ci,inv.behind,inv.log,?_,?_,fun here => ⟨inv.lastSlot_notOwned here,inv.held_frame here⟩⟩
  · intro here
    rcases inv.tryReceive_cases here with ⟨drained,same⟩ | ⟨_,_,found,moved⟩ | ⟨found,moved⟩
    · exact ⟨fun _ => drained,fun _ => same⟩
    · obtain ⟨inside,_⟩ := List.getElem?_eq_some_iff.mp found
      have busy : (tryReceive p s).pc = .held := by rw [moved]
      refine ⟨?_,fun drained => absurd inside (by omega)⟩
      intro same
      rw [same,here] at busy
      cases busy
    · obtain ⟨inside,_⟩ := List.getElem?_eq_some_iff.mp found
      have busy : (tryReceive p s).pc = .consuming := by rw [moved]
      refine ⟨?_,fun drained => absurd inside (by omega)⟩
      intro same
      rw [same,here] at busy
      cases busy
  · intro outside
    have zero : reposted s.pc = 0 := by
      cases here : s.pc with
      | consuming => exact absurd here outside
      | _ => rfl
    have window := inv.window
    rw [zero,Nat.add_zero] at window
    constructor
    · rw [inv.head,inv.ci,zero,WrappingCounter.sub_ofNat 32 (by omega)]
      congr 1
      omega
    · intro some
      have flying := List.length_pos_of_ne_nil some
      have wide : p.rqDepth ≤ p.cqeCnt := Nat.pow_le_pow_right (by decide) p.depthInCq
      have pos := rqDepth_pos p
      rw [inv.unread_eq]
      omega

def labPort : Params where
  depthBits := 1
  wqeBits := 2
  cqeBits := 1
  maxFrame := 4
  buf := 0x1000
  lkey := 7
  depth := by decide
  depthInRq := by decide
  rqBound := by decide
  depthInCq := by decide
  cqBound := by decide
  inSpace := by decide

def labEvents : List Event :=
  [.tryReceive,.take,.take,.dma 0 [1,2,3],.complete 0x20,.complete 0xd0,.tryReceive,.release,.take,.advance,
    .tryReceive,.advance,.tryReceive,.dma 0 [4,5],.complete 0x21,.tryReceive,.take]

theorem returned_in_order_next_lap : ∃ s, run (step labPort) (start labPort) labEvents = some s ∧ s.pc = .held ∧
    s.returned = [(0x1004,[1,2,3]),(0x1004,[4,5])] ∧ s.lastSlot ∉ nicOwned labPort s ∧
    s.rqHead - s.cqCi = BitVec.ofNat 32 labPort.rqDepth := by
  have enabled : (run (step labPort) (start labPort) labEvents).isSome := by decide +kernel
  obtain ⟨final,ran⟩ := Option.isSome_iff_exists.mp enabled
  have shown : (run (step labPort) (start labPort) labEvents).map (fun s => (s.pc,s.returned)) =
      some (.held,[(0x1004,[1,2,3]),(0x1004,[4,5])]) := by decide +kernel
  rw [ran] at shown
  have parts := Prod.mk.inj (Option.some.inj shown)
  obtain ⟨_,_,_,_,apart,kept⟩ := returned_in_order ran
  refine ⟨final,ran,parts.1,parts.2,(kept parts.1).1,(apart ?_).1⟩
  rw [parts.1]
  decide

end Abtrda3.VerbsReceive
