import Abtrda3.I210
import Abtrda3.Semantics.Machine
import Mathlib.Logic.Function.Basic

/-! The receive ring of the I210 driver next to the card. The card fills the descriptor
at its head while head and tail register differ: the frame goes to the address found in
the descriptor, the write-back over the descriptor. Software resets a descriptor as it
releases it and writes the tail register once for a batch of releases. A packet buffer is
known by its physical address; `landings`, `returned` and `released` only remember. -/
namespace Abtrda3.I210Receive
open Abtrda3.I210 Abtrda3.Semantics Abtrda3.Semantics.Machine

abbrev Byte := BitVec 8

structure State where
  ring : Nat → Descriptor
  buffers : BitVec 64 → List Byte
  rxTail : BitVec 64
  rxHeld : BitVec 32
  rdt : BitVec 32
  held : Bool
  rdh : Nat
  landings : List (List Byte)
  returned : List (List Byte)
  released : Nat

inductive Event
  | tryReceive
  | release
  | fill (frame : List Byte) (wb : RxDescriptor.WriteBack)
  deriving DecidableEq, Repr

def slotAddr (p : Params) (slot : Nat) : BitVec 64 := p.rxPhysical (slot * p.buffSize)

def initRing (p : Params) (memory : Nat → Descriptor) : Nat → Descriptor :=
  (List.range p.numRxDesc).foldl
    (fun ring i => Function.update ring i (RxDescriptor.reset (ring i) (slotAddr p i))) memory

def start (p : Params) (memory : Nat → Descriptor) (buffers : BitVec 64 → List Byte) : State :=
  ⟨initRing p memory,buffers,0,0,BitVec.ofNat 32 (p.numRxDesc - 1),false,0,[],[],0⟩

def tryReceive (p : Params) (s : State) : State × Option (List Byte) :=
  let desc := s.ring s.rxTail.toNat
  if RxDescriptor.dd desc = true then
    let frame := (s.buffers (slotAddr p s.rxTail.toNat)).take (RxDescriptor.length desc).toNat
    ({s with held := true, returned := s.returned ++ [frame]},some frame)
  else (s,none)

def release (p : Params) (s : State) : State :=
  let slot := s.rxTail.toNat
  let tail := (s.rxTail + 1) &&& p.rxRingMask
  let s := {s with ring := Function.update s.ring slot (RxDescriptor.reset (s.ring slot) (slotAddr p slot)),
                   rxTail := tail, rxHeld := s.rxHeld + 1, held := false, released := s.released + 1}
  if rxFreeThresh ≤ s.rxHeld then {s with rdt := ((tail - 1) &&& p.rxRingMask).setWidth 32, rxHeld := 0} else s

def fill (p : Params) (s : State) (frame : List Byte) (wb : RxDescriptor.WriteBack) : State :=
  let addr := RxDescriptor.pktAddr (s.ring s.rdh)
  {s with buffers := Function.update s.buffers addr (frame ++ (s.buffers addr).drop frame.length),
          ring := Function.update s.ring s.rdh (RxDescriptor.writeBack (s.ring s.rdh) wb (BitVec.ofNat 16 frame.length)),
          rdh := (s.rdh + 1) % p.numRxDesc, landings := s.landings ++ [frame]}

def step (p : Params) (s : State) : Event → Option State
  | .tryReceive => if s.held = false then some (tryReceive p s).1 else none
  | .release => if s.held = true then some (release p s) else none
  | .fill frame wb =>
    if s.rdh ≠ s.rdt.toNat ∧ frame ≠ [] ∧ frame.length ≤ p.buffSize ∧ wb.statusError &&& rxdStatDd ≠ 0 then
      some (fill p s frame wb)
    else none

variable {p : Params} {s t : State}

theorem numRxDesc_pos (p : Params) : 0 < p.numRxDesc := Nat.two_pow_pos p.rxBits

private theorem numRxDesc_le (p : Params) :
    p.numRxDesc ≤ 2^63 := Nat.pow_le_pow_right (by decide) (Nat.le_of_lt_succ p.rxBound)

theorem slot_toNat (p : Params) (i : Nat) : (BitVec.ofNat 64 (i % p.numRxDesc)).toNat = i % p.numRxDesc := by
  have below := Nat.mod_lt i (numRxDesc_pos p)
  have small := numRxDesc_le p
  rw [WrappingCounter.ofNat_toNat_mod]
  exact Nat.mod_eq_of_lt (by omega)

def flushed (s : State) : Nat := s.released - s.rxHeld.toNat

theorem flushed_le (s : State) : flushed s ≤ s.released := Nat.sub_le _ _

/-- The indices next to the counts they stand for: the tail register follows the releases
that are not held back, one descriptor behind. -/
structure Counts (p : Params) (s : State) : Prop where
  tail : s.rxTail = BitVec.ofNat 64 (s.released % p.numRxDesc)
  head : s.rdh = s.landings.length % p.numRxDesc
  batch : s.rxHeld.toNat < rxFreeThresh.toNat
  early : s.rxHeld.toNat ≤ s.released
  register : s.rdt = BitVec.ofNat 32 ((flushed s + (p.numRxDesc - 1)) % p.numRxDesc)

namespace Counts

theorem start (p : Params) (memory : Nat → Descriptor) (buffers : BitVec 64 → List Byte) :
    Counts p (start p memory buffers) := by
  have pos := numRxDesc_pos p
  refine ⟨(congrArg (BitVec.ofNat 64) (Nat.zero_mod _)).symm,(Nat.zero_mod _).symm,Nat.zero_lt_succ _,Nat.le_refl 0,?_⟩
  change BitVec.ofNat 32 (p.numRxDesc - 1) = BitVec.ofNat 32 ((0 - 0 + (p.numRxDesc - 1)) % p.numRxDesc)
  rw [Nat.sub_zero,Nat.zero_add,Nat.mod_eq_of_lt (by omega)]

theorem tail_toNat (counts : Counts p s) : s.rxTail.toNat = s.released % p.numRxDesc := by
  rw [counts.tail,slot_toNat]

theorem advanced (counts : Counts p s) :
    (s.rxTail + 1) &&& p.rxRingMask = BitVec.ofNat 64 ((s.released + 1) % p.numRxDesc) := by
  rw [counts.tail]
  exact WrappingCounter.masked_succ p.rxBound.le s.released

theorem more (counts : Counts p s) : (s.rxHeld + 1).toNat = s.rxHeld.toNat + 1 := by
  have batch : s.rxHeld.toNat < 32 := counts.batch
  rw [BitVec.toNat_add]
  exact Nat.mod_eq_of_lt (by change s.rxHeld.toNat + 1 < 2^32; omega)

theorem release (counts : Counts p s) : Counts p (release p s) := by
  have batch := counts.batch
  have early := counts.early
  have advanced := counts.advanced
  have more := counts.more
  unfold I210Receive.release
  dsimp only
  split
  next full =>
    refine ⟨advanced,counts.head,Nat.zero_lt_succ _,Nat.zero_le _,?_⟩
    have back := WrappingCounter.masked_pred p.rxBound.le (s.released + 1)
    dsimp only
    rw [advanced]
    change ((BitVec.ofNat 64 ((s.released + 1) % 2^p.rxBits) - 1) &&& (BitVec.ofNat 64 (2^p.rxBits) - 1)).setWidth 32 = _
    rw [back]
    apply BitVec.eq_of_toNat_eq
    rw [BitVec.toNat_setWidth]
    change (BitVec.ofNat 64 ((s.released + 1 + (p.numRxDesc - 1)) % p.numRxDesc)).toNat % 2^32 = _
    rw [slot_toNat,WrappingCounter.ofNat_toNat_mod]
    rfl
  next room =>
    have less : s.rxHeld.toNat + 1 < rxFreeThresh.toNat := by
      rw [BitVec.le_def,more] at room
      exact Nat.lt_of_not_le room
    refine ⟨advanced,counts.head,?_,?_,?_⟩
    · dsimp only
      rw [more]
      exact less
    · dsimp only
      rw [more]
      omega
    · dsimp only [flushed]
      rw [more,Nat.add_sub_add_right]
      exact counts.register

theorem step {event : Event} (counts : Counts p s) (moved : step p s event = some t) : Counts p t := by
  cases event with
  | tryReceive =>
    obtain ⟨_,same⟩ := Option.ite_none_right_eq_some.mp moved
    cases same
    unfold I210Receive.tryReceive
    dsimp only
    split
    · exact ⟨counts.tail,counts.head,counts.batch,counts.early,counts.register⟩
    · exact counts
  | release =>
    obtain ⟨_,same⟩ := Option.ite_none_right_eq_some.mp moved
    cases same
    exact counts.release
  | fill frame wb =>
    obtain ⟨_,same⟩ := Option.ite_none_right_eq_some.mp moved
    cases same
    refine ⟨counts.tail,?_,counts.batch,counts.early,counts.register⟩
    change (s.rdh + 1) % p.numRxDesc = (s.landings ++ [frame]).length % p.numRxDesc
    rw [counts.head,Nat.mod_add_mod,List.length_append]
    rfl

end Counts

theorem counts_of_run {memory : Nat → Descriptor} {buffers : BitVec 64 → List Byte} {events : List Event}
    (ran : run (step p) (start p memory buffers) events = some s) : Counts p s :=
  reachable_invariant (Counts p) (fun _ _ _ counts moved => counts.step moved) (.start p memory buffers) ran

/-- The card has no descriptor to fill, and software none to release. -/
def Wedged (s : State) : Prop := s.rdh = s.rdt.toNat ∧ s.released = s.landings.length

theorem Counts.not_wedged (counts : Counts p s) (large : rxFreeThresh.toNat < p.numRxDesc) : ¬ Wedged s := by
  rintro ⟨stopped,drained⟩
  have batch := counts.batch
  have early := counts.early
  have pos := numRxDesc_pos p
  -- Both the ring size and the width of the register are multiples of this power of two.
  obtain ⟨size,inRing,inRegister,above⟩ :
      ∃ size, size ∣ p.numRxDesc ∧ size ∣ 2^32 ∧ rxFreeThresh.toNat < size := by
    refine ⟨2^min p.rxBits 32,Nat.pow_dvd_pow 2 (Nat.min_le_left _ _),Nat.pow_dvd_pow 2 (Nat.min_le_right _ _),?_⟩
    rcases Nat.le_total p.rxBits 32 with short | long
    · rw [Nat.min_eq_left short]
      exact large
    · rw [Nat.min_eq_right long]
      decide
  have same : (s.landings.length % p.numRxDesc) % size = ((flushed s + (p.numRxDesc - 1)) % p.numRxDesc % 2^32) % size := by
    rw [← counts.head,stopped,counts.register,WrappingCounter.ofNat_toNat_mod]
  rw [Nat.mod_mod_of_dvd _ inRing,Nat.mod_mod_of_dvd _ inRegister,Nat.mod_mod_of_dvd _ inRing,← drained] at same
  have whole : flushed s + (p.numRxDesc - 1) + (s.rxHeld.toNat + 1) = s.released + p.numRxDesc := by
    unfold flushed
    omega
  have lap : s.released + (s.rxHeld.toNat + 1) ≡ s.released + 0 [MOD size] := by
    calc s.released + (s.rxHeld.toNat + 1)
        ≡ flushed s + (p.numRxDesc - 1) + (s.rxHeld.toNat + 1) [MOD size] := Nat.ModEq.add_right _ same
      _ = s.released + p.numRxDesc := whole
      _ ≡ s.released + 0 [MOD size] := ((Nat.modEq_zero_iff_dvd).mpr inRing).add_left _
  have divides : size ∣ s.rxHeld.toNat + 1 := (Nat.modEq_zero_iff_dvd).mp (Nat.ModEq.add_left_cancel' _ lap)
  have := Nat.le_of_dvd (Nat.succ_pos _) divides
  omega

def labWriteBack : RxDescriptor.WriteBack := ⟨0,0,rxdStatDd,0⟩

def labFrame : List Event := [.fill [0] labWriteBack,.tryReceive,.release]

private theorem step_take (free : s.held = false) (filled : RxDescriptor.dd (s.ring s.rxTail.toNat) = true) :
    ∃ t, step p s .tryReceive = some t ∧ t.held = true ∧ t.rxHeld = s.rxHeld ∧ t.released = s.released ∧
      t.landings = s.landings := by
  refine ⟨(tryReceive p s).1,if_pos free,?_⟩
  unfold tryReceive
  rw [if_pos filled]
  exact ⟨rfl,rfl,rfl,rfl⟩

private theorem step_hold_back (held : s.held = true) (room : ¬ rxFreeThresh ≤ s.rxHeld + 1) :
    ∃ t, step p s .release = some t ∧ t.held = false ∧ t.rxHeld = s.rxHeld + 1 ∧ t.released = s.released + 1 ∧
      t.landings = s.landings := by
  refine ⟨release p s,if_pos held,?_⟩
  unfold release
  dsimp only
  rw [if_neg room]
  exact ⟨rfl,rfl,rfl,rfl⟩

/-- Nothing was returned to the card yet, and it still has a descriptor: one more frame
goes through, and its release is held back as well. -/
theorem frame_held_back (counts : Counts p s) (small : p.numRxDesc ≤ rxFreeThresh.toNat) (free : s.held = false)
    (drained : s.released = s.landings.length) (batch : s.rxHeld.toNat = s.released) (room : s.released + 1 < p.numRxDesc) :
    ∃ t, run (step p) s labFrame = some t ∧ t.held = false ∧ t.released = t.landings.length ∧
      t.rxHeld.toNat = t.released ∧ t.released = s.released + 1 := by
  have threshold : rxFreeThresh.toNat = 32 := rfl
  have here : s.rdh = s.released := by
    rw [counts.head,← drained]
    exact Nat.mod_eq_of_lt (by omega)
  have last : s.rdt.toNat = p.numRxDesc - 1 := by
    have none : flushed s = 0 := by
      unfold flushed
      omega
    rw [counts.register,none,Nat.zero_add,Nat.mod_eq_of_lt (by omega : p.numRxDesc - 1 < p.numRxDesc),
      WrappingCounter.ofNat_toNat_mod]
    exact Nat.mod_eq_of_lt (by omega)
  have filled : step p s (.fill [0] labWriteBack) = some (fill p s [0] labWriteBack) := by
    apply if_pos
    refine ⟨by omega,List.cons_ne_nil _ _,?_,by decide⟩
    have sizes := p.sizes
    change 1 ≤ p.buffSize
    omega
  have slot : (fill p s [0] labWriteBack).rxTail.toNat = s.rdh := by
    change s.rxTail.toNat = s.rdh
    rw [counts.tail_toNat,here]
    exact Nat.mod_eq_of_lt (by omega)
  have done : RxDescriptor.dd ((fill p s [0] labWriteBack).ring (fill p s [0] labWriteBack).rxTail.toNat) = true := by
    rw [slot]
    change RxDescriptor.dd (Function.update s.ring s.rdh _ s.rdh) = true
    rw [Function.update_self,RxDescriptor.dd,RxDescriptor.statusError_writeBack]
    rfl
  obtain ⟨taken,received,held,sameBatch,sameCount,sameLog⟩ := step_take (p := p) (s := fill p s [0] labWriteBack) free done
  have more := counts.more
  have below : ¬ rxFreeThresh ≤ taken.rxHeld + 1 := by
    rw [sameBatch]
    change ¬ rxFreeThresh ≤ s.rxHeld + 1
    rw [BitVec.le_def,more]
    omega
  obtain ⟨t,released,freed,batched,counted,logged⟩ := step_hold_back (p := p) held below
  refine ⟨t,run_trans (run_singleton filled) (run_trans (run_singleton received) (run_singleton released)),freed,?_,?_,?_⟩
  · rw [counted,logged,sameCount,sameLog]
    change s.released + 1 = (s.landings ++ [[0]]).length
    rw [List.length_append,drained]
    rfl
  · rw [batched,counted,sameBatch,sameCount]
    exact more.trans (congrArg (· + 1) batch)
  · rw [counted,sameCount]
    rfl

private theorem frames_held_back (p : Params) (memory : Nat → Descriptor) (buffers : BitVec 64 → List Byte)
    (small : p.numRxDesc ≤ rxFreeThresh.toNat) (count : Nat) (room : count < p.numRxDesc) :
    ∃ events s, run (step p) (start p memory buffers) events = some s ∧ s.held = false ∧
      s.released = s.landings.length ∧ s.rxHeld.toNat = s.released ∧ s.released = count := by
  induction count with
  | zero => exact ⟨[],_,rfl,rfl,rfl,rfl,rfl⟩
  | succ count ih =>
    obtain ⟨events,s,ran,free,drained,batch,reached⟩ := ih (by omega)
    obtain ⟨t,went,after⟩ := frame_held_back (counts_of_run ran) small free drained batch (by omega)
    rw [reached] at after
    exact ⟨events ++ labFrame,t,run_trans ran went,after⟩

/-- The card is never left without a descriptor while software has released all it filled,
exactly if the ring is larger than a batch of releases. -/
theorem never_wedged_iff_ring_exceeds_batch (p : Params) (memory : Nat → Descriptor) (buffers : BitVec 64 → List Byte) :
    (∀ events s, run (step p) (start p memory buffers) events = some s → ¬ Wedged s) ↔
      rxFreeThresh.toNat < p.numRxDesc := by
  constructor
  · intro safe
    by_contra small
    have small := Nat.le_of_not_lt small
    have pos := numRxDesc_pos p
    obtain ⟨events,s,ran,_,drained,batch,reached⟩ := frames_held_back p memory buffers small (p.numRxDesc - 1) (by omega)
    have counts := counts_of_run ran
    have threshold : rxFreeThresh.toNat = 32 := rfl
    apply safe events s ran
    refine ⟨?_,drained⟩
    have none : flushed s = 0 := by
      unfold flushed
      omega
    rw [counts.head,← drained,reached,counts.register,none,Nat.zero_add,WrappingCounter.ofNat_toNat_mod]
    have last : (p.numRxDesc - 1) % p.numRxDesc = p.numRxDesc - 1 := Nat.mod_eq_of_lt (by omega)
    rw [last,Nat.mod_eq_of_lt (by omega)]
  · intro large events s ran
    exact (counts_of_run ran).not_wedged large

/-- With eight descriptors, seven frames taken and released leave a state that no step
changes: the card has nothing to fill, and the batch never fills up. -/
theorem smallest_ring_wedges :
    ∃ s, run (step labCard) (start labCard (fun _ => 0) fun _ => []) (List.replicate 7 labFrame).flatten = some s ∧
      Wedged s ∧ s.released = 7 ∧ s.rxHeld = 7 ∧ ∀ event t, step labCard s event = some t → t = s := by
  have shown : (run (step labCard) (start labCard (fun _ => 0) fun _ => []) (List.replicate 7 labFrame).flatten).map
      (fun s => ((s.rdh,s.rdt.toNat,s.released,s.landings.length),s.rxHeld,s.held,
        RxDescriptor.dd (s.ring s.rxTail.toNat))) = some ((7,7,7,7),7,false,false) := by decide +kernel
  obtain ⟨s,ran,parts⟩ := Option.map_eq_some_iff.mp shown
  simp only [Prod.mk.injEq] at parts
  obtain ⟨⟨head,register,released,landed⟩,batch,free,empty⟩ := parts
  refine ⟨s,ran,⟨head.trans register.symm,released.trans landed.symm⟩,released,batch,?_⟩
  intro event t moved
  cases event with
  | tryReceive =>
    obtain ⟨_,same⟩ := Option.ite_none_right_eq_some.mp moved
    cases same
    unfold tryReceive
    rw [if_neg (by rw [empty]; decide)]
  | release =>
    obtain ⟨held,_⟩ := Option.ite_none_right_eq_some.mp moved
    rw [free] at held
    cases held
  | fill frame wb =>
    obtain ⟨⟨apart,_⟩,_⟩ := Option.ite_none_right_eq_some.mp moved
    exact absurd (head.trans register.symm) apart

private theorem initRing_apply (p : Params) (memory : Nat → Descriptor) {slot : Nat} (inside : slot < p.numRxDesc) :
    initRing p memory slot = RxDescriptor.reset (memory slot) (slotAddr p slot) :=
  (WrappingCounter.foldl_update_range (fun i desc => RxDescriptor.reset desc (slotAddr p i)) memory _ slot).trans
    (if_pos inside)

/-- Between the last release and the head lie the frames that landed, each in its buffer
and under its own write-back; every other descriptor is in read format. -/
structure Contents (p : Params) (s : State) : Prop where
  counts : Counts p s
  order : s.returned.length ≤ s.landings.length
  taken : s.returned.length = s.released + s.held.toNat
  owned : s.landings.length ≤ flushed s + (p.numRxDesc - 1)
  inOrder : s.returned <+: s.landings
  empty : ∀ i, s.landings.length ≤ i → i < s.released + p.numRxDesc →
    RxDescriptor.dd (s.ring (i % p.numRxDesc)) = false ∧
    RxDescriptor.pktAddr (s.ring (i % p.numRxDesc)) = slotAddr p (i % p.numRxDesc)
  filled : ∀ i frame, s.released ≤ i → s.landings[i]? = some frame →
    RxDescriptor.dd (s.ring (i % p.numRxDesc)) = true ∧
    (s.buffers (slotAddr p (i % p.numRxDesc))).take (RxDescriptor.length (s.ring (i % p.numRxDesc))).toNat = frame

namespace Contents

theorem start (p : Params) (memory : Nat → Descriptor) (buffers : BitVec 64 → List Byte) :
    Contents p (start p memory buffers) := by
  refine ⟨.start p memory buffers,Nat.le_refl 0,rfl,Nat.zero_le _,List.prefix_rfl,?_,?_⟩
  · intro i _ _
    change RxDescriptor.dd (initRing p memory _) = false ∧ RxDescriptor.pktAddr (initRing p memory _) = _
    rw [initRing_apply p memory (Nat.mod_lt i (numRxDesc_pos p))]
    exact ⟨RxDescriptor.dd_reset _ _,RxDescriptor.pktAddr_reset _ _⟩
  · intro i frame _ landed
    cases landed

private theorem slotAddr_ne (p : Params) {i j : Nat} (apart : i % p.numRxDesc ≠ j % p.numRxDesc) :
    slotAddr p (i % p.numRxDesc) ≠ slotAddr p (j % p.numRxDesc) := by
  intro same
  exact apart (p.rxApart _ _ (Nat.mod_lt i (numRxDesc_pos p)) (Nat.mod_lt j (numRxDesc_pos p)) same)

private theorem register_toNat (contents : Contents p s) (fits : p.rxBits ≤ 32) :
    s.rdt.toNat = (flushed s + (p.numRxDesc - 1)) % p.numRxDesc := by
  have narrow : p.numRxDesc ≤ 2^32 := Nat.pow_le_pow_right (by decide) fits
  have below := Nat.mod_lt (flushed s + (p.numRxDesc - 1)) (numRxDesc_pos p)
  rw [contents.counts.register,WrappingCounter.ofNat_toNat_mod]
  exact Nat.mod_eq_of_lt (by omega)

theorem fill {frame : List Byte} {wb : RxDescriptor.WriteBack} (contents : Contents p s) (fits : p.rxBits ≤ 32)
    (apart : s.rdh ≠ s.rdt.toNat) (size : frame.length ≤ p.buffSize) (set : wb.statusError &&& rxdStatDd ≠ 0) :
    Contents p (fill p s frame wb) := by
  have pos := numRxDesc_pos p
  have order := contents.order
  have taken := contents.taken
  have owned := contents.owned
  have flushedLe := flushed_le s
  have head := contents.counts.head
  have free : s.landings.length < flushed s + (p.numRxDesc - 1) := by
    apply Nat.lt_of_le_of_ne owned
    intro reached
    rw [head,reached,contents.register_toNat fits] at apart
    exact apart rfl
  obtain ⟨_,addr⟩ := contents.empty s.landings.length (Nat.le_refl _) (by omega)
  rw [← head] at addr
  have length : (s.landings ++ [frame]).length = s.landings.length + 1 := List.length_append
  -- No other position of the ring, and no other buffer, is the one at the head.
  have other {i : Nat} (low : s.released ≤ i) (high : i < s.released + p.numRxDesc) (here : i ≠ s.landings.length) :
      i % p.numRxDesc ≠ s.landings.length % p.numRxDesc := by
    intro same
    exact here (WrappingCounter.mod_inj_of_window low (by omega) high (by omega) same)
  refine ⟨?_,?_,taken,?_,contents.inOrder.trans (List.prefix_append _ _),?_,?_⟩
  · refine ⟨contents.counts.tail,?_,contents.counts.batch,contents.counts.early,contents.counts.register⟩
    change (s.rdh + 1) % p.numRxDesc = (s.landings ++ [frame]).length % p.numRxDesc
    rw [head,Nat.mod_add_mod,length]
  · change s.returned.length ≤ (s.landings ++ [frame]).length
    omega
  · change (s.landings ++ [frame]).length ≤ flushed s + (p.numRxDesc - 1)
    omega
  · intro i low high
    change (s.landings ++ [frame]).length ≤ i at low
    change i < s.released + p.numRxDesc at high
    change RxDescriptor.dd (Function.update s.ring s.rdh _ _) = false ∧
        RxDescriptor.pktAddr (Function.update s.ring s.rdh _ _) = _
    rw [head,Function.update_of_ne (other (by omega) high (by omega))]
    exact contents.empty i (by omega) high
  · intro i landed low found
    change s.released ≤ i at low
    change RxDescriptor.dd (Function.update s.ring s.rdh _ _) = true ∧
      (Function.update s.buffers (RxDescriptor.pktAddr (s.ring s.rdh)) _ _).take
        (RxDescriptor.length (Function.update s.ring s.rdh _ _)).toNat = landed
    rw [addr]
    rcases log_snoc_cases found with old | ⟨here,same⟩
    · have inside := (List.getElem?_eq_some_iff.mp old).1
      have apart := other low (by omega) (by omega)
      rw [head,Function.update_of_ne apart,Function.update_of_ne (slotAddr_ne p apart)]
      exact contents.filled i landed low old
    · subst here same
      have small : frame.length < 2^16 := by
        have := p.sizes
        omega
      rw [head,Function.update_self,Function.update_self,RxDescriptor.dd,RxDescriptor.statusError_writeBack,
        RxDescriptor.length_writeBack,WrappingCounter.ofNat_toNat_mod,Nat.mod_eq_of_lt small]
      exact ⟨decide_eq_true set,List.take_left⟩

theorem take (contents : Contents p s) (free : s.held = false) :
    Contents p (tryReceive p s).1 ∧ (tryReceive p s).2 = s.landings[s.returned.length]? := by
  have taken := contents.taken
  have order := contents.order
  have owned := contents.owned
  have pos := numRxDesc_pos p
  have flushedLe := flushed_le s
  rw [free] at taken
  have taken : s.returned.length = s.released := taken
  unfold tryReceive
  rw [contents.counts.tail_toNat]
  rcases Nat.lt_or_ge s.released s.landings.length with waiting | drained
  · have found := List.getElem?_eq_getElem waiting
    obtain ⟨done,frame⟩ := contents.filled s.released _ (Nat.le_refl _) found
    rw [if_pos done]
    dsimp only
    rw [frame,taken,found]
    refine ⟨⟨⟨contents.counts.tail,contents.counts.head,contents.counts.batch,contents.counts.early,
        contents.counts.register⟩,
      ?_,?_,owned,?_,contents.empty,contents.filled⟩,rfl⟩
    · dsimp only
      rw [List.length_append,taken]
      exact waiting
    · dsimp only
      rw [List.length_append,taken]
      rfl
    · dsimp only
      have before := List.prefix_iff_eq_take.mp contents.inOrder
      rw [taken] at before
      rw [before,List.take_concat_get' _ _ waiting]
      exact List.take_prefix _ _
  · have clear := (contents.empty s.released drained (by omega)).1
    rw [if_neg (by rw [clear]; decide),taken,List.getElem?_eq_none drained]
    exact ⟨contents,rfl⟩

theorem release (contents : Contents p s) (held : s.held = true) : Contents p (release p s) := by
  have pos := numRxDesc_pos p
  have order := contents.order
  have taken := contents.taken
  have owned := contents.owned
  have counts := contents.counts.release
  have tail := contents.counts.tail_toNat
  have flushedLe := flushed_le s
  rw [held] at taken
  have taken : s.returned.length = s.released + 1 := taken
  have ahead : flushed s ≤ flushed (I210Receive.release p s) := by
    unfold I210Receive.release
    dsimp only
    split
    · exact Nat.le_trans flushedLe (Nat.le_succ _)
    · dsimp only [flushed]
      rw [contents.counts.more]
      omega
  -- Whether or not the tail register is written, the rest of the state is the same.
  obtain ⟨rdt,rxHeld,same⟩ : ∃ rdt rxHeld, I210Receive.release p s =
      {s with ring := Function.update s.ring s.rxTail.toNat (RxDescriptor.reset (s.ring s.rxTail.toNat)
        (slotAddr p s.rxTail.toNat)),
              rxTail := (s.rxTail + 1) &&& p.rxRingMask, rxHeld := rxHeld, rdt := rdt, held := false,
              released := s.released + 1} := by
    unfold I210Receive.release
    dsimp only
    split
    · exact ⟨_,_,rfl⟩
    · exact ⟨_,_,rfl⟩
  rw [same] at counts ahead ⊢
  have other {i : Nat} (low : s.released < i) (high : i < s.released + p.numRxDesc) :
      i % p.numRxDesc ≠ s.rxTail.toNat := by
    rw [tail]
    exact (WrappingCounter.mod_ne_of_window low high).symm
  refine ⟨counts,order,taken,Nat.le_trans owned (Nat.add_le_add_right ahead _),contents.inOrder,?_,?_⟩
  · intro i low high
    dsimp only at low high ⊢
    by_cases last : i = s.released + p.numRxDesc
    · have here : i % p.numRxDesc = s.rxTail.toNat := by rw [last,tail,Nat.add_mod_right]
      rw [here,Function.update_self]
      exact ⟨RxDescriptor.dd_reset _ _,RxDescriptor.pktAddr_reset _ _⟩
    · rw [Function.update_of_ne (other (by omega) (by omega))]
      exact contents.empty i low (by omega)
  · intro i frame low found
    dsimp only at low found ⊢
    have inside := (List.getElem?_eq_some_iff.mp found).1
    rw [Function.update_of_ne (other (by omega) (by omega))]
    exact contents.filled i frame (by omega) found

theorem step {event : Event} (contents : Contents p s) (fits : p.rxBits ≤ 32) (moved : step p s event = some t) :
    Contents p t := by
  cases event with
  | tryReceive =>
    obtain ⟨free,same⟩ := Option.ite_none_right_eq_some.mp moved
    cases same
    exact (contents.take free).1
  | release =>
    obtain ⟨held,same⟩ := Option.ite_none_right_eq_some.mp moved
    cases same
    exact contents.release held
  | fill frame wb =>
    obtain ⟨⟨apart,_,size,set⟩,same⟩ := Option.ite_none_right_eq_some.mp moved
    cases same
    exact contents.fill fits apart size set

end Contents

def Owned (p : Params) (s : State) (slot : Nat) : Prop :=
  (slot + p.numRxDesc - s.rdh) % p.numRxDesc < (s.rdt.toNat + p.numRxDesc - s.rdh) % p.numRxDesc

theorem Contents.not_owned (contents : Contents p s) (fits : p.rxBits ≤ 32) {i : Nat} (low : s.released ≤ i)
    (high : i < s.landings.length) : ¬ Owned p s (i % p.numRxDesc) := by
  have pos := numRxDesc_pos p
  have owned := contents.owned
  have flushedLe := flushed_le s
  have slot : (i % p.numRxDesc + p.numRxDesc - s.rdh) % p.numRxDesc = i + p.numRxDesc - s.landings.length := by
    have gap := WrappingCounter.gap_mod pos (by omega : s.landings.length ≤ i + p.numRxDesc)
    rw [Nat.add_mod_right,Nat.mod_eq_of_lt (by omega : i + p.numRxDesc - s.landings.length < p.numRxDesc)] at gap
    rw [contents.counts.head]
    exact gap
  have limit : (s.rdt.toNat + p.numRxDesc - s.rdh) % p.numRxDesc = flushed s + (p.numRxDesc - 1) - s.landings.length := by
    rw [contents.register_toNat fits,contents.counts.head,WrappingCounter.gap_mod pos owned]
    exact Nat.mod_eq_of_lt (by omega)
  rw [Owned,slot,limit]
  omega

/-- In every run the frames are returned in the order they landed, each once: `tryReceive`
returns the next one, or nothing if there is none. The card never owns a descriptor whose
frame is not released, however many releases are held back. -/
theorem rx_frames_in_order_and_owned (fits : p.rxBits ≤ 32) {memory : Nat → Descriptor} {buffers : BitVec 64 → List Byte}
    {events : List Event} (ran : run (step p) (start p memory buffers) events = some s) :
    s.returned <+: s.landings ∧
    (s.held = false → s.returned.length = s.released ∧ (tryReceive p s).2 = s.landings[s.returned.length]?) ∧
    ∀ i, s.released ≤ i → i < s.landings.length → ¬ Owned p s (i % p.numRxDesc) := by
  have contents : Contents p s :=
    reachable_invariant (Contents p) (fun _ _ _ contents moved => contents.step fits moved) (.start p memory buffers) ran
  refine ⟨contents.inOrder,?_,fun i low high => contents.not_owned fits low high⟩
  intro free
  have taken := contents.taken
  rw [free] at taken
  exact ⟨taken,(contents.take free).2⟩

def labTwo : List Event :=
  [.fill [1,2] labWriteBack,.fill [3] labWriteBack,.tryReceive,.release,.tryReceive]

theorem rx_frames_in_order_and_owned_two :
    ∃ s, run (step labCard) (start labCard (fun _ => BitVec.allOnes 128) fun _ => []) labTwo = some s ∧
      s.returned = [[1,2],[3]] ∧ s.released = 1 ∧ s.rxHeld = 1 ∧ s.returned <+: s.landings ∧ ¬ Owned labCard s 1 := by
  have shown : (run (step labCard) (start labCard (fun _ => BitVec.allOnes 128) fun _ => []) labTwo).map
      (fun s => (s.returned,s.released,s.rxHeld,s.landings.length)) = some ([[1,2],[3]],1,1,2) := by decide +kernel
  obtain ⟨s,ran,parts⟩ := Option.map_eq_some_iff.mp shown
  simp only [Prod.mk.injEq] at parts
  obtain ⟨returned,released,batch,landed⟩ := parts
  obtain ⟨inOrder,_,owned⟩ := rx_frames_in_order_and_owned (by decide) ran
  exact ⟨s,ran,returned,released,batch,inOrder,owned 1 released.le (by omega)⟩

end Abtrda3.I210Receive
