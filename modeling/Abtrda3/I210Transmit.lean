import Abtrda3.I210
import Abtrda3.Semantics.Machine
import Mathlib.Logic.Function.Basic

/-! The transmit ring of the I210 driver next to the card. The card sends the descriptor
at its head while head and tail register differ, and writes DD back in order, on any
committed descriptor. The counts `committed`, `transmitted` and `written` only remember;
neither side reads them. -/
namespace Abtrda3.I210Transmit
open Abtrda3.I210 Abtrda3.Semantics Abtrda3.Semantics.Machine

structure State where
  ring : Nat → Descriptor
  txTail : BitVec 64
  txCleanHead : BitVec 64
  txInFlight : BitVec 64
  tdt : BitVec 32
  acquired : Bool
  tdh : Nat
  committed : Nat
  transmitted : Nat
  written : Nat

inductive Event
  | acquire (frameLen : BitVec 32)
  | commit
  | txReclaim
  | transmit
  | writeBack (desc : Descriptor)
  deriving DecidableEq, Repr

/-- No descriptor is written by `initTx`, so the ring starts with whatever its memory holds. -/
def start (memory : Nat → Descriptor) : State := ⟨memory,0,0,0,0,false,0,0,0,0⟩

def retire (p : Params) (s : State) : State :=
  {s with ring := Function.update s.ring s.txCleanHead.toNat (TxDescriptor.setStatus (s.ring s.txCleanHead.toNat) 0),
          txCleanHead := (s.txCleanHead + 1) &&& p.txRingMask,
          txInFlight := s.txInFlight - 1}

def reclaimLoop (p : Params) : Nat → State → State
  | 0, s => s
  | fuel + 1, s =>
    if 0 < s.txInFlight ∧ TxDescriptor.dd (s.ring s.txCleanHead.toNat) = true then reclaimLoop p fuel (retire p s)
    else s

def txReclaim (p : Params) (s : State) : State := reclaimLoop p s.txInFlight.toNat s

def full (p : Params) (s : State) : Bool := decide (BitVec.ofNat 64 p.numTxDesc ≤ s.txInFlight)

def describe (p : Params) (s : State) (frameLen : BitVec 32) : Descriptor :=
  let desc := TxDescriptor.setBufferAddr (s.ring s.txTail.toNat) (p.txPhysical (s.txTail.toNat * p.buffSize))
  let desc := TxDescriptor.setCmdTypeLen desc
    (txdCmdEop ||| txdCmdIfcs ||| txdCmdRs ||| txdCmdDext ||| txdDtypData ||| frameLen)
  TxDescriptor.setOlinfoStatus desc (frameLen <<< txdPaylenShift)

def prepare (p : Params) (s : State) (frameLen : BitVec 32) : State :=
  {s with ring := Function.update s.ring s.txTail.toNat (describe p s frameLen), acquired := true}

def acquire (p : Params) (s : State) (frameLen : BitVec 32) : State × Option Nat :=
  let s := if full p s then txReclaim p s else s
  if full p s then (s,none) else (prepare p s frameLen,some s.txTail.toNat)

def commit (p : Params) (s : State) : State :=
  let tail := (s.txTail + 1) &&& p.txRingMask
  {s with txTail := tail, txInFlight := s.txInFlight + 1, tdt := tail.setWidth 32, acquired := false,
          committed := s.committed + 1}

def step (p : Params) (s : State) : Event → Option State
  | .acquire frameLen => some (acquire p s frameLen).1
  | .commit => if s.acquired = true then some (commit p s) else none
  | .txReclaim => some (txReclaim p s)
  | .transmit =>
    if s.tdh ≠ s.tdt.toNat then some {s with tdh := (s.tdh + 1) % p.numTxDesc, transmitted := s.transmitted + 1}
    else none
  | .writeBack desc =>
    if s.written < s.committed ∧ TxDescriptor.dd desc = true then
      some {s with ring := Function.update s.ring (s.written % p.numTxDesc) desc, written := s.written + 1}
    else none

variable {p : Params} {s t : State} {cleaned : Nat}

theorem numTxDesc_pos (p : Params) : 0 < p.numTxDesc := Nat.two_pow_pos p.txBits

theorem numTxDesc_le (p : Params) : p.numTxDesc ≤ 2^63 := Nat.pow_le_pow_right (by decide) (Nat.le_of_lt_succ p.txBound)

theorem slot_toNat (p : Params) (i : Nat) : (BitVec.ofNat 64 (i % p.numTxDesc)).toNat = i % p.numTxDesc := by
  have below := Nat.mod_lt i (numTxDesc_pos p)
  have small := numTxDesc_le p
  rw [WrappingCounter.ofNat_toNat_mod]
  exact Nat.mod_eq_of_lt (by omega)

/-- What is committed and not completed is as it was, and so is all the card sees. -/
structure Untouched (p : Params) (s t : State) : Prop where
  committed : t.committed = s.committed
  written : t.written = s.written
  registers : t.tdt = s.tdt ∧ t.tdh = s.tdh ∧ t.transmitted = s.transmitted
  kept : ∀ i, s.written ≤ i → i < s.committed → t.ring (i % p.numTxDesc) = s.ring (i % p.numTxDesc)

theorem Untouched.refl (p : Params) (s : State) : Untouched p s s := ⟨rfl,rfl,⟨rfl,rfl,rfl⟩,fun _ _ _ => rfl⟩

/-- The window of committed descriptors from number `cleaned` on: DD is set on those the
card has completed, and only on those. -/
structure Window (p : Params) (s : State) (cleaned : Nat) : Prop where
  tail : s.txTail = BitVec.ofNat 64 (s.committed % p.numTxDesc)
  head : s.txCleanHead = BitVec.ofNat 64 (cleaned % p.numTxDesc)
  inFlight : s.txInFlight = BitVec.ofNat 64 (s.committed - cleaned)
  room : s.committed ≤ cleaned + p.numTxDesc
  order : cleaned ≤ s.written
  bound : s.written ≤ s.committed
  done : ∀ i, cleaned ≤ i → i < s.committed → (TxDescriptor.dd (s.ring (i % p.numTxDesc)) = true ↔ i < s.written)
  fresh : s.acquired = true → s.committed < cleaned + p.numTxDesc ∧
    TxDescriptor.dd (s.ring (s.committed % p.numTxDesc)) = false

namespace Window

theorem start (p : Params) (memory : Nat → Descriptor) : Window p (start memory) 0 := by
  refine ⟨?_,?_,rfl,Nat.zero_le _,Nat.le_refl 0,Nat.le_refl 0,?_,?_⟩
  · exact (congrArg (BitVec.ofNat 64) (Nat.zero_mod _)).symm
  · exact (congrArg (BitVec.ofNat 64) (Nat.zero_mod _)).symm
  · intro i _ inside
    cases inside
  · intro free
    cases free

theorem head_toNat (window : Window p s cleaned) : s.txCleanHead.toNat = cleaned % p.numTxDesc := by
  rw [window.head,slot_toNat]

theorem tail_toNat (window : Window p s cleaned) : s.txTail.toNat = s.committed % p.numTxDesc := by
  rw [window.tail,slot_toNat]

theorem inFlight_toNat (window : Window p s cleaned) : s.txInFlight.toNat = s.committed - cleaned := by
  have room := window.room
  have small := numTxDesc_le p
  rw [window.inFlight,WrappingCounter.ofNat_toNat_mod]
  exact Nat.mod_eq_of_lt (by omega)

private theorem full_iff (window : Window p s cleaned) : full p s = true ↔ s.committed = cleaned + p.numTxDesc := by
  have small := numTxDesc_le p
  have room := window.room
  have some := numTxDesc_pos p
  rw [full,decide_eq_true_iff,BitVec.le_def,window.inFlight_toNat,WrappingCounter.ofNat_toNat_mod,
    Nat.mod_eq_of_lt (by omega)]
  omega

theorem retire (window : Window p s cleaned) (completed : cleaned < s.written) :
    Window p (retire p s) (cleaned + 1) := by
  have bound := window.bound
  have room := window.room
  have apart {i : Nat} (low : cleaned < i) (high : i < cleaned + p.numTxDesc) :
      (I210Transmit.retire p s).ring (i % p.numTxDesc) = s.ring (i % p.numTxDesc) := by
    change Function.update s.ring s.txCleanHead.toNat _ _ = _
    rw [window.head_toNat]
    exact Function.update_of_ne (WrappingCounter.mod_ne_of_window low high).symm _ _
  refine ⟨window.tail,?_,?_,?_,completed,bound,?_,?_⟩
  · change (s.txCleanHead + 1) &&& p.txRingMask = _
    rw [window.head]
    exact WrappingCounter.masked_succ p.txBound.le cleaned
  · change s.txInFlight - 1 = BitVec.ofNat 64 (s.committed - (cleaned + 1))
    have some : 1 ≤ s.committed - cleaned := by omega
    rw [window.inFlight,Nat.sub_add_eq]
    exact WrappingCounter.sub_ofNat 64 some
  · change s.committed ≤ _
    omega
  · intro i low high
    change i < s.committed at high
    rw [apart (by omega) (by omega)]
    exact window.done i (by omega) high
  · intro acquired
    change s.committed < cleaned + 1 + _ ∧ TxDescriptor.dd ((I210Transmit.retire p s).ring (s.committed % _)) = false
    obtain ⟨free,clear⟩ := window.fresh acquired
    rw [apart (by omega) free]
    exact ⟨by omega,clear⟩

/-- Reclaiming goes through the completed descriptors one by one and stops at the first
that is not. -/
theorem reclaimLoop (fuel : Nat) (window : Window p s cleaned) (enough : s.written - cleaned ≤ fuel) :
    Window p (reclaimLoop p fuel s) s.written ∧ Untouched p s (I210Transmit.reclaimLoop p fuel s) := by
  have order := window.order
  have bound := window.bound
  have room := window.room
  induction fuel generalizing s cleaned with
  | zero =>
    have last : cleaned = s.written := by omega
    subst last
    exact ⟨window,.refl p s⟩
  | succ fuel ih =>
    have ready : (0 < s.txInFlight ∧ TxDescriptor.dd (s.ring s.txCleanHead.toNat) = true) ↔ cleaned < s.written := by
      rw [BitVec.lt_def,window.inFlight_toNat,window.head_toNat]
      constructor
      · rintro ⟨some,done⟩
        have some : 0 < s.committed - cleaned := some
        exact (window.done cleaned (Nat.le_refl _) (by omega)).mp done
      · intro completed
        have some : 0 < s.committed - cleaned := by omega
        exact ⟨some,(window.done cleaned (Nat.le_refl _) (by omega)).mpr completed⟩
    unfold I210Transmit.reclaimLoop
    split
    next more =>
      have completed := ready.mp more
      obtain ⟨after,committed,written,registers,kept⟩ :=
        ih (window.retire completed) (by change s.written - (cleaned + 1) ≤ fuel; omega) completed bound
          (by change s.committed ≤ _; omega)
      refine ⟨after,committed,written,registers,?_⟩
      intro i low high
      rw [kept i low high]
      change Function.update s.ring s.txCleanHead.toNat _ _ = _
      rw [window.head_toNat]
      exact Function.update_of_ne (WrappingCounter.mod_ne_of_window (by omega) (by omega)).symm _ _
    next stops =>
      have last : cleaned = s.written := by
        have := mt ready.mpr stops
        omega
      subst last
      exact ⟨window,.refl p s⟩

theorem txReclaim (window : Window p s cleaned) :
    Window p (txReclaim p s) s.written ∧ Untouched p s (I210Transmit.txReclaim p s) := by
  have bound := window.bound
  apply window.reclaimLoop
  rw [window.inFlight_toNat]
  omega

theorem prepare (window : Window p s cleaned) (free : s.committed < cleaned + p.numTxDesc) (frameLen : BitVec 32) :
    Window p (prepare p s frameLen) cleaned := by
  refine ⟨window.tail,window.head,window.inFlight,window.room,window.order,window.bound,?_,?_⟩
  · intro i low high
    have high : i < s.committed := high
    change TxDescriptor.dd (Function.update s.ring s.txTail.toNat _ _) = true ↔ _
    rw [window.tail_toNat,Function.update_of_ne (WrappingCounter.mod_ne_of_window high (by omega))]
    exact window.done i low high
  · intro _
    change _ ∧ TxDescriptor.dd (Function.update s.ring s.txTail.toNat _ (s.committed % _)) = false
    rw [window.tail_toNat,Function.update_self]
    exact ⟨free,TxDescriptor.dd_setOlinfoStatus _ frameLen⟩

theorem commit (window : Window p s cleaned) (acquired : s.acquired = true) : Window p (commit p s) cleaned := by
  obtain ⟨free,clear⟩ := window.fresh acquired
  have order := window.order
  have bound := window.bound
  refine ⟨?_,window.head,?_,free,order,Nat.le_succ_of_le bound,?_,?_⟩
  · change (s.txTail + 1) &&& p.txRingMask = _
    rw [window.tail]
    exact WrappingCounter.masked_succ p.txBound.le s.committed
  · change s.txInFlight + 1 = BitVec.ofNat 64 (s.committed + 1 - cleaned)
    rw [window.inFlight,WrappingCounter.ofNat_succ,Nat.sub_add_comm (by omega)]
  · intro i low high
    change TxDescriptor.dd (s.ring _) = true ↔ i < s.written
    rcases Nat.lt_succ_iff_lt_or_eq.mp high with before | rfl
    · exact window.done i low before
    · rw [clear]
      exact ⟨fun set => (nomatch set),fun less => absurd bound (by omega)⟩
  · intro free
    cases free

theorem writeBack (window : Window p s cleaned) {desc : Descriptor} (pending : s.written < s.committed)
    (set : TxDescriptor.dd desc = true) :
    Window p {s with ring := Function.update s.ring (s.written % p.numTxDesc) desc, written := s.written + 1} cleaned := by
  have order := window.order
  have room := window.room
  have apart {i : Nat} (low : cleaned ≤ i) (high : i < cleaned + p.numTxDesc) (other : i ≠ s.written) :
      Function.update s.ring (s.written % p.numTxDesc) desc (i % p.numTxDesc) = s.ring (i % p.numTxDesc) := by
    apply Function.update_of_ne
    intro same
    exact other (WrappingCounter.mod_inj_of_window low order high (by omega) same)
  refine ⟨window.tail,window.head,window.inFlight,room,Nat.le_succ_of_le order,pending,?_,?_⟩
  · intro i low high
    dsimp only
    have high : i < s.committed := high
    by_cases here : i = s.written
    · rw [here,Function.update_self]
      exact ⟨fun _ => Nat.lt_succ_self _,fun _ => set⟩
    · rw [apart low (by omega) here,window.done i low high]
      omega
  · intro acquired
    obtain ⟨free,clear⟩ := window.fresh acquired
    refine ⟨free,?_⟩
    dsimp only
    rw [apart (by omega) free (by omega)]
    exact clear

theorem look (window : Window p s cleaned) :
    ∃ after first, (if full p s = true then I210Transmit.txReclaim p s else s) = after ∧ Window p after first ∧
      Untouched p s after ∧ (full p after = true → first = s.written) := by
  by_cases crowded : full p s = true
  · rw [if_pos crowded]
    exact ⟨_,_,rfl,window.txReclaim.1,window.txReclaim.2,fun _ => rfl⟩
  · rw [if_neg crowded]
    exact ⟨_,_,rfl,window,.refl p s,fun later => absurd later crowded⟩

/-- An `acquire` leaves every descriptor not completed as it was, hands out none of their
slots, and refuses only with the whole ring not completed. -/
theorem acquire (window : Window p s cleaned) (frameLen : BitVec 32) :
    (∃ later, Window p (acquire p s frameLen).1 later) ∧ Untouched p s (I210Transmit.acquire p s frameLen).1 ∧
      (∀ i, s.written ≤ i → i < s.committed → (I210Transmit.acquire p s frameLen).2 ≠ some (i % p.numTxDesc)) ∧
      ((I210Transmit.acquire p s frameLen).2 = none → s.committed = s.written + p.numTxDesc) := by
  obtain ⟨after,first,seen,room,untouched,last⟩ := window.look
  have committed := untouched.committed
  have written := untouched.written
  unfold I210Transmit.acquire
  dsimp only
  rw [seen]
  by_cases crowded : full p after = true
  · rw [if_pos crowded]
    refine ⟨⟨first,room⟩,untouched,fun _ _ _ here => (nomatch here),fun _ => ?_⟩
    have count := room.full_iff.mp crowded
    rw [last crowded] at count
    exact committed.symm.trans count
  · have free : after.committed < first + p.numTxDesc := by
      have most := room.room
      have less := mt room.full_iff.mpr crowded
      omega
    have order := room.order
    have other {i : Nat} (low : s.written ≤ i) (high : i < s.committed) : i % p.numTxDesc ≠ after.txTail.toNat := by
      rw [room.tail_toNat]
      exact WrappingCounter.mod_ne_of_window (by omega) (by omega)
    rw [if_neg crowded]
    refine ⟨⟨first,room.prepare free frameLen⟩,⟨committed,written,untouched.registers,?_⟩,?_,fun null => nomatch null⟩
    · intro i low high
      change Function.update after.ring after.txTail.toNat _ _ = _
      rw [Function.update_of_ne (other low high)]
      exact untouched.kept i low high
    · intro i low high here
      exact other low high (Option.some.inj here).symm

theorem step {event : Event} (window : Window p s cleaned) (moved : step p s event = some t) :
    ∃ later, Window p t later := by
  cases event with
  | acquire frameLen =>
    cases Option.some.inj moved
    exact (window.acquire frameLen).1
  | commit =>
    obtain ⟨acquired,same⟩ := Option.ite_none_right_eq_some.mp moved
    cases same
    exact ⟨cleaned,window.commit acquired⟩
  | txReclaim =>
    cases Option.some.inj moved
    exact ⟨_,window.txReclaim.1⟩
  | transmit =>
    obtain ⟨_,same⟩ := Option.ite_none_right_eq_some.mp moved
    cases same
    exact ⟨cleaned,window.tail,window.head,window.inFlight,window.room,window.order,window.bound,window.done,window.fresh⟩
  | writeBack desc =>
    obtain ⟨⟨pending,set⟩,same⟩ := Option.ite_none_right_eq_some.mp moved
    cases same
    exact ⟨cleaned,window.writeBack pending set⟩

end Window

theorem window_of_run {memory : Nat → Descriptor} {events : List Event}
    (ran : run (step p) (start memory) events = some s) : ∃ cleaned, Window p s cleaned := by
  apply reachable_invariant (fun s => ∃ cleaned, Window p s cleaned) _ ⟨0,.start p memory⟩ ran
  rintro s event t ⟨_,window⟩ moved
  exact window.step moved

/-- In every run the count in flight fills the gap between the two indices, DD stands on
exactly the completed descriptors of the window, reclaiming retires exactly those, and an
`acquire` touches no descriptor and hands out no buffer the card has not completed. -/
theorem tx_window_tracks_completions {memory : Nat → Descriptor} {events : List Event}
    (ran : run (step p) (start memory) events = some s) :
    (s.txCleanHead.toNat + s.txInFlight.toNat) % p.numTxDesc = s.txTail.toNat ∧
    s.txInFlight.toNat ≤ p.numTxDesc ∧
    (∀ i, i < s.committed → s.committed ≤ i + s.txInFlight.toNat →
      (TxDescriptor.dd (s.ring (i % p.numTxDesc)) = true ↔ i < s.written)) ∧
    ((txReclaim p s).txInFlight.toNat = s.committed - s.written ∧
      (txReclaim p s).txCleanHead.toNat = s.written % p.numTxDesc ∧
      ∀ i, s.written ≤ i → i < s.committed → (txReclaim p s).ring (i % p.numTxDesc) = s.ring (i % p.numTxDesc)) ∧
    ∀ frameLen,
      (∀ i, s.written ≤ i → i < s.committed →
        (acquire p s frameLen).1.ring (i % p.numTxDesc) = s.ring (i % p.numTxDesc) ∧
        (acquire p s frameLen).2 ≠ some (i % p.numTxDesc)) ∧
      ((acquire p s frameLen).2 = none → s.committed = s.written + p.numTxDesc) := by
  obtain ⟨cleaned,window⟩ := window_of_run ran
  have order := window.order
  have bound := window.bound
  have room := window.room
  obtain ⟨reclaimed,untouched⟩ := window.txReclaim
  refine ⟨?_,?_,?_,⟨?_,reclaimed.head_toNat,untouched.kept⟩,?_⟩
  · rw [window.head_toNat,window.inFlight_toNat,window.tail_toNat,Nat.mod_add_mod,Nat.add_sub_cancel' (by omega)]
  · rw [window.inFlight_toNat]
    omega
  · intro i inside recent
    rw [window.inFlight_toNat] at recent
    exact window.done i (by omega) inside
  · rw [reclaimed.inFlight_toNat,untouched.committed]
  · intro frameLen
    obtain ⟨_,untouched,other,full⟩ := window.acquire frameLen
    exact ⟨fun i low high => ⟨untouched.kept i low high,other i low high⟩,full⟩

def labSend : List Event := [.acquire 64,.commit]

def labDone : Descriptor := TxDescriptor.setStatus 0 txdStatDd

def labLap : List Event := (List.replicate 8 labSend).flatten ++ [.writeBack labDone,.writeBack labDone] ++ labSend

theorem tx_window_tracks_completions_lap :
    ∃ s, run (step labCard) (start fun _ => BitVec.allOnes 128) labLap = some s ∧ s.committed = 9 ∧ s.written = 2 ∧
      s.txInFlight = 7 ∧ (s.txCleanHead.toNat + s.txInFlight.toNat) % 8 = s.txTail.toNat ∧
      ∀ i, i < 9 → 9 ≤ i + 7 → (TxDescriptor.dd (s.ring (i % 8)) = true ↔ i < 2) := by
  have shown : (run (step labCard) (start fun _ => BitVec.allOnes 128) labLap).map
      (fun s => (s.committed,s.written,s.txInFlight)) = some (9,2,7) := by decide +kernel
  obtain ⟨s,ran,parts⟩ := Option.map_eq_some_iff.mp shown
  simp only [Prod.mk.injEq] at parts
  obtain ⟨committed,written,inFlight⟩ := parts
  obtain ⟨gap,_,done,_⟩ := tx_window_tracks_completions ran
  rw [committed,written,inFlight] at done
  exact ⟨s,ran,committed,written,inFlight,gap,done⟩

def visible (p : Params) (s : State) : Nat := (s.tdt.toNat + p.numTxDesc - s.tdh) % p.numTxDesc

def pending (s : State) : Nat := s.committed - s.transmitted

/-- The card completes a descriptor only after it has sent it. -/
def SentFirst (s : State) : Event → Prop
  | .writeBack _ => s.written < s.transmitted
  | _ => True

def AllVisible (p : Params) (s : State) (event : Event) : Prop := ∀ t ∈ step p s event, visible p t = pending t

/-- A commit never takes the last descriptor. -/
def OneFree (p : Params) (s : State) : Event → Prop
  | .commit => s.acquired = true → pending s < p.numTxDesc - 1
  | _ => True

instance (s : State) : (event : Event) → Decidable (SentFirst s event)
  | .writeBack _ => inferInstanceAs (Decidable (_ < _))
  | .acquire _ | .commit | .txReclaim | .transmit => isTrue trivial

instance (p : Params) (s : State) (event : Event) : Decidable (AllVisible p s event) :=
  inferInstanceAs (Decidable (∀ t ∈ step p s event, _))

instance (p : Params) (s : State) : (event : Event) → Decidable (OneFree p s event)
  | .commit => inferInstanceAs (Decidable (_ → _))
  | .acquire _ | .txReclaim | .transmit | .writeBack _ => isTrue trivial

structure Card (p : Params) (s : State) : Prop where
  window : ∃ cleaned, Window p s cleaned
  head : s.tdh = s.transmitted % p.numTxDesc
  tail : s.tdt.toNat = s.committed % p.numTxDesc
  sent : s.transmitted ≤ s.committed
  behind : s.written ≤ s.transmitted

namespace Card

theorem start (p : Params) (memory : Nat → Descriptor) : Card p (start memory) :=
  ⟨⟨0,.start p memory⟩,(Nat.zero_mod _).symm,(Nat.zero_mod _).symm,Nat.le_refl 0,Nat.le_refl 0⟩

theorem untouched (card : Card p s) (window : ∃ cleaned, Window p t cleaned) (untouched : Untouched p s t) : Card p t := by
  obtain ⟨committed,written,⟨tdt,tdh,transmitted⟩,_⟩ := untouched
  exact ⟨window,by rw [tdh,transmitted,card.head],by rw [tdt,committed,card.tail],
    by rw [transmitted,committed]; exact card.sent,by rw [transmitted,written]; exact card.behind⟩

theorem step {event : Event} (card : Card p s) (fits : p.txBits ≤ 32) (sentFirst : SentFirst s event)
    (moved : step p s event = some t) : Card p t := by
  obtain ⟨cleaned,window⟩ := card.window
  have later := window.step moved
  cases event with
  | acquire frameLen =>
    cases Option.some.inj moved
    exact card.untouched later (window.acquire frameLen).2.1
  | txReclaim =>
    cases Option.some.inj moved
    exact card.untouched later window.txReclaim.2
  | commit =>
    obtain ⟨_,same⟩ := Option.ite_none_right_eq_some.mp moved
    cases same
    refine ⟨later,card.head,?_,Nat.le_succ_of_le card.sent,card.behind⟩
    have below := Nat.mod_lt (s.committed + 1) (numTxDesc_pos p)
    have narrow : p.numTxDesc ≤ 2^32 := Nat.pow_le_pow_right (by decide) fits
    have advanced : (s.txTail + 1) &&& p.txRingMask = BitVec.ofNat 64 ((s.committed + 1) % p.numTxDesc) := by
      rw [window.tail]
      exact WrappingCounter.masked_succ p.txBound.le s.committed
    change (((s.txTail + 1) &&& p.txRingMask).setWidth 32).toNat = _
    rw [advanced,BitVec.toNat_setWidth,slot_toNat]
    exact Nat.mod_eq_of_lt (by omega)
  | transmit =>
    obtain ⟨apart,same⟩ := Option.ite_none_right_eq_some.mp moved
    cases same
    refine ⟨later,?_,card.tail,?_,Nat.le_succ_of_le card.behind⟩
    · change (s.tdh + 1) % p.numTxDesc = (s.transmitted + 1) % p.numTxDesc
      rw [card.head,Nat.mod_add_mod]
    · apply Nat.lt_of_le_of_ne card.sent
      intro drained
      rw [card.head,card.tail,drained] at apart
      exact apart rfl
  | writeBack desc =>
    obtain ⟨_,same⟩ := Option.ite_none_right_eq_some.mp moved
    cases same
    exact ⟨later,card.head,card.tail,card.sent,sentFirst⟩

private theorem pending_le (card : Card p s) : pending s ≤ p.numTxDesc := by
  obtain ⟨cleaned,window⟩ := card.window
  have room := window.room
  have order := window.order
  have behind := card.behind
  unfold pending
  omega

private theorem visible_eq (card : Card p s) : visible p s = pending s % p.numTxDesc := by
  rw [visible,card.head,card.tail]
  exact WrappingCounter.gap_mod (numTxDesc_pos p) card.sent

/-- The registers agree with the count except when the ring is filled completely. -/
theorem visible_iff (card : Card p s) : visible p s = pending s ↔ pending s < p.numTxDesc := by
  have most := card.pending_le
  have some := numTxDesc_pos p
  rw [card.visible_eq]
  constructor
  · intro same
    have below := Nat.mod_lt (pending s) some
    omega
  · exact Nat.mod_eq_of_lt

private theorem pending_step {event : Event} (card : Card p s) (other : event ≠ .commit)
    (moved : I210Transmit.step p s event = some t) :
    pending t ≤ pending s := by
  obtain ⟨cleaned,window⟩ := card.window
  have same (untouched : Untouched p s t) : pending t ≤ pending s := by
    rw [pending,pending,untouched.committed,untouched.registers.2.2]
  cases event with
  | acquire frameLen =>
    cases Option.some.inj moved
    exact same (window.acquire frameLen).2.1
  | txReclaim =>
    cases Option.some.inj moved
    exact same window.txReclaim.2
  | commit => exact absurd rfl other
  | transmit =>
    obtain ⟨_,went⟩ := Option.ite_none_right_eq_some.mp moved
    cases went
    exact Nat.sub_le_sub_left (Nat.le_succ _) _
  | writeBack desc =>
    obtain ⟨_,went⟩ := Option.ite_none_right_eq_some.mp moved
    cases went
    exact Nat.le_refl _

private theorem allVisible_iff {event : Event} (card : Card p s) (fits : p.txBits ≤ 32) (sentFirst : SentFirst s event)
    (below : pending s < p.numTxDesc) : AllVisible p s event ↔ OneFree p s event := by
  by_cases commits : event = .commit
  · subst commits
    have sent := card.sent
    constructor
    · intro visible acquired
      have moved : I210Transmit.step p s .commit = some (commit p s) := if_pos acquired
      have less := (card.step fits sentFirst moved).visible_iff.mp (visible _ moved)
      change s.committed + 1 - s.transmitted < _ at less
      unfold pending
      omega
    · intro free t moved
      apply (card.step fits sentFirst moved).visible_iff.mpr
      obtain ⟨acquired,same⟩ := Option.ite_none_right_eq_some.mp moved
      cases same
      have less := free acquired
      unfold pending at less
      change s.committed + 1 - s.transmitted < _
      omega
  · constructor
    · intro _
      cases event with
      | commit => exact absurd rfl commits
      | _ => trivial
    · intro _ t moved
      exact (card.step fits sentFirst moved).visible_iff.mpr (Nat.lt_of_le_of_lt (card.pending_step commits moved) below)

end Card

/-- In every run in which the card completes only what it has sent, the registers show all
committed frames the card has not processed exactly if no commit fills the ring. -/
theorem registers_show_pending_iff_one_free (fits : p.txBits ≤ 32) (memory : Nat → Descriptor) (events : List Event)
    (sentFirst : Along (step p) SentFirst (start memory) events) :
    Along (step p) (AllVisible p) (start memory) events ↔ Along (step p) (OneFree p) (start memory) events := by
  apply along_iff_of_invariant (fun s => Card p s ∧ pending s < p.numTxDesc) _ _ ⟨.start p memory,numTxDesc_pos p⟩ sentFirst
  · rintro s event t ⟨card,_⟩ sentFirst visible moved
    have later := card.step fits sentFirst moved
    exact ⟨later,later.visible_iff.mp (visible t moved)⟩
  · rintro s event ⟨card,below⟩ sentFirst
    exact card.allVisible_iff fits sentFirst below

def labSeven : List Event :=
  (List.replicate 7 labSend).flatten ++ [.transmit,.writeBack labDone,.txReclaim] ++ labSend

theorem registers_show_pending_iff_one_free_seven :
    (run (step labCard) (start fun _ => 0) labSeven).isSome = true ∧
      Along (step labCard) (AllVisible labCard) (start fun _ => 0) labSeven := by
  refine ⟨by decide +kernel,?_⟩
  apply (registers_show_pending_iff_one_free (by decide) (fun _ => 0) labSeven (by decide +kernel)).mpr
  decide +kernel

def labFill : List Event := (List.replicate 8 labSend).flatten

/-- Eight frames fill the ring: the card sees none of them, sends nothing, and no slot
comes free. -/
theorem full_ring_is_invisible :
    ∃ s, run (step labCard) (start fun _ => 0) labFill = some s ∧
      Along (step labCard) SentFirst (start fun _ => 0) labFill ∧ pending s = 8 ∧ visible labCard s = 0 ∧
      (step labCard s .transmit).isNone = true ∧ (acquire labCard s 64).2 = none := by
  have shown : (run (step labCard) (start fun _ => 0) labFill).map
      (fun s => (pending s,visible labCard s,(step labCard s .transmit).isNone,(acquire labCard s 64).2)) =
        some (8,0,true,none) := by decide +kernel
  obtain ⟨s,ran,parts⟩ := Option.map_eq_some_iff.mp shown
  simp only [Prod.mk.injEq] at parts
  obtain ⟨frames,seen,stalled,refused⟩ := parts
  exact ⟨s,ran,by decide +kernel,frames,seen,stalled,refused⟩

end Abtrda3.I210Transmit
