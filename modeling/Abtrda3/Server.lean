import Abtrda3.Application

/-! The reflector `run_server`: an inner loop of 65536 polls that copies each request
into a transmit slot, and an outer loop that looks at the stop token. With hardware
timestamps the stamp of the last reply is joined on the next empty poll. -/
namespace Abtrda3.Server
open Abtrda3.Application

structure Setting where
  cfg : TestConfig
  kHwTs : Bool

inductive Pc
  | poll
  | pollStamp
  | push (stamps : Stamps)
  | acquire (rxf : List Byte)
  | acquireStop (rxf : List Byte)
  | releaseStop
  | copy (rxf : List Byte)
  | release
  | sequence
  | commit
  | stamp
  | outerStop
  | finish
  | returned
  deriving DecidableEq, Repr

structure State where
  pc : Pc
  i : Nat
  stopping : Bool
  hwWarmup : Nat
  rxInFlight : BitVec 32
  txSeqInFlight : BitVec 32
  packetCount : Nat
  pushFailures : Nat
  deriving DecidableEq, Repr

def start : State := ⟨.poll,0,false,0,0,0,0,0⟩

def innerPolls : Nat := 65536

def nextPoll (s : State) : State :=
  {s with i := s.i + 1, pc := if s.i + 1 < innerPolls then .poll else .outerStop}

def call (p : Setting) (s : State) : Option Call :=
  match s.pc with
  | .poll => some .tryReceive
  | .pollStamp => some .pollTxTimestamp
  | .push stamps => some (.tryPush stamps.sample)
  | .acquire _ => some (.acquire p.cfg.frameSize)
  | .acquireStop _ => some .stopRequested
  | .releaseStop => some .release
  | .copy rxf => some (.store 14 (sliceOf rxf 14 12))
  | .release => some .release
  | .sequence => some .txSequence
  | .commit => some .commit
  | .stamp => some .hwRxTimestamp
  | .outerStop => some .stopRequested
  | .finish => some (.tryPush kEndSentinel)
  | .returned => none

def joinStamp (s : State) (stamp : Option TxStamp) : State :=
  match stamp with
  | some txTs =>
    if txTs.seq ≠ s.txSeqInFlight then nextPoll s
    else if s.hwWarmup < kWarmupDiscard then nextPoll {s with hwWarmup := s.hwWarmup + 1}
    else {s with pc := .push (.hardware s.rxInFlight txTs.minor)}
  | none => nextPoll s

def next (p : Setting) (s : State) (reply : Reply) : Option State :=
  match s.pc with
  | .poll => reply.frame?.map fun f =>
    if f = [] then
      if p.kHwTs then {s with pc := .pollStamp} else nextPoll s
    else {s with pc := .acquire f}
  | .pollStamp => reply.stamp?.map fun stamp => joinStamp s stamp
  | .push _ => reply.flag?.map fun ok =>
    nextPoll {s with pushFailures := if ok then s.pushFailures else s.pushFailures + 1}
  | .acquire f => reply.flag?.map fun ok => {s with pc := if ok then .copy f else .acquireStop f}
  | .acquireStop f => reply.flag?.map fun stop => {s with pc := if stop then .releaseStop else .acquire f}
  | .releaseStop => reply.done?.map fun _ => {s with stopping := true, pc := .outerStop}
  | .copy _ => reply.done?.map fun _ => {s with pc := .release}
  | .release => reply.done?.map fun _ => {s with pc := if p.kHwTs then .sequence else .commit}
  | .sequence => reply.word?.map fun w => {s with txSeqInFlight := w, pc := .commit}
  | .commit => reply.done?.map fun _ =>
    if p.kHwTs then {s with pc := .stamp} else nextPoll {s with packetCount := s.packetCount + 1}
  | .stamp => reply.word?.map fun w => nextPoll {s with rxInFlight := w, packetCount := s.packetCount + 1}
  -- The token is read once more on the way out, also when the wait for a slot was cut short.
  | .outerStop => reply.flag?.map fun stop =>
    if stop || s.stopping then {s with pc := if p.kHwTs then .finish else .returned}
    else {s with i := 0, pc := .poll}
  | .finish => reply.flag?.map fun ok => {s with pc := if ok then .returned else .finish}
  | .returned => none

def phase (s : State) : Phase :=
  match s.pc with
  | .finish => .finishing
  | .returned => .returned
  | _ => .sampling

def stamps (s : State) : Option Stamps :=
  match s.pc with
  | .push stamps => some stamps
  | _ => none

private theorem phase_eq_returned (s : State) : phase s = .returned ↔ s.pc = .returned := by
  unfold phase
  split <;> simp_all

private theorem nextPoll_pc (s : State) : (nextPoll s).pc ≠ .returned := by
  unfold nextPoll
  dsimp only
  split <;> simp

private theorem joinStamp_pc (s : State) (stamp : Option TxStamp) : (joinStamp s stamp).pc ≠ .returned := by
  unfold joinStamp
  cases stamp with
  | none => exact nextPoll_pc s
  | some txTs =>
    dsimp only
    split_ifs
    · exact nextPoll_pc s
    · apply nextPoll_pc
    · simp

theorem next_sampling (p : Setting) (hw : p.kHwTs = true) (s : State) (reply : Reply) (t : State)
    (sampling : phase s = .sampling) (moved : next p s reply = some t) : phase t ≠ .returned := by
  rw [Ne,phase_eq_returned]
  rcases s with ⟨pc,i,stopping,warmup,rxInFlight,txSeqInFlight,count,failures⟩
  cases pc <;> simp only [next,hw,Option.map_eq_some_iff] at moved
  case returned => contradiction
  case finish => contradiction
  all_goals obtain ⟨value,_,rfl⟩ := moved
  case pollStamp => apply joinStamp_pc
  case push | stamp => apply nextPoll_pc
  all_goals first | (split_ifs <;> simp) | simp

theorem next_finishing (p : Setting) (s : State) (reply : Reply) (t : State) (finishing : phase s = .finishing)
    (moved : next p s reply = some t) :
    ∃ taken, reply = .flag taken ∧ phase t = if taken then .returned else .finishing := by
  have here : s.pc = .finish := by unfold phase at finishing; split at finishing <;> simp_all
  simp only [next,here,Option.map_eq_some_iff] at moved
  obtain ⟨taken,read,rfl⟩ := moved
  exact ⟨taken,Reply.flag?_eq_some read,by cases taken <;> rfl⟩

def producer (p : Setting) (hw : p.kHwTs = true) : Producer State where
  call := call p
  next := next p
  phase := phase
  stamps := stamps
  offers := by
    rintro ⟨pc,_⟩ sample sampling offered
    cases pc <;> simp_all [call,stamps,phase]
  holds := by
    rintro ⟨pc,_⟩ pair held
    cases pc <;> simp_all [call,stamps,phase]
  samples := next_sampling p hw
  marks := by
    rintro ⟨pc,_⟩ finishing
    cases pc <;> simp_all [call,phase]
  retries := next_finishing p
  silent := by
    rintro ⟨pc,_⟩ returned
    cases pc <;> simp_all [call,phase]

end Abtrda3.Server
