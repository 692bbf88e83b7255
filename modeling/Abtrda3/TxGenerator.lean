import Abtrda3.Application

/-! The traffic generator `run_txgen`: up to `count` frames, each with its number and
its send time. A refused slot costs the frame its turn. The loop only transmits: it
receives nothing, polls no completion and has no recorder. -/
namespace Abtrda3.TxGenerator
open Abtrda3.Application

structure Setting where
  cfg : TestConfig
  count : BitVec 32

inductive Pc
  | startTime
  | stopCheck
  | pace
  | acquire
  | storeSeq
  | sendTime
  | storeStamp (tsNs : BitVec 64)
  | commit
  | endTime
  | returned
  deriving DecidableEq, Repr

structure State where
  pc : Pc
  i : BitVec 32
  sent : BitVec 32
  failed : BitVec 32
  nextSend : Timespec
  tStart : BitVec 64
  tEnd : BitVec 64
  deriving DecidableEq, Repr

def start (clock : Timespec) : State := ⟨.startTime,0,0,0,clock,0,0⟩

def intervalNs (p : Setting) : Nat := p.cfg.intervalNs

def advance (p : Setting) (t : Timespec) : Timespec := t.advance (intervalNs p)

/-- The loop condition; the stop token is read only below `count`. -/
def enter (p : Setting) (s : State) : State :=
  {s with pc := if s.i < p.count then .stopCheck else .endTime}

def nextTurn (p : Setting) (s : State) : State := enter p {s with i := s.i + 1}

def call (p : Setting) (s : State) : Option Call :=
  match s.pc with
  | .startTime => some .now
  | .stopCheck => some .stopRequested
  | .pace => some (.sleepUntil s.nextSend)
  | .acquire => some (.acquire p.cfg.frameSize)
  | .storeSeq => some (.store 14 (storeU32 (htonl s.i)))
  | .sendTime => some .now
  | .storeStamp tsNs => some (.store 18 (storeBytes 8 tsNs.toNat))
  | .commit => some .commit
  | .endTime => some .now
  | .returned => none

def next (p : Setting) (s : State) (reply : Reply) : Option State :=
  match s.pc with
  | .startTime => reply.time?.map fun t => enter p {s with tStart := t}
  | .stopCheck => reply.flag?.map fun stop =>
    if stop then {s with pc := .endTime}
    else if 0 < intervalNs p then {s with nextSend := advance p s.nextSend, pc := .pace}
    else {s with pc := .acquire}
  | .pace => reply.done?.map fun _ => {s with pc := .acquire}
  | .acquire => reply.flag?.map fun ok =>
    if ok then {s with pc := .storeSeq} else nextTurn p {s with failed := s.failed + 1}
  | .storeSeq => reply.done?.map fun _ => {s with pc := .sendTime}
  | .sendTime => reply.time?.map fun t => {s with pc := .storeStamp t}
  | .storeStamp _ => reply.done?.map fun _ => {s with pc := .commit}
  | .commit => reply.done?.map fun _ => nextTurn p {s with sent := s.sent + 1}
  | .endTime => reply.time?.map fun t => {s with tEnd := t, pc := .returned}
  | .returned => none

private theorem call_ne_tryPush (p : Setting) (s : State) (sample : BitVec 64) : call p s ≠ some (.tryPush sample) := by
  unfold call
  split <;> simp

def producer (p : Setting) : Producer State where
  call := call p
  next := next p
  phase := fun _ => .sampling
  stamps := fun _ => none
  offers := fun s sample _ offered => absurd offered (call_ne_tryPush p s sample)
  holds := fun _ _ held => nomatch held
  samples := fun _ _ _ _ _ => Phase.noConfusion
  marks := fun _ finishing => nomatch finishing
  retries := fun _ _ _ finishing => nomatch finishing
  silent := fun _ returned => nomatch returned

end Abtrda3.TxGenerator
