import Abtrda3.Application

/-! The one-way transmitter `TxThread::run`: a stream of frames for a fixed time, each
with its number and its send time. A refused slot costs no number. The loop receives
nothing and records nothing; on its way out it tells the receiver that it is done. -/
namespace Abtrda3.TxThread
open Abtrda3.Application

structure Setting where
  cfg : TestConfig
  durationCyc : BitVec 64

inductive Pc
  | startTime
  | loopTime
  | stopCheck
  | pace
  | acquire
  | storeSeq
  | sendTime
  | storeStamp
  | commit
  | returned
  deriving DecidableEq, Repr

structure State where
  pc : Pc
  start : BitVec 64
  seq : BitVec 32
  t0 : BitVec 64
  nextSend : Timespec
  txDone : Bool
  deriving DecidableEq, Repr

/-- A frame too small for the layout is refused, and the receiver is not left waiting. -/
def start (p : Setting) (clock : Timespec) : State :=
  if p.cfg.frameSize.toNat < kFrameMinBytes then ⟨.returned,0,0,0,clock,true⟩ else ⟨.startTime,0,0,0,clock,false⟩

def tmpl (cfg : TestConfig) : List Byte := template cfg.frameSize.toNat cfg.serverMac cfg.clientMac cfg.etherType

def intervalNs (p : Setting) : Nat := p.cfg.intervalNs

def advance (p : Setting) (t : Timespec) : Timespec := t.advance (intervalNs p)

def call (p : Setting) (s : State) : Option Call :=
  match s.pc with
  | .startTime => some .now
  | .loopTime => some .now
  | .stopCheck => some .stopRequested
  | .pace => some (.sleepUntil s.nextSend)
  | .acquire => some (.acquire p.cfg.frameSize)
  | .storeSeq => some (.store kOffSeq (storeU32 (htonl s.seq)))
  | .sendTime => some .now
  | .storeStamp => some (.store kOffTxStamp (storeBytes 8 s.t0.toNat))
  | .commit => some .commit
  | .returned => none

def leave (s : State) : State := {s with txDone := true, pc := .returned}

def next (p : Setting) (s : State) (reply : Reply) : Option State :=
  match s.pc with
  | .startTime => reply.time?.map fun t => {s with start := t, pc := .loopTime}
  -- The stop token is read only while there is time left.
  | .loopTime => reply.time?.map fun t => if t - s.start < p.durationCyc then {s with pc := .stopCheck} else leave s
  | .stopCheck => reply.flag?.map fun stop =>
    if stop then leave s
    else if 0 < intervalNs p then {s with nextSend := advance p s.nextSend, pc := .pace}
    else {s with pc := .acquire}
  | .pace => reply.done?.map fun _ => {s with pc := .acquire}
  | .acquire => reply.flag?.map fun ok => {s with pc := if ok then .storeSeq else .loopTime}
  | .storeSeq => reply.done?.map fun _ => {s with pc := .sendTime}
  | .sendTime => reply.time?.map fun t => {s with t0 := t, pc := .storeStamp}
  | .storeStamp => reply.done?.map fun _ => {s with pc := .commit}
  | .commit => reply.done?.map fun _ => {s with seq := s.seq + 1, pc := .loopTime}
  | .returned => none

end Abtrda3.TxThread
