import Abtrda3.Application

/-! The packet counter `run_rxsink`: an inner loop of 65536 polls that sorts frames by their
destination address, and an outer loop that looks at the stop token. It answers nothing and
records nothing. -/
namespace Abtrda3.RxSink
open Abtrda3.Application

inductive Pc
  | startTime
  | poll
  | release
  | outerStop
  | endTime
  | returned
  deriving DecidableEq, Repr

structure State where
  pc : Pc
  i : Nat
  accepted : Nat
  rejected : Nat
  tStart : BitVec 64
  tEnd : BitVec 64
  deriving DecidableEq, Repr

def start : State := ⟨.startTime,0,0,0,0,0⟩

def innerPolls : Nat := 65536

def nextPoll (s : State) : State :=
  {s with i := s.i + 1, pc := if s.i + 1 < innerPolls then .poll else .outerStop}

/-- A `memcmp` of six bytes, whatever the length of the frame. -/
def addressed (cfg : TestConfig) (rxf : List Byte) : Bool := decide (rxf.take 6 = cfg.serverMac.bytes)

def count (cfg : TestConfig) (s : State) (rxf : List Byte) : State :=
  if addressed cfg rxf then {s with accepted := s.accepted + 1, pc := .release}
  else {s with rejected := s.rejected + 1, pc := .release}

def call (s : State) : Option Call :=
  match s.pc with
  | .startTime => some .now
  | .poll => some .tryReceive
  | .release => some .release
  | .outerStop => some .stopRequested
  | .endTime => some .now
  | .returned => none

def next (cfg : TestConfig) (s : State) (reply : Reply) : Option State :=
  match s.pc with
  | .startTime => reply.time?.map fun t => {s with tStart := t, pc := .poll}
  | .poll => reply.frame?.map fun f => if f = [] then nextPoll s else count cfg s f
  | .release => reply.done?.map fun _ => nextPoll s
  | .outerStop => reply.flag?.map fun stop => if stop then {s with pc := .endTime} else {s with i := 0, pc := .poll}
  | .endTime => reply.time?.map fun t => {s with tEnd := t, pc := .returned}
  | .returned => none

end Abtrda3.RxSink
