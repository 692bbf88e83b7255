import Abtrda3.Application

/-! The recorder `HistThread::run`: drain the queue into the histogram until the end
marker is popped, or until the queue is seen empty with a stop requested. It leaves
at once when the histogram cannot be allocated. -/
namespace Abtrda3.HistThread
open Abtrda3.Application

structure Setting where
  maxCyc : Int
  hbCyc : BitVec 64
  decode : Option (BitVec 64 → BitVec 32 → Option (BitVec 64))
  decodeArg : BitVec 32
  -- The values `hdr_record_value` keeps; the loop ignores what it returns.
  tracks : BitVec 64 → Bool

inductive Exit
  | initFailed
  | sentinel
  | stopped
  deriving DecidableEq, Repr

inductive Pc
  | init
  | clock
  | heartbeat
  | front
  | pop (cyc : BitVec 64)
  | stopCheck
  | report (exit : Exit)
  | returned (exit : Exit)
  deriving DecidableEq, Repr

structure State where
  pc : Pc
  startTsc : BitVec 64
  nextHb : BitVec 64
  recorded : Nat
  dropped : Nat
  histogram : List (BitVec 64)
  deriving DecidableEq, Repr

inductive Call
  | hdrInit (lowest highest : Int) (figures : Nat)
  | now
  | front
  | pop
  | stopRequested
  | report (recorded : Nat)
  deriving DecidableEq, Repr

inductive Reply
  | flag (value : Bool)
  | time (cycles : BitVec 64)
  | front (value : Option (BitVec 64))
  | done
  deriving DecidableEq, Repr

def start : State := ⟨.init,0,0,0,0,[]⟩

def call (p : Setting) (s : State) : Option Call :=
  match s.pc with
  | .init => some (.hdrInit 1 p.maxCyc 5)
  | .clock => some .now
  | .heartbeat => some .now
  | .front => some .front
  | .pop _ => some .pop
  | .stopCheck => some .stopRequested
  | .report _ => some (.report s.recorded)
  | .returned _ => none

def decoded (p : Setting) (cyc : BitVec 64) : Option (BitVec 64) :=
  match p.decode with
  | some decode => decode cyc p.decodeArg
  | none => some cyc

def kept (p : Setting) (cyc : BitVec 64) : Option (BitVec 64) := (decoded p cyc).filter p.tracks

def record (p : Setting) (s : State) (cyc : BitVec 64) : State :=
  match decoded p cyc with
  | none => {s with dropped := s.dropped + 1}
  | some sample =>
    {s with recorded := s.recorded + 1,
            histogram := if p.tracks sample then s.histogram ++ [sample] else s.histogram}

def next (p : Setting) (s : State) (reply : Reply) : Option State :=
  match s.pc, reply with
  | .init, .flag ok => some {s with pc := if ok then .clock else .returned .initFailed}
  | .clock, .time t => some {s with startTsc := t, nextHb := p.hbCyc, pc := .heartbeat}
  | .heartbeat, .time t =>
    some {s with nextHb := if s.nextHb ≤ t - s.startTsc then s.nextHb + p.hbCyc else s.nextHb, pc := .front}
  | .front, .front cyc => some {s with pc := cyc.elim .stopCheck .pop}
  | .stopCheck, .flag stop => some {s with pc := if stop then .report .stopped else .heartbeat}
  | .pop cyc, .done =>
    if cyc = kEndSentinel then some {s with pc := .report .sentinel}
    else some {record p s cyc with pc := .heartbeat}
  | .report exit, .done => some {s with pc := .returned exit}
  | _, _ => none

def exit (s : State) : Option Exit :=
  match s.pc with
  | .report reason => some reason
  | .returned reason => some reason
  | _ => none

theorem record_count (p : Setting) (s : State) (cyc : BitVec 64) :
    (record p s cyc).recorded + (record p s cyc).dropped = s.recorded + s.dropped + 1 := by
  unfold record
  split <;> dsimp only <;> omega

theorem record_recorded (p : Setting) (s : State) (cyc : BitVec 64) :
    (record p s cyc).recorded = s.recorded + (decoded p cyc).toList.length := by
  unfold record
  split <;> simp_all

theorem record_histogram (p : Setting) (s : State) (cyc : BitVec 64) :
    (record p s cyc).histogram = s.histogram ++ (kept p cyc).toList := by
  unfold record kept
  cases decoded p cyc with
  | none => simp
  | some sample => by_cases kept : p.tracks sample = true <;> simp [Option.filter,kept]

end Abtrda3.HistThread
