import Abtrda3.Application

/-! The one-way receiver `RxThread::run`: a full header check, the sequence gate, the
warm-up window that resets the loss counters, and the grace window of empty polls
after the transmitter is done. It never looks at the stop token. -/
namespace Abtrda3.SingleRecorder
open Abtrda3.Application

def kGraceEmptyPolls : Nat := 2^20

structure AntiReplay where
  last : BitVec 32
  haveLast : Bool
  deriving DecidableEq, Repr

structure Counters where
  recorded : Nat
  lost : Nat
  dropped : Nat
  pushFailures : Nat
  deriving DecidableEq, Repr

def AntiReplay.accept (gate : AntiReplay) (seq : BitVec 32) (counters : Counters) : Bool × AntiReplay × Counters :=
  if gate.haveLast = false then (true,⟨seq,true⟩,counters)
  else
    let diff := (seq - gate.last).toInt
    if diff ≤ 0 then (false,gate,{counters with dropped := counters.dropped + 1})
    else (true,⟨seq,true⟩,{counters with lost := counters.lost + (diff - 1).toNat})

inductive Pc
  | poll
  | doneCheck
  | arrival (frame : List Byte)
  | releaseDrop
  | releaseTake (seqNet : BitVec 32) (t0 t1 : BitVec 64)
  | push (stamps : Stamps)
  | finish
  | returned
  deriving DecidableEq, Repr

structure State where
  pc : Pc
  gate : AntiReplay
  counters : Counters
  graceEmpty : BitVec 32
  warmupSeen : Nat
  deriving DecidableEq, Repr

def start : State := ⟨.poll,⟨0,false⟩,⟨0,0,0,0⟩,0,0⟩

/-- Sixteen bytes, so that the second eight-byte load stays inside. -/
def header (cfg : TestConfig) : List Byte :=
  cfg.serverMac.bytes ++ cfg.clientMac.bytes ++
    [(cfg.etherType >>> 8).setWidth 8,(cfg.etherType &&& 0xFF).setWidth 8,0,0]

def expHdrLo (cfg : TestConfig) : BitVec 64 := loadU64 (header cfg) kOffDstMac

def expHdrHi (cfg : TestConfig) : BitVec 64 := loadU64 (header cfg) kOffSrcMac

def foreign (cfg : TestConfig) (packet : List Byte) : Bool :=
  decide (((loadU64 packet kOffDstMac ^^^ expHdrLo cfg) ||| (loadU64 packet kOffSrcMac ^^^ expHdrHi cfg)) ≠ 0)

theorem foreign_header (cfg : TestConfig) (rest : List Byte) : foreign cfg ((header cfg).take kOffSeq ++ rest) = false := by
  have size : (header cfg).length = 16 := by
    simp [header,cfg.serverMac.six,cfg.clientMac.six]
  have whole (offset : Nat) (inside : offset + 8 ≤ kOffSeq) :
      loadU64 ((header cfg).take kOffSeq ++ rest) offset = loadU64 (header cfg) offset := by
    have fits : offset + 8 ≤ ((header cfg).take kOffSeq).length := by
      rw [List.length_take,size]
      exact inside
    unfold loadU64
    rw [loadBytes_append_left _ _ fits,← loadBytes_append_left _ ((header cfg).drop kOffSeq) fits,List.take_append_drop]
  unfold foreign
  rw [whole kOffDstMac (by decide),whole kOffSrcMac (by decide)]
  unfold expHdrLo expHdrHi
  rw [BitVec.xor_self,BitVec.xor_self]
  rfl

def examine (cfg : TestConfig) (s : State) (packet : List Byte) (t1 : BitVec 64) : State :=
  if packet.length < kFrameMinBytes then {s with pc := .releaseDrop}
  else if foreign cfg packet then {s with pc := .releaseDrop}
  else {s with pc := .releaseTake (loadU32 packet kOffSeq) (loadU64 packet kOffTxStamp) t1}

def inWarmup (s : State) : Bool × State :=
  if kWarmupDiscard ≤ s.warmupSeen then (false,s)
  else if s.warmupSeen + 1 = kWarmupDiscard then
    (true,{s with warmupSeen := s.warmupSeen + 1,
                  counters := {s.counters with lost := 0, dropped := 0, pushFailures := 0}})
  else (true,{s with warmupSeen := s.warmupSeen + 1})

theorem accept_counters (gate : AntiReplay) (seq : BitVec 32) (counters : Counters) :
    (gate.accept seq counters).2.2.recorded = counters.recorded ∧
    (gate.accept seq counters).2.2.pushFailures = counters.pushFailures := by
  unfold AntiReplay.accept
  dsimp only
  split_ifs <;> exact ⟨rfl,rfl⟩

theorem inWarmup_cases (s : State) :
    (kWarmupDiscard ≤ s.warmupSeen ∧ inWarmup s = (false,s)) ∨
    (s.warmupSeen + 1 = kWarmupDiscard ∧ inWarmup s = (true,{s with
      warmupSeen := s.warmupSeen + 1, counters := {s.counters with lost := 0, dropped := 0, pushFailures := 0}})) ∨
    (s.warmupSeen + 1 < kWarmupDiscard ∧ inWarmup s = (true,{s with warmupSeen := s.warmupSeen + 1})) := by
  unfold inWarmup
  split_ifs with past last
  · exact .inl ⟨past,rfl⟩
  · exact .inr (.inl ⟨last,rfl⟩)
  · exact .inr (.inr ⟨by omega,rfl⟩)

def take (s : State) (seqNet : BitVec 32) (t0 t1 : BitVec 64) : State :=
  let (accepted,gate,counters) := s.gate.accept (htonl seqNet) s.counters
  let s := {s with gate := gate, counters := counters, pc := .poll}
  if accepted = false then s
  else
    let (warm,s) := inWarmup s
    if warm then s else {s with pc := .push (.cycles t1 t0)}

def call (s : State) : Option Call :=
  match s.pc with
  | .poll => some .tryReceive
  | .doneCheck => some .txDone
  | .arrival _ => some .now
  | .releaseDrop => some .release
  | .releaseTake _ _ _ => some .release
  | .push stamps => some (.tryPush stamps.sample)
  | .finish => some (.tryPush kEndSentinel)
  | .returned => none

def next (cfg : TestConfig) (s : State) (reply : Reply) : Option State :=
  match s.pc with
  | .poll => reply.frame?.map fun f =>
    if f = [] then {s with pc := .doneCheck} else {s with graceEmpty := 0, pc := .arrival f}
  | .doneCheck => reply.flag?.map fun txDone =>
    if txDone then
      {s with graceEmpty := s.graceEmpty + 1,
              pc := if kGraceEmptyPolls ≤ (s.graceEmpty + 1).toNat then .finish else .poll}
    else {s with pc := .poll}
  | .arrival f => reply.time?.map fun t1 => examine cfg s f t1
  | .releaseDrop => reply.done?.map fun _ => {s with pc := .poll}
  | .releaseTake seqNet t0 t1 => reply.done?.map fun _ => take s seqNet t0 t1
  | .push _ => reply.flag?.map fun ok =>
    {s with counters := {s.counters with
              pushFailures := if ok then s.counters.pushFailures else s.counters.pushFailures + 1,
              recorded := s.counters.recorded + 1},
            pc := .poll}
  | .finish => reply.flag?.map fun ok => {s with pc := if ok then .returned else .finish}
  | .returned => none

def phase (s : State) : Phase :=
  match s.pc with
  | .finish => .finishing
  | .returned => .returned
  | _ => .sampling

def stamps (s : State) : Option Stamps :=
  match s.pc with
  | .push stamps => some stamps
  | _ => none

private theorem phase_eq_returned (s : State) : phase s = .returned ↔ s.pc = .returned := by
  unfold phase
  split <;> simp_all

private theorem examine_pc (cfg : TestConfig) (s : State) (packet : List Byte) (t1 : BitVec 64) :
    (examine cfg s packet t1).pc ≠ .returned := by
  unfold examine
  split_ifs <;> simp

private theorem inWarmup_pc (s : State) : (inWarmup s).2.pc = s.pc := by
  unfold inWarmup
  split_ifs <;> rfl

private theorem take_pc (s : State) (seqNet : BitVec 32) (t0 t1 : BitVec 64) :
    (take s seqNet t0 t1).pc ≠ .returned := by
  unfold take
  dsimp only
  split_ifs
  · simp
  · rw [inWarmup_pc]
    simp
  · simp

theorem next_sampling (cfg : TestConfig) (s : State) (reply : Reply) (t : State)
    (sampling : phase s = .sampling) (moved : next cfg s reply = some t) : phase t ≠ .returned := by
  rw [Ne,phase_eq_returned]
  rcases s with ⟨pc,gate,counters,graceEmpty,warmupSeen⟩
  cases pc <;> simp only [next,Option.map_eq_some_iff] at moved
  case returned => contradiction
  case finish => contradiction
  all_goals obtain ⟨value,_,rfl⟩ := moved
  case arrival => apply examine_pc
  case releaseTake => apply take_pc
  all_goals first | (split_ifs <;> simp) | simp

theorem next_finishing (cfg : TestConfig) (s : State) (reply : Reply) (t : State)
    (finishing : phase s = .finishing) (moved : next cfg s reply = some t) :
    ∃ taken, reply = .flag taken ∧ phase t = if taken then .returned else .finishing := by
  have here : s.pc = .finish := by unfold phase at finishing; split at finishing <;> simp_all
  simp only [next,here,Option.map_eq_some_iff] at moved
  obtain ⟨taken,read,rfl⟩ := moved
  exact ⟨taken,Reply.flag?_eq_some read,by cases taken <;> rfl⟩

def producer (cfg : TestConfig) : Producer State where
  call := call
  next := next cfg
  phase := phase
  stamps := stamps
  offers := by
    rintro ⟨pc,_⟩ sample sampling offered
    cases pc <;> simp_all [call,stamps,phase]
  holds := by
    rintro ⟨pc,_⟩ pair held
    cases pc <;> simp_all [call,stamps,phase]
  samples := next_sampling cfg
  marks := by
    rintro ⟨pc,_⟩ finishing
    cases pc <;> simp_all [call,phase]
  retries := next_finishing cfg
  silent := by
    rintro ⟨pc,_⟩ returned
    cases pc <;> simp_all [call,phase]

end Abtrda3.SingleRecorder
