import Abtrda3.Application

/-! The round-trip originator `run_client`: one frame in flight, a spin for the echo
that carries its sequence number, and the end marker after the last round. The
hardware-timestamp mode and the TSC mode are the two values of `kHwTs`. -/
namespace Abtrda3.Client
open Abtrda3.Application

structure Setting where
  cfg : TestConfig
  kHwTs : Bool
  durationCyc : BitVec 64
  timeoutCyc : BitVec 64

inductive Pc
  | top
  | stopCheck
  | pace
  | acquire
  | storeSeq
  | sendStamp
  | sequence
  | commit
  | receive
  | arrival (frame : List Byte)
  | releaseEcho (t2 : BitVec 64)
  | pollStamp
  | rxStamp (minor : BitVec 32)
  | push (stamps : Stamps)
  | releaseOther
  | spinStop
  | spinTime
  | finish
  | returned
  deriving DecidableEq, Repr

structure State where
  pc : Pc
  start : BitVec 64
  loopTsc : BitVec 64
  t1 : BitVec 64
  seq : BitVec 32
  txSeq : BitVec 32
  spins : BitVec 32
  nextSend : Timespec
  sent : Nat
  recorded : Nat
  timeouts : Nat
  warmup : Nat
  hwTxMissing : Nat
  pushFailures : Nat
  deriving DecidableEq, Repr

/-- A frame too small for the layout is refused before anything is started. -/
def start (p : Setting) (now : BitVec 64) (clock : Timespec) : Option State :=
  if p.cfg.frameSize.toNat < kFrameMinBytes then none
  else some ⟨.top,now,0,0,0,0,0,clock,0,0,0,0,0,0⟩

def intervalNs (p : Setting) : Nat := p.cfg.intervalNs

def advance (p : Setting) (t : Timespec) : Timespec := t.advance (intervalNs p)

def ours (p : Setting) (s : State) (frame : List Byte) : Bool :=
  decide (kFrameMinBytes ≤ frame.length) && decide (frame.take 6 = p.cfg.clientMac.bytes) &&
    decide (loadU32 frame kOffSeq = htonl s.seq)

def echo (p : Setting) (seq : BitVec 32) : List Byte :=
  (p.cfg.clientMac.bytes ++ p.cfg.serverMac.bytes ++
      [(p.cfg.etherType >>> 8).setWidth 8,(p.cfg.etherType &&& 0xFF).setWidth 8]) ++
    (storeU32 (htonl seq) ++ List.replicate 8 0)

theorem ours_echo (p : Setting) {s : State} {seq : BitVec 32} (same : s.seq = seq) :
    ours p s (echo p seq) = true := by
  have client := p.cfg.clientMac.six
  have server := p.cfg.serverMac.six
  have head : (p.cfg.clientMac.bytes ++ p.cfg.serverMac.bytes ++
      [(p.cfg.etherType >>> 8).setWidth 8,(p.cfg.etherType &&& 0xFF).setWidth 8]).length = kOffSeq := by
    simp [client,server,kOffSeq]
  have size : (echo p seq).length = kFrameMinBytes := by
    simp [echo,storeU32,storeBytes_length,client,server,kFrameMinBytes,kOffTxStamp]
  have address : (echo p seq).take 6 = p.cfg.clientMac.bytes := by
    simp [echo,List.append_assoc,← client]
  have sequence : loadU32 (echo p seq) kOffSeq = htonl seq := by
    rw [echo,← head]
    exact loadU32_storeU32 _ _ _
  simp [ours,size,address,sequence,same]

def classify (p : Setting) (s : State) (frame : List Byte) (t2 : BitVec 64) : State :=
  {s with pc := if ours p s frame then .releaseEcho t2 else .releaseOther}

def spin (s : State) : State :=
  {s with spins := s.spins + 1,
          pc := if (s.spins + 1) &&& 0x7FF = 0 then .spinStop else .receive}

def endRound (received : Bool) (s : State) : State :=
  {s with timeouts := if received = false ∧ kWarmupDiscard ≤ s.warmup then s.timeouts + 1 else s.timeouts,
          seq := s.seq + 1, pc := .top}

def call (p : Setting) (s : State) : Option Call :=
  match s.pc with
  | .top => some .now
  | .stopCheck => some .stopRequested
  | .pace => some (.sleepUntil s.nextSend)
  | .acquire => some (.acquire p.cfg.frameSize)
  | .storeSeq => some (.store kOffSeq (storeU32 (htonl s.seq)))
  | .sendStamp => some .now
  | .sequence => some .txSequence
  | .commit => some .commit
  | .receive => some .tryReceive
  | .arrival _ => some .now
  | .releaseEcho _ => some .release
  | .pollStamp => some .pollTxTimestamp
  | .rxStamp _ => some .hwRxTimestamp
  | .push stamps => some (.tryPush stamps.sample)
  | .releaseOther => some .release
  | .spinStop => some .stopRequested
  | .spinTime => some .now
  | .finish => some (.tryPush kEndSentinel)
  | .returned => none

def recordCycles (s : State) (t2 : BitVec 64) : State :=
  if s.warmup < kWarmupDiscard then endRound true {s with warmup := s.warmup + 1}
  else {s with pc := .push (.cycles t2 s.t1)}

def joinStamp (s : State) (stamp : Option TxStamp) : State :=
  match stamp with
  | some txTs =>
    -- Stamps of earlier sends are still queued; they are skipped here.
    if txTs.seq ≠ s.txSeq then {s with pc := .pollStamp}
    else if s.warmup < kWarmupDiscard then endRound true {s with warmup := s.warmup + 1}
    else {s with pc := .rxStamp txTs.minor}
  | none =>
    if s.warmup < kWarmupDiscard then endRound true {s with warmup := s.warmup + 1}
    else endRound true {s with hwTxMissing := s.hwTxMissing + 1}

def next (p : Setting) (s : State) (reply : Reply) : Option State :=
  match s.pc with
  | .top => reply.time?.map fun t =>
    {s with loopTsc := t, pc := if p.durationCyc ≤ t - s.start then .finish else .stopCheck}
  | .stopCheck => reply.flag?.map fun stop =>
    if stop then {s with pc := .finish}
    else if 0 < intervalNs p then {s with nextSend := advance p s.nextSend, pc := .pace}
    else {s with pc := .acquire}
  | .pace => reply.done?.map fun _ => {s with pc := .acquire}
  | .acquire => reply.flag?.map fun ok => {s with pc := if ok then .storeSeq else .top}
  | .storeSeq => reply.done?.map fun _ =>
    {s with t1 := s.loopTsc, pc := if p.kHwTs then .sequence else .sendStamp}
  | .sendStamp => reply.time?.map fun t => {s with t1 := t, pc := .commit}
  | .sequence => reply.word?.map fun w => {s with txSeq := w, pc := .commit}
  | .commit => reply.done?.map fun _ => {s with sent := s.sent + 1, spins := 0, pc := .receive}
  | .receive => reply.frame?.map fun f =>
    if f = [] then spin s
    else if p.kHwTs then classify p s f 0
    else {s with pc := .arrival f}
  | .arrival f => reply.time?.map fun t => classify p s f t
  | .releaseEcho t2 => reply.done?.map fun _ =>
    if p.kHwTs then {s with pc := .pollStamp} else recordCycles s t2
  | .pollStamp => reply.stamp?.map fun stamp => joinStamp s stamp
  | .rxStamp minor => reply.word?.map fun rx => {s with pc := .push (.hardware rx minor)}
  | .push _ => reply.flag?.map fun ok =>
    endRound true {s with pushFailures := if ok then s.pushFailures else s.pushFailures + 1,
                          recorded := s.recorded + 1}
  | .releaseOther => reply.done?.map fun _ => spin s
  | .spinStop => reply.flag?.map fun stop => if stop then endRound false s else {s with pc := .spinTime}
  | .spinTime => reply.time?.map fun t =>
    if p.timeoutCyc ≤ t - s.t1 then endRound false s else {s with pc := .receive}
  | .finish => reply.flag?.map fun ok => {s with pc := if ok then .returned else .finish}
  | .returned => none

def phase (s : State) : Phase :=
  match s.pc with
  | .finish => .finishing
  | .returned => .returned
  | _ => .sampling

def stamps (s : State) : Option Stamps :=
  match s.pc with
  | .push stamps => some stamps
  | _ => none

private theorem phase_eq_returned (s : State) : phase s = .returned ↔ s.pc = .returned := by
  unfold phase
  split <;> simp_all

private theorem spin_pc (s : State) : (spin s).pc ≠ .returned := by
  unfold spin
  dsimp only
  split <;> simp

private theorem classify_pc (p : Setting) (s : State) (frame : List Byte) (t2 : BitVec 64) :
    (classify p s frame t2).pc ≠ .returned := by
  unfold classify
  dsimp only
  split <;> simp

private theorem recordCycles_pc (s : State) (t2 : BitVec 64) : (recordCycles s t2).pc ≠ .returned := by
  unfold recordCycles
  split <;> simp [endRound]

private theorem joinStamp_pc (s : State) (stamp : Option TxStamp) : (joinStamp s stamp).pc ≠ .returned := by
  unfold joinStamp
  cases stamp with
  | none => dsimp only; split <;> simp [endRound]
  | some txTs => dsimp only; split_ifs <;> simp [endRound]

theorem next_sampling (p : Setting) (s : State) (reply : Reply) (t : State) (sampling : phase s = .sampling)
    (moved : next p s reply = some t) : phase t ≠ .returned := by
  rw [Ne,phase_eq_returned]
  rcases s with ⟨pc,start,loopTsc,t1,seq,txSeq,spins,nextSend,sent,recorded,timeouts,warmup,missing,failures⟩
  cases pc <;> simp only [next,Option.map_eq_some_iff] at moved
  case returned => contradiction
  case finish => contradiction
  all_goals obtain ⟨value,_,rfl⟩ := moved
  case arrival => apply classify_pc
  case pollStamp => apply joinStamp_pc
  case releaseOther => apply spin_pc
  case releaseEcho =>
    split
    · simp
    · apply recordCycles_pc
  case receive =>
    split_ifs
    · apply spin_pc
    · apply classify_pc
    · simp
  case spinStop | spinTime =>
    split
    · simp [endRound]
    · simp
  case push => simp [endRound]
  all_goals first | (split_ifs <;> simp) | simp

theorem next_finishing (p : Setting) (s : State) (reply : Reply) (t : State) (finishing : phase s = .finishing)
    (moved : next p s reply = some t) :
    ∃ taken, reply = .flag taken ∧ phase t = if taken then .returned else .finishing := by
  have here : s.pc = .finish := by unfold phase at finishing; split at finishing <;> simp_all
  simp only [next,here,Option.map_eq_some_iff] at moved
  obtain ⟨taken,read,rfl⟩ := moved
  exact ⟨taken,Reply.flag?_eq_some read,by cases taken <;> rfl⟩

def producer (p : Setting) : Producer State where
  call := call p
  next := next p
  phase := phase
  stamps := stamps
  offers := by
    rintro ⟨pc,_⟩ sample sampling offered
    cases pc <;> simp_all [call,stamps,phase]
  holds := by
    rintro ⟨pc,_⟩ pair held
    cases pc <;> simp_all [call,stamps,phase]
  samples := next_sampling p
  marks := by
    rintro ⟨pc,_⟩ finishing
    cases pc <;> simp_all [call,phase]
  retries := next_finishing p
  silent := by
    rintro ⟨pc,_⟩ returned
    cases pc <;> simp_all [call,phase]

end Abtrda3.Client
