import Abtrda3.LossAccounting
import Abtrda3.OneWayFrame
import Abtrda3.SampleConservation

/-! The one-way benchmark `Bench::run` as a whole: transmitter, network, receiver, queue and
recorder, with one clock, the done flag and the stop token between them. The network keeps
all that was sent and hands out any copy of it at any time, padded or not, or a frame of
somebody else; what it never hands out is lost. The clock, the flag, the token and the queue
answer the calls made on them. What was stamped when, and when the frames that the sequence
gate let through landed, is kept beside the state. -/
namespace Abtrda3.OneWayBench
open Abtrda3.Application Abtrda3.Semantics Abtrda3.Semantics.Machine Abtrda3.RecorderStream Abtrda3.RecorderShutdown
open Abtrda3.LossAccounting (Log Trace Tracked Numbered fromSender judge)

structure Setting where
  tx : TxThread.Setting
  hist : HistThread.Setting

def Setting.receiver (p : Setting) : Producer SingleRecorder.State := SingleRecorder.producer p.tx.cfg

/-- A frame that was let through: its number, when it was stamped and when it landed. -/
structure Flight where
  number : Nat
  sent : Nat
  landed : Nat
  deriving DecidableEq, Repr

def Flight.sample (flight : Flight) : BitVec 64 := BitVec.ofNat 64 (flight.landed - flight.sent)

structure Bench where
  clock : Nat
  sender : OneWayFrame.World
  stream : System SingleRecorder.State
  stamped : Nat
  times : List Nat
  arriving : Nat
  landed : Nat
  log : Log
  flights : List Flight

def start (p : Setting) (clock : Nat) (deadline : Timespec) : Bench :=
  ⟨clock,OneWayFrame.start p.tx deadline,RecorderStream.init SingleRecorder.start p.tx.cfg.recQueueCapacity,0,[],0,0,
    ⟨[],[]⟩,[]⟩

inductive Event
  | tick (cycles : Nat)
  | sender (free : Option Nat)
  | deliver (number : Nat) (padding : List Byte)
  -- Nothing at all, or a frame that fails the checks of the receiver.
  | other (frame : List Byte)
  -- A look at the flag may come before the store to it is seen.
  | receiver (seen : Bool)
  | hist (answer : HistThread.Reply)
  | requestStop
  deriving DecidableEq, Repr

namespace Bench

def trace (b : Bench) : Trace := ⟨b.stream.producer,b.arriving,b.log⟩

def choice (p : Setting) (b : Bench) (free : Option Nat) : OneWayFrame.Choice :=
  match TxThread.call p.tx b.sender.thread with
  | some .now => .answer (.time (BitVec.ofNat 64 b.clock))
  | some .stopRequested => .answer (.flag b.stream.stop)
  | some (.acquire _) => .slot free
  | _ => .answer .done

def reply (b : Bench) (seen : Bool) : Option Reply :=
  match SingleRecorder.call b.stream.producer with
  | some .now => some (.time (BitVec.ofNat 64 b.clock))
  | some .txDone => some (.flag (seen && b.sender.thread.txDone))
  | some .tryReceive => none
  | some _ => some .done
  | none => none

def letThrough (b : Bench) : List Flight :=
  match b.stream.producer.pc with
  | .releaseTake seqNet _ _ =>
    if (b.stream.producer.gate.accept (htonl seqNet) b.stream.producer.counters).1 then
      [⟨b.arriving,b.times.getD b.arriving 0,b.landed⟩]
    else []
  | _ => []

end Bench

def stepSender (p : Setting) (b : Bench) (free : Option Nat) : Option Bench :=
  (OneWayFrame.step p.tx b.sender (b.choice p free)).map fun sender =>
    {b with sender := sender,
            stamped := if b.sender.thread.pc = .sendTime then b.clock else b.stamped,
            times := if b.sender.thread.pc = .commit then b.times ++ [b.stamped] else b.times}

def poll (p : Setting) (b : Bench) (number : Nat) (frame : List Byte) : Option Bench :=
  if SingleRecorder.call b.stream.producer = some .tryReceive then
    (stepProducer p.receiver b.stream (.frame frame)).map fun stream => {b with stream := stream, arriving := number}
  else none

def stepReceiver (p : Setting) (b : Bench) (seen : Bool) : Option Bench :=
  (b.reply seen).bind fun reply => (stepProducer p.receiver b.stream reply).map fun stream =>
    {b with stream := stream,
            landed := if SingleRecorder.call b.stream.producer = some .now then b.clock else b.landed,
            log := judge b.trace, flights := b.flights ++ b.letThrough}

def step (p : Setting) (b : Bench) : Event → Option Bench
  | .tick cycles => some {b with clock := b.clock + cycles}
  | .sender free => stepSender p b free
  | .deliver number padding => b.sender.sent[number]?.bind fun entry => poll p b number (entry.frame ++ padding)
  | .other frame => if fromSender p.tx.cfg frame = false then poll p b b.arriving frame else none
  | .receiver seen => stepReceiver p b seen
  | .hist answer => (stepHist p.hist b.stream answer).map fun stream => {b with stream := stream}
  | .requestStop => some {b with stream := {b.stream with stop := true}}

/-- No frame comes 2^31 numbers late or after 2^31 were lost in a row. -/
def Timely (b : Bench) : Event → Prop
  | .deliver number _ => b.log.Near number
  | _ => True

instance (b : Bench) : (event : Event) → Decidable (Timely b event)
  | .deliver number _ => inferInstanceAs (Decidable (b.log.Near number))
  | .tick _ | .sender _ | .other _ | .receiver _ | .hist _ | .requestStop => isTrue trivial

variable {p : Setting} {since : Nat} {b c : Bench} {event : Event}

section Sender

theorem sender_cases {w next : OneWayFrame.World} {choice : OneWayFrame.Choice}
    (moved : OneWayFrame.step p.tx w choice = some next) :
    (w.thread.pc = .sendTime ∧ ∃ now, choice = .answer (.time now) ∧
      next = {w with thread := {w.thread with t0 := now, pc := .storeStamp}}) ∨
    (w.thread.pc = .commit ∧
      next = {w with thread := {w.thread with seq := w.thread.seq + 1, pc := .loopTime},
                     sent := w.sent ++ [⟨w.thread.seq,w.thread.t0,w.ring.frame⟩]}) ∨
    (w.thread.pc ≠ .sendTime ∧ w.thread.pc ≠ .commit ∧ next.sent = w.sent ∧ next.thread.seq = w.thread.seq ∧
      next.thread.t0 = w.thread.t0 ∧ (next.thread.pc = .commit → w.thread.pc = .storeStamp) ∧
      next.thread.pc ≠ .storeStamp ∧
      (next.thread.pc = .returned ∧ next.thread.txDone = true ∨
        next.thread.pc ≠ .returned ∧ next.thread.txDone = w.thread.txDone)) := by
  obtain ⟨⟨pc,first,seq,t0,nextSend,txDone⟩,ring,sent⟩ := w
  cases pc <;> cases choice <;>
    simp only [OneWayFrame.step,TxThread.call,OneWayFrame.resume,TxThread.next,Reply.time?,Reply.flag?,Reply.done?,
      Option.map_some,Option.some.injEq,Option.map_eq_some_iff,reduceCtorEq] at moved
  case sendTime.answer answer =>
    obtain ⟨_,⟨now,timed,rfl⟩,rfl⟩ := moved
    refine .inl ⟨rfl,now,?_,rfl⟩
    cases answer <;> cases timed
    rfl
  case commit.answer =>
    subst moved
    exact .inr (.inl ⟨rfl,rfl⟩)
  case acquire.slot free =>
    subst moved
    cases free <;> simp
  case loopTime.answer =>
    obtain ⟨_,⟨now,_,rfl⟩,rfl⟩ := moved
    split_ifs <;> simp [TxThread.leave]
  case stopCheck.answer =>
    obtain ⟨_,⟨stop,_,rfl⟩,rfl⟩ := moved
    split_ifs <;> simp [TxThread.leave]
  all_goals first
    | (subst moved; simp)
    | (obtain ⟨_,⟨_,_,rfl⟩,rfl⟩ := moved; simp)

/-- The transmitter numbers what it sends from zero on and stamps it with the clock. -/
structure Sending (p : Setting) (since : Nat) (b : Bench) : Prop where
  frames : OneWayFrame.Inv p.tx.cfg b.sender
  seq : b.sender.thread.seq = BitVec.ofNat 32 b.sender.sent.length
  numbers : ∀ number entry, b.sender.sent[number]? = some entry → entry.seq = BitVec.ofNat 32 number
  stamps : b.sender.sent.map OneWayFrame.Sent.stamp = b.times.map (BitVec.ofNat 64)
  stamping : b.sender.thread.pc = .storeStamp ∨ b.sender.thread.pc = .commit →
    b.sender.thread.t0 = BitVec.ofNat 64 b.stamped ∧ since ≤ b.stamped ∧ b.stamped ≤ b.clock
  past : ∀ time ∈ b.times, since ≤ time ∧ time ≤ b.clock
  began : since ≤ b.clock
  done : b.sender.thread.txDone = true ↔ b.sender.thread.pc = .returned

theorem Sending.start (p : Setting) (long : kFrameMinBytes ≤ p.tx.cfg.frameSize.toNat) (clock : Nat) (deadline : Timespec) :
    Sending p clock (start p clock deadline) := by
  have waiting : TxThread.start p.tx deadline = ⟨.startTime,0,0,0,deadline,false⟩ := if_neg (Nat.not_lt.mpr long)
  refine ⟨OneWayFrame.Inv.start long deadline,?_,fun _ _ found => (nomatch found),rfl,?_,fun _ none => (nomatch none),
    Nat.le_refl _,?_⟩ <;> unfold OneWayBench.start OneWayFrame.start <;> rw [waiting]
  · rfl
  · exact fun here => here.elim nofun nofun
  · exact ⟨nofun,nofun⟩

theorem Sending.time (sending : Sending p since b) {number : Nat} {entry : OneWayFrame.Sent}
    (found : b.sender.sent[number]? = some entry) :
    ∃ time, b.times[number]? = some time ∧ entry.stamp = BitVec.ofNat 64 time ∧ since ≤ time ∧ time ≤ b.clock := by
  have same := congrArg (fun list => list[number]?) sending.stamps
  simp only [List.getElem?_map,found,Option.map_some] at same
  obtain ⟨time,here,stamp⟩ := Option.map_eq_some_iff.mp same.symm
  exact ⟨time,here,stamp.symm,sending.past time (List.mem_of_getElem? here)⟩

theorem Sending.tick (sending : Sending p since b) (cycles : Nat) : Sending p since {b with clock := b.clock + cycles} where
  frames := sending.frames
  seq := sending.seq
  numbers := sending.numbers
  stamps := sending.stamps
  stamping := by
    intro here
    obtain ⟨same,after,before⟩ := sending.stamping here
    exact ⟨same,after,Nat.le_add_right_of_le before⟩
  past := fun time listed => ⟨(sending.past time listed).1,Nat.le_add_right_of_le (sending.past time listed).2⟩
  began := Nat.le_add_right_of_le sending.began
  done := sending.done

/-- A step of the transmitter adds to what was sent and stamped, and is its last once it returns. -/
structure Grows (b c : Bench) : Prop where
  sent : b.sender.sent <+: c.sender.sent
  times : b.times <+: c.times
  clock : b.clock ≤ c.clock
  ended : b.sender.thread.pc = .returned → c.sender.thread.pc = .returned

theorem Sending.undone (sending : Sending p since b) (going : b.sender.thread.pc ≠ .returned) :
    b.sender.thread.txDone ≠ true := fun done => going (sending.done.mp done)

theorem Sending.sender (long : kFrameMinBytes ≤ p.tx.cfg.frameSize.toNat) (sending : Sending p since b)
    {free : Option Nat} (moved : stepSender p b free = some c) : Sending p since c := by
  obtain ⟨next,went,rfl⟩ := Option.map_eq_some_iff.mp moved
  have frames := sending.frames.moves long (OneWayFrame.step_moves went)
  rcases sender_cases went with ⟨here,now,chosen,rfl⟩ | ⟨here,rfl⟩ | ⟨away,idle,sent,seq,t0,toCommit,notStamp,ends⟩
  · -- The stamp is what the clock shows.
    have shown : now = BitVec.ofNat 64 b.clock := by
      unfold Bench.choice TxThread.call at chosen
      rw [here] at chosen
      cases chosen
      rfl
    have elsewhere : b.sender.thread.pc ≠ .commit := by rw [here]; nofun
    refine ⟨frames,sending.seq,sending.numbers,?_,fun _ => ?_,?_,sending.began,?_⟩
    · rw [if_neg elsewhere]
      exact sending.stamps
    · rw [if_pos here]
      exact ⟨shown,sending.began,Nat.le_refl _⟩
    · rw [if_neg elsewhere]
      exact sending.past
    · exact ⟨fun done => absurd done (sending.undone (by rw [here]; nofun)),nofun⟩
  · obtain ⟨stamp,after,before⟩ := sending.stamping (.inr here)
    refine ⟨frames,?_,?_,?_,?_,?_,sending.began,?_⟩
    · dsimp only
      rw [sending.seq,List.length_append,List.length_singleton,BitVec.ofNat_add]
      rfl
    · intro number entry found
      rcases log_snoc_cases found with old | ⟨last,rfl⟩
      · exact sending.numbers number entry old
      · rw [last]
        exact sending.seq
    · rw [if_pos here,List.map_append,List.map_append,sending.stamps,List.map_singleton,List.map_singleton,stamp]
    · exact fun here => here.elim nofun nofun
    · rw [if_pos here]
      intro time listed
      rcases List.mem_append.mp listed with old | new
      · exact sending.past time old
      · rw [List.mem_singleton.mp new]
        exact ⟨after,before⟩
    · exact ⟨fun done => absurd done (sending.undone (by rw [here]; nofun)),nofun⟩
  · refine ⟨frames,?_,?_,?_,?_,?_,sending.began,?_⟩
    · dsimp only
      rw [seq,sent,sending.seq]
    · dsimp only
      rw [sent]
      exact sending.numbers
    · rw [if_neg idle]
      exact sent ▸ sending.stamps
    · rw [if_neg away]
      rintro (stamping | committing)
      · exact absurd stamping notStamp
      · rw [t0]
        exact sending.stamping (.inl (toCommit committing))
    · rw [if_neg idle]
      exact sending.past
    · rcases ends with ⟨ended,told⟩ | ⟨going,same⟩
      · exact ⟨fun _ => ended,fun _ => told⟩
      · refine ⟨fun done => ?_,fun ended => absurd ended going⟩
        have before := sending.done.mp (same.symm.trans done)
        unfold OneWayFrame.step TxThread.call at went
        rw [before] at went
        cases went

private theorem grows_sender {free : Option Nat} (moved : stepSender p b free = some c) : Grows b c := by
  obtain ⟨next,went,rfl⟩ := Option.map_eq_some_iff.mp moved
  refine ⟨?_,?_,Nat.le_refl _,fun ended => ?_⟩
  · rcases sender_cases went with ⟨_,_,_,rfl⟩ | ⟨_,rfl⟩ | ⟨_,_,sent,_⟩
    · exact List.prefix_rfl
    · exact List.prefix_append _ _
    · exact sent ▸ List.prefix_rfl
  · dsimp only
    split
    · exact List.prefix_append _ _
    · exact List.prefix_rfl
  · unfold OneWayFrame.step TxThread.call at went
    rw [ended] at went
    cases went

end Sender

section Receiver

/-- A step of the receiver offers its sample to the queue, or is answered outside of it; only
the end marker may find the queue full. -/
theorem stepProducer_receiver {s t : System SingleRecorder.State} {reply : Reply}
    (moved : stepProducer p.receiver s reply = some t) :
    (∃ pair ok, s.producer.pc = .push pair ∧ SingleRecorder.next p.tx.cfg s.producer (.flag ok) = some t.producer ∧
      t.accepted = s.accepted ++ if ok then [pair.sample] else []) ∨
    ((∀ pair, s.producer.pc ≠ .push pair) ∧ t.accepted = s.accepted ∧
      ∃ answer, (answer = reply ∨ s.producer.pc = .finish ∧ ∃ ok, answer = .flag ok) ∧
        SingleRecorder.next p.tx.cfg s.producer answer = some t.producer) := by
  unfold stepProducer at moved
  cases here : s.producer.pc <;>
    simp only [Setting.receiver,SingleRecorder.producer,SingleRecorder.call,here,Option.bind_some,Call.sample?,
      reduceCtorEq,if_false,Option.bind_none] at moved
  case push pair =>
    split at moved
    · obtain ⟨producer,went,rfl⟩ := Option.map_eq_some_iff.mp moved
      have sampling : SingleRecorder.phase s.producer = .sampling := by rw [SingleRecorder.phase,here]
      exact .inl ⟨pair,true,rfl,went,if_pos sampling⟩
    · obtain ⟨producer,went,rfl⟩ := Option.map_eq_some_iff.mp moved
      exact .inl ⟨pair,false,rfl,went,(List.append_nil _).symm⟩
  case finish =>
    have finishing : SingleRecorder.phase s.producer ≠ .sampling := by simp [SingleRecorder.phase,here]
    split at moved
    · obtain ⟨producer,went,rfl⟩ := Option.map_eq_some_iff.mp moved
      exact .inr ⟨by simp,if_neg finishing,_,.inr ⟨rfl,_,rfl⟩,went⟩
    · obtain ⟨producer,went,rfl⟩ := Option.map_eq_some_iff.mp moved
      exact .inr ⟨by simp,rfl,_,.inr ⟨rfl,_,rfl⟩,went⟩
  all_goals
    obtain ⟨producer,went,rfl⟩ := Option.map_eq_some_iff.mp moved
    exact .inr ⟨by simp,rfl,_,.inl rfl,went⟩

private theorem nothing_noted (away : ∀ seqNet t0 t1, b.stream.producer.pc ≠ .releaseTake seqNet t0 t1) :
    judge b.trace = b.log ∧ b.letThrough = [] := by
  unfold judge Bench.letThrough Bench.trace
  constructor
  · dsimp only
    split
    · next here => exact absurd here (away _ _ _)
    · rfl
  · split
    · next here => exact absurd here (away _ _ _)
    · rfl

theorem take_cases (s : SingleRecorder.State) (seqNet : BitVec 32) (t0 t1 : BitVec 64) :
    (SingleRecorder.take s seqNet t0 t1).pc = .poll ∨
    ((s.gate.accept (htonl seqNet) s.counters).1 = true ∧ kWarmupDiscard ≤ s.warmupSeen ∧
      (SingleRecorder.take s seqNet t0 t1).pc = .push (.cycles t1 t0)) := by
  unfold SingleRecorder.take
  rcases s.gate.accept (htonl seqNet) s.counters with ⟨passed,gate,counters⟩
  cases passed with
  | false => exact .inl rfl
  | true =>
    rcases SingleRecorder.inWarmup_cases {s with gate := gate, counters := counters, pc := .poll} with
      ⟨past,same⟩ | ⟨_,same⟩ | ⟨_,same⟩ <;> dsimp only <;> rw [same]
    · exact .inr ⟨rfl,past,rfl⟩
    · exact .inl rfl
    · exact .inl rfl

def Place (p : Setting) (since : Nat) (b : Bench) : SingleRecorder.Pc → Prop
  | .arrival frame => fromSender p.tx.cfg frame = true → ∃ time, b.times[b.arriving]? = some time ∧
    loadU64 frame kOffTxStamp = BitVec.ofNat 64 time ∧ since ≤ time ∧ time ≤ b.clock
  | .releaseTake _ t0 t1 => ∃ time, b.times[b.arriving]? = some time ∧ t0 = BitVec.ofNat 64 time ∧
    t1 = BitVec.ofNat 64 b.landed ∧ since ≤ time ∧ time ≤ b.landed ∧ b.landed ≤ b.clock
  | .push pair => ∃ flight, b.flights.getLast? = some flight ∧
    pair = .cycles (BitVec.ofNat 64 flight.landed) (BitVec.ofNat 64 flight.sent) ∧ kWarmupDiscard < b.flights.length
  | .finish | .returned => b.sender.thread.pc = .returned
  | _ => True

def settled (b : Bench) : List Flight :=
  match b.stream.producer.pc with
  | .push _ => b.flights.dropLast
  | _ => b.flights

structure Receiving (p : Setting) (since : Nat) (b : Bench) : Prop where
  tracked : Tracked p.tx.cfg b.trace
  place : Place p since b b.stream.producer.pc
  numbers : b.flights.map Flight.number = b.log.accepted
  flown : ∀ flight ∈ b.flights, b.times[flight.number]? = some flight.sent ∧ since ≤ flight.sent ∧
    flight.sent ≤ flight.landed ∧ flight.landed ≤ b.clock
  samples : b.stream.accepted.Sublist (((settled b).drop kWarmupDiscard).map Flight.sample)

theorem Receiving.start (p : Setting) (clock : Nat) (deadline : Timespec) : Receiving p clock (start p clock deadline) where
  tracked := .begin p.tx.cfg
  place := trivial
  numbers := rfl
  flown := fun _ none => nomatch none
  samples := List.Sublist.refl []

theorem Place.grows (grows : Grows b c) (same : c.arriving = b.arriving ∧ c.landed = b.landed ∧ c.flights = b.flights)
    {pc : SingleRecorder.Pc} (place : Place p since b pc) : Place p since c pc := by
  obtain ⟨arriving,landed,flights⟩ := same
  cases pc with
  | arrival frame =>
    intro ours
    obtain ⟨time,here,stamp,after,before⟩ := place ours
    exact ⟨time,arriving ▸ log_of_isPrefix grows.times here,stamp,after,before.trans grows.clock⟩
  | releaseTake seqNet t0 t1 =>
    obtain ⟨time,here,sent,arrived,after,between,before⟩ := place
    rw [← landed] at arrived between before
    exact ⟨time,arriving ▸ log_of_isPrefix grows.times here,sent,arrived,after,between,before.trans grows.clock⟩
  | push pair =>
    unfold Place
    rw [flights]
    exact place
  | finish | returned => exact grows.ended place
  | poll | doneCheck | releaseDrop => trivial

theorem Receiving.grows (receiving : Receiving p since b) (grows : Grows b c) (trace : c.trace = b.trace)
    (same : c.landed = b.landed ∧ c.flights = b.flights) (accepted : c.stream.accepted = b.stream.accepted) :
    Receiving p since c := by
  obtain ⟨landed,flights⟩ := same
  have producer : c.stream.producer = b.stream.producer := congrArg Trace.recorder trace
  have arriving : c.arriving = b.arriving := congrArg Trace.arriving trace
  have log : c.log = b.log := congrArg Trace.log trace
  refine ⟨trace ▸ receiving.tracked,?_,?_,?_,?_⟩
  · rw [producer]
    exact receiving.place.grows grows ⟨arriving,landed,flights⟩
  · rw [flights,log]
    exact receiving.numbers
  · rw [flights]
    intro flight listed
    obtain ⟨here,after,between,before⟩ := receiving.flown flight listed
    exact ⟨log_of_isPrefix grows.times here,after,between,before.trans grows.clock⟩
  · unfold settled
    rw [accepted,producer,flights]
    exact receiving.samples

theorem carried {seq : BitVec 32} {stamp : BitVec 64} {frame : List Byte} (long : kFrameMinBytes ≤ p.tx.cfg.frameSize.toNat)
    (carries : OneWayFrame.Carries p.tx.cfg seq stamp frame) (padding : List Byte)
    (ours : fromSender p.tx.cfg (frame ++ padding) = true) :
    loadU32 (frame ++ padding) kOffSeq = htonl seq ∧ loadU64 (frame ++ padding) kOffTxStamp = stamp := by
  have read := carries.decodes long SingleRecorder.start 0 padding
  rcases LossAccounting.examine_cases p.tx.cfg SingleRecorder.start (frame ++ padding) 0 with ⟨not,_⟩ | ⟨_,same⟩
  · rw [ours] at not
    cases not
  · rw [same] at read
    obtain ⟨number,time⟩ := Prod.mk.inj (Option.some.inj read)
    exact ⟨by rw [← number,htonl_htonl],time⟩

theorem Receiving.poll (receiving : Receiving p since b) {number : Nat} {frame : List Byte}
    (numbered : fromSender p.tx.cfg frame = true →
      loadU32 frame kOffSeq = htonl (BitVec.ofNat 32 number) ∧ b.log.Near number)
    (stamped : fromSender p.tx.cfg frame = true → ∃ time, b.times[number]? = some time ∧
      loadU64 frame kOffTxStamp = BitVec.ofNat 64 time ∧ since ≤ time ∧ time ≤ b.clock)
    (moved : poll p b number frame = some c) : Receiving p since c := by
  obtain ⟨asked,rest⟩ := Option.ite_none_right_eq_some.mp moved
  obtain ⟨stream,went,rfl⟩ := Option.map_eq_some_iff.mp rest
  have here : b.stream.producer.pc = .poll := by
    unfold SingleRecorder.call at asked
    split at asked <;> first | assumption | cases asked
  rcases stepProducer_receiver went with ⟨pair,_,other,_⟩ | ⟨_,accepted,answer,same,next⟩
  · rw [here] at other
    cases other
  · have frameIn : answer = .frame frame := by
      rcases same with same | ⟨other,_⟩
      · exact same
      · rw [here] at other
        cases other
    subst frameIn
    have tracked : Tracked p.tx.cfg ⟨stream.producer,number,b.log⟩ := by
      apply receiving.tracked.arrive (show Numbered p.tx.cfg b.trace (.arrive number frame) from numbered)
      exact Option.map_eq_some_iff.mpr ⟨stream.producer,next,rfl⟩
    unfold SingleRecorder.next at next
    rw [here] at next
    have after := Option.some.inj next
    have quiet : ∀ pair, stream.producer.pc ≠ .push pair := by
      rw [← after]
      dsimp only
      split <;> nofun
    refine ⟨tracked,?_,receiving.numbers,receiving.flown,?_⟩
    · change Place p since _ stream.producer.pc
      rw [← after]
      dsimp only
      split
      · trivial
      · exact stamped
    · have before := receiving.samples
      have all : settled b = b.flights := by
        unfold settled
        rw [here]
      have still : settled {b with stream := stream, arriving := number} = b.flights := by
        unfold settled
        split
        · next other => exact absurd other (quiet _)
        · rfl
      rw [still,← all]
      exact accepted ▸ before

theorem Receiving.aside (receiving : Receiving p since b) {stream : System SingleRecorder.State} {landed : Nat}
    (away : ∀ seqNet t0 t1, b.stream.producer.pc ≠ .releaseTake seqNet t0 t1)
    (before : ∀ pair, b.stream.producer.pc ≠ .push pair) (after : ∀ pair, stream.producer.pc ≠ .push pair)
    (tracked : Tracked p.tx.cfg ⟨stream.producer,b.arriving,judge b.trace⟩)
    (place : Place p since {b with landed := landed} stream.producer.pc) (accepted : stream.accepted = b.stream.accepted) :
    Receiving p since {b with stream := stream, landed := landed, log := judge b.trace,
                              flights := b.flights ++ b.letThrough} := by
  obtain ⟨log,none⟩ := nothing_noted away
  rw [log] at tracked
  rw [log,none,List.append_nil]
  refine ⟨tracked,?_,receiving.numbers,receiving.flown,?_⟩
  · change Place p since _ stream.producer.pc
    cases here : stream.producer.pc <;> rw [here] at place <;> exact place
  · have all : settled b = b.flights := by
      unfold settled
      split
      · next other => exact absurd other (before _)
      · rfl
    have still : settled {b with stream := stream, landed := landed} = b.flights := by
      unfold settled
      split
      · next other => exact absurd other (after _)
      · rfl
    rw [still,← all]
    exact accepted ▸ receiving.samples

/-- The verdict of the gate: a frame let through becomes a flight, and after the warm-up its
sample is what the loop goes on to push. -/
theorem Receiving.verdict (receiving : Receiving p since b) {stream : System SingleRecorder.State} {seqNet : BitVec 32}
    {t0 t1 : BitVec 64} (here : b.stream.producer.pc = .releaseTake seqNet t0 t1)
    (tracked : Tracked p.tx.cfg ⟨stream.producer,b.arriving,judge b.trace⟩)
    (next : stream.producer = SingleRecorder.take b.stream.producer seqNet t0 t1)
    (accepted : stream.accepted = b.stream.accepted) :
    Receiving p since {b with stream := stream, log := judge b.trace, flights := b.flights ++ b.letThrough} := by
  have place := receiving.place
  rw [here] at place
  obtain ⟨time,found,sent,arrived,after,between,before⟩ := place
  have flight : b.letThrough =
      if (b.stream.producer.gate.accept (htonl seqNet) b.stream.producer.counters).1 then [⟨b.arriving,time,b.landed⟩]
      else [] := by
    unfold Bench.letThrough
    rw [here]
    dsimp only
    rw [List.getD_eq_getElem?_getD,found]
    rfl
  have log : (judge b.trace).accepted = b.log.accepted ++
      if (b.stream.producer.gate.accept (htonl seqNet) b.stream.producer.counters).1 then [b.arriving] else [] := by
    unfold judge Bench.trace
    dsimp only
    rw [here]
    dsimp only [Log.note]
    split
    · rfl
    · exact (List.append_nil _).symm
  have samples := receiving.samples
  have all : settled b = b.flights := by
    unfold settled
    rw [here]
  rw [all,← accepted] at samples
  have counted : b.flights.length = b.log.accepted.length := by rw [← receiving.numbers,List.length_map]
  refine ⟨tracked,?_,?_,?_,?_⟩
  · change Place p since _ stream.producer.pc
    rw [next]
    rcases take_cases b.stream.producer seqNet t0 t1 with idle | ⟨passed,past,pushing⟩
    · rw [idle]
      trivial
    · rw [pushing,sent,arrived,flight,if_pos passed]
      refine ⟨_,List.getLast?_concat,rfl,?_⟩
      have warm : b.stream.producer.warmupSeen = min b.log.accepted.length kWarmupDiscard := receiving.tracked.warm
      rw [List.length_append,List.length_singleton]
      omega
  · rw [log,List.map_append,receiving.numbers,flight]
    split <;> rfl
  · intro other listed
    rcases List.mem_append.mp listed with old | new
    · exact receiving.flown other old
    · rw [flight] at new
      split at new
      · cases List.mem_singleton.mp new
        exact ⟨found,after,between,before⟩
      · cases new
  · rcases take_cases b.stream.producer seqNet t0 t1 with idle | ⟨passed,_,pushing⟩
    · have grown : settled {b with stream := stream, log := judge b.trace, flights := b.flights ++ b.letThrough} =
          b.flights ++ b.letThrough := by
        unfold settled
        dsimp only
        rw [next,idle]
      rw [grown]
      refine samples.trans (List.Sublist.map _ ?_)
      exact (List.sublist_append_left b.flights b.letThrough).drop kWarmupDiscard
    · have same : settled {b with stream := stream, log := judge b.trace, flights := b.flights ++ b.letThrough} =
          b.flights := by
        unfold settled
        dsimp only
        rw [next,pushing,flight,if_pos passed]
        exact List.dropLast_concat
      rw [same]
      exact samples

theorem Flight.sample_eq {flight : Flight} (between : flight.sent ≤ flight.landed) :
    (Stamps.cycles (BitVec.ofNat 64 flight.landed) (BitVec.ofNat 64 flight.sent)).sample = flight.sample := by
  change BitVec.ofNat 64 flight.landed - BitVec.ofNat 64 flight.sent = BitVec.ofNat 64 (flight.landed - flight.sent)
  rw [BitVec.sub_eq_iff_eq_add,← BitVec.ofNat_add,Nat.sub_add_cancel between]

theorem Receiving.pushed (receiving : Receiving p since b) {stream : System SingleRecorder.State} {pair : Stamps}
    {ok : Bool}
    (here : b.stream.producer.pc = .push pair) (tracked : Tracked p.tx.cfg ⟨stream.producer,b.arriving,judge b.trace⟩)
    (next : stream.producer.pc = .poll)
    (accepted : stream.accepted = b.stream.accepted ++ if ok then [pair.sample] else []) :
    Receiving p since {b with stream := stream, log := judge b.trace, flights := b.flights ++ b.letThrough} := by
  obtain ⟨log,none⟩ := nothing_noted (b := b) (by rw [here]; nofun)
  have place := receiving.place
  rw [here] at place
  obtain ⟨flight,last,rfl,warm⟩ := place
  obtain ⟨earlier,flights⟩ := List.getLast?_eq_some_iff.mp last
  obtain ⟨_,_,between,_⟩ := receiving.flown flight (List.mem_of_getLast? last)
  rw [log] at tracked
  rw [log,none,List.append_nil]
  refine ⟨tracked,?_,receiving.numbers,receiving.flown,?_⟩
  · change Place p since _ stream.producer.pc
    rw [next]
    trivial
  · have samples := receiving.samples
    have some : settled b = earlier := by
      unfold settled
      rw [here,flights]
      exact List.dropLast_concat
    have all : settled {b with stream := stream} = earlier ++ [flight] := by
      unfold settled
      dsimp only
      rw [next,flights]
    rw [some] at samples
    rw [flights,List.length_append,List.length_singleton] at warm
    rw [all,List.drop_append_of_le_length (Nat.le_of_lt_succ warm),List.map_append]
    change stream.accepted.Sublist _
    rw [accepted]
    apply samples.append
    split
    · rw [Flight.sample_eq between]
      exact List.Sublist.refl _
    · exact List.nil_sublist _

theorem Receiving.receiver (receiving : Receiving p since b) (sending : Sending p since b) {seen : Bool}
    (moved : stepReceiver p b seen = some c) : Receiving p since c := by
  obtain ⟨reply,replied,rest⟩ := Option.bind_eq_some_iff.mp moved
  obtain ⟨stream,went,rfl⟩ := Option.map_eq_some_iff.mp rest
  have traced {answer : Reply} (bare : answer.frame? = none)
      (next : SingleRecorder.next p.tx.cfg b.stream.producer answer = some stream.producer) :
      Tracked p.tx.cfg ⟨stream.producer,b.arriving,judge b.trace⟩ :=
    receiving.tracked.reply (LossAccounting.numbered_reply p.tx.cfg b.trace bare)
      (Option.map_eq_some_iff.mpr ⟨stream.producer,next,rfl⟩)
  rcases stepProducer_receiver went with ⟨pair,ok,here,next,accepted⟩ | ⟨quiet,accepted,answer,same,next⟩
  · have notNow : SingleRecorder.call b.stream.producer ≠ some .now := by simp [SingleRecorder.call,here]
    rw [if_neg notNow]
    apply receiving.pushed here (traced rfl next) _ accepted
    unfold SingleRecorder.next at next
    rw [here] at next
    rw [← Option.some.inj next]
  · cases here : b.stream.producer.pc <;>
      simp only [Bench.reply,SingleRecorder.call,here,Option.some.injEq,reduceCtorEq,false_and,or_false,true_and,if_true,
        if_false] at replied same ⊢
    case push pair => exact absurd here (quiet pair)
    all_goals subst replied
    case finish =>
      obtain rfl | ⟨ok,rfl⟩ := same
      · simp only [SingleRecorder.next,here,Reply.flag?,Option.map_none,reduceCtorEq] at next
      · have tracked := traced rfl next
        simp only [SingleRecorder.next,here,Reply.flag?,Option.map_some,Option.some.injEq] at next
        have place := receiving.place
        rw [here] at place
        apply receiving.aside (by simp [here]) quiet _ tracked _ accepted <;> rw [← next] <;> dsimp only
        · split <;> simp
        · split <;> exact place
    all_goals
      subst same
      have tracked := traced rfl next
      simp only [SingleRecorder.next,here,Reply.flag?,Reply.time?,Reply.done?,Option.map_some,Option.some.injEq] at next
    case releaseTake => exact receiving.verdict here tracked next.symm accepted
    all_goals refine receiving.aside (by simp [here]) quiet ?_ tracked ?_ accepted
    case releaseDrop.refine_1 => simp [← next]
    case releaseDrop.refine_2 =>
      rw [← next]
      trivial
    case doneCheck.refine_1 =>
      rw [← next]
      split_ifs <;> simp
    case doneCheck.refine_2 =>
      rw [← next]
      split_ifs with done
      · exact sending.done.mp ((Bool.and_eq_true _ _).mp done).2
      · trivial
      · trivial
    case arrival.refine_1 frame =>
      rcases LossAccounting.examine_cases p.tx.cfg b.stream.producer frame (BitVec.ofNat 64 b.clock) with
        ⟨_,looked⟩ | ⟨_,looked⟩ <;> simp [← next,looked]
    case arrival.refine_2 frame =>
      have place := receiving.place
      rw [here] at place
      rcases LossAccounting.examine_cases p.tx.cfg b.stream.producer frame (BitVec.ofNat 64 b.clock) with
        ⟨_,looked⟩ | ⟨ours,looked⟩ <;> rw [← next,looked]
      · trivial
      · obtain ⟨time,found,stamp,after,before⟩ := place ours
        exact ⟨time,found,stamp,rfl,after,before,Nat.le_refl _⟩

end Receiver

section Whole

open SampleConservation (Balanced recorderTally step_balanced)

structure Inv (p : Setting) (since : Nat) (b : Bench) : Prop where
  sending : Sending p since b
  receiving : Receiving p since b
  consistent : Consistent p.receiver p.hist b.stream
  balanced : Balanced (recorderTally p.tx.cfg) b.stream
  clean : b.clock < since + (2^64 - 1) → Clean b.stream

theorem Inv.start (p : Setting) (long : kFrameMinBytes ≤ p.tx.cfg.frameSize.toNat) (clock : Nat) (deadline : Timespec) :
    Inv p clock (start p clock deadline) where
  sending := .start p long clock deadline
  receiving := .start p clock deadline
  consistent := init_consistent p.receiver p.hist SingleRecorder.start _ rfl
  balanced := ⟨fun _ => ⟨rfl,rfl,rfl⟩,rfl⟩
  clean := fun _ => List.not_mem_nil

theorem Inv.not_collides (inv : Inv p since b) (short : b.clock < since + (2^64 - 1)) {pair : Stamps}
    (here : b.stream.producer.pc = .push pair) : ¬ pair.Collides := by
  have place := inv.receiving.place
  rw [here] at place
  obtain ⟨flight,last,rfl,_⟩ := place
  obtain ⟨_,after,between,before⟩ := inv.receiving.flown flight (List.mem_of_getLast? last)
  rw [← sample_eq_endSentinel_iff,Flight.sample_eq between]
  intro marked
  have value := congrArg BitVec.toNat marked
  change (flight.landed - flight.sent) % 2^64 = 2^64 - 1 at value
  rw [Nat.mod_eq_of_lt (by omega)] at value
  omega

theorem Inv.stampsValid (inv : Inv p since b) (short : b.clock < since + (2^64 - 1)) (event : RecorderStream.Event) :
    StampsValid p.receiver b.stream event := by
  cases event with
  | hist answer => trivial
  | requestStop => trivial
  | producer answer =>
    intro pair held
    change SingleRecorder.stamps b.stream.producer = some pair at held
    unfold SingleRecorder.stamps at held
    split at held
    · next here =>
      cases held
      exact inv.not_collides short here
    · cases held

theorem Inv.streams (inv : Inv p since b) (event : RecorderStream.Event)
    (went : RecorderStream.step p.receiver p.hist b.stream event = some c.stream) (clock : c.clock = b.clock)
    (sending : Sending p since c) (receiving : Receiving p since c) : Inv p since c where
  sending := sending
  receiving := receiving
  consistent := step_consistent inv.consistent went
  balanced := step_balanced inv.balanced went
  clean := by
    rw [clock]
    exact fun short => step_clean (inv.clean short) (inv.stampsValid short event) went

theorem Sending.stream (sending : Sending p since b) (sender : c.sender = b.sender) (times : c.times = b.times)
    (stamped : c.stamped = b.stamped) (clock : c.clock = b.clock) : Sending p since c := by
  obtain ⟨frames,seq,numbers,stamps,stamping,past,began,done⟩ := sending
  exact ⟨sender ▸ frames,sender ▸ seq,sender ▸ numbers,sender ▸ times ▸ stamps,sender ▸ stamped ▸ clock ▸ stamping,
    times ▸ clock ▸ past,clock ▸ began,sender ▸ done⟩

theorem Inv.poll (inv : Inv p since b) {number : Nat} {frame : List Byte}
    (numbered : fromSender p.tx.cfg frame = true →
      loadU32 frame kOffSeq = htonl (BitVec.ofNat 32 number) ∧ b.log.Near number)
    (stamped : fromSender p.tx.cfg frame = true → ∃ time, b.times[number]? = some time ∧
      loadU64 frame kOffTxStamp = BitVec.ofNat 64 time ∧ since ≤ time ∧ time ≤ b.clock)
    (moved : OneWayBench.poll p b number frame = some c) : Inv p since c := by
  have receiving := inv.receiving.poll numbered stamped moved
  obtain ⟨_,rest⟩ := Option.ite_none_right_eq_some.mp moved
  obtain ⟨stream,went,rfl⟩ := Option.map_eq_some_iff.mp rest
  exact inv.streams (.producer (.frame frame)) went rfl (inv.sending.stream rfl rfl rfl rfl) receiving

theorem Inv.step (long : kFrameMinBytes ≤ p.tx.cfg.frameSize.toNat) (inv : Inv p since b) (timely : Timely b event)
    (moved : step p b event = some c) : Inv p since c := by
  cases event with
  | tick cycles =>
    cases Option.some.inj moved
    have grows : Grows b {b with clock := b.clock + cycles} :=
      ⟨List.prefix_rfl,List.prefix_rfl,Nat.le_add_right _ _,id⟩
    refine ⟨inv.sending.tick cycles,inv.receiving.grows grows rfl ⟨rfl,rfl⟩ rfl,inv.consistent,inv.balanced,?_⟩
    exact fun short => inv.clean (Nat.lt_of_le_of_lt (Nat.le_add_right _ _) short)
  | sender free =>
    have grows := grows_sender moved
    have sending := inv.sending.sender long moved
    obtain ⟨next,_,rfl⟩ := Option.map_eq_some_iff.mp moved
    exact ⟨sending,inv.receiving.grows grows rfl ⟨rfl,rfl⟩ rfl,inv.consistent,inv.balanced,inv.clean⟩
  | deliver number padding =>
    obtain ⟨entry,found,polled⟩ := Option.bind_eq_some_iff.mp moved
    have carries := inv.sending.frames.sent entry (List.mem_of_getElem? found)
    have number_ := inv.sending.numbers number entry found
    refine inv.poll (fun ours => ?_) (fun ours => ?_) polled
    · exact ⟨number_ ▸ (carried long carries padding ours).1,timely⟩
    · obtain ⟨time,here,stamp,after,before⟩ := inv.sending.time found
      exact ⟨time,here,(carried long carries padding ours).2.trans stamp,after,before⟩
  | other frame =>
    obtain ⟨foreign,polled⟩ := Option.ite_none_right_eq_some.mp moved
    have never {claim : Prop} (ours : fromSender p.tx.cfg frame = true) : claim := by
      rw [foreign] at ours
      cases ours
    exact inv.poll never never polled
  | receiver seen =>
    have receiving := inv.receiving.receiver inv.sending moved
    obtain ⟨reply,_,rest⟩ := Option.bind_eq_some_iff.mp moved
    obtain ⟨stream,went,rfl⟩ := Option.map_eq_some_iff.mp rest
    exact inv.streams (.producer reply) went rfl (inv.sending.stream rfl rfl rfl rfl) receiving
  | hist answer =>
    obtain ⟨stream,went,rfl⟩ := Option.map_eq_some_iff.mp moved
    have same : stream.producer = b.stream.producer ∧ stream.accepted = b.stream.accepted := by
      cases stepHist_action went <;> exact ⟨rfl,rfl⟩
    have grows : Grows b {b with stream := stream} := ⟨List.prefix_rfl,List.prefix_rfl,Nat.le_refl _,id⟩
    have trace : Bench.trace {b with stream := stream} = b.trace := by
      unfold Bench.trace
      rw [same.1]
    exact inv.streams (.hist answer) went rfl (inv.sending.stream rfl rfl rfl rfl)
      (inv.receiving.grows grows trace ⟨rfl,rfl⟩ same.2)
  | requestStop =>
    cases Option.some.inj moved
    have grows : Grows b {b with stream := {b.stream with stop := true}} :=
      ⟨List.prefix_rfl,List.prefix_rfl,Nat.le_refl _,id⟩
    exact inv.streams .requestStop rfl rfl (inv.sending.stream rfl rfl rfl rfl)
      (inv.receiving.grows grows rfl ⟨rfl,rfl⟩ rfl)

theorem Inv.run {clock : Nat} {deadline : Timespec} {events : List Event}
    (long : kFrameMinBytes ≤ p.tx.cfg.frameSize.toNat)
    (timely : Along (OneWayBench.step p) Timely (OneWayBench.start p clock deadline) events)
    (ran : run (OneWayBench.step p) (OneWayBench.start p clock deadline) events = some b) : Inv p clock b :=
  run_invariant (Inv p clock) (fun _ _ _ inv timely moved => inv.step long timely moved) (.start p long clock deadline)
    timely ran

/-- After the warm-up every number from its last frame on is recorded or counted as lost. -/
theorem Inv.account (inv : Inv p since b) (idle : SingleRecorder.stamps b.stream.producer = none) {first last : Flight}
    (head : b.flights[kWarmupDiscard - 1]? = some first) (here : b.flights.getLast? = some last) :
    first.number + (b.stream.producer.counters.recorded + b.stream.producer.counters.lost) = last.number := by
  have accepted : b.trace.log.accepted = b.flights.map Flight.number := inv.receiving.numbers.symm
  have size : b.trace.log.accepted.length = b.flights.length := by rw [accepted,List.length_map]
  have reached := (List.getElem?_eq_some_iff.mp head).1
  have positive : 0 < kWarmupDiscard := by decide
  have recorded := inv.receiving.tracked.recorded
  rw [show SingleRecorder.stamps b.trace.recorder = none from idle] at recorded
  have counted := inv.receiving.tracked.counted
  rw [show LossAccounting.cleared b.trace.log = kWarmupDiscard from if_neg (by omega)] at counted
  have span := LossAccounting.length_add_gaps (List.Pairwise.drop counted.sorted)
    (show first.number ∈ (b.trace.log.accepted.drop (kWarmupDiscard - 1)).head? by
      rw [List.head?_drop,accepted,List.getElem?_map,head]
      rfl)
    (show last.number ∈ (b.trace.log.accepted.drop (kWarmupDiscard - 1)).getLast? by
      rw [List.getLast?_drop,if_neg (by omega),accepted,List.getLast?_map,here]
      rfl)
  rw [← counted.lost,List.length_drop] at span
  change b.stream.producer.counters.recorded + 0 = _ at recorded
  change first.number + _ + b.stream.producer.counters.lost = _ at span
  omega

theorem Inv.left (inv : Inv p since b) (ended : SingleRecorder.phase b.stream.producer ≠ .sampling) :
    b.sender.thread.pc = .returned := by
  have place := inv.receiving.place
  unfold SingleRecorder.phase at ended
  split at ended
  · next here =>
    rw [here] at place
    exact place
  · next here =>
    rw [here] at place
    exact place
  · contradiction

def labBench : Setting := ⟨⟨⟨0x88B5,64,0,8,.localAddress 1,.localAddress 2⟩,100⟩,labHist⟩

def labFrame : List Event := List.replicate 7 (.sender (some 3)) ++ [.tick 5]

def labArrival (number : Nat) : List Event := [.deliver number [0,0],.receiver true,.receiver true,.tick 1]

def labEvents : List Event :=
  [.sender none] ++ labFrame ++ labFrame ++ labFrame ++ labArrival 0 ++ labArrival 2 ++ labArrival 1 ++ labArrival 2 ++
    [.other [0],.receiver true,.receiver true,.tick 100,.sender none,.other [],.receiver true]

end Whole

end Abtrda3.OneWayBench
