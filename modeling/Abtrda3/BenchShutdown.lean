import Abtrda3.OneWayBench

/-! How a one-way benchmark comes to its end: the transmitter runs out of time, the receiver
drains the network and puts the end marker into the queue, the recorder pops it, and the three
threads can be joined. From any state of a run that nobody stops this can still happen; once
the recorder is gone and the queue is full, it cannot. -/
namespace Abtrda3.BenchShutdown
open Abtrda3.Application Abtrda3.Semantics Abtrda3.Semantics.Machine Abtrda3.RecorderStream Abtrda3.RecorderShutdown
open Abtrda3.OneWayBench
open Abtrda3.SampleConservation (Reasoned step_reasoned)

def Reaches (p : Setting) (b c : Bench) : Prop := ∃ events, run (OneWayBench.step p) b events = some c

structure Joined (b : Bench) : Prop where
  sender : b.sender.thread.pc = .returned
  receiver : b.stream.producer.pc = .returned
  recorder : ∃ exit, b.stream.hist.pc = .returned exit

variable {p : Setting} {since : Nat} {b c d : Bench} {event : OneWayBench.Event}

theorem Reaches.refl (b : Bench) : Reaches p b b := ⟨[],rfl⟩

theorem Reaches.trans (first : Reaches p b c) (second : Reaches p c d) : Reaches p b d := by
  obtain ⟨before,ran⟩ := first
  obtain ⟨after,went⟩ := second
  exact ⟨before ++ after,run_trans ran went⟩

theorem Reaches.one (moved : OneWayBench.step p b event = some c) : Reaches p b c := ⟨[event],run_singleton moved⟩

theorem stream_cases (moved : OneWayBench.step p b event = some c) :
    c.stream = b.stream ∨ ∃ inner, RecorderStream.step p.receiver p.hist b.stream inner = some c.stream := by
  have polled {number : Nat} {frame : List Byte} (polled : poll p b number frame = some c) :
      ∃ inner, RecorderStream.step p.receiver p.hist b.stream inner = some c.stream := by
    obtain ⟨_,rest⟩ := Option.ite_none_right_eq_some.mp polled
    obtain ⟨stream,went,rfl⟩ := Option.map_eq_some_iff.mp rest
    exact ⟨.producer (.frame frame),went⟩
  cases event with
  | tick cycles =>
    cases Option.some.inj moved
    exact .inl rfl
  | sender free =>
    obtain ⟨_,_,rfl⟩ := Option.map_eq_some_iff.mp moved
    exact .inl rfl
  | deliver number padding =>
    obtain ⟨_,_,inner⟩ := Option.bind_eq_some_iff.mp moved
    exact .inr (polled inner)
  | other frame =>
    obtain ⟨_,inner⟩ := Option.ite_none_right_eq_some.mp moved
    exact .inr (polled inner)
  | receiver seen =>
    obtain ⟨reply,_,rest⟩ := Option.bind_eq_some_iff.mp moved
    obtain ⟨stream,went,rfl⟩ := Option.map_eq_some_iff.mp rest
    exact .inr ⟨.producer reply,went⟩
  | hist answer =>
    obtain ⟨stream,went,rfl⟩ := Option.map_eq_some_iff.mp moved
    exact .inr ⟨.hist answer,went⟩
  | requestStop =>
    cases Option.some.inj moved
    exact .inr ⟨.requestStop,rfl⟩

section Recorder

variable {s t : System SingleRecorder.State}

structure Pops (p : HistThread.Setting) (s t : System SingleRecorder.State) : Prop where
  ran : ∃ answers, run (stepHist p) s answers = some t
  producer : t.producer = s.producer
  accepted : t.accepted = s.accepted
  stop : t.stop = s.stop

theorem Pops.refl (p : HistThread.Setting) (s : System SingleRecorder.State) : Pops p s s := ⟨⟨[],rfl⟩,rfl,rfl,rfl⟩

theorem Pops.trans {p : HistThread.Setting} {u : System SingleRecorder.State} (first : Pops p s t) (second : Pops p t u) :
    Pops p s u := by
  obtain ⟨before,ran⟩ := first.ran
  obtain ⟨after,went⟩ := second.ran
  exact ⟨⟨before ++ after,run_trans ran went⟩,second.producer.trans first.producer,second.accepted.trans first.accepted,
    second.stop.trans first.stop⟩

theorem Pops.one {p : HistThread.Setting} {answer : HistThread.Reply} (moved : stepHist p s answer = some t) :
    Pops p s t := by
  refine ⟨⟨[answer],run_singleton moved⟩,?_,?_,?_⟩ <;> cases stepHist_action moved <;> rfl

theorem Pops.reaches (pops : Pops p.hist b.stream t) : Reaches p b {b with stream := t} := by
  obtain ⟨answers,ran⟩ := pops.ran
  refine ⟨answers.map .hist,?_⟩
  clear pops
  generalize same : b.stream = s at ran
  induction answers generalizing b s with
  | nil =>
    cases Option.some.inj ran
    rw [← same]
    rfl
  | cons answer rest ih =>
    obtain ⟨next,moved,tail⟩ := run_cons_some ran
    subst same
    rw [List.map_cons,run_cons]
    change ((stepHist p.hist b.stream answer).map fun stream => {b with stream := stream}).bind _ = _
    rw [moved]
    exact ih (b := {b with stream := next}) next rfl tail

theorem Pops.consistent {cfg : TestConfig} {p : HistThread.Setting} (pops : Pops p s t)
    (consistent : Consistent (SingleRecorder.producer cfg) p s) : Consistent (SingleRecorder.producer cfg) p t := by
  obtain ⟨answers,ran⟩ := pops.ran
  exact reachable_invariant (Consistent (SingleRecorder.producer cfg) p)
    (fun _ _ _ consistent moved => stepHist_consistent consistent moved) consistent ran

theorem reaches_front (p : HistThread.Setting) (s : System SingleRecorder.State) (running : s.stop = false)
    (draining : HistThread.exit s.hist = none) (away : ∀ cyc, s.hist.pc ≠ .pop cyc) :
    ∃ t, Pops p s t ∧ t.queue = s.queue ∧ t.hist.pc = .front := by
  obtain ⟨producer,⟨pc,startTsc,nextHb,recorded,dropped,histogram⟩,queue,stop,accepted,popped⟩ := s
  cases running
  cases pc with
  | init => exact ⟨_,⟨⟨[.flag true,.time 0,.time 0],rfl⟩,rfl,rfl,rfl⟩,rfl,rfl⟩
  | clock => exact ⟨_,⟨⟨[.time 0,.time 0],rfl⟩,rfl,rfl,rfl⟩,rfl,rfl⟩
  | heartbeat => exact ⟨_,⟨⟨[.time 0],rfl⟩,rfl,rfl,rfl⟩,rfl,rfl⟩
  | front => exact ⟨_,⟨⟨[],rfl⟩,rfl,rfl,rfl⟩,rfl,rfl⟩
  | stopCheck => exact ⟨_,⟨⟨[.done,.time 0],rfl⟩,rfl,rfl,rfl⟩,rfl,rfl⟩
  | pop cyc => exact absurd rfl (away cyc)
  | report exit => cases draining
  | returned exit => cases draining

theorem reaches_pop {cfg : TestConfig} {p : HistThread.Setting} (consistent : Consistent (SingleRecorder.producer cfg) p s)
    (running : s.stop = false) (draining : HistThread.exit s.hist = none) {cyc : BitVec 64} {rest : List (BitVec 64)}
    (items : s.queue.items = cyc::rest) :
    ∃ t, Pops p s t ∧ t.queue.items = rest ∧ t.queue.capacity = s.queue.capacity ∧
      HistThread.exit t.hist = if cyc = kEndSentinel then some .sentinel else none := by
  -- First up to the pop.
  obtain ⟨u,pops,queue,here⟩ : ∃ u, Pops p s u ∧ u.queue = s.queue ∧ u.hist.pc = .pop cyc := by
    have front : s.queue.front = some cyc := by
      unfold BoundedQueue.front
      rw [items]
      rfl
    by_cases popping : ∃ other, s.hist.pc = .pop other
    · obtain ⟨other,here⟩ := popping
      have same := (consistent.peeked other here).symm.trans front
      cases same
      exact ⟨s,Pops.refl p s,rfl,here⟩
    · obtain ⟨t,pops,queue,looking⟩ := reaches_front p s running draining (fun other here => popping ⟨other,here⟩)
      have moved : stepHist p t .done = some {t with hist := {t.hist with pc := .pop cyc}} := by
        unfold stepHist HistThread.call
        rw [looking]
        dsimp only
        rw [queue,front]
        unfold HistThread.next
        rw [looking]
        rfl
      exact ⟨_,pops.trans (.one moved),queue,rfl⟩
  by_cases marked : cyc = kEndSentinel
  · have moved : stepHist p u .done = some {u with hist := {u.hist with pc := .report .sentinel}, queue := u.queue.pop,
                                                   popped := u.popped ++ u.queue.front.toList} := by
      unfold stepHist HistThread.call
      rw [here]
      dsimp only
      unfold HistThread.next
      rw [here]
      dsimp only
      rw [if_pos marked]
      rfl
    refine ⟨_,pops.trans (.one moved),?_,?_,?_⟩
    · rw [BoundedQueue.pop_items,queue,items]
      rfl
    · rw [BoundedQueue.pop,queue]
    · rw [if_pos marked]
      rfl
  · have moved : stepHist p u .done = some {u with hist := {HistThread.record p u.hist cyc with pc := .heartbeat},
                                                   queue := u.queue.pop, popped := u.popped ++ u.queue.front.toList} := by
      unfold stepHist HistThread.call
      rw [here]
      dsimp only
      unfold HistThread.next
      rw [here]
      dsimp only
      rw [if_neg marked]
      rfl
    refine ⟨_,pops.trans (.one moved),?_,?_,?_⟩
    · rw [BoundedQueue.pop_items,queue,items]
      rfl
    · rw [BoundedQueue.pop,queue]
    · rw [if_neg marked]
      rfl

end Recorder

section Transmitter

def stepsToLoop : TxThread.Pc → Nat
  | .loopTime | .returned => 0
  | .startTime | .acquire | .commit => 1
  | .pace | .storeStamp => 2
  | .stopCheck | .sendTime => 3
  | .storeSeq => 4

private theorem sender_goes_on (b : Bench) (inside : stepsToLoop b.sender.thread.pc ≠ 0) :
    ∃ c, OneWayBench.step p b (.sender none) = some c ∧ c.stream = b.stream ∧
      stepsToLoop c.sender.thread.pc < stepsToLoop b.sender.thread.pc := by
  obtain ⟨clock,⟨⟨pc,first,seq,t0,nextSend,txDone⟩,ring,sent⟩,stream,stamped,times,arriving,landed,log,flights⟩ := b
  cases pc with
  | loopTime => exact absurd rfl inside
  | returned => exact absurd rfl inside
  | stopCheck =>
    refine ⟨_,rfl,rfl,?_⟩
    change stepsToLoop (if stream.stop = true then _ else if 0 < TxThread.intervalNs p.tx then _ else _ :
        TxThread.State).pc < 3
    split_ifs <;> simp [stepsToLoop,TxThread.leave]
  | startTime | pace | acquire | storeSeq | sendTime | storeStamp | commit =>
    refine ⟨_,rfl,rfl,?_⟩
    simp [stepsToLoop]

private theorem sender_loops (long : kFrameMinBytes ≤ p.tx.cfg.frameSize.toNat) {steps : Nat} {b : Bench}
    (sending : Sending p since b) (within : stepsToLoop b.sender.thread.pc ≤ steps) :
    ∃ c, Reaches p b c ∧ Sending p since c ∧ c.stream = b.stream ∧ stepsToLoop c.sender.thread.pc = 0 := by
  induction steps generalizing b with
  | zero => exact ⟨b,Reaches.refl b,sending,rfl,Nat.le_zero.mp within⟩
  | succ steps ih =>
    by_cases here : stepsToLoop b.sender.thread.pc = 0
    · exact ⟨b,Reaches.refl b,sending,rfl,here⟩
    · obtain ⟨next,moved,stream,closer⟩ := sender_goes_on (p := p) b here
      obtain ⟨c,reached,later,same,done⟩ :=
        ih (sending.sender long moved) (Nat.le_of_lt_succ (Nat.lt_of_lt_of_le closer within))
      exact ⟨c,(Reaches.one moved).trans reached,later,same.trans stream,done⟩

theorem sender_returns (long : kFrameMinBytes ≤ p.tx.cfg.frameSize.toNat) {b : Bench} (sending : Sending p since b) :
    ∃ c, Reaches p b c ∧ c.stream = b.stream ∧ c.sender.thread.pc = .returned ∧ c.sender.thread.txDone = true := by
  obtain ⟨c,reached,later,stream,top⟩ := sender_loops long sending (Nat.le_refl _)
  cases here : c.sender.thread.pc <;> rw [here] at top <;> cases top
  case returned => exact ⟨c,reached,stream,here,later.done.mpr here⟩
  case loopTime =>
    obtain ⟨cycles,late⟩ : ∃ cycles,
        ¬ BitVec.ofNat 64 (c.clock + cycles) - c.sender.thread.start < p.tx.durationCyc := by
      refine ⟨(c.sender.thread.start - 1 - BitVec.ofNat 64 c.clock).toNat,?_⟩
      rw [BitVec.ofNat_add,BitVec.ofNat_toNat,BitVec.setWidth_eq]
      bv_omega
    have ticked : Reaches p c {c with clock := c.clock + cycles} := ⟨[.tick _],rfl⟩
    have left : ∃ d, OneWayBench.step p {c with clock := c.clock + cycles} (.sender none) = some d ∧
        d.stream = c.stream ∧ d.sender.thread.pc = .returned ∧ d.sender.thread.txDone = true := by
      simp [OneWayBench.step,stepSender,Bench.choice,TxThread.call,here,OneWayFrame.step,OneWayFrame.resume,TxThread.next,
        Reply.time?,late,TxThread.leave]
    obtain ⟨d,moved,same,ended⟩ := left
    exact ⟨d,(reached.trans ticked).trans (.one moved),same.trans stream,ended⟩

end Transmitter

section Receiver

def stepsToPoll : SingleRecorder.Pc → Nat
  | .poll | .finish | .returned => 0
  | .doneCheck | .releaseDrop | .push _ => 1
  | .releaseTake _ _ _ => 2
  | .arrival _ => 3

private theorem receiver_goes_on (b : Bench) (inside : stepsToPoll b.stream.producer.pc ≠ 0) :
    ∃ c, OneWayBench.step p b (.receiver false) = some c ∧ c.clock = b.clock ∧ c.sender = b.sender ∧
      c.stream.hist = b.stream.hist ∧ c.stream.stop = b.stream.stop ∧
      stepsToPoll c.stream.producer.pc < stepsToPoll b.stream.producer.pc := by
  obtain ⟨clock,sender,⟨⟨pc,gate,counters,graceEmpty,warmupSeen⟩,hist,queue,stop,accepted,popped⟩,
    stamped,times,arriving,landed,log,flights⟩ := b
  cases pc with
  | poll => exact absurd rfl inside
  | finish => exact absurd rfl inside
  | returned => exact absurd rfl inside
  | doneCheck => exact ⟨_,rfl,rfl,rfl,rfl,rfl,Nat.zero_lt_one⟩
  | releaseDrop => exact ⟨_,rfl,rfl,rfl,rfl,rfl,Nat.zero_lt_one⟩
  | releaseTake seqNet t0 t1 =>
    refine ⟨_,rfl,rfl,rfl,rfl,rfl,?_⟩
    change stepsToPoll (SingleRecorder.take _ seqNet t0 t1).pc < 2
    rcases take_cases ⟨.releaseTake seqNet t0 t1,gate,counters,graceEmpty,warmupSeen⟩ seqNet t0 t1 with
      idle | ⟨_,_,pushing⟩
    · rw [idle]
      exact Nat.zero_lt_two
    · rw [pushing]
      exact Nat.one_lt_two
  | arrival frame =>
    refine ⟨_,rfl,rfl,rfl,rfl,rfl,?_⟩
    change stepsToPoll (SingleRecorder.examine p.tx.cfg _ frame _).pc < 3
    unfold SingleRecorder.examine
    split_ifs <;> simp [stepsToPoll]
  | push pair =>
    cases room : queue.tryPush pair.sample <;>
      simp [OneWayBench.step,stepReceiver,Bench.reply,SingleRecorder.call,stepProducer,Setting.receiver,
        SingleRecorder.producer,Call.sample?,room,SingleRecorder.next,Reply.flag?,stepsToPoll]

private theorem receiver_settles (long : kFrameMinBytes ≤ p.tx.cfg.frameSize.toNat) {steps : Nat} {b : Bench}
    (inv : Inv p since b)
    (within : stepsToPoll b.stream.producer.pc ≤ steps) :
    ∃ c, Reaches p b c ∧ Inv p since c ∧ c.clock = b.clock ∧ c.sender = b.sender ∧ c.stream.hist = b.stream.hist ∧
      c.stream.stop = b.stream.stop ∧ stepsToPoll c.stream.producer.pc = 0 := by
  induction steps generalizing b with
  | zero => exact ⟨b,Reaches.refl b,inv,rfl,rfl,rfl,rfl,Nat.le_zero.mp within⟩
  | succ steps ih =>
    by_cases here : stepsToPoll b.stream.producer.pc = 0
    · exact ⟨b,Reaches.refl b,inv,rfl,rfl,rfl,rfl,here⟩
    · obtain ⟨next,moved,clock,sender,hist,stop,closer⟩ := receiver_goes_on (p := p) b here
      obtain ⟨c,reached,later,clock',sender',hist',stop',done⟩ :=
        ih (inv.step long (show Timely b (.receiver false) from trivial) moved)
          (Nat.le_of_lt_succ (Nat.lt_of_lt_of_le closer within))
      exact ⟨c,(Reaches.one moved).trans reached,later,clock'.trans clock,sender'.trans sender,hist'.trans hist,
        stop'.trans stop,done⟩

structure Drains (p : Setting) (b c : Bench) : Prop where
  reaches : Reaches p b c
  sender : c.sender = b.sender
  stream : c.stream = {b.stream with producer := c.stream.producer}

theorem Drains.trans (first : Drains p b c) (second : Drains p c d) : Drains p b d := by
  refine ⟨first.reaches.trans second.reaches,second.sender.trans first.sender,?_⟩
  rw [second.stream,first.stream]

private theorem drains_runt (b : Bench) (top : b.stream.producer.pc = .poll) :
    ∃ c, Drains p b c ∧ c.stream.producer.pc = .poll ∧ c.stream.producer.graceEmpty = 0 := by
  obtain ⟨clock,sender,⟨⟨pc,gate,counters,graceEmpty,warmupSeen⟩,hist,queue,stop,accepted,popped⟩,
    stamped,times,arriving,landed,log,flights⟩ := b
  cases top
  exact ⟨_,⟨⟨[.other [0],.receiver false,.receiver false],rfl⟩,rfl,rfl⟩,rfl,rfl⟩

private theorem drains_empty (b : Bench) (top : b.stream.producer.pc = .poll) (done : b.sender.thread.txDone = true) :
    ∃ c, Drains p b c ∧ c.stream.producer.graceEmpty = b.stream.producer.graceEmpty + 1 ∧
      c.stream.producer.pc =
        if SingleRecorder.kGraceEmptyPolls ≤ (b.stream.producer.graceEmpty + 1).toNat then .finish else .poll := by
  obtain ⟨clock,⟨⟨pc,first,seq,t0,nextSend,txDone⟩,ring,sent⟩,⟨⟨place,gate,counters,graceEmpty,warmupSeen⟩,hist,queue,stop,
    accepted,popped⟩,stamped,times,arriving,landed,log,flights⟩ := b
  cases top
  cases done
  exact ⟨_,⟨⟨[.other [],.receiver true],rfl⟩,rfl,rfl⟩,rfl,rfl⟩

theorem drains_window {missing : Nat} {b : Bench} (top : b.stream.producer.pc = .poll)
    (done : b.sender.thread.txDone = true)
    (count : b.stream.producer.graceEmpty.toNat + missing + 1 = SingleRecorder.kGraceEmptyPolls) :
    ∃ c, Drains p b c ∧ c.stream.producer.pc = .finish := by
  have small : SingleRecorder.kGraceEmptyPolls < 2^32 := by decide
  induction missing generalizing b with
  | zero =>
    obtain ⟨next,drains,_,place⟩ := drains_empty (p := p) b top done
    rw [if_pos (by bv_omega)] at place
    exact ⟨next,drains,place⟩
  | succ missing ih =>
    obtain ⟨next,drains,grace,place⟩ := drains_empty (p := p) b top done
    rw [if_neg (by bv_omega)] at place
    obtain ⟨c,rest,finished⟩ := ih place (drains.sender ▸ done) (by rw [grace]; bv_omega)
    exact ⟨c,drains.trans rest,finished⟩

private theorem receiver_drains {b : Bench} (top : b.stream.producer.pc = .poll) (done : b.sender.thread.txDone = true) :
    ∃ c, Drains p b c ∧ c.stream.producer.pc = .finish := by
  obtain ⟨next,drains,again,zero⟩ := drains_runt (p := p) b top
  have whole : next.stream.producer.graceEmpty.toNat + (SingleRecorder.kGraceEmptyPolls - 1) + 1 =
      SingleRecorder.kGraceEmptyPolls := by
    rw [zero]
    decide
  obtain ⟨c,rest,finished⟩ := drains_window (p := p) again (drains.sender ▸ done) whole
  exact ⟨c,drains.trans rest,finished⟩

private theorem marker_pushed {b : Bench} (here : b.stream.producer.pc = .finish)
    (room : b.stream.queue.items.length < b.stream.queue.capacity) :
    ∃ c, OneWayBench.step p b (.receiver false) = some c ∧ c.sender = b.sender ∧ c.stream.hist = b.stream.hist ∧
      c.stream.stop = b.stream.stop ∧ c.stream.accepted = b.stream.accepted ∧ c.stream.producer.pc = .returned := by
  obtain ⟨clock,sender,⟨⟨pc,gate,counters,graceEmpty,warmupSeen⟩,hist,queue,stop,accepted,popped⟩,
    stamped,times,arriving,landed,log,flights⟩ := b
  cases here
  have pushed : ∃ next, queue.tryPush kEndSentinel = some next := by
    unfold BoundedQueue.tryPush
    rw [dif_pos room]
    exact ⟨_,rfl⟩
  obtain ⟨next,pushed⟩ := pushed
  simp [OneWayBench.step,stepReceiver,Bench.reply,SingleRecorder.call,stepProducer,Setting.receiver,
    SingleRecorder.producer,Call.sample?,pushed,SingleRecorder.next,Reply.flag?,SingleRecorder.phase]

end Receiver

section Joining

variable {s : System SingleRecorder.State}

private theorem pc_returned {s : SingleRecorder.State} (ended : SingleRecorder.phase s = .returned) : s.pc = .returned := by
  unfold SingleRecorder.phase at ended
  split at ended <;> first | assumption | cases ended

private theorem report_returns {p : HistThread.Setting} {reason : HistThread.Exit}
    (left : HistThread.exit s.hist = some reason) :
    ∃ t, Pops p s t ∧ t.hist.pc = .returned reason := by
  obtain ⟨producer,⟨pc,startTsc,nextHb,recorded,dropped,histogram⟩,queue,stop,accepted,popped⟩ := s
  cases pc <;> cases left
  case report => exact ⟨_,⟨⟨[.done],rfl⟩,rfl,rfl,rfl⟩,rfl⟩
  case returned => exact ⟨_,Pops.refl p _,rfl⟩

theorem recorder_returns {cfg : TestConfig} {p : HistThread.Setting} {size : Nat} (s : System SingleRecorder.State)
    (consistent : Consistent (SingleRecorder.producer cfg) p s) (running : s.stop = false)
    (draining : HistThread.exit s.hist = none) (ended : s.producer.pc = .returned) (length : s.queue.items.length = size) :
    ∃ t, Pops p s t ∧ t.hist.pc = .returned .sentinel := by
  induction size generalizing s with
  | zero =>
    -- The marker is behind the accepted samples, and it was not popped.
    have order := consistent.order
    have returned : (SingleRecorder.producer cfg).phase s.producer = .returned := by
      change SingleRecorder.phase s.producer = _
      rw [SingleRecorder.phase,ended]
    rw [marker,if_pos returned,List.length_eq_zero_iff.mp length,List.append_nil] at order
    have popped : kEndSentinel ∈ s.popped := order ▸ List.mem_append_right _ (List.mem_singleton.mpr rfl)
    exact absurd popped (consistent.unmarked draining)
  | succ size ih =>
    obtain ⟨cyc,rest,items⟩ := List.exists_cons_of_length_eq_add_one length
    obtain ⟨t,pops,left,_,exit⟩ := reaches_pop consistent running draining items
    split at exit
    · obtain ⟨u,more,returned⟩ := report_returns (p := p) exit
      exact ⟨u,pops.trans more,returned⟩
    · rw [items,List.length_cons,Nat.add_right_cancel_iff] at length
      obtain ⟨u,more,returned⟩ := ih t (pops.consistent consistent) (pops.stop.trans running) exit
        (pops.producer ▸ ended) (left ▸ length)
      exact ⟨u,pops.trans more,returned⟩

theorem recorder_makes_room {cfg : TestConfig} {p : HistThread.Setting}
    (consistent : Consistent (SingleRecorder.producer cfg) p s) (clean : Clean s) (running : s.stop = false)
    (draining : HistThread.exit s.hist = none) (waiting : s.producer.pc = .finish) :
    ∃ t, Pops p s t ∧ t.queue.items.length < t.queue.capacity ∧ HistThread.exit t.hist = none := by
  cases items : s.queue.items with
  | nil =>
    refine ⟨s,Pops.refl p s,?_,draining⟩
    rw [items]
    exact consistent.capacity
  | cons cyc rest =>
    obtain ⟨t,pops,left,capacity,exit⟩ := reaches_pop consistent running draining items
    have data : cyc ≠ kEndSentinel := by
      rintro rfl
      have order := consistent.order
      have finishing : (SingleRecorder.producer cfg).phase s.producer ≠ .returned := by
        change SingleRecorder.phase s.producer ≠ _
        rw [SingleRecorder.phase,waiting]
        nofun
      rw [marker,if_neg finishing,List.append_nil,items] at order
      exact clean (order ▸ List.mem_append_right _ List.mem_cons_self)
    have bounded := s.queue.bounded
    rw [if_neg data] at exit
    rw [items,List.length_cons] at bounded
    exact ⟨t,pops,by rw [left,capacity]; exact bounded,exit⟩

private theorem consistent_reaches (consistent : Consistent p.receiver p.hist b.stream) (reached : Reaches p b c) :
    Consistent p.receiver p.hist c.stream := by
  obtain ⟨events,ran⟩ := reached
  apply reachable_invariant (fun b => Consistent p.receiver p.hist b.stream) _ consistent ran
  intro b event c consistent moved
  rcases stream_cases moved with same | ⟨inner,went⟩
  · exact same ▸ consistent
  · exact step_consistent consistent went

theorem joins_from_finish {b : Bench} (consistent : Consistent p.receiver p.hist b.stream) (clean : Clean b.stream)
    (running : b.stream.stop = false) (draining : HistThread.exit b.stream.hist = none)
    (sender : b.sender.thread.pc = .returned) (waiting : b.stream.producer.pc = .finish) : ∃ c, Reaches p b c ∧
      Joined c := by
  obtain ⟨roomy,pops,room,still⟩ := recorder_makes_room consistent clean running draining waiting
  have first := pops.reaches
  obtain ⟨told,moved,senderSame,histSame,stopSame,_,ended⟩ :=
    marker_pushed (p := p) (b := {b with stream := roomy}) (pops.producer ▸ waiting) room
  have second := first.trans (.one moved)
  obtain ⟨last,more,returned⟩ := recorder_returns (p := p.hist) told.stream (consistent_reaches consistent second)
    (stopSame.trans (pops.stop.trans running)) (histSame ▸ still) ended rfl
  refine ⟨{told with stream := last},second.trans more.reaches,?_,?_,_,returned⟩
  · change told.sender.thread.pc = _
    rw [senderSame]
    exact sender
  · change last.producer.pc = _
    rw [more.producer]
    exact ended

structure Stuck (p : Setting) (s : System SingleRecorder.State) : Prop where
  gone : HistThread.exit s.hist ≠ none
  full : s.queue.Full
  waiting : SingleRecorder.phase s.producer ≠ .returned

theorem Stuck.step {t : System SingleRecorder.State} {event : RecorderStream.Event} (stuck : Stuck p s)
    (moved : RecorderStream.step p.receiver p.hist s event = some t) : Stuck p t := by
  cases event with
  | requestStop =>
    cases Option.some.inj moved
    exact ⟨stuck.gone,stuck.full,stuck.waiting⟩
  | hist answer =>
    have gone := stuck.gone
    cases stepHist_action moved with
    | sample here | ended here | initFailed here | stopped here | peek here =>
      rw [HistThread.exit,here] at gone
      contradiction
    | goOn _ _ _ exit _ _ => exact ⟨exit ▸ gone,stuck.full,stuck.waiting⟩
  | producer answer =>
    rcases stepProducer_cases moved with ⟨sample,producer,queue,_,room,_⟩ | ⟨reply,producer,went,refused,rfl⟩
    · have full := stuck.full
      unfold BoundedQueue.tryPush at room
      rw [dif_neg (Nat.not_lt.mpr (Nat.le_of_eq full.symm))] at room
      cases room
    · refine ⟨stuck.gone,stuck.full,?_⟩
      cases phase : p.receiver.phase s.producer with
      | returned => exact absurd phase stuck.waiting
      | sampling => exact p.receiver.samples _ _ _ phase went
      | finishing =>
        obtain ⟨taken,replied,after⟩ := p.receiver.retries _ _ _ phase went
        cases replied.symm.trans (refused _ (p.receiver.marks _ phase))
        change p.receiver.phase producer ≠ _
        simp [after]

theorem Stuck.forever (stuck : Stuck p b.stream) (reached : Reaches p b c) : ¬ Joined c := by
  obtain ⟨events,ran⟩ := reached
  have still : Stuck p c.stream := by
    apply reachable_invariant (fun b => Stuck p b.stream) _ stuck ran
    intro b event c stuck moved
    rcases stream_cases moved with same | ⟨inner,went⟩
    · exact same ▸ stuck
    · exact stuck.step went
  intro joined
  apply still.waiting
  rw [SingleRecorder.phase,joined.receiver]

private theorem reasoned_run {clock : Nat} {deadline : Timespec} {events : List OneWayBench.Event}
    (ran : run (OneWayBench.step p) (OneWayBench.start p clock deadline) events = some b) : Reasoned b.stream := by
  apply reachable_invariant (fun b => Reasoned b.stream) _ ⟨fun stopped => (by cases stopped),fun _ => rfl⟩ ran
  intro b event c reasoned moved
  rcases stream_cases moved with same | ⟨inner,went⟩
  · exact same ▸ reasoned
  · exact step_reasoned reasoned went

/-- The frame in hand first, then the transmitter, the empty network and the recorder. -/
theorem joins_while_draining (long : kFrameMinBytes ≤ p.tx.cfg.frameSize.toNat) {b : Bench} (inv : Inv p since b)
    (short : b.clock < since + (2^64 - 1)) (running : b.stream.stop = false)
    (draining : HistThread.exit b.stream.hist = none) : ∃ c, Reaches p b c ∧ Joined c := by
  obtain ⟨c,reached,later,clock,_,hist,stop,idle⟩ := receiver_settles long inv (Nat.le_refl _)
  have clean := later.clean (clock ▸ short)
  have running := stop.trans running
  have draining : HistThread.exit c.stream.hist = none := hist ▸ draining
  cases here : c.stream.producer.pc <;> rw [here] at idle <;> cases idle
  case returned =>
    have sender := later.left (by rw [SingleRecorder.phase,here]; nofun)
    obtain ⟨last,pops,returned⟩ := recorder_returns (p := p.hist) c.stream later.consistent running draining here rfl
    refine ⟨{c with stream := last},reached.trans pops.reaches,sender,?_,_,returned⟩
    change last.producer.pc = _
    rw [pops.producer]
    exact here
  case finish =>
    have sender := later.left (by rw [SingleRecorder.phase,here]; nofun)
    obtain ⟨d,more,joined⟩ := joins_from_finish later.consistent clean running draining sender here
    exact ⟨d,reached.trans more,joined⟩
  case poll =>
    obtain ⟨d,more,stream,ended,told⟩ := sender_returns long later.sending
    obtain ⟨e,drains,finish⟩ := receiver_drains (p := p) (b := d) (stream ▸ here) told
    have whole := (reached.trans more).trans drains.reaches
    have same : e.stream.accepted = c.stream.accepted ∧ e.stream.stop = c.stream.stop ∧ e.stream.hist = c.stream.hist := by
      rw [drains.stream,stream]
      exact ⟨rfl,rfl,rfl⟩
    obtain ⟨f,last,joined⟩ := joins_from_finish (p := p) (consistent_reaches inv.consistent whole)
      (by unfold Clean; rw [same.1]; exact clean) (same.2.1.trans running) (same.2.2 ▸ draining)
      (drains.sender ▸ ended) finish
    exact ⟨f,whole.trans last,joined⟩

/-- In a run that nobody stops, with a histogram, the three threads can be joined from every
state on. Once the recorder has left and the queue is full before the end marker is in, they
never are. -/
theorem bench_joinable (p : Setting) (long : kFrameMinBytes ≤ p.tx.cfg.frameSize.toNat) (clock : Nat) (deadline : Timespec)
    (events : List OneWayBench.Event) (b : Bench)
    (ran : run (OneWayBench.step p) (OneWayBench.start p clock deadline) events = some b)
    (timely : Along (OneWayBench.step p) Timely (OneWayBench.start p clock deadline) events)
    (short : b.clock < clock + (2^64 - 1)) :
    (b.stream.stop = false → HistThread.exit b.stream.hist ≠ some .initFailed → ∃ c, Reaches p b c ∧ Joined c) ∧
    (HistThread.exit b.stream.hist ≠ none → b.stream.queue.Full → b.stream.producer.pc ≠ .returned →
      ∀ c, Reaches p b c → ¬ Joined c) := by
  have inv := Inv.run long timely ran
  constructor
  · intro running allocated
    cases left : HistThread.exit b.stream.hist with
    | none => exact joins_while_draining long inv short running left
    | some reason =>
      cases reason with
      | initFailed => exact absurd left allocated
      | stopped => cases running.symm.trans ((reasoned_run ran).stopped left)
      | sentinel =>
        have ended := returned_of_popped inv.consistent (inv.clean short) (inv.consistent.ended.mpr left)
        have sender := inv.left (show SingleRecorder.phase b.stream.producer ≠ .sampling by
          rw [show SingleRecorder.phase b.stream.producer = .returned from ended]
          nofun)
        obtain ⟨last,pops,returned⟩ := report_returns (p := p.hist) left
        refine ⟨{b with stream := last},pops.reaches,sender,?_,_,returned⟩
        change last.producer.pc = _
        rw [pops.producer]
        exact pc_returned ended
  · intro gone full waiting c reached
    exact Stuck.forever ⟨gone,full,fun returned => waiting (pc_returned returned)⟩ reached

/-- In the middle of the lab's stream, with frames lost, overtaken and seen twice. -/
theorem bench_joinable_lab : ∃ b, run (OneWayBench.step labBench) (OneWayBench.start labBench 7 ⟨0,0⟩) labEvents = some b ∧
    b.flights.length = 2 ∧ ∃ c, Reaches labBench b c ∧ Joined c := by
  have shown : (run (OneWayBench.step labBench) (OneWayBench.start labBench 7 ⟨0,0⟩) labEvents).map
      (fun b => (b.flights.length,b.clock,b.stream.stop,HistThread.exit b.stream.hist)) = some (2,126,false,none) := by
    decide +kernel
  obtain ⟨b,ran,same⟩ := Option.map_eq_some_iff.mp shown
  simp only [Prod.mk.injEq] at same
  obtain ⟨flights,clock,running,draining⟩ := same
  refine ⟨b,ran,flights,?_⟩
  exact (bench_joinable labBench (by decide) 7 ⟨0,0⟩ labEvents b ran (by decide +kernel) (by rw [clock]; decide)).1 running
    (by rw [draining]; nofun)

end Joining

end Abtrda3.BenchShutdown
