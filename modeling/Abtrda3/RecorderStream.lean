import Abtrda3.Client
import Abtrda3.Server
import Abtrda3.SingleRecorder
import Abtrda3.HistThread
import Abtrda3.Semantics.Machine
import Abtrda3.Semantics.BoundedQueue

/-! One producer, the recorder and an asynchronous stop request around the queue of
samples. Queue and stop token answer the calls made on them; every other call is
answered by the environment. Two logs keep the samples the queue took from the
sampling loop and the values the recorder popped. -/
namespace Abtrda3.RecorderStream
open Abtrda3.Application Abtrda3.Semantics Abtrda3.Semantics.Machine

structure System (σ : Type) where
  producer : σ
  hist : HistThread.State
  queue : BoundedQueue (BitVec 64)
  stop : Bool
  accepted : List (BitVec 64)
  popped : List (BitVec 64)

inductive Event
  | producer (answer : Reply)
  | hist (answer : HistThread.Reply)
  | requestStop
  deriving DecidableEq, Repr

variable {σ : Type}

def init (producer : σ) (recQueueCapacity : Nat) : System σ :=
  ⟨producer,HistThread.start,BoundedQueue.empty (max 1 recQueueCapacity),false,[],[]⟩

def stepProducer (P : Producer σ) (s : System σ) (answer : Reply) : Option (System σ) :=
  (P.call s.producer).bind fun call =>
    match call.sample? with
    | some sample =>
      match s.queue.tryPush sample with
      | some queue => (P.next s.producer (.flag true)).map fun producer =>
        {s with producer := producer, queue := queue,
                accepted := if P.phase s.producer = .sampling then s.accepted ++ [sample] else s.accepted}
      | none => (P.next s.producer (.flag false)).map fun producer => {s with producer := producer}
    | none =>
      (P.next s.producer (if call = .stopRequested then .flag s.stop else answer)).map fun producer =>
        {s with producer := producer}

def stepHist (p : HistThread.Setting) (s : System σ) (answer : HistThread.Reply) : Option (System σ) :=
  match HistThread.call p s.hist with
  | none => none
  | some .front => (HistThread.next p s.hist (.front s.queue.front)).map fun hist => {s with hist := hist}
  | some .pop => (HistThread.next p s.hist .done).map fun hist =>
    {s with hist := hist, queue := s.queue.pop, popped := s.popped ++ s.queue.front.toList}
  | some .stopRequested => (HistThread.next p s.hist (.flag s.stop)).map fun hist => {s with hist := hist}
  | some _ => (HistThread.next p s.hist answer).map fun hist => {s with hist := hist}

def step (P : Producer σ) (p : HistThread.Setting) (s : System σ) : Event → Option (System σ)
  | .producer answer => stepProducer P s answer
  | .hist answer => stepHist p s answer
  | .requestStop => some {s with stop := true}

variable {P : Producer σ} {s t : System σ} {p : HistThread.Setting}

/-- A producer step either puts one value into the queue or leaves queue and logs alone. -/
theorem stepProducer_cases {answer : Reply}
    (moved : stepProducer P s answer = some t) :
    (∃ sample producer queue, P.call s.producer = some (.tryPush sample) ∧ s.queue.tryPush sample = some queue ∧
      P.next s.producer (.flag true) = some producer ∧
      t = {s with producer := producer, queue := queue,
                  accepted := if P.phase s.producer = .sampling then s.accepted ++ [sample] else s.accepted}) ∨
    (∃ reply producer, P.next s.producer reply = some producer ∧
      (∀ sample, P.call s.producer = some (.tryPush sample) → reply = .flag false) ∧
      t = {s with producer := producer}) := by
  obtain ⟨call,offered,rest⟩ := Option.bind_eq_some_iff.mp moved
  split at rest
  · next sample isPush =>
    rw [Call.sample?_eq_some] at isPush
    subst isPush
    split at rest
    · next queue room =>
      obtain ⟨producer,went,rfl⟩ := Option.map_eq_some_iff.mp rest
      exact .inl ⟨sample,producer,queue,offered,room,went,rfl⟩
    · obtain ⟨producer,went,rfl⟩ := Option.map_eq_some_iff.mp rest
      exact .inr ⟨_,producer,went,fun _ _ => rfl,rfl⟩
  · next notPush =>
    obtain ⟨producer,went,rfl⟩ := Option.map_eq_some_iff.mp rest
    refine .inr ⟨_,producer,went,?_,rfl⟩
    intro sample pushes
    cases Option.some.inj (offered.symm.trans pushes)
    contradiction

/-- All that a recorder step can do: a pop counts a sample or leaves the loop on the marker,
and every other step leaves the queue and the counts alone. -/
inductive HistAction (p : HistThread.Setting) (s : System σ) (answer : HistThread.Reply) : System σ → Prop
  | sample {cyc : BitVec 64} (here : s.hist.pc = .pop cyc) (data : cyc ≠ kEndSentinel) : HistAction p s answer
      {s with hist := {HistThread.record p s.hist cyc with pc := .heartbeat}, queue := s.queue.pop,
              popped := s.popped ++ s.queue.front.toList}
  | ended (here : s.hist.pc = .pop kEndSentinel) : HistAction p s answer
      {s with hist := {s.hist with pc := .report .sentinel}, queue := s.queue.pop,
              popped := s.popped ++ s.queue.front.toList}
  | initFailed (here : s.hist.pc = .init) (refused : answer = .flag false) :
      HistAction p s answer {s with hist := {s.hist with pc := .returned .initFailed}}
  | stopped (here : s.hist.pc = .stopCheck) (requested : s.stop = true) :
      HistAction p s answer {s with hist := {s.hist with pc := .report .stopped}}
  | peek {cyc : BitVec 64} (here : s.hist.pc = .front) (front : s.queue.front = some cyc) :
      HistAction p s answer {s with hist := {s.hist with pc := .pop cyc}}
  | goOn {hist : HistThread.State} (recorded : hist.recorded = s.hist.recorded) (dropped : hist.dropped = s.hist.dropped)
      (histogram : hist.histogram = s.hist.histogram) (exit : HistThread.exit hist = HistThread.exit s.hist)
      (begun : hist.pc ≠ .init) (after : ∀ cyc, hist.pc ≠ .pop cyc) : HistAction p s answer {s with hist := hist}

theorem stepHist_action {answer : HistThread.Reply}
    (moved : stepHist p s answer = some t) : HistAction p s answer t := by
  cases here : s.hist.pc <;> simp only [stepHist,HistThread.call,here,Option.map_eq_some_iff] at moved
  case returned => contradiction
  all_goals
    obtain ⟨hist,went,rfl⟩ := moved
    simp only [HistThread.next,here] at went
  case init =>
    cases answer with
    | flag ok =>
      cases Option.some.inj went
      cases ok with
      | true => exact .goOn rfl rfl rfl (by simp [HistThread.exit,here]) (by simp) (by simp)
      | false => exact .initFailed here rfl
    | _ => contradiction
  case clock | heartbeat =>
    cases answer with
    | time cyc =>
      cases Option.some.inj went
      exact .goOn rfl rfl rfl (by simp [HistThread.exit,here]) (by simp) (by simp)
    | _ => contradiction
  case front =>
    cases Option.some.inj went
    cases front : s.queue.front with
    | none => exact .goOn rfl rfl rfl (by simp [HistThread.exit,here]) (by simp) (by simp)
    | some cyc => exact .peek here front
  case pop cyc =>
    split at went
    next marked =>
      cases Option.some.inj went
      exact .ended (marked ▸ here)
    next data =>
      cases Option.some.inj went
      exact .sample here data
  case stopCheck =>
    cases Option.some.inj went
    split
    next requested => exact .stopped here requested
    · exact .goOn rfl rfl rfl (by simp [HistThread.exit,here]) (by simp) (by simp)
  case report reason =>
    cases answer with
    | done =>
      cases Option.some.inj went
      exact .goOn rfl rfl rfl (by simp [HistThread.exit,here]) (by simp) (by simp)
    | _ => contradiction

/-- The call of this state is answered outside the queue, and a look at the stop
token gets the token's value. -/
def Answered (P : Producer σ) (stop : Bool) (producer : σ) (reply : Reply) : Prop :=
  ∃ call, P.call producer = some call ∧ call.sample? = none ∧ (call = .stopRequested → reply = .flag stop)

theorem step_of_answered (p : HistThread.Setting) {s : System σ} {reply : Reply} {next : σ}
    (answered : Answered P s.stop s.producer reply) (moved : P.next s.producer reply = some next) :
    step P p s (.producer reply) = some {s with producer := next} := by
  obtain ⟨call,offered,notPush,stop⟩ := answered
  have replied : (if call = .stopRequested then Reply.flag s.stop else reply) = reply := by
    split
    · next asked => exact (stop asked).symm
    · rfl
  simp [step,stepProducer,offered,notPush,replied,moved]

theorem run_of_answered (p : HistThread.Setting) {replies : List Reply} (s : System σ) {final : σ}
    (answered : Along P.next (Answered P s.stop) s.producer replies) (ran : run P.next s.producer replies = some final) :
    run (step P p) s (replies.map .producer) = some {s with producer := final} := by
  induction replies generalizing s with
  | nil =>
    cases Option.some.inj ran
    rfl
  | cons reply rest ih =>
    obtain ⟨next,moved,tail⟩ := run_cons_some ran
    have now := step_of_answered p answered.1 moved
    rw [List.map_cons,run_cons,now]
    exact ih {s with producer := next} (answered.2 next moved) tail

def marker (P : Producer σ) (producer : σ) : List (BitVec 64) :=
  if P.phase producer = .returned then [kEndSentinel] else []

def samples (values : List (BitVec 64)) : List (BitVec 64) := values.filter (· ≠ kEndSentinel)

structure Consistent (P : Producer σ) (p : HistThread.Setting) (s : System σ) : Prop where
  order : s.accepted ++ marker P s.producer = s.popped ++ s.queue.items
  capacity : 1 ≤ s.queue.capacity
  peeked : ∀ cyc, s.hist.pc = .pop cyc → s.queue.front = some cyc
  counted : s.hist.recorded + s.hist.dropped = (samples s.popped).length
  stored : s.hist.histogram = (samples s.popped).filterMap (HistThread.kept p)
  ended : kEndSentinel ∈ s.popped ↔ HistThread.exit s.hist = some .sentinel

theorem init_consistent (P : Producer σ) (p : HistThread.Setting) (producer : σ) (recQueueCapacity : Nat)
    (sampling : P.phase producer = .sampling) : Consistent P p (init producer recQueueCapacity) where
  order := by simp [init,marker,sampling,BoundedQueue.empty]
  capacity := Nat.le_max_left 1 recQueueCapacity
  peeked := by simp [init,HistThread.start]
  counted := by simp [init,HistThread.start,samples]
  stored := by simp [init,HistThread.start,samples]
  ended := by simp [init,HistThread.start,HistThread.exit]

private theorem marker_of_not_pushed {producer next : σ} {reply : Reply}
    (went : P.next producer reply = some next)
    (refused : ∀ sample, P.call producer = some (.tryPush sample) → reply = .flag false)
    (live : P.phase producer ≠ .returned) : marker P next = marker P producer := by
  cases phase : P.phase producer with
  | returned => exact absurd phase live
  | sampling =>
    have stays := P.samples producer reply next phase went
    simp [marker,phase,stays]
  | finishing =>
    obtain ⟨taken,replied,after⟩ := P.retries producer reply next phase went
    have same := refused _ (P.marks producer phase)
    rw [same] at replied
    cases Reply.flag.inj replied
    simp [marker,phase,after]

theorem stepProducer_live {answer : Reply}
    (moved : stepProducer P s answer = some t) : P.phase s.producer ≠ .returned := by
  intro returned
  simp [stepProducer,P.silent s.producer returned] at moved

private theorem stepProducer_consistent {answer : Reply}
    (consistent : Consistent P p s) (moved : stepProducer P s answer = some t) : Consistent P p t := by
  have live := stepProducer_live moved
  rcases stepProducer_cases moved with ⟨sample,producer,queue,offered,room,went,rfl⟩ | ⟨reply,producer,went,refused,rfl⟩
  · obtain ⟨items,capacity⟩ := BoundedQueue.tryPush_some room
    refine ⟨?_,by rw [capacity]; exact consistent.capacity,?_,consistent.counted,consistent.stored,consistent.ended⟩
    · have order := consistent.order
      cases phase : P.phase s.producer with
      | returned => exact absurd phase live
      | sampling =>
        have stays := P.samples _ _ _ phase went
        simp only [marker,phase,stays,if_true,if_false,List.append_nil,reduceCtorEq] at order ⊢
        rw [items,← List.append_assoc,order]
      | finishing =>
        obtain ⟨taken,replied,after⟩ := P.retries _ _ _ phase went
        cases Reply.flag.inj replied
        cases (Option.some.inj ((P.marks _ phase).symm.trans offered))
        simp only [marker,phase,after,if_true,if_false,List.append_nil,reduceCtorEq] at order ⊢
        rw [items,← List.append_assoc,order]
    · intro cyc here
      have peeked := consistent.peeked cyc here
      simp only [BoundedQueue.front,items] at peeked ⊢
      rw [List.head?_append,peeked]
      rfl
  · refine ⟨?_,consistent.capacity,consistent.peeked,consistent.counted,consistent.stored,consistent.ended⟩
    rw [marker_of_not_pushed went refused live]
    exact consistent.order

theorem samples_append (values : List (BitVec 64)) (value : BitVec 64) :
    samples (values ++ [value]) = if value = kEndSentinel then samples values else samples values ++ [value] := by
  by_cases marked : value = kEndSentinel <;> simp [samples,marked]

theorem Consistent.unmarked {s : System σ} (consistent : Consistent P p s)
    (draining : HistThread.exit s.hist = none) : kEndSentinel ∉ s.popped := by
  intro member
  rw [consistent.ended.mp member] at draining
  contradiction

theorem Consistent.order_pop {s : System σ} (consistent : Consistent P p s)
    {cyc : BitVec 64} (here : s.hist.pc = .pop cyc) :
    s.accepted ++ marker P s.producer = (s.popped ++ s.queue.front.toList) ++ s.queue.pop.items := by
  have front := consistent.peeked cyc here
  obtain ⟨rest,items⟩ : ∃ rest, s.queue.items = cyc :: rest := List.head?_eq_some_iff.mp front
  rw [consistent.order,front,BoundedQueue.pop_items,items]
  simp

theorem stepHist_consistent {answer : HistThread.Reply}
    (consistent : Consistent P p s) (moved : stepHist p s answer = some t) : Consistent P p t := by
  have counted := consistent.counted
  have unmarked (draining : HistThread.exit s.hist = none) := consistent.unmarked draining
  cases stepHist_action moved with
  | @sample cyc here data =>
    have front := consistent.peeked cyc here
    have none := unmarked (by simp [HistThread.exit,here])
    refine ⟨consistent.order_pop here,consistent.capacity,by simp,?_,?_,?_⟩
    · simp only [front,Option.toList_some,samples_append,data,if_false,List.length_append,List.length_singleton]
      rw [HistThread.record_count,counted]
    · simp only [front,Option.toList_some,samples_append,data,if_false,List.filterMap_append,HistThread.record_histogram]
      rw [consistent.stored]
      cases stays : HistThread.kept p cyc <;> simp [stays]
    · simp [front,none,Ne.symm data,HistThread.exit]
  | ended here =>
    have front := consistent.peeked _ here
    refine ⟨consistent.order_pop here,consistent.capacity,by simp,?_,?_,by simp [front,HistThread.exit]⟩
    · simpa [front,samples_append] using counted
    · simpa [front,samples_append] using consistent.stored
  | initFailed here | stopped here =>
    have none := unmarked (by simp [HistThread.exit,here])
    exact ⟨consistent.order,consistent.capacity,by simp,counted,consistent.stored,by simp [none,HistThread.exit]⟩
  | peek here front =>
    have none := unmarked (by simp [HistThread.exit,here])
    refine ⟨consistent.order,consistent.capacity,?_,counted,consistent.stored,by simp [none,HistThread.exit]⟩
    intro value now
    rw [← HistThread.Pc.pop.inj now]
    exact front
  | goOn recorded dropped histogram exit _ after =>
    refine ⟨consistent.order,consistent.capacity,fun value now => absurd now (after value),?_,?_,?_⟩
    · rw [recorded,dropped]
      exact counted
    · rw [histogram]
      exact consistent.stored
    · rw [exit]
      exact consistent.ended

theorem step_consistent {event : Event}
    (consistent : Consistent P p s) (moved : step P p s event = some t) : Consistent P p t := by
  cases event with
  | producer answer => exact stepProducer_consistent consistent moved
  | hist answer => exact stepHist_consistent consistent moved
  | requestStop =>
    cases Option.some.inj moved
    exact ⟨consistent.order,consistent.capacity,consistent.peeked,consistent.counted,consistent.stored,consistent.ended⟩

end Abtrda3.RecorderStream
