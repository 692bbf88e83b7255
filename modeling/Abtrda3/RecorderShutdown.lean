import Abtrda3.RecorderStream

/-! How a recording ends. The three loops that feed the recorder are taken together:
when the end marker is told apart from every sample, and when the recorder is known
to have counted every sample the queue took and never to leave a producer waiting. -/
namespace Abtrda3.RecorderShutdown
open Abtrda3.Application Abtrda3.Semantics Abtrda3.Semantics.Machine Abtrda3.RecorderStream

inductive Source
  | client (p : Client.Setting)
  | server (p : Server.Setting) (hw : p.kHwTs = true)
  | recorder (cfg : TestConfig)

namespace Source

def State : Source → Type
  | .client _ => Client.State
  | .server _ _ => Server.State
  | .recorder _ => SingleRecorder.State

def producer : (source : Source) → Producer source.State
  | .client p => Client.producer p
  | .server p hw => Server.producer p hw
  | .recorder cfg => SingleRecorder.producer cfg

def cfg : Source → TestConfig
  | .client p => p.cfg
  | .server p _ => p.cfg
  | .recorder cfg => cfg

def Started : (source : Source) → source.State → Prop
  | .client p, s => ∃ now clock, Client.start p now clock = some s
  | .server _ _, s => s = Server.start
  | .recorder _, s => s = SingleRecorder.start

theorem started_sampling (source : Source) (producer : source.State) (started : source.Started producer) :
    source.producer.phase producer = .sampling := by
  cases source with
  | client p =>
    obtain ⟨now,clock,opened⟩ := started
    unfold Client.start at opened
    split at opened
    · contradiction
    · cases Option.some.inj opened
      rfl
  | server p hw => cases started; rfl
  | recorder cfg => cases started; rfl

def initial (source : Source) (producer : source.State) : System source.State :=
  init producer source.cfg.recQueueCapacity

end Source

section Conditions

variable {σ : Type}

def NoCollision (P : Producer σ) (s : System σ) : Event → Prop
  | .producer _ => P.phase s.producer = .sampling → P.call s.producer ≠ some (.tryPush kEndSentinel)
  | _ => True

def StampsValid (P : Producer σ) (s : System σ) : Event → Prop
  | .producer _ => ∀ pair ∈ P.stamps s.producer, ¬ pair.Collides
  | _ => True

/-- The histogram is allocated, no pair of stamps collides, and the recorder reads a
stop request only when the sampling loop is over and its samples are drained. -/
def Orderly (P : Producer σ) (s : System σ) : Event → Prop
  | .producer _ => ∀ pair ∈ P.stamps s.producer, ¬ pair.Collides
  | .hist answer =>
    (s.hist.pc = .init → answer = .flag true) ∧
    (s.hist.pc = .stopCheck → s.stop = true →
      P.phase s.producer ≠ .sampling ∧ ∀ value ∈ s.queue.items, value = kEndSentinel)
  | .requestStop => True

instance (P : Producer σ) (s : System σ) : (event : Event) → Decidable (StampsValid P s event)
  | .producer _ => inferInstanceAs (Decidable (∀ pair ∈ P.stamps s.producer, ¬ pair.Collides))
  | .hist _ => isTrue trivial
  | .requestStop => isTrue trivial

instance (P : Producer σ) (s : System σ) : (event : Event) → Decidable (Orderly P s event)
  | .producer _ => inferInstanceAs (Decidable (∀ pair ∈ P.stamps s.producer, ¬ pair.Collides))
  | .hist _ => inferInstanceAs (Decidable ((_ → _) ∧ (_ → _ → _ ∧ ∀ value ∈ s.queue.items, value = kEndSentinel)))
  | .requestStop => isTrue trivial

private theorem noCollision_iff (P : Producer σ) (s : System σ) (event : Event) :
    NoCollision P s event ↔ StampsValid P s event := by
  cases event with
  | hist answer => exact Iff.rfl
  | requestStop => exact Iff.rfl
  | producer answer =>
    constructor
    · intro apart pair held collides
      obtain ⟨sampling,offered⟩ := P.holds s.producer pair held
      rw [(sample_eq_endSentinel_iff pair).mpr collides] at offered
      exact apart sampling offered
    · intro valid sampling offered
      obtain ⟨pair,held,same⟩ := P.offers s.producer kEndSentinel sampling offered
      exact valid pair held ((sample_eq_endSentinel_iff pair).mp same.symm)

variable {P : Producer σ}

private theorem stampsValid_of_orderly {s : System σ} {event : Event} (orderly : Orderly P s event) :
    StampsValid P s event := by
  cases event with
  | producer answer => exact orderly
  | hist answer => trivial
  | requestStop => trivial

/-- The sampling loop never put the end marker into the queue. -/
def Clean (s : System σ) : Prop := kEndSentinel ∉ s.accepted

theorem step_clean {p : HistThread.Setting} {s t : System σ} {event : Event} (clean : Clean s)
    (valid : StampsValid P s event) (moved : step P p s event = some t) : Clean t := by
  cases event with
  | requestStop => cases Option.some.inj moved; exact clean
  | hist answer =>
    cases stepHist_action moved <;> exact clean
  | producer answer =>
    rcases stepProducer_cases moved with ⟨sample,producer,queue,offered,_,_,rfl⟩ | ⟨_,_,_,_,rfl⟩
    · unfold Clean
      dsimp only
      split
      · next sampling =>
        obtain ⟨pair,held,same⟩ := P.offers s.producer sample sampling offered
        have apart : kEndSentinel ≠ sample := by
          intro marked
          exact valid pair held ((sample_eq_endSentinel_iff pair).mp (same.symm.trans marked.symm))
        rw [List.mem_append,List.mem_singleton]
        exact fun member => member.elim clean apart
      · exact clean
    · exact clean

private theorem returned_of_marked {s : System σ} (clean : Clean s)
    (member : kEndSentinel ∈ s.accepted ++ marker P s.producer) : P.phase s.producer = .returned := by
  rcases List.mem_append.mp member with data | last
  · exact absurd data clean
  · unfold marker at last
    split at last
    · assumption
    · contradiction

theorem returned_of_popped {p : HistThread.Setting} {s : System σ} (consistent : Consistent P p s)
    (clean : Clean s) (popped : kEndSentinel ∈ s.popped) : P.phase s.producer = .returned := by
  apply returned_of_marked clean
  rw [consistent.order]
  exact List.mem_append_left _ popped

theorem eq_of_append_marker {before left right : List (BitVec 64)} (clean : kEndSentinel ∉ before)
    (order : before ++ [kEndSentinel] = (left ++ [kEndSentinel]) ++ right) : left = before ∧ right = [] := by
  rcases List.eq_nil_or_concat right with rfl | ⟨rest,last,rfl⟩
  · rw [List.append_nil] at order
    exact ⟨(List.append_cancel_right order).symm,rfl⟩
  · rw [List.concat_eq_append,← List.append_assoc] at order
    have longer := (List.append_inj' order rfl).1
    rw [longer] at clean
    simp at clean

theorem samples_of_clean {values : List (BitVec 64)} (clean : kEndSentinel ∉ values) : samples values = values := by
  unfold samples
  rw [List.filter_eq_self]
  intro value member
  have apart : value ≠ kEndSentinel := fun marked => clean (marked ▸ member)
  simpa using apart

/-- Once the recorder has left its loop, it has popped every sample the queue took
and the sampling loop is over. -/
structure Drained (P : Producer σ) (s : System σ) : Prop where
  clean : Clean s
  ended : HistThread.exit s.hist ≠ none → P.phase s.producer ≠ .sampling
  all : HistThread.exit s.hist ≠ none → samples s.popped = s.accepted

private theorem phase_advances {producer next : σ} {reply : Reply}
    (live : P.phase producer ≠ .returned) (left : P.phase producer ≠ .sampling)
    (went : P.next producer reply = some next) : P.phase next ≠ .sampling := by
  cases phase : P.phase producer with
  | sampling => exact absurd phase left
  | returned => exact absurd phase live
  | finishing =>
    obtain ⟨taken,_,after⟩ := P.retries producer reply next phase went
    rw [after]
    cases taken <;> simp

private theorem stepProducer_drained {p : HistThread.Setting} {s t : System σ} {answer : Reply}
    (drained : Drained P s) (valid : StampsValid P s (.producer answer))
    (moved : step P p s (.producer answer) = some t) : Drained P t := by
  have clean := step_clean drained.clean valid moved
  have live := stepProducer_live moved
  rcases stepProducer_cases moved with ⟨sample,producer,queue,offered,_,went,rfl⟩ | ⟨_,producer,went,_,rfl⟩
  · refine ⟨clean,fun left => phase_advances live (drained.ended left) went,fun left => ?_⟩
    rw [if_neg (drained.ended left)]
    exact drained.all left
  · exact ⟨clean,fun left => phase_advances live (drained.ended left) went,drained.all⟩

private theorem drained_at_marker {p : HistThread.Setting} {s : System σ}
    (consistent : Consistent P p s) (clean : Clean s) (here : s.queue.front = some kEndSentinel) :
    P.phase s.producer = .returned ∧ s.popped = s.accepted := by
  obtain ⟨rest,items⟩ : ∃ rest, s.queue.items = kEndSentinel :: rest := List.head?_eq_some_iff.mp here
  have order : s.accepted ++ marker P s.producer = (s.popped ++ [kEndSentinel]) ++ rest := by
    rw [consistent.order,items]
    simp
  have returned : P.phase s.producer = .returned := by
    apply returned_of_marked clean
    rw [order]
    simp
  rw [marker,if_pos returned] at order
  exact ⟨returned,(eq_of_append_marker clean order).1⟩

private theorem drained_at_stop {p : HistThread.Setting} {s : System σ}
    (consistent : Consistent P p s) (clean : Clean s)
    (settled : ∀ value ∈ s.queue.items, value = kEndSentinel) : samples s.popped = s.accepted := by
  have order := congrArg samples consistent.order
  have tail : samples s.queue.items = [] := by
    unfold samples
    rw [List.filter_eq_nil_iff]
    intro value member
    simp [settled value member]
  have end' : samples (marker P s.producer) = [] := by
    unfold marker
    split <;> simp [samples]
  have split (left right : List (BitVec 64)) : samples (left ++ right) = samples left ++ samples right :=
    List.filter_append ..
  rw [split,split,tail,end',List.append_nil,List.append_nil,samples_of_clean clean] at order
  exact order.symm

private theorem stepHist_drained {p : HistThread.Setting} {s t : System σ} {answer : HistThread.Reply}
    (consistent : Consistent P p s) (drained : Drained P s) (orderly : Orderly P s (.hist answer))
    (moved : step P p s (.hist answer) = some t) : Drained P t := by
  have clean := step_clean drained.clean (stampsValid_of_orderly orderly) moved
  obtain ⟨allocated,settled⟩ := orderly
  cases stepHist_action moved with
  | sample | peek => exact ⟨clean,by simp [HistThread.exit],by simp [HistThread.exit]⟩
  | ended here =>
    have front := consistent.peeked _ here
    obtain ⟨returned,all⟩ := drained_at_marker consistent drained.clean front
    refine ⟨clean,fun _ => by simp [returned],fun _ => ?_⟩
    rw [front,all]
    simpa [samples] using samples_of_clean drained.clean
  | initFailed here refused =>
    cases (allocated here).symm.trans refused
  | stopped here requested =>
    obtain ⟨ended,empty⟩ := settled here requested
    have all := drained_at_stop consistent drained.clean empty
    exact ⟨clean,fun _ => ended,fun _ => all⟩
  | goOn _ _ _ exit =>
    refine ⟨clean,?_,?_⟩ <;> rw [exit]
    · exact drained.ended
    · exact drained.all

private theorem step_drained {p : HistThread.Setting} {s t : System σ} {event : Event}
    (consistent : Consistent P p s) (drained : Drained P s) (orderly : Orderly P s event)
    (moved : step P p s event = some t) : Drained P t := by
  cases event with
  | producer answer => exact stepProducer_drained drained orderly moved
  | hist answer => exact stepHist_drained consistent drained orderly moved
  | requestStop =>
    cases Option.some.inj moved
    exact ⟨drained.clean,drained.ended,drained.all⟩

end Conditions

section WarmUp

variable (p : Client.Setting)

def roundReplies (s : Client.State) : List Reply :=
  [.time s.start,.flag false,.flag true,.done,.word s.seq,.done,.frame (Client.echo p s.seq),.done]

def afterEcho (s : Client.State) : Client.State :=
  {s with pc := .pollStamp, loopTsc := s.start, t1 := s.start, txSeq := s.seq, spins := 0, sent := s.sent + 1}

def Reaches (s t : Client.State) : Prop :=
  ∃ replies, Along (Client.next p) (Answered (Client.producer p) false) s replies ∧
    run (Client.next p) s replies = some t

variable {p}

/-- The replies answer the client's calls one by one, none of them a push, and lead to `t`. -/
def Answers (p : Client.Setting) (s : Client.State) (replies : List Reply) (t : Client.State) : Prop :=
  Along (Client.next p) (Answered (Client.producer p) false) s replies ∧ run (Client.next p) s replies = some t

theorem Answers.nil (p : Client.Setting) (s : Client.State) : Answers p s [] s := ⟨trivial,rfl⟩

theorem Answers.step {s t u : Client.State} {reply : Reply} {rest : List Reply}
    (answered : Answered (Client.producer p) false s reply) (moved : Client.next p s reply = some t)
    (after : Answers p t rest u) : Answers p s (reply::rest) u := by
  constructor
  · refine ⟨answered,fun next went => ?_⟩
    cases Option.some.inj (moved.symm.trans went)
    exact after.1
  · rw [run_cons,moved]
    exact after.2

def plain : Call → Bool
  | .tryPush _ | .stopRequested => false
  | _ => true

theorem Answers.cons {s t u : Client.State} {reply : Reply} {rest : List Reply} {call : Call}
    (offered : Client.call p s = some call) (any : plain call = true) (moved : Client.next p s reply = some t)
    (after : Answers p t rest u) : Answers p s (reply::rest) u := by
  refine .step ⟨call,offered,?_,fun token => ?_⟩ moved after
  · cases call <;> first | rfl | contradiction
  · rw [token] at any
    contradiction

theorem Answers.send (unpaced : p.cfg.sendIntervalUs = 0) (lasting : p.durationCyc ≠ 0#64) {s u : Client.State}
    (top : s.pc = .top) {rest : List Reply} (after : Answers p {s with loopTsc := s.start, pc := .storeSeq} rest u) :
    Answers p s (.time s.start :: .flag false :: .flag true :: rest) u := by
  have free : ¬ 0 < Client.intervalNs p := by simp [Client.intervalNs,TestConfig.intervalNs,unpaced]
  have early : ¬ p.durationCyc ≤ s.start - s.start := by
    rw [BitVec.sub_self,BitVec.le_zero_iff]
    exact lasting
  refine .cons (t := {s with loopTsc := s.start, pc := .stopCheck})
    (show Client.call p s = some .now by rw [Client.call,top]) rfl ?_ ?_
  · rw [Client.next,top]
    change some {s with loopTsc := s.start, pc := if _ then _ else _} = _
    rw [if_neg early]
  refine .step (t := {s with loopTsc := s.start, pc := .acquire}) ⟨.stopRequested,rfl,rfl,fun _ => rfl⟩ ?_ ?_
  · change some (if false = true then _ else if _ then _ else _) = _
    rw [if_neg Bool.false_ne_true,if_neg free]
  exact .cons rfl rfl rfl after

theorem Reaches.trans {s t u : Client.State} (first : Reaches p s t) (second : Reaches p t u) : Reaches p s u := by
  obtain ⟨before,answered,ran⟩ := first
  obtain ⟨after,answeredToo,ranToo⟩ := second
  exact ⟨before ++ after,along_append answered ran answeredToo,run_trans ran ranToo⟩

theorem classify_echo {s : Client.State} {seq : BitVec 32} (same : s.seq = seq) (t2 : BitVec 64) :
    Client.classify p s (Client.echo p seq) t2 = {s with pc := .releaseEcho t2} := by
  rw [Client.classify,Client.ours_echo p same,if_pos rfl]

private theorem answers_roundReplies (hw : p.kHwTs = true) (unpaced : p.cfg.sendIntervalUs = 0)
    (lasting : p.durationCyc ≠ 0#64)
    (s : Client.State) (top : s.pc = .top) : Answers p s (roundReplies p s) (afterEcho s) := by
  have nonempty : Client.echo p s.seq ≠ [] := by simp [Client.echo]
  apply Answers.send unpaced lasting top
  refine .cons (t := {s with loopTsc := s.start, t1 := s.start, pc := .sequence}) rfl rfl ?_ ?_
  · change some {s with loopTsc := s.start, t1 := s.start, pc := if p.kHwTs then .sequence else .sendStamp} = _
    rw [hw,if_pos rfl]
  refine .cons rfl rfl rfl (.cons rfl rfl rfl ?_)
  refine .cons (t := {afterEcho s with pc := .releaseEcho 0}) rfl rfl ?_ ?_
  · change some (if _ then _ else if p.kHwTs = true then Client.classify p _ _ 0 else _) = _
    rw [if_neg nonempty,if_pos hw,classify_echo rfl]
    rfl
  refine .cons (t := afterEcho s) rfl rfl ?_ (.nil p _)
  change some (if p.kHwTs = true then _ else _) = _
  rw [if_pos hw]
  rfl

private theorem reaches_afterEcho (hw : p.kHwTs = true) (unpaced : p.cfg.sendIntervalUs = 0)
    (lasting : p.durationCyc ≠ 0#64)
    (s : Client.State) (top : s.pc = .top) : Reaches p s (afterEcho s) :=
  ⟨_,answers_roundReplies hw unpaced lasting s top⟩

private theorem reaches_of_stamp (s : Client.State) (here : s.pc = .pollStamp) (stamp : TxStamp) :
    Reaches p s (Client.joinStamp s (some stamp)) := by
  refine ⟨[.stamp (some stamp)],⟨⟨.pollTxTimestamp,?_,rfl,by simp⟩,fun _ _ => trivial⟩,?_⟩
  · simp [Client.producer,Client.call,here]
  · simp [Client.next,here,Reply.stamp?]

private theorem reaches_warmup (hw : p.kHwTs = true) (unpaced : p.cfg.sendIntervalUs = 0) (lasting : p.durationCyc ≠ 0#64)
    (s : Client.State) (top : s.pc = .top) (cold : s.warmup = 0) (n : Nat) (within : n ≤ kWarmupDiscard) :
    ∃ t, Reaches p s t ∧ t.pc = .top ∧ t.warmup = n := by
  induction n with
  | zero => exact ⟨s,⟨[],trivial,rfl⟩,top,cold⟩
  | succ n ih =>
    obtain ⟨t,reached,atTop,warm⟩ := ih (by omega)
    have echoed := reaches_afterEcho hw unpaced lasting t atTop
    have joined := reaches_of_stamp (p := p) (afterEcho t) rfl ⟨t.seq,0⟩
    have cool : (afterEcho t).warmup < kWarmupDiscard := by
      change t.warmup < kWarmupDiscard
      omega
    have warmer : Client.joinStamp (afterEcho t) (some ⟨t.seq,0⟩) =
        Client.endRound true {afterEcho t with warmup := (afterEcho t).warmup + 1} := by
      rw [Client.joinStamp,if_neg (by simp [afterEcho]),if_pos cool]
    rw [warmer] at joined
    exact ⟨_,(reached.trans echoed).trans joined,rfl,congrArg (· + 1) warm⟩

/-- After the warm-up the hardware-timestamp client can come to offer any pair of
stamps: the receive word and the stamp of the send are whatever the card reports. -/
theorem reaches_push (hw : p.kHwTs = true) (unpaced : p.cfg.sendIntervalUs = 0) (lasting : p.durationCyc ≠ 0#64)
    (s : Client.State) (top : s.pc = .top) (cold : s.warmup = 0) (rx minor : BitVec 32) :
    ∃ t, Reaches p s t ∧ t.pc = .push (.hardware rx minor) := by
  obtain ⟨t,reached,atTop,warm⟩ := reaches_warmup hw unpaced lasting s top cold kWarmupDiscard (Nat.le_refl _)
  have echoed := reaches_afterEcho hw unpaced lasting t atTop
  have joined := reaches_of_stamp (p := p) (afterEcho t) rfl ⟨t.seq,minor⟩
  have recording : ¬ (afterEcho t).warmup < kWarmupDiscard := by
    change ¬ t.warmup < kWarmupDiscard
    omega
  have matched : Client.joinStamp (afterEcho t) (some ⟨t.seq,minor⟩) = {afterEcho t with pc := .rxStamp minor} := by
    rw [Client.joinStamp,if_neg (by simp [afterEcho]),if_neg recording]
  rw [matched] at joined
  have read : Reaches p {afterEcho t with pc := .rxStamp minor} {afterEcho t with pc := .push (.hardware rx minor)} :=
    ⟨[.word rx],⟨⟨.hwRxTimestamp,rfl,rfl,by simp⟩,fun _ _ => trivial⟩,rfl⟩
  exact ⟨_,((reached.trans echoed).trans joined).trans read,rfl⟩

end WarmUp

theorem run_consistent (source : Source) (p : HistThread.Setting) (producer : source.State)
    (started : source.Started producer) {events : List Event} {final : System source.State}
    (ran : run (step source.producer p) (source.initial producer) events = some final) :
    Consistent source.producer p final :=
  reachable_invariant (Consistent source.producer p) (fun _ _ _ consistent moved => step_consistent consistent moved)
    (init_consistent _ _ _ _ (source.started_sampling producer started)) ran

theorem run_clean (source : Source) (p : HistThread.Setting) (producer : source.State) {events : List Event}
    {final : System source.State}
    (valid : Along (step source.producer p) (StampsValid source.producer) (source.initial producer) events)
    (ran : run (step source.producer p) (source.initial producer) events = some final) : Clean final :=
  run_invariant Clean (fun _ _ _ clean valid moved => step_clean clean valid moved) (by simp [Clean,Source.initial,init])
    valid ran

private theorem run_drained (source : Source) (p : HistThread.Setting) (producer : source.State)
    (started : source.Started producer) {events : List Event} {final : System source.State}
    (orderly : Along (step source.producer p) (Orderly source.producer) (source.initial producer) events)
    (ran : run (step source.producer p) (source.initial producer) events = some final) :
    Consistent source.producer p final ∧ Drained source.producer final := by
  apply run_invariant (fun s => Consistent source.producer p s ∧ Drained source.producer s) _ _ orderly ran
  · intro s event t holds meets moved
    exact ⟨step_consistent holds.1 moved,step_drained holds.1 holds.2 meets moved⟩
  · refine ⟨init_consistent _ _ _ _ (source.started_sampling producer started),?_,?_,?_⟩
    · simp [Clean,Source.initial,init]
    · simp [Source.initial,init,HistThread.start,HistThread.exit]
    · simp [Source.initial,init,HistThread.start,HistThread.exit]

/-- The sampling loop keeps clear of the end marker exactly when no pushed pair of
stamps collides, and then the recorder pops the marker only after the producer is done. -/
theorem endMarker_of_stampsValid (source : Source) (p : HistThread.Setting) (producer : source.State)
    (started : source.Started producer) (events : List Event) :
    (Along (step source.producer p) (NoCollision source.producer) (source.initial producer) events ↔
      Along (step source.producer p) (StampsValid source.producer) (source.initial producer) events) ∧
    (Along (step source.producer p) (StampsValid source.producer) (source.initial producer) events →
      ∀ final, run (step source.producer p) (source.initial producer) events = some final →
        HistThread.exit final.hist = some .sentinel → source.producer.phase final.producer = .returned) := by
  refine ⟨along_congr (noCollision_iff source.producer) _ _,?_⟩
  intro valid final ran ended
  have consistent := run_consistent source p producer started ran
  have clean := run_clean source p producer valid ran
  exact returned_of_popped consistent clean (consistent.ended.mpr ended)

/-- A lab configuration: unpaced, one queue slot, hardware timestamps. -/
def labConfig : TestConfig := ⟨0x88B5,64,0,1,.localAddress 1,.localAddress 2⟩

def labClient : Client.Setting := ⟨labConfig,true,1000,1000⟩

def labStart : Client.State := ⟨.top,0,0,0,0,0,0,⟨0,0⟩,0,0,0,0,0,0⟩

def labHist : HistThread.Setting := ⟨240000000000,2400000000000,none,0,fun _ => true⟩

private theorem labClient_reaches (rx minor : BitVec 32) :
    ∃ t, Reaches labClient labStart t ∧ t.pc = .push (.hardware rx minor) :=
  reaches_push rfl rfl (by decide) labStart rfl rfl rx minor

private theorem step_push {h : HistThread.Setting} {s : System Client.State} {stamps : Stamps}
    (here : s.producer.pc = .push stamps) {queue : BoundedQueue (BitVec 64)}
    (room : s.queue.tryPush stamps.sample = some queue) :
    step (Client.producer labClient) h s (.producer .done) =
      some {s with producer := Client.endRound true {s.producer with recorded := s.producer.recorded + 1},
                   queue := queue, accepted := s.accepted ++ [stamps.sample]} := by
  simp [step,stepProducer,Client.producer,Client.call,Client.next,Client.phase,Call.sample?,Reply.flag?,here,room]

private theorem step_over {h : HistThread.Setting} {s : System Client.State} (top : s.producer.pc = .top) :
    step (Client.producer labClient) h s (.producer (.time (s.producer.start + 1000))) =
      some {s with producer := {s.producer with loopTsc := s.producer.start + 1000, pc := .finish}} := by
  have elapsed : labClient.durationCyc ≤ s.producer.start + 1000 - s.producer.start := by
    rw [BitVec.add_comm,BitVec.add_sub_cancel]
    decide
  simp only [step,stepProducer,Client.producer,Client.call,Client.next,Call.sample?,Reply.time?,top,
    Option.bind_some,reduceCtorEq,if_false,Option.map_some,if_pos elapsed]

private theorem stamps_of_answered {σ : Type} {P : Producer σ} {stop : Bool} {producer : σ} {reply : Reply}
    (answered : Answered P stop producer reply) : ∀ pair ∈ P.stamps producer, ¬ pair.Collides := by
  intro pair held
  obtain ⟨call,offered,notPush,_⟩ := answered
  obtain ⟨_,pushes⟩ := P.holds producer pair held
  rw [Option.some.inj (offered.symm.trans pushes)] at notPush
  contradiction

private theorem orderly_of_answered {σ : Type} {P : Producer σ} (p : HistThread.Setting) {replies : List Reply}
    (s : System σ) {final : σ} (answered : Along P.next (Answered P s.stop) s.producer replies)
    (ran : run P.next s.producer replies = some final) : Along (step P p) (Orderly P) s (replies.map .producer) := by
  induction replies generalizing s with
  | nil => trivial
  | cons reply rest ih =>
    obtain ⟨next,went,tail⟩ := run_cons_some ran
    refine ⟨stamps_of_answered answered.1,fun t moved => ?_⟩
    rw [step_of_answered p answered.1 went] at moved
    cases Option.some.inj moved
    exact ih {s with producer := next} (answered.2 next went) tail

def labSample : BitVec 64 := (Stamps.hardware 7 5).sample

private theorem labSample_data : labSample ≠ kEndSentinel := by decide

def Goes {σ : Type} (P : Producer σ) (p : HistThread.Setting) (s : System σ) (events : List Event) (t : System σ) : Prop :=
  run (step P p) s events = some t ∧ Along (step P p) (Orderly P) s events

private theorem Goes.trans {σ : Type} {P : Producer σ} {p : HistThread.Setting} {s t u : System σ}
    {first second : List Event}
    (before : Goes P p s first t) (after : Goes P p t second u) : Goes P p s (first ++ second) u :=
  ⟨run_trans before.1 after.1,along_append before.2 before.1 after.2⟩

private theorem Goes.producer {σ : Type} {P : Producer σ} {p : HistThread.Setting} {s t : System σ} {answer : Reply}
    (moved : step P p s (.producer answer) = some t) (apart : ∀ pair ∈ P.stamps s.producer, ¬ pair.Collides) :
    Goes P p s [.producer answer] t := ⟨run_singleton moved,apart,fun _ _ => trivial⟩

private theorem orderly_hist {σ : Type} {P : Producer σ} (p : HistThread.Setting) {s : System σ} (running : s.stop = false)
    (begun : s.hist.pc ≠ .init) (answers : List HistThread.Reply) : Along (step P p) (Orderly P) s (answers.map .hist) := by
  induction answers generalizing s with
  | nil => trivial
  | cons answer rest ih =>
    refine ⟨⟨fun here => absurd here begun,fun _ stop => ?_⟩,fun t moved => ?_⟩
    · rw [running] at stop
      contradiction
    · cases stepHist_action moved with
      | sample | ended | initFailed | stopped | peek => exact ih running (by simp)
      | goOn _ _ _ _ later => exact ih running later

/-- The recorder starts, counts the sample and waits; the client is out of time and pushes the
end marker. -/
def startAndRecord : List Event := [.hist (.flag true),.hist (.time 0),.hist (.time 1),.hist .done,.hist .done]

def popMarker : List Event := [.time 2,.done,.done].map .hist

def labCounted : HistThread.State := ⟨.heartbeat,0,labHist.hbCyc,1,0,[labSample]⟩

private theorem run_startAndRecord (producer : Client.State) (one : [labSample].length ≤ 1) :
    run (step (Client.producer labClient) labHist) ⟨producer,HistThread.start,⟨1,[labSample],one⟩,false,[labSample],[]⟩
        startAndRecord = some ⟨producer,labCounted,BoundedQueue.empty 1,false,[labSample],[labSample]⟩ := by
  simp [startAndRecord,labCounted,step,stepHist,HistThread.call,HistThread.next,HistThread.start,HistThread.record,
    HistThread.decoded,BoundedQueue.front,BoundedQueue.pop,BoundedQueue.empty,labHist,labSample_data]

private theorem step_mark (producer : Client.State) (here : producer.pc = .finish) :
    step (Client.producer labClient) labHist ⟨producer,labCounted,BoundedQueue.empty 1,false,[labSample],[labSample]⟩
        (.producer .done) =
      some ⟨{producer with pc := .returned},labCounted,⟨1,[kEndSentinel],Nat.le_refl 1⟩,false,[labSample],[labSample]⟩ := by
  simp [step,stepProducer,BoundedQueue.tryPush,BoundedQueue.empty,Client.producer,Client.call,Client.next,Client.phase,
    Call.sample?,Reply.flag?,here]

private theorem run_popMarker (producer : Client.State) :
    run (step (Client.producer labClient) labHist)
        ⟨producer,labCounted,⟨1,[kEndSentinel],Nat.le_refl 1⟩,false,[labSample],[labSample]⟩ popMarker =
      some ⟨producer,{labCounted with pc := .report .sentinel},BoundedQueue.empty 1,false,[labSample],
        [labSample,kEndSentinel]⟩ := by
  simp [popMarker,labCounted,step,stepHist,HistThread.call,HistThread.next,BoundedQueue.front,BoundedQueue.pop,
    BoundedQueue.empty,labHist]

private theorem goes_record (producer : Client.State) (top : producer.pc = .top) (one : [labSample].length ≤ 1) :
    ∃ final, Goes (Client.producer labClient) labHist ⟨producer,HistThread.start,⟨1,[labSample],one⟩,false,[labSample],[]⟩
        (startAndRecord ++ ([.producer (.time (producer.start + 1000))] ++ ([.producer .done] ++ popMarker))) final ∧
      final.accepted = [labSample] ∧ final.hist.histogram = [labSample] ∧ HistThread.exit final.hist = some .sentinel := by
  have none {state : Client.State} (here : state.pc = .top ∨ state.pc = .finish) :
      ∀ pair ∈ (Client.producer labClient).stamps state, ¬ pair.Collides := by
    intro pair held
    change Client.stamps state = some pair at held
    rcases here with here | here <;> simp [Client.stamps,here] at held
  have counted : Goes (Client.producer labClient) labHist
      ⟨producer,HistThread.start,⟨1,[labSample],one⟩,false,[labSample],[]⟩ startAndRecord
      ⟨producer,labCounted,BoundedQueue.empty 1,false,[labSample],[labSample]⟩ := by
    refine ⟨run_startAndRecord producer one,⟨fun _ => rfl,fun _ stop => by contradiction⟩,fun t moved => ?_⟩
    cases Option.some.inj moved
    exact orderly_hist labHist rfl (by simp) [.time 0,.time 1,.done,.done]
  have late := Goes.producer (step_over (h := labHist)
    (s := ⟨producer,labCounted,BoundedQueue.empty 1,false,[labSample],[labSample]⟩) top) (none (.inl top))
  have marked := Goes.producer
    (step_mark {producer with loopTsc := producer.start + 1000, pc := .finish} rfl) (none (.inr rfl))
  exact ⟨_,counted.trans (late.trans (marked.trans ⟨run_popMarker _,orderly_hist labHist rfl (by simp [labCounted]) _⟩)),
    rfl,rfl,rfl⟩

/-- After the warm-up one sample is pushed, popped and recorded, and the end marker ends the recording. -/
private theorem labClient_records : ∃ events final,
    Goes (Source.client labClient).producer labHist ((Source.client labClient).initial labStart) events final ∧
      final.accepted = [labSample] ∧ final.hist.histogram = [labSample] ∧ HistThread.exit final.hist = some .sentinel := by
  obtain ⟨t,⟨replies,answered,ran⟩,here⟩ := labClient_reaches 7 5
  have warmed : Goes (Client.producer labClient) labHist ((Source.client labClient).initial labStart)
      (replies.map .producer)
      ⟨t,HistThread.start,BoundedQueue.empty 1,false,[],[]⟩ :=
    ⟨run_of_answered labHist _ answered ran,orderly_of_answered labHist _ answered ran⟩
  have pushed := Goes.producer (step_push (h := labHist)
    (s := ⟨t,HistThread.start,BoundedQueue.empty 1,false,[],[]⟩) here rfl) (by
      intro pair held
      change Client.stamps t = some pair at held
      rw [Client.stamps,here] at held
      cases held
      decide)
  obtain ⟨final,rest,results⟩ := goes_record (Client.endRound true {t with recorded := t.recorded + 1}) rfl (Nat.le_refl 1)
  exact ⟨_,final,warmed.trans (pushed.trans rest),results⟩

theorem endMarker_of_stampsValid_recorded : ∃ events final,
    run (step (Source.client labClient).producer labHist) ((Source.client labClient).initial labStart) events = some final ∧
      final.accepted = [labSample] ∧ final.hist.histogram = [labSample] ∧ HistThread.exit final.hist = some .sentinel ∧
      Along (step (Source.client labClient).producer labHist) (NoCollision (Source.client labClient).producer)
        ((Source.client labClient).initial labStart) events ∧
      (Source.client labClient).producer.phase final.producer = .returned := by
  obtain ⟨events,final,⟨ran,orderly⟩,accepted,histogram,ended⟩ := labClient_records
  have valid := along_mono (fun _ _ => stampsValid_of_orderly) orderly
  obtain ⟨same,returns⟩ := endMarker_of_stampsValid (.client labClient) labHist labStart ⟨0,⟨0,0⟩,rfl⟩ events
  exact ⟨events,final,ran,accepted,histogram,ended,same.mpr valid,returns valid final ran ended⟩

def startAndPop : List Event := [.hist (.flag true),.hist (.time 0),.hist (.time 1),.hist .done,.hist .done]

private theorem run_startAndPop (producer : Client.State) (one : [kEndSentinel].length ≤ 1) :
    run (step (Client.producer labClient) labHist)
        ⟨producer,HistThread.start,⟨1,[kEndSentinel],one⟩,false,[kEndSentinel],[]⟩ startAndPop =
      some ⟨producer,⟨.report .sentinel,0,labHist.hbCyc,0,0,[]⟩,BoundedQueue.empty 1,false,[kEndSentinel],
        [kEndSentinel]⟩ := by
  simp [startAndPop,step,stepHist,HistThread.call,HistThread.next,HistThread.start,BoundedQueue.front,
    BoundedQueue.pop,BoundedQueue.empty,labHist]

/-- Both stamps missing after the warm-up: the recorder takes the sample for the end
marker and leaves while the client is still in its loop. -/
theorem endMarker_taken_for_missing_stamps :
    ∃ events final, run (step (Source.client labClient).producer labHist)
        ((Source.client labClient).initial labStart) events = some final ∧
      (Source.client labClient).Started labStart ∧ kEndSentinel ∈ final.accepted ∧
      HistThread.exit final.hist = some .sentinel ∧
      (Source.client labClient).producer.phase final.producer = .sampling := by
  obtain ⟨t,⟨replies,answered,ran⟩,here⟩ := labClient_reaches 0xFFFFFFFF kTxStampNone
  have warmed := run_of_answered (P := Client.producer labClient) labHist
    ((Source.client labClient).initial labStart) answered ran
  have pushed := step_push (h := labHist) (s := ⟨t,HistThread.start,BoundedQueue.empty 1,false,[],[]⟩) here rfl
  have popped := run_startAndPop (Client.endRound true {t with recorded := t.recorded + 1}) (Nat.le_refl 1)
  have rest := run_trans (run_singleton pushed) popped
  exact ⟨_,_,run_trans warmed rest,⟨0,⟨0,0⟩,rfl⟩,List.mem_singleton.mpr rfl,rfl,rfl⟩

/-- In an orderly run a recorder that has left its loop has counted every sample the
queue took, and no producer is left pushing the end marker into a full queue. -/
theorem shutdown_of_orderly (source : Source) (p : HistThread.Setting) (producer : source.State)
    (started : source.Started producer) (events : List Event) (final : System source.State)
    (orderly : Along (step source.producer p) (Orderly source.producer) (source.initial producer) events)
    (ran : run (step source.producer p) (source.initial producer) events = some final) :
    (HistThread.exit final.hist ≠ none → samples final.popped = final.accepted ∧
      final.hist.recorded + final.hist.dropped = final.accepted.length ∧
      final.hist.histogram = final.accepted.filterMap (HistThread.kept p)) ∧
    ¬ (HistThread.exit final.hist ≠ none ∧ final.queue.Full ∧ source.producer.phase final.producer = .finishing) := by
  obtain ⟨consistent,drained⟩ := run_drained source p producer started orderly ran
  constructor
  · intro left
    have all := drained.all left
    refine ⟨all,?_,?_⟩
    · rw [consistent.counted,all]
    · rw [consistent.stored,all]
  · rintro ⟨left,full,finishing⟩
    have order := consistent.order
    have clean : kEndSentinel ∉ final.popped := by
      intro popped
      rw [returned_of_popped consistent drained.clean popped] at finishing
      contradiction
    rw [marker,if_neg (by simp [finishing]),List.append_nil,← drained.all left,samples_of_clean clean] at order
    have empty : final.queue.items = [] := by simpa using order
    have room := consistent.capacity
    unfold BoundedQueue.Full at full
    rw [empty,List.length_nil] at full
    omega

theorem shutdown_of_orderly_recorded : ∃ events final,
    run (step (Source.client labClient).producer labHist) ((Source.client labClient).initial labStart) events = some final ∧
      HistThread.exit final.hist = some .sentinel ∧ final.accepted = [labSample] ∧ samples final.popped = [labSample] ∧
      final.hist.recorded + final.hist.dropped = 1 ∧
      ¬ (final.queue.Full ∧ (Source.client labClient).producer.phase final.producer = .finishing) := by
  obtain ⟨events,final,⟨ran,orderly⟩,accepted,_,ended⟩ := labClient_records
  have left : HistThread.exit final.hist ≠ none := by simp [ended]
  obtain ⟨counts,free⟩ := shutdown_of_orderly (.client labClient) labHist labStart ⟨0,⟨0,0⟩,rfl⟩ events final orderly ran
  obtain ⟨popped,counted,_⟩ := counts left
  rw [accepted] at popped counted
  exact ⟨events,final,ran,ended,accepted,popped,counted,fun stuck => free ⟨left,stuck⟩⟩

/-- With no histogram the recorder is gone at once: the first recorded sample is never
popped, and the client then waits for ever to push the end marker. -/
theorem shutdown_stuck_without_histogram :
    ∃ events final, run (step (Source.client labClient).producer labHist)
        ((Source.client labClient).initial labStart) events = some final ∧
      (Source.client labClient).Started labStart ∧ final.hist.pc = .returned .initFailed ∧ final.queue.Full ∧
      (Source.client labClient).producer.phase final.producer = .finishing ∧
      final.accepted.length = 1 ∧ final.popped = [] := by
  obtain ⟨t,⟨replies,answered,ran⟩,here⟩ := labClient_reaches 7 5
  have failed : step (Client.producer labClient) labHist ((Source.client labClient).initial labStart)
      (.hist (.flag false)) = some ⟨labStart,⟨.returned .initFailed,0,0,0,0,[]⟩,BoundedQueue.empty 1,false,[],[]⟩ := rfl
  have warmed := run_of_answered (P := Client.producer labClient) labHist
    ⟨labStart,⟨.returned .initFailed,0,0,0,0,[]⟩,BoundedQueue.empty 1,false,[],[]⟩ answered ran
  have pushed := step_push (h := labHist)
    (s := ⟨t,⟨.returned .initFailed,0,0,0,0,[]⟩,BoundedQueue.empty 1,false,[],[]⟩) here rfl
  have stuck := run_trans (run_trans (run_trans (run_singleton failed) warmed) (run_singleton pushed))
    (run_singleton (step_over rfl))
  exact ⟨_,_,stuck,⟨0,⟨0,0⟩,rfl⟩,rfl,rfl,rfl,rfl,rfl⟩

end Abtrda3.RecorderShutdown
