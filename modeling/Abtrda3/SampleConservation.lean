import Abtrda3.RecorderShutdown

/-! Where the samples go. The two loops that count what they record, the round-trip client
and the one-way receiver, are compared with the recorder behind their queue: what the
producer counted and did not fail to push is what the recorder counted or dropped, and what
the recorder counted is in the histogram exactly if the histogram took every value. -/
namespace Abtrda3.SampleConservation
open Abtrda3.Application Abtrda3.Semantics Abtrda3.Semantics.Machine Abtrda3.RecorderStream Abtrda3.RecorderShutdown

/-- The counters of a producer: both move at a push of a sample only. -/
structure Tally {σ : Type} (P : Producer σ) where
  recorded : σ → Nat
  pushFailures : σ → Nat
  sound : σ → Prop
  counts : ∀ s pair ok t, sound s → P.stamps s = some pair → P.next s (.flag ok) = some t →
    sound t ∧ recorded t = recorded s + 1 ∧ pushFailures t = pushFailures s + (!ok).toNat
  keeps : ∀ s reply t, sound s → P.stamps s = none → P.next s reply = some t →
    sound t ∧ recorded t = recorded s ∧ pushFailures t = pushFailures s

section Balance

variable {σ : Type} {P : Producer σ}

structure Balanced (T : Tally P) (s : System σ) : Prop where
  sound : T.sound s.producer
  total : T.recorded s.producer = s.accepted.length + T.pushFailures s.producer

private theorem stepProducer_balanced {T : Tally P} {s t : System σ} {answer : Reply} (balanced : Balanced T s)
    (moved : stepProducer P s answer = some t) : Balanced T t := by
  have total := balanced.total
  rcases stepProducer_cases moved with ⟨sample,producer,queue,offered,_,went,rfl⟩ | ⟨reply,producer,went,refused,rfl⟩
  · cases held : P.stamps s.producer with
    | some pair =>
      obtain ⟨sampling,_⟩ := P.holds s.producer pair held
      obtain ⟨sound,recorded,failures⟩ := T.counts _ _ _ _ balanced.sound held went
      refine ⟨sound,?_⟩
      rw [recorded,failures,total,if_pos sampling,List.length_append]
      exact Nat.add_right_comm _ _ _
    | none =>
      obtain ⟨sound,recorded,failures⟩ := T.keeps _ _ _ balanced.sound held went
      have past : P.phase s.producer ≠ .sampling := by
        intro sampling
        obtain ⟨pair,other,_⟩ := P.offers s.producer sample sampling offered
        cases held.symm.trans other
      refine ⟨sound,?_⟩
      rw [recorded,failures,if_neg past]
      exact total
  · cases held : P.stamps s.producer with
    | some pair =>
      cases refused _ (P.holds s.producer pair held).2
      obtain ⟨sound,recorded,failures⟩ := T.counts _ _ _ _ balanced.sound held went
      refine ⟨sound,?_⟩
      rw [recorded,failures,total]
      rfl
    | none =>
      obtain ⟨sound,recorded,failures⟩ := T.keeps _ _ _ balanced.sound held went
      refine ⟨sound,?_⟩
      rw [recorded,failures]
      exact total

theorem step_balanced {T : Tally P} {p : HistThread.Setting} {s t : System σ} {event : Event} (balanced : Balanced T s)
    (moved : step P p s event = some t) : Balanced T t := by
  cases event with
  | producer answer => exact stepProducer_balanced balanced moved
  | hist answer =>
    cases stepHist_action moved <;> exact ⟨balanced.sound,balanced.total⟩
  | requestStop =>
    cases Option.some.inj moved
    exact ⟨balanced.sound,balanced.total⟩

/-- Why the recorder left: a stop was requested, or it popped nothing. -/
structure Reasoned (s : System σ) : Prop where
  stopped : HistThread.exit s.hist = some .stopped → s.stop = true
  failed : s.hist.pc = .init ∨ HistThread.exit s.hist = some .initFailed → s.popped = []

private theorem stepHist_reasoned {p : HistThread.Setting} {s t : System σ} {answer : HistThread.Reply}
    (reasoned : Reasoned s)
    (moved : stepHist p s answer = some t) : Reasoned t := by
  cases stepHist_action moved with
  | sample | ended | peek => exact ⟨nofun,nofun⟩
  | initFailed here => exact ⟨nofun,fun _ => reasoned.failed (.inl here)⟩
  | stopped _ requested => exact ⟨fun _ => requested,nofun⟩
  | goOn _ _ _ exit begun =>
    refine ⟨fun left => reasoned.stopped (exit.symm.trans left),?_⟩
    rintro (early | failed)
    · exact absurd early begun
    · exact reasoned.failed (.inr (exit.symm.trans failed))

theorem step_reasoned {p : HistThread.Setting} {s t : System σ} {event : Event} (reasoned : Reasoned s)
    (moved : step P p s event = some t) : Reasoned t := by
  cases event with
  | producer answer =>
    rcases stepProducer_cases moved with ⟨_,_,_,_,_,_,rfl⟩ | ⟨_,_,_,_,rfl⟩ <;> exact ⟨reasoned.stopped,reasoned.failed⟩
  | hist answer => exact stepHist_reasoned reasoned moved
  | requestStop =>
    cases Option.some.inj moved
    exact ⟨fun _ => rfl,reasoned.failed⟩

end Balance

section Counters

private theorem client_keeps (p : Client.Setting) (s : Client.State) (reply : Reply) (t : Client.State)
    (quiet : Client.stamps s = none) (moved : Client.next p s reply = some t) :
    t.recorded = s.recorded ∧ t.pushFailures = s.pushFailures := by
  rcases s with ⟨pc,start,loopTsc,t1,seq,txSeq,spins,nextSend,sent,recorded,timeouts,warmup,missing,failures⟩
  cases pc <;> simp only [Client.next,Option.map_eq_some_iff] at moved
  case returned => cases moved
  case push => cases quiet
  all_goals obtain ⟨value,_,rfl⟩ := moved
  case pollStamp =>
    cases value with
    | none => dsimp only [Client.joinStamp]; split_ifs <;> exact ⟨rfl,rfl⟩
    | some stamp => dsimp only [Client.joinStamp]; split_ifs <;> exact ⟨rfl,rfl⟩
  case releaseEcho =>
    unfold Client.recordCycles
    split_ifs <;> exact ⟨rfl,rfl⟩
  all_goals first | exact ⟨rfl,rfl⟩ | (split_ifs <;> exact ⟨rfl,rfl⟩)

def clientTally (p : Client.Setting) : Tally (Client.producer p) where
  recorded := Client.State.recorded
  pushFailures := Client.State.pushFailures
  sound := fun _ => True
  counts := by
    intro s pair ok t _ held moved
    have here : s.pc = .push pair := by
      change Client.stamps s = some pair at held
      unfold Client.stamps at held
      split at held
      · next here => rw [here,Option.some.inj held]
      · cases held
    change Client.next p s (.flag ok) = some t at moved
    unfold Client.next at moved
    rw [here] at moved
    cases Option.some.inj moved
    cases ok <;> exact ⟨trivial,rfl,rfl⟩
  keeps := fun s reply t _ quiet moved => ⟨trivial,client_keeps p s reply t quiet moved⟩

def Unrecorded (s : SingleRecorder.State) : Prop :=
  s.warmupSeen < kWarmupDiscard → s.counters.recorded = 0 ∧ s.counters.pushFailures = 0 ∧ SingleRecorder.stamps s = none

private theorem take_keeps (s : SingleRecorder.State) (seqNet : BitVec 32) (t0 t1 : BitVec 64)
    (sound : Unrecorded s) :
    Unrecorded (SingleRecorder.take s seqNet t0 t1) ∧
    (SingleRecorder.take s seqNet t0 t1).counters.recorded = s.counters.recorded ∧
    (SingleRecorder.take s seqNet t0 t1).counters.pushFailures = s.counters.pushFailures := by
  obtain ⟨recorded,failures⟩ := SingleRecorder.accept_counters s.gate (htonl seqNet) s.counters
  unfold SingleRecorder.take
  rcases asked : s.gate.accept (htonl seqNet) s.counters with ⟨passed,gate,counters⟩
  rw [asked] at recorded failures
  dsimp only at recorded failures ⊢
  cases passed with
  | false =>
    refine ⟨fun early => ?_,recorded,failures⟩
    obtain ⟨zero,clear,_⟩ := sound early
    exact ⟨recorded.trans zero,failures.trans clear,rfl⟩
  | true =>
    rw [if_neg nofun]
    rcases SingleRecorder.inWarmup_cases {s with gate := gate, counters := counters, pc := .poll} with
      ⟨past,answer⟩ | ⟨last,answer⟩ | ⟨early,answer⟩
    · rw [answer]
      exact ⟨fun early => absurd early (Nat.not_lt_of_le past),recorded,failures⟩
    · rw [answer]
      have early : s.warmupSeen < kWarmupDiscard := Nat.lt_of_lt_of_eq (Nat.lt_succ_self _) last
      obtain ⟨_,clear,_⟩ := sound early
      exact ⟨fun more => absurd last (Nat.ne_of_lt more),recorded,clear.symm⟩
    · rw [answer]
      obtain ⟨zero,clear,_⟩ := sound (Nat.lt_of_succ_lt early)
      exact ⟨fun _ => ⟨recorded.trans zero,failures.trans clear,rfl⟩,recorded,failures⟩

private theorem recorder_keeps (cfg : TestConfig) (s : SingleRecorder.State) (reply : Reply) (t : SingleRecorder.State)
    (sound : Unrecorded s) (quiet : SingleRecorder.stamps s = none) (moved : SingleRecorder.next cfg s reply = some t) :
    Unrecorded t ∧ t.counters.recorded = s.counters.recorded ∧ t.counters.pushFailures = s.counters.pushFailures := by
  rcases s with ⟨pc,gate,counters,graceEmpty,warmupSeen⟩
  have still (here : SingleRecorder.Pc) (grace : BitVec 32)
      (idle : SingleRecorder.stamps ⟨here,gate,counters,grace,warmupSeen⟩ = none) :
      Unrecorded ⟨here,gate,counters,grace,warmupSeen⟩ := by
    intro early
    obtain ⟨zero,clear,_⟩ := sound early
    exact ⟨zero,clear,idle⟩
  cases pc <;> simp only [SingleRecorder.next,Option.map_eq_some_iff] at moved
  case returned => cases moved
  case push => cases quiet
  case releaseTake =>
    obtain ⟨_,_,rfl⟩ := moved
    exact take_keeps _ _ _ _ sound
  case arrival =>
    obtain ⟨_,_,rfl⟩ := moved
    unfold SingleRecorder.examine
    split_ifs <;> exact ⟨still _ _ rfl,rfl,rfl⟩
  case poll | doneCheck | finish =>
    obtain ⟨_,_,rfl⟩ := moved
    split_ifs <;> exact ⟨still _ _ rfl,rfl,rfl⟩
  case releaseDrop =>
    obtain ⟨_,_,rfl⟩ := moved
    exact ⟨still _ _ rfl,rfl,rfl⟩

def recorderTally (cfg : TestConfig) : Tally (SingleRecorder.producer cfg) where
  recorded := fun s => s.counters.recorded
  pushFailures := fun s => s.counters.pushFailures
  sound := Unrecorded
  counts := by
    intro s pair ok t sound held moved
    have here : s.pc = .push pair := by
      change SingleRecorder.stamps s = some pair at held
      unfold SingleRecorder.stamps at held
      split at held
      · next here => rw [here,Option.some.inj held]
      · cases held
    have past : ¬ s.warmupSeen < kWarmupDiscard := by
      intro early
      obtain ⟨_,_,quiet⟩ := sound early
      cases quiet.symm.trans held
    change SingleRecorder.next cfg s (.flag ok) = some t at moved
    unfold SingleRecorder.next at moved
    rw [here] at moved
    cases Option.some.inj moved
    cases ok <;> exact ⟨fun early => absurd early past,rfl,rfl⟩
  keeps := recorder_keeps cfg

end Counters

inductive Loop
  | client (p : Client.Setting)
  | recorder (cfg : TestConfig)

namespace Loop

def source : Loop → Source
  | .client p => .client p
  | .recorder cfg => .recorder cfg

def tally : (loop : Loop) → Tally loop.source.producer
  | .client p => clientTally p
  | .recorder cfg => recorderTally cfg

private theorem started_balanced (loop : Loop) (producer : loop.source.State) (started : loop.source.Started producer) :
    Balanced loop.tally (loop.source.initial producer) := by
  cases loop with
  | client p =>
    obtain ⟨now,clock,opened⟩ := started
    unfold Client.start at opened
    split at opened
    · cases opened
    · cases Option.some.inj opened
      exact ⟨trivial,rfl⟩
  | recorder cfg =>
    cases started
    exact ⟨fun _ => ⟨rfl,rfl,rfl⟩,rfl⟩

end Loop

def Recordable (p : HistThread.Setting) (sample : BitVec 64) : Prop :=
  ∀ value ∈ HistThread.decoded p sample, p.tracks value = true

private theorem length_kept_le (p : HistThread.Setting) (samples : List (BitVec 64)) :
    (samples.filterMap (HistThread.kept p)).length ≤ (samples.filterMap (HistThread.decoded p)).length := by
  induction samples with
  | nil => exact Nat.le_refl 0
  | cons sample rest ih =>
    rw [List.filterMap_cons,List.filterMap_cons]
    unfold HistThread.kept at ih ⊢
    cases read : HistThread.decoded p sample with
    | none => exact ih
    | some value =>
      cases taken : p.tracks value with
      | true =>
        rw [Option.filter_some,taken]
        exact Nat.succ_le_succ ih
      | false =>
        rw [Option.filter_some,taken]
        exact Nat.le_succ_of_le ih

/-- Every decoded sample is kept exactly if the histogram takes all of them. -/
theorem length_kept_iff (p : HistThread.Setting) (samples : List (BitVec 64)) :
    (samples.filterMap (HistThread.decoded p)).length = (samples.filterMap (HistThread.kept p)).length ↔
      ∀ sample ∈ samples, Recordable p sample := by
  induction samples with
  | nil => exact ⟨nofun,fun _ => rfl⟩
  | cons sample rest ih =>
    have below := length_kept_le p rest
    rw [List.filterMap_cons,List.filterMap_cons,List.forall_mem_cons,← ih]
    unfold Recordable HistThread.kept
    unfold HistThread.kept at below
    cases read : HistThread.decoded p sample with
    | none => exact ⟨fun same => ⟨nofun,same⟩,fun both => both.2⟩
    | some value =>
      cases taken : p.tracks value with
      | true =>
        rw [Option.filter_some,taken]
        constructor
        · intro same
          exact ⟨fun _ here => Option.some.inj here ▸ taken,Nat.succ.inj same⟩
        · intro both
          exact congrArg Nat.succ both.2
      | false =>
        rw [Option.filter_some,taken]
        constructor
        · intro same
          change _ + 1 = _ at same
          exact absurd same (Nat.ne_of_gt (Nat.lt_succ_of_le below))
        · rintro ⟨all,_⟩
          cases taken.symm.trans (all value rfl)

section Recorder

variable {σ : Type} {P : Producer σ} {p : HistThread.Setting}

def Decoded (p : HistThread.Setting) (s : System σ) : Prop :=
  s.hist.recorded = ((samples s.popped).filterMap (HistThread.decoded p)).length

private theorem stepHist_decoded {s t : System σ} {answer : HistThread.Reply} (consistent : Consistent P p s)
    (decoded : Decoded p s)
    (moved : stepHist p s answer = some t) : Decoded p t := by
  unfold Decoded at decoded ⊢
  cases stepHist_action moved with
  | @sample cyc here data =>
    dsimp only
    rw [HistThread.record_recorded,consistent.peeked cyc here,Option.toList_some,samples_append,if_neg data,
      List.filterMap_append,List.length_append,← decoded]
    cases read : HistThread.decoded p cyc <;> simp [read]
  | ended here =>
    dsimp only
    rw [consistent.peeked _ here,Option.toList_some,samples_append,if_pos rfl]
    exact decoded
  | initFailed | stopped | peek => exact decoded
  | goOn recorded => exact recorded.trans decoded

private theorem step_decoded {s t : System σ} {event : Event} (consistent : Consistent P p s) (decoded : Decoded p s)
    (moved : step P p s event = some t) : Decoded p t := by
  cases event with
  | producer answer => rcases stepProducer_cases moved with ⟨_,_,_,_,_,_,rfl⟩ | ⟨_,_,_,_,rfl⟩ <;> exact decoded
  | hist answer => exact stepHist_decoded consistent decoded moved
  | requestStop =>
    cases Option.some.inj moved
    exact decoded

theorem popped_of_sentinel {s : System σ} (consistent : Consistent P p s) (clean : Clean s)
    (ended : HistThread.exit s.hist = some .sentinel) : samples s.popped = s.accepted := by
  have popped := consistent.ended.mpr ended
  have returned := returned_of_popped consistent clean popped
  obtain ⟨left,right,split⟩ := List.append_of_mem popped
  rw [List.append_cons] at split
  have order := consistent.order
  rw [marker,if_pos returned,split,List.append_assoc (left ++ [kEndSentinel])] at order
  obtain ⟨rfl,none⟩ := eq_of_append_marker clean order
  rw [split,(List.append_eq_nil_iff.mp none).1,List.append_nil,samples_append,if_pos rfl]
  exact samples_of_clean clean

end Recorder

/-- In a completed run without a stop request, of samples other than the end marker: what
the producer counted and did not fail to push is what the recorder counted or dropped. That
and a full histogram are had exactly if the histogram was allocated, or nothing was pushed,
and takes every sample that the decoder takes. -/
theorem samples_conserved_iff_recordable (loop : Loop) (p : HistThread.Setting) (producer : loop.source.State)
    (started : loop.source.Started producer) (events : List Event) (final : System loop.source.State)
    (valid : Along (step loop.source.producer p) (StampsValid loop.source.producer) (loop.source.initial producer) events)
    (ran : run (step loop.source.producer p) (loop.source.initial producer) events = some final)
    (unstopped : final.stop = false) (left : HistThread.exit final.hist ≠ none) :
    (HistThread.exit final.hist = some .sentinel →
      loop.tally.recorded final.producer =
        loop.tally.pushFailures final.producer + (final.hist.recorded + final.hist.dropped)) ∧
    ((loop.tally.recorded final.producer =
        loop.tally.pushFailures final.producer + (final.hist.recorded + final.hist.dropped) ∧
      final.hist.recorded = final.hist.histogram.length) ↔
      (HistThread.exit final.hist = some .initFailed → final.accepted = []) ∧
      ∀ sample ∈ final.accepted, Recordable p sample) := by
  have consistent := run_consistent loop.source p producer started ran
  have clean := run_clean loop.source p producer valid ran
  have balanced := reachable_invariant (Balanced loop.tally) (fun _ _ _ balanced moved => step_balanced balanced moved)
    (loop.started_balanced producer started) ran
  have reasoned : Reasoned final := reachable_invariant Reasoned (fun _ _ _ reasoned moved => step_reasoned reasoned moved)
    ⟨fun stopped => (by cases stopped),fun _ => rfl⟩ ran
  have decoded := (reachable_invariant (fun s => Consistent loop.source.producer p s ∧ Decoded p s)
    (fun _ _ _ both moved => ⟨step_consistent both.1 moved,step_decoded both.1 both.2 moved⟩)
    ⟨init_consistent _ _ _ _ (loop.source.started_sampling producer started),rfl⟩ ran).2
  have counted := consistent.counted
  have stored := consistent.stored
  have total := balanced.total
  unfold Decoded at decoded
  have drained (ended : HistThread.exit final.hist = some .sentinel) := popped_of_sentinel consistent clean ended
  have first : HistThread.exit final.hist = some .sentinel → loop.tally.recorded final.producer =
      loop.tally.pushFailures final.producer + (final.hist.recorded + final.hist.dropped) := by
    intro ended
    rw [total,counted,drained ended,Nat.add_comm]
  refine ⟨first,?_⟩
  cases reason : HistThread.exit final.hist with
  | none => exact absurd reason left
  | some exit =>
    cases exit with
    | stopped => cases unstopped.symm.trans (reasoned.stopped reason)
    | sentinel =>
      rw [decoded,stored,drained reason,length_kept_iff]
      constructor
      · intro both
        exact ⟨nofun,both.2⟩
      · intro both
        refine ⟨?_,both.2⟩
        have same := first reason
        rw [decoded,drained reason] at same
        exact same
    | initFailed =>
      have none := reasoned.failed (.inr reason)
      rw [none] at counted decoded stored
      constructor
      · rintro ⟨same,_⟩
        rw [counted,total] at same
        have empty : final.accepted = [] := List.eq_nil_of_length_eq_zero (by change _ = _ + 0 at same; omega)
        refine ⟨fun _ => empty,?_⟩
        rw [empty]
        nofun
      · rintro ⟨failed,_⟩
        refine ⟨?_,by rw [decoded,stored]; rfl⟩
        rw [total,failed rfl,counted,Nat.add_comm]
        rfl

section Lab

variable {p : Client.Setting}

def cycleReplies (p : Client.Setting) (s : Client.State) (t2 : BitVec 64) : List Reply :=
  [.time s.start,.flag false,.flag true,.done,.time s.start,.done,.frame (Client.echo p s.seq),.time t2,.done]

def atEcho (s : Client.State) (t2 : BitVec 64) : Client.State :=
  {s with pc := .releaseEcho t2, loopTsc := s.start, t1 := s.start, spins := 0, sent := s.sent + 1}

private theorem reaches_cycles (tsc : p.kHwTs = false) (unpaced : p.cfg.sendIntervalUs = 0) (lasting : p.durationCyc ≠ 0#64)
    (s : Client.State) (top : s.pc = .top) (t2 : BitVec 64) : Reaches p s (Client.recordCycles (atEcho s t2) t2) := by
  have nonempty : Client.echo p s.seq ≠ [] := by simp [Client.echo]
  have software : ¬ p.kHwTs = true := by simp [tsc]
  refine ⟨cycleReplies p s t2,?_⟩
  apply Answers.send unpaced lasting top
  refine .cons (t := {s with loopTsc := s.start, t1 := s.start, pc := .sendStamp}) rfl rfl ?_ ?_
  · change some {s with loopTsc := s.start, t1 := s.start, pc := if p.kHwTs then .sequence else .sendStamp} = _
    rw [if_neg software]
  refine .cons rfl rfl rfl (.cons rfl rfl rfl ?_)
  refine .cons (t := {atEcho s t2 with pc := .arrival (Client.echo p s.seq)}) rfl rfl ?_ ?_
  · change some (if _ then _ else if p.kHwTs = true then _ else _) = _
    rw [if_neg nonempty,if_neg software]
    rfl
  refine .cons (t := atEcho s t2) rfl rfl (congrArg some (classify_echo rfl t2)) ?_
  refine .cons rfl rfl ?_ (.nil p _)
  change some (if p.kHwTs = true then _ else _) = _
  rw [if_neg software]

private theorem reaches_cold (tsc : p.kHwTs = false) (unpaced : p.cfg.sendIntervalUs = 0) (lasting : p.durationCyc ≠ 0#64)
    (s : Client.State) (top : s.pc = .top) (cold : s.warmup = 0) (n : Nat) (within : n ≤ kWarmupDiscard) :
    ∃ t, Reaches p s t ∧ t.pc = .top ∧ t.warmup = n ∧ t.start = s.start ∧ t.recorded = s.recorded ∧
      t.pushFailures = s.pushFailures := by
  induction n with
  | zero => exact ⟨s,⟨[],trivial,rfl⟩,top,cold,rfl,rfl,rfl⟩
  | succ n ih =>
    obtain ⟨t,reached,place,warm,start,recorded,failures⟩ := ih (Nat.le_of_succ_le within)
    have round := reaches_cycles tsc unpaced lasting t place t.start
    have cool : (atEcho t t.start).warmup < kWarmupDiscard := by
      change t.warmup < kWarmupDiscard
      omega
    rw [Client.recordCycles,if_pos cool] at round
    exact ⟨_,reached.trans round,rfl,congrArg (· + 1) warm,start,recorded,failures⟩

private theorem reaches_cyclePush (tsc : p.kHwTs = false) (unpaced : p.cfg.sendIntervalUs = 0)
    (lasting : p.durationCyc ≠ 0#64)
    (s : Client.State) (top : s.pc = .top) (cold : s.warmup = 0) (t2 : BitVec 64) :
    ∃ t, Reaches p s t ∧ t.pc = .push (.cycles t2 s.start) ∧ t.start = s.start ∧ t.recorded = s.recorded ∧
      t.pushFailures = s.pushFailures := by
  obtain ⟨t,reached,place,warm,start,recorded,failures⟩ :=
    reaches_cold tsc unpaced lasting s top cold kWarmupDiscard (Nat.le_refl _)
  have round := reaches_cycles tsc unpaced lasting t place t2
  have recording : ¬ (atEcho t t2).warmup < kWarmupDiscard := by
    change ¬ t.warmup < kWarmupDiscard
    omega
  rw [Client.recordCycles,if_neg recording] at round
  refine ⟨_,reached.trans round,?_,start,recorded,failures⟩
  change Client.Pc.push (.cycles t2 t.start) = _
  rw [start]

/-- The client on a 2.4 GHz clock, and a histogram of sixty seconds: its buckets end at 2^38.
-/
def labTsc : Client.Setting := ⟨labConfig,false,1000,2400000000⟩

def labRange : HistThread.Setting := ⟨144000000000,1440000000000,none,0,fun value => decide (value.toNat < 2^38)⟩

def Completes (s t : System Client.State) : Prop :=
  ∃ events, Along (step (Client.producer labTsc) labRange) (StampsValid (Client.producer labTsc)) s events ∧
    run (step (Client.producer labTsc) labRange) s events = some t

theorem Completes.trans {s t u : System Client.State} (first : Completes s t) (second : Completes t u) : Completes s u := by
  obtain ⟨before,valid,ran⟩ := first
  obtain ⟨after,validToo,ranToo⟩ := second
  exact ⟨before ++ after,along_append valid ran validToo,run_trans ran ranToo⟩

theorem Completes.single {s t : System Client.State} {event : Event}
    (moved : step (Client.producer labTsc) labRange s event = some t)
    (valid : StampsValid (Client.producer labTsc) s event) : Completes s t :=
  ⟨[event],⟨valid,fun _ _ => trivial⟩,run_singleton moved⟩

private theorem stampsValid_of_quiet {s : System Client.State} (quiet : Client.stamps s.producer = none) (answer : Reply) :
    StampsValid (Client.producer labTsc) s (.producer answer) := by
  intro pair held
  cases quiet.symm.trans held

private theorem completes_hist {s t : System Client.State} (answers : List HistThread.Reply)
    (ran : run (step (Client.producer labTsc) labRange) s (answers.map .hist) = some t) : Completes s t := by
  refine ⟨_,?_,ran⟩
  clear ran
  induction answers generalizing s with
  | nil => trivial
  | cons answer rest ih => exact ⟨trivial,fun _ _ => ih⟩

private theorem completes_answered {s : System Client.State} {final : Client.State} (running : s.stop = false)
    (reached : Reaches labTsc s.producer final) : Completes s {s with producer := final} := by
  obtain ⟨replies,answered,ran⟩ := reached
  rw [← running] at answered
  refine ⟨_,?_,run_of_answered labRange s answered ran⟩
  clear running
  induction replies generalizing s with
  | nil => trivial
  | cons reply rest ih =>
    obtain ⟨next,moved,tail⟩ := run_cons_some ran
    have now := step_of_answered labRange answered.1 moved
    refine ⟨?_,?_⟩
    · obtain ⟨call,offered,notPush,_⟩ := answered.1
      intro pair held
      have pushes := ((Client.producer labTsc).holds s.producer pair held).2
      cases Option.some.inj (offered.symm.trans pushes)
      cases notPush
    · intro t went
      cases Option.some.inj (now.symm.trans went)
      exact ih (s := {s with producer := next}) (answered.2 next moved) tail

private theorem completes_sample (t : Client.State) (t2 : BitVec 64) (here : t.pc = .push (.cycles t2 0#64))
    (zero : t.start = 0#64)
    (data : t2 ≠ kEndSentinel) :
    Completes ⟨t,HistThread.start,BoundedQueue.empty 1,false,[],[]⟩
      ⟨{t with pc := .returned, loopTsc := 1000#64, seq := t.seq + 1, recorded := t.recorded + 1},
        ⟨.report .sentinel,0,labRange.hbCyc,1,0,if t2.toNat < 2^38 then [t2] else []⟩,BoundedQueue.empty 1,false,[t2],
        [t2,kEndSentinel]⟩ := by
  have sample : (Stamps.cycles t2 0#64).sample = t2 := BitVec.sub_zero t2
  have valid : ∀ pair ∈ (Client.producer labTsc).stamps t, ¬ pair.Collides := by
    intro pair held collides
    have same : Client.stamps t = some (.cycles t2 0#64) := by
      unfold Client.stamps
      rw [here]
    cases Option.some.inj (same.symm.trans held)
    exact data (sample.symm.trans ((sample_eq_endSentinel_iff _).mpr collides))
  have pushed : step (Client.producer labTsc) labRange ⟨t,HistThread.start,BoundedQueue.empty 1,false,[],[]⟩
      (.producer .done) = some ⟨{t with pc := .top, seq := t.seq + 1, recorded := t.recorded + 1},HistThread.start,
        ⟨1,[t2],Nat.le_refl 1⟩,false,[t2],[]⟩ := by
    simp [step,stepProducer,Client.producer,Client.call,Client.next,Client.phase,Call.sample?,Reply.flag?,here,sample,
      BoundedQueue.tryPush,BoundedQueue.empty,Client.endRound]
  have popped (producer : Client.State) : run (step (Client.producer labTsc) labRange)
      ⟨producer,HistThread.start,⟨1,[t2],Nat.le_refl 1⟩,false,[t2],[]⟩
      ([.flag true,.time 0,.time 0,.done,.done].map .hist) = some ⟨producer,⟨.heartbeat,0,labRange.hbCyc,1,0,
        if t2.toNat < 2^38 then [t2] else []⟩,BoundedQueue.empty 1,false,[t2],[t2]⟩ := by
    simp [step,stepHist,HistThread.call,HistThread.next,HistThread.start,HistThread.record,HistThread.decoded,
      BoundedQueue.front,BoundedQueue.pop,BoundedQueue.empty,labRange,data]
  have elapsed : labTsc.durationCyc ≤ 1000#64 - t.start := by
    rw [zero]
    decide
  have finished (hist : HistThread.State) : step (Client.producer labTsc) labRange
      ⟨{t with pc := .top, seq := t.seq + 1, recorded := t.recorded + 1},hist,BoundedQueue.empty 1,false,[t2],[t2]⟩
      (.producer (.time 1000#64)) = some
        ⟨{t with pc := .finish, loopTsc := 1000#64, seq := t.seq + 1, recorded := t.recorded + 1},hist,BoundedQueue.empty 1,
          false,[t2],[t2]⟩ := by
    simp [step,stepProducer,Client.producer,Client.call,Client.next,Call.sample?,Reply.time?,elapsed]
  have marked (hist : HistThread.State) : step (Client.producer labTsc) labRange
      ⟨{t with pc := .finish, loopTsc := 1000#64, seq := t.seq + 1, recorded := t.recorded + 1},hist,BoundedQueue.empty 1,
        false,[t2],[t2]⟩ (.producer .done) = some
        ⟨{t with pc := .returned, loopTsc := 1000#64, seq := t.seq + 1, recorded := t.recorded + 1},hist,
          ⟨1,[kEndSentinel],Nat.le_refl 1⟩,false,[t2],[t2]⟩ := by
    simp [step,stepProducer,Client.producer,Client.call,Client.next,Client.phase,Call.sample?,Reply.flag?,
      BoundedQueue.tryPush,BoundedQueue.empty]
  have ended (producer : Client.State) (histogram : List (BitVec 64)) : run (step (Client.producer labTsc) labRange)
      ⟨producer,⟨.heartbeat,0,labRange.hbCyc,1,0,histogram⟩,⟨1,[kEndSentinel],Nat.le_refl 1⟩,false,[t2],[t2]⟩
      ([.time 0,.done,.done].map .hist) = some ⟨producer,⟨.report .sentinel,0,labRange.hbCyc,1,0,histogram⟩,
        BoundedQueue.empty 1,false,[t2],[t2,kEndSentinel]⟩ := by
    simp [step,stepHist,HistThread.call,HistThread.next,BoundedQueue.front,BoundedQueue.pop,BoundedQueue.empty,labRange]
  have first := Completes.single pushed valid
  have third (hist : HistThread.State) := Completes.single (finished hist) (stampsValid_of_quiet rfl _)
  have fourth (hist : HistThread.State) := Completes.single (marked hist) (stampsValid_of_quiet rfl _)
  exact first.trans ((completes_hist _ (popped _)).trans
    ((third _).trans ((fourth _).trans (completes_hist _ (ended _ _)))))

private theorem lab_completes (t2 : BitVec 64) (data : t2 ≠ kEndSentinel) :
    ∃ final, Completes ((Loop.client labTsc).source.initial labStart) final ∧ final.stop = false ∧
      HistThread.exit final.hist = some .sentinel ∧ final.accepted = [t2] ∧ final.producer.recorded = 1 ∧
      final.producer.pushFailures = 0 ∧ final.hist.recorded = 1 ∧ final.hist.dropped = 0 ∧
      final.hist.histogram = if t2.toNat < 2^38 then [t2] else [] := by
  obtain ⟨t,reached,here,zero,recorded,failures⟩ :=
    reaches_cyclePush (p := labTsc) rfl rfl (by decide) labStart rfl rfl t2
  have warmed : Completes ((Loop.client labTsc).source.initial labStart)
      ⟨t,HistThread.start,BoundedQueue.empty 1,false,[],[]⟩ :=
    completes_answered (s := (Loop.client labTsc).source.initial labStart) rfl reached
  refine ⟨_,warmed.trans (completes_sample t t2 here zero data),rfl,rfl,rfl,?_,failures,rfl,rfl,rfl⟩
  exact congrArg (· + 1) recorded

theorem samples_conserved_iff_recordable_lab :
    ∃ final, Completes ((Loop.client labTsc).source.initial labStart) final ∧
      HistThread.exit final.hist = some .sentinel ∧ final.hist.histogram = [7] ∧
      (Loop.client labTsc).tally.recorded final.producer =
        (Loop.client labTsc).tally.pushFailures final.producer + (final.hist.recorded + final.hist.dropped) ∧
      final.hist.recorded = final.hist.histogram.length := by
  obtain ⟨final,⟨events,valid,ran⟩,unstopped,ended,accepted,_,_,_,_,histogram⟩ := lab_completes 7 (by decide)
  have settled := samples_conserved_iff_recordable (.client labTsc) labRange labStart ⟨0,⟨0,0⟩,rfl⟩ events final valid ran
    unstopped (by rw [ended]; nofun)
  refine ⟨final,⟨events,valid,ran⟩,ended,histogram,settled.2.mpr ⟨by rw [ended]; nofun,?_⟩⟩
  intro sample member value decoded
  rw [accepted] at member
  cases List.mem_singleton.mp member
  cases Option.some.inj decoded
  rfl

/-- A round trip of two hundred seconds is counted and printed as a sample, and the
histogram that is reported does not hold it. -/
theorem late_sample_missing :
    ∃ events final, run (step (Loop.client labTsc).source.producer labRange)
      ((Loop.client labTsc).source.initial labStart) events =
        some final ∧
      (Loop.client labTsc).source.Started labStart ∧ final.stop = false ∧ HistThread.exit final.hist = some .sentinel ∧
      final.accepted = [480000000000] ∧ final.hist.recorded = 1 ∧ final.hist.histogram = [] := by
  obtain ⟨final,⟨events,_,ran⟩,unstopped,ended,accepted,_,_,recorded,_,histogram⟩ := lab_completes 480000000000 (by decide)
  exact ⟨events,final,ran,⟨0,⟨0,0⟩,rfl⟩,unstopped,ended,accepted,recorded,histogram⟩

end Lab

end Abtrda3.SampleConservation
