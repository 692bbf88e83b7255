import Mathlib.Data.List.Induction
import Abtrda3.EfViReceive

/-! Whether the event of the frame last returned is through. `rxFrameComplete` compares
two totals of the whole run: the frames that payload polling has returned and the frames
whose events `pollEvent` has reconciled. A discarded frame is returned like any other, but
its event is counted elsewhere, so every drained discard leaves the second total one short. -/
namespace Abtrda3.EfVi
open Abtrda3.Application Abtrda3.Semantics Abtrda3.Semantics.Machine

def Event.discarded : Event → List (BitVec 32)
  | .rxDiscard id _ => [id]
  | .rxMultiDiscard ids => ids
  | _ => []

def arrivals (events : List Event) : List (BitVec 32) := events.flatMap Event.arrived

def discards (events : List Event) : List (BitVec 32) := events.flatMap Event.discarded

def Op.reported : Op → List Event
  | .report event => [event]
  | _ => []

def reports (ops : List Op) : List Event := ops.flatMap Op.reported

def drained (ops : List Op) (s : State) : List Event :=
  (reports ops).take ((reports ops).length - (s.evs ++ s.evq).length)

/-- The event that covers the `n`-th landed frame has left the event queue. -/
def EventDrained (ops : List Op) (s : State) (n : Nat) : Prop :=
  ∃ before event, before ++ [event] <+: drained ops s ∧
    (arrivals before).length ≤ n ∧ n < (arrivals (before ++ [event])).length

/-- Frames are returned in landing order, so the last one returned has the number `n`. -/
def LastDrained (ops : List Op) (s : State) : Prop := ∀ n, s.rx.returned.length = n + 1 → EventDrained ops s n

def Rx.logs (rx : Rx) : List (BitVec 32 × List Byte) × List (BitVec 32 × List Byte) × Nat :=
  (rx.returned,rx.landings,rx.reported)

theorem reconciled_append {before middle after : BitVec 64} {first second : List Event}
    (one : middle + BitVec.ofNat 64 (discards first).length = before + BitVec.ofNat 64 (arrivals first).length)
    (two : after + BitVec.ofNat 64 (discards second).length = middle + BitVec.ofNat 64 (arrivals second).length) :
    after + BitVec.ofNat 64 (discards (first ++ second)).length =
      before + BitVec.ofNat 64 (arrivals (first ++ second)).length := by
  simp only [discards,arrivals,List.flatMap_append,List.length_append,BitVec.ofNat_add] at one two ⊢
  grind

structure Works (s : State) (consumed : List Event) (t : State) : Prop where
  queue : s.evs ++ s.evq = consumed ++ (t.evs ++ t.evq)
  hits : t.stats.rxPollHits = s.stats.rxPollHits
  reconciled : t.stats.rxEvReconciled + BitVec.ofNat 64 (discards consumed).length =
    s.stats.rxEvReconciled + BitVec.ofNat 64 (arrivals consumed).length

variable {p : Params} {s t u : State}

theorem Works.none (queue : t.evs ++ t.evq = s.evs ++ s.evq) (hits : t.stats.rxPollHits = s.stats.rxPollHits)
    (reconciled : t.stats.rxEvReconciled = s.stats.rxEvReconciled) : Works s [] t where
  queue := queue.symm
  hits := hits
  reconciled := congrArg (· + BitVec.ofNat 64 0) reconciled

theorem Works.trans {first second : List Event} (before : Works s first t) (after : Works t second u) :
    Works s (first ++ second) u where
  queue := by rw [before.queue,after.queue,List.append_assoc]
  hits := after.hits.trans before.hits
  reconciled := reconciled_append before.reconciled after.reconciled

private theorem txDone_counts (p : Params) (stats : Stats) (ids : List (BitVec 32)) (ctpio : Bool) :
    (stats.txDone p ids ctpio).rxPollHits = stats.rxPollHits ∧
      (stats.txDone p ids ctpio).rxEvReconciled = stats.rxEvReconciled := by
  unfold Stats.txDone
  dsimp only
  split
  · exact ⟨rfl,rfl⟩
  · split
    · exact ⟨rfl,rfl⟩
    · exact ⟨rfl,rfl⟩

private theorem discardAll_counts (ids : List (BitVec 32)) (stats : Stats) :
    (ids.foldl (fun stats _ => stats.handleDiscard .csumBad) stats).rxPollHits = stats.rxPollHits ∧
      (ids.foldl (fun stats _ => stats.handleDiscard .csumBad) stats).rxEvReconciled = stats.rxEvReconciled := by
  induction ids generalizing stats with
  | nil => exact ⟨rfl,rfl⟩
  | cons id rest ih => exact ih (stats.handleDiscard .csumBad)

private theorem handle_counts (p : Params) (s : State) (event : Event) :
    (handle p s event).stats.rxPollHits = s.stats.rxPollHits ∧
      (handle p s event).stats.rxEvReconciled + BitVec.ofNat 64 event.discarded.length =
        s.stats.rxEvReconciled + BitVec.ofNat 64 event.arrived.length := by
  cases event with
  | rx id => exact ⟨rfl,BitVec.add_zero _⟩
  | rxMulti ids => exact ⟨rfl,BitVec.add_zero _⟩
  | rxMultiDiscard ids =>
    obtain ⟨hits,reconciled⟩ := discardAll_counts ids s.stats
    exact ⟨hits,congrArg (· + BitVec.ofNat 64 ids.length) reconciled⟩
  | tx ids ctpio =>
    obtain ⟨hits,reconciled⟩ := txDone_counts p s.stats ids ctpio
    exact ⟨hits,congrArg (· + BitVec.ofNat 64 0) reconciled⟩
  | txWithTimestamp id nsec nsecFrac16 ctpio =>
    obtain ⟨hits,reconciled⟩ := txDone_counts p s.stats [id] ctpio
    simp only [handle]
    split
    · exact ⟨hits,congrArg (· + BitVec.ofNat 64 0) reconciled⟩
    · exact ⟨rfl,rfl⟩
  | _ => exact ⟨rfl,rfl⟩

private theorem handleAll_counts (p : Params) (s : State) (events : List Event) :
    (events.foldl (handle p) s).stats.rxPollHits = s.stats.rxPollHits ∧
      (events.foldl (handle p) s).stats.rxEvReconciled + BitVec.ofNat 64 (discards events).length =
        s.stats.rxEvReconciled + BitVec.ofNat 64 (arrivals events).length := by
  induction events generalizing s with
  | nil => exact ⟨rfl,rfl⟩
  | cons event rest ih =>
    obtain ⟨hits,reconciled⟩ := handle_counts p s event
    obtain ⟨laterHits,laterReconciled⟩ := ih (handle p s event)
    have first : (handle p s event).stats.rxEvReconciled + BitVec.ofNat 64 (discards [event]).length =
        s.stats.rxEvReconciled + BitVec.ofNat 64 (arrivals [event]).length := by
      rw [discards,arrivals,List.flatMap_singleton,List.flatMap_singleton]
      exact reconciled
    have total := reconciled_append first laterReconciled
    rw [List.singleton_append] at total
    exact ⟨laterHits.trans hits,total⟩

private theorem drain_works (p : Params) (s : State) : Works s s.evs (drain p s) := by
  obtain ⟨_,_,_,queue,_⟩ := handleAll_keeps p s s.evs
  obtain ⟨hits,reconciled⟩ := handleAll_counts p s s.evs
  exact ⟨congrArg (s.evs ++ ·) queue.symm,hits,reconciled⟩

/-- The events that the next `pollEvent` works off: those left of the last batch, then a
batch of those that wait in the queue. -/
def nextBatch (p : Params) (s : State) : List Event :=
  s.evs ++ s.evq.take (min kEvPollBatch (p.eventqPoll s.evq))

theorem pollEvent_works (p : Params) (wantRx : Bool) (s : State) : Works s (nextBatch p s) (pollEvent p wantRx s) := by
  have first := drain_works p s
  obtain ⟨_,_,_,queue,_⟩ := handleAll_keeps p s s.evs
  have waiting : (drain p s).evq = s.evq := queue
  simp only [pollEvent,waiting]
  split
  case isTrue empty =>
    have whole : nextBatch p s = s.evs ++ [] := by
      rw [nextBatch,empty,List.take_nil]
    rw [whole]
    refine first.trans ?_
    split
    · exact .none (congrArg ((drain p s).evs ++ ·) waiting.symm) rfl rfl
    · exact .none rfl rfl rfl
  case isFalse =>
    have batch : Works (drain p s) [] {drain p s with
        evs := s.evq.take (min kEvPollBatch (p.eventqPoll s.evq)),
        evq := s.evq.drop (min kEvPollBatch (p.eventqPoll s.evq))} := by
      refine .none ?_ rfl rfl
      rw [List.take_append_drop,waiting]
      rfl
    have taken := (first.trans batch).trans (drain_works p _)
    rw [List.append_nil] at taken
    exact taken

private theorem release_rxLogs (p : Params) (rx : Rx) : (rx.release p).logs = rx.logs := by
  obtain ⟨returned,landings,reported⟩ := release_logs p rx
  exact Prod.ext returned (Prod.ext landings reported)

theorem pollEvent_rxLogs (p : Params) (wantRx : Bool) (s : State) : (pollEvent p wantRx s).rx.logs = s.rx.logs := by
  obtain ⟨_,_,_,_,_,_,_,rx⟩ := pollEvent_cases p wantRx s
  rcases rx with same | ⟨_,_,pushed⟩
  · rw [same]
  · rw [pushed]
    rfl

private theorem miss_rxLogs (p : Params) (s : State) : (miss p s).rx.logs = s.rx.logs := by
  refine (pollEvent_rxLogs p true _).trans ?_
  dsimp only
  split
  · obtain ⟨returned,landings,reported⟩ := repostLoop_logs p s.rx (s.rx.released - s.rx.reposted).toNat
    exact Prod.ext returned (Prod.ext landings reported)
  · rfl

/-- All that an operation can do to the events, the totals and the logs they count. -/
inductive Effect (s : State) : Op → State → Prop
  | work {op : Op} {t : State} (consumed : List Event) (silent : op.reported = []) (logs : t.rx.logs = s.rx.logs)
      (works : Works s consumed t) : Effect s op t
  | hit {t : State} (frame : BitVec 32 × List Byte) (queue : t.evs ++ t.evq = s.evs ++ s.evq)
      (logs : t.rx.logs = (s.rx.returned ++ [frame],s.rx.landings,s.rx.reported))
      (hits : t.stats.rxPollHits = s.stats.rxPollHits + 1)
      (reconciled : t.stats.rxEvReconciled = s.stats.rxEvReconciled) : Effect s .spin t
  | land {t : State} {bytes : List Byte} (landing : BitVec 32 × List Byte)
      (logs : t.rx.logs = (s.rx.returned,s.rx.landings ++ [landing],s.rx.reported)) (works : Works s [] t) :
      Effect s (.land bytes) t
  | report {event : Event} (next : event.arrived <+: (s.rx.landings.drop s.rx.reported).map Prod.fst) :
      Effect s (.report event) (report s event)

private theorem acquire_effect (p : Params) (s : State) (frameLen : BitVec 32) :
    Effect s (.acquire frameLen) (acquire p s frameLen).1 := by
  obtain ⟨after,same,result⟩ := acquire_cases p s frameLen
  have polled : ∃ consumed, Works s consumed after ∧ after.rx.logs = s.rx.logs := by
    rcases same with same | same
    · rw [same]
      exact ⟨[],.none rfl rfl rfl,rfl⟩
    · rw [same]
      exact ⟨nextBatch p s,pollEvent_works p false s,pollEvent_rxLogs p false s⟩
  obtain ⟨consumed,works,logs⟩ := polled
  rcases result with ⟨claimed,_⟩ | ⟨refused,_⟩
  · rw [claimed]
    exact .work consumed rfl logs ⟨works.queue,works.hits,works.reconciled⟩
  · rw [refused]
    exact .work consumed rfl logs works

private theorem pollTxTimestamp_effect (p : Params) (s : State) : Effect s .pollTxTimestamp (pollTxTimestamp p s).1 := by
  unfold pollTxTimestamp
  split
  · exact .work [] rfl rfl (.none rfl rfl rfl)
  · dsimp only
    split
    · exact .work [] rfl rfl (.none rfl rfl rfl)
    · exact .work [] rfl rfl (.none rfl rfl rfl)

private theorem step_effect {op : Op} (moved : step p s op = some t) : Effect s op t := by
  cases step_action moved with
  | acquire frameLen => exact acquire_effect p s frameLen
  | transmitAgain | rxFrameComplete =>
    exact .work (nextBatch p s) rfl (pollEvent_rxLogs p false s) (pollEvent_works p false s)
  | spinHit => exact .hit _ rfl rfl rfl rfl
  | miss =>
    have works :=
      pollEvent_works p true {s with phase := .idle, rx := if p.kX2522Plus then s.rx.repostReleased p else s.rx}
    exact .work (nextBatch p s) rfl (miss_rxLogs p s) ⟨works.queue,works.hits,works.reconciled⟩
  | release => exact .work [] rfl (release_rxLogs p s.rx) (.none rfl rfl rfl)
  | pollTxTimestamp => exact pollTxTimestamp_effect p s
  | land landed =>
    obtain ⟨id,_,ok⟩ := Option.bind_eq_some_iff.mp landed
    obtain ⟨_,same⟩ := Option.ite_none_right_eq_some.mp ok
    cases same
    exact .land _ rfl (.none rfl rfl rfl)
  | report ready => exact .report ready.2.1
  | _ => exact .work [] rfl rfl (.none rfl rfl rfl)

structure Tally (ops : List Op) (s : State) : Prop where
  events : reports ops = drained ops s ++ (s.evs ++ s.evq)
  hits : s.stats.rxPollHits = BitVec.ofNat 64 s.rx.returned.length
  reconciled : s.stats.rxEvReconciled + BitVec.ofNat 64 (discards (drained ops s)).length =
    BitVec.ofNat 64 (arrivals (drained ops s)).length
  reported : (arrivals (reports ops)).length = s.rx.reported
  landed : arrivals (reports ops) <+: s.rx.landings.map Prod.fst

variable {ops : List Op}

theorem drained_eq {gone : List Event} (split : reports ops = gone ++ (s.evs ++ s.evq)) :
    drained ops s = gone := by
  unfold drained
  rw [split,List.length_append,Nat.add_sub_cancel,List.take_left]

private theorem drained_works {consumed : List Event}
    (events : reports ops = drained ops s ++ (s.evs ++ s.evq))
    (works : Works s consumed t) : drained ops t = drained ops s ++ consumed := by
  apply drained_eq
  rw [events,works.queue,List.append_assoc]

theorem reports_snoc (ops : List Op) (op : Op) : reports (ops ++ [op]) = reports ops ++ op.reported := by
  rw [reports,List.flatMap_append,List.flatMap_singleton]
  rfl

theorem Tally.work {op : Op} {consumed : List Event} (tally : Tally ops s) (works : Works s consumed t)
    (silent : op.reported = []) (returned : t.rx.returned = s.rx.returned) (reported : t.rx.reported = s.rx.reported)
    (landings : s.rx.landings <+: t.rx.landings) : Tally (ops ++ [op]) t := by
  have same : reports (ops ++ [op]) = reports ops := by
    rw [reports_snoc,silent,List.append_nil]
  have split : reports (ops ++ [op]) = drained ops s ++ consumed ++ (t.evs ++ t.evq) := by
    rw [same,tally.events,works.queue,List.append_assoc]
  have gone := drained_eq split
  refine ⟨gone ▸ split,?_,?_,?_,?_⟩
  · rw [works.hits,tally.hits,returned]
  · have begun : s.stats.rxEvReconciled + BitVec.ofNat 64 (discards (drained ops s)).length =
        0#64 + BitVec.ofNat 64 (arrivals (drained ops s)).length := by
      rw [BitVec.zero_add]
      exact tally.reconciled
    have total := reconciled_append begun works.reconciled
    rw [BitVec.zero_add] at total
    rw [gone]
    exact total
  · rw [same,reported]
    exact tally.reported
  · rw [same]
    exact tally.landed.trans (landings.map Prod.fst)

theorem Tally.step {op : Op} (tally : Tally ops s) (moved : step p s op = some t) :
    Tally (ops ++ [op]) t := by
  cases step_effect moved with
  | work consumed silent logs works =>
    obtain ⟨returned,rest⟩ := Prod.mk.inj logs
    obtain ⟨landings,reported⟩ := Prod.mk.inj rest
    exact tally.work works silent returned reported (landings ▸ List.prefix_rfl)
  | hit frame queue logs hits reconciled =>
    obtain ⟨returned,rest⟩ := Prod.mk.inj logs
    obtain ⟨landings,reported⟩ := Prod.mk.inj rest
    have same : reports (ops ++ [.spin]) = reports ops := by
      rw [reports_snoc]
      exact List.append_nil _
    have split : reports (ops ++ [.spin]) = drained ops s ++ (t.evs ++ t.evq) := by
      rw [same,queue]
      exact tally.events
    have gone := drained_eq split
    refine ⟨gone ▸ split,?_,?_,?_,?_⟩
    · rw [hits,tally.hits,returned,List.length_append,WrappingCounter.ofNat_succ]
      rfl
    · rw [gone,reconciled]
      exact tally.reconciled
    · rw [same,reported]
      exact tally.reported
    · rw [same,landings]
      exact tally.landed
  | land landing logs works =>
    obtain ⟨returned,rest⟩ := Prod.mk.inj logs
    obtain ⟨landings,reported⟩ := Prod.mk.inj rest
    exact tally.work works rfl returned reported (landings ▸ List.prefix_append _ _)
  | @report event next =>
    have more : reports (ops ++ [.report event]) = reports ops ++ [event] := reports_snoc ops _
    have arrived : arrivals (reports ops ++ [event]) = arrivals (reports ops) ++ event.arrived := by
      rw [arrivals,List.flatMap_append,List.flatMap_singleton]
      rfl
    have split : reports (ops ++ [.report event]) = drained ops s ++ ((report s event).evs ++ (report s event).evq) := by
      rw [more,tally.events]
      simp only [report,List.append_assoc]
    have gone := drained_eq split
    refine ⟨gone ▸ split,tally.hits,?_,?_,?_⟩
    · rw [gone]
      exact tally.reconciled
    · rw [more,arrived,List.length_append,tally.reported]
      rfl
    · -- The frames reported so far are the first ones landed; the new ones come next.
      rw [more,arrived]
      obtain ⟨rest,whole⟩ := tally.landed
      have later : rest = (s.rx.landings.drop s.rx.reported).map Prod.fst := by
        rw [List.map_drop,← whole,← tally.reported,List.drop_left]
      change _ <+: s.rx.landings.map Prod.fst
      rw [← whole,List.prefix_append_right_inj,later]
      exact next

private theorem tally_of_run (ran : run (step p) (start p) ops = some s) : Tally ops s := by
  have begun : Tally [] (start p) := ⟨rfl,rfl,rfl,rfl,List.nil_prefix⟩
  exact history_invariant Tally (fun _ _ _ _ tally moved => tally.step moved) begun ran

theorem Tally.congr {ops others : List Op} (tally : Tally ops s) (same : reports others = reports ops) :
    Tally others s := by
  have gone : drained others s = drained ops s := by
    unfold drained
    rw [same]
  refine ⟨?_,tally.hits,?_,?_,?_⟩
  · rw [same,gone]
    exact tally.events
  · rw [gone]
    exact tally.reconciled
  · rw [same]
    exact tally.reported
  · rw [same]
    exact tally.landed

private theorem discards_le_arrivals (events : List Event) : (discards events).length ≤ (arrivals events).length := by
  have each (event : Event) : event.discarded.length ≤ event.arrived.length := by
    cases event with
    | rxDiscard | rxMultiDiscard => exact Nat.le_refl _
    | _ => exact Nat.zero_le _
  induction events with
  | nil => exact Nat.le_refl 0
  | cons event rest ih =>
    have first := each event
    simp only [discards,arrivals,List.flatMap_cons,List.length_append] at ih ⊢
    omega

private theorem covered_iff (events : List Event) (n : Nat) :
    (∃ before event, before ++ [event] <+: events ∧
      (arrivals before).length ≤ n ∧ n < (arrivals (before ++ [event])).length) ↔ n < (arrivals events).length := by
  constructor
  · rintro ⟨before,event,⟨rest,rfl⟩,_,inside⟩
    rw [arrivals,List.flatMap_append,List.length_append]
    exact Nat.lt_add_right _ inside
  · intro inside
    -- From the back: the last event covers the frame, or one before it does.
    induction events using List.reverseRecOn with
    | nil => exact absurd inside (Nat.not_lt_zero n)
    | append_singleton before event ih =>
      by_cases earlier : n < (arrivals before).length
      · obtain ⟨first,cover,ahead,bounds⟩ := ih earlier
        exact ⟨first,cover,ahead.trans (List.prefix_append _ _),bounds⟩
      · exact ⟨before,event,List.prefix_rfl,Nat.le_of_not_lt earlier,inside⟩

theorem lastDrained_iff (ops : List Op) (s : State) :
    LastDrained ops s ↔ s.rx.returned.length ≤ (arrivals (drained ops s)).length := by
  unfold LastDrained EventDrained
  simp only [covered_iff]
  constructor
  · intro covered
    rcases Nat.eq_zero_or_eq_succ_pred s.rx.returned.length with none | some
    · omega
    · exact some ▸ covered _ some
  · intro enough n last
    omega

theorem Tally.answer (tally : Tally ops s) (behind : s.rx.returned.length ≤ s.rx.landings.length)
    (few : s.rx.landings.length < 2^64) :
    s.stats.rxPollHits ≤ s.stats.rxEvReconciled ↔
      s.rx.returned.length + (discards (drained ops s)).length ≤ (arrivals (drained ops s)).length := by
  have part := discards_le_arrivals (drained ops s)
  have landed := tally.landed.length_le
  have whole : (arrivals (drained ops s)).length ≤ (arrivals (reports ops)).length := by
    rw [tally.events,arrivals,arrivals,List.flatMap_append,List.length_append]
    exact Nat.le_add_right _ _
  rw [List.length_map] at landed
  have total : s.stats.rxEvReconciled =
      BitVec.ofNat 64 ((arrivals (drained ops s)).length - (discards (drained ops s)).length) := by
    rw [← WrappingCounter.sub_ofNat 64 part,← tally.reconciled,BitVec.add_sub_cancel]
  rw [total,tally.hits,BitVec.le_def,WrappingCounter.ofNat_toNat_mod,WrappingCounter.ofNat_toNat_mod,
    Nat.mod_eq_of_lt (by omega),Nat.mod_eq_of_lt (by omega)]
  omega

/-- The events drained by the end of a call made in the state `s`. -/
def drainedBy (p : Params) (ops : List Op) (s : State) : List Event := drained ops s ++ nextBatch p s

/-- While fewer than `2^64` frames have landed, `rxFrameComplete` tells whether the event of
the last returned frame is drained by its end if and only if the events drained before the
call and the batch it works off hold no discarded frame, or fewer frames than were returned,
or as many frames behind the returned ones as frames were discarded. In a run without
discarded frames the answer is right in every state. -/
theorem rxFrameComplete_right_iff {ops : List Op} {answer : Bool} (ran : run (step p) (start p) ops = some s)
    (called : exec p s .rxFrameComplete = some (t,some (.flag answer))) (few : s.rx.landings.length < 2^64) :
    arrivals (reports ops) <+: t.rx.landings.map Prod.fst ∧ t.rx.returned.map Prod.fst <+: t.rx.landings.map Prod.fst ∧
      t.rx.returned = s.rx.returned ∧ drained ops t = drainedBy p ops s ∧
      ((answer = true ↔ LastDrained ops t) ↔
        discards (drainedBy p ops s) = [] ∨ (arrivals (drainedBy p ops s)).length < s.rx.returned.length ∨
          s.rx.returned.length + (discards (drainedBy p ops s)).length ≤ (arrivals (drainedBy p ops s)).length) ∧
      (discards (reports ops) = [] → (answer = true ↔ LastDrained ops t)) := by
  obtain ⟨⟨_,receives,_⟩,same⟩ := Option.ite_none_right_eq_some.mp called
  have moved : step p s .rxFrameComplete = some t := congrArg (Option.map Prod.fst) called
  have before := tally_of_run ran
  have tally : Tally ops t := by
    apply (before.step moved).congr
    rw [reports_snoc]
    exact (List.append_nil _).symm
  have ring := ((receiving_of_run receives ran).step moved).rx.ring
  have right : answer = true ↔ t.stats.rxPollHits ≤ t.stats.rxEvReconciled := by
    cases same
    exact decide_eq_true_iff
  have after : t = pollEvent p false s := by
    cases same
    rfl
  have logs := pollEvent_rxLogs p false s
  rw [← after] at logs
  obtain ⟨returned,rest⟩ := Prod.mk.inj logs
  obtain ⟨landings,_⟩ := Prod.mk.inj rest
  have gone : drained ops t = drainedBy p ops s := by
    rw [after]
    exact drained_works before.events (pollEvent_works p false s)
  rw [← landings] at few
  have counts := tally.answer ring.behind few
  have part := discards_le_arrivals (drained ops t)
  refine ⟨tally.landed,?_,returned,gone,?_,?_⟩
  · rw [ring.returned,ring.landed,ids,ids,← WrappingCounter.window_take ring.behind]
    exact List.take_prefix _ _
  · rw [right,counts,lastDrained_iff,← List.length_eq_zero_iff,← gone,← returned]
    omega
  · intro clean
    have none : discards (drained ops t) = [] := by
      rw [tally.events,discards,List.flatMap_append,List.append_eq_nil_iff] at clean
      exact clean.1
    rw [right,counts,lastDrained_iff,none]
    exact Iff.rfl

def labAnswer (tuning : EfViTuning) (ops : List Op) : Option (State × State × Option Reply) :=
  (run (step (labPort tuning)) (start (labPort tuning)) ops).bind fun s =>
    (exec (labPort tuning) s .rxFrameComplete).map fun result => (s,result)

private theorem labAnswer_some {tuning : EfViTuning} {reply : Option Reply}
    (shown : labAnswer tuning ops = some (s,t,reply)) :
    run (step (labPort tuning)) (start (labPort tuning)) ops = some s ∧
      exec (labPort tuning) s .rxFrameComplete = some (t,reply) := by
  obtain ⟨_,ran,result⟩ := Option.bind_eq_some_iff.mp shown
  obtain ⟨_,answered,same⟩ := Option.map_eq_some_iff.mp result
  cases same
  exact ⟨ran,answered⟩

def labComplete : List Op :=
  [.land (labFrame [8,0]),.land (labFrame [0,6]),.report (.rxMulti [0,1]),.tryReceive,.spin]

theorem rxFrameComplete_right_iff_multi :
    ∃ s t, run (step (labPort .X2522Plus)) (start (labPort .X2522Plus)) labComplete = some s ∧
      exec (labPort .X2522Plus) s .rxFrameComplete = some (t,some (.flag true)) ∧ LastDrained labComplete t := by
  have shown : (labAnswer .X2522Plus labComplete).map (fun seen => (seen.2.2,seen.1.rx.landings.length)) =
      some (some (.flag true),2) := by decide +kernel
  obtain ⟨⟨s,t,reply⟩,called,parts⟩ := Option.map_eq_some_iff.mp shown
  obtain ⟨ran,answered⟩ := labAnswer_some called
  simp only [Prod.mk.injEq] at parts
  obtain ⟨affirmed,count⟩ := parts
  rw [affirmed] at answered
  have few : s.rx.landings.length < 2^64 := by
    rw [count]
    decide
  obtain ⟨_,_,_,_,_,right⟩ := rxFrameComplete_right_iff ran answered few
  exact ⟨s,t,ran,answered,(right rfl).mp rfl⟩

/-- A frame with a bad checksum and a good one behind it, both returned. -/
def labDiscard : List Op :=
  [.land (labFrame [8,0]),.report (.rxDiscard 0 .crcBad),.land (labFrame [8,0]),.report (.rx 1),
    .tryReceive,.spin,.release,.tryReceive,.spin]

theorem discard_hides_drained_event :
    ∃ s t, run (step (labPort .Generic)) (start (labPort .Generic)) labDiscard = some s ∧
      exec (labPort .Generic) s .rxFrameComplete = some (t,some (.flag false)) ∧
      t.evs = [] ∧ t.evq = [] ∧ LastDrained labDiscard t := by
  have shown : (labAnswer .Generic labDiscard).map (fun seen =>
      (seen.2.2,seen.2.1.evs,seen.2.1.evq,seen.2.1.rx.returned.length)) = some (some (.flag false),[],[],2) := by
    decide +kernel
  obtain ⟨⟨s,t,reply⟩,called,parts⟩ := Option.map_eq_some_iff.mp shown
  obtain ⟨ran,answered⟩ := labAnswer_some called
  simp only [Prod.mk.injEq] at parts
  obtain ⟨denied,batch,queue,returned⟩ := parts
  rw [denied] at answered
  refine ⟨s,t,ran,answered,batch,queue,(lastDrained_iff _ _).mpr ?_⟩
  rw [drained,batch,queue,returned]
  decide

end Abtrda3.EfVi
