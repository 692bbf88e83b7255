import Abtrda3.SingleRecorder
import Abtrda3.Semantics.Machine
import Abtrda3.Semantics.WrappingCounter

/-! What the counters of the one-way recorder say about the stream. The sender numbers its
frames from zero on and a frame carries its number modulo 2^32. A log keeps the true numbers
the sequence gate let through, and for each frame it turned away how many it had let through
before; the counters are compared with the log, for the gate alone and for the receiver,
which clears them at the end of its warm-up. -/
namespace Abtrda3.LossAccounting
open Abtrda3.Application Abtrda3.SingleRecorder Abtrda3.Semantics Abtrda3.Semantics.Machine

structure Log where
  accepted : List Nat
  rejected : List Nat
  deriving DecidableEq, Repr

def Log.note (log : Log) (number : Nat) (passed : Bool) : Log :=
  if passed then {log with accepted := log.accepted ++ [number]}
  else {log with rejected := log.rejected ++ [log.accepted.length]}

theorem Log.note_true (accepted rejected : List Nat) (number : Nat) :
    (Log.mk accepted rejected).note number true = ⟨accepted ++ [number],rejected⟩ := rfl

/-- Less than 2^31 ahead of the last accepted number and no more than that behind it. -/
def Log.Near (log : Log) (number : Nat) : Prop :=
  ∀ last ∈ log.accepted.getLast?, last ≤ number + 2^31 ∧ number < last + 2^31

def Log.Newer (log : Log) (number : Nat) : Prop := ∀ earlier ∈ log.accepted, earlier < number

instance (log : Log) (number : Nat) : Decidable (log.Near number) :=
  inferInstanceAs (Decidable (∀ last ∈ log.accepted.getLast?, _ ∧ _))

instance (log : Log) (number : Nat) : Decidable (log.Newer number) :=
  inferInstanceAs (Decidable (∀ earlier ∈ log.accepted, _))

def gaps : List Nat → Nat
  | first::second::rest => second - first - 1 + gaps (second::rest)
  | _ => 0

private theorem gaps_snoc {numbers : List Nat} {last : Nat} (here : last ∈ numbers.getLast?) (number : Nat) :
    gaps (numbers ++ [number]) = gaps numbers + (number - last - 1) := by
  induction numbers with
  | nil => cases here
  | cons first rest ih =>
    cases rest with
    | nil =>
      cases Option.some.inj here
      exact Nat.add_comm (number - first - 1) 0
    | cons second rest =>
      have later := ih here
      rw [List.cons_append] at later
      rw [List.cons_append,List.cons_append,gaps,later,gaps]
      omega

private theorem le_last {numbers : List Nat} (sorted : numbers.Pairwise (· < ·)) {last : Nat}
    (here : last ∈ numbers.getLast?) :
    ∀ number ∈ numbers, number ≤ last := by
  obtain ⟨before,rfl⟩ := List.getLast?_eq_some_iff.mp here
  intro number member
  rcases List.mem_append.mp member with inside | same
  · exact Nat.le_of_lt ((List.pairwise_append.mp sorted).2.2 number inside last (List.mem_singleton.mpr rfl))
  · exact Nat.le_of_eq (List.mem_singleton.mp same)

/-- From the first to the last of an increasing list every number is listed or left out. -/
theorem length_add_gaps {numbers : List Nat} (sorted : numbers.Pairwise (· < ·)) {first last : Nat}
    (head : first ∈ numbers.head?) (here : last ∈ numbers.getLast?) :
    first + numbers.length + gaps numbers = last + 1 := by
  induction numbers generalizing first with
  | nil => cases head
  | cons number rest ih =>
    cases Option.some.inj head
    cases rest with
    | nil =>
      cases Option.some.inj here
      rfl
    | cons second rest =>
      have above := (List.pairwise_cons.mp sorted).1 second (List.mem_cons_self)
      have later := ih (List.pairwise_cons.mp sorted).2 rfl here
      rw [gaps,List.length_cons]
      omega

/-- Gate and counters against the log: losses are counted from the accepted frame before
`base` on, rejects from `base` acceptances on. -/
structure Counted (base : Nat) (gate : AntiReplay) (counters : Counters) (log : Log) : Prop where
  sorted : log.accepted.Pairwise (· < ·)
  opened : gate.haveLast = log.accepted.getLast?.isSome
  word : ∀ last ∈ log.accepted.getLast?, gate.last = BitVec.ofNat 32 last
  reached : base ≤ log.accepted.length
  before : ∀ count ∈ log.rejected, count ≤ log.accepted.length
  lost : counters.lost = gaps (log.accepted.drop (base - 1))
  dropped : counters.dropped = log.rejected.countP (base ≤ ·)

namespace Counted

variable {base : Nat} {gate : AntiReplay} {counters : Counters} {log : Log} {number : Nat}

private theorem newer_iff (counted : Counted base gate counters log) {last : Nat} (here : last ∈ log.accepted.getLast?) :
    log.Newer number ↔ last < number := by
  constructor
  · intro newer
    exact newer last (List.mem_of_getLast? here)
  · intro above earlier member
    exact Nat.lt_of_le_of_lt (le_last counted.sorted here earlier member) above

private theorem accept_cases (counted : Counted base gate counters log) (near : log.Near number) :
    (log.Newer number ∧ gate.accept (BitVec.ofNat 32 number) counters =
      (true,⟨BitVec.ofNat 32 number,true⟩,{counters with lost := gaps ((log.accepted ++ [number]).drop (base - 1))})) ∨
    (¬ log.Newer number ∧ gate.accept (BitVec.ofNat 32 number) counters =
      (false,gate,{counters with dropped := counters.dropped + 1})) := by
  have reached := counted.reached
  rw [List.drop_append_of_le_length (by omega)]
  cases here : log.accepted.getLast? with
  | none =>
    have empty := List.getLast?_eq_none_iff.mp here
    have closed : gate.haveLast = false := by rw [counted.opened,here]; rfl
    refine .inl ⟨?_,?_⟩
    · intro earlier member
      rw [empty] at member
      cases member
    · have lost := counted.lost
      rw [empty] at lost
      rw [AntiReplay.accept,if_pos closed,empty,List.drop_nil]
      rw [List.drop_nil] at lost
      exact congrArg (fun lost => (true,_,{counters with lost := lost})) lost
  | some last =>
    have opened : gate.haveLast ≠ false := by
      rw [counted.opened,here]
      nofun
    obtain ⟨behind,ahead⟩ := near last here
    have diff : (BitVec.ofNat 32 number - gate.last).toInt = (number : Int) - last := by
      rw [counted.word last here]
      exact WrappingCounter.sub_toInt behind ahead
    rw [counted.newer_iff here,AntiReplay.accept,if_neg opened,diff]
    by_cases above : last < number
    · refine .inl ⟨above,?_⟩
      have nonempty : base - 1 < log.accepted.length := by
        have some := List.length_pos_of_mem (List.mem_of_getLast? here)
        omega
      have kept : last ∈ (log.accepted.drop (base - 1)).getLast? := by
        rw [List.getLast?_drop,if_neg (by omega)]
        exact here
      rw [gaps_snoc kept,← counted.lost]
      dsimp only
      rw [if_neg (by omega)]
      have size : ((number : Int) - last - 1).toNat = number - last - 1 := by omega
      rw [size]
    · refine .inr ⟨above,?_⟩
      dsimp only
      rw [if_pos (by omega)]

private theorem turnedAway (counted : Counted base gate counters log) :
    Counted base gate {counters with dropped := counters.dropped + 1} (log.note number false) where
  sorted := counted.sorted
  opened := counted.opened
  word := counted.word
  reached := counted.reached
  before := by
    intro count member
    rcases List.mem_append.mp member with earlier | now
    · exact counted.before count earlier
    · exact Nat.le_of_eq (List.mem_singleton.mp now)
  lost := counted.lost
  dropped := by
    have here : decide (base ≤ log.accepted.length) = true := decide_eq_true counted.reached
    change _ = (log.rejected ++ [log.accepted.length]).countP _
    rw [List.countP_append,List.countP_singleton,if_pos here]
    exact congrArg (· + 1) counted.dropped

theorem letThrough (counted : Counted base gate counters log) (newer : log.Newer number) :
    Counted base ⟨BitVec.ofNat 32 number,true⟩
      {counters with lost := gaps ((log.accepted ++ [number]).drop (base - 1))} (log.note number true) where
  sorted := List.pairwise_append.mpr
    ⟨counted.sorted,List.pairwise_singleton _ _,fun earlier member _ same => List.mem_singleton.mp same ▸ newer
      earlier member⟩
  opened := by
    change true = (log.accepted ++ [number]).getLast?.isSome
    rw [List.getLast?_concat]
    rfl
  word := by
    intro last here
    change (log.accepted ++ [number]).getLast? = some last at here
    rw [List.getLast?_concat] at here
    cases here
    rfl
  reached := by
    change _ ≤ (log.accepted ++ [number]).length
    rw [List.length_append]
    exact Nat.le_add_right_of_le counted.reached
  before := by
    intro count member
    change _ ≤ (log.accepted ++ [number]).length
    rw [List.length_append]
    exact Nat.le_add_right_of_le (counted.before count member)
  lost := rfl
  dropped := counted.dropped

theorem accept (counted : Counted base gate counters log) (near : log.Near number) {passed : Bool} {gate' : AntiReplay}
    {counters' : Counters} (asked : gate.accept (BitVec.ofNat 32 number) counters = (passed,gate',counters')) :
    (passed = true ↔ log.Newer number) ∧ Counted base gate' counters' (log.note number passed) := by
  rcases counted.accept_cases near with ⟨newer,answer⟩ | ⟨older,answer⟩
  · cases asked.symm.trans answer
    exact ⟨⟨fun _ => newer,fun _ => rfl⟩,counted.letThrough newer⟩
  · cases asked.symm.trans answer
    exact ⟨⟨nofun,fun newer => absurd newer older⟩,counted.turnedAway⟩

theorem restart (counted : Counted base gate counters log) {count : Nat} (some : 0 < count)
    (now : log.accepted.length = count) (none : ∀ earlier ∈ log.rejected, earlier < count) :
    Counted count gate {counters with lost := 0, dropped := 0, pushFailures := 0} log where
  sorted := counted.sorted
  opened := counted.opened
  word := counted.word
  reached := Nat.le_of_eq now.symm
  before := counted.before
  lost := by
    obtain ⟨last,only⟩ : ∃ last, log.accepted.drop (count - 1) = [last] := by
      apply List.length_eq_one_iff.mp
      rw [List.length_drop]
      omega
    rw [only]
    rfl
  dropped := by
    symm
    apply List.countP_eq_zero.mpr
    intro earlier member
    have below := none earlier member
    simp only [decide_eq_true_eq]
    omega

end Counted

section Gate

structure Gate where
  gate : AntiReplay
  counters : Counters
  log : Log
  deriving DecidableEq, Repr

def opening : Gate := ⟨⟨0,false⟩,⟨0,0,0,0⟩,⟨[],[]⟩⟩

def Gate.passes (s : Gate) (number : Nat) : Bool := (s.gate.accept (BitVec.ofNat 32 number) s.counters).1

def arrive (s : Gate) (number : Nat) : Option Gate :=
  let (passed,gate,counters) := s.gate.accept (BitVec.ofNat 32 number) s.counters
  some ⟨gate,counters,s.log.note number passed⟩

def Gate.Sound (s : Gate) : Prop := Counted 0 s.gate s.counters s.log

theorem opening_sound : opening.Sound where
  sorted := .nil
  opened := rfl
  word := nofun
  reached := Nat.le_refl 0
  before := nofun
  lost := rfl
  dropped := rfl

private theorem arrive_sound {s t : Gate} {number : Nat} (sound : s.Sound) (near : s.log.Near number)
    (moved : arrive s number = some t) : t.Sound := by
  cases Option.some.inj moved
  exact (Counted.accept sound near rfl).2

private theorem passes_iff {s : Gate} {number : Nat} (sound : s.Sound) (near : s.log.Near number) :
    s.passes number = true ↔ s.log.Newer number :=
  (Counted.accept sound near rfl).1

private theorem note_length (log : Log) (number : Nat) (passed : Bool) :
    (log.note number passed).accepted.length + (log.note number passed).rejected.length =
      log.accepted.length + log.rejected.length + 1 := by
  cases passed with
  | true =>
    change (log.accepted ++ [number]).length + _ = _
    rw [List.length_append,List.length_singleton]
    exact Nat.add_right_comm _ _ _
  | false =>
    change _ + (log.rejected ++ [log.accepted.length]).length = _
    rw [List.length_append,List.length_singleton]
    rfl

private theorem noted_length {numbers : List Nat} {s t : Gate} (ran : run arrive s numbers = some t) :
    t.log.accepted.length + t.log.rejected.length = s.log.accepted.length + s.log.rejected.length + numbers.length := by
  induction numbers generalizing s with
  | nil =>
    cases Option.some.inj ran
    rfl
  | cons number rest ih =>
    obtain ⟨next,moved,tail⟩ := run_cons_some ran
    cases Option.some.inj moved
    rw [ih tail,List.length_cons,note_length]
    exact Nat.add_right_comm _ 1 _

/-- What the counters of the gate say after any number of arrivals. -/
theorem Gate.Sound.totals {s : Gate} (sound : s.Sound) {first last : Nat} (head : first ∈ s.log.accepted.head?)
    (here : last ∈ s.log.accepted.getLast?) :
    first + (s.log.accepted.length + s.counters.lost) = last + 1 ∧ s.counters.dropped = s.log.rejected.length := by
  have total := length_add_gaps sound.sorted head here
  have lost : s.counters.lost = gaps s.log.accepted := sound.lost
  refine ⟨by omega,sound.dropped.trans ?_⟩
  apply List.countP_eq_length.mpr
  intro count _
  exact decide_eq_true (Nat.zero_le count)

end Gate

section Receiver

structure Trace where
  recorder : State
  arriving : Nat
  log : Log
  deriving DecidableEq, Repr

inductive Event
  | arrive (number : Nat) (frame : List Byte)
  | reply (answer : Reply)
  deriving DecidableEq, Repr

def begin : Trace := ⟨SingleRecorder.start,0,⟨[],[]⟩⟩

def judge (s : Trace) : Log :=
  match s.recorder.pc with
  | .releaseTake seqNet _ _ =>
    s.log.note s.arriving (s.recorder.gate.accept (htonl seqNet) s.recorder.counters).1
  | _ => s.log

def step (cfg : TestConfig) (s : Trace) : Event → Option Trace
  | .arrive number frame => (next cfg s.recorder (.frame frame)).map fun recorder => ⟨recorder,number,s.log⟩
  | .reply answer => (next cfg s.recorder answer).map fun recorder => ⟨recorder,s.arriving,judge s⟩

def fromSender (cfg : TestConfig) (frame : List Byte) : Bool :=
  decide (kFrameMinBytes ≤ frame.length) && !foreign cfg frame

/-- A frame that passes the header check carries its number, which is near the last
accepted one; a frame comes with its number. -/
def Numbered (cfg : TestConfig) (s : Trace) : Event → Prop
  | .arrive number frame => fromSender cfg frame = true →
    loadU32 frame kOffSeq = htonl (BitVec.ofNat 32 number) ∧ s.log.Near number
  | .reply answer => ∀ frame ∈ answer.frame?, frame = []

theorem numbered_reply (cfg : TestConfig) (s : Trace) {answer : Reply} (bare : answer.frame? = none) :
    Numbered cfg s (.reply answer) := by
  intro frame carried
  rw [bare] at carried
  cases carried

def cleared (log : Log) : Nat := if log.accepted.length < kWarmupDiscard then 0 else kWarmupDiscard

structure Tracked (cfg : TestConfig) (s : Trace) : Prop where
  counted : Counted (cleared s.log) s.recorder.gate s.recorder.counters s.log
  warm : s.recorder.warmupSeen = min s.log.accepted.length kWarmupDiscard
  recorded : s.recorder.counters.recorded + (stamps s.recorder).toList.length = s.log.accepted.length - kWarmupDiscard
  arrived : ∀ frame, s.recorder.pc = .arrival frame → fromSender cfg frame = true →
    loadU32 frame kOffSeq = htonl (BitVec.ofNat 32 s.arriving) ∧ s.log.Near s.arriving
  taking : ∀ seqNet t0 t1, s.recorder.pc = .releaseTake seqNet t0 t1 →
    htonl seqNet = BitVec.ofNat 32 s.arriving ∧ s.log.Near s.arriving

theorem examine_cases (cfg : TestConfig) (s : State) (frame : List Byte) (t1 : BitVec 64) :
    (fromSender cfg frame = false ∧ examine cfg s frame t1 = {s with pc := .releaseDrop}) ∨
    (fromSender cfg frame = true ∧
      examine cfg s frame t1 = {s with pc := .releaseTake (loadU32 frame kOffSeq) (loadU64 frame kOffTxStamp) t1}) := by
  unfold examine fromSender
  by_cases short : frame.length < kFrameMinBytes
  · rw [if_pos short,decide_eq_false (Nat.not_le_of_lt short)]
    exact .inl ⟨rfl,rfl⟩
  · rw [if_neg short,decide_eq_true (Nat.le_of_not_lt short)]
    cases other : foreign cfg frame with
    | true => exact .inl ⟨rfl,rfl⟩
    | false => exact .inr ⟨rfl,rfl⟩

namespace Tracked

variable {cfg : TestConfig} {s : Trace}

theorem begin (cfg : TestConfig) : Tracked cfg begin where
  counted := opening_sound
  warm := rfl
  recorded := rfl
  arrived := nofun
  taking := nofun

theorem recorded_eq (tracked : Tracked cfg s) (quiet : ∀ pair, s.recorder.pc ≠ .push pair) :
    s.recorder.counters.recorded = s.log.accepted.length - kWarmupDiscard := by
  have none : stamps s.recorder = none := by
    unfold stamps
    split
    · next pair here => exact absurd here (quiet pair)
    · rfl
  have recorded := tracked.recorded
  rw [none] at recorded
  exact recorded

theorem move (tracked : Tracked cfg s) {pc : Pc} {graceEmpty : BitVec 32} {number : Nat}
    (quiet : ∀ pair, s.recorder.pc ≠ .push pair) (idle : ∀ pair, pc ≠ .push pair)
    (arrived : ∀ frame, pc = .arrival frame → fromSender cfg frame = true →
      loadU32 frame kOffSeq = htonl (BitVec.ofNat 32 number) ∧ s.log.Near number)
    (taking : ∀ seqNet t0 t1, pc = .releaseTake seqNet t0 t1 → htonl seqNet = BitVec.ofNat 32 number ∧ s.log.Near number) :
    Tracked cfg ⟨{s.recorder with pc := pc, graceEmpty := graceEmpty},number,s.log⟩ where
  counted := tracked.counted
  warm := tracked.warm
  recorded := by
    have after : stamps {s.recorder with pc := pc, graceEmpty := graceEmpty} = none := by
      unfold stamps
      split
      · next pair here => exact absurd here (idle pair)
      · rfl
    rw [after]
    exact tracked.recorded_eq quiet
  arrived := arrived
  taking := taking

theorem letThrough (tracked : Tracked cfg s) (quiet : ∀ pair, s.recorder.pc ≠ .push pair) {number : Nat}
    {gate : AntiReplay} {counters : Counters} (t0 t1 : BitVec 64)
    (counted : Counted (cleared s.log) gate counters (s.log.note number true))
    (same : counters.recorded = s.recorder.counters.recorded) :
    Tracked cfg
      ⟨if (inWarmup {s.recorder with gate := gate, counters := counters, pc := .poll}).1 then
          (inWarmup {s.recorder with gate := gate, counters := counters, pc := .poll}).2
        else {(inWarmup {s.recorder with gate := gate, counters := counters, pc := .poll}).2 with
          pc := .push (.cycles t1 t0)},
        s.arriving,s.log.note number true⟩ := by
  have recorded := tracked.recorded_eq quiet
  have warm := tracked.warm
  have grown : (s.log.note number true).accepted.length = s.log.accepted.length + 1 := List.length_append
  have positive : 0 < kWarmupDiscard := by decide
  rcases inWarmup_cases {s.recorder with gate := gate, counters := counters, pc := .poll} with
    ⟨past,answer⟩ | ⟨last,answer⟩ | ⟨early,answer⟩
  · dsimp only at past
    rw [answer]
    have both : cleared (s.log.note number true) = cleared s.log := by
      unfold cleared
      rw [grown,if_neg (by omega),if_neg (by omega)]
    refine ⟨both ▸ counted,?_,?_,nofun,nofun⟩
    · change s.recorder.warmupSeen = _
      rw [grown,warm,Nat.min_eq_right,Nat.min_eq_right] <;> omega
    · change counters.recorded + 1 = _
      rw [grown]
      omega
  · dsimp only at last
    rw [answer]
    have now : cleared (s.log.note number true) = kWarmupDiscard := by
      unfold cleared
      rw [if_neg (by omega)]
    refine ⟨?_,?_,?_,nofun,nofun⟩
    · dsimp only
      rw [now]
      refine counted.restart positive (by omega) ?_
      intro earlier member
      have before := tracked.counted.before earlier member
      omega
    · change s.recorder.warmupSeen + 1 = _
      rw [grown,warm,Nat.min_eq_left,Nat.min_eq_left] <;> omega
    · change counters.recorded + 0 = _
      rw [grown]
      omega
  · dsimp only at early
    rw [answer]
    have both : cleared (s.log.note number true) = cleared s.log := by
      unfold cleared
      rw [grown,if_pos (by omega),if_pos (by omega)]
    refine ⟨both ▸ counted,?_,?_,nofun,nofun⟩
    · change s.recorder.warmupSeen + 1 = _
      rw [grown,warm,Nat.min_eq_left,Nat.min_eq_left] <;> omega
    · change counters.recorded + 0 = _
      rw [grown]
      omega

theorem take (tracked : Tracked cfg s) {seqNet : BitVec 32} {t0 t1 : BitVec 64}
    (here : s.recorder.pc = .releaseTake seqNet t0 t1) :
    Tracked cfg ⟨take s.recorder seqNet t0 t1,s.arriving,judge s⟩ := by
  have quiet : ∀ pair, s.recorder.pc ≠ .push pair := by
    rw [here]
    nofun
  obtain ⟨word,near⟩ := tracked.taking _ _ _ here
  have kept := (accept_counters s.recorder.gate (BitVec.ofNat 32 s.arriving) s.recorder.counters).1
  have judged : judge s =
      s.log.note s.arriving (s.recorder.gate.accept (BitVec.ofNat 32 s.arriving) s.recorder.counters).1 := by
    unfold judge
    rw [here]
    dsimp only
    rw [word]
  rw [judged,SingleRecorder.take,word]
  rcases asked : s.recorder.gate.accept (BitVec.ofNat 32 s.arriving) s.recorder.counters with ⟨passed,gate,counters⟩
  obtain ⟨_,counted⟩ := tracked.counted.accept near asked
  rw [asked] at kept
  cases passed with
  | true => exact tracked.letThrough quiet t0 t1 counted kept
  | false =>
    refine ⟨counted,tracked.warm,?_,nofun,nofun⟩
    exact (congrArg (· + 0) kept).trans (tracked.recorded_eq quiet)

theorem pushed (tracked : Tracked cfg s) {pair : Stamps} (here : s.recorder.pc = .push pair) (pushFailures : Nat) :
    Tracked cfg ⟨{s.recorder with
      counters := {s.recorder.counters with pushFailures := pushFailures, recorded := s.recorder.counters.recorded + 1},
      pc := .poll},s.arriving,s.log⟩ where
  counted :=
    ⟨tracked.counted.sorted,tracked.counted.opened,tracked.counted.word,tracked.counted.reached,tracked.counted.before,
      tracked.counted.lost,tracked.counted.dropped⟩
  warm := tracked.warm
  recorded := by
    have held : stamps s.recorder = some pair := by
      unfold stamps
      rw [here]
    have recorded := tracked.recorded
    rw [held] at recorded
    exact recorded
  arrived := nofun
  taking := nofun

theorem arrive (tracked : Tracked cfg s) {number : Nat} {frame : List Byte} {t : Trace}
    (numbered : Numbered cfg s (.arrive number frame)) (moved : step cfg s (.arrive number frame) = some t) :
    Tracked cfg t := by
  obtain ⟨recorder,went,rfl⟩ := Option.map_eq_some_iff.mp moved
  unfold next at went
  split at went
  case h_1 here =>
    have quiet : ∀ pair, s.recorder.pc ≠ .push pair := by
      rw [here]
      nofun
    cases Option.some.inj went
    dsimp only
    split
    · exact tracked.move quiet nofun nofun nofun
    · refine tracked.move quiet ?_ ?_ ?_
      · nofun
      · rintro _ ⟨⟩
        exact numbered
      · nofun
  all_goals cases went

theorem reply (tracked : Tracked cfg s) {answer : Reply} {t : Trace} (numbered : Numbered cfg s (.reply answer))
    (moved : step cfg s (.reply answer) = some t) : Tracked cfg t := by
  obtain ⟨recorder,went,rfl⟩ := Option.map_eq_some_iff.mp moved
  have aside (away : ∀ seqNet t0 t1, s.recorder.pc ≠ .releaseTake seqNet t0 t1) : judge s = s.log := by
    unfold judge
    split
    · next here => exact absurd here (away _ _ _)
    · rfl
  unfold next at went
  split at went
  case h_5 here =>
    obtain ⟨_,_,rfl⟩ := Option.map_eq_some_iff.mp went
    exact tracked.take here
  all_goals rw [aside (by simp_all only [ne_eq,reduceCtorEq,not_false_eq_true,implies_true])]
  case h_1 here =>
    obtain ⟨frame,read,rfl⟩ := Option.map_eq_some_iff.mp went
    rw [if_pos (numbered frame read)]
    exact tracked.move (by rw [here]; nofun) nofun nofun nofun
  case h_2 here =>
    obtain ⟨done,_,rfl⟩ := Option.map_eq_some_iff.mp went
    split
    · apply tracked.move (by rw [here]; nofun) <;> (split <;> nofun)
    · exact tracked.move (by rw [here]; nofun) nofun nofun nofun
  case h_3 frame here =>
    obtain ⟨t1,_,rfl⟩ := Option.map_eq_some_iff.mp went
    rcases examine_cases cfg s.recorder frame t1 with ⟨_,looked⟩ | ⟨ours,looked⟩
    · rw [looked]
      exact tracked.move (by rw [here]; nofun) nofun nofun nofun
    · rw [looked]
      refine tracked.move (by rw [here]; nofun) ?_ ?_ ?_
      · nofun
      · nofun
      · rintro _ _ _ ⟨⟩
        obtain ⟨carried,near⟩ := tracked.arrived frame here ours
        exact ⟨by rw [carried,htonl_htonl],near⟩
  case h_4 here =>
    obtain ⟨_,_,rfl⟩ := Option.map_eq_some_iff.mp went
    exact tracked.move (by rw [here]; nofun) nofun nofun nofun
  case h_6 here =>
    obtain ⟨ok,_,rfl⟩ := Option.map_eq_some_iff.mp went
    exact tracked.pushed here _
  case h_7 here =>
    obtain ⟨ok,_,rfl⟩ := Option.map_eq_some_iff.mp went
    apply tracked.move (by rw [here]; nofun) <;> (split <;> nofun)
  case h_8 => cases went

theorem step (tracked : Tracked cfg s) {event : Event} {t : Trace} (numbered : Numbered cfg s event)
    (moved : step cfg s event = some t) : Tracked cfg t := by
  cases event with
  | arrive number frame => exact tracked.arrive numbered moved
  | reply answer => exact tracked.reply numbered moved

end Tracked

private theorem tracked_of_run {cfg : TestConfig} {events : List Event} {s : Trace}
    (numbered : Along (step cfg) (Numbered cfg) begin events) (ran : run (step cfg) begin events = some s) :
    Tracked cfg s :=
  run_invariant (Tracked cfg) (fun _ _ _ tracked numbered moved => tracked.step numbered moved) (.begin cfg) numbered ran

end Receiver

/-- The counters of the gate against the true numbers, and those of the receiver after its
warm-up: `first` is then the number of the frame that ended it. -/
theorem counters_account_for_stream :
    (∀ numbers, Along arrive (fun s number => s.log.Near number) opening numbers →
      Along arrive (fun s number => s.passes number = true ↔ s.log.Newer number) opening numbers ∧
      ∀ s first last, run arrive opening numbers = some s → s.log.accepted.head? = some first →
        s.log.accepted.getLast? = some last →
        first + (s.log.accepted.length + s.counters.lost) = last + 1 ∧
        s.log.accepted.length + s.counters.dropped = numbers.length) ∧
    (∀ cfg events, Along (step cfg) (Numbered cfg) begin events →
      ∀ s first last, run (step cfg) begin events = some s → stamps s.recorder = none →
        s.log.accepted[kWarmupDiscard - 1]? = some first → s.log.accepted.getLast? = some last →
        first + (s.recorder.counters.recorded + s.recorder.counters.lost) = last ∧
        s.recorder.counters.dropped = s.log.rejected.countP (kWarmupDiscard ≤ ·)) := by
  constructor
  · intro numbers near
    refine ⟨?_,?_⟩
    · apply along_of_invariant Gate.Sound _ _ opening_sound near
      · intro s number t sound near moved
        exact arrive_sound sound near moved
      · intro s number sound near
        exact passes_iff sound near
    · intro s first last ran head here
      have sound : s.Sound :=
        run_invariant Gate.Sound (fun _ _ _ sound near moved => arrive_sound sound near moved) opening_sound near ran
      obtain ⟨span,dropped⟩ := sound.totals head here
      refine ⟨span,?_⟩
      rw [dropped,noted_length ran]
      exact Nat.zero_add _
  · intro cfg events numbered s first last ran settled head here
    have tracked := tracked_of_run numbered ran
    have recorded := tracked.recorded
    rw [settled] at recorded
    have warm : kWarmupDiscard - 1 < s.log.accepted.length := (List.getElem?_eq_some_iff.mp head).1
    have positive : 0 < kWarmupDiscard := by decide
    have past : cleared s.log = kWarmupDiscard := if_neg (by omega)
    have counted := tracked.counted
    rw [past] at counted
    have start : first ∈ (s.log.accepted.drop (kWarmupDiscard - 1)).head? := by
      rw [List.head?_drop]
      exact head
    have final : last ∈ (s.log.accepted.drop (kWarmupDiscard - 1)).getLast? := by
      rw [List.getLast?_drop,if_neg (by omega)]
      exact here
    have span := length_add_gaps (List.Pairwise.drop counted.sorted) start final
    rw [← counted.lost,List.length_drop] at span
    refine ⟨?_,counted.dropped⟩
    change s.recorder.counters.recorded + 0 = _ at recorded
    omega

/-- A number 2^31 ahead has the signed difference -2^31 and is turned away. -/
theorem half_space_ahead_turned_away :
    Along arrive (fun s number => ∀ last ∈ s.log.accepted.getLast?, last ≤ number + 2^31 ∧ number ≤ last + 2^31)
      opening [0,2^31] ∧
    ¬ Along arrive (fun s number => s.passes number = true ↔ s.log.Newer number) opening [0,2^31] := by
  decide +kernel

section Lab

def labConfig : TestConfig := ⟨0x88B5,64,0,1,.localAddress 1,.localAddress 2⟩

def labFrame (number : Nat) : List Byte :=
  (header labConfig).take kOffSeq ++ (storeU32 (htonl (BitVec.ofNat 32 number)) ++ List.replicate 8 0)

private theorem labFrame_ours (number : Nat) :
    fromSender labConfig (labFrame number) = true ∧
    loadU32 (labFrame number) kOffSeq = htonl (BitVec.ofNat 32 number) := by
  have size : (labFrame number).length = kFrameMinBytes := by
    unfold labFrame
    rw [List.length_append,List.length_append,List.length_replicate,storeU32,storeBytes_length]
    rfl
  refine ⟨?_,loadU32_storeU32 _ _ _⟩
  unfold fromSender
  rw [size,labFrame,foreign_header]
  rfl

def labArrival (number : Nat) : List Event := [.arrive number (labFrame number),.reply (.time 0),.reply .done]

private theorem run_labArrival {s : Trace} (idle : s.recorder.pc = .poll) {number : Nat} (near : s.log.Near number) :
    ∃ t t0, Along (step labConfig) (Numbered labConfig) s (labArrival number) ∧
      run (step labConfig) s (labArrival number) = some t ∧
      t.log = s.log.note number (s.recorder.gate.accept (BitVec.ofNat 32 number) s.recorder.counters).1 ∧
      t.recorder = take {s.recorder with graceEmpty := 0} (htonl (BitVec.ofNat 32 number)) t0 0 := by
  obtain ⟨ours,carried⟩ := labFrame_ours number
  have some : labFrame number ≠ [] := by
    intro empty
    rw [empty] at ours
    cases ours
  have looked := examine_cases labConfig {s.recorder with graceEmpty := 0, pc := .arrival (labFrame number)}
      (labFrame number) 0
  rw [ours,carried] at looked
  obtain ⟨⟨⟩,_⟩ | ⟨_,looked⟩ := looked
  have landed : step labConfig s (.arrive number (labFrame number)) =
      Option.some ⟨{s.recorder with graceEmpty := 0, pc := .arrival (labFrame number)},number,s.log⟩ := by
    simp [step,next,idle,Reply.frame?,some]
  have read : step labConfig ⟨{s.recorder with graceEmpty := 0, pc := .arrival (labFrame number)},number,s.log⟩
      (.reply (.time 0)) = _ := congrArg (fun r => Option.some (⟨r,number,s.log⟩ : Trace)) looked
  refine ⟨_,_,⟨fun _ => ⟨carried,near⟩,?_⟩,run_trans (run_trans (run_singleton landed) (run_singleton read))
      (run_singleton rfl),?_,rfl⟩
  · rintro _ _
    exact ⟨numbered_reply _ _ rfl,fun _ _ => ⟨numbered_reply _ _ rfl,fun _ _ => trivial⟩⟩
  · unfold judge
    dsimp only
    rw [htonl_htonl]

private theorem take_place {s : Trace} (tracked : Tracked labConfig s) {number : Nat} (near : s.log.Near number)
    (t0 : BitVec 64) :
    (s.recorder.gate.accept (BitVec.ofNat 32 number) s.recorder.counters).1 = decide (s.log.Newer number) ∧
    (take {s.recorder with graceEmpty := 0} (htonl (BitVec.ofNat 32 number)) t0 0).pc =
      if s.log.Newer number ∧ kWarmupDiscard ≤ s.log.accepted.length then .push (.cycles 0 t0) else .poll := by
  have warm := tracked.warm
  unfold take
  rw [htonl_htonl]
  rcases tracked.counted.accept_cases near with ⟨newer,answer⟩ | ⟨older,answer⟩
  · rw [answer,decide_eq_true newer]
    refine ⟨rfl,?_⟩
    rcases inWarmup_cases {s.recorder with
        graceEmpty := 0, gate := ⟨BitVec.ofNat 32 number,true⟩, pc := .poll,
        counters := {s.recorder.counters with lost := gaps ((s.log.accepted ++ [number]).drop (cleared s.log - 1))}} with
      ⟨past,after⟩ | ⟨last,after⟩ | ⟨early,after⟩
    · have enough : kWarmupDiscard ≤ s.log.accepted.length := (Nat.le_min.mp (past.trans_eq warm)).1
      rw [if_pos ⟨newer,enough⟩]
      dsimp only
      rw [after]
      rfl
    · have few : ¬ kWarmupDiscard ≤ s.log.accepted.length := by
        dsimp only at last
        omega
      rw [if_neg (fun both => few both.2)]
      dsimp only
      rw [after]
      rfl
    · have few : ¬ kWarmupDiscard ≤ s.log.accepted.length := by
        dsimp only at early
        omega
      rw [if_neg (fun both => few both.2)]
      dsimp only
      rw [after]
      rfl
  · rw [answer,decide_eq_false older,if_neg (fun both => older both.1)]
    exact ⟨rfl,rfl⟩

def Streamed (s : Trace) : Prop :=
  ∃ events, Along (step labConfig) (Numbered labConfig) begin events ∧ run (step labConfig) begin events = some s

theorem streamed_arrival {s : Trace} (reached : Streamed s) (idle : s.recorder.pc = .poll) {number : Nat}
    (near : s.log.Near number) :
    ∃ t t0, Streamed t ∧ t.log = s.log.note number (decide (s.log.Newer number)) ∧
      t.recorder.pc = if s.log.Newer number ∧ kWarmupDiscard ≤ s.log.accepted.length then
        .push (.cycles 0 t0) else .poll := by
  obtain ⟨events,numbered,ran⟩ := reached
  obtain ⟨t,t0,next,moved,log,recorder⟩ := run_labArrival idle near
  obtain ⟨passed,place⟩ := take_place (tracked_of_run numbered ran) near t0
  refine ⟨t,t0,⟨_,along_append numbered ran next,run_trans ran moved⟩,?_,?_⟩
  · rw [log,passed]
  · rw [recorder,place]

private theorem streamed_warmup (n : Nat) (within : n ≤ kWarmupDiscard) :
    ∃ s, Streamed s ∧ s.recorder.pc = .poll ∧ s.log = ⟨List.range n,[]⟩ := by
  induction n with
  | zero => exact ⟨begin,⟨[],trivial,rfl⟩,rfl,rfl⟩
  | succ n ih =>
    obtain ⟨s,reached,idle,log⟩ := ih (Nat.le_of_succ_le within)
    have near : s.log.Near n := by
      rw [log]
      intro last here
      have member := List.mem_range.mp (List.mem_of_getLast? here)
      change (List.range n).getLast? = some last at here
      rw [List.getLast?_range] at here
      split at here
      · cases here
      · cases Option.some.inj here
        omega
    have newer : s.log.Newer n := by
      rw [log]
      intro earlier member
      exact List.mem_range.mp member
    obtain ⟨t,t0,reached,noted,place⟩ := streamed_arrival reached idle near
    refine ⟨t,reached,?_,?_⟩
    · rw [place,if_neg]
      rintro ⟨_,enough⟩
      rw [log,List.length_range] at enough
      omega
    · rw [noted,decide_eq_true newer,log,Log.note_true,List.range_succ]

private theorem streamed_push {s : Trace} (reached : Streamed s) {pair : Stamps} (here : s.recorder.pc = .push pair) :
    ∃ t, Streamed t ∧ t.log = s.log ∧ t.recorder.pc = .poll := by
  obtain ⟨events,numbered,ran⟩ := reached
  have log : judge s = s.log := by
    unfold judge
    rw [here]
  have moved : ∃ t, step labConfig s (.reply (.flag true)) = some t ∧ t.log = s.log ∧ t.recorder.pc = .poll := by
    simp [step,next,here,Reply.flag?,log]
  obtain ⟨t,moved,log,place⟩ := moved
  have quiet : Along (step labConfig) (Numbered labConfig) s [.reply (.flag true)] :=
    ⟨numbered_reply _ _ rfl,fun _ _ => trivial⟩
  exact ⟨t,⟨_,along_append numbered ran quiet,run_trans ran (run_singleton moved)⟩,log,place⟩

private theorem near_after_gap {n : Nat} (some : 0 < n) (rejected : List Nat) :
    (Log.mk (List.range n) rejected).Near (n + 4) ∧ (Log.mk (List.range n) rejected).Newer (n + 4) := by
  refine ⟨?_,fun earlier member => Nat.lt_add_right 4 (List.mem_range.mp member)⟩
  intro number here
  change (List.range n).getLast? = Option.some number at here
  rw [List.getLast?_range,if_neg (Nat.ne_of_gt some)] at here
  cases here
  omega

private theorem late_in_gap (n : Nat) :
    (Log.mk (List.range n ++ [n + 4]) []).Near (n + 2) ∧ ¬ (Log.mk (List.range n ++ [n + 4]) []).Newer (n + 2) ∧
    (Log.mk (List.range n ++ [n + 4]) []).note (n + 2) false = ⟨List.range n ++ [n + 4],[n + 1]⟩ := by
  refine ⟨?_,?_,?_⟩
  · intro number here
    change (List.range n ++ [n + 4]).getLast? = some number at here
    rw [List.getLast?_concat] at here
    cases here
    omega
  · intro newer
    have above := newer (n + 4) (List.mem_append_right _ (List.mem_singleton.mpr rfl))
    omega
  · change Log.mk _ [(List.range n ++ [n + 4]).length] = _
    rw [List.length_append,List.length_range]
    rfl

private theorem streamed_gap :
    ∃ s, Streamed s ∧ stamps s.recorder = none ∧
      s.log = ⟨List.range kWarmupDiscard ++ [kWarmupDiscard + 4],[kWarmupDiscard + 1]⟩ := by
  obtain ⟨s,reached,idle,log⟩ := streamed_warmup kWarmupDiscard (Nat.le_refl _)
  obtain ⟨near,newer⟩ := near_after_gap (n := kWarmupDiscard) (by decide) []
  have warm : kWarmupDiscard ≤ (Log.mk (List.range kWarmupDiscard) []).accepted.length := by
    dsimp only
    exact Nat.le_of_eq List.length_range.symm
  obtain ⟨t,_,reached,noted,place⟩ := streamed_arrival reached idle (log ▸ near)
  rw [log] at noted place
  rw [decide_eq_true newer,Log.note_true] at noted
  rw [if_pos ⟨newer,warm⟩] at place
  obtain ⟨t,reached,same,idle⟩ := streamed_push reached place
  obtain ⟨near,older,final⟩ := late_in_gap kWarmupDiscard
  have log := same.trans noted
  obtain ⟨u,_,reached,noted,place⟩ := streamed_arrival reached idle (log ▸ near)
  rw [log] at noted place
  rw [decide_eq_false older,final] at noted
  rw [if_neg (fun both => older both.1)] at place
  refine ⟨u,reached,?_,noted⟩
  unfold stamps
  rw [place]

/-- The gate across the wrap of the word, and a receiver that after its warm-up misses four
frames and then sees one of them late. -/
theorem counters_account_for_stream_lab :
    (∃ s, run arrive opening [2^32 - 1,2^32 + 1,2^32] = some s ∧ s.log = ⟨[2^32 - 1,2^32 + 1],[2]⟩ ∧
      2^32 - 1 + (2 + s.counters.lost) = 2^32 + 1 + 1 ∧ 2 + s.counters.dropped = 3) ∧
    ∃ events s, run (step labConfig) begin events = some s ∧
      s.log = ⟨List.range kWarmupDiscard ++ [kWarmupDiscard + 4],[kWarmupDiscard + 1]⟩ ∧
      kWarmupDiscard - 1 + (s.recorder.counters.recorded + s.recorder.counters.lost) = kWarmupDiscard + 4 ∧
      s.recorder.counters.dropped = 1 := by
  constructor
  · have shown : (run arrive opening [2^32 - 1,2^32 + 1,2^32]).map Gate.log = some ⟨[2^32 - 1,2^32 + 1],[2]⟩ := by
      decide +kernel
    obtain ⟨s,ran,log⟩ := Option.map_eq_some_iff.mp shown
    have totals := (counters_account_for_stream.1 [2^32 - 1,2^32 + 1,2^32] (by decide +kernel)).2
        s (2^32 - 1) (2^32 + 1) ran
      (by rw [log]; rfl) (by rw [log]; rfl)
    rw [log] at totals
    exact ⟨s,ran,log,totals⟩
  · obtain ⟨s,⟨events,numbered,ran⟩,settled,log⟩ := streamed_gap
    have below : kWarmupDiscard - 1 < kWarmupDiscard := by decide
    obtain ⟨span,dropped⟩ := counters_account_for_stream.2 labConfig events numbered
        s (kWarmupDiscard - 1) (kWarmupDiscard + 4)
      ran settled
      (by
        rw [log,List.getElem?_append_left (below.trans_eq List.length_range.symm)]
        exact List.getElem?_range below)
      (by rw [log]; exact List.getLast?_concat)
    refine ⟨events,s,ran,log,span,?_⟩
    rw [dropped,log,List.countP_singleton,if_pos (decide_eq_true (Nat.le_succ _))]

end Lab

end Abtrda3.LossAccounting
