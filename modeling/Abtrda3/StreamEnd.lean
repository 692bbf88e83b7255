import Abtrda3.SingleRecorder
import Abtrda3.Semantics.Machine
import Mathlib.Data.List.Infix

/-! How the one-way receiver leaves its loop once the transmitter is done. Only a window
of empty polls in a row ends it, and every frame, of this stream or not, starts the window
again. -/
namespace Abtrda3.StreamEnd
open Abtrda3.Semantics.Machine Abtrda3.Application Abtrda3.SingleRecorder

inductive Poll
  | empty
  | stranger (frame : List Byte) (t1 : BitVec 64)
  deriving DecidableEq, Repr

namespace Poll

def Foreign (cfg : TestConfig) : Poll → Prop
  | .empty => True
  | .stranger frame _ => frame ≠ [] ∧ (frame.length < kFrameMinBytes ∨ foreign cfg frame = true)

def replies : Poll → List Reply
  | .empty => [.frame [],.flag true]
  | .stranger frame t1 => [.frame frame,.time t1,.done]

def isStranger : Poll → Bool
  | .empty => false
  | .stranger .. => true

end Poll

def grace (window : Nat) : Nat → List Poll → Option Nat
  | count, [] => some count
  | count, .empty::rest => if window ≤ count + 1 then none else grace window (count + 1) rest
  | _, .stranger _ _::rest => grace window 0 rest

def Leaves (cfg : TestConfig) (s : State) (polls : List Poll) : Prop :=
  ∃ taken t, taken <+: polls ∧ run (next cfg) s (taken.flatMap Poll.replies) = some t ∧ t.pc = .finish

private theorem run_empty (cfg : TestConfig) {s : State} (top : s.pc = .poll) :
    run (next cfg) s Poll.empty.replies = some {s with
      graceEmpty := s.graceEmpty + 1,
      pc := if kGraceEmptyPolls ≤ (s.graceEmpty + 1).toNat then .finish else .poll} := by
  obtain ⟨pc,gate,counters,graceEmpty,warmupSeen⟩ := s
  cases top
  rfl

variable {cfg : TestConfig}

private theorem examine_stranger {frame : List Byte} {t1 : BitVec 64}
    (strange : (Poll.stranger frame t1).Foreign cfg) (s : State) :
    examine cfg s frame t1 = {s with pc := .releaseDrop} := by
  unfold examine
  rcases strange.2 with short | mismatch
  · rw [if_pos short]
  · rw [if_pos mismatch,ite_self]

private theorem run_stranger {s : State} (top : s.pc = .poll) {frame : List Byte} {t1 : BitVec 64}
    (strange : (Poll.stranger frame t1).Foreign cfg) :
    run (next cfg) s (Poll.stranger frame t1).replies = some {s with graceEmpty := 0} := by
  obtain ⟨pc,gate,counters,graceEmpty,warmupSeen⟩ := s
  cases top
  have arrives : next cfg ⟨.poll,gate,counters,graceEmpty,warmupSeen⟩ (.frame frame) =
      some ⟨.arrival frame,gate,counters,0,warmupSeen⟩ := congrArg some (if_neg strange.1)
  have drops : next cfg ⟨.arrival frame,gate,counters,0,warmupSeen⟩ (.time t1) =
      some ⟨.releaseDrop,gate,counters,0,warmupSeen⟩ := congrArg some (examine_stranger strange _)
  rw [Poll.replies,run_cons,arrives,Option.bind_some,run_cons,drops]
  rfl

private theorem leaves_cons {s t : State} {poll : Poll} {rest : List Poll}
    (here : run (next cfg) s poll.replies = some t) (later : Leaves cfg t rest) : Leaves cfg s (poll::rest) := by
  obtain ⟨taken,last,first,ran,left⟩ := later
  refine ⟨poll::taken,last,List.cons_prefix_cons.mpr ⟨rfl,first⟩,?_,left⟩
  rw [List.flatMap_cons]
  exact run_trans here ran

theorem window_positive : (0 : BitVec 32).toNat < kGraceEmptyPolls := by decide

/-- The loop against its counter: left on the way, or still polling with the count. -/
theorem run_grace {s : State} (top : s.pc = .poll) {polls : List Poll}
    (foreign : ∀ poll ∈ polls, poll.Foreign cfg) (below : s.graceEmpty.toNat < kGraceEmptyPolls) :
    (grace kGraceEmptyPolls s.graceEmpty.toNat polls = none ∧ Leaves cfg s polls) ∨
      ∃ t, run (next cfg) s (polls.flatMap Poll.replies) = some t ∧ t.pc = .poll ∧
        grace kGraceEmptyPolls s.graceEmpty.toNat polls = some t.graceEmpty.toNat := by
  induction polls generalizing s with
  | nil => exact .inr ⟨s,rfl,top,rfl⟩
  | cons poll rest ih =>
    rw [List.forall_mem_cons] at foreign
    cases poll with
    | empty =>
      have here := run_empty cfg top
      have one : (s.graceEmpty + 1).toNat = s.graceEmpty.toNat + 1 := by
        have small : kGraceEmptyPolls < 2^32 := by decide
        bv_omega
      rw [grace]
      split
      · next full =>
        rw [if_pos (one ▸ full)] at here
        rw [← List.flatMap_singleton Poll.replies .empty] at here
        exact .inl ⟨rfl,[.empty],_,List.cons_prefix_cons.mpr ⟨rfl,List.nil_prefix⟩,here,rfl⟩
      · next short =>
        rw [if_neg (one ▸ short)] at here
        rw [← one]
        rcases ih (s := {s with graceEmpty := s.graceEmpty + 1, pc := .poll}) rfl foreign.2 (by dsimp only; omega) with
          ⟨none,left⟩ | ⟨t,ran,still,count⟩
        · exact .inl ⟨none,leaves_cons here left⟩
        · refine .inr ⟨t,?_,still,count⟩
          rw [List.flatMap_cons]
          exact run_trans here ran
    | stranger frame t1 =>
      have here := run_stranger top foreign.1
      rcases ih (s := {s with graceEmpty := 0}) top foreign.2 window_positive with ⟨none,left⟩ | ⟨t,ran,still,count⟩
      · exact .inl ⟨none,leaves_cons here left⟩
      · refine .inr ⟨t,?_,still,count⟩
        rw [List.flatMap_cons]
        exact run_trans here ran

/-- A full window is a run of empty polls, or what was missing of one at the start. -/
theorem grace_none_iff {window count : Nat} (below : count < window) (polls : List Poll) :
    grace window count polls = none ↔
      List.replicate (window - count) .empty <+: polls ∨ List.replicate window .empty <:+: polls := by
  induction polls generalizing count with
  | nil =>
    have some : grace window count [] ≠ none := nofun
    have missing : window - count ≠ 0 := by omega
    have wide : window ≠ 0 := by omega
    simp [some,missing,wide]
  | cons poll rest ih =>
    rw [List.infix_cons_iff]
    cases poll with
    | empty =>
      obtain ⟨missing,rest_missing⟩ : ∃ missing, window - count = missing + 1 := ⟨window - count - 1,by omega⟩
      obtain ⟨more,wide⟩ : ∃ more, window = more + 1 := ⟨window - 1,by omega⟩
      rw [grace,rest_missing,List.replicate_succ,List.cons_prefix_cons]
      split
      · next full =>
        have last : missing = 0 := by omega
        rw [last]
        exact ⟨fun _ => .inl ⟨rfl,List.nil_prefix⟩,fun _ => rfl⟩
      · next short =>
        have shorter : List.replicate window .empty <+: Poll.empty::rest → List.replicate missing .empty <+: rest := by
          intro whole
          rw [wide,List.replicate_succ,List.cons_prefix_cons] at whole
          rw [show more = missing + count by omega,List.replicate_add] at whole
          exact (List.prefix_append _ _).trans whole.2
        rw [ih (by omega),show window - (count + 1) = missing by omega]
        tauto
    | stranger frame t1 =>
      have never {n : Nat} (some : 0 < n) : ¬List.replicate n .empty <+: Poll.stranger frame t1::rest := by
        obtain ⟨n,rfl⟩ := Nat.exists_eq_succ_of_ne_zero some.ne'
        rw [List.replicate_succ,List.cons_prefix_cons]
        exact fun same => nomatch same.1
      have first := never (n := window - count) (by omega)
      have second := never (n := window) (by omega)
      have inside : List.replicate window Poll.empty <+: rest → List.replicate window .empty <:+: rest :=
          List.IsPrefix.isInfix
      rw [grace,ih (by omega),Nat.sub_zero]
      tauto

private theorem grace_prefix {window count left : Nat} {taken polls : List Poll} (first : taken <+: polls)
    (counted : grace window count polls = some left) : ∃ sofar, grace window count taken = some sofar := by
  induction polls generalizing count taken with
  | nil =>
    rw [List.prefix_nil.mp first]
    exact ⟨count,rfl⟩
  | cons poll rest ih =>
    rcases List.prefix_cons_iff.mp first with rfl | ⟨others,rfl,within⟩
    · exact ⟨count,rfl⟩
    · cases poll with
      | empty =>
        rw [grace] at counted ⊢
        split at counted
        · contradiction
        · next short =>
          rw [if_neg short]
          exact ih within counted
      | stranger frame t1 =>
        rw [grace] at counted ⊢
        exact ih within counted

/-- Every stranger puts off the end by less than one more window. -/
theorem grace_length {window count left : Nat} {polls : List Poll} (below : count < window)
    (counted : grace window count polls = some left) :
    count + polls.length < (polls.countP Poll.isStranger + 1) * window := by
  induction polls generalizing count with
  | nil => simpa using below
  | cons poll rest ih =>
    cases poll with
    | empty =>
      rw [grace] at counted
      split at counted
      · contradiction
      · have later := ih (by omega) counted
        rw [List.countP_cons_of_neg (by decide),List.length_cons]
        omega
    | stranger frame t1 =>
      have later := ih (by omega) counted
      rw [List.countP_cons_of_pos rfl,List.length_cons,Nat.add_mul _ 1,Nat.one_mul]
      omega

private theorem leaves_iff_grace {s : State} (top : s.pc = .poll) {polls : List Poll}
    (foreign : ∀ poll ∈ polls, poll.Foreign cfg) (below : s.graceEmpty.toNat < kGraceEmptyPolls) :
    Leaves cfg s polls ↔ grace kGraceEmptyPolls s.graceEmpty.toNat polls = none := by
  constructor
  · rintro ⟨taken,t,first,ran,left⟩
    rw [Option.eq_none_iff_forall_ne_some]
    intro count counted
    obtain ⟨sofar,some⟩ := grace_prefix first counted
    rcases run_grace top (fun poll met => foreign poll (first.subset met)) below with ⟨none,_⟩ | ⟨u,same,still,_⟩
    · rw [none] at some
      contradiction
    · rw [ran,Option.some_inj] at same
      rw [← same,left] at still
      contradiction
  · intro full
    rcases run_grace top foreign below with ⟨_,left⟩ | ⟨_,_,_,counted⟩
    · exact left
    · rw [full] at counted
      contradiction

private theorem inWarmup_graceEmpty (s : State) : (inWarmup s).2.graceEmpty = s.graceEmpty := by
  rcases inWarmup_cases s with ⟨_,same⟩ | ⟨_,same⟩ | ⟨_,same⟩ <;> rw [same]

private theorem take_graceEmpty (s : State) (seqNet : BitVec 32) (t0 t1 : BitVec 64) :
    (take s seqNet t0 t1).graceEmpty = s.graceEmpty := by
  unfold take
  dsimp only
  split_ifs
  · rfl
  · rw [inWarmup_graceEmpty]
  · rw [inWarmup_graceEmpty]

private theorem examine_graceEmpty (cfg : TestConfig) (s : State) (frame : List Byte) (t1 : BitVec 64) :
    (examine cfg s frame t1).graceEmpty = s.graceEmpty := by
  unfold examine
  split_ifs <;> rfl

def Open (s : State) : Prop := phase s = .sampling → s.graceEmpty.toNat < kGraceEmptyPolls

private theorem next_open (cfg : TestConfig) (s : State) (reply : Reply) (t : State) (within : Open s)
    (moved : next cfg s reply = some t) : Open t := by
  obtain ⟨pc,gate,counters,graceEmpty,warmupSeen⟩ := s
  intro sampling
  cases pc <;> simp only [next,Option.map_eq_some_iff] at moved
  case returned => contradiction
  all_goals obtain ⟨value,_,rfl⟩ := moved
  case poll =>
    split
    · exact within rfl
    · exact window_positive
  case doneCheck =>
    split_ifs with done full
    · rw [if_pos done,if_pos full] at sampling
      contradiction
    · exact Nat.lt_of_not_le full
    · exact within rfl
  case arrival frame =>
    rw [examine_graceEmpty]
    exact within rfl
  case releaseTake seqNet t0 t1 =>
    rw [take_graceEmpty]
    exact within rfl
  case finish =>
    cases value <;> contradiction
  all_goals exact within rfl

/-- From every state in which the loop polls, on a trace without frames of its stream: it
is left exactly where a window of empty polls fills up, which a bound on the number of
strangers brings about within a bound of polls. -/
theorem rx_loop_left_iff (cfg : TestConfig) {before : List Reply} {s : State}
    (ran : run (next cfg) start before = some s) (top : s.pc = .poll) {polls : List Poll}
    (foreign : ∀ poll ∈ polls, poll.Foreign cfg) :
    (Leaves cfg s polls ↔
      List.replicate (kGraceEmptyPolls - s.graceEmpty.toNat) .empty <+: polls ∨
        List.replicate kGraceEmptyPolls .empty <:+: polls) ∧
    ∀ strangers, polls.countP Poll.isStranger ≤ strangers →
      (strangers + 1) * kGraceEmptyPolls ≤ polls.length → Leaves cfg s polls := by
  have opened : Open s := reachable_invariant Open (next_open cfg) (fun _ => window_positive) ran
  have below : s.graceEmpty.toNat < kGraceEmptyPolls := opened (by rw [phase,top])
  have counts := leaves_iff_grace top foreign below
  refine ⟨counts.trans (grace_none_iff below polls),?_⟩
  intro strangers few long
  rw [counts,Option.eq_none_iff_forall_ne_some]
  intro left counted
  have short := grace_length below counted
  have scaled := Nat.mul_le_mul_right kGraceEmptyPolls (Nat.add_le_add_right few 1)
  omega

def labConfig : TestConfig := ⟨0x88B5,64,0,1,.localAddress 1,.localAddress 2⟩

private theorem runt_foreign (cfg : TestConfig) :
    (Poll.stranger [0] 7).Foreign cfg := ⟨List.cons_ne_nil _ _,.inl (by decide)⟩

def runtThenSilence : List Poll := [.empty,.stranger [0] 7] ++ List.replicate (2 * kGraceEmptyPolls) .empty

theorem rx_loop_left_after_runt : Leaves labConfig start runtThenSilence := by
  have foreign : ∀ poll ∈ runtThenSilence, poll.Foreign labConfig := by
    intro poll met
    rcases List.mem_append.mp met with first | later
    · simp only [List.mem_cons,List.not_mem_nil,or_false] at first
      rcases first with rfl | rfl
      · trivial
      · exact runt_foreign labConfig
    · rw [List.eq_of_mem_replicate later]
      trivial
  have ran : run (next labConfig) start [] = some start := rfl
  apply (rx_loop_left_iff labConfig ran rfl foreign).2 1
  · rw [runtThenSilence,List.countP_append,List.countP_replicate]
    decide
  · rw [runtThenSilence,List.length_append,List.length_replicate]
    omega

private theorem grace_strangers (window n : Nat) : grace window 0 (List.replicate n (.stranger [0] 7)) = some 0 := by
  induction n with
  | zero => rfl
  | succ n ih => rw [List.replicate_succ,grace,ih]

/-- No bound serves every trace: strangers alone keep the loop polling. -/
theorem strangers_outlast_every_bound : ∃ cfg : TestConfig, ∀ bound : Nat, ∃ polls : List Poll,
    bound < polls.length ∧ (∀ poll ∈ polls, poll.Foreign cfg) ∧ ¬Leaves cfg start polls := by
  refine ⟨labConfig,fun bound => ?_⟩
  have foreign : ∀ poll ∈ List.replicate (bound + 1) (Poll.stranger [0] 7), poll.Foreign labConfig := by
    intro poll met
    rw [List.eq_of_mem_replicate met]
    exact runt_foreign labConfig
  refine ⟨List.replicate (bound + 1) (.stranger [0] 7),?_,foreign,?_⟩
  · rw [List.length_replicate]
    exact Nat.lt_succ_self bound
  · rw [leaves_iff_grace rfl foreign window_positive]
    exact fun none => Option.some_ne_none 0 ((grace_strangers _ (bound + 1)).symm.trans none)

end Abtrda3.StreamEnd
