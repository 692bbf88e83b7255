import Abtrda3.Semantics.Machine
import Abtrda3.Semantics.WrappingCounter

/-! The send queue of the Verbs backend next to the provider. `commit` counts a send and
flags every `signalEvery`-th before it posts it; it is cut at each look at the completion
queue, where the provider may step in. `posted` lists the accepted requests, each with its
flag; the provider completes the flagged ones in order. -/
namespace Abtrda3.VerbsSend
open Abtrda3.Semantics Abtrda3.Semantics.Machine

structure Params where
  sqDepth : Nat
  signalBits : Nat
  maxFrame : BitVec 16
  -- What the provider granted.
  maxInline : BitVec 32
  depth : sqDepth < 2^16
  several : 2^signalBits * 4 ≤ sqDepth

namespace Params

def signalEvery (p : Params) : Nat := 2^p.signalBits

def periods (p : Params) : Nat := p.sqDepth / p.signalEvery

end Params

inductive Phase
  | idle
  | reaping
  | backstop
  deriving DecidableEq, Repr

structure State where
  phase : Phase
  txLen : BitVec 32
  txCount : BitVec 64
  unreaped : BitVec 32
  posted : List Bool
  completed : Nat
  reaped : Nat
  deriving DecidableEq, Repr

inductive Event
  | acquire (frameLen : BitVec 32)
  | commit (accepted : Bool)
  | send (size : Nat) (accepted : Bool)
  | pollCq
  | complete
  deriving DecidableEq, Repr

def start : State := ⟨.idle,0,0,0,[],0,0⟩

def acquire (s : State) (frameLen : BitVec 32) : State := {s with txLen := frameLen}

def signals (p : Params) (s : State) : Bool := decide ((s.txCount + 1) &&& (BitVec.ofNat 64 p.signalEvery - 1) = 0)

/-- A refused post is only printed. -/
def commit (p : Params) (s : State) (accepted : Bool) : State :=
  let unreaped := if signals p s then s.unreaped + 1 else s.unreaped
  {s with txCount := s.txCount + 1, unreaped := unreaped,
          posted := if accepted then s.posted ++ [signals p s] else s.posted,
          phase := if 2 ≤ unreaped then .reaping else .idle}

def inlineFits (p : Params) (size : Nat) : Bool :=
  !(decide (p.maxInline.toNat < size) || decide (p.maxFrame.toNat < size))

def send (p : Params) (s : State) (size : Nat) (accepted : Bool) : State :=
  if inlineFits p size then commit p (acquire s (BitVec.ofNat 32 size)) accepted else s

def backstopLimit (p : Params) : BitVec 32 := BitVec.ofNat 32 (p.periods - 1)

def pollCq (p : Params) (s : State) : State :=
  let s := if s.reaped < s.completed then {s with reaped := s.reaped + 1, unreaped := s.unreaped - 1} else s
  {s with phase := if backstopLimit p ≤ s.unreaped then .backstop else .idle}

def signaled (s : State) : Nat := s.posted.count true

def step (p : Params) (s : State) : Event → Option State
  | .acquire frameLen => if s.phase = .idle then some (acquire s frameLen) else none
  | .commit accepted => if s.phase = .idle then some (commit p s accepted) else none
  | .send size accepted => if s.phase = .idle then some (send p s size accepted) else none
  | .pollCq => if s.phase ≠ .idle then some (pollCq p s) else none
  | .complete => if s.completed < signaled s then some {s with completed := s.completed + 1} else none

def posting (p : Params) (s : State) : Event → Option Bool
  | .commit accepted => if s.phase = .idle then some accepted else none
  | .send size accepted => if s.phase = .idle ∧ inlineFits p size = true then some accepted else none
  | _ => none

/-- The requests after the `reaped`-th flagged one; a reaped completion frees its request
and all before it. -/
def uncovered : List Bool → Nat → Nat
  | posted, 0 => posted.length
  | [], _ + 1 => 0
  | flag::rest, reaped + 1 => uncovered rest (if flag then reaped else reaped + 1)

variable {p : Params} {s t : State} {event : Event}

theorem signalEvery_pos (p : Params) : 0 < p.signalEvery := Nat.two_pow_pos p.signalBits

theorem periods_bounds (p : Params) : 4 ≤ p.periods ∧ p.periods < 2^16 ∧ p.periods * p.signalEvery ≤ p.sqDepth := by
  have several : p.signalEvery * 4 ≤ p.sqDepth := p.several
  have depth := p.depth
  refine ⟨(Nat.le_div_iff_mul_le (signalEvery_pos p)).mpr (by omega),?_,Nat.div_mul_le_self _ _⟩
  exact Nat.lt_of_le_of_lt (Nat.div_le_self _ _) depth

private theorem backstopLimit_toNat (p : Params) : (backstopLimit p).toNat = p.periods - 1 := by
  obtain ⟨_,small,_⟩ := periods_bounds p
  rw [backstopLimit,WrappingCounter.ofNat_toNat_mod]
  exact Nat.mod_eq_of_lt (by omega)

/-- Every flagged request that was counted is in the queue or reaped, and the backstop
keeps their number below the periods of the queue. -/
structure Accounted (p : Params) (s : State) : Prop where
  count : s.unreaped.toNat + s.reaped = signaled s
  order : s.reaped ≤ s.completed
  bound : s.completed ≤ signaled s
  below : s.unreaped.toNat ≤ p.periods - 1
  rest : s.phase = .idle → s.unreaped.toNat ≤ p.periods - 2
  busy : s.phase ≠ .idle → 0 < s.unreaped.toNat

namespace Accounted

theorem start (p : Params) : Accounted p start :=
  ⟨rfl,Nat.le_refl 0,Nat.le_refl 0,Nat.zero_le _,fun _ => Nat.zero_le _,fun busy => absurd rfl busy⟩

theorem acquire (inv : Accounted p s) (frameLen : BitVec 32) : Accounted p (acquire s frameLen) :=
  ⟨inv.count,inv.order,inv.bound,inv.below,inv.rest,inv.busy⟩

theorem reap (inv : Accounted p s) (waiting : s.reaped < s.completed) :
    (s.unreaped - 1).toNat + 1 = s.unreaped.toNat := by
  have count := inv.count
  have bound := inv.bound
  have one : (1 : BitVec 32) ≤ s.unreaped := by
    change 1 ≤ s.unreaped.toNat
    omega
  have less : (s.unreaped - 1).toNat = s.unreaped.toNat - 1 := BitVec.toNat_sub_of_le one
  omega

theorem pollCq (inv : Accounted p s) : Accounted p (pollCq p s) := by
  obtain ⟨many,_,_⟩ := periods_bounds p
  have limit := backstopLimit_toNat p
  have count := inv.count
  have order := inv.order
  have bound := inv.bound
  have below := inv.below
  -- The flagged requests out after the look, whichever way it went.
  obtain ⟨later,seen,reaped⟩ : ∃ later : State, (if s.reaped < s.completed then
      {s with reaped := s.reaped + 1, unreaped := s.unreaped - 1} else s) = later ∧
      later.unreaped.toNat + later.reaped = signaled s ∧ later.reaped ≤ s.completed ∧
      later.completed = s.completed ∧ later.posted = s.posted ∧ later.unreaped.toNat ≤ s.unreaped.toNat := by
    refine ⟨_,rfl,?_⟩
    split
    next waiting =>
      have less := inv.reap waiting
      dsimp only
      exact ⟨by omega,waiting,rfl,rfl,by omega⟩
    · exact ⟨count,order,rfl,rfl,Nat.le_refl _⟩
  obtain ⟨count,order,completed,posted,fewer⟩ := reaped
  unfold VerbsSend.pollCq
  dsimp only
  rw [seen]
  refine ⟨?_,?_,?_,Nat.le_trans fewer below,?_,?_⟩
  · change later.unreaped.toNat + later.reaped = later.posted.count true
    rw [posted]
    exact count
  · change later.reaped ≤ later.completed
    rw [completed]
    exact order
  · change later.completed ≤ later.posted.count true
    rw [completed,posted]
    exact bound
  · intro idle
    dsimp only at idle ⊢
    split at idle
    · cases idle
    next under =>
      rw [BitVec.le_def,limit] at under
      omega
  · intro busy
    dsimp only at busy ⊢
    split at busy
    next reached =>
      rw [BitVec.le_def,limit] at reached
      omega
    · exact absurd rfl busy

theorem commit_unreaped (inv : Accounted p s) (accepted : Bool) :
    (commit p s accepted).unreaped.toNat = s.unreaped.toNat + (signals p s).toNat := by
  obtain ⟨_,small,_⟩ := periods_bounds p
  have below := inv.below
  change (if signals p s = true then s.unreaped + 1 else s.unreaped).toNat = _
  cases signals p s with
  | true =>
    rw [if_pos rfl,BitVec.toNat_add]
    exact Nat.mod_eq_of_lt (by change s.unreaped.toNat + 1 < 2^32; omega)
  | false => rw [if_neg (by decide)]; rfl

private theorem commit_signaled (p : Params) (s : State) (accepted : Bool) :
    signaled (commit p s accepted) = signaled s + (accepted && signals p s).toNat := by
  change (if accepted = true then s.posted ++ [signals p s] else s.posted).count true = s.posted.count true + _
  cases accepted with
  | true =>
    rw [if_pos rfl,List.count_append]
    cases signals p s <;> rfl
  | false => rw [if_neg (by decide)]; rfl

theorem commit (inv : Accounted p s) (idle : s.phase = .idle) {accepted : Bool}
    (kept : accepted = false → signals p s = false) : Accounted p (commit p s accepted) := by
  obtain ⟨many,_,_⟩ := periods_bounds p
  have count := inv.count
  have bound := inv.bound
  have rest := inv.rest idle
  have unreaped := inv.commit_unreaped accepted
  have signaled' := commit_signaled p s accepted
  have both : (accepted && signals p s) = signals p s := by
    cases accepted with
    | true => rfl
    | false => rw [kept rfl]; rfl
  have one := Bool.toNat_le (signals p s)
  rw [both] at signaled'
  have phase : (VerbsSend.commit p s accepted).phase = .idle ↔ ¬ 2 ≤ (VerbsSend.commit p s accepted).unreaped.toNat := by
    change (if 2 ≤ (VerbsSend.commit p s accepted).unreaped then Phase.reaping else .idle) = .idle ↔
      ¬ 2 ≤ (VerbsSend.commit p s accepted).unreaped
    split
    next reaps => exact ⟨fun idle => (nomatch idle),fun few => absurd reaps few⟩
    next few => exact ⟨fun _ => few,fun _ => rfl⟩
  refine ⟨?_,inv.order,?_,?_,?_,?_⟩
  · change (VerbsSend.commit p s accepted).unreaped.toNat + s.reaped = _
    omega
  · change s.completed ≤ _
    omega
  · omega
  · intro later
    have := phase.mp later
    omega
  · intro later
    have := mt phase.mpr later
    omega

end Accounted

/-- A step posts through `commit`, or leaves the counts of posts alone. -/
theorem step_cases (moved : step p s event = some t) :
    (∃ accepted frameLen, posting p s event = some accepted ∧ s.phase = .idle ∧
        t = commit p (acquire s frameLen) accepted) ∨
      posting p s event = none ∧
        ((∃ frameLen, t = acquire s frameLen) ∨ s.phase ≠ .idle ∧ t = pollCq p s ∨
          s.completed < signaled s ∧ t = {s with completed := s.completed + 1}) := by
  cases event with
  | acquire frameLen =>
    obtain ⟨_,same⟩ := Option.ite_none_right_eq_some.mp moved
    cases same
    exact .inr ⟨rfl,.inl ⟨frameLen,rfl⟩⟩
  | commit accepted =>
    obtain ⟨idle,same⟩ := Option.ite_none_right_eq_some.mp moved
    cases same
    exact .inl ⟨accepted,s.txLen,if_pos idle,idle,rfl⟩
  | send size accepted =>
    obtain ⟨idle,same⟩ := Option.ite_none_right_eq_some.mp moved
    unfold send at same
    split at same
    next fits =>
      cases same
      exact .inl ⟨accepted,_,if_pos ⟨idle,fits⟩,idle,rfl⟩
    next big =>
      cases same
      exact .inr ⟨if_neg (fun fits => big fits.2),.inl ⟨s.txLen,rfl⟩⟩
  | pollCq =>
    obtain ⟨busy,same⟩ := Option.ite_none_right_eq_some.mp moved
    cases same
    exact .inr ⟨rfl,.inr (.inl ⟨busy,rfl⟩)⟩
  | complete =>
    obtain ⟨more,same⟩ := Option.ite_none_right_eq_some.mp moved
    cases same
    exact .inr ⟨rfl,.inr (.inr ⟨more,rfl⟩)⟩

private theorem step_of_posting {accepted : Bool} (posts : posting p s event = some accepted) :
    ∃ frameLen, step p s event = some (commit p (acquire s frameLen) accepted) := by
  cases event with
  | commit =>
    obtain ⟨idle,same⟩ := Option.ite_none_right_eq_some.mp posts
    cases same
    exact ⟨s.txLen,if_pos idle⟩
  | send size =>
    obtain ⟨⟨idle,fits⟩,same⟩ := Option.ite_none_right_eq_some.mp posts
    cases same
    refine ⟨BitVec.ofNat 32 size,(if_pos idle).trans (congrArg some ?_)⟩
    exact if_pos fits
  | acquire | pollCq | complete => cases posts

/-- No flagged request is refused. -/
def SignaledPosted (p : Params) (s : State) (event : Event) : Prop :=
  posting p s event = some false → signals p s = false

/-- The count is the number of flagged requests that were posted and not reaped. -/
def Accounts (p : Params) (s : State) (event : Event) : Prop :=
  ∀ t ∈ step p s event, t.unreaped.toNat = signaled t - t.reaped

instance (p : Params) (s : State) (event : Event) : Decidable (SignaledPosted p s event) :=
  inferInstanceAs (Decidable (_ → _))

instance (p : Params) (s : State) (event : Event) : Decidable (Accounts p s event) :=
  inferInstanceAs (Decidable (∀ t ∈ step p s event, _ = _))

theorem Accounted.step (inv : Accounted p s) (kept : SignaledPosted p s event) (moved : step p s event = some t) :
    Accounted p t := by
  rcases step_cases moved with ⟨accepted,frameLen,posts,idle,rfl⟩ | ⟨_,⟨frameLen,rfl⟩ | ⟨_,rfl⟩ | ⟨more,rfl⟩⟩
  · apply (inv.acquire frameLen).commit idle
    intro refused
    exact kept (posts.trans (congrArg some refused))
  · exact inv.acquire frameLen
  · exact inv.pollCq
  · exact ⟨inv.count,Nat.le_succ_of_le inv.order,more,inv.below,inv.rest,inv.busy⟩

theorem Accounted.accounts_iff (inv : Accounted p s) : Accounts p s event ↔ SignaledPosted p s event := by
  constructor
  · intro accounts refused
    obtain ⟨frameLen,moved⟩ := step_of_posting refused
    have same := accounts _ moved
    have unreaped := (inv.acquire frameLen).commit_unreaped false
    have count := inv.count
    rw [Accounted.commit_signaled] at same
    change _ = s.posted.count true + 0 - s.reaped at same
    change _ = s.unreaped.toNat + (signals p s).toNat at unreaped
    unfold signaled at count
    have none : (signals p s).toNat = 0 := by omega
    cases flag : signals p s with
    | true => rw [flag] at none; cases none
    | false => rfl
  · intro kept t moved
    have count := (inv.step kept moved).count
    omega

/-- In a run the count is right after every step exactly if no flagged request is refused,
and then the backstop loop waits only for a completion that is still to come. -/
theorem count_right_iff_signaled_posted (p : Params) (events : List Event) :
    (Along (step p) (Accounts p) start events ↔ Along (step p) (SignaledPosted p) start events) ∧
    (Along (step p) (SignaledPosted p) start events → ∀ s, run (step p) start events = some s → s.phase = .backstop →
      s.reaped < signaled s) := by
  constructor
  · apply along_iff_of_invariant (Accounted p) _ _ (.start p) (along_true _ _ events)
    · intro s event t inv _ accounts moved
      exact inv.step (inv.accounts_iff.mp accounts) moved
    · intro s event inv _
      exact inv.accounts_iff
  · intro kept s ran waiting
    have inv : Accounted p s := run_invariant (Accounted p) (fun _ _ _ inv kept moved => inv.step kept moved)
        (.start p) kept ran
    have count := inv.count
    have some := inv.busy (fun idle => nomatch idle.symm.trans waiting)
    omega

def labQueue (signalBits : Nat) (short : signalBits ≤ 1) : Params where
  sqDepth := 2^signalBits * 4
  signalBits := signalBits
  maxFrame := 2048
  maxInline := 140
  depth := by
    have : 2^signalBits ≤ 2^1 := Nat.pow_le_pow_right (by decide) short
    omega
  several := Nat.le_refl _

def labRefused : List Event :=
  [.acquire 200,.commit false,.commit true,.commit false,.commit true,.pollCq,.commit false,.pollCq,.commit true,.pollCq]

theorem count_right_iff_signaled_posted_lab :
    ∃ s, run (step (labQueue 1 (Nat.le_refl 1))) start labRefused = some s ∧ s.phase = .backstop ∧ s.posted =
      [true,true,true] ∧
      s.reaped < signaled s := by
  have shown : (run (step (labQueue 1 (Nat.le_refl 1))) start labRefused).map (fun s => (s.phase,s.posted)) =
      some (.backstop,[true,true,true]) := by decide +kernel
  obtain ⟨s,ran,parts⟩ := Option.map_eq_some_iff.mp shown
  obtain ⟨phase,posted⟩ := Prod.mk.inj parts
  have kept : Along (step (labQueue 1 (Nat.le_refl 1))) (SignaledPosted (labQueue 1 (Nat.le_refl 1))) start labRefused := by
    decide +kernel
  exact ⟨s,ran,phase,posted,(count_right_iff_signaled_posted _ _).2 kept s ran phase⟩

def labOversized : List Event :=
  [.acquire 200,.commit false,.acquire 200,.commit false,.pollCq,.acquire 200,.commit false,.pollCq]

/-- Three refused posts leave `commit` in its backstop loop with nothing in the queue, in a
state that no step changes. -/
theorem refused_posts_hang_commit :
    ∃ s, run (step (labQueue 0 (Nat.zero_le 1))) start labOversized = some s ∧ s.phase = .backstop ∧ s.unreaped = 3 ∧
      signaled s = 0 ∧ ¬ Along (step (labQueue 0 (Nat.zero_le 1))) (Accounts (labQueue 0 (Nat.zero_le 1))) start
        labOversized ∧
      ∀ event t, step (labQueue 0 (Nat.zero_le 1)) s event = some t → t = s := by
  refine ⟨⟨.backstop,200,3,3,[],0,0⟩,by decide +kernel,rfl,rfl,rfl,by decide +kernel,?_⟩
  intro event t moved
  cases event with
  | acquire | commit | send => cases moved
  | pollCq =>
    cases Option.some.inj moved
    decide +kernel
  | complete => cases moved

def periodic (every count : Nat) : List Bool := (List.range count).map (fun i => decide ((i + 1) % every = 0))

section periodic

variable {every : Nat}

theorem periodic_length (every count : Nat) : (periodic every count).length = count := by
  simp [periodic]

private theorem periodic_succ (every count : Nat) :
    periodic every (count + 1) = periodic every count ++ [decide ((count + 1) % every = 0)] := by
  rw [periodic,List.range_succ,List.map_append]
  rfl

private theorem count_periodic (every count : Nat) : (periodic every count).count true = count / every := by
  induction count with
  | zero => exact (Nat.zero_div every).symm
  | succ count ih =>
    rw [periodic_succ,List.count_append,ih,Nat.succ_div]
    congr 1
    by_cases last : every ∣ count + 1
    · rw [if_pos last,Nat.mod_eq_zero_of_dvd last]
      rfl
    · rw [if_neg last,decide_eq_false (fun zero => last (Nat.dvd_of_mod_eq_zero zero))]
      rfl

private theorem periodic_lap (some : 0 < every) (count : Nat) :
    periodic every (every + count) = List.replicate (every - 1) false ++ true :: periodic every count := by
  apply List.ext_getElem
  · simp [periodic]
    omega
  · intro i inside _
    rw [periodic_length] at inside
    rw [List.getElem_append]
    simp only [periodic,List.getElem_map,List.getElem_range,List.length_replicate]
    split
    next early => simp [Nat.mod_eq_of_lt (by omega : i + 1 < every)]
    next late =>
      obtain ⟨more,rfl⟩ := Nat.exists_eq_add_of_le (Nat.le_of_not_lt late)
      cases more with
      | zero =>
        have lap : every - 1 + 0 + 1 = every := by omega
        simp [lap]
      | succ more =>
        have lap : every - 1 + (more + 1) + 1 = every + (more + 1) := by omega
        have back : every - 1 + (more + 1) - (every - 1) = more + 1 := by omega
        simp [lap,back]

private theorem uncovered_block (gap : Nat) (rest : List Bool) (reaped : Nat) :
    uncovered (List.replicate gap false ++ true :: rest) (reaped + 1) = uncovered rest reaped := by
  induction gap with
  | zero => rfl
  | succ gap ih => exact ih

private theorem uncovered_periodic (some : 0 < every) {count reaped : Nat} (enough : reaped * every ≤ count) :
    uncovered (periodic every count) reaped = count - reaped * every := by
  induction reaped generalizing count with
  | zero => rw [uncovered,periodic_length,Nat.zero_mul,Nat.sub_zero]
  | succ reaped ih =>
    rw [Nat.succ_mul] at enough ⊢
    obtain ⟨more,rfl⟩ := Nat.exists_eq_add_of_le (by omega : every ≤ count)
    rw [periodic_lap some,uncovered_block,ih (by omega)]
    omega

end periodic

structure Posted (p : Params) (s : State) : Prop where
  accounted : Accounted p s
  count : s.txCount = BitVec.ofNat 64 s.posted.length
  flags : s.posted = periodic p.signalEvery s.posted.length
  room : s.posted.length % p.signalEvery + s.unreaped.toNat * p.signalEvery ≤ (p.periods - 1) * p.signalEvery

private theorem signalBits_lt (p : Params) : p.signalBits < 14 := by
  have several := p.several
  have depth := p.depth
  apply (Nat.pow_lt_pow_iff_right (by decide : 1 < 2)).mp
  omega

namespace Posted

private theorem signals_eq (posted : Posted p s) : signals p s = decide ((s.posted.length + 1) % p.signalEvery = 0) := by
  have narrow := signalBits_lt p
  have value := WrappingCounter.mask_toNat (by omega : p.signalBits ≤ 64) (s.posted.length + 1)
  unfold signals
  rw [posted.count,WrappingCounter.ofNat_succ,decide_eq_decide,← BitVec.toNat_inj]
  change (_ &&& (BitVec.ofNat 64 (2^p.signalBits) - 1)).toNat = 0 ↔ _
  rw [value]
  rfl

theorem commit (posted : Posted p s) (idle : s.phase = .idle) : Posted p (commit p s true) := by
  have pos := signalEvery_pos p
  obtain ⟨many,_,_⟩ := periods_bounds p
  have length : (s.posted ++ [signals p s]).length = s.posted.length + 1 := List.length_append
  have unreaped := posted.accounted.commit_unreaped true
  have rest := posted.accounted.rest idle
  refine ⟨posted.accounted.commit idle (fun refused => nomatch refused),?_,?_,?_⟩
  · change s.txCount + 1 = BitVec.ofNat 64 (s.posted ++ [signals p s]).length
    rw [length,posted.count,WrappingCounter.ofNat_succ]
  · change s.posted ++ [signals p s] = periodic _ (s.posted ++ [signals p s]).length
    rw [length,periodic_succ,← posted.flags,posted.signals_eq]
  · change (s.posted ++ [signals p s]).length % _ + _ ≤ _
    rw [length,unreaped,posted.signals_eq]
    -- A period is closed exactly when the request of this post is flagged.
    by_cases closed : (s.posted.length + 1) % p.signalEvery = 0
    · rw [decide_eq_true closed,closed,Nat.zero_add]
      apply Nat.mul_le_mul_right
      change s.unreaped.toNat + 1 ≤ _
      omega
    · rw [decide_eq_false closed]
      have part := Nat.mod_lt (s.posted.length + 1) pos
      have few : (s.unreaped.toNat + 1) * p.signalEvery ≤ (p.periods - 1) * p.signalEvery :=
        Nat.mul_le_mul_right _ (by omega)
      rw [Nat.succ_mul] at few
      change _ + s.unreaped.toNat * p.signalEvery ≤ _
      omega

theorem pollCq (posted : Posted p s) : Posted p (pollCq p s) := by
  have accounted := posted.accounted.pollCq
  have room := posted.room
  unfold VerbsSend.pollCq at accounted ⊢
  dsimp only at accounted ⊢
  split at accounted
  next waiting =>
    rw [if_pos waiting]
    have less : (s.unreaped - 1).toNat ≤ s.unreaped.toNat := by
      rw [← posted.accounted.reap waiting]
      exact Nat.le_succ _
    refine ⟨accounted,posted.count,posted.flags,?_⟩
    exact Nat.le_trans (Nat.add_le_add_left (Nat.mul_le_mul_right _ less) _) room
  next drained =>
    rw [if_neg drained]
    exact ⟨accounted,posted.count,posted.flags,room⟩

theorem step (posted : Posted p s) (accepts : posting p s event ≠ some false) (moved : step p s event = some t) :
    Posted p t := by
  have acquired (frameLen : BitVec 32) : Posted p (acquire s frameLen) :=
    ⟨posted.accounted.acquire frameLen,posted.count,posted.flags,posted.room⟩
  rcases step_cases moved with ⟨accepted,frameLen,posts,idle,rfl⟩ | ⟨_,⟨frameLen,rfl⟩ | ⟨_,rfl⟩ | ⟨_,rfl⟩⟩
  · cases accepted with
    | true => exact (acquired frameLen).commit idle
    | false => exact absurd posts accepts
  · exact acquired frameLen
  · exact posted.pollCq
  · exact ⟨posted.accounted.step (fun refused => absurd refused accepts) moved,posted.count,posted.flags,posted.room⟩

theorem start (p : Params) : Posted p start := by
  refine ⟨.start p,rfl,rfl,?_⟩
  change 0 % p.signalEvery + 0 * p.signalEvery ≤ _
  rw [Nat.zero_mod,Nat.zero_mul]
  exact Nat.zero_le _

private theorem signaled_eq (posted : Posted p s) : signaled s = s.posted.length / p.signalEvery := by
  unfold signaled
  rw [posted.flags,count_periodic,periodic_length]

private theorem txCount_mod (posted : Posted p s) : s.txCount.toNat % p.signalEvery = s.posted.length % p.signalEvery := by
  have narrow := signalBits_lt p
  have divides : p.signalEvery ∣ 2^64 := Nat.pow_dvd_pow 2 (by omega)
  rw [posted.count,WrappingCounter.ofNat_toNat_mod,Nat.mod_mod_of_dvd _ divides]

private theorem uncovered_eq (posted : Posted p s) :
    uncovered s.posted s.reaped = s.txCount.toNat % p.signalEvery + s.unreaped.toNat * p.signalEvery := by
  have pos := signalEvery_pos p
  have count := posted.accounted.count
  have split := Nat.div_add_mod s.posted.length p.signalEvery
  rw [posted.signaled_eq] at count
  rw [← count,Nat.mul_comm,Nat.add_mul] at split
  rw [posted.txCount_mod,posted.flags,uncovered_periodic pos (by omega),periodic_length]
  omega

end Posted

/-- In every run in which each post is accepted, the requests no reaped completion covers
are those of the open period and of the unreaped ones, and leave a period of the queue
free. The count is above zero when a completion is taken off it, and the backstop loop
waits for a request that is in the queue. -/
theorem send_queue_keeps_a_period_free {events : List Event}
    (accepted : Along (step p) (fun s event => posting p s event ≠ some false) start events)
    (ran : run (step p) start events = some s) :
    uncovered s.posted s.reaped = s.txCount.toNat % p.signalEvery + s.unreaped.toNat * p.signalEvery ∧
    uncovered s.posted s.reaped ≤ p.sqDepth - p.signalEvery ∧
    (s.reaped < s.completed → 0 < s.unreaped.toNat) ∧
    (s.phase = .backstop → s.reaped < signaled s) := by
  have posted : Posted p s :=
    run_invariant (Posted p) (fun _ _ _ posted accepts moved => posted.step accepts moved) (.start p) accepted ran
  have count := posted.accounted.count
  have bound := posted.accounted.bound
  refine ⟨posted.uncovered_eq,?_,?_,?_⟩
  · obtain ⟨many,_,fits⟩ := periods_bounds p
    have room := posted.room
    have one : p.signalEvery ≤ p.periods * p.signalEvery := Nat.le_mul_of_pos_left _ (by omega)
    rw [Nat.sub_mul,Nat.one_mul] at room
    rw [posted.uncovered_eq,posted.txCount_mod]
    omega
  · intro waiting
    omega
  · intro waiting
    have some := posted.accounted.busy (fun idle => nomatch idle.symm.trans waiting)
    omega

/-- Three periods posted before the first completion, which the backstop waits for. -/
def labPeriods : List Event :=
  [.acquire 64,.commit true,.commit true,.commit true,.commit true,.pollCq,.commit true,.pollCq,.send 60 true,.pollCq,
    .complete,.pollCq]

theorem send_queue_keeps_a_period_free_lab :
    ∃ s, run (step (labQueue 1 (Nat.le_refl 1))) start labPeriods = some s ∧ s.posted.length = 6 ∧ s.reaped = 1 ∧
      uncovered s.posted s.reaped = 4 ∧ uncovered s.posted s.reaped ≤ 6 := by
  have shown : (run (step (labQueue 1 (Nat.le_refl 1))) start labPeriods).map
      (fun s => (s.posted.length,s.reaped,uncovered s.posted s.reaped)) = some (6,1,4) := by decide +kernel
  obtain ⟨s,ran,parts⟩ := Option.map_eq_some_iff.mp shown
  simp only [Prod.mk.injEq] at parts
  obtain ⟨posted,reaped,out⟩ := parts
  exact ⟨s,ran,posted,reaped,out,(send_queue_keeps_a_period_free (by decide +kernel) ran).2.1⟩

end Abtrda3.VerbsSend
