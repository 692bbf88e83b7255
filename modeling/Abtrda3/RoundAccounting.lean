import Abtrda3.PingPong
import Abtrda3.Semantics.Machine
import Abtrda3.Semantics.WrappingCounter

/-! The counters that `run_client` reports, against a clock. Every call of the loop returns
at some time of a clock that never goes back, and a stop request, once seen, stays. The
ledger of the rounds is kept beside the loop: when each one's `commit` returned and when
its wait was over. -/
namespace Abtrda3.RoundAccounting
open Abtrda3.Semantics Abtrda3.Semantics.Machine Abtrda3.Application Abtrda3.PingPong

/-- A round that is over. Its wait ends with the poll that took the matching echo, or
with the check that gave it up. -/
structure Round where
  committed : BitVec 64
  waited : BitVec 64
  heard : Bool
  warm : Bool
  cut : Bool
  deriving DecidableEq, Repr

namespace Round

def unheard (r : Round) : Bool := !r.heard && r.warm

def cold (r : Round) : Bool := !r.heard && !r.warm

/-- The echo timeout passed after the commit and before the end of the wait. -/
def overdue (p : Client.Setting) (r : Round) : Bool := r.warm && decide (p.timeoutCyc ≤ r.waited - r.committed)

/-- Overdue, and no echo came even then. -/
def timedOut (p : Client.Setting) (r : Round) : Bool := !r.heard && r.overdue p

end Round

structure Event where
  now : BitVec 64
  reply : Reply
  deriving DecidableEq, Repr

structure World where
  client : Client.State
  now : BitVec 64
  stopped : Bool
  committed : BitVec 64
  polled : BitVec 64
  rounds : List Round
  deriving DecidableEq, Repr

/-- The clock does not go back, a reading of it is the time of the call, and a stop request
is not taken back. -/
def Honest (p : Client.Setting) (w : World) (e : Event) : Prop :=
  w.now ≤ e.now ∧ match Client.call p w.client with
    | some .now => e.reply = .time e.now
    | some .stopRequested => w.stopped = true → e.reply = .flag true
    | _ => True

instance (p : Client.Setting) (w : World) (e : Event) : Decidable (Honest p w e) := by
  unfold Honest
  split <;> infer_instance

def seesStop (s : Client.State) (reply : Reply) : Bool :=
  (decide (s.pc = .stopCheck) || decide (s.pc = .spinStop)) && decide (reply = .flag true)

def closed (w : World) (e : Event) (t : Client.State) : List Round :=
  if flying w.client.pc = true ∧ t.pc = .top then
    [{committed := w.committed
      waited := if echoed w.client.pc then w.polled else e.now
      heard := echoed w.client.pc
      warm := decide (kWarmupDiscard ≤ w.client.warmup)
      cut := decide (w.client.pc = .spinStop)}]
  else []

def after (w : World) (e : Event) (t : Client.State) : World where
  client := t
  now := e.now
  stopped := w.stopped || seesStop w.client e.reply
  committed := if w.client.pc = .commit then e.now else w.committed
  polled := if w.client.pc = .receive then e.now else w.polled
  rounds := w.rounds ++ closed w e t

def step (p : Client.Setting) (w : World) (e : Event) : Option World :=
  if Honest p w e then (Client.next p w.client e.reply).map (after w e) else none

def begin (client : Client.State) (now : BitVec 64) : World := ⟨client,now,false,0,0,[]⟩

theorem step_eq_some {p : Client.Setting} {w u : World} {e : Event} :
    step p w e = some u ↔ Honest p w e ∧ ∃ t, Client.next p w.client e.reply = some t ∧ u = after w e t := by
  unfold step
  split
  · next honest =>
    rw [Option.map_eq_some_iff]
    simp only [honest,true_and,eq_comm]
  · next refused => simp only [refused,false_and,reduceCtorEq]

/-- The spin loop leaves the round without an echo. -/
def givesUp (p : Client.Setting) (s : Client.State) (reply : Reply) : Bool :=
  match s.pc, reply with
  | .spinStop, .flag stop => stop
  | .spinTime, .time now => decide (p.timeoutCyc ≤ now - s.t1)
  | _, _ => false

def heardRounds (s : Client.State) : Nat := s.warmup + s.recorded + s.hwTxMissing

section Turns

structure Idles (s t : Client.State) : Prop where
  flight : flying t.pc = flying s.pc
  start : flying s.pc = true → t.t1 = s.t1
  sent : t.sent = s.sent
  heard : heardRounds t = heardRounds s
  timeouts : t.timeouts = s.timeouts

structure Hears (s t : Client.State) : Prop where
  past : echoed s.pc = true
  top : t.pc = .top
  sent : t.sent = s.sent
  heard : heardRounds t = heardRounds s + 1
  timeouts : t.timeouts = s.timeouts

inductive Turn (p : Client.Setting) (s : Client.State) (reply : Reply) : Client.State → Prop
  | idle {t : Client.State} (kept : givesUp p s reply = false) (idles : Idles s t) : Turn p s reply t
  | send (here : s.pc = .commit) : Turn p s reply {s with sent := s.sent + 1, spins := 0, pc := .receive}
  | hear {t : Client.State} (hears : Hears s t) : Turn p s reply t
  | giveUp (gave : givesUp p s reply = true) : Turn p s reply (Client.endRound false s)

theorem flying_of_echoed {pc : Client.Pc} (past : echoed pc = true) : flying pc = true := by
  cases pc with
  | releaseEcho | pollStamp | rxStamp | push => rfl
  | _ => cases past

variable {s : Client.State}

theorem givesUp_cases {p : Client.Setting} {reply : Reply} (gave : givesUp p s reply = true) :
    (s.pc = .spinStop ∧ reply = .flag true) ∨
      (s.pc = .spinTime ∧ ∃ now, reply = .time now ∧ p.timeoutCyc ≤ now - s.t1) := by
  unfold givesUp at gave
  split at gave
  · next here => exact .inl ⟨here,congrArg Reply.flag gave⟩
  · next now here => exact .inr ⟨here,now,rfl,of_decide_eq_true gave⟩
  · cases gave

theorem givesUp_place {p : Client.Setting} {reply : Reply} (gave : givesUp p s reply = true) :
    s.pc = .spinStop ∨ s.pc = .spinTime :=
  (givesUp_cases gave).imp And.left And.left

private theorem keeps_of_place {p : Client.Setting} (reply : Reply) (stop : s.pc ≠ .spinStop)
    (time : s.pc ≠ .spinTime) : givesUp p s reply = false := by
  cases gave : givesUp p s reply with
  | false => rfl
  | true => exact absurd (givesUp_place gave) (not_or.mpr ⟨stop,time⟩)

theorem idles_within {s t : Client.State} (flight : flying t.pc = flying s.pc) (start : t.t1 = s.t1)
    (sent : t.sent = s.sent) (heard : heardRounds t = heardRounds s) (timeouts : t.timeouts = s.timeouts) : Idles s t :=
  ⟨flight,fun _ => start,sent,heard,timeouts⟩

private theorem idles_aground {s t : Client.State} (ground : flying s.pc = false) (flight : flying t.pc = false)
    (sent : t.sent = s.sent) (heard : heardRounds t = heardRounds s) (timeouts : t.timeouts = s.timeouts) : Idles s t :=
  ⟨flight.trans ground.symm,by rw [ground]; nofun,sent,heard,timeouts⟩

theorem idle_of_place {p : Client.Setting} {s t : Client.State} {reply : Reply} {pc : Client.Pc} (here : s.pc = pc)
    (stop : pc ≠ .spinStop) (time : pc ≠ .spinTime) (idles : Idles s t) : Turn p s reply t := by
  subst here
  exact .idle (keeps_of_place reply stop time) idles

private theorem spin_idles (flight : flying s.pc = true) : Idles s (Client.spin s) := by
  unfold Client.spin
  split <;> exact idles_within flight.symm rfl rfl rfl rfl

private theorem classify_idles (p : Client.Setting) (flight : flying s.pc = true) (frame : List Byte)
    (t2 : BitVec 64) : Idles s (Client.classify p s frame t2) := by
  unfold Client.classify
  split <;> exact idles_within flight.symm rfl rfl rfl rfl

theorem endRound_hears {s u : Client.State} (past : echoed s.pc = true) (sent : u.sent = s.sent)
    (heard : heardRounds u = heardRounds s + 1) (timeouts : u.timeouts = s.timeouts) :
    Hears s (Client.endRound true u) :=
  ⟨past,rfl,sent,heard,timeouts⟩

theorem warmup_hears (past : echoed s.pc = true) :
    Hears s (Client.endRound true {s with warmup := s.warmup + 1}) := by
  refine endRound_hears past rfl ?_ rfl
  unfold heardRounds
  dsimp only
  omega

private theorem recordCycles_turn {t2 : BitVec 64} (here : s.pc = .releaseEcho t2) :
    Idles s (Client.recordCycles s t2) ∨ Hears s (Client.recordCycles s t2) := by
  have past : echoed s.pc = true := by rw [here]; rfl
  unfold Client.recordCycles
  split
  · exact .inr (warmup_hears past)
  · exact .inl (idles_within (flying_of_echoed past).symm rfl rfl rfl rfl)

private theorem joinStamp_turn (here : s.pc = .pollStamp) (stamp : Option TxStamp) :
    Idles s (Client.joinStamp s stamp) ∨ Hears s (Client.joinStamp s stamp) := by
  have past : echoed s.pc = true := by rw [here]; rfl
  have flight := flying_of_echoed past
  unfold Client.joinStamp
  split
  · split_ifs
    · exact .inl (idles_within flight.symm rfl rfl rfl rfl)
    · exact .inr (warmup_hears past)
    · exact .inl (idles_within flight.symm rfl rfl rfl rfl)
  · split_ifs
    · exact .inr (warmup_hears past)
    · exact .inr (endRound_hears past rfl rfl rfl)

theorem turn_of_next {p : Client.Setting} {s t : Client.State} {reply : Reply}
    (moved : Client.next p s reply = some t) : Turn p s reply t := by
  unfold Client.next at moved
  split at moved
  case h_19 => cases moved
  all_goals obtain ⟨value,read,rfl⟩ := Option.map_eq_some_iff.mp moved
  case h_16 here =>
    cases Reply.flag?_eq_some read
    have gives : givesUp p s (.flag value) = value := by unfold givesUp; rw [here]
    cases value with
    | true => exact .giveUp gives
    | false => exact .idle gives (idles_within (by rw [here]; rfl) rfl rfl rfl rfl)
  case h_17 here =>
    cases Reply.time?_eq_some read
    have gives : givesUp p s (.time value) = decide (p.timeoutCyc ≤ value - s.t1) := by unfold givesUp; rw [here]
    split
    · next late => exact .giveUp (gives.trans (decide_eq_true late))
    · next early =>
      exact .idle (gives.trans (decide_eq_false early)) (idles_within (by rw [here]; rfl) rfl rfl rfl rfl)
  case h_8 here => exact .send here
  case h_14 here =>
    refine .hear (endRound_hears (by rw [here]; rfl) rfl ?_ rfl)
    unfold heardRounds
    dsimp only
    omega
  case h_11 here =>
    split_ifs
    · exact idle_of_place here nofun nofun (idles_within (by rw [here]; rfl) rfl rfl rfl rfl)
    · exact (recordCycles_turn here).elim (idle_of_place here nofun nofun) .hear
  case h_12 here => exact (joinStamp_turn here value).elim (idle_of_place here nofun nofun) .hear
  case h_9 here =>
    apply idle_of_place here nofun nofun
    have flight : flying s.pc = true := by rw [here]; rfl
    split_ifs
    · exact spin_idles flight
    · exact classify_idles p flight _ _
    · exact idles_within flight.symm rfl rfl rfl rfl
  case h_10 here => exact idle_of_place here nofun nofun (classify_idles p (by rw [here]; rfl) _ _)
  case h_15 here => exact idle_of_place here nofun nofun (spin_idles (by rw [here]; rfl))
  case h_13 here => exact idle_of_place here nofun nofun (idles_within (by rw [here]; rfl) rfl rfl rfl rfl)
  -- The places before the commit and after the last round.
  case h_3 here | h_6 here | h_7 here =>
    exact idle_of_place here nofun nofun (idles_aground (by rw [here]; rfl) rfl rfl rfl rfl)
  case h_1 here | h_2 here | h_4 here | h_5 here | h_18 here =>
    apply idle_of_place here nofun nofun
    split_ifs <;> exact idles_aground (by rw [here]; rfl) rfl rfl rfl rfl

end Turns

section Ledger

variable {p : Client.Setting} {w u : World} {e : Event} {t : Client.State}

def heardRound (w : World) : Round :=
  ⟨w.committed,w.polled,true,decide (kWarmupDiscard ≤ w.client.warmup),false⟩

def lostRound (w : World) (e : Event) : Round :=
  ⟨w.committed,e.now,false,decide (kWarmupDiscard ≤ w.client.warmup),decide (w.client.pc = .spinStop)⟩

theorem closed_idle (idles : Idles w.client t) : closed w e t = [] := by
  unfold closed
  apply if_neg
  rintro ⟨flight,top⟩
  have ground := idles.flight
  rw [flight,top] at ground
  cases ground

private theorem closed_aground (ground : flying w.client.pc = false) : closed w e t = [] := by
  unfold closed
  apply if_neg
  rw [ground]
  rintro ⟨flight,_⟩
  cases flight

theorem closed_send (here : w.client.pc = .commit) : closed w e t = [] :=
  closed_aground (by rw [here]; rfl)

theorem closed_hear (hears : Hears w.client t) : closed w e t = [heardRound w] := by
  have uncut : w.client.pc ≠ .spinStop := by
    intro here
    have past := hears.past
    rw [here] at past
    cases past
  unfold closed heardRound
  rw [if_pos ⟨flying_of_echoed hears.past,hears.top⟩,hears.past,if_pos rfl,decide_eq_false uncut]

theorem flying_of_givesUp {s : Client.State} {reply : Reply} (gave : givesUp p s reply = true) :
    flying s.pc = true ∧ echoed s.pc = false := by
  rcases givesUp_place gave with here | here
  · rw [here]
    exact ⟨rfl,rfl⟩
  · rw [here]
    exact ⟨rfl,rfl⟩

theorem closed_giveUp (gave : givesUp p w.client e.reply = true) :
    closed w e (Client.endRound false w.client) = [lostRound w e] := by
  obtain ⟨flight,unheard⟩ := flying_of_givesUp gave
  unfold closed lostRound
  rw [if_pos ⟨flight,rfl⟩,unheard,if_neg Bool.false_ne_true]

private theorem keeps_of_echoed {s : Client.State} (past : echoed s.pc = true) (reply : Reply) :
    givesUp p s reply = false := by
  cases gave : givesUp p s reply with
  | false => rfl
  | true => exact absurd past (by rw [(flying_of_givesUp gave).2]; nofun)

inductive Entry (p : Client.Setting) (w : World) (e : Event) (rounds : List Round) : Prop
  | none (kept : givesUp p w.client e.reply = false) (same : rounds = w.rounds)
  | heard (kept : givesUp p w.client e.reply = false) (past : echoed w.client.pc = true)
      (more : rounds = w.rounds ++ [heardRound w])
  | lost (gave : givesUp p w.client e.reply = true) (more : rounds = w.rounds ++ [lostRound w e])

theorem step_entry (stepped : step p w e = some u) : Entry p w e u.rounds := by
  obtain ⟨_,t,moved,rfl⟩ := step_eq_some.mp stepped
  change Entry p w e (w.rounds ++ closed w e t)
  cases turn_of_next moved with
  | idle kept idles =>
    rw [closed_idle idles,List.append_nil]
    exact .none kept rfl
  | send here =>
    rw [closed_send here,List.append_nil]
    exact .none (keeps_of_place _ (by rw [here]; nofun) (by rw [here]; nofun)) rfl
  | hear hears =>
    rw [closed_hear hears]
    exact .heard (keeps_of_echoed hears.past _) hears.past rfl
  | giveUp gave =>
    rw [closed_giveUp gave]
    exact .lost gave rfl

private theorem endRound_timeouts (s : Client.State) :
    (Client.endRound false s).timeouts = s.timeouts + (decide (kWarmupDiscard ≤ s.warmup)).toNat := by
  unfold Client.endRound
  by_cases warm : kWarmupDiscard ≤ s.warmup
  · simp [warm]
  · simp [warm]

structure Books (w : World) : Prop where
  timeouts : w.client.timeouts = w.rounds.countP Round.unheard
  sent : w.client.sent =
    heardRounds w.client + w.client.timeouts + w.rounds.countP Round.cold + (flying w.client.pc).toNat

theorem countP_snoc (test : Round → Bool) (rounds : List Round) (r : Round) :
    (rounds ++ [r]).countP test = rounds.countP test + (test r).toNat := by
  rw [List.countP_append,List.countP_singleton]
  cases test r <;> rfl

theorem Books.step (books : Books w) (stepped : step p w e = some u) : Books u := by
  obtain ⟨_,t,moved,rfl⟩ := step_eq_some.mp stepped
  have timeouts := books.timeouts
  have sent := books.sent
  cases turn_of_next moved with
  | idle kept idles =>
    constructor
    · change t.timeouts = (w.rounds ++ closed w e t).countP _
      rw [closed_idle idles,List.append_nil,idles.timeouts,timeouts]
    · change t.sent = heardRounds t + t.timeouts + (w.rounds ++ closed w e t).countP _ + (flying t.pc).toNat
      rw [closed_idle idles,List.append_nil,idles.timeouts,idles.heard,idles.flight,idles.sent,sent]
  | send here =>
    rw [here] at sent
    constructor
    · change w.client.timeouts = (w.rounds ++ closed w e _).countP _
      rw [closed_send here,List.append_nil,timeouts]
    · change w.client.sent + 1 = heardRounds w.client + w.client.timeouts + (w.rounds ++ closed w e _).countP _ + 1
      rw [closed_send here,List.append_nil,sent]
      rfl
  | hear hears =>
    rw [flying_of_echoed hears.past,Bool.toNat_true] at sent
    have warm : (Round.cold (heardRound w)).toNat = 0 := rfl
    have ground : (flying .top).toNat = 0 := rfl
    constructor
    · change t.timeouts = (w.rounds ++ closed w e t).countP _
      rw [closed_hear hears,countP_snoc,hears.timeouts,timeouts]
      rfl
    · change t.sent = heardRounds t + t.timeouts + (w.rounds ++ closed w e t).countP _ + (flying t.pc).toNat
      rw [closed_hear hears,countP_snoc,hears.timeouts,hears.heard,hears.top,hears.sent,sent,warm,ground]
      omega
  | giveUp gave =>
    rw [(flying_of_givesUp gave).1,Bool.toNat_true] at sent
    have split : (Round.unheard (lostRound w e)).toNat + (Round.cold (lostRound w e)).toNat = 1 := by
      unfold Round.unheard Round.cold lostRound
      cases decide (kWarmupDiscard ≤ w.client.warmup) <;> rfl
    have counted : (Client.endRound false w.client).timeouts = w.client.timeouts + (Round.unheard (lostRound w e)).toNat :=
      endRound_timeouts w.client
    constructor
    · change (Client.endRound false w.client).timeouts = (w.rounds ++ closed w e _).countP _
      rw [closed_giveUp gave,countP_snoc,counted,timeouts]
    · change w.client.sent = heardRounds w.client + (Client.endRound false w.client).timeouts +
        (w.rounds ++ closed w e _).countP _ + 0
      rw [closed_giveUp gave,countP_snoc,counted,sent]
      omega

def leaving : Client.Pc → Bool
  | .top | .stopCheck | .finish | .returned => true
  | _ => false

/-- A stop request that has been seen lets no further round begin. -/
structure Stops (w : World) : Prop where
  settled : w.stopped = true → leaving w.client.pc = true
  cut : w.rounds.countP Round.cut ≤ w.stopped.toNat

private theorem leaving_of_seesStop {s : Client.State} {reply : Reply} (seen : seesStop s reply = true)
    (moved : Client.next p s reply = some t) : leaving t.pc = true := by
  simp only [seesStop,Bool.and_eq_true,Bool.or_eq_true,decide_eq_true_eq] at seen
  obtain ⟨here | here,rfl⟩ := seen
  · simp only [Client.next,here] at moved
    cases moved
    rfl
  · simp only [Client.next,here] at moved
    cases moved
    rfl

private theorem leaving_of_leaving (honest : Honest p w e) (stopped : w.stopped = true)
    (settled : leaving w.client.pc = true)
    (moved : Client.next p w.client e.reply = some t) : leaving t.pc = true := by
  cases here : w.client.pc with
  | top =>
    simp only [Client.next,here,Option.map_eq_some_iff] at moved
    obtain ⟨now,_,rfl⟩ := moved
    dsimp only
    split <;> rfl
  | stopCheck =>
    have told := honest.2
    simp only [Client.call,here] at told
    exact leaving_of_seesStop (by simp [seesStop,here,told stopped]) moved
  | finish =>
    simp only [Client.next,here,Option.map_eq_some_iff] at moved
    obtain ⟨taken,_,rfl⟩ := moved
    dsimp only
    split <;> rfl
  | returned =>
    simp only [Client.next,here] at moved
    cases moved
  | _ =>
    rw [here] at settled
    cases settled

theorem Stops.step (stops : Stops w) (stepped : step p w e = some u) : Stops u := by
  obtain ⟨honest,t,moved,after⟩ := step_eq_some.mp stepped
  have stopped : u.stopped = (w.stopped || seesStop w.client e.reply) := by rw [after]; rfl
  have client : u.client = t := by rw [after]; rfl
  have kept : w.rounds.countP Round.cut ≤ u.stopped.toNat := by
    apply stops.cut.trans
    rw [stopped]
    cases w.stopped
    · exact Nat.zero_le _
    · exact Nat.le_refl 1
  constructor
  · intro seen
    rw [client]
    rw [stopped,Bool.or_eq_true_iff] at seen
    rcases seen with before | now
    · exact leaving_of_leaving honest before (stops.settled before) moved
    · exact leaving_of_seesStop now moved
  · cases step_entry stepped with
    | none _ same =>
      rw [same]
      exact kept
    | heard _ _ more =>
      rw [more,countP_snoc]
      exact kept
    | lost gave more =>
      rw [more,countP_snoc]
      rcases givesUp_cases gave with ⟨here,told⟩ | ⟨here,_⟩
      · -- The request was not seen before: the loop would not be spinning.
        have unseen : w.stopped = false := by
          cases before : w.stopped with
          | false => rfl
          | true =>
            have settled := stops.settled before
            rw [here] at settled
            cases settled
        have seen : seesStop w.client e.reply = true := by simp [seesStop,here,told]
        have none := stops.cut
        rw [unseen] at none
        rw [stopped,seen,Bool.or_true]
        exact Nat.add_le_add none (Bool.toNat_le _)
      · have uncut : (lostRound w e).cut = false := decide_eq_false (by rw [here]; nofun)
        rw [uncut]
        exact kept

end Ledger

section Truth

variable {p : Client.Setting} {w u : World} {e : Event}

/-- A round after the warm-up is given up no earlier than the timeout after its commit. -/
def GivesUpLate (p : Client.Setting) (w : World) (e : Event) : Prop :=
  givesUp p w.client e.reply = true → kWarmupDiscard ≤ w.client.warmup → p.timeoutCyc ≤ e.now - w.committed

instance (p : Client.Setting) (w : World) (e : Event) : Decidable (GivesUpLate p w e) :=
  inferInstanceAs (Decidable (_ → _ → _))

/-- Besides, its echo is taken before the timeout after its commit, if at all. -/
def InTime (p : Client.Setting) (w : World) (e : Event) : Prop :=
  GivesUpLate p w e ∧
    (echoed w.client.pc = true → kWarmupDiscard ≤ w.client.warmup → ¬ p.timeoutCyc ≤ w.polled - w.committed)

instance (p : Client.Setting) (w : World) (e : Event) : Decidable (InTime p w e) :=
  inferInstanceAs (Decidable (_ ∧ (_ → _ → _)))

def hasty (p : Client.Setting) (r : Round) : Bool := r.unheard && !r.timedOut p

private theorem countP_unheard (p : Client.Setting) (rounds : List Round) :
    rounds.countP Round.unheard = rounds.countP (Round.timedOut p) + rounds.countP (hasty p) := by
  induction rounds with
  | nil => rfl
  | cons r rest ih =>
    have here : (Round.unheard r).toNat = (Round.timedOut p r).toNat + (hasty p r).toNat := by
      unfold hasty Round.timedOut Round.overdue Round.unheard
      cases r.heard <;> cases r.warm <;> cases decide (p.timeoutCyc ≤ r.waited - r.committed) <;> rfl
    simp only [List.countP_cons]
    rw [ih]
    revert here
    cases Round.unheard r <;> cases Round.timedOut p r <;> cases hasty p r <;> simp <;> omega

private theorem hasty_lostRound (p : Client.Setting) (w : World) (e : Event) :
    hasty p (lostRound w e) = true ↔ kWarmupDiscard ≤ w.client.warmup ∧ ¬ p.timeoutCyc ≤ e.now - w.committed := by
  by_cases warm : kWarmupDiscard ≤ w.client.warmup
  · simp [hasty,lostRound,Round.unheard,Round.timedOut,Round.overdue,warm]
  · simp [hasty,lostRound,Round.unheard,Round.timedOut,Round.overdue,warm]

theorem hasty_step (stepped : step p w e = some u) :
    u.rounds.countP (hasty p) = w.rounds.countP (hasty p) + if GivesUpLate p w e then 0 else 1 := by
  have late (kept : givesUp p w.client e.reply = false) : GivesUpLate p w e := by
    unfold GivesUpLate
    rw [kept]
    nofun
  cases step_entry stepped with
  | none kept same => rw [same,if_pos (late kept),Nat.add_zero]
  | heard kept _ more =>
    rw [more,countP_snoc,if_pos (late kept)]
    rfl
  | lost gave more =>
    rw [more,countP_snoc]
    congr 1
    by_cases early : GivesUpLate p w e
    · rw [if_pos early,Bool.toNat_eq_zero,← Bool.not_eq_true,hasty_lostRound]
      rintro ⟨warm,short⟩
      exact short (early gave warm)
    · rw [if_neg early,Bool.toNat_eq_one,hasty_lostRound]
      rw [GivesUpLate,Classical.not_imp,Classical.not_imp] at early
      exact early.2

theorem hasty_eq_iff_along {events : List Event} (ran : run (step p) w events = some u) :
    u.rounds.countP (hasty p) = w.rounds.countP (hasty p) ↔ Along (step p) (GivesUpLate p) w events := by
  refine count_eq_iff_along (fun w => w.rounds.countP (hasty p)) ?_ ?_ ran
  · intro w e u stepped late
    rw [hasty_step stepped,if_pos late,Nat.add_zero]
  · intro w e u stepped early
    rw [hasty_step stepped,if_neg early]
    exact Nat.lt_succ_self _

/-- Every round of the ledger is overdue exactly if it is a loss. -/
def Judged (p : Client.Setting) (rounds : List Round) : Prop := ∀ r ∈ rounds, Round.unheard r = Round.overdue p r

theorem Judged.snoc {rounds : List Round} (judged : Judged p rounds) {last : Round}
    (agree : Round.unheard last = Round.overdue p last) : Judged p (rounds ++ [last]) := by
  intro r member
  rcases List.mem_append.mp member with old | new
  · exact judged r old
  · rw [List.mem_singleton.mp new]
    exact agree

theorem Judged.step (judged : Judged p w.rounds) (inTime : InTime p w e) (stepped : step p w e = some u) :
    Judged p u.rounds := by
  cases step_entry stepped with
  | none _ same =>
    rw [same]
    exact judged
  | heard _ past more =>
    rw [more]
    apply judged.snoc
    by_cases warm : kWarmupDiscard ≤ w.client.warmup
    · simp [heardRound,Round.unheard,Round.overdue,inTime.2 past warm]
    · simp [heardRound,Round.unheard,Round.overdue,warm]
  | lost gave more =>
    rw [more]
    apply judged.snoc
    by_cases warm : kWarmupDiscard ≤ w.client.warmup
    · simp [lostRound,Round.unheard,Round.overdue,inTime.1 gave warm,warm]
    · simp [lostRound,Round.unheard,Round.overdue,warm]

private theorem begin_books {now : BitVec 64} {clock : Timespec} {s : Client.State}
    (started : Client.start p now clock = some s) :
    Books (begin s now) ∧ Stops (begin s now) ∧ Judged p [] ∧ flying s.pc = false := by
  unfold Client.start at started
  split at started
  · cases started
  · cases Option.some.inj started
    exact ⟨⟨rfl,rfl⟩,⟨nofun,Nat.le_refl 0⟩,nofun,rfl⟩

/-- The commit returns at the time of the reading before it, and no round is cut short. -/
def Prompt (w : World) (e : Event) : Prop :=
  (w.client.pc = .commit → e.now = w.client.t1) ∧ (w.client.pc = .spinStop → e.reply ≠ .flag true)

private theorem givesUpLate_of_prompt (level : flying w.client.pc = true → w.committed = w.client.t1)
    (honest : Honest p w e)
    (prompt : Prompt w e) : GivesUpLate p w e := by
  intro gave _
  rw [level (flying_of_givesUp gave).1]
  rcases givesUp_cases gave with ⟨here,told⟩ | ⟨here,now,read,late⟩
  · exact absurd told (prompt.2 here)
  · have time := honest.2
    simp only [Client.call,here] at time
    rw [← Reply.time.inj (read.symm.trans time)]
    exact late

private theorem level_step (level : flying w.client.pc = true → w.committed = w.client.t1) (prompt : Prompt w e)
    (stepped : step p w e = some u) : flying u.client.pc = true → u.committed = u.client.t1 := by
  obtain ⟨_,t,moved,rfl⟩ := step_eq_some.mp stepped
  intro flight
  change flying t.pc = true at flight
  change (if w.client.pc = .commit then e.now else w.committed) = t.t1
  cases turn_of_next moved with
  | idle kept idles =>
    rw [idles.flight] at flight
    have sent : w.client.pc ≠ .commit := by
      intro here
      rw [here] at flight
      cases flight
    rw [if_neg sent,idles.start flight,level flight]
  | send here =>
    rw [if_pos here]
    exact prompt.1 here
  | hear hears =>
    rw [hears.top] at flight
    cases flight
  | giveUp gave => cases flight

private theorem along_late_of_prompt {events : List Event} (ran : run (step p) w events = some u)
    (ground : flying w.client.pc = false)
    (prompt : Along (step p) Prompt w events) : Along (step p) (GivesUpLate p) w events := by
  rw [← hasty_eq_iff_along ran]
  refine (run_invariant (fun v => (flying v.client.pc = true → v.committed = v.client.t1) ∧
    v.rounds.countP (hasty p) = w.rounds.countP (hasty p)) ?_ ⟨fun flight => ?_,rfl⟩ prompt ran).2
  · intro v e t level prompt stepped
    have honest := (step_eq_some.mp stepped).1
    refine ⟨level_step level.1 prompt stepped,?_⟩
    rw [hasty_step stepped,if_pos (givesUpLate_of_prompt level.1 honest prompt),level.2,Nat.add_zero]
  · exact absurd (ground.symm.trans flight) Bool.false_ne_true

end Truth

section Pacing

/-- Two seconds between the sends at one cycle a nanosecond; an echo is awaited for one. -/
def pacedLab : Client.Setting :=
  ⟨⟨0x88B5,26,2000000,1,.localAddress 1,.localAddress 2⟩,true,2000000000000000,1000000000⟩

def pacedStart : Client.State := ⟨.top,0,0,0,0,0,0,⟨0,0⟩,0,0,0,0,0,0⟩

theorem start_pacedLab : Client.start pacedLab 0 ⟨0,0⟩ = some pacedStart := rfl

variable {p : Client.Setting} {w : World}

theorem step_aground {e : Event} {t : Client.State} (honest : Honest p w e) (ground : flying w.client.pc = false)
    (unsent : decide (w.client.pc = .commit) = false) (unseen : seesStop w.client e.reply = false)
    (moved : Client.next p w.client e.reply = some t) : step p w e = some {w with client := t, now := e.now} := by
  have unpolled : w.client.pc ≠ .receive := by
    intro here
    rw [here] at ground
    cases ground
  rw [step_eq_some]
  refine ⟨honest,t,moved,?_⟩
  unfold after
  rw [closed_aground ground,List.append_nil,unseen,Bool.or_false,if_neg unpolled,if_neg (of_decide_eq_false unsent)]

private theorem step_commit {now : BitVec 64} (onward : w.now ≤ now) (here : w.client.pc = .commit) :
    step p w ⟨now,.done⟩ = some {w with
      client := {w.client with sent := w.client.sent + 1, spins := 0, pc := .receive}
      now := now
      committed := now} := by
  rw [step_eq_some]
  refine ⟨⟨onward,?_⟩,{w.client with sent := w.client.sent + 1, spins := 0, pc := .receive},?_,?_⟩
  · simp [Client.call,here]
  · simp [Client.next,here,Reply.done?]
  · unfold after
    rw [closed_send here,List.append_nil]
    simp [seesStop,here]

def sendEvents (now later : BitVec 64) : List Event :=
  [⟨now,.time now⟩,⟨now,.flag false⟩,⟨later,.done⟩,⟨later,.flag true⟩,⟨later,.done⟩,⟨later,.word 0⟩,⟨later,.done⟩]

def sending (p : Client.Setting) (w : World) (later : BitVec 64) : World :=
  {w with
    client := {w.client with
      loopTsc := w.now, t1 := w.now, txSeq := 0, spins := 0, nextSend := Client.advance p w.client.nextSend
      sent := w.client.sent + 1, pc := .receive}
    now := later
    committed := later}

private theorem run_sendEvents (hw : p.kHwTs = true) (paced : 0 < Client.intervalNs p) (top : w.client.pc = .top)
    (unstopped : w.stopped = false) (lasting : ¬ p.durationCyc ≤ w.now - w.client.start) {later : BitVec 64}
    (sleeps : w.now ≤ later) : run (step p) w (sendEvents w.now later) = some (sending p w later) := by
  have wait : step p w ⟨w.now,.time w.now⟩ =
      some {w with client := {w.client with loopTsc := w.now, pc := .stopCheck}} := by
    apply step_aground
    · exact ⟨BitVec.le_refl _,by simp [Client.call,top]⟩
    · rw [top]; rfl
    · simp [top]
    · simp [seesStop,top]
    · simp [Client.next,top,Reply.time?,lasting]
  refine run_trans (run_singleton wait) (run_trans (run_singleton (step_aground (t := {w.client with
    loopTsc := w.now, nextSend := Client.advance p w.client.nextSend, pc := .pace}) ?_ rfl rfl rfl ?_)) ?_)
  · exact ⟨BitVec.le_refl _,fun stopped => absurd (unstopped.symm.trans stopped) Bool.false_ne_true⟩
  · simp [Client.next,Reply.flag?,paced]
  refine run_trans (run_singleton (step_aground ⟨sleeps,trivial⟩ rfl rfl rfl rfl)) ?_
  refine run_trans (run_singleton (step_aground ⟨BitVec.le_refl _,trivial⟩ rfl rfl rfl rfl)) ?_
  refine run_trans (run_singleton (step_aground (t := {w.client with
    loopTsc := w.now, t1 := w.now, nextSend := Client.advance p w.client.nextSend, pc := .sequence})
    ⟨BitVec.le_refl _,trivial⟩ rfl rfl rfl ?_)) ?_
  · simp [Client.next,Reply.done?,hw]
  refine run_trans (run_singleton (step_aground ⟨BitVec.le_refl _,trivial⟩ rfl rfl rfl rfl)) ?_
  exact run_singleton (step_commit (BitVec.le_refl _) rfl)

theorem step_aloft {e : Event} {t : Client.State} (honest : Honest p w e) (unsent : decide (w.client.pc = .commit) = false)
    (unseen : seesStop w.client e.reply = false) (moved : Client.next p w.client e.reply = some t)
    (aloft : flying t.pc = true) :
    step p w e = some {w with
      client := t
      now := e.now
      polled := if w.client.pc = .receive then e.now else w.polled} := by
  have remains : closed w e t = [] := by
    apply if_neg
    rintro ⟨_,top⟩
    rw [top] at aloft
    cases aloft
  rw [step_eq_some]
  refine ⟨honest,t,moved,?_⟩
  unfold after
  rw [remains,List.append_nil,unseen,Bool.or_false,if_neg (of_decide_eq_false unsent)]

private theorem step_hear {e : Event} {t : Client.State} (honest : Honest p w e)
    (moved : Client.next p w.client e.reply = some t)
    (hears : Hears w.client t) :
    step p w e = some {w with client := t, now := e.now, rounds := w.rounds ++ [heardRound w]} := by
  have place {pc : Client.Pc} (out : echoed pc = false) : w.client.pc ≠ pc := by
    intro here
    have past := hears.past
    rw [here,out] at past
    cases past
  have unseen : seesStop w.client e.reply = false := by
    unfold seesStop
    rw [decide_eq_false (place rfl),decide_eq_false (place rfl),Bool.or_self,Bool.false_and]
  rw [step_eq_some]
  refine ⟨honest,t,moved,?_⟩
  unfold after
  rw [closed_hear hears,unseen,Bool.or_false,if_neg (place rfl),if_neg (place rfl)]

def echoEvents (p : Client.Setting) (w : World) : List Event :=
  [⟨w.now,.frame (Client.echo p w.client.seq)⟩,⟨w.now,.done⟩,⟨w.now,.stamp none⟩]

def answered (w : World) : World :=
  {w with
    client := Client.endRound true {w.client with warmup := w.client.warmup + 1}
    polled := w.now
    rounds := w.rounds ++ [heardRound {w with polled := w.now}]}

private theorem run_echoEvents (hw : p.kHwTs = true) (here : w.client.pc = .receive)
    (cool : w.client.warmup < kWarmupDiscard) :
    run (step p) w (echoEvents p w) = some (answered w) := by
  have ours := Client.ours_echo p (rfl : w.client.seq = w.client.seq)
  have bytes : Client.echo p w.client.seq ≠ [] := by simp [Client.echo]
  have heard : step p w ⟨w.now,.frame (Client.echo p w.client.seq)⟩ =
      some {w with client := {w.client with pc := .releaseEcho 0}, polled := w.now} := by
    rw [step_aloft (t := {w.client with pc := .releaseEcho 0}) _ _ _ _ rfl,if_pos here]
    · exact ⟨BitVec.le_refl _,by simp [Client.call,here]⟩
    · simp [here]
    · simp [seesStop,here]
    · simp [Client.next,here,Reply.frame?,bytes,hw,Client.classify,ours]
  have released : Client.next p {w.client with pc := .releaseEcho 0} .done = some {w.client with pc := .pollStamp} := by
    simp [Client.next,Reply.done?,hw]
  refine run_trans (run_singleton heard) (run_trans (run_singleton
    (step_aloft ⟨BitVec.le_refl _,trivial⟩ rfl rfl released rfl)) (run_singleton ?_))
  have counted : Client.next p {w.client with pc := .pollStamp} (.stamp none) =
      some (Client.endRound true {w.client with warmup := w.client.warmup + 1, pc := .pollStamp}) := by
    simp [Client.next,Reply.stamp?,Client.joinStamp,cool]
  exact step_hear ⟨BitVec.le_refl _,trivial⟩ counted (warmup_hears rfl)

private theorem mask_ne_zero {k : Nat} (few : k + 1 < 2048) : (BitVec.ofNat 32 k + 1) &&& 0x7FF ≠ 0 := by
  have mask : (0x7FF : BitVec 32) = BitVec.ofNat 32 (2^11) - 1 := by decide
  rw [WrappingCounter.ofNat_succ,mask]
  intro zero
  have index := congrArg BitVec.toNat zero
  rw [WrappingCounter.mask_toNat (by decide)] at index
  exact Nat.succ_ne_zero k ((Nat.mod_eq_of_lt few).symm.trans index)

private theorem step_poll {k : Nat} (here : w.client.pc = .receive) (spins : w.client.spins = BitVec.ofNat 32 k)
    (few : k + 1 < 2048) :
    step p w ⟨w.now,.frame []⟩ =
      some {w with client := {w.client with spins := BitVec.ofNat 32 (k + 1)}, polled := w.now} := by
  have spun : Client.next p w.client (.frame []) = some {w.client with spins := BitVec.ofNat 32 (k + 1)} := by
    have onward := mask_ne_zero few
    simp only [Client.next,here,Reply.frame?,Option.map_some,if_pos,Client.spin,spins,if_neg onward]
    rw [WrappingCounter.ofNat_succ]
  rw [step_aloft _ _ _ spun (by rw [here]; rfl),if_pos here]
  · exact ⟨BitVec.le_refl _,by simp [Client.call,here]⟩
  · simp [here]
  · simp [seesStop,here]

private theorem run_polls {k n : Nat} (here : w.client.pc = .receive) (spins : w.client.spins = BitVec.ofNat 32 k)
    (few : k + (n + 1) < 2048) :
    run (step p) w (List.replicate (n + 1) ⟨w.now,.frame []⟩) =
      some {w with client := {w.client with spins := BitVec.ofNat 32 (k + (n + 1))}, polled := w.now} := by
  induction n generalizing w k with
  | zero => exact run_singleton (step_poll here spins few)
  | succ n ih =>
    have once := step_poll (p := p) here spins (by omega)
    have rest := ih (w := {w with client := {w.client with spins := BitVec.ofNat 32 (k + 1)}, polled := w.now})
      (k := k + 1) here rfl (by omega)
    rw [Nat.add_right_comm k 1 (n + 1)] at rest
    exact run_trans (run_singleton once) rest

private theorem step_turns (here : w.client.pc = .receive) (spins : w.client.spins = BitVec.ofNat 32 2047) :
    step p w ⟨w.now,.frame []⟩ =
      some {w with client := {w.client with spins := BitVec.ofNat 32 2048, pc := .spinStop}, polled := w.now} := by
  have spun : Client.next p w.client (.frame []) =
      some {w.client with spins := BitVec.ofNat 32 2048, pc := .spinStop} := by
    simp only [Client.next,here,Reply.frame?,Option.map_some,if_pos,Client.spin,spins]
    rfl
  rw [step_aloft _ _ _ spun rfl,if_pos here]
  · exact ⟨BitVec.le_refl _,by simp [Client.call,here]⟩
  · simp [here]
  · simp [seesStop,here]

private theorem step_giveUp {e : Event} (honest : Honest p w e) (gave : givesUp p w.client e.reply = true)
    (moved : Client.next p w.client e.reply = some (Client.endRound false w.client)) :
    step p w e = some {w with
      client := Client.endRound false w.client
      now := e.now
      stopped := w.stopped || seesStop w.client e.reply
      rounds := w.rounds ++ [lostRound w e]} := by
  have place {pc : Client.Pc} (stop : pc ≠ .spinStop) (time : pc ≠ .spinTime) : w.client.pc ≠ pc := by
    rintro rfl
    exact (givesUp_place gave).elim stop time
  have unsent : w.client.pc ≠ .commit := place nofun nofun
  have unpolled : w.client.pc ≠ .receive := place nofun nofun
  rw [step_eq_some]
  refine ⟨honest,_,moved,?_⟩
  unfold after
  rw [closed_giveUp gave,if_neg unsent,if_neg unpolled]

def tick (n : Nat) : BitVec 64 := BitVec.ofNat 64 (n * 2000000000)

theorem tick_toNat {n : Nat} (few : n ≤ kWarmupDiscard + 1) : (tick n).toNat = n * 2000000000 := by
  have bound : kWarmupDiscard = 500000 := rfl
  unfold tick
  rw [BitVec.toNat_ofNat,Nat.mod_eq_of_lt (by omega)]

private theorem tick_le {n : Nat} (few : n ≤ kWarmupDiscard) : tick n ≤ tick (n + 1) := by
  rw [BitVec.le_def,tick_toNat (by omega),tick_toNat (by omega)]
  omega

private theorem tick_lasting {n : Nat} (few : n ≤ kWarmupDiscard) : ¬ pacedLab.durationCyc ≤ tick n - 0 := by
  have bound : kWarmupDiscard = 500000 := rfl
  have duration : pacedLab.durationCyc.toNat = 2000000000000000 := by decide
  have origin : tick n - 0 = tick n := BitVec.sub_zero _
  rw [origin,BitVec.le_def,tick_toNat (by omega),duration]
  omega

/-- After `n` rounds of the warm-up, each answered at once. -/
structure Warming (n : Nat) (w : World) : Prop where
  top : w.client.pc = .top
  start : w.client.start = 0
  warmup : w.client.warmup = n
  timeouts : w.client.timeouts = 0
  now : w.now = tick n
  unstopped : w.stopped = false
  rounds : ∀ r ∈ w.rounds, r.warm = false ∧ r.cut = false

theorem Warming.send {n : Nat} {w : World} (warming : Warming n w) (few : n ≤ kWarmupDiscard) :
    run (step pacedLab) w (sendEvents w.now (tick (n + 1))) = some (sending pacedLab w (tick (n + 1))) := by
  have lasting := tick_lasting few
  rw [← warming.now,← warming.start] at lasting
  have sleeps := tick_le few
  rw [← warming.now] at sleeps
  exact run_sendEvents rfl (by decide) warming.top warming.unstopped lasting sleeps

theorem Warming.next {n : Nat} {w : World} (warming : Warming n w) (few : n < kWarmupDiscard) :
    ∃ events u, run (step pacedLab) w events = some u ∧ Warming (n + 1) u := by
  have cool : (sending pacedLab w (tick (n + 1))).client.warmup < kWarmupDiscard := by
    change w.client.warmup < _
    rw [warming.warmup]
    exact few
  refine ⟨_,_,run_trans (warming.send few.le) (run_echoEvents rfl rfl cool),?_⟩
  refine ⟨rfl,warming.start,congrArg (· + 1) warming.warmup,warming.timeouts,rfl,warming.unstopped,?_⟩
  intro r member
  rcases List.mem_append.mp member with old | new
  · exact warming.rounds r old
  · rw [List.mem_singleton.mp new]
    exact ⟨decide_eq_false (not_le.mpr cool),rfl⟩

private theorem reaches_warm {n : Nat} (few : n ≤ kWarmupDiscard) :
    ∃ events w, run (step pacedLab) (begin pacedStart 0) events = some w ∧ Warming n w := by
  induction n with
  | zero => exact ⟨[],_,rfl,rfl,rfl,rfl,rfl,rfl,rfl,nofun⟩
  | succ n ih =>
    obtain ⟨before,w,ran,warming⟩ := ih (by omega)
    obtain ⟨after,u,went,warmer⟩ := warming.next (by omega)
    exact ⟨_,u,run_trans ran went,warmer⟩

private theorem tick_gap (n : Nat) : tick (n + 1) - tick n = 2000000000 := by
  have ahead : (n + 1) * 2000000000 - n * 2000000000 = 2000000000 := by omega
  unfold tick
  rw [WrappingCounter.sub_ofNat 64 (by omega),ahead]
  rfl

/-- At a check of the first round after the warm-up, at the very time of its commit. -/
structure Checking (pc : Client.Pc) (w : World) : Prop where
  here : w.client.pc = pc
  reference : w.client.t1 = tick kWarmupDiscard
  now : w.now = tick (kWarmupDiscard + 1)
  committed : w.committed = w.now
  warmup : w.client.warmup = kWarmupDiscard
  timeouts : w.client.timeouts = 0
  unstopped : w.stopped = false
  rounds : ∀ r ∈ w.rounds, r.warm = false ∧ r.cut = false

theorem Warming.check {w : World} (warm : Warming kWarmupDiscard w) :
    ∃ events u, run (step pacedLab) w events = some u ∧ Checking .spinStop u := by
  have polls := run_polls (p := pacedLab) (w := sending pacedLab w (tick (kWarmupDiscard + 1))) (k := 0) (n := 2046)
    rfl rfl (by decide)
  refine ⟨_,_,run_trans (warm.send (Nat.le_refl _)) (run_trans polls (run_singleton (step_turns rfl rfl))),?_⟩
  exact ⟨rfl,warm.now,rfl,rfl,warm.warmup,warm.timeouts,warm.unstopped,warm.rounds⟩

theorem Checking.onward {w : World} (checking : Checking .spinStop w) :
    ∃ u, step pacedLab w ⟨w.now,.flag false⟩ = some u ∧ Checking .spinTime u := by
  have here := checking.here
  refine ⟨{w with client := {w.client with pc := .spinTime}},?_,rfl,checking.reference,checking.now,checking.committed,
    checking.warmup,checking.timeouts,checking.unstopped,checking.rounds⟩
  rw [step_aloft (t := {w.client with pc := .spinTime}) _ _ _ _ rfl,here,if_neg nofun]
  · refine ⟨BitVec.le_refl _,?_⟩
    simp [Client.call,here,checking.unstopped]
  · simp [here]
  · simp [seesStop]
  · simp [Client.next,here,Reply.flag?]

theorem Checking.along {pc : Client.Pc} {w : World} (checking : Checking pc w) {events : List Event}
    (ran : run (step pacedLab) (begin pacedStart 0) events = some w) :
    Along (step pacedLab) (GivesUpLate pacedLab) (begin pacedStart 0) events := by
  rw [← hasty_eq_iff_along ran]
  change _ = 0
  rw [List.countP_eq_zero]
  intro r member
  simp [hasty,Round.unheard,(checking.rounds r member).1]

structure LostOne (late : Bool) (pc : Client.Pc) (w : World) : Prop where
  timeouts : w.client.timeouts = 1
  timedOut : w.rounds.countP (Round.timedOut pacedLab) = late.toNat
  overdue : w.rounds.countP (Round.overdue pacedLab) = late.toNat
  cut : w.rounds.countP Round.cut = (decide (pc = .spinStop)).toNat

/-- A give-up after the warm-up is counted as a loss, however short the wait was. -/
theorem Checking.lose {pc : Client.Pc} {w : World} {e : Event} (checking : Checking pc w)
    (honest : Honest pacedLab w e) (gave : givesUp pacedLab w.client e.reply = true)
    (moved : Client.next pacedLab w.client e.reply = some (Client.endRound false w.client)) :
    ∃ u, step pacedLab w e = some u ∧ LostOne (decide (pacedLab.timeoutCyc ≤ e.now - w.committed)) pc u := by
  have none_before {counts : Round → Bool} (cold : ∀ r ∈ w.rounds, counts r = false) : w.rounds.countP counts = 0 := by
    rw [List.countP_eq_zero]
    intro r member
    rw [cold r member]
    exact Bool.false_ne_true
  have warm : kWarmupDiscard ≤ w.client.warmup := Nat.le_of_eq checking.warmup.symm
  refine ⟨_,step_giveUp honest gave moved,?_,?_,?_,?_⟩
  · rw [endRound_timeouts,checking.timeouts,decide_eq_true warm]
    rfl
  · rw [countP_snoc,none_before (fun r member => by simp [Round.timedOut,Round.overdue,(checking.rounds r member).1])]
    simp [Round.timedOut,Round.overdue,lostRound,warm]
  · rw [countP_snoc,none_before (fun r member => by simp [Round.overdue,(checking.rounds r member).1])]
    simp [Round.overdue,lostRound,warm]
  · rw [countP_snoc,none_before (fun r member => (checking.rounds r member).2),Nat.zero_add,← checking.here]
    rfl

theorem Checking.lose_stopped {w : World} (checking : Checking .spinStop w) {now : BitVec 64} (onward : w.now ≤ now) :
    ∃ u, step pacedLab w ⟨now,.flag true⟩ = some u ∧
      LostOne (decide (pacedLab.timeoutCyc ≤ now - w.committed)) .spinStop u := by
  have here := checking.here
  have honest : Honest pacedLab w ⟨now,.flag true⟩ := ⟨onward,by simp [Client.call,here]⟩
  exact checking.lose honest (by simp [givesUp,here]) (by simp [Client.next,here,Reply.flag?])

theorem Checking.lose_timed {w : World} (checking : Checking .spinTime w) {now : BitVec 64} (onward : w.now ≤ now)
    (late : pacedLab.timeoutCyc ≤ now - tick kWarmupDiscard) :
    ∃ u, step pacedLab w ⟨now,.time now⟩ = some u ∧
      LostOne (decide (pacedLab.timeoutCyc ≤ now - w.committed)) .spinTime u := by
  have here := checking.here
  rw [← checking.reference] at late
  have honest : Honest pacedLab w ⟨now,.time now⟩ := ⟨onward,by simp [Client.call,here]⟩
  exact checking.lose honest (by simp [givesUp,here,late]) (by simp [Client.next,here,Reply.time?,late])

theorem reaches_stopCheck :
    ∃ events w, run (step pacedLab) (begin pacedStart 0) events = some w ∧ Checking .spinStop w := by
  obtain ⟨_,w,ran,warm⟩ := reaches_warm (Nat.le_refl _)
  obtain ⟨_,u,went,checking⟩ := warm.check
  exact ⟨_,u,run_trans ran went,checking⟩

private theorem reaches_timeCheck :
    ∃ events w, run (step pacedLab) (begin pacedStart 0) events = some w ∧ Checking .spinTime w := by
  obtain ⟨_,w,ran,checking⟩ := reaches_stopCheck
  obtain ⟨u,passed,timing⟩ := checking.onward
  exact ⟨_,u,run_trans ran (run_singleton passed),timing⟩

end Pacing

section Report

/-- The loss count is the number of rounds that were given up after their time exactly if
no give-up came before it; so it is where every `commit` returns at the time of the reading
before it and no round is cut short. If moreover no echo is taken after its time, it is the
number of overdue rounds. The counters account for every round that was sent, whenever the
stop comes. -/
theorem client_timeouts_truthful_iff (p : Client.Setting) {now : BitVec 64} {clock : Timespec} {s : Client.State}
    (started : Client.start p now clock = some s) {events : List Event} {w : World}
    (ran : run (step p) (begin s now) events = some w) :
    (w.client.timeouts = w.rounds.countP (Round.timedOut p) ↔
        Along (step p) (GivesUpLate p) (begin s now) events) ∧
      (Along (step p) Prompt (begin s now) events → w.client.timeouts = w.rounds.countP (Round.timedOut p)) ∧
      (Along (step p) (InTime p) (begin s now) events → w.client.timeouts = w.rounds.countP (Round.overdue p)) ∧
      w.client.sent = w.client.warmup + w.client.recorded + w.client.hwTxMissing + w.client.timeouts +
        w.rounds.countP Round.cold + (flying w.client.pc).toNat ∧
      w.rounds.countP Round.cut ≤ 1 := by
  obtain ⟨books,stops,judged,ground⟩ := begin_books started
  have booked : Books w := reachable_invariant Books (fun _ _ _ => Books.step) books ran
  have stopped : Stops w := reachable_invariant Stops (fun _ _ _ => Stops.step) stops ran
  have truthful : w.client.timeouts = w.rounds.countP (Round.timedOut p) ↔
      Along (step p) (GivesUpLate p) (begin s now) events := by
    rw [booked.timeouts,countP_unheard p,Nat.add_eq_left]
    exact hasty_eq_iff_along ran
  refine ⟨truthful,?_,?_,booked.sent,stopped.cut.trans (Bool.toNat_le _)⟩
  · intro prompt
    exact truthful.mpr (along_late_of_prompt ran ground prompt)
  · intro inTime
    have all : Judged p w.rounds :=
      run_invariant (fun w => Judged p w.rounds) (fun _ _ _ => Judged.step) judged inTime ran
    rw [booked.timeouts]
    exact List.countP_congr (fun r member => by rw [all r member])

/-- A run through the warm-up and one more round, given up one second after its commit. -/
def CountsRight (cuts : Nat) : Prop :=
  ∃ events w, run (step pacedLab) (begin pacedStart 0) events = some w ∧
    Along (step pacedLab) (GivesUpLate pacedLab) (begin pacedStart 0) events ∧ w.client.timeouts = 1 ∧
      w.client.timeouts = w.rounds.countP (Round.timedOut pacedLab) ∧ w.rounds.countP Round.cut = cuts

def secondLater : BitVec 64 := tick (kWarmupDiscard + 1) + 1000000000

private theorem secondLater_le {pc : Client.Pc} {w : World} (checking : Checking pc w) : w.now ≤ secondLater := by
  rw [checking.now]
  decide

theorem Checking.along_secondLater {pc : Client.Pc} {w : World} (checking : Checking pc w) {events : List Event}
    (ran : run (step pacedLab) (begin pacedStart 0) events = some w) (reply : Reply) :
    Along (step pacedLab) (GivesUpLate pacedLab) (begin pacedStart 0) (events ++ [⟨secondLater,reply⟩]) := by
  refine along_append (checking.along ran) ran ⟨fun _ _ => ?_,fun _ _ => trivial⟩
  change pacedLab.timeoutCyc ≤ secondLater - w.committed
  rw [checking.committed,checking.now]
  decide

/-- The check of the time ends the round, or a stop request. -/
theorem client_timeouts_truthful_lost_round :
    Client.start pacedLab 0 ⟨0,0⟩ = some pacedStart ∧ CountsRight 0 ∧ CountsRight 1 := by
  refine ⟨start_pacedLab,?_,?_⟩
  · obtain ⟨_,w,ran,checking⟩ := reaches_timeCheck
    obtain ⟨u,given,lost⟩ := checking.lose_timed (secondLater_le checking) (by decide)
    have whole := run_trans ran (run_singleton given)
    have late := checking.along_secondLater ran (.time secondLater)
    exact ⟨_,u,whole,late,lost.timeouts,(client_timeouts_truthful_iff pacedLab start_pacedLab whole).1.mpr late,lost.cut⟩
  · obtain ⟨_,w,ran,checking⟩ := reaches_stopCheck
    obtain ⟨u,given,lost⟩ := checking.lose_stopped (secondLater_le checking)
    have whole := run_trans ran (run_singleton given)
    have late := checking.along_secondLater ran (.flag true)
    exact ⟨_,u,whole,late,lost.timeouts,(client_timeouts_truthful_iff pacedLab start_pacedLab whole).1.mpr late,lost.cut⟩

/-- One loss is counted, and no round of the run was overdue. -/
def CountsTooMuch (cuts : Nat) : Prop :=
  ∃ events w, run (step pacedLab) (begin pacedStart 0) events = some w ∧ w.client.timeouts = 1 ∧
    w.rounds.countP (Round.timedOut pacedLab) = 0 ∧ w.rounds.countP (Round.overdue pacedLab) = 0 ∧
      w.rounds.countP Round.cut = cuts

theorem LostOne.tooMuch {pc : Client.Pc} {w : World} (lost : LostOne false pc w) {events : List Event}
    (ran : run (step pacedLab) (begin pacedStart 0) events = some w) : CountsTooMuch (decide (pc = .spinStop)).toNat :=
  ⟨events,w,ran,lost.timeouts,lost.timedOut,lost.overdue,lost.cut⟩

private theorem early_atCommit {pc : Client.Pc} {w : World} (checking : Checking pc w) :
    decide (pacedLab.timeoutCyc ≤ w.now - w.committed) = false := by
  rw [checking.committed,BitVec.sub_self]
  decide

/-- With a send interval above the timeout a round is given up at its first check, right
after its commit; so is a round that the stop request cuts short. Both are counted. -/
theorem rounds_lost_at_commit :
    Client.start pacedLab 0 ⟨0,0⟩ = some pacedStart ∧ CountsTooMuch 0 ∧ CountsTooMuch 1 := by
  refine ⟨start_pacedLab,?_,?_⟩
  · obtain ⟨_,w,ran,checking⟩ := reaches_timeCheck
    have late : pacedLab.timeoutCyc ≤ w.now - tick kWarmupDiscard := by
      rw [checking.now,tick_gap]
      decide
    obtain ⟨u,given,lost⟩ := checking.lose_timed (BitVec.le_refl _) late
    rw [early_atCommit checking] at lost
    exact lost.tooMuch (run_trans ran (run_singleton given))
  · obtain ⟨_,w,ran,checking⟩ := reaches_stopCheck
    obtain ⟨u,given,lost⟩ := checking.lose_stopped (BitVec.le_refl _)
    rw [early_atCommit checking] at lost
    exact lost.tooMuch (run_trans ran (run_singleton given))

end Report

end Abtrda3.RoundAccounting
