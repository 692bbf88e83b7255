import Abtrda3.HardwareSystem

/-! The account of the X2522Plus interface under any loop. Its `acquire` and `commit` look
at no completion; only a receive that comes up empty works completions off. A step of a
loop is reduced to what it does to four numbers, and the two bounds a loop owes the card
are stated on them: no acquired slot is still in flight, and the descriptor queue does not
overflow. -/
namespace Abtrda3.EfViAccount
open Abtrda3.Application Abtrda3.Semantics Abtrda3.Semantics.Machine Abtrda3.HardwareSystem
open Abtrda3.EfVi (Params Op Send Sending outstanding processed)

/-- Sends with no completion reported; the fallback DMA may still read their slots. -/
def inFlight (nic : EfVi.State) : List Send := nic.tx.sent.drop nic.tx.stamps.length

def nextSlot (p : Params) (nic : EfVi.State) : BitVec 32 := nic.tx.head &&& (BitVec.ofNat 32 p.nbTxBufs - 1)

def reported (nic : EfVi.State) : Nat := nic.tx.stamps.length

/-- Frames returned since the last empty poll, which re-posts every slot released before it. -/
def since (nic : EfVi.State) : Nat := nic.rx.returned.length - nic.rx.reposts.length

def leftover (p : Params) (nic : EfVi.State) : List EfVi.Event :=
  nic.evq.drop (min EfVi.kEvPollBatch (p.eventqPoll nic.evq))

/-- Sends whose completion a poll is not handed: not reported yet, or beyond the batch. -/
def late (p : Params) (nic : EfVi.State) : Nat :=
  nic.tx.sent.length - (reported nic - (EfVi.completed (leftover p nic)).length)

section conditions

variable {σ : Type} (p : Params) (P : Producer σ)

def opAt (s : System σ) : Event → Option Op
  | .call rc => (P.call s.app).bind (nextOp s.port.nic.phase rc)
  | .answer _ => none
  | .land bytes => some (.land bytes)
  | .report event => some (.report event)

def acquires (s : System σ) (event : Event) : Bool :=
  match opAt P s event with
  | some (.acquire _) => true
  | _ => false

def commits (s : System σ) (event : Event) : Bool :=
  decide (opAt P s event = some .commit) && (step p P s event).isSome

def polls (s : System σ) (event : Event) : Bool := decide (opAt P s event = some .miss)

/-- An acquired slot is not the slot of a send in flight, and no step leaves more than
`txq` descriptors whose completion is not worked off. -/
def Disciplined (txq : Nat) (s : System σ) (event : Event) : Prop :=
  (acquires P s event = true → nextSlot p s.port.nic ∉ (inFlight s.port.nic).map Send.slot) ∧
    ∀ t ∈ step p P s event, (outstanding t.port.nic).length ≤ txq

/-- The frame a slot is acquired for, the `begun`-th, comes after the completion of the
frame that used the slot before it. -/
def Completed (begun : System σ → Nat) (s : System σ) (event : Event) : Prop :=
  acquires P s event = true → begun s ≤ reported s.port.nic + p.nbTxBufs

/-- No more than `burst` frames come between two empty polls, which the size of the receive
ring alone may ensure, and every empty poll is handed all completions but `txq - burst`.
A loop that sends `ahead` of what it received has as many frames less. -/
def Drained (ahead burst txq : Nat) (s : System σ) (event : Event) : Prop :=
  (acquires P s event = true → p.nbRxBufs + ahead ≤ burst ∨ since s.port.nic + ahead ≤ burst) ∧
    (polls P s event = true → late p s.port.nic + burst ≤ txq)

def Roomy (txq : Nat) (s : System σ) (event : Event) : Prop :=
  (acquires P s event = true → (inFlight s.port.nic).length < p.nbTxBufs) ∧
    (commits p P s event = true → (outstanding s.port.nic).length < txq)

instance (txq : Nat) (s : System σ) (event : Event) : Decidable (Disciplined p P txq s event) :=
  inferInstanceAs (Decidable ((_ → _) ∧ ∀ t ∈ step p P s event, _ ≤ _))

instance (begun : System σ → Nat) (s : System σ) (event : Event) : Decidable (Completed p P begun s event) :=
  inferInstanceAs (Decidable (_ → _))

instance decidableDrained (ahead burst txq : Nat) (s : System σ) (event : Event) :
    Decidable (Drained p P ahead burst txq s event) :=
  inferInstanceAs (Decidable ((_ → _) ∧ (_ → _)))

end conditions

variable {p : Params} {nic later : EfVi.State} {op : Op}

/-- The interface between two steps of any loop: no send of this tuning waits. -/
structure Direct (p : Params) (nic : EfVi.State) : Prop where
  sending : ∃ indices next, Sending p nic indices next
  phase : nic.phase ≠ .committing

theorem Direct.start (p : Params) : Direct p (EfVi.start p) := ⟨⟨[],0,.start p⟩,EfVi.Phase.noConfusion⟩

theorem Direct.slot_free_iff (direct : Direct p nic) :
    nextSlot p nic ∉ (inFlight nic).map Send.slot ↔ (inFlight nic).length < p.nbTxBufs := by
  obtain ⟨indices,next,inv⟩ := direct.sending
  rw [nextSlot,inv.send.head_slot,inFlight,inv.send.slot_mem_iff inv.send.reported,Nat.not_le]

private theorem direct_phase (plus : p.tuning = .X2522Plus) (direct : nic.phase ≠ .committing)
    (moved : EfVi.step p nic op = some later) : later.phase ≠ .committing := by
  cases EfVi.step_action moved with
  | acquire frameLen =>
    rw [EfVi.acquire_phase]
    exact direct
  | txSequence | hwRxTimestamp | release | commitDirect | land | report => exact direct
  | commitBegin _ _ generic =>
    rw [(EfVi.plus_iff p).mp plus] at generic
    cases generic
  | transmitOk busy | transmitAgain busy | transmitFailed busy => exact absurd busy direct
  | tryReceive | spinHit => exact EfVi.Phase.noConfusion
  | spinOn =>
    dsimp only
    split <;> exact EfVi.Phase.noConfusion
  | miss =>
    rw [EfVi.miss_phase]
    exact EfVi.Phase.noConfusion
  | pollTxTimestamp =>
    rw [EfVi.pollTxTimestamp_phase]
    exact direct
  | rxFrameComplete =>
    obtain ⟨_,_,_,phase,_⟩ := EfVi.pollEvent_cases p false nic
    exact phase ▸ direct

private theorem commit_direct (plus : p.tuning = .X2522Plus) (moved : EfVi.step p nic .commit = some later) :
    later = {nic with tx := nic.tx.transmitted} := by
  cases EfVi.step_action moved with
  | commitDirect => rfl
  | commitBegin _ _ generic =>
    rw [(EfVi.plus_iff p).mp plus] at generic
    cases generic

theorem Direct.step (direct : Direct p nic) (plus : p.tuning = .X2522Plus) (moved : EfVi.step p nic op = some later) :
    Direct p later := by
  obtain ⟨_,_,inv⟩ := direct.sending
  refine ⟨inv.step moved,?_⟩
  exact direct_phase plus direct.phase moved

theorem Direct.outstanding (direct : Direct p nic) (plus : p.tuning = .X2522Plus)
    (moved : EfVi.step p nic op = some later) :
    (op = .commit → (outstanding later).length = (outstanding nic).length + 1) ∧
      (op ≠ .commit → (outstanding later).length ≤ (outstanding nic).length) := by
  obtain ⟨_,_,inv⟩ := direct.sending
  rw [EfVi.outstanding_length,EfVi.outstanding_length]
  constructor
  · intro commit
    subst commit
    have bound := inv.send.bound
    have reported := inv.send.reported
    rw [commit_direct plus moved]
    change (nic.tx.sent ++ [_]).length - processed nic = _
    rw [List.length_append,List.length_singleton]
    omega
  · intro other
    have order := inv.processed_le moved
    rcases (EfVi.step_sent moved).2 with same | ⟨sends | sends,_⟩
    · rw [same]
      omega
    · exact absurd sends other
    · subst sends
      cases EfVi.step_action moved with
      | transmitOk busy => exact absurd busy direct.phase

section run

variable {σ : Type} {P : Producer σ} {s t : System σ} {event : Event}

theorem step_op (moved : step p P s event = some t) :
    opAt P s event = none ∧ t.port.nic = s.port.nic ∨
      ∃ op, opAt P s event = some op ∧ EfVi.step p s.port.nic op = some t.port.nic := by
  cases event with
  | call rc =>
    obtain ⟨call,op,later,reply,called,next,ran,resumed⟩ := step_call moved
    refine .inr ⟨op,?_,?_⟩
    · rw [opAt,called]
      exact next
    · rw [resume_port resumed]
      exact step_of_exec ran
  | answer reply =>
    obtain ⟨call,app,_,_,_,rfl⟩ := step_answer moved
    exact .inl ⟨rfl,(s.port.store_keeps call).1⟩
  | land bytes =>
    obtain ⟨later,landed,rfl⟩ := Option.map_eq_some_iff.mp moved
    exact .inr ⟨_,rfl,landed⟩
  | report event =>
    obtain ⟨later,reported,rfl⟩ := Option.map_eq_some_iff.mp moved
    exact .inr ⟨_,rfl,reported⟩

private theorem step_direct (plus : p.tuning = .X2522Plus) (direct : Direct p s.port.nic)
    (moved : step p P s event = some t) :
    Direct p t.port.nic := by
  rcases step_op moved with ⟨_,same⟩ | ⟨op,_,moved⟩
  · rw [same]
    exact direct
  · exact direct.step plus moved

theorem step_outstanding (plus : p.tuning = .X2522Plus) (direct : Direct p s.port.nic)
    (moved : step p P s event = some t) :
    (commits p P s event = true → (outstanding t.port.nic).length = (outstanding s.port.nic).length + 1) ∧
      (commits p P s event = false → (outstanding t.port.nic).length ≤ (outstanding s.port.nic).length) := by
  have done : commits p P s event = decide (opAt P s event = some .commit) := by
    rw [commits,moved]
    exact Bool.and_true _
  rw [done,decide_eq_true_iff,decide_eq_false_iff_not]
  rcases step_op moved with ⟨none,same⟩ | ⟨op,here,moved⟩
  · rw [none,same]
    exact ⟨fun commit => (nomatch commit),fun _ => Nat.le_refl _⟩
  · rw [here,Option.some_inj]
    exact direct.outstanding plus moved

theorem disciplined_iff {txq : Nat} (plus : p.tuning = .X2522Plus) (direct : Direct p s.port.nic)
    (room : (outstanding s.port.nic).length ≤ txq) : Disciplined p P txq s event ↔ Roomy p P txq s event := by
  unfold Disciplined Roomy
  rw [direct.slot_free_iff]
  refine and_congr_right fun _ => ⟨?_,?_⟩
  · intro bounded commit
    obtain ⟨t,moved⟩ := Option.isSome_iff_exists.mp (Bool.and_eq_true_iff.mp commit).2
    have after := bounded t moved
    have more := (step_outstanding plus direct moved).1 commit
    omega
  · intro free t moved
    obtain ⟨sends,keeps⟩ := step_outstanding plus direct moved
    cases commit : commits p P s event with
    | true =>
      have := free commit
      have := sends commit
      omega
    | false => exact (keeps commit).trans room

end run

/-- The numbers the two bounds rest on: frames sent and returned, slots re-posted, and
sends whose completion is not worked off. -/
structure Account where
  sent : Nat
  returned : Nat
  reposted : Nat
  waiting : Nat

def account (nic : EfVi.State) : Account :=
  ⟨nic.tx.sent.length,nic.rx.returned.length,nic.rx.reposts.length,(outstanding nic).length⟩

private theorem account_commit (direct : Direct p nic) :
    account {nic with tx := nic.tx.transmitted} =
      {account nic with sent := (account nic).sent + 1, waiting := (account nic).waiting + 1} := by
  obtain ⟨_,_,inv⟩ := direct.sending
  have bound := inv.send.bound
  have reported := inv.send.reported
  have sent : (nic.tx.sent ++ [Send.mk nic.tx.slot nic.tx.head]).length = nic.tx.sent.length + 1 := by
    rw [List.length_append,List.length_singleton]
  simp only [account,EfVi.outstanding_length,EfVi.Tx.transmitted,sent]
  change Account.mk _ _ _ (nic.tx.sent.length + 1 - processed nic) = _
  rw [Nat.succ_sub (by omega)]

private theorem account_release (plus : p.kX2522Plus = true) (nic : EfVi.State) :
    account {nic with rx := nic.rx.release p} = account nic := by
  unfold EfVi.Rx.release
  dsimp only
  rw [if_pos plus]
  rfl

private theorem account_hit (p : Params) (nic : EfVi.State) (stats : EfVi.Stats) :
    account {nic with phase := .idle, rx := nic.rx.hit p, stats := stats} =
      {account nic with returned := (account nic).returned + 1} := by
  have more : (nic.rx.hit p).returned.length = nic.rx.returned.length + 1 := List.length_append
  simp only [account,more]
  rfl

private theorem account_land {bytes : List Byte} (moved : EfVi.step p nic (.land bytes) = some later) :
    account later = account nic := by
  cases EfVi.step_action moved with
  | land landed =>
    obtain ⟨id,_,ok⟩ := Option.bind_eq_some_iff.mp landed
    obtain ⟨_,same⟩ := Option.ite_none_right_eq_some.mp ok
    cases same
    rfl

private theorem account_report {event : EfVi.Event} (moved : EfVi.step p nic (.report event) = some later) :
    account later = account nic := by
  cases EfVi.step_action moved with
  | report =>
    change Account.mk _ _ _ (outstanding (EfVi.report nic event)).length = _
    rw [outstanding,EfVi.processed_report]
    rfl

private theorem account_pollTxTimestamp (p : Params) (nic : EfVi.State) :
    account (EfVi.pollTxTimestamp p nic).1 = account nic := by
  unfold EfVi.pollTxTimestamp
  split
  · rfl
  · dsimp only
    split
    · rfl
    · rfl

private theorem pollEvent_evq (p : Params) (wantRx : Bool) (nic : EfVi.State) :
    (EfVi.pollEvent p wantRx nic).evq = leftover p nic := by
  have queue : (EfVi.drain p nic).evq = nic.evq := (EfVi.handleAll_keeps p nic nic.evs).2.2.2.1
  simp only [EfVi.pollEvent,leftover]
  split
  next empty =>
    rw [queue] at empty
    rw [empty,List.drop_nil]
    split
    · exact queue.trans empty
    · exact queue.trans empty
  next =>
    rw [queue]
    exact (EfVi.handleAll_keeps p _ _).2.2.2.1

private theorem waiting_pollEvent (p : Params) (wantRx : Bool) (nic : EfVi.State) :
    (outstanding (EfVi.pollEvent p wantRx nic)).length = late p nic := by
  obtain ⟨_,_,_,_,evs,_⟩ := EfVi.pollEvent_cases p wantRx nic
  obtain ⟨sent,stamps⟩ := EfVi.pollEvent_sent p wantRx nic
  rw [EfVi.outstanding_length,processed,evs,pollEvent_evq,sent,stamps]
  rfl

theorem reposts_miss (plus : p.kX2522Plus = true) (inv : EfVi.Receiving p nic) (missed : nic.phase = .missed) :
    (EfVi.miss p nic).rx.reposts.length = nic.rx.returned.length := by
  have free : nic.rx.held = false := by
    apply inv.free
    rw [missed]
    rfl
  have count := inv.rx.ring.heldCount
  rw [free] at count
  obtain ⟨_,_,_,_,_,_,_,pushed⟩ := EfVi.pollEvent_cases p true {nic with phase := .idle, rx := nic.rx.repostReleased p}
  have reposts : (EfVi.miss p nic).rx.reposts = (nic.rx.repostReleased p).reposts := by
    unfold EfVi.miss
    rw [if_pos plus]
    rcases pushed with same | ⟨_,_,same⟩
    · rw [same]
    · rw [same]
      rfl
  rw [reposts,inv.rx.repostReleased_length plus]
  exact count

private theorem account_miss (plus : p.kX2522Plus = true) (inv : EfVi.Receiving p nic) (missed : nic.phase = .missed) :
    account (EfVi.miss p nic) =
      {account nic with reposted := (account nic).returned, waiting := late p nic} := by
  have moved : EfVi.step p nic .miss = some (EfVi.miss p nic) := by
    simp only [EfVi.step,EfVi.exec,missed,if_true,Option.map_some]
  have returned : (EfVi.miss p nic).rx.returned = nic.rx.returned := by
    rcases (EfVi.step_rx moved).logs.2 with same | ⟨k,spinning,_⟩
    · exact same
    · rw [missed] at spinning
      cases spinning
  have sent : (EfVi.miss p nic).tx.sent = nic.tx.sent := (EfVi.pollEvent_sent p true _).1
  have waiting : (outstanding (EfVi.miss p nic)).length = late p nic := waiting_pollEvent p true _
  rw [account,reposts_miss plus inv missed,returned,sent,waiting]
  rfl

section turn

variable {σ : Type} {P : Producer σ} {s t : System σ} {event : Event}

/-- All that a step can do to a loop and its account: the call in progress waits or the
card moves, a call is answered, a frame is sent, one is returned, or a poll comes up empty. -/
inductive Turn (p : Params) (P : Producer σ) (s : System σ) (event : Event) (t : System σ) : Prop
  | wait (app : t.app = s.app) (same : account t.port.nic = account s.port.nic)
  | answer (call : Call) (reply : Reply) (called : P.call s.app = some call)
      (other : call ≠ .commit ∧ call ≠ .tryReceive)
      (granted : ∀ frameLen, call = .acquire frameLen → reply = .flag true ∧ acquires P s event = true)
      (next : P.next s.app reply = some t.app) (same : account t.port.nic = account s.port.nic)
  | send (called : P.call s.app = some .commit) (committed : commits p P s event = true)
      (next : P.next s.app .done = some t.app)
      (more : account t.port.nic = {account s.port.nic with
        sent := (account s.port.nic).sent + 1, waiting := (account s.port.nic).waiting + 1})
  | hit (frame : List Byte) (full : frame ≠ []) (called : P.call s.app = some .tryReceive)
      (next : P.next s.app (.frame frame) = some t.app)
      (more : account t.port.nic = {account s.port.nic with returned := (account s.port.nic).returned + 1})
  | empty (called : P.call s.app = some .tryReceive) (polled : polls P s event = true)
      (next : P.next s.app (.frame []) = some t.app)
      (less : account t.port.nic = {account s.port.nic with
        reposted := (account s.port.nic).returned, waiting := late p s.port.nic})

structure Poised (p : Params) (P : Producer σ) (s : System σ) : Prop where
  direct : Direct p s.port.nic
  receiving : p.hasRx = true → EfVi.Receiving p s.port.nic
  between : s.port.nic.phase = .idle ∨ P.call s.app = some .tryReceive ∧ p.hasRx = true

theorem Poised.start (p : Params) (P : Producer σ) (app : σ) : Poised p P (HardwareSystem.start p app) :=
  ⟨.start p,fun receives => ⟨.start receives,fun polling => nomatch polling⟩,.inl rfl⟩

theorem Poised.idle (poised : Poised p P s) {call : Call} (called : P.call s.app = some call)
    (other : call ≠ .tryReceive) : s.port.nic.phase = .idle := by
  rcases poised.between with idle | ⟨receives,_⟩
  · exact idle
  · rw [called] at receives
    exact absurd (Option.some.inj receives) other

theorem call_of_acquires (acquired : acquires P s event = true) : ∃ frameLen, P.call s.app = some (.acquire frameLen) := by
  cases event with
  | call rc =>
    simp only [acquires,opAt] at acquired
    cases called : P.call s.app with
    | none =>
      rw [called] at acquired
      cases acquired
    | some call =>
      simp only [called,Option.bind_some,nextOp] at acquired
      cases phase : s.port.nic.phase <;> rw [phase] at acquired
      case idle =>
        cases call with
        | acquire frameLen => exact ⟨frameLen,rfl⟩
        | _ => cases acquired
      all_goals cases acquired
  | _ => cases acquired

theorem call_of_commits (committed : commits p P s event = true) : P.call s.app = some .commit := by
  have here : opAt P s event = some .commit := of_decide_eq_true (Bool.and_eq_true_iff.mp committed).1
  cases event with
  | call rc =>
    obtain ⟨call,called,next⟩ := Option.bind_eq_some_iff.mp here
    unfold nextOp at next
    cases phase : s.port.nic.phase <;> rw [phase] at next
    case idle =>
      cases call with
      | commit => exact called
      | _ => cases next
    all_goals cases next
  | _ => cases here

private theorem opAt_call {call : Call} {rc : EfVi.Rc} (called : P.call s.app = some call)
    (next : nextOp s.port.nic.phase rc call = some op) : opAt P s (.call rc) = some op := by
  rw [opAt,called]
  exact next

private theorem turn_of_idle (plus : p.tuning = .X2522Plus) (direct : Direct p s.port.nic) {call : Call} {rc : EfVi.Rc}
    {reply : Option Reply} (called : P.call s.app = some call) (idle : s.port.nic.phase = .idle)
    (next : opOf call = some op) (ran : EfVi.exec p s.port.nic op = some (later,reply))
    (other : call ≠ .tryReceive) (moved : step p P s (.call rc) = some t)
    (resumed : resume P s.app (s.port.advance op later) reply = some t) :
    later.phase = .idle ∧ Turn p P s (.call rc) t := by
  have tuned := (EfVi.plus_iff p).mp plus
  have port := resume_port resumed
  have nic : t.port.nic = later := by rw [port]; rfl
  have here : opAt P s (.call rc) = some op := by
    apply opAt_call called
    rw [idle]
    exact next
  cases call with
  | tryReceive => exact absurd rfl other
  | acquire frameLen =>
    cases next
    obtain ⟨_,same⟩ := Option.ite_none_right_eq_some.mp ran
    simp only [EfVi.acquire,if_pos tuned] at same
    cases same
    obtain ⟨_,next,rfl⟩ := Option.map_eq_some_iff.mp resumed
    refine ⟨idle,.answer _ _ called ⟨Call.noConfusion,Call.noConfusion⟩ ?_ next rfl⟩
    intro _ _
    refine ⟨rfl,?_⟩
    rw [acquires,here]
  | commit =>
    cases next
    obtain ⟨_,same⟩ := Option.ite_none_right_eq_some.mp ran
    simp only [EfVi.commit,if_pos tuned] at same
    cases same
    obtain ⟨_,next,rfl⟩ := Option.map_eq_some_iff.mp resumed
    refine ⟨idle,.send called ?_ next (account_commit direct)⟩
    rw [commits,here,moved]
    rfl
  | txSequence | hwRxTimestamp =>
    cases next
    obtain ⟨_,same⟩ := Option.ite_none_right_eq_some.mp ran
    cases same
    obtain ⟨_,next,rfl⟩ := Option.map_eq_some_iff.mp resumed
    exact ⟨idle,.answer _ _ called ⟨Call.noConfusion,Call.noConfusion⟩ (fun _ other => nomatch other) next rfl⟩
  | pollTxTimestamp =>
    cases next
    obtain ⟨_,same⟩ := Option.ite_none_right_eq_some.mp ran
    cases same
    obtain ⟨_,next,rfl⟩ := Option.map_eq_some_iff.mp resumed
    exact ⟨(EfVi.pollTxTimestamp_phase p _).trans idle,.answer _ _ called ⟨Call.noConfusion,Call.noConfusion⟩
      (fun _ other => nomatch other) next (account_pollTxTimestamp p _)⟩
  | release =>
    cases next
    obtain ⟨_,same⟩ := Option.ite_none_right_eq_some.mp ran
    cases same
    obtain ⟨_,next,rfl⟩ := Option.map_eq_some_iff.mp resumed
    exact ⟨idle,.answer _ _ called ⟨Call.noConfusion,Call.noConfusion⟩ (fun _ other => nomatch other) next
      (account_release tuned _)⟩
  | _ => cases next

private theorem turn_of_receive (plus : p.tuning = .X2522Plus) (inv : EfVi.Receiving p s.port.nic) {rc : EfVi.Rc}
    {reply : Option Reply} (called : P.call s.app = some .tryReceive) (busy : s.port.nic.phase ≠ .committing)
    (next : nextOp s.port.nic.phase rc .tryReceive = some op) (ran : EfVi.exec p s.port.nic op = some (later,reply))
    (resumed : resume P s.app (s.port.advance op later) reply = some t) :
    (later.phase = .idle ∨ t.app = s.app) ∧ Turn p P s (.call rc) t := by
  have here := opAt_call called next
  cases phase : s.port.nic.phase with
  | committing => exact absurd phase busy
  | idle =>
    rw [phase] at next
    cases next
    obtain ⟨_,same⟩ := Option.ite_none_right_eq_some.mp ran
    cases same
    cases Option.some.inj resumed
    exact ⟨.inr rfl,.wait rfl rfl⟩
  | spinning k =>
    rw [phase] at next
    cases next
    simp only [EfVi.exec,phase,EfVi.spin] at ran
    split at ran
    next =>
      cases ran
      obtain ⟨_,next,rfl⟩ := Option.map_eq_some_iff.mp resumed
      refine ⟨.inl rfl,.hit _ ?_ called next (account_hit p s.port.nic _)⟩
      have room := p.prefixRoom
      intro empty
      have none := congrArg List.length empty
      rw [ByteMemory.read_length,List.length_nil] at none
      omega
    next =>
      cases ran
      cases Option.some.inj resumed
      exact ⟨.inr rfl,.wait rfl rfl⟩
  | missed =>
    rw [phase] at next
    cases next
    obtain ⟨_,same⟩ := Option.ite_none_right_eq_some.mp ran
    cases same
    obtain ⟨_,next,rfl⟩ := Option.map_eq_some_iff.mp resumed
    refine ⟨.inl (EfVi.miss_phase p _),.empty called (decide_eq_true here) next ?_⟩
    exact account_miss ((EfVi.plus_iff p).mp plus) inv phase

private theorem Poised.turn_call {rc : EfVi.Rc} (plus : p.tuning = .X2522Plus) (poised : Poised p P s)
    (moved : step p P s (.call rc) = some t) :
    (t.port.nic.phase = .idle ∨ P.call t.app = some .tryReceive ∧ p.hasRx = true) ∧ Turn p P s (.call rc) t := by
  obtain ⟨call,op,later,reply,called,next,ran,resumed⟩ := step_call moved
  have port : t.port.nic = later := by
    rw [resume_port resumed]
    rfl
  rw [port]
  by_cases receives : call = .tryReceive
  · subst receives
    have wired : p.hasRx = true := by
      rcases poised.between with idle | ⟨_,wired⟩
      · rw [idle] at next
        cases next
        exact (Option.ite_none_right_eq_some.mp ran).1.2.1
      · exact wired
    obtain ⟨phase,turn⟩ := turn_of_receive plus (poised.receiving wired) called poised.direct.phase next ran resumed
    refine ⟨?_,turn⟩
    rcases phase with idle | same
    · exact .inl idle
    · rw [same]
      exact .inr ⟨called,wired⟩
  · have idle := poised.idle called receives
    rw [idle] at next
    obtain ⟨phase,turn⟩ := turn_of_idle plus poised.direct called idle next ran receives moved resumed
    exact ⟨.inl phase,turn⟩

private theorem Poised.turn_answer {reply : Reply} (poised : Poised p P s)
    (moved : step p P s (.answer reply) = some t) :
    t.port.nic.phase = .idle ∧ Turn p P s (.answer reply) t := by
  obtain ⟨call,app,called,outside,next,rfl⟩ := step_answer moved
  have nic := (s.port.store_keeps call).1
  have elsewhere (other : Call) (inside : opOf other ≠ none) : call ≠ other := by
    intro same
    rw [same] at outside
    exact inside outside
  have receive := elsewhere .tryReceive (Option.some_ne_none _)
  have commit := elsewhere .commit (Option.some_ne_none _)
  refine ⟨?_,.answer call reply called ⟨commit,receive⟩ ?_ next ?_⟩
  · dsimp only
    rw [nic]
    exact poised.idle called receive
  · intro frameLen acquired
    exact absurd acquired (elsewhere (.acquire frameLen) (Option.some_ne_none _))
  · dsimp only
    rw [nic]

theorem Poised.turn (plus : p.tuning = .X2522Plus) (poised : Poised p P s) (moved : step p P s event = some t) :
    Poised p P t ∧ Turn p P s event t := by
  have direct := step_direct plus poised.direct moved
  have receiving (receives : p.hasRx = true) : EfVi.Receiving p t.port.nic := by
    rcases step_op moved with ⟨_,same⟩ | ⟨op,_,moved⟩
    · rw [same]
      exact poised.receiving receives
    · exact (poised.receiving receives).step moved
  suffices (t.port.nic.phase = .idle ∨ P.call t.app = some .tryReceive ∧ p.hasRx = true) ∧ Turn p P s event t from
    ⟨⟨direct,receiving,this.1⟩,this.2⟩
  cases event with
  | call rc => exact poised.turn_call plus moved
  | answer reply =>
    obtain ⟨idle,turn⟩ := poised.turn_answer moved
    exact ⟨.inl idle,turn⟩
  | land bytes =>
    obtain ⟨later,landed,rfl⟩ := Option.map_eq_some_iff.mp moved
    refine ⟨?_,.wait rfl (account_land landed)⟩
    dsimp only
    rw [(Quiet.land landed).phase]
    exact poised.between
  | report event =>
    obtain ⟨later,told,rfl⟩ := Option.map_eq_some_iff.mp moved
    refine ⟨?_,.wait rfl (account_report told)⟩
    dsimp only
    rw [(Quiet.report told).phase]
    exact poised.between

end turn

/-- Between two empty polls no more frames come than the receive ring has slots. -/
theorem Poised.since_le {σ : Type} {P : Producer σ} {s : System σ} (poised : Poised p P s) (receives : p.hasRx = true) :
    (account s.port.nic).returned ≤ (account s.port.nic).reposted + p.nbRxBufs := by
  have ring := (poised.receiving receives).rx.ring
  have behind := ring.behind
  have landed := ring.landed_le
  unfold EfVi.Rx.pushed at landed
  change s.port.nic.rx.returned.length ≤ s.port.nic.rx.reposts.length + _
  omega

theorem Poised.paced {σ : Type} {P : Producer σ} {s : System σ} {event : Event} {ahead burst txq : Nat}
    (poised : Poised p P s) (receives : p.hasRx = true) (drained : Drained p P ahead burst txq s event)
    (acquired : acquires P s event = true) :
    (account s.port.nic).returned + ahead ≤ (account s.port.nic).reposted + burst := by
  have ring := poised.since_le receives
  rcases drained.1 acquired with wide | short
  · omega
  · change s.port.nic.rx.returned.length + ahead ≤ s.port.nic.rx.reposts.length + burst
    unfold since at short
    omega

theorem disciplined_iff_completed {σ : Type} {P : Producer σ} {s : System σ} {event : Event} {txq : Nat}
    {begun : System σ → Nat} (plus : p.tuning = .X2522Plus) (poised : Poised p P s)
    (room : (account s.port.nic).waiting ≤ txq)
    (counted : acquires P s event = true → begun s = (account s.port.nic).sent + 1)
    (fits : commits p P s event = true → (account s.port.nic).waiting < txq) :
    Disciplined p P txq s event ↔ Completed p P begun s event := by
  obtain ⟨_,_,inv⟩ := poised.direct.sending
  have told : reported s.port.nic ≤ (account s.port.nic).sent := inv.send.reported
  have flying : (inFlight s.port.nic).length = (account s.port.nic).sent - reported s.port.nic := List.length_drop
  have spare : commits p P s event = true → (outstanding s.port.nic).length < txq := fits
  rw [disciplined_iff plus poised.direct room,Roomy,flying,and_iff_left spare,Completed]
  apply imp_congr_right
  intro acquired
  rw [counted acquired]
  omega

end Abtrda3.EfViAccount
