import Abtrda3.Client
import Abtrda3.EfViReceive
import Abtrda3.EfViTransmit
import Abtrda3.Server

/-! A benchmark loop over the ef_vi interface, next to the card. Calls on the interface
are carried out by it step by step and answered when they are through; the clock, the
stop token, the frame buffer and the recorder queue answer as they like. Each send is
logged with what the loop last stored in its frame, and at every `txSequence` call the
counts of frames sent and returned so far are noted. -/
namespace Abtrda3.HardwareSystem
open Abtrda3.Application Abtrda3.Semantics Abtrda3.Semantics.Machine
open Abtrda3.EfVi (Params Rc Op outstanding kRxPrefixTsOffset)

structure Port where
  nic : EfVi.State
  written : Nat × List Byte
  carried : List (Nat × List Byte)
  sentBefore : Nat
  returnedBefore : Nat

structure System (σ : Type) where
  app : σ
  port : Port

inductive Event
  | call (rc : Rc)
  | answer (reply : Reply)
  | land (bytes : List Byte)
  | report (event : EfVi.Event)
  deriving DecidableEq, Repr

def opOf : Call → Option Op
  | .acquire frameLen => some (.acquire frameLen)
  | .txSequence => some .txSequence
  | .commit => some .commit
  | .tryReceive => some .tryReceive
  | .release => some .release
  | .pollTxTimestamp => some .pollTxTimestamp
  | .hwRxTimestamp => some .hwRxTimestamp
  | _ => none

def nextOp (phase : EfVi.Phase) (rc : Rc) (call : Call) : Option Op :=
  match phase with
  | .idle => opOf call
  | .spinning _ => some .spin
  | .missed => some .miss
  | .committing => some (.transmit rc)

namespace Port

def start (p : Params) : Port := ⟨EfVi.start p,(0,[]),[],0,0⟩

def note (port : Port) (op : Op) : Port :=
  if op = .txSequence then
    {port with sentBefore := port.nic.tx.sent.length, returnedBefore := port.nic.rx.returned.length}
  else port

def advance (port : Port) (op : Op) (nic : EfVi.State) : Port :=
  {port.note op with
    nic := nic,
    carried :=
      if nic.tx.sent.length = port.nic.tx.sent.length then port.carried else port.carried ++ [port.written]}

def store (port : Port) : Call → Port
  | .store offset bytes => {port with written := (offset,bytes)}
  | _ => port

end Port

section system

variable {σ : Type} (p : Params) (P : Producer σ)

def start (app : σ) : System σ := ⟨app,.start p⟩

/-- A call that is not through leaves the loop where it is. -/
def resume (app : σ) (port : Port) (reply : Option Reply) : Option (System σ) :=
  match reply with
  | none => some ⟨app,port⟩
  | some reply => (P.next app reply).map fun app => ⟨app,port⟩

def stepCall (s : System σ) (rc : Rc) : Option (System σ) :=
  (P.call s.app).bind fun call => (nextOp s.port.nic.phase rc call).bind fun op =>
    (EfVi.exec p s.port.nic op).bind fun (nic,reply) => resume P s.app (s.port.advance op nic) reply

def step (s : System σ) : Event → Option (System σ)
  | .call rc => stepCall p P s rc
  | .answer reply =>
    (P.call s.app).bind fun call =>
      if opOf call = none then (P.next s.app reply).map fun app => ⟨app,s.port.store call⟩ else none
  | .land bytes =>
    (EfVi.step p s.port.nic (.land bytes)).map fun nic => ⟨s.app,{s.port with nic := nic}⟩
  | .report event =>
    (EfVi.step p s.port.nic (.report event)).map fun nic => ⟨s.app,{s.port with nic := nic}⟩

end system

def Received (p : Params) (nic : EfVi.State) (n : Nat) (frame : List Byte) (rx : BitVec 32) : Prop :=
  ∃ slot bytes, nic.rx.returned[n]? = some (slot,frame) ∧ nic.rx.landings[n]? = some (slot,bytes) ∧
    frame.take (bytes.length - p.rxPrefix) = bytes.drop p.rxPrefix ∧ loadU32 bytes kRxPrefixTsOffset = rx

structure Latest (p : Params) (nic : EfVi.State) (frame : List Byte) (rx : BitVec 32) : Prop where
  any : 0 < nic.rx.returned.length
  received : Received p nic (nic.rx.returned.length - 1) frame rx
  kept : p.kX2522Plus = true → nic.rx.reposts.length < nic.rx.returned.length

structure Ready (p : Params) (nic : EfVi.State) : Prop where
  sending : ∃ indices next, EfVi.Sending p nic indices next
  receiving : EfVi.Receiving p nic

structure Keeps (p : Params) (nic later : EfVi.State) : Prop where
  stamps : nic.tx.stamps <+: later.tx.stamps
  returned : later.rx.returned = nic.rx.returned
  landings : nic.rx.landings <+: later.rx.landings
  reposts : p.kX2522Plus = true → nic.phase ≠ .missed → later.rx.reposts = nic.rx.reposts

structure Quiet (p : Params) (nic later : EfVi.State) : Prop extends Keeps p nic later where
  sent : later.tx.sent = nic.tx.sent
  phase : later.phase = nic.phase

variable {p : Params} {nic later : EfVi.State} {op : Op} {frame : List Byte} {rx : BitVec 32}

theorem Received.grow {n : Nat} (received : Received p nic n frame rx) (returned : nic.rx.returned <+: later.rx.returned)
    (landings : nic.rx.landings <+: later.rx.landings) : Received p later n frame rx := by
  obtain ⟨slot,bytes,here,landed,same,stamp⟩ := received
  exact ⟨slot,bytes,log_of_isPrefix returned here,log_of_isPrefix landings landed,same,stamp⟩

theorem Keeps.grows (keeps : Keeps p nic later) : nic.rx.returned <+: later.rx.returned :=
  ⟨[],(List.append_nil _).trans keeps.returned.symm⟩

theorem Received.keep {n : Nat} (received : Received p nic n frame rx) (keeps : Keeps p nic later) :
    Received p later n frame rx :=
  received.grow keeps.grows keeps.landings

theorem Latest.keep (latest : Latest p nic frame rx) (keeps : Keeps p nic later) (waited : nic.phase ≠ .missed) :
    Latest p later frame rx := by
  refine ⟨?_,?_,?_⟩
  · rw [keeps.returned]
    exact latest.any
  · rw [keeps.returned]
    exact latest.received.keep keeps
  · intro plus
    rw [keeps.returned,keeps.reposts plus waited]
    exact latest.kept plus

theorem Ready.start (duplex : p.mode = .RxTx) : Ready p (EfVi.start p) := by
  have receives : p.hasRx = true := by
    rw [Params.hasRx,duplex]
    rfl
  exact ⟨⟨[],0,.start p⟩,.start receives,fun polling => nomatch polling⟩

theorem Ready.step (inv : Ready p nic) (moved : EfVi.step p nic op = some later) : Ready p later := by
  obtain ⟨⟨_,_,sending⟩,receiving⟩ := inv
  exact ⟨sending.step moved,receiving.step moved⟩

theorem Keeps.of_step (moved : EfVi.step p nic op = some later) (still : ∀ k, nic.phase ≠ .spinning k) :
    Keeps p nic later := by
  have moves := EfVi.step_rx moved
  obtain ⟨landings,returned⟩ := moves.logs
  refine ⟨(EfVi.step_sent moved).1,?_,landings,moves.reposts_eq⟩
  rcases returned with same | ⟨k,here,_⟩
  · exact same
  · exact absurd here (still k)

theorem Latest.of_last (inv : Ready p nic) {slot : BitVec 32}
    (last : nic.rx.returned[nic.rx.returned.length - 1]? = some (slot,frame))
    (kept : p.kX2522Plus = true → nic.rx.reposts.length < nic.rx.returned.length) : ∃ rx, Latest p nic frame rx := by
  obtain ⟨⟨ring,slots,_⟩,_⟩ := inv.receiving
  have behind := ring.behind
  have inside := (List.getElem?_eq_some_iff.mp last).1
  have landed := List.getElem?_eq_getElem (by omega : nic.rx.returned.length - 1 < nic.rx.landings.length)
  generalize nic.rx.landings[nic.rx.returned.length - 1] = landing at landed
  obtain ⟨id,bytes⟩ := landing
  have same : slot = id := (EfVi.ids_getElem? ring.returned last).trans (EfVi.ids_getElem? ring.landed landed).symm
  rw [← same] at landed
  exact ⟨_,by omega,⟨slot,bytes,last,landed,slots.seen _ _ _ last landed,rfl⟩,kept⟩

theorem Latest.rxTimestamp (latest : Latest p nic frame rx) (inv : Ready p nic) (hw : p.hwTimestamps = true) :
    EfVi.hwRxTimestamp p nic = rx := by
  obtain ⟨⟨ring,slots,_⟩,_⟩ := inv.receiving
  obtain ⟨any,⟨_,_,_,landed,_,stamp⟩,kept⟩ := latest
  rw [← stamp]
  unfold EfVi.hwRxTimestamp
  split
  next plus =>
    have kept := kept plus
    have early : nic.rx.pushed ≤ nic.rx.returned.length - 1 := by
      unfold EfVi.Rx.pushed
      omega
    rw [ring.heldId any,EfVi.slotId_toNat]
    exact slots.stamp hw _ _ early landed
  next plus => exact slots.raw hw (Bool.eq_false_of_not_eq_true plus) any _ landed

theorem Latest.not_reposted (latest : Latest p nic frame rx) (inv : Ready p nic) (plus : p.kX2522Plus = true) :
    nic.rx.heldId ∉ nic.rx.inited ++ nic.rx.posted := by
  obtain ⟨⟨ring,_,_⟩,_⟩ := inv.receiving
  have any := latest.any
  have kept := latest.kept plus
  have behind := ring.behind
  have full := ring.full
  have initedLe := ring.initedLe
  have small := EfVi.nbRxBufs_le p
  have apart {n : Nat} (low : nic.rx.pushed ≤ n) (high : n < p.nbRxBufs + nic.rx.pushed)
      (other : n ≠ nic.rx.returned.length - 1) :
      BitVec.ofNat 32 ((nic.rx.returned.length - 1) % p.nbRxBufs) ≠ BitVec.ofNat 32 (n % p.nbRxBufs) := by
    intro equal
    have equal := congrArg BitVec.toNat equal
    rw [EfVi.slotId_toNat,EfVi.slotId_toNat] at equal
    unfold EfVi.Rx.pushed at low high full
    exact other (WrappingCounter.mod_inj_of_window low (by omega) (by omega) (by omega) equal.symm)
  rw [ring.heldId any,ring.inited,ring.posted,EfVi.ids,EfVi.ids,WrappingCounter.window,WrappingCounter.window]
  unfold EfVi.Rx.pushed at apart full ⊢
  intro member
  rcases List.mem_append.mp member with early | late
  · obtain ⟨n,inside,equal⟩ := List.mem_map.mp early
    have range := List.mem_range'_1.mp inside
    exact apart (by omega) (by omega) (by omega) equal.symm
  · obtain ⟨n,inside,equal⟩ := List.mem_map.mp late
    have range := List.mem_range'_1.mp inside
    exact apart (by omega) (by omega) (by omega) equal.symm

private theorem stamp_of_last_send {before : Nat} {stamp : TxStamp} (inv : Ready p nic) (hw : p.hwTimestamps = true)
    (fits : p.tuning = .X2522Plus → (outstanding nic).length < 2^31) (low : before ≤ nic.tx.sent.length)
    (high : nic.tx.sent.length ≤ before + 1) (polled : (EfVi.pollTxTimestamp p nic).2 = .stamp (some stamp))
    (same : stamp.seq = BitVec.ofNat 32 before) :
    nic.tx.sent.length = before + 1 ∧ nic.tx.stamps[before]? = some stamp.minor := by
  obtain ⟨_,_,sending⟩ := inv.sending
  have small := EfVi.nbTxBufs_le p
  have bound := sending.send.bound
  have reported := sending.send.reported
  have window : nic.tx.sent.length < EfVi.processed nic + 2^31 := by
    rw [EfVi.outstanding_length] at fits
    cases tuning : p.tuning with
    | Generic =>
      have := (sending.send.room tuning).1
      omega
    | X2522Plus =>
      have := fits tuning
      omega
  obtain ⟨index,_,_,_,result⟩ := EfVi.pollTxTimestamp_cases sending.send hw
  rcases result with ⟨_,none⟩ | ⟨old,near,word,found,some⟩ | ⟨_,none,_⟩
  · rw [none] at polled
    cases polled
  · rw [some] at polled
    cases polled
    have here : before = index := by
      apply (WrappingCounter.ofNat_eq_iff 32 (by omega) (by omega)).mp
      exact same.symm
    rw [here]
    exact ⟨by omega,found⟩
  · rw [none] at polled
    cases polled


theorem step_of_exec {reply : Option Reply} (ran : EfVi.exec p nic op = some (later,reply)) :
    EfVi.step p nic op = some later := by
  rw [EfVi.step,ran]
  rfl

theorem Quiet.land {bytes : List Byte} (moved : EfVi.step p nic (.land bytes) = some later) : Quiet p nic later := by
  cases EfVi.step_action moved with
  | land landed =>
    obtain ⟨id,_,ok⟩ := Option.bind_eq_some_iff.mp landed
    obtain ⟨_,same⟩ := Option.ite_none_right_eq_some.mp ok
    cases same
    exact ⟨⟨List.prefix_rfl,rfl,List.prefix_append _ _,fun _ _ => rfl⟩,rfl,rfl⟩

theorem Quiet.report {event : EfVi.Event} (moved : EfVi.step p nic (.report event) = some later) :
    Quiet p nic later := by
  cases EfVi.step_action moved with
  | report => exact ⟨⟨List.prefix_append _ _,rfl,List.prefix_rfl,fun _ _ => rfl⟩,rfl,rfl⟩

theorem Quiet.call {reply : Option Reply} (ran : EfVi.exec p nic op = some (later,reply)) (idle : nic.phase = .idle)
    (unsent : op ≠ .commit) (still : op ≠ .tryReceive) : Quiet p nic later := by
  have moved := step_of_exec ran
  have keeps : Keeps p nic later := by
    apply Keeps.of_step moved
    intro k spinning
    rw [idle] at spinning
    cases spinning
  have elsewhere {phase : EfVi.Phase} (other : nic.phase = phase) : phase = .idle := other.symm.trans idle
  have phase : later.phase = .idle := by
    cases EfVi.step_action moved with
    | acquire frameLen => exact (EfVi.acquire_phase p nic frameLen).trans idle
    | commitDirect | commitBegin => exact absurd rfl unsent
    | tryReceive => exact absurd rfl still
    | pollTxTimestamp => exact (EfVi.pollTxTimestamp_phase p nic).trans idle
    | txSequence | hwRxTimestamp | release | land | report => exact idle
    | transmitOk other | transmitAgain other | transmitFailed other | spinHit _ other | spinOn _ other
    | miss other => cases elsewhere other
    | rxFrameComplete =>
      obtain ⟨_,_,_,phase,_⟩ := EfVi.pollEvent_cases p false nic
      exact phase.trans idle
  refine ⟨keeps,?_,phase.trans idle.symm⟩
  rcases (EfVi.step_sent moved).2 with same | ⟨sends,_⟩
  · exact same
  · rcases sends with sends | sends
    · exact absurd sends unsent
    · subst sends
      cases EfVi.step_action moved with
      | transmitOk other => cases elsewhere other

section port

variable {port : Port}

theorem Port.advance_unsent (other : op ≠ .txSequence) (sent : later.tx.sent = port.nic.tx.sent) :
    port.advance op later = {port with nic := later} := by
  simp only [Port.advance,Port.note,if_neg other,sent,if_true]

theorem Port.advance_sent (other : op ≠ .txSequence) (sent : later.tx = port.nic.tx.transmitted) :
    port.advance op later = {port with nic := later, carried := port.carried ++ [port.written]} := by
  have more : later.tx.sent.length ≠ port.nic.tx.sent.length := by
    rw [sent,EfVi.Tx.transmitted,List.length_append,List.length_singleton]
    omega
  simp only [Port.advance,Port.note,if_neg other,if_neg more]

theorem Port.store_keeps (port : Port) (call : Call) :
    (port.store call).nic = port.nic ∧ (port.store call).carried = port.carried := by
  cases call <;> exact ⟨rfl,rfl⟩

structure Linked (p : Params) (port : Port) : Prop where
  ready : Ready p port.nic
  count : port.carried.length = port.nic.tx.sent.length

theorem Linked.advance (linked : Linked p port) (moved : EfVi.step p port.nic op = some later) :
    Linked p (port.advance op later) := by
  refine ⟨linked.ready.step moved,?_⟩
  have count := linked.count
  unfold Port.advance
  dsimp only
  rcases (EfVi.step_sent moved).2 with same | ⟨_,sent⟩
  · rw [same,if_pos rfl,count]
  · rw [sent,EfVi.Tx.transmitted,if_neg (by simp),List.length_append,List.length_append,count]
    rfl

/-- The card holds fewer sends than the sequence word can tell apart. -/
def Fits (p : Params) (port : Port) : Prop := p.tuning = .X2522Plus → (outstanding port.nic).length < 2^31

instance (p : Params) (port : Port) : Decidable (Fits p port) := inferInstanceAs (Decidable (_ → _))

structure Round (port : Port) (txSeq : BitVec 32) : Prop where
  seq : txSeq = BitVec.ofNat 32 port.sentBefore
  low : port.sentBefore ≤ port.nic.tx.sent.length
  high : port.nic.tx.sent.length ≤ port.sentBefore + 1
  returned : port.returnedBefore ≤ port.nic.rx.returned.length

variable {txSeq : BitVec 32}

theorem Round.keep (round : Round port txSeq) (sent : later.tx.sent = port.nic.tx.sent)
    (returned : port.nic.rx.returned <+: later.rx.returned) : Round {port with nic := later} txSeq :=
  ⟨round.seq,by rw [sent]; exact round.low,by rw [sent]; exact round.high,round.returned.trans returned.length_le⟩

theorem Round.sent (round : Round port txSeq) (linked : Linked p port)
    (unsent : port.nic.tx.sent.length = port.sentBefore) (sent : later.tx = port.nic.tx.transmitted)
    (returned : port.nic.rx.returned <+: later.rx.returned) :
    Round {port with nic := later, carried := port.carried ++ [port.written]} txSeq ∧
      (port.carried ++ [port.written])[port.sentBefore]? = some port.written := by
  have more : later.tx.sent.length = port.sentBefore + 1 := by
    rw [sent,EfVi.Tx.transmitted,List.length_append,unsent]
    rfl
  refine ⟨⟨round.seq,(Nat.le_succ _).trans more.ge,more.le,round.returned.trans returned.length_le⟩,?_⟩
  have last : port.carried.length = port.sentBefore := linked.count.trans unsent
  rw [← last,List.getElem?_concat_length]

theorem commit_cases {rc : Rc} {reply : Option Reply} (waiting : port.nic.phase = .idle ∨ port.nic.phase = .committing)
    (next : nextOp port.nic.phase rc .commit = some op) (ran : EfVi.exec p port.nic op = some (later,reply)) :
    Keeps p port.nic later ∧
      ((port.advance op later = {port with nic := later} ∧ later.tx.sent = port.nic.tx.sent ∧
          (reply = none ∧ (later.phase = .idle ∨ later.phase = .committing) ∨
            reply = some .done ∧ later.phase = .idle)) ∨
        (port.advance op later = {port with nic := later, carried := port.carried ++ [port.written]} ∧
          later.tx = port.nic.tx.transmitted ∧ reply = some .done ∧ later.phase = .idle)) := by
  have keeps : Keeps p port.nic later := by
    apply Keeps.of_step (step_of_exec ran)
    intro k spinning
    rw [spinning] at waiting
    rcases waiting with waiting | waiting
    · cases waiting
    · cases waiting
  refine ⟨keeps,?_⟩
  rcases waiting with idle | busy
  · rw [idle] at next
    cases Option.some.inj next
    obtain ⟨_,same⟩ := Option.ite_none_right_eq_some.mp ran
    unfold EfVi.commit at same
    split at same
    · cases same
      exact .inr ⟨Port.advance_sent (by simp) rfl,rfl,rfl,idle⟩
    · cases same
      exact .inl ⟨Port.advance_unsent (by simp) rfl,rfl,.inl ⟨rfl,.inr rfl⟩⟩
  · rw [busy] at next
    cases Option.some.inj next
    obtain ⟨_,same⟩ := Option.ite_none_right_eq_some.mp ran
    cases rc with
    | ok =>
      cases same
      exact .inr ⟨Port.advance_sent (by simp) rfl,rfl,rfl,rfl⟩
    | again =>
      cases same
      obtain ⟨_,_,_,phase,_⟩ := EfVi.pollEvent_cases p false port.nic
      have sent := (EfVi.pollEvent_sent p false port.nic).1
      exact .inl ⟨Port.advance_unsent (by simp) sent,sent,.inl ⟨rfl,.inr (phase.trans busy)⟩⟩
    | failed =>
      cases same
      exact .inl ⟨Port.advance_unsent (by simp) rfl,rfl,.inr ⟨rfl,rfl⟩⟩

theorem receive_cases {rc : Rc} {reply : Option Reply} (linked : Linked p port)
    (waiting : port.nic.phase ≠ .committing) (next : nextOp port.nic.phase rc .tryReceive = some op)
    (ran : EfVi.exec p port.nic op = some (later,reply)) :
    port.advance op later = {port with nic := later} ∧ later.tx.sent = port.nic.tx.sent ∧
      port.nic.tx.stamps <+: later.tx.stamps ∧ port.nic.rx.landings <+: later.rx.landings ∧
      (later.rx.returned = port.nic.rx.returned ∧
          (reply = none ∧ later.phase ≠ .committing ∨ reply = some (.frame []) ∧ later.phase = .idle) ∨
        ∃ frame slot rx, frame ≠ [] ∧ reply = some (.frame frame) ∧ later.phase = .idle ∧
          later.rx.returned = port.nic.rx.returned ++ [(slot,frame)] ∧ Latest p later frame rx) := by
  have moved := step_of_exec ran
  have landings := (EfVi.step_rx moved).logs.1
  obtain ⟨stamps,sent⟩ := EfVi.step_sent moved
  have quiet (unsent : op ≠ .commit ∧ op ≠ .transmit .ok) (other : op ≠ .txSequence) :
      port.advance op later = {port with nic := later} ∧ later.tx.sent = port.nic.tx.sent := by
    rcases sent with same | ⟨sends | sends,_⟩
    · exact ⟨Port.advance_unsent other same,same⟩
    · exact absurd sends unsent.1
    · exact absurd sends unsent.2
  cases phase : port.nic.phase with
  | committing => exact absurd phase waiting
  | idle =>
    rw [phase] at next
    cases Option.some.inj next
    obtain ⟨_,same⟩ := Option.ite_none_right_eq_some.mp ran
    cases same
    obtain ⟨port,sent⟩ := quiet (by simp) (by simp)
    exact ⟨port,sent,stamps,landings,.inl ⟨rfl,.inl ⟨rfl,EfVi.Phase.noConfusion⟩⟩⟩
  | missed =>
    rw [phase] at next
    cases Option.some.inj next
    obtain ⟨_,same⟩ := Option.ite_none_right_eq_some.mp ran
    cases same
    obtain ⟨port,sent⟩ := quiet (by simp) (by simp)
    have keeps : Keeps p _ _ := Keeps.of_step moved (fun k spinning => nomatch phase.symm.trans spinning)
    exact ⟨port,sent,stamps,landings,.inl ⟨keeps.returned,.inr ⟨rfl,EfVi.miss_phase p _⟩⟩⟩
  | spinning k =>
    rw [phase] at next
    cases Option.some.inj next
    obtain ⟨advanced,unsent⟩ := quiet (by simp) (by simp)
    refine ⟨advanced,unsent,stamps,landings,?_⟩
    simp only [EfVi.exec,phase,EfVi.spin] at ran
    split at ran
    · cases ran
      right
      have inv := linked.ready.step moved
      obtain ⟨⟨ring,_,_⟩,_⟩ := linked.ready.receiving
      have repostLe := ring.repostLe
      have count := ring.heldCount
      have size : (port.nic.rx.hit p).returned.length = port.nic.rx.returned.length + 1 := List.length_append
      obtain ⟨rx,latest⟩ : ∃ rx, Latest p _ _ rx := by
        apply Latest.of_last inv
        · dsimp only
          rw [size,Nat.add_sub_cancel]
          exact List.getElem?_concat_length
        · intro _
          dsimp only
          rw [size]
          change port.nic.rx.reposts.length < _
          omega
      refine ⟨_,port.nic.rx.nextIdx,rx,?_,rfl,rfl,rfl,latest⟩
      have room := p.prefixRoom
      intro empty
      have none := congrArg List.length empty
      rw [ByteMemory.read_length,List.length_nil] at none
      omega
    · cases ran
      refine .inl ⟨rfl,.inl ⟨rfl,?_⟩⟩
      dsimp only
      split
      · exact EfVi.Phase.noConfusion
      · exact EfVi.Phase.noConfusion

theorem plain_call {call : Call} {rc : Rc} {reply : Option Reply} (idle : port.nic.phase = .idle)
    (plain : call = .release ∨ ∃ frameLen, call = .acquire frameLen) (next : nextOp port.nic.phase rc call = some op)
    (ran : EfVi.exec p port.nic op = some (later,reply)) :
    Quiet p port.nic later ∧ port.advance op later = Port.store {port with nic := later} call ∧
      ∃ answer, reply = some answer := by
  rw [idle] at next
  rcases plain with rfl | ⟨frameLen,rfl⟩
  all_goals
    cases Option.some.inj next
    have quiet : Quiet p port.nic later := .call ran idle (by simp) (by simp)
    obtain ⟨_,same⟩ := Option.ite_none_right_eq_some.mp ran
    cases same
    exact ⟨quiet,Port.advance_unsent (by simp) quiet.sent,_,rfl⟩

theorem Round.stamp (round : Round port txSeq) (linked : Linked p port) (hw : p.hwTimestamps = true)
    (fits : Fits p port) {stamp : TxStamp} (polled : (EfVi.pollTxTimestamp p port.nic).2 = .stamp (some stamp))
    (same : stamp.seq = txSeq) :
    port.nic.tx.sent.length = port.sentBefore + 1 ∧ port.nic.tx.stamps[port.sentBefore]? = some stamp.minor :=
  stamp_of_last_send linked.ready hw fits round.low round.high polled (same.trans round.seq)

end port

section run

variable {σ : Type} {P : Producer σ} {s t : System σ}

inductive Moves (p : Params) (P : Producer σ) (s : System σ) : System σ → Prop
  | card (later : EfVi.State) (op : Op) : EfVi.step p s.port.nic op = some later → Quiet p s.port.nic later →
      Moves p P s ⟨s.app,{s.port with nic := later}⟩
  | answer (call : Call) (reply : Reply) (app : σ) : P.call s.app = some call → opOf call = none →
      P.next s.app reply = some app → Moves p P s ⟨app,s.port.store call⟩
  | call (call : Call) (rc : Rc) (op : Op) (later : EfVi.State) (reply : Option Reply) (t : System σ) :
      P.call s.app = some call → nextOp s.port.nic.phase rc call = some op →
      EfVi.exec p s.port.nic op = some (later,reply) →
      resume P s.app (s.port.advance op later) reply = some t → Moves p P s t

theorem step_call {rc : Rc} (moved : step p P s (.call rc) = some t) :
    ∃ call op later reply, P.call s.app = some call ∧ nextOp s.port.nic.phase rc call = some op ∧
      EfVi.exec p s.port.nic op = some (later,reply) ∧ resume P s.app (s.port.advance op later) reply = some t := by
  obtain ⟨call,called,rest⟩ := Option.bind_eq_some_iff.mp moved
  obtain ⟨op,next,rest⟩ := Option.bind_eq_some_iff.mp rest
  obtain ⟨⟨later,reply⟩,ran,resumed⟩ := Option.bind_eq_some_iff.mp rest
  exact ⟨call,op,later,reply,called,next,ran,resumed⟩

theorem step_answer {reply : Reply} (moved : step p P s (.answer reply) = some t) :
    ∃ call app, P.call s.app = some call ∧ opOf call = none ∧ P.next s.app reply = some app ∧
      ⟨app,s.port.store call⟩ = t := by
  obtain ⟨call,called,rest⟩ := Option.bind_eq_some_iff.mp moved
  obtain ⟨outside,rest⟩ := Option.ite_none_right_eq_some.mp rest
  obtain ⟨app,next,same⟩ := Option.map_eq_some_iff.mp rest
  exact ⟨call,app,called,outside,next,same⟩

theorem step_moves {event : Event} (moved : step p P s event = some t) : Moves p P s t := by
  cases event with
  | call rc =>
    obtain ⟨call,op,later,reply,called,next,ran,resumed⟩ := step_call moved
    exact .call call rc op later reply t called next ran resumed
  | answer reply =>
    obtain ⟨call,app,called,outside,next,rfl⟩ := step_answer moved
    exact .answer call reply app called outside next
  | land bytes =>
    obtain ⟨later,landed,rfl⟩ := Option.map_eq_some_iff.mp moved
    exact .card later _ landed (.land landed)
  | report event =>
    obtain ⟨later,reported,rfl⟩ := Option.map_eq_some_iff.mp moved
    exact .card later _ reported (.report reported)

theorem resume_port {app : σ} {port : Port} {reply : Option Reply} (resumed : resume P app port reply = some t) :
    t.port = port := by
  cases reply with
  | none =>
    cases Option.some.inj resumed
    rfl
  | some answer =>
    obtain ⟨_,_,rfl⟩ := Option.map_eq_some_iff.mp resumed
    rfl

theorem Linked.step (linked : Linked p s.port) (moves : Moves p P s t) : Linked p t.port := by
  cases moves with
  | card later op moved quiet =>
    refine ⟨linked.ready.step moved,?_⟩
    dsimp only
    rw [quiet.sent]
    exact linked.count
  | answer call reply app =>
    obtain ⟨nic,carried⟩ := s.port.store_keeps call
    exact ⟨by rw [nic]; exact linked.ready,by rw [nic,carried]; exact linked.count⟩
  | call call rc op later reply _ called next ran resumed =>
    rw [resume_port resumed]
    exact linked.advance (step_of_exec ran)

end run

end Abtrda3.HardwareSystem
