import Abtrda3.Client
import Abtrda3.Server
import Abtrda3.Semantics.Machine
import Abtrda3.Semantics.WrappingCounter
import Mathlib.Logic.Function.Basic

/-! The round-trip client and its reflector over an unreliable network. Every frame either
side has committed stays deliverable, so a frame may be lost, doubled, delayed and overtaken;
the client may also see its own transmissions again, and a received frame may be padded. A
reply is kept with the number of the request it reflects, and each sample or warm-up count
of the client with its round and the frame it was taken from. -/
namespace Abtrda3.PingPong
open Abtrda3.Application Abtrda3.Semantics Abtrda3.Semantics.Machine

structure Params where
  cfg : TestConfig
  clientHw : Bool
  serverHw : Bool
  durationCyc : BitVec 64
  timeoutCyc : BitVec 64
  long : kFrameMinBytes ≤ cfg.frameSize.toNat
  apart : cfg.clientMac.bytes ≠ cfg.serverMac.bytes

namespace Params

def client (p : Params) : Client.Setting := ⟨p.cfg,p.clientHw,p.durationCyc,p.timeoutCyc⟩

def server (p : Params) : Server.Setting := ⟨p.cfg,p.serverHw⟩

def frameSize (p : Params) : Nat := p.cfg.frameSize.toNat

def template (p : Params) (dst src : Mac) : List Byte := Application.template p.frameSize dst src p.cfg.etherType

end Params

structure Ring where
  slots : Nat → List Byte
  acquired : Nat

namespace Ring

def prefilled (frame : List Byte) : Ring := ⟨fun _ => frame,0⟩

def frame (ring : Ring) : List Byte := ring.slots ring.acquired

def acquire (ring : Ring) (slot : Option Nat) : Ring := {ring with acquired := slot.getD ring.acquired}

def store (ring : Ring) (offset : Nat) (bytes : List Byte) : Ring :=
  {ring with slots := Function.update ring.slots ring.acquired (storeAt ring.frame offset bytes)}

theorem frame_store (ring : Ring) (offset : Nat) (bytes : List Byte) :
    (ring.store offset bytes).frame = storeAt ring.frame offset bytes := Function.update_self ..

theorem slots_store {ring : Ring} {offset : Nat} {bytes : List Byte} {holds : List Byte → Prop}
    (slots : ∀ slot, holds (ring.slots slot)) (stored : holds (storeAt ring.frame offset bytes)) (slot : Nat) :
    holds ((ring.store offset bytes).slots slot) := by
  change holds (Function.update ring.slots ring.acquired _ slot)
  rw [Function.update_apply]
  split
  · exact stored
  · exact slots slot

end Ring

inductive Origin
  | client (index : Nat)
  | server (index : Nat)
  deriving DecidableEq, Repr

structure World where
  client : Client.State
  server : Server.State
  clientRing : Ring
  serverRing : Ring
  requests : List (List Byte)
  replies : List (Nat × List Byte)
  serving : Nat
  arriving : Origin
  received : Nat
  released : Nat
  measured : List (Nat × Origin)

def start (p : Params) (client : Client.State) : World where
  client := client
  server := Server.start
  clientRing := .prefilled (p.template p.cfg.serverMac p.cfg.clientMac)
  serverRing := .prefilled (p.template p.cfg.clientMac p.cfg.serverMac)
  requests := []
  replies := []
  serving := 0
  arriving := .client 0
  received := 0
  released := 0
  measured := []

inductive Choice
  | answer (reply : Reply)
  | slot (free : Option Nat)
  | empty
  | deliver (origin : Origin) (padding : List Byte)
  deriving DecidableEq, Repr

inductive Event
  | client (choice : Choice)
  | server (choice : Choice)
  deriving DecidableEq, Repr

def World.sent (w : World) : Origin → Option (List Byte)
  | .client index => w.requests[index]?
  | .server index => w.replies[index]?.map Prod.snd

def counted (s : Client.State) : Nat := s.warmup + s.recorded

def resumeClient (p : Params) (w : World) (reply : Reply) : Option World :=
  (Client.next p.client w.client reply).map fun client =>
    {w with
      client := client,
      measured := if counted client = counted w.client then w.measured
        else w.measured ++ [(w.client.sent - 1,w.arriving)]}

def stepClient (p : Params) (w : World) (choice : Choice) : Option World :=
  match Client.call p.client w.client, choice with
  | some (.acquire _), .slot free => resumeClient p {w with clientRing := w.clientRing.acquire free} (.flag free.isSome)
  | some (.store offset bytes), .answer _ => resumeClient p {w with clientRing := w.clientRing.store offset bytes} .done
  | some .commit, .answer _ => resumeClient p {w with requests := w.requests ++ [w.clientRing.frame]} .done
  | some .tryReceive, .empty => resumeClient p w (.frame [])
  | some .tryReceive, .deliver origin padding => (w.sent origin).bind fun frame =>
    resumeClient p {w with arriving := origin, received := w.received + 1} (.frame (frame ++ padding))
  | some .release, .answer _ => resumeClient p {w with released := w.released + 1} .done
  | some (.acquire _), .answer _ => none
  | some .tryReceive, .answer _ => none
  | some _, .answer reply => resumeClient p w reply
  | _, _ => none

def resumeServer (p : Params) (w : World) (reply : Reply) : Option World :=
  (Server.next p.server w.server reply).map fun server => {w with server := server}

/-- Only requests reach the reflector. -/
def stepServer (p : Params) (w : World) (choice : Choice) : Option World :=
  match Server.call p.server w.server, choice with
  | some (.acquire _), .slot free => resumeServer p {w with serverRing := w.serverRing.acquire free} (.flag free.isSome)
  | some (.store offset bytes), .answer _ => resumeServer p {w with serverRing := w.serverRing.store offset bytes} .done
  | some .commit, .answer _ =>
    resumeServer p {w with replies := w.replies ++ [(w.serving,w.serverRing.frame)]} .done
  | some .tryReceive, .empty => resumeServer p w (.frame [])
  | some .tryReceive, .deliver (.client index) padding => w.requests[index]?.bind fun frame =>
    resumeServer p {w with serving := index} (.frame (frame ++ padding))
  | some (.acquire _), .answer _ => none
  | some .tryReceive, .answer _ => none
  | some _, .answer reply => resumeServer p w reply
  | _, _ => none

def step (p : Params) (w : World) : Event → Option World
  | .client choice => stepClient p w choice
  | .server choice => stepServer p w choice

/-- A reply reaches the client less than 2^32 rounds after the request it reflects was sent. -/
def Fresh (w : World) : Event → Prop
  | .client (.deliver (.server index) _) => ∀ reply ∈ w.replies[index]?, w.client.sent ≤ reply.1 + 2^32
  | _ => True

instance (w : World) : (event : Event) → Decidable (Fresh w event)
  | .client (.deliver (.server index) _) =>
    inferInstanceAs (Decidable (∀ reply ∈ w.replies[index]?, w.client.sent ≤ reply.1 + 2^32))
  | .client (.deliver (.client _) _) => isTrue trivial
  | .client (.answer _) => isTrue trivial
  | .client (.slot _) => isTrue trivial
  | .client .empty => isTrue trivial
  | .server _ => isTrue trivial

section Places

def flying : Client.Pc → Bool
  | .receive | .arrival _ | .releaseEcho _ | .pollStamp | .rxStamp _ | .push _ | .releaseOther | .spinStop
    | .spinTime => true
  | _ => false

def inHand : Client.Pc → Bool
  | .arrival _ | .releaseEcho _ | .releaseOther => true
  | _ => false

def echoed : Client.Pc → Bool
  | .releaseEcho _ | .pollStamp | .rxStamp _ | .push _ => true
  | _ => false

def filled : Client.Pc → Bool
  | .sendStamp | .sequence | .commit => true
  | _ => false

def round (s : Client.State) : Nat := if flying s.pc then s.sent - 1 else s.sent

def Looks (s : Client.State) (reply : Reply) (frame : List Byte) : Prop :=
  s.pc = .arrival frame ∨ (s.pc = .receive ∧ reply = .frame frame)

structure Stays (p : Client.Setting) (s : Client.State) (reply : Reply) (t : Client.State) : Prop where
  flight : flying t.pc = flying s.pc
  seq : t.seq = s.seq
  sent : t.sent = s.sent
  counts : counted t = counted s
  fills : filled t.pc = true → s.pc = .storeSeq ∨ filled s.pc = true
  arrives : ∀ frame, t.pc = .arrival frame → s.pc = .receive ∧ reply = .frame frame ∧ frame ≠ []
  echoes : echoed t.pc = true → echoed s.pc = true ∨ ∃ frame, Looks s reply frame ∧ Client.ours p s frame = true

structure Ends (s t : Client.State) : Prop where
  flight : flying s.pc = true
  top : t.pc = .top
  seq : t.seq = s.seq + 1
  sent : t.sent = s.sent
  counts : counted t = counted s ∨ (counted t = counted s + 1 ∧ echoed s.pc = true)

variable {s : Client.State}

private theorem classify_stays {p : Client.Setting} {reply : Reply} {frame : List Byte}
    (looks : Looks s reply frame) (flight : flying s.pc = true) (t2 : BitVec 64) :
    Stays p s reply (Client.classify p s frame t2) := by
  unfold Client.classify
  split
  · next ours => exact ⟨flight.symm,rfl,rfl,rfl,nofun,nofun,fun _ => .inr ⟨frame,looks,ours⟩⟩
  · exact ⟨flight.symm,rfl,rfl,rfl,nofun,nofun,nofun⟩

private theorem spin_stays {p : Client.Setting} {reply : Reply} (flight : flying s.pc = true) :
    Stays p s reply (Client.spin s) := by
  unfold Client.spin
  split <;> exact ⟨flight.symm,rfl,rfl,rfl,nofun,nofun,nofun⟩

theorem endRound_ends {s u : Client.State} (received : Bool) (flight : flying s.pc = true) (seq : u.seq = s.seq)
    (sent : u.sent = s.sent) (counts : counted u = counted s ∨ (counted u = counted s + 1 ∧ echoed s.pc = true)) :
    Ends s (Client.endRound received u) :=
  ⟨flight,rfl,congrArg (· + 1) seq,sent,counts⟩

private theorem recordCycles_cases {p : Client.Setting} {reply : Reply} {t2 : BitVec 64}
    (here : s.pc = .releaseEcho t2) : Stays p s reply (Client.recordCycles s t2) ∨ Ends s (Client.recordCycles s t2) := by
  have flight : flying s.pc = true := by rw [here]; rfl
  have past : echoed s.pc = true := by rw [here]; rfl
  unfold Client.recordCycles
  split
  · exact .inr (endRound_ends true flight rfl rfl (.inr ⟨Nat.add_right_comm _ _ _,past⟩))
  · exact .inl ⟨flight.symm,rfl,rfl,rfl,nofun,nofun,fun _ => .inl past⟩

private theorem joinStamp_cases {p : Client.Setting} {reply : Reply} (here : s.pc = .pollStamp)
    (stamp : Option TxStamp) : Stays p s reply (Client.joinStamp s stamp) ∨ Ends s (Client.joinStamp s stamp) := by
  have flight : flying s.pc = true := by rw [here]; rfl
  have past : echoed s.pc = true := by rw [here]; rfl
  unfold Client.joinStamp
  split
  · split_ifs
    · exact .inl ⟨flight.symm,rfl,rfl,rfl,nofun,nofun,fun _ => .inl past⟩
    · exact .inr (endRound_ends true flight rfl rfl (.inr ⟨Nat.add_right_comm _ _ _,past⟩))
    · exact .inl ⟨flight.symm,rfl,rfl,rfl,nofun,nofun,fun _ => .inl past⟩
  · split_ifs
    · exact .inr (endRound_ends true flight rfl rfl (.inr ⟨Nat.add_right_comm _ _ _,past⟩))
    · exact .inr (endRound_ends true flight rfl rfl (.inl rfl))

private theorem next_moves {p : Client.Setting} {s t : Client.State} {reply : Reply}
    (moved : Client.next p s reply = some t) :
    Stays p s reply t ∨ Ends s t ∨ (s.pc = .commit ∧ t = {s with sent := s.sent + 1, spins := 0, pc := .receive}) := by
  unfold Client.next at moved
  split at moved
  case h_19 => cases moved
  all_goals obtain ⟨value,read,rfl⟩ := Option.map_eq_some_iff.mp moved
  case h_1 here | h_2 here | h_4 here | h_18 here =>
    left
    split_ifs <;> exact ⟨(congrArg flying here).symm,rfl,rfl,rfl,nofun,nofun,nofun⟩
  case h_3 here => exact .inl ⟨by rw [here]; rfl,rfl,rfl,rfl,nofun,nofun,nofun⟩
  case h_5 here =>
    left
    split_ifs <;> exact ⟨by rw [here]; rfl,rfl,rfl,rfl,fun _ => .inl here,nofun,nofun⟩
  case h_6 here | h_7 here =>
    exact .inl ⟨by rw [here]; rfl,rfl,rfl,rfl,fun _ => .inr (by rw [here]; rfl),nofun,nofun⟩
  case h_8 here => exact .inr (.inr ⟨here,rfl⟩)
  case h_9 here =>
    left
    have flight : flying s.pc = true := by rw [here]; rfl
    have frame := Reply.frame?_eq_some read
    split_ifs with empty
    · exact spin_stays flight
    · exact classify_stays (.inr ⟨here,frame⟩) flight 0
    · refine ⟨flight.symm,rfl,rfl,rfl,nofun,?_,nofun⟩
      intro arrived same
      cases Client.Pc.arrival.inj same
      exact ⟨here,frame,empty⟩
  case h_10 frame here => exact .inl (classify_stays (.inl here) (by rw [here]; rfl) value)
  case h_11 t2 here =>
    split_ifs
    · exact .inl ⟨by rw [here]; rfl,rfl,rfl,rfl,nofun,nofun,fun _ => .inl (by rw [here]; rfl)⟩
    · exact (recordCycles_cases here).imp id .inl
  case h_12 here => exact (joinStamp_cases here value).imp id .inl
  case h_13 here => exact .inl ⟨by rw [here]; rfl,rfl,rfl,rfl,nofun,nofun,fun _ => .inl (by rw [here]; rfl)⟩
  case h_14 here =>
    exact .inr (.inl (endRound_ends true (by rw [here]; rfl) rfl rfl (.inr ⟨rfl,by rw [here]; rfl⟩)))
  case h_15 here => exact .inl (spin_stays (by rw [here]; rfl))
  case h_16 here | h_17 here =>
    split_ifs
    · exact .inr (.inl (endRound_ends false (by rw [here]; rfl) rfl rfl (.inl rfl)))
    · exact .inl ⟨by rw [here]; rfl,rfl,rfl,rfl,nofun,nofun,nofun⟩

def handsAfter (s : Client.State) (reply : Reply) : Bool :=
  match s.pc with
  | .receive => decide (reply ≠ .frame [])
  | .releaseEcho _ => false
  | .releaseOther => false
  | pc => inHand pc

private theorem next_hands {p : Client.Setting} {s t : Client.State} {reply : Reply}
    (moved : Client.next p s reply = some t) :
    inHand t.pc = handsAfter s reply := by
  have spun (u : Client.State) : inHand (Client.spin u).pc = false := by
    unfold Client.spin
    dsimp only
    split <;> rfl
  have looked (u : Client.State) (frame : List Byte) (t2 : BitVec 64) : inHand
      (Client.classify p u frame t2).pc = true := by
    unfold Client.classify
    dsimp only
    split <;> rfl
  unfold Client.next at moved
  unfold handsAfter
  split at moved
  case h_19 => cases moved
  all_goals obtain ⟨value,read,rfl⟩ := Option.map_eq_some_iff.mp moved
  case h_9 here =>
    rw [Reply.frame?_eq_some read,here]
    dsimp only
    have some (nonempty : value ≠ []) : Reply.frame value ≠ .frame [] := fun same => nonempty (Reply.frame.inj same)
    split_ifs with empty
    · rw [spun,empty]
      rfl
    · rw [looked]
      exact (decide_eq_true (some empty)).symm
    · exact (decide_eq_true (some empty)).symm
  case h_10 here => rw [looked,here]; rfl
  case h_15 here => rw [spun,here]
  case h_11 here =>
    rw [here]
    unfold Client.recordCycles
    split_ifs <;> rfl
  case h_12 here =>
    rw [here]
    unfold Client.joinStamp
    split
    · split_ifs <;> rfl
    · split_ifs <;> rfl
  all_goals
    next here =>
    rw [here]
    first | rfl | (split_ifs <;> rfl)

def reachesOut : Call → Bool
  | .acquire _ | .store _ _ | .commit | .tryReceive => true
  | _ => false

inductive Asks (p : Client.Setting) (s : Client.State) : Call → Prop
  | acquire (here : s.pc = .acquire) : Asks p s (.acquire p.cfg.frameSize)
  | store (here : s.pc = .storeSeq) : Asks p s (.store kOffSeq (storeU32 (htonl s.seq)))
  | commit (here : s.pc = .commit) : Asks p s .commit
  | receive (here : s.pc = .receive) : Asks p s .tryReceive
  | release (hand : inHand s.pc = true) (after : ∀ reply, handsAfter s reply = false) : Asks p s .release
  | aside {call : Call} (within : reachesOut call = false) (kept : call ≠ .release) (store : s.pc ≠ .storeSeq)
      (commit : s.pc ≠ .commit) (receive : s.pc ≠ .receive) (hand : ∀ reply, handsAfter s reply = inHand s.pc) :
      Asks p s call

private theorem call_place {p : Client.Setting} {call : Call} (asked : Client.call p s = some call) :
    Asks p s call := by
  unfold Client.call at asked
  split at asked
  case h_19 => cases asked
  all_goals cases Option.some.inj asked
  case h_4 here => exact .acquire here
  case h_5 here => exact .store here
  case h_8 here => exact .commit here
  case h_9 here => exact .receive here
  case h_11 here | h_15 here =>
    apply Asks.release
    · rw [here]
      rfl
    · intro reply
      unfold handsAfter
      rw [here]
  all_goals
    next here =>
    refine .aside rfl nofun ?_ ?_ ?_ ?_
    · rw [here]
      nofun
    · rw [here]
      nofun
    · rw [here]
      nofun
    · intro reply
      unfold handsAfter
      rw [here]

end Places

section Network

variable {p : Params}

structure Addressed (p : Params) (dst : Mac) (frame : List Byte) : Prop where
  size : frame.length = p.frameSize
  dst : frame.take 6 = dst.bytes

theorem Addressed.template (p : Params) (dst src : Mac) : Addressed p dst (p.template dst src) := by
  have long : 26 ≤ p.frameSize := p.long
  rw [Params.template,template_eq]
  constructor
  · rw [List.length_append,headerBytes_length,List.length_replicate,kOffSeq]
    omega
  · rw [headerBytes,List.append_assoc,List.append_assoc]
    exact List.take_left' dst.six

theorem Addressed.store {dst : Mac} {frame bytes : List Byte} (addressed : Addressed p dst frame)
    (inside : kOffSeq + bytes.length ≤ kFrameMinBytes) : Addressed p dst (storeAt frame kOffSeq bytes) := by
  have long : 26 ≤ p.frameSize := p.long
  have size := addressed.size
  change 14 + bytes.length ≤ 26 at inside
  constructor
  · rw [storeAt_length (by change 14 + _ ≤ _; omega),size]
  · rw [storeAt_take _ (by decide) (by change 14 ≤ _; omega),addressed.dst]

theorem Addressed.stores {dst : Mac} {ring : Ring} {bytes : List Byte} (slots : ∀ slot, Addressed p dst (ring.slots slot))
    (inside : kOffSeq + bytes.length ≤ kFrameMinBytes) (slot : Nat) :
    Addressed p dst ((ring.store kOffSeq bytes).slots slot) := by
  exact Ring.slots_store slots ((slots _).store inside) slot

structure Medium (p : Params) (w : World) : Prop where
  requests : ∀ index frame, w.requests[index]? = some frame →
    Addressed p p.cfg.serverMac frame ∧ loadU32 frame kOffSeq = htonl (BitVec.ofNat 32 index)
  replies : ∀ (index : Nat) (reply : Nat × List Byte), w.replies[index]? = some reply →
    Addressed p p.cfg.clientMac reply.2 ∧
    ∃ request, w.requests[reply.1]? = some request ∧ sliceOf reply.2 14 12 = sliceOf request 14 12
  clientSlots : ∀ slot, Addressed p p.cfg.serverMac (w.clientRing.slots slot)
  serverSlots : ∀ slot, Addressed p p.cfg.clientMac (w.serverRing.slots slot)

/-- The frame came off the network, not too late if it is a reply. -/
def Arrived (w : World) (frame : List Byte) : Prop :=
  ∃ bytes padding, w.sent w.arriving = some bytes ∧ frame = bytes ++ padding ∧
    ∀ index, w.arriving = .server index → ∀ reply ∈ w.replies[index]?, w.client.sent ≤ reply.1 + 2^32

def Reflects (w : World) (round : Nat) (origin : Origin) : Prop :=
  ∃ index : Nat, ∃ reply : Nat × List Byte, origin = .server index ∧ w.replies[index]? = some reply ∧ reply.1 = round

theorem Medium.reply_seq {w : World} (medium : Medium p w) {index : Nat} {reply : Nat × List Byte}
    (here : w.replies[index]? = some reply) : loadU32 reply.2 kOffSeq = htonl (BitVec.ofNat 32 reply.1) := by
  obtain ⟨_,request,asked,same⟩ := medium.replies index reply here
  exact (loadU32_of_slice (by decide) same).trans (medium.requests _ request asked).2

/-- A frame the client takes for its echo is the reply to the request of this round. -/
theorem reflects_of_ours {w : World} (medium : Medium p w) (count : w.requests.length = w.client.sent)
    (seq : w.client.seq = BitVec.ofNat 32 (w.client.sent - 1)) {frame : List Byte} (arrived : Arrived w frame)
    (ours : Client.ours p.client w.client frame = true) : Reflects w (w.client.sent - 1) w.arriving := by
  have long : 26 ≤ p.frameSize := p.long
  simp only [Client.ours,Bool.and_eq_true,decide_eq_true_eq] at ours
  obtain ⟨⟨_,dst⟩,number⟩ := ours
  obtain ⟨bytes,padding,sent,rfl,fresh⟩ := arrived
  cases origin : w.arriving with
  | client index =>
    rw [origin] at sent
    obtain ⟨addressed,_⟩ := medium.requests index bytes sent
    rw [List.take_append_of_le_length (by rw [addressed.size]; omega),addressed.dst] at dst
    exact absurd dst.symm p.apart
  | server index =>
    rw [origin] at sent
    obtain ⟨reply,here,rfl⟩ := Option.map_eq_some_iff.mp sent
    obtain ⟨addressed,request,asked,_⟩ := medium.replies index reply here
    have earlier : reply.1 < w.client.sent := count ▸ (List.getElem?_eq_some_iff.mp asked).1
    have young := fresh index origin reply here
    have inside : kOffSeq + 4 ≤ reply.2.length := by
      rw [addressed.size]
      change 18 ≤ _
      omega
    have read : loadU32 (reply.2 ++ padding) kOffSeq = loadU32 reply.2 kOffSeq := by
      unfold loadU32
      rw [loadBytes_append_left _ _ inside]
    rw [read,medium.reply_seq here,seq] at number
    have same := congrArg htonl number
    rw [htonl_htonl,htonl_htonl] at same
    have equal := (WrappingCounter.ofNat_eq_iff 32 (by omega) (by omega)).mp same.symm
    exact ⟨index,reply,rfl,here,equal.symm⟩

structure ClientInv (p : Params) (w : World) : Prop where
  count : w.requests.length = w.client.sent
  begun : flying w.client.pc = true → 0 < w.client.sent
  seq : w.client.seq = BitVec.ofNat 32 (round w.client)
  slot : filled w.client.pc = true → loadU32 w.clientRing.frame kOffSeq = htonl w.client.seq
  arrived : ∀ frame, w.client.pc = .arrival frame → Arrived w frame
  echo : echoed w.client.pc = true → Reflects w (round w.client) w.arriving
  released : w.released + (inHand w.client.pc).toNat = w.received
  ordered : (w.measured.map Prod.fst).Pairwise (· < ·)
  earlier : ∀ sample ∈ w.measured, sample.1 < round w.client
  stems : ∀ sample ∈ w.measured, Reflects w sample.1 sample.2
  total : counted w.client = w.measured.length

structure Prepared (w v : World) (reply : Reply) : Prop where
  client : v.client = w.client
  replies : v.replies = w.replies
  measured : v.measured = w.measured
  count : v.requests.length = w.requests.length + if w.client.pc = .commit then 1 else 0
  stored : w.client.pc = .storeSeq → loadU32 v.clientRing.frame kOffSeq = htonl w.client.seq
  ring : filled w.client.pc = true → v.clientRing = w.clientRing
  arriving : w.client.pc ≠ .receive → v.arriving = w.arriving
  arrived : w.client.pc = .receive → ∀ frame, reply = .frame frame → frame ≠ [] → Arrived v frame
  sent : w.client.pc ≠ .commit → v.requests = w.requests
  released : v.released + (handsAfter w.client reply).toNat = v.received

namespace ClientInv

variable {w v t : World} {reply : Reply}

private theorem round_of_flying {s : Client.State} (flight : flying s.pc = true) : round s = s.sent - 1 := if_pos flight

theorem round_of_not_flying {s : Client.State} (rest : flying s.pc = false) : round s = s.sent := by
  unfold round
  rw [rest]
  rfl

private theorem arrived_of_looks (inv : ClientInv p w) (prepared : Prepared w v reply) {frame : List Byte}
    (looks : Looks w.client reply frame) (ours : Client.ours p.client w.client frame = true) :
    flying w.client.pc = true ∧ Arrived v frame := by
  rcases looks with here | ⟨here,answer⟩
  · refine ⟨by rw [here]; rfl,?_⟩
    obtain ⟨bytes,padding,sent,same,fresh⟩ := inv.arrived frame here
    have arriving := prepared.arriving (by rw [here]; nofun)
    have requests := prepared.sent (by rw [here]; nofun)
    refine ⟨bytes,padding,?_,same,?_⟩
    · rw [arriving,← sent]
      unfold World.sent
      rw [requests,prepared.replies]
    · rw [arriving,prepared.replies,prepared.client]
      exact fresh
  · refine ⟨by rw [here]; rfl,prepared.arrived here frame answer ?_⟩
    rintro rfl
    cases ours

theorem stays (inv : ClientInv p w) (medium : Medium p v) (prepared : Prepared w v reply) {client : Client.State}
    (stays : Stays p.client w.client reply client) (hands : inHand client.pc = handsAfter w.client reply)
    (away : w.client.pc ≠ .commit) : ClientInv p {v with client := client} := by
  have same : round client = round w.client := by
    unfold round
    rw [stays.flight,stays.sent]
  have count : v.requests.length = w.client.sent := by
    rw [prepared.count,if_neg away]
    exact inv.count
  have reflects (r : Nat) (origin : Origin) (before : Reflects w r origin) :
      Reflects {v with client := client} r origin := by
    unfold Reflects
    dsimp only
    rw [prepared.replies]
    exact before
  have moved (frame : List Byte) (arrived : Arrived v frame) : Arrived {v with client := client} frame := by
    unfold Arrived at arrived ⊢
    dsimp only
    rw [stays.sent,← prepared.client]
    exact arrived
  refine ⟨by rw [stays.sent]; exact count,?_,?_,?_,?_,?_,?_,?_,?_,?_,?_⟩ <;> dsimp only
  · rw [stays.flight,stays.sent]
    exact inv.begun
  · rw [stays.seq,same]
    exact inv.seq
  · intro past
    rw [stays.seq]
    rcases stays.fills past with here | before
    · exact prepared.stored here
    · rw [prepared.ring before]
      exact inv.slot before
  · intro frame here
    obtain ⟨receiving,answer,some⟩ := stays.arrives frame here
    exact moved frame (prepared.arrived receiving frame answer some)
  · intro past
    rw [same]
    rcases stays.echoes past with before | ⟨frame,looks,ours⟩
    · have elsewhere : w.client.pc ≠ .receive := by
        intro here
        rw [here] at before
        cases before
      rw [prepared.arriving elsewhere]
      exact reflects _ _ (inv.echo before)
    · obtain ⟨flight,arrived⟩ := inv.arrived_of_looks prepared looks ours
      have seq := inv.seq
      rw [round_of_flying flight] at seq ⊢
      rw [← prepared.client] at count seq ours ⊢
      exact reflects_of_ours medium count seq arrived ours
  · rw [hands]
    exact prepared.released
  · rw [prepared.measured]
    exact inv.ordered
  · rw [prepared.measured,same]
    exact inv.earlier
  · rw [prepared.measured]
    intro sample member
    exact reflects _ _ (inv.stems sample member)
  · rw [stays.counts,prepared.measured]
    exact inv.total

theorem ends (inv : ClientInv p w) (prepared : Prepared w v reply) {client : Client.State}
    (ends : Ends w.client client) (hands : inHand client.pc = handsAfter w.client reply) {measured : List (Nat × Origin)}
    (noted : (counted client = counted w.client ∧ measured = w.measured) ∨
      (counted client = counted w.client + 1 ∧ echoed w.client.pc = true ∧
        measured = w.measured ++ [(w.client.sent - 1,w.arriving)])) :
    ClientInv p {v with client := client, measured := measured} := by
  have flight := ends.flight
  have begun := inv.begun flight
  have away : w.client.pc ≠ .commit := by
    intro here
    rw [here] at flight
    cases flight
  have before := round_of_flying flight
  have after : round client = w.client.sent := by
    rw [round_of_not_flying (by rw [ends.top]; rfl),ends.sent]
  have reflects (r : Nat) (origin : Origin) (past : Reflects w r origin) :
      Reflects {v with client := client, measured := measured} r origin := by
    unfold Reflects
    dsimp only
    rw [prepared.replies]
    exact past
  have older : ∀ sample ∈ w.measured, sample.1 < w.client.sent - 1 := by
    intro sample member
    rw [← before]
    exact inv.earlier sample member
  have known : ∀ sample ∈ measured,
      sample ∈ w.measured ∨ (echoed w.client.pc = true ∧ sample = (w.client.sent - 1,w.arriving)) := by
    intro sample member
    rcases noted with ⟨_,rfl⟩ | ⟨_,past,rfl⟩
    · exact .inl member
    · exact (List.mem_append.mp member).imp id fun last => ⟨past,List.mem_singleton.mp last⟩
  refine ⟨?_,?_,?_,?_,?_,?_,?_,?_,?_,?_,?_⟩ <;> dsimp only
  · rw [ends.sent,prepared.count,if_neg away]
    exact inv.count
  · rw [ends.top]
    nofun
  · rw [ends.seq,inv.seq,before,after,WrappingCounter.ofNat_succ,Nat.sub_add_cancel begun]
  · rw [ends.top]
    nofun
  · rw [ends.top]
    nofun
  · rw [ends.top]
    nofun
  · rw [hands]
    exact prepared.released
  · rcases noted with ⟨_,rfl⟩ | ⟨_,_,rfl⟩
    · exact inv.ordered
    · rw [List.map_append]
      refine List.pairwise_append.mpr ⟨inv.ordered,List.pairwise_singleton _ _,?_⟩
      intro first member second last
      obtain ⟨sample,inside,rfl⟩ := List.mem_map.mp member
      cases List.mem_singleton.mp last
      exact older sample inside
  · rw [after]
    intro sample member
    rcases known sample member with inside | ⟨_,rfl⟩
    · exact (older sample inside).trans (Nat.sub_one_lt_of_lt begun)
    · exact Nat.sub_one_lt_of_lt begun
  · intro sample member
    apply reflects
    rcases known sample member with inside | ⟨past,rfl⟩
    · exact inv.stems sample inside
    · exact before ▸ inv.echo past
  · rcases noted with ⟨same,rfl⟩ | ⟨more,_,rfl⟩
    · rw [same]
      exact inv.total
    · rw [more,inv.total,List.length_append]
      rfl

theorem commits (inv : ClientInv p w) (prepared : Prepared w v reply) (here : w.client.pc = .commit)
    (hands : inHand .receive = handsAfter w.client reply) :
    ClientInv p {v with client := {w.client with sent := w.client.sent + 1, spins := 0, pc := .receive}} := by
  have before : round w.client = w.client.sent := round_of_not_flying (by rw [here]; rfl)
  refine ⟨?_,?_,?_,nofun,nofun,nofun,?_,?_,?_,?_,?_⟩ <;> dsimp only
  · rw [prepared.count,if_pos here,inv.count]
  · exact fun _ => Nat.succ_pos _
  · rw [inv.seq,before]
    rfl
  · rw [hands]
    exact prepared.released
  · rw [prepared.measured]
    exact inv.ordered
  · rw [prepared.measured]
    intro sample member
    exact (inv.earlier sample member).trans_eq before
  · rw [prepared.measured]
    intro sample member
    unfold Reflects
    dsimp only
    rw [prepared.replies]
    exact inv.stems sample member
  · rw [prepared.measured]
    exact inv.total

theorem resume (inv : ClientInv p w) (medium : Medium p v) (prepared : Prepared w v reply)
    (moved : resumeClient p v reply = some t) : ClientInv p t := by
  obtain ⟨client,went,rfl⟩ := Option.map_eq_some_iff.mp moved
  rw [prepared.client] at went ⊢
  have hands := next_hands went
  rcases next_moves went with stays | ends | ⟨here,rfl⟩
  · have away : w.client.pc ≠ .commit := by
      intro here
      unfold Client.next at went
      rw [here] at went
      obtain ⟨_,_,rfl⟩ := Option.map_eq_some_iff.mp went
      have flight := stays.flight
      rw [here] at flight
      cases flight
    rw [if_pos stays.counts]
    exact inv.stays medium prepared stays hands away
  · rw [prepared.measured]
    apply inv.ends prepared ends hands
    rcases ends.counts with same | ⟨more,past⟩
    · rw [if_pos same]
      exact .inl ⟨same,rfl⟩
    · have elsewhere : w.client.pc ≠ .receive := by
        intro here
        rw [here] at past
        cases past
      rw [if_neg (by omega),prepared.arriving elsewhere]
      exact .inr ⟨more,past,rfl⟩
  · have same : counted {w.client with sent := w.client.sent + 1, spins := 0, pc := .receive} = counted w.client := rfl
    rw [if_pos same]
    exact inv.commits prepared here hands

end ClientInv

inductive Performs (w : World) : Choice → World → Reply → Prop
  | acquire {free : Option Nat} {reply : Reply} (here : w.client.pc = .acquire) :
      Performs w (.slot free) {w with clientRing := w.clientRing.acquire free} reply
  | store {answer reply : Reply} (here : w.client.pc = .storeSeq) : Performs w (.answer answer)
      {w with clientRing := w.clientRing.store kOffSeq (storeU32 (htonl w.client.seq))} reply
  | commit {answer reply : Reply} (here : w.client.pc = .commit) :
      Performs w (.answer answer) {w with requests := w.requests ++ [w.clientRing.frame]} reply
  | empty (here : w.client.pc = .receive) : Performs w .empty w (.frame [])
  | deliver {origin : Origin} {padding frame : List Byte} (here : w.client.pc = .receive)
      (sent : w.sent origin = some frame) : Performs w (.deliver origin padding)
      {w with arriving := origin, received := w.received + 1} (.frame (frame ++ padding))
  | release {answer reply : Reply} (hand : inHand w.client.pc = true)
      (after : ∀ reply, handsAfter w.client reply = false) :
      Performs w (.answer answer) {w with released := w.released + 1} reply
  | aside {reply : Reply} (store : w.client.pc ≠ .storeSeq) (commit : w.client.pc ≠ .commit)
      (receive : w.client.pc ≠ .receive) (hand : ∀ reply, handsAfter w.client reply = inHand w.client.pc) :
      Performs w (.answer reply) w reply

private theorem stepClient_cases {w t : World} {choice : Choice} (moved : stepClient p w choice = some t) :
    ∃ v reply, resumeClient p v reply = some t ∧ Performs w choice v reply := by
  unfold stepClient at moved
  cases asked : Client.call p.client w.client with
  | none =>
    rw [asked] at moved
    cases choice <;> cases moved
  | some call =>
    rw [asked] at moved
    cases call_place asked with
    | acquire here =>
      cases choice with
      | slot free => exact ⟨_,_,moved,.acquire here⟩
      | _ => cases moved
    | store here =>
      cases choice with
      | answer reply => exact ⟨_,_,moved,.store here⟩
      | _ => cases moved
    | commit here =>
      cases choice with
      | answer reply => exact ⟨_,_,moved,.commit here⟩
      | _ => cases moved
    | receive here =>
      cases choice with
      | empty => exact ⟨_,_,moved,.empty here⟩
      | deliver origin padding =>
        obtain ⟨frame,sent,resumed⟩ := Option.bind_eq_some_iff.mp moved
        exact ⟨_,_,resumed,.deliver here sent⟩
      | _ => cases moved
    | release hand after =>
      cases choice with
      | answer reply => exact ⟨_,_,moved,.release hand after⟩
      | _ => cases moved
    | aside within kept store commit receive hand =>
      cases choice with
      | answer reply =>
        refine ⟨w,reply,?_,.aside store commit receive hand⟩
        cases call with
        | acquire | store | commit | tryReceive => cases within
        | release => exact absurd rfl kept
        | _ => exact moved
      | slot free =>
        cases call with
        | acquire => cases within
        | _ => cases moved
      | empty | deliver =>
        cases call with
        | tryReceive => cases within
        | _ => cases moved

namespace Medium

variable {w t : World}

theorem resumed {v : World} {reply : Reply} (medium : Medium p v) (moved : resumeClient p v reply = some t) :
    Medium p t := by
  obtain ⟨client,_,rfl⟩ := Option.map_eq_some_iff.mp moved
  exact ⟨medium.requests,medium.replies,medium.clientSlots,medium.serverSlots⟩

theorem store (medium : Medium p w) {bytes : List Byte} (inside : kOffSeq + bytes.length ≤ kFrameMinBytes) :
    Medium p {w with clientRing := w.clientRing.store kOffSeq bytes} :=
  ⟨medium.requests,medium.replies,Addressed.stores medium.clientSlots inside,medium.serverSlots⟩

theorem request (medium : Medium p w)
    (number : loadU32 w.clientRing.frame kOffSeq = htonl (BitVec.ofNat 32 w.requests.length)) :
    Medium p {w with requests := w.requests ++ [w.clientRing.frame]} := by
  refine ⟨?_,?_,medium.clientSlots,medium.serverSlots⟩
  · intro index frame here
    rcases log_snoc_cases here with earlier | ⟨rfl,rfl⟩
    · exact medium.requests index frame earlier
    · exact ⟨medium.clientSlots _,number⟩
  · intro index reply here
    obtain ⟨addressed,request,asked,same⟩ := medium.replies index reply here
    exact ⟨addressed,request,log_of_isPrefix (List.prefix_append _ _) asked,same⟩

end Medium

theorem Medium.sent_ne_nil {w : World} (medium : Medium p w) {origin : Origin} {frame : List Byte}
    (sent : w.sent origin = some frame) : frame ≠ [] := by
  have long : 26 ≤ p.frameSize := p.long
  have size : frame.length = p.frameSize := by
    cases origin with
    | client index => exact (medium.requests index frame sent).1.size
    | server index =>
      obtain ⟨reply,here,rfl⟩ := Option.map_eq_some_iff.mp sent
      exact (medium.replies index reply here).1.size
  rintro rfl
  change 0 = _ at size
  omega

theorem Prepared.aside {w : World} {reply : Reply} {ring : Ring} {released : Nat} (commit : w.client.pc ≠ .commit)
    (receive : w.client.pc ≠ .receive)
    (stored : w.client.pc = .storeSeq → loadU32 ring.frame kOffSeq = htonl w.client.seq)
    (kept : filled w.client.pc = true → ring = w.clientRing)
    (hands : released + (handsAfter w.client reply).toNat = w.received) :
    Prepared w {w with clientRing := ring, released := released} reply where
  client := rfl
  replies := rfl
  measured := rfl
  count := by rw [if_neg commit]; rfl
  stored := stored
  ring := kept
  arriving := fun _ => rfl
  arrived := fun here => absurd here receive
  sent := fun _ => rfl
  released := hands

theorem Prepared.receiving {w v : World} {reply : Reply} (here : w.client.pc = .receive)
    (same : v = {w with arriving := v.arriving, received := v.received})
    (arrived : ∀ frame, reply = .frame frame → frame ≠ [] → Arrived v frame)
    (hands : w.released + (decide (reply ≠ .frame [])).toNat = v.received) : Prepared w v reply := by
  rw [same]
  refine ⟨rfl,rfl,rfl,?_,?_,?_,?_,?_,fun _ => rfl,?_⟩
  · rw [here,if_neg nofun]
    rfl
  · rw [here]
    nofun
  · rw [here]
    nofun
  · exact fun away => absurd here away
  · exact fun _ frame answer some => same ▸ arrived frame answer some
  · unfold handsAfter
    rw [here]
    exact hands

theorem ClientInv.handed {w : World} {reply : Reply} (inv : ClientInv p w)
    (same : handsAfter w.client reply = inHand w.client.pc) :
    w.released + (handsAfter w.client reply).toNat = w.received := by
  rw [same]
  exact inv.released

theorem Prepared.storing {w : World} {reply : Reply} (inv : ClientInv p w) (medium : Medium p w)
    (here : w.client.pc = .storeSeq) :
    Prepared w {w with clientRing := w.clientRing.store kOffSeq (storeU32 (htonl w.client.seq))} reply := by
  have long : 26 ≤ p.frameSize := p.long
  apply Prepared.aside
  · rw [here]; nofun
  · rw [here]; nofun
  · intro _
    have inside : kOffSeq ≤ w.clientRing.frame.length := by
      rw [Ring.frame,(medium.clientSlots _).size]
      change 14 ≤ _
      omega
    rw [Ring.frame_store]
    exact loadU32_stored _ inside
  · rw [here]; nofun
  · apply inv.handed
    unfold handsAfter
    rw [here]

theorem Prepared.committing {w : World} {reply : Reply} (inv : ClientInv p w) (here : w.client.pc = .commit) :
    Prepared w {w with requests := w.requests ++ [w.clientRing.frame]} reply := by
  refine ⟨rfl,rfl,rfl,?_,?_,fun _ => rfl,fun _ => rfl,?_,?_,?_⟩
  · rw [if_pos here]
    exact List.length_append
  · rw [here]; nofun
  · rw [here]; nofun
  · exact fun away => absurd here away
  · apply inv.handed
    unfold handsAfter
    rw [here]

theorem Prepared.releasing {w : World} {reply : Reply} (inv : ClientInv p w) (hand : inHand w.client.pc = true)
    (after : handsAfter w.client reply = false) : Prepared w {w with released := w.released + 1} reply := by
  have elsewhere {pc : Client.Pc} (free : inHand pc = false) : w.client.pc ≠ pc := by
    rintro rfl
    cases hand.symm.trans free
  have released := inv.released
  rw [hand] at released
  apply Prepared.aside (elsewhere rfl) (elsewhere rfl) (fun here => absurd here (elsewhere rfl)) (fun _ => rfl)
  rw [after]
  exact released

theorem ClientInv.step {w t : World} {choice : Choice} (inv : ClientInv p w) (medium : Medium p w)
    (fresh : Fresh w (.client choice)) (moved : stepClient p w choice = some t) : ClientInv p t ∧ Medium p t := by
  have released := inv.released
  obtain ⟨v,reply,resumed,performed⟩ := stepClient_cases moved
  suffices ready : Medium p v ∧ Prepared w v reply from
    ⟨inv.resume ready.1 ready.2 resumed,ready.1.resumed resumed⟩
  cases performed with
  | acquire here =>
    refine ⟨⟨medium.requests,medium.replies,medium.clientSlots,medium.serverSlots⟩,.aside ?_ ?_ ?_ ?_ ?_⟩
    all_goals try (rw [here]; nofun)
    apply inv.handed
    unfold handsAfter
    rw [here]
  | store here =>
    exact ⟨medium.store (by rw [storeU32_length]; decide),.storing inv medium here⟩
  | commit here =>
    have number := inv.slot (by rw [here]; rfl)
    rw [inv.seq,ClientInv.round_of_not_flying (by rw [here]; rfl),← inv.count] at number
    exact ⟨medium.request number,.committing inv here⟩
  | empty here =>
    rw [here] at released
    refine ⟨medium,.receiving here rfl ?_ released⟩
    intro frame answer some
    exact absurd (Reply.frame.inj answer).symm some
  | @deliver origin padding frame here sent =>
    refine ⟨⟨medium.requests,medium.replies,medium.clientSlots,medium.serverSlots⟩,.receiving here rfl ?_ ?_⟩
    · intro bytes answer _
      refine ⟨frame,padding,sent,(Reply.frame.inj answer).symm,?_⟩
      rintro index rfl
      exact fresh
    · have some : Reply.frame (frame ++ padding) ≠ .frame [] := by
        intro empty
        exact medium.sent_ne_nil sent (List.append_eq_nil_iff.mp (Reply.frame.inj empty)).1
      rw [here] at released
      rw [decide_eq_true some]
      exact congrArg (· + 1) released
  | release hand after =>
    exact ⟨⟨medium.requests,medium.replies,medium.clientSlots,medium.serverSlots⟩,.releasing inv hand (after reply)⟩
  | aside store commit receive hand =>
    exact ⟨medium,.aside commit receive (fun here => absurd here store) (fun _ => rfl) (inv.handed (hand reply))⟩

end Network

section Reflector

variable {p : Params} {w t : World}

def holding : Server.Pc → Option (List Byte)
  | .acquire frame => some frame
  | .acquireStop frame => some frame
  | .copy frame => some frame
  | _ => none

def copied : Server.Pc → Bool
  | .release | .sequence | .commit => true
  | _ => false

structure ServerInv (w : World) : Prop where
  holds : ∀ frame, holding w.server.pc = some frame →
    ∃ request padding, w.requests[w.serving]? = some request ∧ frame = request ++ padding
  slice : copied w.server.pc = true →
    ∃ request, w.requests[w.serving]? = some request ∧ sliceOf w.serverRing.frame 14 12 = sliceOf request 14 12

theorem nextPoll_place (s : Server.State) :
    holding (Server.nextPoll s).pc = none ∧ copied (Server.nextPoll s).pc = false := by
  unfold Server.nextPoll
  dsimp only
  split <;> exact ⟨rfl,rfl⟩

theorem server_moves {q : Server.Setting} {s u : Server.State} {reply : Reply} (moved : Server.next q s reply = some u) :
    (∀ frame, holding u.pc = some frame → holding s.pc = some frame ∨ (s.pc = .poll ∧ reply = .frame frame ∧ frame ≠ [])) ∧
    (copied u.pc = true → copied s.pc = true ∨ ∃ frame, s.pc = .copy frame) := by
  have idle (v : Server.State) (place : holding v.pc = none ∧ copied v.pc = false) :
      (∀ frame, holding v.pc = some frame → holding s.pc = some frame ∨
        (s.pc = .poll ∧ reply = .frame frame ∧ frame ≠ [])) ∧
      (copied v.pc = true → copied s.pc = true ∨ ∃ frame, s.pc = .copy frame) := by
    rw [place.1,place.2]
    exact ⟨nofun,nofun⟩
  unfold Server.next at moved
  split at moved
  case h_14 => cases moved
  all_goals obtain ⟨value,read,rfl⟩ := Option.map_eq_some_iff.mp moved
  case h_1 here =>
    split_ifs with empty
    · exact idle _ ⟨rfl,rfl⟩
    · exact idle _ (nextPoll_place s)
    · refine ⟨?_,nofun⟩
      intro frame same
      cases Option.some.inj same
      exact .inr ⟨here,Reply.frame?_eq_some read,empty⟩
  case h_2 here =>
    unfold Server.joinStamp
    split
    · split_ifs
      · exact idle _ (nextPoll_place _)
      · exact idle _ (nextPoll_place _)
      · exact idle _ ⟨rfl,rfl⟩
    · exact idle _ (nextPoll_place _)
  case h_3 | h_11 => exact idle _ (nextPoll_place _)
  case h_4 frame here | h_5 frame here =>
    rw [here]
    split_ifs <;> first | exact ⟨fun _ same => .inl same,nofun⟩ | exact ⟨nofun,nofun⟩
  case h_7 frame here => exact ⟨nofun,fun _ => .inr ⟨frame,here⟩⟩
  case h_8 here =>
    rw [here]
    split_ifs <;> exact ⟨nofun,fun _ => .inl rfl⟩
  case h_9 here =>
    rw [here]
    exact ⟨nofun,fun _ => .inl rfl⟩
  case h_10 =>
    split_ifs
    · exact idle _ ⟨rfl,rfl⟩
    · exact idle _ (nextPoll_place _)
  case h_6 => exact idle _ ⟨rfl,rfl⟩
  case h_12 => split_ifs <;> exact idle _ ⟨rfl,rfl⟩
  case h_13 => split_ifs <;> exact idle _ ⟨rfl,rfl⟩

inductive ServerAsks (q : Server.Setting) (s : Server.State) : Call → Prop
  | acquire {frame : List Byte} (here : s.pc = .acquire frame) : ServerAsks q s (.acquire q.cfg.frameSize)
  | copy {frame : List Byte} (here : s.pc = .copy frame) : ServerAsks q s (.store 14 (sliceOf frame 14 12))
  | commit (here : s.pc = .commit) : ServerAsks q s .commit
  | poll (here : s.pc = .poll) : ServerAsks q s .tryReceive
  | aside {call : Call} (within : reachesOut call = false) (poll : s.pc ≠ .poll) (copy : ∀ frame, s.pc ≠ .copy frame) :
      ServerAsks q s call

private theorem server_place {q : Server.Setting} {s : Server.State} {call : Call} (asked : Server.call q s = some call) :
    ServerAsks q s call := by
  unfold Server.call at asked
  split at asked
  case h_14 => cases asked
  all_goals cases Option.some.inj asked
  case h_1 here => exact .poll here
  case h_4 here => exact .acquire here
  case h_7 here => exact .copy here
  case h_10 here => exact .commit here
  all_goals
    next here =>
    refine .aside rfl ?_ ?_
    · rw [here]
      nofun
    · rw [here]
      nofun

inductive ServerPerforms (w : World) : World → Reply → Prop
  | acquire {frame : List Byte} {free : Option Nat} {reply : Reply} (here : w.server.pc = .acquire frame) :
      ServerPerforms w {w with serverRing := w.serverRing.acquire free} reply
  | copy {frame : List Byte} {reply : Reply} (here : w.server.pc = .copy frame) :
      ServerPerforms w {w with serverRing := w.serverRing.store 14 (sliceOf frame 14 12)} reply
  | commit {reply : Reply} (here : w.server.pc = .commit) :
      ServerPerforms w {w with replies := w.replies ++ [(w.serving,w.serverRing.frame)]} reply
  | empty (here : w.server.pc = .poll) : ServerPerforms w w (.frame [])
  | deliver {index : Nat} {padding frame : List Byte} (here : w.server.pc = .poll)
      (asked : w.requests[index]? = some frame) :
      ServerPerforms w {w with serving := index} (.frame (frame ++ padding))
  | aside {reply : Reply} (poll : w.server.pc ≠ .poll) (copy : ∀ frame, w.server.pc ≠ .copy frame) :
      ServerPerforms w w reply

private theorem stepServer_cases {choice : Choice} (moved : stepServer p w choice = some t) :
    ∃ v reply, resumeServer p v reply = some t ∧ ServerPerforms w v reply := by
  unfold stepServer at moved
  cases asked : Server.call p.server w.server with
  | none =>
    rw [asked] at moved
    cases choice <;> cases moved
  | some call =>
    rw [asked] at moved
    cases server_place asked with
    | acquire here =>
      cases choice with
      | slot free => exact ⟨_,_,moved,.acquire here⟩
      | _ => cases moved
    | copy here =>
      cases choice with
      | answer reply => exact ⟨_,_,moved,.copy here⟩
      | _ => cases moved
    | commit here =>
      cases choice with
      | answer reply => exact ⟨_,_,moved,.commit here⟩
      | _ => cases moved
    | poll here =>
      cases choice with
      | empty => exact ⟨_,_,moved,.empty here⟩
      | deliver origin padding =>
        cases origin with
        | client index =>
          obtain ⟨frame,sent,resumed⟩ := Option.bind_eq_some_iff.mp moved
          exact ⟨_,_,resumed,.deliver here sent⟩
        | server index => cases moved
      | _ => cases moved
    | aside within poll copy =>
      cases choice with
      | answer reply =>
        refine ⟨w,reply,?_,.aside poll copy⟩
        cases call with
        | acquire | store | commit | tryReceive => cases within
        | _ => exact moved
      | slot free =>
        cases call with
        | acquire => cases within
        | _ => cases moved
      | empty =>
        cases call with
        | tryReceive => cases within
        | _ => cases moved
      | deliver origin padding =>
        cases call with
        | tryReceive => cases within
        | _ => cases origin <;> cases moved

theorem ServerInv.resume {v : World} {reply : Reply} (moved : resumeServer p v reply = some t)
    (holds : ∀ frame, holding v.server.pc = some frame ∨ (v.server.pc = .poll ∧ reply = .frame frame ∧ frame ≠ []) →
      ∃ request padding, v.requests[v.serving]? = some request ∧ frame = request ++ padding)
    (slice : copied v.server.pc = true ∨ (∃ frame, v.server.pc = .copy frame) →
      ∃ request, v.requests[v.serving]? = some request ∧ sliceOf v.serverRing.frame 14 12 = sliceOf request 14 12) :
    ServerInv t := by
  obtain ⟨server,went,rfl⟩ := Option.map_eq_some_iff.mp moved
  obtain ⟨held,done⟩ := server_moves went
  exact ⟨fun frame here => holds frame (held frame here),fun past => slice (done past)⟩

theorem Medium.resumedServer {v : World} {reply : Reply} (moved : resumeServer p v reply = some t) (medium : Medium p v) :
    Medium p t := by
  obtain ⟨server,_,rfl⟩ := Option.map_eq_some_iff.mp moved
  exact ⟨medium.requests,medium.replies,medium.clientSlots,medium.serverSlots⟩

theorem Medium.storeSlice (medium : Medium p w) (frame : List Byte) :
    Medium p {w with serverRing := w.serverRing.store 14 (sliceOf frame 14 12)} := by
  have inside : kOffSeq + (sliceOf frame 14 12).length ≤ kFrameMinBytes := by
    rw [sliceOf_length]
    decide
  exact ⟨medium.requests,medium.replies,medium.clientSlots,Addressed.stores medium.serverSlots inside⟩

theorem Medium.reply (medium : Medium p w) {request : List Byte} (asked : w.requests[w.serving]? = some request)
    (same : sliceOf w.serverRing.frame 14 12 = sliceOf request 14 12) :
    Medium p {w with replies := w.replies ++ [(w.serving,w.serverRing.frame)]} := by
  refine ⟨medium.requests,?_,medium.clientSlots,medium.serverSlots⟩
  intro index reply here
  rcases log_snoc_cases here with earlier | ⟨rfl,rfl⟩
  · exact medium.replies index reply earlier
  · exact ⟨medium.serverSlots _,request,asked,same⟩

theorem ServerInv.copying (inv : ServerInv w) (medium : Medium p w) {frame : List Byte}
    (held : holding w.server.pc = some frame) : ∃ request, w.requests[w.serving]? = some request ∧
      sliceOf (w.serverRing.store 14 (sliceOf frame 14 12)).frame 14 12 = sliceOf request 14 12 := by
  have long : 26 ≤ p.frameSize := p.long
  obtain ⟨request,padding,asked,rfl⟩ := inv.holds frame held
  have inside : 14 + 12 ≤ request.length := by
    rw [(medium.requests _ request asked).1.size]
    exact long
  have room : 14 ≤ w.serverRing.frame.length := by
    rw [Ring.frame,(medium.serverSlots _).size]
    omega
  have read := sliceOf_storeAt (sliceOf (request ++ padding) 14 12) room
  rw [sliceOf_length] at read
  refine ⟨request,asked,?_⟩
  rw [Ring.frame_store,read,sliceOf_append padding inside]

theorem ServerInv.step {choice : Choice} (inv : ServerInv w) (medium : Medium p w)
    (moved : stepServer p w choice = some t) : ServerInv t ∧ Medium p t := by
  obtain ⟨v,reply,resumed,performed⟩ := stepServer_cases moved
  -- What is held stays held unless a frame is taken from the queue.
  have kept (poll : w.server.pc ≠ .poll) (frame : List Byte) (held : holding w.server.pc = some frame ∨
      (w.server.pc = .poll ∧ reply = .frame frame ∧ frame ≠ [])) :
      ∃ request padding, w.requests[w.serving]? = some request ∧ frame = request ++ padding := by
    rcases held with same | ⟨other,_⟩
    · exact inv.holds frame same
    · exact absurd other poll
  have uncopied (free : copied w.server.pc = false) (away : ∀ frame, w.server.pc ≠ .copy frame) :
      ¬ (copied w.server.pc = true ∨ ∃ frame, w.server.pc = .copy frame) := by
    rintro (past | ⟨frame,other⟩)
    · cases free.symm.trans past
    · exact away frame other
  cases performed with
  | acquire here =>
    refine ⟨.resume resumed (kept (by rw [here]; nofun)) ?_,
      .resumedServer resumed ⟨medium.requests,medium.replies,medium.clientSlots,medium.serverSlots⟩⟩
    exact fun past => absurd past (uncopied (by rw [here]; rfl) (by rw [here]; nofun))
  | copy here =>
    refine ⟨.resume resumed (kept (by rw [here]; nofun)) ?_,(medium.storeSlice _).resumedServer resumed⟩
    exact fun _ => inv.copying medium (by rw [here]; rfl)
  | commit here =>
    obtain ⟨request,asked,same⟩ := inv.slice (by rw [here]; rfl)
    refine ⟨.resume resumed (kept (by rw [here]; nofun)) ?_,(medium.reply asked same).resumedServer resumed⟩
    exact fun _ => ⟨request,asked,same⟩
  | empty here =>
    refine ⟨.resume resumed ?_ ?_,medium.resumedServer resumed⟩
    · rintro frame (same | ⟨_,answer,some⟩)
      · exact inv.holds frame same
      · exact absurd (Reply.frame.inj answer).symm some
    · exact fun past => absurd past (uncopied (by rw [here]; rfl) (by rw [here]; nofun))
  | @deliver index padding frame here asked =>
    refine ⟨.resume resumed ?_ ?_,
      .resumedServer resumed ⟨medium.requests,medium.replies,medium.clientSlots,medium.serverSlots⟩⟩
    · rintro bytes (same | ⟨_,answer,_⟩)
      · have idle : holding w.server.pc = none := by rw [here]; rfl
        cases idle.symm.trans same
      · exact ⟨frame,padding,asked,(Reply.frame.inj answer).symm⟩
    · exact fun past => absurd past (uncopied (by rw [here]; rfl) (by rw [here]; nofun))
  | aside poll copy =>
    refine ⟨.resume resumed (kept poll) ?_,medium.resumedServer resumed⟩
    rintro (past | ⟨frame,other⟩)
    · exact inv.slice past
    · exact absurd other (copy frame)

theorem ServerInv.grow (inv : ServerInv w) (requests : w.requests <+: t.requests) (server : t.server = w.server)
    (ring : t.serverRing = w.serverRing) (serving : t.serving = w.serving) : ServerInv t := by
  constructor
  · intro frame held
    rw [server] at held
    obtain ⟨request,padding,asked,same⟩ := inv.holds frame held
    exact ⟨request,padding,log_of_isPrefix requests (serving ▸ asked),same⟩
  · intro past
    rw [server] at past
    obtain ⟨request,asked,same⟩ := inv.slice past
    exact ⟨request,log_of_isPrefix requests (serving ▸ asked),ring ▸ same⟩

theorem ClientInv.grow (inv : ClientInv p w) {server : Server.State} {ring : Ring} {serving : Nat}
    {replies : List (Nat × List Byte)} (grown : w.replies <+: replies) :
    ClientInv p {w with server := server, serverRing := ring, serving := serving, replies := replies} := by
  have reflects (r : Nat) (origin : Origin) (past : Reflects w r origin) :
      Reflects {w with server := server, serverRing := ring, serving := serving, replies := replies} r origin := by
    obtain ⟨index,reply,same,here,equal⟩ := past
    exact ⟨index,reply,same,log_of_isPrefix grown here,equal⟩
  refine ⟨inv.count,inv.begun,inv.seq,inv.slot,?_,fun past => reflects _ _ (inv.echo past),inv.released,inv.ordered,
    inv.earlier,fun sample member => reflects _ _ (inv.stems sample member),inv.total⟩
  intro frame here
  obtain ⟨bytes,padding,sent,same,fresh⟩ := inv.arrived frame here
  cases origin : w.arriving with
  | client index =>
    rw [origin] at sent
    exact ⟨bytes,padding,sent,same,nofun⟩
  | server index =>
    rw [origin] at sent
    obtain ⟨reply,found,rfl⟩ := Option.map_eq_some_iff.mp sent
    have kept := log_of_isPrefix grown found
    refine ⟨reply.2,padding,Option.map_eq_some_iff.mpr ⟨reply,kept,rfl⟩,same,?_⟩
    rintro _ ⟨⟩ other there
    cases Option.some.inj (kept.symm.trans there)
    exact fresh index origin reply found

private theorem stepClient_server {choice : Choice} (moved : stepClient p w choice = some t) :
    w.requests <+: t.requests ∧ t.server = w.server ∧ t.serverRing = w.serverRing ∧ t.serving = w.serving := by
  obtain ⟨v,reply,resumed,performed⟩ := stepClient_cases moved
  obtain ⟨client,_,rfl⟩ := Option.map_eq_some_iff.mp resumed
  cases performed with
  | commit => exact ⟨List.prefix_append _ _,rfl,rfl,rfl⟩
  | _ => exact ⟨List.prefix_refl _,rfl,rfl,rfl⟩

private theorem stepServer_client {choice : Choice} (moved : stepServer p w choice = some t) :
    ∃ server ring serving replies, w.replies <+: replies ∧
      t = {w with server := server, serverRing := ring, serving := serving, replies := replies} := by
  obtain ⟨v,reply,resumed,performed⟩ := stepServer_cases moved
  obtain ⟨server,_,rfl⟩ := Option.map_eq_some_iff.mp resumed
  cases performed with
  | commit => exact ⟨_,_,_,_,List.prefix_append _ _,rfl⟩
  | _ => exact ⟨_,_,_,_,List.prefix_refl _,rfl⟩

structure Sound (p : Params) (w : World) : Prop where
  client : ClientInv p w
  server : ServerInv w
  medium : Medium p w

theorem Sound.step {event : Event} (sound : Sound p w) (fresh : Fresh w event) (moved : step p w event = some t) :
    Sound p t := by
  cases event with
  | client choice =>
    obtain ⟨client,medium⟩ := sound.client.step sound.medium fresh moved
    obtain ⟨requests,server,ring,serving⟩ := stepClient_server moved
    exact ⟨client,sound.server.grow requests server ring serving,medium⟩
  | server choice =>
    obtain ⟨server,medium⟩ := sound.server.step sound.medium moved
    obtain ⟨_,_,_,_,grown,rfl⟩ := stepServer_client moved
    exact ⟨sound.client.grow grown,server,medium⟩

theorem Sound.start {client : Client.State} {now : BitVec 64} {clock : Timespec}
    (opened : Client.start p.client now clock = some client) : Sound p (start p client) := by
  unfold Client.start at opened
  split at opened
  · cases opened
  · cases Option.some.inj opened
    refine ⟨⟨rfl,nofun,rfl,nofun,nofun,nofun,rfl,.nil,nofun,nofun,rfl⟩,⟨nofun,nofun⟩,?_⟩
    exact ⟨nofun,nofun,fun _ => .template p _ _,fun _ => .template p _ _⟩

end Reflector

/-- Whatever the network does, the client notes at most one sample or warm-up count in a
round, each from a reply that carries the slice of the request sent in that very round, and
of the frames it has received all but the one in hand are released. -/
theorem samples_stem_from_their_round {p : Params} {client : Client.State} {now : BitVec 64} {clock : Timespec}
    {events : List Event} {w : World} (opened : Client.start p.client now clock = some client)
    (fresh : Along (step p) Fresh (start p client) events) (ran : run (step p) (start p client) events = some w) :
    (w.measured.map Prod.fst).Pairwise (· < ·) ∧ w.client.warmup + w.client.recorded = w.measured.length ∧
    (∀ sample ∈ w.measured, ∃ index request reply, sample.2 = .server index ∧
      w.replies[index]? = some (sample.1,reply) ∧ w.requests[sample.1]? = some request ∧
      loadU32 request kOffSeq = htonl (BitVec.ofNat 32 sample.1) ∧ sliceOf reply 14 12 = sliceOf request 14 12) ∧
    w.released + (inHand w.client.pc).toNat = w.received := by
  have sound : Sound p w := run_invariant (Sound p) (fun _ _ _ sound fresh moved => sound.step fresh moved)
    (.start opened) fresh ran
  refine ⟨sound.client.ordered,sound.client.total,?_,sound.client.released⟩
  intro sample member
  obtain ⟨index,⟨round,reply⟩,origin,here,rfl⟩ := sound.client.stems sample member
  obtain ⟨_,request,asked,same⟩ := sound.medium.replies index _ here
  exact ⟨index,request,reply,origin,here,asked,(sound.medium.requests _ request asked).2,same⟩

section Lab

def labConfig : TestConfig := ⟨0x88B5,26,0,1,.localAddress 1,.localAddress 2⟩

private theorem labConfig_long : kFrameMinBytes ≤ labConfig.frameSize.toNat := Nat.le_refl 26

private theorem labConfig_apart : labConfig.clientMac.bytes ≠ labConfig.serverMac.bytes := by decide

def labParams : Params where
  cfg := labConfig
  clientHw := false
  serverHw := false
  durationCyc := 1000
  timeoutCyc := 1000
  long := labConfig_long
  apart := labConfig_apart

def labClient : Client.State := ⟨.top,0,0,0,0,0,0,⟨0,0⟩,0,0,0,0,0,0⟩

def labSend : List Event :=
  [.client (.answer (.time 0)),.client (.answer (.flag false)),.client (.slot (some 0)),.client (.answer .done),
    .client (.answer (.time 0)),.client (.answer .done)]

def labReflect (request : Nat) : List Event :=
  [.server (.deliver (.client request) []),.server (.slot (some 0)),.server (.answer .done),.server (.answer .done),
    .server (.answer .done)]

def labReceive (origin : Origin) : List Event :=
  [.client (.deliver origin [0]),.client (.answer (.time 5)),.client (.answer .done)]

/-- The first request is doubled and seen again by its sender; its second echo comes in the
second round. -/
def labRun : List Event :=
  labSend ++ labReflect 0 ++ labReflect 0 ++ labReceive (.client 0) ++ labReceive (.server 0) ++
    labSend ++ labReceive (.server 1) ++ labReflect 1 ++ labReceive (.server 2)

theorem samples_stem_from_their_round_lab :
    ∃ w, run (step labParams) (start labParams labClient) labRun = some w ∧
      w.measured = [(0,.server 0),(1,.server 2)] ∧ w.received = 4 ∧ w.released = 4 ∧
      w.client.warmup + w.client.recorded = w.measured.length := by
  have shown : (run (step labParams) (start labParams labClient) labRun).map
      (fun w => (w.measured,w.received,w.released)) = some ([(0,.server 0),(1,.server 2)],4,4) := by decide +kernel
  obtain ⟨w,ran,parts⟩ := Option.map_eq_some_iff.mp shown
  simp only [Prod.mk.injEq] at parts
  obtain ⟨measured,received,released⟩ := parts
  have opened : Client.start labParams.client 0 ⟨0,0⟩ = some labClient := rfl
  have settled := samples_stem_from_their_round opened (by decide +kernel) ran
  exact ⟨w,ran,measured,received,released,settled.2.1⟩

end Lab

end Abtrda3.PingPong
