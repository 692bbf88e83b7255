import Abtrda3.PingPong
import Abtrda3.RxSink
import Abtrda3.SingleRecorder
import Abtrda3.TxGenerator

/-! Which bytes of a received frame the loops look at, and which bytes of their frame template
they write. `run_client` and `RxThread::run` look at the length of a frame first; `run_server`
copies twelve bytes and `run_rxsink` compares six without looking. `run_client` refuses a frame
size below the layout; `run_server` and `run_txgen` fill in a header of any size. -/
namespace Abtrda3.FrameAccess
open Abtrda3.Application Abtrda3.Semantics.Machine

/-- An access to `width` bytes from `offset`, in a frame or template of `size` bytes. -/
structure Touch where
  offset : Nat
  width : Nat
  size : Nat
  deriving DecidableEq, Repr

def Touch.Inside (touch : Touch) : Prop := touch.offset + touch.width ≤ touch.size

instance (touch : Touch) : Decidable touch.Inside := inferInstanceAs (Decidable (_ ≤ _))

section Looks

def clientTouches (cfg : TestConfig) (rxf : List Byte) : List Touch :=
  if rxf.length < kFrameMinBytes then []
  else if rxf.take 6 = cfg.clientMac.bytes then [⟨0,6,rxf.length⟩,⟨kOffSeq,4,rxf.length⟩]
  else [⟨0,6,rxf.length⟩]

def serverTouches (rxf : List Byte) : List Touch := [⟨14,12,rxf.length⟩]

def rxsinkTouches (rxf : List Byte) : List Touch := [⟨0,6,rxf.length⟩]

def rxThreadTouches (cfg : TestConfig) (packet : List Byte) : List Touch :=
  if packet.length < kFrameMinBytes then []
  else if SingleRecorder.foreign cfg packet then [⟨kOffDstMac,8,packet.length⟩,⟨kOffSrcMac,8,packet.length⟩]
  else [⟨kOffDstMac,8,packet.length⟩,⟨kOffSrcMac,8,packet.length⟩,⟨kOffSeq,4,packet.length⟩,⟨kOffTxStamp,8,packet.length⟩]

def Agree (touches : List Touch) (first second : List Byte) : Prop :=
  ∀ touch ∈ touches, ∀ i < touch.width, first[touch.offset + i]? = second[touch.offset + i]?

variable {cfg : TestConfig} {first second : List Byte}

theorem Agree.loadBytes {touches : List Touch} (agree : Agree touches first second) (touch : Touch)
    (member : touch ∈ touches) :
    loadBytes first touch.offset touch.width = loadBytes second touch.offset touch.width := by
  apply loadBytes_congr
  intro i below
  unfold byteAt
  rw [agree touch member i below]

theorem Agree.take {touches : List Touch} {width size : Nat} (agree : Agree touches first second)
    (member : ⟨0,width,size⟩ ∈ touches) : first.take width = second.take width := by
  apply List.ext_getElem?
  intro i
  rw [List.getElem?_take,List.getElem?_take]
  split
  next below =>
    have byte := agree _ member i below
    rwa [Nat.zero_add] at byte
  next => rfl

/-- Nothing but the touched bytes and the length decides what `run_client` does with a frame. -/
theorem ours_of_agree (p : Client.Setting) (s : Client.State) (size : first.length = second.length)
    (agree : Agree (clientTouches p.cfg first) first second) : Client.ours p s first = Client.ours p s second := by
  unfold Client.ours
  by_cases short : first.length < kFrameMinBytes
  · have runt : decide (kFrameMinBytes ≤ first.length) = false := decide_eq_false (Nat.not_le.mpr short)
    rw [← size,runt,Bool.false_and,Bool.false_and,Bool.false_and,Bool.false_and]
  · have address : first.take 6 = second.take 6 := by
      unfold clientTouches at agree
      rw [if_neg short] at agree
      split at agree <;> exact agree.take (List.mem_cons_self ..)
    rw [size,address]
    by_cases ours : first.take 6 = p.cfg.clientMac.bytes
    · unfold clientTouches at agree
      rw [if_neg short,if_pos ours] at agree
      unfold loadU32
      rw [agree.loadBytes ⟨kOffSeq,4,first.length⟩ (by simp)]
    · rw [address] at ours
      rw [decide_eq_false ours,Bool.and_false,Bool.false_and,Bool.false_and]

private theorem copied_of_agree (agree : Agree (serverTouches first) first second) :
    sliceOf first 14 12 = sliceOf second 14 12 := by
  apply List.map_congr_left
  intro i member
  rw [agree ⟨14,12,first.length⟩ (List.mem_singleton_self _) i (List.mem_range.mp member)]

private theorem addressed_of_agree (agree : Agree (rxsinkTouches first) first second) :
    RxSink.addressed cfg first = RxSink.addressed cfg second := by
  unfold RxSink.addressed
  rw [agree.take (List.mem_singleton_self _)]

private theorem examine_of_agree (s : SingleRecorder.State) (t1 : BitVec 64) (size : first.length = second.length)
    (agree : Agree (rxThreadTouches cfg first) first second) :
    SingleRecorder.examine cfg s first t1 = SingleRecorder.examine cfg s second t1 := by
  unfold SingleRecorder.examine
  rw [← size]
  by_cases short : first.length < kFrameMinBytes
  · rw [if_pos short,if_pos short]
  · unfold rxThreadTouches at agree
    rw [if_neg short] at agree
    have header : SingleRecorder.foreign cfg first = SingleRecorder.foreign cfg second := by
      have member (touch : Touch) (own : touch ∈ [⟨kOffDstMac,8,first.length⟩,(⟨kOffSrcMac,8,first.length⟩ : Touch)]) :
          Application.loadBytes first touch.offset touch.width = Application.loadBytes second touch.offset touch.width := by
        split at agree
        · exact agree.loadBytes touch own
        · exact agree.loadBytes touch (List.mem_append_left [_,_] own)
      have low := member ⟨kOffDstMac,8,first.length⟩ (by simp)
      have high := member ⟨kOffSrcMac,8,first.length⟩ (by simp)
      unfold SingleRecorder.foreign loadU64
      rw [low,high]
    rw [if_neg short,if_neg short,← header]
    split
    · rfl
    · next kept =>
      rw [if_neg kept] at agree
      unfold loadU32 loadU64
      rw [agree.loadBytes ⟨kOffSeq,4,first.length⟩ (by simp),
        agree.loadBytes ⟨kOffTxStamp,8,first.length⟩ (by simp)]

end Looks

inductive Consumer
  | client (p : Client.Setting)
  | server (p : Server.Setting)
  | rxsink (cfg : TestConfig)
  | rxThread (cfg : TestConfig)
  | txgen (p : TxGenerator.Setting)

namespace Consumer

def cfg : Consumer → TestConfig
  | .client p => p.cfg
  | .server p => p.cfg
  | .rxsink cfg => cfg
  | .rxThread cfg => cfg
  | .txgen p => p.cfg

def State : Consumer → Type
  | .client _ => Client.State
  | .server _ => Server.State
  | .rxsink _ => RxSink.State
  | .rxThread _ => SingleRecorder.State
  | .txgen _ => TxGenerator.State

def Starts : (c : Consumer) → c.State → Prop
  | .client p, s => ∃ now clock, Client.start p now clock = some s
  | .server _, s => s = Server.start
  | .rxsink _, s => s = RxSink.start
  | .rxThread _, s => s = SingleRecorder.start
  | .txgen _, s => ∃ clock, s = TxGenerator.start clock

def next : (c : Consumer) → c.State → Reply → Option c.State
  | .client p => Client.next p
  | .server p => Server.next p
  | .rxsink cfg => RxSink.next cfg
  | .rxThread cfg => SingleRecorder.next cfg
  | .txgen p => TxGenerator.next p

/-- The hardware mode looks at a frame at once, the other mode reads the clock first. -/
def clientReads (p : Client.Setting) (s : Client.State) (reply : Reply) : List Touch :=
  match s.pc, reply with
  | .receive, .frame rxf => if rxf ≠ [] ∧ p.kHwTs then clientTouches p.cfg rxf else []
  | .arrival rxf, _ => clientTouches p.cfg rxf
  | _, _ => []

def serverReads (s : Server.State) : List Touch :=
  match s.pc with
  | .copy rxf => serverTouches rxf
  | _ => []

def rxsinkReads (s : RxSink.State) (reply : Reply) : List Touch :=
  match s.pc, reply with
  | .poll, .frame rxf => if rxf ≠ [] then rxsinkTouches rxf else []
  | _, _ => []

def rxThreadReads (cfg : TestConfig) (s : SingleRecorder.State) : List Touch :=
  match s.pc with
  | .arrival packet => rxThreadTouches cfg packet
  | _ => []

def reads : (c : Consumer) → c.State → Reply → List Touch
  | .client p, s, reply => clientReads p s reply
  | .server _, s, _ => serverReads s
  | .rxsink _, s, reply => rxsinkReads s reply
  | .rxThread cfg, s, _ => rxThreadReads cfg s
  | .txgen _, _, _ => []

def call : (c : Consumer) → c.State → Option Call
  | .client p => Client.call p
  | .server p => Server.call p
  | .rxsink _ => RxSink.call
  | .rxThread _ => SingleRecorder.call
  | .txgen p => TxGenerator.call p

def touches : Consumer → List Byte → List Touch
  | .client p => clientTouches p.cfg
  | .server _ => serverTouches
  | .rxsink _ => rxsinkTouches
  | .rxThread cfg => rxThreadTouches cfg
  | .txgen _ => fun _ => []

def storeTouches (size : Nat) (stores : List (Nat × List Byte)) : List Touch :=
  stores.map fun store => ⟨store.1,store.2.length,size⟩

def templateWrites (c : Consumer) : List Touch :=
  match c with
  | .client p =>
    if p.cfg.frameSize.toNat < kFrameMinBytes then []
    else storeTouches p.cfg.frameSize.toNat (headerStores p.cfg.serverMac p.cfg.clientMac p.cfg.etherType)
  | .server p => storeTouches p.cfg.frameSize.toNat (headerStores p.cfg.clientMac p.cfg.serverMac p.cfg.etherType)
  | .rxsink _ => []
  | .rxThread _ => []
  | .txgen p => storeTouches p.cfg.frameSize.toNat (headerStores p.cfg.serverMac p.cfg.clientMac p.cfg.etherType)

def needs : Consumer → Nat
  | .server _ => 26
  | .rxsink _ => 6
  | _ => 0

def room : Consumer → Nat
  | .server _ => 14
  | .txgen _ => 14
  | _ => 0

end Consumer

section Unread

/-- Two frames of one length that differ only where the loop does not look. -/
structure Alike (c : Consumer) (first second : List Byte) : Prop where
  size : first.length = second.length
  agree : Agree (c.touches first) first second

inductive AlikeReply (c : Consumer) : Reply → Reply → Prop
  | same (reply : Reply) : AlikeReply c reply reply
  | frames {first second : List Byte} (alike : Alike c first second) : AlikeReply c (.frame first) (.frame second)

inductive Keeps : (c : Consumer) → (List Byte → c.State) → Prop
  | arrival (p : Client.Setting) (s : Client.State) :
      Keeps (.client p) fun rxf => ({s with pc := .arrival rxf} : Client.State)
  | acquire (p : Server.Setting) (s : Server.State) :
      Keeps (.server p) fun rxf => ({s with pc := .acquire rxf} : Server.State)
  | acquireStop (p : Server.Setting) (s : Server.State) :
      Keeps (.server p) fun rxf => ({s with pc := .acquireStop rxf} : Server.State)
  | copy (p : Server.Setting) (s : Server.State) :
      Keeps (.server p) fun rxf => ({s with pc := .copy rxf} : Server.State)
  | examined (cfg : TestConfig) (s : SingleRecorder.State) :
      Keeps (.rxThread cfg) fun packet => ({s with pc := .arrival packet} : SingleRecorder.State)

inductive Like (c : Consumer) : c.State → c.State → Prop
  | same (s : c.State) : Like c s s
  | kept {keep : List Byte → c.State} {first second : List Byte} (keeps : Keeps c keep) (alike : Alike c first second) :
      Like c (keep first) (keep second)

variable {c : Consumer} {first second : List Byte}

theorem Alike.nil_iff (alike : Alike c first second) : first = [] ↔ second = [] := by
  rw [← List.length_eq_zero_iff,alike.size,List.length_eq_zero_iff]

theorem Like.of_eq {s t : c.State} (same : s = t) : Like c s t := same ▸ .same s

theorem rel_of_eq {s t : Option c.State} (same : s = t) : Option.Rel (Like c) s t := by
  subst same
  cases s with
  | none => exact .none
  | some s => exact .some (.same s)

theorem rel_map {α : Type} {f g : α → c.State} (answer : Option α) (each : ∀ value, Like c (f value) (g value)) :
    Option.Rel (Like c) (answer.map f) (answer.map g) := by
  cases answer with
  | none => exact .none
  | some value => exact .some (each value)

private theorem classify_of_alike {p : Client.Setting} (alike : Alike (.client p) first second) (s : Client.State)
    (t2 : BitVec 64) :
    Client.classify p s first t2 = Client.classify p s second t2 := by
  unfold Client.classify
  rw [ours_of_agree p s alike.size alike.agree]

private theorem client_receives {p : Client.Setting} (s : Client.State) (alike : Alike (.client p) first second) :
    Option.Rel (Like (.client p)) (Client.next p s (.frame first)) (Client.next p s (.frame second)) := by
  unfold Client.next
  cases s.pc with
  | receive =>
    refine .some ?_
    dsimp only
    simp only [alike.nil_iff]
    split
    · exact .same _
    · split
      · exact .of_eq (classify_of_alike alike s 0)
      · exact .kept (.arrival p s) alike
  | _ => exact rel_of_eq rfl

private theorem server_receives {p : Server.Setting} (s : Server.State) (alike : Alike (.server p) first second) :
    Option.Rel (Like (.server p)) (Server.next p s (.frame first)) (Server.next p s (.frame second)) := by
  unfold Server.next
  cases s.pc with
  | poll =>
    refine .some ?_
    dsimp only
    simp only [alike.nil_iff]
    split
    · exact .same _
    · exact .kept (.acquire p s) alike
  | _ => exact rel_of_eq rfl

private theorem rxsink_receives {cfg : TestConfig} (s : RxSink.State) (alike : Alike (.rxsink cfg) first second) :
    Option.Rel (Like (.rxsink cfg)) (RxSink.next cfg s (.frame first)) (RxSink.next cfg s (.frame second)) := by
  unfold RxSink.next
  cases s.pc with
  | poll =>
    refine .some ?_
    dsimp only
    simp only [alike.nil_iff,RxSink.count,addressed_of_agree alike.agree]
    exact .same _
  | _ => exact rel_of_eq rfl

private theorem rxThread_receives {cfg : TestConfig} (s : SingleRecorder.State)
    (alike : Alike (.rxThread cfg) first second) :
    Option.Rel (Like (.rxThread cfg)) (SingleRecorder.next cfg s (.frame first))
      (SingleRecorder.next cfg s (.frame second)) := by
  unfold SingleRecorder.next
  cases s.pc with
  | poll =>
    refine .some ?_
    dsimp only
    simp only [alike.nil_iff]
    split
    · exact .same _
    · exact .kept (.examined cfg {s with graceEmpty := 0}) alike
  | _ => exact rel_of_eq rfl

private theorem txgen_receives {p : TxGenerator.Setting} (s : TxGenerator.State) (first second : List Byte) :
    TxGenerator.next p s (.frame first) = TxGenerator.next p s (.frame second) := by
  unfold TxGenerator.next
  cases s.pc with
  | _ => rfl

private theorem receives_alike (s : c.State) (alike : Alike c first second) :
    Option.Rel (Like c) (c.next s (.frame first)) (c.next s (.frame second)) := by
  cases c with
  | client p => exact client_receives s alike
  | server p => exact server_receives s alike
  | rxsink cfg => exact rxsink_receives s alike
  | rxThread cfg => exact rxThread_receives s alike
  | txgen p => exact rel_of_eq (txgen_receives s first second)

private theorem keeps_alike {keep : List Byte → c.State} (keeps : Keeps c keep) (alike : Alike c first second)
    (reply : Reply) :
    Option.Rel (Like c) (c.next (keep first) reply) (c.next (keep second) reply) := by
  cases keeps with
  | arrival p s =>
    refine rel_map reply.time? fun t => .of_eq ?_
    exact classify_of_alike alike s t
  | acquire p s =>
    refine rel_map reply.flag? fun ok => ?_
    cases ok with
    | true => exact .kept (.copy p s) alike
    | false => exact .kept (.acquireStop p s) alike
  | acquireStop p s =>
    refine rel_map reply.flag? fun stop => ?_
    cases stop with
    | true => exact .same _
    | false => exact .kept (.acquire p s) alike
  | copy p s => exact rel_of_eq rfl
  | examined cfg s =>
    refine rel_map reply.time? fun t1 => .of_eq ?_
    exact examine_of_agree s t1 alike.size alike.agree

private theorem frame_refused {keep : List Byte → c.State} (keeps : Keeps c keep) (rxf : List Byte) :
    c.next (keep first) (.frame rxf) = none := by
  cases keeps <;> rfl

theorem Like.next {s t : c.State} {reply other : Reply} (like : Like c s t) (heard : AlikeReply c reply other) :
    Option.Rel (Like c) (c.next s reply) (c.next t other) := by
  cases like with
  | same =>
    cases heard with
    | same => exact rel_of_eq rfl
    | frames alike => exact receives_alike s alike
  | kept keeps alike =>
    cases heard with
    | same => exact keeps_alike keeps alike reply
    | frames _ =>
      rw [frame_refused keeps,frame_refused keeps]
      exact .none

theorem Like.call {s t : c.State} (like : Like c s t) : c.call s = c.call t := by
  cases like with
  | same => rfl
  | kept keeps alike =>
    cases keeps with
    | copy p s => exact congrArg (fun bytes => some (Call.store 14 bytes)) (copied_of_agree alike.agree)
    | _ => rfl

/-- The loop goes on with the same call after two lists of replies that differ only in
bytes it does not read. -/
theorem calls_of_alike (s : c.State) {replies others : List Reply} (alike : List.Forall₂ (AlikeReply c) replies others) :
    (run c.next s replies).map c.call = (run c.next s others).map c.call := by
  have related := run_related (fun _ _ _ _ like heard => like.next heard) (Like.same s) alike
  generalize run c.next s replies = here at related ⊢
  generalize run c.next s others = there at related ⊢
  cases related with
  | none => rfl
  | some like => exact congrArg some like.call

end Unread

section Guards

theorem inside_of_guard {frame : List Byte} (whole : ¬ frame.length < kFrameMinBytes) (offset width : Nat)
    (within : offset + width ≤ kFrameMinBytes) : Touch.Inside ⟨offset,width,frame.length⟩ :=
  within.trans (Nat.not_lt.mp whole)

private theorem clientTouches_inside (cfg : TestConfig) (rxf : List Byte) :
    ∀ touch ∈ clientTouches cfg rxf, touch.Inside := by
  intro touch member
  unfold clientTouches at member
  split at member
  · exact nomatch member
  · next whole =>
    split at member <;> simp only [List.mem_cons,List.not_mem_nil,or_false] at member
    · rcases member with rfl | rfl <;> exact inside_of_guard whole _ _ (by decide)
    · subst member
      exact inside_of_guard whole _ _ (by decide)

private theorem rxThreadTouches_inside (cfg : TestConfig) (packet : List Byte) :
    ∀ touch ∈ rxThreadTouches cfg packet, touch.Inside := by
  intro touch member
  unfold rxThreadTouches at member
  split at member
  · exact nomatch member
  · next whole =>
    split at member <;> simp only [List.mem_cons,List.not_mem_nil,or_false] at member
    · rcases member with rfl | rfl <;> exact inside_of_guard whole _ _ (by decide)
    · rcases member with rfl | rfl | rfl | rfl <;> exact inside_of_guard whole _ _ (by decide)

private theorem clientReads_inside (p : Client.Setting) (s : Client.State) (reply : Reply) :
    ∀ touch ∈ Consumer.clientReads p s reply, touch.Inside := by
  intro touch member
  unfold Consumer.clientReads at member
  split at member
  · split at member
    · exact clientTouches_inside _ _ touch member
    · exact nomatch member
  · exact clientTouches_inside _ _ touch member
  · exact nomatch member

private theorem rxThreadReads_inside (cfg : TestConfig) (s : SingleRecorder.State) :
    ∀ touch ∈ Consumer.rxThreadReads cfg s, touch.Inside := by
  intro touch member
  unfold Consumer.rxThreadReads at member
  split at member
  · exact rxThreadTouches_inside _ _ touch member
  · exact nomatch member

theorem storeTouches_inside_iff (size : Nat) (dst src : Mac) (etherType : BitVec 16) :
    (∀ touch ∈ Consumer.storeTouches size (headerStores dst src etherType), touch.Inside) ↔ 14 ≤ size := by
  simp only [Consumer.storeTouches,headerStores,List.map_cons,List.map_nil,List.forall_mem_cons,dst.six,src.six]
  constructor
  · rintro ⟨_,_,_,last,_⟩
    exact last
  · intro enough
    change 0 + 6 ≤ size ∧ 6 + 6 ≤ size ∧ 12 + 1 ≤ size ∧ 13 + 1 ≤ size ∧ _
    exact ⟨by omega,by omega,by omega,enough,List.forall_mem_nil _⟩

private theorem templateWrites_inside_iff (c : Consumer) :
    (∀ touch ∈ c.templateWrites, touch.Inside) ↔ c.room ≤ c.cfg.frameSize.toNat := by
  cases c with
  | client p =>
    refine iff_of_true ?_ (Nat.zero_le _)
    unfold Consumer.templateWrites
    dsimp only
    split
    · intro touch member
      exact nomatch member
    · next long =>
      apply (storeTouches_inside_iff ..).mpr
      change ¬ _ < 26 at long
      omega
  | server p => exact storeTouches_inside_iff ..
  | rxsink cfg => exact iff_of_true (fun _ member => nomatch member) (Nat.zero_le _)
  | rxThread cfg => exact iff_of_true (fun _ member => nomatch member) (Nat.zero_le _)
  | txgen p => exact storeTouches_inside_iff ..

end Guards

section Runs
variable {delivers : List Byte → Prop}

/-- Only frames the network may deliver come back from `tryReceive`. -/
def Delivered (delivers : List Byte → Prop) (reply : Reply) : Prop :=
  ∀ rxf, reply = .frame rxf → rxf ≠ [] → delivers rxf

def Holds : (c : Consumer) → c.State → Prop
  | .server _, s => ∀ rxf, PingPong.holding s.pc = some rxf → 26 ≤ rxf.length
  | _, _ => True

theorem Holds.start {c : Consumer} {s : c.State} (starts : c.Starts s) : Holds c s := by
  cases c with
  | server p =>
    cases starts
    exact fun _ held => nomatch held
  | _ => trivial

variable {c : Consumer} (enough : ∀ rxf, delivers rxf → rxf ≠ [] → c.needs ≤ rxf.length)
include enough

theorem Holds.next {s t : c.State} {reply : Reply} (holds : Holds c s) (received : Delivered delivers reply)
    (moved : c.next s reply = some t) : Holds c t := by
  cases c with
  | server p =>
    intro rxf held
    rcases (PingPong.server_moves moved).1 rxf held with before | ⟨_,arrived,filled⟩
    · exact holds rxf before
    · exact enough rxf (received rxf arrived filled) filled
  | _ => trivial

theorem Holds.reads {s : c.State} {reply : Reply} (holds : Holds c s) (received : Delivered delivers reply) :
    ∀ touch ∈ c.reads s reply, touch.Inside := by
  intro touch member
  cases c with
  | client p => exact clientReads_inside p s reply touch member
  | server p =>
    change touch ∈ Consumer.serverReads s at member
    unfold Consumer.serverReads at member
    split at member
    · next rxf here =>
      rw [List.mem_singleton.mp member]
      exact holds rxf (by rw [here]; rfl)
    · exact nomatch member
  | rxsink cfg =>
    change touch ∈ Consumer.rxsinkReads s reply at member
    unfold Consumer.rxsinkReads at member
    split at member
    · next rxf _ =>
      split at member
      · next filled =>
        rw [List.mem_singleton.mp member]
        exact enough rxf (received rxf rfl filled) filled
      · exact nomatch member
    · exact nomatch member
  | rxThread cfg => exact rxThreadReads_inside cfg s touch member
  | txgen p => exact nomatch member

private theorem reads_inside {s : c.State} {replies : List Reply} (starts : c.Starts s)
    (received : ∀ reply ∈ replies, Delivered delivers reply) :
    Along c.next (fun s reply => ∀ touch ∈ c.reads s reply, touch.Inside) s replies := by
  apply along_of_invariant (Holds c) ?_ ?_ (Holds.start starts) (along_of_forall s received)
  · exact fun _ _ _ holds arrived moved => holds.next enough arrived moved
  · exact fun _ _ holds arrived => holds.reads enough arrived

end Runs

section Short
variable {rxf : List Byte}

private theorem server_touches_short (p : Server.Setting) (filled : rxf ≠ [])
    (inside : Along (Consumer.server p).next (fun s reply => ∀ touch ∈ (Consumer.server p).reads s reply, touch.Inside)
      Server.start [.frame rxf,.flag true,.done]) : 26 ≤ rxf.length := by
  have arrives : Server.next p Server.start (.frame rxf) = some {Server.start with pc := .acquire rxf} := by
    change some (if rxf = [] then _ else _) = _
    rw [if_neg filled]
  have copies := (inside.2 _ arrives).2 {Server.start with pc := .copy rxf} rfl
  exact copies.1 ⟨14,12,rxf.length⟩ (List.mem_singleton_self _)

private theorem rxsink_touches_short (cfg : TestConfig) (filled : rxf ≠ [])
    (inside : Along (Consumer.rxsink cfg).next (fun s reply => ∀ touch ∈ (Consumer.rxsink cfg).reads s reply, touch.Inside)
      RxSink.start [.time 0,.frame rxf]) : 6 ≤ rxf.length := by
  have polls := inside.2 {RxSink.start with pc := .poll} rfl
  refine polls.1 ⟨0,6,rxf.length⟩ ?_
  change _ ∈ if rxf ≠ [] then rxsinkTouches rxf else []
  rw [if_pos filled]
  exact List.mem_singleton_self _

end Short

/-- Whatever the network delivers, the reads of a loop stay inside the frames of every run
exactly if no frame is shorter than the loop needs: 26 bytes for the reflector, 6 for the
sink, any length for the other two. The writes to the template stay inside exactly if the
configured size holds the header, which only the client checks. No other byte of a frame has
an effect on the calls of the loop. -/
theorem frame_access_iff (c : Consumer) (delivers : List Byte → Prop) :
    ((∀ (s : c.State) (replies : List Reply), c.Starts s → (∀ reply ∈ replies, Delivered delivers reply) →
        Along c.next (fun s reply => ∀ touch ∈ c.reads s reply, touch.Inside) s replies) ↔
      ∀ rxf, delivers rxf → rxf ≠ [] → c.needs ≤ rxf.length) ∧
    ((∀ touch ∈ c.templateWrites, touch.Inside) ↔ c.room ≤ c.cfg.frameSize.toNat) ∧
    ∀ (s : c.State) (replies others : List Reply), List.Forall₂ (AlikeReply c) replies others →
      (run c.next s replies).map c.call = (run c.next s others).map c.call := by
  refine ⟨⟨fun inside rxf delivered filled => ?_,fun enough s replies starts received => ?_⟩,templateWrites_inside_iff c,
    fun s _ _ => calls_of_alike s⟩
  · have only : Delivered delivers (.frame rxf) := by
      rintro other ⟨⟩ _
      exact delivered
    cases c with
    | server p =>
      apply server_touches_short p filled (inside Server.start _ rfl ?_)
      simp only [List.forall_mem_cons]
      exact ⟨only,nofun,nofun,nofun⟩
    | rxsink cfg =>
      apply rxsink_touches_short cfg filled (inside RxSink.start _ rfl ?_)
      simp only [List.forall_mem_cons]
      exact ⟨nofun,only,nofun⟩
    | _ => exact Nat.zero_le _
  · exact reads_inside enough starts received

def labConfig (frameSize : BitVec 32) : TestConfig := ⟨0x88B5,frameSize,0,0,.localAddress 1,.localAddress 2⟩

theorem frame_access_iff_lab :
    (∀ (s : Server.State) (replies : List Reply), s = Server.start →
      (∀ reply ∈ replies, Delivered (fun rxf => rxf.length = 64) reply) →
      Along (Server.next ⟨labConfig 64,false⟩) (fun s _ => ∀ touch ∈ Consumer.serverReads s, touch.Inside) s replies) ∧
    (∀ touch ∈ (Consumer.server ⟨labConfig 64,false⟩).templateWrites, touch.Inside) := by
  have exactly := frame_access_iff (.server ⟨labConfig 64,false⟩) (fun rxf => rxf.length = 64)
  refine ⟨exactly.1.mpr (fun rxf size _ => ?_),exactly.2.1.mpr (by decide)⟩
  change 26 ≤ rxf.length
  rw [size]
  decide

/-- A request of 20 bytes is copied up to its byte 26, a frame of 5 bytes is compared up to
its byte 6, and a frame size of 10 leaves no room for the header. -/
theorem frame_access_outside :
    (¬ Along (Server.next ⟨labConfig 64,false⟩) (fun s _ => ∀ touch ∈ Consumer.serverReads s, touch.Inside) Server.start
      [.frame (List.replicate 20 0),.flag true,.done]) ∧
    (¬ Along (RxSink.next (labConfig 64)) (fun s reply => ∀ touch ∈ Consumer.rxsinkReads s reply, touch.Inside)
      RxSink.start [.time 0,.frame (List.replicate 5 0)]) ∧
    (¬ ∀ touch ∈ (Consumer.server ⟨labConfig 10,false⟩).templateWrites, touch.Inside) ∧
    (¬ ∀ touch ∈ (Consumer.txgen ⟨labConfig 10,1⟩).templateWrites, touch.Inside) := by
  refine ⟨?_,?_,?_,?_⟩
  · decide
  · decide
  · decide
  · decide

end Abtrda3.FrameAccess
