import Abtrda3.PingPong
import Abtrda3.SingleRecorder
import Abtrda3.TxThread

/-! The one-way frame between `TxThread::run` and `RxThread::run`. The sender only touches
the number and the stamp of a slot, so the header of the template is on every frame of every
run, whichever slots the transport hands out; the receiver's two overlapping eight-byte loads
compare exactly that header. -/
namespace Abtrda3.OneWayFrame
open Abtrda3.Application Abtrda3.PingPong Abtrda3.Semantics.Machine

def decoded (s : SingleRecorder.State) : Option (BitVec 32 × BitVec 64) :=
  match s.pc with
  | .releaseTake seqNet t0 _ => some (htonl seqNet,t0)
  | _ => none

def Decodes (cfg : TestConfig) (frame : List Byte) (seq : BitVec 32) (stamp : BitVec 64) : Prop :=
  ∀ s t1 padding, decoded (SingleRecorder.examine cfg s (frame ++ padding) t1) = some (seq,stamp)

def build (slot : List Byte) (seq : BitVec 32) (stamp : BitVec 64) : List Byte :=
  storeAt (storeAt slot kOffSeq (storeU32 (htonl seq))) kOffTxStamp (storeBytes 8 stamp.toNat)

section Header

private theorem header_eq (cfg : TestConfig) :
    SingleRecorder.header cfg = headerBytes cfg.serverMac cfg.clientMac cfg.etherType ++ [0,0] := by
  simp [SingleRecorder.header,headerBytes]

private theorem xor_or_eq_zero_iff {width : Nat} (a b c d : BitVec width) :
    (a ^^^ b) ||| (c ^^^ d) = 0 ↔ a = b ∧ c = d := by
  constructor
  · intro zero
    have bits (i : Nat) : ((a.getLsbD i ^^ b.getLsbD i) || (c.getLsbD i ^^ d.getLsbD i)) = false := by
      have bit := congrArg (fun word => word.getLsbD i) zero
      simpa using bit
    constructor <;> apply BitVec.eq_of_getLsbD_eq <;> intro i _
    · simpa using (Bool.or_eq_false_iff.mp (bits i)).1
    · simpa using (Bool.or_eq_false_iff.mp (bits i)).2
  · rintro ⟨rfl,rfl⟩
    simp

private theorem loadU64_eq_iff {first second : List Byte} {offset : Nat} :
    loadU64 first offset = loadU64 second offset ↔ ∀ i < 8, byteAt first (offset + i) = byteAt second (offset + i) := by
  have fits (frame : List Byte) : loadBytes frame offset 8 < 2^64 := loadBytes_lt frame offset 8
  constructor
  · intro same
    have words := congrArg BitVec.toNat same
    unfold loadU64 at words
    rw [BitVec.toNat_ofNat,BitVec.toNat_ofNat,Nat.mod_eq_of_lt (fits first),Nat.mod_eq_of_lt (fits second)] at words
    exact byteAt_of_loadBytes words
  · intro same
    unfold loadU64
    rw [loadBytes_congr same]

private theorem take_eq_iff {frame head : List Byte} (inside : head.length ≤ frame.length) :
    frame.take head.length = head ↔ ∀ i < head.length, byteAt frame i = byteAt head i := by
  have size : (frame.take head.length).length = head.length := List.length_take_of_le inside
  constructor
  · intro same i below
    unfold byteAt
    rw [← same,List.getElem?_take_of_lt (size ▸ below)]
  · intro same
    apply List.ext_getElem size
    intro i _ below
    have byte := same i below
    unfold byteAt at byte
    rw [List.getElem?_eq_getElem below,List.getElem?_eq_getElem (Nat.lt_of_lt_of_le below inside)] at byte
    rw [List.getElem_take]
    exact BitVec.eq_of_toNat_eq byte

/-- The loads at 0 and at 6 cover bytes 0 to 13, and byte 14 of the header is out of both. -/
theorem foreign_eq_false_iff {cfg : TestConfig} {packet : List Byte} (inside : kOffSeq ≤ packet.length) :
    SingleRecorder.foreign cfg packet = false ↔
      packet.take kOffSeq = headerBytes cfg.serverMac cfg.clientMac cfg.etherType := by
  have size := headerBytes_length cfg.serverMac cfg.clientMac cfg.etherType
  have covered (i : Nat) (below : i < kOffSeq) : byteAt (SingleRecorder.header cfg) i =
      byteAt (headerBytes cfg.serverMac cfg.clientMac cfg.etherType) i := by
    unfold byteAt
    rw [header_eq,List.getElem?_append_left (size ▸ below)]
  have bytes := take_eq_iff (size ▸ inside : (headerBytes cfg.serverMac cfg.clientMac cfg.etherType).length ≤ packet.length)
  rw [size] at bytes
  rw [bytes]
  unfold SingleRecorder.foreign SingleRecorder.expHdrLo SingleRecorder.expHdrHi
  rw [decide_eq_false_iff_not,not_not,xor_or_eq_zero_iff,loadU64_eq_iff,loadU64_eq_iff]
  constructor
  · rintro ⟨low,high⟩ i below
    rw [← covered i below]
    by_cases first : i < 8
    · have byte := low i first
      rwa [show kOffDstMac + i = i from Nat.zero_add i] at byte
    · have byte := high (i - 6) (by change i < 14 at below; omega)
      rwa [show kOffSrcMac + (i - 6) = i by change 6 + (i - 6) = i; omega] at byte
  · intro same
    constructor
    · intro i below
      rw [show kOffDstMac + i = i from Nat.zero_add i,covered i (by change i < 14; omega)]
      exact same i (by change i < 14; omega)
    · intro i below
      rw [covered (kOffSrcMac + i) (by change 6 + i < 14; omega)]
      exact same _ (by change 6 + i < 14; omega)

end Header

section Frame
variable {cfg : TestConfig}

structure Headed (cfg : TestConfig) (frame : List Byte) : Prop where
  size : frame.length = cfg.frameSize.toNat
  head : frame.take kOffSeq = headerBytes cfg.serverMac cfg.clientMac cfg.etherType

structure Carries (cfg : TestConfig) (seq : BitVec 32) (stamp : BitVec 64) (frame : List Byte) : Prop extends
    Headed cfg frame where
  seq : loadU32 frame kOffSeq = htonl seq
  stamp : loadU64 frame kOffTxStamp = stamp

theorem Headed.tmpl (long : kFrameMinBytes ≤ cfg.frameSize.toNat) : Headed cfg (TxThread.tmpl cfg) := by
  have head := headerBytes_length cfg.serverMac cfg.clientMac cfg.etherType
  change 26 ≤ _ at long
  unfold TxThread.tmpl
  rw [template_eq]
  constructor
  · rw [List.length_append,head,List.length_replicate]
    change 14 + (_ - 14) = _
    omega
  · exact List.take_left' head

theorem Headed.store {frame bytes : List Byte} {offset : Nat} (headed : Headed cfg frame)
    (long : kFrameMinBytes ≤ cfg.frameSize.toNat) (after : kOffSeq ≤ offset)
    (inside : offset + bytes.length ≤ kFrameMinBytes) : Headed cfg (storeAt frame offset bytes) := by
  have room : offset + bytes.length ≤ frame.length := by
    rw [headed.size]
    exact inside.trans long
  constructor
  · rw [storeAt_length room,headed.size]
  · rw [storeAt_take _ after (by omega),headed.head]

theorem Headed.within {frame : List Byte} (headed : Headed cfg frame) (long : kFrameMinBytes ≤ cfg.frameSize.toNat)
    {offset : Nat} (inside : offset ≤ kFrameMinBytes) : offset ≤ frame.length := by
  rw [headed.size]
  exact inside.trans long

private theorem loadU32_stamped {frame : List Byte} (bytes : List Byte) (inside : kOffTxStamp ≤ frame.length) :
    loadU32 (storeAt frame kOffTxStamp bytes) kOffSeq = loadU32 frame kOffSeq := by
  unfold loadU32
  rw [loadBytes_storeAt_before bytes (by decide) inside]

theorem Headed.build {slot : List Byte} (headed : Headed cfg slot) (long : kFrameMinBytes ≤ cfg.frameSize.toNat)
    (seq : BitVec 32) (stamp : BitVec 64) : Carries cfg seq stamp (build slot seq stamp) := by
  have numbered : Headed cfg (storeAt slot kOffSeq (storeU32 (htonl seq))) :=
    headed.store long (Nat.le_refl _) (by rw [storeU32_length]; decide)
  have stamped : Headed cfg (OneWayFrame.build slot seq stamp) :=
    numbered.store long (by decide) (by rw [storeBytes_length]; decide)
  constructor
  · exact stamped
  · unfold OneWayFrame.build
    rw [loadU32_stamped _ (numbered.within long (by decide)),loadU32_stored _ (headed.within long (by decide))]
  · exact loadU64_stored stamp (numbered.within long (by decide))

theorem Carries.decodes {seq : BitVec 32} {stamp : BitVec 64} {frame : List Byte} (carries : Carries cfg seq stamp frame)
    (long : kFrameMinBytes ≤ cfg.frameSize.toNat) : Decodes cfg frame seq stamp := by
  intro s t1 padding
  have size : kFrameMinBytes ≤ frame.length := carries.within long (Nat.le_refl _)
  have whole : ¬(frame ++ padding).length < kFrameMinBytes := by
    rw [List.length_append]
    omega
  have ours : SingleRecorder.foreign cfg (frame ++ padding) = false := by
    apply (foreign_eq_false_iff (by change 14 ≤ _; change ¬ _ < 26 at whole; omega)).mpr
    rw [List.take_append_of_le_length (carries.within long (by decide)),carries.head]
  have number : loadU32 (frame ++ padding) kOffSeq = htonl seq := by
    rw [← carries.seq,loadU32,loadBytes_append_left _ _ (by change 14 + 4 ≤ _; change 26 ≤ _ at size; omega)]
    rfl
  have time : loadU64 (frame ++ padding) kOffTxStamp = stamp := by
    rw [← carries.stamp,loadU64,loadBytes_append_left _ _ size]
    rfl
  unfold SingleRecorder.examine
  rw [if_neg whole,ours,if_neg Bool.false_ne_true,number,time]
  change some (htonl (htonl seq),stamp) = _
  rw [htonl_htonl]

end Frame

structure Sent where
  seq : BitVec 32
  stamp : BitVec 64
  frame : List Byte
  deriving DecidableEq, Repr

structure World where
  thread : TxThread.State
  ring : Ring
  sent : List Sent

def start (p : TxThread.Setting) (clock : Timespec) : World :=
  ⟨TxThread.start p clock,.prefilled (TxThread.tmpl p.cfg),[]⟩

inductive Choice
  | answer (reply : Reply)
  | slot (free : Option Nat)
  deriving DecidableEq, Repr

def resume (p : TxThread.Setting) (w : World) (reply : Reply) : Option World :=
  (TxThread.next p w.thread reply).map fun thread => {w with thread := thread}

def step (p : TxThread.Setting) (w : World) (choice : Choice) : Option World :=
  match TxThread.call p w.thread, choice with
  | some (.acquire _), .slot free => resume p {w with ring := w.ring.acquire free} (.flag free.isSome)
  | some (.store offset bytes), .answer _ => resume p {w with ring := w.ring.store offset bytes} .done
  | some .commit, .answer _ =>
    resume p {w with sent := w.sent ++ [⟨w.thread.seq,w.thread.t0,w.ring.frame⟩]} .done
  | some (.acquire _), .answer _ => none
  | some _, .answer reply => resume p w reply
  | _, _ => none

def numbered : TxThread.Pc → Bool
  | .sendTime | .storeStamp | .commit => true
  | _ => false

inductive Moves (w : World) : World → Prop
  | aside {thread : TxThread.State} (outside : numbered thread.pc = false) : Moves w {w with thread := thread}
  | acquire (free : Option Nat) {thread : TxThread.State} (outside : numbered thread.pc = false) :
      Moves w {w with thread := thread, ring := w.ring.acquire free}
  | number : Moves w {w with thread := {w.thread with pc := .sendTime},
                             ring := w.ring.store kOffSeq (storeU32 (htonl w.thread.seq))}
  | time (here : w.thread.pc = .sendTime) (t0 : BitVec 64) :
      Moves w {w with thread := {w.thread with t0 := t0, pc := .storeStamp}}
  | stamp (here : w.thread.pc = .storeStamp) :
      Moves w {w with thread := {w.thread with pc := .commit},
                      ring := w.ring.store kOffTxStamp (storeBytes 8 w.thread.t0.toNat)}
  | commit (here : w.thread.pc = .commit) {thread : TxThread.State} (outside : numbered thread.pc = false) :
      Moves w {w with thread := thread, sent := w.sent ++ [⟨w.thread.seq,w.thread.t0,w.ring.frame⟩]}

theorem step_moves {p : TxThread.Setting} {w t : World} {choice : Choice} (moved : step p w choice = some t) :
    Moves w t := by
  obtain ⟨⟨pc,first,seq,t0,nextSend,txDone⟩,ring,sent⟩ := w
  cases pc <;> cases choice <;>
    simp only [step,TxThread.call,resume,TxThread.next,Reply.time?,Reply.flag?,Reply.done?,Option.map_some,
      Option.some.injEq,Option.map_eq_some_iff,reduceCtorEq] at moved
  case acquire.slot free =>
    subst moved
    exact .acquire free (by cases free <;> rfl)
  case storeSeq.answer =>
    subst moved
    exact .number
  case storeStamp.answer =>
    subst moved
    exact .stamp rfl
  case commit.answer =>
    subst moved
    exact .commit rfl rfl
  case sendTime.answer =>
    obtain ⟨_,⟨now,_,rfl⟩,rfl⟩ := moved
    exact .time rfl now
  case loopTime.answer =>
    obtain ⟨_,⟨now,_,rfl⟩,rfl⟩ := moved
    exact .aside (by split_ifs <;> rfl)
  case stopCheck.answer =>
    obtain ⟨_,⟨stop,_,rfl⟩,rfl⟩ := moved
    exact .aside (by split_ifs <;> rfl)
  all_goals
    obtain ⟨_,⟨_,_,rfl⟩,rfl⟩ := moved
    exact .aside rfl

structure Inv (cfg : TestConfig) (w : World) : Prop where
  slots : ∀ slot, Headed cfg (w.ring.slots slot)
  seq : numbered w.thread.pc = true → loadU32 w.ring.frame kOffSeq = htonl w.thread.seq
  stamp : w.thread.pc = .commit → loadU64 w.ring.frame kOffTxStamp = w.thread.t0
  sent : ∀ entry ∈ w.sent, Carries cfg entry.seq entry.stamp entry.frame

theorem Inv.start {p : TxThread.Setting} (long : kFrameMinBytes ≤ p.cfg.frameSize.toNat) (clock : Timespec) :
    Inv p.cfg (start p clock) := by
  have waiting : TxThread.start p clock = ⟨.startTime,0,0,0,clock,false⟩ := if_neg (Nat.not_lt.mpr long)
  constructor
  · intro slot
    exact Headed.tmpl long
  · unfold OneWayFrame.start
    rw [waiting]
    exact fun filled => nomatch filled
  · unfold OneWayFrame.start
    rw [waiting]
    exact fun here => nomatch here
  · intro entry member
    exact nomatch member

theorem Inv.outside {cfg : TestConfig} {w : World} (slots : ∀ slot, Headed cfg (w.ring.slots slot))
    (outside : numbered w.thread.pc = false) (sent : ∀ entry ∈ w.sent, Carries cfg entry.seq entry.stamp entry.frame) :
    Inv cfg w := by
  refine ⟨slots,fun filled => ?_,fun here => ?_,sent⟩
  · rw [outside] at filled
    contradiction
  · rw [here] at outside
    contradiction

theorem Inv.moves {cfg : TestConfig} {w t : World} (long : kFrameMinBytes ≤ cfg.frameSize.toNat) (inv : Inv cfg w)
    (moved : Moves w t) : Inv cfg t := by
  have room {offset : Nat} (inside : offset ≤ kFrameMinBytes) : offset ≤ w.ring.frame.length :=
    (inv.slots w.ring.acquired).within long inside
  cases moved with
  | aside outside => exact Inv.outside inv.slots outside inv.sent
  | acquire free outside => exact Inv.outside inv.slots outside inv.sent
  | number =>
    refine ⟨?_,fun _ => ?_,(fun here => nomatch here),inv.sent⟩
    · exact Ring.slots_store inv.slots ((inv.slots _).store long (Nat.le_refl _) (by rw [storeU32_length]; decide))
    · change loadU32 (w.ring.store _ _).frame _ = _
      rw [Ring.frame_store,loadU32_stored _ (room (by decide))]
  | time here t0 => exact ⟨inv.slots,fun _ => inv.seq (by simp [here,numbered]),(fun here => nomatch here),inv.sent⟩
  | stamp here =>
    refine ⟨?_,fun _ => ?_,fun _ => ?_,inv.sent⟩
    · exact Ring.slots_store inv.slots ((inv.slots _).store long (by decide) (by rw [storeBytes_length]; decide))
    · change loadU32 (w.ring.store _ _).frame _ = _
      rw [Ring.frame_store,loadU32_stamped _ (room (by decide)),inv.seq (by simp [here,numbered])]
    · change loadU64 (w.ring.store _ _).frame _ = _
      rw [Ring.frame_store,loadU64_stored _ (room (by decide))]
  | commit here outside =>
    refine Inv.outside inv.slots outside (fun entry member => ?_)
    rcases List.mem_append.mp member with old | new
    · exact inv.sent entry old
    · rw [List.mem_singleton.mp new]
      exact ⟨inv.slots _,inv.seq (by simp [here,numbered]),inv.stamp here⟩

theorem Inv.run {p : TxThread.Setting} (long : kFrameMinBytes ≤ p.cfg.frameSize.toNat) {clock : Timespec}
    {choices : List Choice} {w : World} (ran : run (step p) (OneWayFrame.start p clock) choices = some w) : Inv p.cfg w :=
  reachable_invariant (Inv p.cfg) (fun _ _ _ inv moved => inv.moves long (step_moves moved)) (Inv.start long clock) ran

/-- Every number and stamp the sender writes are what the receiver reads, on the first use
of a slot and in every frame of every run. The receiver's test on two overlapping words is
the comparison of the first 14 bytes. -/
theorem oneWayFrame_exact (p : TxThread.Setting) (long : kFrameMinBytes ≤ p.cfg.frameSize.toNat) :
    (∀ seq stamp, Decodes p.cfg (build (TxThread.tmpl p.cfg) seq stamp) seq stamp) ∧
    (∀ clock choices w, run (step p) (start p clock) choices = some w →
      ∀ entry ∈ w.sent, entry.frame.length = p.cfg.frameSize.toNat ∧ Decodes p.cfg entry.frame entry.seq entry.stamp) ∧
    (∀ packet : List Byte, kFrameMinBytes ≤ packet.length →
      (SingleRecorder.foreign p.cfg packet = false ↔ packet.take 14 = p.cfg.serverMac.bytes ++ p.cfg.clientMac.bytes ++
        [(p.cfg.etherType >>> 8).setWidth 8,(p.cfg.etherType &&& 0xFF).setWidth 8])) := by
  refine ⟨fun seq stamp => ?_,fun clock choices w ran entry member => ?_,fun packet size => ?_⟩
  · exact ((Headed.tmpl long).build long seq stamp).decodes long
  · have carries := (Inv.run long ran).sent entry member
    exact ⟨carries.size,carries.decodes long⟩
  · exact foreign_eq_false_iff (Nat.le_trans (by decide) size)

def labSetting : TxThread.Setting := ⟨⟨0x88B5,64,0,0,.localAddress 1,.localAddress 2⟩,100⟩

def labChoices : List Choice :=
  [.answer (.time 5),.answer (.time 6),.answer (.flag false),.slot (some 3),.answer .done,.answer (.time 7),.answer .done,
    .answer .done]

theorem oneWayFrame_exact_lab : kFrameMinBytes ≤ labSetting.cfg.frameSize.toNat ∧
    ∃ w, run (step labSetting) (start labSetting ⟨0,0⟩) labChoices = some w ∧
      ∃ frame, w.sent = [⟨0,7,frame⟩] ∧ Decodes labSetting.cfg frame 0 7 := by
  have long : kFrameMinBytes ≤ labSetting.cfg.frameSize.toNat := by decide
  refine ⟨long,_,rfl,_,rfl,?_⟩
  exact ((oneWayFrame_exact labSetting long).2.1 ⟨0,0⟩ labChoices _ rfl ⟨0,7,_⟩ (List.mem_singleton.mpr rfl)).2

end Abtrda3.OneWayFrame
