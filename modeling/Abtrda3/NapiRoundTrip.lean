import Abtrda3.Netlink

/-! The NAPI parameters on the wire. An attribute list is a relation between attributes and
bytes, apart from the code that writes and the code that reads it: `setBusyPoll` writes one
with `putAttr`, and the walk of `getBusyPoll` reads the three parameters out of any reply
that carries them. -/
namespace Abtrda3.NapiRoundTrip
open Abtrda3.Application Abtrda3.Netlink Abtrda3.Semantics Abtrda3.Semantics.Loop

/-- A well-formed attribute: its length fits the 16 bits of `nla_len`. -/
structure Attribute where
  type : BitVec 16
  payload : List Byte
  short : NLA_HDRLEN + payload.length < 65536

namespace Attribute

def len (a : Attribute) : Nat := NLA_HDRLEN + a.payload.length

def bytes (a : Attribute) : List Byte := storeBytes 2 a.len ++ (storeBytes 2 a.type.toNat ++ a.payload)

def kind (a : Attribute) : BitVec 16 := a.type &&& NLA_TYPE_MASK

def uint (a : Attribute) : BitVec 64 := BitVec.ofNat 64 (loadBytes a.payload 0 (readUintWidth a.len))

theorem bytes_length (a : Attribute) : a.bytes.length = a.len := by
  unfold bytes len
  rw [List.length_append,List.length_append,storeBytes_length,storeBytes_length,nlaHdr]
  omega

end Attribute

/-- The bytes of an attribute list, each attribute but the last padded to a multiple of
four; the padding may hold anything. -/
inductive Encodes : List Attribute → List Byte → Prop
  | nil : Encodes [] []
  | last (a : Attribute) (pad : List Byte) (short : a.len + pad.length ≤ align a.len) : Encodes [a] (a.bytes ++ pad)
  | cons (a : Attribute) (pad : List Byte) (rest : List Attribute) (tail : List Byte)
      (padded : a.len + pad.length = align a.len) (encoded : Encodes rest tail) :
      Encodes (a::rest) (a.bytes ++ (pad ++ tail))

def Holds (payload : List Byte) (value : Nat) : Prop :=
  (payload = storeBytes 4 value ∧ value < 2^32) ∨ (payload = storeBytes 8 value ∧ value < 2^64)

def Carries (attributes : List Attribute) (kind : BitVec 16) (value : Nat) : Prop :=
  ∃ a, attributes.filter (·.kind = kind) = [a] ∧ Holds a.payload value

/-- A reply of the family: flags, sequence number, port and the generic header are of no
interest to the reader. -/
structure Reply (family : BitVec 16) where
  control : List Byte
  controlTen : control.length = 10
  genl : List Byte
  genlFour : genl.length = 4
  attributes : List Attribute
  body : List Byte
  encoded : Encodes attributes body
  long : 20 + body.length < 2^32

def Reply.bytes {family : BitVec 16} (reply : Reply family) : List Byte :=
  storeBytes 4 (20 + reply.body.length) ++ (storeBytes 2 family.toNat ++ (reply.control ++ (reply.genl ++ reply.body)))

theorem Reply.bytes_length {family : BitVec 16} (reply : Reply family) : reply.bytes.length = 20 + reply.body.length := by
  unfold Reply.bytes
  simp only [List.length_append,storeBytes_length,reply.controlTen,reply.genlFour]
  omega

def accept (out : NapiParams) (a : Attribute) : NapiParams :=
  if a.kind = kAttrNapiDeferHardIrqs then {out with deferHardIrqs := a.uint.setWidth 32}
  else if a.kind = kAttrNapiGroFlushTimeout then {out with groFlushNs := a.uint}
  else if a.kind = kAttrNapiIrqSuspend then {out with irqSuspendNs := a.uint}
  else out

theorem loadBytes_at (before : List Byte) (width value : Nat) (after : List Byte) (bound : value < 256^width) :
    loadBytes (before ++ (storeBytes width value ++ after)) before.length width = value := by
  have read := loadBytes_append before (storeBytes width value ++ after) 0 width
  rwa [Nat.add_zero,loadBytes_storeBytes,Nat.mod_eq_of_lt bound] at read

section reading

variable {size : Nat} {stack : ByteMemory} {bytes : List Byte}

theorem load_recv {address width : Nat} (inside : address + width ≤ bytes.length) (held : address + width ≤ size) :
    load (recv size stack bytes).rbuf address width = loadBytes bytes address width := by
  unfold load
  apply loadBytes_congr
  intro i below
  have here : address + i < bytes.length := by omega
  have kept : address + i < size := by omega
  unfold byteAt recv
  rw [Nat.zero_add,ByteMemory.read_getElem? _ below]
  simp [ByteMemory.write,List.getElem?_take_of_lt kept,List.getElem?_eq_getElem here]

variable {before after : List Byte} {a : Attribute}

theorem nlaLen_recv (fits : bytes.length ≤ size)
    (same : bytes = before ++ (a.bytes ++ after)) : nlaLen (recv size stack bytes).rbuf before.length = a.len := by
  have total := congrArg List.length same
  rw [List.length_append,List.length_append,a.bytes_length] at total
  have header : NLA_HDRLEN ≤ a.len := Nat.le_add_right _ _
  rw [nlaHdr] at header
  unfold nlaLen
  rw [load_recv (by omega) (by omega),same,Attribute.bytes,List.append_assoc]
  exact loadBytes_at before 2 a.len _ a.short

private theorem nlaType_recv (fits : bytes.length ≤ size)
    (same : bytes = before ++ (a.bytes ++ after)) : nlaType (recv size stack bytes).rbuf before.length = a.type := by
  have total := congrArg List.length same
  rw [List.length_append,List.length_append,a.bytes_length] at total
  have header : NLA_HDRLEN ≤ a.len := Nat.le_add_right _ _
  rw [nlaHdr] at header
  have shifted : bytes = (before ++ storeBytes 2 a.len) ++ (storeBytes 2 a.type.toNat ++ (a.payload ++ after)) := by
    rw [same,Attribute.bytes]
    simp only [List.append_assoc]
  have place : (before ++ storeBytes 2 a.len).length = before.length + 2 := by
    rw [List.length_append,storeBytes_length]
  unfold nlaType
  rw [load_recv (by omega) (by omega),shifted,← place,loadBytes_at _ 2 _ _ a.type.isLt,BitVec.ofNat_toNat,
    BitVec.setWidth_eq]

private theorem readUint_recv (fits : bytes.length ≤ size)
    (same : bytes = before ++ (a.bytes ++ after)) :
    readUint [(Netlink.Field.mk NLA_HDRLEN (readUintWidth a.len)).value (recv size stack bytes).rbuf before.length] = a.uint := by
  have total := congrArg List.length same
  rw [List.length_append,List.length_append,a.bytes_length] at total
  have header : NLA_HDRLEN ≤ a.len := Nat.le_add_right _ _
  have width := readUintWidth_fits header a.short
  have shifted : bytes = (before ++ storeBytes 2 a.len ++ storeBytes 2 a.type.toNat) ++ (a.payload ++ after) := by
    rw [same,Attribute.bytes]
    simp only [List.append_assoc]
  have place : (before ++ storeBytes 2 a.len ++ storeBytes 2 a.type.toNat).length = before.length + NLA_HDRLEN := by
    rw [List.length_append,List.length_append,storeBytes_length,storeBytes_length,nlaHdr]
  have payload : readUintWidth a.len ≤ a.payload.length := by
    have whole : a.len = NLA_HDRLEN + a.payload.length := rfl
    omega
  unfold readUint Netlink.Field.value Attribute.uint
  dsimp only [List.headD_cons]
  rw [load_recv (by omega) (by omega)]
  rw [shifted,← place]
  have read := loadBytes_append (before ++ storeBytes 2 a.len ++ storeBytes 2 a.type.toNat) (a.payload ++ after) 0
    (readUintWidth a.len)
  rw [Nat.add_zero] at read
  rw [read,loadBytes_append_left _ _ (by omega)]

private theorem taken_recv (family : BitVec 16) (fits : bytes.length ≤ size)
    (same : bytes = before ++ (a.bytes ++ after)) (out : NapiParams) :
    taken (getBusyPoll family) (recv size stack bytes) before.length out = accept out a := by
  unfold taken
  dsimp only [getBusyPoll]
  rw [nlaType_recv fits same,nlaLen_recv fits same]
  cases wanted : napiAttr a.type with
  | true =>
    rw [if_pos rfl,List.map_singleton,readUint_recv fits same]
    rfl
  | false =>
    have other : a.kind ≠ kAttrNapiDeferHardIrqs ∧ a.kind ≠ kAttrNapiGroFlushTimeout ∧ a.kind ≠ kAttrNapiIrqSuspend := by
      simpa [napiAttr,Attribute.kind] using wanted
    unfold accept
    rw [if_neg other.1,if_neg other.2.1,if_neg other.2.2]
    dsimp only [Attribute.kind] at other
    rw [if_neg other.1,if_neg other.2.1,if_neg other.2.2]

private theorem fitting_recv (fits : bytes.length ≤ size)
    (same : bytes = before ++ (a.bytes ++ after)) :
    Fitting (recv size stack bytes) before.length ((a.bytes ++ after).length : Nat) := by
  have header : NLA_HDRLEN ≤ a.len := Nat.le_add_right _ _
  constructor
  · rw [List.length_append,a.bytes_length]
    omega
  · rw [nlaLen_recv fits same,List.length_append,a.bytes_length]
    omega

theorem passes_attribute (family : BitVec 16) (fits : bytes.length ≤ size)
    (same : bytes = before ++ (a.bytes ++ after)) (rh : Nat) (n : Int) (out : NapiParams) (reads : List Access) :
    ∃ later, step (getBusyPoll family) (recv size stack bytes)
        ⟨.nlattr rh n before.length ((a.bytes ++ after).length : Nat),out,reads⟩ =
      some ⟨.nlattr rh n (before.length + align a.len) (((a.bytes ++ after).length : Nat) - align a.len),
        accept out a,later⟩ := by
  have moved : step (getBusyPoll family) (recv size stack bytes) ⟨.nlattr rh n before.length _,out,reads⟩ = _ :=
    step_next (fitting_recv fits same) rfl out reads
  rw [nlaLen_recv fits same,taken_recv family fits same] at moved
  exact ⟨_,moved⟩

theorem walks_attributes (family : BitVec 16) (fits : bytes.length ≤ size) {attributes : List Attribute} {body : List Byte}
    (encoded : Encodes attributes body) (before : List Byte) (same : bytes = before ++ body) (rh : Nat) (n : Int)
    (out : NapiParams) (reads : List Access) :
    ∃ attr rem later, rem < (NLA_HDRLEN : Int) ∧
      Reaches (step (getBusyPoll family) (recv size stack bytes))
        ⟨.nlattr rh n before.length (body.length : Nat),out,reads⟩
          ⟨.nlattr rh n attr rem,attributes.foldl accept out,later⟩ := by
  induction encoded generalizing before out reads with
  | nil => exact ⟨_,_,reads,Int.ofNat_lt.mpr (Nat.succ_pos 3),Reaches.refl _⟩
  | last a pad short =>
    obtain ⟨later,moved⟩ := passes_attribute family fits same rh n out reads
    refine ⟨_,_,later,?_,Reaches.one moved⟩
    rw [List.length_append,a.bytes_length,nlaHdr]
    omega
  | cons a pad rest tail padded encoded ih =>
    obtain ⟨middle,moved⟩ := passes_attribute family fits same rh n out reads
    have ahead : bytes = (before ++ a.bytes ++ pad) ++ tail := by
      rw [same]
      simp only [List.append_assoc]
    obtain ⟨attr,rem,later,ended,walked⟩ := ih (before ++ a.bytes ++ pad) ahead (accept out a) middle
    refine ⟨attr,rem,later,ended,Reaches.head moved ?_⟩
    have place : (before ++ a.bytes ++ pad).length = before.length + align a.len := by
      rw [List.length_append,List.length_append,a.bytes_length]
      omega
    have left : (tail.length : Int) = ((a.bytes ++ (pad ++ tail)).length : Nat) - align a.len := by
      rw [List.length_append,List.length_append,a.bytes_length]
      omega
    rw [place,left] at walked
    exact walked

end reading

section fold

variable {β : Type} {get : NapiParams → β} {value : Attribute → β} {kind : BitVec 16}

structure Sets (get : NapiParams → β) (kind : BitVec 16) (value : Attribute → β) : Prop where
  here : ∀ out a, a.kind = kind → get (accept out a) = value a
  elsewhere : ∀ out a, a.kind ≠ kind → get (accept out a) = get out

theorem Sets.foldl_none (sets : Sets get kind value) {attributes : List Attribute}
    (none : attributes.filter (·.kind = kind) = []) (out : NapiParams) : get (attributes.foldl accept out) = get out := by
  induction attributes generalizing out with
  | nil => rfl
  | cons a rest ih =>
    rw [List.filter_eq_nil_iff,List.forall_mem_cons] at none
    have other : a.kind ≠ kind := by simpa using none.1
    rw [List.foldl_cons,ih (List.filter_eq_nil_iff.mpr none.2),sets.elsewhere out a other]

theorem Sets.foldl_one (sets : Sets get kind value) {attributes : List Attribute} {a : Attribute}
    (one : attributes.filter (·.kind = kind) = [a]) (out : NapiParams) : get (attributes.foldl accept out) = value a := by
  induction attributes generalizing out with
  | nil => cases one
  | cons first rest ih =>
    by_cases same : first.kind = kind
    · rw [List.filter_cons_of_pos (by simpa using same)] at one
      injection one with head tail
      rw [List.foldl_cons,sets.foldl_none tail,sets.here out first same,head]
    · rw [List.filter_cons_of_neg (by simpa using same)] at one
      rw [List.foldl_cons,ih one]

private theorem sets_deferHardIrqs : Sets (·.deferHardIrqs) kAttrNapiDeferHardIrqs (fun a => a.uint.setWidth 32) := by
  constructor
  · intro out a same
    unfold accept
    rw [if_pos same]
  · intro out a other
    unfold accept
    rw [if_neg other]
    split
    · rfl
    · split <;> rfl

private theorem sets_groFlushNs : Sets (·.groFlushNs) kAttrNapiGroFlushTimeout Attribute.uint := by
  constructor
  · intro out a same
    have other : a.kind ≠ kAttrNapiDeferHardIrqs := by rw [same]; decide
    unfold accept
    rw [if_neg other,if_pos same]
  · intro out a other
    unfold accept
    split
    · rfl
    · split <;> rfl

private theorem sets_irqSuspendNs : Sets (·.irqSuspendNs) kAttrNapiIrqSuspend Attribute.uint := by
  constructor
  · intro out a same
    have first : a.kind ≠ kAttrNapiDeferHardIrqs := by rw [same]; decide
    have second : a.kind ≠ kAttrNapiGroFlushTimeout := by rw [same]; decide
    unfold accept
    rw [if_neg first,if_neg second,if_pos same]
  · intro out a other
    unfold accept
    split
    · rfl
    · split <;> rfl

end fold

theorem uint_of_holds {a : Attribute} {value : Nat} (holds : Holds a.payload value) : a.uint = BitVec.ofNat 64 value := by
  have header : NLA_HDRLEN ≤ a.len := Nat.le_add_right _ _
  have width : (plen a.len).toNat = a.payload.length := by
    rw [plen_toNat header a.short]
    exact Nat.add_sub_cancel_left _ _
  have read (count : Nat) (same : a.payload = storeBytes count value) (bound : value < 256^count) :
      loadBytes a.payload 0 count = value := by
    have stored := loadBytes_storeBytes count value []
    rwa [List.append_nil,← same,Nat.mod_eq_of_lt bound] at stored
  unfold Attribute.uint readUintWidth
  rw [width]
  rcases holds with ⟨same,bound⟩ | ⟨same,bound⟩
  · have four : a.payload.length = 4 := by rw [same,storeBytes_length]
    rw [if_neg (by omega),if_pos (by omega),read 4 same bound]
  · have eight : a.payload.length = 8 := by rw [same,storeBytes_length]
    rw [if_pos (by omega),read 8 same bound]

theorem accepted {attributes : List Attribute} {deferHardIrqs : BitVec 32} {groFlushNs irqSuspendNs : BitVec 64}
    (irqs : Carries attributes kAttrNapiDeferHardIrqs deferHardIrqs.toNat)
    (flush : Carries attributes kAttrNapiGroFlushTimeout groFlushNs.toNat)
    (suspend : Carries attributes kAttrNapiIrqSuspend irqSuspendNs.toNat) (family : BitVec 16) (out : NapiParams) :
    (getBusyPoll family).close (attributes.foldl accept out) = ⟨true,deferHardIrqs,groFlushNs,irqSuspendNs⟩ := by
  obtain ⟨first,oneFirst,holdsFirst⟩ := irqs
  obtain ⟨second,oneSecond,holdsSecond⟩ := flush
  obtain ⟨third,oneThird,holdsThird⟩ := suspend
  have irqsIs := sets_deferHardIrqs.foldl_one oneFirst out
  have flushIs := sets_groFlushNs.foldl_one oneSecond out
  have suspendIs := sets_irqSuspendNs.foldl_one oneThird out
  rw [uint_of_holds holdsFirst] at irqsIs
  rw [uint_of_holds holdsSecond,BitVec.ofNat_toNat,BitVec.setWidth_eq] at flushIs
  rw [uint_of_holds holdsThird,BitVec.ofNat_toNat,BitVec.setWidth_eq] at suspendIs
  have narrow : (BitVec.ofNat 64 deferHardIrqs.toNat).setWidth 32 = deferHardIrqs := by
    apply BitVec.eq_of_toNat_eq
    have bound := deferHardIrqs.isLt
    rw [BitVec.toNat_setWidth,BitVec.toNat_ofNat]
    omega
  rw [narrow] at irqsIs
  dsimp only [getBusyPoll]
  rw [← irqsIs,← flushIs,← suspendIs]

section reply

variable {family : BitVec 16} (reply : Reply family) {size : Nat} (stack : ByteMemory)

theorem nlmsgLen_reply (room : 20 ≤ size) :
    nlmsgLen (recv size stack reply.bytes).rbuf 0 = reply.bytes.length := by
  have total := reply.bytes_length
  unfold nlmsgLen
  rw [load_recv (by omega) (by omega),total]
  exact loadBytes_at [] 4 _ _ reply.long

private theorem nlmsgType_reply (room : 20 ≤ size) : nlmsgType (recv size stack reply.bytes).rbuf 0 = family := by
  have total := reply.bytes_length
  unfold nlmsgType
  rw [load_recv (by omega) (by omega)]
  have read := loadBytes_at (storeBytes 4 (20 + reply.body.length)) 2 family.toNat
    (reply.control ++ (reply.genl ++ reply.body)) family.isLt
  rw [storeBytes_length] at read
  rw [Nat.zero_add]
  unfold Reply.bytes
  rw [read,BitVec.ofNat_toNat,BitVec.setWidth_eq]

private theorem start_reply (room : 20 ≤ size) :
    start NapiParams.unread (recv size stack reply.bytes) = ⟨.nlmsg 0 (min reply.bytes.length size : Nat),.unread,[]⟩ := by
  have total := reply.bytes_length
  unfold start
  rw [if_neg]
  · rfl
  · rw [nlmsgHdr]
    change ¬min reply.bytes.length size < 16
    omega

private theorem whole_reply (room : 20 ≤ size) : Whole (recv size stack reply.bytes) 0 (reply.bytes.length : Nat) := by
  have total := reply.bytes_length
  have len := nlmsgLen_reply reply stack room
  constructor
  · rw [nlmsgHdr]
    omega
  · rw [len,nlmsgHdr]
    omega
  · exact Int.ofNat_le.mpr (Nat.le_of_eq len)

private theorem enters_reply (own : family ≠ NLMSG_ERROR) (room : 20 ≤ size) :
    ∃ reads, step (getBusyPoll family) (recv size stack reply.bytes)
        ⟨.nlmsg 0 (reply.bytes.length : Nat),NapiParams.unread,[]⟩ =
      some ⟨.nlattr 0 (reply.bytes.length : Nat) 20 (reply.body.length : Nat),NapiParams.unread,reads⟩ := by
  have verdict : (getBusyPoll family).verdict family = .walk := by
    dsimp only [getBusyPoll]
    rw [if_neg own,if_neg (not_not.mpr rfl)]
  have rest : ((reply.bytes.length : Nat) : Int) - NLMSG_HDRLEN - GENL_HDRLEN = (reply.body.length : Nat) := by
    rw [reply.bytes_length,nlmsgHdr,genlHdr]
    omega
  rw [step_message_whole (whole_reply reply stack room),nlmsgType_reply reply stack room,verdict]
  dsimp only
  rw [nlmsgLen_reply reply stack room,rest]
  exact ⟨_,rfl⟩

theorem leaves_message {reader : Reader NapiParams} {r : Received size} {rh attr : Nat} {n rem : Int}
    (ended : rem < NLA_HDRLEN)
    (alone : n ≤ nlmsgLen r.rbuf rh) (out : NapiParams) (reads : List Access) :
    Reaches (step reader r) ⟨.nlattr rh n attr rem,out,reads⟩ ⟨.returned,reader.close out,reads⟩ := by
  have drained : step reader r ⟨.nlattr rh n attr rem,out,reads⟩ =
      some ⟨nextMessage r.rbuf rh n,reader.close out,reads⟩ := if_pos ended
  have up := align_ge (nlmsgLen r.rbuf rh)
  have few : n - align (nlmsgLen r.rbuf rh) < NLMSG_HDRLEN := by
    rw [nlmsgHdr]
    omega
  have short : step reader r ⟨nextMessage r.rbuf rh n,reader.close out,reads⟩ = some ⟨.returned,reader.close out,reads⟩ :=
    if_pos few
  exact Reaches.head drained (Reaches.one short)

theorem reads_reply (own : family ≠ NLMSG_ERROR) (room : 20 ≤ size) (fits : reply.bytes.length ≤ size) :
    ∃ reads, Reaches (step (getBusyPoll family) (recv size stack reply.bytes))
      (start NapiParams.unread (recv size stack reply.bytes))
      ⟨.returned,(getBusyPoll family).close (reply.attributes.foldl accept .unread),reads⟩ := by
  obtain ⟨first,entered⟩ := enters_reply reply stack own room
  have same : reply.bytes =
      (storeBytes 4 (20 + reply.body.length) ++ storeBytes 2 family.toNat ++ reply.control ++ reply.genl)
        ++ reply.body := by
    unfold Reply.bytes
    simp only [List.append_assoc]
  have place : (storeBytes 4 (20 + reply.body.length) ++ storeBytes 2 family.toNat ++ reply.control ++
      reply.genl).length = 20 := by
    simp only [List.length_append,storeBytes_length,reply.controlTen,reply.genlFour]
  obtain ⟨attr,rem,reads,ended,walked⟩ :=
    walks_attributes family fits reply.encoded _ same 0 (reply.bytes.length : Nat) .unread first
  rw [place] at walked
  refine ⟨reads,?_⟩
  rw [start_reply reply stack room,Nat.min_eq_left fits]
  have alone := Int.ofNat_le.mpr (Nat.le_of_eq (nlmsgLen_reply reply stack room).symm)
  exact Reaches.head entered (walked.trans (leaves_message ended alone _ _))

theorem drops_long_reply (room : 20 ≤ size) (long : size < reply.bytes.length) :
    ∃ reads, Reaches (step (getBusyPoll family) (recv size stack reply.bytes))
      (start NapiParams.unread (recv size stack reply.bytes)) ⟨.returned,.unread,reads⟩ := by
  have malformed : step (getBusyPoll family) (recv size stack reply.bytes) ⟨.nlmsg 0 (size : Nat),NapiParams.unread,[]⟩ =
      some ⟨.returned,.unread,[⟨0,4,(recv size stack reply.bytes).n⟩]⟩ := by
    unfold step
    dsimp only
    rw [nlmsgLen_reply reply stack room,if_neg (by rw [nlmsgHdr]; omega),if_pos (by omega)]
    rfl
  rw [start_reply reply stack room,Nat.min_eq_right (Nat.le_of_lt long)]
  exact ⟨_,Reaches.one malformed⟩

end reply

structure Message where
  buf : ByteMemory
  off : Nat

def putAttr (m : Message) (type : BitVec 16) (width value : Nat) : Message :=
  let len := (NLA_HDRLEN + width) % 65536
  let buf := m.buf.write (m.off + 2) (storeBytes 2 type.toNat)
  let buf := buf.write m.off (storeBytes 2 len)
  let buf := buf.write (m.off + NLA_HDRLEN) (storeBytes width value)
  ⟨buf,m.off + align len⟩

def kCmdNapiSet : Byte := 14
def NLM_F_REQUEST_ACK : Nat := 5

def setHeader (family : BitVec 16) : Message :=
  let buf : ByteMemory := fun _ => 0
  let buf := buf.write 0 (storeBytes 4 (NLMSG_HDRLEN + GENL_HDRLEN))
  let buf := buf.write 4 (storeBytes 2 family.toNat)
  let buf := buf.write 6 (storeBytes 2 NLM_F_REQUEST_ACK)
  let buf := buf.write 8 (storeBytes 4 2)
  let buf := buf.write 16 [kCmdNapiSet,1]
  ⟨buf,align (NLMSG_HDRLEN + GENL_HDRLEN)⟩

def setBusyPoll (family : BitVec 16) (napiId deferHardIrqs : BitVec 32) (groFlushNs irqSuspendNs : BitVec 64) : List Byte :=
  let m := setHeader family
  let m := putAttr m kAttrNapiId 4 napiId.toNat
  let m := putAttr m kAttrNapiDeferHardIrqs 4 deferHardIrqs.toNat
  let m := putAttr m kAttrNapiGroFlushTimeout 8 groFlushNs.toNat
  let m := putAttr m kAttrNapiIrqSuspend 8 irqSuspendNs.toNat
  (m.buf.write 0 (storeBytes 4 m.off)).read 0 m.off

private theorem storedShort {width : Nat} (value : Nat) (small : width ≤ 8) :
    NLA_HDRLEN + (storeBytes width value).length < 65536 := by
  rw [storeBytes_length,nlaHdr]
  omega

def stored (type : BitVec 16) (width value : Nat) (small : width ≤ 8) : Attribute :=
  ⟨type,storeBytes width value,storedShort value small⟩

theorem stored_len (type : BitVec 16) {width : Nat} (value : Nat) (small : width ≤ 8) :
    (stored type width value small).len = 4 + width := by
  unfold Attribute.len stored
  rw [storeBytes_length,nlaHdr]

private theorem stored_kind (type : BitVec 16) {width : Nat} (value : Nat) (small : width ≤ 8) :
    (stored type width value small).kind = type &&& NLA_TYPE_MASK := rfl

theorem read_stored (memory : ByteMemory) (base width value : Nat) :
    (memory.write base (storeBytes width value)).read base width = storeBytes width value := by
  have same := ByteMemory.read_write_same memory base (storeBytes width value)
  rwa [storeBytes_length] at same

structure Wrote (m : Message) (base : Nat) (bytes : List Byte) : Prop where
  after : base ≤ m.off
  holds : m.buf.read base (m.off - base) = bytes

theorem Wrote.putAttr {m : Message} {base : Nat} {bytes : List Byte} (wrote : Wrote m base bytes) (type : BitVec 16)
    {width : Nat} (value : Nat) (small : width ≤ 8) (whole : width % 4 = 0) :
    Wrote (putAttr m type width value) base (bytes ++ (stored type width value small).bytes) := by
  have after := wrote.after
  have len : (NLA_HDRLEN + width) % 65536 = 4 + width := by rw [nlaHdr]; omega
  have moved : (NapiRoundTrip.putAttr m type width value).off = m.off + (4 + width) := by
    unfold NapiRoundTrip.putAttr align
    dsimp only
    rw [len]
    omega
  constructor
  · omega
  · have size : m.off + (4 + width) - base = m.off - base + (2 + (2 + width)) := by omega
    have place : base + (m.off - base) = m.off := by omega
    rw [moved]
    unfold NapiRoundTrip.putAttr Attribute.bytes
    dsimp only
    rw [len,stored_len,size,ByteMemory.read_append,place,ByteMemory.read_append,ByteMemory.read_append,nlaHdr]
    congr 1
    · rw [ByteMemory.read_write_apart _ (by omega),ByteMemory.read_write_apart _ (by omega),
        ByteMemory.read_write_apart _ (by omega),wrote.holds]
    · congr 1
      · rw [ByteMemory.read_write_apart _ (by omega),read_stored]
      · congr 1
        · rw [ByteMemory.read_write_apart _ (by omega),
            ByteMemory.read_write_apart _ (by rw [storeBytes_length]; omega),read_stored]
          rfl
        · exact read_stored _ _ _ _

private theorem setHeader_wrote (family : BitVec 16) : Wrote (setHeader family) 20 [] := ⟨Nat.le_refl 20,rfl⟩

theorem fourBytes : 4 ≤ 8 := by decide
theorem eightBytes : 8 ≤ 8 := by decide

def busyPollAttributes (napiId deferHardIrqs : BitVec 32) (groFlushNs irqSuspendNs : BitVec 64) : List Attribute :=
  [stored kAttrNapiId 4 napiId.toNat fourBytes,stored kAttrNapiDeferHardIrqs 4 deferHardIrqs.toNat fourBytes,
    stored kAttrNapiGroFlushTimeout 8 groFlushNs.toNat eightBytes,stored kAttrNapiIrqSuspend 8
      irqSuspendNs.toNat eightBytes]

private theorem setBusyPoll_attributes (family : BitVec 16) (napiId deferHardIrqs : BitVec 32)
    (groFlushNs irqSuspendNs : BitVec 64) :
    (setBusyPoll family napiId deferHardIrqs groFlushNs irqSuspendNs).drop 20 =
      (busyPollAttributes napiId deferHardIrqs groFlushNs irqSuspendNs).flatMap Attribute.bytes := by
  have first := (setHeader_wrote family).putAttr kAttrNapiId napiId.toNat fourBytes rfl
  have second := first.putAttr kAttrNapiDeferHardIrqs deferHardIrqs.toNat fourBytes rfl
  have third := second.putAttr kAttrNapiGroFlushTimeout groFlushNs.toNat eightBytes rfl
  have fourth := third.putAttr kAttrNapiIrqSuspend irqSuspendNs.toNat eightBytes rfl
  unfold setBusyPoll
  dsimp only
  rw [ByteMemory.read_drop,ByteMemory.read_write_apart _ (.inr (by rw [storeBytes_length]; decide)),Nat.zero_add,
    fourth.holds]
  simp only [busyPollAttributes,List.flatMap_cons,List.flatMap_nil,List.append_nil,List.nil_append,List.append_assoc]

theorem encodes_flatMap {attributes : List Attribute} (aligned : ∀ a ∈ attributes, a.len % 4 = 0) :
    Encodes attributes (attributes.flatMap Attribute.bytes) := by
  induction attributes with
  | nil => exact .nil
  | cons a rest ih =>
    rw [List.forall_mem_cons] at aligned
    have whole : a.len + ([] : List Byte).length = align a.len := by
      have multiple := aligned.1
      unfold align
      rw [List.length_nil]
      omega
    exact .cons a [] rest _ whole (ih aligned.2)

def Yields (family : BitVec 16) (stack : ByteMemory) (bytes : List Byte) (out : NapiParams) : Prop :=
  ∃ reads, Reaches (step (getBusyPoll family) (recv 2048 stack bytes)) (start .unread (recv 2048 stack bytes))
    ⟨.returned,out,reads⟩

private theorem yields_parameters {family : BitVec 16} (own : family ≠ NLMSG_ERROR) (stack : ByteMemory)
    {reply : Reply family}
    {deferHardIrqs : BitVec 32} {groFlushNs irqSuspendNs : BitVec 64}
    (irqs : Carries reply.attributes kAttrNapiDeferHardIrqs deferHardIrqs.toNat)
    (flush : Carries reply.attributes kAttrNapiGroFlushTimeout groFlushNs.toNat)
    (suspend : Carries reply.attributes kAttrNapiIrqSuspend irqSuspendNs.toNat) (fits : reply.bytes.length ≤ 2048) :
    Yields family stack reply.bytes ⟨true,deferHardIrqs,groFlushNs,irqSuspendNs⟩ := by
  rw [← accepted irqs flush suspend family .unread]
  exact reads_reply reply stack own (by decide) fits

theorem holds_four {value : Nat} (bound : value < 2^32) : Holds (storeBytes 4 value) value := .inl ⟨rfl,bound⟩

theorem holds_eight {value : Nat} (bound : value < 2^64) : Holds (storeBytes 8 value) value := .inr ⟨rfl,bound⟩

private theorem busyPollAttributes_aligned (napiId deferHardIrqs : BitVec 32) (groFlushNs irqSuspendNs : BitVec 64) :
    ∀ a ∈ busyPollAttributes napiId deferHardIrqs groFlushNs irqSuspendNs, a.len % 4 = 0 := by
  simp [busyPollAttributes,stored_len]

private theorem busyPollAttributes_carry (napiId deferHardIrqs : BitVec 32) (groFlushNs irqSuspendNs : BitVec 64) :
    Carries (busyPollAttributes napiId deferHardIrqs groFlushNs irqSuspendNs) kAttrNapiDeferHardIrqs deferHardIrqs.toNat ∧
      Carries (busyPollAttributes napiId deferHardIrqs groFlushNs irqSuspendNs) kAttrNapiGroFlushTimeout groFlushNs.toNat ∧
      Carries (busyPollAttributes napiId deferHardIrqs groFlushNs irqSuspendNs) kAttrNapiIrqSuspend irqSuspendNs.toNat := by
  refine ⟨⟨stored kAttrNapiDeferHardIrqs 4 deferHardIrqs.toNat fourBytes,?_,holds_four deferHardIrqs.isLt⟩,
    ⟨stored kAttrNapiGroFlushTimeout 8 groFlushNs.toNat eightBytes,?_,holds_eight groFlushNs.isLt⟩,
    ⟨stored kAttrNapiIrqSuspend 8 irqSuspendNs.toNat eightBytes,?_,holds_eight irqSuspendNs.isLt⟩⟩
  all_goals
    simp [busyPollAttributes,stored_kind,kAttrNapiId,kAttrNapiDeferHardIrqs,kAttrNapiGroFlushTimeout,
      kAttrNapiIrqSuspend,NLA_TYPE_MASK]

private theorem busyPollBytes_length (napiId deferHardIrqs : BitVec 32) (groFlushNs irqSuspendNs : BitVec 64) :
    ((busyPollAttributes napiId deferHardIrqs groFlushNs irqSuspendNs).flatMap Attribute.bytes).length = 40 := by
  simp only [busyPollAttributes,List.flatMap_cons,List.flatMap_nil,List.length_append,Attribute.bytes_length,stored_len,
    List.length_nil]

private theorem yields_request {family : BitVec 16} (own : family ≠ NLMSG_ERROR) (stack : ByteMemory) (reply : Reply family)
    (napiId deferHardIrqs : BitVec 32) (groFlushNs irqSuspendNs : BitVec 64)
    (same : reply.body = (busyPollAttributes napiId deferHardIrqs groFlushNs irqSuspendNs).flatMap Attribute.bytes) :
    Yields family stack reply.bytes ⟨true,deferHardIrqs,groFlushNs,irqSuspendNs⟩ := by
  -- The bytes do not tell which list they were read as: take the one that was written.
  let written : Reply family :=
    {reply with attributes := busyPollAttributes napiId deferHardIrqs groFlushNs irqSuspendNs,
                encoded := same ▸ encodes_flatMap (busyPollAttributes_aligned _ _ _ _)}
  have bytes : written.bytes = reply.bytes := rfl
  have fits : written.bytes.length ≤ 2048 := by
    rw [bytes,reply.bytes_length,same,busyPollBytes_length]
    decide
  rw [← bytes]
  obtain ⟨irqs,flush,suspend⟩ := busyPollAttributes_carry napiId deferHardIrqs groFlushNs irqSuspendNs
  have read : Yields family stack written.bytes _ := yields_parameters own stack irqs flush suspend fits
  exact read

/-- The walk reads the three parameters out of every reply that carries them and fits the
buffer of 2048 bytes, and nothing out of a longer one; it reads back what `setBusyPoll` writes. -/
theorem getBusyPoll_reads_parameters (family : BitVec 16) (own : family ≠ NLMSG_ERROR) (stack : ByteMemory)
    (deferHardIrqs : BitVec 32) (groFlushNs irqSuspendNs : BitVec 64) :
    (∀ reply : Reply family, Carries reply.attributes kAttrNapiDeferHardIrqs deferHardIrqs.toNat →
      Carries reply.attributes kAttrNapiGroFlushTimeout groFlushNs.toNat →
      Carries reply.attributes kAttrNapiIrqSuspend irqSuspendNs.toNat →
      Yields family stack reply.bytes
        (if reply.bytes.length ≤ 2048 then ⟨true,deferHardIrqs,groFlushNs,irqSuspendNs⟩ else .unread)) ∧
    ∀ (napiId : BitVec 32) (reply : Reply family),
      reply.body = (setBusyPoll family napiId deferHardIrqs groFlushNs irqSuspendNs).drop 20 →
      Yields family stack reply.bytes ⟨true,deferHardIrqs,groFlushNs,irqSuspendNs⟩ := by
  constructor
  · intro reply irqs flush suspend
    split
    · next fits => exact yields_parameters own stack irqs flush suspend fits
    · next long => exact drops_long_reply reply stack (by decide) (Nat.not_le.mp long)
  · intro napiId reply same
    rw [setBusyPoll_attributes] at same
    exact yields_request own stack reply napiId deferHardIrqs groFlushNs irqSuspendNs same

private theorem threeShort : NLA_HDRLEN + [1,2,3].length < 65536 := by decide

/-- The three parameters in another order, one of them flagged, with an attribute of three
bytes between. -/
def labAttributes : List Attribute :=
  [stored kAttrNapiIrqSuspend 4 9 fourBytes,⟨1,[1,2,3],threeShort⟩,stored 0x8005 8 2 eightBytes,
    stored kAttrNapiGroFlushTimeout 8 (1099511627776) eightBytes]

def labBody : List Byte :=
  (stored kAttrNapiIrqSuspend 4 9 fourBytes).bytes ++ ([] ++ ((⟨1,[1,2,3],threeShort⟩ : Attribute).bytes ++ ([0xAA] ++
    ((stored 0x8005 8 2 eightBytes).bytes ++ ([] ++
      ((stored kAttrNapiGroFlushTimeout 8 (1099511627776) eightBytes).bytes ++ []))))))

private theorem labBody_encodes : Encodes labAttributes labBody :=
  .cons _ [] _ _ rfl (.cons _ [0xAA] _ _ rfl (.cons _ [] _ _ rfl (.last _ [] (Nat.le_refl _))))

private theorem controlZeros_length : (List.replicate 10 (0 : Byte)).length = 10 := rfl

private theorem genlHeader_length : ([11,1,0,0] : List Byte).length = 4 := rfl

private theorem labBody_short : 20 + labBody.length < 2^32 := by decide

def labReply : Reply 16 :=
  ⟨List.replicate 10 0,controlZeros_length,[11,1,0,0],genlHeader_length,labAttributes,labBody,labBody_encodes,labBody_short⟩

theorem getBusyPoll_reads_parameters_lab : Yields 16 (fun _ => 0xFF) labReply.bytes ⟨true,2,1099511627776,9⟩ := by
  have read := (getBusyPoll_reads_parameters 16 (by decide) (fun _ => 0xFF) 2 (1099511627776) 9).1 labReply
    ⟨stored 0x8005 8 2 eightBytes,rfl,holds_eight (by decide)⟩
    ⟨stored kAttrNapiGroFlushTimeout 8 (1099511627776) eightBytes,rfl,holds_eight (by decide)⟩
    ⟨stored kAttrNapiIrqSuspend 4 9 fourBytes,rfl,holds_four (by decide)⟩
  rwa [if_pos (by decide)] at read

private theorem largeShort : NLA_HDRLEN + (List.replicate 2048 (0 : Byte)).length < 65536 := by
  rw [List.length_replicate]
  decide

def largeAttribute : Attribute := ⟨1,List.replicate 2048 0,largeShort⟩

def largeAttributes : List Attribute := busyPollAttributes 7 2 200000 20000000 ++ [largeAttribute]

private theorem largeAttribute_len : largeAttribute.len = 2052 := by
  unfold Attribute.len largeAttribute
  rw [List.length_replicate,nlaHdr]

private theorem largeAttributes_aligned : ∀ a ∈ largeAttributes, a.len % 4 = 0 := by
  intro a member
  rcases List.mem_append.mp member with small | large
  · exact busyPollAttributes_aligned 7 2 200000 20000000 a small
  · rw [List.mem_singleton.mp large,largeAttribute_len]

private theorem largeBody_length : (largeAttributes.flatMap Attribute.bytes).length = 2092 := by
  unfold largeAttributes
  rw [List.flatMap_append,List.length_append,busyPollBytes_length,List.flatMap_singleton,Attribute.bytes_length,
    largeAttribute_len]

private theorem largeBody_short : 20 + (largeAttributes.flatMap Attribute.bytes).length < 2^32 := by
  rw [largeBody_length]
  decide

def largeReply : Reply 16 :=
  ⟨List.replicate 10 0,controlZeros_length,[11,1,0,0],genlHeader_length,largeAttributes,
    largeAttributes.flatMap Attribute.bytes,encodes_flatMap largeAttributes_aligned,largeBody_short⟩

theorem getBusyPoll_drops_large_reply :
    ∃ reply : Reply 16, Carries reply.attributes kAttrNapiDeferHardIrqs 2 ∧
      Carries reply.attributes kAttrNapiGroFlushTimeout 200000 ∧ Carries reply.attributes kAttrNapiIrqSuspend 20000000 ∧
      ∀ stack, Yields 16 stack reply.bytes ⟨false,0,0,0⟩ := by
  refine ⟨largeReply,⟨stored kAttrNapiDeferHardIrqs 4 2 fourBytes,rfl,holds_four (by decide)⟩,
    ⟨stored kAttrNapiGroFlushTimeout 8 200000 eightBytes,rfl,holds_eight (by decide)⟩,
    ⟨stored kAttrNapiIrqSuspend 8 20000000 eightBytes,rfl,holds_eight (by decide)⟩,?_⟩
  intro stack
  have length : largeReply.bytes.length = 20 + 2092 := by
    rw [largeReply.bytes_length]
    exact congrArg (20 + ·) largeBody_length
  exact drops_long_reply largeReply stack (by decide) (by rw [length]; decide)

end Abtrda3.NapiRoundTrip
