import Abtrda3.Application
import Abtrda3.Semantics.ByteMemory
import Abtrda3.Semantics.Loop

/-! The netlink replies of `NapiConfig.hpp`: `detail::resolveFamily` and `napi::getBusyPoll`
walk the messages of the received bytes and the attributes of each message, by lengths
taken from the data. Both are one walk with the parts that differ as parameters; every
read is logged with the end of what it is a part of. -/
namespace Abtrda3.Netlink
open Abtrda3.Application Abtrda3.Semantics Abtrda3.Semantics.Loop

def NLMSG_HDRLEN : Nat := 16
def GENL_HDRLEN : Nat := 4
def NLA_HDRLEN : Nat := 4

def NLMSG_ERROR : BitVec 16 := 2
def NLMSG_DONE : BitVec 16 := 3
def CTRL_ATTR_FAMILY_ID : BitVec 16 := 1
def NLA_TYPE_MASK : BitVec 16 := 0x3FFF

def kAttrNapiId : BitVec 16 := 2
def kAttrNapiDeferHardIrqs : BitVec 16 := 5
def kAttrNapiGroFlushTimeout : BitVec 16 := 6
def kAttrNapiIrqSuspend : BitVec 16 := 7

/-- Up to the next multiple of four: `NLMSG_ALIGN` and `NLA_ALIGN`. -/
def align (len : Nat) : Nat := (len + 3) / 4 * 4

/-- What `recv` left: `n` bytes of the buffer, after them what was on the stack before. -/
structure Received (size : Nat) where
  rbuf : ByteMemory
  n : Nat
  fits : n ≤ size

def recv (size : Nat) (stack : ByteMemory) (bytes : List Byte) : Received size :=
  ⟨stack.write 0 (bytes.take size),min bytes.length size,Nat.min_le_right _ _⟩

def load (rbuf : ByteMemory) (address width : Nat) : Nat := loadBytes (rbuf.read address width) 0 width

def nlmsgLen (rbuf : ByteMemory) (rh : Nat) : Nat := load rbuf rh 4
def nlmsgType (rbuf : ByteMemory) (rh : Nat) : BitVec 16 := BitVec.ofNat 16 (load rbuf (rh + 4) 2)
def nlaLen (rbuf : ByteMemory) (attr : Nat) : Nat := load rbuf attr 2
def nlaType (rbuf : ByteMemory) (attr : Nat) : BitVec 16 := BitVec.ofNat 16 (load rbuf (attr + 2) 2)

structure Field where
  offset : Nat
  width : Nat
  deriving DecidableEq, Repr

/-- Bytes read as a part of something that ends at `limit`. -/
structure Access where
  address : Nat
  width : Nat
  limit : Nat
  deriving DecidableEq, Repr

def Access.Inside (n : Nat) (access : Access) : Prop := access.address + access.width ≤ access.limit ∧ access.limit ≤ n

instance (n : Nat) (access : Access) : Decidable (access.Inside n) := inferInstanceAs (Decidable (_ ∧ _))

def Field.access (field : Field) (base limit : Nat) : Access := ⟨base + field.offset,field.width,limit⟩

def Field.value (field : Field) (rbuf : ByteMemory) (base : Nat) : Nat := load rbuf (base + field.offset) field.width

/-- What a message of some type is to a reader: the last one, not for it, or its own. -/
inductive Verdict
  | leave (fields : List Field)
  | skip
  | walk

/-- Of an attribute a reader sees the type, the length and the values of the fields it names. -/
structure Reader (α : Type) where
  verdict : BitVec 16 → Verdict
  fields : BitVec 16 → Nat → List Field
  leaves : BitVec 16 → Bool
  take : BitVec 16 → List Nat → α → α
  close : α → α

inductive Pc
  | nlmsg (rh : Nat) (n : Int)
  | nlattr (rh : Nat) (n : Int) (attr : Nat) (rem : Int)
  | returned
  deriving DecidableEq, Repr

structure State (α : Type) where
  pc : Pc
  out : α
  reads : List Access
  deriving DecidableEq, Repr

variable {α : Type} {size : Nat}

def nextMessage (rbuf : ByteMemory) (rh : Nat) (n : Int) : Pc :=
  .nlmsg (rh + align (nlmsgLen rbuf rh)) (n - align (nlmsgLen rbuf rh))

def step (reader : Reader α) (r : Received size) (s : State α) : Option (State α) :=
  match s.pc with
  | .nlmsg rh n =>
    if n < NLMSG_HDRLEN then some {s with pc := .returned}
    else
      let len := nlmsgLen r.rbuf rh
      let reads := s.reads ++ [⟨rh,4,r.n⟩]
      if len < NLMSG_HDRLEN ∨ n < len then some {s with pc := .returned, reads := reads}
      else
        let reads := reads ++ [⟨rh + 4,2,rh + len⟩]
        match reader.verdict (nlmsgType r.rbuf rh) with
        | .leave fields => some {s with pc := .returned, reads := reads ++ fields.map (·.access rh (rh + len))}
        | .skip => some {s with pc := nextMessage r.rbuf rh n, reads := reads}
        | .walk =>
          some {s with pc := .nlattr rh n (rh + NLMSG_HDRLEN + GENL_HDRLEN)
                              ((len : Int) - NLMSG_HDRLEN - GENL_HDRLEN),
                       reads := reads}
  | .nlattr rh n attr rem =>
    if rem < NLA_HDRLEN then some {s with pc := nextMessage r.rbuf rh n, out := reader.close s.out}
    else
      let len := nlaLen r.rbuf attr
      let limit := rh + nlmsgLen r.rbuf rh
      let reads := s.reads ++ [⟨attr,2,limit⟩]
      if rem < len then some {s with pc := nextMessage r.rbuf rh n, out := reader.close s.out, reads := reads}
      else
        let type := nlaType r.rbuf attr
        let fields := reader.fields type len
        let reads := reads ++ ⟨attr + 2,2,limit⟩ :: fields.map (·.access attr limit)
        let out := reader.take type (fields.map (·.value r.rbuf attr)) s.out
        if reader.leaves type then some {s with pc := .returned, out := out, reads := reads}
        else some {s with pc := .nlattr rh n (attr + align len) (rem - align len), out := out, reads := reads}
  | .returned => none

def start (out : α) (r : Received size) : State α :=
  ⟨if r.n < NLMSG_HDRLEN then .returned else .nlmsg 0 r.n,out,[]⟩

def resolveFamily : Reader (BitVec 16) where
  verdict type := if type = NLMSG_ERROR ∨ type = NLMSG_DONE then .leave [] else .walk
  fields type _ := if type = CTRL_ATTR_FAMILY_ID then [⟨NLA_HDRLEN,2⟩] else []
  leaves type := type = CTRL_ATTR_FAMILY_ID
  take type values out := if type = CTRL_ATTR_FAMILY_ID then BitVec.ofNat 16 (values.headD 0) else out
  close out := out

structure NapiParams where
  valid : Bool
  deferHardIrqs : BitVec 32
  groFlushNs : BitVec 64
  irqSuspendNs : BitVec 64
  deriving DecidableEq, Repr

/-- A `size_t`: the subtraction wraps for a length below `NLA_HDRLEN`. -/
def plen (len : Nat) : BitVec 64 := BitVec.ofNat 64 len - BitVec.ofNat 64 NLA_HDRLEN

def readUintWidth (len : Nat) : Nat := if 8 ≤ (plen len).toNat then 8 else if 4 ≤ (plen len).toNat then 4 else 0

def readUint (values : List Nat) : BitVec 64 := BitVec.ofNat 64 (values.headD 0)

def napiAttr (type : BitVec 16) : Bool :=
  type &&& NLA_TYPE_MASK ∈ [kAttrNapiDeferHardIrqs,kAttrNapiGroFlushTimeout,kAttrNapiIrqSuspend]

def getBusyPoll (family : BitVec 16) : Reader NapiParams where
  verdict type :=
    if type = NLMSG_ERROR then .leave [⟨NLMSG_HDRLEN,4⟩]
    else if type ≠ family then .skip
    else .walk
  fields type len := if napiAttr type then [⟨NLA_HDRLEN,readUintWidth len⟩] else []
  leaves _ := false
  take type values out :=
    let kind := type &&& NLA_TYPE_MASK
    if kind = kAttrNapiDeferHardIrqs then {out with deferHardIrqs := (readUint values).setWidth 32}
    else if kind = kAttrNapiGroFlushTimeout then {out with groFlushNs := readUint values}
    else if kind = kAttrNapiIrqSuspend then {out with irqSuspendNs := readUint values}
    else out
  close out := {out with valid := true}

section walk

variable {reader : Reader α} {r : Received size} {s t : State α}

structure Whole (r : Received size) (rh : Nat) (n : Int) : Prop where
  header : (NLMSG_HDRLEN : Int) ≤ n
  long : NLMSG_HDRLEN ≤ nlmsgLen r.rbuf rh
  inside : (nlmsgLen r.rbuf rh : Int) ≤ n

instance (r : Received size) (rh : Nat) (n : Int) : Decidable (Whole r rh n) :=
  decidable_of_iff ((NLMSG_HDRLEN : Int) ≤ n ∧ NLMSG_HDRLEN ≤ nlmsgLen r.rbuf rh ∧ (nlmsgLen r.rbuf rh : Int) ≤ n)
    ⟨fun ⟨header,long,inside⟩ => ⟨header,long,inside⟩,fun whole => ⟨whole.header,whole.long,whole.inside⟩⟩

structure Fitting (r : Received size) (attr : Nat) (rem : Int) : Prop where
  header : (NLA_HDRLEN : Int) ≤ rem
  inside : (nlaLen r.rbuf attr : Int) ≤ rem

instance (r : Received size) (attr : Nat) (rem : Int) : Decidable (Fitting r attr rem) :=
  decidable_of_iff ((NLA_HDRLEN : Int) ≤ rem ∧ (nlaLen r.rbuf attr : Int) ≤ rem)
    ⟨fun ⟨header,inside⟩ => ⟨header,inside⟩,fun fitting => ⟨fitting.header,fitting.inside⟩⟩

def attributeReads (reader : Reader α) (r : Received size) (attr limit : Nat) : List Access :=
  ⟨attr,2,limit⟩ :: ⟨attr + 2,2,limit⟩ :: (reader.fields (nlaType r.rbuf attr) (nlaLen r.rbuf attr)).map
    (·.access attr limit)

def taken (reader : Reader α) (r : Received size) (attr : Nat) (out : α) : α :=
  reader.take (nlaType r.rbuf attr)
    ((reader.fields (nlaType r.rbuf attr) (nlaLen r.rbuf attr)).map (·.value r.rbuf attr)) out

inductive Turn (reader : Reader α) (r : Received size) : State α → State α → Prop
  | short (rh n out reads) (few : n < (NLMSG_HDRLEN : Int)) :
      Turn reader r ⟨.nlmsg rh n,out,reads⟩ ⟨.returned,out,reads⟩
  | malformed (rh n out reads) (header : (NLMSG_HDRLEN : Int) ≤ n) :
      Turn reader r ⟨.nlmsg rh n,out,reads⟩ ⟨.returned,out,reads ++ [⟨rh,4,r.n⟩]⟩
  | leave (rh n out reads fields) (whole : Whole r rh n) (last : reader.verdict (nlmsgType r.rbuf rh) = .leave fields) :
      Turn reader r ⟨.nlmsg rh n,out,reads⟩
        ⟨.returned,out,reads ++ [⟨rh,4,r.n⟩] ++ [⟨rh + 4,2,rh + nlmsgLen r.rbuf rh⟩] ++
          fields.map (·.access rh (rh + nlmsgLen r.rbuf rh))⟩
  | skip (rh n out reads) (whole : Whole r rh n) :
      Turn reader r ⟨.nlmsg rh n,out,reads⟩
        ⟨nextMessage r.rbuf rh n,out,reads ++ [⟨rh,4,r.n⟩] ++ [⟨rh + 4,2,rh + nlmsgLen r.rbuf rh⟩]⟩
  | walk (rh n out reads) (whole : Whole r rh n) :
      Turn reader r ⟨.nlmsg rh n,out,reads⟩
        ⟨.nlattr rh n (rh + NLMSG_HDRLEN + GENL_HDRLEN) ((nlmsgLen r.rbuf rh : Int) - NLMSG_HDRLEN - GENL_HDRLEN),out,
          reads ++ [⟨rh,4,r.n⟩] ++ [⟨rh + 4,2,rh + nlmsgLen r.rbuf rh⟩]⟩
  | drained (rh n attr rem out reads) (few : rem < (NLA_HDRLEN : Int)) :
      Turn reader r ⟨.nlattr rh n attr rem,out,reads⟩ ⟨nextMessage r.rbuf rh n,reader.close out,reads⟩
  | cut (rh n attr rem out reads) (header : (NLA_HDRLEN : Int) ≤ rem) :
      Turn reader r ⟨.nlattr rh n attr rem,out,reads⟩
        ⟨nextMessage r.rbuf rh n,reader.close out,reads ++ [⟨attr,2,rh + nlmsgLen r.rbuf rh⟩]⟩
  | found (rh n attr rem out reads) (fitting : Fitting r attr rem) (last : reader.leaves (nlaType r.rbuf attr) = true) :
      Turn reader r ⟨.nlattr rh n attr rem,out,reads⟩
        ⟨.returned,taken reader r attr out,reads ++ attributeReads reader r attr (rh + nlmsgLen r.rbuf rh)⟩
  | next (rh n attr rem out reads) (fitting : Fitting r attr rem) (more : reader.leaves (nlaType r.rbuf attr) = false) :
      Turn reader r ⟨.nlattr rh n attr rem,out,reads⟩
        ⟨.nlattr rh n (attr + align (nlaLen r.rbuf attr)) (rem - align (nlaLen r.rbuf attr)),taken reader r attr out,
          reads ++ attributeReads reader r attr (rh + nlmsgLen r.rbuf rh)⟩

theorem step_message_whole {rh : Nat} {n : Int} (whole : Whole r rh n) (out : α) (reads : List Access) :
    step reader r ⟨.nlmsg rh n,out,reads⟩ =
      match reader.verdict (nlmsgType r.rbuf rh) with
      | .leave fields =>
        some ⟨.returned,out,reads ++ [⟨rh,4,r.n⟩] ++ [⟨rh + 4,2,rh + nlmsgLen r.rbuf rh⟩] ++
          fields.map (·.access rh (rh + nlmsgLen r.rbuf rh))⟩
      | .skip =>
        some ⟨nextMessage r.rbuf rh n,out,reads ++ [⟨rh,4,r.n⟩] ++ [⟨rh + 4,2,rh + nlmsgLen r.rbuf rh⟩]⟩
      | .walk =>
        some ⟨.nlattr rh n (rh + NLMSG_HDRLEN + GENL_HDRLEN) ((nlmsgLen r.rbuf rh : Int) - NLMSG_HDRLEN - GENL_HDRLEN),
          out,reads ++ [⟨rh,4,r.n⟩] ++ [⟨rh + 4,2,rh + nlmsgLen r.rbuf rh⟩]⟩ := by
  have long := whole.long
  have inside := whole.inside
  unfold step
  dsimp only
  rw [if_neg (Int.not_lt.mpr whole.header),if_neg (by omega)]

variable {rh attr : Nat} {n rem : Int}

private theorem step_attribute_fitting (fitting : Fitting r attr rem) (out : α)
    (reads : List Access) :
    step reader r ⟨.nlattr rh n attr rem,out,reads⟩ =
      if reader.leaves (nlaType r.rbuf attr) then
        some ⟨.returned,taken reader r attr out,reads ++ attributeReads reader r attr (rh + nlmsgLen r.rbuf rh)⟩
      else
        some ⟨.nlattr rh n (attr + align (nlaLen r.rbuf attr)) (rem - align (nlaLen r.rbuf attr)),
          taken reader r attr out,reads ++ attributeReads reader r attr (rh + nlmsgLen r.rbuf rh)⟩ := by
  unfold step attributeReads
  dsimp only
  rw [if_neg (Int.not_lt.mpr fitting.header),if_neg (Int.not_lt.mpr fitting.inside),List.append_assoc]
  rfl

theorem step_next (fitting : Fitting r attr rem)
    (more : reader.leaves (nlaType r.rbuf attr) = false) (out : α) (reads : List Access) :
    step reader r ⟨.nlattr rh n attr rem,out,reads⟩ =
      some ⟨.nlattr rh n (attr + align (nlaLen r.rbuf attr)) (rem - align (nlaLen r.rbuf attr)),
        taken reader r attr out,reads ++ attributeReads reader r attr (rh + nlmsgLen r.rbuf rh)⟩ := by
  rw [step_attribute_fitting fitting,more]
  rfl

private theorem step_found (fitting : Fitting r attr rem)
    (last : reader.leaves (nlaType r.rbuf attr) = true) (out : α) (reads : List Access) :
    step reader r ⟨.nlattr rh n attr rem,out,reads⟩ =
      some ⟨.returned,taken reader r attr out,reads ++ attributeReads reader r attr (rh + nlmsgLen r.rbuf rh)⟩ := by
  rw [step_attribute_fitting fitting,last]
  rfl

theorem step_turn (moved : step reader r s = some t) : Turn reader r s t := by
  obtain ⟨pc,out,reads⟩ := s
  cases pc with
  | returned => cases moved
  | nlmsg rh n =>
    by_cases few : n < NLMSG_HDRLEN
    · have same : step reader r ⟨.nlmsg rh n,out,reads⟩ = some ⟨.returned,out,reads⟩ := if_pos few
      cases same.symm.trans moved
      exact .short rh n out reads few
    · have header := Int.not_lt.mp few
      by_cases bad : nlmsgLen r.rbuf rh < NLMSG_HDRLEN ∨ n < nlmsgLen r.rbuf rh
      · have same : step reader r ⟨.nlmsg rh n,out,reads⟩ = some ⟨.returned,out,reads ++ [⟨rh,4,r.n⟩]⟩ := by
          unfold step
          dsimp only
          rw [if_neg few,if_pos bad]
        cases same.symm.trans moved
        exact .malformed rh n out reads header
      · rw [not_or,Nat.not_lt,Int.not_lt] at bad
        have whole : Whole r rh n := ⟨header,bad.1,bad.2⟩
        rw [step_message_whole whole] at moved
        cases kind : reader.verdict (nlmsgType r.rbuf rh) with
        | leave fields =>
          rw [kind] at moved
          cases moved
          exact .leave rh n out reads fields whole kind
        | skip =>
          rw [kind] at moved
          cases moved
          exact .skip rh n out reads whole
        | walk =>
          rw [kind] at moved
          cases moved
          exact .walk rh n out reads whole
  | nlattr rh n attr rem =>
    by_cases few : rem < NLA_HDRLEN
    · have same : step reader r ⟨.nlattr rh n attr rem,out,reads⟩ =
          some ⟨nextMessage r.rbuf rh n,reader.close out,reads⟩ := if_pos few
      cases same.symm.trans moved
      exact .drained rh n attr rem out reads few
    · have header := Int.not_lt.mp few
      by_cases beyond : rem < nlaLen r.rbuf attr
      · have same : step reader r ⟨.nlattr rh n attr rem,out,reads⟩ =
            some ⟨nextMessage r.rbuf rh n,reader.close out,reads ++ [⟨attr,2,rh + nlmsgLen r.rbuf rh⟩]⟩ := by
          unfold step
          dsimp only
          rw [if_neg few,if_pos beyond]
        cases same.symm.trans moved
        exact .cut rh n attr rem out reads header
      · have fitting : Fitting r attr rem := ⟨header,Int.not_lt.mp beyond⟩
        cases last : reader.leaves (nlaType r.rbuf attr) with
        | true =>
          cases (step_found fitting last out reads).symm.trans moved
          exact .found rh n attr rem out reads fitting last
        | false =>
          cases (step_next fitting last out reads).symm.trans moved
          exact .next rh n attr rem out reads fitting last

theorem nlmsgHdr : NLMSG_HDRLEN = 16 := rfl
theorem genlHdr : GENL_HDRLEN = 4 := rfl
theorem nlaHdr : NLA_HDRLEN = 4 := rfl

theorem align_ge (len : Nat) : len ≤ align len := by unfold align; omega

/-- The two counters are what is left of the received bytes and of the message. -/
def Placed (r : Received size) : Pc → Prop
  | .nlmsg rh n => rh + n = r.n
  | .nlattr rh n attr rem => (rh + n = r.n ∧ Whole r rh n) ∧ attr + rem = rh + nlmsgLen r.rbuf rh
  | .returned => True

private theorem placed_next {rh : Nat} {n : Int} (placed : rh + n = r.n) : Placed r (nextMessage r.rbuf rh n) := by
  change ((rh + align (nlmsgLen r.rbuf rh) : Nat) : Int) + (n - align (nlmsgLen r.rbuf rh)) = r.n
  omega

private theorem turn_placed (placed : Placed r s.pc) (turn : Turn reader r s t) : Placed r t.pc := by
  cases turn with
  | short | malformed | leave | found => trivial
  | skip rh n out reads whole => exact placed_next placed
  | walk rh n out reads whole =>
    refine ⟨⟨placed,whole⟩,?_⟩
    rw [nlmsgHdr,genlHdr]
    omega
  | drained rh n attr rem | cut rh n attr rem => exact placed_next placed.1.1
  | next rh n attr rem =>
    obtain ⟨before,ends⟩ := placed
    refine ⟨before,?_⟩
    omega

theorem start_placed (out : α) (r : Received size) : Placed r (start out r).pc := by
  change Placed r (if r.n < NLMSG_HDRLEN then .returned else .nlmsg 0 r.n)
  split
  · trivial
  · exact Int.zero_add _

private theorem reached_placed {out : α} (reached : Reaches (step reader r) (start out r) t) : Placed r t.pc :=
  reached.invariant (fun s => Placed r s.pc) (fun _ _ placed moved => turn_placed placed (step_turn moved))
    (start_placed out r)

/-- Every read field of a message that ends the walk lies in it. -/
def MessageReadable (reader : Reader α) (r : Received size) (rh : Nat) : Prop :=
  ∀ fields, reader.verdict (nlmsgType r.rbuf rh) = .leave fields →
    ∀ field ∈ fields, field.offset + field.width ≤ nlmsgLen r.rbuf rh

/-- Every read field of an attribute lies in the message, and an attribute that is passed
by has a length. -/
def AttributeReadable (reader : Reader α) (r : Received size) (attr : Nat) (rem : Int) : Prop :=
  (reader.leaves (nlaType r.rbuf attr) = false → nlaLen r.rbuf attr ≠ 0) ∧
    ∀ field ∈ reader.fields (nlaType r.rbuf attr) (nlaLen r.rbuf attr), ((field.offset + field.width : Nat) : Int) ≤ rem

def Readable (reader : Reader α) (r : Received size) : Pc → Prop
  | .nlmsg rh n => Whole r rh n → MessageReadable reader r rh
  | .nlattr _ _ attr rem => Fitting r attr rem → AttributeReadable reader r attr rem
  | .returned => True

def ReadsInside (r : Received size) (s : State α) : Prop := ∀ access ∈ s.reads, access.Inside r.n

theorem inside_append {reads more : List Access} {n : Nat} (before : ∀ access ∈ reads, access.Inside n)
    (after : ∀ access ∈ more, access.Inside n) : ∀ access ∈ reads ++ more, access.Inside n := by
  intro access member
  rcases List.mem_append.mp member with old | new
  · exact before access old
  · exact after access new

theorem inside_one {access : Access} {n : Nat} (inside : access.Inside n) : ∀ a ∈ [access], a.Inside n := by
  intro a member
  rw [List.mem_singleton.mp member]
  exact inside

theorem message_end {rh : Nat} {n : Int} (placed : rh + n = r.n) (whole : Whole r rh n) :
    rh + nlmsgLen r.rbuf rh ≤ r.n := by
  have inside := whole.inside
  omega

private theorem length_inside {rh : Nat} {n : Int} (placed : rh + n = r.n) (header : (NLMSG_HDRLEN : Int) ≤ n) :
    (⟨rh,4,r.n⟩ : Access).Inside r.n := by
  rw [nlmsgHdr] at header
  refine ⟨?_,Nat.le_refl _⟩
  dsimp only
  omega

private theorem header_inside {rh : Nat} {n : Int} {reads : List Access} (placed : rh + n = r.n) (whole : Whole r rh n)
    (before : ∀ access ∈ reads, access.Inside r.n) :
    ∀ access ∈ reads ++ [⟨rh,4,r.n⟩] ++ [⟨rh + 4,2,rh + nlmsgLen r.rbuf rh⟩], access.Inside r.n := by
  have long := whole.long
  rw [nlmsgHdr] at long
  refine inside_append (inside_append before (inside_one (length_inside placed whole.header))) (inside_one ⟨?_,?_⟩)
  · dsimp only
    omega
  · exact message_end placed whole

private theorem attribute_inside (placed : Placed r (.nlattr rh n attr rem))
    (fitting : Fitting r attr rem) (readable : AttributeReadable reader r attr rem) :
    ∀ access ∈ attributeReads reader r attr (rh + nlmsgLen r.rbuf rh), access.Inside r.n := by
  obtain ⟨⟨begins,whole⟩,ends⟩ := placed
  have bound := message_end begins whole
  have header := fitting.header
  rw [nlaHdr] at header
  intro access member
  rcases List.mem_cons.mp member with rfl | member
  · refine ⟨?_,bound⟩
    dsimp only
    omega
  · rcases List.mem_cons.mp member with rfl | member
    · refine ⟨?_,bound⟩
      dsimp only
      omega
    · obtain ⟨field,listed,rfl⟩ := List.mem_map.mp member
      have short := readable.2 field listed
      refine ⟨?_,bound⟩
      dsimp only [Field.access]
      omega

private theorem turn_inside (placed : Placed r s.pc) (readable : Readable reader r s.pc) (inside : ReadsInside r s)
    (turn : Turn reader r s t) : ReadsInside r t := by
  cases turn with
  | short | drained => exact inside
  | malformed rh n out reads header => exact inside_append inside (inside_one (length_inside placed header))
  | leave rh n out reads fields whole last =>
    refine inside_append (header_inside placed whole inside) ?_
    intro access member
    obtain ⟨field,listed,rfl⟩ := List.mem_map.mp member
    have short := readable whole fields last field listed
    refine ⟨?_,message_end placed whole⟩
    dsimp only [Field.access]
    omega
  | skip rh n out reads whole | walk rh n out reads whole => exact header_inside placed whole inside
  | cut rh n attr rem out reads header =>
    obtain ⟨⟨begins,whole⟩,ends⟩ := placed
    rw [nlaHdr] at header
    refine inside_append inside (inside_one ⟨?_,message_end begins whole⟩)
    dsimp only
    omega
  | found rh n attr rem out reads fitting last =>
    exact inside_append inside (attribute_inside placed fitting (readable fitting))
  | next rh n attr rem out reads fitting more =>
    exact inside_append inside (attribute_inside placed fitting (readable fitting))

def weight (r : Received size) : Pc → Nat
  | .nlmsg _ n => 2 * n.toNat + 1
  | .nlattr rh n _ rem => 2 * (n - align (nlmsgLen r.rbuf rh)).toNat + 2 + rem.toNat
  | .returned => 0

private theorem weight_next (r : Received size) (rh : Nat) (n : Int) :
    weight r (nextMessage r.rbuf rh n) = 2 * (n - align (nlmsgLen r.rbuf rh)).toNat + 1 := rfl

private theorem turn_weight (readable : Readable reader r s.pc) (turn : Turn reader r s t) :
    weight r t.pc < weight r s.pc := by
  cases turn with
  | short | malformed | leave => exact Nat.succ_pos _
  | skip rh n out reads whole =>
    have long := whole.long
    have inside := whole.inside
    have up := align_ge (nlmsgLen r.rbuf rh)
    rw [nlmsgHdr] at long
    rw [weight_next,weight]
    omega
  | walk rh n out reads whole =>
    have long := whole.long
    have inside := whole.inside
    have up := align_ge (nlmsgLen r.rbuf rh)
    rw [nlmsgHdr] at long
    rw [weight,weight,nlmsgHdr,genlHdr]
    omega
  | drained rh n attr rem | cut rh n attr rem =>
    rw [weight_next,weight]
    omega
  | found => exact Nat.lt_of_lt_of_le (Nat.succ_pos _) (Nat.le_add_right _ _)
  | next rh n attr rem out reads fitting more =>
    have header := fitting.header
    have some := (readable fitting).1 more
    have up := align_ge (nlaLen r.rbuf attr)
    rw [nlaHdr] at header
    rw [weight,weight]
    omega

private theorem halts_of_readable {out : α}
    (readable : ∀ t, Reaches (step reader r) (start out r) t → Readable reader r t.pc) :
    Halts (step reader r) (start out r) := by
  refine halts_of_measure (fun s => Reaches (step reader r) (start out r) s) (fun s => weight r s.pc) ?_ (Reaches.refl _)
  intro s t reached moved
  exact ⟨reached.trans (Reaches.one moved),turn_weight (readable s reached) (step_turn moved)⟩

private theorem inside_of_readable {out : α}
    (readable : ∀ t, Reaches (step reader r) (start out r) t → Readable reader r t.pc)
    (reached : Reaches (step reader r) (start out r) t) : ReadsInside r t := by
  have both : Reaches (step reader r) (start out r) t ∧ ReadsInside r t := by
    refine reached.invariant (fun s => Reaches (step reader r) (start out r) s ∧ ReadsInside r s) ?_ ⟨Reaches.refl _,?_⟩
    · rintro s t ⟨before,inside⟩ moved
      exact ⟨before.trans (Reaches.one moved),
        turn_inside (reached_placed before) (readable s before) inside (step_turn moved)⟩
    · exact fun _ member => nomatch member
  exact both.2

/-- An attribute of length zero that does not end the walk is met again and again. -/
theorem endless_of_zero (here : s.pc = .nlattr rh n attr rem) (fitting : Fitting r attr rem)
    (more : reader.leaves (nlaType r.rbuf attr) = false) (zero : nlaLen r.rbuf attr = 0) : ¬Halts (step reader r) s := by
  refine not_halts_of_invariant (fun u => u.pc = .nlattr rh n attr rem) ?_ here
  rintro ⟨pc,out,reads⟩ same
  dsimp only at same
  subst pc
  refine ⟨_,step_next fitting more out reads,?_⟩
  dsimp only
  rw [zero]
  exact congrArg (Pc.nlattr rh n attr) (Int.sub_zero rem)

private theorem attributeReadable_of_reached (here : s.pc = .nlattr rh n attr rem)
    (halts : Halts (step reader r) s) (inside : ∀ t, step reader r s = some t → ReadsInside r t)
    (placed : Placed r s.pc) (fitting : Fitting r attr rem) : AttributeReadable reader r attr rem := by
  obtain ⟨pc,out,reads⟩ := s
  dsimp only at here
  subst pc
  constructor
  · intro more zero
    exact endless_of_zero rfl fitting more zero halts
  · intro field listed
    have logged : (field.access attr (rh + nlmsgLen r.rbuf rh)).Inside r.n := by
      have member : field.access attr (rh + nlmsgLen r.rbuf rh) ∈
          reads ++ attributeReads reader r attr (rh + nlmsgLen r.rbuf rh) :=
        List.mem_append_right _ (List.mem_cons_of_mem _ (List.mem_cons_of_mem _ (List.mem_map_of_mem listed)))
      cases last : reader.leaves (nlaType r.rbuf attr) with
      | true => exact inside _ (step_found fitting last out reads) _ member
      | false => exact inside _ (step_next fitting last out reads) _ member
    have short : attr + field.offset + field.width ≤ rh + nlmsgLen r.rbuf rh := logged.1
    have ends := placed.2
    omega

private theorem messageReadable_of_reached {rh : Nat} {n : Int} (here : s.pc = .nlmsg rh n)
    (inside : ∀ t, step reader r s = some t → ReadsInside r t) (whole : Whole r rh n) : MessageReadable reader r rh := by
  obtain ⟨pc,out,reads⟩ := s
  dsimp only at here
  subst pc
  intro fields last field listed
  have moved : step reader r ⟨.nlmsg rh n,out,reads⟩ = _ := step_message_whole whole out reads
  rw [last] at moved
  have logged := inside _ moved _ (List.mem_append_right _ (List.mem_map_of_mem listed))
  have short : rh + field.offset + field.width ≤ rh + nlmsgLen r.rbuf rh := logged.1
  omega

/-- The walk ends and reads nothing but the messages exactly if it can read all it comes to. -/
theorem sound_iff_readable (reader : Reader α) (out : α) (r : Received size) :
    (Halts (step reader r) (start out r) ∧ ∀ t, Reaches (step reader r) (start out r) t → ReadsInside r t) ↔
      ∀ t, Reaches (step reader r) (start out r) t → Readable reader r t.pc := by
  constructor
  · rintro ⟨halts,inside⟩ t reached
    have later : ∀ u, step reader r t = some u → ReadsInside r u :=
      fun u moved => inside u (reached.trans (Reaches.one moved))
    cases here : t.pc with
    | nlmsg rh n => exact messageReadable_of_reached here later
    | nlattr rh n attr rem => exact attributeReadable_of_reached here (halts.onward reached) later (reached_placed reached)
    | returned => trivial
  · intro readable
    exact ⟨halts_of_readable readable,fun t reached => inside_of_readable readable reached⟩

end walk

private theorem nlaLen_lt (rbuf : ByteMemory) (attr : Nat) : nlaLen rbuf attr < 65536 := loadBytes_lt _ 0 2

theorem plen_toNat {len : Nat} (header : NLA_HDRLEN ≤ len) (bound : len < 65536) : (plen len).toNat = len - NLA_HDRLEN := by
  rw [nlaHdr] at header
  unfold plen
  rw [BitVec.toNat_sub,BitVec.toNat_ofNat,BitVec.toNat_ofNat,nlaHdr]
  omega

theorem readUintWidth_fits {len : Nat} (header : NLA_HDRLEN ≤ len) (bound : len < 65536) :
    NLA_HDRLEN + readUintWidth len ≤ len := by
  unfold readUintWidth
  rw [plen_toNat header bound]
  rw [nlaHdr] at header ⊢
  split
  · omega
  · split <;> omega

private theorem readUintWidth_wrapped {len : Nat} (short : len < NLA_HDRLEN) : readUintWidth len = 8 := by
  have large : 8 ≤ (plen len).toNat := by
    rw [nlaHdr] at short
    unfold plen
    rw [BitVec.toNat_sub,BitVec.toNat_ofNat,BitVec.toNat_ofNat,nlaHdr]
    omega
  exact if_pos large

/-- What `resolveFamily` needs of an attribute: two bytes of payload where it is the family
id, and a length otherwise. -/
def FamilyReadable (r : Received size) : Pc → Prop
  | .nlattr _ _ attr rem =>
    Fitting r attr rem → if nlaType r.rbuf attr = CTRL_ATTR_FAMILY_ID then 6 ≤ rem else nlaLen r.rbuf attr ≠ 0
  | .nlmsg _ _ | .returned => True

instance (r : Received size) : (pc : Pc) → Decidable (FamilyReadable r pc)
  | .nlattr _ _ attr rem => inferInstanceAs (Decidable
      (Fitting r attr rem → if nlaType r.rbuf attr = CTRL_ATTR_FAMILY_ID then 6 ≤ rem else nlaLen r.rbuf attr ≠ 0))
  | .nlmsg _ _ | .returned => isTrue trivial

private theorem readable_resolveFamily (r : Received size) (pc : Pc) :
    Readable resolveFamily r pc ↔ FamilyReadable r pc := by
  cases pc with
  | returned => exact Iff.rfl
  | nlmsg rh n =>
    refine iff_of_true ?_ trivial
    intro _ fields last field listed
    dsimp only [resolveFamily] at last
    split at last
    · cases last
      cases listed
    · cases last
  | nlattr rh n attr rem =>
    refine forall_congr' fun _ => ?_
    unfold AttributeReadable
    dsimp only [resolveFamily]
    by_cases family : nlaType r.rbuf attr = CTRL_ATTR_FAMILY_ID
    · simp [family,nlaHdr]
    · simp [family]

/-- What `getBusyPoll` needs: an error message holds its error number; every attribute has a
length, and one of the three has a header, or eight bytes of message where its payload
should start. -/
def BusyPollReadable (r : Received size) : Pc → Prop
  | .nlmsg rh n => Whole r rh n → nlmsgType r.rbuf rh = NLMSG_ERROR → 20 ≤ nlmsgLen r.rbuf rh
  | .nlattr _ _ attr rem =>
    Fitting r attr rem →
      nlaLen r.rbuf attr ≠ 0 ∧ (napiAttr (nlaType r.rbuf attr) = true → nlaLen r.rbuf attr < NLA_HDRLEN → 12 ≤ rem)
  | .returned => True

instance (r : Received size) : (pc : Pc) → Decidable (BusyPollReadable r pc)
  | .nlmsg _ _ => inferInstanceAs (Decidable (_ → _ → _))
  | .nlattr _ _ _ _ => inferInstanceAs (Decidable (_ → _ ∧ (_ → _ → _)))
  | .returned => isTrue trivial

private theorem readUint_readable (r : Received size) {attr : Nat} {rem : Int} (fitting : Fitting r attr rem) :
    ((NLA_HDRLEN + readUintWidth (nlaLen r.rbuf attr) : Nat) : Int) ≤ rem ↔
      (nlaLen r.rbuf attr < NLA_HDRLEN → 12 ≤ rem) := by
  rcases Nat.lt_or_ge (nlaLen r.rbuf attr) NLA_HDRLEN with short | header
  · rw [readUintWidth_wrapped short,nlaHdr]
    exact ⟨fun room _ => room,fun room => room short⟩
  · have fits := readUintWidth_fits header (nlaLen_lt r.rbuf attr)
    have inside := fitting.inside
    refine iff_of_true ?_ (fun short => absurd short (Nat.not_lt.mpr header))
    omega

private theorem readable_getBusyPoll (family : BitVec 16) (r : Received size) (pc : Pc) :
    Readable (getBusyPoll family) r pc ↔ BusyPollReadable r pc := by
  cases pc with
  | returned => exact Iff.rfl
  | nlmsg rh n =>
    refine forall_congr' fun _ => ?_
    unfold MessageReadable
    dsimp only [getBusyPoll]
    by_cases error : nlmsgType r.rbuf rh = NLMSG_ERROR
    · simp [error,nlmsgHdr]
    · refine iff_of_true ?_ (fun same => absurd same error)
      intro fields last
      rw [if_neg error] at last
      split at last <;> cases last
  | nlattr rh n attr rem =>
    refine forall_congr' fun fitting => ?_
    unfold AttributeReadable
    dsimp only [getBusyPoll]
    have room := readUint_readable r fitting
    cases wanted : napiAttr (nlaType r.rbuf attr) with
    | true => simpa using fun _ => room
    | false => simp

def NapiParams.unread : NapiParams := ⟨false,0,0,0⟩

/-- Each walk ends and reads nothing but the received messages exactly if it can read every
message and every attribute it comes to. -/
theorem walks_sound_iff (ctrl : Received 1024) (family : BitVec 16) (reply : Received 2048) :
    ((Halts (step resolveFamily ctrl) (start 0 ctrl) ∧
        ∀ t, Reaches (step resolveFamily ctrl) (start 0 ctrl) t → ReadsInside ctrl t) ↔
      ∀ t, Reaches (step resolveFamily ctrl) (start 0 ctrl) t → FamilyReadable ctrl t.pc) ∧
    ((Halts (step (getBusyPoll family) reply) (start .unread reply) ∧
        ∀ t, Reaches (step (getBusyPoll family) reply) (start .unread reply) t → ReadsInside reply t) ↔
      ∀ t, Reaches (step (getBusyPoll family) reply) (start .unread reply) t → BusyPollReadable reply t.pc) := by
  constructor
  · rw [sound_iff_readable resolveFamily 0 ctrl]
    simp only [readable_resolveFamily]
  · rw [sound_iff_readable (getBusyPoll family) .unread reply]
    simp only [readable_getBusyPoll]

def labReply : Received 2048 :=
  recv 2048 (fun _ => 0) [28,0,0,0,16,0,0,0,3,0,0,0,0,0,0,0,11,1,0,0,8,0,5,0,2,0,0,0]

private theorem labReply_final : step (getBusyPoll 16) labReply
    (turns (step (getBusyPoll 16) labReply) 4 (start .unread labReply)) = none := rfl

theorem walks_sound_iff_labReply :
    Halts (step (getBusyPoll 16) labReply) (start .unread labReply) ∧
      ∀ t, Reaches (step (getBusyPoll 16) labReply) (start .unread labReply) t → ReadsInside labReply t := by
  apply (walks_sound_iff (recv 1024 (fun _ => 0) []) 16 labReply).2.mpr
  intro t reached
  obtain ⟨k,bound,rfl⟩ := reached.of_turns 4 labReply_final
  clear reached
  revert k
  decide

def messageHeader (len type : Byte) : List Byte := [len,0,0,0,type,0,0,0,3,0,0,0,0,0,0,0]

/-- One attribute header, all zero. -/
def zeroAttribute : List Byte := messageHeader 24 16 ++ [11,1,0,0] ++ [0,0,0,0]

/-- A family id with no payload, at the end of the message. -/
def emptyFamilyId : List Byte := messageHeader 24 16 ++ [1,2,0,0] ++ [4,0,1,0]

/-- A `deferHardIrqs` whose length does not cover its own header. -/
def headlessAttribute : List Byte := messageHeader 24 16 ++ [11,1,0,0] ++ [1,0,5,0]

/-- An error message without its error number. -/
def emptyError : List Byte := messageHeader 16 2

def received (size : Nat) (bytes : List Byte) : Received size := recv size (fun _ => 0) bytes

private theorem endless_after_turns {reader : Reader α} {r : Received size} {s : State α} (turn rh : Nat) (n : Int)
    (attr : Nat) (rem : Int)
    (here : (turns (step reader r) turn s).pc = .nlattr rh n attr rem) (fitting : Fitting r attr rem)
    (more : reader.leaves (nlaType r.rbuf attr) = false) (zero : nlaLen r.rbuf attr = 0) : ¬Halts (step reader r) s := by
  intro halts
  exact endless_of_zero here fitting more zero (halts.onward (reaches_turns _ turn s))

theorem reads_outside_after_turns {reader : Reader α} {r : Received size} {s : State α} (turn : Nat) (access : Access)
    (logged : access ∈ (turns (step reader r) turn s).reads) (beyond : r.n < access.address + access.width) :
    ∃ t, Reaches (step reader r) s t ∧ ∃ access ∈ t.reads, r.n < access.address + access.width :=
  ⟨_,reaches_turns _ turn s,access,logged,beyond⟩

theorem walks_unsound :
    (¬Halts (step resolveFamily (received 1024 zeroAttribute)) (start 0 (received 1024 zeroAttribute)) ∧
      ¬Halts (step (getBusyPoll 16) (received 2048 zeroAttribute)) (start .unread (received 2048 zeroAttribute))) ∧
    (∃ t, Reaches (step resolveFamily (received 1024 emptyFamilyId)) (start 0 (received 1024 emptyFamilyId)) t ∧
      ∃ access ∈ t.reads, (received 1024 emptyFamilyId).n < access.address + access.width) ∧
    (∃ t, Reaches (step (getBusyPoll 16) (received 2048 headlessAttribute))
      (start .unread (received 2048 headlessAttribute)) t ∧
      ∃ access ∈ t.reads, (received 2048 headlessAttribute).n < access.address + access.width) ∧
    ∃ t, Reaches (step (getBusyPoll 16) (received 2048 emptyError)) (start .unread (received 2048 emptyError)) t ∧
      ∃ access ∈ t.reads, (received 2048 emptyError).n < access.address + access.width := by
  refine ⟨⟨?_,?_⟩,?_,?_,?_⟩
  · exact endless_after_turns 1 0 24 20 4 rfl (by decide) (by decide) (by decide)
  · exact endless_after_turns 1 0 24 20 4 rfl (by decide) (by decide) (by decide)
  · exact reads_outside_after_turns 2 ⟨24,2,24⟩ (by decide) (by decide)
  · exact reads_outside_after_turns 2 ⟨24,8,24⟩ (by decide) (by decide)
  · exact reads_outside_after_turns 1 ⟨16,4,16⟩ (by decide) (by decide)

end Abtrda3.Netlink
