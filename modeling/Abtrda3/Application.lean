import Mathlib.Algebra.Group.Nat.Defs
import Mathlib.Data.List.Basic

/-! The surface the benchmark loops share: the frame layout of the one-way and
round-trip frames, the configuration they read, and the calls a loop makes on its
rings, on the clock, on the stop token and on the recorder queue. A loop is an
automaton that makes one call at a time and continues from the reply. -/
namespace Abtrda3.Application

abbrev Byte := BitVec 8

def kEndSentinel : BitVec 64 := ~~~0

def kWarmupDiscard : Nat := 500000

def kTxStampNone : BitVec 32 := 0xFFFFFFFF

def kOffDstMac : Nat := 0
def kOffSrcMac : Nat := 6
def kOffEtherType : Nat := 12
def kOffSeq : Nat := 14
def kOffTxStamp : Nat := 18
def kFrameMinBytes : Nat := kOffTxStamp + 8

def byteAt (frame : List Byte) (offset : Nat) : Nat := (frame[offset]?.getD 0).toNat

def loadBytes (frame : List Byte) : Nat → Nat → Nat
  | _, 0 => 0
  | offset, width + 1 => byteAt frame offset + 256 * loadBytes frame (offset + 1) width

def loadU32 (frame : List Byte) (offset : Nat) : BitVec 32 := BitVec.ofNat 32 (loadBytes frame offset 4)

def loadU64 (frame : List Byte) (offset : Nat) : BitVec 64 := BitVec.ofNat 64 (loadBytes frame offset 8)

def storeBytes : Nat → Nat → List Byte
  | 0, _ => []
  | width + 1, value => BitVec.ofNat 8 value :: storeBytes width (value / 256)

def storeU32 (word : BitVec 32) : List Byte := storeBytes 4 word.toNat

def htonl (word : BitVec 32) : BitVec 32 := BitVec.ofNat 32 (loadBytes (storeU32 word).reverse 0 4)

/-- A `memcpy` from `offset`; what lies past the frame reads as zero. -/
def sliceOf (frame : List Byte) (offset width : Nat) : List Byte :=
  (List.range width).map (fun i => frame[offset + i]?.getD 0)

theorem storeBytes_length (width value : Nat) : (storeBytes width value).length = width := by
  induction width generalizing value with
  | zero => rfl
  | succ width ih => simp [storeBytes,ih]

theorem storeU32_length (word : BitVec 32) : (storeU32 word).length = 4 := storeBytes_length 4 _

theorem loadBytes_congr {first second : List Byte} {offset other width : Nat}
    (same : ∀ i < width, byteAt first (offset + i) = byteAt second (other + i)) :
    loadBytes first offset width = loadBytes second other width := by
  induction width generalizing offset other with
  | zero => rfl
  | succ width ih =>
    have here := same 0 (Nat.zero_lt_succ width)
    rw [Nat.add_zero,Nat.add_zero] at here
    rw [loadBytes,loadBytes,here,ih]
    intro i inside
    have later := same (i + 1) (Nat.succ_lt_succ inside)
    rwa [Nat.add_comm i,← Nat.add_assoc,← Nat.add_assoc] at later

theorem byteAt_lt (frame : List Byte) (offset : Nat) : byteAt frame offset < 256 := (frame[offset]?.getD 0).isLt

theorem byteAt_of_loadBytes {first second : List Byte} {offset other width : Nat}
    (same : loadBytes first offset width = loadBytes second other width) :
    ∀ i < width, byteAt first (offset + i) = byteAt second (other + i) := by
  induction width generalizing offset other with
  | zero => intro i inside; exact absurd inside (Nat.not_lt_zero i)
  | succ width ih =>
    rw [loadBytes,loadBytes] at same
    have low := byteAt_lt first offset
    have lowOther := byteAt_lt second other
    intro i inside
    cases i with
    | zero => change byteAt first offset = byteAt second other; omega
    | succ i =>
      have later := ih (show loadBytes first (offset + 1) width = loadBytes second (other + 1) width by omega) i
        (Nat.lt_of_succ_lt_succ inside)
      rwa [Nat.add_assoc,Nat.add_assoc,Nat.add_comm 1] at later

theorem loadBytes_append (before after : List Byte) (offset width : Nat) :
    loadBytes (before ++ after) (before.length + offset) width = loadBytes after offset width := by
  induction width generalizing offset with
  | zero => rfl
  | succ width ih =>
    have here : byteAt (before ++ after) (before.length + offset) = byteAt after offset := by
      simp [byteAt,List.getElem?_append_right]
    rw [loadBytes,loadBytes,here,Nat.add_assoc,ih]

theorem loadBytes_append_left (before after : List Byte) {offset width : Nat} (inside : offset + width ≤ before.length) :
    loadBytes (before ++ after) offset width = loadBytes before offset width := by
  apply loadBytes_congr
  intro i below
  unfold byteAt
  rw [List.getElem?_append_left (by omega)]

theorem loadBytes_storeBytes (width value : Nat) (after : List Byte) :
    loadBytes (storeBytes width value ++ after) 0 width = value % 256^width := by
  induction width generalizing value with
  | zero => simp [loadBytes,Nat.mod_one]
  | succ width ih =>
    have low : byteAt (storeBytes (width + 1) value ++ after) 0 = value % 256 := by
      simp [byteAt,storeBytes]
    have high := loadBytes_append [BitVec.ofNat 8 value] (storeBytes width (value / 256) ++ after) 0 width
    rw [ih] at high
    calc loadBytes (storeBytes (width + 1) value ++ after) 0 (width + 1)
        = value % 256 + 256 * (value / 256 % 256^width) := by
          rw [loadBytes,low]
          exact congrArg (fun rest => value % 256 + 256 * rest) high
      _ = value % 256^(width + 1) := by rw [Nat.pow_succ',Nat.mod_mul]

theorem loadU32_storeU32 (before : List Byte) (word : BitVec 32) (after : List Byte) :
    loadU32 (before ++ (storeU32 word ++ after)) before.length = word := by
  have read := loadBytes_append before (storeU32 word ++ after) 0 4
  rw [Nat.add_zero] at read
  have fits : word.toNat < 256^4 := word.isLt
  unfold loadU32
  rw [read,storeU32,loadBytes_storeBytes,Nat.mod_eq_of_lt fits,BitVec.ofNat_toNat,BitVec.setWidth_eq]

private theorem storeBytes_loadBytes (bytes : List Byte) :
    storeBytes bytes.length (loadBytes bytes 0 bytes.length) = bytes := by
  induction bytes with
  | nil => rfl
  | cons byte rest ih =>
    have tail := loadBytes_append [byte] rest 0 rest.length
    have first : byteAt (byte :: rest) 0 = byte.toNat := rfl
    have low : byte.toNat < 256 := byte.isLt
    change loadBytes (byte :: rest) 1 rest.length = _ at tail
    rw [List.length_cons,loadBytes,first,tail,storeBytes]
    congr 1
    · apply BitVec.eq_of_toNat_eq
      rw [BitVec.toNat_ofNat]
      omega
    · rw [show (byte.toNat + 256 * loadBytes rest 0 rest.length) / 256 = loadBytes rest 0 rest.length by omega]
      exact ih

theorem loadBytes_lt (frame : List Byte) (offset width : Nat) : loadBytes frame offset width < 256^width := by
  induction width generalizing offset with
  | zero => exact Nat.one_pos
  | succ width ih =>
    have here := byteAt_lt frame offset
    have later := ih (offset + 1)
    rw [loadBytes,Nat.pow_succ']
    omega

private theorem storeU32_htonl (word : BitVec 32) : storeU32 (htonl word) = (storeU32 word).reverse := by
  have size : (storeU32 word).reverse.length = 4 := by rw [List.length_reverse,storeU32_length]
  have fits : _ < 2^32 := loadBytes_lt (storeU32 word).reverse 0 4
  have whole := storeBytes_loadBytes (storeU32 word).reverse
  rw [size] at whole
  conv_lhs => unfold storeU32 htonl
  rw [BitVec.toNat_ofNat,Nat.mod_eq_of_lt fits,whole]

theorem htonl_htonl (word : BitVec 32) : htonl (htonl word) = word := by
  have read := loadBytes_storeBytes 4 word.toNat []
  rw [List.append_nil] at read
  have whole : word.toNat % 256^4 = word.toNat := Nat.mod_eq_of_lt word.isLt
  rw [htonl,storeU32_htonl,List.reverse_reverse,storeU32,read,whole,BitVec.ofNat_toNat,BitVec.setWidth_eq]

/-- A `memcpy` into a frame at `offset`. -/
def storeAt (frame : List Byte) (offset : Nat) (bytes : List Byte) : List Byte :=
  frame.take offset ++ (bytes ++ frame.drop (offset + bytes.length))

variable {frame : List Byte} {offset : Nat}

theorem storeAt_length {bytes : List Byte}
    (inside : offset + bytes.length ≤ frame.length) : (storeAt frame offset bytes).length = frame.length := by
  unfold storeAt
  rw [List.length_append,List.length_append,List.length_take,List.length_drop]
  omega

theorem storeAt_take {offset width : Nat} (bytes : List Byte) (before : width ≤ offset)
    (inside : offset ≤ frame.length) : (storeAt frame offset bytes).take width = frame.take width := by
  unfold storeAt
  rw [List.take_append_of_le_length (by rw [List.length_take]; omega),List.take_take,Nat.min_eq_left before]

private theorem loadBytes_storeAt (width value : Nat) (inside : offset ≤ frame.length) :
    loadBytes (storeAt frame offset (storeBytes width value)) offset width = value % 256^width := by
  have size : (frame.take offset).length = offset := List.length_take_of_le inside
  have read := loadBytes_append (frame.take offset)
    (storeBytes width value ++ frame.drop (offset + (storeBytes width value).length)) 0 width
  rw [size,Nat.add_zero,loadBytes_storeBytes] at read
  exact read

theorem loadU32_stored (word : BitVec 32) (inside : offset ≤ frame.length) :
    loadU32 (storeAt frame offset (storeU32 word)) offset = word := by
  have fits : word.toNat < 256^4 := word.isLt
  unfold loadU32 storeU32
  rw [loadBytes_storeAt 4 _ inside,Nat.mod_eq_of_lt fits,BitVec.ofNat_toNat,BitVec.setWidth_eq]

theorem loadU64_stored (word : BitVec 64) (inside : offset ≤ frame.length) :
    loadU64 (storeAt frame offset (storeBytes 8 word.toNat)) offset = word := by
  have fits : word.toNat < 256^8 := word.isLt
  unfold loadU64
  rw [loadBytes_storeAt 8 _ inside,Nat.mod_eq_of_lt fits,BitVec.ofNat_toNat,BitVec.setWidth_eq]

theorem loadBytes_storeAt_before {offset width place : Nat} (bytes : List Byte)
    (before : offset + width ≤ place) (inside : place ≤ frame.length) :
    loadBytes (storeAt frame place bytes) offset width = loadBytes frame offset width := by
  have size : (frame.take place).length = place := List.length_take_of_le inside
  have fits : offset + width ≤ (frame.take place).length := by rw [size]; exact before
  have whole := loadBytes_append_left (frame.take place) (frame.drop place) fits
  rw [List.take_append_drop] at whole
  unfold storeAt
  rw [loadBytes_append_left _ _ fits,whole]

theorem sliceOf_length (frame : List Byte) (offset width : Nat) : (sliceOf frame offset width).length = width := by
  unfold sliceOf
  rw [List.length_map,List.length_range]

theorem sliceOf_storeAt (bytes : List Byte) (inside : offset ≤ frame.length) :
    sliceOf (storeAt frame offset bytes) offset bytes.length = bytes := by
  have size : (frame.take offset).length = offset := List.length_take_of_le inside
  unfold sliceOf storeAt
  apply List.ext_getElem
  · rw [List.length_map,List.length_range]
  · intro i _ below
    rw [List.getElem_map,List.getElem_range,List.getElem?_append_right (by omega),size,Nat.add_sub_cancel_left,
      List.getElem?_append_left below,List.getElem?_eq_getElem below]
    rfl

theorem sliceOf_append (padding : List Byte) {offset width : Nat}
    (inside : offset + width ≤ frame.length) :
    sliceOf (frame ++ padding) offset width = sliceOf frame offset width := by
  unfold sliceOf
  apply List.map_congr_left
  intro i member
  have below := List.mem_range.mp member
  rw [List.getElem?_append_left (by omega)]

theorem loadU32_of_slice {first second : List Byte} {offset width : Nat} (four : 4 ≤ width)
    (same : sliceOf first offset width = sliceOf second offset width) : loadU32 first offset = loadU32 second offset := by
  unfold loadU32
  congr 1
  apply loadBytes_congr
  intro i below
  have here := congrArg (fun bytes => (bytes[i]?).getD 0) same
  simp only [sliceOf,List.getElem?_map,List.getElem?_range (Nat.lt_of_lt_of_le below four),Option.map_some,
    Option.getD_some] at here
  unfold byteAt
  rw [here]

structure Mac where
  bytes : List Byte
  six : bytes.length = 6

private theorem localBytes_length (last : Byte) : [2,0,0,0,0,last].length = 6 := rfl

def Mac.localAddress (last : Byte) : Mac := ⟨[2,0,0,0,0,last],localBytes_length last⟩

structure TestConfig where
  etherType : BitVec 16
  frameSize : BitVec 32
  sendIntervalUs : BitVec 32
  recQueueCapacity : Nat
  clientMac : Mac
  serverMac : Mac

def TestConfig.intervalNs (cfg : TestConfig) : Nat := cfg.sendIntervalUs.toNat * 1000

def headerStores (dst src : Mac) (etherType : BitVec 16) : List (Nat × List Byte) :=
  [(kOffDstMac,dst.bytes),(kOffSrcMac,src.bytes),(kOffEtherType,[(etherType >>> 8).setWidth 8]),
    (kOffEtherType + 1,[(etherType &&& 0xFF).setWidth 8])]

def template (size : Nat) (dst src : Mac) (etherType : BitVec 16) : List Byte :=
  (headerStores dst src etherType).foldl (fun frame store => storeAt frame store.1 store.2) (List.replicate size 0)

def headerBytes (dst src : Mac) (etherType : BitVec 16) : List Byte :=
  dst.bytes ++ src.bytes ++ [(etherType >>> 8).setWidth 8,(etherType &&& 0xFF).setWidth 8]

theorem headerBytes_length (dst src : Mac) (etherType : BitVec 16) : (headerBytes dst src etherType).length = kOffSeq := by
  simp [headerBytes,dst.six,src.six,kOffSeq]

private theorem storeAt_end {before : List Byte} (room : Nat) (bytes : List Byte)
    (here : before.length = offset) :
    storeAt (before ++ List.replicate room 0) offset bytes =
      (before ++ bytes) ++ List.replicate (room - bytes.length) 0 := by
  subst here
  unfold storeAt
  rw [List.take_left,List.drop_append,List.drop_replicate,List.append_assoc]
  simp

theorem template_eq (size : Nat) (dst src : Mac) (etherType : BitVec 16) :
    template size dst src etherType = headerBytes dst src etherType ++ List.replicate (size - kOffSeq) 0 := by
  have first := storeAt_end size dst.bytes (show ([] : List Byte).length = kOffDstMac from rfl)
  rw [List.nil_append,List.nil_append] at first
  simp only [template,headerStores,List.foldl_cons,List.foldl_nil]
  have third : (dst.bytes ++ src.bytes).length = kOffEtherType := by simp [dst.six,src.six,kOffEtherType]
  rw [first,storeAt_end _ _ (show dst.bytes.length = kOffSrcMac from dst.six),storeAt_end _ _ third,
    storeAt_end _ _ (by rw [List.length_append,third]; rfl),dst.six,src.six]
  simp [headerBytes,kOffSeq,Nat.sub_sub]

structure TxStamp where
  seq : BitVec 32
  minor : BitVec 32
  deriving DecidableEq, Repr

structure Timespec where
  sec : Nat
  nsec : Nat
  deriving DecidableEq, Repr

/-- The next deadline of a paced loop. The loops keep both addends below a second, so one
carry is enough. -/
def Timespec.advance (t : Timespec) (intervalNs : Nat) : Timespec :=
  let sec := t.sec + intervalNs / 1000000000
  let nsec := t.nsec + intervalNs % 1000000000
  if nsec ≥ 1000000000 then ⟨sec + 1,nsec - 1000000000⟩ else ⟨sec,nsec⟩

inductive Stamps
  | hardware (rx tx : BitVec 32)
  | cycles (arrival departure : BitVec 64)
  deriving DecidableEq, Repr

def Stamps.sample : Stamps → BitVec 64
  | .hardware rx tx => (rx.setWidth 64 <<< 32) ||| tx.setWidth 64
  | .cycles arrival departure => arrival - departure

inductive Call
  | now
  | stopRequested
  | sleepUntil (deadline : Timespec)
  | acquire (frameLen : BitVec 32)
  | store (offset : Nat) (bytes : List Byte)
  | txSequence
  | commit
  | tryReceive
  | release
  | pollTxTimestamp
  | hwRxTimestamp
  | txDone
  | tryPush (sample : BitVec 64)
  deriving DecidableEq, Repr

def Call.sample? : Call → Option (BitVec 64)
  | .tryPush sample => some sample
  | _ => none

inductive Reply
  | done
  | time (cycles : BitVec 64)
  | flag (value : Bool)
  | word (value : BitVec 32)
  | frame (bytes : List Byte)
  | stamp (value : Option TxStamp)
  deriving DecidableEq, Repr

namespace Reply

def done? : Reply → Option Unit
  | .done => some ()
  | _ => none

def time? : Reply → Option (BitVec 64)
  | .time cycles => some cycles
  | _ => none

def flag? : Reply → Option Bool
  | .flag value => some value
  | _ => none

def word? : Reply → Option (BitVec 32)
  | .word value => some value
  | _ => none

def frame? : Reply → Option (List Byte)
  | .frame bytes => some bytes
  | _ => none

def stamp? : Reply → Option (Option TxStamp)
  | .stamp value => some value
  | _ => none

theorem time?_eq_some {reply : Reply} {cycles : BitVec 64} (read : reply.time? = some cycles) : reply = .time cycles := by
  cases reply <;> simp_all [time?]

theorem flag?_eq_some {reply : Reply} {value : Bool} (read : reply.flag? = some value) : reply = .flag value := by
  cases reply <;> simp_all [flag?]

theorem frame?_eq_some {reply : Reply} {bytes : List Byte} (read : reply.frame? = some bytes) : reply = .frame bytes := by
  cases reply <;> simp_all [frame?]

theorem stamp?_eq_some {reply : Reply} {value : Option TxStamp} (read : reply.stamp? = some value) :
    reply = .stamp value := by
  cases reply <;> simp_all [stamp?]

end Reply

theorem Call.sample?_eq_some {call : Call} {sample : BitVec 64} :
    call.sample? = some sample ↔ call = .tryPush sample := by
  cases call <;> simp [sample?]

inductive Phase
  | sampling
  | finishing
  | returned
  deriving DecidableEq, Repr

/-- Both stamps missing, or a departure exactly one cycle after the arrival: the
only pairs whose sample is the end marker. -/
def Stamps.Collides : Stamps → Prop
  | .hardware rx tx => rx = 0xFFFFFFFF ∧ tx = 0xFFFFFFFF
  | .cycles arrival departure => departure = arrival + 1

instance : (stamps : Stamps) → Decidable stamps.Collides
  | .hardware _ _ => inferInstanceAs (Decidable (_ ∧ _))
  | .cycles _ _ => inferInstanceAs (Decidable (_ = _))

theorem packed_toNat (rx tx : BitVec 32) :
    ((rx.setWidth 64 <<< 32) ||| tx.setWidth 64 : BitVec 64).toNat = 2^32 * rx.toNat + tx.toNat := by
  have low : tx.toNat < 2^32 := tx.isLt
  have high : rx.toNat < 2^32 := rx.isLt
  rw [BitVec.toNat_or,BitVec.toNat_shiftLeft,BitVec.toNat_setWidth,BitVec.toNat_setWidth,
    Nat.mod_eq_of_lt (by omega),Nat.mod_eq_of_lt (by omega),Nat.shiftLeft_eq,Nat.mod_eq_of_lt (by omega),
    Nat.mul_comm,Nat.two_pow_add_eq_or_of_lt low]

theorem sample_eq_endSentinel_iff (stamps : Stamps) : stamps.sample = kEndSentinel ↔ stamps.Collides := by
  cases stamps with
  | hardware rx tx =>
    have low : tx.toNat < 2^32 := tx.isLt
    have high : rx.toNat < 2^32 := rx.isLt
    simp only [Stamps.sample,Stamps.Collides,kEndSentinel,← BitVec.toNat_inj,packed_toNat]
    constructor
    · intro same
      have value : 2^32 * rx.toNat + tx.toNat = 2^64 - 1 := same
      constructor <;> (change _ = 2^32 - 1) <;> omega
    · rintro ⟨rxMissing,txMissing⟩
      rw [rxMissing,txMissing]
      rfl
  | cycles arrival departure =>
    simp only [Stamps.sample,Stamps.Collides,kEndSentinel]
    constructor
    · intro same
      have shifted : arrival + 1 = departure + (arrival - departure + 1) := by
        rw [← BitVec.add_assoc,BitVec.add_comm departure,BitVec.sub_add_cancel]
      rw [shifted,same]
      simp
    · rintro rfl
      bv_omega

/-- A loop that feeds the recorder. The laws say what the recorder may rely on: a
push from the sampling loop offers the sample of the stamps at hand, the finishing
loop offers the end marker until it is taken, and nothing follows it. -/
structure Producer (σ : Type) where
  call : σ → Option Call
  next : σ → Reply → Option σ
  phase : σ → Phase
  stamps : σ → Option Stamps
  offers : ∀ s sample, phase s = .sampling → call s = some (.tryPush sample) →
    ∃ pair, stamps s = some pair ∧ sample = pair.sample
  holds : ∀ s pair, stamps s = some pair → phase s = .sampling ∧ call s = some (.tryPush pair.sample)
  samples : ∀ s reply t, phase s = .sampling → next s reply = some t → phase t ≠ .returned
  marks : ∀ s, phase s = .finishing → call s = some (.tryPush kEndSentinel)
  retries : ∀ s reply t, phase s = .finishing → next s reply = some t →
    ∃ taken, reply = .flag taken ∧ phase t = if taken then .returned else .finishing
  silent : ∀ s, phase s = .returned → call s = none

end Abtrda3.Application
