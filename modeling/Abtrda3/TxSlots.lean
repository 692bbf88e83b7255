import Abtrda3.AfxdpTransmit
import Abtrda3.Dpdk
import Abtrda3.EfViCtpio
import Abtrda3.I210Transmit
import Abtrda3.PacketMmap
import Abtrda3.Semantics.SlotLayout

/-! Where the transmit buffers of the transports lie, and how much of them an `acquire` or
a `prefillRing` lets be written. Only the generic ef_vi tuning compares the length of a
frame with its slot. -/
namespace Abtrda3.TxSlots
open Abtrda3.Semantics Abtrda3.Semantics.Machine

def kMbufHeader : Nat := 128 + 128

def kDataRoom : Nat := 2048

/-- The elements of an mbuf pool: the mbuf, its headroom, its data room. -/
structure Pool where
  stride : Nat
  element : kMbufHeader + kDataRoom ≤ stride

def Pool.mtod (pool : Pool) (m : Dpdk.Mbuf) : Nat := m * pool.stride + kMbufHeader

inductive Backend
  | afxdp (p : Afxdp.Params) (sends : p.mode ≠ .RxOnly)
  | i210 (p : I210.Params)
  | packetMmap (p : PacketMmap.RingConfig) (headed : PacketMmap.kDataOffset ≤ p.blockSize.toNat)
  | efVi (r : EfViCtpio.Region)
  | dpdk (p : Dpdk.Params) (pool : Pool)

namespace Backend

def State : Backend → Type
  | .afxdp _ _ => AfxdpTransmit.State
  | .i210 _ => I210Transmit.State
  | .packetMmap _ _ => PacketMmap.Tx.State
  | .efVi _ => EfVi.State
  | .dpdk _ _ => Dpdk.State

def Reachable : (b : Backend) → b.State → Prop
  | .afxdp p _, s => ∃ events, run (AfxdpTransmit.step p) (AfxdpTransmit.start p) events = some s
  | .i210 p, s => ∃ memory events, run (I210Transmit.step p) (I210Transmit.start memory) events = some s
  | .packetMmap p _, s => ∃ events, run (PacketMmap.Tx.step p) PacketMmap.Tx.start events = some s
  | .efVi r, s => ∃ ops, run (EfVi.step r.p) (EfVi.start r.p) ops = some s
  | .dpdk p _, s =>
    ∃ ifname lcore w calls, run (Dpdk.step p) (Dpdk.start ifname lcore w) calls = some s ∧ s.obj.started = true

/-- An mbuf comes out of the pool; the others have no allocator. -/
def Allocates : (b : Backend) → b.State → Option Dpdk.Mbuf → Prop
  | .dpdk _ _, s, allocated => Dpdk.inPool s.world allocated
  | _, _, _ => True

def acquire : (b : Backend) → b.State → BitVec 32 → Option Dpdk.Mbuf → b.State × Option Nat
  | .afxdp p _, s, frameLen, _ =>
    (AfxdpTransmit.acquire p s frameLen,some (AfxdpTransmit.acquire p s frameLen).pendingTxAddr.toNat)
  | .i210 p, s, frameLen, _ =>
    ((I210Transmit.acquire p s frameLen).1,(I210Transmit.acquire p s frameLen).2.map (· * p.buffSize))
  | .packetMmap _ _, s, frameLen, _ => PacketMmap.Tx.acquire s frameLen
  | .efVi r, s, frameLen, _ =>
    ((EfVi.acquire r.p s frameLen).1,
     if (EfVi.acquire r.p s frameLen).2 = .flag true then
       some (EfViCtpio.txFrame r (EfVi.acquire r.p s frameLen).1.tx.slot)
     else none)
  | .dpdk _ pool, s, frameLen, allocated =>
    let (o,w,granted) := Dpdk.acquire s.obj s.world frameLen allocated
    ({s with obj := o, world := w, granted := granted},granted.map pool.mtod)

private theorem headless_whole (size : Nat) : 0 + size ≤ size := by omega

private theorem packetMmap_whole {p : PacketMmap.RingConfig} (headed : PacketMmap.kDataOffset ≤ p.blockSize.toNat) :
    PacketMmap.kDataOffset + (p.blockSize.toNat - PacketMmap.kDataOffset) ≤ p.blockSize.toNat := by
  omega

private theorem efVi_whole (r : EfViCtpio.Region) :
    (EfViCtpio.kTxHdrBytes r.p).toNat + (r.p.bufSize.toNat - (EfViCtpio.kTxHdrBytes r.p).toNat) ≤ r.p.bufSize.toNat := by
  have room := r.p.prefixRoom
  have small : (EfViCtpio.kTxHdrBytes r.p).toNat ≤ 4 := by
    unfold EfViCtpio.kTxHdrBytes
    split <;> decide
  omega

def layout : Backend → SlotLayout
  | .afxdp p _ => ⟨p.frameSize,0,p.frameSize,headless_whole _⟩
  | .i210 p => ⟨p.buffSize,0,p.buffSize,headless_whole _⟩
  | .packetMmap p headed =>
    ⟨p.blockSize.toNat,PacketMmap.kDataOffset,p.blockSize.toNat - PacketMmap.kDataOffset,packetMmap_whole headed⟩
  | .efVi r =>
    ⟨r.p.bufSize.toNat,(EfViCtpio.kTxHdrBytes r.p).toNat,r.p.bufSize.toNat - (EfViCtpio.kTxHdrBytes r.p).toNat,efVi_whole r⟩
  | .dpdk _ pool => ⟨pool.stride,kMbufHeader,kDataRoom,pool.element⟩

def slots : Backend → Set Nat
  | .afxdp p _ => {slot | slot < p.txPoolFrames}
  | .i210 p => {slot | slot < p.numTxDesc}
  | .packetMmap p _ => {slot | slot < p.blockNumber.toNat}
  | .efVi r => {slot | ∃ s, s < r.p.nbTxBufs ∧ slot = r.p.nbRxBufs + 1 + r.txPad.toNat + s}
  | .dpdk _ _ => Set.univ

/-- The bytes of a template that reach each slot, unless it is refused. -/
def stamp : Backend → List (BitVec 8) → Option (List (BitVec 8))
  | .afxdp p _, frameTemplate => if p.frameSize < frameTemplate.length then none else some frameTemplate
  | .i210 _, frameTemplate => some frameTemplate
  | .packetMmap _ _, frameTemplate => some frameTemplate
  | .efVi r, frameTemplate =>
    some (frameTemplate.take (min frameTemplate.length (r.p.bufSize - EfViCtpio.kTxHdrBytes r.p).toNat))
  | .dpdk p _, frameTemplate => some (frameTemplate.take (min frameTemplate.length p.maxFrame.toNat))

def checksLength : Backend → Prop
  | .efVi r => r.p.kX2522Plus = false
  | _ => False

def boundsTemplate : Backend → Prop
  | .afxdp _ _ => True
  | .efVi _ => True
  | .dpdk p _ => p.maxFrame.toNat ≤ kDataRoom
  | _ => False

/-- What every `acquire` of a frame that long owes the other slots. -/
def Isolates (b : Backend) (frameLen : BitVec 32) : Prop :=
  ∀ s, b.Reachable s → ∀ allocated, b.Allocates s allocated →
    (∀ pointer, (b.acquire s frameLen allocated).2 = some pointer →
      ∃ slot ∈ b.slots, Area.Inside ⟨pointer,frameLen.toNat⟩ (b.layout.data slot)) ∧
    (b.layout.room < frameLen.toNat → b.acquire s frameLen allocated = (s,none))

def Stamps (b : Backend) (frameTemplate : List (BitVec 8)) : Prop :=
  ∀ bytes, b.stamp frameTemplate = some bytes →
    ∀ slot, Area.Inside ⟨(b.layout.data slot).base,bytes.length⟩ (b.layout.data slot)

/-- The transport's own `prefillRing` puts the stamped bytes at the start of each slot's data. -/
def Prefills : Backend → List (BitVec 8) → Prop
  | .afxdp p sends, frameTemplate => ∀ buffer, Afxdp.prefillRing p buffer frameTemplate =
      ((afxdp p sends).stamp frameTemplate).map ((afxdp p sends).layout.stampAll (List.range p.txPoolFrames) buffer)
  | .i210 p, frameTemplate => ∀ txBuffer, some (I210.prefillRing p txBuffer frameTemplate) =
      ((i210 p).stamp frameTemplate).map ((i210 p).layout.stampAll (List.range p.numTxDesc) txBuffer)
  | .packetMmap p headed, frameTemplate => ∀ (ring : PacketMmap.Ring), ∀ slot ∈ (packetMmap p headed).slots,
      (ring (PacketMmap.slotAt p slot)).tpStatus = PacketMmap.tpStatusAvailable →
      some (PacketMmap.Tx.prefillRing p ring frameTemplate (PacketMmap.slotAt p slot)).bytes =
        ((packetMmap p headed).stamp frameTemplate).map
          ((ring (PacketMmap.slotAt p slot)).bytes.write (packetMmap p headed).layout.header)
  | .efVi r, frameTemplate => ∀ mem, some (EfViCtpio.prefillRing r mem frameTemplate) =
      ((efVi r).stamp frameTemplate).map ((efVi r).layout.stampAll
        ((List.range r.p.nbTxBufs).map (r.p.nbRxBufs + 1 + r.txPad.toNat + ·)) mem)
  | .dpdk p pool, frameTemplate => ∀ o : Dpdk.Port,
      some ((Dpdk.prefillRing p o frameTemplate).txTemplate.read
        0 (Dpdk.prefillRing p o frameTemplate).txTemplateLen.toNat) =
        (dpdk p pool).stamp frameTemplate

end Backend

open Backend

private theorem afxdp_prefillRing (p : Afxdp.Params) (sends : p.mode ≠ .RxOnly) (buffer : ByteMemory)
    (frameTemplate : List (BitVec 8)) :
    Afxdp.prefillRing p buffer frameTemplate =
      ((afxdp p sends).stamp frameTemplate).map ((afxdp p sends).layout.stampAll (List.range p.txPoolFrames) buffer) := by
  have bits : p.numTxFrames ≤ 2^31 := Nat.pow_le_pow_right (by decide) (Nat.le_of_lt_succ (p.txSized sends).2)
  have starts : ∀ slot ∈ List.range p.txPoolFrames,
      (Afxdp.frameAddr p (BitVec.ofNat 32 slot)).toNat = ((afxdp p sends).layout.data (id slot)).base := by
    intro slot member
    have below := List.mem_range.mp member
    rw [Afxdp.Params.txPoolFrames,if_neg sends] at below
    rw [Afxdp.frameAddr_toNat,BitVec.toNat_ofNat,Nat.mod_eq_of_lt (by omega)]
    rfl
  have filled := (afxdp p sends).layout.stampAll_of_base starts buffer frameTemplate
  rw [List.map_id] at filled
  rw [Afxdp.prefillRing,Backend.stamp]
  by_cases long : p.frameSize < frameTemplate.length
  · rw [if_pos long,if_pos long]
    rfl
  · rw [if_neg long,if_neg long,filled]
    rfl

private theorem i210_prefillRing (p : I210.Params) (txBuffer : ByteMemory) (frameTemplate : List (BitVec 8)) :
    some (I210.prefillRing p txBuffer frameTemplate) =
      ((i210 p).stamp frameTemplate).map ((i210 p).layout.stampAll (List.range p.numTxDesc) txBuffer) := by
  have starts : ∀ slot ∈ List.range p.numTxDesc, slot * p.buffSize = ((i210 p).layout.data (id slot)).base := fun _ _ => rfl
  have filled := (i210 p).layout.stampAll_of_base starts txBuffer frameTemplate
  rw [List.map_id] at filled
  exact congrArg some filled

private theorem packetMmap_prefillRing {p : PacketMmap.RingConfig} (headed : PacketMmap.kDataOffset ≤ p.blockSize.toNat)
    {ring : PacketMmap.Ring} (frameTemplate : List (BitVec 8)) {slot : Nat} (owned : slot ∈ (packetMmap p headed).slots)
    (free : (ring (PacketMmap.slotAt p slot)).tpStatus = PacketMmap.tpStatusAvailable) :
    some (PacketMmap.Tx.prefillRing p ring frameTemplate (PacketMmap.slotAt p slot)).bytes =
      ((packetMmap p headed).stamp frameTemplate).map
        ((ring (PacketMmap.slotAt p slot)).bytes.write (packetMmap p headed).layout.header) := by
  have inside : slot < p.blockNumber.toNat := owned
  rw [PacketMmap.Tx.prefillRing_slotAt,if_pos inside,PacketMmap.Tx.stamp,if_pos free]
  rfl

private theorem efVi_prefillRing (r : EfViCtpio.Region) (mem : ByteMemory) (frameTemplate : List (BitVec 8)) :
    some (EfViCtpio.prefillRing r mem frameTemplate) =
      ((efVi r).stamp frameTemplate).map ((efVi r).layout.stampAll
        ((List.range r.p.nbTxBufs).map (r.p.nbRxBufs + 1 + r.txPad.toNat + ·)) mem) := by
  have small := EfViCtpio.nbTxBufs_le r
  have starts : ∀ s ∈ List.range r.p.nbTxBufs, EfViCtpio.txFrame r (BitVec.ofNat 32 s) =
      ((efVi r).layout.data (r.p.nbRxBufs + 1 + r.txPad.toNat + s)).base := by
    intro s member
    have below := List.mem_range.mp member
    have narrow : (BitVec.ofNat 32 s).toNat = s := by rw [BitVec.toNat_ofNat,Nat.mod_eq_of_lt (by omega)]
    rw [EfViCtpio.txFrame,EfViCtpio.txSlot_eq r (by omega),narrow]
    rfl
  exact congrArg some ((efVi r).layout.stampAll_of_base starts mem _)

private theorem dpdk_prefillRing (p : Dpdk.Params) (pool : Pool) (o : Dpdk.Port) (frameTemplate : List (BitVec 8)) :
    some ((Dpdk.prefillRing p o frameTemplate).txTemplate.read 0 (Dpdk.prefillRing p o frameTemplate).txTemplateLen.toNat) =
      (dpdk p pool).stamp frameTemplate := by
  have small := p.maxFrame.isLt
  have length : (frameTemplate.take (min frameTemplate.length p.maxFrame.toNat)).length =
      (BitVec.ofNat 16 (min frameTemplate.length p.maxFrame.toNat)).toNat := by
    rw [List.length_take,BitVec.toNat_ofNat,Nat.mod_eq_of_lt (by omega)]
    omega
  unfold Dpdk.prefillRing Backend.stamp
  dsimp only
  rw [← length,ByteMemory.read_write_same]

private theorem prefills (b : Backend) (frameTemplate : List (BitVec 8)) : b.Prefills frameTemplate := by
  cases b with
  | afxdp p sends => exact fun buffer => afxdp_prefillRing p sends buffer frameTemplate
  | i210 p => exact fun txBuffer => i210_prefillRing p txBuffer frameTemplate
  | packetMmap p headed => exact fun _ _ owned free => packetMmap_prefillRing headed frameTemplate owned free
  | efVi r => exact fun mem => efVi_prefillRing r mem frameTemplate
  | dpdk p pool => exact fun o => dpdk_prefillRing p pool o frameTemplate

private theorem afxdp_granted {p : Afxdp.Params} (sends : p.mode ≠ .RxOnly) {s : AfxdpTransmit.State}
    (reached : (afxdp p sends).Reachable s) :
    s.txFrameNb.toNat ∈ (afxdp p sends).slots ∧
      (Afxdp.frameAddr p s.txFrameNb).toNat = ((afxdp p sends).layout.data s.txFrameNb.toNat).base := by
  obtain ⟨events,ran⟩ := reached
  have placed : AfxdpTransmit.Placed p s := by
    apply reachable_invariant (AfxdpTransmit.Placed p) _ (AfxdpTransmit.start_placed p) ran
    intro s event t placed moved
    exact AfxdpTransmit.step_placed sends placed moved
  have below : s.txFrameNb.toNat < p.numTxFrames := by
    rw [placed.index]
    exact Nat.mod_lt _ (Nat.two_pow_pos _)
  constructor
  · change s.txFrameNb.toNat < p.txPoolFrames
    rw [Afxdp.Params.txPoolFrames,if_neg sends]
    exact below
  · rw [Afxdp.frameAddr_toNat]
    rfl

variable {frameLen : BitVec 32}

private theorem i210_granted {p : I210.Params} {s : I210Transmit.State} (reached : (i210 p).Reachable s)
    {slot : Nat} (granted : (I210Transmit.acquire p s frameLen).2 = some slot) : slot ∈ (i210 p).slots := by
  obtain ⟨memory,events,ran⟩ := reached
  obtain ⟨cleaned,window⟩ := I210Transmit.window_of_run ran
  obtain ⟨after,first,seen,later,_⟩ := window.look
  unfold I210Transmit.acquire at granted
  dsimp only at granted
  rw [seen] at granted
  split at granted
  · contradiction
  · rw [← Option.some.inj granted,later.tail_toNat]
    exact Nat.mod_lt _ (I210Transmit.numTxDesc_pos p)

private theorem packetMmap_granted {p : PacketMmap.RingConfig} (headed : PacketMmap.kDataOffset ≤ p.blockSize.toNat)
    {s : PacketMmap.Tx.State} (reached : (packetMmap p headed).Reachable s) :
    ∃ slot ∈ (packetMmap p headed).slots,
      s.nextSlot + PacketMmap.kDataOffset = ((packetMmap p headed).layout.data slot).base := by
  obtain ⟨events,ran⟩ := reached
  obtain ⟨returned,unsent,inv⟩ := PacketMmap.Tx.inv_of_run ran
  exact ⟨returned % p.blockNumber.toNat,Nat.mod_lt _ p.numberPositive,
    congrArg (· + PacketMmap.kDataOffset) inv.user⟩

private theorem efVi_granted (r : EfViCtpio.Region) (s : EfVi.State)
    (granted : (EfVi.acquire r.p s frameLen).2 = .flag true) :
    ∃ slot ∈ (efVi r).slots,
      EfViCtpio.txFrame r (EfVi.acquire r.p s frameLen).1.tx.slot = ((efVi r).layout.data slot).base := by
  obtain ⟨after,_,claimed | refused⟩ := EfVi.acquire_cases r.p s frameLen
  · have inside := EfViCtpio.claim_slot r after.tx frameLen
    refine ⟨_,⟨_,inside,rfl⟩,?_⟩
    rw [claimed.1]
    change EfViCtpio.txFrame r (after.tx.claim r.p frameLen).slot = _
    rw [EfViCtpio.txFrame,EfViCtpio.txSlot_eq r inside]
    rfl
  · rw [refused.1] at granted
    cases granted

/-- Whatever the transport, the address handed out is the start of a slot's data. -/
theorem acquire_slot {b : Backend} {s : b.State} (reached : b.Reachable s)
    {allocated : Option Dpdk.Mbuf} {pointer : Nat} (granted : (b.acquire s frameLen allocated).2 = some pointer) :
    ∃ slot ∈ b.slots, pointer = (b.layout.data slot).base := by
  cases b with
  | afxdp p sends =>
    obtain ⟨owned,start⟩ := afxdp_granted sends reached
    exact ⟨_,owned,(Option.some.inj granted).symm.trans start⟩
  | i210 p =>
    obtain ⟨slot,found,rfl⟩ := Option.map_eq_some_iff.mp granted
    exact ⟨slot,i210_granted reached found,rfl⟩
  | packetMmap p headed =>
    obtain ⟨slot,owned,start⟩ := packetMmap_granted headed reached
    refine ⟨slot,owned,?_⟩
    rw [← start]
    change (PacketMmap.Tx.acquire s frameLen).2 = some pointer at granted
    unfold PacketMmap.Tx.acquire at granted
    dsimp only at granted
    split at granted
    · contradiction
    · exact (Option.some.inj granted).symm
  | efVi r =>
    obtain ⟨ok,same⟩ := Option.ite_none_right_eq_some.mp granted
    obtain ⟨slot,owned,start⟩ := efVi_granted r s ok
    exact ⟨slot,owned,(Option.some.inj same).symm.trans start⟩
  | dpdk p pool =>
    obtain ⟨m,found,rfl⟩ := Option.map_eq_some_iff.mp granted
    exact ⟨m,trivial,rfl⟩

private theorem efVi_refuses {r : EfViCtpio.Region} (generic : r.p.kX2522Plus = false) (s : EfVi.State)
    (long : (efVi r).layout.room < frameLen.toNat) : EfVi.acquire r.p s frameLen = (s,.flag false) := by
  have bytes : EfViCtpio.kTxHdrBytes r.p = 0 := by
    rw [EfViCtpio.kTxHdrBytes,generic]
    rfl
  have more : r.p.bufSize < frameLen := by
    change r.p.bufSize.toNat - (EfViCtpio.kTxHdrBytes r.p).toNat < frameLen.toNat at long
    rw [bytes] at long
    exact long
  rw [EfVi.acquire,generic,if_neg Bool.false_ne_true,if_pos more]

theorem checked_acquire {b : Backend} (checks : b.checksLength) (s : b.State) (frameLen : BitVec 32)
    (allocated : Option Dpdk.Mbuf) (long : b.layout.room < frameLen.toNat) : b.acquire s frameLen allocated = (s,none) := by
  cases b with
  | efVi r =>
    have refused := efVi_refuses checks s long
    have same : (EfVi.acquire r.p s frameLen).1 = s := congrArg Prod.fst refused
    have reply : (EfVi.acquire r.p s frameLen).2 ≠ .flag true := by
      rw [congrArg Prod.snd refused]
      nofun
    exact Prod.ext same (if_neg reply)
  | _ => exact checks.elim

theorem unchecked_acquire {b : Backend} (unchecked : ¬b.checksLength) (frameLen : BitVec 32) :
    ∃ s allocated pointer, b.Reachable s ∧ b.Allocates s allocated ∧ (b.acquire s frameLen allocated).2 = some pointer := by
  cases b with
  | afxdp p sends => exact ⟨AfxdpTransmit.start p,none,_,⟨[],rfl⟩,trivial,rfl⟩
  | i210 p =>
    have window := I210Transmit.Window.start p (fun _ => 0)
    obtain ⟨_,_,_,full⟩ := window.acquire frameLen
    cases found : (I210Transmit.acquire p (I210Transmit.start (fun _ => 0)) frameLen).2 with
    | none =>
      have count := full found
      have some := I210Transmit.numTxDesc_pos p
      change 0 = 0 + p.numTxDesc at count
      omega
    | some slot =>
      refine ⟨I210Transmit.start (fun _ => 0),none,slot * p.buffSize,⟨_,[],rfl⟩,trivial,?_⟩
      change (I210Transmit.acquire p (I210Transmit.start (fun _ => 0)) frameLen).2.map (· * p.buffSize) = _
      rw [found]
      rfl
  | packetMmap p headed => exact ⟨PacketMmap.Tx.start,none,_,⟨[],rfl⟩,trivial,rfl⟩
  | efVi r =>
    have plus : r.p.kX2522Plus = true := Bool.eq_true_of_not_eq_false unchecked
    refine ⟨EfVi.start r.p,none,EfViCtpio.txFrame r (EfVi.acquire r.p (EfVi.start r.p) frameLen).1.tx.slot,⟨[],rfl⟩,
        trivial,?_⟩
    apply if_pos
    rw [EfVi.acquire,if_pos plus]
  | dpdk p pool =>
    let w : Dpdk.World := ⟨fun _ _ => 0,fun _ => 0,fun _ => 0,fun _ => 0,[],fun _ => []⟩
    let o : Dpdk.Port := {Dpdk.construct "" 0 with pool := some 0, prepared := true, started := true}
    have fresh : Dpdk.acquire o w frameLen (some 0) =
        ({o with pendingTx := some 0},Dpdk.stampFresh o w 0 frameLen,some 0) := by
      apply Dpdk.acquire_fresh
      exact fun inline => Bool.false_ne_true inline.1
    refine ⟨{Dpdk.start "" 0 w with obj := o},some 0,pool.mtod 0,⟨_,_,w,[.init 0],rfl,rfl⟩,?_,?_⟩
    · intro m _
      exact List.not_mem_nil
    · change (Dpdk.acquire o w frameLen (some 0)).2.2.map pool.mtod = _
      rw [fresh]
      rfl

private theorem isolates_iff (b : Backend) (frameLen : BitVec 32) :
    b.Isolates frameLen ↔ frameLen.toNat ≤ b.layout.room ∨ b.checksLength := by
  constructor
  · intro isolates
    by_contra both
    obtain ⟨long,unchecked⟩ := not_or.mp both
    obtain ⟨s,allocated,pointer,reached,allocates,granted⟩ := unchecked_acquire unchecked frameLen
    have refused := (isolates s reached allocated allocates).2 (Nat.lt_of_not_le long)
    rw [refused] at granted
    contradiction
  · intro fine s reached allocated _
    have refuses (long : b.layout.room < frameLen.toNat) : b.acquire s frameLen allocated = (s,none) := by
      rcases fine with fits | checks
      · omega
      · exact checked_acquire checks s frameLen allocated long
    refine ⟨?_,refuses⟩
    intro pointer granted
    obtain ⟨slot,owned,rfl⟩ := acquire_slot reached granted
    refine ⟨slot,owned,(b.layout.inside_iff slot _).mpr ?_⟩
    by_contra long
    rw [refuses (Nat.lt_of_not_le long)] at granted
    contradiction

private theorem stamps_iff_length (b : Backend) (frameTemplate : List (BitVec 8)) :
    b.Stamps frameTemplate ↔ ∀ bytes, b.stamp frameTemplate = some bytes → bytes.length ≤ b.layout.room := by
  constructor
  · intro stamps bytes stamped
    exact (b.layout.inside_iff 0 _).mp (stamps bytes stamped 0)
  · intro fits bytes stamped slot
    exact (b.layout.inside_iff slot _).mpr (fits bytes stamped)

private theorem efVi_room (r : EfViCtpio.Region) :
    (r.p.bufSize - EfViCtpio.kTxHdrBytes r.p).toNat = (efVi r).layout.room := by
  change _ = r.p.bufSize.toNat - (EfViCtpio.kTxHdrBytes r.p).toNat
  have whole := efVi_whole r
  have below := r.p.bufSize.isLt
  bv_omega

theorem stamps_iff_kept {b : Backend} {frameTemplate kept : List (BitVec 8)} (stamped : b.stamp frameTemplate = some kept) :
    b.Stamps frameTemplate ↔ kept.length ≤ b.layout.room := by
  rw [stamps_iff_length]
  constructor
  · exact fun fits => fits kept stamped
  · intro fits bytes same
    cases Option.some.inj (stamped.symm.trans same)
    exact fits

private theorem stamps_iff (b : Backend) (frameTemplate : List (BitVec 8)) :
    b.Stamps frameTemplate ↔ frameTemplate.length ≤ b.layout.room ∨ b.boundsTemplate := by
  cases b with
  | afxdp p sends =>
    rw [stamps_iff_length]
    refine ⟨fun _ => .inr trivial,fun _ bytes stamped => ?_⟩
    obtain ⟨fits,same⟩ := Option.ite_none_left_eq_some.mp stamped
    cases Option.some.inj same
    exact Nat.le_of_not_lt fits
  | i210 p => exact (stamps_iff_kept rfl).trans (or_iff_left not_false).symm
  | packetMmap p headed => exact (stamps_iff_kept rfl).trans (or_iff_left not_false).symm
  | efVi r =>
    rw [stamps_iff_kept rfl,List.length_take,efVi_room]
    refine ⟨fun _ => .inr trivial,fun _ => ?_⟩
    omega
  | dpdk p pool =>
    rw [stamps_iff_kept rfl,List.length_take]
    change _ ≤ kDataRoom ↔ frameTemplate.length ≤ kDataRoom ∨ p.maxFrame.toNat ≤ kDataRoom
    omega

/-- Each transport keeps its slots apart and writes to them from the start of their data:
so a frame, or a template, stays in its slot exactly if it fits or the transport looks. -/
theorem tx_slots_isolated_iff (b : Backend) (frameLen : BitVec 32) (frameTemplate : List (BitVec 8)) :
    (∀ first second, first ≠ second → (b.layout.data first).Apart (b.layout.data second)) ∧
    (∀ first second, (b.layout.data first).Apart (b.layout.head second)) ∧
    (b.Isolates frameLen ↔ frameLen.toNat ≤ b.layout.room ∨ b.checksLength) ∧
    (b.Stamps frameTemplate ↔ frameTemplate.length ≤ b.layout.room ∨ b.boundsTemplate) ∧ b.Prefills frameTemplate :=
  ⟨fun _ _ different => b.layout.data_apart different,b.layout.data_apart_head,isolates_iff b frameLen,
    stamps_iff b frameTemplate,prefills b frameTemplate⟩

private theorem eightFrames_sends : AfxdpTransmit.eightFrames.mode ≠ .RxOnly := by decide

def labUmem : Backend := .afxdp AfxdpTransmit.eightFrames eightFrames_sends

theorem tx_slots_isolated_full_size : labUmem.Isolates 2048 ∧ labUmem.Stamps (List.replicate 2048 0) := by
  have fits : (2048 : BitVec 32).toNat ≤ labUmem.layout.room := by decide
  obtain ⟨_,_,isolates,stamps,_⟩ := tx_slots_isolated_iff labUmem 2048 (List.replicate 2048 0)
  exact ⟨isolates.mpr (.inl fits),stamps.mpr (.inr trivial)⟩

/-- The first AF_XDP chunk, granted for a frame of almost two chunks, and a template of
the usual Ethernet size in the smallest I210 buffers. -/
theorem oversized_frames_cross_slots :
    (∃ s : labUmem.State, labUmem.Reachable s ∧ (labUmem.acquire s 4000 none).2 = some 0 ∧
      ¬Area.Apart ⟨0,4000⟩ (labUmem.layout.data 1)) ∧
    (i210 I210.labCard).stamp (List.replicate 1514 0) = some (List.replicate 1514 0) ∧
    ¬Area.Apart ⟨((i210 I210.labCard).layout.data 0).base,(List.replicate 1514 (0 : BitVec 8)).length⟩
      ((i210 I210.labCard).layout.data 1) := by
  refine ⟨⟨AfxdpTransmit.start AfxdpTransmit.eightFrames,⟨[],rfl⟩,rfl,by decide⟩,rfl,?_⟩
  rw [List.length_replicate]
  decide

end Abtrda3.TxSlots
