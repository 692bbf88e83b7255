import Abtrda3.Semantics.BitField
import Abtrda3.Semantics.ByteMemory
import Abtrda3.Semantics.WrappingCounter

/-! The descriptors of the I210 poll-mode driver `Intel_I210`. A descriptor is a 16-byte
union: software writes its read format, the card its write-back format. Ring indices are
reduced modulo the ring size and kept in 64 bits, the tail registers in 32. -/
namespace Abtrda3.I210
open Abtrda3.Semantics Abtrda3.Semantics.BitField

abbrev Descriptor := BitVec 128

structure Params where
  rxBits : Nat
  txBits : Nat
  buffSize : Nat
  -- `physicalAddrAt` of the two packet buffers.
  rxPhysical : Nat → BitVec 64
  txPhysical : Nat → BitVec 64
  sizes : buffSize = 256 ∨ buffSize = 512 ∨ buffSize = 1024 ∨ buffSize = 2048
  rxLeast : 3 ≤ rxBits
  rxBound : rxBits < 64
  txLeast : 3 ≤ txBits
  txBound : txBits < 64
  rxApart : ∀ i j, i < 2^rxBits → j < 2^rxBits → rxPhysical (i * buffSize) = rxPhysical (j * buffSize) → i = j

namespace Params

def numRxDesc (p : Params) : Nat := 2^p.rxBits

def numTxDesc (p : Params) : Nat := 2^p.txBits

def rxRingMask (p : Params) : BitVec 64 := BitVec.ofNat 64 p.numRxDesc - 1

def txRingMask (p : Params) : BitVec 64 := BitVec.ofNat 64 p.numTxDesc - 1

end Params

def prefillRing (p : Params) (txBuffer : ByteMemory) (frameTemplate : List (BitVec 8)) : ByteMemory :=
  (List.range p.numTxDesc).foldl (fun txBuffer i => txBuffer.write (i * p.buffSize) frameTemplate) txBuffer

def rxFreeThresh : BitVec 32 := 32

def txdCmdEop : BitVec 32 := 0x01000000
def txdCmdIfcs : BitVec 32 := 0x02000000
def txdCmdRs : BitVec 32 := 0x08000000
def txdCmdDext : BitVec 32 := 0x20000000
def txdDtypData : BitVec 32 := 0x00300000
def txdPaylenShift : Nat := 14
def txdStatDd : BitVec 32 := 1
def rxdStatDd : BitVec 32 := 1

namespace TxDescriptor

def setBufferAddr (desc : Descriptor) (addr : BitVec 64) : Descriptor := setField desc 0 addr

def setCmdTypeLen (desc : Descriptor) (word : BitVec 32) : Descriptor := setField desc 64 word

def setOlinfoStatus (desc : Descriptor) (word : BitVec 32) : Descriptor := setField desc 96 word

def status (desc : Descriptor) : BitVec 32 := field desc 96 32

def setStatus (desc : Descriptor) (word : BitVec 32) : Descriptor := setField desc 96 word

def dd (desc : Descriptor) : Bool := decide (status desc &&& txdStatDd ≠ 0)

private theorem paylen_and_dd (frameLen : BitVec 32) : (frameLen <<< txdPaylenShift) &&& txdStatDd = 0 := by
  apply BitVec.eq_of_getLsbD_eq
  intro i _
  rw [BitVec.getLsbD_and,BitVec.getLsbD_shiftLeft]
  rcases Nat.eq_zero_or_pos i with rfl | later
  · rfl
  · have clear : txdStatDd.getLsbD i = false := by
      change (BitVec.ofNat 32 1).getLsbD i = false
      rw [BitVec.getLsbD_one]
      simp [Nat.pos_iff_ne_zero.mp later]
    rw [clear,Bool.and_false]
    simp

theorem dd_setOlinfoStatus (desc : Descriptor) (frameLen : BitVec 32) :
    dd (setOlinfoStatus desc (frameLen <<< txdPaylenShift)) = false := by
  rw [dd,status,setOlinfoStatus,field_setField_self desc 96 _ (by decide),paylen_and_dd]
  rfl

end TxDescriptor

namespace RxDescriptor

def setPktAddr (desc : Descriptor) (addr : BitVec 64) : Descriptor := setField desc 0 addr

def setHdrAddr (desc : Descriptor) (addr : BitVec 64) : Descriptor := setField desc 64 addr

def pktAddr (desc : Descriptor) : BitVec 64 := field desc 0 64

def setRss (desc : Descriptor) (word : BitVec 32) : Descriptor := setField desc 0 word

def setPktInfo (desc : Descriptor) (word : BitVec 32) : Descriptor := setField desc 32 word

def statusError (desc : Descriptor) : BitVec 32 := field desc 64 32

def setStatusError (desc : Descriptor) (word : BitVec 32) : Descriptor := setField desc 64 word

def length (desc : Descriptor) : BitVec 16 := field desc 96 16

def setLength (desc : Descriptor) (word : BitVec 16) : Descriptor := setField desc 96 word

def setVlan (desc : Descriptor) (word : BitVec 16) : Descriptor := setField desc 112 word

def dd (desc : Descriptor) : Bool := decide (statusError desc &&& rxdStatDd ≠ 0)

/-- The read format software leaves behind: the header address covers the status word. -/
def reset (desc : Descriptor) (addr : BitVec 64) : Descriptor := setHdrAddr (setPktAddr desc addr) 0

theorem pktAddr_reset (desc : Descriptor) (addr : BitVec 64) : pktAddr (reset desc addr) = addr := by
  rw [pktAddr,reset,setHdrAddr,field_setField_apart _ 64 _ (by decide) (by decide),setPktAddr,
    field_setField_self desc 0 addr (by decide)]

theorem dd_reset (desc : Descriptor) (addr : BitVec 64) : dd (reset desc addr) = false := by
  have covered : field (setField (setPktAddr desc addr) 64 (0 : BitVec 64)) 64 32 = field (0 : BitVec 64) 0 32 :=
    field_setField_inside _ 64 _ 0 32 (by decide) (by decide)
  rw [dd,statusError,reset,setHdrAddr,covered]
  rfl

structure WriteBack where
  rss : BitVec 32
  pktInfo : BitVec 32
  statusError : BitVec 32
  vlan : BitVec 16
  deriving DecidableEq, Repr

def writeBack (desc : Descriptor) (wb : WriteBack) (length : BitVec 16) : Descriptor :=
  setVlan (setLength (setStatusError (setPktInfo (setRss desc wb.rss) wb.pktInfo) wb.statusError) length) wb.vlan

theorem statusError_writeBack (desc : Descriptor) (wb : WriteBack) (length : BitVec 16) :
    statusError (writeBack desc wb length) = wb.statusError := by
  rw [statusError,writeBack,setVlan,field_setField_apart _ 112 _ (by decide) (by decide),setLength,
    field_setField_apart _ 96 _ (by decide) (by decide),setStatusError,field_setField_self _ 64 _ (by decide)]

theorem length_writeBack (desc : Descriptor) (wb : WriteBack) (length : BitVec 16) :
    RxDescriptor.length (writeBack desc wb length) = length := by
  rw [RxDescriptor.length,writeBack,setVlan,field_setField_apart _ 112 _ (by decide) (by decide),setLength,
    field_setField_self _ 96 _ (by decide)]

end RxDescriptor

section Lab

def labPhysical (offset : Nat) : BitVec 64 := BitVec.ofNat 64 (0x10000 + offset)

private theorem labSizes : 256 = 256 ∨ 256 = 512 ∨ 256 = 1024 ∨ 256 = 2048 := by decide

private theorem labLeast : 3 ≤ 3 := Nat.le_refl 3

private theorem labBound : 3 < 64 := by decide

private theorem labApart (i j : Nat) (first : i < 2^3) (second : j < 2^3)
    (same : labPhysical (i * 256) = labPhysical (j * 256)) : i = j := by
  have equal := congrArg BitVec.toNat same
  unfold labPhysical at equal
  rw [WrappingCounter.ofNat_toNat_mod,WrappingCounter.ofNat_toNat_mod] at equal
  omega

def labCard : Params where
  rxBits := 3
  txBits := 3
  buffSize := 256
  rxPhysical := labPhysical
  txPhysical := fun offset => BitVec.ofNat 64 (0x20000 + offset)
  sizes := labSizes
  rxLeast := labLeast
  rxBound := labBound
  txLeast := labLeast
  txBound := labBound
  rxApart := labApart

end Lab

end Abtrda3.I210
