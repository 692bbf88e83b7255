import Abtrda3.Semantics.ByteMemory
import Abtrda3.Semantics.WrappingCounter

/-! Sizes and addresses of the AF_XDP backend. The transmit pool is the low part of
the UMEM and the receive pool the high part; both have power-of-two sizes, written
here as exponents. -/
namespace Abtrda3.Afxdp
open Abtrda3.Semantics

inductive AFXDPMode
  | RxOnly
  | TxOnly
  | RxTx
  deriving DecidableEq, Repr

structure Params where
  mode : AFXDPMode
  rxBits : Nat
  txBits : Nat
  frameSize : Nat
  rxSized : mode ≠ .TxOnly → 3 ≤ rxBits ∧ rxBits < 32
  txSized : mode ≠ .RxOnly → 3 ≤ txBits ∧ txBits < 32
  chunk : frameSize = 2048 ∨ frameSize = 4096

namespace Params

def numRxFrames (p : Params) : Nat := 2^p.rxBits

def numTxFrames (p : Params) : Nat := 2^p.txBits

def txPoolFrames (p : Params) : Nat := if p.mode = .RxOnly then 0 else p.numTxFrames

def rxPoolFrames (p : Params) : Nat := if p.mode = .TxOnly then 0 else p.numRxFrames

def txPoolMask (p : Params) : BitVec 32 := BitVec.ofNat 32 p.txPoolFrames - 1

def compSize (p : Params) : Nat := p.numTxFrames

def txSize (p : Params) : Nat := p.numTxFrames

end Params

theorem smallChunk : 2048 = 2048 ∨ 2048 = 4096 := .inl rfl

def batchSize : Nat := 64

def frameAddr (p : Params) (frameNb : BitVec 32) : BitVec 64 :=
  frameNb.setWidth 64 * BitVec.ofNat 64 p.frameSize

theorem frameAddr_toNat (p : Params) (frameNb : BitVec 32) :
    (frameAddr p frameNb).toNat = frameNb.toNat * p.frameSize := by
  have low : frameNb.toNat < 2^32 := frameNb.isLt
  have size : p.frameSize ≤ 4096 := by
    rcases p.chunk with small | large <;> omega
  have product : frameNb.toNat * p.frameSize < 2^64 :=
    calc frameNb.toNat * p.frameSize ≤ frameNb.toNat * 4096 := Nat.mul_le_mul_left _ size
      _ < 2^64 := by omega
  have wide : frameNb.toNat % 2^64 = frameNb.toNat := Nat.mod_eq_of_lt (by omega)
  have fits : p.frameSize % 2^64 = p.frameSize := Nat.mod_eq_of_lt (by omega)
  rw [frameAddr,BitVec.toNat_mul,BitVec.toNat_setWidth,BitVec.toNat_ofNat,wide,fits,Nat.mod_eq_of_lt product]

theorem frameAddr_injective (p : Params) {first second : BitVec 32}
    (same : frameAddr p first = frameAddr p second) : first = second := by
  have values := congrArg BitVec.toNat same
  have positive : 0 < p.frameSize := by
    rcases p.chunk with small | large <;> omega
  rw [frameAddr_toNat,frameAddr_toNat] at values
  exact BitVec.eq_of_toNat_eq (Nat.eq_of_mul_eq_mul_right positive values)

/-- A template larger than a frame aborts the process. -/
def prefillRing (p : Params) (buffer : ByteMemory) (frameTemplate : List (BitVec 8)) : Option ByteMemory :=
  if p.frameSize < frameTemplate.length then none
  else some ((List.range p.txPoolFrames).foldl
    (fun buffer i => buffer.write (frameAddr p (BitVec.ofNat 32 i)).toNat frameTemplate) buffer)

end Abtrda3.Afxdp
