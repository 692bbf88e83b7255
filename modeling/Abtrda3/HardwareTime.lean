import Abtrda3.HistThread
import Mathlib.Data.Int.ModEq

/-! The card's time stamps. A stamp counts quarter nanoseconds within its second: it
starts again at 4*10^9, not at 2^32, may overrun that bound a little, and the receive
correction is negative but added modulo 2^32. `hwRoundTrip` and `hwTurnaround` decode
a packed pair of stamps on the recorder's thread. -/
namespace Abtrda3.HardwareTime
open Abtrda3.Application

def kOneSecQns : BitVec 32 := 4000000000
def kQnsOverrun : BitVec 32 := 20

def hwFoldRx (raw correction : BitVec 32) : Option (BitVec 32) :=
  if raw = 0xFFFFFFFF then none
  else
    let minor := raw + correction
    if kOneSecQns ≤ minor then
      if minor < kOneSecQns + kQnsOverrun + 2 then some (minor - kOneSecQns)
      else some (minor + kOneSecQns)
    else some minor

/-- The difference `d` is signed: 64 bits hold every difference of two stamps. -/
def hwDelta (last first : BitVec 32) : BitVec 64 :=
  let d := last.setWidth 64 - first.setWidth 64
  if d.slt 0#64 then d + kOneSecQns.setWidth 64 else d

def hwRoundTrip (packed : BitVec 64) (rxCorrection : BitVec 32) : Option (BitVec 64) :=
  let tx := packed.setWidth 32
  match hwFoldRx ((packed >>> 32).setWidth 32) rxCorrection with
  | none => none
  | some rx => if tx = 0 ∨ tx = kTxStampNone then none else some (hwDelta rx tx)

def hwTurnaround (packed : BitVec 64) (rxCorrection : BitVec 32) : Option (BitVec 64) :=
  let tx := packed.setWidth 32
  match hwFoldRx ((packed >>> 32).setWidth 32) rxCorrection with
  | none => none
  | some rx => if tx = 0 ∨ tx = kTxStampNone then none else some (hwDelta tx rx)

private theorem packed_low (raw tx : BitVec 32) : (Stamps.hardware raw tx).sample.setWidth 32 = tx := by
  apply BitVec.eq_of_toNat_eq
  have high := raw.isLt
  have low := tx.isLt
  rw [Stamps.sample,BitVec.toNat_setWidth,packed_toNat]
  omega

private theorem packed_high (raw tx : BitVec 32) : ((Stamps.hardware raw tx).sample >>> 32).setWidth 32 = raw := by
  apply BitVec.eq_of_toNat_eq
  have high := raw.isLt
  have low := tx.isLt
  rw [Stamps.sample,BitVec.toNat_setWidth,BitVec.toNat_ushiftRight,packed_toNat,Nat.shiftRight_eq_div_pow]
  omega

private theorem hwRoundTrip_packed (raw tx correction : BitVec 32) :
    hwRoundTrip (Stamps.hardware raw tx).sample correction =
      match hwFoldRx raw correction with
      | none => none
      | some rx => if tx = 0 ∨ tx = kTxStampNone then none else some (hwDelta rx tx) := by
  simp only [hwRoundTrip,packed_low,packed_high]

private theorem hwTurnaround_packed (raw tx correction : BitVec 32) :
    hwTurnaround (Stamps.hardware raw tx).sample correction =
      match hwFoldRx raw correction with
      | none => none
      | some rx => if tx = 0 ∨ tx = kTxStampNone then none else some (hwDelta tx rx) := by
  simp only [hwTurnaround,packed_low,packed_high]

theorem kOneSecQns_toNat : kOneSecQns.toNat = 4000000000 := rfl

private theorem overrunBound_toNat : (kOneSecQns + kQnsOverrun + 2).toNat = 4000000022 := rfl

/-- The corrected stamp modulo 2^32: the sum itself, or 2^32 more where the correction
borrowed. -/
theorem corrected_toNat (raw : BitVec 32) (c : Int) (low : -294967274 ≤ raw.toNat + c)
    (high : raw.toNat + c ≤ 4000000021) :
    ((raw + BitVec.ofInt 32 c).toNat : Int) =
      if 0 ≤ raw.toNat + c then raw.toNat + c else raw.toNat + c + 4294967296 := by
  rw [BitVec.toNat_add,BitVec.toNat_ofInt]
  split <;> omega

/-- The fold tells an overrun from a borrow by magnitude: the two ranges of the
32-bit sum are apart. -/
theorem hwFoldRx_eq (raw : BitVec 32) (c time : Int) (stamped : raw ≠ 0xFFFFFFFF)
    (same : (raw.toNat + c) ≡ time [ZMOD 4000000000]) (low : -294967274 ≤ raw.toNat + c)
    (high : raw.toNat + c ≤ 4000000021) :
    ∃ rx, hwFoldRx raw (BitVec.ofInt 32 c) = some rx ∧ (rx.toNat : Int) = time % 4000000000 := by
  have corrected := corrected_toNat raw c low high
  have folded : (raw.toNat + c) % 4000000000 = time % 4000000000 := same
  unfold hwFoldRx
  rw [if_neg stamped]
  dsimp only
  generalize raw + BitVec.ofInt 32 c = minor at corrected ⊢
  have bound := minor.isLt
  simp only [BitVec.le_def,BitVec.lt_def,kOneSecQns_toNat,overrunBound_toNat]
  split at corrected
  · rcases Nat.lt_or_ge minor.toNat 4000000000 with inside | beyond
    · rw [if_neg (by omega)]
      exact ⟨minor,rfl,by omega⟩
    · rw [if_pos beyond,if_pos (by omega)]
      refine ⟨_,rfl,?_⟩
      rw [BitVec.toNat_sub,kOneSecQns_toNat]
      omega
  · rw [if_pos (by omega),if_neg (by omega)]
    refine ⟨_,rfl,?_⟩
    rw [BitVec.toNat_add,kOneSecQns_toNat]
    omega

private theorem hwDelta_negative (last first : BitVec 32) :
    (last.setWidth 64 - first.setWidth 64).slt 0#64 = decide (last.toNat < first.toNat) := by
  have lastBound := last.isLt
  have firstBound := first.isLt
  rw [BitVec.slt_eq_decide,decide_eq_decide,BitVec.toInt_eq_toNat_cond,BitVec.toNat_sub,
    BitVec.toNat_setWidth_of_le (by decide),BitVec.toNat_setWidth_of_le (by decide),BitVec.toInt_zero]
  split <;> omega

/-- The stamps of two times less than a second apart, each within its own second,
differ by the time between them. -/
theorem hwDelta_eq {last first : BitVec 32} {ended began : Int} (lastIs : (last.toNat : Int) = ended % 4000000000)
    (firstIs : (first.toNat : Int) = began % 4000000000) (ordered : 0 ≤ ended - began)
    (near : ended - began < 4000000000) : ((hwDelta last first).toNat : Int) = ended - began := by
  have lastBound := last.isLt
  have firstBound := first.isLt
  unfold hwDelta
  simp only [hwDelta_negative,decide_eq_true_eq]
  split
  · rw [BitVec.toNat_add,BitVec.toNat_sub,BitVec.toNat_setWidth_of_le (by decide),
      BitVec.toNat_setWidth_of_le (by decide),BitVec.toNat_setWidth_of_le (by decide),kOneSecQns_toNat]
    omega
  · rw [BitVec.toNat_sub,BitVec.toNat_setWidth_of_le (by decide),BitVec.toNat_setWidth_of_le (by decide)]
    omega

private theorem hwFoldRx_missing (correction : BitVec 32) : hwFoldRx 0xFFFFFFFF correction = none := if_pos rfl

/-- The stamps of a frame received at `received` and one sent at `sent`: the receive
stamp is within the second or overruns it once the correction `c` is added to it. -/
structure Stamped (raw tx : BitVec 32) (c received sent : Int) : Prop where
  arrived : raw ≠ 0xFFFFFFFF
  low : -294967274 ≤ raw.toNat + c
  high : raw.toNat + c ≤ 4000000000 + 21
  corrected : raw.toNat + c ≡ received [ZMOD 4000000000]
  departed : (tx.toNat : Int) = sent % 4000000000
  nonzero : tx ≠ 0

namespace Stamped

variable {raw tx : BitVec 32} {c received sent : Int}

theorem usable (stamped : Stamped raw tx c received sent) : ¬(tx = 0 ∨ tx = kTxStampNone) := by
  rintro (zero | missing)
  · exact stamped.nonzero zero
  · have departed := stamped.departed
    have value : tx.toNat = 4294967295 := congrArg BitVec.toNat missing
    omega

private theorem folds (stamped : Stamped raw tx c received sent) :
    ∃ rx, hwFoldRx raw (BitVec.ofInt 32 c) = some rx ∧ (rx.toNat : Int) = received % 4000000000 :=
  hwFoldRx_eq raw c received stamped.arrived stamped.corrected stamped.low stamped.high

theorem roundTrip (stamped : Stamped raw tx c received sent) (ordered : 0 ≤ received - sent)
    (near : received - sent < 4000000000) :
    ∃ d, hwRoundTrip (Stamps.hardware raw tx).sample (BitVec.ofInt 32 c) = some d ∧
      (d.toNat : Int) = received - sent := by
  obtain ⟨rx,fold,time⟩ := stamped.folds
  rw [hwRoundTrip_packed,fold]
  dsimp only
  rw [if_neg stamped.usable]
  exact ⟨_,rfl,hwDelta_eq time stamped.departed ordered near⟩

theorem turnaround (stamped : Stamped raw tx c received sent) (ordered : 0 ≤ sent - received)
    (near : sent - received < 4000000000) :
    ∃ d, hwTurnaround (Stamps.hardware raw tx).sample (BitVec.ofInt 32 c) = some d ∧
      (d.toNat : Int) = sent - received := by
  obtain ⟨rx,fold,time⟩ := stamped.folds
  rw [hwTurnaround_packed,fold]
  dsimp only
  rw [if_neg stamped.usable]
  exact ⟨_,rfl,hwDelta_eq stamped.departed time ordered near⟩

end Stamped

private theorem hwRoundTrip_missing {raw tx : BitVec 32} (correction : BitVec 32)
    (missing : raw = 0xFFFFFFFF ∨ tx = 0 ∨ tx = kTxStampNone) :
    hwRoundTrip (Stamps.hardware raw tx).sample correction = none := by
  rw [hwRoundTrip_packed]
  rcases missing with rfl | unusable
  · rw [hwFoldRx_missing]
  · cases hwFoldRx raw correction with
    | none => rfl
    | some rx => exact if_pos unusable

private theorem hwTurnaround_missing {raw tx : BitVec 32} (correction : BitVec 32)
    (missing : raw = 0xFFFFFFFF ∨ tx = 0 ∨ tx = kTxStampNone) :
    hwTurnaround (Stamps.hardware raw tx).sample correction = none := by
  rw [hwTurnaround_packed]
  rcases missing with rfl | unusable
  · rw [hwFoldRx_missing]
  · cases hwFoldRx raw correction with
    | none => rfl
    | some rx => exact if_pos unusable

private theorem recorded_roundTrip {p : HistThread.Setting} {raw tx : BitVec 32} {c received sent : Int}
    (decoder : p.decode = some hwRoundTrip) (argument : p.decodeArg = BitVec.ofInt 32 c)
    (stamped : Stamped raw tx c received sent) (ordered : 0 ≤ received - sent) (near : received - sent < 4000000000) :
    ∃ d, HistThread.decoded p (Stamps.hardware raw tx).sample = some d ∧ (d.toNat : Int) = received - sent := by
  unfold HistThread.decoded
  rw [decoder,argument]
  exact stamped.roundTrip ordered near

private theorem recorded_turnaround {p : HistThread.Setting} {raw tx : BitVec 32} {c received sent : Int}
    (decoder : p.decode = some hwTurnaround) (argument : p.decodeArg = BitVec.ofInt 32 c)
    (stamped : Stamped raw tx c received sent) (ordered : 0 ≤ sent - received) (near : sent - received < 4000000000) :
    ∃ d, HistThread.decoded p (Stamps.hardware raw tx).sample = some d ∧ (d.toNat : Int) = sent - received := by
  unfold HistThread.decoded
  rw [decoder,argument]
  exact stamped.turnaround ordered near

/-- Both decoders give the time between the two stamped instants, also across the
turn of a second, and refuse a pair with a missing stamp. A recorder with one of them as its
decoder enters that time. -/
theorem decoders_give_intervals :
    (∀ (raw tx : BitVec 32) (c received sent : Int), Stamped raw tx c received sent →
      (0 ≤ received - sent ∧ received - sent < 4000000000 →
        ∃ d, hwRoundTrip (Stamps.hardware raw tx).sample (BitVec.ofInt 32 c) = some d ∧
          (d.toNat : Int) = received - sent) ∧
      (0 ≤ sent - received ∧ sent - received < 4000000000 →
        ∃ d, hwTurnaround (Stamps.hardware raw tx).sample (BitVec.ofInt 32 c) = some d ∧
          (d.toNat : Int) = sent - received)) ∧
    (∀ raw tx correction : BitVec 32, raw = 0xFFFFFFFF ∨ tx = 0 ∨ tx = kTxStampNone →
      hwRoundTrip (Stamps.hardware raw tx).sample correction = none ∧
        hwTurnaround (Stamps.hardware raw tx).sample correction = none) ∧
    ∀ (p : HistThread.Setting) (raw tx : BitVec 32) (c received sent : Int), p.decodeArg = BitVec.ofInt 32 c →
      Stamped raw tx c received sent →
      (p.decode = some hwRoundTrip → 0 ≤ received - sent ∧ received - sent < 4000000000 →
        ∃ d, HistThread.decoded p (Stamps.hardware raw tx).sample = some d ∧ (d.toNat : Int) = received - sent) ∧
      (p.decode = some hwTurnaround → 0 ≤ sent - received ∧ sent - received < 4000000000 →
        ∃ d, HistThread.decoded p (Stamps.hardware raw tx).sample = some d ∧ (d.toNat : Int) = sent - received) := by
  refine ⟨?_,?_,?_⟩
  · intro raw tx c received sent stamped
    exact ⟨fun ⟨ordered,near⟩ => stamped.roundTrip ordered near,fun ⟨ordered,near⟩ => stamped.turnaround ordered near⟩
  · intro raw tx correction missing
    exact ⟨hwRoundTrip_missing correction missing,hwTurnaround_missing correction missing⟩
  · intro p raw tx c received sent argument stamped
    exact ⟨fun decoder ⟨ordered,near⟩ => recorded_roundTrip decoder argument stamped ordered near,
      fun decoder ⟨ordered,near⟩ => recorded_turnaround decoder argument stamped ordered near⟩

private theorem straddling : Stamped 4000000015 3999999960 (-5) 4000000010 3999999960 where
  arrived := by decide
  low := by decide
  high := by decide
  corrected := by decide
  departed := by decide
  nonzero := by decide

theorem decoders_give_intervals_straddling :
    (∃ d, hwRoundTrip (Stamps.hardware 4000000015 3999999960).sample (BitVec.ofInt 32 (-5)) = some d ∧
      (d.toNat : Int) = 4000000010 - 3999999960) ∧
    hwRoundTrip (Stamps.hardware 7 0).sample 0 = none ∧ hwTurnaround (Stamps.hardware 7 0).sample 0 = none :=
  ⟨(decoders_give_intervals.1 4000000015 3999999960 (-5) 4000000010 3999999960 straddling).1 (by decide),
    decoders_give_intervals.2.1 7 0 0 (by decide)⟩

end Abtrda3.HardwareTime
