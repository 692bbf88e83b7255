import Abtrda3.EfVi
import Abtrda3.Semantics.BitField

/-! The X2522Plus transmit path down to what leaves the host: the lines stored to the CTPIO
aperture, with the header inserted over the first word of the slot, and the descriptor
pushed for the fallback. Offsets count from the start of the registered memory. -/
namespace Abtrda3.EfViCtpio
open Abtrda3.Application Abtrda3.Semantics Abtrda3.Semantics.BitField

/-- The slots of the registered memory: receive, guard, padding, transmit, guard. -/
structure Region where
  p : EfVi.Params
  txPad : BitVec 32
  padded : txPad.toNat ≤ 512

structure Setup extends Region where
  sends : p.hasTx = true
  ctThreshold : BitVec 32
  plus : p.tuning = .X2522Plus
  threshold : ctThreshold.toNat < 2^12

def kTxHdrBytes (p : EfVi.Params) : BitVec 32 := if p.kX2522Plus then 4 else 0

def kTxGuardSlots : BitVec 32 := 1

def kCtpioHdrBase (c : Setup) : BitVec 32 := (c.ctThreshold <<< 16) ||| ((1 : BitVec 32) <<< 12)

def txBase (r : Region) : BitVec 32 := BitVec.ofNat 32 r.p.nbRxBufs + kTxGuardSlots + r.txPad

def slotBytes (r : Region) : Nat :=
  (BitVec.ofNat 32 r.p.nbRxBufs + BitVec.ofNat 32 r.p.nbTxBufs + 2 * kTxGuardSlots + r.txPad).toNat * r.p.bufSize.toNat

def txSlot (r : Region) (s : BitVec 32) : Nat := (txBase r + s).toNat * r.p.bufSize.toNat

def txFrame (r : Region) (s : BitVec 32) : Nat := txSlot r s + (kTxHdrBytes r.p).toNat

def prefillRing (r : Region) (mem : ByteMemory) (frameTemplate : List Byte) : ByteMemory :=
  (List.range r.p.nbTxBufs).foldl (fun mem s => mem.write (txFrame r (BitVec.ofNat 32 s))
    (frameTemplate.take (min frameTemplate.length (r.p.bufSize - kTxHdrBytes r.p).toNat))) mem

/-- `ef_memreg_dma_addr`, with the card's way back to the memory. -/
structure Memreg (r : Region) where
  dmaAddr : Nat → BitVec 64
  offsetOf : BitVec 64 → Nat
  mapped : ∀ offset, offset < slotBytes r → offsetOf (dmaAddr offset) = offset

structure Vi where
  ef10 : Bool
  ctpioMapped : Bool
  txPhysAddr : Bool
  txPushThresh : BitVec 32
  -- The descriptor `ef_vi_transmitv_init` writes for one buffer.
  transmitvInit : BitVec 64 → BitVec 32 → Option (BitVec 64)

inductive Refusal
  | notCtpio
  | address (vaddr : BitVec 64)
  | probe
  | encoding (slot : Nat) (lib ours : BitVec 64)
  | pushDisabled
  deriving DecidableEq, Repr

def txDma (r : Region) (reg : Memreg r) (s : BitVec 32) : BitVec 64 := reg.dmaAddr (txSlot r s + (kTxHdrBytes r.p).toNat)

def idOff (vaddr : BitVec 64) : BitVec 64 := vaddr &&& 0xffffffffffff

def order (vaddr : BitVec 64) : BitVec 64 := vaddr >>> 48

def describable (vaddr : BitVec 64) : Bool := (idOff vaddr >>> 44) == 0 && (order vaddr >>> 4) == 0

def txDescBase (vaddr : BitVec 64) : BitVec 64 := (order vaddr <<< 44) ||| idOff vaddr

def descriptor (base : BitVec 64) (len : BitVec 32) : BitVec 64 := base ||| (len.setWidth 64 <<< 48)

def kProbeLen : BitVec 32 := 64

def initSlot (c : Setup) (reg : Memreg c.toRegion) (vi : Vi) (table : Nat → BitVec 64) (s : Nat) :
    Except Refusal (Nat → BitVec 64) :=
  let vaddr := txDma c.toRegion reg (BitVec.ofNat 32 s)
  if describable vaddr = false then .error (.address vaddr)
  else
    let ours := descriptor (txDescBase vaddr) kProbeLen
    match vi.transmitvInit vaddr kProbeLen with
    | none => .error .probe
    | some lib => if lib ≠ ours then .error (.encoding s lib ours) else .ok (Function.update table s (txDescBase vaddr))

def initX2522PlusTx (c : Setup) (reg : Memreg c.toRegion) (vi : Vi) : Except Refusal (Nat → BitVec 64) :=
  if vi.ef10 = false ∨ vi.ctpioMapped = false ∨ vi.txPhysAddr = true then .error .notCtpio
  else do
    let table ← (List.range c.p.nbTxBufs).foldlM (initSlot c reg vi) (fun _ => 0)
    if vi.txPushThresh = 0 then .error .pushDisabled else .ok table

structure Txq where
  descriptors : Nat → BitVec 64
  ids : Nat → BitVec 32
  added : BitVec 32
  previous : BitVec 32
  mask : BitVec 32

structure Copy where
  aperture : ByteMemory
  -- Source offsets of the sixteen-byte loads, in order.
  loads : List Nat

structure State where
  mem : ByteMemory
  tx : EfVi.Tx
  txSlotBase : Nat
  txPtr : Nat
  txDescBase : Nat → BitVec 64
  txq : Txq
  doorbell : BitVec 128
  -- Of the last commit.
  copy : Copy

def acquire (c : Setup) (s : State) (frameLen : BitVec 32) : State :=
  let tx := s.tx.claim c.p frameLen
  {s with tx := tx, txSlotBase := txSlot c.toRegion tx.slot, txPtr := txSlot c.toRegion tx.slot + (kTxHdrBytes c.p).toNat}

def write (s : State) (part : Nat × List Byte) : State := {s with mem := s.mem.write (s.txPtr + part.1) part.2}

def move (mem : ByteMemory) (dst src : Nat) (copy : Copy) : Copy :=
  ⟨copy.aperture.write dst (mem.read src 16),copy.loads ++ [src]⟩

/-- The intrinsic `_mm_insert_epi32` at element 0. -/
def insert (hdr : BitVec 32) (lane : List Byte) : List Byte := storeU32 hdr ++ lane.drop 4

def moveFirst (mem : ByteMemory) (hdr : BitVec 32) (dst src : Nat) (copy : Copy) : Copy :=
  ⟨copy.aperture.write dst (insert hdr (mem.read src 16)),copy.loads ++ [src]⟩

def moveLine (mem : ByteMemory) (dst src : Nat) (copy : Copy) : Copy :=
  move mem (dst + 48) (src + 48) (move mem (dst + 32) (src + 32) (move mem (dst + 16) (src + 16) (move mem dst src copy)))

def moveLines (mem : ByteMemory) : Nat → Nat → Nat → Copy → Copy
  | 0, _, _, copy => copy
  | lines + 1, dst, src, copy => moveLines mem lines (dst + 64) (src + 64) (moveLine mem (dst + 64) (src + 64) copy)

def nLines (p : EfVi.Params) (len : BitVec 32) : BitVec 32 := (len + kTxHdrBytes p + 63) >>> 6

def copyOut (mem : ByteMemory) (hdr lines : BitVec 32) (src : Nat) (aperture : ByteMemory) : Copy :=
  let first := moveFirst mem hdr 0 src ⟨aperture,[]⟩
  let line := move mem 48 (src + 48) (move mem 32 (src + 32) (move mem 16 (src + 16) first))
  moveLines mem (lines.toNat - 1) 0 src line

def push (q : Txq) (slot : BitVec 32) (desc : BitVec 64) : Txq :=
  let di := (q.added &&& q.mask).toNat
  {q with descriptors := Function.update q.descriptors di desc, ids := Function.update q.ids di slot,
          added := q.added + 1, previous := q.added + 1}

def commit (c : Setup) (s : State) : State :=
  let hdr := kCtpioHdrBase c ||| s.tx.len
  let desc := descriptor (s.txDescBase s.tx.slot.toNat) s.tx.len
  let txq := push s.txq s.tx.slot desc
  {s with copy := copyOut s.mem hdr (nLines c.p s.tx.len) s.txSlotBase s.copy.aperture, txq := txq,
          doorbell := (txq.added &&& txq.mask).setWidth 64 ++ desc, tx := s.tx.transmitted}

def ctpioLength (hdr : BitVec 32) : BitVec 12 := field hdr 0 12

def ctpioTimeStampReq (hdr : BitVec 32) : BitVec 1 := field hdr 12 1

def ctpioThreshold (hdr : BitVec 32) : BitVec 12 := field hdr 16 12

def ctpioHeader (aperture : ByteMemory) : BitVec 32 := loadU32 (aperture.read 0 4) 0

def ctpioFrame (aperture : ByteMemory) : List Byte := aperture.read 4 (ctpioLength (ctpioHeader aperture)).toNat

def byteCount (desc : BitVec 64) : BitVec 14 := field desc 48 14

def dmaAddress (desc : BitVec 64) : BitVec 64 :=
  ((field desc 44 4).setWidth 64 <<< 48) ||| (field desc 0 44).setWidth 64

def dmaFrame {c : Setup} (reg : Memreg c.toRegion) (mem : ByteMemory) (desc : BitVec 64) : List Byte :=
  mem.read (reg.offsetOf (dmaAddress desc)) (byteCount desc).toNat

theorem nbRxBufs_le (r : Region) : r.p.nbRxBufs ≤ 2^15 := Nat.pow_le_pow_right (by decide) (Nat.le_of_lt_succ r.p.rxBound)

theorem nbTxBufs_le (r : Region) : r.p.nbTxBufs ≤ 2^15 := Nat.pow_le_pow_right (by decide) (Nat.le_of_lt_succ r.p.txBound)

theorem txSlot_eq (r : Region) {s : BitVec 32} (inside : s.toNat < r.p.nbTxBufs) :
    txSlot r s = (r.p.nbRxBufs + 1 + r.txPad.toNat + s.toNat) * r.p.bufSize.toNat := by
  have rx := nbRxBufs_le r
  have tx := nbTxBufs_le r
  have pad := r.padded
  have index : (txBase r + s).toNat = r.p.nbRxBufs + 1 + r.txPad.toNat + s.toNat := by
    have narrow : (BitVec.ofNat 32 r.p.nbRxBufs).toNat = r.p.nbRxBufs := by
      rw [BitVec.toNat_ofNat,Nat.mod_eq_of_lt (by omega)]
    rw [txBase,kTxGuardSlots]
    bv_omega
  rw [txSlot,index]

theorem slotBytes_eq (r : Region) :
    slotBytes r = (r.p.nbRxBufs + r.p.nbTxBufs + 2 + r.txPad.toNat) * r.p.bufSize.toNat := by
  have rx := nbRxBufs_le r
  have tx := nbTxBufs_le r
  have pad := r.padded
  have count : (BitVec.ofNat 32 r.p.nbRxBufs + BitVec.ofNat 32 r.p.nbTxBufs + 2 * kTxGuardSlots + r.txPad).toNat =
      r.p.nbRxBufs + r.p.nbTxBufs + 2 + r.txPad.toNat := by
    have narrow : (BitVec.ofNat 32 r.p.nbRxBufs).toNat = r.p.nbRxBufs := by
      rw [BitVec.toNat_ofNat,Nat.mod_eq_of_lt (by omega)]
    have narrowTx : (BitVec.ofNat 32 r.p.nbTxBufs).toNat = r.p.nbTxBufs := by
      rw [BitVec.toNat_ofNat,Nat.mod_eq_of_lt (by omega)]
    rw [kTxGuardSlots]
    bv_omega
  rw [slotBytes,count]

private theorem txSlot_inside (r : Region) {s : BitVec 32} (inside : s.toNat < r.p.nbTxBufs) :
    txSlot r s + r.p.bufSize.toNat ≤ slotBytes r := by
  rw [txSlot_eq r inside,slotBytes_eq,← Nat.succ_mul]
  exact Nat.mul_le_mul_right _ (by omega)

theorem claim_slot (r : Region) (tx : EfVi.Tx) (frameLen : BitVec 32) :
    (tx.claim r.p frameLen).slot.toNat < r.p.nbTxBufs := by
  have masked := WrappingCounter.mask_toNat (by have := r.p.txBound; omega : r.p.txBits ≤ 32) tx.head.toNat
  rw [BitVec.ofNat_toNat,BitVec.setWidth_eq] at masked
  rw [EfVi.Tx.claim]
  exact masked ▸ Nat.mod_lt _ (Nat.two_pow_pos _)

private theorem initSlot_ok {c : Setup} {reg : Memreg c.toRegion} {vi : Vi} {table next : Nat → BitVec 64} {s : Nat}
    (ok : initSlot c reg vi table s = .ok next) :
    describable (txDma c.toRegion reg (BitVec.ofNat 32 s)) = true ∧
      next = Function.update table s (txDescBase (txDma c.toRegion reg (BitVec.ofNat 32 s))) := by
  unfold initSlot at ok
  dsimp only at ok
  split at ok
  · contradiction
  next fits =>
  split at ok
  · contradiction
  split at ok
  · contradiction
  cases ok
  exact ⟨Bool.not_eq_false _ ▸ fits,rfl⟩

private theorem initX2522PlusTx_ok {c : Setup} {reg : Memreg c.toRegion} {vi : Vi} {table : Nat → BitVec 64}
    (ok : initX2522PlusTx c reg vi = .ok table) {s : Nat} (inside : s < c.p.nbTxBufs) :
    describable (txDma c.toRegion reg (BitVec.ofNat 32 s)) = true ∧ table s =
      txDescBase (txDma c.toRegion reg (BitVec.ofNat 32 s)) := by
  have slots (count : Nat) (table : Nat → BitVec 64)
      (looped : (List.range count).foldlM (initSlot c reg vi) (fun _ => 0) = .ok table) :
      ∀ s, s < count →
        describable (txDma c.toRegion reg (BitVec.ofNat 32 s)) = true ∧ table s =
          txDescBase (txDma c.toRegion reg (BitVec.ofNat 32 s)) := by
    induction count generalizing table with
    | zero => exact fun s below => absurd below (Nat.not_lt_zero s)
    | succ count ih =>
      rw [List.range_succ,List.foldlM_append] at looped
      cases before : (List.range count).foldlM (initSlot c reg vi) (fun _ => 0) with
      | error refusal =>
        rw [before] at looped
        contradiction
      | ok earlier =>
        rw [before] at looped
        have last : initSlot c reg vi earlier count = .ok table := by
          cases found : initSlot c reg vi earlier count with
          | error refusal =>
            simp [bind,Except.bind,found] at looped
          | ok next =>
            simpa [bind,Except.bind,found,pure,Except.pure] using looped
        obtain ⟨fits,rfl⟩ := initSlot_ok last
        intro s below
        rcases eq_or_ne s count with rfl | apart
        · exact ⟨fits,Function.update_self _ _ _⟩
        · rw [Function.update_of_ne apart]
          exact ih earlier before s (by omega)
  unfold initX2522PlusTx at ok
  split at ok
  · contradiction
  cases looped : (List.range c.p.nbTxBufs).foldlM (initSlot c reg vi) (fun _ => 0) with
  | error refusal =>
    rw [looped] at ok
    contradiction
  | ok found =>
    rw [looped] at ok
    simp only [bind,Except.bind] at ok
    split at ok
    · contradiction
    · cases ok
      exact slots _ _ looped s inside

section Words

variable {len : BitVec 32} {vaddr : BitVec 64}

private theorem header_fields (c : Setup) (small : len.toNat < 2^12) :
    (ctpioLength (kCtpioHdrBase c ||| len)).toNat = len.toNat ∧
      ctpioTimeStampReq (kCtpioHdrBase c ||| len) = 1 ∧
      (ctpioThreshold (kCtpioHdrBase c ||| len)).toNat = c.ctThreshold.toNat := by
  have one : (1 : BitVec 32).toNat < 2^1 := by decide
  refine ⟨?_,?_,?_⟩
  · rw [ctpioLength,kCtpioHdrBase,field_or,field_or,field_shiftLeft_below _ (by decide),
      field_shiftLeft_below _ (by decide),field_low _ (by decide)]
    simp only [BitVec.ofNat_eq_ofNat,BitVec.or_zero,BitVec.zero_or,BitVec.toNat_setWidth]
    exact Nat.mod_eq_of_lt small
  · rw [ctpioTimeStampReq,kCtpioHdrBase,field_or,field_or,field_shiftLeft_below _ (by decide),
      field_shiftLeft _ 12 1 (by decide),field_above len small (by decide)]
    rfl
  · rw [ctpioThreshold,kCtpioHdrBase,field_or,field_or,field_shiftLeft _ 16 12 (by decide),
      field_shiftLeft_above _ one (by decide),field_above len small (by decide)]
    simp only [BitVec.ofNat_eq_ofNat,BitVec.or_zero,BitVec.toNat_setWidth]
    exact Nat.mod_eq_of_lt c.threshold

private theorem describable_bounds (fits : describable vaddr = true) :
    (idOff vaddr).toNat < 2^44 ∧ (order vaddr).toNat < 2^4 := by
  rw [describable,Bool.and_eq_true,beq_iff_eq,beq_iff_eq] at fits
  exact ⟨toNat_lt_of_shiftRight fits.1,toNat_lt_of_shiftRight fits.2⟩

private theorem setWidth_back {value : BitVec 64} {bits : Nat} (small : value.toNat < 2^bits) :
    (value.setWidth bits).setWidth 64 = value := by
  apply BitVec.eq_of_toNat_eq
  rw [BitVec.toNat_setWidth,BitVec.toNat_setWidth,Nat.mod_eq_of_lt small,Nat.mod_eq_of_lt value.isLt]

private theorem order_idOff (vaddr : BitVec 64) : (order vaddr <<< 48) ||| idOff vaddr = vaddr := by
  have mask : (0xffffffffffff : BitVec 64) = (BitVec.allOnes 48).setWidth 64 := by decide
  apply BitVec.eq_of_getLsbD_eq
  intro i inside
  rw [order,idOff,mask,BitVec.getLsbD_or,BitVec.getLsbD_shiftLeft,BitVec.getLsbD_ushiftRight,BitVec.getLsbD_and,
    BitVec.getLsbD_setWidth,BitVec.getLsbD_allOnes]
  by_cases low : i < 48
  · simp [low,inside]
  · simp [low,inside,show 48 + (i - 48) = i by omega]

private theorem descriptor_fields (fits : describable vaddr = true) (small : len.toNat < 2^12) :
    (byteCount (descriptor (txDescBase vaddr) len)).toNat = len.toNat ∧
      dmaAddress (descriptor (txDescBase vaddr) len) = vaddr := by
  obtain ⟨narrow,page⟩ := describable_bounds fits
  have wide : (len.setWidth 64).toNat = len.toNat := by
    rw [BitVec.toNat_setWidth,Nat.mod_eq_of_lt (by have := len.isLt; omega)]
  constructor
  · rw [byteCount,descriptor,txDescBase,field_or,field_or,field_shiftLeft_above _ page (by decide),
      field_above _ narrow (by decide),field_shiftLeft _ 48 14 (by decide)]
    simp only [BitVec.ofNat_eq_ofNat,BitVec.or_zero,BitVec.zero_or,BitVec.toNat_setWidth 14,wide]
    exact Nat.mod_eq_of_lt (by omega)
  · rw [dmaAddress,descriptor,txDescBase,field_or,field_or,field_or,field_or,field_shiftLeft _ 44 4 (by decide),
      field_above _ narrow (by decide),field_shiftLeft_below _ (by decide),field_shiftLeft_below _ (by decide),
      field_shiftLeft_below _ (by decide),field_low _ (by decide)]
    simp only [BitVec.ofNat_eq_ofNat,BitVec.or_zero,BitVec.zero_or]
    rw [setWidth_back page,setWidth_back narrow,order_idOff]

end Words

structure Copied (mem : ByteMemory) (hdr : BitVec 32) (src : Nat) (old : ByteMemory) (lanes : Nat)
    (copy : Copy) : Prop where
  loads : copy.loads = (List.range lanes).map (fun lane => src + 16 * lane)
  header : copy.aperture.read 0 4 = storeU32 hdr
  body : ∀ address, 4 ≤ address → address < 16 * lanes → copy.aperture address = mem (src + address)
  rest : ∀ address, 4 ≤ address → 16 * lanes ≤ address → copy.aperture address = old address

section Copying

variable {mem old : ByteMemory} {hdr : BitVec 32} {src lanes : Nat} {copy : Copy}

private theorem moveFirst_copied (mem : ByteMemory) (hdr : BitVec 32) (src : Nat) (old : ByteMemory) :
    Copied mem hdr src old 1 (moveFirst mem hdr 0 src ⟨old,[]⟩) := by
  have size : (insert hdr (mem.read src 16)).length = 16 := by
    simp [insert,storeU32_length,ByteMemory.read_length]
  refine ⟨rfl,?_,?_,?_⟩
  · have whole := ByteMemory.read_write_same old 0 (insert hdr (mem.read src 16))
    rw [size] at whole
    have front := congrArg (List.take 4) whole
    rw [ByteMemory.read_take _ (by decide)] at front
    rw [moveFirst,front,insert,List.take_left' (storeU32_length hdr)]
  · intro address low high
    dsimp only [moveFirst]
    rw [ByteMemory.write,if_pos (Nat.zero_le _),insert,Nat.sub_zero,
      List.getElem?_append_right (by rw [storeU32_length]; exact low),storeU32_length,ByteMemory.read_drop,
      ByteMemory.read_getElem? mem (by omega),Option.getD_some]
    congr 1
    omega
  · intro address low high
    have outside : 0 + (insert hdr (mem.read src 16)).length ≤ address := by omega
    exact ByteMemory.write_outside old (.inr outside)

theorem Copied.move (copied : Copied mem hdr src old lanes copy) (started : 0 < lanes) {dst place : Nat}
    (there : dst = 16 * lanes) (here : place = src + 16 * lanes) :
    Copied mem hdr src old (lanes + 1) (move mem dst place copy) := by
  subst there here
  refine ⟨?_,?_,?_,?_⟩
  · rw [EfViCtpio.move,copied.loads,List.range_succ,List.map_append]
    rfl
  · rw [EfViCtpio.move,ByteMemory.read_write_apart _ (.inl (by omega)),copied.header]
  · intro address low high
    dsimp only [EfViCtpio.move]
    rw [ByteMemory.write_copy]
    split
    · next lane =>
      congr 1
      omega
    · next before => exact copied.body address low (by omega)
  · intro address low high
    dsimp only [EfViCtpio.move]
    rw [ByteMemory.write_copy,if_neg (by omega)]
    exact copied.rest address low (by omega)

theorem Copied.moveLines {line : Nat} (copied : Copied mem hdr src old (4 * (line + 1)) copy) (more : Nat) :
    Copied mem hdr src old (4 * (line + 1 + more)) (moveLines mem more (64 * line) (src + 64 * line) copy) := by
  induction more generalizing line copy with
  | zero => exact copied
  | succ more ih =>
    have one := (((copied.move (by omega) (by omega : 64 * line + 64 = _) (by omega : src + 64 * line + 64 = _)).move
      (by omega) (by omega : 64 * line + 64 + 16 = _) (by omega : src + 64 * line + 64 + 16 = _)).move
      (by omega) (by omega : 64 * line + 64 + 32 = _) (by omega : src + 64 * line + 64 + 32 = _)).move
      (by omega) (by omega : 64 * line + 64 + 48 = _) (by omega : src + 64 * line + 64 + 48 = _)
    have rest : Copied mem hdr src old (4 * (line + 1 + 1 + more)) _ := ih one
    rw [show 64 * (line + 1) = 64 * line + 64 by omega,show src + (64 * line + 64) = src + 64 * line + 64 by omega] at rest
    rw [EfViCtpio.moveLines,show line + 1 + (more + 1) = line + 1 + 1 + more by omega]
    exact rest

end Copying

theorem kTxHdrBytes_plus (c : Setup) : kTxHdrBytes c.p = 4 := by
  rw [kTxHdrBytes,EfVi.Params.kX2522Plus,c.plus]
  rfl

private theorem nLines_toNat (c : Setup) {len : BitVec 32} (small : len.toNat + 4 ≤ 4096) :
    (nLines c.p len).toNat = (len.toNat + 67) / 64 := by
  have sum : (len + kTxHdrBytes c.p + 63).toNat = len.toNat + 67 := by
    rw [kTxHdrBytes_plus]
    bv_omega
  rw [nLines,BitVec.toNat_ushiftRight,sum,Nat.shiftRight_eq_div_pow]

private theorem copyOut_copied (mem : ByteMemory) (hdr : BitVec 32) {lines : BitVec 32} (some : 0 < lines.toNat) (src : Nat)
    (aperture : ByteMemory) : Copied mem hdr src aperture (4 * lines.toNat) (copyOut mem hdr lines src aperture) := by
  have line := (((moveFirst_copied mem hdr src aperture).move (by decide) (by decide : 16 = _) rfl).move
    (by decide) (by decide : 32 = _) rfl).move (by decide) (by decide : 48 = _) rfl
  have whole : Copied mem hdr src aperture (4 * (0 + 1 + (lines.toNat - 1))) (copyOut mem hdr lines src aperture) :=
    line.moveLines (lines.toNat - 1)
  rw [show 0 + 1 + (lines.toNat - 1) = lines.toNat by omega] at whole
  exact whole

theorem Copied.frame {mem old : ByteMemory} {hdr : BitVec 32} {src lanes : Nat} {copy : Copy}
    (copied : Copied mem hdr src old lanes copy) {count : Nat} (inside : 4 + count ≤ 16 * lanes) :
    copy.aperture.read 4 count = mem.read (src + 4) count := by
  unfold ByteMemory.read
  apply List.map_congr_left
  intro i member
  have below := List.mem_range.mp member
  rw [copied.body (4 + i) (by omega) (by omega),Nat.add_assoc]

theorem Copied.ctpioHeader {mem old : ByteMemory} {hdr : BitVec 32} {src lanes : Nat} {copy : Copy}
    (copied : Copied mem hdr src old lanes copy) : ctpioHeader copy.aperture = hdr := by
  have stored := loadU32_storeU32 [] hdr []
  rw [List.nil_append,List.append_nil] at stored
  rw [EfViCtpio.ctpioHeader,copied.header]
  exact stored

theorem writes_filled {s : State} {writes : List (Nat × List Byte)} {len : Nat}
    (inside : ∀ part ∈ writes, part.1 + part.2.length ≤ len) :
    ∃ mem, writes.foldl write s = {s with mem := mem} ∧
      ∀ address, address < s.txPtr ∨ s.txPtr + len ≤ address → mem address = s.mem address := by
  induction writes generalizing s with
  | nil => exact ⟨s.mem,rfl,fun _ _ => rfl⟩
  | cons part rest ih =>
    rw [List.forall_mem_cons] at inside
    obtain ⟨mem,filled,kept⟩ := ih (s := write s part) inside.2
    refine ⟨mem,filled,?_⟩
    intro address outside
    rw [kept address outside]
    exact ByteMemory.write_outside s.mem (by omega)

theorem descriptor_slot {c : Setup} {reg : Memreg c.toRegion} {vi : Vi} {table : Nat → BitVec 64}
    (inited : initX2522PlusTx c reg vi = .ok table) {slot len : BitVec 32} (inside : slot.toNat < c.p.nbTxBufs)
    (small : len.toNat < 2^12) :
    (byteCount (descriptor (table slot.toNat) len)).toNat = len.toNat ∧
      dmaAddress (descriptor (table slot.toNat) len) = txDma c.toRegion reg slot := by
  obtain ⟨fits,entry⟩ := initX2522PlusTx_ok inited inside
  rw [BitVec.ofNat_toNat,BitVec.setWidth_eq] at fits entry
  rw [entry]
  exact descriptor_fields fits small

private theorem txDma_mapped (c : Setup) (reg : Memreg c.toRegion) {slot : BitVec 32} (inside : slot.toNat < c.p.nbTxBufs)
    (room : 4 < c.p.bufSize.toNat) : reg.offsetOf (txDma c.toRegion reg slot) = txSlot c.toRegion slot + 4 := by
  have within := txSlot_inside c.toRegion inside
  rw [txDma,kTxHdrBytes_plus]
  apply reg.mapped
  change txSlot c.toRegion slot + 4 < slotBytes c.toRegion
  omega

/-- The ring positions this path uses are those of the backend's state machine. -/
theorem refines_efVi (c : Setup) (s : State) (st : EfVi.State) (same : st.tx = s.tx) (frameLen : BitVec 32) :
    (EfVi.acquire c.p st frameLen).1.tx = (acquire c s frameLen).tx ∧ (EfVi.commit c.p st).1.tx = (commit c s).tx := by
  have plus : c.p.kX2522Plus = true := by
    rw [EfVi.Params.kX2522Plus,c.plus]
    rfl
  rw [EfVi.acquire,EfVi.commit,if_pos plus,if_pos plus]
  dsimp only
  rw [same]
  exact ⟨rfl,rfl⟩

theorem ctpio_and_dma_agree (c : Setup) (reg : Memreg c.toRegion) {vi : Vi} {table : Nat → BitVec 64}
    (inited : initX2522PlusTx c reg vi = .ok table)
    (lines : 64 ∣ c.p.bufSize.toNat) (page : c.p.bufSize.toNat ≤ 4096)
    {s filled t : State} (primed : s.txDescBase = table) {frameLen : BitVec 32}
    (fits : frameLen.toNat + 4 ≤ c.p.bufSize.toNat) {writes : List (Nat × List Byte)}
    (inside : ∀ part ∈ writes, part.1 + part.2.length ≤ frameLen.toNat)
    (written : writes.foldl write (acquire c s frameLen) = filled) (sent : commit c filled = t) :
    ((ctpioLength (ctpioHeader t.copy.aperture)).toNat = frameLen.toNat ∧
      (ctpioThreshold (ctpioHeader t.copy.aperture)).toNat = c.ctThreshold.toNat ∧
      ctpioTimeStampReq (ctpioHeader t.copy.aperture) = 1 ∧
      t.copy.aperture.read 4 frameLen.toNat = filled.mem.read (txSlot c.toRegion filled.tx.slot + 4) frameLen.toNat) ∧
    (∃ desc, t.txq.descriptors (s.txq.added &&& s.txq.mask).toNat = desc ∧ t.doorbell.setWidth 64 = desc ∧
      (byteCount desc).toNat = frameLen.toNat ∧ dmaAddress desc = txDma c.toRegion reg filled.tx.slot ∧
      reg.offsetOf (dmaAddress desc) = txSlot c.toRegion filled.tx.slot + 4 ∧
      ctpioFrame t.copy.aperture = dmaFrame reg t.mem desc) ∧
    (∀ load ∈ t.copy.loads, txSlot c.toRegion filled.tx.slot ≤ load ∧
      load + 16 ≤ txSlot c.toRegion filled.tx.slot + c.p.bufSize.toNat) ∧
    t.mem = filled.mem ∧
    (∀ address, address < txSlot c.toRegion filled.tx.slot + 4 ∨
        txSlot c.toRegion filled.tx.slot + 4 + frameLen.toNat ≤ address → filled.mem address = s.mem address) ∧
    ∀ st : EfVi.State, st.tx = s.tx → (EfVi.acquire c.p st frameLen).1.tx = filled.tx ∧
      (EfVi.commit c.p (EfVi.acquire c.p st frameLen).1).1.tx = t.tx := by
  obtain ⟨mem,same,kept⟩ := writes_filled (s := acquire c s frameLen) inside
  rw [same] at written
  subst written sent primed
  have four : (kTxHdrBytes c.p).toNat = 4 := congrArg BitVec.toNat (kTxHdrBytes_plus c)
  have granted : (acquire c s frameLen).txPtr = txSlot c.toRegion (s.tx.claim c.p frameLen).slot + 4 :=
    congrArg (txSlot c.toRegion (s.tx.claim c.p frameLen).slot + ·) four
  rw [granted] at kept
  have slot := claim_slot c.toRegion s.tx frameLen
  have small : frameLen.toNat < 2^12 := by omega
  have count := nLines_toNat c (by omega : frameLen.toNat + 4 ≤ 4096)
  have copied := copyOut_copied mem (kCtpioHdrBase c ||| frameLen) (by omega : 0 < (nLines c.p frameLen).toNat)
    (txSlot c.toRegion (s.tx.claim c.p frameLen).slot) s.copy.aperture
  rw [count] at copied
  obtain ⟨length,stamp,threshold⟩ := header_fields c small
  obtain ⟨bytes,address⟩ := descriptor_slot inited slot small
  have header := copied.ctpioHeader
  have frame := copied.frame (by omega : 4 + frameLen.toNat ≤ 16 * (4 * ((frameLen.toNat + 67) / 64)))
  have mapped := txDma_mapped c reg slot (by omega)
  refine ⟨⟨?_,?_,?_,frame⟩,⟨_,Function.update_self _ _ _,?_,bytes,address,?_,?_⟩,?_,rfl,kept,?_⟩
  · exact (congrArg (fun hdr => (ctpioLength hdr).toNat) header).trans length
  · exact (congrArg (fun hdr => (ctpioThreshold hdr).toNat) header).trans threshold
  · exact (congrArg ctpioTimeStampReq header).trans stamp
  · exact BitVec.setWidth_append_eq_right
  · exact (congrArg reg.offsetOf address).trans mapped
  · have left : ctpioFrame (copyOut mem (kCtpioHdrBase c ||| frameLen) (nLines c.p frameLen)
        (txSlot c.toRegion (s.tx.claim c.p frameLen).slot) s.copy.aperture).aperture =
        mem.read (txSlot c.toRegion (s.tx.claim c.p frameLen).slot + 4) frameLen.toNat := by
      rw [ctpioFrame,header,length,frame]
    have right : dmaFrame reg mem (descriptor (s.txDescBase (s.tx.claim c.p frameLen).slot.toNat) frameLen) =
        mem.read (txSlot c.toRegion (s.tx.claim c.p frameLen).slot + 4) frameLen.toNat := by
      rw [dmaFrame,address,mapped,bytes]
    exact left.trans right.symm
  · intro load member
    have listed := copied.loads ▸ member
    rw [List.mem_map] at listed
    obtain ⟨lane,ranged,rfl⟩ := listed
    have below := List.mem_range.mp ranged
    obtain ⟨quarter,whole⟩ := lines
    refine ⟨Nat.le_add_right _ _,?_⟩
    change txSlot c.toRegion (s.tx.claim c.p frameLen).slot + 16 * lane + 16 ≤
      txSlot c.toRegion (s.tx.claim c.p frameLen).slot + c.p.bufSize.toNat
    omega
  · intro st begun
    have claimed := (refines_efVi c s st begun frameLen).1
    exact ⟨claimed,(refines_efVi c {acquire c s frameLen with mem := mem} _ claimed frameLen).2⟩

private theorem twoLineRoom : 14 + 14 ≤ (128 : BitVec 32).toNat := by decide

private theorem defaultThreshold : (64 : BitVec 32).toNat < 2^12 := by decide

private theorem unpadded : (0 : BitVec 32).toNat ≤ 512 := by decide

def labSetup : Setup :=
  ⟨⟨{EfVi.labPort .X2522Plus with bufSize := 128, prefixRoom := twoLineRoom},0,unpadded⟩,rfl,64,rfl,defaultThreshold⟩

private theorem identity_mapped (offset : Nat) (inside : offset < slotBytes labSetup.toRegion) :
    (BitVec.ofNat 64 offset).toNat = offset := by
  have bytes : slotBytes labSetup.toRegion = 1536 := rfl
  rw [BitVec.toNat_ofNat,Nat.mod_eq_of_lt (by omega)]

def labReg : Memreg labSetup.toRegion := ⟨BitVec.ofNat 64,BitVec.toNat,identity_mapped⟩

def labVi : Vi := ⟨true,true,false,1,fun vaddr len => some (descriptor (txDescBase vaddr) len)⟩

def labTable : Nat → BitVec 64 := ((initX2522PlusTx labSetup labReg labVi).toOption).getD (fun _ => 0)

def labState : State :=
  ⟨fun _ => 0xEE,{(EfVi.start labSetup.p).tx with head := 3},0,0,labTable,⟨fun _ => 0,fun _ => 0,5,5,7⟩,0,⟨fun _ => 0,[]⟩⟩

def labWrites : List (Nat × List Byte) := [(0,[1,2,3]),(96,[4,5,6,7])]

theorem ctpio_and_dma_agree_two_lines :
    ctpioFrame (commit labSetup (labWrites.foldl write (acquire labSetup labState 100))).copy.aperture =
      dmaFrame labReg (commit labSetup (labWrites.foldl write (acquire labSetup labState 100))).mem
        ((commit labSetup (labWrites.foldl write (acquire labSetup labState 100))).doorbell.setWidth 64) := by
  have inited : initX2522PlusTx labSetup labReg labVi = .ok labTable := rfl
  have inside : ∀ part ∈ labWrites, part.1 + part.2.length ≤ (100 : BitVec 32).toNat := by decide
  have primed : labState.txDescBase = labTable := rfl
  obtain ⟨_,⟨desc,_,rung,_,_,_,same⟩,_⟩ := ctpio_and_dma_agree labSetup labReg inited (by decide) (by decide) primed
    (by decide : (100 : BitVec 32).toNat + 4 ≤ labSetup.p.bufSize.toNat) inside rfl rfl
  rw [rung]
  exact same

end Abtrda3.EfViCtpio
