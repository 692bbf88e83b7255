import Abtrda3.EfViCtpio
import Abtrda3.Semantics.Lifetime
import Abtrda3.Semantics.SlotLayout

/-! Setting up and taking down an ef_vi port: driver, protection domain, virtual interface,
huge pages and their registration, each call of which may fail. The interface is made before
the memory that its descriptors will name, and it goes first. The memory is cut into slots
with a padding that an environment variable chooses. -/
namespace Abtrda3.EfViLifecycle
open Abtrda3.EfVi Abtrda3.Semantics Abtrda3.Semantics.Machine Abtrda3.Semantics.Lifetime

inductive Member
  | driver
  | pd
  | vi
  | mem
  | memreg
  deriving DecidableEq, Repr

/-- Posted descriptors name the registered memory. -/
def needs : Member → List Member
  | .driver => []
  | .pd => [.driver]
  | .vi => [.driver,.pd,.memreg]
  | .mem => []
  | .memreg => [.driver,.pd,.mem]

def layout : Layout Member where
  needs := needs
  order := [.vi,.memreg,.mem,.pd,.driver]
  all := by intro member; cases member <;> decide
  ordered := by decide
  apart := by intro member; cases member <;> decide

inductive Arch
  | EF10
  | EFCT
  | other
  deriving DecidableEq, Repr

def EPERM : Int := 1

def ENOKEY : Int := 126

structure Answers where
  readMac : Bool
  ifindex : BitVec 32
  driverOpen : Bool
  pdAlloc : Bool
  ctpio : Bool
  rxTimestamping : Bool
  txTimestamping : Bool
  viAlloc : Int
  viAllocMerged : Int
  arch : Arch
  mmap : Bool
  memregAlloc : Bool
  x2522PlusTx : Bool
  filterAdd : Bool
  rxPrefix : Int
  quarterNanoseconds : Bool
  deriving DecidableEq, Repr

/-- A refusal for want of event merging is asked again with merging on. -/
def viGranted (p : Params) (a : Answers) : Bool :=
  if p.hwTimestamps && a.viAlloc = -ENOKEY then false
  else (if a.viAlloc = -EPERM then a.viAllocMerged else a.viAlloc) = 0

def capabilities (p : Params) (a : Answers) : List (Stage Member) :=
  (if p.hasTx && p.useCtpio then [check a.ctpio] else []) ++
  if p.hwTimestamps then
    (if p.hasRx then [check a.rxTimestamping] else []) ++ if p.hasTx then [check a.txTimestamping] else []
  else []

/-- With the first posted receive the card may write to the registered memory. -/
def receiveStages (p : Params) (a : Answers) (name : Nat) : List (Stage Member) :=
  if p.hasRx then
    [check a.filterAdd,settled name .vi .memreg] ++
      if p.hwTimestamps then [check (a.rxPrefix ≠ 0),check a.quarterNanoseconds] else []
  else []

def initStages (p : Params) (a : Answers) (name : Nat) : List (Stage Member) :=
  [check a.readMac,check (a.ifindex ≠ 0),fill layout name .driver a.driverOpen,fill layout name .pd a.pdAlloc] ++
  (capabilities p a ++
  ([fill layout name .vi (viGranted p a),check (a.arch ≠ .EFCT),acquire layout name .mem a.mmap,
    fill layout name .memreg a.memregAlloc] ++
  ((if p.kX2522Plus then [check a.x2522PlusTx] else []) ++ receiveStages p a name)))

def filled (p : Params) : List (List Member) :=
  [[],[],[.driver],[.pd]] ++
  (((if p.hasTx && p.useCtpio then [[]] else []) ++
    if p.hwTimestamps then (if p.hasRx then [[]] else []) ++ if p.hasTx then [[]] else [] else []) ++
  ([[.vi],[],[.mem],[.memreg]] ++
  ((if p.kX2522Plus then [[]] else []) ++
    if p.hasRx then [[],[]] ++ if p.hwTimestamps then [[],[]] else [] else [])))

private theorem filled_flatten (p : Params) : (filled p).flatten = [.driver,.pd,.vi,.mem,.memreg] := by
  unfold filled
  cases p.hasTx <;> cases p.useCtpio <;> cases p.hwTimestamps <;> cases p.hasRx <;> cases p.kX2522Plus <;> rfl

theorem filled_apart (p : Params) : (filled p).Pairwise List.Disjoint := by
  have distinct : (filled p).flatten.Nodup := by
    rw [filled_flatten]
    decide
  exact (List.nodup_flatten.mp distinct).2

theorem fills_init (p : Params) (a : Answers) (name : Nat) :
    List.Forall₂ (Fills layout name) (filled p) (initStages p a name) := by
  have checked (ok : Bool) : Fills layout name [] (check ok : Stage Member) := fills_check layout name ok
  have made (member : Member) (ok : Bool) : Fills layout name [member] (fill layout name member ok) :=
    fills_fill layout name member ok
  have posted : Fills layout name [] (settled name .vi .memreg) :=
      fills_settled (show Member.memreg ∈ needs .vi by decide) name
  apply List.rel_append
  · exact .cons (checked _) (.cons (checked _) (.cons (made .driver _) (.cons (made .pd _) .nil)))
  apply List.rel_append
  · apply List.rel_append
    · exact rel_if ((p.hasTx && p.useCtpio) = true) (.cons (checked _) .nil)
    · apply rel_if (p.hwTimestamps = true)
      exact List.rel_append (rel_if (p.hasRx = true) (.cons (checked _) .nil))
        (rel_if (p.hasTx = true) (.cons (checked _) .nil))
  apply List.rel_append
  · exact .cons (made .vi _) (.cons (checked _) (.cons (fills_acquire layout name .mem a.mmap)
      (.cons (made .memreg _) .nil)))
  apply List.rel_append
  · exact rel_if (p.kX2522Plus = true) (.cons (checked _) .nil)
  · apply rel_if (p.hasRx = true)
    apply List.rel_append
    · exact .cons (checked _) (.cons posted .nil)
    · exact rel_if (p.hwTimestamps = true) (.cons (checked _) (.cons (checked _) .nil))

def design (p : Params) : Design Member Answers where
  layout := layout
  initStages := initStages p
  filled := filled p
  apart := filled_apart p
  fills := fills_init p

/-- Over every history of set-ups, commits and shutdowns nothing is given back that is not
held. With all ports down each object was given back once exactly if no `init` wrote over a
held one, and then nothing that the card or another object still uses went first; an `init`
on an empty port writes over none. A port whose `init` went through has all five. -/
theorem efVi_objects_given_back (p : Params) (events : List (Design.Event Member Answers)) (w : World Member)
    (ran : run (design p).step World.start events = some w) :
    w.ledger.faults = 0 ∧
    ((∀ owner, w.members owner = none) →
      ((∀ serial, serial < w.ledger.granted → w.ledger.released.count serial = 1) ↔ w.overwritten = [])) ∧
    (w.overwritten = [] → w.orphaned = 0) ∧
    (Along (design p).step (design p).OnEmpty World.start events → w.overwritten = []) ∧
    ∀ name a, ((design p).init a name w).2 = true → ∀ member,
      (((design p).init a name w).1.members (name,member)).isSome = true := by
  have inv := Design.inv_run ran
  refine ⟨inv.owned.sound.faultless,inv.released_once_iff,inv.orphaned,Design.overwritten_run ran,
    fun name a done member => ?_⟩
  have listed : member ∈ (filled p).flatten := by
    rw [filled_flatten]
    cases member <;> decide
  obtain ⟨group,among,inside⟩ := List.mem_flatten.mp listed
  exact stages_filled (fills_init p a name) (filled_apart p) done group among member inside

def labAnswers : Answers := ⟨true,2,true,true,true,true,true,0,0,.EF10,true,true,true,true,14,true⟩

/-- The adapter insists on event merging and turns out to be of the wrong kind; then one that
goes through. -/
def labEvents : List (Design.Event Member Answers) :=
  [.init 0 {labAnswers with viAlloc := -1, arch := .EFCT},.shutdown 0,.init 0 labAnswers,.settle 0 .vi .memreg,.shutdown 0]

/-- The second attempt opens the driver again, over the handle of the first. -/
def labRetry : List (Design.Event Member Answers) :=
  [.init 0 {labAnswers with pdAlloc := false},.init 0 labAnswers,.shutdown 0]

theorem efVi_objects_given_back_lab :
    (∃ w, run (design (labPort .X2522Plus)).step World.start labEvents = some w ∧
      w.ledger.faults = 0 ∧ w.orphaned = 0 ∧ w.ledger.granted = 8 ∧
      ∀ serial, serial < w.ledger.granted → w.ledger.released.count serial = 1) ∧
    ∃ w, run (design (labPort .X2522Plus)).step World.start labRetry = some w ∧
      w.ledger.faults = 0 ∧ w.ledger.granted = 6 ∧
      ¬ ∀ serial, serial < w.ledger.granted → w.ledger.released.count serial = 1 := by
  constructor
  · have shown : (run (design (labPort .X2522Plus)).step World.start labEvents).map (fun w => w.ledger.granted) =
        some 8 := by
      decide +kernel
    obtain ⟨w,ran,granted⟩ := Option.map_eq_some_iff.mp shown
    obtain ⟨faultless,once,ordered,kept,_⟩ := efVi_objects_given_back (labPort .X2522Plus) labEvents w ran
    have clean := kept (by decide +kernel)
    refine ⟨w,ran,faultless,ordered clean,granted,(once ?_).mpr clean⟩
    rintro ⟨name,member⟩
    cases Option.some.inj ran
    cases name <;> cases member <;> rfl
  · have shown : (run (design (labPort .X2522Plus)).step World.start labRetry).map
        (fun w => (w.ledger.granted,w.overwritten)) = some (6,[0]) := by
      decide +kernel
    obtain ⟨w,ran,here⟩ := Option.map_eq_some_iff.mp shown
    obtain ⟨granted,lost⟩ := Prod.mk.inj here
    obtain ⟨faultless,once,_⟩ := efVi_objects_given_back (labPort .X2522Plus) labRetry w ran
    refine ⟨w,ran,faultless,granted,?_⟩
    rw [once,lost]
    · exact List.cons_ne_nil 0 []
    · rintro ⟨name,member⟩
      cases Option.some.inj ran
      cases name <;> cases member <;> rfl

section Memory

open EfViCtpio

/-- The port's own variable comes before the common one; `atoi` has read either as an `int`. -/
def txPad (padPerPort pad : Option (BitVec 32)) : BitVec 32 :=
  match padPerPort.or pad with
  | none => 0
  | some value => if value < 512 then value else 512

private theorem txPad_le (padPerPort pad : Option (BitVec 32)) : (txPad padPerPort pad).toNat ≤ 512 := by
  unfold txPad
  split
  · decide
  · split
    · next below => exact Nat.le_of_lt below
    · decide

def portPad (p : Params) (padPerPort pad : Option (BitVec 32)) : BitVec 32 :=
  if p.hasTx then txPad padPerPort pad else 0

private theorem portPad_le (p : Params) (padPerPort pad : Option (BitVec 32)) : (portPad p padPerPort pad).toNat ≤ 512 := by
  unfold portPad
  split
  · exact txPad_le padPerPort pad
  · decide

def region (p : Params) (padPerPort pad : Option (BitVec 32)) : Region :=
  ⟨p,portPad p padPerPort pad,portPad_le p padPerPort pad⟩

def kHugePage : BitVec 64 := BitVec.ofNat 64 (2^21)

def memBytes (r : Region) : BitVec 64 := (BitVec.ofNat 64 (slotBytes r) + kHugePage - 1) &&& ~~~(kHugePage - 1)

private theorem slotBytes_lt (r : Region) : slotBytes r < 2^49 := by
  have rx := nbRxBufs_le r
  have tx := nbTxBufs_le r
  have pad := r.padded
  have size := r.p.bufSize.isLt
  rw [slotBytes_eq]
  calc (r.p.nbRxBufs + r.p.nbTxBufs + 2 + r.txPad.toNat) * r.p.bufSize.toNat
      ≤ (2^15 + 2^15 + 2 + 512) * r.p.bufSize.toNat := Nat.mul_le_mul_right _ (by omega)
    _ < 2^49 := by omega

private theorem memBytes_eq (r : Region) : (memBytes r).toNat = (slotBytes r + (2^21 - 1)) / 2^21 * 2^21 := by
  have small := slotBytes_lt r
  have sum : BitVec.ofNat 64 (slotBytes r) + kHugePage - 1 = BitVec.ofNat 64 (slotBytes r + (2^21 - 1)) := by
    have one : (1 : BitVec 64) = BitVec.ofNat 64 1 := rfl
    unfold kHugePage
    rw [← BitVec.ofNat_add,one,WrappingCounter.sub_ofNat 64 (by omega : 1 ≤ slotBytes r + 2^21),
      Nat.add_sub_assoc (by decide)]
  unfold memBytes
  rw [sum]
  unfold kHugePage
  rw [WrappingCounter.unmask_toNat (by decide),WrappingCounter.ofNat_toNat_mod,Nat.mod_eq_of_lt (by omega)]

def slots (r : Region) : SlotLayout := ⟨r.p.bufSize.toNat,0,r.p.bufSize.toNat,Nat.le_of_eq (Nat.zero_add _)⟩

def rxArea (r : Region) (i : Nat) : Area := ⟨i * r.p.bufSize.toNat,r.p.bufSize.toNat⟩

def txArea (r : Region) (s : BitVec 32) : Area := ⟨txSlot r s,r.p.bufSize.toNat⟩

def sendArea (r : Region) : Area := ⟨txSlot r 0 - r.p.bufSize.toNat,(r.p.nbTxBufs + 2) * r.p.bufSize.toNat⟩

def mapping (r : Region) : Area := ⟨0,(memBytes r).toNat⟩

private theorem rxArea_eq (r : Region) (i : Nat) : rxArea r i = (slots r).data i := rfl

private theorem txArea_eq (r : Region) {s : BitVec 32} (inside : s.toNat < r.p.nbTxBufs) :
    txArea r s = (slots r).data (r.p.nbRxBufs + 1 + r.txPad.toNat + s.toNat) := by
  unfold txArea
  rw [txSlot_eq r inside]
  rfl

private theorem sendArea_base (r : Region) : (sendArea r).base = (r.p.nbRxBufs + r.txPad.toNat) * r.p.bufSize.toNat := by
  have first := txSlot_eq r (s := 0) (Nat.two_pow_pos r.p.txBits)
  have count : r.p.nbRxBufs + 1 + r.txPad.toNat + (0 : BitVec 32).toNat = r.p.nbRxBufs + r.txPad.toNat + 1 := by
    change r.p.nbRxBufs + 1 + r.txPad.toNat + 0 = _
    omega
  rw [count,Nat.succ_mul] at first
  unfold sendArea
  rw [first,Nat.add_sub_cancel]

private theorem sendArea_end (r : Region) : (sendArea r).base + (sendArea r).size = slotBytes r := by
  rw [sendArea_base,slotBytes_eq]
  change _ + (r.p.nbTxBufs + 2) * r.p.bufSize.toNat = _
  rw [← Nat.add_mul]
  congr 1
  omega

private theorem slotBytes_le_mapping (r : Region) : slotBytes r ≤ (mapping r).base + (mapping r).size := by
  change _ ≤ 0 + (memBytes r).toNat
  rw [memBytes_eq]
  omega

/-- Whatever the mode of the port and the padding the environment asks for, the mapping is
made of whole huge pages and holds every slot. No two slots share a byte, and every transmit
slot has the width of a slot before and behind it that no receive slot reaches into. -/
theorem slots_inside_mapping (p : Params) (padPerPort pad : Option (BitVec 32)) :
    let r := region p padPerPort pad
    2^21 ∣ (mapping r).size ∧ (sendArea r).Inside (mapping r) ∧
    (∀ i, i < p.nbRxBufs → (rxArea r i).Inside (mapping r) ∧ (rxArea r i).Apart (sendArea r) ∧
      ∀ other, other < p.nbRxBufs → other ≠ i → (rxArea r other).Apart (rxArea r i)) ∧
    ∀ s : BitVec 32, s.toNat < p.nbTxBufs →
      Area.Inside ⟨txSlot r s - p.bufSize.toNat,3 * p.bufSize.toNat⟩ (sendArea r) ∧
      ∀ other : BitVec 32, other.toNat < p.nbTxBufs → other ≠ s → (txArea r other).Apart (txArea r s) := by
  intro r
  have covered := slotBytes_le_mapping r
  have base := sendArea_base r
  have last := sendArea_end r
  have scaled {first second : Nat} (order : first ≤ second) : first * p.bufSize.toNat ≤ second * p.bufSize.toNat :=
    Nat.mul_le_mul_right _ order
  refine ⟨⟨_,(memBytes_eq r).trans (Nat.mul_comm _ _)⟩,⟨Nat.zero_le _,last.trans_le covered⟩,fun i inside => ?_,
    fun s inside => ⟨⟨?_,?_⟩,fun other also different => ?_⟩⟩
  · have before : (rxArea r i).base + (rxArea r i).size ≤ (sendArea r).base := by
      rw [base]
      change i * p.bufSize.toNat + p.bufSize.toNat ≤ _
      rw [← Nat.succ_mul]
      exact scaled (show i + 1 ≤ p.nbRxBufs + r.txPad.toNat by omega)
    refine ⟨⟨Nat.zero_le _,?_⟩,.inl before,fun other _ different => ?_⟩
    · omega
    · rw [rxArea_eq,rxArea_eq]
      exact (slots r).data_apart different
  · rw [base,txSlot_eq r inside]
    change (p.nbRxBufs + r.txPad.toNat) * p.bufSize.toNat ≤ (p.nbRxBufs + 1 + r.txPad.toNat + s.toNat) * p.bufSize.toNat - _
    have slot := scaled (show p.nbRxBufs + r.txPad.toNat + 1 ≤ p.nbRxBufs + 1 + r.txPad.toNat + s.toNat by omega)
    rw [Nat.succ_mul] at slot
    omega
  · rw [last,slotBytes_eq]
    change txSlot r s - p.bufSize.toNat + 3 * p.bufSize.toNat ≤
        (p.nbRxBufs + p.nbTxBufs + 2 + r.txPad.toNat) * p.bufSize.toNat
    have slot : txSlot r s = (p.nbRxBufs + 1 + r.txPad.toNat + s.toNat) * p.bufSize.toNat := txSlot_eq r inside
    have room := scaled (show p.nbRxBufs + 1 + r.txPad.toNat + s.toNat + 2 ≤ p.nbRxBufs + p.nbTxBufs + 2 +
        r.txPad.toNat by omega)
    have one := scaled (show 1 ≤ p.nbRxBufs + 1 + r.txPad.toNat + s.toNat by omega)
    rw [Nat.add_mul] at room
    omega
  · rw [txArea_eq r inside,txArea_eq r also]
    apply (slots r).data_apart
    intro same
    exact different (BitVec.eq_of_toNat_eq (by omega))

/-- A negative padding is a large one, and cut like any other; a receiver takes none. -/
def labRegion : Region := region (labPort .Generic) none (some (-1))

def labRxRegion : Region := region {labPort .Generic with mode := .RxOnly} none (some (-1))

theorem slots_inside_mapping_lab :
    (labRegion.txPad = 512 ∧ (mapping labRegion).size = 2^21 ∧ (sendArea labRegion).Inside (mapping labRegion)) ∧
    labRxRegion.txPad = 0 ∧ (rxArea labRxRegion 3).Apart (rxArea labRxRegion 5) := by
  refine ⟨⟨by decide,by decide +kernel,(slots_inside_mapping (labPort .Generic) none (some (-1))).2.1⟩,by decide,?_⟩
  obtain ⟨_,_,receives,_⟩ := slots_inside_mapping {labPort .Generic with mode := .RxOnly} none (some (-1))
  exact (receives 5 (by decide)).2.2 3 (by decide) (by decide)

end Memory

end Abtrda3.EfViLifecycle
