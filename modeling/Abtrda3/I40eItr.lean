import Mathlib.Data.List.Basic
import Mathlib.Data.BitVec

/-! `pci::i40eSetNoItr`: scan the QINT_RQCTL registers that BAR0 maps, point every bound RX
queue at no ITR, and read each write back. The card is any device that answers reads and
takes writes. What the code did to it is what a device that writes down its accesses has
seen. -/
namespace Abtrda3.I40eItr

def I40E_QINT_RQCTL_BASE : Nat := 0x0003A000
def I40E_QINT_RQCTL_COUNT : Nat := 1536
def I40E_ITR_INDX_SHIFT : Nat := 11
def I40E_ITR_INDX_MASK : BitVec 32 := 0x3 <<< I40E_ITR_INDX_SHIFT
def I40E_CAUSE_ENA_MASK : BitVec 32 := 0x1 <<< 30
def I40E_NEXTQ_TYPE_SHIFT : Nat := 27
def I40E_NEXTQ_TYPE_MASK : BitVec 32 := 0x3 <<< I40E_NEXTQ_TYPE_SHIFT
def I40E_QUEUE_TYPE_UNKNOWN : BitVec 32 := 3
def I40E_RQCTL_RSVD_MASK : BitVec 32 := 0x1 <<< 31
def I40E_ITR_INDEX_NONE : BitVec 32 := 3
def I40E_REG_UNIMPL : BitVec 32 := 0xDEADBEEF

def i40eIsBoundRxQueue (v : BitVec 32) : Bool :=
  if v = I40E_REG_UNIMPL ∨ v = 0xFFFFFFFF then false
  else if v &&& I40E_CAUSE_ENA_MASK = 0 then false
  else if v &&& I40E_RQCTL_RSVD_MASK ≠ 0 then false
  else if (v &&& I40E_NEXTQ_TYPE_MASK) >>> I40E_NEXTQ_TYPE_SHIFT = I40E_QUEUE_TYPE_UNKNOWN then false
  else true

/-- The card behind BAR0: its reads may have effects, and a write may do anything to it. -/
structure Device (σ : Type) where
  read : σ → Nat → BitVec 32 × σ
  write : σ → Nat → BitVec 32 → σ

structure Scan (σ : Type) where
  card : σ
  patched : Nat
  failed : Nat
  firstQ : Nat
  firstBefore : BitVec 32
  firstAfter : BitVec 32

def register (q : Nat) : Nat := I40E_QINT_RQCTL_BASE + q * 4

def wanted (before : BitVec 32) : BitVec 32 :=
  (before &&& ~~~I40E_ITR_INDX_MASK) ||| (I40E_ITR_INDEX_NONE <<< I40E_ITR_INDX_SHIFT)

def landed (after : BitVec 32) : Bool := after &&& I40E_ITR_INDX_MASK = I40E_ITR_INDX_MASK

variable {σ : Type}

def Scan.note (s : Scan σ) (card : σ) (q : Nat) (before after : BitVec 32) : Scan σ :=
  let first := s.patched + s.failed = 0
  {card := card,
   patched := if landed after then s.patched + 1 else s.patched,
   failed := if landed after then s.failed else s.failed + 1,
   firstQ := if first then q else s.firstQ,
   firstBefore := if first then before else s.firstBefore,
   firstAfter := if first then after else s.firstAfter}

def visit (device : Device σ) (s : Scan σ) (q : Nat) : Scan σ :=
  let (before,card) := device.read s.card (register q)
  if !i40eIsBoundRxQueue before then {s with card := card}
  else
    let want := wanted before
    let (after,card) := device.read (device.write card (register q) want) (register q)
    s.note card q before after

def scan (device : Device σ) (card : σ) (count : Nat) : Scan σ :=
  (List.range count).foldl (visit device) ⟨card,0,0,0,0,0⟩

structure Dump (σ : Type) where
  card : σ
  shown : List (Nat × BitVec 32)

/-- The loop that shows the entries of a scan without a bound queue ends at six of them. -/
def dump (device : Device σ) (s : Dump σ) (q : Nat) : Dump σ :=
  if s.shown.length < 6 then
    let (v,card) := device.read s.card (register q)
    if v = 0 ∨ v = I40E_REG_UNIMPL ∨ v = 0xFFFFFFFF then ⟨card,s.shown⟩ else ⟨card,s.shown ++ [(q,v)]⟩
  else s

inductive Report
  | noBdf
  | mmapFailed
  | tooSmall
  | noneBound (shown : List (Nat × BitVec 32))
  | refused (failed total : Nat)
  | applied (patched firstQ : Nat) (firstBefore firstAfter : BitVec 32)
  deriving DecidableEq, Repr

structure Outcome (σ : Type) where
  card : σ
  report : Report
  result : Bool
  deriving DecidableEq, Repr

def clamp (bar0Size : Nat) : Option Nat :=
  if bar0Size < I40E_QINT_RQCTL_BASE + I40E_QINT_RQCTL_COUNT * 4 then
    if bar0Size ≤ I40E_QINT_RQCTL_BASE then none else some ((bar0Size - I40E_QINT_RQCTL_BASE) / 4)
  else some I40E_QINT_RQCTL_COUNT

def conclude (device : Device σ) (count : Nat) (s : Scan σ) : Outcome σ :=
  if s.patched = 0 ∧ s.failed = 0 then
    let d := (List.range count).foldl (dump device) ⟨s.card,[]⟩
    ⟨d.card,.noneBound d.shown,false⟩
  else if s.failed ≠ 0 then ⟨s.card,.refused s.failed (s.patched + s.failed),false⟩
  else ⟨s.card,.applied s.patched s.firstQ s.firstBefore s.firstAfter,true⟩

def i40eSetNoItr (device : Device σ) (card : σ) (bdf : String) (bar0Size : Nat) (opened : Bool) : Outcome σ :=
  if bdf.isEmpty then ⟨card,.noBdf,false⟩
  else if bar0Size = 0 ∨ !opened then ⟨card,.mmapFailed,false⟩
  else
    match clamp bar0Size with
    | none => ⟨card,.tooSmall,false⟩
    | some count => conclude device count (scan device card count)

/-- One access of the device, a read with its answer. -/
inductive Access
  | read (offset : Nat) (answer : BitVec 32)
  | write (offset : Nat) (value : BitVec 32)
  deriving DecidableEq, Repr

def Access.offset : Access → Nat
  | .read offset _ | .write offset _ => offset

def Device.logged (device : Device σ) : Device (σ × List Access) where
  read state offset :=
    let (answer,card) := device.read state.1 offset
    (answer,card,state.2 ++ [.read offset answer])
  write state offset value := (device.write state.1 offset value,state.2 ++ [.write offset value])

def answers (log : List Access) (offset : Nat) : List (BitVec 32) :=
  log.filterMap fun
    | .read place answer => if place = offset then some answer else none
    | .write .. => none

def written (log : List Access) (offset : Nat) : List (BitVec 32) :=
  log.filterMap fun
    | .read .. => none
    | .write place value => if place = offset then some value else none

def itrIndx (v : BitVec 32) : BitVec 32 := (v &&& I40E_ITR_INDX_MASK) >>> I40E_ITR_INDX_SHIFT

theorem mask_bit : ∀ i < 32, I40E_ITR_INDX_MASK.getLsbD i = decide (i = 11 ∨ i = 12) := by decide

private theorem landed_iff (after : BitVec 32) : landed after = true ↔ itrIndx after = 3 := by
  unfold landed itrIndx
  rw [decide_eq_true_iff]
  constructor
  · intro both
    rw [both]
    rfl
  · intro three
    have bit (i : Nat) : ((after &&& I40E_ITR_INDX_MASK) >>> I40E_ITR_INDX_SHIFT).getLsbD i = (3#32).getLsbD i :=
      congrArg (BitVec.getLsbD · i) three
    have low := bit 0
    have high := bit 1
    simp only [BitVec.getLsbD_ushiftRight,BitVec.getLsbD_and,I40E_ITR_INDX_SHIFT,mask_bit 11 (by decide),
      mask_bit 12 (by decide),Nat.add_zero,Nat.reduceAdd] at low high
    apply BitVec.eq_of_getLsbD_eq
    intro i inside
    rw [BitVec.getLsbD_and,mask_bit i inside]
    by_cases here : i = 11 ∨ i = 12
    · rcases here with rfl | rfl
      · simpa using low
      · simpa using high
    · simp [here]

theorem wanted_bit (before : BitVec 32) {i : Nat} (low : i ≠ 11) (high : i ≠ 12) :
    (wanted before).getLsbD i = before.getLsbD i := by
  rcases Nat.lt_or_ge i 32 with inside | outside
  · have clear : I40E_ITR_INDX_MASK.getLsbD i = false := by
      rw [mask_bit i inside]
      simp [low,high]
    have same : I40E_ITR_INDEX_NONE <<< I40E_ITR_INDX_SHIFT = I40E_ITR_INDX_MASK := rfl
    unfold wanted
    rw [same,BitVec.getLsbD_or,BitVec.getLsbD_and,BitVec.getLsbD_not,clear]
    simp [inside]
  · rw [BitVec.getLsbD_of_ge _ _ outside,BitVec.getLsbD_of_ge _ _ outside]

private theorem register_inside {bar0Size count q : Nat} (clamped : clamp bar0Size = some count) (inside : q < count) :
    register q + 4 ≤ bar0Size := by
  have base : I40E_QINT_RQCTL_BASE = 0x3A000 := rfl
  have window : I40E_QINT_RQCTL_COUNT = 1536 := rfl
  unfold clamp at clamped
  unfold register
  rw [base,window] at clamped
  rw [base]
  split at clamped
  · split at clamped
    · cases clamped
    · have same := Option.some.inj clamped
      omega
  · have same := Option.some.inj clamped
    omega

private theorem clamp_getD (bar0Size : Nat) : (clamp bar0Size).getD 0 = min 1536 ((bar0Size - 0x3A000) / 4) := by
  have base : I40E_QINT_RQCTL_BASE = 0x3A000 := rfl
  have window : I40E_QINT_RQCTL_COUNT = 1536 := rfl
  unfold clamp
  rw [base,window]
  split
  · split
    · rw [Option.getD_none]
      omega
    · rw [Option.getD_some]
      omega
  · rw [Option.getD_some]
    omega

/-- The accesses made for one queue: the value read first, and for a bound queue the value
read back. -/
structure Visit where
  q : Nat
  before : BitVec 32
  after : Option (BitVec 32)
  sound : after.isSome = i40eIsBoundRxQueue before

namespace Visit

def accesses (v : Visit) : List Access :=
  .read (register v.q) v.before :: v.after.toList.flatMap fun after =>
    [.write (register v.q) (wanted v.before),.read (register v.q) after]

def accepted (v : Visit) : Bool := v.after.any landed

def refused (v : Visit) : Bool := v.after.any (fun after => !landed after)

private theorem accesses_offset {v : Visit} {access : Access} (member : access ∈ v.accesses) :
    access.offset = register v.q := by
  obtain ⟨q,before,after,sound⟩ := v
  cases after with
  | none =>
    rw [List.mem_singleton.mp member]
    rfl
  | some after =>
    simp only [accesses,Option.toList_some,List.flatMap_cons,List.flatMap_nil,List.append_nil,List.mem_cons,
      List.not_mem_nil,or_false] at member
    rcases member with rfl | rfl | rfl <;> rfl

private theorem refused_eq (v : Visit) : v.refused = (i40eIsBoundRxQueue v.before && !v.accepted) := by
  obtain ⟨q,before,after,sound⟩ := v
  dsimp only at sound ⊢
  rw [← sound]
  cases after <;> rfl

private theorem bound_of_accepted {v : Visit} (accepted : v.accepted = true) : i40eIsBoundRxQueue v.before = true := by
  rw [← v.sound]
  exact Option.isSome_of_any accepted

private theorem answers_eq (v : Visit) : answers v.accesses (register v.q) = v.before :: v.after.toList := by
  obtain ⟨q,before,after,sound⟩ := v
  cases after <;> simp [answers,accesses]

private theorem written_eq (v : Visit) :
    written v.accesses (register v.q) = if i40eIsBoundRxQueue v.before then [wanted v.before] else [] := by
  obtain ⟨q,before,after,sound⟩ := v
  dsimp only at sound ⊢
  rw [← sound]
  cases after <;> simp [written,accesses]

end Visit

def Scan.withLog (s : Scan σ) (log : List Access) : Scan (σ × List Access) :=
  ⟨(s.card,log),s.patched,s.failed,s.firstQ,s.firstBefore,s.firstAfter⟩

theorem logged_read {device : Device σ} {card next : σ} {offset : Nat} {answer : BitVec 32}
    (read : device.read card offset = (answer,next)) (log : List Access) :
    device.logged.read (card,log) offset = (answer,next,log ++ [.read offset answer]) := by
  simp only [Device.logged,read]

private theorem visit_unbound {device : Device σ} {s : Scan σ} {q : Nat} {before : BitVec 32} {card : σ}
    (read : device.read s.card (register q) = (before,card)) (unbound : i40eIsBoundRxQueue before = false) :
    visit device s q = {s with card := card} := by
  simp [visit,read,unbound]

private theorem visit_bound {device : Device σ} {s : Scan σ} {q : Nat} {before after : BitVec 32} {card last : σ}
    (read : device.read s.card (register q) = (before,card)) (bound : i40eIsBoundRxQueue before = true)
    (again : device.read (device.write card (register q) (wanted before)) (register q) = (after,last)) :
    visit device s q = s.note last q before after := by
  simp [visit,read,bound,again]

theorem visit_logged (device : Device σ) (s : Scan σ) (log : List Access) (q : Nat) :
    ∃ v : Visit, v.q = q ∧ visit device.logged (s.withLog log) q = (visit device s q).withLog (log ++ v.accesses) ∧
      (visit device s q).patched = s.patched + v.accepted.toNat ∧
      (visit device s q).failed = s.failed + v.refused.toNat := by
  rcases read : device.read s.card (register q) with ⟨before,card⟩
  have noted := logged_read read log
  cases bound : i40eIsBoundRxQueue before with
  | false =>
    rw [visit_unbound read bound,visit_unbound (s := s.withLog log) noted bound]
    exact ⟨⟨q,before,none,bound.symm⟩,rfl,rfl,rfl,rfl⟩
  | true =>
    rcases again : device.read (device.write card (register q) (wanted before)) (register q) with ⟨after,last⟩
    have notedAgain := logged_read again (log ++ [.read (register q) before] ++ [.write (register q) (wanted before)])
    rw [visit_bound read bound again,visit_bound (s := s.withLog log) noted bound notedAgain]
    refine ⟨⟨q,before,some after,bound.symm⟩,rfl,?_,?_,?_⟩
    · simp [Scan.note,Scan.withLog,Visit.accesses]
    · change (if landed after then s.patched + 1 else s.patched) = s.patched + (landed after).toNat
      cases landed after <;> rfl
    · change (if landed after then s.failed else s.failed + 1) = s.failed + (!landed after).toNat
      cases landed after <;> rfl

private theorem foldl_visit (device : Device σ) (queues : List Nat) (s : Scan σ) (log : List Access) :
    ∃ visits : List Visit, visits.map (·.q) = queues ∧
      queues.foldl (visit device.logged) (s.withLog log) =
        (queues.foldl (visit device) s).withLog (log ++ visits.flatMap Visit.accesses) ∧
      (queues.foldl (visit device) s).patched = s.patched + visits.countP Visit.accepted ∧
      (queues.foldl (visit device) s).failed = s.failed + visits.countP Visit.refused := by
  induction queues generalizing s log with
  | nil => exact ⟨[],rfl,by simp,rfl,rfl⟩
  | cons q rest ih =>
    obtain ⟨v,here,visited,patched,failed⟩ := visit_logged device s log q
    obtain ⟨visits,queues,scanned,passed,lost⟩ := ih (visit device s q) (log ++ v.accesses)
    refine ⟨v::visits,?_,?_,?_,?_⟩
    · rw [List.map_cons,here,queues]
    · rw [List.foldl_cons,visited,scanned,List.foldl_cons,List.flatMap_cons,List.append_assoc]
    · rw [List.foldl_cons,passed,patched,List.countP_cons]
      cases v.accepted <;> simp; omega
    · rw [List.foldl_cons,lost,failed,List.countP_cons]
      cases v.refused <;> simp; omega

private theorem dump_logged (device : Device σ) (s : Dump σ) (log : List Access) (q : Nat) :
    ∃ reread : List (BitVec 32), dump device.logged ⟨(s.card,log),s.shown⟩ q =
      ⟨((dump device s q).card,log ++ reread.map (.read (register q))),(dump device s q).shown⟩ := by
  by_cases more : s.shown.length < 6
  · rcases read : device.read s.card (register q) with ⟨v,card⟩
    refine ⟨[v],?_⟩
    simp only [dump,if_pos more,logged_read read log,read]
    split <;> rfl
  · refine ⟨[],?_⟩
    simp only [dump,if_neg more,List.map_nil,List.append_nil]

private theorem foldl_dump (device : Device σ) (queues : List Nat) (s : Dump σ) (log : List Access) :
    ∃ reread : List (Nat × BitVec 32), (∀ entry ∈ reread, entry.1 ∈ queues) ∧
      queues.foldl (dump device.logged) ⟨(s.card,log),s.shown⟩ =
        ⟨((queues.foldl (dump device) s).card,log ++ reread.map (fun entry => .read (register entry.1) entry.2)),
          (queues.foldl (dump device) s).shown⟩ := by
  induction queues generalizing s log with
  | nil => exact ⟨[],nofun,by simp⟩
  | cons q rest ih =>
    obtain ⟨here,dumped⟩ := dump_logged device s log q
    obtain ⟨reread,inside,more⟩ := ih (dump device s q) (log ++ here.map (.read (register q)))
    refine ⟨here.map (fun v => (q,v)) ++ reread,?_,?_⟩
    · intro entry member
      rcases List.mem_append.mp member with first | later
      · obtain ⟨_,-,rfl⟩ := List.mem_map.mp first
        exact List.mem_cons_self
      · exact List.mem_cons_of_mem q (inside entry later)
    · rw [List.foldl_cons,dumped,more,List.foldl_cons]
      simp [Function.comp_def]

def Outcome.withLog (o : Outcome σ) (log : List Access) : Outcome (σ × List Access) := ⟨(o.card,log),o.report,o.result⟩

private theorem conclude_result (device : Device σ) (count : Nat) (s : Scan σ) :
    (conclude device count s).result = true ↔ s.failed = 0 ∧ s.patched ≠ 0 := by
  unfold conclude
  split
  · next none => simp [none.1]
  · next found =>
    split
    · next lost => simp [lost]
    · next clean =>
      refine iff_of_true rfl ?_
      omega

theorem conclude_logged (device : Device σ) (count : Nat) (s : Scan σ) (log : List Access) :
    ∃ reread : List (Nat × BitVec 32), (∀ entry ∈ reread, entry.1 < count) ∧
      conclude device.logged count (s.withLog log) = (conclude device count s).withLog
        (log ++ reread.map (fun entry => .read (register entry.1) entry.2)) := by
  unfold conclude
  by_cases none : s.patched = 0 ∧ s.failed = 0
  · obtain ⟨reread,inside,dumped⟩ := foldl_dump device (List.range count) ⟨s.card,[]⟩ log
    refine ⟨reread,fun entry member => List.mem_range.mp (inside entry member),?_⟩
    rw [if_pos none]
    refine (if_pos none).trans ?_
    dsimp only [Scan.withLog]
    rw [dumped]
    rfl
  · refine ⟨[],nofun,?_⟩
    rw [if_neg none]
    refine (if_neg none).trans ?_
    by_cases lost : s.failed ≠ 0
    · rw [if_pos lost]
      refine (if_pos lost).trans ?_
      simp [Scan.withLog,Outcome.withLog]
    · rw [if_neg lost]
      refine (if_neg lost).trans ?_
      simp [Scan.withLog,Outcome.withLog]

private theorem register_injective {first second : Nat} (same : register first = register second) : first = second := by
  unfold register at same
  omega

/-- What a log of distinct queues says of one register is what its own visit says. -/
theorem filterMap_visits {β : Type} {look : Access → Option β} {q : Nat}
    (elsewhere : ∀ access : Access, access.offset ≠ register q → look access = none) {visits : List Visit}
    (distinct : (visits.map (·.q)).Nodup) {v : Visit} (member : v ∈ visits) (here : v.q = q) :
    (visits.flatMap Visit.accesses).filterMap look = v.accesses.filterMap look := by
  have silent {other : Visit} (apart : other.q ≠ q) : other.accesses.filterMap look = [] := by
    rw [List.filterMap_eq_nil_iff]
    intro access listed
    apply elsewhere
    rw [Visit.accesses_offset listed]
    exact fun same => apart (register_injective same)
  induction visits with
  | nil => cases member
  | cons first rest ih =>
    rw [List.map_cons,List.nodup_cons] at distinct
    rw [List.flatMap_cons,List.filterMap_append]
    rcases List.mem_cons.mp member with rfl | later
    · have others : (rest.flatMap Visit.accesses).filterMap look = [] := by
        rw [List.filterMap_flatMap,List.flatMap_eq_nil_iff]
        intro other listed
        apply silent
        rintro rfl
        exact distinct.1 (here ▸ List.mem_map_of_mem listed)
      rw [others,List.append_nil]
    · have apart : first.q ≠ q := by
        intro same
        rw [same,← here] at distinct
        exact distinct.1 (List.mem_map_of_mem later)
      rw [silent apart,List.nil_append]
      exact ih distinct.2 later

/-- Every write comes right after a read of the same register that found a bound queue,
and has that value patched. -/
def Preceded (log : List Access) : Prop :=
  ∀ past offset value rest, log = past ++ .write offset value :: rest →
    ∃ seen, past.getLast? = some (.read offset seen) ∧ i40eIsBoundRxQueue seen = true ∧ value = wanted seen

theorem Preceded.append {first second : List Access} (before : Preceded first) (after : Preceded second) :
    Preceded (first ++ second) := by
  intro past offset value rest same
  rw [List.append_eq_append_iff] at same
  rcases same with ⟨middle,rfl,tail⟩ | ⟨middle,rfl,tail⟩
  · obtain ⟨seen,last,bound,patched⟩ := after middle offset value rest tail
    exact ⟨seen,by rw [List.getLast?_append,last]; rfl,bound,patched⟩
  · cases middle with
    | nil =>
      obtain ⟨seen,last,-⟩ := after [] offset value rest tail.symm
      cases last
    | cons head tail' =>
      cases tail
      exact before past offset value tail' rfl

theorem preceded_reads {reads : List Access} (noWrite : ∀ offset value, .write offset value ∉ reads) : Preceded reads := by
  intro past offset value rest same
  exact absurd (same ▸ List.mem_append_right past (List.mem_cons_self ..)) (noWrite offset value)

theorem Visit.preceded (v : Visit) : Preceded v.accesses := by
  obtain ⟨q,before,after,sound⟩ := v
  cases after with
  | none => exact preceded_reads (by simp [Visit.accesses])
  | some after =>
    intro past offset value rest same
    match past with
    | [] => cases same
    | [first] =>
      cases same
      exact ⟨before,rfl,sound.symm,rfl⟩
    | _ :: _ :: past =>
      simp only [Visit.accesses,Option.toList_some,List.flatMap_cons,List.flatMap_nil,List.append_nil,List.cons_append,
        List.cons.injEq] at same
      cases past <;> simp at same

private theorem preceded_visits (visits : List Visit) : Preceded (visits.flatMap Visit.accesses) := by
  induction visits with
  | nil => exact preceded_reads (by simp)
  | cons v rest ih =>
    rw [List.flatMap_cons]
    exact v.preceded.append ih

def BoundAt (log : List Access) (q : Nat) : Prop :=
  ∃ before, (answers log (register q)).head? = some before ∧ i40eIsBoundRxQueue before = true

/-- The second read of the queue's register, after the write, found no ITR. -/
def TookIt (log : List Access) (q : Nat) : Prop := ∃ after, (answers log (register q))[1]? = some after ∧ itrIndx after = 3

/-- Every access lies inside BAR0. A write follows a read of the same register that found a
bound queue, and changes ITR_INDX at most; every queue of the scan is written once if it was
bound, and not at all otherwise. The result is true exactly if there was a bound queue in
the scan and every one of them read back no ITR. -/
structure Careful (bar0Size count : Nat) (log : List Access) (result : Bool) : Prop where
  inside : ∀ access ∈ log, (∃ q < count, access.offset = register q) ∧ access.offset + 4 ≤ bar0Size
  writes : ∀ past offset value rest, log = past ++ .write offset value :: rest →
    ∃ seen, past.getLast? = some (.read offset seen) ∧ i40eIsBoundRxQueue seen = true ∧
      ∀ i, i ≠ 11 → i ≠ 12 → value.getLsbD i = seen.getLsbD i
  patches : ∀ q < count, ∀ before, (answers log (register q)).head? = some before →
    written log (register q) = if i40eIsBoundRxQueue before then [wanted before] else []
  verdict : result = true ↔ (∃ q < count, BoundAt log q) ∧ ∀ q < count, BoundAt log q → TookIt log q

theorem careful_untouched (bar0Size count : Nat) : Careful bar0Size count [] false := by
  refine ⟨nofun,fun past offset value rest same => ?_,(fun _ _ _ first => nomatch first),?_⟩
  · cases past <;> cases same
  · constructor
    · exact nofun
    · rintro ⟨⟨q,-,before,first,-⟩,-⟩
      cases first

section Whole

variable {visits : List Visit} {reread : List (Nat × BitVec 32)} {count : Nat}

def whole (visits : List Visit) (reread : List (Nat × BitVec 32)) : List Access :=
  visits.flatMap Visit.accesses ++ reread.map (fun entry => .read (register entry.1) entry.2)

private theorem whole_registers (queues : visits.map (·.q) = List.range count) (again : ∀ entry ∈ reread, entry.1 < count)
    {access : Access} (member : access ∈ whole visits reread) : ∃ q < count, access.offset = register q := by
  rcases List.mem_append.mp member with visit | dumped
  · obtain ⟨v,listed,here⟩ := List.mem_flatMap.mp visit
    have queue : v.q ∈ visits.map (·.q) := List.mem_map_of_mem listed
    rw [queues] at queue
    exact ⟨v.q,List.mem_range.mp queue,Visit.accesses_offset here⟩
  · obtain ⟨entry,listed,rfl⟩ := List.mem_map.mp dumped
    exact ⟨entry.1,again entry listed,rfl⟩

private theorem preceded_whole (visits : List Visit) (reread : List (Nat × BitVec 32)) : Preceded (whole visits reread) :=
  (preceded_visits visits).append (preceded_reads (by simp))

variable (queues : visits.map (·.q) = List.range count)
include queues

variable (reread) in
theorem answers_whole {v : Visit} (member : v ∈ visits) :
    ∃ more, answers (whole visits reread) (register v.q) = v.before :: (v.after.toList ++ more) := by
  have distinct : (visits.map (·.q)).Nodup := queues ▸ List.nodup_range
  have elsewhere : ∀ access : Access, access.offset ≠ register v.q → (match access with
      | .read place answer => if place = register v.q then some answer else none
      | .write .. => none : Option (BitVec 32)) = none := by
    intro access apart
    cases access with
    | read place answer => exact if_neg apart
    | write place value => rfl
  have here := v.answers_eq
  unfold answers at here
  refine ⟨answers (reread.map (fun entry => .read (register entry.1) entry.2)) (register v.q),?_⟩
  rw [answers,whole,List.filterMap_append,filterMap_visits elsewhere distinct member rfl,here]
  rfl

private theorem written_whole {v : Visit} (member : v ∈ visits) :
    written (whole visits reread) (register v.q) = if i40eIsBoundRxQueue v.before then [wanted v.before] else [] := by
  have distinct : (visits.map (·.q)).Nodup := queues ▸ List.nodup_range
  have elsewhere : ∀ access : Access, access.offset ≠ register v.q → (match access with
      | .read .. => none
      | .write place value => if place = register v.q then some value else none : Option (BitVec 32)) = none := by
    intro access apart
    cases access with
    | read place answer => rfl
    | write place value => exact if_neg apart
  have here := v.written_eq
  unfold written at here
  have dumped : written (reread.map (fun entry => .read (register entry.1) entry.2)) (register v.q) = [] := by
    simp [written]
  unfold written at dumped
  rw [written,whole,List.filterMap_append,filterMap_visits elsewhere distinct member rfl,here,dumped,List.append_nil]

theorem boundAt_whole {v : Visit} (member : v ∈ visits) :
    BoundAt (whole visits reread) v.q ↔ i40eIsBoundRxQueue v.before = true := by
  obtain ⟨more,seen⟩ := answers_whole reread queues member
  unfold BoundAt
  rw [seen,List.head?_cons]
  constructor
  · rintro ⟨before,first,bound⟩
    cases Option.some.inj first
    exact bound
  · intro bound
    exact ⟨v.before,rfl,bound⟩

theorem tookIt_whole {v : Visit} (member : v ∈ visits) (bound : i40eIsBoundRxQueue v.before = true) :
    TookIt (whole visits reread) v.q ↔ v.accepted = true := by
  obtain ⟨more,seen⟩ := answers_whole reread queues member
  obtain ⟨after,found⟩ := Option.isSome_iff_exists.mp (v.sound.trans bound)
  unfold TookIt Visit.accepted
  rw [seen,found]
  simp [landed_iff]

theorem visit_of_lt {q : Nat} (inside : q < count) : ∃ v ∈ visits, v.q = q := by
  have listed : q ∈ visits.map (·.q) := queues ▸ List.mem_range.mpr inside
  exact List.mem_map.mp listed

private theorem verdict_whole : (visits.countP Visit.refused = 0 ∧ visits.countP Visit.accepted ≠ 0) ↔
    (∃ q < count, BoundAt (whole visits reread) q) ∧
      ∀ q < count, BoundAt (whole visits reread) q → TookIt (whole visits reread) q := by
  rw [List.countP_eq_zero,Nat.ne_zero_iff_zero_lt,List.countP_pos_iff]
  constructor
  · rintro ⟨clean,v,member,accepted⟩
    have inside : v.q < count := List.mem_range.mp (queues ▸ List.mem_map_of_mem member)
    refine ⟨⟨v.q,inside,(boundAt_whole queues member).mpr (Visit.bound_of_accepted accepted)⟩,fun q within bound => ?_⟩
    obtain ⟨u,listed,rfl⟩ := visit_of_lt queues within
    have bound := (boundAt_whole queues listed).mp bound
    rw [tookIt_whole queues listed bound]
    simpa [Visit.refused_eq,bound] using clean u listed
  · rintro ⟨⟨q,within,bound⟩,all⟩
    obtain ⟨v,member,rfl⟩ := visit_of_lt queues within
    refine ⟨fun u listed refused => ?_,v,member,?_⟩
    · rw [Visit.refused_eq,Bool.and_eq_true,Bool.not_eq_true'] at refused
      have inside : u.q < count := List.mem_range.mp (queues ▸ List.mem_map_of_mem listed)
      have took := all u.q inside ((boundAt_whole queues listed).mpr refused.1)
      rw [tookIt_whole queues listed refused.1,refused.2] at took
      cases took
    · have took := all v.q within bound
      rwa [tookIt_whole queues member ((boundAt_whole queues member).mp bound)] at took

private theorem careful_whole {bar0Size : Nat} (clamped : clamp bar0Size = some count)
    (again : ∀ entry ∈ reread, entry.1 < count) {result : Bool}
    (decided : result = true ↔ visits.countP Visit.refused = 0 ∧ visits.countP Visit.accepted ≠ 0) :
    Careful bar0Size count (whole visits reread) result := by
  refine ⟨fun access member => ?_,fun past offset value rest same => ?_,fun q within before first => ?_,
    decided.trans (verdict_whole queues)⟩
  · obtain ⟨q,within,place⟩ := whole_registers queues again member
    exact ⟨⟨q,within,place⟩,place ▸ register_inside clamped within⟩
  · obtain ⟨seen,last,bound,rfl⟩ := preceded_whole visits reread past offset value rest same
    exact ⟨seen,last,bound,fun i low high => wanted_bit seen low high⟩
  · obtain ⟨v,member,rfl⟩ := visit_of_lt queues within
    obtain ⟨more,seen⟩ := answers_whole reread queues member
    rw [seen] at first
    cases Option.some.inj first
    exact written_whole queues member

end Whole

def scanned (bar0Size : Nat) : Nat := min 1536 ((bar0Size - 0x3A000) / 4)

/-- For every card, every size of BAR0 and every answer to a read: the run on the device that
logs is the run on the device itself, with a log that shows it to be careful, and that
has every entry of the clamped scan in it. -/
theorem i40eSetNoItr_careful (device : Device σ) (card : σ) (bdf : String) (bar0Size : Nat) (opened : Bool) :
    ∃ log, i40eSetNoItr device.logged (card,[]) bdf bar0Size opened =
        (i40eSetNoItr device card bdf bar0Size opened).withLog log ∧
      Careful bar0Size (scanned bar0Size) log (i40eSetNoItr device card bdf bar0Size opened).result ∧
      (bdf.isEmpty = false → bar0Size ≠ 0 → opened = true →
        ∀ q < scanned bar0Size, answers log (register q) ≠ []) := by
  unfold i40eSetNoItr
  split
  · next empty => exact ⟨[],rfl,careful_untouched _ _,fun named => absurd empty (by rw [named]; decide)⟩
  · split
    · next closed => exact ⟨[],rfl,careful_untouched _ _,fun _ mapped opens => by simp [mapped,opens] at closed⟩
    · unfold scanned
      rw [← clamp_getD]
      cases clamped : clamp bar0Size with
      | none => exact ⟨[],rfl,careful_untouched _ _,fun _ _ _ q none => absurd none (Nat.not_lt_zero q)⟩
      | some count =>
        obtain ⟨visits,queues,logged,patched,failed⟩ := foldl_visit device (List.range count) ⟨card,0,0,0,0,0⟩ []
        change scan device.logged (card,[]) count = (scan device card count).withLog _ at logged
        change (scan device card count).patched = _ at patched
        change (scan device card count).failed = _ at failed
        rw [Nat.zero_add] at patched failed
        obtain ⟨reread,again,concluded⟩ := conclude_logged device
            count (scan device card count) (visits.flatMap Visit.accesses)
        dsimp only
        rw [logged,List.nil_append,concluded,Option.getD_some]
        refine ⟨whole visits reread,rfl,careful_whole queues clamped again ?_,fun _ _ _ q within => ?_⟩
        · rw [conclude_result,failed,patched]
        · obtain ⟨v,member,rfl⟩ := visit_of_lt queues within
          obtain ⟨more,seen⟩ := answers_whole reread queues member
          rw [seen]
          exact List.cons_ne_nil _ _

def labCard : Device (BitVec 32) where
  read state offset := if offset = register 1 then (state,state) else (I40E_REG_UNIMPL,state)
  write state offset value := if offset = register 1 then value else state

theorem i40eSetNoItr_careful_lab :
    ∃ log, i40eSetNoItr labCard.logged (0x48000001,[]) "0000:3b:00.0" 0x3A008 true =
        ⟨(0x48001801,log),.applied 1 1 0x48000001 0x48001801,true⟩ ∧
      log = [.read (register 0) I40E_REG_UNIMPL,.read (register 1) 0x48000001,.write (register 1) 0x48001801,
        .read (register 1) 0x48001801] ∧
      Careful 0x3A008 2 log true ∧ ∀ q < 2, answers log (register q) ≠ [] := by
  obtain ⟨log,ran,careful,read⟩ := i40eSetNoItr_careful labCard 0x48000001 "0000:3b:00.0" 0x3A008 true
  have same := congrArg (fun outcome => outcome.card.2) ran
  exact ⟨log,ran,same.symm,careful,read (by decide) (by decide) rfl⟩

end Abtrda3.I40eItr
