import Abtrda3.Semantics.ByteMemory
import Abtrda3.Semantics.Machine
import Abtrda3.Semantics.StatusRing

/-! The two PACKET_MMAP rings, each shared with a kernel that goes round on a cursor of its
own. A frame fills a whole block, and who may touch a slot is read from its status word
alone. Addresses are offsets from the start of the mapping. -/
namespace Abtrda3.PacketMmap
open Abtrda3.Semantics Abtrda3.Semantics.Machine

structure RingConfig where
  blockSize : BitVec 32
  blockNumber : BitVec 32
  sizePositive : 0 < blockSize.toNat
  numberPositive : 0 < blockNumber.toNat

structure TpacketReq where
  blockSize : BitVec 32
  frameSize : BitVec 32
  blockNr : BitVec 32
  frameNr : BitVec 32
  deriving DecidableEq, Repr

structure Slot where
  tpStatus : BitVec 32
  tpLen : BitVec 32
  tpSnaplen : BitVec 32
  tpMac : BitVec 16
  -- The slot from its header on.
  bytes : ByteMemory

abbrev Ring := Nat → Slot

def tpStatusAvailable : BitVec 32 := 0

def tpStatusSendRequest : BitVec 32 := 1

def tpStatusSending : BitVec 32 := 2

def tpStatusKernel : BitVec 32 := 0

def tpStatusUser : BitVec 32 := 1

/-- This is `TPACKET_ALIGN(sizeof(tpacket2_hdr))`. -/
def kDataOffset : Nat := 32

def request (p : RingConfig) : TpacketReq := ⟨p.blockSize,p.blockSize,p.blockNumber,p.blockNumber⟩

def ringSize (p : RingConfig) : Nat := p.blockSize.toNat * p.blockNumber.toNat

/-- Where the kernel looks for a frame of the ring it was asked for. -/
def lookupFrame (req : TpacketReq) (position : Nat) : Nat :=
  let framesPerBlock := req.blockSize.toNat / req.frameSize.toNat
  position / framesPerBlock * req.blockSize.toNat + position % framesPerBlock * req.frameSize.toNat

def incrementHead (req : TpacketReq) (head : Nat) : Nat := StatusRing.follow req.frameNr.toNat head

def advance (p : RingConfig) (slot : Nat) : Nat :=
  let next := slot + p.blockSize.toNat
  if ringSize p ≤ next then 0 else next

def blank : Slot := ⟨0,0,0,0,fun _ => 0⟩

def slotAt (p : RingConfig) (position : Nat) : Nat := position * p.blockSize.toNat

theorem lookupFrame_eq (p : RingConfig) (position : Nat) : lookupFrame (request p) position = slotAt p position := by
  simp only [lookupFrame,request,Nat.div_self p.sizePositive,Nat.div_one,Nat.mod_one,Nat.zero_mul,Nat.add_zero,slotAt]

private theorem incrementHead_eq (p : RingConfig) (count : Nat) :
    incrementHead (request p) (count % p.blockNumber.toNat) = (count + 1) % p.blockNumber.toNat :=
  StatusRing.follow_mod p.numberPositive count

theorem advance_eq (p : RingConfig) (count : Nat) :
    advance p (slotAt p (count % p.blockNumber.toNat)) = slotAt p ((count + 1) % p.blockNumber.toNat) := by
  have below := Nat.mod_lt count p.numberPositive
  have size := p.sizePositive
  have next : slotAt p (count % p.blockNumber.toNat) + p.blockSize.toNat = slotAt p (count % p.blockNumber.toNat + 1) := by
    rw [slotAt,slotAt,Nat.add_mul,Nat.one_mul]
  have ends : ringSize p ≤ slotAt p (count % p.blockNumber.toNat + 1) ↔
      p.blockNumber.toNat ≤ count % p.blockNumber.toNat + 1 := by
    rw [ringSize,slotAt,Nat.mul_comm]
    exact Nat.mul_le_mul_right_iff size
  rw [← StatusRing.follow_mod p.numberPositive count,advance,next,StatusRing.follow]
  split_ifs with past last last
  · rw [slotAt,Nat.zero_mul]
  · exact absurd (ends.mp past) (by omega)
  · exact absurd (ends.mpr (by omega)) past
  · rfl

theorem slotAt_inj (p : RingConfig) {first second : Nat} (same : slotAt p first = slotAt p second) : first = second :=
  Nat.eq_of_mul_eq_mul_right p.sizePositive same

private theorem view_update {α : Type} (p : RingConfig) (look : Slot → Option α) (ring : Ring) (position : Nat)
    (slot : Slot) :
    (fun k => look (Function.update ring (slotAt p position) slot (slotAt p k))) =
      Function.update (fun k => look (ring (slotAt p k))) position (look slot) := by
  funext k
  rcases eq_or_ne k position with rfl | apart
  · rw [Function.update_self,Function.update_self]
  · have elsewhere : slotAt p k ≠ slotAt p position := fun same => apart (slotAt_inj p same)
    rw [Function.update_of_ne elsewhere,Function.update_of_ne apart]

namespace Tx

inductive Pc
  | idle
  | granted
  -- Inside `commit`, after the status store.
  | sending
  deriving DecidableEq, Repr

inductive SendResult
  | sent
  | again
  | busy
  | failed
  deriving DecidableEq, Repr

structure State where
  ring : Ring
  nextSlot : Nat
  pc : Pc
  -- The kernel's cursor, as a frame number.
  head : Nat
  committed : List (List (BitVec 8))
  transmitted : List (List (BitVec 8))

inductive Event
  | prefillRing (frameTemplate : List (BitVec 8))
  | acquire (frameLen : BitVec 32)
  | write (offset : Nat) (bytes : List (BitVec 8))
  | commit
  | sendReturned (result : SendResult)
  | transmit
  | complete (position : Nat)
  deriving DecidableEq, Repr

def start : State := ⟨fun _ => blank,0,.idle,0,[],[]⟩

def frame (slot : Slot) : List (BitVec 8) := slot.bytes.read kDataOffset slot.tpLen.toNat

def stamp (frameTemplate : List (BitVec 8)) (slot : Slot) : Slot :=
  if slot.tpStatus = tpStatusAvailable then {slot with bytes := slot.bytes.write kDataOffset frameTemplate} else slot

def prefillRing (p : RingConfig) (ring : Ring) (frameTemplate : List (BitVec 8)) : Ring :=
  (List.range p.blockNumber.toNat).foldl
    (fun ring position => Function.update ring (slotAt p position) (stamp frameTemplate (ring (slotAt p position)))) ring

def acquire (s : State) (frameLen : BitVec 32) : State × Option Nat :=
  let hdr := s.ring s.nextSlot
  if hdr.tpStatus ≠ tpStatusAvailable then (s,none)
  else
    ({s with ring := Function.update s.ring s.nextSlot {hdr with tpLen := frameLen, tpSnaplen := frameLen}},
     some (s.nextSlot + kDataOffset))

def write (s : State) (offset : Nat) (bytes : List (BitVec 8)) : State :=
  let hdr := s.ring s.nextSlot
  {s with ring := Function.update s.ring s.nextSlot {hdr with bytes := hdr.bytes.write (kDataOffset + offset) bytes}}

def commit (s : State) : State :=
  let hdr := s.ring s.nextSlot
  {s with ring := Function.update s.ring s.nextSlot {hdr with tpStatus := tpStatusSendRequest}, pc := .sending,
          committed := s.committed ++ [frame hdr]}

def sendReturned (p : RingConfig) (s : State) : SendResult → State
  | .again => s
  | .busy => s
  | .sent => {s with nextSlot := advance p s.nextSlot, pc := .idle}
  | .failed => {s with nextSlot := advance p s.nextSlot, pc := .idle}

def transmit (p : RingConfig) (s : State) : Option State :=
  let place := lookupFrame (request p) s.head
  let hdr := s.ring place
  if hdr.tpStatus = tpStatusSendRequest then
    some {s with ring := Function.update s.ring place {hdr with tpStatus := tpStatusSending},
                 head := incrementHead (request p) s.head, transmitted := s.transmitted ++ [frame hdr]}
  else none

def complete (p : RingConfig) (s : State) (position : Nat) : Option State :=
  let place := lookupFrame (request p) position
  let hdr := s.ring place
  if position < p.blockNumber.toNat ∧ hdr.tpStatus = tpStatusSending then
    some {s with ring := Function.update s.ring place {hdr with tpStatus := tpStatusAvailable}}
  else none

def fits (p : RingConfig) (length : Nat) : Prop := kDataOffset + length ≤ p.blockSize.toNat

instance (p : RingConfig) (length : Nat) : Decidable (fits p length) := inferInstanceAs (Decidable (_ ≤ _))

def step (p : RingConfig) (s : State) : Event → Option State
  | .prefillRing frameTemplate =>
    if s.pc ≠ .sending ∧ fits p frameTemplate.length then some {s with ring := prefillRing p s.ring frameTemplate} else none
  | .acquire frameLen =>
    if s.pc ≠ .sending ∧ fits p frameLen.toNat then
      let (next,pointer) := acquire s frameLen
      some {next with pc := if pointer.isSome then .granted else .idle}
    else none
  | .write offset bytes =>
    if s.pc = .granted ∧ offset + bytes.length ≤ (s.ring s.nextSlot).tpLen.toNat then some (write s offset bytes) else none
  | .commit => if s.pc = .granted then some (commit s) else none
  | .sendReturned result => if s.pc = .sending then some (sendReturned p s result) else none
  | .transmit => transmit p s
  | .complete position => complete p s position

inductive Action (p : RingConfig) (s : State) : Event → State → Prop
  | prefilled (frameTemplate : List (BitVec 8)) :
      Action p s (.prefillRing frameTemplate) {s with ring := prefillRing p s.ring frameTemplate}
  | refused (frameLen : BitVec 32) (calm : s.pc ≠ .sending) (taken : (s.ring s.nextSlot).tpStatus ≠ tpStatusAvailable) :
      Action p s (.acquire frameLen) {s with pc := .idle}
  | granted (frameLen : BitVec 32) (calm : s.pc ≠ .sending) (free : (s.ring s.nextSlot).tpStatus = tpStatusAvailable) :
      Action p s (.acquire frameLen) {s with
        ring := Function.update s.ring s.nextSlot {s.ring s.nextSlot with tpLen := frameLen, tpSnaplen := frameLen},
        pc := .granted}
  | written (offset : Nat) (bytes : List (BitVec 8)) (held : s.pc = .granted) :
      Action p s (.write offset bytes) (write s offset bytes)
  | committed (held : s.pc = .granted) : Action p s .commit (commit s)
  | retried (result : SendResult) : Action p s (.sendReturned result) s
  | advanced (result : SendResult) (calling : s.pc = .sending) :
      Action p s (.sendReturned result) {s with nextSlot := advance p s.nextSlot, pc := .idle}
  | transmitted (requested : (s.ring (slotAt p s.head)).tpStatus = tpStatusSendRequest) :
      Action p s .transmit {s with
        ring := Function.update s.ring (slotAt p s.head) {s.ring (slotAt p s.head) with tpStatus := tpStatusSending},
        head := incrementHead (request p) s.head, transmitted := s.transmitted ++ [frame (s.ring (slotAt p s.head))]}
  | completed (position : Nat) (underway : (s.ring (slotAt p position)).tpStatus = tpStatusSending) :
      Action p s (.complete position) {s with
        ring := Function.update s.ring (slotAt p position) {s.ring (slotAt p position) with tpStatus := tpStatusAvailable}}

theorem step_action {p : RingConfig} {s t : State} {event : Event} (moved : step p s event = some t) :
    Action p s event t := by
  cases event <;> simp only [step,transmit,complete,lookupFrame_eq,Option.ite_none_right_eq_some] at moved <;>
    obtain ⟨guard,rfl⟩ := moved.imp_right Option.some.inj
  case prefillRing frameTemplate => exact .prefilled frameTemplate
  case acquire frameLen =>
    by_cases free : (s.ring s.nextSlot).tpStatus = tpStatusAvailable
    · rw [acquire,if_neg (not_not_intro free)]
      exact .granted frameLen guard.1 free
    · rw [acquire,if_pos free]
      exact .refused frameLen guard.1 free
  case write offset bytes => exact .written offset bytes guard.1
  case commit => exact .committed guard
  case sendReturned result =>
    cases result
    case again => exact .retried .again
    case busy => exact .retried .busy
    case sent => exact .advanced .sent guard
    case failed => exact .advanced .failed guard
  case transmit => exact .transmitted guard
  case complete position => exact .completed position guard.2

def requested (slot : Slot) : Option (List (BitVec 8)) :=
  if slot.tpStatus = tpStatusSendRequest then some (frame slot) else none

def requests (p : RingConfig) (ring : Ring) (position : Nat) :
    Option (List (BitVec 8)) := requested (ring (slotAt p position))

theorem requested_available {slot : Slot} (free : slot.tpStatus = tpStatusAvailable) : requested slot = none := by
  rw [requested,free]
  rfl

private theorem requested_sending {slot : Slot} (underway : slot.tpStatus = tpStatusSending) : requested slot = none := by
  rw [requested,underway]
  rfl

theorem requests_update (p : RingConfig) (ring : Ring) (position : Nat) (slot : Slot) :
    requests p (Function.update ring (slotAt p position) slot) =
      Function.update (requests p ring) position (requested slot) := view_update p requested ring position slot

private theorem requests_kept (p : RingConfig) {ring : Ring} {position : Nat} {slot : Slot}
    (same : requested slot = requested (ring (slotAt p position))) :
    requests p (Function.update ring (slotAt p position) slot) = requests p ring := by
  rw [requests_update,same]
  exact Function.update_eq_self position (requests p ring)

theorem prefillRing_slotAt (p : RingConfig) (ring : Ring) (frameTemplate : List (BitVec 8)) (position : Nat) :
    prefillRing p ring frameTemplate (slotAt p position) =
      if position < p.blockNumber.toNat then stamp frameTemplate (ring (slotAt p position)) else
        ring (slotAt p position) := by
  unfold prefillRing
  induction p.blockNumber.toNat with
  | zero => rfl
  | succ count ih =>
    rw [List.range_succ,List.foldl_append,List.foldl_cons,List.foldl_nil]
    rcases eq_or_ne position count with rfl | apart
    · rw [Function.update_self,ih,if_neg (Nat.lt_irrefl _),if_pos (Nat.lt_succ_self _)]
    · rw [Function.update_of_ne (fun same => apart (slotAt_inj p same)),ih]
      by_cases before : position < count
      · rw [if_pos before,if_pos (Nat.lt_succ_of_lt before)]
      · rw [if_neg before,if_neg (by omega)]

/-- A stamped ring differs only in the data of slots that were free. -/
theorem prefillRing_cases (p : RingConfig) (ring : Ring) (frameTemplate : List (BitVec 8)) (place : Nat) :
    prefillRing p ring frameTemplate place = ring place ∨
      ((ring place).tpStatus = tpStatusAvailable ∧
        (prefillRing p ring frameTemplate place).tpStatus = tpStatusAvailable) := by
  by_cases slot : ∃ position, place = slotAt p position
  · obtain ⟨position,rfl⟩ := slot
    rw [prefillRing_slotAt]
    split
    · rw [stamp]
      split
      · next free => exact .inr ⟨free,free⟩
      · exact .inl rfl
    · exact .inl rfl
  · left
    unfold prefillRing
    induction p.blockNumber.toNat with
    | zero => rfl
    | succ count ih =>
      rw [List.range_succ,List.foldl_append,List.foldl_cons,List.foldl_nil,
        Function.update_of_ne (fun same => slot ⟨count,same⟩),ih]

private theorem requests_prefillRing (p : RingConfig) (ring : Ring) (frameTemplate : List (BitVec 8)) :
    requests p (prefillRing p ring frameTemplate) = requests p ring := by
  funext position
  rcases prefillRing_cases p ring frameTemplate (slotAt p position) with same | ⟨before,after⟩
  · rw [requests,requests,same]
  · rw [requests,requests,requested_available before,requested_available after]

def inCall : Pc → Nat
  | .sending => 1
  | _ => 0

/-- User and kernel in lockstep: the slots from the kernel's cursor to the user's hold what
was committed and not transmitted. -/
structure Inv (p : RingConfig) (s : State) (returned : Nat) (unsent : List (List (BitVec 8))) : Prop where
  calls : s.committed.length = returned + inCall s.pc
  user : s.nextSlot = slotAt p (returned % p.blockNumber.toNat)
  kernel : s.head = s.transmitted.length % p.blockNumber.toNat
  logs : s.committed = s.transmitted ++ unsent
  pending : StatusRing.Pending p.blockNumber.toNat (requests p s.ring) s.transmitted.length unsent
  free : s.pc = .granted → (s.ring s.nextSlot).tpStatus = tpStatusAvailable

def Untouched (s : State) (event : Event) (t : State) : Prop :=
  ∀ place, (s.ring place).tpStatus ≠ tpStatusAvailable →
    match event with
    | .transmit => t.ring place = {s.ring place with tpStatus := (t.ring place).tpStatus}
    | .complete _ => t.ring place = {s.ring place with tpStatus := (t.ring place).tpStatus}
    | _ => t.ring place = s.ring place

section Steps

variable {p : RingConfig} {s t : State} {returned : Nat} {unsent : List (List (BitVec 8))}

theorem start_inv (p : RingConfig) : Inv p start 0 [] := by
  have zero : slotAt p (0 % p.blockNumber.toNat) = 0 := by rw [Nat.zero_mod,slotAt,Nat.zero_mul]
  exact ⟨rfl,zero.symm,(Nat.zero_mod _).symm,rfl,.empty (fun _ _ => rfl),nofun⟩

theorem inCall_calm {pc : Pc} (calm : pc ≠ .sending) : inCall pc = 0 := by
  cases pc
  case sending => exact absurd rfl calm
  all_goals rfl

theorem Inv.edited (inv : Inv p s returned unsent) (calm : s.pc ≠ .sending) {slot : Slot} {pc : Pc}
    (before : (s.ring s.nextSlot).tpStatus = tpStatusAvailable) (after : slot.tpStatus = tpStatusAvailable)
    (still : pc ≠ .sending) :
    Inv p {s with ring := Function.update s.ring s.nextSlot slot, pc := pc} returned unsent := by
  obtain ⟨calls,user,kernel,logs,pending,_⟩ := inv
  refine ⟨?_,user,kernel,logs,?_,?_⟩
  · rw [inCall_calm calm] at calls
    rw [inCall_calm still]
    exact calls
  · rw [user] at before ⊢
    rw [requests_kept p ((requested_available after).trans (requested_available before).symm)]
    exact pending
  · intro _
    dsimp only
    rw [Function.update_self]
    exact after

private theorem commit_inv (inv : Inv p s returned unsent) (held : s.pc = .granted) :
    Inv p (commit s) returned (unsent ++ [frame (s.ring s.nextSlot)]) := by
  obtain ⟨calls,user,kernel,logs,pending,free⟩ := inv
  have available := free held
  have count : s.transmitted.length + unsent.length = returned := by
    rw [held,logs,List.length_append] at calls
    exact calls
  rw [user] at available
  have empty : requests p s.ring ((s.transmitted.length + unsent.length) % p.blockNumber.toNat) = none := by
    rw [count]
    exact requested_available available
  refine ⟨?_,user,kernel,?_,?_,nofun⟩
  · rw [held] at calls
    rw [commit,List.length_append,calls]
    rfl
  · rw [commit,logs,List.append_assoc]
  · have added := pending.put p.numberPositive empty (frame (s.ring s.nextSlot))
    rw [count] at added
    rw [commit,user,requests_update]
    rw [user] at added
    exact added

private theorem transmitted_inv (inv : Inv p s returned unsent)
    (asked : (s.ring (slotAt p s.head)).tpStatus = tpStatusSendRequest) :
    ∃ rest, Inv p {s with
      ring := Function.update s.ring (slotAt p s.head) {s.ring (slotAt p s.head) with tpStatus := tpStatusSending},
      head := incrementHead (request p) s.head,
      transmitted := s.transmitted ++ [frame (s.ring (slotAt p s.head))]} returned rest := by
  obtain ⟨calls,user,kernel,logs,pending,free⟩ := inv
  have full : requests p s.ring (s.transmitted.length % p.blockNumber.toNat) = some (frame (s.ring (slotAt p s.head))) := by
    rw [← kernel,requests,requested,if_pos asked]
  obtain ⟨rest,rfl,left⟩ := pending.take p.numberPositive full
  refine ⟨rest,calls,user,?_,?_,?_,?_⟩
  · dsimp only
    rw [kernel,incrementHead_eq,List.length_append,List.length_singleton]
  · rw [logs,List.append_assoc]
    rfl
  · dsimp only
    rw [requests_update,requested_sending rfl,List.length_append,List.length_singleton,kernel]
    exact left
  · intro held
    have available := free held
    have apart : s.nextSlot ≠ slotAt p s.head := by
      intro same
      rw [same,asked] at available
      contradiction
    dsimp only
    rw [Function.update_of_ne apart]
    exact available

private theorem completed_inv (inv : Inv p s returned unsent) {position : Nat}
    (underway : (s.ring (slotAt p position)).tpStatus = tpStatusSending) :
    Inv p {s with
      ring := Function.update s.ring (slotAt p position) {s.ring (slotAt p position) with tpStatus := tpStatusAvailable}}
      returned unsent := by
  obtain ⟨calls,user,kernel,logs,pending,free⟩ := inv
  refine ⟨calls,user,kernel,logs,?_,?_⟩
  · dsimp only
    rw [requests_kept p ((requested_available rfl).trans (requested_sending underway).symm)]
    exact pending
  · intro held
    dsimp only
    rcases eq_or_ne s.nextSlot (slotAt p position) with same | apart
    · rw [same,Function.update_self]
    · rw [Function.update_of_ne apart]
      exact free held

private theorem prefilled_inv (inv : Inv p s returned unsent) (frameTemplate : List (BitVec 8)) :
    Inv p {s with ring := prefillRing p s.ring frameTemplate} returned unsent := by
  obtain ⟨calls,user,kernel,logs,pending,free⟩ := inv
  refine ⟨calls,user,kernel,logs,?_,?_⟩
  · dsimp only
    rw [requests_prefillRing]
    exact pending
  · intro held
    rcases prefillRing_cases p s.ring frameTemplate s.nextSlot with same | ⟨_,after⟩
    · dsimp only
      rw [same]
      exact free held
    · exact after

private theorem advanced_inv (inv : Inv p s returned unsent) (calling : s.pc = .sending) :
    Inv p {s with nextSlot := advance p s.nextSlot, pc := .idle} (returned + 1) unsent := by
  obtain ⟨calls,user,kernel,logs,pending,_⟩ := inv
  rw [calling] at calls
  refine ⟨calls,?_,kernel,logs,pending,nofun⟩
  dsimp only
  rw [user,advance_eq]

theorem action_inv (inv : Inv p s returned unsent) {event : Event} (action : Action p s event t) :
    ∃ returned unsent, Inv p t returned unsent := by
  have granted (held : s.pc = .granted) : s.pc ≠ .sending := by
    rw [held]
    nofun
  cases action with
  | prefilled frameTemplate => exact ⟨returned,unsent,prefilled_inv inv frameTemplate⟩
  | refused frameLen calm taken =>
    obtain ⟨calls,user,kernel,logs,pending,_⟩ := inv
    rw [inCall_calm calm] at calls
    exact ⟨returned,unsent,calls,user,kernel,logs,pending,nofun⟩
  | granted frameLen calm free => exact ⟨returned,unsent,inv.edited calm free free nofun⟩
  | written offset bytes held =>
    refine ⟨returned,unsent,?_⟩
    apply inv.edited (granted held) (inv.free held)
    · exact inv.free held
    · exact granted held
  | committed held => exact ⟨returned,_,commit_inv inv held⟩
  | retried result => exact ⟨returned,unsent,inv⟩
  | advanced result calling => exact ⟨returned + 1,unsent,advanced_inv inv calling⟩
  | transmitted asked =>
    obtain ⟨rest,later⟩ := transmitted_inv inv asked
    exact ⟨returned,rest,later⟩
  | completed position underway => exact ⟨returned,unsent,completed_inv inv underway⟩

theorem inv_of_run {events : List Event} (ran : run (step p) start events = some s) :
    ∃ returned unsent, Inv p s returned unsent := by
  apply reachable_invariant (fun s => ∃ returned unsent, Inv p s returned unsent) _ ⟨0,[],start_inv p⟩ ran
  rintro s event t ⟨returned,unsent,inv⟩ moved
  exact action_inv inv (step_action moved)

theorem Inv.untouched (inv : Inv p s returned unsent) {event : Event} (action : Action p s event t) :
    Untouched s event t := by
  intro place owned
  have elsewhere (free : (s.ring s.nextSlot).tpStatus = tpStatusAvailable) (slot : Slot) :
      Function.update s.ring s.nextSlot slot place = s.ring place := by
    apply Function.update_of_ne
    intro same
    rw [same] at owned
    exact owned free
  have status (spot : Nat) (value : BitVec 32) :
      Function.update s.ring spot {s.ring spot with tpStatus := value} place =
        {s.ring place with tpStatus := (Function.update s.ring spot
          {s.ring spot with tpStatus := value} place).tpStatus} := by
    rcases eq_or_ne place spot with rfl | apart
    · rw [Function.update_self]
    · rw [Function.update_of_ne apart]
  cases action with
  | prefilled frameTemplate =>
    rcases prefillRing_cases p s.ring frameTemplate place with same | ⟨free,_⟩
    · exact same
    · exact absurd free owned
  | refused frameLen calm taken => exact rfl
  | granted frameLen calm free => exact elsewhere free _
  | written offset bytes held => exact elsewhere (inv.free held) _
  | committed held => exact elsewhere (inv.free held) _
  | retried result => exact rfl
  | advanced result calling => exact rfl
  | transmitted asked => exact status _ _
  | completed position underway => exact status _ _

end Steps

end Tx

namespace Rx

structure State where
  ring : Ring
  nextFrame : Nat
  -- A frame was returned and not released.
  holding : Bool
  head : Nat
  -- Frames the kernel has a slot for and is still copying.
  filling : Nat → Option (List (BitVec 8))
  stored : List (List (BitVec 8))
  returned : List (List (BitVec 8))

inductive Event
  | tryReceive
  | release
  | reserve (frame : List (BitVec 8))
  | publish (position : Nat) (mac : BitVec 16) (flags : BitVec 32)
  deriving DecidableEq, Repr

def start : State := ⟨fun _ => blank,0,false,0,fun _ => none,[],[]⟩

def span (slot : Slot) : List (BitVec 8) :=
  if slot.tpStatus &&& tpStatusUser = 0 then [] else slot.bytes.read slot.tpMac.toNat slot.tpSnaplen.toNat

def tryReceive (s : State) : List (BitVec 8) := span (s.ring s.nextFrame)

def release (p : RingConfig) (s : State) : State :=
  {s with ring := Function.update s.ring s.nextFrame {s.ring s.nextFrame with tpStatus := tpStatusKernel},
          nextFrame := advance p s.nextFrame, holding := false}

def reserve (p : RingConfig) (s : State) (frame : List (BitVec 8)) : Option State :=
  if frame ≠ [] ∧ (s.ring (lookupFrame (request p) s.head)).tpStatus = tpStatusKernel ∧ s.filling s.head = none then
    some {s with filling := Function.update s.filling s.head (some frame),
                 head := incrementHead (request p) s.head, stored := s.stored ++ [frame]}
  else none

def fill (slot : Slot) (frame : List (BitVec 8)) (mac : BitVec 16) (flags : BitVec 32) : Slot :=
  {slot with tpStatus := flags ||| tpStatusUser, tpLen := BitVec.ofNat 32 frame.length,
             tpSnaplen := BitVec.ofNat 32 frame.length, tpMac := mac, bytes := slot.bytes.write mac.toNat frame}

/-- Slots become the user's in any order: several CPUs may be copying at a time. -/
def publish (p : RingConfig) (s : State) (position : Nat) (mac : BitVec 16) (flags : BitVec 32) : Option State :=
  (s.filling position).bind fun frame =>
    let place := lookupFrame (request p) position
    if position < p.blockNumber.toNat ∧ mac.toNat + frame.length ≤ p.blockSize.toNat then
      some {s with ring := Function.update s.ring place (fill (s.ring place) frame mac flags),
                   filling := Function.update s.filling position none}
    else none

/-- A frame is released once, after it was returned; until then `tryReceive` returns it again.
-/
def step (p : RingConfig) (s : State) : Event → Option State
  | .tryReceive =>
    let frame := tryReceive s
    if frame = [] ∨ s.holding then some s else some {s with holding := true, returned := s.returned ++ [frame]}
  | .release => if s.holding then some (release p s) else none
  | .reserve frame => reserve p s frame
  | .publish position mac flags => publish p s position mac flags

inductive Action (p : RingConfig) (s : State) : Event → State → Prop
  | looked : Action p s .tryReceive s
  | received (ready : tryReceive s ≠ []) (fresh : s.holding = false) :
      Action p s .tryReceive {s with holding := true, returned := s.returned ++ [tryReceive s]}
  | released (held : s.holding = true) : Action p s .release (release p s)
  | reserved (frame : List (BitVec 8)) (some : frame ≠ [])
      (owned : (s.ring (slotAt p s.head)).tpStatus = tpStatusKernel) (unused : s.filling s.head = none) :
      Action p s (.reserve frame) {s with
        filling := Function.update s.filling s.head frame, head := incrementHead (request p) s.head,
        stored := s.stored ++ [frame]}
  | published (position : Nat) (mac : BitVec 16) (flags : BitVec 32) (frame : List (BitVec 8))
      (copied : s.filling position = some frame) (inside : position < p.blockNumber.toNat)
      (room : mac.toNat + frame.length ≤ p.blockSize.toNat) :
      Action p s (.publish position mac flags) {s with
        ring := Function.update s.ring (slotAt p position) (fill (s.ring (slotAt p position)) frame mac flags),
        filling := Function.update s.filling position none}

theorem step_action {p : RingConfig} {s t : State} {event : Event} (moved : step p s event = some t) :
    Action p s event t := by
  cases event with
  | tryReceive =>
    simp only [step] at moved
    split at moved <;> cases Option.some.inj moved
    · exact .looked
    · next fresh =>
      obtain ⟨ready,unheld⟩ := not_or.mp fresh
      exact .received ready (Bool.eq_false_iff.mpr unheld)
  | release =>
    simp only [step,Option.ite_none_right_eq_some] at moved
    obtain ⟨held,same⟩ := moved
    cases Option.some.inj same
    exact .released held
  | reserve frame =>
    simp only [step,reserve,lookupFrame_eq,Option.ite_none_right_eq_some] at moved
    obtain ⟨⟨some,owned,unused⟩,same⟩ := moved
    cases Option.some.inj same
    exact .reserved frame some owned unused
  | publish position mac flags =>
    simp only [step,publish,lookupFrame_eq,Option.bind_eq_some_iff,Option.ite_none_right_eq_some] at moved
    obtain ⟨frame,copied,⟨inside,room⟩,same⟩ := moved
    cases Option.some.inj same
    exact .published position mac flags frame copied inside room

def content (slot : Slot) (filling : Option (List (BitVec 8))) : Option (List (BitVec 8)) :=
  if slot.tpStatus &&& tpStatusUser = 0 then filling else some (span slot)

def contents (p : RingConfig) (ring : Ring) (filling : Nat → Option (List (BitVec 8))) (position : Nat) :
    Option (List (BitVec 8)) := content (ring (slotAt p position)) (filling position)

structure Inv (p : RingConfig) (s : State) (taken unread : List (List (BitVec 8))) : Prop where
  user : s.nextFrame = slotAt p (taken.length % p.blockNumber.toNat)
  kernel : s.head = s.stored.length % p.blockNumber.toNat
  logs : s.stored = taken ++ unread
  returned : s.returned = taken ++ if s.holding then unread.head?.toList else []
  pending : StatusRing.Pending p.blockNumber.toNat (contents p s.ring s.filling) taken.length unread
  held : s.holding = true → (s.ring s.nextFrame).tpStatus &&& tpStatusUser ≠ 0
  apart : ∀ position, s.filling position ≠ none → (s.ring (slotAt p position)).tpStatus = tpStatusKernel

section Steps

variable {p : RingConfig} {s t : State} {taken unread : List (List (BitVec 8))}

theorem user_set (flags : BitVec 32) : (flags ||| tpStatusUser) &&& tpStatusUser ≠ 0 := by
  have absorbed : (flags ||| tpStatusUser) &&& tpStatusUser = tpStatusUser := by
    ext i
    rw [BitVec.getElem_and,BitVec.getElem_or]
    cases flags[i] <;> cases tpStatusUser[i] <;> rfl
  rw [absorbed]
  decide

theorem content_kernel {slot : Slot} (owned : slot.tpStatus = tpStatusKernel) (filling : Option (List (BitVec 8))) :
    content slot filling = filling := by
  rw [content,owned]
  rfl

private theorem span_fill (p : RingConfig) (slot : Slot) {frame : List (BitVec 8)} {mac : BitVec 16} (flags : BitVec 32)
    (room : mac.toNat + frame.length ≤ p.blockSize.toNat) : span (fill slot frame mac flags) = frame := by
  have small : frame.length < 2^32 := by
    have := p.blockSize.isLt
    omega
  rw [span,fill,if_neg (user_set flags),BitVec.toNat_ofNat,Nat.mod_eq_of_lt small,ByteMemory.read_write_same]

theorem contents_update (p : RingConfig) (ring : Ring) (filling : Nat → Option (List (BitVec 8))) (position : Nat)
    (slot : Slot) (frame : Option (List (BitVec 8))) :
    contents p (Function.update ring (slotAt p position) slot) (Function.update filling position frame) =
      Function.update (contents p ring filling) position (content slot frame) := by
  funext k
  rcases eq_or_ne k position with rfl | apart
  · rw [contents,Function.update_self,Function.update_self,Function.update_self]
  · have elsewhere : slotAt p k ≠ slotAt p position := fun same => apart (slotAt_inj p same)
    rw [contents,Function.update_of_ne elsewhere,Function.update_of_ne apart,Function.update_of_ne apart,contents]

theorem start_inv (p : RingConfig) : Inv p start [] [] := by
  have zero : slotAt p (0 % p.blockNumber.toNat) = 0 := by rw [Nat.zero_mod,slotAt,Nat.zero_mul]
  exact ⟨zero.symm,(Nat.zero_mod _).symm,rfl,rfl,.empty (fun _ _ => content_kernel rfl none),nofun,
    fun _ some => absurd rfl some⟩

theorem Inv.next (inv : Inv p s taken unread) (ready : (s.ring s.nextFrame).tpStatus &&& tpStatusUser ≠ 0) :
    ∃ rest, unread = tryReceive s::rest ∧ StatusRing.Pending p.blockNumber.toNat
      (Function.update (contents p s.ring s.filling) (taken.length % p.blockNumber.toNat) none)
        (taken.length + 1) rest := by
  apply inv.pending.take p.numberPositive
  rw [contents,content,← inv.user,if_neg ready,tryReceive]

private theorem received_inv (inv : Inv p s taken unread) (ready : tryReceive s ≠ []) (fresh : s.holding = false) :
    Inv p {s with holding := true, returned := s.returned ++ [tryReceive s]} taken unread := by
  have user : (s.ring s.nextFrame).tpStatus &&& tpStatusUser ≠ 0 := by
    intro owned
    rw [tryReceive,span,if_pos owned] at ready
    exact ready rfl
  obtain ⟨rest,rfl,_⟩ := inv.next user
  have before := inv.returned
  rw [fresh] at before
  refine ⟨inv.user,inv.kernel,inv.logs,?_,inv.pending,fun _ => user,inv.apart⟩
  rw [before]
  simp

theorem Inv.idle (inv : Inv p s taken unread) (held : s.holding = true) :
    s.filling (taken.length % p.blockNumber.toNat) = none := by
  have user := inv.held held
  by_contra copying
  have owned := inv.apart _ copying
  rw [← inv.user] at owned
  rw [owned] at user
  exact user rfl

theorem release_inv (inv : Inv p s taken unread) (held : s.holding = true) :
    ∃ rest, Inv p (release p s) (taken ++ [tryReceive s]) rest := by
  obtain ⟨rest,rfl,left⟩ := inv.next (inv.held held)
  have before := inv.returned
  have idle := inv.idle held
  have emptied : contents p (release p s).ring (release p s).filling =
      Function.update (contents p s.ring s.filling) (taken.length % p.blockNumber.toNat) none := by
    have same := contents_update p s.ring s.filling (taken.length % p.blockNumber.toNat)
      {s.ring s.nextFrame with tpStatus := tpStatusKernel} none
    rw [← idle,Function.update_eq_self,content_kernel rfl,← inv.user,idle] at same
    exact same
  refine ⟨rest,?_,inv.kernel,?_,?_,?_,nofun,?_⟩
  · rw [release,inv.user,advance_eq,List.length_append,List.length_singleton]
  · rw [release,inv.logs,List.append_assoc]
    rfl
  · rw [held] at before
    rw [release,before]
    simp
  · rw [emptied,List.length_append,List.length_singleton]
    exact left
  · intro position copying
    dsimp only [release]
    rcases eq_or_ne (slotAt p position) s.nextFrame with same | elsewhere
    · rw [same,Function.update_self]
    · rw [Function.update_of_ne elsewhere]
      exact inv.apart position copying

private theorem reserved_inv (inv : Inv p s taken unread) (frame : List (BitVec 8))
    (owned : (s.ring (slotAt p s.head)).tpStatus = tpStatusKernel) (unused : s.filling s.head = none) :
    Inv p {s with filling := Function.update s.filling s.head frame, head := incrementHead (request p) s.head,
                  stored := s.stored ++ [frame]} taken (unread ++ [frame]) := by
  have place : s.head = (taken.length + unread.length) % p.blockNumber.toNat := by
    rw [inv.kernel,inv.logs,List.length_append]
  have empty : contents p s.ring s.filling ((taken.length + unread.length) % p.blockNumber.toNat) = none := by
    rw [← place,contents,content_kernel owned,unused]
  have added := inv.pending.put p.numberPositive empty frame
  have filled := contents_update p s.ring s.filling s.head (s.ring (slotAt p s.head)) (some frame)
  rw [Function.update_eq_self,content_kernel owned] at filled
  refine ⟨inv.user,?_,?_,?_,?_,inv.held,?_⟩
  · dsimp only
    rw [inv.kernel,incrementHead_eq,List.length_append,List.length_singleton]
  · dsimp only
    rw [inv.logs,List.append_assoc]
  · dsimp only
    rw [inv.returned]
    cases held : s.holding with
    | false => rfl
    | true =>
      obtain ⟨rest,rfl,_⟩ := inv.next (inv.held held)
      rfl
  · rw [← place,← filled] at added
    exact added
  · intro position copying
    rcases eq_or_ne position s.head with rfl | elsewhere
    · exact owned
    · dsimp only at copying
      rw [Function.update_of_ne elsewhere] at copying
      exact inv.apart position copying

private theorem published_inv (inv : Inv p s taken unread) {position : Nat} {mac : BitVec 16} (flags : BitVec 32)
    {frame : List (BitVec 8)} (copied : s.filling position = some frame)
    (room : mac.toNat + frame.length ≤ p.blockSize.toNat) :
    Inv p {s with ring := Function.update s.ring (slotAt p position) (fill (s.ring (slotAt p position)) frame mac flags),
                  filling := Function.update s.filling position none} taken unread := by
  have owned := inv.apart position (by rw [copied]; exact Option.some_ne_none frame)
  refine ⟨inv.user,inv.kernel,inv.logs,inv.returned,?_,?_,?_⟩
  · have after : content (fill (s.ring (slotAt p position)) frame mac flags) none = some frame := by
      rw [content,span_fill p _ flags room]
      exact if_neg (user_set flags)
    have before : contents p s.ring s.filling position = some frame := by rw [contents,content_kernel owned,copied]
    rw [contents_update,after,← before,Function.update_eq_self]
    exact inv.pending
  · intro held
    dsimp only
    rcases eq_or_ne s.nextFrame (slotAt p position) with same | elsewhere
    · rw [same,Function.update_self]
      exact user_set flags
    · rw [Function.update_of_ne elsewhere]
      exact inv.held held
  · intro other copying
    dsimp only at copying ⊢
    rcases eq_or_ne other position with rfl | elsewhere
    · rw [Function.update_self] at copying
      contradiction
    · rw [Function.update_of_ne (fun same => elsewhere (slotAt_inj p same))]
      rw [Function.update_of_ne elsewhere] at copying
      exact inv.apart other copying

theorem action_inv (inv : Inv p s taken unread) {event : Event} (action : Action p s event t) :
    ∃ taken unread, Inv p t taken unread := by
  cases action with
  | looked => exact ⟨taken,unread,inv⟩
  | received ready fresh => exact ⟨taken,unread,received_inv inv ready fresh⟩
  | released held =>
    obtain ⟨rest,later⟩ := release_inv inv held
    exact ⟨_,rest,later⟩
  | reserved frame some owned unused => exact ⟨taken,_,reserved_inv inv frame owned unused⟩
  | published position mac flags frame copied inside room => exact ⟨taken,unread,published_inv inv flags copied room⟩

end Steps

end Rx

/-- Both rings, in every state an interleaving of user and kernel can reach. -/
theorem packet_rings_in_lockstep (p : RingConfig)
    {txEvents : List Tx.Event} {tx : Tx.State} (txRan : run (Tx.step p) Tx.start txEvents = some tx)
    {rxEvents : List Rx.Event} {rx : Rx.State} (rxRan : run (Rx.step p) Rx.start rxEvents = some rx) :
    ((∀ frameLen, (Tx.acquire tx frameLen).2.isSome = true → (tx.ring tx.nextSlot).tpStatus = tpStatusAvailable) ∧
      (tx.pc = .granted → (tx.ring tx.nextSlot).tpStatus = tpStatusAvailable) ∧
      tx.nextSlot = slotAt p ((tx.committed.length - Tx.inCall tx.pc) % p.blockNumber.toNat) ∧
      lookupFrame (request p) tx.head = slotAt p (tx.transmitted.length % p.blockNumber.toNat) ∧
      (∀ event next, Tx.step p tx event = some next → Tx.Untouched tx event next) ∧
      tx.transmitted <+: tx.committed) ∧
    (rx.returned <+: rx.stored ∧
      (rx.holding = true → rx.returned.getLast? = some (Rx.tryReceive rx)) ∧
      ∀ next, Rx.step p rx .release = some next →
        (rx.ring rx.nextFrame).tpStatus &&& tpStatusUser ≠ 0 ∧
        (∃ position, rx.nextFrame = slotAt p position ∧ rx.filling position = none) ∧
        ∀ place, place ≠ rx.nextFrame → next.ring place = rx.ring place) := by
  obtain ⟨returned,unsent,txInv⟩ := Tx.inv_of_run txRan
  obtain ⟨taken,unread,rxInv⟩ : ∃ taken unread, Rx.Inv p rx taken unread := by
    apply reachable_invariant (fun s => ∃ taken unread, Rx.Inv p s taken unread) _ ⟨[],[],Rx.start_inv p⟩ rxRan
    rintro s event t ⟨taken,unread,inv⟩ moved
    exact Rx.action_inv inv (Rx.step_action moved)
  refine ⟨⟨?_,txInv.free,?_,?_,?_,?_⟩,?_,?_,?_⟩
  · intro frameLen granted
    rw [Tx.acquire] at granted
    split at granted
    · contradiction
    · next free => exact not_not.mp free
  · rw [txInv.calls,Nat.add_sub_cancel]
    exact txInv.user
  · rw [lookupFrame_eq,txInv.kernel]
  · intro event next moved
    exact txInv.untouched (Tx.step_action moved)
  · rw [txInv.logs]
    exact List.prefix_append _ _
  · rw [rxInv.returned,rxInv.logs,List.prefix_append_right_inj]
    split
    · cases unread with
      | nil => exact List.nil_prefix
      | cons first rest => exact List.cons_prefix_cons.mpr ⟨rfl,List.nil_prefix⟩
    · exact List.nil_prefix
  · intro held
    obtain ⟨rest,rfl,_⟩ := rxInv.next (rxInv.held held)
    rw [rxInv.returned,held]
    simp
  · intro next moved
    have user (held : rx.holding = true) := rxInv.held held
    cases Rx.step_action moved with
    | released held =>
      refine ⟨user held,⟨taken.length % p.blockNumber.toNat,rxInv.user,Rx.Inv.idle rxInv held⟩,?_⟩
      intro place elsewhere
      exact Function.update_of_ne elsewhere _ _

private theorem ringOf64_size : 0 < (64 : BitVec 32).toNat := by decide

private theorem ringOfTwo_number : 0 < (2 : BitVec 32).toNat := by decide

def labRing : RingConfig := ⟨64,2,ringOf64_size,ringOfTwo_number⟩

def labSends : List Tx.Event :=
  [.prefillRing [9,9],.acquire 2,.write 0 [1],.commit,.sendReturned .again,.transmit,.sendReturned .sent,
   .acquire 1,.commit,.sendReturned .failed,.complete 0,.acquire 2,.write 1 [3],.commit,.sendReturned .busy]

def labReceipts : List Rx.Event :=
  [.reserve [7],.reserve [8,8],.publish 1 14 0,.tryReceive,.publish 0 14 4,.tryReceive,.tryReceive,.release,
   .tryReceive,.reserve [6]]

theorem packet_rings_lab : ∃ tx rx, run (Tx.step labRing) Tx.start labSends = some tx ∧
    run (Rx.step labRing) Rx.start labReceipts = some rx ∧ tx.committed = [[1,9],[9],[1,3]] ∧
    tx.transmitted <+: tx.committed ∧ rx.stored = [[7],[8,8],[6]] ∧ rx.returned <+: rx.stored := by
  have sent : run (Tx.step labRing) Tx.start labSends = some _ := rfl
  have received : run (Rx.step labRing) Rx.start labReceipts = some _ := rfl
  have both := packet_rings_in_lockstep labRing sent received
  exact ⟨_,_,sent,received,rfl,both.1.2.2.2.2.2,rfl,both.2.1⟩

end Abtrda3.PacketMmap
