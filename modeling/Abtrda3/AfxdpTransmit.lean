import Abtrda3.Afxdp
import Abtrda3.Semantics.BoundedQueue
import Abtrda3.Semantics.Machine
import Mathlib.Tactic.Tauto

/-! The transmit half of the AF_XDP backend next to a kernel that takes descriptors,
finishes them in any order and posts their completions. The frame to hand out is a
bare rotating index; completions are only counted. -/
namespace Abtrda3.AfxdpTransmit
open Abtrda3.Semantics Abtrda3.Semantics.Machine Abtrda3.Afxdp

structure Desc where
  addr : BitVec 64
  len : BitVec 32
  options : BitVec 32
  -- Which commit submitted it.
  nth : Nat
  deriving DecidableEq, Repr

inductive Pc
  | idle
  | acquired
  | reserving
  | retrying
  | completing
  deriving DecidableEq, Repr

structure State where
  pc : Pc
  txFrameNb : BitVec 32
  pendingTxAddr : BitVec 64
  pendingTxLen : BitVec 32
  outstandingTx : BitVec 32
  tx : BoundedQueue Desc
  comp : BoundedQueue (BitVec 64)
  -- Completions the cached producer index already covers.
  compSeen : Nat
  driver : List Desc
  finished : List Desc
  committed : Nat
  deriving DecidableEq, Repr

inductive Event
  | acquire (frameLen : BitVec 32)
  | commit
  | reserve
  | completeTx
  | take
  | finish (position : Nat)
  | post (position : Nat)
  deriving DecidableEq, Repr

def start (p : Params) : State :=
  ⟨.idle,0,0,0,0,BoundedQueue.empty p.txSize,BoundedQueue.empty p.compSize,0,[],[],0⟩

def acquire (p : Params) (s : State) (frameLen : BitVec 32) : State :=
  {s with pendingTxAddr := frameAddr p s.txFrameNb, pendingTxLen := frameLen, pc := .acquired}

/-- Reserve, write and submit; a full ring sends the loop through `completeTx` first. -/
def reserve (p : Params) (s : State) : State :=
  match s.tx.tryPush ⟨s.pendingTxAddr,s.pendingTxLen,0,s.committed⟩ with
  | some tx =>
    {s with tx := tx, outstandingTx := s.outstandingTx + 1,
            txFrameNb := (s.txFrameNb + 1) &&& p.txPoolMask,
            committed := s.committed + 1, pc := .completing}
  | none => {s with pc := .retrying}

def completeTx (s : State) : State :=
  if s.outstandingTx = 0 then s
  else
    -- The producer index is read again only when no cached entry is left.
    let avail := if s.compSeen = 0 then s.comp.items.length else s.compSeen
    let rcvd := min avail batchSize
    {s with comp := s.comp.drop rcvd, compSeen := avail - rcvd,
            outstandingTx := s.outstandingTx - BitVec.ofNat 32 rcvd}

/-- A descriptor leaves the ring only with a completion slot reserved for it. -/
def take (s : State) : Option State :=
  s.tx.front.bind fun desc =>
    if s.comp.items.length + s.driver.length + s.finished.length < s.comp.capacity then
      some {s with tx := s.tx.pop, driver := s.driver ++ [desc]}
    else none

def finish (s : State) (position : Nat) : Option State :=
  s.driver[position]?.map fun desc =>
    {s with driver := s.driver.eraseIdx position, finished := s.finished ++ [desc]}

def post (s : State) (position : Nat) : Option State :=
  s.finished[position]?.bind fun desc =>
    (s.comp.tryPush desc.addr).map fun comp =>
      {s with finished := s.finished.eraseIdx position, comp := comp}

def step (p : Params) (s : State) : Event → Option State
  | .acquire frameLen => if s.pc = .idle ∨ s.pc = .acquired then some (acquire p s frameLen) else none
  | .commit => if s.pc = .acquired then some {s with pc := .reserving} else none
  | .reserve => if s.pc = .reserving then some (reserve p s) else none
  | .completeTx =>
    if s.pc = .retrying then some {completeTx s with pc := .reserving}
    else if s.pc = .completing then some {completeTx s with pc := .idle}
    else none
  | .take => take s
  | .finish position => finish s position
  | .post position => post s position

/-- Submitted and not yet completed: in the ring, in the driver, or finished with the
completion still to be posted. -/
def uncompleted (s : State) : List Desc := s.tx.items ++ s.driver ++ s.finished

def HandsFree (p : Params) (s : State) : Event → Prop
  | .acquire _ => ∀ desc ∈ uncompleted s, desc.addr ≠ frameAddr p s.txFrameNb
  | _ => True

/-- At an `acquire` the kernel has completed every descriptor but those of the last
commits, fewer than the pool has frames. -/
def Timely (p : Params) (s : State) : Event → Prop
  | .acquire _ => ∀ desc ∈ uncompleted s, s.committed < desc.nth + p.numTxFrames
  | _ => True

def holding : Pc → Prop
  | .acquired | .reserving | .retrying => True
  | .idle | .completing => False

private theorem completeTx_frame (s : State) :
    (completeTx s).tx = s.tx ∧ (completeTx s).driver = s.driver ∧ (completeTx s).finished = s.finished ∧
      (completeTx s).committed = s.committed ∧ (completeTx s).txFrameNb = s.txFrameNb ∧
      (completeTx s).pendingTxAddr = s.pendingTxAddr := by
  unfold completeTx
  split <;> simp

variable {s t : State} {p : Params}

private theorem take_uncompleted (moved : take s = some t) :
    t = {s with tx := t.tx, driver := t.driver} ∧ ∀ desc ∈ uncompleted t, desc ∈ uncompleted s := by
  obtain ⟨first,front,rest⟩ := Option.bind_eq_some_iff.mp moved
  obtain ⟨later,items⟩ : ∃ later, s.tx.items = first :: later := List.head?_eq_some_iff.mp front
  split at rest
  · cases Option.some.inj rest
    refine ⟨rfl,fun desc member => ?_⟩
    simp only [uncompleted,BoundedQueue.pop_items,items,List.tail_cons,List.mem_append,List.mem_cons,
      List.not_mem_nil,or_false] at member ⊢
    tauto
  · contradiction

private theorem finish_uncompleted {position : Nat} (moved : finish s position = some t) :
    t = {s with driver := t.driver, finished := t.finished} ∧ ∀ desc ∈ uncompleted t, desc ∈ uncompleted s := by
  obtain ⟨done,found,rfl⟩ := Option.map_eq_some_iff.mp moved
  refine ⟨rfl,fun desc member => ?_⟩
  have inDriver := List.mem_of_getElem? found
  simp only [uncompleted,List.mem_append,List.mem_singleton] at member ⊢
  rcases member with (inRing | left) | (inFinished | rfl)
  · exact .inl (.inl inRing)
  · exact .inl (.inr (List.mem_of_mem_eraseIdx left))
  · exact .inr inFinished
  · exact .inl (.inr inDriver)

private theorem post_uncompleted {position : Nat} (moved : post s position = some t) :
    t = {s with finished := t.finished, comp := t.comp} ∧ ∀ desc ∈ uncompleted t, desc ∈ uncompleted s := by
  obtain ⟨done,found,rest⟩ := Option.bind_eq_some_iff.mp moved
  obtain ⟨comp,room,rfl⟩ := Option.map_eq_some_iff.mp rest
  refine ⟨rfl,fun desc member => ?_⟩
  simp only [uncompleted,List.mem_append] at member ⊢
  rcases member with inRing | left
  · exact .inl inRing
  · exact .inr (List.mem_of_mem_eraseIdx left)

/-- Either a descriptor is submitted, or nothing new becomes outstanding and the
rotating index stays. -/
theorem step_cases {event : Event} (moved : step p s event = some t) :
    (∃ tx, s.pc = .reserving ∧ s.tx.tryPush ⟨s.pendingTxAddr,s.pendingTxLen,0,s.committed⟩ = some tx ∧
      t = {s with tx := tx, outstandingTx := s.outstandingTx + 1, txFrameNb := (s.txFrameNb + 1) &&& p.txPoolMask,
                  committed := s.committed + 1, pc := .completing}) ∨
    (t.committed = s.committed ∧ t.txFrameNb = s.txFrameNb ∧ (∀ desc ∈ uncompleted t, desc ∈ uncompleted s) ∧
      ((∃ frameLen, event = .acquire frameLen ∧ t.pendingTxAddr = frameAddr p s.txFrameNb) ∨
        (t.pendingTxAddr = s.pendingTxAddr ∧ (holding t.pc → holding s.pc)))) := by
  cases event with
  | acquire frameLen =>
    simp only [step] at moved
    split at moved
    · cases Option.some.inj moved
      exact .inr ⟨rfl,rfl,fun _ member => member,.inl ⟨frameLen,rfl,rfl⟩⟩
    · contradiction
  | commit =>
    simp only [step] at moved
    split at moved
    · next here =>
      cases Option.some.inj moved
      exact .inr ⟨rfl,rfl,fun _ member => member,.inr ⟨rfl,fun _ => by rw [here]; trivial⟩⟩
    · contradiction
  | reserve =>
    simp only [step] at moved
    split at moved
    · next here =>
      cases Option.some.inj moved
      unfold reserve
      cases room : s.tx.tryPush ⟨s.pendingTxAddr,s.pendingTxLen,0,s.committed⟩ with
      | some tx => exact .inl ⟨tx,here,rfl,rfl⟩
      | none => exact .inr ⟨rfl,rfl,fun _ member => member,.inr ⟨rfl,fun _ => by rw [here]; trivial⟩⟩
    · contradiction
  | completeTx =>
    obtain ⟨tx,driver,finished,committed,index,address⟩ := completeTx_frame s
    simp only [step] at moved
    split_ifs at moved with retrying completing
    · cases Option.some.inj moved
      refine .inr ⟨committed,index,?_,.inr ⟨address,fun _ => by rw [retrying]; trivial⟩⟩
      simp [uncompleted,tx,driver,finished]
    · cases Option.some.inj moved
      refine .inr ⟨committed,index,?_,.inr ⟨address,fun held => held.elim⟩⟩
      simp [uncompleted,tx,driver,finished]
  | take =>
    obtain ⟨frame,kept⟩ := take_uncompleted moved
    rw [frame] at kept ⊢
    exact .inr ⟨rfl,rfl,kept,.inr ⟨rfl,id⟩⟩
  | finish position =>
    obtain ⟨frame,kept⟩ := finish_uncompleted moved
    rw [frame] at kept ⊢
    exact .inr ⟨rfl,rfl,kept,.inr ⟨rfl,id⟩⟩
  | post position =>
    obtain ⟨frame,kept⟩ := post_uncompleted moved
    rw [frame] at kept ⊢
    exact .inr ⟨rfl,rfl,kept,.inr ⟨rfl,id⟩⟩

structure Placed (p : Params) (s : State) : Prop where
  index : s.txFrameNb.toNat = s.committed % p.numTxFrames
  pending : holding s.pc → s.pendingTxAddr = frameAddr p s.txFrameNb
  descs : ∀ desc ∈ uncompleted s, desc.nth < s.committed ∧
    desc.addr = frameAddr p (BitVec.ofNat 32 (desc.nth % p.numTxFrames))

private theorem index_advances (hasTx : p.mode ≠ .RxOnly) {index : BitVec 32} {committed : Nat}
    (here : index.toNat = committed % p.numTxFrames) :
    ((index + 1) &&& p.txPoolMask).toNat = (committed + 1) % p.numTxFrames := by
  have word : index = BitVec.ofNat 32 (committed % p.numTxFrames) := by
    rw [← here,BitVec.ofNat_toNat,BitVec.setWidth_eq]
  have bits : p.txBits ≤ 32 := (p.txSized hasTx).2.le
  rw [word,Params.txPoolMask,Params.txPoolFrames,if_neg hasTx,WrappingCounter.ofNat_succ,Params.numTxFrames,
    WrappingCounter.mask_toNat bits,Nat.mod_add_mod]

theorem start_placed (p : Params) : Placed p (start p) where
  index := by simp [start]
  pending := by simp [start,holding]
  descs := by simp [start,uncompleted,BoundedQueue.empty]

theorem step_placed (hasTx : p.mode ≠ .RxOnly) {event : Event} (placed : Placed p s)
    (moved : step p s event = some t) : Placed p t := by
  rcases step_cases moved with ⟨tx,here,room,rfl⟩ | ⟨committed,index,kept,pending⟩
  · obtain ⟨items,_⟩ := BoundedQueue.tryPush_some room
    refine ⟨index_advances hasTx placed.index,fun held => held.elim,fun desc member => ?_⟩
    have current : frameAddr p s.txFrameNb = frameAddr p (BitVec.ofNat 32 (s.committed % p.numTxFrames)) := by
      rw [← placed.index,BitVec.ofNat_toNat,BitVec.setWidth_eq]
    have earlier : desc ∈ uncompleted s ∨ desc = ⟨s.pendingTxAddr,s.pendingTxLen,0,s.committed⟩ := by
      simp only [uncompleted,items,List.mem_append,List.mem_singleton] at member ⊢
      tauto
    rcases earlier with old | rfl
    · obtain ⟨before,address⟩ := placed.descs desc old
      exact ⟨Nat.lt_succ_of_lt before,address⟩
    · refine ⟨Nat.lt_succ_self _,?_⟩
      rw [placed.pending (by rw [here]; trivial),current]
  · refine ⟨by rw [committed,index]; exact placed.index,fun held => ?_,fun desc member => ?_⟩
    · rcases pending with ⟨_,_,address⟩ | ⟨address,before⟩
      · rw [address,index]
      · rw [address,index]
        exact placed.pending (before held)
    · rw [committed]
      exact placed.descs desc (kept desc member)

theorem Placed.same_frame_iff (hasTx : p.mode ≠ .RxOnly) {s : State} (placed : Placed p s) {desc : Desc}
    (member : desc ∈ uncompleted s) :
    desc.addr = frameAddr p s.txFrameNb ↔ desc.nth % p.numTxFrames = s.committed % p.numTxFrames := by
  have small : desc.nth % p.numTxFrames < 2^32 := by
    have bits := (p.txSized hasTx).2
    have below := Nat.mod_lt desc.nth (Nat.two_pow_pos p.txBits)
    exact below.trans (Nat.pow_lt_pow_right (by omega) bits)
  rw [(placed.descs desc member).2]
  constructor
  · intro same
    have values := congrArg BitVec.toNat (frameAddr_injective p same)
    rwa [BitVec.toNat_ofNat,Nat.mod_eq_of_lt small,placed.index] at values
  · intro same
    rw [same,← placed.index,BitVec.ofNat_toNat,BitVec.setWidth_eq]

/-- A descriptor of the last commits, fewer than the pool has frames, sits in another
frame than the one handed out next. -/
theorem free_of_timely (hasTx : p.mode ≠ .RxOnly) {s : State} {event : Event} (placed : Placed p s)
    (timely : Timely p s event) : HandsFree p s event := by
  cases event with
  | acquire frameLen =>
    intro desc member same
    have before := (placed.descs desc member).1
    have near := timely desc member
    exact WrappingCounter.mod_ne_of_window before near ((placed.same_frame_iff hasTx member).mp same)
  | _ => trivial

structure Young (p : Params) (s : State) : Prop where
  lap : ∀ desc ∈ uncompleted s, s.committed ≤ desc.nth + p.numTxFrames
  held : holding s.pc → ∀ desc ∈ uncompleted s, s.committed < desc.nth + p.numTxFrames

private theorem timely_of_free (hasTx : p.mode ≠ .RxOnly) {s : State} {event : Event} (placed : Placed p s)
    (young : Young p s) (free : HandsFree p s event) : Timely p s event := by
  cases event with
  | acquire frameLen =>
    intro desc member
    have other := free desc member
    rw [Ne,placed.same_frame_iff hasTx member] at other
    have lap := young.lap desc member
    rcases Nat.lt_or_eq_of_le lap with near | exactly
    · exact near
    · rw [exactly,Nat.add_mod_right] at other
      exact absurd rfl other
  | _ => trivial

private theorem step_young {event : Event} (young : Young p s) (timely : Timely p s event)
    (moved : step p s event = some t) : Young p t := by
  rcases step_cases moved with ⟨tx,here,room,rfl⟩ | ⟨committed,_,kept,pending⟩
  · obtain ⟨items,_⟩ := BoundedQueue.tryPush_some room
    refine ⟨fun desc member => ?_,fun held => held.elim⟩
    have earlier : desc ∈ uncompleted s ∨ desc.nth = s.committed := by
      simp only [uncompleted,items,List.mem_append,List.mem_singleton] at member ⊢
      rcases member with ((inRing | rfl) | inDriver) | inFinished
      · exact .inl (.inl (.inl inRing))
      · exact .inr rfl
      · exact .inl (.inl (.inr inDriver))
      · exact .inl (.inr inFinished)
    have positive : 0 < p.numTxFrames := Nat.two_pow_pos p.txBits
    dsimp only
    rcases earlier with old | fresh
    · have near := young.held (by rw [here]; trivial) desc old
      omega
    · omega
  · refine ⟨fun desc member => ?_,fun held desc member => ?_⟩
    · rw [committed]
      exact young.lap desc (kept desc member)
    · rw [committed]
      rcases pending with ⟨frameLen,rfl,_⟩ | ⟨_,before⟩
      · exact timely desc (kept desc member)
      · exact young.held (before held) desc (kept desc member)

/-- Along a run `acquire` hands out only free frames exactly when the kernel keeps up:
at every `acquire` the outstanding descriptors are from fewer commits than there are frames. -/
theorem acquire_free_iff_timely (p : Params) (hasTx : p.mode ≠ .RxOnly) (events : List Event) :
    Along (step p) (HandsFree p) (start p) events ↔ Along (step p) (Timely p) (start p) events := by
  have young : Young p (start p) := by
    constructor <;> simp [start,uncompleted,BoundedQueue.empty]
  constructor
  · intro free
    apply along_of_invariant (fun s => Placed p s ∧ Young p s) _ _ ⟨start_placed p,young⟩ free
    · intro s event t holds here moved
      exact ⟨step_placed hasTx holds.1 moved,step_young holds.2 (timely_of_free hasTx holds.1 holds.2 here) moved⟩
    · intro s event holds here
      exact timely_of_free hasTx holds.1 holds.2 here
  · intro timely
    apply along_of_invariant (Placed p) _ _ (start_placed p) timely
    · intro s event t placed _ moved
      exact step_placed hasTx placed moved
    · intro s event placed here
      exact free_of_timely hasTx placed here

def eightFrames : Params := ⟨.TxOnly,3,3,2048,by decide,by decide,smallChunk⟩

def send (drained : Bool) : List Event :=
  [.acquire 64,.commit,.reserve] ++ (if drained then [.take,.finish 0,.post 0] else []) ++ [.completeTx]

instance (p : Params) (s : State) : (event : Event) → Decidable (HandsFree p s event)
  | .acquire _ => inferInstanceAs (Decidable (∀ desc ∈ uncompleted s, desc.addr ≠ frameAddr p s.txFrameNb))
  | .commit | .reserve | .completeTx | .take | .finish _ | .post _ => isTrue trivial

instance (p : Params) (s : State) : (event : Event) → Decidable (Timely p s event)
  | .acquire _ => inferInstanceAs (Decidable (∀ desc ∈ uncompleted s, s.committed < desc.nth + p.numTxFrames))
  | .commit | .reserve | .completeTx | .take | .finish _ | .post _ => isTrue trivial

theorem acquire_free_iff_timely_drained :
    (run (step eightFrames) (start eightFrames) (List.replicate 9 (send true)).flatten).isSome ∧
      Along (step eightFrames) (HandsFree eightFrames) (start eightFrames) (List.replicate 9 (send true)).flatten := by
  constructor
  · decide
  · exact (acquire_free_iff_timely eightFrames (by decide) _).mpr (by decide +kernel)

/-- Eight sends with no step of the kernel: the ninth `acquire` hands out frame 0,
whose descriptor is still the first of the transmit ring. -/
theorem acquire_reuses_queued_frame :
    ∃ s, run (step eightFrames) (start eightFrames) (List.replicate 8 (send false)).flatten = some s ∧
      (step eightFrames s (.acquire 64)).isSome ∧
      ∃ desc ∈ s.tx.items, desc.addr = frameAddr eightFrames s.txFrameNb := by
  have ran : (run (step eightFrames) (start eightFrames) (List.replicate 8 (send false)).flatten).isSome := by decide
  refine ⟨_,(Option.some_get ran).symm,?_,?_⟩
  · decide +kernel +revert
  · decide +kernel +revert

end Abtrda3.AfxdpTransmit
