import Abtrda3.PacketMmap
import Abtrda3.Semantics.Ownership

/-! Who owns the packet sockets and their rings. A `SocketOps` holds a descriptor and a
mapping and gives both back when it is destroyed or assigned to; the two ring classes hold
a `SocketOps` and copies of its pointers. Objects are constructed, moved, assigned and
destroyed in any order, and every system call may fail. An exception that leaves the
constructor's body does not run the destructor. -/
namespace Abtrda3.SocketOwnership
open Abtrda3.Semantics Abtrda3.Semantics.Machine Abtrda3.Semantics.Ledger

inductive RingDirection
  | TX
  | RX
  deriving DecidableEq, Repr

structure RingConfig where
  direction : RingDirection
  blockSize : BitVec 32
  blockNumber : BitVec 32
  packetVersion : Int
  qdiscBypass : Bool
  deriving DecidableEq, Repr

def tpacketV2 : Int := 1

def tpacketV3 : Int := 2

def mapFailed : Nat := 2^64 - 1

inductive Handle
  | descriptor (fd : Int)
  | mapping (address size : Nat)
  deriving DecidableEq, Repr

abbrev Kernel := Ledger Handle

structure Answers where
  socket : Int
  version : Int
  ring : Int
  mmap : Nat
  ifindex : Nat
  bind : Int
  bypass : Int
  deriving DecidableEq, Repr

inductive Outcome (α : Type)
  | made (object : α)
  | thrown (what : String)
  | aborted
  deriving DecidableEq, Repr

def Outcome.map {α β : Type} (f : α → β) : Outcome α → Outcome β
  | .made object => .made (f object)
  | .thrown what => .thrown what
  | .aborted => .aborted

structure SocketOps where
  fd : Int
  ringAddress : Nat
  ringSize : Nat
  deriving DecidableEq, Repr

def RingConfig.ringSize (cfg : RingConfig) : Nat := cfg.blockSize.toNat * cfg.blockNumber.toNat

namespace SocketOps

def construct (cfg : RingConfig) (answers : Answers) (kernel : Kernel) : Kernel × Outcome SocketOps :=
  if answers.socket < 0 then (kernel,.thrown "socket(AF_PACKET)")
  else
    let kernel := kernel.grant (.descriptor answers.socket)
    if answers.version < 0 then (kernel,.thrown "PACKET_VERSION")
    else if cfg.packetVersion = tpacketV2 ∧ answers.ring < 0 then (kernel,.thrown "PACKET_RX/TX_RING (V2)")
    else if cfg.packetVersion = tpacketV3 ∧ answers.ring < 0 then (kernel,.thrown "PACKET_RX/TX_RING (V3)")
    else if answers.mmap = mapFailed then (kernel,.thrown "mmap ring")
    else
      let kernel := kernel.grant (.mapping answers.mmap cfg.ringSize)
      if answers.ifindex = 0 then (kernel,.thrown "if_nametoindex")
      else if answers.bind < 0 then (kernel,.thrown "bind")
      else if cfg.qdiscBypass = true ∧ cfg.direction = .TX ∧ answers.bypass < 0 then
        (kernel,.thrown "PACKET_QDISC_BYPASS")
      -- Nothing looks at the answer to PACKET_TIMESTAMP.
      else (kernel,.made ⟨answers.socket,answers.mmap,cfg.ringSize⟩)

def unmapRing (kernel : Kernel) (ptr size : Nat) : Kernel :=
  if ptr ≠ 0 ∧ ptr ≠ mapFailed then kernel.release (.mapping ptr size) else kernel

def moveConstruct (other : SocketOps) : SocketOps × SocketOps :=
  (⟨other.fd,other.ringAddress,other.ringSize⟩,⟨-1,0,0⟩)

def destroy (this : SocketOps) (kernel : Kernel) : Kernel :=
  let kernel := unmapRing kernel this.ringAddress this.ringSize
  if 0 ≤ this.fd then kernel.release (.descriptor this.fd) else kernel

def moveAssign (this other : SocketOps) (kernel : Kernel) : Kernel × SocketOps × SocketOps :=
  let kernel := unmapRing kernel this.ringAddress this.ringSize
  let kernel := if 0 ≤ this.fd then kernel.release (.descriptor this.fd) else kernel
  (kernel,⟨other.fd,other.ringAddress,other.ringSize⟩,⟨-1,0,0⟩)

end SocketOps

structure Cursor where
  next : Nat
  ringBase : Nat
  ringEnd : Nat
  frameSize : BitVec 32
  deriving DecidableEq, Repr

def Cursor.null : Cursor := ⟨0,0,0,0⟩

def Cursor.whole (handler : SocketOps) (frameSize : BitVec 32) : Cursor :=
  ⟨handler.ringAddress,handler.ringAddress,handler.ringAddress + handler.ringSize,frameSize⟩

def Cursor.advance (cursor : Cursor) : Cursor :=
  let next := cursor.next + cursor.frameSize.toNat
  {cursor with next := if cursor.ringEnd ≤ next then cursor.ringBase else next}

structure PacketMmapTx where
  cursor : Cursor
  fd : Int
  socketHandler : SocketOps
  deriving DecidableEq, Repr

structure PacketMmapRx where
  cursor : Cursor
  socketHandler : SocketOps
  deriving DecidableEq, Repr

namespace PacketMmapTx

def construct (cfg : RingConfig) (answers : Answers) (kernel : Kernel) : Kernel × Outcome PacketMmapTx :=
  match SocketOps.construct cfg answers kernel with
  | (kernel,.made handler) =>
    if cfg.packetVersion ≠ tpacketV2 then (kernel,.aborted)
    else (kernel,.made ⟨.whole handler cfg.blockSize,handler.fd,handler⟩)
  | (kernel,.thrown what) => (kernel,.thrown what)
  | (kernel,.aborted) => (kernel,.aborted)

def moveConstruct (other : PacketMmapTx) : PacketMmapTx × PacketMmapTx :=
  let (handler,left) := other.socketHandler.moveConstruct
  (⟨other.cursor,other.fd,handler⟩,⟨.null,-1,left⟩)

def moveAssign (this other : PacketMmapTx) (kernel : Kernel) : Kernel × PacketMmapTx × PacketMmapTx :=
  let (kernel,handler,left) := this.socketHandler.moveAssign other.socketHandler kernel
  (kernel,⟨other.cursor,other.fd,handler⟩,⟨.null,-1,left⟩)

end PacketMmapTx

namespace PacketMmapRx

/-- The handler is a complete member when the body throws, so it is destroyed. -/
def construct (cfg : RingConfig) (answers : Answers) (kernel : Kernel) : Kernel × Outcome PacketMmapRx :=
  match SocketOps.construct cfg answers kernel with
  | (kernel,.made handler) =>
    if cfg.packetVersion ≠ tpacketV2 then
      (handler.destroy kernel,.thrown "PacketMmapRx optimized for TPACKET_V2 only")
    else (kernel,.made ⟨.whole handler cfg.blockSize,handler⟩)
  | (kernel,.thrown what) => (kernel,.thrown what)
  | (kernel,.aborted) => (kernel,.aborted)

def moveConstruct (other : PacketMmapRx) : PacketMmapRx × PacketMmapRx :=
  let (handler,left) := other.socketHandler.moveConstruct
  (⟨other.cursor,handler⟩,⟨.null,left⟩)

def moveAssign (this other : PacketMmapRx) (kernel : Kernel) : Kernel × PacketMmapRx × PacketMmapRx :=
  let (kernel,handler,left) := this.socketHandler.moveAssign other.socketHandler kernel
  (kernel,⟨other.cursor,handler⟩,⟨.null,left⟩)

end PacketMmapRx

inductive Class
  | SocketOps
  | PacketMmapTx
  | PacketMmapRx
  deriving DecidableEq, Repr

inductive Object
  | socketOps (object : SocketOps)
  | packetMmapTx (object : PacketMmapTx)
  | packetMmapRx (object : PacketMmapRx)
  deriving DecidableEq, Repr

namespace Object

def handler : Object → SocketOps
  | .socketOps object => object
  | .packetMmapTx object => object.socketHandler
  | .packetMmapRx object => object.socketHandler

def construct (cfg : RingConfig) (answers : Answers) (kernel : Kernel) : Class → Kernel × Outcome Object
  | .SocketOps => (SocketOps.construct cfg answers kernel).map id (Outcome.map .socketOps)
  | .PacketMmapTx => (PacketMmapTx.construct cfg answers kernel).map id (Outcome.map .packetMmapTx)
  | .PacketMmapRx => (PacketMmapRx.construct cfg answers kernel).map id (Outcome.map .packetMmapRx)

def moveConstruct : Object → Object × Object
  | .socketOps other => other.moveConstruct.map .socketOps .socketOps
  | .packetMmapTx other => other.moveConstruct.map .packetMmapTx .packetMmapTx
  | .packetMmapRx other => other.moveConstruct.map .packetMmapRx .packetMmapRx

def moveAssign (kernel : Kernel) : Object → Object → Option (Kernel × Object × Object)
  | .socketOps this, .socketOps other =>
    some ((this.moveAssign other kernel).map id (Prod.map .socketOps .socketOps))
  | .packetMmapTx this, .packetMmapTx other =>
    some ((this.moveAssign other kernel).map id (Prod.map .packetMmapTx .packetMmapTx))
  | .packetMmapRx this, .packetMmapRx other =>
    some ((this.moveAssign other kernel).map id (Prod.map .packetMmapRx .packetMmapRx))
  | _, _ => none

def destroy (this : Object) (kernel : Kernel) : Kernel := this.handler.destroy kernel

/-- A moved-from ring has no slot to commit or release. -/
def advance : Object → Option Object
  | .packetMmapTx ring =>
    if ring.cursor.next ≠ 0 then some (.packetMmapTx {ring with cursor := ring.cursor.advance}) else none
  | .packetMmapRx ring =>
    if ring.cursor.next ≠ 0 then some (.packetMmapRx {ring with cursor := ring.cursor.advance}) else none
  | .socketOps _ => none

end Object

structure State where
  kernel : Kernel
  objects : Nat → Option Object
  halted : Bool

inductive Event
  | construct (name : Nat) (kind : Class) (cfg : RingConfig) (answers : Answers)
  | moveConstruct (name source : Nat)
  | moveAssign (target source : Nat)
  | destroy (name : Nat)
  | advance (name : Nat)
  deriving DecidableEq, Repr

def start : State := ⟨Ledger.empty,fun _ => none,false⟩

def Handle.apart (address size : Nat) : Handle → Bool
  | .descriptor _ => true
  | .mapping other length => other + length ≤ address || address + size ≤ other

/-- The kernel's side: a descriptor that is not open, and a mapping in user space that
overlaps no other. -/
def Answerable (kernel : Kernel) (cfg : RingConfig) (answers : Answers) : Prop :=
  (0 ≤ answers.socket → .descriptor answers.socket ∉ kernel.handles) ∧
    (answers.mmap ≠ mapFailed → 0 < answers.mmap ∧ 0 < cfg.ringSize ∧ answers.mmap + cfg.ringSize < 2^64 ∧
      ∀ handle ∈ kernel.handles, handle.apart answers.mmap cfg.ringSize = true)

instance (kernel : Kernel) (cfg : RingConfig) (answers : Answers) : Decidable (Answerable kernel cfg answers) :=
  inferInstanceAs (Decidable (_ ∧ _))

def construct (s : State) (name : Nat) (kind : Class) (cfg : RingConfig) (answers : Answers) : State :=
  match Object.construct cfg answers s.kernel kind with
  | (kernel,.made object) => {s with kernel := kernel, objects := Function.update s.objects name (some object)}
  | (kernel,.thrown _) => {s with kernel := kernel}
  -- `std::abort`: the kernel takes back all that the process had.
  | (kernel,.aborted) => ⟨kernel.releaseAll,fun _ => none,true⟩

def step (s : State) (event : Event) : Option State :=
  if s.halted then none
  else match event with
  | .construct name kind cfg answers =>
    if s.objects name = none ∧ Answerable s.kernel cfg answers then some (construct s name kind cfg answers) else none
  | .moveConstruct name source =>
    (s.objects source).bind fun other =>
      if s.objects name = none then
        let (fresh,left) := other.moveConstruct
        some {s with objects := Function.update (Function.update s.objects source (some left)) name (some fresh)}
      else none
  | .moveAssign target source =>
    (s.objects target).bind fun this => (s.objects source).bind fun other =>
      -- `this != &other`
      if target = source then some s
      else (this.moveAssign s.kernel other).map fun (kernel,this,left) =>
        {s with kernel := kernel,
                objects := Function.update (Function.update s.objects source (some left)) target (some this)}
  | .destroy name =>
    (s.objects name).map fun object =>
      {s with kernel := object.destroy s.kernel, objects := Function.update s.objects name none}
  | .advance name =>
    (s.objects name).bind fun object => object.advance.map fun moved =>
      {s with objects := Function.update s.objects name (some moved)}

def SocketOps.handles (handler : SocketOps) : List Handle :=
  (if handler.ringAddress ≠ 0 ∧ handler.ringAddress ≠ mapFailed then
    [.mapping handler.ringAddress handler.ringSize] else []) ++
  if 0 ≤ handler.fd then [.descriptor handler.fd] else []

def handlesOf : Option Object → List Handle
  | none => []
  | some object => object.handler.handles

def held (objects : Nat → Option Object) : Nat → List Handle := fun name => handlesOf (objects name)

def Object.moved : Object → Object
  | .socketOps _ => .socketOps ⟨-1,0,0⟩
  | .packetMmapTx _ => .packetMmapTx ⟨.null,-1,⟨-1,0,0⟩⟩
  | .packetMmapRx _ => .packetMmapRx ⟨.null,⟨-1,0,0⟩⟩

theorem held_update (objects : Nat → Option Object) (name : Nat) (object : Option Object) :
    held (Function.update objects name object) = Function.update (held objects) name (handlesOf object) :=
  Function.comp_update handlesOf objects name object

private theorem handles_moved (object : Object) : object.moved.handler.handles = [] := by
  cases object with
  | socketOps => rfl
  | packetMmapTx => rfl
  | packetMmapRx => rfl

theorem destroy_eq (handler : SocketOps) (kernel : Kernel) :
    handler.destroy kernel = handler.handles.foldl release kernel := by
  unfold SocketOps.destroy SocketOps.unmapRing SocketOps.handles
  dsimp only
  split
  · split
    · rfl
    · rfl
  · split
    · rfl
    · rfl

theorem moveConstruct_eq (object : Object) : object.moveConstruct = (object,object.moved) := by
  cases object with
  | socketOps => rfl
  | packetMmapTx => rfl
  | packetMmapRx => rfl

/-- An assignment first does the work of the destructor. -/
theorem moveAssign_eq {kernel : Kernel} {this other : Object} {result : Kernel × Object × Object}
    (assigned : this.moveAssign kernel other = some result) :
    result = (this.handler.handles.foldl release kernel,other,other.moved) := by
  rw [← destroy_eq]
  cases this with
  | socketOps this =>
    cases other with
    | socketOps other => exact (Option.some.inj assigned).symm
    | packetMmapTx | packetMmapRx => cases assigned
  | packetMmapTx this =>
    cases other with
    | packetMmapTx other => exact (Option.some.inj assigned).symm
    | socketOps | packetMmapRx => cases assigned
  | packetMmapRx this =>
    cases other with
    | packetMmapRx other => exact (Option.some.inj assigned).symm
    | socketOps | packetMmapTx => cases assigned

def Refused (cfg : RingConfig) (answers : Answers) : Prop :=
  answers.version < 0 ∨ (cfg.packetVersion = tpacketV2 ∨ cfg.packetVersion = tpacketV3) ∧ answers.ring < 0 ∨
    answers.mmap = mapFailed ∨ answers.ifindex = 0 ∨ answers.bind < 0 ∨
    cfg.qdiscBypass = true ∧ cfg.direction = .TX ∧ answers.bypass < 0

instance (cfg : RingConfig) (answers : Answers) : Decidable (Refused cfg answers) :=
  inferInstanceAs (Decidable (_ ∨ _))

inductive Built (cfg : RingConfig) (answers : Answers) (kernel : Kernel) : Kernel × Outcome SocketOps → Prop
  | unopened (what : String) (failed : answers.socket < 0) : Built cfg answers kernel (kernel,.thrown what)
  | unmapped (what : String) (opened : 0 ≤ answers.socket) (refused : Refused cfg answers) :
      Built cfg answers kernel (kernel.grant (.descriptor answers.socket),.thrown what)
  | unbound (what : String) (opened : 0 ≤ answers.socket) (mapped : answers.mmap ≠ mapFailed)
      (refused : Refused cfg answers) : Built cfg answers kernel
        ((kernel.grant (.descriptor answers.socket)).grant (.mapping answers.mmap cfg.ringSize),.thrown what)
  | made (opened : 0 ≤ answers.socket) (accepted : ¬ Refused cfg answers) : Built cfg answers kernel
      ((kernel.grant (.descriptor answers.socket)).grant (.mapping answers.mmap cfg.ringSize),
        .made ⟨answers.socket,answers.mmap,cfg.ringSize⟩)

private theorem construct_built (cfg : RingConfig) (answers : Answers) (kernel : Kernel) :
    Built cfg answers kernel (SocketOps.construct cfg answers kernel) := by
  unfold SocketOps.construct
  dsimp only
  split_ifs with failed version second third unmapped ifindex bind bypass
  · exact .unopened _ failed
  all_goals have opened := Int.not_lt.mp failed
  · exact .unmapped _ opened (.inl version)
  · exact .unmapped _ opened (.inr (.inl ⟨.inl second.1,second.2⟩))
  · exact .unmapped _ opened (.inr (.inl ⟨.inr third.1,third.2⟩))
  · exact .unmapped _ opened (.inr (.inr (.inl unmapped)))
  · exact .unbound _ opened unmapped (.inr (.inr (.inr (.inl ifindex))))
  · exact .unbound _ opened unmapped (.inr (.inr (.inr (.inr (.inl bind)))))
  · exact .unbound _ opened unmapped (.inr (.inr (.inr (.inr (.inr bypass)))))
  · refine .made opened ?_
    rintro (refused | ⟨two | three,refused⟩ | refused | refused | refused | refused)
    · exact version refused
    · exact second ⟨two,refused⟩
    · exact third ⟨three,refused⟩
    · exact unmapped refused
    · exact ifindex refused
    · exact bind refused
    · exact bypass refused

inductive SocketOps.Valid : SocketOps → Prop
  | moved : Valid ⟨-1,0,0⟩
  | owner (fd : Int) (address size : Nat) (opened : 0 ≤ fd) (nonnull : 0 < address) (some : 0 < size)
      (inside : address + size < 2^64) : Valid ⟨fd,address,size⟩

/-- The cursor stands on a slot of the handler's ring, or everything is null. -/
inductive Cursor.Wired : Cursor → SocketOps → Prop
  | moved : Wired .null ⟨-1,0,0⟩
  | ring (fd : Int) (address number position : Nat) (frameSize : BitVec 32) (nonnull : 0 < address)
      (before : position < number) :
      Wired ⟨address + position * frameSize.toNat,address,address + frameSize.toNat * number,frameSize⟩
        ⟨fd,address,frameSize.toNat * number⟩

def Object.Wired : Object → Prop
  | .socketOps handler => handler.Valid
  | .packetMmapTx ring =>
    ring.socketHandler.Valid ∧ ring.fd = ring.socketHandler.fd ∧ ring.cursor.Wired ring.socketHandler
  | .packetMmapRx ring => ring.socketHandler.Valid ∧ ring.cursor.Wired ring.socketHandler

theorem Object.wired_moved (object : Object) : object.moved.Wired := by
  cases object with
  | socketOps => exact .moved
  | packetMmapTx => exact ⟨.moved,rfl,.moved⟩
  | packetMmapRx => exact ⟨.moved,.moved⟩

variable {handler : SocketOps}

theorem Cursor.Wired.advance {cursor : Cursor} (wired : cursor.Wired handler)
    (slot : cursor.next ≠ 0) : cursor.advance.Wired handler := by
  cases wired with
  | moved => exact absurd rfl slot
  | ring fd address number position frameSize nonnull before =>
    have next : address + position * frameSize.toNat + frameSize.toNat = address + (position + 1) * frameSize.toNat := by
      rw [Nat.add_assoc,Nat.succ_mul]
    unfold Cursor.advance
    dsimp only
    split
    · -- Past the last slot, back to the first.
      have first := Cursor.Wired.ring fd address number 0 frameSize nonnull (Nat.zero_lt_of_lt before)
      rw [Nat.zero_mul] at first
      exact first
    next short =>
      rw [next,Nat.not_le,Nat.add_lt_add_iff_left,Nat.mul_comm frameSize.toNat] at short
      rw [next]
      exact .ring fd address number (position + 1) frameSize nonnull (Nat.lt_of_mul_lt_mul_right short)

theorem Object.Wired.advance {object next : Object} (wired : object.Wired) (moved : object.advance = some next) :
    next.Wired ∧ next.handler = object.handler := by
  cases object with
  | socketOps => cases moved
  | packetMmapTx ring =>
    obtain ⟨slot,same⟩ := Option.ite_none_right_eq_some.mp moved
    cases same
    exact ⟨⟨wired.1,wired.2.1,wired.2.2.advance slot⟩,rfl⟩
  | packetMmapRx ring =>
    obtain ⟨slot,same⟩ := Option.ite_none_right_eq_some.mp moved
    cases same
    exact ⟨⟨wired.1,wired.2.advance slot⟩,rfl⟩

inductive Produced (cfg : RingConfig) (answers : Answers) (kernel : Kernel) : Kernel × Outcome Object → Prop
  | thrown {after : Kernel} {what : String} (built : Built cfg answers kernel (after,.thrown what)) :
      Produced cfg answers kernel (after,.thrown what)
  | undone {after : Kernel} {handler : SocketOps} (what : String) (built : Built cfg answers kernel (after,.made handler)) :
      Produced cfg answers kernel (handler.destroy after,.thrown what)
  | aborted {after : Kernel} {handler : SocketOps} (built : Built cfg answers kernel (after,.made handler)) :
      Produced cfg answers kernel (after,.aborted)
  | made {after : Kernel} (object : Object) (built : Built cfg answers kernel (after,.made object.handler))
      (wired : object.Wired) : Produced cfg answers kernel (after,.made object)

private theorem wired_made {cfg : RingConfig} {answers : Answers} {kernel after : Kernel}
    (answerable : Answerable kernel cfg answers) (built : Built cfg answers kernel (after,.made handler)) :
    handler.Valid ∧ (Cursor.whole handler cfg.blockSize).Wired handler := by
  cases built with
  | made opened accepted =>
    have mapped : answers.mmap ≠ mapFailed := fun failed => accepted (.inr (.inr (.inl failed)))
    obtain ⟨nonnull,some,inside,_⟩ := answerable.2 mapped
    refine ⟨.owner _ _ _ opened nonnull some inside,?_⟩
    have wired := Cursor.Wired.ring answers.socket answers.mmap cfg.blockNumber.toNat 0 cfg.blockSize
      nonnull (Nat.pos_of_mul_pos_left some)
    rw [Nat.zero_mul] at wired
    exact wired

private theorem socket_thrown_or_made (cfg : RingConfig) (answers : Answers) (kernel : Kernel) :
    (∃ after what, SocketOps.construct cfg answers kernel = (after,.thrown what) ∧
      Built cfg answers kernel (after,.thrown what)) ∨
    ∃ after handler, SocketOps.construct cfg answers kernel = (after,.made handler) ∧
      Built cfg answers kernel (after,.made handler) := by
  have built := construct_built cfg answers kernel
  rcases ran : SocketOps.construct cfg answers kernel with ⟨after,handler | what | _⟩
  all_goals rw [ran] at built
  · exact .inr ⟨after,handler,rfl,built⟩
  · exact .inl ⟨after,what,rfl,built⟩
  · cases built

private theorem construct_produced {cfg : RingConfig} {answers : Answers} {kernel : Kernel}
    (answerable : Answerable kernel cfg answers) (kind : Class) :
    Produced cfg answers kernel (Object.construct cfg answers kernel kind) := by
  rcases socket_thrown_or_made cfg answers kernel with ⟨after,what,ran,built⟩ | ⟨after,handler,ran,built⟩
  · have same : Object.construct cfg answers kernel kind = (after,.thrown what) := by
      cases kind with
      | SocketOps => simp only [Object.construct,ran,Prod.map,Outcome.map,id]
      | PacketMmapTx => simp only [Object.construct,PacketMmapTx.construct,ran,Prod.map,Outcome.map,id]
      | PacketMmapRx => simp only [Object.construct,PacketMmapRx.construct,ran,Prod.map,Outcome.map,id]
    rw [same]
    exact .thrown built
  · obtain ⟨valid,wired⟩ := wired_made answerable built
    cases kind with
    | SocketOps =>
      simp only [Object.construct,ran]
      exact .made (.socketOps handler) built valid
    | PacketMmapTx =>
      simp only [Object.construct,PacketMmapTx.construct,ran]
      split
      · exact .aborted built
      · exact .made (.packetMmapTx ⟨.whole handler cfg.blockSize,handler.fd,handler⟩) built ⟨valid,rfl,wired⟩
    | PacketMmapRx =>
      simp only [Object.construct,PacketMmapRx.construct,ran]
      split
      · exact .undone _ built
      · exact .made (.packetMmapRx ⟨.whole handler cfg.blockSize,handler⟩) built ⟨valid,wired⟩

/-- A construction that fails does so before it has a descriptor. -/
def AllOrNothing (_ : State) : Event → Prop
  | .construct _ _ cfg answers => 0 ≤ answers.socket → ¬ Refused cfg answers
  | _ => True

instance (s : State) : (event : Event) → Decidable (AllOrNothing s event)
  | .construct _ _ cfg answers => inferInstanceAs (Decidable (0 ≤ answers.socket → ¬ Refused cfg answers))
  | .moveConstruct .. | .moveAssign .. | .destroy _ | .advance _ => isTrue trivial

section Construction

variable {cfg : RingConfig} {answers : Answers} {kernel after : Kernel}

theorem Answerable.fresh_mapping (answerable : Answerable kernel cfg answers) (mapped : answers.mmap ≠ mapFailed) :
    .mapping answers.mmap cfg.ringSize ∉ kernel.handles := by
  obtain ⟨_,some,_,apart⟩ := answerable.2 mapped
  intro out
  have clear := apart _ out
  simp only [Handle.apart,Bool.or_eq_true,decide_eq_true_eq] at clear
  omega

theorem Answerable.fresh_both (answerable : Answerable kernel cfg answers) (opened : 0 ≤ answers.socket)
    (mapped : answers.mmap ≠ mapFailed) :
    [Handle.descriptor answers.socket,.mapping answers.mmap cfg.ringSize].Nodup ∧
      ∀ handle ∈ [Handle.descriptor answers.socket,.mapping answers.mmap cfg.ringSize], handle ∉ kernel.handles := by
  refine ⟨by simp,?_⟩
  rw [List.forall_mem_cons,List.forall_mem_singleton]
  exact ⟨answerable.1 opened,answerable.fresh_mapping mapped⟩

theorem Built.thrown_grants {what : String} (built : Built cfg answers kernel (after,.thrown what))
    (answerable : Answerable kernel cfg answers) :
    ∃ leaked : List Handle, after = leaked.foldl Ledger.grant kernel ∧ leaked.Nodup ∧
      (∀ handle ∈ leaked, handle ∉ kernel.handles) ∧ ((0 ≤ answers.socket → ¬ Refused cfg answers) ↔ leaked = []) := by
  cases built with
  | unopened _ failed =>
    refine ⟨[],rfl,List.nodup_nil,List.forall_mem_nil _,?_⟩
    exact ⟨fun _ => rfl,fun _ opened => absurd failed (Int.not_lt.mpr opened)⟩
  | unmapped _ opened refused =>
    refine ⟨[.descriptor answers.socket],rfl,List.nodup_singleton _,?_,?_⟩
    · rw [List.forall_mem_singleton]
      exact answerable.1 opened
    · exact ⟨fun accepted => absurd refused (accepted opened),fun none => absurd none (List.cons_ne_nil _ _)⟩
  | unbound _ opened mapped refused =>
    obtain ⟨distinct,fresh⟩ := answerable.fresh_both opened mapped
    refine ⟨_,rfl,distinct,fresh,?_⟩
    exact ⟨fun accepted => absurd refused (accepted opened),fun none => absurd none (List.cons_ne_nil _ _)⟩

theorem Built.made_grants {handler : SocketOps} (built : Built cfg answers kernel (after,.made handler))
    (answerable : Answerable kernel cfg answers) :
    ∃ bundle : List Handle, after = bundle.foldl Ledger.grant kernel ∧ bundle.Nodup ∧
      (∀ handle ∈ bundle, handle ∉ kernel.handles) ∧ handler.handles.Perm bundle ∧
      (0 ≤ answers.socket → ¬ Refused cfg answers) := by
  cases built with
  | made opened accepted =>
    have mapped : answers.mmap ≠ mapFailed := fun failed => accepted (.inr (.inr (.inl failed)))
    have nonnull : answers.mmap ≠ 0 := Nat.pos_iff_ne_zero.mp (answerable.2 mapped).1
    obtain ⟨distinct,fresh⟩ := answerable.fresh_both opened mapped
    refine ⟨_,rfl,distinct,fresh,?_,fun _ => accepted⟩
    rw [SocketOps.handles,if_pos ⟨nonnull,mapped⟩,if_pos opened]
    exact List.Perm.swap _ _ _

end Construction

structure Inv (s : State) : Prop where
  owned : Owned s.kernel (held s.objects)
  wired : ∀ name object, s.objects name = some object → object.Wired
  stopped : s.halted = true → s.kernel.live = []

def Leaks (s : State) (handle : Handle) : Prop := Lost s.kernel (held s.objects) handle

theorem Inv.running {s : State} (going : s.halted = false) (owned : Owned s.kernel (held s.objects))
    (wired : ∀ name object, s.objects name = some object → object.Wired) : Inv s :=
  ⟨owned,wired,fun halted => absurd halted (Bool.eq_false_iff.mp going)⟩

structure Change (s : State) (event : Event) (t : State) : Prop where
  inv : Inv t
  leaks : t.halted = false → ∃ leaked : List Handle,
    (∀ handle, Leaks t handle ↔ Leaks s handle ∨ handle ∈ leaked) ∧ (AllOrNothing s event ↔ leaked = [])
  ended : t.halted = true → AllOrNothing s event

theorem start_inv : Inv start where
  owned := empty_sound.owned (fun _ => rfl)
  wired := by
    intro name object none
    cases none
  stopped := fun _ => rfl

variable {objects : Nat → Option Object}

theorem wired_update (wired : ∀ name object, objects name = some object → object.Wired)
    {name : Nat} {next : Option Object} (new : ∀ object, next = some object → object.Wired) (other : Nat) (object : Object)
    (here : Function.update objects name next other = some object) : object.Wired := by
  by_cases same : other = name
  · rw [same,Function.update_self] at here
    exact new object here
  · rw [Function.update_of_ne same] at here
    exact wired other object here

variable {s t : State}

theorem Change.quiet {event : Event} (inv : Inv t) (going : t.halted = false)
    (same : ∀ handle, Leaks t handle ↔ Leaks s handle) (admitted : AllOrNothing s event) : Change s event t where
  inv := inv
  leaks := by
    intro _
    refine ⟨[],fun handle => ?_,⟨fun _ => rfl,fun _ => admitted⟩⟩
    rw [same handle,or_iff_left List.not_mem_nil]
  ended := fun halted => absurd halted (Bool.eq_false_iff.mp going)

theorem Inv.construct (inv : Inv s) (going : s.halted = false) {name : Nat} (free : s.objects name = none)
    {cfg : RingConfig} {answers : Answers} (answerable : Answerable s.kernel cfg answers) (kind : Class) :
    Change s (.construct name kind cfg answers) (construct s name kind cfg answers) := by
  have produced := construct_produced answerable kind
  unfold SocketOwnership.construct
  generalize Object.construct cfg answers s.kernel kind = result at produced
  cases produced with
  | thrown built =>
    obtain ⟨leaked,rfl,distinct,fresh,all⟩ := built.thrown_grants answerable
    obtain ⟨owned,lost⟩ := inv.owned.grantAll distinct fresh
    refine ⟨.running going owned inv.wired,fun _ => ⟨leaked,lost,all⟩,?_⟩
    exact fun halted => absurd halted (Bool.eq_false_iff.mp going)
  | undone what built =>
    obtain ⟨bundle,rfl,distinct,fresh,same,admitted⟩ := built.made_grants answerable
    obtain ⟨owned,lost⟩ := inv.owned.grantAll distinct fresh
    obtain ⟨back,gone⟩ := owned.giveBack (same.nodup_iff.mpr distinct)
      (fun handle inside => (lost handle).mpr (.inr (same.subset inside)))
    rw [destroy_eq]
    refine .quiet (.running going back inv.wired) going (fun handle => ?_) admitted
    refine (gone handle).trans ?_
    rw [lost handle,same.mem_iff]
    exact lost_without (not_lost_of_fresh fresh)
  | aborted built =>
    obtain ⟨bundle,rfl,distinct,fresh,_,admitted⟩ := built.made_grants answerable
    obtain ⟨owned,_⟩ := inv.owned.grantAll distinct fresh
    refine ⟨⟨owned.sound.releaseAll.owned (fun _ => rfl),?_,fun _ => rfl⟩,?_,fun _ => admitted⟩
    · intro name object none
      cases none
    · intro going
      cases going
  | made object built wired =>
    obtain ⟨bundle,rfl,distinct,fresh,same,admitted⟩ := built.made_grants answerable
    obtain ⟨owned,lost⟩ := inv.owned.grantAll distinct fresh
    have none : held s.objects name = [] := congrArg handlesOf free
    obtain ⟨given,gone⟩ := owned.give none (same.nodup_iff.mpr distinct)
      (fun handle inside => (lost handle).mpr (.inr (same.subset inside)))
    have holders : held (Function.update s.objects name (some object)) =
        Function.update (held s.objects) name object.handler.handles := held_update _ _ _
    refine .quiet (.running going ?_ ?_) going (fun handle => ?_) admitted
    · rw [holders]
      exact given
    · exact wired_update inv.wired (fun other here => Option.some.inj here ▸ wired)
    · unfold Leaks
      rw [holders,gone handle,lost handle,same.mem_iff]
      exact lost_without (not_lost_of_fresh fresh)

theorem held_of {name : Nat} {object : Object} (here : s.objects name = some object) :
    held s.objects name = object.handler.handles := congrArg handlesOf here

private theorem held_transfer {source : Nat} {other : Object}
    (there : objects source = some other) (target : Nat) :
    held (Function.update (Function.update objects source (some other.moved)) target (some other)) =
      Function.update (Function.update (held objects) source []) target (held objects source) := by
  have given : held objects source = other.handler.handles := congrArg handlesOf there
  rw [held_update,held_update,given]
  exact congrArg (fun none => Function.update (Function.update (held objects) source none) target _) (handles_moved other)

private theorem wired_transfer
    (wired : ∀ name object, objects name = some object → object.Wired)
    {source target : Nat} {other : Object} (there : objects source = some other) (name : Nat) (object : Object)
    (here : Function.update (Function.update objects source (some other.moved)) target (some other) name = some object) :
    object.Wired := by
  refine wired_update ?_ (fun object same => Option.some.inj same ▸ wired source other there) name object here
  exact wired_update wired (fun object same => Option.some.inj same ▸ other.wired_moved)

theorem Inv.moveConstruct (inv : Inv s) (going : s.halted = false) {name source : Nat} {other : Object}
    (there : s.objects source = some other) (free : s.objects name = none) :
    Change s (.moveConstruct name source)
      {s with objects := Function.update (Function.update s.objects source (some other.moved)) name (some other)} := by
  have different : name ≠ source := by
    rintro rfl
    rw [there] at free
    cases free
  have none : held s.objects name = [] := congrArg handlesOf free
  obtain ⟨owned,lost⟩ := inv.owned.move none different
  rw [← held_transfer there name] at owned lost
  exact .quiet ⟨owned,wired_transfer inv.wired there,inv.stopped⟩ going lost trivial

theorem Inv.moveAssign (inv : Inv s) (going : s.halted = false) {target source : Nat} {this other : Object}
    (here : s.objects target = some this) (there : s.objects source = some other) (different : target ≠ source) :
    Change s (.moveAssign target source)
      {s with kernel := this.handler.handles.foldl release s.kernel,
              objects := Function.update (Function.update s.objects source (some other.moved)) target (some other)} := by
  obtain ⟨dropped,same⟩ := inv.owned.drop target
  have empty : Function.update (held s.objects) target [] target = [] := Function.update_self ..
  obtain ⟨owned,lost⟩ := dropped.move empty different
  -- What the target held before is overwritten.
  have holders : Function.update (Function.update (Function.update (held s.objects) target []) source []) target
      (Function.update (held s.objects) target [] source) =
        held (Function.update (Function.update s.objects source (some other.moved)) target (some other)) := by
    rw [held_transfer there,Function.update_of_ne different.symm,Function.update_comm different,Function.update_idem]
  rw [holders,held_of here] at owned lost
  rw [held_of here] at same
  refine .quiet (.running going owned (wired_transfer inv.wired there)) going ?_ trivial
  exact fun handle => (lost handle).trans (same handle)

theorem Inv.destroy (inv : Inv s) (going : s.halted = false) {name : Nat} {object : Object}
    (here : s.objects name = some object) :
    Change s (.destroy name)
      {s with kernel := object.destroy s.kernel, objects := Function.update s.objects name none} := by
  obtain ⟨owned,lost⟩ := inv.owned.drop name
  have holders : Function.update (held s.objects) name [] = held (Function.update s.objects name none) :=
    (held_update s.objects name none).symm
  rw [holders,held_of here,← destroy_eq] at owned lost
  refine .quiet (.running going owned ?_) going lost trivial
  exact wired_update inv.wired (fun other none => absurd none.symm (Option.some_ne_none other))

theorem Inv.advance (inv : Inv s) (going : s.halted = false) {name : Nat} {object moved : Object}
    (here : s.objects name = some object) (next : object.advance = some moved) :
    Change s (.advance name) {s with objects := Function.update s.objects name (some moved)} := by
  obtain ⟨wired,handler⟩ := (inv.wired name object here).advance next
  have holders : held (Function.update s.objects name (some moved)) = held s.objects := by
    have same : handlesOf (some moved) = held s.objects name := by
      rw [held_of here,← handler]
      rfl
    rw [held_update,same,Function.update_eq_self]
  refine .quiet ⟨?_,?_,inv.stopped⟩ going (fun handle => ?_) trivial
  · rw [holders]
    exact inv.owned
  · exact wired_update inv.wired (fun other same => Option.some.inj same ▸ wired)
  · unfold Leaks
    rw [holders]

theorem step_change {event : Event} (inv : Inv s) (moved : step s event = some t) :
    s.halted = false ∧ Change s event t := by
  unfold step at moved
  split at moved
  · cases moved
  next going =>
    have going := Bool.eq_false_of_not_eq_true going
    refine ⟨going,?_⟩
    cases event with
    | construct name kind cfg answers =>
      obtain ⟨⟨free,answerable⟩,same⟩ := Option.ite_none_right_eq_some.mp moved
      cases same
      exact inv.construct going free answerable kind
    | moveConstruct name source =>
      obtain ⟨other,there,rest⟩ := Option.bind_eq_some_iff.mp moved
      obtain ⟨free,same⟩ := Option.ite_none_right_eq_some.mp rest
      rw [moveConstruct_eq] at same
      cases same
      exact inv.moveConstruct going there free
    | moveAssign target source =>
      obtain ⟨this,here,rest⟩ := Option.bind_eq_some_iff.mp moved
      obtain ⟨other,there,rest⟩ := Option.bind_eq_some_iff.mp rest
      split at rest
      · cases rest
        exact .quiet inv going (fun _ => Iff.rfl) trivial
      next different =>
        obtain ⟨result,assigned,same⟩ := Option.map_eq_some_iff.mp rest
        rw [moveAssign_eq assigned] at same
        cases same
        exact inv.moveAssign going here there different
    | destroy name =>
      obtain ⟨object,here,same⟩ := Option.map_eq_some_iff.mp moved
      cases same
      exact inv.destroy going here
    | advance name =>
      obtain ⟨object,here,rest⟩ := Option.bind_eq_some_iff.mp moved
      obtain ⟨next,advanced,same⟩ := Option.map_eq_some_iff.mp rest
      cases same
      exact inv.advance going here advanced

theorem inv_of_run {events : List Event} (ran : run step start events = some s) : Inv s :=
  reachable_invariant Inv (fun _ _ _ inv moved => (step_change inv moved).2.inv) start_inv ran

/-- The pointers stay inside the mapping that the handler owns, or are all null. -/
def Cursor.Refers (cursor : Cursor) (handler : SocketOps) : Prop :=
  handler.handles = [] ∧ cursor = .null ∨
    .mapping cursor.ringBase (cursor.ringEnd - cursor.ringBase) ∈ handler.handles ∧
      cursor.ringBase ≤ cursor.next ∧ cursor.next + cursor.frameSize.toNat ≤ cursor.ringEnd

def Object.Refers : Object → Prop
  | .socketOps _ => True
  | .packetMmapTx ring => ring.fd = ring.socketHandler.fd ∧ ring.cursor.Refers ring.socketHandler
  | .packetMmapRx ring => ring.cursor.Refers ring.socketHandler

/-- The pointer of a ring with the sizes of `p` moves, on offsets from the start of the
mapping, as in the ring of the two backends. -/
def Cursor.Follows (cursor : Cursor) (p : PacketMmap.RingConfig) : Prop :=
  cursor.frameSize = p.blockSize → cursor.ringEnd = cursor.ringBase + PacketMmap.ringSize p →
    cursor.advance.next = cursor.ringBase + PacketMmap.advance p (cursor.next - cursor.ringBase)

def Object.Follows (object : Object) (p : PacketMmap.RingConfig) : Prop :=
  match object with
  | .socketOps _ => True
  | .packetMmapTx ring => ring.cursor.Follows p
  | .packetMmapRx ring => ring.cursor.Follows p

theorem Cursor.Wired.behind {cursor : Cursor} (wired : cursor.Wired handler) :
    cursor.ringBase ≤ cursor.next := by
  cases wired with
  | moved => exact Nat.le_refl 0
  | ring => exact Nat.le_add_right _ _

theorem Cursor.Wired.follows {cursor : Cursor} (wired : cursor.Wired handler)
    (p : PacketMmap.RingConfig) : cursor.Follows p := by
  intro size whole
  have behind := wired.behind
  unfold Cursor.advance PacketMmap.advance
  dsimp only
  rw [size,whole]
  split
  next past => rw [if_pos (by omega),Nat.add_zero]
  next short =>
    rw [if_neg (by omega)]
    omega

theorem Object.Wired.follows {object : Object} (wired : object.Wired) (p : PacketMmap.RingConfig) : object.Follows p := by
  cases object with
  | socketOps => trivial
  | packetMmapTx ring => exact wired.2.2.follows p
  | packetMmapRx ring => exact wired.2.follows p

theorem SocketOps.Valid.inside (valid : handler.Valid) (nonnull : 0 < handler.ringAddress) :
    0 < handler.ringSize ∧ handler.ringAddress + handler.ringSize < 2^64 := by
  cases valid with
  | moved => cases nonnull
  | owner _ _ _ _ _ some inside => exact ⟨some,inside⟩

theorem Cursor.Wired.refers {cursor : Cursor} (wired : cursor.Wired handler)
    (valid : handler.Valid) : cursor.Refers handler := by
  cases wired with
  | moved => exact .inl ⟨rfl,rfl⟩
  | ring fd address number position frameSize nonnull before =>
    obtain ⟨some,below⟩ := valid.inside nonnull
    dsimp only at some below
    have real : address ≠ mapFailed := by
      unfold mapFailed
      omega
    have slot : (position + 1) * frameSize.toNat ≤ frameSize.toNat * number := by
      rw [Nat.mul_comm]
      exact Nat.mul_le_mul_left _ before
    refine .inr ⟨?_,Nat.le_add_right _ _,?_⟩
    · rw [SocketOps.handles,if_pos ⟨Nat.pos_iff_ne_zero.mp nonnull,real⟩,Nat.add_sub_cancel_left]
      exact List.mem_append_left _ (List.mem_singleton.mpr rfl)
    · dsimp only
      rw [Nat.succ_mul] at slot
      omega

theorem Object.Wired.refers {object : Object} (wired : object.Wired) : object.Refers := by
  cases object with
  | socketOps => trivial
  | packetMmapTx ring => exact ⟨wired.2.1,wired.2.2.refers wired.1⟩
  | packetMmapRx ring => exact wired.2.refers wired.1

private theorem step_going {event : Event} (moved : step s event = some t) : s.halted ≠ true := by
  intro halted
  unfold step at moved
  rw [if_pos halted] at moved
  cases moved

theorem Inv.halted_clean (inv : Inv s) (halted : s.halted = true) (handle : Handle) : ¬ Leaks s handle := by
  rintro ⟨out,_⟩
  rw [handles,inv.stopped halted] at out
  cases out

private theorem leakless_iff {events : List Event} (ran : run step start events = some s) (going : s.halted = false) :
    (∀ handle, ¬ Leaks s handle) ↔ Along step AllOrNothing start events := by
  rw [← not_exists]
  apply faultless_iff_along (fun s => ∃ handle, Leaks s handle) (fun s => s.halted = true) Inv _ _ _ _ _ start_inv _ ran
  · rw [going]
    exact Bool.false_ne_true
  · exact fun _ _ _ inv moved => (step_change inv moved).2.inv
  · exact fun _ _ _ moved => step_going moved
  · intro state event next inv moved alive ⟨handle,lost⟩
    obtain ⟨leaked,leaks,_⟩ := (step_change inv moved).2.leaks (Bool.eq_false_of_not_eq_true alive)
    exact ⟨handle,(leaks handle).mpr (.inl lost)⟩
  · rintro state event next inv moved admitted clean ⟨handle,lost⟩
    have change := (step_change inv moved).2
    by_cases alive : next.halted = true
    · exact change.inv.halted_clean alive handle lost
    · obtain ⟨leaked,leaks,all⟩ := change.leaks (Bool.eq_false_of_not_eq_true alive)
      rw [leaks handle,all.mp admitted,or_iff_left List.not_mem_nil] at lost
      exact clean ⟨handle,lost⟩
  · intro state event next inv moved refused
    have change := (step_change inv moved).2
    have alive : next.halted = false :=
      Bool.eq_false_of_not_eq_true (fun halted => refused (change.ended halted))
    obtain ⟨leaked,leaks,all⟩ := change.leaks alive
    obtain ⟨handle,inside⟩ := List.exists_mem_of_ne_nil leaked (fun none => refused (all.mpr none))
    exact ⟨handle,(leaks handle).mpr (.inr inside)⟩
  · rintro ⟨handle,out,_⟩
    cases out

/-- No descriptor and no mapping is ever released twice or by anyone but its owner, and the
pointers of a ring object stay in the mapping it owns and go through it as the rings of the
two backends do. Every open one has an owner, and once all objects are gone each has been
released exactly once, if and only if no construction of the run fails after its `socket`
call: such a construction leaves the descriptor, and the mapping if it has one, open for good. -/
theorem sockets_released_once_iff {events : List Event} (ran : run step start events = some s) :
    s.kernel.faults = 0 ∧ (s.kernel.released ++ s.kernel.serials).Perm (List.range s.kernel.granted) ∧
      (∀ name object, s.objects name = some object →
        object.Refers ∧ (∀ p, object.Follows p) ∧ ∀ handle ∈ object.handler.handles, handle ∈ s.kernel.handles) ∧
      (∀ first second handle, handle ∈ held s.objects first → handle ∈ held s.objects second → first = second) ∧
      (s.halted = true → s.kernel.live = []) ∧
      (s.halted = false →
        ((∀ handle, ¬ Leaks s handle) ↔ Along step AllOrNothing start events) ∧
        ((∀ name, s.objects name = none) →
          ((∀ serial, serial < s.kernel.granted → s.kernel.released.count serial = 1) ↔
            Along step AllOrNothing start events))) := by
  have inv := inv_of_run ran
  refine ⟨inv.owned.sound.faultless,inv.owned.sound.once,?_,fun _ _ _ one two => inv.owned.apart one two,inv.stopped,?_⟩
  · intro name object here
    have wired := inv.wired name object here
    refine ⟨wired.refers,wired.follows,fun handle has => ?_⟩
    rw [← held_of here] at has
    exact inv.owned.live has
  · intro going
    have clean := leakless_iff ran going
    refine ⟨clean,fun gone => ?_⟩
    rw [← clean]
    exact inv.owned.released_once_iff (fun name => congrArg handlesOf (gone name))

def labRing (direction : RingDirection) : RingConfig := ⟨direction,4096,64,tpacketV2,true⟩

def labAnswers (fd : Int) (address : Nat) : Answers := ⟨fd,0,0,address,2,0,0⟩

/-- Two rings; one is moved and then replaced by the other, which is assigned to itself and
used. -/
def labLifetime : List Event :=
  [.construct 0 .PacketMmapTx (labRing .TX) (labAnswers 3 0x10000),
    .construct 1 .PacketMmapTx (labRing .TX) (labAnswers 4 0x80000),
    .construct 2 .PacketMmapRx (labRing .RX) ⟨-1,0,0,mapFailed,0,0,0⟩,
    .moveConstruct 2 0,.moveAssign 2 1,.moveAssign 2 2,.advance 2,.destroy 0,.destroy 1,.destroy 2]

theorem sockets_released_once_iff_moved :
    ∃ s, run step start labLifetime = some s ∧ s.kernel.granted = 4 ∧ s.kernel.live = [] ∧
      ∀ handle, ¬ Leaks s handle := by
  have shown : (run step start labLifetime).map (fun s => (s.halted,s.kernel.granted,s.kernel.live)) =
      some (false,4,[]) := by decide +kernel
  obtain ⟨s,ran,parts⟩ := Option.map_eq_some_iff.mp shown
  simp only [Prod.mk.injEq] at parts
  obtain ⟨going,granted,live⟩ := parts
  obtain ⟨_,_,_,_,_,whole⟩ := sockets_released_once_iff ran
  exact ⟨s,ran,granted,live,(whole going).1.mpr (by decide +kernel)⟩

/-- The interface does not exist: socket and ring are there when `if_nametoindex` fails. -/
def labMissing : List Event :=
  [.construct 0 .PacketMmapTx (labRing .TX) ⟨3,0,0,0x10000,0,0,0⟩]

theorem missing_interface_leaks_socket :
    ∃ s, run step start labMissing = some s ∧ (∀ name, s.objects name = none) ∧
      s.kernel.handles = [.descriptor 3,.mapping 0x10000 0x40000] ∧ s.kernel.released = [] ∧
      Leaks s (.descriptor 3) ∧ Leaks s (.mapping 0x10000 0x40000) := by
  refine ⟨⟨⟨2,[(.descriptor 3,0),(.mapping 0x10000 0x40000,1)],[],0⟩,fun _ => none,false⟩,rfl,fun _ => rfl,rfl,rfl,?_,?_⟩
  · exact ⟨List.mem_cons_self,fun _ => List.not_mem_nil⟩
  · exact ⟨List.mem_cons_of_mem _ List.mem_cons_self,fun _ => List.not_mem_nil⟩

end Abtrda3.SocketOwnership
