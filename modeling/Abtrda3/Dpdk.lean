import Abtrda3.Semantics.ByteMemory
import Abtrda3.Semantics.Machine

/-! One port of the DPDK backend with both directions, next to the NIC queues it polls,
the mbuf pool it allocates from and a poll-mode driver that reaps completions late. The
caller's side of the protocol is kept as what it was last handed: the frame it has not
released and the buffer it has not committed. -/
namespace Abtrda3.Dpdk
open Abtrda3.Semantics Abtrda3.Semantics.Machine

abbrev Mbuf := Nat

structure Params where
  nbTxDesc : BitVec 16
  burstSize : BitVec 16
  maxFrame : BitVec 16
  txPositive : 0 < nbTxDesc.toNat
  burstPositive : 0 < burstSize.toNat

def inlineSafeLen : BitVec 32 := 128

def refcntLow : BitVec 16 := 0x2000

def refcntTopup : BitVec 16 := 0x4000

structure Port where
  ifname : String
  lcore : Int
  pci : String
  port : BitVec 16
  pool : Option (BitVec 16)
  txTemplate : ByteMemory
  txTemplateLen : BitVec 16
  rxBurst : List Mbuf
  rxCount : BitVec 16
  rxIdx : BitVec 16
  pendingRx : Option Mbuf
  pendingTx : Option Mbuf
  prepared : Bool
  started : Bool
  bifurcated : Bool
  afxdpPmd : Bool
  devargs : String
  txReuse : Option Mbuf
  txReuseInline : Bool

/-- What the mbufs hold, which of them are out of the pool, and which each port's NIC
queue has ready. -/
structure World where
  data : Mbuf → ByteMemory
  dataLen : Mbuf → BitVec 16
  pktLen : Mbuf → BitVec 32
  refcnt : Mbuf → BitVec 16
  out : List Mbuf
  nic : BitVec 16 → List Mbuf

inductive Obs
  | burst (port : BitVec 16) (taken : List (Mbuf × List (BitVec 8)))
  | received (mbuf : Mbuf) (frame : List (BitVec 8))
  | freed (mbuf : Mbuf)
  | sent (port : BitVec 16) (mbuf : Mbuf) (frame : List (BitVec 8))
  | freedReuse (mbuf : Mbuf)
  deriving DecidableEq, Repr

structure State where
  obj : Port
  world : World
  held : Option Mbuf
  granted : Option Mbuf
  -- Sends the driver has not reaped yet.
  inFlight : List Mbuf
  log : List Obs

inductive Call
  | init (port : BitVec 16)
  | setTxInlineReuse (on : Bool)
  | prefillRing (frameTemplate : List (BitVec 8))
  | tryReceive (ready : Nat)
  | release
  | acquire (frameLen : BitVec 32) (allocated : Option Mbuf)
  | write (offset : Nat) (bytes : List (BitVec 8))
  | commit
  | shutdown
  | arrive (port : BitVec 16) (mbuf : Mbuf) (frame : List (BitVec 8))
  | reap (position : Nat)
  deriving DecidableEq, Repr

def construct (ifname : String) (lcore : Int) : Port :=
  ⟨ifname,lcore,"",0,none,fun _ => 0,0,[],0,0,none,none,false,false,false,false,"",none,false⟩

namespace World

/-- The mbuf of `rte_pktmbuf_alloc`: its contents are whatever the last user left. -/
def alloc (w : World) (m : Mbuf) : World :=
  {w with dataLen := Function.update w.dataLen m 0, pktLen := Function.update w.pktLen m 0,
          refcnt := Function.update w.refcnt m 1, out := m::w.out}

def free (w : World) (m : Mbuf) : World := {w with out := w.out.erase m}

/-- A null mbuf is taken by `rte_pktmbuf_free`, which does nothing then. -/
def freeMaybe (w : World) (m : Option Mbuf) : World := m.elim w w.free

def refcntSet (w : World) (m : Mbuf) (value : BitVec 16) : World :=
  {w with refcnt := Function.update w.refcnt m value}

def refcntUpdate (w : World) (m : Mbuf) (value : BitVec 16) : World := w.refcntSet m (w.refcnt m + value)

def copy (w : World) (m : Mbuf) (offset : Nat) (bytes : List (BitVec 8)) : World :=
  {w with data := Function.update w.data m ((w.data m).write offset bytes)}

def setLen (w : World) (m : Mbuf) (frameLen : BitVec 32) : World :=
  {w with dataLen := Function.update w.dataLen m (frameLen.setWidth 16),
          pktLen := Function.update w.pktLen m frameLen}

def frame (w : World) (m : Mbuf) : List (BitVec 8) := (w.data m).read 0 (w.pktLen m).toNat

def segment (w : World) (m : Mbuf) : List (BitVec 8) := (w.data m).read 0 (w.dataLen m).toNat

end World

def prefillRing (p : Params) (o : Port) (frameTemplate : List (BitVec 8)) : Port :=
  let len := min frameTemplate.length p.maxFrame.toNat
  {o with txTemplateLen := BitVec.ofNat 16 len, txTemplate := o.txTemplate.write 0 (frameTemplate.take len)}

def rxTaken (p : Params) (o : Port) (w : World) (ready : Nat) : List Mbuf :=
  (w.nic o.port).take (min ready p.burstSize.toNat)

/-- The front of the array is filled by `rte_eth_rx_burst`, the rest of it left alone. -/
def rxBurst (p : Params) (o : Port) (w : World) (ready : Nat) : Port × World :=
  let taken := rxTaken p o w ready
  ({o with rxBurst := taken ++ o.rxBurst.drop taken.length, rxCount := BitVec.ofNat 16 taken.length, rxIdx := 0},
   {w with nic := Function.update w.nic o.port ((w.nic o.port).drop taken.length)})

def handOut (o : Port) (w : World) (log : List Obs) : Port × World × List Obs :=
  let pending := o.rxBurst[o.rxIdx.toNat]?
  ({o with pendingRx := pending},w,log ++ pending.toList.map (fun m => .received m (w.frame m)))

def tryReceive (p : Params) (o : Port) (w : World) (ready : Nat) : Port × World × List Obs :=
  if o.rxCount ≤ o.rxIdx then
    let polled := [.burst o.port ((rxTaken p o w ready).map (fun m => (m,w.frame m)))]
    let (o,w) := rxBurst p o w ready
    if o.rxCount = 0 then (o,w,polled) else handOut o w polled
  else handOut o w []

def release (o : Port) (w : World) : Port × World × List Obs :=
  ({o with pendingRx := none, rxIdx := o.rxIdx + 1},w.freeMaybe o.pendingRx,o.pendingRx.toList.map .freed)

def grantReuse (o : Port) (w : World) (m : Mbuf) (frameLen : BitVec 32) : Port × World × Option Mbuf :=
  let w := if w.refcnt m < refcntLow then w.refcntUpdate m refcntTopup else w
  ({o with pendingTx := some m},w.setLen m frameLen,some m)

def stampReuse (o : Port) (w : World) (m : Mbuf) : World :=
  let w := (w.alloc m).refcntSet m refcntTopup
  if o.txTemplateLen = 0 then w else w.copy m 0 (o.txTemplate.read 0 o.txTemplateLen.toNat)

def stampFresh (o : Port) (w : World) (m : Mbuf) (frameLen : BitVec 32) : World :=
  let w := (w.alloc m).setLen m frameLen
  if o.txTemplateLen = 0 then w
  else w.copy m 0 (o.txTemplate.read 0 (min frameLen.toNat o.txTemplateLen.toNat))

def acquire (o : Port) (w : World) (frameLen : BitVec 32) (allocated : Option Mbuf) : Port × World × Option Mbuf :=
  if o.txReuseInline ∧ frameLen ≤ inlineSafeLen then
    match o.txReuse with
    | some m => grantReuse o w m frameLen
    | none =>
      match allocated with
      | none => (o,w,none)
      | some m => grantReuse {o with txReuse := some m} (stampReuse o w m) m frameLen
  else
    match allocated with
    | none => ({o with pendingTx := none},w,none)
    | some m => ({o with pendingTx := some m},stampFresh o w m frameLen,some m)

variable {frameLen : BitVec 32}

theorem acquire_shared {o : Port} (w : World) (allocated : Option Mbuf) {m : Mbuf}
    (inline : o.txReuseInline ∧ frameLen ≤ inlineSafeLen) (shared : o.txReuse = some m) :
    acquire o w frameLen allocated = grantReuse o w m frameLen := by
  simp [acquire,inline,shared]

theorem acquire_first {o : Port} (w : World) (m : Mbuf)
    (inline : o.txReuseInline ∧ frameLen ≤ inlineSafeLen) (unset : o.txReuse = none) :
    acquire o w frameLen (some m) = grantReuse {o with txReuse := some m} (stampReuse o w m) m frameLen := by
  simp [acquire,inline,unset]

theorem acquire_refused {o : Port} (w : World)
    (inline : o.txReuseInline ∧ frameLen ≤ inlineSafeLen) (unset : o.txReuse = none) :
    acquire o w frameLen none = (o,w,none) := by
  simp [acquire,inline,unset]

theorem acquire_fresh {o : Port} (w : World) (m : Mbuf)
    (plain : ¬(o.txReuseInline ∧ frameLen ≤ inlineSafeLen)) :
    acquire o w frameLen (some m) = ({o with pendingTx := some m},stampFresh o w m frameLen,some m) := by
  rw [acquire,if_neg plain]

theorem acquire_failed {o : Port} (w : World)
    (plain : ¬(o.txReuseInline ∧ frameLen ≤ inlineSafeLen)) :
    acquire o w frameLen none = ({o with pendingTx := none},w,none) := by
  rw [acquire,if_neg plain]

def shutdown (o : Port) (w : World) : Port × World × List Obs :=
  if o.started then
    let w := w.freeMaybe o.pendingRx
    let freed := o.pendingRx.toList.map .freed
    match o.txReuse with
    | none => ({o with pendingRx := none, started := false},w,freed)
    | some m =>
      ({o with pendingRx := none, started := false, txReuse := none},(w.refcntSet m 1).free m,
       freed ++ [.freedReuse m])
  else (o,w,[])

theorem shutdown_stopped {o : Port} (w : World) (stopped : o.started = false) : shutdown o w = (o,w,[]) := by
  simp [shutdown,stopped]

theorem shutdown_running {o : Port} (w : World) (running : o.started = true) :
    (shutdown o w).1 = {o with pendingRx := none, started := false, txReuse := none} := by
  cases shared : o.txReuse <;> simp [shutdown,running,shared]

/-- The move constructor: the members it does not name take their initial values. -/
def moveConstruct (o : Port) : Port :=
  {construct o.ifname o.lcore with
    pci := o.pci, port := o.port, pool := o.pool, txTemplate := o.txTemplate,
    txTemplateLen := o.txTemplateLen, prepared := o.prepared, started := o.started,
    bifurcated := o.bifurcated, afxdpPmd := o.afxdpPmd, devargs := o.devargs,
    txReuse := o.txReuse, txReuseInline := o.txReuseInline}

/-- Move assignment to a different object, whose own port is shut down first. -/
def moveAssign (target : Port) (w : World) (o : Port) : Port × World × List Obs :=
  ({(shutdown target w).1 with
    ifname := o.ifname, lcore := o.lcore, pci := o.pci, port := o.port, pool := o.pool,
    txTemplate := o.txTemplate, txTemplateLen := o.txTemplateLen, prepared := o.prepared,
    started := o.started, bifurcated := o.bifurcated, afxdpPmd := o.afxdpPmd,
    devargs := o.devargs, txReuse := o.txReuse, txReuseInline := o.txReuseInline},(shutdown target w).2)

def movedFrom (o : Port) : Port :=
  {o with ifname := "", pci := "", devargs := "", pool := none, started := false, txReuse := none}

def inPool (w : World) (allocated : Option Mbuf) : Prop := ∀ m ∈ allocated, m ∉ w.out

instance (w : World) (allocated : Option Mbuf) : Decidable (inPool w allocated) :=
  inferInstanceAs (Decidable (∀ m ∈ allocated, m ∉ w.out))

def arrive (w : World) (port : BitVec 16) (m : Mbuf) (frame : List (BitVec 8)) : World :=
  let w := ((w.alloc m).copy m 0 frame).setLen m (BitVec.ofNat 32 frame.length)
  {w with nic := Function.update w.nic port (w.nic port ++ [m])}

/-- The driver gives up one reference; the last one returns the mbuf to the pool. -/
def reap (w : World) (m : Mbuf) : World :=
  let less := w.refcntSet m (w.refcnt m - 1)
  if w.refcnt m = 1 then less.free m else less

def step (p : Params) (s : State) : Call → Option State
  | .init port =>
    -- The pool's name is taken for the life of the process, so `init` succeeds once.
    if s.obj.started = false ∧ s.obj.pool = none then
      some {s with obj := {s.obj with port := port, pool := some port, prepared := true, started := true}}
    else none
  | .setTxInlineReuse on =>
    if s.obj.started then none else some {s with obj := {s.obj with txReuseInline := on}}
  | .prefillRing frameTemplate => some {s with obj := prefillRing p s.obj frameTemplate}
  | .tryReceive ready =>
    if s.obj.started then
      let (o,w,seen) := tryReceive p s.obj s.world ready
      some {s with obj := o, world := w, held := o.pendingRx, log := s.log ++ seen}
    else none
  | .release =>
    if s.obj.started ∧ s.held ≠ none then
      let (o,w,freed) := release s.obj s.world
      some {s with obj := o, world := w, held := none, log := s.log ++ freed}
    else none
  | .acquire frameLen allocated =>
    if s.obj.started ∧ inPool s.world allocated then
      let (o,w,granted) := acquire s.obj s.world frameLen allocated
      some {s with obj := o, world := w, granted := granted}
    else none
  | .write offset bytes => s.granted.map fun m => {s with world := s.world.copy m offset bytes}
  | .commit =>
    if s.obj.started ∧ s.granted ≠ none then
      s.obj.pendingTx.bind fun m =>
        -- `rte_eth_tx_burst` refuses while the ring is full and the loop calls it again.
        if s.inFlight.count m < p.nbTxDesc.toNat then
          some {s with obj := {s.obj with pendingTx := none}, granted := none, inFlight := s.inFlight ++ [m],
                       log := s.log ++ [.sent s.obj.port m (s.world.segment m)]}
        else none
    else none
  | .shutdown =>
    let (o,w,freed) := shutdown s.obj s.world
    some {s with obj := o, world := w, log := s.log ++ freed}
  | .arrive port m frame => if m ∉ s.world.out then some {s with world := arrive s.world port m frame} else none
  | .reap position =>
    s.inFlight[position]?.map fun m => {s with world := reap s.world m, inFlight := s.inFlight.eraseIdx position}

inductive Action (p : Params) (s : State) : Call → State → Prop
  | init {port : BitVec 16} (stopped : s.obj.started = false) (fresh : s.obj.pool = none) :
      Action p s (.init port)
        {s with obj := {s.obj with port := port, pool := some port, prepared := true, started := true}}
  | setTxInlineReuse {on : Bool} (stopped : s.obj.started = false) :
      Action p s (.setTxInlineReuse on) {s with obj := {s.obj with txReuseInline := on}}
  | prefillRing {frameTemplate : List (BitVec 8)} :
      Action p s (.prefillRing frameTemplate) {s with obj := prefillRing p s.obj frameTemplate}
  | tryReceive {ready : Nat} (running : s.obj.started = true) :
      Action p s (.tryReceive ready)
        {s with obj := (tryReceive p s.obj s.world ready).1, world := (tryReceive p s.obj s.world ready).2.1,
                held := (tryReceive p s.obj s.world ready).1.pendingRx,
                log := s.log ++ (tryReceive p s.obj s.world ready).2.2}
  | release (running : s.obj.started = true) (holding : s.held ≠ none) :
      Action p s .release
        {s with obj := (release s.obj s.world).1, world := (release s.obj s.world).2.1, held := none,
                log := s.log ++ (release s.obj s.world).2.2}
  | acquire {frameLen : BitVec 32} {allocated : Option Mbuf} (running : s.obj.started = true)
      (pooled : inPool s.world allocated) :
      Action p s (.acquire frameLen allocated)
        {s with obj := (acquire s.obj s.world frameLen allocated).1,
                world := (acquire s.obj s.world frameLen allocated).2.1,
                granted := (acquire s.obj s.world frameLen allocated).2.2}
  | write {offset : Nat} {bytes : List (BitVec 8)} {m : Mbuf} (granted : s.granted = some m) :
      Action p s (.write offset bytes) {s with world := s.world.copy m offset bytes}
  | commit {m : Mbuf} (running : s.obj.started = true) (granted : s.granted ≠ none)
      (pending : s.obj.pendingTx = some m) (room : s.inFlight.count m < p.nbTxDesc.toNat) :
      Action p s .commit
        {s with obj := {s.obj with pendingTx := none}, granted := none, inFlight := s.inFlight ++ [m],
                log := s.log ++ [.sent s.obj.port m (s.world.segment m)]}
  | shutdown :
      Action p s .shutdown
        {s with obj := (shutdown s.obj s.world).1, world := (shutdown s.obj s.world).2.1,
                log := s.log ++ (shutdown s.obj s.world).2.2}
  | arrive {port : BitVec 16} {m : Mbuf} {frame : List (BitVec 8)} (pooled : m ∉ s.world.out) :
      Action p s (.arrive port m frame) {s with world := arrive s.world port m frame}
  | reap {position : Nat} {m : Mbuf} (flying : s.inFlight[position]? = some m) :
      Action p s (.reap position) {s with world := reap s.world m, inFlight := s.inFlight.eraseIdx position}

theorem step_action {p : Params} {s t : State} {call : Call} (moved : step p s call = some t) : Action p s call t := by
  cases call with
  | init port =>
    obtain ⟨ready,⟨⟩⟩ := Option.ite_none_right_eq_some.mp moved
    exact .init ready.1 ready.2
  | setTxInlineReuse on =>
    obtain ⟨ready,⟨⟩⟩ := Option.ite_none_left_eq_some.mp moved
    exact .setTxInlineReuse (Bool.eq_false_iff.mpr ready)
  | prefillRing frameTemplate => exact Option.some.inj moved ▸ .prefillRing
  | tryReceive ready =>
    obtain ⟨running,⟨⟩⟩ := Option.ite_none_right_eq_some.mp moved
    exact .tryReceive running
  | release =>
    obtain ⟨ready,⟨⟩⟩ := Option.ite_none_right_eq_some.mp moved
    exact .release ready.1 ready.2
  | acquire frameLen allocated =>
    obtain ⟨ready,⟨⟩⟩ := Option.ite_none_right_eq_some.mp moved
    exact .acquire ready.1 ready.2
  | write offset bytes =>
    obtain ⟨m,granted,rfl⟩ := Option.map_eq_some_iff.mp moved
    exact .write granted
  | commit =>
    obtain ⟨ready,rest⟩ := Option.ite_none_right_eq_some.mp moved
    obtain ⟨m,pending,sent⟩ := Option.bind_eq_some_iff.mp rest
    obtain ⟨room,⟨⟩⟩ := Option.ite_none_right_eq_some.mp sent
    exact .commit ready.1 ready.2 pending room
  | shutdown => exact Option.some.inj moved ▸ .shutdown
  | arrive port m frame =>
    obtain ⟨pooled,⟨⟩⟩ := Option.ite_none_right_eq_some.mp moved
    exact .arrive pooled
  | reap position =>
    obtain ⟨m,flying,rfl⟩ := Option.map_eq_some_iff.mp moved
    exact .reap flying

theorem Action.enabled {p : Params} {s t : State} {call : Call} (action : Action p s call t) :
    step p s call = some t := by
  cases action with
  | init stopped fresh => exact if_pos ⟨stopped,fresh⟩
  | setTxInlineReuse stopped => exact if_neg (Bool.eq_false_iff.mp stopped)
  | prefillRing => rfl
  | tryReceive running => exact if_pos running
  | release running holding => exact if_pos ⟨running,holding⟩
  | acquire running pooled => exact if_pos ⟨running,pooled⟩
  | write granted => simp [step,granted]
  | commit running granted pending room => simp [step,running,granted,pending,room]
  | shutdown => rfl
  | arrive pooled => exact if_pos pooled
  | reap flying => simp [step,flying]

def start (ifname : String) (lcore : Int) (w : World) : State := ⟨construct ifname lcore,w,none,none,[],[]⟩

def labParams : Params := ⟨64,2,2048,by decide,by decide⟩

def blankWorld : World := ⟨fun _ _ => 0,fun _ => 0,fun _ => 0,fun _ => 0,[],fun _ => []⟩

end Abtrda3.Dpdk
